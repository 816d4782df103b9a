import VllmVerifier.Json.AlphabetProperties
import VllmVerifier.VerificationProperties

/-!
The surroundings of an accepted completion: white space, and at most one
Markdown fence. Inside the braces only a fixed alphabet occurs, so the place of
the object in the text is determined.
-/

set_option autoImplicit false

namespace VllmVerifier

open Python Json

def fences : List (Str × Str) :=
  [(lit "```json\n", lit "\n```"), (lit "```\n", lit "\n```")]

def backtick : Nat := 0x60

/-- The body of a stripped text: what one enclosing fence holds, or the text
itself when it is not enclosed. -/
inductive FenceRemoved (text : Str) : Str → Prop where
  | enclosed {fence : Str × Str} {body : Str} :
      fence ∈ fences → text = fence.1 ++ body ++ fence.2 → FenceRemoved text body
  | bare : (∀ fence ∈ fences, ∀ body, text ≠ fence.1 ++ body ++ fence.2) →
      FenceRemoved text text

/-- What an object of the output grammar can contain between its braces. -/
def bodyAlphabet : Str := structural ++ lit "noul" ++ lit "probabilities"

theorem numberValue_shows {value : Json} {number : ℚ} (known : numberValue value = some number)
    (code : Nat) : value.shows code = false := by
  cases value with
  | number => rfl
  | null | bool | str | array | object => simp [numberValue] at known

theorem Distribution.showsItems_false {items : List Json} {values : List ℚ}
    (accepted : Distribution items values) (code : Nat) : showsItems code items = false := by
  have numbers := accepted.numbers
  clear accepted
  induction numbers with
  | nil => rfl
  | cons head _ ih => simp [showsItems, numberValue_shows head, ih]

/-- An admitted value is an object with one member whose text stays within the
body alphabet. -/
theorem Question.Admits.members {question : Question} {value : Json}
    (admitted : question.Admits value) :
    ∃ name member, value = .object [(name, member)] ∧
      ∀ code, code ∉ bodyAlphabet → showsMembers code [(name, member)] = false := by
  have names : ∀ code, code ∉ bodyAlphabet →
      code ∉ lit "noul" ∧ code ∉ lit "probabilities" := by
    intro code foreign
    simp only [bodyAlphabet, List.mem_append, not_or] at foreign
    exact ⟨foreign.1.2, foreign.2⟩
  cases question with
  | noul =>
      obtain ⟨member, number, shape, known, _⟩ := admitted
      refine ⟨_, _, shape, fun code foreign => ?_⟩
      simp [showsMembers, numberValue_shows known, (names code foreign).1]
  | choice =>
      obtain ⟨items, values, shape, _, accepted⟩ := admitted
      refine ⟨_, _, shape, fun code foreign => ?_⟩
      simp [showsMembers, Json.shows, accepted.showsItems_false, (names code foreign).2]
  | score =>
      obtain ⟨items, values, shape, _, accepted⟩ := admitted
      refine ⟨_, _, shape, fun code foreign => ?_⟩
      simp [showsMembers, Json.shows, accepted.showsItems_false, (names code foreign).2]

theorem Json.Blank.spaces {blank : Str} (valid : Blank blank) : Str.Spaces blank := by
  intro code member
  have known := valid code member
  simp only [isBlank, Bool.or_eq_true, beq_iff_eq] at known
  rcases known with ((rfl | rfl) | rfl) | rfl <;> decide

/-- A document of the output grammar is one brace pair between white space. -/
theorem Question.Admits.document_shape {question : Question} {value : Json} {text : Str}
    (admitted : question.Admits value) (document : Document value text) :
    ∃ before inner after, Str.Spaces before ∧ Str.Spaces after ∧
      (∀ code ∈ inner, code ∈ bodyAlphabet) ∧
        text = before ++ ord '{' :: (inner ++ ord '}' :: after) := by
  obtain ⟨name, member, rfl, quiet⟩ := admitted.members
  obtain ⟨before, shown, after, beforeBlank, derived, afterBlank, rfl⟩ := document
  obtain ⟨inner, rfl, inside⟩ := derived.object_inv (List.cons_ne_nil _ _)
  refine ⟨before, inner, after, beforeBlank.spaces, afterBlank.spaces, ?_, by simp⟩
  intro code written
  by_contra foreign
  have outside : code ∉ structural := fun known => foreign (by simp [bodyAlphabet, known])
  have shown := inside.shows_of_mem written outside
  simp only [Shape.shows, quiet code foreign] at shown
  cases shown

theorem not_mem_of_spaces {text : Str} (spaces : Str.Spaces text) {code : Nat}
    (visible : Str.isspace code = false) : code ∉ text := by
  intro member
  rw [spaces code member] at visible
  cases visible

theorem Question.Admits.backtick_not_mem {question : Question} {value : Json} {text : Str}
    (admitted : question.Admits value) (document : Document value text) : backtick ∉ text := by
  obtain ⟨before, inner, after, beforeSpaces, afterSpaces, quiet, rfl⟩ :=
    admitted.document_shape document
  have visible : Str.isspace backtick = false := by decide
  have outside : backtick ∉ inner := fun member => absurd (quiet _ member) (by decide)
  have opening : backtick ≠ ord '{' := by decide
  have closing : backtick ≠ ord '}' := by decide
  simp [not_mem_of_spaces beforeSpaces visible, not_mem_of_spaces afterSpaces visible, outside,
    opening, closing]

/-! ## Removing the fence -/

theorem unfence_enclosed {fence : Str × Str} (member : fence ∈ fences) (body : Str) :
    unfence (fence.1 ++ body ++ fence.2) = body := by
  have ends : Str.endswith (fence.1 ++ body ++ fence.2) fence.2 = true :=
    List.isSuffixOf_iff_suffix.mpr ⟨fence.1 ++ body, rfl⟩
  have starts : Str.startswith (fence.1 ++ body ++ fence.2) fence.1 = true :=
    List.isPrefixOf_iff_prefix.mpr ⟨body ++ fence.2, by simp⟩
  have sliced := Str.sliceBack_append fence.1 body fence.2
  rcases List.mem_cons.mp member with rfl | member
  · simp only [unfence, starts, ends, Bool.and_self, if_true]
    exact sliced
  · obtain rfl := List.mem_singleton.mp member
    have plain : Str.startswith (lit "```\n" ++ body ++ lit "\n```") (lit "```json\n") =
        false := rfl
    simp only [unfence, plain, starts, ends, Bool.and_self, Bool.false_and, if_true,
      Bool.false_eq_true, if_false]
    exact sliced

/-- The slices remove an enclosing fence, keep a text without one, or overlap
and leave nothing of a text that starts with a fence. -/
theorem unfence_shape (text : Str) :
    (∃ fence ∈ fences, text = fence.1 ++ unfence text ++ fence.2) ∨
      ((∀ fence ∈ fences, ∀ body, text ≠ fence.1 ++ body ++ fence.2) ∧ unfence text = text) ∨
        (unfence text = [] ∧ backtick ∈ text) := by
  have opened : ∀ fence ∈ fences, Str.startswith text fence.1 = true → backtick ∈ text := by
    intro fence member starts
    obtain ⟨tail, rfl⟩ := List.isPrefixOf_iff_prefix.mp starts
    have marked : ∀ fence ∈ fences, backtick ∈ fence.1 := by decide
    exact List.mem_append_left _ (marked fence member)
  have first : (lit "```json\n", lit "\n```") ∈ fences := List.mem_cons_self
  have second : (lit "```\n", lit "\n```") ∈ fences := by simp [fences]
  unfold unfence
  split
  · rename_i fenced
    obtain ⟨starts, ends⟩ := Bool.and_eq_true_iff.mp fenced
    rcases Str.sliceBack_shape starts ends with shape | empty
    · exact .inl ⟨_, first, shape⟩
    · exact .inr (.inr ⟨empty, opened _ first starts⟩)
  · rename_i notJson
    split
    · rename_i fenced
      obtain ⟨starts, ends⟩ := Bool.and_eq_true_iff.mp fenced
      rcases Str.sliceBack_shape starts ends with shape | empty
      · exact .inl ⟨_, second, shape⟩
      · exact .inr (.inr ⟨empty, opened _ second starts⟩)
    · rename_i notPlain
      refine .inr (.inl ⟨fun fence member body shape => ?_, rfl⟩)
      have starts : Str.startswith text fence.1 = true :=
        List.isPrefixOf_iff_prefix.mpr ⟨body ++ fence.2, by simp [shape]⟩
      have ends : Str.endswith text fence.2 = true :=
        List.isSuffixOf_iff_suffix.mpr ⟨fence.1 ++ body, shape.symm⟩
      rcases List.mem_cons.mp member with rfl | member
      · exact notJson (Bool.and_eq_true_iff.mpr ⟨starts, ends⟩)
      · obtain rfl := List.mem_singleton.mp member
        exact notPlain (Bool.and_eq_true_iff.mpr ⟨starts, ends⟩)

theorem not_document_nil (value : Json) : ¬ Document value [] := by
  intro given
  obtain ⟨before, inner, after, _, derived, _, shape⟩ := given
  obtain ⟨code, rest, known⟩ := derived.head
  simp_all

/-- The body that `strict_json` reads is the one without the fence, for every
document of the output grammar. -/
theorem unfence_document_iff {text : Str} {question : Question} {value : Json}
    (admitted : question.Admits value) :
    Document value (unfence text) ↔ ∃ body, FenceRemoved text body ∧ Document value body := by
  constructor
  · intro document
    rcases unfence_shape text with ⟨fence, member, shape⟩ | ⟨bare, same⟩ | ⟨empty, _⟩
    · exact ⟨_, .enclosed member shape, document⟩
    · exact ⟨_, .bare bare, same ▸ document⟩
    · exact absurd (empty ▸ document) (not_document_nil value)
  · intro given
    obtain ⟨body, removed, document⟩ := given
    cases removed with
    | enclosed member shape =>
        rw [shape, unfence_enclosed member]
        exact document
    | bare notEnclosed =>
        rcases unfence_shape text with ⟨fence, member, shape⟩ | ⟨_, same⟩ | ⟨_, marked⟩
        · exact absurd shape (notEnclosed fence member _)
        · exact same.symm ▸ document
        · exact absurd marked (admitted.backtick_not_mem document)

/-! ## Surroundings -/

/-- An accepted completion taken apart: white space, at most one fence, and one
brace pair whose inside stays within the body alphabet. -/
structure Enclosure (text : Str) where
  fence : Str × Str
  known : fence = ([], []) ∨ fence ∈ fences
  before : Str
  gap : Str
  inner : Str
  gapAfter : Str
  after : Str
  beforeSpaces : Str.Spaces before
  gapSpaces : Str.Spaces gap
  gapAfterSpaces : Str.Spaces gapAfter
  afterSpaces : Str.Spaces after
  quiet : ∀ code ∈ inner, code ∈ bodyAlphabet
  shape : text = before ++ fence.1 ++ gap ++ ord '{' ::
    (inner ++ ord '}' :: (gapAfter ++ fence.2 ++ after))

theorem FenceRemoved.cases_fence {text body : Str} (removed : FenceRemoved text body) :
    ∃ fence : Str × Str, (fence = ([], []) ∨ fence ∈ fences) ∧
      text = fence.1 ++ body ++ fence.2 := by
  cases removed with
  | enclosed member shape => exact ⟨_, .inr member, shape⟩
  | bare => exact ⟨([], []), .inl rfl, by simp⟩

theorem enclosure_of_verify {F : Type} [LogField F] {text : Str} {question : Question}
    {answer : Answer F} (accepted : verify text question = .ok answer) :
    Nonempty (Enclosure text) := by
  obtain ⟨value, read, admitted⟩ := (verify_ok_iff text question).mp ⟨answer, accepted⟩
  obtain ⟨document, _⟩ := strictJson_ok_iff.mp read
  obtain ⟨body, removed, bodyDocument⟩ := (unfence_document_iff admitted).mp document
  obtain ⟨fence, known, stripped⟩ := removed.cases_fence
  obtain ⟨before, after, beforeSpaces, afterSpaces, shape⟩ := Str.strip_shape text
  obtain ⟨gap, inner, gapAfter, gapSpaces, gapAfterSpaces, quiet, bodyShape⟩ :=
    admitted.document_shape bodyDocument
  refine ⟨⟨fence, known, before, gap, inner, gapAfter, after, beforeSpaces, gapSpaces,
    gapAfterSpaces, afterSpaces, quiet, ?_⟩⟩
  rw [shape, stripped, bodyShape]
  simp

namespace Enclosure

variable {text : Str}

def head (enclosure : Enclosure text) : Str :=
  enclosure.before ++ enclosure.fence.1 ++ enclosure.gap

def tail (enclosure : Enclosure text) : Str :=
  enclosure.gapAfter ++ enclosure.fence.2 ++ enclosure.after

theorem fence_not_mem (enclosure : Enclosure text) {code : Nat} (brace : code = ord '{' ∨
    code = ord '}') : code ∉ enclosure.fence.1 ∧ code ∉ enclosure.fence.2 := by
  have absent : ∀ fence ∈ ([], []) :: fences, ord '{' ∉ fence.1 ∧ ord '{' ∉ fence.2 ∧
      ord '}' ∉ fence.1 ∧ ord '}' ∉ fence.2 := by decide
  obtain ⟨first, second, third, fourth⟩ := absent enclosure.fence
    (List.mem_cons.mpr enclosure.known)
  rcases brace with rfl | rfl
  · exact ⟨first, second⟩
  · exact ⟨third, fourth⟩

theorem brace_not_mem (enclosure : Enclosure text) {code : Nat} (brace : code = ord '{' ∨
    code = ord '}') : code ∉ enclosure.head ∧ code ∉ enclosure.inner ∧ code ∉ enclosure.tail := by
  have visible : Str.isspace code = false := by rcases brace with rfl | rfl <;> decide
  have outside : code ∉ bodyAlphabet := by rcases brace with rfl | rfl <;> decide
  obtain ⟨opening, closing⟩ := enclosure.fence_not_mem brace
  refine ⟨?_, fun member => outside (enclosure.quiet code member), ?_⟩
  · simp [head, opening, not_mem_of_spaces enclosure.beforeSpaces visible,
      not_mem_of_spaces enclosure.gapSpaces visible]
  · simp [tail, closing, not_mem_of_spaces enclosure.gapAfterSpaces visible,
      not_mem_of_spaces enclosure.afterSpaces visible]

theorem shape_head_tail (enclosure : Enclosure text) : text = enclosure.head ++ ord '{' ::
    (enclosure.inner ++ ord '}' :: enclosure.tail) := enclosure.shape

theorem align {left right : Str} (inside : Enclosure text)
    (outside : Enclosure (left ++ text ++ right)) :
    left ++ inside.head = outside.head ∧ inside.tail ++ right = outside.tail := by
  obtain ⟨headFree, innerFree, tailFree⟩ := outside.brace_not_mem (.inl rfl)
  obtain ⟨_, innerOpen, tailOpen⟩ := outside.brace_not_mem (.inr rfl)
  have distinct : ord '{' ≠ ord '}' := by decide
  have innerRest : ord '{' ∉ outside.inner ++ ord '}' :: outside.tail := by
    simp [innerFree, tailFree, distinct]
  have whole : outside.head ++ ord '{' :: (outside.inner ++ ord '}' :: outside.tail) =
      (left ++ inside.head) ++ ord '{' ::
        (inside.inner ++ ord '}' :: (inside.tail ++ right)) := by
    have split : left ++ text ++ right = (left ++ inside.head) ++ ord '{' ::
        (inside.inner ++ ord '}' :: (inside.tail ++ right)) := by
      conv_lhs => rw [inside.shape_head_tail]
      simp
    rw [← split]
    exact outside.shape_head_tail.symm
  obtain ⟨heads, _, rest⟩ := (List.append_cons_inj_of_notMem headFree innerRest).mp whole
  obtain ⟨_, _, tails⟩ := (List.append_cons_inj_of_notMem innerOpen tailOpen).mp rest
  exact ⟨heads.symm, tails.symm⟩

theorem backtick_not_mem (enclosure : Enclosure text) (headSpaces : Str.Spaces enclosure.head)
    (tailSpaces : Str.Spaces enclosure.tail) : backtick ∉ text := by
  have visible : Str.isspace backtick = false := by decide
  have outside : backtick ∉ enclosure.inner :=
    fun member => absurd (enclosure.quiet _ member) (by decide)
  have opening : backtick ≠ ord '{' := by decide
  have closing : backtick ≠ ord '}' := by decide
  intro member
  rw [enclosure.shape_head_tail] at member
  simp [not_mem_of_spaces headSpaces visible, not_mem_of_spaces tailSpaces visible, outside,
    opening, closing] at member

theorem count_backtick (enclosure : Enclosure text) :
    (enclosure.fence = ([], []) ∧ Str.Spaces enclosure.head ∧ Str.Spaces enclosure.tail) ∨
      (enclosure.fence ∈ fences ∧ enclosure.head.count backtick = 3 ∧
        enclosure.tail.count backtick = 3) := by
  have visible : Str.isspace backtick = false := by decide
  have absent : ∀ {blank : Str}, Str.Spaces blank → blank.count backtick = 0 :=
    fun spaces => List.count_eq_zero.mpr (not_mem_of_spaces spaces visible)
  rcases enclosure.known with none | known
  · refine .inl ⟨none, ?_, ?_⟩
    · simp [head, none, Str.spaces_append, enclosure.beforeSpaces, enclosure.gapSpaces]
    · simp [tail, none, Str.spaces_append, enclosure.gapAfterSpaces, enclosure.afterSpaces]
  · have three : ∀ fence ∈ fences, fence.1.count backtick = 3 ∧ fence.2.count backtick = 3 := by
      decide
    refine .inr ⟨known, ?_, ?_⟩
    · simp [head, absent enclosure.beforeSpaces, absent enclosure.gapSpaces, three _ known]
    · simp [tail, absent enclosure.gapAfterSpaces, absent enclosure.afterSpaces, three _ known]

end Enclosure

private theorem spaces_of_append_left {left rest before others : Str} {mark : Nat}
    (same : left ++ rest = before ++ mark :: others) (absent : mark ∉ left)
    (spaces : Str.Spaces before) : Str.Spaces left := by
  rcases List.append_eq_append_iff.mp same with ⟨extra, rfl, _⟩ | ⟨extra, rfl, shape⟩
  · exact (Str.spaces_append.mp spaces).1
  · cases extra with
    | nil => simpa using spaces
    | cons code extra =>
        cases shape
        simp at absent

private theorem spaces_of_append_right {right rest others after : Str} {mark : Nat}
    (same : rest ++ right = others ++ mark :: after) (absent : mark ∉ right)
    (spaces : Str.Spaces after) : Str.Spaces right := by
  have mirrored := congrArg List.reverse same
  simp only [List.reverse_append, List.reverse_cons, List.append_assoc, List.singleton_append]
    at mirrored
  have reversed := spaces_of_append_left mirrored (by simpa using absent)
    (fun code member => spaces code (List.mem_reverse.mp member))
  exact fun code member => reversed code (List.mem_reverse.mpr member)

private theorem split_before {left tail before rest : Str} {code : Nat}
    (same : left ++ tail = before ++ code :: rest) (absent : code ∉ tail) :
    ∃ gap, left = before ++ code :: gap ∧ rest = gap ++ tail := by
  rcases List.append_eq_append_iff.mp same with ⟨extra, _, shape⟩ | ⟨extra, leftShape, shape⟩
  · exact absurd (by simp [shape]) absent
  · cases extra with
    | nil => exact absurd (by rw [← List.nil_append tail, ← shape]; simp) absent
    | cons found gap =>
        cases shape
        exact ⟨gap, leftShape, rfl⟩

private theorem split_after {head right before rest : Str} {code : Nat}
    (same : head ++ right = before ++ code :: rest) (absent : code ∉ head) :
    ∃ gap, before = head ++ gap ∧ right = gap ++ code :: rest := by
  rcases List.append_eq_append_iff.mp same with
    ⟨extra, beforeShape, shape⟩ | ⟨extra, headShape, shape⟩
  · exact ⟨extra, beforeShape, shape⟩
  · cases extra with
    | nil => exact ⟨[], by simpa using headShape.symm, by simpa using shape.symm⟩
    | cons found gap =>
        cases shape
        exact absurd (by simp [headShape]) absent

/-- What stands around a completion that is itself one: white space, or a fence
around a completion that has none. -/
theorem Enclosure.surroundings {left text right : Str} (inside : Enclosure text)
    (outside : Enclosure (left ++ text ++ right)) :
    (Str.Spaces left ∧ Str.Spaces right) ∨
      (backtick ∉ text ∧ ∃ opening ∈ [lit "```json", lit "```"],
        ∃ before gap gapAfter after, Str.Spaces before ∧ Str.Spaces gap ∧
          Str.Spaces gapAfter ∧ Str.Spaces after ∧ left = before ++ opening ++ gap ∧
            right = gapAfter ++ lit "```" ++ after) := by
  obtain ⟨heads, tails⟩ := inside.align outside
  rcases outside.count_backtick with ⟨_, headSpaces, tailSpaces⟩ | ⟨known, headCount, tailCount⟩
  · rw [← heads] at headSpaces
    rw [← tails] at tailSpaces
    exact .inl ⟨(Str.spaces_append.mp headSpaces).1, (Str.spaces_append.mp tailSpaces).2⟩
  · rcases inside.count_backtick with ⟨_, headSpaces, tailSpaces⟩ | ⟨_, headInside, tailInside⟩
    · have visible : Str.isspace backtick = false := by decide
      have openings : ∀ fence ∈ fences, ∃ opening ∈ [lit "```json", lit "```"],
          ∃ body last, opening = body ++ [last] ∧ Str.isspace last = false ∧
            fence.1 = body ++ last :: lit "\n" ∧ fence.2 = lit "\n" ++ backtick :: lit "``" := by
        intro fence member
        rcases List.mem_cons.mp member with rfl | member
        · exact ⟨_, List.mem_cons_self, lit "```jso", ord 'n', rfl, by decide, rfl, rfl⟩
        · obtain rfl := List.mem_singleton.mp member
          exact ⟨_, List.mem_cons_of_mem _ List.mem_cons_self, lit "``", backtick, rfl, visible,
            rfl, rfl⟩
      obtain ⟨opening, listed, body, last, rfl, lastVisible, opens, closes⟩ := openings _ known
      have breakSpaces : Str.Spaces (lit "\n") := by
        unfold Str.Spaces
        decide
      have opened : left ++ inside.head =
          (outside.before ++ body) ++ last :: (lit "\n" ++ outside.gap) := by
        rw [heads, Enclosure.head, opens]
        simp
      have closed : inside.tail ++ right =
          (outside.gapAfter ++ lit "\n") ++ backtick :: (lit "``" ++ outside.after) := by
        rw [tails, Enclosure.tail, closes]
        simp
      obtain ⟨gap, leftShape, gapShape⟩ :=
        split_before opened (not_mem_of_spaces headSpaces lastVisible)
      obtain ⟨gapAfter, gapAfterShape, rightShape⟩ :=
        split_after closed (not_mem_of_spaces tailSpaces visible)
      have gapSpaces := Str.spaces_append.mpr ⟨breakSpaces, outside.gapSpaces⟩
      rw [gapShape] at gapSpaces
      have gapAfterSpaces := Str.spaces_append.mpr ⟨outside.gapAfterSpaces, breakSpaces⟩
      rw [gapAfterShape] at gapAfterSpaces
      refine .inr ⟨inside.backtick_not_mem headSpaces tailSpaces, body ++ [last], listed,
        outside.before, gap, gapAfter, outside.after, outside.beforeSpaces,
        (Str.spaces_append.mp gapSpaces).1, (Str.spaces_append.mp gapAfterSpaces).2,
        outside.afterSpaces, by simpa using leftShape, ?_⟩
      exact rightShape.trans (List.append_assoc gapAfter (lit "```") _).symm
    · rw [← heads, List.count_append, headInside] at headCount
      rw [← tails, List.count_append, tailInside] at tailCount
      have leftFree : backtick ∉ left := List.count_eq_zero.mp (by omega)
      have rightFree : backtick ∉ right := List.count_eq_zero.mp (by omega)
      have marked : ∀ fence ∈ fences, (∃ others, fence.1 = backtick :: others) ∧
          ∃ others, fence.2 = others ++ [backtick] := by
        intro fence member
        rcases List.mem_cons.mp member with rfl | member
        · exact ⟨⟨_, rfl⟩, lit "\n``", rfl⟩
        · obtain rfl := List.mem_singleton.mp member
          exact ⟨⟨_, rfl⟩, lit "\n``", rfl⟩
      obtain ⟨⟨opened, opening⟩, closed, closing⟩ := marked _ known
      left
      constructor
      · have start : left ++ inside.head =
            outside.before ++ backtick :: (opened ++ outside.gap) := by
          rw [heads, Enclosure.head, opening]
          simp
        exact spaces_of_append_left start leftFree outside.beforeSpaces
      · have finish : inside.tail ++ right =
            (outside.gapAfter ++ closed) ++ backtick :: outside.after := by
          rw [tails, Enclosure.tail, closing]
          simp
        exact spaces_of_append_right finish rightFree outside.afterSpaces

/-! ## Acceptance -/

/-- The texts that `verify` accepts are those whose body, the stripped text
without one enclosing fence, is a document of the question's grammar that
repeats no name. On every other text it raises `InvalidOutput` and nothing
else, and an accepted completion cannot be surrounded by more than white space
or its one fence. -/
theorem verify_accepts_exactly {F : Type} [LogField F] (text : Str) (question : Question) :
    ((∃ answer : Answer F, verify text question = .ok answer) ↔
      ∃ body value, FenceRemoved (Str.strip text) body ∧ Document value body ∧
        value.distinctNames = true ∧ question.Admits value) ∧
    ((¬ ∃ body value, FenceRemoved (Str.strip text) body ∧ Document value body ∧
        value.distinctNames = true ∧ question.Admits value) →
      ∃ message, verify (F := F) text question = .error (.invalidOutput message)) ∧
    (∀ raised, verify (F := F) text question = .error raised →
      ∃ message, raised = .invalidOutput message) ∧
    (∀ left right other, (∃ answer : Answer F, verify text question = .ok answer) →
      (∃ answer : Answer F, verify (left ++ text ++ right) other = .ok answer) →
      (Str.Spaces left ∧ Str.Spaces right) ∨
        (backtick ∉ text ∧ ∃ opening ∈ [lit "```json", lit "```"],
          ∃ before gap gapAfter after, Str.Spaces before ∧ Str.Spaces gap ∧
            Str.Spaces gapAfter ∧ Str.Spaces after ∧ left = before ++ opening ++ gap ∧
              right = gapAfter ++ lit "```" ++ after)) := by
  have accepts : (∃ answer : Answer F, verify text question = .ok answer) ↔
      ∃ body value, FenceRemoved (Str.strip text) body ∧ Document value body ∧
        value.distinctNames = true ∧ question.Admits value := by
    rw [verify_ok_iff]
    constructor
    · intro given
      obtain ⟨value, read, admitted⟩ := given
      obtain ⟨document, distinct⟩ := strictJson_ok_iff.mp read
      obtain ⟨body, removed, bodyDocument⟩ := (unfence_document_iff admitted).mp document
      exact ⟨body, value, removed, bodyDocument, distinct, admitted⟩
    · intro given
      obtain ⟨body, value, removed, document, distinct, admitted⟩ := given
      have read := (unfence_document_iff admitted).mpr ⟨body, removed, document⟩
      exact ⟨value, strictJson_ok_iff.mpr ⟨read, distinct⟩, admitted⟩
  refine ⟨accepts, fun rejected => ?_, verify_only text question, ?_⟩
  · cases outcome : verify (F := F) text question with
    | ok answer => exact absurd (accepts.mp ⟨answer, outcome⟩) rejected
    | error raised =>
        obtain ⟨message, rfl⟩ := verify_only text question raised outcome
        exact ⟨message, rfl⟩
  · intro left right other given other
    obtain ⟨answer, accepted⟩ := given
    obtain ⟨surrounded, surroundedAccepted⟩ := other
    obtain ⟨inside⟩ := enclosure_of_verify accepted
    obtain ⟨outside⟩ := enclosure_of_verify surroundedAccepted
    exact inside.surroundings outside

end VllmVerifier
