import VllmVerifier.Decision.RecordsProperties
import VllmVerifier.Json.CanonicalProperties

/-!
Structured content is scored as its canonical text, so the rows of a request do
not depend on the order in which its objects list their members.
-/

set_option autoImplicit false

namespace VllmVerifier.Decision

open Python

/-! ## Contents -/

/-- The content is an object or an array. -/
def Structured (value : Content) : Prop :=
  (∃ members, value.value = .object members) ∨ ∃ items, value.value = .array items

/-- Contents that differ at most in the order of object members, at any depth. -/
def SameContent (left right : Content) : Prop := Json.Same left.value right.value

theorem contentText_structured {value : Content} (structured : Structured value) :
    Json.dumps .canonical value.value = some (contentText value) := by
  obtain ⟨json, shape, finite, distinct⟩ := value
  rcases structured with ⟨members, rfl⟩ | ⟨items, rfl⟩
  · exact (Option.some_get _).symm
  · exact (Option.some_get _).symm

theorem structured_visible {value : Content} (structured : Structured value) :
    Visible (contentText value) := by
  have written := contentText_structured structured
  generalize contentText value = text at written ⊢
  rcases structured with ⟨members, shape⟩ | ⟨items, shape⟩
  · rw [shape, Json.dumps] at written
    obtain ⟨parts, _, made⟩ := Option.bind_eq_some_iff.mp written
    cases made
    exact ⟨ord '{', by simp, by decide⟩
  · rw [shape, Json.dumps] at written
    obtain ⟨parts, _, made⟩ := Option.bind_eq_some_iff.mp written
    cases made
    exact ⟨ord '[', by simp, by decide⟩

theorem contentText_eq_iff {left right : Content} (structured : Structured left)
    (structured' : Structured right) :
    contentText left = contentText right ↔ SameContent left right := by
  rw [SameContent, ← Json.dumps_canonical_iff left.finite left.distinct right.distinct,
    contentText_structured structured, contentText_structured structured', Option.some.injEq]

theorem contentText_congr {left right : Content} (same : SameContent left right) :
    contentText left = contentText right := by
  have shape := left.shape
  have known := same
  unfold SameContent at same
  generalize leftShape : left.value = leftValue at same shape
  generalize rightShape : right.value = rightValue at same
  cases same with
  | null | bool | number => cases shape
  | str => simp only [contentText, leftShape, rightShape]
  | array => exact (contentText_eq_iff (.inr ⟨_, leftShape⟩) (.inr ⟨_, rightShape⟩)).mpr known
  | object => exact (contentText_eq_iff (.inl ⟨_, leftShape⟩) (.inl ⟨_, rightShape⟩)).mpr known

/-! ## Requests -/

inductive SameQuestion : Question → Question → Prop where
  | choice {left right : Choice}
      (instructions : Option.Rel SameContent left.instructions right.instructions)
      (criteria : List.Forall₂ (fun entry other => entry.1 = other.1 ∧
        Option.Rel SameContent entry.2 other.2) left.criteria.entries right.criteria.entries) :
      SameQuestion (.choice left) (.choice right)
  | score {left right : Score}
      (instructions : Option.Rel SameContent left.instructions right.instructions)
      (criteria : List.Forall₂ SameContent left.criteria right.criteria) :
      SameQuestion (.score left) (.score right)
  | noul {left right : Noul}
      (instructions : Option.Rel SameContent left.instructions right.instructions)
      (criteria : Option.Rel (fun criteria other =>
        Option.Rel SameContent criteria.falseCriterion other.falseCriterion ∧
          Option.Rel SameContent criteria.trueCriterion other.trueCriterion)
        left.criteria right.criteria) :
      SameQuestion (.noul left) (.noul right)

/-- Requests whose contents differ at most in the order of object members. -/
structure SameRequest (left right : SystemOneRequest) : Prop where
  state : SameContent left.state right.state
  questions : List.Forall₂ (fun entry other => entry.1 = other.1 ∧ SameQuestion entry.2 other.2)
    left.questions.entries right.questions.entries

theorem content_congr {left right : Option Content} (same : Option.Rel SameContent left right)
    (default : Str) : content left default = content right default := by
  cases same with
  | some related => simp only [content, contentText_congr related]
  | none => rfl

theorem criterionText_congr {left right : Option Content}
    (same : Option.Rel SameContent left right) : criterionText left = criterionText right := by
  cases same with
  | some related => simp only [criterionText, content_congr (.some related)]
  | none => rfl

theorem rowOption_congr {entry other : Str × Option Content} (label : entry.1 = other.1)
    (same : Option.Rel SameContent entry.2 other.2) : rowOption entry = rowOption other := by
  obtain ⟨name, description⟩ := entry
  obtain ⟨name', description'⟩ := other
  cases label
  cases same with
  | some related => simp only [rowOption, content_congr (.some related)]
  | none => rfl

theorem record_congr {left right : Question} (same : SameQuestion left right) (state id : Str) :
    record state (id, left) = record state (id, right) := by
  cases same with
  | @choice left right asked criteria =>
      have options : left.criteria.entries.mapM rowOption =
          right.criteria.entries.mapM rowOption :=
        mapM_congr (criteria.imp fun _ _ related => rowOption_congr related.1 related.2)
      simp only [record, instructions, content_congr asked, criteria.length_eq, options]
  | @score left right asked criteria =>
      have levels : left.criteria.zipIdx.mapM rowLevel = right.criteria.zipIdx.mapM rowLevel :=
        mapM_congr ((forall₂_zipIdx 0 criteria).imp fun entry other related => by
          simp only [rowLevel, content_congr (.some related.1), related.2])
      simp only [record, instructions, content_congr asked, criteria.length_eq, levels]
  | @noul left right asked criteria =>
      obtain ⟨_, leftCriteria⟩ := left
      obtain ⟨_, rightCriteria⟩ := right
      cases criteria with
      | some related =>
          simp only [record, instructions, content_congr asked, criterionText_congr related.1,
            criterionText_congr related.2]
      | none => simp only [record, instructions, content_congr asked]

theorem records_congr {left right : SystemOneRequest} (same : SameRequest left right) :
    records left = records right := by
  have rows : ∀ state, left.questions.entries.mapM (record state) =
      right.questions.entries.mapM (record state) := by
    intro state
    refine mapM_congr (same.questions.imp fun entry other related => ?_)
    obtain ⟨id, question⟩ := entry
    obtain ⟨id', question'⟩ := other
    cases related.1
    exact record_congr related.2 state id
  simp only [records, content_congr (.some same.state), rows]

/-- The content of objects and arrays is the same text exactly when they are
equal up to the order of members, and requests that differ only in that order
have the same rows. -/
theorem content_canonical :
    (∀ left right default, Structured left → Structured right →
      (content (some left) default = content (some right) default ↔ SameContent left right)) ∧
    ∀ left right, SameRequest left right → records left = records right := by
  refine ⟨fun left right default structured structured' => ?_, fun left right => records_congr⟩
  rw [← contentText_eq_iff structured structured',
    content_some_ok_iff.mpr ⟨structured_visible structured, rfl⟩,
    content_some_ok_iff.mpr ⟨structured_visible structured', rfl⟩, Except.ok.injEq]

def orderedContent : Content :=
  ⟨.object [(lit "a", .number (.int 1)), (lit "b", .null)], rfl, rfl, by decide⟩

def reorderedContent : Content :=
  ⟨.object [(lit "b", .null), (lit "a", .number (.int 1))], rfl, rfl, by decide⟩

theorem content_canonical_reordered :
    content (some orderedContent) [] = content (some reorderedContent) [] := by
  refine (content_canonical.1 orderedContent reorderedContent [] (.inl ⟨_, rfl⟩)
    (.inl ⟨_, rfl⟩)).mpr ?_
  exact .object rfl (.cons (List.mem_cons_of_mem _ List.mem_cons_self) .number
    (.cons List.mem_cons_self .null .nil))

end VllmVerifier.Decision
