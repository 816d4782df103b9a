import VllmVerifier.CustomerService.Slots

/-!
Search phrases and prefixed values: what the patterns of free text read, and when
it is more than white space.
-/

set_option autoImplicit false

namespace VllmVerifier.CustomerService

open Python

/-! ## Visible values -/

theorem not_spaces_take_strip {text : Str} {count : Nat} (positive : 0 < count)
    (visible : ¬ Str.Spaces text) : ¬ Str.Spaces ((Str.strip text).take count) := by
  cases stripped : Str.strip text with
  | nil => exact absurd (Str.strip_eq_nil_iff.mp stripped) visible
  | cons code rest =>
      obtain ⟨fuel, rfl⟩ := Nat.exists_eq_add_of_lt positive
      rw [Nat.zero_add, List.take_succ_cons]
      exact Str.not_spaces_of_mem List.mem_cons_self (Str.strip_head stripped)

theorem not_spaces_of_suffix {text before rest : Str} (stripped : Str.strip text = text)
    (shape : text = before ++ rest) (inside : rest ≠ []) : ¬ Str.Spaces rest := by
  obtain ⟨start, last, rfl⟩ := (List.eq_nil_or_concat rest).resolve_left inside
  rw [List.concat_eq_append] at shape ⊢
  have visible := @Str.strip_last text (before ++ start) last (by
    rw [stripped, shape, List.append_assoc])
  exact Str.not_spaces_of_mem (List.mem_append_right _ (List.mem_singleton_self _)) visible

theorem whole_of_stripped {text before value after : Str} (stripped : Str.strip text = text)
    (shape : text = before ++ (value ++ after)) (early : Str.Spaces before)
    (late : Str.Spaces after) : value = text := by
  obtain rfl : before = [] := by
    cases before with
    | nil => rfl
    | cons code rest =>
        have visible := @Str.strip_head text (rest ++ (value ++ after)) code
          (by rw [stripped, shape]; rfl)
        exact absurd early (Str.not_spaces_of_mem List.mem_cons_self visible)
  obtain rfl : after = [] := by
    by_contra inside
    rw [← List.append_assoc] at shape
    exact not_spaces_of_suffix stripped shape inside late
  rw [shape, List.nil_append, List.append_nil]

/-! ## Prefixed values -/

/-- The rest of a line, `(.+)`. -/
theorem matches_line_iff {before : Option Nat} {text rest : Str} {group : Option Str} :
    Regex.Matches (.group (.greedy 1 none Pattern.anyCode)) before text group rest ↔
      (1 ≤ text.length ∧ ∀ code ∈ text, Pattern.anyCode code = true) ∧ group = some text := by
  simp

theorem line_present (before : Option Nat) {code : Nat} (rest : Str)
    (line : Pattern.anyCode code = true) :
    Regex.found (.group (.greedy 1 none Pattern.anyCode)) before (code :: rest) ≠ [] := by
  have member : (⟨[code], some [code], rest⟩ : Regex.Found) ∈
      Regex.found (.group (.greedy 1 none Pattern.anyCode)) before (code :: rest) := by
    refine Regex.mem_found_iff.mpr ⟨matches_line_iff.mpr ⟨⟨Nat.le_refl _, ?_⟩, rfl⟩, rfl⟩
    intro other single
    rw [List.mem_singleton.mp single, line]
  exact List.ne_nil_of_mem member

/-- Where white space is skipped first, the rest of a line begins with something
visible. -/
theorem visible_of_line {before : Option Nat} {text value : Str} {candidate : Regex.Found}
    (chosen : (Regex.found (.seq Pattern.spaces (.group (.greedy 1 none Pattern.anyCode)))
      before text).head? = some candidate)
    (grouped : candidate.group = some value) (visible : ¬ Str.Spaces text) :
    ¬ Str.Spaces value := by
  cases run : text.dropWhile Str.isspace with
  | nil => exact absurd (List.dropWhile_eq_nil_iff.mp run) visible
  | cons code others =>
      have clear : Str.isspace code = false := by
        have head := List.head?_dropWhile_not Str.isspace text
        rw [run] at head
        exact head
      have line : Pattern.anyCode code = true := by
        rw [Pattern.anyCode, bne_iff_ne]
        intro same
        subst same
        cases clear
      obtain ⟨inner, member, same⟩ := Regex.head_greedy chosen (by
        rw [run]
        exact line_present _ others line)
      rw [run] at member
      obtain ⟨matched, split⟩ := Regex.mem_found_iff.mp member
      obtain ⟨⟨least, _⟩, captured⟩ := matches_line_iff.mp matched
      rw [← same, grouped] at captured
      cases captured
      obtain ⟨head, tail, text⟩ := List.exists_cons_of_length_pos least
      rw [text] at split ⊢
      cases split
      exact Str.not_spaces_of_mem List.mem_cons_self clear

theorem prefixed_visible {text start value : Str} (stripped : Str.strip text = text)
    (found : (Regex.search (Pattern.prefixed start) text).bind Regex.Found.group = some value) :
    ¬ Str.Spaces value := by
  obtain ⟨candidate, chosen, grouped⟩ := Option.bind_eq_some_iff.mp found
  obtain ⟨skipped, shape, first, _⟩ := Regex.search_some chosen
  obtain ⟨word, afterWord, _, wordShape, second, grouped⟩ := Regex.head_after first rfl grouped
  obtain ⟨gap, afterGap, _, gapShape, third, grouped⟩ := Regex.head_after second rfl grouped
  obtain ⟨mark, rest, next, markShape, fourth, grouped⟩ := Regex.head_after third rfl grouped
  rw [wordShape, gapShape, markShape, ← List.append_assoc, ← List.append_assoc,
    ← List.append_assoc] at shape
  refine visible_of_line fourth grouped (not_spaces_of_suffix stripped shape ?_)
  intro same
  subst same
  obtain ⟨matched, split⟩ := Regex.mem_found_iff.mp (List.mem_of_mem_head? fourth)
  obtain ⟨_, line, _, _, whole, _, _, last⟩ := Regex.matches_seq_iff.mp matched
  have least := (matches_line_iff.mp last).1.1
  rw [(List.append_eq_nil_iff.mp split.symm).1] at whole
  rw [(List.append_eq_nil_iff.mp whole.symm).2] at least
  cases least

/-! ## Search phrases -/

/-- The words that ask for a search. -/
def searchCues : List Str := [lit "찾아", lit "검색해", lit "추천해"]

/-- The words that a search leaves out at its beginning. -/
def fillerWords : List Str := [lit "혹시", lit "그럼", lit "저는", lit "나는"]

/-- A part of a line with a search cue after it. -/
structure Phrase (text before group after : Str) : Prop where
  shape : text = before ++ (group ++ after)
  visible : 1 ≤ group.length
  line : ∀ code ∈ group, Pattern.anyCode code = true
  asks : ∃ gap cue rest, Str.Spaces gap ∧ cue ∈ searchCues ∧ after = gap ++ (cue ++ rest)

/-- The first search phrase, up to its first cue. -/
structure FirstPhrase (text before group after : Str) : Prop extends
    Phrase text before group after where
  leftmost : ∀ earlier other later, Phrase text earlier other later →
    before.length ≤ earlier.length
  shortest : ∀ other later, Phrase text before other later → group.length ≤ other.length

/-- The first search phrase of the text is a filler word alone. -/
def FillerSearch (text : Str) : Prop :=
  ∃ before group after, FirstPhrase text before group after ∧ group ∈ fillerWords

theorem matches_cue_iff {before : Option Nat} {text rest : Str} {group : Option Str} :
    Regex.Matches (.seq Pattern.spaces (.oneOf searchCues)) before text group rest ↔
      (∃ gap cue, Str.Spaces gap ∧ cue ∈ searchCues ∧ text = gap ++ cue) ∧ group = none := by
  have nonempty : searchCues ≠ [] := List.cons_ne_nil _ _
  simp only [Regex.matches_seq_iff, Pattern.spaces, Regex.matches_greedy_iff,
    Regex.matches_oneOf_iff nonempty]
  constructor
  · intro given
    obtain ⟨gap, cue, _, _, rfl, rfl, ⟨⟨_, _, spaces⟩, rfl⟩, member, rfl⟩ := given
    exact ⟨⟨gap, cue, spaces, member, rfl⟩, rfl⟩
  · intro given
    obtain ⟨⟨gap, cue, spaces, member, rfl⟩, rfl⟩ := given
    exact ⟨gap, cue, none, none, rfl, rfl, ⟨⟨Nat.zero_le _, by simp, spaces⟩, rfl⟩, member, rfl⟩

theorem cue_present_iff {before : Option Nat} {text : Str} :
    Regex.found (.seq Pattern.spaces (.oneOf searchCues)) before text ≠ [] ↔
      ∃ gap cue rest, Str.Spaces gap ∧ cue ∈ searchCues ∧ text = gap ++ (cue ++ rest) := by
  constructor
  · intro present
    obtain ⟨candidate, member⟩ := List.exists_mem_of_ne_nil _ present
    obtain ⟨matched, shape⟩ := Regex.mem_found_iff.mp member
    obtain ⟨⟨gap, cue, spaces, listed, same⟩, _⟩ := matches_cue_iff.mp matched
    rw [same, List.append_assoc] at shape
    exact ⟨gap, cue, candidate.rest, spaces, listed, shape⟩
  · intro given
    obtain ⟨gap, cue, rest, spaces, listed, rfl⟩ := given
    have member : (⟨gap ++ cue, none, rest⟩ : Regex.Found) ∈
        Regex.found (.seq Pattern.spaces (.oneOf searchCues)) before (gap ++ (cue ++ rest)) :=
      Regex.mem_found_iff.mpr
        ⟨matches_cue_iff.mpr ⟨⟨gap, cue, spaces, listed, rfl⟩, rfl⟩, by simp⟩
    exact List.ne_nil_of_mem member

theorem query_shape : Pattern.query =
    .seq (.group (.lazy 1 Pattern.anyCode)) (.seq Pattern.spaces (.oneOf searchCues)) := rfl

section Phrase

variable {text before group after : Str}

theorem Phrase.present (phrase : Phrase text before group after) :
    Regex.found Pattern.query before.getLast? (group ++ after) ≠ [] := by
  have member : (⟨group, some group, after⟩ : Regex.Found) ∈
      Regex.found (.group (.lazy 1 Pattern.anyCode)) before.getLast? (group ++ after) :=
    Regex.mem_found_iff.mpr ⟨.group (.lazy phrase.visible phrase.line), rfl⟩
  exact Regex.found_seq_ne_nil member (cue_present_iff.mpr phrase.asks)

theorem FirstPhrase.unique {earlier other later : Str} (first : FirstPhrase text before group after)
    (second : FirstPhrase text earlier other later) :
    before = earlier ∧ group = other ∧ after = later := by
  have lengths : before.length = earlier.length :=
    Nat.le_antisymm (first.leftmost _ _ _ second.toPhrase) (second.leftmost _ _ _ first.toPhrase)
  obtain ⟨rfl, rests⟩ := List.append_inj (first.shape.symm.trans second.shape) lengths
  obtain ⟨rfl, rfl⟩ := List.append_inj rests (Nat.le_antisymm (first.shortest _ _ second.toPhrase)
    (second.shortest _ _ first.toPhrase))
  exact ⟨rfl, rfl, rfl⟩

/-- A search for a query finds the first phrase. -/
theorem search_query_iff :
    (Regex.search Pattern.query text).bind Regex.Found.group = some group ↔
      ∃ before after, FirstPhrase text before group after := by
  refine Regex.search_group_iff (fun candidate chosen => ?_)
    (fun first => ⟨_, _, first.shape, first.present⟩) fun first second => (first.unique second).2.1
  obtain ⟨before, shape, first, leftmost⟩ := Regex.search_leftmost chosen
  rw [query_shape] at first
  obtain ⟨value, after, grouped, split, visible, line, asks, shortest⟩ := Regex.head_lazy first
  rw [split] at shape
  refine ⟨before, value, after, grouped, ⟨shape, visible, line, cue_present_iff.mp asks⟩, ?_, ?_⟩
  · exact fun earlier other later phrase => leftmost earlier _ phrase.shape phrase.present
  · intro other later phrase
    refine shortest other later ?_ phrase.visible phrase.line (cue_present_iff.mpr phrase.asks)
    rw [split]
    exact List.append_cancel_left (shape.symm.trans phrase.shape)

private theorem split_last {α : Type} {holds : α → Bool} {items : List α} {item : α}
    (member : item ∈ items) (found : holds item = true) :
    ∃ start last finish, items = start ++ last :: finish ∧ holds last = true ∧
      ∀ other ∈ finish, holds other = false := by
  induction items using List.reverseRecOn with
  | nil => cases member
  | append_singleton items final ih =>
      cases here : holds final with
      | true => exact ⟨items, final, [], rfl, here, List.forall_mem_nil _⟩
      | false =>
          rcases List.mem_append.mp member with early | single
          · obtain ⟨start, last, finish, rfl, held, none⟩ := ih early
            refine ⟨start, last, finish ++ [final], by simp, held, ?_⟩
            exact List.forall_mem_append.mpr ⟨none, by simpa using here⟩
          · rw [List.mem_singleton.mp single, here] at found
            cases found

/-- The first phrase of a stripped text is visible: white space before a cue
belongs to the phrase that the line before it begins. -/
theorem FirstPhrase.not_spaces (stripped : Str.strip text = text)
    (first : FirstPhrase text before group after) : ¬ Str.Spaces group := by
  intro spaces
  obtain ⟨gap, cue, rest, gapSpaces, listed, shape⟩ := first.asks
  cases before with
  | nil =>
      obtain ⟨code, others, rfl⟩ := List.exists_cons_of_length_pos first.visible
      have visible := @Str.strip_head text (others ++ after) code (by rw [stripped, first.shape]; rfl)
      rw [spaces code List.mem_cons_self] at visible
      cases visible
  | cons code others =>
      have visible := @Str.strip_head text (others ++ (group ++ after)) code
        (by rw [stripped, first.shape]; rfl)
      have line : Pattern.anyCode code = true := by
        rw [Pattern.anyCode, bne_iff_ne]
        intro same
        subst same
        cases visible
      obtain ⟨start, last, finish, split, held, newlines⟩ :=
        split_last (List.mem_cons_self (l := others)) line
      have blank : Str.Spaces finish := by
        intro other member
        have newline := newlines other member
        rw [Pattern.anyCode, bne_eq_false_iff_eq] at newline
        rw [newline]
        rfl
      have phrase : Phrase text start [last] (finish ++ (group ++ after)) := by
        refine ⟨by rw [first.shape, split]; simp, Nat.le_refl _,
          List.forall_mem_singleton.mpr held, finish ++ (group ++ gap), cue, rest, ?_, listed, ?_⟩
        · exact Str.spaces_append.mpr ⟨blank, Str.spaces_append.mpr ⟨spaces, gapSpaces⟩⟩
        · rw [shape]
          simp only [List.append_assoc]
      have least := first.leftmost _ _ _ phrase
      rw [split, List.length_append, List.length_cons] at least
      omega

end Phrase

/-! ## Filler words -/

theorem withoutFiller_cases (text : Str) : withoutFiller text = text ∨
    ∃ word gap, word ∈ fillerWords ∧ Str.Spaces gap ∧ text = word ++ (gap ++ withoutFiller text) := by
  unfold withoutFiller
  split
  · rename_i found matched
    obtain ⟨agrees, shape⟩ := Regex.mem_found_iff.mp (List.mem_of_mem_head? matched)
    obtain ⟨word, gap, _, _, same, _, first, second⟩ := Regex.matches_seq_iff.mp agrees
    have listed := ((Regex.matches_oneOf_iff (List.cons_ne_nil _ _)).mp first).1
    have spaces := (Regex.matches_greedy_iff.mp second).1.2.2
    refine .inr ⟨word, gap, listed, spaces, ?_⟩
    rw [same, List.append_assoc] at shape
    exact shape
  · exact .inl rfl

theorem withoutFiller_filler : ∀ word ∈ fillerWords, withoutFiller word = [] := by decide

theorem fillers_visible : ∀ word ∈ fillerWords, 1 ≤ word.length ∧
    ∀ code ∈ word, Pattern.anyCode code = true := by decide

/-- The query of a stripped text is empty exactly where its phrase is a filler word. -/
theorem FirstPhrase.spaces_iff {text before group after : Str} (stripped : Str.strip text = text)
    (first : FirstPhrase text before group after) :
    Str.Spaces (withoutFiller group) ↔ group ∈ fillerWords := by
  constructor
  · intro spaces
    rcases withoutFiller_cases group with same | ⟨word, gap, listed, gapSpaces, shape⟩
    · rw [same] at spaces
      exact absurd spaces (first.not_spaces stripped)
    · obtain ⟨visible, line⟩ := fillers_visible word listed
      obtain ⟨later, cue, rest, laterSpaces, asked, tail⟩ := first.asks
      have phrase : Phrase text before word ((gap ++ withoutFiller group) ++ after) := by
        refine ⟨by rw [first.shape]; nth_rewrite 1 [shape]; simp, visible, line,
          (gap ++ withoutFiller group) ++ later, cue, rest, ?_, asked, by rw [tail]; simp⟩
        exact Str.spaces_append.mpr ⟨Str.spaces_append.mpr ⟨gapSpaces, spaces⟩, laterSpaces⟩
      have least := first.shortest _ _ phrase
      rw [shape, List.length_append] at least
      have empty : gap ++ withoutFiller group = [] := List.eq_nil_of_length_eq_zero (by omega)
      rw [shape, empty, List.append_nil]
      exact listed
  · intro listed
    rw [withoutFiller_filler group listed]
    exact List.forall_mem_nil _

end VllmVerifier.CustomerService
