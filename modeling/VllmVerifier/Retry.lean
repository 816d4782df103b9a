import Mathlib.Data.Nat.Find

/-!
A bounded retry seen from outside. The attempts are numbered from zero and each
has a verdict; the retry stops at the first one that is accepted, if there is
one within the limit.
-/

set_option autoImplicit false

namespace VllmVerifier.Retry

variable {Answer : Type} {verdict : Nat → Option Answer} {limit attempt : Nat} {answer : Answer}

/-- The attempt is the first one accepted, and within the limit. -/
structure Stops (verdict : Nat → Option Answer) (limit attempt : Nat) (answer : Answer) : Prop where
  within : attempt ≤ limit
  accepted : verdict attempt = some answer
  rejected : ∀ earlier, earlier < attempt → verdict earlier = none

/-- No attempt within the limit is accepted. -/
def Exhausted (verdict : Nat → Option Answer) (limit : Nat) : Prop :=
  ∀ attempt, attempt ≤ limit → verdict attempt = none

theorem Stops.unique {other : Nat} {another : Answer} (first : Stops verdict limit attempt answer)
    (second : Stops verdict limit other another) : attempt = other ∧ answer = another := by
  have same : attempt = other := by
    rcases Nat.lt_trichotomy attempt other with before | same | after
    · have rejected := second.rejected attempt before
      rw [first.accepted] at rejected
      cases rejected
    · exact same
    · have rejected := first.rejected other after
      rw [second.accepted] at rejected
      cases rejected
  subst same
  exact ⟨rfl, Option.some.inj (first.accepted.symm.trans second.accepted)⟩

theorem Stops.not_exhausted (stops : Stops verdict limit attempt answer) :
    ¬ Exhausted verdict limit := by
  intro exhausted
  have rejected := exhausted attempt stops.within
  rw [stops.accepted] at rejected
  cases rejected

theorem stops_or_exhausted (verdict : Nat → Option Answer) (limit : Nat) :
    (∃ attempt answer, Stops verdict limit attempt answer) ∨ Exhausted verdict limit := by
  classical
  by_cases some : ∃ attempt, attempt ≤ limit ∧ (verdict attempt).isSome = true
  · left
    obtain ⟨within, accepted⟩ := Nat.find_spec some
    obtain ⟨answer, accepted⟩ := Option.isSome_iff_exists.mp accepted
    refine ⟨Nat.find some, answer, within, accepted, fun earlier before => ?_⟩
    have rejected := Nat.find_min some before
    simpa [Nat.le_trans (Nat.le_of_lt before) within] using rejected
  · right
    intro attempt within
    cases found : verdict attempt with
    | none => rfl
    | some answer => exact absurd ⟨attempt, within, by simp [found]⟩ some

/-! ## Prompts -/

section Prompts

variable {Reason Prompt : Type} {asks : Option Reason → Prompt → Prop}
  {reasons others : List Reason}
  {prompts : List Prompt}

/-- The correction of each attempt: none at first, then the reason before it. -/
def corrections (reasons : List Reason) : List (Option Reason) := none :: reasons.map some

/-- Every prompt is one for the correction of its attempt. -/
def Conforms (asks : Option Reason → Prompt → Prop) (reasons : List Reason)
    (prompts : List Prompt) : Prop :=
  ∀ (attempt : Nat) (prompt : Prompt), prompts[attempt]? = some prompt →
    ∃ correction, (corrections reasons)[attempt]? = some correction ∧ asks correction prompt

theorem corrections_append (reasons others : List Reason) :
    corrections (reasons ++ others) = corrections reasons ++ others.map some := by
  simp [corrections]

theorem corrections_length (reasons : List Reason) :
    (corrections reasons)[reasons.length]? = some reasons.getLast? := by
  rcases List.eq_nil_or_concat reasons with rfl | ⟨earlier, last, rfl⟩
  · rfl
  · simp [corrections]

theorem corrections_take (reasons : List Reason) {count attempt : Nat} (within : attempt ≤ count) :
    (corrections (reasons.take count))[attempt]? = (corrections reasons)[attempt]? := by
  cases attempt with
  | zero => rfl
  | succ attempt =>
      simp only [corrections, List.getElem?_cons_succ, List.getElem?_map]
      rw [List.getElem?_take_of_lt within]

/-- The reasons for which the attempts of a retry were rejected, and its prompts. -/
structure Transcript (Reason Prompt : Type) where
  reasons : List Reason
  prompts : List Prompt

/-- Transcripts depend on the reasons alone, and show nothing but the base
prompt and its corrections by fixed texts. -/
structure Noninterfering (transcribes : Transcript Reason Prompt → Prop)
    (asks : Option Reason → Prompt → Prop) (texts : List Reason) : Prop where
  agree : ∀ left right, transcribes left → transcribes right →
    ∀ count, left.reasons.take count = right.reasons.take count →
      ∀ attempt, attempt ≤ count → ∀ prompt prompt', left.prompts[attempt]? = some prompt →
        right.prompts[attempt]? = some prompt' → prompt = prompt'
  closed : ∀ transcript, transcribes transcript → ∀ prompt ∈ transcript.prompts,
    asks none prompt ∨ ∃ text ∈ texts, asks (some text) prompt

namespace Conforms

theorem none (asks : Option Reason → Prompt → Prop) : Conforms asks [] [] := by
  intro attempt prompt found
  cases found

theorem reject (conforms : Conforms asks reasons prompts) (others : List Reason) :
    Conforms asks (reasons ++ others) prompts := by
  intro attempt prompt found
  obtain ⟨correction, known, asked⟩ := conforms attempt prompt found
  refine ⟨correction, ?_, asked⟩
  rw [corrections_append, List.getElem?_append_left (List.getElem?_eq_some_iff.mp known).1, known]

theorem ask {prompt : Prompt} (conforms : Conforms asks reasons prompts)
    (due : prompts.length = reasons.length) (asked : asks reasons.getLast? prompt) :
    Conforms asks reasons (prompts ++ [prompt]) := by
  intro attempt found located
  rcases Nat.lt_or_ge attempt prompts.length with earlier | last
  · rw [List.getElem?_append_left earlier] at located
    exact conforms attempt found located
  · rw [List.getElem?_append_right last] at located
    rcases Nat.eq_or_lt_of_le last with same | beyond
    · rw [← same, Nat.sub_self] at located
      cases located
      refine ⟨reasons.getLast?, ?_, asked⟩
      rw [← same, due, corrections_length]
    · rw [List.getElem?_eq_none (by simp only [List.length_singleton]; omega)] at located
      cases located

/-- Two transcripts agree up to the first reason in which they differ. -/
theorem agree {prompts' : List Prompt}
    (functional : ∀ correction prompt prompt', asks correction prompt → asks correction prompt' →
      prompt = prompt')
    (left : Conforms asks reasons prompts) (right : Conforms asks others prompts') {count : Nat}
    (same : reasons.take count = others.take count) {attempt : Nat} (within : attempt ≤ count)
    {prompt prompt' : Prompt} (found : prompts[attempt]? = some prompt)
    (found' : prompts'[attempt]? = some prompt') : prompt = prompt' := by
  obtain ⟨correction, known, asked⟩ := left attempt prompt found
  obtain ⟨correction', known', asked'⟩ := right attempt prompt' found'
  rw [← corrections_take _ within, same, corrections_take _ within, known'] at known
  cases known
  exact functional _ _ _ asked asked'

theorem base_or_correction (conforms : Conforms asks reasons prompts) {prompt : Prompt}
    (member : prompt ∈ prompts) :
    asks Option.none prompt ∨ ∃ reason ∈ reasons, asks (some reason) prompt := by
  obtain ⟨attempt, found⟩ := List.getElem?_of_mem member
  obtain ⟨correction, known, asked⟩ := conforms attempt prompt found
  cases attempt with
  | zero =>
      cases known
      exact .inl asked
  | succ attempt =>
      rw [corrections, List.getElem?_cons_succ, List.getElem?_map, Option.map_eq_some_iff] at known
      obtain ⟨reason, known, rfl⟩ := known
      exact .inr ⟨reason, List.mem_of_getElem? known, asked⟩

end Conforms

theorem Noninterfering.of_conforms {transcribes : Transcript Reason Prompt → Prop}
    {texts : List Reason}
    (functional : ∀ correction prompt prompt', asks correction prompt → asks correction prompt' →
      prompt = prompt')
    (conforms : ∀ transcript, transcribes transcript →
      Conforms asks transcript.reasons transcript.prompts)
    (known : ∀ transcript, transcribes transcript → ∀ reason ∈ transcript.reasons, reason ∈ texts) :
    Noninterfering transcribes asks texts := by
  constructor
  · intro left right leftShown rightShown count same attempt within prompt prompt' found found'
    exact Conforms.agree functional (conforms left leftShown) (conforms right rightShown) same
      within found found'
  · intro transcript shown prompt member
    rcases (conforms transcript shown).base_or_correction member with base | ⟨reason, given, asked⟩
    · exact .inl base
    · exact .inr ⟨reason, known transcript shown reason given, asked⟩

end Prompts

end VllmVerifier.Retry
