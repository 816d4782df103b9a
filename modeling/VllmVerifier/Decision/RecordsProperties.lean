import VllmVerifier.Decision.RuntimeProperties

/-!
The rows that `records` makes of a request: exactly when it makes them, and
which of their texts it never looked at.
-/

set_option autoImplicit false

namespace VllmVerifier.Decision

open Python

/-! ## Texts -/

/-- The text has a character that is not white space. -/
def Visible (text : Str) : Prop := ∃ code ∈ text, Str.isspace code = false

theorem strip_ne_nil_iff {text : Str} : Str.strip text ≠ [] ↔ Visible text := by
  rw [Ne, Str.strip_eq_nil_iff]
  simp [Str.Spaces, Visible]

theorem Visible.append_right {left right : Str} (visible : Visible right) :
    Visible (left ++ right) := by
  obtain ⟨code, member, shown⟩ := visible
  exact ⟨code, List.mem_append_right _ member, shown⟩

/-- Content that is given has a visible text. -/
def GivenVisible (value : Option Content) : Prop :=
  ∀ given, value = some given → Visible (contentText given)

theorem content_some_ok_iff {value : Content} {default text : Str} :
    content (some value) default = .ok text ↔
      Visible (contentText value) ∧ text = contentText value := by
  rw [← strip_ne_nil_iff]
  by_cases stripped : Str.strip (contentText value) = []
  · simp [content, stripped]
  · simp [content, stripped, eq_comm]

theorem content_instructions_ok_iff {value : Option Content} {text : Str} :
    content value (lit "Evaluate the candidates against the state.") = .ok text ↔
      GivenVisible value ∧
        text = (value.map contentText).getD (lit "Evaluate the candidates against the state.") := by
  cases value with
  | none =>
      have default : Str.strip (lit "Evaluate the candidates against the state.") ≠ [] := by
        decide +kernel
      simp [content, default, GivenVisible, eq_comm]
  | some value =>
      rw [content_some_ok_iff]
      simp [GivenVisible]

/-! ## Rows -/

theorem criterionText_ok_iff {criterion : Option Content} {text : Option Str} :
    criterionText criterion = .ok text ↔
      GivenVisible criterion ∧ text = criterion.map contentText := by
  cases criterion with
  | none => simp [criterionText, GivenVisible, eq_comm]
  | some given =>
      constructor
      · intro success
        obtain ⟨found, checked, made⟩ := except_bind_ok success
        cases made
        obtain ⟨visible, rfl⟩ := content_some_ok_iff.mp checked
        exact ⟨by rintro _ ⟨⟩; exact visible, rfl⟩
      · intro given
        obtain ⟨visible, rfl⟩ := given
        rw [criterionText, content_some_ok_iff.mpr ⟨visible given rfl, rfl⟩, except_ok_bind]
        rfl

/-- The text of a Choice option. -/
def optionText (entry : Str × Option Content) : Str :=
  match entry.2 with
  | none => entry.1
  | some value => entry.1 ++ lit ": " ++ contentText value

theorem rowOption_ok_iff (entry : Str × Option Content) (option : RowOption) :
    rowOption entry = .ok option ↔
      GivenVisible entry.2 ∧ option = ⟨entry.1, optionText entry⟩ := by
  obtain ⟨label, description⟩ := entry
  cases description with
  | none => simp [rowOption, optionText, GivenVisible, eq_comm]
  | some given =>
      constructor
      · intro success
        obtain ⟨found, checked, made⟩ := except_bind_ok success
        cases made
        obtain ⟨visible, rfl⟩ := content_some_ok_iff.mp checked
        exact ⟨by rintro _ ⟨⟩; exact visible, rfl⟩
      · intro given
        obtain ⟨visible, rfl⟩ := given
        simp only [rowOption, content_some_ok_iff.mpr ⟨visible given rfl, rfl⟩, except_ok_bind]
        rfl

theorem rowLevel_ok_iff (entry : Content × Nat) (level : RowLevel) :
    rowLevel entry = .ok level ↔
      Visible (contentText entry.1) ∧ level = ⟨indexKey entry.2, entry.2, contentText entry.1⟩ := by
  constructor
  · intro success
    obtain ⟨found, checked, made⟩ := except_bind_ok success
    cases made
    obtain ⟨visible, rfl⟩ := content_some_ok_iff.mp checked
    exact ⟨visible, rfl⟩
  · intro given
    obtain ⟨visible, rfl⟩ := given
    rw [rowLevel, content_some_ok_iff.mpr ⟨visible, rfl⟩, except_ok_bind]
    rfl

/-- What `records` asks of a question: every content that is given is visible,
and a Choice or a Score has two candidates. -/
def QuestionScorable : Question → Prop
  | .noul question => GivenVisible question.instructions ∧
      ∀ criteria, question.criteria = some criteria →
        GivenVisible criteria.falseCriterion ∧ GivenVisible criteria.trueCriterion
  | .choice question => GivenVisible question.instructions ∧
      2 ≤ question.criteria.entries.length ∧
      ∀ entry ∈ question.criteria.entries, GivenVisible entry.2
  | .score question => GivenVisible question.instructions ∧ 2 ≤ question.criteria.length ∧
      ∀ level ∈ question.criteria, Visible (contentText level)

/-- The labels of a Choice that stand for themselves are visible. -/
def LabelsVisible : Question → Prop
  | .noul _ | .score _ => True
  | .choice question => ∀ entry ∈ question.criteria.entries, entry.2 = none → Visible entry.1

/-- The row of a scorable question. -/
def rowOf (state : Str) (entry : Str × Question) : Row :=
  let text := ((instructions entry.2).map contentText).getD
    (lit "Evaluate the candidates against the state.")
  match entry.2 with
  | .noul question =>
      ⟨entry.1, state, ⟨entry.1, .noul, text,
        question.criteria.bind fun criteria => criteria.falseCriterion.map contentText,
        question.criteria.bind fun criteria => criteria.trueCriterion.map contentText, none, none⟩⟩
  | .choice question =>
      ⟨entry.1, state, ⟨entry.1, .choice, text, none, none,
        some (question.criteria.entries.map fun entry => ⟨entry.1, optionText entry⟩), none⟩⟩
  | .score question =>
      ⟨entry.1, state, ⟨entry.1, .score, text, none, none, none,
        some (question.criteria.zipIdx.map fun entry =>
          ⟨indexKey entry.2, entry.2, contentText entry.1⟩)⟩⟩

theorem record_ok_iff (state : Str) (entry : Str × Question) (row : Row) :
    record state entry = .ok row ↔ QuestionScorable entry.2 ∧ row = rowOf state entry := by
  obtain ⟨id, question⟩ := entry
  constructor
  · intro success
    obtain ⟨text, checked, success⟩ := except_bind_ok success
    obtain ⟨instructed, rfl⟩ := content_instructions_ok_iff.mp checked
    cases question with
    | noul question =>
        obtain ⟨asked, criteria⟩ := question
        cases criteria with
        | none =>
            cases success
            exact ⟨⟨instructed, by simp⟩, rfl⟩
        | some criteria =>
            obtain ⟨falseText, falseOk, success⟩ := except_bind_ok success
            obtain ⟨trueText, trueOk, made⟩ := except_bind_ok success
            cases made
            obtain ⟨falseVisible, rfl⟩ := criterionText_ok_iff.mp falseOk
            obtain ⟨trueVisible, rfl⟩ := criterionText_ok_iff.mp trueOk
            exact ⟨⟨instructed, by rintro _ ⟨⟩; exact ⟨falseVisible, trueVisible⟩⟩, rfl⟩
    | choice question =>
        simp only at success
        split at success
        · cases success
        · rename_i several
          obtain ⟨options, mapped, made⟩ := except_bind_ok success
          cases made
          obtain ⟨given, rfl⟩ := (mapM_ok_map_iff rowOption_ok_iff).mp mapped
          exact ⟨⟨instructed, Nat.le_of_not_lt several, given⟩, rfl⟩
    | score question =>
        simp only at success
        split at success
        · cases success
        · rename_i several
          obtain ⟨levels, mapped, made⟩ := except_bind_ok success
          cases made
          obtain ⟨given, rfl⟩ := (mapM_ok_map_iff rowLevel_ok_iff).mp mapped
          refine ⟨⟨instructed, Nat.le_of_not_lt several, fun level member => ?_⟩, rfl⟩
          obtain ⟨index, found⟩ := List.getElem?_of_mem member
          exact given (level, index) (List.mk_mem_zipIdx_iff_getElem?.mpr found)
  · intro given
    obtain ⟨scorable, rfl⟩ := given
    cases question with
    | noul question =>
        obtain ⟨asked, criteria⟩ := question
        obtain ⟨instructed, given⟩ := scorable
        have checked := content_instructions_ok_iff.mpr ⟨instructed, rfl⟩
        cases criteria with
        | none =>
            simp only [record, instructions, checked, except_ok_bind]
            rfl
        | some criteria =>
            obtain ⟨falseVisible, trueVisible⟩ := given criteria rfl
            simp only [record, instructions, checked, except_ok_bind,
              criterionText_ok_iff.mpr ⟨falseVisible, rfl⟩,
              criterionText_ok_iff.mpr ⟨trueVisible, rfl⟩]
            rfl
    | choice question =>
        obtain ⟨instructed, several, given⟩ := scorable
        have checked := content_instructions_ok_iff.mpr ⟨instructed, rfl⟩
        have mapped := (mapM_ok_map_iff rowOption_ok_iff).mpr ⟨given, rfl⟩
        simp only [record, instructions, checked, except_ok_bind, mapped,
          if_neg (Nat.not_lt.mpr several)]
        rfl
    | score question =>
        obtain ⟨instructed, several, given⟩ := scorable
        have checked := content_instructions_ok_iff.mpr ⟨instructed, rfl⟩
        have levels : ∀ item ∈ question.criteria.zipIdx, Visible (contentText item.1) :=
          fun item member => given item.1 (List.fst_mem_of_mem_zipIdx member)
        have mapped := (mapM_ok_map_iff rowLevel_ok_iff).mpr ⟨levels, rfl⟩
        simp only [record, instructions, checked, except_ok_bind, mapped,
          if_neg (Nat.not_lt.mpr several)]
        rfl

/-- What `records` asks of a request. -/
structure Scorable (request : SystemOneRequest) : Prop where
  state : Visible (contentText request.state)
  questions : ∀ entry ∈ request.questions.entries, QuestionScorable entry.2

theorem records_ok_iff {request : SystemOneRequest} {rows : List Row} :
    records request = .ok rows ↔ Scorable request ∧
      rows = request.questions.entries.map (rowOf (contentText request.state)) := by
  constructor
  · intro success
    obtain ⟨state, checked, mapped⟩ := except_bind_ok success
    obtain ⟨visible, rfl⟩ := content_some_ok_iff.mp checked
    obtain ⟨scorable, rfl⟩ := (mapM_ok_map_iff (record_ok_iff _)).mp mapped
    exact ⟨⟨visible, scorable⟩, rfl⟩
  · intro given
    obtain ⟨scorable, rfl⟩ := given
    rw [records, content_some_ok_iff.mpr ⟨scorable.state, rfl⟩, except_ok_bind]
    exact (mapM_ok_map_iff (record_ok_iff _)).mpr ⟨scorable.questions, rfl⟩

/-- The texts that a row hands to the model. -/
def Row.texts (row : Row) : List Str :=
  [row.stateText, row.question.text] ++ row.question.falseCriterion.toList ++
    row.question.trueCriterion.toList ++ (row.question.options.getD []).map RowOption.text ++
    (row.question.levels.getD []).map RowLevel.text

/-! ## Blank texts -/

theorem optionText_visible_iff {entry : Str × Option Content} (given : GivenVisible entry.2) :
    Visible (optionText entry) ↔ (entry.2 = none → Visible entry.1) := by
  obtain ⟨label, description⟩ := entry
  cases description with
  | none => simp [optionText]
  | some value =>
      have visible : Visible (optionText (label, some value)) := (given value rfl).append_right
      simp [visible]

private theorem toList_visible {value : Option Content} (given : GivenVisible value) {text : Str}
    (member : text ∈ (value.map contentText).toList) : Visible text := by
  cases value with
  | none => cases member
  | some value =>
      rw [Option.map_some, Option.toList_some, List.mem_singleton] at member
      exact member ▸ given value rfl

private theorem instructions_visible {value : Option Content} (given : GivenVisible value) :
    Visible ((value.map contentText).getD (lit "Evaluate the candidates against the state.")) :=
  strip_ne_nil_iff.mp (by
    cases value with
    | none => decide +kernel
    | some value => exact strip_ne_nil_iff.mpr (given value rfl))

/-- The only texts of a row that were never looked at are labels without a description. -/
theorem texts_visible_iff {state : Str} {entry : Str × Question} (visible : Visible state)
    (scorable : QuestionScorable entry.2) :
    (∀ text ∈ (rowOf state entry).texts, Visible text) ↔ LabelsVisible entry.2 := by
  obtain ⟨id, question⟩ := entry
  cases question with
  | noul question =>
      obtain ⟨asked, criteria⟩ := question
      obtain ⟨instructed, given⟩ := scorable
      simp only [LabelsVisible, iff_true]
      intro text member
      cases criteria with
      | none =>
          simp only [rowOf, Row.texts, Option.bind_none, Option.toList_none, List.append_nil,
            Option.getD_none, List.map_nil, List.mem_cons, List.not_mem_nil, or_false] at member
          rcases member with rfl | rfl
          · exact visible
          · exact instructions_visible instructed
      | some criteria =>
          obtain ⟨falseVisible, trueVisible⟩ := given criteria rfl
          simp only [rowOf, Row.texts, Option.bind_some, Option.getD_none, List.map_nil,
            List.append_nil, List.mem_append, List.mem_cons, List.not_mem_nil, or_false] at member
          rcases member with ((rfl | rfl) | falseText) | trueText
          · exact visible
          · exact instructions_visible instructed
          · exact toList_visible falseVisible falseText
          · exact toList_visible trueVisible trueText
  | choice question =>
      obtain ⟨instructed, _, given⟩ := scorable
      have shown := instructions_visible instructed
      simp only [rowOf, Row.texts, instructions, LabelsVisible, Option.toList_none,
        List.append_nil, Option.getD_some, Option.getD_none, List.map_nil, List.map_map,
        List.mem_append, List.mem_cons, List.not_mem_nil, or_false, List.mem_map,
        Function.comp_apply]
      constructor
      · intro all entry member
        exact (optionText_visible_iff (given entry member)).mp
          (all _ (.inr ⟨entry, member, rfl⟩))
      · rintro labels text ((rfl | rfl) | ⟨entry, member, rfl⟩)
        · exact visible
        · exact shown
        · exact (optionText_visible_iff (given entry member)).mpr (labels entry member)
  | score question =>
      obtain ⟨instructed, _, given⟩ := scorable
      have shown := instructions_visible instructed
      simp only [rowOf, Row.texts, instructions, LabelsVisible, iff_true, Option.toList_none,
        List.append_nil, Option.getD_some, Option.getD_none, List.map_nil, List.map_map,
        List.mem_append, List.mem_cons, List.not_mem_nil, or_false, List.mem_map,
        Function.comp_apply]
      rintro text ((rfl | rfl) | ⟨level, member, rfl⟩)
      · exact visible
      · exact shown
      · exact given level.1 (List.fst_mem_of_mem_zipIdx member)

/-- A request that the runtime rejects on its own, with a 422. -/
structure Rejected (F : Type) [LogField F] (request : SystemOneRequest) (raised : PyException) :
    Prop where
  raises : records request = .error raised
  valueError : raised.isValueError = true
  alone : ∀ (runtime : KaiRuntime) progress index,
    runtime.admitRequest (F := F) progress (request, index) =
      .ok (progress.1 ++ [.error (inputError raised)], progress.2)
  status : (inputError raised).status = 422

theorem rejected_of_error {F : Type} [LogField F] {request : SystemOneRequest}
    {raised : PyException} (failure : records request = .error raised) :
    Rejected F request raised := by
  have valueError := records_error failure
  refine ⟨failure, valueError, fun runtime progress index => ?_, rfl⟩
  have measured : runtime.measure request = .error raised := by
    rw [KaiRuntime.measure, failure]
    rfl
  rw [KaiRuntime.admitRequest, measured]
  exact if_pos valueError

/-- No blank text is scored exactly when the request is not scorable anyway, or
every Choice label without a description is visible. -/
theorem blank_text_iff (F : Type) [LogField F] (request : SystemOneRequest) :
    ((∃ raised, Rejected F request raised) ∨
      ∃ rows, records request = .ok rows ∧ ∀ row ∈ rows, ∀ text ∈ row.texts, Visible text) ↔
      (Scorable request → ∀ entry ∈ request.questions.entries, LabelsVisible entry.2) := by
  cases outcome : records request with
  | error raised =>
      have unscorable : ¬ Scorable request := fun scorable => by
        have success := records_ok_iff.mpr ⟨scorable, rfl⟩
        rw [outcome] at success
        cases success
      exact iff_of_true (.inl ⟨raised, rejected_of_error outcome⟩)
        fun scorable => absurd scorable unscorable
  | ok rows =>
      obtain ⟨scorable, rfl⟩ := records_ok_iff.mp outcome
      constructor
      · rintro (⟨raised, rejected⟩ | ⟨rows, same, visible⟩) _ entry member
        · cases outcome.symm.trans rejected.raises
        · cases same
          exact (texts_visible_iff scorable.state (scorable.questions entry member)).mp
            (visible _ (List.mem_map_of_mem member))
      · intro labels
        refine .inr ⟨_, rfl, fun row member => ?_⟩
        obtain ⟨entry, asked, rfl⟩ := List.mem_map.mp member
        exact (texts_visible_iff scorable.state (scorable.questions entry asked)).mpr
          (labels scorable entry asked)

def blankLabelRequest : SystemOneRequest where
  model := MODEL
  state := ⟨.str (lit "Evidence"), rfl, rfl, rfl⟩
  questions := ⟨[(lit "q", .choice ⟨none, ⟨[(lit " ", none), (lit "a", none)], by decide⟩,
    by decide, by decide⟩)], List.nodup_singleton _⟩
  named := by decide
  size := by decide
  ids := by decide

theorem blank_label_scored :
    ∃ rows, records blankLabelRequest = .ok rows ∧
      ∃ row ∈ rows, ∃ text ∈ row.texts, ¬ Visible text := by
  refine ⟨_, rfl, _, List.mem_cons_self, lit " ", by decide, ?_⟩
  rw [← strip_ne_nil_iff]
  decide

end VllmVerifier.Decision
