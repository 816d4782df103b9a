import VllmVerifier.Prompts
import VllmVerifier.Json.DumpsProperties

/-!
The prompt of the engine is one JSON object, although it is spliced from two
renderings, and prompts about one state share everything up to the question.
-/

set_option autoImplicit false

namespace VllmVerifier

open Python

/-! ## Names -/

theorem distinctMembers_append {left right : List (Str × Json)} :
    Json.distinctMembers (left ++ right) =
      (Json.distinctMembers left && Json.distinctMembers right) := by
  induction left with
  | nil => rfl
  | cons member rest ih => simp [Json.distinctMembers, ih, Bool.and_assoc]

theorem optionalMember_distinct (name : String) (content : Option Content) :
    Json.distinctMembers (optionalMember name content) = true := by
  cases content with
  | none => rfl
  | some content => simp [optionalMember, Json.distinctMembers, content.distinct]

theorem optionalMember_names (name : String) (content : Option Content) :
    (optionalMember name content).map Prod.fst = [] ∨
      (optionalMember name content).map Prod.fst = [lit name] := by
  cases content with
  | none => exact .inl rfl
  | some content => exact .inr rfl

private theorem criteria_distinct (entries : List (Str × Option Content)) :
    Json.distinctMembers (entries.map fun entry => (entry.1, nullable entry.2)) = true := by
  induction entries with
  | nil => rfl
  | cons entry rest ih =>
      have head : (nullable entry.2).distinctNames = true := by
        cases entry.2 with
        | none => rfl
        | some content => exact content.distinct
      simp [Json.distinctMembers, head, ih]

private theorem levels_distinct (levels : List Content) :
    Json.distinctItems (levels.map Content.value) = true := by
  induction levels with
  | nil => rfl
  | cons level rest ih => simp [Json.distinctItems, level.distinct, ih]

theorem NoulCriteria.modelDump_distinct (criteria : NoulCriteria) :
    criteria.modelDump.distinctNames = true := by
  rw [modelDump, Json.distinctNames, Bool.and_eq_true, decide_eq_true_eq]
  constructor
  · rcases optionalMember_names "true" criteria.trueCriterion with first | first <;>
    rcases optionalMember_names "false" criteria.falseCriterion with second | second <;>
      rw [List.map_append, first, second] <;> decide
  · rw [distinctMembers_append, optionalMember_distinct, optionalMember_distinct]
    rfl

private theorem questionObject_distinct (kind : Str) (instructions : Option Content)
    {criteria : List (Str × Json)}
    (names : criteria.map Prod.fst = [] ∨ criteria.map Prod.fst = [lit "criteria"])
    (distinct : Json.distinctMembers criteria = true) :
    (Json.object ((lit "type", .str kind) ::
      optionalMember "instructions" instructions ++ criteria)).distinctNames = true := by
  rw [Json.distinctNames, Bool.and_eq_true, decide_eq_true_eq]
  constructor
  · rw [List.map_append, List.map_cons]
    dsimp only
    rcases optionalMember_names "instructions" instructions with first | first <;>
    rcases names with second | second <;>
      rw [first, second] <;> decide
  · rw [distinctMembers_append, distinct, Json.distinctMembers, Json.distinctNames,
      optionalMember_distinct]
    rfl

theorem Question.modelDump_distinct (question : Question) :
    question.modelDump.distinctNames = true := by
  cases question with
  | choice question =>
      refine questionObject_distinct (lit "choice") question.instructions (.inr rfl) ?_
      have labels := question.criteria.distinct
      simp [Json.distinctMembers, Json.distinctNames, criteria_distinct, Function.comp_def, labels]
  | score question =>
      refine questionObject_distinct (lit "score") question.instructions (.inr rfl) ?_
      simp [Json.distinctMembers, Json.distinctNames, levels_distinct]
  | noul question =>
      rw [modelDump]
      cases question.criteria with
      | none => exact questionObject_distinct (lit "noul") question.instructions (.inl rfl) rfl
      | some criteria =>
          refine questionObject_distinct (lit "noul") question.instructions (.inr rfl) ?_
          simp [Json.distinctMembers, criteria.modelDump_distinct]

theorem dumpsOrRaise_ok_iff {layout : Json.Layout} {value : Json} {text : Str} :
    dumpsOrRaise layout value = .ok text ↔ Json.dumps layout value = some text := by
  unfold dumpsOrRaise
  cases Json.dumps layout value <;> simp

/-! ## Splicing -/

namespace Json

/-- An object written after a first member: its opening brace is dropped. -/
theorem Derives.splice {name text tail : Str} {value : Json} {members : List (Str × Json)}
    (nonempty : members ≠ [])
    (following : Derives (.value (.object members)) (ord '{' :: tail))
    (derived : Derives (.value value) text) :
    Derives (.value (.object ((name, value) :: members)))
      (ord '{' :: (encodeString name ++ ord ':' :: text ++ ord ',' :: tail)) := by
  generalize whole : ord '{' :: tail = spelled at following
  cases following with
  | emptyObject => exact absurd rfl nonempty
  | object inner =>
      obtain ⟨-, rfl⟩ := List.cons.inj whole
      have joined := Derives.object (.member blank_nil (encodeString_text name) blank_nil blank_nil
        derived blank_nil inner)
      simpa using joined

theorem dumps_object {layout : Layout} {members : List (Str × Json)} {text : Str}
    (written : dumps layout (.object members) = some text) : ∃ tail, text = ord '{' :: tail := by
  rw [dumps] at written
  obtain ⟨_, _, made⟩ := Option.bind_eq_some_iff.mp written
  cases made
  exact ⟨_, rfl⟩

end Json

namespace Engine

/-- The member that a non-empty correction adds. -/
def validationCorrection (correction : Option Str) : List (Str × Json) :=
  match correction with
  | none => []
  | some message => if message = [] then [] else [(lit "validation_correction", .str message)]

/-- What the user content of a prompt denotes. -/
def promptObject (state : Content) (question : Question) (correction : Option Str) : Json :=
  .object ((lit "state", state.value) :: (lit "question", question.modelDump) ::
    validationCorrection correction)

theorem suffix_eq (question : Question) (correction : Option Str) :
    suffix question correction =
      .object ((lit "question", question.modelDump) :: validationCorrection correction) := by
  cases correction <;> rfl

theorem promptObject_distinct (state : Content) (question : Question)
    (correction : Option Str) : (promptObject state question correction).distinctNames = true := by
  have member : validationCorrection correction = [] ∨
      ∃ message, validationCorrection correction =
        [(lit "validation_correction", .str message)] := by
    cases correction with
    | none => exact .inl rfl
    | some message =>
        unfold validationCorrection
        dsimp only
        split
        · exact .inl rfl
        · exact .inr ⟨message, rfl⟩
  rw [promptObject, Json.distinctNames, Bool.and_eq_true, decide_eq_true_eq]
  rcases member with none | ⟨message, some⟩
  · rw [none]
    exact ⟨by simp; decide, by simp [Json.distinctMembers, state.distinct,
      question.modelDump_distinct]⟩
  · rw [some]
    exact ⟨by simp; decide, by simp [Json.distinctMembers, Json.distinctNames, state.distinct,
      question.modelDump_distinct]⟩

/-- The user content is one document: the object of its parts. -/
theorem content_document {state : Content} {stateJson rendered : Str} {question : Question}
    {correction : Option Str} (spelled : Json.dumps .default state.value = some stateJson)
    (written : Json.dumps .compact (suffix question correction) = some rendered) :
    Json.Document (promptObject state question correction)
      (lit "\x7b\"state\":" ++ stateJson ++ lit "," ++ rendered.drop 1) := by
  rw [suffix_eq] at written
  obtain ⟨tail, rfl⟩ := Json.dumps_object written
  have following := Json.dumps_derives Json.compact_spaced _ written
  have derived := Json.dumps_derives Json.default_spaced _ spelled
  have joined : Json.Derives (.value (promptObject state question correction)) _ :=
    Json.Derives.splice (List.cons_ne_nil _ _) following derived
  refine ⟨[], _, [], Json.blank_nil, joined, Json.blank_nil, ?_⟩
  have name : Json.encodeString (lit "state") = lit "\"state\"" := rfl
  simp only [name]
  simp [lit]

private theorem prefix_intercalate {α : Type} (separator first : List α)
    (rest : List (List α)) : first <+: List.intercalate separator (first :: rest) := by
  cases rest with
  | nil => simp
  | cons second rest =>
      rw [List.intercalate_cons_cons]
      exact ⟨separator ++ List.intercalate separator (second :: rest), by simp⟩

theorem suffix_start {question : Question} {correction : Option Str} {rendered : Str}
    (written : Json.dumps .compact (suffix question correction) = some rendered) :
    lit "\"question\":" <+: rendered.drop 1 := by
  rw [suffix_eq, Json.dumps] at written
  obtain ⟨parts, members, made⟩ := Option.bind_eq_some_iff.mp written
  cases made
  rw [Json.dumpsMembers] at members
  obtain ⟨text, _, continuation⟩ := Option.bind_eq_some_iff.mp members
  obtain ⟨texts, _, made⟩ := Option.bind_eq_some_iff.mp continuation
  cases made
  have first : Json.renderMember .compact (lit "question", text) =
      lit "\"question\":" ++ text := rfl
  rw [Json.arrange, Json.compact_spaced.unsorted, if_neg Bool.false_ne_true, List.map_cons, first,
    List.cons_append, List.drop_one, List.tail_cons]
  exact (List.prefix_append _ text).trans
    ((prefix_intercalate _ _ _).trans (List.prefix_append _ _))

/-- For every state the prompts of all questions and corrections share the
system message and the text up to the question, and each user content is one
document that loads as exactly the state, the question and the correction. -/
theorem spliced_prompt_decodes (state : Content) :
    ∃ stateJson, dumpsOrRaise .default state.value = .ok stateJson ∧
      ∀ (question : Question) (correction : Option Str), ∃ content,
        messages stateJson question correction =
          .ok [⟨lit "system", .text (SYSTEM ++ lit "\n" ++ CONTRACT)⟩,
            ⟨lit "user", .text content⟩] ∧
        lit "\x7b\"state\":" ++ stateJson ++ lit ",\"question\":" <+: content ∧
        (∀ value, Json.Document value content ↔ value = promptObject state question correction) ∧
        Json.loads Json.plainObject content = .ok (promptObject state question correction) := by
  obtain ⟨stateJson, spelled⟩ := dumpsOrRaise_ok .default state.finite
  refine ⟨stateJson, spelled, fun question correction => ?_⟩
  rw [dumpsOrRaise_ok_iff] at spelled
  obtain ⟨rendered, written⟩ := suffix_ok question correction
  have document := content_document spelled (dumpsOrRaise_ok_iff.mp written)
  have start := suffix_start (dumpsOrRaise_ok_iff.mp written)
  refine ⟨_, by rw [messages, written]; rfl, ?_, fun value => ?_, ?_⟩
  · obtain ⟨rest, shape⟩ := start
    exact ⟨rest, by rw [← shape]; simp [lit]⟩
  · constructor
    · intro other
      exact Json.Document.unique other document
    · intro same
      subst same
      exact document
  · exact Json.loads_plain document (promptObject_distinct state question correction)

end Engine

end VllmVerifier
