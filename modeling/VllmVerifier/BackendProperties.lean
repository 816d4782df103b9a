import VllmVerifier.Backend
import VllmVerifier.Json.DumpsProperties
import VllmVerifier.Python.Result

/-!
The backend on every JSON value. A value is a completion exactly when it has the
documented shape, and no value makes the readiness probe raise.
-/

set_option autoImplicit false

namespace VllmVerifier.Backend

open Python

/-! ## Shapes -/

/-- The value is an object with this member. -/
def Member (value : Json) (key : Str) (found : Json) : Prop :=
  ∃ members, value = .object members ∧ Dict.lookupEntries key members = some found

/-- The shape of a completion response, with what it carries. -/
structure Decodes (raw : Json) (completion : Completion) : Prop where
  choice : ∃ choice others message, Member raw (lit "choices") (.array (choice :: others)) ∧
    Member choice (lit "message") message ∧
    Member message (lit "content") (.str completion.text) ∧
    Member choice (lit "finish_reason") (.str completion.finishReason)
  usage : ∃ usage, Member raw (lit "usage") usage ∧
    Member usage (lit "prompt_tokens") (.number (.int completion.usage.inputTokens)) ∧
    Member usage (lit "completion_tokens") (.number (.int completion.usage.outputTokens))

/-- The model is announced before anything that is not an object with an id. -/
def Announces (model : Str) (raw : Json) : Prop :=
  ∃ before entry after, Member raw (lit "data") (.array (before ++ entry :: after)) ∧
    (∀ item ∈ before, ∃ id, Member item (lit "id") id) ∧ Member entry (lit "id") (.str model)

theorem member_ok_iff {value found : Json} {key : Str} :
    member value key = .ok found ↔ Member value key found := by
  unfold member Member
  cases value with
  | object members =>
      cases lookup : Dict.lookupEntries key members with
      | none => simp [lookup]
      | some other => simp [lookup]
  | null | bool | number | str | array => simp

theorem member_str (text key : Str) : member (.str text) key = .error typeError := rfl

theorem first_ok {value found : Json} (success : first value = .ok found) :
    (∃ others, value = .array (found :: others)) ∨ ∃ text, found = .str text := by
  cases value with
  | array items =>
      cases items with
      | nil => simp [first, at?] at success
      | cons item others =>
          simp only [first, at?, List.getElem?_cons_zero, Except.ok.injEq] at success
          exact .inl ⟨others, by rw [success]⟩
  | str text =>
      cases text with
      | nil => simp [first, at?, Except.map] at success
      | cons code rest =>
          simp only [first, at?, List.getElem?_cons_zero, Except.map, Except.ok.injEq] at success
          exact .inr ⟨[code], success.symm⟩
  | null | bool | number | object => simp [first] at success

theorem strictCount_ok_iff {value : Json} {count : Nat} :
    strictCount value = .ok count ↔ value = .number (.int count) := by
  cases value with
  | number number =>
      cases number with
      | int value =>
          simp only [strictCount, Json.number.injEq, Json.Number.int.injEq]
          split
          · simp only [Except.ok.injEq]
            omega
          · simp only [reduceCtorEq, false_iff]
            omega
      | float | nan | infinity | negInfinity => simp [strictCount]
  | null | bool | str | array | object => simp [strictCount]

theorem validateUsage_ok_iff {input output : Json} {usage : Usage} :
    validateUsage input output = .ok usage ↔
      input = .number (.int usage.inputTokens) ∧ output = .number (.int usage.outputTokens) := by
  constructor
  · intro success
    unfold validateUsage at success
    split at success
    · obtain ⟨inputTokens, read, continuation⟩ := except_bind_ok success
      obtain ⟨outputTokens, read', made⟩ := except_bind_ok continuation
      cases made
      exact ⟨strictCount_ok_iff.mp read, strictCount_ok_iff.mp read'⟩
    · cases success
  · intro given
    obtain ⟨rfl, rfl⟩ := given
    simp only [validateUsage, Json.finite, Json.Number.finite, Bool.and_self, if_true,
      strictCount_ok_iff.mpr rfl, except_ok_bind]
    rfl

theorem decode_ok_iff {raw : Json} {completion : Completion} :
    decode raw = .ok completion ↔ Decodes raw completion := by
  constructor
  · intro success
    obtain ⟨choices, listed, success⟩ := except_bind_ok success
    obtain ⟨choice, chosen, success⟩ := except_bind_ok success
    obtain ⟨message, messaged, success⟩ := except_bind_ok success
    obtain ⟨content, written, success⟩ := except_bind_ok success
    obtain ⟨finish, finished, success⟩ := except_bind_ok success
    split at success
    · rename_i content finish
      obtain ⟨usage, used, success⟩ := except_bind_ok success
      obtain ⟨promptTokens, prompted, success⟩ := except_bind_ok success
      obtain ⟨completionTokens, completed, success⟩ := except_bind_ok success
      obtain ⟨counted, valid, made⟩ := except_bind_ok success
      cases made
      obtain ⟨rfl, rfl⟩ := validateUsage_ok_iff.mp valid
      rcases first_ok chosen with ⟨others, rfl⟩ | ⟨text, rfl⟩
      · exact ⟨⟨choice, others, message, member_ok_iff.mp listed, member_ok_iff.mp messaged,
          member_ok_iff.mp written, member_ok_iff.mp finished⟩,
          usage, member_ok_iff.mp used, member_ok_iff.mp prompted, member_ok_iff.mp completed⟩
      · rw [member_str] at messaged
        cases messaged
    · cases success
  · intro given
    obtain ⟨⟨choice, others, message, listed, messaged, written, finished⟩, usage, used, prompted,
      completed⟩ := given
    have chosen : first (.array (choice :: others)) = .ok choice := rfl
    simp only [decode, member_ok_iff.mpr listed, chosen, member_ok_iff.mpr messaged,
      member_ok_iff.mpr written, member_ok_iff.mpr finished, member_ok_iff.mpr used,
      member_ok_iff.mpr prompted, member_ok_iff.mpr completed, except_ok_bind,
      validateUsage_ok_iff.mpr ⟨rfl, rfl⟩]
    rfl

/-! ## Exceptions -/

/-- A computation whose exceptions all satisfy a handler's test. -/
def Raises {α : Type} (handled : PyException → Bool) (computation : Except PyException α) : Prop :=
  ∀ raised, computation = .error raised → handled raised = true

namespace Raises

variable {α β : Type} {handled : PyException → Bool}

theorem ok (value : α) : Raises handled (.ok value) := by
  intro raised failure
  cases failure

theorem error {raised : PyException} (known : handled raised = true) :
    Raises handled (.error raised : Except PyException α) := by
  intro other failure
  cases failure
  exact known

theorem bind {source : Except PyException α} {continuation : α → Except PyException β}
    (before : Raises handled source)
    (after : ∀ value, source = .ok value → Raises handled (continuation value)) :
    Raises handled (source >>= continuation) := by
  intro raised failure
  rcases except_bind_error failure with failed | ⟨value, success, failed⟩
  · exact before raised failed
  · exact after value success raised failed

end Raises

theorem member_raises {handled : PyException → Bool} (key : handled .keyError = true)
    (type : handled typeError = true) (value : Json) (name : Str) :
    Raises handled (member value name) := by
  cases value with
  | object members =>
      simp only [member]
      split
      · exact .ok _
      · exact .error key
  | null | bool | number | str | array => exact .error type

theorem first_raises (value : Json) : Raises completeCatches (first value) := by
  cases value with
  | array items =>
      cases items with
      | nil => exact .error rfl
      | cons => exact .ok _
  | str text =>
      cases text with
      | nil => exact .error rfl
      | cons => exact .ok _
  | object => exact .error rfl
  | null | bool | number => exact .error (by decide)

theorem strictCount_raises (value : Json) : Raises completeCatches (strictCount value) := by
  cases value with
  | number number =>
      cases number with
      | int value =>
          simp only [strictCount]
          split
          · exact .ok _
          · exact .error rfl
      | float | nan | infinity | negInfinity => exact .error rfl
  | null | bool | str | array | object => exact .error rfl

theorem validateUsage_raises (input output : Json) :
    Raises completeCatches (validateUsage input output) := by
  unfold validateUsage
  split
  · exact .bind (strictCount_raises input) fun _ _ =>
      .bind (strictCount_raises output) fun _ _ => .ok _
  · exact .error rfl

/-- Whatever the response is, the reading raises only what `complete` catches. -/
theorem decode_raises (raw : Json) : Raises completeCatches (decode raw) := by
  have subscript : ∀ value name, Raises completeCatches (member value name) :=
    member_raises rfl (by decide)
  refine .bind (subscript _ _) fun choices _ => .bind (first_raises _) fun choice _ =>
    .bind (subscript _ _) fun message _ => .bind (subscript _ _) fun content _ =>
      .bind (subscript _ _) fun finish _ => ?_
  split
  · exact .bind (subscript _ _) fun usage _ => .bind (subscript _ _) fun promptTokens _ =>
      .bind (subscript _ _) fun completionTokens _ =>
        .bind (validateUsage_raises _ _) fun _ _ => .ok _
  · exact .error rfl

/-! ## Readiness -/

theorem anyModel_raises (model : Str) (items : List Json) :
    Raises readyCatches (anyModel model items) := by
  induction items with
  | nil => exact .ok _
  | cons item rest ih =>
      refine .bind (member_raises rfl (by decide) item _) fun id _ => ?_
      split
      · exact .ok _
      · exact ih

theorem iterate_raises (value : Json) : Raises readyCatches (iterate value) := by
  cases value with
  | array | object | str => exact .ok _
  | null | bool | number => exact .error (by decide)

theorem anyModel_true_iff {model : Str} {items : List Json} :
    anyModel model items = .ok true ↔
      ∃ before entry after, items = before ++ entry :: after ∧
        (∀ item ∈ before, ∃ id, Member item (lit "id") id) ∧ Member entry (lit "id") (.str model) := by
  induction items with
  | nil => simp [anyModel]
  | cons item rest ih =>
      constructor
      · intro success
        obtain ⟨id, identified, continuation⟩ := except_bind_ok success
        have known := member_ok_iff.mp identified
        split at continuation
        · rename_i same
          exact ⟨[], item, rest, rfl, by simp, same ▸ known⟩
        · obtain ⟨before, entry, after, rfl, passed, found⟩ := ih.mp continuation
          exact ⟨item :: before, entry, after, rfl,
            List.forall_mem_cons.mpr ⟨⟨id, known⟩, passed⟩, found⟩
      · intro given
        obtain ⟨before, entry, after, shape, passed, found⟩ := given
        cases before with
        | nil =>
            cases shape
            rw [anyModel, member_ok_iff.mpr found, except_ok_bind, if_pos rfl]
            rfl
        | cons head before =>
            cases shape
            obtain ⟨⟨id, known⟩, remaining⟩ := List.forall_mem_cons.mp passed
            rw [anyModel, member_ok_iff.mpr known, except_ok_bind]
            split
            · rfl
            · exact ih.mpr ⟨before, entry, after, rfl, remaining, found⟩

/-- Iterating over a string or over the keys of an object meets strings only. -/
theorem not_anyModel_of_strings {model : Str} {texts : List Str} :
    anyModel model (texts.map .str) ≠ .ok true := by
  cases texts with
  | nil => simp [anyModel]
  | cons text rest =>
      rw [List.map_cons, anyModel, member_str]
      intro given
      cases given

theorem iterate_ok {value : Json} {items : List Json} (success : iterate value = .ok items) :
    value = .array items ∨ ∃ texts : List Str, items = texts.map .str := by
  cases value with
  | array => exact .inl (congrArg Json.array (Except.ok.inj success))
  | object members =>
      refine .inr ⟨members.map Prod.fst, ?_⟩
      rw [List.map_map]
      exact (Except.ok.inj success).symm
  | str text =>
      refine .inr ⟨text.map fun code => [code], ?_⟩
      rw [List.map_map]
      exact (Except.ok.inj success).symm
  | null | bool | number => cases success

theorem announced_raises (model : Str) (body : Json) :
    Raises readyCatches (announced model body) := by
  have subscript : ∀ value name, Raises readyCatches (member value name) :=
    member_raises rfl (by decide)
  exact .bind (subscript _ _) fun data _ => .bind (iterate_raises data) fun items _ =>
    anyModel_raises model items

theorem announced_true_iff {model : Str} {body : Json} :
    announced model body = .ok true ↔ Announces model body := by
  constructor
  · intro success
    obtain ⟨data, found, success⟩ := except_bind_ok success
    obtain ⟨items, iterated, success⟩ := except_bind_ok success
    rcases iterate_ok iterated with rfl | ⟨texts, rfl⟩
    · obtain ⟨before, entry, after, rfl, passed, same⟩ := anyModel_true_iff.mp success
      exact ⟨before, entry, after, member_ok_iff.mp found, passed, same⟩
    · exact absurd success not_anyModel_of_strings
  · intro given
    obtain ⟨before, entry, after, found, passed, same⟩ := given
    rw [announced, member_ok_iff.mpr found, except_ok_bind, iterate, except_ok_bind]
    exact anyModel_true_iff.mpr ⟨before, entry, after, rfl, passed, same⟩

namespace VllmBackend

theorem ready_reads {backend : VllmBackend} {raw : Json}
    (returned : backend.modelsJson = .ok raw) :
    (∃ found, backend.ready false = .ok found) ∧
      (backend.ready false = .ok true ↔ Announces backend.settings.model raw) := by
  rw [← announced_true_iff]
  unfold ready
  simp only [Bool.false_eq_true, if_false, returned, except_ok_bind]
  cases reading : announced backend.settings.model raw with
  | ok found => exact ⟨⟨found, rfl⟩, Iff.rfl⟩
  | error raised =>
      simp only [announced_raises _ _ raised reading, if_true]
      exact ⟨⟨false, rfl⟩, by simp⟩

/-- Every JSON value of a successful response is decoded: `complete` returns
exactly on the documented shape and raises one protocol error otherwise, and
`ready` never raises. -/
theorem decodes_totally (backend : VllmBackend) (raw : Json) :
    (∀ messages, backend.completionJson messages = .ok raw →
      (∀ completion, backend.complete messages = .ok completion ↔ Decodes raw completion) ∧
      ((∀ completion, ¬ Decodes raw completion) →
        backend.complete messages = .error (.serviceError protocolError))) ∧
    (backend.modelsJson = .ok raw →
      (∃ found, backend.ready false = .ok found) ∧
      (backend.ready false = .ok true ↔ Announces backend.settings.model raw)) := by
  constructor
  · intro messages returned
    have completed : backend.complete messages =
        (decode raw).mapError fun _ => .serviceError protocolError := by
      rw [complete, returned, except_ok_bind]
      cases decoded : decode raw with
      | ok completion => rfl
      | error raised => exact if_pos (decode_raises raw raised decoded)
    rw [completed]
    constructor
    · intro completion
      rw [← decode_ok_iff]
      cases decode raw <;> simp [Except.mapError]
    · intro malformed
      cases decoded : decode raw with
      | ok completion => exact absurd (decode_ok_iff.mp decoded) (malformed completion)
      | error raised => rfl
  · exact ready_reads

def answering (body : String) : VllmBackend where
  settings := ⟨lit "m", 256, .int 0⟩
  stream _ _ _ := .response 200 [body.toList.map fun character => UInt8.ofNat (ord character)] none
  loads bytes :=
    match Json.loads Json.plainObject (bytes.map UInt8.toNat) with
    | .ok value => .ok value
    | .error _ => .error (.valueError "Expecting value")

def sampleBody : String :=
  "\x7b\"choices\":[\x7b\"message\":\x7b\"content\":\"x\"\x7d,\"finish_reason\":\"stop\"\x7d]," ++
    "\"usage\":\x7b\"prompt_tokens\":1,\"completion_tokens\":2\x7d,\"data\":[\x7b\"id\":\"m\"\x7d]\x7d"

def sampleValue : Json :=
  .object [
    (lit "choices", .array [.object [(lit "message", .object [(lit "content", .str (lit "x"))]),
      (lit "finish_reason", .str (lit "stop"))]]),
    (lit "usage", .object [(lit "prompt_tokens", .number (.int 1)),
      (lit "completion_tokens", .number (.int 2))]),
    (lit "data", .array [.object [(lit "id", .str (lit "m"))]])]

theorem decodes_totally_sample :
    (answering sampleBody).complete [] = .ok ⟨lit "x", ⟨1, 2⟩, lit "stop"⟩ ∧
      (answering sampleBody).ready false = .ok true := by
  have completed : (answering sampleBody).completionJson [] = .ok sampleValue := by decide +kernel
  have listed : (answering sampleBody).modelsJson = .ok sampleValue := by decide +kernel
  obtain ⟨decodes, announces⟩ := decodes_totally (answering sampleBody) sampleValue
  exact ⟨((decodes [] completed).1 _).mpr (decode_ok_iff.mp rfl),
    (announces listed).2.mpr (announced_true_iff.mp rfl)⟩

end VllmBackend

end VllmVerifier.Backend
