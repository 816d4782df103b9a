import VllmVerifier.Batching
import VllmVerifier.Decision.Readout

/-!
`decision/runtime.py`: the rows that Kai scores, and `KaiRuntime.evaluate_batch`
with its admission, physical batches and error paths. The collator and the model
are parameters; those of a batch are numbered, so that they may keep state.
-/

set_option autoImplicit false

namespace VllmVerifier.Decision

open Python Batching

/-- The served model. -/
def MODEL : Str := lit "llm-semantic-router/Decision-1.0-Kai-0.6B"

/-! ## Rows -/

/-- The text of validated content: a string as it is, else canonical JSON. -/
def contentText (content : Content) : Str :=
  match content.value with
  | .str text => text
  | _ => (Json.dumps .canonical content.value).get (Json.dumps_isSome .canonical _ content.finite)

def content (value : Option Content) (default : Str) : Except PyException Str :=
  let result := match value with
    | none => default
    | some value => contentText value
  if Str.strip result = [] then .error (.valueError "Decision input text must not be empty")
  else .ok result

inductive QuestionType where
  | choice
  | score
  | noul
deriving DecidableEq

structure RowOption where
  id : Str
  text : Str
deriving DecidableEq

structure RowLevel where
  id : Str
  value : Nat
  text : Str
deriving DecidableEq

structure RowQuestion where
  id : Str
  type : QuestionType
  text : Str
  falseCriterion : Option Str
  trueCriterion : Option Str
  options : Option (List RowOption)
  levels : Option (List RowLevel)
deriving DecidableEq

structure Row where
  id : Str
  stateText : Str
  question : RowQuestion
deriving DecidableEq

def instructions : Question → Option Content
  | .choice question => question.instructions
  | .score question => question.instructions
  | .noul question => question.instructions

/-- A Noul criterion, when it is given. -/
def criterionText : Option Content → Except PyException (Option Str)
  | none => .ok none
  | some criterion => do
      let text ← content (some criterion) []
      pure (some text)

def rowOption (entry : Str × Option Content) : Except PyException RowOption :=
  match entry.2 with
  | none => .ok ⟨entry.1, entry.1⟩
  | some value => do
      let text ← content (some value) []
      pure ⟨entry.1, entry.1 ++ lit ": " ++ text⟩

def rowLevel (entry : Content × Nat) : Except PyException RowLevel := do
  let text ← content (some entry.1) []
  pure ⟨indexKey entry.2, entry.2, text⟩

def tooFewCandidates : PyException :=
  .valueError "Kai requires at least two Choice candidates or Score levels"

/-- The row of one question. -/
def record (state : Str) (entry : Str × Question) : Except PyException Row := do
  let text ← content (instructions entry.2) (lit "Evaluate the candidates against the state.")
  match entry.2 with
  | .noul question =>
      match question.criteria with
      | none => pure ⟨entry.1, state, ⟨entry.1, .noul, text, none, none, none, none⟩⟩
      | some criteria => do
          let falseCriterion ← criterionText criteria.falseCriterion
          let trueCriterion ← criterionText criteria.trueCriterion
          pure ⟨entry.1, state, ⟨entry.1, .noul, text, falseCriterion, trueCriterion, none, none⟩⟩
  | .choice question =>
      if question.criteria.entries.length < 2 then .error tooFewCandidates
      else do
        let options ← question.criteria.entries.mapM rowOption
        pure ⟨entry.1, state, ⟨entry.1, .choice, text, none, none, some options, none⟩⟩
  | .score question =>
      if question.criteria.length < 2 then .error tooFewCandidates
      else do
        let levels ← question.criteria.zipIdx.mapM rowLevel
        pure ⟨entry.1, state, ⟨entry.1, .score, text, none, none, none, some levels⟩⟩

def records (request : SystemOneRequest) : Except PyException (List Row) := do
  let state ← content (some request.state) []
  request.questions.entries.mapM (record state)

/-! ## The runtime -/

/-- What the collator reports of a row of a batch. -/
structure Encoded where
  positions : Nat
  inputTokens : Nat
deriving DecidableEq

/-- The logits of a batch: whether all are finite, and their softmax. -/
structure Logits where
  finite : Bool
  probabilities : List (List PyFloat)

structure KaiRuntime where
  batchSize : Nat
  batchTokens : Nat
  encode : Row → Except PyException Nat
  collate : Nat → List Row → Except PyException (List Encoded)
  model : Nat → List Row → Except PyException Logits
  sizeRange : 1 ≤ batchSize
  tokensRange : 1024 ≤ batchTokens

/-- One question waiting to be scored: the entries of `pending`. -/
structure Entry where
  requestIndex : Nat
  questionId : Str
  row : Row
  length : Nat
deriving DecidableEq

/-- `SystemOneResponse | ServiceError`. -/
abbrev Outcome (F : Type) [LogField F] := Except ServiceError (SystemOneResponse F)

/-- `str(exc)` of the exceptions that carry a message. -/
def errorText : PyException → String
  | .valueError message | .invalidOutput message | .runtimeError message
  | .floatingPointError message => message
  | _ => ""

def inputError (error : PyException) : ServiceError :=
  ⟨422, "engine_input_error", errorText error⟩

def scoringError : ServiceError := ⟨502, "engine_error", "Candidate scoring failed"⟩

/-- The exceptions that `evaluate_batch` turns into 502s. -/
def isScoringError : PyException → Bool
  | .runtimeError _ | .memoryError | .floatingPointError _ => true
  | error => error.isValueError

/-- The check at the head of `evaluate_batch`. -/
def admission (requests : List SystemOneRequest) : Bool :=
  decide (1 ≤ requests.length ∧ requests.length ≤ 128) &&
    decide ((requests.map fun request => request.questions.entries.length).sum ≤ 512)

namespace KaiRuntime

section Admission

variable (runtime : KaiRuntime)

/-- The rows of a request with their lengths; all of them, or the request fails. -/
def measure (request : SystemOneRequest) : Except PyException (List (Row × Nat)) := do
  let rows ← records request
  let lengths ← rows.mapM runtime.encode
  pure (rows.zip lengths)

/-- The entries of an admitted request. -/
def entriesOf (index : Nat) (request : SystemOneRequest) (measured : List (Row × Nat)) :
    List Entry :=
  (request.questions.keys.zip measured).map fun item => ⟨index, item.1, item.2.1, item.2.2⟩

variable {F : Type} [LogField F]

/-- One iteration of the admission loop. -/
def admitRequest (progress : List (Outcome F) × Dict QuestionType (List Entry))
    (item : SystemOneRequest × Nat) :
    Except PyException (List (Outcome F) × Dict QuestionType (List Entry)) :=
  match runtime.measure item.1 with
  | .error error =>
      if error.isValueError then .ok (progress.1 ++ [.error (inputError error)], progress.2)
      else .error error
  | .ok measured =>
      .ok (progress.1 ++ [.ok ⟨MODEL, Dict.empty, 0⟩],
        (entriesOf item.2 item.1 measured).foldl (push fun entry => entry.row.question.type)
          progress.2)

end Admission

section Batches

variable (runtime : KaiRuntime)

/-- `entries.sort(key=lambda entry: entry[3])`. -/
def sortByLength (entries : List Entry) : List Entry :=
  entries.insertionSort fun left right => left.length ≤ right.length

/-- The inner loop's test for one more entry. -/
def joins (batch : List Entry) (entry : Entry) : Bool :=
  decide (batch.length < runtime.batchSize) &&
    decide ((batch.length + 1) * entry.length ≤ runtime.batchTokens)

/-- The inner loop of one type: where the batch that begins at `start` ends,
looking from `stop` on, with fuel for its iterations. -/
def batchEnd (entries : List Entry) (start : Nat) : Nat → Nat → Option Nat
  | 0, _ => none
  | fuel + 1, stop =>
      match entries[stop]? with
      | none => some stop
      | some entry =>
          if stop - start < runtime.batchSize then
            if runtime.batchTokens < (stop - start + 1) * entry.length then some stop
            else batchEnd entries start fuel (stop + 1)
          else some stop

/-- The outer loop of one type: the batches from `start` on. -/
def batchLoop (entries : List Entry) : Nat → Nat → Option (List (List Entry))
  | 0, _ => none
  | fuel + 1, start =>
      if start < entries.length then do
        let stop ← runtime.batchEnd entries start entries.length (start + 1)
        let rest ← batchLoop entries fuel stop
        pure ((entries.drop start).take (stop - start) :: rest)
      else some []

/-- The batches passed to `_run`, in order. -/
def batches (pending : Dict QuestionType (List Entry)) : List (List Entry) :=
  pending.values.flatMap fun entries => cut runtime.joins (sortByLength entries)

variable {F : Type} [LogField F]

/-- The body of the loop in `_run`, for one entry and its encoded row. -/
def settle (requests : List SystemOneRequest) (probabilities : List (List PyFloat))
    (outcomes : List (Outcome F)) (item : (Entry × Encoded) × Nat) :
    Except PyException (List (Outcome F)) := do
  let ((entry, encoded), position) := item
  let vector ← at? probabilities position
  let request ← at? requests entry.requestIndex
  let question ← getItem request.questions entry.questionId
  let outcome ← at? outcomes entry.requestIndex
  match outcome with
  | .error _ => .error .assertionError
  | .ok response => do
      let answer ← candidateAnswer question (vector.take encoded.positions)
      pure (outcomes.set entry.requestIndex (.ok
        { response with
          answers := response.answers.set entry.questionId answer
          usage := { response.usage with
            inputTokens := response.usage.inputTokens + encoded.inputTokens } }))

/-- `_run`, as the call with this number. What it did to `outcomes` before an
exception is not kept: its caller overwrites it or raises. -/
def run (requests : List SystemOneRequest) (outcomes : List (Outcome F))
    (batch : List Entry × Nat) : Except PyException (List (Outcome F)) := do
  let rows := batch.1.map Entry.row
  let encoded ← runtime.collate batch.2 rows
  let logits ← runtime.model batch.2 rows
  if logits.finite then
    let outcomes ← (batch.1.zip encoded).zipIdx.foldlM (settle requests logits.probabilities)
      outcomes
    if batch.1.length = encoded.length then pure outcomes
    else .error (.valueError "zip() arguments have different lengths")
  else .error (.floatingPointError "Nonfinite candidate logits")

/-- The answers of a scored request, in the order of its questions. -/
def arrange (item : SystemOneRequest × Outcome F) : Except PyException (Outcome F) :=
  match item.2 with
  | .error error => .ok (.error error)
  | .ok response => do
      let answers ← Dict.comprehension item.1.questions.keys (getItem response.answers)
      pure (.ok { response with answers })

/-- `outcomes[index] = ServiceError(502, ...)` wherever a response stands. -/
def fail : Outcome F → Outcome F
  | .error error => .error error
  | .ok _ => .error scoringError

def evaluateBatch (requests : List SystemOneRequest) : Except PyException (List (Outcome F)) := do
  if admission requests then
    let (outcomes, pending) ← requests.zipIdx.foldlM runtime.admitRequest ([], Dict.empty)
    let outcomes ← match (runtime.batches pending).zipIdx.foldlM (runtime.run requests) outcomes with
      | .ok scored => .ok scored
      | .error error => if isScoringError error then .ok (outcomes.map fail) else .error error
    (requests.zip outcomes).mapM arrange
  else .error (.valueError "Batch admission exceeds 128 requests or 512 decisions")

end Batches

end KaiRuntime

end VllmVerifier.Decision
