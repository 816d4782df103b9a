import VllmVerifier.Engine.Core

/-!
`engine/native.py`: the runtime over a vLLM scheduler and its tokenizer. Both
are arbitrary: they keep state, may raise, and may answer anything; a session
records what each call to the scheduler was given and what it answered.
-/

set_option autoImplicit false

namespace VllmVerifier.Engine

open Python

/-! ## The scheduler -/

structure SamplingParams where
  temperature : Nat
  maxTokens : Nat
  n : Nat
deriving DecidableEq

structure Submission where
  promptTokenIds : List Int
  sampling : SamplingParams
deriving DecidableEq

structure Candidate where
  text : Str
  tokenIds : List Int
  finishReason : Option Str
deriving DecidableEq

structure RequestOutput where
  promptTokenIds : Option (List Int)
  outputs : List Candidate
deriving DecidableEq

/-- An item of a list that the tokenizer returned. -/
inductive Token where
  | int (id : Int)
  | other
deriving DecidableEq

inductive Tokenized where
  | list (tokens : List Token)
  | other
deriving DecidableEq

structure LLM (τ : Type) where
  applyChatTemplate : List Message → τ → Except PyException Tokenized × τ
  generate : List Submission → τ → Except PyException (List RequestOutput) × τ

/-- One call of `llm.generate`, with what it returned or raised. -/
structure LLMCall where
  submissions : List Submission
  result : Except PyException (List RequestOutput)

structure Session (τ : Type) where
  state : τ
  calls : List LLMCall

/-! ## The runtime -/

namespace VLLMRuntime

variable {τ : Type}

/-- The check of `encode` on what the tokenizer returned. -/
def tokenIds (tokenized : Tokenized) : Except PyException (List Int) :=
  let refusal := PyException.runtimeError "Tokenizer did not return a list of token IDs"
  match tokenized with
  | .other => .error refusal
  | .list tokens => tokens.mapM fun token =>
      match token with
      | .int id => .ok id
      | .other => .error refusal

def encode (llm : LLM τ) (messages : List Message) (session : Session τ) :
    Except PyException (List Int) × Session τ :=
  let (result, state) := llm.applyChatTemplate messages session.state
  (result.bind tokenIds, { session with state })

def submission (job : WorkItem) : Submission := ⟨job.tokenIds, ⟨0, job.outputTokens, 1⟩⟩

/-- `candidate.finish_reason or "unfinished"`. -/
def finishReason (candidate : Candidate) : Str :=
  match candidate.finishReason with
  | none | some [] => lit "unfinished"
  | some reason => reason

/-- The body of the loop over jobs and outputs. -/
def completion (row : WorkItem × RequestOutput) : Except PyException Completion :=
  let (job, output) := row
  if output.promptTokenIds ≠ some job.tokenIds then
    .error (.runtimeError "Native vLLM output does not match the submitted prompt")
  else
    match output.outputs, output.promptTokenIds with
    | [candidate], some prompt =>
        .ok ⟨candidate.text, ⟨prompt.length, candidate.tokenIds.length⟩, finishReason candidate⟩
    | _, _ => .error (.runtimeError "Unexpected native vLLM output shape")

def completions (jobs : List WorkItem) (outputs : List RequestOutput) :
    Except PyException (List Completion) :=
  if outputs.length ≠ jobs.length then
    .error (.runtimeError "Native vLLM returned a different number of outputs")
  else (jobs.zip outputs).mapM completion

def generate (llm : LLM τ) (jobs : List WorkItem) (session : Session τ) :
    Except PyException (List Completion) × Session τ :=
  let submissions := jobs.map submission
  let (result, state) := llm.generate submissions session.state
  (result.bind (completions jobs), ⟨state, session.calls ++ [⟨submissions, result⟩]⟩)

/-- `VLLMRuntime` as a runtime of the engine. -/
def runtime (llm : LLM τ) : Runtime (Session τ) := ⟨encode llm, generate llm⟩

end VLLMRuntime

end VllmVerifier.Engine
