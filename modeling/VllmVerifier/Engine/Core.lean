import VllmVerifier.Prompts
import VllmVerifier.Verification
import VllmVerifier.Python.Result

/-!
`engine/core.py`: the synchronous engine. Its runtime is arbitrary and may keep
state; a run threads that state and records every call it made, also when it
raises.
-/

set_option autoImplicit false

namespace VllmVerifier.Engine

open Python

/-! ## Configuration and jobs -/

structure EngineConfig where
  maxBatchQuestions : Nat
  maxBatchTokens : Nat
  maxModelLen : Nat
  outputTokens : Nat
  validationRetries : Nat
  maxRequests : Nat
  batchQuestionsRange : 1 ≤ maxBatchQuestions ∧ maxBatchQuestions ≤ 4096
  batchTokensRange : 1 ≤ maxBatchTokens
  modelLenRange : 257 ≤ maxModelLen
  outputTokensRange : 256 ≤ outputTokens ∧ outputTokens ≤ 16384
  retriesRange : validationRetries ≤ 3
  requestsRange : 1 ≤ maxRequests ∧ maxRequests ≤ 4096

structure WorkItem where
  requestIndex : Nat
  questionId : Str
  question : Question
  tokenIds : List Int
  outputTokens : Nat
  attempt : Nat
deriving DecidableEq

def WorkItem.reservedTokens (item : WorkItem) : Nat := item.tokenIds.length + item.outputTokens

/-- A runtime: each call reads and changes the state, and may raise. It acts on the
engine by what it returns only: `generate` is taken not to change the list of jobs
that it is handed. -/
structure Runtime (σ : Type) where
  encode : List Message → σ → Except PyException (List Int) × σ
  generate : List WorkItem → σ → Except PyException (List Completion) × σ

/-- One call to the runtime, with what it returned or raised. -/
inductive RuntimeCall where
  | encode (messages : List Message) (result : Except PyException (List Int))
  | generate (jobs : List WorkItem) (result : Except PyException (List Completion))

structure World (σ : Type) where
  state : σ
  calls : List RuntimeCall

/-! ## Runs -/

/-- Why a run has no result; `outOfFuel` belongs to the model of its loop. -/
inductive Halt where
  | raised (error : PyException)
  | outOfFuel
deriving DecidableEq

def Run (σ α : Type) : Type := World σ → Except Halt α × World σ

namespace Run

variable {σ α β : Type}

def ret (value : α) : Run σ α := fun world => (.ok value, world)

def halt (reason : Halt) : Run σ α := fun world => (.error reason, world)

def next (first : Run σ α) (second : α → Run σ β) : Run σ β := fun world =>
  match first world with
  | (.ok value, after) => second value after
  | (.error reason, after) => (.error reason, after)

instance : Monad (Run σ) where
  pure := ret
  bind := next

private theorem id_map_run (run : Run σ α) : id <$> run = run := by
  funext world
  change next run (fun value => ret (id value)) world = run world
  unfold next
  split <;> simp_all [ret]

private theorem bind_assoc_run {γ : Type} (run : Run σ α) (second : α → Run σ β)
    (third : β → Run σ γ) :
    run >>= second >>= third = run >>= fun value => second value >>= third := by
  funext world
  change next (next run second) third world = next run (fun value => next (second value) third) world
  unfold next
  cases run world with
  | mk result after => cases result <;> rfl

instance : LawfulMonad (Run σ) :=
  LawfulMonad.mk' (Run σ) id_map_run (fun _ _ => rfl) bind_assoc_run

/-- A pure computation that may raise. -/
def lift (computation : Except PyException α) : Run σ α :=
  match computation with
  | .ok value => ret value
  | .error error => halt (.raised error)

def raise (error : PyException) : Run σ α := halt (.raised error)

end Run

/-! ## Loop state -/

structure RunStats where
  submittedQuestions : Nat
  repairQuestions : Nat
  batches : Nat
  batchSizes : List Nat
  sharedPrefixTokens : List Nat
deriving DecidableEq

structure DecisionRun (F : Type) [LogField F] where
  responses : List (SystemOneResponse F)
  stats : RunStats

/-- The variables of the generation loop. -/
structure Progress (F : Type) [LogField F] where
  pending : List WorkItem
  answers : List (Dict Str (Answer F))
  usage : List Usage
  stats : RunStats

/-! ## Pure parts -/

/-- The number of leading columns in which all sequences agree. -/
def prefixLength : List Int → List (List Int) → Nat
  | [], _ => 0
  | token :: rest, others =>
      if others.all fun other => other.head? == some token then
        prefixLength rest (others.map List.tail) + 1
      else 0

/-- The shared prefix of a request's first prompts; one prompt shares nothing. -/
def sharedPrefix (jobs : List WorkItem) : Nat :=
  match jobs.map WorkItem.tokenIds with
  | [] | [_] => 0
  | first :: others => prefixLength first others

/-- Sweeps over the queues, one job of each that has one. -/
def sweeps {α : Type} : Nat → List (List α) → List α
  | 0, _ => []
  | fuel + 1, queues =>
      if queues.all List.isEmpty then []
      else queues.filterMap List.head? ++ sweeps fuel (queues.map List.tail)

/-- The round robin across requests; each sweep takes at least one job. -/
def roundRobin {α : Type} (queues : List (List α)) : List α :=
  sweeps (queues.map List.length).sum queues

/-- The next batch and what stays in the queue. -/
def takeBatch (config : EngineConfig) : Nat → Nat → List WorkItem → List WorkItem × List WorkItem
  | _, _, [] => ([], [])
  | count, reserved, job :: rest =>
      if count < config.maxBatchQuestions ∧
          reserved + job.reservedTokens ≤ config.maxBatchTokens then
        let (batch, left) := takeBatch config (count + 1) (reserved + job.reservedTokens) rest
        (job :: batch, left)
      else ([], job :: rest)

section Engine

variable {F : Type} [LogField F]

/-- The reading of one completion of a question. -/
def judge (question : Question) (completion : Completion) : Except PyException (Answer F) :=
  if completion.finishReason = lit "stop" then verify completion.text question
  else .error (.invalidOutput "Completion did not finish normally")

end Engine

/-! ## The engine -/

structure DecisionEngine (σ : Type) where
  runtime : Runtime σ
  model : Str
  config : EngineConfig

namespace DecisionEngine

variable {σ F : Type} [LogField F]

/-- `self.runtime.encode(messages)`. -/
def encode (engine : DecisionEngine σ) (messages : List Message) : Run σ (List Int) :=
  fun world =>
    let (result, state) := engine.runtime.encode messages world.state
    (result.mapError .raised, ⟨state, world.calls ++ [.encode messages result]⟩)

/-- `self.runtime.generate(batch)`. -/
def generate (engine : DecisionEngine σ) (batch : List WorkItem) : Run σ (List Completion) :=
  fun world =>
    let (result, state) := engine.runtime.generate batch world.state
    (result.mapError .raised, ⟨state, world.calls ++ [.generate batch result]⟩)

def job (engine : DecisionEngine σ) (index : Nat) (key : Str) (state : Str)
    (question : Question) (attempt : Nat) (correction : Option String) : Run σ WorkItem := do
  let prompt ← Run.lift (messages state question (correction.map lit))
  let tokens ← engine.encode prompt
  let item : WorkItem := ⟨index, key, question, tokens, engine.config.outputTokens, attempt⟩
  if engine.config.maxModelLen < item.reservedTokens then
    Run.raise (.valueError "Decision prompt plus output budget exceeds max_model_len")
  else if engine.config.maxBatchTokens < item.reservedTokens then
    Run.raise (.valueError "A decision exceeds the batch token budget")
  else pure item

/-- The first jobs of one request. -/
def requestJobs (engine : DecisionEngine σ) (index : Nat) (state : Str)
    (request : SystemOneRequest) : Run σ (List WorkItem) :=
  request.questions.entries.mapM fun entry => engine.job index entry.1 state entry.2 0 none

/-- The body of the loop over a batch, for one job and its completion. -/
def settle (engine : DecisionEngine σ) (states : List Str) (progress : Progress F)
    (row : WorkItem × Completion) : Run σ (Progress F) := do
  let (item, completion) := row
  let used ← Run.lift (at? progress.usage item.requestIndex)
  let progress :=
    { progress with usage := progress.usage.set item.requestIndex (used.add completion.usage) }
  match judge item.question completion with
  | .error (.invalidOutput message) =>
      if engine.config.validationRetries ≤ item.attempt then
        Run.raise (.invalidOutput "Decision exhausted validation retries")
      else do
        let state ← Run.lift (at? states item.requestIndex)
        let repair ← engine.job item.requestIndex item.questionId state item.question
          (item.attempt + 1) (some message)
        pure { progress with
          pending := progress.pending ++ [repair]
          stats := { progress.stats with
            repairQuestions := progress.stats.repairQuestions + 1 } }
  | .error error => Run.raise error
  | .ok answer => do
      let answers ← Run.lift (at? progress.answers item.requestIndex)
      pure { progress with
        answers := progress.answers.set item.requestIndex (answers.set item.questionId answer) }

def settleAll (engine : DecisionEngine σ) (states : List Str) :
    List (WorkItem × Completion) → Progress F → Run σ (Progress F)
  | [], progress => pure progress
  | row :: rest, progress => do
      let progress ← engine.settle states progress row
      engine.settleAll states rest progress

/-- One iteration of the generation loop. -/
def round (engine : DecisionEngine σ) (states : List Str) (progress : Progress F) :
    Run σ (Progress F) := do
  let (batch, rest) := takeBatch engine.config 0 0 progress.pending
  let completions ← engine.generate batch
  if completions.length = batch.length then
    engine.settleAll states (batch.zip completions)
      { progress with
        pending := rest
        stats := { progress.stats with
          batches := progress.stats.batches + 1
          batchSizes := progress.stats.batchSizes ++ [batch.length]
          submittedQuestions := progress.stats.submittedQuestions + batch.length } }
  else Run.raise (.runtimeError "Runtime returned a different number of completions")

/-- The generation loop, with fuel for its iterations. -/
def generateLoop (engine : DecisionEngine σ) (states : List Str) :
    Nat → Progress F → Run σ (Progress F)
  | 0, progress => if progress.pending.isEmpty then pure progress else Run.halt .outOfFuel
  | fuel + 1, progress =>
      if progress.pending.isEmpty then pure progress
      else do
        let progress ← engine.round states progress
        engine.generateLoop states fuel progress

/-- `answers[i][key]` for every key of the request, in its order. -/
def response (engine : DecisionEngine σ) (progress : Progress F)
    (entry : SystemOneRequest × Nat) : Except PyException (SystemOneResponse F) := do
  let (request, index) := entry
  let found ← at? progress.answers index
  let answers ← Dict.comprehension request.questions.keys (getItem found)
  let used ← at? progress.usage index
  pure ⟨engine.model, answers, used⟩

/-- The names that `evaluate` serves. -/
def served (engine : DecisionEngine σ) (model : Str) : Bool :=
  decide (model = engine.model) || decide (model = lit "jev-latest") ||
    decide (model = lit "diffusion-jev")

/-- Every question may be tried once more than it may be retried. -/
def attemptBudget (engine : DecisionEngine σ) (requests : List SystemOneRequest) : Nat :=
  (requests.map fun request => request.questions.entries.length).sum *
    (engine.config.validationRetries + 1)

/-- The part of `evaluate` before the loop: the checks, the rendered states and
the queue. -/
def prepare (engine : DecisionEngine σ) (requests : List SystemOneRequest) :
    Run σ (List Str × Progress F) := do
  if requests.isEmpty || decide (engine.config.maxRequests < requests.length) then
    Run.raise (.valueError "Request count is outside the engine admission limit")
  else if requests.any fun request => !engine.served request.model then
    Run.raise (.valueError "Unknown model")
  else
    let states ← Run.lift (requests.mapM fun request => dumpsOrRaise .default request.state.value)
    let queues ← (requests.zip states).zipIdx.mapM fun entry =>
      engine.requestJobs entry.2 entry.1.2 entry.1.1
    pure (states, ⟨roundRobin queues, requests.map fun _ => Dict.empty, requests.map fun _ => 0,
      ⟨0, 0, 0, [], queues.map sharedPrefix⟩⟩)

/-- `evaluate` as a run. -/
def evaluateRun (engine : DecisionEngine σ) (requests : List SystemOneRequest) :
    Run σ (DecisionRun F) := do
  let (states, progress) ← engine.prepare requests
  let progress ← engine.generateLoop states (engine.attemptBudget requests) progress
  let responses ← Run.lift (requests.zipIdx.mapM (engine.response progress))
  pure ⟨responses, progress.stats⟩

/-- `evaluate` from a runtime state, with the calls it made. -/
def evaluate (engine : DecisionEngine σ) (requests : List SystemOneRequest) (state : σ) :
    Except Halt (DecisionRun F) × World σ :=
  engine.evaluateRun requests ⟨state, []⟩

end DecisionEngine

/-! ## History -/

/-- The jobs of one call, each with the completion at its position. -/
def RuntimeCall.rows : RuntimeCall → List (WorkItem × Completion)
  | .generate jobs (.ok completions) => jobs.zip completions
  | .generate _ (.error _) | .encode _ _ => []

/-- Every generated job with its completion, in order. -/
def World.history {σ : Type} (world : World σ) : List (WorkItem × Completion) :=
  world.calls.flatMap RuntimeCall.rows

end VllmVerifier.Engine
