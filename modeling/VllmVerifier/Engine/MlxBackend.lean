import VllmVerifier.Asyncio.Executor
import VllmVerifier.Engine.Mlx
import VllmVerifier.Engine.Native
import VllmVerifier.Machine

/-!
`engine/mlx_backend.py`: coroutines hand messages to the one thread that owns the
MLX runtime. The libraries under the runtime keep a state of their own, may raise
and may answer anything.
-/

set_option autoImplicit false

namespace VllmVerifier.Engine

open Python Asyncio

/-- What loading the runtime, its tokenizer and its stream do. -/
structure Mlx (σ : Type) where
  load : Except PyException Unit
  fresh : σ
  maxModelLen : Nat
  applyChatTemplate : List Message → σ → Except PyException Tokenized × σ
  stream : List Int → Nat → σ → Stream × σ

/-- The runtime that the thread owns. -/
structure Owner (σ : Type) where
  state : σ
  stats : List StreamResult

/-- `isinstance(message.get("content"), str)`. -/
def isText (message : Message) : Bool :=
  match message.content with
  | .text _ => true
  | .parts _ => false

namespace Mlx

variable {σ : Type}

/-! ## The runtime -/

/-- The check of `encode` on what the tokenizer returned. -/
def tokenIds (tokenized : Tokenized) : Except PyException (List Int) :=
  let refusal := PyException.runtimeError "Tokenizer did not return token IDs"
  match tokenized with
  | .other => .error refusal
  | .list tokens => tokens.mapM fun token =>
      match token with
      | .int id => .ok id
      | .other => .error refusal

def encode (mlx : Mlx σ) (messages : List Message) (owner : Owner σ) :
    Except PyException (List Int) × Owner σ :=
  if messages.any fun message => !isText message then
    (.error (.valueError "The Mac decision runtime currently accepts text only"), owner)
  else
    let (result, state) := mlx.applyChatTemplate messages owner.state
    (result.bind tokenIds, { owner with state })

/-- The runtime as it is in this state. -/
def runtime (mlx : Mlx σ) (state : σ) : MlxRuntime :=
  ⟨mlx.maxModelLen, fun tokenIds outputTokens => (mlx.stream tokenIds outputTokens state).1⟩

/-- What `self.stats` receives for a stream: its terminal result. -/
def recorded (stream : Stream) : List StreamResult :=
  match stream.closeRaised, stream.raised, MlxRuntime.terminal stream.results with
  | none, none, some (result, _) => [result]
  | _, _, _ => []

def completeTokens (mlx : Mlx σ) (tokenIds : List Int) (outputTokens : Nat) (owner : Owner σ) :
    Except PyException Completion × Owner σ :=
  let outcome := (mlx.runtime owner.state).completeTokens tokenIds outputTokens
  if mlx.maxModelLen < tokenIds.length + outputTokens then (outcome, owner)
  else
    let (stream, state) := mlx.stream tokenIds outputTokens owner.state
    (outcome, ⟨state, owner.stats ++ recorded stream⟩)

/-- The `except` clauses of `generate`. -/
def reported (raised : PyException) : PyException :=
  if raised.isValueError then
    .serviceError ⟨422, "engine_input_error", "Input exceeds engine limits"⟩
  else
    match raised with
    | .runtimeError _ | .memoryError =>
        .serviceError ⟨502, "engine_error", "Local inference failed"⟩
    | other => other

/-- `generate`, with its `finally` clause. -/
def generate (mlx : Mlx σ) (outputTokens : Nat) (messages : List Message) (owner : Owner σ) :
    Except PyException Completion × Owner σ :=
  match mlx.encode messages owner with
  | (.error raised, owner) => (.error (reported raised), { owner with stats := [] })
  | (.ok tokens, owner) =>
      let (outcome, owner) := mlx.completeTokens tokens outputTokens owner
      (outcome.mapError reported, { owner with stats := [] })

end Mlx

/-! ## The backend -/

namespace MlxBackend

variable {σ : Type}

/-- What the coroutines submit to the thread. -/
inductive Job where
  | load
  | generate (messages : List Message)

inductive Result where
  | loaded (outcome : Except PyException Unit)
  | generated (outcome : Except PyException Completion)

inductive Outcome where
  | answered (outcome : Except PyException Completion)
  | cancelled

/-- One call of `complete`: the item that was submitted for it, and how it ended. -/
structure Call where
  messages : List Message
  item : Option Nat
  outcome : Option Outcome

inductive Starting where
  | unstarted
  | loading (item : Nat)
  | started
  | failed
deriving DecidableEq

/-- How far the one effective `close` has come: `stopping` until the shutdown of
the executor begins, `waiting` until its thread is done. -/
inductive Closing where
  | opened
  | stopping
  | waiting
  | complete
deriving DecidableEq

structure Backend (σ : Type) where
  runtime : Bool
  closed : Bool
  starting : Starting
  executor : Executor Job Result
  owner : Owner σ
  calls : List Call
  closing : Closing

namespace Backend

def initial (mlx : Mlx σ) : Backend σ :=
  ⟨false, false, .unstarted, .create, ⟨mlx.fresh, []⟩, [], .opened⟩

def ready (backend : Backend σ) : Bool := backend.runtime && !backend.closed

/-- `close`, to its first await. -/
def close (backend : Backend σ) : Backend σ :=
  if backend.closed then backend else { backend with closed := true, closing := .stopping }

/-! ## Starting -/

/-- `start`, to its await. The application starts the backend once, before it
closes it. -/
def start (backend : Backend σ) : Option (Backend σ) :=
  if backend.starting = .unstarted ∧ backend.closed = false then
    match backend.executor.submit .load with
    | .ok executor =>
        some { backend with executor, starting := .loading backend.executor.items.length }
    | .error _ => some { backend with starting := .failed }.close
  else none

/-- `start` after its await. -/
def resumeStart (backend : Backend σ) : Option (Backend σ) :=
  match backend.starting with
  | .loading item =>
      match backend.executor.progress? item with
      | some (.finished (.loaded (.ok ()))) =>
          some { backend with runtime := true, starting := .started }
      | some (.finished (.loaded (.error raised))) =>
          if delivery raised = .never then none
          else some { backend with starting := .failed }.close
      | some .cancelled => some { backend with starting := .failed }.close
      | some (.finished (.generated _)) | some .pending | some .running | none => none
  | .unstarted | .started | .failed => none

def cancelStart (backend : Backend σ) : Option (Backend σ) :=
  match backend.starting with
  | .loading item => some { backend with
      executor := backend.executor.cancel item
      starting := .failed }.close
  | .unstarted | .started | .failed => none

/-! ## Calls -/

def unavailable : ServiceError := ⟨503, "engine_unavailable", "Mac engine is not ready"⟩

def textOnly : ServiceError :=
  ⟨422, "unsupported_modality", "Mac engine currently supports text only"⟩

/-- A call that ends before it awaits anything. -/
def refuse (backend : Backend σ) (messages : List Message) (raised : PyException) : Backend σ :=
  { backend with calls := backend.calls ++ [⟨messages, none, some (.answered (.error raised))⟩] }

/-- `complete`, to its await. -/
def complete (backend : Backend σ) (messages : List Message) : Backend σ :=
  if backend.closed || !backend.runtime then
    backend.refuse messages (.serviceError unavailable)
  else if messages.any fun message => !isText message then
    backend.refuse messages (.serviceError textOnly)
  else
    match backend.executor.submit (.generate messages) with
    | .ok executor => { backend with
        executor
        calls := backend.calls ++ [⟨messages, some backend.executor.items.length, none⟩] }
    | .error raised => backend.refuse messages raised

def settle (backend : Backend σ) (id : Nat) (call : Call) (outcome : Outcome) : Backend σ :=
  { backend with calls := backend.calls.set id { call with outcome := some outcome } }

/-- `complete` after its await. -/
def resumeCall (backend : Backend σ) (id : Nat) : Option (Backend σ) :=
  match backend.calls[id]? with
  | some ⟨messages, some item, none⟩ =>
      match backend.executor.progress? item with
      | some (.finished (.generated (.ok completion))) =>
          some (backend.settle id ⟨messages, some item, none⟩ (.answered (.ok completion)))
      | some (.finished (.generated (.error raised))) =>
          match delivery raised with
          | .raised =>
              some (backend.settle id ⟨messages, some item, none⟩ (.answered (.error raised)))
          | .cancelled => some (backend.settle id ⟨messages, some item, none⟩ .cancelled)
          | .never => none
      | some .cancelled => some (backend.settle id ⟨messages, some item, none⟩ .cancelled)
      | _ => none
  | _ => none

/-- The caller is cancelled: so is its item, unless the thread has begun it. -/
def cancelCall (backend : Backend σ) (id : Nat) : Option (Backend σ) :=
  match backend.calls[id]? with
  | some ⟨messages, some item, none⟩ =>
      some ({ backend with executor := backend.executor.cancel item }.settle id
        ⟨messages, some item, none⟩ .cancelled)
  | _ => none

/-! ## The thread -/

def serve (mlx : Mlx σ) (outputTokens : Nat) (job : Job) (owner : Owner σ) : Result × Owner σ :=
  match job with
  | .load => (.loaded mlx.load, owner)
  | .generate messages =>
      let (outcome, owner) := mlx.generate outputTokens messages owner
      (.generated outcome, owner)

def take (backend : Backend σ) : Option (Backend σ) :=
  backend.executor.take.map fun executor => { backend with executor }

/-- The thread ends the job that it runs. -/
def finish (mlx : Mlx σ) (outputTokens : Nat) (backend : Backend σ) : Option (Backend σ) :=
  backend.executor.current.bind fun entry =>
    let (result, owner) := serve mlx outputTokens entry.2.job backend.owner
    (backend.executor.finish result).map fun executor => { backend with executor, owner }

/-! ## Closing -/

/-- The shutdown of the executor, to where it waits for the thread. -/
def shutdown (backend : Backend σ) : Option (Backend σ) :=
  if backend.closing = .stopping then
    some { backend with executor := backend.executor.shutDown, closing := .waiting }
  else none

/-- `close` after the shutdown. A `start` that the thread's answer reaches has
resumed before it: its callback was scheduled first. -/
def resumeClose (backend : Backend σ) : Option (Backend σ) :=
  if backend.closing = .waiting ∧ backend.executor.thread = none ∧
      backend.resumeStart.isNone = true then
    some { backend with runtime := false, closing := .complete }
  else none

/-! ## Steps -/

inductive Event where
  | start
  | resumeStart
  | cancelStart
  | complete (messages : List Message)
  | resumeCall (id : Nat)
  | cancelCall (id : Nat)
  | take
  | finish
  | close
  | shutdown
  | resumeClose

def step (mlx : Mlx σ) (outputTokens : Nat) (backend : Backend σ) : Event → Option (Backend σ)
  | .start => backend.start
  | .resumeStart => backend.resumeStart
  | .cancelStart => backend.cancelStart
  | .complete messages => some (backend.complete messages)
  | .resumeCall id => backend.resumeCall id
  | .cancelCall id => backend.cancelCall id
  | .take => backend.take
  | .finish => backend.finish mlx outputTokens
  | .close => some backend.close
  | .shutdown => backend.shutdown
  | .resumeClose => backend.resumeClose

end Backend

end MlxBackend

end VllmVerifier.Engine
