import VllmVerifier.Machine
import VllmVerifier.Asyncio.Executor
import VllmVerifier.Decision.Runtime

/-!
`decision/service.py`: the queue of accepted jobs and its one worker. An event
is what happens between two awaits. While the worker runs, at the head of its
loop, no other coroutine does.
-/

set_option autoImplicit false

namespace VllmVerifier.Decision

open Python Asyncio

/-! ## State -/

structure ServiceSettings where
  maxRequests : Nat
  decisionBatchRequests : Nat
  decisionBatchWaitMs : ℚ
  requestsRange : 1 ≤ maxRequests ∧ maxRequests ≤ 4096
  batchRequestsRange : 1 ≤ decisionBatchRequests ∧ decisionBatchRequests ≤ 8
  batchWaitRange : 0 ≤ decisionBatchWaitMs ∧ decisionBatchWaitMs ≤ 100

inductive Future (α : Type) where
  | pending
  | cancelled
  | result (value : α)
  | exception (error : ServiceError)

def Future.done {α : Type} : Future α → Bool
  | .pending => false
  | .cancelled | .result _ | .exception _ => true

structure Job (α : Type) where
  request : SystemOneRequest
  future : Future α

/-- How a submitted `evaluate_batch` ended; `dropped` is a call that was
cancelled before the executor began it. -/
inductive CallOutcome (α : Type) where
  | returned (results : List (Except ServiceError α))
  | raised (error : PyException)
  | dropped

namespace CallOutcome

variable {α : Type}

/-- The worker's await ends with the results or with an exception that its
`except` clause catches. -/
def arrives : CallOutcome α → Bool
  | .returned _ => true
  | .raised error => delivery error = .raised
  | .dropped => false

/-- The worker's await never ends of itself. -/
def lost : CallOutcome α → Bool
  | .raised error => delivery error = .never
  | .returned _ | .dropped => false

end CallOutcome

/-- A call submitted to the executor, with the jobs it is for. -/
structure Call (α : Type) where
  batch : List Nat
  requests : List SystemOneRequest
  outcome : Option (CallOutcome α)

/-- Where the worker stands, with its local `jobs` and `live`. -/
inductive Worker where
  | absent
  | scheduled
  | looping
  | getting
  | sleeping (jobs : List Nat)
  | running (jobs live : List Nat)
  | finished
  | failed (error : PyException)
deriving DecidableEq

namespace Worker

/-- The jobs that the worker holds. -/
def jobs : Worker → List Nat
  | .sleeping jobs | .running jobs _ => jobs
  | .absent | .scheduled | .looping | .getting | .finished | .failed _ => []

/-- `self.worker and not self.worker.done()`. -/
def alive : Worker → Bool
  | .scheduled | .looping | .getting | .sleeping _ | .running _ _ => true
  | .absent | .finished | .failed _ => false

end Worker

/-- How far the one effective `close` has come. -/
inductive Closing where
  | opened
  | stopping
  | shutdown
  | complete
  | failed (error : PyException)
deriving DecidableEq

/-- Jobs are numbered in the order they were put into the queue. `accounted`
lists those for which `task_done` was called. -/
structure Service (α : Type) where
  runtime : Bool
  closed : Bool
  jobs : List (Job α)
  queue : List Nat
  unfinished : Nat
  accounted : List Nat
  worker : Worker
  cancelling : Bool
  calls : List (Call α)
  closing : Closing

namespace Service

variable {α : Type}

def initial : Service α :=
  ⟨false, false, [], [], 0, [], .absent, false, [], .opened⟩

/-! ## Futures and accounting -/

def isDone (service : Service α) (id : Nat) : Bool :=
  match service.jobs[id]? with
  | some job => job.future.done
  | none => false

/-- `future.set_result` and `future.set_exception`. -/
def settle (service : Service α) (id : Nat) (future : Future α) :
    Except PyException (Service α) := do
  let job ← at? service.jobs id
  if job.future.done then .error (.other "InvalidStateError")
  else .ok { service with jobs := service.jobs.set id { job with future } }

/-- `if not job.future.done(): job.future.set_...`. -/
def settleUnlessDone (service : Service α) (id : Nat) (future : Future α) :
    Except PyException (Service α) :=
  if service.isDone id then .ok service else service.settle id future

/-- `queue.task_done()`, for this job. -/
def taskDone (service : Service α) (id : Nat) : Except PyException (Service α) :=
  if service.unfinished = 0 then .error (.valueError "task_done() called too many times")
  else .ok { service with
    unfinished := service.unfinished - 1
    accounted := service.accounted ++ [id] }

def engineStopped : ServiceError :=
  ⟨503, "engine_unavailable", "Decision engine stopped"⟩

/-- The body of the loops that give up a job. -/
def stop (service : Service α) (id : Nat) : Except PyException (Service α) := do
  let service ← service.settleUnlessDone id (.exception engineStopped)
  service.taskDone id

/-- What a future receives for an element of the results. -/
def received : Except ServiceError α → Future α
  | .ok value => .result value
  | .error error => .exception error

/-- The body of the loop over live jobs and their results. -/
def resolve (service : Service α) (item : Nat × Except ServiceError α) :
    Except PyException (Service α) :=
  service.settleUnlessDone item.1 (received item.2)

/-- The results of a call for this many live jobs, or an error for each. An
outcome that does not arrive has none. -/
def results (live : List Nat) : CallOutcome α → List (Except ServiceError α)
  | .returned results =>
      if results.length = live.length then results else live.map fun _ => .error scoringError
  | .raised error =>
      if delivery error = .raised then live.map fun _ => .error scoringError else []
  | .dropped => []

/-! ## Callers -/

def ready (service : Service α) : Bool :=
  service.runtime && !service.closed && service.worker.alive

/-- `evaluate` up to its `await future`. -/
def evaluate (settings : ServiceSettings) (service : Service α) (request : SystemOneRequest) :
    Except ServiceError (Service α) :=
  if request.model ∉
      [ MODEL, lit "Decision-1.0-Kai-0.6B", lit "jev-latest", lit "diffusion-jev"] then
    .error ⟨422, "unknown_model", "Use jev-latest or the served model"⟩
  else if !service.ready then
    .error ⟨503, "engine_unavailable", "Decision engine is not ready"⟩
  else if settings.maxRequests ≤ service.queue.length then
    .error ⟨529, "overloaded", "Decision queue is full"⟩
  else .ok { service with
    jobs := service.jobs ++ [⟨request, .pending⟩]
    queue := service.queue ++ [service.jobs.length]
    unfinished := service.unfinished + 1 }

/-- Cancelling a caller that awaits its future cancels the future. -/
def cancelCaller (service : Service α) (id : Nat) : Option (Service α) :=
  match service.jobs[id]? with
  | none => none
  | some job =>
      if job.future.done then some service
      else some { service with jobs := service.jobs.set id { job with future := .cancelled } }

/-! ## The worker -/

/-- The inner `while`: jobs taken from the queue until there are enough. -/
def collect (settings : ServiceSettings) : List Nat → List Nat → List Nat × List Nat
  | jobs, [] => (jobs, [])
  | jobs, id :: queue =>
      if jobs.length < settings.decisionBatchRequests then collect settings (jobs ++ [id]) queue
      else (jobs, id :: queue)

/-- `for _ in jobs: self.queue.task_done()` and `jobs = []`. -/
def account (service : Service α) (jobs : List Nat) : Except PyException (Service α) := do
  let service ← jobs.foldlM taskDone service
  .ok { service with worker := .looping }

/-- From the sleep to the executor, or past it when no job is live. -/
def dispatch (settings : ServiceSettings) (service : Service α) (first : List Nat) :
    Except PyException (Service α) :=
  let (jobs, queue) := collect settings first service.queue
  let service := { service with queue }
  let live := jobs.filter fun id => !service.isDone id
  if live.isEmpty then service.account jobs
  else if service.runtime then do
    let requests ← live.mapM fun id => do
      let job ← at? service.jobs id
      pure job.request
    .ok { service with
      worker := .running jobs live
      calls := service.calls ++ [⟨live, requests, none⟩] }
  else .error .assertionError

/-- After `await self.queue.get()`. -/
def got (settings : ServiceSettings) (service : Service α) (first : Nat) (queue : List Nat) :
    Except PyException (Service α) :=
  let service := { service with queue }
  if settings.decisionBatchWaitMs ≠ 0 then .ok { service with worker := .sleeping [first] }
  else service.dispatch settings [first]

/-- The `finally` block, with these jobs in hand. -/
def finish (service : Service α) (jobs : List Nat) : Except PyException (Service α) := do
  let stopped ← (jobs ++ service.queue).foldlM stop { service with queue := [] }
  .ok { stopped with worker := .finished }

/-- After the executor's answer. A cancellation leaves the `try`, whose `except`
clause is for `Exception`, and so the loop. -/
def resume (service : Service α) (jobs live : List Nat) (outcome : CallOutcome α) :
    Except PyException (Service α) :=
  if outcome.arrives then do
    let service ← (live.zip (results live outcome)).foldlM resolve service
    service.account jobs
  else service.finish jobs

/-- An exception that leaves the worker's body. -/
def orFail (service : Service α) : Except PyException (Service α) → Service α
  | .ok next => next
  | .error error => { service with worker := .failed error }

/-- The worker's next step, to where it next gives way or loops. -/
def work (settings : ServiceSettings) (service : Service α) : Option (Service α) :=
  match service.worker with
  | .scheduled =>
      some { service with worker := if service.cancelling then .finished else .looping }
  | .looping =>
      match service.queue with
      | [] => some { service with worker := .getting }
      | first :: rest => some (service.orFail (service.got settings first rest))
  | .getting =>
      if service.cancelling then some (service.orFail (service.finish []))
      else
        match service.queue with
        | [] => none
        | first :: rest => some (service.orFail (service.got settings first rest))
  | .sleeping jobs =>
      if service.cancelling then some (service.orFail (service.finish jobs))
      else some (service.orFail (service.dispatch settings jobs))
  | .running jobs live =>
      if service.cancelling then some (service.orFail (service.finish jobs))
      else
        match service.calls.getLast?.bind Call.outcome with
        | none => none
        | some outcome =>
            if outcome.lost then none
            else some (service.orFail (service.resume jobs live outcome))
  | .absent | .finished | .failed _ => none

/-- The executor's thread ends its call. -/
def endCall (service : Service α) (outcome : CallOutcome α) : Option (Service α) :=
  match service.calls.getLast? with
  | none => none
  | some call =>
      match call.outcome, outcome with
      | some _, _ => none
      | none, .dropped =>
          if service.cancelling then
            some { service with calls := service.calls.dropLast ++ [{ call with outcome }] }
          else none
      | none, _ => some { service with calls := service.calls.dropLast ++ [{ call with outcome }] }

/-! ## Closing -/

/-- The loop of `close` over what is left in the queue. -/
def drain (service : Service α) : Service α :=
  match service.queue.foldlM stop { service with queue := [] } with
  | .ok drained => { drained with closing := .shutdown }
  | .error error => { service with closing := .failed error }

/-- `close`, to its first await. -/
def close (service : Service α) : Service α :=
  if service.closed then service
  else
    let service := { service with closed := true }
    if service.worker = .absent then service.drain
    else { service with cancelling := true, closing := .stopping }

/-- `close` after the worker has ended, and after the executor has shut down. -/
def resumeClose (service : Service α) : Option (Service α) :=
  match service.closing with
  | .stopping => if service.worker.alive then none else some service.drain
  | .shutdown =>
      match service.calls.getLast? with
      | some ⟨_, _, none⟩ => none
      | _ => some { service with runtime := false, closing := .complete }
  | .opened | .complete | .failed _ => none

/-! ## Steps -/

inductive Event (α : Type) where
  | start
  | evaluate (request : SystemOneRequest)
  | cancelCaller (id : Nat)
  | work
  | endCall (outcome : CallOutcome α)
  | close
  | resumeClose

/-- A step of another coroutine, which has to wait while the worker runs. -/
def outside (service : Service α) (next : Option (Service α)) : Option (Service α) :=
  if service.worker = .looping then none else next

/-- `start` from where the runtime is loaded. The application starts the service
once, before it closes it. -/
def start (service : Service α) : Option (Service α) :=
  if service.worker = .absent ∧ service.closed = false then
    some { service with runtime := true, worker := .scheduled }
  else none

def step (settings : ServiceSettings) (service : Service α) : Event α → Option (Service α)
  | .start => service.outside service.start
  | .evaluate request =>
      service.outside (match service.evaluate settings request with
        | .ok next => some next
        | .error _ => some service)
  | .cancelCaller id => service.outside (service.cancelCaller id)
  | .work => service.work settings
  | .endCall outcome => service.endCall outcome
  | .close => service.outside (some service.close)
  | .resumeClose => service.outside service.resumeClose

end Service

end VllmVerifier.Decision
