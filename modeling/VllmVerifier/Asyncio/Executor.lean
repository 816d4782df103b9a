import Mathlib.Data.List.Basic
import VllmVerifier.Models

/-!
`concurrent.futures.ThreadPoolExecutor` with one thread: work items are taken in
the order they were submitted in, one at a time, and an item that was cancelled
before it was taken is passed over. What an item raises reaches the coroutine that
awaits it through a future of asyncio.
-/

set_option autoImplicit false

namespace VllmVerifier.Asyncio

open Python

/-- The state of the item's future. -/
inductive Progress (Result : Type) where
  | pending
  | cancelled
  | running
  | finished (result : Result)

namespace Progress

variable {Result : Type}

/-- Done, with a result or without one. -/
def settled : Progress Result → Bool
  | .cancelled | .finished _ => true
  | .pending | .running => false

/-- The thread has begun the item. -/
def started : Progress Result → Bool
  | .running | .finished _ => true
  | .pending | .cancelled => false

/-- `future.cancel()`. -/
def cancel : Progress Result → Progress Result
  | .pending => .cancelled
  | progress => progress

end Progress

/-- What becomes of a coroutine that awaits an item which raised. -/
inductive Delivery where
  | raised
  | cancelled
  | never
deriving DecidableEq

def stopIteration : PyException := .other "StopIteration"

/-- The `CancelledError` of `concurrent.futures`, not that of asyncio. -/
def futureCancelled : PyException := .other "concurrent.futures.CancelledError"

/-- `_chain_future`, as of Python 3.11. `Future.set_exception` refuses a
`StopIteration`, so that the awaited future stays pending (later releases raise a
`RuntimeError` there), and the cancellation of a thread's future is converted into one
of the coroutine. -/
def delivery (raised : PyException) : Delivery :=
  if raised = stopIteration then .never
  else if raised = futureCancelled then .cancelled
  else .raised

theorem delivery_never_iff {raised : PyException} :
    delivery raised = .never ↔ raised = stopIteration := by
  unfold delivery
  split
  · simp [*]
  · split <;> simpa

theorem delivery_raised_iff {raised : PyException} :
    delivery raised = .raised ↔ raised ≠ stopIteration ∧ raised ≠ futureCancelled := by
  unfold delivery
  split
  · simp [*]
  · split <;> simp [*]

structure WorkItem (Job Result : Type) where
  job : Job
  progress : Progress Result

/-- The job of an item that ran to its end, with its result. -/
def WorkItem.outcome {Job Result : Type} : WorkItem Job Result → Option (Job × Result)
  | ⟨job, .finished result⟩ => some (job, result)
  | ⟨_, .pending⟩ | ⟨_, .cancelled⟩ | ⟨_, .running⟩ => none

/-- Every item that was submitted, the work queue, and the item the thread runs. -/
structure Executor (Job Result : Type) where
  items : List (WorkItem Job Result)
  queue : List Nat
  thread : Option Nat
  shutdown : Bool

namespace Executor

variable {Job Result : Type}

def create : Executor Job Result := ⟨[], [], none, false⟩

def progress? (executor : Executor Job Result) (id : Nat) : Option (Progress Result) :=
  executor.items[id]?.map WorkItem.progress

def submit (executor : Executor Job Result) (job : Job) :
    Except PyException (Executor Job Result) :=
  if executor.shutdown then
    .error (.runtimeError "cannot schedule new futures after shutdown")
  else .ok { executor with
    items := executor.items ++ [⟨job, .pending⟩]
    queue := executor.queue ++ [executor.items.length] }

def mark (executor : Executor Job Result) (id : Nat) (item : WorkItem Job Result)
    (progress : Progress Result) : Executor Job Result :=
  { executor with items := executor.items.set id ⟨item.job, progress⟩ }

/-- The thread, when it runs nothing, takes the first item of the queue. -/
def take (executor : Executor Job Result) : Option (Executor Job Result) :=
  match executor.thread, executor.queue with
  | none, id :: queue =>
      match executor.items[id]? with
      | none => none
      | some item =>
          match item.progress with
          | .pending => some { executor.mark id item .running with queue, thread := some id }
          | .cancelled | .running | .finished _ => some { executor with queue }
  | _, _ => none

/-- The item that the thread runs. -/
def current (executor : Executor Job Result) : Option (Nat × WorkItem Job Result) :=
  executor.thread.bind fun id => executor.items[id]?.map fun item => (id, item)

/-- The thread ends the item that it runs. -/
def finish (executor : Executor Job Result) (result : Result) :
    Option (Executor Job Result) :=
  executor.current.map fun entry =>
    { executor.mark entry.1 entry.2 (.finished result) with thread := none }

def cancel (executor : Executor Job Result) (id : Nat) : Executor Job Result :=
  match executor.items[id]? with
  | none => executor
  | some item => executor.mark id item item.progress.cancel

/-- `shutdown(cancel_futures=True)`, to where it waits for the thread. -/
def shutDown (executor : Executor Job Result) : Executor Job Result :=
  { executor.queue.foldl cancel executor with queue := [], shutdown := true }

/-! ## Submission order -/

/-- The items that run or ran are the first ones that were not cancelled; what is
pending waits behind them. -/
structure Valid (executor : Executor Job Result) : Prop where
  queued : ∀ id ∈ executor.queue, ∃ item, executor.items[id]? = some item ∧
    item.progress.started = false
  pending : ∀ (id : Nat) (item : WorkItem Job Result), executor.items[id]? = some item →
    item.progress = .pending → id ∈ executor.queue
  ordered : executor.queue.Pairwise (· < ·)
  behind : ∀ (id : Nat) (item : WorkItem Job Result), executor.items[id]? = some item →
    item.progress.started = true → ∀ later ∈ executor.queue, id < later
  running : ∀ (id : Nat), executor.thread = some id ↔
    ∃ item, executor.items[id]? = some item ∧ item.progress = .running
  last : ∀ id, executor.thread = some id → ∀ (other : Nat) (item : WorkItem Job Result),
    executor.items[other]? = some item → item.progress.started = true → other ≤ id
  stopped : executor.shutdown = true → executor.queue = []

/-- One item at a time, in the order of submission: what was submitted before a
started item is done. -/
theorem Valid.first_settled {executor : Executor Job Result} (valid : executor.Valid)
    {id other : Nat} {item before : WorkItem Job Result} (found : executor.items[id]? = some item)
    (started : item.progress.started = true) (earlier : other < id)
    (located : executor.items[other]? = some before) : before.progress.settled = true := by
  cases progress : before.progress with
  | cancelled | finished => rfl
  | pending =>
      have behind := valid.behind id item found started other
        (valid.pending other before located progress)
      omega
  | running =>
      have last := valid.last other ((valid.running other).mpr ⟨before, located, progress⟩)
        id item found started
      omega

theorem Valid.create : (create : Executor Job Result).Valid where
  queued _ member := by cases member
  pending _ _ found := by cases found
  ordered := .nil
  behind _ _ found := by cases found
  running id := by simp [Executor.create]
  last _ thread := by cases thread
  stopped _ := rfl

/-! ## Items -/

section Items

variable {executor next : Executor Job Result} {id : Nat} {item : WorkItem Job Result}

theorem mark_getElem? (found : executor.items[id]? = some item) (progress : Progress Result)
    (other : Nat) : (executor.mark id item progress).items[other]? =
      if other = id then some ⟨item.job, progress⟩ else executor.items[other]? := by
  have inside := (List.getElem?_eq_some_iff.mp found).1
  rw [mark, List.getElem?_set]
  by_cases same : id = other
  · subst same
    rw [if_pos rfl, if_pos inside, if_pos rfl]
  · rw [if_neg same, if_neg (Ne.symm same)]

/-- A marked item is the one that was marked, or another as it was. -/
theorem mark_cases (found : executor.items[id]? = some item) {progress : Progress Result}
    {other : Nat} {after : WorkItem Job Result}
    (located : (executor.mark id item progress).items[other]? = some after) :
    other = id ∧ after = ⟨item.job, progress⟩ ∨
      other ≠ id ∧ executor.items[other]? = some after := by
  rw [mark_getElem? found] at located
  split at located
  · rename_i same
    exact .inl ⟨same, (Option.some.inj located).symm⟩
  · rename_i different
    exact .inr ⟨different, located⟩

/-- Some of the items, where they were pending, are cancelled. -/
structure Withdraws (gone : Nat → Prop) (executor next : Executor Job Result) : Prop where
  thread : next.thread = executor.thread
  each : ∀ other, next.items[other]? = executor.items[other]? ∨
    gone other ∧ next.items[other]? = executor.items[other]?.map fun item =>
      ⟨item.job, item.progress.cancel⟩

theorem cancel_cancel (progress : Progress Result) : progress.cancel.cancel = progress.cancel := by
  cases progress <;> rfl

theorem cancel_withdraws (executor : Executor Job Result) (id : Nat) :
    Withdraws (· = id) executor (executor.cancel id) ∧
      (executor.cancel id).items[id]? =
        executor.items[id]?.map fun item => ⟨item.job, item.progress.cancel⟩ := by
  cases found : executor.items[id]? with
  | none =>
      have same : executor.cancel id = executor := by rw [cancel, found]
      rw [same, found]
      exact ⟨⟨rfl, fun other => .inl rfl⟩, rfl⟩
  | some item =>
      have shape : executor.cancel id = executor.mark id item item.progress.cancel := by
        rw [cancel, found]
      rw [shape]
      refine ⟨⟨rfl, fun other => ?_⟩, by rw [mark_getElem? found, if_pos rfl]; rfl⟩
      rw [mark_getElem? found]
      by_cases same : other = id
      · rw [if_pos same, same, found]
        exact .inr ⟨rfl, rfl⟩
      · rw [if_neg same]
        exact .inl rfl

theorem Withdraws.refl (gone : Nat → Prop) (executor : Executor Job Result) :
    Withdraws gone executor executor := ⟨rfl, fun _ => .inl rfl⟩

theorem Withdraws.trans {gone : Nat → Prop} {last : Executor Job Result}
    (first : Withdraws gone executor next) (second : Withdraws gone next last) :
    Withdraws gone executor last := by
  refine ⟨second.thread.trans first.thread, fun other => ?_⟩
  rcases first.each other with same | ⟨member, cancelled⟩
  · rw [← same]
    exact second.each other
  · right
    refine ⟨member, ?_⟩
    rcases second.each other with same | ⟨_, again⟩
    · rw [same, cancelled]
    · rw [again, cancelled, Option.map_map]
      simp only [Function.comp_def, cancel_cancel]

theorem Withdraws.mono {gone wider : Nat → Prop} (wide : ∀ other, gone other → wider other)
    (withdraws : Withdraws gone executor next) : Withdraws wider executor next :=
  ⟨withdraws.thread, fun other => (withdraws.each other).imp_right fun known =>
    ⟨wide other known.1, known.2⟩⟩

theorem Withdraws.after {gone : Nat → Prop} (withdraws : Withdraws gone executor next)
    {other : Nat} (located : executor.items[other]? = some item) :
    ∃ after, next.items[other]? = some after ∧ after.job = item.job ∧
      (after.progress = item.progress ∨
        gone other ∧ item.progress = .pending ∧ after.progress = .cancelled) := by
  rcases withdraws.each other with same | ⟨member, cancelled⟩
  · exact ⟨item, same.trans located, rfl, .inl rfl⟩
  · rw [located] at cancelled
    refine ⟨_, cancelled, rfl, ?_⟩
    dsimp only
    cases item.progress with
    | pending => exact .inr ⟨member, rfl, rfl⟩
    | cancelled | running | finished => exact .inl rfl

theorem Withdraws.before {gone : Nat → Prop} (withdraws : Withdraws gone executor next)
    {other : Nat} {after : WorkItem Job Result} (located : next.items[other]? = some after) :
    ∃ item, executor.items[other]? = some item ∧ after.job = item.job ∧
      (after.progress = item.progress ∨
        gone other ∧ item.progress = .pending ∧ after.progress = .cancelled) := by
  cases found : executor.items[other]? with
  | none =>
      rcases withdraws.each other with same | ⟨_, cancelled⟩
      · rw [located, found] at same
        cases same
      · rw [located, found] at cancelled
        cases cancelled
  | some item =>
      obtain ⟨found', shape, job, progress⟩ := withdraws.after found
      rw [located] at shape
      cases shape
      exact ⟨item, rfl, job, progress⟩

/-- The queue's items are cancelled, and no other. -/
theorem cancelAll_withdraws (ids : List Nat) (executor : Executor Job Result) :
    Withdraws (· ∈ ids) executor (ids.foldl cancel executor) ∧
      ∀ id ∈ ids, ∀ item, (ids.foldl cancel executor).items[id]? = some item →
        item.progress ≠ .pending := by
  induction ids generalizing executor with
  | nil => exact ⟨.refl _ _, fun _ member => by cases member⟩
  | cons first rest ih =>
      obtain ⟨withdraws, here⟩ := cancel_withdraws executor first
      obtain ⟨others, none⟩ := ih (executor.cancel first)
      have wide := withdraws.mono (fun other (same : other = first) =>
        show other ∈ first :: rest from same ▸ List.mem_cons_self)
      have later := others.mono (fun other member =>
        show other ∈ first :: rest from List.mem_cons_of_mem _ member)
      refine ⟨wide.trans later, fun id member item located => ?_⟩
      rcases List.mem_cons.mp member with rfl | member
      · obtain ⟨middle, found, _, progress⟩ := others.before located
        rw [here] at found
        obtain ⟨item', _, rfl⟩ := Option.map_eq_some_iff.mp found
        rcases progress with same | ⟨_, _, cancelled⟩
        · rw [same]
          intro pending
          dsimp only at pending
          cases known : item'.progress <;> simp [known, Progress.cancel] at pending
        · rw [cancelled]
          intro pending
          cases pending
      · exact none id member item located

end Items

/-! ## Operations -/

section Operations

variable {executor next : Executor Job Result}

theorem submit_some {job : Job} (submitted : executor.submit job = .ok next) :
    executor.shutdown = false ∧ next = { executor with
      items := executor.items ++ [⟨job, .pending⟩]
      queue := executor.queue ++ [executor.items.length] } := by
  unfold submit at submitted
  split at submitted
  · cases submitted
  · rename_i open'
    cases submitted
    exact ⟨Bool.eq_false_of_not_eq_true open', rfl⟩

theorem getElem?_concat {items : List (WorkItem Job Result)} {last after : WorkItem Job Result}
    {id : Nat} (located : (items ++ [last])[id]? = some after) :
    items[id]? = some after ∨ id = items.length ∧ after = last := by
  rcases Nat.lt_trichotomy id items.length with inside | same | outside
  · rw [List.getElem?_append_left inside] at located
    exact .inl located
  · rw [same, List.getElem?_concat_length] at located
    exact .inr ⟨same, (Option.some.inj located).symm⟩
  · have none : (items ++ [last])[id]? = none :=
      List.getElem?_eq_none (by rw [List.length_append, List.length_singleton]; omega)
    rw [none] at located
    cases located

theorem Valid.submit (valid : executor.Valid) {job : Job}
    (submitted : executor.submit job = .ok next) : next.Valid := by
  obtain ⟨open', rfl⟩ := submit_some submitted
  have kept : ∀ {id : Nat} {item : WorkItem Job Result}, executor.items[id]? = some item →
      (executor.items ++ [⟨job, .pending⟩])[id]? = some item := fun found =>
    (List.getElem?_append_left (List.getElem?_eq_some_iff.mp found).1).trans found
  have inside : ∀ id ∈ executor.queue, id < executor.items.length := by
    intro id member
    obtain ⟨item, found, _⟩ := valid.queued id member
    exact (List.getElem?_eq_some_iff.mp found).1
  constructor
  · intro id member
    rcases List.mem_append.mp member with before | last
    · obtain ⟨item, found, waiting⟩ := valid.queued id before
      exact ⟨item, kept found, waiting⟩
    · cases List.mem_singleton.mp last
      exact ⟨⟨job, .pending⟩, List.getElem?_concat_length, rfl⟩
  · intro id item located pending
    rcases getElem?_concat located with found | ⟨rfl, _⟩
    · exact List.mem_append_left _ (valid.pending id item found pending)
    · exact List.mem_append_right _ (List.mem_singleton_self _)
  · refine List.pairwise_append.mpr ⟨valid.ordered, List.pairwise_singleton _ _, ?_⟩
    intro id member other last
    cases List.mem_singleton.mp last
    exact inside id member
  · intro id item located started later member
    rcases getElem?_concat located with found | ⟨_, rfl⟩
    · rcases List.mem_append.mp member with before | last
      · exact valid.behind id item found started later before
      · cases List.mem_singleton.mp last
        exact (List.getElem?_eq_some_iff.mp found).1
    · cases started
  · intro id
    refine (valid.running id).trans ⟨?_, ?_⟩
    · intro given
      obtain ⟨item, found, running⟩ := given
      exact ⟨item, kept found, running⟩
    · intro given
      obtain ⟨item, located, running⟩ := given
      rcases getElem?_concat located with found | ⟨_, rfl⟩
      · exact ⟨item, found, running⟩
      · cases running
  · intro id thread other item located started
    rcases getElem?_concat located with found | ⟨_, rfl⟩
    · exact valid.last id thread other item found started
    · cases started
  · intro stopped
    dsimp only at stopped
    rw [open'] at stopped
    cases stopped

theorem Withdraws.valid {gone : Nat → Prop} (withdraws : Withdraws gone executor next)
    (valid : executor.Valid) (queue : next.queue = executor.queue ∨ next.queue = [] ∧
      ∀ (id : Nat) (item : WorkItem Job Result), next.items[id]? = some item →
        item.progress ≠ .pending)
    (stopped : next.shutdown = true → next.queue = []) : next.Valid := by
  have sub : ∀ id ∈ next.queue, id ∈ executor.queue := by
    intro id member
    rcases queue with same | ⟨empty, _⟩
    · exact same ▸ member
    · rw [empty] at member
      cases member
  have start : ∀ {id : Nat} {after : WorkItem Job Result}, next.items[id]? = some after →
      after.progress.started = true →
      ∃ item, executor.items[id]? = some item ∧ item.progress.started = true := by
    intro id after located started
    obtain ⟨item, found, _, same | ⟨_, _, cancelled⟩⟩ := withdraws.before located
    · exact ⟨item, found, same ▸ started⟩
    · rw [cancelled] at started
      cases started
  constructor
  · intro id member
    obtain ⟨item, found, waiting⟩ := valid.queued id (sub id member)
    obtain ⟨after, located, _, same | ⟨_, _, cancelled⟩⟩ := withdraws.after found
    · exact ⟨after, located, same ▸ waiting⟩
    · exact ⟨after, located, by rw [cancelled]; rfl⟩
  · intro id after located pending
    rcases queue with same | ⟨_, none⟩
    · rw [same]
      obtain ⟨item, found, _, kept | ⟨_, _, cancelled⟩⟩ := withdraws.before located
      · exact valid.pending id item found (kept ▸ pending)
      · rw [cancelled] at pending
        cases pending
    · exact absurd pending (none id after located)
  · rcases queue with same | ⟨empty, _⟩
    · exact same ▸ valid.ordered
    · rw [empty]
      exact .nil
  · intro id after located started later member
    obtain ⟨item, found, known⟩ := start located started
    exact valid.behind id item found known later (sub later member)
  · intro id
    rw [withdraws.thread, valid.running]
    constructor
    · intro given
      obtain ⟨item, found, running⟩ := given
      obtain ⟨after, located, _, same | ⟨_, pending, _⟩⟩ := withdraws.after found
      · exact ⟨after, located, same.trans running⟩
      · rw [running] at pending
        cases pending
    · intro given
      obtain ⟨after, located, running⟩ := given
      obtain ⟨item, found, _, same | ⟨_, _, cancelled⟩⟩ := withdraws.before located
      · exact ⟨item, found, same.symm.trans running⟩
      · rw [running] at cancelled
        cases cancelled
  · intro id thread other after located started
    obtain ⟨item, found, known⟩ := start located started
    exact valid.last id (withdraws.thread ▸ thread) other item found known
  · exact stopped

theorem cancel_same (executor : Executor Job Result) (id : Nat) :
    (executor.cancel id).queue = executor.queue ∧
      (executor.cancel id).shutdown = executor.shutdown := by
  unfold cancel
  split <;> exact ⟨rfl, rfl⟩

theorem Valid.cancel (valid : executor.Valid) (id : Nat) : (executor.cancel id).Valid := by
  obtain ⟨queue, shutdown⟩ := cancel_same executor id
  refine (cancel_withdraws executor id).1.valid valid (.inl queue) fun stopped => ?_
  rw [queue]
  exact valid.stopped (shutdown ▸ stopped)

theorem shutDown_withdraws (executor : Executor Job Result) :
    Withdraws (· ∈ executor.queue) executor executor.shutDown :=
  have withdraws := (cancelAll_withdraws executor.queue executor).1
  ⟨withdraws.thread, withdraws.each⟩

theorem Valid.shutDown (valid : executor.Valid) : executor.shutDown.Valid := by
  refine (shutDown_withdraws executor).valid valid (.inr ⟨rfl, fun id after located pending => ?_⟩)
    fun _ => rfl
  obtain ⟨item, found, _, same | ⟨_, _, cancelled⟩⟩ :=
    (shutDown_withdraws executor).before located
  · have member := valid.pending id item found (same ▸ pending)
    exact (cancelAll_withdraws executor.queue executor).2 id member after located pending
  · rw [pending] at cancelled
    cases cancelled

/-- The thread begins the first item of the queue, or passes over it. -/
theorem take_some (valid : executor.Valid) (took : executor.take = some next) :
    executor.thread = none ∧ ∃ id queue item, executor.queue = id :: queue ∧
      executor.items[id]? = some item ∧
      (item.progress = .pending ∧
        next = { executor.mark id item .running with queue, thread := some id } ∨
      item.progress = .cancelled ∧ next = { executor with queue }) := by
  unfold take at took
  split at took
  · rename_i id queue idle queued
    refine ⟨idle, id, queue, ?_⟩
    obtain ⟨item, found, waiting⟩ := valid.queued id (queued ▸ List.mem_cons_self)
    simp only [found] at took
    refine ⟨item, queued, found, ?_⟩
    cases progress : item.progress with
    | pending =>
        simp only [progress] at took
        exact .inl ⟨rfl, (Option.some.inj took).symm⟩
    | cancelled =>
        simp only [progress] at took
        exact .inr ⟨rfl, (Option.some.inj took).symm⟩
    | running | finished =>
        rw [progress] at waiting
        cases waiting
  · cases took

theorem Valid.take (valid : executor.Valid) (took : executor.take = some next) : next.Valid := by
  obtain ⟨idle, id, queue, item, queued, found, outcome⟩ := take_some valid took
  have ordered := valid.ordered
  rw [queued, List.pairwise_cons] at ordered
  have sub : ∀ {other}, other ∈ queue → other ∈ executor.queue := fun member =>
    queued ▸ List.mem_cons_of_mem _ member
  have stopped : executor.shutdown = true → queue = [] := by
    intro shut
    have empty := valid.stopped shut
    rw [queued] at empty
    cases empty
  have nobody : ∀ (other : Nat) (item : WorkItem Job Result),
      executor.items[other]? = some item → item.progress ≠ .running := by
    intro other item found running
    have thread := (valid.running other).mpr ⟨item, found, running⟩
    rw [idle] at thread
    cases thread
  rcases outcome with ⟨pending, rfl⟩ | ⟨cancelled, rfl⟩
  · constructor
    · intro other member
      obtain ⟨before, located, waiting⟩ := valid.queued other (sub member)
      have later := ordered.1 other member
      refine ⟨before, ?_, waiting⟩
      change (executor.mark id item .running).items[other]? = _
      rw [mark_getElem? found, if_neg (Nat.ne_of_gt later), located]
    · intro other after located waiting
      rcases mark_cases found located with ⟨_, rfl⟩ | ⟨different, before⟩
      · cases waiting
      · have member := valid.pending other after before waiting
        rw [queued] at member
        exact (List.mem_cons.mp member).resolve_left different
    · exact ordered.2
    · intro other after located started later member
      rcases mark_cases found located with ⟨rfl, _⟩ | ⟨_, before⟩
      · exact ordered.1 later member
      · exact valid.behind other after before started later (sub member)
    · intro other
      constructor
      · intro thread
        cases thread
        exact ⟨⟨item.job, .running⟩, by
          change (executor.mark id item .running).items[id]? = _
          rw [mark_getElem? found, if_pos rfl], rfl⟩
      · intro given
        obtain ⟨after, located, running⟩ := given
        rcases mark_cases found located with ⟨rfl, _⟩ | ⟨_, before⟩
        · rfl
        · exact absurd running (nobody other after before)
    · intro head thread other after located started
      cases thread
      rcases mark_cases found located with ⟨rfl, _⟩ | ⟨_, before⟩
      · exact Nat.le_refl _
      · exact Nat.le_of_lt (valid.behind other after before started id
          (queued ▸ List.mem_cons_self))
    · exact stopped
  · exact { valid with
      queued := fun other member => valid.queued other (sub member)
      pending := fun other before located waiting => by
        have member := valid.pending other before located waiting
        rw [queued] at member
        refine (List.mem_cons.mp member).resolve_left fun same => ?_
        subst same
        rw [found] at located
        cases located
        rw [cancelled] at waiting
        cases waiting
      ordered := ordered.2
      behind := fun other before located started later member =>
        valid.behind other before located started later (sub member)
      stopped }

theorem finish_some (valid : executor.Valid) {result : Result}
    (finished : executor.finish result = some next) : ∃ id item,
      executor.thread = some id ∧ executor.items[id]? = some item ∧ item.progress = .running ∧
        next = { executor.mark id item (.finished result) with thread := none } := by
  unfold finish current at finished
  obtain ⟨entry, current, rfl⟩ := Option.map_eq_some_iff.mp finished
  obtain ⟨id, thread, found⟩ := Option.bind_eq_some_iff.mp current
  obtain ⟨item, running⟩ := (valid.running id).mp thread
  rw [running.1] at found
  cases found
  exact ⟨id, item, thread, running.1, running.2, rfl⟩

theorem Valid.finish (valid : executor.Valid) {result : Result}
    (finished : executor.finish result = some next) : next.Valid := by
  obtain ⟨id, item, thread, found, running, rfl⟩ := finish_some valid finished
  have start : ∀ {other : Nat} {after : WorkItem Job Result},
      (executor.mark id item (.finished result)).items[other]? = some after →
      after.progress.started = true →
      ∃ before, executor.items[other]? = some before ∧ before.progress.started = true := by
    intro other after located started
    rcases mark_cases found located with ⟨rfl, _⟩ | ⟨_, before⟩
    · exact ⟨item, found, by rw [running]; rfl⟩
    · exact ⟨after, before, started⟩
  constructor
  · intro other member
    obtain ⟨before, located, waiting⟩ := valid.queued other member
    refine ⟨before, ?_, waiting⟩
    change (executor.mark id item (.finished result)).items[other]? = _
    have different : other ≠ id := by
      rintro rfl
      rw [found] at located
      cases located
      rw [running] at waiting
      cases waiting
    rw [mark_getElem? found, if_neg different, located]
  · intro other after located waiting
    rcases mark_cases found located with ⟨_, rfl⟩ | ⟨_, before⟩
    · cases waiting
    · exact valid.pending other after before waiting
  · exact valid.ordered
  · intro other after located started later member
    obtain ⟨before, known, begun⟩ := start located started
    exact valid.behind other before known begun later member
  · intro other
    refine ⟨fun thread => (by cases thread), fun given => ?_⟩
    obtain ⟨after, located, still⟩ := given
    rcases mark_cases found located with ⟨_, rfl⟩ | ⟨different, before⟩
    · cases still
    · have same := (valid.running other).mpr ⟨after, before, still⟩
      rw [thread] at same
      exact absurd (Option.some.inj same).symm different
  · intro other thread
    cases thread
  · exact valid.stopped

theorem Withdraws.length {gone : Nat → Prop} (withdraws : Withdraws gone executor next) :
    next.items.length = executor.items.length := by
  refine Nat.le_antisymm ?_ ?_
  · by_contra longer
    obtain ⟨item, found, _⟩ :=
      withdraws.before (List.getElem?_eq_getElem (Nat.lt_of_not_le longer))
    exact Nat.lt_irrefl _ (List.getElem?_eq_some_iff.mp found).1
  · by_contra longer
    obtain ⟨item, found, _⟩ :=
      withdraws.after (List.getElem?_eq_getElem (Nat.lt_of_not_le longer))
    exact Nat.lt_irrefl _ (List.getElem?_eq_some_iff.mp found).1

theorem cancel_length (executor : Executor Job Result) (id : Nat) :
    (executor.cancel id).items.length = executor.items.length :=
  (cancel_withdraws executor id).1.length

theorem take_length (valid : executor.Valid) (took : executor.take = some next) :
    next.items.length = executor.items.length := by
  obtain ⟨_, _, _, _, _, _, ⟨_, rfl⟩ | ⟨_, rfl⟩⟩ := take_some valid took
  · exact List.length_set ..
  · rfl

theorem finish_length (valid : executor.Valid) {result : Result}
    (finished : executor.finish result = some next) :
    next.items.length = executor.items.length := by
  obtain ⟨_, _, _, _, _, rfl⟩ := finish_some valid finished
  exact List.length_set ..

/-! ## What ran -/

/-- The items that ran to their end, in the order they were submitted in. -/
def ran (executor : Executor Job Result) : List (Job × Result) :=
  executor.items.filterMap WorkItem.outcome

theorem ran_congr (same : ∀ id : Nat, next.items[id]?.map WorkItem.outcome =
    executor.items[id]?.map WorkItem.outcome) : next.ran = executor.ran := by
  have outcomes : next.items.map WorkItem.outcome = executor.items.map WorkItem.outcome := by
    apply List.ext_getElem?
    intro id
    rw [List.getElem?_map, List.getElem?_map, same]
  have shape : ∀ executor : Executor Job Result,
      executor.ran = (executor.items.map WorkItem.outcome).filterMap fun outcome => outcome := by
    intro executor
    rw [List.filterMap_map]
    rfl
  rw [shape, shape, outcomes]

theorem submit_ran {job : Job} (submitted : executor.submit job = .ok next) :
    next.ran = executor.ran := by
  obtain ⟨_, rfl⟩ := submit_some submitted
  exact (List.filterMap_append ..).trans (List.append_nil _)

theorem Withdraws.ran {gone : Nat → Prop} (withdraws : Withdraws gone executor next) :
    next.ran = executor.ran := by
  refine ran_congr fun id => ?_
  rcases withdraws.each id with same | ⟨_, cancelled⟩
  · rw [same]
  · rw [cancelled, Option.map_map]
    congr 1
    funext item
    obtain ⟨job, progress⟩ := item
    cases progress <;> rfl

theorem take_ran (valid : executor.Valid) (took : executor.take = some next) :
    next.ran = executor.ran := by
  obtain ⟨_, id, queue, item, _, found, ⟨pending, rfl⟩ | ⟨_, rfl⟩⟩ := take_some valid took
  · refine ran_congr fun other => ?_
    change (executor.mark id item .running).items[other]?.map _ = _
    rw [mark_getElem? found]
    split
    · rename_i same
      obtain ⟨job, progress⟩ := item
      cases pending
      rw [same, found]
      rfl
    · rfl
  · rfl

/-- A finished item is the last of those that ran. -/
theorem finish_ran (valid : executor.Valid) {result : Result}
    (finished : executor.finish result = some next) : ∃ id item,
      executor.current = some (id, item) ∧ next.ran = executor.ran ++ [(item.job, result)] := by
  obtain ⟨id, item, thread, found, running, rfl⟩ := finish_some valid finished
  refine ⟨id, item, by simp [current, thread, found], ?_⟩
  have inside := (List.getElem?_eq_some_iff.mp found).1
  have here := (List.getElem?_eq_some_iff.mp found).2
  have later : (executor.items.drop (id + 1)).filterMap WorkItem.outcome = [] := by
    rw [List.filterMap_eq_nil_iff]
    intro other member
    obtain ⟨index, located⟩ := List.mem_iff_getElem?.mp member
    rw [List.getElem?_drop] at located
    obtain ⟨job, progress⟩ := other
    cases progress with
    | finished result =>
        have last := valid.last id thread (id + 1 + index) _ located rfl
        omega
    | pending | cancelled | running => rfl
  have whole : executor.items = executor.items.take id ++ item :: executor.items.drop (id + 1) := by
    rw [← here, List.getElem_cons_drop, List.take_append_drop]
  have none : item.outcome = none := by
    obtain ⟨job, progress⟩ := item
    cases running
    rfl
  have before : executor.ran = (executor.items.take id).filterMap WorkItem.outcome := by
    rw [ran, whole, List.filterMap_append, List.filterMap_cons, none, later, List.append_nil, ← whole]
  change (executor.items.set id ⟨item.job, .finished result⟩).filterMap WorkItem.outcome = _
  rw [List.set_eq_take_append_cons_drop, if_pos inside, List.filterMap_append,
    List.filterMap_cons, later, before]
  rfl

/-- Jobs served one after the other by an owner with a state. -/
def serveAll {State : Type} (serve : Job → State → Result × State) :
    List Job → State → List (Job × Result) × State
  | [], state => ([], state)
  | job :: jobs, state =>
      let (result, after) := serve job state
      let (rest, last) := serveAll serve jobs after
      ((job, result) :: rest, last)

theorem serveAll_concat {State : Type} {serve : Job → State → Result × State} {jobs : List Job}
    {state after : State} {served : List (Job × Result)}
    (all : serveAll serve jobs state = (served, after)) (job : Job) :
    serveAll serve (jobs ++ [job]) state =
      (served ++ [(job, (serve job after).1)], (serve job after).2) := by
  induction jobs generalizing state served with
  | nil =>
      cases all
      rfl
  | cons first rest ih =>
      unfold serveAll at all
      cases all
      rw [List.cons_append, serveAll]
      dsimp only
      rw [ih rfl]
      rfl

theorem serveAll_mem {State : Type} {serve : Job → State → Result × State} {jobs : List Job}
    {state : State} {entry : Job × Result} (member : entry ∈ (serveAll serve jobs state).1) :
    ∃ at', entry.2 = (serve entry.1 at').1 := by
  induction jobs generalizing state with
  | nil => cases member
  | cons job rest ih =>
      unfold serveAll at member
      rcases List.mem_cons.mp member with rfl | later
      · exact ⟨state, rfl⟩
      · exact ih later

theorem mem_ran {id : Nat} {item : WorkItem Job Result} {result : Result}
    (found : executor.items[id]? = some item) (finished : item.progress = .finished result) :
    (item.job, result) ∈ executor.ran := by
  refine List.mem_filterMap.mpr ⟨item, List.mem_of_getElem? found, ?_⟩
  obtain ⟨job, progress⟩ := item
  cases finished
  rfl

/-! ## Later -/

/-- Items stay, with their job, and a settled one as it is; after the shutdown
there are no others and none begins. -/
structure Later (executor next : Executor Job Result) : Prop where
  kept : ∀ (id : Nat) (item : WorkItem Job Result), executor.items[id]? = some item →
    ∃ after, next.items[id]? = some after ∧ after.job = item.job ∧
      (item.progress.settled = true → after = item)
  closed : executor.shutdown = true →
    next.shutdown = true ∧ next.items.length = executor.items.length ∧
      ∀ (id : Nat) (after : WorkItem Job Result), next.items[id]? = some after →
        after.progress.started = true →
          ∃ item, executor.items[id]? = some item ∧ item.progress.started = true

theorem Later.refl (executor : Executor Job Result) : Later executor executor :=
  ⟨fun _ item found => ⟨item, found, rfl, fun _ => rfl⟩,
    fun shut => ⟨shut, rfl, fun _ after found started => ⟨after, found, started⟩⟩⟩

theorem Later.trans {first second third : Executor Job Result} (left : Later first second)
    (right : Later second third) : Later first third := by
  constructor
  · intro id item found
    obtain ⟨middle, located, job, kept⟩ := left.kept id item found
    obtain ⟨last, lastLocated, lastJob, lastKept⟩ := right.kept id middle located
    refine ⟨last, lastLocated, lastJob.trans job, fun settled => ?_⟩
    cases kept settled
    exact lastKept settled
  · intro shut
    obtain ⟨still, length, began⟩ := left.closed shut
    obtain ⟨last, lastLength, lastBegan⟩ := right.closed still
    refine ⟨last, lastLength.trans length, fun id after found started => ?_⟩
    obtain ⟨middle, located, known⟩ := lastBegan id after found started
    exact began id middle located known

theorem submit_later {job : Job} (submitted : executor.submit job = .ok next) :
    Later executor next := by
  obtain ⟨open', rfl⟩ := submit_some submitted
  refine ⟨fun id item found => ⟨item, ?_, rfl, fun _ => rfl⟩, fun shut => ?_⟩
  · exact (List.getElem?_append_left (List.getElem?_eq_some_iff.mp found).1).trans found
  · rw [open'] at shut
    cases shut

theorem Withdraws.later {gone : Nat → Prop} (withdraws : Withdraws gone executor next)
    (stopped : executor.shutdown = true → next.shutdown = true) : Later executor next := by
  constructor
  · intro id item found
    obtain ⟨after, located, job, progress⟩ := withdraws.after found
    refine ⟨after, located, job, fun settled => ?_⟩
    rcases progress with same | ⟨_, pending, _⟩
    · cases after
      cases item
      cases same
      cases job
      rfl
    · rw [pending] at settled
      cases settled
  · intro shut
    refine ⟨stopped shut, withdraws.length, fun id after located started => ?_⟩
    obtain ⟨item, found, _, same | ⟨_, _, cancelled⟩⟩ := withdraws.before located
    · exact ⟨item, found, same ▸ started⟩
    · rw [cancelled] at started
      cases started

theorem take_later (valid : executor.Valid) (took : executor.take = some next) :
    Later executor next := by
  obtain ⟨_, id, queue, item, queued, found, outcome⟩ := take_some valid took
  refine ⟨fun other before located => ?_, fun shut => ?_⟩
  · rcases outcome with ⟨pending, rfl⟩ | ⟨_, rfl⟩
    · have here : (executor.mark id item .running).items[other]? =
          if other = id then some ⟨item.job, .running⟩ else executor.items[other]? :=
        mark_getElem? found _ _
      split at here
      · rename_i same
        subst same
        rw [found] at located
        cases located
        refine ⟨_, here, rfl, fun settled => ?_⟩
        rw [pending] at settled
        cases settled
      · exact ⟨before, here.trans located, rfl, fun _ => rfl⟩
    · exact ⟨before, located, rfl, fun _ => rfl⟩
  · have empty := valid.stopped shut
    rw [queued] at empty
    cases empty

theorem finish_later (valid : executor.Valid) {result : Result}
    (finished : executor.finish result = some next) : Later executor next := by
  obtain ⟨id, item, _, found, running, rfl⟩ := finish_some valid finished
  have here : ∀ other, (executor.mark id item (.finished result)).items[other]? =
      if other = id then some ⟨item.job, .finished result⟩ else executor.items[other]? :=
    mark_getElem? found _
  refine ⟨fun other before located => ?_, fun shut => ⟨shut, List.length_set .., ?_⟩⟩
  · by_cases same : other = id
    · subst same
      rw [found] at located
      cases located
      refine ⟨_, (here other).trans (if_pos rfl), rfl, fun settled => ?_⟩
      rw [running] at settled
      cases settled
    · exact ⟨before, ((here other).trans (if_neg same)).trans located, rfl, fun _ => rfl⟩
  · intro other after located started
    rcases mark_cases found located with ⟨rfl, _⟩ | ⟨_, before⟩
    · exact ⟨item, found, by rw [running]; rfl⟩
    · exact ⟨after, before, started⟩

end Operations

end Executor

end VllmVerifier.Asyncio
