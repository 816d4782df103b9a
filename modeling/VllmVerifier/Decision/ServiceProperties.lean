import VllmVerifier.Decision.Service

/-!
What the steps of the decision service do, as transitions, and the invariant
that makes each of its operations succeed: accounted, held and queued jobs are
together the accepted ones, in their order.
-/

set_option autoImplicit false

namespace VllmVerifier.Decision

open Python Asyncio Machine

variable {α : Type}

/-! ## Futures -/

/-- The job has a future that is set. -/
def Done (jobs : List (Job α)) (id : Nat) : Prop :=
  ∃ job, jobs[id]? = some job ∧ job.future.done = true

/-- The same jobs later: a pending future may have been set to an allowed one. -/
structure Advances (allowed : Nat → Future α → Prop) (jobs later : List (Job α)) : Prop where
  length : later.length = jobs.length
  each : ∀ id job, jobs[id]? = some job → ∃ next, later[id]? = some next ∧
    next.request = job.request ∧
      (next.future = job.future ∨
        job.future.done = false ∧ next.future.done = true ∧ allowed id next.future)

namespace Advances

variable {allowed other : Nat → Future α → Prop} {jobs later last : List (Job α)}

theorem refl (allowed : Nat → Future α → Prop) (jobs : List (Job α)) :
    Advances allowed jobs jobs :=
  ⟨rfl, fun _ job found => ⟨job, found, rfl, .inl rfl⟩⟩

theorem mono (weaker : ∀ id future, allowed id future → other id future)
    (advances : Advances allowed jobs later) : Advances other jobs later := by
  refine ⟨advances.length, fun id job found => ?_⟩
  obtain ⟨next, located, request, future⟩ := advances.each id job found
  exact ⟨next, located, request, future.imp_right fun known =>
    ⟨known.1, known.2.1, weaker _ _ known.2.2⟩⟩

theorem trans (first : Advances allowed jobs later) (second : Advances allowed later last) :
    Advances allowed jobs last := by
  refine ⟨second.length.trans first.length, fun id job found => ?_⟩
  obtain ⟨middle, located, request, future⟩ := first.each id job found
  obtain ⟨next, nextLocated, nextRequest, nextFuture⟩ := second.each id middle located
  refine ⟨next, nextLocated, nextRequest.trans request, ?_⟩
  rcases future with same | ⟨pending, set, known⟩
  · rw [← same]
    exact nextFuture
  · rcases nextFuture with same | ⟨open', _⟩
    · rw [same]
      exact .inr ⟨pending, set, known⟩
    · rw [set] at open'
      cases open'

theorem kept (advances : Advances allowed jobs later) {id : Nat} {job : Job α}
    (found : jobs[id]? = some job) (set : job.future.done = true) : later[id]? = some job := by
  obtain ⟨next, located, request, future⟩ := advances.each id job found
  rcases future with same | ⟨pending, _⟩
  · rw [located]
    cases next
    cases job
    simp_all
  · rw [set] at pending
    cases pending

theorem done (advances : Advances allowed jobs later) {id : Nat} (set : Done jobs id) :
    Done later id := by
  obtain ⟨job, found, known⟩ := set
  exact ⟨job, advances.kept found known, known⟩

theorem set (allowed : Nat → Future α → Prop) {id : Nat} {job : Job α} {future : Future α}
    (found : jobs[id]? = some job)
    (pending : job.future.done = false) (settled : future.done = true) (known : allowed id future) :
    Advances allowed jobs (jobs.set id { job with future }) := by
  refine ⟨List.length_set .., fun position other located => ?_⟩
  rw [List.getElem?_set]
  by_cases same : id = position
  · subst same
    rw [found] at located
    cases located
    have inside := (List.getElem?_eq_some_iff.mp found).1
    exact ⟨{ job with future }, by simp [inside], rfl, .inr ⟨pending, settled, known⟩⟩
  · exact ⟨other, by simp [same, located], rfl, .inl rfl⟩

end Advances

namespace Service

variable {service : Service α}

theorem isDone_iff {id : Nat} : service.isDone id = true ↔ Done service.jobs id := by
  unfold isDone Done
  cases service.jobs[id]? <;> simp

theorem received_done (result : Except ServiceError α) : (received result).done = true := by
  cases result <;> rfl

theorem settleUnlessDone_ok {id : Nat} (inside : id < service.jobs.length) {future : Future α}
    (settled : future.done = true) :
    ∃ jobs, service.settleUnlessDone id future = .ok { service with jobs } ∧
      Advances (fun other set => other = id ∧ set = future) service.jobs jobs ∧ Done jobs id := by
  have found := List.getElem?_eq_getElem inside
  cases set : service.jobs[id].future.done with
  | true =>
      have done : Done service.jobs id := ⟨_, found, set⟩
      exact ⟨service.jobs, if_pos (isDone_iff.mpr done), .refl _ _, done⟩
  | false =>
      have pending : ¬ service.isDone id = true := by
        simp [isDone, found, set]
      have advances := Advances.set (fun other set => other = id ∧ set = future) found set
        settled ⟨rfl, rfl⟩
      refine ⟨_, ?_, advances, ⟨{ service.jobs[id] with future }, ?_, settled⟩⟩
      · rw [settleUnlessDone, if_neg pending, settle]
        simp [at?, found, except_ok_bind, set]
      · simp [inside]

theorem stop_ok {id : Nat} (inside : id < service.jobs.length) (counted : 0 < service.unfinished) :
    ∃ jobs, service.stop id = .ok { service with
        jobs
        unfinished := service.unfinished - 1
        accounted := service.accounted ++ [id] } ∧
      Advances (fun _ set => set = .exception engineStopped) service.jobs jobs ∧ Done jobs id := by
  obtain ⟨jobs, settled, advances, done⟩ :=
    settleUnlessDone_ok inside
      (show (Future.exception engineStopped : Future α).done = true from rfl)
  refine ⟨jobs, ?_, advances.mono fun _ _ known => known.2, done⟩
  unfold stop
  rw [settled, except_ok_bind, taskDone, if_neg (Nat.pos_iff_ne_zero.mp counted)]

theorem stopAll_ok {ids : List Nat} (inside : ∀ id ∈ ids, id < service.jobs.length)
    (counted : ids.length ≤ service.unfinished) :
    ∃ jobs, ids.foldlM stop service = .ok { service with
        jobs
        unfinished := service.unfinished - ids.length
        accounted := service.accounted ++ ids } ∧
      Advances (fun _ set => set = .exception engineStopped) service.jobs jobs ∧
        ∀ id ∈ ids, Done jobs id := by
  induction ids generalizing service with
  | nil => exact ⟨service.jobs, by simp [pure, Except.pure], .refl _ _, by simp⟩
  | cons id rest ih =>
      rw [List.length_cons] at counted
      obtain ⟨jobs, stopped, advances, done⟩ :=
        stop_ok (inside id List.mem_cons_self) (Nat.lt_of_lt_of_le (Nat.succ_pos _) counted)
      obtain ⟨last, others, later, set⟩ := @ih { service with
          jobs
          unfinished := service.unfinished - 1
          accounted := service.accounted ++ [id] }
        (fun other member => advances.length ▸ inside other (List.mem_cons_of_mem _ member))
        (by dsimp only; omega)
      refine ⟨last, ?_, advances.trans later, ?_⟩
      · rw [List.foldlM_cons, stopped, except_ok_bind, others]
        simp [Nat.sub_sub, Nat.add_comm]
      · intro other member
        rcases List.mem_cons.mp member with rfl | member
        · exact later.done done
        · exact set other member

theorem resolveAll_ok {items : List (Nat × Except ServiceError α)}
    (inside : ∀ item ∈ items, item.1 < service.jobs.length) :
    ∃ jobs, items.foldlM resolve service = .ok { service with jobs } ∧
      Advances (fun id set => ∃ item ∈ items, id = item.1 ∧ set = received item.2)
        service.jobs jobs ∧ ∀ item ∈ items, Done jobs item.1 := by
  induction items generalizing service with
  | nil => exact ⟨service.jobs, rfl, .refl _ _, by simp⟩
  | cons item rest ih =>
      obtain ⟨jobs, settled, advances, done⟩ :=
        settleUnlessDone_ok (inside item List.mem_cons_self) (received_done item.2)
      obtain ⟨last, others, later, set⟩ := @ih { service with jobs } fun other member =>
        advances.length ▸ inside other (List.mem_cons_of_mem _ member)
      refine ⟨last, ?_, ?_, ?_⟩
      · rw [List.foldlM_cons, resolve, settled, except_ok_bind, others]
      · refine (advances.mono ?_).trans (later.mono ?_)
        · exact fun _ _ known => ⟨item, List.mem_cons_self, known⟩
        · intro _ _ known
          obtain ⟨found, member, known⟩ := known
          exact ⟨found, List.mem_cons_of_mem _ member, known⟩
      · intro other member
        rcases List.mem_cons.mp member with rfl | member
        · exact later.done done
        · exact set other member

theorem account_ok {jobs : List Nat} (counted : jobs.length ≤ service.unfinished) :
    service.account jobs = .ok { service with
      unfinished := service.unfinished - jobs.length
      accounted := service.accounted ++ jobs
      worker := .looping } := by
  have folded : jobs.foldlM taskDone service = .ok { service with
      unfinished := service.unfinished - jobs.length
      accounted := service.accounted ++ jobs } := by
    induction jobs generalizing service with
    | nil => simp [pure, Except.pure]
    | cons id rest ih =>
        rw [List.length_cons] at counted
        rw [List.foldlM_cons, taskDone, if_neg (by omega), except_ok_bind,
          ih (by dsimp only; omega)]
        simp [Nat.sub_sub, Nat.add_comm]
  rw [account, folded, except_ok_bind]

theorem collect_ok {settings : ServiceSettings} {jobs queue held left : List Nat}
    (collected : collect settings jobs queue = (held, left))
    (few : jobs.length ≤ settings.decisionBatchRequests) :
    jobs ++ queue = held ++ left ∧ jobs.length ≤ held.length ∧
      held.length ≤ settings.decisionBatchRequests := by
  induction queue generalizing jobs with
  | nil =>
      cases collected
      exact ⟨rfl, Nat.le_refl _, few⟩
  | cons id rest ih =>
      unfold collect at collected
      split at collected
      · obtain ⟨same, longer, bounded⟩ := ih collected (by simpa)
        simp only [List.append_assoc, List.singleton_append, List.length_append,
          List.length_singleton] at same longer
        exact ⟨same, by omega, bounded⟩
      · cases collected
        exact ⟨rfl, Nat.le_refl _, few⟩

/-! ## The invariant -/

/-- Accounted, held and queued jobs are the accepted ones, in order; every
accounted future is set, and what the worker and `close` rely on holds. -/
structure Valid (settings : ServiceSettings) (service : Service α) : Prop where
  order : service.accounted ++ service.worker.jobs ++ service.queue =
    List.range service.jobs.length
  counted : service.unfinished = service.worker.jobs.length + service.queue.length
  resolved : ∀ id ∈ service.accounted, Done service.jobs id
  loaded : service.worker.alive = true → service.runtime = true
  opened : service.closed = true ↔ service.closing ≠ .opened
  cancelled : service.cancelling = true → service.closed = true
  drained : service.closing = .shutdown ∨ service.closing = .complete →
    service.queue = [] ∧ service.worker.alive = false
  few : service.worker.jobs.length ≤ settings.decisionBatchRequests
  submitted : ∀ jobs live, service.worker = .running jobs live → live.Sublist jobs ∧
    ∀ id ∈ jobs, id ∈ live ∨ Done service.jobs id
  dropped : ∀ call ∈ service.calls, call.outcome = some .dropped → service.cancelling = true
  sound : (∀ error, service.worker ≠ .failed error) ∧ ∀ error, service.closing ≠ .failed error

namespace Valid

variable {settings : ServiceSettings}

theorem inside (valid : Valid settings service) {id : Nat}
    (member : id ∈ service.worker.jobs ++ service.queue) : id < service.jobs.length := by
  rw [← List.mem_range, ← valid.order, List.append_assoc]
  exact List.mem_append_right _ member

theorem undrained (valid : Valid settings service) (alive : service.worker.alive = true) :
    ¬ (service.closing = .shutdown ∨ service.closing = .complete) := by
  intro phase
  have dead := (valid.drained phase).2
  rw [alive] at dead
  cases dead

theorem initial : Valid settings (initial : Service α) := by
  refine ⟨rfl, rfl, ?_, ?_, ?_, ?_, ?_, Nat.zero_le _, ?_, ?_, ?_, ?_⟩ <;>
    simp [Service.initial, Worker.alive]

end Valid

/-! ## Transitions -/

def requestsOf (service : Service α) (live : List Nat) (requests : List SystemOneRequest) : Prop :=
  List.Forall₂ (fun id request => ∃ job, service.jobs[id]? = some job ∧ job.request = request)
    live requests

/-- The worker's await is cancelled by the answer to its call. -/
def Unseated (service : Service α) : Prop :=
  (∃ jobs live, service.worker = .running jobs live) ∧ ∃ outcome,
    service.calls.getLast?.bind Call.outcome = some outcome ∧ outcome ≠ .dropped ∧
      outcome.arrives = false ∧ outcome.lost = false

/-- Everything one step can do. -/
inductive Transition (settings : ServiceSettings) (service : Service α) : Service α → Prop where
  | unchanged : Transition settings service service
  | started : service.worker = .absent → service.closed = false →
      Transition settings service { service with runtime := true, worker := .scheduled }
  | enqueued (request : SystemOneRequest) : service.ready = true →
      service.queue.length < settings.maxRequests →
      Transition settings service { service with
        jobs := service.jobs ++ [⟨request, .pending⟩]
        queue := service.queue ++ [service.jobs.length]
        unfinished := service.unfinished + 1 }
  | cancelled (id : Nat) (job : Job α) : service.jobs[id]? = some job → job.future.done = false →
      Transition settings service
        { service with jobs := service.jobs.set id { job with future := .cancelled } }
  | moved (worker : Worker) : service.worker.alive = true → service.worker.jobs = [] →
      worker.alive = true → worker.jobs = [] → (∀ jobs live, worker ≠ .running jobs live) →
      (∀ jobs live, service.worker ≠ .running jobs live) →
      Transition settings service { service with worker }
  | abandoned : service.worker = .scheduled → service.cancelling = true →
      Transition settings service { service with worker := .finished }
  | took (first : Nat) (rest : List Nat) : service.worker.alive = true →
      service.worker.jobs = [] → (∀ jobs live, service.worker ≠ .running jobs live) →
      service.queue = first :: rest →
      Transition settings service { service with queue := rest, worker := .sleeping [first] }
  | submitted (jobs queue : List Nat) (requests : List SystemOneRequest) :
      service.worker.alive = true → (∀ jobs live, service.worker ≠ .running jobs live) →
      service.worker.jobs ++ service.queue = jobs ++ queue →
      jobs.length ≤ settings.decisionBatchRequests →
      jobs.filter (fun id => !service.isDone id) ≠ [] →
      service.requestsOf (jobs.filter fun id => !service.isDone id) requests →
      Transition settings service { service with
        queue
        worker := .running jobs (jobs.filter fun id => !service.isDone id)
        calls := service.calls ++ [⟨jobs.filter fun id => !service.isDone id, requests, none⟩] }
  | skipped (jobs queue : List Nat) : service.worker.alive = true →
      (∀ jobs live, service.worker ≠ .running jobs live) →
      service.worker.jobs ++ service.queue = jobs ++ queue → (∀ id ∈ jobs, Done service.jobs id) →
      Transition settings service { service with
        queue
        unfinished := service.unfinished - jobs.length
        accounted := service.accounted ++ jobs
        worker := .looping }
  | resumed (jobs live : List Nat) (outcome : CallOutcome α) (later : List (Job α)) :
      service.worker = .running jobs live →
      service.calls.getLast?.bind Call.outcome = some outcome → outcome.arrives = true →
      Advances (fun id set => ∃ item ∈ live.zip (results live outcome), id = item.1 ∧
        set = received item.2) service.jobs later →
      (∀ id ∈ jobs, Done later id) →
      Transition settings service { service with
        jobs := later
        unfinished := service.unfinished - jobs.length
        accounted := service.accounted ++ jobs
        worker := .looping }
  | stopped (later : List (Job α)) : service.worker.alive = true →
      service.cancelling = true ∨ service.Unseated →
      Advances (fun _ set => set = .exception engineStopped) service.jobs later →
      (∀ id ∈ service.worker.jobs ++ service.queue, Done later id) →
      Transition settings service { service with
        jobs := later
        queue := []
        unfinished := service.unfinished - (service.worker.jobs ++ service.queue).length
        accounted := service.accounted ++ (service.worker.jobs ++ service.queue)
        worker := .finished }
  | ended (earlier : List (Call α)) (call : Call α) (outcome : CallOutcome α) :
      service.calls = earlier ++ [call] → call.outcome = none →
      (outcome = .dropped → service.cancelling = true) →
      Transition settings service { service with
        calls := earlier ++ [{ call with outcome := some outcome }] }
  | closing : service.closed = false → service.worker ≠ .absent →
      Transition settings service
        { service with closed := true, cancelling := true, closing := .stopping }
  | drained (later : List (Job α)) :
      service.closed = false ∧ service.worker = .absent ∨ service.closing = .stopping →
      service.worker.alive = false →
      Advances (fun _ set => set = .exception engineStopped) service.jobs later →
      (∀ id ∈ service.queue, Done later id) →
      Transition settings service { service with
        closed := true
        jobs := later
        queue := []
        unfinished := service.unfinished - service.queue.length
        accounted := service.accounted ++ service.queue
        closing := .shutdown }
  | completed : service.closing = .shutdown →
      (∀ call, service.calls.getLast? = some call → call.outcome ≠ none) →
      Transition settings service { service with runtime := false, closing := .complete }

section Steps

variable {settings : ServiceSettings} {next : Service α}

theorem requests_total {live : List Nat} (inside : ∀ id ∈ live, id < service.jobs.length) :
    ∃ requests, live.mapM (fun id => do
        let job ← at? service.jobs id
        pure job.request : Nat → Except PyException SystemOneRequest) = .ok requests ∧
      service.requestsOf live requests := by
  have each : ∀ id ∈ live, ∃ request, (do
      let job ← at? service.jobs id
      pure job.request : Except PyException SystemOneRequest) = .ok request ∧
        ∃ job, service.jobs[id]? = some job ∧ job.request = request := by
    intro id member
    have found := List.getElem?_eq_getElem (inside id member)
    exact ⟨_, by rw [at?, found, except_ok_bind]; rfl, _, found, rfl⟩
  obtain ⟨requests, related⟩ := exists_forall₂ each
  exact ⟨requests, mapM_ok_iff.mpr (related.imp fun _ _ known => known.1),
    related.imp fun _ _ known => known.2⟩

/-- A dispatch accounts for dead jobs or submits the live ones. -/
theorem dispatch_ok {first : List Nat} (loaded : service.runtime = true)
    (few : first.length ≤ settings.decisionBatchRequests)
    (inside : ∀ id ∈ first ++ service.queue, id < service.jobs.length)
    (counted : service.unfinished = first.length + service.queue.length) :
    ∃ jobs queue, first ++ service.queue = jobs ++ queue ∧
      jobs.length ≤ settings.decisionBatchRequests ∧
      ((∀ id ∈ jobs, Done service.jobs id) ∧
        service.dispatch settings first = .ok { service with
          queue
          unfinished := service.unfinished - jobs.length
          accounted := service.accounted ++ jobs
          worker := .looping } ∨
      ∃ requests, jobs.filter (fun id => !service.isDone id) ≠ [] ∧
        service.requestsOf (jobs.filter fun id => !service.isDone id) requests ∧
        service.dispatch settings first = .ok { service with
          queue
          worker := .running jobs (jobs.filter fun id => !service.isDone id)
          calls := service.calls ++
            [⟨jobs.filter fun id => !service.isDone id, requests, none⟩] }) := by
  cases collected : collect settings first service.queue with
  | mk jobs queue =>
      obtain ⟨same, longer, bounded⟩ := collect_ok collected few
      refine ⟨jobs, queue, same, bounded, ?_⟩
      have sizes := congrArg List.length same
      simp only [List.length_append] at sizes
      unfold dispatch
      rw [collected]
      dsimp only
      change (_ ∧ (if (jobs.filter fun id => !service.isDone id).isEmpty then _ else _) = _) ∨ _
      by_cases empty : (jobs.filter fun id => !service.isDone id) = []
      · left
        refine ⟨fun id member => ?_, ?_⟩
        · have dead := List.filter_eq_nil_iff.mp empty id member
          apply isDone_iff.mp
          simpa using dead
        · rw [if_pos (List.isEmpty_iff.mpr empty)]
          exact @account_ok α { service with queue } jobs (by dsimp only; omega)
      · right
        have live : ∀ id ∈ jobs.filter (fun id => !service.isDone id), id < service.jobs.length := by
          intro id member
          apply inside
          rw [same]
          exact List.mem_append_left _ (List.mem_of_mem_filter member)
        obtain ⟨requests, mapped, related⟩ := requests_total live
        refine ⟨requests, empty, related, ?_⟩
        change (if (jobs.filter fun id => !service.isDone id).isEmpty then _ else _) = _
        rw [if_neg (fun shape => empty (List.isEmpty_iff.mp shape)), if_pos loaded]
        exact congrArg (fun computation => computation >>= _) mapped

theorem finish_ok {jobs : List Nat} (inside : ∀ id ∈ jobs ++ service.queue, id < service.jobs.length)
    (counted : service.unfinished = jobs.length + service.queue.length) :
    ∃ later, service.finish jobs = .ok { service with
        jobs := later
        queue := []
        unfinished := service.unfinished - (jobs ++ service.queue).length
        accounted := service.accounted ++ (jobs ++ service.queue)
        worker := .finished } ∧
      Advances (fun _ set => set = .exception engineStopped) service.jobs later ∧
        ∀ id ∈ jobs ++ service.queue, Done later id := by
  obtain ⟨later, stopped, advances, done⟩ := @stopAll_ok α { service with queue := [] }
    (jobs ++ service.queue) inside (by rw [List.length_append]; exact Nat.le_of_eq counted.symm)
  refine ⟨later, ?_, advances, done⟩
  rw [finish, stopped, except_ok_bind]

theorem results_length (live : List Nat) {outcome : CallOutcome α}
    (arrives : outcome.arrives = true) : (results live outcome).length = live.length := by
  cases outcome with
  | returned values =>
      simp only [results]
      split
      · assumption
      · exact List.length_map ..
  | raised error =>
      rw [results, if_pos (of_decide_eq_true arrives)]
      exact List.length_map ..
  | dropped => cases arrives

theorem resume_ok {jobs live : List Nat} {outcome : CallOutcome α}
    (arrives : outcome.arrives = true) (held : live.Sublist jobs)
    (dead : ∀ id ∈ jobs, id ∈ live ∨ Done service.jobs id)
    (inside : ∀ id ∈ jobs, id < service.jobs.length)
    (counted : jobs.length ≤ service.unfinished) :
    ∃ later, service.resume jobs live outcome = .ok { service with
        jobs := later
        unfinished := service.unfinished - jobs.length
        accounted := service.accounted ++ jobs
        worker := .looping } ∧
      Advances (fun id set => ∃ item ∈ live.zip (results live outcome), id = item.1 ∧
        set = received item.2) service.jobs later ∧
      ∀ id ∈ jobs, Done later id := by
  obtain ⟨later, resolved, advances, done⟩ := @resolveAll_ok α service
    (live.zip (results live outcome)) fun item member =>
      inside item.1 (held.subset (List.of_mem_zip member).1)
  refine ⟨later, ?_, advances, fun id member => ?_⟩
  · have accounted := @account_ok α { service with jobs := later } jobs counted
    rw [resume, if_pos arrives, resolved]
    exact accounted
  · rcases dead id member with present | known
    · have column : (live.zip (results live outcome)).map Prod.fst = live :=
        List.map_fst_zip (Nat.le_of_eq (results_length live arrives).symm)
      rw [← column] at present
      obtain ⟨item, located, rfl⟩ := List.mem_map.mp present
      exact done item located
    · exact advances.done known

theorem drain_ok (inside : ∀ id ∈ service.queue, id < service.jobs.length)
    (counted : service.queue.length ≤ service.unfinished) :
    ∃ later, service.drain = { service with
        jobs := later
        queue := []
        unfinished := service.unfinished - service.queue.length
        accounted := service.accounted ++ service.queue
        closing := .shutdown } ∧
      Advances (fun _ set => set = .exception engineStopped) service.jobs later ∧
        ∀ id ∈ service.queue, Done later id := by
  obtain ⟨later, stopped, advances, done⟩ :=
    @stopAll_ok α { service with queue := [] } service.queue inside counted
  exact ⟨later, by rw [drain, stopped], advances, done⟩

theorem got_transition {first : Nat} {rest : List Nat} (valid : Valid settings service)
    (alive : service.worker.alive = true) (none : service.worker.jobs = [])
    (free : ∀ jobs live, service.worker ≠ .running jobs live)
    (queued : service.queue = first :: rest) :
    Transition settings service (service.orFail (service.got settings first rest)) := by
  unfold got
  dsimp only
  split
  · exact .took first rest alive none free queued
  · have counted := valid.counted
    rw [none, queued] at counted
    obtain ⟨jobs, queue, same, bounded, outcome⟩ := @dispatch_ok α
      { service with queue := rest } settings [first] (valid.loaded alive)
      (by simpa using settings.batchRequestsRange.1)
      (fun id member => valid.inside (by rw [none, queued]; exact member))
      (by simpa [Nat.add_comm] using counted)
    have split : service.worker.jobs ++ service.queue = jobs ++ queue := by
      rw [none, queued]
      exact same
    rcases outcome with ⟨dead, skipped⟩ | ⟨requests, live, related, submitted⟩
    · rw [skipped]
      exact .skipped jobs queue alive free split dead
    · rw [submitted]
      exact .submitted jobs queue requests alive free split bounded live related

theorem finish_transition (valid : Valid settings service) {jobs : List Nat}
    (held : service.worker.jobs = jobs) (alive : service.worker.alive = true)
    (due : service.cancelling = true ∨ service.Unseated) :
    Transition settings service (service.orFail (service.finish jobs)) := by
  subst held
  obtain ⟨later, finished, advances, done⟩ :=
    finish_ok (fun id member => valid.inside member) valid.counted
  rw [finished]
  exact .stopped later alive due advances done

theorem Valid.resume_ok (valid : Valid settings service) {jobs live : List Nat}
    (worker : service.worker = .running jobs live) {outcome : CallOutcome α}
    (arrives : outcome.arrives = true) : ∃ later, service.resume jobs live outcome = .ok { service with
        jobs := later
        unfinished := service.unfinished - jobs.length
        accounted := service.accounted ++ jobs
        worker := .looping } ∧
      Advances (fun id set => ∃ item ∈ live.zip (results live outcome), id = item.1 ∧
        set = received item.2) service.jobs later ∧
      ∀ id ∈ jobs, Done later id := by
  obtain ⟨held, dead⟩ := valid.submitted jobs live worker
  have counted := valid.counted
  have inside : ∀ id ∈ jobs, id < service.jobs.length := by
    intro id member
    refine valid.inside (List.mem_append_left _ ?_)
    rw [worker]
    exact member
  rw [worker] at counted
  exact Service.resume_ok arrives held dead inside (by
    dsimp only [Worker.jobs] at counted
    omega)

theorem work_transition (valid : Valid settings service)
    (stepped : service.work settings = some next) : Transition settings service next := by
  unfold work at stepped
  cases worker : service.worker with
  | absent | finished | failed => simp [worker] at stepped
  | scheduled =>
      simp only [worker, Option.some.injEq] at stepped
      subst stepped
      split
      · exact .abandoned worker (by assumption)
      · apply Transition.moved <;> simp [worker, Worker.alive, Worker.jobs]
  | looping =>
      simp only [worker] at stepped
      split at stepped
      · cases stepped
        apply Transition.moved <;> simp [worker, Worker.alive, Worker.jobs]
      · cases stepped
        exact got_transition valid (by simp [worker, Worker.alive])
          (by simp [worker, Worker.jobs]) (by simp [worker]) (by assumption)
  | getting =>
      simp only [worker] at stepped
      split at stepped
      · cases stepped
        exact finish_transition valid (by simp [worker, Worker.jobs])
          (by simp [worker, Worker.alive]) (.inl (by assumption))
      · split at stepped
        · cases stepped
        · cases stepped
          exact got_transition valid (by simp [worker, Worker.alive])
            (by simp [worker, Worker.jobs]) (by simp [worker]) (by assumption)
  | sleeping jobs =>
      have held : service.worker.jobs = jobs := by simp [worker, Worker.jobs]
      have alive : service.worker.alive = true := by simp [worker, Worker.alive]
      simp only [worker] at stepped
      split at stepped
      · cases stepped
        exact finish_transition valid held alive (.inl (by assumption))
      · cases stepped
        obtain ⟨jobs', queue, same, bounded, outcome⟩ := dispatch_ok (valid.loaded alive)
          (held ▸ valid.few) (fun id member => valid.inside (held ▸ member))
          (held ▸ valid.counted)
        have free : ∀ held live, service.worker ≠ .running held live := by simp [worker]
        rw [← held] at same
        rcases outcome with ⟨dead, skipped⟩ | ⟨requests, live, related, submitted⟩
        · rw [skipped]
          exact .skipped jobs' queue alive free same dead
        · rw [submitted]
          exact .submitted jobs' queue requests alive free same bounded live related
  | running jobs live =>
      have held : service.worker.jobs = jobs := by simp [worker, Worker.jobs]
      have alive : service.worker.alive = true := by simp [worker, Worker.alive]
      simp only [worker] at stepped
      split at stepped
      · cases stepped
        exact finish_transition valid held alive (.inl (by assumption))
      · rename_i kept
        cases ended : service.calls.getLast?.bind Call.outcome with
        | none =>
            rw [ended] at stepped
            cases stepped
        | some outcome =>
            simp only [ended] at stepped
            split at stepped
            · cases stepped
            · rename_i reaches
              cases stepped
              cases arrives : outcome.arrives with
              | true =>
                  obtain ⟨later, resumed, advances, done⟩ := valid.resume_ok worker arrives
                  rw [resumed]
                  exact .resumed jobs live outcome later worker ended arrives advances done
              | false =>
                  obtain ⟨call, last, known⟩ := Option.bind_eq_some_iff.mp ended
                  have ran : outcome ≠ .dropped := by
                    intro same
                    rw [same] at known
                    exact kept (valid.dropped call (List.mem_of_getLast? last) known)
                  rw [resume, if_neg (by simp [arrives])]
                  exact finish_transition valid held alive (.inr
                    ⟨⟨jobs, live, worker⟩, outcome, ended, ran, arrives, by simpa using reaches⟩)

theorem endCall_transition {outcome : CallOutcome α}
    (stepped : service.endCall outcome = some next) : Transition settings service next := by
  unfold endCall at stepped
  cases last : service.calls.getLast? with
  | none => simp [last] at stepped
  | some call =>
      rw [last] at stepped
      have shape := List.dropLast_append_getLast? call last
      cases ended : call.outcome with
      | some known => simp [ended] at stepped
      | none =>
          cases outcome with
          | dropped =>
              simp only [ended] at stepped
              split at stepped
              · cases stepped
                exact .ended _ call .dropped shape.symm ended fun _ => by assumption
              · cases stepped
          | returned values =>
              simp only [ended] at stepped
              cases stepped
              exact .ended _ call _ shape.symm ended fun same => by cases same
          | raised error =>
              simp only [ended] at stepped
              cases stepped
              exact .ended _ call _ shape.symm ended fun same => by cases same

theorem drain_transition (valid : Valid settings service)
    (due : service.closed = false ∧ service.worker = .absent ∨ service.closing = .stopping)
    (dead : service.worker.alive = false) :
    Transition settings service { service with closed := true }.drain := by
  obtain ⟨later, drained, advances, done⟩ := @drain_ok α { service with closed := true }
    (fun id member => valid.inside (List.mem_append_right _ member))
    (by
      have counted := valid.counted
      dsimp only
      omega)
  rw [drained]
  exact .drained later due dead advances done

theorem outside_some {step : Option (Service α)} (stepped : service.outside step = some next) :
    service.worker ≠ .looping ∧ step = some next := by
  unfold outside at stepped
  split at stepped
  · cases stepped
  · exact ⟨by assumption, stepped⟩

theorem step_transition (valid : Valid settings service) {event : Event α}
    (stepped : step settings service event = some next) : Transition settings service next := by
  cases event with
  | work => exact work_transition valid stepped
  | endCall outcome => exact endCall_transition stepped
  | start =>
      obtain ⟨_, started⟩ := outside_some stepped
      unfold start at started
      split at started
      · rename_i due
        cases started
        exact .started due.1 due.2
      · cases started
  | evaluate request =>
      obtain ⟨_, evaluated⟩ := outside_some stepped
      unfold evaluate at evaluated
      split at evaluated
      · rename_i accepted
        cases evaluated
        split at accepted
        · cases accepted
        split at accepted
        · cases accepted
        split at accepted
        · cases accepted
        rename_i prepared room
        cases accepted
        exact .enqueued request (by simpa using prepared) (Nat.lt_of_not_le room)
      · cases evaluated
        exact .unchanged
  | cancelCaller id =>
      obtain ⟨_, cancelled⟩ := outside_some stepped
      unfold cancelCaller at cancelled
      cases found : service.jobs[id]? with
      | none => simp [found] at cancelled
      | some job =>
          cases set : job.future.done with
          | true =>
              simp only [found, set, if_true] at cancelled
              cases cancelled
              exact .unchanged
          | false =>
              simp only [found, set] at cancelled
              cases cancelled
              exact .cancelled id job found set
  | close =>
      obtain ⟨_, closed⟩ := outside_some stepped
      cases closed
      unfold close
      split
      · exact .unchanged
      · rename_i opened
        have opened : service.closed = false := by simpa using opened
        dsimp only
        split
        · rename_i absent
          exact drain_transition valid (.inl ⟨opened, absent⟩) (by
            change service.worker = .absent at absent
            rw [absent]
            rfl)
        · exact .closing opened (by assumption)
  | resumeClose =>
      obtain ⟨_, resumed⟩ := outside_some stepped
      unfold resumeClose at resumed
      cases phase : service.closing with
      | opened | complete | failed => simp [phase] at resumed
      | stopping =>
          simp only [phase] at resumed
          split at resumed
          · cases resumed
          · rename_i dead
            cases resumed
            have closed : service.closed = true := valid.opened.mpr (by simp [phase])
            have same : { service with closed := true } = service := by
              cases service
              simp_all
            have transition := drain_transition valid (.inr phase) (by simpa using dead)
            rwa [same] at transition
      | shutdown =>
          simp only [phase] at resumed
          split at resumed
          · cases resumed
          · rename_i idle
            cases resumed
            refine .completed phase fun call last ended => ?_
            obtain ⟨batch, requests, outcome⟩ := call
            cases ended
            exact idle batch requests last

end Steps

/-! ## The invariant is kept -/

section Kept

variable {settings : ServiceSettings} {next : Service α}

private theorem range_succ (count : Nat) : List.range (count + 1) = List.range count ++ [count] :=
  List.range_succ

/-- Advancing futures keeps what the invariant says of the ones that are set. -/
theorem Valid.advance (valid : Valid settings service) {allowed : Nat → Future α → Prop}
    {later : List (Job α)} (advances : Advances allowed service.jobs later) :
    Valid settings { service with jobs := later } :=
  { valid with
    order := by
      change _ = List.range later.length
      rw [advances.length]
      exact valid.order
    resolved := fun id member => advances.done (valid.resolved id member)
    submitted := fun jobs live worker =>
      ⟨(valid.submitted jobs live worker).1, fun id member =>
        ((valid.submitted jobs live worker).2 id member).imp_right advances.done⟩ }

/-- Set jobs that leave the worker and the queue are accounted for, in order. -/
theorem Valid.account (valid : Valid settings service) (worker : Worker) (idle : worker.jobs = [])
    {jobs queue : List Nat} (same : service.worker.jobs ++ service.queue = jobs ++ queue)
    (done : ∀ id ∈ jobs, Done service.jobs id) :
    service.accounted ++ jobs ++ worker.jobs ++ queue = List.range service.jobs.length ∧
      service.unfinished - jobs.length = worker.jobs.length + queue.length ∧
        ∀ id ∈ service.accounted ++ jobs, Done service.jobs id := by
  have order := valid.order
  have counted := valid.counted
  rw [List.append_assoc, same, ← List.append_assoc] at order
  rw [← List.length_append, same, List.length_append] at counted
  refine ⟨?_, ?_, fun id member => (List.mem_append.mp member).elim (valid.resolved id) (done id)⟩
  · rw [idle, List.append_nil]
    exact order
  · rw [idle, List.length_nil, counted, Nat.zero_add, Nat.add_sub_cancel_left]

/-- Every transition keeps the invariant. -/
theorem Transition.valid (transition : Transition settings service next)
    (valid : Valid settings service) : Valid settings next := by
  cases transition with
  | unchanged => exact valid
  | started absent closed =>
      have order := valid.order
      have counted := valid.counted
      rw [absent] at order counted
      exact { valid with
        order, counted
        loaded := fun _ => rfl
        drained := fun phase => by
          have opened := valid.opened.mpr (by
            rcases phase with same | same <;>
              · dsimp only at same
                simp [same])
          rw [closed] at opened
          cases opened
        few := Nat.zero_le _
        submitted := fun _ _ running => by cases running
        sound := ⟨fun _ failed => (by cases failed), valid.sound.2⟩ }
  | enqueued request prepared room =>
      have open' : service.closed = false := by
        simp only [ready, Bool.and_eq_true, Bool.not_eq_true'] at prepared
        exact prepared.1.2
      have alive : service.worker.alive = true := by
        simp only [ready, Bool.and_eq_true] at prepared
        exact prepared.2
      have longer : ∀ id, Done service.jobs id →
          Done (service.jobs ++ [⟨request, .pending⟩]) id := by
        intro id done
        obtain ⟨job, found, set⟩ := done
        have inside := (List.getElem?_eq_some_iff.mp found).1
        exact ⟨job, by rw [List.getElem?_append_left inside, found], set⟩
      exact { valid with
        order := by
          dsimp only
          rw [← List.append_assoc, valid.order, List.length_append, List.length_singleton,
            range_succ]
        counted := by
          dsimp only
          rw [valid.counted, List.length_append, List.length_singleton, Nat.add_assoc]
        resolved := fun id member => longer id (valid.resolved id member)
        drained := fun phase => absurd phase (valid.undrained alive)
        submitted := fun jobs live worker =>
          ⟨(valid.submitted jobs live worker).1, fun id member =>
            ((valid.submitted jobs live worker).2 id member).imp_right (longer id)⟩ }
  | cancelled id job found pending =>
      exact valid.advance (Advances.set (fun _ _ => True) found pending rfl trivial)
  | moved worker alive none later laterNone free _ =>
      have order := valid.order
      have counted := valid.counted
      rw [none] at order counted
      exact { valid with
        order := by rw [laterNone]; exact order
        counted := by rw [laterNone]; exact counted
        loaded := fun _ => valid.loaded alive
        drained := fun phase => absurd phase (valid.undrained alive)
        few := by rw [laterNone]; exact Nat.zero_le _
        submitted := fun jobs live running => absurd running (free jobs live)
        sound := ⟨fun error failed => (by
          dsimp only at failed
          rw [failed] at later
          cases later), valid.sound.2⟩ }
  | abandoned scheduled cancelling =>
      have order := valid.order
      have counted := valid.counted
      rw [scheduled] at order counted
      exact { valid with
        order, counted
        loaded := fun alive => by cases alive
        drained := fun phase => ⟨(valid.drained phase).1, rfl⟩
        few := Nat.zero_le _
        submitted := fun _ _ running => by cases running
        sound := ⟨fun _ failed => (by cases failed), valid.sound.2⟩ }
  | took first rest alive none _ queued =>
      have order := valid.order
      have counted := valid.counted
      rw [none, queued] at order counted
      exact { valid with
        order := by simpa [Worker.jobs] using order
        counted := by simpa [Worker.jobs, Nat.add_comm] using counted
        loaded := fun _ => valid.loaded alive
        drained := fun phase => absurd phase (valid.undrained alive)
        few := settings.batchRequestsRange.1
        submitted := fun _ _ running => by cases running
        sound := ⟨fun _ failed => (by cases failed), valid.sound.2⟩ }
  | submitted jobs queue requests alive _ same bounded _ _ =>
      have order := valid.order
      have counted := valid.counted
      rw [List.append_assoc, same] at order
      rw [← List.length_append, same, List.length_append] at counted
      exact { valid with
        order := by rw [List.append_assoc]; exact order
        counted
        loaded := fun _ => valid.loaded alive
        drained := fun phase => absurd phase (valid.undrained alive)
        few := bounded
        submitted := fun held live running => by
          cases running
          refine ⟨List.filter_sublist, fun id member => ?_⟩
          cases set : service.isDone id with
          | true => exact .inr (isDone_iff.mp set)
          | false => exact .inl (List.mem_filter.mpr ⟨member, by simp [set]⟩)
        dropped := fun call member known => by
          rcases List.mem_append.mp member with earlier | last
          · exact valid.dropped call earlier known
          · cases List.mem_singleton.mp last
            cases known
        sound := ⟨fun _ failed => (by cases failed), valid.sound.2⟩ }
  | skipped jobs queue alive _ same dead =>
      obtain ⟨order, counted, resolved⟩ := valid.account .looping rfl same dead
      exact { valid with
        order, counted, resolved
        loaded := fun _ => valid.loaded alive
        drained := fun phase => absurd phase (valid.undrained alive)
        few := Nat.zero_le _
        submitted := fun _ _ running => by cases running
        sound := ⟨fun _ failed => (by cases failed), valid.sound.2⟩ }
  | resumed jobs live outcome later worker _ _ advances done =>
      have alive : service.worker.alive = true := by simp [worker, Worker.alive]
      have held : service.worker.jobs = jobs := by simp [worker, Worker.jobs]
      obtain ⟨order, counted, resolved⟩ := (valid.advance advances).account .looping rfl
        (congrArg (· ++ service.queue) held) done
      exact { valid.advance advances with
        order, counted, resolved
        loaded := fun _ => valid.loaded alive
        drained := fun phase => absurd phase (valid.undrained alive)
        few := Nat.zero_le _
        submitted := fun _ _ running => by cases running
        sound := ⟨fun _ failed => (by cases failed), valid.sound.2⟩ }
  | stopped later alive _ advances done =>
      obtain ⟨order, counted, resolved⟩ := (valid.advance advances).account .finished rfl
        (List.append_nil _).symm done
      exact { valid.advance advances with
        order, counted, resolved
        loaded := fun alive => by cases alive
        drained := fun _ => ⟨rfl, rfl⟩
        few := Nat.zero_le _
        submitted := fun _ _ running => by cases running
        sound := ⟨fun _ failed => (by cases failed), valid.sound.2⟩ }
  | ended earlier call outcome shape open' ran =>
      exact { valid with
        dropped := fun found member known => by
          rcases List.mem_append.mp member with before | last
          · exact valid.dropped found (shape ▸ List.mem_append_left _ before) known
          · cases List.mem_singleton.mp last
            exact ran (Option.some.inj known) }
  | closing open' present =>
      exact { valid with
        opened := by simp
        cancelled := fun _ => rfl
        drained := fun phase => by rcases phase with same | same <;> cases same
        dropped := fun _ _ _ => rfl
        sound := ⟨valid.sound.1, fun _ failed => by cases failed⟩ }
  | drained later due dead advances done =>
      have idle : service.worker.jobs = [] := by
        cases worker : service.worker <;> simp_all [Worker.alive, Worker.jobs]
      have same : service.worker.jobs ++ service.queue = service.queue ++ [] := by
        rw [idle, List.nil_append, List.append_nil]
      obtain ⟨order, counted, resolved⟩ := (valid.advance advances).account service.worker idle
        same done
      exact { valid.advance advances with
        order, counted, resolved
        opened := by simp
        cancelled := fun _ => rfl
        drained := fun _ => ⟨rfl, dead⟩
        sound := ⟨valid.sound.1, fun _ failed => by cases failed⟩ }
  | completed phase idle =>
      exact { valid with
        loaded := fun alive => by
          rw [(valid.drained (.inl phase)).2] at alive
          cases alive
        opened := by
          have closed := valid.opened.mpr (by simp [phase])
          simp [closed]
        drained := fun _ => valid.drained (.inl phase)
        sound := ⟨valid.sound.1, fun _ failed => by cases failed⟩ }

theorem step_valid {event : Event α} (valid : Valid settings service)
    (stepped : step settings service event = some next) : Valid settings next :=
  (step_transition valid stepped).valid valid

theorem run_valid {events : List (Event α)}
    (ran : run (step settings) initial events = some service) : Valid settings service :=
  run_invariant (fun _ _ _ valid stepped => step_valid valid stepped) ran Valid.initial

end Kept

end Service

end VllmVerifier.Decision
