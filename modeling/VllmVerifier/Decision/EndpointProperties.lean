import VllmVerifier.Decision.AccountingProperties
import VllmVerifier.Decision.Endpoint
import VllmVerifier.MiddlewareProperties

/-!
The queue against the admission bound. Every pending job has a handler that
awaits it, so that the pending jobs and the caller itself fit the bound; what
fills the queue beyond it are jobs whose callers have left.
-/

set_option autoImplicit false

namespace VllmVerifier.Decision

open Python Machine Middleware

variable {α : Type}

/-! ## Held jobs -/

namespace Service

variable {settings : ServiceSettings} {service next : Service α}

def Unanswered (service : Service α) (id : Nat) : Prop :=
  ∃ job, service.jobs[id]? = some job ∧ (job.future = .pending ∨ job.future = .cancelled)

/-- What the worker and the queue hold is unanswered. -/
def Waiting (service : Service α) : Prop :=
  ∀ id ∈ service.worker.jobs ++ service.queue, service.Unanswered id

theorem Waiting.of_subset (waiting : service.Waiting) (jobs : next.jobs = service.jobs)
    (held : ∀ id ∈ next.worker.jobs ++ next.queue, id ∈ service.worker.jobs ++ service.queue) :
    next.Waiting := by
  intro id member
  unfold Unanswered
  rw [jobs]
  exact waiting id (held id member)

theorem Transition.waiting (transition : Transition settings service next)
    (valid : Valid settings service) (waiting : service.Waiting) : next.Waiting := by
  cases transition with
  | unchanged | ended | closing | completed => exact waiting.of_subset rfl fun _ member => member
  | started absent _ =>
      exact waiting.of_subset rfl fun id member => List.mem_append_right _ member
  | enqueued request _ _ =>
      intro id member
      unfold Unanswered
      dsimp only at member ⊢
      rw [← List.append_assoc] at member
      rcases List.mem_append.mp member with before | last
      · obtain ⟨job, found, known⟩ := waiting id before
        have inside := (List.getElem?_eq_some_iff.mp found).1
        exact ⟨job, by rw [List.getElem?_append_left inside, found], known⟩
      · rw [List.mem_singleton.mp last]
        exact ⟨_, List.getElem?_concat_length, .inl rfl⟩
  | cancelled target job found _ =>
      intro id member
      obtain ⟨held, located, known⟩ := waiting id member
      unfold Unanswered
      dsimp only
      by_cases same : target = id
      · subst same
        have inside := (List.getElem?_eq_some_iff.mp located).1
        exact ⟨_, List.getElem?_set_self inside, .inr rfl⟩
      · exact ⟨held, by rw [List.getElem?_set_ne same, located], known⟩
  | moved worker _ none _ laterNone =>
      refine waiting.of_subset rfl fun id member => ?_
      rw [laterNone] at member
      exact List.mem_append_right _ member
  | abandoned =>
      exact waiting.of_subset rfl fun id member => List.mem_append_right _ member
  | took first rest _ none _ queued =>
      refine waiting.of_subset rfl fun id member => ?_
      rw [queued]
      exact List.mem_append_right _ member
  | submitted jobs queue _ _ _ same =>
      refine waiting.of_subset rfl fun id member => ?_
      rw [same]
      exact member
  | skipped jobs queue _ _ same =>
      refine waiting.of_subset rfl fun id member => ?_
      rw [same]
      exact List.mem_append_right _ member
  | resumed jobs live outcome later worker _ _ advances _ =>
      intro id member
      have apart := (List.nodup_append.mp (List.nodup_append.mp valid.partition).2.1).2.2
      obtain ⟨job, found, known⟩ := waiting id (List.mem_append_right _ member)
      obtain ⟨held, located, _, future⟩ := advances.each id job found
      refine ⟨held, located, ?_⟩
      rcases future with same | ⟨_, _, item, zip, rfl, _⟩
      · rw [same]
        exact known
      · have inside := (valid.submitted jobs live worker).1.subset (List.of_mem_zip zip).1
        rw [worker] at apart
        exact absurd rfl (apart _ inside _ member)
  | stopped => exact fun id member => by cases member
  | drained later _ dead =>
      have none : service.worker.jobs = [] := by
        cases worker : service.worker <;> simp_all [Worker.alive, Worker.jobs]
      intro id member
      dsimp only at member
      rw [none] at member
      cases member

theorem Keeps.pending (keeps : Keeps service next) {id : Nat} {job : Job α}
    (length : next.jobs.length = service.jobs.length) (found : next.jobs[id]? = some job)
    (pending : job.future = .pending) :
    ∃ before, service.jobs[id]? = some before ∧ before.future = .pending := by
  have inside : id < service.jobs.length := length ▸ (List.getElem?_eq_some_iff.mp found).1
  have before := List.getElem?_eq_getElem inside
  refine ⟨_, before, ?_⟩
  obtain ⟨later, located, _, kept⟩ := keeps id _ before
  cases found.symm.trans located
  cases set : service.jobs[id].future with
  | pending => rfl
  | cancelled | result | exception =>
      rw [kept (by rw [set]; rfl), set] at pending
      cases pending

/-! ## Who adds jobs -/

theorem evaluate_ok {request : SystemOneRequest}
    (evaluated : service.evaluate settings request = .ok next) :
    next.jobs = service.jobs ++ [⟨request, .pending⟩] := by
  unfold evaluate at evaluated
  split at evaluated
  · cases evaluated
  split at evaluated
  · cases evaluated
  split at evaluated
  · cases evaluated
  cases evaluated
  rfl

theorem cancelCaller_some {id : Nat} (cancelled : service.cancelCaller id = some next) :
    next.jobs.length = service.jobs.length ∧ Done next.jobs id := by
  unfold cancelCaller at cancelled
  split at cancelled
  · cases cancelled
  · rename_i job found
    split at cancelled
    · rename_i done
      cases cancelled
      exact ⟨rfl, job, found, done⟩
    · cases cancelled
      have inside := (List.getElem?_eq_some_iff.mp found).1
      exact ⟨List.length_set .., _, List.getElem?_set_self inside, rfl⟩

def size (service : Service α) : Nat := service.jobs.length

theorem settleUnlessDone_length {id : Nat} {future : Future α}
    (settled : service.settleUnlessDone id future = .ok next) :
    next.jobs.length = service.jobs.length := by
  unfold settleUnlessDone settle at settled
  split at settled
  · cases settled
    rfl
  · obtain ⟨job, _, settled⟩ := except_bind_ok settled
    split at settled
    · cases settled
    · cases settled
      exact List.length_set ..

theorem taskDone_length {id : Nat} (taken : service.taskDone id = .ok next) :
    next.jobs.length = service.jobs.length := by
  unfold taskDone at taken
  split at taken
  · cases taken
  · cases taken
    rfl

theorem stop_length {id : Nat} (stopped : service.stop id = .ok next) :
    next.jobs.length = service.jobs.length := by
  obtain ⟨middle, settled, taken⟩ := except_bind_ok stopped
  exact (taskDone_length taken).trans (settleUnlessDone_length settled)

theorem account_length {jobs : List Nat} (accounted : service.account jobs = .ok next) :
    next.jobs.length = service.jobs.length := by
  obtain ⟨middle, folded, shape⟩ := except_bind_ok accounted
  cases shape
  have kept := foldlM_keeps size (fun _ _ _ taken => taskDone_length taken) folded
  exact kept

theorem finish_length {jobs : List Nat} (finished : service.finish jobs = .ok next) :
    next.jobs.length = service.jobs.length := by
  obtain ⟨middle, folded, shape⟩ := except_bind_ok finished
  cases shape
  have kept := foldlM_keeps size (fun _ _ _ stopped => stop_length stopped) folded
  exact kept

theorem dispatch_length {first : List Nat}
    (dispatched : service.dispatch settings first = .ok next) :
    next.jobs.length = service.jobs.length := by
  unfold dispatch at dispatched
  dsimp only at dispatched
  split at dispatched
  · have kept := account_length dispatched
    exact kept
  · split at dispatched
    · obtain ⟨requests, _, shape⟩ := except_bind_ok dispatched
      cases shape
      rfl
    · cases dispatched

theorem got_length {first : Nat} {queue : List Nat}
    (took : service.got settings first queue = .ok next) :
    next.jobs.length = service.jobs.length := by
  unfold got at took
  dsimp only at took
  split at took
  · cases took
    rfl
  · have kept := dispatch_length took
    exact kept

theorem resume_length {jobs live : List Nat} {outcome : CallOutcome α}
    (resumed : service.resume jobs live outcome = .ok next) :
    next.jobs.length = service.jobs.length := by
  unfold resume at resumed
  split at resumed
  · obtain ⟨middle, folded, accounted⟩ := except_bind_ok resumed
    exact (account_length accounted).trans
      (foldlM_keeps size (fun _ _ _ settled => settleUnlessDone_length settled) folded)
  · exact finish_length resumed

theorem orFail_length {result : Except PyException (Service α)}
    (kept : ∀ next, result = .ok next → next.jobs.length = service.jobs.length) :
    (service.orFail result).jobs.length = service.jobs.length := by
  cases result with
  | ok next => exact kept next rfl
  | error raised => rfl

theorem work_length (worked : service.work settings = some next) :
    next.jobs.length = service.jobs.length := by
  unfold work at worked
  split at worked
  · cases worked
    rfl
  · split at worked
    · cases worked
      rfl
    · cases worked
      exact orFail_length fun _ took => got_length took
  · split at worked
    · cases worked
      exact orFail_length fun _ finished => finish_length finished
    · split at worked
      · cases worked
      · cases worked
        exact orFail_length fun _ took => got_length took
  · split at worked
    · cases worked
      exact orFail_length fun _ finished => finish_length finished
    · cases worked
      exact orFail_length fun _ dispatched => dispatch_length dispatched
  · split at worked
    · cases worked
      exact orFail_length fun _ finished => finish_length finished
    · split at worked
      · cases worked
      · split at worked
        · cases worked
        · cases worked
          exact orFail_length fun _ resumed => resume_length resumed
  · cases worked
  · cases worked
  · cases worked

theorem drain_length (service : Service α) : service.drain.jobs.length = service.jobs.length := by
  unfold drain
  split
  · rename_i drained folded
    have kept := foldlM_keeps size (fun _ _ _ stopped => stop_length stopped) folded
    exact kept
  · rfl

theorem close_length (service : Service α) : service.close.jobs.length = service.jobs.length := by
  unfold close
  split
  · rfl
  · dsimp only
    split
    · exact drain_length { service with closed := true }
    · rfl

end Service

/-- The handler awaits a future. -/
def Handler.waits : Handler → Bool
  | .awaiting _ => true
  | .unstarted | .ended _ => false

namespace Endpoint

theorem background_length {settings : ServiceSettings} {service next : Service α}
    {event : Background α} (stepped : Service.step settings service event.event = some next) :
    next.jobs.length = service.jobs.length := by
  cases event with
  | start =>
      obtain ⟨_, started⟩ := Service.outside_some stepped
      unfold Service.start at started
      split at started
      · cases started
        rfl
      · cases started
  | work => exact Service.work_length stepped
  | endCall outcome =>
      change service.endCall outcome = some next at stepped
      unfold Service.endCall at stepped
      split at stepped
      · cases stepped
      · split at stepped
        · cases stepped
        · split at stepped
          · cases stepped
            rfl
          · cases stepped
        · cases stepped
          rfl
  | close =>
      obtain ⟨_, closed⟩ := Service.outside_some stepped
      cases closed
      exact Service.close_length service
  | resumeClose =>
      obtain ⟨_, resumed⟩ := Service.outside_some stepped
      unfold Service.resumeClose at resumed
      split at resumed
      · split at resumed
        · cases resumed
        · cases resumed
          exact Service.drain_length service
      · split at resumed
        · cases resumed
        · cases resumed
          rfl
      · cases resumed
      · cases resumed
      · cases resumed

/-! ## Handlers and exchanges -/

variable {settings : EndpointSettings} {endpoint next : Endpoint α}

/-- A handler that awaits has an admitted exchange in the app. -/
def Serves (handler : Handler) (exchange : Exchange) : Prop :=
  handler.waits = true → exchange.phase = .app ∧ exchange.admitted = true

/-- Each job that is pending is awaited by a handler, and each handler that awaits
has its admitted exchange. -/
structure Linked (settings : EndpointSettings) (endpoint : Endpoint α) : Prop where
  counted : Counted settings.boundary endpoint.boundary
  valid : Service.Valid settings.service endpoint.service
  waiting : endpoint.service.Waiting
  serves : List.Forall₂ Serves endpoint.handlers endpoint.boundary.exchanges
  awaited : ∀ (id : Nat) (job : Job α), endpoint.service.jobs[id]? = some job →
    job.future = .pending → .awaiting id ∈ endpoint.handlers

theorem Linked.initial (settings : EndpointSettings) :
    Linked settings (initial : Endpoint α) := by
  refine ⟨Counted.initial, Service.Valid.initial, ?_, .nil, ?_⟩
  · exact fun id member => by cases member
  · exact fun id job found => by cases found

theorem mem_set_of_other {handlers : List Handler} {index id : Nat} {before after : Handler}
    (found : handlers[index]? = some before) (other : before ≠ .awaiting id)
    (member : .awaiting id ∈ handlers) : .awaiting id ∈ handlers.set index after := by
  obtain ⟨position, located⟩ := List.getElem?_of_mem member
  have apart : index ≠ position := by
    intro same
    rw [same, located] at found
    exact other (Option.some.inj found).symm
  refine List.mem_of_getElem? (i := position) ?_
  rw [List.getElem?_set_ne apart, located]

theorem concurrent_stays {settings : BoundarySettings} {before after : Exchange} {action : Action}
    (concurrent : Endpoint.concurrent action = true)
    (advanced : advance settings before action = some after) :
    after.phase = .app ∧ after.admitted = before.admitted := by
  cases action with
  | message | deadline | sent | raised | appReturned => cases concurrent
  | appReceive =>
      simp only [advance] at advanced
      split at advanced
      · rename_i phase
        split at advanced <;>
          · cases advanced
            exact ⟨phase, rfl⟩
      · cases advanced

theorem act_serves {index : Nat} {action : Action} (linked : Linked settings endpoint)
    (stepped : step settings endpoint (.act index action) = some next) :
    ∃ boundary, Middleware.step settings.boundary endpoint.boundary (.act index action) =
        some boundary ∧ next = { endpoint with boundary } ∧
      List.Forall₂ Serves endpoint.handlers boundary.exchanges := by
  unfold Endpoint.step at stepped
  dsimp only at stepped
  cases here : endpoint.handlers[index]? with
  | none =>
      rw [here] at stepped
      cases stepped
  | some handler =>
      rw [here] at stepped
      cases handler with
      | awaiting id =>
          dsimp only at stepped
          split at stepped
          · rename_i concurrent
            obtain ⟨boundary, acted, rfl⟩ := Option.map_eq_some_iff.mp stepped
            obtain ⟨before, after, found, advanced, exchanges⟩ := act_advance acted
            obtain ⟨phase, admitted⟩ := concurrent_stays concurrent advanced
            obtain ⟨exchange, located, serves⟩ := forall₂_getElem? linked.serves here
            cases found.symm.trans located
            refine ⟨boundary, acted, rfl, ?_⟩
            rw [exchanges]
            exact forall₂_set_right linked.serves here fun _ =>
              ⟨phase, admitted.trans (serves rfl).2⟩
          · cases stepped
      | unstarted | ended =>
          obtain ⟨boundary, acted, rfl⟩ := Option.map_eq_some_iff.mp stepped
          obtain ⟨before, after, _, _, exchanges⟩ := act_advance acted
          refine ⟨boundary, acted, rfl, ?_⟩
          rw [exchanges]
          exact forall₂_set_right linked.serves here fun waits => by cases waits

private theorem not_pending_of_done {jobs : List (Job α)} {id : Nat} {job : Job α}
    (done : Done jobs id) (located : jobs[id]? = some job) : job.future ≠ .pending := by
  intro pending
  obtain ⟨held, found, set⟩ := done
  cases located.symm.trans found
  rw [pending] at set
  cases set

/-- A handler that calls `evaluate` awaits the job it adds; the others still await theirs. -/
theorem evaluate_awaited {index : Nat} {request : SystemOneRequest} {service : Service α}
    (linked : Linked settings endpoint) (here : endpoint.handlers[index]? = some .unstarted)
    (outcome : (match endpoint.service.evaluate settings.service request with
      | .ok next => some next
      | .error _ => some endpoint.service) = some service)
    {id : Nat} {job : Job α} (located : service.jobs[id]? = some job)
    (pending : job.future = .pending) :
    .awaiting id ∈ endpoint.handlers.set index
      (answered endpoint.service (endpoint.service.evaluate settings.service request)) := by
  cases evaluated : endpoint.service.evaluate settings.service request with
  | error error =>
      rw [evaluated] at outcome
      cases outcome
      exact mem_set_of_other here nofun (linked.awaited id job located pending)
  | ok accepted =>
      rw [evaluated] at outcome
      cases outcome
      rw [Service.evaluate_ok evaluated] at located
      rcases Nat.lt_trichotomy id endpoint.service.jobs.length with before | rfl | past
      · rw [List.getElem?_append_left before] at located
        exact mem_set_of_other here nofun (linked.awaited id job located pending)
      · have inside := (List.getElem?_eq_some_iff.mp here).1
        exact List.mem_of_getElem? (List.getElem?_set_self inside)
      · rw [List.getElem?_eq_none (by simp; omega)] at located
        cases located

theorem Linked.step {event : Event α} (linked : Linked settings endpoint)
    (stepped : step settings endpoint event = some next) : Linked settings next := by
  cases event with
  | call scope =>
      unfold Endpoint.step at stepped
      dsimp only at stepped
      split at stepped
      · cases stepped
      · rename_i boundary called
        cases stepped
        refine ⟨step_counted linked.counted called, linked.valid, linked.waiting, ?_, ?_⟩
        · cases called
          exact List.rel_append linked.serves (.cons (fun waits => by cases waits) .nil)
        · exact fun id job found pending =>
            List.mem_append_left _ (linked.awaited id job found pending)
  | act index action =>
      obtain ⟨boundary, acted, rfl, serves⟩ := act_serves linked stepped
      exact ⟨step_counted linked.counted acted, linked.valid, linked.waiting, serves,
        linked.awaited⟩
  | background event =>
      obtain ⟨service, advanced, rfl⟩ := Option.map_eq_some_iff.mp stepped
      have transition := Service.step_transition linked.valid advanced
      refine ⟨linked.counted, transition.valid linked.valid,
        transition.waiting linked.valid linked.waiting, linked.serves, ?_⟩
      intro id job found pending
      obtain ⟨before, located, same⟩ :=
        transition.keeps.pending (background_length advanced) found pending
      exact linked.awaited id before located same
  | evaluate index request =>
      unfold Endpoint.step at stepped
      dsimp only at stepped
      split at stepped
      · rename_i exchange found here
        split at stepped
        · rename_i present
          obtain ⟨service, advanced, rfl⟩ := Option.map_eq_some_iff.mp stepped
          have transition := Service.step_transition linked.valid advanced
          refine ⟨linked.counted, transition.valid linked.valid,
            transition.waiting linked.valid linked.waiting,
            forall₂_set_left linked.serves found fun _ => present, ?_⟩
          exact fun id job located pending => evaluate_awaited linked here
            (Service.outside_some advanced).2 located pending
        · cases stepped
      · cases stepped
  | resumed index =>
      unfold Endpoint.step at stepped
      dsimp only at stepped
      split at stepped
      · rename_i target here
        split at stepped
        · rename_i done
          cases stepped
          obtain ⟨exchange, found, _⟩ := forall₂_getElem? linked.serves here
          refine ⟨linked.counted, linked.valid, linked.waiting,
            forall₂_set_left linked.serves found (fun waits => by cases waits), ?_⟩
          intro id job located pending
          refine mem_set_of_other here ?_ (linked.awaited id job located pending)
          intro same
          cases same
          exact not_pending_of_done (Service.isDone_iff.mp done) located pending
        · cases stepped
      · cases stepped
  | cancelled index =>
      unfold Endpoint.step at stepped
      dsimp only at stepped
      split at stepped
      · rename_i target here
        obtain ⟨service, advanced, rfl⟩ := Option.map_eq_some_iff.mp stepped
        have transition := Service.step_transition linked.valid advanced
        obtain ⟨_, cancelled⟩ := Service.outside_some advanced
        obtain ⟨length, done⟩ := Service.cancelCaller_some cancelled
        obtain ⟨exchange, found, _⟩ := forall₂_getElem? linked.serves here
        refine ⟨linked.counted, transition.valid linked.valid,
          transition.waiting linked.valid linked.waiting,
          forall₂_set_left linked.serves found (fun waits => by cases waits), ?_⟩
        intro id job located pending
        obtain ⟨before, beforeFound, same⟩ := transition.keeps.pending length located pending
        refine mem_set_of_other here ?_ (linked.awaited id before beforeFound same)
        intro own
        cases own
        exact not_pending_of_done done located pending
      · cases stepped

theorem run_linked {events : List (Event α)}
    (ran : run (Endpoint.step settings) Endpoint.initial events = some endpoint) :
    Linked settings endpoint :=
  run_invariant (fun _ _ _ linked stepped => linked.step stepped) ran (Linked.initial settings)

/-! ## The queue -/

/-- The jobs in the queue that are still pending. -/
def pendingJobs (service : Service α) : List Nat :=
  service.queue.filter fun id => !service.isDone id

/-- The pending jobs of the queue have as many callers. -/
theorem Linked.pending_le (linked : Linked settings endpoint) :
    (pendingJobs endpoint.service).length ≤ endpoint.handlers.countP Handler.waits := by
  have distinct : (pendingJobs endpoint.service).Nodup := by
    have queue := (List.nodup_append.mp (List.nodup_append.mp linked.valid.partition).2.1).2.1
    exact queue.filter _
  let awaited : Nat → Handler := .awaiting
  have injective : Function.Injective awaited := fun first second same => by
    cases same
    rfl
  have waiting : ∀ id ∈ pendingJobs endpoint.service,
      awaited id ∈ endpoint.handlers.filter Handler.waits := by
    intro id member
    obtain ⟨queued, open'⟩ := List.mem_filter.mp member
    obtain ⟨job, found, known⟩ := linked.waiting id (List.mem_append_right _ queued)
    have pending : job.future = .pending := by
      rcases known with same | same
      · exact same
      · have done : endpoint.service.isDone id = true :=
          Service.isDone_iff.mpr ⟨job, found, by rw [same]; rfl⟩
        simp [done] at open'
    exact List.mem_filter.mpr ⟨linked.awaited id job found pending, rfl⟩
  have covered : (pendingJobs endpoint.service).map awaited ⊆
      endpoint.handlers.filter Handler.waits := by
    intro handler member
    obtain ⟨id, present, rfl⟩ := List.mem_map.mp member
    exact waiting id present
  have bounded := (List.subperm_of_subset (distinct.map injective) covered).length_le
  rwa [List.length_map, ← List.countP_eq_length_filter] at bounded

theorem countP_le_of_forall₂ {First Second : Type} {first : First → Bool} {second : Second → Bool}
    {items : List First} {results : List Second}
    (all : List.Forall₂ (fun item result => first item = true → second result = true) items
      results) :
    items.countP first ≤ results.countP second := by
  induction all with
  | nil => exact Nat.le_refl _
  | @cons item result _ _ head _ ih =>
      rw [List.countP_cons, List.countP_cons]
      cases known : first item with
      | false =>
          simp only [Bool.false_eq_true, if_false]
          omega
      | true =>
          rw [if_pos rfl, if_pos (head known)]
          omega

/-- Beside a handler that has yet to call `evaluate`, fewer callers wait than are admitted. -/
theorem Linked.callers_lt (linked : Linked settings endpoint) {index : Nat} {exchange : Exchange}
    (found : endpoint.boundary.exchanges[index]? = some exchange)
    (present : exchange.phase = .app) (admitted : exchange.admitted = true)
    (here : endpoint.handlers[index]? = some .unstarted) :
    (endpoint.handlers.countP Handler.waits : Int) < endpoint.boundary.active := by
  have known : Serves (.awaiting 0) exchange := fun _ => ⟨present, admitted⟩
  have serves := forall₂_set_left linked.serves found known
  have covered : List.Forall₂ (fun handler exchange => handler.waits = true →
      inside settings.boundary exchange = true)
      (endpoint.handlers.set index (.awaiting 0)) endpoint.boundary.exchanges := by
    refine List.forall₂_iff_zip.mpr ⟨serves.length_eq, fun {handler exchange} member waits => ?_⟩
    obtain ⟨phase, slot⟩ := (List.forall₂_iff_zip.mp serves).2 member waits
    have sound := linked.counted.sound exchange (List.of_mem_zip member).2
    simp [inside, ← sound.slot, slot, phase]
  have bounded := countP_le_of_forall₂ covered
  have total := countP_set Handler.waits here (.awaiting 0)
  have count := linked.counted.count
  simp only [Handler.waits, if_true, Bool.false_eq_true, if_false] at total
  omega

theorem evaluate_overloaded {service : Service α} {settings : ServiceSettings}
    {request : SystemOneRequest} {error : ServiceError}
    (refused : service.evaluate settings request = .error error) (overload : error.status = 529) :
    settings.maxRequests ≤ service.queue.length := by
  unfold Service.evaluate at refused
  split at refused
  · cases refused
    cases overload
  split at refused
  · cases refused
    cases overload
  split at refused
  · assumption
  · cases refused

/-- An admitted request is refused by the queue only when it is full of jobs of
which fewer are pending than there are requests admitted beside it, so that some
were cancelled by their callers and still stand in it. -/
theorem queue_overload {events : List (Event α)}
    (reached : run (step settings) initial events = some endpoint) :
    (∀ id ∈ endpoint.service.queue, endpoint.service.Unanswered id) ∧
    ∀ index request next error, step settings endpoint (.evaluate index request) = some next →
      next.handlers[index]? = some (.ended (some error)) → error.status = 529 →
        settings.service.maxRequests ≤ endpoint.service.queue.length ∧
        (((pendingJobs endpoint.service).length : Int) < endpoint.boundary.active ∧
          endpoint.boundary.active ≤ settings.service.maxRequests) ∧
        ∃ id ∈ endpoint.service.queue, ∃ job, endpoint.service.jobs[id]? = some job ∧
          job.future = .cancelled := by
  have linked := run_linked reached
  refine ⟨fun id member => linked.waiting id (List.mem_append_right _ member), ?_⟩
  intro index request next error stepped refusal overload
  unfold step at stepped
  dsimp only at stepped
  split at stepped
  · rename_i exchange found here
    split at stepped
    · rename_i present
      obtain ⟨service, advanced, rfl⟩ := Option.map_eq_some_iff.mp stepped
      have position := (List.getElem?_eq_some_iff.mp here).1
      dsimp only at refusal
      rw [List.getElem?_set_self position] at refusal
      have full : settings.service.maxRequests ≤ endpoint.service.queue.length := by
        cases evaluated : endpoint.service.evaluate settings.service request with
        | ok accepted =>
            rw [evaluated] at refusal
            cases refusal
        | error raised =>
            rw [evaluated] at refusal
            cases refusal
            exact evaluate_overloaded evaluated overload
      have callers := linked.callers_lt found present.1 present.2 here
      have pending := linked.pending_le
      have limit := linked.counted.bounded
      have shared := settings.shared
      refine ⟨full, ⟨by omega, by omega⟩, ?_⟩
      by_contra none
      have all : pendingJobs endpoint.service = endpoint.service.queue := by
        refine List.filter_eq_self.mpr fun id member => ?_
        obtain ⟨job, located, known⟩ := linked.waiting id (List.mem_append_right _ member)
        rcases known with same | same
        · simp [Service.isDone, located, same, Future.done]
        · exact absurd ⟨id, member, job, located, same⟩ none
      rw [all] at pending
      omega
    · cases stepped
  · cases stepped

/-! One slot. A batch outlasts its caller, and the next caller leaves a job behind. -/

def singleSlot : EndpointSettings where
  boundary := ⟨none, 1, 1024, Service.sampleSettings.requestsRange, le_rfl⟩
  service := Service.sampleSettings
  shared := rfl

def arrival (index : Nat) : List (Event Nat) :=
  [.call ⟨true, lit "/v1/systemone", []⟩, .act index (.message (.request none none))]

def staleRun : List (Event Nat) :=
  [.background .start, .background .work, .background .work] ++
    arrival 0 ++ [.evaluate 0 (noulRequest (lit "a")), .background .work, .cancelled 0,
      .act 0 .appReturned] ++
    arrival 1 ++ [.evaluate 1 (noulRequest (lit "b")), .cancelled 1, .act 1 .appReturned] ++
    arrival 2

def overloaded : ServiceError := ⟨529, "overloaded", "Decision queue is full"⟩

def refusedThird : Event Nat := .evaluate 2 (noulRequest (lit "c"))

theorem stale_reaches : ((run (step singleSlot) initial staleRun).bind fun endpoint =>
    (step singleSlot endpoint refusedThird).map fun next =>
      (next.handlers[2]?, pendingJobs endpoint.service, endpoint.boundary.active)) =
    some (some (.ended (some overloaded)), [], 1) := by
  decide +kernel

theorem queue_overload_stale : ∃ endpoint next : Endpoint Nat,
    run (step singleSlot) initial staleRun = some endpoint ∧
      step singleSlot endpoint refusedThird = some next ∧
      next.handlers[2]? = some (.ended (some overloaded)) ∧
      pendingJobs endpoint.service = [] ∧ endpoint.boundary.active = 1 := by
  obtain ⟨endpoint, reached, rest⟩ := Option.bind_eq_some_iff.mp stale_reaches
  obtain ⟨next, stepped, shape⟩ := Option.map_eq_some_iff.mp rest
  obtain ⟨refused, counts⟩ := Prod.mk.inj shape
  obtain ⟨pending, active⟩ := Prod.mk.inj counts
  exact ⟨endpoint, next, reached, stepped, refused, pending, active⟩

theorem queue_overload_cancelled : ∃ endpoint : Endpoint Nat,
    run (step singleSlot) initial staleRun = some endpoint ∧
      ∃ id ∈ endpoint.service.queue, ∃ job, endpoint.service.jobs[id]? = some job ∧
        job.future = .cancelled := by
  obtain ⟨endpoint, reached, rest⟩ := Option.bind_eq_some_iff.mp stale_reaches
  obtain ⟨next, stepped, shape⟩ := Option.map_eq_some_iff.mp rest
  obtain ⟨refused, _⟩ := Prod.mk.inj shape
  exact ⟨endpoint, reached, ((queue_overload reached).2 2 _ next overloaded stepped refused rfl).2.2⟩

end Endpoint

end VllmVerifier.Decision
