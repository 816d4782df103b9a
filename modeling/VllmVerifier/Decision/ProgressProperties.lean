import VllmVerifier.Decision.AccountingProperties

/-!
Liveness of the decision service: no caller waits for ever, unless the worker does
for a call that raised `StopIteration`, and `close` comes to an end in any case,
whatever was cancelled in between.
-/

set_option autoImplicit false

namespace VllmVerifier.Decision

open Machine Python Asyncio

variable {α : Type}

/-- A step of the worker, of the executor's thread or of a `close` under way. -/
def Service.Event.Internal : Service.Event α → Prop
  | .work | .endCall _ | .resumeClose => True
  | .start | .evaluate _ | .cancelCaller _ | .close => False

/-- How far the worker is from waiting for the queue. -/
def Worker.rank : Worker → Nat
  | .absent | .finished | .failed _ => 0
  | .getting => 1
  | .looping => 2
  | .scheduled | .running _ _ => 3
  | .sleeping _ => 5

def Closing.rank : Closing → Nat
  | .opened | .complete | .failed _ => 0
  | .shutdown => 1
  | .stopping => 2

namespace Service

/-- Whether the executor has a call in hand. -/
def calling (service : Service α) : Nat :=
  match service.calls.getLast? with
  | some ⟨_, _, none⟩ => 1
  | _ => 0

/-- What the service has still to do when nobody asks for more. -/
def load (service : Service α) : Nat :=
  6 * service.queue.length + service.worker.rank + service.calling + service.closing.rank

theorem calling_le (service : Service α) : service.calling ≤ 1 := by
  unfold calling
  split
  · exact Nat.le_refl 1
  · exact Nat.zero_le 1

/-! ## What a step takes away -/

section Steps

variable {settings : ServiceSettings} {service next : Service α}

theorem account_queue {jobs : List Nat} (accounted : service.account jobs = .ok next) :
    next.queue = service.queue := by
  obtain ⟨counted, folded, shape⟩ := except_bind_ok accounted
  cases shape
  change counted.queue = service.queue
  refine foldlM_keeps Service.queue (fun before item after done => ?_) folded
  unfold taskDone at done
  split at done
  · cases done
  · cases done
    rfl

theorem dispatch_queue {first : List Nat} (dispatched : service.dispatch settings first = .ok next) :
    next.queue = (collect settings first service.queue).2 := by
  unfold dispatch at dispatched
  dsimp only at dispatched
  split at dispatched
  · exact account_queue dispatched
  · split at dispatched
    · obtain ⟨requests, _, shape⟩ := except_bind_ok dispatched
      cases shape
      rfl
    · cases dispatched

/-- A dispatch leaves no more in the queue and less to do than the sleep before it. -/
theorem dispatch_lowers {first : List Nat} (loaded : service.runtime = true)
    (few : first.length ≤ settings.decisionBatchRequests)
    (inside : ∀ id ∈ first ++ service.queue, id < service.jobs.length)
    (counted : service.unfinished = first.length + service.queue.length) :
    ∃ next, service.dispatch settings first = .ok next ∧
      next.load ≤ 6 * service.queue.length + 4 + service.closing.rank := by
  obtain ⟨jobs, queue, same, bounded, outcome⟩ := dispatch_ok loaded few inside counted
  have returns : ∃ next, service.dispatch settings first = .ok next ∧
      next.worker.rank + next.calling ≤ 4 ∧ next.closing = service.closing := by
    rcases outcome with ⟨_, skipped⟩ | ⟨requests, _, _, submitted⟩
    · refine ⟨_, skipped, ?_, rfl⟩
      have one := service.calling_le
      exact Nat.add_le_add (Nat.le_refl 2) (Nat.le_succ_of_le one)
    · exact ⟨_, submitted, Nat.add_le_add (Nat.le_refl 3) (calling_le _), rfl⟩
  obtain ⟨next, dispatched, lower, closing⟩ := returns
  obtain ⟨split, longer, _⟩ := collect_ok
    (show collect settings first service.queue = (_, next.queue) by rw [dispatch_queue dispatched])
    few
  have sizes := congrArg List.length split
  rw [List.length_append, List.length_append] at sizes
  refine ⟨next, dispatched, ?_⟩
  rw [load, closing]
  omega

theorem got_lowers {first : Nat} {rest : List Nat} (valid : Valid settings service)
    (alive : service.worker.alive = true) (none : service.worker.jobs = [])
    (queued : service.queue = first :: rest) :
    (service.orFail (service.got settings first rest)).load < service.load := by
  have shorter : service.queue.length = rest.length + 1 := by rw [queued, List.length_cons]
  have more : 6 * rest.length + 6 + service.calling + service.closing.rank ≤ service.load := by
    rw [load]
    omega
  refine Nat.lt_of_lt_of_le ?_ more
  unfold got
  dsimp only
  split
  · change 6 * rest.length + 5 + service.calling + service.closing.rank < _
    omega
  · have counted := valid.counted
    rw [none, queued] at counted
    obtain ⟨next, dispatched, lower⟩ := @dispatch_lowers α settings
      { service with queue := rest } [first] (valid.loaded alive)
      (by simpa using settings.batchRequestsRange.1)
      (fun id member => valid.inside (by rw [none, queued]; exact member))
      (by simpa [Nat.add_comm] using counted)
    rw [dispatched]
    change next.load < _
    change next.load ≤ 6 * rest.length + 4 + service.closing.rank at lower
    omega

theorem finish_lowers (valid : Valid settings service) {jobs : List Nat}
    (held : service.worker.jobs = jobs) (busy : 0 < service.worker.rank) :
    (service.orFail (service.finish jobs)).load < service.load := by
  subst held
  obtain ⟨later, finished, _, _⟩ :=
    finish_ok (fun id member => valid.inside member) valid.counted
  rw [finished]
  change 0 + 0 + service.calling + service.closing.rank < _
  rw [load]
  omega

theorem work_lowers (valid : Valid settings service)
    (stepped : service.work settings = some next) : next.load < service.load := by
  unfold work at stepped
  cases worker : service.worker with
  | absent | finished | failed => simp [worker] at stepped
  | scheduled =>
      simp only [worker, Option.some.injEq] at stepped
      subst stepped
      have rank : service.worker.rank = 3 := by rw [worker]; rfl
      split <;>
        · simp only [load, calling, Worker.rank] at rank ⊢
          omega
  | looping =>
      have rank : service.worker.rank = 2 := by rw [worker]; rfl
      simp only [worker] at stepped
      split at stepped
      · cases stepped
        change 6 * service.queue.length + 1 + service.calling + service.closing.rank < _
        rw [load, rank]
        omega
      · cases stepped
        exact got_lowers valid (by simp [worker, Worker.alive]) (by simp [worker, Worker.jobs])
          (by assumption)
  | getting =>
      have rank : service.worker.rank = 1 := by rw [worker]; rfl
      simp only [worker] at stepped
      split at stepped
      · cases stepped
        exact finish_lowers valid (by simp [worker, Worker.jobs]) (rank ▸ Nat.one_pos)
      · split at stepped
        · cases stepped
        · cases stepped
          exact got_lowers valid (by simp [worker, Worker.alive])
            (by simp [worker, Worker.jobs]) (by assumption)
  | sleeping jobs =>
      have rank : service.worker.rank = 5 := by rw [worker]; rfl
      have held : service.worker.jobs = jobs := by simp [worker, Worker.jobs]
      have alive : service.worker.alive = true := by simp [worker, Worker.alive]
      simp only [worker] at stepped
      split at stepped
      · cases stepped
        exact finish_lowers valid held (by omega)
      · cases stepped
        obtain ⟨next, dispatched, lower⟩ := dispatch_lowers (valid.loaded alive)
          (held ▸ valid.few) (fun id member => valid.inside (held ▸ member))
          (held ▸ valid.counted)
        rw [dispatched]
        refine Nat.lt_of_le_of_lt lower ?_
        rw [load, rank]
        omega
  | running jobs live =>
      have rank : service.worker.rank = 3 := by rw [worker]; rfl
      have held : service.worker.jobs = jobs := by simp [worker, Worker.jobs]
      simp only [worker] at stepped
      split at stepped
      · cases stepped
        exact finish_lowers valid held (by omega)
      · cases ended : service.calls.getLast?.bind Call.outcome with
        | none =>
            rw [ended] at stepped
            cases stepped
        | some outcome =>
            simp only [ended] at stepped
            split at stepped
            · cases stepped
            · cases stepped
              cases arrives : outcome.arrives with
              | true =>
                  obtain ⟨later, resumed, _, _⟩ := valid.resume_ok worker arrives
                  rw [resumed]
                  change 6 * service.queue.length + 2 + service.calling + service.closing.rank < _
                  rw [load, rank]
                  omega
              | false =>
                  rw [resume, if_neg (by simp [arrives])]
                  exact finish_lowers valid held (by omega)

theorem endCall_shape {outcome : CallOutcome α} (stepped : service.endCall outcome = some next) :
    ∃ earlier call, service.calls = earlier ++ [call] ∧ call.outcome = none ∧
      next = { service with calls := earlier ++ [{ call with outcome := some outcome }] } := by
  unfold endCall at stepped
  split at stepped
  · cases stepped
  rename_i call last
  have shape := List.dropLast_append_getLast? call last
  split at stepped
  · cases stepped
  · rename_i pending
    split at stepped
    · cases stepped
      exact ⟨service.calls.dropLast, call, shape.symm, pending, rfl⟩
    · cases stepped
  · rename_i pending _
    cases stepped
    exact ⟨service.calls.dropLast, call, shape.symm, pending, rfl⟩

theorem calling_concat {earlier : List (Call α)} {call : Call α}
    (shape : service.calls = earlier ++ [call]) :
    service.calling = if call.outcome = none then 1 else 0 := by
  obtain ⟨batch, requests, outcome⟩ := call
  rw [calling, shape, List.getLast?_concat]
  cases outcome <;> simp

theorem endCall_lowers {outcome : CallOutcome α}
    (stepped : service.endCall outcome = some next) : next.load < service.load := by
  obtain ⟨earlier, call, shape, pending, rfl⟩ := endCall_shape stepped
  have before : service.calling = 1 := by rw [calling_concat shape, if_pos pending]
  rw [load, load, before, calling_concat rfl, if_neg (Option.some_ne_none outcome)]
  dsimp only
  omega

theorem drain_lowers (valid : Valid settings service) (phase : service.closing = .stopping) :
    service.drain.load < service.load := by
  have counted := valid.counted
  obtain ⟨later, drained, _, _⟩ := drain_ok
    (fun id member => valid.inside (List.mem_append_right _ member)) (by omega)
  have rank : service.closing.rank = 2 := by rw [phase]; rfl
  rw [drained]
  change 0 + service.worker.rank + service.calling + 1 < _
  rw [load, rank]
  omega

theorem resumeClose_lowers (valid : Valid settings service)
    (stepped : service.resumeClose = some next) : next.load < service.load := by
  unfold resumeClose at stepped
  split at stepped
  · rename_i phase
    split at stepped
    · cases stepped
    · cases stepped
      exact drain_lowers valid phase
  · rename_i phase
    split at stepped
    · cases stepped
    · cases stepped
      have rank : service.closing.rank = 1 := by rw [phase]; rfl
      change 6 * service.queue.length + service.worker.rank + service.calling + 0 < _
      rw [load, rank]
      omega
  all_goals cases stepped

/-- Every internal step leaves less to do. -/
theorem internal_lowers (valid : Valid settings service) {event : Event α}
    (internal : event.Internal) (stepped : step settings service event = some next) :
    next.load < service.load := by
  cases event with
  | work => exact work_lowers valid stepped
  | endCall outcome => exact endCall_lowers stepped
  | resumeClose => exact resumeClose_lowers valid (outside_some stepped).2
  | start | evaluate | cancelCaller | close => exact internal.elim

/-! ## What is still under way -/

/-- What is left over has someone to take care of it. -/
structure Attended (service : Service α) : Prop where
  queued : service.worker.alive = false → service.queue = [] ∨ service.closing = .stopping
  called : ∀ jobs live, service.worker = .running jobs live → service.calls ≠ []
  stopping : service.closing = .stopping → service.cancelling = true

theorem Attended.initial : Attended (initial : Service α) :=
  ⟨fun _ => .inl rfl, fun _ _ running => (by cases running), fun phase => (by cases phase)⟩

/-- A worker that is cancelled while it lives is being waited for. -/
theorem Valid.stopping (valid : Valid settings service) (alive : service.worker.alive = true)
    (cancelling : service.cancelling = true) : service.closing = .stopping := by
  have closed := valid.opened.mp (valid.cancelled cancelling)
  have open' := valid.undrained alive
  cases phase : service.closing with
  | opened => exact absurd phase closed
  | stopping => rfl
  | shutdown => exact absurd (.inl phase) open'
  | complete => exact absurd (.inr phase) open'
  | failed error => exact absurd phase (valid.sound.2 error)

theorem Transition.attended (transition : Transition settings service next)
    (valid : Valid settings service) (attended : Attended service) : Attended next := by
  cases transition with
  | unchanged => exact attended
  | cancelled => exact ⟨attended.queued, attended.called, attended.stopping⟩
  | enqueued request prepared =>
      simp only [ready, Bool.and_eq_true] at prepared
      refine ⟨fun dead => ?_, attended.called, attended.stopping⟩
      exact absurd (prepared.2.symm.trans dead) Bool.noConfusion
  | started =>
      exact ⟨fun dead => (by cases dead), fun _ _ running => (by cases running),
        attended.stopping⟩
  | moved worker _ _ alive _ free =>
      refine ⟨fun dead => ?_, fun jobs live running => absurd running (free jobs live),
        attended.stopping⟩
      exact absurd (alive.symm.trans dead) Bool.noConfusion
  | abandoned scheduled cancelling =>
      have alive : service.worker.alive = true := by rw [scheduled]; rfl
      exact ⟨fun _ => .inr (valid.stopping alive cancelling),
        fun _ _ running => (by cases running), attended.stopping⟩
  | took | skipped | resumed =>
      exact ⟨fun dead => (by cases dead), fun _ _ running => (by cases running),
        attended.stopping⟩
  | submitted =>
      exact ⟨fun dead => (by cases dead), fun _ _ _ => List.concat_ne_nil _ _,
        attended.stopping⟩
  | stopped =>
      exact ⟨fun _ => .inl rfl, fun _ _ running => (by cases running), attended.stopping⟩
  | ended =>
      exact ⟨attended.queued, fun _ _ _ => List.concat_ne_nil _ _, attended.stopping⟩
  | closing => exact ⟨fun _ => .inr rfl, attended.called, fun _ => rfl⟩
  | drained => exact ⟨fun _ => .inl rfl, attended.called, fun phase => (by cases phase)⟩
  | completed phase =>
      exact ⟨fun _ => .inl (valid.drained (.inl phase)).1, attended.called,
        fun phase => (by cases phase)⟩

/-- What holds in every reachable state. -/
def Kept (settings : ServiceSettings) (service : Service α) : Prop :=
  Valid settings service ∧ Attended service

theorem step_kept {event : Event α} (kept : Kept settings service)
    (stepped : step settings service event = some next) : Kept settings next :=
  have transition := step_transition kept.1 stepped
  ⟨transition.valid kept.1, transition.attended kept.1 kept.2⟩

theorem run_kept {events : List (Event α)}
    (ran : run (step settings) initial events = some service) : Kept settings service :=
  run_invariant (fun _ _ _ kept stepped => step_kept kept stepped) ran
    ⟨Valid.initial, Attended.initial⟩

/-! ## Nothing is left waiting -/

/-- No step of the service itself is possible: it waits for its callers. -/
def Quiet (settings : ServiceSettings) (service : Service α) : Prop :=
  ∀ event : Event α, event.Internal → step settings service event = none

/-- The worker awaits a call that raised what its future cannot take, and nobody
has closed the service. -/
def Stranded (service : Service α) : Prop :=
  service.closed = false ∧ (∃ jobs live, service.worker = .running jobs live) ∧
    ∃ call, service.calls.getLast? = some call ∧ call.outcome = some (.raised stopIteration)

theorem lost_iff {outcome : CallOutcome α} :
    outcome.lost = true ↔ outcome = .raised stopIteration := by
  cases outcome with
  | returned | dropped => simp [CallOutcome.lost]
  | raised error =>
      rw [CallOutcome.lost, decide_eq_true_iff, CallOutcome.raised.injEq]
      exact delivery_never_iff

/-- A stranded worker has no step, and until a `close` nothing changes that: what
is accepted meanwhile waits behind it. -/
theorem Stranded.stays (stranded : service.Stranded) (valid : Valid settings service)
    {event : Event α} (other : event ≠ .close)
    (stepped : step settings service event = some next) :
    next.Stranded ∧ next.worker = service.worker := by
  obtain ⟨open', ⟨jobs, live, worker⟩, call, last, ended⟩ := stranded
  have free : service.cancelling = false := by
    by_contra cancelling
    have closed := valid.cancelled (Bool.eq_true_of_not_eq_false cancelling)
    rw [open'] at closed
    cases closed
  cases event with
  | close => exact absurd rfl other
  | start =>
      have started := (outside_some stepped).2
      rw [start, if_neg (fun due => by rw [worker] at due; cases due.1)] at started
      cases started
  | evaluate request =>
      have evaluated := (outside_some stepped).2
      unfold evaluate at evaluated
      split at evaluated
      · rename_i accepted
        cases evaluated
        split at accepted
        · cases accepted
        split at accepted
        · cases accepted
        split at accepted
        · cases accepted
        cases accepted
        exact ⟨⟨open', ⟨jobs, live, worker⟩, call, last, ended⟩, rfl⟩
      · cases evaluated
        exact ⟨⟨open', ⟨jobs, live, worker⟩, call, last, ended⟩, rfl⟩
  | cancelCaller id =>
      have cancelled := (outside_some stepped).2
      unfold cancelCaller at cancelled
      split at cancelled
      · cases cancelled
      · split at cancelled <;>
          · cases cancelled
            exact ⟨⟨open', ⟨jobs, live, worker⟩, call, last, ended⟩, rfl⟩
  | work =>
      change service.work settings = some next at stepped
      unfold work at stepped
      simp [worker, free, last, ended, lost_iff.mpr] at stepped
  | endCall outcome =>
      change service.endCall outcome = some next at stepped
      unfold endCall at stepped
      simp [last, ended] at stepped
  | resumeClose =>
      have resumed := (outside_some stepped).2
      unfold resumeClose at resumed
      cases phase : service.closing with
      | opened => simp [phase] at resumed
      | stopping | shutdown | complete | failed =>
          have closed := valid.opened.mpr (by simp [phase])
          rw [open'] at closed
          cases closed

theorem Stranded.run_stays (stranded : service.Stranded) (valid : Valid settings service)
    {later : List (Event α)} {last : Service α} (unclosed : ∀ event ∈ later, event ≠ .close)
    (ran : run (step settings) service later = some last) :
    last.Stranded ∧ last.worker = service.worker := by
  induction later generalizing service with
  | nil =>
      cases ran
      exact ⟨stranded, rfl⟩
  | cons event rest ih =>
      obtain ⟨next, stepped, ran⟩ := run_cons ran
      obtain ⟨still, same⟩ := stranded.stays valid (unclosed event List.mem_cons_self) stepped
      obtain ⟨kept, equal⟩ := ih still (step_valid valid stepped)
        (fun other member => unclosed other (List.mem_cons_of_mem _ member)) ran
      exact ⟨kept, equal.trans same⟩

theorem Quiet.call {call : Call α} (quiet : Quiet settings service)
    (last : service.calls.getLast? = some call) : call.outcome ≠ none := by
  intro pending
  have still := quiet (.endCall (.returned [])) trivial
  change service.endCall (.returned []) = none at still
  unfold endCall at still
  rw [last] at still
  simp [pending] at still

/-- A worker that lives and is not cancelled has not been closed over. -/
theorem Kept.unclosed (kept : Kept settings service) (alive : service.worker.alive = true)
    (free : service.cancelling = false) : service.closed = false := by
  by_contra closed
  have open' := kept.1.undrained alive
  have phase : service.closing = .stopping := by
    cases phase : service.closing with
    | opened => exact absurd phase (kept.1.opened.mp (Bool.eq_true_of_not_eq_false closed))
    | stopping => rfl
    | shutdown => exact absurd (.inl phase) open'
    | complete => exact absurd (.inr phase) open'
    | failed error => exact absurd phase (kept.1.sound.2 error)
  have cancelling := kept.2.stopping phase
  rw [free] at cancelling
  cases cancelling

theorem Quiet.worker (quiet : Quiet settings service) (kept : Kept settings service) :
    service.Stranded ∨ service.worker.jobs = [] ∧ (service.worker.alive = true →
      service.worker = .getting ∧ service.cancelling = false ∧ service.queue = []) := by
  have still := quiet .work trivial
  change service.work settings = none at still
  unfold work at still
  cases worker : service.worker with
  | absent | finished | failed => exact .inr ⟨rfl, fun alive => by cases alive⟩
  | scheduled => simp [worker] at still
  | looping =>
      simp only [worker] at still
      split at still <;> cases still
  | getting =>
      simp only [worker] at still
      split at still
      · cases still
      · rename_i free
        split at still
        · exact .inr ⟨rfl, fun _ => ⟨rfl, Bool.eq_false_of_not_eq_true free, by assumption⟩⟩
        · cases still
  | sleeping jobs =>
      simp only [worker] at still
      split at still <;> cases still
  | running jobs live =>
      simp only [worker] at still
      split at still
      · cases still
      · rename_i free
        cases last : service.calls.getLast? with
        | none =>
            exact absurd (List.getLast?_eq_none_iff.mp last) (kept.2.called jobs live worker)
        | some call =>
            cases ended : call.outcome with
            | none => exact absurd ended (quiet.call last)
            | some outcome =>
                have lost : outcome.lost = true := by simpa [last, ended] using still
                cases lost_iff.mp lost
                refine .inl ⟨?_, ⟨jobs, live, worker⟩, call, last, ended⟩
                exact kept.unclosed (by rw [worker]; rfl) (Bool.eq_false_of_not_eq_true free)

theorem Quiet.closing (quiet : Quiet settings service) (kept : Kept settings service) :
    service.closing = .opened ∨ service.closing = .complete := by
  rcases quiet.worker kept with stranded | ⟨_, waits⟩
  · left
    by_contra closed
    have shut := kept.1.opened.mpr closed
    rw [stranded.1] at shut
    cases shut
  have still := quiet .resumeClose trivial
  change service.outside service.resumeClose = none at still
  rw [outside, if_neg (fun looping => ?_)] at still
  · unfold resumeClose at still
    cases phase : service.closing with
    | opened => exact .inl rfl
    | complete => exact .inr rfl
    | failed error => exact absurd phase (kept.1.sound.2 error)
    | stopping =>
        simp only [phase] at still
        split at still
        · rename_i alive
          have cancelling := kept.2.stopping phase
          rw [(waits alive).2.1] at cancelling
          cases cancelling
        · cases still
    | shutdown =>
        simp only [phase] at still
        split at still
        · rename_i last
          exact absurd rfl (quiet.call last)
        · cases still
  · have waiting := (waits (by rw [looping]; rfl)).1
    rw [looping] at waiting
    cases waiting

theorem Quiet.settled (quiet : Quiet settings service) (kept : Kept settings service) :
    service.Stranded ∨ service.queue = [] ∧
      service.accounted = List.range service.jobs.length ∧
        ∀ id, id < service.jobs.length → Done service.jobs id := by
  rcases quiet.worker kept with stranded | ⟨idle, waits⟩
  · exact .inl stranded
  have empty : service.queue = [] := by
    cases alive : service.worker.alive with
    | true => exact (waits alive).2.2
    | false =>
        rcases kept.2.queued alive with empty | phase
        · exact empty
        · rcases quiet.closing kept with same | same <;>
            · rw [phase] at same
              cases same
  have order := kept.1.order
  rw [idle, empty, List.append_nil, List.append_nil] at order
  refine .inr ⟨empty, order, fun id inside => kept.1.resolved id ?_⟩
  rw [order]
  exact List.mem_range.mpr inside

/-- No internal step accepts a job: it would leave more to do. -/
theorem internal_length (kept : Kept settings service) {event : Event α}
    (internal : event.Internal) (stepped : step settings service event = some next) :
    next.jobs.length = service.jobs.length := by
  have lower := internal_lowers kept.1 internal stepped
  cases step_transition kept.1 stepped with
  | unchanged | started | moved | abandoned | took | submitted | skipped | ended | closing
    | completed => rfl
  | enqueued request =>
      simp only [load, calling, List.length_append, List.length_singleton] at lower
      omega
  | cancelled => exact List.length_set ..
  | resumed _ _ _ _ _ _ _ advances => exact advances.length
  | stopped _ _ _ advances => exact advances.length
  | drained _ _ _ advances => exact advances.length

theorem internal_run (kept : Kept settings service) {own : List (Event α)} {last : Service α}
    (internal : ∀ event ∈ own, event.Internal)
    (ran : run (step settings) service own = some last) :
    Kept settings last ∧ own.length + last.load ≤ service.load ∧
      last.jobs.length = service.jobs.length := by
  induction own generalizing service with
  | nil =>
      cases ran
      exact ⟨kept, Nat.le_of_eq (Nat.zero_add _), rfl⟩
  | cons event rest ih =>
      obtain ⟨next, stepped, ran⟩ := run_cons ran
      have first := internal event List.mem_cons_self
      have lower := internal_lowers kept.1 first stepped
      obtain ⟨later, bounded, same⟩ := ih (step_kept kept stepped)
        (fun other member => internal other (List.mem_cons_of_mem _ member)) ran
      refine ⟨later, ?_, same.trans (internal_length kept first stepped)⟩
      rw [List.length_cons]
      omega

theorem internal_completes (kept : Kept settings service) :
    ∃ own last, (∀ event ∈ own, event.Internal) ∧
      run (step settings) service own = some last ∧ Quiet settings last := by
  refine run_completes_by load (fun _ _ _ kept stepped => step_kept kept stepped) ?_ kept
  intro state kept busy
  unfold Quiet at busy
  push Not at busy
  obtain ⟨event, internal, enabled⟩ := busy
  obtain ⟨after, stepped⟩ := Option.ne_none_iff_exists'.mp enabled
  exact ⟨event, after, internal, stepped, internal_lowers kept.1 internal stepped⟩

/-- Whatever was asked, cancelled or closed before, the service comes to rest by
its own steps, in any order of them: there are at most `load` of them, and where
none is possible any more a `close` that began has completed, and every accepted
job has its future set and the queue is empty, but for a worker that waits for a
call which raised `StopIteration`. -/
theorem comes_to_rest {events : List (Event α)}
    (reached : run (step settings) initial events = some service) :
    (∀ own last, (∀ event ∈ own, event.Internal) →
      run (step settings) service own = some last →
        own.length + last.load ≤ service.load ∧ last.jobs.length = service.jobs.length ∧
          (Quiet settings last → (service.closed = true → last.closing = .complete) ∧
            (last.Stranded ∨ last.queue = [] ∧ last.unfinished = 0 ∧
              ∀ id, id < last.jobs.length → Done last.jobs id))) ∧
      ∃ own last, (∀ event ∈ own, event.Internal) ∧
        run (step settings) service own = some last ∧ Quiet settings last := by
  have kept := run_kept reached
  refine ⟨fun own last internal ran => ?_, internal_completes kept⟩
  obtain ⟨later, bounded, same⟩ := internal_run kept internal ran
  refine ⟨bounded, same, fun quiet => ⟨fun closed => ?_, ?_⟩⟩
  · have shut := (run_shut kept.1 ran closed).1
    exact (quiet.closing later).resolve_left (later.1.opened.mp shut)
  · rcases quiet.settled later with stranded | ⟨empty, accounted, done⟩
    · exact .inl stranded
    · have balance := later.1.balance
      rw [accounted, List.length_range] at balance
      exact .inr ⟨empty, by omega, done⟩

/-- A close while a batch runs and a second job waits. -/
theorem comes_to_rest_closing : ∃ service : Service Nat,
    run (step sampleSettings) initial
      [ .start, .work, .work, .evaluate (noulRequest (lit "s")), .work,
        .evaluate (noulRequest (lit "t")), .close] = some service ∧
    ∃ own last, run (step sampleSettings) service own = some last ∧
      last.closing = .complete ∧ Done last.jobs 0 ∧ Done last.jobs 1 := by
  obtain ⟨service, known⟩ := Option.isSome_iff_exists.mp
    (show ((run (step sampleSettings) (initial : Service Nat)
      [ .start, .work, .work, .evaluate (noulRequest (lit "s")), .work,
        .evaluate (noulRequest (lit "t")), .close]).filter
          fun service => service.closed && service.jobs.length == 2).isSome = true by
      decide +kernel)
  obtain ⟨reached, shape⟩ := Option.filter_eq_some_iff.mp known
  rw [Bool.and_eq_true, beq_iff_eq] at shape
  obtain ⟨always, own, last, internal, ran, quiet⟩ := comes_to_rest reached
  obtain ⟨_, same, settled⟩ := always own last internal ran
  obtain ⟨closes, rest⟩ := settled quiet
  have complete := closes shape.1
  rcases rest with stranded | ⟨_, _, done⟩
  · have shut := (run_shut (run_valid reached) ran shape.1).1
    rw [stranded.1] at shut
    cases shut
  · rw [same, shape.2] at done
    exact ⟨service, reached, own, last, ran, complete, done 0 (by omega), done 1 (by omega)⟩

end Steps

end Service

end VllmVerifier.Decision
