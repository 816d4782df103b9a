import VllmVerifier.Decision.ServiceProperties

/-!
Every accepted job is resolved once: over whole runs of the decision service a
set future stays as it is, a closed service accepts nothing, and a completed
`close` leaves no job behind.
-/

set_option autoImplicit false

namespace VllmVerifier.Decision.Service

open Python Machine

variable {α : Type} {settings : ServiceSettings} {service next : Service α}

/-! ## What steps keep -/

/-- Jobs keep their request and a future that is set. -/
def Keeps (service next : Service α) : Prop :=
  ∀ (id : Nat) (job : Job α), service.jobs[id]? = some job →
    ∃ later, next.jobs[id]? = some later ∧ later.request = job.request ∧
      (job.future.done = true → later = job)

theorem Keeps.refl (service : Service α) : Keeps service service :=
  fun _ job found => ⟨job, found, rfl, fun _ => rfl⟩

theorem Keeps.trans {first second third : Service α} (left : Keeps first second)
    (right : Keeps second third) : Keeps first third := by
  intro id job found
  obtain ⟨middle, located, request, kept⟩ := left id job found
  obtain ⟨last, lastLocated, lastRequest, lastKept⟩ := right id middle located
  refine ⟨last, lastLocated, lastRequest.trans request, fun set => ?_⟩
  cases kept set
  exact lastKept set

theorem keeps_of_advances {allowed : Nat → Future α → Prop}
    (advances : Advances allowed service.jobs next.jobs) : Keeps service next := by
  intro id job found
  obtain ⟨later, located, request, _⟩ := advances.each id job found
  refine ⟨later, located, request, fun set => ?_⟩
  have kept := advances.kept found set
  rw [located] at kept
  exact Option.some.inj kept

theorem Transition.keeps (transition : Transition settings service next) :
    Keeps service next := by
  cases transition with
  | unchanged | started | moved | abandoned | took | submitted | skipped | ended | closing
    | completed => exact Keeps.refl service
  | enqueued request =>
      intro id job found
      have inside := (List.getElem?_eq_some_iff.mp found).1
      exact ⟨job, by rw [List.getElem?_append_left inside, found], rfl, fun _ => rfl⟩
  | cancelled id job found pending =>
      exact keeps_of_advances (Advances.set (fun _ _ => True) found pending rfl trivial)
  | resumed _ _ _ _ _ _ _ advances _ => exact keeps_of_advances advances
  | stopped _ _ _ advances _ => exact keeps_of_advances advances
  | drained _ _ _ advances _ => exact keeps_of_advances advances

theorem run_keeps (valid : Valid settings service) {events : List (Event α)} {last : Service α}
    (ran : run (step settings) service events = some last) : Keeps service last :=
  run_relates (fun _ _ _ valid stepped => step_valid valid stepped) Keeps.refl
    (fun _ _ _ => Keeps.trans)
    (fun _ _ _ valid stepped => (step_transition valid stepped).keeps) ran valid

/-- What a closed service keeps: it is closed, and nothing is put into its queue. -/
def Shut (service next : Service α) : Prop :=
  service.closed = true → next.closed = true ∧ next.jobs.length = service.jobs.length

theorem Transition.shut (transition : Transition settings service next) : Shut service next := by
  intro closed
  cases transition with
  | unchanged | moved | abandoned | took | submitted | skipped | ended | completed =>
      exact ⟨closed, rfl⟩
  | started _ opened =>
      rw [closed] at opened
      cases opened
  | enqueued request prepared =>
      simp [ready, closed] at prepared
  | cancelled => exact ⟨closed, List.length_set ..⟩
  | resumed _ _ _ _ _ _ _ advances => exact ⟨closed, advances.length⟩
  | stopped _ _ _ advances => exact ⟨closed, advances.length⟩
  | closing => exact ⟨rfl, rfl⟩
  | drained _ _ _ advances => exact ⟨rfl, advances.length⟩

theorem run_shut (valid : Valid settings service) {events : List (Event α)} {last : Service α}
    (ran : run (step settings) service events = some last) : Shut service last := by
  refine run_relates (fun _ _ _ valid stepped => step_valid valid stepped)
    (fun _ closed => ⟨closed, rfl⟩) ?_
    (fun _ _ _ valid stepped => (step_transition valid stepped).shut) ran valid
  intro first second third left right closed
  obtain ⟨middle, same⟩ := left closed
  obtain ⟨last, equal⟩ := right middle
  exact ⟨last, equal.trans same⟩

/-! ## Accounting -/

theorem Valid.partition (valid : Valid settings service) :
    (service.accounted ++ (service.worker.jobs ++ service.queue)).Nodup := by
  rw [← List.append_assoc, valid.order]
  exact List.nodup_range

theorem Valid.accounted_lt (valid : Valid settings service) {id : Nat}
    (member : id ∈ service.accounted) : id < service.jobs.length := by
  rw [← List.mem_range, ← valid.order, List.append_assoc]
  exact List.mem_append_left _ member

theorem Valid.held_once (valid : Valid settings service) {id : Nat}
    (accepted : id < service.jobs.length) (open' : id ∉ service.accounted) :
    service.worker.jobs.count id + service.queue.count id = 1 := by
  have once : (List.range service.jobs.length).count id = 1 :=
    List.count_eq_one_of_mem List.nodup_range (List.mem_range.mpr accepted)
  rw [← valid.order, List.count_append, List.count_append, List.count_eq_zero.mpr open'] at once
  omega

theorem Valid.balance (valid : Valid settings service) :
    service.unfinished + service.accounted.length = service.jobs.length := by
  have sizes := congrArg List.length valid.order
  rw [List.length_append, List.length_append, List.length_range] at sizes
  have counted := valid.counted
  omega

theorem Valid.complete (valid : Valid settings service) (closed : service.closing = .complete) :
    service.queue = [] ∧ service.accounted = List.range service.jobs.length := by
  obtain ⟨queue, dead⟩ := valid.drained (.inr closed)
  have none : service.worker.jobs = [] := by
    cases worker : service.worker <;> simp_all [Worker.alive, Worker.jobs]
  refine ⟨queue, ?_⟩
  have order := valid.order
  rwa [none, queue, List.append_nil, List.append_nil] at order

/-- In every reachable state each accepted job is accounted for once or held
once, accounted jobs have set futures, no operation on a future or on the queue
has failed, and set futures stay; after `close` no job is accepted, and when it
has completed every job is accounted for. -/
theorem resolves_exactly_once {events : List (Event α)}
    (reached : run (step settings) initial events = some service) :
    (∀ id, id < service.jobs.length → id ∉ service.accounted →
      service.worker.jobs.count id + service.queue.count id = 1) ∧
    (∀ id ∈ service.accounted, Done service.jobs id) ∧
    (service.accounted.Nodup ∧ (∀ id ∈ service.accounted, id < service.jobs.length) ∧
      service.unfinished + service.accounted.length = service.jobs.length) ∧
    ((∀ error, service.worker ≠ .failed error) ∧ ∀ error, service.closing ≠ .failed error) ∧
    (∀ later last, run (step settings) service later = some last →
      (∀ (id : Nat) (job : Job α), service.jobs[id]? = some job → job.future.done = true →
        last.jobs[id]? = some job) ∧
      (service.closed = true → last.closed = true ∧ last.jobs.length = service.jobs.length)) ∧
    (service.closing = .complete → service.queue = [] ∧ service.unfinished = 0 ∧
      service.accounted = List.range service.jobs.length ∧
        ∀ id, id < service.jobs.length → Done service.jobs id) := by
  have valid := run_valid reached
  refine ⟨fun id accepted open' => valid.held_once accepted open', valid.resolved,
    ⟨(List.nodup_append.mp valid.partition).1, fun id member => valid.accounted_lt member,
      valid.balance⟩, valid.sound, ?_, ?_⟩
  · intro later last ran
    refine ⟨fun id job found set => ?_, run_shut valid ran⟩
    obtain ⟨next, located, _, kept⟩ := run_keeps valid ran id job found
    rw [located, kept set]
  · intro closed
    obtain ⟨queue, accounted⟩ := valid.complete closed
    have balance := valid.balance
    rw [accounted, List.length_range] at balance
    refine ⟨queue, by omega, accounted, fun id accepted => ?_⟩
    apply valid.resolved
    rw [accounted]
    exact List.mem_range.mpr accepted

/-! A job that is closed over while its batch runs. -/

private theorem one_request : 1 ≤ 1 ∧ 1 ≤ 4096 := by decide

def sampleSettings : ServiceSettings :=
  ⟨1, 8, 0, one_request, by decide, by decide⟩

def closingRun : List (Event Nat) :=
  [.start, .work, .work, .evaluate (noulRequest (lit "s")), .work, .close, .work, .resumeClose,
    .endCall (.returned [.ok 7]), .resumeClose]

theorem resolves_exactly_once_closing :
    ∃ service : Service Nat, run (step sampleSettings) initial closingRun = some service ∧
      service.jobs.length = 1 ∧ Done service.jobs 0 := by
  have completes : (run (step sampleSettings) initial closingRun).map
      (fun service => (service.closing, service.jobs.length)) = some (.complete, 1) := by
    decide +kernel
  obtain ⟨service, reached, shape⟩ := Option.map_eq_some_iff.mp completes
  obtain ⟨closed, one⟩ := Prod.mk.inj shape
  obtain ⟨_, _, _, _, _, complete⟩ := resolves_exactly_once reached
  exact ⟨service, reached, one, (complete closed).2.2.2 0 (by omega)⟩

end VllmVerifier.Decision.Service
