import VllmVerifier.Gateway.CallProperties
import VllmVerifier.VerificationProperties

/-!
The shared slots over whole runs. Every step is a use of the semaphore by one
task, so the slots stay consistent with all tasks of all calls; a call that is
finished has left nothing behind.
-/

set_option autoImplicit false

namespace VllmVerifier.Gateway

open Python Asyncio Machine

variable {F : Type} [LogField F] {settings : Settings}

namespace DecisionService

def status (service : DecisionService F) (runner : Runner) : Status :=
  match service.calls[runner.request]? with
  | none => .idle
  | some call => call.status runner.question

def acquired (service : DecisionService F) : Nat := (service.calls.map Call.acquired).sum

/-- The slots that tasks have acquired or that were handed to woken waiters. -/
def held (service : DecisionService F) : Nat := service.acquired + service.slots.handed

def inFlight (service : DecisionService F) : Nat := (service.calls.map Call.inFlight).sum

structure Valid (settings : Settings) (service : DecisionService F) : Prop where
  consistent : Consistent settings.maxConcurrency service.slots service.status service.acquired
  sound : ∀ call ∈ service.calls, call.Sound settings

variable {service next : DecisionService F}

theorem Valid.initial : (initial settings : DecisionService F).Valid settings :=
  ⟨.create _, fun _ member => by cases member⟩

theorem Valid.replace (valid : service.Valid settings) {request : Nat} {before after : Call F}
    {slots : Slots} (found : service.calls[request]? = some before)
    (goes : before.Goes settings request service.slots slots after) :
    Valid settings ⟨slots, service.calls.set request after⟩ := by
  obtain ⟨⟨question, shift⟩, sound⟩ := goes
  obtain ⟨bound, _⟩ := List.getElem?_eq_some_iff.mp found
  have own : ∀ question, service.status ⟨request, question⟩ = before.status question := by
    intro question
    simp [status, found]
  have moved : ∀ question, status (⟨slots, service.calls.set request after⟩ : DecisionService F)
      ⟨request, question⟩ = after.status question := by
    intro question
    simp [status, bound]
  have fits := valid.consistent.fits ⟨request, question⟩
  rw [own] at fits
  have use := shift.use fits
  rw [← own question, ← moved question] at use
  refine ⟨valid.consistent.use _ use ?_ ?_, forall_set valid.sound request sound⟩
  · intro given different
    obtain ⟨otherRequest, otherQuestion⟩ := given
    by_cases same : otherRequest = request
    · subst same
      rw [own, moved]
      exact shift.others otherQuestion fun equal => different (equal ▸ rfl)
    · simp [status, List.getElem?_set_ne (Ne.symm same)]
  · rw [own, moved]
    have sums := sum_set Call.acquired found after
    have count := shift.count
    simp only [acquired]
    omega

theorem Valid.join (valid : service.Valid settings) {call : Call F}
    (sound : call.Sound settings) (idle : ∀ question, call.status question = .idle)
    (none : call.acquired = 0) :
    Valid settings { service with calls := service.calls ++ [call] } := by
  refine ⟨valid.consistent.congr (fun runner => ?_) ?_, fun found member => ?_⟩
  · simp only [status]
    rcases Nat.lt_trichotomy runner.request service.calls.length with before | last | after
    · rw [List.getElem?_append_left before]
    · simp [last, idle]
    · rw [List.getElem?_eq_none (by simp; omega), List.getElem?_eq_none (by omega)]
  · simp [acquired, none]
  · rcases List.mem_append.mp member with earlier | last
    · exact valid.sound found earlier
    · rw [List.mem_singleton.mp last]
      exact sound

theorem onCall_some {request : Nat} {act : Call F → Option (Slots × Call F)}
    (stepped : service.onCall request act = some next) :
    ∃ before slots after, service.calls[request]? = some before ∧
      act before = some (slots, after) ∧ next = ⟨slots, service.calls.set request after⟩ := by
  unfold onCall at stepped
  cases found : service.calls[request]? with
  | none => simp [found] at stepped
  | some before =>
      cases acted : act before with
      | none => simp [found, acted] at stepped
      | some result =>
          obtain ⟨slots, after⟩ := result
          simp only [found, acted, Option.some.injEq] at stepped
          exact ⟨before, slots, after, rfl, acted, stepped.symm⟩

/-- What a step does: a call that has not touched the slots joins, or one call
goes on. -/
inductive Steps (settings : Settings) (service : DecisionService F) :
    Option Nat → DecisionService F → Prop where
  | join (call : Call F) : call.Sound settings → (∀ question, call.status question = .idle) →
      call.acquired = 0 →
        Steps settings service none { service with calls := service.calls ++ [call] }
  | goOn {request : Nat} {before after : Call F} {slots : Slots} :
      service.calls[request]? = some before →
      before.Goes settings request service.slots slots after →
      Steps settings service (some request) ⟨slots, service.calls.set request after⟩

theorem onCall_steps {request : Nat} {act : Call F → Option (Slots × Call F)}
    (valid : service.Valid settings)
    (goes : ∀ (before : Call F) (slots : Slots) (after : Call F), before.Sound settings →
      act before = some (slots, after) → before.Goes settings request service.slots slots after)
    (stepped : service.onCall request act = some next) :
    service.Steps settings (some request) next := by
  obtain ⟨before, slots, after, found, acted, rfl⟩ := onCall_some stepped
  exact .goOn found
    (goes before slots after (valid.sound before (List.mem_of_getElem? found)) acted)

end DecisionService

/-- The call that an event lets go on. -/
def Event.target : Event → Option Nat
  | .evaluate _ | .evaluateVision _ => none
  | .validated request _ | .start request _ | .resume ⟨request, _⟩ | .ended ⟨request, _⟩ _
  | .report request _ | .wake request | .cancel request => some request

open DecisionService

theorem step_steps {service next : DecisionService F} {event : Event}
    (valid : service.Valid settings) (stepped : step settings service event = some next) :
    service.Steps settings event.target next := by
  cases event with
  | evaluate request =>
      cases stepped
      have shift : Call.Shift 0 service.slots
          (⟨request, [], none, .validating, false, []⟩ : Call F) service.slots
          (Call.ofRequest settings request) none :=
        .asking rfl (Call.evaluate_created _ rfl) fun fits => by
          rw [Call.ofRequest, Call.evaluate_idle]
          exact .idle fits
      obtain ⟨idle, none⟩ := shift.joins rfl rfl (Call.evaluate_idle _)
      exact .join _ (Call.evaluate_sound _ rfl) idle none
  | evaluateVision request =>
      cases stepped
      have empty : (Call.ofVision settings request : Call F).tasks = [] := by
        unfold Call.ofVision
        dsimp only
        split <;> rfl
      have rests : (Call.ofVision settings request : Call F).phase.status = .idle := by
        unfold Call.ofVision
        dsimp only
        split <;> rfl
      refine .join _ ?_ (fun question => ?_) ?_
      · unfold Call.ofVision
        dsimp only
        split
        · rfl
        · exact fun _ member => by cases member
      · cases question with
        | none => exact rests
        | some index => simp [Call.status, empty]
      · simp [Call.acquired, empty, rests, Status.held]
  | validated request outcome =>
      exact onCall_steps valid (fun _ _ _ sound went => Call.validated_goes sound went) stepped
  | start request index =>
      exact onCall_steps valid (fun _ _ _ sound went => Call.onTask_goes sound
        (fun _ _ _ => Task.start_goes) went) stepped
  | resume runner =>
      obtain ⟨request, question⟩ := runner
      cases question with
      | none =>
          exact onCall_steps valid (fun _ _ _ sound went => Call.resume_goes sound went) stepped
      | some index =>
          exact onCall_steps valid (fun _ _ _ sound went => Call.onTask_goes sound
            (fun _ _ _ => Task.resume_goes) went) stepped
  | ended runner outcome =>
      obtain ⟨request, question⟩ := runner
      cases question with
      | none =>
          exact onCall_steps valid (fun _ _ _ sound went => Call.ended_goes sound went) stepped
      | some index =>
          exact onCall_steps valid (fun _ _ _ sound went => Call.onTask_goes sound
            (fun _ _ _ => Task.ended_goes) went) stepped
  | report request index =>
      refine onCall_steps valid (fun _ _ _ sound went => ?_) stepped
      obtain ⟨after, reported, same⟩ := Option.map_eq_some_iff.mp went
      cases same
      exact Call.report_goes sound reported
  | wake request =>
      exact onCall_steps valid (fun _ _ _ sound went => Call.wake_goes sound went) stepped
  | cancel request =>
      exact onCall_steps valid (fun _ _ _ sound went => Call.cancel_goes sound went) stepped

theorem step_valid {service next : DecisionService F} {event : Event}
    (valid : service.Valid settings) (stepped : step settings service event = some next) :
    next.Valid settings := by
  have went := step_steps valid stepped
  generalize event.target = target at went
  cases went with
  | join call sound idle none => exact valid.join sound idle none
  | goOn found goes => exact valid.replace found goes

theorem run_valid {service : DecisionService F} {events : List Event}
    (ran : run (step settings) (initial settings) events = some service) :
    service.Valid settings := by
  have kept : ∀ (state : DecisionService F) event next, state.Valid settings →
      step settings state event = some next → next.Valid settings :=
    fun _ _ _ valid stepped => step_valid valid stepped
  exact run_invariant kept ran Valid.initial

/-! ## Finished calls -/

theorem Call.inFlight_eq_acquired (call : Call F) : call.inFlight = call.acquired := by
  have phase : (if call.phase.inBackend then 1 else 0) = call.phase.status.held := by
    cases call.phase <;> rfl
  have tasks : (call.tasks.countP fun task => task.phase.inBackend) =
      (call.tasks.map fun task => task.phase.status.held).sum := by
    induction call.tasks with
    | nil => rfl
    | cons task rest ih =>
        rw [List.countP_cons, ih, List.map_cons, List.sum_cons]
        cases task.phase <;> simp [TaskPhase.inBackend, TaskPhase.status, Status.held]
        omega
  rw [inFlight, acquired, phase, tasks]

theorem DecisionService.inFlight_eq_acquired (service : DecisionService F) :
    service.inFlight = service.acquired := by
  rw [inFlight, acquired, List.map_congr_left fun call _ => call.inFlight_eq_acquired]

theorem Call.Sound.finished {call : Call F} (sound : call.Sound settings)
    (finished : call.phase.isFinished = true) : AllDone call.tasks := by
  cases phase : call.phase with
  | validating | acquiring | calling | gathering | cleaning =>
      rw [phase] at finished
      cases finished
  | returned response observation =>
      simp only [Sound, phase] at sound
      obtain ⟨results, known, _⟩ := sound
      exact allDone_of_results? known
  | raised error =>
      simpa only [Sound, phase] using sound

theorem Call.idle_of_finished {call : Call F} (done : AllDone call.tasks)
    (finished : call.phase.isFinished = true) (question : Option Nat) :
    call.status question = .idle := by
  cases question with
  | none =>
      simp only [status]
      cases phase : call.phase <;> simp_all [Phase.isFinished, Phase.status]
  | some index =>
      simp only [status]
      split
      · rfl
      · rename_i task found
        have known := done task (List.mem_of_getElem? found)
        cases phase : task.phase <;> simp_all [TaskPhase.isDone, TaskPhase.status]

theorem Call.acquired_of_finished {call : Call F} (done : AllDone call.tasks)
    (finished : call.phase.isFinished = true) : call.acquired = 0 := by
  have phase : call.phase.status = .idle := idle_of_finished done finished none
  have tasks : (call.tasks.map fun task => task.phase.status.held).sum = 0 := by
    apply List.sum_eq_zero
    intro held member
    obtain ⟨task, present, rfl⟩ := List.mem_map.mp member
    have known := done task present
    cases own : task.phase <;> simp_all [TaskPhase.isDone, TaskPhase.status, Status.held]
  rw [acquired, phase, tasks]
  rfl

theorem Call.Sound.returned {call : Call F} (sound : call.Sound settings)
    {response : SystemOneResponse F} {observation : Option Str}
    (returned : call.phase = .returned response observation) :
    ∀ task ∈ call.tasks, ∃ result, task.phase = .done (.ok result) := by
  simp only [Sound, returned] at sound
  obtain ⟨results, known, _⟩ := sound
  intro task member
  obtain ⟨result, _, phase⟩ := forall₂_mem_left (results?_some known) member
  exact ⟨result, phase⟩

/-- The slots are never oversubscribed and never leak, in every reachable state
of any interleaving of calls. -/
theorem slots_exact (settings : Settings) (events : List Event) (service : DecisionService F)
    (ran : run (step settings) (initial settings) events = some service) :
    (service.held + service.slots.value = settings.maxConcurrency ∧
      service.inFlight ≤ service.held) ∧
    (service.slots.owners.Nodup ∧
      ∀ runner, service.status runner = .holding → runner ∉ service.slots.owners) ∧
    (∀ call ∈ service.calls, call.phase.isFinished = true →
      Call.AllDone call.tasks ∧ call.inFlight = 0) ∧
    (∀ call ∈ service.calls,
      (∃ task ∈ call.tasks, ∃ error, task.phase = .done (.error error)) →
        ∀ response observation, call.phase ≠ .returned response observation) ∧
    ((∀ call ∈ service.calls, call.phase.isFinished = true) →
      service.slots.value = settings.maxConcurrency ∧ service.slots.waiters = []) := by
  have valid := run_valid ran
  have balance := valid.consistent.balance
  simp only [Semaphore.balance] at balance
  refine ⟨⟨?_, ?_⟩, ⟨valid.consistent.nodup, ?_⟩, ?_, ?_, ?_⟩
  · simp only [held]
    omega
  · rw [service.inFlight_eq_acquired]
    exact Nat.le_add_right _ _
  · intro runner holding member
    have waiting := (valid.consistent.queued runner).mp member
    rw [holding] at waiting
    cases waiting
  · intro call member finished
    have done := (valid.sound call member).finished finished
    exact ⟨done, by rw [call.inFlight_eq_acquired, Call.acquired_of_finished done finished]⟩
  · intro call member given response observation returned
    obtain ⟨task, present, error, failed⟩ := given
    obtain ⟨result, succeeded⟩ := (valid.sound call member).returned returned task present
    rw [failed] at succeeded
    cases succeeded
  · intro finished
    have idle : ∀ runner, service.status runner = .idle := by
      intro runner
      simp only [DecisionService.status]
      split
      · rfl
      · rename_i call found
        have member := List.mem_of_getElem? found
        exact Call.idle_of_finished ((valid.sound call member).finished (finished call member))
          (finished call member) runner.question
    have none : service.acquired = 0 := by
      apply List.sum_eq_zero
      intro acquired member
      obtain ⟨call, present, rfl⟩ := List.mem_map.mp member
      exact Call.acquired_of_finished ((valid.sound call present).finished (finished call present))
        (finished call present)
    have empty := valid.consistent.waiters_nil idle
    refine ⟨?_, empty⟩
    simp only [Semaphore.handed, empty, List.countP_nil] at balance
    omega

def sharedSlot : List Event :=
  [.evaluate (noulRequest (lit "s")), .evaluate (noulRequest (lit "t")), .start 0 0, .start 1 0,
    .cancel 1, .ended ⟨0, some 0⟩ (.completed ⟨lit "\x7b\"noul\":1\x7d", ⟨2, 3⟩, lit "stop"⟩),
    .resume ⟨1, some 0⟩, .report 0 0, .report 1 0, .wake 0, .wake 1, .report 0 0, .report 1 0,
    .wake 0, .wake 1]

def oneSlot : Settings := ⟨lit "m", 1, 1, by decide, by decide⟩

theorem slots_exact_shared :
    ∃ service : DecisionService ℝ,
      run (step oneSlot) (initial oneSlot) sharedSlot = some service ∧ service.slots.value = 1 := by
  have finished : (run (step oneSlot) (initial oneSlot : DecisionService ℝ) sharedSlot).map
      (fun service => service.calls.all fun call => call.phase.isFinished) = some true := by
    decide +kernel
  obtain ⟨service, ran, all⟩ := Option.map_eq_some_iff.mp finished
  obtain ⟨_, _, _, _, free⟩ := slots_exact oneSlot sharedSlot service ran
  exact ⟨service, ran, (free (List.all_eq_true.mp all)).1⟩

end VllmVerifier.Gateway
