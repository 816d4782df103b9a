import VllmVerifier.Gateway.DecideProperties
import VllmVerifier.Gateway.SlotProperties
import VllmVerifier.Semantics

/-!
Runs of the service come to an end. Every step that neither brings a new call
nor cancels one lowers the work that is left, and as long as a call is not
finished some such step can be taken.
-/

set_option autoImplicit false

namespace VllmVerifier.Gateway

open Python Asyncio Machine Semantics

variable {F : Type} [LogField F] {settings : Settings} {slots next : Slots} {runner : Runner}

/-! ## Work -/

/-- The steps that a task may still take, and the one that reports it. -/
def Task.work (settings : Settings) (task : Task F) : Nat :=
  (match task.phase with
    | .created => 2 * (settings.validationRetries + 1 - task.attempt) + 3
    | .acquiring => 2 * (settings.validationRetries + 1 - task.attempt) + 2
    | .calling _ => 2 * (settings.validationRetries + 1 - task.attempt) + 1
    | .done _ => 0) + if task.reported then 0 else 1

/-- What a caller of `evaluate_vision` has before it, up to its questions. -/
def Call.ahead (settings : Settings) (call : Call F) : Nat :=
  call.request.questions.values.length * (2 * (settings.validationRetries + 1) + 5) + 3

def Call.work (settings : Settings) (call : Call F) : Nat :=
  (match call.phase with
    | .validating => call.ahead settings + 2
    | .acquiring => call.ahead settings + 1
    | .calling _ => call.ahead settings
    | .gathering _ => call.tasks.length + 2
    | .cleaning _ _ => 1
    | .returned _ _ | .raised _ => 0) + (call.tasks.map fun task => task.work settings).sum

def DecisionService.work (settings : Settings) (service : DecisionService F) : Nat :=
  (service.calls.map fun call => call.work settings).sum

theorem Task.Move.lowers {task after : Task F} {outcome : Option Outcome}
    (move : Move settings runner slots task outcome after) :
    after.work settings < task.work settings := by
  have finishes : ∀ (last : Task F) (result : Except Raised (Answer F × Usage)),
      last.reported = task.reported → task.phase.isDone = false →
        (last.finish result).work settings < task.work settings := by
    intro last result reported open'
    unfold work finish
    cases phase : task.phase with
    | created | acquiring | calling =>
        simp only [reported]
        omega
    | done => simp [phase, TaskPhase.isDone] at open'
  have unfinished : task.phase.inBackend = true → task.phase.isDone = false := by
    cases task.phase <;> simp [TaskPhase.inBackend, TaskPhase.isDone]
  cases move with
  | wait phase =>
      simp only [work, phase]
      omega
  | ask messages phase =>
      rcases phase with phase | phase <;>
        · simp only [work, phase]
          omega
  | stop outcome open' _ _ => exact finishes task _ rfl open'
  | fail error open' => exact finishes task _ rfl open'
  | accept completion answer inBackend _ => exact finishes _ _ rfl (unfinished inBackend)
  | exhaust completion message inBackend _ _ => exact finishes _ _ rfl (unfinished inBackend)
  | retry completion message phase inBackend _ below known =>
      cases own : task.phase with
      | created | acquiring | done => simp [own, TaskPhase.inBackend] at inBackend
      | calling messages =>
          rcases known with rfl | ⟨messages, rfl⟩ <;>
            · simp only [work, spend, own]
              omega

namespace Call

variable {before after : Call F} {request : Nat}

theorem evaluate_lowers (call : Call F) (empty : call.tasks = []) :
    (call.evaluate settings).work settings < call.ahead settings := by
  unfold evaluate
  split
  · have sum : ((call.request.questions.values.map (Task.create (F := F))).map
        fun task => task.work settings).sum =
        call.request.questions.values.length * (2 * (settings.validationRetries + 1) + 4) := by
      rw [List.map_map]
      generalize call.request.questions.values = questions
      induction questions with
      | nil => simp
      | cons question rest ih =>
          rw [List.map_cons, List.sum_cons, ih, List.length_cons]
          simp only [Function.comp, Task.create, Task.work, Nat.sub_zero, Nat.add_mul]
          simp
          omega
    simp only [work, ahead, sum, List.length_map, Nat.mul_add]
    omega
  · simp [work, raise, ahead, empty]

theorem validated_lowers {outcome : Except PyException Unit}
    (went : before.validated ⟨request, none⟩ slots outcome = some (next, after)) :
    after.work settings < before.work settings := by
  unfold validated at went
  split at went
  case h_1 phase =>
    split at went
    · cases went
      simp only [work, phase]
      omega
    · split at went
      · cases went
        simp only [work, raise, phase]
        omega
      · simp only [Option.some.injEq, Prod.mk.injEq] at went
        obtain ⟨_, rfl⟩ := went
        cases (slots.acquire ⟨request, none⟩).2 <;> simp [work, ahead, phase]
  all_goals cases went

theorem resume_lowers (went : before.resume ⟨request, none⟩ slots = some (next, after)) :
    after.work settings < before.work settings := by
  unfold resume at went
  split at went
  case h_1 phase =>
    split at went
    · cases went
    · simp only [Option.some.injEq, Prod.mk.injEq] at went
      obtain ⟨_, rfl⟩ := went
      simp [work, ahead, phase]
    · simp only [Option.some.injEq, Prod.mk.injEq] at went
      obtain ⟨_, rfl⟩ := went
      simp [work, phase]
  all_goals cases went

theorem ended_lowers {outcome : Outcome} (sound : Sound settings before)
    (went : before.ended settings slots outcome = some (next, after)) :
    after.work settings < before.work settings := by
  unfold ended at went
  split at went
  case h_1 messages phase =>
    have empty : before.tasks = [] := by simpa [Sound, phase] using sound
    have raised : ∀ error, work settings { before with phase := .raised error } <
        before.work settings := by
      intro error
      simp [work, ahead, phase, empty]
    cases outcome with
    | raised error =>
        cases went
        exact raised _
    | cancelled =>
        dsimp only at went
        split at went
        · cases went
          exact raised _
        · cases went
    | completed completion =>
        simp only [Option.some.injEq, Prod.mk.injEq] at went
        obtain ⟨_, rfl⟩ := went
        unfold observe
        split
        · exact raised _
        · have lower : work settings before = before.ahead settings := by simp [work, phase, empty]
          rw [lower]
          exact evaluate_lowers _ empty
  all_goals cases went

theorem onTask_lowers {index : Nat} {act : Task F → Option (Slots × Task F)}
    (acts : ∀ (task : Task F) (middle : Slots) (later : Task F), before.tasks[index]? = some task →
      act task = some (middle, later) → later.work settings < task.work settings)
    (went : before.onTask index act = some (next, after)) :
    after.work settings < before.work settings := by
  unfold onTask at went
  cases found : before.tasks[index]? with
  | none => simp [found] at went
  | some task =>
      cases acted : act task with
      | none => simp [found, acted] at went
      | some result =>
          obtain ⟨middle, later⟩ := result
          simp only [found, acted, Option.some.injEq, Prod.mk.injEq] at went
          obtain ⟨_, rfl⟩ := went
          have lower := acts task middle later found acted
          have sums := sum_set (fun task : Task F => task.work settings) found later
          simp only [work, ahead, List.length_set]
          omega

theorem report_lowers {index : Nat} (went : before.report index = some after) :
    after.work settings < before.work settings := by
  unfold report at went
  split at went
  case h_1 => cases went
  case h_2 task found =>
    split at went
    case h_2 => cases went
    case h_1 result done unheard =>
      have sums := sum_set (fun task : Task F => task.work settings) found
        { task with reported := true }
      have lower : Task.work settings { task with reported := true } + 1 = task.work settings := by
        simp [Task.work, done, unheard]
      split at went
      case h_1 gather phase =>
        simp only [Option.some.injEq] at went
        subst went
        simp only [work, phase, List.length_set]
        omega
      case h_2 gather pending phase =>
        simp only [Option.some.injEq] at went
        subst went
        simp only [work, phase]
        omega
      all_goals cases went

theorem reset_work (settings : Settings) {tasks later : List (Task F)}
    (flags : List.Forall₂ (fun task after : Task F => ∃ mustCancel, after = { task with mustCancel })
      tasks later) :
    ((later.map fun task => { task with reported := false }).map
        fun task => task.work settings).sum ≤
      (tasks.map fun task => task.work settings).sum + tasks.length := by
  induction flags with
  | nil => simp
  | @cons task after rest others flag _ ih =>
      obtain ⟨mustCancel, rfl⟩ := flag
      have own : Task.work settings { task with mustCancel, reported := false } ≤
          task.work settings + 1 := by
        simp only [Task.work, Bool.false_eq_true, reduceIte]
        omega
      simp only [List.map_cons, List.sum_cons, List.length_cons]
      omega

theorem wake_lowers (went : before.wake settings request slots = some (next, after)) :
    after.work settings < before.work settings := by
  unfold wake at went
  split at went
  case h_1 gather phase =>
    split at went
    case h_1 => cases went
    case h_2 outer settled =>
      simp only [Option.some.injEq, Prod.mk.injEq] at went
      obtain ⟨_, rfl⟩ := went
      have reset := reset_work settings (cancelTasks_flags request 0 slots before.tasks)
      simp only [work, phase]
      omega
  case h_2 gather pending phase =>
    split at went
    case h_1 => cases went
    case h_2 outer settled =>
      simp only [Option.some.injEq, Prod.mk.injEq] at went
      obtain ⟨_, rfl⟩ := went
      have concluded : ∀ result : Phase F, result.isFinished = true →
          work settings { before with phase := result } < before.work settings := by
        intro result finished
        cases result <;> simp_all [Phase.isFinished, work]
      apply concluded
      split
      · rfl
      · rfl
      · rename_i results _
        rcases before.conclude_cases settings results with
          ⟨response, observation, returned⟩ | ⟨error, failed⟩
        · rw [returned]
          rfl
        · rw [failed]
          rfl
  all_goals cases went

end Call

/-- Neither a new call nor a cancellation. -/
def Event.inner : Event → Bool
  | .evaluate _ | .evaluateVision _ | .cancel _ => false
  | .validated _ _ | .start _ _ | .resume _ | .ended _ _ | .report _ _ | .wake _ => true

namespace DecisionService

variable {service later : DecisionService F}

theorem onCall_lowers {request : Nat} {act : Call F → Option (Slots × Call F)}
    (acts : ∀ (before : Call F) (slots : Slots) (after : Call F),
      service.calls[request]? = some before → act before = some (slots, after) →
        after.work settings < before.work settings)
    (stepped : service.onCall request act = some later) :
    later.work settings < service.work settings := by
  obtain ⟨before, slots, after, found, acted, rfl⟩ := onCall_some stepped
  have lower := acts before slots after found acted
  have sums := sum_set (fun call : Call F => call.work settings) found after
  simp only [work]
  omega

theorem Valid.task_fits (valid : service.Valid settings) {request index : Nat} {call : Call F}
    {task : Task F} (found : service.calls[request]? = some call)
    (located : call.tasks[index]? = some task) :
    Fits ⟨request, some index⟩ service.slots task.phase.status := by
  have fits := valid.consistent.fits ⟨request, some index⟩
  simpa [status, found, Call.status, located] using fits

end DecisionService

/-- Every inner step lowers the work that is left. -/
theorem step_lowers {service later : DecisionService F} {event : Event}
    (valid : service.Valid settings) (inner : event.inner = true)
    (stepped : step settings service event = some later) :
    later.work settings < service.work settings := by
  cases event with
  | evaluate | evaluateVision | cancel => cases inner
  | validated request outcome =>
      exact DecisionService.onCall_lowers (fun _ _ _ _ went => Call.validated_lowers went) stepped
  | start request index =>
      exact DecisionService.onCall_lowers (fun _ _ _ _ went => Call.onTask_lowers
        (fun _ _ _ _ acted => (Task.start_move acted).lowers) went) stepped
  | resume runner =>
      obtain ⟨request, question⟩ := runner
      cases question with
      | none =>
          exact DecisionService.onCall_lowers (fun _ _ _ _ went => Call.resume_lowers went) stepped
      | some index =>
          exact DecisionService.onCall_lowers (fun _ _ _ found went => Call.onTask_lowers
            (fun _ _ _ located acted =>
              (Task.resume_move (valid.task_fits found located) acted).lowers) went) stepped
  | ended runner outcome =>
      obtain ⟨request, question⟩ := runner
      cases question with
      | none =>
          exact DecisionService.onCall_lowers (fun before _ _ found went =>
            Call.ended_lowers (valid.sound before (List.mem_of_getElem? found)) went) stepped
      | some index =>
          exact DecisionService.onCall_lowers (fun _ _ _ _ went => Call.onTask_lowers
            (fun _ _ _ _ acted => (Task.ended_move acted).lowers) went) stepped
  | report request index =>
      refine DecisionService.onCall_lowers (fun _ _ _ _ went => ?_) stepped
      obtain ⟨after, reported, same⟩ := Option.map_eq_some_iff.mp went
      cases same
      exact Call.report_lowers reported
  | wake request =>
      exact DecisionService.onCall_lowers (fun _ _ _ _ went => Call.wake_lowers went) stepped

/-! ## Enabled steps -/

/-- The request is not cancelled, and each of its questions is answered by the
oracle. -/
def obeys (oracle : Oracle) (request : Nat) (service : DecisionService F) : Event → Bool
  | .cancel target => decide (target ≠ request)
  | .ended ⟨target, some index⟩ outcome =>
      decide (target ≠ request) || decide (outcome = .cancelled) ||
        match service.calls[target]? with
        | none => true
        | some call =>
            match call.tasks[index]? with
            | none => true
            | some task =>
                decide (outcome =
                  .completed (oracle call.request.state task.question task.attempt))
  | .evaluate _ | .evaluateVision _ | .validated _ _ | .start _ _ | .resume _ | .ended ⟨_, none⟩ _
  | .report _ _ | .wake _ => true

/-- A step that the service can take. -/
def Enabled (settings : Settings) (oracle : Oracle) (request : Nat)
    (service : DecisionService F) : Prop :=
  ∃ event, event.inner = true ∧ obeys oracle request service event = true ∧
    (step settings service event).isSome = true

namespace DecisionService

variable {service : DecisionService F} {oracle : Oracle} {request : Nat}

theorem onCall_isSome {target : Nat} {call : Call F} {act : Call F → Option (Slots × Call F)}
    (found : service.calls[target]? = some call) (acts : (act call).isSome = true) :
    (service.onCall target act).isSome = true := by
  obtain ⟨⟨slots, after⟩, acted⟩ := Option.isSome_iff_exists.mp acts
  simp [onCall, found, acted]

theorem onTask_isSome {call : Call F} {index : Nat} {task : Task F}
    {act : Task F → Option (Slots × Task F)} (found : call.tasks[index]? = some task)
    (acts : (act task).isSome = true) : (call.onTask index act).isSome = true := by
  obtain ⟨⟨slots, after⟩, acted⟩ := Option.isSome_iff_exists.mp acts
  simp [Call.onTask, found, acted]

theorem exists_of_status {runner : Runner} {status : Status} (known : status ≠ .idle)
    (has : service.status runner = status) :
    ∃ call, service.calls[runner.request]? = some call ∧ call.status runner.question = status := by
  unfold DecisionService.status at has
  split at has
  · exact absurd has.symm known
  · rename_i call found
    exact ⟨call, found, has⟩

theorem exists_task {call : Call F} {index : Nat} {status : Status} (known : status ≠ .idle)
    (has : call.status (some index) = status) :
    ∃ task, call.tasks[index]? = some task ∧ task.phase.status = status := by
  simp only [Call.status] at has
  split at has
  · exact absurd has.symm known
  · rename_i task found
    exact ⟨task, found, has⟩

theorem resumed_isSome {slots : Slots} {runner : Runner} {future : Future} (mustCancel : Bool)
    (found : slots.future? runner = some future) (done : future ≠ .pending) :
    ∃ next acquired, resumed slots runner mustCancel = some (next, acquired) := by
  unfold resumed
  cases future with
  | pending => exact absurd rfl done
  | woken | cancelled => exact ⟨_, _, by rw [found]⟩

theorem enabled_of_woken {runner : Runner} {future : Future}
    (waits : service.status runner = .waiting) (found : service.slots.future? runner = some future)
    (done : future ≠ .pending) : Enabled settings oracle request service := by
  obtain ⟨call, located, has⟩ := exists_of_status (by simp) waits
  obtain ⟨target, question⟩ := runner
  refine ⟨.resume ⟨target, question⟩, rfl, rfl, ?_⟩
  cases question with
  | none =>
      refine onCall_isSome located ?_
      obtain ⟨next, acquired, woke⟩ := resumed_isSome call.mustCancel found done
      have phase : call.phase = .acquiring := by
        cases phase : call.phase <;> simp_all [Call.status, Phase.status]
      cases acquired <;> simp [Call.resume, phase, woke]
  | some index =>
      obtain ⟨task, position, has⟩ := exists_task (by simp) has
      refine onCall_isSome located (onTask_isSome position ?_)
      obtain ⟨next, acquired, woke⟩ := resumed_isSome task.mustCancel found done
      have phase : task.phase = .acquiring := by
        cases phase : task.phase <;> simp_all [TaskPhase.status]
      cases acquired <;> simp [Task.resume, phase, woke]

theorem enabled_of_holding (runner : Runner) (holds : service.status runner = .holding) :
    Enabled settings oracle request service := by
  obtain ⟨call, located, has⟩ := exists_of_status (by simp) holds
  obtain ⟨target, question⟩ := runner
  cases question with
  | none =>
      refine ⟨.ended ⟨target, none⟩ (.raised .memoryError), rfl, rfl, onCall_isSome located ?_⟩
      obtain ⟨messages, phase⟩ : ∃ messages, call.phase = .calling messages := by
        cases phase : call.phase <;> simp_all [Call.status, Phase.status]
      simp [Call.ended, phase]
  | some index =>
      obtain ⟨task, position, has⟩ := exists_task (by simp) has
      refine ⟨.ended ⟨target, some index⟩
        (.completed (oracle call.request.state task.question task.attempt)), rfl, ?_,
        onCall_isSome located (onTask_isSome position ?_)⟩
      · simp only at located
        simp [obeys, located, position]
      · obtain ⟨messages, phase⟩ : ∃ messages, task.phase = .calling messages := by
          cases phase : task.phase <;> simp_all [TaskPhase.status]
        simp [Task.ended, phase]

theorem exists_holding (positive : 0 < service.acquired) :
    ∃ runner, service.status runner = .holding := by
  have sum : (service.calls.map Call.acquired).sum ≠ 0 := Nat.ne_of_gt positive
  obtain ⟨acquired, member, nonzero⟩ : ∃ acquired ∈ service.calls.map Call.acquired,
      acquired ≠ 0 := by
    by_contra none
    simp only [not_exists, not_and, not_not] at none
    exact sum (List.sum_eq_zero none)
  obtain ⟨call, present, rfl⟩ := List.mem_map.mp member
  obtain ⟨target, located⟩ := List.getElem?_of_mem present
  have held : ∀ status : Status, status.held ≠ 0 → status = .holding := by
    intro status
    cases status <;> simp [Status.held]
  by_cases own : call.phase.status.held = 0
  · have tasks : (call.tasks.map fun task => task.phase.status.held).sum ≠ 0 := by
      intro none
      exact nonzero (by rw [Call.acquired, own, none])
    obtain ⟨count, counted, positive⟩ :
        ∃ count ∈ call.tasks.map (fun task => task.phase.status.held), count ≠ 0 := by
      by_contra none
      simp only [not_exists, not_and, not_not] at none
      exact tasks (List.sum_eq_zero none)
    obtain ⟨task, among, rfl⟩ := List.mem_map.mp counted
    obtain ⟨index, position⟩ := List.getElem?_of_mem among
    exact ⟨⟨target, some index⟩, by simp [status, located, Call.status, position, held _ positive]⟩
  · exact ⟨⟨target, none⟩, by simp [status, located, Call.status, held _ own]⟩

theorem enabled_of_waiting (valid : service.Valid settings) (runner : Runner)
    (waits : service.status runner = .waiting) : Enabled settings oracle request service := by
  rcases valid.consistent.someone settings.concurrencyRange.1 waits with
    ⟨other, future, otherWaits, found, done⟩ | positive
  · exact enabled_of_woken otherWaits found done
  · obtain ⟨holder, holds⟩ := exists_holding positive
    exact enabled_of_holding holder holds

/-- A task that a `gather` expects can go on, or another one can. -/
theorem enabled_of_expects (valid : service.Valid settings) {target : Nat} {call : Call F}
    (located : service.calls[target]? = some call) (expects : Call.Expects call.tasks)
    (gathers : (∃ gather, call.phase = .gathering gather) ∨
      ∃ gather pending, call.phase = .cleaning gather pending) :
    Enabled settings oracle request service := by
  obtain ⟨task, member, unheard⟩ := expects
  obtain ⟨index, position⟩ := List.getElem?_of_mem member
  cases phase : task.phase with
  | created =>
      refine ⟨.start target index, rfl, rfl, onCall_isSome located (onTask_isSome position ?_)⟩
      cases flag : task.mustCancel <;> simp [Task.start, phase, flag]
  | acquiring =>
      apply enabled_of_waiting valid ⟨target, some index⟩
      simp [status, located, Call.status, position, phase, TaskPhase.status]
  | calling messages =>
      apply enabled_of_holding ⟨target, some index⟩
      simp [status, located, Call.status, position, phase, TaskPhase.status]
  | done result =>
      refine ⟨.report target index, rfl, rfl, onCall_isSome located ?_⟩
      rcases gathers with ⟨gather, own⟩ | ⟨gather, pending, own⟩ <;>
        simp [Call.report, position, phase, unheard, own]

/-- As long as a call is not finished, some inner step can be taken. -/
theorem Valid.progress (valid : service.Valid settings) {target : Nat} {call : Call F}
    (located : service.calls[target]? = some call) (unfinished : call.phase.isFinished = false) :
    Enabled settings oracle request service := by
  have sound := valid.sound call (List.mem_of_getElem? located)
  have own : service.status ⟨target, none⟩ = call.phase.status := by
    simp [status, located, Call.status]
  cases phase : call.phase with
  | validating =>
      refine ⟨.validated target (.ok ()), rfl, rfl, onCall_isSome located ?_⟩
      cases flag : call.mustCancel <;> simp [Call.validated, phase, flag]
  | acquiring => exact enabled_of_waiting valid _ (own.trans (by rw [phase]; rfl))
  | calling messages => exact enabled_of_holding _ (own.trans (by rw [phase]; rfl))
  | returned | raised =>
      rw [phase] at unfinished
      cases unfinished
  | gathering gather =>
      cases outer : gather.outer with
      | some result =>
          refine ⟨.wake target, rfl, rfl, onCall_isSome located ?_⟩
          simp [Call.wake, phase, outer]
      | none =>
          simp only [Call.Sound, phase] at sound
          exact enabled_of_expects valid located (sound.2.1 outer).1 (.inl ⟨gather, phase⟩)
  | cleaning gather pending =>
      cases outer : gather.outer with
      | some result =>
          refine ⟨.wake target, rfl, rfl, onCall_isSome located ?_⟩
          simp [Call.wake, phase, outer]
      | none =>
          simp only [Call.Sound, phase] at sound
          exact enabled_of_expects valid located (sound.2.1 outer) (.inr ⟨gather, pending, phase⟩)

end DecisionService

end VllmVerifier.Gateway
