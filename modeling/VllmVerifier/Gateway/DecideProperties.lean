import VllmVerifier.Gateway.TaskProperties
import VllmVerifier.VerificationProperties

/-!
The loop of `decide`. Everything that a question task can do between two awaits
is one of a few moves, with the attempt it is at, the completion it has read and
what that completion was judged to be.
-/

set_option autoImplicit false

namespace VllmVerifier.Gateway

open Python Asyncio

variable {F : Type} [LogField F] {settings : Settings} {slots next : Slots} {runner : Runner}

theorem judge_rejects {question : Question} {completion : Completion} {error : PyException}
    (rejected : judge (F := F) question completion = .error error) :
    ∃ message, error = .invalidOutput message := by
  unfold judge at rejected
  split at rejected
  · exact verify_only completion.text question error rejected
  · cases rejected
    exact ⟨_, rfl⟩

namespace Task

variable {state : Content} {task after : Task F}

/-- The local variables after one more completion. -/
def spend (task : Task F) (completion : Completion) : Task F :=
  { task with
    mustCancel := false, attempt := task.attempt + 1, usage := task.usage.add completion.usage }

/-- The moves of a task, with how its backend call ended if it did. -/
inductive Move (settings : Settings) (runner : Runner) (slots : Slots) (task : Task F) :
    Option Outcome → Task F → Prop where
  | wait : task.phase = .created → Move settings runner slots task none
      { task with phase := .acquiring }
  | ask (messages : List Message) : task.phase = .created ∨ task.phase = .acquiring →
      Move settings runner slots task none { task with phase := .calling messages }
  | stop (outcome : Option Outcome) : task.phase.isDone = false →
      outcome = none ∨ outcome = some .cancelled →
      task.mustCancel = true ∨ slots.future? runner = some .cancelled →
      Move settings runner slots task outcome (task.finish (.error .cancelled))
  | fail (error : PyException) : task.phase.isDone = false →
      Move settings runner slots task (some (.raised error))
        (task.finish (.error (.error error)))
  | accept (completion : Completion) (answer : Answer F) : task.phase.inBackend = true →
      judge task.question completion = .ok answer →
      Move settings runner slots task (some (.completed completion))
        ((task.spend completion).finish (.ok (answer, (task.spend completion).usage)))
  | retry (completion : Completion) (message : String) (phase : TaskPhase F) :
      task.phase.inBackend = true →
      judge (F := F) task.question completion = .error (.invalidOutput message) →
      task.attempt < settings.validationRetries →
      phase = .acquiring ∨ (∃ messages, phase = .calling messages) →
      Move settings runner slots task (some (.completed completion))
        { task.spend completion with correction := some message, phase }
  | exhaust (completion : Completion) (message : String) : task.phase.inBackend = true →
      judge (F := F) task.question completion = .error (.invalidOutput message) →
      settings.validationRetries ≤ task.attempt →
      Move settings runner slots task (some (.completed completion))
        (Task.finish { task.spend completion with correction := some message }
          (.error (.error (.serviceError invalidModelOutput))))

theorem Move.question {settings : Settings} {runner : Runner} {slots : Slots}
    {task after : Task F} {outcome : Option Outcome}
    (move : Move settings runner slots task outcome after) : after.question = task.question := by
  cases move <;> rfl

theorem call_eq (state : Content) (slots : Slots) (task : Task F) :
    ∃ messages, task.call state slots = (slots, { task with phase := .calling messages }) := by
  obtain ⟨messages, rendered⟩ := decisionMessages_ok state task.question task.correction
  exact ⟨messages, by rw [call, rendered]⟩

theorem enter_eq (state : Content) (runner : Runner) (slots : Slots) (task : Task F) :
    ∃ phase, (task.enter state runner slots).2 = { task with phase } ∧
      (phase = .acquiring ∨ ∃ messages, phase = .calling messages) := by
  unfold enter
  dsimp only
  split
  · obtain ⟨messages, called⟩ := call_eq state (slots.acquire runner).1 task
    exact ⟨_, by rw [called], .inr ⟨messages, rfl⟩⟩
  · exact ⟨_, rfl, .inl rfl⟩

theorem start_move (went : task.start state runner slots = some (next, after)) :
    Move settings runner slots task none after := by
  unfold start at went
  split at went
  case h_1 phase =>
    split at went
    · rename_i cancelled
      cases went
      exact .stop none (by rw [phase]; rfl) (.inl rfl) (.inl cancelled)
    · obtain ⟨entered, shape, known⟩ := enter_eq state runner slots task
      have same := congrArg Prod.snd (Option.some.inj went)
      rw [shape] at same
      subst same
      rcases known with rfl | ⟨messages, rfl⟩
      · exact .wait phase
      · exact .ask messages (.inl phase)
  all_goals cases went

theorem resumed_kept {mustCancel : Bool}
    (went : resumed slots runner mustCancel = some (next, false))
    (fits : Fits runner slots .waiting) :
    mustCancel = true ∨ slots.future? runner = some .cancelled := by
  unfold resumed at went
  cases found : slots.future? runner with
  | none => simp [found] at went
  | some future =>
      cases future with
      | pending => simp [found] at went
      | cancelled => exact .inr rfl
      | woken =>
          simp only [found, Option.some.injEq] at went
          have spec := (Semaphore.resume_spec mustCancel found (by simp) (by simp) fits.live).1
          rw [went] at spec
          exact .inl (by simpa using spec)

theorem resume_move (fits : Fits runner slots task.phase.status)
    (went : task.resume state runner slots = some (next, after)) :
    Move settings runner slots task none after := by
  unfold resume at went
  split at went
  case h_1 phase =>
    rw [phase] at fits
    cases woke : resumed slots runner task.mustCancel with
    | none => simp [woke] at went
    | some result =>
        obtain ⟨middle, acquired⟩ := result
        cases acquired with
        | true =>
            obtain ⟨messages, called⟩ := call_eq state middle task
            simp only [woke, called, Option.some.injEq, Prod.mk.injEq] at went
            obtain ⟨_, rfl⟩ := went
            exact .ask messages (.inr phase)
        | false =>
            simp only [woke, Option.some.injEq, Prod.mk.injEq] at went
            obtain ⟨_, rfl⟩ := went
            exact .stop none (by rw [phase]; rfl) (.inl rfl) (resumed_kept woke fits)
  all_goals cases went

theorem settle_move {completion : Completion} (middle : Slots) (open' : task.phase.inBackend = true)
    (went : (task.settle settings state runner middle completion).2 = after) :
    Move settings runner slots task (some (.completed completion)) after := by
  unfold settle at went
  dsimp only at went
  split at went
  · rename_i answer accepted
    subst went
    exact .accept completion answer open' accepted
  · rename_i message rejected
    split at went
    · rename_i below
      obtain ⟨phase, shape, known⟩ := enter_eq state runner middle
        { task.spend completion with correction := some message }
      have same := shape.symm.trans went
      subst same
      exact .retry completion message phase open' rejected (Nat.lt_of_succ_lt_succ below) known
    · rename_i above
      subst went
      exact .exhaust completion message open' rejected
        (Nat.le_of_lt_succ (Nat.lt_of_not_le fun small => above (Nat.succ_lt_succ small)))
  · rename_i error other rejected
    obtain ⟨message, rfl⟩ := judge_rejects rejected
    exact absurd rfl (other message)

theorem ended_move {outcome : Outcome}
    (went : task.ended settings state runner slots outcome = some (next, after)) :
    Move settings runner slots task (some outcome) after := by
  unfold ended at went
  split at went
  case h_1 messages phase =>
    cases outcome with
    | completed completion =>
        exact settle_move slots.release (by rw [phase]; rfl)
          (congrArg Prod.snd (Option.some.inj went))
    | raised error =>
        cases went
        exact .fail error (by rw [phase]; rfl)
    | cancelled =>
        dsimp only at went
        split at went
        · rename_i cancelled
          cases went
          exact .stop _ (by rw [phase]; rfl) (.inr rfl) (.inl cancelled)
        · cases went
  all_goals cases went

end Task

end VllmVerifier.Gateway
