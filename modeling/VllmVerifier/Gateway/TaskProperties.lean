import VllmVerifier.Gateway.Service

/-!
The slots under one task. Whatever a task does between two awaits is a use of
the semaphore that takes it from the status of one phase to that of the next.
-/

set_option autoImplicit false

namespace VllmVerifier.Gateway

open Python Asyncio

variable {F : Type} [LogField F] {settings : Settings} {slots next : Slots} {runner : Runner}
  {own : Runner → Prop}

theorem resumed_use {mustCancel acquired : Bool} (fits : Fits runner slots .waiting)
    (went : resumed slots runner mustCancel = some (next, acquired)) :
    Use own runner slots .waiting next (if acquired then .holding else .idle) := by
  unfold resumed at went
  cases found : slots.future? runner with
  | none => simp [found] at went
  | some future =>
      cases future with
      | pending => simp [found] at went
      | woken =>
          simp only [found, Option.some.injEq] at went
          have use : Use own runner slots .waiting (slots.resume runner mustCancel).1
              (if mustCancel then .idle else .holding) :=
            .resume mustCancel fits found (by simp) (by simp)
          have spec := (Semaphore.resume_spec mustCancel found (by simp) (by simp) fits.live).1
          rw [went] at use spec
          cases mustCancel <;> simp_all
      | cancelled =>
          simp only [found, Option.some.injEq] at went
          have use : Use own runner slots .waiting (slots.resume runner true).1 .idle :=
            .resume true fits found (by simp) (by simp)
          have spec := (Semaphore.resume_spec true found (by simp) (by simp) fits.live).1
          rw [went] at use spec
          simp_all

theorem interrupt_use {status : Status} (mustCancel : Bool) {other : Runner}
    (fits : Fits runner slots status) (known : own other) :
    Use own runner slots status (interrupt slots other mustCancel).1 status := by
  unfold interrupt
  split
  · exact .cancel fits known
  · exact .idle fits

namespace Task

variable {state : Content} {task after : Task F}

theorem call_use (fits : Fits runner slots .holding) :
    Use own runner slots .holding (task.call state slots).1
      (task.call state slots).2.phase.status := by
  unfold call
  split
  · exact .idle fits
  · exact .release fits

theorem enter_use (fits : Fits runner slots .idle) :
    Use own runner slots .idle (task.enter state runner slots).1
      (task.enter state runner slots).2.phase.status := by
  have acquired : Use own runner slots .idle _ _ := .acquire fits
  unfold enter
  dsimp only
  split
  · rename_i now
    rw [if_pos now] at acquired
    exact acquired.andThen (call_use acquired.fits)
  · rename_i later
    rw [if_neg later] at acquired
    exact acquired

theorem settle_use {completion : Completion} (fits : Fits runner slots .idle) :
    Use own runner slots .idle (task.settle settings state runner slots completion).1
      (task.settle settings state runner slots completion).2.phase.status := by
  unfold settle
  dsimp only
  split
  · exact .idle fits
  · split
    · exact enter_use fits
    · exact .idle fits
  · exact .idle fits

theorem call_reported : (task.call state slots).2.reported = task.reported := by
  unfold call
  split <;> rfl

theorem enter_reported : (task.enter state runner slots).2.reported = task.reported := by
  unfold enter
  dsimp only
  split
  · exact call_reported
  · rfl

theorem settle_reported {completion : Completion} :
    (task.settle settings state runner slots completion).2.reported = task.reported := by
  unfold settle
  dsimp only
  split
  · rfl
  · split
    · exact enter_reported
    · rfl
  · rfl

/-- What one step of a question task does to the slots and to itself. -/
structure Goes (own : Runner → Prop) (runner : Runner) (slots : Slots) (task : Task F)
    (next : Slots) (after : Task F) : Prop where
  unfinished : task.phase.isDone = false
  reported : after.reported = task.reported
  use : Fits runner slots task.phase.status →
    Use own runner slots task.phase.status next after.phase.status

theorem start_goes (went : task.start state runner slots = some (next, after)) :
    Goes own runner slots task next after := by
  unfold start at went
  cases phase : task.phase with
  | acquiring | calling | done => simp [phase] at went
  | created =>
      simp only [phase] at went
      split at went
      · cases went
        exact ⟨by rw [phase]; rfl, rfl, fun fits => by rw [phase] at fits ⊢; exact .idle fits⟩
      · have called := congrArg Prod.fst (Option.some.inj went)
        have same := congrArg Prod.snd (Option.some.inj went)
        dsimp only at called same
        refine ⟨by rw [phase]; rfl, same ▸ enter_reported, fun fits => ?_⟩
        rw [phase] at fits ⊢
        rw [← called, ← same]
        exact enter_use fits

theorem resume_goes (went : task.resume state runner slots = some (next, after)) :
    Goes own runner slots task next after := by
  unfold resume at went
  cases phase : task.phase with
  | created | calling | done => simp [phase] at went
  | acquiring =>
      simp only [phase] at went
      cases woke : resumed slots runner task.mustCancel with
      | none => simp [woke] at went
      | some result =>
          obtain ⟨middle, acquired⟩ := result
          cases acquired with
          | true =>
              simp only [woke] at went
              have called := congrArg Prod.fst (Option.some.inj went)
              have same := congrArg Prod.snd (Option.some.inj went)
              dsimp only at called same
              refine ⟨by rw [phase]; rfl, same ▸ call_reported, fun fits => ?_⟩
              rw [phase] at fits ⊢
              have first : Use own runner slots .waiting middle .holding := resumed_use fits woke
              rw [← called, ← same]
              exact first.andThen (call_use first.fits)
          | false =>
              simp only [woke, Option.some.injEq, Prod.mk.injEq] at went
              obtain ⟨rfl, rfl⟩ := went
              refine ⟨by rw [phase]; rfl, rfl, fun fits => ?_⟩
              rw [phase] at fits ⊢
              exact resumed_use fits woke

theorem ended_goes {outcome : Outcome}
    (went : task.ended settings state runner slots outcome = some (next, after)) :
    Goes own runner slots task next after := by
  unfold ended at went
  cases phase : task.phase with
  | created | acquiring | done => simp [phase] at went
  | calling messages =>
      simp only [phase] at went
      cases outcome with
      | completed completion =>
          have called := congrArg Prod.fst (Option.some.inj went)
          have same := congrArg Prod.snd (Option.some.inj went)
          dsimp only at called same
          refine ⟨by rw [phase]; rfl, same ▸ settle_reported, fun fits => ?_⟩
          rw [phase] at fits ⊢
          have first : Use own runner slots .holding _ _ := .release fits
          rw [← called, ← same]
          exact first.andThen (settle_use first.fits)
      | raised error =>
          cases went
          exact ⟨by rw [phase]; rfl, rfl, fun fits => by rw [phase] at fits ⊢; exact .release fits⟩
      | cancelled =>
          dsimp only at went
          split at went
          · cases went
            exact ⟨by rw [phase]; rfl, rfl,
              fun fits => by rw [phase] at fits ⊢; exact .release fits⟩
          · cases went

/-! ## Cancellation -/

theorem cancel_use {status : Status} (task : Task F) {other : Runner}
    (fits : Fits runner slots status) (known : own other) :
    Use own runner slots status (task.cancel other slots).1 status := by
  unfold cancel
  split
  · exact .idle fits
  · exact interrupt_use _ fits known
  · exact .idle fits
  · exact .idle fits

theorem cancel_flag (task : Task F) (other : Runner) :
    ∃ mustCancel, (task.cancel other slots).2 = { task with mustCancel } := by
  unfold cancel
  split
  · exact ⟨task.mustCancel, rfl⟩
  · exact ⟨_, rfl⟩
  · exact ⟨true, rfl⟩
  · exact ⟨true, rfl⟩

end Task

theorem cancelTasks_use {status : Status} {request : Nat} (index : Nat) (tasks : List (Task F))
    (fits : Fits runner slots status) (known : ∀ index, own ⟨request, some index⟩) :
    Use own runner slots status (cancelTasks request index slots tasks).1 status := by
  induction tasks generalizing slots index with
  | nil => exact .idle fits
  | cons task rest ih =>
      have first := Task.cancel_use task fits (known index)
      exact first.andThen (ih (index + 1) first.fits)

theorem cancelTasks_flags (request index : Nat) (slots : Slots) (tasks : List (Task F)) :
    List.Forall₂ (fun task after => ∃ mustCancel, after = { task with mustCancel }) tasks
      (cancelTasks request index slots tasks).2 := by
  induction tasks generalizing slots index with
  | nil => exact .nil
  | cons task rest ih => exact .cons (Task.cancel_flag task _) (ih (index + 1) _)

end VllmVerifier.Gateway
