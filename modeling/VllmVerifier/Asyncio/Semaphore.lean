import Mathlib.Data.List.Basic
import Mathlib.Data.List.Count
import Mathlib.Data.List.Nodup

/-!
`asyncio.Semaphore`: the counter and the queue of futures of the tasks that are
suspended in `acquire`. A task is named by any type; the state of its future is
kept beside its name.
-/

set_option autoImplicit false

namespace VllmVerifier.Asyncio

/-- A waiter's future. It is woken once a slot has been handed to it. -/
inductive Future where
  | pending
  | woken
  | cancelled
deriving DecidableEq

structure Semaphore (Task : Type) where
  value : Nat
  waiters : List (Task × Future)

namespace Semaphore

variable {Task : Type}

def create (value : Nat) : Semaphore Task := ⟨value, []⟩

/-- `locked`: a waiter whose future is not cancelled comes first. -/
def locked (slots : Semaphore Task) : Bool :=
  slots.value == 0 || slots.waiters.any fun waiter => decide (waiter.2 ≠ .cancelled)

/-- Sets the result of the first future that is not done. -/
def wakeFirst : List (Task × Future) → Option (List (Task × Future))
  | [] => none
  | (task, .pending) :: rest => some ((task, .woken) :: rest)
  | waiter :: rest => (wakeFirst rest).map (waiter :: ·)

def wakeUpNext (slots : Semaphore Task) : Semaphore Task :=
  match wakeFirst slots.waiters with
  | some waiters => ⟨slots.value - 1, waiters⟩
  | none => slots

/-- `acquire` to its first await, or to its end: whether the task has the slot. -/
def acquire (slots : Semaphore Task) (task : Task) : Semaphore Task × Bool :=
  if slots.locked then (⟨slots.value, slots.waiters ++ [(task, .pending)]⟩, false)
  else (⟨slots.value - 1, slots.waiters⟩, true)

def release (slots : Semaphore Task) : Semaphore Task := wakeUpNext ⟨slots.value + 1, slots.waiters⟩

section Futures

variable [DecidableEq Task]

def future? (slots : Semaphore Task) (task : Task) : Option Future :=
  (slots.waiters.find? fun waiter => decide (waiter.1 = task)).map Prod.snd

/-- `self._waiters.remove(fut)`. -/
def remove (slots : Semaphore Task) (task : Task) : Semaphore Task :=
  ⟨slots.value, slots.waiters.eraseP fun waiter => decide (waiter.1 = task)⟩

/-- `fut.cancel()`, which has an effect only on a pending future. -/
def cancel (slots : Semaphore Task) (task : Task) : Semaphore Task :=
  ⟨slots.value, slots.waiters.map fun waiter =>
    if waiter = (task, .pending) then (task, .cancelled) else waiter⟩

/-- The rest of `acquire` after its await: whether the task has the slot, or
else a `CancelledError` leaves it. -/
def resume (slots : Semaphore Task) (task : Task) (cancelled : Bool) : Semaphore Task × Bool :=
  let left := slots.remove task
  if cancelled then
    if slots.future? task = some .cancelled then (left, false)
    else (wakeUpNext ⟨left.value + 1, left.waiters⟩, false)
  else if 0 < left.value then (left.wakeUpNext, true)
  else (left, true)

end Futures

/-! ## Queue and balance -/

def owners (slots : Semaphore Task) : List Task := slots.waiters.map Prod.fst

/-- The slots handed to waiters that have not resumed. -/
def handed (slots : Semaphore Task) : Nat :=
  slots.waiters.countP fun waiter => decide (waiter.2 = .woken)

/-- The slots that no task has acquired. -/
def balance (slots : Semaphore Task) : Nat := slots.value + slots.handed

/-- No wake-up is lost: a task waits only while all slots are taken or some
woken waiter is about to pass the wake-up on. -/
def Live (slots : Semaphore Task) : Prop :=
  (∃ task, (task, Future.pending) ∈ slots.waiters) → slots.value = 0 ∨ 0 < slots.handed

/-- No future has been cancelled but those of some tasks. -/
def Calm (own : Task → Prop) (slots next : Semaphore Task) : Prop :=
  ∀ task, ¬ own task → (task, Future.cancelled) ∈ next.waiters →
    (task, Future.cancelled) ∈ slots.waiters

@[simp] theorem owners_mk (value : Nat) (waiters : List (Task × Future)) :
    owners ⟨value, waiters⟩ = waiters.map Prod.fst := rfl

@[simp] theorem balance_mk (value : Nat) (waiters : List (Task × Future)) :
    balance ⟨value, waiters⟩ =
      value + waiters.countP fun waiter => decide (waiter.2 = .woken) := rfl

theorem wakeFirst_some {waiters woken : List (Task × Future)}
    (found : wakeFirst waiters = some woken) :
    woken.map Prod.fst = waiters.map Prod.fst ∧
      (woken.countP fun waiter => decide (waiter.2 = .woken)) =
        (waiters.countP fun waiter => decide (waiter.2 = .woken)) + 1 := by
  induction waiters generalizing woken with
  | nil => cases found
  | cons waiter rest ih =>
      obtain ⟨task, future⟩ := waiter
      cases future with
      | pending =>
          cases found
          simp
      | woken | cancelled =>
          simp only [wakeFirst, Option.map_eq_some_iff] at found
          obtain ⟨later, found, rfl⟩ := found
          obtain ⟨names, count⟩ := ih found
          simp [names, count]

theorem wakeFirst_calm {waiters woken : List (Task × Future)}
    (found : wakeFirst waiters = some woken) {task : Task}
    (member : (task, Future.cancelled) ∈ woken) : (task, Future.cancelled) ∈ waiters := by
  induction waiters generalizing woken with
  | nil => cases found
  | cons waiter rest ih =>
      obtain ⟨name, future⟩ := waiter
      cases future with
      | pending =>
          cases found
          rcases List.mem_cons.mp member with same | later
          · cases same
          · exact List.mem_cons_of_mem _ later
      | woken | cancelled =>
          simp only [wakeFirst, Option.map_eq_some_iff] at found
          obtain ⟨later, found, rfl⟩ := found
          rcases List.mem_cons.mp member with same | member
          · rw [same]
            exact List.mem_cons_self
          · exact List.mem_cons_of_mem _ (ih found member)

theorem wakeFirst_none {waiters : List (Task × Future)} (missing : wakeFirst waiters = none)
    (task : Task) : (task, Future.pending) ∉ waiters := by
  induction waiters with
  | nil => simp
  | cons waiter rest ih =>
      obtain ⟨name, future⟩ := waiter
      cases future with
      | pending => cases missing
      | woken | cancelled =>
          simp only [wakeFirst, Option.map_eq_none_iff] at missing
          simp [ih missing]

/-- Waking moves a free slot to a waiter. -/
theorem wakeUpNext_spec (slots : Semaphore Task) (free : 0 < slots.value) :
    slots.wakeUpNext.owners = slots.owners ∧ slots.wakeUpNext.balance = slots.balance ∧
      slots.wakeUpNext.Live := by
  unfold wakeUpNext
  cases found : wakeFirst slots.waiters with
  | none =>
      refine ⟨rfl, rfl, fun ⟨task, member⟩ => ?_⟩
      exact absurd member (wakeFirst_none found task)
  | some woken =>
      obtain ⟨names, count⟩ := wakeFirst_some found
      refine ⟨names, ?_, fun _ => .inr ?_⟩
      · simp only [balance, handed, count]
        omega
      · simp only [handed, count]
        omega

/-! ## Operations -/

variable {slots : Semaphore Task} {own : Task → Prop}

theorem Calm.next {middle last : Semaphore Task} (first : Calm own slots middle)
    (second : Calm own middle last) : Calm own slots last :=
  fun task foreign member => first task foreign (second task foreign member)

theorem wakeUpNext_calm (slots : Semaphore Task) : Calm own slots slots.wakeUpNext := by
  intro task _ member
  unfold wakeUpNext at member
  split at member
  · rename_i woken found
    exact wakeFirst_calm found member
  · exact member

theorem acquire_calm (slots : Semaphore Task) (task : Task) :
    Calm own slots (slots.acquire task).1 := by
  intro other _ member
  unfold acquire at member
  split at member
  · rcases List.mem_append.mp member with earlier | last
    · exact earlier
    · cases List.mem_singleton.mp last
  · exact member

theorem release_calm (slots : Semaphore Task) : Calm own slots slots.release :=
  wakeUpNext_calm (⟨slots.value + 1, slots.waiters⟩ : Semaphore Task)

theorem acquire_now {task : Task} (now : (slots.acquire task).2 = true) :
    (slots.acquire task).1.owners = slots.owners ∧
      (slots.acquire task).1.balance + 1 = slots.balance ∧ (slots.acquire task).1.Live := by
  unfold acquire at now ⊢
  split at now
  · cases now
  · rename_i unlocked
    rw [if_neg unlocked]
    simp only [locked, Bool.or_eq_true, beq_iff_eq, not_or, List.any_eq_true,
      decide_eq_true_eq, not_exists, not_and, not_not] at unlocked
    refine ⟨rfl, ?_, fun ⟨other, member⟩ => ?_⟩
    · simp only [balance, handed]
      omega
    · have cancelled := unlocked.2 _ member
      cases cancelled

theorem acquire_later {task : Task} (later : (slots.acquire task).2 = false)
    (live : slots.Live) :
    (slots.acquire task).1.owners = slots.owners ++ [task] ∧
      (slots.acquire task).1.balance = slots.balance ∧ (slots.acquire task).1.Live := by
  unfold acquire at later ⊢
  split at later
  · rename_i locked
    rw [if_pos locked]
    simp only [Semaphore.locked, Bool.or_eq_true, beq_iff_eq, List.any_eq_true,
      decide_eq_true_eq] at locked
    refine ⟨by simp [owners], by simp [balance, handed], fun _ => ?_⟩
    rcases locked with empty | ⟨⟨name, future⟩, member, active⟩
    · exact .inl empty
    · cases future with
      | cancelled => cases active rfl
      | pending =>
          rcases live ⟨name, member⟩ with empty | handed
          · exact .inl empty
          · exact .inr (by simpa [Semaphore.handed] using handed)
      | woken =>
          refine .inr ?_
          simp only [handed, List.countP_append]
          have counted : 0 < slots.waiters.countP fun waiter => decide (waiter.2 = .woken) :=
            List.countP_pos_iff.mpr ⟨(name, Future.woken), member, decide_eq_true rfl⟩
          omega
  · cases later

theorem release_spec (slots : Semaphore Task) :
    slots.release.owners = slots.owners ∧ slots.release.balance = slots.balance + 1 ∧
      slots.release.Live := by
  obtain ⟨names, same, live⟩ :=
    wakeUpNext_spec (⟨slots.value + 1, slots.waiters⟩ : Semaphore Task) (Nat.succ_pos _)
  refine ⟨names, ?_, live⟩
  rw [release, same]
  simp only [balance, handed]
  omega

variable [DecidableEq Task]

theorem cancel_spec (slots : Semaphore Task) (task : Task) :
    (slots.cancel task).owners = slots.owners ∧ (slots.cancel task).balance = slots.balance ∧
      (slots.Live → (slots.cancel task).Live) := by
  have count : (slots.cancel task).handed = slots.handed := by
    simp only [cancel, handed, List.countP_map]
    apply List.countP_congr
    intro waiter _
    by_cases hit : waiter = (task, .pending) <;> simp [hit]
  refine ⟨?_, ?_, fun live ⟨other, member⟩ => ?_⟩
  · simp only [cancel, owners, List.map_map]
    apply List.map_congr_left
    intro waiter _
    by_cases hit : waiter = (task, .pending) <;> simp [hit]
  · simp only [balance, count]
    rfl
  · rw [count]
    apply live
    obtain ⟨waiter, earlier, same⟩ := List.mem_map.mp member
    split at same
    · cases same
    · exact ⟨other, same ▸ earlier⟩

theorem cancel_calm (slots : Semaphore Task) {task : Task} (known : own task) :
    Calm own slots (slots.cancel task) := by
  intro other foreign member
  obtain ⟨waiter, earlier, same⟩ := List.mem_map.mp member
  split at same
  · cases same
    exact absurd known foreign
  · exact same ▸ earlier

theorem resume_calm (slots : Semaphore Task) (task : Task) (cancelled : Bool) :
    Calm own slots (slots.resume task cancelled).1 := by
  have removed : Calm own slots (slots.remove task) :=
    fun other _ member => List.mem_of_mem_eraseP member
  unfold resume
  dsimp only
  split
  · split
    · exact removed
    · exact removed.next
        (wakeUpNext_calm (⟨(slots.remove task).value + 1, (slots.remove task).waiters⟩ :
          Semaphore Task))
  · split
    · exact removed.next (wakeUpNext_calm _)
    · exact removed

private theorem find_erase {waiters : List (Task × Future)} {task : Task} {future : Future}
    (found : (waiters.find? fun waiter => decide (waiter.1 = task)).map Prod.snd = some future) :
    ((waiters.eraseP fun waiter => decide (waiter.1 = task)).map Prod.fst =
      (waiters.map Prod.fst).erase task) ∧
    (waiters.countP fun waiter => decide (waiter.2 = .woken)) =
      ((waiters.eraseP fun waiter => decide (waiter.1 = task)).countP
        fun waiter => decide (waiter.2 = .woken)) + if future = .woken then 1 else 0 := by
  induction waiters with
  | nil => cases found
  | cons waiter rest ih =>
      by_cases hit : waiter.1 = task
      · simp only [List.find?_cons, hit, decide_true, Option.map_some, Option.some.injEq] at found
        simp [List.countP_cons, hit, found]
      · simp only [List.find?_cons, hit, decide_false] at found
        obtain ⟨names, count⟩ := ih found
        constructor
        · simp [hit, names]
        · simp only [List.eraseP_cons, hit, decide_false, cond_false, List.countP_cons, count]
          omega

theorem future?_of_mem_owners {task : Task} (member : task ∈ slots.owners) :
    ∃ future, slots.future? task = some future := by
  obtain ⟨waiter, present, name⟩ := List.mem_map.mp member
  cases found : slots.waiters.find? fun waiter => decide (waiter.1 = task) with
  | none => exact absurd (List.find?_eq_none.mp found waiter present) (by simp [name])
  | some first => exact ⟨first.2, by simp [future?, found]⟩

theorem mem_of_future? {task : Task} {future : Future}
    (found : slots.future? task = some future) : (task, future) ∈ slots.waiters := by
  obtain ⟨⟨name, state⟩, present, rfl⟩ := Option.map_eq_some_iff.mp found
  have known := List.find?_some present
  have same : name = task := of_decide_eq_true known
  exact same ▸ List.mem_of_find?_eq_some present

theorem future?_of_mem (nodup : slots.owners.Nodup) {task : Task} {future : Future}
    (member : (task, future) ∈ slots.waiters) : slots.future? task = some future := by
  obtain ⟨state, found⟩ := future?_of_mem_owners (List.mem_map.mpr ⟨_, member, rfl⟩)
  have same := List.inj_on_of_nodup_map nodup (mem_of_future? found) member rfl
  rw [found, (Prod.mk.inj same).2]

/-- A resumed task leaves the queue: with the slot it was handed, or with that
slot passed on. -/
theorem resume_spec {task : Task} (cancelled : Bool) {future : Future}
    (found : slots.future? task = some future) (done : future ≠ .pending)
    (noticed : future = .cancelled → cancelled = true) (live : slots.Live) :
    (slots.resume task cancelled).2 = !cancelled ∧
      (slots.resume task cancelled).1.owners = slots.owners.erase task ∧
      ((slots.resume task cancelled).1.balance + if cancelled then 0 else 1) = slots.balance ∧
      (slots.resume task cancelled).1.Live := by
  obtain ⟨names, count⟩ := find_erase found
  have pendings : ∀ other, (other, Future.pending) ∈ (slots.remove task).waiters →
      (other, Future.pending) ∈ slots.waiters := fun other member =>
    List.mem_of_mem_eraseP member
  unfold resume
  dsimp only
  cases cancelled with
  | true =>
      rw [if_pos rfl]
      by_cases own : future = .cancelled
      · rw [if_pos (own ▸ found)]
        subst own
        refine ⟨rfl, names, ?_, fun ⟨other, member⟩ => ?_⟩
        · simp only [remove, balance, handed, reduceIte, count]
          simp
        · have kept : (slots.remove task).handed = slots.handed := by
            simp only [remove, handed, count]
            simp
          rw [kept]
          exact live ⟨other, pendings other member⟩
      · have woken : future = .woken := by
          cases future with
          | pending => exact absurd rfl done
          | woken => rfl
          | cancelled => exact absurd rfl own
        subst woken
        rw [if_neg (by rw [found]; simp)]
        obtain ⟨same, balanced, live⟩ := wakeUpNext_spec
          (⟨(slots.remove task).value + 1, (slots.remove task).waiters⟩ : Semaphore Task)
          (Nat.succ_pos _)
        refine ⟨rfl, same.trans names, ?_, live⟩
        rw [balanced]
        simp only [remove, balance, handed, reduceIte, count]
        omega
  | false =>
      have woken : future = .woken := by
        cases future with
        | pending => exact absurd rfl done
        | woken => rfl
        | cancelled => cases noticed rfl
      subst woken
      rw [if_neg (by simp)]
      have removed : (slots.remove task).balance + 1 = slots.balance := by
        simp only [remove, balance, handed, count, reduceIte]
        omega
      by_cases free : 0 < (slots.remove task).value
      · rw [if_pos free]
        obtain ⟨same, balanced, live⟩ := wakeUpNext_spec _ free
        refine ⟨rfl, same.trans names, ?_, live⟩
        rw [balanced]
        simpa using removed
      · rw [if_neg free]
        exact ⟨rfl, names, by simpa using removed, fun _ => .inl (Nat.eq_zero_of_not_pos free)⟩

end Semaphore

end VllmVerifier.Asyncio
