import Mathlib.Data.List.Nodup
import VllmVerifier.Asyncio.Semaphore

/-!
Tasks that share a semaphore. Each task has nothing to do with it, waits for a
slot or holds one; whatever one task does to the semaphore keeps the semaphore
consistent with all of them.
-/

set_option autoImplicit false

namespace VllmVerifier.Asyncio

inductive Status where
  | idle
  | waiting
  | holding
deriving DecidableEq

def Status.held : Status → Nat
  | .holding => 1
  | .idle | .waiting => 0

variable {Task : Type}

/-- The slots add up to the capacity, and exactly the waiting tasks are queued. -/
structure Consistent (capacity : Nat) (slots : Semaphore Task) (status : Task → Status)
    (acquired : Nat) : Prop where
  balance : slots.balance + acquired = capacity
  nodup : slots.owners.Nodup
  queued : ∀ task, task ∈ slots.owners ↔ status task = .waiting
  live : slots.Live

theorem Consistent.create (capacity : Nat) :
    Consistent capacity (Semaphore.create capacity : Semaphore Task) (fun _ => .idle) 0 := by
  refine ⟨rfl, List.nodup_nil, fun task => ?_, fun ⟨task, member⟩ => ?_⟩
  · simp [Semaphore.create]
  · cases member

/-- One task goes from a status to another; the rest of the queue stays, and no
futures but those in `own` are cancelled. -/
structure Use (own : Task → Prop) (task : Task) (slots : Semaphore Task) (before : Status)
    (next : Semaphore Task) (after : Status) : Prop where
  balance : next.balance + after.held = slots.balance + before.held
  nodup : next.owners.Nodup
  others : ∀ other, other ≠ task → (other ∈ next.owners ↔ other ∈ slots.owners)
  itself : task ∈ next.owners ↔ after = .waiting
  live : next.Live
  calm : Semaphore.Calm own slots next

/-- The queue agrees with the status of one task. -/
structure Fits (task : Task) (slots : Semaphore Task) (status : Status) : Prop where
  nodup : slots.owners.Nodup
  itself : task ∈ slots.owners ↔ status = .waiting
  live : slots.Live

section Use

variable {own : Task → Prop} {task : Task} {slots next : Semaphore Task}
  {before after status : Status}

theorem Use.fits (use : Use own task slots before next after) : Fits task next after :=
  ⟨use.nodup, use.itself, use.live⟩

theorem Use.idle (fits : Fits task slots status) : Use own task slots status slots status :=
  ⟨rfl, fits.nodup, fun _ _ => Iff.rfl, fits.itself, fits.live, fun _ _ member => member⟩

theorem Use.andThen {last : Semaphore Task} {final : Status}
    (first : Use own task slots before next after)
    (second : Use own task next after last final) : Use own task slots before last final :=
  ⟨second.balance.trans first.balance, second.nodup,
    fun other different => (second.others other different).trans (first.others other different),
    second.itself, second.live, first.calm.next second.calm⟩

theorem Use.of_owners (fits : Fits task slots before) (owners : next.owners = slots.owners)
    (balance : next.balance + after.held = slots.balance + before.held) (live : next.Live)
    (calm : Semaphore.Calm own slots next) (same : after = .waiting ↔ before = .waiting) :
    Use own task slots before next after := by
  refine ⟨balance, owners ▸ fits.nodup, fun other _ => by rw [owners], ?_, live, calm⟩
  rw [owners, fits.itself, same]

theorem Use.release (fits : Fits task slots .holding) :
    Use own task slots .holding slots.release .idle := by
  obtain ⟨owners, balance, live⟩ := Semaphore.release_spec slots
  exact .of_owners fits owners balance live (Semaphore.release_calm slots) (by simp)

theorem Use.acquire (fits : Fits task slots .idle) :
    Use own task slots .idle (slots.acquire task).1
      (if (slots.acquire task).2 = true then .holding else .waiting) := by
  cases taken : (slots.acquire task).2 with
  | true =>
      obtain ⟨owners, balance, live⟩ := Semaphore.acquire_now taken
      exact .of_owners fits owners balance live (Semaphore.acquire_calm slots task) (by simp)
  | false =>
      obtain ⟨owners, balance, live⟩ := Semaphore.acquire_later taken fits.live
      have absent : task ∉ slots.owners := fun member => by cases fits.itself.mp member
      refine ⟨balance, ?_, fun other different => ?_, ?_, live,
        Semaphore.acquire_calm slots task⟩
      · rw [owners]
        exact List.nodup_append.mpr ⟨fits.nodup, List.nodup_singleton _, fun first member second
          last same => absent (List.mem_singleton.mp last ▸ same ▸ member)⟩
      · simp [owners, different]
      · simp [owners]

variable [DecidableEq Task]

theorem Use.cancel (fits : Fits task slots status) {other : Task} (known : own other) :
    Use own task slots status (slots.cancel other) status := by
  obtain ⟨owners, balance, live⟩ := Semaphore.cancel_spec slots other
  exact .of_owners fits owners (congrArg (· + status.held) balance) (live fits.live)
    (Semaphore.cancel_calm slots known) Iff.rfl

theorem Use.resume {future : Future} (cancelled : Bool) (fits : Fits task slots .waiting)
    (found : slots.future? task = some future) (done : future ≠ .pending)
    (noticed : future = .cancelled → cancelled = true) :
    Use own task slots .waiting (slots.resume task cancelled).1
      (if cancelled then .idle else .holding) := by
  obtain ⟨_, owners, balance, live⟩ := Semaphore.resume_spec cancelled found done noticed fits.live
  refine ⟨?_, ?_, fun other different => ?_, ?_, live, Semaphore.resume_calm slots task cancelled⟩
  · cases cancelled <;> simpa [Status.held] using balance
  · rw [owners]
    exact fits.nodup.erase task
  · rw [owners, List.mem_erase_of_ne different]
  · rw [owners]
    have gone : task ∉ slots.owners.erase task := fits.nodup.not_mem_erase
    cases cancelled <;> simp [gone]

end Use

section Consistent

variable {capacity acquired : Nat} {slots next : Semaphore Task} {status later : Task → Status}

theorem Consistent.fits (consistent : Consistent capacity slots status acquired) (task : Task) :
    Fits task slots (status task) :=
  ⟨consistent.nodup, consistent.queued task, consistent.live⟩

theorem Consistent.use {own : Task → Prop} (task : Task) {total : Nat}
    (consistent : Consistent capacity slots status acquired)
    (use : Use own task slots (status task) next (later task))
    (others : ∀ other, other ≠ task → later other = status other)
    (count : total + (status task).held = acquired + (later task).held) :
    Consistent capacity next later total := by
  have balance := consistent.balance
  have moved := use.balance
  refine ⟨by omega, use.nodup, fun other => ?_, use.live⟩
  by_cases same : other = task
  · rw [same, use.itself]
  · rw [use.others other same, consistent.queued, others other same]

theorem Consistent.congr {total : Nat} (consistent : Consistent capacity slots status acquired)
    (same : ∀ task, later task = status task) (count : total = acquired) :
    Consistent capacity slots later total :=
  ⟨count ▸ consistent.balance, consistent.nodup, fun task => by rw [same, consistent.queued],
    consistent.live⟩

theorem Consistent.waiters_nil (consistent : Consistent capacity slots status acquired)
    (free : ∀ task, status task = .idle) : slots.waiters = [] := by
  have empty : slots.owners = [] := by
    apply List.eq_nil_iff_forall_not_mem.mpr
    intro task member
    have waiting := (consistent.queued task).mp member
    rw [free] at waiting
    cases waiting
  exact List.map_eq_nil_iff.mp empty

theorem Consistent.handed [DecidableEq Task]
    (consistent : Consistent capacity slots status acquired) (handed : 0 < slots.handed) :
    ∃ task, status task = .waiting ∧ slots.future? task = some .woken := by
  obtain ⟨⟨task, state⟩, member, known⟩ := List.countP_pos_iff.mp handed
  have same : state = .woken := of_decide_eq_true known
  subst same
  exact ⟨task, (consistent.queued task).mp (List.mem_map.mpr ⟨_, member, rfl⟩),
    Semaphore.future?_of_mem consistent.nodup member⟩

/-- When a task waits, some waiter can go on or some task holds a slot. -/
theorem Consistent.someone [DecidableEq Task] (positive : 0 < capacity)
    (consistent : Consistent capacity slots status acquired) {task : Task}
    (waits : status task = .waiting) :
    (∃ other future, status other = .waiting ∧ slots.future? other = some future ∧
      future ≠ .pending) ∨ 0 < acquired := by
  obtain ⟨future, found⟩ := Semaphore.future?_of_mem_owners ((consistent.queued task).mpr waits)
  by_cases pending : future = .pending
  · subst pending
    by_cases none : slots.handed = 0
    · rcases consistent.live ⟨task, Semaphore.mem_of_future? found⟩ with empty | handed
      · have balance := consistent.balance
        simp only [Semaphore.balance] at balance
        exact .inr (by omega)
      · exact absurd none (Nat.ne_of_gt handed)
    · obtain ⟨other, otherWaits, woken⟩ := consistent.handed (Nat.pos_of_ne_zero none)
      exact .inl ⟨other, .woken, otherWaits, woken, by simp⟩
  · exact .inl ⟨task, future, waits, found, pending⟩

end Consistent

end VllmVerifier.Asyncio
