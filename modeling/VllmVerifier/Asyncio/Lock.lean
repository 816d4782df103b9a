import Mathlib.Data.List.Nodup
import VllmVerifier.Asyncio.Slots

/-!
`asyncio.Lock`: whether it is held, and the queue of futures of the tasks that are
suspended in `acquire`. Only the first waiter is ever woken, and a lock that is
let go is free until that waiter resumes.
-/

set_option autoImplicit false

namespace VllmVerifier.Asyncio

structure Lock (Task : Type) where
  locked : Bool
  waiters : List (Task × Future)

namespace Lock

variable {Task : Type}

def create : Lock Task := ⟨false, []⟩

/-- `_wake_up_first`: the first future gets its result unless it is done. -/
def wakeUpFirst (lock : Lock Task) : Lock Task :=
  match lock.waiters with
  | (task, .pending) :: rest => ⟨lock.locked, (task, .woken) :: rest⟩
  | _ => lock

/-- `acquire` to its first await, or to its end: whether the task has the lock. -/
def acquire (lock : Lock Task) (task : Task) : Lock Task × Bool :=
  if lock.locked = false ∧ ∀ waiter ∈ lock.waiters, waiter.2 = .cancelled then
    (⟨true, lock.waiters⟩, true)
  else (⟨lock.locked, lock.waiters ++ [(task, .pending)]⟩, false)

/-- `release` of a lock that is held. -/
def release (lock : Lock Task) : Lock Task := wakeUpFirst ⟨false, lock.waiters⟩

section Futures

variable [DecidableEq Task]

def future? (lock : Lock Task) (task : Task) : Option Future :=
  (lock.waiters.find? fun waiter => decide (waiter.1 = task)).map Prod.snd

/-- `self._waiters.remove(fut)`. -/
def remove (lock : Lock Task) (task : Task) : Lock Task :=
  ⟨lock.locked, lock.waiters.eraseP fun waiter => decide (waiter.1 = task)⟩

/-- `fut.cancel()`, which has an effect only on a pending future. -/
def cancel (lock : Lock Task) (task : Task) : Lock Task :=
  ⟨lock.locked, lock.waiters.map fun waiter =>
    if waiter = (task, .pending) then (task, .cancelled) else waiter⟩

/-- The rest of `acquire` after its await: whether the task has the lock, or
else a `CancelledError` leaves it. -/
def resume (lock : Lock Task) (task : Task) (cancelled : Bool) : Lock Task × Bool :=
  let left := lock.remove task
  if cancelled = true ∨ lock.future? task = some .cancelled then
    (if left.locked then left else left.wakeUpFirst, false)
  else (⟨true, left.waiters⟩, true)

end Futures

/-! ## Consistency -/

def owners (lock : Lock Task) : List Task := lock.waiters.map Prod.fst

@[simp] theorem owners_mk (locked : Bool) (waiters : List (Task × Future)) :
    owners ⟨locked, waiters⟩ = waiters.map Prod.fst := rfl

/-- The queue and the holder agree with what every task does. -/
structure Sound (lock : Lock Task) (status : Task → Status) : Prop where
  nodup : lock.owners.Nodup
  queued : ∀ task, task ∈ lock.owners ↔ status task = .waiting
  held : ∀ task, status task = .holding → lock.locked = true
  holder : lock.locked = true → ∃ task, status task = .holding
  single : ∀ task other, status task = .holding → status other = .holding → task = other
  /-- Only the first waiter of a free lock is woken. -/
  woken : ∀ task, (task, Future.woken) ∈ lock.waiters →
    lock.locked = false ∧ lock.waiters.head? = some (task, .woken)

/-- No wake-up is lost: the first waiter of a free lock is about to resume. -/
structure Consistent (lock : Lock Task) (status : Task → Status) : Prop
    extends lock.Sound status where
  live : lock.locked = false → ∀ task, lock.waiters.head? ≠ some (task, .pending)

variable {lock : Lock Task} {status : Task → Status} {task : Task}

theorem Consistent.create : (create : Lock Task).Consistent fun _ => .idle where
  nodup := List.nodup_nil
  queued task := by simp [owners, Lock.create]
  held task holding := by cases holding
  holder locked := by cases locked
  single task other holding := by cases holding
  woken task member := by cases member
  live _ task := by simp [Lock.create]

theorem Sound.free (sound : lock.Sound status) (free : lock.locked = false) (other : Task) :
    status other ≠ .holding := by
  intro holding
  rw [sound.held other holding] at free
  cases free

theorem Sound.absent (sound : lock.Sound status) (other : status task ≠ .waiting) :
    task ∉ lock.owners := fun member => other ((sound.queued task).mp member)

theorem wakeUpFirst_owners (lock : Lock Task) : lock.wakeUpFirst.owners = lock.owners := by
  unfold wakeUpFirst
  split
  · rename_i found
    simp [owners, found]
  · rfl

@[simp] theorem wakeUpFirst_locked (lock : Lock Task) : lock.wakeUpFirst.locked = lock.locked := by
  unfold wakeUpFirst
  split
  · rfl
  · rfl

theorem Sound.wakeUpFirst (sound : lock.Sound status) (free : lock.locked = false) :
    lock.wakeUpFirst.Consistent status := by
  have names := wakeUpFirst_owners lock
  refine ⟨⟨names ▸ sound.nodup, fun task => names ▸ sound.queued task, ?_, ?_, sound.single, ?_⟩, ?_⟩
  · intro task holding
    exact absurd holding (sound.free free task)
  · intro locked
    rw [wakeUpFirst_locked, free] at locked
    cases locked
  · intro task member
    refine ⟨by rw [wakeUpFirst_locked, free], ?_⟩
    unfold Lock.wakeUpFirst at member ⊢
    split at member
    · rename_i first rest waiting
      rcases List.mem_cons.mp member with same | later
      · rw [same]
        rfl
      · have known := (sound.woken task (waiting ▸ List.mem_cons_of_mem _ later)).2
        rw [waiting] at known
        cases known
    · exact (sound.woken task member).2
  · intro _ task
    unfold Lock.wakeUpFirst
    split
    · simp
    · rename_i done
      intro pending
      cases waiting : lock.waiters with
      | nil =>
          rw [waiting] at pending
          cases pending
      | cons first rest =>
          rw [waiting] at pending
          cases pending
          exact done task rest waiting

section Operations

variable [DecidableEq Task]

/-- Nobody holds the lock once its holder is doing something else. -/
theorem Sound.alone (sound : lock.Sound status) (holding : status task = .holding)
    {next : Status} (idle : next ≠ .holding) (other : Task) :
    Function.update status task next other ≠ .holding := by
  intro held
  by_cases same : other = task
  · rw [same, Function.update_self] at held
    exact idle held
  · rw [Function.update_of_ne same] at held
    exact same (sound.single other task held holding)

theorem Sound.others {next : Status} (idle : next ≠ .holding) {other : Task}
    (held : Function.update status task next other = .holding) : status other = .holding := by
  by_cases same : other = task
  · rw [same, Function.update_self] at held
    exact absurd held idle
  · rwa [Function.update_of_ne same] at held

theorem Consistent.acquire_now (consistent : lock.Consistent status) (idle : status task = .idle)
    (now : (lock.acquire task).2 = true) :
    (lock.acquire task).1.Consistent (Function.update status task .holding) := by
  unfold acquire at now ⊢
  split at now
  · rename_i free
    rw [if_pos free]
    have absent : task ∉ lock.owners := consistent.absent (by simp [idle])
    have only : ∀ other, Function.update status task .holding other = .holding → other = task := by
      intro other held
      by_contra different
      rw [Function.update_of_ne different] at held
      exact consistent.free free.1 other held
    refine ⟨⟨consistent.nodup, fun other => ?_, fun _ _ => rfl,
      fun _ => ⟨task, Function.update_self ..⟩, fun one two first second => ?_, ?_⟩, ?_⟩
    · by_cases same : other = task
      · rw [same, Function.update_self]
        exact iff_of_false absent (by simp)
      · rw [Function.update_of_ne same]
        exact consistent.queued other
    · rw [only one first, only two second]
    · intro other member
      have cancelled := free.2 _ member
      cases cancelled
    · intro unlocked
      cases unlocked
  · cases now

theorem Consistent.acquire_later (consistent : lock.Consistent status)
    (idle : status task = .idle) (later : (lock.acquire task).2 = false) :
    (lock.acquire task).1.Consistent (Function.update status task .waiting) := by
  unfold acquire at later ⊢
  split at later
  · cases later
  · rename_i taken
    rw [if_neg taken]
    have absent : task ∉ lock.owners := consistent.absent (by simp [idle])
    have head : lock.locked = false →
        (lock.waiters ++ [(task, Future.pending)]).head? = lock.waiters.head? := by
      intro free
      cases waiters : lock.waiters with
      | nil => simp [free, waiters] at taken
      | cons first rest => rfl
    refine ⟨⟨?_, fun other => ?_, fun other held => consistent.held other (Sound.others (by simp) held),
      fun locked => ?_, fun one two first second => ?_, ?_⟩, ?_⟩
    · rw [owners_mk, List.map_append]
      refine List.nodup_append.mpr ⟨consistent.nodup, List.nodup_singleton task, ?_⟩
      intro first early second last same
      rw [List.map_singleton, List.mem_singleton] at last
      subst same last
      exact absent early
    · have known := consistent.queued other
      by_cases same : other = task
      · rw [same, Function.update_self]
        simp [owners]
      · rw [Function.update_of_ne same, ← known]
        simp [owners, same]
    · obtain ⟨other, holding⟩ := consistent.holder locked
      refine ⟨other, ?_⟩
      rwa [Function.update_of_ne (fun same => by rw [same, idle] at holding; cases holding)]
    · exact consistent.single one two (Sound.others (by simp) first) (Sound.others (by simp) second)
    · intro other member
      rcases List.mem_append.mp member with early | last
      · obtain ⟨free, first⟩ := consistent.woken other early
        exact ⟨free, (head free).trans first⟩
      · cases List.mem_singleton.mp last
    · intro free other first
      exact consistent.live free other ((head free).symm.trans first)

theorem Consistent.release (consistent : lock.Consistent status)
    (holding : status task = .holding) :
    lock.release.Consistent (Function.update status task .idle) := by
  have locked := consistent.held task holding
  have absent : task ∉ lock.owners := consistent.absent (by simp [holding])
  have free : ∀ other, Function.update status task .idle other ≠ .holding :=
    consistent.alone holding (by simp)
  refine Sound.wakeUpFirst ⟨consistent.nodup, fun other => ?_, fun other held => ?_, ?_,
    fun one _ first => ?_, ?_⟩ rfl
  · by_cases same : other = task
    · rw [same, Function.update_self]
      exact iff_of_false absent (by simp)
    · rw [Function.update_of_ne same]
      exact consistent.queued other
  · exact absurd held (free other)
  · intro unlocked
    cases unlocked
  · exact absurd first (free one)
  · intro other member
    have unlocked := (consistent.woken other member).1
    rw [locked] at unlocked
    cases unlocked

theorem Consistent.cancel (consistent : lock.Consistent status) (task : Task) :
    (lock.cancel task).Consistent status := by
  have names : (lock.cancel task).owners = lock.owners := by
    simp only [Lock.cancel, owners, List.map_map]
    apply List.map_congr_left
    intro waiter _
    by_cases hit : waiter = (task, .pending) <;> simp [hit]
  have head : ∀ waiter, (lock.cancel task).waiters.head? = some waiter →
      waiter.2 ≠ .cancelled → lock.waiters.head? = some waiter := by
    intro waiter first active
    simp only [Lock.cancel, List.head?_map, Option.map_eq_some_iff] at first
    obtain ⟨before, known, same⟩ := first
    split at same
    · cases same
      exact absurd rfl active
    · rw [known, same]
  refine ⟨⟨names ▸ consistent.nodup, fun other => names ▸ consistent.queued other, consistent.held,
    consistent.holder, consistent.single, ?_⟩, ?_⟩
  · intro other member
    obtain ⟨waiter, earlier, same⟩ := List.mem_map.mp member
    split at same
    · cases same
    · subst same
      obtain ⟨free, first⟩ := consistent.woken other earlier
      exact ⟨free, by simp [Lock.cancel, first]⟩
  · intro free other first
    exact consistent.live free other (head _ first (by simp))

theorem remove_owners (lock : Lock Task) (task : Task) :
    (lock.remove task).owners = lock.owners.erase task := by
  rw [remove, owners_mk, owners, List.erase_eq_eraseP, List.eraseP_map]
  congr 2
  funext waiter
  rw [Bool.eq_iff_iff, decide_eq_true_iff, Function.comp_apply, beq_iff_eq]
  exact eq_comm

theorem mem_of_future? {future : Future} (found : lock.future? task = some future) :
    (task, future) ∈ lock.waiters := by
  obtain ⟨⟨name, state⟩, present, rfl⟩ := Option.map_eq_some_iff.mp found
  have known := List.find?_some present
  have same : name = task := of_decide_eq_true known
  exact same ▸ List.mem_of_find?_eq_some present

/-- The queue that a resumed task leaves. -/
theorem Sound.removed (sound : lock.Sound status) (task : Task) (other : Task) :
    other ∈ (lock.remove task).owners ↔ other ≠ task ∧ status other = .waiting := by
  rw [remove_owners, sound.nodup.mem_erase_iff, sound.queued]

theorem Sound.removed_head (sound : lock.Sound status) {other : Task}
    (member : (other, Future.woken) ∈ (lock.remove task).waiters) :
    lock.locked = false ∧ (lock.remove task).waiters.head? = some (other, .woken) := by
  obtain ⟨free, first⟩ := sound.woken other (List.mem_of_mem_eraseP member)
  refine ⟨free, ?_⟩
  have different : other ≠ task :=
    ((sound.removed task other).mp (List.mem_map.mpr ⟨_, member, rfl⟩)).1
  cases waiters : lock.waiters with
  | nil =>
      rw [waiters] at first
      cases first
  | cons head rest =>
      rw [waiters] at first
      cases first
      simp [remove, waiters, different]

/-- A waiter that goes on with the lock was woken, and is the only holder. -/
theorem Consistent.resume_holding (consistent : lock.Consistent status) {future : Future}
    (found : lock.future? task = some future) (done : future ≠ .pending) {cancelled : Bool}
    (gained : (lock.resume task cancelled).2 = true) :
    (lock.resume task cancelled).1.Consistent (Function.update status task .holding) := by
  unfold resume at gained ⊢
  dsimp only at gained ⊢
  split at gained
  · cases gained
  · rename_i untouched
    rw [if_neg untouched]
    have woken : future = .woken := by
      cases future with
      | pending => exact absurd rfl done
      | woken => rfl
      | cancelled => exact absurd (Or.inr found) untouched
    subst woken
    obtain ⟨free, first⟩ := consistent.woken task (mem_of_future? found)
    have only : ∀ other, Function.update status task .holding other = .holding → other = task := by
      intro other held
      by_contra different
      rw [Function.update_of_ne different] at held
      exact consistent.free free other held
    refine ⟨⟨?_, fun other => ?_, fun _ _ => rfl, fun _ => ⟨task, Function.update_self ..⟩,
      fun one two first second => ?_, fun other member => ?_⟩, fun unlocked => ?_⟩
    · exact remove_owners lock task ▸ consistent.nodup.erase task
    · rw [owners_mk]
      refine (consistent.removed task other).trans ?_
      by_cases same : other = task
      · simp [same]
      · simp [same]
    · rw [only one first, only two second]
    · have known := (consistent.removed_head member).2
      have other_head := (consistent.woken other (List.mem_of_mem_eraseP member)).2
      rw [first] at other_head
      cases other_head
      exact absurd rfl ((consistent.removed task task).mp (List.mem_map.mpr ⟨_, member, rfl⟩)).1
    · cases unlocked

/-- A waiter that a `CancelledError` takes away passes its wake-up on. -/
theorem Consistent.resume_leaving (consistent : lock.Consistent status)
    (waiting : status task = .waiting) {cancelled : Bool}
    (lost : (lock.resume task cancelled).2 = false) :
    (lock.resume task cancelled).1.Consistent (Function.update status task .idle) := by
  unfold resume at lost ⊢
  dsimp only at lost ⊢
  split at lost
  · rename_i leaving
    rw [if_pos leaving]
    have others : ∀ other, status other = .holding →
        Function.update status task .idle other = .holding := by
      intro other holding
      rwa [Function.update_of_ne (fun same => by rw [same, waiting] at holding; cases holding)]
    have sound : (lock.remove task).Sound (Function.update status task .idle) := by
      refine ⟨?_, fun other => ?_, fun other held => ?_, fun locked => ?_,
        fun one two first second => ?_, fun other member => consistent.removed_head member⟩
      · exact remove_owners lock task ▸ consistent.nodup.erase task
      · rw [consistent.removed]
        by_cases same : other = task
        · simp [same]
        · simp [same]
      · exact consistent.held other (Sound.others (by simp) held)
      · obtain ⟨other, holding⟩ := consistent.holder locked
        exact ⟨other, others other holding⟩
      · exact consistent.single one two (Sound.others (by simp) first)
          (Sound.others (by simp) second)
    split
    · rename_i locked
      refine ⟨sound, fun free => ?_⟩
      rw [locked] at free
      cases free
    · rename_i free
      exact sound.wakeUpFirst (Bool.eq_false_iff.mpr free)
  · cases lost

/-- As long as a task waits, some task holds the lock or a waiter can resume. -/
theorem Consistent.progress (consistent : lock.Consistent status)
    (waiting : status task = .waiting) :
    (∃ other, status other = .holding) ∨ ∃ other future, status other = .waiting ∧
      lock.future? other = some future ∧ future ≠ .pending := by
  by_cases locked : lock.locked = true
  · exact .inl (consistent.holder locked)
  · have member := (consistent.queued task).mpr waiting
    cases waiters : lock.waiters with
    | nil => simp [owners, waiters] at member
    | cons first rest =>
        obtain ⟨other, future⟩ := first
        refine .inr ⟨other, future, (consistent.queued other).mp ?_, ?_, ?_⟩
        · simp [owners, waiters]
        · simp [future?, waiters]
        · intro pending
          refine consistent.live (Bool.eq_false_iff.mpr locked) other ?_
          rw [waiters, pending]
          rfl

end Operations

end Lock

end VllmVerifier.Asyncio
