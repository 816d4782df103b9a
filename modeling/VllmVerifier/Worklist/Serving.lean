import VllmVerifier.Worklist

/-!
A worklist that is served in batches, also where the loop stops in the middle of
one. Jobs leave the queue in the order in which they joined it, so attempts that
count retries never decrease, the first attempts keep the order of the first
queue, and retries come in the order in which they were asked for.
-/

set_option autoImplicit false

namespace VllmVerifier.Worklist

variable {Job Result : Type} {policy : Policy Job Result}

/-- How a batch is cut from the head of a queue. -/
structure Cut (Job : Type) where
  split : List Job → List Job × List Job
  whole : ∀ pending, (split pending).1 ++ (split pending).2 = pending

def Cut.batch (cut : Cut Job) (pending : List Job) : List Job := (cut.split pending).1

def Cut.rest (cut : Cut Job) (pending : List Job) : List Job := (cut.split pending).2

/-- `Serves policy cut pending batches history left`: these batches are cut, one
after the other; only in the last one the loop may have stopped, and `left` is
what was queued when it was cut. -/
inductive Serves (policy : Policy Job Result) (cut : Cut Job) :
    List Job → List (List Job) → List (Job × Result) → List Job → Prop where
  | ended {pending : List Job} : Serves policy cut pending [] [] pending
  | stopped {pending : List Job} {rows : List (Job × Result)} : pending ≠ [] →
      rows.map Prod.fst <+: cut.batch pending →
      Serves policy cut pending [cut.batch pending] rows pending
  | round {pending next left : List Job} {rows history : List (Job × Result)}
      {batches : List (List Job)} : pending ≠ [] → rows.map Prod.fst = cut.batch pending →
      Advances policy pending rows next → Serves policy cut next batches history left →
      Serves policy cut pending (cut.batch pending :: batches) (rows ++ history) left

/-! ## The order of a queue -/

namespace Advances

variable {pending left : List Job} {rows : List (Job × Result)}

/-- Jobs that no retry makes keep the order of the first queue. -/
theorem filter_originals {original : Job → Bool}
    (fresh : ∀ job result next, policy.retries job result next → original next = false)
    (advances : Advances policy pending rows left) :
    (rows.map Prod.fst ++ left).filter original = pending.filter original := by
  induction advances with
  | start => rfl
  | finish _ _ ih => simp only [List.map_cons, List.cons_append, List.filter_cons, ih]
  | @retry job next result pending left history retried _ ih =>
      have unchanged : (pending ++ [next]).filter original = pending.filter original := by
        simp [fresh _ _ _ retried]
      simp only [List.map_cons, List.cons_append, List.filter_cons, ih, unchanged]

theorem length {retried : Job × Result → Bool}
    (accepted : ∀ job result, policy.accepts job result → retried (job, result) = false)
    (repeated : ∀ job result next, policy.retries job result next → retried (job, result) = true)
    (advances : Advances policy pending rows left) :
    rows.length + left.length = pending.length + rows.countP retried := by
  induction advances with
  | start => simp
  | finish allowed _ ih =>
      have same := accepted _ _ allowed
      rw [List.length_cons, List.length_cons, List.countP_cons_of_neg (by simp [same])]
      omega
  | retry again _ ih =>
      have same := repeated _ _ _ again
      rw [List.length_append, List.length_singleton] at ih
      rw [List.length_cons, List.length_cons, List.countP_cons_of_pos same]
      omega

end Advances

/-- A queue whose attempts do not decrease and have at most two numbers. -/
structure Level (attempt : Job → Nat) (pending : List Job) : Prop where
  sorted : pending.Pairwise fun first last => attempt first ≤ attempt last
  close : ∀ first ∈ pending, ∀ last ∈ pending, attempt last ≤ attempt first + 1

namespace Level

variable {attempt : Job → Nat} {pending : List Job} {job : Job}

theorem of_same {number : Nat} (same : ∀ job ∈ pending, attempt job = number) :
    Level attempt pending := by
  constructor
  · rw [List.pairwise_iff_forall_sublist]
    intro first last pair
    have members := pair.subset
    rw [same first (members (by simp)), same last (members (by simp))]
  · intro first firstMember last lastMember
    rw [same first firstMember, same last lastMember]
    exact Nat.le_succ number

theorem tail (level : Level attempt (job :: pending)) : Level attempt pending where
  sorted := level.sorted.of_cons
  close first firstMember last lastMember :=
    level.close first (List.mem_cons_of_mem _ firstMember) last (List.mem_cons_of_mem _ lastMember)

/-- The retry of the head of a level queue may join it at the back. -/
theorem retry (level : Level attempt (job :: pending)) {next : Job}
    (counted : attempt next = attempt job + 1) : Level attempt (pending ++ [next]) := by
  have lowest := (List.pairwise_cons.mp level.sorted).1
  have highest : ∀ found ∈ pending, attempt found ≤ attempt next := by
    intro found member
    rw [counted]
    exact level.close job List.mem_cons_self found (List.mem_cons_of_mem _ member)
  constructor
  · rw [List.pairwise_append]
    refine ⟨level.tail.sorted, List.pairwise_singleton _ _, ?_⟩
    intro found member added single
    rw [List.mem_singleton.mp single]
    exact highest found member
  · intro first firstMember last lastMember
    rcases List.mem_append.mp firstMember with firstQueued | firstAdded
    · rcases List.mem_append.mp lastMember with lastQueued | lastAdded
      · exact level.tail.close first firstQueued last lastQueued
      · rw [List.mem_singleton.mp lastAdded, counted]
        exact Nat.succ_le_succ (lowest first firstQueued)
    · rw [List.mem_singleton.mp firstAdded]
      rcases List.mem_append.mp lastMember with lastQueued | lastAdded
      · exact Nat.le_succ_of_le (highest last lastQueued)
      · rw [List.mem_singleton.mp lastAdded]
        exact Nat.le_succ _

end Level

/-- From a level queue jobs leave in the order of their attempts. -/
theorem Advances.sorted {attempt : Job → Nat} {pending left : List Job}
    {rows : List (Job × Result)}
    (counts : ∀ job result next, policy.retries job result next → attempt next = attempt job + 1)
    (advances : Advances policy pending rows left) (level : Level attempt pending) :
    (rows.map Prod.fst ++ left).Pairwise fun first last => attempt first ≤ attempt last := by
  have above : ∀ {pending left : List Job} {rows : List (Job × Result)} (least : Nat),
      Advances policy pending rows left → (∀ job ∈ pending, least ≤ attempt job) →
        ∀ job ∈ rows.map Prod.fst ++ left, least ≤ attempt job := by
    intro pending left rows least advances initial
    refine advances.invariant (fun job result next known retried => ?_) initial
    rw [counts job result next retried]
    exact Nat.le_succ_of_le known
  induction advances with
  | start => exact level.sorted
  | finish _ rest ih =>
      have lowest := (List.pairwise_cons.mp level.sorted).1
      exact List.pairwise_cons.mpr ⟨above _ rest lowest, ih level.tail⟩
  | @retry job next result pending left history retried rest ih =>
      have lowest := (List.pairwise_cons.mp level.sorted).1
      have counted := counts job result next retried
      have added : ∀ found ∈ [next], attempt job ≤ attempt found := by
        intro found single
        rw [List.mem_singleton.mp single, counted]
        exact Nat.le_succ _
      exact List.pairwise_cons.mpr
        ⟨above _ rest (List.forall_mem_append.mpr ⟨lowest, added⟩), ih (level.retry counted)⟩

/-! ## Batches -/

namespace Serves

variable {cut : Cut Job} {pending left : List Job} {batches : List (List Job)}
  {history : List (Job × Result)}

/-- What is served: settled rows, then what the last batch took from the queue
they left. -/
theorem split (serves : Serves policy cut pending batches history left) :
    ∃ settled taken others, Advances policy pending settled left ∧
      batches.flatten = settled.map Prod.fst ++ taken ∧ taken <+: left ∧
        history = settled ++ others ∧ others.map Prod.fst <+: taken := by
  induction serves with
  | ended => exact ⟨[], [], [], .start, rfl, List.nil_prefix, rfl, List.nil_prefix⟩
  | @stopped pending rows _ answered =>
      have taken : cut.batch pending <+: pending := ⟨_, cut.whole pending⟩
      exact ⟨[], cut.batch pending, rows, .start, by simp, taken, rfl, answered⟩
  | @round pending next left rows history batches _ settled advances _ ih =>
      obtain ⟨later, taken, others, laterAdvances, jobs, queued, rest, answered⟩ := ih
      refine ⟨rows ++ later, taken, others, advances.trans laterAdvances, ?_, queued, ?_, answered⟩
      · rw [List.flatten_cons, jobs, ← settled, List.map_append, List.append_assoc]
      · rw [rest, List.append_assoc]

theorem finished (serves : Serves policy cut pending batches history []) :
    Advances policy pending history [] ∧ batches.flatten = history.map Prod.fst := by
  obtain ⟨settled, taken, others, advances, jobs, queued, rows, answered⟩ := serves.split
  obtain rfl := List.prefix_nil.mp queued
  obtain rfl := List.map_eq_nil_iff.mp (List.prefix_nil.mp answered)
  rw [List.append_nil] at jobs rows
  subst rows
  exact ⟨advances, jobs⟩

theorem batch (serves : Serves policy cut pending batches history left)
    {before after : List (List Job)} {found : List Job}
    (located : batches = before ++ found :: after) :
    ∃ rows queue, Advances policy pending rows queue ∧ rows.map Prod.fst = before.flatten ∧
      rows <+: history ∧ queue ≠ [] ∧ found = cut.batch queue := by
  induction serves generalizing before with
  | ended => simp at located
  | @stopped pending rows nonempty _ =>
      cases before with
      | nil =>
          obtain ⟨rfl, _⟩ := List.cons.inj located
          exact ⟨[], pending, .start, rfl, List.nil_prefix, nonempty, rfl⟩
      | cons first rest => simp at located
  | @round pending next left rows history batches nonempty settled advances _ ih =>
      cases before with
      | nil =>
          obtain ⟨rfl, _⟩ := List.cons.inj located
          exact ⟨[], pending, .start, rfl, List.nil_prefix, nonempty, rfl⟩
      | cons first rest =>
          obtain ⟨rfl, later⟩ := List.cons.inj located
          obtain ⟨later, queue, laterAdvances, jobs, inside, unfinished, same⟩ := ih later
          refine ⟨rows ++ later, queue, advances.trans laterAdvances, ?_,
            (List.prefix_append_right_inj rows).mpr inside, unfinished, same⟩
          rw [List.map_append, jobs, settled, List.flatten_cons]

end Serves

end VllmVerifier.Worklist
