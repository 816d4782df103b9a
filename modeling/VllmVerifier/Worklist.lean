import Mathlib.Algebra.BigOperators.Group.List.Basic
import Mathlib.Data.List.Nodup
import Mathlib.Tactic.Abel

/-!
First-in first-out worklists with retries. A job at the head of the queue gets a
result; the result either finishes the job or puts one successor at the back.
Whatever the order in which several jobs are interleaved, the history of one
key is the chain of attempts that starts at its job.
-/

set_option autoImplicit false

namespace VllmVerifier.Worklist

variable {Job Result Key : Type}

/-- Which results finish a job, and which jobs may replace it otherwise. -/
structure Policy (Job Result : Type) where
  accepts : Job → Result → Prop
  retries : Job → Result → Job → Prop

/-- `Drains policy pending history`: the queue empties with this history. -/
inductive Drains (policy : Policy Job Result) : List Job → List (Job × Result) → Prop where
  | empty : Drains policy [] []
  | finish {job : Job} {result : Result} {pending : List Job} {history : List (Job × Result)} :
      policy.accepts job result → Drains policy pending history →
      Drains policy (job :: pending) ((job, result) :: history)
  | retry {job next : Job} {result : Result} {pending : List Job}
      {history : List (Job × Result)} :
      policy.retries job result next → Drains policy (pending ++ [next]) history →
      Drains policy (job :: pending) ((job, result) :: history)

/-- `Advances policy pending history left`: with this history, `left` is queued. -/
inductive Advances (policy : Policy Job Result) :
    List Job → List (Job × Result) → List Job → Prop where
  | start {pending : List Job} : Advances policy pending [] pending
  | finish {job : Job} {result : Result} {pending left : List Job}
      {history : List (Job × Result)} :
      policy.accepts job result → Advances policy pending history left →
      Advances policy (job :: pending) ((job, result) :: history) left
  | retry {job next : Job} {result : Result} {pending left : List Job}
      {history : List (Job × Result)} :
      policy.retries job result next → Advances policy (pending ++ [next]) history left →
      Advances policy (job :: pending) ((job, result) :: history) left

/-- The attempts of one job: rejected results, then an accepted one. -/
inductive Chain (policy : Policy Job Result) : Job → List (Job × Result) → Prop where
  | finish {job : Job} {result : Result} :
      policy.accepts job result → Chain policy job [(job, result)]
  | retry {job next : Job} {result : Result} {rows : List (Job × Result)} :
      policy.retries job result next → Chain policy next rows →
      Chain policy job ((job, result) :: rows)

variable {policy : Policy Job Result}

namespace Advances

variable {pending left : List Job} {rows : List (Job × Result)}

/-- What advances a queue that drains goes before its history. -/
theorem drains (advances : Advances policy pending rows left) {history : List (Job × Result)}
    (rest : Drains policy left history) : Drains policy pending (rows ++ history) := by
  induction advances with
  | start => exact rest
  | finish accepted _ ih => exact .finish accepted (ih rest)
  | retry retried _ ih => exact .retry retried (ih rest)

theorem trans (advances : Advances policy pending rows left) {last : List Job}
    {history : List (Job × Result)} (rest : Advances policy left history last) :
    Advances policy pending (rows ++ history) last := by
  induction advances with
  | start => exact rest
  | finish accepted _ ih => exact .finish accepted (ih rest)
  | retry retried _ ih => exact .retry retried (ih rest)

theorem imp {other : Policy Job Result}
    (accepts : ∀ job result, policy.accepts job result → other.accepts job result)
    (retries : ∀ job result next, policy.retries job result next → other.retries job result next)
    (advances : Advances policy pending rows left) : Advances other pending rows left := by
  induction advances with
  | start => exact .start
  | finish accepted _ ih => exact .finish (accepts _ _ accepted) ih
  | retry retried _ ih => exact .retry (retries _ _ _ retried) ih

/-- A property of jobs that retries preserve holds of every job that was ever queued. -/
theorem invariant {holds : Job → Prop}
    (preserved : ∀ job result next, holds job → policy.retries job result next → holds next)
    (advances : Advances policy pending rows left) (initial : ∀ job ∈ pending, holds job) :
    ∀ job ∈ rows.map Prod.fst ++ left, holds job := by
  induction advances with
  | start => exact initial
  | finish _ _ ih =>
      obtain ⟨first, others⟩ := List.forall_mem_cons.mp initial
      exact List.forall_mem_cons.mpr ⟨first, ih others⟩
  | retry retried _ ih =>
      obtain ⟨first, others⟩ := List.forall_mem_cons.mp initial
      have added := List.forall_mem_singleton.mpr (preserved _ _ _ first retried)
      exact List.forall_mem_cons.mpr
        ⟨first, ih (List.forall_mem_append.mpr ⟨others, added⟩)⟩

/-- Where retries lose weight and nothing queued is without, the weight of a
queue bounds what it can still process. -/
theorem bounded {holds : Job → Prop} {weight : Job → Nat}
    (preserved : ∀ job result next, holds job → policy.retries job result next → holds next)
    (positive : ∀ job, holds job → 0 < weight job)
    (falls : ∀ job result next, policy.retries job result next → weight next < weight job)
    (advances : Advances policy pending rows left) (initial : ∀ job ∈ pending, holds job) :
    rows.length + (left.map weight).sum ≤ (pending.map weight).sum := by
  induction advances with
  | start => simp
  | finish _ _ ih =>
      obtain ⟨first, others⟩ := List.forall_mem_cons.mp initial
      have bound := ih others
      have used := positive _ first
      simp only [List.length_cons, List.map_cons, List.sum_cons]
      omega
  | retry retried _ ih =>
      obtain ⟨first, others⟩ := List.forall_mem_cons.mp initial
      have added := List.forall_mem_singleton.mpr (preserved _ _ _ first retried)
      have bound := ih (List.forall_mem_append.mpr ⟨others, added⟩)
      have used := falls _ _ _ retried
      simp only [List.length_cons, List.map_cons, List.sum_cons, List.map_append, List.map_nil,
        List.sum_append, List.sum_nil] at bound ⊢
      omega

end Advances

namespace Drains

/-- A property of jobs that retries preserve holds of every job processed. -/
theorem invariant {holds : Job → Prop}
    (preserved : ∀ job result next, holds job → policy.retries job result next → holds next)
    {pending : List Job} {history : List (Job × Result)} (drains : Drains policy pending history)
    (initial : ∀ job ∈ pending, holds job) : ∀ row ∈ history, holds row.1 := by
  induction drains with
  | empty =>
      intro row member
      cases member
  | @finish job result pending history _ _ ih =>
      intro row member
      rcases List.mem_cons.mp member with rfl | later
      · exact initial _ List.mem_cons_self
      · exact ih (fun job queued => initial job (List.mem_cons_of_mem _ queued)) row later
  | @retry job next result pending history retried _ ih =>
      intro row member
      rcases List.mem_cons.mp member with rfl | later
      · exact initial _ List.mem_cons_self
      · refine ih ?_ row later
        intro job queued
        rcases List.mem_append.mp queued with queued | added
        · exact initial job (List.mem_cons_of_mem _ queued)
        · rw [List.mem_singleton.mp added]
          exact preserved _ _ _ (initial _ List.mem_cons_self) retried

section Keys

variable [DecidableEq Key] {key : Job → Key}

theorem absent (kept : ∀ job result next, policy.retries job result next → key next = key job)
    {pending : List Job} {history : List (Job × Result)} (drains : Drains policy pending history)
    {label : Key} (fresh : ∀ job ∈ pending, key job ≠ label) :
    history.filter (fun row => key row.1 = label) = [] := by
  have throughout : ∀ row ∈ history, key row.1 ≠ label := by
    refine drains.invariant ?_ fresh
    intro job result next different retried
    rwa [kept job result next retried]
  apply List.filter_eq_nil_iff.mpr
  intro row member
  simpa using throughout row member

/-- The history of a key that exactly one pending job has is the chain of that
job, whatever else is in the queue. -/
theorem chain (kept : ∀ job result next, policy.retries job result next → key next = key job)
    {pending : List Job} {history : List (Job × Result)} (drains : Drains policy pending history)
    {label : Key} {start : Job}
    (single : pending.filter (fun job => key job = label) = [start]) :
    Chain policy start (history.filter fun row => key row.1 = label) := by
  induction drains generalizing start with
  | empty => cases single
  | @finish job result pending history accepted rest ih =>
      by_cases same : key job = label
      · simp only [List.filter_cons, same, decide_true, if_true, List.cons.injEq] at single
        obtain ⟨rfl, none⟩ := single
        have fresh : ∀ other ∈ pending, key other ≠ label := by
          intro other queued
          simpa using List.filter_eq_nil_iff.mp none other queued
        simp only [List.filter_cons, same, decide_true, if_true, rest.absent kept fresh]
        exact .finish accepted
      · simp only [List.filter_cons, same, decide_false, Bool.false_eq_true, if_false] at single
        simp only [List.filter_cons, same, decide_false, Bool.false_eq_true, if_false]
        exact ih single
  | @retry job next result pending history retried rest ih =>
      have nextKey := kept job result next retried
      by_cases same : key job = label
      · simp only [List.filter_cons, same, decide_true, if_true, List.cons.injEq] at single
        obtain ⟨rfl, none⟩ := single
        simp only [List.filter_cons, same, decide_true, if_true]
        refine .retry retried (ih ?_)
        simp [List.filter_append, none, nextKey, same]
      · simp only [List.filter_cons, same, decide_false, Bool.false_eq_true, if_false] at single
        simp only [List.filter_cons, same, decide_false, Bool.false_eq_true, if_false]
        refine ih ?_
        simp [List.filter_append, single, nextKey, same]

end Keys

end Drains

namespace Chain

variable {job : Job} {rows : List (Job × Result)}

/-- A chain is rejected results followed by one accepted result. -/
theorem shape (chain : Chain policy job rows) :
    ∃ rejected last, rows = rejected ++ [last] ∧ policy.accepts last.1 last.2 ∧
      ∀ row ∈ rejected, ∃ next, policy.retries row.1 row.2 next := by
  induction chain with
  | finish accepted => exact ⟨[], _, rfl, accepted, by simp⟩
  | retry retried _ ih =>
      obtain ⟨rejected, last, rfl, accepted, others⟩ := ih
      refine ⟨_ :: rejected, last, rfl, accepted, ?_⟩
      intro row member
      rcases List.mem_cons.mp member with rfl | member
      · exact ⟨_, retried⟩
      · exact others row member

/-- A property of jobs that retries preserve holds along a chain. -/
theorem invariant {holds : Job → Prop}
    (preserved : ∀ job result next, holds job → policy.retries job result next → holds next)
    (chain : Chain policy job rows) (initial : holds job) : ∀ row ∈ rows, holds row.1 := by
  induction chain with
  | finish =>
      intro row member
      rw [List.mem_singleton.mp member]
      exact initial
  | retry retried _ ih =>
      intro row member
      rcases List.mem_cons.mp member with rfl | member
      · exact initial
      · exact ih (preserved _ _ _ initial retried) row member

/-- Attempts are numbered consecutively from that of the first job. -/
theorem attempts {attempt : Job → Nat}
    (counts : ∀ job result next, policy.retries job result next → attempt next = attempt job + 1)
    (chain : Chain policy job rows) :
    rows.map (fun row => attempt row.1) = List.range' (attempt job) rows.length := by
  induction chain with
  | finish => simp
  | @retry job next result rows retried _ ih =>
      simp only [List.map_cons, List.length_cons, List.range'_succ, List.cons.injEq, true_and]
      rw [ih, counts _ _ _ retried]

theorem length_le {attempt : Job → Nat} {limit : Nat}
    (counts : ∀ job result next, policy.retries job result next → attempt next = attempt job + 1)
    (bounded : ∀ job result next, policy.retries job result next → attempt job < limit)
    (chain : Chain policy job rows) (initial : attempt job ≤ limit) :
    attempt job + rows.length ≤ limit + 1 := by
  induction chain with
  | finish => simpa using initial
  | @retry job next result rows retried _ ih =>
      have successor := counts _ _ _ retried
      have below := bounded _ _ _ retried
      have later := ih (by omega)
      simp only [List.length_cons]
      omega

end Chain

/-- A sum over the rows with a property splits over the labels they can have. -/
theorem sum_filter_label {Row Label M : Type} [DecidableEq Label] [AddCommMonoid M]
    (value : Row → M) (label : Row → Label) (holds : Row → Bool) {labels : List Label}
    (distinct : labels.Nodup) {rows : List Row}
    (covered : ∀ row ∈ rows, holds row = true → label row ∈ labels) :
    ((rows.filter holds).map value).sum =
      (labels.map fun found =>
        ((rows.filter fun row => holds row && decide (label row = found)).map value).sum).sum := by
  induction rows with
  | nil => simp
  | cons row rest ih =>
      have others := ih fun row member => covered row (List.mem_cons_of_mem _ member)
      cases selected : holds row with
      | false => simpa [selected] using others
      | true =>
          have known := covered row List.mem_cons_self selected
          obtain ⟨before, after, rfl⟩ := List.append_of_mem known
          have parts := List.nodup_append.mp distinct
          have beforeFree : ∀ found ∈ before, label row ≠ found :=
            fun found member same => parts.2.2 found member (label row) List.mem_cons_self same.symm
          have afterFree : ∀ found ∈ after, label row ≠ found := by
            intro found member same
            exact (List.nodup_cons.mp parts.2.1).1 (same ▸ member)
          have skipped : ∀ {found}, label row ≠ found →
              (((row :: rest).filter fun row => holds row && decide (label row = found)).map
                value).sum =
              ((rest.filter fun row => holds row && decide (label row = found)).map value).sum := by
            intro found different
            simp [different]
          rw [List.map_append, List.map_cons, List.sum_append, List.sum_cons] at others ⊢
          rw [List.map_congr_left fun found member => skipped (beforeFree found member),
            List.map_congr_left fun found member => skipped (afterFree found member)]
          simp only [List.filter_cons, selected, if_true, List.map_cons, List.sum_cons,
            Bool.true_and, decide_true, others]
          abel

end VllmVerifier.Worklist
