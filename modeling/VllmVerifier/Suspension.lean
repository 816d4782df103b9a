import Mathlib.Algebra.Order.Group.Multiset
import Mathlib.Logic.Relation
import Mathlib.Tactic.Abel

/-!
Tasks of which one is worked on and the others wait on a bounded stack. A move
opens a task, interrupts, resumes, completes or cancels one; no task is lost or
found twice, and a task leaves the stack only at its two ends.
-/

set_option autoImplicit false

namespace VllmVerifier.Suspension

variable {κ : Type}

/-- Where the tasks are, and which ones were ever opened. -/
structure Ledger (κ : Type) where
  active : Option κ
  suspended : List κ
  completed : List κ
  discarded : List κ
  opened : List κ

namespace Ledger

def empty : Ledger κ := ⟨none, [], [], [], []⟩

def places (ledger : Ledger κ) : List κ :=
  ledger.active.toList ++ (ledger.suspended ++ (ledger.completed ++ ledger.discarded))

/-- How many waiting tasks are too many once another one is pushed. -/
def excess (limit : Nat) (ledger : Ledger κ) : Nat := ledger.suspended.length + 1 - limit

end Ledger

inductive Move (limit : Nat) (ledger : Ledger κ) : Ledger κ → Prop where
  | opens {key : κ} : ledger.active = none → key ∉ ledger.opened →
      Move limit ledger
        { ledger with active := some key, opened := ledger.opened ++ [key] }
  | interrupts {key : κ} : ledger.active = some key →
      Move limit ledger
        { ledger with
          active := none
          suspended := (ledger.suspended ++ [key]).drop (ledger.excess limit)
          discarded := ledger.discarded ++ (ledger.suspended ++ [key]).take (ledger.excess limit) }
  | resumes {rest : List κ} {key : κ} : ledger.suspended = rest ++ [key] →
      Move limit ledger
        { ledger with active := some key, suspended := rest ++ ledger.active.toList }
  | completes {key : κ} : ledger.active = some key →
      Move limit ledger { ledger with active := none, completed := ledger.completed ++ [key] }
  | cancels {key : κ} : ledger.active = some key →
      Move limit ledger { ledger with active := none, discarded := ledger.discarded ++ [key] }

/-- Every opened task is in exactly one place. -/
structure Conserved (limit : Nat) (ledger : Ledger κ) : Prop where
  placed : ledger.places.Perm ledger.opened
  distinct : ledger.opened.Nodup
  bounded : ledger.suspended.length ≤ limit

theorem conserved_empty (limit : Nat) : Conserved limit (Ledger.empty : Ledger κ) :=
  ⟨.refl _, List.nodup_nil, Nat.zero_le _⟩

variable {limit : Nat} {ledger after : Ledger κ}

private theorem perm_of_sum {left right : List κ} (same : (left : Multiset κ) = right) :
    left.Perm right := Multiset.coe_eq_coe.mp same

theorem Conserved.move (conserved : Conserved limit ledger) (move : Move limit ledger after) :
    Conserved limit after := by
  obtain ⟨placed, distinct, bounded⟩ := conserved
  cases move with
  | @opens key idle fresh =>
      refine ⟨?_, List.nodup_append.mpr ⟨distinct, List.nodup_singleton _, ?_⟩, bounded⟩
      · rw [Ledger.places, idle] at placed
        exact (placed.cons key).trans (List.perm_append_singleton key ledger.opened).symm
      · intro other member _ single same
        subst same
        exact fresh (List.mem_singleton.mp single ▸ member)
  | @interrupts key busy =>
      refine ⟨.trans (perm_of_sum ?_) placed, distinct, ?_⟩
      · have split := List.take_append_drop (ledger.excess limit) (ledger.suspended ++ [key])
        generalize (ledger.suspended ++ [key]).take (ledger.excess limit) = dropped at split ⊢
        generalize (ledger.suspended ++ [key]).drop (ledger.excess limit) = kept at split ⊢
        have sum : (dropped : Multiset κ) + kept = ledger.suspended + [key] := by
          rw [Multiset.coe_add, split, Multiset.coe_add]
        simp only [Ledger.places, busy, Option.toList_none, Option.toList_some, ← Multiset.coe_add,
          Multiset.coe_nil]
        calc (0 : Multiset κ) + (kept + (ledger.completed + (ledger.discarded + dropped)))
            = (dropped + kept) + (ledger.completed + ledger.discarded) := by abel
          _ = ↑[key] + (ledger.suspended + (ledger.completed + ledger.discarded)) := by
              rw [sum]
              abel
      · rw [List.length_drop, List.length_append, List.length_singleton, Ledger.excess]
        omega
  | @resumes rest key waiting =>
      refine ⟨.trans (perm_of_sum ?_) placed, distinct, ?_⟩
      · simp only [Ledger.places, waiting, Option.toList_some, ← Multiset.coe_add]
        abel
      · rw [waiting, List.length_append] at bounded
        rw [List.length_append]
        cases ledger.active with
        | none => exact Nat.le_of_succ_le bounded
        | some _ => exact bounded
  | @completes key busy =>
      refine ⟨.trans (perm_of_sum ?_) placed, distinct, bounded⟩
      simp only [Ledger.places, busy, Option.toList_none, Option.toList_some, ← Multiset.coe_add,
        Multiset.coe_nil]
      abel
  | @cancels key busy =>
      refine ⟨.trans (perm_of_sum ?_) placed, distinct, bounded⟩
      simp only [Ledger.places, busy, Option.toList_none, Option.toList_some, ← Multiset.coe_add,
        Multiset.coe_nil]
      abel

/-- Moves in any number and order conserve the tasks. -/
theorem Conserved.run (conserved : Conserved limit ledger)
    (run : Relation.ReflTransGen (Move limit) ledger after) : Conserved limit after := by
  induction run with
  | refl => exact conserved
  | tail _ move ih => exact ih.move move

theorem Conserved.nodup (conserved : Conserved limit ledger) : ledger.places.Nodup :=
  conserved.placed.nodup_iff.mpr conserved.distinct

/-- A task that was opened and is neither active nor suspended. -/
structure Departed (ledger : Ledger κ) (key : κ) : Prop where
  opened : key ∈ ledger.opened
  inactive : ledger.active ≠ some key
  unsuspended : key ∉ ledger.suspended

theorem Departed.move {key : κ} (departed : Departed ledger key) (move : Move limit ledger after) :
    Departed after key := by
  obtain ⟨opened, inactive, unsuspended⟩ := departed
  cases move with
  | @opens other idle fresh =>
      refine ⟨List.mem_append_left _ opened, ?_, unsuspended⟩
      intro given
      cases given
      exact fresh opened
  | @interrupts other busy =>
      refine ⟨opened, (Option.some_ne_none _).symm, fun member => ?_⟩
      rcases List.mem_append.mp (List.mem_of_mem_drop member) with early | pushed
      · exact unsuspended early
      · rw [busy, List.mem_singleton.mp pushed] at inactive
        exact inactive rfl
  | @resumes rest other waiting =>
      refine ⟨opened, ?_, fun member => ?_⟩
      · intro given
        cases given
        rw [waiting] at unsuspended
        exact unsuspended (List.mem_append_right _ (List.mem_singleton_self _))
      · rcases List.mem_append.mp member with early | displaced
        · rw [waiting] at unsuspended
          exact unsuspended (List.mem_append_left _ early)
        · exact inactive (Option.mem_toList.mp displaced)
  | completes => exact ⟨opened, (Option.some_ne_none _).symm, unsuspended⟩
  | cancels => exact ⟨opened, (Option.some_ne_none _).symm, unsuspended⟩

theorem Departed.run {key : κ} (departed : Departed ledger key)
    (run : Relation.ReflTransGen (Move limit) ledger after) : Departed after key := by
  induction run with
  | refl => exact departed
  | tail _ move ih => exact ih.move move

end VllmVerifier.Suspension
