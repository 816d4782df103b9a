import Mathlib.Data.List.Count

/-!
Taking turns over several queues: the first entries of all queues in their
order, then the second ones of those that have one, and so on. While two queues
have entries left, neither is two turns ahead of the other.
-/

set_option autoImplicit false

namespace VllmVerifier.Worklist

variable {α β : Type}

/-- The entries at a position, of the queues that have one. -/
def turn (queues : List (List α)) (position : Nat) : List α :=
  queues.filterMap fun queue => queue[position]?

/-- The turns at the first positions. -/
def turnsBelow (queues : List (List α)) (count : Nat) : List α :=
  (List.range count).flatMap (turn queues)

/-- The turns at all positions of the longest queue. -/
def turns (queues : List (List α)) : List α :=
  turnsBelow queues ((queues.map List.length).foldr max 0)

theorem turn_tail (queues : List (List α)) :
    turn (queues.map List.tail) = fun position => turn queues (position + 1) := by
  funext position
  unfold turn
  rw [List.filterMap_map]
  simp only [Function.comp_def, List.getElem?_tail]

theorem turn_map (f : α → β) (queues : List (List α)) :
    turn (queues.map (List.map f)) = fun position => (turn queues position).map f := by
  funext position
  unfold turn
  rw [List.filterMap_map, List.map_filterMap]
  simp only [Function.comp_def, List.getElem?_map]

theorem turnsBelow_succ (queues : List (List α)) (count : Nat) :
    turnsBelow queues (count + 1) =
      turn queues 0 ++ turnsBelow (queues.map List.tail) count := by
  unfold turnsBelow
  rw [List.range_succ_eq_map, List.flatMap_cons, List.flatMap_map, turn_tail]

theorem turnsBelow_empty {queues : List (List α)} (empty : ∀ queue ∈ queues, queue = [])
    (count : Nat) : turnsBelow queues count = [] := by
  have none : ∀ position, turn queues position = [] := by
    intro position
    apply List.filterMap_eq_nil_iff.mpr
    intro queue member
    rw [empty queue member, List.getElem?_nil]
  apply List.flatMap_eq_nil_iff.mpr
  intro position _
  exact none position

theorem length_le_longest {queues : List (List α)} {queue : List α} (member : queue ∈ queues) :
    queue.length ≤ (queues.map List.length).foldr max 0 := by
  induction queues with
  | nil => cases member
  | cons first rest ih =>
      simp only [List.map_cons, List.foldr_cons]
      rcases List.mem_cons.mp member with rfl | later
      · exact Nat.le_max_left _ _
      · exact Nat.le_trans (ih later) (Nat.le_max_right _ _)

theorem turns_map (f : α → β) (queues : List (List α)) :
    turns (queues.map (List.map f)) = (turns queues).map f := by
  unfold turns turnsBelow
  rw [turn_map, List.map_flatMap, List.map_map]
  simp only [Function.comp_def, List.length_map]

/-! ## Fairness -/

/-- `mine` tells the entries of one queue from those of all others. -/
inductive Belongs (mine : α → Bool) (queue : List α) : List (List α) → Prop where
  | here {others : List (List α)} : (∀ entry ∈ queue, mine entry = true) →
      (∀ other ∈ others, ∀ entry ∈ other, mine entry = false) →
      Belongs mine queue (queue :: others)
  | there {other : List α} {others : List (List α)} : (∀ entry ∈ other, mine entry = false) →
      Belongs mine queue others → Belongs mine queue (other :: others)

namespace Belongs

variable {mine yours : α → Bool} {queue other : List α} {queues : List (List α)}

theorem tail (belongs : Belongs mine queue queues) :
    Belongs mine queue.tail (queues.map List.tail) := by
  induction belongs with
  | here own foreign =>
      refine .here (fun entry member => own entry (List.mem_of_mem_tail member)) ?_
      intro other member entry inside
      obtain ⟨whole, present, rfl⟩ := List.mem_map.mp member
      exact foreign whole present entry (List.mem_of_mem_tail inside)
  | there foreign _ ih =>
      exact .there (fun entry member => foreign entry (List.mem_of_mem_tail member)) ih

end Belongs

end VllmVerifier.Worklist
