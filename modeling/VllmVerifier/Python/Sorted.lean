import Mathlib.Algebra.Order.Ring.Rat
import Mathlib.Data.List.Sort

/-!
`sorted(items, key=key, reverse=True)`: descending, and stable.
-/

set_option autoImplicit false

namespace VllmVerifier.Python

variable {α : Type} {key : α → ℚ}

def sortedDescending (key : α → ℚ) (items : List α) : List α :=
  items.insertionSort fun first second => key second ≤ key first

/-- The items in descending order, where equal ones keep the order they had. -/
structure Ranked (key : α → ℚ) (items ranked : List α) : Prop where
  perm : ranked.Perm items
  descending : ranked.Pairwise fun first second => key second ≤ key first
  stable : ∀ value, ranked.filter (fun item => decide (key item = value)) =
    items.filter fun item => decide (key item = value)

/-- The first of the largest items. -/
def FirstLargest (key : α → ℚ) (items : List α) (best : α) : Prop :=
  ∃ before after, items = before ++ best :: after ∧
    (∀ item ∈ before, key item < key best) ∧ ∀ item ∈ after, key item ≤ key best

theorem filter_insert (value : ℚ) (item : α) {ranked : List α}
    (descending : ranked.Pairwise fun first second => key second ≤ key first) :
    (ranked.orderedInsert (fun first second => key second ≤ key first) item).filter
        (fun item => decide (key item = value)) =
      (item :: ranked).filter fun item => decide (key item = value) := by
  induction ranked with
  | nil => rfl
  | cons head rest ih =>
      rw [List.pairwise_cons] at descending
      rw [List.orderedInsert_cons]
      split
      · rfl
      · rename_i smaller
        rw [List.filter_cons, ih descending.2, List.filter_cons, List.filter_cons, List.filter_cons]
        by_cases same : key item = value
        · have other : key head ≠ value := fun equal => smaller (by rw [equal, same])
          simp [same, other]
        · simp [same]

theorem sortedDescending_ranked (key : α → ℚ) (items : List α) :
    Ranked key items (sortedDescending key items) := by
  have total : Std.Total fun first second : α => key second ≤ key first :=
    ⟨fun first second => le_total (key second) (key first)⟩
  have trans : IsTrans α fun first second => key second ≤ key first :=
    ⟨fun _ _ _ left right => le_trans right left⟩
  refine ⟨List.perm_insertionSort _ items, List.pairwise_insertionSort _ items, fun value => ?_⟩
  induction items with
  | nil => rfl
  | cons item rest ih =>
      rw [sortedDescending, List.insertionSort_cons,
        filter_insert value item (List.pairwise_insertionSort _ rest), List.filter_cons,
        List.filter_cons, ← ih]
      rfl

variable {items ranked rest : List α} {best : α}

theorem Ranked.largest (order : Ranked key items (best :: rest)) :
    ∀ item ∈ items, key item ≤ key best := by
  intro item member
  rcases List.mem_cons.mp (order.perm.mem_iff.mpr member) with rfl | later
  · exact le_refl _
  · exact (List.pairwise_cons.mp order.descending).1 item later

theorem Ranked.first (order : Ranked key items (best :: rest)) : FirstLargest key items best := by
  have stable := order.stable (key best)
  rw [List.filter_cons, if_pos (by simp)] at stable
  obtain ⟨before, after, shape, different, _, _⟩ := List.filter_eq_cons_iff.mp stable.symm
  refine ⟨before, after, shape, fun item member => ?_, fun item member => ?_⟩
  · have atMost := order.largest item (by rw [shape]; exact List.mem_append_left _ member)
    refine lt_of_le_of_ne atMost fun same => different item member ?_
    exact decide_eq_true same
  · exact order.largest item (by
      rw [shape]
      exact List.mem_append_right _ (List.mem_cons_of_mem _ member))

/-- What is not among the first `count` is no larger than what is. -/
theorem Ranked.above (order : Ranked key items ranked) (count : Nat) {first second : α}
    (taken : first ∈ ranked.take count) (left : second ∈ ranked.drop count) :
    key second ≤ key first := by
  have descending := order.descending
  rw [← List.take_append_drop count ranked, List.pairwise_append] at descending
  exact descending.2.2 first taken second left

end VllmVerifier.Python
