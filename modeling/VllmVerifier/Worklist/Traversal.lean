import Mathlib.Algebra.BigOperators.Group.List.Basic
import Mathlib.Algebra.GroupWithZero.Nat
import Mathlib.Data.List.Basic

/-!
Traversals with an explicit stack. The last pending item is taken and its
children are pushed in its place, so siblings are visited in reverse and their
subtrees one after the other; whatever the order, no part is left out.
-/

set_option autoImplicit false

namespace VllmVerifier.Worklist

variable {Item ε : Type}

/-- `Within children part whole`: taking children leads from the whole to the part. -/
inductive Within (children : Item → List Item) : Item → Item → Prop where
  | self {item : Item} : Within children item item
  | child {part child whole : Item} : child ∈ children whole → Within children part child →
      Within children part whole

/-- The loop over a stack: an item is refused or replaced by its children. `none`
is a loop that has run out of fuel. -/
def traverse (refuses : Item → Option ε) (children : Item → List Item) :
    Nat → List Item → Option (Except ε Unit)
  | 0, pending => if pending.isEmpty then some (.ok ()) else none
  | fuel + 1, pending =>
      match pending.getLast? with
      | none => some (.ok ())
      | some item =>
          match refuses item with
          | some error => some (.error error)
          | none => traverse refuses children fuel (pending.dropLast ++ children item)

section Outcome

variable {refuses : Item → Option ε} {children : Item → List Item} {size : Item → Nat}

/-- No part of a pending item is refused. -/
def Clean (refuses : Item → Option ε) (children : Item → List Item) (pending : List Item) : Prop :=
  ∀ item ∈ pending, ∀ part, Within children part item → refuses part = none

theorem clean_append {left right : List Item} : Clean refuses children (left ++ right) ↔
    Clean refuses children left ∧ Clean refuses children right :=
  List.forall_mem_append

theorem clean_singleton {item : Item} : Clean refuses children [item] ↔
    refuses item = none ∧ Clean refuses children (children item) := by
  unfold Clean
  rw [List.forall_mem_singleton]
  constructor
  · intro clean
    exact ⟨clean item .self, fun child member part inside => clean part (.child member inside)⟩
  · intro ⟨own, others⟩ part inside
    cases inside with
    | self => exact own
    | child member deeper => exact others _ member part deeper

/-- Where children are together smaller than their parent, fuel for the pending
sizes ends the loop, and it succeeds exactly when no part is refused. -/
theorem traverse_of_size (smaller : ∀ item, ((children item).map size).sum < size item)
    {fuel : Nat} {pending : List Item} (enough : (pending.map size).sum ≤ fuel) :
    (Clean refuses children pending ∧ traverse refuses children fuel pending = some (.ok ())) ∨
      ∃ item ∈ pending, ∃ part error, Within children part item ∧ refuses part = some error ∧
        traverse refuses children fuel pending = some (.error error) := by
  induction fuel generalizing pending with
  | zero =>
      cases pending with
      | nil => exact .inl ⟨List.forall_mem_nil _, rfl⟩
      | cons item rest =>
          have positive := smaller item
          simp only [List.map_cons, List.sum_cons] at enough
          omega
  | succ fuel ih =>
      unfold traverse
      cases last : pending.getLast? with
      | none =>
          rw [List.getLast?_eq_none_iff.mp last]
          exact .inl ⟨List.forall_mem_nil _, rfl⟩
      | some item =>
          obtain ⟨before, shape⟩ := List.getLast?_eq_some_iff.mp last
          subst shape
          dsimp only
          cases refused : refuses item with
          | some error => exact .inr ⟨item, by simp, item, error, .self, refused, rfl⟩
          | none =>
              have lighter := smaller item
              have room : ((before ++ children item).map size).sum ≤ fuel := by
                simp only [List.map_append, List.sum_append, List.map_cons, List.map_nil,
                  List.sum_cons, List.sum_nil] at enough ⊢
                omega
              rw [List.dropLast_concat]
              rcases ih room with ⟨clean, ended⟩ | ⟨found, member, part, error, inside, bad, ended⟩
              · obtain ⟨earlier, below⟩ := clean_append.mp clean
                exact .inl ⟨clean_append.mpr ⟨earlier, clean_singleton.mpr ⟨refused, below⟩⟩, ended⟩
              · refine .inr ?_
                rcases List.mem_append.mp member with earlier | child
                · exact ⟨found, List.mem_append_left _ earlier, part, error, inside, bad, ended⟩
                · exact ⟨item, by simp, part, error, .child child inside, bad, ended⟩

theorem traverse_item (smaller : ∀ item, ((children item).map size).sum < size item) {fuel : Nat}
    {item : Item} (enough : size item ≤ fuel) :
    ((∀ part, Within children part item → refuses part = none) ∧
        traverse refuses children fuel [item] = some (.ok ())) ∨
      ∃ part error, Within children part item ∧ refuses part = some error ∧
        traverse refuses children fuel [item] = some (.error error) := by
  have room : ([item].map size).sum ≤ fuel := by simpa using enough
  rcases traverse_of_size smaller room with ⟨clean, ended⟩ | ⟨found, member, refused⟩
  · exact .inl ⟨clean item (List.mem_singleton_self item), ended⟩
  · cases List.mem_singleton.mp member
    exact .inr refused

end Outcome

end VllmVerifier.Worklist
