import Mathlib.Algebra.BigOperators.Group.List.Basic
import Mathlib.Algebra.Order.Field.Rat
import VllmVerifier.Python.Dict

/-!
Labelled counters, as a metrics client keeps them. A label that was never counted
stands at zero.
-/

set_option autoImplicit false

namespace VllmVerifier.Python

abbrev Counter (κ : Type) := Dict κ Nat

namespace Counter

variable {κ : Type} [DecidableEq κ]

def count (counter : Counter κ) (label : κ) : Nat := (counter.get? label).getD 0

/-- `counter.labels(label).inc()`. -/
def inc (counter : Counter κ) (label : κ) : Counter κ :=
  counter.set label (counter.count label + 1)

def total (counter : Counter κ) : Nat := counter.values.sum

theorem count_inc (counter : Counter κ) (label other : κ) :
    (counter.inc label).count other = counter.count other + if label = other then 1 else 0 := by
  by_cases same : label = other
  · subst same
    simp [inc, count]
  · simp only [inc, count, Dict.get?_set_of_ne (Ne.symm same), if_neg same, Nat.add_zero]

private theorem sum_setEntries (label : κ) (entries : List (κ × Nat)) :
    ((Dict.setEntries label ((Dict.lookupEntries label entries).getD 0 + 1) entries).map
      Prod.snd).sum = (entries.map Prod.snd).sum + 1 := by
  induction entries with
  | nil => rfl
  | cons entry rest ih =>
      by_cases same : entry.1 = label
      · simp only [Dict.setEntries, Dict.lookupEntries, if_pos same, Option.getD_some,
          List.map_cons, List.sum_cons]
        omega
      · simp only [Dict.setEntries, Dict.lookupEntries, if_neg same, List.map_cons, List.sum_cons,
          ih]
        omega

theorem total_inc (counter : Counter κ) (label : κ) :
    (counter.inc label).total = counter.total + 1 :=
  sum_setEntries label counter.entries

theorem mem_keys_inc {counter : Counter κ} {label other : κ}
    (member : other ∈ (counter.inc label).keys) : other = label ∨ other ∈ counter.keys := by
  by_cases present : label ∈ counter.keys
  · right
    have same : (counter.inc label).keys = counter.keys := Dict.setEntries_keys_of_mem _ present
    exact same ▸ member
  · rw [inc, Dict.keys_set_of_not_mem _ present] at member
    rcases List.mem_append.mp member with earlier | last
    · exact .inr earlier
    · exact .inl (List.mem_singleton.mp last)

end Counter

end VllmVerifier.Python
