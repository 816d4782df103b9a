import Mathlib.Algebra.GroupWithZero.Nat
import Mathlib.Data.List.Basic
import Mathlib.Data.List.Count
import Mathlib.Data.List.Forall2

/-!
Machines: a partial step function on labelled events. An event that is not
enabled has no step, so the runs of a machine are the interleavings that its
guards allow.
-/

set_option autoImplicit false

namespace VllmVerifier.Machine

variable {State Event : Type}

/-- The state after the events, when each of them was enabled. -/
def run (step : State → Event → Option State) : State → List Event → Option State
  | state, [] => some state
  | state, event :: rest =>
      match step state event with
      | some next => run step next rest
      | none => none

variable {step : State → Event → Option State}

@[simp] theorem run_nil (state : State) : run step state [] = some state := rfl

theorem run_cons {state last : State} {event : Event} {rest : List Event}
    (ran : run step state (event :: rest) = some last) :
    ∃ next, step state event = some next ∧ run step next rest = some last := by
  unfold run at ran
  split at ran
  · exact ⟨_, by assumption, ran⟩
  · cases ran

/-- What every step preserves holds after every run. -/
theorem run_invariant {holds : State → Prop}
    (preserved : ∀ state event next, holds state → step state event = some next → holds next)
    {state last : State} {events : List Event} (ran : run step state events = some last)
    (initially : holds state) : holds last := by
  induction events generalizing state with
  | nil =>
      cases ran
      exact initially
  | cons event rest ih =>
      obtain ⟨next, stepped, ran⟩ := run_cons ran
      exact ih ran (preserved state event next initially stepped)

/-- What each step extends with its event holds of every run and its events. -/
theorem run_history {holds : List Event → State → Prop}
    (extended : ∀ events state event next, holds events state → step state event = some next →
      holds (events ++ [event]) next)
    {state last : State} {earlier events : List Event} (ran : run step state events = some last)
    (initially : holds earlier state) : holds (earlier ++ events) last := by
  induction events generalizing state earlier with
  | nil =>
      cases ran
      rw [List.append_nil]
      exact initially
  | cons event rest ih =>
      obtain ⟨next, stepped, ran⟩ := run_cons ran
      have after := ih ran (extended earlier state event next initially stepped)
      rwa [List.append_assoc] at after

/-- Every event meets this at the state it finds. -/
def Along (step : State → Event → Option State) (meets : State → Event → Prop) :
    State → List Event → Prop
  | _, [] => True
  | state, event :: rest =>
      meets state event ∧ ∀ next, step state event = some next → Along step meets next rest

instance decidableAlong {meets : State → Event → Prop}
    [∀ state event, Decidable (meets state event)] :
    ∀ state events, Decidable (Along step meets state events)
  | _, [] => .isTrue trivial
  | state, event :: rest =>
      have later : Decidable (∀ next, step state event = some next → Along step meets next rest) :=
        match step state event with
        | none => .isTrue fun _ found => (by cases found)
        | some next =>
            have : Decidable (Along step meets next rest) := decidableAlong next rest
            decidable_of_iff (Along step meets next rest) (by simp)
      inferInstanceAs (Decidable (_ ∧ _))

theorem along_of_forall {meets : State → Event → Prop} {events : List Event}
    (met : ∀ state, ∀ event ∈ events, meets state event) (state : State) :
    Along step meets state events := by
  induction events generalizing state with
  | nil => trivial
  | cons event rest ih =>
      refine ⟨met state event List.mem_cons_self, fun next _ => ih (fun state event member => ?_) next⟩
      exact met state event (List.mem_cons_of_mem _ member)

/-- What every step that meets a condition preserves holds after the runs whose steps all do. -/
theorem run_invariant_along {holds : State → Prop} {meets : State → Event → Prop}
    (preserved : ∀ state event next, holds state → meets state event →
      step state event = some next → holds next)
    {state last : State} {events : List Event} (along : Along step meets state events)
    (ran : run step state events = some last) (initially : holds state) : holds last := by
  induction events generalizing state with
  | nil =>
      cases ran
      exact initially
  | cons event rest ih =>
      obtain ⟨met, others⟩ := along
      obtain ⟨next, stepped, ran⟩ := run_cons ran
      exact ih (others next stepped) ran (preserved state event next initially met stepped)

/-- What each step that meets a condition extends with its event holds of the runs
whose steps all do, and their events. -/
theorem run_history_along {holds : List Event → State → Prop} {meets : State → Event → Prop}
    (extended : ∀ events state event next, holds events state → meets state event →
      step state event = some next → holds (events ++ [event]) next)
    {state last : State} {earlier events : List Event} (along : Along step meets state events)
    (ran : run step state events = some last) (initially : holds earlier state) :
    holds (earlier ++ events) last := by
  induction events generalizing state earlier with
  | nil =>
      cases ran
      rw [List.append_nil]
      exact initially
  | cons event rest ih =>
      obtain ⟨met, others⟩ := along
      obtain ⟨next, stepped, ran⟩ := run_cons ran
      have after := ih (others next stepped) ran
        (extended earlier state event next initially met stepped)
      rwa [List.append_assoc] at after

/-- One step that misses a condition spoils the run, where the damage stays. -/
theorem run_spoiled {holds spoiled : State → Prop} {meets : State → Event → Prop}
    (preserved : ∀ state event next, holds state → step state event = some next → holds next)
    (spoils : ∀ state event next, holds state → ¬ meets state event →
      step state event = some next → spoiled next)
    (stays : ∀ state event next, spoiled state → step state event = some next → spoiled next)
    {state last : State} {events : List Event} (missed : ¬ Along step meets state events)
    (ran : run step state events = some last) (initially : holds state) : spoiled last := by
  induction events generalizing state with
  | nil => exact absurd trivial missed
  | cons event rest ih =>
      obtain ⟨next, stepped, ran⟩ := run_cons ran
      by_cases met : meets state event
      · refine ih ?_ ran (preserved state event next initially stepped)
        intro along
        refine missed ⟨met, fun other otherStepped => ?_⟩
        cases stepped.symm.trans otherStepped
        exact along
      · exact run_invariant stays ran (spoils state event next initially met stepped)

/-- A preorder that every step respects, on states with an invariant, relates
the two ends of a run. -/
theorem run_relates {holds : State → Prop} {related : State → State → Prop}
    (preserved : ∀ state event next, holds state → step state event = some next → holds next)
    (reflexive : ∀ state, related state state)
    (transitive : ∀ first second third, related first second → related second third →
      related first third)
    (respects : ∀ state event next, holds state → step state event = some next →
      related state next)
    {state last : State} {events : List Event} (ran : run step state events = some last)
    (initially : holds state) : related state last := by
  induction events generalizing state with
  | nil =>
      cases ran
      exact reflexive _
  | cons event rest ih =>
      obtain ⟨next, stepped, ran⟩ := run_cons ran
      exact transitive _ _ _ (respects state event next initially stepped)
        (ih ran (preserved state event next initially stepped))

theorem run_cons_bind (state : State) (event : Event) (rest : List Event) :
    run step state (event :: rest) = (step state event).bind fun next => run step next rest := by
  rw [run]
  cases step state event <;> rfl

theorem rel_bind {First Second Third Fourth : Type} {related : First → Second → Prop}
    {after : Third → Fourth → Prop} {first : Option First} {second : Option Second}
    {continuation : First → Option Third} {other : Second → Option Fourth}
    (both : Option.Rel related first second)
    (next : ∀ value twin, first = some value → second = some twin → related value twin →
      Option.Rel after (continuation value) (other twin)) :
    Option.Rel after (first.bind continuation) (second.bind other) := by
  cases both with
  | none => exact .none
  | some known => exact next _ _ rfl rfl known

/-- Two machines that step together, on related states with their invariants,
run together. -/
theorem run_together {Twin : Type} {twinStep : Twin → Event → Option Twin}
    {holds : State → Prop} {twinHolds : Twin → Prop} {related : State → Twin → Prop}
    (preserved : ∀ state event next, holds state → step state event = some next → holds next)
    (twinPreserved : ∀ twin event next, twinHolds twin → twinStep twin event = some next →
      twinHolds next)
    (together : ∀ state twin event, holds state → twinHolds twin → related state twin →
      Option.Rel related (step state event) (twinStep twin event))
    {state : State} {twin : Twin} (initially : holds state) (twinInitially : twinHolds twin)
    (known : related state twin) (events : List Event) :
    Option.Rel related (run step state events) (run twinStep twin events) := by
  induction events generalizing state twin with
  | nil => exact .some known
  | cons event rest ih =>
      rw [run_cons_bind, run_cons_bind]
      refine rel_bind (together state twin event initially twinInitially known) ?_
      intro next twinNext stepped twinStepped after
      exact ih (preserved state event next initially stepped)
        (twinPreserved twin event twinNext twinInitially twinStepped) after

/-- Where some step lowers a measure as long as the state is not final, a run
ends in a final state. -/
theorem run_completes (measure : State → Nat) {holds final : State → Prop}
    (preserved : ∀ state event next, holds state → step state event = some next → holds next)
    (progress : ∀ state, holds state → ¬ final state →
      ∃ event next, step state event = some next ∧ measure next < measure state)
    {state : State} (initially : holds state) :
    ∃ events last, run step state events = some last ∧ final last := by
  induction size : measure state using Nat.strongRecOn generalizing state with
  | ind size ih =>
      by_cases done : final state
      · exact ⟨[], state, rfl, done⟩
      · obtain ⟨event, next, stepped, lower⟩ := progress state initially done
        obtain ⟨events, last, ran, reached⟩ := ih (measure next) (size ▸ lower)
          (preserved state event next initially stepped) rfl
        exact ⟨event :: events, last, by simp [run, stepped, ran], reached⟩

/-- Where some step of a kind lowers a measure as long as the state is not final, a run of
such steps ends in a final state. -/
theorem run_completes_by (measure : State → Nat) {holds final : State → Prop}
    {kind : Event → Prop}
    (preserved : ∀ state event next, holds state → step state event = some next → holds next)
    (progress : ∀ state, holds state → ¬ final state →
      ∃ event next, kind event ∧ step state event = some next ∧ measure next < measure state)
    {state : State} (initially : holds state) :
    ∃ events last, (∀ event ∈ events, kind event) ∧ run step state events = some last ∧
      final last := by
  have guarded : ∃ events last,
      run (fun state (event : { event // kind event }) => step state event.val) state events =
        some last ∧ final last := by
    refine run_completes measure (fun state event next known stepped =>
      preserved state event.val next known stepped) (fun state known going => ?_) initially
    obtain ⟨event, next, kind, stepped, lower⟩ := progress state known going
    exact ⟨⟨event, kind⟩, next, stepped, lower⟩
  obtain ⟨events, last, ran, reached⟩ := guarded
  refine ⟨events.map Subtype.val, last, ?_, ?_, reached⟩
  · intro event member
    obtain ⟨guard, _, rfl⟩ := List.mem_map.mp member
    exact guard.property
  · induction events generalizing state with
    | nil => exact ran
    | cons first rest ih =>
        obtain ⟨next, stepped, ran⟩ := run_cons ran
        rw [List.map_cons, run, stepped]
        exact ih (preserved state first.val next initially stepped) ran

/-- Where every step lowers a measure, a run is no longer than the measure. -/
theorem run_bounded (measure : State → Nat) {holds : State → Prop}
    (preserved : ∀ state event next, holds state → step state event = some next → holds next)
    (lowers : ∀ state event next, holds state → step state event = some next →
      measure next < measure state)
    {state last : State} {events : List Event} (ran : run step state events = some last)
    (initially : holds state) : events.length ≤ measure state := by
  induction events generalizing state with
  | nil => exact Nat.zero_le _
  | cons event rest ih =>
      obtain ⟨next, stepped, ran⟩ := run_cons ran
      have rest := ih ran (preserved state event next initially stepped)
      have lower := lowers state event next initially stepped
      exact Nat.succ_le_of_lt (Nat.lt_of_le_of_lt rest lower)

/-! ## Components -/

theorem countP_set {Component : Type} (counts : Component → Bool) {components : List Component}
    {index : Nat} {before : Component} (found : components[index]? = some before)
    (after : Component) :
    (components.set index after).countP counts + (if counts before then 1 else 0) =
      components.countP counts + (if counts after then 1 else 0) := by
  induction components generalizing index with
  | nil => cases found
  | cons first rest ih =>
      cases index with
      | zero =>
          cases found
          simp only [List.set_cons_zero, List.countP_cons]
          omega
      | succ index =>
          have others := ih found
          simp only [List.set_cons_succ, List.countP_cons]
          omega

theorem sum_set {Component : Type} (measure : Component → Nat) {components : List Component}
    {index : Nat} {before : Component} (found : components[index]? = some before)
    (after : Component) :
    ((components.set index after).map measure).sum + measure before =
      (components.map measure).sum + measure after := by
  induction components generalizing index with
  | nil => cases found
  | cons first rest ih =>
      cases index with
      | zero =>
          cases found
          simp only [List.set_cons_zero, List.map_cons, List.sum_cons]
          omega
      | succ index =>
          have others := ih found
          simp only [List.set_cons_succ, List.map_cons, List.sum_cons]
          omega

theorem forall_set {Component : Type} {holds : Component → Prop} {components : List Component}
    (all : ∀ component ∈ components, holds component) (index : Nat) {after : Component}
    (known : holds after) : ∀ component ∈ components.set index after, holds component := by
  intro component member
  rcases List.mem_or_eq_of_mem_set member with before | rfl
  · exact all component before
  · exact known

theorem map_set {Component Trait : Type} {trait : Component → Trait}
    {components : List Component} {index : Nat} {before after : Component}
    (found : components[index]? = some before) (same : trait after = trait before) :
    (components.set index after).map trait = components.map trait := by
  induction components generalizing index with
  | nil => cases found
  | cons first rest ih =>
      cases index with
      | zero =>
          cases found
          rw [List.set_cons_zero, List.map_cons, List.map_cons, same]
      | succ index => rw [List.set_cons_succ, List.map_cons, List.map_cons, ih found]

theorem forall₂_set {Component : Type} {related : Component → Component → Prop}
    {components : List Component} {index : Nat} {before after : Component}
    (found : components[index]? = some before) (known : related before after)
    (reflexive : ∀ component, related component component) :
    List.Forall₂ related components (components.set index after) := by
  induction components generalizing index with
  | nil => cases found
  | cons first rest ih =>
      cases index with
      | zero =>
          cases found
          exact .cons known (List.forall₂_same.mpr fun component _ => reflexive component)
      | succ index => exact .cons (reflexive first) (ih found)

end VllmVerifier.Machine
