import VllmVerifier.Contract
import VllmVerifier.Prompts

/-!
What `finite_json` guarantees. It refuses a value exactly when some number in it
is not finite, so the contents of a validated request can be rendered.
-/

set_option autoImplicit false

namespace VllmVerifier.Contract

open Python Worklist

/-- A number that is not finite lies somewhere in the value. -/
def Infinite (value : Json) : Prop :=
  ∃ number, Within Json.children (.number number) value ∧ number.finite = false

theorem infinite_iff {value : Json} : Infinite value ↔ value.finite = false := by
  rw [← Bool.not_eq_true, Json.finite_iff]
  constructor
  · intro given all
    obtain ⟨number, inside, infinite⟩ := given
    rw [all number inside] at infinite
    cases infinite
  · intro some
    push Not at some
    obtain ⟨number, inside, infinite⟩ := some
    exact ⟨number, inside, Bool.eq_false_iff.mpr infinite⟩

theorem finite_of_systemOneRequest {raw : Json} {dicts : raw.distinctNames = true}
    {request : SystemOneRequest} (validated : systemOneRequest raw dicts = .ok request) :
    raw.finite = true := by
  unfold systemOneRequest at validated
  split at validated
  · rename_i passed
    exact passes_iff.mp passed
  · cases validated

/-- The texts rendered for a request: its state, and each of its questions for the
gateway and for the engine. -/
structure Renders (request : SystemOneRequest) : Prop where
  state : ∃ text, dumpsOrRaise .default request.state.value = .ok text
  gateway : ∀ entry ∈ request.questions.entries, ∀ correction,
    ∃ rendered, decisionMessages request.state entry.2 correction = .ok rendered
  engine : ∀ entry ∈ request.questions.entries, ∀ stateJson correction,
    ∃ rendered, Engine.messages stateJson entry.2 correction = .ok rendered

theorem renders (request : SystemOneRequest) : Renders request where
  state := dumpsOrRaise_ok .default request.state.finite
  gateway := fun entry _ correction => decisionMessages_ok request.state entry.2 correction
  engine := fun entry _ stateJson correction => Engine.messages_ok stateJson entry.2 correction

/-- The scan ends on every value; it raises exactly when a number in the value is
not finite and returns the value otherwise. What a validated request carries is
finite, so the prompts can be rendered. -/
theorem finiteJson_exact :
    (∀ value fuel, value.count ≤ fuel →
      (∃ outcome, finiteJson fuel value = some outcome) ∧
      (finiteJson fuel value =
        some (.error (.valueError "non-finite JSON numbers are not supported")) ↔
          Infinite value) ∧
      (finiteJson fuel value = some (.ok value) ↔ ¬ Infinite value)) ∧
    ∀ raw dicts request, systemOneRequest raw dicts = .ok request →
      ¬ Infinite raw ∧ Renders request := by
  constructor
  · intro value fuel enough
    rw [infinite_iff]
    rcases finiteJson_outcome enough with ⟨finite, ended⟩ | ⟨infinite, ended⟩
    · simp [ended, finite]
    · have known := infinite_iff.mp infinite
      simp [ended, known]
  · intro raw dicts request validated
    have finite := finite_of_systemOneRequest validated
    rw [infinite_iff, finite]
    exact ⟨Bool.noConfusion, renders request⟩

def sampleBody : Json :=
  .object [(lit "model", .str (lit "jev-latest")), (lit "state", .str (lit "s")),
    (lit "questions", .object [(lit "q", .object [(lit "type", .str (lit "noul"))])])]

theorem finiteJson_exact_sample :
    finiteJson 7 sampleBody = some (.ok sampleBody) ∧
      systemOneRequest sampleBody (by decide) = .ok (noulRequest (lit "s")) ∧
        Renders (noulRequest (lit "s")) := by
  have validated : systemOneRequest sampleBody (by decide) = .ok (noulRequest (lit "s")) := by
    decide +kernel
  obtain ⟨finite, rendered⟩ := finiteJson_exact.2 sampleBody _ _ validated
  exact ⟨(finiteJson_exact.1 sampleBody 7 (by decide)).2.2.mpr finite, validated, rendered⟩

end VllmVerifier.Contract
