import VllmVerifier.Verification

/-!
`decision/readout.py`: a typed answer from the probabilities of the candidates
of one question.
-/

set_option autoImplicit false

namespace VllmVerifier.Decision

open Python

/-- A Python float, its finite values exact. -/
inductive PyFloat where
  | finite (value : ℚ)
  | nan
  | infinity
  | negInfinity
deriving DecidableEq

/-- The candidates of a question: two for Noul, else one for each criterion. -/
def candidateCount : Question → Nat
  | .noul _ => 2
  | .choice question => question.criteria.entries.length
  | .score question => question.criteria.length

/-- The check of one probability of the vector. -/
def candidateProbability : PyFloat → Except PyException ℚ
  | .finite value =>
      if 0 ≤ value ∧ value ≤ 1 then .ok value
      else .error (.valueError "Invalid candidate probability vector")
  | .nan | .infinity | .negInfinity => .error (.valueError "Invalid candidate probability vector")

section Answers

variable {F : Type} [LogField F]

def candidateAnswer (question : Question) (vector : List PyFloat) :
    Except PyException (Answer F) := do
  if vector.length = candidateCount question then
    let probabilities ← vector.mapM candidateProbability
    if 2 / 100000 < |fsum probabilities - 1| then
      .error (.valueError "Candidate probabilities do not sum to one")
    else match question with
      | .noul _ => do
          let noul ← at? probabilities 1
          let noul ← Probability.validate noul
          pure (.noul ⟨noul⟩)
      | .choice question => do
          let confidence ← maxBy id probabilities
          let answer ← choiceAnswer question probabilities (confidence : F)
          pure (.choice answer)
      | .score question => do
          let confidence ← maxBy id probabilities
          let answer ← scoreAnswer question probabilities (confidence : F)
          pure (.score answer)
  else .error (.valueError "Invalid candidate probability vector")

end Answers

end VllmVerifier.Decision
