import VllmVerifier.Models
import VllmVerifier.Json.Dumps
import VllmVerifier.Json.Loads

/-!
`verification.py`: the strict reading of a completion as a typed answer. Number
literals, sums and quotients are exact here, where the code has doubles: the two may
differ at the very ends of an interval, as for a sum that rounds to just over 0.01
from one, and in the last digits of what is reported. Every operation that Python
could raise on is fallible, so that accepting and failing are statements about the
code's own checks.
-/

set_option autoImplicit false

namespace VllmVerifier

open Python

/-! ## Arithmetic that can raise -/

section Arithmetic

variable {F : Type} [LogField F]

/-- `left / right`. -/
def divide (left right : F) : Except PyException F :=
  if right = 0 then .error .zeroDivisionError else .ok (left / right)

/-- `math.log(value)`. -/
def mathLog (value : F) : Except PyException F :=
  if 0 < value then .ok (LogField.log value) else .error (.valueError "math domain error")

end Arithmetic

/-- `left / right` on probabilities, which stay rational. -/
def divideExact (left right : ℚ) : Except PyException ℚ :=
  if right = 0 then .error .zeroDivisionError else .ok (left / right)

/-- `math.fsum(values)`. -/
def fsum {F : Type} [Add F] [Zero F] (values : List F) : F := values.sum

/-- `max(candidates, key=key)`: the first of the candidates with the largest key. -/
def maxBy {α : Type} (key : α → ℚ) : List α → Except PyException α
  | [] => .error (.valueError "max() iterable argument is empty")
  | first :: rest =>
      .ok (rest.foldl (fun best candidate => if key best < key candidate then candidate else best)
        first)

/-! ## Reading JSON -/

def uniqueObject (pairs : List (Str × Json)) : Except PyException Json := do
  let result ← pairs.foldlM (fun (result : List (Str × Json)) pair =>
    if pair.1 ∈ result.map Prod.fst then .error (.invalidOutput "duplicate JSON keys")
    else .ok (Dict.setEntries pair.1 pair.2 result)) []
  pure (.object result)

/-- The text inside one enclosing Markdown fence. -/
def unfence (text : Str) : Str :=
  if Str.startswith text (lit "```json\n") && Str.endswith text (lit "\n```") then
    Str.sliceBack text 8 4
  else if Str.startswith text (lit "```\n") && Str.endswith text (lit "\n```") then
    Str.sliceBack text 4 4
  else text

/-- `strict_json`. Both `JSONDecodeError` and the hook's `InvalidOutput` are
`ValueError`s, so either becomes the one message. -/
def strictJson (text : Str) : Except PyException Json :=
  match Json.loads uniqueObject (unfence (Str.strip text)) with
  | .ok value => .ok value
  | .error _ => .error (.invalidOutput "expected one JSON object")

/-- The value of a JSON number; `type(value)` of a boolean is `bool`. -/
def numberValue : Json → Option ℚ
  | .number (.int value) => some value
  | .number (.float value) => some value.toRat
  | _ => none

def probability (value : Json) : Except PyException ℚ :=
  match numberValue value with
  | some number =>
      if 0 ≤ number ∧ number ≤ 1 then .ok number
      else .error (.invalidOutput "probabilities must be finite numbers between zero and one")
  | none => .error (.invalidOutput "probabilities must be finite numbers between zero and one")

/-- The value of the only member, when the object has exactly the member `name`. -/
def onlyMember (name : Str) : Json → Option Json
  | .object [(found, value)] => if found = name then some value else none
  | _ => none

/-! ## Answers -/

/-- `len(question.criteria)`, where a Noul question has none. -/
def Question.criteriaCount : Question → Nat
  | .choice question => question.criteria.entries.length
  | .score question => question.criteria.length
  | .noul _ => 0

/-- `str(i)` of an index. -/
def indexKey (index : Nat) : Str := Json.natRepr index

section Verify

variable {F : Type} [LogField F]

/-- The concentration of normalised probabilities: `1 - H(p) / log(size)`. -/
def confidenceOf (size : Nat) (probabilities : List ℚ) : Except PyException F := do
  let terms ← (probabilities.filter fun p => decide (0 < p)).mapM fun p : ℚ => do
    let logarithm ← mathLog (p : F)
    pure ((p : F) * logarithm)
  let entropy := -fsum terms
  if size = 1 then pure 1
  else do
    let scale ← mathLog (size : F)
    let ratio ← divide entropy scale
    pure (max 0 (min 1 (1 - ratio)))

/-- A dictionary field of probabilities, each checked. -/
def probabilityDict (keys : List Str) (probabilities : List ℚ) :
    Except PyException (Dict Str (Probability ℚ)) := do
  let checked ← probabilities.mapM Probability.validate
  pure (Dict.ofPairs (keys.zip checked))

def choiceAnswer (question : Choice) (probabilities : List ℚ) (confidence : F) :
    Except PyException (ChoiceAnswer F) := do
  let keys := question.criteria.keys
  let chosen ← maxBy (fun index => probabilities.getD index 0) (List.range keys.length)
  let label ← match keys[chosen]? with
    | some label => .ok label
    | none => .error .indexError
  let distribution ← probabilityDict keys probabilities
  let confidence ← Probability.validate confidence
  pure ⟨label, distribution, confidence⟩

def scoreAnswer (question : Score) (probabilities : List ℚ) (confidence : F) :
    Except PyException (ScoreAnswer F) := do
  let keys := (List.range question.criteria.length).map indexKey
  let score := fsum (probabilities.zipIdx.map fun entry => (entry.2 : ℚ) * entry.1)
  let distribution ← probabilityDict keys probabilities
  let confidence ← Probability.validate confidence
  pure ⟨score, distribution, confidence, Dict.ofPairs (keys.zip question.criteria)⟩

/-- The range, count and sum checks of a distribution, and its normalisation. -/
def distribution (size : Nat) (raw : Json) : Except PyException (List ℚ) :=
  match onlyMember (lit "probabilities") raw with
  | none => .error (.invalidOutput "expected only probabilities")
  | some (.array values) => do
      if values.length = size then
        let probabilities ← values.mapM probability
        let total := fsum probabilities
        if |total - 1| > 1 / 100 ∨ total = 0 then
          .error (.invalidOutput "probabilities must sum to one (rounding tolerance 0.01)")
        else probabilities.mapM fun value => divideExact value total
      else .error (.invalidOutput "one probability is required per criterion, in order")
  | some _ => .error (.invalidOutput "one probability is required per criterion, in order")

def verify (text : Str) (question : Question) : Except PyException (Answer F) := do
  let raw ← strictJson text
  match question with
  | .noul _ =>
      match onlyMember (lit "noul") raw with
      | none => .error (.invalidOutput "expected only noul")
      | some value => do
          let noul ← probability value
          let noul ← Probability.validate noul
          pure (.noul ⟨noul⟩)
  | .choice question => do
      let size := question.criteria.entries.length
      let probabilities ← distribution size raw
      let confidence ← confidenceOf size probabilities
      let answer ← choiceAnswer question probabilities confidence
      pure (.choice answer)
  | .score question => do
      let size := question.criteria.length
      let probabilities ← distribution size raw
      let confidence ← confidenceOf size probabilities
      let answer ← scoreAnswer question probabilities confidence
      pure (.score answer)

end Verify

end VllmVerifier
