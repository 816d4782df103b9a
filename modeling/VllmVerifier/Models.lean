import Mathlib.Algebra.Order.Field.Rat
import Mathlib.Algebra.BigOperators.Group.List.Basic
import VllmVerifier.Python.Dict
import VllmVerifier.Json.Value

/-!
The wire contract of `models.py` and the exceptions of `errors.py`. A request
that was validated carries the facts its validation established; an answer is
built through the checks of its response model.
-/

set_option autoImplicit false

namespace VllmVerifier

open Python

/-! ## Exceptions -/

structure ServiceError where
  status : Nat
  code : String
  message : String
deriving DecidableEq

/-- The exceptions the modelled code raises or tells apart. -/
inductive PyException where
  | valueError (message : String)
  | invalidOutput (message : String)
  | validationError
  | runtimeError (message : String)
  | memoryError
  | floatingPointError (message : String)
  | zeroDivisionError
  | keyError
  | indexError
  | assertionError
  | serviceError (error : ServiceError)
  | other (name : String)
deriving DecidableEq

/-- `isinstance(exc, ValueError)`: `InvalidOutput` and pydantic's
`ValidationError` are subclasses. -/
def PyException.isValueError : PyException → Bool
  | .valueError _ | .invalidOutput _ | .validationError => true
  | _ => false

/-! ## Access -/

/-- `items[index]`. -/
def at? {α : Type} (items : List α) (index : Nat) : Except PyException α :=
  match items[index]? with
  | some item => .ok item
  | none => .error .indexError

/-- `dict[key]`. -/
def getItem {α : Type} (dict : Dict Str α) (key : Str) : Except PyException α :=
  match dict.get? key with
  | some value => .ok value
  | none => .error .keyError

theorem at?_ok {α : Type} {items : List α} {index : Nat} {item : α}
    (found : at? items index = .ok item) : items[index]? = some item := by
  unfold at? at found
  split at found
  · cases found
    assumption
  · cases found

theorem getItem_ok_iff {α : Type} {dict : Dict Str α} {key : Str} {value : α} :
    getItem dict key = .ok value ↔ dict.get? key = some value := by
  unfold getItem
  cases dict.get? key <;> simp

/-! ## Requests -/

namespace Json

/-- The shapes `Content` admits: a string, an object or an array. -/
def isContent : Json → Bool
  | .str _ | .object _ | .array _ => true
  | .null | .bool _ | .number _ => false

end Json

/-- `Content`: validated JSON without non-finite numbers. -/
structure Content where
  value : Json
  shape : value.isContent = true
  finite : value.finite = true
  distinct : value.distinctNames = true
deriving DecidableEq

/-- `Identifier`: one to 256 characters. -/
def identifier (text : Str) : Bool := 1 ≤ text.length && text.length ≤ 256

deriving instance DecidableEq for Dict

structure Choice where
  instructions : Option Content
  criteria : Dict Str (Option Content)
  size : 1 ≤ criteria.entries.length ∧ criteria.entries.length ≤ 255
  labels : ∀ label ∈ criteria.keys, identifier label = true
deriving DecidableEq

structure Score where
  instructions : Option Content
  criteria : List Content
  size : 1 ≤ criteria.length ∧ criteria.length ≤ 10
deriving DecidableEq

structure NoulCriteria where
  trueCriterion : Option Content
  falseCriterion : Option Content
deriving DecidableEq

structure Noul where
  instructions : Option Content
  criteria : Option NoulCriteria
deriving DecidableEq

inductive Question where
  | choice (question : Choice)
  | score (question : Score)
  | noul (question : Noul)
deriving DecidableEq

structure SystemOneRequest where
  model : Str
  state : Content
  questions : Dict Str Question
  named : identifier model = true
  size : 1 ≤ questions.entries.length ∧ questions.entries.length ≤ 64
  ids : ∀ id ∈ questions.keys, identifier id = true
deriving DecidableEq

structure VisionRequest extends SystemOneRequest where
  images : List Str
  imageCount : 1 ≤ images.length ∧ images.length ≤ 4

/-- The smallest request: one bare Noul question about a text. -/
def noulRequest (state : Str) : SystemOneRequest where
  model := lit "jev-latest"
  state := ⟨.str state, rfl, rfl, rfl⟩
  questions := ⟨[(lit "q", .noul ⟨none, none⟩)], List.nodup_singleton _⟩
  named := by decide
  size := by decide
  ids := by decide

/-! ## Usage -/

@[ext] structure Usage where
  inputTokens : Nat
  outputTokens : Nat
deriving DecidableEq

namespace Usage

/-- `usage.add(other)`. -/
def add (usage other : Usage) : Usage :=
  ⟨usage.inputTokens + other.inputTokens, usage.outputTokens + other.outputTokens⟩

instance : Zero Usage := ⟨⟨0, 0⟩⟩

instance : Add Usage := ⟨add⟩

@[simp] theorem zero_inputTokens : (0 : Usage).inputTokens = 0 := rfl

@[simp] theorem zero_outputTokens : (0 : Usage).outputTokens = 0 := rfl

@[simp] theorem add_inputTokens (left right : Usage) :
    (left + right).inputTokens = left.inputTokens + right.inputTokens := rfl

@[simp] theorem add_outputTokens (left right : Usage) :
    (left + right).outputTokens = left.outputTokens + right.outputTokens := rfl

instance : AddCommMonoid Usage where
  add_assoc _ _ _ := Usage.ext (Nat.add_assoc _ _ _) (Nat.add_assoc _ _ _)
  zero_add _ := Usage.ext (Nat.zero_add _) (Nat.zero_add _)
  add_zero _ := Usage.ext (Nat.add_zero _) (Nat.add_zero _)
  add_comm _ _ := Usage.ext (Nat.add_comm _ _) (Nat.add_comm _ _)
  nsmul := nsmulRec

end Usage

structure Completion where
  text : Str
  usage : Usage
  finishReason : Str
deriving DecidableEq

/-! ## Answers -/

/-- An ordered field with a logarithm that is positive above one: the
arithmetic of `confidence`, exact. -/
class LogField (F : Type) extends Field F, LinearOrder F, IsStrictOrderedRing F where
  log : F → F
  log_pos : ∀ {value : F}, 1 < value → 0 < log value

/-- `Probability`: a number from zero to one. -/
structure Probability (F : Type) [Zero F] [One F] [LE F] where
  value : F
  nonneg : 0 ≤ value
  le_one : value ≤ 1
deriving DecidableEq

namespace Probability

variable {F : Type} [Zero F] [One F] [LE F] [DecidableLE F]

/-- The range check of a response model's field. -/
def validate (value : F) : Except PyException (Probability F) :=
  if valid : 0 ≤ value ∧ value ≤ 1 then .ok ⟨value, valid.1, valid.2⟩
  else .error .validationError

theorem validate_of_mem {value : F} (nonneg : 0 ≤ value) (le_one : value ≤ 1) :
    validate value = .ok ⟨value, nonneg, le_one⟩ :=
  dif_pos ⟨nonneg, le_one⟩

end Probability

section Answers

variable (F : Type) [LogField F]

structure ChoiceAnswer where
  choice : Str
  probabilities : Dict Str (Probability ℚ)
  confidence : Probability F

structure ScoreAnswer where
  score : ℚ
  probabilities : Dict Str (Probability ℚ)
  confidence : Probability F
  legend : Dict Str Content

structure NoulAnswer where
  noul : Probability ℚ

inductive Answer where
  | choice (answer : ChoiceAnswer F)
  | score (answer : ScoreAnswer F)
  | noul (answer : NoulAnswer)

structure SystemOneResponse where
  model : Str
  answers : Dict Str (Answer F)
  usage : Usage

end Answers

end VllmVerifier
