import Mathlib.Data.Rat.Defs
import Mathlib.Algebra.Order.Field.Rat
import VllmVerifier.Python.Str

/-!
JSON values as Python's `json` module reads and writes them. An object is the
list of its members in order, so a text that repeats a name has a value here
before any hook sees it.
-/

set_option autoImplicit false

namespace VllmVerifier.Json

open Python

/-- A finite Python float, named by the shortest decimal that denotes it:
`digits * 10 ^ exponent`, without trailing zeros in `digits`. -/
structure Decimal where
  negative : Bool
  digits : Nat
  exponent : Int
  canonical : digits % 10 = 0 → digits = 0 ∧ exponent = 0
deriving DecidableEq

namespace Decimal

/-- Drop trailing zeros of a non-zero decimal; the fuel bounds their number. -/
def trim : Nat → Nat → Int → Nat × Int
  | 0, digits, exponent => (digits, exponent)
  | fuel + 1, digits, exponent =>
      if digits % 10 = 0 then trim fuel (digits / 10) (exponent + 1) else (digits, exponent)

theorem trim_canonical {fuel digits : Nat} {exponent : Int} (positive : 0 < digits)
    (enough : digits < 10 ^ fuel) : (trim fuel digits exponent).1 % 10 ≠ 0 := by
  induction fuel generalizing digits exponent with
  | zero => omega
  | succ fuel ih =>
      by_cases divides : digits % 10 = 0
      · simp only [trim, divides, if_true]
        refine ih (by omega) ?_
        rw [Nat.pow_succ] at enough
        omega
      · simp [trim, divides]

theorem lt_ten_pow (digits : Nat) : digits < 10 ^ digits :=
  digits.lt_pow_self (by omega)

/-- The float a decimal literal denotes, in exact arithmetic. -/
def ofDecimal (negative : Bool) (digits : Nat) (exponent : Int) : Decimal :=
  if positive : 0 < digits then
    ⟨negative, (trim digits digits exponent).1, (trim digits digits exponent).2,
      fun divides => absurd divides (trim_canonical positive (lt_ten_pow digits))⟩
  else ⟨negative, 0, 0, fun _ => ⟨rfl, rfl⟩⟩

/-- The exact rational value of a decimal. -/
def value (negative : Bool) (digits : Nat) (exponent : Int) : ℚ :=
  let magnitude : ℚ := digits * 10 ^ exponent.toNat / 10 ^ (-exponent).toNat
  if negative then -magnitude else magnitude

def toRat (decimal : Decimal) : ℚ := value decimal.negative decimal.digits decimal.exponent

end Decimal

/-- The numbers `json.loads` can return. -/
inductive Number where
  | int (value : Int)
  | float (value : Decimal)
  | nan
  | infinity
  | negInfinity
deriving DecidableEq

def Number.finite : Number → Bool
  | .int _ | .float _ => true
  | .nan | .infinity | .negInfinity => false

end Json

inductive Json where
  | null
  | bool (value : Bool)
  | number (value : Json.Number)
  | str (value : Python.Str)
  | array (items : List Json)
  | object (members : List (Python.Str × Json))

namespace Json

open Python

mutual

def decEq : (left right : Json) → Decidable (left = right)
  | .null, .null => isTrue rfl
  | .bool left, .bool right =>
      if same : left = right then isTrue (same ▸ rfl) else isFalse (by simp [same])
  | .number left, .number right =>
      if same : left = right then isTrue (same ▸ rfl) else isFalse (by simp [same])
  | .str left, .str right =>
      if same : left = right then isTrue (same ▸ rfl) else isFalse (by simp [same])
  | .array left, .array right =>
      match decEqItems left right with
      | isTrue same => isTrue (same ▸ rfl)
      | isFalse different => isFalse (by simp [different])
  | .object left, .object right =>
      match decEqMembers left right with
      | isTrue same => isTrue (same ▸ rfl)
      | isFalse different => isFalse (by simp [different])
  | .null, .bool _ | .null, .number _ | .null, .str _ | .null, .array _ | .null, .object _
  | .bool _, .null | .bool _, .number _ | .bool _, .str _ | .bool _, .array _
  | .bool _, .object _ | .number _, .null | .number _, .bool _ | .number _, .str _
  | .number _, .array _ | .number _, .object _ | .str _, .null | .str _, .bool _
  | .str _, .number _ | .str _, .array _ | .str _, .object _ | .array _, .null
  | .array _, .bool _ | .array _, .number _ | .array _, .str _ | .array _, .object _
  | .object _, .null | .object _, .bool _ | .object _, .number _ | .object _, .str _
  | .object _, .array _ => isFalse (by simp)

def decEqItems : (left right : List Json) → Decidable (left = right)
  | [], [] => isTrue rfl
  | [], _ :: _ | _ :: _, [] => isFalse (by simp)
  | left :: lefts, right :: rights =>
      match decEq left right, decEqItems lefts rights with
      | isTrue head, isTrue tail => isTrue (by rw [head, tail])
      | isFalse head, _ => isFalse (by simp [head])
      | _, isFalse tail => isFalse (by simp [tail])

def decEqMembers : (left right : List (Str × Json)) → Decidable (left = right)
  | [], [] => isTrue rfl
  | [], _ :: _ | _ :: _, [] => isFalse (by simp)
  | (name, left) :: lefts, (name', right) :: rights =>
      if same : name = name' then
        match decEq left right, decEqMembers lefts rights with
        | isTrue head, isTrue tail => isTrue (by rw [same, head, tail])
        | isFalse head, _ => isFalse (by simp [head])
        | _, isFalse tail => isFalse (by simp [tail])
      else isFalse (by simp [same])

end

instance : DecidableEq Json := decEq

mutual

/-- No number at any depth is NaN or infinite. -/
def finite : Json → Bool
  | .null | .bool _ | .str _ => true
  | .number value => value.finite
  | .array items => finiteItems items
  | .object members => finiteMembers members

def finiteItems : List Json → Bool
  | [] => true
  | item :: rest => finite item && finiteItems rest

def finiteMembers : List (Str × Json) → Bool
  | [] => true
  | (_, value) :: rest => finite value && finiteMembers rest

end

mutual

/-- No object at any depth repeats a member name. -/
def distinctNames : Json → Bool
  | .null | .bool _ | .str _ | .number _ => true
  | .array items => distinctItems items
  | .object members => decide (members.map Prod.fst).Nodup && distinctMembers members

def distinctItems : List Json → Bool
  | [] => true
  | item :: rest => distinctNames item && distinctItems rest

def distinctMembers : List (Str × Json) → Bool
  | [] => true
  | (_, value) :: rest => distinctNames value && distinctMembers rest

end

end VllmVerifier.Json
