import Mathlib.Data.List.Sort
import VllmVerifier.Json.Value

/-!
`json.dumps` with `ensure_ascii=False` and `allow_nan=False`. `none` is the
`ValueError` that a NaN or infinite number raises.
-/

set_option autoImplicit false

namespace VllmVerifier.Json

open Python

/-- Lexicographic order on code points, as `sorted` compares strings. -/
def strLe : Str → Str → Bool
  | [], _ => true
  | _ :: _, [] => false
  | left :: lefts, right :: rights =>
      if left < right then true else if right < left then false else strLe lefts rights

/-- `separators` and `sort_keys`. -/
structure Layout where
  itemSeparator : Str
  keySeparator : Str
  sortKeys : Bool

namespace Layout

def default : Layout := ⟨lit ", ", lit ": ", false⟩

def compact : Layout := ⟨lit ",", lit ":", false⟩

def canonical : Layout := ⟨lit ",", lit ":", true⟩

end Layout

def natDigits : Nat → Nat → Str
  | 0, _ => []
  | fuel + 1, value =>
      if value < 10 then [0x30 + value]
      else natDigits fuel (value / 10) ++ [0x30 + value % 10]

/-- `str(value)` of a natural number. -/
def natRepr (value : Nat) : Str := natDigits (value + 1) value

def intRepr (value : Int) : Str :=
  if value < 0 then ord '-' :: natRepr value.natAbs else natRepr value.natAbs

/-- `float.__repr__`: scientific notation outside `1e-4 .. 1e16`. -/
def Decimal.repr (decimal : Decimal) : Str :=
  let digits := natRepr decimal.digits
  let point : Int := digits.length + decimal.exponent
  let magnitude :=
    if point ≤ -4 ∨ 16 < point then
      let mantissa := match digits with
        | head :: rest@(_ :: _) => head :: ord '.' :: rest
        | short => short
      let power := point - 1
      let shown := natRepr power.natAbs
      mantissa ++ ord 'e' :: (if power < 0 then ord '-' else ord '+') ::
        (if shown.length < 2 then 0x30 :: shown else shown)
    else if point ≤ 0 then lit "0." ++ List.replicate (-point).toNat 0x30 ++ digits
    else if digits.length ≤ point.toNat then
      digits ++ List.replicate (point.toNat - digits.length) 0x30 ++ lit ".0"
    else digits.take point.toNat ++ ord '.' :: digits.drop point.toNat
  if decimal.negative then ord '-' :: magnitude else magnitude

def Number.render : Number → Option Str
  | .int value => some (intRepr value)
  | .float value => some value.repr
  | .nan | .infinity | .negInfinity => none

def hexDigit (value : Nat) : Nat := if value < 10 then 0x30 + value else 0x57 + value

/-- The replacement `json.encoder` uses for one code point. -/
def escapeCode (code : Nat) : Str :=
  if code = ord '"' then lit "\\\""
  else if code = ord '\\' then lit "\\\\"
  else if code = ord '\n' then lit "\\n"
  else if code = ord '\r' then lit "\\r"
  else if code = ord '\t' then lit "\\t"
  else if code = 0x0C then lit "\\f"
  else if code = 0x08 then lit "\\b"
  else if code < 0x20 then lit "\\u00" ++ [hexDigit (code / 16), hexDigit (code % 16)]
  else [code]

def encodeString (text : Str) : Str := ord '"' :: text.flatMap escapeCode ++ [ord '"']

def renderMember (layout : Layout) (member : Str × Str) : Str :=
  encodeString member.1 ++ layout.keySeparator ++ member.2

/-- Members in the order they are written. -/
def arrange (layout : Layout) (members : List (Str × Str)) : List (Str × Str) :=
  if layout.sortKeys then members.insertionSort (fun left right => strLe left.1 right.1)
  else members

mutual

/-- `json.dumps(value, ensure_ascii=False, allow_nan=False, ...)`. -/
def dumps (layout : Layout) : Json → Option Str
  | .null => some (lit "null")
  | .bool true => some (lit "true")
  | .bool false => some (lit "false")
  | .number value => value.render
  | .str text => some (encodeString text)
  | .array items => do
      let parts ← dumpsItems layout items
      pure (ord '[' :: List.intercalate layout.itemSeparator parts ++ [ord ']'])
  | .object members => do
      let parts ← dumpsMembers layout members
      pure (ord '{' :: List.intercalate layout.itemSeparator
        ((arrange layout parts).map (renderMember layout)) ++ [ord '}'])

def dumpsItems (layout : Layout) : List Json → Option (List Str)
  | [] => some []
  | item :: rest => do
      let text ← dumps layout item
      let texts ← dumpsItems layout rest
      pure (text :: texts)

def dumpsMembers (layout : Layout) : List (Str × Json) → Option (List (Str × Str))
  | [] => some []
  | (name, value) :: rest => do
      let text ← dumps layout value
      let texts ← dumpsMembers layout rest
      pure ((name, text) :: texts)

end

mutual

theorem dumps_isSome (layout : Layout) :
    ∀ value : Json, value.finite = true → (dumps layout value).isSome
  | .null, _ | .bool true, _ | .bool false, _ | .str _, _ => rfl
  | .number value, finite => by
      cases value with
      | int | float => rfl
      | nan | infinity | negInfinity => simp [Json.finite, Number.finite] at finite
  | .array items, finite => by
      obtain ⟨parts, rendered⟩ :=
        Option.isSome_iff_exists.mp (dumpsItems_isSome layout items finite)
      simp [dumps, rendered]
  | .object members, finite => by
      obtain ⟨parts, rendered⟩ :=
        Option.isSome_iff_exists.mp (dumpsMembers_isSome layout members finite)
      simp [dumps, rendered]

theorem dumpsItems_isSome (layout : Layout) :
    ∀ items : List Json, finiteItems items = true → (dumpsItems layout items).isSome
  | [], _ => rfl
  | item :: rest, finite => by
      simp only [finiteItems, Bool.and_eq_true] at finite
      obtain ⟨text, rendered⟩ := Option.isSome_iff_exists.mp (dumps_isSome layout item finite.1)
      obtain ⟨texts, others⟩ :=
        Option.isSome_iff_exists.mp (dumpsItems_isSome layout rest finite.2)
      simp [dumpsItems, rendered, others]

theorem dumpsMembers_isSome (layout : Layout) :
    ∀ members : List (Str × Json), finiteMembers members = true →
      (dumpsMembers layout members).isSome
  | [], _ => rfl
  | (name, value) :: rest, finite => by
      simp only [finiteMembers, Bool.and_eq_true] at finite
      obtain ⟨text, rendered⟩ := Option.isSome_iff_exists.mp (dumps_isSome layout value finite.1)
      obtain ⟨texts, others⟩ :=
        Option.isSome_iff_exists.mp (dumpsMembers_isSome layout rest finite.2)
      simp [dumpsMembers, rendered, others]

end

example : dumps .canonical (.object [(lit "z", .number (.int 1)), (lit "a", .str (lit "x"))]) =
    some (lit "\x7b\"a\":\"x\",\"z\":1\x7d") := by decide

example : [Decimal.ofDecimal false 750 (-3), Decimal.ofDecimal true 1 16,
      Decimal.ofDecimal false 15 (-6)].map Decimal.repr =
    [lit "0.75", lit "-1e+16", lit "1.5e-05"] := by decide

end VllmVerifier.Json
