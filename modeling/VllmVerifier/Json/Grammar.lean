import VllmVerifier.Json.Value

/-!
The JSON grammar with the constants NaN, Infinity and -Infinity, as derivations
of a text from a value. An object derives from its members in order, repeated
names included.
-/

set_option autoImplicit false

namespace VllmVerifier.Json

open Python

def isBlank (code : Nat) : Bool :=
  code == ord ' ' || code == ord '\t' || code == ord '\n' || code == ord '\r'

def Blank (text : Str) : Prop := ∀ code ∈ text, isBlank code = true

def isDigit (code : Nat) : Bool := 0x30 ≤ code && code ≤ 0x39

def digitsValue (digits : Str) : Nat :=
  digits.foldl (fun value digit => value * 10 + (digit - 0x30)) 0

/-! ## Numbers -/

/-- An exponent as written: `e` or `E`, an optional sign, digits. -/
structure ExponentText where
  marker : Nat
  sign : Str
  digits : Str
deriving DecidableEq

namespace ExponentText

def text (exponent : ExponentText) : Str := exponent.marker :: exponent.sign ++ exponent.digits

structure Valid (exponent : ExponentText) : Prop where
  marker : exponent.marker = ord 'e' ∨ exponent.marker = ord 'E'
  sign : exponent.sign = [] ∨ exponent.sign = [ord '+'] ∨ exponent.sign = [ord '-']
  digits : ∀ code ∈ exponent.digits, isDigit code = true
  nonempty : exponent.digits ≠ []

def value (exponent : ExponentText) : Int :=
  if exponent.sign = [ord '-'] then -(digitsValue exponent.digits : Int)
  else digitsValue exponent.digits

end ExponentText

/-- A number as written. -/
structure NumberText where
  negative : Bool
  integer : Str
  fraction : Option Str
  exponent : Option ExponentText
deriving DecidableEq

namespace NumberText

def fractionText (fraction : Option Str) : Str :=
  match fraction with
  | none => []
  | some digits => ord '.' :: digits

def exponentText (exponent : Option ExponentText) : Str :=
  match exponent with
  | none => []
  | some shown => shown.text

def text (number : NumberText) : Str :=
  (if number.negative then [ord '-'] else []) ++ number.integer ++
    fractionText number.fraction ++ exponentText number.exponent

structure Valid (number : NumberText) : Prop where
  integer : ∀ code ∈ number.integer, isDigit code = true
  nonempty : number.integer ≠ []
  noLeadingZero : number.integer.head? = some (ord '0') → number.integer = [ord '0']
  fraction : ∀ digits, number.fraction = some digits →
    digits ≠ [] ∧ ∀ code ∈ digits, isDigit code = true
  exponent : ∀ shown, number.exponent = some shown → shown.Valid

/-- An integer without fraction and exponent, otherwise a float. -/
def value (number : NumberText) : Number :=
  match number.fraction, number.exponent with
  | none, none =>
      .int (if number.negative then -(digitsValue number.integer : Int)
        else digitsValue number.integer)
  | fraction, exponent =>
      let decimals := fraction.getD []
      let power := (exponent.map ExponentText.value).getD 0
      .float (.ofDecimal number.negative (digitsValue (number.integer ++ decimals))
        (power - decimals.length))

end NumberText

/-! ## Strings -/

/-- One element between the quotes of a string. -/
inductive Piece where
  | plain (code : Nat)
  | short (letter : Nat)
  | unicode (first second third fourth : Nat)
deriving DecidableEq

def shortLetters : Str := lit "\"\\/bfnrt"

def isHex (code : Nat) : Bool :=
  isDigit code || (0x41 ≤ code && code ≤ 0x46) || (0x61 ≤ code && code ≤ 0x66)

def hexValue (code : Nat) : Nat :=
  if isDigit code then code - 0x30 else if code ≤ 0x46 then code - 0x37 else code - 0x57

namespace Piece

def text : Piece → Str
  | .plain code => [code]
  | .short letter => [ord '\\', letter]
  | .unicode first second third fourth => [ord '\\', ord 'u', first, second, third, fourth]

def Valid : Piece → Prop
  | .plain code => code ≠ ord '"' ∧ code ≠ ord '\\' ∧ 0x20 ≤ code
  | .short letter => letter ∈ shortLetters
  | .unicode first second third fourth =>
      isHex first = true ∧ isHex second = true ∧ isHex third = true ∧ isHex fourth = true

def code : Piece → Nat
  | .plain code => code
  | .short letter =>
      if letter = ord 'b' then 0x08
      else if letter = ord 'f' then 0x0C
      else if letter = ord 'n' then 0x0A
      else if letter = ord 'r' then 0x0D
      else if letter = ord 't' then 0x09
      else letter
  | .unicode first second third fourth =>
      ((hexValue first * 16 + hexValue second) * 16 + hexValue third) * 16 + hexValue fourth

end Piece

/-- An escaped high surrogate directly before an escaped low surrogate. -/
def joins : Piece → Piece → Bool
  | .unicode first second third fourth, .unicode first' second' third' fourth' =>
      let high := (Piece.unicode first second third fourth).code
      let low := (Piece.unicode first' second' third' fourth').code
      (0xD800 ≤ high && high ≤ 0xDBFF) && 0xDC00 ≤ low && low ≤ 0xDFFF
  | _, _ => false

/-- The string its pieces denote, with escaped surrogate pairs joined. -/
def decodePieces : List Piece → Str
  | [] => []
  | [piece] => [piece.code]
  | piece :: next :: rest =>
      if joins piece next then
        (0x10000 + (piece.code - 0xD800) * 0x400 + (next.code - 0xDC00)) :: decodePieces rest
      else piece.code :: decodePieces (next :: rest)

/-- `StringText value text`: the text, quotes included, denotes the string. -/
def StringText (value text : Str) : Prop :=
  ∃ pieces : List Piece, (∀ piece ∈ pieces, piece.Valid) ∧
    text = ord '"' :: pieces.flatMap Piece.text ++ [ord '"'] ∧ value = decodePieces pieces

/-! ## Values -/

/-- What a text can derive from: a value, or the inside of an array or object. -/
inductive Shape where
  | value (value : Json)
  | elements (items : List Json)
  | members (members : List (Str × Json))

inductive Derives : Shape → Str → Prop where
  | null : Derives (.value .null) (lit "null")
  | trueText : Derives (.value (.bool true)) (lit "true")
  | falseText : Derives (.value (.bool false)) (lit "false")
  | number {shown : NumberText} :
      shown.Valid → Derives (.value (.number shown.value)) shown.text
  | nan : Derives (.value (.number .nan)) (lit "NaN")
  | infinity : Derives (.value (.number .infinity)) (lit "Infinity")
  | negInfinity : Derives (.value (.number .negInfinity)) (lit "-Infinity")
  | str {value text : Str} : StringText value text → Derives (.value (.str value)) text
  | emptyArray {blank : Str} :
      Blank blank → Derives (.value (.array [])) (ord '[' :: blank ++ [ord ']'])
  | array {items : List Json} {text : Str} :
      Derives (.elements items) text →
      Derives (.value (.array items)) (ord '[' :: text ++ [ord ']'])
  | emptyObject {blank : Str} :
      Blank blank → Derives (.value (.object [])) (ord '{' :: blank ++ [ord '}'])
  | object {members : List (Str × Json)} {text : Str} :
      Derives (.members members) text →
      Derives (.value (.object members)) (ord '{' :: text ++ [ord '}'])
  | lastElement {value : Json} {before text after : Str} :
      Blank before → Derives (.value value) text → Blank after →
      Derives (.elements [value]) (before ++ text ++ after)
  | element {value : Json} {items : List Json} {before text after rest : Str} :
      Blank before → Derives (.value value) text → Blank after →
      Derives (.elements items) rest →
      Derives (.elements (value :: items)) (before ++ text ++ after ++ ord ',' :: rest)
  | lastMember {name : Str} {value : Json} {before nameText middle gap text after : Str} :
      Blank before → StringText name nameText → Blank middle → Blank gap →
      Derives (.value value) text → Blank after →
      Derives (.members [(name, value)])
        (before ++ nameText ++ middle ++ ord ':' :: gap ++ text ++ after)
  | member {name : Str} {value : Json} {members : List (Str × Json)}
      {before nameText middle gap text after rest : Str} :
      Blank before → StringText name nameText → Blank middle → Blank gap →
      Derives (.value value) text → Blank after → Derives (.members members) rest →
      Derives (.members ((name, value) :: members))
        (before ++ nameText ++ middle ++ ord ':' :: gap ++ text ++ after ++
          ord ',' :: rest)

/-- A document is one value with white space around it. -/
def Document (value : Json) (text : Str) : Prop :=
  ∃ before inner after, Blank before ∧ Derives (.value value) inner ∧ Blank after ∧
    text = before ++ inner ++ after

end VllmVerifier.Json
