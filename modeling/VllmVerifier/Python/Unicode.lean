import VllmVerifier.Python.Str

/-!
The Unicode database behind `str`: a parameter, since it differs between versions
of Python, with the facts about ASCII, white space, Hangul and digits that all of
them share; and `int` of a text, which accepts every decimal digit.
-/

set_option autoImplicit false

namespace VllmVerifier.Python

class Unicode where
  lower : Str → Str
  upper : Str → Str
  isalnum : Nat → Bool
  /-- The value of a decimal digit. -/
  decimal : Nat → Option Nat
  decimal_range : ∀ code value, decimal code = some value → value ≤ 9
  decimal_ascii : ∀ code, code < 128 →
    decimal code = if 48 ≤ code ∧ code ≤ 57 then some (code - 48) else none
  decimal_space : ∀ code, Str.isspace code = true → decimal code = none
  decimal_hangul : ∀ code, 0xAC00 ≤ code → code ≤ 0xD7A3 → decimal code = none
  isalnum_decimal : ∀ code value, decimal code = some value → isalnum code = true
  upper_ascii : ∀ text : Str, (∀ code ∈ text, code < 128) →
    upper text = text.map fun code => if 97 ≤ code ∧ code ≤ 122 then code - 32 else code

namespace Unicode

variable [Unicode]

/-- `\d` of a pattern. -/
def isdecimal (code : Nat) : Bool := (decimal code).isSome

/-- `\w` of a pattern. -/
def isWord (code : Nat) : Bool := isalnum code || code == ord '_'

/-- The value of decimal digits, most significant first. -/
def digitsValue (digits : Str) : Nat :=
  digits.foldl (fun value code => value * 10 + (decimal code).getD 0) 0

/-- Digits with single underscores between them. -/
def digitGroups : Str → Option Str
  | [] => none
  | [code] => if isdecimal code then some [code] else none
  | code :: next :: rest =>
      if isdecimal code then
        if next = ord '_' then (digitGroups rest).map (code :: ·)
        else (digitGroups (next :: rest)).map (code :: ·)
      else none

/-- `int` of digits without a sign; it refuses more than 4300 of them. -/
def intDigits (digits : Str) : Option Nat :=
  match digitGroups digits with
  | none => none
  | some digits => if 4300 < digits.length then none else some (digitsValue digits)

/-- `int(text)`, or nothing where it raises `ValueError`. -/
def int? (text : Str) : Option Int :=
  match Str.strip text with
  | [] => none
  | code :: rest =>
      if code = ord '-' then (intDigits rest).map fun value => -(value : Int)
      else if code = ord '+' then (intDigits rest).map fun value => (value : Int)
      else (intDigits (code :: rest)).map fun value => (value : Int)

theorem not_isspace_of_isdecimal {code : Nat} (digit : isdecimal code = true) :
    Str.isspace code = false := by
  cases space : Str.isspace code with
  | false => rfl
  | true =>
      rw [isdecimal, decimal_space code space] at digit
      cases digit

theorem isWord_of_isdecimal {code : Nat} (digit : isdecimal code = true) : isWord code = true := by
  obtain ⟨value, found⟩ := Option.isSome_iff_exists.mp digit
  rw [isWord, isalnum_decimal code value found]
  rfl

theorem not_isdecimal_of_ascii {code : Nat} (ascii : code < 128)
    (outside : ¬ (48 ≤ code ∧ code ≤ 57)) : isdecimal code = false := by
  rw [isdecimal, decimal_ascii code ascii, if_neg outside]
  rfl

theorem isdecimal_of_ascii {code : Nat} (digit : 48 ≤ code ∧ code ≤ 57) :
    isdecimal code = true := by
  rw [isdecimal, decimal_ascii code (by omega), if_pos digit]
  rfl

theorem digitGroups_of_digits {text : Str} (visible : text ≠ [])
    (digits : ∀ code ∈ text, isdecimal code = true) : digitGroups text = some text := by
  induction text with
  | nil => exact absurd rfl visible
  | cons code rest ih =>
      obtain ⟨digit, others⟩ := List.forall_mem_cons.mp digits
      cases rest with
      | nil => rw [digitGroups, if_pos digit]
      | cons next rest =>
          have plain : next ≠ ord '_' := by
            intro same
            subst same
            have digit := others _ List.mem_cons_self
            rw [not_isdecimal_of_ascii (by decide) (by decide)] at digit
            cases digit
          rw [digitGroups, if_pos digit, if_neg plain, ih (List.cons_ne_nil _ _) others]
          rfl

theorem int?_of_digits {text : Str} (visible : text ≠ [])
    (digits : ∀ code ∈ text, isdecimal code = true) (short : text.length ≤ 4300) :
    int? text = some (digitsValue text : Int) := by
  obtain ⟨code, rest, rfl⟩ := List.exists_cons_of_ne_nil visible
  have digit := digits code List.mem_cons_self
  have stripped : Str.strip (code :: rest) = code :: rest :=
    Str.strip_of_visible fun code member => not_isspace_of_isdecimal (digits code member)
  have unsigned : code ≠ ord '-' ∧ code ≠ ord '+' := by
    constructor
    · intro same
      subst same
      rw [not_isdecimal_of_ascii (by decide) (by decide)] at digit
      cases digit
    · intro same
      subst same
      rw [not_isdecimal_of_ascii (by decide) (by decide)] at digit
      cases digit
  rw [int?, stripped]
  dsimp only
  rw [if_neg unsigned.1, if_neg unsigned.2, intDigits, digitGroups_of_digits visible digits]
  dsimp only
  rw [if_neg (by omega)]
  rfl

end Unicode

/-! ## A small database -/

/-- What the database says of ASCII and of Hangul, and of no other code point. -/
@[reducible] def basicUnicode : Unicode where
  lower := List.map fun code => if 65 ≤ code ∧ code ≤ 90 then code + 32 else code
  upper := List.map fun code => if 97 ≤ code ∧ code ≤ 122 then code - 32 else code
  isalnum code := decide (48 ≤ code ∧ code ≤ 57) || decide (65 ≤ code ∧ code ≤ 90) ||
    decide (97 ≤ code ∧ code ≤ 122) || decide (0xAC00 ≤ code ∧ code ≤ 0xD7A3)
  decimal code := if 48 ≤ code ∧ code ≤ 57 then some (code - 48) else none
  decimal_range code value found := by
    split at found
    · cases found
      omega
    · cases found
  decimal_ascii _ _ := rfl
  decimal_space code space := by
    unfold Str.isspace at space
    rw [if_neg]
    intro given
    obtain ⟨least, most⟩ := given
    simp at space
    omega
  decimal_hangul code least _ := by
    rw [if_neg]
    omega
  isalnum_decimal code value found := by
    split at found
    · rename_i digit
      rw [decide_eq_true digit]
      rfl
    · cases found
  upper_ascii _ _ := rfl

end VllmVerifier.Python
