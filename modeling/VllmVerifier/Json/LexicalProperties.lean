import Mathlib.Data.List.TakeWhile
import VllmVerifier.Json.Loads

/-!
The scanners of numbers and strings read exactly what the grammar derives. A
number is read to its end only before text that cannot continue it.
-/

set_option autoImplicit false

namespace VllmVerifier.Json

open Python

/-! ## Literals and white space -/

theorem afterLiteral_some {literal text rest : Str}
    (found : afterLiteral literal text = some rest) : text = literal ++ rest := by
  unfold afterLiteral at found
  split at found
  · next starts =>
      obtain ⟨tail, rfl⟩ := List.isPrefixOf_iff_prefix.mp starts
      simpa using found
  · cases found

@[simp] theorem afterLiteral_append (literal rest : Str) :
    afterLiteral literal (literal ++ rest) = some rest := by
  have starts : literal.isPrefixOf (literal ++ rest) = true :=
    List.isPrefixOf_iff_prefix.mpr (List.prefix_append literal rest)
  simp [afterLiteral, starts]

@[simp] theorem afterLiteral_cons (code : Nat) (rest : Str) :
    afterLiteral [code] (code :: rest) = some rest :=
  afterLiteral_append [code] rest

theorem afterLiteral_cons_of_ne {code head : Nat} (different : code ≠ head)
    (literal rest : Str) : afterLiteral (code :: literal) (head :: rest) = none := by
  simp [afterLiteral, different]

theorem blank_nil : Blank [] := by simp [Blank]

theorem blank_takeWhile (text : Str) : Blank (text.takeWhile isBlank) := by
  intro code member
  exact List.mem_takeWhile_imp member

theorem takeWhile_append_skipBlank (text : Str) :
    text.takeWhile isBlank ++ skipBlank text = text :=
  List.takeWhile_append_dropWhile

theorem skipBlank_append {blank : Str} (blankValid : Blank blank) (text : Str) :
    skipBlank (blank ++ text) = skipBlank text := by
  induction blank with
  | nil => rfl
  | cons code rest ih =>
      have codeBlank := blankValid code List.mem_cons_self
      simp only [List.cons_append, skipBlank, List.dropWhile_cons, codeBlank, if_true]
      exact ih fun other member => blankValid other (List.mem_cons_of_mem _ member)

theorem skipBlank_cons {code : Nat} (visible : isBlank code = false) (text : Str) :
    skipBlank (code :: text) = code :: text := by
  simp [skipBlank, visible]

theorem skipBlank_eq_nil {blank : Str} (blankValid : Blank blank) : skipBlank blank = [] := by
  simpa [skipBlank] using skipBlank_append blankValid []

/-! ## Numbers -/

/-- The text cannot continue a number. -/
def Stops (rest : Str) : Prop :=
  ∀ code ∈ rest.head?, isDigit code = false ∧ code ≠ ord '.' ∧ code ≠ ord 'e' ∧
    code ≠ ord 'E'

theorem takeWhile_digits {digits : Str} (rest : Str) (valid : ∀ code ∈ digits, isDigit code = true)
    (stops : ∀ code ∈ rest.head?, isDigit code = false) :
    (digits ++ rest).takeWhile isDigit = digits ∧ (digits ++ rest).dropWhile isDigit = rest := by
  have tail : rest.takeWhile isDigit = [] ∧ rest.dropWhile isDigit = rest := by
    cases rest with
    | nil => exact ⟨rfl, rfl⟩
    | cons code rest => simp [stops code rfl]
  rw [List.takeWhile_append_of_pos valid, List.dropWhile_append_of_pos valid, tail.1, tail.2]
  exact ⟨List.append_nil digits, rfl⟩

theorem scanSign_sound (text : Str) :
    text = (if (scanSign text).1 then [ord '-'] else []) ++ (scanSign text).2 := by
  cases text with
  | nil => rfl
  | cons code rest =>
      by_cases minus : code = ord '-' <;> simp [scanSign, minus]

theorem scanInteger_sound {text integer rest : Str}
    (scanned : scanInteger text = some (integer, rest)) :
    text = integer ++ rest ∧ integer ≠ [] ∧ (∀ code ∈ integer, isDigit code = true) ∧
      (integer.head? = some (ord '0') → integer = [ord '0']) := by
  cases text with
  | nil => simp [scanInteger] at scanned
  | cons code tail =>
      by_cases zero : code = ord '0'
      · simp only [scanInteger, zero, if_true, Option.some.injEq, Prod.mk.injEq] at scanned
        obtain ⟨rfl, rfl⟩ := scanned
        refine ⟨by simp [zero], by simp, ?_, fun _ => rfl⟩
        intro other member
        rw [List.mem_singleton.mp member]
        decide
      · by_cases digit : isDigit code = true
        · simp only [scanInteger, zero, if_false, digit, if_true, Option.some.injEq,
            Prod.mk.injEq] at scanned
          obtain ⟨rfl, rfl⟩ := scanned
          refine ⟨by simp, by simp, ?_, by simp [zero]⟩
          intro other member
          rcases List.mem_cons.mp member with rfl | member
          · exact digit
          · exact List.mem_takeWhile_imp member
        · simp [scanInteger, zero, digit] at scanned

theorem scanFraction_sound (text : Str) :
    text = NumberText.fractionText (scanFraction text).1 ++ (scanFraction text).2 ∧
      ∀ digits, (scanFraction text).1 = some digits →
        digits ≠ [] ∧ ∀ code ∈ digits, isDigit code = true := by
  cases text with
  | nil => simp [scanFraction, NumberText.fractionText]
  | cons code rest =>
      by_cases fraction : code = ord '.' ∧ rest.takeWhile isDigit ≠ []
      · simp only [scanFraction, fraction, if_true, ne_eq, not_false_eq_true, and_self]
        refine ⟨by simp [NumberText.fractionText], ?_⟩
        intro digits given
        obtain ⟨rfl⟩ := given
        exact ⟨fraction.2, fun code member => List.mem_takeWhile_imp member⟩
      · rw [scanFraction, if_neg fraction]
        exact ⟨rfl, by simp⟩

theorem scanExponentSign_sound (text : Str) :
    text = (scanExponentSign text).1 ++ (scanExponentSign text).2 ∧
      ((scanExponentSign text).1 = [] ∨ (scanExponentSign text).1 = [ord '+'] ∨
        (scanExponentSign text).1 = [ord '-']) := by
  cases text with
  | nil => simp [scanExponentSign]
  | cons code rest =>
      by_cases signed : code = ord '+' ∨ code = ord '-'
      · rcases signed with rfl | rfl <;> simp [scanExponentSign]
      · simp [scanExponentSign, signed]

theorem scanExponent_sound (text : Str) :
    text = NumberText.exponentText (scanExponent text).1 ++ (scanExponent text).2 ∧
      ∀ shown, (scanExponent text).1 = some shown → shown.Valid := by
  cases text with
  | nil => simp [scanExponent, NumberText.exponentText]
  | cons code rest =>
      have signed := scanExponentSign_sound rest
      by_cases present : (code = ord 'e' ∨ code = ord 'E') ∧
          (scanExponentSign rest).2.takeWhile isDigit ≠ []
      · simp only [scanExponent, present, if_true, ne_eq, not_false_eq_true, and_self]
        constructor
        · have digits := List.takeWhile_append_dropWhile (p := isDigit)
            (l := (scanExponentSign rest).2)
          simp only [NumberText.exponentText, ExponentText.text, List.cons_append,
            List.append_assoc, digits, List.cons.injEq, true_and]
          exact signed.1
        · intro shown given
          obtain ⟨rfl⟩ := given
          exact ⟨present.1, signed.2, fun code member => List.mem_takeWhile_imp member, present.2⟩
      · have skipped : scanExponent (code :: rest) = (none, code :: rest) := if_neg present
        rw [skipped]
        exact ⟨rfl, by simp⟩

theorem scanNumber_sound {text rest : Str} {shown : NumberText}
    (scanned : scanNumber text = some (shown, rest)) :
    shown.Valid ∧ text = shown.text ++ rest := by
  unfold scanNumber at scanned
  have signed := scanSign_sound text
  cases integer : scanInteger (scanSign text).2 with
  | none => simp [integer] at scanned
  | some read =>
      obtain ⟨digits, afterInteger⟩ := read
      simp only [integer, Option.some.injEq, Prod.mk.injEq] at scanned
      obtain ⟨rfl, rfl⟩ := scanned
      obtain ⟨shape, nonempty, valid, zero⟩ := scanInteger_sound integer
      have fraction := scanFraction_sound afterInteger
      have exponent := scanExponent_sound (scanFraction afterInteger).2
      refine ⟨⟨valid, nonempty, zero, fraction.2, exponent.2⟩, ?_⟩
      simp only [NumberText.text, List.append_assoc]
      rw [← exponent.1, ← fraction.1, ← shape]
      exact signed

theorem scanExponentSign_complete {sign digits : Str}
    (signValid : sign = [] ∨ sign = [ord '+'] ∨ sign = [ord '-'])
    (digitsValid : ∀ code ∈ digits.head?, isDigit code = true) :
    scanExponentSign (sign ++ digits) = (sign, digits) := by
  rcases signValid with rfl | rfl | rfl
  · cases digits with
    | nil => rfl
    | cons code rest =>
        have digit := digitsValid code rfl
        have plus : code ≠ ord '+' := by
          intro same
          subst same
          exact absurd digit (by decide)
        have minus : code ≠ ord '-' := by
          intro same
          subst same
          exact absurd digit (by decide)
        simp only [List.nil_append, scanExponentSign, plus, minus, or_self, if_false]
  · simp [scanExponentSign]
  · simp [scanExponentSign]

theorem scanExponent_complete {exponent : Option ExponentText} {rest : Str}
    (valid : ∀ shown, exponent = some shown → shown.Valid) (stops : Stops rest) :
    scanExponent (NumberText.exponentText exponent ++ rest) = (exponent, rest) := by
  cases exponent with
  | none =>
      cases rest with
      | nil => rfl
      | cons code rest =>
          obtain ⟨-, -, lower, upper⟩ := stops code rfl
          simp [NumberText.exponentText, scanExponent, lower, upper]
  | some shown =>
      have shownValid := valid shown rfl
      have digits := takeWhile_digits rest shownValid.digits
        (fun code member => (stops code member).1)
      have signed : scanExponentSign (shown.sign ++ (shown.digits ++ rest)) =
          (shown.sign, shown.digits ++ rest) := by
        apply scanExponentSign_complete shownValid.sign
        intro code member
        obtain ⟨head, tail, shape⟩ := List.exists_cons_of_ne_nil shownValid.nonempty
        simp only [shape, List.cons_append, List.head?_cons, Option.mem_def,
          Option.some.injEq] at member
        exact member ▸ shownValid.digits head (by simp [shape])
      simp only [NumberText.exponentText, ExponentText.text, List.cons_append, List.append_assoc,
        scanExponent, signed, digits.1, digits.2, shownValid.marker, shownValid.nonempty, ne_eq,
        not_false_eq_true, and_self, if_true]

theorem stops_exponentText {exponent : Option ExponentText} {rest : Str}
    (valid : ∀ shown, exponent = some shown → shown.Valid) (stops : Stops rest) :
    ∀ code ∈ (NumberText.exponentText exponent ++ rest).head?,
      isDigit code = false ∧ code ≠ ord '.' := by
  cases exponent with
  | none => exact fun code member => ⟨(stops code member).1, (stops code member).2.1⟩
  | some shown =>
      intro code member
      simp only [NumberText.exponentText, ExponentText.text, List.cons_append, List.head?_cons,
        Option.mem_def, Option.some.injEq] at member
      rcases (valid shown rfl).marker with marker | marker <;>
        (rw [← member, marker]; decide)

theorem scanFraction_complete {fraction : Option Str} {rest : Str}
    (valid : ∀ digits, fraction = some digits →
      digits ≠ [] ∧ ∀ code ∈ digits, isDigit code = true)
    (stops : ∀ code ∈ rest.head?, isDigit code = false ∧ code ≠ ord '.') :
    scanFraction (NumberText.fractionText fraction ++ rest) = (fraction, rest) := by
  cases fraction with
  | none =>
      cases rest with
      | nil => rfl
      | cons code rest => simp [NumberText.fractionText, scanFraction, (stops code rfl).2]
  | some digits =>
      obtain ⟨nonempty, digitsValid⟩ := valid digits rfl
      have split := takeWhile_digits rest digitsValid
        (fun code member => (stops code member).1)
      simp only [NumberText.fractionText, List.cons_append, scanFraction, split.1, split.2,
        nonempty, ne_eq, not_false_eq_true, and_self, if_true]

theorem stops_fractionText (fraction : Option Str) {rest : Str}
    (stops : ∀ code ∈ rest.head?, isDigit code = false) :
    ∀ code ∈ (NumberText.fractionText fraction ++ rest).head?, isDigit code = false := by
  cases fraction with
  | none => exact stops
  | some digits =>
      intro code member
      simp only [NumberText.fractionText, List.cons_append, List.head?_cons, Option.mem_def,
        Option.some.injEq] at member
      rw [← member]
      decide

theorem scanInteger_complete {integer rest : Str} (nonempty : integer ≠ [])
    (valid : ∀ code ∈ integer, isDigit code = true)
    (zero : integer.head? = some (ord '0') → integer = [ord '0'])
    (stops : ∀ code ∈ rest.head?, isDigit code = false) :
    scanInteger (integer ++ rest) = some (integer, rest) := by
  obtain ⟨head, tail, rfl⟩ := List.exists_cons_of_ne_nil nonempty
  by_cases leading : head = ord '0'
  · have single : tail = [] := by simpa [leading] using zero (by simp [leading])
    simp [single, leading, scanInteger]
  · have digit := valid head List.mem_cons_self
    have tailValid : ∀ code ∈ tail, isDigit code = true :=
      fun code member => valid code (List.mem_cons_of_mem _ member)
    have split := takeWhile_digits rest tailValid stops
    simp only [List.cons_append, scanInteger, leading, if_false, digit, if_true, split.1, split.2]

theorem scanNumber_complete {shown : NumberText} {rest : Str} (valid : shown.Valid)
    (stops : Stops rest) : scanNumber (shown.text ++ rest) = some (shown, rest) := by
  obtain ⟨negative, integer, fraction, exponent⟩ := shown
  have afterFraction := stops_exponentText valid.exponent stops
  have afterInteger := stops_fractionText fraction
    (fun code member => (afterFraction code member).1)
  have integerRead := scanInteger_complete valid.nonempty valid.integer valid.noLeadingZero
    afterInteger
  have signed : scanSign ((if negative = true then [ord '-'] else []) ++
      (integer ++ (NumberText.fractionText fraction ++
        (NumberText.exponentText exponent ++ rest)))) =
      (negative, integer ++ (NumberText.fractionText fraction ++
        (NumberText.exponentText exponent ++ rest))) := by
    cases negative with
    | true => simp [scanSign]
    | false =>
        obtain ⟨head, tail, rfl⟩ := List.exists_cons_of_ne_nil valid.nonempty
        have minus : head ≠ ord '-' := by
          intro same
          subst same
          exact absurd (valid.integer _ List.mem_cons_self) (by decide)
        simp [scanSign, minus]
  simp only [scanNumber, NumberText.text, List.append_assoc, signed, integerRead,
    scanFraction_complete valid.fraction afterFraction, scanExponent_complete valid.exponent stops]

/-! ## Strings -/

theorem scanPieces_sound {text rest : Str} {pieces : List Piece}
    (scanned : scanPieces text = some (pieces, rest)) :
    (∀ piece ∈ pieces, piece.Valid) ∧
      text = pieces.flatMap Piece.text ++ ord '"' :: rest := by
  fun_induction scanPieces text generalizing pieces rest with
  | case2 =>
      cases scanned
      exact ⟨by simp, rfl⟩
  | case5 first second third fourth tail hex others remaining read _ ih =>
      cases scanned
      obtain ⟨valid, shape⟩ := ih read
      simp only [Bool.and_eq_true] at hex
      refine ⟨?_, by simp [Piece.text, shape]⟩
      intro piece member
      rcases List.mem_cons.mp member with rfl | member
      · exact ⟨hex.1.1.1, hex.1.1.2, hex.1.2, hex.2⟩
      · exact valid piece member
  | case9 letter tail _ known others remaining read _ ih =>
      cases scanned
      obtain ⟨valid, shape⟩ := ih read
      refine ⟨?_, by simp [Piece.text, shape]⟩
      intro piece member
      rcases List.mem_cons.mp member with rfl | member
      · exact known
      · exact valid piece member
  | case13 code tail quote escape control others remaining read ih =>
      cases scanned
      obtain ⟨valid, shape⟩ := ih read
      refine ⟨?_, by simp [Piece.text, shape]⟩
      intro piece member
      rcases List.mem_cons.mp member with rfl | member
      · exact ⟨quote, escape, by omega⟩
      · exact valid piece member
  | case1 | case3 | case4 | case6 | case7 | case8 | case10 | case11 | case12 => cases scanned

theorem scanPieces_complete {pieces : List Piece} (valid : ∀ piece ∈ pieces, piece.Valid)
    (rest : Str) : scanPieces (pieces.flatMap Piece.text ++ ord '"' :: rest) =
      some (pieces, rest) := by
  induction pieces with
  | nil => rw [scanPieces.eq_def]; simp
  | cons piece others ih =>
      rw [scanPieces.eq_def]
      have read := ih fun other member => valid other (List.mem_cons_of_mem _ member)
      have pieceValid := valid piece List.mem_cons_self
      have escape : ord '\\' ≠ ord '"' := by decide
      cases piece with
      | plain code =>
          obtain ⟨quote, backslash, visible⟩ := pieceValid
          have control : ¬code < 0x20 := by omega
          simp [Piece.text, quote, backslash, control, read]
      | short letter =>
          have known : letter ∈ shortLetters := pieceValid
          have other : letter ≠ ord 'u' := by
            intro same
            subst same
            exact absurd known (by decide)
          simp [Piece.text, escape, other, known, read]
      | unicode first second third fourth =>
          obtain ⟨hex1, hex2, hex3, hex4⟩ := pieceValid
          simp [Piece.text, escape, hex1, hex2, hex3, hex4, read]

theorem scanString_sound {text rest value : Str}
    (scanned : scanString text = some (value, rest)) :
    ∃ shown, StringText value shown ∧ ord '"' :: text = shown ++ rest := by
  simp only [scanString, Option.map_eq_some_iff, Prod.mk.injEq] at scanned
  obtain ⟨⟨pieces, remaining⟩, read, rfl, rfl⟩ := scanned
  obtain ⟨valid, shape⟩ := scanPieces_sound read
  exact ⟨_, ⟨pieces, valid, rfl, rfl⟩, by simp [shape]⟩

theorem scanString_complete {value shown : Str} (denotes : StringText value shown)
    (rest : Str) : ∃ inner, shown = ord '"' :: inner ∧
      scanString (inner ++ rest) = some (value, rest) := by
  obtain ⟨pieces, valid, rfl, rfl⟩ := denotes
  refine ⟨_, rfl, ?_⟩
  simp [scanString, scanPieces_complete valid]

end VllmVerifier.Json
