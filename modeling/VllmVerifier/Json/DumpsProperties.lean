import Mathlib.Tactic.Ring
import VllmVerifier.Json.Dumps
import VllmVerifier.Json.LoadsProperties
import VllmVerifier.Python.Dict

/-!
What `dumps` writes is a document of its value. Numbers and strings are written
so that reading them gives them back, and an object is written member by member.
-/

set_option autoImplicit false

namespace VllmVerifier.Json

open Python

/-! ## Digits -/

private theorem foldl_digits (digits : Str) (start : Nat) :
    digits.foldl (fun value digit => value * 10 + (digit - 0x30)) start =
      start * 10 ^ digits.length + digitsValue digits := by
  induction digits generalizing start with
  | nil => simp [digitsValue]
  | cons digit rest ih =>
      unfold digitsValue
      rw [List.foldl_cons, ih, List.foldl_cons, ih (0 * 10 + (digit - 0x30)), List.length_cons,
        Nat.pow_succ]
      ring

theorem digitsValue_append (left right : Str) :
    digitsValue (left ++ right) = digitsValue left * 10 ^ right.length + digitsValue right := by
  rw [← foldl_digits, digitsValue, List.foldl_append]
  rfl

theorem digitsValue_zeros (count : Nat) : digitsValue (List.replicate count 0x30) = 0 := by
  induction count with
  | zero => rfl
  | succ count ih =>
      rw [List.replicate_succ, ← List.singleton_append, digitsValue_append, ih]
      simp [digitsValue]

theorem isDigit_zeros (count : Nat) :
    ∀ code ∈ List.replicate count 0x30, isDigit code = true := by
  intro code member
  rw [List.eq_of_mem_replicate member]
  rfl

/-- The digits of a natural number. -/
structure Shows (value : Nat) (text : Str) : Prop where
  digits : ∀ code ∈ text, isDigit code = true
  nonempty : text ≠ []
  noLeadingZero : text.head? = some (ord '0') → text = [ord '0']
  value : digitsValue text = value

private theorem isDigit_of_lt {digit : Nat} (small : digit < 10) :
    isDigit (0x30 + digit) = true := by
  unfold isDigit
  simp only [Bool.and_eq_true, decide_eq_true_eq]
  omega

private theorem natDigits_shows {fuel value : Nat} (enough : value < fuel) :
    Shows value (natDigits fuel value) := by
  induction fuel generalizing value with
  | zero => exact absurd enough (Nat.not_lt_zero _)
  | succ fuel ih =>
      unfold natDigits
      split
      · rename_i small
        refine ⟨fun code member => ?_, List.cons_ne_nil _ _, fun head => ?_, ?_⟩
        · rw [List.mem_singleton.mp member]
          exact isDigit_of_lt small
        · rw [Option.some.inj head]
        · simp [digitsValue]
      · rename_i large
        obtain ⟨digits, nonempty, noLeadingZero, shown⟩ := ih (show value / 10 < fuel by omega)
        refine ⟨fun code member => ?_, by simp, fun head => ?_, ?_⟩
        · rcases List.mem_append.mp member with earlier | last
          · exact digits code earlier
          · rw [List.mem_singleton.mp last]
            exact isDigit_of_lt (Nat.mod_lt _ (by decide))
        · rw [List.head?_append_of_ne_nil _ nonempty] at head
          rw [noLeadingZero head] at shown
          have zero : digitsValue [ord '0'] = 0 := rfl
          omega
        · rw [digitsValue_append, shown]
          simp only [digitsValue, List.foldl_cons, List.foldl_nil, List.length_singleton]
          omega

theorem natRepr_shows (value : Nat) : Shows value (natRepr value) :=
  natDigits_shows (Nat.lt_succ_self value)

/-! ## Strings -/

/-- The piece that `escapeCode` writes. -/
def escapePiece (code : Nat) : Piece :=
  if code = ord '"' then .short (ord '"')
  else if code = ord '\\' then .short (ord '\\')
  else if code = ord '\n' then .short (ord 'n')
  else if code = ord '\r' then .short (ord 'r')
  else if code = ord '\t' then .short (ord 't')
  else if code = 0x0C then .short (ord 'f')
  else if code = 0x08 then .short (ord 'b')
  else if code < 0x20 then
    .unicode (ord '0') (ord '0') (hexDigit (code / 16)) (hexDigit (code % 16))
  else .plain code

theorem escapePiece_text (code : Nat) : (escapePiece code).text = escapeCode code := by
  unfold escapePiece escapeCode
  split_ifs <;> rfl

private theorem hexDigit_spec {value : Nat} (small : value < 16) :
    isHex (hexDigit value) = true ∧ hexValue (hexDigit value) = value := by
  revert value
  decide

/-- The piece is well formed, denotes the code point and is no surrogate escape. -/
theorem escapePiece_spec (code : Nat) :
    (escapePiece code).Valid ∧ (escapePiece code).code = code ∧
      ∀ next, joins (escapePiece code) next = false := by
  have short : ∀ letter, letter ∈ shortLetters → (Piece.short letter).Valid :=
    fun _ member => member
  unfold escapePiece
  split_ifs with quote backslash newline return_ tab feed backspace control
  · exact ⟨short _ (by decide), quote.symm, fun _ => rfl⟩
  · exact ⟨short _ (by decide), backslash.symm, fun _ => rfl⟩
  · exact ⟨short _ (by decide), newline.symm, fun _ => rfl⟩
  · exact ⟨short _ (by decide), return_.symm, fun _ => rfl⟩
  · exact ⟨short _ (by decide), tab.symm, fun _ => rfl⟩
  · exact ⟨short _ (by decide), feed.symm, fun _ => rfl⟩
  · exact ⟨short _ (by decide), backspace.symm, fun _ => rfl⟩
  · obtain ⟨high, highValue⟩ := hexDigit_spec (show code / 16 < 16 by omega)
    obtain ⟨low, lowValue⟩ := hexDigit_spec (show code % 16 < 16 by omega)
    have zero : hexValue (ord '0') = 0 := rfl
    have same : (Piece.unicode (ord '0') (ord '0') (hexDigit (code / 16))
        (hexDigit (code % 16))).code = code := by
      simp only [Piece.code, zero, highValue, lowValue]
      omega
    refine ⟨⟨rfl, rfl, high, low⟩, same, fun next => ?_⟩
    cases next with
    | plain | short => rfl
    | unicode =>
        simp only [joins, same]
        have small : decide (0xD800 ≤ code) = false := by
          rw [decide_eq_false_iff_not]
          omega
        rw [small]
        rfl
  · exact ⟨⟨quote, backslash, by omega⟩, rfl, fun _ => rfl⟩

theorem decodePieces_escape (text : Str) : decodePieces (text.map escapePiece) = text := by
  induction text with
  | nil => rfl
  | cons code rest ih =>
      obtain ⟨_, same, apart⟩ := escapePiece_spec code
      cases rest with
      | nil => exact congrArg (fun shown => [shown]) same
      | cons next rest =>
          rw [List.map_cons, List.map_cons, decodePieces, apart, if_neg Bool.false_ne_true, same,
            ← List.map_cons, ih]

theorem encodeString_text (text : Str) : StringText text (encodeString text) := by
  refine ⟨text.map escapePiece, fun piece member => ?_, ?_, (decodePieces_escape text).symm⟩
  · obtain ⟨code, _, rfl⟩ := List.mem_map.mp member
    exact (escapePiece_spec code).1
  · rw [encodeString, List.flatMap_map]
    simp only [escapePiece_text]

/-! ## Numbers -/

theorem intRepr_derives (value : Int) :
    Derives (.value (.number (.int value))) (intRepr value) := by
  obtain ⟨digits, nonempty, noLeadingZero, shown⟩ := natRepr_shows value.natAbs
  let number : NumberText := ⟨decide (value < 0), natRepr value.natAbs, none, none⟩
  have valid : number.Valid :=
    ⟨digits, nonempty, noLeadingZero, fun _ none => (by cases none), fun _ none => (by cases none)⟩
  have text : number.text = intRepr value := by
    simp only [number, NumberText.text, NumberText.fractionText, NumberText.exponentText, intRepr]
    by_cases negative : value < 0 <;> simp [negative]
  have same : number.value = .int value := by
    simp only [number, NumberText.value, shown]
    by_cases negative : value < 0
    · simp only [negative, decide_true, if_true]
      congr 1
      omega
    · simp only [negative, decide_false, Bool.false_eq_true, if_false]
      congr 1
      omega
  rw [← text, ← same]
  exact .number valid

private theorem trim_shift {digits : Nat} (odd : digits % 10 ≠ 0) (zeros spare : Nat)
    (exponent : Int) :
    Decimal.trim (zeros + spare) (digits * 10 ^ zeros) exponent = (digits, exponent + zeros) := by
  induction zeros generalizing exponent with
  | zero => cases spare <;> simp [Decimal.trim, odd]
  | succ zeros ih =>
      have divides : digits * 10 ^ (zeros + 1) % 10 = 0 := by
        rw [Nat.pow_succ, ← Nat.mul_assoc, Nat.mul_mod_left]
      have quotient : digits * 10 ^ (zeros + 1) / 10 = digits * 10 ^ zeros := by
        rw [Nat.pow_succ, ← Nat.mul_assoc, Nat.mul_div_cancel _ (by decide)]
      rw [Nat.succ_add, Decimal.trim, if_pos divides, quotient, ih]
      congr 1
      push_cast
      ring

theorem ofDecimal_shift (decimal : Decimal) (zeros : Nat) :
    Decimal.ofDecimal decimal.negative (decimal.digits * 10 ^ zeros) (decimal.exponent - zeros) =
      decimal := by
  obtain ⟨negative, digits, exponent, canonical⟩ := decimal
  by_cases none : digits = 0
  · obtain ⟨_, noExponent⟩ := canonical (by simp [none])
    subst none noExponent
    simp [Decimal.ofDecimal]
  · have odd : digits % 10 ≠ 0 := fun divides => none (canonical divides).1
    have positive : 0 < digits * 10 ^ zeros :=
      Nat.mul_pos (Nat.pos_of_ne_zero none) (Nat.pow_pos (by decide))
    have enough : zeros ≤ digits * 10 ^ zeros :=
      Nat.le_trans (Nat.le_of_lt (Decimal.lt_ten_pow zeros))
        (Nat.le_mul_of_pos_left _ (Nat.pos_of_ne_zero none))
    have trimmed := trim_shift odd zeros (digits * 10 ^ zeros - zeros) (exponent - zeros)
    rw [Nat.add_sub_cancel' enough, Int.sub_add_cancel] at trimmed
    simp [Decimal.ofDecimal, positive, trimmed]

theorem float_derives {decimal : Decimal} {integer : Str} {fraction : Option Str}
    {exponent : Option ExponentText}
    (valid : NumberText.Valid ⟨decimal.negative, integer, fraction, exponent⟩)
    (written : fraction ≠ none ∨ exponent ≠ none) (zeros : Nat)
    (digits : digitsValue (integer ++ fraction.getD []) = decimal.digits * 10 ^ zeros)
    (power : (exponent.map ExponentText.value).getD 0 - (fraction.getD []).length =
      decimal.exponent - zeros) :
    Derives (.value (.number (.float decimal)))
      ((if decimal.negative then [ord '-'] else []) ++ integer ++
        NumberText.fractionText fraction ++ NumberText.exponentText exponent) := by
  have same : NumberText.value ⟨decimal.negative, integer, fraction, exponent⟩ =
      .float decimal := by
    unfold NumberText.value
    cases fraction with
    | none =>
        cases exponent with
        | none => simp at written
        | some shown =>
            dsimp only
            rw [digits, power, ofDecimal_shift]
    | some decimals =>
        dsimp only
        rw [digits, power, ofDecimal_shift]
  rw [← same]
  exact .number valid

/-- The exponent that `Decimal.repr` writes. -/
def shownExponent (power : Int) : ExponentText where
  marker := ord 'e'
  sign := [if power < 0 then ord '-' else ord '+']
  digits := if (natRepr power.natAbs).length < 2 then 0x30 :: natRepr power.natAbs
    else natRepr power.natAbs

theorem shownExponent_spec (power : Int) :
    (shownExponent power).Valid ∧ (shownExponent power).value = power := by
  obtain ⟨digits, nonempty, _, shown⟩ := natRepr_shows power.natAbs
  have padded : digitsValue (shownExponent power).digits = power.natAbs ∧
      ∀ code ∈ (shownExponent power).digits, isDigit code = true := by
    simp only [shownExponent]
    split
    · constructor
      · rw [← List.singleton_append, digitsValue_append, shown]
        simp [digitsValue]
      · intro code member
        rcases List.mem_cons.mp member with rfl | member
        · rfl
        · exact digits code member
    · exact ⟨shown, digits⟩
  refine ⟨⟨.inl rfl, ?_, padded.2, ?_⟩, ?_⟩
  · by_cases negative : power < 0 <;> simp [shownExponent, negative]
  · simp only [shownExponent]
    split
    · exact List.cons_ne_nil _ _
    · exact nonempty
  · unfold ExponentText.value
    rw [padded.1]
    by_cases negative : power < 0
    · simp only [shownExponent, negative, if_true]
      omega
    · have plus : [ord '+'] ≠ [ord '-'] := by decide
      simp only [shownExponent, negative, if_false, plus]
      omega

private theorem zeros_then {digits zeros : Str} (shown : ∀ code ∈ digits, isDigit code = true)
    (padded : ∀ code ∈ zeros, isDigit code = true) :
    ∀ code ∈ zeros ++ digits, isDigit code = true := by
  intro code member
  rcases List.mem_append.mp member with member | member
  · exact padded code member
  · exact shown code member

private theorem fraction_valid {digits : Str} (nonempty : digits ≠ [])
    (shown : ∀ code ∈ digits, isDigit code = true) :
    ∀ written, some digits = some written →
      written ≠ [] ∧ ∀ code ∈ written, isDigit code = true := by
  intro written same
  cases same
  exact ⟨nonempty, shown⟩

private theorem head_only {code : Nat} {text : Str} (zero : (code :: text).head? = some (ord '0')) :
    [code] = [ord '0'] := by
  rw [Option.some.inj zero]

private theorem scientific_derives (decimal : Decimal) (head : Nat) (rest : Str)
    (shape : natRepr decimal.digits = head :: rest) :
    Derives (.value (.number (.float decimal)))
      ((if decimal.negative then [ord '-'] else []) ++ [head] ++
        NumberText.fractionText (if rest = [] then none else some rest) ++
        NumberText.exponentText (some (shownExponent (rest.length + decimal.exponent)))) := by
  obtain ⟨digits, _, _, shown⟩ := natRepr_shows decimal.digits
  obtain ⟨valid, power⟩ := shownExponent_spec (rest.length + decimal.exponent)
  rw [shape] at digits shown
  have decimals : (if rest = [] then none else some rest : Option Str).getD [] = rest := by
    split
    · rename_i none
      exact none.symm
    · rfl
  refine float_derives ⟨?_, List.cons_ne_nil _ _, head_only, ?_, ?_⟩ (.inr (by simp)) 0 ?_ ?_
  · intro code member
    rw [List.mem_singleton.mp member]
    exact digits head List.mem_cons_self
  · intro written same
    split at same
    · cases same
    · rename_i some
      cases same
      exact ⟨some, fun code member => digits code (List.mem_cons_of_mem _ member)⟩
  · intro written same
    cases same
    exact valid
  · rw [decimals, List.singleton_append, shown, Nat.pow_zero, Nat.mul_one]
  · rw [decimals]
    simp only [Option.map_some, Option.getD_some, power]
    omega

private theorem small_derives (decimal : Decimal) (zeros : Nat)
    (point : (natRepr decimal.digits).length + decimal.exponent = -zeros) :
    Derives (.value (.number (.float decimal)))
      ((if decimal.negative then [ord '-'] else []) ++ [ord '0'] ++
        NumberText.fractionText (some (List.replicate zeros 0x30 ++ natRepr decimal.digits)) ++
        NumberText.exponentText none) := by
  obtain ⟨digits, nonempty, _, shown⟩ := natRepr_shows decimal.digits
  refine float_derives ⟨by simp [isDigit, ord], by simp, fun _ => rfl,
    fraction_valid (by simp [nonempty]) (zeros_then digits (isDigit_zeros _)),
    fun _ none => (by cases none)⟩ (.inl (by simp)) 0 ?_ ?_
  · rw [Option.getD_some, digitsValue_append, digitsValue_append, digitsValue_zeros, shown]
    simp [digitsValue, ord]
  · simp only [Option.map_none, Option.getD_none, Option.getD_some, List.length_append,
      List.length_replicate]
    omega

private theorem whole_derives (decimal : Decimal) (zeros : Nat)
    (power : decimal.exponent = zeros) :
    Derives (.value (.number (.float decimal)))
      ((if decimal.negative then [ord '-'] else []) ++
        (natRepr decimal.digits ++ List.replicate zeros 0x30) ++
        NumberText.fractionText (some [0x30]) ++ NumberText.exponentText none) := by
  obtain ⟨digits, nonempty, noLeadingZero, shown⟩ := natRepr_shows decimal.digits
  refine float_derives ⟨zeros_then (isDigit_zeros _) digits, by simp [nonempty], ?_,
    fraction_valid (by simp) (by simp [isDigit]), fun _ none => (by cases none)⟩
    (.inl (by simp)) (zeros + 1) ?_ ?_
  · intro head
    rw [List.head?_append_of_ne_nil _ nonempty] at head
    have alone := noLeadingZero head
    have zero : decimal.digits = 0 := by
      rw [← shown, alone]
      rfl
    have unshifted : zeros = 0 := by
      have canonical := (decimal.canonical (by rw [zero])).2
      omega
    rw [unshifted, alone]
    rfl
  · rw [Option.getD_some, digitsValue_append, digitsValue_append, digitsValue_zeros, shown]
    simp only [List.length_replicate, List.length_singleton]
    simp [digitsValue, Nat.pow_succ]
    ring
  · simp only [Option.map_none, Option.getD_none, Option.getD_some, List.length_singleton]
    omega

private theorem split_derives (decimal : Decimal) (point : Nat) (positive : 0 < point)
    (inside : point < (natRepr decimal.digits).length)
    (power : (natRepr decimal.digits).length + decimal.exponent = point) :
    Derives (.value (.number (.float decimal)))
      ((if decimal.negative then [ord '-'] else []) ++ (natRepr decimal.digits).take point ++
        NumberText.fractionText (some ((natRepr decimal.digits).drop point)) ++
        NumberText.exponentText none) := by
  obtain ⟨digits, nonempty, noLeadingZero, shown⟩ := natRepr_shows decimal.digits
  have left : (natRepr decimal.digits).drop point ≠ [] := by
    rw [Ne, List.drop_eq_nil_iff]
    omega
  refine float_derives ⟨fun code member => digits code (List.mem_of_mem_take member), ?_, ?_,
    fraction_valid left fun code member => digits code (List.mem_of_mem_drop member),
    fun _ none => (by cases none)⟩ (.inl (by simp)) 0 ?_ ?_
  · rw [Ne, List.take_eq_nil_iff]
    rintro (none | none)
    · omega
    · exact nonempty none
  · intro head
    rw [List.head?_take, if_neg (Nat.ne_of_gt positive)] at head
    have alone := congrArg List.length (noLeadingZero head)
    rw [List.length_singleton] at alone
    omega
  · rw [Option.getD_some, List.take_append_drop, shown, Nat.pow_zero, Nat.mul_one]
  · simp only [Option.map_none, Option.getD_none, Option.getD_some, List.length_drop]
    omega

/-- A float is written so that reading it gives it back. -/
theorem repr_derives (decimal : Decimal) :
    Derives (.value (.number (.float decimal))) decimal.repr := by
  obtain ⟨_, nonempty, _, _⟩ := natRepr_shows decimal.digits
  have signed : ∀ magnitude : Str, (if decimal.negative then ord '-' :: magnitude else magnitude) =
      (if decimal.negative then [ord '-'] else []) ++ magnitude := by
    intro magnitude
    cases decimal.negative <;> rfl
  unfold Decimal.repr
  dsimp only
  rw [signed]
  by_cases scientific : (natRepr decimal.digits).length + decimal.exponent ≤ -4 ∨
      16 < (natRepr decimal.digits).length + decimal.exponent
  · rw [if_pos scientific]
    cases shape : natRepr decimal.digits with
    | nil => exact absurd shape nonempty
    | cons head rest =>
        have derived := scientific_derives decimal head rest shape
        have power : ((head :: rest).length : Int) + decimal.exponent - 1 =
            rest.length + decimal.exponent := by
          rw [List.length_cons]
          omega
        rw [power]
        cases rest <;>
          simpa [NumberText.fractionText, NumberText.exponentText, ExponentText.text,
            shownExponent] using derived
  rw [if_neg scientific]
  by_cases small : (natRepr decimal.digits).length + decimal.exponent ≤ 0
  · rw [if_pos small]
    have derived := small_derives decimal
      (-((natRepr decimal.digits).length + decimal.exponent)).toNat (by omega)
    simpa [NumberText.fractionText, NumberText.exponentText, lit, ord] using derived
  rw [if_neg small]
  by_cases whole : (natRepr decimal.digits).length ≤
      ((natRepr decimal.digits).length + decimal.exponent).toNat
  · rw [if_pos whole]
    have derived := whole_derives decimal
      (((natRepr decimal.digits).length + decimal.exponent).toNat -
        (natRepr decimal.digits).length) (by omega)
    simpa [NumberText.fractionText, NumberText.exponentText, lit, ord] using derived
  rw [if_neg whole]
  have derived := split_derives decimal
    ((natRepr decimal.digits).length + decimal.exponent).toNat (by omega) (by omega) (by omega)
  simpa [NumberText.fractionText, NumberText.exponentText] using derived

/-! ## Values -/

/-- Separators between members: white space and the punctuation. -/
structure Layout.Spaced (layout : Layout) : Prop where
  item : ∃ blank, Blank blank ∧ layout.itemSeparator = ord ',' :: blank
  key : ∃ before after, Blank before ∧ Blank after ∧
    layout.keySeparator = before ++ ord ':' :: after
  unsorted : layout.sortKeys = false

theorem default_spaced : Layout.default.Spaced :=
  ⟨⟨[ord ' '], by simp [Blank, isBlank], rfl⟩,
    ⟨[], [ord ' '], blank_nil, by simp [Blank, isBlank], rfl⟩, rfl⟩

theorem compact_spaced : Layout.compact.Spaced :=
  ⟨⟨[], blank_nil, rfl⟩, ⟨[], [], blank_nil, blank_nil, rfl⟩, rfl⟩

theorem dumpsItems_cons_ne_nil {layout : Layout} {item : Json} {rest : List Json}
    {parts : List Str} (written : dumpsItems layout (item :: rest) = some parts) :
    parts ≠ [] := by
  rw [dumpsItems] at written
  obtain ⟨_, _, continuation⟩ := Option.bind_eq_some_iff.mp written
  obtain ⟨_, _, made⟩ := Option.bind_eq_some_iff.mp continuation
  cases made
  exact List.cons_ne_nil _ _

theorem dumpsMembers_cons_ne_nil {layout : Layout} {member : Str × Json}
    {rest : List (Str × Json)} {parts : List (Str × Str)}
    (written : dumpsMembers layout (member :: rest) = some parts) : parts ≠ [] := by
  rw [dumpsMembers] at written
  obtain ⟨_, _, continuation⟩ := Option.bind_eq_some_iff.mp written
  obtain ⟨_, _, made⟩ := Option.bind_eq_some_iff.mp continuation
  cases made
  exact List.cons_ne_nil _ _

mutual

/-- The text of a value is derived from it. -/
theorem dumps_derives {layout : Layout} (spaced : layout.Spaced) :
    ∀ (value : Json) {text : Str}, dumps layout value = some text →
      Derives (.value value) text
  | .null, _, written => by
      cases written
      exact .null
  | .bool true, _, written => by
      cases written
      exact .trueText
  | .bool false, _, written => by
      cases written
      exact .falseText
  | .number (.int value), _, written => by
      cases written
      exact intRepr_derives value
  | .number (.float value), _, written => by
      cases written
      exact repr_derives value
  | .number .nan, _, written | .number .infinity, _, written
  | .number .negInfinity, _, written => by cases written
  | .str text, _, written => by
      cases written
      exact .str (encodeString_text text)
  | .array items, text, written => by
      rw [dumps] at written
      obtain ⟨parts, rendered, made⟩ := Option.bind_eq_some_iff.mp written
      cases made
      cases items with
      | nil =>
          cases rendered
          exact .emptyArray blank_nil
      | cons item rest =>
          exact .array (dumpsItems_derives spaced (item :: rest) (List.cons_ne_nil _ _) rendered)
  | .object members, text, written => by
      rw [dumps] at written
      obtain ⟨parts, rendered, made⟩ := Option.bind_eq_some_iff.mp written
      cases made
      rw [arrange, spaced.unsorted, if_neg Bool.false_ne_true]
      cases members with
      | nil =>
          cases rendered
          exact .emptyObject blank_nil
      | cons member rest =>
          exact .object
            (dumpsMembers_derives spaced (member :: rest) (List.cons_ne_nil _ _) rendered)

theorem dumpsItems_derives {layout : Layout} (spaced : layout.Spaced) :
    ∀ (items : List Json) {parts : List Str}, items ≠ [] →
      dumpsItems layout items = some parts →
      Derives (.elements items) (List.intercalate layout.itemSeparator parts)
  | [], _, nonempty, _ => absurd rfl nonempty
  | item :: rest, parts, _, written => by
      rw [dumpsItems] at written
      obtain ⟨text, rendered, continuation⟩ := Option.bind_eq_some_iff.mp written
      obtain ⟨texts, others, made⟩ := Option.bind_eq_some_iff.mp continuation
      cases made
      have head := dumps_derives spaced item rendered
      cases rest with
      | nil =>
          cases others
          simpa using Derives.lastElement blank_nil head blank_nil
      | cons next rest =>
          obtain ⟨blank, blankValid, separator⟩ := spaced.item
          have tail := dumpsItems_derives spaced (next :: rest) (List.cons_ne_nil _ _) others
          have several := dumpsItems_cons_ne_nil others
          rw [List.intercalate_cons_of_ne_nil several]
          nth_rewrite 1 [separator]
          simpa using Derives.element blank_nil head blank_nil (tail.elements_blank blankValid)

theorem dumpsMembers_derives {layout : Layout} (spaced : layout.Spaced) :
    ∀ (members : List (Str × Json)) {parts : List (Str × Str)}, members ≠ [] →
      dumpsMembers layout members = some parts →
      Derives (.members members)
        (List.intercalate layout.itemSeparator (parts.map (renderMember layout)))
  | [], _, nonempty, _ => absurd rfl nonempty
  | (name, value) :: rest, parts, _, written => by
      rw [dumpsMembers] at written
      obtain ⟨text, rendered, continuation⟩ := Option.bind_eq_some_iff.mp written
      obtain ⟨texts, others, made⟩ := Option.bind_eq_some_iff.mp continuation
      cases made
      obtain ⟨before, after, beforeValid, afterValid, keySeparator⟩ := spaced.key
      have head := dumps_derives spaced value rendered
      rw [List.map_cons, renderMember, keySeparator]
      cases rest with
      | nil =>
          cases others
          simpa using Derives.lastMember blank_nil (encodeString_text name) beforeValid
            afterValid head blank_nil
      | cons next rest =>
          obtain ⟨blank, blankValid, separator⟩ := spaced.item
          have tail := dumpsMembers_derives spaced (next :: rest) (List.cons_ne_nil _ _) others
          have several : texts.map (renderMember layout) ≠ [] := by
            rw [Ne, List.map_eq_nil_iff]
            exact dumpsMembers_cons_ne_nil others
          rw [List.intercalate_cons_of_ne_nil several]
          nth_rewrite 1 [separator]
          simpa using Derives.member blank_nil (encodeString_text name) beforeValid afterValid
            head blank_nil (tail.members_blank blankValid)

end

theorem dumps_document {layout : Layout} (spaced : layout.Spaced) {value : Json} {text : Str}
    (written : dumps layout value = some text) : Document value text :=
  ⟨[], text, [], blank_nil, dumps_derives spaced value written, blank_nil, by simp⟩

/-! ## Reading back -/

/-- The hook of a plain `json.loads`: a dictionary of the pairs. -/
def plainObject (members : List (Str × Json)) : Except Empty Json :=
  .ok (.object (Dict.ofPairs members).entries)

theorem plainObject_distinct {members : List (Str × Json)}
    (distinct : (members.map Prod.fst).Nodup) : plainObject members = .ok (.object members) := by
  rw [plainObject, Dict.entries_ofPairs distinct]

mutual

theorem rebuild_plain : ∀ value : Json, value.distinctNames = true →
    rebuild plainObject value = .ok value
  | .null, _ | .bool _, _ | .number _, _ | .str _, _ => by rw [rebuild]
  | .array items, distinct => by
      rw [distinctNames] at distinct
      rw [rebuild, rebuildItems_plain items distinct]
      rfl
  | .object members, distinct => by
      rw [distinctNames, Bool.and_eq_true, decide_eq_true_eq] at distinct
      rw [rebuild, rebuildMembers_plain members distinct.2]
      exact plainObject_distinct distinct.1

theorem rebuildItems_plain : ∀ items : List Json, distinctItems items = true →
    rebuildItems plainObject items = .ok items
  | [], _ => by rw [rebuildItems]
  | item :: rest, distinct => by
      rw [distinctItems, Bool.and_eq_true] at distinct
      rw [rebuildItems, rebuild_plain item distinct.1, rebuildItems_plain rest distinct.2]
      rfl

theorem rebuildMembers_plain : ∀ members : List (Str × Json), distinctMembers members = true →
    rebuildMembers plainObject members = .ok members
  | [], _ => by rw [rebuildMembers]
  | (name, value) :: rest, distinct => by
      rw [distinctMembers, Bool.and_eq_true] at distinct
      rw [rebuildMembers, rebuild_plain value distinct.1, rebuildMembers_plain rest distinct.2]
      rfl

end

theorem loads_plain {value : Json} {text : Str} (document : Document value text)
    (distinct : value.distinctNames = true) : loads plainObject text = .ok value :=
  loads_complete document (rebuild_plain value distinct)

end VllmVerifier.Json
