import VllmVerifier.CustomerService.Slots
import VllmVerifier.Json.Dumps
import VllmVerifier.Numeral

/-!
Counts in a text: what the pattern of a quantity reads, and whether it is all of
the numeral that is written there.
-/

set_option autoImplicit false

namespace VllmVerifier.CustomerService

open Python

variable [Unicode]

/-! ## Counts -/

/-- A number from 1 to 99, as `[1-9]\d?` reads it. -/
def IsCount (value : Str) : Prop :=
  ∃ first rest, value = first :: rest ∧ (49 ≤ first ∧ first ≤ 57) ∧ rest.length ≤ 1 ∧
    ∀ code ∈ rest, Unicode.isdecimal code = true

/-- A count with its unit after it, and no digit before it. -/
structure Counts (text before value after : Str) : Prop where
  shape : text = before ++ (value ++ after)
  count : IsCount value
  free : before.getLast?.any Unicode.isdecimal = false
  unit : ∃ gap rest, Str.Spaces gap ∧ after = gap ++ (lit "개" ++ rest)

/-- The count that is written first. -/
structure FirstCount (text before value after : Str) : Prop extends
    Counts text before value after where
  leftmost : ∀ earlier other later, Counts text earlier other later →
    before.length ≤ earlier.length

theorem IsCount.digits {value : Str} (count : IsCount value) :
    ∀ code ∈ value, Unicode.isdecimal code = true := by
  obtain ⟨first, rest, rfl, digit, _, decimals⟩ := count
  exact List.forall_mem_cons.mpr ⟨Unicode.isdecimal_of_ascii (by omega), decimals⟩

theorem IsCount.ne_nil {value : Str} (count : IsCount value) : value ≠ [] := by
  obtain ⟨first, rest, rfl, _⟩ := count
  exact List.cons_ne_nil _ _

theorem Counts.stops {text before value after : Str} (counts : Counts text before value after) :
    ∃ code rest, after = code :: rest ∧ (Str.isspace code = true ∨ code = ord '개') := by
  obtain ⟨gap, rest, spaces, rfl⟩ := counts.unit
  cases gap with
  | nil => exact ⟨_, rest, rfl, .inr rfl⟩
  | cons code gap => exact ⟨code, _, rfl, .inl (spaces code List.mem_cons_self)⟩

theorem not_isdecimal_of_stop {code : Nat} (stop : Str.isspace code = true ∨ code = ord '개') :
    Unicode.isdecimal code = false := by
  rcases stop with space | rfl
  · rw [Unicode.isdecimal, Unicode.decimal_space code space]
    rfl
  · rw [Unicode.isdecimal, Unicode.decimal_hangul _ (by decide) (by decide)]
    rfl

/-- A count is the whole run of digits that starts where it does. -/
theorem Counts.value_eq {text before value after : Str} (counts : Counts text before value after) :
    (value ++ after).takeWhile Unicode.isdecimal = value := by
  obtain ⟨code, rest, rfl, stop⟩ := counts.stops
  rw [List.takeWhile_append_of_pos counts.count.digits, List.takeWhile_cons,
    not_isdecimal_of_stop stop]
  simp

theorem FirstCount.unique {text before value after earlier other later : Str}
    (first : FirstCount text before value after) (second : FirstCount text earlier other later) :
    before = earlier ∧ value = other ∧ after = later := by
  have lengths : before.length = earlier.length :=
    Nat.le_antisymm (first.leftmost _ _ _ second.toCounts) (second.leftmost _ _ _ first.toCounts)
  obtain ⟨rfl, rests⟩ := List.append_inj (first.shape.symm.trans second.shape) lengths
  obtain rfl : value = other := by
    rw [← first.value_eq, rests, second.value_eq]
  exact ⟨rfl, rfl, List.append_cancel_left rests⟩

/-! ## The pattern -/

theorem matches_count_iff {before : Option Nat} {text rest : Str} {group : Option Str} :
    Regex.Matches Pattern.count before text group rest ↔ IsCount text ∧ group = some text := by
  simp only [Pattern.count, Regex.matches_group_iff, Regex.matches_seq_iff,
    Regex.matches_one_iff, Regex.matches_greedy_iff, IsCount, decide_eq_true_eq]
  constructor
  · intro given
    obtain ⟨⟨_, _, rest, _, _, rfl, _, ⟨⟨code, digit, rfl⟩, _⟩, ⟨_, most, decimals⟩, _⟩, rfl⟩ := given
    exact ⟨⟨code, rest, rfl, digit, most 1 rfl, decimals⟩, rfl⟩
  · intro given
    obtain ⟨⟨code, rest, rfl, digit, most, decimals⟩, rfl⟩ := given
    refine ⟨⟨none, [code], rest, none, none, rfl, rfl, ⟨⟨code, digit, rfl⟩, rfl⟩, ⟨?_, ?_, ?_⟩, rfl⟩, rfl⟩
    · exact Nat.zero_le _
    · intro limit given
      cases given
      exact most
    · exact decimals

theorem matches_quantity_iff {before : Option Nat} {text rest : Str} {group : Option Str} :
    Regex.Matches Pattern.quantity before text group rest ↔
      before.any Unicode.isdecimal = false ∧ ∃ value gap, IsCount value ∧ Str.Spaces gap ∧
        text = value ++ (gap ++ lit "개") ∧ group = some value := by
  simp only [Pattern.quantity, Regex.all, Regex.matches_seq_iff, Regex.matches_notAfter_iff,
    matches_count_iff, Pattern.spaces, Regex.matches_greedy_iff, Regex.matches_literal_iff]
  constructor
  · intro given
    obtain ⟨_, _, _, _, rfl, rfl, ⟨free, rfl, rfl⟩, value, _, _, _, rfl, rfl, ⟨count, rfl⟩,
      gap, _, _, _, rfl, rfl, ⟨⟨_, _, spaces⟩, rfl⟩, rfl, rfl⟩ := given
    exact ⟨free, value, gap, count, spaces, rfl, rfl⟩
  · intro given
    obtain ⟨free, value, gap, count, spaces, rfl, rfl⟩ := given
    exact ⟨[], _, none, _, rfl, rfl, ⟨free, rfl, rfl⟩, value, _, _, none, rfl, rfl, ⟨count, rfl⟩,
      gap, _, none, none, rfl, rfl, ⟨⟨Nat.zero_le _, by simp, spaces⟩, rfl⟩, rfl, rfl⟩

theorem matches_bareQuantity_iff {before : Option Nat} {text value rest : Str} :
    Regex.Matches Pattern.bareQuantity before text (some value) rest ↔
      ∃ start finish, Str.Spaces start ∧ IsCount value ∧ Str.Spaces finish ∧
        text = start ++ (value ++ finish) := by
  simp only [Pattern.bareQuantity, Regex.all, Regex.matches_seq_iff, matches_count_iff,
    Pattern.spaces, Regex.matches_greedy_iff]
  constructor
  · intro given
    obtain ⟨start, _, _, _, rfl, grouped, ⟨⟨_, _, spaces⟩, rfl⟩, found, finish, _, _, rfl, rfl,
      ⟨count, rfl⟩, ⟨_, _, later⟩, rfl⟩ := given
    cases grouped
    exact ⟨start, finish, spaces, count, later, rfl⟩
  · intro given
    obtain ⟨start, finish, spaces, count, later, rfl⟩ := given
    exact ⟨start, _, none, _, rfl, rfl, ⟨⟨Nat.zero_le _, by simp, spaces⟩, rfl⟩, value, finish, _,
      none, rfl, rfl, ⟨count, rfl⟩, ⟨Nat.zero_le _, by simp, later⟩, rfl⟩

theorem counts_of_matches {before text rest : Str} {group : Option Str}
    (matched : Regex.Matches Pattern.quantity before.getLast? text group rest) :
    ∃ value after, group = some value ∧ text ++ rest = value ++ after ∧
      Counts (before ++ (text ++ rest)) before value after := by
  obtain ⟨free, value, gap, count, spaces, rfl, rfl⟩ := matches_quantity_iff.mp matched
  have shape : value ++ (gap ++ lit "개") ++ rest = value ++ (gap ++ (lit "개" ++ rest)) := by
    simp only [List.append_assoc]
  exact ⟨value, gap ++ (lit "개" ++ rest), rfl, shape, by rw [shape], count, free, gap, rest,
    spaces, rfl⟩

theorem Counts.present {text before value after : Str} (counts : Counts text before value after) :
    Regex.found Pattern.quantity before.getLast? (value ++ after) ≠ [] := by
  obtain ⟨gap, rest, spaces, rfl⟩ := counts.unit
  refine List.ne_nil_of_mem (a := ⟨value ++ (gap ++ lit "개"), some value, rest⟩)
    (Regex.mem_found_iff.mpr ⟨matches_quantity_iff.mpr ?_, by simp only [List.append_assoc]⟩)
  exact ⟨counts.free, value, gap, counts.count, spaces, rfl, rfl⟩

/-- A search for a quantity finds the first count. -/
theorem search_quantity_iff {text value : Str} :
    (Regex.search Pattern.quantity text).bind Regex.Found.group = some value ↔
      ∃ before after, FirstCount text before value after := by
  refine Regex.search_group_iff (fun candidate chosen => ?_)
    (fun first => ⟨_, _, first.shape, first.present⟩) fun first second => (first.unique second).2.1
  obtain ⟨before, shape, first, leftmost⟩ := Regex.search_leftmost chosen
  obtain ⟨value, after, grouped, _, counts⟩ :=
    counts_of_matches (Regex.mem_found_iff.mp (List.mem_of_mem_head? first)).1
  rw [← shape] at counts
  exact ⟨before, value, after, grouped, counts, fun earlier other later written =>
    leftmost earlier _ written.shape written.present⟩

/-! ## The number -/

/-- A count is the text of a number from 1 to 99. -/
theorem IsCount.int {value : Str} (count : IsCount value) :
    ∃ number : Nat, Unicode.int? value = some (number : Int) ∧ 1 ≤ number ∧ number ≤ 99 := by
  have parsed : value.length ≤ 4300 → Unicode.int? value = some (Unicode.digitsValue value : Int) :=
    Unicode.int?_of_digits count.ne_nil count.digits
  obtain ⟨first, rest, rfl, digit, short, decimals⟩ := count
  refine ⟨_, parsed (by rw [List.length_cons]; omega), ?_⟩
  have tens : (Unicode.decimal first).getD 0 = first - 48 := by
    rw [Unicode.decimal_ascii first (by omega), if_pos (by omega)]
    rfl
  cases rest with
  | nil =>
      simp only [Unicode.digitsValue, List.foldl_cons, List.foldl_nil, tens]
      omega
  | cons second others =>
      obtain rfl : others = [] := List.eq_nil_of_length_eq_zero (by simpa using short)
      obtain ⟨units, known⟩ := Option.isSome_iff_exists.mp (decimals second List.mem_cons_self)
      have bounded := Unicode.decimal_range second units known
      simp only [Unicode.digitsValue, List.foldl_cons, List.foldl_nil, tens, known,
        Option.getD_some]
      omega

/-! ## Numerals -/

/-- The characters of numerals beside the digits: no white space, and not the unit. -/
structure CountMarks extends Numeral.Marks Nat where
  apart : ∀ code ∈ toMarks.codes, Str.isspace code = false ∧ code ≠ ord '개'

/-- A whole numeral of the text, in decimal digits. -/
abbrev Whole (marks : CountMarks) (text before numeral after : Str) : Prop :=
  Numeral.Whole marks.toMarks Unicode.isdecimal Str.isspace text before numeral after

/-- The first count of the text is a part of a numeral that begins before it. -/
def Fragment (marks : CountMarks) (text : Str) : Prop :=
  ∃ before value after, FirstCount text before value after ∧
    Numeral.continued marks.toMarks Unicode.isdecimal Str.isspace before = true

theorem CountMarks.stops (marks : CountMarks) {code : Nat}
    (stop : Str.isspace code = true ∨ code = ord '개') :
    Numeral.Stops marks.toMarks Unicode.isdecimal code := by
  refine ⟨not_isdecimal_of_stop stop, fun member => ?_⟩
  obtain ⟨visible, other⟩ := marks.apart code member
  rcases stop with space | unit
  · rw [visible] at space
    cases space
  · exact other unit

theorem IsCount.written {value : Str} (count : IsCount value) (marks : CountMarks) :
    Numeral.Digits marks.toMarks Unicode.isdecimal value :=
  .of_forall count.ne_nil count.digits

/-- A count is a whole numeral where no numeral has begun before it. -/
theorem Counts.whole_iff {text before value after : Str} (counts : Counts text before value after)
    (marks : CountMarks) : Whole marks text before value after ↔
      Numeral.continued marks.toMarks Unicode.isdecimal Str.isspace before = false := by
  refine (counts.count.written marks).whole_iff counts.shape fun code first => ?_
  obtain ⟨next, rest, rfl, stop⟩ := counts.stops
  cases first
  exact marks.stops stop

/-- The numeral of an integer from 1 to 99. -/
def PlainInteger (numeral : Str) : Prop :=
  ∃ number, 1 ≤ number ∧ number ≤ 99 ∧ numeral = Json.natRepr number

end VllmVerifier.CustomerService
