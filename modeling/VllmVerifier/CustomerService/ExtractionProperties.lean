import VllmVerifier.CustomerService.ActionsProperties
import VllmVerifier.CustomerService.QueryProperties
import VllmVerifier.CustomerService.SlotsProperties

/-!
When an extraction is sound: every value is well formed and faithful to the text,
except that a count may be a part of a longer numeral, and that a search phrase
of a filler word alone leaves an empty query.
-/

set_option autoImplicit false

namespace VllmVerifier.CustomerService

open Python

/-! ## Dates and products -/

/-- A calendar date, year first. -/
def IsDate (value : Str) : Prop :=
  ∃ year month day : Str, year.length = 4 ∧ month.length = 2 ∧ day.length = 2 ∧
    value = year ++ (lit "-" ++ (month ++ (lit "-" ++ day))) ∧
      ∃ years months days, asciiNumber year = some years ∧ asciiNumber month = some months ∧
        asciiNumber day = some days ∧ ValidDate years months days

theorem isDate_of_fromisoformat {year month day : Str} (yearLength : year.length = 4)
    (monthLength : month.length = 2) (dayLength : day.length = 2)
    (accepted : (fromisoformat (year ++ (lit "-" ++ (month ++ (lit "-" ++ day))))).isSome = true) :
    IsDate (year ++ (lit "-" ++ (month ++ (lit "-" ++ day)))) := by
  refine ⟨year, month, day, yearLength, monthLength, dayLength, rfl, ?_⟩
  have years : (year ++ (lit "-" ++ (month ++ (lit "-" ++ day)))).take 4 = year :=
    List.take_left' yearLength
  have months : ((year ++ (lit "-" ++ (month ++ (lit "-" ++ day)))).drop 5).take 2 = month := by
    rw [← List.append_assoc, List.drop_left' (by rw [List.length_append, yearLength]; rfl)]
    exact List.take_left' monthLength
  have days : ((year ++ (lit "-" ++ (month ++ (lit "-" ++ day)))).drop 8).take 2 = day := by
    have split : year ++ (lit "-" ++ (month ++ (lit "-" ++ day))) =
        (year ++ (lit "-" ++ (month ++ lit "-"))) ++ day := by simp only [List.append_assoc]
    have length : (year ++ (lit "-" ++ (month ++ lit "-"))).length = 8 := by
      simp only [List.length_append, yearLength, monthLength]
      rfl
    rw [split, List.drop_left' length, List.take_of_length_le (Nat.le_of_eq dayLength)]
  obtain ⟨found, read⟩ := Option.isSome_iff_exists.mp accepted
  unfold fromisoformat at read
  rw [years, months, days] at read
  obtain ⟨first, yearRead, read⟩ := Option.bind_eq_some_iff.mp read
  obtain ⟨second, monthRead, read⟩ := Option.bind_eq_some_iff.mp read
  obtain ⟨third, dayRead, read⟩ := Option.bind_eq_some_iff.mp read
  split at read
  · rename_i valid
    exact ⟨first, second, third, yearRead, monthRead, dayRead, valid⟩
  · cases read

variable [Unicode] {marks : CountMarks} {text value : Str} {expected : Option Slot} {slot : Slot}

theorem mention_name {product : Product} {found : Nat × Str}
    (mentioned : mention text product = some found) : found.2 = product.name := by
  unfold mention at mentioned
  obtain ⟨place, _, rfl⟩ := Option.map_eq_some_iff.mp mentioned
  rfl

theorem mentions_names (text : Str) :
    ((mentions text).map Prod.snd).Subperm (products.map Product.name) := by
  have sublist : ∀ items : List Product,
      ((items.filterMap (mention text)).map Prod.snd).Sublist (items.map Product.name) := by
    intro items
    induction items with
    | nil => exact .slnil
    | cons product rest ih =>
        cases mentioned : mention text product with
        | none =>
            rw [List.filterMap_cons_none mentioned]
            exact ih.cons _
        | some found =>
            rw [List.filterMap_cons_some mentioned, List.map_cons, mention_name mentioned]
            exact ih.cons_cons _
  exact ((List.perm_insertionSort _ _).map _).subperm.trans (sublist products).subperm

theorem product_of_mem (member : (slot, value) ∈ productsIn text expected) :
    value ∈ products.map Product.name := by
  have known : ∀ found ∈ mentions text, found.2 ∈ products.map Product.name :=
    fun found mentioned => (mentions_names text).subset (List.mem_map_of_mem mentioned)
  unfold productsIn at member
  split at member
  · cases member
  · rename_i only shape
    rw [shape] at known
    split at member
    · cases List.mem_singleton.mp member
      exact known only (List.mem_singleton_self _)
    · cases List.mem_singleton.mp member
      exact known only (List.mem_singleton_self _)
  · rename_i first second rest shape
    rw [shape] at known
    rcases List.mem_pair.mp member with same | same
    · cases same
      exact known first List.mem_cons_self
    · cases same
      exact known second (List.mem_cons_of_mem _ List.mem_cons_self)

omit [Unicode] in
/-- A word of capital letters and digits, in any case. -/
theorem matches_ignoreCase {word : Str} {before : Option Nat} {group : Option Str} {rest : Str}
    (capital : ∀ letter ∈ word, letter ≤ 90)
    (matched : Regex.Matches (Pattern.ignoreCase word) before text group rest) :
    (∀ code ∈ text, code < 128) ∧ group = none ∧
      text.map (fun code => if 97 ≤ code ∧ code ≤ 122 then code - 32 else code) = word := by
  induction word generalizing before text group with
  | nil =>
      obtain ⟨rfl, plain⟩ := Regex.matches_empty_iff.mp matched
      exact ⟨List.forall_mem_nil _, plain, rfl⟩
  | cons letter others ih =>
      obtain ⟨most, capital⟩ := List.forall_mem_cons.mp capital
      have one : ∀ {before : Option Nat} {text : Str} {group : Option Str} {rest : Str},
          Regex.Matches (.one fun found =>
            found == letter || Pattern.upperLetter letter && found == letter + 32)
            before text group rest → ∃ code, text = [code] ∧ code < 128 ∧ group = none ∧
              (if 97 ≤ code ∧ code ≤ 122 then code - 32 else code) = letter := by
        intro before text group rest matched
        obtain ⟨⟨code, accepted, rfl⟩, plain⟩ := Regex.matches_one_iff.mp matched
        have same : code = letter ∨ (65 ≤ letter ∧ letter ≤ 90) ∧ code = letter + 32 := by
          simpa [Pattern.upperLetter] using accepted
        refine ⟨code, rfl, by omega, plain, ?_⟩
        split <;> omega
      cases others with
      | nil =>
          obtain ⟨code, rfl, ascii, plain, same⟩ := one matched
          exact ⟨List.forall_mem_singleton.mpr ascii, plain, by rw [List.map_singleton, same]⟩
      | cons second others =>
          obtain ⟨start, next, _, _, rfl, rfl, first, later⟩ := Regex.matches_seq_iff.mp matched
          obtain ⟨code, rfl, ascii, rfl, same⟩ := one first
          obtain ⟨codes, rfl, mapped⟩ := ih capital later
          exact ⟨List.forall_mem_cons.mpr ⟨ascii, codes⟩, rfl,
            by rw [List.singleton_append, List.map_cons, same, mapped]⟩

theorem ignoreCase_upper {word : Str} {before : Option Nat} {group : Option Str} {rest : Str}
    (capital : ∀ letter ∈ word, letter ≤ 90)
    (matched : Regex.Matches (Pattern.ignoreCase word) before text group rest) :
    Unicode.upper text = word := by
  obtain ⟨ascii, _, mapped⟩ := matches_ignoreCase capital matched
  rw [Unicode.upper_ascii _ ascii, mapped]

theorem coupon_upper {candidate : Regex.Found}
    (chosen : Regex.search Pattern.coupon text = some candidate) :
    Unicode.upper candidate.text ∈ [lit "WELCOME10", lit "FALL20"] := by
  obtain ⟨_, _, matched⟩ := Regex.search_matches chosen
  simp only [Pattern.coupon, Regex.all, Regex.matches_seq_iff, Regex.matches_boundary_iff,
    Regex.matches_alt_iff] at matched
  obtain ⟨_, _, _, _, same, _, ⟨_, rfl, _⟩, word, _, _, _, rfl, _, named, _, rfl, _⟩ := matched
  rw [same, List.nil_append, List.append_nil]
  rcases named with named | named
  · rw [ignoreCase_upper (by decide) named]
    exact List.mem_cons_self
  · rw [ignoreCase_upper (by decide) named]
    exact List.mem_cons_of_mem _ List.mem_cons_self

/-- The whole number of an order: four digits with no digit around them, after `ORD`
in any case and at most one hyphen or blank, or nothing but them. -/
structure OrderNumber (text before digits after : Str) : Prop where
  shape : text = before ++ (digits ++ after)
  length : digits.length = 4
  decimal : ∀ code ∈ digits, Unicode.isdecimal code = true
  first : before.getLast?.any Unicode.isdecimal = false
  last : after.head?.any Unicode.isdecimal = false
  announced : (before = [] ∧ after = []) ∨ ∃ earlier word gap, before = earlier ++ (word ++ gap) ∧
    Unicode.upper word = lit "ORD" ∧ gap ∈ [[], lit "-", lit " "]

theorem matches_digits_iff {count : Nat} {before : Option Nat} {group : Option Str} {rest : Str} :
    Regex.Matches (Pattern.digits count) before text group rest ↔
      (text.length = count ∧ ∀ code ∈ text, Unicode.isdecimal code = true) ∧ group = none := by
  rw [Pattern.digits, Regex.matches_greedy_iff, ← and_assoc]
  refine and_congr_left' (and_congr_left' ⟨?_, ?_⟩)
  · intro given
    obtain ⟨least, most⟩ := given
    exact Nat.le_antisymm (most count rfl) least
  · intro exact
    refine ⟨Nat.le_of_eq exact.symm, fun limit given => ?_⟩
    cases given
    exact Nat.le_of_eq exact

/-- No digit follows the digits before a word boundary. -/
theorem not_isdecimal_of_boundary {before : Option Nat} {digits after : Str} (inside : digits ≠ [])
    (decimal : ∀ code ∈ digits, Unicode.isdecimal code = true)
    (edge : Regex.atBoundary Unicode.isWord (Regex.previous before digits) after = true) :
    after.head?.any Unicode.isdecimal = false := by
  obtain ⟨last, ends⟩ : ∃ last, digits.getLast? = some last :=
    ⟨_, List.getLast?_eq_some_getLast inside⟩
  have word := Unicode.isWord_of_isdecimal (decimal last (List.mem_of_getLast? ends))
  rw [Regex.atBoundary, Regex.previous, ends, Option.some_or, Option.any_some, word] at edge
  cases after with
  | nil => rfl
  | cons code rest =>
      refine Bool.eq_false_iff.mpr fun digit => ?_
      rw [List.head?_cons, Option.any_some, Unicode.isWord_of_isdecimal digit] at edge
      cases edge

omit [Unicode] in
theorem separator_iff {code : Nat} :
    Pattern.separator code = true ↔ code = ord '-' ∨ code = ord ' ' := by
  simp [Pattern.separator, Pattern.ofClass, lit]

/-- No digit is before the number of an order that `ORD` announces. -/
theorem not_isdecimal_of_announced {earlier word gap : Str} {before : Option Nat} {group : Option Str}
    {rest : Str} (named : Regex.Matches (Pattern.ignoreCase (lit "ORD")) before word group rest)
    (separators : ∀ code ∈ gap, Pattern.separator code = true) :
    (earlier ++ (word ++ gap)).getLast?.any Unicode.isdecimal = false := by
  cases gap using List.reverseRecOn with
  | append_singleton gap last =>
      rw [← List.append_assoc, ← List.append_assoc, List.getLast?_concat]
      rcases separator_iff.mp (separators last (by simp)) with rfl | rfl
      · exact Unicode.not_isdecimal_of_ascii (by decide) (by decide)
      · exact Unicode.not_isdecimal_of_ascii (by decide) (by decide)
  | nil =>
      obtain ⟨ascii, _, upper⟩ := matches_ignoreCase (by decide) named
      rw [show lit "ORD" = [79, 82, 68] from rfl] at upper
      rcases word with _ | ⟨first, _ | ⟨second, _ | ⟨third, _ | ⟨fourth, word⟩⟩⟩⟩
      all_goals simp at upper
      obtain ⟨_, _, upper⟩ := upper
      have bounds := ascii third (by simp)
      rw [List.append_nil, List.append_cons, List.append_cons, List.getLast?_concat]
      refine Unicode.not_isdecimal_of_ascii bounds ?_
      split at upper <;> omega

theorem orderNumber_of_matches {before text after digits : Str}
    (matched : Regex.Matches Pattern.orderId before.getLast? text (some digits) after) :
    ∃ earlier, OrderNumber (before ++ (text ++ after)) earlier digits after := by
  simp only [Pattern.orderId, Regex.all, Regex.matches_seq_iff, Regex.matches_boundary_iff,
    Regex.matches_group_iff, matches_digits_iff, Regex.matches_greedy_iff] at matched
  obtain ⟨_, _, _, _, rfl, grouped, ⟨_, rfl, rfl⟩, word, _, _, _, rfl, rfl, named, gap, _, _, _,
    rfl, rfl, ⟨⟨_, most, separators⟩, rfl⟩, found, _, _, _, rfl, rfl, ⟨⟨_, ⟨length, decimal⟩, _⟩, rfl⟩,
    edge, rfl, rfl⟩ := matched
  obtain ⟨_, rfl, _⟩ := matches_ignoreCase (by decide) named
  cases grouped
  refine ⟨before ++ (word ++ gap), by simp only [List.append_assoc, List.nil_append, List.append_nil],
    length, decimal, not_isdecimal_of_announced named separators, ?_,
    .inr ⟨before, word, gap, rfl, ignoreCase_upper (by decide) named, ?_⟩⟩
  · exact not_isdecimal_of_boundary (List.ne_nil_of_length_pos (by omega)) decimal edge
  · rcases gap with _ | ⟨code, _ | ⟨second, gap⟩⟩
    · exact List.mem_cons_self
    · rcases separator_iff.mp (separators code List.mem_cons_self) with rfl | rfl
      · exact List.mem_cons_of_mem _ List.mem_cons_self
      · exact List.mem_cons_of_mem _ (List.mem_cons_of_mem _ List.mem_cons_self)
    · have short := most 1 rfl
      simp at short

theorem order_number (stripped : Str.strip text = text)
    (read : (searchOr Pattern.orderId Pattern.bareOrderId .orderId expected text).bind
      Regex.Found.group = some value) : ∃ before after, OrderNumber text before value after := by
  obtain ⟨candidate, found, grouped⟩ := Option.bind_eq_some_iff.mp read
  unfold searchOr at found
  split at found
  · rename_i searched
    cases found
    obtain ⟨skipped, shape, matched⟩ := Regex.search_matches searched
    obtain ⟨before, number⟩ := orderNumber_of_matches (grouped ▸ matched)
    exact ⟨before, candidate.rest, shape ▸ number⟩
  · split at found
    · obtain ⟨_, matched⟩ := Regex.fullmatch_some found
      rw [grouped] at matched
      simp only [Pattern.bareOrderId, Pattern.spaces, Regex.all, Regex.matches_seq_iff,
        Regex.matches_group_iff, matches_digits_iff, Regex.matches_greedy_iff] at matched
      obtain ⟨start, _, _, _, shape, grouped, ⟨⟨_, _, early⟩, rfl⟩, digits, finish, _, _, rfl, rfl,
        ⟨⟨_, ⟨length, decimal⟩, _⟩, rfl⟩, ⟨_, _, late⟩, rfl⟩ := matched
      cases grouped
      obtain rfl := whole_of_stripped stripped shape early late
      exact ⟨[], [], (List.append_nil _).symm, length, decimal, rfl, rfl, .inl ⟨rfl, rfl⟩⟩
    · cases found

/-! ## Soundness -/

/-- What a value must be in a text. -/
def Faithful (marks : CountMarks) (text : Str) : Slot → Str → Prop
  | .orderId, value => ∃ before digits after, OrderNumber text before digits after ∧
      value = lit "ORD-" ++ digits
  | .quantity, value =>
      (∃ number : Nat, Unicode.int? value = some (number : Int) ∧ 1 ≤ number ∧ number ≤ 99) ∧
        ∃ before after, Whole marks text before value after ∧
          (FirstCount text before value after ∨ before = [] ∧ after = [])
  | .date, value => value <:+: text ∧ IsDate value
  | .product, value | .otherProduct, value => value ∈ products.map Product.name
  | _, _ => True

/-- Every value is visible and faithful. -/
structure Sound (marks : CountMarks) (text : Str) (expected : Option Slot) : Prop where
  visible : ∀ slot value, (extract text expected).get? slot = some value → ¬ Str.Spaces value
  faithful : ∀ slot value, (extract text expected).get? slot = some value →
    Faithful marks text slot value
  distinct : ∀ first second, (extract text expected).get? .product = some first →
    (extract text expected).get? .otherProduct = some second → first ≠ second
  numerals : ∀ numeral,
    Numeral.Written marks.toMarks Pattern.asciiDigit Str.isspace [] numeral →
      text = numeral ++ lit "개" →
        (((extract text expected).get? .quantity).isSome = true ↔ PlainInteger numeral)

/-- The slots of which more is asked than that their values are visible. -/
def checkedSlots : List Slot := [.orderId, .quantity, .date, .product, .otherProduct]

theorem faithful_of_unchecked (free : slot ∉ checkedSlots) : Faithful marks text slot value := by
  cases slot with
  | orderId | quantity | date | product | otherProduct => exact absurd free (by decide)
  | _ => trivial

omit [Unicode] in
theorem namedSlots_unchecked : ∀ entry ∈ namedSlots, entry.1 ∉ checkedSlots := by decide

omit [Unicode] in
theorem prefixes_unchecked : ∀ entry ∈ prefixes, entry.1 ∉ checkedSlots := by decide

theorem date_faithful {candidate : Regex.Found}
    (chosen : Regex.search Pattern.date text = some candidate)
    (accepted : (fromisoformat candidate.text).isSome = true) :
    candidate.text <:+: text ∧ IsDate candidate.text := by
  obtain ⟨skipped, shape, matched⟩ := Regex.search_matches chosen
  refine ⟨?_, ?_⟩
  · rw [shape]
    exact List.infix_append_of_infix_right (List.infix_append_of_infix_left List.infix_rfl)
  · simp only [Pattern.date, Pattern.digits, Regex.all, Regex.matches_seq_iff,
      Regex.matches_boundary_iff, Regex.matches_greedy_iff, Regex.matches_literal_iff] at matched
    obtain ⟨_, _, _, _, same, _, ⟨_, rfl, _⟩, year, _, _, _, rfl, _, ⟨⟨yearLeast, yearMost, _⟩, _⟩,
      _, _, _, _, rfl, _, ⟨rfl, _⟩, month, _, _, _, rfl, _, ⟨⟨monthLeast, monthMost, _⟩, _⟩,
      _, _, _, _, rfl, _, ⟨rfl, _⟩, day, _, _, _, rfl, _, ⟨⟨dayLeast, dayMost, _⟩, _⟩,
      _, rfl, _⟩ := matched
    rw [List.nil_append, List.append_nil] at same
    rw [same] at accepted ⊢
    exact isDate_of_fromisoformat (Nat.le_antisymm (yearMost 4 rfl) yearLeast)
      (Nat.le_antisymm (monthMost 2 rfl) monthLeast) (Nat.le_antisymm (dayMost 2 rfl) dayLeast)
      accepted

/-- Where the first count is no fragment, every value is faithful. -/
theorem Assigned.faithful (stripped : Str.strip text = text) (entire : ¬ Fragment marks text)
    (assigned : Assigned text expected slot value) : Faithful marks text slot value := by
  cases assigned with
  | orderId read =>
      obtain ⟨before, after, number⟩ := order_number stripped read
      exact ⟨before, _, after, number, rfl⟩
  | product member | otherProduct member => exact product_of_mem member
  | named listed _ => exact faithful_of_unchecked (namedSlots_unchecked _ listed)
  | prefixed listed _ => exact faithful_of_unchecked (prefixes_unchecked _ listed)
  | free listed _ =>
      obtain ⟨entry, member, rfl⟩ := List.mem_map.mp listed
      exact faithful_of_unchecked (prefixes_unchecked entry member)
  | quantity read =>
      rcases quantity_of_searchOr read with ⟨before, after, first⟩ | ⟨count, before, after, early,
        late, shape⟩
      · refine ⟨first.count.int, before, after, (first.whole_iff marks).mpr ?_, .inl first⟩
        exact Bool.eq_false_iff.mpr fun longer => entire ⟨before, value, after, first, longer⟩
      · obtain rfl := whole_of_stripped stripped shape early late
        refine ⟨count.int, [], [], ?_, .inr ⟨rfl, rfl⟩⟩
        exact ((count.written marks).whole_iff (List.append_nil _).symm (by simp)).mpr rfl
  | date chosen accepted => exact date_faithful chosen accepted
  | _ => trivial

/-- Where no search phrase is a filler word, every value is visible. -/
theorem Assigned.visible (stripped : Str.strip text = text) (inside : text ≠ [])
    (asked : ¬ FillerSearch text) (assigned : Assigned text expected slot value) :
    ¬ Str.Spaces value := by
  cases assigned with
  | orderId => exact Str.not_spaces_of_mem (List.mem_append_left _ List.mem_cons_self) (by decide)
  | product member | otherProduct member =>
      have names : ∀ name ∈ products.map Product.name, ¬ Str.Spaces name := by decide
      exact names value (product_of_mem member)
  | named listed member =>
      have names : ∀ entry ∈ namedSlots, ∀ name ∈ entry.2, ¬ Str.Spaces name := by decide
      exact names _ listed value member
  | coupon chosen =>
      have words : ∀ word ∈ [lit "WELCOME10", lit "FALL20"], ¬ Str.Spaces word := by decide
      exact words _ (coupon_upper chosen)
  | size member =>
      have sizes : ∀ size ∈ [lit "S", lit "M", lit "L"], ¬ Str.Spaces size := by decide
      exact sizes value member
  | quantity read =>
      have count := isCount_of_searchOr read
      obtain ⟨code, member⟩ := List.exists_mem_of_ne_nil _ count.ne_nil
      exact Str.not_spaces_of_mem member
        (Unicode.not_isspace_of_isdecimal (count.digits code member))
  | date chosen accepted =>
      obtain ⟨_, year, month, day, _, _, _, shape, _⟩ := date_faithful chosen accepted
      rw [shape]
      exact Str.not_spaces_of_mem (List.mem_append_right _ List.mem_cons_self) (by decide)
  | email chosen =>
      obtain ⟨_, _, matched⟩ := Regex.search_matches chosen
      simp only [Pattern.email, Regex.all, Regex.matches_seq_iff, Regex.matches_literal_iff] at matched
      obtain ⟨_, _, _, _, same, _, _, _, _, _, _, rfl, _, ⟨rfl, _⟩, _⟩ := matched
      rw [same]
      exact Str.not_spaces_of_mem
        (List.mem_append_right _ (List.mem_append_left _ List.mem_cons_self)) (by decide)
  | phone chosen =>
      obtain ⟨_, _, matched⟩ := Regex.search_matches chosen
      simp only [Pattern.phone, Regex.all, Regex.matches_seq_iff, Regex.matches_literal_iff] at matched
      obtain ⟨_, _, _, _, same, _, _, _, _, _, _, rfl, _, ⟨rfl, _⟩, _⟩ := matched
      rw [same]
      exact Str.not_spaces_of_mem
        (List.mem_append_right _ (List.mem_append_left _ List.mem_cons_self)) (by decide)
  | notification member =>
      have words : ∀ word ∈ [lit "끄기", lit "켜기"], ¬ Str.Spaces word := by decide
      exact words value member
  | prefixed _ read => exact not_spaces_take_strip (by decide) (prefixed_visible stripped read)
  | query read =>
      obtain ⟨before, after, first⟩ := search_query_iff.mp read
      refine not_spaces_take_strip (by decide) fun spaces => ?_
      exact asked ⟨before, _, after, first, (first.spaces_iff stripped).mp spaces⟩
  | free =>
      rw [stripped]
      exact not_spaces_of_suffix stripped (List.nil_append _).symm inside

/-! ## What an extraction always finds -/

omit [Unicode]

end VllmVerifier.CustomerService
