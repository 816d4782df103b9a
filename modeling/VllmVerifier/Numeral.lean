import Mathlib.Data.List.Induction

/-!
Numerals as they are written in a text, over any characters: digits with signs,
decimal points, marks between digits and exponents. A numeral is whole where no
longer one contains it; the characters before a run of digits tell whether that
is so.
-/

set_option autoImplicit false

namespace VllmVerifier.Numeral

variable {α : Type}

/-- The characters of numerals beside the digits. -/
structure Marks (α : Type) where
  /-- Before a numeral or an exponent. -/
  signs : List α
  /-- Before the first digit of a numeral without an integral part. -/
  points : List α
  /-- Between two digits: a decimal point, a mark of grouping, the bar of a fraction. -/
  joints : List α
  /-- Between a digit and an exponent. -/
  exponents : List α

def Marks.codes (marks : Marks α) : List α :=
  marks.signs ++ marks.points ++ marks.joints ++ marks.exponents

variable (marks : Marks α) (digit blank : α → Bool)

/-- What a numeral is from its first digit on. -/
inductive Digits : List α → Prop where
  | last {code : α} : digit code = true → Digits [code]
  | digit {code : α} {rest : List α} : digit code = true → Digits rest → Digits (code :: rest)
  | marked {code mark : α} {rest : List α} : digit code = true →
      mark ∈ marks.joints ++ marks.exponents → Digits rest → Digits (code :: mark :: rest)
  | signed {code mark sign : α} {rest : List α} : digit code = true →
      mark ∈ marks.exponents → sign ∈ marks.signs → Digits rest →
      Digits (code :: mark :: sign :: rest)

/-- A numeral that is written after this text. A point after a word ends the word
and begins no numeral. -/
inductive Written (before : List α) : List α → Prop where
  | plain {digits : List α} : Digits marks digit digits → Written before digits
  | signed {sign : α} {digits : List α} : sign ∈ marks.signs → Digits marks digit digits →
      Written before (sign :: digits)
  | pointed {point : α} {digits : List α} : point ∈ marks.points →
      before.getLast?.all blank = true → Digits marks digit digits →
      Written before (point :: digits)
  | signedPoint {sign point : α} {digits : List α} : sign ∈ marks.signs → point ∈ marks.points →
      Digits marks digit digits → Written before (sign :: point :: digits)

/-- A numeral of the text that is no part of a longer one. -/
structure Whole (text before numeral after : List α) : Prop where
  shape : text = before ++ (numeral ++ after)
  written : Written marks digit blank before numeral
  longest : ∀ start other finish, text = start ++ (other ++ finish) →
    Written marks digit blank start other → start.length ≤ before.length →
      finish.length ≤ after.length → other = numeral

/-- Whether the numeral of the digit that follows has begun before: with a digit
or a sign, with a mark that has a digit before it, or with a point that no word is
before. -/
def continued [DecidableEq α] (before : List α) : Bool :=
  match before.reverse with
  | [] => false
  | last :: earlier => digit last || decide (last ∈ marks.signs) ||
      decide (last ∈ marks.joints ++ marks.exponents) && earlier.head?.any digit ||
      decide (last ∈ marks.points) &&
        earlier.head?.all fun code => blank code || decide (code ∈ marks.signs)

variable {marks digit blank} {text before numeral after : List α}

/-! ## The characters of a numeral -/

theorem Marks.mem_codes_iff {code : α} : code ∈ marks.codes ↔
    code ∈ marks.signs ∨ code ∈ marks.points ∨ code ∈ marks.joints ++ marks.exponents := by
  simp only [Marks.codes, List.mem_append, or_assoc]

theorem Digits.codes (digits : Digits marks digit text) :
    ∀ code ∈ text, digit code = true ∨ code ∈ marks.codes := by
  induction digits with
  | last found => exact List.forall_mem_singleton.mpr (.inl found)
  | digit found _ ih => exact List.forall_mem_cons.mpr ⟨.inl found, ih⟩
  | marked found mark _ ih =>
      refine List.forall_mem_cons.mpr ⟨.inl found, List.forall_mem_cons.mpr ⟨.inr ?_, ih⟩⟩
      exact Marks.mem_codes_iff.mpr (.inr (.inr mark))
  | signed found mark sign _ ih =>
      refine List.forall_mem_cons.mpr ⟨.inl found, List.forall_mem_cons.mpr ⟨.inr ?_,
        List.forall_mem_cons.mpr ⟨.inr ?_, ih⟩⟩⟩
      · exact Marks.mem_codes_iff.mpr (.inr (.inr (List.mem_append_right _ mark)))
      · exact Marks.mem_codes_iff.mpr (.inl sign)

theorem Written.codes (written : Written marks digit blank before text) :
    ∀ code ∈ text, digit code = true ∨ code ∈ marks.codes := by
  cases written with
  | plain digits => exact digits.codes
  | signed sign digits =>
      exact List.forall_mem_cons.mpr ⟨.inr (Marks.mem_codes_iff.mpr (.inl sign)), digits.codes⟩
  | pointed point _ digits =>
      exact List.forall_mem_cons.mpr ⟨.inr (Marks.mem_codes_iff.mpr (.inr (.inl point))), digits.codes⟩
  | signedPoint sign point digits =>
      refine List.forall_mem_cons.mpr ⟨.inr (Marks.mem_codes_iff.mpr (.inl sign)), ?_⟩
      exact List.forall_mem_cons.mpr ⟨.inr (Marks.mem_codes_iff.mpr (.inr (.inl point))), digits.codes⟩

/-- More digits, more numerals. -/
theorem Digits.mono {other : α → Bool} (more : ∀ code, digit code = true → other code = true)
    (digits : Digits marks digit text) : Digits marks other text := by
  induction digits with
  | last found => exact .last (more _ found)
  | digit found _ ih => exact .digit (more _ found) ih
  | marked found mark _ ih => exact .marked (more _ found) mark ih
  | signed found mark sign _ ih => exact .signed (more _ found) mark sign ih

theorem Written.mono {other : α → Bool} (more : ∀ code, digit code = true → other code = true)
    (written : Written marks digit blank before text) : Written marks other blank before text := by
  cases written with
  | plain digits => exact .plain (digits.mono more)
  | signed sign digits => exact .signed sign (digits.mono more)
  | pointed point free digits => exact .pointed point free (digits.mono more)
  | signedPoint sign point digits => exact .signedPoint sign point (digits.mono more)

theorem Digits.of_forall (inside : text ≠ []) (found : ∀ code ∈ text, digit code = true) :
    Digits marks digit text := by
  induction text with
  | nil => exact absurd rfl inside
  | cons code rest ih =>
      obtain ⟨first, others⟩ := List.forall_mem_cons.mp found
      cases rest with
      | nil => exact .last first
      | cons next rest => exact .digit first (ih (List.cons_ne_nil _ _) others)

/-! ## Before a run of digits -/

theorem split_cons {inside rest : List α} {code : α} (split : inside ++ rest = code :: text)
    (visible : inside ≠ []) : ∃ tail, inside = code :: tail ∧ tail ++ rest = text := by
  rcases List.append_eq_cons_iff.mp split with ⟨empty, _⟩ | ⟨tail, rfl, rfl⟩
  · exact absurd empty visible
  · exact ⟨tail, rfl, rfl⟩

variable [DecidableEq α]

theorem continued_concat_iff {last : α} :
    continued marks digit blank (before ++ [last]) = true ↔
      digit last = true ∨ last ∈ marks.signs ∨
        (last ∈ marks.joints ++ marks.exponents ∧
          ∃ code, before.getLast? = some code ∧ digit code = true) ∨
        (last ∈ marks.points ∧
          ∀ code, before.getLast? = some code → blank code = true ∨ code ∈ marks.signs) := by
  rw [continued, List.reverse_append, List.reverse_singleton, List.singleton_append]
  simp only [List.head?_reverse, Bool.or_eq_true, Bool.and_eq_true, decide_eq_true_eq, or_assoc,
    Option.any_eq_true, Option.all_eq_true]

theorem continued_digit {code : α} (found : digit code = true) :
    continued marks digit blank (before ++ [code]) = true :=
  continued_concat_iff.mpr (.inl found)

theorem continued_sign {sign : α} (member : sign ∈ marks.signs) :
    continued marks digit blank (before ++ [sign]) = true :=
  continued_concat_iff.mpr (.inr (.inl member))

theorem continued_mark {code mark : α} (found : digit code = true)
    (member : mark ∈ marks.joints ++ marks.exponents) :
    continued marks digit blank (before ++ [code, mark]) = true := by
  rw [List.append_cons]
  refine continued_concat_iff.mpr (.inr (.inr (.inl ⟨member, code, ?_, found⟩)))
  exact List.getLast?_concat

theorem continued_point {point : α} (member : point ∈ marks.points)
    (free : ∀ code, before.getLast? = some code → blank code = true ∨ code ∈ marks.signs) :
    continued marks digit blank (before ++ [point]) = true :=
  continued_concat_iff.mpr (.inr (.inr (.inr ⟨member, free⟩)))

/-- Inside a numeral, what is before has begun it. -/
theorem Digits.continued {inside rest : List α} (digits : Digits marks digit (inside ++ rest))
    (visible : inside ≠ []) : continued marks digit blank (before ++ inside) = true := by
  generalize split : inside ++ rest = text at digits
  induction digits generalizing before inside with
  | last found =>
      obtain ⟨tail, rfl, left⟩ := split_cons split visible
      obtain ⟨rfl, _⟩ := List.append_eq_nil_iff.mp left
      exact continued_digit found
  | digit found _ ih =>
      obtain ⟨tail, rfl, left⟩ := split_cons split visible
      rcases eq_or_ne tail [] with rfl | inside
      · exact continued_digit found
      · rw [List.append_cons]
        exact ih inside left
  | marked found mark _ ih =>
      obtain ⟨first, rfl, left⟩ := split_cons split visible
      rcases eq_or_ne first [] with rfl | inside
      · exact continued_digit found
      · obtain ⟨tail, rfl, beyond⟩ := split_cons left inside
        rcases eq_or_ne tail [] with rfl | more
        · exact continued_mark found mark
        · rw [List.append_cons, List.append_cons]
          exact ih more beyond
  | signed found mark sign _ ih =>
      obtain ⟨first, rfl, left⟩ := split_cons split visible
      rcases eq_or_ne first [] with rfl | inside
      · exact continued_digit found
      · obtain ⟨second, rfl, beyond⟩ := split_cons left inside
        rcases eq_or_ne second [] with rfl | more
        · exact continued_mark found (List.mem_append_right _ mark)
        · obtain ⟨tail, rfl, final⟩ := split_cons beyond more
          rw [List.append_cons, List.append_cons]
          rcases eq_or_ne tail [] with rfl | most
          · exact continued_sign sign
          · rw [List.append_cons]
            exact ih most final

theorem Written.continued {start inside rest : List α}
    (written : Written marks digit blank start (inside ++ rest)) (visible : inside ≠ []) :
    continued marks digit blank (start ++ inside) = true := by
  generalize split : inside ++ rest = text at written
  cases written with
  | plain digits => exact (split ▸ digits).continued visible
  | signed sign digits =>
      obtain ⟨tail, rfl, rfl⟩ := split_cons split visible
      rcases eq_or_ne tail [] with rfl | more
      · exact continued_sign sign
      · rw [List.append_cons]
        exact digits.continued more
  | pointed point free digits =>
      obtain ⟨tail, rfl, rfl⟩ := split_cons split visible
      rcases eq_or_ne tail [] with rfl | more
      · refine continued_point point fun code last => .inl ?_
        exact (Option.all_eq_true _ _).mp free code last
      · rw [List.append_cons]
        exact digits.continued more
  | signedPoint sign point digits =>
      obtain ⟨second, rfl, left⟩ := split_cons split visible
      rcases eq_or_ne second [] with rfl | inside
      · exact continued_sign sign
      · obtain ⟨tail, rfl, rfl⟩ := split_cons left inside
        rw [List.append_cons]
        rcases eq_or_ne tail [] with rfl | more
        · refine continued_point point fun code last => .inr ?_
          rw [List.getLast?_concat] at last
          cases last
          exact sign
        · rw [List.append_cons]
          exact digits.continued more

/-! ## Whole numerals -/

theorem Digits.longer (digits : Digits marks digit numeral)
    (begun : Numeral.continued marks digit blank before = true) :
    ∃ start inside, before = start ++ inside ∧ inside ≠ [] ∧
      Written marks digit blank start (inside ++ numeral) := by
  cases before using List.reverseRecOn with
  | nil => cases begun
  | append_singleton earlier last =>
      rcases continued_concat_iff.mp begun with found | sign | ⟨mark, code, early, found⟩ |
        ⟨point, free⟩
      · exact ⟨earlier, [last], rfl, List.cons_ne_nil _ _, .plain (.digit found digits)⟩
      · exact ⟨earlier, [last], rfl, List.cons_ne_nil _ _, .signed sign digits⟩
      · obtain ⟨start, rfl⟩ := List.getLast?_eq_some_iff.mp early
        exact ⟨start, [code, last], List.append_assoc _ _ _, List.cons_ne_nil _ _,
          .plain (.marked found mark digits)⟩
      · cases early : earlier.getLast? with
        | none =>
            refine ⟨earlier, [last], rfl, List.cons_ne_nil _ _, .pointed point ?_ digits⟩
            rw [early]
            rfl
        | some code =>
            rcases free code early with space | sign
            · refine ⟨earlier, [last], rfl, List.cons_ne_nil _ _, .pointed point ?_ digits⟩
              rw [early]
              exact space
            · obtain ⟨start, rfl⟩ := List.getLast?_eq_some_iff.mp early
              exact ⟨start, [code, last], List.append_assoc _ _ _, List.cons_ne_nil _ _,
                .signedPoint sign point digits⟩

/-- A character that no numeral contains. -/
def Stops (marks : Marks α) (digit : α → Bool) (code : α) : Prop :=
  digit code = false ∧ code ∉ marks.codes

/-- Digits up to the end of a numeral are whole where no numeral has begun before. -/
theorem Digits.whole_iff (digits : Digits marks digit numeral)
    (shape : text = before ++ (numeral ++ after))
    (stops : ∀ code, after.head? = some code → Stops marks digit code) :
    Whole marks digit blank text before numeral after ↔
      Numeral.continued marks digit blank before = false := by
  constructor
  · intro whole
    refine Bool.eq_false_iff.mpr fun begun => ?_
    obtain ⟨start, inside, rfl, visible, written⟩ := digits.longer begun
    have same := whole.longest start (inside ++ numeral) after
      (by rw [shape, List.append_assoc, List.append_assoc]) written
      (by rw [List.length_append]; omega) (Nat.le_refl _)
    exact visible (List.append_left_eq_self.mp same)
  · intro free
    refine ⟨shape, .plain digits, fun start other finish again written early late => ?_⟩
    obtain ⟨inside, rfl⟩ : ∃ inside, before = start ++ inside :=
      (List.prefix_of_prefix_length_le ⟨_, again.symm⟩ ⟨_, shape.symm⟩ early).imp fun _ => Eq.symm
    obtain ⟨tail, rfl⟩ : ∃ tail, after = tail ++ finish := by
      have again : finish <:+ text := ⟨start ++ other, by rw [again, List.append_assoc]⟩
      have first : after <:+ text := ⟨start ++ inside ++ numeral, by rw [shape, List.append_assoc]⟩
      exact (List.suffix_of_suffix_length_le again first late).imp fun _ => Eq.symm
    obtain rfl : other = inside ++ (numeral ++ tail) := by
      rw [shape, List.append_assoc, List.append_cancel_left_eq] at again
      simp only [← List.append_assoc, List.append_cancel_right_eq] at again
      rw [← again, List.append_assoc]
    have closed : tail = [] := by
      cases tail with
      | nil => rfl
      | cons code tail =>
          obtain ⟨plain, apart⟩ := stops code rfl
          rcases written.codes code (by simp) with found | member
          · rw [plain] at found
            cases found
          · exact absurd member apart
    obtain rfl : inside = [] := by
      by_contra visible
      rw [written.continued visible] at free
      cases free
    rw [closed, List.append_nil, List.nil_append]

end VllmVerifier.Numeral
