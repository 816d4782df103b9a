import VllmVerifier.Json.LexicalProperties
import VllmVerifier.Python.Result

/-!
`loads` accepts exactly the documents of the grammar whose objects the hook
accepts, and returns what the hook makes of the derived value.
-/

set_option autoImplicit false

namespace VllmVerifier.Json

open Python

variable {ε : Type} {hook : List (Str × Json) → Except ε Json}

/-! ## Soundness -/

theorem Derives.elements_blank {items : List Json} {blank text : Str} (blankValid : Blank blank)
    (derived : Derives (.elements items) text) : Derives (.elements items) (blank ++ text) := by
  have join {before : Str} (beforeValid : Blank before) : Blank (blank ++ before) := by
    intro code member
    rcases List.mem_append.mp member with member | member
    · exact blankValid code member
    · exact beforeValid code member
  cases derived with
  | lastElement before value after =>
      simpa only [List.append_assoc] using Derives.lastElement (join before) value after
  | element before value after rest =>
      simpa only [List.append_assoc] using Derives.element (join before) value after rest

theorem Derives.members_blank {members : List (Str × Json)} {blank text : Str}
    (blankValid : Blank blank) (derived : Derives (.members members) text) :
    Derives (.members members) (blank ++ text) := by
  have join {before : Str} (beforeValid : Blank before) : Blank (blank ++ before) := by
    intro code member
    rcases List.mem_append.mp member with member | member
    · exact blankValid code member
    · exact beforeValid code member
  cases derived with
  | lastMember before name middle gap value after =>
      simpa only [List.append_assoc] using
        Derives.lastMember (join before) name middle gap value after
  | member before name middle gap value after rest =>
      simpa only [List.append_assoc] using
        Derives.member (join before) name middle gap value after rest

/-- A result of the scanner is what the hook makes of a value the consumed text
derives from. -/
def ValueRead (hook : List (Str × Json) → Except ε Json) (text : Str) (value : Json)
    (rest : Str) : Prop :=
  ∃ raw shown, text = shown ++ rest ∧ Derives (.value raw) shown ∧ rebuild hook raw = .ok value

def ItemsRead (hook : List (Str × Json) → Except ε Json) (text : Str) (values : List Json)
    (rest : Str) : Prop :=
  ∃ raws shown, text = shown ++ ord ']' :: rest ∧ Derives (.elements raws) shown ∧
    rebuildItems hook raws = .ok values

def MembersRead (hook : List (Str × Json) → Except ε Json) (text : Str)
    (members : List (Str × Json)) (rest : Str) : Prop :=
  ∃ raws shown, text = shown ++ ord '}' :: rest ∧ Derives (.members raws) shown ∧
    rebuildMembers hook raws = .ok members

theorem scanScalar_sound {text rest : Str} {value : Json}
    (scanned : scanScalar (ε := ε) text = .ok (value, rest)) :
    ValueRead hook text value rest := by
  unfold scanScalar at scanned
  cases null : afterLiteral (lit "null") text with
  | some tail =>
      simp only [null] at scanned
      cases scanned
      exact ⟨.null, _, afterLiteral_some null, .null, rfl⟩
  | none =>
  cases trueRead : afterLiteral (lit "true") text with
  | some tail =>
      simp only [null, trueRead] at scanned
      cases scanned
      exact ⟨.bool true, _, afterLiteral_some trueRead, .trueText, rfl⟩
  | none =>
  cases falseRead : afterLiteral (lit "false") text with
  | some tail =>
      simp only [null, trueRead, falseRead] at scanned
      cases scanned
      exact ⟨.bool false, _, afterLiteral_some falseRead, .falseText, rfl⟩
  | none =>
  cases numeral : scanNumber text with
  | some read =>
      simp only [null, trueRead, falseRead, numeral] at scanned
      cases scanned
      obtain ⟨valid, shape⟩ := scanNumber_sound numeral
      exact ⟨_, _, shape, .number valid, rfl⟩
  | none =>
  cases nan : afterLiteral (lit "NaN") text with
  | some tail =>
      simp only [null, trueRead, falseRead, numeral, nan] at scanned
      cases scanned
      exact ⟨_, _, afterLiteral_some nan, .nan, rfl⟩
  | none =>
  cases infinity : afterLiteral (lit "Infinity") text with
  | some tail =>
      simp only [null, trueRead, falseRead, numeral, nan, infinity] at scanned
      cases scanned
      exact ⟨_, _, afterLiteral_some infinity, .infinity, rfl⟩
  | none =>
  cases negInfinity : afterLiteral (lit "-Infinity") text with
  | some tail =>
      simp only [null, trueRead, falseRead, numeral, nan, infinity, negInfinity] at scanned
      cases scanned
      exact ⟨_, _, afterLiteral_some negInfinity, .negInfinity, rfl⟩
  | none =>
      simp only [null, trueRead, falseRead, numeral, nan, infinity, negInfinity] at scanned
      cases scanned

theorem runHook_ok {members : List (Str × Json)} {value : Json}
    (success : runHook hook members = .ok value) : hook members = .ok value := by
  unfold runHook at success
  cases result : hook members with
  | error error => simp [result, Except.mapError] at success
  | ok found => simpa [result, Except.mapError] using success

theorem skipBlank_shape {text remaining : Str} (skipped : skipBlank text = remaining) :
    ∃ blank, Blank blank ∧ text = blank ++ remaining :=
  ⟨_, blank_takeWhile text, skipped ▸ (takeWhile_append_skipBlank text).symm⟩

theorem afterBlank_some {code : Nat} {text rest : Str}
    (found : afterLiteral [code] (skipBlank text) = some rest) :
    ∃ blank, Blank blank ∧ text = blank ++ code :: rest := by
  obtain ⟨blank, blankValid, shape⟩ := skipBlank_shape (afterLiteral_some found)
  exact ⟨blank, blankValid, by simpa using shape⟩

private theorem scanOnce_sound_step {fuel : Nat} {text rest : Str} {value : Json}
    (items : ∀ text values rest, scanItems hook fuel text = .ok (values, rest) →
      ItemsRead hook text values rest)
    (members : ∀ text values rest, scanMembers hook fuel text = .ok (values, rest) →
      MembersRead hook text values rest)
    (scanned : scanOnce hook (fuel + 1) text = .ok (value, rest)) :
    ValueRead hook text value rest := by
  cases text with
  | nil => simp [scanOnce] at scanned
  | cons code tail =>
      rw [scanOnce] at scanned
      by_cases quote : code = ord '"'
      · simp only [quote, if_true] at scanned
        cases read : scanString tail with
        | none =>
            simp only [read] at scanned
            cases scanned
        | some found =>
            simp only [read] at scanned
            cases scanned
            obtain ⟨shown, denotes, shape⟩ := scanString_sound read
            exact ⟨_, _, quote ▸ shape, .str denotes, rfl⟩
      by_cases brace : code = ord '{'
      · rw [if_neg quote, if_pos brace] at scanned
        cases closed : afterLiteral [ord '}'] (skipBlank tail) with
        | some after =>
            simp only [closed] at scanned
            obtain ⟨made, ran, shape⟩ := except_bind_ok scanned
            cases shape
            obtain ⟨blank, blankValid, rfl⟩ := afterBlank_some closed
            refine ⟨.object [], _, by simp [brace], .emptyObject blankValid, ?_⟩
            simpa [rebuild, rebuildMembers, except_ok_bind] using runHook_ok ran
        | none =>
            simp only [closed] at scanned
            obtain ⟨⟨values, after⟩, read, continuation⟩ := except_bind_ok scanned
            obtain ⟨made, ran, shape⟩ := except_bind_ok continuation
            cases shape
            obtain ⟨raws, shown, split, derived, rebuilt⟩ := members _ _ _ read
            obtain ⟨blank, blankValid, rfl⟩ := skipBlank_shape split
            refine ⟨.object raws, _, by simp [brace],
              .object (derived.members_blank blankValid), ?_⟩
            simpa [rebuild, rebuilt, except_ok_bind] using runHook_ok ran
      by_cases bracket : code = ord '['
      · rw [if_neg quote, if_neg brace, if_pos bracket] at scanned
        cases closed : afterLiteral [ord ']'] (skipBlank tail) with
        | some after =>
            simp only [closed] at scanned
            cases scanned
            obtain ⟨blank, blankValid, rfl⟩ := afterBlank_some closed
            exact ⟨.array [], _, by simp [bracket], .emptyArray blankValid, rfl⟩
        | none =>
            simp only [closed] at scanned
            obtain ⟨⟨values, after⟩, read, shape⟩ := except_bind_ok scanned
            cases shape
            obtain ⟨raws, shown, split, derived, rebuilt⟩ := items _ _ _ read
            obtain ⟨blank, blankValid, rfl⟩ := skipBlank_shape split
            refine ⟨.array raws, _, by simp [bracket],
              .array (derived.elements_blank blankValid), ?_⟩
            simp [rebuild, rebuilt, except_ok_bind, pure, Except.pure]
      rw [if_neg quote, if_neg brace, if_neg bracket] at scanned
      exact scanScalar_sound scanned

private theorem scanItems_sound_step {fuel : Nat} {text rest : Str} {values : List Json}
    (once : ∀ text value rest, scanOnce hook fuel text = .ok (value, rest) →
      ValueRead hook text value rest)
    (items : ∀ text values rest, scanItems hook fuel text = .ok (values, rest) →
      ItemsRead hook text values rest)
    (scanned : scanItems hook (fuel + 1) text = .ok (values, rest)) :
    ItemsRead hook text values rest := by
  rw [scanItems] at scanned
  obtain ⟨⟨value, afterValue⟩, read, continuation⟩ := except_bind_ok scanned
  obtain ⟨raw, shown, rfl, derived, rebuilt⟩ := once _ _ _ read
  cases closed : afterLiteral [ord ']'] (skipBlank afterValue) with
  | some tail =>
      simp only [closed] at continuation
      cases continuation
      obtain ⟨blank, blankValid, rfl⟩ := afterBlank_some closed
      refine ⟨[raw], _, by simp,
        .lastElement blank_nil derived blankValid, ?_⟩
      simp [rebuildItems, rebuilt, except_ok_bind, pure, Except.pure]
  | none =>
      cases comma : afterLiteral [ord ','] (skipBlank afterValue) with
      | none =>
          simp only [closed, comma] at continuation
          cases continuation
      | some tail =>
          simp only [closed, comma] at continuation
          obtain ⟨⟨others, after⟩, more, result⟩ := except_bind_ok continuation
          cases result
          obtain ⟨raws, shown', split, derived', rebuilt'⟩ := items _ _ _ more
          obtain ⟨gap, gapValid, rfl⟩ := skipBlank_shape split
          obtain ⟨blank, blankValid, rfl⟩ := afterBlank_some comma
          refine ⟨raw :: raws, _, by simp, .element blank_nil derived
            blankValid (derived'.elements_blank gapValid), ?_⟩
          simp [rebuildItems, rebuilt, rebuilt', except_ok_bind, pure, Except.pure]

private theorem scanMembers_sound_step {fuel : Nat} {text rest : Str}
    {values : List (Str × Json)}
    (once : ∀ text value rest, scanOnce hook fuel text = .ok (value, rest) →
      ValueRead hook text value rest)
    (members : ∀ text values rest, scanMembers hook fuel text = .ok (values, rest) →
      MembersRead hook text values rest)
    (scanned : scanMembers hook (fuel + 1) text = .ok (values, rest)) :
    MembersRead hook text values rest := by
  rw [scanMembers] at scanned
  cases opened : afterLiteral [ord '"'] text with
  | none =>
      simp only [opened] at scanned
      cases scanned
  | some inner =>
  cases named : scanString inner with
  | none =>
      simp only [opened, named] at scanned
      cases scanned
  | some found =>
  obtain ⟨name, afterName⟩ := found
  cases colon : afterLiteral [ord ':'] (skipBlank afterName) with
  | none =>
      simp only [opened, named, colon] at scanned
      cases scanned
  | some afterColon =>
  simp only [opened, named, colon] at scanned
  obtain ⟨⟨value, afterValue⟩, read, continuation⟩ := except_bind_ok scanned
  obtain ⟨nameText, denotes, nameShape⟩ := scanString_sound named
  obtain ⟨raw, shown, shape, derived, rebuilt⟩ := once _ _ _ read
  obtain ⟨gap, gapValid, rfl⟩ := skipBlank_shape shape
  obtain ⟨middle, middleValid, rfl⟩ := afterBlank_some colon
  have start : text = nameText ++ (middle ++ ord ':' :: (gap ++ (shown ++ afterValue))) :=
    (afterLiteral_some opened).trans nameShape
  cases closed : afterLiteral [ord '}'] (skipBlank afterValue) with
  | some tail =>
      simp only [closed] at continuation
      cases continuation
      obtain ⟨blank, blankValid, rfl⟩ := afterBlank_some closed
      refine ⟨[(name, raw)], _, by simp [start], .lastMember blank_nil
        denotes middleValid gapValid derived blankValid, ?_⟩
      simp [rebuildMembers, rebuilt, except_ok_bind, pure, Except.pure]
  | none =>
      cases comma : afterLiteral [ord ','] (skipBlank afterValue) with
      | none =>
          simp only [closed, comma] at continuation
          cases continuation
      | some tail =>
          simp only [closed, comma] at continuation
          obtain ⟨⟨others, after⟩, more, result⟩ := except_bind_ok continuation
          cases result
          obtain ⟨raws, shown', split, derived', rebuilt'⟩ := members _ _ _ more
          obtain ⟨gap', gapValid', rfl⟩ := skipBlank_shape split
          obtain ⟨blank, blankValid, rfl⟩ := afterBlank_some comma
          refine ⟨(name, raw) :: raws, _, by simp [start], .member blank_nil
            denotes middleValid gapValid derived blankValid
            (derived'.members_blank gapValid'), ?_⟩
          simp [rebuildMembers, rebuilt, rebuilt', except_ok_bind, pure, Except.pure]

private theorem scan_sound (hook : List (Str × Json) → Except ε Json) (fuel : Nat) :
    (∀ text value rest, scanOnce hook fuel text = .ok (value, rest) →
      ValueRead hook text value rest) ∧
    (∀ text values rest, scanItems hook fuel text = .ok (values, rest) →
      ItemsRead hook text values rest) ∧
    (∀ text values rest, scanMembers hook fuel text = .ok (values, rest) →
      MembersRead hook text values rest) := by
  induction fuel with
  | zero => simp [scanOnce, scanItems, scanMembers]
  | succ fuel ih =>
      obtain ⟨once, items, members⟩ := ih
      exact ⟨fun _ _ _ => scanOnce_sound_step items members,
        fun _ _ _ => scanItems_sound_step once items,
        fun _ _ _ => scanMembers_sound_step once members⟩

theorem loads_sound {text : Str} {value : Json} (loaded : loads hook text = .ok value) :
    ∃ raw, Document raw text ∧ rebuild hook raw = .ok value := by
  unfold loads at loaded
  obtain ⟨⟨found, rest⟩, scanned, continuation⟩ := except_bind_ok loaded
  obtain ⟨raw, shown, shape, derived, rebuilt⟩ := (scan_sound hook _).1 _ _ _ scanned
  by_cases finished : skipBlank rest = []
  · simp only [finished, if_true] at continuation
    cases continuation
    obtain ⟨before, beforeValid, rfl⟩ := skipBlank_shape shape
    obtain ⟨after, afterValid, rfl⟩ := skipBlank_shape finished
    exact ⟨raw, ⟨before, shown, after, beforeValid, derived, afterValid, by simp⟩, rebuilt⟩
  · simp only [finished, if_false] at continuation
    cases continuation

/-! ## Completeness -/

theorem afterLiteral_eq_none {literal text : Str} (nonempty : literal ≠ [])
    (different : literal.head? ≠ text.head?) : afterLiteral literal text = none := by
  obtain ⟨code, tail, rfl⟩ := List.exists_cons_of_ne_nil nonempty
  cases text with
  | nil => rfl
  | cons head rest =>
      apply afterLiteral_cons_of_ne
      intro same
      exact different (by simp [same])

theorem stops_append {blank rest : Str} (blankValid : Blank blank) (stops : Stops rest) :
    Stops (blank ++ rest) := by
  cases blank with
  | nil => exact stops
  | cons code tail =>
      intro head member
      simp only [List.cons_append, List.head?_cons, Option.mem_def, Option.some.injEq] at member
      subst member
      have codeBlank := blankValid code List.mem_cons_self
      simp only [isBlank, Bool.or_eq_true, beq_iff_eq] at codeBlank
      rcases codeBlank with ((rfl | rfl) | rfl) | rfl <;> decide

theorem stops_cons {code : Nat} (closing : code = ord ']' ∨ code = ord '}' ∨ code = ord ',')
    (rest : Str) : Stops (code :: rest) := by
  intro head member
  simp only [List.head?_cons, Option.mem_def, Option.some.injEq] at member
  subst member
  rcases closing with rfl | rfl | rfl <;> decide

theorem stops_blank {blank : Str} (blankValid : Blank blank) : Stops blank := by
  have stops : Stops [] := by simp [Stops]
  simpa using stops_append blankValid stops

theorem NumberText.head_text {shown : NumberText} (valid : shown.Valid) (rest : Str) :
    ∃ code, (shown.text ++ rest).head? = some code ∧ (code = ord '-' ∨ isDigit code = true) := by
  obtain ⟨negative, integer, fraction, exponent⟩ := shown
  cases negative with
  | true => exact ⟨ord '-', by simp [NumberText.text], .inl rfl⟩
  | false =>
      obtain ⟨head, tail, rfl⟩ := List.exists_cons_of_ne_nil valid.nonempty
      exact ⟨head, by simp [NumberText.text], .inr (valid.integer head List.mem_cons_self)⟩

/-- The first code point of a value is visible and closes nothing. -/
theorem Derives.head {value : Json} {text : Str} (derived : Derives (.value value) text) :
    ∃ code tail, text = code :: tail ∧ isBlank code = false ∧ code ≠ ord ']' := by
  cases derived with
  | null => exact ⟨_, _, rfl, by decide, by decide⟩
  | trueText => exact ⟨_, _, rfl, by decide, by decide⟩
  | falseText => exact ⟨_, _, rfl, by decide, by decide⟩
  | nan => exact ⟨_, _, rfl, by decide, by decide⟩
  | infinity => exact ⟨_, _, rfl, by decide, by decide⟩
  | negInfinity => exact ⟨_, _, rfl, by decide, by decide⟩
  | @number shown valid =>
      obtain ⟨code, head, start⟩ := NumberText.head_text valid []
      rw [List.append_nil] at head
      obtain ⟨tail, shape⟩ := List.head?_eq_some_iff.mp head
      refine ⟨code, tail, shape, ?_⟩
      rcases start with rfl | digit
      · decide
      · simp only [isDigit, Bool.and_eq_true, decide_eq_true_eq] at digit
        constructor
        · simp only [isBlank, Bool.or_eq_false_iff, beq_eq_false_iff_ne, ne_eq, ord]
          simp
          omega
        · simp only [ord, ne_eq]
          simp
          omega
  | str denotes =>
      obtain ⟨pieces, -, rfl, -⟩ := denotes
      exact ⟨_, _, rfl, by decide, by decide⟩
  | emptyArray => exact ⟨_, _, rfl, by decide, by decide⟩
  | array => exact ⟨_, _, rfl, by decide, by decide⟩
  | emptyObject => exact ⟨_, _, rfl, by decide, by decide⟩
  | object => exact ⟨_, _, rfl, by decide, by decide⟩

theorem scanScalar_number {shown : NumberText} {rest : Str} (valid : shown.Valid)
    (stops : Stops rest) :
    scanScalar (ε := ε) (shown.text ++ rest) = .ok (.number shown.value, rest) := by
  obtain ⟨code, head, start⟩ := NumberText.head_text valid rest
  have other (letter : Char) (tail : Str) (letterValid : ord letter ≠ ord '-')
      (noDigit : isDigit (ord letter) = false) :
      afterLiteral (ord letter :: tail) (shown.text ++ rest) = none := by
    apply afterLiteral_eq_none (by simp)
    intro same
    rw [head, List.head?_cons, Option.some.injEq] at same
    rcases start with minus | digit
    · exact letterValid (same.trans minus)
    · rw [← same, noDigit] at digit
      cases digit
  have null : afterLiteral (lit "null") (shown.text ++ rest) = none :=
    other 'n' _ (by decide) (by decide)
  have trueNot : afterLiteral (lit "true") (shown.text ++ rest) = none :=
    other 't' _ (by decide) (by decide)
  have falseNot : afterLiteral (lit "false") (shown.text ++ rest) = none :=
    other 'f' _ (by decide) (by decide)
  simp only [scanScalar, null, trueNot, falseNot, scanNumber_complete valid stops]

/-- Scanning a derived text in any context it can stand in. -/
def Shape.Scans (hook : List (Str × Json) → Except ε Json) : Shape → Str → Prop
  | .value raw, text => ∀ value rest fuel, rebuild hook raw = .ok value → Stops rest →
      2 * (text.length + rest.length) < fuel →
      scanOnce hook fuel (text ++ rest) = .ok (value, rest)
  | .elements raws, text => ∀ values rest fuel, rebuildItems hook raws = .ok values →
      2 * (text.length + rest.length) + 3 < fuel →
      scanItems hook fuel (skipBlank (text ++ ord ']' :: rest)) = .ok (values, rest)
  | .members raws, text => ∀ members rest fuel, rebuildMembers hook raws = .ok members →
      2 * (text.length + rest.length) + 3 < fuel →
      scanMembers hook fuel (skipBlank (text ++ ord '}' :: rest)) = .ok (members, rest)

theorem scanOnce_scalar {code fuel : Nat} {tail : Str} (quote : code ≠ ord '"')
    (brace : code ≠ ord '{') (bracket : code ≠ ord '[') :
    scanOnce hook (fuel + 1) (code :: tail) = scanScalar (code :: tail) := by
  rw [scanOnce, if_neg quote, if_neg brace, if_neg bracket]

theorem scanOnce_number {shown : NumberText} {rest : Str} {fuel : Nat} (valid : shown.Valid)
    (stops : Stops rest) :
    scanOnce hook (fuel + 1) (shown.text ++ rest) = .ok (.number shown.value, rest) := by
  obtain ⟨code, head, start⟩ := NumberText.head_text valid rest
  obtain ⟨tail, shape⟩ := List.head?_eq_some_iff.mp head
  have plain (letter : Char) (letterValid : ord letter ≠ ord '-')
      (noDigit : isDigit (ord letter) = false) : code ≠ ord letter := by
    intro same
    subst same
    rcases start with minus | digit
    · exact letterValid minus
    · rw [noDigit] at digit
      cases digit
  rw [shape, scanOnce_scalar (plain '"' (by decide) (by decide))
    (plain '{' (by decide) (by decide)) (plain '[' (by decide) (by decide)), ← shape]
  exact scanScalar_number valid stops

theorem skipBlank_string {value text : Str} (denotes : StringText value text) (rest : Str) :
    skipBlank (text ++ rest) = text ++ rest := by
  obtain ⟨pieces, -, rfl, -⟩ := denotes
  exact skipBlank_cons (by decide) _

theorem scanItems_last {value : Json} {fuel : Nat} {text blank rest : Str}
    (read : scanOnce hook fuel text = .ok (value, blank ++ ord ']' :: rest))
    (blankValid : Blank blank) :
    scanItems hook (fuel + 1) text = .ok ([value], rest) := by
  rw [scanItems, read, except_ok_bind]
  dsimp only
  rw [skipBlank_append blankValid, skipBlank_cons (by decide), afterLiteral_cons]
  rfl

theorem scanItems_more {value : Json} {values : List Json} {fuel : Nat}
    {text blank middle rest : Str}
    (read : scanOnce hook fuel text = .ok (value, blank ++ ord ',' :: middle))
    (blankValid : Blank blank)
    (more : scanItems hook fuel (skipBlank middle) = .ok (values, rest)) :
    scanItems hook (fuel + 1) text = .ok (value :: values, rest) := by
  rw [scanItems, read, except_ok_bind]
  dsimp only
  rw [skipBlank_append blankValid, skipBlank_cons (by decide),
    afterLiteral_cons_of_ne (by decide), afterLiteral_cons]
  dsimp only
  rw [more]
  rfl

theorem scanMembers_start {name nameText middle gap text : Str} {code : Nat}
    (denotes : StringText name nameText) (middleValid : Blank middle) (gapValid : Blank gap)
    (visible : isBlank code = false) :
    ∃ inner afterName afterColon,
      nameText ++ (middle ++ ord ':' :: (gap ++ code :: text)) = ord '"' :: inner ∧
        scanString inner = some (name, afterName) ∧
        skipBlank afterName = ord ':' :: afterColon ∧ skipBlank afterColon = code :: text := by
  obtain ⟨inner, rfl, named⟩ := scanString_complete denotes
    (middle ++ ord ':' :: (gap ++ code :: text))
  refine ⟨_, _, gap ++ code :: text, rfl, named, ?_, ?_⟩
  · rw [skipBlank_append middleValid, skipBlank_cons (by decide)]
  · rw [skipBlank_append gapValid, skipBlank_cons visible]

theorem scanMembers_last {name nameText middle gap text blank rest : Str} {code fuel : Nat}
    {value : Json} (denotes : StringText name nameText) (middleValid : Blank middle)
    (gapValid : Blank gap) (visible : isBlank code = false)
    (read : scanOnce hook fuel (code :: text) = .ok (value, blank ++ ord '}' :: rest))
    (blankValid : Blank blank) :
    scanMembers hook (fuel + 1) (nameText ++ (middle ++ ord ':' :: (gap ++ code :: text))) =
      .ok ([(name, value)], rest) := by
  obtain ⟨inner, afterName, afterColon, shape, named, colon, start⟩ :=
    scanMembers_start denotes middleValid gapValid visible
  rw [shape, scanMembers, afterLiteral_cons]
  simp only [named, colon, afterLiteral_cons, start, read, except_ok_bind]
  rw [skipBlank_append blankValid, skipBlank_cons (by decide), afterLiteral_cons]
  rfl

theorem scanMembers_more {name nameText middle gap text blank next rest : Str} {code fuel : Nat}
    {value : Json} {members : List (Str × Json)} (denotes : StringText name nameText)
    (middleValid : Blank middle) (gapValid : Blank gap) (visible : isBlank code = false)
    (read : scanOnce hook fuel (code :: text) = .ok (value, blank ++ ord ',' :: next))
    (blankValid : Blank blank)
    (more : scanMembers hook fuel (skipBlank next) = .ok (members, rest)) :
    scanMembers hook (fuel + 1) (nameText ++ (middle ++ ord ':' :: (gap ++ code :: text))) =
      .ok ((name, value) :: members, rest) := by
  obtain ⟨inner, afterName, afterColon, shape, named, colon, start⟩ :=
    scanMembers_start denotes middleValid gapValid visible
  rw [shape, scanMembers, afterLiteral_cons]
  simp only [named, colon, afterLiteral_cons, start, read, except_ok_bind]
  rw [skipBlank_append blankValid, skipBlank_cons (by decide),
    afterLiteral_cons_of_ne (by decide), afterLiteral_cons]
  dsimp only
  rw [more]
  rfl

theorem Derives.elements_head {items : List Json} {text : Str}
    (derived : Derives (.elements items) text) (rest : Str) :
    ∃ code tail, skipBlank (text ++ rest) = code :: tail ∧ code ≠ ord ']' := by
  cases derived with
  | lastElement before value after =>
      obtain ⟨code, tail, rfl, visible, opens⟩ := value.head
      simp only [List.append_assoc, List.cons_append]
      rw [skipBlank_append before, skipBlank_cons visible]
      exact ⟨code, _, rfl, opens⟩
  | element before value after others =>
      obtain ⟨code, tail, rfl, visible, opens⟩ := value.head
      simp only [List.append_assoc, List.cons_append]
      rw [skipBlank_append before, skipBlank_cons visible]
      exact ⟨code, _, rfl, opens⟩

theorem Derives.members_head {members : List (Str × Json)} {text : Str}
    (derived : Derives (.members members) text) (rest : Str) :
    ∃ tail, skipBlank (text ++ rest) = ord '"' :: tail := by
  cases derived with
  | lastMember before name middle gap value after =>
      obtain ⟨pieces, -, rfl, -⟩ := name
      simp only [List.append_assoc, List.cons_append]
      rw [skipBlank_append before, skipBlank_cons (by decide)]
      exact ⟨_, rfl⟩
  | member before name middle gap value after others =>
      obtain ⟨pieces, -, rfl, -⟩ := name
      simp only [List.append_assoc, List.cons_append]
      rw [skipBlank_append before, skipBlank_cons (by decide)]
      exact ⟨_, rfl⟩

theorem Derives.scans {shape : Shape} {text : Str} (derived : Derives shape text) :
    shape.Scans hook text := by
  induction derived with
  | null | trueText | falseText | nan | infinity | negInfinity =>
      intro value rest fuel rebuilt _ enough
      cases rebuilt
      obtain ⟨fuel, rfl⟩ : ∃ n, fuel = n + 1 := ⟨fuel - 1, by omega⟩
      exact (scanOnce_scalar (by decide) (by decide) (by decide)).trans rfl
  | @number shown valid =>
      intro value rest fuel rebuilt stops enough
      cases rebuilt
      obtain ⟨fuel, rfl⟩ : ∃ n, fuel = n + 1 := ⟨fuel - 1, by omega⟩
      exact scanOnce_number valid stops
  | str denotes =>
      intro value rest fuel rebuilt _ enough
      cases rebuilt
      obtain ⟨fuel, rfl⟩ : ∃ n, fuel = n + 1 := ⟨fuel - 1, by omega⟩
      obtain ⟨inner, rfl, read⟩ := scanString_complete denotes rest
      rw [List.cons_append, scanOnce, if_pos rfl, read]
  | emptyArray blank =>
      intro value rest fuel rebuilt _ enough
      cases rebuilt
      obtain ⟨fuel, rfl⟩ : ∃ n, fuel = n + 1 := ⟨fuel - 1, by omega⟩
      simp only [List.cons_append, List.append_assoc, List.nil_append]
      rw [scanOnce, if_neg (by decide), if_neg (by decide), if_pos rfl, skipBlank_append blank,
        skipBlank_cons (by decide), afterLiteral_cons]
  | @array items text derived ih =>
      intro value rest fuel rebuilt _ enough
      obtain ⟨values, itemsRebuilt, made⟩ := except_bind_ok rebuilt
      cases made
      obtain ⟨fuel, rfl⟩ : ∃ n, fuel = n + 1 := ⟨fuel - 1, by omega⟩
      simp only [List.length_cons, List.length_append, List.length_nil] at enough
      obtain ⟨code, tail, start, opens⟩ := derived.elements_head (ord ']' :: rest)
      have read := ih values rest fuel itemsRebuilt (by omega)
      simp only [List.cons_append, List.append_assoc, List.nil_append]
      rw [scanOnce, if_neg (by decide), if_neg (by decide), if_pos rfl, start,
        afterLiteral_cons_of_ne (Ne.symm opens), ← start, read]
      rfl
  | emptyObject blank =>
      intro value rest fuel rebuilt _ enough
      obtain ⟨fuel, rfl⟩ : ∃ n, fuel = n + 1 := ⟨fuel - 1, by omega⟩
      have made : hook [] = .ok value := rebuilt
      simp only [List.cons_append, List.append_assoc, List.nil_append]
      rw [scanOnce, if_neg (by decide), if_pos rfl, skipBlank_append blank,
        skipBlank_cons (by decide), afterLiteral_cons]
      simp only [runHook, made, Except.mapError, except_ok_bind]
      rfl
  | @object members text derived ih =>
      intro value rest fuel rebuilt _ enough
      obtain ⟨values, membersRebuilt, made⟩ := except_bind_ok rebuilt
      obtain ⟨fuel, rfl⟩ : ∃ n, fuel = n + 1 := ⟨fuel - 1, by omega⟩
      simp only [List.length_cons, List.length_append, List.length_nil] at enough
      obtain ⟨tail, start⟩ := derived.members_head (ord '}' :: rest)
      have read := ih values rest fuel membersRebuilt (by omega)
      simp only [List.cons_append, List.append_assoc, List.nil_append]
      rw [scanOnce, if_neg (by decide), if_pos rfl, start,
        afterLiteral_cons_of_ne (by decide), ← start, read]
      simp only [except_ok_bind, runHook, made, Except.mapError]
      rfl
  | @lastElement value before text after beforeValid derived afterValid ih =>
      intro values rest fuel rebuilt enough
      obtain ⟨single, valueRebuilt, made⟩ := except_bind_ok rebuilt
      cases made
      obtain ⟨fuel, rfl⟩ : ∃ n, fuel = n + 1 := ⟨fuel - 1, by omega⟩
      simp only [List.length_append] at enough
      obtain ⟨code, tail, rfl, visible, -⟩ := derived.head
      have read := ih single (after ++ ord ']' :: rest) fuel valueRebuilt
        (stops_append afterValid (stops_cons (.inl rfl) rest))
        (by simp only [List.length_append, List.length_cons] at enough ⊢; omega)
      simp only [List.append_assoc, List.cons_append] at read ⊢
      rw [skipBlank_append beforeValid, skipBlank_cons visible]
      exact scanItems_last read afterValid
  | @element value items before text after others beforeValid derived afterValid _ ih itemsIH =>
      intro values rest fuel rebuilt enough
      obtain ⟨single, valueRebuilt, continuation⟩ := except_bind_ok rebuilt
      obtain ⟨more, othersRebuilt, made⟩ := except_bind_ok continuation
      cases made
      obtain ⟨fuel, rfl⟩ : ∃ n, fuel = n + 1 := ⟨fuel - 1, by omega⟩
      obtain ⟨code, tail, rfl, visible, -⟩ := derived.head
      simp only [List.length_append, List.length_cons] at enough
      have read := ih single (after ++ ord ',' :: (others ++ ord ']' :: rest)) fuel valueRebuilt
        (stops_append afterValid (stops_cons (.inr (.inr rfl)) _))
        (by simp only [List.length_append, List.length_cons]; omega)
      have readMore := itemsIH more rest fuel othersRebuilt (by omega)
      simp only [List.append_assoc, List.cons_append] at read ⊢
      rw [skipBlank_append beforeValid, skipBlank_cons visible]
      exact scanItems_more read afterValid readMore
  | @lastMember name value before nameText middle gap text after beforeValid denotes middleValid
      gapValid derived afterValid ih =>
      intro members rest fuel rebuilt enough
      obtain ⟨single, valueRebuilt, made⟩ := except_bind_ok rebuilt
      cases made
      obtain ⟨fuel, rfl⟩ : ∃ n, fuel = n + 1 := ⟨fuel - 1, by omega⟩
      obtain ⟨code, tail, rfl, visible, -⟩ := derived.head
      simp only [List.length_append, List.length_cons] at enough
      have read := ih single (after ++ ord '}' :: rest) fuel valueRebuilt
        (stops_append afterValid (stops_cons (.inr (.inl rfl)) rest))
        (by simp only [List.length_append, List.length_cons]; omega)
      simp only [List.append_assoc, List.cons_append] at read ⊢
      rw [skipBlank_append beforeValid, skipBlank_string denotes]
      exact scanMembers_last denotes middleValid gapValid visible read afterValid
  | @member name value members before nameText middle gap text after others beforeValid denotes
      middleValid gapValid derived afterValid _ ih membersIH =>
      intro members rest fuel rebuilt enough
      obtain ⟨single, valueRebuilt, continuation⟩ := except_bind_ok rebuilt
      obtain ⟨more, othersRebuilt, made⟩ := except_bind_ok continuation
      cases made
      obtain ⟨fuel, rfl⟩ : ∃ n, fuel = n + 1 := ⟨fuel - 1, by omega⟩
      obtain ⟨code, tail, rfl, visible, -⟩ := derived.head
      simp only [List.length_append, List.length_cons] at enough
      have read := ih single (after ++ ord ',' :: (others ++ ord '}' :: rest)) fuel valueRebuilt
        (stops_append afterValid (stops_cons (.inr (.inr rfl)) _))
        (by simp only [List.length_append, List.length_cons]; omega)
      have readMore := membersIH more rest fuel othersRebuilt (by omega)
      simp only [List.append_assoc, List.cons_append] at read ⊢
      rw [skipBlank_append beforeValid, skipBlank_string denotes]
      exact scanMembers_more denotes middleValid gapValid visible read afterValid readMore

theorem loads_complete {text : Str} {raw value : Json} (document : Document raw text)
    (rebuilt : rebuild hook raw = .ok value) : loads hook text = .ok value := by
  obtain ⟨before, inner, after, beforeValid, derived, afterValid, rfl⟩ := document
  obtain ⟨code, tail, rfl, visible, -⟩ := derived.head
  have scans : (Shape.value raw).Scans hook (code :: tail) := derived.scans
  have read := scans value after (2 * (before ++ code :: tail ++ after).length + 1) rebuilt
    (stops_blank afterValid)
    (by simp only [List.length_append, List.length_cons]; omega)
  rw [loads, List.append_assoc, skipBlank_append beforeValid, List.cons_append,
    skipBlank_cons visible, ← List.cons_append, ← List.append_assoc, read, except_ok_bind]
  simp only [skipBlank_eq_nil afterValid, if_true]
  rfl

/-- `json.loads` accepts a text exactly when it is a document whose objects the
hook accepts. -/
theorem loads_ok_iff {text : Str} {value : Json} :
    loads hook text = .ok value ↔ ∃ raw, Document raw text ∧ rebuild hook raw = .ok value := by
  constructor
  · exact loads_sound
  · intro given
    obtain ⟨raw, document, rebuilt⟩ := given
    exact loads_complete document rebuilt

/-! ## Hooks that keep the members -/

mutual

theorem rebuild_keep (keeps : ∀ members, hook members = .ok (.object members)) :
    ∀ value : Json, rebuild hook value = .ok value
  | .null | .bool _ | .number _ | .str _ => rfl
  | .array items => by
      rw [rebuild, rebuildItems_keep keeps items]
      rfl
  | .object members => by
      rw [rebuild, rebuildMembers_keep keeps members]
      exact keeps members

theorem rebuildItems_keep (keeps : ∀ members, hook members = .ok (.object members)) :
    ∀ items : List Json, rebuildItems hook items = .ok items
  | [] => rfl
  | item :: rest => by
      rw [rebuildItems, rebuild_keep keeps item, rebuildItems_keep keeps rest]
      rfl

theorem rebuildMembers_keep (keeps : ∀ members, hook members = .ok (.object members)) :
    ∀ members : List (Str × Json), rebuildMembers hook members = .ok members
  | [] => rfl
  | (name, value) :: rest => by
      rw [rebuildMembers, rebuild_keep keeps value, rebuildMembers_keep keeps rest]
      rfl

end

theorem Document.unique {left right : Json} {text : Str} (leftDocument : Document left text)
    (rightDocument : Document right text) : left = right := by
  let keep : List (Str × Json) → Except Unit Json := fun members => .ok (.object members)
  have keeps : ∀ members, keep members = .ok (.object members) := fun _ => rfl
  have leftLoads := loads_complete leftDocument (rebuild_keep keeps left)
  have rightLoads := loads_complete rightDocument (rebuild_keep keeps right)
  rw [leftLoads] at rightLoads
  cases rightLoads
  rfl

/-- A hook that keeps the members of an object without repeated names, and
refuses every other object. -/
def RefusesDuplicates (hook : List (Str × Json) → Except ε Json) : Prop :=
  ∀ members value, hook members = .ok value ↔
    (members.map Prod.fst).Nodup ∧ value = .object members

mutual

theorem rebuild_refusing (refuses : RefusesDuplicates hook) :
    ∀ raw value : Json, rebuild hook raw = .ok value ↔ raw.distinctNames = true ∧ value = raw
  | .null, _ | .bool _, _ | .number _, _ | .str _, _ => by
      simp [rebuild, distinctNames, eq_comm]
  | .array items, value => by
      rw [rebuild, distinctNames]
      constructor
      · intro rebuilt
        obtain ⟨values, itemsRebuilt, made⟩ := except_bind_ok rebuilt
        obtain ⟨distinct, rfl⟩ := (rebuildItems_refusing refuses items values).mp itemsRebuilt
        cases made
        exact ⟨distinct, rfl⟩
      · intro given
        obtain ⟨distinct, rfl⟩ := given
        rw [(rebuildItems_refusing refuses items items).mpr ⟨distinct, rfl⟩]
        rfl
  | .object members, value => by
      rw [rebuild, distinctNames, Bool.and_eq_true, decide_eq_true_eq]
      constructor
      · intro rebuilt
        obtain ⟨values, membersRebuilt, made⟩ := except_bind_ok rebuilt
        obtain ⟨distinct, rfl⟩ :=
          (rebuildMembers_refusing refuses members values).mp membersRebuilt
        obtain ⟨names, rfl⟩ := (refuses _ _).mp made
        exact ⟨⟨names, distinct⟩, rfl⟩
      · intro given
        obtain ⟨⟨names, distinct⟩, rfl⟩ := given
        rw [(rebuildMembers_refusing refuses members members).mpr ⟨distinct, rfl⟩]
        exact (refuses _ _).mpr ⟨names, rfl⟩

theorem rebuildItems_refusing (refuses : RefusesDuplicates hook) :
    ∀ raws values : List Json,
      rebuildItems hook raws = .ok values ↔ distinctItems raws = true ∧ values = raws
  | [], values => by simp [rebuildItems, distinctItems, eq_comm]
  | raw :: rest, values => by
      rw [rebuildItems, distinctItems, Bool.and_eq_true]
      constructor
      · intro rebuilt
        obtain ⟨head, headRebuilt, continuation⟩ := except_bind_ok rebuilt
        obtain ⟨tail, tailRebuilt, made⟩ := except_bind_ok continuation
        obtain ⟨headDistinct, rfl⟩ := (rebuild_refusing refuses raw head).mp headRebuilt
        obtain ⟨tailDistinct, rfl⟩ := (rebuildItems_refusing refuses rest tail).mp tailRebuilt
        cases made
        exact ⟨⟨headDistinct, tailDistinct⟩, rfl⟩
      · intro given
        obtain ⟨⟨headDistinct, tailDistinct⟩, rfl⟩ := given
        rw [(rebuild_refusing refuses raw raw).mpr ⟨headDistinct, rfl⟩,
          (rebuildItems_refusing refuses rest rest).mpr ⟨tailDistinct, rfl⟩]
        rfl

theorem rebuildMembers_refusing (refuses : RefusesDuplicates hook) :
    ∀ raws values : List (Str × Json),
      rebuildMembers hook raws = .ok values ↔ distinctMembers raws = true ∧ values = raws
  | [], values => by simp [rebuildMembers, distinctMembers, eq_comm]
  | (name, raw) :: rest, values => by
      rw [rebuildMembers, distinctMembers, Bool.and_eq_true]
      constructor
      · intro rebuilt
        obtain ⟨head, headRebuilt, continuation⟩ := except_bind_ok rebuilt
        obtain ⟨tail, tailRebuilt, made⟩ := except_bind_ok continuation
        obtain ⟨headDistinct, rfl⟩ := (rebuild_refusing refuses raw head).mp headRebuilt
        obtain ⟨tailDistinct, rfl⟩ := (rebuildMembers_refusing refuses rest tail).mp tailRebuilt
        cases made
        exact ⟨⟨headDistinct, tailDistinct⟩, rfl⟩
      · intro given
        obtain ⟨⟨headDistinct, tailDistinct⟩, rfl⟩ := given
        rw [(rebuild_refusing refuses raw raw).mpr ⟨headDistinct, rfl⟩,
          (rebuildMembers_refusing refuses rest rest).mpr ⟨tailDistinct, rfl⟩]
        rfl

end

/-- With such a hook, `loads` returns the derived value of the documents that
repeat no name at any depth. -/
theorem loads_refusing_iff (refuses : RefusesDuplicates hook) {text : Str} {value : Json} :
    loads hook text = .ok value ↔ Document value text ∧ value.distinctNames = true := by
  rw [loads_ok_iff]
  constructor
  · intro given
    obtain ⟨raw, document, rebuilt⟩ := given
    obtain ⟨distinct, rfl⟩ := (rebuild_refusing refuses raw value).mp rebuilt
    exact ⟨document, distinct⟩
  · intro given
    obtain ⟨document, distinct⟩ := given
    exact ⟨value, document, (rebuild_refusing refuses value value).mpr ⟨distinct, rfl⟩⟩

end VllmVerifier.Json
