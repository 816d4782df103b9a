import VllmVerifier.Json.LexicalProperties

/-!
Which code points a JSON text can contain. Outside its strings a text is
written in a fixed alphabet, so any other code point of the text is a brace of
an object or belongs to a string that the value carries.
-/

set_option autoImplicit false

namespace VllmVerifier.Json

open Python

/-- The code points written outside plain string content, braces excepted. -/
def structural : Str :=
  lit " \t\n\r0123456789+-.eEnultrfasNIiy[],:\"\\/bcdABCDF"

mutual

/-- The value has an object and the code is a brace, or a string carries it. -/
def shows (code : Nat) : Json → Bool
  | .null | .bool _ | .number _ => false
  | .str text => decide (code ∈ text)
  | .array items => showsItems code items
  | .object members =>
      code == ord '{' || code == ord '}' || showsMembers code members

def showsItems (code : Nat) : List Json → Bool
  | [] => false
  | item :: rest => shows code item || showsItems code rest

def showsMembers (code : Nat) : List (Str × Json) → Bool
  | [] => false
  | (name, value) :: rest => decide (code ∈ name) || shows code value || showsMembers code rest

end

def Shape.shows (code : Nat) : Shape → Bool
  | .value shown => Json.shows code shown
  | .elements items => showsItems code items
  | .members shown => showsMembers code shown

/-! ## Lexical parts -/

theorem structural_of_isBlank {code : Nat} (blank : isBlank code = true) : code ∈ structural := by
  simp only [isBlank, Bool.or_eq_true, beq_iff_eq] at blank
  rcases blank with ((rfl | rfl) | rfl) | rfl <;> decide

theorem structural_of_isDigit {code : Nat} (digit : isDigit code = true) :
    code ∈ structural := by
  simp only [isDigit, Bool.and_eq_true, decide_eq_true_eq] at digit
  have inside : ∀ offset : Fin 10, 0x30 + offset.val ∈ structural := by decide
  have shifted := inside ⟨code - 0x30, by omega⟩
  rwa [show 0x30 + (code - 0x30) = code by omega] at shifted

theorem structural_of_isHex {code : Nat} (hex : isHex code = true) : code ∈ structural := by
  simp only [isHex, Bool.or_eq_true, Bool.and_eq_true, decide_eq_true_eq] at hex
  have upper : ∀ offset : Fin 6, 0x41 + offset.val ∈ structural := by decide
  have lower : ∀ offset : Fin 6, 0x61 + offset.val ∈ structural := by decide
  rcases hex with (digit | high) | low
  · exact structural_of_isDigit digit
  · have shifted := upper ⟨code - 0x41, by omega⟩
    rwa [show 0x41 + (code - 0x41) = code by omega] at shifted
  · have shifted := lower ⟨code - 0x61, by omega⟩
    rwa [show 0x61 + (code - 0x61) = code by omega] at shifted

theorem ExponentText.structural_of_mem {shown : ExponentText} (valid : shown.Valid) {code : Nat}
    (member : code ∈ shown.text) : code ∈ structural := by
  simp only [ExponentText.text, List.mem_append, List.mem_cons] at member
  rcases member with (rfl | signed) | digit
  · rcases valid.marker with marker | marker <;> rw [marker] <;> decide
  · rcases valid.sign with sign | sign | sign <;> rw [sign] at signed
    · cases signed
    · rw [List.mem_singleton.mp signed]
      decide
    · rw [List.mem_singleton.mp signed]
      decide
  · exact structural_of_isDigit (valid.digits code digit)

theorem NumberText.structural_of_mem {shown : NumberText} (valid : shown.Valid) {code : Nat}
    (member : code ∈ shown.text) : code ∈ structural := by
  simp only [NumberText.text, List.mem_append] at member
  rcases member with ((signed | digit) | fraction) | exponent
  · split at signed
    · rw [List.mem_singleton.mp signed]
      decide
    · cases signed
  · exact structural_of_isDigit (valid.integer code digit)
  · cases written : shown.fraction with
    | none => simp [written, fractionText] at fraction
    | some digits =>
        simp only [written, fractionText, List.mem_cons] at fraction
        rcases fraction with rfl | digit
        · decide
        · exact structural_of_isDigit ((valid.fraction digits written).2 code digit)
  · cases written : shown.exponent with
    | none => simp [written, exponentText] at exponent
    | some power =>
        simp only [written, exponentText] at exponent
        exact ExponentText.structural_of_mem (valid.exponent power written) exponent

/-- A foreign code in the text of a piece is the piece. -/
theorem Piece.eq_plain_of_mem {piece : Piece} (valid : piece.Valid) {code : Nat}
    (member : code ∈ piece.text) (foreign : code ∉ structural) : piece = .plain code := by
  cases piece with
  | plain shown => rw [List.mem_singleton.mp member]
  | short letter =>
      have letters : ∀ shown ∈ shortLetters, shown ∈ structural := by decide
      simp only [Piece.text, List.mem_cons, List.not_mem_nil, or_false] at member
      rcases member with rfl | rfl
      · exact absurd (by decide) foreign
      · exact absurd (letters _ valid) foreign
  | unicode first second third fourth =>
      obtain ⟨firstHex, secondHex, thirdHex, fourthHex⟩ := valid
      simp only [Piece.text, List.mem_cons, List.not_mem_nil, or_false] at member
      rcases member with rfl | rfl | rfl | rfl | rfl | rfl
      · exact absurd (by decide) foreign
      · exact absurd (by decide) foreign
      · exact absurd (structural_of_isHex firstHex) foreign
      · exact absurd (structural_of_isHex secondHex) foreign
      · exact absurd (structural_of_isHex thirdHex) foreign
      · exact absurd (structural_of_isHex fourthHex) foreign

/-- Joining surrogates never consumes a plain piece. -/
theorem mem_decodePieces_of_plain {code : Nat} {pieces : List Piece}
    (member : Piece.plain code ∈ pieces) : code ∈ decodePieces pieces := by
  fun_induction decodePieces pieces with
  | case1 => cases member
  | case2 piece =>
      rw [← List.mem_singleton.mp member]
      exact List.mem_singleton.mpr rfl
  | case3 piece next rest joined ih =>
      rcases List.mem_cons.mp member with rfl | member
      · simp [joins] at joined
      rcases List.mem_cons.mp member with rfl | member
      · cases piece <;> simp [joins] at joined
      · exact List.mem_cons_of_mem _ (ih member)
  | case4 piece next rest joined ih =>
      rcases List.mem_cons.mp member with rfl | member
      · exact List.mem_cons_self
      · exact List.mem_cons_of_mem _ (ih member)

theorem StringText.mem_of_mem {value text : Str} (denotes : StringText value text) {code : Nat}
    (member : code ∈ text) (foreign : code ∉ structural) : code ∈ value := by
  obtain ⟨pieces, valid, rfl, rfl⟩ := denotes
  have quote : ord '"' ∈ structural := by decide
  simp only [List.mem_append, List.mem_cons, List.mem_flatMap, List.not_mem_nil, or_false]
    at member
  rcases member with (rfl | ⟨piece, among, written⟩) | rfl
  · exact absurd quote foreign
  · have plain := Piece.eq_plain_of_mem (valid piece among) written foreign
    exact mem_decodePieces_of_plain (plain ▸ among)
  · exact absurd quote foreign

/-! ## Derivations -/

theorem Blank.not_mem {blank : Str} (valid : Blank blank) {code : Nat}
    (foreign : code ∉ structural) : code ∉ blank :=
  fun member => foreign (structural_of_isBlank (valid code member))

private theorem foreign_ne {code : Nat} (known : Nat) (foreign : code ∉ structural)
    (structuralKnown : known ∈ structural) : code ≠ known :=
  fun same => foreign (same ▸ structuralKnown)

/-- A code point of a derived text that the alphabet lacks is shown by what the
text denotes. -/
theorem Derives.shows_of_mem {shape : Shape} {text : Str} (derived : Derives shape text)
    {code : Nat} (member : code ∈ text) (foreign : code ∉ structural) :
    shape.shows code = true := by
  have literal : ∀ known : Str, (∀ shown ∈ known, shown ∈ structural) → code ∉ known :=
    fun known covered present => foreign (covered code present)
  have comma := foreign_ne (ord ',') foreign (by decide)
  have colon := foreign_ne (ord ':') foreign (by decide)
  have opening := foreign_ne (ord '[') foreign (by decide)
  have closing := foreign_ne (ord ']') foreign (by decide)
  induction derived with
  | null => exact absurd member (literal _ (by decide))
  | trueText => exact absurd member (literal _ (by decide))
  | falseText => exact absurd member (literal _ (by decide))
  | number valid => exact absurd (NumberText.structural_of_mem valid member) foreign
  | nan => exact absurd member (literal _ (by decide))
  | infinity => exact absurd member (literal _ (by decide))
  | negInfinity => exact absurd member (literal _ (by decide))
  | str denotes => exact decide_eq_true (denotes.mem_of_mem member foreign)
  | emptyArray blank =>
      have absent := blank.not_mem foreign
      simp [absent, opening, closing] at member
  | array _ ih =>
      simp only [List.mem_append, List.mem_cons, opening, closing, false_or, List.not_mem_nil,
        or_false] at member
      exact ih member
  | emptyObject blank =>
      have absent := blank.not_mem foreign
      simp only [List.mem_append, List.mem_cons, absent, List.not_mem_nil, or_false] at member
      simpa [Shape.shows, Json.shows, showsMembers] using member
  | object _ ih =>
      simp only [List.mem_append, List.mem_cons, List.not_mem_nil, or_false] at member
      simp only [Shape.shows, Json.shows, Bool.or_eq_true, beq_iff_eq]
      rcases member with (opened | inside) | closed
      · exact .inl (.inl opened)
      · exact .inr (ih inside)
      · exact .inl (.inr closed)
  | lastElement before _ after ih =>
      have absent := before.not_mem foreign
      have absentAfter := after.not_mem foreign
      simp only [List.mem_append, absent, absentAfter, false_or, or_false] at member
      simpa [Shape.shows, showsItems] using ih member
  | element before _ after _ ih ihRest =>
      have absent := before.not_mem foreign
      have absentAfter := after.not_mem foreign
      simp only [List.mem_append, List.mem_cons, absent, absentAfter, comma, false_or, or_false]
        at member
      simp only [Shape.shows, showsItems, Bool.or_eq_true]
      exact member.imp (fun inside => ih inside) (fun inside => ihRest inside)
  | lastMember before name middle gap _ after ih =>
      have absent := before.not_mem foreign
      have absentMiddle := middle.not_mem foreign
      have absentGap := gap.not_mem foreign
      have absentAfter := after.not_mem foreign
      simp only [List.mem_append, List.mem_cons, absent, absentMiddle, absentGap, absentAfter,
        colon, false_or, or_false] at member
      simp only [Shape.shows, showsMembers, Bool.or_eq_true, decide_eq_true_eq, Bool.or_false]
      exact member.imp (fun inside => name.mem_of_mem inside foreign) (fun inside => ih inside)
  | member before name middle gap _ after _ ih ihRest =>
      have absent := before.not_mem foreign
      have absentMiddle := middle.not_mem foreign
      have absentGap := gap.not_mem foreign
      have absentAfter := after.not_mem foreign
      simp only [List.mem_append, List.mem_cons, absent, absentMiddle, absentGap, absentAfter,
        colon, comma, false_or, or_false] at member
      simp only [Shape.shows, showsMembers, Bool.or_eq_true, decide_eq_true_eq]
      exact member.imp
        (Or.imp (fun inside => name.mem_of_mem inside foreign) (fun inside => ih inside))
        (fun inside => ihRest inside)

theorem Derives.object_inv {members : List (Str × Json)} {text : Str}
    (derived : Derives (.value (.object members)) text) (nonempty : members ≠ []) :
    ∃ inner, text = ord '{' :: inner ++ [ord '}'] ∧ Derives (.members members) inner := by
  cases derived with
  | emptyObject => exact absurd rfl nonempty
  | object inside => exact ⟨_, rfl, inside⟩

end VllmVerifier.Json
