import Mathlib.Data.List.Basic
import VllmVerifier.Python.Result
import VllmVerifier.Python.Str

/-!
`base64.b64decode(text, validate=True)` and `base64.b64encode`. A text is accepted
exactly when it is digits that its padding closes; after whole groups of four
digits any padding is accepted, as in Python 3.11, where some later releases refuse it.
-/

set_option autoImplicit false

namespace VllmVerifier.Python.Base64

def ALPHABET : Str := lit "ABCDEFGHIJKLMNOPQRSTUVWXYZabcdefghijklmnopqrstuvwxyz0123456789+/"

def PAD : Nat := ord '='

def digit? (code : Nat) : Option Nat := ALPHABET.idxOf? code

/-- The loop of `binascii.a2b_base64` in strict mode: `position` counts the digits
of the group, `left` holds the bits that wait for the next one. -/
def scan (position left pads : Nat) (padded : Bool) : Str → Except String (List Nat)
  | [] =>
      if position = 0 then .ok []
      else if position = 1 then .error "Invalid base64-encoded string"
      else .error "Incorrect padding"
  | code :: rest =>
      if code = PAD then
        if 2 ≤ position ∧ 4 ≤ position + (pads + 1) then
          if rest = [] then .ok [] else .error "Excess data after padding"
        else scan position left (if 2 ≤ position then pads + 1 else pads) true rest
      else
        match digit? code with
        | none => .error "Only base64 data is allowed"
        | some digit =>
            if padded then .error "Discontinuous padding not allowed"
            else
              match position with
              | 0 => scan 1 digit 0 false rest
              | 1 => (scan 2 (digit % 16) 0 false rest).map ((left * 4 + digit / 16) :: ·)
              | 2 => (scan 3 (digit % 4) 0 false rest).map ((left * 16 + digit / 4) :: ·)
              | _ => (scan 0 0 0 false rest).map ((left * 64 + digit) :: ·)

def b64decode (text : Str) : Except String (List Nat) :=
  if text.any fun code => decide (128 ≤ code) then
    .error "string argument should contain only ASCII characters"
  else if text.head? = some PAD then .error "Leading padding not allowed"
  else scan 0 0 0 false text

def symbol (digit : Nat) : Nat := ALPHABET.getD digit 0

def b64encode : List Nat → Str
  | [] => []
  | [first] => [symbol (first / 4), symbol (first % 4 * 16), PAD, PAD]
  | [first, second] =>
      [symbol (first / 4), symbol (first % 4 * 16 + second / 16), symbol (second % 16 * 4), PAD]
  | first :: second :: third :: rest =>
      symbol (first / 4) :: symbol (first % 4 * 16 + second / 16) ::
        symbol (second % 16 * 4 + third / 64) :: symbol (third % 64) :: b64encode rest

/-! ## What is accepted -/

/-- Digits that some padding follows. -/
def Closed (digits pads : Nat) : Prop :=
  digits % 4 = 0 ∨ digits % 4 = 2 ∧ pads = 2 ∨ digits % 4 = 3 ∧ pads = 1

/-- `data` is digits only, and the padding after it closes the last group. -/
structure Shape (text data : Str) (pads : Nat) : Prop where
  split : text = data ++ List.replicate pads PAD
  digits : ∀ code ∈ data, code ∈ ALPHABET
  closed : Closed data.length pads
  started : data = [] → pads = 0

theorem digit?_isSome {code : Nat} : (∃ digit, digit? code = some digit) ↔ code ∈ ALPHABET := by
  rw [← Option.isSome_iff_exists, digit?, List.isSome_idxOf?]

theorem pad_no_digit : PAD ∉ ALPHABET := by decide

/-- After the first pad only pads can follow, as many as the group is short of. -/
theorem scan_padding {position left : Nat} (text : Str) : ∀ {pads : Nat},
    (2 ≤ position → position + pads < 4) →
    ((∃ bytes, scan position left pads true text = .ok bytes) ↔
      ∃ more, text = List.replicate more PAD ∧
        (position = 0 ∨ 2 ≤ position ∧ position + pads + more = 4)) := by
  induction text with
  | nil =>
      intro pads room
      rw [scan]
      constructor
      · intro accepted
        split_ifs at accepted with zero one
        · exact ⟨0, rfl, .inl zero⟩
        all_goals simp at accepted
      · intro given
        obtain ⟨more, shape, closed⟩ := given
        cases more with
        | zero =>
            have zero : position = 0 := by omega
            exact ⟨[], if_pos zero⟩
        | succ more => cases shape
  | cons code rest ih =>
      intro pads room
      rw [scan]
      by_cases pad : code = PAD
      · subst pad
        rw [if_pos rfl]
        by_cases last : 2 ≤ position ∧ 4 ≤ position + (pads + 1)
        · rw [if_pos last]
          constructor
          · intro accepted
            split_ifs at accepted with ends
            · exact ⟨1, by rw [ends]; rfl, .inr (by omega)⟩
            · simp at accepted
          · intro given
            obtain ⟨more, shape, closed⟩ := given
            have ends : rest = [] := by
              obtain rfl : more = 1 := by omega
              exact (List.cons.inj shape).2
            exact ⟨[], if_pos ends⟩
        · rw [if_neg last, ih (by split_ifs <;> omega)]
          constructor
          · intro given
            obtain ⟨more, rfl, closed⟩ := given
            refine ⟨more + 1, rfl, ?_⟩
            split_ifs at closed <;> omega
          · intro given
            obtain ⟨more, shape, closed⟩ := given
            cases more with
            | zero => cases shape
            | succ more =>
                refine ⟨more, (List.cons.inj shape).2, ?_⟩
                split_ifs <;> omega
      · rw [if_neg pad]
        refine iff_of_false (fun accepted => ?_) fun given => ?_
        · cases found : digit? code <;> simp [found] at accepted
        · obtain ⟨more, shape, _⟩ := given
          cases more with
          | zero => cases shape
          | succ more => exact pad (List.cons.inj shape).1

theorem padding_starts {rest : Str} {position : Nat} :
    (∃ data pads, PAD :: rest = data ++ List.replicate pads PAD ∧ (∀ code ∈ data, code ∈ ALPHABET) ∧
      Closed (position + data.length) pads) ↔
      ∃ more, rest = List.replicate more PAD ∧ Closed position (more + 1) := by
  constructor
  · intro given
    obtain ⟨data, pads, shape, digits, closed⟩ := given
    cases data with
    | nil =>
        cases pads with
        | zero => cases shape
        | succ more => exact ⟨more, (List.cons.inj shape).2, closed⟩
    | cons code data =>
        have first := (List.cons.inj shape).1
        exact absurd (first ▸ digits code List.mem_cons_self) pad_no_digit
  · intro given
    obtain ⟨more, rfl, closed⟩ := given
    exact ⟨[], more + 1, rfl, by simp, closed⟩

theorem digit_starts {code : Nat} {rest : Str} {position : Nat} (digit : code ∈ ALPHABET) :
    (∃ data pads, code :: rest = data ++ List.replicate pads PAD ∧
      (∀ code ∈ data, code ∈ ALPHABET) ∧ Closed (position + data.length) pads) ↔
      ∃ data pads, rest = data ++ List.replicate pads PAD ∧ (∀ code ∈ data, code ∈ ALPHABET) ∧
        Closed (position + 1 + data.length) pads := by
  constructor
  · intro given
    obtain ⟨data, pads, shape, digits, closed⟩ := given
    cases data with
    | nil =>
        cases pads with
        | zero => cases shape
        | succ more =>
            have first := (List.cons.inj shape).1
            exact absurd (first ▸ digit) pad_no_digit
    | cons other data =>
        refine ⟨data, pads, (List.cons.inj shape).2, (List.forall_mem_cons.mp digits).2, ?_⟩
        rwa [Nat.add_right_comm]
  · intro given
    obtain ⟨data, pads, rfl, digits, closed⟩ := given
    refine ⟨code :: data, pads, rfl, List.forall_mem_cons.mpr ⟨digit, digits⟩, ?_⟩
    rwa [List.length_cons, ← Nat.add_assoc, Nat.add_right_comm]

theorem map_accepts {source : Except String (List Nat)} {byte : Nat} :
    (∃ bytes, source.map (byte :: ·) = .ok bytes) ↔ ∃ bytes, source = .ok bytes := by
  cases source <;> simp [Except.map]

/-- Before any padding: digits, and then padding that closes the group. -/
theorem scan_accepts (text : Str) : ∀ {position left : Nat}, position < 4 →
    ((∃ bytes, scan position left 0 false text = .ok bytes) ↔
      ∃ data pads, text = data ++ List.replicate pads PAD ∧ (∀ code ∈ data, code ∈ ALPHABET) ∧
        Closed (position + data.length) pads) := by
  induction text with
  | nil =>
      intro position left small
      rw [scan]
      constructor
      · intro accepted
        split_ifs at accepted with zero one
        · exact ⟨[], 0, rfl, by simp, .inl (by simp [zero])⟩
        all_goals simp at accepted
      · intro given
        obtain ⟨data, pads, shape, _, closed⟩ := given
        obtain ⟨rfl, none⟩ := List.append_eq_nil_iff.mp shape.symm
        obtain rfl : pads = 0 := by simpa using none
        have zero : position = 0 := by
          unfold Closed at closed
          simp only [List.length_nil] at closed
          omega
        exact ⟨[], if_pos zero⟩
  | cons code rest ih =>
      intro position left small
      rw [scan]
      by_cases pad : code = PAD
      · subst pad
        rw [if_pos rfl, padding_starts]
        by_cases last : 2 ≤ position ∧ 4 ≤ position + (0 + 1)
        · rw [if_pos last]
          obtain rfl : position = 3 := by omega
          constructor
          · intro accepted
            split_ifs at accepted with ends
            · exact ⟨0, ends, .inr (.inr ⟨rfl, rfl⟩)⟩
            · simp at accepted
          · intro given
            obtain ⟨more, rfl, closed⟩ := given
            obtain rfl : more = 0 := by
              unfold Closed at closed
              omega
            exact ⟨[], if_pos rfl⟩
        · rw [if_neg last, scan_padding rest (by split_ifs <;> omega)]
          refine exists_congr fun more => and_congr_right fun _ => ?_
          unfold Closed
          split_ifs <;> omega
      · rw [if_neg pad]
        cases found : digit? code with
        | none =>
            refine iff_of_false (by simp) fun given => ?_
            obtain ⟨data, pads, shape, digits, _⟩ := given
            cases data with
            | nil =>
                cases pads with
                | zero => cases shape
                | succ more => exact pad (List.cons.inj shape).1
            | cons other data =>
                have listed := digits other List.mem_cons_self
                rw [← (List.cons.inj shape).1, ← digit?_isSome, found] at listed
                obtain ⟨digit, known⟩ := listed
                cases known
        | some digit =>
            have listed := digit?_isSome.mp ⟨digit, found⟩
            rw [digit_starts listed]
            obtain rfl | rfl | rfl | rfl : position = 0 ∨ position = 1 ∨ position = 2 ∨
              position = 3 := by omega
            · exact ih (by decide)
            · exact map_accepts.trans (ih (by decide))
            · exact map_accepts.trans (ih (by decide))
            · refine map_accepts.trans ((ih (by decide)).trans ?_)
              refine exists_congr fun data => exists_congr fun pads => and_congr_right fun _ =>
                and_congr_right fun _ => ?_
              unfold Closed
              omega

theorem ascii_of_digit {code : Nat} (digit : code ∈ ALPHABET) : code < 128 := by
  have all : ∀ code ∈ ALPHABET, code < 128 := by decide
  exact all code digit

/-- A text is accepted exactly when it has the shape of encoded bytes, or more
padding after whole groups. -/
theorem b64decode_accepts (text : Str) :
    (∃ bytes, b64decode text = .ok bytes) ↔ ∃ data pads, Shape text data pads := by
  have ascii : ∀ (data : Str) (pads : Nat), (∀ code ∈ data, code ∈ ALPHABET) →
      (data ++ List.replicate pads PAD).any (fun code => decide (128 ≤ code)) = false := by
    intro data pads digits
    rw [List.any_eq_false]
    intro code member
    rcases List.mem_append.mp member with digit | pad
    · simp [ascii_of_digit (digits code digit)]
    · rw [List.eq_of_mem_replicate pad]
      decide
  unfold b64decode
  constructor
  · intro accepted
    split_ifs at accepted with foreign leading
    · simp at accepted
    · simp at accepted
    · obtain ⟨data, pads, shape, digits, closed⟩ := (scan_accepts text (by decide)).mp accepted
      refine ⟨data, pads, shape, digits, by rwa [Nat.zero_add] at closed, fun empty => ?_⟩
      subst empty
      cases pads with
      | zero => rfl
      | succ more => exact absurd (by rw [shape]; rfl) leading
  · intro given
    obtain ⟨data, pads, shape⟩ := given
    have plain := ascii data pads shape.digits
    have leading : ¬ text.head? = some PAD := by
      intro first
      rw [shape.split] at first
      cases data with
      | nil =>
          rw [shape.started rfl] at first
          cases first
      | cons code data =>
          cases first
          exact pad_no_digit (shape.digits PAD List.mem_cons_self)
    rw [← shape.split] at plain
    rw [if_neg (by simp [plain]), if_neg leading]
    exact (scan_accepts text (by decide)).mpr
      ⟨data, pads, shape.split, shape.digits, by simpa using shape.closed⟩

/-! ## What is encoded is decoded -/

theorem digit?_symbol {digit : Nat} (small : digit < 64) :
    digit? (symbol digit) = some digit ∧ symbol digit ≠ PAD := by
  have all : ∀ digit < 64, digit? (symbol digit) = some digit ∧ symbol digit ≠ PAD := by
    decide +kernel
  exact all digit small

theorem scan_symbol {digit : Nat} (small : digit < 64) (position left : Nat) (rest : Str) :
    scan position left 0 false (symbol digit :: rest) =
      match position with
      | 0 => scan 1 digit 0 false rest
      | 1 => (scan 2 (digit % 16) 0 false rest).map ((left * 4 + digit / 16) :: ·)
      | 2 => (scan 3 (digit % 4) 0 false rest).map ((left * 16 + digit / 4) :: ·)
      | _ => (scan 0 0 0 false rest).map ((left * 64 + digit) :: ·) := by
  obtain ⟨found, other⟩ := digit?_symbol small
  rw [scan, if_neg other, found]
  rfl

theorem scan_encode : ∀ (bytes : List Nat) (left : Nat), (∀ byte ∈ bytes, byte < 256) →
    scan 0 left 0 false (b64encode bytes) = .ok bytes
  | [], _, _ => rfl
  | [first], left, small => by
      have low : first < 256 := small first (by simp)
      have digits : first / 4 < 64 ∧ first % 4 * 16 < 64 := by omega
      simp only [b64encode, scan_symbol digits.1, scan_symbol digits.2]
      change Except.ok [_] = _
      congr 2
      omega
  | [first, second], left, small => by
      have low : first < 256 ∧ second < 256 := ⟨small first (by simp), small second (by simp)⟩
      have digits : first / 4 < 64 ∧ first % 4 * 16 + second / 16 < 64 ∧ second % 16 * 4 < 64 := by
        omega
      simp only [b64encode, scan_symbol digits.1, scan_symbol digits.2.1, scan_symbol digits.2.2]
      change Except.ok [_, _] = _
      congr 3 <;> omega
  | first :: second :: third :: rest, left, small => by
      have low : first < 256 ∧ second < 256 ∧ third < 256 :=
        ⟨small first (by simp), small second (by simp), small third (by simp)⟩
      have digits : first / 4 < 64 ∧ first % 4 * 16 + second / 16 < 64 ∧
          second % 16 * 4 + third / 64 < 64 ∧ third % 64 < 64 := by
        omega
      have later := scan_encode rest 0 fun byte member => small byte (by simp [member])
      simp only [b64encode, scan_symbol digits.1, scan_symbol digits.2.1,
        scan_symbol digits.2.2.1, scan_symbol digits.2.2.2, later]
      change Except.ok (_ :: _ :: _ :: rest) = _
      congr 4 <;> omega

theorem encode_starts : ∀ {bytes : List Nat}, (∀ byte ∈ bytes, byte < 256) → bytes ≠ [] →
    ∃ digit rest, digit < 64 ∧ b64encode bytes = symbol digit :: rest
  | [], _, nonempty => absurd rfl nonempty
  | [first], small, _ | [first, _], small, _ | first :: _ :: _ :: _, small, _ => by
      have low : first < 256 := small first (by simp)
      exact ⟨first / 4, _, by omega, rfl⟩

/-- What is encoded is read back. -/
theorem b64decode_encode {bytes : List Nat} (small : ∀ byte ∈ bytes, byte < 256) :
    b64decode (b64encode bytes) = .ok bytes := by
  have decoded := scan_encode bytes 0 small
  obtain ⟨data, pads, shape, digits, closed⟩ :=
    (scan_accepts (b64encode bytes) (by decide)).mp ⟨bytes, decoded⟩
  have started : data = [] → pads = 0 := by
    intro empty
    subst empty
    by_cases none : bytes = []
    · subst none
      simpa [b64encode] using shape.symm
    · obtain ⟨digit, rest, low, starts⟩ := encode_starts small none
      rw [starts] at shape
      cases pads with
      | zero => rfl
      | succ more => exact absurd (List.cons.inj shape).1 (digit?_symbol low).2
  obtain ⟨other, accepted⟩ := (b64decode_accepts _).mpr
    ⟨data, pads, shape, digits, by rwa [Nat.zero_add] at closed, started⟩
  unfold b64decode at accepted ⊢
  split_ifs at accepted ⊢
  exact decoded

end VllmVerifier.Python.Base64
