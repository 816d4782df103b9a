import VllmVerifier.Json.Grammar

/-!
`json.loads` with an `object_pairs_hook`: the recursive scanner of
`json.scanner` and `json.decoder`. The fuel bounds the nesting and the number
of elements; the length of the text is always enough of it.
-/

set_option autoImplicit false

namespace VllmVerifier.Json

open Python

/-- Either the text is not JSON or the hook raised. -/
inductive LoadsError (ε : Type) where
  | decode
  | hook (error : ε)
deriving DecidableEq

def skipBlank (text : Str) : Str := text.dropWhile isBlank

/-- The text after a literal it starts with. -/
def afterLiteral (literal text : Str) : Option Str :=
  if literal.isPrefixOf text then some (text.drop literal.length) else none

/-! ## Numbers -/

def scanSign : Str → Bool × Str
  | [] => (false, [])
  | code :: rest => if code = ord '-' then (true, rest) else (false, code :: rest)

def scanInteger : Str → Option (Str × Str)
  | [] => none
  | code :: rest =>
      if code = ord '0' then some ([code], rest)
      else if isDigit code then some (code :: rest.takeWhile isDigit, rest.dropWhile isDigit)
      else none

def scanFraction : Str → Option Str × Str
  | [] => (none, [])
  | code :: rest =>
      if code = ord '.' ∧ rest.takeWhile isDigit ≠ [] then
        (some (rest.takeWhile isDigit), rest.dropWhile isDigit)
      else (none, code :: rest)

def scanExponentSign : Str → Str × Str
  | [] => ([], [])
  | code :: rest =>
      if code = ord '+' ∨ code = ord '-' then ([code], rest) else ([], code :: rest)

def scanExponent : Str → Option ExponentText × Str
  | [] => (none, [])
  | code :: rest =>
      let (sign, digits) := scanExponentSign rest
      if (code = ord 'e' ∨ code = ord 'E') ∧ digits.takeWhile isDigit ≠ [] then
        (some ⟨code, sign, digits.takeWhile isDigit⟩, digits.dropWhile isDigit)
      else (none, code :: rest)

/-- `NUMBER_RE`: the longest match of the optional parts. -/
def scanNumber (text : Str) : Option (NumberText × Str) :=
  let (negative, afterSign) := scanSign text
  match scanInteger afterSign with
  | none => none
  | some (integer, afterInteger) =>
      let (fraction, afterFraction) := scanFraction afterInteger
      let (exponent, rest) := scanExponent afterFraction
      some (⟨negative, integer, fraction, exponent⟩, rest)

/-! ## Strings -/

/-- The pieces up to the closing quote, and the text after it. -/
def scanPieces : Str → Option (List Piece × Str)
  | [] => none
  | code :: rest =>
      if code = ord '"' then some ([], rest)
      else if code = ord '\\' then
        match rest with
        | [] => none
        | letter :: rest =>
            if letter = ord 'u' then
              match rest with
              | first :: second :: third :: fourth :: rest =>
                  if isHex first && isHex second && isHex third && isHex fourth then
                    match scanPieces rest with
                    | none => none
                    | some (pieces, rest) =>
                        some (.unicode first second third fourth :: pieces, rest)
                  else none
              | _ => none
            else if letter ∈ shortLetters then
              match scanPieces rest with
              | none => none
              | some (pieces, rest) => some (.short letter :: pieces, rest)
            else none
      else if code < 0x20 then none
      else
        match scanPieces rest with
        | none => none
        | some (pieces, rest) => some (.plain code :: pieces, rest)

/-- `scanstring`, called after the opening quote. -/
def scanString (text : Str) : Option (Str × Str) :=
  (scanPieces text).map fun scanned => (decodePieces scanned.1, scanned.2)

/-! ## Values -/

section Values

variable {ε : Type} (hook : List (Str × Json) → Except ε Json)

def runHook (members : List (Str × Json)) : Except (LoadsError ε) Json :=
  (hook members).mapError LoadsError.hook

/-- A number or one of the three constants. -/
def scanScalar (text : Str) : Except (LoadsError ε) (Json × Str) :=
  match afterLiteral (lit "null") text with
  | some rest => .ok (.null, rest)
  | none =>
  match afterLiteral (lit "true") text with
  | some rest => .ok (.bool true, rest)
  | none =>
  match afterLiteral (lit "false") text with
  | some rest => .ok (.bool false, rest)
  | none =>
  match scanNumber text with
  | some (shown, rest) => .ok (.number shown.value, rest)
  | none =>
  match afterLiteral (lit "NaN") text with
  | some rest => .ok (.number .nan, rest)
  | none =>
  match afterLiteral (lit "Infinity") text with
  | some rest => .ok (.number .infinity, rest)
  | none =>
  match afterLiteral (lit "-Infinity") text with
  | some rest => .ok (.number .negInfinity, rest)
  | none => .error .decode

mutual

def scanOnce : Nat → Str → Except (LoadsError ε) (Json × Str)
  | 0, _ => .error .decode
  | _ + 1, [] => .error .decode
  | fuel + 1, code :: rest =>
      if code = ord '"' then
        match scanString rest with
        | none => .error .decode
        | some (value, rest) => .ok (.str value, rest)
      else if code = ord '{' then
        match afterLiteral [ord '}'] (skipBlank rest) with
        | some rest => do
            let value ← runHook hook []
            pure (value, rest)
        | none => do
            let (members, rest) ← scanMembers fuel (skipBlank rest)
            let value ← runHook hook members
            pure (value, rest)
      else if code = ord '[' then
        match afterLiteral [ord ']'] (skipBlank rest) with
        | some rest => .ok (.array [], rest)
        | none => do
            let (items, rest) ← scanItems fuel (skipBlank rest)
            pure (.array items, rest)
      else scanScalar (code :: rest)

/-- The rest of `JSONArray` from the start of an element. -/
def scanItems : Nat → Str → Except (LoadsError ε) (List Json × Str)
  | 0, _ => .error .decode
  | fuel + 1, text => do
      let (value, rest) ← scanOnce fuel text
      match afterLiteral [ord ']'] (skipBlank rest) with
      | some rest => pure ([value], rest)
      | none =>
          match afterLiteral [ord ','] (skipBlank rest) with
          | none => .error .decode
          | some rest => do
              let (values, rest) ← scanItems fuel (skipBlank rest)
              pure (value :: values, rest)

/-- The rest of `JSONObject` from the start of a member. -/
def scanMembers : Nat → Str → Except (LoadsError ε) (List (Str × Json) × Str)
  | 0, _ => .error .decode
  | fuel + 1, text =>
      match afterLiteral [ord '"'] text with
      | none => .error .decode
      | some rest =>
      match scanString rest with
      | none => .error .decode
      | some (name, rest) =>
      match afterLiteral [ord ':'] (skipBlank rest) with
      | none => .error .decode
      | some rest => do
          let (value, rest) ← scanOnce fuel (skipBlank rest)
          match afterLiteral [ord '}'] (skipBlank rest) with
          | some rest => pure ([(name, value)], rest)
          | none =>
              match afterLiteral [ord ','] (skipBlank rest) with
              | none => .error .decode
              | some rest => do
                  let (members, rest) ← scanMembers fuel (skipBlank rest)
                  pure ((name, value) :: members, rest)

end

/-- `json.loads(text, object_pairs_hook=hook)`: one value and nothing after it. -/
def loads (text : Str) : Except (LoadsError ε) Json := do
  let (value, rest) ← scanOnce hook (2 * text.length + 1) (skipBlank text)
  if skipBlank rest = [] then pure value else .error .decode

mutual

/-- What the hook makes of a value, bottom up and left to right. -/
def rebuild : Json → Except ε Json
  | .null => .ok .null
  | .bool value => .ok (.bool value)
  | .number value => .ok (.number value)
  | .str value => .ok (.str value)
  | .array items => do
      let items ← rebuildItems items
      pure (.array items)
  | .object members => do
      let members ← rebuildMembers members
      hook members

def rebuildItems : List Json → Except ε (List Json)
  | [] => .ok []
  | item :: rest => do
      let value ← rebuild item
      let values ← rebuildItems rest
      pure (value :: values)

def rebuildMembers : List (Str × Json) → Except ε (List (Str × Json))
  | [] => .ok []
  | (name, item) :: rest => do
      let value ← rebuild item
      let members ← rebuildMembers rest
      pure ((name, value) :: members)

end

end Values

end VllmVerifier.Json
