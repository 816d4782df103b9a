import VllmVerifier.Backend
import VllmVerifier.Decision.Artifact
import VllmVerifier.Json.Double
import VllmVerifier.Prompts

/-!
`examples/demo/engine.py`: the synthetic inference server. Its handler sees what
`int` makes of the length header and what `json.loads` makes of the body. In which
texts the scanner of `json` then meets the recursion limit is the interpreter's.
-/

set_option autoImplicit false

namespace VllmVerifier.Demo

open Python Backend

def MODEL : Str := lit "demo-uniform"

structure Request where
  path : Str
  contentLength : Except PyException Int
  body : Except PyException Json

/-- The status and the body of a reply. -/
abbrev Reply := Nat × Json

def failure (message : String) : Json := .object [(lit "error", .str (lit message))]

/-- `value[-1]`. -/
def last (value : Json) : Except PyException Json :=
  match value with
  | .array items => at? items.reverse 0
  | .str text => (at? text.reverse 0).map fun code => .str [code]
  | .object _ => .error .keyError
  | .null | .bool _ | .number _ => .error typeError

/-- `len(value)`. -/
def len (value : Json) : Except PyException Nat :=
  match value with
  | .array items => .ok items.length
  | .object members => .ok members.length
  | .str text => .ok text.length
  | .null | .bool _ | .number _ => .error typeError

def recursionError : PyException := .other "RecursionError"

/-- `json.loads(content)` of a value that may be no text, where the recursion limit
ends the scan of these texts. -/
def loads (exhausts : Str → Bool) (content : Json) : Except PyException Json :=
  match content with
  | .str text => if exhausts text then .error recursionError else Decision.Artifact.parse text
  | .null | .bool _ | .number _ | .array _ | .object _ => .error typeError

def half : Json := .number (.float (.ofDecimal false 5 (-1)))

/-- `[1 / count] * count`. -/
def shares (count : Nat) : Json :=
  .array (List.replicate count (.number (.float (Json.Double.reciprocal count).repr)))

/-- `json.dumps({"probabilities": [1 / count] * count})`. -/
def uniform (count : Nat) : Except PyException Str :=
  if count = 0 then .error .zeroDivisionError
  else dumpsOrRaise .default (.object [(lit "probabilities", shares count)])

/-- The content of the completion. -/
def answer (exhausts : Str → Bool) (content : Json) : Except PyException Str :=
  match content with
  | .array _ => .ok (lit "DEMO: image contents were not evaluated.")
  | content => do
      let prompt ← loads exhausts content
      let question ← member prompt (lit "question")
      let kind ← member question (lit "type")
      if kind = .str (lit "noul") then dumpsOrRaise .default (.object [(lit "noul", half)])
      else do
        let criteria ← member question (lit "criteria")
        let count ← len criteria
        uniform count

def completion (content : Str) : Json :=
  .object
    [ (lit "choices", .array [.object
        [ (lit "message", .object [(lit "content", .str content)]),
          (lit "finish_reason", .str (lit "stop"))]]),
      (lit "usage", .object
        [ (lit "prompt_tokens", .number (.int 0)), (lit "completion_tokens", .number (.int 0))])]

/-- The `try` block of `do_POST`. -/
def respond (exhausts : Str → Bool) (request : Request) : Except PyException Reply := do
  let length ← request.contentLength
  if ¬ (0 < length ∧ length ≤ 16 * 1024 * 1024) then
    .ok (413, failure "body too large or empty")
  else do
    let body ← request.body
    let model ← member body (lit "model")
    if model ≠ .str MODEL then .ok (400, failure "unknown model")
    else do
      let messages ← member body (lit "messages")
      let message ← last messages
      let content ← member message (lit "content")
      let answer ← answer exhausts content
      .ok (200, completion answer)

/-- The exceptions that `do_POST` answers with an error. -/
def caught (raised : PyException) : Bool :=
  raised.isValueError || raised == .keyError || raised == .indexError || raised == typeError ||
    raised == .zeroDivisionError

def doPost (exhausts : Str → Bool) (request : Request) : Except PyException Reply :=
  if request.path ≠ lit "/v1/chat/completions" then .ok (404, failure "not found")
  else
    match respond exhausts request with
    | .ok reply => .ok reply
    | .error raised =>
        if caught raised then .ok (400, failure "invalid request") else .error raised

/-! ## Messages as they are sent -/

def partJson : MessagePart → Json
  | .text text => .object [(lit "type", .str (lit "text")), (lit "text", .str text)]
  | .imageUrl url => .object
      [(lit "type", .str (lit "image_url")), (lit "image_url", .object [(lit "url", .str url)])]

def messageJson (message : Message) : Json :=
  .object
    [ (lit "role", .str message.role),
      (lit "content",
        match message.content with
        | .text text => .str text
        | .parts parts => .array (parts.map partJson))]

end VllmVerifier.Demo
