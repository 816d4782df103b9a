import VllmVerifier.Models

/-!
`backend.py`: one request to the inference server, the reading of its JSON as a
completion, and the readiness probe. Subscripts have Python's outcome for every
kind of JSON value.
-/

set_option autoImplicit false

namespace VllmVerifier.Backend

open Python

abbrev Bytes := List UInt8

/-! ## Subscripts -/

def typeError : PyException := .other "TypeError"

/-- `value[key]` for a string key. -/
def member (value : Json) (key : Str) : Except PyException Json :=
  match value with
  | .object members =>
      match Dict.lookupEntries key members with
      | some found => .ok found
      | none => .error .keyError
  | .null | .bool _ | .number _ | .str _ | .array _ => .error typeError

/-- `value[0]`: an object has string keys only. -/
def first (value : Json) : Except PyException Json :=
  match value with
  | .array items => at? items 0
  | .str text => (at? text 0).map fun code => .str [code]
  | .object _ => .error .keyError
  | .null | .bool _ | .number _ => .error typeError

/-- What `for item in value` goes through. -/
def iterate (value : Json) : Except PyException (List Json) :=
  match value with
  | .array items => .ok items
  | .object members => .ok (members.map fun entry => .str entry.1)
  | .str text => .ok (text.map fun code => .str [code])
  | .null | .bool _ | .number _ => .error typeError

/-! ## Requests -/

/-- What the HTTP client raises: a timeout, or another `HTTPError`. -/
inductive Fault where
  | timeout
  | http

/-- The outcome of one request at the client; a response can break off. -/
inductive Exchange where
  | failed (fault : Fault)
  | response (status : Nat) (chunks : List Bytes) (brokenOff : Option Fault)

def faultError : Fault → ServiceError
  | .timeout => ⟨504, "upstream_timeout", "Inference server timed out"⟩
  | .http => ⟨502, "upstream_unavailable", "Inference server is unavailable"⟩

def overloaded : ServiceError := ⟨529, "upstream_overloaded", "Inference server is overloaded"⟩

def rejected : ServiceError := ⟨502, "upstream_error", "Inference server rejected the request"⟩

def tooLarge : ServiceError := ⟨502, "upstream_response_too_large", "Response exceeded limit"⟩

def protocolError : ServiceError :=
  ⟨502, "upstream_protocol_error", "Invalid inference server response"⟩

/-- The body, up to two mebibytes. -/
def collect (data : Bytes) : List Bytes → Except PyException Bytes
  | [] => .ok data
  | chunk :: rest =>
      if 2 * 1024 * 1024 < (data ++ chunk).length then .error (.serviceError tooLarge)
      else collect (data ++ chunk) rest

structure Settings where
  model : Str
  maxOutputTokens : Nat
  temperature : Json.Number

/-- The settings, the client's answer to a request, and `json.loads` of a body. -/
structure VllmBackend where
  settings : Settings
  stream : Str → Str → Option Json → Exchange
  loads : Bytes → Except PyException Json

/-! ## Usage -/

/-- A strict integer field that is at least zero. -/
def strictCount : Json → Except PyException Nat
  | .number (.int value) => if 0 ≤ value then .ok value.toNat else .error .validationError
  | .null | .bool _ | .number _ | .str _ | .array _ | .object _ => .error .validationError

/-- `Usage(input_tokens=..., output_tokens=...)`. -/
def validateUsage (inputTokens outputTokens : Json) : Except PyException Usage :=
  if inputTokens.finite && outputTokens.finite then do
    let inputTokens ← strictCount inputTokens
    let outputTokens ← strictCount outputTokens
    pure ⟨inputTokens, outputTokens⟩
  else .error .validationError

/-! ## Completions -/

/-- The `try` block of `complete`. -/
def decode (raw : Json) : Except PyException Completion := do
  let choices ← member raw (lit "choices")
  let choice ← first choices
  let message ← member choice (lit "message")
  let content ← member message (lit "content")
  let finish ← member choice (lit "finish_reason")
  match content, finish with
  | .str content, .str finish => do
      let usage ← member raw (lit "usage")
      let promptTokens ← member usage (lit "prompt_tokens")
      let completionTokens ← member usage (lit "completion_tokens")
      let usage ← validateUsage promptTokens completionTokens
      pure ⟨content, usage, finish⟩
  | _, _ => .error (.valueError "missing completion")

/-- The exceptions that `complete` turns into a protocol error. -/
def completeCatches (raised : PyException) : Bool :=
  raised.isValueError || raised == .keyError || raised == .indexError || raised == typeError

/-- The exceptions that `ready` answers with `False`. -/
def readyCatches : PyException → Bool
  | .serviceError _ => true
  | raised => raised.isValueError || raised == .keyError || raised == typeError ||
      raised == .other "TimeoutError"

/-- `any(item["id"] == model for item in items)`. -/
def anyModel (model : Str) : List Json → Except PyException Bool
  | [] => .ok false
  | item :: rest => do
      let id ← member item (lit "id")
      if id = .str model then pure true else anyModel model rest

/-- The reading of the model list in `ready`. -/
def announced (model : Str) (body : Json) : Except PyException Bool := do
  let data ← member body (lit "data")
  let items ← iterate data
  anyModel model items

namespace VllmBackend

def requestJson (backend : VllmBackend) (method path : Str) (body : Option Json) :
    Except PyException Json :=
  match backend.stream method path body with
  | .failed fault => .error (.serviceError (faultError fault))
  | .response status chunks brokenOff =>
      if status ∈ [429, 503, 529] then .error (.serviceError overloaded)
      else if status < 200 ∨ 299 < status then .error (.serviceError rejected)
      else do
        let data ← collect [] chunks
        match brokenOff with
        | some fault => .error (.serviceError (faultError fault))
        | none =>
            match backend.loads data with
            | .ok value => .ok value
            | .error raised =>
                if raised.isValueError || raised == .other "RecursionError" then
                  .error (.serviceError protocolError)
                else .error raised

/-- The body of a completion request. -/
def completionBody (backend : VllmBackend) (messages : List Json) : Json :=
  .object [(lit "model", .str backend.settings.model), (lit "messages", .array messages),
    (lit "max_tokens", .number (.int backend.settings.maxOutputTokens)),
    (lit "temperature", .number backend.settings.temperature), (lit "stream", .bool false),
    (lit "chat_template_kwargs", .object [(lit "enable_thinking", .bool false)])]

/-- What the server answers to a completion request. -/
def completionJson (backend : VllmBackend) (messages : List Json) : Except PyException Json :=
  backend.requestJson (lit "POST") (lit "chat/completions") (some (backend.completionBody messages))

def complete (backend : VllmBackend) (messages : List Json) : Except PyException Completion := do
  let raw ← backend.completionJson messages
  match decode raw with
  | .ok completion => .ok completion
  | .error raised =>
      if completeCatches raised then .error (.serviceError protocolError) else .error raised

/-- What the server answers to a model list request. -/
def modelsJson (backend : VllmBackend) : Except PyException Json :=
  backend.requestJson (lit "GET") (lit "models") none

/-- `ready`; `expired` when the answer takes longer than its three seconds. -/
def ready (backend : VllmBackend) (expired : Bool) : Except PyException Bool :=
  let answered : Except PyException Bool := do
    let body ← if expired then .error (.other "TimeoutError") else backend.modelsJson
    announced backend.settings.model body
  match answered with
  | .ok found => .ok found
  | .error raised => if readyCatches raised then .ok false else .error raised

end VllmBackend

end VllmVerifier.Backend
