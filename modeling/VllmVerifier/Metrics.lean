import VllmVerifier.Json.Dumps
import VllmVerifier.Middleware
import VllmVerifier.Python.Counter

/-!
`middleware.py`: what `BoundaryMiddleware` writes down. Every response of an
exchange passes `send_response`, and the `finally` block counts the exchange. How
`JSONResponse` renders a content is a parameter; durations are left out.
-/

set_option autoImplicit false

namespace VllmVerifier.Middleware

open Python Json

/-- A message of a response. -/
inductive Reply where
  | start (status : Nat) (headers : List (Bytes × Bytes))
  | body (body : Bytes) (moreBody : Bool)
deriving DecidableEq

/-- The headers and the body of a `JSONResponse`. -/
abbrev Renderer := Json → List (Str × Str) → List (Bytes × Bytes) × Bytes

/-- The local variables that only the responses and the metrics of an exchange read.
`sent` holds the messages that went to the server. -/
structure Record where
  requestId : Str
  status : Nat
  sent : List Reply
deriving DecidableEq

/-- The headers that every response gets. -/
def marks (requestId : Str) : List (Bytes × Bytes) :=
  [(lit "x-request-id", requestId),
    (lit "x-probability-source", lit "uncalibrated-model-estimates")]

/-- The labels of a path: there is no series for any other path. -/
def labelledPaths : List Str := decisionPaths ++ openPaths ++ [lit "/metrics"]

def routeLabel (scope : Scope) : Str :=
  if scope.path ∈ labelledPaths then scope.path else lit "other"

/-- `name` and `message` of the rejections, by `code`. -/
def rejection (code : Nat) : Str × Str :=
  if code = 401 then (lit "unauthorized", lit "Missing or invalid Bearer token")
  else if code = 529 then (lit "overloaded", lit "Request capacity exceeded")
  else if code = 413 then (lit "body_too_large", lit "Request body exceeded limit")
  else (lit "body_timeout", lit "Request body read timed out")

def rejectionContent (code : Nat) (requestId : Str) : Json :=
  .object [(lit "error", .object [(lit "code", .str (rejection code).1),
    (lit "message", .str (rejection code).2), (lit "request_id", .str requestId)])]

def retryAfter (code : Nat) : List (Str × Str) :=
  if code = 529 then [(lit "Retry-After", lit "1")] else []

namespace Record

def opened (requestId : Str) : Record := ⟨requestId, 500, []⟩

def sendResponse (record : Record) : Reply → Record
  | .start status headers =>
      { record with
        status
        sent := record.sent ++ [.start status (headers ++ marks record.requestId)] }
  | .body body moreBody => { record with sent := record.sent ++ [.body body moreBody] }

/-- What an exchange sends on its way to its next await: a rejection its start, and
its body once the start is sent. -/
def follow (render : Renderer) (record : Record) (earlier : Option Phase) (exchange : Exchange) :
    Record :=
  if earlier = some exchange.phase then record
  else
    match exchange.phase with
    | .rejecting code _ false =>
        record.sendResponse (.start code
          (render (rejectionContent code record.requestId) (retryAfter code)).1)
    | .rejecting code _ true =>
        record.sendResponse (.body
          (render (rejectionContent code record.requestId) (retryAfter code)).2 false)
    | .reading | .app | .left => record

end Record

/-- The boundary with a record for each exchange, and the metrics. -/
structure Metered where
  active : Int
  served : List (Exchange × Record)
  requests : Counter (Str × Str)
  latency : Counter Str

namespace Metered

def initial : Metered := ⟨0, [], .empty, .empty⟩

def boundary (metered : Metered) : Boundary := ⟨metered.active, metered.served.map Prod.fst⟩

/-- The `finally` block of an exchange. -/
def leave (metered : Metered) (exchange : Exchange) (record : Record) : Metered :=
  { metered with
    active := if exchange.admitted = true then metered.active - 1 else metered.active
    requests := metered.requests.inc (routeLabel exchange.scope, natRepr record.status)
    latency := metered.latency.inc (routeLabel exchange.scope) }

/-- `response` is a message that the app sends. -/
inductive Event where
  | call (scope : Scope) (requestId : Str)
  | act (index : Nat) (action : Action)
  | response (index : Nat) (reply : Reply)

/-- A scope that is no request is passed on as it is, and neither marked nor counted. -/
def step (settings : BoundarySettings) (render : Renderer) (metered : Metered) :
    Event → Option Metered
  | .call scope requestId =>
      let (exchange, active) := Middleware.call settings metered.active scope
      some { metered with
        active
        served := metered.served ++
          [(exchange, (Record.opened requestId).follow render none exchange)] }
  | .act index action =>
      match metered.served[index]? with
      | none => none
      | some (exchange, record) =>
          match advance settings exchange action with
          | none => none
          | some next =>
              let record := record.follow render (some exchange.phase) next
              let metered := { metered with served := metered.served.set index (next, record) }
              some (if next.phase = .left ∧ next.scope.http = true then metered.leave next record
                else metered)
  | .response index reply =>
      match metered.served[index]? with
      | none => none
      | some (exchange, record) =>
          if exchange.phase = .app ∧ exchange.scope.http = true then
            some { metered with
              served := metered.served.set index (exchange, record.sendResponse reply) }
          else none

end Metered

end VllmVerifier.Middleware
