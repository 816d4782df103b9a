import VllmVerifier.Machine
import VllmVerifier.Models

/-!
`middleware.py`: the exchanges that `BoundaryMiddleware` has in hand, and the
counter they share. An event is what happens at one await of one exchange.
-/

set_option autoImplicit false

namespace VllmVerifier.Middleware

open Python

abbrev Bytes := List Nat

structure BoundarySettings where
  apiKey : Option Bytes
  maxRequests : Nat
  maxBodyBytes : Nat
  requestsRange : 1 ≤ maxRequests ∧ maxRequests ≤ 4096
  bodyRange : 1024 ≤ maxBodyBytes

structure Scope where
  http : Bool
  path : Str
  headers : List (Bytes × Bytes)

/-- A message from the server. -/
inductive Message where
  | disconnect
  | request (body : Option Bytes) (moreBody : Option Bool)

/-- Which await an exchange is suspended on. A rejection waits for `send` twice;
`timed` tells whether it does so inside the body deadline. -/
inductive Phase where
  | rejecting (code : Nat) (timed started : Bool)
  | reading
  | app
  | left
deriving DecidableEq

/-- One call of the middleware, with its local variables. `receives`, `starts`
and `appCalls` record its own calls of `receive`, of `send` with a response
start, and of the app; `forwarded` those of the app's `receive` that reached the
server. -/
structure Exchange where
  scope : Scope
  phase : Phase
  admitted : Bool
  body : Bytes
  delivered : Bool
  receives : Nat
  starts : List Nat
  appCalls : Nat
  forwarded : Nat

structure Boundary where
  active : Int
  exchanges : List Exchange

def initial : Boundary := ⟨0, []⟩

/-! ## Routes and keys -/

def decisionPaths : List Str := [lit "/v1/systemone", lit "/v1/vision/systemone"]

def openPaths : List Str := [lit "/healthz", lit "/readyz"]

/-- The check that `settings.api_key` asks for on this path. -/
def guarded (settings : BoundarySettings) (scope : Scope) : Bool :=
  match settings.apiKey with
  | none | some [] => false
  | some _ => decide (scope.path ∉ openPaths)

/-- `hmac.compare_digest` on the `authorization` header. -/
def authenticated (settings : BoundarySettings) (scope : Scope) : Bool :=
  ((Dict.ofPairs scope.headers).get? (lit "authorization")).getD [] ==
    lit "Bearer " ++ settings.apiKey.getD []

/-! ## One exchange -/

namespace Exchange

/-- `reject`, to its first `send`. -/
def reject (exchange : Exchange) (code : Nat) (timed : Bool) : Exchange :=
  { exchange with
    phase := .rejecting code timed false
    starts := exchange.starts ++ [code] }

def callApp (exchange : Exchange) : Exchange :=
  { exchange with phase := .app, appCalls := exchange.appCalls + 1 }

def awaitBody (exchange : Exchange) : Exchange :=
  { exchange with phase := .reading, receives := exchange.receives + 1 }

/-- After `await receive()`. -/
def accept (settings : BoundarySettings) (exchange : Exchange) : Message → Exchange
  | .disconnect => { exchange with phase := .left }
  | .request body moreBody =>
      let exchange := { exchange with body := exchange.body ++ body.getD [] }
      if settings.maxBodyBytes < exchange.body.length then exchange.reject 413 true
      else if moreBody.getD false then exchange.awaitBody
      else exchange.callApp

/-- An await inside `asyncio.timeout`. -/
def timed (exchange : Exchange) : Bool :=
  match exchange.phase with
  | .reading | .rejecting _ true _ => true
  | .rejecting _ false _ | .app | .left => false

end Exchange

/-- What can happen at an await. An exception is a `TimeoutError` or any other,
cancellation included. -/
inductive Action where
  | message (message : Message)
  | deadline
  | sent
  | raised (timeout : Bool)
  | appReceive
  | appReturned

/-- What an exchange does until its next await, or until it has left. -/
def advance (settings : BoundarySettings) (exchange : Exchange) : Action → Option Exchange
  | .message message =>
      match exchange.phase with
      | .reading => some (exchange.accept settings message)
      | .rejecting .. | .app | .left => none
  | .deadline => if exchange.timed then some (exchange.reject 408 false) else none
  | .sent =>
      match exchange.phase with
      | .rejecting code timed false => some { exchange with phase := .rejecting code timed true }
      | .rejecting _ _ true => some { exchange with phase := .left }
      | .reading | .app | .left => none
  | .raised timeout =>
      if exchange.phase = .left then none
      else if timeout && exchange.timed then some (exchange.reject 408 false)
      else some { exchange with phase := .left }
  | .appReceive =>
      if exchange.phase = .app then
        if exchange.admitted && !exchange.delivered then some { exchange with delivered := true }
        else some { exchange with forwarded := exchange.forwarded + 1 }
      else none
  | .appReturned =>
      if exchange.phase = .app then some { exchange with phase := .left } else none

/-- What the app's `receive` returns by itself: the buffered body, once. -/
def replay (exchange : Exchange) : Option Message :=
  if exchange.admitted && !exchange.delivered then some (.request (some exchange.body) (some false))
  else none

/-! ## The boundary -/

/-- `__call__` to its first await, with the counter it leaves. -/
def call (settings : BoundarySettings) (active : Int) (scope : Scope) : Exchange × Int :=
  let exchange : Exchange := ⟨scope, .left, false, [], false, 0, [], 0, 0⟩
  if !scope.http then (exchange.callApp, active)
  else if guarded settings scope && !authenticated settings scope then
    (exchange.reject 401 false, active)
  else if scope.path ∈ decisionPaths then
    if (settings.maxRequests : Int) ≤ active then (exchange.reject 529 false, active)
    else ({ exchange with admitted := true }.awaitBody, active + 1)
  else (exchange.callApp, active)

inductive Event where
  | call (scope : Scope)
  | act (index : Nat) (action : Action)

/-- One step; the `finally` block of an exchange that leaves gives back its slot. -/
def step (settings : BoundarySettings) (boundary : Boundary) : Event → Option Boundary
  | .call scope =>
      let (exchange, active) := call settings boundary.active scope
      some ⟨active, boundary.exchanges ++ [exchange]⟩
  | .act index action =>
      match boundary.exchanges[index]? with
      | none => none
      | some exchange =>
          match advance settings exchange action with
          | none => none
          | some next =>
              some ⟨if next.phase = .left ∧ next.admitted = true then boundary.active - 1
                else boundary.active, boundary.exchanges.set index next⟩

end VllmVerifier.Middleware
