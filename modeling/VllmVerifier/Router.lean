import VllmVerifier.Middleware

/-!
The routes of `app.py`, as the router behind `BoundaryMiddleware` selects them:
a literal path `P` is the regular expression `^P$` under `re.match`.
-/

set_option autoImplicit false

namespace VllmVerifier.Router

open Python Middleware

/-- `$` without flags: the end, or just before a final newline. -/
def dollar (rest : Str) : Bool := decide (rest = [] ∨ rest = lit "\n")

/-- `re.match` of `^P$`. -/
def literalMatch (literal path : Str) : Bool :=
  literal.isPrefixOf path && dollar (path.drop literal.length)

inductive Endpoint where
  | health
  | readiness
  | metrics
  | models
  | systemOne
  | visionOne
deriving DecidableEq

structure Route where
  method : Str
  path : Str
  endpoint : Endpoint

/-- The routes of `create_app`, in order. -/
def routes : List Route :=
  [⟨lit "GET", lit "/healthz", .health⟩, ⟨lit "GET", lit "/readyz", .readiness⟩,
    ⟨lit "GET", lit "/metrics", .metrics⟩, ⟨lit "GET", lit "/v1/models", .models⟩,
    ⟨lit "POST", lit "/v1/systemone", .systemOne⟩,
    ⟨lit "POST", lit "/v1/vision/systemone", .visionOne⟩]

/-- The route that handles a request. -/
def dispatch (method path : Str) : Option Endpoint :=
  (routes.find? fun route => route.method == method && literalMatch route.path path).map
    Route.endpoint

/-- `system_one` and `vision_one`. -/
def Endpoint.decides : Endpoint → Bool
  | .systemOne | .visionOne => true
  | .health | .readiness | .metrics | .models => false

/-- A decision handler runs for the exchange, if it is a request with this method. -/
def handling (method : Str) (exchange : Exchange) : Bool :=
  exchange.scope.http && decide (exchange.phase = .app) &&
    (dispatch method exchange.scope.path).any Endpoint.decides

/-! ## Uploads -/

/-- The body messages that the middleware read for an exchange. -/
def uploaded (index : Nat) (events : List Event) : List Middleware.Message :=
  events.filterMap fun event =>
    match event with
    | .act acting (.message message) => if acting = index then some message else none
    | .act _ .deadline | .act _ .sent | .act _ (.raised _) | .act _ .appReceive
    | .act _ .appReturned | .call _ => none

def chunk : Middleware.Message → Bytes
  | .disconnect => []
  | .request body _ => body.getD []

/-- Whether a body message says that more will follow. -/
def continues : Middleware.Message → Option Bool
  | .disconnect => none
  | .request _ moreBody => some (moreBody.getD false)

/-- The messages of a whole body. -/
def Whole (messages : List Middleware.Message) (body : Bytes) : Prop :=
  ∃ earlier last, messages = earlier ++ [last] ∧
    (∀ message ∈ earlier, continues message = some true) ∧
    continues last = some false ∧ body = messages.flatMap chunk

end VllmVerifier.Router
