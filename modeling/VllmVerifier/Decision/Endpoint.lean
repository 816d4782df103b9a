import VllmVerifier.Decision.Service
import VllmVerifier.Middleware

/-!
`system_one` of `app.py` on the decision runtime: the handlers that stand
between `BoundaryMiddleware` and the queue. An event is one of the boundary, of
the service, or of a handler.
-/

set_option autoImplicit false

namespace VllmVerifier.Decision

open Python Middleware

/-- The one `Settings` that the middleware and the service share. -/
structure EndpointSettings where
  boundary : BoundarySettings
  service : ServiceSettings
  shared : boundary.maxRequests = service.maxRequests

/-- Where the handler of an exchange stands with `evaluate`: `awaiting` the future
of its job, or after it, with the error of the service if it raised one. -/
inductive Handler where
  | unstarted
  | awaiting (job : Nat)
  | ended (error : Option ServiceError)
deriving DecidableEq

/-- The handlers stand in the order of their exchanges. -/
structure Endpoint (α : Type) where
  boundary : Boundary
  service : Service α
  handlers : List Handler

namespace Endpoint

variable {α : Type}

def initial : Endpoint α := ⟨Middleware.initial, Service.initial, []⟩

/-- What the service does besides serving handlers. -/
inductive Background (α : Type) where
  | start
  | work
  | endCall (outcome : CallOutcome α)
  | close
  | resumeClose

def Background.event : Background α → Service.Event α
  | .start => .start
  | .work => .work
  | .endCall outcome => .endCall outcome
  | .close => .close
  | .resumeClose => .resumeClose

/-- `resumed` is a handler whose future is set; `cancelled` one that is reached by
the deadline or a disconnect before. -/
inductive Event (α : Type) where
  | call (scope : Scope)
  | act (index : Nat) (action : Action)
  | background (event : Background α)
  | evaluate (index : Nat) (request : SystemOneRequest)
  | resumed (index : Nat)
  | cancelled (index : Nat)

/-- An action that an exchange can take while its handler awaits a future. -/
def concurrent : Action → Bool
  | .appReceive => true
  | .message _ | .deadline | .sent | .raised _ | .appReturned => false

/-- What becomes of a handler that calls `evaluate`. -/
def answered (service : Service α) : Except ServiceError (Service α) → Handler
  | .ok _ => .awaiting service.jobs.length
  | .error error => .ended (some error)

def step (settings : EndpointSettings) (endpoint : Endpoint α) : Event α → Option (Endpoint α)
  | .call scope =>
      match Middleware.step settings.boundary endpoint.boundary (.call scope) with
      | none => none
      | some boundary =>
          some { endpoint with boundary, handlers := endpoint.handlers ++ [.unstarted] }
  | .act index action =>
      match endpoint.handlers[index]? with
      | none => none
      | some (.awaiting _) =>
          if concurrent action then
            (Middleware.step settings.boundary endpoint.boundary (.act index action)).map
              fun boundary => { endpoint with boundary }
          else none
      | some .unstarted | some (.ended _) =>
          (Middleware.step settings.boundary endpoint.boundary (.act index action)).map
            fun boundary => { endpoint with boundary }
  | .background event =>
      (Service.step settings.service endpoint.service event.event).map
        fun service => { endpoint with service }
  | .evaluate index request =>
      match endpoint.boundary.exchanges[index]?, endpoint.handlers[index]? with
      | some exchange, some .unstarted =>
          if exchange.phase = .app ∧ exchange.admitted = true then
            (Service.step settings.service endpoint.service (.evaluate request)).map
              fun service => { endpoint with
                service
                handlers := endpoint.handlers.set index
                  (answered endpoint.service (endpoint.service.evaluate settings.service request)) }
          else none
      | _, _ => none
  | .resumed index =>
      match endpoint.handlers[index]? with
      | some (.awaiting id) =>
          if endpoint.service.isDone id then
            some { endpoint with handlers := endpoint.handlers.set index (.ended none) }
          else none
      | _ => none
  | .cancelled index =>
      match endpoint.handlers[index]? with
      | some (.awaiting id) =>
          (Service.step settings.service endpoint.service (.cancelCaller id)).map
            fun service => { endpoint with
              service
              handlers := endpoint.handlers.set index (.ended none) }
      | _ => none

end Endpoint

end VllmVerifier.Decision
