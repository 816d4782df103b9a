import VllmVerifier.Asyncio.Lock
import VllmVerifier.CustomerService.Dialogue
import VllmVerifier.Machine

/-!
`app.py` of the customer-service example: sessions that are kept under the tokens
of their cookies, and the requests that share them. A request is suspended only
in a lock's `acquire` and where its turn asks the classifier.
-/

set_option autoImplicit false

namespace VllmVerifier.CustomerService

open Python

/-! ## Asking the classifier -/

section Asking

variable [Unicode]

/-- What the active frame makes of an utterance, unless the turn goes on. -/
def answered (state : Conversation) (text command : Str) : Option Turn :=
  match state.active with
  | none => none
  | some frame => if state.choices.isEmpty then answerSlot state frame text command else none

/-- What a turn awaits from the classifier: the text and the context that it
sends. A turn that asks nothing has no await. -/
def asks (state : Conversation) (text : Str) (selectedIntent : Option Str) : Option (Str × Str) :=
  let state := hear state text
  let command := normalize text
  if command ∈ resumeWords then none
  else if command ∈ noWords ∧ (state.active.isSome ∨ state.choices ≠ []) then none
  else
    match selectedIntent with
    | none | some [] =>
        if (chosen state.choices command).isSome then none
        else if state.active.isSome ∧ command ∈ thanksWords then none
        else if (answered state text command).isSome ∨ (followUp state text).isSome then none
        else some (text, referenceContext state text)
    | some _ => none

end Asking

namespace Sessions

/-! ## Sessions -/

/-- `Session`. -/
structure Session (Time : Type) where
  state : Conversation
  lock : Asyncio.Lock Nat
  accessed : Time

/-- The arguments of `create_app`. -/
structure Settings (Time : Type) where
  maxSessions : Nat
  /-- `now - accessed > ttl`. -/
  stale : Time → Time → Bool

/-- The requests for `get_session`, `reset` and `chat`. -/
inductive Ask where
  | session
  | reset
  | chat (text : Str) (intent : Option Str)

inductive Outcome where
  /-- 503, for the sessions are full. -/
  | full
  | shown (state : Conversation)
  | cleared (state : Conversation)
  | replied (reply : Reply) (state : Conversation)
  /-- 503, for the classifier failed or the time was up. -/
  | unreachable
  /-- 422. -/
  | refused
  | raised (error : PyException)
  | cancelled

/-- Where a request is. The turn of a chat works on a copy of the state. -/
inductive Stage where
  | arrived
  | locking
  | entered
  | classifying (working : Conversation)
  | ended

structure Request where
  ask : Ask
  cookie : Option Str
  /-- The session, by its number; nothing where there was none left. -/
  session : Option Nat
  /-- The token of a new session, which a cookie carries. -/
  issued : Option Str
  stage : Stage
  /-- The timeout of a chat has cancelled it. -/
  expired : Bool
  /-- Its task was cancelled from outside. -/
  cancelled : Bool

structure Response where
  request : Nat
  outcome : Outcome
  cookie : Option Str

/-- Every session that was made, by its number, those that are kept under a
token, the requests by their numbers and the responses in the order they left. -/
structure Server (Time : Type) where
  objects : List (Session Time)
  sessions : Dict Str Nat
  requests : List Request
  responses : List Response

variable {Time : Type}

def Server.initial : Server Time := ⟨[], .empty, [], []⟩

/-- Whether a session is out of time and not locked. -/
def Server.idle (server : Server Time) (settings : Settings Time) (now : Time) (index : Nat) : Bool :=
  (server.objects[index]?).any fun session =>
    settings.stale now session.accessed && !session.lock.locked

/-- The loop of `session` over the sessions that are kept. -/
def evict (settings : Settings Time) (server : Server Time) (now : Time) : Dict Str Nat :=
  server.sessions.entries.foldl
    (fun kept entry => if server.idle settings now entry.2 then kept.erase entry.1 else kept)
    server.sessions

/-- `session`: the session of a request, with its number and the token that a new
one is issued under; nothing where the sessions are full. -/
def session (settings : Settings Time) (server : Server Time) (cookie : Option Str) (token : Str)
    (now : Time) : Server Time × Option (Nat × Session Time × Option Str) :=
  let sessions := evict settings server now
  match cookie.bind sessions.get? with
  | some index =>
      ({ server with sessions }, server.objects[index]?.map fun known =>
        (index, { known with accessed := now }, none))
  | none =>
      if settings.maxSessions ≤ sessions.entries.length then ({ server with sessions }, none)
      else
        let fresh : Session Time := ⟨freshConversation, .create, now⟩
        let index := server.objects.length
        ({ server with objects := server.objects ++ [fresh], sessions := sessions.set token index },
          some (index, fresh, some token))

/-! ## Requests -/

/-- The responses to the exceptions that leave a chat. -/
def failure (error : PyException) : Outcome :=
  if error = .other "HTTPError" ∨ error = .other "TimeoutError" then .unreachable
  else if error.isValueError then .refused
  else .raised error

/-- The response to a `CancelledError`, which a timeout turns into its own. -/
def Request.interruption (request : Request) : Outcome :=
  if request.expired && !request.cancelled then .unreachable else .cancelled

/-- A cookie leaves with what an endpoint returns, not with what it raises. -/
def Outcome.returned : Outcome → Bool
  | .shown _ | .cleared _ | .replied _ _ => true
  | _ => false

def Request.respond (request : Request) (id : Nat) (outcome : Outcome) : Response :=
  ⟨id, outcome, if outcome.returned then request.issued else none⟩

/-- The state after a request did something to its session. -/
def Server.place (server : Server Time) (id : Nat) (request : Request) (index : Nat)
    (session : Session Time) : Server Time :=
  { server with
    objects := server.objects.set index session
    requests := server.requests.set id request }

/-- The end of a request. -/
def Server.conclude (server : Server Time) (id : Nat) (request : Request) (index : Nat)
    (session : Session Time) (outcome : Outcome) : Server Time :=
  { server.place id { request with stage := .ended } index session with
    responses := server.responses ++ [request.respond id outcome] }

/-- The end of a request that has the lock. -/
def Server.leave (server : Server Time) (id : Nat) (request : Request) (index : Nat)
    (session : Session Time) (outcome : Outcome) : Server Time :=
  server.conclude id request index { session with lock := session.lock.release } outcome

/-- The end of a turn: its copy becomes the state unless it raised. -/
def settle (session : Session Time) (outcome : Turn) (later : Time) : Session Time × Outcome :=
  match outcome with
  | (.ok reply, working) =>
      ({ session with state := working, accessed := later }, .replied reply working)
  | (.error error, _) => (session, failure error)

variable [Unicode]

/-- A request that has the lock, to its next await or to its end. -/
def enter (server : Server Time) (id : Nat) (request : Request) (index : Nat)
    (session : Session Time) (later : Time) : Server Time :=
  let request := { request with stage := .entered }
  let server := server.place id request index session
  match request.ask with
  | .session => server.leave id request index session (.shown session.state)
  | .reset =>
      server.leave id request index { session with state := freshConversation }
        (.cleared freshConversation)
  | .chat text intent =>
      match asks session.state text intent with
      | some _ => server.place id { request with stage := .classifying session.state } index session
      | none =>
          let outcome := turn session.state ⟨text, intent, fun _ _ => .error .assertionError⟩
          let settled := settle session outcome later
          server.leave id request index settled.1 settled.2

/-- A request from its arrival to its first await, or to its end. -/
def arrive (settings : Settings Time) (server : Server Time) (ask : Ask) (cookie : Option Str)
    (token : Str) (now later : Time) : Server Time :=
  let id := server.requests.length
  match session settings server cookie token now with
  | (server, none) =>
      let request : Request := ⟨ask, cookie, none, none, .ended, false, false⟩
      { server with
        requests := server.requests ++ [request]
        responses := server.responses ++ [request.respond id .full] }
  | (server, some (index, known, issued)) =>
      let request : Request := ⟨ask, cookie, some index, issued, .arrived, false, false⟩
      let server := { server with requests := server.requests ++ [request] }
      let acquired := known.lock.acquire id
      let known := { known with lock := acquired.1 }
      if acquired.2 then enter server id request index known later
      else server.place id { request with stage := .locking } index known

/-- The rest of a lock's `acquire`, and what follows it. -/
def resume (server : Server Time) (id : Nat) (request : Request) (index : Nat)
    (session : Session Time) (later : Time) : Server Time :=
  let resumed := session.lock.resume id (request.expired || request.cancelled)
  let session := { session with lock := resumed.1 }
  if resumed.2 then enter server id request index session later
  else server.conclude id request index session request.interruption

/-! ## Steps -/

inductive Event (Time : Type) where
  /-- A request with its cookie, a fresh token and the clock before and after the lock. -/
  | arrive (ask : Ask) (cookie : Option Str) (token : Str) (now later : Time)
  | resume (id : Nat) (later : Time)
  /-- The classifier returned or raised. -/
  | answer (id : Nat) (answer : Except PyException Classification) (later : Time)
  /-- A `CancelledError` leaves the classifier. -/
  | unwind (id : Nat)
  | expire (id : Nat)
  | cancel (id : Nat)

/-- What a request does next, on its session. -/
def act (server : Server Time) (id : Nat) (request : Request) (index : Nat)
    (session : Session Time) : Event Time → Option (Server Time)
  | .arrive .. => none
  | .resume _ later =>
      match request.stage, session.lock.future? id with
      | .locking, some .woken | .locking, some .cancelled =>
          some (resume server id request index session later)
      | _, _ => none
  | .answer _ answer later =>
      match request.stage, request.ask with
      | .classifying working, .chat text intent =>
          let settled := settle session (turn working ⟨text, intent, fun _ _ => answer⟩) later
          some (server.leave id request index settled.1 settled.2)
      | _, _ => none
  | .unwind _ =>
      match request.stage with
      | .classifying _ =>
          if request.expired || request.cancelled then
            some (server.leave id request index session request.interruption)
          else none
      | _ => none
  | .expire _ =>
      match request.stage, request.ask with
      | .ended, _ | _, .session | _, .reset => none
      | _, .chat .. =>
          if request.expired then none
          else some (server.place id { request with expired := true } index
            { session with lock := session.lock.cancel id })
  | .cancel _ =>
      match request.stage with
      | .ended => none
      | _ =>
          if request.cancelled then none
          else some (server.place id { request with cancelled := true } index
            { session with lock := session.lock.cancel id })

def Event.request? : Event Time → Option Nat
  | .arrive .. => none
  | .resume id _ | .answer id _ _ | .unwind id | .expire id | .cancel id => some id

def step (settings : Settings Time) (server : Server Time) (event : Event Time) :
    Option (Server Time) :=
  match event with
  | .arrive ask cookie token now later =>
      some (arrive settings server ask cookie token now later)
  | event => do
      let id ← event.request?
      let request ← server.requests[id]?
      let index ← request.session
      let session ← server.objects[index]?
      act server id request index session event

end Sessions

end VllmVerifier.CustomerService
