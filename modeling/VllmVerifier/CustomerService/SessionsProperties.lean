import VllmVerifier.CustomerService.FrameProperties
import VllmVerifier.CustomerService.Sessions

/-!
Sessions over every interleaving of requests: the responses of a session, in the
order they leave, are those of a conversation that takes one request after the
other.
-/

set_option autoImplicit false

namespace VllmVerifier.CustomerService

open Python

namespace Sessions

variable {Time : Type}

/-! ## The serial conversation -/

section Serving

variable [Unicode]

/-- What one request does to a conversation that no other request touches. -/
inductive Served : Ask → Conversation → Outcome → Conversation → Prop where
  | shown {state : Conversation} : Served .session state (.shown state) state
  | cleared {state : Conversation} :
      Served .reset state (.cleared freshConversation) freshConversation
  | replied {state after : Conversation} {text : Str} {intent : Option Str}
      {classify : Str → Str → Except PyException Classification} {reply : Reply} :
      turn state ⟨text, intent, classify⟩ = (.ok reply, after) →
      Served (.chat text intent) state (.replied reply after) after
  | raised {state : Conversation} {text : Str} {intent : Option Str}
      {classify : Str → Str → Except PyException Classification} {error : PyException} :
      (turn state ⟨text, intent, classify⟩).1 = .error error →
      Served (.chat text intent) state (failure error) state
  | expired {state : Conversation} {text : Str} {intent : Option Str} :
      Served (.chat text intent) state .unreachable state
  | cancelled {state : Conversation} {ask : Ask} : Served ask state .cancelled state

/-- The conversation after requests that were served one after the other. -/
inductive Replayed : List (Ask × Outcome) → Conversation → Prop where
  | fresh : Replayed [] freshConversation
  | serves {log : List (Ask × Outcome)} {before after : Conversation} {ask : Ask}
      {outcome : Outcome} : Replayed log before → Served ask before outcome after →
      Replayed (log ++ [(ask, outcome)]) after

theorem Served.settled {session : Session Time} {text : Str} {intent : Option Str}
    {classify : Str → Str → Except PyException Classification} (later : Time) :
    Served (.chat text intent) session.state
      (settle session (turn session.state ⟨text, intent, classify⟩) later).2
      (settle session (turn session.state ⟨text, intent, classify⟩) later).1.state := by
  unfold settle
  split
  · rename_i reply working done
    exact .replied done
  · rename_i error working done
    exact .raised (by rw [done])

end Serving

theorem settle_lock (session : Session Time) (outcome : Turn) (later : Time) :
    (settle session outcome later).1.lock = session.lock := by
  unfold settle
  split
  · rfl
  · rfl

/-! ## Invariant -/

/-- A request is in, waits for or has nothing to do with the lock. -/
def Stage.status : Stage → Asyncio.Status
  | .arrived | .ended => .idle
  | .locking => .waiting
  | .entered | .classifying _ => .holding

def Server.status (server : Server Time) (index id : Nat) : Asyncio.Status :=
  match server.requests[id]? with
  | none => .idle
  | some request => if request.session = some index then request.stage.status else .idle

/-- What a request asks for and on which session. -/
def Request.kind (request : Request) : Ask × Option Nat := (request.ask, request.session)

/-- The responses of a session, with what was asked. -/
def logOf (kinds : List (Ask × Option Nat)) (responses : List Response) (index : Nat) :
    List (Ask × Outcome) :=
  responses.filterMap fun response =>
    (kinds[response.request]?).bind fun kind =>
      if kind.2 = some index then some (kind.1, response.outcome) else none

def Server.log (server : Server Time) (index : Nat) : List (Ask × Outcome) :=
  logOf (server.requests.map Request.kind) server.responses index

/-- The locks agree with the requests, and a turn's copy with the state. -/
structure Coherent (server : Server Time) : Prop where
  /-- Only a chat has a timeout. -/
  timed : ∀ (id : Nat) (request : Request), server.requests[id]? = some request →
    request.expired = true → ∃ text intent, request.ask = .chat text intent
  locks : ∀ (index : Nat) (session : Session Time), server.objects[index]? = some session →
    session.lock.Consistent (server.status index)
  working : ∀ (id index : Nat) (request : Request) (session : Session Time)
    (working : Conversation),
    server.requests[id]? = some request → request.session = some index →
    request.stage = .classifying working → server.objects[index]? = some session →
    working = session.state
  placed : ∀ (id index : Nat) (request : Request), server.requests[id]? = some request →
    request.session = some index → index < server.objects.length
  unplaced : ∀ (id : Nat) (request : Request), server.requests[id]? = some request →
    request.session = none → request.stage = .ended
  known : ∀ entry ∈ server.sessions.entries, entry.2 < server.objects.length

/-- Every session is what its responses make of it. -/
structure Valid [Unicode] (server : Server Time) : Prop extends Coherent server where
  replays : ∀ (index : Nat) (session : Session Time), server.objects[index]? = some session →
    Replayed (server.log index) session.state
  once : (server.responses.map Response.request).Nodup
  ends : ∀ id, id ∈ server.responses.map Response.request ↔
    ∃ request, server.requests[id]? = some request ∧ request.stage = .ended

theorem Valid.initial [Unicode] : Valid (Server.initial : Server Time) where
  timed id request found := by cases found
  locks index session found := by cases found
  working id index request session working found := by cases found
  placed id index request found := by cases found
  unplaced id request found := by cases found
  known entry member := by cases member
  replays index session found := by cases found
  once := List.nodup_nil
  ends id := by simp [Server.initial]

/-- A request and its session. -/
structure Server.At (server : Server Time) (id : Nat) (request : Request) (index : Nat)
    (session : Session Time) : Prop where
  asked : server.requests[id]? = some request
  joined : request.session = some index
  object : server.objects[index]? = some session

section Place

variable {server : Server Time} {id index : Nat} {request after : Request}
  {session next : Session Time}

theorem Server.At.placed (here : server.At id request index session)
    (same : after.session = request.session) :
    (server.place id after index next).At id after index next where
  asked := List.getElem?_set_self (List.getElem?_eq_some_iff.mp here.asked).1
  joined := same.trans here.joined
  object := List.getElem?_set_self (List.getElem?_eq_some_iff.mp here.object).1

theorem Server.place_place (first : Request) (before : Session Time) :
    (server.place id first index before).place id after index next =
      server.place id after index next := by
  simp [Server.place, List.set_set]

theorem Server.place_requests (here : server.At id request index session) (after : Request)
    (next : Session Time) (other : Nat) :
    (server.place id after index next).requests[other]? =
      if other = id then some after else server.requests[other]? := by
  by_cases same : other = id
  · rw [if_pos same, same]
    exact List.getElem?_set_self (List.getElem?_eq_some_iff.mp here.asked).1
  · rw [if_neg same]
    exact List.getElem?_set_ne (Ne.symm same)

theorem Server.place_objects (here : server.At id request index session) (after : Request)
    (next : Session Time) (other : Nat) :
    (server.place id after index next).objects[other]? =
      if other = index then some next else server.objects[other]? := by
  by_cases same : other = index
  · rw [if_pos same, same]
    exact List.getElem?_set_self (List.getElem?_eq_some_iff.mp here.object).1
  · rw [if_neg same]
    exact List.getElem?_set_ne (Ne.symm same)

theorem Server.place_status (here : server.At id request index session)
    (same : after.session = request.session) (other : Nat) :
    (server.place id after index next).status other =
      if other = index then Function.update (server.status index) id after.stage.status
      else server.status other := by
  funext number
  have stays := same.trans here.joined
  rw [Server.status, place_requests here]
  by_cases own : number = id
  · subst own
    by_cases hit : other = index
    · simp [hit, stays]
    · rw [if_pos rfl, if_neg hit, Server.status, here.asked]
      simp [stays, here.joined, Ne.symm hit]
  · rw [if_neg own]
    by_cases hit : other = index
    · rw [if_pos hit, Function.update_of_ne own, hit]
      rfl
    · rw [if_neg hit]
      rfl

theorem Server.place_kinds (here : server.At id request index session) (next : Session Time)
    (same : after.kind = request.kind) :
    (server.place id after index next).requests.map Request.kind =
      server.requests.map Request.kind :=
  Machine.map_set here.asked same

theorem Server.At.status (here : server.At id request index session) :
    server.status index id = request.stage.status := by
  rw [Server.status, here.asked]
  exact if_pos here.joined

theorem Coherent.place (coherent : Coherent server) (here : server.At id request index session)
    (same : after.kind = request.kind)
    (timed : after.expired = true → ∃ text intent, after.ask = .chat text intent)
    (lock : next.lock.Consistent (Function.update (server.status index) id after.stage.status))
    (copy : ∀ working, after.stage = .classifying working → working = next.state)
    (apart : next.state = session.state ∨ request.stage.status = .holding) :
    Coherent (server.place id after index next) := by
  have stays : after.session = request.session := congrArg Prod.snd same
  have joined : after.session = some index := stays.trans here.joined
  refine ⟨?_, ?_, ?_, ?_, ?_, ?_⟩
  · intro number asker asked expired
    rw [Server.place_requests here] at asked
    by_cases own : number = id
    · rw [if_pos own] at asked
      cases asked
      exact timed expired
    · rw [if_neg own] at asked
      exact coherent.timed number asker asked expired
  · intro other found known
    rw [Server.place_objects here] at known
    rw [Server.place_status here stays]
    by_cases hit : other = index
    · rw [if_pos hit] at known ⊢
      cases known
      exact lock
    · rw [if_neg hit] at known ⊢
      exact coherent.locks other found known
  · intro number other asker found working asked on stage known
    rw [Server.place_requests here] at asked
    rw [Server.place_objects here] at known
    by_cases own : number = id
    · rw [if_pos own] at asked
      cases asked
      rw [if_pos (Option.some.inj (on.symm.trans joined))] at known
      cases known
      exact copy working stage
    · rw [if_neg own] at asked
      by_cases hit : other = index
      · rw [if_pos hit] at known
        cases known
        subst hit
        have kept := coherent.working number other asker session working asked on stage here.object
        rcases apart with unchanged | holding
        · rw [unchanged, kept]
        · have held : server.status other number = .holding := by
            rw [Server.status, asked]
            simp [on, stage, Stage.status]
          exact absurd ((coherent.locks other session here.object).single number id held
            (here.status.trans holding)) own
      · rw [if_neg hit] at known
        exact coherent.working number other asker found working asked on stage known
  · intro number other asker asked on
    rw [Server.place_requests here] at asked
    have bound := (List.getElem?_eq_some_iff.mp here.object).1
    simp only [Server.place, List.length_set]
    by_cases own : number = id
    · rw [if_pos own] at asked
      cases asked
      rwa [← Option.some.inj (joined.symm.trans on)]
    · rw [if_neg own] at asked
      exact coherent.placed number other asker asked on
  · intro number asker asked lost
    rw [Server.place_requests here] at asked
    by_cases own : number = id
    · rw [if_pos own] at asked
      cases asked
      rw [joined] at lost
      cases lost
    · rw [if_neg own] at asked
      exact coherent.unplaced number asker asked lost
  · intro entry member
    simp only [Server.place, List.length_set]
    exact coherent.known entry member

theorem Server.conclude_requests (here : server.At id request index session) (outcome : Outcome)
    (other : Nat) : (server.conclude id request index next outcome).requests[other]? =
      if other = id then some { request with stage := .ended } else server.requests[other]? :=
  place_requests here _ next other

theorem Server.conclude_objects (here : server.At id request index session) (outcome : Outcome)
    (other : Nat) : (server.conclude id request index next outcome).objects[other]? =
      if other = index then some next else server.objects[other]? :=
  place_objects here { request with stage := .ended } next other

@[simp] theorem Server.conclude_responses (outcome : Outcome) :
    (server.conclude id request index next outcome).responses.map Response.request =
      server.responses.map Response.request ++ [id] := by
  simp [Server.conclude, Request.respond]

theorem Server.conclude_log (here : server.At id request index session) (outcome : Outcome)
    (other : Nat) : (server.conclude id request index next outcome).log other =
      server.log other ++ if other = index then [(request.ask, outcome)] else [] := by
  have kinds : (server.conclude id request index next outcome).requests.map Request.kind =
      server.requests.map Request.kind :=
    place_kinds here next rfl
  have kind : (server.requests.map Request.kind)[id]? = some request.kind := by
    rw [List.getElem?_map, here.asked, Option.map_some]
  rw [Server.log, kinds, Server.log, logOf, logOf]
  simp only [Server.conclude, List.filterMap_append]
  congr 1
  simp only [List.filterMap_cons, List.filterMap_nil, Request.respond, kind, Option.bind_some,
    Request.kind, here.joined]
  by_cases hit : other = index
  · simp [hit]
  · simp [hit, Ne.symm hit]

variable [Unicode]

/-- A step that sends no response. -/
theorem Valid.place (valid : Valid server) (here : server.At id request index session)
    (same : after.kind = request.kind)
    (timed : after.expired = true → ∃ text intent, after.ask = .chat text intent)
    (lock : next.lock.Consistent (Function.update (server.status index) id after.stage.status))
    (copy : ∀ working, after.stage = .classifying working → working = next.state)
    (kept : next.state = session.state) (going : after.stage ≠ .ended)
    (waiting : request.stage ≠ .ended) : Valid (server.place id after index next) := by
  refine ⟨valid.toCoherent.place here same timed lock copy (.inl kept), ?_, valid.once, ?_⟩
  · intro other found known
    rw [Server.place_objects here] at known
    have log : (server.place id after index next).log other = server.log other := by
      rw [Server.log, Server.place_kinds here _ same]
      rfl
    rw [log]
    by_cases hit : other = index
    · rw [if_pos hit] at known
      cases known
      rw [hit, kept]
      exact valid.replays index session here.object
    · rw [if_neg hit] at known
      exact valid.replays other found known
  · intro number
    refine (valid.ends number).trans ?_
    rw [Server.place_requests here]
    by_cases own : number = id
    · subst own
      simp [here.asked, going, waiting]
    · rw [if_neg own]

/-- A step that sends a response. -/
theorem Valid.conclude (valid : Valid server) (here : server.At id request index session)
    {outcome : Outcome} (served : Served request.ask session.state outcome next.state)
    (lock : next.lock.Consistent (Function.update (server.status index) id .idle))
    (apart : next.state = session.state ∨ request.stage.status = .holding)
    (waiting : request.stage ≠ .ended) :
    Valid (server.conclude id request index next outcome) := by
  have placed : Coherent (server.place id { request with stage := .ended } index next) :=
    valid.toCoherent.place here rfl (valid.timed id request here.asked) lock
      (fun working stage => by cases stage) apart
  have silent : id ∉ server.responses.map Response.request := by
    rw [valid.ends]
    intro given
    obtain ⟨other, asked, ended⟩ := given
    rw [here.asked] at asked
    cases asked
    exact waiting ended
  refine ⟨⟨placed.timed, placed.locks, placed.working, placed.placed, placed.unplaced,
    placed.known⟩, ?_, ?_, ?_⟩
  · intro other found known
    rw [Server.conclude_objects here] at known
    rw [Server.conclude_log here]
    by_cases hit : other = index
    · rw [if_pos hit] at known ⊢
      cases known
      subst hit
      exact .serves (valid.replays other session here.object) served
    · rw [if_neg hit] at known ⊢
      rw [List.append_nil]
      exact valid.replays other found known
  · rw [Server.conclude_responses]
    refine List.nodup_append.mpr ⟨valid.once, List.nodup_singleton _, ?_⟩
    intro first early second last same
    rw [List.mem_singleton] at last
    subst same last
    exact silent early
  · intro number
    rw [Server.conclude_responses, List.mem_append, valid.ends, Server.conclude_requests here]
    by_cases own : number = id
    · simp [own]
    · simp [own]

/-- The end of a request that has the lock. -/
theorem Valid.leave (valid : Valid server) (here : server.At id request index session)
    {outcome : Outcome} (served : Served request.ask session.state outcome next.state)
    (holding : request.stage.status = .holding) (lock : next.lock = session.lock) :
    Valid (server.leave id request index next outcome) := by
  refine valid.conclude here served ?_ (.inr holding) ?_
  · rw [lock]
    exact (valid.locks index session here.object).release (here.status.trans holding)
  · intro ended
    rw [ended] at holding
    cases holding

theorem Valid.enter (valid : Valid server) (here : server.At id request index session)
    (lock : next.lock.Consistent (Function.update (server.status index) id .holding))
    (kept : next.state = session.state) (waiting : request.stage ≠ .ended) (later : Time) :
    Valid (enter server id request index next later) := by
  have entered : Valid (server.place id { request with stage := .entered } index next) :=
    valid.place here rfl (valid.timed id request here.asked) lock
      (fun working stage => by cases stage) kept (by simp) waiting
  have there : (server.place id { request with stage := .entered } index next).At id
      { request with stage := .entered } index next := here.placed rfl
  unfold Sessions.enter
  dsimp only
  split
  · rename_i asked
    exact entered.leave there (asked ▸ .shown) rfl rfl
  · rename_i asked
    exact entered.leave there (asked ▸ .cleared) rfl rfl
  · rename_i text intent asked
    split
    · refine entered.place there rfl (valid.timed id request here.asked) ?_ ?_ rfl (by simp) (by simp)
      · have same := entered.locks index next there.object
        have status := there.status
        rwa [← Function.update_eq_self id (Server.status _ index), status] at same
      · intro working stage
        cases stage
        rfl
    · exact entered.leave there (asked ▸ Served.settled later) rfl (settle_lock _ _ _)

end Place

/-! ## Arrivals -/

section Arrivals

variable {settings : Settings Time} {server : Server Time} {cookie : Option Str} {token : Str}
  {now : Time}

theorem mem_evict_iff {entry : Str × Nat} :
    entry ∈ (evict settings server now).entries ↔
      entry ∈ server.sessions.entries ∧ server.idle settings now entry.2 = false := by
  rw [evict, Dict.entries_foldl_erase server.sessions fun entry =>
    server.idle settings now entry.2, List.mem_filter, Bool.not_eq_true']

/-- What `session` leaves for a request: the server as it was but for the sessions
that went or that were made, and a session that nobody changed. -/
structure Admits (server left : Server Time) (found : Option (Nat × Session Time × Option Str)) :
    Prop where
  requests : left.requests = server.requests
  responses : left.responses = server.responses
  objects : ∃ made, left.objects = server.objects ++ made ∧
    ∀ fresh ∈ made, fresh.state = freshConversation ∧ fresh.lock = .create
  known : ∀ entry ∈ left.sessions.entries, entry.2 < left.objects.length
  session : ∀ index next issued, found = some (index, next, issued) →
    ∃ session, left.objects[index]? = some session ∧ next.state = session.state ∧
      next.lock = session.lock

/-- How a request comes to a session: by the token of its cookie, or by a new one. -/
inductive Found (settings : Settings Time) (server : Server Time) (cookie : Option Str)
    (token : Str) (now : Time) :
    Server Time → Option (Nat × Session Time × Option Str) → Prop where
  | known {name : Str} {index : Nat} {session : Session Time} : cookie = some name →
      (name, index) ∈ (evict settings server now).entries →
      server.objects[index]? = some session →
      Found settings server cookie token now { server with sessions := evict settings server now }
        (some (index, { session with accessed := now }, none))
  | full : (∀ entry ∈ (evict settings server now).entries, cookie ≠ some entry.1) →
      settings.maxSessions ≤ (evict settings server now).entries.length →
      Found settings server cookie token now { server with sessions := evict settings server now }
        none
  | fresh : (∀ entry ∈ (evict settings server now).entries, cookie ≠ some entry.1) →
      (evict settings server now).entries.length < settings.maxSessions →
      Found settings server cookie token now
        { server with
          objects := server.objects ++ [⟨freshConversation, .create, now⟩]
          sessions := (evict settings server now).set token server.objects.length }
        (some (server.objects.length, ⟨freshConversation, .create, now⟩, some token))

theorem session_found (coherent : Coherent server) :
    Found settings server cookie token now (session settings server cookie token now).1
      (session settings server cookie token now).2 := by
  unfold Sessions.session
  dsimp only
  split
  · rename_i index live
    obtain ⟨name, named, live⟩ := Option.bind_eq_some_iff.mp live
    have listed := Dict.get?_eq_some_iff.mp live
    have bound := coherent.known _ (mem_evict_iff.mp listed).1
    rw [List.getElem?_eq_getElem bound]
    exact .known named listed (List.getElem?_eq_getElem bound)
  · rename_i unknown
    have foreign : ∀ entry ∈ (evict settings server now).entries, cookie ≠ some entry.1 := by
      intro entry member named
      rw [named, Option.bind_some, Dict.get?_eq_some_iff.mpr member] at unknown
      cases unknown
    split
    · rename_i full
      exact .full foreign full
    · rename_i room
      exact .fresh foreign (Nat.lt_of_not_le room)

theorem Found.admits {left : Server Time} {found : Option (Nat × Session Time × Option Str)}
    (coherent : Coherent server) (case : Found settings server cookie token now left found) :
    Admits server left found := by
  have kept : ∀ entry ∈ (evict settings server now).entries, entry.2 < server.objects.length :=
    fun entry member => coherent.known entry (mem_evict_iff.mp member).1
  cases case with
  | known named listed object =>
      refine ⟨rfl, rfl, ⟨[], by simp, by simp⟩, kept, fun number next issued shape => ?_⟩
      cases shape
      exact ⟨_, object, rfl, rfl⟩
  | full foreign full =>
      exact ⟨rfl, rfl, ⟨[], by simp, by simp⟩, kept, fun number next issued shape => by cases shape⟩
  | fresh foreign room =>
      refine ⟨rfl, rfl, ⟨[_], rfl, by simp⟩, fun entry member => ?_, fun number next issued shape => ?_⟩
      · rw [List.length_append, List.length_singleton]
        rcases Dict.mem_entries_set member with before | new
        · exact Nat.lt_succ_of_lt (kept entry before)
        · rw [new]
          exact Nat.lt_succ_self _
      · cases shape
        exact ⟨_, List.getElem?_concat_length, rfl, rfl⟩

variable [Unicode]

theorem Valid.admits {left : Server Time} {found : Option (Nat × Session Time × Option Str)}
    (valid : Valid server) (admits : Admits server left found) : Valid left := by
  obtain ⟨made, objects, fresh⟩ := admits.objects
  have status : left.status = server.status := by
    funext index id
    rw [Server.status, Server.status, admits.requests]
  have log : ∀ index, left.log index = server.log index := by
    intro index
    rw [Server.log, Server.log, admits.requests, admits.responses]
  -- A session that was just made has no requests.
  have unused : ∀ index, server.objects.length ≤ index →
      server.status index = (fun _ => .idle) ∧ server.log index = [] := by
    intro index late
    have foreign : ∀ (id : Nat) (request : Request), server.requests[id]? = some request →
        request.session ≠ some index := fun id request asked on =>
      absurd (valid.placed id index request asked on) (Nat.not_lt.mpr late)
    constructor
    · funext id
      rw [Server.status]
      cases asked : server.requests[id]? with
      | none => rfl
      | some request => exact if_neg (foreign id request asked)
    · rw [Server.log, logOf, List.filterMap_eq_nil_iff]
      intro response member
      rw [List.getElem?_map]
      cases asked : server.requests[response.request]? with
      | none => rfl
      | some request =>
          rw [Option.map_some, Option.bind_some]
          exact if_neg (foreign _ request asked)
  have cases_ : ∀ (index : Nat) (session : Session Time), left.objects[index]? = some session →
      server.objects[index]? = some session ∨
        server.objects.length ≤ index ∧ session.state = freshConversation ∧
          session.lock = .create := by
    intro index session known
    rw [objects] at known
    by_cases early : index < server.objects.length
    · rw [List.getElem?_append_left early] at known
      exact .inl known
    · rw [List.getElem?_append_right (Nat.le_of_not_lt early)] at known
      exact .inr ⟨Nat.le_of_not_lt early, fresh session (List.mem_of_getElem? known)⟩
  refine ⟨⟨?_, ?_, ?_, ?_, ?_, admits.known⟩, ?_, ?_, ?_⟩
  · intro id request asked
    rw [admits.requests] at asked
    exact valid.timed id request asked
  · intro index session known
    rw [status]
    rcases cases_ index session known with before | ⟨late, _, lock⟩
    · exact valid.locks index session before
    · rw [lock, (unused index late).1]
      exact .create
  · intro id index request session working asked on stage known
    rw [admits.requests] at asked
    rcases cases_ index session known with before | ⟨late, _, _⟩
    · exact valid.working id index request session working asked on stage before
    · exact absurd (valid.placed id index request asked on) (Nat.not_lt.mpr late)
  · intro id index request asked on
    rw [admits.requests] at asked
    rw [objects, List.length_append]
    exact Nat.lt_add_right _ (valid.placed id index request asked on)
  · intro id request asked
    rw [admits.requests] at asked
    exact valid.unplaced id request asked
  · intro index session known
    rw [log]
    rcases cases_ index session known with before | ⟨late, state, _⟩
    · exact valid.replays index session before
    · rw [state, (unused index late).2]
      exact .fresh
  · rw [admits.responses]
    exact valid.once
  · intro id
    rw [admits.responses, admits.requests]
    exact valid.ends id

omit [Unicode] in
theorem getElem?_append_one {requests : List Request} {request found : Request} {id : Nat}
    (known : (requests ++ [request])[id]? = some found) :
    requests[id]? = some found ∨ id = requests.length ∧ found = request := by
  by_cases early : id < requests.length
  · rw [List.getElem?_append_left early] at known
    exact .inl known
  · rw [List.getElem?_append_right (Nat.le_of_not_lt early), List.getElem?_singleton] at known
    split at known
    · rename_i first
      cases known
      exact .inr ⟨by omega, rfl⟩
    · cases known

omit [Unicode] in
theorem Coherent.append (coherent : Coherent server) {request : Request}
    (idle : request.stage.status = .idle)
    (placed : ∀ index, request.session = some index → index < server.objects.length)
    (unplaced : request.session = none → request.stage = .ended) (fresh : request.expired = false) :
    Coherent { server with requests := server.requests ++ [request] } := by
  have status : ({ server with requests := server.requests ++ [request] } : Server Time).status =
      server.status := by
    funext index id
    simp only [Server.status]
    by_cases early : id < server.requests.length
    · rw [List.getElem?_append_left early]
    · rw [List.getElem?_append_right (Nat.le_of_not_lt early), List.getElem?_singleton,
        List.getElem?_eq_none (Nat.le_of_not_lt early)]
      by_cases first : id - server.requests.length = 0
      · simp [first, idle]
      · simp [first]
  refine ⟨?_, ?_, ?_, ?_, ?_, coherent.known⟩
  · intro id other asked expired
    rcases getElem?_append_one asked with before | ⟨_, same⟩
    · exact coherent.timed id other before expired
    · rw [same, fresh] at expired
      cases expired
  · intro index session known
    rw [status]
    exact coherent.locks index session known
  · intro id index other session working asked on stage known
    rcases getElem?_append_one asked with before | ⟨_, same⟩
    · exact coherent.working id index other session working before on stage known
    · rw [← same, stage] at idle
      cases idle
  · intro id index other asked on
    rcases getElem?_append_one asked with before | ⟨_, same⟩
    · exact coherent.placed id index other before on
    · exact placed index (same ▸ on)
  · intro id other asked lost
    rcases getElem?_append_one asked with before | ⟨_, same⟩
    · exact coherent.unplaced id other before lost
    · rw [same] at lost ⊢
      exact unplaced lost

omit [Unicode] in
theorem logOf_append {kinds : List (Ask × Option Nat)} {responses : List Response}
    (early : ∀ response ∈ responses, response.request < kinds.length) (kind : Ask × Option Nat)
    (index : Nat) : logOf (kinds ++ [kind]) responses index = logOf kinds responses index := by
  apply List.filterMap_congr
  intro response member
  rw [List.getElem?_append_left (early response member)]

theorem Valid.answered (valid : Valid server) {response : Response}
    (member : response ∈ server.responses) : response.request < server.requests.length := by
  obtain ⟨request, asked, _⟩ := (valid.ends _).mp (List.mem_map_of_mem member)
  exact (List.getElem?_eq_some_iff.mp asked).1

theorem Valid.join (valid : Valid server) {request : Request} (arrived : request.stage = .arrived)
    (fresh : request.expired = false) {index : Nat} (joined : request.session = some index)
    (bound : index < server.objects.length) :
    Valid { server with requests := server.requests ++ [request] } := by
  refine ⟨valid.toCoherent.append (by rw [arrived]; rfl) ?_ ?_ fresh, ?_, valid.once, ?_⟩
  · intro other on
    rw [joined] at on
    cases on
    exact bound
  · intro lost
    rw [joined] at lost
    cases lost
  · intro other session known
    rw [Server.log, List.map_append, List.map_singleton, logOf_append]
    · exact valid.replays other session known
    · intro response member
      rw [List.length_map]
      exact valid.answered member
  · intro id
    refine (valid.ends id).trans ⟨?_, ?_⟩
    · intro given
      obtain ⟨other, asked, ended⟩ := given
      exact ⟨other, by
        dsimp only
        rw [List.getElem?_append_left (List.getElem?_eq_some_iff.mp asked).1, asked], ended⟩
    · intro given
      obtain ⟨other, asked, ended⟩ := given
      rcases getElem?_append_one asked with before | ⟨_, same⟩
      · exact ⟨other, before, ended⟩
      · rw [same, arrived] at ended
        cases ended

/-- A request that finds no session is over when it arrives. -/
theorem Valid.refuse (valid : Valid server) {request : Request} (ended : request.stage = .ended)
    (fresh : request.expired = false) (lost : request.session = none) (outcome : Outcome) :
    Valid { server with
      requests := server.requests ++ [request]
      responses := server.responses ++ [request.respond server.requests.length outcome] } := by
  have idle : request.stage.status = .idle := by
    rw [ended]
    rfl
  have coherent := valid.toCoherent.append idle
    (fun index on => by rw [lost] at on; cases on) (fun _ => ended) fresh
  refine ⟨⟨coherent.timed, coherent.locks, coherent.working, coherent.placed, coherent.unplaced,
    coherent.known⟩, ?_, ?_, ?_⟩
  · intro other session known
    have early : ∀ response ∈ server.responses,
        response.request < (server.requests.map Request.kind).length := by
      intro response member
      rw [List.length_map]
      exact valid.answered member
    have silent : logOf (server.requests.map Request.kind ++ [request.kind])
        [request.respond server.requests.length outcome] other = [] := by
      simp [logOf, Request.respond, Request.kind, lost]
    rw [Server.log, List.map_append, List.map_singleton, logOf, List.filterMap_append]
    rw [← logOf, ← logOf, silent, List.append_nil, logOf_append early]
    exact valid.replays other session known
  · rw [List.map_append]
    refine List.nodup_append.mpr ⟨valid.once, List.nodup_singleton _, ?_⟩
    intro first member second last same
    obtain ⟨response, present, rfl⟩ := List.mem_map.mp member
    have bound := valid.answered present
    simp only [List.map_singleton, Request.respond, List.mem_singleton] at last
    omega
  · intro id
    rw [List.map_append, List.mem_append, valid.ends]
    constructor
    · intro given
      rcases given with ⟨other, asked, stopped⟩ | last
      · exact ⟨other, by
          dsimp only
          rw [List.getElem?_append_left (List.getElem?_eq_some_iff.mp asked).1, asked], stopped⟩
      · simp only [List.map_singleton, Request.respond, List.mem_singleton] at last
        exact ⟨request, by rw [last, List.getElem?_concat_length], ended⟩
    · intro given
      obtain ⟨other, asked, stopped⟩ := given
      rcases getElem?_append_one asked with before | ⟨same, _⟩
      · exact .inl ⟨other, before, stopped⟩
      · exact .inr (by simp [Request.respond, same])

theorem Valid.arrive (valid : Valid server) (ask : Ask) (later : Time) :
    Valid (arrive settings server ask cookie token now later) := by
  have admits : Admits server (session settings server cookie token now).1
      (session settings server cookie token now).2 := (session_found valid.toCoherent).admits
        valid.toCoherent
  unfold Sessions.arrive
  dsimp only
  split
  · rename_i left shape
    have admits : Admits server left none := by rwa [shape] at admits
    have refused := (valid.admits admits).refuse
      (show (⟨ask, cookie, none, none, .ended, false, false⟩ : Request).stage = .ended from rfl) rfl rfl .full
    rwa [admits.requests] at refused ⊢
  · rename_i left index next issued shape
    have admits : Admits server left (some (index, next, issued)) := by rwa [shape] at admits
    obtain ⟨session, known, state, lock⟩ := admits.session index next issued rfl
    have joined := (valid.admits admits).join
      (show (⟨ask, cookie, some index, issued, .arrived, false, false⟩ : Request).stage = .arrived
        from rfl) rfl rfl (List.getElem?_eq_some_iff.mp known).1
    rw [admits.requests] at joined ⊢
    have here : ({ left with requests := server.requests ++
        [⟨ask, cookie, some index, issued, .arrived, false, false⟩] } : Server Time).At
        server.requests.length ⟨ask, cookie, some index, issued, .arrived, false, false⟩ index session :=
      ⟨List.getElem?_concat_length, rfl, known⟩
    have consistent := joined.locks index session known
    have idle := here.status
    rw [lock]
    split
    · rename_i acquired
      refine joined.enter here ?_ ?_ (by simp) later
      · exact consistent.acquire_now idle acquired
      · exact state
    · rename_i taken
      refine joined.place here rfl (fun expired => by cases expired) ?_
        (fun working stage => by cases stage) ?_ (by simp) (by simp)
      · exact consistent.acquire_later idle (Bool.eq_false_iff.mpr taken)
      · exact state

end Arrivals

/-! ## Steps -/

section Steps

variable [Unicode] {settings : Settings Time} {server : Server Time} {id index : Nat}
  {request : Request} {session : Session Time}

/-- A `CancelledError` leaves the conversation as it is. -/
theorem Valid.interrupted (valid : Valid server) (here : server.At id request index session) :
    Served request.ask session.state request.interruption session.state := by
  unfold Request.interruption
  split
  · rename_i due
    obtain ⟨expired, _⟩ := (Bool.and_eq_true _ _).mp due
    obtain ⟨text, intent, asked⟩ := valid.timed id request here.asked expired
    rw [asked]
    exact .expired
  · exact .cancelled

theorem Valid.resume (valid : Valid server) (here : server.At id request index session)
    (locking : request.stage = .locking) {future : Asyncio.Future}
    (found : session.lock.future? id = some future) (done : future ≠ .pending) (later : Time) :
    Valid (resume server id request index session later) := by
  have consistent := valid.locks index session here.object
  have waiting : server.status index id = .waiting := by
    rw [here.status, locking]
    rfl
  have going : request.stage ≠ .ended := by simp [locking]
  unfold Sessions.resume
  dsimp only
  split
  · rename_i gained
    refine valid.enter here ?_ ?_ going later
    · exact consistent.resume_holding found done gained
    · rfl
  · rename_i lost
    exact valid.conclude here (valid.interrupted here)
      (consistent.resume_leaving waiting (Bool.eq_false_iff.mpr lost)) (.inl rfl) going

/-- A flag and a cancelled future change nothing else. -/
theorem Valid.mark (valid : Valid server) (here : server.At id request index session)
    {marked : Request} (kind : marked.kind = request.kind) (stage : marked.stage = request.stage)
    (timed : marked.expired = true → ∃ text intent, marked.ask = .chat text intent)
    (going : request.stage ≠ .ended) :
    Valid (server.place id marked index { session with lock := session.lock.cancel id }) := by
  refine valid.place here kind timed ?_ ?_ rfl (stage ▸ going) going
  · rw [stage, ← here.status, Function.update_eq_self]
    exact (valid.locks index session here.object).cancel id
  · intro working copied
    exact valid.working id index request session working here.asked here.joined
      (stage.symm.trans copied) here.object

theorem Valid.act (valid : Valid server) (here : server.At id request index session)
    {event : Event Time} {next : Server Time}
    (acted : act server id request index session event = some next) : Valid next := by
  cases event with
  | arrive ask cookie token now later => cases acted
  | resume number later =>
      simp only [Sessions.act] at acted
      split at acted
      · rename_i locking found
        cases acted
        exact valid.resume here locking found (by simp) later
      · rename_i locking found
        cases acted
        exact valid.resume here locking found (by simp) later
      · cases acted
  | answer number answer later =>
      simp only [Sessions.act] at acted
      split at acted
      · rename_i working text intent classifying asked
        cases acted
        obtain rfl := valid.working id index request session working here.asked here.joined
          classifying here.object
        exact valid.leave here (asked ▸ Served.settled later) (by rw [classifying]; rfl)
          (settle_lock _ _ _)
      · cases acted
  | unwind number =>
      simp only [Sessions.act] at acted
      split at acted
      · rename_i working classifying
        split at acted
        · cases acted
          exact valid.leave here (valid.interrupted here) (by rw [classifying]; rfl) rfl
        · cases acted
      · cases acted
  | expire number =>
      simp only [Sessions.act] at acted
      split at acted
      · cases acted
      · cases acted
      · cases acted
      · rename_i text intent asked going
        split at acted
        · cases acted
        · cases acted
          exact valid.mark here rfl rfl (fun _ => ⟨text, intent, asked⟩) going
  | cancel number =>
      simp only [Sessions.act] at acted
      split at acted
      · cases acted
      · rename_i going
        split at acted
        · cases acted
        · cases acted
          exact valid.mark here rfl rfl (valid.timed id request here.asked) going

theorem step_act {event : Event Time} {next : Server Time} {number : Nat}
    (names : event.request? = some number) (stepped : step settings server event = some next) :
    ∃ request index session, server.At number request index session ∧
      act server number request index session event = some next := by
  have found : (server.requests[number]?.bind fun request => request.session.bind fun index =>
      server.objects[index]?.bind fun session => act server number request index session event) =
      some next := by
    cases event <;> cases names <;> exact stepped
  obtain ⟨request, asked, found⟩ := Option.bind_eq_some_iff.mp found
  obtain ⟨index, joined, found⟩ := Option.bind_eq_some_iff.mp found
  obtain ⟨session, object, acted⟩ := Option.bind_eq_some_iff.mp found
  exact ⟨request, index, session, ⟨asked, joined, object⟩, acted⟩

theorem step_valid {event : Event Time} {next : Server Time} (valid : Valid server)
    (stepped : step settings server event = some next) : Valid next := by
  cases names : event.request? with
  | none =>
      cases event <;> cases names
      cases stepped
      exact valid.arrive _ _
  | some number =>
      obtain ⟨request, index, session, here, acted⟩ := step_act names stepped
      exact valid.act here acted

theorem run_valid {events : List (Event Time)} (ran : Machine.run (step settings) .initial events =
    some server) : Valid server :=
  Machine.run_invariant (fun _ _ _ valid stepped => step_valid valid stepped) ran .initial

/-- What the clients of the sessions can rely on. -/
structure Serial (server : Server Time) : Prop where
  /-- The responses of a session are those of a serial conversation, which is its state. -/
  replays : ∀ (index : Nat) (session : Session Time), server.objects[index]? = some session →
    Replayed (server.log index) session.state
  once : (server.responses.map Response.request).Nodup
  answered : ∀ (id : Nat) (request : Request), server.requests[id]? = some request →
    (request.stage = .ended ↔ ∃ response ∈ server.responses, response.request = id)
  /-- At most one turn is under way on a session, on a copy of its state. -/
  exclusive : ∀ (id other index : Nat) (request another : Request) (working copy : Conversation),
    server.requests[id]? = some request → server.requests[other]? = some another →
    request.session = some index → another.session = some index →
    request.stage = .classifying working → another.stage = .classifying copy → id = other

/-- However requests interleave, are cancelled or run out of time, no update is lost
and nothing that failed is left behind. -/
theorem sessions_serialize {events : List (Event Time)}
    (ran : Machine.run (step settings) .initial events = some server) : Serial server := by
  have valid := run_valid ran
  refine ⟨valid.replays, valid.once, fun id request asked => ?_, ?_⟩
  · rw [← List.mem_map, valid.ends]
    constructor
    · exact fun ended => ⟨request, asked, ended⟩
    · intro given
      obtain ⟨other, found, ended⟩ := given
      rw [asked] at found
      cases found
      exact ended
  · intro id other index request another working copy asked found on at_ stage staged
    have bound := valid.placed id index request asked on
    have holding : server.status index id = .holding := by
      rw [Server.status, asked]
      simp [on, stage, Stage.status]
    have held : server.status index other = .holding := by
      rw [Server.status, found]
      simp [at_, staged, Stage.status]
    exact (valid.locks index _ (List.getElem?_eq_getElem bound)).single id other holding held

end Steps

/-- One session, of which the second chat waits for the first. -/
def twoChats : List (Event Nat) := [
  .arrive (.chat (lit "도착") none) none (lit "a") 0 0,
  .arrive (.chat (lit "취소") none) (some (lit "a")) (lit "b") 1 1,
  .answer 0 (.ok ⟨none, [productDetail]⟩) 2,
  .resume 1 3]

theorem sessions_serialize_two : ∃ server,
    Machine.run (@step Nat basicUnicode ⟨1, fun _ _ => false⟩) .initial twoChats = some server ∧
      @Serial Nat basicUnicode server := by
  obtain ⟨server, ran⟩ := Option.isSome_iff_exists.mp (show
    (Machine.run (@step Nat basicUnicode ⟨1, fun _ _ => false⟩) .initial twoChats).isSome = true by
      decide +kernel)
  exact ⟨server, ran, @sessions_serialize Nat basicUnicode _ server twoChats ran⟩

/-! ## Conversations -/

/-- What was said and replied, after one more response. -/
def retell (said : List (Str × Option Str × Reply)) : Ask × Outcome → List (Str × Option Str × Reply)
  | (_, .cleared _) => []
  | (.chat text intent, .replied reply _) => said ++ [(text, intent, reply)]
  | _ => said

/-- What was said and replied since the last reset. -/
def spoken (log : List (Ask × Outcome)) : List (Str × Option Str × Reply) := log.foldl retell []

@[simp] theorem spoken_append (log : List (Ask × Outcome)) (entry : Ask × Outcome) :
    spoken (log ++ [entry]) = retell (spoken log) entry := by
  simp [spoken]

theorem retell_failure (error : PyException) (said : List (Str × Option Str × Reply)) (ask : Ask) :
    retell said (ask, failure error) = said := by
  unfold failure
  split
  · cases ask <;> rfl
  · split
    · cases ask <;> rfl
    · cases ask <;> rfl

variable [Unicode]

/-- A step of a dialogue and what the log has of it. -/
def Step.Heard (step : Step) (said : Str × Option Str × Reply) : Prop :=
  step.utterance.text = said.1 ∧ step.utterance.selectedIntent = said.2.1 ∧
    step.result = .ok said.2.2

/-- The conversation of a session is the dialogue of the turns that were replied to. -/
theorem Replayed.converse {log : List (Ask × Outcome)} {state : Conversation}
    (replayed : Replayed log state) :
    ∃ utterances, state = converse utterances ∧
      List.Forall₂ Step.Heard (steps utterances) (spoken log) := by
  induction replayed with
  | fresh => exact ⟨[], rfl, .nil⟩
  | serves _ served ih =>
      obtain ⟨utterances, rfl, heard⟩ := ih
      cases served with
      | shown => exact ⟨utterances, rfl, by simpa [retell] using heard⟩
      | cleared => exact ⟨[], rfl, by simp [retell, steps, stepsFrom]⟩
      | raised _ => exact ⟨utterances, rfl, by simpa [retell_failure] using heard⟩
      | expired => exact ⟨utterances, rfl, by simpa [retell] using heard⟩
      | cancelled => exact ⟨utterances, rfl, by simpa [retell] using heard⟩
      | @replied _ after text intent classify reply done =>
          refine ⟨utterances ++ [⟨text, intent, classify⟩], ?_, ?_⟩
          · rw [converse_append_singleton, takeTurn, done]
          · rw [spoken_append, steps_append_singleton]
            refine List.rel_append heard (.cons ⟨rfl, rfl, ?_⟩ .nil)
            rw [takeTurn, done]

/-- Every session, whatever runs beside it, is in a state that the dialogue of its replies
since its last reset leads to. -/
theorem sessions_converse {settings : Settings Time} {server : Server Time}
    {events : List (Event Time)} (ran : Machine.run (step settings) .initial events = some server)
    {index : Nat} {session : Session Time} (found : server.objects[index]? = some session) :
    ∃ utterances, session.state = converse utterances ∧
      List.Forall₂ Step.Heard (steps utterances) (spoken (server.log index)) :=
  ((run_valid ran).replays index session found).converse

omit [Unicode] in
theorem sessions_converse_two : ∃ (server : Server Nat) (session : Session Nat),
    Machine.run (@step Nat basicUnicode ⟨1, fun _ _ => false⟩) .initial twoChats = some server ∧
      server.objects[0]? = some session ∧
      ∃ utterances, session.state = @converse basicUnicode utterances ∧
        List.Forall₂ Step.Heard (@steps basicUnicode utterances) (spoken (server.log 0)) := by
  obtain ⟨session, both⟩ := Option.isSome_iff_exists.mp (show
    ((Machine.run (@step Nat basicUnicode ⟨1, fun _ _ => false⟩) .initial twoChats).bind
      fun server => server.objects[0]?).isSome = true by decide +kernel)
  obtain ⟨server, ran, found⟩ := Option.bind_eq_some_iff.mp both
  exact ⟨server, session, ran, found, @sessions_converse Nat basicUnicode _ server twoChats ran 0
    session found⟩

end Sessions

end VllmVerifier.CustomerService
