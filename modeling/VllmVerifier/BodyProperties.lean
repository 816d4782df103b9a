import VllmVerifier.ResponseProperties
import VllmVerifier.RouterProperties

/-!
What the middleware makes of a body. Where the server delivers the messages of a
whole body, undisturbed, what comes of them depends on their bytes only: the app
is called with all of them at once, or a 413 is sent.
-/

set_option autoImplicit false

namespace VllmVerifier.Middleware

open Python Machine Router

variable {settings : BoundarySettings}

/-! ## One exchange -/

/-- What the app asked its `receive` for. -/
def asks : Action → Nat
  | .appReceive => 1
  | .message _ | .deadline | .sent | .raised _ | .appReturned => 0

/-- No disconnect and no deadline, and only the app raises. -/
def Calm (exchange : Exchange) : Action → Prop
  | .message .disconnect | .deadline => False
  | .raised _ => exchange.phase = .app
  | .message (.request _ _) | .sent | .appReceive | .appReturned => True

/-- More of the body is awaited. -/
structure Awaiting (settings : BoundarySettings) (read : List Message) (asked : Nat)
    (exchange : Exchange) : Prop where
  phase : exchange.phase = .reading
  continued : ∀ message ∈ read, continues message = some true
  body : exchange.body = read.flatMap chunk
  small : exchange.body.length ≤ settings.maxBodyBytes
  starts : exchange.starts = []
  appCalls : exchange.appCalls = 0
  delivered : exchange.delivered = false
  forwarded : exchange.forwarded = 0
  unasked : asked = 0

/-- The app has been called with the whole body. -/
structure Delivering (settings : BoundarySettings) (read : List Message) (asked : Nat)
    (exchange : Exchange) : Prop where
  phase : exchange.phase = .app ∨ exchange.phase = .left
  whole : Whole read exchange.body
  small : exchange.body.length ≤ settings.maxBodyBytes
  starts : exchange.starts = []
  appCalls : exchange.appCalls = 1
  delivered : exchange.delivered = decide (0 < asked)
  forwarded : exchange.forwarded = asked - 1

/-- The last message that was read took the body over its limit. -/
structure Refusing (settings : BoundarySettings) (read : List Message) (asked : Nat)
    (exchange : Exchange) : Prop where
  phase : (∃ started, exchange.phase = .rejecting 413 true started) ∨ exchange.phase = .left
  body : exchange.body = read.flatMap chunk
  large : settings.maxBodyBytes < exchange.body.length
  last : ∃ earlier message, read = earlier ++ [message] ∧
    (earlier.flatMap chunk).length ≤ settings.maxBodyBytes
  starts : exchange.starts = [413]
  appCalls : exchange.appCalls = 0
  unasked : asked = 0

/-- How far an admitted exchange is, after these messages and this many requests
of the app. -/
inductive Stage (settings : BoundarySettings) (read : List Message) (asked : Nat)
    (exchange : Exchange) : Prop where
  | awaiting : Awaiting settings read asked exchange → Stage settings read asked exchange
  | delivering : Delivering settings read asked exchange → Stage settings read asked exchange
  | refusing : Refusing settings read asked exchange → Stage settings read asked exchange

section Stages

variable {read : List Message} {asked : Nat} {exchange after : Exchange} {action : Action}

theorem Awaiting.advance (awaiting : Awaiting settings read asked exchange)
    (calm : Calm exchange action) (advanced : advance settings exchange action = some after) :
    Stage settings (read ++ reads action) (asked + asks action) after := by
  obtain ⟨phase, continued, body, small, starts, appCalls, delivered, forwarded, unasked⟩ :=
    awaiting
  cases action with
  | message message =>
      simp only [Middleware.advance, phase, Option.some.injEq] at advanced
      subst advanced
      cases message with
      | disconnect => exact calm.elim
      | request part moreBody =>
          have grown : exchange.body ++ part.getD [] =
              (read ++ reads (.message (.request part moreBody))).flatMap chunk := by
            simp [reads, chunk, body]
          unfold Exchange.accept
          dsimp only
          split
          · rename_i large
            exact .refusing ⟨.inl ⟨false, rfl⟩, grown, large, ⟨read, _, rfl, body ▸ small⟩,
              by simp [Exchange.reject, starts], appCalls, unasked⟩
          rename_i within
          split
          · rename_i more
            refine .awaiting ⟨rfl, fun message member => ?_, grown, Nat.le_of_not_lt within, starts,
              appCalls, delivered, forwarded, unasked⟩
            rcases List.mem_append.mp member with before | last
            · exact continued message before
            · rw [List.mem_singleton.mp last]
              exact congrArg some more
          · rename_i ended
            have final : continues (.request part moreBody) = some false := by
              simpa [continues] using ended
            refine .delivering ⟨.inl rfl, ⟨read, _, rfl, continued, final, grown⟩,
              Nat.le_of_not_lt within, starts, by simp [Exchange.callApp, appCalls], ?_, ?_⟩
            · simpa [Exchange.callApp, unasked, asks] using delivered
            · simpa [Exchange.callApp, unasked, asks] using forwarded
  | deadline => exact calm.elim
  | raised timeout => exact absurd (calm.symm.trans phase) (by simp)
  | sent | appReceive | appReturned => simp [Middleware.advance, phase] at advanced

theorem Delivering.advance (delivering : Delivering settings read asked exchange)
    (admitted : exchange.admitted = true) (calm : Calm exchange action)
    (advanced : advance settings exchange action = some after) :
    Delivering settings (read ++ reads action) (asked + asks action) after := by
  obtain ⟨phase, whole, small, starts, appCalls, delivered, forwarded⟩ := delivering
  have left : ∀ {action : Action}, reads action = [] → asks action = 0 →
      Delivering settings (read ++ reads action) (asked + asks action)
        { exchange with phase := .left } := by
    intro action none zero
    rw [none, zero, List.append_nil]
    exact ⟨.inr rfl, whole, small, starts, appCalls, delivered, forwarded⟩
  rcases phase with phase | phase
  · cases action with
    | message | sent => simp [Middleware.advance, phase] at advanced
    | deadline => exact calm.elim
    | raised timeout =>
        simp [Middleware.advance, phase, Exchange.timed] at advanced
        subst advanced
        exact left rfl rfl
    | appReturned =>
        simp [Middleware.advance, phase] at advanced
        subst advanced
        exact left rfl rfl
    | appReceive =>
        simp only [Middleware.advance, phase, admitted, Bool.true_and, if_true] at advanced
        rw [delivered] at advanced
        have same : read ++ reads .appReceive = read := List.append_nil _
        rw [same]
        split at advanced
        · rename_i fresh
          cases advanced
          have first : asked = 0 := by simpa using fresh
          subst first
          exact ⟨.inl rfl, whole, small, starts, appCalls, rfl, forwarded⟩
        · rename_i used
          cases advanced
          have later : 0 < asked := by simpa [Nat.pos_iff_ne_zero] using used
          refine ⟨.inl rfl, whole, small, starts, appCalls, ?_, ?_⟩
          · simp [later]
          · simp only [forwarded, asks]
            omega
  · cases action <;> simp [Middleware.advance, phase, Exchange.timed] at advanced

theorem Refusing.advance (refusing : Refusing settings read asked exchange)
    (calm : Calm exchange action) (advanced : advance settings exchange action = some after) :
    Refusing settings (read ++ reads action) (asked + asks action) after := by
  obtain ⟨phase, body, large, last, starts, appCalls, unasked⟩ := refusing
  rcases phase with ⟨started, phase⟩ | phase
  · cases action with
    | message | appReceive | appReturned => simp [Middleware.advance, phase] at advanced
    | deadline => exact calm.elim
    | raised timeout => exact absurd (calm.symm.trans phase) (by simp)
    | sent =>
        have same : read ++ reads .sent = read := List.append_nil _
        rw [same]
        cases started with
        | false =>
            simp only [Middleware.advance, phase, Option.some.injEq] at advanced
            subst advanced
            exact ⟨.inl ⟨true, rfl⟩, body, large, last, starts, appCalls, unasked⟩
        | true =>
            simp only [Middleware.advance, phase, Option.some.injEq] at advanced
            subst advanced
            exact ⟨.inr rfl, body, large, last, starts, appCalls, unasked⟩
  · cases action <;> simp [Middleware.advance, phase, Exchange.timed] at advanced

theorem Stage.advance (stage : Stage settings read asked exchange)
    (admitted : exchange.admitted = true) (calm : Calm exchange action)
    (advanced : advance settings exchange action = some after) :
    Stage settings (read ++ reads action) (asked + asks action) after := by
  cases stage with
  | awaiting awaiting => exact awaiting.advance calm advanced
  | delivering delivering => exact .delivering (delivering.advance admitted calm advanced)
  | refusing refusing => exact .refusing (refusing.advance calm advanced)

end Stages

/-! ## Runs -/

/-- The event does not disturb this exchange. -/
def Event.calm (index : Nat) (boundary : Boundary) : Event → Prop
  | .call _ => True
  | .act acting action => acting = index → ∀ exchange, boundary.exchanges[index]? = some exchange →
      Calm exchange action

/-- How often the app of an exchange called its `receive`. -/
def requested (index : Nat) (events : List Event) : Nat :=
  events.countP fun event =>
    match event with
    | .act acting .appReceive => decide (acting = index)
    | .act _ (.message _) | .act _ .deadline | .act _ .sent | .act _ (.raised _)
    | .act _ .appReturned | .call _ => false

theorem requested_act (index : Nat) (action : Action) :
    requested index [.act index action] = asks action := by
  cases action with
  | appReceive => simp [requested, asks]
  | message | deadline | sent | raised | appReturned => rfl

theorem requested_other {index acting : Nat} (other : acting ≠ index) (action : Action) :
    requested index [.act acting action] = 0 := by
  cases action with
  | appReceive => simp [requested, other]
  | message | deadline | sent | raised | appReturned => rfl

theorem requested_append (index : Nat) (events : List Event) (event : Event) :
    requested index (events ++ [event]) = requested index events + requested index [event] :=
  List.countP_append

theorem requested_fresh {index : Nat} {events : List Event}
    (fresh : ∀ action, .act index action ∉ events) : requested index events = 0 := by
  apply List.countP_eq_zero.mpr
  intro event member
  cases event with
  | call scope => exact Bool.false_ne_true
  | act acting action =>
      cases action with
      | message | deadline | sent | raised | appReturned => exact Bool.false_ne_true
      | appReceive =>
          have other : acting ≠ index := by
            intro same
            subst same
            exact fresh _ member
          simpa using other

theorem stage_call (settings : BoundarySettings) (active : Int) (scope : Scope)
    (admitted : (call settings active scope).1.admitted = true) :
    Stage settings [] 0 (call settings active scope).1 := by
  unfold call at admitted ⊢
  dsimp only at admitted ⊢
  split at admitted
  · cases admitted
  split at admitted
  · cases admitted
  split at admitted
  · split at admitted
    · cases admitted
    · rename_i web known decision room
      rw [if_neg web, if_neg known, if_pos decision, if_neg room]
      exact .awaiting ⟨rfl, nofun, rfl, Nat.zero_le _, rfl, rfl, rfl, rfl, rfl⟩
  · cases admitted

/-- An admitted exchange that is not disturbed is in one of its stages. -/
structure Upload (settings : BoundarySettings) (index : Nat) (events : List Event)
    (boundary : Boundary) : Prop where
  history : History settings events boundary
  staged : ∀ exchange, boundary.exchanges[index]? = some exchange → exchange.admitted = true →
    Stage settings (uploaded index events) (requested index events) exchange

theorem step_upload {index : Nat} {events : List Event} {boundary next : Boundary} {event : Event}
    (upload : Upload settings index events boundary) (calm : event.calm index boundary)
    (stepped : step settings boundary event = some next) :
    Upload settings index (events ++ [event]) next := by
  refine ⟨step_history upload.history stepped, fun exchange found admitted => ?_⟩
  rw [uploaded_append, requested_append]
  cases event with
  | call scope =>
      cases stepped
      have none : uploaded index [.call scope] = [] := rfl
      have zero : requested index [.call scope] = 0 := rfl
      rw [none, zero, List.append_nil, Nat.add_zero]
      rcases Nat.lt_or_ge index boundary.exchanges.length with before | past
      · rw [List.getElem?_append_left before] at found
        exact upload.staged exchange found admitted
      · have fresh : ∀ action, .act index action ∉ events := fun action member =>
          absurd (upload.history.known index action member) (Nat.not_lt.mpr past)
        rw [List.getElem?_append_right past] at found
        obtain rfl := List.mem_singleton.mp (List.mem_of_getElem? found)
        rw [uploaded_fresh fresh, requested_fresh fresh]
        exact stage_call settings boundary.active scope admitted
  | act acting action =>
      obtain ⟨before, after, located, advanced, exchanges⟩ := act_advance stepped
      have inside := (List.getElem?_eq_some_iff.mp located).1
      rw [exchanges] at found
      by_cases same : acting = index
      · subst same
        rw [List.getElem?_set_self inside] at found
        cases found
        have kept : before.admitted = true := by
          rw [← ((advance_move advanced).2.passed settings).1]
          exact admitted
        rw [uploaded_act, requested_act]
        exact (upload.staged before located kept).advance kept (calm rfl before located) advanced
      · rw [List.getElem?_set_ne same] at found
        rw [uploaded_other same, requested_other same, List.append_nil, Nat.add_zero]
        exact upload.staged exchange found admitted

theorem run_staged {events : List Event} {boundary : Boundary} {index : Nat}
    (ran : run (step settings) initial events = some boundary)
    (calm : Along (step settings) (fun boundary event => event.calm index boundary) initial events)
    {exchange : Exchange} (found : boundary.exchanges[index]? = some exchange)
    (admitted : exchange.admitted = true) :
    Stage settings (uploaded index events) (requested index events) exchange := by
  have start : Upload settings index [] initial := by
    refine ⟨⟨fun _ _ member => ?_, fun _ _ located => ?_⟩, fun _ located => ?_⟩
    · cases member
    · cases located
    · cases located
  have upload := run_history_along
    (fun _ _ _ _ upload calm stepped => step_upload upload calm stepped) calm ran start
  exact upload.staged exchange found admitted

/-! ## Bodies -/

/-- The server delivers these messages to an admitted exchange of a run, which
nothing disturbs. -/
structure Delivers (settings : BoundarySettings) (messages : List Message) (events : List Event)
    (boundary : Boundary) (index : Nat) (exchange : Exchange) : Prop where
  ran : run (step settings) initial events = some boundary
  calm : Along (step settings) (fun boundary event => event.calm index boundary) initial events
  found : boundary.exchanges[index]? = some exchange
  admitted : exchange.admitted = true
  served : uploaded index events <+: messages

/-- What becomes of a whole body: while messages are missing the next one is
awaited; then the app has been called with the body, or a 413 was sent. -/
structure Handled (settings : BoundarySettings) (messages : List Message) (body : Bytes)
    (read : List Message) (asked : Nat) (exchange : Exchange) : Prop where
  buffered : exchange.body = read.flatMap chunk ∧
    (exchange.body.length ≤ settings.maxBodyBytes ∨
      ∃ last ∈ read, exchange.body.length ≤ settings.maxBodyBytes + (chunk last).length)
  awaiting : exchange.phase = .reading → exchange.appCalls = 0 ∧ exchange.starts = [] ∧
    ∃ next after, read ++ [next] <+: messages ∧
      advance settings exchange (.message next) = some after
  accepted : body.length ≤ settings.maxBodyBytes → exchange.phase ≠ .reading →
    read = messages ∧ exchange.appCalls = 1 ∧ exchange.starts = [] ∧ exchange.body = body ∧
      exchange.forwarded = asked - 1 ∧
      (exchange.phase = .app → replay exchange =
        if asked = 0 then some (.request (some body) (some false)) else none)
  refused : settings.maxBodyBytes < body.length → exchange.phase ≠ .reading →
    exchange.appCalls = 0 ∧ exchange.starts = [413] ∧ asked = 0

/-- What the middleware made of a request: its calls of the app, its own
responses, and the body that the app was given. -/
def outcome (exchange : Exchange) : Nat × List Nat × Option Bytes :=
  (exchange.appCalls, exchange.starts,
    if exchange.appCalls = 0 then none else some exchange.body)

section Handling

variable {messages read : List Message} {body : Bytes} {asked : Nat} {exchange : Exchange}

private theorem whole_continues (whole : Whole messages body)
    (early : read <+: messages) (continued : ∀ message ∈ read, continues message = some true) :
    ∃ next, read ++ [next] <+: messages := by
  obtain ⟨more, shape⟩ := early
  cases more with
  | cons next rest => exact ⟨next, rest, by rw [← shape, List.append_assoc, List.singleton_append]⟩
  | nil =>
      obtain ⟨earlier, last, split, _, final, _⟩ := whole
      rw [List.append_nil] at shape
      have known := continued last (by rw [shape, split]; simp)
      rw [final] at known
      cases known

private theorem whole_unique {buffered : Bytes} (whole : Whole messages body)
    (early : read <+: messages) (complete : Whole read buffered) :
    read = messages ∧ buffered = body := by
  obtain ⟨more, shape⟩ := early
  have same : read = messages := by
    cases more with
    | nil => rwa [List.append_nil] at shape
    | cons next rest =>
        obtain ⟨before, last, readShape, _, ended, _⟩ := complete
        obtain ⟨earlier, final, split, continued, _, _⟩ := whole
        have front : read ++ (next :: rest).dropLast = earlier := by
          have cut := congrArg List.dropLast (shape.trans split)
          rwa [List.dropLast_append_of_ne_nil (List.cons_ne_nil _ _), List.dropLast_concat] at cut
        have known := continued last (by rw [← front, readShape]; simp)
        rw [ended] at known
        cases known
  obtain ⟨_, _, _, _, _, bytes⟩ := complete
  obtain ⟨_, _, _, _, _, all⟩ := whole
  exact ⟨same, by rw [bytes, all, same]⟩

private theorem Awaiting.handled (whole : Whole messages body) (early : read <+: messages)
    (awaiting : Awaiting settings read asked exchange) :
    Handled settings messages body read asked exchange := by
  obtain ⟨next, following⟩ := whole_continues whole early awaiting.continued
  have phase := awaiting.phase
  constructor
  · exact ⟨awaiting.body, .inl awaiting.small⟩
  · intro _
    refine ⟨awaiting.appCalls, awaiting.starts, next, exchange.accept settings next, following, ?_⟩
    simp only [Middleware.advance, phase]
  · exact fun _ ended => absurd phase ended
  · exact fun _ ended => absurd phase ended

private theorem Delivering.handled (whole : Whole messages body) (early : read <+: messages)
    (admitted : exchange.admitted = true)
    (delivering : Delivering settings read asked exchange) :
    Handled settings messages body read asked exchange := by
  obtain ⟨same, bytes⟩ := whole_unique whole early delivering.whole
  have ended : exchange.phase ≠ .reading := by
    intro reading
    rcases delivering.phase with phase | phase <;> simp [reading] at phase
  constructor
  · obtain ⟨_, _, _, _, _, all⟩ := delivering.whole
    exact ⟨all, .inl delivering.small⟩
  · exact fun reading => absurd reading ended
  · intro _ _
    refine ⟨same, delivering.appCalls, delivering.starts, bytes, delivering.forwarded, fun _ => ?_⟩
    rw [replay, admitted, delivering.delivered, bytes]
    cases asked with
    | zero => rfl
    | succ count => simp
  · intro large
    rw [← bytes] at large
    exact absurd delivering.small (Nat.not_le_of_lt large)

private theorem Refusing.handled (whole : Whole messages body) (early : read <+: messages)
    (refusing : Refusing settings read asked exchange) :
    Handled settings messages body read asked exchange := by
  have ended : exchange.phase ≠ .reading := by
    intro reading
    rcases refusing.phase with ⟨started, phase⟩ | phase <;> simp [reading] at phase
  constructor
  · obtain ⟨earlier, message, split, small⟩ := refusing.last
    refine ⟨refusing.body, .inr ⟨message, by simp [split], ?_⟩⟩
    rw [refusing.body, split, List.flatMap_append, List.length_append, List.flatMap_singleton]
    exact Nat.add_le_add_right small _
  · exact fun reading => absurd reading ended
  · intro small _
    obtain ⟨more, shape⟩ := early
    obtain ⟨_, _, _, _, _, all⟩ := whole
    have large := refusing.large
    rw [refusing.body] at large
    rw [all, ← shape, List.flatMap_append, List.length_append] at small
    omega
  · exact fun _ _ => ⟨refusing.appCalls, refusing.starts, refusing.unasked⟩

theorem Stage.handled (whole : Whole messages body) (early : read <+: messages)
    (admitted : exchange.admitted = true) (stage : Stage settings read asked exchange) :
    Handled settings messages body read asked exchange := by
  cases stage with
  | awaiting awaiting => exact awaiting.handled whole early
  | delivering delivering => exact delivering.handled whole early admitted
  | refusing refusing => exact refusing.handled whole early

theorem Handled.outcome (handled : Handled settings messages body read asked exchange)
    (ended : exchange.phase ≠ .reading) :
    Middleware.outcome exchange =
      if body.length ≤ settings.maxBodyBytes then (1, [], some body) else (0, [413], none) := by
  unfold Middleware.outcome
  by_cases small : body.length ≤ settings.maxBodyBytes
  · obtain ⟨_, appCalls, starts, bytes, _⟩ := handled.accepted small ended
    rw [if_pos small, appCalls, starts, bytes]
    rfl
  · obtain ⟨appCalls, starts, _⟩ := handled.refused (Nat.lt_of_not_le small) ended
    rw [if_neg small, appCalls, starts]
    rfl

end Handling

/-- A whole body is handled by its bytes: within the limit the app is called
once, with all of them, and else a 413 is sent; so the chunks do not matter. -/
theorem body_decides_outcome {messages : List Message} {body : Bytes}
    (whole : Whole messages body) {events : List Event} {boundary : Boundary} {index : Nat}
    {exchange : Exchange}
    (delivers : Delivers settings messages events boundary index exchange) :
    Handled settings messages body (uploaded index events) (requested index events) exchange ∧
      ∀ messages' events' boundary' index' exchange', Whole messages' body →
        Delivers settings messages' events' boundary' index' exchange' →
          exchange.phase ≠ .reading → exchange'.phase ≠ .reading →
            outcome exchange' = outcome exchange := by
  have handle : ∀ {messages events boundary index exchange}, Whole messages body →
      Delivers settings messages events boundary index exchange →
        Handled settings messages body (uploaded index events) (requested index events)
          exchange := by
    intro messages events boundary index exchange whole delivers
    exact (run_staged delivers.ran delivers.calm delivers.found delivers.admitted).handled whole
      delivers.served delivers.admitted
  have handled := handle whole delivers
  refine ⟨handled, fun messages' events' boundary' index' exchange' whole' delivers' => ?_⟩
  intro ended ended'
  rw [handled.outcome ended, (handle whole' delivers').outcome ended']

/-! An upload in two chunks, the last of them without a body; then the app reads
twice. -/

def chunkedBody : List Message := [.request (some [1]) (some true), .request none none]

def chunkedUpload : List Event :=
  [.call ⟨true, lit "/v1/systemone", []⟩, .act 0 (.message (.request (some [1]) (some true))),
    .act 0 (.message (.request none none)), .act 0 .appReceive, .act 0 .appReceive]

theorem body_decides_outcome_chunked :
    ∃ boundary exchange, run (step uploadSettings) initial chunkedUpload = some boundary ∧
      boundary.exchanges = [exchange] ∧ outcome exchange = (1, [], some [1]) ∧
        Handled uploadSettings chunkedBody [1] chunkedBody 2 exchange := by
  have whole : Whole chunkedBody [1] := by
    refine ⟨[.request (some [1]) (some true)], .request none none, rfl, ?_, rfl, rfl⟩
    exact List.forall_mem_singleton.mpr rfl
  have calm : Along (step uploadSettings) (fun boundary event => event.calm 0 boundary) initial
      chunkedUpload := by
    refine along_of_forall (fun boundary event member => ?_) initial
    simp only [chunkedUpload, List.mem_cons, List.not_mem_nil, or_false] at member
    rcases member with rfl | rfl | rfl | rfl | rfl <;> simp [Event.calm, Calm]
  let exchange : Exchange :=
    ⟨⟨true, lit "/v1/systemone", []⟩, .app, true, [1], true, 2, [], 1, 1⟩
  have ran : run (step uploadSettings) initial chunkedUpload = some ⟨1, [exchange]⟩ := rfl
  have delivers : Delivers uploadSettings chunkedBody chunkedUpload ⟨1, [exchange]⟩ 0 exchange :=
    ⟨ran, calm, rfl, rfl, List.prefix_refl chunkedBody⟩
  exact ⟨_, exchange, ran, rfl, rfl, (body_decides_outcome whole delivers).1⟩

end VllmVerifier.Middleware
