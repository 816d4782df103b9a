import VllmVerifier.MiddlewareProperties
import VllmVerifier.Router

/-!
Two classifications of one path. A decision handler runs behind the admission
and body limits exactly for the paths on which the middleware and the router
agree, which leaves out the decision paths with a final newline.
-/

set_option autoImplicit false

namespace VllmVerifier.Router

open Python Machine Middleware

variable {settings : BoundarySettings}

/-! ## Paths -/

/-- The paths that the router takes for decision paths and the middleware does not. -/
def bypasses : List Str := decisionPaths.map fun path => path ++ lit "\n"

theorem literalMatch_iff {literal path : Str} :
    literalMatch literal path = true ↔ path = literal ∨ path = literal ++ lit "\n" := by
  unfold literalMatch dollar
  rw [Bool.and_eq_true, List.isPrefixOf_iff_prefix, decide_eq_true_eq]
  constructor
  · intro given
    obtain ⟨⟨rest, rfl⟩, final⟩ := given
    rw [List.drop_left] at final
    rcases final with rfl | rfl
    · exact .inl (List.append_nil _)
    · exact .inr rfl
  · rintro (rfl | rfl)
    · exact ⟨List.prefix_refl _, .inl (List.drop_length ..)⟩
    · exact ⟨List.prefix_append _ _, .inr List.drop_left⟩

/-- Decision handlers serve the decision paths and their bypasses, on POST. -/
theorem dispatch_decides {method path : Str} {endpoint : Endpoint}
    (dispatched : dispatch method path = some endpoint) (decides : endpoint.decides = true) :
    path ∈ decisionPaths ∨ path ∈ bypasses := by
  unfold dispatch at dispatched
  obtain ⟨route, found, rfl⟩ := Option.map_eq_some_iff.mp dispatched
  have known := List.find?_some found
  obtain ⟨_, matched⟩ := Bool.and_eq_true_iff.mp known
  have member := List.mem_of_find?_eq_some found
  simp only [routes, List.mem_cons, List.not_mem_nil, or_false] at member
  rcases member with rfl | rfl | rfl | rfl | rfl | rfl
  · cases decides
  · cases decides
  · cases decides
  · cases decides
  · rcases literalMatch_iff.mp matched with rfl | rfl <;> simp [decisionPaths, bypasses]
  · rcases literalMatch_iff.mp matched with rfl | rfl <;> simp [decisionPaths, bypasses]

theorem dispatch_bypass {path : Str} (bypass : path ∈ bypasses) :
    (dispatch (lit "POST") path).any Endpoint.decides = true := by
  simp only [bypasses, decisionPaths, List.map_cons, List.map_nil, List.mem_cons,
    List.not_mem_nil, or_false] at bypass
  rcases bypass with rfl | rfl <;> decide

/-! ## Uploads -/

/-- An admitted exchange whose body was read: whole, within its limit and in time. -/
structure Guarded (settings : BoundarySettings) (messages : List Middleware.Message) (late : Prop)
    (exchange : Exchange) : Prop where
  admitted : exchange.admitted = true
  whole : Whole messages exchange.body
  small : exchange.body.length ≤ settings.maxBodyBytes
  timely : ¬ late

/-- What the messages that were read say of an exchange. -/
def Tracked (settings : BoundarySettings) (messages : List Middleware.Message) (late : Prop)
    (exchange : Exchange) : Prop :=
  match exchange.phase with
  | .reading => exchange.admitted = true ∧
      (∀ message ∈ messages, continues message = some true) ∧
        exchange.body = messages.flatMap chunk ∧
          exchange.body.length ≤ settings.maxBodyBytes ∧ ¬ late
  | .app => (exchange.scope.http = true → exchange.scope.path ∈ decisionPaths →
      exchange.admitted = true) ∧
    (exchange.admitted = true → Guarded settings messages late exchange)
  | .rejecting .. | .left => True

/-- What an action reads. -/
def reads : Action → List Middleware.Message
  | .message message => [message]
  | .deadline | .sent | .raised _ | .appReceive | .appReturned => []

theorem Tracked.advance {messages : List Middleware.Message} {late : Prop}
    {exchange after : Exchange}
    {action : Action} (tracked : Tracked settings messages late exchange)
    (advanced : advance settings exchange action = some after) :
    Tracked settings (messages ++ reads action) (late ∨ action = .deadline) after := by
  unfold Tracked at tracked
  cases action with
  | message message =>
      simp only [Middleware.advance] at advanced
      cases phase : exchange.phase with
      | rejecting | app | left => simp [phase] at advanced
      | reading =>
          simp only [phase, Option.some.injEq] at advanced tracked
          subst advanced
          obtain ⟨admitted, earlier, body, small, timely⟩ := tracked
          cases message with
          | disconnect => trivial
          | request part moreBody =>
              have grown : exchange.body ++ part.getD [] =
                  (messages ++ reads (.message (.request part moreBody))).flatMap chunk := by
                simp [reads, chunk, body]
              have timely' : ¬ (late ∨ Action.message (.request part moreBody) = .deadline) :=
                fun known => known.elim timely (by simp)
              unfold Exchange.accept
              dsimp only
              split
              · trivial
              rename_i within
              have small' := Nat.le_of_not_lt within
              split
              · rename_i more
                refine ⟨admitted, fun message member => ?_, grown, small', timely'⟩
                rcases List.mem_append.mp member with before | last
                · exact earlier message before
                · rw [List.mem_singleton.mp last]
                  exact congrArg some more
              · rename_i ended
                have final : continues (.request part moreBody) = some false := by
                  simpa [continues] using ended
                refine ⟨fun _ _ => admitted, fun _ => ⟨admitted, ?_, small', timely'⟩⟩
                exact ⟨messages, _, rfl, earlier, final, grown⟩
  | deadline =>
      simp only [Middleware.advance] at advanced
      split at advanced
      · cases advanced
        trivial
      · cases advanced
  | sent =>
      simp only [Middleware.advance] at advanced
      split at advanced
      · cases advanced
        trivial
      · cases advanced
        trivial
      · cases advanced
      · cases advanced
      · cases advanced
  | raised timeout =>
      simp only [Middleware.advance] at advanced
      split at advanced
      · cases advanced
      split at advanced <;>
        · cases advanced
          trivial
  | appReceive =>
      simp only [Middleware.advance] at advanced
      split at advanced
      · rename_i phase
        rw [phase] at tracked
        have same : Tracked settings messages late after := by
          split at advanced <;>
            · cases advanced
              unfold Tracked
              dsimp only
              rw [phase]
              exact ⟨tracked.1, fun admitted =>
                ⟨admitted, (tracked.2 admitted).whole, (tracked.2 admitted).small,
                  (tracked.2 admitted).timely⟩⟩
        simpa [reads] using same
      · cases advanced
  | appReturned =>
      simp only [Middleware.advance] at advanced
      split at advanced
      · cases advanced
        trivial
      · cases advanced

theorem tracked_call (settings : BoundarySettings) (active : Int) (scope : Scope) :
    Tracked settings [] False (call settings active scope).1 := by
  unfold call
  dsimp only
  split
  · rename_i other
    refine ⟨fun http => ?_, nofun⟩
    change scope.http = true at http
    simp [http] at other
  split
  · trivial
  split
  · split
    · trivial
    · exact ⟨rfl, nofun, rfl, Nat.zero_le _, id⟩
  · rename_i elsewhere
    exact ⟨fun _ decision => absurd decision elsewhere, nofun⟩

/-! ## Runs -/

/-- What the events so far say of every exchange. -/
structure History (settings : BoundarySettings) (events : List Event) (boundary : Boundary) :
    Prop where
  known : ∀ index action, .act index action ∈ events → index < boundary.exchanges.length
  each : ∀ (index : Nat) exchange, boundary.exchanges[index]? = some exchange →
    Tracked settings (uploaded index events) (.act index .deadline ∈ events) exchange

theorem uploaded_append (index : Nat) (events : List Event) (event : Event) :
    uploaded index (events ++ [event]) = uploaded index events ++ uploaded index [event] :=
  List.filterMap_append ..

theorem uploaded_act (index : Nat) (action : Action) :
    uploaded index [.act index action] = reads action := by
  cases action with
  | message message => simp [uploaded, reads]
  | deadline | sent | raised | appReceive | appReturned => rfl

theorem uploaded_other {index acting : Nat} (other : acting ≠ index) (action : Action) :
    uploaded index [.act acting action] = [] := by
  cases action with
  | message message => simp [uploaded, other]
  | deadline | sent | raised | appReceive | appReturned => rfl

theorem uploaded_fresh {index : Nat} {events : List Event}
    (fresh : ∀ action, .act index action ∉ events) : uploaded index events = [] := by
  refine List.filterMap_eq_nil_iff.mpr fun event member => ?_
  cases event with
  | call scope => rfl
  | act acting action =>
      cases action with
      | deadline | sent | raised | appReceive | appReturned => rfl
      | message message =>
          have other : acting ≠ index := by
            intro same
            subst same
            exact fresh _ member
          exact if_neg other

theorem step_history {events : List Event} {boundary next : Boundary} {event : Event}
    (history : History settings events boundary)
    (stepped : step settings boundary event = some next) :
    History settings (events ++ [event]) next := by
  cases event with
  | call scope =>
      cases stepped
      have added : ∀ index, uploaded index (events ++ [.call scope]) = uploaded index events := by
        intro index
        rw [uploaded_append]
        exact List.append_nil _
      have same : ∀ index action, Event.act index action ∈ events ++ [.call scope] ↔
          .act index action ∈ events := by simp
      constructor
      · intro index action member
        have before := history.known index action ((same _ _).mp member)
        simp only [List.length_append]
        omega
      · intro index exchange found
        rw [added, same]
        rcases Nat.lt_or_ge index boundary.exchanges.length with before | past
        · rw [List.getElem?_append_left before] at found
          exact history.each index exchange found
        · have fresh : ∀ action, .act index action ∉ events := fun action member =>
            absurd (history.known index action member) (Nat.not_lt.mpr past)
          rw [List.getElem?_append_right past] at found
          rw [List.mem_singleton.mp (List.mem_of_getElem? found), uploaded_fresh fresh,
            eq_false (fresh .deadline)]
          exact tracked_call settings boundary.active scope
  | act acting action =>
      obtain ⟨before, after, located, advanced, exchanges⟩ := act_advance stepped
      have inside := (List.getElem?_eq_some_iff.mp located).1
      constructor
      · intro index other member
        rw [exchanges, List.length_set]
        rcases List.mem_append.mp member with earlier | last
        · exact history.known index other earlier
        · cases List.mem_singleton.mp last
          exact inside
      · intro index exchange found
        rw [exchanges] at found
        rw [uploaded_append]
        by_cases same : acting = index
        · subst same
          rw [List.getElem?_set_self inside] at found
          cases found
          have tracked := (history.each acting before located).advance advanced
          have late : (Event.act acting .deadline ∈ events ++ [.act acting action]) =
              (.act acting .deadline ∈ events ∨ action = .deadline) := by
            simp [eq_comm]
          rw [uploaded_act, late]
          exact tracked
        · rw [List.getElem?_set_ne same] at found
          have late : (Event.act index .deadline ∈ events ++ [.act acting action]) =
              (.act index .deadline ∈ events) := by
            simp [Ne.symm same]
          rw [uploaded_other same, List.append_nil, late]
          exact history.each index exchange found

theorem run_tracked {events : List Event} {boundary : Boundary}
    (ran : run (step settings) initial events = some boundary) {index : Nat} {exchange : Exchange}
    (found : boundary.exchanges[index]? = some exchange) :
    Tracked settings (uploaded index events) (.act index .deadline ∈ events) exchange := by
  have start : History settings [] initial :=
    ⟨fun _ _ member => (by cases member), fun _ _ found => (by cases found)⟩
  have history :=
    run_history (fun _ _ _ _ history stepped => step_history history stepped) ran start
  exact history.each index exchange found

theorem handling_guarded {events : List Event} {boundary : Boundary}
    (ran : run (step settings) initial events = some boundary) {index : Nat} {exchange : Exchange}
    (found : boundary.exchanges[index]? = some exchange) {method : Str}
    (handles : handling method exchange = true) (agreed : exchange.scope.path ∉ bypasses) :
    Guarded settings (uploaded index events) (.act index .deadline ∈ events) exchange := by
  have tracked := run_tracked ran found
  simp only [handling, Bool.and_eq_true, decide_eq_true_eq] at handles
  obtain ⟨⟨http, phase⟩, dispatched⟩ := handles
  obtain ⟨endpoint, selected, decides⟩ := (Option.any_eq_true ..).mp dispatched
  unfold Tracked at tracked
  rw [phase] at tracked
  have decision : exchange.scope.path ∈ decisionPaths :=
    (dispatch_decides selected decides).resolve_right agreed
  exact tracked.2 (tracked.1 http decision)

/-- The handlers that run are among the exchanges that the counter counts. -/
theorem handlers_le {events : List Event} {boundary : Boundary}
    (ran : run (step settings) initial events = some boundary)
    (agreed : ∀ exchange ∈ boundary.exchanges, exchange.scope.http = true →
      exchange.scope.path ∉ bypasses) (methods : Nat → Str) :
    (boundary.exchanges.zipIdx.countP fun item => handling (methods item.2) item.1) ≤
      boundary.exchanges.countP (inside settings) := by
  have counted := run_counted ran
  have covered : (boundary.exchanges.zipIdx.countP fun item => handling (methods item.2) item.1) ≤
      boundary.exchanges.zipIdx.countP (inside settings ∘ Prod.fst) := by
    refine List.countP_mono_left fun item member handles => ?_
    obtain ⟨exchange, index⟩ := item
    have found := List.mk_mem_zipIdx_iff_getElem?.mp member
    have present := List.mem_of_getElem? found
    have http : exchange.scope.http = true ∧ exchange.phase = .app := by
      simp only [handling, Bool.and_eq_true, decide_eq_true_eq] at handles
      exact handles.1
    have guarded := handling_guarded ran found handles (agreed exchange present http.1)
    have sound := counted.sound exchange present
    simp [inside, ← sound.slot, guarded.admitted, http.2]
  rwa [← List.countP_map, List.zipIdx_map_fst] at covered

theorem bypass_called (settings : BoundarySettings) (active : Int) {path : Str}
    (bypass : path ∈ bypasses) : ∃ exchange,
      call settings active ⟨true, path, [(lit "authorization",
        lit "Bearer " ++ settings.apiKey.getD [])]⟩ = (exchange, active) ∧
      exchange.scope.path = path ∧ exchange.admitted = false ∧
        handling (lit "POST") exchange = true := by
  have other : path ∉ decisionPaths := by
    simp only [bypasses, decisionPaths, List.map_cons, List.map_nil, List.mem_cons,
      List.not_mem_nil, or_false] at bypass
    rcases bypass with rfl | rfl <;> decide
  have known : authenticated settings ⟨true, path, [(lit "authorization",
      lit "Bearer " ++ settings.apiKey.getD [])]⟩ = true := by
    simp [authenticated, Dict.ofPairs]
  let exchange : Exchange := ⟨⟨true, path, [(lit "authorization",
    lit "Bearer " ++ settings.apiKey.getD [])]⟩, .left, false, [], false, 0, [], 0, 0⟩
  refine ⟨exchange.callApp, ?_, rfl, rfl, ?_⟩
  · unfold call
    dsimp only
    rw [if_neg (by simp), if_neg (by simp [known]), if_neg other]
  · have dispatched := dispatch_bypass bypass
    simp only [handling, Exchange.callApp, decide_true]
    exact dispatched

/-- On every path but the bypasses, and on no bypass, a decision handler only
runs for a request that is admitted and whose whole body was read within its
limit and in time; where no request takes a bypass, the handlers that run at
once are no more than the requests admitted. -/
theorem decision_handlers_guarded_iff (settings : BoundarySettings) :
    (∀ path, (∀ events boundary (index : Nat) exchange method,
      run (step settings) initial events = some boundary →
        boundary.exchanges[index]? = some exchange → exchange.scope.path = path →
          handling method exchange = true →
            Guarded settings (uploaded index events) (.act index .deadline ∈ events) exchange) ↔
      path ∉ bypasses) ∧
    ∀ events boundary, run (step settings) initial events = some boundary →
      (∀ exchange ∈ boundary.exchanges, exchange.scope.http = true →
        exchange.scope.path ∉ bypasses) →
      ∀ methods : Nat → Str,
        ((boundary.exchanges.zipIdx.countP fun item => handling (methods item.2) item.1 : Nat) :
          Int) ≤ boundary.active ∧ boundary.active ≤ settings.maxRequests := by
  constructor
  · intro path
    constructor
    · intro guarded bypass
      obtain ⟨exchange, called, same, admitted, handles⟩ := bypass_called settings 0 bypass
      have ran : run (step settings) initial [.call ⟨true, path, [(lit "authorization",
          lit "Bearer " ++ settings.apiKey.getD [])]⟩] = some ⟨0, [exchange]⟩ := by
        simp [run, step, initial, called]
      have held := guarded _ _ 0 exchange _ ran rfl same handles
      rw [held.admitted] at admitted
      cases admitted
    · intro agreed events boundary index exchange method ran found same handles
      exact handling_guarded ran found handles (same ▸ agreed)
  · intro events boundary ran agreed methods
    have counted := run_counted ran
    have covered := handlers_le ran agreed methods
    have count := counted.count
    exact ⟨by omega, counted.bounded⟩

/-! A POST to a decision path with a final newline, and no slot taken. -/

theorem decision_handlers_guarded_newline :
    ∃ boundary, run (step ⟨none, 1, 1024, by decide, by decide⟩) initial
        [.call ⟨true, lit "/v1/systemone\n", []⟩, .call ⟨true, lit "/v1/systemone\n", []⟩] =
          some boundary ∧ boundary.active = 0 ∧
      boundary.exchanges.countP (handling (lit "POST")) = 2 ∧
      boundary.exchanges.map Exchange.receives = [0, 0] := by
  have reached : (run (step ⟨none, 1, 1024, by decide, by decide⟩) initial
      [.call ⟨true, lit "/v1/systemone\n", []⟩, .call ⟨true, lit "/v1/systemone\n", []⟩]).map
        (fun boundary => (boundary.active, boundary.exchanges.countP (handling (lit "POST")),
          boundary.exchanges.map Exchange.receives)) = some (0, 2, [0, 0]) := by decide +kernel
  obtain ⟨boundary, ran, shape⟩ := Option.map_eq_some_iff.mp reached
  obtain ⟨active, rest⟩ := Prod.mk.inj shape
  obtain ⟨handlers, receives⟩ := Prod.mk.inj rest
  exact ⟨boundary, ran, active, handlers, receives⟩

end VllmVerifier.Router
