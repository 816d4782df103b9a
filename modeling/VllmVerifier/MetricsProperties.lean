import VllmVerifier.AnswerProperties
import VllmVerifier.Metrics
import VllmVerifier.ResponseProperties

/-!
The metrics are exact. Each exchange is counted once, when it leaves, under the
status that it sent last, and everything that it sent carries its identifier.
-/

set_option autoImplicit false

namespace VllmVerifier.Middleware

open Python Json Machine

variable {settings : BoundarySettings} {render : Renderer}

/-! ## Responses -/

def Reply.status? : Reply → Option Nat
  | .start status _ => some status
  | .body _ _ => none

/-- The status of the last response start, or that of a request that got none. -/
def lastStatus (sent : List Reply) : Nat := (sent.filterMap Reply.status?).getLast?.getD 500

/-- What a rejection sends first. -/
def rejectionStart (render : Renderer) (code : Nat) (requestId : Str) : Reply :=
  .start code ((render (rejectionContent code requestId) (retryAfter code)).1 ++ marks requestId)

/-- What it sends then. -/
def rejectionBody (render : Renderer) (code : Nat) (requestId : Str) : Reply :=
  .body (render (rejectionContent code requestId) (retryAfter code)).2 false

/-- The phase of an exchange tells what it has started. -/
structure Placed (exchange : Exchange) : Prop where
  rejecting : ∀ code timed started, exchange.phase = .rejecting code timed started →
    code ∈ exchange.starts
  serving : exchange.phase = .app → exchange.appCalls ≠ 0

theorem Placed.of_phase {exchange : Exchange}
    (other : ∀ code timed started, exchange.phase ≠ .rejecting code timed started)
    (serving : exchange.phase = .app → exchange.appCalls ≠ 0) : Placed exchange :=
  ⟨fun code timed started phase => absurd phase (other code timed started), serving⟩

theorem Placed.reject (exchange : Exchange) (code : Nat) (timed : Bool) :
    Placed (exchange.reject code timed) := by
  refine ⟨fun other _ _ phase => ?_, fun phase => by cases phase⟩
  cases phase
  exact List.mem_append_right _ (List.mem_singleton_self _)

theorem Placed.callApp (exchange : Exchange) : Placed exchange.callApp :=
  .of_phase (fun _ _ _ phase => by cases phase) fun _ => Nat.succ_ne_zero _

theorem Placed.awaitBody (exchange : Exchange) : Placed exchange.awaitBody :=
  .of_phase (fun _ _ _ phase => by cases phase) fun phase => by cases phase

theorem Move.placed {exchange next : Exchange} (move : Move exchange next)
    (placed : Placed exchange) : Placed next := by
  cases move with
  | leave => exact .of_phase (by simp) (by simp)
  | start code timed phase =>
      refine ⟨fun other _ _ same => ?_, fun same => by cases same⟩
      cases same
      exact placed.rejecting code timed false phase
  | reject code timed body _ _ => exact .reject _ code timed
  | read body phase => exact .awaitBody _
  | serve body phase => exact .callApp _
  | deliver delivered forwarded phase => exact ⟨placed.rejecting, placed.serving⟩

/-- What a record knows of its exchange. -/
structure Record.Sound (render : Renderer) (exchange : Exchange) (record : Record) : Prop where
  status : record.status = lastStatus record.sent
  marked : ∀ status headers, .start status headers ∈ record.sent →
    ∃ own, headers = own ++ marks record.requestId
  rejections : ∀ code ∈ exchange.starts, rejectionStart render code record.requestId ∈ record.sent
  own : exchange.appCalls = 0 → ∀ reply ∈ record.sent, ∃ code ∈ exchange.starts,
    reply = rejectionStart render code record.requestId ∨
      reply = rejectionBody render code record.requestId

theorem Record.Sound.congr {exchange next : Exchange} {record : Record}
    (sound : record.Sound render exchange) (starts : next.starts = exchange.starts)
    (calls : next.appCalls = 0 → exchange.appCalls = 0) : record.Sound render next :=
  ⟨sound.status, sound.marked, starts ▸ sound.rejections,
    fun none => starts ▸ sound.own (calls none)⟩

theorem Record.Sound.opened {exchange : Exchange} (none : exchange.starts = [])
    (requestId : Str) : (Record.opened requestId).Sound render exchange := by
  refine ⟨rfl, fun _ _ member => (by cases member), fun code member => ?_,
    fun _ _ member => (by cases member)⟩
  rw [none] at member
  cases member

/-- A response start sets the status, and gets its marks. -/
theorem Record.Sound.sendStart {exchange next : Exchange} {record : Record} {status : Nat}
    {headers : List (Bytes × Bytes)} (sound : record.Sound render exchange)
    (rejections : ∀ code ∈ next.starts, code ∈ exchange.starts ∨
      rejectionStart render code record.requestId =
        .start status (headers ++ marks record.requestId))
    (own : next.appCalls = 0 → exchange.appCalls = 0 ∧ (∀ code ∈ exchange.starts,
      code ∈ next.starts) ∧ ∃ code ∈ next.starts,
        .start status (headers ++ marks record.requestId) =
          rejectionStart render code record.requestId) :
    (record.sendResponse (.start status headers)).Sound render next := by
  refine ⟨?_, fun other otherHeaders member => ?_, fun code member => ?_,
    fun none reply member => ?_⟩
  · simp [Record.sendResponse, lastStatus, Reply.status?]
  · rcases List.mem_append.mp member with earlier | last
    · exact sound.marked other otherHeaders earlier
    · cases List.mem_singleton.mp last
      exact ⟨headers, rfl⟩
  · rcases rejections code member with earlier | same
    · exact List.mem_append_left _ (sound.rejections code earlier)
    · exact List.mem_append_right _ (List.mem_singleton.mpr same)
  · obtain ⟨idle, more, code, started, same⟩ := own none
    rcases List.mem_append.mp member with earlier | last
    · obtain ⟨other, known, sent⟩ := sound.own idle reply earlier
      exact ⟨other, more other known, sent⟩
    · exact ⟨code, started, .inl ((List.mem_singleton.mp last).trans same)⟩

theorem Record.Sound.sendBody {exchange : Exchange} {record : Record} {body : Bytes}
    {moreBody : Bool} (sound : record.Sound render exchange)
    (own : exchange.appCalls = 0 → ∃ code ∈ exchange.starts,
      .body body moreBody = rejectionBody render code record.requestId) :
    (record.sendResponse (.body body moreBody)).Sound render exchange := by
  refine ⟨?_, fun other otherHeaders member => ?_, fun code member => ?_,
    fun none reply member => ?_⟩
  · simpa [Record.sendResponse, lastStatus, Reply.status?] using sound.status
  · rcases List.mem_append.mp member with earlier | last
    · exact sound.marked other otherHeaders earlier
    · cases List.mem_singleton.mp last
  · exact List.mem_append_left _ (sound.rejections code member)
  · rcases List.mem_append.mp member with earlier | last
    · exact sound.own none reply earlier
    · obtain ⟨code, started, same⟩ := own none
      exact ⟨code, started, .inr ((List.mem_singleton.mp last).trans same)⟩

/-- What the app sends says nothing of rejections. -/
theorem Record.Sound.response {exchange : Exchange} {record : Record}
    (sound : record.Sound render exchange) (called : exchange.appCalls ≠ 0) (reply : Reply) :
    (record.sendResponse reply).Sound render exchange := by
  cases reply with
  | start status headers =>
      exact sound.sendStart (fun _ member => .inl member) fun none => absurd none called
  | body body moreBody => exact sound.sendBody fun none => absurd none called

/-- A rejection that starts is sent before the exchange awaits again. -/
theorem Record.Sound.reject {exchange next : Exchange} {record : Record} {code : Nat}
    {timed : Bool} {earlier : Option Phase} (sound : record.Sound render exchange)
    (fresh : earlier ≠ some (.rejecting code timed false))
    (phase : next.phase = .rejecting code timed false)
    (starts : next.starts = exchange.starts ++ [code])
    (calls : next.appCalls = exchange.appCalls) :
    (record.follow render earlier next).Sound render next := by
  have followed : record.follow render earlier next = record.sendResponse (.start code
      (render (rejectionContent code record.requestId) (retryAfter code)).1) := by
    rw [Record.follow, phase, if_neg fresh]
  have last : code ∈ next.starts := by simp [starts]
  rw [followed]
  refine sound.sendStart (fun other member => ?_) fun none => ?_
  · rw [starts] at member
    rcases List.mem_append.mp member with before | same
    · exact .inl before
    · rw [List.mem_singleton.mp same]
      exact .inr rfl
  · refine ⟨calls ▸ none, fun other member => ?_, code, last, rfl⟩
    rw [starts]
    exact List.mem_append_left _ member

/-- Between rejections an exchange sends their bodies and nothing else. -/
theorem Record.Sound.follow {exchange next : Exchange} {record : Record}
    {earlier : Option Phase} (sound : record.Sound render exchange) (placed : Placed next)
    (other : ∀ code timed, next.phase ≠ .rejecting code timed false)
    (starts : next.starts = exchange.starts)
    (calls : next.appCalls = 0 → exchange.appCalls = 0) :
    (record.follow render earlier next).Sound render next := by
  have kept := sound.congr starts calls
  unfold Record.follow
  split
  · exact kept
  · split
    · rename_i phase
      exact absurd phase (other _ _)
    · rename_i phase
      exact kept.sendBody fun _ => ⟨_, placed.rejecting _ _ _ phase, rfl⟩
    all_goals exact kept

/-- A rejection is one that the exchange had not started before. -/
theorem advance_rejecting {exchange next : Exchange} {action : Action} {code : Nat} {timed : Bool}
    (advanced : advance settings exchange action = some next)
    (phase : next.phase = .rejecting code timed false) :
    exchange.phase ≠ .rejecting code timed false := by
  intro same
  cases action with
  | message message => simp [advance, same] at advanced
  | deadline =>
      rw [advance] at advanced
      split at advanced
      · rename_i running
        cases advanced
        cases phase
        simp [Exchange.timed, same] at running
      · cases advanced
  | sent =>
      simp only [advance, same, Option.some.injEq] at advanced
      subst advanced
      cases phase
  | raised timeout =>
      rw [advance, if_neg (by simp [same])] at advanced
      split at advanced
      · rename_i both
        cases advanced
        cases phase
        simp [Exchange.timed, same] at both
      · cases advanced
        cases phase
  | appReceive => simp [advance, same] at advanced
  | appReturned => simp [advance, same] at advanced

theorem advance_follow {exchange next : Exchange} {action : Action} {record : Record}
    (advanced : advance settings exchange action = some next) (placed : Placed exchange)
    (sound : record.Sound render exchange) :
    (record.follow render (some exchange.phase) next).Sound render next := by
  obtain ⟨_, move⟩ := advance_move advanced
  have later := move.placed placed
  cases move with
  | leave => exact sound.follow later (fun _ _ => by simp) rfl id
  | start code timed phase => exact sound.follow later (fun _ _ => by simp) rfl id
  | reject code timed body _ _ =>
      refine sound.reject (fun same => ?_) rfl rfl rfl
      exact advance_rejecting advanced rfl (Option.some.inj same)
  | read body phase => exact sound.follow later (fun _ _ => by simp [Exchange.awaitBody]) rfl id
  | serve body phase =>
      exact sound.follow later (fun _ _ => by simp [Exchange.callApp]) rfl fun none => by cases none
  | deliver delivered forwarded phase =>
      exact sound.follow later (fun _ _ => by simp [phase]) rfl id

/-- A call, with the record of what it has sent at its first await. -/
theorem call_follow (settings : BoundarySettings) (render : Renderer) (active : Int)
    (scope : Scope) (requestId : Str) :
    Placed (call settings active scope).1 ∧
      ((Record.opened requestId).follow render none (call settings active scope).1).Sound render
        (call settings active scope).1 := by
  have opened := @Record.Sound.opened render ⟨scope, .left, false, [], false, 0, [], 0, 0⟩ rfl
    requestId
  have app := Placed.callApp ⟨scope, .left, false, [], false, 0, [], 0, 0⟩
  have passed := @Record.Sound.follow render _ _ _ none opened app
    (fun _ _ => by simp [Exchange.callApp]) rfl fun none => by cases none
  unfold call
  dsimp only
  split_ifs
  · exact ⟨app, passed⟩
  · exact ⟨.reject _ _ _, opened.reject (by simp) rfl rfl rfl⟩
  · exact ⟨.reject _ _ _, opened.reject (by simp) rfl rfl rfl⟩
  · exact ⟨.awaitBody _, opened.follow (.awaitBody _) (fun _ _ => by simp [Exchange.awaitBody]) rfl
      id⟩
  · exact ⟨app, passed⟩

/-! ## The boundary below -/

namespace Metered

variable {metered next : Metered}

/-- The event of the boundary that an event amounts to. -/
def Event.plain? : Event → Option Middleware.Event
  | .call scope _ => some (.call scope)
  | .act index action => some (.act index action)
  | .response _ _ => none

theorem admitted_http {exchange : Exchange} (sound : Middleware.Sound settings exchange)
    (admitted : exchange.admitted = true) : exchange.scope.http = true := by
  have passing := sound.slot.symm.trans admitted
  unfold passed at passing
  simp only [Bool.and_eq_true] at passing
  exact passing.1.1.1

theorem call_row {scope : Scope} {requestId : Str}
    (stepped : step settings render metered (.call scope requestId) = some next) :
    next = { metered with
      active := (Middleware.call settings metered.active scope).2
      served := metered.served ++ [((Middleware.call settings metered.active scope).1,
        (Record.opened requestId).follow render none
          (Middleware.call settings metered.active scope).1)] } := by
  simp only [step, Option.some.injEq] at stepped
  exact stepped.symm

/-- What an action does to the row of its exchange. -/
theorem act_row {index : Nat} {action : Action}
    (stepped : step settings render metered (.act index action) = some next) :
    ∃ exchange record after, metered.served[index]? = some (exchange, record) ∧
      advance settings exchange action = some after ∧
      next = if after.phase = .left ∧ after.scope.http = true then
          { metered with
            served := metered.served.set index
              (after, record.follow render (some exchange.phase) after) }.leave after
                (record.follow render (some exchange.phase) after)
        else
          { metered with
            served := metered.served.set index
              (after, record.follow render (some exchange.phase) after) } := by
  simp only [step] at stepped
  cases found : metered.served[index]? with
  | none => simp [found] at stepped
  | some row =>
      obtain ⟨exchange, record⟩ := row
      cases advanced : advance settings exchange action with
      | none => simp [found, advanced] at stepped
      | some after =>
          simp only [found, advanced, Option.some.injEq] at stepped
          exact ⟨exchange, record, after, rfl, advanced, stepped.symm⟩

/-- What the app sends is told to the record of its exchange alone. -/
theorem response_row {index : Nat} {reply : Reply}
    (stepped : step settings render metered (.response index reply) = some next) :
    ∃ exchange record, metered.served[index]? = some (exchange, record) ∧
      exchange.phase = .app ∧
      next = { metered with
        served := metered.served.set index (exchange, record.sendResponse reply) } := by
  simp only [step] at stepped
  cases found : metered.served[index]? with
  | none => simp [found] at stepped
  | some row =>
      obtain ⟨exchange, record⟩ := row
      simp only [found] at stepped
      split at stepped
      · rename_i serving
        cases stepped
        exact ⟨exchange, record, rfl, serving.1, rfl⟩
      · cases stepped

theorem step_plain {event : Event} (counted : Counted settings metered.boundary)
    (stepped : step settings render metered event = some next) :
    (∃ plain, event.plain? = some plain ∧
      Middleware.step settings metered.boundary plain = some next.boundary) ∨
        (event.plain? = none ∧ next.boundary = metered.boundary) := by
  cases event with
  | call scope requestId =>
      obtain rfl := call_row stepped
      refine .inl ⟨_, rfl, ?_⟩
      simp only [Middleware.step, boundary, List.map_append, List.map_cons, List.map_nil]
  | act index action =>
      obtain ⟨exchange, record, after, found, advanced, rfl⟩ := act_row stepped
      refine .inl ⟨_, rfl, ?_⟩
      have located : metered.boundary.exchanges[index]? = some exchange := by
        simp [boundary, found]
      have later : Middleware.Sound settings after :=
        (advance_move advanced).2.sound (counted.sound exchange (List.mem_of_getElem? located))
      simp only [Middleware.step, located, advanced, Option.some.injEq]
      by_cases left : after.phase = .left
      · by_cases admitted : after.admitted = true
        · have http := admitted_http later admitted
          simp [left, admitted, http, leave, boundary, List.map_set]
        · by_cases http : after.scope.http = true <;>
            simp [left, admitted, http, leave, boundary, List.map_set]
      · simp [left, boundary, List.map_set]
  | response index reply =>
      obtain ⟨exchange, record, found, _, rfl⟩ := response_row stepped
      exact .inr ⟨rfl, congrArg (Boundary.mk metered.active) (Machine.map_set found rfl)⟩

theorem step_counted {event : Event} (counted : Counted settings metered.boundary)
    (stepped : step settings render metered event = some next) :
    Counted settings next.boundary := by
  rcases step_plain counted stepped with ⟨_, _, plain⟩ | ⟨_, same⟩
  · exact Middleware.step_counted counted plain
  · exact same ▸ counted

/-- Under the records and the metrics the boundary runs as it does by itself. -/
theorem run_plain {events : List Event} (counted : Counted settings metered.boundary)
    (ran : run (step settings render) metered events = some next) :
    run (Middleware.step settings) metered.boundary (events.filterMap Event.plain?) =
      some next.boundary := by
  induction events generalizing metered with
  | nil =>
      cases ran
      rfl
  | cons event rest ih =>
      obtain ⟨middle, stepped, ran⟩ := run_cons ran
      have later := ih (step_counted counted stepped) ran
      rcases step_plain counted stepped with ⟨plain, known, went⟩ | ⟨known, same⟩
      · rw [List.filterMap_cons_some known, run, went]
        exact later
      · rw [List.filterMap_cons_none known, ← same]
        exact later

/-! ## Counts -/

/-- A request that has left the middleware. -/
def finished (row : Exchange × Record) : Bool :=
  row.1.scope.http && decide (row.1.phase = .left)

def labels (row : Exchange × Record) : Str × Str :=
  (routeLabel row.1.scope, natRepr row.2.status)

/-- How many requests on a route have left with this as their last status. -/
def leftWith (metered : Metered) (route : Str) (status : Nat) : Nat :=
  metered.served.countP fun row => finished row &&
    decide (routeLabel row.1.scope = route ∧ lastStatus row.2.sent = status)

/-- Both metrics stand at the number of the requests that have left, label by label and
in all. -/
structure Exact (settings : BoundarySettings) (render : Renderer) (metered : Metered) : Prop where
  counted : Counted settings metered.boundary
  records : ∀ row ∈ metered.served, Placed row.1 ∧ row.2.Sound render row.1
  requests : ∀ label, metered.requests.count label =
    metered.served.countP fun row => finished row && decide (labels row = label)
  latency : ∀ route, metered.latency.count route =
    metered.served.countP fun row => finished row && decide (routeLabel row.1.scope = route)
  totals : metered.requests.total = metered.served.countP finished ∧
    metered.latency.total = metered.served.countP finished
  series : ∀ label ∈ metered.requests.keys, label.1 ∈ labelledPaths ∨ label.1 = lit "other"

theorem Exact.initial : Exact settings render initial :=
  ⟨.initial, fun _ member => (by cases member), fun _ => rfl, fun _ => rfl, ⟨rfl, rfl⟩,
    fun _ member => (by cases member)⟩

theorem routeLabel_known (scope : Scope) :
    routeLabel scope ∈ labelledPaths ∨ routeLabel scope = lit "other" := by
  unfold routeLabel
  split
  · rename_i known
    exact .inl known
  · exact .inr rfl

section Rows

variable {served : List (Exchange × Record)} {index : Nat} {before after : Exchange × Record}

/-- A row that was not finished adds itself once it is. -/
theorem countP_row (found : served[index]? = some before) (going : finished before = false)
    (test : Exchange × Record → Bool) :
    (served.set index after).countP (fun row => finished row && test row) =
      served.countP (fun row => finished row && test row) +
        if (finished after && test after) = true then 1 else 0 := by
  have total := countP_set (fun row => finished row && test row) found after
  simpa [going] using total

theorem countP_finished (found : served[index]? = some before) (going : finished before = false) :
    (served.set index after).countP finished =
      served.countP finished + if finished after = true then 1 else 0 := by
  have total := countP_set finished found after
  simpa [going] using total

end Rows

/-- A row that does not finish leaves the metrics right. -/
theorem Exact.going {index : Nat} {before after : Exchange × Record} {active : Int}
    (exact : Exact settings render metered) (found : metered.served[index]? = some before)
    (going : finished before = false) (still : finished after = false)
    (counted : Counted settings
      ({ metered with active, served := metered.served.set index after } : Metered).boundary)
    (sound : Placed after.1 ∧ after.2.Sound render after.1) :
    Exact settings render { metered with active, served := metered.served.set index after } := by
  refine ⟨counted, forall_set exact.records index sound, fun label => ?_, fun route => ?_, ?_,
    exact.series⟩
  · dsimp only
    rw [countP_row found going, exact.requests label, still]
    rfl
  · dsimp only
    rw [countP_row found going, exact.latency route, still]
    rfl
  · dsimp only
    rw [countP_finished found going, still]
    exact exact.totals

/-- The request that leaves is counted. -/
theorem Exact.leave {index : Nat} {before : Exchange × Record} {exchange : Exchange}
    {record : Record} (exact : Exact settings render metered)
    (found : metered.served[index]? = some before) (going : finished before = false)
    (done : finished (exchange, record) = true)
    (counted : Counted settings (({ metered with
      served := metered.served.set index (exchange, record) } : Metered).leave exchange
        record).boundary)
    (sound : Placed exchange ∧ record.Sound render exchange) :
    Exact settings render (({ metered with
      served := metered.served.set index (exchange, record) } : Metered).leave exchange
        record) := by
  refine ⟨counted, forall_set exact.records index sound, fun label => ?_, fun route => ?_, ?_,
    fun label member => ?_⟩
  · dsimp only [Metered.leave]
    rw [Counter.count_inc, exact.requests label, countP_row found going, done]
    have own : (routeLabel exchange.scope, natRepr record.status) = labels (exchange, record) := rfl
    simp only [own, Bool.true_and, decide_eq_true_eq]
  · dsimp only [Metered.leave]
    rw [Counter.count_inc, exact.latency route, countP_row found going, done]
    simp
  · dsimp only [Metered.leave]
    rw [Counter.total_inc, Counter.total_inc, countP_finished found going, done]
    simp [exact.totals]
  · rcases Counter.mem_keys_inc member with rfl | earlier
    · exact routeLabel_known exchange.scope
    · exact exact.series label earlier

theorem not_finished {row : Exchange × Record} (phase : row.1.phase ≠ .left) :
    finished row = false := by
  simp [finished, phase]

theorem step_exact {event : Event} (exact : Exact settings render metered)
    (stepped : step settings render metered event = some next) : Exact settings render next := by
  have counted := step_counted exact.counted stepped
  cases event with
  | call scope requestId =>
      obtain rfl := call_row stepped
      obtain ⟨exchange, active, called, _, _, present, _⟩ :=
        call_cases settings metered.active scope exact.counted.bounded
      have sound := call_follow settings render metered.active scope requestId
      rw [called] at counted sound ⊢
      have still := @not_finished (exchange, (Record.opened requestId).follow render none exchange)
        present
      refine ⟨counted, ?_, fun label => ?_, fun route => ?_, ?_, exact.series⟩
      · exact List.forall_mem_append.mpr ⟨exact.records, List.forall_mem_singleton.mpr sound⟩
      · simp [exact.requests label, still]
      · simp [exact.latency route, still]
      · simpa [still] using exact.totals
  | act index action =>
      obtain ⟨exchange, record, after, found, advanced, rfl⟩ := act_row stepped
      have going := @not_finished (exchange, record) (advance_move advanced).1
      obtain ⟨placed, sound⟩ := exact.records _ (List.mem_of_getElem? found)
      have sound : Placed after ∧ (record.follow render (some exchange.phase) after).Sound render
          after :=
        ⟨(advance_move advanced).2.placed placed, advance_follow advanced placed sound⟩
      split at counted
      · rename_i left
        rw [if_pos left]
        exact exact.leave found going (by simp [finished, left]) counted sound
      · rename_i left
        rw [if_neg left]
        refine exact.going found going ?_ counted sound
        by_contra done
        have both : after.scope.http = true ∧ after.phase = .left := by simpa [finished] using done
        exact left both.symm
  | response index reply =>
      obtain ⟨exchange, record, found, phase, rfl⟩ := response_row stepped
      obtain ⟨placed, sound⟩ := exact.records _ (List.mem_of_getElem? found)
      exact exact.going found (not_finished (by simp [phase])) (not_finished (by simp [phase]))
        counted ⟨placed, sound.response (placed.serving phase) reply⟩

end Metered

/-- Whatever the interleaving, the boundary runs as it does without metrics; both metrics
stand at the number of requests that have left, each counted under its route and the
status that it sent last, or 500 when it sent none. Every response start carries the
identifier of its request, and a request that the app never saw is sent its rejections,
which name it too, and nothing else. -/
theorem metrics_exact (settings : BoundarySettings) (render : Renderer)
    (events : List Metered.Event) (metered : Metered)
    (ran : run (Metered.step settings render) Metered.initial events = some metered) :
    run (step settings) initial (events.filterMap Metered.Event.plain?) = some metered.boundary ∧
    (∀ route status, metered.requests.count (route, natRepr status) =
      metered.leftWith route status) ∧
    (∀ route, metered.latency.count route =
      metered.served.countP fun row => Metered.finished row &&
        decide (routeLabel row.1.scope = route)) ∧
    (metered.requests.total = metered.served.countP Metered.finished ∧
      metered.latency.total = metered.served.countP Metered.finished) ∧
    (∀ label ∈ metered.requests.keys, label.1 ∈ labelledPaths ∨ label.1 = lit "other") ∧
    ∀ row ∈ metered.served,
      (∀ status headers, .start status headers ∈ row.2.sent →
        ∃ own, headers = own ++ marks row.2.requestId) ∧
      (∀ code ∈ row.1.starts, rejectionStart render code row.2.requestId ∈ row.2.sent) ∧
      (row.1.appCalls = 0 → ∀ reply ∈ row.2.sent, ∃ code ∈ row.1.starts,
        reply = rejectionStart render code row.2.requestId ∨
          reply = rejectionBody render code row.2.requestId) := by
  have exact := run_invariant (fun _ _ _ exact stepped => Metered.step_exact exact stepped) ran
    Metered.Exact.initial
  refine ⟨Metered.run_plain .initial ran, fun route status => ?_, exact.latency, exact.totals,
    exact.series, fun row member => ?_⟩
  · rw [exact.requests]
    refine List.countP_congr fun row member => ?_
    have known := (exact.records row member).2.status
    have same : natRepr (lastStatus row.2.sent) = natRepr status ↔ lastStatus row.2.sent = status :=
      indexKey_injective.eq_iff
    simp only [Metered.labels, Prod.mk.injEq, same, known]
  · obtain ⟨_, sound⟩ := exact.records row member
    exact ⟨sound.marked, sound.rejections, sound.own⟩

def plainText : Renderer := fun _ headers => (headers, [])

/-- A client that goes away before its body is read, and one that is refused meanwhile. -/
def twoClients : List Metered.Event :=
  [.call ⟨true, lit "/v1/systemone", []⟩ (lit "a"), .call ⟨true, lit "/v1/systemone", []⟩ (lit "b"),
    .act 1 .sent, .act 1 .sent, .act 0 (.message .disconnect)]

theorem metrics_exact_refused :
    ∃ metered, run (Metered.step uploadSettings plainText) Metered.initial twoClients = some metered ∧
      metered.requests.count (lit "/v1/systemone", natRepr 529) = 1 ∧
      metered.requests.count (lit "/v1/systemone", natRepr 500) = 1 ∧
      metered.requests.total = 2 := by
  obtain ⟨metered, known⟩ := Option.isSome_iff_exists.mp
    (show ((run (Metered.step uploadSettings plainText) Metered.initial twoClients).filter
      fun metered => decide (metered.leftWith (lit "/v1/systemone") 529 = 1 ∧
        metered.leftWith (lit "/v1/systemone") 500 = 1 ∧
          metered.served.countP Metered.finished = 2)).isSome = true by
      decide +kernel)
  obtain ⟨ran, both⟩ := Option.filter_eq_some_iff.mp known
  obtain ⟨refused, unanswered, two⟩ := of_decide_eq_true both
  obtain ⟨_, requests, _, ⟨totals, _⟩, _⟩ := metrics_exact uploadSettings plainText _ metered ran
  exact ⟨metered, ran, (requests _ _).trans refused, (requests _ _).trans unanswered,
    totals.trans two⟩

end VllmVerifier.Middleware
