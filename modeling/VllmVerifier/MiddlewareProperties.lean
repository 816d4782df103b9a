import VllmVerifier.Middleware

/-!
Admission accounting. The counter moves with the exchanges that passed
authentication and admission and have not left, whatever ends them.
-/

set_option autoImplicit false

namespace VllmVerifier.Middleware

open Python Machine

variable {settings : BoundarySettings} {boundary next : Boundary}

/-! ## One exchange -/

/-- The exchange is on a decision path and was refused neither for its key nor
for overload. -/
def passed (settings : BoundarySettings) (exchange : Exchange) : Bool :=
  exchange.scope.http && decide (exchange.scope.path ∈ decisionPaths) &&
    (!guarded settings exchange.scope || authenticated settings exchange.scope) &&
      decide (529 ∉ exchange.starts)

/-- It has passed and is still in the middleware. -/
def inside (settings : BoundarySettings) (exchange : Exchange) : Bool :=
  passed settings exchange && decide (exchange.phase ≠ .left)

/-- A request that the key check refuses. -/
def refused (settings : BoundarySettings) (scope : Scope) : Bool :=
  scope.http && guarded settings scope && !authenticated settings scope

/-- The event is a step of a request that the key check refuses. -/
def Event.unauthenticated (settings : BoundarySettings) (boundary : Boundary) : Event → Prop
  | .call scope => refused settings scope = true
  | .act index _ => ∃ exchange, boundary.exchanges[index]? = some exchange ∧
      refused settings exchange.scope = true

theorem refused_not_passed {exchange : Exchange}
    (key : refused settings exchange.scope = true) : passed settings exchange = false := by
  simp only [refused, Bool.and_eq_true, Bool.not_eq_true'] at key
  simp [passed, key.1.2, key.2]

/-- What holds of an exchange at any of its awaits: the slot flag tells whether
it passed, and a refused request has touched neither the body nor the app. -/
structure Sound (settings : BoundarySettings) (exchange : Exchange) : Prop where
  slot : exchange.admitted = passed settings exchange
  overloaded : 529 ∈ exchange.starts → exchange.phase = .left ∨
    ∃ started, exchange.phase = .rejecting 529 false started
  untouched : refused settings exchange.scope = true →
    (exchange.receives = 0 ∧ exchange.forwarded = 0 ∧ exchange.body = [] ∧
      exchange.appCalls = 0) ∧
        (exchange.phase = .left ∨ ∃ started, exchange.phase = .rejecting 401 false started)

/-- Everything an exchange can do at one of its awaits. -/
inductive Move (exchange : Exchange) : Exchange → Prop where
  | leave : Move exchange { exchange with phase := .left }
  | start (code : Nat) (timed : Bool) : exchange.phase = .rejecting code timed false →
      Move exchange { exchange with phase := .rejecting code timed true }
  | reject (code : Nat) (timed : Bool) (body : Bytes) : exchange.timed = true →
      code = 413 ∨ code = 408 → Move exchange ({ exchange with body }.reject code timed)
  | read (body : Bytes) : exchange.phase = .reading → Move exchange { exchange with body }.awaitBody
  | serve (body : Bytes) : exchange.phase = .reading → Move exchange { exchange with body }.callApp
  | deliver (delivered : Bool) (forwarded : Nat) : exchange.phase = .app →
      Move exchange { exchange with delivered, forwarded }

theorem advance_move {exchange after : Exchange} {action : Action}
    (advanced : advance settings exchange action = some after) :
    exchange.phase ≠ .left ∧ Move exchange after := by
  cases action with
  | message message =>
      simp only [advance] at advanced
      cases phase : exchange.phase with
      | rejecting | app | left => simp [phase] at advanced
      | reading =>
          simp only [phase, Option.some.injEq] at advanced
          subst advanced
          refine ⟨by simp, ?_⟩
          cases message with
          | disconnect => exact .leave
          | request body moreBody =>
              unfold Exchange.accept
              dsimp only
              split
              · exact .reject 413 true _ (by simp [Exchange.timed, phase]) (.inl rfl)
              split
              · exact .read _ phase
              · exact .serve _ phase
  | deadline =>
      simp only [advance] at advanced
      split at advanced
      · rename_i timed
        cases advanced
        refine ⟨fun left => ?_, .reject 408 false exchange.body timed (.inr rfl)⟩
        simp [Exchange.timed, left] at timed
      · cases advanced
  | sent =>
      simp only [advance] at advanced
      cases phase : exchange.phase with
      | reading | app | left => simp [phase] at advanced
      | rejecting code timed started =>
          cases started with
          | true =>
              simp only [phase, Option.some.injEq] at advanced
              subst advanced
              exact ⟨by simp, .leave⟩
          | false =>
              simp only [phase, Option.some.injEq] at advanced
              subst advanced
              exact ⟨by simp, .start code timed phase⟩
  | raised timeout =>
      simp only [advance] at advanced
      split at advanced
      · cases advanced
      · rename_i present
        refine ⟨present, ?_⟩
        split at advanced
        · rename_i both
          cases advanced
          exact .reject 408 false exchange.body (Bool.and_eq_true_iff.mp both).2 (.inr rfl)
        · cases advanced
          exact .leave
  | appReceive =>
      simp only [advance] at advanced
      split at advanced
      · rename_i phase
        refine ⟨by simp [phase], ?_⟩
        split at advanced
        · cases advanced
          exact .deliver true exchange.forwarded phase
        · cases advanced
          exact .deliver exchange.delivered (exchange.forwarded + 1) phase
      · cases advanced
  | appReturned =>
      simp only [advance] at advanced
      split at advanced
      · rename_i phase
        cases advanced
        exact ⟨by simp [phase], .leave⟩
      · cases advanced

theorem Move.passed (settings : BoundarySettings) {exchange after : Exchange}
    (move : Move exchange after) :
    after.admitted = exchange.admitted ∧ after.scope = exchange.scope ∧
      Middleware.passed settings after = Middleware.passed settings exchange := by
  cases move with
  | leave | start | read | serve | deliver => exact ⟨rfl, rfl, rfl⟩
  | reject code timed body _ known =>
      refine ⟨rfl, rfl, ?_⟩
      have other : 529 ≠ code := by rcases known with rfl | rfl <;> decide
      simp only [Middleware.passed, Exchange.reject, List.mem_append, List.mem_singleton, other,
        or_false]
      rfl

theorem Move.overloaded {exchange after : Exchange} (move : Move exchange after) :
    529 ∈ after.starts ↔ 529 ∈ exchange.starts := by
  cases move with
  | leave | start | read | serve | deliver => exact Iff.rfl
  | reject code timed body _ known =>
      have other : 529 ≠ code := by rcases known with rfl | rfl <;> decide
      simp [Exchange.reject, other]

theorem Move.sound {exchange after : Exchange} (move : Move exchange after)
    (sound : Sound settings exchange) : Sound settings after := by
  obtain ⟨admitted, scope, same⟩ := move.passed settings
  have slot : after.admitted = Middleware.passed settings after := by
    rw [admitted, same]
    exact sound.slot
  cases move with
  | leave =>
      exact ⟨slot, fun _ => .inl rfl, fun known => ⟨(sound.untouched known).1, .inl rfl⟩⟩
  | start code timed phase =>
      refine ⟨slot, fun member => ?_, fun known => ?_⟩
      · rcases sound.overloaded member with left | ⟨started, rejecting⟩
        · rw [phase] at left
          cases left
        · rw [phase] at rejecting
          cases rejecting
          exact .inr ⟨true, rfl⟩
      · obtain ⟨untouched, left | ⟨started, rejecting⟩⟩ := sound.untouched known
        · rw [phase] at left
          cases left
        · rw [phase] at rejecting
          cases rejecting
          exact ⟨untouched, .inr ⟨true, rfl⟩⟩
  | reject code timed body open' known =>
      refine ⟨slot, fun member => ?_, fun refused => ?_⟩
      · rcases List.mem_append.mp member with before | last
        · rcases sound.overloaded before with phase | ⟨_, phase⟩ <;>
            simp [Exchange.timed, phase] at open'
        · rcases known with rfl | rfl <;> simp at last
      · obtain ⟨_, phase | ⟨_, phase⟩⟩ := sound.untouched refused <;>
          simp [Exchange.timed, phase] at open'
  | read body reading | serve body reading | deliver delivered forwarded reading =>
      refine ⟨slot, fun member => ?_, fun refused => ?_⟩
      · rcases sound.overloaded member with phase | ⟨_, phase⟩ <;> simp [phase] at reading
      · obtain ⟨_, phase | ⟨_, phase⟩⟩ := sound.untouched refused <;>
          simp [phase] at reading

/-! ## Calls -/

/-- A call is refused, admitted with one more slot taken, or passed on. -/
theorem call_cases (settings : BoundarySettings) (active : Int) (scope : Scope)
    (bounded : active ≤ settings.maxRequests) :
    ∃ exchange after, call settings active scope = (exchange, after) ∧
      Sound settings exchange ∧ exchange.scope = scope ∧ exchange.phase ≠ .left ∧
      after = active + (if passed settings exchange then 1 else 0) ∧
      after ≤ settings.maxRequests ∧
      (529 ∈ exchange.starts → active = settings.maxRequests) := by
  unfold call
  dsimp only
  cases http : scope.http with
  | false =>
      refine ⟨_, _, if_pos rfl, ⟨?_, ?_, ?_⟩, rfl, ?_, ?_, bounded, ?_⟩ <;>
        simp [Exchange.callApp, passed, refused, http]
  | true =>
      rw [if_neg (by simp)]
      by_cases key : (guarded settings scope && !authenticated settings scope) = true
      · have failed := Bool.and_eq_true_iff.mp key
        have wrong : authenticated settings scope = false := by simpa using failed.2
        refine ⟨_, _, if_pos key, ⟨?_, ?_, ?_⟩, rfl, ?_, ?_, bounded, ?_⟩ <;>
          simp [Exchange.reject, passed, failed.1, wrong]
      · have known : (!guarded settings scope || authenticated settings scope) = true := by
          cases guard : guarded settings scope <;> simp_all
        have accepted : refused settings scope = false := by
          cases guard : guarded settings scope <;> simp_all [refused]
        rw [if_neg key]
        by_cases decision : scope.path ∈ decisionPaths
        · rw [if_pos decision]
          by_cases full : (settings.maxRequests : Int) ≤ active
          · refine ⟨_, _, if_pos full, ⟨?_, ?_, ?_⟩, rfl, ?_, ?_, bounded, ?_⟩
            · simp [Exchange.reject, passed]
            · exact fun _ => .inr ⟨false, rfl⟩
            · intro other
              have same : refused settings scope = true := other
              rw [accepted] at same
              cases same
            · simp [Exchange.reject]
            · simp [Exchange.reject, passed]
            · exact fun _ => le_antisymm bounded full
          · refine ⟨_, _, if_neg full, ⟨?_, ?_, ?_⟩, rfl, ?_, ?_, ?_, ?_⟩
            · simp [Exchange.awaitBody, passed, http, decision, known]
            · simp [Exchange.awaitBody]
            · intro other
              have same : refused settings scope = true := other
              rw [accepted] at same
              cases same
            · simp [Exchange.awaitBody]
            · simp [Exchange.awaitBody, passed, http, decision, known]
            · omega
            · simp [Exchange.awaitBody]
        · rw [if_neg decision]
          refine ⟨_, _, rfl, ⟨?_, ?_, ?_⟩, rfl, ?_, ?_, bounded, ?_⟩
          · simp [Exchange.callApp, passed, decision]
          · simp [Exchange.callApp]
          · intro other
            have same : refused settings scope = true := other
            rw [accepted] at same
            cases same
          · simp [Exchange.callApp]
          · simp [Exchange.callApp, passed, decision]
          · simp [Exchange.callApp]

/-! ## The boundary -/

/-- The counter is the number of exchanges inside, within its bound. -/
structure Counted (settings : BoundarySettings) (boundary : Boundary) : Prop where
  count : boundary.active = (boundary.exchanges.countP (inside settings) : Nat)
  bounded : boundary.active ≤ settings.maxRequests
  sound : ∀ exchange ∈ boundary.exchanges, Sound settings exchange

theorem Counted.initial : Counted settings initial :=
  ⟨rfl, Int.natCast_nonneg _, fun _ member => by cases member⟩

theorem act_advance {index : Nat} {action : Action}
    (stepped : step settings boundary (.act index action) = some next) :
    ∃ before after, boundary.exchanges[index]? = some before ∧
      advance settings before action = some after ∧
        next.exchanges = boundary.exchanges.set index after := by
  simp only [Middleware.step] at stepped
  cases found : boundary.exchanges[index]? with
  | none => simp [found] at stepped
  | some before =>
      cases advanced : advance settings before action with
      | none => simp [found, advanced] at stepped
      | some after =>
          simp only [found, advanced, Option.some.injEq] at stepped
          subst stepped
          exact ⟨before, after, rfl, advanced, rfl⟩

/-- A step of one exchange: the move it makes and what it does to the counter. -/
theorem act_cases {index : Nat} {action : Action}
    (stepped : step settings boundary (.act index action) = some next) :
    ∃ before after, boundary.exchanges[index]? = some before ∧ before.phase ≠ .left ∧
      Move before after ∧ next.exchanges = boundary.exchanges.set index after ∧
      next.active =
        if after.phase = .left ∧ after.admitted = true then boundary.active - 1
        else boundary.active := by
  simp only [step] at stepped
  cases found : boundary.exchanges[index]? with
  | none => simp [found] at stepped
  | some before =>
      cases advanced : advance settings before action with
      | none => simp [found, advanced] at stepped
      | some after =>
          simp only [found, advanced, Option.some.injEq] at stepped
          subst stepped
          obtain ⟨present, move⟩ := advance_move advanced
          exact ⟨before, after, rfl, present, move, rfl, rfl⟩

theorem step_counted {event : Event} (counted : Counted settings boundary)
    (stepped : step settings boundary event = some next) : Counted settings next := by
  cases event with
  | call scope =>
      obtain ⟨exchange, after, called, sound, _, present, active, bounded, _⟩ :=
        call_cases settings boundary.active scope counted.bounded
      simp only [step, called, Option.some.injEq] at stepped
      subst stepped
      refine ⟨?_, bounded, fun found member => ?_⟩
      · dsimp only
        rw [active, counted.count, List.countP_append]
        simp [inside, present]
      · rcases List.mem_append.mp member with earlier | last
        · exact counted.sound found earlier
        · rw [List.mem_singleton.mp last]
          exact sound
  | act index action =>
      obtain ⟨before, after, found, present, move, exchanges, active⟩ := act_cases stepped
      have sound := counted.sound before (List.mem_of_getElem? found)
      have later := move.sound sound
      have slot : after.admitted = passed settings before := by
        rw [(move.passed settings).1, sound.slot]
      have same := (move.passed settings).2.2
      have total := countP_set (inside settings) found after
      have count := counted.count
      have bounded := counted.bounded
      simp only [inside, same, present, ne_eq, not_false_eq_true, decide_true, Bool.and_true]
        at total
      refine ⟨?_, ?_, ?_⟩
      · rw [active, exchanges]
        by_cases gone : after.phase = .left <;> cases known : passed settings before <;>
          simp only [gone, known, slot, Bool.false_eq_true, reduceIte, and_self, and_true, and_false,
            Bool.false_and, Bool.true_and, not_true_eq_false, not_false_eq_true, decide_true,
            decide_false] at total ⊢ <;>
          omega
      · rw [active]
        split <;> omega
      · rw [exchanges]
        exact forall_set counted.sound index later

theorem run_counted {events : List Event}
    (ran : run (step settings) initial events = some boundary) : Counted settings boundary :=
  run_invariant (fun _ _ _ counted stepped => step_counted counted stepped) ran Counted.initial

/-- A refusal for overload is the answer to a call that finds every slot taken. -/
theorem overload_at_capacity {event : Event} (counted : Counted settings boundary)
    (stepped : step settings boundary event = some next) {index : Nat} {exchange : Exchange}
    (found : next.exchanges[index]? = some exchange) (overload : 529 ∈ exchange.starts) :
    (∃ earlier, boundary.exchanges[index]? = some earlier ∧ 529 ∈ earlier.starts) ∨
      boundary.active = settings.maxRequests := by
  cases event with
  | call scope =>
      obtain ⟨arrived, after, called, _, _, _, _, _, full⟩ :=
        call_cases settings boundary.active scope counted.bounded
      simp only [step, called, Option.some.injEq] at stepped
      subst stepped
      rcases Nat.lt_or_ge index boundary.exchanges.length with before | past
      · rw [List.getElem?_append_left before] at found
        exact .inl ⟨exchange, found, overload⟩
      · rw [List.getElem?_append_right past] at found
        rw [List.mem_singleton.mp (List.mem_of_getElem? found)] at overload
        exact .inr (full overload)
  | act acting action =>
      obtain ⟨before, after, at_, _, move, exchanges, _⟩ := act_cases stepped
      rw [exchanges] at found
      by_cases same : acting = index
      · subst same
        obtain ⟨bound, _⟩ := List.getElem?_eq_some_iff.mp at_
        rw [List.getElem?_set_self bound, Option.some.injEq] at found
        subst found
        exact .inl ⟨before, at_, (move.overloaded).mp overload⟩
      · rw [List.getElem?_set_ne same] at found
        exact .inl ⟨exchange, found, overload⟩

/-- A request refused for its key leaves the counter alone, at its call and later. -/
theorem refused_keeps_active {event : Event} (counted : Counted settings boundary)
    (stepped : step settings boundary event = some next)
    (unauthenticated : event.unauthenticated settings boundary) :
    next.active = boundary.active := by
  cases event with
  | call scope =>
      obtain ⟨arrived, after, called, _, same, _, active, _, _⟩ :=
        call_cases settings boundary.active scope counted.bounded
      simp only [step, called, Option.some.injEq] at stepped
      subst stepped
      rw [active, refused_not_passed (same ▸ unauthenticated)]
      simp
  | act index action =>
      obtain ⟨exchange, found, key⟩ := unauthenticated
      obtain ⟨before, after, at_, _, move, _, active⟩ := act_cases stepped
      cases found.symm.trans at_
      have slot : after.admitted = false := by
        rw [(move.passed settings).1,
          (counted.sound _ (List.mem_of_getElem? at_)).slot]
        exact refused_not_passed key
      simpa [slot] using active

/-- Admission accounting is exact in every reachable state. -/
theorem admission_exact (settings : BoundarySettings) (events : List Event) (boundary : Boundary)
    (ran : run (step settings) initial events = some boundary) :
    (boundary.active = (boundary.exchanges.countP (inside settings) : Nat) ∧
      0 ≤ boundary.active ∧ boundary.active ≤ settings.maxRequests) ∧
    (∀ event next, step settings boundary event = some next →
      ∀ (index : Nat) (exchange : Exchange), next.exchanges[index]? = some exchange →
        529 ∈ exchange.starts →
          (∃ earlier, boundary.exchanges[index]? = some earlier ∧ 529 ∈ earlier.starts) ∨
            boundary.active = settings.maxRequests) ∧
    (∀ exchange ∈ boundary.exchanges, refused settings exchange.scope = true →
      exchange.receives = 0 ∧ exchange.forwarded = 0 ∧ exchange.body = [] ∧
        exchange.appCalls = 0) ∧
    (∀ event next, step settings boundary event = some next →
      event.unauthenticated settings boundary → next.active = boundary.active) ∧
    ((∀ exchange ∈ boundary.exchanges, exchange.phase = .left) → boundary.active = 0) := by
  have counted := run_counted ran
  refine ⟨⟨counted.count, ?_, counted.bounded⟩, ?_, ?_, ?_, ?_⟩
  · rw [counted.count]
    exact Int.natCast_nonneg _
  · intro event next stepped index exchange found overload
    exact overload_at_capacity counted stepped found overload
  · intro exchange member key
    exact ((counted.sound exchange member).untouched key).1
  · intro event next stepped key
    exact refused_keeps_active counted stepped key
  · intro gone
    rw [counted.count, List.countP_eq_zero.mpr]
    · rfl
    · intro exchange member
      simp [inside, gone exchange member]

/-- One slot, taken by an upload that times out while a second one is refused. -/
theorem admission_exact_overload :
    ∃ boundary,
      run (step ⟨none, 1, 1024, by decide, by decide⟩) initial
        [.call ⟨true, lit "/v1/systemone", []⟩, .call ⟨true, lit "/v1/systemone", []⟩,
          .act 0 .deadline, .act 0 .sent, .act 0 .sent] = some boundary ∧
      boundary.exchanges.map (·.starts) = [[408], [529]] ∧
      (boundary.active =
        (boundary.exchanges.countP (inside ⟨none, 1, 1024, by decide, by decide⟩) : Nat)) := by
  obtain ⟨boundary, ran⟩ := Option.isSome_iff_exists.mp
    (show (run (step ⟨none, 1, 1024, by decide, by decide⟩) initial
        [.call ⟨true, lit "/v1/systemone", []⟩, .call ⟨true, lit "/v1/systemone", []⟩,
          .act 0 .deadline, .act 0 .sent, .act 0 .sent]).isSome = true by decide +kernel)
  refine ⟨boundary, ran, ?_, (admission_exact _ _ boundary ran).1.1⟩
  have starts : (run (step ⟨none, 1, 1024, by decide, by decide⟩) initial
        [.call ⟨true, lit "/v1/systemone", []⟩, .call ⟨true, lit "/v1/systemone", []⟩,
          .act 0 .deadline, .act 0 .sent, .act 0 .sent]).map
            (fun boundary => boundary.exchanges.map (·.starts)) = some [[408], [529]] := by
    decide +kernel
  rw [ran] at starts
  exact Option.some.inj starts

end VllmVerifier.Middleware
