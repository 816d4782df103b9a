import VllmVerifier.MiddlewareProperties

/-!
What `BoundaryMiddleware` sends itself. A rejection excludes the app, always; it
is the only response unless a timeout reaches an exchange that is already being
rejected inside the body deadline.
-/

set_option autoImplicit false

namespace VllmVerifier.Middleware

open Python Machine

variable {settings : BoundarySettings} {boundary next : Boundary}

/-! ## One exchange -/

/-- An exchange has been rejected, or has been given to the app once, or neither. -/
def Exclusive (exchange : Exchange) : Prop :=
  match exchange.phase with
  | .rejecting .. => exchange.starts ≠ [] ∧ exchange.appCalls = 0
  | .reading => exchange.starts = [] ∧ exchange.appCalls = 0
  | .app => exchange.starts = [] ∧ exchange.appCalls = 1
  | .left => exchange.starts = [] ∧ exchange.appCalls ≤ 1 ∨ exchange.appCalls = 0

/-- A timeout that finds the exchange being rejected inside the deadline. -/
def Interrupts (exchange : Exchange) (action : Action) : Prop :=
  (∃ code started, exchange.phase = .rejecting code true started) ∧
    (action = .deadline ∨ action = .raised true)

theorem Exclusive.apart {exchange : Exchange} (exclusive : Exclusive exchange) :
    exchange.starts = [] ∧ exchange.appCalls ≤ 1 ∨ exchange.appCalls = 0 := by
  unfold Exclusive at exclusive
  split at exclusive
  · exact .inr exclusive.2
  · exact .inr exclusive.2
  · exact .inl ⟨exclusive.1, Nat.le_of_eq exclusive.2⟩
  · exact exclusive

theorem Move.exclusive {exchange after : Exchange} (move : Move exchange after)
    (exclusive : Exclusive exchange) : Exclusive after := by
  have apart := exclusive.apart
  unfold Exclusive at exclusive
  cases move with
  | leave => exact apart
  | start code timed phase =>
      rw [phase] at exclusive
      exact exclusive
  | reject code timed body open' _ =>
      refine ⟨by simp [Exchange.reject], ?_⟩
      cases phase : exchange.phase with
      | rejecting | reading =>
          rw [phase] at exclusive
          exact exclusive.2
      | app | left => simp [Exchange.timed, phase] at open'
  | read body phase =>
      rw [phase] at exclusive
      exact exclusive
  | serve body phase =>
      rw [phase] at exclusive
      exact ⟨exclusive.1, by simp [Exchange.callApp, exclusive.2]⟩
  | deliver delivered forwarded phase =>
      rw [phase] at exclusive
      simp only [phase]
      exact exclusive

theorem call_exclusive (settings : BoundarySettings) (active : Int) (scope : Scope) :
    Exclusive (call settings active scope).1 ∧
      (call settings active scope).1.starts.length ≤ 1 := by
  unfold call
  dsimp only
  split
  · exact ⟨⟨rfl, rfl⟩, Nat.zero_le _⟩
  split
  · exact ⟨⟨nofun, rfl⟩, Nat.le_refl _⟩
  split
  · split
    · exact ⟨⟨nofun, rfl⟩, Nat.le_refl _⟩
    · exact ⟨⟨rfl, rfl⟩, Nat.zero_le _⟩
  · exact ⟨⟨rfl, rfl⟩, Nat.zero_le _⟩

theorem timeout_starts {exchange : Exchange} {action : Action}
    (timeout : action = .deadline ∨ action = .raised true) (timed : exchange.timed = true) :
    Interrupts exchange action ∨ ¬ Interrupts exchange action ∧ exchange.phase = .reading := by
  cases phase : exchange.phase with
  | rejecting code inside started =>
      cases inside with
      | true => exact .inl ⟨⟨code, started, phase⟩, timeout⟩
      | false => simp [Exchange.timed, phase] at timed
  | reading =>
      refine .inr ⟨fun interrupts => ?_, rfl⟩
      obtain ⟨⟨_, _, rejecting⟩, _⟩ := interrupts
      rw [phase] at rejecting
      cases rejecting
  | app | left => simp [Exchange.timed, phase] at timed

/-- What an action adds to the responses: nothing, the first one, or one over another. -/
theorem advance_starts {exchange after : Exchange} {action : Action}
    (advanced : advance settings exchange action = some after) :
    Interrupts exchange action ∧ after.starts = exchange.starts ++ [408] ∨
      ¬ Interrupts exchange action ∧
        (after.starts = exchange.starts ∨
          exchange.phase = .reading ∧ ∃ code, after.starts = exchange.starts ++ [code]) := by
  have quiet : ∀ {action : Action}, action ≠ .deadline → action ≠ .raised true →
      ¬ Interrupts exchange action := by
    intro action first second interrupts
    exact interrupts.2.elim first second
  cases action with
  | message message =>
      refine .inr ⟨quiet (by simp) (by simp), ?_⟩
      simp only [advance] at advanced
      cases phase : exchange.phase with
      | rejecting | app | left => simp [phase] at advanced
      | reading =>
          simp only [phase, Option.some.injEq] at advanced
          subst advanced
          cases message with
          | disconnect => exact .inl rfl
          | request body moreBody =>
              unfold Exchange.accept
              dsimp only
              split
              · exact .inr ⟨rfl, 413, rfl⟩
              split
              · exact .inl rfl
              · exact .inl rfl
  | deadline =>
      simp only [advance] at advanced
      split at advanced
      · rename_i timed
        cases advanced
        rcases timeout_starts (.inl rfl) timed with interrupts | ⟨quiet, reading⟩
        · exact .inl ⟨interrupts, rfl⟩
        · exact .inr ⟨quiet, .inr ⟨reading, 408, rfl⟩⟩
      · cases advanced
  | sent =>
      refine .inr ⟨quiet (by simp) (by simp), .inl ?_⟩
      simp only [advance] at advanced
      split at advanced
      · cases advanced
        rfl
      · cases advanced
        rfl
      · cases advanced
      · cases advanced
      · cases advanced
  | raised timeout =>
      simp only [advance] at advanced
      split at advanced
      · cases advanced
      split at advanced
      · rename_i both
        cases advanced
        obtain ⟨rfl, timed⟩ := Bool.and_eq_true_iff.mp both
        rcases timeout_starts (.inr rfl) timed with interrupts | ⟨quiet, reading⟩
        · exact .inl ⟨interrupts, rfl⟩
        · exact .inr ⟨quiet, .inr ⟨reading, 408, rfl⟩⟩
      · rename_i neither
        cases advanced
        refine .inr ⟨fun interrupts => ?_, .inl rfl⟩
        obtain ⟨⟨_, _, rejecting⟩, action⟩ := interrupts
        rcases action with other | same
        · cases other
        · cases same
          simp [Exchange.timed, rejecting] at neither
  | appReceive =>
      refine .inr ⟨quiet (by simp) (by simp), .inl ?_⟩
      simp only [advance] at advanced
      split at advanced
      · split at advanced <;>
          · cases advanced
            rfl
      · cases advanced
  | appReturned =>
      refine .inr ⟨quiet (by simp) (by simp), .inl ?_⟩
      simp only [advance] at advanced
      split at advanced
      · cases advanced
        rfl
      · cases advanced

/-! ## Runs -/

/-- The event is a timeout that finds its exchange being rejected inside the deadline. -/
def Event.interrupts (boundary : Boundary) : Event → Prop
  | .call _ => False
  | .act index action => ∃ exchange, boundary.exchanges[index]? = some exchange ∧
      Interrupts exchange action

def AllExclusive (boundary : Boundary) : Prop :=
  ∀ exchange ∈ boundary.exchanges, Exclusive exchange

/-- No exchange has had two responses. -/
def AllSingle (boundary : Boundary) : Prop :=
  ∀ exchange ∈ boundary.exchanges, exchange.starts.length ≤ 1

theorem step_exclusive {event : Event} (exclusive : AllExclusive boundary)
    (stepped : step settings boundary event = some next) : AllExclusive next := by
  cases event with
  | call scope =>
      cases stepped
      intro exchange member
      rcases List.mem_append.mp member with before | last
      · exact exclusive exchange before
      · rw [List.mem_singleton.mp last]
        exact (call_exclusive settings boundary.active scope).1
  | act index action =>
      obtain ⟨before, after, found, _, move, exchanges, _⟩ := act_cases stepped
      unfold AllExclusive
      rw [exchanges]
      exact forall_set exclusive index
        (move.exclusive (exclusive before (List.mem_of_getElem? found)))

theorem step_single {event : Event} (exclusive : AllExclusive boundary)
    (single : AllSingle boundary)
    (quiet : ¬ event.interrupts boundary) (stepped : step settings boundary event = some next) :
    AllSingle next := by
  cases event with
  | call scope =>
      cases stepped
      intro exchange member
      rcases List.mem_append.mp member with before | last
      · exact single exchange before
      · rw [List.mem_singleton.mp last]
        exact (call_exclusive settings boundary.active scope).2
  | act index action =>
      obtain ⟨before, after, found, advanced, exchanges⟩ := act_advance stepped
      have member := List.mem_of_getElem? found
      unfold AllSingle
      rw [exchanges]
      refine forall_set single index ?_
      rcases advance_starts advanced with ⟨interrupts, _⟩ | ⟨_, same | ⟨reading, code, first⟩⟩
      · exact absurd ⟨before, found, interrupts⟩ quiet
      · rw [same]
        exact single before member
      · have none := exclusive before member
        unfold Exclusive at none
        rw [reading] at none
        rw [first, none.1]
        exact Nat.le_refl 1

theorem step_second {event : Event} (second : ¬ AllSingle boundary)
    (stepped : step settings boundary event = some next) : ¬ AllSingle next := by
  intro single
  refine second fun exchange member => ?_
  cases event with
  | call scope =>
      cases stepped
      exact single exchange (List.mem_append_left _ member)
  | act index action =>
      obtain ⟨before, after, found, advanced, exchanges⟩ := act_advance stepped
      obtain ⟨position, located⟩ := List.getElem?_of_mem member
      unfold AllSingle at single
      rw [exchanges] at single
      by_cases same : index = position
      · subst same
        cases found.symm.trans located
        have inside := (List.getElem?_eq_some_iff.mp found).1
        have few := single after (List.mem_of_getElem? (List.getElem?_set_self inside))
        rcases advance_starts advanced with ⟨_, more⟩ | ⟨_, kept | ⟨_, code, more⟩⟩
        · rw [more, List.length_append] at few
          exact Nat.le_trans (Nat.le_add_right _ _) few
        · rw [kept] at few
          exact few
        · rw [more, List.length_append] at few
          exact Nat.le_trans (Nat.le_add_right _ _) few
      · refine single exchange (List.mem_of_getElem? (i := position) ?_)
        rw [List.getElem?_set_ne same, located]

theorem step_interrupts {event : Event} (exclusive : AllExclusive boundary)
    (interrupts : event.interrupts boundary) (stepped : step settings boundary event = some next) :
    ¬ AllSingle next := by
  cases event with
  | call scope => exact absurd interrupts id
  | act index action =>
      obtain ⟨exchange, here, interrupted⟩ := interrupts
      obtain ⟨before, after, found, advanced, exchanges⟩ := act_advance stepped
      cases found.symm.trans here
      intro single
      have inside := (List.getElem?_eq_some_iff.mp found).1
      have few := single after (by
        rw [exchanges]
        exact List.mem_of_getElem? (List.getElem?_set_self inside))
      rcases advance_starts advanced with ⟨_, more⟩ | ⟨quiet, _⟩
      · have some := exclusive exchange (List.mem_of_getElem? found)
        obtain ⟨⟨code, started, phase⟩, _⟩ := interrupted
        unfold Exclusive at some
        rw [phase] at some
        have positive := List.length_pos_iff.mpr some.1
        rw [more, List.length_append, List.length_singleton] at few
        omega
      · exact quiet interrupted

/-- The middleware answers each request at most once, and never one that it gives
to the app, in exactly the runs in which no timeout finds an exchange that is
already being rejected inside the body deadline. -/
theorem single_response_iff (settings : BoundarySettings) (events : List Event)
    (boundary : Boundary) (ran : run (step settings) initial events = some boundary) :
    (∀ exchange ∈ boundary.exchanges, exchange.starts.length ≤ 1 ∧
      (exchange.starts = [] ∧ exchange.appCalls ≤ 1 ∨ exchange.appCalls = 0)) ↔
      Along (step settings) (fun boundary event => ¬ event.interrupts boundary) initial events := by
  have initially : AllExclusive initial := fun _ member => by cases member
  have exclusive : AllExclusive boundary :=
    run_invariant (fun _ _ _ exclusive stepped => step_exclusive exclusive stepped) ran initially
  constructor
  · intro holds
    by_contra missed
    have spoiled : ¬ AllSingle boundary :=
      run_spoiled (fun _ _ _ exclusive stepped => step_exclusive exclusive stepped)
        (fun _ _ _ exclusive missed stepped =>
          step_interrupts exclusive (not_not.mp missed) stepped)
        (fun _ _ _ second stepped => step_second second stepped) missed ran initially
    exact spoiled fun exchange member => (holds exchange member).1
  · intro along exchange member
    have kept : ∀ state event next, AllExclusive state ∧ AllSingle state →
        ¬ event.interrupts state → step settings state event = some next →
          AllExclusive next ∧ AllSingle next := by
      intro state event next held quiet stepped
      exact ⟨step_exclusive held.1 stepped, step_single held.1 held.2 quiet stepped⟩
    have held := run_invariant_along kept along ran ⟨initially, fun _ member => by cases member⟩
    exact ⟨held.2 exchange member, (exclusive exchange member).apart⟩

/-! A body over its limit, whose rejection the deadline finds at its first `send`. -/

def uploadSettings : BoundarySettings := ⟨none, 1, 1024, by decide, by decide⟩

def interruptedUpload : List Event :=
  [.call ⟨true, lit "/v1/systemone", []⟩,
    .act 0 (.message (.request (some (List.replicate 1025 0)) (some false))), .act 0 .deadline]

theorem single_response_interrupted :
    (run (step uploadSettings) initial interruptedUpload).map
      (fun boundary => boundary.exchanges.map (·.starts)) = some [[413, 408]] := by
  decide +kernel

theorem single_response_missed :
    ¬ Along (step uploadSettings) (fun boundary event => ¬ event.interrupts boundary) initial
      interruptedUpload := by
  intro along
  have answered : (run (step uploadSettings) initial interruptedUpload).map
      (fun boundary => boundary.exchanges.map (·.starts)) = some [[413, 408]] := by
    decide +kernel
  obtain ⟨boundary, ran, starts⟩ := Option.map_eq_some_iff.mp answered
  have single := (single_response_iff uploadSettings _ boundary ran).mpr along
  have member : [413, 408] ∈ boundary.exchanges.map (·.starts) := by
    rw [starts]
    exact List.mem_singleton.mpr rfl
  obtain ⟨exchange, present, twice⟩ := List.mem_map.mp member
  have few := (single exchange present).1
  rw [twice] at few
  exact absurd few (by decide)

end VllmVerifier.Middleware
