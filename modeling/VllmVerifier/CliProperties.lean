import VllmVerifier.Cli
import VllmVerifier.RouterProperties

/-!
A server that others can reach asks for its key. The command line looks whether
there is a key, and the boundary whether the key is empty; between them no request
without it gets past the health checks.
-/

set_option autoImplicit false

namespace VllmVerifier.Cli

open Python Machine Middleware Router

/-! ## Keys -/

theorem encode_eq_nil {text : Str} : encode text = [] ↔ text = [] := by
  cases text with
  | nil => simp [encode]
  | cons code rest =>
      have nonempty : encodeCode code ≠ [] := by
        unfold encodeCode
        split_ifs <;> simp
      simp [encode, nonempty]

theorem main_keyed {arguments : Arguments} {environment : Environment} {settings : Settings}
    (started : main arguments environment = .ok settings) (exposed : settings.host ∉ loopback) :
    ∃ key, settings.apiKey = some key ∧ key ≠ [] := by
  obtain ⟨port, _, started⟩ := except_bind_ok started
  obtain ⟨runtime, _, started⟩ := except_bind_ok started
  obtain ⟨created, _, started⟩ := except_bind_ok started
  dsimp only at started
  split at started
  · cases started
  · rename_i allowed
    cases started
    generalize ((created.setRuntime runtime).setModel arguments.model |>.setHost
      arguments.host |>.setPort port) = settings at allowed exposed
    cases keyed : settings.apiKey with
    | none => exact absurd ⟨keyed, exposed⟩ allowed
    | some key => exact ⟨key, rfl, fun empty => settings.keyed (by rw [keyed, empty])⟩

variable {settings : BoundarySettings}

/-- With a key in force, every path but the open ones is guarded by it. -/
theorem refused_iff {key : Bytes} (given : settings.apiKey = some key) (nonempty : key ≠ [])
    (scope : Scope) : refused settings scope = true ↔
      scope.http = true ∧ scope.path ∉ openPaths ∧
        ((Dict.ofPairs scope.headers).get? (lit "authorization")).getD [] ≠
          lit "Bearer " ++ key := by
  have guarding : guarded settings scope = decide (scope.path ∉ openPaths) := by
    unfold guarded
    cases key with
    | nil => exact absurd rfl nonempty
    | cons first rest => rw [given]
  simp only [refused, guarding, authenticated, given, Option.getD_some, Bool.and_eq_true,
    decide_eq_true_eq, Bool.not_eq_true', beq_eq_false_iff_ne, ne_eq, and_assoc]

/-! ## Refusals -/

/-- A request that the key check refuses is told so, once, and no more. -/
def Denied (settings : BoundarySettings) (exchange : Exchange) : Prop :=
  refused settings exchange.scope = true → exchange.starts = [401]

theorem call_denied (settings : BoundarySettings) (active : Int) (scope : Scope) :
    Denied settings (call settings active scope).1 := by
  intro known
  unfold call at known ⊢
  dsimp only at known ⊢
  split_ifs at known ⊢ with plain key decision full
  · simp [refused, Exchange.callApp] at known
    simp [known] at plain
  · rfl
  all_goals
    simp only [refused, Exchange.reject, Exchange.awaitBody, Exchange.callApp, Bool.and_eq_true]
      at known
    exact absurd (Bool.and_eq_true_iff.mpr ⟨known.1.2, known.2⟩) key

theorem Move.denied {exchange next : Exchange} (move : Move exchange next)
    (sound : Middleware.Sound settings exchange) (denied : Denied settings exchange) :
    Denied settings next := by
  cases move with
  | leave | start | read | serve | deliver => exact denied
  | reject code timed body open' known =>
      intro key
      obtain ⟨_, phase | ⟨_, phase⟩⟩ := sound.untouched key
      · simp [Exchange.timed, phase] at open'
      · simp [Exchange.timed, phase] at open'

theorem run_denied {events : List Event} {boundary : Boundary}
    (ran : run (step settings) initial events = some boundary) :
    Counted settings boundary ∧ ∀ exchange ∈ boundary.exchanges, Denied settings exchange := by
  have kept : ∀ (boundary : Boundary) event next,
      (Counted settings boundary ∧ ∀ exchange ∈ boundary.exchanges, Denied settings exchange) →
      step settings boundary event = some next →
      Counted settings next ∧ ∀ exchange ∈ next.exchanges, Denied settings exchange := by
    intro boundary event next held stepped
    obtain ⟨counted, denied⟩ := held
    refine ⟨step_counted counted stepped, ?_⟩
    cases event with
    | call scope =>
        simp only [step, Option.some.injEq] at stepped
        subst stepped
        exact List.forall_mem_append.mpr
          ⟨denied, List.forall_mem_singleton.mpr (call_denied settings boundary.active scope)⟩
    | act index action =>
        obtain ⟨before, after, found, _, move, exchanges, _⟩ := act_cases stepped
        have member := List.mem_of_getElem? found
        rw [exchanges]
        exact forall_set denied index
          (Move.denied move (counted.sound before member) (denied before member))
  exact run_invariant kept ran ⟨.initial, fun _ member => by cases member⟩

/-! ## Open paths -/

theorem dispatch_open {method path : Str} {endpoint : Endpoint} (opened : path ∈ openPaths)
    (dispatched : dispatch method path = some endpoint) :
    endpoint = .health ∨ endpoint = .readiness := by
  unfold dispatch at dispatched
  obtain ⟨route, found, rfl⟩ := Option.map_eq_some_iff.mp dispatched
  have known := List.find?_some found
  obtain ⟨_, matched⟩ := Bool.and_eq_true_iff.mp known
  have member := List.mem_of_find?_eq_some found
  have all : ∀ route ∈ routes, ∀ path ∈ openPaths, literalMatch route.path path = true →
      route.endpoint = .health ∨ route.endpoint = .readiness := by
    decide
  exact all route member path opened matched

/-- Where a server is started for others to reach, in every run of its boundary a request
either presents the key, or it is for a path that no handler but the health checks
serves, or it gets a 401 and nothing else: its body is not read, it takes no slot and
the app never sees it. -/
theorem exposed_authenticates (arguments : Arguments) (environment : Environment)
    (settings : Settings) (started : main arguments environment = .ok settings)
    (exposed : settings.host ∉ loopback) (events : List Event) (boundary : Boundary)
    (ran : run (step settings.boundary) initial events = some boundary) :
    ∃ key, settings.apiKey = some key ∧ key ≠ [] ∧
      ∀ exchange ∈ boundary.exchanges, exchange.scope.http = true →
        ((Dict.ofPairs exchange.scope.headers).get? (lit "authorization") =
          some (lit "Bearer " ++ encode key)) ∨
        (exchange.scope.path ∈ openPaths ∧ ∀ method endpoint,
          dispatch method exchange.scope.path = some endpoint →
            endpoint = .health ∨ endpoint = .readiness) ∨
        (exchange.starts = [401] ∧ exchange.receives = 0 ∧ exchange.forwarded = 0 ∧
          exchange.body = [] ∧ exchange.admitted = false ∧ exchange.appCalls = 0) := by
  obtain ⟨key, keyed, nonempty⟩ := main_keyed started exposed
  refine ⟨key, keyed, nonempty, fun exchange member http => ?_⟩
  obtain ⟨counted, denied⟩ := run_denied ran
  have given : settings.boundary.apiKey = some (encode key) := by simp [Settings.boundary, keyed]
  have refusing := refused_iff given (mt encode_eq_nil.mp nonempty) exchange.scope
  by_cases opened : exchange.scope.path ∈ openPaths
  · exact .inr (.inl ⟨opened, fun _ _ dispatched => dispatch_open opened dispatched⟩)
  by_cases presented : ((Dict.ofPairs exchange.scope.headers).get? (lit "authorization")).getD [] =
      lit "Bearer " ++ encode key
  · left
    cases header : (Dict.ofPairs exchange.scope.headers).get? (lit "authorization") with
    | none =>
        rw [header] at presented
        exact absurd presented (by simp [lit])
    | some value =>
        rw [header] at presented
        exact congrArg some presented
  · have key := refusing.mpr ⟨http, opened, presented⟩
    have sound := counted.sound exchange member
    obtain ⟨⟨receives, forwarded, body, calls⟩, _⟩ := sound.untouched key
    have slot := sound.slot.trans (refused_not_passed key)
    exact .inr (.inr ⟨denied exchange member key, receives, forwarded, body, slot, calls⟩)

def everywhere : Arguments := ⟨some (lit "0.0.0.0"), none, none, none⟩

/-- A path that the router takes for a decision path does not get past the key. -/
theorem exposed_authenticates_everywhere :
    ∃ settings boundary, main everywhere { Environment.unset with apiKey := some (lit "k") } =
        .ok settings ∧
      run (step settings.boundary) initial [.call ⟨true, lit "/v1/systemone\n", []⟩] =
        some boundary ∧
      ∀ exchange ∈ boundary.exchanges, exchange.appCalls = 0 := by
  obtain ⟨settings, boundary, started, host, ran, arrived⟩ : ∃ settings boundary,
      main everywhere { Environment.unset with apiKey := some (lit "k") } = .ok settings ∧
        settings.host = lit "0.0.0.0" ∧
        run (step settings.boundary) initial [.call ⟨true, lit "/v1/systemone\n", []⟩] =
          some boundary ∧
        boundary.exchanges.map Exchange.scope = [⟨true, lit "/v1/systemone\n", []⟩] :=
    ⟨_, _, rfl, rfl, rfl, rfl⟩
  obtain ⟨key, _, _, authenticates⟩ := exposed_authenticates everywhere _ settings started
    (by rw [host]; decide) _ boundary ran
  refine ⟨settings, boundary, started, ran, fun exchange member => ?_⟩
  have scope := List.mem_singleton.mp (arrived ▸ List.mem_map_of_mem member)
  rcases authenticates exchange member (by rw [scope]) with presented | ⟨opened, _⟩ | denied
  · rw [scope] at presented
    cases presented
  · rw [scope] at opened
    exact absurd opened (by decide)
  · exact denied.2.2.2.2.2

end VllmVerifier.Cli
