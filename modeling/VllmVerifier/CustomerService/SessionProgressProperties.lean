import Mathlib.Algebra.Group.Action.Defs
import Mathlib.Algebra.Order.BigOperators.Group.List
import VllmVerifier.CustomerService.SessionStoreProperties

/-!
Requests for sessions come to an end: a lock that is let go reaches the next
waiter, whatever was cancelled in between.
-/

set_option autoImplicit false

namespace VllmVerifier.CustomerService.Sessions

open Python

variable {Time : Type} [Unicode] {settings : Settings Time} {server next : Server Time}

/-- The steps that the requests can still take. -/
def Server.work (server : Server Time) : Nat := (server.requests.map Request.work).sum

def Server.Finished (server : Server Time) : Prop :=
  ∀ (id : Nat) (request : Request), server.requests[id]? = some request → request.stage = .ended

omit [Unicode] in
theorem Touched.lowers {id index : Nat} {request : Request}
    (touched : Touched server id request index next) (asked : server.requests[id]? = some request) :
    next.work < server.work := by
  obtain ⟨after, session, more, shape, _, _, lower, _⟩ := touched.shape
  have total := Machine.sum_set Request.work asked after
  have work : next.work = ((server.requests.set id after).map Request.work).sum := by
    rw [shape]
    rfl
  rw [work, Server.work]
  omega

theorem step_lowers {event : Event Time} {number : Nat} (names : event.request? = some number)
    (resting : server.Resting) (stepped : step settings server event = some next) :
    next.work < server.work := by
  obtain ⟨request, index, session, here, acted⟩ := step_act names stepped
  exact (act_touched (resting number request here.asked) acted).lowers here.asked

/-- A step of an event loop that runs what is ready, with what the classifier makes of each request. -/
inductive Serving (classifier : Nat → Except PyException Classification) (clock : Time) :
    Event Time → Prop where
  | resume (id : Nat) : Serving classifier clock (.resume id clock)
  | answer (id : Nat) : Serving classifier clock (.answer id (classifier id) clock)

theorem step_of_act {id index : Nat} {request : Request} {session : Session Time}
    {event : Event Time} (names : event.request? = some id)
    (here : server.At id request index session) :
    step settings server event = act server id request index session event := by
  cases event with
  | arrive => cases names
  | resume | answer | unwind | expire | cancel =>
      cases names
      simp [step, Event.request?, here.asked, here.joined, here.object]

/-- The request that has a lock is at the classifier. -/
theorem answer_enabled {id index : Nat} {request : Request} {session : Session Time}
    (resting : server.Resting) (here : server.At id request index session)
    (holding : server.status index id = .holding) (answer : Except PyException Classification)
    (later : Time) : ∃ next, step settings server (.answer id answer later) = some next := by
  rw [here.status] at holding
  have going : request.stage ≠ .ended := by
    intro ended
    rw [ended] at holding
    cases holding
  rcases (resting id request here.asked).cases_going going with
    locking | ⟨text, intent, working, asked, classifying⟩
  · rw [locking] at holding
    cases holding
  · rw [step_of_act rfl here]
    exact ⟨_, by simp only [act, asked, classifying]; rfl⟩

theorem resume_enabled {id index : Nat} {request : Request} {session : Session Time}
    {future : Asyncio.Future} (resting : server.Resting)
    (here : server.At id request index session) (waiting : server.status index id = .waiting)
    (found : session.lock.future? id = some future) (done : future ≠ .pending) (later : Time) :
    ∃ next, step settings server (.resume id later) = some next := by
  rw [here.status] at waiting
  have going : request.stage ≠ .ended := by
    intro ended
    rw [ended] at waiting
    cases waiting
  rcases (resting id request here.asked).cases_going going with
    locking | ⟨text, intent, working, asked, classifying⟩
  · rw [step_of_act rfl here]
    cases future with
    | pending => exact absurd rfl done
    | woken | cancelled => exact ⟨_, by simp only [act, locking, found]; rfl⟩
  · rw [classifying] at waiting
    cases waiting

omit [Unicode] in
theorem at_of_status {index id : Nat} (session : Session Time)
    (known : server.objects[index]? = some session) (busy : server.status index id ≠ .idle) :
    ∃ request, server.At id request index session := by
  unfold Server.status at busy
  cases asked : server.requests[id]? with
  | none => simp [asked] at busy
  | some request =>
      rw [asked] at busy
      by_cases joined : request.session = some index
      · exact ⟨request, asked, joined, known⟩
      · simp [joined] at busy

theorem progress (valid : Valid server) (resting : server.Resting) (going : ¬ server.Finished)
    (classifier : Nat → Except PyException Classification) (clock : Time) :
    ∃ event next, Serving classifier clock event ∧ step settings server event = some next ∧
      next.work < server.work := by
  have enabled : ∃ event next, Serving classifier clock event ∧
      step settings server event = some next := by
    obtain ⟨id, request, asked, open_⟩ : ∃ (id : Nat) (request : Request),
        server.requests[id]? = some request ∧ request.stage ≠ .ended := by
      by_contra none
      refine going fun id request asked => ?_
      by_contra open_
      exact none ⟨id, request, asked, open_⟩
    obtain ⟨index, joined⟩ : ∃ index, request.session = some index := by
      cases joined : request.session with
      | none => exact absurd (valid.unplaced id request asked joined) open_
      | some index => exact ⟨index, rfl⟩
    have bound := valid.placed id index request asked joined
    have here : server.At id request index server.objects[index] :=
      ⟨asked, joined, List.getElem?_eq_getElem bound⟩
    have consistent := valid.locks index _ here.object
    have served : ∀ other, server.status index other = .holding → ∃ event next,
        Serving classifier clock event ∧ step settings server event = some next := by
      intro other holding
      obtain ⟨owner, there⟩ := at_of_status _ here.object (by rw [holding]; simp)
      obtain ⟨next, stepped⟩ := answer_enabled resting there holding (classifier other) clock
      exact ⟨_, next, .answer other, stepped⟩
    rcases (resting id request asked).cases_going open_ with locking | ⟨_, _, working, _, stage⟩
    · have waiting : server.status index id = .waiting := by
        rw [here.status, locking]
        rfl
      rcases consistent.progress waiting with ⟨other, holding⟩ | ⟨other, future, waits, found, done⟩
      · exact served other holding
      · obtain ⟨waiter, there⟩ := at_of_status _ here.object (by rw [waits]; simp)
        obtain ⟨next, stepped⟩ := resume_enabled resting there waits found done clock
        exact ⟨_, next, .resume other, stepped⟩
    · exact served id (here.status.trans (by rw [stage]; rfl))
  obtain ⟨event, next, serving, stepped⟩ := enabled
  refine ⟨event, next, serving, stepped, ?_⟩
  cases serving with
  | resume id => exact step_lowers rfl resting stepped
  | answer id => exact step_lowers rfl resting stepped

omit [Unicode] in
theorem Server.Resting.work_le (resting : server.Resting) :
    server.work ≤ 4 * server.requests.length := by
  have each : ∀ work ∈ server.requests.map Request.work, work ≤ 4 := by
    intro work member
    obtain ⟨request, present, rfl⟩ := List.mem_map.mp member
    obtain ⟨id, asked⟩ := List.mem_iff_getElem?.mp present
    unfold Request.work
    by_cases ended : request.stage = .ended
    · rw [ended]
      exact Nat.zero_le _
    · rcases (resting id request asked).cases_going ended with locking | ⟨_, _, working, _, stage⟩
      · simp only [locking, Stage.rank]
        split <;> split <;> omega
      · simp only [stage, Stage.rank]
        split <;> split <;> omega
  have total := List.sum_le_card_nsmul _ _ each
  rw [List.length_map, smul_eq_mul, Nat.mul_comm] at total
  exact total

theorem run_lowers {events : List (Event Time)} {last : Server Time} (valid : Valid server)
    (resting : server.Resting) (internal : ∀ event ∈ events, event.request?.isSome)
    (ran : Machine.run (step settings) server events = some last) :
    events.length ≤ server.work := by
  induction events generalizing server with
  | nil => exact Nat.zero_le _
  | cons event rest ih =>
      obtain ⟨next, stepped, ran⟩ := Machine.run_cons ran
      obtain ⟨number, names⟩ := Option.isSome_iff_exists.mp (internal event List.mem_cons_self)
      have later := ih (step_valid valid stepped) (step_resting valid resting stepped)
        (fun event member => internal event (List.mem_cons_of_mem _ member)) ran
      have lower := step_lowers names resting stepped
      exact Nat.succ_le_of_lt (Nat.lt_of_le_of_lt later lower)

/-- Once no request arrives, every schedule is short, and unless all requests are over a
waiter can resume or a turn is at the classifier. -/
structure Lively (settings : Settings Time) (server : Server Time) : Prop where
  short : ∀ (events : List (Event Time)) (last : Server Time),
    (∀ event ∈ events, event.request?.isSome) →
    Machine.run (step settings) server events = some last → events.length ≤ 4 * server.requests.length
  finishes : ∀ (classifier : Nat → Except PyException Classification) (clock : Time),
    ∃ events last, (∀ event ∈ events, Serving classifier clock event) ∧
      Machine.run (step settings) server events = some last ∧ last.Finished

/-- No request waits for ever, whatever has happened to the others. -/
theorem requests_finish {events : List (Event Time)}
    (ran : Machine.run (step settings) .initial events = some server) : Lively settings server := by
  obtain ⟨valid, resting, _⟩ := run_stored ran
  refine ⟨fun later last internal ran => ?_, fun classifier clock => ?_⟩
  · exact (run_lowers valid resting internal ran).trans resting.work_le
  · have preserved : ∀ (state : Server Time) (event : Event Time) (next : Server Time),
        Valid state ∧ state.Resting → step settings state event = some next →
        Valid next ∧ next.Resting := fun state event next given stepped =>
      ⟨step_valid given.1 stepped, step_resting given.1 given.2 stepped⟩
    have advances : ∀ state : Server Time, Valid state ∧ state.Resting → ¬ state.Finished →
        ∃ event next, Serving classifier clock event ∧ step settings state event = some next ∧
          next.work < state.work := fun state given going =>
      progress given.1 given.2 going classifier clock
    exact Machine.run_completes_by Server.work preserved advances ⟨valid, resting⟩

omit [Unicode] in
theorem requests_finish_two : ∃ server : Server Nat,
    Machine.run (@step Nat basicUnicode tenUnits) .initial (busySession.take 3) = some server ∧
      (server.status 0 0 = .holding ∧ server.status 0 1 = .waiting) ∧
        @Lively Nat basicUnicode tenUnits server := by
  obtain ⟨server, found⟩ := Option.isSome_iff_exists.mp (show
    ((Machine.run (@step Nat basicUnicode tenUnits) .initial (busySession.take 3)).filter
      fun server => server.status 0 0 = .holding ∧ server.status 0 1 = .waiting).isSome = true by
      decide +kernel)
  obtain ⟨ran, held⟩ := Option.filter_eq_some_iff.mp found
  exact ⟨server, ran, of_decide_eq_true held,
    @requests_finish Nat basicUnicode _ server (busySession.take 3) ran⟩

end VllmVerifier.CustomerService.Sessions
