import VllmVerifier.Decision.AttributionProperties
import VllmVerifier.Decision.FailureProperties
import VllmVerifier.Decision.ProgressProperties

/-!
How far a failed submission reaches: two runs of the service that differ in the
outcome of one call differ in the futures of its jobs only, and of a failed
call these futures receive errors. It takes an exception that reaches the worker.
-/

set_option autoImplicit false

namespace VllmVerifier.Decision.Service

open Python Asyncio Machine

variable {α : Type} {settings : ServiceSettings} {ids : List Nat}

/-! ## Twin services -/

/-- The same jobs, up to how the futures of these are set. -/
structure Twins (ids : List Nat) (jobs others : List (Job α)) : Prop where
  length : others.length = jobs.length
  each : ∀ (id : Nat) (job : Job α), jobs[id]? = some job → ∃ twin, others[id]? = some twin ∧
    twin.request = job.request ∧ (twin.future = job.future ∨
      id ∈ ids ∧ job.future.done = true ∧ twin.future.done = true)

/-- The same call, up to the outcome that it ended with, if that reaches the worker. -/
structure CallTwin (call twin : Call α) : Prop where
  batch : twin.batch = call.batch
  requests : twin.requests = call.requests
  outcome : twin.outcome = call.outcome ∨ ∃ outcome other, call.outcome = some outcome ∧
    twin.outcome = some other ∧ outcome.arrives = true ∧ other.arrives = true

/-- Two services that agree but for the outcomes of calls, and for the futures of
these jobs, to which every call belongs whose outcome the worker has yet to see. -/
structure Alike (ids : List Nat) (service other : Service α) : Prop where
  same : ∃ jobs calls, other = { service with jobs, calls }
  jobs : Twins ids service.jobs other.jobs
  calls : List.Forall₂ CallTwin service.calls other.calls
  current : ∀ jobs live, service.worker = .running jobs live →
    service.calls.getLast? ≠ other.calls.getLast? → ∀ id ∈ live, id ∈ ids

variable {service other : Service α}

theorem Twins.refl (ids : List Nat) (jobs : List (Job α)) : Twins ids jobs jobs :=
  ⟨rfl, fun _ job found => ⟨job, found, rfl, .inl rfl⟩⟩

theorem Twins.none {jobs others : List (Job α)} (twins : Twins ids jobs others) {id : Nat}
    (absent : jobs[id]? = none) : others[id]? = none := by
  rw [List.getElem?_eq_none_iff] at absent ⊢
  exact twins.length ▸ absent

theorem Twins.set {jobs others : List (Job α)} (twins : Twins ids jobs others) {id : Nat}
    {job twin : Job α} (found : jobs[id]? = some job) (located : others[id]? = some twin)
    (future : Future α) :
    Twins ids (jobs.set id { job with future }) (others.set id { twin with future }) := by
  refine ⟨by simp [twins.length], fun position held here => ?_⟩
  by_cases same : id = position
  · subst same
    obtain ⟨known, twinFound, request, _⟩ := twins.each id job found
    cases located.symm.trans twinFound
    have inside := (List.getElem?_eq_some_iff.mp found).1
    have twinInside := (List.getElem?_eq_some_iff.mp located).1
    rw [List.getElem?_set_self inside] at here
    cases here
    exact ⟨_, List.getElem?_set_self twinInside, request, .inl rfl⟩
  · rw [List.getElem?_set_ne same] at here ⊢
    exact twins.each position held here

theorem Twins.done {jobs others : List (Job α)} (twins : Twins ids jobs others) {id : Nat}
    {job twin : Job α} (found : jobs[id]? = some job) (located : others[id]? = some twin) :
    twin.future.done = job.future.done := by
  obtain ⟨known, twinFound, _, future⟩ := twins.each id job found
  cases located.symm.trans twinFound
  rcases future with same | ⟨_, set, twinSet⟩
  · exact congrArg Future.done same
  · exact twinSet.trans set.symm

theorem Alike.isDone (alike : Alike ids service other) (id : Nat) :
    other.isDone id = service.isDone id := by
  unfold Service.isDone
  cases found : service.jobs[id]? with
  | none => rw [alike.jobs.none found]
  | some job =>
      obtain ⟨twin, located, _, _⟩ := alike.jobs.each id job found
      rw [located]
      exact alike.jobs.done found located

/-! ## What each operation keeps -/

theorem Alike.settleUnlessDone (alike : Alike ids service other) (id : Nat) (future : Future α) :
    Together (Alike ids) (service.settleUnlessDone id future)
      (other.settleUnlessDone id future) := by
  unfold Service.settleUnlessDone
  rw [alike.isDone]
  split
  · exact .ok alike
  · unfold Service.settle at?
    cases found : service.jobs[id]? with
    | none =>
        rw [alike.jobs.none found]
        exact .error _
    | some job =>
        obtain ⟨twin, located, _, _⟩ := alike.jobs.each id job found
        have done := alike.jobs.done found located
        rw [located]
        dsimp only
        rw [except_ok_bind, except_ok_bind, done]
        split
        · exact .error _
        · obtain ⟨jobs, calls, rfl⟩ := alike.same
          exact .ok ⟨⟨_, _, rfl⟩, alike.jobs.set found located future, alike.calls, alike.current⟩

theorem Alike.taskDone (alike : Alike ids service other) (id : Nat) :
    Together (Alike ids) (service.taskDone id) (other.taskDone id) := by
  obtain ⟨jobs, calls, rfl⟩ := alike.same
  unfold Service.taskDone
  dsimp only
  split
  · exact .error _
  · exact .ok ⟨⟨_, _, rfl⟩, alike.jobs, alike.calls, alike.current⟩

theorem Alike.stop (alike : Alike ids service other) (id : Nat) :
    Together (Alike ids) (service.stop id) (other.stop id) :=
  (alike.settleUnlessDone id _).bind fun _ _ settled => settled.taskDone id

theorem Alike.account (alike : Alike ids service other) (jobs : List Nat) :
    Together (Alike ids) (service.account jobs) (other.account jobs) := by
  refine (Together.foldlM (fun id _ _ known => known.taskDone id) jobs alike).bind ?_
  intro done twin known
  obtain ⟨later, calls, rfl⟩ := known.same
  exact .ok ⟨⟨_, _, rfl⟩, known.jobs, known.calls, fun _ _ running => by cases running⟩

theorem Alike.finish (alike : Alike ids service other) (jobs : List Nat) :
    Together (Alike ids) (service.finish jobs) (other.finish jobs) := by
  obtain ⟨others, calls, rfl⟩ := alike.same
  have emptied : Alike ids { service with queue := [] }
      { service with queue := [], jobs := others, calls } :=
    ⟨⟨_, _, rfl⟩, alike.jobs, alike.calls, alike.current⟩
  refine (Together.foldlM (fun id _ _ known => known.stop id) _ emptied).bind ?_
  intro stopped twin known
  obtain ⟨later, calls, rfl⟩ := known.same
  exact .ok ⟨⟨_, _, rfl⟩, known.jobs, known.calls, fun _ _ running => by cases running⟩

theorem Twins.request {jobs others : List (Job α)} (twins : Twins ids jobs others) (id : Nat) :
    (do
      let job ← at? others id
      pure job.request : Except PyException SystemOneRequest) = (do
      let job ← at? jobs id
      pure job.request) := by
  unfold at?
  cases found : jobs[id]? with
  | none => rw [twins.none found]
  | some job =>
      obtain ⟨twin, located, request, _⟩ := twins.each id job found
      rw [located]
      exact congrArg Except.ok request

theorem CallTwin.refl (call : Call α) : CallTwin call call :=
  ⟨rfl, rfl, .inl rfl⟩

theorem Alike.dispatch (alike : Alike ids service other) (first : List Nat) :
    Together (Alike ids) (service.dispatch settings first) (other.dispatch settings first) := by
  obtain ⟨others, calls, rfl⟩ := alike.same
  unfold Service.dispatch
  cases collected : collect settings first service.queue with
  | mk jobs queue =>
      dsimp only
      have held : Alike ids { service with queue } { service with queue, jobs := others, calls } :=
        ⟨⟨_, _, rfl⟩, alike.jobs, alike.calls, alike.current⟩
      have live : (jobs.filter fun id =>
          !({ service with queue, jobs := others, calls } : Service α).isDone id) =
          jobs.filter fun id => !({ service with queue } : Service α).isDone id :=
        List.filter_congr fun id _ => by rw [held.isDone]
      rw [live]
      split
      · exact held.account jobs
      · split
        · have requests := fun id => alike.jobs.request id
          dsimp only at requests
          simp only [requests]
          cases (jobs.filter fun id => !({ service with queue } : Service α).isDone id).mapM
              (fun id => do
                let job ← at? service.jobs id
                pure job.request : Nat → Except PyException SystemOneRequest) with
          | error error => exact .error error
          | ok mapped =>
              refine .ok ⟨⟨_, _, rfl⟩, alike.jobs, ?_, ?_⟩
              · exact List.rel_append alike.calls (.cons (CallTwin.refl _) .nil)
              · intro _ _ _ differ
                simp at differ
        · exact .error _

theorem Alike.got (alike : Alike ids service other) (first : Nat) (queue : List Nat) :
    Together (Alike ids) (service.got settings first queue) (other.got settings first queue) := by
  obtain ⟨others, calls, rfl⟩ := alike.same
  have held : Alike ids { service with queue } { service with queue, jobs := others, calls } :=
    ⟨⟨_, _, rfl⟩, alike.jobs, alike.calls, alike.current⟩
  unfold Service.got
  dsimp only
  split
  · exact .ok ⟨⟨_, _, rfl⟩, alike.jobs, alike.calls, fun _ _ running => by cases running⟩
  · exact held.dispatch [first]

theorem Alike.orFail (alike : Alike ids service other)
    {result twin : Except PyException (Service α)}
    (together : Together (Alike ids) result twin) :
    Alike ids (service.orFail result) (other.orFail twin) := by
  cases together with
  | ok known => exact known
  | error raised =>
      obtain ⟨others, calls, rfl⟩ := alike.same
      exact ⟨⟨_, _, rfl⟩, alike.jobs, alike.calls, fun _ _ running => by cases running⟩

theorem Alike.resume (alike : Alike ids service other) (jobs live : List Nat)
    (outcome : CallOutcome α) :
    Together (Alike ids) (service.resume jobs live outcome) (other.resume jobs live outcome) := by
  unfold Service.resume
  split
  · exact (Together.foldlM (fun item _ _ known => known.settleUnlessDone item.1 _) _ alike).bind
      fun _ _ known => known.account jobs
  · exact alike.finish jobs

theorem Twins.advance {jobs others later otherLater : List (Job α)} {live : List Nat}
    (twins : Twins ids jobs others) {allowed otherAllowed : Nat → Future α → Prop}
    (advances : Advances allowed jobs later)
    (otherAdvances : Advances otherAllowed others otherLater)
    (only : ∀ id future, allowed id future → id ∈ live)
    (otherOnly : ∀ id future, otherAllowed id future → id ∈ live)
    (within : ∀ id ∈ live, id ∈ ids) (done : ∀ id ∈ live, Done later id)
    (otherDone : ∀ id ∈ live, Done otherLater id) : Twins ids later otherLater := by
  refine ⟨by rw [otherAdvances.length, advances.length, twins.length], fun id next located => ?_⟩
  have inside := advances.length ▸ (List.getElem?_eq_some_iff.mp located).1
  have found := List.getElem?_eq_getElem inside
  obtain ⟨twin, twinFound, request, future⟩ := twins.each id _ found
  obtain ⟨known, knownFound, nextRequest, nextFuture⟩ := advances.each id _ found
  cases located.symm.trans knownFound
  obtain ⟨twinNext, twinLocated, twinRequest, twinFuture⟩ := otherAdvances.each id twin twinFound
  refine ⟨twinNext, twinLocated, by rw [twinRequest, request, nextRequest], ?_⟩
  by_cases member : id ∈ live
  · obtain ⟨set, setFound, setDone⟩ := done id member
    obtain ⟨twinSet, twinSetFound, twinDone⟩ := otherDone id member
    cases located.symm.trans setFound
    cases twinLocated.symm.trans twinSetFound
    exact .inr ⟨within id member, setDone, twinDone⟩
  · have kept : next.future = jobs[id].future := by
      rcases nextFuture with same | ⟨_, _, given⟩
      · exact same
      · exact absurd (only id _ given) member
    have twinKept : twinNext.future = twin.future := by
      rcases twinFuture with same | ⟨_, _, given⟩
      · exact same
      · exact absurd (otherOnly id _ given) member
    rw [kept, twinKept]
    exact future

private theorem zipped {live : List Nat} {outcome : CallOutcome α} (id : Nat) (future : Future α)
    (given : ∃ item ∈ live.zip (results live outcome), id = item.1 ∧ future = received item.2) :
    id ∈ live := by
  obtain ⟨item, member, rfl, _⟩ := given
  exact (List.of_mem_zip member).1

/-- Outcomes that differ set the futures of these jobs, and agree on the rest. -/
theorem Alike.resumeApart (alike : Alike ids service other) (valid : Valid settings service)
    (otherValid : Valid settings other) {jobs live : List Nat}
    (worker : service.worker = .running jobs live) (within : ∀ id ∈ live, id ∈ ids)
    {outcome twin : CallOutcome α} (arrives : outcome.arrives = true)
    (twinArrives : twin.arrives = true) :
    Together (Alike ids) (service.resume jobs live outcome) (other.resume jobs live twin) := by
  obtain ⟨others, calls, rfl⟩ := alike.same
  obtain ⟨later, resumed, advances, done⟩ := valid.resume_ok worker arrives
  obtain ⟨otherLater, otherResumed, otherAdvances, otherDone⟩ :=
    otherValid.resume_ok worker twinArrives
  have held := (valid.submitted jobs live worker).1
  rw [resumed, otherResumed]
  exact .ok ⟨⟨_, _, rfl⟩, alike.jobs.advance advances otherAdvances zipped zipped within
    (fun id member => done id (held.subset member))
    (fun id member => otherDone id (held.subset member)), alike.calls,
    fun _ _ running => by cases running⟩

/-! ## Steps of twin services -/

theorem Alike.last (alike : Alike ids service other) :
    Option.Rel CallTwin service.calls.getLast? other.calls.getLast? := by
  rcases List.eq_nil_or_concat service.calls with empty | ⟨earlier, call, shape⟩
  · have calls := alike.calls
    rw [empty] at calls
    rw [empty, List.forall₂_nil_left_iff.mp calls]
    exact .none
  · have calls := alike.calls
    rw [shape, List.concat_eq_append] at calls
    obtain ⟨before, twin, twinShape, _, last⟩ := forall₂_concat calls
    rw [shape, twinShape, List.concat_eq_append, List.getLast?_concat, List.getLast?_concat]
    exact .some last

theorem Alike.agree (alike : Alike ids service other) :
    other.worker = service.worker ∧ other.queue = service.queue ∧
      other.cancelling = service.cancelling ∧ other.runtime = service.runtime ∧
        other.closed = service.closed ∧ other.closing = service.closing := by
  obtain ⟨others, calls, rfl⟩ := alike.same
  exact ⟨rfl, rfl, rfl, rfl, rfl, rfl⟩

theorem lost_of_arrives {outcome : CallOutcome α} (arrives : outcome.arrives = true) :
    outcome.lost = false := by
  cases outcome with
  | returned | dropped => rfl
  | raised error =>
      rw [CallOutcome.arrives, decide_eq_true_iff] at arrives
      simp [CallOutcome.lost, arrives]

theorem Alike.work (alike : Alike ids service other) (valid : Valid settings service)
    (otherValid : Valid settings other) :
    Option.Rel (Alike ids) (service.work settings) (other.work settings) := by
  obtain ⟨sameWorker, sameQueue, sameCancelling, _⟩ := alike.agree
  unfold Service.work
  rw [sameWorker, sameQueue, sameCancelling]
  cases worker : service.worker with
  | absent | finished | failed => exact .none
  | scheduled =>
      obtain ⟨others, calls, rfl⟩ := alike.same
      refine .some ⟨⟨_, _, rfl⟩, alike.jobs, alike.calls, fun _ _ running => ?_⟩
      dsimp only at running
      split at running <;> cases running
  | looping =>
      cases service.queue with
      | nil =>
          obtain ⟨others, calls, rfl⟩ := alike.same
          exact .some ⟨⟨_, _, rfl⟩, alike.jobs, alike.calls, fun _ _ running => by cases running⟩
      | cons first rest => exact .some (alike.orFail (alike.got first rest))
  | getting =>
      cases service.cancelling with
      | true => exact .some (alike.orFail (alike.finish []))
      | false =>
          cases service.queue with
          | nil => exact .none
          | cons first rest => exact .some (alike.orFail (alike.got first rest))
  | sleeping jobs =>
      cases service.cancelling with
      | true => exact .some (alike.orFail (alike.finish jobs))
      | false => exact .some (alike.orFail (alike.dispatch jobs))
  | running jobs live =>
      cases service.cancelling with
      | true => exact .some (alike.orFail (alike.finish jobs))
      | false =>
          have last := alike.last
          have within := alike.current jobs live worker
          generalize service.calls.getLast? = call at last within
          generalize other.calls.getLast? = twin at last within
          cases last with
          | none => exact .none
          | @some call twin ended =>
              rcases ended.outcome with same |
                ⟨outcome, twinOutcome, known, twinKnown, arrives, twinArrives⟩
              · simp only [Option.bind_some, same]
                cases call.outcome with
                | none => exact .none
                | some outcome =>
                    cases lost : outcome.lost with
                    | true => simp [lost]
                    | false =>
                        simpa [lost] using alike.orFail (alike.resume jobs live outcome)
              · simp only [Option.bind_some, known, twinKnown, lost_of_arrives arrives,
                  lost_of_arrives twinArrives]
                by_cases same : twin = call
                · rw [same, known] at twinKnown
                  cases twinKnown
                  exact .some (alike.orFail (alike.resume jobs live outcome))
                · have differ : some call ≠ some twin := fun equal =>
                    same (Option.some.inj equal).symm
                  exact .some (alike.orFail
                    (alike.resumeApart valid otherValid worker (within differ) arrives twinArrives))

theorem Alike.endCall (alike : Alike ids service other) (outcome : CallOutcome α) :
    Option.Rel (Alike ids) (service.endCall outcome) (other.endCall outcome) := by
  obtain ⟨_, _, sameCancelling, _⟩ := alike.agree
  unfold Service.endCall
  rcases List.eq_nil_or_concat service.calls with empty | ⟨earlier, call, shape⟩
  · have calls := alike.calls
    rw [empty] at calls
    rw [empty, List.forall₂_nil_left_iff.mp calls]
    exact .none
  · have calls := alike.calls
    rw [shape, List.concat_eq_append] at calls
    obtain ⟨before, twin, twinShape, earlierTwins, last⟩ := forall₂_concat calls
    rw [shape, twinShape, List.concat_eq_append, List.getLast?_concat, List.getLast?_concat,
      List.dropLast_concat, List.dropLast_concat]
    dsimp only
    rcases last.outcome with same | ⟨_, _, known, twinKnown, _⟩
    · rw [same]
      have ended : Alike ids { service with calls := earlier ++ [{ call with outcome }] }
          { other with calls := before ++ [{ twin with outcome }] } := by
        have replaced : ({ twin with outcome } : Call α) = { call with outcome } := by
          rw [last.batch, last.requests]
        obtain ⟨others, calls, rfl⟩ := alike.same
        rw [replaced]
        refine ⟨⟨_, _, rfl⟩, alike.jobs, ?_, ?_⟩
        · exact List.rel_append earlierTwins (.cons (CallTwin.refl _) .nil)
        · intro _ _ _ differ
          simp at differ
      cases call.outcome with
      | some _ => exact .none
      | none =>
          cases outcome with
          | dropped =>
              by_cases cancelling : service.cancelling = true
              · simp only [if_pos cancelling, if_pos (sameCancelling.trans cancelling)]
                exact .some ended
              · simp only [if_neg cancelling, if_neg (sameCancelling ▸ cancelling)]
                exact .none
          | returned | raised => exact .some ended
    · rw [known, twinKnown]
      exact .none

theorem Alike.drain (alike : Alike ids service other) : Alike ids service.drain other.drain := by
  obtain ⟨others, calls, rfl⟩ := alike.same
  have emptied : Alike ids { service with queue := [] }
      { service with queue := [], jobs := others, calls } :=
    ⟨⟨_, _, rfl⟩, alike.jobs, alike.calls, alike.current⟩
  have drained := Together.foldlM (fun id _ _ known => known.stop id) service.queue emptied
  unfold Service.drain
  dsimp only
  generalize service.queue.foldlM Service.stop { service with queue := [] } = result at drained
  generalize service.queue.foldlM Service.stop
    { service with queue := [], jobs := others, calls } = twin at drained
  cases drained with
  | error raised => exact ⟨⟨_, _, rfl⟩, alike.jobs, alike.calls, alike.current⟩
  | ok known =>
      obtain ⟨later, laterCalls, rfl⟩ := known.same
      exact ⟨⟨_, _, rfl⟩, known.jobs, known.calls, known.current⟩

theorem Alike.close (alike : Alike ids service other) : Alike ids service.close other.close := by
  have closed : Alike ids { service with closed := true } { other with closed := true } := by
    obtain ⟨others, calls, rfl⟩ := alike.same
    exact ⟨⟨_, _, rfl⟩, alike.jobs, alike.calls, alike.current⟩
  have drained := closed.drain
  obtain ⟨others, calls, rfl⟩ := alike.same
  unfold Service.close
  dsimp only
  split
  · exact alike
  · split
    · exact drained
    · exact ⟨⟨_, _, rfl⟩, alike.jobs, alike.calls, alike.current⟩

theorem Alike.resumeClose (alike : Alike ids service other) :
    Option.Rel (Alike ids) service.resumeClose other.resumeClose := by
  obtain ⟨sameWorker, _, _, _, _, sameClosing⟩ := alike.agree
  have last := alike.last
  unfold Service.resumeClose
  rw [sameClosing]
  cases service.closing with
  | opened | complete | failed => exact .none
  | stopping =>
      dsimp only
      rw [sameWorker]
      split
      · exact .none
      · exact .some alike.drain
  | shutdown =>
      have completed : Alike ids { service with runtime := false, closing := .complete }
          { other with runtime := false, closing := .complete } := by
        obtain ⟨others, calls, rfl⟩ := alike.same
        exact ⟨⟨_, _, rfl⟩, alike.jobs, alike.calls, alike.current⟩
      dsimp only
      generalize service.calls.getLast? = call at last
      generalize other.calls.getLast? = twin at last
      cases last with
      | none => exact .some completed
      | @some call twin ended =>
          obtain ⟨batch, requests, outcome⟩ := call
          obtain ⟨twinBatch, twinRequests, twinOutcome⟩ := twin
          rcases ended.outcome with same | ⟨_, _, known, twinKnown, _⟩
          · cases same
            cases outcome with
            | none => exact .none
            | some outcome => exact .some completed
          · cases known
            cases twinKnown
            exact .some completed

theorem Alike.start (alike : Alike ids service other) :
    Option.Rel (Alike ids) service.start other.start := by
  obtain ⟨others, calls, rfl⟩ := alike.same
  unfold Service.start
  dsimp only
  split
  · exact .some ⟨⟨_, _, rfl⟩, alike.jobs, alike.calls, fun _ _ running => by cases running⟩
  · exact .none

theorem Twins.append {jobs others : List (Job α)} (twins : Twins ids jobs others) (job : Job α) :
    Twins ids (jobs ++ [job]) (others ++ [job]) := by
  refine ⟨by simp [twins.length], fun id held found => ?_⟩
  rcases Nat.lt_or_ge id jobs.length with inside | outside
  · rw [List.getElem?_append_left inside] at found
    rw [List.getElem?_append_left (twins.length ▸ inside)]
    exact twins.each id held found
  · rw [List.getElem?_append_right outside] at found
    rw [List.getElem?_append_right (twins.length ▸ outside), twins.length]
    exact ⟨held, found, rfl, .inl rfl⟩

theorem Alike.evaluate (settings : ServiceSettings) (alike : Alike ids service other)
    (request : SystemOneRequest) :
    Together (Alike ids) (service.evaluate settings request) (other.evaluate settings request) := by
  have length := alike.jobs.length
  obtain ⟨others, calls, rfl⟩ := alike.same
  unfold Service.evaluate Service.ready
  dsimp only at length ⊢
  split
  · exact .error _
  split
  · exact .error _
  split
  · exact .error _
  rw [length]
  exact .ok ⟨⟨_, _, rfl⟩, alike.jobs.append _, alike.calls, alike.current⟩

theorem Alike.cancelCaller (alike : Alike ids service other) (id : Nat) :
    Option.Rel (Alike ids) (service.cancelCaller id) (other.cancelCaller id) := by
  unfold Service.cancelCaller
  cases found : service.jobs[id]? with
  | none =>
      rw [alike.jobs.none found]
      exact .none
  | some job =>
      obtain ⟨twin, located, _, _⟩ := alike.jobs.each id job found
      have done := alike.jobs.done found located
      rw [located]
      dsimp only
      rw [done]
      split
      · exact .some alike
      · obtain ⟨jobs, calls, rfl⟩ := alike.same
        exact .some ⟨⟨_, _, rfl⟩, alike.jobs.set found located .cancelled, alike.calls,
          alike.current⟩

theorem Alike.outside (alike : Alike ids service other) {next twin : Option (Service α)}
    (stepped : Option.Rel (Alike ids) next twin) :
    Option.Rel (Alike ids) (service.outside next) (other.outside twin) := by
  unfold Service.outside
  rw [alike.agree.1]
  split
  · exact .none
  · exact stepped

theorem Alike.step (alike : Alike ids service other) (valid : Valid settings service)
    (otherValid : Valid settings other) (event : Event α) :
    Option.Rel (Alike ids) (step settings service event) (step settings other event) := by
  cases event with
  | start => exact alike.outside alike.start
  | evaluate request =>
      apply alike.outside
      have evaluated := alike.evaluate settings request
      generalize service.evaluate settings request = result at evaluated
      generalize other.evaluate settings request = twin at evaluated
      cases evaluated with
      | ok known => exact .some known
      | error raised => exact .some alike
  | cancelCaller id => exact alike.outside (alike.cancelCaller id)
  | work => exact alike.work valid otherValid
  | endCall outcome => exact alike.endCall outcome
  | close => exact alike.outside (.some alike.close)
  | resumeClose => exact alike.outside alike.resumeClose

/-! ## One call with another outcome -/

/-- What becomes of the last call when it ends. -/
def withOutcome (service : Service α) (call : Call α) (outcome : CallOutcome α) : Service α :=
  { service with calls := service.calls.dropLast ++ [{ call with outcome := some outcome }] }

theorem endCall_pending {service : Service α} {call : Call α}
    (last : service.calls.getLast? = some call) (pending : call.outcome = none)
    {outcome : CallOutcome α} (ran : outcome ≠ .dropped) :
    service.endCall outcome = some (service.withOutcome call outcome) := by
  unfold endCall
  rw [last]
  simp only [pending]
  cases outcome with
  | dropped => exact absurd rfl ran
  | returned | raised => rfl

theorem ran_of_arrives {outcome : CallOutcome α} (arrives : outcome.arrives = true) :
    outcome ≠ .dropped := by
  rintro rfl
  cases arrives

theorem ended_alike {events : List (Event α)} {call : Call α}
    (reached : run (step settings) Service.initial events = some service)
    (last : service.calls.getLast? = some call) {outcome twin : CallOutcome α}
    (arrives : outcome.arrives = true) (twinArrives : twin.arrives = true) :
    Option.Rel (Alike call.batch) (service.endCall outcome) (service.endCall twin) := by
  obtain ⟨_, attributed⟩ := run_attributed reached
  have apart : Alike call.batch (service.withOutcome call outcome)
      (service.withOutcome call twin) := by
    refine ⟨⟨_, _, rfl⟩, Twins.refl _ _, ?_, ?_⟩
    · refine List.rel_append (List.forall₂_same.mpr fun call _ => CallTwin.refl call) ?_
      exact .cons ⟨rfl, rfl, .inr ⟨outcome, twin, rfl, rfl, arrives, twinArrives⟩⟩ .nil
    · intro jobs live running _ id member
      obtain ⟨earlier, current, shape, same, _⟩ := attributed.current jobs live running
      rw [shape, List.getLast?_concat] at last
      cases last
      exact same ▸ member
  cases pending : call.outcome with
  | some _ =>
      unfold Service.endCall
      simp only [last, pending]
      exact .none
  | none =>
      rw [endCall_pending last pending (ran_of_arrives arrives),
        endCall_pending last pending (ran_of_arrives twinArrives)]
      exact .some apart

/-- Whatever a call returns or raises, another outcome of it reaches no other
job: the two services do the same from there on, but for its own futures, as long
as both outcomes reach the worker. -/
theorem outcome_contained {events : List (Event α)} {call : Call α}
    (reached : run (step settings) Service.initial events = some service)
    (last : service.calls.getLast? = some call) {outcome twin : CallOutcome α}
    (arrives : outcome.arrives = true) (twinArrives : twin.arrives = true) (later : List (Event α)) :
    Option.Rel (Alike call.batch) (run (step settings) service (.endCall outcome :: later))
      (run (step settings) service (.endCall twin :: later)) := by
  have valid := run_valid reached
  rw [run_cons_bind, run_cons_bind]
  refine rel_bind (ended_alike reached last arrives twinArrives) ?_
  intro next twinNext ended twinEnded alike
  exact run_together (fun _ _ _ valid stepped => step_valid valid stepped)
    (fun _ _ _ valid stepped => step_valid valid stepped)
    (fun _ _ event valid twinValid alike => alike.step valid twinValid event)
    ((endCall_transition ended).valid valid) ((endCall_transition twinEnded).valid valid) alike later

/-! ## A failed submission -/

section Failed

open KaiRuntime

variable {F : Type} [LogField F] {runtime : KaiRuntime} {plan : Plan}

/-- How the executor's call of `evaluate_batch` ends. -/
def ending : Except PyException (List (Outcome F)) → CallOutcome (SystemOneResponse F)
  | .ok results => .returned results
  | .error error => .raised error

/-- What a request of a submission receives when scoring raises. -/
def blame (runtime : KaiRuntime) (error : PyException) (request : SystemOneRequest) :
    ServiceError :=
  if isScoringError error then runtime.refused request else scoringError

/-- A call during which scoring raised. -/
structure Failed (F : Type) [LogField F] (runtime : KaiRuntime) (plan : Plan)
    (call : Call (SystemOneResponse F)) (error : PyException) : Prop where
  raises : runtime.ScoringRaises F plan call.requests error
  ended : call.outcome = some (ending (runtime.evaluateInPlace plan call.requests))

theorem Failed.of_raises {requests : List SystemOneRequest} {error : PyException}
    (admitted : admission requests = true) (raises : runtime.ScoringRaises F plan requests error)
    (other : isScoringError error = false) (batch : List Nat) :
    Failed F runtime plan ⟨batch, requests, some (.raised error)⟩ error := by
  refine ⟨raises, ?_⟩
  rw [evaluateInPlace_fails admitted raises, other]
  rfl

theorem delivery_of_scoring {error : PyException} (scoring : isScoringError error = true) :
    error ≠ stopIteration ∧ error ≠ futureCancelled := by
  constructor <;>
    · rintro rfl
      cases scoring

theorem ending_arrives {error : PyException} {requests : List SystemOneRequest}
    (ended : (runtime.evaluateInPlace plan requests : Except PyException (List (Outcome F))) =
      if isScoringError error then
        .ok (requests.map fun request => .error (runtime.refused request))
      else .error error) :
    (ending (runtime.evaluateInPlace plan requests : Except PyException (List (Outcome F)))).arrives
      = true ↔ error ≠ stopIteration ∧ error ≠ futureCancelled := by
  rw [ended]
  split
  · exact iff_of_true rfl (delivery_of_scoring (by assumption))
  · rw [ending, CallOutcome.arrives, decide_eq_true_iff, delivery_raised_iff]

theorem Failed.results {call : Call (SystemOneResponse F)} {error : PyException}
    (failed : Failed F runtime plan call error) (admitted : admission call.requests = true)
    (size : call.requests.length = call.batch.length) : ∃ outcome, call.outcome = some outcome ∧
      (outcome.arrives = true ↔ error ≠ stopIteration ∧ error ≠ futureCancelled) ∧
      ∀ item ∈ call.requests.zip (results call.batch outcome),
        item.2 = .error (blame runtime error item.1) := by
  have shape := evaluateInPlace_fails admitted failed.raises
  refine ⟨_, failed.ended, ending_arrives shape, fun item member => ?_⟩
  obtain ⟨position, located⟩ := List.getElem?_of_mem member
  obtain ⟨request, result⟩ := List.getElem?_zip_eq_some.mp located
  rw [shape] at result
  split at result
  · rename_i scoring
    have complete : (call.requests.map fun request =>
        (.error (runtime.refused request) : Outcome F)).length = call.batch.length :=
      (List.length_map ..).trans size
    rw [ending, Service.results, if_pos complete, List.getElem?_map, request] at result
    rw [blame, if_pos scoring]
    exact (Option.some.inj result).symm
  · rename_i other
    rw [ending, Service.results] at result
    rw [blame, if_neg other]
    split at result
    · rw [List.getElem?_map] at result
      obtain ⟨_, _, same⟩ := Option.map_eq_some_iff.mp result
      exact same.symm
    · cases result

variable {service : Service (SystemOneResponse F)}

theorem Failed.at_job {call : Call (SystemOneResponse F)} {error : PyException}
    (failed : Failed F runtime plan call error) (admitted : admission call.requests = true)
    (related : service.requestsOf call.batch call.requests)
    {outcome : CallOutcome (SystemOneResponse F)}
    (known : call.outcome = some outcome) {item : Nat × Outcome F}
    (member : item ∈ call.batch.zip (Service.results call.batch outcome)) :
    ∃ job, service.jobs[item.1]? = some job ∧
      item.2 = .error (blame runtime error job.request) := by
  obtain ⟨_, shape, _, each⟩ := failed.results admitted related.length_eq.symm
  cases known.symm.trans shape
  obtain ⟨position, located⟩ := List.getElem?_of_mem member
  obtain ⟨here, result⟩ := List.getElem?_zip_eq_some.mp located
  obtain ⟨request, requestFound, job, found, same⟩ := forall₂_getElem? related here
  have zipped : (call.requests.zip (Service.results call.batch outcome))[position]? =
      some (request, item.2) := List.getElem?_zip_eq_some.mpr ⟨requestFound, result⟩
  exact ⟨job, found, by rw [same]; exact each _ (List.mem_of_getElem? zipped)⟩

theorem same_call {events : List (Event α)} {service : Service α}
    (reached : run (step settings) Service.initial events = some service) {call other : Call α}
    (member : call ∈ service.calls) (otherMember : other ∈ service.calls) {id : Nat}
    (inside : id ∈ call.batch) (otherInside : id ∈ other.batch) : other = call := by
  obtain ⟨valid, attributed⟩ := run_attributed reached
  have distinct := (attributed.batches_range valid).nodup List.nodup_range
  have apart := (List.nodup_flatMap.mp distinct).2
  have symmetric : Std.Symm (Function.onFun List.Disjoint (@Call.batch α)) :=
    ⟨fun _ _ disjoint => disjoint.symm⟩
  by_contra differ
  exact apart.forall otherMember member differ otherInside inside

/-- No caller of a failed submission receives a response. -/
theorem Failed.no_response {events : List (Event (SystemOneResponse F))}
    (reached : run (step settings) Service.initial events = some service)
    {call : Call (SystemOneResponse F)} (member : call ∈ service.calls) {error : PyException}
    (failed : Failed F runtime plan call error) {id : Nat} (inside : id ∈ call.batch)
    {job : Job (SystemOneResponse F)} (found : service.jobs[id]? = some job)
    (response : SystemOneResponse F) : job.future ≠ .result response := by
  intro result
  obtain ⟨_, attributed⟩ := run_attributed reached
  have earned := attributed.earned id job found
  rw [result] at earned
  rcases earned with same | same | same | ⟨other, otherMember, outcome, known, item, zip, rfl, same⟩
  · cases same
  · cases same
  · cases same
  · cases same_call reached member otherMember inside (List.of_mem_zip zip).1
    obtain ⟨_, admitted, related⟩ := attributed.admitted member
    obtain ⟨_, _, shape⟩ := failed.at_job admitted related known zip
    rw [shape] at same
    cases same

/-- The worker's next step gives each live future of a failed submission its error,
leaves every other future as it is and takes the worker back into its loop. -/
def Contained (settings : ServiceSettings) (runtime : KaiRuntime)
    (service : Service (SystemOneResponse F)) (call : Call (SystemOneResponse F))
    (error : PyException) (jobs : List Nat) : Prop :=
  ∃ later, step settings service .work = some { service with
      jobs := later
      unfinished := service.unfinished - jobs.length
      accounted := service.accounted ++ jobs
      worker := .looping } ∧
    ∀ (id : Nat) (job : Job (SystemOneResponse F)), service.jobs[id]? = some job →
      (id ∈ call.batch → job.future.done = false →
        later[id]? = some { job with
          future := .exception (blame runtime error job.request) }) ∧
      (id ∉ call.batch ∨ job.future.done = true → later[id]? = some job)

/-- What the worker does once its call has ended. -/
theorem work_ended {service : Service α} {call : Call α} {jobs live : List Nat}
    (worker : service.worker = .running jobs live) (last : service.calls.getLast? = some call)
    (open' : service.cancelling = false) {outcome : CallOutcome α}
    (known : call.outcome = some outcome) : service.work settings =
      if outcome.lost then none
      else some (service.orFail (service.resume jobs live outcome)) := by
  unfold work
  simp only [worker, open', last, Option.bind_some, known]
  rfl

/-- An exception that reaches the worker is answered with an error for each live future. -/
theorem Failed.resumes {events : List (Event (SystemOneResponse F))}
    (reached : run (step settings) Service.initial events = some service)
    {call : Call (SystemOneResponse F)} {error : PyException}
    (failed : Failed F runtime plan call error) {jobs live : List Nat}
    (worker : service.worker = .running jobs live) (last : service.calls.getLast? = some call)
    (open' : service.cancelling = false)
    (reaches : error ≠ stopIteration ∧ error ≠ futureCancelled) :
    Contained settings runtime service call error jobs := by
  obtain ⟨valid, attributed⟩ := run_attributed reached
  have member := List.mem_of_getLast? last
  obtain ⟨_, admitted, related⟩ := attributed.admitted member
  obtain ⟨outcome, known, arrives, _⟩ := failed.results admitted related.length_eq.symm
  have worked : service.work settings = _ := work_ended worker last open' known
  obtain ⟨earlier, current, shape, same, _⟩ := attributed.current jobs live worker
  rw [shape, List.getLast?_concat] at last
  cases last
  subst same
  obtain ⟨later, resumed, advances, done⟩ := valid.resume_ok worker (arrives.mpr reaches)
  have held := (valid.submitted jobs call.batch worker).1
  refine ⟨later, ?_, ?_⟩
  · change service.work settings = _
    rw [worked, if_neg (by simp [lost_of_arrives (arrives.mpr reaches)]), resumed]
    rfl
  · intro id job found
    obtain ⟨next, located, request, future⟩ := advances.each id job found
    constructor
    · intro inside pending
      obtain ⟨set, setFound, setDone⟩ := done id (held.subset inside)
      cases located.symm.trans setFound
      rcases future with unchanged | ⟨_, _, item, zip, rfl, received⟩
      · rw [unchanged, pending] at setDone
        cases setDone
      · obtain ⟨own, ownFound, error'⟩ := failed.at_job admitted related known zip
        cases found.symm.trans ownFound
        rw [located]
        rw [error'] at received
        cases next
        cases received
        cases request
        rfl
    · intro other
      rcases other with outside | set
      · rcases future with unchanged | ⟨_, _, item, zip, rfl, _⟩
        · rw [located]
          cases next
          cases job
          simp_all
        · exact absurd (List.of_mem_zip zip).1 outside
      · exact advances.kept found set

/-- A worker whose await the answer does not reach is not back in its loop. -/
theorem work_escapes {service next : Service α} (valid : Valid settings service)
    {call : Call α} {jobs live : List Nat}
    (worker : service.worker = .running jobs live) (last : service.calls.getLast? = some call)
    (open' : service.cancelling = false) {outcome : CallOutcome α}
    (known : call.outcome = some outcome) (escapes : outcome.arrives = false)
    (worked : service.work settings = some next) : next.worker = .finished := by
  rw [work_ended worker last open' known] at worked
  split at worked
  · cases worked
  · cases worked
    have held : service.worker.jobs = jobs := by simp [worker, Worker.jobs]
    obtain ⟨later, finished, _, _⟩ :=
      finish_ok (fun id member => valid.inside (held ▸ member)) (held ▸ valid.counted)
    rw [resume, if_neg (by simp [escapes]), finished]
    rfl

/-- Which exceptions of a failed submission are contained. -/
theorem Failed.contained_iff {events : List (Event (SystemOneResponse F))}
    (reached : run (step settings) Service.initial events = some service)
    {call : Call (SystemOneResponse F)} {error : PyException}
    (failed : Failed F runtime plan call error) {jobs live : List Nat}
    (worker : service.worker = .running jobs live) (last : service.calls.getLast? = some call)
    (open' : service.cancelling = false) : Contained settings runtime service call error jobs ↔
      error ≠ stopIteration ∧ error ≠ futureCancelled := by
  refine ⟨fun contained => ?_, failed.resumes reached worker last open'⟩
  obtain ⟨valid, attributed⟩ := run_attributed reached
  obtain ⟨_, admitted, related⟩ := attributed.admitted (List.mem_of_getLast? last)
  obtain ⟨outcome, known, arrives, _⟩ := failed.results admitted related.length_eq.symm
  rw [← arrives]
  by_contra escapes
  obtain ⟨later, worked, _⟩ := contained
  have finished := work_escapes valid worker last open' known (by simpa using escapes) worked
  cases finished

theorem work_loops {service : Service α} (valid : Valid settings service)
    {call : Call α} {jobs live : List Nat}
    (worker : service.worker = .running jobs live) (last : service.calls.getLast? = some call)
    (open' : service.cancelling = false) {outcome : CallOutcome α}
    (known : call.outcome = some outcome) (arrives : outcome.arrives = true) :
    ∃ next, service.work settings = some next ∧ next.worker = .looping := by
  obtain ⟨later, resumed, _, _⟩ := valid.resume_ok worker arrives
  rw [work_ended worker last open' known, if_neg (by simp [lost_of_arrives arrives]), resumed]
  exact ⟨_, rfl, rfl⟩

/-- A worker that waits for its call shows whether an outcome of it arrives: one
that does not takes the service elsewhere than one that does. -/
theorem outcome_escapes {events : List (Event α)} {service : Service α} {call : Call α}
    (reached : run (step settings) Service.initial events = some service)
    (last : service.calls.getLast? = some call) {jobs live : List Nat}
    (worker : service.worker = .running jobs live) (open' : service.cancelling = false)
    (pending : call.outcome = none) {outcome twin : CallOutcome α} (ran : outcome ≠ .dropped)
    (twinArrives : twin.arrives = true)
    (alike : ∀ later, Option.Rel (Alike call.batch)
      (run (step settings) service (.endCall outcome :: later))
      (run (step settings) service (.endCall twin :: later))) : outcome.arrives = true := by
  have ended := endCall_pending last pending ran
  have twinEnded := endCall_pending last pending (ran_of_arrives twinArrives)
  have valid := (endCall_transition ended).valid (run_valid reached)
  have twinValid := (endCall_transition twinEnded).valid (run_valid reached)
  obtain ⟨twinNext, twinWorked, loops⟩ :=
    work_loops twinValid worker List.getLast?_concat open' rfl twinArrives
  have related := alike [.work]
  have runs : ∀ other state, service.endCall other = some state →
      run (step settings) service [.endCall other, .work] = state.work settings := by
    intro other state known
    rw [run_cons_bind, show step settings service (.endCall other) = some state from known,
      Option.bind_some, run_cons_bind]
    exact Option.bind_fun_some _
  rw [runs _ _ ended, runs _ _ twinEnded, twinWorked] at related
  by_contra escapes
  cases worked : (service.withOutcome call outcome).work settings with
  | none =>
      rw [worked] at related
      cases related
  | some next =>
      have finished := work_escapes valid worker List.getLast?_concat open' rfl
        (by simpa using escapes) worked
      rw [worked] at related
      cases related with
      | some known =>
          have same := known.agree.1
          rw [loops, finished] at same
          cases same

/-- Scoring that raises, at whatever batch of whatever plan and after whatever
answers were written, leaves no response: `evaluate_batch` gives each request its
own error or raises. The worker then gives each live future an error and loops, and
whatever had become of the call, the service would do the same from there on, but
for the futures of its jobs: unless a `StopIteration` or a `CancelledError` of
`concurrent.futures` was raised, which never does. -/
theorem failed_batch_contained (settings : ServiceSettings) (runtime : KaiRuntime) (plan : Plan) :
    (∀ requests : List SystemOneRequest,
      (runtime.evaluateInPlace runtime.batches requests : Except PyException (List (Outcome F))) =
        runtime.evaluateBatch requests) ∧
    (∀ requests error, admission requests = true →
      runtime.ScoringRaises F plan requests error →
        (runtime.evaluateInPlace plan requests : Except PyException (List (Outcome F))) =
          if isScoringError error then
            .ok (requests.map fun request => .error (runtime.refused request))
          else .error error) ∧
    ∀ (events : List (Event (SystemOneResponse F))) service,
      run (step settings) Service.initial events = some service →
        (∀ call ∈ service.calls, ∀ error, Failed F runtime plan call error →
          (∀ id ∈ call.batch, ∀ job, service.jobs[id]? = some job →
            ∀ response, job.future ≠ .result response) ∧
          ∀ jobs live, service.worker = .running jobs live →
            service.calls.getLast? = some call → service.cancelling = false →
              (Contained settings runtime service call error jobs ↔
                error ≠ stopIteration ∧ error ≠ futureCancelled)) ∧
        ∀ call, service.calls.getLast? = some call → ∀ outcome other, outcome ≠ .dropped →
          other.arrives = true →
            (outcome.arrives = true → ∀ later, Option.Rel (Alike call.batch)
              (run (step settings) service (.endCall outcome :: later))
              (run (step settings) service (.endCall other :: later))) ∧
            ∀ jobs live, service.worker = .running jobs live → service.cancelling = false →
              call.outcome = none →
                (∀ later, Option.Rel (Alike call.batch)
                  (run (step settings) service (.endCall outcome :: later))
                  (run (step settings) service (.endCall other :: later))) →
                outcome.arrives = true := by
  refine ⟨evaluateInPlace_batches runtime, fun requests error => evaluateInPlace_fails, ?_⟩
  intro events service reached
  constructor
  · intro call member error failed
    constructor
    · intro id inside job found
      exact failed.no_response reached member inside found
    · intro jobs live worker last open'
      exact failed.contained_iff reached worker last open'
  · intro call last outcome other ran otherArrives
    constructor
    · intro arrives later
      exact outcome_contained reached last arrives otherArrives later
    · intro jobs live worker open' pending alike
      exact outcome_escapes reached last worker open' pending ran otherArrives alike

end Failed

/-! A runtime that fails at its second batch, after the first was written. -/

def failingRuntime (error : PyException) : KaiRuntime :=
  { sampleRuntime with
    batchSize := 1
    model := fun call rows => if call = 1 then .error error else sampleRuntime.model call rows
    sizeRange := by decide }

/-- Two jobs are accepted, and their submission raises. -/
def failingRun (error : PyException) : List (Event (SystemOneResponse ℝ)) :=
  [ .start, .work, .work, .evaluate (noulRequest (lit "a")), .evaluate (noulRequest (lit "b")),
    .work, .endCall (.raised error)]

def failedCall (error : PyException) : Call (SystemOneResponse ℝ) :=
  ⟨[0, 1], [noulRequest (lit "a"), noulRequest (lit "b")], some (.raised error)⟩

theorem failing_run (error : PyException) :
    ∃ service, run (step roomySettings) Service.initial (failingRun error) = some service ∧
      service.worker = .running [0, 1] [0, 1] ∧ service.closed = false ∧
      service.cancelling = false ∧ service.calls.getLast? = some (failedCall error) :=
  ⟨_, rfl, rfl, rfl, rfl, rfl⟩

theorem failed_batch_contained_second :
    (failingRuntime (.runtimeError "out of memory")).evaluateBatch
        [noulRequest (lit "a"), noulRequest (lit "long"), noulRequest (lit "b")] =
      (.ok [.error scoringError, .error (inputError (.valueError "exceeds 1024 tokens")),
        .error scoringError] : Except PyException (List (Outcome ℝ))) ∧
    ∃ service, run (step roomySettings) Service.initial (failingRun .keyError) = some service ∧
      Contained roomySettings (failingRuntime .keyError) service (failedCall .keyError)
        .keyError [0, 1] := by
  constructor
  · let runtime := failingRuntime (.runtimeError "out of memory")
    let requests := [noulRequest (lit "a"), noulRequest (lit "long"), noulRequest (lit "b")]
    obtain ⟨same, fails, _⟩ :=
      failed_batch_contained (F := ℝ) sampleSettings runtime runtime.batches
    rw [← same, fails requests (.runtimeError "out of memory") (by decide)
      (KaiRuntime.scoringRaises_of_map (by decide +kernel))]
    have refusals : requests.map runtime.refused =
        [scoringError, inputError (.valueError "exceeds 1024 tokens"), scoringError] := by
      decide +kernel
    have mapped := congrArg (List.map fun error => (.error error : Outcome ℝ)) refusals
    rw [List.map_map] at mapped
    exact congrArg Except.ok mapped
  · let runtime := failingRuntime .keyError
    obtain ⟨service, reached, worker, _, open', last⟩ := failing_run .keyError
    obtain ⟨_, _, contained⟩ := failed_batch_contained (F := ℝ) roomySettings runtime runtime.batches
    obtain ⟨each, _⟩ := contained _ service reached
    obtain ⟨_, exact⟩ := each _ (List.mem_of_getLast? last) .keyError
      (.of_raises (by decide) (KaiRuntime.scoringRaises_of_map (by decide +kernel)) rfl _)
    exact ⟨service, reached, (exact _ _ worker last open').mpr (by decide)⟩

/-- A `StopIteration` out of the second batch: no future of the two jobs is set, and
as long as nobody closes the service its worker awaits the call. -/
theorem stop_iteration_strands :
    ∃ service, run (step roomySettings) Service.initial (failingRun stopIteration) = some service ∧
      Failed ℝ (failingRuntime stopIteration) (failingRuntime stopIteration).batches
        (failedCall stopIteration) stopIteration ∧
      service.calls.getLast? = some (failedCall stopIteration) ∧
      service.worker = .running [0, 1] [0, 1] ∧ service.cancelling = false ∧
      ¬ Contained roomySettings (failingRuntime stopIteration) service (failedCall stopIteration)
        stopIteration [0, 1] ∧
      ∀ later last, (∀ event ∈ later, event ≠ .close) →
        run (step roomySettings) service later = some last →
          last.worker = .running [0, 1] [0, 1] := by
  obtain ⟨service, reached, worker, closed, open', last⟩ := failing_run stopIteration
  have failed : Failed ℝ (failingRuntime stopIteration) (failingRuntime stopIteration).batches
      (failedCall stopIteration) stopIteration :=
    .of_raises (by decide) (KaiRuntime.scoringRaises_of_map (by decide +kernel)) rfl _
  refine ⟨service, reached, failed, last, worker, open', fun contained => ?_, ?_⟩
  · exact ((failed.contained_iff reached worker last open').mp contained).1 rfl
  · intro later final unclosed ran
    have stranded : service.Stranded := ⟨closed, ⟨_, _, worker⟩, _, last, rfl⟩
    exact (stranded.run_stays (run_valid reached) unclosed ran).2.trans worker

end VllmVerifier.Decision.Service
