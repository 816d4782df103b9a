import Mathlib.Algebra.Order.BigOperators.Group.List
import VllmVerifier.Decision.AccountingProperties

/-!
What the executor is given and what futures receive: batches follow the order
of acceptance, stay within the limits of `evaluate_batch`, and return each
result to the job whose request stood at its position.
-/

set_option autoImplicit false

namespace VllmVerifier.Decision.Service

open Python Asyncio Machine

variable {α : Type} {settings : ServiceSettings} {service next : Service α}

/-! ## The invariant -/

/-- Where a future can come from, given the calls so far. -/
def Earned (calls : List (Call α)) (id : Nat) (future : Future α) : Prop :=
  future = .pending ∨ future = .cancelled ∨ future = .exception engineStopped ∨
    ∃ call ∈ calls, ∃ outcome, call.outcome = some outcome ∧
      ∃ item ∈ call.batch.zip (results call.batch outcome), item.1 = id ∧
        future = received item.2

/-- The worker is not waiting for a call. -/
def Free (service : Service α) : Prop := ∀ jobs live, service.worker ≠ .running jobs live

structure Attributed (settings : ServiceSettings) (service : Service α) : Prop where
  ended : ∀ call ∈ service.calls.dropLast, call.outcome ≠ none
  idle : service.Free → service.worker ≠ .finished → ∀ call ∈ service.calls, call.outcome ≠ none
  past : service.Free → (service.calls.flatMap Call.batch).Sublist service.accounted
  current : ∀ jobs live, service.worker = .running jobs live →
    ∃ earlier call, service.calls = earlier ++ [call] ∧ call.batch = live ∧
      (earlier.flatMap Call.batch).Sublist service.accounted
  each : ∀ call ∈ service.calls, call.batch ≠ [] ∧
    call.batch.length ≤ settings.decisionBatchRequests ∧
      service.requestsOf call.batch call.requests
  earned : ∀ id job, service.jobs[id]? = some job → Earned service.calls id job.future

theorem Earned.mono {calls later : List (Call α)} {id : Nat} {future : Future α}
    (kept : ∀ call ∈ calls, call.outcome ≠ none → call ∈ later)
    (earned : Earned calls id future) : Earned later id future := by
  rcases earned with pending | cancelled | stopped | ⟨call, member, outcome, known, item⟩
  · exact .inl pending
  · exact .inr (.inl cancelled)
  · exact .inr (.inr (.inl stopped))
  · exact .inr (.inr (.inr ⟨call, kept call member (by simp [known]), outcome, known, item⟩))

theorem requestsOf_mono (keeps : Keeps service next) {batch : List Nat}
    {requests : List SystemOneRequest} (related : service.requestsOf batch requests) :
    next.requestsOf batch requests := by
  refine related.imp fun id request known => ?_
  obtain ⟨job, found, same⟩ := known
  obtain ⟨later, located, kept, _⟩ := keeps id job found
  exact ⟨later, located, kept.trans same⟩

theorem Attributed.sublist (attributed : Attributed settings service)
    (valid : Valid settings service) :
    (service.calls.flatMap Call.batch).Sublist (service.accounted ++ service.worker.jobs) := by
  by_cases running : ∃ jobs live, service.worker = .running jobs live
  · obtain ⟨jobs, live, worker⟩ := running
    obtain ⟨earlier, call, shape, same, before⟩ := attributed.current jobs live worker
    rw [shape, List.flatMap_append, worker]
    refine before.append ?_
    simpa [same, Worker.jobs] using (valid.submitted jobs live worker).1
  · have free : service.Free := fun jobs live worker => running ⟨jobs, live, worker⟩
    exact (attributed.past free).trans (List.sublist_append_left _ _)

namespace Attributed

theorem initial : Attributed settings (initial : Service α) := by
  refine ⟨?_, ?_, ?_, ?_, ?_, ?_⟩ <;> simp [Service.initial]

theorem advance (attributed : Attributed settings service) {allowed : Nat → Future α → Prop}
    {later : List (Job α)} (advances : Advances allowed service.jobs later)
    (known : ∀ id future, allowed id future → Earned service.calls id future) :
    Attributed settings { service with jobs := later } :=
  { attributed with
    each := fun call member => by
      obtain ⟨nonempty, bounded, related⟩ := attributed.each call member
      exact ⟨nonempty, bounded, requestsOf_mono (keeps_of_advances advances) related⟩
    earned := fun id job found => by
      have inside : id < service.jobs.length := by
        rw [← advances.length]
        exact (List.getElem?_eq_some_iff.mp found).1
      obtain ⟨other, located, _, future⟩ :=
        advances.each id _ (List.getElem?_eq_getElem inside)
      cases found.symm.trans located
      rcases future with same | ⟨_, _, given⟩
      · rw [same]
        exact attributed.earned id _ (List.getElem?_eq_getElem inside)
      · exact known id _ given }

theorem settled (attributed : Attributed settings service) (alive : service.worker.alive = true)
    (free : service.Free) : ∀ call ∈ service.calls, call.outcome ≠ none := by
  apply attributed.idle free
  intro finished
  rw [finished] at alive
  cases alive

theorem finish (attributed : Attributed settings service) {earlier : List (Call α)}
    {call : Call α} (outcome : CallOutcome α) (shape : service.calls = earlier ++ [call])
    (open' : call.outcome = none) :
    Attributed settings
      { service with calls := earlier ++ [{ call with outcome := some outcome }] } := by
  have batches : (earlier ++ [{ call with outcome := some outcome }]).flatMap Call.batch =
      service.calls.flatMap Call.batch := by
    rw [shape, List.flatMap_append, List.flatMap_append]
    rfl
  have last : call ∈ service.calls := by simp [shape]
  exact { attributed with
    ended := by
      have before := attributed.ended
      rw [shape, List.dropLast_concat] at before
      dsimp only
      rw [List.dropLast_concat]
      exact before
    idle := fun free unfinished => absurd open' (attributed.idle free unfinished call last)
    past := fun free => by
      dsimp only
      rw [batches]
      exact attributed.past free
    current := fun jobs live running => by
      obtain ⟨before, final, split, same, sublist⟩ := attributed.current jobs live running
      obtain ⟨rfl, tail⟩ := List.append_inj' (shape.symm.trans split) rfl
      cases tail
      exact ⟨earlier, _, rfl, same, sublist⟩
    each := fun found member => by
      rcases List.mem_append.mp member with before | final
      · exact attributed.each found (shape ▸ List.mem_append_left _ before)
      · cases List.mem_singleton.mp final
        exact attributed.each call last
    earned := fun id job found => (attributed.earned id job found).mono
      fun other member settled => by
        rw [shape] at member
        rcases List.mem_append.mp member with before | final
        · exact List.mem_append_left _ before
        · cases List.mem_singleton.mp final
          exact absurd open' settled }

end Attributed

private theorem stopped_earned (calls : List (Call α)) (id : Nat) (future : Future α)
    (known : future = .exception engineStopped) : Earned calls id future :=
  .inr (.inr (.inl known))

theorem Transition.attributed (transition : Transition settings service next)
    (valid : Valid settings service) (attributed : Attributed settings service) :
    Attributed settings next := by
  cases transition with
  | unchanged => exact attributed
  | started absent _ =>
      have free : service.Free := by simp [Free, absent]
      exact { attributed with
        idle := fun _ _ => attributed.idle free (by simp [absent])
        past := fun _ => attributed.past free
        current := fun _ _ running => by cases running }
  | enqueued request _ _ =>
      have keeps : Keeps service { service with jobs := service.jobs ++ [⟨request, .pending⟩] } := by
        intro id job found
        have inside := (List.getElem?_eq_some_iff.mp found).1
        exact ⟨job, by rw [List.getElem?_append_left inside, found], rfl, fun _ => rfl⟩
      exact { attributed with
        each := fun call member => by
          obtain ⟨nonempty, bounded, related⟩ := attributed.each call member
          exact ⟨nonempty, bounded, requestsOf_mono keeps related⟩
        earned := fun id job found => by
          dsimp only at found
          rw [List.getElem?_append] at found
          split at found
          · exact attributed.earned id job found
          · have member := List.mem_of_getElem? found
            cases List.mem_singleton.mp member
            exact .inl rfl }
  | cancelled id job found pending =>
      exact attributed.advance
        (Advances.set (fun _ future => future = .cancelled) found pending rfl rfl)
        fun _ _ known => .inr (.inl known)
  | moved worker alive _ later _ free was =>
      exact { attributed with
        idle := fun _ _ => attributed.settled alive was
        past := fun _ => attributed.past was
        current := fun jobs live running => absurd running (free jobs live) }
  | abandoned scheduled _ =>
      have free : service.Free := by simp [Free, scheduled]
      exact { attributed with
        idle := fun _ unfinished => absurd rfl unfinished
        past := fun _ => attributed.past free
        current := fun _ _ running => by cases running }
  | took first rest alive _ was _ =>
      exact { attributed with
        idle := fun _ _ => attributed.settled alive was
        past := fun _ => attributed.past was
        current := fun _ _ running => by cases running }
  | submitted jobs queue requests alive was _ bounded nonempty related =>
      have ended := attributed.settled alive was
      exact { attributed with
        ended := by
          dsimp only
          rw [List.dropLast_concat]
          exact ended
        idle := fun free => absurd rfl (free _ _)
        past := fun free => absurd rfl (free _ _)
        current := fun held live running => by
          cases running
          exact ⟨service.calls, _, rfl, rfl, attributed.past was⟩
        each := fun call member => by
          rcases List.mem_append.mp member with earlier | last
          · exact attributed.each call earlier
          · cases List.mem_singleton.mp last
            exact ⟨nonempty, (List.length_filter_le _ _).trans bounded, related⟩
        earned := fun id job found => (attributed.earned id job found).mono
          fun call member _ => List.mem_append_left _ member }
  | skipped jobs queue alive was _ _ =>
      exact { attributed with
        idle := fun _ _ => attributed.settled alive was
        past := fun _ => (attributed.past was).trans (List.sublist_append_left _ _)
        current := fun _ _ running => by cases running }
  | resumed jobs live outcome later worker result _ advances _ =>
      obtain ⟨earlier, call, shape, same, _⟩ := attributed.current jobs live worker
      have known : call.outcome = some outcome := by
        simpa [shape] using result
      have sublist := attributed.sublist valid
      rw [worker] at sublist
      have advanced := attributed.advance advances fun id future given => by
        obtain ⟨item, member, rfl, received⟩ := given
        refine .inr (.inr (.inr ⟨call, ?_, outcome, known, item, ?_, rfl, received⟩))
        · simp [shape]
        · rw [same]
          exact member
      exact { advanced with
        idle := fun _ _ found member => by
          dsimp only at member
          rw [shape] at member
          rcases List.mem_append.mp member with before | last
          · apply attributed.ended
            rw [shape, List.dropLast_concat]
            exact before
          · cases List.mem_singleton.mp last
            simp [known]
        past := fun _ => sublist
        current := fun _ _ running => by cases running }
  | stopped later _ _ advances _ =>
      have sublist := attributed.sublist valid
      exact { attributed.advance advances (stopped_earned _) with
        idle := fun _ unfinished => absurd rfl unfinished
        past := fun _ => by
          dsimp only
          rw [← List.append_assoc]
          exact sublist.trans (List.sublist_append_left _ _)
        current := fun _ _ running => by cases running }
  | ended earlier call outcome shape open' _ => exact attributed.finish outcome shape open'
  | closing => exact { attributed with }
  | drained later _ _ advances _ =>
      exact { attributed.advance advances (stopped_earned _) with
        past := fun free => (attributed.past free).trans (List.sublist_append_left _ _)
        current := fun jobs live running => by
          obtain ⟨earlier, call, shape, same, sublist⟩ := attributed.current jobs live running
          exact ⟨earlier, call, shape, same, sublist.trans (List.sublist_append_left _ _)⟩ }
  | completed => exact { attributed with }

theorem run_attributed {events : List (Event α)}
    (ran : run (step settings) Service.initial events = some service) :
    Valid settings service ∧ Attributed settings service := by
  have kept : ∀ (state : Service α) event next,
      Valid settings state ∧ Attributed settings state → step settings state event = some next →
        Valid settings next ∧ Attributed settings next := by
    intro state event next held stepped
    have transition := step_transition held.1 stepped
    exact ⟨transition.valid held.1, transition.attributed held.1 held.2⟩
  exact run_invariant kept ran ⟨Valid.initial, Attributed.initial⟩

/-! ## Requests that stay out -/

/-- A job whose future is set before it is filtered stays out of every batch. -/
theorem Transition.unsubmitted (transition : Transition settings service next) {id : Nat}
    (set : Done service.jobs id) (out : id ∉ service.calls.flatMap Call.batch) :
    id ∉ next.calls.flatMap Call.batch := by
  cases transition with
  | unchanged | started | enqueued | cancelled | moved | abandoned | took | skipped | resumed
    | stopped | closing | drained | completed => exact out
  | submitted jobs queue requests =>
      dsimp only
      rw [List.flatMap_append, List.mem_append]
      intro member
      rcases member with earlier | last
      · exact out earlier
      · have live : id ∈ jobs.filter fun id => !service.isDone id := by simpa using last
        have pending := (List.mem_filter.mp live).2
        simp [isDone_iff.mpr set] at pending
  | ended earlier call outcome shape =>
      rw [shape] at out
      simpa using out

theorem run_unsubmitted (valid : Valid settings service) {id : Nat} (set : Done service.jobs id)
    (out : id ∉ service.calls.flatMap Call.batch) {events : List (Event α)} {last : Service α}
    (ran : run (step settings) service events = some last) :
    id ∉ last.calls.flatMap Call.batch := by
  have kept : ∀ (state : Service α) event next,
      Valid settings state ∧ Done state.jobs id ∧ id ∉ state.calls.flatMap Call.batch →
        step settings state event = some next →
          Valid settings next ∧ Done next.jobs id ∧ id ∉ next.calls.flatMap Call.batch := by
    intro state event next held stepped
    have transition := step_transition held.1 stepped
    obtain ⟨job, found, done⟩ := held.2.1
    obtain ⟨later, located, _, same⟩ := transition.keeps id job found
    exact ⟨transition.valid held.1, ⟨later, located, by rw [same done]; exact done⟩,
      transition.unsubmitted held.2.1 held.2.2⟩
  exact (run_invariant kept ran ⟨valid, set, out⟩).2.2

/-! ## Batches and results -/

theorem admission_of_few {requests : List SystemOneRequest} (nonempty : requests ≠ [])
    (few : requests.length ≤ 8) : admission requests = true := by
  have positive := List.length_pos_iff.mpr nonempty
  have questions : (requests.map fun request => request.questions.entries.length).sum ≤
      requests.length * 64 := by
    have bounded := List.sum_le_card_nsmul
      (requests.map fun request => request.questions.entries.length) 64 (by
        intro count member
        obtain ⟨request, _, rfl⟩ := List.mem_map.mp member
        exact request.size.2)
    simpa using bounded
  simp only [admission, Bool.and_eq_true, decide_eq_true_eq]
  omega

/-- What the job at this position of a call receives from it. -/
def Receives (call : Call α) (position : Nat) (future : Future α) : Prop :=
  match call.outcome with
  | none => False
  | some (.returned values) =>
      if values.length = call.batch.length then
        ∃ result, values[position]? = some result ∧ future = received result
      else future = .exception scoringError
  | some (.raised error) => delivery error = .raised ∧ future = .exception scoringError
  | some .dropped => False

theorem receives_of_results {call : Call α} {outcome : CallOutcome α} {position : Nat}
    {result : Except ServiceError α} (known : call.outcome = some outcome)
    (found : (results call.batch outcome)[position]? = some result) :
    Receives call position (received result) := by
  unfold Receives
  rw [known]
  cases outcome with
  | returned values =>
      dsimp only
      simp only [results] at found
      split at found
      · rename_i complete
        rw [if_pos complete]
        exact ⟨result, found, rfl⟩
      · rename_i incomplete
        rw [if_neg incomplete]
        rw [List.getElem?_map] at found
        obtain ⟨_, _, rfl⟩ := Option.map_eq_some_iff.mp found
        rfl
  | raised error =>
      simp only [results] at found
      split at found
      · rename_i arrives
        rw [List.getElem?_map] at found
        obtain ⟨_, _, rfl⟩ := Option.map_eq_some_iff.mp found
        exact ⟨arrives, rfl⟩
      · cases found
  | dropped => cases found

theorem unfinished_le_one (attributed : Attributed settings service) :
    (service.calls.filter fun call => call.outcome.isNone).length ≤ 1 := by
  rcases List.eq_nil_or_concat service.calls with empty | ⟨earlier, call, shape⟩
  · simp [empty]
  · have ended := attributed.ended
    rw [shape, List.concat_eq_append, List.dropLast_concat] at ended
    have none : earlier.filter (fun call => call.outcome.isNone) = [] := by
      rw [List.filter_eq_nil_iff]
      intro found member open'
      exact ended found member (Option.isNone_iff_eq_none.mp open')
    rw [shape, List.concat_eq_append, List.filter_append, none, List.nil_append]
    exact (List.length_filter_le _ _).trans (Nat.le_refl 1)

theorem Attributed.batches_range (valid : Valid settings service)
    (attributed : Attributed settings service) :
    (service.calls.flatMap Call.batch).Sublist (List.range service.jobs.length) := by
  rw [← valid.order]
  exact (attributed.sublist valid).trans (List.sublist_append_left _ _)

theorem Attributed.admitted (attributed : Attributed settings service) {call : Call α}
    (member : call ∈ service.calls) : call.batch ≠ [] ∧ admission call.requests = true ∧
      service.requestsOf call.batch call.requests := by
  obtain ⟨nonempty, bounded, related⟩ := attributed.each call member
  refine ⟨nonempty, admission_of_few ?_ ?_, related⟩
  · intro empty
    rw [empty] at related
    exact nonempty (List.forall₂_nil_right_iff.mp related)
  · rw [← related.length_eq]
    exact bounded.trans settings.batchRequestsRange.2

/-- In every reachable state at most one call is unfinished, the batches are
disjoint and in the order of acceptance, each is admitted and carries its jobs'
requests, a job given up before it was filtered is in none of them, now or
later, and every other result is the one at the job's own position. -/
theorem batches_attribute {events : List (Event α)}
    (reached : run (step settings) Service.initial events = some service) :
    (service.calls.filter fun call => call.outcome.isNone).length ≤ 1 ∧
    (service.calls.flatMap Call.batch).Sublist (List.range service.jobs.length) ∧
    (service.calls.flatMap Call.batch).Nodup ∧
    (∀ call ∈ service.calls, call.batch ≠ [] ∧ admission call.requests = true ∧
      List.Forall₂ (fun id request => ∃ job, service.jobs[id]? = some job ∧
        job.request = request) call.batch call.requests) ∧
    (∀ (id : Nat) (job : Job α), service.jobs[id]? = some job →
      job.future = .pending ∨ job.future = .cancelled ∨
        job.future = .exception engineStopped ∨
          ∃ call ∈ service.calls, ∃ position : Nat, call.batch[position]? = some id ∧
            call.requests[position]? = some job.request ∧ Receives call position job.future) ∧
    ∀ id, Done service.jobs id → id ∉ service.calls.flatMap Call.batch →
      ∀ later last, run (step settings) service later = some last →
        id ∉ last.calls.flatMap Call.batch := by
  obtain ⟨valid, attributed⟩ := run_attributed reached
  have sublist := attributed.batches_range valid
  refine ⟨unfinished_le_one attributed, sublist, sublist.nodup List.nodup_range,
    fun call member => attributed.admitted member, ?_,
    fun id set out later last ran => run_unsubmitted valid set out ran⟩
  intro id job found
  rcases attributed.earned id job found with pending | cancelled | stopped | fromCall
  · exact .inl pending
  · exact .inr (.inl cancelled)
  · exact .inr (.inr (.inl stopped))
  · obtain ⟨call, member, outcome, known, item, zipped, rfl, same⟩ := fromCall
    obtain ⟨position, located⟩ := List.getElem?_of_mem zipped
    obtain ⟨here, result⟩ := List.getElem?_zip_eq_some.mp located
    obtain ⟨request, requestFound, other, otherFound, request_eq⟩ :=
      forall₂_getElem? (attributed.each call member).2.2 here
    cases found.symm.trans otherFound
    refine .inr (.inr (.inr ⟨call, member, position, here, ?_, ?_⟩))
    · rw [requestFound, request_eq]
    · rw [same]
      exact receives_of_results known result

/-! Three jobs, of which one is given up before it is filtered. -/

def cancelledRun : List (Event Nat) :=
  [.start, .work, .work, .evaluate (noulRequest (lit "a")), .evaluate (noulRequest (lit "b")),
    .evaluate (noulRequest (lit "c")), .cancelCaller 1, .work, .endCall (.returned [.ok 3, .ok 5]),
    .work]

def roomySettings : ServiceSettings :=
  { sampleSettings with maxRequests := 32, requestsRange := by decide }

theorem batches_attribute_cancelled :
    ∃ service : Service Nat, run (step roomySettings) Service.initial cancelledRun = some service ∧
      service.calls.map Call.batch = [[0, 2]] ∧
        ∀ later last, run (step roomySettings) service later = some last →
          1 ∉ last.calls.flatMap Call.batch := by
  have filtered : (run (step roomySettings) Service.initial cancelledRun).map
      (fun service => (service.calls.map Call.batch, service.isDone 1)) =
        some ([[0, 2]], true) := by decide +kernel
  obtain ⟨service, reached, shape⟩ := Option.map_eq_some_iff.mp filtered
  obtain ⟨batches, done⟩ := Prod.mk.inj shape
  refine ⟨service, reached, batches, ?_⟩
  obtain ⟨_, _, _, _, _, stays⟩ := batches_attribute reached
  refine stays 1 (isDone_iff.mp done) ?_
  rw [List.flatMap_def, batches]
  decide

end VllmVerifier.Decision.Service
