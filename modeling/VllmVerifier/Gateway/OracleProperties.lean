import VllmVerifier.Gateway.ProgressProperties

/-!
The service under an oracle. A call whose request is not cancelled reads the
attempts of each question in turn, and ends as the oracle prescribes.
-/

set_option autoImplicit false

namespace VllmVerifier.Gateway

open Python Asyncio Machine Retry Semantics

variable {F : Type} [LogField F] {settings : Settings} {oracle : Oracle} {slots next : Slots}

theorem judge_ok_iff_reading {question : Question} {completion : Completion} {answer : Answer F} :
    judge question completion = .ok answer ↔ reading question completion = some answer := by
  unfold judge reading
  split
  · cases verify (F := F) completion.text question <;> simp [Except.toOption]
  · simp

theorem reading_eq_none {question : Question} {completion : Completion} {error : PyException}
    (rejected : judge (F := F) question completion = .error error) :
    reading (F := F) question completion = none := by
  cases found : reading (F := F) question completion with
  | none => rfl
  | some answer =>
      rw [judge_ok_iff_reading.mpr found] at rejected
      cases rejected

/-! ## Question tasks -/

/-- The completions among the ways in which a backend call ends. -/
def generated : Option Outcome → Nat
  | some (.completed _) => 1
  | none | some (.raised _) | some .cancelled => 0

namespace Task

/-- What the oracle says about the phase of a task. -/
def Follows (settings : Settings) (oracle : Oracle) (state : Content) (task : Task F) : Prop :=
  match task.phase with
  | .created | .acquiring | .calling _ =>
      task.attempt ≤ settings.validationRetries ∧
        ∀ earlier, earlier < task.attempt → verdict F oracle state task.question earlier = none
  | .done (.ok (answer, usage)) =>
      usage = task.usage ∧ ∃ last, task.attempt = last + 1 ∧
        Stops (verdict F oracle state task.question) settings.validationRetries last answer
  | .done (.error (.error error)) =>
      error = .serviceError invalidModelOutput ∧
        Exhausted (verdict F oracle state task.question) settings.validationRetries
  | .done (.error .cancelled) => True

structure Tracks (settings : Settings) (oracle : Oracle) (state : Content) (task : Task F) :
    Prop where
  usage : task.usage = spent oracle state task.question task.attempt
  follows : task.Follows settings oracle state

/-- A backend call that ends as the oracle has it, unless it is cancelled. -/
def Allowed (oracle : Oracle) (state : Content) (task : Task F) (outcome : Option Outcome) : Prop :=
  outcome = none ∨ outcome = some .cancelled ∨
    outcome = some (.completed (oracle state task.question task.attempt))

variable {runner : Runner} {state : Content} {task after : Task F} {outcome : Option Outcome}

theorem Tracks.attempting (tracks : task.Tracks settings oracle state)
    (unfinished : task.phase.isDone = false) :
    task.attempt ≤ settings.validationRetries ∧
      ∀ earlier, earlier < task.attempt → verdict F oracle state task.question earlier = none := by
  have follows := tracks.follows
  unfold Follows at follows
  cases phase : task.phase with
  | created | acquiring | calling => simpa only [phase] using follows
  | done => simp [phase, TaskPhase.isDone] at unfinished

theorem unfinished_of_inBackend (inBackend : task.phase.inBackend = true) :
    task.phase.isDone = false := by
  cases phase : task.phase <;> simp_all [TaskPhase.inBackend, TaskPhase.isDone]

theorem Move.attempt (move : Move settings runner slots task outcome after) :
    after.attempt = task.attempt + generated outcome := by
  cases move with
  | stop _ _ known _ => rcases known with rfl | rfl <;> rfl
  | wait | ask | fail | accept | retry | exhaust => rfl

theorem Move.uncancelled (move : Move settings runner slots task outcome after)
    (running : task.mustCancel = false) (quiet : slots.future? runner ≠ some .cancelled) :
    after.mustCancel = false ∧ after.phase ≠ .done (.error .cancelled) := by
  cases move with
  | wait | fail => exact ⟨running, by simp [finish]⟩
  | ask => exact ⟨running, by simp⟩
  | stop _ _ _ cancelled =>
      rcases cancelled with cancelled | cancelled
      · rw [running] at cancelled
        cases cancelled
      · exact absurd cancelled quiet
  | accept | exhaust => exact ⟨rfl, by simp [finish]⟩
  | retry completion message phase _ _ _ known =>
      refine ⟨rfl, ?_⟩
      rcases known with rfl | ⟨messages, rfl⟩ <;> simp

/-- A move under the oracle reads one more attempt of the question. -/
theorem Move.tracks (move : Move settings runner slots task outcome after)
    (tracks : task.Tracks settings oracle state) (allowed : task.Allowed oracle state outcome) :
    after.Tracks settings oracle state := by
  have prescribed : ∀ completion, outcome = some (.completed completion) →
      completion = oracle state task.question task.attempt := by
    intro completion same
    subst same
    simpa [Allowed] using allowed
  have paid : ∀ completion, completion = oracle state task.question task.attempt →
      (task.spend completion).usage = spent oracle state task.question (task.attempt + 1) := by
    intro completion same
    subst same
    rw [spent_succ, ← tracks.usage]
    rfl
  have rejects : ∀ completion message, completion = oracle state task.question task.attempt →
      judge (F := F) task.question completion = .error (.invalidOutput message) →
        task.phase.inBackend = true →
          ∀ earlier, earlier ≤ task.attempt →
            verdict F oracle state task.question earlier = none := by
    intro completion message same rejected inBackend earlier before
    subst same
    rcases Nat.eq_or_lt_of_le before with rfl | before
    · exact reading_eq_none rejected
    · exact (tracks.attempting (unfinished_of_inBackend inBackend)).2 earlier before
  cases move with
  | wait phase =>
      exact ⟨tracks.usage, tracks.attempting (by rw [phase]; rfl)⟩
  | ask messages phase =>
      exact ⟨tracks.usage,
        tracks.attempting (by rcases phase with phase | phase <;> rw [phase] <;> rfl)⟩
  | stop => exact ⟨tracks.usage, trivial⟩
  | fail error =>
      simp [Allowed] at allowed
  | accept completion answer inBackend accepted =>
      have same := prescribed completion rfl
      obtain ⟨within, rejected⟩ := tracks.attempting (unfinished_of_inBackend inBackend)
      refine ⟨paid completion same, rfl, task.attempt, rfl, within, ?_, rejected⟩
      rw [same] at accepted
      exact judge_ok_iff_reading.mp accepted
  | retry completion message phase inBackend rejected below known =>
      have same := prescribed completion rfl
      have attempting : task.attempt + 1 ≤ settings.validationRetries ∧ ∀ earlier,
          earlier < task.attempt + 1 → verdict F oracle state task.question earlier = none :=
        ⟨below, fun earlier before =>
          rejects completion message same rejected inBackend earlier (Nat.le_of_lt_succ before)⟩
      refine ⟨paid completion same, ?_⟩
      rcases known with rfl | ⟨messages, rfl⟩ <;> exact attempting
  | exhaust completion message inBackend rejected limit =>
      have same := prescribed completion rfl
      exact ⟨paid completion same, rfl, fun earlier before =>
        rejects completion message same rejected inBackend earlier (Nat.le_trans before limit)⟩

/-- Flags apart, two tasks are at the same point. -/
structure Same (task after : Task F) : Prop where
  question : after.question = task.question
  phase : after.phase = task.phase
  attempt : after.attempt = task.attempt
  usage : after.usage = task.usage

theorem Tracks.congr (tracks : task.Tracks settings oracle state) (same : task.Same after) :
    after.Tracks settings oracle state := by
  obtain ⟨question, phase, attempt, usage⟩ := same
  refine ⟨by rw [usage, question, attempt, tracks.usage], ?_⟩
  have follows := tracks.follows
  unfold Follows at follows ⊢
  rw [phase, question, attempt, usage]
  exact follows

/-- A task that nothing has cancelled. -/
def Running (task : Task F) : Prop :=
  task.mustCancel = false ∧ task.phase ≠ .done (.error .cancelled)

end Task

/-! ## Calls -/

namespace Call

variable {request : SystemOneRequest} {counts : Nat → Nat} {number index : Nat}
  {call after : Call F} {tasks : List (Task F)}

/-- The tasks of a request, with the completions that each has read. -/
structure Rows (settings : Settings) (oracle : Oracle) (request : SystemOneRequest)
    (counts : Nat → Nat) (tasks : List (Task F)) : Prop where
  questions : tasks.map Task.question = request.questions.values
  tracks : ∀ task ∈ tasks, task.Tracks settings oracle request.state
  attempts : ∀ index task, tasks[index]? = some task → task.attempt = counts index

/-- The error of a request with a question that ran out of attempts. -/
def Fails (F : Type) [LogField F] (settings : Settings) (oracle : Oracle)
    (request : SystemOneRequest) (error : Raised) : Prop :=
  error = .error (.serviceError invalidModelOutput) ∧
    Undecided F oracle settings.validationRetries request

/-- What the oracle says about the phase of a call. -/
def Follows (settings : Settings) (oracle : Oracle) (call : Call F) : Prop :=
  match call.phase with
  | .gathering gather =>
      gather.cancelRequested = false ∧ (∀ task ∈ call.tasks, task.Running) ∧
        ∀ error, gather.outer = some (.error error) → Fails F settings oracle call.request error
  | .cleaning gather pending =>
      gather.cancelRequested = false ∧ (∀ error, gather.outer ≠ some (.error error)) ∧
        ∀ error, pending = .error error → Fails F settings oracle call.request error
  | .raised error => Fails F settings oracle call.request error
  | .returned _ _ => True
  | .validating | .acquiring | .calling _ => False

structure Tracks (settings : Settings) (oracle : Oracle) (request : SystemOneRequest)
    (counts : Nat → Nat) (call : Call F) : Prop where
  asks : call.request = request
  observed : call.observed = none
  running : call.mustCancel = false
  rows : Rows settings oracle request counts call.tasks
  follows : call.Follows settings oracle

theorem Rows.congr {later : List (Task F)} (rows : Rows settings oracle request counts tasks)
    (same : List.Forall₂ Task.Same tasks later) : Rows settings oracle request counts later := by
  refine ⟨?_, fun task member => ?_, fun index task found => ?_⟩
  · rw [← rows.questions]
    exact forall₂_map_eq (same.flip.imp fun _ _ known => known.question)
  · obtain ⟨earlier, present, known⟩ := forall₂_mem_right same member
    exact (rows.tracks earlier present).congr known
  · obtain ⟨earlier, located, known⟩ := forall₂_getElem? same.flip found
    rw [known.attempt, rows.attempts index earlier located]

theorem Rows.move {task later : Task F} {outcome : Option Outcome} {runner : Runner}
    (rows : Rows settings oracle request counts tasks) (found : tasks[index]? = some task)
    (move : Task.Move settings runner slots task outcome later)
    (allowed : task.Allowed oracle request.state outcome) :
    Rows settings oracle request
      (fun position => counts position + if position = index then generated outcome else 0)
      (tasks.set index later) := by
  have member := List.mem_of_getElem? found
  refine ⟨?_, ?_, fun position other located => ?_⟩
  · rw [map_set found move.question, rows.questions]
  · exact forall_set rows.tracks index (move.tracks (rows.tracks task member) allowed)
  · by_cases same : position = index
    · subst same
      obtain ⟨bound, _⟩ := List.getElem?_eq_some_iff.mp found
      rw [List.getElem?_set_self bound] at located
      cases located
      rw [if_pos rfl, move.attempt, rows.attempts position task found]
    · rw [List.getElem?_set_ne (Ne.symm same)] at located
      rw [if_neg same, Nat.add_zero, rows.attempts position other located]

theorem Rows.undecided {task : Task F} {error : PyException}
    (rows : Rows settings oracle request counts tasks) (member : task ∈ tasks)
    (failed : task.phase = .done (.error (.error error))) :
    Fails F settings oracle request (.error error) := by
  have follows := (rows.tracks task member).follows
  simp only [Task.Follows, failed] at follows
  obtain ⟨rfl, exhausted⟩ := follows
  have asked : task.question ∈ request.questions.values :=
    rows.questions ▸ List.mem_map_of_mem member
  obtain ⟨entry, present, same⟩ := List.mem_map.mp asked
  exact ⟨rfl, entry, present, same ▸ exhausted⟩

theorem Tracks.onTask {task later : Task F} {outcome : Option Outcome} {runner : Runner}
    (tracks : call.Tracks settings oracle request counts)
    (found : call.tasks[index]? = some task)
    (move : Task.Move settings runner slots task outcome later)
    (allowed : task.Allowed oracle request.state outcome)
    (quiet : ∀ gather, call.phase = .gathering gather → slots.future? runner ≠ some .cancelled) :
    Tracks settings oracle request
      (fun position => counts position + if position = index then generated outcome else 0)
      { call with tasks := call.tasks.set index later } := by
  refine ⟨tracks.asks, tracks.observed, tracks.running, tracks.rows.move found move allowed, ?_⟩
  have follows := tracks.follows
  unfold Follows at follows ⊢
  dsimp only
  split at follows
  · rename_i gather phase
    obtain ⟨requested, running, failed⟩ := follows
    have free := (running task (List.mem_of_getElem? found)).1
    exact ⟨requested, forall_set running index (move.uncancelled free (quiet gather phase)), failed⟩
  all_goals exact follows

theorem Tracks.report (tracks : call.Tracks settings oracle request counts)
    (went : call.report index = some after) :
    after.Tracks settings oracle request counts ∧
      ∀ gather, after.phase = .gathering gather → ∃ earlier, call.phase = .gathering earlier := by
  have follows := tracks.follows
  unfold Call.report at went
  split at went
  case h_1 => cases went
  case h_2 task found =>
    split at went
    case h_2 => cases went
    case h_1 result done _ =>
      have same : List.Forall₂ Task.Same call.tasks
          (call.tasks.set index { task with reported := true }) :=
        forall₂_set found ⟨rfl, rfl, rfl, rfl⟩ fun _ => ⟨rfl, rfl, rfl, rfl⟩
      have member := List.mem_of_getElem? found
      split at went
      case h_1 gather phase =>
        simp only [Option.some.injEq] at went
        subst went
        simp only [Follows, phase] at follows
        obtain ⟨requested, running, failed⟩ := follows
        refine ⟨⟨tracks.asks, tracks.observed, tracks.running, tracks.rows.congr same, ?_⟩,
          fun _ _ => ⟨gather, phase⟩⟩
        refine ⟨(notify_cancelRequested _ _ _).trans requested,
          forall_set running index (running task member), fun error outer => ?_⟩
        rcases notify_error outer with earlier | failure | cancelled
        · exact failed error earlier
        · have raised : task.phase = .done (.error error) := by
            cases result <;> simp_all
          cases error with
          | cancelled => exact absurd raised (running task member).2
          | error error =>
              have fails := tracks.rows.undecided member raised
              exact tracks.asks ▸ fails
        · rw [requested] at cancelled
          cases cancelled
      case h_2 gather pending phase =>
        simp only [Option.some.injEq] at went
        subst went
        simp only [Follows, phase] at follows
        obtain ⟨requested, passed, failed⟩ := follows
        refine ⟨⟨tracks.asks, tracks.observed, tracks.running, tracks.rows.congr same, ?_⟩,
          fun _ known => by cases known⟩
        refine ⟨(notify_cancelRequested _ _ _).trans requested, fun error outer => ?_, failed⟩
        rcases notify_error outer with earlier | failure | cancelled
        · exact passed error earlier
        · cases failure
        · rw [requested] at cancelled
          cases cancelled
      all_goals cases went

theorem Tracks.conclude (tracks : call.Tracks settings oracle request counts) {results : Results F}
    (known : results? call.tasks = some results) :
    ∃ response, call.conclude settings results = .returned response none := by
  have lengths : results.length = call.request.questions.keys.length := by
    have asked := congrArg List.length tracks.rows.questions
    rw [← (results?_some known).length_eq, tracks.asks]
    simpa [Dict.keys, Dict.values] using asked
  exact ⟨_, by rw [Call.conclude, if_pos lengths, tracks.observed]⟩

theorem Tracks.wake (tracks : call.Tracks settings oracle request counts)
    (sound : call.Sound settings)
    (went : call.wake settings number slots = some (next, after)) :
    after.Tracks settings oracle request counts ∧
      ∀ gather, after.phase ≠ .gathering gather := by
  have follows := tracks.follows
  unfold Call.wake at went
  split at went
  case h_1 gather phase =>
    split at went
    case h_1 => cases went
    case h_2 outer settled =>
      simp only [Option.some.injEq, Prod.mk.injEq] at went
      obtain ⟨_, rfl⟩ := went
      simp only [Follows, phase] at follows
      obtain ⟨_, _, failed⟩ := follows
      have same : List.Forall₂ Task.Same call.tasks
          ((cancelTasks number 0 slots call.tasks).2.map
            fun task => { task with reported := false }) :=
        List.forall₂_map_right_iff.mpr ((cancelTasks_flags number 0 slots call.tasks).imp
          fun _ _ ⟨_, flagged⟩ => flagged ▸ ⟨rfl, rfl, rfl, rfl⟩)
      refine ⟨⟨tracks.asks, tracks.observed, rfl, tracks.rows.congr same, rfl,
        fun _ outer => (by cases outer), fun error pending => ?_⟩, fun _ phase => by cases phase⟩
      rw [tracks.running, awaited, if_neg Bool.false_ne_true] at pending
      exact failed error (pending ▸ settled)
  case h_2 gather pending phase =>
    split at went
    case h_1 => cases went
    case h_2 outer settled =>
      simp only [Option.some.injEq, Prod.mk.injEq] at went
      obtain ⟨_, rfl⟩ := went
      simp only [Follows, phase] at follows
      obtain ⟨_, passed, failed⟩ := follows
      simp only [Sound, phase] at sound
      obtain ⟨_, _, _, collected⟩ := sound
      rw [tracks.running]
      cases outer with
      | error error => exact absurd settled (passed error)
      | ok done =>
          cases pending with
          | error error =>
              exact ⟨⟨tracks.asks, tracks.observed, rfl, tracks.rows,
                failed error rfl⟩, fun _ phase => by cases phase⟩
          | ok results =>
              obtain ⟨response, returned⟩ := tracks.conclude (collected results rfl)
              simp only [awaited, Bool.false_eq_true, reduceIte, returned]
              exact ⟨⟨tracks.asks, tracks.observed, rfl, tracks.rows, trivial⟩,
                fun _ phase => by cases phase⟩
  all_goals cases went

end Call

/-! ## Runs -/

/-- The steps of a service that obey the oracle. -/
def obeying (settings : Settings) (oracle : Oracle) (number : Nat) (service : DecisionService F)
    (event : Event) : Option (DecisionService F) :=
  if obeys oracle number service event = true then step settings service event else none

/-- The task whose backend call an event completes. -/
def Event.generation : Event → Option Runner
  | .ended runner (.completed _) => some runner
  | .ended _ (.raised _) | .ended _ .cancelled | .evaluate _ | .evaluateVision _ | .validated _ _
  | .start _ _ | .resume _ | .report _ _ | .wake _ | .cancel _ => none

/-- The completions that a task gets during a run. -/
def generations (events : List Event) (runner : Runner) : Nat :=
  (events.filterMap Event.generation).count runner

theorem generations_cons (event : Event) (rest : List Event) (runner : Runner) :
    generations (event :: rest) runner =
      (if event.generation = some runner then 1 else 0) + generations rest runner := by
  unfold generations
  rw [List.filterMap_cons]
  cases made : event.generation with
  | none => simp
  | some maker =>
      by_cases same : maker = runner
      · simp [same, Nat.add_comm]
      · simp [same]

/-- No future of the questions of a request is cancelled. -/
def Quiet (number : Nat) (slots : Slots) : Prop :=
  ∀ index, ((⟨number, some index⟩ : Runner), Future.cancelled) ∉ slots.waiters

theorem Quiet.calm {own : Runner → Prop} {number : Nat} (quiet : Quiet number slots)
    (calm : Semaphore.Calm own slots next) (others : ∀ index, ¬ own ⟨number, some index⟩) :
    Quiet number next :=
  fun index member => quiet index (calm _ (others index) member)

theorem Quiet.future? {number : Nat} (quiet : Quiet number slots) (index : Nat) :
    slots.future? ⟨number, some index⟩ ≠ some .cancelled :=
  fun found => quiet index (Semaphore.mem_of_future? found)

/-- A call of the service that follows the oracle. -/
structure Follows (settings : Settings) (oracle : Oracle) (request : SystemOneRequest)
    (number : Nat) (counts : Nat → Nat) (slots : Slots) (call : Call F) : Prop where
  tracks : call.Tracks settings oracle request counts
  quiet : ∀ gather, call.phase = .gathering gather → Quiet number slots

structure Tracked (settings : Settings) (oracle : Oracle) (request : SystemOneRequest)
    (number : Nat) (counts : Nat → Nat) (service : DecisionService F) : Prop where
  valid : service.Valid settings
  follows : ∃ call, service.calls[number]? = some call ∧
    Follows settings oracle request number counts service.slots call

section Runs

variable {request : SystemOneRequest} {number : Nat} {counts later : Nat → Nat}
  {service after : DecisionService F} {event : Event}

theorem Tracked.others (tracked : Tracked settings oracle request number counts service)
    (stepped : step settings service event = some after)
    (different : event.target ≠ some number) :
    Tracked settings oracle request number counts after := by
  have valid := step_valid tracked.valid stepped
  obtain ⟨call, located, tracks, quiet⟩ := tracked.follows
  have went := step_steps tracked.valid stepped
  generalize event.target = target at went different
  refine ⟨valid, call, ?_⟩
  cases went with
  | join other _ _ _ =>
      obtain ⟨bound, _⟩ := List.getElem?_eq_some_iff.mp located
      exact ⟨(List.getElem?_append_left bound).trans located, tracks, quiet⟩
  | @goOn target before next slots found goes =>
      have apart : target ≠ number := fun same => different (same ▸ rfl)
      obtain ⟨question, shift⟩ := goes.shift
      have fits := tracked.valid.consistent.fits ⟨target, question⟩
      have own : service.status ⟨target, question⟩ = before.status question := by
        simp [DecisionService.status, found]
      rw [own] at fits
      refine ⟨(List.getElem?_set_ne apart).trans located, tracks, fun gather phase => ?_⟩
      exact (quiet gather phase).calm (shift.use fits).calm fun _ same => apart same.symm

theorem Tracked.own {act : Call F → Option (Slots × Call F)}
    (tracked : Tracked settings oracle request number counts service)
    (valid : after.Valid settings) (stepped : service.onCall number act = some after)
    (acts : ∀ (before : Call F) (slots : Slots) (call : Call F),
      service.calls[number]? = some before → before.Sound settings →
        Follows settings oracle request number counts service.slots before →
          act before = some (slots, call) →
            Follows settings oracle request number later slots call) :
    Tracked settings oracle request number later after := by
  obtain ⟨before, slots, call, found, acted, rfl⟩ := DecisionService.onCall_some stepped
  obtain ⟨known, located, follows⟩ := tracked.follows
  cases found.symm.trans located
  obtain ⟨bound, _⟩ := List.getElem?_eq_some_iff.mp found
  have sound := tracked.valid.sound before (List.mem_of_getElem? found)
  exact ⟨valid, call, List.getElem?_set_self bound,
    acts before slots call found sound follows acted⟩

theorem Follows.onTask {index : Nat} {act : Task F → Option (Slots × Task F)}
    {outcome : Option Outcome} {before call : Call F} {slots next : Slots}
    (follows : Follows settings oracle request number counts slots before)
    (goes : ∀ (task : Task F) (middle : Slots) (last : Task F), before.tasks[index]? = some task →
      act task = some (middle, last) →
        Task.Move settings ⟨number, some index⟩ slots task outcome last ∧
          task.Allowed oracle request.state outcome ∧ Semaphore.Calm (fun _ => False) slots middle)
    (went : before.onTask index act = some (next, call)) :
    Follows settings oracle request number
      (fun position => counts position + if position = index then generated outcome else 0)
      next call := by
  unfold Call.onTask at went
  cases found : before.tasks[index]? with
  | none => simp [found] at went
  | some task =>
      cases acted : act task with
      | none => simp [found, acted] at went
      | some result =>
          obtain ⟨middle, last⟩ := result
          simp only [found, acted, Option.some.injEq, Prod.mk.injEq] at went
          obtain ⟨rfl, rfl⟩ := went
          obtain ⟨move, allowed, calm⟩ := goes task middle last found acted
          exact ⟨follows.tracks.onTask found move allowed
            fun gather phase => (follows.quiet gather phase).future? index,
            fun gather phase => (follows.quiet gather phase).calm calm fun _ none => none⟩

theorem counts_unchanged (counts : Nat → Nat) (index : Nat) :
    (fun position => counts position + if position = index then generated none else 0) = counts := by
  funext position
  simp [generated]

theorem counts_ended (counts : Nat → Nat) (number index : Nat) (outcome : Outcome) :
    (fun position => counts position + if position = index then generated (some outcome) else 0) =
      fun position => counts position +
        if (Event.ended ⟨number, some index⟩ outcome).generation = some ⟨number, some position⟩
          then 1 else 0 := by
  funext position
  cases outcome <;> simp [generated, Event.generation, eq_comm]

/-- Before its questions are asked, a call that follows the oracle cannot be. -/
theorem Call.Tracks.asked {call : Call F} (tracks : call.Tracks settings oracle request counts) :
    call.phase ≠ .validating ∧ call.phase ≠ .acquiring ∧
      ∀ messages, call.phase ≠ .calling messages := by
  have follows := tracks.follows
  unfold Call.Follows at follows
  refine ⟨fun phase => ?_, fun phase => ?_, fun messages phase => ?_⟩ <;>
    · rw [phase] at follows
      exact follows

theorem Tracked.step (tracked : Tracked settings oracle request number counts service)
    (stepped : obeying settings oracle number service event = some after) :
    Tracked settings oracle request number (fun index => counts index +
      if event.generation = some ⟨number, some index⟩ then 1 else 0) after := by
  unfold obeying at stepped
  split at stepped
  case isFalse => cases stepped
  case isTrue obeyed =>
    have valid := step_valid tracked.valid stepped
    by_cases same : event.target = some number
    case neg =>
      have unmade : ∀ index, event.generation ≠ some ⟨number, some index⟩ := by
        intro index made
        cases event with
        | ended runner outcome =>
            cases outcome with
            | completed completion =>
                cases made
                exact same rfl
            | raised | cancelled => cases made
        | evaluate | evaluateVision | validated | start | resume | report | wake | cancel =>
            cases made
      simp only [unmade, reduceIte, Nat.add_zero]
      exact tracked.others stepped same
    case pos =>
      cases event with
      | evaluate | evaluateVision => cases same
      | cancel target =>
          cases same
          simp [obeys] at obeyed
      | validated target outcome =>
          cases same
          refine tracked.own valid stepped fun before slots call _ _ follows went => ?_
          unfold Call.validated at went
          cases phase : before.phase with
          | validating => exact absurd phase follows.tracks.asked.1
          | acquiring | calling | gathering | cleaning | returned | raised =>
              simp [phase] at went
      | start target index =>
          cases same
          refine tracked.own valid stepped fun before slots call located _ follows went => ?_
          have moved := follows.onTask (fun task middle last found acted =>
            ⟨Task.start_move acted, .inl rfl,
              ((Task.start_goes acted).use (tracked.valid.task_fits located found)).calm⟩) went
          rwa [counts_unchanged] at moved
      | resume runner =>
          obtain ⟨target, question⟩ := runner
          cases same
          cases question with
          | none =>
              refine tracked.own valid stepped fun before slots call _ _ follows went => ?_
              unfold Call.resume at went
              cases phase : before.phase with
              | acquiring => exact absurd phase follows.tracks.asked.2.1
              | validating | calling | gathering | cleaning | returned | raised =>
                  simp [phase] at went
          | some index =>
              refine tracked.own valid stepped fun before slots call located _ follows went => ?_
              have moved := follows.onTask (fun task middle last found acted =>
                have fits := tracked.valid.task_fits located found
                ⟨Task.resume_move fits acted, .inl rfl, ((Task.resume_goes acted).use fits).calm⟩)
                went
              rwa [counts_unchanged] at moved
      | ended runner outcome =>
          obtain ⟨target, question⟩ := runner
          cases same
          cases question with
          | none =>
              refine tracked.own valid stepped fun before slots call _ _ follows went => ?_
              unfold Call.ended at went
              cases phase : before.phase with
              | calling messages => exact absurd phase (follows.tracks.asked.2.2 messages)
              | validating | acquiring | gathering | cleaning | returned | raised =>
                  simp [phase] at went
          | some index =>
              refine tracked.own valid stepped fun before slots call located _ follows went => ?_
              have moved := follows.onTask (fun task middle last found acted =>
                ⟨Task.ended_move acted, ?_,
                  ((Task.ended_goes acted).use (tracked.valid.task_fits located found)).calm⟩) went
              · rwa [counts_ended] at moved
              · rw [obeys, located] at obeyed
                have asks := follows.tracks.asks
                simpa [Task.Allowed, found, asks] using obeyed
      | report target index =>
          cases same
          refine tracked.own valid stepped fun before slots call _ _ follows went => ?_
          obtain ⟨heard, reported, same⟩ := Option.map_eq_some_iff.mp went
          cases same
          obtain ⟨tracks, gathering⟩ := follows.tracks.report reported
          refine ⟨tracks, fun gather phase => ?_⟩
          obtain ⟨earlier, known⟩ := gathering gather phase
          exact follows.quiet earlier known
      | wake target =>
          cases same
          refine tracked.own valid stepped fun before slots call _ sound follows went => ?_
          obtain ⟨tracks, woken⟩ := follows.tracks.wake sound went
          exact ⟨tracks, fun gather phase => absurd phase (woken gather)⟩

theorem run_tracked {events : List Event}
    (tracked : Tracked settings oracle request number counts service)
    (ran : run (obeying settings oracle number) service events = some after) :
    Tracked settings oracle request number
      (fun index => counts index + generations events ⟨number, some index⟩) after := by
  induction events generalizing service counts with
  | nil =>
      cases ran
      exact tracked
  | cons event rest ih =>
      obtain ⟨middle, stepped, ran⟩ := run_cons ran
      have last := ih (tracked.step stepped) ran
      simp only [generations_cons, ← Nat.add_assoc]
      exact last

end Runs

end VllmVerifier.Gateway
