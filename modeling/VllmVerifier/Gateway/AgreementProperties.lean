import VllmVerifier.Engine.OracleProperties
import VllmVerifier.Gateway.OracleProperties

/-!
The gateway and the engine. Under one oracle both give a request the response
that the oracle prescribes, with the same generations for each question, or both
fail; and no schedule of the gateway gets stuck or goes on forever.
-/

set_option autoImplicit false

namespace VllmVerifier.Gateway

open Python Asyncio Machine Retry Semantics

variable {F : Type} [LogField F] {settings : Settings} {oracle : Oracle}
  {request : SystemOneRequest} {number : Nat} {counts : Nat → Nat}

/-! ## Responses -/

theorem zip_rows {entries : List (Str × Question)} {tasks : List (Task F)} {results : Results F}
    {holds : Task F → Prop} (questions : tasks.map Task.question = entries.map Prod.snd)
    (all : ∀ task ∈ tasks, holds task)
    (done : List.Forall₂ (fun task result => task.phase = .done (.ok result)) tasks results) :
    List.Forall₂ (fun (entry : Str × Question) (row : Task F × (Answer F × Usage)) =>
      row.1.question = entry.2 ∧ holds row.1 ∧ row.1.phase = .done (.ok row.2))
      entries (tasks.zip results) := by
  induction done generalizing entries with
  | nil =>
      cases entries with
      | nil => exact .nil
      | cons entry rest => cases questions
  | @cons task result tasks results own _ ih =>
      cases entries with
      | nil => cases questions
      | cons entry rest =>
          obtain ⟨head, tail⟩ := List.cons.inj questions
          exact .cons ⟨head, all task List.mem_cons_self, own⟩
            (ih tail fun task member => all task (List.mem_cons_of_mem _ member))

theorem foldl_usage {Row : Type} (usage : Row → Usage) (rows : List Row) (start : Usage) :
    rows.foldl (fun total row => total.add (usage row)) start = start + (rows.map usage).sum := by
  induction rows generalizing start with
  | nil => simp
  | cons row rest ih =>
      rw [List.foldl_cons, ih, List.map_cons, List.sum_cons, ← add_assoc]
      rfl

theorem Task.Tracks.stopped {state : Content} {task : Task F} {answer : Answer F} {usage : Usage}
    (tracks : task.Tracks settings oracle state)
    (done : task.phase = .done (.ok (answer, usage))) :
    ∃ last, task.attempt = last + 1 ∧ usage = spent oracle state task.question (last + 1) ∧
      Stops (verdict F oracle state task.question) settings.validationRetries last answer := by
  have follows := tracks.follows
  simp only [Task.Follows, done] at follows
  obtain ⟨rfl, last, attempts, stops⟩ := follows
  exact ⟨last, attempts, by rw [tracks.usage, attempts], stops⟩

theorem Call.conclude_none (settings : Settings) {call : Call F} {results : Results F}
    (observed : call.observed = none)
    (lengths : results.length = call.request.questions.keys.length) :
    call.conclude settings results = .returned ⟨settings.model,
      Dict.ofPairs (call.request.questions.keys.zip (results.map Prod.fst)),
        (results.map Prod.snd).sum⟩ none := by
  have rows : (call.request.questions.keys.zip results).map Prod.snd = results :=
    List.map_snd_zip (Nat.le_of_eq lengths)
  have usages := congrArg (List.map Prod.snd) rows
  rw [List.map_map] at usages
  unfold conclude
  rw [if_pos lengths, observed]
  dsimp only
  rw [foldl_usage fun row : Str × Answer F × Usage => row.2.2, zero_add, ← usages,
    List.zip_map_right, Dict.ofPairs, List.foldl_map]
  rfl

/-- The attempts at which the questions stopped, with their answers. -/
theorem exists_outcomes {state : Content} {entries : List (Str × Question)}
    {rows : List (Task F × (Answer F × Usage))}
    (related : List.Forall₂ (fun (entry : Str × Question) (row : Task F × (Answer F × Usage)) =>
      row.1.question = entry.2 ∧ row.1.Tracks settings oracle state ∧
        row.1.phase = .done (.ok row.2)) entries rows) :
    ∃ outcomes : List (Nat × Answer F),
      List.Forall₂ (fun entry outcome => Stops (verdict F oracle state entry.2)
        settings.validationRetries outcome.1 outcome.2) entries outcomes ∧
      outcomes.map Prod.snd = rows.map (fun row => row.2.1) ∧
      (rows.map fun row => row.2.2).sum = ((entries.zip outcomes).map fun row =>
        spent oracle state row.1.2 (row.2.1 + 1)).sum ∧
      rows.map (fun row => row.1.attempt) = outcomes.map fun outcome => outcome.1 + 1 := by
  induction related with
  | nil => exact ⟨[], .nil, rfl, rfl, rfl⟩
  | @cons entry row _ _ head _ ih =>
      obtain ⟨outcomes, stops, answers, usage, attempts⟩ := ih
      obtain ⟨same, tracks, done⟩ := head
      obtain ⟨last, attempt, paid, stopped⟩ := tracks.stopped done
      rw [same] at paid stopped
      refine ⟨(last, row.2.1) :: outcomes, .cons stopped stops, ?_, ?_, ?_⟩
      · rw [List.map_cons, List.map_cons, answers]
      · rw [List.zip_cons_cons, List.map_cons, List.map_cons, List.sum_cons, List.sum_cons, usage,
          paid]
      · rw [List.map_cons, List.map_cons, attempts, attempt]

/-- What a call returns is what the oracle prescribes. -/
theorem Call.Tracks.decides {call : Call F} {results : Results F}
    {response : SystemOneResponse F} {observation : Option Str}
    (tracks : call.Tracks settings oracle request counts)
    (known : results? call.tasks = some results)
    (returned : call.conclude settings results = .returned response observation) :
    observation = none ∧ ∃ outcomes,
      Decides oracle settings.model settings.validationRetries request response outcomes ∧
        ∀ index outcome, outcomes[index]? = some outcome → counts index = outcome.1 + 1 := by
  have done := results?_some known
  have rows := zip_rows tracks.rows.questions tracks.rows.tracks done
  have tasks := List.map_fst_zip (Nat.le_of_eq done.length_eq)
  have values := List.map_snd_zip (Nat.le_of_eq done.length_eq.symm)
  have asked : request.questions.entries.length = results.length := by
    rw [rows.length_eq, List.length_zip, done.length_eq, Nat.min_self]
  have complete : results.length = call.request.questions.keys.length := by
    rw [tracks.asks, Dict.keys, List.length_map, asked]
  have collected := conclude_none settings tracks.observed complete
  rw [tracks.asks, returned] at collected
  obtain ⟨rfl, rfl⟩ := Phase.returned.inj collected
  obtain ⟨outcomes, stops, answers, usage, attempts⟩ := exists_outcomes rows
  rw [← Function.comp_def Prod.fst Prod.snd, ← List.map_map, values] at answers
  rw [← Function.comp_def Prod.snd Prod.snd, ← List.map_map, values] at usage
  rw [← Function.comp_def Task.attempt Prod.fst, ← List.map_map, tasks] at attempts
  have lengths : request.questions.entries.length = (results.map Prod.fst).length := by
    rw [asked, List.length_map]
  refine ⟨rfl, outcomes, ⟨rfl, Dict.keys_zip lengths, ?_, usage⟩, fun index outcome found => ?_⟩
  · have looked := Dict.get?_zip lengths
    rw [← answers] at looked ⊢
    obtain ⟨_, looked⟩ := List.forall₂_iff_zip.mp (List.forall₂_map_right_iff.mp looked)
    obtain ⟨same, stopped⟩ := List.forall₂_iff_zip.mp stops
    exact List.forall₂_iff_zip.mpr ⟨same, fun member => ⟨stopped member, looked member⟩⟩
  · have attempt := congrArg (·[index]?) attempts
    simp only [List.getElem?_map, found, Option.map_some] at attempt
    obtain ⟨task, located, attempted⟩ := Option.map_eq_some_iff.mp attempt
    rw [← tracks.rows.attempts index task located, attempted]

/-! ## Calls that join -/

theorem quiet_of_valid {service : DecisionService F} (valid : service.Valid settings)
    (fresh : service.calls.length ≤ number) : Quiet number service.slots := by
  intro index member
  have waits := (valid.consistent.queued ⟨number, some index⟩).mp (List.mem_map_of_mem member)
  rw [DecisionService.status, List.getElem?_eq_none fresh] at waits
  cases waits

theorem ofRequest_tracks (known : served settings request.model = true) :
    (Call.ofRequest settings request : Call F).Tracks settings oracle request fun _ => 0 := by
  have asked : (Call.ofRequest settings request : Call F) =
      ⟨request, [], none, .gathering .create, false,
        request.questions.values.map Task.create⟩ := by
    rw [Call.ofRequest, Call.evaluate, if_pos known]
  have created : ∀ task ∈ request.questions.values.map (Task.create (F := F)),
      ∃ question, task = Task.create question := by
    intro task member
    obtain ⟨question, _, rfl⟩ := List.mem_map.mp member
    exact ⟨question, rfl⟩
  rw [asked]
  refine ⟨rfl, rfl, rfl, ⟨?_, fun task member => ?_, fun index task located => ?_⟩, rfl,
    fun task member => ?_, fun error none => by cases none⟩
  · rw [List.map_map]
    exact List.map_id _
  · obtain ⟨question, rfl⟩ := created task member
    exact ⟨rfl, Nat.zero_le _, fun earlier before => absurd before (Nat.not_lt_zero _)⟩
  · obtain ⟨question, rfl⟩ := created task (List.mem_of_getElem? located)
    rfl
  · obtain ⟨question, rfl⟩ := created task member
    exact ⟨rfl, by simp [Task.create]⟩

theorem evaluate_tracked {service joined : DecisionService F} (valid : service.Valid settings)
    (known : served settings request.model = true)
    (stepped : step settings service (.evaluate request) = some joined) :
    Tracked settings oracle request service.calls.length (fun _ => 0) joined := by
  have later := step_valid valid stepped
  have quiet := quiet_of_valid valid (Nat.le_refl _)
  cases stepped
  exact ⟨later, _, List.getElem?_concat_length, ofRequest_tracks known, fun _ _ => quiet⟩

/-- A call for another model. -/
def refused (request : SystemOneRequest) : Call F :=
  ⟨request, [], none, .raised (.error (.serviceError unknownModel)), false, []⟩

theorem ofRequest_refused (unknown : served settings request.model = false) :
    (Call.ofRequest settings request : Call F) = refused request := by
  rw [Call.ofRequest, Call.evaluate, if_neg (by simp [unknown])]
  rfl

theorem refused_stays {service after : DecisionService F} {event : Event}
    (valid : service.Valid settings) (stepped : step settings service event = some after)
    (located : service.calls[number]? = some (refused request)) :
    after.calls[number]? = some (refused request) := by
  by_cases same : event.target = some number
  case neg =>
    have went := step_steps valid stepped
    generalize event.target = target at went same
    cases went with
    | join other _ _ _ =>
        obtain ⟨bound, _⟩ := List.getElem?_eq_some_iff.mp located
        exact (List.getElem?_append_left bound).trans located
    | goOn found goes =>
        exact (List.getElem?_set_ne fun equal => same (congrArg Option.some equal)).trans located
  case pos =>
    have still : ∀ act : Call F → Option (Slots × Call F), act (refused request) = none →
        service.onCall number act ≠ some after := by
      intro act stuck acted
      simp [DecisionService.onCall, located, stuck] at acted
    cases event with
    | evaluate | evaluateVision => cases same
    | validated | start | report | wake | cancel =>
        cases same
        exact absurd stepped (still _ rfl)
    | resume runner | ended runner =>
        obtain ⟨target, question⟩ := runner
        cases same
        cases question <;> exact absurd stepped (still _ rfl)

/-! ## Schedules -/

/-- The steps that neither bring a new call nor cancel one. -/
def settling (settings : Settings) (oracle : Oracle) (number : Nat) (service : DecisionService F)
    (event : Event) : Option (DecisionService F) :=
  if event.inner = true then obeying settings oracle number service event else none

theorem obeying_step {service after : DecisionService F} {event : Event}
    (stepped : obeying settings oracle number service event = some after) :
    step settings service event = some after := by
  unfold obeying at stepped
  split at stepped
  · exact stepped
  · cases stepped

theorem settling_step {service after : DecisionService F} {event : Event}
    (stepped : settling settings oracle number service event = some after) :
    event.inner = true ∧ step settings service event = some after := by
  unfold settling at stepped
  split at stepped
  · rename_i inner
    exact ⟨inner, obeying_step stepped⟩
  · cases stepped

theorem calls_grow {service after : DecisionService F} {event : Event}
    (valid : service.Valid settings) (stepped : step settings service event = some after) :
    service.calls.length ≤ after.calls.length := by
  have went := step_steps valid stepped
  generalize event.target = target at went
  cases went with
  | join => simp
  | goOn => simp

/-- A call of the service is finished. -/
def Finished (number : Nat) (service : DecisionService F) : Prop :=
  ∃ call, service.calls[number]? = some call ∧ call.phase.isFinished = true

/-- From every state some schedule finishes the call, and none goes on forever. -/
theorem schedules_finish {service : DecisionService F} (oracle : Oracle)
    (valid : service.Valid settings) (joined : number < service.calls.length) :
    (∃ events last, run (settling settings oracle number) service events = some last ∧
      Finished number last) ∧
    ∀ events last, run (settling settings oracle number) service events = some last →
      events.length ≤ service.work settings := by
  have kept : ∀ (state : DecisionService F) event next,
      state.Valid settings ∧ number < state.calls.length →
        settling settings oracle number state event = some next →
          next.Valid settings ∧ number < next.calls.length := by
    intro state event next given stepped
    obtain ⟨valid, joined⟩ := given
    obtain ⟨_, stepped⟩ := settling_step stepped
    exact ⟨step_valid valid stepped, Nat.lt_of_lt_of_le joined (calls_grow valid stepped)⟩
  have lowers : ∀ (state : DecisionService F) event next,
      state.Valid settings ∧ number < state.calls.length →
        settling settings oracle number state event = some next →
          next.work settings < state.work settings := by
    intro state event next given stepped
    obtain ⟨valid, _⟩ := given
    obtain ⟨inner, stepped⟩ := settling_step stepped
    exact step_lowers valid inner stepped
  refine ⟨run_completes (fun state => state.work settings) kept ?_ ⟨valid, joined⟩,
    fun events last ran => run_bounded (fun state => state.work settings) kept lowers ran
      ⟨valid, joined⟩⟩
  intro state given unfinished
  obtain ⟨valid, joined⟩ := given
  have located := List.getElem?_eq_getElem joined
  have waiting : state.calls[number].phase.isFinished = false := by
    by_contra finished
    exact unfinished ⟨_, located, by simpa using finished⟩
  have enabled : Enabled settings oracle number state := valid.progress located waiting
  obtain ⟨event, inner, obeyed, enabled⟩ := enabled
  obtain ⟨next, stepped⟩ := Option.isSome_iff_exists.mp enabled
  have taken : settling settings oracle number state event = some next := by
    rw [settling, if_pos inner, obeying, if_pos obeyed, stepped]
  exact ⟨event, next, taken, lowers state event next ⟨valid, joined⟩ taken⟩

/-! ## Agreement -/

section Agreement

open Engine DecisionEngine

variable {σ : Type} {engine : DecisionEngine σ} {start : σ} {service last : DecisionService F}
  {events : List Event}

theorem served_eq (sameModel : engine.model = settings.model) (model : Str) :
    engine.served model = served settings model := by
  rw [DecisionEngine.served, served, sameModel]
  by_cases own : model = settings.model <;> by_cases latest : model = lit "jev-latest" <;>
    simp [own, latest]

/-- A finished call of the service, after the events since it joined, and the
engine's evaluation of the same request. -/
structure Agrees (settings : Settings) (engine : DecisionEngine σ) (request : SystemOneRequest)
    (start : σ) (number : Nat) (events : List Event) (call : Call F) : Prop where
  succeeds : (∃ response observation, call.phase = .returned response observation) ↔
    Succeeds F engine [request] start
  returns : ∀ response observation, call.phase = .returned response observation →
    observation = none ∧ ∃ run world, engine.evaluate [request] start = (.ok run, world) ∧
      run.responses = [response] ∧
        ∀ index entry, request.questions.entries[index]? = some entry →
          generations events ⟨number, some index⟩ =
              (world.history.filter fun row => row.1.label = (0, entry.1)).length ∧
            generations events ⟨number, some index⟩ ≤ settings.validationRetries + 1
  raises : ∀ error, call.phase = .raised error →
    ∃ world, (served settings request.model = true ∧
        error = .error (.serviceError invalidModelOutput) ∧
        engine.evaluate (F := F) [request] start =
          (.error (.raised (.invalidOutput "Decision exhausted validation retries")), world)) ∨
      (served settings request.model = false ∧
        error = .error (.serviceError unknownModel) ∧
        engine.evaluate (F := F) [request] start =
          (.error (.raised (.valueError "Unknown model")), world))

theorem served_agrees {call : Call F} (sameModel : engine.model = settings.model)
    (sameRetries : engine.config.validationRetries = settings.validationRetries)
    (answers : engine.Answers (jobOracle oracle request.state))
    (free : BudgetFree F engine [request] start)
    (known : served settings request.model = true) (sound : call.Sound settings)
    (tracks : call.Tracks settings oracle request
      fun index => generations events ⟨number, some index⟩)
    (finished : call.phase.isFinished = true) :
    Agrees settings engine request start number events call := by
  have admitted : engine.Admits [request] := by
    refine ⟨List.cons_ne_nil _ _, engine.config.requestsRange.1, fun other member => ?_⟩
    rw [List.mem_singleton.mp member, served_eq sameModel, known]
  cases phase : call.phase with
  | validating | acquiring | calling | gathering | cleaning =>
      rw [phase] at finished
      cases finished
  | returned response observation =>
      simp only [Call.Sound, phase] at sound
      obtain ⟨results, collected, returned⟩ := sound
      obtain ⟨unobserved, outcomes, decides, attempts⟩ := tracks.decides collected returned
      have success : Succeeds F engine [request] start := by
        rcases evaluate_of_decided answers admitted (sameRetries.symm ▸ decides.not_undecided)
            start with success | ⟨reason, world, failed, budget⟩
        · exact success
        · exact absurd budget (free reason world failed)
      refine ⟨⟨fun _ => success, fun _ => ⟨response, observation, phase⟩⟩,
        fun other seen same => ?_, fun error raised => by rw [phase] at raised; cases raised⟩
      rw [phase] at same
      obtain ⟨rfl, rfl⟩ := Phase.returned.inj same
      obtain ⟨run, world, success⟩ := success
      obtain ⟨other, others, responded, decides', counted⟩ := evaluate_decides answers success
      rw [sameModel, sameRetries] at decides'
      have same := decides.outcomes_unique decides'
      subst same
      rw [decides'.unique decides] at responded
      refine ⟨unobserved, run, world, success, responded, fun index entry located => ?_⟩
      obtain ⟨outcome, found, generated⟩ := forall₂_getElem? counted located
      obtain ⟨_, found', stops, _⟩ := forall₂_getElem? decides.answers located
      cases found.symm.trans found'
      rw [attempts index outcome found, generated]
      exact ⟨rfl, Nat.succ_le_succ stops.within⟩
  | raised error =>
      have fails := tracks.follows
      simp only [Call.Follows, phase, tracks.asks] at fails
      obtain ⟨rfl, undecided⟩ := fails
      have failure : ∃ world, engine.evaluate (F := F) [request] start =
          (.error exhaustion, world) := by
        rcases evaluate_ends_as (F := F) answers admitted start with
          ⟨run, world, success⟩ | ⟨reason, world, failed, budget | rfl⟩
        · obtain ⟨_, _, _, decides, _⟩ := evaluate_decides answers success
          exact absurd (sameRetries.symm ▸ undecided) decides.not_undecided
        · exact absurd budget (free reason world failed)
        · exact ⟨world, failed⟩
      obtain ⟨world, failed⟩ := failure
      refine ⟨⟨?_, ?_⟩, ?_, fun error raised => ?_⟩
      · intro given
        obtain ⟨response, observation, returned⟩ := given
        rw [phase] at returned
        cases returned
      · intro given
        obtain ⟨run, after, success⟩ := given
        rw [failed] at success
        cases success
      · intro response observation returned
        rw [phase] at returned
        cases returned
      · rw [phase] at raised
        cases raised
        exact ⟨world, .inl ⟨known, rfl, failed⟩⟩

theorem refused_agrees (sameModel : engine.model = settings.model)
    (unknown : served settings request.model = false) :
    Agrees settings engine request start number events (refused request : Call F) := by
  have unserved : engine.served request.model = false := by rw [served_eq sameModel, unknown]
  have failed := evaluate_unknown (F := F) unserved start
  refine ⟨⟨?_, ?_⟩, fun _ _ returned => (by cases returned),
    fun error raised => ?_⟩
  · intro given
    obtain ⟨_, _, returned⟩ := given
    cases returned
  · intro given
    obtain ⟨run, after, success⟩ := given
    rw [failed] at success
    cases success
  · cases raised
    exact ⟨_, .inr ⟨unknown, rfl, failed⟩⟩

theorem run_refused {joined : DecisionService F} (valid : joined.Valid settings)
    (located : joined.calls[number]? = some (refused request))
    (ran : run (obeying settings oracle number) joined events = some last) :
    last.Valid settings ∧ last.calls[number]? = some (refused request) := by
  have kept : ∀ (state : DecisionService F) event next,
      state.Valid settings ∧ state.calls[number]? = some (refused request) →
        obeying settings oracle number state event = some next →
          next.Valid settings ∧ next.calls[number]? = some (refused request) := by
    intro state event next given stepped
    obtain ⟨valid, located⟩ := given
    have stepped := obeying_step stepped
    exact ⟨step_valid valid stepped, refused_stays valid stepped located⟩
  exact run_invariant kept ran ⟨valid, located⟩

/-- Under one oracle the gateway and the engine decide alike, in every
interleaving of everything that the gateway has in hand. -/
theorem gateway_agrees_with_engine (sameModel : engine.model = settings.model)
    (sameRetries : engine.config.validationRetries = settings.validationRetries)
    (answers : engine.Answers (jobOracle oracle request.state))
    (free : BudgetFree F engine [request] start) {before : List Event}
    (reached : run (step settings) (initial settings) before = some service)
    (ran : run (obeying settings oracle service.calls.length) service
      (.evaluate request :: events) = some last) :
    ((∃ more final, run (settling settings oracle service.calls.length) last more = some final ∧
        Finished service.calls.length final) ∧
      ∀ more final, run (settling settings oracle service.calls.length) last more = some final →
        more.length ≤ last.work settings) ∧
    ∃ call, last.calls[service.calls.length]? = some call ∧ (call.phase.isFinished = true →
      Agrees settings engine request start service.calls.length events call) := by
  have valid := run_valid reached
  obtain ⟨joined, stepped, ran⟩ := run_cons ran
  have stepped := obeying_step stepped
  cases known : served settings request.model with
  | true =>
      have joins : Tracked settings oracle request service.calls.length (fun _ => 0) joined :=
        evaluate_tracked valid known stepped
      have tracked := run_tracked joins ran
      obtain ⟨valid, call, located, tracks, _⟩ := tracked
      obtain ⟨bound, _⟩ := List.getElem?_eq_some_iff.mp located
      simp only [Nat.zero_add] at tracks
      exact ⟨schedules_finish oracle valid bound, call, located, served_agrees sameModel sameRetries
        answers free known (valid.sound call (List.mem_of_getElem? located)) tracks⟩
  | false =>
      have joins : joined.calls[service.calls.length]? = some (refused request) := by
        cases stepped
        rw [← ofRequest_refused known]
        exact List.getElem?_concat_length
      obtain ⟨valid, located⟩ := run_refused (step_valid valid stepped) joins ran
      obtain ⟨bound, _⟩ := List.getElem?_eq_some_iff.mp located
      exact ⟨schedules_finish oracle valid bound, _, located, fun _ =>
        refused_agrees sameModel known⟩

def steadyEngine : DecisionEngine Unit := ⟨steadyRuntime, lit "m", sampleConfig 32 default_range⟩

def steadyOracle : Oracle := fun _ _ _ => ⟨lit "\x7b\"noul\":1\x7d", ⟨2, 3⟩, lit "stop"⟩

def answered : List Event :=
  [.start 0 0, .ended ⟨0, some 0⟩ (.completed ⟨lit "\x7b\"noul\":1\x7d", ⟨2, 3⟩, lit "stop"⟩),
    .report 0 0, .wake 0, .report 0 0, .wake 0]

theorem gateway_agrees_with_engine_answered :
    ∃ (last : DecisionService ℝ) (call : Call ℝ) (response : SystemOneResponse ℝ)
      (run' : DecisionRun ℝ) (world : World Unit),
      run (obeying oneSlot steadyOracle 0) (initial oneSlot)
        (.evaluate (noulRequest (lit "s")) :: answered) = some last ∧
      last.calls[0]? = some call ∧ call.phase = .returned response none ∧
      steadyEngine.evaluate [noulRequest (lit "s")] () = (.ok run', world) ∧
      run'.responses = [response] := by
  have success : Succeeds ℝ steadyEngine [noulRequest (lit "s")] () :=
    succeeds_of_toBool (by decide +kernel)
  have free : BudgetFree ℝ steadyEngine [noulRequest (lit "s")] () := by
    intro reason world failed
    obtain ⟨run, after, returned⟩ := success
    rw [returned] at failed
    cases failed
  have finished : (run (obeying oneSlot steadyOracle 0) (initial oneSlot : DecisionService ℝ)
      (.evaluate (noulRequest (lit "s")) :: answered)).map (fun service =>
        service.calls.all fun call => call.phase.isFinished) = some true := by
    decide +kernel
  obtain ⟨last, ran, all⟩ := Option.map_eq_some_iff.mp finished
  have answers : steadyEngine.Answers (jobOracle steadyOracle (noulRequest (lit "s")).state) :=
    ⟨fun _ _ => ⟨_, rfl⟩, fun _ _ => rfl⟩
  obtain ⟨_, call, located, agrees⟩ := gateway_agrees_with_engine rfl rfl answers free (run_nil _)
    ran
  have agrees := agrees (List.all_eq_true.mp all call (List.mem_of_getElem? located))
  obtain ⟨response, observation, returned⟩ := agrees.succeeds.mpr success
  obtain ⟨rfl, run', world, evaluated, responded, _⟩ := agrees.returns response observation returned
  exact ⟨last, call, response, run', world, ran, located, returned, evaluated, responded⟩

def otherModel : SystemOneRequest := { noulRequest (lit "s") with model := lit "other" }

/-- A request for a model that is not served fails in other ways. -/
theorem otherModel_refused :
    ∃ (last : DecisionService ℝ) (call : Call ℝ) (world : World Unit),
      run (obeying oneSlot steadyOracle 0) (initial oneSlot) [.evaluate otherModel] = some last ∧
      last.calls[0]? = some call ∧
      call.phase = .raised (.error (.serviceError unknownModel)) ∧
      unknownModel ≠ invalidModelOutput ∧
      steadyEngine.evaluate (F := ℝ) [otherModel] () =
        (.error (.raised (.valueError "Unknown model")), world) := by
  have unknown : served oneSlot otherModel.model = false := by decide +kernel
  refine ⟨⟨Semaphore.create 1, [refused otherModel]⟩, refused otherModel, _, ?_, rfl, rfl,
    by decide,
    evaluate_unknown (by decide +kernel) ()⟩
  rw [← ofRequest_refused unknown]
  rfl

end Agreement

end VllmVerifier.Gateway
