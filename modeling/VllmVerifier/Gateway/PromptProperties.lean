import VllmVerifier.Gateway.ProgressProperties

/-!
The transcript of a question task: the prompts it sends and the reasons for
which its completions are rejected. Each prompt is the one for the last reason,
whatever else the service does.
-/

set_option autoImplicit false

namespace VllmVerifier.Gateway

open Python Asyncio Machine Retry

variable {F : Type} [LogField F] {settings : Settings} {slots next : Slots} {runner : Runner}

/-! ## Transcripts -/

/-- The task that an event lets go on. -/
def Event.owner : Event → Option Runner
  | .start request index => some ⟨request, some index⟩
  | .resume runner | .ended runner _ => some runner
  | .evaluate _ | .evaluateVision _ | .validated _ _ | .report _ _ | .wake _ | .cancel _ => none

/-- The prompt that a task in its backend call has sent. -/
def Task.prompts (task : Task F) : List (List Message) :=
  match task.phase with
  | .calling messages => [messages]
  | .created | .acquiring | .done _ => []

/-- The reason for which a task rejects what its backend call gives. -/
def Task.reasons (task : Task F) : Option Outcome → List String
  | some (.completed completion) =>
      match judge (F := F) task.question completion with
      | .error (.invalidOutput message) => [message]
      | .error _ | .ok _ => []
  | none | some (.raised _) | some .cancelled => []

def DecisionService.task? (service : DecisionService F) (request index : Nat) : Option (Task F) :=
  service.calls[request]?.bind fun call => call.tasks[index]?

def Event.outcome : Event → Option Outcome
  | .ended _ outcome => some outcome
  | .evaluate _ | .evaluateVision _ | .validated _ _ | .start _ _ | .resume _ | .report _ _
  | .wake _ | .cancel _ => none

/-- What a step adds to the transcript of a task. -/
def added (request index : Nat) (before : DecisionService F) (event : Event)
    (after : DecisionService F) : Transcript String (List Message) :=
  if event.owner = some ⟨request, some index⟩ then
    ⟨((before.task? request index).map fun task => task.reasons event.outcome).getD [],
      ((after.task? request index).map Task.prompts).getD []⟩
  else ⟨[], []⟩

/-- The transcript of a task over the steps of a run. -/
def transcript (settings : Settings) (request index : Nat) :
    DecisionService F → List Event → Transcript String (List Message)
  | _, [] => ⟨[], []⟩
  | service, event :: rest =>
      match step settings service event with
      | none => ⟨[], []⟩
      | some after =>
          let first := added request index service event after
          let later := transcript settings request index after rest
          ⟨first.reasons ++ later.reasons, first.prompts ++ later.prompts⟩

/-! ## One task -/

/-- The prompt of a question for a correction. -/
def Asks (state : Content) (question : Question) (correction : Option String)
    (prompt : List Message) : Prop :=
  decisionMessages state question correction = .ok prompt

namespace Task

variable {state : Content} {task after : Task F} {outcome : Option Outcome} {reasons : List String}
  {prompts : List (List Message)}

/-- A task with the transcript that it has so far. -/
structure Recorded (state : Content) (task : Task F) (reasons : List String)
    (prompts : List (List Message)) : Prop where
  conforms : Conforms (Asks state task.question) reasons prompts
  correction : task.phase.isDone = false → task.correction = reasons.getLast?
  counted : task.phase.isDone = false →
    prompts.length = reasons.length + task.prompts.length

/-- Tasks that differ in their flags only. -/
structure Alike (task after : Task F) : Prop where
  question : after.question = task.question
  phase : after.phase = task.phase
  correction : after.correction = task.correction

theorem Alike.refl (task : Task F) : task.Alike task := ⟨rfl, rfl, rfl⟩

theorem Recorded.alike (recorded : task.Recorded state reasons prompts) (alike : task.Alike after) :
    after.Recorded state reasons prompts := by
  obtain ⟨question, phase, correction⟩ := alike
  refine ⟨question ▸ recorded.conforms, ?_, ?_⟩
  · rw [phase, correction]
    exact recorded.correction
  · rw [phase, Task.prompts, phase]
    exact recorded.counted

theorem Recorded.create (state : Content) (question : Question) :
    (create question : Task F).Recorded state [] [] :=
  ⟨.none _, fun _ => rfl, fun _ => rfl⟩

theorem call_asks {messages : List Message}
    (sent : (task.call state slots).2.phase = .calling messages) :
    Asks state task.question task.correction messages := by
  unfold call at sent
  split at sent
  · rename_i rendered
    cases sent
    exact rendered
  · cases sent

theorem enter_asks {messages : List Message}
    (sent : (task.enter state runner slots).2.phase = .calling messages) :
    Asks state task.question task.correction messages := by
  unfold enter at sent
  dsimp only at sent
  split at sent
  · exact call_asks sent
  · cases sent

/-- The prompt that a task is left with is the one for its correction. -/
def Rendered (state : Content) (task : Task F) : Prop :=
  ∀ messages, task.phase = .calling messages → Asks state task.question task.correction messages

theorem Move.correction (move : Move settings runner slots task outcome after)
    (unfinished : after.phase.isDone = false) :
    after.correction = (task.reasons outcome).getLast?.or task.correction := by
  cases move with
  | wait | ask => rfl
  | stop | fail | accept | exhaust => cases unfinished
  | retry completion message phase _ rejected _ known => simp [reasons, rejected]

theorem call_question : (task.call state slots).2.question = task.question ∧
    (task.call state slots).2.correction = task.correction := by
  unfold call
  split <;> exact ⟨rfl, rfl⟩

theorem enter_question : (task.enter state runner slots).2.question = task.question ∧
    (task.enter state runner slots).2.correction = task.correction := by
  unfold enter
  dsimp only
  split
  · exact call_question
  · exact ⟨rfl, rfl⟩

theorem enter_rendered : (task.enter state runner slots).2.Rendered state := by
  intro messages sent
  rw [enter_question.1, enter_question.2]
  exact enter_asks sent

theorem start_rendered (went : task.start state runner slots = some (next, after)) :
    after.Rendered state := by
  unfold start at went
  split at went
  case h_1 =>
    split at went
    · cases went
      exact fun messages sent => by cases sent
    · have same := congrArg Prod.snd (Option.some.inj went)
      dsimp only at same
      exact same ▸ enter_rendered
  all_goals cases went

theorem resume_rendered (went : task.resume state runner slots = some (next, after)) :
    after.Rendered state := by
  unfold resume at went
  split at went
  case h_1 =>
    split at went
    · cases went
    · have same := congrArg Prod.snd (Option.some.inj went)
      dsimp only at same
      subst same
      intro messages sent
      rw [call_question.1, call_question.2]
      exact call_asks sent
    · cases went
      exact fun messages sent => by cases sent
  all_goals cases went

theorem ended_rendered {outcome : Outcome}
    (went : task.ended settings state runner slots outcome = some (next, after)) :
    after.Rendered state := by
  unfold ended at went
  split at went
  case h_1 =>
    cases outcome with
    | completed completion =>
        have same := congrArg Prod.snd (Option.some.inj went)
        dsimp only at same
        subst same
        unfold settle
        dsimp only
        split
        · exact fun messages sent => by cases sent
        · split
          · exact enter_rendered
          · exact fun messages sent => by cases sent
        · exact fun messages sent => by cases sent
    | raised error =>
        cases went
        exact fun messages sent => by cases sent
    | cancelled =>
        dsimp only at went
        split at went
        · cases went
          exact fun messages sent => by cases sent
        · cases went
  all_goals cases went

theorem prompts_of_not_inBackend (outside : task.phase.inBackend = false) : task.prompts = [] := by
  unfold prompts
  cases phase : task.phase <;> simp_all [TaskPhase.inBackend]

theorem Move.unfinished (move : Move settings runner slots task outcome after) :
    task.phase.isDone = false := by
  cases move with
  | wait phase => rw [phase]; rfl
  | ask _ phase => rcases phase with phase | phase <;> rw [phase] <;> rfl
  | stop _ unfinished | fail _ unfinished => exact unfinished
  | accept _ _ inBackend | retry _ _ _ inBackend | exhaust _ _ inBackend =>
      cases phase : task.phase <;> simp_all [TaskPhase.inBackend, TaskPhase.isDone]

/-- Before a task sends its next prompt, every prompt was rejected for a reason. -/
theorem Recorded.due (recorded : task.Recorded state reasons prompts)
    (move : Move settings runner slots task outcome after)
    (unfinished : after.phase.isDone = false) :
    prompts.length = (reasons ++ task.reasons outcome).length := by
  have counted := recorded.counted move.unfinished
  cases move with
  | wait phase =>
      simpa [Task.prompts, Task.reasons, phase] using counted
  | ask messages phase =>
      rcases phase with phase | phase <;> simpa [Task.prompts, Task.reasons, phase] using counted
  | stop | fail | accept | exhaust => cases unfinished
  | retry completion message phase inBackend rejected =>
      have one : task.prompts.length = 1 := by
        unfold Task.prompts
        cases known : task.phase <;> simp_all [TaskPhase.inBackend]
      simpa [Task.reasons, rejected, one] using counted

theorem Recorded.move (recorded : task.Recorded state reasons prompts)
    (move : Move settings runner slots task outcome after) (rendered : after.Rendered state) :
    after.Recorded state (reasons ++ task.reasons outcome) (prompts ++ after.prompts) := by
  have question := move.question
  have corrected : after.phase.isDone = false →
      after.correction = (reasons ++ task.reasons outcome).getLast? := by
    intro unfinished
    rw [move.correction unfinished, recorded.correction move.unfinished, List.getLast?_append]
  have conforms : Conforms (Asks state after.question) (reasons ++ task.reasons outcome) prompts :=
    question ▸ recorded.conforms.reject _
  refine ⟨?_, corrected, fun unfinished => ?_⟩
  · cases phase : after.phase with
    | calling messages =>
        have unfinished : after.phase.isDone = false := by
          rw [phase]
          rfl
        have sent : after.prompts = [messages] := by
          rw [Task.prompts, phase]
        rw [sent]
        exact conforms.ask (recorded.due move unfinished)
          (corrected unfinished ▸ rendered messages phase)
    | created | acquiring | done =>
        rw [prompts_of_not_inBackend (by rw [phase]; rfl), List.append_nil]
        exact conforms
  · rw [List.length_append, recorded.due move unfinished]

end Task

/-! ## One call -/

namespace Call

variable {request index : Nat} {before after : Call F}

/-- What a step of the call that is not one of its task at a position does to it. -/
inductive Keeps (index : Nat) (before after : Call F) : Prop where
  | absent : before.tasks[index]? = none → after.tasks[index]? = none → Keeps index before after
  | created (question : Question) : before.tasks[index]? = none →
      after.tasks[index]? = some (Task.create question) → Keeps index before after
  | alike {task later : Task F} : before.tasks[index]? = some task →
      after.tasks[index]? = some later → task.Alike later → after.request = before.request →
      Keeps index before after

theorem Keeps.of_alike (all : List.Forall₂ Task.Alike before.tasks after.tasks)
    (request : after.request = before.request) : Keeps index before after := by
  cases found : before.tasks[index]? with
  | none =>
      refine .absent found ?_
      rw [List.getElem?_eq_none_iff] at found ⊢
      rwa [← all.length_eq]
  | some task =>
      obtain ⟨later, located, alike⟩ := forall₂_getElem? all found
      exact .alike found located alike request

theorem Keeps.of_tasks (same : after.tasks = before.tasks)
    (request : after.request = before.request) : Keeps index before after :=
  .of_alike (same ▸ List.forall₂_same.mpr fun task _ => Task.Alike.refl task) request

theorem Keeps.of_evaluate (settings : Settings) {before : Call F} (empty : before.tasks = [])
    (index : Nat) : Keeps index before (before.evaluate settings) := by
  unfold evaluate
  split
  · cases found : (before.request.questions.values.map (Task.create (F := F)))[index]? with
    | none => exact .absent (by simp [empty]) found
    | some task =>
        have located := found
        rw [List.getElem?_map, Option.map_eq_some_iff] at located
        obtain ⟨question, _, made⟩ := located
        exact .created question (by simp [empty]) (made ▸ found)
  · exact .absent (by simp [empty]) (by simp [raise, empty])

theorem validated_keeps {outcome : Except PyException Unit}
    (went : before.validated runner slots outcome = some (next, after)) (index : Nat) :
    Keeps index before after := by
  unfold validated at went
  split at went
  case h_1 =>
    split at went
    · cases went
      exact .of_tasks rfl rfl
    · split at went
      · cases went
        exact .of_tasks rfl rfl
      · have same := congrArg Prod.snd (Option.some.inj went)
        subst same
        exact .of_tasks rfl rfl
  all_goals cases went

theorem resume_keeps (went : before.resume runner slots = some (next, after)) (index : Nat) :
    Keeps index before after := by
  unfold resume at went
  split at went
  case h_1 =>
    split at went
    · cases went
    all_goals
      cases went
      exact .of_tasks rfl rfl
  all_goals cases went

theorem ended_keeps {outcome : Outcome} (sound : before.Sound settings)
    (went : before.ended settings slots outcome = some (next, after)) (index : Nat) :
    Keeps index before after := by
  unfold ended at went
  split at went
  case h_1 messages phase =>
    cases outcome with
    | completed completion =>
        cases went
        unfold observe
        split
        · exact .of_tasks rfl rfl
        · rw [Sound, phase] at sound
          let observed : Call F := { before with
            mustCancel := false
            observed := some completion
            request := { before.request with
              state := observedState before.request.state completion.text } }
          have empty : observed.tasks = [] := sound
          obtain ⟨_, absent⟩ | ⟨question, _, created⟩ | ⟨found, _, _, _⟩ :=
            Keeps.of_evaluate settings empty index
          · exact .absent (by simp [sound]) absent
          · exact .created question (by simp [sound]) created
          · simp [empty] at found
    | raised error =>
        cases went
        exact .of_tasks rfl rfl
    | cancelled =>
        dsimp only at went
        split at went
        · cases went
          exact .of_tasks rfl rfl
        · cases went
  all_goals cases went

theorem report_keeps {position : Nat} (went : before.report position = some after) (index : Nat) :
    Keeps index before after := by
  unfold report at went
  split at went
  · cases went
  · rename_i task found
    have alike : List.Forall₂ Task.Alike before.tasks
        (before.tasks.set position { task with reported := true }) :=
      forall₂_set found ⟨rfl, rfl, rfl⟩ Task.Alike.refl
    split at went
    · dsimp only at went
      split at went
      · cases went
        exact .of_alike alike rfl
      · cases went
        exact .of_alike alike rfl
      all_goals cases went
    · cases went

theorem cancelTasks_alike (request start : Nat) (slots : Slots) (tasks : List (Task F)) :
    List.Forall₂ Task.Alike tasks (cancelTasks request start slots tasks).2 :=
  (cancelTasks_flags request start slots tasks).imp fun _ _ ⟨_, flagged⟩ => flagged ▸ ⟨rfl, rfl, rfl⟩

theorem wake_keeps (went : before.wake settings request slots = some (next, after))
    (index : Nat) : Keeps index before after := by
  unfold wake at went
  split at went
  · split at went
    · cases went
    · have same := congrArg Prod.snd (Option.some.inj went)
      subst same
      refine .of_alike ?_ rfl
      exact List.forall₂_map_right_iff.mpr ((cancelTasks_flags request 0 slots before.tasks).imp
        fun _ _ ⟨_, flagged⟩ => flagged ▸ ⟨rfl, rfl, rfl⟩)
  · split at went
    · cases went
    · cases went
      exact .of_tasks rfl rfl
  all_goals cases went

theorem cancelGather_keeps {Result : Type} {gather : Gather Result}
    {phase : Gather Result → Phase F}
    (index : Nat) : Keeps index before (before.cancelGather request slots gather phase).2 := by
  unfold cancelGather
  split
  · exact .of_tasks rfl rfl
  · exact .of_alike (cancelTasks_alike request 0 slots before.tasks) rfl

theorem cancel_keeps (went : before.cancel request slots = some (next, after)) (index : Nat) :
    Keeps index before after := by
  unfold cancel at went
  split at went
  case h_4 | h_5 =>
    have same := congrArg Prod.snd (Option.some.inj went)
    dsimp only at same
    exact same ▸ cancelGather_keeps index
  case h_6 | h_7 => cases went
  all_goals
    cases went
    exact .of_tasks rfl rfl

end Call

/-! ## The service -/

section Runs

variable {request index : Nat} {service after : DecisionService F} {reasons : List String}
  {prompts : List (List Message)} {event : Event}

/-- The transcript so far of the task at a position, if there is such a task. -/
structure Recorded (request index : Nat) (service : DecisionService F) (reasons : List String)
    (prompts : List (List Message)) : Prop where
  absent : service.task? request index = none → reasons = [] ∧ prompts = []
  present : ∀ (call : Call F) (task : Task F), service.calls[request]? = some call →
    call.tasks[index]? = some task → task.Recorded call.request.state reasons prompts

theorem task?_eq {call : Call F} (located : service.calls[request]? = some call) (index : Nat) :
    service.task? request index = call.tasks[index]? := by
  rw [DecisionService.task?, located, Option.bind_some]

theorem Recorded.keeps {before call : Call F}
    (recorded : Recorded request index service reasons prompts)
    (located : service.calls[request]? = some before) (found : after.calls[request]? = some call)
    (keeps : before.Keeps index call) : Recorded request index after reasons prompts := by
  have absent := recorded.absent
  rw [task?_eq located] at absent
  cases keeps with
  | absent before none =>
      refine ⟨fun _ => absent before, fun other task known present => ?_⟩
      · cases found.symm.trans known
        rw [none] at present
        cases present
  | created question none created =>
      obtain ⟨rfl, rfl⟩ := absent none
      refine ⟨fun _ => ⟨rfl, rfl⟩, fun other task known present => ?_⟩
      cases found.symm.trans known
      cases created.symm.trans present
      exact .create _ question
  | @alike task later present same alike request =>
      refine ⟨fun none => ?_, fun other last known located' => ?_⟩
      · rw [task?_eq found, same] at none
        cases none
      · cases found.symm.trans known
        cases same.symm.trans located'
        rw [request]
        exact (recorded.present before task located present).alike alike

theorem Recorded.same (recorded : Recorded request index service reasons prompts)
    (found : after.calls[request]? = service.calls[request]?) :
    Recorded request index after reasons prompts := by
  obtain ⟨absent, present⟩ := recorded
  rw [DecisionService.task?, ← found] at absent
  rw [← found] at present
  exact ⟨absent, present⟩

theorem Recorded.join {call : Call F} (recorded : Recorded request index service reasons prompts)
    (fresh : ∀ task, call.tasks[index]? = some task → ∃ question, task = Task.create question) :
    Recorded request index { service with calls := service.calls ++ [call] } reasons prompts := by
  rcases Nat.lt_or_ge request service.calls.length with earlier | last
  · exact recorded.same (List.getElem?_append_left earlier)
  · have none : service.task? request index = none := by
      rw [DecisionService.task?, List.getElem?_eq_none last]
      rfl
    obtain ⟨rfl, rfl⟩ := recorded.absent none
    refine ⟨fun _ => ⟨rfl, rfl⟩, fun other task known present => ?_⟩
    rw [List.getElem?_append_right last] at known
    have single : other = call := by
      rcases Nat.eq_zero_or_pos (request - service.calls.length) with zero | positive
      · rw [zero] at known
        exact (Option.some.inj known).symm
      · rw [List.getElem?_eq_none (by simp only [List.length_singleton]; exact positive)] at known
        cases known
    subst single
    obtain ⟨question, rfl⟩ := fresh task present
    exact .create _ question

theorem Recorded.onCall {target : Nat} {act : Call F → Option (Slots × Call F)}
    (recorded : Recorded request index service reasons prompts)
    (stepped : service.onCall target act = some after)
    (keeps : ∀ (before : Call F) (slots : Slots) (call : Call F), target = request →
      service.calls[target]? = some before → act before = some (slots, call) →
        before.Keeps index call) : Recorded request index after reasons prompts := by
  obtain ⟨before, slots, call, found, acted, rfl⟩ := DecisionService.onCall_some stepped
  by_cases same : target = request
  · subst same
    obtain ⟨bound, _⟩ := List.getElem?_eq_some_iff.mp found
    exact recorded.keeps found (List.getElem?_set_self bound)
      (keeps before slots call rfl found acted)
  · exact recorded.same (List.getElem?_set_ne same)

theorem onTask_keeps {position : Nat} {act : Task F → Option (Slots × Task F)}
    {before call : Call F}
    (different : position ≠ index) (went : before.onTask position act = some (next, call)) :
    before.Keeps index call := by
  unfold Call.onTask at went
  split at went
  · cases went
  · split at went
    · cases went
    · cases went
      cases found : before.tasks[index]? with
      | none => exact .absent found ((List.getElem?_set_ne different).trans found)
      | some task =>
          exact .alike found ((List.getElem?_set_ne different).trans found)
            (Task.Alike.refl task) rfl

theorem Recorded.onTask {act : Call F → Task F → Option (Slots × Task F)} {outcome : Option Outcome}
    (recorded : Recorded request index service reasons prompts)
    (stepped : (service.onCall request fun call => call.onTask index (act call)) = some after)
    (goes : ∀ (call : Call F) (task : Task F) (slots : Slots) (later : Task F),
      service.calls[request]? = some call → call.tasks[index]? = some task →
        act call task = some (slots, later) →
          Task.Move settings ⟨request, some index⟩ service.slots task outcome later ∧
            later.Rendered call.request.state) :
    ∃ task later, service.task? request index = some task ∧ after.task? request index = some later ∧
      Recorded request index after (reasons ++ task.reasons outcome) (prompts ++ later.prompts) := by
  obtain ⟨before, slots, call, found, acted, rfl⟩ := DecisionService.onCall_some stepped
  obtain ⟨bound, _⟩ := List.getElem?_eq_some_iff.mp found
  have located : (service.calls.set request call)[request]? = some call :=
    List.getElem?_set_self bound
  unfold Call.onTask at acted
  cases present : before.tasks[index]? with
  | none => simp [present] at acted
  | some task =>
      cases went : act before task with
      | none => simp [present, went] at acted
      | some result =>
          obtain ⟨middle, later⟩ := result
          simp only [present, went, Option.some.injEq, Prod.mk.injEq] at acted
          obtain ⟨rfl, rfl⟩ := acted
          obtain ⟨move, rendered⟩ := goes before task middle later found present went
          obtain ⟨inside, _⟩ := List.getElem?_eq_some_iff.mp present
          have set : (before.tasks.set index later)[index]? = some later :=
            List.getElem?_set_self inside
          refine ⟨task, later, (task?_eq found index).trans present,
            (task?_eq located index).trans set, fun none => ?_, fun other last known same => ?_⟩
          · rw [task?_eq located, set] at none
            cases none
          · cases located.symm.trans known
            cases set.symm.trans same
            exact (recorded.present before task found present).move move rendered

theorem evaluate_fresh (call : Call F) (empty : call.tasks = []) {task : Task F}
    (found : (call.evaluate settings).tasks[index]? = some task) :
    ∃ question, task = Task.create question := by
  obtain ⟨_, absent⟩ | ⟨question, _, created⟩ | ⟨present, _, _, _⟩ :=
    Call.Keeps.of_evaluate settings empty index
  · cases absent.symm.trans found
  · exact ⟨question, Option.some.inj (found.symm.trans created)⟩
  · simp [empty] at present

/-- A step adds to the transcript of a task what the task itself does. -/
theorem step_recorded (valid : service.Valid settings)
    (recorded : Recorded request index service reasons prompts)
    (stepped : step settings service event = some after) :
    Recorded request index after (reasons ++ (added request index service event after).reasons)
      (prompts ++ (added request index service event after).prompts) := by
  have own : ∀ {task later : Task F} {outcome : Option Outcome}, event.outcome = outcome →
      event.owner = some ⟨request, some index⟩ → service.task? request index = some task →
      after.task? request index = some later →
      Recorded request index after (reasons ++ task.reasons outcome) (prompts ++ later.prompts) →
      Recorded request index after (reasons ++ (added request index service event after).reasons)
        (prompts ++ (added request index service event after).prompts) := by
    intro task later outcome same owner before located kept
    subst same
    simpa only [added, if_pos owner, before, located, Option.map_some, Option.getD_some] using kept
  have others : event.owner ≠ some ⟨request, some index⟩ →
      Recorded request index after reasons prompts →
      Recorded request index after (reasons ++ (added request index service event after).reasons)
        (prompts ++ (added request index service event after).prompts) := by
    intro other kept
    simpa only [added, if_neg other, List.append_nil] using kept
  cases event with
  | evaluate asked =>
      cases stepped
      exact others (by simp [Event.owner]) (recorded.join fun task => evaluate_fresh _ rfl)
  | evaluateVision asked =>
      cases stepped
      refine others (by simp [Event.owner]) (recorded.join fun task found => ?_)
      unfold Call.ofVision at found
      dsimp only at found
      split at found <;> simp [Call.raise] at found
  | validated target outcome =>
      exact others (by simp [Event.owner]) (recorded.onCall stepped
        fun _ _ _ _ _ went => Call.validated_keeps went index)
  | report target position =>
      refine others (by simp [Event.owner]) (recorded.onCall stepped
        fun _ _ _ _ _ went => ?_)
      obtain ⟨heard, reported, same⟩ := Option.map_eq_some_iff.mp went
      cases same
      exact Call.report_keeps reported index
  | wake target =>
      exact others (by simp [Event.owner]) (recorded.onCall stepped
        fun _ _ _ _ _ went => Call.wake_keeps went index)
  | cancel target =>
      exact others (by simp [Event.owner]) (recorded.onCall stepped
        fun _ _ _ _ _ went => Call.cancel_keeps went index)
  | start target position =>
      by_cases same : (⟨target, some position⟩ : Runner) = ⟨request, some index⟩
      · cases same
        obtain ⟨task, later, before, located, kept⟩ := recorded.onTask stepped
          fun call task slots later _ _ went =>
            have move : Task.Move settings _ _ task none later := Task.start_move went
            ⟨move, Task.start_rendered went⟩
        exact own rfl rfl before located kept
      · refine others (by simpa [Event.owner] using same) (recorded.onCall stepped
          fun _ _ _ target _ went => onTask_keeps (fun position => same ?_) went)
        rw [target, position]
  | resume runner =>
      obtain ⟨target, question⟩ := runner
      cases question with
      | none =>
          exact others (by simp [Event.owner]) (recorded.onCall stepped
            fun _ _ _ _ _ went => Call.resume_keeps went index)
      | some position =>
          by_cases same : (⟨target, some position⟩ : Runner) = ⟨request, some index⟩
          · cases same
            obtain ⟨task, later, before, located, kept⟩ := recorded.onTask stepped
              fun call task slots later found present went =>
                have move : Task.Move settings _ _ task none later :=
                  Task.resume_move (valid.task_fits found present) went
                ⟨move, Task.resume_rendered went⟩
            exact own rfl rfl before located kept
          · refine others (by simpa [Event.owner] using same) (recorded.onCall stepped
              fun _ _ _ target _ went => onTask_keeps (fun position => same ?_) went)
            rw [target, position]
  | ended runner outcome =>
      obtain ⟨target, question⟩ := runner
      cases question with
      | none =>
          exact others (by simp [Event.owner]) (recorded.onCall stepped
            fun before _ _ _ found went =>
              Call.ended_keeps (valid.sound before (List.mem_of_getElem? found)) went index)
      | some position =>
          by_cases same : (⟨target, some position⟩ : Runner) = ⟨request, some index⟩
          · cases same
            obtain ⟨task, later, before, located, kept⟩ := recorded.onTask stepped
              fun call task slots later _ _ went =>
                ⟨Task.ended_move went, Task.ended_rendered went⟩
            exact own rfl rfl before located kept
          · refine others (by simpa [Event.owner] using same) (recorded.onCall stepped
              fun _ _ _ target _ went => onTask_keeps (fun position => same ?_) went)
            rw [target, position]

theorem run_recorded {events : List Event} (valid : service.Valid settings)
    (recorded : Recorded request index service reasons prompts)
    (ran : run (step settings) service events = some after) :
    Recorded request index after
      (reasons ++ (transcript settings request index service events).reasons)
      (prompts ++ (transcript settings request index service events).prompts) := by
  induction events generalizing service reasons prompts with
  | nil =>
      cases ran
      simpa [transcript] using recorded
  | cons event rest ih =>
      obtain ⟨middle, stepped, ran⟩ := run_cons ran
      have last := ih (step_valid valid stepped) (step_recorded valid recorded stepped) ran
      simpa only [transcript, stepped, List.append_assoc] using last

end Runs

/-! ## Noninterference -/

/-- The texts with which a prompt can be corrected. -/
def correctionTexts : List String :=
  "completion did not finish normally; produce a shorter answer" :: invalidReasons

theorem Task.reasons_known {task : Task F} {outcome : Option Outcome} {reason : String}
    (given : reason ∈ task.reasons outcome) : reason ∈ correctionTexts := by
  unfold Task.reasons at given
  split at given
  · rename_i completion
    split at given
    · rename_i message rejected
      rw [List.mem_singleton.mp given]
      unfold judge at rejected
      split at rejected
      · obtain ⟨known, member, same⟩ := verify_refuses completion.text task.question _ rejected
        cases same
        exact List.mem_cons_of_mem _ member
      · cases rejected
        exact List.mem_cons_self
    all_goals cases given
  all_goals cases given

theorem transcript_known {request index : Nat} {service : DecisionService F} {events : List Event}
    {reason : String}
    (given : reason ∈ (transcript settings request index service events).reasons) :
    reason ∈ correctionTexts := by
  induction events generalizing service with
  | nil => cases given
  | cons event rest ih =>
      unfold transcript at given
      split at given
      · cases given
      · rename_i after _
        rcases List.mem_append.mp given with first | later
        · unfold added at first
          split at first
          · dsimp only at first
            cases before : service.task? request index with
            | none => simp [before] at first
            | some task =>
                rw [before, Option.map_some, Option.getD_some] at first
                exact Task.reasons_known first
          · cases first
        · exact ih later

/-- A transcript that a run gives a question about a state. -/
def Transcribes (F : Type) [LogField F] (state : Content) (question : Question)
    (shown : Transcript String (List Message)) : Prop :=
  ∃ (settings : Settings) (events : List Event) (service : DecisionService F) (request index : Nat)
    (call : Call F) (task : Task F),
    run (step settings) (initial settings) events = some service ∧
      service.calls[request]? = some call ∧ call.tasks[index]? = some task ∧
      call.request.state = state ∧ task.question = question ∧
      shown = transcript settings request index (initial settings : DecisionService F) events

theorem prompts_noninterfering (state : Content) (question : Question) :
    Noninterfering (Transcribes F state question) (Asks state question) correctionTexts := by
  refine .of_conforms ?_ ?_ ?_
  · intro correction prompt prompt' asked asked'
    exact Except.ok.inj (asked.symm.trans asked')
  · intro shown given
    obtain ⟨settings, events, service, request, index, call, task, ran, located, found, rfl,
      rfl, rfl⟩ := given
    have start : Recorded request index (initial settings : DecisionService F) [] [] :=
      ⟨fun _ => ⟨rfl, rfl⟩, fun _ _ none => by cases none⟩
    have recorded := run_recorded .initial start ran
    exact (recorded.present call task located found).conforms
  · intro shown transcribes reason given
    obtain ⟨settings, events, service, request, index, call, task, _, _, _, _, _, rfl⟩ := transcribes
    exact transcript_known given

end VllmVerifier.Gateway
