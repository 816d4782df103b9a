import VllmVerifier.Engine.ProgressProperties
import VllmVerifier.Retry

/-!
The transcript of a question in a run of the engine. The calls of `encode` are
those for the first prompts, in the order of the requests, and then one for
each rejected completion; every one carries the prompt of its own question.
-/

set_option autoImplicit false

namespace VllmVerifier.Engine

open Python Worklist Retry

/-! ## Transcripts -/

/-- What a call of `encode` is made for. -/
structure Ask where
  requestIndex : Nat
  questionId : Str
  question : Question
  correction : Option String
deriving DecidableEq

def Ask.label (ask : Ask) : Nat × Str := (ask.requestIndex, ask.questionId)

/-- The prompts sent to the tokenizer. -/
def World.encoded {σ : Type} (world : World σ) : List (List Message) :=
  world.calls.filterMap fun call =>
    match call with
    | .encode messages _ => some messages
    | .generate _ _ => none

section Asks

variable (F : Type) [LogField F]

def rowReasons (row : WorkItem × Completion) : List String :=
  match judge (F := F) row.1.question row.2 with
  | .error (.invalidOutput message) => [message]
  | .error _ | .ok _ => []

def repairAsks (row : WorkItem × Completion) : List Ask :=
  (rowReasons F row).map fun message =>
    ⟨row.1.requestIndex, row.1.questionId, row.1.question, some message⟩

def firstAsks (requests : List SystemOneRequest) : List Ask :=
  requests.zipIdx.flatMap fun entry =>
    entry.1.questions.entries.map fun question => ⟨entry.2, question.1, question.2, none⟩

/-- What the calls of `encode` of a run are made for, in order. -/
def asks (requests : List SystemOneRequest) (history : List (WorkItem × Completion)) : List Ask :=
  firstAsks requests ++ history.flatMap (repairAsks F)

/-- The transcript of a question in a run. -/
def transcript {σ : Type} (requests : List SystemOneRequest) (world : World σ)
    (label : Nat × Str) : Transcript String (List Message) where
  reasons := (world.history.filter fun row => decide (row.1.label = label)).flatMap (rowReasons F)
  prompts := (((asks F requests world.history).zip world.encoded).filter
    fun entry => decide (entry.1.label = label)).map Prod.snd

end Asks

/-! ## What a run sends -/

namespace Run

variable {σ α β : Type} {world : World σ} {first second : List (List Message)}

/-- The run encodes a beginning of these prompts, all of them if it returns,
and generates nothing. -/
def Sends (prompts : List (List Message)) (run : Run σ α) (world : World σ) : Prop :=
  ∀ result after, run world = (result, after) → after.history = world.history ∧
    ∃ sent, after.encoded = world.encoded ++ sent ∧ sent <+: prompts ∧
      ((∃ value, result = .ok value) → sent = prompts)

namespace Sends

theorem quiet {run : Run σ α} (same : ∀ result after, run world = (result, after) → after = world) :
    Sends [] run world := by
  intro result after ran
  cases same result after ran
  exact ⟨rfl, [], by simp, List.prefix_refl _, fun _ => rfl⟩

theorem pure (value : α) : Sends [] (Pure.pure value : Run σ α) world := by
  refine quiet fun result after ran => ?_
  cases ran
  rfl

theorem lift (computation : Except PyException α) : Sends [] (Run.lift computation) world := by
  refine quiet fun result after ran => ?_
  cases computation <;> cases ran <;> rfl

theorem raise (error : PyException) (prompts : List (List Message)) :
    Sends prompts (Run.raise error : Run σ α) world := by
  intro result after ran
  cases ran
  refine ⟨rfl, [], by simp, List.nil_prefix, ?_⟩
  intro given
  obtain ⟨value, returned⟩ := given
  cases returned

theorem bind {source : Run σ α} {continuation : α → Run σ β} (start : Sends first source world)
    (rest : ∀ value after, source world = (.ok value, after) →
      Sends second (continuation value) after) :
    Sends (first ++ second) (source >>= continuation) world := by
  intro result after ran
  change next source continuation world = _ at ran
  unfold next at ran
  cases outcome : source world with
  | mk computed middle =>
      obtain ⟨history, sent, encoded, begins, complete⟩ := start computed middle outcome
      rw [outcome] at ran
      cases computed with
      | error reason =>
          cases ran
          refine ⟨history, sent, encoded, begins.trans (List.prefix_append _ _), ?_⟩
          intro given
          obtain ⟨value, returned⟩ := given
          cases returned
      | ok value =>
          obtain ⟨later, sent', encoded', begins', complete'⟩ :=
            rest value middle outcome result after ran
          cases complete ⟨value, rfl⟩
          refine ⟨later.trans history, first ++ sent', ?_, ?_, fun returned => ?_⟩
          · rw [encoded', encoded, List.append_assoc]
          · exact (List.prefix_append_right_inj first).mpr begins'
          · rw [complete' returned]

theorem mapM {f : α → Run σ β} {items : List α} (prompts : α → List (List Message))
    (each : ∀ item ∈ items, ∀ before, Sends (prompts item) (f item) before) :
    Sends (items.flatMap prompts) (items.mapM f) world := by
  induction items generalizing world with
  | nil =>
      rw [List.mapM_nil]
      exact pure _
  | cons item rest ih =>
      rw [List.mapM_cons, List.flatMap_cons]
      refine bind (each item List.mem_cons_self world) fun head after _ => ?_
      rw [← List.append_nil (rest.flatMap prompts)]
      refine bind (ih fun found member => each found (List.mem_cons_of_mem _ member)) ?_
      intro tail afterTail _
      exact pure _

end Sends

theorem lift_pure_world {computation : Except PyException α} {f : α → β}
    {result : Except Halt β} {after : World σ}
    (ran : (Run.lift computation >>= fun value => Pure.pure (f value)) world = (result, after)) :
    after = world := by
  cases computation <;> cases ran <;> rfl

end Run

/-- The prompt for a correction. -/
def promptOf (state : Str) (question : Question) (correction : Option String) : List Message :=
  match messages state question (correction.map lit) with
  | .ok prompt => prompt
  | .error _ => []

theorem messages_promptOf (state : Str) (question : Question) (correction : Option String) :
    messages state question (correction.map lit) = .ok (promptOf state question correction) := by
  obtain ⟨prompt, rendered⟩ := messages_ok state question (correction.map lit)
  rw [promptOf, rendered]

/-- The prompt that a call of `encode` gets, by the rendered states. -/
def Ask.prompt (states : List Str) (ask : Ask) : List Message :=
  promptOf (states.getD ask.requestIndex []) ask.question ask.correction

theorem Ask.prompt_of_state (ask : Ask) {states : List Str} {state : Str}
    (located : states[ask.requestIndex]? = some state) :
    ask.prompt states = promptOf state ask.question ask.correction := by
  rw [prompt, List.getD_eq_getElem?_getD, located, Option.getD_some]

namespace DecisionEngine

variable {σ F : Type} [LogField F] {engine : DecisionEngine σ} {states : List Str}
  {world : World σ}

theorem encode_sends (prompt : List Message) : Run.Sends [prompt] (engine.encode prompt) world := by
  intro result after ran
  unfold encode at ran
  dsimp only at ran
  cases ran
  exact ⟨by simp [World.history, RuntimeCall.rows], [prompt], by simp [World.encoded],
    List.prefix_refl _, fun _ => rfl⟩

theorem job_sends (index : Nat) (key state : Str) (question : Question) (attempt : Nat)
    (correction : Option String) :
    Run.Sends [promptOf state question correction]
      (engine.job index key state question attempt correction) world := by
  unfold job
  rw [messages_promptOf, ← List.nil_append [promptOf state question correction]]
  refine .bind (.lift _) fun prompt after started => ?_
  obtain ⟨same, rfl⟩ := Run.lift_ok started
  cases same
  rw [← List.append_nil [promptOf state question correction]]
  refine .bind (encode_sends _) fun tokens afterTokens _ => ?_
  dsimp only
  split
  · exact .raise _ _
  · split
    · exact .raise _ _
    · exact .pure _

theorem prepare_sends {requests : List SystemOneRequest}
    (rendered : requests.mapM (fun request => dumpsOrRaise .default request.state.value) =
      .ok states) :
    Run.Sends ((firstAsks requests).map (Ask.prompt states))
      (engine.prepare (F := F) requests) world := by
  unfold prepare
  split
  · exact .raise _ _
  split
  · exact .raise _ _
  rw [rendered, ← List.nil_append ((firstAsks requests).map (Ask.prompt states))]
  refine .bind (.lift _) fun found after started => ?_
  obtain ⟨same, rfl⟩ := Run.lift_ok started
  cases same
  have lengths : requests.length = states.length := (mapM_ok_length rendered).symm
  have flat : (firstAsks requests).map (Ask.prompt states) =
      (requests.zip states).zipIdx.flatMap fun entry =>
        entry.1.1.questions.entries.flatMap fun question =>
          [Ask.prompt states ⟨entry.2, question.1, question.2, none⟩] := by
    have unzipped : requests.zipIdx =
        (requests.zip states).zipIdx.map fun entry => (entry.1.1, entry.2) := by
      conv_lhs => rw [← List.map_fst_zip (Nat.le_of_eq lengths), List.zipIdx_map]
      rfl
    rw [firstAsks, unzipped, List.flatMap_map, List.map_flatMap]
    simp only [List.map_map, ← List.map_eq_flatMap]
    rfl
  rw [flat, ← List.append_nil (List.flatMap _ _)]
  refine .bind (.mapM _ fun entry member before => ?_) fun queues after _ => .pure _
  obtain ⟨⟨request, text⟩, index⟩ := entry
  have paired := List.mk_mem_zipIdx_iff_getElem?.mp member
  obtain ⟨_, located⟩ := List.getElem?_zip_eq_some.mp paired
  refine .mapM _ fun question _ middle => ?_
  have prompt := Ask.prompt_of_state ⟨index, question.1, question.2, none⟩ located
  rw [prompt]
  exact job_sends index question.1 text question.2 0 none

theorem settle_sends {progress : Progress F} (row : WorkItem × Completion) :
    Run.Sends ((repairAsks F row).map (Ask.prompt states)) (engine.settle states progress row)
      world := by
  obtain ⟨item, completion⟩ := row
  unfold settle repairAsks rowReasons
  rw [← List.nil_append (List.map _ _)]
  refine .bind (.lift _) fun used after _ => ?_
  dsimp only
  cases judged : judge (F := F) item.question completion with
  | ok answer =>
      exact .quiet fun result after ran => Run.lift_pure_world ran
  | error error =>
      cases error with
      | invalidOutput message =>
          dsimp only
          split
          · exact .raise _ _
          · rw [← List.nil_append (List.map _ _)]
            refine .bind (.lift _) fun state after found => ?_
            obtain ⟨located, _⟩ := Run.lift_ok found
            have prompt := Ask.prompt_of_state
              ⟨item.requestIndex, item.questionId, item.question, some message⟩
              (at?_ok located)
            simp only [List.map_cons, List.map_nil, prompt]
            rw [← List.append_nil [promptOf state item.question (some message)]]
            exact .bind (job_sends _ _ _ _ _ _) fun repair after _ => .pure _
      | valueError | validationError | runtimeError | memoryError | floatingPointError
        | zeroDivisionError | keyError | indexError | assertionError | serviceError | other =>
          exact .raise _ _

theorem settleAll_sends (engine : DecisionEngine σ) (states : List Str)
    {rows : List (WorkItem × Completion)} {progress : Progress F} :
    Run.Sends ((rows.flatMap (repairAsks F)).map (Ask.prompt states))
      (engine.settleAll states rows progress) world := by
  induction rows generalizing progress world with
  | nil => exact .pure _
  | cons row rest ih =>
      rw [List.flatMap_cons, List.map_append]
      exact .bind (settle_sends row) fun next after _ => ih

/-! ## What the loop sends -/

/-- Whatever the run generates and repairs, the repairs are those of rejected
rows, in order, and every row is about a job that holds. -/
def Repairs (states : List Str) (holds : WorkItem → Prop)
    (run : Run σ (Progress F)) (world : World σ) : Prop :=
  ∀ result after, run world = (result, after) → ∃ rows sent,
    after.history = world.history ++ rows ∧ after.encoded = world.encoded ++ sent ∧
      sent <+: (rows.flatMap (repairAsks F)).map (Ask.prompt states) ∧
      ((∃ next, result = .ok next) → sent = (rows.flatMap (repairAsks F)).map (Ask.prompt states)) ∧
      ∀ row ∈ rows, holds row.1

variable {holds : WorkItem → Prop}

theorem round_repairs {progress : Progress F} (queue : ∀ item ∈ progress.pending, holds item) :
    Repairs states holds (engine.round states progress) world := by
  intro result after ran
  unfold round at ran
  cases cut : takeBatch engine.config 0 0 progress.pending with
  | mk batch rest =>
      have whole := takeBatch_append engine.config 0 0 progress.pending
      rw [cut] at ran whole
      dsimp only at ran whole
      have rowsHold : ∀ completions : List Completion,
          ∀ row ∈ batch.zip completions, holds row.1 := by
        intro completions row member
        apply queue
        rw [← whole]
        exact List.mem_append_left _ (List.of_mem_zip member).1
      rcases Run.bind_outcome ran with ⟨reason, failed, rfl⟩ | ⟨completions, middle, generated, ran⟩
      · obtain ⟨returned, _, _, calls⟩ := generate_outcome failed
        refine ⟨(RuntimeCall.generate batch returned).rows, [], by simp [World.history, calls],
          by simp [World.encoded, calls], List.nil_prefix, ?_, ?_⟩
        · intro given
          obtain ⟨next, same⟩ := given
          cases same
        · cases returned with
          | error => exact fun _ none => by cases none
          | ok completions => exact rowsHold completions
      · obtain ⟨returned, _, same, calls⟩ := generate_outcome generated
        cases returned with
        | error error => cases same
        | ok found =>
            cases same
            have history : middle.history = world.history ++ batch.zip completions := by
              simp [World.history, calls, RuntimeCall.rows]
            have unsent : middle.encoded = world.encoded := by
              simp [World.encoded, calls]
            split at ran
            · obtain ⟨settled, sent, encoded, begins, complete⟩ :=
                settleAll_sends (F := F) engine states result after ran
              exact ⟨batch.zip completions, sent, settled.trans history,
                by rw [encoded, unsent], begins, complete, rowsHold completions⟩
            · cases ran
              refine ⟨batch.zip completions, [], history, by rw [unsent, List.append_nil],
                List.nil_prefix, ?_, rowsHold completions⟩
              intro given
              obtain ⟨next, same⟩ := given
              cases same

theorem produces_any : engine.Produces fun _ _ => True := fun _ _ _ _ _ _ _ => trivial

theorem generateLoop_repairs
    (preserved : ∀ item completion next, holds item →
      (policy F engine states fun _ _ => True).retries item completion next → holds next)
    {fuel : Nat} {progress : Progress F}
    (queue : ∀ item ∈ progress.pending, holds item ∧ engine.Queued item) :
    Repairs states holds (engine.generateLoop states fuel progress) world := by
  have stops : ∀ (reason : Except Halt (Progress F)) (world : World σ), Repairs states holds
      (fun world => (reason, world)) world := by
    intro reason world result after ran
    cases ran
    exact ⟨[], [], by simp, by simp, List.prefix_refl _, fun _ => rfl, fun _ none => by cases none⟩
  induction fuel generalizing progress world with
  | zero =>
      unfold generateLoop
      split
      · exact stops (.ok progress) _
      · exact stops (.error .outOfFuel) _
  | succ fuel ih =>
      unfold generateLoop
      split
      · exact stops (.ok progress) _
      · rename_i unfinished
        have nonempty : progress.pending ≠ [] := fun none => unfinished (List.isEmpty_iff.mpr none)
        intro result after ran
        rcases Run.bind_outcome ran with ⟨reason, failed, rfl⟩ | ⟨next, middle, outcome, ran⟩
        · obtain ⟨rows, sent, history, encoded, begins, _, held⟩ :=
            round_repairs (fun item member => (queue item member).1) _ _ failed
          refine ⟨rows, sent, history, encoded, begins, fun returned => ?_, held⟩
          obtain ⟨_, same⟩ := returned
          cases same
        · obtain ⟨rows, sent, history, encoded, _, complete, held⟩ :=
            round_repairs (fun item member => (queue item member).1) _ _ outcome
          obtain ⟨kept, _⟩ := round_queue preserved produces_any outcome nonempty queue
          obtain ⟨later, sent', history', encoded', begins', complete', held'⟩ :=
            ih kept result after ran
          cases complete ⟨next, rfl⟩
          refine ⟨rows ++ later, (rows.flatMap (repairAsks F)).map (Ask.prompt states) ++ sent',
            ?_, ?_, ?_, fun returned => ?_,
            List.forall_mem_append.mpr ⟨held, held'⟩⟩
          · rw [history', history, List.append_assoc]
          · rw [encoded', encoded, List.append_assoc]
          · rw [List.flatMap_append, List.map_append]
            exact (List.prefix_append_right_inj _).mpr begins'
          · rw [complete' returned, List.flatMap_append, List.map_append]

/-- The job is about a question of its request. -/
def Owned (requests : List SystemOneRequest) (item : WorkItem) : Prop :=
  ∃ request, requests[item.requestIndex]? = some request ∧
    (item.questionId, item.question) ∈ request.questions.entries

theorem Owned.retried {requests : List SystemOneRequest} {item next : WorkItem}
    {completion : Completion} {produced : WorkItem → Completion → Prop}
    (owned : Owned requests item)
    (retried : (policy F engine states produced).retries item completion next) :
    Owned requests next := by
  obtain ⟨request, located, present⟩ := owned
  obtain ⟨sameIndex, sameId⟩ := Prod.mk.inj (policy_label retried)
  refine ⟨request, sameIndex ▸ located, ?_⟩
  rw [sameId, (policy_attempt retried).2.2]
  exact present

/-- What a run sends is a beginning of what its history asks for. -/
theorem evaluate_sends {requests : List SystemOneRequest}
    (rendered : requests.mapM (fun request => dumpsOrRaise .default request.state.value) =
      .ok states) {start : σ} {result : Except Halt (DecisionRun F)} {after : World σ}
    (ran : engine.evaluate requests start = (result, after)) :
    after.encoded <+: (asks F requests after.history).map (Ask.prompt states) ∧
      ∀ row ∈ after.history, Owned requests row.1 := by
  rcases Run.bind_outcome ran with ⟨reason, failed, rfl⟩ | ⟨value, middle, prepared, ran⟩
  · obtain ⟨history, sent, encoded, begins, _⟩ := prepare_sends rendered _ _ failed
    have none : after.history = [] := history
    have all : after.encoded = sent := encoded
    rw [none, all, asks, List.flatMap_nil, List.append_nil]
    exact ⟨begins, fun _ none => by cases none⟩
  · obtain ⟨history, sent, encoded, _, complete⟩ := prepare_sends rendered _ _ prepared
    cases complete ⟨_, rfl⟩
    obtain ⟨found, progress⟩ := value
    obtain ⟨_, shapes, _, _, starts⟩ := prepare_ok prepared
    have same : found = states := by
      rw [mapM_ok_iff.mpr shapes] at rendered
      exact Except.ok.inj rendered
    subst same
    have queue : ∀ item ∈ progress.pending, Owned requests item ∧ engine.Queued item := by
      intro item member
      obtain ⟨request, _, question, located, _, present, builds⟩ := starts.sound item member
      exact ⟨⟨request, located, builds.sameQuestion ▸ present⟩, Starts.queued starts item member⟩
    have looped : ∃ computed, engine.generateLoop found (engine.attemptBudget requests) progress
        middle = (computed, after) := by
      rcases Run.bind_outcome ran with ⟨reason, failed, _⟩ | ⟨final, last, ended, ran⟩
      · exact ⟨_, failed⟩
      · exact ⟨.ok final, Run.lift_pure_world ran ▸ ended⟩
    obtain ⟨computed, looped⟩ := looped
    obtain ⟨rows, sent', history', encoded', begins', _, held⟩ :=
      generateLoop_repairs (fun _ _ _ => Owned.retried) queue computed after looped
    have all : after.history = rows := by
      rw [history', history]
      rfl
    have whole : after.encoded = (firstAsks requests).map (Ask.prompt found) ++ sent' := by
      rw [encoded', encoded]
      rfl
    rw [all, whole, asks, List.map_append]
    exact ⟨(List.prefix_append_right_inj _).mpr begins', held⟩

end DecisionEngine

/-! ## Noninterference -/

section Transcripts

variable {F : Type} [LogField F] {requests : List SystemOneRequest} {request : SystemOneRequest}
  {index : Nat} {key : Str} {question : Question}

private theorem zip_prefix {α β : Type} {f : α → β} {items : List α} {results : List β}
    (begins : results <+: items.map f) :
    items.zip results = (items.take results.length).map fun item => (item, f item) := by
  induction items generalizing results with
  | nil => simp
  | cons item rest ih =>
      cases results with
      | nil => simp
      | cons result results =>
          obtain ⟨rfl, others⟩ := List.cons_prefix_cons.mp begins
          simp [ih others]

private theorem filter_asks (position : Nat) (entries : List (Str × Question)) :
    (entries.map fun entry => (⟨position, entry.1, entry.2, none⟩ : Ask)).filter
        (fun ask => decide (ask.label = (index, key))) =
      if position = index then
        (entries.filter fun entry => decide (entry.1 = key)).map fun entry =>
          (⟨index, entry.1, entry.2, none⟩ : Ask)
      else [] := by
  rw [List.filter_map]
  by_cases same : position = index
  · subst same
    simp [Function.comp_def, Ask.label]
  · simp [Function.comp_def, Ask.label, same]

/-- A question is asked about once before its repairs. -/
theorem filter_firstAsks (located : requests[index]? = some request)
    (present : (key, question) ∈ request.questions.entries) :
    (firstAsks requests).filter (fun ask => decide (ask.label = (index, key))) =
      [⟨index, key, question, none⟩] := by
  have from_start : ∀ (list : List SystemOneRequest) (start : Nat), start ≤ index →
      list[index - start]? = some request →
      ((list.zipIdx start).flatMap fun entry => entry.1.questions.entries.map fun asked =>
        (⟨entry.2, asked.1, asked.2, none⟩ : Ask)).filter
          (fun ask => decide (ask.label = (index, key))) = [⟨index, key, question, none⟩] := by
    intro list
    induction list with
    | nil =>
        intro start _ found
        cases found
    | cons head rest ih =>
        intro start within found
        rw [List.zipIdx_cons, List.flatMap_cons, List.filter_append, filter_asks]
        rcases Nat.eq_or_lt_of_le within with rfl | before
        · rw [Nat.sub_self] at found
          cases found
          have later : ((rest.zipIdx (start + 1)).flatMap fun entry =>
              entry.1.questions.entries.map fun asked =>
                (⟨entry.2, asked.1, asked.2, none⟩ : Ask)).filter
                  (fun ask => decide (ask.label = (start, key))) = [] := by
            rw [List.filter_eq_nil_iff]
            intro ask member same
            obtain ⟨entry, inside, made⟩ := List.mem_flatMap.mp member
            obtain ⟨asked, _, rfl⟩ := List.mem_map.mp made
            have beyond := List.le_snd_of_mem_zipIdx inside
            have label := (Prod.mk.inj (of_decide_eq_true same)).1
            dsimp only at label
            omega
          rw [if_pos rfl, filter_eq_singleton request.questions.distinct present, later]
          rfl
        · have rest' : rest[index - (start + 1)]? = some request := by
            rw [show index - start = index - (start + 1) + 1 by omega] at found
            exact found
          rw [if_neg (Nat.ne_of_lt before), List.nil_append, ih (start + 1) before rest']
  exact from_start requests 0 (Nat.zero_le _) located

theorem filter_repairAsks {history : List (WorkItem × Completion)}
    (located : requests[index]? = some request)
    (present : (key, question) ∈ request.questions.entries)
    (owned : ∀ row ∈ history, DecisionEngine.Owned requests row.1) :
    (history.flatMap (repairAsks F)).filter (fun ask => decide (ask.label = (index, key))) =
      ((history.filter fun row => decide (row.1.label = (index, key))).flatMap (rowReasons F)).map
        fun reason => ⟨index, key, question, some reason⟩ := by
  induction history with
  | nil => rfl
  | cons row rest ih =>
      obtain ⟨rowOwned, restOwned⟩ := List.forall_mem_cons.mp owned
      rw [List.flatMap_cons, List.filter_append, ih restOwned, List.filter_cons]
      by_cases same : row.1.label = (index, key)
      · obtain ⟨sameIndex, sameKey⟩ := Prod.mk.inj same
        have asked : row.1.question = question := by
          obtain ⟨owner, found, member⟩ := rowOwned
          rw [sameIndex] at found
          cases found.symm.trans located
          rw [sameKey, ← Dict.get?_eq_some_iff] at member
          rw [← Dict.get?_eq_some_iff, member] at present
          exact Option.some.inj present
        have own : (repairAsks F row).filter (fun ask => decide (ask.label = (index, key))) =
            (rowReasons F row).map fun reason => ⟨index, key, question, some reason⟩ := by
          rw [repairAsks, List.filter_eq_self.mpr, sameIndex, sameKey, asked]
          intro ask member
          obtain ⟨reason, _, rfl⟩ := List.mem_map.mp member
          exact decide_eq_true same
        rw [own, if_pos (decide_eq_true same), List.flatMap_cons, List.map_append]
      · have none : (repairAsks F row).filter
            (fun ask => decide (ask.label = (index, key))) = [] := by
          rw [List.filter_eq_nil_iff]
          intro ask member
          obtain ⟨reason, _, rfl⟩ := List.mem_map.mp member
          exact fun labelled => same (of_decide_eq_true labelled)
        rw [none, if_neg (by simpa using same), List.nil_append]

/-- The prompt of a question for a correction. -/
def Asks (state : Content) (question : Question) (correction : Option String)
    (prompt : List Message) : Prop :=
  ∃ stateJson, dumpsOrRaise .default state.value = .ok stateJson ∧
    messages stateJson question (correction.map lit) = .ok prompt

theorem transcript_conforms {σ : Type} {engine : DecisionEngine σ} {start : σ}
    {result : Except Halt (DecisionRun F)} {world : World σ}
    (ran : engine.evaluate requests start = (result, world))
    (located : requests[index]? = some request)
    (present : (key, question) ∈ request.questions.entries) :
    Conforms (Asks request.state question) (transcript F requests world (index, key)).reasons
      (transcript F requests world (index, key)).prompts := by
  obtain ⟨states, rendered⟩ := DecisionEngine.states_rendered requests
  obtain ⟨begins, owned⟩ := DecisionEngine.evaluate_sends rendered ran
  obtain ⟨stateJson, found, spelled⟩ := forall₂_getElem? (mapM_ok_iff.mp rendered) located
  let ask : Option String → Ask := fun correction => ⟨index, key, question, correction⟩
  have own : (asks F requests world.history).filter
      (fun ask => decide (ask.label = (index, key))) =
        (corrections (transcript F requests world (index, key)).reasons).map ask := by
    rw [asks, List.filter_append, filter_firstAsks located present,
      filter_repairAsks located present owned]
    simp [corrections, transcript, ask]
  have prompts : (transcript F requests world (index, key)).prompts <+:
      ((corrections (transcript F requests world (index, key)).reasons).map ask).map
        (Ask.prompt states) := by
    rw [← own]
    have zipped := zip_prefix begins
    simp only [transcript, zipped, List.filter_map, List.map_map, Function.comp_def]
    exact ((List.take_prefix _ _).filter _).map _
  intro attempt prompt sent
  obtain ⟨rest, shape⟩ := prompts
  have known : (((corrections (transcript F requests world (index, key)).reasons).map ask).map
      (Ask.prompt states))[attempt]? = some prompt := by
    rw [← shape, List.getElem?_append_left (List.getElem?_eq_some_iff.mp sent).1, sent]
  rw [List.map_map, List.getElem?_map, Option.map_eq_some_iff] at known
  obtain ⟨correction, correcting, rfl⟩ := known
  refine ⟨correction, correcting, stateJson, spelled, ?_⟩
  rw [messages_promptOf, Function.comp_apply, Ask.prompt_of_state (ask correction) found]

/-- The texts with which a prompt can be corrected. -/
def correctionTexts : List String := "Completion did not finish normally" :: invalidReasons

theorem judge_refused {question : Question} {completion : Completion} {error : PyException}
    (rejected : judge (F := F) question completion = .error error) :
    ∃ message ∈ correctionTexts, error = .invalidOutput message := by
  unfold judge at rejected
  split at rejected
  · obtain ⟨known, member, same⟩ := verify_refuses completion.text question _ rejected
    exact ⟨known, List.mem_cons_of_mem _ member, same⟩
  · cases rejected
    exact ⟨_, List.mem_cons_self, rfl⟩

theorem rowReasons_known {row : WorkItem × Completion} {reason : String}
    (given : reason ∈ rowReasons F row) : reason ∈ correctionTexts := by
  unfold rowReasons at given
  split at given
  · rename_i message rejected
    obtain ⟨known, member, same⟩ := judge_refused rejected
    cases same
    rwa [List.mem_singleton.mp given]
  all_goals cases given

/-- A transcript that a run gives a question about a state. -/
def Transcribes (F : Type) [LogField F] (state : Content) (question : Question)
    (shown : Transcript String (List Message)) : Prop :=
  ∃ (σ : Type) (engine : DecisionEngine σ) (requests : List SystemOneRequest) (start : σ)
    (result : Except Halt (DecisionRun F)) (world : World σ) (index : Nat)
    (request : SystemOneRequest) (key : Str),
    engine.evaluate requests start = (result, world) ∧ requests[index]? = some request ∧
      request.state = state ∧ (key, question) ∈ request.questions.entries ∧
      shown = transcript F requests world (index, key)

theorem prompts_noninterfering (state : Content) (question : Question) :
    Noninterfering (Transcribes F state question) (Asks state question) correctionTexts := by
  refine .of_conforms ?_ ?_ ?_
  · intro correction prompt prompt' given other
    obtain ⟨stateJson, spelled, asked⟩ := given
    obtain ⟨stateJson', spelled', asked'⟩ := other
    cases spelled.symm.trans spelled'
    exact Except.ok.inj (asked.symm.trans asked')
  · intro shown given
    obtain ⟨σ, engine, requests, start, result, world, index, request, key, ran, located, rfl,
      present, rfl⟩ := given
    exact transcript_conforms ran located present
  · intro shown transcribes reason given
    obtain ⟨σ, engine, requests, start, result, world, index, request, key, _, _, _, _, rfl⟩ :=
      transcribes
    obtain ⟨row, _, member⟩ := List.mem_flatMap.mp given
    exact rowReasons_known member

theorem encoded_asked {σ : Type} {engine : DecisionEngine σ} {start : σ}
    {result : Except Halt (DecisionRun F)} {world : World σ}
    (ran : engine.evaluate requests start = (result, world)) :
    world.encoded.length ≤ (asks F requests world.history).length := by
  obtain ⟨states, rendered⟩ := DecisionEngine.states_rendered requests
  have length := (DecisionEngine.evaluate_sends rendered ran).1.length_le
  rwa [List.length_map] at length

end Transcripts

end VllmVerifier.Engine
