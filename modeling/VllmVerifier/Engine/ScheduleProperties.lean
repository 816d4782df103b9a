import VllmVerifier.Engine.BudgetProperties
import VllmVerifier.Worklist.Serving
import VllmVerifier.Worklist.Turns

/-!
The schedule of the engine, also in runs that fail. The loop serves its queue as
a worklist in batches; from this come its limits, and the order in which it
generates first attempts and repairs.
-/

set_option autoImplicit false

namespace VllmVerifier.Engine

open Python Worklist

/-! ## The round robin -/

private theorem length_tails {α : Type} {queues : List (List α)} {bound : Nat}
    (short : ∀ queue ∈ queues, queue.length ≤ bound + 1) :
    ∀ queue ∈ queues.map List.tail, queue.length ≤ bound := by
  intro queue member
  obtain ⟨whole, present, rfl⟩ := List.mem_map.mp member
  have length := short whole present
  rw [List.length_tail]
  omega

private theorem sweeps_eq {α : Type} {fuel count : Nat} {queues : List (List α)}
    (fueled : ∀ queue ∈ queues, queue.length ≤ fuel)
    (counted : ∀ queue ∈ queues, queue.length ≤ count) :
    sweeps fuel queues = turnsBelow queues count := by
  induction fuel generalizing count queues with
  | zero =>
      have empty : ∀ queue ∈ queues, queue = [] :=
        fun queue member => List.length_eq_zero_iff.mp (Nat.le_zero.mp (fueled queue member))
      exact (turnsBelow_empty empty count).symm
  | succ fuel ih =>
      unfold sweeps
      split
      · rename_i finished
        have empty : ∀ queue ∈ queues, queue = [] :=
          fun queue member => List.isEmpty_iff.mp (List.all_eq_true.mp finished queue member)
        exact (turnsBelow_empty empty count).symm
      · rename_i unfinished
        cases count with
        | zero =>
            refine absurd (List.all_eq_true.mpr fun queue member => ?_) unfinished
            exact List.isEmpty_iff.mpr
              (List.length_eq_zero_iff.mp (Nat.le_zero.mp (counted queue member)))
        | succ count =>
            have heads : queues.filterMap List.head? = turn queues 0 := by
              unfold turn
              simp only [List.head?_eq_getElem?]
            rw [turnsBelow_succ, heads, ih (length_tails fueled) (length_tails counted)]

theorem roundRobin_eq_turns {α : Type} (queues : List (List α)) :
    roundRobin queues = turns queues := by
  refine sweeps_eq (fun queue member => ?_) fun queue member => length_le_longest member
  exact List.single_le_sum (fun _ _ => Nat.zero_le _) _ (List.mem_map_of_mem member)

namespace DecisionEngine

variable {σ F : Type} [LogField F] {engine : DecisionEngine σ} {states : List Str}
  {requests : List SystemOneRequest}

/-- The questions of each request, in its order. -/
def questionQueues (requests : List SystemOneRequest) : List (List (Nat × Str)) :=
  requests.zipIdx.map fun entry => entry.1.questions.keys.map fun key => (entry.2, key)

/-- The first questions of all requests, then the second ones of those that have
one, and so on. -/
def firstAttempts (requests : List SystemOneRequest) : List (Nat × Str) :=
  turns (questionQueues requests)

private theorem queues_labels {entries : List ((SystemOneRequest × Str) × Nat)}
    {queues : List (List WorkItem)}
    (built : List.Forall₂ (fun entry queue => List.Forall₂ (fun (question : Str × Question) item =>
      engine.Builds entry.2 question.1 entry.1.2 question.2 0 none item)
        entry.1.1.questions.entries queue) entries queues) :
    queues.map (List.map WorkItem.label) =
      entries.map fun entry => entry.1.1.questions.keys.map fun key => (entry.2, key) := by
  induction built with
  | nil => rfl
  | cons head _ ih => rw [List.map_cons, List.map_cons, ih, queue_labels head]

theorem prepare_order {progress : Progress F} {world after : World σ}
    (success : engine.prepare requests world = (.ok (states, progress), after)) :
    progress.pending.map WorkItem.label = firstAttempts requests := by
  obtain ⟨queues, pending, _, _, _, rendered, _, built⟩ := prepare_queues success
  have first : (requests.zip states).map Prod.fst = requests :=
    List.map_fst_zip (Nat.le_of_eq rendered.length_eq)
  have labels : queues.map (List.map WorkItem.label) = questionQueues requests := by
    rw [queues_labels built, questionQueues]
    conv_rhs => rw [← first, List.zipIdx_map, List.map_map]
    rfl
  rw [pending, roundRobin_eq_turns, ← turns_map, labels, firstAttempts]

/-! ## Batches -/

/-- The batches of the generation loop. -/
def batchCut (engine : DecisionEngine σ) : Cut WorkItem :=
  ⟨takeBatch engine.config 0 0, takeBatch_append engine.config 0 0⟩

/-- A batch that the runtime may be asked for. -/
structure WithinLimits (engine : DecisionEngine σ) (batch : List WorkItem) : Prop where
  nonempty : batch ≠ []
  questions : batch.length ≤ engine.config.maxBatchQuestions
  tokens : (batch.map WorkItem.reservedTokens).sum ≤ engine.config.maxBatchTokens
  lengths : ∀ item ∈ batch, item.reservedTokens ≤ engine.config.maxModelLen

private theorem takeBatch_limits {count reserved : Nat} (pending : List WorkItem)
    (counted : count ≤ engine.config.maxBatchQuestions)
    (room : reserved ≤ engine.config.maxBatchTokens) :
    count + (takeBatch engine.config count reserved pending).1.length ≤
        engine.config.maxBatchQuestions ∧
      reserved + ((takeBatch engine.config count reserved pending).1.map
        WorkItem.reservedTokens).sum ≤ engine.config.maxBatchTokens := by
  induction pending generalizing count reserved with
  | nil => exact ⟨counted, room⟩
  | cons job rest ih =>
      unfold takeBatch
      split
      · rename_i fits
        have limits := @ih (count + 1) (reserved + job.reservedTokens) fits.1 fits.2
        simp only [List.length_cons, List.map_cons, List.sum_cons]
        omega
      · exact ⟨counted, room⟩

theorem batch_within {pending : List WorkItem} (nonempty : pending ≠ [])
    (queue : ∀ item ∈ pending, engine.Queued item) :
    engine.WithinLimits (engine.batchCut.batch pending) := by
  obtain ⟨job, others, shape⟩ := List.exists_cons_of_ne_nil nonempty
  obtain ⟨questions, tokens⟩ := @takeBatch_limits σ engine 0 0 pending (Nat.zero_le _)
    (Nat.zero_le _)
  rw [Nat.zero_add] at questions tokens
  constructor
  · subst shape
    exact takeBatch_ne_nil others (queue job List.mem_cons_self)
  · exact questions
  · exact tokens
  · intro item member
    have present : item ∈ pending := by
      rw [← engine.batchCut.whole pending]
      exact List.mem_append_left _ member
    exact (queue item present).fits.1

/-! ## Runs -/

theorem settle_keeps {progress : Progress F} {row : WorkItem × Completion} {world : World σ} :
    Run.Keeps World.generated (engine.settle states progress row) world := by
  unfold settle
  refine .bind (.lift _) fun used after => ?_
  dsimp only
  split
  · split
    · exact .raise _
    · exact .bind (.lift _) fun state last => .bind job_keeps fun repair last => .pure _
  · exact .raise _
  · exact .bind (.lift _) fun answers last => .pure _

theorem settleAll_keeps {rows : List (WorkItem × Completion)} {progress : Progress F}
    {world : World σ} :
    Run.Keeps World.generated (engine.settleAll states rows progress) world := by
  induction rows generalizing progress world with
  | nil => exact .pure _
  | cons row rest ih => exact .bind settle_keeps fun next after => ih

theorem round_generates {progress : Progress F} {world after : World σ}
    {result : Except Halt (Progress F)}
    (ran : engine.round states progress world = (result, after)) :
    ∃ rows, after.batches = world.batches ++ [engine.batchCut.batch progress.pending] ∧
      after.history = world.history ++ rows ∧
        rows.map Prod.fst <+: engine.batchCut.batch progress.pending := by
  rcases Run.bind_outcome ran with ⟨reason, failed, _⟩ | ⟨completions, middle, returned, ran⟩
  · obtain ⟨outcome, _, same, calls⟩ := generate_outcome failed
    cases outcome with
    | ok completions => cases same
    | error error =>
        refine ⟨[], ?_, ?_, List.nil_prefix⟩
        · simp [World.batches, calls, batchCut, Cut.batch]
        · simp [World.history, calls, RuntimeCall.rows]
  · obtain ⟨outcome, _, same, calls⟩ := generate_outcome returned
    cases outcome with
    | error error => cases same
    | ok found =>
        cases same
        have kept : after.generated = middle.generated := by
          split at ran
          · exact settleAll_keeps _ _ ran
          · exact Run.Keeps.raise _ _ _ ran
        obtain ⟨batches, history⟩ := Prod.mk.inj kept
        refine ⟨(engine.batchCut.batch progress.pending).zip completions, ?_, ?_, ?_⟩
        · rw [batches]
          simp [World.batches, calls, batchCut, Cut.batch]
        · rw [history]
          simp [World.history, calls, RuntimeCall.rows, batchCut, Cut.batch]
        · rw [List.zip_eq_zip_take_min, List.map_fst_zip (by simp)]
          exact List.take_prefix _ _

/-- However the loop ends, it has served its queue in batches; when it returns,
nothing is left. -/
theorem generateLoop_serves {fuel : Nat} {progress : Progress F} {world after : World σ}
    {result : Except Halt (Progress F)}
    (ran : engine.generateLoop states fuel progress world = (result, after)) :
    ∃ batches rows left, after.batches = world.batches ++ batches ∧
      after.history = world.history ++ rows ∧
        Serves (policy F engine states fun _ _ => True) engine.batchCut progress.pending batches
          rows left ∧
        ∀ final, result = .ok final → left = [] := by
  induction fuel generalizing progress world with
  | zero =>
      unfold generateLoop at ran
      split at ran
      · rename_i finished
        cases ran
        exact ⟨[], [], progress.pending, by simp, by simp, .ended,
          fun _ _ => List.isEmpty_iff.mp finished⟩
      · cases ran
        refine ⟨[], [], progress.pending, by simp, by simp, .ended, fun final success => ?_⟩
        cases success
  | succ fuel ih =>
      unfold generateLoop at ran
      split at ran
      · rename_i finished
        cases ran
        exact ⟨[], [], progress.pending, by simp, by simp, .ended,
          fun _ _ => List.isEmpty_iff.mp finished⟩
      · rename_i unfinished
        have nonempty : progress.pending ≠ [] := fun none => unfinished (List.isEmpty_iff.mpr none)
        rcases Run.bind_outcome ran with ⟨reason, failed, rfl⟩ | ⟨next, middle, returned, ran⟩
        · obtain ⟨rows, batches, history, answered⟩ := round_generates failed
          refine ⟨_, rows, progress.pending, batches, history, .stopped nonempty answered, ?_⟩
          intro final success
          cases success
        · obtain ⟨_, batches, _, _⟩ := round_generates returned
          obtain ⟨rows, history, settled, _, _, advances⟩ := round_ok produces_any returned
          obtain ⟨later, laterRows, left, laterBatches, laterHistory, serves, drained⟩ := ih ran
          refine ⟨engine.batchCut.batch progress.pending :: later, rows ++ laterRows, left, ?_, ?_,
            .round nonempty settled advances serves, drained⟩
          · rw [laterBatches, batches, List.append_assoc, List.singleton_append]
          · rw [laterHistory, history, List.append_assoc]

/-- What a run has generated, however it ends. -/
inductive Generated (F : Type) [LogField F] (engine : DecisionEngine σ)
    (requests : List SystemOneRequest) (result : Except Halt (DecisionRun F))
    (world : World σ) : Prop where
  | nothing : world.batches = [] → world.history = [] → (∀ run, result ≠ .ok run) →
      Generated F engine requests result world
  | served {states : List Str} {initial left : List WorkItem} :
      Starts engine requests states initial →
      initial.map WorkItem.label = firstAttempts requests →
      Serves (policy F engine states fun _ _ => True) engine.batchCut initial world.batches
        world.history left →
      (∀ run, result = .ok run → left = []) → Generated F engine requests result world

theorem evaluate_generates {start : σ} {result : Except Halt (DecisionRun F)} {world : World σ}
    (ran : engine.evaluate requests start = (result, world)) :
    Generated F engine requests result world := by
  rcases Run.bind_outcome ran with ⟨reason, failed, rfl⟩ | ⟨⟨states, initial⟩, middle, ready, ran⟩
  · obtain ⟨batches, history⟩ := Prod.mk.inj (prepare_keeps _ _ failed)
    refine .nothing batches history fun run success => ?_
    cases success
  · obtain ⟨batches, history⟩ := Prod.mk.inj (prepare_keeps _ _ ready)
    obtain ⟨_, _, _, _, starts⟩ := prepare_ok ready
    have order := prepare_order ready
    have empty : middle.batches = [] ∧ middle.history = [] := ⟨batches, history⟩
    rcases Run.bind_outcome ran with ⟨reason, failed, rfl⟩ | ⟨final, last, looped, ran⟩
    · obtain ⟨served, rows, left, servedBatches, servedHistory, serves, _⟩ :=
        generateLoop_serves failed
      rw [empty.1, List.nil_append] at servedBatches
      rw [empty.2, List.nil_append] at servedHistory
      subst servedBatches servedHistory
      refine .served starts order serves fun run success => ?_
      cases success
    · obtain ⟨served, rows, left, servedBatches, servedHistory, serves, drained⟩ :=
        generateLoop_serves looped
      have kept : Run.Keeps World.generated (do
          let responses ← Run.lift (requests.zipIdx.mapM (engine.response final))
          pure (⟨responses, final.stats⟩ : DecisionRun F)) last :=
        .bind (.lift _) fun responses ended => .pure _
      obtain ⟨sameBatches, sameHistory⟩ := Prod.mk.inj (kept result world ran)
      rw [empty.1, List.nil_append, ← sameBatches] at servedBatches
      rw [empty.2, List.nil_append, ← sameHistory] at servedHistory
      subst servedBatches servedHistory
      exact .served starts order serves fun run _ => drained final rfl

/-! ## Limits -/

theorem Starts.initial {initial : List WorkItem}
    (starts : Starts engine requests states initial) :
    ∀ item ∈ initial, True ∧ engine.Queued item :=
  fun item member => ⟨trivial, Starts.queued starts item member⟩

theorem generated_within {result : Except Halt (DecisionRun F)} {world : World σ}
    (generated : Generated F engine requests result world) {batch : List WorkItem}
    (member : batch ∈ world.batches) : engine.WithinLimits batch := by
  cases generated with
  | nothing none _ _ =>
      rw [none] at member
      cases member
  | @served states initial left starts _ serves _ =>
      obtain ⟨before, after, located⟩ := List.append_of_mem member
      obtain ⟨rows, queue, advances, _, _, nonempty, rfl⟩ := serves.batch located
      obtain ⟨queued, _⟩ :=
        advances_queue (fun _ _ _ _ _ => trivial) advances (Starts.initial starts)
      exact batch_within nonempty fun item present => (queued item present).2

theorem generated_length {result : Except Halt (DecisionRun F)} {world : World σ}
    (generated : Generated F engine requests result world) :
    world.batches.flatten.length ≤ engine.attemptBudget requests := by
  cases generated with
  | nothing none _ _ =>
      rw [none]
      exact Nat.zero_le _
  | @served states initial left starts _ serves _ =>
      obtain ⟨settled, taken, _, advances, jobs, queued, _, _⟩ := serves.split
      obtain ⟨kept, bound⟩ :=
        advances_queue (fun _ _ _ _ _ => trivial) advances (Starts.initial starts)
      have waiting : left.length ≤ engine.work left := by
        rw [work, ← List.length_map engine.remaining]
        refine List.length_le_sum_of_one_le _ fun count member => ?_
        obtain ⟨item, present, rfl⟩ := List.mem_map.mp member
        have attempts := (kept item present).2.attempts
        unfold remaining
        omega
      have last := queued.length_le
      have enough := Starts.enough starts
      rw [jobs, List.length_append, List.length_map]
      omega

/-- Whatever the runtime does, the loop ends, every batch it asks for is not
empty and within the limits, and no question is generated more often than its
retries allow. -/
theorem evaluate_within_limits (engine : DecisionEngine σ) (requests : List SystemOneRequest)
    (start : σ) :
    (engine.evaluate (F := F) requests start).1 ≠ .error .outOfFuel ∧
      (∀ jobs result,
        RuntimeCall.generate jobs result ∈ (engine.evaluate (F := F) requests start).2.calls →
          engine.WithinLimits jobs) ∧
      (engine.evaluate (F := F) requests start).2.batches.flatten.length ≤
        (requests.map fun request => request.questions.entries.length).sum *
          (engine.config.validationRetries + 1) := by
  have generated : Generated F engine requests (engine.evaluate (F := F) requests start).1
      (engine.evaluate (F := F) requests start).2 := evaluate_generates rfl
  refine ⟨evaluate_ends engine requests start, fun jobs result call => ?_,
    generated_length generated⟩
  exact generated_within generated (List.mem_filterMap.mpr ⟨_, call, rfl⟩)

/-! ## Order -/

/-- The jobs generated with this attempt number, in the order of generation. -/
def attempted (world : World σ) (attempt : Nat) : List WorkItem :=
  world.batches.flatten.filter fun item => item.attempt = attempt

def refused (F : Type) [LogField F] (attempt : Nat) (row : WorkItem × Completion) : Bool :=
  decide (row.1.attempt = attempt) && !(judge (F := F) row.1.question row.2).toBool

/-- The generated jobs of this attempt number whose completion was not accepted. -/
def failures (F : Type) [LogField F] (world : World σ) (attempt : Nat) :
    List (WorkItem × Completion) :=
  world.history.filter (refused F attempt)

/-- The next attempt at the question of a row. -/
structure Follows (row : WorkItem × Completion) (next : WorkItem) : Prop where
  label : next.label = row.1.label
  question : next.question = row.1.question
  attempt : next.attempt = row.1.attempt + 1

/-- What is queued after the first rows of a run. -/
def Waiting (F : Type) [LogField F] (engine : DecisionEngine σ)
    (requests : List SystemOneRequest) (rows : List (WorkItem × Completion))
    (queue : List WorkItem) : Prop :=
  ∃ states initial, Starts engine requests states initial ∧
    initial.map WorkItem.label = firstAttempts requests ∧
      Advances (policy F engine states fun _ _ => True) initial rows queue

section Served

variable {initial left : List WorkItem} {rows : List (WorkItem × Completion)} {world : World σ}

end Served

end DecisionEngine

end VllmVerifier.Engine
