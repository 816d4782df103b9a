import VllmVerifier.Engine.EvaluateProperties

/-!
How a run of the engine can end. Each round takes at least one job and uses up
one of its attempts, so the fuel of the loop always suffices; and where the
runtime answers every call and every job has an acceptable attempt left, only a
token budget can stop a run.
-/

set_option autoImplicit false

namespace VllmVerifier.Engine

open Python Worklist

/-! ## Endings -/

/-- The run stops without a result only with a reason and in a world that are
related. -/
def Run.Stops {σ α : Type} (stopped : Halt → World σ → Prop) (run : Run σ α)
    (world : World σ) : Prop :=
  ∀ reason after, run world = (.error reason, after) → stopped reason after

/-- Every way in which the run stops without a result is allowed. -/
def Run.Ends {σ α : Type} (allowed : Halt → Prop) (run : Run σ α) (world : World σ) : Prop :=
  ∀ reason after, run world = (.error reason, after) → allowed reason

namespace Run.Stops

variable {σ α β : Type} {stopped : Halt → World σ → Prop} {world : World σ}

theorem pure (value : α) : Stops stopped (Pure.pure value : Run σ α) world := by
  intro reason after failure
  cases failure

theorem raise {error : PyException} (permitted : stopped (.raised error) world) :
    Stops stopped (Run.raise error : Run σ α) world := by
  intro reason after failure
  cases failure
  exact permitted

theorem lift {computation : Except PyException α}
    (permitted : ∀ error, computation = .error error → stopped (.raised error) world) :
    Stops stopped (Run.lift computation) world := by
  intro reason after failure
  cases computation with
  | ok value => cases failure
  | error error =>
      cases failure
      exact permitted error rfl

theorem bind {first : Run σ α} {second : α → Run σ β} (start : Stops stopped first world)
    (rest : ∀ value after, first world = (.ok value, after) → Stops stopped (second value) after) :
    Stops stopped (first >>= second) world := by
  intro reason after failure
  rcases bind_outcome failure with ⟨found, failed, same⟩ | ⟨value, middle, ran, failed⟩
  · cases same
    exact start _ after failed
  · exact rest value middle ran reason after failed

end Run.Stops

namespace Run.Ends

variable {σ α β : Type} {allowed : Halt → Prop} {world : World σ}

theorem pure (value : α) : Ends allowed (Pure.pure value : Run σ α) world :=
  Stops.pure value

theorem raise {error : PyException} (permitted : allowed (.raised error)) :
    Ends allowed (Run.raise error : Run σ α) world :=
  Stops.raise permitted

theorem lift {computation : Except PyException α}
    (permitted : ∀ error, computation = .error error → allowed (.raised error)) :
    Ends allowed (Run.lift computation) world :=
  Stops.lift permitted

theorem bind {first : Run σ α} {second : α → Run σ β} (start : Ends allowed first world)
    (rest : ∀ value after, first world = (.ok value, after) → Ends allowed (second value) after) :
    Ends allowed (first >>= second) world :=
  Stops.bind start rest

theorem mapM {f : α → Run σ β} {items : List α}
    (each : ∀ item ∈ items, ∀ before, Ends allowed (f item) before) :
    Ends allowed (items.mapM f) world := by
  induction items generalizing world with
  | nil =>
      rw [List.mapM_nil]
      exact pure _
  | cons item rest ih =>
      rw [List.mapM_cons]
      refine bind (each item List.mem_cons_self world) fun head after _ => ?_
      refine bind (ih fun found member => each found (List.mem_cons_of_mem _ member)) ?_
      intro tail afterTail _
      exact pure _

end Run.Ends

/-! ## Fuel -/

namespace DecisionEngine

variable {σ F : Type} [LogField F] {engine : DecisionEngine σ} {states : List Str}

/-- The attempts a queued job still has. -/
def remaining (engine : DecisionEngine σ) (item : WorkItem) : Nat :=
  engine.config.validationRetries + 1 - item.attempt

def work (engine : DecisionEngine σ) (pending : List WorkItem) : Nat :=
  (pending.map engine.remaining).sum

/-- What holds of every job in the queue. -/
structure Queued (engine : DecisionEngine σ) (item : WorkItem) : Prop where
  attempts : item.attempt ≤ engine.config.validationRetries
  fits : engine.Fits item

theorem Queued.of_retry {produced : WorkItem → Completion → Prop} {item next : WorkItem}
    {completion : Completion}
    (retried : (policy F engine states produced).retries item completion next) :
    engine.Queued next := by
  obtain ⟨_, _, _, _, below, _, builds⟩ := retried
  exact ⟨builds.numbered ▸ below, builds.fits⟩

/-- An advanced queue keeps a property that retries preserve, and each row has
used up an attempt. -/
theorem advances_queue {produced : WorkItem → Completion → Prop} {holds : WorkItem → Prop}
    (preserved : ∀ item completion next, holds item →
      (policy F engine states produced).retries item completion next → holds next)
    {pending left : List WorkItem} {rows : List (WorkItem × Completion)}
    (advances : Advances (policy F engine states produced) pending rows left)
    (queue : ∀ item ∈ pending, holds item ∧ engine.Queued item) :
    (∀ item ∈ left, holds item ∧ engine.Queued item) ∧
      rows.length + engine.work left ≤ engine.work pending := by
  have kept : ∀ item completion next, holds item ∧ engine.Queued item →
      (policy F engine states produced).retries item completion next →
        holds next ∧ engine.Queued next :=
    fun item completion next known retried =>
      ⟨preserved item completion next known.1 retried, .of_retry retried⟩
  constructor
  · intro item member
    exact advances.invariant kept queue item (List.mem_append_right _ member)
  · refine advances.bounded kept ?_ ?_ queue
    · intro item known
      have attempts := known.2.attempts
      unfold remaining
      omega
    · intro item completion next retried
      obtain ⟨numbered, below, _⟩ := policy_attempt retried
      unfold remaining
      omega

theorem takeBatch_ne_nil {job : WorkItem} (rest : List WorkItem) (queued : engine.Queued job) :
    (takeBatch engine.config 0 0 (job :: rest)).1 ≠ [] := by
  have first : 0 < engine.config.maxBatchQuestions ∧
      0 + job.reservedTokens ≤ engine.config.maxBatchTokens :=
    ⟨engine.config.batchQuestionsRange.1, by simpa using queued.fits.2⟩
  unfold takeBatch
  rw [if_pos first]
  exact List.cons_ne_nil _ _

theorem round_queue {produced : WorkItem → Completion → Prop} {holds : WorkItem → Prop}
    (preserved : ∀ item completion next, holds item →
      (policy F engine states produced).retries item completion next → holds next)
    {progress next : Progress F} {world after : World σ} (known : engine.Produces produced)
    (success : engine.round states progress world = (.ok next, after))
    (nonempty : progress.pending ≠ [])
    (queue : ∀ item ∈ progress.pending, holds item ∧ engine.Queued item) :
    (∀ item ∈ next.pending, holds item ∧ engine.Queued item) ∧
      engine.work next.pending < engine.work progress.pending := by
  obtain ⟨job, others, shape⟩ := List.exists_cons_of_ne_nil nonempty
  have taken := takeBatch_ne_nil others (queue job (shape ▸ List.mem_cons_self)).2
  obtain ⟨rows, _, jobs, _, _, advances⟩ := round_ok known success
  obtain ⟨kept, bound⟩ := advances_queue preserved advances queue
  rw [← shape, ← jobs] at taken
  have positive := List.length_pos_iff.mpr taken
  rw [List.length_map] at positive
  exact ⟨kept, by omega⟩

/-- The loop stops only as its rounds stop: the fuel covers the work. -/
theorem generateLoop_stops {stopped : Halt → World σ → Prop}
    {invariant : Progress F → World σ → Prop}
    (queue : ∀ progress world, invariant progress world →
      ∀ item ∈ progress.pending, engine.Queued item)
    (round : ∀ progress world, invariant progress world → progress.pending ≠ [] →
      Run.Stops stopped (engine.round states progress) world ∧
        ∀ next after, engine.round states progress world = (.ok next, after) →
          invariant next after ∧ engine.work next.pending < engine.work progress.pending)
    {fuel : Nat} {progress : Progress F} {world : World σ} (start : invariant progress world)
    (enough : engine.work progress.pending ≤ fuel) :
    Run.Stops stopped (engine.generateLoop states fuel progress) world := by
  induction fuel generalizing progress world with
  | zero =>
      unfold generateLoop
      split
      · exact .pure _
      · rename_i unfinished
        have nonempty : progress.pending ≠ [] := fun none => unfinished (List.isEmpty_iff.mpr none)
        obtain ⟨job, rest, shape⟩ := List.exists_cons_of_ne_nil nonempty
        have attempts := (queue progress world start job (shape ▸ List.mem_cons_self)).attempts
        rw [shape, work, List.map_cons, List.sum_cons, remaining] at enough
        omega
  | succ fuel ih =>
      unfold generateLoop
      split
      · exact .pure _
      · rename_i unfinished
        have nonempty : progress.pending ≠ [] := fun none => unfinished (List.isEmpty_iff.mpr none)
        obtain ⟨stops, advances⟩ := round progress world start nonempty
        refine .bind stops fun next after ran => ?_
        obtain ⟨kept, smaller⟩ := advances next after ran
        exact ih kept (by omega)

theorem generateLoop_ends {allowed : Halt → Prop} {invariant : Progress F → Prop}
    (queue : ∀ progress, invariant progress → ∀ item ∈ progress.pending, engine.Queued item)
    (round : ∀ progress world, invariant progress → progress.pending ≠ [] →
      Run.Ends allowed (engine.round states progress) world ∧
        ∀ next after, engine.round states progress world = (.ok next, after) →
          invariant next ∧ engine.work next.pending < engine.work progress.pending)
    {fuel : Nat} {progress : Progress F} {world : World σ} (start : invariant progress)
    (enough : engine.work progress.pending ≤ fuel) :
    Run.Ends allowed (engine.generateLoop states fuel progress) world :=
  generateLoop_stops (fun progress _ => queue progress) round start enough

/-! ## Calls -/

theorem encode_stops {stopped : Halt → World σ → Prop} {prompt : List Message}
    {world : World σ}
    (permitted : ∀ error after, (engine.runtime.encode prompt world.state).1 = .error error →
      after.calls = world.calls ++ [.encode prompt (.error error)] →
        stopped (.raised error) after) : Run.Stops stopped (engine.encode prompt) world := by
  intro reason after failure
  unfold encode at failure
  cases outcome : engine.runtime.encode prompt world.state with
  | mk result state =>
      rw [outcome] at failure permitted
      cases result with
      | ok tokens => cases failure
      | error error =>
          cases failure
          exact permitted error _ rfl rfl

theorem generate_stops {stopped : Halt → World σ → Prop} {batch : List WorkItem}
    {world : World σ}
    (permitted : ∀ error after, (engine.runtime.generate batch world.state).1 = .error error →
      after.calls = world.calls ++ [.generate batch (.error error)] →
        stopped (.raised error) after) : Run.Stops stopped (engine.generate batch) world := by
  intro reason after failure
  unfold generate at failure
  cases outcome : engine.runtime.generate batch world.state with
  | mk result state =>
      rw [outcome] at failure permitted
      cases result with
      | ok completions => cases failure
      | error error =>
          cases failure
          exact permitted error _ rfl rfl

theorem generate_ends {allowed : Halt → Prop} {batch : List WorkItem} {world : World σ}
    (permitted : ∀ error, (engine.runtime.generate batch world.state).1 = .error error →
      allowed (.raised error)) : Run.Ends allowed (engine.generate batch) world :=
  generate_stops fun error _ failed _ => permitted error failed

/-- The two errors of `_job`. -/
inductive BudgetError : Halt → Prop where
  | modelLen :
      BudgetError (.raised (.valueError "Decision prompt plus output budget exceeds max_model_len"))
  | batchTokens : BudgetError (.raised (.valueError "A decision exceeds the batch token budget"))

theorem job_stops {stopped : Halt → World σ → Prop} {index attempt : Nat} {key state : Str}
    {question : Question} {correction : Option String} {world : World σ}
    (encoding : ∀ prompt error after,
      (engine.runtime.encode prompt world.state).1 = .error error →
        after.calls = world.calls ++ [.encode prompt (.error error)] →
          stopped (.raised error) after)
    (budget : ∀ item reason after, Drafts engine index key state question attempt correction item →
      ¬ engine.Fits item → BudgetError reason → stopped reason after) :
    Run.Stops stopped (engine.job index key state question attempt correction) world := by
  obtain ⟨prompt, rendered⟩ := messages_ok state question (correction.map lit)
  unfold job
  rw [rendered]
  refine .bind (.lift fun error failure => by cases failure) fun found after started => ?_
  obtain ⟨same, rfl⟩ := Run.lift_ok started
  cases same
  refine .bind (encode_stops fun error after failed => encoding _ error after failed)
    fun tokens afterTokens ran => ?_
  obtain ⟨returned, _⟩ := encode_ok ran
  have drafts : Drafts engine index key state question attempt correction
      ⟨index, key, question, tokens, engine.config.outputTokens, attempt⟩ :=
    ⟨rfl, rfl, rfl, rfl, rfl, prompt, _, rendered, returned⟩
  dsimp only
  split
  · rename_i exceeded
    exact .raise
      (budget _ _ _ drafts (fun fits => absurd fits.1 (Nat.not_le_of_lt exceeded)) .modelLen)
  · split
    · rename_i exceeded
      exact .raise
        (budget _ _ _ drafts (fun fits => absurd fits.2 (Nat.not_le_of_lt exceeded)) .batchTokens)
    · exact .pure _

theorem job_ends {allowed : Halt → Prop} {index attempt : Nat} {key state : Str}
    {question : Question} {correction : Option String} {world : World σ}
    (encoding : ∀ prompt before error, (engine.runtime.encode prompt before).1 = .error error →
      allowed (.raised error))
    (budget : ∀ item reason, Drafts engine index key state question attempt correction item →
      ¬ engine.Fits item → BudgetError reason → allowed reason) :
    Run.Ends allowed (engine.job index key state question attempt correction) world :=
  job_stops (fun prompt error _ failed _ => encoding prompt _ error failed)
    (fun item reason _ => budget item reason)

theorem at?_stops {α : Type} {stopped : Halt → World σ → Prop} {items : List α} {index : Nat}
    {world : World σ} (inside : index < items.length) :
    Run.Stops stopped (Run.lift (at? items index)) world := by
  refine .lift fun error failure => ?_
  rw [at?, List.getElem?_eq_getElem inside] at failure
  cases failure

theorem at?_ends {α : Type} {allowed : Halt → Prop} {items : List α} {index : Nat}
    {world : World σ} (inside : index < items.length) :
    Run.Ends allowed (Run.lift (at? items index)) world :=
  at?_stops inside

/-! ## Every run ends -/

private theorem work_le {pending : List WorkItem} :
    engine.work pending ≤ pending.length * (engine.config.validationRetries + 1) := by
  induction pending with
  | nil => simp [work]
  | cons item rest ih =>
      simp only [work, List.map_cons, List.sum_cons, List.length_cons, remaining,
        Nat.add_mul, one_mul] at *
      omega

/-- The attempts that the prepared queue can use are the fuel of the loop. -/
theorem Starts.enough {requests : List SystemOneRequest} {pending : List WorkItem}
    (starts : Starts engine requests states pending) :
    engine.work pending ≤ engine.attemptBudget requests := by
  rw [attemptBudget, ← starts.jobCount]
  exact work_le

theorem Starts.queued {requests : List SystemOneRequest} {pending : List WorkItem}
    (starts : Starts engine requests states pending) :
    ∀ item ∈ pending, engine.Queued item := by
  intro item member
  obtain ⟨_, _, _, _, _, _, builds⟩ := starts.sound item member
  exact ⟨builds.numbered ▸ Nat.zero_le _, builds.fits⟩

private theorem raised_ne_outOfFuel (error : PyException) : Halt.raised error ≠ .outOfFuel := by
  intro same
  cases same

private theorem budgetError_ne_outOfFuel {reason : Halt} (budget : BudgetError reason) :
    reason ≠ .outOfFuel := by
  cases budget <;> exact raised_ne_outOfFuel _

private theorem job_fueled {index attempt : Nat} {key state : Str} {question : Question}
    {correction : Option String} {world : World σ} :
    Run.Ends (· ≠ .outOfFuel) (engine.job index key state question attempt correction) world :=
  job_ends (fun _ _ error _ => raised_ne_outOfFuel error)
    (fun _ _ _ _ budget => budgetError_ne_outOfFuel budget)

private theorem lift_fueled {α : Type} {computation : Except PyException α} {world : World σ} :
    Run.Ends (· ≠ .outOfFuel) (Run.lift computation) world :=
  .lift fun error _ => raised_ne_outOfFuel error

private theorem settle_fueled {progress : Progress F} {row : WorkItem × Completion}
    {world : World σ} : Run.Ends (· ≠ .outOfFuel) (engine.settle states progress row) world := by
  unfold settle
  refine .bind lift_fueled fun used after _ => ?_
  dsimp only
  split
  · split
    · exact .raise (raised_ne_outOfFuel _)
    · refine .bind lift_fueled fun state after _ => .bind job_fueled fun repair after _ => .pure _
  · exact .raise (raised_ne_outOfFuel _)
  · exact .bind lift_fueled fun answers after _ => .pure _

private theorem settleAll_fueled {rows : List (WorkItem × Completion)} {progress : Progress F}
    {world : World σ} :
    Run.Ends (· ≠ .outOfFuel) (engine.settleAll states rows progress) world := by
  induction rows generalizing progress world with
  | nil => exact .pure _
  | cons row rest ih => exact .bind settle_fueled fun next after _ => ih

private theorem round_fueled {progress : Progress F} {world : World σ} :
    Run.Ends (· ≠ .outOfFuel) (engine.round states progress) world := by
  unfold round
  refine .bind (generate_ends fun error _ => raised_ne_outOfFuel error) fun completions after _ => ?_
  split
  · exact settleAll_fueled
  · exact .raise (raised_ne_outOfFuel _)

/-- Whatever the runtime does, a run of the engine ends by itself: the fuel of
its loop is never what stops it. -/
theorem evaluate_ends (engine : DecisionEngine σ) (requests : List SystemOneRequest) (state : σ) :
    (engine.evaluate (F := F) requests state).1 ≠ .error .outOfFuel := by
  have ends : Run.Ends (· ≠ .outOfFuel) (engine.evaluateRun (F := F) requests) ⟨state, []⟩ := by
    refine .bind ?_ fun prepared after ready => ?_
    · unfold prepare
      split
      · exact .raise (raised_ne_outOfFuel _)
      split
      · exact .raise (raised_ne_outOfFuel _)
      refine .bind lift_fueled fun rendered after _ => .bind (.mapM ?_) fun queues after _ => .pure _
      exact fun entry _ before => .mapM fun question _ middle => job_fueled
    · obtain ⟨states, initial⟩ := prepared
      obtain ⟨_, _, _, _, starts⟩ := prepare_ok ready
      refine .bind ?_ fun final after _ => .bind lift_fueled fun responses after _ => .pure _
      have known : engine.Produces fun _ _ => True := fun _ _ _ _ _ _ _ => trivial
      refine generateLoop_ends
        (fun progress (queue : ∀ item ∈ progress.pending, True ∧ engine.Queued item) item member =>
          (queue item member).2)
        (fun progress world queue nonempty => ⟨round_fueled, fun next after ran =>
          round_queue (fun _ _ _ _ _ => trivial) known ran nonempty queue⟩)
        (fun item member => ⟨trivial, Starts.queued starts item member⟩) (Starts.enough starts)
  intro stopped
  cases outcome : engine.evaluate (F := F) requests state with
  | mk result after =>
      rw [outcome] at stopped
      cases stopped
      exact ends _ _ outcome rfl

/-! ## Runs that only a budget can stop -/

/-- A runtime that answers every call, with the completion of each job given by
the job. -/
structure Answers (engine : DecisionEngine σ) (oracle : WorkItem → Completion) : Prop where
  encodes : ∀ prompt before, ∃ tokens, (engine.runtime.encode prompt before).1 = .ok tokens
  generates : ∀ jobs before, (engine.runtime.generate jobs before).1 = .ok (jobs.map oracle)

/-- What the loop raises for a job without a retry left. -/
def exhaustion : Halt := .raised (.invalidOutput "Decision exhausted validation retries")

/-- A job whose reading is accepted, or is retried into such a job again, unless
what stops it is allowed. -/
def Sustained (F : Type) [LogField F] (engine : DecisionEngine σ) (states : List Str)
    (oracle : WorkItem → Completion) (allowed : Halt → Prop) (good : WorkItem → Prop) : Prop :=
  ∀ item, good item →
    (∃ answer : Answer F, judge item.question (oracle item) = .ok answer) ∨
      ∃ message, judge (F := F) item.question (oracle item) = .error (.invalidOutput message) ∧
        (engine.config.validationRetries ≤ item.attempt → allowed exhaustion) ∧
          (item.attempt < engine.config.validationRetries →
            ∀ state next, states[item.requestIndex]? = some state →
              Drafts engine item.requestIndex item.questionId state item.question
                (item.attempt + 1) (some message) next →
              good next ∧ (¬ engine.Fits next → ∀ reason, BudgetError reason → allowed reason))

private theorem zip_oracle {oracle : WorkItem → Completion} {batch : List WorkItem}
    {row : WorkItem × Completion} (member : row ∈ batch.zip (batch.map oracle)) :
    row.2 = oracle row.1 := by
  obtain ⟨position, located⟩ := List.getElem?_of_mem member
  obtain ⟨job, completion⟩ := List.getElem?_zip_eq_some.mp located
  rw [List.getElem?_map, job] at completion
  exact (Option.some.inj completion).symm

theorem Answers.produces {oracle : WorkItem → Completion} (answers : engine.Answers oracle) :
    engine.Produces fun item completion => completion = oracle item := by
  intro batch state completions returned _ row member
  rw [answers.generates] at returned
  cases returned
  exact zip_oracle member

/-- The lists of the loop cover every request. -/
structure Covers (states : List Str) (count : Nat) (progress : Progress F) : Prop where
  states : states.length = count
  answers : progress.answers.length = count
  usage : progress.usage.length = count

section Sustained

variable {oracle : WorkItem → Completion} {allowed : Halt → Prop} {good : WorkItem → Prop}
  {count : Nat}

theorem settle_covers {progress next : Progress F} {row : WorkItem × Completion}
    {world after : World σ} (covers : Covers states count progress)
    (success : engine.settle states progress row world = (.ok next, after)) :
    Covers states count next := by
  obtain ⟨_, usage, answers, _⟩ :=
    @settle_ok σ F _ engine states (fun _ _ => True) progress next row world after trivial success
  refine ⟨covers.states, ?_, ?_⟩
  · rw [answers, record_length, covers.answers]
  · rw [usage, charge, List.length_modify, covers.usage]

theorem settleAll_covers {rows : List (WorkItem × Completion)} {progress next : Progress F}
    {world after : World σ} (covers : Covers states count progress)
    (success : engine.settleAll states rows progress world = (.ok next, after)) :
    Covers states count next := by
  induction rows generalizing progress world with
  | nil =>
      obtain ⟨rfl, rfl⟩ := Run.pure_ok success
      exact covers
  | cons row rest ih =>
      obtain ⟨middle, afterRow, settled, success⟩ := Run.bind_ok success
      exact ih (settle_covers covers settled) success

theorem round_covers {progress next : Progress F} {world after : World σ}
    (covers : Covers states count progress)
    (success : engine.round states progress world = (.ok next, after)) :
    Covers states count next := by
  unfold round at success
  obtain ⟨completions, middle, _, success⟩ := Run.bind_ok success
  split at success
  · refine settleAll_covers ?_ success
    exact ⟨covers.states, covers.answers, covers.usage⟩
  · exact absurd success Run.raise_not_ok

private theorem settle_sustained (answers : engine.Answers oracle)
    (sustained : Sustained F engine states oracle allowed good) {progress : Progress F}
    {row : WorkItem × Completion} {world : World σ} (covers : Covers states count progress)
    (produced : row.2 = oracle row.1) (holds : good row.1 ∧ row.1.requestIndex < count) :
    Run.Ends allowed (engine.settle states progress row) world := by
  obtain ⟨item, completion⟩ := row
  dsimp only at produced holds
  subst produced
  unfold settle
  refine .bind (at?_ends (covers.usage ▸ holds.2)) fun used after _ => ?_
  dsimp only
  rcases sustained item holds.1 with ⟨answer, accepted⟩ | ⟨message, rejected, stops, next⟩
  · simp only [accepted]
    exact .bind (at?_ends (covers.answers ▸ holds.2)) fun found after _ => .pure _
  · simp only [rejected]
    split
    · rename_i exhausted
      exact .raise (stops exhausted)
    rename_i left
    refine .bind (at?_ends (covers.states ▸ holds.2)) fun state after located => ?_
    obtain ⟨located, _⟩ := Run.lift_ok located
    refine .bind (job_ends ?_ ?_) fun repair after _ => .pure _
    · intro prompt before error failed
      obtain ⟨tokens, encoded⟩ := answers.encodes prompt before
      rw [encoded] at failed
      cases failed
    · intro draft reason drafts exceeded budget
      exact (next (Nat.lt_of_not_le left) state draft (at?_ok located) drafts).2 exceeded reason
        budget

private theorem settleAll_sustained (answers : engine.Answers oracle)
    (sustained : Sustained F engine states oracle allowed good)
    {rows : List (WorkItem × Completion)} {progress : Progress F} {world : World σ}
    (covers : Covers states count progress) (produced : ∀ row ∈ rows, row.2 = oracle row.1)
    (holds : ∀ row ∈ rows, good row.1 ∧ row.1.requestIndex < count) :
    Run.Ends allowed (engine.settleAll states rows progress) world := by
  induction rows generalizing progress world with
  | nil => exact .pure _
  | cons row rest ih =>
      refine .bind (settle_sustained answers sustained covers (produced row List.mem_cons_self)
        (holds row List.mem_cons_self)) fun middle after settled => ?_
      exact ih (settle_covers covers settled)
        (fun found member => produced found (List.mem_cons_of_mem _ member))
        (fun found member => holds found (List.mem_cons_of_mem _ member))

private theorem round_sustained (answers : engine.Answers oracle)
    (sustained : Sustained F engine states oracle allowed good) {progress : Progress F}
    {world : World σ} (covers : Covers states count progress)
    (holds : ∀ item ∈ progress.pending, good item ∧ item.requestIndex < count) :
    Run.Ends allowed (engine.round states progress) world := by
  unfold round
  cases cut : takeBatch engine.config 0 0 progress.pending with
  | mk batch rest =>
      have whole := takeBatch_append engine.config 0 0 progress.pending
      rw [cut] at whole
      dsimp only at whole ⊢
      refine .bind (generate_ends ?_) fun completions after generated => ?_
      · intro error failed
        rw [answers.generates] at failed
        cases failed
      · obtain ⟨returned, _⟩ := generate_ok generated
        rw [answers.generates] at returned
        cases returned
        rw [if_pos (List.length_map ..)]
        refine settleAll_sustained answers sustained
          ⟨covers.states, covers.answers, covers.usage⟩ (fun row => zip_oracle) ?_
        intro row member
        apply holds
        rw [← whole]
        exact List.mem_append_left _ (List.of_mem_zip member).1

theorem Sustained.retried (sustained : Sustained F engine states oracle allowed good)
    {item next : WorkItem} {completion : Completion} (holds : good item)
    (retried : (policy F engine states fun item completion =>
      completion = oracle item).retries item completion next) : good next := by
  obtain ⟨rfl, message, state, judged, below, located, builds⟩ := retried
  rcases sustained item holds with ⟨answer, accepted⟩ | ⟨other, rejected, _, follows⟩
  · rw [judged] at accepted
    cases accepted
  · rw [judged] at rejected
    cases rejected
    exact (follows below state next located builds.toDrafts).1

theorem generateLoop_sustained (answers : engine.Answers oracle)
    (sustained : Sustained F engine states oracle allowed good) {fuel : Nat}
    {progress : Progress F} {world : World σ} (covers : Covers states count progress)
    (holds : ∀ item ∈ progress.pending,
      (good item ∧ item.requestIndex < count) ∧ engine.Queued item)
    (enough : engine.work progress.pending ≤ fuel) :
    Run.Ends allowed (engine.generateLoop states fuel progress) world := by
  have preserved : ∀ item completion next, good item ∧ item.requestIndex < count →
      (policy F engine states fun item completion => completion = oracle item).retries
        item completion next → good next ∧ next.requestIndex < count := by
    intro item completion next held retried
    have label := (Prod.mk.inj (policy_label retried)).1
    exact ⟨sustained.retried held.1 retried, label ▸ held.2⟩
  let invariant : Progress F → Prop := fun progress =>
    Covers states count progress ∧ ∀ item ∈ progress.pending,
      (good item ∧ item.requestIndex < count) ∧ engine.Queued item
  have queue : ∀ progress, invariant progress → ∀ item ∈ progress.pending, engine.Queued item :=
    fun progress held item member => (held.2 item member).2
  refine generateLoop_ends queue ?_ ⟨covers, holds⟩ enough
  intro progress world held nonempty
  refine ⟨round_sustained answers sustained held.1 fun item member => (held.2 item member).1, ?_⟩
  intro next after ran
  obtain ⟨kept, smaller⟩ := round_queue preserved answers.produces ran nonempty held.2
  exact ⟨⟨round_covers held.1 ran, kept⟩, smaller⟩

end Sustained

/-- What `evaluate` checks before it does any work. -/
def Admits (engine : DecisionEngine σ) (requests : List SystemOneRequest) : Prop :=
  requests ≠ [] ∧ requests.length ≤ engine.config.maxRequests ∧
    ∀ request ∈ requests, engine.served request.model = true

theorem states_rendered (requests : List SystemOneRequest) :
    ∃ states, requests.mapM (fun request => dumpsOrRaise .default request.state.value) =
      .ok states := by
  cases mapped : requests.mapM fun request => dumpsOrRaise .default request.state.value with
  | ok states => exact ⟨states, rfl⟩
  | error raised =>
      obtain ⟨request, _, failed⟩ := mapM_error mapped
      obtain ⟨text, rendered⟩ := dumpsOrRaise_ok .default request.state.finite
      rw [rendered] at failed
      cases failed

/-- An admitted run whose first drafts are sustained returns or stops as allowed. -/
theorem evaluate_sustained {oracle : WorkItem → Completion} {allowed : Halt → Prop}
    (good : List Str → WorkItem → Prop) {requests : List SystemOneRequest}
    (answers : engine.Answers oracle) (admitted : engine.Admits requests)
    (first : ∀ states, List.Forall₂ (fun request state =>
        dumpsOrRaise .default request.state.value = .ok state) requests states →
      Sustained F engine states oracle allowed (good states) ∧
        ∀ index request state key question item, requests[index]? = some request →
          states[index]? = some state → (key, question) ∈ request.questions.entries →
            Drafts engine index key state question 0 none item →
              good states item ∧
                (¬ engine.Fits item → ∀ reason, BudgetError reason → allowed reason))
    (state : σ) :
    (∃ (run : DecisionRun F) (world : World σ), engine.evaluate requests state = (.ok run, world)) ∨
      ∃ reason world, engine.evaluate (F := F) requests state = (.error reason, world) ∧
        allowed reason := by
  have ends : Run.Ends allowed (engine.evaluateRun (F := F) requests) ⟨state, []⟩ := by
    have encodes : ∀ prompt before error,
        (engine.runtime.encode prompt before).1 ≠ .error error := by
      intro prompt before error failed
      obtain ⟨tokens, encoded⟩ := answers.encodes prompt before
      rw [encoded] at failed
      cases failed
    obtain ⟨nonempty, bounded, known⟩ := admitted
    refine .bind ?_ fun prepared after ready => ?_
    · obtain ⟨states, rendered⟩ := states_rendered requests
      have shapes := mapM_ok_iff.mp rendered
      unfold prepare
      rw [if_neg (by simpa [nonempty] using bounded), if_neg (by simpa using known), rendered]
      refine .bind (.lift fun error failure => by cases failure) fun found after started => ?_
      obtain ⟨same, _⟩ := Run.lift_ok started
      cases same
      refine .bind (.mapM fun entry member before => .mapM fun question present middle => ?_)
        fun queues after _ => .pure _
      obtain ⟨⟨request, text⟩, index⟩ := entry
      have paired := List.mk_mem_zipIdx_iff_getElem?.mp member
      obtain ⟨requestFound, stateFound⟩ := List.getElem?_zip_eq_some.mp paired
      refine job_ends (fun prompt before error failed => absurd failed (encodes _ _ _)) ?_
      intro item reason drafts exceeded budget
      exact ((first states shapes).2 index request text question.1 question.2 item
        requestFound stateFound present drafts).2 exceeded reason budget
    · obtain ⟨states, initial⟩ := prepared
      obtain ⟨_, shapes, initialAnswers, initialUsage, starts⟩ := prepare_ok ready
      obtain ⟨sustained, drafted⟩ := first states shapes
      refine .bind ?_ fun final after ran => ?_
      · have covers : Covers states requests.length initial :=
          ⟨starts.stateCount, by rw [initialAnswers, List.length_map],
            by rw [initialUsage, List.length_map]⟩
        refine generateLoop_sustained answers sustained covers ?_ (Starts.enough starts)
        intro item member
        obtain ⟨request, text, question, requestFound, stateFound, present, builds⟩ :=
          starts.sound item member
        have good := (drafted _ request text _ question item requestFound stateFound present
          builds.toDrafts).1
        exact ⟨⟨good, (List.getElem?_eq_some_iff.mp requestFound).1⟩,
          Starts.queued starts item member⟩
      · obtain ⟨responses, built⟩ := responses_total ready ran
        rw [built]
        exact .bind (.lift fun error failure => by cases failure) fun found after _ => .pure _
  cases outcome : engine.evaluate (F := F) requests state with
  | mk result after =>
      cases result with
      | ok run => exact .inl ⟨run, after, rfl⟩
      | error reason => exact .inr ⟨reason, after, rfl, ends reason after outcome⟩

end DecisionEngine

end VllmVerifier.Engine
