import Mathlib.Data.List.Forall2
import VllmVerifier.Engine.Core
import VllmVerifier.Worklist

/-!
What a returning run of the engine did. Each function has one lemma that says
everything its success implies; the generation loop drains the queue as a
worklist with retries, and its answers and usage are folds over the history.
-/

set_option autoImplicit false

namespace VllmVerifier.Engine

open Python Worklist

/-! ## Runs -/

namespace Run

variable {σ α β : Type}

theorem bind_ok {first : Run σ α} {second : α → Run σ β} {world after : World σ} {result : β}
    (success : (first >>= second) world = (.ok result, after)) :
    ∃ value middle, first world = (.ok value, middle) ∧
      second value middle = (.ok result, after) := by
  change next first second world = _ at success
  unfold next at success
  cases outcome : first world with
  | mk computed middle =>
      cases computed with
      | error reason =>
          rw [outcome] at success
          cases success
      | ok value =>
          rw [outcome] at success
          exact ⟨value, middle, rfl, success⟩

/-- A composed run stopped in its first part or went on to its second. -/
theorem bind_outcome {first : Run σ α} {second : α → Run σ β} {world after : World σ}
    {result : Except Halt β} (ran : (first >>= second) world = (result, after)) :
    (∃ reason, first world = (.error reason, after) ∧ result = .error reason) ∨
      ∃ value middle, first world = (.ok value, middle) ∧
        second value middle = (result, after) := by
  change next first second world = _ at ran
  unfold next at ran
  cases outcome : first world with
  | mk computed middle =>
      rw [outcome] at ran
      cases computed with
      | error reason =>
          cases ran
          exact .inl ⟨reason, rfl, rfl⟩
      | ok value => exact .inr ⟨value, middle, rfl, ran⟩

theorem pure_ok {value result : α} {world after : World σ}
    (success : (pure value : Run σ α) world = (.ok result, after)) :
    result = value ∧ after = world := by
  cases success
  exact ⟨rfl, rfl⟩

theorem lift_ok {computation : Except PyException α} {result : α} {world after : World σ}
    (success : lift computation world = (.ok result, after)) :
    computation = .ok result ∧ after = world := by
  cases computation with
  | error error => cases success
  | ok value =>
      cases success
      exact ⟨rfl, rfl⟩

theorem lift_bind_ok {computation : Except PyException α} {second : α → Run σ β}
    {world after : World σ} {result : β}
    (success : (lift computation >>= second) world = (.ok result, after)) :
    ∃ value, computation = .ok value ∧ second value world = (.ok result, after) := by
  obtain ⟨value, middle, lifted, continuation⟩ := bind_ok success
  obtain ⟨computed, same⟩ := lift_ok lifted
  exact ⟨value, computed, same ▸ continuation⟩

theorem raise_not_ok {error : PyException} {result : α} {world after : World σ} :
    (raise error : Run σ α) world ≠ (.ok result, after) := by
  intro success
  cases success

/-- A mapped run that returns ran on every item, in worlds with one history. -/
theorem mapM_ok {f : α → Run σ β} {items : List α} {results : List β} {world after : World σ}
    {related : α → β → Prop}
    (each : ∀ item ∈ items, ∀ before result middle, f item before = (.ok result, middle) →
      middle.history = before.history ∧ related item result)
    (success : items.mapM f world = (.ok results, after)) :
    after.history = world.history ∧ List.Forall₂ related items results := by
  induction items generalizing results world with
  | nil =>
      rw [List.mapM_nil] at success
      obtain ⟨rfl, rfl⟩ := pure_ok success
      exact ⟨rfl, .nil⟩
  | cons item rest ih =>
      rw [List.mapM_cons] at success
      obtain ⟨head, afterHead, first, success⟩ := bind_ok success
      obtain ⟨tail, afterTail, others, success⟩ := bind_ok success
      obtain ⟨rfl, rfl⟩ := pure_ok success
      obtain ⟨headHistory, headRelated⟩ := each item List.mem_cons_self _ _ _ first
      obtain ⟨tailHistory, tailRelated⟩ :=
        ih (fun found member => each found (List.mem_cons_of_mem _ member)) others
      exact ⟨tailHistory.trans headHistory, .cons headRelated tailRelated⟩

end Run

/-! ## Queues -/

private theorem sweep_perm {α : Type} (queues : List (List α)) :
    (queues.filterMap List.head? ++ (queues.map List.tail).flatten).Perm queues.flatten := by
  induction queues with
  | nil => exact .nil
  | cons queue rest ih =>
      cases queue with
      | nil => simpa [List.filterMap_cons] using ih
      | cons head tail =>
          simp only [List.filterMap_cons, List.head?_cons, List.map_cons, List.tail_cons,
            List.flatten_cons, List.cons_append]
          refine .cons head ?_
          refine (List.perm_append_comm_assoc _ _ _).trans ?_
          exact ih.append_left tail

private theorem sweeps_perm {α : Type} {fuel : Nat} {queues : List (List α)}
    (enough : queues.flatten.length ≤ fuel) : (sweeps fuel queues).Perm queues.flatten := by
  induction fuel generalizing queues with
  | zero =>
      have empty := List.length_eq_zero_iff.mp (Nat.le_zero.mp enough)
      simp [sweeps, empty]
  | succ fuel ih =>
      unfold sweeps
      split
      · rename_i finished
        have empty : queues.flatten = [] := by
          apply List.flatten_eq_nil_iff.mpr
          intro queue member
          exact List.isEmpty_iff.mp (List.all_eq_true.mp finished queue member)
        rw [empty]
      · rename_i unfinished
        have sweep := sweep_perm queues
        have taken : queues.filterMap List.head? ≠ [] := by
          intro none
          apply unfinished
          apply List.all_eq_true.mpr
          intro queue member
          have head := List.filterMap_eq_nil_iff.mp none queue member
          exact List.isEmpty_iff.mpr (List.head?_eq_none_iff.mp head)
        have lengths := sweep.length_eq
        rw [List.length_append] at lengths
        have positive := List.length_pos_iff.mpr taken
        exact ((ih (by omega)).append_left _).trans sweep

theorem roundRobin_perm {α : Type} (queues : List (List α)) :
    (roundRobin queues).Perm queues.flatten :=
  sweeps_perm (by rw [List.length_flatten])

theorem takeBatch_append (config : EngineConfig) (count reserved : Nat) (pending : List WorkItem) :
    (takeBatch config count reserved pending).1 ++ (takeBatch config count reserved pending).2 =
      pending := by
  induction pending generalizing count reserved with
  | nil => rfl
  | cons job rest ih =>
      unfold takeBatch
      split
      · simp [ih]
      · rfl

/-! ## Calls -/

/-- The request and the question that a job belongs to. -/
def WorkItem.label (item : WorkItem) : Nat × Str := (item.requestIndex, item.questionId)

namespace DecisionEngine

variable {σ F : Type} [LogField F]

theorem judge_ok_iff {question : Question} {completion : Completion} {answer : Answer F} :
    judge question completion = .ok answer ↔ completion.finishReason = lit "stop" ∧
      verify completion.text question = .ok answer := by
  unfold judge
  by_cases finished : completion.finishReason = lit "stop" <;> simp [finished]

theorem encode_ok {engine : DecisionEngine σ} {prompt : List Message} {world after : World σ}
    {tokens : List Int} (success : engine.encode prompt world = (.ok tokens, after)) :
    (engine.runtime.encode prompt world.state).1 = .ok tokens ∧
      after.history = world.history := by
  unfold encode at success
  cases outcome : engine.runtime.encode prompt world.state with
  | mk result state =>
      rw [outcome] at success
      cases result with
      | error error => cases success
      | ok found =>
          cases success
          exact ⟨rfl, by simp [World.history, RuntimeCall.rows]⟩

theorem generate_ok {engine : DecisionEngine σ} {batch : List WorkItem} {world after : World σ}
    {completions : List Completion}
    (success : engine.generate batch world = (.ok completions, after)) :
    (engine.runtime.generate batch world.state).1 = .ok completions ∧
      after.history = world.history ++ batch.zip completions := by
  unfold generate at success
  cases outcome : engine.runtime.generate batch world.state with
  | mk result state =>
      rw [outcome] at success
      cases result with
      | error error => cases success
      | ok found =>
          cases success
          exact ⟨rfl, by simp [World.history, RuntimeCall.rows]⟩

theorem generate_outcome {engine : DecisionEngine σ} {batch : List WorkItem}
    {world after : World σ} {result : Except Halt (List Completion)}
    (ran : engine.generate batch world = (result, after)) :
    ∃ returned, (engine.runtime.generate batch world.state).1 = returned ∧
      result = returned.mapError .raised ∧
        after.calls = world.calls ++ [.generate batch returned] := by
  unfold generate at ran
  cases ran
  exact ⟨_, rfl, rfl, rfl⟩

/-- The tokens a runtime can give a prompt, in some state of it. -/
def Encodes (engine : DecisionEngine σ) (state : Str) (question : Question)
    (correction : Option String) (tokens : List Int) : Prop :=
  ∃ prompt before, messages state question (correction.map lit) = .ok prompt ∧
    (engine.runtime.encode prompt before).1 = .ok tokens

/-- A job within both token budgets. -/
def Fits (engine : DecisionEngine σ) (item : WorkItem) : Prop :=
  item.reservedTokens ≤ engine.config.maxModelLen ∧
    item.reservedTokens ≤ engine.config.maxBatchTokens

/-- What `_job` makes before it checks the budgets. -/
structure Drafts (engine : DecisionEngine σ) (index : Nat) (key state : Str)
    (question : Question) (attempt : Nat) (correction : Option String) (item : WorkItem) :
    Prop where
  requestIndex : item.requestIndex = index
  questionId : item.questionId = key
  sameQuestion : item.question = question
  numbered : item.attempt = attempt
  output : item.outputTokens = engine.config.outputTokens
  tokens : engine.Encodes state question correction item.tokenIds

/-- What `_job` builds when it returns. -/
structure Builds (engine : DecisionEngine σ) (index : Nat) (key state : Str)
    (question : Question) (attempt : Nat) (correction : Option String) (item : WorkItem) : Prop
    extends Drafts engine index key state question attempt correction item where
  fits : engine.Fits item

theorem job_ok {engine : DecisionEngine σ} {index attempt : Nat} {key state : Str}
    {question : Question} {correction : Option String} {world after : World σ} {item : WorkItem}
    (success : engine.job index key state question attempt correction world = (.ok item, after)) :
    after.history = world.history ∧
      engine.Builds index key state question attempt correction item := by
  unfold job at success
  obtain ⟨prompt, rendered, success⟩ := Run.lift_bind_ok success
  obtain ⟨tokens, afterEncode, encoded, success⟩ := Run.bind_ok success
  obtain ⟨returned, history⟩ := encode_ok encoded
  dsimp only at success
  split at success
  · exact absurd success Run.raise_not_ok
  · rename_i modelFits
    split at success
    · exact absurd success Run.raise_not_ok
    · rename_i batchFits
      obtain ⟨rfl, rfl⟩ := Run.pure_ok success
      exact ⟨history, ⟨rfl, rfl, rfl, rfl, rfl, ⟨prompt, _, rendered, returned⟩⟩,
        Nat.le_of_not_lt modelFits, Nat.le_of_not_lt batchFits⟩

/-! ## One batch -/

/-- Add the usage of a completion to its request. -/
def charge (usage : List Usage) (row : WorkItem × Completion) : List Usage :=
  usage.modify row.1.requestIndex fun used => used + row.2.usage

/-- Store the answer of an accepted completion. -/
def record (answers : List (Dict Str (Answer F))) (row : WorkItem × Completion) :
    List (Dict Str (Answer F)) :=
  match judge row.1.question row.2 with
  | .ok answer => answers.modify row.1.requestIndex fun found => found.set row.1.questionId answer
  | .error _ => answers

/-- The engine as a worklist policy, for a relation that every completion of
the runtime satisfies. -/
def policy (F : Type) [LogField F] (engine : DecisionEngine σ) (states : List Str)
    (produced : WorkItem → Completion → Prop) : Policy WorkItem Completion where
  accepts item completion :=
    produced item completion ∧ ∃ answer : Answer F, judge item.question completion = .ok answer
  retries item completion next :=
    produced item completion ∧ ∃ message state,
      judge (F := F) item.question completion = .error (.invalidOutput message) ∧
        item.attempt < engine.config.validationRetries ∧
          states[item.requestIndex]? = some state ∧
            engine.Builds item.requestIndex item.questionId state item.question
              (item.attempt + 1) (some message) next

private theorem set_eq_modify {α : Type} {items : List α} {index : Nat} {item : α}
    (found : items[index]? = some item) (f : α → α) :
    items.set index (f item) = items.modify index f := by
  apply List.ext_getElem?
  intro position
  rw [List.getElem?_set, List.getElem?_modify]
  obtain ⟨inside, known⟩ := List.getElem?_eq_some_iff.mp found
  by_cases same : index = position
  · subst same
    simp [inside, known]
  · simp [same]

variable {engine : DecisionEngine σ} {states : List Str}
  {produced : WorkItem → Completion → Prop}

/-- One settled row: the queue is left, or its retry is appended. -/
theorem settle_ok {progress next : Progress F} {row : WorkItem × Completion}
    {world after : World σ} (known : produced row.1 row.2)
    (success : engine.settle states progress row world = (.ok next, after)) :
    after.history = world.history ∧ next.usage = charge progress.usage row ∧
      next.answers = record progress.answers row ∧
        (((policy F engine states produced).accepts row.1 row.2 ∧
            next.pending = progress.pending) ∨
          ∃ repair, (policy F engine states produced).retries row.1 row.2 repair ∧
            next.pending = progress.pending ++ [repair]) := by
  obtain ⟨item, completion⟩ := row
  unfold settle at success
  obtain ⟨used, found, success⟩ := Run.lift_bind_ok success
  have charged : progress.usage.set item.requestIndex (used.add completion.usage) =
      charge progress.usage (item, completion) :=
    set_eq_modify (at?_ok found) fun used => used + completion.usage
  dsimp only at success
  cases judged : judge (F := F) item.question completion with
  | ok answer =>
      simp only [judged] at success
      obtain ⟨answers, located, success⟩ := Run.lift_bind_ok success
      obtain ⟨rfl, rfl⟩ := Run.pure_ok success
      have stored : progress.answers.set item.requestIndex (answers.set item.questionId answer) =
          record progress.answers (item, completion) := by
        unfold record
        simp only [judged]
        exact set_eq_modify (at?_ok located) fun found => found.set item.questionId answer
      exact ⟨rfl, charged, stored, .inl ⟨⟨known, answer, judged⟩, rfl⟩⟩
  | error error =>
      have kept : progress.answers = record progress.answers (item, completion) := by
        unfold record
        simp only [judged]
      cases error with
      | invalidOutput message =>
          simp only [judged] at success
          split at success
          · exact absurd success Run.raise_not_ok
          · rename_i allowed
            obtain ⟨state, located, success⟩ := Run.lift_bind_ok success
            obtain ⟨repair, middle, built, success⟩ := Run.bind_ok success
            obtain ⟨history, builds⟩ := job_ok built
            obtain ⟨rfl, rfl⟩ := Run.pure_ok success
            exact ⟨history, charged, kept, .inr ⟨repair, ⟨known, message, state, judged,
              Nat.lt_of_not_le allowed, at?_ok located, builds⟩, rfl⟩⟩
      | valueError | validationError | runtimeError | memoryError | floatingPointError
        | zeroDivisionError | keyError | indexError | assertionError | serviceError | other =>
          simp only [judged] at success
          exact absurd success Run.raise_not_ok

theorem settleAll_ok {rows : List (WorkItem × Completion)} {progress next : Progress F}
    {world after : World σ} (known : ∀ row ∈ rows, produced row.1 row.2)
    (success : engine.settleAll states rows progress world = (.ok next, after)) :
    after.history = world.history ∧ next.usage = rows.foldl charge progress.usage ∧
      next.answers = rows.foldl record progress.answers ∧
        Advances (policy F engine states produced) (rows.map Prod.fst ++ progress.pending) rows
          next.pending := by
  induction rows generalizing progress world with
  | nil =>
      obtain ⟨rfl, rfl⟩ := Run.pure_ok success
      exact ⟨rfl, rfl, rfl, .start⟩
  | cons row rest ih =>
      obtain ⟨middle, afterRow, settled, success⟩ := Run.bind_ok success
      obtain ⟨history, usage, answers, step⟩ := settle_ok (known row List.mem_cons_self) settled
      obtain ⟨restHistory, restUsage, restAnswers, advances⟩ :=
        ih (fun found member => known found (List.mem_cons_of_mem _ member)) success
      refine ⟨restHistory.trans history, by rw [restUsage, usage]; rfl,
        by rw [restAnswers, answers]; rfl, ?_⟩
      rcases step with ⟨accepted, pending⟩ | ⟨repair, retried, pending⟩
      · rw [pending] at advances
        exact .finish accepted advances
      · rw [pending, ← List.append_assoc] at advances
        exact .retry retried advances

/-! ## The loop -/

/-- Every completion list the runtime can return for a batch of its length is
related to the batch, position by position. -/
def Produces (engine : DecisionEngine σ) (produced : WorkItem → Completion → Prop) : Prop :=
  ∀ batch state completions, (engine.runtime.generate batch state).1 = .ok completions →
    completions.length = batch.length → ∀ row ∈ batch.zip completions, produced row.1 row.2

theorem round_ok {progress next : Progress F} {world after : World σ}
    (known : engine.Produces produced)
    (success : engine.round states progress world = (.ok next, after)) :
    ∃ rows, after.history = world.history ++ rows ∧
      rows.map Prod.fst = (takeBatch engine.config 0 0 progress.pending).1 ∧
      next.usage = rows.foldl charge progress.usage ∧
        next.answers = rows.foldl record progress.answers ∧
          Advances (policy F engine states produced) progress.pending rows next.pending := by
  unfold round at success
  cases cut : takeBatch engine.config 0 0 progress.pending with
  | mk batch rest =>
      have whole := takeBatch_append engine.config 0 0 progress.pending
      rw [cut] at success whole
      dsimp only at success
      obtain ⟨completions, middle, generated, success⟩ := Run.bind_ok success
      obtain ⟨returned, history⟩ := generate_ok generated
      split at success
      · rename_i lengths
        obtain ⟨settledHistory, usage, answers, advances⟩ :=
          settleAll_ok (known batch _ completions returned lengths) success
        have jobs : (batch.zip completions).map Prod.fst = batch :=
          List.map_fst_zip (Nat.le_of_eq lengths.symm)
        rw [jobs, whole] at advances
        exact ⟨batch.zip completions, settledHistory.trans history, jobs, usage, answers, advances⟩
      · exact absurd success Run.raise_not_ok

/-- A loop that returns has drained its queue; its answers and its usage are
what the history it made leaves. -/
theorem generateLoop_ok {fuel : Nat} {progress final : Progress F} {world after : World σ}
    (known : engine.Produces produced)
    (success : engine.generateLoop states fuel progress world = (.ok final, after)) :
    ∃ rows, after.history = world.history ++ rows ∧
      final.usage = rows.foldl charge progress.usage ∧
        final.answers = rows.foldl record progress.answers ∧
          Drains (policy F engine states produced) progress.pending rows := by
  have finished : ∀ {world after : World σ} {progress final : Progress F},
      progress.pending.isEmpty = true →
      (pure progress : Run σ (Progress F)) world = (.ok final, after) →
      ∃ rows, after.history = world.history ++ rows ∧
        final.usage = rows.foldl charge progress.usage ∧
          final.answers = rows.foldl record progress.answers ∧
            Drains (policy F engine states produced) progress.pending rows := by
    intro world after progress final empty returned
    obtain ⟨rfl, rfl⟩ := Run.pure_ok returned
    refine ⟨[], by simp, rfl, rfl, ?_⟩
    rw [List.isEmpty_iff.mp empty]
    exact .empty
  induction fuel generalizing progress world with
  | zero =>
      unfold generateLoop at success
      split at success
      · rename_i empty
        exact finished empty success
      · cases success
  | succ fuel ih =>
      unfold generateLoop at success
      split at success
      · rename_i empty
        exact finished empty success
      · obtain ⟨next, middle, ran, success⟩ := Run.bind_ok success
        obtain ⟨rows, history, _, usage, answers, advances⟩ := round_ok known ran
        obtain ⟨later, laterHistory, laterUsage, laterAnswers, drains⟩ := ih success
        refine ⟨rows ++ later, ?_, ?_, ?_, advances.drains drains⟩
        · rw [laterHistory, history, List.append_assoc]
        · rw [laterUsage, usage, List.foldl_append]
        · rw [laterAnswers, answers, List.foldl_append]

end DecisionEngine

end VllmVerifier.Engine
