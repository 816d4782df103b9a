import VllmVerifier.AnswerProperties
import VllmVerifier.Engine.PromptProperties

/-!
The token budgets. A job is checked when it is built, and a repair is built
after generation has started; the budgets stop a run before any model work
exactly where every prompt that a repair can need fits them too.
-/

set_option autoImplicit false

namespace VllmVerifier.Engine

open Python Worklist

/-! ## How a run fails -/

/-- The batches that the runtime was asked to generate. -/
def World.batches {σ : Type} (world : World σ) : List (List WorkItem) :=
  world.calls.filterMap fun call =>
    match call with
    | .encode _ _ => none
    | .generate jobs _ => some jobs

/-- What `generate` was asked and what it returned. -/
def World.generated {σ : Type} (world : World σ) :
    List (List WorkItem) × List (WorkItem × Completion) :=
  (world.batches, world.history)

def World.Started {σ : Type} (world : World σ) : Prop := world.batches ≠ []

def RuntimeCall.Raises (call : RuntimeCall) (error : PyException) : Prop :=
  match call with
  | .encode _ result => result = .error error
  | .generate _ result => result = .error error

def RuntimeCall.returned : RuntimeCall → Bool
  | .encode _ result => result.toBool
  | .generate _ result => result.toBool

/-- The run stopped on what the runtime raised in its last call. -/
def World.Raised {σ : Type} (reason : Halt) (world : World σ) : Prop :=
  ∃ earlier call error, world.calls = earlier ++ [call] ∧ call.Raises error ∧
    reason = .raised error

namespace Run

/-- However the run ends, what is observed of the world stays the same. -/
def Keeps {σ α γ : Type} (observe : World σ → γ) (run : Run σ α) (world : World σ) : Prop :=
  ∀ result after, run world = (result, after) → observe after = observe world

namespace Keeps

variable {σ α β γ : Type} {observe : World σ → γ} {world : World σ}

theorem of_same {run : Run σ α}
    (same : ∀ result after, run world = (result, after) → after = world) :
    Keeps observe run world := by
  intro result after ran
  rw [same result after ran]

theorem pure (value : α) : Keeps observe (Pure.pure value : Run σ α) world :=
  of_same fun _ _ ran => (Prod.mk.inj ran).2.symm

theorem raise (error : PyException) : Keeps observe (Run.raise error : Run σ α) world :=
  of_same fun _ _ ran => (Prod.mk.inj ran).2.symm

theorem lift (computation : Except PyException α) : Keeps observe (Run.lift computation) world := by
  cases computation with
  | ok value => exact pure value
  | error error => exact raise error

theorem bind {first : Run σ α} {second : α → Run σ β} (start : Keeps observe first world)
    (rest : ∀ value after, Keeps observe (second value) after) :
    Keeps observe (first >>= second) world := by
  intro result after ran
  rcases Run.bind_outcome ran with ⟨reason, failed, _⟩ | ⟨value, middle, ran, continued⟩
  · exact start _ after failed
  · exact (rest value middle result after continued).trans (start _ middle ran)

theorem mapM {f : α → Run σ β} {items : List α}
    (each : ∀ item before, Keeps observe (f item) before) :
    Keeps observe (items.mapM f) world := by
  induction items generalizing world with
  | nil =>
      rw [List.mapM_nil]
      exact pure _
  | cons item rest ih =>
      rw [List.mapM_cons]
      exact bind (each item world) fun head after => bind ih fun tail last => pure _

end Keeps

/-- However the run ends, it has asked for no batch. -/
def Silent {σ α : Type} (run : Run σ α) (world : World σ) : Prop :=
  ∀ result after, run world = (result, after) → after.batches = world.batches

end Run

namespace DecisionEngine

variable {σ F : Type} [LogField F] {engine : DecisionEngine σ} {states : List Str}
  {requests : List SystemOneRequest}

def Rejected (F : Type) [LogField F] (row : WorkItem × Completion) : Prop :=
  ∃ message, judge (F := F) row.1.question row.2 = .error (.invalidOutput message)

/-- A question of the requests has used all its attempts, each rejected. -/
def Exhausted (F : Type) [LogField F] (engine : DecisionEngine σ)
    (requests : List SystemOneRequest) (history : List (WorkItem × Completion)) : Prop :=
  ∃ index request key question, requests[index]? = some request ∧
    (key, question) ∈ request.questions.entries ∧
    (history.filter fun row => row.1.label = (index, key)).length =
      engine.config.validationRetries + 1 ∧
    ∀ row ∈ history, row.1.label = (index, key) → Rejected F row

/-- A bad result of the runtime, or a question without a retry left. -/
inductive Fault (F : Type) [LogField F] (engine : DecisionEngine σ)
    (requests : List SystemOneRequest) : Halt → World σ → Prop where
  | runtime {reason : Halt} {world : World σ} : world.Raised reason →
      Fault F engine requests reason world
  | miscounted {world : World σ} {earlier : List RuntimeCall} {jobs : List WorkItem}
      {completions : List Completion} :
      world.calls = earlier ++ [.generate jobs (.ok completions)] →
      completions.length ≠ jobs.length →
      Fault F engine requests
        (.raised (.runtimeError "Runtime returned a different number of completions")) world
  | exhausted {world : World σ} : Exhausted F engine requests world.history →
      Fault F engine requests exhaustion world

/-- The engine's own budget errors come before any generation, and after that a
run fails only with a fault. -/
structure Enforced (F : Type) [LogField F] (engine : DecisionEngine σ)
    (requests : List SystemOneRequest) (start : σ) : Prop where
  budgets : ∀ reason world, engine.evaluate (F := F) requests start = (.error reason, world) →
    BudgetError reason → ¬ world.Raised reason → ¬ world.Started
  failures : ∀ reason world, engine.evaluate (F := F) requests start = (.error reason, world) →
    world.Started → Fault F engine requests reason world

/-- Every prompt that corrects a completion of a question fits both budgets. -/
def RepairsFit (F : Type) [LogField F] (engine : DecisionEngine σ)
    (requests : List SystemOneRequest) : Prop :=
  ∀ request ∈ requests, ∀ state, dumpsOrRaise .default request.state.value = .ok state →
    ∀ key question, (key, question) ∈ request.questions.entries →
      ∀ completion message, judge (F := F) question completion = .error (.invalidOutput message) →
        ∀ tokens, engine.Encodes state question (some message) tokens →
          tokens.length + engine.config.outputTokens ≤ engine.config.maxModelLen ∧
            tokens.length + engine.config.outputTokens ≤ engine.config.maxBatchTokens

/-- If a retry is left, every prompt that corrects this completion fits both budgets. -/
def RepairFits (F : Type) [LogField F] (engine : DecisionEngine σ)
    (requests : List SystemOneRequest) (row : WorkItem × Completion) : Prop :=
  row.1.attempt < engine.config.validationRetries →
    ∀ request, requests[row.1.requestIndex]? = some request →
      (row.1.questionId, row.1.question) ∈ request.questions.entries →
      ∀ state, dumpsOrRaise .default request.state.value = .ok state →
        ∀ message, judge (F := F) row.1.question row.2 = .error (.invalidOutput message) →
          ∀ tokens, engine.Encodes state row.1.question (some message) tokens →
            tokens.length + engine.config.outputTokens ≤ engine.config.maxModelLen ∧
              tokens.length + engine.config.outputTokens ≤ engine.config.maxBatchTokens

/-- The repair of whatever this runtime itself returns fits. -/
def OwnRepairsFit (F : Type) [LogField F] (engine : DecisionEngine σ)
    (requests : List SystemOneRequest) : Prop :=
  ∀ batch state completions, (engine.runtime.generate batch state).1 = .ok completions →
    ∀ row ∈ batch.zip completions, engine.RepairFits F requests row

theorem RepairsFit.own
    (fits : engine.config.validationRetries = 0 ∨ engine.RepairsFit F requests) :
    engine.OwnRepairsFit F requests := by
  intro batch state completions _ row _ left request located present rendered spelled message
    judged tokens encoded
  rcases fits with none | fits
  · rw [none] at left
    exact absurd left (Nat.not_lt_zero _)
  · exact fits request (List.mem_of_getElem? located) rendered spelled _ _ present row.2 message
      judged tokens encoded

/-! ## Attempts -/

/-- The settled rows of a queued job: one for each attempt before it, rejected. -/
structure Refused (F : Type) [LogField F] (settled : List (WorkItem × Completion))
    (item : WorkItem) : Prop where
  counted : (settled.filter fun row => row.1.label = item.label).length = item.attempt
  rejected : ∀ row ∈ settled, row.1.label = item.label → Rejected F row

/-- What holds of the jobs that are not settled yet. -/
structure Outstanding (F : Type) [LogField F] (engine : DecisionEngine σ)
    (requests : List SystemOneRequest) (settled : List (WorkItem × Completion))
    (items : List WorkItem) : Prop where
  distinct : (items.map WorkItem.label).Nodup
  refused : ∀ item ∈ items, Refused F settled item
  owned : ∀ item ∈ items, Owned requests item
  queued : ∀ item ∈ items, engine.Queued item

theorem Refused.settle_other {settled : List (WorkItem × Completion)} {item : WorkItem}
    {row : WorkItem × Completion} (refused : Refused F settled item)
    (other : row.1.label ≠ item.label) : Refused F (settled ++ [row]) item := by
  constructor
  · simp [List.filter_append, other, refused.counted]
  · intro found member same
    rcases List.mem_append.mp member with earlier | last
    · exact refused.rejected found earlier same
    · rw [List.mem_singleton.mp last] at same
      exact absurd same other

theorem Refused.settle_rejected {settled : List (WorkItem × Completion)} {next : WorkItem}
    {row : WorkItem × Completion} (refused : Refused F settled row.1) (rejected : Rejected F row)
    (same : next.label = row.1.label) (numbered : next.attempt = row.1.attempt + 1) :
    Refused F (settled ++ [row]) next := by
  constructor
  · simp [List.filter_append, same, refused.counted, numbered]
  · intro found member known
    rcases List.mem_append.mp member with earlier | last
    · exact refused.rejected found earlier (known.trans same)
    · rw [List.mem_singleton.mp last]
      exact rejected

theorem Outstanding.settle {settled : List (WorkItem × Completion)}
    {row : WorkItem × Completion} {items : List WorkItem}
    (outstanding : Outstanding F engine requests settled (row.1 :: items)) :
    Outstanding F engine requests (settled ++ [row]) items := by
  obtain ⟨distinct, refused, owned, queued⟩ := outstanding
  rw [List.map_cons, List.nodup_cons] at distinct
  refine ⟨distinct.2, ?_, fun item member => owned item (List.mem_cons_of_mem _ member),
    fun item member => queued item (List.mem_cons_of_mem _ member)⟩
  intro item member
  refine (refused item (List.mem_cons_of_mem _ member)).settle_other fun same => ?_
  exact distinct.1 (List.mem_map.mpr ⟨item, member, same.symm⟩)

theorem Outstanding.repair {settled : List (WorkItem × Completion)}
    {row : WorkItem × Completion} {items : List WorkItem} {next : WorkItem}
    (outstanding : Outstanding F engine requests settled (row.1 :: items))
    (retried : (policy F engine states fun _ _ => True).retries row.1 row.2 next) :
    Outstanding F engine requests (settled ++ [row]) (items ++ [next]) := by
  obtain ⟨distinct, refused, owned, queued⟩ := outstanding.settle
  have label := policy_label retried
  have numbered := (policy_attempt retried).1
  have rejected : Rejected F row := by
    obtain ⟨_, message, _, judged, _⟩ := retried
    exact ⟨message, judged⟩
  have fresh := outstanding.distinct
  rw [List.map_cons, List.nodup_cons] at fresh
  have last {holds : WorkItem → Prop} (kept : ∀ item ∈ items, holds item) (new : holds next) :
      ∀ item ∈ items ++ [next], holds item :=
    List.forall_mem_append.mpr ⟨kept, List.forall_mem_singleton.mpr new⟩
  constructor
  · rw [List.map_append, List.nodup_append]
    refine ⟨distinct, List.nodup_singleton _, ?_⟩
    intro left member right single same
    rw [List.map_singleton, List.mem_singleton, label] at single
    exact fresh.1 (single ▸ same ▸ member)
  · have first := outstanding.refused row.1 List.mem_cons_self
    exact last refused (first.settle_rejected rejected label numbered)
  · exact last owned ((outstanding.owned row.1 List.mem_cons_self).retried retried)
  · exact last queued (Queued.of_retry retried)

/-! ## Where every repair fits -/

section Fitting

variable {progress : Progress F} {world : World σ} {settled : List (WorkItem × Completion)}

/-- The last settled row of a job without a retry left exhausts its question. -/
theorem Outstanding.exhausted {row : WorkItem × Completion} {items : List WorkItem}
    {rest : List (WorkItem × Completion)}
    (outstanding : Outstanding F engine requests settled (row.1 :: items))
    (later : ∀ found ∈ rest, found.1 ∈ items) (rejected : Rejected F row)
    (spent : engine.config.validationRetries ≤ row.1.attempt) :
    Exhausted F engine requests (settled ++ row :: rest) := by
  obtain ⟨distinct, refused, owned, queued⟩ := outstanding
  rw [List.map_cons, List.nodup_cons] at distinct
  have others : ∀ found ∈ rest, found.1.label ≠ row.1.label := by
    intro found member same
    exact distinct.1 (List.mem_map.mpr ⟨found.1, later found member, same⟩)
  have first := refused row.1 List.mem_cons_self
  have attempts := (queued row.1 List.mem_cons_self).attempts
  obtain ⟨request, located, present⟩ := owned row.1 List.mem_cons_self
  refine ⟨row.1.requestIndex, request, row.1.questionId, row.1.question, located, present, ?_, ?_⟩
  · have none : rest.filter (fun found => found.1.label = row.1.label) = [] := by
      apply List.filter_eq_nil_iff.mpr
      intro found member
      simpa using others found member
    have counted := first.counted
    change (List.filter (fun found : WorkItem × Completion => found.1.label = row.1.label)
      (settled ++ row :: rest)).length = _
    rw [List.filter_append, List.filter_cons_of_pos (by simp), none, List.length_append, counted,
      List.length_singleton, Nat.le_antisymm attempts spent]
  · intro found member same
    rcases List.mem_append.mp member with earlier | member
    · exact first.rejected found earlier same
    · rcases List.mem_cons.mp member with rfl | member
      · exact rejected
      · exact absurd same (others found member)

private theorem settle_faults {row : WorkItem × Completion}
    (fits : engine.RepairFits F requests row)
    (shapes : List.Forall₂ (fun request state =>
      dumpsOrRaise .default request.state.value = .ok state) requests states)
    (covers : Covers states requests.length progress)
    {items : List WorkItem} {rest : List (WorkItem × Completion)}
    (outstanding : Outstanding F engine requests settled (row.1 :: items))
    (history : world.history = settled ++ row :: rest) (later : ∀ found ∈ rest, found.1 ∈ items) :
    Run.Stops (Fault F engine requests) (engine.settle states progress row) world := by
  obtain ⟨request, located, present⟩ := outstanding.owned row.1 List.mem_cons_self
  have inside := (List.getElem?_eq_some_iff.mp located).1
  have exhausted := outstanding.exhausted later
  obtain ⟨item, completion⟩ := row
  unfold settle
  refine .bind (at?_stops (covers.usage ▸ inside)) fun used after charged => ?_
  obtain ⟨_, rfl⟩ := Run.lift_ok charged
  dsimp only
  cases judged : judge (F := F) item.question completion with
  | ok answer => exact .bind (at?_stops (covers.answers ▸ inside)) fun found after _ => .pure _
  | error error =>
      obtain ⟨message, _, rfl⟩ := judge_refused judged
      dsimp only
      split
      · rename_i spent
        exact .raise (.exhausted (history ▸ exhausted ⟨message, judged⟩ spent))
      rename_i left
      refine .bind (at?_stops (covers.states ▸ inside)) fun state after found => ?_
      obtain ⟨looked, rfl⟩ := Run.lift_ok found
      refine .bind (job_stops ?_ ?_) fun repair after _ => .pure _
      · intro prompt error last _ calls
        exact .runtime ⟨_, _, error, calls, rfl, rfl⟩
      · intro draft reason last drafts exceeds _
        exfalso
        apply exceeds
        obtain ⟨rendered, renderedFound, spelled⟩ := forall₂_getElem? shapes located
        cases (at?_ok looked).symm.trans renderedFound
        have room := fits (Nat.lt_of_not_le left) request located present state spelled message
          judged draft.tokenIds drafts.tokens
        rw [← drafts.output] at room
        exact room

private theorem settleAll_faults {rows : List (WorkItem × Completion)}
    (fits : ∀ row ∈ rows, engine.RepairFits F requests row)
    (shapes : List.Forall₂ (fun request state =>
      dumpsOrRaise .default request.state.value = .ok state) requests states)
    (covers : Covers states requests.length progress)
    (outstanding : Outstanding F engine requests settled (rows.map Prod.fst ++ progress.pending))
    (history : world.history = settled ++ rows) :
    Run.Stops (Fault F engine requests) (engine.settleAll states rows progress) world ∧
      ∀ next after, engine.settleAll states rows progress world = (.ok next, after) →
        Outstanding F engine requests after.history next.pending := by
  induction rows generalizing progress world settled with
  | nil =>
      refine ⟨.pure _, fun next after success => ?_⟩
      obtain ⟨rfl, rfl⟩ := Run.pure_ok success
      rw [history, List.append_nil]
      exact outstanding
  | cons row rest ih =>
      rw [List.map_cons, List.cons_append] at outstanding
      have later : ∀ found ∈ rest, found.1 ∈ rest.map Prod.fst ++ progress.pending :=
        fun found member => List.mem_append_left _ (List.mem_map_of_mem member)
      have head := settle_faults (fits row List.mem_cons_self) shapes covers outstanding history
        later
      have tail : ∀ middle after, engine.settle states progress row world = (.ok middle, after) →
          Run.Stops (Fault F engine requests) (engine.settleAll states rest middle) after ∧
            ∀ next last, engine.settleAll states rest middle after = (.ok next, last) →
              Outstanding F engine requests last.history next.pending := by
        intro middle after success
        obtain ⟨same, _, _, step⟩ :=
          @settle_ok σ F _ engine states (fun _ _ => True) progress middle row world after trivial
            success
        have grown : after.history = (settled ++ [row]) ++ rest := by
          rw [same, history, List.append_assoc]
          rfl
        refine ih (fun other member => fits other (List.mem_cons_of_mem _ member))
          (settle_covers covers success) ?_ grown
        rcases step with ⟨_, kept⟩ | ⟨repair, retried, appended⟩
        · rw [kept]
          exact outstanding.settle
        · rw [appended, ← List.append_assoc]
          exact outstanding.repair retried
      refine ⟨.bind head fun middle after success => (tail middle after success).1, ?_⟩
      intro next last success
      obtain ⟨middle, after, first, success⟩ := Run.bind_ok success
      exact (tail middle after first).2 next last success

private theorem round_faults (fits : engine.OwnRepairsFit F requests)
    (shapes : List.Forall₂ (fun request state =>
      dumpsOrRaise .default request.state.value = .ok state) requests states)
    (covers : Covers states requests.length progress)
    (outstanding : Outstanding F engine requests world.history progress.pending) :
    Run.Stops (Fault F engine requests) (engine.round states progress) world ∧
      ∀ next after, engine.round states progress world = (.ok next, after) →
        Outstanding F engine requests after.history next.pending := by
  unfold round
  cases cut : takeBatch engine.config 0 0 progress.pending with
  | mk batch rest =>
      have whole := takeBatch_append engine.config 0 0 progress.pending
      rw [cut] at whole
      dsimp only at whole ⊢
      have settling : ∀ (completions : List Completion) (middle : World σ),
          engine.generate batch world = (.ok completions, middle) →
          completions.length = batch.length → ∀ stats : RunStats,
          Run.Stops (Fault F engine requests) (engine.settleAll states (batch.zip completions)
              { progress with pending := rest, stats := stats }) middle ∧
            ∀ next after, engine.settleAll states (batch.zip completions)
                { progress with pending := rest, stats := stats } middle = (.ok next, after) →
              Outstanding F engine requests after.history next.pending := by
        intro completions middle generated lengths stats
        obtain ⟨returned, history⟩ := generate_ok generated
        refine settleAll_faults (fits batch world.state completions returned) shapes ⟨covers.states, covers.answers, covers.usage⟩ ?_ history
        rw [List.map_fst_zip (Nat.le_of_eq lengths.symm), whole]
        exact outstanding
      constructor
      · refine .bind (generate_stops fun error after _ calls => ?_) fun completions middle ran => ?_
        · exact .runtime ⟨_, _, error, calls, rfl, rfl⟩
        · split
          · rename_i lengths
            exact (settling completions middle ran lengths _).1
          · rename_i lengths
            obtain ⟨returned, _, same, calls⟩ := generate_outcome ran
            cases returned with
            | error error => cases same
            | ok found =>
                cases same
                exact .raise (.miscounted calls lengths)
      · intro next after success
        obtain ⟨completions, middle, ran, success⟩ := Run.bind_ok success
        split at success
        · rename_i lengths
          exact (settling completions middle ran lengths _).2 next after success
        · exact absurd success Run.raise_not_ok

end Fitting

/-! ## Before generation -/

private theorem nodup_of_filter {Item Label : Type} [DecidableEq Label] {label : Item → Label}
    {items : List Item} (single : ∀ item ∈ items,
      ∃ found, items.filter (fun other => label other = label item) = [found]) :
    (items.map label).Nodup := by
  induction items with
  | nil => exact List.nodup_nil
  | cons head rest ih =>
      have alone : ∀ item ∈ rest, label item ≠ label head := by
        obtain ⟨found, shape⟩ := single head List.mem_cons_self
        rw [List.filter_cons_of_pos (by simp), List.cons.injEq] at shape
        intro item member same
        exact absurd (decide_eq_true same) (List.filter_eq_nil_iff.mp shape.2 item member)
      rw [List.map_cons, List.nodup_cons]
      constructor
      · intro member
        obtain ⟨item, present, same⟩ := List.mem_map.mp member
        exact alone item present same
      · refine ih fun item member => ?_
        obtain ⟨found, shape⟩ := single item (List.mem_cons_of_mem _ member)
        rw [List.filter_cons_of_neg (by simpa using (alone item member).symm)] at shape
        exact ⟨found, shape⟩

theorem encode_keeps {prompt : List Message} {world : World σ} :
    Run.Keeps World.generated (engine.encode prompt) world := by
  intro result after ran
  unfold encode at ran
  cases ran
  simp [World.generated, World.batches, World.history, RuntimeCall.rows]

theorem job_keeps {index attempt : Nat} {key state : Str} {question : Question}
    {correction : Option String} {world : World σ} :
    Run.Keeps World.generated (engine.job index key state question attempt correction) world := by
  unfold job
  refine .bind (.lift _) fun prompt after => .bind encode_keeps fun tokens last => ?_
  dsimp only
  split
  · exact .raise _
  · split
    · exact .raise _
    · exact .pure _

theorem prepare_keeps {world : World σ} :
    Run.Keeps World.generated (engine.prepare (F := F) requests) world := by
  unfold prepare
  split
  · exact .raise _
  split
  · exact .raise _
  refine .bind (.lift _) fun states after => .bind (.mapM fun entry before => ?_)
    fun queues last => .pure _
  exact .mapM fun question middle => job_keeps

theorem prepare_silent {world : World σ} : Run.Silent (engine.prepare (F := F) requests) world :=
  fun result after ran => congrArg Prod.fst (prepare_keeps result after ran)

theorem Starts.distinct {pending : List WorkItem} (starts : Starts engine requests states pending) :
    (pending.map WorkItem.label).Nodup := by
  refine nodup_of_filter fun item member => ?_
  obtain ⟨request, state, question, located, stateFound, present, _⟩ := starts.sound item member
  obtain ⟨found, single, _⟩ :=
    starts.complete _ request state _ question located stateFound present
  exact ⟨found, single⟩

theorem Starts.outstanding {pending : List WorkItem}
    (starts : Starts engine requests states pending) :
    Outstanding F engine requests [] pending := by
  refine ⟨Starts.distinct starts, ?_, ?_, Starts.queued starts⟩
  · intro item member
    obtain ⟨_, _, _, _, _, _, builds⟩ := starts.sound item member
    exact ⟨builds.numbered.symm, fun row none => by cases none⟩
  · intro item member
    obtain ⟨request, _, question, located, _, present, builds⟩ := starts.sound item member
    exact ⟨request, located, builds.sameQuestion ▸ present⟩

/-- Where repairs fit, a run that has started generating stops only with a fault. -/
theorem evaluate_faults (fits : engine.OwnRepairsFit F requests) {start : σ} {reason : Halt} {world : World σ}
    (failed : engine.evaluate (F := F) requests start = (.error reason, world))
    (started : world.Started) : Fault F engine requests reason world := by
  have stops : Run.Stops (fun reason world => world.Started → Fault F engine requests reason world)
      (engine.evaluateRun (F := F) requests) ⟨start, []⟩ := by
    refine .bind (fun reason after failure begun => ?_) fun prepared after ready => ?_
    · exact absurd (prepare_silent _ _ failure) begun
    obtain ⟨states, initial⟩ := prepared
    obtain ⟨history, shapes, answers, usage, starts⟩ := prepare_ok ready
    refine .bind (fun reason last failure _ => ?_) fun final last ran => ?_
    · have covers : Covers states requests.length initial :=
        ⟨starts.stateCount, by rw [answers, List.length_map], by rw [usage, List.length_map]⟩
      have fresh : Outstanding F engine requests after.history initial.pending := by
        rw [show after.history = [] from history]
        exact Starts.outstanding starts
      let invariant : Progress F → World σ → Prop := fun progress world =>
        Covers states requests.length progress ∧
          Outstanding F engine requests world.history progress.pending
      have queue : ∀ progress world, invariant progress world →
          ∀ item ∈ progress.pending, engine.Queued item :=
        fun progress world held => held.2.queued
      have loop : Run.Stops (Fault F engine requests)
          (engine.generateLoop states (engine.attemptBudget requests) initial) after := by
        refine generateLoop_stops queue ?_ ⟨covers, fresh⟩ (Starts.enough starts)
        intro progress world held nonempty
        obtain ⟨faults, kept⟩ := round_faults fits shapes held.1 held.2
        refine ⟨faults, fun next after ran => ⟨⟨round_covers held.1 ran, kept next after ran⟩, ?_⟩⟩
        exact (round_queue (fun _ _ _ _ _ => trivial) produces_any ran nonempty
          fun item member => ⟨trivial, held.2.queued item member⟩).2
      exact loop reason last failure
    · obtain ⟨responses, built⟩ := responses_total ready ran
      rw [built]
      exact .bind (.lift fun error failure => by cases failure) fun found after _ => .pure _
  exact stops reason world failed started

theorem Enforced.of_faults {start : σ}
    (faults : ∀ reason world, engine.evaluate (F := F) requests start = (.error reason, world) →
      world.Started → Fault F engine requests reason world) :
    Enforced F engine requests start := by
  refine ⟨fun reason world failed budget unraised started => ?_, faults⟩
  cases faults reason world failed started with
  | runtime raised => exact unraised raised
  | miscounted => cases budget
  | exhausted => cases budget

/-- A runtime whose own completions call for no repair over a budget has the budgets
enforced, whatever others would do. -/
theorem budgets_enforced_of_own (fits : engine.OwnRepairsFit F requests) (start : σ) :
    Enforced F engine requests start :=
  .of_faults fun _ _ failed started => evaluate_faults fits failed started

/-! ## Where a repair does not fit -/

/-- The run stops on the engine's own budget error after it has generated. -/
def Overruns {α : Type} (run : Run σ α) (world : World σ) : Prop :=
  ∃ reason after, run world = (.error reason, after) ∧ BudgetError reason ∧
    ¬ after.Raised reason ∧ after.Started

theorem Overruns.first {α β : Type} {first : Run σ α} {second : α → Run σ β} {world : World σ}
    (overruns : Overruns first world) : Overruns (first >>= second) world := by
  obtain ⟨reason, after, stopped, known⟩ := overruns
  refine ⟨reason, after, ?_, known⟩
  change Run.next first second world = _
  rw [Run.next, stopped]

theorem Overruns.later {α β : Type} {first : Run σ α} {second : α → Run σ β}
    {world after : World σ} {value : α} (ran : first world = (.ok value, after))
    (overruns : Overruns (second value) after) : Overruns (first >>= second) world := by
  obtain ⟨reason, last, stopped, known⟩ := overruns
  refine ⟨reason, last, ?_, known⟩
  change Run.next first second world = _
  rw [Run.next, ran]
  exact stopped

theorem job_overruns {index attempt : Nat} {key state : Str} {question : Question}
    {correction : Option String} {world : World σ} {prompt : List Message} {tokens : List Int}
    (rendered : messages state question (correction.map lit) = .ok prompt)
    (encoded : (engine.runtime.encode prompt world.state).1 = .ok tokens)
    (exceeds : ¬ (tokens.length + engine.config.outputTokens ≤ engine.config.maxModelLen ∧
      tokens.length + engine.config.outputTokens ≤ engine.config.maxBatchTokens))
    (started : world.Started) :
    Overruns (engine.job index key state question attempt correction) world := by
  have ran : engine.encode prompt world = (.ok tokens,
      ⟨(engine.runtime.encode prompt world.state).2,
        world.calls ++ [.encode prompt (.ok tokens)]⟩) := by
    unfold encode
    cases outcome : engine.runtime.encode prompt world.state with
    | mk result after =>
        rw [outcome] at encoded
        cases encoded
        rfl
  have unraised : ∀ (reason : Halt) (after : σ),
      ¬ World.Raised reason ⟨after, world.calls ++ [.encode prompt (.ok tokens)]⟩ := by
    intro reason after given
    obtain ⟨earlier, call, error, calls, raises, _⟩ := given
    cases (List.append_inj_right' calls rfl)
    cases raises
  have begun : ∀ after : σ,
      World.Started ⟨after, world.calls ++ [.encode prompt (.ok tokens)]⟩ := by
    intro after
    simpa [World.Started, World.batches] using started
  unfold job
  rw [rendered]
  refine .later rfl (.later ran ?_)
  dsimp only
  split
  · exact ⟨_, _, rfl, .modelLen, unraised _ _, begun _⟩
  · rename_i modelFits
    split
    · exact ⟨_, _, rfl, .batchTokens, unraised _ _, begun _⟩
    · rename_i batchFits
      exact absurd ⟨Nat.le_of_not_lt modelFits, Nat.le_of_not_lt batchFits⟩ exceeds

/-- A rejected row whose repair does not fit, as the runtime then stands. -/
def Fatal (F : Type) [LogField F] (engine : DecisionEngine σ) (states : List Str) (before : σ)
    (row : WorkItem × Completion) : Prop :=
  ∃ message state prompt tokens,
    judge (F := F) row.1.question row.2 = .error (.invalidOutput message) ∧
    row.1.attempt < engine.config.validationRetries ∧
    states[row.1.requestIndex]? = some state ∧
    messages state row.1.question (some (lit message)) = .ok prompt ∧
    (engine.runtime.encode prompt before).1 = .ok tokens ∧
    ¬ (tokens.length + engine.config.outputTokens ≤ engine.config.maxModelLen ∧
      tokens.length + engine.config.outputTokens ≤ engine.config.maxBatchTokens)

def Harmless (F : Type) [LogField F] (row : WorkItem × Completion) : Prop :=
  ∃ answer : Answer F, judge row.1.question row.2 = .ok answer

section Overrunning

variable {count : Nat} {progress : Progress F} {world : World σ}

private theorem at?_run {α : Type} {items : List α} {index : Nat} (inside : index < items.length) :
    Run.lift (at? items index) world = (.ok items[index], world) := by
  rw [at?, List.getElem?_eq_getElem inside]
  rfl

theorem settle_overruns (covers : Covers states count progress) {row : WorkItem × Completion}
    (inside : row.1.requestIndex < count) (fatal : Fatal F engine states world.state row)
    (started : world.Started) : Overruns (engine.settle states progress row) world := by
  obtain ⟨message, state, prompt, tokens, judged, left, located, rendered, encoded, exceeds⟩ :=
    fatal
  obtain ⟨item, completion⟩ := row
  unfold settle
  refine .later (at?_run (covers.usage ▸ inside)) ?_
  dsimp only at judged left ⊢
  rw [judged]
  dsimp only
  rw [if_neg (Nat.not_le_of_lt left)]
  have looked : Run.lift (at? states item.requestIndex) world = (.ok state, world) := by
    rw [at?, located]
    rfl
  exact .later looked (.first (job_overruns rendered encoded exceeds started))

theorem settle_harmless (engine : DecisionEngine σ) (world : World σ)
    (covers : Covers states count progress) {row : WorkItem × Completion}
    (inside : row.1.requestIndex < count) (harmless : Harmless F row) :
    ∃ next, engine.settle states progress row world = (.ok next, world) ∧
      next.pending = progress.pending ∧ Covers states count next := by
  obtain ⟨answer, judged⟩ := harmless
  obtain ⟨item, completion⟩ := row
  have ran : ∃ next : Progress F, engine.settle states progress (item, completion) world =
      (.ok next, world) ∧ next.pending = progress.pending := by
    unfold settle
    change ∃ next, Run.next _ _ world = _ ∧ _
    dsimp only at judged
    rw [Run.next, at?_run (covers.usage ▸ inside)]
    dsimp only
    rw [judged]
    change ∃ next, Run.next _ _ world = _ ∧ _
    rw [Run.next, at?_run (covers.answers ▸ inside)]
    exact ⟨_, rfl, rfl⟩
  obtain ⟨next, ran, pending⟩ := ran
  exact ⟨next, ran, pending, settle_covers covers ran⟩

theorem settleAll_harmless (engine : DecisionEngine σ) (world : World σ)
    {rows : List (WorkItem × Completion)} (covers : Covers states count progress)
    (each : ∀ row ∈ rows, row.1.requestIndex < count ∧ Harmless F row) :
    ∃ next, engine.settleAll states rows progress world = (.ok next, world) ∧
      next.pending = progress.pending ∧ Covers states count next := by
  induction rows generalizing progress with
  | nil => exact ⟨progress, rfl, rfl, covers⟩
  | cons row rest ih =>
      obtain ⟨inside, harmless⟩ := each row List.mem_cons_self
      obtain ⟨middle, ran, pending, middleCovers⟩ :=
        settle_harmless engine world covers inside harmless
      obtain ⟨next, ranRest, pendingRest, nextCovers⟩ :=
        ih middleCovers fun found member => each found (List.mem_cons_of_mem _ member)
      refine ⟨next, ?_, pendingRest.trans pending, nextCovers⟩
      change Run.next _ _ world = _
      rw [Run.next, ran]
      exact ranRest

theorem settleAll_overruns {rows : List (WorkItem × Completion)}
    (covers : Covers states count progress)
    (each : ∀ row ∈ rows, row.1.requestIndex < count ∧
      (Harmless F row ∨ Fatal F engine states world.state row))
    (fatal : ∃ row ∈ rows, ¬ Harmless F row) (started : world.Started) :
    Overruns (engine.settleAll states rows progress) world := by
  induction rows generalizing progress with
  | nil =>
      obtain ⟨row, none, _⟩ := fatal
      cases none
  | cons row rest ih =>
      obtain ⟨inside, harmless | deadly⟩ := each row List.mem_cons_self
      · obtain ⟨middle, ran, _, middleCovers⟩ :=
          settle_harmless engine world covers inside harmless
        refine .later ran (ih middleCovers
          (fun found member => each found (List.mem_cons_of_mem _ member)) ?_)
        obtain ⟨found, member, known⟩ := fatal
        rcases List.mem_cons.mp member with rfl | member
        · exact absurd harmless known
        · exact ⟨found, member, known⟩
      · exact .first (settle_overruns covers inside deadly started)

/-- A runtime that answers each job by itself and is left in one state. -/
structure Replies (engine : DecisionEngine σ) (reply : WorkItem → Completion) (left : σ) :
    Prop where
  generates : ∀ jobs before, engine.runtime.generate jobs before = (.ok (jobs.map reply), left)

variable {reply : WorkItem → Completion} {left : σ}

private theorem zip_reply (batch : List WorkItem) :
    batch.zip (batch.map reply) = batch.map fun item => (item, reply item) := by
  induction batch with
  | nil => rfl
  | cons item rest ih => rw [List.map_cons, List.zip_cons_cons, ih, List.map_cons]

private theorem round_replies (world : World σ) (replies : engine.Replies reply left)
    (covers : Covers states count progress)
    (each : ∀ item ∈ progress.pending, engine.Queued item ∧ item.requestIndex < count ∧
      (Harmless F (item, reply item) ∨ Fatal F engine states left (item, reply item)))
    (nonempty : progress.pending ≠ []) :
    Overruns (engine.round states progress) world ∨ ∃ next after batch,
      engine.round states progress world = (.ok next, after) ∧ Covers states count next ∧
        batch ≠ [] ∧ progress.pending = batch ++ next.pending ∧
        ∀ item ∈ batch, Harmless F (item, reply item) := by
  obtain ⟨job, others, shape⟩ := List.exists_cons_of_ne_nil nonempty
  have taken := takeBatch_ne_nil others (each job (shape ▸ List.mem_cons_self)).1
  have whole := takeBatch_append engine.config 0 0 progress.pending
  rw [← shape] at taken
  unfold round
  cases cut : takeBatch engine.config 0 0 progress.pending with
  | mk batch rest =>
      rw [cut] at whole taken
      dsimp only at whole taken ⊢
      let answered : World σ := ⟨left, world.calls ++ [.generate batch (.ok (batch.map reply))]⟩
      have generated : engine.generate batch world = (.ok (batch.map reply), answered) := by
        unfold generate
        rw [replies.generates]
        rfl
      have started : answered.Started := by simp [answered, World.Started, World.batches]
      have known : ∀ row ∈ batch.map (fun item => (item, reply item)),
          row.1.requestIndex < count ∧
            (Harmless F row ∨ Fatal F engine states left row) := by
        intro row member
        obtain ⟨item, present, rfl⟩ := List.mem_map.mp member
        exact (each item (whole ▸ List.mem_append_left _ present)).2
      have cleared : ∀ stats : RunStats,
          Covers states count { progress with pending := rest, stats := stats } :=
        fun stats => ⟨covers.states, covers.answers, covers.usage⟩
      by_cases calm : ∀ row ∈ batch.map (fun item => (item, reply item)), Harmless F row
      · obtain ⟨next, ran, pending, nextCovers⟩ := settleAll_harmless engine answered
          (cleared _) fun row member => ⟨(known row member).1, calm row member⟩
        refine .inr ⟨next, answered, batch, ?_, nextCovers, taken, ?_, fun item member =>
          calm _ (List.mem_map_of_mem member)⟩
        · change Run.next _ _ world = _
          rw [Run.next, generated]
          dsimp only
          rw [if_pos (List.length_map ..), zip_reply]
          exact ran
        · rw [pending, whole]
      · push Not at calm
        refine .inl (.later generated ?_)
        rw [if_pos (List.length_map ..), zip_reply]
        exact settleAll_overruns (cleared _) known calm started

/-- With such a runtime the loop answers questions until it meets a fatal one. -/
theorem generateLoop_overruns (replies : engine.Replies reply left) {fuel : Nat}
    (covers : Covers states count progress)
    (each : ∀ item ∈ progress.pending, engine.Queued item ∧ item.requestIndex < count ∧
      (Harmless F (item, reply item) ∨ Fatal F engine states left (item, reply item)))
    (fatal : ∃ item ∈ progress.pending, ¬ Harmless F (item, reply item))
    (enough : progress.pending.length ≤ fuel) :
    Overruns (engine.generateLoop states fuel progress) world := by
  induction fuel generalizing progress world with
  | zero =>
      obtain ⟨item, member, _⟩ := fatal
      rw [List.length_eq_zero_iff.mp (Nat.le_zero.mp enough)] at member
      cases member
  | succ fuel ih =>
      obtain ⟨item, member, deadly⟩ := fatal
      have nonempty := List.ne_nil_of_mem member
      unfold generateLoop
      rw [if_neg (by simpa using nonempty)]
      rcases round_replies world replies covers each nonempty with
        overruns | ⟨next, after, batch, ran, nextCovers, taken, split, calm⟩
      · exact .first overruns
      · have positive := List.length_pos_iff.mpr taken
        rw [split] at each member enough
        rw [List.length_append] at enough
        refine .later ran (ih nextCovers
          (fun found present => each found (List.mem_append_right _ present)) ⟨item, ?_, deadly⟩
          (by omega))
        rcases List.mem_append.mp member with answered | waiting
        · exact absurd (calm item answered) deadly
        · exact waiting

end Overrunning

/-! ## When the budgets are enforced -/

/-- The engine with another `generate` of its runtime. -/
def generating (engine : DecisionEngine σ)
    (generate : List WorkItem → σ → Except PyException (List Completion) × σ) :
    DecisionEngine σ :=
  { engine with runtime := { engine.runtime with generate := generate } }

theorem prepare_generating
    (generate : List WorkItem → σ → Except PyException (List Completion) × σ) :
    (engine.generating generate).prepare (F := F) requests = engine.prepare requests := rfl

theorem acceptable_completion (F : Type) [LogField F] (question : Question) :
    ∃ completion, ∃ answer : Answer F, judge question completion = .ok answer := by
  obtain ⟨text, answer, accepted⟩ := Question.answerable (F := F) question
  exact ⟨⟨text, 0, lit "stop"⟩, answer, judge_ok_iff.mpr ⟨rfl, accepted⟩⟩

/-- A repair that does not fit can be provoked by what the runtime generates. -/
theorem exists_overrun {start : σ} {initial : Progress F} {middle : World σ}
    (ready : engine.prepare requests ⟨start, []⟩ = (.ok (states, initial), middle))
    (retries : engine.config.validationRetries ≠ 0) (tight : ¬ engine.RepairsFit F requests) :
    ∃ generate,
      Overruns ((engine.generating generate).evaluateRun (F := F) requests) ⟨start, []⟩ := by
  unfold RepairsFit at tight
  push Not at tight
  obtain ⟨request, requestMember, state, spelled, key, question, present, completion, message,
    judged, tokens, ⟨prompt, left, rendered, encoded⟩, exceeds⟩ := tight
  obtain ⟨index, located⟩ := List.getElem?_of_mem requestMember
  choose accepted known using acceptable_completion F
  let reply : WorkItem → Completion := fun item =>
    if item.label = (index, key) then completion else accepted item.question
  refine ⟨fun jobs _ => (.ok (jobs.map reply), left), ?_⟩
  let provoked := engine.generating fun jobs _ => (.ok (jobs.map reply), left)
  have provokedReady : provoked.prepare requests ⟨start, []⟩ =
      (.ok (states, initial), middle) := ready
  obtain ⟨_, shapes, answers, usage, starts⟩ := prepare_ok provokedReady
  obtain ⟨found, stateFound, foundSpelled⟩ := forall₂_getElem? shapes located
  cases spelled.symm.trans foundSpelled
  have target : ∀ item ∈ initial.pending, item.label = (index, key) →
      item.question = question ∧ item.requestIndex = index ∧ reply item = completion := by
    intro item member same
    obtain ⟨owner, _, asked, ownerFound, _, askedMember, builds⟩ := starts.sound item member
    obtain ⟨rfl, rfl⟩ := Prod.mk.inj same
    cases located.symm.trans ownerFound
    have first := Dict.get?_eq_some_iff.mpr askedMember
    have second := Dict.get?_eq_some_iff.mpr present
    refine ⟨?_, rfl, if_pos rfl⟩
    rw [builds.sameQuestion]
    exact Option.some.inj (first.symm.trans second)
  refine .later provokedReady (.first ?_)
  have replies : provoked.Replies reply left := ⟨fun _ _ => rfl⟩
  refine generateLoop_overruns replies
    ⟨starts.stateCount, by rw [answers, List.length_map], by rw [usage, List.length_map]⟩ ?_ ?_ ?_
  · intro item member
    obtain ⟨owner, _, asked, ownerFound, _, _, builds⟩ := starts.sound item member
    refine ⟨Starts.queued starts item member, (List.getElem?_eq_some_iff.mp ownerFound).1, ?_⟩
    by_cases same : item.label = (index, key)
    · obtain ⟨sameQuestion, sameIndex, replied⟩ := target item member same
      refine .inr ⟨message, state, prompt, tokens, ?_, ?_, ?_, ?_, encoded, fun room => ?_⟩
      · rw [sameQuestion, replied]
        exact judged
      · rw [builds.numbered]
        exact Nat.pos_of_ne_zero retries
      · rw [sameIndex]
        exact stateFound
      · rw [sameQuestion]
        exact rendered
      · exact absurd room.2 (Nat.not_le_of_lt (exceeds room.1))
    · refine .inl ?_
      obtain ⟨answer, judgedOk⟩ := known item.question
      refine ⟨answer, ?_⟩
      rw [show reply item = accepted item.question from if_neg same]
      exact judgedOk
  · obtain ⟨item, single, builds⟩ :=
      starts.complete index request state key question located stateFound present
    have itemMember := List.mem_filter.mp (single ▸ List.mem_singleton_self item)
    obtain ⟨sameQuestion, _, replied⟩ := target item itemMember.1 (of_decide_eq_true itemMember.2)
    refine ⟨item, itemMember.1, ?_⟩
    intro given
    obtain ⟨answer, judgedOk⟩ := given
    rw [sameQuestion, replied, judged] at judgedOk
    cases judgedOk
  · rw [starts.jobCount]
    exact Nat.le_mul_of_pos_right _ (Nat.succ_pos _)

/-- Whatever the runtime generates, the token budgets are enforced before any
model work, and a started run fails only with a fault, exactly where the queue
is never prepared, nothing is retried, or every repair fits both budgets. -/
theorem budgets_enforced_iff (engine : DecisionEngine σ) (requests : List SystemOneRequest)
    (start : σ) :
    (∀ generate, Enforced F (engine.generating generate) requests start) ↔
      (∃ reason world, engine.prepare (F := F) requests ⟨start, []⟩ = (.error reason, world)) ∨
        engine.config.validationRetries = 0 ∨ engine.RepairsFit F requests := by
  constructor
  · intro enforced
    by_contra unmet
    push Not at unmet
    obtain ⟨prepared, retries, tight⟩ := unmet
    cases ready : engine.prepare (F := F) requests ⟨start, []⟩ with
    | mk result middle =>
        cases result with
        | error reason => exact prepared reason middle ready
        | ok value =>
            obtain ⟨generate, reason, world, failed, budget, unraised, started⟩ :=
              exists_overrun ready retries tight
            exact (enforced generate).budgets reason world failed budget unraised started
  · intro condition generate
    rcases condition with ⟨found, after, unprepared⟩ | fits
    · refine .of_faults fun reason world failed started => ?_
      rcases Run.bind_outcome failed with ⟨_, stopped, _⟩ | ⟨value, middle, ready, _⟩
      · exact absurd (prepare_silent _ _ stopped) started
      · rw [prepare_generating, unprepared] at ready
        cases ready
    · have room : (engine.generating generate).config.validationRetries = 0 ∨
          (engine.generating generate).RepairsFit F requests := fits
      exact budgets_enforced_of_own (RepairsFit.own room) start

/-! A runtime with one token for each character, whose completions are never JSON. -/

def characterTokens (prompt : List Message) : List Int :=
  prompt.flatMap fun message =>
    match message.content with
    | .text text => text.map Int.ofNat
    | .parts _ => []

def tightEngine : DecisionEngine Unit where
  runtime.encode prompt state := (.ok (characterTokens prompt), state)
  runtime.generate jobs state := (.ok (jobs.map fun _ => ⟨lit "x", ⟨2, 3⟩, lit "stop"⟩), state)
  model := lit "m"
  config :=
    { sampleConfig 32 default_range with
      maxModelLen := 850
      outputTokens := 256
      modelLenRange := by decide
      outputTokensRange := by decide }

theorem budgets_enforced_repair :
    ∃ world, tightEngine.evaluate (F := ℝ) [noulRequest (lit "s")] () =
        (.error (.raised
          (.valueError "Decision prompt plus output budget exceeds max_model_len")), world) ∧
      (∀ call ∈ world.calls, ∀ error, ¬ call.Raises error) ∧ world.Started := by
  have ended : (tightEngine.evaluate (F := ℝ) [noulRequest (lit "s")] ()).1.map (fun _ => ()) =
      .error (.raised
        (.valueError "Decision prompt plus output budget exceeds max_model_len")) := by
    decide +kernel
  have returned : (tightEngine.evaluate (F := ℝ) [noulRequest (lit "s")] ()).2.calls.all
      RuntimeCall.returned = true := by decide +kernel
  have started : (tightEngine.evaluate (F := ℝ) [noulRequest (lit "s")] ()).2.batches ≠ [] := by
    decide +kernel
  generalize tightEngine.evaluate (F := ℝ) [noulRequest (lit "s")] () = outcome at *
  obtain ⟨result, world⟩ := outcome
  cases error_of_map ended
  refine ⟨world, rfl, fun call member error raises => ?_, started⟩
  have fine := List.all_eq_true.mp returned call member
  cases call with
  | encode prompt result =>
      rw [show result = .error error from raises] at fine
      cases fine
  | generate jobs result =>
      rw [show result = .error error from raises] at fine
      cases fine

end DecisionEngine

end VllmVerifier.Engine
