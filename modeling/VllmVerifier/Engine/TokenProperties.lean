import VllmVerifier.Engine.PromptProperties

/-!
The tokens of a job. In a run that returns, each attempt at a question carries
what the tokenizer returned in that run for the state of its request, for the
question and for the correction of the attempt.
-/

set_option autoImplicit false

namespace VllmVerifier.Engine

open Python Worklist

/-! ## Preserved properties -/

namespace Run

variable {σ α β : Type} {holds : World σ → Prop}

/-- Whenever the run returns, the property still holds. -/
def Preserves (holds : World σ → Prop) (run : Run σ α) : Prop :=
  ∀ world value after, run world = (.ok value, after) → holds world → holds after

namespace Preserves

theorem pure (value : α) : Preserves holds (Pure.pure value : Run σ α) := by
  intro world result after ran held
  obtain ⟨_, rfl⟩ := Run.pure_ok ran
  exact held

theorem lift (computation : Except PyException α) : Preserves holds (Run.lift computation) := by
  intro world result after ran held
  obtain ⟨_, rfl⟩ := Run.lift_ok ran
  exact held

theorem raise (error : PyException) : Preserves holds (Run.raise error : Run σ α) :=
  fun _ _ _ ran _ => absurd ran Run.raise_not_ok

theorem bind {first : Run σ α} {second : α → Run σ β} (start : Preserves holds first)
    (rest : ∀ value, Preserves holds (second value)) : Preserves holds (first >>= second) := by
  intro world result after ran held
  obtain ⟨value, middle, firstRan, secondRan⟩ := Run.bind_ok ran
  exact rest value _ _ _ secondRan (start _ _ _ firstRan held)

theorem mapM {f : α → Run σ β} {items : List α} (each : ∀ item, Preserves holds (f item)) :
    Preserves holds (items.mapM f) := by
  induction items with
  | nil =>
      rw [List.mapM_nil]
      exact pure _
  | cons item rest ih =>
      rw [List.mapM_cons]
      exact bind (each item) fun head => bind ih fun tail => pure _

end Preserves

end Run

namespace DecisionEngine

variable {σ F : Type} [LogField F] {engine : DecisionEngine σ} {states : List Str}
  {requests : List SystemOneRequest}

section Preserved

variable {holds : World σ → Prop}
  (encode : ∀ prompt, Run.Preserves holds (engine.encode prompt))
  (generate : ∀ batch, Run.Preserves holds (engine.generate batch))

include encode

theorem job_preserves (index : Nat) (key state : Str) (question : Question) (attempt : Nat)
    (correction : Option String) :
    Run.Preserves holds (engine.job index key state question attempt correction) := by
  unfold job
  refine .bind (.lift _) fun prompt => .bind (encode prompt) fun tokens => ?_
  dsimp only
  split
  · exact .raise _
  · split
    · exact .raise _
    · exact .pure _

theorem prepare_preserves : Run.Preserves holds (engine.prepare (F := F) requests) := by
  unfold prepare
  split
  · exact .raise _
  split
  · exact .raise _
  refine .bind (.lift _) fun states => .bind (.mapM fun entry => ?_) fun queues => .pure _
  exact .mapM fun question => job_preserves encode _ _ _ _ _ _

theorem settle_preserves (progress : Progress F) (row : WorkItem × Completion) :
    Run.Preserves holds (engine.settle states progress row) := by
  unfold settle
  refine .bind (.lift _) fun used => ?_
  dsimp only
  split
  · split
    · exact .raise _
    · refine .bind (.lift _) fun state => ?_
      exact .bind (job_preserves encode _ _ _ _ _ _) fun repair => .pure _
  · exact .raise _
  · exact .bind (.lift _) fun answers => .pure _

theorem settleAll_preserves (rows : List (WorkItem × Completion)) (progress : Progress F) :
    Run.Preserves holds (engine.settleAll states rows progress) := by
  induction rows generalizing progress with
  | nil => exact .pure _
  | cons row rest ih => exact .bind (settle_preserves encode progress row) fun next => ih next

include generate

theorem round_preserves (progress : Progress F) :
    Run.Preserves holds (engine.round states progress) := by
  refine .bind (generate _) fun completions => ?_
  split
  · exact settleAll_preserves encode _ _
  · exact .raise _

theorem generateLoop_preserves (fuel : Nat) (progress : Progress F) :
    Run.Preserves holds (engine.generateLoop states fuel progress) := by
  induction fuel generalizing progress with
  | zero =>
      unfold generateLoop
      split
      · exact .pure _
      · intro world value after ran
        cases ran
  | succ fuel ih =>
      unfold generateLoop
      split
      · exact .pure _
      · exact .bind (round_preserves encode generate progress) fun next => ih next

/-- What every call to the runtime preserves holds after a run that returns. -/
theorem evaluate_preserves {start : σ} {run : DecisionRun F} {world : World σ}
    (success : engine.evaluate requests start = (.ok run, world)) (initial : holds ⟨start, []⟩) :
    holds world := by
  have preserved : Run.Preserves holds (engine.evaluateRun (F := F) requests) := by
    refine .bind (prepare_preserves encode) fun prepared => ?_
    refine .bind (generateLoop_preserves encode generate _ _) fun final => ?_
    exact .bind (.lift _) fun responses => .pure _
  exact preserved _ _ _ success initial

end Preserved

/-! ## Recorded calls -/

theorem encode_grows {prompt : List Message} {calls : List RuntimeCall} :
    Run.Preserves (fun world => calls ⊆ world.calls) (engine.encode prompt) := by
  intro world tokens after ran inside
  unfold encode at ran
  obtain ⟨_, rfl⟩ := Prod.mk.inj ran
  exact List.subset_append_of_subset_left _ inside

theorem encode_history {prompt : List Message} {history : List (WorkItem × Completion)} :
    Run.Preserves (fun world => world.history = history) (engine.encode prompt) := by
  intro world tokens after ran same
  exact (encode_ok ran).2.trans same

theorem generate_grows {batch : List WorkItem} {calls : List RuntimeCall} :
    Run.Preserves (fun world => calls ⊆ world.calls) (engine.generate batch) := by
  intro world completions after ran inside
  unfold generate at ran
  obtain ⟨_, rfl⟩ := Prod.mk.inj ran
  exact List.subset_append_of_subset_left _ inside

/-- Among these calls the prompt of this correction was encoded, to the tokens
of the job. -/
def Carries (calls : List RuntimeCall) (state : Str) (question : Question)
    (correction : Option String) (item : WorkItem) : Prop :=
  ∃ prompt, messages state question (correction.map lit) = .ok prompt ∧
    RuntimeCall.encode prompt (.ok item.tokenIds) ∈ calls

theorem Carries.mono {calls later : List RuntimeCall} {state : Str} {question : Question}
    {correction : Option String} {item : WorkItem}
    (carries : Carries calls state question correction item) (grown : calls ⊆ later) :
    Carries later state question correction item := by
  obtain ⟨prompt, rendered, called⟩ := carries
  exact ⟨prompt, rendered, grown called⟩

theorem encode_called {prompt : List Message} {tokens : List Int} {world after : World σ}
    (success : engine.encode prompt world = (.ok tokens, after)) :
    RuntimeCall.encode prompt (.ok tokens) ∈ after.calls := by
  unfold encode at success
  cases outcome : engine.runtime.encode prompt world.state with
  | mk result state =>
      rw [outcome] at success
      cases result with
      | error error => cases success
      | ok found =>
          cases success
          exact List.mem_append_right _ List.mem_cons_self

theorem job_carries {index attempt : Nat} {key state : Str} {question : Question}
    {correction : Option String} {world after : World σ} {item : WorkItem}
    (success : engine.job index key state question attempt correction world = (.ok item, after)) :
    Carries after.calls state question correction item := by
  unfold job at success
  obtain ⟨prompt, rendered, success⟩ := Run.lift_bind_ok success
  obtain ⟨tokens, middle, encoded, success⟩ := Run.bind_ok success
  dsimp only at success
  split at success
  · exact absurd success Run.raise_not_ok
  split at success
  · exact absurd success Run.raise_not_ok
  obtain ⟨rfl, rfl⟩ := Run.pure_ok success
  exact ⟨prompt, rendered, encode_called encoded⟩

/-- The engine as a worklist whose retries carry prompts from these calls. -/
def recording (F : Type) [LogField F] (states : List Str) (calls : List RuntimeCall) :
    Policy WorkItem Completion where
  accepts item completion := ∃ answer : Answer F, judge item.question completion = .ok answer
  retries item completion next :=
    ∃ message state, judge (F := F) item.question completion = .error (.invalidOutput message) ∧
      states[item.requestIndex]? = some state ∧ next.label = item.label ∧
        next.question = item.question ∧ Carries calls state item.question (some message) next

theorem recording_label {calls : List RuntimeCall} {item next : WorkItem}
    {completion : Completion}
    (retried : (recording F states calls).retries item completion next) :
    next.label = item.label := by
  obtain ⟨_, _, _, _, label, _⟩ := retried
  exact label

theorem Advances.grown {calls later : List RuntimeCall} {pending left : List WorkItem}
    {rows : List (WorkItem × Completion)} (grown : calls ⊆ later)
    (advances : Advances (recording F states calls) pending rows left) :
    Advances (recording F states later) pending rows left := by
  refine advances.imp ?_ ?_
  · intro item completion accepted
    exact accepted
  · intro item completion next given
    obtain ⟨message, state, judged, located, label, question, carries⟩ := given
    exact ⟨message, state, judged, located, label, question, carries.mono grown⟩

theorem settle_records {progress next : Progress F} {row : WorkItem × Completion}
    {world after : World σ}
    (success : engine.settle states progress row world = (.ok next, after)) :
    ((recording F states after.calls).accepts row.1 row.2 ∧ next.pending = progress.pending) ∨
      ∃ repair, (recording F states after.calls).retries row.1 row.2 repair ∧
        next.pending = progress.pending ++ [repair] := by
  obtain ⟨item, completion⟩ := row
  unfold settle at success
  obtain ⟨used, _, success⟩ := Run.lift_bind_ok success
  dsimp only at success
  cases judged : judge (F := F) item.question completion with
  | ok answer =>
      simp only [judged] at success
      obtain ⟨answers, _, success⟩ := Run.lift_bind_ok success
      obtain ⟨rfl, rfl⟩ := Run.pure_ok success
      exact .inl ⟨⟨answer, judged⟩, rfl⟩
  | error error =>
      obtain ⟨message, _, rfl⟩ := judge_refused judged
      simp only [judged] at success
      split at success
      · exact absurd success Run.raise_not_ok
      · obtain ⟨state, located, success⟩ := Run.lift_bind_ok success
        obtain ⟨repair, middle, built, success⟩ := Run.bind_ok success
        obtain ⟨rfl, rfl⟩ := Run.pure_ok success
        obtain ⟨_, builds⟩ := job_ok built
        have label : repair.label = item.label := by
          rw [WorkItem.label, builds.requestIndex, builds.questionId]
          rfl
        exact .inr ⟨repair, ⟨message, state, judged, at?_ok located, label, builds.sameQuestion,
          job_carries built⟩, rfl⟩

theorem settleAll_records {rows : List (WorkItem × Completion)} {progress next : Progress F}
    {world after : World σ}
    (success : engine.settleAll states rows progress world = (.ok next, after)) :
    Advances (recording F states after.calls) (rows.map Prod.fst ++ progress.pending) rows
      next.pending := by
  induction rows generalizing progress world with
  | nil =>
      obtain ⟨rfl, rfl⟩ := Run.pure_ok success
      exact .start
  | cons row rest ih =>
      obtain ⟨middle, afterRow, settled, success⟩ := Run.bind_ok success
      have advances := ih success
      have grown : afterRow.calls ⊆ after.calls :=
        settleAll_preserves (fun _ => encode_grows) rest middle _ _ _ success (List.Subset.refl _)
      rcases settle_records settled with ⟨accepted, pending⟩ | ⟨repair, retried, pending⟩
      · rw [pending] at advances
        exact .finish accepted advances
      · obtain ⟨message, state, judged, located, label, question, carries⟩ := retried
        rw [pending, ← List.append_assoc] at advances
        exact .retry ⟨message, state, judged, located, label, question, carries.mono grown⟩ advances

theorem round_records {progress next : Progress F} {world after : World σ}
    (success : engine.round states progress world = (.ok next, after)) :
    ∃ rows, after.history = world.history ++ rows ∧
      Advances (recording F states after.calls) progress.pending rows next.pending := by
  obtain ⟨completions, middle, generated, settled⟩ := Run.bind_ok success
  obtain ⟨_, history⟩ := generate_ok generated
  split at settled
  · rename_i lengths
    have advances := settleAll_records settled
    rw [List.map_fst_zip (Nat.le_of_eq lengths.symm)] at advances
    dsimp only at advances
    rw [takeBatch_append] at advances
    have kept : after.history = middle.history :=
      settleAll_preserves (fun _ => encode_history) _ _ _ _ _ settled rfl
    exact ⟨_, kept.trans history, advances⟩
  · exact absurd settled Run.raise_not_ok

theorem generateLoop_records {fuel : Nat} {progress final : Progress F} {world after : World σ}
    (success : engine.generateLoop states fuel progress world = (.ok final, after)) :
    ∃ rows, after.history = world.history ++ rows ∧
      Drains (recording F states after.calls) progress.pending rows := by
  induction fuel generalizing progress world with
  | zero =>
      unfold generateLoop at success
      split at success
      · rename_i empty
        obtain ⟨rfl, rfl⟩ := Run.pure_ok success
        rw [List.isEmpty_iff.mp empty]
        exact ⟨[], (List.append_nil _).symm, .empty⟩
      · cases success
  | succ fuel ih =>
      unfold generateLoop at success
      split at success
      · rename_i empty
        obtain ⟨rfl, rfl⟩ := Run.pure_ok success
        rw [List.isEmpty_iff.mp empty]
        exact ⟨[], (List.append_nil _).symm, .empty⟩
      · obtain ⟨next, middle, ran, success⟩ := Run.bind_ok success
        have grown : middle.calls ⊆ after.calls :=
          generateLoop_preserves (fun _ => encode_grows) (fun _ => generate_grows) fuel next _ _ _
            success (List.Subset.refl _)
        obtain ⟨rows, history, advances⟩ := round_records ran
        obtain ⟨later, laterHistory, drains⟩ := ih success
        refine ⟨rows ++ later, ?_, (Advances.grown grown advances).drains drains⟩
        rw [laterHistory, history, List.append_assoc]

/-! ## The first prompts -/

private theorem mapM_records {α β : Type} {f : α → Run σ β}
    (related : List RuntimeCall → α → β → Prop)
    (grows : ∀ item calls, Run.Preserves (fun world => calls ⊆ world.calls) (f item))
    (mono : ∀ calls later item result, calls ⊆ later → related calls item result →
      related later item result)
    (each : ∀ item before result after, f item before = (.ok result, after) →
      related after.calls item result)
    {items : List α} {results : List β} {world after : World σ}
    (success : items.mapM f world = (.ok results, after)) :
    List.Forall₂ (related after.calls) items results := by
  induction items generalizing results world with
  | nil =>
      rw [List.mapM_nil] at success
      obtain ⟨rfl, _⟩ := Run.pure_ok success
      exact .nil
  | cons item rest ih =>
      rw [List.mapM_cons] at success
      obtain ⟨head, middle, first, success⟩ := Run.bind_ok success
      obtain ⟨tail, last, others, success⟩ := Run.bind_ok success
      obtain ⟨rfl, rfl⟩ := Run.pure_ok success
      have grown : middle.calls ⊆ after.calls :=
        Run.Preserves.mapM (fun found => grows found middle.calls) _ _ _ others
          (List.Subset.refl _)
      exact .cons (mono _ _ _ _ grown (each _ _ _ _ first)) (ih others)

/-- A first job of a request, with the tokens of its prompt. -/
def Opens (calls : List RuntimeCall) (index : Nat) (state : Str) (item : WorkItem) : Prop :=
  item.requestIndex = index ∧ Carries calls state item.question none item

theorem requestJobs_opens {index : Nat} {state : Str} {request : SystemOneRequest}
    {world after : World σ} {jobs : List WorkItem}
    (success : engine.requestJobs index state request world = (.ok jobs, after)) :
    ∀ item ∈ jobs, Opens after.calls index state item := by
  have opened := mapM_records (fun calls _ item => Opens calls index state item)
    (fun entry calls => job_preserves (fun _ => encode_grows) _ _ _ _ _ _)
    (fun calls later entry item grown known => ⟨known.1, known.2.mono grown⟩)
    (fun entry before item last built => ?_) success
  · intro item member
    obtain ⟨_, _, known⟩ := forall₂_mem_right opened member
    exact known
  · obtain ⟨_, builds⟩ := job_ok built
    have carries := job_carries built
    rw [← builds.sameQuestion] at carries
    exact ⟨builds.requestIndex, carries⟩

theorem prepare_opens {progress : Progress F} {world after : World σ}
    (success : engine.prepare requests world = (.ok (states, progress), after)) :
    ∀ item ∈ progress.pending, ∃ state, states[item.requestIndex]? = some state ∧
      Carries after.calls state item.question none item := by
  unfold prepare at success
  split at success
  · exact absurd success Run.raise_not_ok
  split at success
  · exact absurd success Run.raise_not_ok
  obtain ⟨rendered, _, success⟩ := Run.lift_bind_ok success
  obtain ⟨queues, middle, mapped, success⟩ := Run.bind_ok success
  obtain ⟨same, rfl⟩ := Run.pure_ok success
  cases same
  have opened := mapM_records
    (fun calls (entry : (SystemOneRequest × Str) × Nat) queue =>
      ∀ item ∈ queue, Opens calls entry.2 entry.1.2 item)
    (fun entry calls => .mapM fun question => job_preserves (fun _ => encode_grows) _ _ _ _ _ _)
    (fun calls later entry queue grown known item member =>
      ⟨(known item member).1, (known item member).2.mono grown⟩)
    (fun entry before queue last built => requestJobs_opens built) mapped
  intro item member
  obtain ⟨queue, queueMember, itemMember⟩ :=
    List.mem_flatten.mp ((roundRobin_perm queues).mem_iff.mp member)
  obtain ⟨⟨⟨request, state⟩, index⟩, entryMember, jobs⟩ := forall₂_mem_right opened queueMember
  obtain ⟨same, carries⟩ := jobs item itemMember
  obtain ⟨_, located⟩ :=
    List.getElem?_zip_eq_some.mp (List.mk_mem_zipIdx_iff_getElem?.mp entryMember)
  exact ⟨state, same ▸ located, carries⟩

/-! ## Answers -/

/-- The attempts at a question from this correction on, each with the tokens
encoded for it, and the answer that the last one was accepted with. -/
inductive Answered (F : Type) [LogField F] (calls : List RuntimeCall) (state : Str)
    (question : Question) :
    Option String → List (WorkItem × Completion) → Answer F → Prop where
  | accepted {correction : Option String} {item : WorkItem} {completion : Completion}
      {answer : Answer F} : item.question = question →
      Carries calls state question correction item → judge question completion = .ok answer →
      Answered F calls state question correction [(item, completion)] answer
  | rejected {correction : Option String} {item : WorkItem} {completion : Completion}
      {message : String} {rows : List (WorkItem × Completion)} {answer : Answer F} :
      item.question = question → Carries calls state question correction item →
      judge (F := F) question completion = .error (.invalidOutput message) →
      Answered F calls state question (some message) rows answer →
      Answered F calls state question correction ((item, completion) :: rows) answer

theorem answered_of_chain {calls : List RuntimeCall} {item : WorkItem}
    {rows : List (WorkItem × Completion)} {state : Str} {correction : Option String}
    (chain : Chain (recording F states calls) item rows)
    (located : states[item.requestIndex]? = some state)
    (carries : Carries calls state item.question correction item) :
    ∃ answer, Answered F calls state item.question correction rows answer := by
  induction chain generalizing correction with
  | finish accepted =>
      obtain ⟨answer, judged⟩ := accepted
      exact ⟨answer, .accepted rfl carries judged⟩
  | retry retried _ ih =>
      obtain ⟨message, found, judged, foundLocated, label, question, next⟩ := retried
      cases located.symm.trans foundLocated
      have index := congrArg Prod.fst label
      dsimp only [WorkItem.label] at index
      rw [question, index] at ih
      obtain ⟨answer, answered⟩ := ih located next
      exact ⟨answer, .rejected rfl carries judged answered⟩

theorem Answered.last {calls : List RuntimeCall} {state : Str} {question : Question}
    {correction : Option String} {rows : List (WorkItem × Completion)} {answer : Answer F}
    (answered : Answered F calls state question correction rows answer) :
    ∃ rejected last, rows = rejected ++ [last] ∧ judge last.1.question last.2 = .ok answer := by
  induction answered with
  | accepted same _ judged => exact ⟨[], _, rfl, same ▸ judged⟩
  | rejected _ _ _ _ ih =>
      obtain ⟨rejected, last, rfl, judged⟩ := ih
      exact ⟨_ :: rejected, last, rfl, judged⟩

/-- Each answer of a run that returns comes from attempts that carry the tokens
encoded for them. -/
theorem evaluate_answered {start : σ} {run : DecisionRun F} {world : World σ}
    (success : engine.evaluate requests start = (.ok run, world)) {index : Nat}
    {request : SystemOneRequest} (found : requests[index]? = some request) :
    ∃ state response, dumpsOrRaise .default request.state.value = .ok state ∧
      run.responses[index]? = some response ∧
      response.answers.keys = request.questions.keys ∧
      response.usage = ((world.history.filter fun row => row.1.requestIndex = index).map
        fun row => row.2.usage).sum ∧
      ∀ key question, (key, question) ∈ request.questions.entries →
        ∃ answer, response.answers.get? key = some answer ∧
          Answered F world.calls state question none
            (world.history.filter fun row => row.1.label = (index, key)) answer := by
  obtain ⟨_, _, returned⟩ := evaluate_ok produces_any success
  have paired : requests.zipIdx[index]? = some (request, index) := by
    simp [List.getElem?_zipIdx, found]
  obtain ⟨response, responded, _, keys, _, usage⟩ := forall₂_getElem? returned.responses paired
  obtain ⟨⟨states, initial⟩, middle, ready, ran⟩ := Run.bind_ok success
  obtain ⟨final, last, looped, ran⟩ := Run.bind_ok ran
  obtain ⟨responses, _, ran⟩ := Run.lift_bind_ok ran
  obtain ⟨rfl, rfl⟩ := Run.pure_ok ran
  obtain ⟨history, rendered, _, _, starts⟩ := prepare_ok ready
  obtain ⟨rows, whole, drains⟩ := generateLoop_records looped
  rw [history, show (⟨start, []⟩ : World σ).history = [] from rfl, List.nil_append] at whole
  subst whole
  have grown : middle.calls ⊆ world.calls :=
    generateLoop_preserves (fun _ => encode_grows) (fun _ => generate_grows) _ _ _ _ _ looped
      (List.Subset.refl _)
  obtain ⟨state, located, dumped⟩ := forall₂_getElem? rendered found
  refine ⟨state, response, dumped, responded, keys, usage, fun key question member => ?_⟩
  obtain ⟨item, single, builds⟩ :=
    starts.complete index request state key question found located member
  have present : item ∈ initial.pending := by
    have inside : item ∈ initial.pending.filter fun job => job.label = (index, key) := by
      rw [single]
      exact List.mem_cons_self
    exact (List.mem_filter.mp inside).1
  obtain ⟨known, knownLocated, carries⟩ := prepare_opens ready item present
  have chain := drains.chain (fun _ _ _ => recording_label) single
  obtain ⟨answer, answered⟩ := answered_of_chain chain knownLocated (carries.mono grown)
  rw [builds.requestIndex, located] at knownLocated
  cases knownLocated
  rw [builds.sameQuestion] at answered
  obtain ⟨rejected, settled, split, judged⟩ := answered.last
  exact ⟨answer, returned.answer found responded member split judged, answered⟩

end DecisionEngine

end VllmVerifier.Engine
