import VllmVerifier.Engine.ScheduleProperties

/-!
The statistics of a returning run. The counters of the loop are a tally of the
batches it asked for and of the rows it settled, and the shared prefix of a
request is the longest one that its first prompts have in common.
-/

set_option autoImplicit false

namespace VllmVerifier.Engine

open Python Worklist

/-! ## Common prefixes -/

section Prefixes

variable {α : Type}

/-- A beginning of every one of the sequences. -/
def CommonPrefix (shared : List α) (sequences : List (List α)) : Prop :=
  ∀ sequence ∈ sequences, shared <+: sequence

/-- The length of the longest prefix that the sequences have in common. -/
structure LongestCommon (length : Nat) (sequences : List (List α)) : Prop where
  attained : ∃ shared, shared.length = length ∧ CommonPrefix shared sequences
  bounded : ∀ shared, CommonPrefix shared sequences → shared.length ≤ length

theorem CommonPrefix.of_subset {shared : List α} {sequences others : List (List α)}
    (common : CommonPrefix shared sequences) (inside : others ⊆ sequences) :
    CommonPrefix shared others :=
  fun sequence member => common sequence (inside member)

theorem LongestCommon.congr {length : Nat} {sequences others : List (List α)}
    (longest : LongestCommon length sequences)
    (same : ∀ sequence, sequence ∈ others ↔ sequence ∈ sequences) :
    LongestCommon length others := by
  obtain ⟨⟨shared, counted, common⟩, bounded⟩ := longest
  refine ⟨⟨shared, counted, common.of_subset fun _ member => (same _).mp member⟩, ?_⟩
  exact fun other found => bounded other (found.of_subset fun _ member => (same _).mpr member)

/-- A column on which all sequences agree adds one to what they share. -/
theorem LongestCommon.cons {length : Nat} {first : List α} {others : List (List α)} {item : α}
    (longest : LongestCommon length (first :: others)) :
    LongestCommon (length + 1) ((item :: first) :: others.map (item :: ·)) := by
  obtain ⟨⟨shared, counted, common⟩, bounded⟩ := longest
  have whole : (item :: first) :: others.map (item :: ·) = (first :: others).map (item :: ·) := rfl
  rw [whole]
  constructor
  · refine ⟨item :: shared, by rw [List.length_cons, counted], fun sequence member => ?_⟩
    obtain ⟨rest, present, rfl⟩ := List.mem_map.mp member
    exact List.cons_prefix_cons.mpr ⟨rfl, common rest present⟩
  · intro other found
    cases other with
    | nil => exact Nat.zero_le _
    | cons head tail =>
        refine Nat.succ_le_succ (bounded tail fun rest present => ?_)
        exact (List.cons_prefix_cons.mp (found _ (List.mem_map_of_mem present))).2

theorem LongestCommon.zero {first : List α} {others : List (List α)}
    (apart : ∀ item, first.head? = some item → ∃ other ∈ others, other.head? ≠ some item) :
    LongestCommon 0 (first :: others) := by
  refine ⟨⟨[], rfl, fun _ _ => List.nil_prefix⟩, fun shared common => ?_⟩
  cases shared with
  | nil => exact Nat.le_refl _
  | cons item rest =>
      obtain ⟨tail, rfl⟩ := common first List.mem_cons_self
      obtain ⟨other, member, different⟩ := apart item rfl
      obtain ⟨remaining, rfl⟩ := common other (List.mem_cons_of_mem _ member)
      exact absurd rfl different

end Prefixes

/-- The scan over columns finds the longest common prefix. -/
theorem prefixLength_longest (first : List Int) (others : List (List Int)) :
    LongestCommon (prefixLength first others) (first :: others) := by
  induction first generalizing others with
  | nil => exact .zero fun item none => by cases none
  | cons token rest ih =>
      unfold prefixLength
      split
      · rename_i agree
        have shape : (others.map List.tail).map (token :: ·) = others := by
          rw [List.map_map]
          refine (List.map_congr_left fun other member => ?_).trans (List.map_id others)
          obtain ⟨tail, rfl⟩ :=
            List.head?_eq_some_iff.mp (beq_iff_eq.mp (List.all_eq_true.mp agree other member))
          rfl
        have longest := @LongestCommon.cons _ _ _ _ token (ih (others.map List.tail))
        rw [shape] at longest
        exact longest
      · rename_i differ
        refine .zero fun item head => ?_
        cases head
        simpa using differ

theorem sharedPrefix_longest {jobs : List WorkItem} (several : 2 ≤ jobs.length) :
    LongestCommon (sharedPrefix jobs) (jobs.map WorkItem.tokenIds) := by
  match jobs with
  | first :: second :: rest =>
      exact prefixLength_longest first.tokenIds ((second :: rest).map WorkItem.tokenIds)

namespace DecisionEngine

variable {σ F : Type} [LogField F] {engine : DecisionEngine σ} {states : List Str}
  {requests : List SystemOneRequest}

/-! ## The counters -/

def rejected (F : Type) [LogField F] (row : WorkItem × Completion) : Bool :=
  !(judge (F := F) row.1.question row.2).toBool

/-- The statistics after these batches and rows. -/
def tally (F : Type) [LogField F] (stats : RunStats) (batches : List (List WorkItem))
    (rows : List (WorkItem × Completion)) : RunStats where
  submittedQuestions := stats.submittedQuestions + (batches.map List.length).sum
  repairQuestions := stats.repairQuestions + rows.countP (rejected F)
  batches := stats.batches + batches.length
  batchSizes := stats.batchSizes ++ batches.map List.length
  sharedPrefixTokens := stats.sharedPrefixTokens

@[simp] theorem tally_nil (stats : RunStats) : tally F stats [] [] = stats := by
  simp [tally]

theorem tally_append (stats : RunStats) (batches later : List (List WorkItem))
    (rows others : List (WorkItem × Completion)) :
    tally F (tally F stats batches rows) later others =
      tally F stats (batches ++ later) (rows ++ others) := by
  simp [tally, Nat.add_assoc]

theorem settle_stats {progress next : Progress F} {row : WorkItem × Completion}
    {world after : World σ}
    (success : engine.settle states progress row world = (.ok next, after)) :
    next.stats = tally F progress.stats [] [row] := by
  obtain ⟨item, completion⟩ := row
  unfold settle at success
  obtain ⟨used, _, success⟩ := Run.lift_bind_ok success
  dsimp only at success
  cases judged : judge (F := F) item.question completion with
  | ok answer =>
      simp only [judged] at success
      obtain ⟨answers, _, success⟩ := Run.lift_bind_ok success
      obtain ⟨rfl, _⟩ := Run.pure_ok success
      simp [tally, rejected, judged, Except.toBool]
  | error error =>
      obtain ⟨message, _, rfl⟩ := judge_refused judged
      simp only [judged] at success
      split at success
      · exact absurd success Run.raise_not_ok
      · obtain ⟨state, _, success⟩ := Run.lift_bind_ok success
        obtain ⟨repair, middle, _, success⟩ := Run.bind_ok success
        obtain ⟨rfl, _⟩ := Run.pure_ok success
        simp [tally, rejected, judged, Except.toBool]

theorem settleAll_stats {rows : List (WorkItem × Completion)} {progress next : Progress F}
    {world after : World σ}
    (success : engine.settleAll states rows progress world = (.ok next, after)) :
    next.stats = tally F progress.stats [] rows := by
  induction rows generalizing progress world with
  | nil =>
      obtain ⟨rfl, _⟩ := Run.pure_ok success
      exact (tally_nil _).symm
  | cons row rest ih =>
      obtain ⟨middle, afterRow, settled, success⟩ := Run.bind_ok success
      rw [ih success, settle_stats settled, tally_append]
      rfl

theorem round_stats {progress next : Progress F} {world after : World σ}
    (success : engine.round states progress world = (.ok next, after)) :
    ∃ batches rows, after.batches = world.batches ++ batches ∧
      after.history = world.history ++ rows ∧ next.stats = tally F progress.stats batches rows := by
  obtain ⟨completions, middle, generated, settled⟩ := Run.bind_ok success
  obtain ⟨returned, _, same, calls⟩ := generate_outcome generated
  cases returned with
  | error error => cases same
  | ok found =>
      cases same
      split at settled
      · obtain ⟨batches, history⟩ := Prod.mk.inj (settleAll_keeps _ _ settled)
        refine ⟨[engine.batchCut.batch progress.pending],
          (engine.batchCut.batch progress.pending).zip completions, ?_, ?_, ?_⟩
        · rw [batches]
          simp [World.batches, calls, batchCut, Cut.batch]
        · rw [history]
          simp [World.history, calls, RuntimeCall.rows, batchCut, Cut.batch]
        · rw [settleAll_stats settled]
          simp [tally, batchCut, Cut.batch]
      · exact absurd settled Run.raise_not_ok

theorem generateLoop_stats {fuel : Nat} {progress final : Progress F} {world after : World σ}
    (success : engine.generateLoop states fuel progress world = (.ok final, after)) :
    ∃ batches rows, after.batches = world.batches ++ batches ∧
      after.history = world.history ++ rows ∧ final.stats = tally F progress.stats batches rows := by
  induction fuel generalizing progress world with
  | zero =>
      unfold generateLoop at success
      split at success
      · obtain ⟨rfl, rfl⟩ := Run.pure_ok success
        exact ⟨[], [], by simp, by simp, (tally_nil _).symm⟩
      · cases success
  | succ fuel ih =>
      unfold generateLoop at success
      split at success
      · obtain ⟨rfl, rfl⟩ := Run.pure_ok success
        exact ⟨[], [], by simp, by simp, (tally_nil _).symm⟩
      · obtain ⟨next, middle, ran, success⟩ := Run.bind_ok success
        obtain ⟨batches, rows, sentBatches, sentRows, counted⟩ := round_stats ran
        obtain ⟨later, others, laterBatches, laterRows, total⟩ := ih success
        refine ⟨batches ++ later, rows ++ others, ?_, ?_, ?_⟩
        · rw [laterBatches, sentBatches, List.append_assoc]
        · rw [laterRows, sentRows, List.append_assoc]
        · rw [total, counted, tally_append]

/-! ## First prompts -/

/-- The prompts of the first attempts at a request. -/
def firstPrompts (world : World σ) (index : Nat) : List (List Int) :=
  ((attempted world 0).filter fun item => item.requestIndex = index).map WorkItem.tokenIds

private theorem mem_queue_iff {entries : List (SystemOneRequest × Str)}
    {queues : List (List WorkItem)} {index : Nat} {queue : List WorkItem}
    (built : List.Forall₂ (fun (entry : (SystemOneRequest × Str) × Nat) queue =>
      List.Forall₂ (fun (question : Str × Question) item =>
        engine.Builds entry.2 question.1 entry.1.2 question.2 0 none item)
          entry.1.1.questions.entries queue) entries.zipIdx queues)
    (located : queues[index]? = some queue) (item : WorkItem) :
    item ∈ queue ↔ item ∈ roundRobin queues ∧ item.requestIndex = index := by
  have numbered : ∀ (position : Nat) (found : List WorkItem), queues[position]? = some found →
      ∀ job ∈ found, job.requestIndex = position := by
    intro position found present job member
    obtain ⟨inside, known⟩ := List.getElem?_eq_some_iff.mp present
    have entryInside : position < entries.zipIdx.length := built.length_eq ▸ inside
    obtain ⟨other, otherFound, jobs⟩ :=
      forall₂_getElem? built (List.getElem?_eq_getElem entryInside)
    cases present.symm.trans otherFound
    obtain ⟨question, _, builds⟩ := forall₂_mem_right jobs member
    simpa using builds.requestIndex
  rw [(roundRobin_perm queues).mem_iff, List.mem_flatten]
  constructor
  · intro member
    exact ⟨⟨queue, List.mem_of_getElem? located, member⟩, numbered index queue located item member⟩
  · intro given
    obtain ⟨⟨other, present, member⟩, same⟩ := given
    obtain ⟨position, found⟩ := List.getElem?_of_mem present
    have equal := (numbered position other found item member).symm.trans same
    subst equal
    cases located.symm.trans found
    exact member

/-- What `prepare` reports as shared is the longest common prefix. -/
theorem prepare_shared {progress : Progress F} {world after : World σ}
    (success : engine.prepare requests world = (.ok (states, progress), after)) :
    progress.stats.sharedPrefixTokens.length = requests.length ∧
      ∀ index request, requests[index]? = some request →
        ∃ shared, progress.stats.sharedPrefixTokens[index]? = some shared ∧
          (request.questions.entries.length = 1 → shared = 0) ∧
          (request.questions.entries.length ≠ 1 → LongestCommon shared
            ((progress.pending.filter fun item => item.requestIndex = index).map
              WorkItem.tokenIds)) := by
  obtain ⟨queues, pending, _, _, stats, rendered, _, built⟩ := prepare_queues success
  have counted := rendered.length_eq
  rw [stats]
  constructor
  · simp [← built.length_eq, counted]
  · intro index request found
    obtain ⟨inside, _⟩ := List.getElem?_eq_some_iff.mp found
    obtain ⟨state, stateFound⟩ : ∃ state, states[index]? = some state :=
      ⟨_, List.getElem?_eq_getElem (counted ▸ inside)⟩
    have zipped : (requests.zip states)[index]? = some (request, state) :=
      List.getElem?_zip_eq_some.mpr ⟨found, stateFound⟩
    have paired : (requests.zip states).zipIdx[index]? = some ((request, state), index) := by
      rw [List.getElem?_zipIdx, zipped, Option.map_some, Nat.zero_add]
    obtain ⟨queue, located, jobs⟩ := forall₂_getElem? built paired
    have length := jobs.length_eq
    dsimp only at length
    refine ⟨sharedPrefix queue, by simp [located], fun single => ?_, fun several => ?_⟩
    · rw [length] at single
      obtain ⟨job, rfl⟩ := List.length_eq_one_iff.mp single
      rfl
    · have size := request.size
      refine (sharedPrefix_longest (by omega)).congr fun prompt => ?_
      simp only [List.mem_map, List.mem_filter, decide_eq_true_eq, pending,
        mem_queue_iff built located]

/-! ## The report -/

/-- The statistics of a run report what it did. -/
structure Reported (F : Type) [LogField F] (requests : List SystemOneRequest) (stats : RunStats)
    (world : World σ) : Prop where
  calls : stats.batches = world.batches.length
  sized : stats.batches = stats.batchSizes.length
  sizes : stats.batchSizes = world.batches.map List.length
  submitted : stats.submittedQuestions = stats.batchSizes.sum
  questions : stats.submittedQuestions =
    (requests.map fun request => request.questions.entries.length).sum + stats.repairQuestions
  repairs : stats.repairQuestions = world.history.countP (rejected F)
  answered : world.history.map Prod.fst = world.batches.flatten
  prefixes : stats.sharedPrefixTokens.length = requests.length
  shared : ∀ index request, requests[index]? = some request →
    ∃ shared, stats.sharedPrefixTokens[index]? = some shared ∧
      (request.questions.entries.length = 1 → shared = 0) ∧
      (request.questions.entries.length ≠ 1 → LongestCommon shared (firstPrompts world index))

private theorem accepts_rejected {item : WorkItem} {completion : Completion}
    (accepted : (policy F engine states fun _ _ => True).accepts item completion) :
    rejected F (item, completion) = false := by
  obtain ⟨_, answer, judged⟩ := accepted
  simp [rejected, judged, Except.toBool]

private theorem retries_rejected {item next : WorkItem} {completion : Completion}
    (retried : (policy F engine states fun _ _ => True).retries item completion next) :
    rejected F (item, completion) = true := by
  obtain ⟨_, message, _, judged, _⟩ := retried
  simp [rejected, judged, Except.toBool]

/-- Once every batch was served, the first attempts are the prepared queue. -/
private theorem attempted_initial {initial : List WorkItem} {world : World σ}
    (starts : Starts engine requests states initial)
    (advances : Advances (policy F engine states fun _ _ => True) initial world.history [])
    (jobs : world.batches.flatten = world.history.map Prod.fst) :
    attempted world 0 = initial := by
  have fresh : ∀ item completion next,
      (policy F engine states fun _ _ => True).retries item completion next →
        decide (next.attempt = 0) = false := by
    intro item completion next retried
    rw [(policy_attempt retried).1]
    exact decide_eq_false (Nat.succ_ne_zero _)
  have originals := advances.filter_originals fresh
  rw [List.append_nil, ← jobs] at originals
  rw [attempted, originals]
  exact List.filter_eq_self.mpr fun item member => decide_eq_true (starts.attempts item member)

/-- For every runtime, a run that returns reports its batches, its questions,
its repairs and its shared prefixes exactly. -/
theorem evaluate_reports {engine : DecisionEngine σ} {requests : List SystemOneRequest}
    {start : σ} {run : DecisionRun F} {world : World σ}
    (success : engine.evaluate requests start = (.ok run, world)) :
    Reported F requests run.stats world := by
  obtain ⟨⟨states, initial⟩, middle, ready, ran⟩ := Run.bind_ok success
  obtain ⟨final, last, looped, ran⟩ := Run.bind_ok ran
  obtain ⟨responses, _, ran⟩ := Run.lift_bind_ok ran
  obtain ⟨rfl, rfl⟩ := Run.pure_ok ran
  have empty : middle.batches = [] ∧ middle.history = [] :=
    Prod.mk.inj (prepare_keeps _ _ ready)
  obtain ⟨_, _, _, _, starts⟩ := prepare_ok ready
  obtain ⟨_, _, _, _, stats, _⟩ := prepare_queues ready
  obtain ⟨prefixes, shared⟩ := prepare_shared ready
  -- both accounts of the loop speak of the batches and rows of the whole run
  obtain ⟨batches, rows, sent, returned, counted⟩ := generateLoop_stats looped
  obtain ⟨served, settled, left, servedBatches, servedRows, serves, drained⟩ :=
    generateLoop_serves looped
  rw [empty.1, List.nil_append] at sent servedBatches
  rw [empty.2, List.nil_append] at returned servedRows
  subst sent returned servedBatches servedRows
  obtain rfl := drained final rfl
  obtain ⟨advances, jobs⟩ := serves.finished
  have balance := advances.length (fun _ _ => accepts_rejected) fun _ _ _ => retries_rejected
  have submitted : (world.batches.map List.length).sum = world.history.length := by
    rw [← List.length_flatten, jobs, List.length_map]
  have firsts := attempted_initial starts advances jobs
  have jobCount := starts.jobCount
  rw [stats] at counted prefixes shared
  constructor
  · simp [counted, tally]
  · simp [counted, tally]
  · simp [counted, tally]
  · simp [counted, tally]
  · simp only [counted, tally, Nat.zero_add]
    rw [List.length_nil, Nat.add_zero] at balance
    omega
  · simp [counted, tally]
  · exact jobs.symm
  · rw [counted]
    exact prefixes
  · rw [counted]
    simp only [firstPrompts, firsts]
    exact shared

theorem evaluate_reports_repaired :
    ∃ (run : DecisionRun ℝ) (world : World Nat),
      repairingEngine.evaluate [noulRequest (lit "s")] 0 = (.ok run, world) ∧
        Reported ℝ [noulRequest (lit "s")] run.stats world := by
  have returned : (repairingEngine.evaluate (F := ℝ) [noulRequest (lit "s")] 0).1.toBool = true := by
    decide +kernel
  obtain ⟨run, world, success⟩ := succeeds_of_toBool returned
  exact ⟨run, world, success, evaluate_reports success⟩

end DecisionEngine

end VllmVerifier.Engine
