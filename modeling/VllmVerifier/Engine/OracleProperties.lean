import VllmVerifier.Engine.ProgressProperties
import VllmVerifier.Engine.IsolationProperties
import VllmVerifier.Semantics

/-!
The engine under an oracle. Evaluating one request does what the oracle
prescribes for it: the same response, with as many generations for each question
as it takes attempts, or else the one error of a question that ran out of them.
-/

set_option autoImplicit false

namespace VllmVerifier.Engine

open Python Worklist Retry Semantics

variable {σ F : Type} [LogField F]

theorem judge_ok_iff_reading {question : Question} {completion : Completion} {answer : Answer F} :
    judge question completion = .ok answer ↔ reading question completion = some answer := by
  unfold judge reading
  split
  · cases verify (F := F) completion.text question <;> simp [Except.toOption]
  · simp

theorem judge_rejects {question : Question} {completion : Completion}
    (rejected : reading (F := F) question completion = none) :
    ∃ message, judge (F := F) question completion = .error (.invalidOutput message) := by
  cases judged : judge (F := F) question completion with
  | ok answer =>
      rw [judge_ok_iff_reading.mp judged] at rejected
      cases rejected
  | error error =>
      unfold judge at judged
      split at judged
      · obtain ⟨message, rfl⟩ := verify_only completion.text question error judged
        exact ⟨message, rfl⟩
      · cases judged
        exact ⟨_, rfl⟩

/-- The completions of the jobs of one request. -/
def jobOracle (oracle : Oracle) (state : Content) (item : WorkItem) : Completion :=
  oracle state item.question item.attempt

namespace DecisionEngine

variable {engine : DecisionEngine σ} {oracle : Oracle} {state : Content} {states : List Str}

abbrev oraclePolicy (F : Type) [LogField F] (engine : DecisionEngine σ) (states : List Str)
    (oracle : Oracle) (state : Content) : Policy WorkItem Completion :=
  policy F engine states fun item completion => completion = jobOracle oracle state item

/-- A chain reads the attempts of its question until one is accepted. -/
structure Reads (F : Type) [LogField F] (oracle : Oracle) (state : Content) (retries : Nat)
    (item : WorkItem) (rows : List (WorkItem × Completion)) (later : Nat) (answer : Answer F) :
    Prop where
  length : rows.length = later + 1
  within : item.attempt + later ≤ retries
  accepted : verdict F oracle state item.question (item.attempt + later) = some answer
  rejected : ∀ earlier, item.attempt ≤ earlier → earlier < item.attempt + later →
    verdict F oracle state item.question earlier = none
  completions : rows.map Prod.snd =
    (List.range' item.attempt (later + 1)).map (oracle state item.question)
  last : ∃ rejected final, rows = rejected ++ [final] ∧
    judge final.1.question final.2 = .ok answer

theorem reads_of_chain {item : WorkItem} {rows : List (WorkItem × Completion)}
    (chain : Chain (oraclePolicy F engine states oracle state) item rows)
    (within : item.attempt ≤ engine.config.validationRetries) :
    ∃ later answer, Reads F oracle state engine.config.validationRetries item rows later answer := by
  induction chain with
  | @finish item completion accepted =>
      obtain ⟨rfl, answer, judged⟩ := accepted
      refine ⟨0, answer, rfl, within, judge_ok_iff_reading.mp judged, fun earlier from_ before => ?_,
        rfl, [], (item, _), rfl, judged⟩
      exact absurd before (Nat.not_lt_of_le from_)
  | @retry item next completion rows retried _ ih =>
      obtain ⟨rfl, message, text, judged, below, _, builds⟩ := retried
      obtain ⟨later, answer, reads⟩ := ih (builds.numbered ▸ below)
      have none : verdict F oracle state item.question item.attempt = none := by
        cases found : verdict F oracle state item.question item.attempt with
        | none => rfl
        | some answer =>
            have accepted := judge_ok_iff_reading.mpr found
            rw [jobOracle, accepted] at judged
            cases judged
      obtain ⟨length, limit, accepted, rejected, completions, earlierRows, final, split, last⟩ :=
        reads
      rw [builds.numbered] at limit accepted rejected completions
      rw [builds.sameQuestion] at accepted rejected completions
      have shift : item.attempt + 1 + later = item.attempt + (later + 1) := by omega
      rw [shift] at limit accepted rejected
      refine ⟨later + 1, answer, by rw [List.length_cons, length], limit, accepted,
        fun earlier from_ before => ?_, ?_, _ :: earlierRows, final, by rw [split]; rfl, last⟩
      · rcases Nat.eq_or_lt_of_le from_ with rfl | after
        · exact none
        · exact rejected earlier after before
      · rw [List.map_cons, completions, List.range'_succ, List.map_cons]
        rfl

/-! ## Success -/

theorem evaluate_decides {request : SystemOneRequest} {start : σ} {run : DecisionRun F}
    {world : World σ} (answers : engine.Answers (jobOracle oracle request.state))
    (success : engine.evaluate [request] start = (.ok run, world)) :
    ∃ response outcomes, run.responses = [response] ∧
      Decides oracle engine.model engine.config.validationRetries request response outcomes ∧
        List.Forall₂ (fun entry (outcome : Nat × Answer F) =>
          (world.history.filter fun row => row.1.label = (0, entry.1)).length = outcome.1 + 1)
            request.questions.entries outcomes := by
  obtain ⟨states, pending, returned⟩ := evaluate_ok answers.produces success
  have found : [request][0]? = some request := rfl
  have responses := returned.responses
  obtain ⟨response, rest, ⟨model, keys, looked, usage⟩, none, shape⟩ :=
    List.forall₂_cons_left_iff.mp responses
  cases none
  have responded : run.responses[0]? = some response := by rw [shape]; rfl
  have each : ∀ entry ∈ request.questions.entries, ∃ outcome : Nat × Answer F,
      (Stops (verdict F oracle request.state entry.2) engine.config.validationRetries outcome.1
        outcome.2 ∧ response.answers.get? entry.1 = some outcome.2) ∧
      (world.history.filter fun row => row.1.label = (0, entry.1)).map Prod.snd =
        (List.range (outcome.1 + 1)).map (oracle request.state entry.2) := by
    intro entry member
    obtain ⟨_, item, _, builds, chain⟩ :=
      chain_of_drains returned.starts returned.drains found member
    obtain ⟨later, answer, reads⟩ :=
      reads_of_chain chain (by rw [builds.numbered]; exact Nat.zero_le _)
    obtain ⟨_, within, accepted, rejected, completions, _, _, split, last⟩ := reads
    rw [builds.numbered] at within accepted rejected completions
    rw [builds.sameQuestion] at accepted rejected completions
    rw [Nat.zero_add] at within accepted rejected
    refine ⟨(later, answer), ⟨⟨within, accepted, fun earlier before => ?_⟩,
      returned.answer found responded member split last⟩, ?_⟩
    · exact rejected earlier (Nat.zero_le _) before
    · rw [completions, List.range_eq_range']
  obtain ⟨outcomes, related⟩ := exists_forall₂ each
  refine ⟨response, outcomes, shape, ⟨model, keys, related.imp fun _ _ known => known.1, ?_⟩,
    related.imp fun entry outcome known => ?_⟩
  · refine (usage.trans (returned.charged found)).trans ?_
    rw [Dict.keys, List.map_map]
    clear shape responded
    generalize request.questions.entries = entries at related
    induction related with
    | nil => rfl
    | cons head _ ih =>
        have own := congrArg (fun completions => (completions.map Completion.usage).sum) head.2
        rw [List.map_map, List.map_map] at own
        simp only [List.map_cons, List.sum_cons, List.zip_cons_cons, ih]
        exact congrArg (· + _) own
  · have lengths := congrArg List.length known.2
    simpa using lengths

/-! ## Failure -/

/-- Under an oracle, a run returns, overruns a budget or exhausts a question. -/
theorem evaluate_ends_as {request : SystemOneRequest}
    (answers : engine.Answers (jobOracle oracle request.state))
    (admitted : engine.Admits [request]) (start : σ) :
    Succeeds F engine [request] start ∨
      ∃ reason world, engine.evaluate (F := F) [request] start = (.error reason, world) ∧
        (BudgetError reason ∨ reason = exhaustion) := by
  refine evaluate_sustained (fun _ _ => True) answers admitted (fun states _ => ⟨?_, ?_⟩)
    start
  · intro item _
    cases found : reading (F := F) item.question (jobOracle oracle request.state item) with
    | some answer => exact .inl ⟨answer, judge_ok_iff_reading.mpr found⟩
    | none =>
        obtain ⟨message, rejected⟩ := judge_rejects found
        exact .inr ⟨message, rejected, fun _ => .inr rfl, fun _ _ _ _ _ =>
          ⟨trivial, fun _ reason budget => .inl budget⟩⟩
  · exact fun _ _ _ _ _ _ _ _ _ _ => ⟨trivial, fun _ reason budget => .inl budget⟩

/-- A request that the oracle decides is answered, unless it overruns a budget. -/
theorem evaluate_of_decided {request : SystemOneRequest}
    (answers : engine.Answers (jobOracle oracle request.state))
    (admitted : engine.Admits [request])
    (decided : ¬ Undecided F oracle engine.config.validationRetries request) (start : σ) :
    Succeeds F engine [request] start ∨
      ∃ reason world, engine.evaluate (F := F) [request] start = (.error reason, world) ∧
        BudgetError reason := by
  let good (_ : List Str) (item : WorkItem) : Prop :=
    ∃ attempt answer, Stops (verdict F oracle request.state item.question)
      engine.config.validationRetries attempt answer ∧ item.attempt ≤ attempt
  refine evaluate_sustained good answers admitted (fun states _ => ⟨?_, ?_⟩) start
  · intro item given
    obtain ⟨attempt, answer, stops, before⟩ := given
    rcases Nat.eq_or_lt_of_le before with same | earlier
    · left
      refine ⟨answer, judge_ok_iff_reading.mpr ?_⟩
      rw [jobOracle, same]
      exact stops.accepted
    · obtain ⟨message, rejected⟩ := judge_rejects (stops.rejected item.attempt earlier)
      refine .inr ⟨message, rejected, fun reached => ?_, fun _ text next _ drafts =>
        ⟨⟨attempt, answer, ?_, ?_⟩, fun _ reason budget => budget⟩⟩
      · exact absurd stops.within (Nat.not_le_of_lt (Nat.lt_of_le_of_lt reached earlier))
      · rw [drafts.sameQuestion]
        exact stops
      · rw [drafts.numbered]
        exact earlier
  · intro index other text key question item found _ present drafts
    have same : other = request := by
      simpa using List.mem_of_getElem? found
    subst same
    obtain ⟨attempt, answer, stops⟩ := stops_of_decided decided present
    refine ⟨⟨attempt, answer, ?_, ?_⟩, fun _ reason budget => budget⟩
    · rw [drafts.sameQuestion]
      exact stops
    · rw [drafts.numbered]
      exact Nat.zero_le _

theorem evaluate_unknown {request : SystemOneRequest}
    (unknown : engine.served request.model = false) (start : σ) :
    engine.evaluate (F := F) [request] start =
      (.error (.raised (.valueError "Unknown model")), ⟨start, []⟩) := by
  have room : ¬ engine.config.maxRequests < 1 := Nat.not_lt_of_le engine.config.requestsRange.1
  have prepared : engine.prepare (F := F) [request] ⟨start, []⟩ =
      (.error (.raised (.valueError "Unknown model")), ⟨start, []⟩) := by
    unfold prepare
    rw [if_neg (by simp [room]), if_pos (by simp [unknown])]
    rfl
  change Run.next _ _ _ = _
  simp only [Run.next, prepared]

end DecisionEngine

end VllmVerifier.Engine
