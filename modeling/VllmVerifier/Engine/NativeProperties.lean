import VllmVerifier.Engine.Native
import VllmVerifier.Engine.TokenProperties

/-!
Attribution over an arbitrary scheduler. The runtime accepts an output only for
the prompt at its position and with a single candidate, so in a run that returns
every completion is that of the prompt it was charged to.
-/

set_option autoImplicit false

namespace VllmVerifier.Engine

open Python DecisionEngine

/-! ## Sessions -/

/-- The output is for this prompt and has one candidate. -/
def RequestOutput.Matches (output : RequestOutput) (prompt : List Int) : Prop :=
  output.promptTokenIds = some prompt ∧ ∃ candidate, output.outputs = [candidate]

/-- The scheduler returned one matching output for each submission, in order. -/
def LLMCall.Proper (call : LLMCall) : Prop :=
  ∃ outputs, call.result = .ok outputs ∧
    List.Forall₂ (fun submission output => output.Matches submission.promptTokenIds)
      call.submissions outputs

def LLMCall.outputs (call : LLMCall) : List RequestOutput :=
  match call.result with
  | .ok outputs => outputs
  | .error _ => []

/-- All outputs of a session, in order. -/
def Session.outputs {τ : Type} (session : Session τ) : List RequestOutput :=
  session.calls.flatMap LLMCall.outputs

theorem LLMCall.Proper.prompts {call : LLMCall} (proper : call.Proper) :
    call.outputs.map RequestOutput.promptTokenIds =
      call.submissions.map fun submission => some submission.promptTokenIds := by
  obtain ⟨outputs, returned, matched⟩ := proper
  rw [LLMCall.outputs, returned]
  dsimp only
  generalize call.submissions = submissions at matched
  clear returned
  induction matched with
  | nil => rfl
  | cons first _ ih => rw [List.map_cons, List.map_cons, ih, first.1]

namespace VLLMRuntime

variable {τ F : Type} [LogField F] {llm : LLM τ} {model : Str} {config : EngineConfig}
  {requests : List SystemOneRequest}

/-- The completion of a row is the single candidate of an output for its prompt. -/
structure Supplies (output : RequestOutput) (row : WorkItem × Completion) : Prop where
  prompt : output.promptTokenIds = some row.1.tokenIds
  single : ∃ candidate, output.outputs = [candidate] ∧ row.2.text = candidate.text ∧
    row.2.finishReason = finishReason candidate ∧
      row.2.usage = ⟨row.1.tokenIds.length, candidate.tokenIds.length⟩

/-! ## One call -/

theorem completion_ok {job : WorkItem} {output : RequestOutput} {result : Completion}
    (success : completion (job, output) = .ok result) : Supplies output (job, result) := by
  unfold completion at success
  dsimp only at success
  split at success
  · cases success
  · rename_i matched
    have prompt := Decidable.not_not.mp matched
    split at success
    · rename_i candidate found shape located
      cases success
      cases prompt.symm.trans located
      exact ⟨prompt, candidate, shape, rfl, rfl, rfl⟩
    · cases success

/-- What `generate` returns for a list of outputs, it has taken from them in order. -/
theorem completions_ok {jobs : List WorkItem} {outputs : List RequestOutput}
    {results : List Completion} (success : completions jobs outputs = .ok results) :
    List.Forall₂ Supplies outputs (jobs.zip results) ∧
      List.Forall₂ (fun submission output => output.Matches submission.promptTokenIds)
        (jobs.map submission) outputs := by
  unfold completions at success
  split at success
  · cases success
  · rename_i lengths
    have same := Decidable.not_not.mp lengths
    have read := mapM_ok_iff.mp success
    clear success lengths
    induction jobs generalizing outputs results with
    | nil =>
        obtain rfl := List.length_eq_zero_iff.mp same
        exact ⟨.nil, .nil⟩
    | cons job rest ih =>
        cases outputs with
        | nil => cases same
        | cons output others =>
            cases read with
            | cons first later =>
                obtain ⟨supplied, matched⟩ := ih (Nat.succ.inj same) later
                have supplies := completion_ok first
                obtain ⟨candidate, shape, _⟩ := supplies.single
                exact ⟨.cons supplies supplied,
                  .cons ⟨supplies.prompt, candidate, shape⟩ matched⟩

/-! ## Runs -/

def engine (llm : LLM τ) (model : Str) (config : EngineConfig) : DecisionEngine (Session τ) :=
  ⟨runtime llm, model, config⟩

/-- So far every call was proper, and the history has the outputs in order. -/
structure Attributes (world : World (Session τ)) : Prop where
  proper : ∀ call ∈ world.state.calls, call.Proper
  supplied : List.Forall₂ Supplies world.state.outputs world.history

theorem encode_attributes (prompt : List Message) :
    Run.Preserves Attributes ((engine llm model config).encode prompt) := by
  intro world tokens after ran attributes
  obtain ⟨_, history⟩ := encode_ok ran
  unfold DecisionEngine.encode at ran
  obtain ⟨_, rfl⟩ := Prod.mk.inj ran
  exact ⟨attributes.proper, history.symm ▸ attributes.supplied⟩

theorem generate_attributes (batch : List WorkItem) :
    Run.Preserves Attributes ((engine llm model config).generate batch) := by
  intro world results after ran attributes
  obtain ⟨returned, history⟩ := generate_ok ran
  have called : after.state.calls = world.state.calls ++
      [⟨batch.map submission, (llm.generate (batch.map submission) world.state.state).1⟩] := by
    unfold DecisionEngine.generate at ran
    obtain ⟨_, rfl⟩ := Prod.mk.inj ran
    rfl
  change (llm.generate (batch.map submission) world.state.state).1.bind (completions batch) = _
    at returned
  cases answered : (llm.generate (batch.map submission) world.state.state).1 with
  | error error =>
      rw [answered] at returned
      cases returned
  | ok outputs =>
      rw [answered] at returned called
      obtain ⟨supplied, matched⟩ := completions_ok returned
      constructor
      · rw [called]
        exact List.forall_mem_append.mpr
          ⟨attributes.proper, List.forall_mem_singleton.mpr ⟨outputs, rfl, matched⟩⟩
      · have whole : after.state.outputs = world.state.outputs ++ outputs := by
          simp [Session.outputs, called, LLMCall.outputs]
        rw [whole, history]
        exact List.rel_append attributes.supplied supplied

/-- In a run over any scheduler that returns, each answer was judged from the
single candidate for the prompt that was encoded for its attempt, and the usage
counts these prompts. -/
structure Attributed (F : Type) [LogField F] (requests : List SystemOneRequest)
    (run : DecisionRun F) (world : World (Session τ)) : Prop extends Attributes world where
  responded : run.responses.length = requests.length
  answers : ∀ index request, requests[index]? = some request →
    ∃ state response, dumpsOrRaise .default request.state.value = .ok state ∧
      run.responses[index]? = some response ∧
      response.answers.keys = request.questions.keys ∧
      response.usage.inputTokens = ((world.history.filter fun row =>
        row.1.requestIndex = index).map fun row => row.1.tokenIds.length).sum ∧
      ∀ key question, (key, question) ∈ request.questions.entries →
        ∃ answer, response.answers.get? key = some answer ∧
          Answered F world.calls state question none
            (world.history.filter fun row => row.1.label = (index, key)) answer

private theorem supplied_inputTokens {outputs : List RequestOutput}
    {rows : List (WorkItem × Completion)} (supplied : List.Forall₂ Supplies outputs rows)
    (index : Nat) :
    (((rows.filter fun row => row.1.requestIndex = index).map fun row => row.2.usage).sum :
        Usage).inputTokens =
      ((rows.filter fun row => row.1.requestIndex = index).map fun row =>
        row.1.tokenIds.length).sum := by
  induction supplied with
  | nil => rfl
  | @cons output row outputs rows supplies _ ih =>
      obtain ⟨candidate, _, _, _, usage⟩ := supplies.single
      by_cases same : row.1.requestIndex = index
      · simp [same, ih, usage]
      · simp [same, ih]

/-- Whatever the scheduler answers: a run that returns attributes every answer
to the prompt it was judged for, and a run with any other answer raises. -/
theorem evaluate_attributes (llm : LLM τ) (model : Str) (config : EngineConfig)
    (requests : List SystemOneRequest) (start : τ) :
    (∀ (run : DecisionRun F) world,
      (engine llm model config).evaluate requests ⟨start, []⟩ = (.ok run, world) →
        Attributed F requests run world) ∧
    ((∃ call ∈ ((engine llm model config).evaluate (F := F) requests ⟨start, []⟩).2.state.calls,
        ¬ call.Proper) →
      ∃ error, ((engine llm model config).evaluate (F := F) requests ⟨start, []⟩).1 =
        .error (.raised error)) := by
  have attributes : ∀ (run : DecisionRun F) world,
      (engine llm model config).evaluate requests ⟨start, []⟩ = (.ok run, world) →
        Attributes world :=
    fun run world success => evaluate_preserves encode_attributes generate_attributes success
      ⟨List.forall_mem_nil _, .nil⟩
  constructor
  · intro run world success
    have held := attributes run world success
    obtain ⟨_, _, returned⟩ := evaluate_ok produces_any success
    refine ⟨held, by simpa using returned.responses.length_eq.symm, fun index request found => ?_⟩
    obtain ⟨state, response, dumped, responded, keys, usage, answers⟩ :=
      evaluate_answered success found
    refine ⟨state, response, dumped, responded, keys, ?_, answers⟩
    rw [usage, supplied_inputTokens held.supplied]
  · intro given
    obtain ⟨call, member, improper⟩ := given
    cases outcome : (engine llm model config).evaluate (F := F) requests ⟨start, []⟩ with
    | mk result world =>
        rw [outcome] at member
        cases result with
        | ok run => exact absurd ((attributes run world outcome).proper call member) improper
        | error reason =>
            have ends := evaluate_ends (F := F) (engine llm model config) requests ⟨start, []⟩
            rw [outcome] at ends
            cases reason with
            | raised error => exact ⟨error, rfl⟩
            | outOfFuel => exact absurd rfl ends

/-! A scheduler that answers every prompt, in order. -/

def echoLLM : LLM Nat where
  applyChatTemplate _ state := (.ok (.list [.int 7]), state)
  generate submissions state := (.ok (submissions.map fun submission =>
    ⟨some submission.promptTokenIds, [⟨lit "\x7b\"noul\":1\x7d", [3], some (lit "stop")⟩]⟩),
    state + 1)

def swappingLLM : LLM Nat where
  applyChatTemplate _ state := (.ok (.list [.int (state : Int)]), state + 1)
  generate submissions state := ((echoLLM.generate submissions state).1.map List.reverse, state)

theorem evaluate_attributes_echo :
    (∃ (run : DecisionRun ℝ) (world : World (Session Nat)),
      (engine echoLLM (lit "m") (sampleConfig 32 (by decide))).evaluate
          [noulRequest (lit "s"), noulRequest (lit "t")] ⟨0, []⟩ = (.ok run, world) ∧
        Attributed ℝ [noulRequest (lit "s"), noulRequest (lit "t")] run world) ∧
      ∃ error, ((engine swappingLLM (lit "m") (sampleConfig 32 (by decide))).evaluate (F := ℝ)
        [noulRequest (lit "s"), noulRequest (lit "t")] ⟨0, []⟩).1 = .error (.raised error) := by
  constructor
  · have returned : ((engine echoLLM (lit "m") (sampleConfig 32 (by decide))).evaluate (F := ℝ)
        [noulRequest (lit "s"), noulRequest (lit "t")] ⟨0, []⟩).1.toBool = true := by
      decide +kernel
    obtain ⟨run, world, success⟩ := succeeds_of_toBool returned
    exact ⟨run, world, success, (evaluate_attributes _ _ _ _ 0).1 run world success⟩
  · apply (evaluate_attributes swappingLLM (lit "m") (sampleConfig 32 (by decide)) _ 0).2
    have swapped : ∃ call ∈ ((engine swappingLLM (lit "m") (sampleConfig 32 (by decide))).evaluate
        (F := ℝ) [noulRequest (lit "s"), noulRequest (lit "t")] ⟨0, []⟩).2.state.calls,
        call.outputs.map RequestOutput.promptTokenIds ≠
          call.submissions.map fun submission => some submission.promptTokenIds := by
      decide +kernel
    obtain ⟨call, member, different⟩ := swapped
    exact ⟨call, member, fun proper => different proper.prompts⟩

end VLLMRuntime

end VllmVerifier.Engine
