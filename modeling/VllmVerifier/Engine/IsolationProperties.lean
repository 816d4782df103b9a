import VllmVerifier.Engine.ProgressProperties

/-!
Batching against isolation. With a pointwise runtime the chain of a question
depends on its prompts alone, so any two runs that contain the question go
through the same completions for it, whatever else is in the queue.
-/

set_option autoImplicit false

namespace VllmVerifier.Engine

open Python Worklist

/-- A runtime whose tokens and completions are functions of what it is given. -/
structure Pointwise {σ : Type} (runtime : Runtime σ) (tokens : List Message → List Int)
    (complete : List Int → Nat → Completion) : Prop where
  encodes : ∀ prompt state, (runtime.encode prompt state).1 = .ok (tokens prompt)
  generates : ∀ jobs state, (runtime.generate jobs state).1 =
    .ok (jobs.map fun job => complete job.tokenIds job.outputTokens)

/-- Configurations that differ only in their batch limits. -/
structure SameLimits (left right : EngineConfig) : Prop where
  modelLen : left.maxModelLen = right.maxModelLen
  outputTokens : left.outputTokens = right.outputTokens
  retries : left.validationRetries = right.validationRetries
  maxRequests : left.maxRequests = right.maxRequests

/-- The request with one question alone, under any identifier. -/
def isolate (request : SystemOneRequest) (question : Question) (id : Str)
    (valid : identifier id = true) : SystemOneRequest where
  model := request.model
  state := request.state
  questions := ⟨[(id, question)], List.nodup_singleton id⟩
  named := request.named
  size := ⟨Nat.le_refl 1, by simp⟩
  ids := by
    intro found member
    rw [List.mem_singleton.mp member]
    exact valid

namespace DecisionEngine

variable {σ F : Type} [LogField F]

/-! ## Twins -/

/-- Two jobs with the same prompt, at the same attempt of the same question. -/
structure Twin (sourceStates targetStates : List Str) (twin item : WorkItem) : Prop where
  question : twin.question = item.question
  tokenIds : twin.tokenIds = item.tokenIds
  outputTokens : twin.outputTokens = item.outputTokens
  attempt : twin.attempt = item.attempt
  state : ∃ state, sourceStates[twin.requestIndex]? = some state ∧
    targetStates[item.requestIndex]? = some state

section Twins

variable {runtime : Runtime σ} {tokens : List Message → List Int}
  {complete : List Int → Nat → Completion} {source target : DecisionEngine σ}
  {sourceStates targetStates : List Str}

theorem encodes_unique (pointwise : Pointwise runtime tokens complete)
    (sourceRuntime : source.runtime = runtime) (targetRuntime : target.runtime = runtime)
    {state : Str} {question : Question} {correction : Option String} {left right : List Int}
    (leftEncodes : source.Encodes state question correction left)
    (rightEncodes : target.Encodes state question correction right) : left = right := by
  obtain ⟨prompt, before, rendered, returned⟩ := leftEncodes
  obtain ⟨other, after, otherRendered, otherReturned⟩ := rightEncodes
  rw [rendered] at otherRendered
  cases otherRendered
  rw [sourceRuntime, pointwise.encodes] at returned
  rw [targetRuntime, pointwise.encodes] at otherReturned
  cases returned
  cases otherReturned
  rfl

/-- The completion of a job of a pointwise runtime. -/
def pointwiseOracle (complete : List Int → Nat → Completion) (item : WorkItem) : Completion :=
  complete item.tokenIds item.outputTokens

theorem Twin.oracle {twin item : WorkItem} (twins : Twin sourceStates targetStates twin item) :
    pointwiseOracle complete twin = pointwiseOracle complete item := by
  rw [pointwiseOracle, twins.tokenIds, twins.outputTokens]
  rfl

theorem Pointwise.answers (pointwise : Pointwise runtime tokens complete)
    (sameRuntime : source.runtime = runtime) : source.Answers (pointwiseOracle complete) := by
  constructor
  · intro prompt before
    exact ⟨tokens prompt, by rw [sameRuntime, pointwise.encodes]⟩
  · intro jobs before
    rw [sameRuntime, pointwise.generates]
    rfl

/-- The policy of an engine whose completions are pointwise. -/
abbrev pointwisePolicy (F : Type) [LogField F] (engine : DecisionEngine σ) (states : List Str)
    (complete : List Int → Nat → Completion) : Policy WorkItem Completion :=
  policy F engine states fun item completion => completion = pointwiseOracle complete item

theorem Twin.next (pointwise : Pointwise runtime tokens complete)
    (sourceRuntime : source.runtime = runtime) (targetRuntime : target.runtime = runtime)
    (sameOutput : source.config.outputTokens = target.config.outputTokens)
    {twin item nextTwin nextItem : WorkItem} {message : String}
    (twins : Twin sourceStates targetStates twin item) {sourceState targetState : Str}
    (sourceFound : sourceStates[twin.requestIndex]? = some sourceState)
    (targetFound : targetStates[item.requestIndex]? = some targetState)
    (sourceDrafts : Drafts source twin.requestIndex twin.questionId sourceState twin.question
      (twin.attempt + 1) (some message) nextTwin)
    (targetDrafts : Drafts target item.requestIndex item.questionId targetState item.question
      (item.attempt + 1) (some message) nextItem) :
    Twin sourceStates targetStates nextTwin nextItem := by
  obtain ⟨state, sourceState', targetState'⟩ := twins.state
  cases sourceFound.symm.trans sourceState'
  cases targetFound.symm.trans targetState'
  have encoded := sourceDrafts.tokens
  rw [twins.question] at encoded
  refine ⟨?_, encodes_unique pointwise sourceRuntime targetRuntime encoded targetDrafts.tokens,
    ?_, ?_, ⟨sourceState, ?_, ?_⟩⟩
  · rw [sourceDrafts.sameQuestion, targetDrafts.sameQuestion, twins.question]
  · rw [sourceDrafts.output, targetDrafts.output, sameOutput]
  · rw [sourceDrafts.numbered, targetDrafts.numbered, twins.attempt]
  · rw [sourceDrafts.requestIndex]
    exact sourceFound
  · rw [targetDrafts.requestIndex]
    exact targetFound

theorem Twin.completions (pointwise : Pointwise runtime tokens complete)
    (sourceRuntime : source.runtime = runtime) (targetRuntime : target.runtime = runtime)
    (sameOutput : source.config.outputTokens = target.config.outputTokens)
    {twin item : WorkItem} {rows others : List (WorkItem × Completion)}
    (twins : Twin sourceStates targetStates twin item)
    (chain : Chain (pointwisePolicy F source sourceStates complete) twin rows)
    (other : Chain (pointwisePolicy F target targetStates complete) item others) :
    rows.map Prod.snd = others.map Prod.snd := by
  induction chain generalizing item others with
  | @finish twin result accepted =>
      obtain ⟨rfl, answer, judged⟩ := accepted
      cases other with
      | finish otherAccepted =>
          obtain ⟨rfl, _⟩ := otherAccepted
          simp [twins.oracle]
      | retry retried _ =>
          obtain ⟨rfl, message, _, rejected, _⟩ := retried
          rw [twins.oracle, twins.question] at judged
          rw [judged] at rejected
          cases rejected
  | @retry twin nextTwin result rows retried _ ih =>
      obtain ⟨rfl, message, sourceState, rejected, _, sourceFound, builds⟩ := retried
      rw [twins.oracle, twins.question] at rejected
      cases other with
      | finish accepted =>
          obtain ⟨rfl, answer, judged⟩ := accepted
          rw [judged] at rejected
          cases rejected
      | retry otherRetried rest =>
          obtain ⟨rfl, otherMessage, targetState, otherRejected, _, targetFound, otherBuilds⟩ :=
            otherRetried
          rw [rejected] at otherRejected
          cases otherRejected
          have following := twins.next pointwise sourceRuntime targetRuntime sameOutput sourceFound
            targetFound builds.toDrafts otherBuilds.toDrafts
          simp [twins.oracle, ih following rest]

/-- A job that some run has carried to acceptance as its twin. -/
def Carried (F : Type) [LogField F] (source : DecisionEngine σ)
    (complete : List Int → Nat → Completion) (targetStates : List Str) (item : WorkItem) : Prop :=
  ∃ sourceStates twin rows, Chain (pointwisePolicy F source sourceStates complete) twin rows ∧
    Twin sourceStates targetStates twin item ∧ source.Fits twin

/-- Jobs carried by a source run are sustained in a target with its limits. -/
theorem sustained_of_carried (pointwise : Pointwise runtime tokens complete)
    (sourceRuntime : source.runtime = runtime) (targetRuntime : target.runtime = runtime)
    (sameOutput : source.config.outputTokens = target.config.outputTokens)
    (sameRetries : source.config.validationRetries = target.config.validationRetries)
    {overrun : Prop}
    (exceeded : ∀ twin item, source.Fits twin → twin.reservedTokens = item.reservedTokens →
      ¬ target.Fits item → overrun) :
    Sustained F target targetStates (pointwiseOracle complete)
      (fun reason => BudgetError reason ∧ overrun) (Carried F source complete targetStates) := by
  intro item given
  obtain ⟨sourceStates, twin, rows, chain, twins, _⟩ := given
  cases chain with
  | finish accepted =>
      obtain ⟨rfl, answer, judged⟩ := accepted
      rw [twins.oracle, twins.question] at judged
      exact .inl ⟨answer, judged⟩
  | @retry _ nextTwin _ rest retried later =>
      obtain ⟨rfl, message, sourceState, rejected, below, sourceFound, builds⟩ := retried
      rw [twins.oracle, twins.question] at rejected
      rw [twins.attempt, sameRetries] at below
      refine .inr ⟨message, rejected, fun spent => absurd below (Nat.not_lt_of_le spent),
        fun _ targetState nextItem targetFound drafts => ?_⟩
      have following := twins.next pointwise sourceRuntime targetRuntime sameOutput sourceFound
        targetFound builds.toDrafts drafts
      refine ⟨⟨sourceStates, nextTwin, rest, later, following, builds.fits⟩,
        fun exceeds reason budget => ⟨budget, ?_⟩⟩
      refine exceeded nextTwin nextItem builds.fits ?_ exceeds
      rw [WorkItem.reservedTokens, following.tokenIds, following.outputTokens]
      rfl

/-- A question for which a run of the source has a chain at this prompt. -/
def Solved (F : Type) [LogField F] (source : DecisionEngine σ)
    (complete : List Int → Nat → Completion) (state : Str) (question : Question) : Prop :=
  ∃ (sourceStates : List Str) (index : Nat) (key : Str) (twin : WorkItem)
    (rows : List (WorkItem × Completion)), sourceStates[index]? = some state ∧
    source.Builds index key state question 0 none twin ∧
      Chain (pointwisePolicy F source sourceStates complete) twin rows

/-- A target whose questions a source has all solved returns, unless a draft of
the target overruns a budget that its twin respected. -/
theorem evaluate_of_solved (pointwise : Pointwise runtime tokens complete)
    (sourceRuntime : source.runtime = runtime) (targetRuntime : target.runtime = runtime)
    (sameOutput : source.config.outputTokens = target.config.outputTokens)
    (sameRetries : source.config.validationRetries = target.config.validationRetries)
    {overrun : Prop}
    (exceeded : ∀ twin item, source.Fits twin → twin.reservedTokens = item.reservedTokens →
      ¬ target.Fits item → overrun)
    {requests : List SystemOneRequest} (admitted : target.Admits requests)
    (solved : ∀ request ∈ requests, ∀ state,
      dumpsOrRaise .default request.state.value = .ok state →
        ∀ key question, (key, question) ∈ request.questions.entries →
          Solved F source complete state question) (state : σ) :
    (∃ (run : DecisionRun F) (world : World σ), target.evaluate requests state = (.ok run, world)) ∨
      ∃ reason world, target.evaluate (F := F) requests state = (.error reason, world) ∧
        BudgetError reason ∧ overrun := by
  refine evaluate_sustained (Carried F source complete)
    (Pointwise.answers pointwise targetRuntime) admitted
    (fun states shapes => ⟨sustained_of_carried pointwise sourceRuntime targetRuntime sameOutput
      sameRetries exceeded, ?_⟩) state
  intro index request text key question item requestFound textFound present drafts
  obtain ⟨rendered, renderedFound, known⟩ := forall₂_getElem? shapes requestFound
  cases textFound.symm.trans renderedFound
  obtain ⟨sourceStates, sourceIndex, sourceKey, twin, rows, sourceFound, builds, chain⟩ :=
    solved request (List.mem_of_getElem? requestFound) text known key question present
  have same := encodes_unique pointwise sourceRuntime targetRuntime builds.tokens drafts.tokens
  have twins : Twin sourceStates states twin item := by
    refine ⟨?_, same, ?_, ?_, text, ?_, ?_⟩
    · rw [builds.sameQuestion, drafts.sameQuestion]
    · rw [builds.output, drafts.output, sameOutput]
    · rw [builds.numbered, drafts.numbered]
    · rw [builds.requestIndex]
      exact sourceFound
    · rw [drafts.requestIndex]
      exact textFound
  refine ⟨⟨sourceStates, twin, rows, chain, twins, builds.fits⟩,
    fun exceeds reason budget => ⟨budget, ?_⟩⟩
  refine exceeded twin item builds.fits ?_ exceeds
  rw [WorkItem.reservedTokens, twins.tokenIds, twins.outputTokens]
  rfl

/-- The completions and the answer of a question in a returned run. -/
structure Outcome (F : Type) [LogField F] (engine : DecisionEngine σ)
    (complete : List Int → Nat → Completion) (state : Str) (question : Question)
    (completions : List Completion) (answer : Answer F) : Prop where
  chain : ∃ (states : List Str) (index : Nat) (key : Str) (item : WorkItem)
    (rows : List (WorkItem × Completion)), states[index]? = some state ∧
      engine.Builds index key state question 0 none item ∧
        Chain (pointwisePolicy F engine states complete) item rows ∧
          rows.map Prod.snd = completions
  accepted : ∃ rejected last, completions = rejected ++ [last] ∧
    judge question last = .ok answer

theorem Outcome.unique (pointwise : Pointwise runtime tokens complete)
    (sourceRuntime : source.runtime = runtime) (targetRuntime : target.runtime = runtime)
    (sameOutput : source.config.outputTokens = target.config.outputTokens) {state : Str}
    {question : Question} {left right : List Completion} {leftAnswer rightAnswer : Answer F}
    (leftOutcome : Outcome F source complete state question left leftAnswer)
    (rightOutcome : Outcome F target complete state question right rightAnswer) :
    left = right ∧ leftAnswer = rightAnswer := by
  obtain ⟨sourceStates, sourceIndex, _, twin, rows, sourceFound, builds, chain, rfl⟩ :=
    leftOutcome.chain
  obtain ⟨targetStates, targetIndex, _, item, others, targetFound, otherBuilds, other, rfl⟩ :=
    rightOutcome.chain
  have same := encodes_unique pointwise sourceRuntime targetRuntime builds.tokens
    otherBuilds.tokens
  have twins : Twin sourceStates targetStates twin item := by
    refine ⟨?_, same, ?_, ?_, state, ?_, ?_⟩
    · rw [builds.sameQuestion, otherBuilds.sameQuestion]
    · rw [builds.output, otherBuilds.output, sameOutput]
    · rw [builds.numbered, otherBuilds.numbered]
    · rw [builds.requestIndex]
      exact sourceFound
    · rw [otherBuilds.requestIndex]
      exact targetFound
  have completions := twins.completions pointwise sourceRuntime targetRuntime sameOutput chain other
  refine ⟨completions, ?_⟩
  obtain ⟨rejected, last, split, judged⟩ := leftOutcome.accepted
  obtain ⟨otherRejected, otherLast, otherSplit, otherJudged⟩ := rightOutcome.accepted
  rw [completions, otherSplit] at split
  obtain ⟨_, lasts⟩ := List.append_inj' split rfl
  cases lasts
  rw [judged] at otherJudged
  cases otherJudged
  rfl

/-- Every question of a returned run has an outcome; it gives the answer, and
the outcomes of a request give its usage. -/
theorem outcomes_of_evaluate (pointwise : Pointwise runtime tokens complete)
    (sameRuntime : source.runtime = runtime) {requests : List SystemOneRequest} {start : σ}
    {run : DecisionRun F} {world : World σ}
    (success : source.evaluate requests start = (.ok run, world)) {index : Nat}
    {request : SystemOneRequest} (found : requests[index]? = some request) :
    ∃ state response, dumpsOrRaise .default request.state.value = .ok state ∧
      run.responses[index]? = some response ∧ response.model = source.model ∧
        response.answers.keys = request.questions.keys ∧
        ∃ outcomes : List (List Completion × Answer F),
          List.Forall₂ (fun entry outcome =>
            Outcome F source complete state entry.2 outcome.1 outcome.2 ∧
              response.answers.get? entry.1 = some outcome.2)
            request.questions.entries outcomes ∧
          response.usage =
            (outcomes.map fun outcome => (outcome.1.map Completion.usage).sum).sum := by
  obtain ⟨states, pending, returned⟩ :=
    evaluate_ok (Pointwise.answers pointwise sameRuntime).produces success
  have paired : requests.zipIdx[index]? = some (request, index) := by
    simp [List.getElem?_zipIdx, found]
  obtain ⟨response, responded, model, keys, _, usage⟩ :=
    forall₂_getElem? returned.responses paired
  obtain ⟨state, stateFound, rendered⟩ := forall₂_getElem? returned.rendered found
  have each : ∀ entry ∈ request.questions.entries, ∃ outcome : List Completion × Answer F,
      (Outcome F source complete state entry.2 outcome.1 outcome.2 ∧
        response.answers.get? entry.1 = some outcome.2) ∧
        outcome.1 = (world.history.filter fun row => row.1.label = (index, entry.1)).map
          Prod.snd := by
    intro entry member
    obtain ⟨chainState, item, chainFound, builds, chain⟩ :=
      chain_of_drains returned.starts returned.drains found member
    cases stateFound.symm.trans chainFound
    obtain ⟨rejected, last, split, attempts⟩ := attempts_of_chain chain builds.numbered
    obtain ⟨answer, accepted⟩ := attempts.accepted
    have question := attempts.sameQuestion last (by simp)
    rw [builds.sameQuestion] at question
    refine ⟨(_, answer), ⟨⟨⟨states, index, entry.1, item, _, stateFound, builds, chain, rfl⟩,
      rejected.map Prod.snd, last.2, by simp [split], question ▸ accepted⟩,
        returned.answer found responded member split accepted⟩, rfl⟩
  obtain ⟨outcomes, related⟩ := exists_forall₂ each
  refine ⟨state, response, rendered, responded, model, keys, outcomes,
    related.imp fun entry outcome known => known.1, ?_⟩
  refine (usage.trans (returned.charged found)).trans ?_
  rw [Dict.keys, List.map_map]
  congr 1
  apply forall₂_map_eq
  refine related.imp fun entry outcome known => ?_
  rw [known.2, List.map_map]
  rfl

end Twins

/-! ## Batching and isolation -/

/-- No job that arises in the run exceeds a token budget. -/
def BudgetFree (F : Type) [LogField F] (engine : DecisionEngine σ)
    (requests : List SystemOneRequest) (start : σ) : Prop :=
  ∀ reason world, engine.evaluate (F := F) requests start = (.error reason, world) →
    ¬ BudgetError reason

section Isolation

variable {runtime : Runtime σ} {tokens : List Message → List Int}
  {complete : List Int → Nat → Completion} {engine : DecisionEngine σ}

theorem solved_of_evaluate (pointwise : Pointwise runtime tokens complete)
    (sameRuntime : engine.runtime = runtime) {requests : List SystemOneRequest} {start : σ}
    (success : Succeeds F engine requests start) {request : SystemOneRequest}
    (member : request ∈ requests) {state : Str}
    (rendered : dumpsOrRaise .default request.state.value = .ok state) {key : Str}
    {question : Question} (present : (key, question) ∈ request.questions.entries) :
    Solved F engine complete state question := by
  obtain ⟨run, world, success⟩ := success
  obtain ⟨index, found⟩ := List.getElem?_of_mem member
  obtain ⟨other, _, otherRendered, _, _, _, outcomes, related, _⟩ :=
    outcomes_of_evaluate pointwise sameRuntime success found
  rw [rendered] at otherRendered
  cases otherRendered
  obtain ⟨outcome, _, known, _⟩ := forall₂_mem_left related present
  obtain ⟨states, sourceIndex, sourceKey, item, rows, stateFound, builds, chain, _⟩ := known.chain
  exact ⟨states, sourceIndex, sourceKey, item, rows, stateFound, builds, chain⟩

theorem isolate_succeeds (pointwise : Pointwise runtime tokens complete)
    (sameRuntime : engine.runtime = runtime) {request : SystemOneRequest}
    (known : engine.served request.model = true) {state : Str} {question : Question}
    (rendered : dumpsOrRaise .default request.state.value = .ok state)
    (solved : Solved F engine complete state question) {id : Str}
    (valid : identifier id = true) (alone : σ) :
    Succeeds F engine [isolate request question id valid] alone := by
  have fits : ∀ twin item, engine.Fits twin → twin.reservedTokens = item.reservedTokens →
      ¬ engine.Fits item → False := by
    intro twin item twinFits same exceeded
    apply exceeded
    rw [Fits, ← same]
    exact twinFits
  have admitted : engine.Admits [isolate request question id valid] := by
    refine ⟨List.cons_ne_nil _ _, engine.config.requestsRange.1, fun other member => ?_⟩
    rw [List.mem_singleton.mp member]
    exact known
  have ends := evaluate_of_solved pointwise sameRuntime sameRuntime rfl rfl fits admitted
    (fun other member text otherRendered key otherQuestion present => by
      rw [List.mem_singleton.mp member] at otherRendered present
      rw [show (isolate request question id valid).state = request.state from rfl, rendered]
        at otherRendered
      cases otherRendered
      cases List.mem_singleton.mp present
      exact solved) alone
  rcases ends with success | ⟨_, _, _, _, impossible⟩
  · exact success
  · exact impossible.elim

theorem isolate_response (pointwise : Pointwise runtime tokens complete)
    (sameRuntime : engine.runtime = runtime) {request : SystemOneRequest} {question : Question}
    {id : Str} {valid : identifier id = true} {alone : σ} {run : DecisionRun F} {world : World σ}
    (success : engine.evaluate [isolate request question id valid] alone = (.ok run, world)) :
    ∃ state response completions answer,
      dumpsOrRaise .default request.state.value = .ok state ∧ run.responses = [response] ∧
        Outcome F engine complete state question completions answer ∧
          response.answers.entries = [(id, answer)] ∧
            response.usage = (completions.map Completion.usage).sum := by
  have found : [isolate request question id valid][0]? =
      some (isolate request question id valid) := rfl
  obtain ⟨state, response, rendered, responded, _, keys, outcomes, related, usage⟩ :=
    outcomes_of_evaluate pointwise sameRuntime success found
  obtain ⟨_, _, returned⟩ :=
    evaluate_ok (Pointwise.answers pointwise sameRuntime).produces success
  have single := returned.responses.length_eq
  simp only [List.length_zipIdx, List.length_singleton] at single
  obtain ⟨only, shape⟩ := List.length_eq_one_iff.mp single.symm
  rw [shape] at responded
  cases responded
  change response.answers.keys = [id] at keys
  change List.Forall₂ _ [(id, question)] outcomes at related
  obtain ⟨outcome, rest, ⟨known, looked⟩, none, rfl⟩ := List.forall₂_cons_left_iff.mp related
  cases none
  refine ⟨state, response, outcome.1, outcome.2, rendered, shape, known, ?_, by simpa using usage⟩
  have counted := congrArg List.length keys
  rw [Dict.keys, List.length_map] at counted
  obtain ⟨entry, entryShape⟩ := List.length_eq_one_iff.mp counted
  have member := Dict.get?_eq_some_iff.mp looked
  rw [entryShape] at member
  rw [entryShape, List.mem_singleton.mp member]

theorem responses_agree (source target : DecisionEngine σ)
    (pointwise : Pointwise runtime tokens complete) (sourceRuntime : source.runtime = runtime)
    (targetRuntime : target.runtime = runtime) (sameModel : source.model = target.model)
    (sameOutput : source.config.outputTokens = target.config.outputTokens)
    {requests : List SystemOneRequest} {start otherStart : σ} {run other : DecisionRun F}
    {world otherWorld : World σ}
    (success : source.evaluate requests start = (.ok run, world))
    (otherSuccess : target.evaluate requests otherStart = (.ok other, otherWorld)) :
    run.responses = other.responses := by
  have sourceCount : run.responses.length = requests.length := by
    obtain ⟨_, _, returned⟩ :=
      evaluate_ok (Pointwise.answers pointwise sourceRuntime).produces success
    simpa using returned.responses.length_eq.symm
  have targetCount : other.responses.length = requests.length := by
    obtain ⟨_, _, returned⟩ :=
      evaluate_ok (Pointwise.answers pointwise targetRuntime).produces otherSuccess
    simpa using returned.responses.length_eq.symm
  apply List.ext_getElem?
  intro index
  cases found : requests[index]? with
  | none =>
      have outside := List.getElem?_eq_none_iff.mp found
      rw [List.getElem?_eq_none (sourceCount ▸ outside),
        List.getElem?_eq_none (targetCount ▸ outside)]
  | some request =>
      obtain ⟨state, response, rendered, responded, model, keys, outcomes, related, usage⟩ :=
        outcomes_of_evaluate pointwise sourceRuntime success found
      obtain ⟨_, response', rendered', responded', model', keys', outcomes', related', usage'⟩ :=
        outcomes_of_evaluate pointwise targetRuntime otherSuccess found
      rw [rendered] at rendered'
      cases rendered'
      have paired : List.Forall₂ (fun outcome outcome' : List Completion × Answer F =>
          outcome = outcome') outcomes outcomes' := by
        clear usage usage'
        generalize request.questions.entries = entries at related related'
        induction related generalizing outcomes' with
        | nil =>
            cases related'
            exact .nil
        | cons head _ ih =>
            cases related' with
            | cons head' rest' =>
                obtain ⟨completions, answers⟩ := Outcome.unique pointwise sourceRuntime
                  targetRuntime sameOutput head.1 head'.1
                exact .cons (Prod.ext completions answers) (ih _ rest')
      have same : outcomes = outcomes' := List.forall₂_eq_eq_eq ▸ paired
      subst same
      have answers : response.answers = response'.answers := by
        apply Dict.ext_get? (keys.trans keys'.symm)
        intro key member
        obtain ⟨⟨_, question⟩, present, rfl⟩ := List.mem_map.mp (keys ▸ member)
        obtain ⟨position, located⟩ := List.getElem?_of_mem present
        obtain ⟨outcome, here, _, looked⟩ := forall₂_getElem? related located
        obtain ⟨outcome', here', _, looked'⟩ := forall₂_getElem? related' located
        cases here.symm.trans here'
        rw [looked, looked']
      rw [responded, responded']
      cases response
      cases response'
      simp_all

theorem succeeds_of_solved (source target : DecisionEngine σ)
    (pointwise : Pointwise runtime tokens complete) (sourceRuntime : source.runtime = runtime)
    (targetRuntime : target.runtime = runtime)
    (sameOutput : source.config.outputTokens = target.config.outputTokens)
    (sameRetries : source.config.validationRetries = target.config.validationRetries)
    {requests : List SystemOneRequest} {start : σ} (admitted : target.Admits requests)
    (free : BudgetFree F target requests start)
    (solved : ∀ request ∈ requests, ∀ state,
      dumpsOrRaise .default request.state.value = .ok state →
        ∀ key question, (key, question) ∈ request.questions.entries →
          Solved F source complete state question) :
    Succeeds F target requests start := by
  have exceeded : ∀ twin item, source.Fits twin → twin.reservedTokens = item.reservedTokens →
      ¬ target.Fits item → True := fun _ _ _ _ _ => trivial
  have ends :=
    evaluate_of_solved pointwise sourceRuntime targetRuntime sameOutput sameRetries exceeded
    admitted solved start
  rcases ends with success | ⟨reason, world, failed, budget, _⟩
  · exact success
  · exact absurd budget (free reason world failed)

theorem solved_of_isolate (pointwise : Pointwise runtime tokens complete)
    (sameRuntime : engine.runtime = runtime) {request : SystemOneRequest} {question : Question}
    {id : Str} {valid : identifier id = true} {alone : σ}
    (success : Succeeds F engine [isolate request question id valid] alone) {state : Str}
    (rendered : dumpsOrRaise .default request.state.value = .ok state) :
    Solved F engine complete state question :=
  solved_of_evaluate pointwise sameRuntime success List.mem_cons_self rendered
    (List.mem_singleton.mpr rfl : (id, question) ∈ [(id, question)])

private theorem exists_isolated {α β γ δ : Type} [AddMonoid δ] {related : α → β → Prop}
    {built : α → γ → Prop} {left : β → δ} {right : γ → δ} {items : List α} {results : List β}
    (all : List.Forall₂ related items results)
    (each : ∀ item ∈ items, ∀ result, related item result →
      ∃ single, built item single ∧ left result = right single) :
    ∃ singles, List.Forall₂ built items singles ∧ results.map left = singles.map right := by
  induction all with
  | nil => exact ⟨[], .nil, rfl⟩
  | @cons item result items results head _ ih =>
      obtain ⟨single, known, same⟩ := each item List.mem_cons_self result head
      obtain ⟨singles, others, equal⟩ := ih fun found member =>
        each found (List.mem_cons_of_mem _ member)
      exact ⟨single :: singles, .cons known others,
        by rw [List.map_cons, List.map_cons, same, equal]⟩

/-- The response of a request is made of those of its questions alone. -/
theorem response_of_isolated (pointwise : Pointwise runtime tokens complete)
    (sameRuntime : engine.runtime = runtime) {requests : List SystemOneRequest} {start alone : σ}
    {run : DecisionRun F} {world : World σ}
    (success : engine.evaluate requests start = (.ok run, world))
    (known : ∀ request ∈ requests, engine.served request.model = true) (rename : Str → Str)
    (valid : ∀ key, identifier (rename key) = true) {index : Nat} {request : SystemOneRequest}
    (found : requests[index]? = some request) :
    ∃ response, run.responses[index]? = some response ∧
      response.answers.keys = request.questions.keys ∧
      ∃ isolated : List (SystemOneResponse F),
        List.Forall₂ (fun entry single => ∃ (aloneRun : DecisionRun F) (aloneWorld : World σ),
          engine.evaluate [isolate request entry.2 (rename entry.1) (valid entry.1)] alone =
            (.ok aloneRun, aloneWorld) ∧
          aloneRun.responses = [single] ∧
          ∃ answer, single.answers.entries = [(rename entry.1, answer)] ∧
            response.answers.get? entry.1 = some answer)
          request.questions.entries isolated ∧
        response.usage = (isolated.map SystemOneResponse.usage).sum := by
  obtain ⟨state, response, rendered, responded, _, keys, outcomes, related, usage⟩ :=
    outcomes_of_evaluate pointwise sameRuntime success found
  refine ⟨response, responded, keys, ?_⟩
  have member := List.mem_of_getElem? found
  have each : ∀ entry ∈ request.questions.entries, ∀ outcome : List Completion × Answer F,
      Outcome F engine complete state entry.2 outcome.1 outcome.2 ∧
        response.answers.get? entry.1 = some outcome.2 →
          ∃ single : SystemOneResponse F, (∃ (aloneRun : DecisionRun F) (aloneWorld : World σ),
            engine.evaluate [isolate request entry.2 (rename entry.1) (valid entry.1)] alone =
              (.ok aloneRun, aloneWorld) ∧
            aloneRun.responses = [single] ∧
            ∃ answer, single.answers.entries = [(rename entry.1, answer)] ∧
              response.answers.get? entry.1 = some answer) ∧
            (outcome.1.map Completion.usage).sum = single.usage := by
    intro entry present outcome ⟨known', looked⟩
    have solved := solved_of_evaluate pointwise sameRuntime ⟨run, world, success⟩ member rendered
      present
    obtain ⟨aloneRun, aloneWorld, returned⟩ := isolate_succeeds pointwise sameRuntime
      (known request member) rendered solved (valid entry.1) alone
    obtain ⟨other, single, completions, answer, rendered', shape, reached, entries, spent⟩ :=
      isolate_response pointwise sameRuntime returned
    rw [rendered] at rendered'
    cases rendered'
    obtain ⟨sameCompletions, sameAnswer⟩ := Outcome.unique pointwise sameRuntime sameRuntime rfl
      known' reached
    refine ⟨single, ⟨aloneRun, aloneWorld, returned, shape, answer, entries, ?_⟩, ?_⟩
    · rw [looked, sameAnswer]
    · rw [sameCompletions, spent]
  obtain ⟨isolated, singles⟩ := exists_isolated related each
  exact ⟨isolated, singles.1, usage.trans (congrArg List.sum singles.2)⟩

end Isolation

/-- Batching is an optimisation of isolated execution: two configurations that
differ only in their batch limits succeed together, exactly when every question
succeeds alone; then their responses are equal, and each answer and usage is
made of the isolated ones. -/
theorem batching_equals_isolation {runtime : Runtime σ} {model : Str}
    {left right : EngineConfig} {tokens : List Message → List Int}
    {complete : List Int → Nat → Completion} (pointwise : Pointwise runtime tokens complete)
    (same : SameLimits left right) {requests : List SystemOneRequest}
    (admitted : Admits ⟨runtime, model, left⟩ requests) (leftStart rightStart alone : σ)
    (leftFree : BudgetFree F ⟨runtime, model, left⟩ requests leftStart)
    (rightFree : BudgetFree F ⟨runtime, model, right⟩ requests rightStart)
    (rename : Nat → Str → Str) (valid : ∀ index key, identifier (rename index key) = true) :
    (Succeeds F ⟨runtime, model, left⟩ requests leftStart ↔
      Succeeds F ⟨runtime, model, right⟩ requests rightStart) ∧
    (Succeeds F ⟨runtime, model, left⟩ requests leftStart ↔
      ∀ index request key question, requests[index]? = some request →
        (key, question) ∈ request.questions.entries →
          Succeeds F ⟨runtime, model, left⟩
            [isolate request question (rename index key) (valid index key)] alone) ∧
    ∀ (run : DecisionRun F) world,
      evaluate ⟨runtime, model, left⟩ requests leftStart = (.ok run, world) →
      (∀ (other : DecisionRun F) otherWorld,
        evaluate ⟨runtime, model, right⟩ requests rightStart = (.ok other, otherWorld) →
          other.responses = run.responses) ∧
      ∀ index request, requests[index]? = some request →
        ∃ response, run.responses[index]? = some response ∧
          response.answers.keys = request.questions.keys ∧
          ∃ isolated : List (SystemOneResponse F),
            List.Forall₂ (fun entry single => ∃ (aloneRun : DecisionRun F) (aloneWorld : World σ),
              evaluate ⟨runtime, model, left⟩
                  [isolate request entry.2 (rename index entry.1) (valid index entry.1)] alone =
                (.ok aloneRun, aloneWorld) ∧
              aloneRun.responses = [single] ∧
              ∃ answer, single.answers.entries = [(rename index entry.1, answer)] ∧
                response.answers.get? entry.1 = some answer)
              request.questions.entries isolated ∧
            response.usage = (isolated.map SystemOneResponse.usage).sum := by
  have admittedRight : Admits ⟨runtime, model, right⟩ requests :=
    ⟨admitted.1, same.maxRequests ▸ admitted.2.1, admitted.2.2⟩
  refine ⟨⟨?_, ?_⟩, ⟨?_, ?_⟩, ?_⟩
  · intro success
    apply succeeds_of_solved ⟨runtime, model, left⟩ ⟨runtime, model, right⟩ pointwise rfl rfl
      same.outputTokens same.retries admittedRight rightFree
    exact fun request member state rendered key question present =>
      solved_of_evaluate pointwise rfl success member rendered present
  · intro success
    apply succeeds_of_solved ⟨runtime, model, right⟩ ⟨runtime, model, left⟩ pointwise rfl rfl
      same.outputTokens.symm same.retries.symm admitted leftFree
    exact fun request member state rendered key question present =>
      solved_of_evaluate pointwise rfl success member rendered present
  · intro success index request key question found present
    have member := List.mem_of_getElem? found
    obtain ⟨state, rendered⟩ := dumpsOrRaise_ok .default request.state.finite
    exact isolate_succeeds pointwise rfl (admitted.2.2 request member) rendered
      (solved_of_evaluate pointwise rfl success member rendered present) _ alone
  · intro singles
    apply succeeds_of_solved ⟨runtime, model, left⟩ ⟨runtime, model, left⟩ pointwise rfl rfl rfl rfl
      admitted leftFree
    intro request member state rendered key question present
    obtain ⟨index, found⟩ := List.getElem?_of_mem member
    exact solved_of_isolate pointwise rfl (singles index request key question found present) rendered
  · intro run world success
    constructor
    · intro other otherWorld otherSuccess
      exact (responses_agree ⟨runtime, model, left⟩ ⟨runtime, model, right⟩ pointwise rfl rfl rfl
        same.outputTokens success otherSuccess).symm
    · intro index request found
      exact response_of_isolated pointwise rfl success admitted.2.2 (rename index) (valid index)
        found

def steadyRuntime : Runtime Unit where
  encode _ state := (.ok [1], state)
  generate jobs state := (.ok (jobs.map fun _ =>
    ⟨lit "\x7b\"noul\":1\x7d", ⟨2, 3⟩, lit "stop"⟩), state)

theorem batching_equals_isolation_steady :
    ∃ (run other : DecisionRun ℝ) (world otherWorld : World Unit),
      evaluate ⟨steadyRuntime, lit "m", sampleConfig 32 (by decide)⟩
        [noulRequest (lit "s"), noulRequest (lit "t")] () = (.ok run, world) ∧
      evaluate ⟨steadyRuntime, lit "m", sampleConfig 1 (by decide)⟩
        [noulRequest (lit "s"), noulRequest (lit "t")] () = (.ok other, otherWorld) ∧
      other.responses = run.responses := by
  have free : ∀ count range, Succeeds ℝ ⟨steadyRuntime, lit "m", sampleConfig count range⟩
      [noulRequest (lit "s"), noulRequest (lit "t")] () → BudgetFree ℝ
        ⟨steadyRuntime, lit "m", sampleConfig count range⟩
          [noulRequest (lit "s"), noulRequest (lit "t")] () := by
    intro count range success reason world failed
    obtain ⟨run, after, success⟩ := success
    rw [success] at failed
    cases failed
  have pointwise : Pointwise steadyRuntime (fun _ => [1])
      (fun _ _ => ⟨lit "\x7b\"noul\":1\x7d", ⟨2, 3⟩, lit "stop"⟩) :=
    ⟨fun _ _ => rfl, fun _ _ => rfl⟩
  have limits : SameLimits (sampleConfig 32 (by decide)) (sampleConfig 1 (by decide)) :=
    ⟨rfl, rfl, rfl, rfl⟩
  have batched : Succeeds ℝ ⟨steadyRuntime, lit "m", sampleConfig 32 (by decide)⟩
      [noulRequest (lit "s"), noulRequest (lit "t")] () := succeeds_of_toBool (by decide +kernel)
  have single : Succeeds ℝ ⟨steadyRuntime, lit "m", sampleConfig 1 (by decide)⟩
      [noulRequest (lit "s"), noulRequest (lit "t")] () := succeeds_of_toBool (by decide +kernel)
  obtain ⟨_, _, agree⟩ := batching_equals_isolation pointwise limits
    ⟨List.cons_ne_nil _ _, by decide, by decide +kernel⟩ () () () (free 32 _ batched)
    (free 1 _ single) (fun _ _ => lit "z") (fun _ _ => by decide)
  obtain ⟨run, world, success⟩ := batched
  obtain ⟨other, otherWorld, otherSuccess⟩ := single
  exact ⟨run, other, world, otherWorld, success, otherSuccess,
    (agree run world success).1 other otherWorld otherSuccess⟩

end DecisionEngine

end VllmVerifier.Engine
