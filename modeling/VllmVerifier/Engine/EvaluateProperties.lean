import VllmVerifier.Engine.CoreProperties
import VllmVerifier.VerificationProperties

/-!
Routing through `evaluate`. The queue it prepares has one job for each question
of each request; the chain of that job in the history decides the answer, and
the completions of a request add up to its usage.
-/

set_option autoImplicit false

namespace VllmVerifier.Engine

open Python Worklist

/-! ## The prepared queue -/

theorem filter_eq_singleton {Item Label : Type} [DecidableEq Label] {label : Item → Label}
    {items : List Item} (distinct : (items.map label).Nodup) {item : Item}
    (member : item ∈ items) : items.filter (fun found => label found = label item) = [item] := by
  induction items with
  | nil => cases member
  | cons head rest ih =>
      rw [List.map_cons, List.nodup_cons] at distinct
      rcases List.mem_cons.mp member with rfl | later
      · have none : rest.filter (fun found => label found = label item) = [] := by
          apply List.filter_eq_nil_iff.mpr
          intro found present same
          exact distinct.1 (List.mem_map.mpr ⟨found, present, of_decide_eq_true same⟩)
        simp [none]
      · have different : label head ≠ label item :=
          fun same => distinct.1 (List.mem_map.mpr ⟨item, later, same.symm⟩)
        simp [different, ih distinct.2 later]

/-- The first jobs of a list of requests with their states. -/
structure Starts {σ : Type} (engine : DecisionEngine σ) (requests : List SystemOneRequest)
    (states : List Str) (pending : List WorkItem) : Prop where
  stateCount : states.length = requests.length
  jobCount : pending.length =
    (requests.map fun request => request.questions.entries.length).sum
  complete : ∀ index request state key question, requests[index]? = some request →
    states[index]? = some state → (key, question) ∈ request.questions.entries →
      ∃ item, pending.filter (fun job => job.label = (index, key)) = [item] ∧
        engine.Builds index key state question 0 none item
  sound : ∀ item ∈ pending, ∃ request state question,
    requests[item.requestIndex]? = some request ∧ states[item.requestIndex]? = some state ∧
      (item.questionId, question) ∈ request.questions.entries ∧
        engine.Builds item.requestIndex item.questionId state question 0 none item

theorem Starts.attempts {σ : Type} {engine : DecisionEngine σ} {requests : List SystemOneRequest}
    {states : List Str} {pending : List WorkItem} (starts : Starts engine requests states pending) :
    ∀ item ∈ pending, item.attempt = 0 := by
  intro item member
  obtain ⟨_, _, _, _, _, _, builds⟩ := starts.sound item member
  exact builds.numbered

namespace DecisionEngine

variable {σ F : Type} [LogField F] {engine : DecisionEngine σ}

theorem requestJobs_ok {index : Nat} {state : Str} {request : SystemOneRequest}
    {world after : World σ} {jobs : List WorkItem}
    (success : engine.requestJobs index state request world = (.ok jobs, after)) :
    after.history = world.history ∧ List.Forall₂ (fun entry item =>
      engine.Builds index entry.1 state entry.2 0 none item) request.questions.entries jobs := by
  refine Run.mapM_ok ?_ success
  intro entry _ before result middle built
  exact job_ok built

theorem queue_labels {index : Nat} {state : Str} {request : SystemOneRequest}
    {jobs : List WorkItem} (built : List.Forall₂ (fun (entry : Str × Question) item =>
      engine.Builds index entry.1 state entry.2 0 none item) request.questions.entries jobs) :
    jobs.map WorkItem.label = request.questions.keys.map fun key => (index, key) := by
  unfold Dict.keys
  generalize request.questions.entries = entries at built
  induction built with
  | nil => rfl
  | cons head _ ih => simp [ih, WorkItem.label, head.requestIndex, head.questionId]

private theorem queues_distinct {entries : List ((SystemOneRequest × Str) × Nat)}
    {queues : List (List WorkItem)} (indices : (entries.map Prod.snd).Nodup)
    (built : List.Forall₂ (fun entry queue => List.Forall₂ (fun (question : Str × Question) item =>
      engine.Builds entry.2 question.1 entry.1.2 question.2 0 none item)
        entry.1.1.questions.entries queue) entries queues) :
    (queues.flatten.map WorkItem.label).Nodup ∧
      ∀ item ∈ queues.flatten, item.requestIndex ∈ entries.map Prod.snd := by
  induction built with
  | nil => simp
  | @cons entry queue entries queues head _ ih =>
      rw [List.map_cons, List.nodup_cons] at indices
      obtain ⟨distinct, known⟩ := ih indices.2
      have labels := queue_labels head
      have first : ∀ item ∈ queue, item.requestIndex = entry.2 := by
        intro item member
        obtain ⟨question, _, builds⟩ := forall₂_mem_right head member
        exact builds.requestIndex
      constructor
      · rw [List.flatten_cons, List.map_append, List.nodup_append]
        refine ⟨?_, distinct, ?_⟩
        · rw [labels]
          exact entry.1.1.questions.distinct.map fun _ _ same => (Prod.mk.inj same).2
        · intro left leftMember right rightMember same
          obtain ⟨item, itemMember, rfl⟩ := List.mem_map.mp leftMember
          obtain ⟨other, otherMember, rfl⟩ := List.mem_map.mp rightMember
          have shared := congrArg Prod.fst same
          simp only [WorkItem.label, first item itemMember] at shared
          exact indices.1 (shared ▸ known other otherMember)
      · intro item member
        rcases List.mem_append.mp (List.flatten_cons ▸ member) with here | later
        · exact List.mem_cons.mpr (.inl (first item here))
        · exact List.mem_cons_of_mem _ (known item later)

private theorem queues_lengths {entries : List ((SystemOneRequest × Str) × Nat)}
    {queues : List (List WorkItem)}
    (built : List.Forall₂ (fun entry queue => List.Forall₂ (fun (question : Str × Question) item =>
      engine.Builds entry.2 question.1 entry.1.2 question.2 0 none item)
        entry.1.1.questions.entries queue) entries queues) :
    queues.map List.length =
      entries.map fun entry => entry.1.1.questions.entries.length := by
  induction built with
  | nil => rfl
  | cons head _ ih => rw [List.map_cons, List.map_cons, ih, head.length_eq]

/-- The queues of the requests, of which `prepare` returns the round robin. -/
theorem prepare_queues {requests : List SystemOneRequest} {states : List Str}
    {progress : Progress F} {world after : World σ}
    (success : engine.prepare requests world = (.ok (states, progress), after)) :
    ∃ queues, progress.pending = roundRobin queues ∧
      progress.answers = requests.map (fun _ => Dict.empty) ∧
      progress.usage = requests.map (fun _ => 0) ∧
      progress.stats = ⟨0, 0, 0, [], queues.map sharedPrefix⟩ ∧
      List.Forall₂ (fun request state =>
        dumpsOrRaise .default request.state.value = .ok state) requests states ∧
      after.history = world.history ∧
      List.Forall₂ (fun (entry : (SystemOneRequest × Str) × Nat) queue =>
        List.Forall₂ (fun (question : Str × Question) item =>
          engine.Builds entry.2 question.1 entry.1.2 question.2 0 none item)
            entry.1.1.questions.entries queue) (requests.zip states).zipIdx queues := by
  unfold prepare at success
  split at success
  · exact absurd success Run.raise_not_ok
  split at success
  · exact absurd success Run.raise_not_ok
  obtain ⟨rendered, dumped, success⟩ := Run.lift_bind_ok success
  obtain ⟨queues, middle, mapped, success⟩ := Run.bind_ok success
  obtain ⟨same, rfl⟩ := Run.pure_ok success
  cases same
  exact ⟨queues, rfl, rfl, rfl, rfl, mapM_ok_iff.mp dumped,
    Run.mapM_ok (fun entry _ before result middle ran => requestJobs_ok ran) mapped⟩

theorem prepare_ok {requests : List SystemOneRequest} {states : List Str} {progress : Progress F}
    {world after : World σ}
    (success : engine.prepare requests world = (.ok (states, progress), after)) :
    after.history = world.history ∧
      List.Forall₂ (fun request state =>
        dumpsOrRaise .default request.state.value = .ok state) requests states ∧
      progress.answers = requests.map (fun _ => Dict.empty) ∧
      progress.usage = requests.map (fun _ => 0) ∧
      Starts engine requests states progress.pending := by
  obtain ⟨queues, pending, answers, usage, _, stateShapes, history, built⟩ :=
    prepare_queues success
  have counted := stateShapes.length_eq
  have indices : (((requests.zip states).zipIdx).map Prod.snd).Nodup := by
    rw [List.zipIdx_map_snd]
    exact List.nodup_range'
  obtain ⟨distinct, _⟩ := queues_distinct indices built
  have order := roundRobin_perm queues
  refine ⟨history, stateShapes, answers, usage, counted.symm, ?_, ?_, ?_⟩
  · have lengths := queues_lengths built
    have first : (requests.zip states).map Prod.fst = requests :=
      List.map_fst_zip (Nat.le_of_eq counted)
    rw [pending, order.length_eq, List.length_flatten, lengths]
    conv_rhs => rw [← first, ← List.zipIdx_map_fst 0 (requests.zip states)]
    simp only [List.map_map, Function.comp_def]
  · intro index request state key question requestFound stateFound member
    have zipped : (requests.zip states)[index]? = some (request, state) :=
      List.getElem?_zip_eq_some.mpr ⟨requestFound, stateFound⟩
    have paired : (requests.zip states).zipIdx[index]? = some ((request, state), index) := by
      simp [List.getElem?_zipIdx, zipped]
    obtain ⟨queue, queueMember, queueBuilt⟩ :=
      forall₂_mem_left built (List.mem_of_getElem? paired)
    obtain ⟨item, itemMember, builds⟩ := forall₂_mem_left queueBuilt member
    have queued : item ∈ roundRobin queues :=
      order.mem_iff.mpr (List.mem_flatten.mpr ⟨queue, queueMember, itemMember⟩)
    have labels : ((roundRobin queues).map WorkItem.label).Nodup :=
      (order.map WorkItem.label).nodup_iff.mpr distinct
    have label : item.label = (index, key) := by
      rw [WorkItem.label, builds.requestIndex, builds.questionId]
    have single := filter_eq_singleton labels queued
    rw [label] at single
    exact ⟨item, pending ▸ single, builds⟩
  · intro item member
    rw [pending] at member
    obtain ⟨queue, queueMember, itemMember⟩ := List.mem_flatten.mp (order.mem_iff.mp member)
    obtain ⟨⟨⟨request, state⟩, index⟩, entryMember, queueBuilt⟩ :=
      forall₂_mem_right built queueMember
    obtain ⟨⟨key, question⟩, questionMember, builds⟩ := forall₂_mem_right queueBuilt itemMember
    have paired := List.mk_mem_zipIdx_iff_getElem?.mp entryMember
    obtain ⟨requestFound, stateFound⟩ := List.getElem?_zip_eq_some.mp paired
    have sameIndex := builds.requestIndex
    have sameKey := builds.questionId
    dsimp only at sameIndex sameKey builds
    rw [sameIndex, sameKey]
    exact ⟨request, state, question, requestFound, stateFound, questionMember, builds⟩

/-! ## Answers and usage of a history -/

/-- The answer recorded for a question of a request. -/
def answerAt (answers : List (Dict Str (Answer F))) (label : Nat × Str) : Option (Answer F) :=
  answers[label.1]?.bind fun found => found.get? label.2

theorem record_length (answers : List (Dict Str (Answer F))) (row : WorkItem × Completion) :
    (record answers row).length = answers.length := by
  unfold record
  split
  · exact List.length_modify ..
  · rfl

theorem foldl_record_length (rows : List (WorkItem × Completion))
    (answers : List (Dict Str (Answer F))) :
    (rows.foldl record answers).length = answers.length := by
  induction rows generalizing answers with
  | nil => rfl
  | cons row rest ih => rw [List.foldl_cons, ih, record_length]

theorem answerAt_record_of_ne {row : WorkItem × Completion} {label : Nat × Str}
    (different : row.1.label ≠ label) (answers : List (Dict Str (Answer F))) :
    answerAt (record answers row) label = answerAt answers label := by
  unfold record
  split
  · rename_i answer _
    unfold answerAt
    rw [List.getElem?_modify]
    by_cases same : row.1.requestIndex = label.1
    · have otherKey : label.2 ≠ row.1.questionId :=
        fun key => different (Prod.ext same key.symm)
      cases found : answers[label.1]? with
      | none => simp
      | some dict => simp [same, Dict.get?_set_of_ne otherKey]
    · simp [same]
  · rfl

theorem answerAt_foldl_of_ne {rows : List (WorkItem × Completion)} {label : Nat × Str}
    (different : ∀ row ∈ rows, row.1.label ≠ label) (answers : List (Dict Str (Answer F))) :
    answerAt (rows.foldl record answers) label = answerAt answers label := by
  induction rows generalizing answers with
  | nil => rfl
  | cons row rest ih =>
      rw [List.foldl_cons, ih fun found member => different found (List.mem_cons_of_mem _ member),
        answerAt_record_of_ne (different row List.mem_cons_self)]

theorem answerAt_record_self {row : WorkItem × Completion} {answer : Answer F}
    {answers : List (Dict Str (Answer F))} (accepted : judge row.1.question row.2 = .ok answer)
    (inside : row.1.requestIndex < answers.length) :
    answerAt (record answers row) row.1.label = some answer := by
  unfold record answerAt WorkItem.label
  simp only [accepted]
  rw [List.getElem?_modify, List.getElem?_eq_getElem inside]
  simp

/-- The last row of a label decides its answer when it was accepted. -/
theorem answerAt_foldl {rows rejected : List (WorkItem × Completion)}
    {last : WorkItem × Completion} {label : Nat × Str} {answer : Answer F}
    {answers : List (Dict Str (Answer F))}
    (chain : rows.filter (fun row => row.1.label = label) = rejected ++ [last])
    (accepted : judge last.1.question last.2 = .ok answer) (inside : label.1 < answers.length) :
    answerAt (rows.foldl record answers) label = some answer := by
  obtain ⟨before, rest, rfl, _, tail⟩ := List.filter_eq_append_iff.mp chain
  obtain ⟨skipped, after, rfl, _, same, none⟩ := List.filter_eq_cons_iff.mp tail
  have lastLabel : last.1.label = label := of_decide_eq_true same
  have later : ∀ row ∈ after, row.1.label ≠ label := by
    intro row member
    simpa using List.filter_eq_nil_iff.mp none row member
  rw [List.foldl_append, List.foldl_append, List.foldl_cons, answerAt_foldl_of_ne later,
    ← lastLabel]
  apply answerAt_record_self accepted
  rw [foldl_record_length, foldl_record_length, ← show label.1 = last.1.requestIndex from
    lastLabel ▸ rfl]
  exact inside

theorem foldl_charge (rows : List (WorkItem × Completion)) (usage : List Usage) (index : Nat) :
    (rows.foldl charge usage)[index]? = usage[index]?.map fun used =>
      used + ((rows.filter fun row => row.1.requestIndex = index).map fun row =>
        row.2.usage).sum := by
  induction rows generalizing usage with
  | nil => simp
  | cons row rest ih =>
      rw [List.foldl_cons, ih, charge, List.getElem?_modify]
      by_cases same : row.1.requestIndex = index
      · cases usage[index]? with
        | none => simp
        | some used => simp [same, add_assoc]
      · simp [same]

/-! ## A returning run -/

/-- What `evaluate` did when it returned. -/
structure Returned (engine : DecisionEngine σ) (produced : WorkItem → Completion → Prop)
    (requests : List SystemOneRequest) (run : DecisionRun F) (world : World σ)
    (states : List Str) (pending : List WorkItem) : Prop where
  rendered : List.Forall₂ (fun request state =>
    dumpsOrRaise .default request.state.value = .ok state) requests states
  starts : Starts engine requests states pending
  drains : Drains (policy F engine states produced) pending world.history
  responses : List.Forall₂ (fun entry response =>
    response.model = engine.model ∧
      response.answers.keys = entry.1.questions.keys ∧
      (∀ key answer, (key, answer) ∈ response.answers.entries →
        answerAt (world.history.foldl record (requests.map fun _ => Dict.empty))
          (entry.2, key) = some answer) ∧
      response.usage = ((world.history.filter fun row => row.1.requestIndex = entry.2).map
        fun row => row.2.usage).sum) requests.zipIdx run.responses

theorem response_ok {progress : Progress F} {entry : SystemOneRequest × Nat}
    {response : SystemOneResponse F} (success : engine.response progress entry = .ok response) :
    response.model = engine.model ∧ response.answers.keys = entry.1.questions.keys ∧
      (∀ key answer, (key, answer) ∈ response.answers.entries →
        answerAt progress.answers (entry.2, key) = some answer) ∧
      progress.usage[entry.2]? = some response.usage := by
  obtain ⟨found, located, success⟩ := except_bind_ok success
  obtain ⟨answers, collected, success⟩ := except_bind_ok success
  obtain ⟨used, charged, success⟩ := except_bind_ok success
  cases success
  obtain ⟨keys, looked⟩ := Dict.comprehension_ok entry.1.questions.distinct collected
  refine ⟨rfl, keys, ?_, at?_ok charged⟩
  intro key answer member
  have lookup := looked key answer member
  unfold answerAt
  rw [at?_ok located, Option.bind_some]
  exact getItem_ok_iff.mp lookup

theorem evaluate_ok {produced : WorkItem → Completion → Prop} {requests : List SystemOneRequest}
    {state : σ} {run : DecisionRun F} {world : World σ} (known : engine.Produces produced)
    (success : engine.evaluate requests state = (.ok run, world)) :
    ∃ states pending, Returned engine produced requests run world states pending := by
  obtain ⟨⟨states, initial⟩, prepared, ready, success⟩ := Run.bind_ok success
  obtain ⟨final, looped, ran, success⟩ := Run.bind_ok success
  obtain ⟨responses, built, success⟩ := Run.lift_bind_ok success
  obtain ⟨rfl, rfl⟩ := Run.pure_ok success
  obtain ⟨readyHistory, rendered, answers, usage, starts⟩ := prepare_ok ready
  obtain ⟨rows, history, finalUsage, finalAnswers, drains⟩ := generateLoop_ok known ran
  have whole : world.history = rows := by
    rw [history, readyHistory]
    rfl
  refine ⟨states, initial.pending, rendered, starts, whole ▸ drains, ?_⟩
  refine (mapM_ok_iff.mp built).imp ?_
  intro entry response made
  obtain ⟨model, keys, looked, charged⟩ := response_ok made
  refine ⟨model, keys, ?_, ?_⟩
  · rw [whole, ← answers, ← finalAnswers]
    exact looked
  · rw [finalUsage, usage, foldl_charge, ← whole] at charged
    obtain ⟨used, initially, total⟩ := Option.map_eq_some_iff.mp charged
    rw [List.getElem?_map] at initially
    obtain ⟨_, _, zero⟩ := Option.map_eq_some_iff.mp initially
    rw [← total, ← zero, zero_add]

/-! ## The chain of a question -/

variable {states : List Str} {produced : WorkItem → Completion → Prop}

theorem policy_label {item next : WorkItem} {completion : Completion}
    (retried : (policy F engine states produced).retries item completion next) :
    next.label = item.label := by
  obtain ⟨_, _, _, _, _, _, builds⟩ := retried
  rw [WorkItem.label, builds.requestIndex, builds.questionId]
  rfl

theorem policy_attempt {item next : WorkItem} {completion : Completion}
    (retried : (policy F engine states produced).retries item completion next) :
    next.attempt = item.attempt + 1 ∧ item.attempt < engine.config.validationRetries ∧
      next.question = item.question := by
  obtain ⟨_, _, _, _, below, _, builds⟩ := retried
  exact ⟨builds.numbered, below, builds.sameQuestion⟩

/-- The attempts of one question: all but the last rejected, the last accepted,
numbered from zero within the retries. -/
structure Attempts (engine : DecisionEngine σ) (F : Type) [LogField F] (question : Question)
    (rejected : List (WorkItem × Completion)) (last : WorkItem × Completion) : Prop where
  numbered : (rejected ++ [last]).map (fun row => row.1.attempt) =
    List.range (rejected.length + 1)
  bounded : rejected.length ≤ engine.config.validationRetries
  sameQuestion : ∀ row ∈ rejected ++ [last], row.1.question = question
  refused : ∀ row ∈ rejected, ∃ message,
    judge (F := F) row.1.question row.2 = .error (.invalidOutput message)
  accepted : ∃ answer : Answer F, judge last.1.question last.2 = .ok answer

theorem attempts_of_chain {item : WorkItem} {rows : List (WorkItem × Completion)}
    (chain : Chain (policy F engine states produced) item rows) (first : item.attempt = 0) :
    ∃ rejected last, rows = rejected ++ [last] ∧
      Attempts engine F item.question rejected last := by
  obtain ⟨rejected, last, rfl, accepted, refused⟩ := chain.shape
  have numbered := chain.attempts fun job result next retried => (policy_attempt retried).1
  have length := chain.length_le (fun job result next retried => (policy_attempt retried).1)
    (fun job result next retried => (policy_attempt retried).2.1)
    (by rw [first]; exact Nat.zero_le _)
  have kept : ∀ job result next, job.question = item.question →
      (policy F engine states produced).retries job result next →
        next.question = item.question :=
    fun job result next same retried => (policy_attempt retried).2.2.trans same
  have questions := chain.invariant kept rfl
  rw [first] at numbered length
  simp only [List.length_append, List.length_singleton] at numbered length
  refine ⟨rejected, last, rfl, ?_, by omega, questions, ?_, accepted.2⟩
  · rw [numbered, List.range_eq_range']
  · intro row member
    obtain ⟨next, _, message, _, judged, _⟩ := refused row member
    exact ⟨message, judged⟩

theorem chain_of_drains {requests : List SystemOneRequest} {pending : List WorkItem}
    {rows : List (WorkItem × Completion)} (starts : Starts engine requests states pending)
    (drains : Drains (policy F engine states produced) pending rows) {index : Nat}
    {request : SystemOneRequest} {key : Str} {question : Question}
    (found : requests[index]? = some request)
    (member : (key, question) ∈ request.questions.entries) :
    ∃ state item, states[index]? = some state ∧
      engine.Builds index key state question 0 none item ∧
        Chain (policy F engine states produced) item
          (rows.filter fun row => row.1.label = (index, key)) := by
  obtain ⟨inside, _⟩ := List.getElem?_eq_some_iff.mp found
  have stateFound := List.getElem?_eq_getElem (starts.stateCount ▸ inside)
  obtain ⟨item, single, builds⟩ :=
    starts.complete index request _ key question found stateFound member
  exact ⟨_, item, stateFound, builds,
    drains.chain (fun job result next retried => policy_label retried) single⟩

theorem responses_total {requests : List SystemOneRequest} {initial final : Progress F}
    {world middle after : World σ}
    (ready : engine.prepare requests world = (.ok (states, initial), middle)) {fuel : Nat}
    (ran : engine.generateLoop states fuel initial middle = (.ok final, after)) :
    ∃ responses, requests.zipIdx.mapM (engine.response final) = .ok responses := by
  obtain ⟨_, _, answers, usage, starts⟩ := prepare_ok ready
  have known : engine.Produces fun _ _ => True := fun _ _ _ _ _ _ _ => trivial
  obtain ⟨rows, _, finalUsage, finalAnswers, drains⟩ := generateLoop_ok known ran
  have built : ∀ entry ∈ requests.zipIdx,
      ∃ response, engine.response final entry = .ok response := by
    intro entry member
    obtain ⟨request, index⟩ := entry
    have found := List.mk_mem_zipIdx_iff_getElem?.mp member
    obtain ⟨inside, _⟩ := List.getElem?_eq_some_iff.mp found
    have width : index < final.answers.length := by
      rw [finalAnswers, foldl_record_length, answers, List.length_map]
      exact inside
    have charged : final.usage[index]?.isSome := by
      rw [finalUsage, usage, foldl_charge, List.getElem?_map, found]
      rfl
    obtain ⟨used, charged⟩ := Option.isSome_iff_exists.mp charged
    have located := List.getElem?_eq_getElem width
    have present : ∀ key ∈ request.questions.keys,
        ∃ answer, getItem final.answers[index] key = .ok answer := by
      intro key keyMember
      obtain ⟨⟨_, question⟩, questionMember, rfl⟩ := List.mem_map.mp keyMember
      obtain ⟨state, item, _, builds, chain⟩ :=
        chain_of_drains starts drains found questionMember
      obtain ⟨rejected, last, split, attempts⟩ := attempts_of_chain chain builds.numbered
      obtain ⟨answer, accepted⟩ := attempts.accepted
      have initialWidth : index < initial.answers.length := by
        rw [answers, List.length_map]
        exact inside
      have recorded := answerAt_foldl split accepted initialWidth
      rw [← finalAnswers, answerAt, located, Option.bind_some] at recorded
      exact ⟨answer, getItem_ok_iff.mpr recorded⟩
    obtain ⟨dict, collected⟩ := Dict.comprehension_total present
    refine ⟨⟨engine.model, dict, used⟩, ?_⟩
    simp only [response, at?, located, charged, except_ok_bind, collected]
    rfl
  cases mapped : requests.zipIdx.mapM (engine.response final) with
  | ok responses => exact ⟨responses, rfl⟩
  | error raised =>
      obtain ⟨entry, member, failed⟩ := mapM_error mapped
      obtain ⟨response, success⟩ := built entry member
      rw [success] at failed
      cases failed

theorem Returned.owned {requests : List SystemOneRequest} {run : DecisionRun F} {world : World σ}
    {pending : List WorkItem}
    (returned : Returned engine produced requests run world states pending) :
    ∀ row ∈ world.history, ∃ request, requests[row.1.requestIndex]? = some request ∧
      (row.1.questionId, row.1.question) ∈ request.questions.entries := by
  have initial : ∀ item ∈ pending, ∃ request, requests[item.requestIndex]? = some request ∧
      (item.questionId, item.question) ∈ request.questions.entries := by
    intro item member
    obtain ⟨request, _, question, found, _, present, builds⟩ := returned.starts.sound item member
    rw [builds.sameQuestion]
    exact ⟨request, found, present⟩
  apply returned.drains.invariant _ initial
  intro item completion next known retried
  have label := Prod.mk.inj (policy_label retried)
  obtain ⟨request, found, member⟩ := known
  rw [label.1, label.2, (policy_attempt retried).2.2]
  exact ⟨request, found, member⟩

/-- The recorded answer of a question is that of the last row of its chain. -/
theorem Returned.answer {requests : List SystemOneRequest} {run : DecisionRun F}
    {world : World σ} {pending : List WorkItem}
    (returned : Returned engine produced requests run world states pending) {index : Nat}
    {request : SystemOneRequest} {response : SystemOneResponse F} {key : Str}
    {question : Question} (found : requests[index]? = some request)
    (responded : run.responses[index]? = some response)
    (member : (key, question) ∈ request.questions.entries)
    {rejected : List (WorkItem × Completion)} {last : WorkItem × Completion} {answer : Answer F}
    (split : world.history.filter (fun row => row.1.label = (index, key)) = rejected ++ [last])
    (accepted : judge last.1.question last.2 = .ok answer) :
    response.answers.get? key = some answer := by
  have paired : requests.zipIdx[index]? = some (request, index) := by
    simp [List.getElem?_zipIdx, found]
  obtain ⟨other, otherFound, _, keys, looked, _⟩ := forall₂_getElem? returned.responses paired
  cases responded.symm.trans otherFound
  have present : key ∈ response.answers.keys := keys ▸ Dict.mem_keys_of_mem member
  obtain ⟨⟨_, stored⟩, storedMember, rfl⟩ := List.mem_map.mp present
  have width : index < (requests.map fun _ => (Dict.empty : Dict Str (Answer F))).length := by
    rw [List.length_map]
    exact (List.getElem?_eq_some_iff.mp found).1
  have recorded := answerAt_foldl split accepted width
  rw [looked _ _ storedMember] at recorded
  cases recorded
  exact Dict.get?_eq_some_iff.mpr storedMember

/-- What a request is charged splits over its questions. -/
theorem Returned.charged {requests : List SystemOneRequest} {run : DecisionRun F}
    {world : World σ} {pending : List WorkItem}
    (returned : Returned engine produced requests run world states pending) {index : Nat}
    {request : SystemOneRequest} (found : requests[index]? = some request) :
    ((world.history.filter fun row => row.1.requestIndex = index).map fun row =>
        row.2.usage).sum =
      (request.questions.keys.map fun key =>
        ((world.history.filter fun row => row.1.label = (index, key)).map fun row =>
          row.2.usage).sum).sum := by
  have covered : ∀ row ∈ world.history, decide (row.1.requestIndex = index) = true →
      row.1.questionId ∈ request.questions.keys := by
    intro row member same
    obtain ⟨owner, ownerFound, present⟩ := returned.owned row member
    rw [of_decide_eq_true same, found] at ownerFound
    cases ownerFound
    exact Dict.mem_keys_of_mem present
  have distinct : request.questions.keys.Nodup := request.questions.distinct
  have total := sum_filter_label (fun row : WorkItem × Completion => row.2.usage)
    (fun row => row.1.questionId) (fun row => decide (row.1.requestIndex = index)) distinct covered
  simpa only [WorkItem.label, Prod.mk.injEq, Bool.decide_and] using total

/-- A run that has a result. -/
def Succeeds (F : Type) [LogField F] (engine : DecisionEngine σ)
    (requests : List SystemOneRequest) (start : σ) : Prop :=
  ∃ (run : DecisionRun F) (world : World σ), engine.evaluate requests start = (.ok run, world)

theorem succeeds_of_toBool {engine : DecisionEngine σ} {requests : List SystemOneRequest} {start : σ}
    (returned : (engine.evaluate (F := F) requests start).1.toBool = true) :
    Succeeds F engine requests start := by
  obtain ⟨run, success⟩ := exists_ok_of_toBool returned
  exact ⟨run, _, Prod.ext success rfl⟩

/-- A run that returns has generated, for each question of each request, its
attempts in order until one was accepted; answers and usage go to the request
and key they belong to, and once the loop has returned so does the run. -/
theorem evaluate_routes (engine : DecisionEngine σ) (requests : List SystemOneRequest)
    (state : σ) :
    (∀ (run : DecisionRun F) world, engine.evaluate requests state = (.ok run, world) →
      run.responses.length = requests.length ∧
      (∀ row ∈ world.history, ∃ request, requests[row.1.requestIndex]? = some request ∧
        (row.1.questionId, row.1.question) ∈ request.questions.entries) ∧
      ∀ index request, requests[index]? = some request →
        ∃ response, run.responses[index]? = some response ∧
          response.answers.keys = request.questions.keys ∧
          response.usage = ((world.history.filter fun row =>
            row.1.requestIndex = index).map fun row => row.2.usage).sum ∧
          ∀ key question, (key, question) ∈ request.questions.entries →
            ∃ rejected last answer,
              world.history.filter (fun row => row.1.label = (index, key)) =
                rejected ++ [last] ∧
              Attempts engine F question rejected last ∧
              last.2.finishReason = lit "stop" ∧ verify last.2.text question = .ok answer ∧
              response.answers.get? key = some answer) ∧
    ∀ states (initial final : Progress F) middle after,
      engine.prepare requests ⟨state, []⟩ = (.ok (states, initial), middle) →
      engine.generateLoop states (engine.attemptBudget requests) initial middle =
        (.ok final, after) →
      ∃ run : DecisionRun F, engine.evaluate requests state = (.ok run, after) := by
  constructor
  · intro run world success
    have known : engine.Produces fun _ _ => True := fun _ _ _ _ _ _ _ => trivial
    obtain ⟨states, pending, returned⟩ := evaluate_ok known success
    refine ⟨by simpa using returned.responses.length_eq.symm, returned.owned, ?_⟩
    intro index request found
    have paired : requests.zipIdx[index]? = some (request, index) := by
      simp [List.getElem?_zipIdx, found]
    obtain ⟨response, responded, _, keys, looked, usage⟩ :=
      forall₂_getElem? returned.responses paired
    refine ⟨response, responded, keys, usage, ?_⟩
    intro key question member
    obtain ⟨_, item, _, builds, chain⟩ :=
      chain_of_drains returned.starts returned.drains found member
    obtain ⟨rejected, last, split, attempts⟩ := attempts_of_chain chain builds.numbered
    rw [builds.sameQuestion] at attempts
    obtain ⟨answer, accepted⟩ := attempts.accepted
    obtain ⟨finished, verified⟩ := judge_ok_iff.mp accepted
    rw [attempts.sameQuestion last (by simp)] at verified
    exact ⟨rejected, last, answer, split, attempts, finished, verified,
      returned.answer found responded member split accepted⟩
  · intro states initial final middle after ready ran
    obtain ⟨responses, built⟩ := responses_total ready ran
    refine ⟨⟨responses, final.stats⟩, ?_⟩
    change Run.next _ _ _ = _
    simp only [Run.next, ready]
    change Run.next _ _ _ = _
    simp only [Run.next, ran, built]
    rfl

/-! A runtime whose first completion is rejected. -/

private theorem one_retry : 1 ≤ 3 := by decide

def sampleConfig (maxBatchQuestions : Nat)
    (range : 1 ≤ maxBatchQuestions ∧ maxBatchQuestions ≤ 4096) : EngineConfig :=
  ⟨maxBatchQuestions, 131072, 16384, 2048, 1, 128, range, by decide, by decide, by decide,
    one_retry, by decide⟩

theorem default_range : 1 ≤ 32 ∧ 32 ≤ 4096 := by decide

def repairingEngine : DecisionEngine Nat where
  runtime.encode _ state := (.ok [1], state)
  runtime.generate jobs state := (.ok (jobs.map fun _ =>
    ⟨if state = 0 then lit "x" else lit "\x7b\"noul\":1\x7d", ⟨2, 3⟩, lit "stop"⟩), state + 1)
  model := lit "m"
  config := sampleConfig 32 default_range

theorem evaluate_routes_repaired :
    ∃ (run : DecisionRun ℝ) (world : World Nat),
      repairingEngine.evaluate [noulRequest (lit "s")] 0 = (.ok run, world) ∧
        ∃ response, run.responses[0]? = some response ∧
          response.answers.keys = [lit "q"] := by
  have returned : (repairingEngine.evaluate (F := ℝ) [noulRequest (lit "s")] 0).1.toBool = true := by
    decide +kernel
  obtain ⟨run, world, success⟩ := succeeds_of_toBool returned
  obtain ⟨_, _, routes⟩ :=
    (evaluate_routes repairingEngine [noulRequest (lit "s")] 0).1 run world success
  obtain ⟨response, responded, keys, _⟩ := routes 0 _ rfl
  exact ⟨run, world, success, response, responded, keys⟩

end DecisionEngine

end VllmVerifier.Engine
