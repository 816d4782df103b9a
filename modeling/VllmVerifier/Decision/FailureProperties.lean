import VllmVerifier.Decision.RuntimeProperties
import VllmVerifier.Machine
import VllmVerifier.Python.Loop

/-!
A physical batch that fails. Scoring writes into the outcomes as it goes, so
that an exception leaves some of them with answers; what `evaluate_batch` makes
of them does not depend on how far it came.
-/

set_option autoImplicit false

namespace VllmVerifier.Decision.KaiRuntime

open Python Machine Batching

variable {F : Type} [LogField F] {runtime : KaiRuntime}

/-! ## Scoring in place -/

/-- `_run`, with what it wrote into `outcomes` before an exception. -/
def runInPlace (runtime : KaiRuntime) (requests : List SystemOneRequest)
    (outcomes : List (Outcome F)) (batch : List Entry × Nat) :
    List (Outcome F) × Option PyException :=
  let rows := batch.1.map Entry.row
  match runtime.collate batch.2 rows with
  | .error error => (outcomes, some error)
  | .ok encoded =>
      match runtime.model batch.2 rows with
      | .error error => (outcomes, some error)
      | .ok logits =>
          if logits.finite then
            match loop (atomically (settle requests logits.probabilities)) outcomes
                (batch.1.zip encoded).zipIdx with
            | (written, some error) => (written, some error)
            | (written, none) =>
                if batch.1.length = encoded.length then (written, none)
                else (written, some (.valueError "zip() arguments have different lengths"))
          else (outcomes, some (.floatingPointError "Nonfinite candidate logits"))

/-- Which physical batches are made of the pending entries, in order. -/
abbrev Plan := Dict QuestionType (List Entry) → List (List Entry)

/-- `evaluate_batch` with this plan, on outcomes that are written in place. -/
def evaluateInPlace (runtime : KaiRuntime) (plan : Plan) (requests : List SystemOneRequest) :
    Except PyException (List (Outcome F)) := do
  if admission requests then
    let (outcomes, pending) ← requests.zipIdx.foldlM runtime.admitRequest ([], Dict.empty)
    let outcomes ← match loop (runtime.runInPlace requests) outcomes (plan pending).zipIdx with
      | (written, none) => .ok written
      | (written, some error) =>
          if isScoringError error then .ok (written.map fail) else .error error
    (requests.zip outcomes).mapM arrange
  else .error (.valueError "Batch admission exceeds 128 requests or 512 decisions")

theorem returned_runInPlace (runtime : KaiRuntime) (requests : List SystemOneRequest)
    (outcomes : List (Outcome F))
    (batch : List Entry × Nat) :
    returned (runtime.runInPlace requests outcomes batch) =
      runtime.run requests outcomes batch := by
  unfold runInPlace run
  dsimp only
  cases runtime.collate batch.2 (batch.1.map Entry.row) with
  | error error => rfl
  | ok encoded =>
      rw [except_ok_bind]
      cases runtime.model batch.2 (batch.1.map Entry.row) with
      | error error => rfl
      | ok logits =>
          rw [except_ok_bind]
          dsimp only
          split
          · rw [← returned_loop (returned_atomically (settle requests logits.probabilities))]
            rcases loop (atomically (settle requests logits.probabilities)) outcomes
              (batch.1.zip encoded).zipIdx with ⟨written, raised⟩
            cases raised with
            | none =>
                change returned (if _ then _ else _) = if _ then _ else _
                split <;> rfl
            | some error => rfl
          · rfl

/-! ## What a failure leaves -/

theorem settle_fail {requests : List SystemOneRequest} {probabilities : List (List PyFloat)}
    {outcomes written : List (Outcome F)} {item : (Entry × Encoded) × Nat}
    (settled : settle requests probabilities outcomes item = .ok written) :
    written.map fail = outcomes.map fail := by
  obtain ⟨⟨entry, encoded⟩, position⟩ := item
  obtain ⟨vector, _, settled⟩ := except_bind_ok settled
  obtain ⟨request, _, settled⟩ := except_bind_ok settled
  obtain ⟨question, _, settled⟩ := except_bind_ok settled
  obtain ⟨outcome, found, settled⟩ := except_bind_ok settled
  cases outcome with
  | error error => cases settled
  | ok response =>
      obtain ⟨answer, _, shape⟩ := except_bind_ok settled
      cases shape
      have located : outcomes[entry.requestIndex]? = some (.ok response) := by
        unfold at? at found
        split at found
        · cases found
          assumption
        · cases found
      exact map_set located rfl

/-- However far `_run` comes, a response stays one and an error stays itself. -/
theorem runInPlace_fail (runtime : KaiRuntime) (requests : List SystemOneRequest)
    (outcomes : List (Outcome F))
    (batch : List Entry × Nat) :
    (runtime.runInPlace requests outcomes batch).1.map fail = outcomes.map fail := by
  have kept : ∀ (probabilities : List (List PyFloat)) (state : List (Outcome F)) item,
      (atomically (settle requests probabilities) state item).1.map fail = state.map fail := by
    intro probabilities state item
    unfold atomically
    cases settled : settle requests probabilities state item with
    | error error => rfl
    | ok written => exact settle_fail settled
  unfold runInPlace
  dsimp only
  cases runtime.collate batch.2 (batch.1.map Entry.row) with
  | error error => rfl
  | ok encoded =>
      cases runtime.model batch.2 (batch.1.map Entry.row) with
      | error error => rfl
      | ok logits =>
          have same := loop_keeps (kept logits.probabilities) outcomes (batch.1.zip encoded).zipIdx
          cases reached : loop (atomically (settle requests logits.probabilities)) outcomes
              (batch.1.zip encoded).zipIdx with
          | mk written raised =>
              rw [reached] at same
              dsimp only
              rw [reached]
              split
              · cases raised with
                | some error => exact same
                | none =>
                    dsimp only
                    split <;> exact same
              · rfl

theorem loop_fail (runtime : KaiRuntime) (requests : List SystemOneRequest)
    (outcomes : List (Outcome F))
    (plan : List (List Entry × Nat)) :
    (loop (runtime.runInPlace requests) outcomes plan).1.map fail = outcomes.map fail :=
  loop_keeps (runInPlace_fail runtime requests) outcomes plan

/-- What `evaluateBatch` leaves out makes no difference. -/
theorem evaluateInPlace_batches (runtime : KaiRuntime) (requests : List SystemOneRequest) :
    (runtime.evaluateInPlace runtime.batches requests : Except PyException (List (Outcome F))) =
      runtime.evaluateBatch requests := by
  unfold evaluateInPlace evaluateBatch
  split
  · refine congrArg (_ >>= ·) (funext fun progress => ?_)
    have same := returned_loop (returned_runInPlace runtime requests) progress.1
      (runtime.batches progress.2).zipIdx
    have left := loop_fail runtime requests progress.1
      (runtime.batches progress.2).zipIdx
    dsimp only
    rw [← same]
    cases reached : loop (runtime.runInPlace requests) progress.1
        (runtime.batches progress.2).zipIdx with
    | mk written raised =>
        rw [reached] at left
        cases raised with
        | none => rfl
        | some error =>
            dsimp only at left ⊢
            rw [left]
            rfl
  · rfl

/-! ## The results of a failure -/

theorem admit_succeeded {requests : List (SystemOneRequest × Nat)}
    {progress reached : List (Outcome F) × Dict QuestionType (List Entry)}
    (admitted : requests.foldlM runtime.admitRequest progress = .ok reached) :
    reached.1 = progress.1 ++ requests.map fun item => runtime.initial F item.1 := by
  induction requests generalizing progress with
  | nil =>
      cases admitted
      simp
  | cons item rest ih =>
      rw [List.foldlM_cons] at admitted
      obtain ⟨next, first, others⟩ := except_bind_ok admitted
      have shape : next.1 = progress.1 ++ [runtime.initial F item.1] := by
        unfold admitRequest at first
        unfold initial
        cases measured : runtime.measure item.1 with
        | ok measured =>
            rw [measured] at first
            cases first
            rfl
        | error error =>
            rw [measured] at first
            dsimp only at first
            split at first
            · cases first
              rfl
            · cases first
      rw [ih others, shape, List.append_assoc]
      rfl

/-- Scoring raises this, in some batch of the plan. -/
def ScoringRaises (F : Type) [LogField F] (runtime : KaiRuntime) (plan : Plan)
    (requests : List SystemOneRequest) (error : PyException) : Prop :=
  ∃ (outcomes written : List (Outcome F)) (pending : Dict QuestionType (List Entry)),
    requests.zipIdx.foldlM runtime.admitRequest ([], Dict.empty) = .ok (outcomes, pending) ∧
      loop (runtime.runInPlace requests) outcomes (plan pending).zipIdx = (written, some error)

theorem scoringRaises_of_map {plan : Plan} {requests : List SystemOneRequest}
    {error : PyException} (raised : ((requests.zipIdx.foldlM runtime.admitRequest ([], Dict.empty) :
      Except PyException (List (Outcome F) × Dict QuestionType (List Entry))).toOption.map
        fun progress => (loop (runtime.runInPlace requests) progress.1
          (plan progress.2).zipIdx).2) = some (some error)) :
    runtime.ScoringRaises F plan requests error := by
  obtain ⟨⟨outcomes, pending⟩, prepared, known⟩ := Option.map_eq_some_iff.mp raised
  cases admitted : (requests.zipIdx.foldlM runtime.admitRequest ([], Dict.empty) :
      Except PyException (List (Outcome F) × Dict QuestionType (List Entry))) with
  | error refusal =>
      rw [admitted] at prepared
      cases prepared
  | ok progress =>
      rw [admitted] at prepared
      cases prepared
      exact ⟨outcomes, _, pending, admitted, Prod.ext rfl known⟩

/-- The error of a request of a failed batch: its own, or the one of scoring. -/
def refused (runtime : KaiRuntime) (request : SystemOneRequest) : ServiceError :=
  match runtime.measure request with
  | .error error => inputError error
  | .ok _ => scoringError

theorem fail_initial (request : SystemOneRequest) :
    fail (runtime.initial F request) = .error (runtime.refused request) := by
  unfold initial refused
  cases runtime.measure request <;> rfl

theorem evaluateInPlace_fails {plan : Plan} {requests : List SystemOneRequest}
    {error : PyException} (admitted : admission requests = true)
    (raises : runtime.ScoringRaises F plan requests error) :
    (runtime.evaluateInPlace plan requests : Except PyException (List (Outcome F))) =
      if isScoringError error then
        .ok (requests.map fun request => .error (runtime.refused request))
      else .error error := by
  obtain ⟨outcomes, written, pending, prepared, raised⟩ := raises
  have left := loop_fail runtime requests outcomes (plan pending).zipIdx
  have initials : outcomes = requests.map (runtime.initial F) := by
    have known := admit_succeeded prepared
    dsimp only at known
    rw [known, List.nil_append]
    conv_rhs => rw [← List.zipIdx_map_fst 0 requests]
    rw [List.map_map]
    rfl
  rw [raised] at left
  unfold evaluateInPlace
  rw [if_pos admitted, prepared, except_ok_bind]
  dsimp only at left ⊢
  rw [raised]
  dsimp only
  split
  · have failed : written.map fail =
        requests.map fun request => (.error (runtime.refused request) : Outcome F) := by
      rw [left, initials, List.map_map]
      exact List.map_congr_left fun request _ => fail_initial request
    rw [except_ok_bind, failed]
    have arranged : ∀ pair ∈ requests.zip
        (requests.map fun request => (.error (runtime.refused request) : Outcome F)),
        arrange pair = .ok pair.2 := by
      intro pair member
      obtain ⟨request, outcome⟩ := pair
      obtain ⟨index, located⟩ := List.getElem?_of_mem member
      have second := (List.getElem?_zip_eq_some.mp located).2
      rw [List.getElem?_map] at second
      obtain ⟨_, _, rfl⟩ := Option.map_eq_some_iff.mp second
      rfl
    rw [mapM_total arranged, List.map_snd_zip (Nat.le_of_eq (List.length_map ..))]
  · rfl

end VllmVerifier.Decision.KaiRuntime
