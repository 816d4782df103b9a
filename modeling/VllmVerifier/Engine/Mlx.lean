import VllmVerifier.VerificationFraming

/-!
`engine/gemma.py` and the completion of `engine/mlx.py`: the thought channel is
removed when it is well formed, and a malformed text is left to the verifier.
-/

set_option autoImplicit false

namespace VllmVerifier.Engine

open Python

/-! ## The thought channel -/

def channelOpen : Str := lit "<|channel>"

def channelClose : Str := lit "<channel|>"

/-- The framing check at the end of `final_content`. -/
def unframed (text : Str) : Except PyException Str :=
  if Str.contains channelOpen text || Str.contains channelClose text then
    .error (.valueError "Unexpected Gemma channel framing")
  else .ok text

def finalContent (text : Str) : Except PyException Str :=
  let start := lit "<|channel>thought\n"
  if Str.startswith text start then
    match Str.partition channelClose (text.drop start.length) with
    | none => .error (.valueError "Unterminated Gemma thought channel")
    | some (_, rest) => unframed rest
  else unframed text

/-- Content that was accepted carries neither marker. -/
theorem finalContent_unframed {text content : Str} (success : finalContent text = .ok content) :
    Str.contains channelOpen content = false ∧ Str.contains channelClose content = false := by
  have clean : ∀ {source}, unframed source = .ok content →
      Str.contains channelOpen content = false ∧ Str.contains channelClose content = false := by
    intro source checked
    unfold unframed at checked
    split at checked
    · cases checked
    · rename_i absent
      cases checked
      simpa using absent
  unfold finalContent at success
  dsimp only at success
  split at success
  · split at success
    · cases success
    · exact clean success
  · exact clean success

theorem bracket_of_contains {marker text : Str} (known : marker = channelOpen ∨
    marker = channelClose) (contained : Str.contains marker text = true) : ord '<' ∈ text := by
  have marked : ord '<' ∈ marker := by rcases known with rfl | rfl <;> decide
  exact Str.mem_of_contains contained marked

private theorem bracket_of_unframed {text : Str} {raised : PyException}
    (failure : unframed text = .error raised) : ord '<' ∈ text := by
  unfold unframed at failure
  split at failure
  · rename_i framed
    rcases (Bool.or_eq_true _ _).mp framed with opened | closed
    · exact bracket_of_contains (.inl rfl) opened
    · exact bracket_of_contains (.inr rfl) closed
  · cases failure

theorem bracket_of_finalContent {text : Str} {raised : PyException}
    (failure : finalContent text = .error raised) : ord '<' ∈ text := by
  unfold finalContent at failure
  dsimp only at failure
  split at failure
  · rename_i starts
    obtain ⟨tail, rfl⟩ := List.isPrefixOf_iff_prefix.mp starts
    exact List.mem_append_left _ (by decide)
  · exact bracket_of_unframed failure

/-! ## Completions -/

/-- One result of the diffusion stream. -/
structure StreamResult where
  isDraft : Bool
  text : Str
  finishReason : Option Str
  promptTokens : Nat
  generationTokens : Nat

/-- A consumed stream: its results, and what iterating or closing it raised. -/
structure Stream where
  results : List StreamResult
  raised : Option PyException
  closeRaised : Option PyException

structure MlxRuntime where
  maxModelLen : Nat
  stream : List Int → Nat → Stream

namespace MlxRuntime

/-- `"".join(parts)`: the results that are not drafts. -/
def joined (results : List StreamResult) : Str :=
  (results.filter fun result => !result.isDraft).flatMap StreamResult.text

/-- The last result that has a finish reason, with the reason. -/
def terminal (results : List StreamResult) : Option (StreamResult × Str) :=
  results.foldl (fun current result =>
    match result.finishReason with
    | none => current
    | some reason => some (result, reason)) none

def completeTokens (runtime : MlxRuntime) (tokenIds : List Int) (outputTokens : Nat) :
    Except PyException Completion :=
  if runtime.maxModelLen < tokenIds.length + outputTokens then
    .error (.valueError "Prompt plus output budget exceeds the Mac context limit")
  else
    let stream := runtime.stream tokenIds outputTokens
    match stream.closeRaised, stream.raised with
    | some raised, _ | none, some raised => .error raised
    | none, none =>
        match terminal stream.results with
        | none => .error (.runtimeError "MLX generation ended without a terminal result")
        | some (result, reason) =>
            let text := joined stream.results
            match finalContent text with
            | .ok content =>
                .ok ⟨content, ⟨result.promptTokens, result.generationTokens⟩, reason⟩
            | .error raised =>
                if raised.isValueError then
                  .ok ⟨text, ⟨result.promptTokens, result.generationTokens⟩, reason⟩
                else .error raised

theorem completeTokens_text {runtime : MlxRuntime} {tokenIds : List Int} {outputTokens : Nat}
    {completion : Completion}
    (completed : runtime.completeTokens tokenIds outputTokens = .ok completion) :
    finalContent (joined (runtime.stream tokenIds outputTokens).results) = .ok completion.text ∨
      (completion.text = joined (runtime.stream tokenIds outputTokens).results ∧
        ∃ raised, finalContent completion.text = .error raised) := by
  unfold completeTokens at completed
  split at completed
  · cases completed
  · dsimp only at completed
    split at completed
    · cases completed
    · cases completed
    · split at completed
      · cases completed
      · split at completed
        · rename_i found
          cases completed
          exact .inl found
        · rename_i raised found
          split at completed
          · cases completed
            exact .inr ⟨rfl, raised, found⟩
          · cases completed

end MlxRuntime

/-! ## Malformed framing and decisions -/

/-- No accepted completion has an angle bracket, so none has a marker. -/
theorem bracket_not_mem_of_verify {F : Type} [LogField F] {text : Str} {question : Question}
    {answer : Answer F} (accepted : verify text question = .ok answer) : ord '<' ∉ text := by
  obtain ⟨enclosure⟩ := enclosure_of_verify accepted
  have visible : Str.isspace (ord '<') = false := by decide
  have inside : ord '<' ∉ enclosure.inner :=
    fun member => absurd (enclosure.quiet _ member) (by decide)
  have framing : ∀ fence ∈ ([], []) :: fences, ord '<' ∉ fence.1 ∧ ord '<' ∉ fence.2 := by decide
  obtain ⟨opening, closing⟩ := framing _ (List.mem_cons.mpr enclosure.known)
  have openBrace : ord '<' ≠ ord '{' := by decide
  have closeBrace : ord '<' ≠ ord '}' := by decide
  intro member
  rw [enclosure.shape] at member
  simp [not_mem_of_spaces enclosure.beforeSpaces visible,
    not_mem_of_spaces enclosure.gapSpaces visible,
    not_mem_of_spaces enclosure.gapAfterSpaces visible,
    not_mem_of_spaces enclosure.afterSpaces visible, inside, opening, closing, openBrace,
    closeBrace] at member

theorem verify_rejects_bracket {F : Type} [LogField F] {text : Str} (question : Question)
    (bracket : ord '<' ∈ text) :
    ∃ message, verify (F := F) text question = .error (.invalidOutput message) := by
  cases outcome : verify (F := F) text question with
  | ok answer => exact absurd bracket (bracket_not_mem_of_verify outcome)
  | error raised =>
      obtain ⟨message, rfl⟩ := verify_only text question raised outcome
      exact ⟨message, rfl⟩

/-- A text with malformed framing is rejected by the verifier, also when it is
what a stream produced; no text with a marker is ever accepted. -/
theorem malformed_framing_never_decides (F : Type) [LogField F] :
    (∀ text raised question, finalContent text = .error raised →
      ∃ message, verify (F := F) text question = .error (.invalidOutput message)) ∧
    (∀ (runtime : MlxRuntime) tokenIds outputTokens completion raised question,
      runtime.completeTokens tokenIds outputTokens = .ok completion →
      finalContent (MlxRuntime.joined (runtime.stream tokenIds outputTokens).results) =
        .error raised →
      completion.text = MlxRuntime.joined (runtime.stream tokenIds outputTokens).results ∧
        ∃ message, verify (F := F) completion.text question = .error (.invalidOutput message)) ∧
    (∀ text question (answer : Answer F), verify text question = .ok answer →
      Str.contains channelOpen text = false ∧ Str.contains channelClose text = false) := by
  refine ⟨?_, ?_, ?_⟩
  · intro text raised question failure
    exact verify_rejects_bracket question (bracket_of_finalContent failure)
  · intro runtime tokenIds outputTokens completion raised question completed failure
    rcases MlxRuntime.completeTokens_text completed with clean | ⟨same, other, framed⟩
    · rw [failure] at clean
      cases clean
    · exact ⟨same, verify_rejects_bracket question (bracket_of_finalContent framed)⟩
  · intro text question answer accepted
    have absent := bracket_not_mem_of_verify accepted
    constructor
    · exact Bool.eq_false_iff.mpr fun opened => absent (bracket_of_contains (.inl rfl) opened)
    · exact Bool.eq_false_iff.mpr fun closed => absent (bracket_of_contains (.inr rfl) closed)

end VllmVerifier.Engine
