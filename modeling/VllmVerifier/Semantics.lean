import VllmVerifier.Retry
import VllmVerifier.Python.Result
import VllmVerifier.Verification

/-!
What a request means once the completion of every attempt at every question is
fixed: each question is retried up to its limit, the first completion that
verifies is its answer, and everything that was tried is paid for. Nothing here
depends on who asks the questions, or in which order.
-/

set_option autoImplicit false

namespace VllmVerifier.Semantics

open Python Retry

/-- The completions of a question, by state, question and attempt. -/
abbrev Oracle := Content → Question → Nat → Completion

variable {F : Type} [LogField F]

/-- The answer that a completion gives, if it gives one. -/
def reading (question : Question) (completion : Completion) : Option (Answer F) :=
  if completion.finishReason = lit "stop" then (verify completion.text question).toOption else none

def verdict (F : Type) [LogField F] (oracle : Oracle) (state : Content) (question : Question)
    (attempt : Nat) : Option (Answer F) :=
  reading question (oracle state question attempt)

/-- The usage of the first attempts at a question. -/
def spent (oracle : Oracle) (state : Content) (question : Question) (attempts : Nat) : Usage :=
  ((List.range attempts).map fun attempt => (oracle state question attempt).usage).sum

theorem spent_succ (oracle : Oracle) (state : Content) (question : Question) (attempts : Nat) :
    spent oracle state question (attempts + 1) =
      spent oracle state question attempts + (oracle state question attempts).usage := by
  simp [spent, List.range_succ]

/-- The response that the oracle prescribes for a request. -/
structure Decides (oracle : Oracle) (model : Str) (retries : Nat) (request : SystemOneRequest)
    (response : SystemOneResponse F) (outcomes : List (Nat × Answer F)) : Prop where
  model : response.model = model
  keys : response.answers.keys = request.questions.keys
  answers : List.Forall₂ (fun entry outcome =>
    Stops (verdict F oracle request.state entry.2) retries outcome.1 outcome.2 ∧
      response.answers.get? entry.1 = some outcome.2) request.questions.entries outcomes
  usage : response.usage = ((request.questions.entries.zip outcomes).map fun row =>
    spent oracle request.state row.1.2 (row.2.1 + 1)).sum

/-- Some question has no answer within the retries. -/
def Undecided (F : Type) [LogField F] (oracle : Oracle) (retries : Nat)
    (request : SystemOneRequest) : Prop :=
  ∃ entry ∈ request.questions.entries, Exhausted (verdict F oracle request.state entry.2) retries

variable {oracle : Oracle} {model : Str} {retries : Nat} {request : SystemOneRequest}
  {left right : SystemOneResponse F} {outcomes others : List (Nat × Answer F)}

theorem Decides.outcomes_unique (first : Decides oracle model retries request left outcomes)
    (second : Decides oracle model retries request right others) : outcomes = others := by
  have related := first.answers
  have related' := second.answers
  clear first second
  generalize request.questions.entries = entries at related related'
  induction related generalizing others with
  | nil =>
      cases related'
      rfl
  | cons head _ ih =>
      cases related' with
      | cons head' rest =>
          obtain ⟨sameAttempt, sameAnswer⟩ := head.1.unique head'.1
          rw [Prod.ext sameAttempt sameAnswer, ih rest]

theorem Decides.unique (first : Decides oracle model retries request left outcomes)
    (second : Decides oracle model retries request right others) : left = right := by
  have same := first.outcomes_unique second
  subst same
  obtain ⟨leftModel, leftAnswers, leftUsage⟩ := left
  obtain ⟨rightModel, rightAnswers, rightUsage⟩ := right
  have models : leftModel = rightModel := first.model.trans second.model.symm
  have usages : leftUsage = rightUsage := first.usage.trans second.usage.symm
  have answers : leftAnswers = rightAnswers := by
    apply Dict.ext_get? (first.keys.trans second.keys.symm)
    intro key member
    rw [first.keys] at member
    obtain ⟨entry, present, rfl⟩ := List.mem_map.mp member
    obtain ⟨index, located⟩ := List.getElem?_of_mem present
    obtain ⟨outcome, found, _, known⟩ := forall₂_getElem? first.answers located
    obtain ⟨outcome', found', _, known'⟩ := forall₂_getElem? second.answers located
    cases found.symm.trans found'
    exact known.trans known'.symm
  rw [models, answers, usages]

theorem Decides.not_undecided (decides : Decides oracle model retries request left outcomes) :
    ¬ Undecided F oracle retries request := by
  intro given
  obtain ⟨entry, member, exhausted⟩ := given
  obtain ⟨outcome, _, stops, _⟩ := forall₂_mem_left decides.answers member
  exact stops.not_exhausted exhausted

theorem stops_of_decided (decided : ¬ Undecided F oracle retries request)
    {entry : Str × Question} (member : entry ∈ request.questions.entries) :
    ∃ attempt answer, Stops (verdict F oracle request.state entry.2) retries attempt answer := by
  rcases stops_or_exhausted (verdict F oracle request.state entry.2) retries with stops | exhausted
  · exact stops
  · exact absurd ⟨entry, member, exhausted⟩ decided

end VllmVerifier.Semantics
