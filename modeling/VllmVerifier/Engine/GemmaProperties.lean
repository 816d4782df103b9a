import VllmVerifier.Engine.Mlx

/-!
The grammar of the thought channel. `final_content` accepts a text without
markers, or one thought between its markers followed by a text without markers.
-/

set_option autoImplicit false

namespace VllmVerifier.Engine

open Python

/-- What opens a thought at the start of a text. -/
def thoughtOpen : Str := lit "<|channel>thought\n"

/-- A text that carries neither marker. -/
def Unmarked (text : Str) : Prop :=
  Str.contains channelOpen text = false ∧ Str.contains channelClose text = false

/-- A text with one closed thought in front of its content. -/
def thoughtText (thought content : Str) : Str := thoughtOpen ++ thought ++ channelClose ++ content

/-- The grammar: a text and the content it carries. -/
inductive Carries : Str → Str → Prop where
  | plain {text : Str} (unmarked : Unmarked text) : Carries text text
  | thought {thought content : Str} (closed : Str.contains channelClose thought = false)
      (unmarked : Unmarked content) : Carries (thoughtText thought content) content

theorem Carries.unmarked {text content : Str} (carried : Carries text content) :
    Unmarked content := by
  cases carried with
  | plain unmarked => exact unmarked
  | thought _ unmarked => exact unmarked

theorem unframed_ok_iff {text content : Str} :
    unframed text = .ok content ↔ Unmarked text ∧ content = text := by
  unfold unframed Unmarked
  cases opened : Str.contains channelOpen text <;>
    cases closed : Str.contains channelClose text <;>
      simp [eq_comm]

private theorem unframed_raises {text : Str} {raised : PyException}
    (failure : unframed text = .error raised) : ∃ message, raised = .valueError message := by
  unfold unframed at failure
  split at failure
  · cases failure
    exact ⟨_, rfl⟩
  · cases failure

theorem finalContent_raises {text : Str} {raised : PyException}
    (failure : finalContent text = .error raised) : ∃ message, raised = .valueError message := by
  unfold finalContent at failure
  dsimp only at failure
  split at failure
  · split at failure
    · cases failure
      exact ⟨_, rfl⟩
    · exact unframed_raises failure
  · exact unframed_raises failure

/-- The closing marker does not overlap itself, so a closed thought is split
off at its end. -/
theorem partition_thought {thought : Str} (closed : Str.contains channelClose thought = false)
    (content : Str) :
    Str.partition channelClose (thought ++ channelClose ++ content) = some (thought, content) := by
  have shape : channelClose = ord '<' :: lit "channel|>" := by decide
  rw [shape] at closed ⊢
  exact Str.partition_append (by decide) closed content

theorem thoughtText_injective {thought other content rest : Str}
    (closed : Str.contains channelClose thought = false)
    (otherClosed : Str.contains channelClose other = false)
    (same : thoughtText thought content = thoughtText other rest) :
    thought = other ∧ content = rest := by
  simp only [thoughtText, List.append_assoc, List.append_cancel_left_eq] at same
  have found := partition_thought closed content
  rw [List.append_assoc, same, ← List.append_assoc, partition_thought otherClosed rest] at found
  cases found
  exact ⟨rfl, rfl⟩

theorem not_unmarked_of_start {text : Str} (starts : Str.startswith text thoughtOpen = true) :
    ¬ Unmarked text := by
  obtain ⟨rest, rfl⟩ := List.isPrefixOf_iff_prefix.mp starts
  intro unmarked
  have shape : thoughtOpen ++ rest = channelOpen ++ (lit "thought\n" ++ rest) := rfl
  have opened : Str.contains channelOpen (thoughtOpen ++ rest) = true := by
    rw [shape]
    rfl
  exact absurd unmarked.1 (by simp [opened])

theorem startswith_thoughtText (thought content : Str) :
    Str.startswith (thoughtText thought content) thoughtOpen = true :=
  List.isPrefixOf_iff_prefix.mpr ⟨thought ++ channelClose ++ content, by simp [thoughtText]⟩

theorem finalContent_thought {thought : Str} (closed : Str.contains channelClose thought = false)
    (content : Str) : finalContent (thoughtText thought content) = unframed content := by
  have starts := startswith_thoughtText thought content
  have remaining : (thoughtText thought content).drop thoughtOpen.length =
      thought ++ channelClose ++ content := by
    simp [thoughtText]
  unfold finalContent
  simp only [← thoughtOpen.eq_def, starts, remaining, partition_thought closed, if_true]

theorem carries_of_finalContent {text content : Str} (success : finalContent text = .ok content) :
    Carries text content := by
  unfold finalContent at success
  simp only [← thoughtOpen.eq_def] at success
  split at success
  · rename_i starts
    obtain ⟨rest, rfl⟩ := List.isPrefixOf_iff_prefix.mp starts
    rw [List.drop_left] at success
    split at success
    · cases success
    · rename_i thought after found
      obtain ⟨unmarked, rfl⟩ := unframed_ok_iff.mp success
      have shape := Str.partition_some found
      have closed := Str.partition_first (by decide) found
      have whole : thoughtOpen ++ rest = thoughtText thought content := by
        simp [thoughtText, shape]
      rw [whole]
      exact .thought closed unmarked
  · obtain ⟨unmarked, rfl⟩ := unframed_ok_iff.mp success
    exact .plain unmarked

theorem finalContent_of_carries {text content : Str} (carried : Carries text content) :
    finalContent text = .ok content := by
  cases carried with
  | plain unmarked =>
      have absent : Str.startswith text thoughtOpen = false :=
        Bool.eq_false_iff.mpr fun starts => not_unmarked_of_start starts unmarked
      unfold finalContent
      simp only [← thoughtOpen.eq_def, absent, Bool.false_eq_true, if_false]
      exact unframed_ok_iff.mpr ⟨unmarked, rfl⟩
  | thought closed unmarked =>
      rw [finalContent_thought closed]
      exact unframed_ok_iff.mpr ⟨unmarked, rfl⟩

theorem finalContent_ok_iff {text content : Str} :
    finalContent text = .ok content ↔ Carries text content :=
  ⟨carries_of_finalContent, finalContent_of_carries⟩

/-- `final_content` accepts exactly the grammar of one thought channel and raises
`ValueError` on every other text. The result carries no marker, the split is
unique, a second application changes nothing, and the thought has no influence. -/
theorem finalContent_exact :
    (∀ text content, finalContent text = .ok content ↔
      (Unmarked text ∧ content = text) ∨
        ∃ thought, text = thoughtText thought content ∧
          Str.contains channelClose thought = false ∧ Unmarked content) ∧
    (∀ text, (∀ content, finalContent text ≠ .ok content) →
      ∃ message, finalContent text = .error (.valueError message)) ∧
    (∀ text content, finalContent text = .ok content → Unmarked content) ∧
    (∀ thought other content rest, Str.contains channelClose thought = false →
      Str.contains channelClose other = false →
      thoughtText thought content = thoughtText other rest →
      ¬ Unmarked (thoughtText thought content) ∧ thought = other ∧ content = rest) ∧
    (∀ text content, finalContent text = .ok content → finalContent content = .ok content) ∧
    (∀ thought other content, Str.contains channelClose thought = false →
      Str.contains channelClose other = false →
      finalContent (thoughtText thought content) = finalContent (thoughtText other content)) := by
  refine ⟨?_, ?_, ?_, ?_, ?_, ?_⟩
  · intro text content
    rw [finalContent_ok_iff]
    constructor
    · intro carried
      cases carried with
      | plain unmarked => exact .inl ⟨unmarked, rfl⟩
      | thought closed unmarked => exact .inr ⟨_, rfl, closed, unmarked⟩
    · rintro (⟨unmarked, rfl⟩ | ⟨thought, rfl, closed, unmarked⟩)
      · exact .plain unmarked
      · exact .thought closed unmarked
  · intro text rejected
    cases outcome : finalContent text with
    | ok content => exact absurd outcome (rejected content)
    | error raised =>
        obtain ⟨message, rfl⟩ := finalContent_raises outcome
        exact ⟨message, rfl⟩
  · intro text content success
    exact (carries_of_finalContent success).unmarked
  · intro thought other content rest closed otherClosed same
    have marked := not_unmarked_of_start (startswith_thoughtText thought content)
    exact ⟨marked, thoughtText_injective closed otherClosed same⟩
  · intro text content success
    exact finalContent_of_carries (.plain (carries_of_finalContent success).unmarked)
  · intro thought other content closed otherClosed
    rw [finalContent_thought closed, finalContent_thought otherClosed]

theorem finalContent_exact_thought :
    finalContent (lit "<|channel>thought\nno JSON here<channel|>\x7b\"noul\":1\x7d") =
      .ok (lit "\x7b\"noul\":1\x7d") :=
  (finalContent_exact.1 _ _).mpr
    (.inr ⟨lit "no JSON here", by decide +kernel, by decide +kernel, by decide, by decide⟩)

end VllmVerifier.Engine
