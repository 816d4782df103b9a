import VllmVerifier.Engine.PromptProperties
import VllmVerifier.Gateway.PromptProperties

/-!
The retry prompts of the gateway and of the engine: two runs that reject a
question for the same reasons send it the same prompts.
-/

set_option autoImplicit false

namespace VllmVerifier

variable {F : Type} [LogField F]

/-- On both sides the prompts of a question depend on its state, the question and
the reasons of its own rejections alone, and every prompt is the base prompt or
its correction by a fixed text; the transcripts of the engine leave no prompt out. -/
theorem retry_prompts_noninterfering (state : Content) (question : Question) :
    Retry.Noninterfering (Gateway.Transcribes F state question) (Gateway.Asks state question)
        Gateway.correctionTexts ∧
      Retry.Noninterfering (Engine.Transcribes F state question) (Engine.Asks state question)
        Engine.correctionTexts ∧
      ∀ (σ : Type) (engine : Engine.DecisionEngine σ) (requests : List SystemOneRequest)
        (start : σ), let world := (engine.evaluate (F := F) requests start).2
        world.encoded.length ≤ (Engine.asks F requests world.history).length :=
  ⟨Gateway.prompts_noninterfering state question, Engine.prompts_noninterfering state question,
    fun _ _ _ _ => Engine.encoded_asked rfl⟩

end VllmVerifier
