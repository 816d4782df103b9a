import VllmVerifier.CustomerService.ActionsProperties
import VllmVerifier.CustomerService.Dialogue
import VllmVerifier.CustomerService.SlotsProperties

/-!
What a turn does to the tasks and the store. The frame that a turn goes on with
is kept, filled, resumed or opened, and then advanced; every other turn leaves
the tasks, sets one aside, cancels it or executes it.
-/

set_option autoImplicit false

namespace VllmVerifier.CustomerService

open Python

/-! ## Desks -/

/-- The tasks of a conversation and its store. -/
structure Desk where
  active : Option Frame
  suspended : List Frame
  lastCompleted : Option Frame
  store : DemoStore
  created : Nat

def Conversation.desk (state : Conversation) : Desk :=
  ⟨state.active, state.suspended, state.lastCompleted, state.store, state.created⟩

def Desk.interrupted (desk : Desk) : Desk :=
  match desk.active with
  | none => desk
  | some frame =>
      { desk with suspended := lastItems 8 (desk.suspended ++ [frame]), active := none }

@[simp] theorem Desk.interrupted_active (desk : Desk) : desk.interrupted.active = none := by
  unfold Desk.interrupted
  split
  · assumption
  · rfl

@[simp] theorem Desk.interrupted_created (desk : Desk) : desk.interrupted.created = desk.created := by
  unfold Desk.interrupted
  split
  · rfl
  · rfl

@[simp] theorem Desk.interrupted_store (desk : Desk) : desk.interrupted.store = desk.store := by
  unfold Desk.interrupted
  split
  · rfl
  · rfl

def Desk.finished (desk : Desk) (frame : Frame) (store : DemoStore) : Desk :=
  { desk with
    active := none, lastCompleted := some { frame with phase := .completed }, store }

/-- A reply that asks to confirm a summary. -/
def Reply.Confirms (reply : Reply) : Prop := reply.suggestions = confirmationSuggestions

/-- Nothing is asked to be confirmed. -/
def Silent (outcome : Except PyException Reply) : Prop :=
  ∀ reply, outcome = .ok reply → ¬ reply.Confirms

theorem not_confirms_of_length {reply : Reply} (other : reply.suggestions.length ≠ 2) :
    ¬ reply.Confirms := by
  intro confirms
  rw [confirms] at other
  exact other rfl

theorem not_confirms_single (text suggestion : Str) (cards : List Card) :
    ¬ Reply.Confirms ⟨text, cards, [suggestion]⟩ :=
  not_confirms_of_length (by simp)

/-- No intent is labelled as the consent to a summary is. -/
theorem labels_plain : ∀ intent ∈ intents, intent.label ≠ lit "네" := by decide +kernel

variable [Unicode]

/-- Values of slots that an intent requires; a quantity is a count. -/
def Admits (intent : Intent) (values : List (Slot × Str)) : Prop :=
  ∀ entry ∈ values, entry.1 ∈ intent.requiredSlots ∧ (entry.1 = .quantity → IsCount entry.2)

/-- How a turn comes to the frame that it goes on with. -/
inductive Prepared (command : Str) (desk : Desk) : Desk → Frame → Prop where
  | same {frame : Frame} : desk.active = some frame → Prepared command desk desk frame
  | resumed {rest : List Frame} {previous : Frame} : command ∈ resumeWords →
      desk.suspended = rest ++ [previous] →
      Prepared command desk { desk with
        suspended := rest ++ desk.active.toList, active := some previous } previous
  | filled {frame filled : Frame} {values : List (Slot × Str)} : desk.active = some frame →
      Admits frame.intent.val values →
      filled = { frame with slots := frame.slots.update values, phase := .collecting } →
      Prepared command desk { desk with active := some filled } filled
  | opened {frame : Frame} {values : List (Slot × Str)} : Admits frame.intent.val values →
      frame.serial = desk.created → frame.phase = .collecting →
      frame.slots = Dict.ofPairs values →
      Prepared command desk { desk.interrupted with
        active := some frame, created := desk.created + 1 } frame

/-- What advancing the active frame does. -/
inductive Advanced (desk : Desk) (frame : Frame) : Except PyException Reply → Desk → Prop where
  | stray {reply : Reply} : frame.strayOrder desk.store = true → ¬ reply.Confirms →
      Advanced desk frame (.ok reply)
        { desk with active := some { frame with slots := frame.slots.erase .orderId } }
  | asks {reply : Reply} : frame.strayOrder desk.store = false → frame.missing ≠ [] →
      ¬ reply.Confirms → Advanced desk frame (.ok reply) desk
  | summarises {reply : Reply} {start : Str} : frame.strayOrder desk.store = false →
      frame.missing = [] → frame.intent.val.confirmation = true →
      reply.text = start ++ confirmationText frame.intent.val frame.slots → reply.Confirms →
      Advanced desk frame (.ok reply)
        { desk with active := some { frame with phase := .confirming } }
  | executes {reply : Reply} {outcome : Outcome} {store : DemoStore} :
      frame.strayOrder desk.store = false → frame.missing = [] →
      frame.intent.val.confirmation = false →
      execute frame.intent.val frame.slots desk.store = .ok (outcome, store) → ¬ reply.Confirms →
      Advanced desk frame (.ok reply) (desk.finished (frame.keepProduct outcome.2) store)
  | raises {error : PyException} : frame.missing = [] →
      execute frame.intent.val frame.slots desk.store = .error error →
      Advanced desk frame (.error error) desk

inductive Turned (command : Str) (desk : Desk) : Except PyException Reply → Desk → Prop where
  | replied {outcome : Except PyException Reply} : Silent outcome →
      Turned command desk outcome desk
  | questioned {reply : Reply} : ¬ reply.Confirms →
      Turned command desk (.ok reply) desk.interrupted
  | cancelled {reply : Reply} : command ∈ noWords → ¬ reply.Confirms →
      Turned command desk (.ok reply) { desk with active := none }
  | confirmed {frame : Frame} {reply : Reply} {outcome : Outcome} {store : DemoStore} :
      desk.active = some frame → frame.phase = .confirming → command ∈ yesWords →
      execute frame.intent.val frame.slots desk.store = .ok (outcome, store) → ¬ reply.Confirms →
      Turned command desk (.ok reply) (desk.finished frame store)
  | raised {frame : Frame} {error : PyException} : desk.active = some frame →
      frame.phase = .confirming → execute frame.intent.val frame.slots desk.store = .error error →
      Turned command desk (.error error) desk
  | advanced {prepared after : Desk} {frame : Frame} {outcome : Except PyException Reply} :
      Prepared command desk prepared frame → Advanced prepared frame outcome after →
      Turned command desk outcome after

/-! ## Advancing -/

variable {state : Conversation} {frame : Frame} {text command start : Str}

omit [Unicode] in
theorem finish_ok {cards : List Card} (busy : state.active = some frame) :
    ∃ reply, (finish state text cards).1 = .ok reply ∧ ¬ reply.Confirms ∧
      (finish state text cards).2.desk = state.desk.finished frame state.store := by
  unfold finish
  rw [busy]
  refine ⟨_, rfl, not_confirms_of_length ?_, rfl⟩
  dsimp only
  split
  · decide
  · decide

theorem advance_advanced (busy : state.active = some frame) :
    Advanced state.desk frame (advance state start).1 (advance state start).2.desk := by
  unfold advance
  rw [busy]
  dsimp only
  split
  · rename_i stray
    exact .stray stray (not_confirms_of_length (by decide))
  · rename_i known
    have known := Bool.eq_false_iff.mpr known
    split
    · rename_i slot rest missing
      exact .asks known (by rw [missing]; exact List.cons_ne_nil _ _) (not_confirms_single _ _ _)
    · rename_i complete
      split
      · rename_i confirmation
        exact .summarises known complete confirmation rfl rfl
      · rename_i direct
        split
        · rename_i error raised
          have raises : Advanced state.desk frame (.error error) state.desk :=
            .raises complete raised
          exact raises
        · rename_i message cards store executed
          obtain ⟨reply, replied, plain, left⟩ := @finish_ok
            { state with active := some (frame.keepProduct cards), store }
            (frame.keepProduct cards) (start ++ message) cards rfl
          rw [replied, left]
          have executes : Advanced state.desk frame (.ok reply)
              (state.desk.finished (frame.keepProduct cards) store) :=
            @Advanced.executes _ state.desk frame reply (message, cards) store known complete
              (Bool.eq_false_iff.mpr direct) executed plain
          exact executes

/-! ## Activation -/

omit [Unicode] in
theorem mem_entries_update {dict : Dict Slot Str} {values : List (Slot × Str)} {entry : Slot × Str}
    (member : entry ∈ (dict.update values).entries) : entry ∈ dict.entries ∨ entry ∈ values := by
  rcases Dict.get?_update (Dict.get?_eq_some_iff.mpr member) with before | new
  · exact .inl (Dict.get?_eq_some_iff.mp before)
  · exact .inr new

theorem admits_allowed (intent : Intent) (expected : Option Slot) :
    Admits intent (allowed intent (extract text expected)) := by
  intro given member
  obtain ⟨slot, value⟩ := given
  obtain ⟨read, required⟩ := List.mem_filter.mp member
  refine ⟨of_decide_eq_true required, ?_⟩
  intro same
  subst same
  exact isCount_of_extract (Dict.get?_eq_some_iff.mpr read)

theorem admits_inherited (intent : Intent) (prior : Option Frame) :
    Admits intent (inherited intent text prior) := by
  unfold inherited
  split
  · exact fun _ member => absurd member List.not_mem_nil
  · split
    · intro given member
      obtain ⟨slot, value⟩ := given
      obtain ⟨named, required⟩ := of_decide_eq_true (List.mem_filter.mp member).2
      refine ⟨required, ?_⟩
      intro same
      subst same
      dsimp only at named
      exact absurd named (by decide)
    · exact fun _ member => absurd member List.not_mem_nil

theorem Admits.append {intent : Intent} {first second : List (Slot × Str)}
    (left : Admits intent first) (right : Admits intent second) : Admits intent (first ++ second) := by
  intro entry member
  rcases List.mem_append.mp member with early | late
  · exact left entry early
  · exact right entry late

omit [Unicode] in
theorem suspend_desk (state : Conversation) : (suspend state).desk = state.desk.interrupted := by
  obtain ⟨active, suspended, lastCompleted, choices, clarificationText, messages, store, turn,
    created⟩ := state
  cases active with
  | none => rfl
  | some frame => rfl

theorem filled_turned {values : List (Slot × Str)} (busy : state.active = some frame)
    (admitted : Admits frame.intent.val values) {filled : Conversation}
    (shape : filled.desk = (fill state frame values).desk) :
    Turned command state.desk (advance filled start).1 (advance filled start).2.desk := by
  have active : filled.active = (fill state frame values).active := congrArg Desk.active shape
  have done := @advance_advanced _ filled _ start active
  rw [shape] at done
  exact .advanced (.filled busy admitted rfl) done

theorem opened_turned {intent : Catalogued} {desk : Desk} {taken values : List (Slot × Str)}
    (left : state.desk = desk.interrupted) (admitsTaken : Admits intent.val taken)
    (admits : Admits intent.val values) {filled : Conversation}
    (shape : filled.desk = (fill (openFrame state intent taken)
      ⟨state.created, intent, Dict.ofPairs taken, .collecting⟩ values).desk) :
    Turned command desk (advance filled start).1 (advance filled start).2.desk := by
  have created : state.created = desk.created :=
    (congrArg Desk.created left).trans desk.interrupted_created
  have active : filled.active = some
      ⟨state.created, intent, Dict.ofPairs (taken ++ values), .collecting⟩ := by
    rw [Dict.ofPairs_append]
    exact congrArg Desk.active shape
  have done := @advance_advanced _ filled _ start active
  have opened : filled.desk = { desk.interrupted with
      active := some ⟨state.created, intent, Dict.ofPairs (taken ++ values), .collecting⟩
      created := desk.created + 1 } := by
    rw [shape, ← left, ← created, Dict.ofPairs_append]
    rfl
  rw [opened] at done
  exact .advanced (.opened (admitsTaken.append admits) created rfl rfl) done

theorem activate_turned (intent : Catalogued) :
    Turned command state.desk (activate state intent text).1
      (activate state intent text).2.desk := by
  have admits := @admits_allowed _ text intent.val none
  cases busy : state.active with
  | none =>
      have left : state.desk = state.desk.interrupted := by
        unfold Desk.interrupted Conversation.desk
        rw [busy]
      simp only [activate, busy, openFrame]
      exact opened_turned left (admits_inherited  _ _) admits rfl
  | some frame =>
      by_cases same : frame.intent.val.id = intent.val.id
      · obtain rfl : frame.intent = intent := eq_of_id same
        simp only [activate, busy, ne_eq, not_true_eq_false, if_false]
        exact filled_turned busy admits rfl
      · have idle : (suspend state).active = none := by
          unfold suspend
          rw [busy]
        simp only [activate, busy, ne_eq, same, not_false_eq_true, if_true, idle, openFrame]
        exact opened_turned (suspend_desk state) (admits_inherited _ _) admits rfl

/-! ## Turns -/

theorem resume_advanced {rest : List Frame} {previous : Frame}
    (waiting : state.suspended = rest ++ [previous]) :
    Advanced { state.desk with
        suspended := rest ++ state.desk.active.toList, active := some previous }
      previous (resume state).1 (resume state).2.desk := by
  have last : state.suspended.getLast? = some previous := by rw [waiting, List.getLast?_concat]
  have others : state.suspended.dropLast = rest := by rw [waiting, List.dropLast_concat]
  unfold resume
  rw [last, others]
  exact @advance_advanced _
    { state with suspended := rest ++ state.active.toList, active := some previous, choices := [] }
    previous _ rfl

theorem resume_turned (commanded : command ∈ resumeWords) :
    Turned command state.desk (resume state).1 (resume state).2.desk := by
  cases waiting : state.suspended using List.reverseRecOn with
  | nil =>
      unfold resume
      rw [waiting]
      exact .replied fun reply same => by
        cases same
        exact not_confirms_of_length (by decide)
  | append_singleton rest previous _ =>
      exact .advanced (.resumed commanded waiting) (resume_advanced waiting)

theorem confirm_turned (busy : state.active = some frame) (asked : frame.phase = .confirming)
    (agreed : command ∈ yesWords) :
    Turned command state.desk (confirm state frame).1 (confirm state frame).2.desk := by
  unfold confirm
  split
  · rename_i error raised
    exact .raised busy asked raised
  · rename_i message cards store executed
    obtain ⟨reply, replied, plain, left⟩ := @finish_ok { state with store } frame message cards busy
    rw [replied, left]
    have done : Turned command state.desk (.ok reply) (state.desk.finished frame store) :=
      @Turned.confirmed _ command state.desk frame reply (message, cards) store busy asked agreed
        executed plain
    exact done

theorem answerSlot_turned {outcome : Turn} (busy : state.active = some frame)
    (answered : answerSlot state frame text command = some outcome) :
    Turned command state.desk outcome.1 outcome.2.desk := by
  unfold answerSlot at answered
  split at answered
  · rename_i agreed
    cases answered
    exact confirm_turned busy agreed.1 agreed.2
  · dsimp only at answered
    split at answered
    · cases answered
      exact filled_turned busy (admits_allowed _ _) rfl
    · split at answered
      · cases answered
        exact .advanced (.same busy) (advance_advanced busy)
      · split at answered
        · cases answered
        · split at answered
          · cases answered
            exact .replied fun reply same => by
              cases same
              exact not_confirms_single _ _ _
          · cases answered

omit [Unicode] in
theorem labels_ne (candidates : List Catalogued) :
    candidates.map (fun intent => intent.val.label) ≠ confirmationSuggestions := by
  rcases candidates with _ | ⟨first, others⟩
  · exact List.cons_ne_nil _ _ |>.symm
  · intro same
    exact labels_plain first.val first.property (List.cons.inj same).1

theorem clarify_turned (candidates : List Catalogued) :
    Turned command state.desk (clarify state text candidates).1
      (clarify state text candidates).2.desk := by
  obtain ⟨entry, replied, plain, left⟩ : ∃ entry : Reply,
      (clarify state text candidates).1 = .ok entry ∧ ¬ entry.Confirms ∧
        (clarify state text candidates).2.desk =
          (if isRequest text then suspend state else state).desk := by
    refine ⟨_, rfl, ?_, rfl⟩
    unfold Reply.Confirms
    dsimp only
    split
    · exact fun same => absurd (congrArg List.length same) (by decide)
    · exact labels_ne candidates
  rw [replied, left]
  split
  · rw [suspend_desk]
    exact .questioned plain
  · exact .replied fun reply same => by
      cases same
      exact plain

theorem classified_turned (utterance : Utterance) :
    Turned command state.desk (classified state utterance).1 (classified state utterance).2.desk := by
  unfold classified
  split
  · exact .replied fun reply same => by cases same
  · exact clarify_turned _
  · exact activate_turned _

theorem respond_turned (utterance : Utterance) :
    Turned command state.desk (respond state utterance command).1
      (respond state utterance command).2.desk := by
  unfold respond
  split
  · exact activate_turned _
  · split
    · exact .replied fun reply same => by
        cases same
        exact not_confirms_of_length (by decide)
    · dsimp only
      split
      · rename_i outcome answered
        cases busy : state.active with
        | none =>
            rw [busy] at answered
            cases answered
        | some frame =>
            rw [busy] at answered
            dsimp only at answered
            split at answered
            · exact answerSlot_turned busy answered
            · cases answered
      · split
        · exact activate_turned _
        · exact classified_turned _

theorem turn_resumed {utterance : Utterance} {rest : List Frame} {previous : Frame}
    (commanded : normalize utterance.text ∈ resumeWords)
    (waiting : state.suspended = rest ++ [previous]) :
    Advanced { state.desk with
        suspended := rest ++ state.desk.active.toList, active := some previous }
      previous (turn state utterance).1 (turn state utterance).2.desk := by
  unfold turn
  dsimp only
  rw [if_pos commanded]
  exact @resume_advanced _ (hear state utterance.text) rest previous waiting

theorem turn_turned (state : Conversation) (utterance : Utterance) :
    Turned (normalize utterance.text) state.desk (turn state utterance).1
      (turn state utterance).2.desk := by
  have heard : (hear state utterance.text).desk = state.desk := rfl
  rw [← heard]
  unfold turn
  dsimp only
  split
  · rename_i commanded
    exact resume_turned commanded
  · split
    · rename_i refused
      exact .cancelled refused.1 (not_confirms_of_length (by decide))
    · split
      · exact respond_turned _
      · exact respond_turned _
      · split
        · exact .replied fun reply same => by cases same
        · exact activate_turned _

end VllmVerifier.CustomerService
