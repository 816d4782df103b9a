import VllmVerifier.CustomerService.FrameProperties

/-!
Changes happen only on what was confirmed. A confirming frame is always as its
last summary showed it, whatever was said in between; only a yes to it executes
the frame, and an executed frame does not come back.
-/

set_option autoImplicit false

namespace VllmVerifier.CustomerService

open Python Suspension

/-! ## Summaries -/

/-- The outcome asks to confirm the frame of this number. -/
def Issued (outcome : Except PyException Reply) (after : Desk) (serial : Nat) : Prop :=
  ∃ reply frame, outcome = .ok reply ∧ reply.Confirms ∧ after.active = some frame ∧
    frame.serial = serial

/-- The outcome shows this frame, with its slots, to be confirmed. -/
def Shown (outcome : Except PyException Reply) (after : Desk) (frame : Frame) : Prop :=
  ∃ reply start, outcome = .ok reply ∧ reply.Confirms ∧
    reply.text = start ++ confirmationText frame.intent.val frame.slots ∧ after.active = some frame

/-- The last confirmation that was issued for the frame shows it as it is. -/
def LastShown (run : List Step) (frame : Frame) : Prop :=
  ∃ earlier summary quiet, run = earlier ++ summary :: quiet ∧
    Shown summary.result summary.after.desk frame ∧
      ∀ step ∈ quiet, ¬ Issued step.result step.after.desk frame.serial

theorem LastShown.extend {run : List Step} {frame : Frame} {step : Step}
    (shown : LastShown run frame) (quiet : ¬ Issued step.result step.after.desk frame.serial) :
    LastShown (run ++ [step]) frame := by
  obtain ⟨earlier, summary, later, rfl, shows, silent⟩ := shown
  refine ⟨earlier, summary, later ++ [step], by simp, shows, ?_⟩
  exact List.forall_mem_append.mpr ⟨silent, List.forall_mem_singleton.mpr quiet⟩

theorem Silent.not_issued {outcome : Except PyException Reply} {after : Desk}
    (silent : Silent outcome) (serial : Nat) : ¬ Issued outcome after serial := by
  intro given
  obtain ⟨reply, _, same, confirms, _⟩ := given
  exact silent reply same confirms

theorem silent_ok {reply : Reply} (plain : ¬ reply.Confirms) : Silent (.ok reply) := by
  intro other given
  cases given
  exact plain

theorem silent_error (error : PyException) : Silent (.error error) :=
  fun _ same => by cases same

variable [Unicode] {desk prepared after : Desk} {frame : Frame} {command : Str}
  {outcome : Except PyException Reply}

theorem Prepared.suspended_live (step : Prepared command desk prepared frame) :
    ∀ other ∈ prepared.suspended, other ∈ desk.live := by
  intro other member
  cases step with
  | same | filled => exact List.mem_append_right _ member
  | resumed commanded waiting =>
      rcases List.mem_append.mp member with early | displaced
      · exact List.mem_append_right _ (by rw [waiting]; exact List.mem_append_left _ early)
      · exact List.mem_append_left _ displaced
  | opened =>
      have stacked : Stacked command desk desk.interrupted := interrupted_stacked rfl
      exact stacked.live other member

theorem Prepared.confirming_live (step : Prepared command desk prepared frame) {other : Frame}
    (member : other ∈ prepared.live) (confirming : other.phase = .confirming) :
    other ∈ desk.live := by
  rcases List.mem_append.mp member with active | waiting
  · rw [step.busy] at active
    obtain rfl : other = frame := List.mem_singleton.mp active
    cases step with
    | same busy => exact List.mem_append_left _ (by rw [busy]; exact active)
    | @resumed rest _ _ waiting =>
        exact List.mem_append_right _ (by rw [waiting]; exact List.mem_append_right _ active)
    | filled _ _ shape =>
        rw [shape] at confirming
        cases confirming
    | opened _ _ collecting =>
        rw [collecting] at confirming
        cases confirming
  · exact step.suspended_live other waiting

theorem Advanced.shows (work : Workable desk frame) (step : Advanced desk frame outcome after)
    (distinct : (after.live.map Frame.serial).Nodup) {other : Frame} (member : other ∈ after.live)
    (confirming : other.phase = .confirming) :
    Shown outcome after other ∨ other ∈ desk.live ∧ ¬ Issued outcome after other.serial := by
  cases step with
  | stray strayed plain =>
      refine .inr ⟨?_, (silent_ok plain).not_issued _⟩
      rcases List.mem_cons.mp member with rfl | waiting
      · rcases work.phase with collecting | ready
        · rw [show frame.phase = .confirming from confirming] at collecting
          cases collecting
        · rw [ready.known] at strayed
          cases strayed
      · exact List.mem_append_right _ waiting
  | asks _ _ plain => exact .inr ⟨member, (silent_ok plain).not_issued _⟩
  | summarises _ _ _ text confirms =>
      rcases List.mem_cons.mp member with rfl | waiting
      · exact .inl ⟨_, _, rfl, confirms, text, rfl⟩
      · refine .inr ⟨List.mem_append_right _ waiting, ?_⟩
        intro given
        obtain ⟨_, issued, _, _, ⟨⟩, same⟩ := given
        have fresh := (List.nodup_cons.mp distinct).1
        exact fresh (List.mem_map.mpr ⟨other, waiting, same.symm⟩)
  | executes _ _ _ _ plain =>
      exact .inr ⟨List.mem_append_right _ member, (silent_ok plain).not_issued _⟩
  | raises => exact .inr ⟨member, (silent_error _).not_issued _⟩

/-- After a turn a confirming frame is what the turn shows, or it was confirming
before and the turn issues no confirmation of it. -/
theorem Turned.shows (ready : desk.Ready) (step : Turned command desk outcome after)
    (distinct : (after.live.map Frame.serial).Nodup) {other : Frame} (member : other ∈ after.live)
    (confirming : other.phase = .confirming) :
    Shown outcome after other ∨ other ∈ desk.live ∧ ¬ Issued outcome after other.serial := by
  cases step with
  | replied silent => exact .inr ⟨member, silent.not_issued _⟩
  | questioned plain =>
      refine .inr ⟨?_, (silent_ok plain).not_issued _⟩
      rw [Desk.live, Desk.interrupted_active] at member
      have stacked : Stacked command desk desk.interrupted := interrupted_stacked rfl
      exact stacked.live other member
  | cancelled _ plain | confirmed _ _ _ _ plain =>
      exact .inr ⟨List.mem_append_right _ member, (silent_ok plain).not_issued _⟩
  | raised => exact .inr ⟨member, (silent_error _).not_issued _⟩
  | advanced step done =>
      refine (done.shows (step.workable ready) distinct member confirming).imp_right ?_
      exact fun kept => ⟨step.confirming_live kept.1 confirming, kept.2⟩

/-- A confirming frame is always as it was last shown. -/
theorem converse_shown (utterances : List Utterance) :
    ∀ frame ∈ (converse utterances).desk.live, frame.phase = .confirming →
      LastShown (steps utterances) frame := by
  induction utterances using List.reverseRecOn with
  | nil => exact fun _ member => absurd member List.not_mem_nil
  | append_singleton earlier utterance ih =>
      intro frame member confirming
      have distinct := live_nodup (earlier ++ [utterance])
      rw [converse_append_singleton] at member distinct
      rw [steps_append_singleton]
      rcases (takeTurn_turned (converse earlier) utterance).shows (converse_ready earlier) distinct
          member confirming with shown | ⟨before, quiet⟩
      · exact ⟨steps earlier, _, [], rfl, shown, List.forall_mem_nil _⟩
      · exact (ih frame before confirming).extend quiet

/-! ## Execution -/

/-- Only a yes to the active, confirming frame changes the store. -/
theorem Turned.changes (step : Turned command desk outcome after)
    (changed : after.store ≠ desk.store) :
    ∃ frame found, desk.active = some frame ∧ frame.phase = .confirming ∧ command ∈ yesWords ∧
      execute frame.intent.val frame.slots desk.store = .ok (found, after.store) ∧
        after = desk.finished frame after.store := by
  cases step with
  | replied | raised | cancelled => exact absurd rfl changed
  | questioned => exact absurd desk.interrupted_store changed
  | @confirmed frame _ found store busy confirming agreed executed _ =>
      exact ⟨frame, found, busy, confirming, agreed, executed, rfl⟩
  | @advanced prepared _ frame _ step done =>
      have kept : prepared.store = desk.store := by
        cases step with
        | same | resumed | filled => rfl
        | opened => exact desk.interrupted_store
      refine absurd ?_ changed
      rw [← kept]
      cases done with
      | stray | asks | summarises | raises => rfl
      | executes _ _ direct executed =>
          refine execute_reads (fun changes => ?_) executed
          have confirmed := changes_confirmed frame.intent.val frame.intent.property changes
          rw [direct] at confirmed
          cases confirmed

/-- The turn executes the active frame, which waited for a yes. -/
structure Step.Executes (step : Step) (frame : Frame) : Prop where
  active : step.before.active = some frame
  confirming : frame.phase = .confirming
  agreed : step.normalized ∈ yesWords
  executed : ∃ outcome,
    execute frame.intent.val frame.slots step.before.store = .ok (outcome, step.after.store)
  finished : step.after.desk = step.before.desk.finished frame step.after.store

theorem departed_of_executes {earlier : List Utterance} {utterance : Utterance} {frame : Frame}
    (executes : (takeTurn (converse earlier) utterance).Executes frame)
    (completed discarded : List Nat) :
    Departed ((takeTurn (converse earlier) utterance).after.desk.ledger completed discarded)
      frame.serial := by
  have busy : (converse earlier).desk.active = some frame := executes.active
  have distinct := live_nodup earlier
  rw [Desk.live, busy, Option.toList_some, List.singleton_append, List.map_cons] at distinct
  obtain ⟨done, discards, tracked⟩ := exists_tracked earlier
  have opened : frame.serial ∈ List.range (converse earlier).desk.created := by
    refine tracked.conserved.placed.subset (List.mem_append_left _ ?_)
    rw [Desk.ledger, busy]
    exact List.mem_singleton_self _
  rw [executes.finished]
  exact ⟨opened, (Option.some_ne_none _).symm, (List.nodup_cons.mp distinct).1⟩

theorem executed_departed (utterances : List Utterance) :
    ∀ step ∈ steps utterances, ∀ frame, step.Executes frame → ∀ completed discarded,
      Departed ((converse utterances).desk.ledger completed discarded) frame.serial := by
  induction utterances using List.reverseRecOn with
  | nil => exact fun _ member => absurd member List.not_mem_nil
  | append_singleton earlier utterance ih =>
      intro step member frame executes completed discarded
      rw [steps_append_singleton] at member
      rw [converse_append_singleton]
      rcases List.mem_append.mp member with before | now
      · obtain ⟨_, _, tracked⟩ := exists_tracked earlier
        obtain ⟨newly, dropped, moves, _⟩ :=
          (takeTurn_turned (converse earlier) utterance).moves tracked.bounded [] []
        obtain ⟨opened, inactive, unsuspended⟩ := (ih step before frame executes [] []).run moves
        exact ⟨opened, inactive, unsuspended⟩
      · obtain rfl := List.mem_singleton.mp now
        exact departed_of_executes executes completed discarded

/-- What a run changes, it changes on a confirmation. -/
structure TasksConfirmed (utterances : List Utterance) : Prop where
  changes : ∀ step ∈ steps utterances, step.after.store ≠ step.before.store →
    ∃ frame, step.Executes frame
  shown : ∀ first step later, steps utterances = first ++ step :: later →
    ∀ frame, step.Executes frame → frame.intent.val.confirmation = true ∧ LastShown first frame ∧
      (∀ slot ∈ frame.intent.val.requiredSlots, (frame.slots.get? slot).isSome = true) ∧
        ∀ id, frame.slots.get? .orderId = some id →
          (step.before.store.orders.get? id).isSome = true
  tickets : ∀ step ∈ steps utterances, ∃ added : List Ticket,
    step.after.store.tickets = step.before.store.tickets ++ added ∧ added.length ≤ 1
  once : ∀ first step middle other later,
    steps utterances = first ++ step :: (middle ++ other :: later) →
      ∀ frame again, step.Executes frame → other.Executes again → frame.serial ≠ again.serial

/-- Changes happen only on what was confirmed, whatever is said and however it is
classified. -/
theorem turn_confirms (utterances : List Utterance) : TasksConfirmed utterances := by
  refine ⟨?_, ?_, ?_, ?_⟩
  · intro step member changed
    obtain ⟨earlier, utterance, rfl⟩ := mem_steps member
    obtain ⟨frame, found, busy, confirming, agreed, executed, left⟩ :=
      (takeTurn_turned (converse earlier) utterance).changes changed
    exact ⟨frame, busy, confirming, agreed, ⟨found, executed⟩, left⟩
  · intro first step later shape frame executes
    obtain ⟨earlier, utterance, rfl, rfl⟩ := steps_split shape
    have live : frame ∈ (converse earlier).desk.live :=
      List.mem_append_left _ (Option.mem_toList.mpr executes.active)
    have ready := converse_ready earlier frame live
    rcases ready.phase with ⟨_, collecting⟩ | ⟨complete, _, confirmation⟩
    · rw [executes.confirming] at collecting
      cases collecting
    · refine ⟨confirmation, converse_shown earlier frame live executes.confirming,
        missing_eq_nil_iff.mp complete, fun id found => ?_⟩
      have known := ready.known
      rw [Frame.strayOrder, found, Option.any_some, Option.isNone_eq_false_iff] at known
      exact known
  · intro step member
    obtain ⟨earlier, utterance, rfl⟩ := mem_steps member
    by_cases same : (takeTurn (converse earlier) utterance).after.store = (converse earlier).store
    · exact ⟨[], by rw [same, List.append_nil]; rfl, Nat.zero_le _⟩
    · obtain ⟨frame, found, _, _, _, executed, _⟩ :=
        (takeTurn_turned (converse earlier) utterance).changes same
      rcases (execute_acts executed).tickets with none | ⟨ticket, _, _, added⟩
      · exact ⟨[], by rw [List.append_nil]; exact none, Nat.zero_le _⟩
      · exact ⟨[ticket], added, Nat.le_refl _⟩
  · intro first step middle other later shape frame again executes repeats same
    rw [← List.cons_append, ← List.append_assoc] at shape
    obtain ⟨earlier, utterance, run, rfl⟩ := steps_split shape
    have member : step ∈ steps earlier := by
      rw [← run]
      exact List.mem_append_right _ List.mem_cons_self
    have departed := executed_departed earlier step member frame executes [] []
    refine departed.inactive ?_
    rw [same, Desk.ledger, show (converse earlier).desk.active = some again from repeats.active]
    rfl

example : ((@steps basicUnicode [say "ORD-1002" (some (lit "order_cancel")), say "단순 변심" none,
    say "고마워" none, say "네" none]).map fun step => step.after.store.tickets.length) =
    [0, 0, 0, 1] := by decide +kernel

end VllmVerifier.CustomerService
