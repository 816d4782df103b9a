import VllmVerifier.CustomerService.ActionsProperties
import VllmVerifier.CustomerService.Classifier
import VllmVerifier.Decision.ArtifactProperties
import VllmVerifier.Decision.ParsingProperties
import VllmVerifier.Prompts

/-!
Classification over an arbitrary service: what is offered and chosen follows the
distributions that were answered, and whatever else is answered is refused.
-/

set_option autoImplicit false

namespace VllmVerifier.CustomerService.Classifier

open Python

/-! ## Names of a response -/

theorem member_distinct {value found : Json} {key : Str} (distinct : value.distinctNames = true)
    (read : Backend.member value key = .ok found) : found.distinctNames = true := by
  unfold Backend.member at read
  split at read
  · rename_i members
    rw [Json.distinctNames, Bool.and_eq_true] at distinct
    split at read
    · rename_i located
      cases read
      exact Decision.Artifact.distinct_of_lookup distinct.2 located
    · cases read
  all_goals cases read

/-! ## One question -/

section Question

variable {service : Service} {state : Str} {criteria : List (Str × Str)}

/-- What a question raises: what the client raised, or a refusal of the response. -/
def Refused (service : Service) (ask : Ask) (raised : PyException) : Prop :=
  service.post ask = .error raised ∨ (∃ message, raised = .valueError message) ∨
    raised = .other "OverflowError"

/-- What is accepted: a probability for each candidate, of a total near one. -/
structure Weighed (service : Service) (criteria : List (Str × Str))
    (weights : List (Str × ℚ)) : Prop where
  keys : (weights.map Prod.fst).Perm (criteria.map Prod.fst)
  range : ∀ entry ∈ weights, 0 ≤ entry.2 ∧ entry.2 ≤ 1
  total : isclose service (service.sum (weights.map Prod.snd)) = true

theorem member_only {value : Json} {key : Str} {raised : PyException}
    (failed : Backend.member value key = .error raised) :
    raised = .keyError ∨ raised = .other "TypeError" := by
  unfold Backend.member at failed
  split at failed
  · split at failed
    · cases failed
    · cases failed
      exact .inl rfl
  all_goals
    cases failed
    exact .inr rfl

theorem invalid_only {value : Json} {raised : PyException}
    (failed : invalid value = .error raised) : raised = .other "OverflowError" := by
  unfold invalid at failed
  split at failed
  · split at failed
    · cases failed
      rfl
    · cases failed
  all_goals cases failed

theorem invalid_false {value : Json} (valid : invalid value = .ok false) :
    ∃ number, numberValue value = some number ∧ 0 ≤ number ∧ number ≤ 1 := by
  unfold invalid at valid
  split at valid
  · rename_i number
    split at valid
    · cases valid
    · have range := of_decide_eq_false (Except.ok.inj valid)
      rw [not_not] at range
      exact ⟨number, rfl, by exact_mod_cast range.1, by exact_mod_cast range.2⟩
  · rename_i number
    have range := of_decide_eq_false (Except.ok.inj valid)
    rw [not_not] at range
    exact ⟨number.toRat, rfl, range⟩
  · cases valid

theorem anyInvalid_only {values : List Json} {raised : PyException}
    (failed : anyInvalid values = .error raised) : raised = .other "OverflowError" := by
  induction values with
  | nil => cases failed
  | cons value rest ih =>
      rcases except_bind_error failed with first | ⟨bad, _, later⟩
      · exact invalid_only first
      · split at later
        · cases later
        · exact ih later

theorem anyInvalid_false {values : List Json} (valid : anyInvalid values = .ok false) :
    ∀ value ∈ values, invalid value = .ok false := by
  induction values with
  | nil => simp
  | cons value rest ih =>
      obtain ⟨bad, first, later⟩ := except_bind_ok valid
      cases bad with
      | true => cases later
      | false => exact List.forall_mem_cons.mpr ⟨first, ih later⟩

theorem malformed_error {α : Type} {reading : Except PyException α} {raised : PyException}
    (raises : ∀ error, reading = .error error → error = .keyError ∨ error = .other "TypeError")
    (failed : malformed reading = .error raised) : ∃ message, raised = .valueError message := by
  cases reading with
  | ok value => cases failed
  | error error =>
      rcases raises error rfl with rfl | rfl <;>
        · cases failed
          exact ⟨_, rfl⟩

theorem malformed_value {α : Type} {reading : Except PyException α} {value : α}
    (success : malformed reading = .ok value) : reading = .ok value := by
  unfold malformed at success
  split at success
  · cases success
  · cases success
  · exact success

theorem parts_only {data : Json} {raised : PyException} (failed : parts data = .error raised) :
    raised = .keyError ∨ raised = .other "TypeError" := by
  rcases except_bind_error failed with first | ⟨answers, _, failed⟩
  · exact member_only first
  rcases except_bind_error failed with second | ⟨intent, _, failed⟩
  · exact member_only second
  rcases except_bind_error failed with third | ⟨probabilities, _, failed⟩
  · exact member_only third
  rcases except_bind_error failed with fourth | ⟨served, _, failed⟩
  · exact member_only fourth
  · cases failed

theorem parts_distinct {data probabilities served : Json} (distinct : data.distinctNames = true)
    (read : parts data = .ok (probabilities, served)) : probabilities.distinctNames = true := by
  obtain ⟨answers, first, read⟩ := except_bind_ok read
  obtain ⟨intent, second, read⟩ := except_bind_ok read
  obtain ⟨found, third, read⟩ := except_bind_ok read
  obtain ⟨_, _, shape⟩ := except_bind_ok read
  cases shape
  exact member_distinct (member_distinct (member_distinct distinct first) second) third

theorem numbers_fst (members : List (Str × Json)) :
    (numbers members).map Prod.fst = members.map Prod.fst := by
  rw [numbers, List.map_map]
  rfl

theorem weigh_error {raised : PyException} (failed : weigh service state criteria = .error raised) :
    Refused service ⟨service.model, state, criteria⟩ raised := by
  rcases except_bind_error failed with posted | ⟨text, _, failed⟩
  · exact .inl posted
  rcases except_bind_error failed with parsed | ⟨data, _, failed⟩
  · exact .inr (.inl (Decision.Artifact.parse_only parsed))
  rcases except_bind_error failed with read | ⟨⟨probabilities, served⟩, _, failed⟩
  · exact .inr (.inl (malformed_error (fun _ known => parts_only known) read))
  dsimp only at failed
  split at failed
  · split at failed
    · split at failed
      · rcases except_bind_error failed with overflow | ⟨bad, _, failed⟩
        · exact .inr (.inr (anyInvalid_only overflow))
        · split at failed
          · cases failed
            exact .inr (.inl ⟨_, rfl⟩)
          · cases failed
      · cases failed
        exact .inr (.inl ⟨_, rfl⟩)
    · cases failed
      exact .inr (.inl ⟨_, rfl⟩)
  · cases failed
    exact .inr (.inl ⟨_, rfl⟩)

theorem weigh_ok (distinct : (criteria.map Prod.fst).Nodup) {weights : List (Str × ℚ)}
    {model : Str} (weighed : weigh service state criteria = .ok (weights, model)) :
    Weighed service criteria weights := by
  obtain ⟨text, _, weighed⟩ := except_bind_ok weighed
  obtain ⟨data, parsed, weighed⟩ := except_bind_ok weighed
  obtain ⟨⟨probabilities, served⟩, read, weighed⟩ := except_bind_ok weighed
  have names := parts_distinct (Decision.Artifact.parse_distinct parsed) (malformed_value read)
  dsimp only at weighed
  split at weighed
  · split at weighed
    · rename_i members
      split at weighed
      · rename_i same
        obtain ⟨bad, checked, weighed⟩ := except_bind_ok weighed
        split at weighed
        · cases weighed
        · rename_i accepted
          cases weighed
          rw [Bool.or_eq_true, not_or, Bool.not_eq_true, Bool.not_eq_true', Bool.not_eq_false]
            at accepted
          obtain ⟨rfl, total⟩ := accepted
          rw [Json.distinctNames, Bool.and_eq_true, decide_eq_true_eq] at names
          refine ⟨?_, fun entry member => ?_, total⟩
          · rw [numbers_fst]
            exact (List.perm_ext_iff_of_nodup names.1 distinct).mpr
              (Decision.Artifact.sameSet_iff.mp same)
          · obtain ⟨source, present, rfl⟩ := List.mem_map.mp member
            obtain ⟨number, found, range⟩ := invalid_false
              (anyInvalid_false checked source.2 (List.mem_map_of_mem present))
            dsimp only
            rw [found]
            exact range
      · cases weighed
    · cases weighed
  · cases weighed

theorem choose_ok {ranked : List (Str × ℚ)} {model : Str}
    (chosen : choose service state criteria = .ok (ranked, model)) : ∃ weights,
      weigh service state criteria = .ok (weights, model) ∧ Ranked Prod.snd weights ranked := by
  obtain ⟨⟨weights, served⟩, weighed, shape⟩ := except_bind_ok chosen
  cases shape
  exact ⟨weights, weighed, sortedDescending_ranked Prod.snd weights⟩

theorem choose_error {raised : PyException}
    (failed : choose service state criteria = .error raised) :
    Refused service ⟨service.model, state, criteria⟩ raised := by
  rcases except_bind_error failed with weighed | ⟨_, _, shape⟩
  · exact weigh_error weighed
  · cases shape

/-- A candidate stands out: likely enough, and ahead of every other one. -/
def Clear (service : Service) (weights : List (Str × ℚ)) (best : Str × ℚ) : Prop :=
  30 / 100 ≤ best.2 ∧ ∀ other ∈ weights, other.1 ≠ best.1 →
    5 / 100 ≤ service.difference best.2 other.2

/-- It is enough to compare the first of a ranking with the second. -/
theorem doubtful_iff {weights rest : List (Str × ℚ)} {best next : Str × ℚ}
    (antitone : ∀ value first second, first ≤ second →
      service.difference value second ≤ service.difference value first)
    (names : (weights.map Prod.fst).Nodup)
    (order : Ranked Prod.snd weights (best :: next :: rest)) :
    doubtful service best.2 next.2 = false ↔ Clear service weights best := by
  have different := ((order.perm.map Prod.fst).nodup_iff.mpr names)
  rw [List.map_cons, List.nodup_cons] at different
  rw [doubtful, Bool.or_eq_false_iff, decide_eq_false_iff_not, decide_eq_false_iff_not, not_lt,
    not_lt]
  refine and_congr_right fun _ => ⟨fun ahead other member distinct => ?_, fun ahead => ?_⟩
  · have later : other ∈ next :: rest := by
      refine (List.mem_cons.mp (order.perm.mem_iff.mpr member)).resolve_left fun same => ?_
      exact distinct (congrArg Prod.fst same)
    have below : other.2 ≤ next.2 := by
      rcases List.mem_cons.mp later with rfl | last
      · exact le_refl _
      · exact (List.pairwise_cons.mp (List.pairwise_cons.mp order.descending).2).1 other last
    exact ahead.trans (antitone best.2 other.2 next.2 below)
  · refine ahead next (order.perm.mem_iff.mp (by simp)) fun same => different.1 ?_
    rw [← same]
    exact List.mem_map_of_mem List.mem_cons_self

end Question

/-! ## The catalogue -/

theorem categories_ids : (categories.map Category.id).Nodup := by decide +kernel

theorem mem_categories (category : Category) : category ∈ categories := by
  cases category <;> decide

theorem eq_of_category_id {first second : Category} (same : first.id = second.id) :
    first = second :=
  List.inj_on_of_nodup_map categories_ids (mem_categories first) (mem_categories second) same

theorem groups_ids : (groups.map Prod.fst).Nodup := by decide +kernel

theorem category_of_group {key : Str} (member : key ∈ groups.map Prod.fst)
    (inside : key ≠ outOfScope) : ∃ category : Category, key = category.id := by
  obtain ⟨entry, present, rfl⟩ := List.mem_map.mp member
  rcases List.mem_append.mp present with listed | last
  · obtain ⟨category, _, rfl⟩ := List.mem_map.mp listed
    exact ⟨category, rfl⟩
  · cases List.mem_singleton.mp last
    exact absurd rfl inside

theorem candidates_ids (category : Category) :
    ((candidates category.id).map Prod.fst).Nodup ∧ (candidates category.id).length = 10 := by
  cases category <;> decide +kernel

theorem intent_of_candidate {category : Category} {key : Str}
    (member : key ∈ (candidates category.id).map Prod.fst) :
    ∃ intent : Catalogued, intent.val.id = key ∧ intent.val.category = category ∧
      catalogued key = .ok intent := by
  obtain ⟨entry, present, rfl⟩ := List.mem_map.mp member
  obtain ⟨⟨intent, description⟩, kept, rfl⟩ := List.mem_map.mp present
  obtain ⟨zipped, same⟩ := List.mem_filter.mp kept
  have listed := (List.of_mem_zip zipped).1
  refine ⟨⟨intent, listed⟩, rfl, eq_of_category_id (of_decide_eq_true same), ?_⟩
  rw [catalogued, lookup]
  cases found : intents.attach.find? fun other => decide (other.val.id = intent.id) with
  | none =>
      have absent := List.find?_eq_none.mp found ⟨intent, listed⟩ (List.mem_attach ..)
      simp at absent
  | some other =>
      have named := List.find?_some found
      rw [eq_of_id (show other.val.id = (⟨intent, listed⟩ : Catalogued).val.id from
        of_decide_eq_true named)]

/-! ## Classification -/

section Classification

variable {service : Service} {text context : Str}

/-- The answer to the second question, and what is offered from it: its three best
candidates, all of the category. -/
structure Routed (service : Service) (text context : Str) (category : Category)
    (answers : List (Str × ℚ)) (result : Classified) : Prop where
  weighed : Weighed service (candidates category.id) answers
  asked : (weigh service (asked text context) (candidates category.id)).map Prod.fst = .ok answers
  within : ∀ candidate ∈ result.candidates, candidate.1.val.category = category
  three : result.candidates.length = 3
  best : ∃ ranked, Ranked Prod.snd answers ranked ∧
    result.candidates.map (fun candidate => (candidate.1.val.id, candidate.2)) = ranked.take 3

/-- Both the category and the intent stand out. -/
def Certain (service : Service) (weights answers : List (Str × ℚ)) (result : Classified) : Prop :=
  Clear service weights (result.trace.category, result.trace.categoryProbability) ∧
    ∀ best, result.candidates.head? = some best → Clear service answers (best.1.val.id, best.2)

theorem two_of_length {α : Type} {items : List α} (long : 2 ≤ items.length) :
    ∃ first second rest, items = first :: second :: rest := by
  cases items with
  | nil => simp at long
  | cons first rest =>
      cases rest with
      | nil => simp at long
      | cons second rest => exact ⟨first, second, rest, rfl⟩

theorem Weighed.names {criteria : List (Str × Str)} {weights : List (Str × ℚ)}
    (weighed : Weighed service criteria weights) (distinct : (criteria.map Prod.fst).Nodup) :
    (weights.map Prod.fst).Nodup := weighed.keys.nodup_iff.mpr distinct

/-- A ranking of what was weighed has a first and a second entry. -/
theorem Weighed.two {criteria : List (Str × Str)} {weights ranked : List (Str × ℚ)}
    (weighed : Weighed service criteria weights) (order : Ranked Prod.snd weights ranked)
    (long : 2 ≤ criteria.length) : ∃ best next rest, ranked = best :: next :: rest := by
  apply two_of_length
  have sizes := weighed.keys.length_eq
  rw [List.length_map, List.length_map] at sizes
  rw [order.perm.length_eq, sizes]
  exact long

theorem offer_ok {category : Category} {weights ranked : List (Str × ℚ)}
    (weighed : Weighed service (candidates category.id) weights)
    (order : Ranked Prod.snd weights ranked) {entry : Str × ℚ} (member : entry ∈ ranked) :
    ∃ intent : Catalogued, intent.val.id = entry.1 ∧ intent.val.category = category ∧
      offer entry = .ok (intent, entry.2) := by
  have key : entry.1 ∈ (candidates category.id).map Prod.fst :=
    weighed.keys.mem_iff.mp (List.mem_map_of_mem (order.perm.mem_iff.mp member))
  obtain ⟨intent, named, inside, found⟩ := intent_of_candidate key
  exact ⟨intent, named, inside, by rw [offer, found, except_ok_bind]; rfl⟩

/-- The outcome once both questions are answered. -/
theorem classify_placed {group nextGroup best next : Str × ℚ} {others rest : List (Str × ℚ)}
    {model served : Str} {top : List (Catalogued × ℚ)} {intent : Catalogued}
    (first : choose service (asked text context) groups = .ok (group :: nextGroup :: others, model))
    (inside : group.1 ≠ outOfScope)
    (second : choose service (asked text context) (candidates group.1) =
      .ok (best :: next :: rest, served))
    (offered : ((best :: next :: rest).take 3).mapM offer = .ok top)
    (named : catalogued best.1 = .ok intent) :
    classify service text context = .ok ⟨
      if doubtful service group.2 nextGroup.2 || doubtful service best.2 next.2 then none
      else some intent,
      top, served, group.1, group.2,
      some (doubtful service group.2 nextGroup.2 || doubtful service best.2 next.2)⟩ := by
  rw [classify]
  dsimp only
  rw [first, except_ok_bind]
  change (if group.1 = outOfScope then _ else _) = _
  rw [if_neg inside, second, except_ok_bind]
  dsimp only
  rw [offered, except_ok_bind]
  change (if doubtful service group.2 nextGroup.2 || doubtful service best.2 next.2 then _
    else (catalogued best.1 >>= _)) = _
  rw [named]
  cases doubtful service group.2 nextGroup.2 || doubtful service best.2 next.2 <;> rfl

theorem catalogued_offer {entry : Str × ℚ} {candidate : Catalogued × ℚ}
    (offered : offer entry = .ok candidate) :
    catalogued entry.1 = .ok candidate.1 ∧ candidate.2 = entry.2 := by
  obtain ⟨found, named, shape⟩ := except_bind_ok offered
  cases shape
  exact ⟨named, rfl⟩

theorem offers_ok {category : Category} {weights ranked : List (Str × ℚ)}
    (weighed : Weighed service (candidates category.id) weights)
    (order : Ranked Prod.snd weights ranked) : ∃ top, (ranked.take 3).mapM offer = .ok top ∧
      List.Forall₂ (fun entry candidate => offer entry = .ok candidate ∧
        candidate.1.val.category = category ∧ (candidate.1.val.id, candidate.2) = entry)
        (ranked.take 3) top := by
  have offers : ∀ entry ∈ ranked.take 3, ∃ candidate, offer entry = .ok candidate ∧
      candidate.1.val.category = category ∧ (candidate.1.val.id, candidate.2) = entry := by
    intro entry member
    obtain ⟨intent, named, inside, offered⟩ := offer_ok weighed order (List.mem_of_mem_take member)
    exact ⟨_, offered, inside, by rw [named]⟩
  obtain ⟨top, related⟩ := exists_forall₂ offers
  exact ⟨top, mapM_ok_iff.mpr (related.imp fun _ _ known => known.1), related⟩

/-- The second question's answer places the text in its category. -/
theorem classify_category {category : Category} {group nextGroup : Str × ℚ}
    {weights others : List (Str × ℚ)} {model : Str}
    (antitone : ∀ value first second, first ≤ second →
      service.difference value second ≤ service.difference value first)
    (first : choose service (asked text context) groups = .ok (group :: nextGroup :: others, model))
    (names : (weights.map Prod.fst).Nodup)
    (order : Ranked Prod.snd weights (group :: nextGroup :: others))
    (inside : group.1 ≠ outOfScope) (same : group.1 = category.id)
    {ranked : List (Str × ℚ)} {served : Str}
    (second : choose service (asked text context) (candidates category.id) = .ok (ranked, served)) :
    ∃ result answers, classify service text context = .ok result ∧
      result.trace.category = group.1 ∧ result.trace.categoryProbability = group.2 ∧
      Routed service text context category answers result ∧
      (result.intent = none ∧ ¬ Certain service weights answers result ∨
        result.intent = result.candidates.head?.map Prod.fst ∧
          Certain service weights answers result) := by
  obtain ⟨answers, weighed, ranking⟩ := choose_ok second
  obtain ⟨ids, ten⟩ := candidates_ids category
  have accepted := weigh_ok ids weighed
  obtain ⟨best, next, rest, rfl⟩ := accepted.two ranking (by rw [ten]; decide)
  obtain ⟨top, offered, related⟩ := offers_ok accepted ranking
  have sizes := related.length_eq
  have long : 3 ≤ (best :: next :: rest).length := by
    have answered := accepted.keys.length_eq
    rw [List.length_map, List.length_map, ten] at answered
    rw [ranking.perm.length_eq, answered]
    decide
  rw [List.length_take, Nat.min_eq_left long] at sizes
  obtain ⟨head, tail, ⟨located, headCategory, shown⟩, later, rfl⟩ :=
    List.forall₂_cons_left_iff.mp (show List.Forall₂ _ (best :: (next :: rest).take 2) top from related)
  obtain ⟨named, _⟩ := catalogued_offer located
  have outcome := classify_placed first inside (same ▸ second) offered named
  refine ⟨_, answers, outcome, rfl, rfl, ⟨accepted, ?_, ?_, sizes.symm, _, ranking, ?_⟩, ?_⟩
  · rw [weighed]
    rfl
  · intro candidate member
    obtain ⟨entry, _, _, known, _⟩ := forall₂_mem_right related member
    exact known
  · rw [← List.map_id' (List.take 3 (best :: next :: rest))]
    exact (forall₂_map_eq (related.imp fun _ _ known => known.2.2.symm)).symm
  · have clearGroup := doubtful_iff antitone names order
    have clearIntent := doubtful_iff antitone (accepted.names ids) ranking
    rw [← shown] at clearIntent
    cases doubt : doubtful service group.2 nextGroup.2 with
    | true =>
        refine .inl ⟨rfl, fun certain => ?_⟩
        have clear := clearGroup.mpr certain.1
        rw [doubt] at clear
        cases clear
    | false =>
        cases doubtIntent : doubtful service best.2 next.2 with
        | true =>
            refine .inl ⟨rfl, fun certain => ?_⟩
            have clear := clearIntent.mpr (certain.2 head rfl)
            rw [shown, doubtIntent] at clear
            cases clear
        | false =>
            refine .inr ⟨rfl, clearGroup.mp doubt, fun other found => ?_⟩
            cases found
            exact clearIntent.mp (by rw [shown]; exact doubtIntent)

/-- Over any service: `classify` raises only what the client raised or a refusal of
what was answered. Otherwise the category is the first of the likeliest groups; out of scope
nothing is offered, and else the three likeliest intents of the category are. The
first of them is chosen exactly when the category and it stand out. -/
theorem classify_routes (service : Service) (text context : Str)
    (antitone : ∀ value first second, first ≤ second →
      service.difference value second ≤ service.difference value first) :
    (∀ raised, classify service text context = .error raised →
      ∃ criteria, Refused service ⟨service.model, asked text context, criteria⟩ raised) ∧
    ∀ result, classify service text context = .ok result → ∃ weights,
      (weigh service (asked text context) groups).map Prod.fst = .ok weights ∧
      Weighed service groups weights ∧
      FirstLargest Prod.snd weights (result.trace.category, result.trace.categoryProbability) ∧
      (result.trace.category = outOfScope ∧ result.intent = none ∧ result.candidates = [] ∨
        ∃ category answers, result.trace.category = category.id ∧
          Routed service text context category answers result ∧
          (result.intent = none ∧ ¬ Certain service weights answers result ∨
            result.intent = result.candidates.head?.map Prod.fst ∧
              Certain service weights answers result)) := by
  cases first : choose service (asked text context) groups with
  | error raised =>
      have failed : classify service text context = .error raised := by
        rw [classify]
        dsimp only
        rw [first]
        rfl
      rw [failed]
      refine ⟨fun other same => ⟨groups, ?_⟩, fun result same => by cases same⟩
      cases same
      exact choose_error first
  | ok ranking =>
      obtain ⟨ranked, model⟩ := ranking
      obtain ⟨weights, weighed, order⟩ := choose_ok first
      have accepted := weigh_ok groups_ids weighed
      have names := accepted.names groups_ids
      obtain ⟨group, nextGroup, others, rfl⟩ := accepted.two order (by decide)
      have read : (weigh service (asked text context) groups).map Prod.fst = .ok weights := by
        rw [weighed]
        rfl
      by_cases scope : group.1 = outOfScope
      · have outcome : classify service text context =
            .ok ⟨none, [], model, group.1, group.2, none⟩ := by
          rw [classify]
          dsimp only
          rw [first, except_ok_bind]
          change (if group.1 = outOfScope then _ else _) = _
          rw [if_pos scope]
        rw [outcome]
        refine ⟨fun raised same => (by cases same), fun result same => ?_⟩
        cases same
        exact ⟨weights, read, accepted, order.first, .inl ⟨scope, rfl, rfl⟩⟩
      · obtain ⟨category, same⟩ := category_of_group
          (accepted.keys.mem_iff.mp (List.mem_map_of_mem (order.perm.mem_iff.mp
            List.mem_cons_self))) scope
        cases second : choose service (asked text context) (candidates category.id) with
        | error raised =>
            have failed : classify service text context = .error raised := by
              rw [classify]
              dsimp only
              rw [first, except_ok_bind]
              change (if group.1 = outOfScope then _ else _) = _
              rw [if_neg scope, same, second]
              rfl
            rw [failed]
            refine ⟨fun other same => ⟨candidates category.id, ?_⟩, fun result same => by cases same⟩
            cases same
            exact choose_error second
        | ok answer =>
            obtain ⟨result, answers, outcome, known, probability, routed, intent⟩ :=
              classify_category antitone first names order scope same second
            rw [outcome]
            refine ⟨fun raised same => (by cases same), fun other equal => ?_⟩
            cases equal
            refine ⟨weights, read, accepted, ?_, .inr ⟨category, answers, known.trans same, routed,
              intent⟩⟩
            rw [known, probability]
            exact order.first

/-- A service that is certain of the first candidate of each question. -/
def certainService : Service where
  model := lit "jev-latest"
  post := fun ask => dumpsOrRaise .default (.object
    [ (lit "model", .str ask.model),
      (lit "answers", .object [(lit "intent", .object [(lit "probabilities", .object
        (ask.criteria.zipIdx.map fun entry =>
          (entry.1.1, .number (.int (if entry.2 = 0 then 1 else 0)))))])])])
  sum := List.sum
  difference := fun value other => value - other

theorem classify_routes_certain : ∃ result,
    classify certainService (lit "?") [] = .ok result ∧
      result.intent.map (fun intent => intent.val.id) = some (lit "order_status") ∧
        result.candidates.length = 3 := by
  obtain ⟨_, returned⟩ := classify_routes certainService (lit "?") []
    (fun value first second larger => sub_le_sub_left larger value)
  obtain ⟨result, outcome⟩ := exists_ok_of_toBool
    (show (classify certainService (lit "?") []).toBool = true by decide +kernel)
  have placed : (classify certainService (lit "?") []).map (fun result =>
      (result.trace.category, result.intent.map fun intent => intent.val.id)) =
        .ok (lit "orders", some (lit "order_status")) := by decide +kernel
  rw [outcome] at placed
  obtain ⟨category, intent⟩ := Prod.mk.inj (Except.ok.inj placed)
  obtain ⟨_, _, _, _, ⟨scope, _⟩ | ⟨_, _, _, routed, _⟩⟩ := returned result outcome
  · rw [scope] at category
    exact absurd category (by decide)
  · exact ⟨result, outcome, intent, routed.three⟩

end Classification

end VllmVerifier.CustomerService.Classifier
