import VllmVerifier.Models
import VllmVerifier.Worklist.Traversal

/-!
The validation of `models.py`: the check that every contract makes on its input
before anything else, and what the fields of a request accept after it. Every
rejection is pydantic's `ValidationError`, whose details are left out.
-/

set_option autoImplicit false

namespace VllmVerifier

open Python Worklist

namespace Json

/-- What `finite_json` pushes for an item. -/
def children : Json → List Json
  | .object members => members.map Prod.snd
  | .array items => items
  | .null | .bool _ | .number _ | .str _ => []

mutual

/-- The number of values in a value, itself included. -/
def count : Json → Nat
  | .null | .bool _ | .number _ | .str _ => 1
  | .array items => countItems items + 1
  | .object members => countMembers members + 1

def countItems : List Json → Nat
  | [] => 0
  | item :: rest => count item + countItems rest

def countMembers : List (Str × Json) → Nat
  | [] => 0
  | (_, value) :: rest => count value + countMembers rest

end

theorem countItems_eq (items : List Json) : countItems items = (items.map count).sum := by
  induction items with
  | nil => rfl
  | cons item rest ih => rw [countItems, List.map_cons, List.sum_cons, ih]

theorem countMembers_eq (members : List (Str × Json)) :
    countMembers members = ((members.map Prod.snd).map count).sum := by
  induction members with
  | nil => rfl
  | cons member rest ih => rw [countMembers, List.map_cons, List.map_cons, List.sum_cons, ih]

theorem children_smaller (value : Json) : ((children value).map count).sum < value.count := by
  cases value with
  | null | bool | number | str => exact Nat.zero_lt_one
  | array items =>
      rw [children, count, countItems_eq]
      exact Nat.lt_succ_self _
  | object members =>
      rw [children, count, countMembers_eq]
      exact Nat.lt_succ_self _

mutual

theorem finite_iff : ∀ value : Json, value.finite = true ↔
    ∀ number, Within children (.number number) value → number.finite = true
  | .null | .bool _ | .str _ => by
      refine ⟨fun _ number inside => ?_, fun _ => rfl⟩
      cases inside with
      | child member => cases member
  | .number value => by
      refine ⟨fun finite number inside => ?_, fun all => all value .self⟩
      cases inside with
      | self => exact finite
      | child member => cases member
  | .array items => by
      rw [finite, finiteItems_iff items]
      constructor
      · intro all number inside
        cases inside with
        | child member deeper => exact all _ member number deeper
      · exact fun all item member number inside => all number (.child member inside)
  | .object members => by
      rw [finite, finiteMembers_iff members]
      constructor
      · intro all number inside
        cases inside with
        | child member deeper =>
            obtain ⟨named, present, rfl⟩ := List.mem_map.mp member
            exact all named present number deeper
      · exact fun all member present number inside =>
          all number (.child (List.mem_map_of_mem present) inside)

theorem finiteItems_iff : ∀ items : List Json, finiteItems items = true ↔
    ∀ item ∈ items, ∀ number, Within children (.number number) item → number.finite = true
  | [] => iff_of_true rfl (List.forall_mem_nil _)
  | item :: rest => by
      rw [finiteItems, Bool.and_eq_true, finite_iff item, finiteItems_iff rest,
        List.forall_mem_cons]

theorem finiteMembers_iff : ∀ members : List (Str × Json), finiteMembers members = true ↔
    ∀ member ∈ members, ∀ number, Within children (.number number) member.2 →
      number.finite = true
  | [] => iff_of_true rfl (List.forall_mem_nil _)
  | (name, value) :: rest => by
      rw [finiteMembers, Bool.and_eq_true, finite_iff value, finiteMembers_iff rest,
        List.forall_mem_cons]

end

end Json

/-! ## The scan -/

namespace Contract

/-- The test of the loop: a float that is not finite. -/
def refuses : Json → Option PyException
  | .number number =>
      if number.finite then none
      else some (.valueError "non-finite JSON numbers are not supported")
  | .null | .bool _ | .str _ | .array _ | .object _ => none

/-- `finite_json`, with fuel for its loop. -/
def finiteJson (fuel : Nat) (value : Json) : Option (Except PyException Json) :=
  (traverse refuses Json.children fuel [value]).map fun scanned => scanned.map fun _ => value

theorem refuses_eq_none_iff {value : Json} : refuses value = none ↔
    ∀ number, value = .number number → number.finite = true := by
  cases value with
  | number number => simp [refuses]
  | null | bool | str | array | object => simp [refuses]

theorem refuses_some {value : Json} {error : PyException} (refused : refuses value = some error) :
    (∃ number, value = .number number ∧ number.finite = false) ∧
      error = .valueError "non-finite JSON numbers are not supported" := by
  cases value with
  | number number =>
      rw [refuses] at refused
      split at refused
      · cases refused
      · rename_i infinite
        cases refused
        exact ⟨⟨number, rfl, Bool.eq_false_iff.mpr infinite⟩, rfl⟩
  | null | bool | str | array | object => cases refused

/-- The scan ends: it returns a finite value unchanged and refuses any other. -/
theorem finiteJson_outcome {fuel : Nat} {value : Json} (enough : value.count ≤ fuel) :
    (value.finite = true ∧ finiteJson fuel value = some (.ok value)) ∨
      (∃ number, Within Json.children (.number number) value ∧ number.finite = false) ∧
        finiteJson fuel value =
          some (.error (.valueError "non-finite JSON numbers are not supported")) := by
  unfold finiteJson
  rcases traverse_item Json.children_smaller enough with
    ⟨clean, ended⟩ | ⟨part, error, inside, refused, ended⟩
  · refine .inl ⟨(Json.finite_iff value).mpr fun number inside => ?_, by rw [ended]; rfl⟩
    exact refuses_eq_none_iff.mp (clean _ inside) number rfl
  · obtain ⟨⟨number, rfl, infinite⟩, rfl⟩ := refuses_some refused
    exact .inr ⟨⟨number, inside, infinite⟩, by rw [ended]; rfl⟩

/-- The check that every contract makes on its input. -/
def passes (value : Json) : Bool :=
  match finiteJson value.count value with
  | some (.ok _) => true
  | some (.error _) | none => false

theorem passes_iff {value : Json} : passes value = true ↔ value.finite = true := by
  unfold passes
  rcases finiteJson_outcome (Nat.le_refl value.count) with
    ⟨finite, ended⟩ | ⟨⟨number, inside, infinite⟩, ended⟩
  · simp [ended, finite]
  · rw [ended]
    refine iff_of_false (by simp) fun finite => ?_
    have regular := (Json.finite_iff value).mp finite number inside
    rw [infinite] at regular
    cases regular

end Contract

/-! ## Checked values -/

/-- A Python value that `finite_json` has passed; no dict has a key twice. -/
structure Checked where
  value : Json
  finite : value.finite = true
  distinct : value.distinctNames = true

namespace Checked

private theorem item_checked {items : List Json} {item : Json} (member : item ∈ items)
    (finite : Json.finiteItems items = true) (distinct : Json.distinctItems items = true) :
    item.finite = true ∧ item.distinctNames = true := by
  induction items with
  | nil => cases member
  | cons head rest ih =>
      rw [Json.finiteItems, Bool.and_eq_true] at finite
      rw [Json.distinctItems, Bool.and_eq_true] at distinct
      rcases List.mem_cons.mp member with rfl | later
      · exact ⟨finite.1, distinct.1⟩
      · exact ih later finite.2 distinct.2

private theorem member_checked {members : List (Str × Json)} {found : Str × Json}
    (member : found ∈ members) (finite : Json.finiteMembers members = true)
    (distinct : Json.distinctMembers members = true) :
    found.2.finite = true ∧ found.2.distinctNames = true := by
  induction members with
  | nil => cases member
  | cons head rest ih =>
      rw [Json.finiteMembers, Bool.and_eq_true] at finite
      rw [Json.distinctMembers, Bool.and_eq_true] at distinct
      rcases List.mem_cons.mp member with rfl | later
      · exact ⟨finite.1, distinct.1⟩
      · exact ih later finite.2 distinct.2

private theorem object_distinct {members : List (Str × Json)}
    (distinct : (Json.object members).distinctNames = true) :
    Json.distinctMembers members = true := by
  rw [Json.distinctNames, Bool.and_eq_true] at distinct
  exact distinct.2

/-- The items of a list, each checked with it. -/
def items? : Checked → Option (List Checked)
  | ⟨.array items, finite, distinct⟩ =>
      some (items.attach.map fun item =>
        ⟨item.1, (item_checked item.2 finite distinct).1, (item_checked item.2 finite distinct).2⟩)
  | ⟨.null, _, _⟩ | ⟨.bool _, _, _⟩ | ⟨.number _, _, _⟩ | ⟨.str _, _, _⟩ | ⟨.object _, _, _⟩ => none

/-- The entries of a dict, each value checked with it. -/
def members? : Checked → Option (List (Str × Checked))
  | ⟨.object members, finite, distinct⟩ =>
      some (members.attach.map fun member =>
        (member.1.1, ⟨member.1.2, (member_checked member.2 finite (object_distinct distinct)).1,
          (member_checked member.2 finite (object_distinct distinct)).2⟩))
  | ⟨.null, _, _⟩ | ⟨.bool _, _, _⟩ | ⟨.number _, _, _⟩ | ⟨.str _, _, _⟩ | ⟨.array _, _, _⟩ => none

end Checked

/-! ## Validation -/

namespace Contract

def found {α : Type} : Option α → Except PyException α
  | some value => .ok value
  | none => .error .validationError

/-- The check that a nested contract makes of its own input. -/
def check (input : Checked) : Except PyException Unit :=
  if passes input.value then .ok () else .error .validationError

/-- The input as a dict without extra keys. -/
def fields (names : List String) (input : Checked) :
    Except PyException (List (Str × Checked)) := do
  let members ← found input.members?
  if members.all fun member => names.any fun name => decide (member.1 = lit name) then .ok members
  else .error .validationError

def field (members : List (Str × Checked)) (name : String) : Option Checked :=
  Dict.lookupEntries (lit name) members

def content (input : Checked) : Except PyException Content :=
  if shape : input.value.isContent = true then .ok ⟨input.value, shape, input.finite, input.distinct⟩
  else .error .validationError

/-- `Content | None`, with `None` as the default. -/
def optionalContent : Option Checked → Except PyException (Option Content)
  | none => .ok none
  | some input => if input.value = .null then .ok none else (content input).map some

def choice (input : Checked) : Except PyException Choice := do
  check input
  let members ← fields ["type", "instructions", "criteria"] input
  let instructions ← optionalContent (field members "instructions")
  let given ← found ((field members "criteria").bind Checked.members?)
  let criteria ← given.mapM fun entry => do
    let description ← optionalContent (some entry.2)
    pure (entry.1, description)
  if valid : (criteria.map Prod.fst).Nodup ∧ (1 ≤ criteria.length ∧ criteria.length ≤ 255) ∧
      ∀ label ∈ criteria.map Prod.fst, identifier label = true then
    .ok ⟨instructions, ⟨criteria, valid.1⟩, valid.2.1, valid.2.2⟩
  else .error .validationError

def score (input : Checked) : Except PyException Score := do
  check input
  let members ← fields ["type", "instructions", "criteria"] input
  let instructions ← optionalContent (field members "instructions")
  let given ← found ((field members "criteria").bind Checked.items?)
  let criteria ← given.mapM content
  if size : 1 ≤ criteria.length ∧ criteria.length ≤ 10 then .ok ⟨instructions, criteria, size⟩
  else .error .validationError

def noulCriteria (input : Checked) : Except PyException NoulCriteria := do
  check input
  let members ← fields ["true", "false"] input
  let trueCriterion ← optionalContent (field members "true")
  let falseCriterion ← optionalContent (field members "false")
  pure ⟨trueCriterion, falseCriterion⟩

def noul (input : Checked) : Except PyException Noul := do
  check input
  let members ← fields ["type", "instructions", "criteria"] input
  let instructions ← optionalContent (field members "instructions")
  let criteria ← match field members "criteria" with
    | none => .ok none
    | some given => if given.value = .null then .ok none else (noulCriteria given).map some
  pure ⟨instructions, criteria⟩

/-- The union of the questions, told apart by their `type`. -/
def question (input : Checked) : Except PyException Question := do
  let members ← found input.members?
  let type ← found (field members "type")
  if type.value = .str (lit "choice") then (choice input).map .choice
  else if type.value = .str (lit "score") then (score input).map .score
  else if type.value = .str (lit "noul") then (noul input).map .noul
  else .error .validationError

/-- `SystemOneRequest` of a Python value. -/
def systemOneRequest (raw : Json) (dicts : raw.distinctNames = true) :
    Except PyException SystemOneRequest :=
  if passed : passes raw = true then do
    let members ← fields ["model", "state", "questions"] ⟨raw, passes_iff.mp passed, dicts⟩
    let model ← match (field members "model").map Checked.value with
      | some (.str model) => .ok model
      | some .null | some (.bool _) | some (.number _) | some (.array _) | some (.object _)
        | none => .error .validationError
    let state ← found (field members "state") >>= content
    let given ← found ((field members "questions").bind Checked.members?)
    let questions ← given.mapM fun entry => do
      let asked ← question entry.2
      pure (entry.1, asked)
    if valid : identifier model = true ∧ (questions.map Prod.fst).Nodup ∧
        (1 ≤ questions.length ∧ questions.length ≤ 64) ∧
          ∀ id ∈ questions.map Prod.fst, identifier id = true then
      .ok ⟨model, state, ⟨questions, valid.2.1⟩, valid.1, valid.2.2.1, valid.2.2.2⟩
    else .error .validationError
  else .error .validationError

end Contract

end VllmVerifier
