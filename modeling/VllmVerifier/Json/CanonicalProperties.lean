import Mathlib.Data.List.Perm.Subperm
import VllmVerifier.Json.DumpsProperties

/-!
Rendering with sorted keys. It writes the value whose members are in the order
of their names at every depth, so two values have one canonical text exactly
when they are equal up to the order of members.
-/

set_option autoImplicit false

namespace VllmVerifier.Json

open Python

/-! ## The order of names -/

theorem strLe_total (left right : Str) : strLe left right = true ∨ strLe right left = true := by
  induction left generalizing right with
  | nil => exact .inl rfl
  | cons code rest ih =>
      cases right with
      | nil => exact .inr rfl
      | cons code' rest' =>
          rcases Nat.lt_trichotomy code code' with less | rfl | greater
          · simp [strLe, less]
          · simpa [strLe] using ih rest'
          · simp [strLe, greater]

theorem strLe_trans {left middle right : Str} (first : strLe left middle = true)
    (second : strLe middle right = true) : strLe left right = true := by
  induction left generalizing middle right with
  | nil => rfl
  | cons code rest ih =>
      cases middle with
      | nil => cases first
      | cons code' rest' =>
          cases right with
          | nil => cases second
          | cons code'' rest'' =>
              simp only [strLe] at first second ⊢
              have tails := @ih rest' rest''
              grind

theorem strLe_antisymm {left right : Str} (first : strLe left right = true)
    (second : strLe right left = true) : left = right := by
  induction left generalizing right with
  | nil =>
      cases right with
      | nil => rfl
      | cons => cases second
  | cons code rest ih =>
      cases right with
      | nil => cases first
      | cons code' rest' =>
          simp only [strLe] at first second
          have tails := @ih rest'
          grind

/-- The order in which members are written. -/
def NameLe {α : Type} (left right : Str × α) : Prop := strLe left.1 right.1 = true

instance {α : Type} : DecidableRel (NameLe (α := α)) :=
  fun left right => inferInstanceAs (Decidable (strLe left.1 right.1 = true))

instance {α : Type} : Std.Total (NameLe (α := α)) :=
  ⟨fun left right => strLe_total left.1 right.1⟩

instance {α : Type} : IsTrans (Str × α) NameLe :=
  ⟨fun _ _ _ => strLe_trans⟩

/-- Members in the order of their names. -/
def sortMembers {α : Type} (members : List (Str × α)) : List (Str × α) :=
  members.insertionSort NameLe

theorem arrange_canonical (members : List (Str × Str)) :
    arrange .canonical members = sortMembers members := rfl

theorem sortMembers_perm {α : Type} (members : List (Str × α)) :
    (sortMembers members).Perm members := List.perm_insertionSort NameLe members

theorem sortMembers_eq {α : Type} {left right : List (Str × α)} (permuted : left.Perm right)
    (distinct : (left.map Prod.fst).Nodup) : sortMembers left = sortMembers right := by
  have sorted := ((sortMembers_perm left).trans permuted).trans (sortMembers_perm right).symm
  refine List.Perm.eq_of_pairwise (fun first second member member' before after => ?_)
    (List.pairwise_insertionSort NameLe left) (List.pairwise_insertionSort NameLe right) sorted
  have inside := (sortMembers_perm left).mem_iff.mp member
  have inside' := permuted.mem_iff.mpr ((sortMembers_perm right).mem_iff.mp member')
  exact List.inj_on_of_nodup_map distinct inside inside' (strLe_antisymm before after)

/-! ## The value that is written -/

mutual

/-- The value with the members of every object in the order of their names. -/
def sorted : Json → Json
  | .null => .null
  | .bool value => .bool value
  | .number value => .number value
  | .str text => .str text
  | .array items => .array (sortedItems items)
  | .object members => .object (sortMembers (sortedMembers members))

def sortedItems : List Json → List Json
  | [] => []
  | item :: rest => sorted item :: sortedItems rest

def sortedMembers : List (Str × Json) → List (Str × Json)
  | [] => []
  | (name, value) :: rest => (name, sorted value) :: sortedMembers rest

end

theorem sortedMembers_eq_map (members : List (Str × Json)) :
    sortedMembers members = members.map fun member => (member.1, sorted member.2) := by
  induction members with
  | nil => rfl
  | cons member rest ih => rw [sortedMembers, List.map_cons, ih]

theorem dumpsMembers_orderedInsert (layout : Layout) (member : Str × Json)
    (members : List (Str × Json)) :
    dumpsMembers layout (members.orderedInsert NameLe member) = (do
      let text ← dumps layout member.2
      let texts ← dumpsMembers layout members
      pure (texts.orderedInsert NameLe (member.1, text))) := by
  induction members with
  | nil =>
      cases rendered : dumps layout member.2 with
      | none => simp [dumpsMembers, rendered]
      | some text => simp [dumpsMembers, rendered]
  | cons head rest ih =>
      rw [List.orderedInsert_cons]
      by_cases before : NameLe member head
      · have same : ∀ text text', NameLe (member.1, text) ((head.1, text') : Str × Str) :=
          fun _ _ => before
        rw [if_pos before]
        cases rendered : dumps layout member.2 with
        | none => simp [dumpsMembers, rendered]
        | some text =>
            cases renderedHead : dumps layout head.2 with
            | none => simp [dumpsMembers, rendered, renderedHead]
            | some text' =>
                cases others : dumpsMembers layout rest <;>
                  simp [dumpsMembers, rendered, renderedHead, others, same]
      · have same : ∀ text text', ¬ NameLe (member.1, text) ((head.1, text') : Str × Str) :=
          fun _ _ => before
        rw [if_neg before, dumpsMembers, ih]
        cases rendered : dumps layout member.2 with
        | none => cases renderedHead : dumps layout head.2 <;> simp
        | some text =>
            cases renderedHead : dumps layout head.2 with
            | none => simp [dumpsMembers, renderedHead]
            | some text' =>
                cases others : dumpsMembers layout rest <;>
                  simp [dumpsMembers, renderedHead, others, same]

theorem dumpsMembers_sort (layout : Layout) (members : List (Str × Json)) :
    dumpsMembers layout (sortMembers members) =
      (dumpsMembers layout members).map sortMembers := by
  induction members with
  | nil => rfl
  | cons member rest ih =>
      rw [sortMembers, List.insertionSort_cons, dumpsMembers_orderedInsert]
      rw [← sortMembers, ih, dumpsMembers]
      cases dumps layout member.2 with
      | none => rfl
      | some text => cases dumpsMembers layout rest <;> rfl

mutual

/-- Sorting the keys while writing is writing the sorted value. -/
theorem dumps_canonical : ∀ value : Json, dumps .canonical value = dumps .compact (sorted value)
  | .null | .bool true | .bool false | .number _ | .str _ => rfl
  | .array items => by
      rw [sorted, dumps, dumps, dumpsItems_canonical items]
      rfl
  | .object members => by
      rw [sorted, dumps, dumps, dumpsMembers_sort, dumpsMembers_canonical members]
      cases dumpsMembers .compact (sortedMembers members) <;> rfl

theorem dumpsItems_canonical :
    ∀ items : List Json, dumpsItems .canonical items = dumpsItems .compact (sortedItems items)
  | [] => rfl
  | item :: rest => by
      rw [sortedItems, dumpsItems, dumpsItems, dumps_canonical item, dumpsItems_canonical rest]

theorem dumpsMembers_canonical : ∀ members : List (Str × Json),
    dumpsMembers .canonical members = dumpsMembers .compact (sortedMembers members)
  | [] => rfl
  | (name, value) :: rest => by
      rw [sortedMembers, dumpsMembers, dumpsMembers, dumps_canonical value,
        dumpsMembers_canonical rest]

end

theorem sorted_eq_of_dumps {left right : Json} {text : Str}
    (written : dumps .canonical left = some text) (written' : dumps .canonical right = some text) :
    sorted left = sorted right := by
  rw [dumps_canonical] at written written'
  exact (dumps_document compact_spaced written).unique (dumps_document compact_spaced written')

/-! ## Equality up to the order of members -/

mutual

/-- The two values differ at most in the order of object members, at any depth. -/
inductive Same : Json → Json → Prop where
  | null : Same .null .null
  | bool {value : Bool} : Same (.bool value) (.bool value)
  | number {value : Number} : Same (.number value) (.number value)
  | str {text : Str} : Same (.str text) (.str text)
  | array {items others : List Json} :
      SameItems items others → Same (.array items) (.array others)
  | object {members others : List (Str × Json)} :
      members.length = others.length → SameMembers members others →
      Same (.object members) (.object others)

inductive SameItems : List Json → List Json → Prop where
  | nil : SameItems [] []
  | cons {item other : Json} {items others : List Json} :
      Same item other → SameItems items others → SameItems (item :: items) (other :: others)

inductive SameMembers : List (Str × Json) → List (Str × Json) → Prop where
  | nil {others : List (Str × Json)} : SameMembers [] others
  | cons {name : Str} {value other : Json} {members others : List (Str × Json)} :
      (name, other) ∈ others → Same value other → SameMembers members others →
      SameMembers ((name, value) :: members) others

end

theorem sortedMembers_names (members : List (Str × Json)) :
    (sortedMembers members).map Prod.fst = members.map Prod.fst := by
  rw [sortedMembers_eq_map, List.map_map]
  rfl

theorem mem_sortedMembers {name : Str} {value : Json} {members : List (Str × Json)} :
    (name, value) ∈ sortedMembers members ↔
      ∃ original, (name, original) ∈ members ∧ sorted original = value := by
  rw [sortedMembers_eq_map, List.mem_map]
  constructor
  · intro given
    obtain ⟨⟨_, original⟩, member, same⟩ := given
    cases same
    exact ⟨original, member, rfl⟩
  · intro given
    obtain ⟨original, member, rfl⟩ := given
    exact ⟨(name, original), member, rfl⟩

theorem distinct_of_mem {members : List (Str × Json)} (distinct : distinctMembers members = true)
    {member : Str × Json} (present : member ∈ members) : member.2.distinctNames = true := by
  induction members with
  | nil => cases present
  | cons head rest ih =>
      rw [distinctMembers, Bool.and_eq_true] at distinct
      rcases List.mem_cons.mp present with rfl | later
      · exact distinct.1
      · exact ih distinct.2 later

private theorem sortedMembers_sort {members others : List (Str × Json)}
    (distinct : (members.map Prod.fst).Nodup) (counted : members.length = others.length)
    (inside : ∀ member ∈ sortedMembers members, member ∈ sortedMembers others) :
    sortMembers (sortedMembers members) = sortMembers (sortedMembers others) := by
  have names : ((sortedMembers members).map Prod.fst).Nodup := by
    rw [sortedMembers_names]
    exact distinct
  have lengths : (sortedMembers others).length ≤ (sortedMembers members).length := by
    rw [sortedMembers_eq_map, sortedMembers_eq_map, List.length_map, List.length_map, counted]
  have subperm := List.subperm_of_subset (List.Nodup.of_map _ names) inside
  exact sortMembers_eq (subperm.perm_of_length_le lengths) names

mutual

theorem Same.sorted_eq : ∀ {left right : Json}, Same left right → left.distinctNames = true →
    right.distinctNames = true → sorted left = sorted right
  | _, _, .null, _, _ | _, _, .bool, _, _ | _, _, .number, _, _ | _, _, .str, _, _ => rfl
  | _, _, .array items, distinct, distinct' => by
      rw [sorted, sorted, items.sorted_eq distinct distinct']
  | _, _, .object counted members, distinct, distinct' => by
      rw [distinctNames, Bool.and_eq_true, decide_eq_true_eq] at distinct distinct'
      rw [sorted, sorted,
        sortedMembers_sort distinct.1 counted (members.sorted_mem distinct.2 distinct'.2)]

theorem SameItems.sorted_eq : ∀ {items others : List Json}, SameItems items others →
    distinctItems items = true → distinctItems others = true →
    sortedItems items = sortedItems others
  | _, _, .nil, _, _ => rfl
  | _, _, .cons head tail, distinct, distinct' => by
      rw [distinctItems, Bool.and_eq_true] at distinct distinct'
      rw [sortedItems, sortedItems, head.sorted_eq distinct.1 distinct'.1,
        tail.sorted_eq distinct.2 distinct'.2]

theorem SameMembers.sorted_mem : ∀ {members others : List (Str × Json)},
    SameMembers members others → distinctMembers members = true →
    distinctMembers others = true →
    ∀ member ∈ sortedMembers members, member ∈ sortedMembers others
  | _, _, .nil, _, _, _, member => nomatch member
  | _, _, .cons found same rest, distinct, distinct', member, present => by
      rw [distinctMembers, Bool.and_eq_true] at distinct
      rcases List.mem_cons.mp present with rfl | later
      · exact mem_sortedMembers.mpr
          ⟨_, found, (same.sorted_eq distinct.1 (distinct_of_mem distinct' found)).symm⟩
      · exact rest.sorted_mem distinct.2 distinct' member later

end

mutual

theorem same_of_sorted : ∀ left right : Json, sorted left = sorted right → Same left right
  | .null, right, equal => by
      cases right <;> simp only [sorted, reduceCtorEq] at equal
      exact .null
  | .bool value, right, equal => by
      cases right <;> simp only [sorted, reduceCtorEq, Json.bool.injEq] at equal
      exact equal ▸ .bool
  | .number value, right, equal => by
      cases right <;> simp only [sorted, reduceCtorEq, Json.number.injEq] at equal
      exact equal ▸ .number
  | .str text, right, equal => by
      cases right <;> simp only [sorted, reduceCtorEq, Json.str.injEq] at equal
      exact equal ▸ .str
  | .array items, right, equal => by
      cases right <;> simp only [sorted, reduceCtorEq, Json.array.injEq] at equal
      exact .array (sameItems_of_sorted items _ equal)
  | .object members, right, equal => by
      cases right <;> simp only [sorted, reduceCtorEq, Json.object.injEq] at equal
      rename_i others
      have permuted : (sortedMembers members).Perm (sortedMembers others) :=
        (sortMembers_perm _).symm.trans (equal ▸ sortMembers_perm _)
      have lengths := permuted.length_eq
      rw [sortedMembers_eq_map, sortedMembers_eq_map, List.length_map, List.length_map] at lengths
      exact .object lengths
        (sameMembers_of_sorted members others fun member => permuted.mem_iff.mp)

theorem sameItems_of_sorted : ∀ items others : List Json,
    sortedItems items = sortedItems others → SameItems items others
  | [], [], _ => .nil
  | [], _ :: _, equal | _ :: _, [], equal => by simp [sortedItems] at equal
  | item :: items, other :: others, equal => by
      simp only [sortedItems, List.cons.injEq] at equal
      exact .cons (same_of_sorted item other equal.1) (sameItems_of_sorted items others equal.2)

theorem sameMembers_of_sorted : ∀ members others : List (Str × Json),
    (∀ member ∈ sortedMembers members, member ∈ sortedMembers others) →
    SameMembers members others
  | [], _, _ => .nil
  | (name, value) :: rest, others, inside => by
      obtain ⟨other, found, equal⟩ := mem_sortedMembers.mp (inside _ List.mem_cons_self)
      exact .cons found (same_of_sorted value other equal.symm)
        (sameMembers_of_sorted rest others fun member present =>
          inside member (List.mem_cons_of_mem _ present))

end

theorem sorted_eq_iff {left right : Json} (distinct : left.distinctNames = true)
    (distinct' : right.distinctNames = true) : sorted left = sorted right ↔ Same left right :=
  ⟨same_of_sorted left right, fun same => same.sorted_eq distinct distinct'⟩

/-- Two finite values have the same canonical text exactly when they differ at
most in the order of members. -/
theorem dumps_canonical_iff {left right : Json} (finite : left.finite = true)
    (distinct : left.distinctNames = true) (distinct' : right.distinctNames = true) :
    dumps .canonical left = dumps .canonical right ↔ Same left right := by
  rw [← sorted_eq_iff distinct distinct']
  constructor
  · intro equal
    obtain ⟨text, written⟩ := Option.isSome_iff_exists.mp (dumps_isSome .canonical left finite)
    exact sorted_eq_of_dumps written (equal ▸ written)
  · intro equal
    rw [dumps_canonical, dumps_canonical, equal]

end VllmVerifier.Json
