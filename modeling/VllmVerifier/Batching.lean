import Mathlib.Data.List.Chain
import Mathlib.Data.List.Perm.Basic
import Mathlib.Data.List.Sort
import VllmVerifier.Python.Dict

/-!
Regrouping work: items pushed under a key, and a list cut greedily into runs.
Neither loses, repeats or invents an item.
-/

set_option autoImplicit false

namespace VllmVerifier.Batching

open Python

variable {α κ : Type}

/-! ## Groups -/

section Groups

variable [DecidableEq κ]

/-- `groups[key].append(item)` of a `defaultdict(list)`. -/
def push (key : α → κ) (groups : Dict κ (List α)) (item : α) : Dict κ (List α) :=
  groups.set (key item) ((groups.get? (key item)).getD [] ++ [item])

private theorem setEntries_flatten {key : κ} {item : α} {entries : List (κ × List α)}
    (distinct : (entries.map Prod.fst).Nodup) :
    ((Dict.setEntries key ((Dict.lookupEntries key entries).getD [] ++ [item]) entries).flatMap
      Prod.snd).Perm (entries.flatMap Prod.snd ++ [item]) := by
  induction entries with
  | nil => simp [Dict.lookupEntries, Dict.setEntries]
  | cons entry rest ih =>
      obtain ⟨found, items⟩ := entry
      by_cases same : found = key
      · simp only [Dict.lookupEntries, Dict.setEntries, same, if_true, Option.getD_some,
          List.flatMap_cons, List.append_assoc]
        exact List.perm_append_comm.append_left items
      · have tail := ih (List.nodup_cons.mp distinct).2
        simp only [Dict.lookupEntries, Dict.setEntries, same, if_false, List.flatMap_cons,
          List.append_assoc]
        exact tail.append_left items

theorem push_perm (key : α → κ) (groups : Dict κ (List α)) (item : α) :
    (push key groups item).values.flatten.Perm (groups.values.flatten ++ [item]) := by
  have shape := @setEntries_flatten α κ _ (key item) item groups.entries groups.distinct
  simpa [push, Dict.set, Dict.get?, Dict.values, List.flatMap_def] using shape

theorem foldl_push_perm (key : α → κ) (items : List α) (groups : Dict κ (List α)) :
    (items.foldl (push key) groups).values.flatten.Perm (groups.values.flatten ++ items) := by
  induction items generalizing groups with
  | nil => simp
  | cons item rest ih =>
      refine (ih _).trans ?_
      rw [List.append_cons]
      exact (push_perm key groups item).append_right rest

/-- Every group holds items of its own key. -/
def Keyed (key : α → κ) (groups : Dict κ (List α)) : Prop :=
  ∀ label items, groups.get? label = some items → ∀ item ∈ items, key item = label

theorem Keyed.push {key : α → κ} {groups : Dict κ (List α)} (keyed : Keyed key groups)
    (item : α) : Keyed key (push key groups item) := by
  intro label items found member inside
  unfold Batching.push at found
  by_cases same : label = key item
  · rw [same, Dict.get?_set_self] at found
    cases found
    rcases List.mem_append.mp inside with before | last
    · cases known : groups.get? (key item) with
      | none =>
          rw [known] at before
          cases before
      | some earlier =>
          rw [known] at before
          exact same ▸ keyed _ earlier known member before
    · rw [List.mem_singleton.mp last, same]
  · rw [Dict.get?_set_of_ne same] at found
    exact keyed label items found member inside

theorem foldl_push_keyed {key : α → κ} {groups : Dict κ (List α)} (keyed : Keyed key groups)
    (items : List α) : Keyed key (items.foldl (Batching.push key) groups) := by
  induction items generalizing groups with
  | nil => exact keyed
  | cons item rest ih => exact ih (keyed.push item)

/-- The pieces in which every item has this key. -/
def piecesOf (key : α → κ) (label : κ) (pieces : List (List α)) : List (List α) :=
  pieces.filter fun piece => piece.all fun item => key item = label

private theorem piecesOf_other {key : α → κ} {label other : κ} {pieces : List (List α)}
    (different : other ≠ label)
    (within : ∀ piece ∈ pieces, piece ≠ [] ∧ ∀ item ∈ piece, key item = other) :
    piecesOf key label pieces = [] := by
  apply List.filter_eq_nil_iff.mpr
  intro piece member all
  obtain ⟨nonempty, same⟩ := within piece member
  obtain ⟨item, rest, rfl⟩ := List.exists_cons_of_ne_nil nonempty
  have known := List.all_eq_true.mp all item List.mem_cons_self
  exact different ((same item List.mem_cons_self).symm.trans (of_decide_eq_true known))

private theorem divide_nil {divide : List α → List (List α)}
    (divides : ∀ items, ∀ piece ∈ divide items, piece ≠ [] ∧ piece ⊆ items) : divide [] = [] := by
  apply List.eq_nil_iff_forall_not_mem.mpr
  intro piece member
  obtain ⟨nonempty, inside⟩ := divides [] piece member
  exact nonempty (List.subset_nil.mp inside)

private theorem piecesOf_entries {key : α → κ} {divide : List α → List (List α)}
    (divides : ∀ items, ∀ piece ∈ divide items, piece ≠ [] ∧ piece ⊆ items) (label : κ)
    {entries : List (κ × List α)} (distinct : (entries.map Prod.fst).Nodup)
    (keyed : ∀ entry ∈ entries, ∀ item ∈ entry.2, key item = entry.1) :
    piecesOf key label (entries.flatMap fun entry => divide entry.2) =
      divide ((Dict.lookupEntries label entries).getD []) := by
  have within : ∀ entry ∈ entries, ∀ piece ∈ divide entry.2,
      piece ≠ [] ∧ ∀ item ∈ piece, key item = entry.1 := by
    intro entry member piece present
    obtain ⟨nonempty, inside⟩ := divides _ piece present
    exact ⟨nonempty, fun item found => keyed entry member item (inside found)⟩
  induction entries with
  | nil => simp [piecesOf, Dict.lookupEntries, divide_nil divides]
  | cons entry rest ih =>
      rw [List.map_cons, List.nodup_cons] at distinct
      have later := ih distinct.2 (fun found member => keyed found (List.mem_cons_of_mem _ member))
        fun found member => within found (List.mem_cons_of_mem _ member)
      have split : piecesOf key label ((entry :: rest).flatMap fun entry => divide entry.2) =
          piecesOf key label (divide entry.2) ++
            piecesOf key label (rest.flatMap fun entry => divide entry.2) := by
        rw [List.flatMap_cons]
        exact List.filter_append ..
      have own := within entry List.mem_cons_self
      rw [split]
      by_cases same : entry.1 = label
      · have all : piecesOf key label (divide entry.2) = divide entry.2 := by
          apply List.filter_eq_self.mpr
          intro piece member
          apply List.all_eq_true.mpr
          intro item inside
          exact decide_eq_true (same ▸ (own piece member).2 item inside)
        have absent : Dict.lookupEntries label rest = none := by
          rw [Dict.lookupEntries_eq_none_iff, ← same]
          exact distinct.1
        have none : piecesOf key label (rest.flatMap fun entry => divide entry.2) = [] := by
          rw [later, absent]
          exact divide_nil divides
        simp [Dict.lookupEntries, same, all, none]
      · rw [piecesOf_other same own, List.nil_append, later]
        simp [Dict.lookupEntries, same]

/-- Where every group is divided by itself, the pieces of one key are those of
its group. -/
theorem piecesOf_groups {key : α → κ} {divide : List α → List (List α)}
    (divides : ∀ items, ∀ piece ∈ divide items, piece ≠ [] ∧ piece ⊆ items)
    {groups : Dict κ (List α)} (keyed : Keyed key groups) (label : κ) :
    piecesOf key label (groups.values.flatMap divide) =
      divide ((groups.get? label).getD []) := by
  rw [Dict.values, List.flatMap_map]
  refine piecesOf_entries divides label groups.distinct fun entry member => ?_
  exact keyed entry.1 entry.2 (Dict.get?_eq_some_iff.mpr member)

end Groups

/-! ## Numbered sources -/

private theorem filter_flatMap_of_ne {β : Type} {key : β → Nat} {produce : α × Nat → List β}
    (owned : ∀ source, ∀ item ∈ produce source, key item = source.2) {sources : List α}
    {start index : Nat} (before : index < start) :
    ((sources.zipIdx start).flatMap produce).filter (fun item => key item = index) = [] := by
  rw [List.filter_eq_nil_iff]
  intro item member same
  obtain ⟨source, present, produced⟩ := List.mem_flatMap.mp member
  have later := List.le_snd_of_mem_zipIdx present
  have found := owned source item produced
  have equal := of_decide_eq_true same
  omega

/-- Items that name the number of their source are filtered back by it. -/
theorem filter_flatMap_zipIdx {β : Type} (key : β → Nat) {produce : α × Nat → List β}
    (owned : ∀ source, ∀ item ∈ produce source, key item = source.2) {sources : List α}
    {start index : Nat} {source : α} (found : (source, index) ∈ sources.zipIdx start) :
    ((sources.zipIdx start).flatMap produce).filter (fun item => key item = index) =
      produce (source, index) := by
  induction sources generalizing start with
  | nil => cases found
  | cons first rest ih =>
      rw [List.zipIdx_cons] at found ⊢
      rw [List.flatMap_cons, List.filter_append]
      rcases List.mem_cons.mp found with same | later
      · cases same
        rw [filter_flatMap_of_ne owned (Nat.lt_succ_self _), List.append_nil,
          List.filter_eq_self]
        exact fun item member => decide_eq_true (owned _ item member)
      · have above := List.le_snd_of_mem_zipIdx later
        have none : (produce (first, start)).filter (fun item => key item = index) = [] := by
          rw [List.filter_eq_nil_iff]
          intro item member same
          have equal := of_decide_eq_true same
          have known := owned _ item member
          simp only at above known
          omega
        rw [none, List.nil_append]
        exact ih later

/-! ## Runs -/

/-- The runs of a list, the first of them begun with `current`: an item joins
the run before it or starts the next one. -/
def cutFrom (joins : List α → α → Bool) (current : List α) : List α → List (List α)
  | [] => [current]
  | item :: rest =>
      if joins current item then cutFrom joins (current ++ [item]) rest
      else current :: cutFrom joins [item] rest

def cut (joins : List α → α → Bool) : List α → List (List α)
  | [] => []
  | item :: rest => cutFrom joins [item] rest

theorem cutFrom_flatten (joins : List α → α → Bool) (current items : List α) :
    (cutFrom joins current items).flatten = current ++ items := by
  induction items generalizing current with
  | nil => simp [cutFrom]
  | cons item rest ih =>
      unfold cutFrom
      split
      · rw [ih, List.append_assoc, List.singleton_append]
      · rw [List.flatten_cons, ih, List.singleton_append]

theorem cut_flatten (joins : List α → α → Bool) (items : List α) :
    (cut joins items).flatten = items := by
  cases items with
  | nil => rfl
  | cons item rest => exact cutFrom_flatten joins [item] rest

/-- What holds of single items and is kept where one joins holds of every run. -/
theorem forall_cut {joins : List α → α → Bool} {holds : List α → Prop} {items : List α}
    (single : ∀ item ∈ items, holds [item])
    (grows : ∀ current item, (current ++ [item]).Sublist items → holds current →
      joins current item = true → holds (current ++ [item])) :
    ∀ run ∈ cut joins items, holds run := by
  have from_current : ∀ rest current, (current ++ rest).Sublist items → holds current →
      ∀ run ∈ cutFrom joins current rest, holds run := by
    intro rest
    induction rest with
    | nil =>
        intro current _ known run member
        rw [List.mem_singleton.mp member]
        exact known
    | cons item rest ih =>
        intro current inside known run member
        rw [List.append_cons] at inside
        unfold cutFrom at member
        split at member
        · rename_i joined
          have grown := grows current item ((List.sublist_append_left _ _).trans inside) known joined
          exact ih _ inside grown run member
        · rcases List.mem_cons.mp member with rfl | later
          · exact known
          · rw [← List.append_cons] at inside
            have tail := (List.sublist_append_right current _).trans inside
            exact ih [item] tail (single item (tail.subset List.mem_cons_self)) run later
  cases items with
  | nil =>
      intro run member
      cases member
  | cons item rest =>
      exact from_current rest [item] (List.Sublist.refl _) (single item List.mem_cons_self)

theorem cut_ne_nil {joins : List α → α → Bool} {items run : List α}
    (member : run ∈ cut joins items) : run ≠ [] := by
  have nonempty : ∀ run ∈ cut joins items, run ≠ [] :=
    forall_cut (fun _ _ => List.cons_ne_nil _ _) fun current item _ _ _ =>
      List.concat_ne_nil item current
  exact nonempty run member

theorem cut_sublist {joins : List α → α → Bool} {items run : List α}
    (member : run ∈ cut joins items) : run.Sublist items := by
  have inside := List.sublist_flatten_of_mem member
  rwa [cut_flatten] at inside

private theorem cutFrom_head (joins : List α → α → Bool) (current items : List α) :
    ∃ more others, cutFrom joins current items = (current ++ more) :: others := by
  induction items generalizing current with
  | nil => exact ⟨[], [], by rw [List.append_nil]; rfl⟩
  | cons item rest ih =>
      unfold cutFrom
      split
      · obtain ⟨more, others, shape⟩ := ih (current ++ [item])
        exact ⟨item :: more, others, by rw [shape, List.append_assoc, List.singleton_append]⟩
      · exact ⟨[], _, by rw [List.append_nil]⟩

theorem isChain_cut (joins : List α → α → Bool) (items : List α) :
    (cut joins items).IsChain fun run next =>
      ∀ item ∈ next.head?, joins run item = false := by
  have from_current : ∀ rest current, (cutFrom joins current rest).IsChain fun run next =>
      ∀ item ∈ next.head?, joins run item = false := by
    intro rest
    induction rest with
    | nil => exact fun current => .singleton current
    | cons item rest ih =>
        intro current
        unfold cutFrom
        split
        · exact ih _
        · rename_i apart
          obtain ⟨more, others, shape⟩ := cutFrom_head joins [item] rest
          have later := ih [item]
          rw [shape] at later ⊢
          refine .cons_cons ?_ later
          intro found head
          obtain rfl := Option.some.inj head
          exact Bool.eq_false_iff.mpr apart
  cases items with
  | nil => exact .nil
  | cons item rest => exact from_current rest [item]

theorem cut_groups_perm (joins : List α → α → Bool) (sort : List α → List α)
    (sorted : ∀ items, (sort items).Perm items) (groups : List (List α)) :
    (groups.flatMap fun items => cut joins (sort items)).flatten.Perm groups.flatten := by
  induction groups with
  | nil => exact .nil
  | cons items rest ih =>
      rw [List.flatMap_cons, List.flatten_append, List.flatten_cons, cut_flatten]
      exact (sorted items).append ih

end VllmVerifier.Batching
