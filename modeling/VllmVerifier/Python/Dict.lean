import Mathlib.Data.List.Basic
import Mathlib.Data.List.Nodup
import VllmVerifier.Python.Result

/-!
Insertion-ordered dictionaries. Assignment keeps the position of a key that is
already present and appends a new one, so iteration order is assignment order.
The distinctness of keys is carried by the structure.
-/

set_option autoImplicit false

namespace VllmVerifier.Python

structure Dict (κ α : Type) where
  entries : List (κ × α)
  distinct : (entries.map Prod.fst).Nodup

namespace Dict

variable {κ α β ε : Type}

def keys (dict : Dict κ α) : List κ := dict.entries.map Prod.fst

def values (dict : Dict κ α) : List α := dict.entries.map Prod.snd

def empty : Dict κ α := ⟨[], List.nodup_nil⟩

instance : Inhabited (Dict κ α) := ⟨empty⟩

@[simp] theorem entries_empty : (empty : Dict κ α).entries = [] := rfl

@[simp] theorem keys_empty : (empty : Dict κ α).keys = [] := rfl

@[ext] theorem ext {left right : Dict κ α} (same : left.entries = right.entries) :
    left = right := by
  cases left
  cases right
  cases same
  rfl

theorem mem_keys_of_mem {dict : Dict κ α} {key : κ} {value : α}
    (member : (key, value) ∈ dict.entries) : key ∈ dict.keys :=
  List.mem_map.mpr ⟨(key, value), member, rfl⟩

section Lookup

variable [DecidableEq κ]

/-- The value recorded for a key in a list of entries. -/
def lookupEntries (key : κ) : List (κ × α) → Option α
  | [] => none
  | (candidate, value) :: rest =>
      if candidate = key then some value else lookupEntries key rest

/-- Assignment into a list of entries: in place when the key is present. -/
def setEntries (key : κ) (value : α) : List (κ × α) → List (κ × α)
  | [] => [(key, value)]
  | (candidate, current) :: rest =>
      if candidate = key then (candidate, value) :: rest
      else (candidate, current) :: setEntries key value rest

theorem lookupEntries_eq_none_iff {key : κ} {entries : List (κ × α)} :
    lookupEntries key entries = none ↔ key ∉ entries.map Prod.fst := by
  induction entries with
  | nil => simp [lookupEntries]
  | cons entry rest ih =>
      by_cases same : entry.1 = key
      · simp [lookupEntries, same]
      · simp [lookupEntries, same, ih, Ne.symm same]

theorem mem_of_lookupEntries {key : κ} {value : α} {entries : List (κ × α)}
    (found : lookupEntries key entries = some value) : (key, value) ∈ entries := by
  induction entries with
  | nil => simp [lookupEntries] at found
  | cons entry rest ih =>
      by_cases same : entry.1 = key
      · simp only [lookupEntries, same, if_true, Option.some.injEq] at found
        subst found
        exact same ▸ List.mem_cons_self
      · simp only [lookupEntries, same, if_false] at found
        exact List.mem_cons_of_mem _ (ih found)

theorem lookupEntries_of_mem {key : κ} {value : α} {entries : List (κ × α)}
    (distinct : (entries.map Prod.fst).Nodup) (member : (key, value) ∈ entries) :
    lookupEntries key entries = some value := by
  induction entries with
  | nil => simp at member
  | cons entry rest ih =>
      simp only [List.map_cons, List.nodup_cons] at distinct
      rcases List.mem_cons.mp member with rfl | member
      · simp [lookupEntries]
      · have different : entry.1 ≠ key := by
          intro same
          exact distinct.1 (same ▸ List.mem_map.mpr ⟨(key, value), member, rfl⟩)
        simpa [lookupEntries, different] using ih distinct.2 member

theorem lookupEntries_setEntries_self (key : κ) (value : α) (entries : List (κ × α)) :
    lookupEntries key (setEntries key value entries) = some value := by
  induction entries with
  | nil => simp [setEntries, lookupEntries]
  | cons entry rest ih =>
      by_cases same : entry.1 = key <;> simp [setEntries, lookupEntries, same, ih]

theorem lookupEntries_setEntries_of_ne {key other : κ} (different : other ≠ key)
    (value : α) (entries : List (κ × α)) :
    lookupEntries other (setEntries key value entries) = lookupEntries other entries := by
  induction entries with
  | nil => simp [setEntries, lookupEntries, Ne.symm different]
  | cons entry rest ih =>
      by_cases same : entry.1 = key
      · simp [setEntries, lookupEntries, same, Ne.symm different]
      · simp [setEntries, lookupEntries, same, ih]

theorem setEntries_keys_of_mem {key : κ} (value : α) {entries : List (κ × α)}
    (present : key ∈ entries.map Prod.fst) :
    (setEntries key value entries).map Prod.fst = entries.map Prod.fst := by
  induction entries with
  | nil => simp at present
  | cons entry rest ih =>
      by_cases same : entry.1 = key
      · simp [setEntries, same]
      · simp only [List.map_cons, List.mem_cons, Ne.symm same, false_or] at present
        simp [setEntries, same, ih present]

theorem setEntries_of_not_mem {key : κ} (value : α) {entries : List (κ × α)}
    (absent : key ∉ entries.map Prod.fst) :
    setEntries key value entries = entries ++ [(key, value)] := by
  induction entries with
  | nil => rfl
  | cons entry rest ih =>
      simp only [List.map_cons, List.mem_cons, not_or] at absent
      simp [setEntries, Ne.symm absent.1, ih absent.2]

theorem setEntries_distinct (key : κ) (value : α) {entries : List (κ × α)}
    (distinct : (entries.map Prod.fst).Nodup) :
    ((setEntries key value entries).map Prod.fst).Nodup := by
  by_cases present : key ∈ entries.map Prod.fst
  · rw [setEntries_keys_of_mem value present]
    exact distinct
  · rw [setEntries_of_not_mem value present]
    simp only [List.map_append, List.map_cons, List.map_nil]
    exact distinct.append (by simp) (by simpa using present)

/-- `dict.get(key)`. -/
def get? (dict : Dict κ α) (key : κ) : Option α := lookupEntries key dict.entries

/-- `dict[key] = value`. -/
def set (dict : Dict κ α) (key : κ) (value : α) : Dict κ α :=
  ⟨setEntries key value dict.entries, setEntries_distinct key value dict.distinct⟩

@[simp] theorem get?_empty (key : κ) : (empty : Dict κ α).get? key = none := rfl

@[simp] theorem get?_set_self (dict : Dict κ α) (key : κ) (value : α) :
    (dict.set key value).get? key = some value :=
  lookupEntries_setEntries_self key value dict.entries

theorem get?_set_of_ne {key other : κ} (different : other ≠ key) (dict : Dict κ α)
    (value : α) : (dict.set key value).get? other = dict.get? other :=
  lookupEntries_setEntries_of_ne different value dict.entries

theorem get?_eq_some_iff {dict : Dict κ α} {key : κ} {value : α} :
    dict.get? key = some value ↔ (key, value) ∈ dict.entries :=
  ⟨mem_of_lookupEntries, lookupEntries_of_mem dict.distinct⟩

theorem keys_set_of_not_mem {dict : Dict κ α} {key : κ} (value : α)
    (absent : key ∉ dict.keys) : (dict.set key value).keys = dict.keys ++ [key] := by
  have shape := setEntries_of_not_mem value absent
  simp [keys, set, shape]

private theorem map_lookupEntries {entries : List (κ × α)}
    (distinct : (entries.map Prod.fst).Nodup) :
    (entries.map Prod.fst).map (fun key => (key, lookupEntries key entries)) =
      entries.map fun entry => (entry.1, some entry.2) := by
  rw [List.map_map]
  apply List.map_congr_left
  intro entry member
  rw [Function.comp_apply, lookupEntries_of_mem distinct member]

theorem ext_get? {left right : Dict κ α} (keys : left.keys = right.keys)
    (values : ∀ key ∈ left.keys, left.get? key = right.get? key) : left = right := by
  apply ext
  have injective : Function.Injective fun entry : κ × α => (entry.1, some entry.2) := by
    intro first second same
    obtain ⟨keySame, valueSame⟩ := Prod.mk.inj same
    exact Prod.ext keySame (Option.some.inj valueSame)
  apply injective.list_map
  rw [← map_lookupEntries left.distinct, ← map_lookupEntries right.distinct]
  change left.keys.map _ = right.keys.map _
  rw [← keys]
  apply List.map_congr_left
  intro key member
  exact Prod.ext rfl (values key member)

/-- Assigning every pair in turn, as `dict(pairs)` does. -/
def ofPairs (pairs : List (κ × α)) : Dict κ α :=
  pairs.foldl (fun dict pair => dict.set pair.1 pair.2) empty

/-- `dict.update(pairs)`. -/
def update (dict : Dict κ α) (pairs : List (κ × α)) : Dict κ α :=
  pairs.foldl (fun dict pair => dict.set pair.1 pair.2) dict

theorem ofPairs_eq_update (pairs : List (κ × α)) : ofPairs pairs = empty.update pairs := rfl

theorem ofPairs_append (first second : List (κ × α)) :
    ofPairs (first ++ second) = (ofPairs first).update second := List.foldl_append

/-- A value after an update was there before or is one of the pairs. -/
theorem get?_update {dict : Dict κ α} {pairs : List (κ × α)} {key : κ} {value : α}
    (found : (dict.update pairs).get? key = some value) :
    dict.get? key = some value ∨ (key, value) ∈ pairs := by
  unfold update at found
  induction pairs generalizing dict with
  | nil => exact .inl found
  | cons pair rest ih =>
      rcases ih found with before | later
      · by_cases same : key = pair.1
        · subst same
          rw [get?_set_self] at before
          cases before
          exact .inr List.mem_cons_self
        · rw [get?_set_of_ne same] at before
          exact .inl before
      · exact .inr (List.mem_cons_of_mem _ later)

/-- `del dict[key]`; nothing changes where the key is absent. -/
def erase (dict : Dict κ α) (key : κ) : Dict κ α where
  entries := dict.entries.filter fun entry => decide (entry.1 ≠ key)
  distinct := dict.distinct.sublist (List.filter_sublist.map _)

theorem get?_erase_self (dict : Dict κ α) (key : κ) : (dict.erase key).get? key = none := by
  cases found : (dict.erase key).get? key with
  | none => rfl
  | some value =>
      have member := get?_eq_some_iff.mp found
      simp [erase] at member

theorem mem_entries_set {dict : Dict κ α} {key : κ} {value : α} {entry : κ × α}
    (member : entry ∈ (dict.set key value).entries) :
    entry ∈ dict.entries ∨ entry = (key, value) := by
  by_cases same : entry.1 = key
  · have found := get?_eq_some_iff.mpr member
    rw [same, get?_set_self] at found
    exact .inr (Prod.ext same (Option.some.inj found).symm)
  · have found := get?_eq_some_iff.mpr member
    rw [get?_set_of_ne same] at found
    exact .inl (get?_eq_some_iff.mp found)

theorem length_set_le (dict : Dict κ α) (key : κ) (value : α) :
    (dict.set key value).entries.length ≤ dict.entries.length + 1 := by
  by_cases member : key ∈ dict.keys
  · have keys := congrArg List.length (setEntries_keys_of_mem value member)
    rw [List.length_map, List.length_map] at keys
    exact Nat.le_succ_of_le (Nat.le_of_eq keys)
  · have entries := congrArg List.length (setEntries_of_not_mem value member)
    rw [List.length_append, List.length_singleton] at entries
    exact Nat.le_of_eq entries

/-- A loop over the entries that deletes some of them. -/
theorem entries_foldl_erase (dict : Dict κ α) (drops : κ × α → Bool) :
    (dict.entries.foldl (fun kept entry => if drops entry then kept.erase entry.1 else kept)
      dict).entries = dict.entries.filter fun entry => !drops entry := by
  have general : ∀ (items : List (κ × α)) (kept : Dict κ α),
      (items.foldl (fun kept entry => if drops entry then kept.erase entry.1 else kept)
        kept).entries =
        kept.entries.filter fun entry => decide (entry.1 ∉ (items.filter drops).map Prod.fst) := by
    intro items
    induction items with
    | nil => simp
    | cons first rest ih =>
        intro kept
        rw [List.foldl_cons, ih]
        by_cases dropped : drops first = true
        · rw [if_pos dropped, List.filter_cons_of_pos dropped]
          simp only [erase, List.filter_filter, List.map_cons, List.mem_cons, not_or, Bool.decide_and,
            Bool.and_comm]
        · rw [if_neg dropped, List.filter_cons_of_neg dropped]
  rw [general]
  apply List.filter_congr
  intro entry member
  have named : entry.1 ∈ (dict.entries.filter drops).map Prod.fst ↔ drops entry = true := by
    constructor
    · intro given
      obtain ⟨other, listed, same⟩ := List.mem_map.mp given
      obtain ⟨present, dropped⟩ := List.mem_filter.mp listed
      rwa [← List.inj_on_of_nodup_map dict.distinct present member same]
    · intro dropped
      exact List.mem_map.mpr ⟨entry, List.mem_filter.mpr ⟨member, dropped⟩, rfl⟩
  by_cases dropped : drops entry = true
  · simp [named.mpr dropped, dropped]
  · rw [decide_eq_true (mt named.mp dropped), Bool.eq_false_iff.mpr dropped]
    rfl

private theorem foldl_set_entries (pairs : List (κ × α)) (dict : Dict κ α)
    (distinct : (dict.keys ++ pairs.map Prod.fst).Nodup) :
    (pairs.foldl (fun dict pair => dict.set pair.1 pair.2) dict).entries =
      dict.entries ++ pairs := by
  induction pairs generalizing dict with
  | nil => simp
  | cons pair rest ih =>
      have absent : pair.1 ∉ dict.keys := by
        intro member
        exact (List.nodup_append.mp distinct).2.2 _ member _ (by simp) rfl
      have entries : (dict.set pair.1 pair.2).entries = dict.entries ++ [pair] :=
        setEntries_of_not_mem pair.2 absent
      have keysShape := keys_set_of_not_mem pair.2 absent
      rw [List.foldl_cons, ih, entries, List.append_assoc, List.singleton_append]
      rw [keysShape, List.append_assoc, List.singleton_append]
      simpa using distinct

/-- Distinct pairs are kept exactly, in their order. -/
theorem entries_ofPairs {pairs : List (κ × α)} (distinct : (pairs.map Prod.fst).Nodup) :
    (ofPairs pairs).entries = pairs := by
  simpa [ofPairs] using foldl_set_entries pairs empty (by simpa using distinct)

theorem entries_zip {dict : Dict κ β} {values : List α}
    (lengths : dict.entries.length = values.length) :
    (ofPairs (dict.keys.zip values)).entries = dict.keys.zip values := by
  apply entries_ofPairs
  rw [List.map_fst_zip (by simp [keys, lengths])]
  exact dict.distinct

theorem keys_zip {dict : Dict κ β} {values : List α}
    (lengths : dict.entries.length = values.length) :
    (ofPairs (dict.keys.zip values)).keys = dict.keys := by
  rw [keys, entries_zip lengths, List.map_fst_zip (by simp [keys, lengths])]

theorem get?_zip {dict : Dict κ β} {values : List α}
    (lengths : dict.entries.length = values.length) :
    List.Forall₂ (fun entry value => (ofPairs (dict.keys.zip values)).get? entry.1 = some value)
      dict.entries values := by
  refine List.forall₂_iff_zip.mpr ⟨lengths, fun {entry value} member => ?_⟩
  rw [get?_eq_some_iff, entries_zip lengths, keys, List.zip_map_left]
  exact List.mem_map.mpr ⟨(entry, value), member, rfl⟩

/-- `{key: f(key) for key in keys}`, stopping at the first exception. -/
def comprehension (keys : List κ) (f : κ → Except ε α) : Except ε (Dict κ α) := do
  let values ← keys.mapM f
  pure (ofPairs (keys.zip values))

/-- A comprehension over distinct keys has these keys, each with its own value. -/
theorem comprehension_ok {keys : List κ} {f : κ → Except ε α} {dict : Dict κ α}
    (distinct : keys.Nodup) (success : comprehension keys f = .ok dict) :
    dict.keys = keys ∧ ∀ key value, (key, value) ∈ dict.entries → f key = .ok value := by
  obtain ⟨values, mapped, shape⟩ := except_bind_ok success
  have related := mapM_ok_iff.mp mapped
  have first : (keys.zip values).map Prod.fst = keys :=
    List.map_fst_zip (Nat.le_of_eq related.length_eq)
  have entries : dict.entries = keys.zip values := by
    cases shape
    exact entries_ofPairs (by rwa [first])
  refine ⟨by rw [Dict.keys, entries, first], ?_⟩
  intro key value member
  rw [entries] at member
  exact (List.forall₂_iff_zip.mp related).2 member

theorem comprehension_total {keys : List κ} {f : κ → Except ε α}
    (total : ∀ key ∈ keys, ∃ value, f key = .ok value) :
    ∃ dict, comprehension keys f = .ok dict := by
  cases mapped : keys.mapM f with
  | ok values => exact ⟨_, by rw [comprehension, mapped]; rfl⟩
  | error raised =>
      obtain ⟨key, member, failed⟩ := mapM_error mapped
      obtain ⟨value, found⟩ := total key member
      rw [found] at failed
      cases failed

end Lookup

end Dict

end VllmVerifier.Python
