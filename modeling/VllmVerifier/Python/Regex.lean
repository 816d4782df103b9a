import Mathlib.Data.List.Range
import VllmVerifier.Python.Str

/-!
Regular expressions as Python's `re` matches them: alternatives are tried in
order, repetitions of a class take as much as they can or, lazily, as little,
and a search takes the first match at the first position that has one.
-/

set_option autoImplicit false

namespace VllmVerifier.Python

abbrev CodeClass := Nat → Bool

inductive Regex where
  | empty
  | one (allowed : CodeClass)
  | literal (text : Str)
  | greedy (low : Nat) (high : Option Nat) (allowed : CodeClass)
  | lazy (low : Nat) (allowed : CodeClass)
  | seq (first second : Regex)
  | alt (first second : Regex)
  | group (inner : Regex)
  | boundary (word : CodeClass)
  | notAfter (refused : CodeClass)

namespace Regex

/-- A match at a position: its text, group 1 if it took part, and what follows. -/
structure Found where
  text : Str
  group : Option Str
  rest : Str
deriving DecidableEq

/-- The code point before a position that is reached through this text. -/
def previous (before : Option Nat) (consumed : Str) : Option Nat := consumed.getLast?.or before

/-- How many code points of a class a repetition can take. -/
def reach (high : Option Nat) (allowed : CodeClass) (text : Str) : Nat :=
  match high with
  | none => (text.takeWhile allowed).length
  | some limit => min limit (text.takeWhile allowed).length

def cut (text : Str) (count : Nat) : Found := ⟨text.take count, none, text.drop count⟩

/-- Whether the code points around a position are a word character and none. -/
def atBoundary (word : CodeClass) (before : Option Nat) (text : Str) : Bool :=
  before.any word != text.head?.any word

/-- The matches at a position, in the order in which they are tried. -/
def found : Regex → Option Nat → Str → List Found
  | .empty, _, text => [⟨[], none, text⟩]
  | .one allowed, _, text =>
      match text with
      | [] => []
      | code :: rest => if allowed code then [⟨[code], none, rest⟩] else []
  | .literal expected, _, text =>
      if expected.isPrefixOf text then [cut text expected.length] else []
  | .greedy low high allowed, _, text =>
      (List.range' low (reach high allowed text + 1 - low)).reverse.map (cut text)
  | .lazy low allowed, _, text =>
      (List.range' low (reach none allowed text + 1 - low)).map (cut text)
  | .seq first second, before, text =>
      (found first before text).flatMap fun start =>
        (found second (previous before start.text) start.rest).map fun next =>
          ⟨start.text ++ next.text, start.group.or next.group, next.rest⟩
  | .alt first second, before, text => found first before text ++ found second before text
  | .group inner, before, text =>
      (found inner before text).map fun start => { start with group := some start.text }
  | .boundary word, before, text => if atBoundary word before text then [⟨[], none, text⟩] else []
  | .notAfter refused, before, text =>
      if before.any refused then [] else [⟨[], none, text⟩]

/-- `re.match(pattern, text)`. -/
def matchStart (pattern : Regex) (text : Str) : Option Found := (found pattern none text).head?

/-- `re.fullmatch(pattern, text)`. -/
def fullmatch (pattern : Regex) (text : Str) : Option Found :=
  (found pattern none text).find? fun candidate => candidate.rest.isEmpty

def searchFrom (pattern : Regex) : Option Nat → Str → Option Found
  | before, [] => (found pattern before []).head?
  | before, code :: rest =>
      ((found pattern before (code :: rest)).head?).or (searchFrom pattern (some code) rest)

/-- `re.search(pattern, text)`. -/
def search (pattern : Regex) (text : Str) : Option Found := searchFrom pattern none text

/-- The alternatives of a list of literals, in order. -/
def oneOf : List Str → Regex
  | [] => .alt .empty .empty
  | [text] => .literal text
  | text :: rest => .alt (.literal text) (oneOf rest)

/-- `(?:pattern)?`. -/
def optional (pattern : Regex) : Regex := .alt pattern .empty

/-- Patterns one after the other. -/
def all : List Regex → Regex
  | [] => .empty
  | [pattern] => pattern
  | pattern :: rest => .seq pattern (all rest)

/-! ## What a match is -/

theorem previous_append (before : Option Nat) (first second : Str) :
    previous before (first ++ second) = previous (previous before first) second := by
  unfold previous
  cases second using List.reverseRecOn with
  | nil => simp
  | append_singleton rest last => simp [← List.append_assoc]

/-- `Matches pattern before text group rest`: the pattern matches this text
between a code point and the rest. -/
inductive Matches : Regex → Option Nat → Str → Option Str → Str → Prop where
  | empty {before : Option Nat} {rest : Str} : Matches .empty before [] none rest
  | one {allowed : CodeClass} {before : Option Nat} {code : Nat} {rest : Str} :
      allowed code = true → Matches (.one allowed) before [code] none rest
  | literal {expected : Str} {before : Option Nat} {rest : Str} :
      Matches (.literal expected) before expected none rest
  | greedy {low : Nat} {high : Option Nat} {allowed : CodeClass} {before : Option Nat}
      {text rest : Str} : low ≤ text.length → (∀ limit ∈ high, text.length ≤ limit) →
      (∀ code ∈ text, allowed code = true) → Matches (.greedy low high allowed) before text none rest
  | lazy {low : Nat} {allowed : CodeClass} {before : Option Nat} {text rest : Str} :
      low ≤ text.length → (∀ code ∈ text, allowed code = true) →
      Matches (.lazy low allowed) before text none rest
  | seq {first second : Regex} {before : Option Nat} {start next rest : Str}
      {group later : Option Str} : Matches first before start group (next ++ rest) →
      Matches second (previous before start) next later rest →
      Matches (.seq first second) before (start ++ next) (group.or later) rest
  | first {first second : Regex} {before : Option Nat} {text rest : Str} {group : Option Str} :
      Matches first before text group rest → Matches (.alt first second) before text group rest
  | second {first second : Regex} {before : Option Nat} {text rest : Str} {group : Option Str} :
      Matches second before text group rest → Matches (.alt first second) before text group rest
  | group {inner : Regex} {before : Option Nat} {text rest : Str} {nested : Option Str} :
      Matches inner before text nested rest → Matches (.group inner) before text (some text) rest
  | boundary {word : CodeClass} {before : Option Nat} {rest : Str} :
      atBoundary word before rest = true → Matches (.boundary word) before [] none rest
  | notAfter {refused : CodeClass} {before : Option Nat} {rest : Str} :
      before.any refused = false → Matches (.notAfter refused) before [] none rest

section Inversion

variable {before : Option Nat} {text rest : Str} {group : Option Str}

@[simp] theorem matches_empty_iff :
    Matches .empty before text group rest ↔ text = [] ∧ group = none := by
  constructor
  · intro matched
    cases matched
    exact ⟨rfl, rfl⟩
  · intro given
    obtain ⟨rfl, rfl⟩ := given
    exact .empty

@[simp] theorem matches_one_iff {allowed : CodeClass} :
    Matches (.one allowed) before text group rest ↔
      (∃ code, allowed code = true ∧ text = [code]) ∧ group = none := by
  constructor
  · intro matched
    cases matched with
    | one accepted => exact ⟨⟨_, accepted, rfl⟩, rfl⟩
  · intro given
    obtain ⟨⟨code, accepted, rfl⟩, rfl⟩ := given
    exact .one accepted

@[simp] theorem matches_literal_iff {expected : Str} :
    Matches (.literal expected) before text group rest ↔ text = expected ∧ group = none := by
  constructor
  · intro matched
    cases matched
    exact ⟨rfl, rfl⟩
  · intro given
    obtain ⟨rfl, rfl⟩ := given
    exact .literal

@[simp] theorem matches_greedy_iff {low : Nat} {high : Option Nat} {allowed : CodeClass} :
    Matches (.greedy low high allowed) before text group rest ↔
      (low ≤ text.length ∧ (∀ limit ∈ high, text.length ≤ limit) ∧
        ∀ code ∈ text, allowed code = true) ∧ group = none := by
  constructor
  · intro matched
    cases matched with
    | greedy least most accepted => exact ⟨⟨least, most, accepted⟩, rfl⟩
  · intro given
    obtain ⟨⟨least, most, accepted⟩, rfl⟩ := given
    exact .greedy least most accepted

@[simp] theorem matches_lazy_iff {low : Nat} {allowed : CodeClass} :
    Matches (.lazy low allowed) before text group rest ↔
      (low ≤ text.length ∧ ∀ code ∈ text, allowed code = true) ∧ group = none := by
  constructor
  · intro matched
    cases matched with
    | lazy least accepted => exact ⟨⟨least, accepted⟩, rfl⟩
  · intro given
    obtain ⟨⟨least, accepted⟩, rfl⟩ := given
    exact .lazy least accepted

theorem matches_seq_iff {first second : Regex} :
    Matches (.seq first second) before text group rest ↔
      ∃ start next opened later, text = start ++ next ∧ group = opened.or later ∧
        Matches first before start opened (next ++ rest) ∧
          Matches second (previous before start) next later rest := by
  constructor
  · intro matched
    cases matched with
    | seq begun continued => exact ⟨_, _, _, _, rfl, rfl, begun, continued⟩
  · intro given
    obtain ⟨start, next, opened, later, rfl, rfl, begun, continued⟩ := given
    exact .seq begun continued

@[simp] theorem matches_alt_iff {first second : Regex} :
    Matches (.alt first second) before text group rest ↔
      Matches first before text group rest ∨ Matches second before text group rest := by
  constructor
  · intro matched
    cases matched with
    | first matched => exact .inl matched
    | second matched => exact .inr matched
  · rintro (matched | matched)
    · exact .first matched
    · exact .second matched

@[simp] theorem matches_group_iff {inner : Regex} :
    Matches (.group inner) before text group rest ↔
      (∃ nested, Matches inner before text nested rest) ∧ group = some text := by
  constructor
  · intro matched
    cases matched with
    | group matched => exact ⟨⟨_, matched⟩, rfl⟩
  · intro given
    obtain ⟨⟨nested, matched⟩, rfl⟩ := given
    exact .group matched

@[simp] theorem matches_boundary_iff {word : CodeClass} :
    Matches (.boundary word) before text group rest ↔
      atBoundary word before rest = true ∧ text = [] ∧ group = none := by
  constructor
  · intro matched
    cases matched with
    | boundary edge => exact ⟨edge, rfl, rfl⟩
  · intro given
    obtain ⟨edge, rfl, rfl⟩ := given
    exact .boundary edge

@[simp] theorem matches_notAfter_iff {refused : CodeClass} :
    Matches (.notAfter refused) before text group rest ↔
      before.any refused = false ∧ text = [] ∧ group = none := by
  constructor
  · intro matched
    cases matched with
    | notAfter free => exact ⟨free, rfl, rfl⟩
  · intro given
    obtain ⟨free, rfl, rfl⟩ := given
    exact .notAfter free

theorem matches_oneOf_iff {texts : List Str} (visible : texts ≠ []) :
    Matches (oneOf texts) before text group rest ↔ text ∈ texts ∧ group = none := by
  induction texts with
  | nil => exact absurd rfl visible
  | cons first others ih =>
      cases others with
      | nil => simp [oneOf]
      | cons second others =>
          simp only [oneOf, matches_alt_iff, matches_literal_iff, ih (List.cons_ne_nil _ _),
            ← or_and_right, ← List.mem_cons]

/-- The patterns of the groups of a pattern. -/
def groups : Regex → List Regex
  | .seq first second | .alt first second => groups first ++ groups second
  | .group inner => [inner]
  | _ => []

/-- A group is a part of the text that the pattern of the group matches. -/
theorem Matches.of_group {pattern : Regex} {value : Str}
    (matched : Matches pattern before text (some value) rest) :
    ∃ inner ∈ groups pattern, ∃ earlier nested later, Matches inner earlier value nested later ∧
      value <:+: text := by
  generalize grouped : some value = group at matched
  induction matched with
  | empty | one | literal | greedy | lazy | boundary | notAfter => cases grouped
  | @seq _ _ _ _ _ _ group later _ _ firstIH secondIH =>
      cases group with
      | none =>
          obtain ⟨inner, member, earlier, nested, after, found, inside⟩ := secondIH grouped
          exact ⟨inner, List.mem_append_right _ member, earlier, nested, after, found,
            List.infix_append_of_infix_right inside⟩
      | some _ =>
          obtain ⟨inner, member, earlier, nested, after, found, inside⟩ := firstIH grouped
          exact ⟨inner, List.mem_append_left _ member, earlier, nested, after, found,
            List.infix_append_of_infix_left inside⟩
  | first _ ih =>
      obtain ⟨inner, member, found⟩ := ih grouped
      exact ⟨inner, List.mem_append_left _ member, found⟩
  | second _ ih =>
      obtain ⟨inner, member, found⟩ := ih grouped
      exact ⟨inner, List.mem_append_right _ member, found⟩
  | group found =>
      cases grouped
      exact ⟨_, List.mem_singleton_self _, _, _, _, found, List.infix_rfl⟩

end Inversion

theorem forall_take_iff {allowed : CodeClass} {text : Str} {count : Nat}
    (inside : count ≤ text.length) :
    (∀ code ∈ text.take count, allowed code = true) ↔
      count ≤ (text.takeWhile allowed).length := by
  induction text generalizing count with
  | nil => simp_all
  | cons code rest ih =>
      cases count with
      | zero => simp
      | succ count =>
          have shorter : count ≤ rest.length := Nat.le_of_succ_le_succ inside
          rw [List.take_succ_cons, List.forall_mem_cons, ih shorter, List.takeWhile_cons]
          cases accepted : allowed code with
          | false => simp
          | true => simp

private theorem le_reach_iff {high : Option Nat} {allowed : CodeClass} {text : Str} {count : Nat} :
    count ≤ reach high allowed text ↔
      (∀ limit ∈ high, count ≤ limit) ∧ count ≤ (text.takeWhile allowed).length := by
  unfold reach
  cases high with
  | none => simp
  | some limit =>
      have bounds : (∀ bound ∈ some limit, count ≤ bound) ↔ count ≤ limit := by simp
      rw [bounds]
      exact Nat.le_min

private theorem cut_iff {low : Nat} {high : Option Nat} {allowed : CodeClass} {text : Str}
    {candidate : Found} :
    (∃ count, low ≤ count ∧ count ≤ reach high allowed text ∧ cut text count = candidate) ↔
      low ≤ candidate.text.length ∧ (∀ limit ∈ high, candidate.text.length ≤ limit) ∧
        (∀ code ∈ candidate.text, allowed code = true) ∧ candidate.group = none ∧
          text = candidate.text ++ candidate.rest := by
  constructor
  · intro given
    obtain ⟨count, least, most, rfl⟩ := given
    obtain ⟨limited, reached⟩ := le_reach_iff.mp most
    have inside : count ≤ text.length := reached.trans (List.takeWhile_sublist _).length_le
    have size : (text.take count).length = count := by rw [List.length_take, Nat.min_eq_left inside]
    refine ⟨size.symm ▸ least, ?_, (forall_take_iff inside).mpr reached, rfl,
      (List.take_append_drop _ _).symm⟩
    intro limit bounded
    exact size.symm ▸ limited limit bounded
  · obtain ⟨consumed, group, rest⟩ := candidate
    intro given
    obtain ⟨least, limited, allowedAll, rfl, rfl⟩ := given
    have inside : consumed.length ≤ (consumed ++ rest).length := by simp
    refine ⟨consumed.length, least, le_reach_iff.mpr ⟨limited, ?_⟩, by simp [cut]⟩
    rw [← forall_take_iff inside, List.take_left]
    exact allowedAll

/-- The matches that are tried are those that there are. -/
theorem mem_found_iff {pattern : Regex} {before : Option Nat} {text : Str} {candidate : Found} :
    candidate ∈ found pattern before text ↔
      Matches pattern before candidate.text candidate.group candidate.rest ∧
        text = candidate.text ++ candidate.rest := by
  induction pattern generalizing before text candidate with
  | empty =>
      obtain ⟨consumed, group, rest⟩ := candidate
      constructor
      · intro member
        cases List.mem_singleton.mp member
        exact ⟨.empty, rfl⟩
      · intro given
        obtain ⟨matched, rfl⟩ := given
        cases matched
        exact List.mem_singleton.mpr rfl
  | one allowed =>
      obtain ⟨consumed, group, rest⟩ := candidate
      unfold found
      constructor
      · intro member
        split at member
        · cases member
        · split at member
          · rename_i accepted
            cases List.mem_singleton.mp member
            exact ⟨.one accepted, rfl⟩
          · cases member
      · intro given
        obtain ⟨matched, rfl⟩ := given
        cases matched with
        | one accepted => simp [accepted]
  | literal expected =>
      obtain ⟨consumed, group, rest⟩ := candidate
      unfold found
      constructor
      · intro member
        split at member
        · rename_i starts
          obtain ⟨tail, rfl⟩ := List.isPrefixOf_iff_prefix.mp starts
          cases List.mem_singleton.mp member
          rw [List.take_left, List.drop_left]
          exact ⟨.literal, rfl⟩
        · cases member
      · intro given
        obtain ⟨matched, rfl⟩ := given
        cases matched
        simp [cut]
  | greedy low high allowed =>
      have counts : candidate ∈ found (.greedy low high allowed) before text ↔
          ∃ count, low ≤ count ∧ count ≤ reach high allowed text ∧ cut text count = candidate := by
        simp only [found, List.mem_map, List.mem_reverse, List.mem_range'_1, and_assoc]
        constructor
        · intro given
          obtain ⟨count, least, most, same⟩ := given
          exact ⟨count, least, by omega, same⟩
        · intro given
          obtain ⟨count, least, most, same⟩ := given
          exact ⟨count, least, by omega, same⟩
      rw [counts, cut_iff]
      constructor
      · intro given
        obtain ⟨least, limited, accepted, none, shape⟩ := given
        exact ⟨none ▸ .greedy least limited accepted, shape⟩
      · intro given
        obtain ⟨matched, shape⟩ := given
        generalize grouped : candidate.group = group at matched
        cases matched with
        | greedy least limited accepted => exact ⟨least, limited, accepted, rfl, shape⟩
  | lazy low allowed =>
      have counts : candidate ∈ found (.lazy low allowed) before text ↔
          ∃ count, low ≤ count ∧ count ≤ reach none allowed text ∧ cut text count = candidate := by
        simp only [found, List.mem_map, List.mem_range'_1, and_assoc]
        constructor
        · intro given
          obtain ⟨count, least, most, same⟩ := given
          exact ⟨count, least, by omega, same⟩
        · intro given
          obtain ⟨count, least, most, same⟩ := given
          exact ⟨count, least, by omega, same⟩
      rw [counts, cut_iff]
      constructor
      · intro given
        obtain ⟨least, _, accepted, none, shape⟩ := given
        exact ⟨none ▸ .lazy least accepted, shape⟩
      · intro given
        obtain ⟨matched, shape⟩ := given
        generalize grouped : candidate.group = group at matched
        cases matched with
        | lazy least accepted => exact ⟨least, by simp, accepted, rfl, shape⟩
  | seq first second firstIH secondIH =>
      simp only [found, List.mem_flatMap, List.mem_map, firstIH, secondIH]
      constructor
      · intro given
        obtain ⟨start, ⟨begun, rfl⟩, next, ⟨continued, shape⟩, rfl⟩ := given
        rw [shape] at begun
        exact ⟨.seq begun continued, by rw [shape, List.append_assoc]⟩
      · obtain ⟨consumed, group, rest⟩ := candidate
        intro given
        obtain ⟨matched, rfl⟩ := given
        cases matched with
        | @seq _ _ _ start next _ opened later begun continued =>
            exact ⟨⟨start, opened, next ++ rest⟩, ⟨begun, by simp⟩, ⟨next, later, rest⟩,
              ⟨continued, rfl⟩, rfl⟩
  | alt first second firstIH secondIH =>
      simp only [found, List.mem_append, firstIH, secondIH]
      constructor
      · rintro (⟨matched, shape⟩ | ⟨matched, shape⟩)
        · exact ⟨.first matched, shape⟩
        · exact ⟨.second matched, shape⟩
      · intro given
        obtain ⟨matched, shape⟩ := given
        cases matched with
        | first matched => exact .inl ⟨matched, shape⟩
        | second matched => exact .inr ⟨matched, shape⟩
  | group inner ih =>
      simp only [found, List.mem_map, ih]
      constructor
      · intro given
        obtain ⟨start, ⟨matched, shape⟩, rfl⟩ := given
        exact ⟨.group matched, shape⟩
      · obtain ⟨consumed, group, rest⟩ := candidate
        intro given
        obtain ⟨matched, shape⟩ := given
        dsimp only at matched shape
        cases matched with
        | @group _ _ _ _ nested matched =>
            exact ⟨⟨consumed, nested, rest⟩, ⟨matched, shape⟩, rfl⟩
  | boundary word =>
      obtain ⟨consumed, group, rest⟩ := candidate
      unfold found
      constructor
      · intro member
        split at member
        · rename_i edge
          cases List.mem_singleton.mp member
          exact ⟨.boundary edge, rfl⟩
        · cases member
      · intro given
        obtain ⟨matched, rfl⟩ := given
        cases matched with
        | boundary edge => simp [edge]
  | notAfter refused =>
      obtain ⟨consumed, group, rest⟩ := candidate
      unfold found
      constructor
      · intro member
        split at member
        · cases member
        · rename_i free
          cases List.mem_singleton.mp member
          exact ⟨.notAfter (Bool.eq_false_iff.mpr free), rfl⟩
      · intro given
        obtain ⟨matched, rfl⟩ := given
        cases matched with
        | notAfter free => simp [free]

/-! ## Which match comes first -/

/-- The first match of a sequence is the first of what follows the first start
that anything follows. -/
theorem head_seq {first second : Regex} {before : Option Nat} {text : Str} {candidate : Found}
    (chosen : (found (.seq first second) before text).head? = some candidate) :
    ∃ earlier start later next, found first before text = earlier ++ start :: later ∧
      (∀ failed ∈ earlier, found second (previous before failed.text) failed.rest = []) ∧
      (found second (previous before start.text) start.rest).head? = some next ∧
        candidate = ⟨start.text ++ next.text, start.group.or next.group, next.rest⟩ := by
  rw [found, List.head?_flatMap, List.findSome?_eq_some_iff] at chosen
  obtain ⟨earlier, start, later, split, taken, skipped⟩ := chosen
  rw [List.head?_map, Option.map_eq_some_iff] at taken
  obtain ⟨next, followed, rfl⟩ := taken
  refine ⟨earlier, start, later, next, split, fun failed member => ?_, followed, rfl⟩
  simpa using skipped failed member

/-- What follows a part without groups is matched first where it begins. -/
theorem head_after {first second : Regex} {before : Option Nat} {text value : Str}
    {candidate : Found}
    (chosen : (found (.seq first second) before text).head? = some candidate)
    (plain : groups first = []) (grouped : candidate.group = some value) :
    ∃ consumed rest next, text = consumed ++ rest ∧
      (found second (previous before consumed) rest).head? = some next ∧
        next.group = some value := by
  obtain ⟨earlier, start, later, next, split, _, followed, rfl⟩ := head_seq chosen
  have member : start ∈ found first before text := by
    rw [split]
    exact List.mem_append_right _ List.mem_cons_self
  obtain ⟨matched, shape⟩ := mem_found_iff.mp member
  refine ⟨start.text, start.rest, next, shape, followed, ?_⟩
  cases captured : start.group with
  | none =>
      rw [captured] at grouped
      exact grouped
  | some inner =>
      rw [captured] at matched
      obtain ⟨_, present, _⟩ := matched.of_group
      rw [plain] at present
      cases present

theorem found_greedy (allowed : CodeClass) (before : Option Nat) (text : Str) :
    ∃ later, found (.greedy 0 none allowed) before text =
      ⟨text.takeWhile allowed, none, text.dropWhile allowed⟩ :: later := by
  have longest : cut text (text.takeWhile allowed).length =
      ⟨text.takeWhile allowed, none, text.dropWhile allowed⟩ := by
    have split := @List.takeWhile_append_dropWhile _ allowed text
    generalize text.takeWhile allowed = run at split ⊢
    generalize text.dropWhile allowed = rest at split ⊢
    rw [← split, cut, List.take_left, List.drop_left]
  refine ⟨(List.range' 0 (text.takeWhile allowed).length).reverse.map (cut text), ?_⟩
  rw [found, reach, Nat.sub_zero, List.range'_1_concat, List.reverse_append, List.reverse_singleton,
    List.singleton_append, List.map_cons, Nat.zero_add, longest]

/-- Where the rest of a pattern matches after the whole run, the run is taken. -/
theorem head_greedy {allowed : CodeClass} {second : Regex} {before : Option Nat} {text : Str}
    {candidate : Found}
    (chosen : (found (.seq (.greedy 0 none allowed) second) before text).head? = some candidate)
    (present : found second (previous before (text.takeWhile allowed)) (text.dropWhile allowed) ≠
      []) :
    ∃ next ∈ found second (previous before (text.takeWhile allowed)) (text.dropWhile allowed),
      candidate.group = next.group := by
  obtain ⟨later, shape⟩ := found_greedy allowed before text
  obtain ⟨next, others, found⟩ := List.exists_cons_of_ne_nil present
  refine ⟨next, by rw [found]; exact List.mem_cons_self, ?_⟩
  rw [Regex.found, shape, List.flatMap_cons, found, List.map_cons, List.cons_append,
    List.head?_cons] at chosen
  cases chosen
  rfl

private theorem length_cut {text : Str} {low count : Nat} {allowed : CodeClass}
    (member : count ∈ List.range' low (reach none allowed text + 1 - low)) :
    (cut text count).text.length = count := by
  have most : count ≤ reach none allowed text := by
    have bounds := List.mem_range'_1.mp member
    omega
  have inside := (le_reach_iff.mp most).2.trans (List.takeWhile_sublist _).length_le
  simp [cut, Nat.min_eq_left inside]

private theorem lazy_ordered (low : Nat) (allowed : CodeClass) (before : Option Nat) (text : Str) :
    (found (.group (.lazy low allowed)) before text).Pairwise
      fun first last => first.text.length < last.text.length := by
  rw [found, List.pairwise_map, found, List.pairwise_map]
  refine List.Pairwise.imp_of_mem ?_ List.pairwise_lt_range'
  intro first last firstMember lastMember less
  dsimp only
  rw [length_cut firstMember, length_cut lastMember]
  exact less

/-- A lazy group is as short as what follows it allows. -/
theorem head_lazy {low : Nat} {allowed : CodeClass} {second : Regex} {before : Option Nat}
    {text : Str} {candidate : Found}
    (chosen : (found (.seq (.group (.lazy low allowed)) second) before text).head? =
      some candidate) :
    ∃ start rest, candidate.group = some start ∧ text = start ++ rest ∧ low ≤ start.length ∧
      (∀ code ∈ start, allowed code = true) ∧ found second (previous before start) rest ≠ [] ∧
        ∀ other later, text = other ++ later → low ≤ other.length →
          (∀ code ∈ other, allowed code = true) → found second (previous before other) later ≠ [] →
            start.length ≤ other.length := by
  obtain ⟨earlier, start, later, next, split, failed, followed, rfl⟩ := head_seq chosen
  have ordered := lazy_ordered low allowed before text
  have startMember : start ∈ found (.group (.lazy low allowed)) before text := by
    rw [split]
    exact List.mem_append_right _ List.mem_cons_self
  obtain ⟨matched, startShape⟩ := mem_found_iff.mp startMember
  obtain ⟨⟨_, inner⟩, grouped⟩ := matches_group_iff.mp matched
  obtain ⟨⟨startLeast, startAccepted⟩, _⟩ := matches_lazy_iff.mp inner
  refine ⟨start.text, start.rest, by rw [grouped]; rfl, startShape, startLeast, startAccepted,
    List.ne_nil_of_mem (List.mem_of_mem_head? followed),
    fun other rest shape least accepted present => ?_⟩
  have member : (⟨other, some other, rest⟩ : Found) ∈ found (.group (.lazy low allowed)) before text :=
    mem_found_iff.mpr ⟨.group (.lazy least accepted), shape⟩
  rw [split] at member ordered
  obtain ⟨_, tail, _⟩ := List.pairwise_append.mp ordered
  rcases List.mem_append.mp member with early | rest
  · exact absurd (failed _ early) present
  · rcases List.mem_cons.mp rest with same | late
    · rw [← same]
    · exact Nat.le_of_lt ((List.pairwise_cons.mp tail).1 _ late)

theorem found_seq_ne_nil {first second : Regex} {before : Option Nat} {text : Str} {start : Found}
    (member : start ∈ found first before text)
    (present : found second (previous before start.text) start.rest ≠ []) :
    found (.seq first second) before text ≠ [] := by
  obtain ⟨next, followed⟩ := List.exists_mem_of_ne_nil _ present
  exact List.ne_nil_of_mem (List.mem_flatMap.mpr ⟨start, member, List.mem_map_of_mem followed⟩)

/-! ## Searches -/

/-- A match of the pattern somewhere in the text. -/
def Occurs (pattern : Regex) (text : Str) : Prop :=
  ∃ before rest, text = before ++ rest ∧ found pattern before.getLast? rest ≠ []

private theorem searchFrom_some {pattern : Regex} {before : Option Nat} {text : Str}
    {candidate : Found} (chosen : searchFrom pattern before text = some candidate) :
    ∃ skipped, text = skipped ++ (candidate.text ++ candidate.rest) ∧
      (found pattern (previous before skipped) (candidate.text ++ candidate.rest)).head? =
        some candidate ∧
      ∀ early late, skipped = early ++ late → late ≠ [] →
        found pattern (previous before early) (late ++ (candidate.text ++ candidate.rest)) = [] := by
  induction text generalizing before with
  | nil =>
      unfold searchFrom at chosen
      obtain ⟨_, shape⟩ := mem_found_iff.mp (List.mem_of_mem_head? chosen)
      rw [← shape]
      exact ⟨[], rfl, chosen, fun early late split visible =>
        absurd (List.append_eq_nil_iff.mp split.symm).2 visible⟩
  | cons code rest ih =>
      unfold searchFrom at chosen
      rcases Option.or_eq_some_iff.mp chosen with here | ⟨absent, later⟩
      · obtain ⟨_, shape⟩ := mem_found_iff.mp (List.mem_of_mem_head? here)
        rw [← shape]
        exact ⟨[], rfl, here, fun early late split visible =>
          absurd (List.append_eq_nil_iff.mp split.symm).2 visible⟩
      · obtain ⟨skipped, shape, first, none⟩ := ih later
        refine ⟨code :: skipped, by rw [shape]; rfl, ?_, fun early late split visible => ?_⟩
        · rw [← List.singleton_append, previous_append]
          exact first
        · cases early with
          | nil =>
              rw [List.nil_append] at split
              rw [← split, List.cons_append, ← shape]
              exact List.head?_eq_none_iff.mp absent
          | cons head early =>
              obtain ⟨rfl, tails⟩ := List.cons.inj split
              rw [← List.singleton_append, previous_append]
              exact none early late tails visible

private theorem searchFrom_none {pattern : Regex} {before : Option Nat} {text : Str}
    (absent : searchFrom pattern before text = none) {early late : Str}
    (split : text = early ++ late) : found pattern (previous before early) late = [] := by
  induction text generalizing before early with
  | nil =>
      obtain ⟨rfl, rfl⟩ := List.append_eq_nil_iff.mp split.symm
      exact List.head?_eq_none_iff.mp absent
  | cons code rest ih =>
      unfold searchFrom at absent
      obtain ⟨here, later⟩ := Option.or_eq_none_iff.mp absent
      cases early with
      | nil =>
          rw [List.nil_append] at split
          rw [← split]
          exact List.head?_eq_none_iff.mp here
      | cons head early =>
          obtain ⟨rfl, tails⟩ := List.cons.inj split
          rw [← List.singleton_append, previous_append]
          exact ih later tails

private theorem previous_none (text : Str) : previous none text = text.getLast? := by
  simp [previous]

/-- A search returns the first match at the first position that has one. -/
theorem search_some {pattern : Regex} {text : Str} {candidate : Found}
    (chosen : search pattern text = some candidate) :
    ∃ skipped, text = skipped ++ (candidate.text ++ candidate.rest) ∧
      (found pattern skipped.getLast? (candidate.text ++ candidate.rest)).head? = some candidate ∧
      ∀ early late, skipped = early ++ late → late ≠ [] →
        found pattern early.getLast? (late ++ (candidate.text ++ candidate.rest)) = [] := by
  obtain ⟨skipped, shape, first, none⟩ := searchFrom_some chosen
  simp only [previous_none] at first none
  exact ⟨skipped, shape, first, none⟩

theorem search_matches {pattern : Regex} {text : Str} {candidate : Found}
    (chosen : search pattern text = some candidate) :
    ∃ skipped, text = skipped ++ (candidate.text ++ candidate.rest) ∧
      Matches pattern skipped.getLast? candidate.text candidate.group candidate.rest := by
  obtain ⟨skipped, shape, first, _⟩ := search_some chosen
  exact ⟨skipped, shape, (mem_found_iff.mp (List.mem_of_mem_head? first)).1⟩

theorem search_eq_none_iff {pattern : Regex} {text : Str} :
    search pattern text = none ↔ ¬ Occurs pattern text := by
  constructor
  · intro absent given
    obtain ⟨before, rest, split, present⟩ := given
    have nothing := searchFrom_none absent split
    rw [previous_none] at nothing
    exact present nothing
  · intro nowhere
    cases chosen : search pattern text with
    | none => rfl
    | some candidate =>
        obtain ⟨skipped, shape, first, _⟩ := search_some chosen
        refine absurd ⟨skipped, _, shape, fun nothing => ?_⟩ nowhere
        rw [nothing] at first
        cases first

/-- No match begins before the one that a search returns. -/
theorem search_leftmost {pattern : Regex} {text : Str} {candidate : Found}
    (chosen : search pattern text = some candidate) :
    ∃ skipped, text = skipped ++ (candidate.text ++ candidate.rest) ∧
      (found pattern skipped.getLast? (candidate.text ++ candidate.rest)).head? = some candidate ∧
      ∀ before rest, text = before ++ rest → found pattern before.getLast? rest ≠ [] →
        skipped.length ≤ before.length := by
  obtain ⟨skipped, shape, first, none⟩ := search_some chosen
  refine ⟨skipped, shape, first, fun before rest split present => ?_⟩
  by_contra longer
  rw [not_le] at longer
  rw [shape] at split
  obtain ⟨late, rfl, rfl⟩ : ∃ late, skipped = before ++ late ∧
      rest = late ++ (candidate.text ++ candidate.rest) := by
    rcases List.append_eq_append_iff.mp split with ⟨gap, rfl, _⟩ | ⟨gap, rfl, same⟩
    · rw [List.length_append] at longer
      omega
    · exact ⟨gap, rfl, same⟩
  refine present (none before late rfl ?_)
  intro same
  subst same
  simp at longer

/-- A search whose matches give places of one kind, of which the text has at most
one, reads the value of that place. -/
theorem search_group_iff {pattern : Regex} {text value : Str} {Place : Str → Str → Str → Prop}
    (finds : ∀ candidate, search pattern text = some candidate →
      ∃ before value after, candidate.group = some value ∧ Place before value after)
    (present : ∀ {before value after}, Place before value after → Occurs pattern text)
    (unique : ∀ {before value after earlier other later}, Place before value after →
      Place earlier other later → value = other) :
    (search pattern text).bind Found.group = some value ↔
      ∃ before after, Place before value after := by
  constructor
  · intro found
    obtain ⟨candidate, chosen, grouped⟩ := Option.bind_eq_some_iff.mp found
    obtain ⟨before, other, after, same, place⟩ := finds candidate chosen
    rw [grouped] at same
    cases same
    exact ⟨before, after, place⟩
  · intro written
    obtain ⟨before, after, place⟩ := written
    cases chosen : search pattern text with
    | none => exact absurd (present place) (search_eq_none_iff.mp chosen)
    | some candidate =>
        obtain ⟨earlier, other, later, grouped, second⟩ := finds candidate chosen
        obtain rfl := unique place second
        exact grouped

theorem fullmatch_some {pattern : Regex} {text : Str} {candidate : Found}
    (chosen : fullmatch pattern text = some candidate) :
    candidate.text = text ∧ Matches pattern none text candidate.group [] := by
  have finished := List.find?_some chosen
  obtain ⟨matched, shape⟩ := mem_found_iff.mp (List.mem_of_find?_eq_some chosen)
  rw [List.isEmpty_iff.mp finished, List.append_nil] at shape
  rw [List.isEmpty_iff.mp finished] at matched
  exact ⟨shape.symm, shape ▸ matched⟩

end Regex

end VllmVerifier.Python
