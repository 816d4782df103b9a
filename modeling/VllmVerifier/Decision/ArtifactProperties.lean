import VllmVerifier.Decision.Artifact
import VllmVerifier.Python.Result

/-!
What a verified artifact tree holds. Two enumerations meet: the manifest's names
and the walk below `root`. A file that the walk leaves out is in neither.
-/

set_option autoImplicit false

namespace VllmVerifier.Decision.Artifact

open Python Json

variable {decode : Bytes → Except PyException Str} {pinned : Str} {rootParts : List Str}
  {tree : Tree}

/-! ## Names and paths -/

theorem components_asPosix {path : Path} (nonempty : path ≠ [])
    (names : ∀ name ∈ path, IsName name) : components (asPosix path) = path := by
  unfold components asPosix
  rw [List.splitOn_intercalate _ (fun name member => (names name member).2.1) nonempty]
  refine List.filter_eq_self.mpr fun name member => ?_
  obtain ⟨some, _, single, _⟩ := names name member
  simp [some, single]

theorem asPosix_injective {first second : Path} (nonempty : first ≠ [])
    (names : ∀ name ∈ first, IsName name) (others : second ≠ [])
    (otherNames : ∀ name ∈ second, IsName name) (same : asPosix first = asPosix second) :
    first = second := by
  rw [← components_asPosix nonempty names, same, components_asPosix others otherNames]

/-! ## What is accepted -/

/-- The manifest records the content under this name. -/
def Records (item : Str × Json) (content : Bytes) : Prop :=
  ∃ size hash, subscript item.2 (lit "bytes") = .ok size ∧ equalsSize content.length size = true ∧
    subscript item.2 (lit "sha256") = .ok hash ∧
      equalsText (Sha256.hexdigest content) hash = true

theorem checkListed_ok_iff {item : Str × Json} : checkListed tree item = .ok () ↔
    unsafeName item.1 = false ∧ ∃ content, tree.stat (components item.1) = some (content, false) ∧
      Records item content := by
  unfold checkListed
  constructor
  · intro checked
    split at checked
    · cases checked
    rename_i safe
    refine ⟨by simpa using safe, ?_⟩
    split at checked
    · rename_i content found
      obtain ⟨size, sized, checked⟩ := except_bind_ok checked
      split at checked
      · rename_i sameSize
        obtain ⟨hash, hashed, checked⟩ := except_bind_ok checked
        split at checked
        · rename_i sameHash
          exact ⟨content, found, size, hash, sized, sameSize, hashed, sameHash⟩
        · cases checked
      · cases checked
    · cases checked
    · cases checked
  · intro given
    obtain ⟨safe, content, found, size, hash, sized, sameSize, hashed, sameHash⟩ := given
    rw [if_neg (by simp [safe]), found]
    dsimp only
    rw [sized, except_ok_bind, if_pos sameSize, hashed, except_ok_bind, if_pos sameHash]

theorem sameSet_iff {first second : List Str} :
    sameSet first second = true ↔ ∀ name, name ∈ first ↔ name ∈ second := by
  simp only [sameSet, Bool.and_eq_true, List.all_eq_true, decide_eq_true_eq]
  exact ⟨fun known name => ⟨known.1 name, known.2 name⟩,
    fun known => ⟨fun name => (known name).mp, fun name => (known name).mpr⟩⟩

/-- The manifest that the tree holds has the pinned digest and lists these files. -/
def Pinned (decode : Bytes → Except PyException Str) (pinned : Str) (tree : Tree)
    (listed : List (Str × Json)) : Prop :=
  ∃ content linked text manifest, tree.stat [MANIFEST] = some (content, linked) ∧
    Sha256.hexdigest content = pinned ∧ decode content = .ok text ∧ parse text = .ok manifest ∧
      files manifest = .ok listed

/-- The listed files are there, as recorded, and they are those of the walk. -/
structure Approved (decode : Bytes → Except PyException Str) (pinned : Str)
    (rootParts : List Str) (tree : Tree) (listed : List (Str × Json)) : Prop where
  manifest : Pinned decode pinned tree listed
  each : ∀ item ∈ listed, checkListed tree item = .ok ()
  walked : ∀ name, name ∈ actual rootParts tree ↔ name ∈ listed.map Prod.fst

theorem verifyArtifact_ok_iff : verifyArtifact decode pinned rootParts tree = .ok () ↔
    ∃ listed, Approved decode pinned rootParts tree listed := by
  unfold verifyArtifact Tree.read
  constructor
  · intro verified
    obtain ⟨content, opened, verified⟩ := except_bind_ok verified
    split at opened
    · rename_i found linked stat
      cases opened
      split at verified
      · cases verified
      rename_i digest
      obtain ⟨text, decoded, verified⟩ := except_bind_ok verified
      obtain ⟨manifest, parsed, verified⟩ := except_bind_ok verified
      obtain ⟨listed, got, verified⟩ := except_bind_ok verified
      obtain ⟨units, checked, verified⟩ := except_bind_ok verified
      split at verified
      · rename_i same
        refine ⟨listed, ⟨_, _, _, _, stat, not_not.mp digest, decoded, parsed, got⟩, ?_,
          sameSet_iff.mp same⟩
        intro item member
        obtain ⟨_, _, known⟩ := forall₂_mem_left (mapM_ok_iff.mp checked) member
        exact known
      · cases verified
    · cases opened
  · intro given
    obtain ⟨listed, ⟨content, linked, text, manifest, stat, digest, decoded, parsed, got⟩, each,
      walked⟩ := given
    rw [stat]
    dsimp only
    rw [except_ok_bind, if_neg (not_not.mpr digest), decoded, except_ok_bind, parsed,
      except_ok_bind, got, except_ok_bind, mapM_total (g := fun _ => ()) each, except_ok_bind,
      if_pos (sameSet_iff.mpr walked)]

/-! ## What is beneath the root -/

/-- A file that the walk leaves out: it is reached through a directory that the walk
does not enter, or a part of its path is a cache directory, or it has the manifest's
name. -/
def Hidden (rootParts : List Str) (tree : Tree) (path : Path) : Prop :=
  tree.nodes.get? path = none ∨ lit "__pycache__" ∈ rootParts ++ path ∨
    path.getLast? = some MANIFEST

/-- No file but the manifest itself is hidden from the walk. -/
def NothingHidden (rootParts : List Str) (tree : Tree) : Prop :=
  ∀ path content linked, tree.stat path = some (content, linked) → path ≠ [MANIFEST] →
    ¬ Hidden rootParts tree path

/-- The manifest is the pinned one, every other file is a listed one that is no link
and has the recorded size and digest, and every listed file is there. -/
def Verified (decode : Bytes → Except PyException Str) (pinned : Str) (tree : Tree) : Prop :=
  ∃ listed, Pinned decode pinned tree listed ∧
    (∀ path content linked, tree.stat path = some (content, linked) → path ≠ [MANIFEST] →
      tree.nodes.get? path = some (.file content) ∧
        ∃ item ∈ listed, item.1 = asPosix path ∧ Records item content) ∧
    ∀ item ∈ listed, ∃ path content, item.1 = asPosix path ∧
      tree.nodes.get? path = some (.file content)

theorem Pinned.unique {first second : List (Str × Json)} (left : Pinned decode pinned tree first)
    (right : Pinned decode pinned tree second) : first = second := by
  obtain ⟨content, linked, text, manifest, stat, _, decoded, parsed, got⟩ := left
  obtain ⟨other, _, otherText, otherManifest, otherStat, _, otherDecoded, otherParsed, otherGot⟩ :=
    right
  cases stat.symm.trans otherStat
  cases decoded.symm.trans otherDecoded
  cases parsed.symm.trans otherParsed
  exact Except.ok.inj (got.symm.trans otherGot)

theorem mem_actual {name : Str} : name ∈ actual rootParts tree ↔
    ∃ path node, tree.nodes.get? path = some node ∧ counts rootParts (path, node) = true ∧
      asPosix path = name := by
  simp only [actual, List.mem_map, List.mem_filter]
  constructor
  · intro given
    obtain ⟨⟨path, node⟩, ⟨member, counted⟩, rfl⟩ := given
    exact ⟨path, node, Dict.get?_eq_some_iff.mpr member, counted, rfl⟩
  · intro given
    obtain ⟨path, node, found, counted, rfl⟩ := given
    exact ⟨(path, node), ⟨Dict.get?_eq_some_iff.mp found, counted⟩, rfl⟩

theorem Tree.names {path : Path} {node : Node} (found : tree.nodes.get? path = some node) :
    path ≠ [] ∧ ∀ name ∈ path, IsName name :=
  tree.named path (Dict.mem_keys_of_mem (Dict.get?_eq_some_iff.mp found))

theorem Tree.stat_node {path : Path} {node : Node} (found : tree.nodes.get? path = some node) :
    tree.stat path = node.stat := by
  rw [Tree.stat, found]

theorem Node.stat_file {node : Node} {content : Bytes}
    (regular : node.stat = some (content, false)) : node = .file content := by
  cases node with
  | file other =>
      cases regular
      rfl
  | directory => cases regular
  | link target =>
      cases target with
      | file | directory | dangling => cases regular

theorem Approved.listed_file {listed : List (Str × Json)}
    (approved : Approved decode pinned rootParts tree listed) {item : Str × Json}
    (member : item ∈ listed) : ∃ path content, item.1 = asPosix path ∧
      tree.nodes.get? path = some (.file content) ∧ Records item content := by
  have named := (approved.walked item.1).mpr (List.mem_map_of_mem member)
  obtain ⟨path, node, found, _, posix⟩ := mem_actual.mp named
  obtain ⟨nonempty, names⟩ := Tree.names found
  obtain ⟨_, content, stat, records⟩ := checkListed_ok_iff.mp (approved.each item member)
  rw [← posix, components_asPosix nonempty names, Tree.stat_node found] at stat
  cases Node.stat_file stat
  exact ⟨path, content, posix.symm, found, records⟩

theorem Approved.verified {listed : List (Str × Json)}
    (approved : Approved decode pinned rootParts tree listed)
    (nothing : NothingHidden rootParts tree) : Verified decode pinned tree := by
  refine ⟨listed, approved.manifest, ?_, ?_⟩
  · intro path content linked stat other
    have visible := nothing path content linked stat other
    unfold Hidden at visible
    push Not at visible
    obtain ⟨present, cache, manifest⟩ := visible
    obtain ⟨node, found⟩ := Option.ne_none_iff_exists'.mp present
    have seen : node.stat = some (content, linked) := (Tree.stat_node found).symm.trans stat
    have counted : counts rootParts (path, node) = true := by
      simp [counts, seen, List.mem_append] at cache ⊢
      exact ⟨cache, manifest⟩
    obtain ⟨item, member, named⟩ := List.mem_map.mp
      ((approved.walked (asPosix path)).mp (mem_actual.mpr ⟨path, node, found, counted, rfl⟩))
    obtain ⟨own, recorded, posix, ownFound, records⟩ := approved.listed_file member
    obtain ⟨nonempty, names⟩ := Tree.names found
    obtain ⟨ownNonempty, ownNames⟩ := Tree.names ownFound
    cases asPosix_injective nonempty names ownNonempty ownNames (named.symm.trans posix)
    cases found.symm.trans ownFound
    cases seen
    exact ⟨ownFound, item, member, posix, records⟩
  · intro item member
    obtain ⟨path, content, posix, found, _⟩ := approved.listed_file member
    exact ⟨path, content, posix, found⟩

theorem Approved.nothing_hidden {listed : List (Str × Json)}
    (approved : Approved decode pinned rootParts tree listed)
    (verified : Verified decode pinned tree) : NothingHidden rootParts tree := by
  obtain ⟨others, manifest, each, _⟩ := verified
  cases approved.manifest.unique manifest
  intro path content linked stat other
  obtain ⟨found, item, member, posix, _⟩ := each path content linked stat other
  have walked := (approved.walked item.1).mpr (List.mem_map_of_mem member)
  obtain ⟨own, node, ownFound, counted, same⟩ := mem_actual.mp walked
  obtain ⟨nonempty, names⟩ := Tree.names found
  obtain ⟨ownNonempty, ownNames⟩ := Tree.names ownFound
  cases asPosix_injective ownNonempty ownNames nonempty names (same.trans posix)
  simp only [counts, Bool.and_eq_true, Bool.not_eq_true', decide_eq_false_iff_not] at counted
  rintro (absent | cache | last)
  · rw [found] at absent
    cases absent
  · exact counted.1.2 cache
  · exact counted.2 last

/-- A tree that `verify_artifact` accepts is verified in whole if and only if the
walk hides none of its files. -/
theorem artifact_verified_iff (decode : Bytes → Except PyException Str) (pinned : Str)
    (rootParts : List Str) (tree : Tree) :
    (verifyArtifact decode pinned rootParts tree = .ok () → Verified decode pinned tree) ↔
      ∀ listed, Approved decode pinned rootParts tree listed → NothingHidden rootParts tree := by
  constructor
  · intro holds listed approved
    exact approved.nothing_hidden (holds (verifyArtifact_ok_iff.mpr ⟨listed, approved⟩))
  · intro visible accepted
    obtain ⟨listed, approved⟩ := verifyArtifact_ok_iff.mp accepted
    exact approved.verified (visible listed approved)

/-! A package with an empty module, and compiled code planted beside it. -/

def sampleManifest : Bytes :=
  lit "\x7b\"files\": \x7b\"__init__.py\": \x7b\"bytes\": 0, \"sha256\": \"" ++
    lit "e3b0c44298fc1c149afbf4c8996fb92427ae41e4649b934ca495991b7852b855" ++ lit "\"\x7d\x7d\x7d"

def plantedPath : Path := [lit "__pycache__", lit "__init__.cpython-312.pyc"]

def plantedNodes : Dict Path Node :=
  ⟨[([MANIFEST], .file sampleManifest), ([lit "__init__.py"], .file []),
    ([lit "__pycache__"], .directory), (plantedPath, .file [0])], by decide +kernel⟩

def plantedTree : Tree where
  nodes := plantedNodes
  named := by
    have named : ∀ path ∈ plantedNodes.keys, path ≠ [] ∧ ∀ name ∈ path, name ≠ [] ∧
        ord '/' ∉ name ∧ name ≠ lit "." ∧ name ≠ lit ".." := by decide +kernel
    exact named
  rooted := by
    intro front back member outer inner
    have short : ∀ path ∈ plantedNodes.keys, path.length ≤ 1 ∨ path = plantedPath := by
      decide +kernel
    have lengths := List.length_pos_iff.mpr outer
    have others := List.length_pos_iff.mpr inner
    rcases short _ member with single | planted
    · rw [List.length_append] at single
      omega
    · have front' : front = [lit "__pycache__"] := by
        rcases List.append_eq_cons_iff.mp planted with ⟨rfl, _⟩ | ⟨rest, rfl, tail⟩
        · exact absurd rfl outer
        · have size := congrArg List.length tail
          simp only [List.length_append, List.length_singleton] at size
          rw [List.length_eq_zero_iff.mp (show rest.length = 0 by omega)]
      rw [front']
      rfl

/-- The planted file is accepted, and nothing has recorded it. -/
theorem artifact_verified_planted :
    verifyArtifact .ok (Sha256.hexdigest sampleManifest) [lit "native"] plantedTree = .ok () ∧
      ¬ Verified .ok (Sha256.hexdigest sampleManifest) plantedTree := by
  have accepted : (verifyArtifact .ok (Sha256.hexdigest sampleManifest) [lit "native"]
      plantedTree).toBool = true := by decide +kernel
  obtain ⟨_, returned⟩ := exists_ok_of_toBool accepted
  refine ⟨returned, fun verified => ?_⟩
  obtain ⟨listed, approved⟩ := verifyArtifact_ok_iff.mp returned
  have visible := approved.nothing_hidden verified plantedPath [0] false rfl (by decide)
  exact visible (.inr (.inl (by decide)))

end VllmVerifier.Decision.Artifact
