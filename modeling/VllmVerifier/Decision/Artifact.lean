import VllmVerifier.Json.Loads
import VllmVerifier.Models
import VllmVerifier.Python.Sha256

/-!
`decision/artifact.py`: `verify_artifact` over the file tree below `root`. Paths
are the components below it. How `read_text` decodes is a parameter.
-/

set_option autoImplicit false

namespace VllmVerifier.Decision.Artifact

open Python Json

abbrev Bytes := List Nat

abbrev Path := List Str

/-! ## File trees -/

/-- What a symbolic link resolves to. Of a directory this is the files that can
be reached beneath it, each with whether its last component is a link. A directory
that can be entered but not listed stands here as a linked one: the walk does not
enter it either. -/
inductive Target where
  | file (content : Bytes)
  | directory (view : Path → Option (Bytes × Bool))
  | dangling

inductive Node where
  | file (content : Bytes)
  | directory
  | link (target : Target)

/-- A file name, as a directory can hold it. -/
def IsName (name : Str) : Prop :=
  name ≠ [] ∧ ord '/' ∉ name ∧ name ≠ lit "." ∧ name ≠ lit ".."

/-- The entries below `root`, without those of directories that the walk does not
enter. What lies below an entry lies in a directory. -/
structure Tree where
  nodes : Dict Path Node
  named : ∀ path ∈ nodes.keys, path ≠ [] ∧ ∀ name ∈ path, IsName name
  rooted : ∀ front back, front ++ back ∈ nodes.keys → front ≠ [] → back ≠ [] →
    nodes.get? front = some .directory

def Node.stat : Node → Option (Bytes × Bool)
  | .file content => some (content, false)
  | .link (.file content) => some (content, true)
  | .directory | .link (.directory _) | .link .dangling => none

namespace Tree

/-- A file that is reached through a directory that the walk does not enter. -/
def beneathLink (tree : Tree) (path : Path) : Option (Bytes × Bool) :=
  (List.range path.length).findSome? fun depth =>
    match tree.nodes.get? (path.take depth) with
    | some (.link (.directory view)) => view (path.drop depth)
    | _ => none

def stat (tree : Tree) (path : Path) : Option (Bytes × Bool) :=
  match tree.nodes.get? path with
  | some node => node.stat
  | none => tree.beneathLink path

/-- `path.open("rb")` and what is read from it. -/
def read (tree : Tree) (path : Path) : Except PyException Bytes :=
  match tree.stat path with
  | some (content, _) => .ok content
  | none => .error (.other "OSError")

end Tree

/-! ## Names -/

/-- The components of `PurePosixPath(name)`, when it is relative. -/
def components (name : Str) : Path :=
  (name.splitOn (ord '/')).filter fun part => decide (part ≠ [] ∧ part ≠ lit ".")

/-- `as_posix` of a relative path. -/
def asPosix (path : Path) : Str := [ord '/'].intercalate path

def isAbsolute (name : Str) : Bool := Str.startswith name (lit "/")

def unsafeName (name : Str) : Bool :=
  isAbsolute name || decide (lit ".." ∈ components name) || decide (ord '\\' ∈ name)

/-! ## The manifest -/

def MANIFEST : Str := lit "MANIFEST.json"

def MANIFEST_SHA256 : Str :=
  lit "c1bf07ab1c4c3fa1f819256d3de858d1ed87869bdfa663553280d7e78b88bee4"

/-- What `json.loads` makes of an object by itself: the last of equal names counts. -/
def plainDict (members : List (Str × Json)) : Except PyException Json :=
  .ok (.object (Dict.ofPairs members).entries)

def parse (text : Str) : Except PyException Json :=
  match loads plainDict text with
  | .ok value => .ok value
  | .error .decode => .error (.valueError "JSONDecodeError")
  | .error (.hook error) => .error error

/-- `value[key]`. -/
def subscript (value : Json) (key : Str) : Except PyException Json :=
  match value with
  | .object members =>
      match Dict.lookupEntries key members with
      | some item => .ok item
      | none => .error .keyError
  | .null | .bool _ | .number _ | .str _ | .array _ => .error (.other "TypeError")

/-- `value.items()`. -/
def items : Json → Except PyException (List (Str × Json))
  | .object members => .ok members
  | .null | .bool _ | .number _ | .str _ | .array _ => .error (.other "AttributeError")

/-- Python's `size == value`. -/
def equalsSize (size : Nat) : Json → Bool
  | .number (.int value) => decide (value = size)
  | .number (.float value) => decide (value.toRat = size)
  | .bool value => decide (value.toNat = size)
  | .null | .number _ | .str _ | .array _ | .object _ => false

/-- Python's `text == value`. -/
def equalsText (text : Str) : Json → Bool
  | .str value => decide (value = text)
  | .null | .bool _ | .number _ | .array _ | .object _ => false

def files (manifest : Json) : Except PyException (List (Str × Json)) := do
  let listed ← subscript manifest (lit "files")
  items listed

/-! ## Verification -/

def shown (name : Str) : String := String.ofList (name.map Char.ofNat)

/-- The body of the loop over the manifest. -/
def checkListed (tree : Tree) (item : Str × Json) : Except PyException Unit :=
  if unsafeName item.1 then .error (.valueError "Unsafe artifact path")
  else match tree.stat (components item.1) with
    | some (content, false) => do
        let size ← subscript item.2 (lit "bytes")
        if equalsSize content.length size then do
          let hash ← subscript item.2 (lit "sha256")
          if equalsText (Sha256.hexdigest content) hash then .ok ()
          else .error (.valueError s!"Artifact checksum mismatch: {shown item.1}")
        else .error (.valueError s!"Artifact checksum mismatch: {shown item.1}")
    | some (_, true) | none =>
        .error (.valueError s!"Missing materialized artifact: {shown item.1}")

/-- What the walk takes up: `p.parts` are those of `root` and those below it. -/
def counts (rootParts : List Str) (item : Path × Node) : Bool :=
  item.2.stat.isSome && !decide (lit "__pycache__" ∈ rootParts ++ item.1) &&
    !decide (item.1.getLast? = some MANIFEST)

def actual (rootParts : List Str) (tree : Tree) : List Str :=
  (tree.nodes.entries.filter (counts rootParts)).map fun item => asPosix item.1

def sameSet (first second : List Str) : Bool :=
  first.all (fun name => decide (name ∈ second)) && second.all fun name => decide (name ∈ first)

/-- `verify_artifact`, with its pinned digest. -/
def verifyArtifact (decode : Bytes → Except PyException Str) (pinned : Str) (rootParts : List Str)
    (tree : Tree) : Except PyException Unit := do
  let content ← tree.read [MANIFEST]
  if Sha256.hexdigest content ≠ pinned then
    .error (.valueError "Kai manifest does not match the reviewed release")
  else do
    let text ← decode content
    let manifest ← parse text
    let listed ← files manifest
    let _ ← listed.mapM (checkListed tree)
    if sameSet (actual rootParts tree) (listed.map Prod.fst) then .ok ()
    else .error (.valueError "Unexpected artifact files")

end VllmVerifier.Decision.Artifact
