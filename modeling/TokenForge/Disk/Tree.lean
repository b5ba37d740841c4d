import TokenForge.Disk.File

/-!
# Trees of files

A tree of directories and files, and the disk that it makes. A path is walked part by part, and
every part but the last must lead to a directory.

* `Tree` — what is where, and the directory in which relative paths begin;
* `Tree.walk` — the place that the parts of a path lead to;
* `Tree.disk` — the answer to every path;
* `Tree.add`, `Tree.remove` — the tree after a change.
-/

namespace TokenForge

/-- What a name in a directory stands for. -/
inductive Node where
  | file (bytes : Bytes)
  | directory
  deriving DecidableEq, Repr

/-- **A tree of files**, as the list of what is in it, each with the names that lead to it from the
root. A later entry hides an earlier one of the same place. The working directory is where paths
that are not absolute begin. -/
structure Tree where
  /-- What is in the tree, the newest first. -/
  entries : List (List Bytes × Node)
  /-- The names that lead to the working directory. -/
  working : List Bytes

namespace Tree

/-- The longest path that is looked up, with the zero byte after it. -/
def maxPath : Nat := 4096

/-- The longest name in a directory. -/
def maxName : Nat := 255

/-- What stands at a place, the root being a directory. -/
def node? (t : Tree) (place : List Bytes) : Option Node :=
  if place = [] then some .directory
  else (t.entries.find? fun e => e.1 = place).map Prod.snd

/-- The parts of a path: what stands between its slashes. -/
def parts (bytes : Bytes) : List Bytes :=
  let (last, before) := bytes.foldr
    (fun b acc => if b = Path.slash then ([], acc.1 :: acc.2) else (b :: acc.1, acc.2)) ([], [])
  last :: before

def here : Bytes := utf8 "."

def parent : Bytes := utf8 ".."

/-- **The place that some parts lead to** from the place `from_`. An empty part and a dot stay; two
dots go up, and at the root stay; a name goes down, and needs to be there. Whatever follows, the
place so far must be a directory. -/
def walk (t : Tree) (from_ : List Bytes) : List Bytes → Except ReadFault (List Bytes)
  | [] => .ok from_
  | part :: rest =>
    match t.node? from_ with
    | none => .error .notFound
    | some (.file _) => .error .notDirectory
    | some .directory =>
      if part = [] ∨ part = here then walk t from_ rest
      else if part = parent then walk t from_.dropLast rest
      else if maxName < part.length then .error .nameTooLong
      else walk t (from_ ++ [part]) rest

/-- **The disk that a tree makes.** -/
def disk (t : Tree) : Disk := fun path =>
  if path.bytes.contains 0 then .error .zeroInName
  else if path.bytes = [] then .error .notFound
  else if maxPath ≤ path.bytes.length then .error .nameTooLong
  else do
    let place ← t.walk (if path.isAbsolute then [] else t.working) (parts path.bytes)
    match t.node? place with
    | none => .error .notFound
    | some .directory => .error .isDirectory
    | some (.file bytes) => .ok bytes

/-- The tree with a node at a place below the working directory, and directories on the way. -/
def add (t : Tree) (path : Path) (node : Node) : Tree :=
  let place := t.working ++ (parts path.bytes).filter (fun p => p ≠ [] ∧ p ≠ here)
  let above := (List.range place.length).map place.take
  let missing := above.filter fun p => (t.node? p).isNone
  { t with entries := (place, node) :: missing.map (·, .directory) ++ t.entries }

/-- The tree with nothing at a place below the working directory. -/
def remove (t : Tree) (path : Path) : Tree :=
  let place := t.working ++ (parts path.bytes).filter (fun p => p ≠ [] ∧ p ≠ here)
  { t with entries := t.entries.filter fun e => e.1 ≠ place }

/-- The tree in which the directories to `working` are, and nothing else. -/
def empty (working : List Bytes) : Tree :=
  { entries := (List.range (working.length + 1)).map fun n => (working.take n, .directory)
    working := working }

end Tree

end TokenForge
