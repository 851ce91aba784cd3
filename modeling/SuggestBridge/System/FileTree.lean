import SuggestBridge.Path.Basic
import SuggestBridge.Text.Quoted

/-!
# File trees

A tree of directories, regular files and symbolic links, as far as the library looks at it. Places
in the tree are lists of names from the root, free of links, `.` and `..`.
-/

namespace SuggestBridge

/-- What stands at a place of a file tree. -/
inductive Entry where
  | file (content : Bytes) (executable : Bool)
  | directory
  | link (target : Text)
  deriving DecidableEq

/-- A file tree: the entries below its root. -/
structure FileTree where
  entries : List (List Text × Entry)

namespace FileTree

/-- The tree that holds nothing but its root. -/
def empty : FileTree := ⟨[]⟩

/-- What stands at a place, links not followed. -/
def entry? (tree : FileTree) (place : List Text) : Option Entry :=
  if place.isEmpty then some .directory
  else (tree.entries.find? fun e => e.1 == place).map Prod.snd

/-- Puts an entry at a place, instead of what stood there. -/
def put (tree : FileTree) (place : List Text) (e : Entry) : FileTree :=
  if tree.entries.any fun x => x.1 == place then
    ⟨tree.entries.map fun x => if x.1 == place then (place, e) else x⟩
  else ⟨tree.entries ++ [(place, e)]⟩

/-- Removes the entry at a place. -/
def erase (tree : FileTree) (place : List Text) : FileTree :=
  ⟨tree.entries.filter fun x => x.1 != place⟩

/-- The places of a path and all directories above it, from the top. -/
def ancestors (place : List Text) : List (List Text) :=
  (List.range (place.length + 1)).map place.take

/-- Makes a directory and those above it, where nothing stands. -/
def makeDirectories (tree : FileTree) (place : List Text) : FileTree :=
  (ancestors place).foldl
    (fun tree p => if (tree.entry? p).isSome then tree else tree.put p .directory) tree

/-- The names in a directory. -/
def names (tree : FileTree) (place : List Text) : List Text :=
  tree.entries.filterMap fun e =>
    if e.1.length = place.length + 1 ∧ place.isPrefixOf e.1 then e.1.getLast? else none

/-- How many links are followed before a path counts as a loop. -/
def linkLimit : Nat := 40

/-- Walks from a place along components, links followed; gives the place reached if every directory
on the way exists. A link costs one unit of the first number; every other component is consumed. -/
def walk (tree : FileTree) : Nat → Nat → List Text → List Text → Option (List Text)
  | _, 0, _, _ => none
  | _, _, place, [] => if (tree.entry? place).isSome then some place else none
  | links, fuel + 1, place, c :: cs =>
    match tree.entry? place with
    | some .directory =>
      if c.isEmpty || c == Path.here then walk tree links fuel place cs
      else if c == Path.above then walk tree links fuel place.dropLast cs
      else
        match tree.entry? (place ++ [c]) with
        | some (.link target) =>
          match links with
          | 0 => none
          | links + 1 =>
            let targets := Text.splitAt Path.separator target
            walk tree links fuel (if Path.isAbsolute target then [] else place) (targets ++ cs)
        | some _ => walk tree links fuel (place ++ [c]) cs
        | none => none
    | _ => none

/-- A bound on the components that a walk along a path can meet. -/
def walkFuel (tree : FileTree) (components : List Text) : Nat :=
  let longest := tree.entries.foldl (fun n e =>
    match e.2 with
    | .link target => max n (target.length + 1)
    | _ => n) 0
  components.length + linkLimit * (longest + 1) + linkLimit + 2

/-- The components of a path below a working directory. -/
def components (cwd path : Text) : List Text := Text.splitAt Path.separator (Path.join cwd path)

/-- The place that a path leads to, links followed. -/
def locate (tree : FileTree) (cwd path : Text) : Option (List Text) :=
  let cs := components cwd path
  walk tree linkLimit (walkFuel tree cs) [] cs

/-- What a path leads to, links followed. -/
def find? (tree : FileTree) (cwd path : Text) : Option Entry :=
  (tree.locate cwd path).bind tree.entry?

/-- Whether a path leads to anything. -/
def pathExists (tree : FileTree) (cwd path : Text) : Bool := (tree.find? cwd path).isSome

/-- Whether a path leads to a regular file that may be executed. -/
def isExecutableFile (tree : FileTree) (cwd path : Text) : Bool :=
  match tree.find? cwd path with
  | some (.file _ executable) => executable
  | _ => false

/-- Why a directory cannot be made. -/
inductive CreateError where
  /-- Something else stands at the path. -/
  | occupied (path : Path)
  /-- The path leads through something that is no directory. -/
  | blocked (path : Path)
  deriving DecidableEq

/-- The wording of a directory that cannot be made. -/
def CreateError.message : CreateError → Text
  | .occupied p => "[Errno 17] File exists: " ++ p.toText.quoted
  | .blocked p => "[Errno 20] Not a directory: " ++ p.toText.quoted

/-- Makes a directory below existing ones. -/
def createEntry (tree : FileTree) (cwd : Text) (p : Path) : Except CreateError FileTree :=
  match tree.locate cwd p.parent.toText with
  | none => .error (.blocked p)
  | some place =>
    if (tree.entry? (place ++ [p.name])).isSome then .error (.occupied p)
    else .ok (tree.put (place ++ [p.name]) .directory)

/-- Makes a directory, unless it is there, with the directories above it. -/
def createDirectory (tree : FileTree) (cwd : Text) (p : Path) : Except CreateError FileTree :=
  let steps := (List.range (p.parts.length + 1)).map fun n => Path.mk p.slashes (p.parts.take n)
  steps.foldl (fun result step =>
    match result with
    | .error e => .error e
    | .ok tree =>
      match tree.find? cwd step.toText with
      | some .directory => .ok tree
      | some _ => .error (if step = p then .occupied p else .blocked p)
      | none => tree.createEntry cwd step) (.ok tree)

/-- Resolves the links of a path as far as its components exist; the others are kept, and `..`
removes the component before it. A loop of links is left unresolved. -/
def resolveFrom (tree : FileTree) : Nat → Nat → List Text → List Text → List Text
  | _, 0, place, cs => place ++ cs
  | _, _, place, [] => place
  | links, fuel + 1, place, c :: cs =>
    if c.isEmpty || c == Path.here then resolveFrom tree links fuel place cs
    else if c == Path.above then resolveFrom tree links fuel place.dropLast cs
    else
      match tree.entry? (place ++ [c]), links with
      | some (.link target), links + 1 =>
        let targets := Text.splitAt Path.separator target
        resolveFrom tree links fuel (if Path.isAbsolute target then [] else place) (targets ++ cs)
      | _, links => resolveFrom tree links fuel (place ++ [c]) cs

/-- The path with its links resolved; it starts at the root with a single slash. -/
def resolve (tree : FileTree) (cwd path : Text) : Path :=
  let cs := components cwd path
  ⟨1, resolveFrom tree linkLimit (walkFuel tree cs) [] cs⟩

end FileTree

end SuggestBridge
