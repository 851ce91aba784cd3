import SuggestBridge.Path.Basic

/-!
# Projects

A project is an entry file with the directory that its daemon runs in. Its key is the normal form
of its path: two spellings of one file have one key and so share one daemon. With configured
projects a file belongs to the first one whose directory contains it, or else to the first of all;
without them every file is a project of its own.
-/

namespace SuggestBridge

/-- An entry file and the directory that its daemon runs in. -/
structure Project where
  root : Path
  file : Text
  deriving DecidableEq

namespace Project

/-- The path of the entry file. -/
def path (p : Project) : Path := p.root.below p.file

/-- The name of the project's daemon: the normal form of its path. -/
def key (cwd : Text) (p : Project) : Text := Path.normalize cwd p.path.toText

/-- The project of an entry file. -/
def ofPath (cwd path : Text) : Project :=
  let absolute := Path.ofText (Path.normalize cwd path)
  ⟨absolute.parent, absolute.name⟩

/-- Whether a normal path is a directory or lies below it. -/
def contains (root target : Text) : Bool :=
  target == root ||
    Text.startsWith target (Text.dropEndWhile (· == Path.separator) root ++ [Path.separator])

/-- The project that a file belongs to. -/
def resolve (cwd : Text) (projects : List Project) (file : Text) : Project :=
  match projects with
  | [] => ofPath cwd file
  | first :: _ =>
    let target := Path.normalize cwd file
    (projects.find? fun p => contains (Path.normalize cwd p.root.toText) target).getD first

end Project

end SuggestBridge
