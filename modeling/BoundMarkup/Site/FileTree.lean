/-
  BoundMarkup.Site.FileTree
  ─────────────────────────
  **FILES BELOW A DIRECTORY.**

  A path is walked name by name: `.` and nothing stay in a directory, `..` leads
  out of it, and every other name has to be there.  A file can only come last.
  A path that starts with a slash leads away from the directory.
-/
import BoundMarkup.Text.Segments
import BoundMarkup.View.Source

namespace BoundMarkup

/-- A file and the names that lead to it. -/
structure TreeFile where
  names : List String
  content : String
  /-- The time of the last change, in seconds after the epoch. -/
  modified : Nat
  deriving DecidableEq, Repr

/-- The files below a directory.  Directories are there for the files in them. -/
structure FileTree where
  files : List TreeFile
  deriving DecidableEq, Repr

namespace FileTree

/-- Where a walk has come to. -/
inductive Place where
  | directory (names : List String)
  | file (file : TreeFile)

/-- The file or directory that the names lead to. -/
def at? (t : FileTree) (names : List String) : Option Place :=
  match t.files.find? (fun f => f.names == names) with
  | some f => some (.file f)
  | none =>
      if t.files.any (fun f => names.isPrefixOf f.names) then some (.directory names) else none

/-- One step of a walk.  Nothing is known about what lies outside. -/
def step? (t : FileTree) (place : Place) (name : String) : Option Place :=
  match place with
  | .file _ => none
  | .directory names =>
      if name = "" ∨ name = "." then some (.directory names)
      else if name = ".." then
        if names.isEmpty then none else some (.directory names.dropLast)
      else t.at? (names ++ [name])

/-- Where a path leads. -/
def walk? (t : FileTree) (path : String) : Option Place :=
  match Text.segments '/' path with
  | "" :: _ :: _ => none
  | names => names.foldlM t.step? (.directory [])

/-- **The file at a path.** -/
def file? (t : FileTree) (path : String) : Option TreeFile :=
  match t.walk? path with
  | some (.file f) => if f ∈ t.files then some f else none
  | _ => none

/-- The names that a path leads through, without looking. -/
def plainNames (path : String) : List String :=
  (Text.segments '/' path).foldl (fun names name =>
    if name = "" ∨ name = "." then names
    else if name = ".." then names.dropLast
    else names ++ [name]) []

/-- Put a file at a path, in place of one that is there. -/
def put (t : FileTree) (path content : String) (modified : Nat) : FileTree :=
  let names := plainNames path
  ⟨t.files.filter (fun f => f.names != names) ++ [⟨names, content, modified⟩]⟩

/-- The view file at a path. -/
def markupFile? (t : FileTree) (path : String) : Option MarkupFile :=
  (t.file? path).map (fun f => ⟨f.content, path, f.modified⟩)

/-- The files of the tree as a source of views. -/
def source (t : FileTree) : MarkupSource where
  load? := t.markupFile?
  contents := t.files.map TreeFile.content
  content_mem := by
    intro path file h
    obtain ⟨f, hf, rfl⟩ := Option.map_eq_some_iff.1 h
    unfold file? at hf
    split at hf
    · split at hf
      · rename_i g hg
        cases hf
        exact List.mem_map.2 ⟨f, hg, rfl⟩
      · cases hf
    · cases hf

end FileTree

end BoundMarkup
