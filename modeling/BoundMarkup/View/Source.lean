/-
  BoundMarkup.View.Source
  ───────────────────────
  **WHERE VIEWS COME FROM.**

  A source answers paths with files.  However many paths it answers, the files
  have finitely many contents.
-/
import BoundMarkup.View.Path

namespace BoundMarkup

/-- The file of a view. -/
structure MarkupFile where
  content : String
  /-- The name from which generated names are made. -/
  fileName : String
  /-- The time of the last change, in seconds after the epoch. -/
  modified : Nat
  deriving DecidableEq, Repr

structure MarkupSource where
  load? : String → Option MarkupFile
  /-- All contents that can be loaded. -/
  contents : List String
  content_mem : ∀ path file, load? path = some file → file.content ∈ contents

namespace MarkupSource

/-- The file of a path among files kept under normalized paths. -/
def memoryFile? (files : List (String × String)) (path : String) : Option MarkupFile :=
  (files.find? (fun f => f.1 == path)).map (fun f => ⟨f.2, path, 0⟩)

/-- A source that keeps its files in memory, by normalized path. -/
def ofMemory (files : List (String × String)) : MarkupSource where
  load? := memoryFile? files
  contents := files.map Prod.snd
  content_mem := by
    intro path file h
    obtain ⟨f, hf, rfl⟩ := Option.map_eq_some_iff.1 h
    exact List.mem_map.2 ⟨f, List.mem_of_find?_eq_some hf, rfl⟩

end MarkupSource

/-- Put a file under its normalized path, in place of one that is there. -/
def putFile (files : List (String × String)) (path content : String) : List (String × String) :=
  let key := ViewPath.normalize path
  files.filter (fun f => f.1 != key) ++ [(key, content)]

end BoundMarkup
