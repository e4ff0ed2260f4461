import Mathlib

/-!
# Absolute paths

A directory is the list of the names that lead to it from the root. `render` writes its path, and
`resolve` says where a path leads, without looking at links: empty components and `.` stay where they
are, and `..` goes up, at the root to the root itself.
-/

namespace Paths

/-- The names that entries of directories have. -/
structure IsName (name : List Char) : Prop where
  ne_nil : name ≠ []
  slash : '/' ∉ name
  ne_dot : name ≠ ['.']
  ne_dots : name ≠ ['.', '.']

/-- The path of a directory. -/
def render (dir : List (List Char)) : List Char :=
  if dir = [] then ['/'] else dir.flatMap ('/' :: ·)

/-- A component of a path is followed. -/
def follow (dir : List (List Char)) (component : List Char) : List (List Char) :=
  if component = [] ∨ component = ['.'] then dir
  else if component = ['.', '.'] then dir.dropLast
  else dir ++ [component]

/-- Where a path leads. -/
def resolve (path : List Char) : List (List Char) := (path.splitOn '/').foldl follow []

/-- The last component is followed last. -/
theorem resolve_append (path : List Char) {component : List Char} (h : '/' ∉ component) :
    resolve (path ++ '/' :: component) = follow (resolve path) component := by
  rw [resolve, List.splitOn_append_cons_self, List.splitOn_eq_singleton h, List.foldl_append]
  rfl

theorem render_of_ne_nil {dir : List (List Char)} (h : dir ≠ []) :
    render dir = dir.flatMap ('/' :: ·) := if_neg h

theorem flatMap_concat (dir : List (List Char)) (name : List Char) :
    (dir ++ [name]).flatMap ('/' :: ·) = dir.flatMap ('/' :: ·) ++ '/' :: name := by
  rw [List.flatMap_append, List.flatMap_singleton]

theorem render_concat (dir : List (List Char)) (name : List Char) :
    render (dir ++ [name]) = dir.flatMap ('/' :: ·) ++ '/' :: name := by
  rw [render_of_ne_nil (by simp), flatMap_concat]

end Paths
