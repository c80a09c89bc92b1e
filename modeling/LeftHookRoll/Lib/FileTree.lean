import Mathlib

/-!
# Paths in a file tree

A `FileTree` says where a name leads from a node: to an entry of a directory, through a link, up at `..`.
`resolve` follows a path from a directory. `resolve_append`: the part of a path before a separator can be
resolved first, and the rest from there.
-/

structure FileTree (ν α : Type*) where
  root : ν
  lookup : ν → List α → Option ν

namespace FileTree

variable {ν α : Type*} [DecidableEq α] (T : FileTree ν α) (sep : α)

/-- The names of a path; several separators count as one. -/
def names (path : List α) : List (List α) := (path.splitOn sep).filter (· ≠ [])

def walk (d : ν) (ns : List (List α)) : Option ν := ns.foldlM T.lookup d

/-- The node that a path names from the directory `cwd`. -/
def resolve (cwd : ν) (path : List α) : Option ν :=
  if path = [] then none else T.walk (if path.head? = some sep then T.root else cwd) (names sep path)

theorem names_append (p q : List α) : names sep (p ++ sep :: q) = names sep p ++ names sep q := by
  rw [names, List.splitOn_append_cons_self, List.filter_append]
  rfl

theorem names_of_not_mem {s : List α} (hne : s ≠ []) (h : sep ∉ s) : names sep s = [s] := by
  rw [names, List.splitOn_eq_singleton h]
  simp [hne]

theorem resolve_of_head {path : List α} (h : path.head? = some sep) (d d' : ν) :
    T.resolve sep d path = T.resolve sep d' path := by
  rw [resolve, resolve, if_pos h, if_pos h]

theorem resolve_name {s : List α} (hne : s ≠ []) (h : sep ∉ s) (d : ν) : T.resolve sep d s = T.lookup d s := by
  have hhead : s.head? ≠ some sep := fun hs => h (List.mem_of_mem_head? hs)
  rw [resolve, if_neg hne, if_neg hhead, names_of_not_mem sep hne h, walk, List.foldlM_cons]
  exact bind_pure _

/-- A path is resolved up to a separator, and the rest from there. -/
theorem resolve_append {p q : List α} (hp : p ≠ []) (hq : q ≠ []) (hrel : q.head? ≠ some sep) (cwd : ν) :
    T.resolve sep cwd (p ++ sep :: q) = (T.resolve sep cwd p).bind fun d => T.resolve sep d q := by
  have hstart : (p ++ sep :: q).head? = p.head? := List.head?_append_of_ne_nil p hp
  simp only [resolve, if_neg hp, if_neg hq, if_neg hrel, hstart, names_append, walk, List.foldlM_append]
  rw [if_neg (by simp)]
  rfl

end FileTree
