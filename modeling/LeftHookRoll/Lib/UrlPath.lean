import Mathlib
import LeftHookRoll.Lib.Search

/-!
# Relative references

`resolve` is the rule by which a link is followed: the reference takes the place of what stands behind the
last separator of the base (`merge`), then the segments `.` and `..` are taken out (`removeDots`). A path is
absolute: its first character is the separator. `resolve_entry_iff` says when a name resolved against the
path of a directory is an entry of that directory.
-/

namespace UrlPath

variable {α : Type*} [DecidableEq α] (sep dot : α)

/-- A segment that is not the last one. What is kept so far has its last segment first. -/
def step (out : List (List α)) (s : List α) : List (List α) :=
  if s = [dot] then out else if s = [dot, dot] then out.tail else s :: out

/-- The last segment: when it is taken out, the separator before it stays. -/
def stepLast (out : List (List α)) (s : List α) : List (List α) :=
  if s = [dot] then [] :: out else if s = [dot, dot] then [] :: out.tail else s :: out

def removeDots : List (List α) → List (List α) → List (List α)
  | out, [] => out.reverse
  | out, [s] => (stepLast dot out s).reverse
  | out, s :: t :: rest => removeDots (step dot out s) (t :: rest)

def normalize (path : List α) : List α := sep :: [sep].intercalate (removeDots dot [] (path.tail.splitOn sep))

def merge (base ref : List α) : List α := base.rdropWhile (· ≠ sep) ++ ref

def resolve (base ref : List α) : List α :=
  normalize sep dot (if ref.head? = some sep then ref else merge sep base ref)

variable {sep dot}

theorem removeDots_append (l : List (List α)) {t : List (List α)} (ht : t ≠ []) (out : List (List α)) :
    removeDots dot out (l ++ t) = removeDots dot (l.foldl (step dot) out) t := by
  induction l generalizing out with
  | nil => rfl
  | cons s l ih =>
    obtain ⟨x, rest, hx⟩ := List.exists_cons_of_ne_nil (List.append_ne_nil_of_right_ne_nil l ht)
    rw [List.cons_append, hx, removeDots, ← hx, ih, List.foldl_cons]

/-- A segment changes nothing. -/
theorem step_eq_self_iff {out : List (List α)} {s : List α} :
    step dot out s = out ↔ s = [dot] ∨ s = [dot, dot] ∧ out = [] := by
  rw [step]
  split_ifs with h h'
  · simp [h]
  · rcases out with _ | ⟨x, out⟩
    · simp [h']
    · simp [h']
  · simp [h, h']

/-! ### Paths and their segments -/

/-- The segments before the last separator. -/
def front (sep : α) (p : List α) : List (List α) := if p = [] then [] else p.tail.splitOn sep

theorem splitOn_tail (p x : List α) : (p ++ sep :: x).tail.splitOn sep = front sep p ++ x.splitOn sep := by
  rcases p with _ | ⟨c, p⟩
  · rfl
  · rw [front, if_neg (List.cons_ne_nil c p), List.cons_append, List.tail_cons, List.tail_cons,
      List.splitOn_append_cons_self]

theorem normalize_append (p x : List α) : normalize sep dot (p ++ sep :: x) =
    sep :: [sep].intercalate (removeDots dot ((front sep p).foldl (step dot) []) (x.splitOn sep)) := by
  rw [normalize, splitOn_tail, removeDots_append _ (List.splitOn_ne_nil _ _)]

theorem ne_sep_of_mem_reverse {s : List α} (hs : sep ∉ s) : ∀ c ∈ s.reverse, decide (c ≠ sep) = true := fun c hc => by
  simpa using fun heq : c = sep => hs (heq ▸ List.mem_reverse.1 hc)

theorem rdropWhile_append {p s : List α} (hs : sep ∉ s) : (p ++ sep :: s).rdropWhile (· ≠ sep) = p ++ [sep] := by
  rw [List.rdropWhile, List.reverse_append, List.reverse_cons, List.append_assoc,
    List.dropWhile_append_of_pos (ne_sep_of_mem_reverse hs)]
  simp

theorem rtakeWhile_append {p s : List α} (hs : sep ∉ s) : (p ++ sep :: s).rtakeWhile (· ≠ sep) = s := by
  rw [List.rtakeWhile, List.reverse_append, List.reverse_cons, List.append_assoc,
    List.takeWhile_append_of_pos (ne_sep_of_mem_reverse hs)]
  simp

/-- The reference stands behind the last separator of the base. -/
theorem resolve_eq {p s ref : List α} (hs : sep ∉ s) (hne : ref.head? ≠ some sep) :
    resolve sep dot (p ++ sep :: s) ref = normalize sep dot (p ++ sep :: ref) := by
  rw [resolve, if_neg hne, merge, rdropWhile_append hs, List.append_assoc, List.singleton_append]

/-- Segments that are put together with separators can be told apart. -/
theorem intercalate_inj {l l' : List (List α)} (hl : l ≠ []) (hl' : l' ≠ []) (h : ∀ s ∈ l, sep ∉ s)
    (h' : ∀ s ∈ l', sep ∉ s) (heq : [sep].intercalate l = [sep].intercalate l') : l = l' := by
  rw [← List.splitOn_intercalate sep h hl, heq, List.splitOn_intercalate sep h' hl']

/-! ### Entries of a directory -/

/-- A segment that stays, with a separator behind it or not. -/
structure Entry (sep dot : α) (name tail : List α) : Prop where
  ne_nil : name ≠ []
  not_mem : sep ∉ name
  not_dot : name ≠ [dot]
  not_dots : name ≠ [dot, dot]
  tail_eq : tail = [] ∨ tail = [sep]

variable {name tail : List α}

omit [DecidableEq α] in
theorem Entry.head (h : Entry sep dot name tail) : (name ++ tail).head? ≠ some sep := by
  rw [List.head?_append_of_ne_nil name h.ne_nil]
  exact fun hhead => h.not_mem (List.mem_of_mem_head? hhead)

/-- What the name adds to the segments kept before it: itself, and an empty one for the separator behind it. -/
theorem Entry.removeDots (h : Entry sep dot name tail) (out : List (List α)) :
    UrlPath.removeDots dot out ((name ++ tail).splitOn sep) = out.reverse ++ name :: tail.map fun _ => [] := by
  rcases h.tail_eq with htail | htail
  · rw [htail, List.append_nil, List.splitOn_eq_singleton h.not_mem, UrlPath.removeDots, stepLast, if_neg h.not_dot,
      if_neg h.not_dots, List.reverse_cons]
    rfl
  · have hsplit : (name ++ [sep]).splitOn sep = [name, []] := by
      rw [List.splitOn_append_cons_self, List.splitOn_eq_singleton h.not_mem]
      rfl
    rw [htail, hsplit, UrlPath.removeDots, step, if_neg h.not_dot, if_neg h.not_dots, UrlPath.removeDots, stepLast]
    simp

omit [DecidableEq α] in
/-- The segments of a path that ends in an entry can be told apart. -/
theorem Entry.sep_not_mem (h : Entry sep dot name tail) {kept : List (List α)} (hkept : ∀ s ∈ kept, sep ∉ s) :
    ∀ s ∈ kept.reverse ++ name :: tail.map (fun _ => []), sep ∉ s := by
  intro s hs
  simp only [List.mem_append, List.mem_reverse, List.mem_cons, List.mem_map] at hs
  rcases hs with hs | rfl | ⟨_, -, rfl⟩
  · exact hkept s hs
  · exact h.not_mem
  · exact List.not_mem_nil

theorem sep_not_mem_front (p : List α) : ∀ s ∈ front sep p, sep ∉ s := by
  intro s hs
  rw [front] at hs
  split at hs
  · cases hs
  · exact List.not_mem_of_mem_splitOn hs

theorem sep_not_mem_foldl_step {l : List (List α)} (hl : ∀ s ∈ l, sep ∉ s) {out : List (List α)}
    (hout : ∀ s ∈ out, sep ∉ s) : ∀ s ∈ l.foldl (step dot) out, sep ∉ s := by
  induction l generalizing out with
  | nil => exact hout
  | cons x l ih =>
    rw [List.forall_mem_cons] at hl
    refine ih hl.2 ?_
    rw [step]
    split_ifs
    · exact hout
    · exact fun s hs => hout s (List.mem_of_mem_tail hs)
    · exact List.forall_mem_cons.2 ⟨hl.1, hout⟩

/-- Nothing before the last separator stays that holds a separator. -/
theorem sep_not_mem_kept (p : List α) : ∀ s ∈ (front sep p).foldl (step dot) [], sep ∉ s :=
  sep_not_mem_foldl_step (sep_not_mem_front p) (by simp)

/-- A path that ends in a separator is the root when nothing before it stays. -/
theorem normalize_eq_root_iff {p : List α} :
    normalize sep dot (p ++ [sep]) = [sep] ↔ (front sep p).foldl (step dot) [] = [] := by
  rw [normalize_append]
  have hlast (out : List (List α)) : removeDots dot out (List.splitOn sep []) = out.reverse ++ [[]] := by
    simp [removeDots, stepLast]
  rw [hlast]
  constructor
  · intro h
    have hroot : [sep].intercalate (((front sep p).foldl (step dot) []).reverse ++ [[]]) = [sep].intercalate [[]] :=
      (List.cons.inj h).2
    have := intercalate_inj (by simp) (by simp) ?_ (by simp) hroot
    · simpa using this
    · have hmem := @sep_not_mem_kept α _ sep dot p
      simpa [or_imp, forall_and] using hmem
  · intro h
    rw [h]
    rfl

/-- Two paths of one entry agree on the separator behind it. -/
theorem Entry.tail_unique {p p' tail' : List α} (h : Entry sep dot name tail) (h' : Entry sep dot name tail')
    (heq : normalize sep dot (p ++ sep :: (name ++ tail)) = normalize sep dot (p' ++ sep :: (name ++ tail'))) :
    tail = tail' := by
  rw [normalize_append, normalize_append, h.removeDots, h'.removeDots] at heq
  have hsame := intercalate_inj (by simp) (by simp) (h.sep_not_mem (sep_not_mem_kept p))
    (h'.sep_not_mem (sep_not_mem_kept p')) (List.cons.inj heq).2
  have hlast := congrArg List.getLast? hsame
  rcases h.tail_eq with rfl | rfl <;> rcases h'.tail_eq with rfl | rfl
  · rfl
  · exact absurd (by simpa using hlast) h.ne_nil
  · exact absurd (by simpa using hlast.symm) h.ne_nil
  · rfl

/-- A link to an entry of the directory `p ++ sep :: s`, when the path does not end in a separator. -/
theorem resolve_entry_iff {p s : List α} (hs : sep ∉ s) (h : Entry sep dot name tail) :
    resolve sep dot (p ++ sep :: s) (name ++ tail) =
        normalize sep dot (p ++ sep :: s ++ [sep] ++ (name ++ tail)) ↔
      s = [dot] ∨ s = [dot, dot] ∧ normalize sep dot (p ++ [sep]) = [sep] := by
  obtain ⟨out, hout⟩ : ∃ out, out = (front sep p).foldl (step dot) [] := ⟨_, rfl⟩
  have hmem : ∀ x ∈ out, sep ∉ x := hout ▸ sep_not_mem_kept p
  have hmem' : ∀ x ∈ [s].foldl (step dot) out, sep ∉ x := sep_not_mem_foldl_step (by simpa using hs) hmem
  have htarget : normalize sep dot (p ++ sep :: s ++ [sep] ++ (name ++ tail)) =
      sep :: [sep].intercalate ((step dot out s).reverse ++ name :: tail.map fun _ => []) := by
    have hpath : p ++ sep :: s ++ [sep] ++ (name ++ tail) = (p ++ sep :: s) ++ sep :: (name ++ tail) := by simp
    have hfront : front sep (p ++ sep :: s) = front sep p ++ [s] := by
      rw [front, if_neg (by simp), splitOn_tail, List.splitOn_eq_singleton hs]
    rw [hpath, normalize_append, hfront, List.foldl_append, ← hout, h.removeDots]
    rfl
  rw [resolve_eq hs h.head, normalize_append, h.removeDots, htarget, normalize_eq_root_iff, ← hout,
    ← step_eq_self_iff]
  constructor
  · intro heq
    have := intercalate_inj (by simp) (by simp) (h.sep_not_mem hmem) (h.sep_not_mem hmem') (List.cons.inj heq).2
    exact (List.reverse_injective (List.append_cancel_right this)).symm
  · intro heq
    rw [heq]

end UrlPath
