import Mathlib

/-!
# Paths resolved lexically

A path is walked segment by segment: `.` and the empty segment stay, `..` goes up, any other segment
is a name to go down to. A `Place` is where a walk ends: absolute or relative, with the `..` that are
left over and the names below, the last one first. `Place.walk_eq` splits a walk at any point: the
rest can be resolved on its own and then followed. From it comes when a path stays inside a directory
that it starts with (`Place.inside_walk_iff`).
-/

namespace LexPath

inductive Seg (α : Type)
  | stay
  | up
  | name (a : α)
deriving DecidableEq

@[ext]
structure Place (α : Type) where
  /-- Walks start at the root, where `..` leads nowhere. -/
  absolute : Bool
  /-- How many `..` have not met a name. -/
  ups : Nat := 0
  /-- The last name first. -/
  names : List α := []
deriving DecidableEq

namespace Place

variable {α : Type}

def step (p : Place α) : Seg α → Place α
  | .stay => p
  | .name a => { p with names := a :: p.names }
  | .up =>
    match p.names with
    | _ :: names => { p with names := names }
    | [] => if p.absolute then p else { p with ups := p.ups + 1 }

def walk (p : Place α) (segs : List (Seg α)) : Place α := segs.foldl step p

/-- Where a relative place `q` is, seen from `p`. -/
def follow (p q : Place α) : Place α where
  absolute := p.absolute
  ups := if p.absolute then p.ups else p.ups + (q.ups - p.names.length)
  names := q.names ++ p.names.drop q.ups

/-- The segments on their own, as a relative path. -/
def relative (segs : List (Seg α)) : Place α := walk { absolute := false } segs

@[simp] theorem walk_nil (p : Place α) : p.walk [] = p := rfl

theorem walk_append (p : Place α) (s t : List (Seg α)) : p.walk (s ++ t) = (p.walk s).walk t :=
  List.foldl_append

theorem walk_concat (p : Place α) (s : List (Seg α)) (a : Seg α) : p.walk (s ++ [a]) = (p.walk s).step a := by
  rw [walk_append]
  rfl

theorem step_absolute (p : Place α) (a : Seg α) : (p.step a).absolute = p.absolute := by
  cases a with
  | stay | name => rfl
  | up =>
    rw [step]
    split
    · rfl
    · split <;> rfl

theorem walk_absolute (p : Place α) (segs : List (Seg α)) : (p.walk segs).absolute = p.absolute := by
  induction segs using List.reverseRecOn with
  | nil => rfl
  | append_singleton segs a ih => rw [walk_concat, step_absolute, ih]

theorem follow_step (p q : Place α) (hq : q.absolute = false) (a : Seg α) :
    p.follow (q.step a) = (p.follow q).step a := by
  cases a with
  | stay => rfl
  | name a => rfl
  | up =>
    rcases hn : q.names with _ | ⟨b, names⟩
    · rcases hd : p.names.drop q.ups with _ | ⟨b, rest⟩
      · have hle : p.names.length ≤ q.ups := List.drop_eq_nil_iff.1 hd
        cases habs : p.absolute <;> simp [step, follow, hn, hd, hq, habs]
        · exact ⟨by omega, by omega⟩
        · omega
      · have hlt : q.ups < p.names.length := by
          by_contra hge
          rw [List.drop_eq_nil_of_le (Nat.not_lt.1 hge)] at hd
          cases hd
        have htail : p.names.drop (q.ups + 1) = rest := by
          rw [← List.drop_drop, hd]
          rfl
        cases habs : p.absolute <;> simp [step, follow, hn, hd, hq, habs, htail]
        omega
    · simp [step, follow, hn]

/-- A walk can be split: the rest is resolved on its own and followed. -/
theorem walk_eq (p : Place α) (segs : List (Seg α)) : p.walk segs = p.follow (relative segs) := by
  induction segs using List.reverseRecOn with
  | nil => cases habs : p.absolute <;> simp [relative, follow, Place.ext_iff, habs]
  | append_singleton segs a ih =>
    rw [walk_concat, ih, ← follow_step p _ (walk_absolute _ _)]
    exact congrArg p.follow (walk_concat _ segs a).symm

/-- `p` is `d` or below it. -/
def Inside (d p : Place α) : Prop := p.absolute = d.absolute ∧ p.ups = d.ups ∧ d.names <:+ p.names

/-- `p` is an entry of `d`. -/
def DirectlyInside (d p : Place α) : Prop := ∃ a, p = d.step (.name a)

theorem inside_refl (d : Place α) : Inside d d := ⟨rfl, rfl, List.suffix_refl _⟩

theorem Inside.name {d p : Place α} (h : Inside d p) (a : α) : Inside d (p.step (.name a)) :=
  ⟨h.1, h.2.1, h.2.2.trans (List.suffix_cons a p.names)⟩

/-- Where segments lead does not leave `d`: the `..` left over do not climb past a relative `d`, and the
names after them start with those of `d` that they climbed. -/
def StaysIn (d : Place α) (segs : List (Seg α)) : Prop :=
  (d.absolute = true ∨ (relative segs).ups ≤ d.names.length) ∧
    d.names.take (relative segs).ups <:+ (relative segs).names

instance [DecidableEq α] (d : Place α) (segs : List (Seg α)) : Decidable (StaysIn d segs) :=
  inferInstanceAs (Decidable (_ ∧ _))

theorem inside_walk_iff (d : Place α) (segs : List (Seg α)) : Inside d (d.walk segs) ↔ StaysIn d segs := by
  obtain ⟨q, hq⟩ : ∃ q, q = relative segs := ⟨_, rfl⟩
  rw [walk_eq, Inside, StaysIn, ← hq]
  have hups : (d.follow q).ups = d.ups ↔ d.absolute = true ∨ q.ups ≤ d.names.length := by
    cases habs : d.absolute
    · simp [follow, habs]
      omega
    · simp [follow, habs]
  have hnames : d.names <:+ (d.follow q).names ↔ d.names.take q.ups <:+ q.names := by
    rw [follow]
    constructor
    · rintro ⟨t, ht⟩
      refine ⟨t, (List.append_left_inj (d.names.drop q.ups)).1 ?_⟩
      rw [List.append_assoc, List.take_append_drop, ht]
    · rintro ⟨t, ht⟩
      refine ⟨t, ?_⟩
      rw [← ht, List.append_assoc, List.take_append_drop]
  exact ⟨fun h => ⟨hups.1 h.2.1, hnames.1 h.2.2⟩, fun h => ⟨rfl, hups.2 h.1, hnames.2 h.2⟩⟩

end Place

section Text

variable {α : Type} [DecidableEq α] (sep dot : α)

/-- What a segment of a text says. -/
def seg (s : List α) : Seg (List α) :=
  if s = [] ∨ s = [dot] then .stay else if s = [dot, dot] then .up else .name s

def segs (path : List α) : List (Seg (List α)) := (path.splitOn sep).map (seg dot)

/-- Where a path leads. -/
def resolve (path : List α) : Place (List α) :=
  Place.walk { absolute := path.head? = some sep } (segs sep dot path)

theorem segs_append (path rest : List α) :
    segs sep dot (path ++ sep :: rest) = segs sep dot path ++ segs sep dot rest := by
  rw [segs, List.splitOn_append_cons_self, List.map_append]
  rfl

theorem segs_of_not_mem {s : List α} (h : sep ∉ s) : segs sep dot s = [seg dot s] := by
  rw [segs, List.splitOn_eq_singleton h]
  rfl

theorem resolve_append {path : List α} (hne : path ≠ []) (rest : List α) :
    resolve sep dot (path ++ sep :: rest) = (resolve sep dot path).walk (segs sep dot rest) := by
  rw [resolve, segs_append, Place.walk_append, resolve, List.head?_append_of_ne_nil _ hne]

end Text

end LexPath
