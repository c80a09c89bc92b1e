import Mathlib

/-!
# The last of the largest

`lastMax p key l`: one pass over `l` that keeps, among the elements with `p`, the last one whose key is
largest. If no two elements with `p` have the same key, the order of `l` does not matter.
-/

namespace List

variable {α β : Type} [LinearOrder β]

section IsLastMax

variable (p : α → Prop) (key : α → β)

/-- `a` has `p` and a largest key, and nothing behind it has as large a one. -/
def IsLastMax (l : List α) (a : α) : Prop :=
  ∃ before after, l = before ++ a :: after ∧ p a ∧ (∀ b ∈ before, p b → key b ≤ key a) ∧ ∀ b ∈ after, p b → key b < key a

variable {p key} {l : List α} {a : α}

theorem IsLastMax.mem (h : IsLastMax p key l a) : a ∈ l := by
  obtain ⟨before, after, rfl, -⟩ := h
  exact mem_append_right before mem_cons_self

theorem IsLastMax.holds (h : IsLastMax p key l a) : p a := by
  obtain ⟨-, -, -, ha, -⟩ := h
  exact ha

theorem IsLastMax.le (h : IsLastMax p key l a) {b : α} (hb : b ∈ l) (hp : p b) : key b ≤ key a := by
  obtain ⟨before, after, rfl, -, hbefore, hafter⟩ := h
  rcases mem_append.1 hb with hb | hb
  · exact hbefore b hb hp
  rcases mem_cons.1 hb with rfl | hb
  · exact le_rfl
  · exact (hafter b hb hp).le

end IsLastMax

variable [OrderBot β] (p : α → Prop) [DecidablePred p] (key : α → β)

/-- The best element so far and its key. -/
def keepMax (best : Option α × β) (a : α) : Option α × β := if p a ∧ best.2 ≤ key a then (some a, key a) else best

def lastMax (l : List α) : Option α := (l.foldl (keepMax p key) (none, ⊥)).1

/-- What the pass has found so far. -/
theorem foldl_keepMax (l : List α) :
    (l.foldl (keepMax p key) (none, ⊥) = (none, ⊥) ∧ ∀ a ∈ l, ¬ p a) ∨
      ∃ a, l.foldl (keepMax p key) (none, ⊥) = (some a, key a) ∧ IsLastMax p key l a := by
  induction l using reverseRecOn with
  | nil => exact .inl ⟨rfl, fun a ha => absurd ha not_mem_nil⟩
  | append_singleton l x ih =>
    rw [foldl_append, foldl_cons, foldl_nil]
    rcases ih with ⟨hfold, hnone⟩ | ⟨a, hfold, hmax⟩
    · rw [hfold, keepMax]
      by_cases hx : p x
      · rw [if_pos ⟨hx, bot_le⟩]
        exact .inr ⟨x, rfl, l, [], rfl, hx, fun b hb hp => absurd hp (hnone b hb), fun b hb => absurd hb not_mem_nil⟩
      · rw [if_neg fun h => hx h.1]
        refine .inl ⟨rfl, fun a ha => ?_⟩
        rcases mem_append.1 ha with ha | ha
        · exact hnone a ha
        · rwa [mem_singleton.1 ha]
    · rw [hfold, keepMax]
      by_cases hx : p x ∧ key a ≤ key x
      · rw [if_pos hx]
        refine .inr ⟨x, rfl, l, [], rfl, hx.1, fun b hb hp => ?_, fun b hb => absurd hb not_mem_nil⟩
        exact (hmax.le hb hp).trans hx.2
      · rw [if_neg hx]
        obtain ⟨before, after, rfl, ha, hbefore, hafter⟩ := hmax
        refine .inr ⟨a, rfl, before, after ++ [x], by simp, ha, hbefore, fun b hb hp => ?_⟩
        rcases mem_append.1 hb with hb | hb
        · exact hafter b hb hp
        · rw [mem_singleton.1 hb] at hp ⊢
          exact lt_of_not_ge fun hle => hx ⟨hp, hle⟩

variable {p key} {l l' : List α} {a : α}

theorem lastMax_eq_none : lastMax p key l = none ↔ ∀ a ∈ l, ¬ p a := by
  rw [lastMax]
  rcases foldl_keepMax p key l with ⟨hfold, hnone⟩ | ⟨a, hfold, hmax⟩
  · rw [hfold]
    exact ⟨fun _ => hnone, fun _ => rfl⟩
  · rw [hfold]
    exact ⟨nofun, fun hnone => absurd hmax.holds (hnone a hmax.mem)⟩

theorem isLastMax_of_lastMax (h : lastMax p key l = some a) : IsLastMax p key l a := by
  rw [lastMax] at h
  rcases foldl_keepMax p key l with ⟨hfold, hnone⟩ | ⟨b, hfold, hmax⟩
  · rw [hfold] at h
    cases h
  · rw [hfold] at h
    cases h
    exact hmax

theorem exists_lastMax (key : α → β) (ha : a ∈ l) (hp : p a) : ∃ b, lastMax p key l = some b := by
  rcases h : lastMax p key l with _ | b
  · exact absurd hp (lastMax_eq_none.1 h a ha)
  · exact ⟨b, rfl⟩

theorem lastMax_perm (h : l.Perm l') (hkey : ∀ a ∈ l, ∀ b ∈ l, p a → p b → key a = key b → a = b) :
    lastMax p key l = lastMax p key l' := by
  rcases hl : lastMax p key l with _ | a
  · exact (lastMax_eq_none.2 fun a ha => lastMax_eq_none.1 hl a (h.mem_iff.2 ha)).symm
  have hmax := isLastMax_of_lastMax hl
  obtain ⟨b, hb⟩ := exists_lastMax key (h.mem_iff.1 hmax.mem) hmax.holds
  have hmax' := isLastMax_of_lastMax hb
  have hmem : b ∈ l := h.mem_iff.2 hmax'.mem
  have heq : key a = key b := le_antisymm (hmax'.le (h.mem_iff.1 hmax.mem) hmax.holds) (hmax.le hmem hmax'.holds)
  rw [hb, hkey a hmax.mem b hmem hmax.holds hmax'.holds heq]

end List
