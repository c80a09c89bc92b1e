import Mathlib

/-!
# First occurrence of a pattern

`s.findSub pat` is where `pat` first occurs in `s`. The rules say what a position found means
(`findSub_eq_some_iff`), when there is none (`findSub_eq_none_iff`), and what a longer string does
to it: a hit stays (`findSub_append`), and a string with no hit on its own gets one only across the
join or in what is added.
-/

namespace List

variable {α : Type*} [DecidableEq α]

/-- Position of the first occurrence of `pat` in a list. -/
def findSub : List α → List α → Option Nat
  | [], pat => if pat = [] then some 0 else none
  | a :: s, pat => if pat <+: a :: s then some 0 else (s.findSub pat).map (· + 1)

/-- Position of the last occurrence of `a`. -/
def rfindElem (s : List α) (a : α) : Option Nat :=
  (s.reverse.idxOf? a).map (s.length - 1 - ·)

variable {pat s t : List α} {n : Nat}

theorem drop_length_take {β : Type*} (n : Nat) (s : List β) : s.drop (s.take n).length = s.drop n := by
  rw [length_take]
  rcases Nat.le_total n s.length with h | h
  · rw [Nat.min_eq_left h]
  · rw [Nat.min_eq_right h, drop_length, drop_of_length_le h]

theorem findSub_eq_some_iff :
    s.findSub pat = some n ↔ n ≤ s.length ∧ pat <+: s.drop n ∧ ∀ m < n, ¬ pat <+: s.drop m := by
  induction s generalizing n with
  | nil =>
    rw [findSub]
    constructor
    · intro h
      split at h
      · cases h; simp_all
      · cases h
    · rintro ⟨hn, hp, -⟩
      simp_all
  | cons a s ih =>
    rw [findSub]
    split
    case isTrue hp =>
      constructor
      · rintro ⟨rfl⟩
        exact ⟨by simp, by simpa using hp, fun m hm => absurd hm (by omega)⟩
      · rintro ⟨-, -, hmin⟩
        cases n with
        | zero => rfl
        | succ n => exact absurd (by simpa using hp) (hmin 0 (by omega))
    case isFalse hp =>
      constructor
      · intro h
        obtain ⟨k, hk, rfl⟩ := Option.map_eq_some_iff.1 h
        obtain ⟨hle, hpre, hmin⟩ := ih.1 hk
        refine ⟨by simpa using hle, by simpa using hpre, fun m hm => ?_⟩
        cases m with
        | zero => simpa using hp
        | succ m => simpa using hmin m (by omega)
      · rintro ⟨hle, hpre, hmin⟩
        cases n with
        | zero => exact absurd (by simpa using hpre) hp
        | succ n =>
          refine Option.map_eq_some_iff.2 ⟨n, ih.2 ⟨by simpa using hle, by simpa using hpre, ?_⟩, rfl⟩
          intro m hm
          simpa using hmin (m + 1) (by omega)

theorem findSub_eq_none_iff : s.findSub pat = none ↔ ¬ pat <:+: s := by
  induction s with
  | nil => by_cases h : pat = [] <;> simp [findSub, h]
  | cons a s ih =>
    rw [findSub]
    split
    case isTrue hp => simp [hp.isInfix]
    case isFalse hp => simp [ih, infix_cons_iff, hp]

theorem findSub_isSome_iff : (s.findSub pat).isSome ↔ pat <:+: s := by
  rw [← not_iff_not, ← findSub_eq_none_iff, Bool.not_eq_true, Option.isSome_eq_false_iff,
    Option.isNone_iff_eq_none]

/-- The list around the first occurrence. -/
theorem eq_append_of_findSub (h : s.findSub pat = some n) :
    s = s.take n ++ pat ++ s.drop (n + pat.length) := by
  obtain ⟨-, ⟨t, ht⟩, -⟩ := findSub_eq_some_iff.1 h
  have hd : s.drop (n + pat.length) = t := by rw [← drop_drop, ← ht, drop_left]
  rw [hd, append_assoc, ht, take_append_drop]

theorem findSub_add_le (h : s.findSub pat = some n) : n + pat.length ≤ s.length := by
  have := congrArg length (eq_append_of_findSub h)
  have hle := (findSub_eq_some_iff.1 h).1
  simp only [length_append, length_take, length_drop] at this
  omega

/-- A first occurrence is not moved by what follows. -/
theorem findSub_append (h : s.findSub pat = some n) : (s ++ t).findSub pat = some n := by
  have hlen := findSub_add_le h
  obtain ⟨hle, hpre, hmin⟩ := findSub_eq_some_iff.1 h
  refine findSub_eq_some_iff.2 ⟨by simp; omega, ?_, fun m hm hp => hmin m hm ?_⟩
  · rw [drop_append_of_le_length hle]
    exact hpre.trans (prefix_append _ _)
  · rw [drop_append_of_le_length (by omega)] at hp
    exact prefix_of_prefix_length_le hp (prefix_append _ _) (by simp; omega)

/-- What follows is not needed for a first occurrence that ends before it. -/
theorem findSub_of_append (h : (s ++ t).findSub pat = some n) (hle : n + pat.length ≤ s.length) :
    s.findSub pat = some n := by
  obtain ⟨-, hpre, -⟩ := findSub_eq_some_iff.1 h
  rcases hs : s.findSub pat with _ | m
  · refine absurd ?_ (findSub_eq_none_iff.1 hs)
    rw [drop_append_of_le_length (by omega)] at hpre
    have hin : pat <+: s.drop n :=
      prefix_of_prefix_length_le hpre (prefix_append _ _) (by rw [length_drop]; omega)
    exact hin.isInfix.trans (drop_suffix n s).isInfix
  · rw [← h, findSub_append hs]

/-- A string that ends before the first occurrence does has none. -/
theorem findSub_eq_none_of_append (h : (s ++ t).findSub pat = some n) (hlt : s.length < n + pat.length) :
    s.findSub pat = none := by
  rcases hs : s.findSub pat with _ | m
  · rfl
  · have hle := findSub_add_le hs
    rw [findSub_append hs] at h
    cases h
    omega

/-- Nothing behind the last occurrence. -/
theorem not_mem_drop_of_rfindElem {a : α} (h : s.rfindElem a = some n) : a ∉ s.drop (n + 1) := by
  obtain ⟨i, hi, rfl⟩ := Option.map_eq_some_iff.1 h
  obtain ⟨hlt, -, hfirst⟩ := idxOf?_eq_some_iff.1 hi
  rw [length_reverse] at hlt
  rw [show s.length - 1 - i + 1 = s.length - i by omega, ← mem_reverse, ← take_reverse]
  intro hmem
  obtain ⟨j, hj, hget⟩ := mem_take_iff_getElem.1 hmem
  exact hfirst j (by omega) hget

theorem not_mem_of_rfindElem {a : α} (h : s.rfindElem a = none) : a ∉ s := by
  rw [← mem_reverse]
  exact idxOf?_eq_none_iff.1 (Option.map_eq_none_iff.1 h)

theorem eq_append_of_rfindElem {a : α} (h : s.rfindElem a = some n) : s = s.take n ++ a :: s.drop (n + 1) ∧ n < s.length := by
  obtain ⟨i, hi, rfl⟩ := Option.map_eq_some_iff.1 h
  obtain ⟨hlt, hget, -⟩ := idxOf?_eq_some_iff.1 hi
  rw [length_reverse] at hlt
  have hpos : s.length - 1 - i < s.length := by omega
  rw [getElem_reverse] at hget
  refine ⟨?_, hpos⟩
  conv_lhs => rw [← take_append_drop (s.length - 1 - i) s, drop_eq_getElem_cons hpos, hget]

/-- What cannot start the pattern is passed over. -/
theorem findSub_append_of_not_head {l : List α} (hne : pat ≠ []) (h : ∀ a ∈ l, pat.head? ≠ some a) :
    (l ++ s).findSub pat = (s.findSub pat).map (l.length + ·) := by
  induction l with
  | nil => simp
  | cons a l ih =>
    have hpre : ¬ pat <+: a :: (l ++ s) := by
      intro hp
      obtain ⟨b, pat', rfl⟩ := exists_cons_of_ne_nil hne
      exact h a mem_cons_self (congrArg some (cons_prefix_cons.1 hp).1)
    rw [cons_append, findSub, if_neg hpre, ih fun b hb => h b (mem_cons_of_mem a hb), Option.map_map]
    congr 1
    funext n
    simp only [Function.comp_apply, length_cons]
    omega

/-- Lines that are cut by a separator end at the first double separator. -/
theorem findSub_intercalate {a : α} (ha : a ∉ s) {line : List α} {lines : List (List α)}
    (h : ∀ l ∈ line :: lines, l ≠ [] ∧ a ∉ l) (rest : List α) :
    ((a :: s).intercalate (line :: lines) ++ (a :: s ++ a :: s) ++ rest).findSub (a :: s ++ a :: s) =
      some ((a :: s).intercalate (line :: lines)).length := by
  have hpass (l t : List α) (hl : a ∉ l) :
      (l ++ t).findSub (a :: s ++ a :: s) = (t.findSub (a :: s ++ a :: s)).map (l.length + ·) := by
    refine findSub_append_of_not_head (cons_ne_nil _ _) fun b hb hhead => hl ?_
    cases hhead
    exact hb
  induction lines generalizing line with
  | nil =>
    rw [intercalate_singleton, append_assoc, hpass _ _ (h line mem_cons_self).2]
    have hhere : (a :: s ++ a :: s ++ rest).findSub (a :: s ++ a :: s) = some 0 := by
      show findSub (a :: (s ++ a :: s ++ rest)) _ = _
      rw [findSub, if_pos ⟨rest, rfl⟩]
    rw [hhere]
    rfl
  | cons next lines ih =>
    have hnext := h next (by simp)
    obtain ⟨c, next', rfl⟩ := exists_cons_of_ne_nil hnext.1
    obtain ⟨tail, htail⟩ : ∃ tail, (a :: s).intercalate ((c :: next') :: lines) = c :: tail := by
      rcases lines with _ | ⟨third, lines⟩
      · exact ⟨_, intercalate_singleton⟩
      · rw [intercalate_cons_cons]
        exact ⟨_, rfl⟩
    have hskip (t : List α) : (a :: s ++ c :: t).findSub (a :: s ++ a :: s) =
        ((c :: t).findSub (a :: s ++ a :: s)).map ((a :: s).length + ·) := by
      -- the next line does not start with the separator
      have hnot : ¬ a :: s ++ a :: s <+: a :: (s ++ c :: t) := by
        show ¬ a :: s ++ a :: s <+: a :: s ++ c :: t
        rw [prefix_append_right_inj, cons_prefix_cons]
        rintro ⟨rfl, -⟩
        exact hnext.2 mem_cons_self
      rw [show a :: s ++ c :: t = a :: (s ++ c :: t) from rfl, findSub, if_neg hnot, hpass _ _ ha, Option.map_map]
      congr 1
      funext n
      simp only [Function.comp_apply, length_cons]
      omega
    have ih' := ih fun l hl => h l (mem_cons_of_mem line hl)
    rw [htail] at ih'
    rw [intercalate_cons_cons, htail, append_assoc, append_assoc, append_assoc, hpass _ _ (h line mem_cons_self).2]
    simp only [append_assoc, cons_append] at hskip ih' ⊢
    rw [hskip, ih']
    simp only [Option.map_some, length_append, length_cons]
    congr 1
    omega

theorem idxOf?_append_cons {a : α} {l : List α} (h : a ∉ l) (t : List α) :
    (l ++ a :: t).idxOf? a = some l.length := by
  induction l with
  | nil => simp [idxOf?_cons]
  | cons b l ih =>
    rw [mem_cons, not_or] at h
    rw [cons_append, idxOf?_cons, ih h.2]
    simp [Ne.symm h.1]

theorem not_mem_of_mem_splitOn {a : α} {l part : List α} (h : part ∈ l.splitOn a) : a ∉ part := by
  induction l generalizing part with
  | nil =>
    rw [splitOn_nil, mem_singleton] at h
    rw [h]
    exact not_mem_nil
  | cons x l ih =>
    rw [splitOn_cons_eq_if_modifyHead] at h
    split at h
    · rcases mem_cons.1 h with rfl | h
      · exact not_mem_nil
      · exact ih h
    · rename_i hne
      rcases hl : l.splitOn a with _ | ⟨first, rest⟩
      · exact absurd hl (splitOn_ne_nil a l)
      · rw [hl, modifyHead_cons] at h
        rw [hl] at ih
        rcases mem_cons.1 h with rfl | h
        · rw [mem_cons, not_or]
          exact ⟨fun heq => hne (beq_iff_eq.2 heq.symm), ih mem_cons_self⟩
        · exact ih (mem_cons_of_mem _ h)

end List
