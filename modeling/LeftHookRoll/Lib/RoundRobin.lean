import Mathlib

/-!
# A queue that is served in turns

A call takes the head off the queue, and puts it back at the end if it goes on waiting. Entries may be left
in the queue of those that do not wait any more. When nobody joins who is still in the queue, everybody
who waits is in it once (`Move.once_iff`), and then between two calls of one everybody else who waits has
exactly one (`exactly_one_call`).
-/

namespace RoundRobin

/-- The queue, and who waits. -/
structure Line (α : Type*) where
  queue : List α
  waits : α → Prop

variable {α : Type*} {l l' : Line α} {a b : α} {c : Option α}

/-- What can happen to a queue, and who is called. -/
inductive Move : Option α → Line α → Line α → Prop
  | still {l l' : Line α} (hq : l'.queue = l.queue) (hw : ∀ b, l'.waits b → l.waits b) : Move none l l'
  /-- An entry that was left is passed over. -/
  | skip {l l' : Line α} (a : α) (hq : l.queue = a :: l'.queue) (ha : ¬ l.waits a)
      (hw : ∀ b, l'.waits b → l.waits b) : Move none l l'
  | join {l l' : Line α} (a : α) (hq : l'.queue = l.queue ++ [a]) (ha : ¬ l.waits a)
      (ha' : l'.waits a) (hw : ∀ b, b ≠ a → l'.waits b → l.waits b) : Move none l l'
  | again {l l' : Line α} (a : α) (q : List α) (hq : l.queue = a :: q) (hq' : l'.queue = q ++ [a])
      (hw : ∀ b, l'.waits b → l.waits b) : Move (some a) l l'
  | leave {l l' : Line α} (a : α) (hq : l.queue = a :: l'.queue) (ha : ¬ l'.waits a)
      (hw : ∀ b, l'.waits b → l.waits b) : Move (some a) l l'

section Once

variable [DecidableEq α]

def Once (l : Line α) : Prop := ∀ a, l.waits a → l.queue.count a = 1

/-- Nobody who comes to wait is still in the queue. -/
def Unqueued (l l' : Line α) : Prop := ∀ a, ¬ l.waits a → l'.waits a → a ∉ l.queue

theorem Move.once_iff (h : Move c l l') (hl : Once l) : Once l' ↔ Unqueued l l' := by
  cases h with
  | still hq hw =>
    refine iff_of_true (fun b hb => ?_) fun b hb hb' => absurd (hw b hb') hb
    rw [hq, hl b (hw b hb)]
  | skip a hq ha hw =>
    refine iff_of_true (fun b hb => ?_) fun b hb hb' => absurd (hw b hb') hb
    have hcount := hl b (hw b hb)
    rwa [hq, List.count_cons_of_ne fun hab => ha (by rw [hab]; exact hw b hb)] at hcount
  | again a q hq hq' hw =>
    refine iff_of_true (fun b hb => ?_) fun b hb hb' => absurd (hw b hb') hb
    have hcount := hl b (hw b hb)
    rw [hq, List.count_cons] at hcount
    rw [hq', List.count_append, List.count_singleton, hcount]
  | leave a hq ha hw =>
    refine iff_of_true (fun b hb => ?_) fun b hb hb' => absurd (hw b hb') hb
    have hcount := hl b (hw b hb)
    rwa [hq, List.count_cons_of_ne fun hab => ha (by rw [hab]; exact hb)] at hcount
  | join a hq ha ha' hw =>
    constructor
    · intro hl' b hb hb'
      have hba : b = a := by
        by_contra hne
        exact hb (hw b hne hb')
      have hcount := hl' b hb'
      rw [hq, hba, List.count_append, List.count_singleton_self] at hcount
      rw [hba]
      exact List.count_eq_zero.1 (by omega)
    · intro hnew b hb
      rw [hq, List.count_append]
      by_cases hba : b = a
      · rw [hba, List.count_singleton_self, List.count_eq_zero.2 (hnew a ha ha')]
      · rw [List.count_singleton, if_neg (by simpa using Ne.symm hba), hl b (hw b hba hb)]

end Once

section Pair

variable [DecidableEq α]

/-- The order of two in the queue. -/
def pair (a b : α) (l : Line α) : List α := l.queue.filter fun x => x = a ∨ x = b

theorem pair_eq (hne : a ≠ b) (hl : Once l) (ha : l.waits a) (hb : l.waits b) :
    pair a b l = [a, b] ∨ pair a b l = [b, a] := by
  have hperm : (pair a b l).Perm [a, b] := by
    refine List.perm_iff_count.2 fun x => ?_
    by_cases hx : x = a ∨ x = b
    · rw [pair, List.count_filter (by simpa using hx)]
      rcases hx with rfl | rfl
      · rw [hl x ha, List.count_cons_self, List.count_singleton, if_neg (by simpa using hne.symm)]
      · rw [hl x hb, List.count_cons_of_ne hne, List.count_singleton_self]
    · rw [List.count_eq_zero.2 fun hmem => hx (by simpa using (List.mem_filter.1 hmem).2),
        List.count_eq_zero.2 fun hmem => hx (by simpa using hmem)]
  obtain ⟨x, y, hxy⟩ := List.length_eq_two.1 hperm.length_eq
  rw [hxy] at hperm ⊢
  have hmem (z : α) : (z = x ∨ z = y) ↔ z = a ∨ z = b := by simpa using hperm.mem_iff (a := z)
  rcases (hmem x).1 (.inl rfl) with rfl | rfl
  · rcases (hmem b).2 (.inr rfl) with h | rfl
    · exact absurd h.symm hne
    · exact .inl rfl
  · rcases (hmem a).2 (.inl rfl) with h | rfl
    · exact absurd h hne
    · exact .inr rfl

/-- A call of another does not touch the order of the two. -/
theorem Move.pair_of_ne (h : Move c l l') (hca : c ≠ some a) (hcb : c ≠ some b) (ha : l.waits a) (hb : l.waits b)
    (ha' : l'.waits a) (hb' : l'.waits b) : pair a b l' = pair a b l := by
  have hother {x : α} (hxa : x ≠ a) (hxb : x ≠ b) (q : List α) :
      (x :: q).filter (fun x => x = a ∨ x = b) = q.filter fun x => x = a ∨ x = b :=
    List.filter_cons_of_neg (by simp [hxa, hxb])
  rw [pair, pair]
  cases h with
  | still hq => rw [hq]
  | skip x hq hx =>
    have hxa : x ≠ a := fun h => hx (h ▸ ha)
    have hxb : x ≠ b := fun h => hx (h ▸ hb)
    rw [hq, hother hxa hxb]
  | join x hq hx =>
    have hxa : x ≠ a := fun h => hx (h ▸ ha)
    have hxb : x ≠ b := fun h => hx (h ▸ hb)
    rw [hq, List.filter_append, hother hxa hxb, List.filter_nil, List.append_nil]
  | again x q hq hq' =>
    have hxa : x ≠ a := fun h => hca (h ▸ rfl)
    have hxb : x ≠ b := fun h => hcb (h ▸ rfl)
    rw [hq, hq', List.filter_append, hother hxa hxb, hother hxa hxb, List.filter_nil, List.append_nil]
  | leave x hq hx =>
    have hxa : x ≠ a := fun h => hx (h ▸ ha')
    have hxb : x ≠ b := fun h => hx (h ▸ hb')
    rw [hq, hother hxa hxb]

/-- Who is called was first. -/
theorem Move.pair_head {x : α} (h : Move (some x) l l') (hx : x = a ∨ x = b) : ∃ rest, pair a b l = x :: rest := by
  have hin (q : List α) : (x :: q).filter (fun x => x = a ∨ x = b) = x :: q.filter fun x => x = a ∨ x = b :=
    List.filter_cons_of_pos (by simpa using hx)
  cases h with
  | again _ q hq => exact ⟨_, by rw [pair, hq, hin]⟩
  | leave _ hq => exact ⟨_, by rw [pair, hq, hin]⟩

/-- Who is called and goes on waiting is last afterwards. -/
theorem Move.pair_last {x : α} (h : Move (some x) l l') (hx : x = a ∨ x = b) (hx' : l'.waits x) :
    ∃ rest, pair a b l' = rest ++ [x] := by
  cases h with
  | again _ q _ hq' =>
    refine ⟨q.filter fun x => x = a ∨ x = b, ?_⟩
    rw [pair, hq', List.filter_append, List.filter_cons_of_pos (by simpa using hx), List.filter_nil]
  | leave _ _ hno => exact absurd hx' hno

end Pair

section Calls

variable [DecidableEq α] {l : Nat → Line α} {c : Nat → Option α} {i j : Nat}

/-- Between two calls of `a` there is exactly one of everybody else who waits throughout. -/
theorem exactly_one_call (hij : i < j) (hmove : ∀ m, i ≤ m → m ≤ j → Move (c m) (l m) (l (m + 1)))
    (honce : ∀ m, i ≤ m → m ≤ j → Once (l m)) (hne : a ≠ b)
    (hwaits : ∀ m, i ≤ m → m ≤ j → (l m).waits a ∧ (l m).waits b) (hi : c i = some a) (hj : c j = some a)
    (hbetween : ∀ m, i < m → m < j → c m ≠ some a) : ∃! m, (i < m ∧ m < j) ∧ c m = some b := by
  have hlast {x y z : α} {rest : List α} (h : [x, y] = rest ++ [z]) : y = z := by
    have := congrArg List.getLast? h
    simpa using this
  have hpair (m : Nat) (him : i ≤ m) (hmj : m ≤ j) := pair_eq hne (honce m him hmj) (hwaits m him hmj).1 (hwaits m him hmj).2
  -- `b` is first until it is called, then `a` is
  have horder : ∀ m, i < m → m ≤ j →
      (pair a b (l m) = [b, a] ∧ ∀ n, i < n → n < m → c n ≠ some b) ∨
      (pair a b (l m) = [a, b] ∧ ∃ n, (i < n ∧ n < m ∧ c n = some b) ∧ ∀ n', i < n' → n' < m → c n' = some b → n' = n) := by
    intro m him
    induction m, him using Nat.le_induction with
    | base =>
      intro hmj
      have hcall := hmove i le_rfl (by omega)
      rw [hi] at hcall
      obtain ⟨rest, hrest⟩ := hcall.pair_last (.inl rfl) (hwaits (i + 1) (by omega) hmj).1
      refine .inl ⟨(hpair (i + 1) (by omega) hmj).resolve_left fun hab => ?_, fun n _ _ => by omega⟩
      exact hne (hlast (hab.symm.trans hrest)).symm
    | succ m him ih =>
      intro hmj
      have hcall := hmove m (by omega) (by omega)
      have hw := hwaits m (by omega) (by omega)
      have hw' := hwaits (m + 1) (by omega) hmj
      by_cases hb : c m = some b
      · rw [hb] at hcall
        obtain ⟨rest, hhead⟩ := @Move.pair_head _ _ _ a b _ _ hcall (.inr rfl)
        obtain ⟨rest', hrest'⟩ := @Move.pair_last _ _ _ a b _ _ hcall (.inr rfl) hw'.2
        rcases ih (by omega) with ⟨-, hnone⟩ | ⟨hab, -⟩
        · refine .inr ⟨(hpair (m + 1) (by omega) hmj).resolve_right fun hba => ?_, m, ⟨him, by omega, hb⟩, ?_⟩
          · exact hne (hlast (hba.symm.trans hrest'))
          · intro n' hin hnm hn'
            by_contra hother
            exact hnone n' hin (by omega) hn'
        · rw [hhead] at hab
          cases hab
          exact absurd rfl hne
      · rw [hcall.pair_of_ne (hbetween m him (by omega)) hb hw.1 hw.2 hw'.1 hw'.2]
        rcases ih (by omega) with ⟨hba, hnone⟩ | ⟨hab, n, ⟨hin, hnm, hn⟩, hunique⟩
        · refine .inl ⟨hba, fun n hin hnm => ?_⟩
          rcases Nat.lt_succ_iff_lt_or_eq.1 hnm with hlt | rfl
          · exact hnone n hin hlt
          · exact hb
        · refine .inr ⟨hab, n, ⟨hin, by omega, hn⟩, fun n' hin' hnm' hn' => ?_⟩
          rcases Nat.lt_succ_iff_lt_or_eq.1 hnm' with hlt | rfl
          · exact hunique n' hin' hlt hn'
          · exact absurd hn' hb
  rcases horder j hij le_rfl with ⟨hba, -⟩ | ⟨-, n, ⟨hin, hnj, hn⟩, hunique⟩
  · have hcall := hmove j hij.le le_rfl
    rw [hj] at hcall
    obtain ⟨rest, hrest⟩ := @Move.pair_head _ _ _ a b _ _ hcall (.inl rfl)
    rw [hba] at hrest
    cases hrest
    exact absurd rfl hne
  · exact ⟨n, ⟨⟨hin, hnj⟩, hn⟩, fun n' h => hunique n' h.1.1 h.1.2 h.2⟩

end Calls

end RoundRobin
