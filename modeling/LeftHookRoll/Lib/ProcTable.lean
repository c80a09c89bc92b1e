import Mathlib

/-!
# Processes, as one parent sees them

A `ProcTable` says which process numbers are in use, and by what: a child of the parent that was not
waited for, forked for some owner, or a process of somebody else. `Drift fresh` is what happens while
the parent makes no call: children exit, other processes come and go, and a new one gets a free number
that `fresh` admits. A wait takes an exited child off the table and frees its number.
-/

inductive Proc (ι : Type*)
  | child (owner : ι) (exited : Bool)
  | foreign

/-- The process that has a number. -/
abbrev ProcTable (ι : Type*) := Nat → Option (Proc ι)

namespace ProcTable

variable {ι : Type*} {fresh : Nat → Prop} {T T' T'' : ProcTable ι} {i : ι} {p q : Nat}

/-- A child that was not waited for. -/
def IsChild (T : ProcTable ι) (p : Nat) : Prop := ∃ i e, T p = some (.child i e)

/-- The number is free or that of a child forked for `i`. -/
def Owns (T : ProcTable ι) (i : ι) (p : Nat) : Prop := ∀ x, T p = some x → ∃ e, x = .child i e

inductive Change (fresh : Nat → Prop) (T : ProcTable ι) : ProcTable ι → Prop
  | exit {p : Nat} {i : ι} (h : T p = some (.child i false)) :
      Change fresh T (Function.update T p (some (.child i true)))
  | start {p : Nat} (h : T p = none) (hp : fresh p) : Change fresh T (Function.update T p (some .foreign))
  | finish {p : Nat} (h : T p = some .foreign) : Change fresh T (Function.update T p none)

/-- What happens between two calls of the parent. -/
def Drift (fresh : Nat → Prop) : ProcTable ι → ProcTable ι → Prop := Relation.ReflTransGen (Change fresh)

theorem Change.child_iff (h : Change fresh T T') (i : ι) (p : Nat) :
    (∃ e, T' p = some (.child i e)) ↔ ∃ e, T p = some (.child i e) := by
  cases h with
  | @exit q j hq =>
    by_cases hp : p = q
    · subst hp
      simp [hq]
    · rw [Function.update_of_ne hp]
  | @start q hq _ =>
    by_cases hp : p = q
    · subst hp
      simp [hq]
    · rw [Function.update_of_ne hp]
  | @finish q hq =>
    by_cases hp : p = q
    · subst hp
      simp [hq]
    · rw [Function.update_of_ne hp]

theorem Drift.child_iff (h : Drift fresh T T') (i : ι) (p : Nat) :
    (∃ e, T' p = some (.child i e)) ↔ ∃ e, T p = some (.child i e) := by
  induction h with
  | refl => rfl
  | tail _ hlast ih => rw [hlast.child_iff, ih]

/-- Children neither come nor go between two calls. -/
theorem Drift.isChild_iff (h : Drift fresh T T') : T'.IsChild p ↔ T.IsChild p := by
  unfold IsChild
  exact exists_congr fun i => h.child_iff i p

theorem Change.owns (h : Change fresh T T') (hp : ¬ fresh p) (ho : T.Owns i p) : T'.Owns i p := by
  cases h with
  | @exit q j hq =>
    intro x hx
    by_cases hpq : p = q
    · subst hpq
      rw [Function.update_self] at hx
      obtain ⟨e, he⟩ := ho _ hq
      cases hx
      cases he
      exact ⟨true, rfl⟩
    · rw [Function.update_of_ne hpq] at hx
      exact ho x hx
  | @start q hq hfresh =>
    intro x hx
    have hpq : p ≠ q := fun heq => hp (heq ▸ hfresh)
    rw [Function.update_of_ne hpq] at hx
    exact ho x hx
  | @finish q hq =>
    intro x hx
    by_cases hpq : p = q
    · subst hpq
      rw [Function.update_self] at hx
      cases hx
    · rw [Function.update_of_ne hpq] at hx
      exact ho x hx

theorem Drift.owns (h : Drift fresh T T') (hp : ¬ fresh p) (ho : T.Owns i p) : T'.Owns i p := by
  induction h with
  | refl => exact ho
  | tail _ hlast ih => exact hlast.owns hp ih

/-! ### Waiting -/

/-- What a wait that does not block says of `p`: whether it has exited; nothing if it is no child. -/
def poll (T : ProcTable ι) (p : Nat) : Option Bool :=
  match T p with
  | some (.child _ exited) => some exited
  | _ => none

/-- An exited child is taken off the table. -/
def afterPoll (T : ProcTable ι) (p : Nat) : ProcTable ι :=
  if T.poll p = some true then Function.update T p none else T

/-- A wait that blocks: it returns when the number is not that of a running child, and takes an exited one off. -/
inductive Wait (fresh : Nat → Prop) (T : ProcTable ι) (p : Nat) : ProcTable ι → Prop
  | returns {T' : ProcTable ι} (h : T.Drift fresh T') (hdone : T'.poll p ≠ some false) : Wait fresh T p (T'.afterPoll p)

theorem isChild_of_update_none (h : IsChild (Function.update T q none) p) : p ≠ q ∧ T.IsChild p := by
  obtain ⟨i, e, h⟩ := h
  by_cases hpq : p = q
  · subst hpq
    rw [Function.update_self] at h
    cases h
  · rw [Function.update_of_ne hpq] at h
    exact ⟨hpq, i, e, h⟩

/-- A child that is still there after a poll of its number runs. -/
theorem isChild_afterPoll (h : (T.afterPoll q).IsChild p) : T.IsChild p ∧ (p = q → T.poll p = some false) := by
  unfold afterPoll at h
  split at h
  · obtain ⟨hpq, hchild⟩ := isChild_of_update_none h
    exact ⟨hchild, fun heq => absurd heq hpq⟩
  · rename_i hpoll
    refine ⟨h, fun heq => ?_⟩
    obtain ⟨i, e, he⟩ := h
    have hp : T.poll p = some e := by rw [poll, he]
    cases e with
    | false => exact hp
    | true => exact absurd (heq ▸ hp) hpoll

theorem Wait.isChild (h : Wait fresh T q T') (hp : T'.IsChild p) : p ≠ q ∧ T.IsChild p := by
  cases h with
  | returns hdrift hdone =>
    obtain ⟨hchild, hruns⟩ := isChild_afterPoll hp
    exact ⟨fun heq => hdone (heq ▸ hruns heq), hdrift.isChild_iff.1 hchild⟩

theorem owns_update_none (h : T.Owns i p) : Owns (Function.update T q none) i p := by
  intro x hx
  by_cases hpq : p = q
  · subst hpq
    rw [Function.update_self] at hx
    cases hx
  · rw [Function.update_of_ne hpq] at hx
    exact h x hx

theorem owns_afterPoll (h : T.Owns i p) : (T.afterPoll q).Owns i p := by
  unfold afterPoll
  split
  · exact owns_update_none h
  · exact h

theorem Wait.owns (h : Wait fresh T q T') (hp : ¬ fresh p) (ho : T.Owns i p) : T'.Owns i p := by
  cases h with
  | returns hdrift _ => exact owns_afterPoll (hdrift.owns hp ho)

/-- A child that exits, as one does that was killed, ends the wait for it. -/
theorem wait_exit {e : Bool} (h : T p = some (.child i e)) : Wait fresh T p (Function.update T p none) := by
  have hexited : Wait fresh T p (afterPoll (Function.update T p (some (.child i true))) p) := by
    refine .returns ?_ (by simp [poll])
    cases e with
    | false => exact .single (.exit h)
    | true =>
      rw [← h, Function.update_eq_self]
      exact .refl
  have hafter : afterPoll (Function.update T p (some (.child i true))) p = Function.update T p none := by
    rw [afterPoll, if_pos (by simp [poll]), Function.update_idem]
  exact hafter ▸ hexited

end ProcTable
