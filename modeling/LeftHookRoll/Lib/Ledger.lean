import Mathlib

/-!
# Ledgers of what is taken and given back

A ledger is a list of events, latest first, some of which take a thing and some of which give one back. In a
`Sound` ledger nothing is taken twice and nothing is given back that is not held: for each thing there are as
many events of one kind as of the other, but for one if it is still held.
-/

namespace Ledger

variable {ε α : Type} [DecidableEq α]

section Defs

variable (takes gives : ε → Option α)

/-- The thing was taken and not given back since. -/
def held : List ε → α → Bool
  | [], _ => false
  | e :: log, a => takes e = some a || gives e ≠ some a && held log a

/-- The event can take place after the others: it takes a thing that is free, or gives back one that is held. -/
structure Allowed (log : List ε) (e : ε) : Prop where
  free : ∀ a, takes e = some a → held takes gives log a = false ∧ gives e ≠ some a
  taken : ∀ a, gives e = some a → held takes gives log a = true

def Sound : List ε → Prop
  | [] => True
  | e :: log => Allowed takes gives log e ∧ Sound log

end Defs

variable {takes gives : ε → Option α} {log : List ε}

theorem held_cons_of_take {e : ε} {a b : α} (h : takes e = some a) (hgive : gives e = none) :
    held takes gives (e :: log) b = (decide (b = a) || held takes gives log b) := by
  simp only [held, h, hgive, Option.some.injEq, eq_comm (a := b), ne_eq, reduceCtorEq, not_false_eq_true, decide_true, Bool.true_and]

theorem held_cons_of_give {e : ε} {a b : α} (h : gives e = some a) (htake : takes e = none) :
    held takes gives (e :: log) b = (decide (b ≠ a) && held takes gives log b) := by
  simp only [held, h, htake, Option.some.injEq, eq_comm (a := b), ne_eq, reduceCtorEq, decide_false, Bool.false_or]

theorem held_cons_of_none {e : ε} (b : α) (htake : takes e = none) (hgive : gives e = none) :
    held takes gives (e :: log) b = held takes gives log b := by
  simp [held, htake, hgive]

/-- What is taken is given back, or held. -/
theorem Sound.balance (h : Sound takes gives log) (a : α) :
    log.countP (fun e => takes e = some a) = log.countP (fun e => gives e = some a) + (held takes gives log a).toNat := by
  induction log with
  | nil => rfl
  | cons e log ih =>
    obtain ⟨⟨hfree, htaken⟩, hlog⟩ := h
    have hbalance := ih hlog
    rw [List.countP_cons, List.countP_cons]
    by_cases htake : takes e = some a
    · obtain ⟨hheld, hgive⟩ := hfree a htake
      rw [hheld] at hbalance
      simpa [held, htake, hgive] using hbalance
    by_cases hgive : gives e = some a
    · rw [htaken a hgive] at hbalance
      simpa [held, htake, hgive] using hbalance
    · simpa [held, htake, hgive] using hbalance

end Ledger
