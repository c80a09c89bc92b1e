import Mathlib

/-!
# A buffer with one read cursor

Data is added at the end and read from a cursor on. `ReadBuffer.Op` are the calls of a user,
`ReadBuffer.run` what the user sees of a sequence of them; an implementation is right when the user
cannot tell it from this.
-/

/-- Data and the position that the next read starts at. -/
structure ReadBuffer (α : Type*) where
  data : List α := []
  cursor : Nat := 0

namespace ReadBuffer

variable {α : Type*}

/-- A call of a user. `settle` stands for one that only changes how the data is kept. -/
inductive Op (α : Type*)
  | append (x : List α)
  | read (n : Nat)
  | rewind
  | settle
  | clear

/-- What a user sees after a call: the data returned, the size and the read position. -/
structure Seen (α : Type*) where
  got : List α
  size : Nat
  position : Nat
deriving DecidableEq

/-- The data returned and the buffer after one call. -/
def step (b : ReadBuffer α) : Op α → List α × ReadBuffer α
  | .append x => ([], { b with data := b.data ++ x })
  | .read n =>
    let got := (b.data.drop b.cursor).take n
    (got, { b with cursor := b.cursor + got.length })
  | .rewind => ([], { b with cursor := 0 })
  | .settle => ([], b)
  | .clear => ([], {})

/-- The data after a call. -/
def Op.onData (data : List α) : Op α → List α
  | .append x => data ++ x
  | .clear => []
  | _ => data

def run : List (Op α) → ReadBuffer α → List (Seen α)
  | [], _ => []
  | op :: ops, b =>
    let r := b.step op
    ⟨r.1, r.2.data.length, r.2.cursor⟩ :: run ops r.2

/-- The cursor is inside the data. -/
def Inside (b : ReadBuffer α) : Prop := b.cursor ≤ b.data.length

theorem Inside.step {b : ReadBuffer α} (h : b.Inside) (op : Op α) : (b.step op).2.Inside := by
  unfold Inside at *
  cases op with
  | append x => simp only [ReadBuffer.step, List.length_append]; omega
  | read n => simp only [ReadBuffer.step, List.length_take, List.length_drop]; omega
  | rewind => exact Nat.zero_le _
  | settle => exact h
  | clear => exact Nat.le_refl 0

theorem read_ne_nil {b : ReadBuffer α} {n : Nat} (hn : 0 < n) (hc : b.cursor < b.data.length) :
    (b.step (.read n)).1 ≠ [] := by
  intro h
  have := congrArg List.length h
  simp only [ReadBuffer.step, List.length_take, List.length_drop, List.length_nil] at this
  omega

end ReadBuffer
