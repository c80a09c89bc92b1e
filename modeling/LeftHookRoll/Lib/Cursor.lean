import Mathlib

/-!
# Parsers that walk a list of tokens

A `Cursor ε τ α` takes tokens from the front of a list and gives an `α` or throws an `ε`. That it leaves an
end of the list is a field, so a loop whose body starts with a token terminates (`loop`). `Steps` is what a
loop does that returns. `UniqueReading` is about the way back, from values to their tokens.
-/

/-- A parser: what it gives, with the tokens that are left. -/
structure Cursor (ε τ α : Type) where
  run : List τ → Except ε (α × List τ)
  suffix : ∀ {ts rest : List τ} {a : α}, run ts = .ok (a, rest) → rest <:+ ts

namespace Cursor

variable {ε τ σ α β : Type}

def lift (r : Except ε α) : Cursor ε τ α where
  run ts := r.map fun a => (a, ts)
  suffix h := by
    rcases r with e | a
    · cases h
    · cases h
      exact List.suffix_rfl

instance : Monad (Cursor ε τ) where
  pure a := lift (.ok a)
  bind m f :=
    { run := fun ts =>
        match m.run ts with
        | .error e => .error e
        | .ok (a, rest) => (f a).run rest
      suffix := by
        intro ts rest b h
        split at h
        · cases h
        · rename_i hm
          exact ((f _).suffix h).trans (m.suffix hm) }

instance : MonadExceptOf ε (Cursor ε τ) where
  throw e := lift (.error e)
  tryCatch m h :=
    { run := fun ts =>
        match m.run ts with
        | .error e => (h e).run ts
        | .ok r => .ok r
      suffix := by
        intro ts rest b hr
        split at hr
        · exact (h _).suffix hr
        · rename_i hm
          cases hr
          exact m.suffix hm }

/-- Take a token; `eof` says that there is none. -/
def next (eof : ε) : Cursor ε τ τ where
  run
    | [] => .error eof
    | t :: ts => .ok (t, ts)
  suffix := by
    intro ts rest t h
    rcases ts with _ | ⟨t, ts⟩
    · cases h
    · cases h
      exact List.suffix_cons _ _

/-- The next token, if there is one. -/
def peek? : Cursor ε τ (Option τ) where
  run ts := .ok (ts.head?, ts)
  suffix h := by
    cases h
    exact List.suffix_rfl

/-! ### Runs -/

section Runs

variable {m : Cursor ε τ α} {f : α → Cursor ε τ β} {ts rest : List τ} {b : β}

@[simp] theorem run_pure (a : α) (ts : List τ) : (pure a : Cursor ε τ α).run ts = .ok (a, ts) := rfl

@[simp] theorem run_throw (e : ε) (ts : List τ) : (throw e : Cursor ε τ α).run ts = .error e := rfl

@[simp] theorem run_lift_ok (a : α) (ts : List τ) : (lift (.ok a) : Cursor ε τ α).run ts = .ok (a, ts) := rfl

@[simp] theorem run_lift_error (e : ε) (ts : List τ) : (lift (.error e) : Cursor ε τ α).run ts = .error e := rfl

@[simp] theorem run_next_cons (eof : ε) (t : τ) (ts : List τ) : (next eof).run (t :: ts) = .ok (t, ts) := rfl

@[simp] theorem run_peek? (ts : List τ) : (peek? : Cursor ε τ (Option τ)).run ts = .ok (ts.head?, ts) := rfl

theorem run_bind : (m >>= f).run ts = match m.run ts with
    | .error e => .error e
    | .ok (a, rest) => (f a).run rest := rfl

theorem bind_ok {a : α} {mid : List τ} (h : m.run ts = .ok (a, mid)) : (m >>= f).run ts = (f a).run mid := by
  rw [run_bind, h]

theorem bind_error {e : ε} (h : m.run ts = .error e) : (m >>= f).run ts = .error e := by
  rw [run_bind, h]

theorem bind_eq_ok :
    (m >>= f).run ts = .ok (b, rest) ↔ ∃ a mid, m.run ts = .ok (a, mid) ∧ (f a).run mid = .ok (b, rest) := by
  rcases h : m.run ts with e | ⟨a, mid⟩
  · rw [bind_error h]
    simp
  · rw [bind_ok h]
    simp

theorem next_eq_ok {eof : ε} {t : τ} : (next eof).run ts = .ok (t, rest) ↔ ts = t :: rest := by
  rcases ts with _ | ⟨t', ts⟩
  · simp [next]
  · simp [next]

theorem lift_eq_ok {r : Except ε α} {a : α} : (lift r : Cursor ε τ α).run ts = .ok (a, rest) ↔ r = .ok a ∧ rest = ts := by
  rcases r with e | a'
  · simp
  · simp [eq_comm]

end Runs

/-! ### Loops -/

/-- `while (!atEnd && !stop(peek))`, with a body that takes the next token first. -/
def loopRun (stop : τ → Bool) (body : τ → σ → Cursor ε τ σ) (s : σ) : List τ → Except ε (σ × List τ)
  | [] => .ok (s, [])
  | t :: ts =>
    if stop t then .ok (s, t :: ts)
    else
      match _ : (body t s).run ts with
      | .error e => .error e
      | .ok (s', rest) => loopRun stop body s' rest
termination_by ts => ts.length
decreasing_by
  have := ((body t s).suffix ‹_›).length_le
  rw [List.length_cons]
  omega

/-- What a loop does that returns. -/
inductive Steps (stop : τ → Bool) (body : τ → σ → Cursor ε τ σ) : σ → List τ → σ → List τ → Prop
  | nil (s : σ) : Steps stop body s [] s []
  | stop {t : τ} (h : stop t) (s : σ) (ts : List τ) : Steps stop body s (t :: ts) s (t :: ts)
  | step {t : τ} {s s' s'' : σ} {ts mid rest : List τ} (h : stop t = false) (hbody : (body t s).run ts = .ok (s', mid))
      (hrest : Steps stop body s' mid s'' rest) : Steps stop body s (t :: ts) s'' rest

variable {stop : τ → Bool} {body : τ → σ → Cursor ε τ σ} {s s' : σ} {ts rest : List τ}

theorem loopRun_of_steps (h : Steps stop body s ts s' rest) : loopRun stop body s ts = .ok (s', rest) := by
  induction h with
  | nil s => rw [loopRun]
  | stop ht s ts => rw [loopRun, if_pos ht]
  | step ht hbody _ ih =>
    rw [loopRun, if_neg (by simp [ht])]
    split
    · rename_i hr
      rw [hbody] at hr
      cases hr
    · rename_i hr
      rw [hbody] at hr
      cases hr
      exact ih

theorem steps_of_loopRun (h : loopRun stop body s ts = .ok (s', rest)) : Steps stop body s ts s' rest := by
  induction hn : ts.length using Nat.strongRecOn generalizing s ts with
  | ind n ih =>
    subst hn
    rcases ts with _ | ⟨t, ts⟩
    · rw [loopRun] at h
      cases h
      exact .nil _
    rw [loopRun] at h
    split at h
    · cases h
      exact .stop ‹_› _ ts
    · rename_i ht
      split at h
      · cases h
      · rename_i s₁ mid hbody
        have hle := ((body t s).suffix hbody).length_le
        exact .step (by simpa using ht) hbody (ih mid.length (by rw [List.length_cons]; omega) h rfl)

theorem Steps.suffix (h : Steps stop body s ts s' rest) : rest <:+ ts := by
  induction h with
  | nil => exact List.suffix_rfl
  | stop => exact List.suffix_rfl
  | step _ hbody _ ih => exact (ih.trans ((body _ _).suffix hbody)).trans (List.suffix_cons _ _)

def loop (stop : τ → Bool) (body : τ → σ → Cursor ε τ σ) (s : σ) : Cursor ε τ σ where
  run := loopRun stop body s
  suffix h := (steps_of_loopRun h).suffix

theorem loop_eq_ok : (loop stop body s).run ts = .ok (s', rest) ↔ Steps stop body s ts s' rest :=
  ⟨steps_of_loopRun, loopRun_of_steps⟩

/-! ### Readings -/

section UniqueReading

variable {τ α : Type} {tokens : α → List τ} {P : α → Prop} {xs ys : List α} {s s' : List τ}

/-- At most one value that satisfies `P` can be read off the front of a token list. -/
def UniqueReading (tokens : α → List τ) (P : α → Prop) : Prop :=
  ∀ x y, P x → P y → ∀ s s', tokens x ++ s = tokens y ++ s' → x = y ∧ s = s'

/-- Values up to a token that none of them starts with. -/
theorem UniqueReading.until (h : UniqueReading tokens P) {z : τ} (hstart : ∀ x, P x → ∃ t r, tokens x = t :: r ∧ t ≠ z)
    (hx : ∀ x ∈ xs, P x) (hy : ∀ y ∈ ys, P y) (heq : xs.flatMap tokens ++ z :: s = ys.flatMap tokens ++ z :: s') :
    xs = ys ∧ s = s' := by
  induction xs generalizing ys with
  | nil =>
    rcases ys with _ | ⟨y, ys⟩
    · exact ⟨rfl, (List.cons.inj heq).2⟩
    · obtain ⟨t, r, ht, hne⟩ := hstart y (hy y List.mem_cons_self)
      rw [List.flatMap_cons, ht] at heq
      exact absurd (List.cons.inj heq).1 hne.symm
  | cons x xs ih =>
    rcases ys with _ | ⟨y, ys⟩
    · obtain ⟨t, r, ht, hne⟩ := hstart x (hx x List.mem_cons_self)
      rw [List.flatMap_cons, ht] at heq
      exact absurd (List.cons.inj heq).1 hne
    · rw [List.flatMap_cons, List.flatMap_cons, List.append_assoc, List.append_assoc] at heq
      obtain ⟨rfl, hrest⟩ := h x y (hx x List.mem_cons_self) (hy y List.mem_cons_self) _ _ heq
      obtain ⟨rfl, hs⟩ := ih (fun a ha => hx a (List.mem_cons_of_mem _ ha)) (fun a ha => hy a (List.mem_cons_of_mem _ ha))
        hrest
      exact ⟨rfl, hs⟩

/-- Values up to the end. -/
theorem UniqueReading.all (h : UniqueReading tokens P) (hne : ∀ x, P x → tokens x ≠ [])
    (hx : ∀ x ∈ xs, P x) (hy : ∀ y ∈ ys, P y) (heq : xs.flatMap tokens = ys.flatMap tokens) : xs = ys := by
  induction xs generalizing ys with
  | nil =>
    rcases ys with _ | ⟨y, ys⟩
    · rfl
    · rw [List.flatMap_nil, List.flatMap_cons] at heq
      exact absurd (List.append_eq_nil_iff.1 heq.symm).1 (hne y (hy y List.mem_cons_self))
  | cons x xs ih =>
    rcases ys with _ | ⟨y, ys⟩
    · rw [List.flatMap_nil, List.flatMap_cons] at heq
      exact absurd (List.append_eq_nil_iff.1 heq).1 (hne x (hx x List.mem_cons_self))
    · rw [List.flatMap_cons, List.flatMap_cons] at heq
      obtain ⟨rfl, hrest⟩ := h x y (hx x List.mem_cons_self) (hy y List.mem_cons_self) _ _ heq
      rw [ih (fun a ha => hx a (List.mem_cons_of_mem _ ha)) (fun a ha => hy a (List.mem_cons_of_mem _ ha)) hrest]

/-- What stands before the first `a`. -/
theorem append_cons_unique {a : τ} {l l' : List τ} (h : a ∉ l) (h' : a ∉ l') (heq : l ++ a :: s = l' ++ a :: s') :
    l = l' ∧ s = s' := by
  induction l generalizing l' with
  | nil =>
    rcases l' with _ | ⟨b, l'⟩
    · exact ⟨rfl, (List.cons.inj heq).2⟩
    · rw [List.mem_cons, not_or] at h'
      exact absurd (List.cons.inj heq).1 h'.1
  | cons b l ih =>
    rw [List.mem_cons, not_or] at h
    rcases l' with _ | ⟨b', l'⟩
    · exact absurd (List.cons.inj heq).1 (Ne.symm h.1)
    · obtain ⟨rfl, hrest⟩ := List.cons.inj heq
      obtain ⟨rfl, hs⟩ := ih h.2 (fun hm => h' (List.mem_cons_of_mem _ hm)) hrest
      exact ⟨rfl, hs⟩

end UniqueReading

end Cursor
