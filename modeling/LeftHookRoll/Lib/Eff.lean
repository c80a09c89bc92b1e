import Mathlib

/-!
# Stateful computations that may throw

`Eff ε σ α` is code over the state `σ` that returns an `α` or throws an `ε`. A throw keeps the
updates made before it, as an exception does in an imperative language. `Eff.on` runs a method of a
part on the whole object: the state is a pair of the object at hand and of what all objects share.
`Eff.Moves R m` says that every run of `m`, normal or not, moves the state along the preorder `R`;
its rules follow the structure of the code.
-/

/-- Code over the state `σ` that may throw `ε`; the updates made before a throw stay. -/
def Eff (ε σ α : Type) : Type := σ → Except ε α × σ

namespace Eff

variable {ε σ τ ω α β : Type}

instance : Monad (Eff ε σ) where
  pure a s := (.ok a, s)
  bind m f s :=
    match m s with
    | (.ok a, s') => f a s'
    | (.error e, s') => (.error e, s')

instance : MonadExceptOf ε (Eff ε σ) where
  throw e s := (.error e, s)
  tryCatch m h s :=
    match m s with
    | (.ok a, s') => (.ok a, s')
    | (.error e, s') => h e s'

/-- The object the code belongs to. -/
def obj : Eff ε (σ × ω) σ := fun s => (.ok s.1, s)

/-- What all objects share. -/
def world : Eff ε (σ × ω) ω := fun s => (.ok s.2, s)

def modObj (f : σ → σ) : Eff ε (σ × ω) Unit := fun s => (.ok (), f s.1, s.2)

def modWorld (f : ω → ω) : Eff ε (σ × ω) Unit := fun s => (.ok (), s.1, f s.2)

/-- Run a method of a part of the object. -/
def on (get : σ → τ) (set : τ → σ → σ) (m : Eff ε (τ × ω) α) : Eff ε (σ × ω) α := fun s =>
  let r := m (get s.1, s.2)
  (r.1, set r.2.1 s.1, r.2.2)

@[simp] theorem pure_apply (a : α) (s : σ) : (pure a : Eff ε σ α) s = (.ok a, s) := rfl

theorem bind_apply (m : Eff ε σ α) (f : α → Eff ε σ β) (s : σ) :
    (m >>= f) s = match m s with
      | (.ok a, s') => f a s'
      | (.error e, s') => (.error e, s') := rfl

theorem bind_ok {m : Eff ε σ α} {f : α → Eff ε σ β} {s s' : σ} {a : α} (h : m s = (.ok a, s')) :
    (m >>= f) s = f a s' := by
  rw [bind_apply, h]

theorem bind_error {m : Eff ε σ α} {f : α → Eff ε σ β} {s s' : σ} {e : ε}
    (h : m s = (.error e, s')) : (m >>= f) s = (.error e, s') := by
  rw [bind_apply, h]

@[simp] theorem throw_apply (e : ε) (s : σ) : (throw e : Eff ε σ α) s = (.error e, s) := rfl

theorem tryCatch_apply (m : Eff ε σ α) (h : ε → Eff ε σ α) (s : σ) :
    (tryCatch m h : Eff ε σ α) s = match m s with
      | (.ok a, s') => (.ok a, s')
      | (.error e, s') => h e s' := rfl

theorem tryCatch_ok {m : Eff ε σ α} {h : ε → Eff ε σ α} {s s' : σ} {a : α} (hm : m s = (.ok a, s')) :
    (tryCatch m h : Eff ε σ α) s = (.ok a, s') := by
  rw [tryCatch_apply, hm]

@[simp] theorem obj_bind (f : σ → Eff ε (σ × ω) β) (s : σ × ω) : (obj >>= f) s = f s.1 s := rfl

@[simp] theorem world_bind (f : ω → Eff ε (σ × ω) β) (s : σ × ω) : (world >>= f) s = f s.2 s := rfl

@[simp] theorem modObj_apply (f : σ → σ) (s : σ × ω) :
    (modObj f : Eff ε (σ × ω) Unit) s = (.ok (), f s.1, s.2) := rfl

@[simp] theorem modWorld_apply (f : ω → ω) (s : σ × ω) :
    (modWorld f : Eff ε (σ × ω) Unit) s = (.ok (), s.1, f s.2) := rfl

@[simp] theorem modObj_bind (f : σ → σ) (k : Unit → Eff ε (σ × ω) β) (s : σ × ω) :
    (modObj f >>= k) s = k () (f s.1, s.2) := rfl

@[simp] theorem modWorld_bind (f : ω → ω) (k : Unit → Eff ε (σ × ω) β) (s : σ × ω) :
    (modWorld f >>= k) s = k () (s.1, f s.2) := rfl

@[simp] theorem pure_bind_apply (a : α) (f : α → Eff ε σ β) (s : σ) :
    ((pure a : Eff ε σ α) >>= f) s = f a s := rfl

@[simp] theorem throw_bind_apply (e : ε) (f : α → Eff ε σ β) (s : σ) :
    ((throw e : Eff ε σ α) >>= f) s = (.error e, s) := rfl

theorem on_apply (get : σ → τ) (set : τ → σ → σ) (m : Eff ε (τ × ω) α) (s : σ × ω) :
    on get set m s = ((m (get s.1, s.2)).1, set (m (get s.1, s.2)).2.1 s.1,
      (m (get s.1, s.2)).2.2) := rfl

theorem on_eq {get : σ → τ} {set : τ → σ → σ} {m : Eff ε (τ × ω) α} {s : σ × ω}
    {r : Except ε α} {t : τ} {w : ω} (h : m (get s.1, s.2) = (r, t, w)) :
    on get set m s = (r, set t s.1, w) := by
  rw [on_apply, h]

theorem bind_eq_ok {m : Eff ε σ α} {f : α → Eff ε σ β} {s s' : σ} {b : β} :
    (m >>= f) s = (.ok b, s') ↔ ∃ a t, m s = (.ok a, t) ∧ f a t = (.ok b, s') := by
  rw [bind_apply]
  rcases h : m s with ⟨e | a, t⟩
  · simp
  · constructor
    · intro hf
      exact ⟨a, t, rfl, hf⟩
    · rintro ⟨a', t', heq, hf⟩
      cases heq
      exact hf

theorem on_eq_ok {get : σ → τ} {set : τ → σ → σ} {m : Eff ε (τ × ω) α} {s s' : σ × ω} {a : α} :
    on get set m s = (.ok a, s') ↔
      ∃ t, m (get s.1, s.2) = (.ok a, t) ∧ s' = (set t.1 s.1, t.2) := by
  rw [on_apply]
  rcases h : m (get s.1, s.2) with ⟨e | b, t⟩
  · simp
  · constructor
    · intro heq
      cases heq
      exact ⟨t, rfl, rfl⟩
    · rintro ⟨t', heq, rfl⟩
      cases heq
      rfl

/-! ### Code that always throws -/

def Raises (m : Eff ε σ α) : Prop := ∀ s a s', m s ≠ (.ok a, s')

theorem Raises.throw (e : ε) : Raises (throw e : Eff ε σ α) := fun _ _ _ h => by cases h

theorem Raises.bind {m : Eff ε σ α} {f : α → Eff ε σ β} (hf : ∀ a, Raises (f a)) : Raises (m >>= f) := by
  intro s b s' h
  obtain ⟨a, t, -, hb⟩ := bind_eq_ok.1 h
  exact hf a t b s' hb

theorem Raises.throw_bind {e : ε} {f : α → Eff ε σ β} : Raises (MonadExcept.throw e >>= f) :=
  fun _ _ _ h => by cases h

theorem Raises.ite {p : Prop} [Decidable p] {m m' : Eff ε σ α} (h : Raises m) (h' : Raises m') :
    Raises (if p then m else m') := by
  split
  · exact h
  · exact h'

/-! ### What every run does to the state -/

def Moves (R : σ → σ → Prop) (m : Eff ε σ α) : Prop := ∀ s, R s (m s).2

/-- A relation on what all objects share. -/
def OnWorld (Q : ω → ω → Prop) (s s' : σ × ω) : Prop := Q s.2 s'.2

instance (Q : ω → ω → Prop) [IsPreorder ω Q] : IsPreorder (σ × ω) (OnWorld Q) where
  refl s := refl_of Q s.2
  trans _ _ _ h h' := trans_of Q h h'

/-- A relation on a part of the object and on what all objects share. -/
def OnPart (get : σ → τ) (R : τ × ω → τ × ω → Prop) (s s' : σ × ω) : Prop := R (get s.1, s.2) (get s'.1, s'.2)

instance (get : σ → τ) (R : τ × ω → τ × ω → Prop) [IsPreorder (τ × ω) R] :
    IsPreorder (σ × ω) (OnPart get R) where
  refl s := refl_of R (get s.1, s.2)
  trans _ _ _ h h' := trans_of R h h'

/-- Once `P` holds it stays. -/
def Keeping (P : σ → Prop) (s s' : σ) : Prop := P s → P s'

instance (P : σ → Prop) : IsPreorder σ (Keeping P) where
  refl _ h := h
  trans _ _ _ h h' hp := h' (h hp)

section Moves

variable {R R' : σ → σ → Prop} {m : Eff ε σ α}

theorem Moves.mono (hm : Moves R m) (h : ∀ s s', R s s' → R' s s') : Moves R' m := fun s => h _ _ (hm s)

theorem Moves.of_ok (hm : Moves R m) {s s' : σ} {a : α} (h : m s = (.ok a, s')) : R s s' := by
  have := hm s
  rwa [h] at this

theorem Moves.of_error (hm : Moves R m) {s s' : σ} {e : ε} (h : m s = (.error e, s')) : R s s' := by
  have := hm s
  rwa [h] at this

theorem Moves.ite {p : Prop} [Decidable p] {m' : Eff ε σ α} (h : p → Moves R m) (h' : ¬ p → Moves R m') :
    Moves R (if p then m else m') := by
  split
  · exact h ‹_›
  · exact h' ‹_›

variable [IsPreorder σ R]

theorem Moves.pure (a : α) : Moves R (pure a : Eff ε σ α) := fun s => refl_of R s

theorem Moves.throw (e : ε) : Moves R (throw e : Eff ε σ α) := fun s => refl_of R s

theorem bind_along {f : α → Eff ε σ β} {s : σ} (hm : R s (m s).2) (hf : ∀ a, Moves R (f a)) :
    R s ((m >>= f) s).2 := by
  rw [bind_apply]
  rcases heq : m s with ⟨e | a, t⟩ <;> rw [heq] at hm
  · exact hm
  · exact trans_of R hm (hf a t)

theorem tryCatch_along {h : ε → Eff ε σ α} {s : σ} (hm : R s (m s).2) (hh : ∀ e, Moves R (h e)) :
    R s ((MonadExcept.tryCatch m h : Eff ε σ α) s).2 := by
  rw [tryCatch_apply]
  rcases heq : m s with ⟨e | a, t⟩ <;> rw [heq] at hm
  · exact trans_of R hm (hh e t)
  · exact hm

theorem Moves.bind {f : α → Eff ε σ β} (hm : Moves R m) (hf : ∀ a, Moves R (f a)) : Moves R (m >>= f) :=
  fun s => bind_along (hm s) hf

theorem Moves.tryCatch {h : ε → Eff ε σ α} (hm : Moves R m) (hh : ∀ e, Moves R (h e)) :
    Moves R (MonadExcept.tryCatch m h) := fun s => tryCatch_along (hm s) hh

end Moves

section MovesOn

variable {R : σ × ω → σ × ω → Prop}

theorem Moves.modObj {f : σ → σ} (h : ∀ s, R s (f s.1, s.2)) :
    Moves R (modObj f : Eff ε (σ × ω) Unit) := h

theorem Moves.on {T : τ × ω → τ × ω → Prop} {get : σ → τ} {set : τ → σ → σ} {m : Eff ε (τ × ω) α}
    (hm : Moves T m) (h : ∀ s t, T (get s.1, s.2) t → R s (set t.1 s.1, t.2)) :
    Moves R (Eff.on get set m) := fun s => h s _ (hm _)

theorem Moves.onPart {T : τ × ω → τ × ω → Prop} {get : σ → τ} {set : τ → σ → σ} {m : Eff ε (τ × ω) α}
    (hm : Moves T m) (h : ∀ t s, get (set t s) = t) : Moves (OnPart get T) (Eff.on get set m) := by
  refine hm.on fun s t ht => ?_
  rw [OnPart, h]
  exact ht

theorem Moves.onWorld {Q : ω → ω → Prop} {get : σ → τ} {set : τ → σ → σ} {m : Eff ε (τ × ω) α}
    (hm : Moves (OnWorld Q) m) : Moves (OnWorld Q) (Eff.on get set m) := fun s => hm (get s.1, s.2)

theorem Moves.obj_bind {f : σ → Eff ε (σ × ω) α} (h : ∀ s, R s (f s.1 s).2) : Moves R (Eff.obj >>= f) := h

theorem Moves.modObj_onWorld (Q : ω → ω → Prop) [IsPreorder ω Q] (f : σ → σ) :
    Moves (OnWorld Q) (Eff.modObj f : Eff ε (σ × ω) Unit) := fun s => refl_of Q s.2

theorem Moves.modWorld_onWorld {Q : ω → ω → Prop} {f : ω → ω} (h : ∀ w, Q w (f w)) :
    Moves (OnWorld Q) (Eff.modWorld f : Eff ε (σ × ω) Unit) := fun s => h s.2

variable [IsPreorder (σ × ω) R]

theorem Moves.obj : Moves R (obj : Eff ε (σ × ω) σ) := fun s => refl_of R s

theorem Moves.world : Moves R (world : Eff ε (σ × ω) ω) := fun s => refl_of R s

end MovesOn

end Eff
