import LeftHookRoll.Lib.Eff

/-!
# Invariants of code that may throw

`Eff.Throws P m`: every exception of `m` meets `P`. `Eff.Leads I P m s`: the run of `m` from `s`, normal or
not, leads to a state that meets `I`, and throws only what meets `P`; `Eff.Keeps I P m`: it does from every
state that meets `I`. The rules follow the structure of the code.
-/

namespace Eff

variable {ε σ τ ω α β : Type}

def Throws (P : ε → Prop) (m : Eff ε σ α) : Prop := ∀ s e t, m s = (.error e, t) → P e

section Throws

variable {P Q : ε → Prop} {m : Eff ε σ α}

theorem Throws.mono (hm : Throws P m) (h : ∀ e, P e → Q e) : Throws Q m := fun s e t ht => h e (hm s e t ht)

theorem Throws.of_ok (h : ∀ s, ∃ a t, m s = (.ok a, t)) : Throws P m := by
  intro s e t ht
  obtain ⟨a, t', hs⟩ := h s
  rw [hs] at ht
  cases ht

theorem Throws.pure (a : α) : Throws P (pure a : Eff ε σ α) := .of_ok fun _ => ⟨_, _, rfl⟩

theorem Throws.throw {e : ε} (h : P e) : Throws P (throw e : Eff ε σ α) := by
  intro s e' t ht
  cases ht
  exact h

theorem Throws.bind {f : α → Eff ε σ β} (hm : Throws P m) (hf : ∀ a, Throws P (f a)) : Throws P (m >>= f) := by
  intro s e t h
  rw [bind_apply] at h
  rcases hrun : m s with ⟨e' | a, s'⟩ <;> rw [hrun] at h
  · cases h
    exact hm s e t hrun
  · exact hf a s' e t h

theorem Throws.ite {p : Prop} [Decidable p] {m' : Eff ε σ α} (h : p → Throws P m) (h' : ¬ p → Throws P m') :
    Throws P (if p then m else m') := by
  split
  · exact h ‹_›
  · exact h' ‹_›

theorem Throws.dite {p : Prop} [Decidable p] {f : p → Eff ε σ α} {g : ¬ p → Eff ε σ α} (h : ∀ hp, Throws P (f hp))
    (h' : ∀ hp, Throws P (g hp)) : Throws P (if hp : p then f hp else g hp) := by
  split
  · exact h _
  · exact h' _

theorem Throws.tryCatch {h : ε → Eff ε σ α} (hm : Throws Q m) (hh : ∀ e, Q e → Throws P (h e)) :
    Throws P (MonadExcept.tryCatch m h) := by
  intro s e t ht
  rw [tryCatch_apply] at ht
  rcases hrun : m s with ⟨e' | a, s'⟩ <;> rw [hrun] at ht
  · exact hh e' (hm s e' s' hrun) s' e t ht
  · cases ht

theorem Throws.obj : Throws P (obj : Eff ε (σ × ω) σ) := .of_ok fun _ => ⟨_, _, rfl⟩

theorem Throws.world : Throws P (world : Eff ε (σ × ω) ω) := .of_ok fun _ => ⟨_, _, rfl⟩

theorem Throws.modObj (f : σ → σ) : Throws P (modObj f : Eff ε (σ × ω) Unit) := .of_ok fun _ => ⟨_, _, rfl⟩

theorem Throws.modWorld (f : ω → ω) : Throws P (modWorld f : Eff ε (σ × ω) Unit) := .of_ok fun _ => ⟨_, _, rfl⟩

theorem Throws.on {get : σ → τ} {set : τ → σ → σ} {m : Eff ε (τ × ω) α} (hm : Throws P m) :
    Throws P (Eff.on get set m) := by
  intro s e t ht
  rcases hrun : m (get s.1, s.2) with ⟨e' | a, t'⟩
  · rw [on_apply, hrun] at ht
    cases ht
    exact hm (get s.1, s.2) e t' hrun
  · rw [on_apply, hrun] at ht
    cases ht

end Throws

def Leads (I : σ → Prop) (P : ε → Prop) (m : Eff ε σ α) (s : σ) : Prop := I (m s).2 ∧ ∀ e t, m s = (.error e, t) → P e

def Keeps (I : σ → Prop) (P : ε → Prop) (m : Eff ε σ α) : Prop := ∀ s, I s → Leads I P m s

section Keeps

variable {I J : σ → Prop} {P Q : ε → Prop} {m : Eff ε σ α}

theorem Keeps.of_ok (hm : Keeps I P m) {s s' : σ} {a : α} (hs : I s) (h : m s = (.ok a, s')) : I s' := by
  have := (hm s hs).1
  rwa [h] at this

theorem Keeps.mono (hm : Keeps I P m) (h : ∀ e, P e → Q e) : Keeps I Q m :=
  fun s hs => ⟨(hm s hs).1, fun e t ht => h e ((hm s hs).2 e t ht)⟩

theorem Keeps.pure (a : α) : Keeps I P (pure a : Eff ε σ α) := fun _ hs => ⟨hs, nofun⟩

theorem Keeps.throw {e : ε} (h : P e) : Keeps I P (throw e : Eff ε σ α) := by
  refine fun s hs => ⟨hs, fun e' t ht => ?_⟩
  cases ht
  exact h

/-- The second part is looked at where the first one ends. -/
theorem Leads.bind_run {f : α → Eff ε σ β} {s : σ} (hm : Leads I P m s)
    (hf : ∀ a t, m s = (.ok a, t) → I t → Leads I P (f a) t) : Leads I P (m >>= f) s := by
  obtain ⟨hstate, hthrown⟩ := hm
  rcases hrun : m s with ⟨e | a, s'⟩ <;> rw [hrun] at hstate
  · rw [Leads, bind_error hrun]
    refine ⟨hstate, fun e' t ht => ?_⟩
    cases ht
    exact hthrown e s' hrun
  · rw [Leads, bind_ok hrun]
    exact hf a s' hrun hstate

theorem Leads.bind {f : α → Eff ε σ β} {s : σ} (hm : Leads I P m s) (hf : ∀ a, Keeps I P (f a)) :
    Leads I P (m >>= f) s := hm.bind_run fun a t _ ht => hf a t ht

theorem Keeps.bind {f : α → Eff ε σ β} (hm : Keeps I P m) (hf : ∀ a, Keeps I P (f a)) : Keeps I P (m >>= f) :=
  fun s hs => (hm s hs).bind hf

/-- The result does not matter. -/
theorem Keeps.of_discard (h : Keeps I P (m >>= fun _ => (Pure.pure () : Eff ε σ Unit))) : Keeps I P m := by
  intro s hs
  have hm := h s hs
  rcases hrun : m s with ⟨e | a, s'⟩
  · rw [Leads, bind_error hrun] at hm
    rw [Leads, hrun]
    exact ⟨hm.1, fun e' t ht => by cases ht; exact hm.2 e s' rfl⟩
  · rw [Leads, bind_ok hrun] at hm
    rw [Leads, hrun]
    exact ⟨hm.1, nofun⟩

theorem Keeps.ite {p : Prop} [Decidable p] {m' : Eff ε σ α} (h : p → Keeps I P m) (h' : ¬ p → Keeps I P m') :
    Keeps I P (if p then m else m') := by
  split
  · exact h ‹_›
  · exact h' ‹_›

theorem Leads.tryCatch {h : ε → Eff ε σ α} {s : σ} (hm : Leads I Q m s) (hh : ∀ e, Q e → Keeps I P (h e)) :
    Leads I P (MonadExcept.tryCatch m h) s := by
  obtain ⟨hstate, hthrown⟩ := hm
  rw [Leads, tryCatch_apply]
  rcases hrun : m s with ⟨e | a, s'⟩ <;> rw [hrun] at hstate
  · exact hh e (hthrown e s' hrun) s' hstate
  · exact ⟨hstate, nofun⟩

theorem Keeps.tryCatch {h : ε → Eff ε σ α} (hm : Keeps I Q m) (hh : ∀ e, Q e → Keeps I P (h e)) :
    Keeps I P (MonadExcept.tryCatch m h) := fun s hs => (hm s hs).tryCatch hh

end Keeps

section KeepsOn

variable {I : σ × ω → Prop} {P : ε → Prop}

theorem Keeps.modObj {f : σ → σ} (h : ∀ s, I s → I (f s.1, s.2)) : Keeps I P (modObj f : Eff ε (σ × ω) Unit) :=
  fun s hs => ⟨h s hs, nofun⟩

theorem Keeps.modWorld {f : ω → ω} (h : ∀ s, I s → I (s.1, f s.2)) : Keeps I P (modWorld f : Eff ε (σ × ω) Unit) :=
  fun s hs => ⟨h s hs, nofun⟩

theorem Keeps.world : Keeps I P (world : Eff ε (σ × ω) ω) := fun _ hs => ⟨hs, nofun⟩

theorem Keeps.obj_bind {f : σ → Eff ε (σ × ω) α} (h : ∀ s, I s → Keeps I P (f s.1)) : Keeps I P (Eff.obj >>= f) :=
  fun s hs => h s hs s hs

/-- A part for which nothing is asked. -/
theorem Keeps.on_of_throws {get : σ → τ} {set : τ → σ → σ} {m : Eff ε (τ × ω) α} (hm : Throws P m)
    (h : ∀ s (t : τ × ω), I s → I (set t.1 s.1, t.2)) : Keeps I P (Eff.on get set m) :=
  fun s hs => ⟨h s _ hs, hm.on s⟩

theorem Leads.on {J : τ × ω → Prop} {get : σ → τ} {set : τ → σ → σ} {m : Eff ε (τ × ω) α} {s : σ × ω}
    (hm : Leads J P m (get s.1, s.2)) (h : ∀ t : τ × ω, J t → I (set t.1 s.1, t.2)) : Leads I P (Eff.on get set m) s := by
  obtain ⟨hpart, hthrown⟩ := hm
  refine ⟨h _ hpart, fun e t ht => ?_⟩
  rcases hrun : m (get s.1, s.2) with ⟨e' | a, t'⟩ <;> rw [on_apply, hrun] at ht <;> cases ht
  exact hthrown e t' hrun

/-- A part that has an invariant of its own. -/
theorem Keeps.on {J : τ × ω → Prop} {get : σ → τ} {set : τ → σ → σ} {m : Eff ε (τ × ω) α} (hm : Keeps J P m)
    (hget : ∀ s, I s → J (get s.1, s.2)) (hset : ∀ s (t : τ × ω), I s → J t → I (set t.1 s.1, t.2)) :
    Keeps I P (Eff.on get set m) := fun s hs => (hm _ (hget s hs)).on fun t ht => hset s t hs ht

end KeepsOn

end Eff
