import LeftHookRoll.Lib.Keeps

/-!
# Triples for code that may throw

`Triple P m Q E`: from a state that meets `P`, a normal end of `m` meets `Q` and an exception leaves a state that
meets `E`. The rules are those of Hoare logic; `Returns` asks nothing of exceptions.
-/

namespace Eff

variable {ε σ τ ω α β : Type}

def Triple (P : σ → Prop) (m : Eff ε σ α) (Q : α → σ → Prop) (E : ε → σ → Prop) : Prop :=
  ∀ s, P s → match m s with
    | (.ok a, t) => Q a t
    | (.error e, t) => E e t

/-- Nothing is asked of exceptions. -/
abbrev Returns (P : σ → Prop) (m : Eff ε σ α) (Q : α → σ → Prop) : Prop := Triple P m Q fun _ _ => True

section Rules

variable {P P' : σ → Prop} {Q Q' : α → σ → Prop} {E E' : ε → σ → Prop} {m : Eff ε σ α}

theorem Triple.ok (h : Triple P m Q E) {s t : σ} {a : α} (hs : P s) (hrun : m s = (.ok a, t)) : Q a t := by
  have := h s hs
  rwa [hrun] at this

theorem Triple.error (h : Triple P m Q E) {s t : σ} {e : ε} (hs : P s) (hrun : m s = (.error e, t)) : E e t := by
  have := h s hs
  rwa [hrun] at this

theorem Triple.of_runs (hok : ∀ s t a, P s → m s = (.ok a, t) → Q a t) (herror : ∀ s t e, P s → m s = (.error e, t) → E e t) :
    Triple P m Q E := by
  intro s hs
  rcases hrun : m s with ⟨e | a, t⟩
  · exact herror s t e hs hrun
  · exact hok s t a hs hrun

theorem Triple.conseq (h : Triple P m Q E) (hP : ∀ s, P' s → P s) (hQ : ∀ a s, Q a s → Q' a s) (hE : ∀ e s, E e s → E' e s) :
    Triple P' m Q' E' :=
  .of_runs (fun _ _ _ hs hrun => hQ _ _ (h.ok (hP _ hs) hrun)) fun _ _ _ hs hrun => hE _ _ (h.error (hP _ hs) hrun)

theorem Triple.pre (h : Triple P m Q E) (hP : ∀ s, P' s → P s) : Triple P' m Q E :=
  h.conseq hP (fun _ _ h => h) fun _ _ h => h

theorem Triple.post (h : Triple P m Q E) (hQ : ∀ a s, Q a s → Q' a s) : Triple P m Q' E :=
  h.conseq (fun _ h => h) hQ fun _ _ h => h

/-- A fact that does not speak of the state. -/
theorem Triple.lift {p : Prop} (h : p → Triple P m Q E) : Triple (fun s => P s ∧ p) m Q E := fun s hs => h hs.2 s hs.1

/-- What holds once stays. -/
theorem Triple.of_keeping (h : Moves (Keeping P) m) : Triple P m (fun _ => P) fun _ => P :=
  .of_runs (fun _ _ _ hs hrun => h.of_ok hrun hs) fun _ _ _ hs hrun => h.of_error hrun hs

theorem Triple.pure {a : α} (h : ∀ s, P s → Q a s) : Triple P (pure a : Eff ε σ α) Q E := h

theorem Triple.throw {e : ε} (h : ∀ s, P s → E e s) : Triple P (throw e : Eff ε σ α) Q E := h

theorem Triple.bind {B : β → σ → Prop} {f : α → Eff ε σ β} (hm : Triple P m Q E) (hf : ∀ a, Triple (Q a) (f a) B E) :
    Triple P (m >>= f) B E := by
  intro s hs
  rw [bind_apply]
  have := hm s hs
  rcases hrun : m s with ⟨e | a, t⟩ <;> rw [hrun] at this
  · exact this
  · exact hf a t this

theorem Triple.ite {p : Prop} [Decidable p] {m' : Eff ε σ α} (h : p → Triple P m Q E) (h' : ¬ p → Triple P m' Q E) :
    Triple P (if p then m else m') Q E := by
  split
  · exact h ‹_›
  · exact h' ‹_›

theorem Triple.tryCatch {h : ε → Eff ε σ α} (hm : Triple P m Q E) (hh : ∀ e, Triple (E e) (h e) Q E') :
    Triple P (MonadExcept.tryCatch m h) Q E' := by
  intro s hs
  rw [tryCatch_apply]
  have := hm s hs
  rcases hrun : m s with ⟨e | a, t⟩ <;> rw [hrun] at this
  · exact hh e t this
  · exact this

end Rules

section RulesOn

variable {P : σ × ω → Prop} {E : ε → σ × ω → Prop}

theorem Triple.modObj {Q : σ × ω → Prop} {f : σ → σ} (h : ∀ s, P s → Q (f s.1, s.2)) :
    Triple P (modObj f : Eff ε (σ × ω) Unit) (fun _ => Q) E := h

theorem Triple.modWorld {Q : σ × ω → Prop} {f : ω → ω} (h : ∀ s, P s → Q (s.1, f s.2)) :
    Triple P (modWorld f : Eff ε (σ × ω) Unit) (fun _ => Q) E := h

theorem Triple.obj_bind {Q : α → σ × ω → Prop} {f : σ → Eff ε (σ × ω) α}
    (h : ∀ x, Triple (fun s => P s ∧ s.1 = x) (f x) Q E) : Triple P (obj >>= f) Q E :=
  fun s hs => h s.1 s ⟨hs, rfl⟩

theorem Triple.world_bind {Q : α → σ × ω → Prop} {f : ω → Eff ε (σ × ω) α}
    (h : ∀ w, Triple (fun s => P s ∧ s.2 = w) (f w) Q E) : Triple P (world >>= f) Q E :=
  fun s hs => h s.2 s ⟨hs, rfl⟩

/-- A method of a part; what is known of the rest of the object is kept by `set`. -/
theorem Triple.on {J : τ × ω → Prop} {B : α → τ × ω → Prop} {F : ε → τ × ω → Prop} {Q : α → σ × ω → Prop}
    {get : σ → τ} {set : τ → σ → σ} {m : Eff ε (τ × ω) α} (hm : Triple J m B F) (hget : ∀ s, P s → J (get s.1, s.2))
    (hok : ∀ s a t, P s → B a t → Q a (set t.1 s.1, t.2)) (herror : ∀ s e t, P s → F e t → E e (set t.1 s.1, t.2)) :
    Triple P (Eff.on get set m) Q E := by
  intro s hs
  rw [on_apply]
  have := hm (get s.1, s.2) (hget s hs)
  rcases hrun : m (get s.1, s.2) with ⟨e | a, t⟩ <;> rw [hrun] at this
  · exact herror s e t hs this
  · exact hok s a t hs this

end RulesOn

end Eff
