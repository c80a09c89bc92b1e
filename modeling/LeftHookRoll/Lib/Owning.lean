import Mathlib

/-!
# Names that are held by one object each

`own i` is the name that the object `i` holds. `Owning base used own`: besides the names of `base`, which
belong to nobody here, exactly the held names are in use, and none is held twice. An object takes a name
that is not in use and gives up the one it holds; a name in use that nobody holds breaks it.
-/

structure Owning {ι ν : Type*} (base used : Finset ν) (own : ι → Option ν) : Prop where
  used_iff : ∀ c, c ∈ used ↔ c ∈ base ∨ ∃ i, own i = some c
  fresh : ∀ i c, own i = some c → c ∉ base
  single : ∀ i j c, own i = some c → own j = some c → i = j

namespace Owning

variable {ι ν : Type*} {base used : Finset ν} {own : ι → Option ν} {i : ι} {c : ν}

theorem empty (base : Finset ν) : Owning base base (fun _ : ι => none) :=
  ⟨fun c => by simp, fun i c h => (nomatch h), fun i j c h => (nomatch h)⟩

theorem mem (h : Owning base used own) (hi : own i = some c) : c ∈ used := (h.used_iff c).2 (.inr ⟨i, hi⟩)

variable [DecidableEq ι] [DecidableEq ν]

theorem take (h : Owning base used own) (hi : own i = none) (hc : c ∉ used) :
    Owning base (insert c used) (Function.update own i (some c)) := by
  have hbase : c ∉ base := fun hb => hc ((h.used_iff c).2 (.inl hb))
  have hheld (j : ι) : own j ≠ some c := fun hj => hc (h.mem hj)
  have hcases {j : ι} {b : ν} (hj : Function.update own i (some c) j = some b) : (j = i ∧ c = b) ∨ (j ≠ i ∧ own j = some b) := by
    by_cases hji : j = i
    · rw [hji, Function.update_self, Option.some.injEq] at hj
      exact .inl ⟨hji, hj⟩
    · rw [Function.update_of_ne hji] at hj
      exact .inr ⟨hji, hj⟩
  refine ⟨fun b => ?_, fun j b hj => ?_, fun j k b hj hk => ?_⟩
  · rw [Finset.mem_insert, h.used_iff b]
    constructor
    · rintro (rfl | hb | ⟨j, hj⟩)
      · exact .inr ⟨i, Function.update_self ..⟩
      · exact .inl hb
      · refine .inr ⟨j, ?_⟩
        rwa [Function.update_of_ne]
        rintro rfl
        rw [hi] at hj
        cases hj
    · rintro (hb | ⟨j, hj⟩)
      · exact .inr (.inl hb)
      · rcases hcases hj with ⟨-, rfl⟩ | ⟨-, hj⟩
        · exact .inl rfl
        · exact .inr (.inr ⟨j, hj⟩)
  · rcases hcases hj with ⟨-, rfl⟩ | ⟨-, hj⟩
    · exact hbase
    · exact h.fresh j b hj
  · rcases hcases hj with ⟨hji, hb⟩ | ⟨-, hj⟩ <;> rcases hcases hk with ⟨hki, hb'⟩ | ⟨-, hk⟩
    · rw [hji, hki]
    · exact absurd (hb ▸ hk) (hheld k)
    · exact absurd (hb' ▸ hj) (hheld j)
    · exact h.single j k b hj hk

theorem give (h : Owning base used own) (hi : own i = some c) :
    Owning base (used.erase c) (Function.update own i none) := by
  have hcases {j : ι} {b : ν} (hj : Function.update own i none j = some b) : j ≠ i ∧ own j = some b := by
    by_cases hji : j = i
    · rw [hji, Function.update_self] at hj
      cases hj
    · rw [Function.update_of_ne hji] at hj
      exact ⟨hji, hj⟩
  refine ⟨fun b => ?_, fun j b hj => h.fresh j b (hcases hj).2,
    fun j k b hj hk => h.single j k b (hcases hj).2 (hcases hk).2⟩
  rw [Finset.mem_erase, h.used_iff b]
  constructor
  · rintro ⟨hbc, hb | ⟨j, hj⟩⟩
    · exact .inl hb
    · refine .inr ⟨j, ?_⟩
      rwa [Function.update_of_ne]
      rintro rfl
      rw [hi] at hj
      exact hbc (Option.some.inj hj).symm
  · rintro (hb | ⟨j, hj⟩)
    · exact ⟨fun hbc => h.fresh i c hi (hbc ▸ hb), .inl hb⟩
    · obtain ⟨hji, hj⟩ := hcases hj
      exact ⟨fun hbc => hji (h.single j i c (hbc ▸ hj) hi), .inr ⟨j, hj⟩⟩

theorem drop (h : Owning base used own) (i : ι) :
    Owning base ((own i).elim used used.erase) (Function.update own i none) := by
  rcases hi : own i with _ | c
  · rw [← hi, Function.update_eq_self, hi]
    exact h
  · exact h.give hi

omit [DecidableEq ι] in
/-- A new name that nobody came to hold is one of the others. -/
theorem leave (h : Owning base used own) (hc : c ∉ used) : Owning (insert c base) (insert c used) own := by
  refine ⟨fun b => ?_, fun j b hj hb => ?_, h.single⟩
  · rw [Finset.mem_insert, Finset.mem_insert, h.used_iff b, or_assoc]
  · rcases Finset.mem_insert.1 hb with rfl | hb
    · exact hc (h.mem hj)
    · exact h.fresh j b hj hb

omit [DecidableEq ι] in
/-- A new name that nobody came to hold. -/
theorem not_left (h : Owning base used own) {own' : ι → Option ν} (hsub : ∀ j b, own' j = some b → own j = some b) (hc : c ∉ used) :
    ¬ Owning base (insert c used) own' := by
  intro h'
  rcases (h'.used_iff c).1 (Finset.mem_insert_self c used) with hb | ⟨j, hj⟩
  · exact hc ((h.used_iff c).2 (.inl hb))
  · exact hc (h.mem (hsub j c hj))

end Owning
