import LeftHookRoll.DataStoreSpec

/-!
# The `DataStore` operations on every system

Here any system call may fail. `World.Local` is all that the operations do to the world, however they
end. `d.Sound data`: the content of `d` is `data`; an operation that returns has kept the store sound.
-/

namespace LeftHookRoll

open Eff

/-- Only the bookkeeping of system calls and temporary files differs. -/
def World.Local (w w' : World) : Prop :=
  w' = { w with tick := w'.tick, fileCounter := w'.fileCounter, tmp := w'.tmp }

instance : IsPreorder World World.Local where
  refl _ := rfl
  trans _ _ _ h h' := by
    rw [World.Local] at h h' ⊢
    rw [h', h]

theorem moves_sysTick {σ : Type} : Moves (OnWorld World.Local) (sysTick : Method σ Nat) := fun _ => rfl

namespace DataStore

variable (sys : Sys)

theorem moves_fdWrite (data : Bytes) : Moves (OnWorld World.Local) (fdWrite sys data) := by
  refine moves_sysTick.bind fun t => Moves.obj.bind fun d => ?_
  split
  · exact (Moves.modObj_onWorld _ _).bind fun _ => Moves.pure _
  · exact Moves.pure _

theorem moves_writeAll (data : Bytes) : Moves (OnWorld World.Local) (writeAll sys data) := by
  induction data using writeAll.induct with
  | case1 =>
    rw [writeAll]
    exact Moves.pure _
  | case2 b data ih =>
    rw [writeAll]
    refine (moves_fdWrite sys _).bind fun got => ?_
    rcases got with _ | _ | k
    · exact Moves.throw _
    · exact Moves.throw _
    · exact ih k

theorem moves_tryTempNames (tmp : Finset Nat) (c : Nat) :
    Moves (OnWorld World.Local) (tryTempNames sys tmp c) := by
  induction c using tryTempNames.induct tmp with
  | case1 c ih =>
    rw [tryTempNames]
    refine moves_sysTick.bind fun t => Moves.bind (Moves.modWorld_onWorld fun _ => rfl) fun _ => ?_
    refine Moves.ite (fun ht => ?_) fun _ => Moves.throw _
    split
    · exact ih ‹_›
    · exact Moves.pure _

theorem moves_generateTempFileName : Moves (OnWorld World.Local) (generateTempFileName sys) := by
  refine Moves.world.bind fun w => (moves_tryTempNames sys _ _).bind fun c => ?_
  exact Moves.bind (Moves.modWorld_onWorld fun _ => rfl) fun _ => Moves.modObj_onWorld _ _

theorem moves_switchToFileMode : Moves (OnWorld World.Local) (switchToFileMode sys) := by
  refine Moves.obj.bind fun d => Moves.ite (fun _ => Moves.pure _) fun _ => ?_
  refine (moves_generateTempFileName sys).bind fun _ => Moves.obj.bind fun d => ?_
  refine (Moves.tryCatch (moves_writeAll sys _) fun e => ?_).bind fun _ => Moves.modObj_onWorld _ _
  exact (Moves.modObj_onWorld _ _).bind fun _ => Moves.throw _

theorem moves_append (data : Bytes) : Moves (OnWorld World.Local) (append sys data) := by
  refine Moves.ite (fun _ => Moves.pure _) fun _ => Moves.obj.bind fun d => Moves.ite (fun _ => ?_) fun _ => ?_
  · refine Moves.ite (fun _ => ?_) fun _ => Moves.modObj_onWorld _ _
    refine (moves_switchToFileMode sys).bind fun _ => (moves_writeAll sys _).bind fun _ => ?_
    exact Moves.modObj_onWorld _ _
  · exact (moves_writeAll sys _).bind fun _ => Moves.modObj_onWorld _ _

theorem moves_clear : Moves (OnWorld World.Local) clear := by
  refine Moves.obj.bind fun d => (Moves.modObj_onWorld _ _).bind fun _ => ?_
  split
  · exact Moves.bind (Moves.modWorld_onWorld fun _ => rfl) fun _ => Moves.modObj_onWorld _ _
  · exact Moves.pure _

theorem moves_readLoop (n : Nat) : Moves (OnWorld World.Local) (readLoop sys n) := by
  intro s
  obtain ⟨r, f, t, hr, -⟩ := readLoop_frame sys n s.1 s.2
  rw [OnWorld, hr]
  rfl

theorem moves_read (n : Nat) : Moves (OnWorld World.Local) (read sys n) := by
  refine Moves.obj.bind fun d => Moves.ite (fun _ => Moves.pure _) fun _ => Moves.ite (fun _ => ?_) fun _ => ?_
  · exact (Moves.modObj_onWorld _ _).bind fun _ => Moves.pure _
  · exact (moves_readLoop sys _).bind fun _ => (Moves.modObj_onWorld _ _).bind fun _ => Moves.pure _

theorem moves_resetReadPosition : Moves (OnWorld World.Local) (resetReadPosition sys) := by
  refine (Moves.modObj_onWorld _ _).bind fun _ => Moves.obj.bind fun d => ?_
  refine Moves.ite (fun _ => ?_) fun _ => Moves.pure _
  refine moves_sysTick.bind fun t => Moves.world.bind fun w => Moves.ite (fun _ => ?_) fun _ => ?_
  · exact Moves.modObj_onWorld _ _
  · exact (Moves.modObj_onWorld _ _).bind fun _ => Moves.throw _

theorem moves_copyLoop (src : Bytes) (n : Nat) : Moves (OnWorld World.Local) (copyLoop sys src n) := by
  induction n using Nat.strong_induction_on generalizing src with
  | _ n ih =>
    rw [copyLoop]
    split
    · exact Moves.pure _
    refine moves_sysTick.bind fun t => ?_
    rcases hk : sys.readTmp t (min 8192 n) with _ | k
    · exact Moves.throw _
    simp only
    split
    · exact Moves.throw _
    · rename_i hn hgot
      refine (moves_writeAll sys _).bind fun _ => ih _ ?_ _
      exact Nat.sub_lt (Nat.pos_of_ne_zero hn) (List.length_pos_iff.2 hgot)

theorem moves_copyFdContents (other : DataStore) (n : Nat) :
    Moves (OnWorld World.Local) (copyFdContents sys other n) := by
  refine moves_sysTick.bind fun t => Moves.world.bind fun w => ?_
  exact Moves.ite (fun _ => moves_copyLoop sys _ _) fun _ => Moves.throw _

theorem moves_copy (other : DataStore) : Moves (OnWorld World.Local) (copy sys other) := by
  refine (Moves.modObj_onWorld _ _).bind fun _ => Moves.ite (fun _ => Moves.modObj_onWorld _ _) fun _ => ?_
  refine (Moves.modObj_onWorld _ _).bind fun _ => (moves_switchToFileMode sys).bind fun _ => ?_
  refine Moves.tryCatch (Moves.ite (fun _ => moves_copyFdContents sys _ _) fun _ => Moves.pure _) fun e => ?_
  exact (Moves.modObj_onWorld _ _).bind fun _ => Moves.throw _

theorem moves_assign (other : DataStore) : Moves (OnWorld World.Local) (assign sys other) := by
  intro s
  have h := moves_copy sys other ({}, s.2)
  rw [OnWorld, assign]
  rcases hc : copy sys other ({}, s.2) with ⟨e | a, d, w⟩ <;> rw [hc] at h
  · exact h
  · exact trans_of World.Local h (moves_clear (s.1, w))

/-! ### What an operation that returns has done -/

variable {sys} {d d' : DataStore} {w w' : World} {data x : Bytes}

/-- The content is `data`, and a file is open. -/
structure Sound (d : DataStore) (data : Bytes) : Prop where
  size : d.currentSize = data.length
  ram : d.mode = .RAM → d.dataBuffer = data
  file : d.mode = .FILE_MODE → d.file = data ∧ d.fileFd.isSome

theorem Holds.sound (h : d.Holds w data) : d.Sound data :=
  ⟨h.size, fun hm => (h.ram hm).1, fun hm => by
    obtain ⟨-, hf, ⟨off, hoff⟩, -⟩ := h.file hm
    exact ⟨hf, by rw [hoff]; rfl⟩⟩

theorem sound_new (d : DataStore) (hm : d.mode = .RAM) (hb : d.dataBuffer = []) (hs : d.currentSize = 0) :
    d.Sound [] := ⟨hs, fun _ => hb, fun hf => by rw [hm] at hf; cases hf⟩

theorem fdWrite_ok {k : Nat} (h : fdWrite sys x (d, w) = (.ok (some k), d', w')) :
    d' = { d with file := d.file ++ x.take k, fileFd := d'.fileFd } ∧ d'.fileFd.isSome := by
  rcases hfd : d.fileFd with _ | off
  · simp [fdWrite, hfd] at h
  rcases hk : sys.writeTmp w.tick x.length with _ | j
  · simp [fdWrite, hk] at h
  simp only [fdWrite, sysTick_bind, Eff.obj_bind, hfd, hk, Eff.modObj_bind, Eff.pure_apply, Prod.mk.injEq,
    Except.ok.injEq, Option.some.injEq] at h
  obtain ⟨rfl, rfl, -⟩ := h
  exact ⟨rfl, rfl⟩

theorem writeAll_ok (h : writeAll sys data (d, w) = (.ok (), d', w')) :
    d' = { d with file := d.file ++ data, fileFd := d'.fileFd } ∧
      (d.fileFd.isSome → d'.fileFd.isSome) := by
  induction data using writeAll.induct generalizing d w with
  | case1 =>
    rw [writeAll] at h
    cases h
    exact ⟨by rw [List.append_nil], id⟩
  | case2 b data ih =>
    rw [writeAll] at h
    obtain ⟨got, ⟨d₁, w₁⟩, hw, hrest⟩ := Eff.bind_eq_ok.1 h
    rcases got with _ | _ | k
    · cases hrest
    · cases hrest
    obtain ⟨h₁, hfd₁⟩ := fdWrite_ok hw
    obtain ⟨h₂, hfd₂⟩ := ih k hrest
    refine ⟨?_, fun _ => hfd₂ hfd₁⟩
    rw [h₂, h₁]
    simp

theorem tryTempNames_obj (tmp : Finset Nat) (c : Nat) (d : DataStore) (w : World) :
    (tryTempNames sys tmp c (d, w)).2.1 = d := by
  induction c using tryTempNames.induct tmp generalizing w with
  | case1 c ih =>
    rw [tryTempNames]
    simp only [sysTick_bind, Eff.modWorld_bind]
    split
    · split
      · exact ih ‹_› _
      · rfl
    · rfl

theorem generateTempFileName_ok (h : generateTempFileName sys (d, w) = (.ok (), d', w')) :
    d' = { d with fileFd := some 0, absolutePath := d'.absolutePath, file := [] } := by
  rw [generateTempFileName, Eff.world_bind] at h
  obtain ⟨c, ⟨d₁, w₁⟩, htry, h⟩ := Eff.bind_eq_ok.1 h
  have hd₁ : d₁ = d := by rw [← @tryTempNames_obj sys w.tmp w.fileCounter d w, htry]
  cases h
  rw [hd₁]

theorem switchToFileMode_ram_ok (h : switchToFileMode sys (d, w) = (.ok (), d', w')) (hm : d.mode = .RAM) :
    d' = { d with
      mode := .FILE_MODE, dataBuffer := [], file := d.dataBuffer, fileFd := d'.fileFd
      absolutePath := d'.absolutePath } ∧ d'.fileFd.isSome := by
  simp only [switchToFileMode, Eff.obj_bind, hm, reduceCtorEq, if_false] at h
  obtain ⟨_, ⟨d₁, w₁⟩, hgen, h⟩ := Eff.bind_eq_ok.1 h
  have hd₁ := generateTempFileName_ok hgen
  rw [Eff.obj_bind] at h
  obtain ⟨_, ⟨d₂, w₂⟩, hwrite, h⟩ := Eff.bind_eq_ok.1 h
  rw [Eff.tryCatch_apply] at hwrite
  split at hwrite
  · rename_i hw
    cases hwrite
    obtain ⟨h₂, hfd₂⟩ := writeAll_ok hw
    have hbuf : d₁.dataBuffer = d.dataBuffer := by rw [hd₁]
    have hfile : d₁.file = [] := by rw [hd₁]
    have hfd : d₁.fileFd.isSome := by rw [hd₁]; rfl
    cases h
    refine ⟨?_, hfd₂ hfd⟩
    rw [h₂, hfile, List.nil_append, hbuf, hd₁]
  · cases hwrite

theorem switchToFileMode_ok (h : switchToFileMode sys (d, w) = (.ok (), d', w')) (hs : d.Sound data) :
    d'.Sound data ∧ d'.mode = .FILE_MODE ∧ d'.currentSize = d.currentSize := by
  rcases d.mode_cases with hm | hm
  · obtain ⟨hd', hfd⟩ := switchToFileMode_ram_ok h hm
    rw [hd'] at hfd ⊢
    exact ⟨⟨hs.size, (nomatch ·), fun _ => ⟨hs.ram hm, hfd⟩⟩, rfl, rfl⟩
  · rw [switchToFileMode_file hm] at h
    cases h
    exact ⟨hs, hm, rfl⟩

theorem append_ok (h : append sys x (d, w) = (.ok (), d', w')) (hs : d.Sound data) :
    d'.Sound (data ++ x) := by
  rw [append] at h
  split at h
  · rename_i hx
    cases h
    rwa [hx, List.append_nil]
  rw [Eff.obj_bind] at h
  -- what both branches that write to a file end with
  have hfile {e e' : DataStore} {v v' : World} (he : e.Sound data) (hm : e.mode = .FILE_MODE)
      (hw : (writeAll sys x >>= fun _ => modObj fun d => { d with currentSize := d.currentSize + x.length })
        (e, v) = (.ok (), e', v')) : e'.Sound (data ++ x) := by
    obtain ⟨_, ⟨e₁, v₁⟩, hw, hset⟩ := Eff.bind_eq_ok.1 hw
    obtain ⟨h₁, hfd₁⟩ := writeAll_ok hw
    obtain ⟨hef, hefd⟩ := he.file hm
    cases hset
    refine ⟨?_, fun hr => ?_, fun _ => ⟨?_, hfd₁ hefd⟩⟩
    · rw [h₁, List.length_append]
      exact congrArg (· + x.length) he.size
    · rw [h₁] at hr
      rw [show e.mode = .RAM from hr] at hm
      cases hm
    · rw [h₁, hef]
  split at h
  · rename_i hm
    split at h
    · obtain ⟨_, ⟨d₁, w₁⟩, hsw, h⟩ := Eff.bind_eq_ok.1 h
      obtain ⟨hs₁, hm₁, -⟩ := switchToFileMode_ok hsw hs
      exact hfile hs₁ hm₁ h
    · cases h
      refine ⟨?_, fun _ => ?_, fun hf => ?_⟩
      · rw [List.length_append, ← hs.size]
      · rw [← hs.ram hm]
      · cases hm.symm.trans hf
  · exact hfile hs (d.mode_cases.resolve_left ‹_›) h

end DataStore

end LeftHookRoll
