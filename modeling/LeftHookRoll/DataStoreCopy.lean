import LeftHookRoll.DataStoreFrame

/-!
# Copies, and reading on from a position

`assign_spec`: without failures the assigned store holds what the other one held. `Readable` is what a
reader relies on, whatever the system does: the content, and the file offset at the position. A read
that returns gives the bytes at the position (`read_ok`).
-/

namespace LeftHookRoll

open Eff

namespace DataStore

variable {sys : Sys} {d d' other : DataStore} {w w' : World} {data old : Bytes}

theorem copyLoop_eq (hs : sys.NoFail) {src : Bytes} {n : Nat} (hn : n ≤ src.length) {off : Nat}
    (hfd : d.fileFd = some off) :
    ∃ t f, copyLoop sys src n (d, w) =
      (.ok (), { d with file := d.file ++ src.take n, fileFd := some f }, { w with tick := t }) := by
  induction n using Nat.strong_induction_on generalizing d w src off with
  | _ n ih =>
    rw [copyLoop]
    by_cases hzero : n = 0
    · rw [dif_pos hzero]
      exact ⟨w.tick, off, by simp [hzero, ← hfd]⟩
    rw [dif_neg hzero]
    obtain ⟨k, hk⟩ := hs.readTmp w.tick (min 8192 n)
    obtain ⟨m, hm⟩ : ∃ m, m = min (k + 1) (min 8192 n) := ⟨_, rfl⟩
    have hmn : m ≤ n := by omega
    have hlen : (src.take m).length = m := by rw [List.length_take]; omega
    have hne : src.take m ≠ [] := List.ne_nil_of_length_pos (by omega)
    obtain ⟨t₁, hw₁⟩ := writeAll_eq (w := { w with tick := w.tick + 1 }) hs (src.take m) hfd
    obtain ⟨t₂, f, hrest⟩ := ih (n - m) (by omega)
      (d := { d with file := d.file ++ src.take m, fileFd := some (d.file.length + (src.take m).length) })
      (w := { w with tick := t₁ }) (show n - m ≤ (src.drop m).length by rw [List.length_drop]; omega) rfl
    refine ⟨t₂, f, ?_⟩
    simp only [sysTick_bind, hk, ← hm, hne, dite_false]
    rw [if_neg hne, hlen] at hw₁
    rw [hlen] at hrest
    rw [Eff.bind_ok hw₁, hlen]
    refine hrest.trans ?_
    rw [List.append_assoc, ← List.take_add, Nat.add_sub_cancel' hmn]

theorem copyFdContents_eq (hs : sys.NoFail) (h : other.Holds w data) (hm : other.mode = .FILE_MODE) {off : Nat}
    (hfd : d.fileFd = some off) : ∃ t f, copyFdContents sys other other.currentSize (d, w) =
      (.ok (), { d with file := d.file ++ data, fileFd := some f }, { w with tick := t }) := by
  obtain ⟨-, hfile, -, c, hc, hcw⟩ := h.file hm
  obtain ⟨t, f, hcopy⟩ := copyLoop_eq (w := { w with tick := w.tick + 1 }) hs (le_refl data.length) hfd
  refine ⟨t, f, ?_⟩
  rw [copyFdContents, sysTick_bind, Eff.world_bind, if_pos ⟨hs.openTmp _, c, hc, hcw⟩, hfile, h.size]
  rw [List.take_length] at hcopy
  exact hcopy

theorem copy_ram (hm : other.mode = .RAM) (d : DataStore) :
    copy sys other (d, w) = (.ok (),
      { bufferLimit := other.bufferLimit, dataBuffer := other.dataBuffer, currentSize := other.currentSize }, w) := by
  rw [copy, Eff.modObj_bind, if_pos hm, Eff.modObj_apply]

/-- A copy of a store with a file has a file of its own, under a new name. -/
theorem copy_file (hs : sys.NoFail) (h : other.Holds w data) (hm : other.mode = .FILE_MODE) (d : DataStore) :
    ∃ c f w', copy sys other (d, w) = (.ok (),
      { mode := .FILE_MODE, bufferLimit := other.bufferLimit, currentSize := other.currentSize,
        fileFd := some f, absolutePath := some c, file := data }, w') ∧
      w.Quiet w' ∧ c ∈ w'.tmp ∧ c ∉ w.tmp := by
  obtain ⟨c, w₁, hw₁, hc, hnew, hsw⟩ := switchToFileMode_fresh (w := w) hs
    (d := { bufferLimit := other.bufferLimit, currentSize := other.currentSize }) rfl
  have hram : other.mode ≠ .RAM := by rw [hm]; exact (nomatch ·)
  rw [copy, Eff.modObj_bind, if_neg hram, Eff.modObj_bind, Eff.bind_ok hsw]
  by_cases hzero : other.currentSize > 0
  · obtain ⟨t, f, hcopy⟩ := copyFdContents_eq hs (h.mono hw₁.tmp) hm
      (d := { mode := .FILE_MODE, bufferLimit := other.bufferLimit, currentSize := other.currentSize,
              fileFd := some 0, absolutePath := some c }) rfl
    refine ⟨c, f, { w₁ with tick := t }, ?_, hw₁.tick t, hc, hnew⟩
    rw [if_pos hzero]
    exact Eff.tryCatch_ok hcopy
  · have hnil : data = [] := List.eq_nil_of_length_eq_zero (by rw [← h.size]; omega)
    refine ⟨c, 0, w₁, ?_, hw₁, hc, hnew⟩
    rw [if_neg hzero, hnil]
    rfl

theorem assign_of_copy {other₁ : DataStore} {w₁ : World} (h : copy sys other ({}, w) = (.ok (), other₁, w₁)) :
    assign sys other (d, w) = (.ok (), other₁, destroy d w₁) := by
  rw [assign, h]

theorem assign_spec (hs : sys.NoFail) (h : other.Holds w data) (hd : d.Holds w old) :
    ∃ d' w', assign sys other (d, w) = (.ok (), d', w') ∧ d'.Holds w' data ∧ d'.readOffset = 0 := by
  have hdestroy (w₁ : World) : ∃ t, destroy d w₁ = { w₁ with tmp := t } ∧
      ∀ c ∈ w₁.tmp, c ∉ w.tmp → c ∈ t := by
    refine ⟨d.absolutePath.elim w₁.tmp w₁.tmp.erase, by rw [destroy, clear_eq], fun c hc hnew => ?_⟩
    rcases hp : d.absolutePath with _ | c₀
    · exact hc
    · refine Finset.mem_erase.2 ⟨fun heq => hnew ?_, hc⟩
      rcases d.mode_cases with hm | hm
      · rw [(hd.ram hm).2.2] at hp
        cases hp
      · obtain ⟨-, -, -, c₁, hc₁, hcw⟩ := hd.file hm
        rw [hp] at hc₁
        cases hc₁
        rwa [heq]
  rcases other.mode_cases with hm | hm
  · refine ⟨_, _, assign_of_copy (copy_ram hm {}), ⟨h.size, fun _ => ⟨(h.ram hm).1, rfl, rfl⟩, fun hf => ?_⟩, rfl⟩
    cases hf
  · obtain ⟨c, f, w₁, hcopy, -, hc, hnew⟩ := copy_file hs h hm {}
    obtain ⟨t, ht, hkeep⟩ := hdestroy w₁
    refine ⟨_, _, assign_of_copy hcopy, ⟨h.size, fun hr => ?_, fun _ => ?_⟩, rfl⟩
    · cases hr
    · rw [ht]
      exact ⟨rfl, rfl, ⟨f, rfl⟩, c, rfl, hkeep c hc hnew⟩

/-- Reads of the given sizes, one after another. -/
def readAll (sys : Sys) : List Nat → Method DataStore Bytes
  | [] => return []
  | n :: sizes => do return (← read sys n) ++ (← readAll sys sizes)

theorem readAll_seekTo (hs : sys.NoFail) (h : d.Holds w data) (pos : Nat) (sizes : List Nat) :
    ∃ d' w', readAll sys sizes (d.seekTo pos, w) = (.ok ((data.drop pos).take sizes.sum), d', w') := by
  induction sizes generalizing w pos with
  | nil => exact ⟨_, _, by rw [List.sum_nil, List.take_zero]; rfl⟩
  | cons n sizes ih =>
    obtain ⟨t, hread⟩ := read_seekTo hs h pos n
    obtain ⟨got, hgot⟩ : ∃ got, got = (data.drop pos).take n := ⟨_, rfl⟩
    rw [← hgot] at hread
    obtain ⟨d', w', hrest⟩ := ih (w := { w with tick := t }) (h.mono subset_rfl) (pos + got.length)
    refine ⟨d', w', ?_⟩
    rw [readAll, Eff.bind_ok hread, Eff.bind_ok hrest, Eff.pure_apply]
    have hsplit : got ++ (data.drop (pos + got.length)).take sizes.sum = (data.drop pos).take (n + sizes.sum) := by
      rw [List.take_add, ← hgot, ← List.drop_drop, hgot, List.drop_length_take]
    rw [hsplit, List.sum_cons]

/-! ### Reading on, whatever the system does -/

/-- The content is `data`, and the next read starts at `pos`. -/
structure Readable (d : DataStore) (data : Bytes) (pos : Nat) : Prop where
  sound : d.Sound data
  position : d.readOffset = pos
  offset : d.mode = .FILE_MODE → d.fileFd = some pos

theorem fdRead_ok {n off : Nat} {got : Option Bytes} (hfd : d.fileFd = some off)
    (h : fdRead sys n (d, w) = (.ok got, d', w')) : got = none ∨ ∃ k, got = some ((d.file.drop off).take (min (k + 1) n)) ∧
      d' = { d with fileFd := some (off + ((d.file.drop off).take (min (k + 1) n)).length) } := by
  rcases hk : sys.readTmp w.tick n with _ | k
  · simp only [fdRead, sysTick_bind, Eff.obj_bind, hfd, hk] at h
    cases h
    exact .inl rfl
  · simp only [fdRead, sysTick_bind, Eff.obj_bind, hfd, hk] at h
    cases h
    exact .inr ⟨k, rfl, rfl⟩

theorem readLoop_ok {n off : Nat} {got : Bytes} (hfd : d.fileFd = some off)
    (h : readLoop sys n (d, w) = (.ok got, d', w')) :
    got = (d.file.drop off).take n ∧ d' = { d with fileFd := some (off + got.length) } := by
  induction n using Nat.strong_induction_on generalizing d w off got with
  | _ n ih =>
    rw [readLoop] at h
    by_cases hn : n = 0
    · rw [if_pos hn] at h
      cases h
      exact ⟨by simp [hn], by simp [← hfd]⟩
    rw [if_neg hn] at h
    obtain ⟨first, ⟨d₁, w₁⟩, hread, h⟩ := Eff.bind_eq_ok.1 h
    rcases fdRead_ok hfd hread with rfl | ⟨k, rfl, rfl⟩
    · cases h
    obtain ⟨m, hm⟩ : ∃ m, m = min (k + 1) n := ⟨_, rfl⟩
    rw [← hm] at h
    simp only at h
    split at h
    · -- nothing is left after the offset
      rename_i hnil
      cases h
      have hend : d.file.drop off = [] := by
        rcases List.take_eq_nil_iff.1 hnil with h0 | h0
        · omega
        · exact h0
      exact ⟨by rw [hend, List.take_nil], by simp [hend]⟩
    split at h
    · rename_i hfull
      cases h
      have hmn : m = n := by rw [List.length_take] at hfull; omega
      rw [hmn]
      exact ⟨rfl, rfl⟩
    · rename_i hne hshort
      obtain ⟨rest, ⟨d₂, w₂⟩, hrest, h⟩ := Eff.bind_eq_ok.1 h
      have hlen := List.length_pos_iff.2 hne
      obtain ⟨x, hx⟩ : ∃ x, x = d.file.drop off := ⟨_, rfl⟩
      cases h
      rw [← hx] at hlen hshort hrest ⊢
      obtain ⟨hgot, hd₂⟩ := ih (n - (x.take m).length) (by omega) rfl hrest
      rw [show DataStore.file { d with fileFd := some (off + (x.take m).length) } = d.file from rfl,
        ← List.drop_drop, ← hx] at hgot
      have hsplit : x.take m ++ rest = x.take n := by
        obtain ⟨l, hl⟩ : ∃ l, l = (x.take m).length := ⟨_, rfl⟩
        have hm' : x.take m = x.take l := by
          rw [List.take_eq_take_iff, hl, List.length_take]
          omega
        rw [hgot, ← hl, hm', ← List.take_add, Nat.add_sub_cancel' (by omega)]
      refine ⟨hsplit, ?_⟩
      rw [hd₂, List.length_append, Nat.add_assoc]

/-- A read that returns gives what follows the position. -/
theorem read_ok {n pos : Nat} {got : Bytes} (h : read sys n (d, w) = (.ok got, d', w')) (hd : d.Readable data pos) :
    got = (data.drop pos).take n ∧ d'.Readable data (pos + got.length) ∧
      d' = { d with readOffset := d'.readOffset, fileFd := d'.fileFd } := by
  have hsize := hd.sound.size
  have hpos := hd.position
  rw [read, Eff.obj_bind] at h
  split at h
  · rename_i hnone
    cases h
    have hnil : (data.drop pos).take n = [] := by
      rcases hnone with hn | hend
      · rw [hn, List.take_zero]
      · have hend' : d.readOffset ≥ d.currentSize := hend
        rw [List.drop_of_length_le (by omega), List.take_nil]
    rw [hnil]
    exact ⟨rfl, hd, rfl⟩
  have htake : (data.drop pos).take (min n (d.currentSize - d.readOffset)) = (data.drop pos).take n := by
    rw [List.take_eq_take_iff, List.length_drop]
    omega
  split at h
  · rename_i hm
    have hram : d.mode = .RAM := hm
    cases h
    obtain ⟨got, hgot⟩ : ∃ got, got = (data.drop pos).take n := ⟨_, rfl⟩
    have hbuf : (d.dataBuffer.drop d.readOffset).take (min n (d.currentSize - d.readOffset)) = got := by
      rw [hd.sound.ram hram, hpos, hgot, ← htake, hpos]
    have hlen : min n (d.currentSize - d.readOffset) = got.length := by
      rw [hgot, List.length_take, List.length_drop]
      omega
    refine ⟨hbuf.trans hgot, ⟨⟨hd.sound.size, hd.sound.ram, hd.sound.file⟩, ?_, fun hf => ?_⟩, rfl⟩
    · rw [hbuf, ← hlen, ← hpos]
    · exact absurd (hram.symm.trans hf) (by decide)
  · rename_i hm
    have hfile := d.mode_cases.resolve_left hm
    obtain ⟨got', ⟨d₁, w₁⟩, hloop, h⟩ := Eff.bind_eq_ok.1 h
    obtain ⟨hgot, hd₁⟩ := readLoop_ok (hd.offset hfile) hloop
    rw [(hd.sound.file hfile).1] at hgot
    rw [hd₁] at h
    cases h
    refine ⟨hgot.trans htake, ⟨⟨hd.sound.size, fun hr => ?_, fun _ => ⟨(hd.sound.file hfile).1, rfl⟩⟩, ?_, fun _ => rfl⟩, rfl⟩
    · exact absurd (hfile.symm.trans hr) (by decide)
    · exact congrArg (· + got.length) hpos

theorem resetReadPosition_ok (h : resetReadPosition sys (d, w) = (.ok (), d', w')) (hd : d.Sound data) :
    d'.Readable data 0 := by
  rw [resetReadPosition, Eff.modObj_bind, Eff.obj_bind] at h
  split at h
  · rename_i hfile
    rw [sysTick_bind, Eff.world_bind] at h
    split at h
    · cases h
      exact ⟨⟨hd.size, hd.ram, fun hm => ⟨(hd.file hm).1, rfl⟩⟩, rfl, fun _ => rfl⟩
    · cases h
  · rename_i hram
    cases h
    refine ⟨⟨hd.size, hd.ram, hd.file⟩, rfl, fun hm => ?_⟩
    have hmode : d.mode = .FILE_MODE := hm
    obtain ⟨-, hopen⟩ := hd.file hmode
    exact absurd ⟨hmode, fun hnone => by rw [show d.fileFd = none from hnone] at hopen; cases hopen⟩ hram

theorem copyLoop_ok {src : Bytes} {n : Nat} (h : copyLoop sys src n (d, w) = (.ok (), d', w')) :
    d' = { d with file := d.file ++ src.take n, fileFd := d'.fileFd } ∧ (d.fileFd.isSome → d'.fileFd.isSome) := by
  induction n using Nat.strong_induction_on generalizing d w src with
  | _ n ih =>
    rw [copyLoop] at h
    split at h
    · rename_i hzero
      cases h
      exact ⟨by simp [hzero], id⟩
    rename_i hpos
    rw [sysTick_bind] at h
    rcases hk : sys.readTmp (d, w).2.tick (min 8192 n) with _ | k
    · simp only [hk] at h
      cases h
    simp only [hk] at h
    obtain ⟨m, hm⟩ : ∃ m, m = min (k + 1) (min 8192 n) := ⟨_, rfl⟩
    rw [← hm] at h
    split at h
    · cases h
    rename_i hne
    obtain ⟨_, ⟨d₁, w₁⟩, hwrite, h⟩ := Eff.bind_eq_ok.1 h
    obtain ⟨h₁, hfd₁⟩ := writeAll_ok hwrite
    have hlen := List.length_pos_iff.2 hne
    obtain ⟨h₂, hfd₂⟩ := ih (n - (src.take m).length) (by omega) h
    refine ⟨?_, fun hfd => hfd₂ (hfd₁ hfd)⟩
    obtain ⟨l, hl⟩ : ∃ l, l = (src.take m).length := ⟨_, rfl⟩
    have hm' : src.take m = src.take l := by
      rw [List.take_eq_take_iff, hl, List.length_take]
      omega
    have hln : l ≤ n := by rw [hl, List.length_take]; omega
    have hfile : d₁.file ++ (src.drop (src.take m).length).take (n - (src.take m).length) = d.file ++ src.take n := by
      rw [h₁, ← hl, List.append_assoc, hm', ← List.take_add, Nat.add_sub_cancel' hln]
    rw [h₂, hfile, h₁]

theorem copy_ok (h : copy sys other (d, w) = (.ok (), d', w')) (ho : other.Sound data) : d'.Sound data := by
  rcases other.mode_cases with hm | hm
  · rw [copy_ram hm] at h
    cases h
    exact ⟨ho.size, fun _ => ho.ram hm, fun hf => nomatch (show BufferMode.RAM = .FILE_MODE from hf)⟩
  have hram : other.mode ≠ .RAM := by rw [hm]; exact (nomatch ·)
  rw [copy, Eff.modObj_bind, if_neg hram, Eff.modObj_bind] at h
  obtain ⟨_, ⟨d₁, w₁⟩, hsw, h⟩ := Eff.bind_eq_ok.1 h
  obtain ⟨hd₁, hfd₁⟩ := switchToFileMode_ram_ok hsw rfl
  rw [Eff.tryCatch_apply] at h
  split at h
  swap
  · cases h
  rename_i hcopy
  cases h
  have hsize := ho.size
  have hfile := (ho.file hm).1
  split at hcopy
  · rw [copyFdContents, sysTick_bind, Eff.world_bind] at hcopy
    split at hcopy
    · obtain ⟨h₂, hfd₂⟩ := copyLoop_ok hcopy
      have hopen := hfd₂ hfd₁
      rw [h₂, hd₁] at hopen ⊢
      refine ⟨hsize, (nomatch ·), fun _ => ⟨?_, hopen⟩⟩
      rw [hfile, hsize]
      exact List.take_length
    · cases hcopy
  · rename_i hzero
    cases hcopy
    rw [hd₁] at hfd₁ ⊢
    refine ⟨hsize, (nomatch ·), fun _ => ⟨?_, hfd₁⟩⟩
    exact (List.eq_nil_of_length_eq_zero (by omega)).symm

theorem assign_ok (h : assign sys other (d, w) = (.ok (), d', w')) (ho : other.Sound data) : d'.Sound data := by
  rw [assign] at h
  split at h
  · cases h
  · rename_i hcopy
    cases h
    exact copy_ok hcopy ho

end DataStore

end LeftHookRoll
