import LeftHookRoll.DataStoreCopy

/-!
# `DataStore` operations that fail

`Sys.takeAll` and `Sys.copyAll` say from the answers of the system alone whether a row of writes, or a
copy from file to file, goes through. The `_cases` lemmas say what an operation leaves behind in either
case: a write that was refused half way leaves the bytes that were taken in the file, and a temporary
file that was made before its first bytes could be written is given up but not removed.
-/

namespace LeftHookRoll

open Eff

/-- The call after those, from `t` on, that take `n` bytes; `none` when one of them fails. -/
def Sys.takeAll (sys : Sys) (t n : Nat) : Option Nat :=
  if n = 0 then some t
  else
    match sys.writeTmp t n with
    | some (k + 1) => sys.takeAll (t + 1) (n - min (k + 1) n)
    | _ => none
termination_by n
decreasing_by omega

/-- The call after those, from `t` on, that copy `n` bytes; `none` when one of them fails. -/
def Sys.copyAll (sys : Sys) (t n : Nat) : Option Nat :=
  if n = 0 then some t
  else
    match sys.readTmp t (min 8192 n) with
    | none => none
    | some k =>
      match sys.takeAll (t + 1) (min (k + 1) (min 8192 n)) with
      | none => none
      | some t' => sys.copyAll t' (n - min (k + 1) (min 8192 n))
termination_by n
decreasing_by omega

/-- Files can be made, but no byte be written to them. -/
def Sys.fullDisk : Sys := { Sys.calm with writeTmp := fun _ _ => none }

namespace DataStore

variable {sys : Sys} {d other : DataStore} {w : World} {data : Bytes} {off : Nat}

/-- What a refused write leaves: `taken` in the file and the offset at `off'`. -/
structure Refused (sys : Sys) (t : Nat) (data : Bytes) (off len : Nat) (taken : Bytes) (off' : Nat) : Prop where
  pre : taken <+: data
  /-- Nothing was taken exactly when the first write took nothing. -/
  nil_iff : taken = [] ↔ ∀ k, sys.writeTmp t data.length ≠ some (k + 1)
  offset : off' = if sys.writeTmp t data.length = none then off else len + taken.length

theorem Refused.offset_le {t off off' : Nat} {taken file : Bytes}
    (h : Refused sys t data off file.length taken off') (hoff : off ≤ file.length) : off' ≤ (file ++ taken).length := by
  rw [h.offset, List.length_append]
  split <;> omega

theorem fdWrite_none (h : sys.writeTmp w.tick data.length = none) :
    fdWrite sys data (d, w) = (.ok none, d, { w with tick := w.tick + 1 }) := by
  simp [fdWrite, h]

theorem fdWrite_some {k : Nat} (hfd : d.fileFd = some off) (h : sys.writeTmp w.tick data.length = some k) :
    fdWrite sys data (d, w) = (.ok (some (min k data.length)), { d with
      file := d.file ++ data.take k, fileFd := some (d.file.length + min k data.length) },
      { w with tick := w.tick + 1 }) := by
  simp [fdWrite, hfd, h, List.take_eq_take_min]

theorem fdWrite_shut (hfd : d.fileFd = none) :
    fdWrite sys data (d, w) = (.ok none, d, { w with tick := w.tick + 1 }) := by
  simp [fdWrite, hfd]

theorem writeAll_shut (hfd : d.fileFd = none) (hne : data ≠ []) : writeAll sys data (d, w) =
    (.error (.runtime "DataStore: write failed"), d, { w with tick := w.tick + 1 }) := by
  obtain ⟨b, data, rfl⟩ := List.exists_cons_of_ne_nil hne
  rw [writeAll, Eff.bind_ok (fdWrite_shut hfd)]
  rfl

/-- `write_all` writes everything or stops at a refused write. -/
theorem writeAll_cases (sys : Sys) (data : Bytes) (w : World) (hfd : d.fileFd = some off) :
    (∃ t, sys.takeAll w.tick data.length = some t ∧ writeAll sys data (d, w) = (.ok (), { d with
      file := d.file ++ data
      fileFd := some (if data = [] then off else d.file.length + data.length) }, { w with tick := t })) ∨
    (sys.takeAll w.tick data.length = none ∧ ∃ e taken off' t, writeAll sys data (d, w) =
      (.error e, { d with file := d.file ++ taken, fileFd := some off' }, { w with tick := t }) ∧
      Refused sys w.tick data off d.file.length taken off') := by
  induction data using writeAll.induct generalizing d w off with
  | case1 =>
    refine .inl ⟨w.tick, by rw [Sys.takeAll]; rfl, ?_⟩
    rw [writeAll]
    simp [← hfd]
  | case2 b rest ih =>
    have hpos : (b :: rest).length ≠ 0 := by simp
    rw [Sys.takeAll, if_neg hpos]
    rcases hk : sys.writeTmp w.tick (b :: rest).length with _ | _ | k
    · refine .inr ⟨rfl, .runtime "DataStore: write failed", [], off, w.tick + 1, ?_, List.nil_prefix, ?_, ?_⟩
      · rw [writeAll, Eff.bind_ok (fdWrite_none hk), List.append_nil, ← hfd]
        rfl
      · exact ⟨fun _ k => by rw [hk]; rintro ⟨⟩, fun _ => rfl⟩
      · rw [if_pos hk]
    · refine .inr ⟨rfl, .runtime "DataStore: write failed - 0 bytes written (possible disk full)", [], d.file.length,
        w.tick + 1, ?_, List.nil_prefix, ?_, ?_⟩
      · rw [writeAll, Eff.bind_ok (fdWrite_some hfd hk), List.take_zero, Nat.zero_min]
        rfl
      · exact ⟨fun _ k => by rw [hk]; rintro ⟨⟩, fun _ => rfl⟩
      · rw [if_neg (by rw [hk]; rintro ⟨⟩)]
        rfl
    · obtain ⟨m, hm⟩ : ∃ m, min (k + 1) (b :: rest).length = m + 1 := ⟨min k rest.length, by simp⟩
      have hwrite := fdWrite_some hfd hk
      rw [hm, List.take_eq_take_min, hm] at hwrite
      have hlen : m + 1 ≤ rest.length + 1 := by rw [← hm]; exact min_le_right _ _
      have hdrop : (b :: rest).length - (m + 1) = (rest.drop m).length := by simp
      rw [writeAll, Eff.bind_ok hwrite]
      simp only [hm, hdrop]
      rcases ih m (w := { w with tick := w.tick + 1 })
        (d := { d with file := d.file ++ (b :: rest).take (m + 1), fileFd := some (d.file.length + (m + 1)) }) rfl with
        ⟨t, ht, hrun⟩ | ⟨ht, e, taken, off', t, hrun, hpre, hnil, hoff⟩
      · refine .inl ⟨t, ht, hrun.trans ?_⟩
        have hoff : (if rest.drop m = [] then d.file.length + (m + 1)
            else (d.file ++ (b :: rest).take (m + 1)).length + (rest.drop m).length) =
            d.file.length + (b :: rest).length := by
          simp only [List.drop_eq_nil_iff, List.length_append, List.length_take, List.length_cons, List.length_drop]
          split <;> omega
        simp only [hoff]
        simp
      · refine .inr ⟨ht, e, (b :: rest).take (m + 1) ++ taken, off', t, ?_, ?_, ?_, ?_⟩
        · rw [hrun, List.append_assoc]
        · have := (List.prefix_append_right_inj ((b :: rest).take (m + 1))).2 hpre
          rwa [show rest.drop m = (b :: rest).drop (m + 1) from rfl, List.take_append_drop] at this
        · exact ⟨fun h => by simp at h, fun h => absurd hk (h k)⟩
        · rw [if_neg (by rw [hk]; rintro ⟨⟩), hoff]
          simp only [List.length_append, List.length_take, List.length_cons]
          split
          · rename_i hnone
            have : taken = [] := hnil.2 fun j => by rw [hnone]; rintro ⟨⟩
            simp [this]
            omega
          · omega

theorem takeAll_noFail (hs : sys.NoFail) (t n : Nat) : ∃ t', sys.takeAll t n = some t' := by
  induction n using Nat.strong_induction_on generalizing t with
  | _ n ih =>
    rw [Sys.takeAll]
    split
    · exact ⟨t, rfl⟩
    · obtain ⟨k, hk, hw⟩ := hs.writeTmp t n (by omega)
      obtain ⟨k, rfl⟩ : ∃ j, k = j + 1 := ⟨k - 1, by omega⟩
      rw [hw]
      exact ih _ (by omega) (t + 1)

/-! ### The temporary file -/

theorem tryTempNames_cases (sys : Sys) (tmp : Finset Nat) (c₀ : Nat) (d : DataStore) (w : World) :
    (∃ e t n, tryTempNames sys tmp c₀ (d, w) = (.error e, d, { w with tick := t, fileCounter := n })) ∨
    ∃ c t n, c ∉ tmp ∧ tryTempNames sys tmp c₀ (d, w) = (.ok c, d, { w with tick := t, fileCounter := n }) := by
  induction c₀ using tryTempNames.induct tmp generalizing w with
  | case1 c₀ ih =>
    rw [tryTempNames]
    simp only [sysTick_bind, Eff.modWorld_bind]
    split
    · split
      · exact ih ‹_› { w with tick := w.tick + 1, fileCounter := c₀ + 1 }
      · exact .inr ⟨c₀, w.tick + 1, c₀ + 1, ‹_›, rfl⟩
    · exact .inl ⟨_, w.tick + 1, c₀ + 1, rfl⟩

theorem generateTempFileName_cases (sys : Sys) (d : DataStore) (w : World) :
    (∃ e t n, generateTempFileName sys (d, w) = (.error e, d, { w with tick := t, fileCounter := n })) ∨
    ∃ c t n, c ∉ w.tmp ∧ generateTempFileName sys (d, w) =
      (.ok (), { d with fileFd := some 0, absolutePath := some c, file := [] },
        { w with tick := t, fileCounter := n, tmp := insert c w.tmp }) := by
  simp only [generateTempFileName, Eff.world_bind]
  rcases tryTempNames_cases sys w.tmp w.fileCounter d w with ⟨e, t, n, h⟩ | ⟨c, t, n, hc, h⟩
  · exact .inl ⟨e, t, n, Eff.bind_error h⟩
  · exact .inr ⟨c, t, n, hc, by rw [Eff.bind_ok h]; rfl⟩

/-- The call after a switch to a file that goes through. -/
def spillEnd (sys : Sys) (s : DataStore × World) : Option Nat :=
  match generateTempFileName sys s with
  | (.ok _, s') => sys.takeAll s'.2.tick s.1.dataBuffer.length
  | (.error _, _) => none

/-- The switch makes a file, and the buffer cannot be written to it. -/
def SpillLeaves (sys : Sys) (s : DataStore × World) : Prop :=
  match generateTempFileName sys s with
  | (.ok _, s') => sys.takeAll s'.2.tick s.1.dataBuffer.length = none
  | (.error _, _) => False

theorem spillLeaves_fullDisk (d : DataStore) (hd : d.dataBuffer ≠ []) : SpillLeaves Sys.fullDisk (d, {}) := by
  have htry : tryTempNames Sys.fullDisk ∅ 0 (d, {}) = (.ok 0, d, { tick := 1, fileCounter := 1 }) := by
    rw [tryTempNames]
    rfl
  have hpos : d.dataBuffer.length ≠ 0 := by simpa using hd
  rw [SpillLeaves, generateTempFileName, Eff.world_bind, Eff.bind_ok htry]
  show Sys.fullDisk.takeAll _ d.dataBuffer.length = none
  rw [Sys.takeAll, if_neg hpos]
  rfl

theorem switchToFileMode_cases (sys : Sys) (w : World) (hm : d.mode = .RAM) :
    (∃ t n c, spillEnd sys (d, w) = some t ∧ ¬ SpillLeaves sys (d, w) ∧ c ∉ w.tmp ∧ switchToFileMode sys (d, w) =
      (.ok (), { d with
        mode := .FILE_MODE, dataBuffer := [], file := d.dataBuffer, fileFd := some d.dataBuffer.length
        absolutePath := some c }, { w with tick := t, fileCounter := n, tmp := insert c w.tmp })) ∨
    (spillEnd sys (d, w) = none ∧ ¬ SpillLeaves sys (d, w) ∧ ∃ e t n, switchToFileMode sys (d, w) =
      (.error e, d, { w with tick := t, fileCounter := n })) ∨
    (spillEnd sys (d, w) = none ∧ SpillLeaves sys (d, w) ∧ ∃ e t n c file, c ∉ w.tmp ∧ switchToFileMode sys (d, w) =
      (.error e, { d with file, fileFd := none, absolutePath := none },
        { w with tick := t, fileCounter := n, tmp := insert c w.tmp })) := by
  rw [spillEnd, SpillLeaves]
  have hram : d.mode ≠ .FILE_MODE := by rw [hm]; rintro ⟨⟩
  simp only [switchToFileMode, Eff.obj_bind, if_neg hram]
  rcases generateTempFileName_cases sys d w with ⟨e, t, n, hgen⟩ | ⟨c, t, n, hc, hgen⟩
  · refine .inr (.inl ?_)
    rw [hgen, Eff.bind_error hgen]
    exact ⟨rfl, id, e, t, n, rfl⟩
  rw [hgen, Eff.bind_ok hgen, Eff.obj_bind]
  rcases writeAll_cases sys d.dataBuffer { w with tick := t, fileCounter := n, tmp := insert c w.tmp }
    (d := { d with fileFd := some 0, absolutePath := some c, file := [] }) rfl with
    ⟨t', ht', hwrite⟩ | ⟨ht', e, taken, off', t', hwrite, -⟩
  · refine .inl ⟨t', n, c, ht', (fun h => by cases ht'.symm.trans h), hc, ?_⟩
    rw [Eff.bind_ok (Eff.tryCatch_ok hwrite)]
    by_cases hnil : d.dataBuffer = [] <;> simp [hnil]
  · refine .inr (.inr ⟨ht', ht', e, t', n, c, taken, hc, ?_⟩)
    rw [Eff.bind_error (e := e) (by rw [Eff.tryCatch_apply, hwrite]; rfl)]
    rfl

theorem switchToFileMode_empty (sys : Sys) (w : World) (hm : d.mode = .RAM) (hb : d.dataBuffer = []) :
    (∃ e t n, generateTempFileName sys (d, w) = (.error e, d, { w with tick := t, fileCounter := n }) ∧
      switchToFileMode sys (d, w) = (.error e, d, { w with tick := t, fileCounter := n })) ∨
    ∃ c t n, c ∉ w.tmp ∧ generateTempFileName sys (d, w) =
        (.ok (), { d with fileFd := some 0, absolutePath := some c, file := [] },
          { w with tick := t, fileCounter := n, tmp := insert c w.tmp }) ∧
      switchToFileMode sys (d, w) = (.ok (), { d with
        mode := .FILE_MODE, fileFd := some 0, absolutePath := some c, file := [] },
        { w with tick := t, fileCounter := n, tmp := insert c w.tmp }) := by
  have hram : d.mode ≠ .FILE_MODE := by rw [hm]; nofun
  simp only [switchToFileMode, Eff.obj_bind, if_neg hram]
  rcases generateTempFileName_cases sys d w with ⟨e, t, n, hgen⟩ | ⟨c, t, n, hc, hgen⟩
  · exact .inl ⟨e, t, n, hgen, Eff.bind_error hgen⟩
  · refine .inr ⟨c, t, n, hc, hgen, ?_⟩
    rw [Eff.bind_ok hgen, Eff.obj_bind, hb, writeAll]
    rfl

theorem spillEnd_noFail (hs : sys.NoFail) (w : World) (hm : d.mode = .RAM) : ∃ t, spillEnd sys (d, w) = some t := by
  obtain ⟨c, w', -, -, -, hsw⟩ := switchToFileMode_fresh (w := w) hs hm
  rcases switchToFileMode_cases sys w hm with ⟨t, n, c', hend, -⟩ | ⟨-, -, e, t, n, hrun⟩ | ⟨-, -, e, t, n, c', file, -, hrun⟩
  · exact ⟨t, hend⟩
  · exact nomatch hsw.symm.trans hrun
  · exact nomatch hsw.symm.trans hrun

/-! ### Appends -/

/-- The ways an append can end. -/
inductive Appended (sys : Sys) (x : Bytes) (d : DataStore) (w : World) : Except Exn Unit × DataStore × World → Prop
  | nil (hx : x = []) : Appended sys x d w (.ok (), d, w)
  | fits (hx : x ≠ []) (hm : d.mode = .RAM) (hfit : d.currentSize + x.length ≤ d.bufferLimit) :
      Appended sys x d w (.ok (),
        { d with dataBuffer := d.dataBuffer ++ x, currentSize := d.currentSize + x.length }, w)
  /-- There is no file to spill to. -/
  | noFile {e : Exn} {t n : Nat} (hx : x ≠ []) (hm : d.mode = .RAM) (hfull : d.bufferLimit < d.currentSize + x.length)
      (hend : spillEnd sys (d, w) = none) (hleft : ¬ SpillLeaves sys (d, w)) :
      Appended sys x d w (.error e, d, { w with tick := t, fileCounter := n })
  /-- The buffer could not be written to the new file. -/
  | left {e : Exn} {t n c : Nat} {file : Bytes} (hx : x ≠ []) (hm : d.mode = .RAM)
      (hfull : d.bufferLimit < d.currentSize + x.length) (hend : spillEnd sys (d, w) = none)
      (hleft : SpillLeaves sys (d, w)) (hc : c ∉ w.tmp) :
      Appended sys x d w (.error e, { d with file, fileFd := none, absolutePath := none },
        { w with tick := t, fileCounter := n, tmp := insert c w.tmp })
  | spilled {t t' n c : Nat} (hx : x ≠ []) (hm : d.mode = .RAM) (hfull : d.bufferLimit < d.currentSize + x.length)
      (hend : spillEnd sys (d, w) = some t) (hleft : ¬ SpillLeaves sys (d, w)) (hc : c ∉ w.tmp)
      (htake : sys.takeAll t x.length = some t') :
      Appended sys x d w (.ok (), { d with
        mode := .FILE_MODE, dataBuffer := [], file := d.dataBuffer ++ x
        fileFd := some (d.dataBuffer.length + x.length), absolutePath := some c
        currentSize := d.currentSize + x.length }, { w with tick := t', fileCounter := n, tmp := insert c w.tmp })
  | spilledRefused {e : Exn} {t t' n c off : Nat} {taken : Bytes} (hx : x ≠ []) (hm : d.mode = .RAM)
      (hfull : d.bufferLimit < d.currentSize + x.length) (hend : spillEnd sys (d, w) = some t)
      (hleft : ¬ SpillLeaves sys (d, w)) (hc : c ∉ w.tmp) (htake : sys.takeAll t x.length = none)
      (href : Refused sys t x d.dataBuffer.length d.dataBuffer.length taken off) :
      Appended sys x d w (.error e, { d with
        mode := .FILE_MODE, dataBuffer := [], file := d.dataBuffer ++ taken, fileFd := some off
        absolutePath := some c }, { w with tick := t', fileCounter := n, tmp := insert c w.tmp })
  | wrote {off t : Nat} (hx : x ≠ []) (hm : d.mode = .FILE_MODE) (hfd : d.fileFd = some off)
      (htake : sys.takeAll w.tick x.length = some t) :
      Appended sys x d w (.ok (), { d with
        file := d.file ++ x, fileFd := some (d.file.length + x.length), currentSize := d.currentSize + x.length },
        { w with tick := t })
  | refused {e : Exn} {off off' t : Nat} {taken : Bytes} (hx : x ≠ []) (hm : d.mode = .FILE_MODE)
      (hfd : d.fileFd = some off) (htake : sys.takeAll w.tick x.length = none)
      (href : Refused sys w.tick x off d.file.length taken off') :
      Appended sys x d w (.error e, { d with file := d.file ++ taken, fileFd := some off' }, { w with tick := t })
  | shut (hx : x ≠ []) (hm : d.mode = .FILE_MODE) (hfd : d.fileFd = none) :
      Appended sys x d w (.error (.runtime "DataStore: write failed"), d, { w with tick := w.tick + 1 })

theorem append_cases (sys : Sys) (x : Bytes) (d : DataStore) (w : World) : Appended sys x d w (append sys x (d, w)) := by
  rw [append]
  by_cases hx : x = []
  · rw [if_pos hx]
    exact .nil hx
  rw [if_neg hx, Eff.obj_bind]
  rcases d.mode_cases with hm | hm
  · rw [if_pos hm]
    by_cases hfull : d.bufferLimit < d.currentSize + x.length
    · rw [if_pos hfull]
      rcases switchToFileMode_cases sys w hm with ⟨t, n, c, hend, hleft, hc, hsw⟩ | ⟨hend, hleft, e, t, n, hsw⟩ |
        ⟨hend, hleft, e, t, n, c, file, hc, hsw⟩
      · rw [Eff.bind_ok hsw]
        have hwrite := writeAll_cases sys x { w with tick := t, fileCounter := n, tmp := insert c w.tmp }
          (d := { d with mode := .FILE_MODE, dataBuffer := [], file := d.dataBuffer,
                         fileFd := some d.dataBuffer.length, absolutePath := some c }) rfl
        rw [if_neg hx] at hwrite
        rcases hwrite with ⟨t', htake, hwrite⟩ | ⟨htake, e, taken, off, t', hwrite, href⟩
        · rw [Eff.bind_ok hwrite]
          exact .spilled hx hm hfull hend hleft hc htake
        · rw [Eff.bind_error hwrite]
          exact .spilledRefused hx hm hfull hend hleft hc htake href
      · rw [Eff.bind_error hsw]
        exact .noFile hx hm hfull hend hleft
      · rw [Eff.bind_error hsw]
        exact .left hx hm hfull hend hleft hc
    · rw [if_neg hfull]
      exact .fits hx hm (by omega)
  · rw [if_neg (by rw [hm]; rintro ⟨⟩)]
    rcases hfd : d.fileFd with _ | off
    · rw [Eff.bind_error (writeAll_shut hfd hx)]
      exact .shut hx hm hfd
    · have hwrite := writeAll_cases sys x w hfd
      rw [if_neg hx] at hwrite
      rcases hwrite with ⟨t', htake, hwrite⟩ | ⟨htake, e, taken, off', t', hwrite, href⟩
      · rw [Eff.bind_ok hwrite]
        exact .wrote hx hm hfd htake
      · rw [Eff.bind_error hwrite]
        exact .refused hx hm hfd htake href

/-! ### Copies -/

theorem copyLoop_cases (sys : Sys) {src : Bytes} {n : Nat} (hn : n ≤ src.length) (w : World) (hfd : d.fileFd = some off)
    (hoff : off ≤ d.file.length) :
    (∃ t off', sys.copyAll w.tick n = some t ∧ off' ≤ (d.file ++ src.take n).length ∧ copyLoop sys src n (d, w) =
      (.ok (), { d with file := d.file ++ src.take n, fileFd := some off' }, { w with tick := t })) ∨
    (sys.copyAll w.tick n = none ∧ ∃ e d' t, copyLoop sys src n (d, w) = (.error e, d', { w with tick := t })) := by
  induction n using Nat.strong_induction_on generalizing d w src off with
  | _ n ih =>
    rw [copyLoop, Sys.copyAll]
    by_cases hzero : n = 0
    · rw [dif_pos hzero, if_pos hzero]
      refine .inl ⟨w.tick, off, rfl, by simpa [hzero] using hoff, ?_⟩
      simp [hzero, ← hfd]
    rw [dif_neg hzero, if_neg hzero]
    simp only [sysTick_bind]
    rcases hk : sys.readTmp w.tick (min 8192 n) with _ | k
    · exact .inr ⟨rfl, _, d, w.tick + 1, rfl⟩
    obtain ⟨m, hm⟩ : ∃ m, m = min (k + 1) (min 8192 n) := ⟨_, rfl⟩
    have hmn : m ≤ n := by omega
    have hlen : (src.take m).length = m := by rw [List.length_take]; omega
    have hne : src.take m ≠ [] := List.ne_nil_of_length_pos (by omega)
    simp only [← hm, hne, dite_false, hlen]
    have hwrite := writeAll_cases sys (src.take m) { w with tick := w.tick + 1 } hfd
    rw [if_neg hne, hlen] at hwrite
    rcases hwrite with ⟨t, ht, hwrite⟩ | ⟨ht, e, taken, off', t, hwrite, -⟩
    · rw [show sys.takeAll (w.tick + 1) m = some t from ht, Eff.bind_ok hwrite]
      have hrest : n - m ≤ (src.drop m).length := by
        rw [List.length_drop]
        omega
      rcases ih (n - m) (by omega) (d := { d with file := d.file ++ src.take m, fileFd := some (d.file.length + m) })
        hrest { w with tick := t } rfl
        (show d.file.length + m ≤ (d.file ++ src.take m).length by rw [List.length_append, hlen]) with
        ⟨t', off', hcopy, hle, hrun⟩ | ⟨hcopy, hrun⟩
      · have hfile : d.file ++ src.take m ++ (src.drop m).take (n - m) = d.file ++ src.take n := by
          rw [List.append_assoc, ← List.take_add, Nat.add_sub_cancel' hmn]
        rw [hfile] at hle hrun
        exact .inl ⟨t', off', hcopy, hle, hrun⟩
      · exact .inr ⟨hcopy, hrun⟩
    · rw [show sys.takeAll (w.tick + 1) m = none from ht, Eff.bind_error hwrite]
      exact .inr ⟨rfl, e, _, t, rfl⟩

/-- The copy of a file fails when its own file is there already. -/
def CopyLeaves (sys : Sys) (other : DataStore) (w : World) : Prop :=
  other.mode = .FILE_MODE ∧ 0 < other.currentSize ∧
    match generateTempFileName sys ({ bufferLimit := other.bufferLimit, currentSize := other.currentSize }, w) with
    | (.ok _, s) => sys.openTmp s.2.tick = true → sys.copyAll (s.2.tick + 1) other.currentSize = none
    | (.error _, _) => False

theorem copy_cases (sys : Sys) (hm : other.mode = .FILE_MODE) (hc : ∃ c ∈ other.absolutePath, c ∈ w.tmp)
    (hsize : other.currentSize ≤ other.file.length) (d : DataStore) :
    (¬ CopyLeaves sys other w ∧ ∃ t n c off, c ∉ w.tmp ∧ off ≤ other.currentSize ∧ copy sys other (d, w) = (.ok (),
      { mode := .FILE_MODE, bufferLimit := other.bufferLimit, currentSize := other.currentSize, fileFd := some off,
        absolutePath := some c, file := other.file.take other.currentSize },
      { w with tick := t, fileCounter := n, tmp := insert c w.tmp })) ∨
    (¬ CopyLeaves sys other w ∧ ∃ e d' t n, copy sys other (d, w) = (.error e, d', { w with tick := t, fileCounter := n })) ∨
    (CopyLeaves sys other w ∧ ∃ e d' t n c, c ∉ w.tmp ∧ copy sys other (d, w) =
      (.error e, d', { w with tick := t, fileCounter := n, tmp := insert c w.tmp })) := by
  have hram : other.mode ≠ .RAM := by rw [hm]; rintro ⟨⟩
  rw [copy, Eff.modObj_bind, if_neg hram, Eff.modObj_bind, CopyLeaves]
  rcases switchToFileMode_empty sys w (d := { bufferLimit := other.bufferLimit, currentSize := other.currentSize })
    rfl rfl with ⟨e, t, n, hgen, hsw⟩ | ⟨c, t, n, hnew, hgen, hsw⟩
  · refine .inr (.inl ⟨fun h => ?_, e, _, t, n, Eff.bind_error hsw⟩)
    rw [hgen] at h
    exact h.2.2
  rw [hgen, Eff.bind_ok hsw]
  by_cases hpos : other.currentSize > 0
  · rw [if_pos hpos, copyFdContents, Eff.tryCatch_apply, sysTick_bind, Eff.world_bind]
    have hmade : ∃ c' ∈ other.absolutePath, c' ∈ insert c w.tmp := by
      obtain ⟨c', hc', hw⟩ := hc
      exact ⟨c', hc', Finset.mem_insert_of_mem hw⟩
    by_cases hopen : sys.openTmp t = true
    · rw [if_pos ⟨hopen, hmade⟩]
      rcases copyLoop_cases sys hsize { w with tick := t + 1, fileCounter := n, tmp := insert c w.tmp }
        (d := { mode := .FILE_MODE, bufferLimit := other.bufferLimit, currentSize := other.currentSize,
                fileFd := some 0, absolutePath := some c }) rfl (le_refl 0) with
        ⟨t', off, hcopy, hle, hrun⟩ | ⟨hcopy, e, d', t', hrun⟩
      · refine .inl ⟨fun h => ?_, t', n, c, off, hnew, ?_, ?_⟩
        · cases hcopy.symm.trans (h.2.2 hopen)
        · rw [List.nil_append, List.length_take] at hle
          exact hle.trans (min_le_left _ _)
        · rw [hrun]
          rfl
      · refine .inr (.inr ⟨⟨hm, hpos, fun _ => hcopy⟩, e, { d' with fileFd := none }, t', n, c, hnew, ?_⟩)
        rw [hrun]
        rfl
    · rw [if_neg fun h => hopen h.1]
      exact .inr (.inr ⟨⟨hm, hpos, fun h => absurd h hopen⟩, _, _, t + 1, n, c, hnew, rfl⟩)
  · refine .inl ⟨fun h => hpos h.2.1, t, n, c, 0, hnew, Nat.zero_le _, ?_⟩
    have hzero : other.currentSize = 0 := by omega
    rw [if_neg hpos, hzero]
    rfl

/-! ### Reading -/

theorem readLoop_shut {n : Nat} (hfd : d.fileFd = none) (hn : n ≠ 0) : readLoop sys n (d, w) =
    (.error (.runtime "DataStore: read failed"), d, { w with tick := w.tick + 1 }) := by
  have hread : fdRead sys n (d, w) = (.ok none, d, { w with tick := w.tick + 1 }) := by simp [fdRead, hfd]
  rw [readLoop, if_neg hn, Eff.bind_ok hread]
  rfl

/-- However it ends, the loop of `read` leaves the file offset inside the file. -/
theorem readLoop_inside (sys : Sys) (n : Nat) (w : World) (hfd : d.fileFd = some off) (hoff : off ≤ d.file.length) :
    ∃ r off' t, readLoop sys n (d, w) = (r, { d with fileFd := some off' }, { w with tick := t }) ∧
      off' ≤ d.file.length ∧ ∀ g, r = .ok g → g.length ≤ n := by
  induction n using Nat.strong_induction_on generalizing d w off with
  | _ n ih =>
    rw [readLoop]
    by_cases hn : n = 0
    · exact ⟨.ok [], off, w.tick, by simp [hn, ← hfd], hoff, by simp⟩
    rw [if_neg hn]
    rcases hk : sys.readTmp w.tick n with _ | k
    · have hread : fdRead sys n (d, w) = (.ok none, d, { w with tick := w.tick + 1 }) := by simp [fdRead, hk]
      rw [Eff.bind_ok hread]
      exact ⟨.error (.runtime "DataStore: read failed"), off, w.tick + 1, by simp only [← hfd]; rfl, hoff, (by intros; contradiction)⟩
    obtain ⟨got, hgot⟩ : ∃ got, got = (d.file.drop off).take (min (k + 1) n) := ⟨_, rfl⟩
    have hlen : off + got.length ≤ d.file.length := by
      rw [hgot, List.length_take, List.length_drop]
      omega
    have hle : got.length ≤ n := by
      rw [hgot, List.length_take]
      omega
    have hread : fdRead sys n (d, w) =
        (.ok (some got), { d with fileFd := some (off + got.length) }, { w with tick := w.tick + 1 }) := by
      simp [fdRead, hk, hfd, hgot]
    rw [Eff.bind_ok hread]
    by_cases hnil : got = []
    · exact ⟨.ok [], off + got.length, w.tick + 1, by simp [hnil], hlen, by simp⟩
    by_cases hfull : n ≤ got.length
    · exact ⟨.ok got, off + got.length, w.tick + 1, by simp [hnil, hfull], hlen, by simpa using hle⟩
    have hpos := List.length_pos_iff.2 hnil
    obtain ⟨r, off', t, hr, hin, hg⟩ := ih (n - got.length) (by omega) { w with tick := w.tick + 1 }
      (d := { d with fileFd := some (off + got.length) }) rfl hlen
    simp only [hnil, hfull, dite_false]
    rcases r with e | rest
    · exact ⟨.error e, off', t, by rw [Eff.bind_error hr], hin, (by intros; contradiction)⟩
    · refine ⟨.ok (got ++ rest), off', t, by rw [Eff.bind_ok hr, Eff.pure_apply], hin, fun g heq => ?_⟩
      obtain rfl := Except.ok.inj heq
      have := hg rest rfl
      rw [List.length_append]
      omega

end DataStore

end LeftHookRoll
