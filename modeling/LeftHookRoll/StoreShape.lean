import LeftHookRoll.DataStoreFailure
import LeftHookRoll.StoreRefine

/-!
# What a `DataStore` gives back depends on its shape

`DataStore.Formed` holds of every store that a program can have, also after operations that failed. The
`shape` of such a store is all that later calls depend on as long as no system call fails: `shapeRun`
gives what `runOps` returns.
-/

namespace LeftHookRoll

open Eff
open ReadBuffer (Op Seen)

namespace DataStore

/-- The form of a store, whatever happened to it. -/
structure Formed (d : DataStore) : Prop where
  limit : d.bufferLimit = BUFFERLIMIT
  position : d.readOffset ≤ d.currentSize
  ram : d.mode = .RAM → d.dataBuffer.length = d.currentSize ∧ d.currentSize ≤ BUFFERLIMIT ∧
    d.fileFd = none ∧ d.absolutePath = none
  file : d.mode = .FILE_MODE → d.dataBuffer = [] ∧ d.currentSize ≤ d.file.length ∧ d.absolutePath.isSome
  offset : ∀ off, d.fileFd = some off → off ≤ d.file.length

/-- The file of the store exists. -/
def Present (d : DataStore) (w : World) : Prop := ∀ c, d.absolutePath = some c → c ∈ w.tmp

/-- What an operation on one store does to the names of temporary files; `leaves` says that a file
remains that no store names. -/
inductive NameStep (leaves : Prop) (s s' : DataStore × World) : Prop
  | same (h : ¬ leaves) (hname : s'.1.absolutePath = s.1.absolutePath) (htmp : s'.2.tmp = s.2.tmp)
  | made (c : Nat) (h : ¬ leaves) (hnone : s.1.absolutePath = none) (hname : s'.1.absolutePath = some c) (hc : c ∉ s.2.tmp)
      (htmp : s'.2.tmp = insert c s.2.tmp)
  | gave (h : ¬ leaves) (hname : s'.1.absolutePath = none)
      (htmp : s'.2.tmp = s.1.absolutePath.elim s.2.tmp s.2.tmp.erase)
  | left (c : Nat) (h : leaves) (hname : s'.1.absolutePath = s.1.absolutePath) (hc : c ∉ s.2.tmp)
      (htmp : s'.2.tmp = insert c s.2.tmp)

/-- The call leaves a file that no store names. -/
def ExecLeaves (sys : Sys) (s : DataStore × World) : Op UInt8 → Prop
  | .append x => x ≠ [] ∧ s.1.mode = .RAM ∧ s.1.bufferLimit < s.1.currentSize + x.length ∧ SpillLeaves sys s
  | .settle => s.1.mode = .RAM ∧ SpillLeaves sys s
  | _ => False

variable {sys : Sys} {d d' : DataStore} {w w' : World}

theorem formed_new : Formed {} :=
  ⟨rfl, le_refl 0, fun _ => ⟨rfl, Nat.zero_le _, rfl, rfl⟩, (nomatch ·), nofun⟩

theorem NameStep.present {leaves : Prop} (h : NameStep leaves (d, w) (d', w')) (hp : d.Present w) : d'.Present w' := by
  intro c hc
  cases h with
  | same _ hname htmp =>
    rw [htmp]
    exact hp c (hname.symm.trans hc)
  | made c' _ _ hname _ htmp =>
    obtain rfl : c' = c := Option.some.inj (hname.symm.trans hc)
    rw [htmp]
    exact Finset.mem_insert_self ..
  | gave _ hname _ => exact nomatch hname.symm.trans hc
  | left c' _ hname _ htmp =>
    rw [htmp]
    exact Finset.mem_insert_of_mem (hp c (hname.symm.trans hc))

/-- An append, however it ends. -/
theorem Formed.append (sys : Sys) (h : d.Formed) (x : Bytes) (w : World) : (append sys x (d, w)).2.1.Formed ∧
    NameStep (ExecLeaves sys (d, w) (.append x)) (d, w) (DataStore.append sys x (d, w)).2 := by
  have hlimit := h.limit
  have hposition := h.position
  generalize hrun : DataStore.append sys x (d, w) = r
  have hcases := hrun ▸ append_cases sys x d w
  cases hcases with
  | nil hx => exact ⟨h, .same (fun hl => hl.1 hx) rfl rfl⟩
  | fits hx hm hfit =>
    obtain ⟨h1, -, h3, h4⟩ := h.ram hm
    refine ⟨⟨hlimit, Nat.le_add_right_of_le hposition, fun _ => ⟨?_, by rwa [hlimit] at hfit, h3, h4⟩, fun hf => ?_, h.offset⟩,
      .same (fun hl => Nat.not_lt.2 hfit hl.2.2.1) rfl rfl⟩
    · rw [List.length_append, h1]
    · exact nomatch hm.symm.trans hf
  | noFile hx hm hfull hend hleft => exact ⟨h, .same (fun hl => hleft hl.2.2.2) rfl rfl⟩
  | left hx hm hfull hend hleft hc =>
    obtain ⟨h1, h2, -, h4⟩ := h.ram hm
    exact ⟨⟨hlimit, hposition, fun _ => ⟨h1, h2, rfl, rfl⟩, (fun hf => nomatch hm.symm.trans hf), nofun⟩,
      .left _ ⟨hx, hm, hfull, hleft⟩ h4.symm hc rfl⟩
  | spilled hx hm hfull hend hleft hc htake =>
    obtain ⟨h1, -, -, h4⟩ := h.ram hm
    refine ⟨⟨hlimit, Nat.le_add_right_of_le hposition, (nomatch ·), fun _ => ⟨rfl, ?_, rfl⟩, ?_⟩,
      .made _ (fun hl => hleft hl.2.2.2) h4 rfl hc rfl⟩
    · rw [List.length_append, h1]
    · rintro _ ⟨⟩
      rw [List.length_append]
  | spilledRefused hx hm hfull hend hleft hc htake href =>
    obtain ⟨h1, -, -, h4⟩ := h.ram hm
    refine ⟨⟨hlimit, hposition, (nomatch ·), fun _ => ⟨rfl, ?_, rfl⟩, ?_⟩, .made _ (fun hl => hleft hl.2.2.2) h4 rfl hc rfl⟩
    · rw [List.length_append]
      exact Nat.le_add_right_of_le h1.ge
    · rintro _ ⟨⟩
      exact href.offset_le (le_refl _)
  | wrote hx hm hfd htake =>
    obtain ⟨h1, h2, h3⟩ := h.file hm
    refine ⟨⟨hlimit, Nat.le_add_right_of_le hposition, fun hr => ?_, fun _ => ⟨h1, ?_, h3⟩, ?_⟩, .same (fun hl => ?_) rfl rfl⟩
    · exact nomatch hm.symm.trans hr
    · rw [List.length_append]
      exact Nat.add_le_add_right h2 _
    · rintro _ ⟨⟩
      rw [List.length_append]
    · exact nomatch hm.symm.trans hl.2.1
  | refused hx hm hfd htake href =>
    obtain ⟨h1, h2, h3⟩ := h.file hm
    refine ⟨⟨hlimit, hposition, fun hr => ?_, fun _ => ⟨h1, ?_, h3⟩, ?_⟩, .same (fun hl => ?_) rfl rfl⟩
    · exact nomatch hm.symm.trans hr
    · rw [List.length_append]
      exact Nat.le_add_right_of_le h2
    · rintro _ ⟨⟩
      exact href.offset_le (h.offset _ hfd)
    · exact nomatch hm.symm.trans hl.2.1
  | shut hx hm hfd => exact ⟨h, .same (fun hl => nomatch hm.symm.trans hl.2.1) rfl rfl⟩

theorem Formed.read (sys : Sys) (h : d.Formed) (n : Nat) (w : World) : (DataStore.read sys n (d, w)).2.1.Formed ∧
    (DataStore.read sys n (d, w)).2.1.absolutePath = d.absolutePath ∧ (DataStore.read sys n (d, w)).2.2.tmp = w.tmp := by
  rw [DataStore.read, Eff.obj_bind]
  have hposition := h.position
  by_cases hend : n = 0 ∨ d.readOffset ≥ d.currentSize
  · rw [if_pos hend]
    exact ⟨h, rfl, rfl⟩
  rw [if_neg hend]
  rcases d.mode_cases with hm | hm
  · rw [if_pos hm]
    exact ⟨⟨h.limit, show d.readOffset + min n (d.currentSize - d.readOffset) ≤ d.currentSize by omega, h.ram, h.file,
      h.offset⟩, rfl, rfl⟩
  rw [if_neg (show d.mode ≠ .RAM by rw [hm]; rintro ⟨⟩)]
  -- the file is read as far as the system goes; the position moves only when the loop returns
  have hmoved (p : Nat) (f : Option Nat) (hp : p ≤ d.currentSize) (hf : ∀ off, f = some off → off ≤ d.file.length) :
      Formed { d with readOffset := p, fileFd := f } :=
    ⟨h.limit, hp, (fun hr => by cases hm.symm.trans hr), h.file, hf⟩
  rcases hfd : d.fileFd with _ | off
  · have hleft : min n (d.currentSize - d.readOffset) ≠ 0 := by omega
    rw [Eff.bind_error (readLoop_shut hfd hleft)]
    exact ⟨h, rfl, rfl⟩
  · obtain ⟨r, off', t, hloop, hin, hle⟩ := readLoop_inside sys (min n (d.currentSize - d.readOffset)) w hfd (h.offset off hfd)
    rcases r with e | got
    · rw [Eff.bind_error hloop]
      exact ⟨hmoved _ _ hposition fun _ heq => Option.some.inj heq ▸ hin, rfl, rfl⟩
    · have := hle got rfl
      rw [Eff.bind_ok hloop]
      exact ⟨hmoved (d.readOffset + got.length) _ (by omega) fun _ heq => Option.some.inj heq ▸ hin, rfl, rfl⟩

theorem Formed.rewind (sys : Sys) (h : d.Formed) (w : World) : (resetReadPosition sys (d, w)).2.1.Formed ∧
    (resetReadPosition sys (d, w)).2.1.absolutePath = d.absolutePath ∧ (resetReadPosition sys (d, w)).2.2.tmp = w.tmp := by
  have hmoved (f : Option Nat) (hm : d.mode = .FILE_MODE) (hf : ∀ off, f = some off → off ≤ d.file.length) :
      Formed { d with readOffset := 0, fileFd := f } :=
    ⟨h.limit, Nat.zero_le _, (fun hr => by cases hm.symm.trans hr), h.file, hf⟩
  rw [resetReadPosition, Eff.modObj_bind, Eff.obj_bind]
  by_cases hopen : d.mode = .FILE_MODE ∧ d.fileFd ≠ none
  · rw [if_pos hopen, sysTick_bind, Eff.world_bind]
    split
    · exact ⟨hmoved _ hopen.1 fun _ heq => Option.some.inj heq ▸ Nat.zero_le _, rfl, rfl⟩
    · exact ⟨hmoved none hopen.1 (by intros; contradiction), rfl, rfl⟩
  · rw [if_neg hopen]
    exact ⟨⟨h.limit, Nat.zero_le _, h.ram, h.file, h.offset⟩, rfl, rfl⟩

theorem Formed.settle (h : d.Formed) (w : World) : (switchToFileMode sys (d, w)).2.1.Formed ∧
    NameStep (ExecLeaves sys (d, w) .settle) (d, w) (switchToFileMode sys (d, w)).2 := by
  rcases d.mode_cases with hm | hm
  · obtain ⟨h1, h2, h3, h4⟩ := h.ram hm
    rcases switchToFileMode_cases sys w hm with ⟨t, n, c, -, hleft, hc, hsw⟩ | ⟨-, hleft, e, t, n, hsw⟩ |
      ⟨-, hleft, e, t, n, c, file, hc, hsw⟩
    · rw [hsw]
      refine ⟨⟨h.limit, h.position, (nomatch ·), fun _ => ⟨rfl, h1.ge, rfl⟩, ?_⟩, .made c (fun hl => hleft hl.2) h4 rfl hc rfl⟩
      rintro _ ⟨⟩
      exact le_refl _
    · rw [hsw]
      exact ⟨h, .same (fun hl => hleft hl.2) rfl rfl⟩
    · rw [hsw]
      exact ⟨⟨h.limit, h.position, fun _ => ⟨h1, h2, rfl, rfl⟩, (fun hf => nomatch hm.symm.trans hf), nofun⟩,
        .left c ⟨hm, hleft⟩ h4.symm hc rfl⟩
  · rw [switchToFileMode_file hm]
    exact ⟨h, .same (fun hl => nomatch hm.symm.trans hl.1) rfl rfl⟩

theorem Formed.clear (h : d.Formed) (w : World) : (DataStore.clear (d, w)).2.1.Formed ∧
    NameStep False (d, w) (DataStore.clear (d, w)).2 := by
  rw [clear_eq]
  exact ⟨⟨h.limit, le_refl 0, fun _ => ⟨rfl, Nat.zero_le _, rfl, rfl⟩, (nomatch ·), nofun⟩, .gave id rfl rfl⟩

theorem exec_state (m : Method DataStore Unit) (s : DataStore × World) :
    ((do m; return []) s : Except Exn Bytes × DataStore × World).2 = (m s).2 := by
  rw [Eff.bind_apply]
  rcases m s with ⟨e | a, t⟩ <;> rfl

/-- Every call keeps the form of the store, whatever the system does. -/
theorem Formed.exec (sys : Sys) (h : d.Formed) (op : Op UInt8) (w : World) : (exec sys op (d, w)).2.1.Formed ∧
    NameStep (ExecLeaves sys (d, w) op) (d, w) (exec sys op (d, w)).2 := by
  cases op with
  | append x =>
    rw [show (DataStore.exec sys (.append x) (d, w)).2 = _ from exec_state _ _]
    exact h.append sys x w
  | read n =>
    obtain ⟨hf, hname, htmp⟩ := h.read sys n w
    exact ⟨hf, .same id hname htmp⟩
  | rewind =>
    rw [show (DataStore.exec sys .rewind (d, w)).2 = _ from exec_state _ _]
    obtain ⟨hf, hname, htmp⟩ := h.rewind sys w
    exact ⟨hf, .same id hname htmp⟩
  | settle =>
    rw [show (DataStore.exec sys .settle (d, w)).2 = _ from exec_state _ _]
    exact h.settle w
  | clear =>
    rw [show (DataStore.exec sys .clear (d, w)).2 = _ from exec_state _ _]
    exact h.clear w

theorem Formed.holds {data : Bytes} (h : d.Formed) (hp : d.Present w) (hs : d.Sound data) : d.Holds w data := by
  refine ⟨hs.size, fun hm => ?_, fun hm => ?_⟩
  · obtain ⟨-, -, hfd, hname⟩ := h.ram hm
    exact ⟨hs.ram hm, hfd, hname⟩
  · obtain ⟨hbuf, -, hname⟩ := h.file hm
    obtain ⟨hfile, hfd⟩ := hs.file hm
    obtain ⟨c, hc⟩ := Option.isSome_iff_exists.1 hname
    exact ⟨hbuf, hfile, Option.isSome_iff_exists.1 hfd, c, hc, hp c hc⟩

end DataStore

/-! ### The shape -/

/-- What later calls depend on: the data in memory, or the file, with the size, the position and the
file offset; `shut` is a file that could not be opened again. -/
inductive StoreShape
  | ram (data : Bytes) (pos : Nat)
  | file (file : Bytes) (size pos off : Nat)
  | shut (size pos : Nat)

namespace StoreShape

def size : StoreShape → Nat
  | ram data _ => data.length
  | file _ size _ _ => size
  | shut size _ => size

def pos : StoreShape → Nat
  | ram _ pos => pos
  | file _ _ pos _ => pos
  | shut _ pos => pos

/-- A call when no system call fails. -/
def step : StoreShape → Op UInt8 → Except Exn (Bytes × StoreShape)
  | ram data pos, .append x =>
    if data.length + x.length ≤ BUFFERLIMIT ∨ x = [] then .ok ([], ram (data ++ x) pos)
    else .ok ([], file (data ++ x) (data.length + x.length) pos (data.length + x.length))
  | ram data pos, .read n =>
    let got := (data.drop pos).take n
    .ok (got, ram data (pos + got.length))
  | ram data _, .rewind => .ok ([], ram data 0)
  | ram data pos, .settle => .ok ([], file data data.length pos data.length)
  | file f size pos off, .append x =>
    if x = [] then .ok ([], file f size pos off)
    else .ok ([], file (f ++ x) (size + x.length) pos (f.length + x.length))
  | file f size pos off, .read n =>
    let got := (f.drop off).take (min n (size - pos))
    .ok (got, file f size (pos + got.length) (off + got.length))
  | file f size _ _, .rewind => .ok ([], file f size 0 0)
  | file f size pos off, .settle => .ok ([], file f size pos off)
  | shut size pos, .append x =>
    if x = [] then .ok ([], shut size pos) else .error (.runtime "DataStore: write failed")
  | shut size pos, .read n =>
    if n = 0 ∨ pos ≥ size then .ok ([], shut size pos) else .error (.runtime "DataStore: read failed")
  | shut size _, .rewind => .ok ([], shut size 0)
  | shut size pos, .settle => .ok ([], shut size pos)
  | _, .clear => .ok ([], ram [] 0)

def run : List (Op UInt8) → StoreShape → Except Exn (List (Seen UInt8))
  | [], _ => .ok []
  | op :: ops, sh =>
    match sh.step op with
    | .error e => .error e
    | .ok (got, sh') => (run ops sh').map (⟨got, sh'.size, sh'.pos⟩ :: ·)

end StoreShape

namespace DataStore

variable {sys : Sys} {d : DataStore} {w : World}

def shape (d : DataStore) : StoreShape :=
  match d.mode, d.fileFd with
  | .RAM, _ => .ram d.dataBuffer d.readOffset
  | .FILE_MODE, some off => .file d.file d.currentSize d.readOffset off
  | .FILE_MODE, none => .shut d.currentSize d.readOffset

theorem shape_ram (hm : d.mode = .RAM) : d.shape = .ram d.dataBuffer d.readOffset := by rw [shape, hm]

theorem shape_file (hm : d.mode = .FILE_MODE) {off : Nat} (hfd : d.fileFd = some off) :
    d.shape = .file d.file d.currentSize d.readOffset off := by rw [shape, hm, hfd]

theorem shape_shut (hm : d.mode = .FILE_MODE) (hfd : d.fileFd = none) : d.shape = .shut d.currentSize d.readOffset := by
  rw [shape, hm, hfd]

theorem Formed.shape_size (h : d.Formed) : d.shape.size = d.getSize := by
  rcases d.mode_cases with hm | hm
  · rw [shape_ram hm]
    exact (h.ram hm).1
  · rcases hfd : d.fileFd with _ | off
    · rw [shape_shut hm hfd]
      rfl
    · rw [shape_file hm hfd]
      rfl

theorem shape_pos (d : DataStore) : d.shape.pos = d.getReadPosition := by
  rcases d.mode_cases with hm | hm
  · rw [shape_ram hm]
    rfl
  · rcases hfd : d.fileFd with _ | off
    · rw [shape_shut hm hfd]
      rfl
    · rw [shape_file hm hfd]
      rfl

/-- The call ends as the shape says. -/
def Follows (r : Except Exn Bytes × DataStore × World) : Except Exn (Bytes × StoreShape) → Prop
  | .ok (got, sh) => r.1 = .ok got ∧ r.2.1.shape = sh
  | .error e => r.1 = .error e

theorem Formed.append_follows (hs : sys.NoFail) (h : d.Formed) (x : Bytes) (w : World) :
    Follows (DataStore.exec sys (.append x) (d, w)) (d.shape.step (.append x)) := by
  have hlimit := h.limit
  rw [DataStore.exec, Eff.bind_apply]
  generalize hrun : DataStore.append sys x (d, w) = r
  have hcases := hrun ▸ append_cases sys x d w
  cases hcases with
  | nil hx =>
    subst hx
    rcases d.mode_cases with hm | hm
    · rw [shape_ram hm, StoreShape.step, if_pos (.inr rfl), List.append_nil]
      exact ⟨rfl, shape_ram hm⟩
    · rcases hfd : d.fileFd with _ | off
      · rw [shape_shut hm hfd, StoreShape.step, if_pos rfl]
        exact ⟨rfl, shape_shut hm hfd⟩
      · rw [shape_file hm hfd, StoreShape.step, if_pos rfl]
        exact ⟨rfl, shape_file hm hfd⟩
  | fits hx hm hfit =>
    rw [← (h.ram hm).1, hlimit] at hfit
    rw [shape_ram hm, StoreShape.step, if_pos (.inl hfit)]
    exact ⟨rfl, shape_ram hm⟩
  | noFile hx hm hfull hend hleft =>
    obtain ⟨t, ht⟩ := spillEnd_noFail hs w hm
    cases ht.symm.trans hend
  | left hx hm hfull hend hleft hc =>
    obtain ⟨t, ht⟩ := spillEnd_noFail hs w hm
    cases ht.symm.trans hend
  | spilled hx hm hfull hend hleft hc htake =>
    have hsize := (h.ram hm).1
    have hover : ¬ (d.dataBuffer.length + x.length ≤ BUFFERLIMIT ∨ x = []) := by
      rw [hlimit, ← hsize] at hfull
      exact not_or.2 ⟨Nat.not_le.2 hfull, hx⟩
    rw [shape_ram hm, StoreShape.step, if_neg hover, hsize]
    exact ⟨rfl, shape_file rfl rfl⟩
  | spilledRefused hx hm hfull hend hleft hc htake href =>
    obtain ⟨t, ht⟩ := takeAll_noFail hs _ x.length
    cases ht.symm.trans htake
  | wrote hx hm hfd htake =>
    rw [shape_file hm hfd, StoreShape.step, if_neg hx]
    refine ⟨rfl, shape_file ?_ rfl⟩
    exact hm
  | refused hx hm hfd htake href =>
    obtain ⟨t, ht⟩ := takeAll_noFail hs _ x.length
    cases ht.symm.trans htake
  | shut hx hm hfd =>
    rw [shape_shut hm hfd, StoreShape.step, if_neg hx]
    rfl

theorem Formed.read_follows (hs : sys.NoFail) (h : d.Formed) (hp : d.Present w) (n : Nat) :
    Follows (DataStore.read sys n (d, w)) (d.shape.step (.read n)) := by
  rcases d.mode_cases with hm | hm
  · have hsound : d.Sound d.dataBuffer := ⟨(h.ram hm).1.symm, fun _ => rfl, (fun hf => by cases hm.symm.trans hf)⟩
    rw [shape_ram hm, read_ram (h.holds hp hsound) hm]
    exact ⟨rfl, shape_ram hm⟩
  rcases hfd : d.fileFd with _ | off
  · rw [shape_shut hm hfd, StoreShape.step, DataStore.read, Eff.obj_bind]
    by_cases hend : n = 0 ∨ d.readOffset ≥ d.currentSize
    · rw [if_pos hend, if_pos hend]
      exact ⟨rfl, shape_shut hm hfd⟩
    · have hleft : min n (d.currentSize - d.readOffset) ≠ 0 := by omega
      rw [if_neg hend, if_neg hend, if_neg (show d.mode ≠ .RAM by rw [hm]; rintro ⟨⟩), Eff.bind_error (readLoop_shut hfd hleft)]
      rfl
  · obtain ⟨t, hread⟩ := read_open (w := w) hs hm hfd n rfl
    rw [shape_file hm hfd, hread]
    refine ⟨rfl, shape_file ?_ rfl⟩
    exact hm

theorem reset_still (h : d.mode = .RAM ∨ d.fileFd = none) :
    resetReadPosition sys (d, w) = (.ok (), { d with readOffset := 0 }, w) := by
  have hstill : ¬ (d.mode = .FILE_MODE ∧ d.fileFd ≠ none) := by
    rintro ⟨hm, hopen⟩
    rcases h with h | h
    · exact nomatch h.symm.trans hm
    · exact hopen h
  simp only [resetReadPosition, Eff.modObj_bind, Eff.obj_bind, if_neg hstill]
  rfl

theorem reset_open (hs : sys.NoFail) (hp : d.Present w) (hm : d.mode = .FILE_MODE) (hfd : d.fileFd ≠ none) {c : Nat}
    (hc : d.absolutePath = some c) : resetReadPosition sys (d, w) =
      (.ok (), { d with readOffset := 0, fileFd := some 0 }, { w with tick := w.tick + 1 }) := by
  have hopen : d.mode = .FILE_MODE ∧ d.fileFd ≠ none := ⟨hm, hfd⟩
  have hthere : sys.openTmp w.tick = true ∧ ∃ c ∈ d.absolutePath, c ∈ w.tmp := ⟨hs.openTmp _, c, hc, hp c hc⟩
  simp only [resetReadPosition, Eff.modObj_bind, Eff.obj_bind, if_pos hopen, sysTick_bind, Eff.world_bind, if_pos hthere]
  rfl

theorem Formed.rewind_follows (hs : sys.NoFail) (h : d.Formed) (hp : d.Present w) :
    Follows (DataStore.exec sys .rewind (d, w)) (d.shape.step .rewind) := by
  rw [DataStore.exec, Eff.bind_apply]
  rcases d.mode_cases with hm | hm
  · rw [shape_ram hm, reset_still (.inl hm)]
    exact ⟨rfl, shape_ram hm⟩
  rcases hfd : d.fileFd with _ | off
  · rw [shape_shut hm hfd, reset_still (.inr hfd)]
    exact ⟨rfl, shape_shut hm hfd⟩
  · obtain ⟨-, -, hname⟩ := h.file hm
    obtain ⟨c, hc⟩ := Option.isSome_iff_exists.1 hname
    rw [shape_file hm hfd, reset_open hs hp hm (by rw [hfd]; rintro ⟨⟩) hc]
    refine ⟨rfl, shape_file ?_ rfl⟩
    exact hm

theorem Formed.settle_follows (hs : sys.NoFail) (h : d.Formed) (w : World) :
    Follows (DataStore.exec sys .settle (d, w)) (d.shape.step .settle) := by
  rw [DataStore.exec, Eff.bind_apply]
  rcases d.mode_cases with hm | hm
  · obtain ⟨c, w', -, -, -, hsw⟩ := switchToFileMode_fresh (w := w) hs hm
    rw [shape_ram hm, hsw, StoreShape.step, (h.ram hm).1]
    exact ⟨rfl, shape_file rfl rfl⟩
  · rw [switchToFileMode_file hm]
    rcases hfd : d.fileFd with _ | off
    · rw [shape_shut hm hfd]
      exact ⟨rfl, shape_shut hm hfd⟩
    · rw [shape_file hm hfd]
      exact ⟨rfl, shape_file hm hfd⟩

theorem Formed.exec_follows (hs : sys.NoFail) (h : d.Formed) (hp : d.Present w) (op : Op UInt8) :
    Follows (DataStore.exec sys op (d, w)) (d.shape.step op) := by
  cases op with
  | append x => exact h.append_follows hs x w
  | read n => exact h.read_follows hs hp n
  | rewind => exact h.rewind_follows hs hp
  | settle => exact h.settle_follows hs w
  | clear =>
    have hstep : d.shape.step .clear = .ok ([], .ram [] 0) := by rcases d.shape <;> rfl
    rw [hstep, DataStore.exec, Eff.bind_ok clear_eq]
    exact ⟨rfl, rfl⟩

/-- What the calls return, as long as no system call fails, is a function of the shape. -/
theorem Formed.runOps_eq (hs : sys.NoFail) (h : d.Formed) (hp : d.Present w) (ops : List (Op UInt8)) :
    (runOps sys ops (d, w)).1 = d.shape.run ops := by
  induction ops generalizing d w with
  | nil => rfl
  | cons op ops ih =>
    have hfollows := h.exec_follows hs hp op
    obtain ⟨hformed, hname⟩ := h.exec sys op w
    rw [StoreShape.run]
    rcases hstep : d.shape.step op with e | ⟨got, sh⟩
    · rw [hstep] at hfollows
      rcases hrun : DataStore.exec sys op (d, w) with ⟨r, s⟩
      rw [hrun] at hfollows
      obtain rfl : r = .error e := hfollows
      rw [runOps, Eff.bind_error hrun]
    · rw [hstep] at hfollows
      rcases hrun : DataStore.exec sys op (d, w) with ⟨r, d', w'⟩
      rw [hrun] at hfollows hformed hname
      obtain ⟨rfl, rfl⟩ : r = .ok got ∧ d'.shape = sh := hfollows
      have hd' : d'.Formed := hformed
      rw [runOps_cons hrun, ih hd' (hname.present hp), ← hd'.shape_size, ← shape_pos]

end DataStore

end LeftHookRoll
