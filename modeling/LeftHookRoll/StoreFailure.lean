import LeftHookRoll.StorePrograms

/-!
# Appends that fail

An append during which a system call fails throws. Whether the store is as before the call depends on
where it failed (`Harmless`): bytes that reached the file stay in it and come before whatever is appended
later, a store that was spilled reads from the end of its file.
-/

namespace LeftHookRoll

open ReadBuffer (Op Seen)

/-- The calls of a reader and writer. -/
def ReadBuffer.Op.Uses : Op UInt8 → Prop
  | .append _ | .read _ | .rewind => True
  | .settle | .clear => False

namespace StoreShape

/-- Stores that no sequence of uses tells apart. -/
inductive Alike : StoreShape → StoreShape → Prop
  | same (sh : StoreShape) : Alike sh sh
  /-- Nothing is left to read, so the file offset is not used before it is set. -/
  | moved {f : Bytes} {size pos off off' : Nat} (h : size ≤ pos) : Alike (file f size pos off) (file f size pos off')
  /-- A full buffer, and the file that the next append would make of it. -/
  | spilled {data : Bytes} {pos : Nat} (h : BUFFERLIMIT ≤ data.length) :
      Alike (ram data pos) (file data data.length pos pos)

variable {sh sh' : StoreShape} {op : Op UInt8} {f data g : Bytes} {size pos off off' : Nat}

theorem Alike.seen (h : Alike sh sh') : sh.size = sh'.size ∧ sh.pos = sh'.pos := by
  cases h <;> exact ⟨rfl, rfl⟩

theorem step_use (h : Alike sh sh') (hop : ReadBuffer.Op.Uses op) :
    (∃ e, sh.step op = .error e ∧ sh'.step op = .error e) ∨
    ∃ got t t', sh.step op = .ok (got, t) ∧ sh'.step op = .ok (got, t') ∧ Alike t t' := by
  cases h with
  | same sh =>
    rcases hstep : sh.step op with e | ⟨got, t⟩
    · exact .inl ⟨e, rfl, rfl⟩
    · exact .inr ⟨got, t, t, rfl, rfl, .same t⟩
  | @moved f size pos off off' h =>
    cases op with
    | append x =>
      by_cases hx : x = []
      · exact .inr ⟨[], _, _, by rw [step, if_pos hx], by rw [step, if_pos hx], .moved h⟩
      · exact .inr ⟨[], _, _, by rw [step, if_neg hx], by rw [step, if_neg hx], .same _⟩
    | read n =>
      have hnone : min n (size - pos) = 0 := by omega
      refine .inr ⟨[], file f size pos off, file f size pos off', ?_, ?_, .moved h⟩ <;> simp [step, hnone]
    | rewind => exact .inr ⟨[], _, _, rfl, rfl, .same _⟩
    | settle | clear => exact hop.elim
  | @spilled data pos h =>
    cases op with
    | append x =>
      by_cases hx : x = []
      · refine .inr ⟨[], _, _, by rw [step, if_pos (.inr hx)], by rw [step, if_pos hx], ?_⟩
        rw [hx, List.append_nil]
        exact .spilled h
      · have hpos := List.length_pos_iff.2 hx
        have hover : ¬ (data.length + x.length ≤ BUFFERLIMIT ∨ x = []) := not_or.2 ⟨by omega, hx⟩
        exact .inr ⟨[], _, _, by rw [step, if_neg hover], by rw [step, if_neg hx], .same _⟩
    | read n =>
      have hgot : (data.drop pos).take (min n (data.length - pos)) = (data.drop pos).take n := by
        rw [List.take_eq_take_iff, List.length_drop]
        omega
      exact .inr ⟨_, _, _, rfl, by simp only [step, hgot], .spilled h⟩
    | rewind => exact .inr ⟨[], _, _, rfl, rfl, .spilled h⟩
    | settle | clear => exact hop.elim

theorem Alike.run_eq (h : Alike sh sh') {ops : List (Op UInt8)} (hops : ∀ op ∈ ops, ReadBuffer.Op.Uses op) :
    sh'.run ops = sh.run ops := by
  induction ops generalizing sh sh' with
  | nil => rfl
  | cons op ops ih =>
    rw [run, run]
    rcases step_use h (hops op List.mem_cons_self) with ⟨e, h₁, h₂⟩ | ⟨got, t, t', h₁, h₂, ht⟩
    · rw [h₁, h₂]
    · obtain ⟨hsize, hpos⟩ := ht.seen
      rw [h₁, h₂]
      simp only
      rw [ih ht fun op hop => hops op (List.mem_cons_of_mem _ hop), hsize, hpos]

/-! ### Stores that differ -/

/-- The uses tell the shapes apart. -/
def Tells (sh sh' : StoreShape) : Prop :=
  ∃ ops : List (Op UInt8), (∀ op ∈ ops, ReadBuffer.Op.Uses op) ∧ sh'.run ops ≠ sh.run ops

theorem run_cons {got : Bytes} {t : StoreShape} {ops : List (Op UInt8)} (h : sh.step op = .ok (got, t)) :
    sh.run (op :: ops) = (t.run ops).map (⟨got, t.size, t.pos⟩ :: ·) := by
  rw [run, h]

/-- What the first read of existing data gives. -/
theorem tells_of_read {n : Nat} {got got' : Bytes} {t t' : StoreShape} (h : sh.step (.read n) = .ok (got, t))
    (h' : sh'.step (.read n) = .ok (got', t')) (hne : got ≠ got') : Tells sh sh' := by
  refine ⟨[.read n], by simp [ReadBuffer.Op.Uses], fun heq => ?_⟩
  rw [run_cons h, run_cons h'] at heq
  simp only [run, Except.map, Except.ok.injEq, List.cons.injEq, and_true, ReadBuffer.Seen.mk.injEq] at heq
  exact hne heq.1.symm

theorem Tells.after {got : Bytes} {t t' : StoreShape} (op : Op UInt8) (ht : Tells t t') (hop : ReadBuffer.Op.Uses op)
    (h : sh.step op = .ok (got, t)) (h' : sh'.step op = .ok (got, t')) : Tells sh sh' := by
  obtain ⟨ops, hops, hne⟩ := ht
  refine ⟨op :: ops, ?_, fun heq => hne ?_⟩
  · rintro op' (_ | ⟨_, hop'⟩)
    · exact hop
    · exact hops _ hop'
  · rw [run_cons h, run_cons h'] at heq
    rcases hrun : t.run ops with e | out <;> rcases hrun' : t'.run ops with e' | out' <;> rw [hrun, hrun'] at heq
    · exact congrArg Except.error (Except.error.inj heq)
    · cases heq
    · cases heq
    · have hcons := Except.ok.inj heq
      rw [List.cons.inj hcons |>.2]

theorem exists_byte_ne (b : UInt8) : ∃ b' : UInt8, b' ≠ b := by
  by_cases h : b = 0
  · exact ⟨1, by rw [h]; decide⟩
  · exact ⟨0, Ne.symm h⟩

theorem step_file {x : Bytes} (hx : x ≠ []) : (file f size pos off).step (.append x) =
    .ok ([], file (f ++ x) (size + x.length) pos (f.length + x.length)) := by
  rw [step, if_neg hx]

/-- A store whose file holds more than its data gives the bytes behind it instead of those appended. -/
theorem file_tells (hg : g ≠ []) (hsize : size ≤ f.length) : Tells (file f size pos off) (file (f ++ g) size pos off') := by
  obtain ⟨b₀, gs, rfl⟩ := List.exists_cons_of_ne_nil hg
  obtain ⟨b, hb⟩ := exists_byte_ne b₀
  obtain ⟨x, hx⟩ : ∃ x, x = b :: List.replicate (f.length - size) b := ⟨_, rfl⟩
  have hlen : size + x.length = f.length + 1 := by
    rw [hx, List.length_cons, List.length_replicate]
    omega
  have hne : x ≠ [] := by rw [hx]; exact List.cons_ne_nil _ _
  refine Tells.after (.append x) ?_ trivial (step_file hne) (step_file hne)
  refine Tells.after .rewind ?_ trivial rfl rfl
  refine tells_of_read (n := f.length + 1) rfl rfl ?_
  rw [hlen, hx]
  simpa [List.take_append] using hb

/-- The same for a store that was spilled. -/
theorem spilled_tells (hg : g ≠ []) : Tells (ram data pos) (file (data ++ g) data.length pos off) := by
  obtain ⟨b₀, gs, rfl⟩ := List.exists_cons_of_ne_nil hg
  obtain ⟨b, hb⟩ := exists_byte_ne b₀
  have hne : [b] ≠ [] := List.cons_ne_nil _ _
  by_cases hfit : data.length + [b].length ≤ BUFFERLIMIT ∨ [b] = []
  · refine Tells.after (.append [b]) ?_ trivial (by rw [step, if_pos hfit]) (step_file hne)
    refine Tells.after .rewind ?_ trivial rfl rfl
    refine tells_of_read (n := data.length + 1) rfl rfl ?_
    simpa [List.take_append] using hb
  · refine Tells.after (.append [b]) ?_ trivial (by rw [step, if_neg hfit]) (step_file hne)
    refine Tells.after .rewind ?_ trivial rfl rfl
    refine tells_of_read (n := data.length + 1) rfl rfl ?_
    simpa [List.take_append] using hb

theorem offset_tells (hoff : off < f.length) (hpos : pos < size) :
    Tells (file f size pos off) (file f size pos f.length) := by
  refine tells_of_read (n := 1) rfl rfl fun h => ?_
  have hlen := congrArg List.length h
  simp only [List.length_take, List.length_drop, List.drop_length, List.take_nil, List.length_nil] at hlen
  omega

theorem position_tells (hpos : pos ≤ data.length) (h : pos < data.length ∨ data.length < BUFFERLIMIT) :
    Tells (ram data pos) (file data data.length pos data.length) := by
  by_cases hleft : pos < data.length
  · refine tells_of_read (n := 1) rfl rfl fun h => ?_
    have hlen := congrArg List.length h
    simp only [List.length_take, List.length_drop, List.drop_length, List.take_nil, List.length_nil] at hlen
    omega
  · have hfit : data.length + [(0 : UInt8)].length ≤ BUFFERLIMIT ∨ [(0 : UInt8)] = [] := .inl (by simp; omega)
    have hend : pos = data.length := by omega
    refine Tells.after (.append [0]) ?_ trivial (by rw [step, if_pos hfit]) (step_file (List.cons_ne_nil _ _))
    refine tells_of_read (n := 1) rfl rfl ?_
    simp [hend]

end StoreShape

namespace DataStore

/-- The call after an append during which no call fails. -/
def appendEnd (sys : Sys) (x : Bytes) (s : DataStore × World) : Option Nat :=
  if x = [] then some s.2.tick
  else
    match s.1.mode with
    | .RAM =>
      if s.1.currentSize + x.length > s.1.bufferLimit then (spillEnd sys s).bind fun t => sys.takeAll t x.length
      else some s.2.tick
    | .FILE_MODE => s.1.fileFd.bind fun _ => sys.takeAll s.2.tick x.length

/-- The size is the same, and no later use, during which no call fails, tells the stores apart: what is
read, the sizes and the positions are the same. -/
structure Unharmed (s s' : DataStore × World) : Prop where
  size : s'.1.getSize = s.1.getSize
  later : ∀ sys : Sys, sys.NoFail → ∀ ops : List (Op UInt8), (∀ op ∈ ops, ReadBuffer.Op.Uses op) →
    (runOps sys ops s').1 = (runOps sys ops s).1

/-- Where a failure leaves the store as it was. In memory: before the buffer is in the file, or when the
first write after that takes nothing and the buffer was full and read to its end. In a file: when the
first write fails, or takes nothing while the file offset is at the end or nothing is left to read. -/
def Harmless (sys : Sys) (x : Bytes) (s : DataStore × World) : Prop :=
  match s.1.mode with
  | .RAM => ∀ t, spillEnd sys s = some t → (∀ k, sys.writeTmp t x.length ≠ some (k + 1)) ∧
      s.1.currentSize = s.1.bufferLimit ∧ s.1.readOffset = s.1.currentSize
  | .FILE_MODE => ∀ off, s.1.fileFd = some off → sys.writeTmp s.2.tick x.length = none ∨
      sys.writeTmp s.2.tick x.length = some 0 ∧ (off = s.1.file.length ∨ s.1.readOffset = s.1.currentSize)

variable {sys : Sys} {d d' : DataStore} {w w' : World} {x : Bytes}

theorem unharmed_of_alike (h : d.Formed) (hp : d.Present w) (h' : d'.Formed) (hp' : d'.Present w')
    (halike : StoreShape.Alike d.shape d'.shape) : Unharmed (d, w) (d', w') := by
  refine ⟨?_, fun sys hs ops hops => ?_⟩
  · rw [← h.shape_size, ← h'.shape_size, halike.seen.1]
  · rw [h.runOps_eq hs hp, h'.runOps_eq hs hp', halike.run_eq hops]

theorem not_unharmed (h : d.Formed) (hp : d.Present w) (h' : d'.Formed) (hp' : d'.Present w')
    (htells : StoreShape.Tells d.shape d'.shape) : ¬ Unharmed (d, w) (d', w') := by
  rintro ⟨-, hlater⟩
  obtain ⟨ops, hops, hne⟩ := htells
  have := hlater Sys.calm Sys.calm_noFail ops hops
  rw [h.runOps_eq Sys.calm_noFail hp, h'.runOps_eq Sys.calm_noFail hp'] at this
  exact hne this

theorem spilledRefused_iff {t t' n c off : Nat} {taken : Bytes} (h : d.Formed) (hp : d.Present w)
    (h' : Formed { d with
      mode := .FILE_MODE, dataBuffer := [], file := d.dataBuffer ++ taken, fileFd := some off, absolutePath := some c })
    (hp' : Present { d with
      mode := .FILE_MODE, dataBuffer := [], file := d.dataBuffer ++ taken, fileFd := some off, absolutePath := some c }
      { w with tick := t', fileCounter := n, tmp := insert c w.tmp })
    (hm : d.mode = .RAM) (hspill : spillEnd sys (d, w) = some t)
    (href : Refused sys t x d.dataBuffer.length d.dataBuffer.length taken off) :
    Unharmed (d, w) ({ d with
      mode := .FILE_MODE, dataBuffer := [], file := d.dataBuffer ++ taken, fileFd := some off, absolutePath := some c },
      { w with tick := t', fileCounter := n, tmp := insert c w.tmp }) ↔ Harmless sys x (d, w) := by
  obtain ⟨hsize, hmax, -, -⟩ := h.ram hm
  have hlimit := h.limit
  have hposition := h.position
  have hharmless : Harmless sys x (d, w) ↔ taken = [] ∧ d.currentSize = d.bufferLimit ∧ d.readOffset = d.currentSize := by
    simp [Harmless, hm, hspill, href.nil_iff]
  rw [hharmless]
  by_cases htaken : taken = []
  · have hoff : off = d.dataBuffer.length := by
      rw [href.offset, htaken, List.length_nil, Nat.add_zero, ite_self]
    subst htaken
    rw [List.append_nil, hoff] at h' hp' ⊢
    by_cases hfull : d.currentSize = d.bufferLimit ∧ d.readOffset = d.currentSize
    · refine iff_of_true (unharmed_of_alike h hp h' hp' ?_) ⟨rfl, hfull⟩
      rw [shape_ram hm, shape_file rfl rfl, ← hsize, show d.readOffset = d.dataBuffer.length by omega]
      exact .spilled (by omega)
    · refine iff_of_false (not_unharmed h hp h' hp' ?_) fun hl => hfull hl.2
      rw [shape_ram hm, shape_file rfl rfl, ← hsize]
      exact StoreShape.position_tells (by omega) (by omega)
  · refine iff_of_false (not_unharmed h hp h' hp' ?_) fun hl => htaken hl.1
    rw [shape_ram hm, shape_file rfl rfl, ← hsize]
    exact StoreShape.spilled_tells htaken

theorem refused_iff {off off' t : Nat} {taken : Bytes} (h : d.Formed) (hp : d.Present w)
    (h' : Formed { d with file := d.file ++ taken, fileFd := some off' })
    (hp' : Present { d with file := d.file ++ taken, fileFd := some off' } { w with tick := t })
    (hm : d.mode = .FILE_MODE) (hfd : d.fileFd = some off)
    (href : Refused sys w.tick x off d.file.length taken off') :
    Unharmed (d, w) ({ d with file := d.file ++ taken, fileFd := some off' }, { w with tick := t }) ↔
      Harmless sys x (d, w) := by
  obtain ⟨-, hsize, -⟩ := h.file hm
  have hposition := h.position
  have hinside := h.offset off hfd
  have hharmless : Harmless sys x (d, w) ↔ sys.writeTmp w.tick x.length = none ∨
      sys.writeTmp w.tick x.length = some 0 ∧ (off = d.file.length ∨ d.readOffset = d.currentSize) := by
    simp [Harmless, hm, hfd]
  have hshape := shape_file hm hfd
  have hshape' : DataStore.shape { d with file := d.file ++ taken, fileFd := some off' } =
      .file (d.file ++ taken) d.currentSize d.readOffset off' := shape_file (by exact hm) rfl
  rw [hharmless]
  rcases hk : sys.writeTmp w.tick x.length with _ | _ | k
  · have htaken : taken = [] := href.nil_iff.2 fun k => by rw [hk]; nofun
    have hoff := href.offset
    rw [if_pos hk] at hoff
    refine iff_of_true (unharmed_of_alike h hp h' hp' ?_) (.inl rfl)
    rw [hshape, hshape', htaken, List.append_nil, hoff]
    exact .same _
  · have htaken : taken = [] := href.nil_iff.2 fun k => by rw [hk]; nofun
    have hoff := href.offset
    rw [if_neg (by rw [hk]; nofun), htaken, List.length_nil, Nat.add_zero] at hoff
    by_cases hsafe : off = d.file.length ∨ d.readOffset = d.currentSize
    · refine iff_of_true (unharmed_of_alike h hp h' hp' ?_) (.inr ⟨rfl, hsafe⟩)
      rw [hshape, hshape', htaken, List.append_nil, hoff]
      rcases hsafe with hend | hread
      · rw [hend]
        exact .same _
      · exact .moved hread.ge
    · refine iff_of_false (not_unharmed h hp h' hp' ?_) (fun hl => hsafe (by simpa using hl))
      rw [hshape, hshape', htaken, List.append_nil, hoff]
      exact StoreShape.offset_tells (by omega) (by omega)
  · have htaken : taken ≠ [] := fun hnil => href.nil_iff.1 hnil k hk
    refine iff_of_false (not_unharmed h hp h' hp' ?_) (by simp)
    rw [hshape, hshape']
    exact StoreShape.file_tells htaken hsize

/-- A failing append throws, and leaves the store as it was exactly where that is harmless. -/
theorem Formed.append_fails (h : d.Formed) (hp : d.Present w) (hend : appendEnd sys x (d, w) = none) :
    ∃ e s', DataStore.append sys x (d, w) = (.error e, s') ∧ (Unharmed (d, w) s' ↔ Harmless sys x (d, w)) := by
  obtain ⟨h', hnames⟩ := h.append sys x w
  have hp' := hnames.present hp
  rw [appendEnd] at hend
  generalize hrun : DataStore.append sys x (d, w) = r at h' hp'
  have hcases := hrun ▸ append_cases sys x d w
  cases hcases with
  | nil hx => simp [hx] at hend
  | fits hx hm hfit => simp [hx, hm, Nat.not_lt.2 hfit] at hend
  | spilled hx hm hfull hspill hleft hc htake => simp [hx, hm, hfull, hspill, htake] at hend
  | wrote hx hm hfd htake => simp [hx, hm, hfd, htake] at hend
  | noFile hx hm hfull hspill hleft =>
    refine ⟨_, _, rfl, iff_of_true (unharmed_of_alike h hp h' hp' (.same _)) ?_⟩
    simp [Harmless, hm, hspill]
  | left hx hm hfull hspill hleft hc =>
    refine ⟨_, _, rfl, iff_of_true (unharmed_of_alike h hp h' hp' ?_) ?_⟩
    · rw [shape_ram hm, shape_ram (by exact hm)]
      exact .same _
    · simp [Harmless, hm, hspill]
  | shut hx hm hfd =>
    refine ⟨_, _, rfl, iff_of_true (unharmed_of_alike h hp h' hp' (.same _)) ?_⟩
    simp [Harmless, hm, hfd]
  | spilledRefused hx hm hfull hspill hleft hc htake href =>
    exact ⟨_, _, rfl, spilledRefused_iff h hp h' hp' hm hspill href⟩
  | refused hx hm hfd htake href => exact ⟨_, _, rfl, refused_iff h hp h' hp' hm hfd href⟩

/-- For a store of any program: an append during which a call fails throws and leaves the store as it was
if and only if the failure is harmless. -/
theorem append_unharmed_iff (sys : Sys) (w₀ : World) (p : List StoreCmd) {i : Nat}
    (hd : (Stores.run sys p (Stores.start w₀)).1 i = some d) (x : Bytes) :
    (appendEnd sys x (d, (Stores.run sys p (Stores.start w₀)).2) = none →
      ∃ e s', DataStore.append sys x (d, (Stores.run sys p (Stores.start w₀)).2) = (.error e, s') ∧
        Unharmed (d, (Stores.run sys p (Stores.start w₀)).2) s') ↔
    (appendEnd sys x (d, (Stores.run sys p (Stores.start w₀)).2) = none →
      Harmless sys x (d, (Stores.run sys p (Stores.start w₀)).2)) := by
  have hsound := (Stores.sound_start w₀).run sys p
  refine forall_congr' fun hend => ?_
  obtain ⟨e, s', hrun, hiff⟩ := (hsound.formed i d hd).append_fails (hsound.present hd) hend
  rw [← hiff]
  constructor
  · rintro ⟨e', s'', hrun', hsame⟩
    cases hrun.symm.trans hrun'
    exact hsame
  · exact fun hsame => ⟨e, s', hrun, hsame⟩

/-- A disk on which a file can be made; writes end as `f` says. -/
abbrev writing (f : Nat → Nat → Option Nat) : Sys := { Sys.calm with writeTmp := f }

/-- An empty file. -/
def emptyFile : DataStore := { mode := .FILE_MODE, fileFd := some 0, absolutePath := some 0 }

def afterSettle : World := { tick := 1, fileCounter := 1, tmp := {0} }

theorem settle_empty (f : Nat → Nat → Option Nat) :
    switchToFileMode (writing f) ({}, {}) = (.ok (), emptyFile, afterSettle) := by
  have htry : tryTempNames (writing f) ∅ 0 ({}, {}) = (.ok 0, {}, { tick := 1, fileCounter := 1 }) := by
    rw [tryTempNames]
    rfl
  have hgen : generateTempFileName (writing f) ({}, {}) =
      (.ok (), { fileFd := some 0, absolutePath := some 0 }, afterSettle) := by
    rw [generateTempFileName, Eff.world_bind, Eff.bind_ok htry]
    rfl
  rw [switchToFileMode, Eff.obj_bind, if_neg (by rintro ⟨⟩), Eff.bind_ok hgen, Eff.obj_bind, writeAll]
  rfl

theorem run_settled (f : Nat → Nat → Option Nat) : Stores.run (writing f) [.make 0, .call 0 .settle] (Stores.start {}) =
    (Function.update (Function.update (fun _ => none) 0 (some {})) 0 (some emptyFile), afterSettle) := by
  have hexec : DataStore.exec (writing f) .settle ({}, {}) = (.ok [], emptyFile, afterSettle) := by
    rw [DataStore.exec, Eff.bind_ok (settle_empty f)]
    rfl
  show StoreCmd.step (writing f) (.call 0 .settle) (Function.update (fun _ => none) 0 (some {}), {}) = _
  simp only [StoreCmd.step, Function.update_self, hexec]

theorem settled_store (f : Nat → Nat → Option Nat) :
    (Stores.run (writing f) [.make 0, .call 0 .settle] (Stores.start {})).1 0 = some emptyFile := by
  have hstore : Function.update (Function.update (fun _ => none) 0 (some {})) 0 (some emptyFile) 0 = some emptyFile :=
    Function.update_self ..
  rw [run_settled]
  exact hstore

/-- A full disk refuses the first byte for an empty file. -/
theorem append_unharmed_refused :
    ∃ d w, (Stores.run Sys.fullDisk [.make 0, .call 0 .settle] (Stores.start {})).1 0 = some d ∧ d.mode = .FILE_MODE ∧
      (Stores.run Sys.fullDisk [.make 0, .call 0 .settle] (Stores.start {})).2 = w ∧
      ∃ e s', DataStore.append Sys.fullDisk [1] (d, w) = (.error e, s') ∧ Unharmed (d, w) s' := by
  have hd : (Stores.run Sys.fullDisk [.make 0, .call 0 .settle] (Stores.start {})).1 0 = some emptyFile := settled_store _
  have hend (w : World) : appendEnd Sys.fullDisk [1] (emptyFile, w) = none := by
    show Sys.fullDisk.takeAll w.tick 1 = none
    rw [Sys.takeAll]
    rfl
  have hharmless (w : World) : Harmless Sys.fullDisk [1] (emptyFile, w) := fun _ _ => .inl rfl
  exact ⟨emptyFile, _, hd, rfl, rfl, (append_unharmed_iff Sys.fullDisk {} [.make 0, .call 0 .settle] hd [1]).2
    (fun _ => hharmless _) (hend _)⟩

/-- The disk takes one more byte. -/
def oneByte : Sys := { Sys.calm with writeTmp := fun t _ => if t = 1 then some 1 else none }

/-- One of two bytes is written to an empty file: the append throws, and the byte stays in the file. -/
theorem append_harms_half_written :
    ∃ d w, (Stores.run oneByte [.make 0, .call 0 .settle] (Stores.start {})).1 0 = some d ∧
      (Stores.run oneByte [.make 0, .call 0 .settle] (Stores.start {})).2 = w ∧
      ∃ e s', DataStore.append oneByte [98, 99] (d, w) = (.error e, s') ∧ ¬ Unharmed (d, w) s' := by
  have hd : (Stores.run oneByte [.make 0, .call 0 .settle] (Stores.start {})).1 0 = some emptyFile := settled_store _
  have hw : (Stores.run oneByte [.make 0, .call 0 .settle] (Stores.start {})).2 = afterSettle :=
    congrArg Prod.snd (run_settled _)
  have hsound := (Stores.sound_start {}).run oneByte [.make 0, .call 0 .settle]
  have hend : appendEnd oneByte [98, 99] (emptyFile, afterSettle) = none := by
    show oneByte.takeAll 1 2 = none
    rw [Sys.takeAll]
    show oneByte.takeAll 2 1 = none
    rw [Sys.takeAll]
    rfl
  obtain ⟨e, s', happ, hiff⟩ := (hsound.formed 0 _ hd).append_fails (hsound.present (i := 0) hd) (hw ▸ hend)
  rw [hw] at happ hiff
  refine ⟨emptyFile, afterSettle, hd, hw, e, s', happ, fun hsame => ?_⟩
  rcases hiff.1 hsame 0 rfl with h | ⟨h, -⟩ <;> cases h

end DataStore

end LeftHookRoll
