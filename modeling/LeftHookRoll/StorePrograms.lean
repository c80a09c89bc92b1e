import LeftHookRoll.Lib.Owning
import LeftHookRoll.StoreShape

/-!
# Programs over any number of stores

A program makes stores, copies, assigns and destroys them and calls their methods; a call that throws is
caught, and a constructor that throws leaves no object. At every moment each temporary file that the
process made and that still exists belongs to exactly one store, as long as no step leaves one behind
(`files_owned_iff`). When no system call fails the program computes on plain contents (`Represents`).
-/

namespace LeftHookRoll

open ReadBuffer (Op)

/-- The objects that are alive, and what they share. -/
abbrev Stores := (Nat → Option DataStore) × World

inductive StoreCmd
  | make (i : Nat)
  /-- The copy constructor: `i` is made from `j`. -/
  | copy (i j : Nat)
  /-- `i = j` -/
  | assign (i j : Nat)
  | call (i : Nat) (op : Op UInt8)
  | destroy (i : Nat)

namespace StoreCmd

/-- The object that is made, changed or destroyed. -/
def target : StoreCmd → Nat
  | make i | copy i _ | assign i _ | call i _ | destroy i => i

/-- One step; one that speaks of objects that are not there, or makes one that is, is no step of a
program and does nothing. -/
def step (sys : Sys) : StoreCmd → Stores → Stores
  | make i, s =>
    match s.1 i with
    | none => (Function.update s.1 i (some {}), s.2)
    | some _ => s
  | copy i j, s =>
    match s.1 i, s.1 j with
    | none, some other =>
      match DataStore.copy sys other ({}, s.2) with
      | (.ok _, d, w) => (Function.update s.1 i (some d), w)
      | (.error _, _, w) => (s.1, w)
    | _, _ => s
  | assign i j, s =>
    match s.1 i, s.1 j with
    | some d, some other =>
      let r := (DataStore.assign sys other (d, s.2)).2
      (Function.update s.1 i (some r.1), r.2)
    | _, _ => s
  | call i op, s =>
    match s.1 i with
    | some d =>
      let r := (DataStore.exec sys op (d, s.2)).2
      (Function.update s.1 i (some r.1), r.2)
    | none => s
  | destroy i, s =>
    match s.1 i with
    | some d => (Function.update s.1 i none, d.destroy s.2)
    | none => s

/-- The step makes a temporary file and fails before a store has come to name it for good: the bytes
that were in memory, or those of the store copied, could not be written to it. -/
def Leaves (sys : Sys) : StoreCmd → Stores → Prop
  | copy i j, s => s.1 i = none ∧ ∃ other ∈ s.1 j, DataStore.CopyLeaves sys other s.2
  | assign i j, s => (s.1 i).isSome ∧ ∃ other ∈ s.1 j, DataStore.CopyLeaves sys other s.2
  | call i op, s => ∃ d ∈ s.1 i, DataStore.ExecLeaves sys (d, s.2) op
  | _, _ => False

end StoreCmd

namespace Stores

/-- No object is alive. -/
def start (w : World) : Stores := (fun _ => none, w)

def run (sys : Sys) (p : List StoreCmd) (s : Stores) : Stores := p.foldl (fun s c => c.step sys s) s

/-- `P` holds at the start, and after every step. -/
def Throughout (sys : Sys) (P : Stores → Prop) : List StoreCmd → Stores → Prop
  | [], s => P s
  | c :: p, s => P s ∧ Throughout sys P p (c.step sys s)

/-- No step leaves a file behind. -/
def NoneLeft (sys : Sys) : List StoreCmd → Stores → Prop
  | [], _ => True
  | c :: p, s => ¬ c.Leaves sys s ∧ NoneLeft sys p (c.step sys s)

/-- `_absolutePath` of each object. -/
def path (s : Stores) (i : Nat) : Option Nat := (s.1 i).bind (·.absolutePath)

/-- Besides the files of `base` exactly those exist that a live store names, each named by one. -/
def FilesOwned (base : Finset Nat) (s : Stores) : Prop := Owning base s.2.tmp s.path

/-- What holds of the stores of every program. -/
structure Sound (s : Stores) : Prop where
  formed : ∀ i d, s.1 i = some d → d.Formed
  owned : ∃ base, FilesOwned base s

variable {sys : Sys} {s : Stores} {i j : Nat} {d d' : DataStore} {w : World} {base : Finset Nat}

theorem path_update (s : Stores) (i : Nat) (x : Option DataStore) (w : World) :
    path (Function.update s.1 i x, w) = Function.update s.path i (x.bind (·.absolutePath)) := by
  funext k
  by_cases hk : k = i
  · simp [path, hk]
  · simp [path, Function.update_of_ne hk]

theorem path_eq (h : s.1 i = some d) : s.path i = d.absolutePath := by rw [path, h, Option.bind_some]

theorem path_none (h : s.1 i = none) : s.path i = none := by rw [path, h, Option.bind_none]

theorem Sound.present (h : s.Sound) (hi : s.1 i = some d) : d.Present s.2 := by
  intro c hc
  obtain ⟨base, howned⟩ := h.owned
  exact howned.mem ((path_eq hi).trans hc)

/-- The names after a step that changes the object `i` only. -/
theorem FilesOwned.update (h : FilesOwned base s) {leaves : Prop} {w' : World} (hi : s.path i = d.absolutePath)
    (hn : DataStore.NameStep leaves (d, s.2) (d', w')) :
    (¬ leaves → FilesOwned base (Function.update s.1 i (some d'), w')) ∧
      (leaves → ∃ c, c ∉ s.2.tmp ∧ w'.tmp = insert c s.2.tmp ∧
        path (Function.update s.1 i (some d'), w') = s.path) := by
  rw [FilesOwned, path_update, Option.bind_some]
  cases hn with
  | same hl hname htmp =>
    refine ⟨fun _ => ?_, fun hl' => absurd hl' hl⟩
    rw [show d'.absolutePath = s.path i from hname.trans hi.symm, Function.update_eq_self, show w'.tmp = s.2.tmp from htmp]
    exact h
  | made c hl hnone hname hc htmp =>
    refine ⟨fun _ => ?_, fun hl' => absurd hl' hl⟩
    rw [show d'.absolutePath = some c from hname, show w'.tmp = insert c s.2.tmp from htmp]
    exact h.take (hi.trans hnone) hc
  | gave hl hname htmp =>
    refine ⟨fun _ => ?_, fun hl' => absurd hl' hl⟩
    rw [show d'.absolutePath = none from hname, show w'.tmp = d.absolutePath.elim s.2.tmp s.2.tmp.erase from htmp, ← hi]
    exact h.drop i
  | left c hl hname hc htmp =>
    refine ⟨fun hl' => absurd hl hl', fun _ => ⟨c, hc, htmp, ?_⟩⟩
    rw [show d'.absolutePath = s.path i from hname.trans hi.symm, Function.update_eq_self]

end Stores

namespace DataStore

variable {sys : Sys} {other : DataStore} {w : World}

/-- A copy into a new object. Where the constructor throws there is no object. -/
theorem Formed.copy (sys : Sys) (h : other.Formed) (hp : other.Present w) :
    (∃ d' w', DataStore.copy sys other ({}, w) = (.ok (), d', w') ∧ d'.Formed ∧ d'.getSize = other.getSize ∧
      ¬ CopyLeaves sys other w ∧ (d'.absolutePath = none ∧ w'.tmp = w.tmp ∨
        ∃ c, c ∉ w.tmp ∧ d'.absolutePath = some c ∧ w'.tmp = insert c w.tmp)) ∨
    ∃ e d' w', DataStore.copy sys other ({}, w) = (.error e, d', w') ∧
      (¬ CopyLeaves sys other w ∧ w'.tmp = w.tmp ∨
        CopyLeaves sys other w ∧ ∃ c, c ∉ w.tmp ∧ w'.tmp = insert c w.tmp) := by
  rcases other.mode_cases with hm | hm
  · obtain ⟨h1, h2, -, -⟩ := h.ram hm
    exact .inl ⟨_, w, copy_ram hm {}, ⟨h.limit, Nat.zero_le _, fun _ => ⟨h1, h2, rfl, rfl⟩, (nomatch ·), nofun⟩, rfl,
      (fun hl => nomatch hm.symm.trans hl.1), .inl ⟨rfl, rfl⟩⟩
  obtain ⟨-, hsize, hname⟩ := h.file hm
  obtain ⟨c, hc⟩ := Option.isSome_iff_exists.1 hname
  rcases copy_cases sys hm ⟨c, hc, hp c hc⟩ hsize {} with ⟨hl, t, n, c', off, hnew, hoff, hrun⟩ |
    ⟨hl, e, d', t, n, hrun⟩ | ⟨hl, e, d', t, n, c', hnew, hrun⟩
  · have hlen : (other.file.take other.currentSize).length = other.currentSize := by
      rw [List.length_take]
      omega
    refine .inl ⟨_, _, hrun, ⟨h.limit, Nat.zero_le _, (nomatch ·), fun _ => ⟨rfl, hlen.ge, rfl⟩, ?_⟩, rfl, hl,
      .inr ⟨c', hnew, rfl, rfl⟩⟩
    rintro _ ⟨⟩
    exact hoff.trans hlen.ge
  · exact .inr ⟨e, d', _, hrun, .inl ⟨hl, rfl⟩⟩
  · exact .inr ⟨e, d', _, hrun, .inr ⟨hl, c', hnew, rfl⟩⟩

end DataStore

namespace Stores

variable {sys : Sys} {s : Stores} {base : Finset Nat} {c : StoreCmd}

/-- What a step does to the names, from any state. -/
def Named (sys : Sys) (base : Finset Nat) (c : StoreCmd) (s : Stores) : Prop :=
  (¬ c.Leaves sys s → FilesOwned base (c.step sys s)) ∧
    (c.Leaves sys s → ∃ n, n ∉ s.2.tmp ∧ (c.step sys s).2.tmp = insert n s.2.tmp ∧ (c.step sys s).path = s.path)

theorem named_self (h : FilesOwned base s) (hl : ¬ c.Leaves sys s) (hs : c.step sys s = s) : Named sys base c s :=
  ⟨fun _ => by rwa [hs], fun hl' => absurd hl' hl⟩

theorem named_copy (h : s.Sound) (howned : FilesOwned base s) (i j : Nat) : Named sys base (.copy i j) s := by
  rcases hi : s.1 i with _ | d
  swap
  · exact named_self howned (fun hl => nomatch hi.symm.trans hl.1) (by rw [StoreCmd.step, hi])
  rcases hj : s.1 j with _ | other
  · refine named_self howned (fun ⟨_, other, ho, _⟩ => nomatch hj.symm.trans ho) (by rw [StoreCmd.step, hi, hj])
  have hleaves : (StoreCmd.copy i j).Leaves sys s ↔ DataStore.CopyLeaves sys other s.2 := by
    simp [StoreCmd.Leaves, hi, hj]
  rw [Named, hleaves, StoreCmd.step, hi, hj]
  have hnone : s.path i = none := path_none hi
  rcases (h.formed j other hj).copy sys (h.present hj) with
    ⟨d', w', hrun, -, -, hl, hnames⟩ | ⟨e, d', w', hrun, hnames⟩
  · refine ⟨fun _ => ?_, fun hl' => absurd hl' hl⟩
    simp only [hrun]
    rcases hnames with ⟨hname, htmp⟩ | ⟨c, hc, hname, htmp⟩
    · exact (howned.update (d := {}) hnone (.same hl hname htmp)).1 hl
    · exact (howned.update (d := {}) hnone (.made c hl rfl hname hc htmp)).1 hl
  · simp only [hrun]
    rcases hnames with ⟨hl, htmp⟩ | ⟨hl, c, hc, htmp⟩
    · refine ⟨fun _ => ?_, fun hl' => absurd hl' hl⟩
      rw [FilesOwned, htmp]
      exact howned
    · exact ⟨fun hl' => absurd hl hl', fun _ => ⟨c, hc, htmp, rfl⟩⟩

theorem named_assign (h : s.Sound) (howned : FilesOwned base s) (i j : Nat) : Named sys base (.assign i j) s := by
  rcases hi : s.1 i with _ | d
  · exact named_self howned (fun hl => by simp [StoreCmd.Leaves, hi] at hl) (by rw [StoreCmd.step, hi])
  rcases hj : s.1 j with _ | other
  · refine named_self howned (fun ⟨_, other, ho, _⟩ => nomatch hj.symm.trans ho) (by rw [StoreCmd.step, hi, hj])
  have hleaves : (StoreCmd.assign i j).Leaves sys s ↔ DataStore.CopyLeaves sys other s.2 := by
    simp [StoreCmd.Leaves, hi, hj]
  rw [Named, hleaves, StoreCmd.step, hi, hj]
  have hpath : s.path i = d.absolutePath := path_eq hi
  rcases (h.formed j other hj).copy sys (h.present hj) with
    ⟨d', w', hrun, -, -, hl, hnames⟩ | ⟨e, d', w', hrun, hnames⟩
  · refine ⟨fun _ => ?_, fun hl' => absurd hl' hl⟩
    simp only [DataStore.assign_of_copy hrun, FilesOwned, path_update, Option.bind_some, DataStore.destroy,
      DataStore.clear_eq]
    have hdrop := howned.drop i
    rw [hpath] at hdrop
    rcases hnames with ⟨hname, htmp⟩ | ⟨c, hc, hname, htmp⟩
    · rw [hname, htmp]
      exact hdrop
    · have hnew : c ∉ d.absolutePath.elim s.2.tmp s.2.tmp.erase := by
        rcases d.absolutePath with _ | c₀
        · exact hc
        · exact fun hmem => hc (Finset.mem_of_mem_erase hmem)
      have htake := hdrop.take (i := i) (Function.update_self ..) hnew
      rw [Function.update_idem] at htake
      rw [hname, htmp]
      convert htake using 1
      rcases hd : d.absolutePath with _ | c₀
      · rfl
      · refine Finset.erase_insert_of_ne fun heq => hc (heq ▸ ?_)
        exact howned.mem (hpath.trans hd)
  · have hself : DataStore.assign sys other (d, s.2) = (.error e, d, w') := by rw [DataStore.assign, hrun]
    have hupdate : Function.update s.1 i (some d) = s.1 := by rw [← hi, Function.update_eq_self]
    simp only [hself, hupdate]
    rcases hnames with ⟨hl, htmp⟩ | ⟨hl, c, hc, htmp⟩
    · refine ⟨fun _ => ?_, fun hl' => absurd hl' hl⟩
      rw [FilesOwned, htmp]
      exact howned
    · exact ⟨fun hl' => absurd hl hl', fun _ => ⟨c, hc, htmp, rfl⟩⟩

theorem named_step (sys : Sys) (h : s.Sound) (howned : FilesOwned base s) (c : StoreCmd) : Named sys base c s := by
  cases c with
  | make i =>
    rcases hi : s.1 i with _ | d
    · refine ⟨fun _ => ?_, False.elim⟩
      rw [StoreCmd.step, hi]
      exact (howned.update (d := {}) (path_none hi) (.same not_false rfl rfl)).1 not_false
    · exact named_self howned id (by rw [StoreCmd.step, hi])
  | copy i j => exact named_copy h howned i j
  | assign i j => exact named_assign h howned i j
  | call i op =>
    rcases hi : s.1 i with _ | d
    · exact named_self howned (fun ⟨d, hd, _⟩ => nomatch hi.symm.trans hd) (by rw [StoreCmd.step, hi])
    have hleaves : (StoreCmd.call i op).Leaves sys s ↔ DataStore.ExecLeaves sys (d, s.2) op := by
      simp [StoreCmd.Leaves, hi]
    rw [Named, hleaves, StoreCmd.step, hi]
    exact howned.update (path_eq hi) ((h.formed i d hi).exec sys op s.2).2
  | destroy i =>
    rcases hi : s.1 i with _ | d
    · exact named_self howned id (by rw [StoreCmd.step, hi])
    refine ⟨fun _ => ?_, False.elim⟩
    simp only [StoreCmd.step, hi, FilesOwned, path_update, Option.bind_none, DataStore.destroy, DataStore.clear_eq]
    have hdrop := howned.drop i
    rwa [path_eq hi] at hdrop

theorem formed_step (h : s.Sound) (c : StoreCmd) : ∀ i d, (c.step sys s).1 i = some d → d.Formed := by
  have hupdate {i : Nat} {x : Option DataStore} (hx : ∀ d, x = some d → d.Formed) :
      ∀ k d, Function.update s.1 i x k = some d → d.Formed := by
    intro k d hk
    by_cases hki : k = i
    · rw [hki, Function.update_self] at hk
      exact hx d hk
    · rw [Function.update_of_ne hki] at hk
      exact h.formed k d hk
  have hsome {i : Nat} {x : DataStore} (hx : x.Formed) : ∀ k d, Function.update s.1 i (some x) k = some d → d.Formed :=
    hupdate fun d hd => Option.some.inj hd ▸ hx
  cases c with
  | make i =>
    rcases hi : s.1 i with _ | d <;> simp only [StoreCmd.step, hi]
    · exact hsome DataStore.formed_new
    · exact h.formed
  | copy i j =>
    rcases hi : s.1 i with _ | d <;> rcases hj : s.1 j with _ | other <;> simp only [StoreCmd.step, hi, hj]
    case none.some =>
      rcases (h.formed j other hj).copy sys (h.present hj) with ⟨d', w', hrun, hd', -⟩ | ⟨e, d', w', hrun, -⟩
      · simp only [hrun]
        exact hsome hd'
      · simp only [hrun]
        exact h.formed
    all_goals exact h.formed
  | assign i j =>
    rcases hi : s.1 i with _ | d <;> rcases hj : s.1 j with _ | other <;> simp only [StoreCmd.step, hi, hj]
    case some.some =>
      rcases (h.formed j other hj).copy sys (h.present hj) with ⟨d', w', hrun, hd', -⟩ | ⟨e, d', w', hrun, -⟩
      · rw [DataStore.assign_of_copy hrun]
        exact hsome hd'
      · rw [DataStore.assign, hrun]
        exact hsome (h.formed i d hi)
    all_goals exact h.formed
  | call i op =>
    rcases hi : s.1 i with _ | d <;> simp only [StoreCmd.step, hi]
    · exact h.formed
    · exact hsome ((h.formed i d hi).exec sys op s.2).1
  | destroy i =>
    rcases hi : s.1 i with _ | d <;> simp only [StoreCmd.step, hi]
    · exact h.formed
    · exact hupdate (by intros; contradiction)

theorem Sound.step (h : s.Sound) (sys : Sys) (c : StoreCmd) : (c.step sys s).Sound := by
  obtain ⟨base, howned⟩ := h.owned
  refine ⟨formed_step h c, ?_⟩
  obtain ⟨hkept, hleft⟩ := named_step sys h howned c
  by_cases hl : c.Leaves sys s
  · obtain ⟨n, hn, htmp, hpath⟩ := hleft hl
    refine ⟨insert n base, ?_⟩
    rw [FilesOwned, htmp, hpath]
    exact howned.leave hn
  · exact ⟨base, hkept hl⟩

theorem sound_start (w : World) : (start w).Sound :=
  ⟨nofun, w.tmp, Owning.empty w.tmp⟩

theorem Sound.run (h : s.Sound) (sys : Sys) (p : List StoreCmd) : (run sys p s).Sound := by
  induction p generalizing s with
  | nil => exact h
  | cons c p ih => exact ih (h.step sys c)

/-- One step: the files stay owned exactly when the step leaves none behind. -/
theorem filesOwned_step (h : s.Sound) (howned : FilesOwned base s) (c : StoreCmd) :
    FilesOwned base (c.step sys s) ↔ ¬ c.Leaves sys s := by
  obtain ⟨hkept, hleft⟩ := named_step sys h howned c
  refine ⟨fun hafter hl => ?_, hkept⟩
  obtain ⟨n, hn, htmp, hpath⟩ := hleft hl
  rw [FilesOwned, htmp, hpath] at hafter
  exact howned.not_left (fun _ _ h => h) hn hafter

theorem throughout_iff (h : s.Sound) (howned : FilesOwned base s) (p : List StoreCmd) :
    Throughout sys (FilesOwned base) p s ↔ NoneLeft sys p s := by
  induction p generalizing s with
  | nil => exact iff_of_true howned trivial
  | cons c p ih =>
    rw [Throughout, NoneLeft, and_iff_right howned]
    by_cases hl : c.Leaves sys s
    · refine iff_of_false (fun hrest => ?_) (fun hnone => hnone.1 hl)
      have hafter : FilesOwned base (c.step sys s) := by
        cases p with
        | nil => exact hrest
        | cons => exact hrest.1
      exact (filesOwned_step h howned c).1 hafter hl
    · rw [and_iff_right hl]
      exact ih (h.step sys c) ((filesOwned_step h howned c).2 hl)

/-- In every program, with any call failing: at every moment the files made by the process that exist are
exactly those its live stores name, one each, if and only if no step leaves a file behind. -/
theorem files_owned_iff (sys : Sys) (w : World) (p : List StoreCmd) :
    Throughout sys (FilesOwned w.tmp) p (start w) ↔ NoneLeft sys p (start w) :=
  throughout_iff (sound_start w) (Owning.empty w.tmp) p

/-- A byte is stored and the store is then made a file on a full disk: the file stays, and no store
names it. -/
theorem files_not_owned_full_disk : ¬ Throughout Sys.fullDisk (FilesOwned ∅)
    [.make 0, .call 0 (.append [97]), .call 0 .settle] (start {}) := by
  rintro ⟨-, -, h₂, h₃⟩
  have hsound := ((sound_start {}).step Sys.fullDisk (.make 0)).step Sys.fullDisk (.call 0 (.append [97]))
  exact (filesOwned_step hsound h₂ _).1 h₃ ⟨{ dataBuffer := [97], currentSize := 1 }, rfl, rfl,
    DataStore.spillLeaves_fullDisk _ (List.cons_ne_nil _ _)⟩

end Stores

/-! ### Contents -/

/-- What a step does to the contents of the stores. -/
def StoreCmd.effect : StoreCmd → (Nat → Option Bytes) → Nat → Option Bytes
  | make i, m =>
    match m i with
    | none => Function.update m i (some [])
    | some _ => m
  | copy i j, m =>
    match m i, m j with
    | none, some data => Function.update m i (some data)
    | _, _ => m
  | assign i j, m =>
    match m i, m j with
    | some _, some data => Function.update m i (some data)
    | _, _ => m
  | call i op, m =>
    match m i with
    | some data => Function.update m i (some (op.onData data))
    | none => m
  | destroy i, m => Function.update m i none

namespace DataStore

variable {sys : Sys} {d other : DataStore} {w : World} {data : Bytes}

theorem Holds.exec_sound (hs : sys.NoFail) (h : d.Holds w data) (op : Op UInt8) :
    ∃ got d' w', exec sys op (d, w) = (.ok got, d', w') ∧ d'.Sound (op.onData data) := by
  cases op with
  | append x =>
    by_cases hx : x = []
    · refine ⟨[], d, w, ?_, ?_⟩
      · rw [exec, hx, Eff.bind_ok append_nil]
        rfl
      · rw [ReadBuffer.Op.onData, hx, List.append_nil]
        exact h.sound
    · obtain ⟨d', w', happ, hd', -⟩ := append_spec hs h hx
      exact ⟨[], d', w', Eff.bind_ok happ, hd'.sound⟩
  | read n =>
    rcases d.mode_cases with hm | hm
    · exact ⟨_, _, _, read_ram h hm n, h.size, fun _ => (h.ram hm).1, (fun hf => by cases hm.symm.trans hf)⟩
    · obtain ⟨-, hfile, ⟨off, hfd⟩, -⟩ := h.file hm
      obtain ⟨t, hread⟩ := read_file (w := w) hs h hm hfd n rfl
      exact ⟨_, _, _, hread, h.size, (fun hr => by cases hm.symm.trans hr), fun _ => ⟨hfile, rfl⟩⟩
  | rewind =>
    obtain ⟨t, hreset⟩ := resetReadPosition_eq hs h
    have hseek : Holds _ w data := h.seekTo subset_rfl 0
    exact ⟨[], _, _, Eff.bind_ok hreset, hseek.sound⟩
  | settle =>
    rcases d.mode_cases with hm | hm
    · obtain ⟨c, w', -, hc, hsw⟩ := switchToFileMode_ram hs h hm
      exact ⟨[], _, _, Eff.bind_ok hsw, (h.switched hc).sound⟩
    · exact ⟨[], d, w, Eff.bind_ok (switchToFileMode_file hm), h.sound⟩
  | clear => exact ⟨[], _, _, Eff.bind_ok clear_eq, (clear_holds d w).sound⟩

theorem Holds.copy_sound (hs : sys.NoFail) (h : other.Holds w data) :
    ∃ d' w', copy sys other ({}, w) = (.ok (), d', w') ∧ d'.Sound data := by
  rcases other.mode_cases with hm | hm
  · have hcopy : copy sys other ({}, w) = _ := copy_ram hm {}
    exact ⟨_, _, hcopy, copy_ok hcopy h.sound⟩
  · obtain ⟨c, f, w', hcopy, -⟩ := copy_file hs h hm {}
    exact ⟨_, _, hcopy, copy_ok hcopy h.sound⟩

end DataStore

namespace Stores

variable {sys : Sys} {s : Stores} {m : Nat → Option Bytes} {i j : Nat} {data : Bytes}

/-- The live stores hold the contents `m`. -/
structure Represents (s : Stores) (m : Nat → Option Bytes) : Prop where
  sound : s.Sound
  contents : ∀ i, Option.Rel (fun d data => d.Sound data) (s.1 i) (m i)

theorem Represents.dead_iff (h : s.Represents m) (i : Nat) : s.1 i = none ↔ m i = none := by
  have hi := h.contents i
  generalize s.1 i = x, m i = y at hi
  cases hi <;> simp

theorem Represents.live (h : s.Represents m) {d : DataStore} (hi : s.1 i = some d) :
    ∃ data, m i = some data ∧ d.Holds s.2 data := by
  have hrel := h.contents i
  rw [hi] at hrel
  generalize hy : m i = y at hrel
  cases hrel with
  | some hd => exact ⟨_, rfl, (h.sound.formed i d hi).holds (h.sound.present hi) hd⟩

theorem rel_update (h : s.Represents m) {x : Option DataStore} {y : Option Bytes}
    (hxy : Option.Rel (fun d data => d.Sound data) x y) (i k : Nat) :
    Option.Rel (fun (d : DataStore) data => d.Sound data) (Function.update s.1 i x k) (Function.update m i y k) := by
  by_cases hk : k = i
  · rw [hk, Function.update_self, Function.update_self]
    exact hxy
  · rw [Function.update_of_ne hk, Function.update_of_ne hk]
    exact h.contents k

/-- One step of the program does to the contents what it should, when no call fails. -/
theorem Represents.step (hs : sys.NoFail) (h : s.Represents m) (c : StoreCmd) :
    (c.step sys s).Represents (c.effect m) := by
  refine ⟨h.sound.step sys c, ?_⟩
  cases c with
  | make i =>
    rcases hi : s.1 i with _ | d
    · rw [StoreCmd.step, StoreCmd.effect, hi, (h.dead_iff i).1 hi]
      exact rel_update h (.some (DataStore.sound_new {} rfl rfl rfl)) i
    · obtain ⟨data, hdata, -⟩ := h.live hi
      rw [StoreCmd.step, StoreCmd.effect, hi, hdata]
      exact h.contents
  | copy i j =>
    rcases hi : s.1 i with _ | d
    swap
    · obtain ⟨data, hdata, -⟩ := h.live hi
      rw [StoreCmd.step, StoreCmd.effect, hi, hdata]
      exact h.contents
    rcases hj : s.1 j with _ | other
    · simp only [StoreCmd.step, StoreCmd.effect, hi, hj, (h.dead_iff i).1 hi, (h.dead_iff j).1 hj]
      exact h.contents
    obtain ⟨data, hdata, hholds⟩ := h.live hj
    obtain ⟨d', w', hcopy, hd'⟩ := hholds.copy_sound hs
    simp only [StoreCmd.step, StoreCmd.effect, hi, hj, (h.dead_iff i).1 hi, hdata, hcopy]
    exact rel_update h (.some hd') i
  | assign i j =>
    rcases hi : s.1 i with _ | d
    · rw [StoreCmd.step, StoreCmd.effect, hi, (h.dead_iff i).1 hi]
      exact h.contents
    obtain ⟨old, hold, -⟩ := h.live hi
    rcases hj : s.1 j with _ | other
    · rw [StoreCmd.step, StoreCmd.effect, hi, hj, hold, (h.dead_iff j).1 hj]
      exact h.contents
    obtain ⟨data, hdata, hholds⟩ := h.live hj
    obtain ⟨d', w', hcopy, hd'⟩ := hholds.copy_sound hs
    simp only [StoreCmd.step, StoreCmd.effect, hi, hj, hold, hdata, DataStore.assign_of_copy hcopy]
    exact rel_update h (.some hd') i
  | call i op =>
    rcases hi : s.1 i with _ | d
    · rw [StoreCmd.step, StoreCmd.effect, hi, (h.dead_iff i).1 hi]
      exact h.contents
    obtain ⟨data, hdata, hholds⟩ := h.live hi
    obtain ⟨got, d', w', hexec, hd'⟩ := hholds.exec_sound hs op
    simp only [StoreCmd.step, StoreCmd.effect, hi, hdata, hexec]
    exact rel_update h (.some hd') i
  | destroy i =>
    rcases hi : s.1 i with _ | d
    · have hm := (h.dead_iff i).1 hi
      rw [StoreCmd.step, StoreCmd.effect, hi, ← hm, Function.update_eq_self]
      exact h.contents
    · rw [StoreCmd.step, StoreCmd.effect, hi]
      exact rel_update h .none i

theorem represents_start (w : World) : (start w).Represents fun _ => none :=
  ⟨sound_start w, fun _ => .none⟩

theorem Represents.run (hs : sys.NoFail) (h : s.Represents m) (p : List StoreCmd) :
    (run sys p s).Represents (p.foldl (fun m c => c.effect m) m) := by
  induction p generalizing s m with
  | nil => exact h
  | cons c p ih => exact ih (h.step hs c)

/-- Store `i` has the size of `data`, and once its position is reset it gives `data`, in reads of any
sizes. -/
def ReadsBack (sys : Sys) (s : Stores) (i : Nat) (data : Bytes) : Prop :=
  ∃ d, s.1 i = some d ∧ d.getSize = data.length ∧ ∀ sizes, ∃ t,
    (do DataStore.resetReadPosition sys; DataStore.readAll sys sizes) (d, s.2) = (.ok (data.take sizes.sum), t)

theorem Represents.readsBack (hs : sys.NoFail) (h : s.Represents m) (hi : m i = some data) : ReadsBack sys s i data := by
  rcases hd : s.1 i with _ | d
  · exact nomatch hi.symm.trans ((h.dead_iff i).1 hd)
  obtain ⟨data', hdata', hholds⟩ := h.live hd
  obtain rfl : data = data' := Option.some.inj (hi.symm.trans hdata')
  refine ⟨d, hd, hholds.size, fun sizes => ?_⟩
  obtain ⟨t, hreset⟩ := DataStore.resetReadPosition_eq hs hholds
  obtain ⟨d', w', hread⟩ := DataStore.readAll_seekTo (w := { s.2 with tick := t }) hs (hholds.mono subset_rfl) 0 sizes
  exact ⟨(d', w'), (Eff.bind_ok hreset).trans (by rw [hread, List.drop_zero])⟩

theorem effect_other (c : StoreCmd) (m : Nat → Option Bytes) (hi : c.target ≠ i) : c.effect m i = m i := by
  have hne (y : Option Bytes) : Function.update m c.target y i = m i := Function.update_of_ne hi.symm y m
  cases c with
  | make k =>
    rcases hk : m k with _ | x <;> simp only [StoreCmd.effect, hk]
    exact hne _
  | copy k j =>
    rcases hk : m k with _ | x <;> rcases hj : m j with _ | y <;> simp only [StoreCmd.effect, hk, hj]
    exact hne _
  | assign k j =>
    rcases hk : m k with _ | x <;> rcases hj : m j with _ | y <;> simp only [StoreCmd.effect, hk, hj]
    exact hne _
  | call k op =>
    rcases hk : m k with _ | x <;> simp only [StoreCmd.effect, hk]
    exact hne _
  | destroy k => exact hne none

theorem effects_other (p : List StoreCmd) (m : Nat → Option Bytes) (hi : ∀ c ∈ p, c.target ≠ i) :
    p.foldl (fun m c => c.effect m) m i = m i := by
  induction p generalizing m with
  | nil => rfl
  | cons c p ih =>
    rw [List.foldl_cons, ih _ fun b hb => hi b (List.mem_cons_of_mem c hb)]
    exact effect_other c m (hi c List.mem_cons_self)

/-- A store made from store `i` of any program, by copying or assigning (also to itself), and store `i`
both have the contents that `i` had, and keep them while the program goes on elsewhere. -/
theorem copies_read_back (hs : sys.NoFail) (w : World) (p : List StoreCmd) {d : DataStore}
    (hi : (run sys p (start w)).1 i = some d) : ∃ data, ReadsBack sys (run sys p (start w)) i data ∧
      ∀ (j : Nat) (c : StoreCmd), (c = .copy j i ∧ (run sys p (start w)).1 j = none ∨ c = .assign j i ∧ (run sys p (start w)).1 j ≠ none) →
        ∀ q k, k = i ∨ k = j → (∀ b ∈ q, b.target ≠ k) →
          ReadsBack sys (run sys q (c.step sys (run sys p (start w)))) k data := by
  have h := (represents_start w).run hs p
  obtain ⟨data, hdata, -⟩ := h.live hi
  refine ⟨data, h.readsBack hs hdata, fun j c hc q k hk hq => ?_⟩
  obtain ⟨s, hs'⟩ : ∃ s, s = run sys p (start w) := ⟨_, rfl⟩
  obtain ⟨m, hm⟩ : ∃ m, m = p.foldl (fun m c => c.effect m) fun _ => none := ⟨_, rfl⟩
  rw [← hs'] at h hc ⊢
  rw [← hm] at h hdata
  -- both contents after the step are `data`
  have hafter : c.effect m k = some data := by
    rcases hc with ⟨rfl, hj⟩ | ⟨rfl, hj⟩
    · have hnone : m j = none := (h.dead_iff j).1 hj
      have hij : i ≠ j := by
        rintro rfl
        exact nomatch hdata.symm.trans hnone
      simp only [StoreCmd.effect, hnone, hdata]
      rcases hk with rfl | rfl
      · rw [Function.update_of_ne hij, hdata]
      · rw [Function.update_self]
    · obtain ⟨old, hold⟩ := Option.ne_none_iff_exists'.1 (fun hnone => hj ((h.dead_iff j).2 hnone))
      simp only [StoreCmd.effect, hold, hdata]
      rcases hk with rfl | rfl
      · by_cases hij : k = j
        · rw [hij, Function.update_self]
        · rw [Function.update_of_ne hij, hdata]
      · rw [Function.update_self]
  exact ((h.step hs c).run hs q).readsBack hs ((effects_other q _ hq).trans hafter)

/-- Two bytes in a file, one of them read. -/
def readInFile : List StoreCmd :=
  [.make 0, .call 0 (.append [1, 2]), .call 0 .settle, .call 0 .rewind, .call 0 (.read 1)]

/-- The copy outlives the clearing of the source. -/
theorem copies_read_back_cleared :
    ∃ data, ReadsBack Sys.calm (run Sys.calm readInFile (start {})) 0 data ∧
      ReadsBack Sys.calm (run Sys.calm [.call 0 .clear] (StoreCmd.step Sys.calm (.copy 1 0)
        (run Sys.calm readInFile (start {})))) 1 data := by
  have h := (represents_start {}).run Sys.calm_noFail readInFile
  have hlive : (run Sys.calm readInFile (start {})).1 0 ≠ none := fun hnone => by cases (h.dead_iff 0).1 hnone
  obtain ⟨d, hd⟩ := Option.ne_none_iff_exists'.1 hlive
  have hfree : (run Sys.calm readInFile (start {})).1 1 = none := (h.dead_iff 1).2 rfl
  obtain ⟨data, hsource, hlater⟩ := copies_read_back Sys.calm_noFail {} readInFile hd
  refine ⟨data, hsource, hlater 1 (.copy 1 0) (.inl ⟨rfl, hfree⟩) [.call 0 .clear] 1 (.inr rfl) fun b hb => ?_⟩
  rw [List.mem_singleton.1 hb]
  exact Nat.zero_ne_one

end Stores

end LeftHookRoll
