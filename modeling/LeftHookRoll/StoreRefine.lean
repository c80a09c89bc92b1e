import LeftHookRoll.DataStoreSpec
import LeftHookRoll.Lib.ReadBuffer

/-!
# A `DataStore` as a plain read buffer

`StoreForm` adds to the plain buffer what the store's form depends on: whether it is a file, and
whether the file offset was left at the end of the data, away from the cursor (`stale`). As long as
no read meets a stale offset with data left (`StoreForm.Fresh`), the store gives what the plain
buffer gives; the first read that does gives nothing where the buffer gives data.
-/

namespace LeftHookRoll

open ReadBuffer (Op Seen)

/-- The plain buffer, and what the form of the store adds to it. -/
structure StoreForm where
  buf : ReadBuffer UInt8 := {}
  inFile : Bool := false
  stale : Bool := false

namespace StoreForm

def step (f : StoreForm) (op : Op UInt8) : StoreForm :=
  let buf := (f.buf.step op).2
  match op with
  | .append x =>
    if x = [] then { f with buf }
    else if f.inFile ∨ BUFFERLIMIT < f.buf.data.length + x.length then
      { buf, inFile := true, stale := true }
    else { f with buf }
  | .read _ => { f with buf }
  | .rewind => { f with buf, stale := false }
  | .settle =>
    if f.inFile then f else { f with inFile := true, stale := f.buf.cursor < f.buf.data.length }
  | .clear => {}

/-- The call is not a read of existing data through a stale file offset. -/
def Fresh (f : StoreForm) : Op UInt8 → Prop
  | .read n => ¬ (f.stale = true ∧ 0 < n ∧ f.buf.cursor < f.buf.data.length)
  | _ => True

instance (f : StoreForm) : DecidablePred f.Fresh := fun op => by
  cases op <;> unfold Fresh <;> infer_instance

/-- No call of the sequence reads existing data through a stale file offset. -/
def ReadsFresh : List (Op UInt8) → StoreForm → Prop
  | [], _ => True
  | op :: ops, f => f.Fresh op ∧ ReadsFresh ops (f.step op)

theorem step_buf (f : StoreForm) (op : Op UInt8) : (f.step op).buf = (f.buf.step op).2 := by
  cases op <;> simp only [StoreForm.step]
  · split
    · rfl
    · split <;> rfl
  · split <;> rfl
  · rfl

end StoreForm

namespace DataStore

variable (sys : Sys)

/-- The `DataStore` method for a call. -/
def exec : Op UInt8 → Method DataStore Bytes
  | .append x => do append sys x; return []
  | .read n => read sys n
  | .rewind => do resetReadPosition sys; return []
  | .settle => do switchToFileMode sys; return []
  | .clear => do clear; return []

/-- What the calls return and, after each, `getSize` and `getReadPosition`. -/
def runOps : List (Op UInt8) → Method DataStore (List (Seen UInt8))
  | [] => return []
  | op :: ops => do
    let got ← exec sys op
    let d ← Eff.obj
    let rest ← runOps ops
    return ⟨got, d.getSize, d.getReadPosition⟩ :: rest

/-- The store is in the form `f`. -/
structure InForm (f : StoreForm) (d : DataStore) (w : World) : Prop where
  holds : d.Holds w f.buf.data
  cursor : d.readOffset = f.buf.cursor
  inside : f.buf.Inside
  limit : d.bufferLimit = BUFFERLIMIT
  mode : d.mode = .FILE_MODE ↔ f.inFile = true
  offset : f.inFile = true → d.fileFd = some (if f.stale then f.buf.data.length else f.buf.cursor)
  stale : f.stale = true → f.inFile = true

theorem inForm_new (w : World) : InForm {} {} w :=
  ⟨holds_new w, rfl, le_refl 0, rfl, by simp, by simp, by simp⟩

variable {sys} {f : StoreForm} {d : DataStore} {w : World}

theorem InForm.mode_ram (h : InForm f d w) (hf : f.inFile = false) : d.mode = .RAM := by
  rcases d.mode_cases with hm | hm
  · exact hm
  · simp [h.mode.1 hm] at hf

theorem InForm.append (hs : sys.NoFail) (h : InForm f d w) (x : Bytes) :
    ∃ d' w', exec sys (.append x) (d, w) = (.ok [], d', w') ∧ InForm (f.step (.append x)) d' w' := by
  by_cases hx : x = []
  · subst hx
    refine ⟨d, w, ?_, ?_⟩
    · simp only [exec]; rw [Eff.bind_ok append_nil]; rfl
    · simp only [StoreForm.step, ReadBuffer.step, List.append_nil, if_true]; exact h
  obtain ⟨d', w', happ, hh, -, hr, hl, hm, hfd⟩ := append_spec hs h.holds hx
  refine ⟨d', w', by simp only [exec]; rw [Eff.bind_ok happ]; rfl, ?_⟩
  rw [h.limit, h.mode] at hm
  have hin := h.inside.step (.append x)
  simp only [StoreForm.step, hx, if_false]
  split
  case isTrue hc =>
    refine ⟨hh, by rw [hr, h.cursor]; rfl, hin, by rw [hl, h.limit], by simp [hm, hc], fun _ => ?_,
      fun _ => rfl⟩
    simp only [hfd (hm.2 hc), if_true, ReadBuffer.step, List.length_append]
  case isFalse hc =>
    have hnf : f.inFile = false := by simpa using fun h => hc (.inl h)
    exact ⟨hh, by rw [hr, h.cursor]; rfl, hin, by rw [hl, h.limit],
      hm.trans ⟨fun h => absurd h hc, .inl⟩, fun hf => by simp [hnf] at hf, h.stale⟩

theorem InForm.read (hs : sys.NoFail) (h : InForm f d w) {n : Nat} (hf : f.Fresh (.read n)) :
    ∃ d' w', exec sys (.read n) (d, w) = (.ok (f.buf.step (.read n)).1, d', w') ∧
      InForm (f.step (.read n)) d' w' := by
  have hin := h.inside.step (.read n)
  rcases hff : f.inFile with _ | _
  · have hm := h.mode_ram hff
    have hex : DataStore.read sys n (d, w) = _ := read_ram h.holds hm n
    rw [h.cursor] at hex
    refine ⟨_, w, hex, ⟨h.holds.size, h.holds.ram, h.holds.file⟩, rfl, hin, h.limit, h.mode,
      fun hf' => ?_, h.stale⟩
    simp [StoreForm.step, hff] at hf'
  · have hm := h.mode.2 hff
    have hfd := h.offset hff
    -- the bytes read are those at the cursor, or there are none to read
    have hgot : (f.buf.step (.read n)).1 =
        (f.buf.data.drop (if f.stale then f.buf.data.length else f.buf.cursor)).take
          (min n (f.buf.data.length - d.readOffset)) := by
      simp only [ReadBuffer.step, h.cursor]
      split
      case isTrue hst =>
        simp only [StoreForm.Fresh, hst, true_and, not_and, Nat.not_lt] at hf
        rcases Nat.eq_zero_or_pos n with rfl | hn
        · simp
        · simp [List.drop_of_length_le (hf hn)]
      case isFalse =>
        rw [List.take_eq_take_iff, List.length_drop]; omega
    obtain ⟨t, ht⟩ := read_file hs h.holds hm hfd n hgot
    refine ⟨_, _, ht, ?_⟩
    obtain ⟨h1, h2, -, h4⟩ := h.holds.file hm
    refine ⟨⟨h.holds.size, fun hr => by simp [hm] at hr, fun _ => ⟨h1, h2, ⟨_, rfl⟩, h4⟩⟩,
      by rw [h.cursor]; rfl, hin, h.limit, h.mode, fun _ => ?_, h.stale⟩
    by_cases hst : f.stale = true
    · have hnil : (f.buf.step (.read n)).1 = [] := by rw [hgot, if_pos hst]; simp
      rw [if_pos hst, if_pos (show (f.step (.read n)).stale = true from hst), hnil]
      rfl
    · rw [if_neg hst, if_neg (show ¬ (f.step (.read n)).stale = true from hst)]
      rfl

/-- A read through a stale offset with data left returns nothing. -/
theorem InForm.read_stale (hs : sys.NoFail) (h : InForm f d w) {n : Nat} (hf : ¬ f.Fresh (.read n)) :
    ∃ d' w', exec sys (.read n) (d, w) = (.ok [], d', w') := by
  simp only [StoreForm.Fresh, not_not] at hf
  have hff := h.stale hf.1
  obtain ⟨t, ht⟩ := read_file hs h.holds (h.mode.2 hff) (h.offset hff) n
    (show [] = _ by simp [hf.1])
  exact ⟨_, _, ht⟩

theorem InForm.rewind (hs : sys.NoFail) (h : InForm f d w) :
    ∃ d' w', exec sys .rewind (d, w) = (.ok [], d', w') ∧ InForm (f.step .rewind) d' w' := by
  obtain ⟨t, ht⟩ := resetReadPosition_eq hs h.holds
  have hex := Eff.bind_ok (f := fun _ => (pure [] : Method DataStore Bytes)) ht
  refine ⟨_, _, hex, ?_⟩
  refine ⟨h.holds.seekTo (by exact subset_rfl) 0, rfl, Nat.zero_le _, h.limit, h.mode,
    fun hf => ?_, ?_⟩
  · have hm := h.mode.2 hf
    simp [StoreForm.step, ReadBuffer.step, seekTo, hm]
  · simp [StoreForm.step]

theorem InForm.settle (hs : sys.NoFail) (h : InForm f d w) :
    ∃ d' w', exec sys .settle (d, w) = (.ok [], d', w') ∧ InForm (f.step .settle) d' w' := by
  rcases hff : f.inFile with _ | _
  · have hm := h.mode_ram hff
    obtain ⟨c, w', -, hc, hsw⟩ := switchToFileMode_ram hs h.holds hm
    have hex := Eff.bind_ok (f := fun _ => (pure [] : Method DataStore Bytes)) hsw
    refine ⟨_, w', hex, ?_⟩
    simp only [StoreForm.step, hff, Bool.false_eq_true, if_false]
    refine ⟨h.holds.switched hc, h.cursor, h.inside, h.limit, by simp, fun _ => ?_, fun _ => rfl⟩
    have := h.inside
    unfold ReadBuffer.Inside at this
    by_cases hlt : f.buf.cursor < f.buf.data.length
    · simp [hlt]
    · simp [hlt]; omega
  · refine ⟨d, w, by simp only [exec]; rw [Eff.bind_ok (switchToFileMode_file (h.mode.2 hff))]; rfl, ?_⟩
    simp only [StoreForm.step, hff, if_true]
    exact h

theorem InForm.clear (h : InForm f d w) :
    ∃ d' w', exec sys .clear (d, w) = (.ok [], d', w') ∧ InForm (f.step .clear) d' w' := by
  have hex := Eff.bind_ok (f := fun _ => (pure [] : Method DataStore Bytes)) (clear_eq (d := d) (w := w))
  exact ⟨_, _, hex, clear_holds d _, rfl, le_refl 0, h.limit, by simp [StoreForm.step],
    by simp [StoreForm.step], by simp [StoreForm.step]⟩

/-- One call: the store does what the plain buffer does. -/
theorem InForm.exec_fresh (hs : sys.NoFail) (h : InForm f d w) {op : Op UInt8} (hf : f.Fresh op) :
    ∃ d' w', exec sys op (d, w) = (.ok (f.buf.step op).1, d', w') ∧ InForm (f.step op) d' w' := by
  cases op with
  | append x => exact h.append hs x
  | read n => exact h.read hs hf
  | rewind => exact h.rewind hs
  | settle => exact h.settle hs
  | clear => exact h.clear

theorem runOps_cons {op : Op UInt8} {ops : List (Op UInt8)} {got : Bytes} {d' : DataStore}
    {w' : World} (hex : exec sys op (d, w) = (.ok got, d', w')) :
    (runOps sys (op :: ops) (d, w)).1 =
      ((runOps sys ops (d', w')).1).map (⟨got, d'.getSize, d'.getReadPosition⟩ :: ·) := by
  rw [runOps, Eff.bind_ok hex, Eff.obj_bind, Eff.bind_apply]
  rcases runOps sys ops (d', w') with ⟨_ | _, s⟩ <;> rfl

/-- A sequence of calls: the store is a plain buffer exactly as long as its reads are fresh. -/
theorem InForm.runOps_iff (hs : sys.NoFail) (h : InForm f d w) (ops : List (Op UInt8)) :
    (runOps sys ops (d, w)).1 = .ok (ReadBuffer.run ops f.buf) ↔ StoreForm.ReadsFresh ops f := by
  induction ops generalizing f d w with
  | nil => simp [runOps, ReadBuffer.run, StoreForm.ReadsFresh]
  | cons op ops ih =>
    by_cases hf : f.Fresh op
    · obtain ⟨d', w', hex, h'⟩ := h.exec_fresh hs hf
      have hsz : d'.getSize = (f.buf.step op).2.data.length := by
        rw [← f.step_buf op]; exact h'.holds.size
      have hpos : d'.getReadPosition = (f.buf.step op).2.cursor := by
        rw [← f.step_buf op]; exact h'.cursor
      have ih' := ih h'
      rw [f.step_buf op] at ih'
      rw [runOps_cons hex, hsz, hpos, ReadBuffer.run, StoreForm.ReadsFresh, ← ih']
      rcases (runOps sys ops (d', w')).1 with e | out <;> simp [Except.map, hf]
    · -- only a read can be stale, and it returns nothing where the buffer has data
      cases op with
      | read n =>
        obtain ⟨d', w', hex⟩ := h.read_stale hs hf
        have hne : (f.buf.step (.read n)).1 ≠ [] := by
          simp only [StoreForm.Fresh, not_not] at hf
          exact ReadBuffer.read_ne_nil hf.2.1 hf.2.2
        rw [runOps_cons hex, ReadBuffer.run, StoreForm.ReadsFresh]
        rcases (runOps sys ops (d', w')).1 with e | out
        · simp [Except.map, hf]
        · simp [Except.map, hf, hne.symm]
      | append | rewind | settle | clear => exact absurd trivial hf

/-- A new store is a plain read buffer for exactly those sequences of calls that never read
existing data through a stale file offset. -/
theorem plain_buffer_iff (sys : Sys) (hs : sys.NoFail) (w : World) (ops : List (Op UInt8)) :
    (runOps sys ops ({}, w)).1 = .ok (ReadBuffer.run ops {}) ↔ StoreForm.ReadsFresh ops {} :=
  (inForm_new w).runOps_iff hs ops

/-- A store in memory, then in a file, read in two parts around an append, and again after that. -/
theorem plain_buffer_file_reads :
    (runOps Sys.calm [.append [1, 2], .read 1, .settle, .append [3], .rewind, .read 2, .read 5] ({}, {})).1 =
      .ok (ReadBuffer.run [.append [1, 2], .read 1, .settle, .append [3], .rewind, .read 2, .read 5] {}) :=
  (plain_buffer_iff Sys.calm Sys.calm_noFail {} _).2 (by
    simp [StoreForm.ReadsFresh, StoreForm.Fresh, StoreForm.step, ReadBuffer.step, BUFFERLIMIT])

theorem not_readsFresh_past_limit {x : Bytes} (hx : BUFFERLIMIT < x.length) :
    ¬ StoreForm.ReadsFresh [.append x, .read 1] {} := by
  have hne : x ≠ [] := List.ne_nil_of_length_pos (by omega)
  have hpos := List.length_pos_iff.2 hne
  simp [StoreForm.ReadsFresh, StoreForm.Fresh, StoreForm.step, ReadBuffer.step, hne, hx, hpos]

/-- 1 MiB and a byte appended to a new store, then one byte read: the store returns nothing. -/
theorem plain_buffer_fails_past_limit :
    (runOps Sys.calm [.append (List.replicate (BUFFERLIMIT + 1) 97), .read 1] ({}, {})).1 ≠
      .ok (ReadBuffer.run [.append (List.replicate (BUFFERLIMIT + 1) 97), .read 1] {}) := by
  obtain ⟨x, hx⟩ : ∃ x : Bytes, List.replicate (BUFFERLIMIT + 1) 97 = x := ⟨_, rfl⟩
  rw [hx]
  intro h
  refine not_readsFresh_past_limit (x := x) (by rw [← hx, List.length_replicate]; omega) ?_
  exact ((inForm_new {}).runOps_iff Sys.calm_noFail _).1 h

end DataStore

end LeftHookRoll
