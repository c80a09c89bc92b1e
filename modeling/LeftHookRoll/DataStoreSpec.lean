import LeftHookRoll.DataStore

/-!
# What the `DataStore` operations do

`d.Holds w data`: the store is sound in the world `w` and its logical content is `data`. When no
system call fails each operation ends normally, keeps the store sound, and changes nothing of the
world but the call count, the file counter and the temporary files (`World.Quiet`).
-/

namespace LeftHookRoll

/-- `w'` differs from `w` in the bookkeeping of system calls and temporary files only, and no
temporary file is gone. -/
structure World.Quiet (w w' : World) : Prop where
  eq : w' = { w with tick := w'.tick, fileCounter := w'.fileCounter, tmp := w'.tmp }
  tmp : w.tmp ⊆ w'.tmp

namespace World.Quiet
variable {w w' w'' : World}

theorem refl (w : World) : Quiet w w := ⟨rfl, subset_rfl⟩

theorem trans (h : Quiet w w') (h' : Quiet w' w'') : Quiet w w'' :=
  ⟨by rw [h'.eq, h.eq], h.tmp.trans h'.tmp⟩

theorem tick (h : Quiet w w') (t : Nat) : Quiet w { w' with tick := t } :=
  ⟨by rw [h.eq], h.tmp⟩

theorem outbox_eq (h : Quiet w w') : w'.outbox = w.outbox := by rw [h.eq]

theorem sigpipe_eq (h : Quiet w w') : w'.sigpipe = w.sigpipe := by rw [h.eq]

end World.Quiet

namespace DataStore

variable {sys : Sys} {d : DataStore} {w : World} {data : Bytes}

/-- The store is sound and its logical content is `data`. -/
structure Holds (d : DataStore) (w : World) (data : Bytes) : Prop where
  size : d.currentSize = data.length
  ram : d.mode = .RAM → d.dataBuffer = data ∧ d.fileFd = none ∧ d.absolutePath = none
  file : d.mode = .FILE_MODE → d.dataBuffer = [] ∧ d.file = data ∧ (∃ off, d.fileFd = some off) ∧
    ∃ c, d.absolutePath = some c ∧ c ∈ w.tmp

theorem Holds.mono {w' : World} (h : d.Holds w data) (hw : w.tmp ⊆ w'.tmp) : d.Holds w' data :=
  ⟨h.size, h.ram, fun hm => by
    obtain ⟨h1, h2, h3, c, hc, hcw⟩ := h.file hm
    exact ⟨h1, h2, h3, c, hc, hw hcw⟩⟩

theorem holds_new (w : World) : Holds {} w [] := ⟨rfl, fun _ => ⟨rfl, rfl, rfl⟩, fun h => nomatch h⟩

theorem mode_cases (d : DataStore) : d.mode = .RAM ∨ d.mode = .FILE_MODE := by
  cases d.mode <;> simp

/-! ### The system calls -/

theorem fdWrite_eq (hs : sys.NoFail) {off : Nat} (hfd : d.fileFd = some off) (hne : data ≠ []) :
    ∃ k, 0 < k ∧ k ≤ data.length ∧ fdWrite sys data (d, w) =
      (.ok (some k), { d with file := d.file ++ data.take k, fileFd := some (d.file.length + k) },
        { w with tick := w.tick + 1 }) := by
  have hpos := List.length_pos_iff.2 hne
  obtain ⟨k, hk, hw⟩ := hs.writeTmp w.tick data.length hpos
  refine ⟨min k data.length, by omega, by omega, ?_⟩
  simp [fdWrite, hfd, hw]

theorem writeAll_eq (hs : sys.NoFail) (data : Bytes) {off : Nat} (hfd : d.fileFd = some off) :
    ∃ t, writeAll sys data (d, w) =
      (.ok (), { d with
        file := d.file ++ data
        fileFd := some (if data = [] then off else d.file.length + data.length) },
        { w with tick := t }) := by
  induction data using writeAll.induct generalizing d w off with
  | case1 =>
    refine ⟨w.tick, ?_⟩
    rw [writeAll]
    simp [← hfd]
  | case2 b rest ih =>
    obtain ⟨k, hk, hle, hw⟩ := fdWrite_eq (w := w) hs hfd (List.cons_ne_nil b rest)
    obtain ⟨k, rfl⟩ : ∃ j, k = j + 1 := ⟨k - 1, by omega⟩
    rw [writeAll, Eff.bind_ok hw]
    obtain ⟨t, ht⟩ := ih k (w := { w with tick := w.tick + 1 })
      (d := { d with file := d.file ++ (b :: rest).take (k + 1), fileFd := some (d.file.length + (k + 1)) }) rfl
    refine ⟨t, ?_⟩
    simp only [ht]
    simp only [List.take_succ_cons, List.append_assoc, List.cons_append, List.take_append_drop,
      List.length_append, List.length_cons, List.length_take, List.length_drop, reduceCtorEq,
      if_false]
    simp only [List.length_cons] at hle
    split
    · rename_i hnil
      have : rest.length = k := by
        have := congrArg List.length hnil
        simp at this; omega
      simp [this]
    · congr 4
      omega

theorem tryTempNames_eq (hs : sys.NoFail) (tmp : Finset Nat) (c₀ : Nat) :
    ∃ c t, c ∉ tmp ∧ tryTempNames sys tmp c₀ (d, w) =
      (.ok c, d, { w with tick := t, fileCounter := c + 1 }) := by
  induction c₀ using tryTempNames.induct tmp generalizing w with
  | case1 c₀ ih =>
    rw [tryTempNames]
    simp only [sysTick_bind, Eff.modWorld_bind, hs.openTmp, if_true]
    split
    case isTrue hc =>
      obtain ⟨c, t, hct, ht⟩ := ih hc (w := { w with tick := w.tick + 1, fileCounter := c₀ + 1 })
      exact ⟨c, t, hct, by rw [ht]⟩
    case isFalse hc => exact ⟨c₀, w.tick + 1, hc, rfl⟩

theorem fdRead_eq (hs : sys.NoFail) {n off : Nat} (hfd : d.fileFd = some off) (hn : n ≠ 0) :
    ∃ k, 0 < k ∧ k ≤ n ∧ fdRead sys n (d, w) =
      (.ok (some ((d.file.drop off).take k)),
        { d with fileFd := some (off + ((d.file.drop off).take k).length) },
        { w with tick := w.tick + 1 }) := by
  obtain ⟨k, hk⟩ := hs.readTmp w.tick n
  exact ⟨min (k + 1) n, by omega, by omega, by simp [fdRead, hfd, hk]⟩

/-- Reading in file mode gives what lies between the file offset and the end, as far as asked. -/
theorem readLoop_eq (hs : sys.NoFail) {n off : Nat} (hfd : d.fileFd = some off) :
    ∃ t, readLoop sys n (d, w) = (.ok ((d.file.drop off).take n),
      { d with fileFd := some (off + ((d.file.drop off).take n).length) }, { w with tick := t }) := by
  induction n using Nat.strong_induction_on generalizing d w off with
  | _ n ih =>
    rw [readLoop]
    by_cases hn : n = 0
    · subst hn
      exact ⟨w.tick, by simp [← hfd]⟩
    obtain ⟨k, hk, hkn, hrd⟩ := fdRead_eq (w := w) hs hfd hn
    simp only [hn, if_false]
    rw [Eff.bind_ok hrd]
    set got := (d.file.drop off).take k with hgot
    by_cases hnil : got = []
    · -- nothing is left after the offset
      have hend : d.file.drop off = [] := by
        rcases List.take_eq_nil_iff.1 hnil with h | h
        · omega
        · exact h
      exact ⟨w.tick + 1, by simp [hnil, hend]⟩
    have hpos := List.length_pos_iff.2 hnil
    have hg : got = (d.file.drop off).take got.length := by
      rw [hgot, List.take_eq_take_iff, List.length_take]; omega
    by_cases hfull : n ≤ got.length
    · have hlen : got.length ≤ k := by rw [hgot]; exact List.length_take_le _ _
      have : got = (d.file.drop off).take n := by rw [hgot]; congr 1; omega
      exact ⟨w.tick + 1, by simp [hnil, hfull, ← this]⟩
    obtain ⟨t, ht⟩ := ih (n - got.length) (by omega) (w := { w with tick := w.tick + 1 })
      (d := { d with fileFd := some (off + got.length) }) rfl
    have hsplit : (d.file.drop off).take n =
        got ++ (d.file.drop (off + got.length)).take (n - got.length) := by
      rw [show n = got.length + (n - got.length) by omega, List.take_add, ← hg, List.drop_drop,
        Nat.add_sub_cancel_left]
    refine ⟨t, ?_⟩
    simp only [hnil, hfull, dite_false]
    rw [Eff.bind_ok ht, hsplit]
    simp only [Eff.pure_apply, List.length_append, Nat.add_assoc]

/-! ### The operations -/

/-- The file has a name that was not in use. -/
theorem switchToFileMode_fresh (hs : sys.NoFail) (hm : d.mode = .RAM) :
    ∃ c w', w.Quiet w' ∧ c ∈ w'.tmp ∧ c ∉ w.tmp ∧ switchToFileMode sys (d, w) =
      (.ok (), { d with
        mode := .FILE_MODE, dataBuffer := [], file := d.dataBuffer, fileFd := some d.dataBuffer.length
        absolutePath := some c }, w') := by
  obtain ⟨c, t, hnew, ht⟩ := tryTempNames_eq (d := d) (w := w) hs w.tmp w.fileCounter
  obtain ⟨t', ht'⟩ := writeAll_eq hs d.dataBuffer
    (d := { d with fileFd := some 0, absolutePath := some c, file := [] })
    (w := { w with tick := t, fileCounter := c + 1, tmp := insert c w.tmp }) rfl
  refine ⟨c, { w with tick := t', fileCounter := c + 1, tmp := insert c w.tmp },
    ⟨rfl, Finset.subset_insert _ _⟩, Finset.mem_insert_self _ _, hnew, ?_⟩
  have hgen : generateTempFileName sys (d, w) = (.ok (),
      { d with fileFd := some 0, absolutePath := some c, file := [] },
      { w with tick := t, fileCounter := c + 1, tmp := insert c w.tmp }) := by
    simp only [generateTempFileName, Eff.world_bind]
    rw [Eff.bind_ok ht]
    rfl
  simp only [switchToFileMode, Eff.obj_bind, hm, reduceCtorEq, if_false]
  rw [Eff.bind_ok hgen]
  rw [Eff.obj_bind, Eff.bind_ok (a := ()) (by rw [Eff.tryCatch_apply, ht'])]
  by_cases hnil : d.dataBuffer = [] <;> simp [hnil]

theorem switchToFileMode_ram (hs : sys.NoFail) (h : d.Holds w data) (hm : d.mode = .RAM) :
    ∃ c w', w.Quiet w' ∧ c ∈ w'.tmp ∧ switchToFileMode sys (d, w) =
      (.ok (), { d with
        mode := .FILE_MODE, dataBuffer := [], file := data, fileFd := some data.length
        absolutePath := some c }, w') := by
  obtain ⟨rfl, -, -⟩ := h.ram hm
  obtain ⟨c, w', hw, hc, -, hsw⟩ := switchToFileMode_fresh hs hm
  exact ⟨c, w', hw, hc, hsw⟩

theorem switchToFileMode_file (hm : d.mode = .FILE_MODE) :
    switchToFileMode sys (d, w) = (.ok (), d, w) := by
  simp [switchToFileMode, hm]

theorem append_nil : append sys [] (d, w) = (.ok (), d, w) := by
  simp [append]

theorem Holds.switched (h : d.Holds w data) {w' : World} {c : Nat} (hc : c ∈ w'.tmp) :
    Holds { d with
      mode := .FILE_MODE, dataBuffer := [], file := data, fileFd := some data.length
      absolutePath := some c } w' data :=
  ⟨h.size, fun hr => (nomatch hr), fun _ => ⟨rfl, rfl, ⟨_, rfl⟩, c, rfl, hc⟩⟩

/-- The last two lines of an append that goes to the file. -/
theorem writeAll_grow (hs : sys.NoFail) (h : d.Holds w data) (hm : d.mode = .FILE_MODE) {x : Bytes}
    (hx : x ≠ []) :
    ∃ d' t, (writeAll sys x >>= fun _ => Eff.modObj fun d =>
        { d with currentSize := d.currentSize + x.length }) (d, w) =
          (.ok (), d', { w with tick := t }) ∧ d'.Holds { w with tick := t } (data ++ x) ∧
      d' = { d with
        file := data ++ x, fileFd := some (data.length + x.length)
        currentSize := data.length + x.length } := by
  obtain ⟨h1, h2, ⟨off, hfd⟩, c, hc, hcw⟩ := h.file hm
  obtain ⟨t, ht⟩ := writeAll_eq (w := w) hs x hfd
  refine ⟨{ d with
    file := data ++ x, fileFd := some (data.length + x.length)
    currentSize := data.length + x.length }, t, ?_, ⟨?_, ?_, ?_⟩, rfl⟩
  · rw [Eff.bind_ok ht, Eff.modObj_apply]
    simp [hx, h2, h.size]
  · simp
  · exact fun hr => by simp [hm] at hr
  · exact fun _ => ⟨h1, rfl, ⟨_, rfl⟩, c, hc, hcw⟩

/-- An append that fits, or goes to the file. -/
theorem append_spec (hs : sys.NoFail) (h : d.Holds w data) {x : Bytes} (hx : x ≠ []) :
    ∃ d' w', append sys x (d, w) = (.ok (), d', w') ∧ d'.Holds w' (data ++ x) ∧ w.Quiet w' ∧
      d'.readOffset = d.readOffset ∧ d'.bufferLimit = d.bufferLimit ∧
      (d'.mode = .FILE_MODE ↔ d.mode = .FILE_MODE ∨ d.bufferLimit < data.length + x.length) ∧
      (d'.mode = .FILE_MODE → d'.fileFd = some (data.length + x.length)) := by
  rcases d.mode_cases with hm | hm
  · by_cases hfit : d.bufferLimit < data.length + x.length
    · -- the append that makes the store a file
      obtain ⟨c, w₁, hq, hc, hsw⟩ := switchToFileMode_ram hs h hm
      obtain ⟨d', t, ht, hd', rfl⟩ := writeAll_grow hs (h.switched hc) rfl hx
      refine ⟨_, { w₁ with tick := t }, ?_, hd', hq.tick t, ?_⟩
      · simp only [append, hx, if_false, Eff.obj_bind, hm, if_true, h.size, hfit, gt_iff_lt]
        rw [Eff.bind_ok hsw, ht]
      · simp [hfit]
    · refine ⟨{ d with dataBuffer := d.dataBuffer ++ x, currentSize := d.currentSize + x.length }, w,
        ?_, ?_, World.Quiet.refl w, ?_⟩
      · simp [append, hx, hm, h.size, hfit]
      · obtain ⟨h1, h2, h3⟩ := h.ram hm
        exact ⟨by simp [h.size], fun _ => ⟨by rw [h1], h2, h3⟩, fun hf => by simp [hm] at hf⟩
      · simp [hm, hfit]
  · obtain ⟨d', t, ht, hd', rfl⟩ := writeAll_grow hs h hm hx
    refine ⟨_, { w with tick := t }, ?_, hd', (World.Quiet.refl w).tick t, ?_⟩
    · simp only [append, hx, if_false, Eff.obj_bind, if_neg (show ¬ d.mode = .RAM by simp [hm])]
      rw [ht]
    · simp [hm]

theorem clear_eq : clear (d, w) = (.ok (), { d with
      dataBuffer := [], currentSize := 0, readOffset := 0, mode := .RAM, fileFd := none
      absolutePath := none }, { w with tmp := d.absolutePath.elim w.tmp w.tmp.erase }) := by
  simp only [clear, Eff.obj_bind, Eff.modObj_bind]
  rcases hp : d.absolutePath with _ | c <;> simp

theorem clear_holds (d : DataStore) (w : World) : Holds { d with
    dataBuffer := [], currentSize := 0, readOffset := 0, mode := .RAM, fileFd := none
    absolutePath := none } w [] :=
  ⟨rfl, fun _ => ⟨rfl, rfl, rfl⟩, fun hf => nomatch hf⟩

theorem read_ram (h : d.Holds w data) (hm : d.mode = .RAM) (n : Nat) :
    read sys n (d, w) = (.ok ((data.drop d.readOffset).take n),
      { d with readOffset := d.readOffset + ((data.drop d.readOffset).take n).length }, w) := by
  obtain ⟨rfl, -, -⟩ := h.ram hm
  have hsz := h.size
  by_cases hend : n = 0 ∨ d.readOffset ≥ d.currentSize
  · have hnil : (d.dataBuffer.drop d.readOffset).take n = [] := by
      rcases hend with rfl | hend
      · rw [List.take_zero]
      · rw [List.drop_of_length_le (by omega), List.take_nil]
    simp only [read, Eff.obj_bind, hend, if_true, hnil]
    rfl
  · have hgot : (d.dataBuffer.drop d.readOffset).take (min n (d.currentSize - d.readOffset)) =
        (d.dataBuffer.drop d.readOffset).take n := by
      rw [List.take_eq_take_iff, List.length_drop]; omega
    simp only [read, Eff.obj_bind, hend, if_false, hm, if_true, Eff.modObj_bind, hgot]
    simp [hsz]

/-- In file mode the bytes come from the file offset, while their number is bounded by
`_readOffset`. -/
theorem read_open (hs : sys.NoFail) (hm : d.mode = .FILE_MODE) {off : Nat} (hfd : d.fileFd = some off) (n : Nat)
    {got : Bytes} (hgot : got = (d.file.drop off).take (min n (d.currentSize - d.readOffset))) :
    ∃ t, read sys n (d, w) = (.ok got, { d with
      readOffset := d.readOffset + got.length, fileFd := some (off + got.length) },
      { w with tick := t }) := by
  by_cases hend : n = 0 ∨ d.readOffset ≥ d.currentSize
  · have hz : min n (d.currentSize - d.readOffset) = 0 := by omega
    rw [hz, List.take_zero] at hgot
    refine ⟨w.tick, ?_⟩
    simp only [read, Eff.obj_bind, hend, if_true, hgot]
    simp [← hfd]
  · obtain ⟨t, ht⟩ := readLoop_eq (w := w) (n := min n (d.currentSize - d.readOffset)) hs hfd
    rw [← hgot] at ht
    refine ⟨t, ?_⟩
    simp only [read, Eff.obj_bind, hend, if_false, if_neg (show ¬ d.mode = .RAM by simp [hm])]
    rw [Eff.bind_ok ht, Eff.modObj_bind, Eff.pure_apply]

theorem read_file (hs : sys.NoFail) (h : d.Holds w data) (hm : d.mode = .FILE_MODE) {off : Nat}
    (hfd : d.fileFd = some off) (n : Nat) {got : Bytes}
    (hgot : got = (data.drop off).take (min n (data.length - d.readOffset))) :
    ∃ t, read sys n (d, w) = (.ok got, { d with
      readOffset := d.readOffset + got.length, fileFd := some (off + got.length) },
      { w with tick := t }) := by
  obtain ⟨-, rfl, -, -⟩ := h.file hm
  rw [← h.size] at hgot
  exact read_open hs hm hfd n hgot

/-! ### Whatever the system does -/

/-- `fdRead` gives at most what was asked for and moves the file offset only. -/
theorem fdRead_frame (sys : Sys) (n : Nat) (d : DataStore) (w : World) :
    ∃ got f, fdRead sys n (d, w) = (.ok got, { d with fileFd := f }, { w with tick := w.tick + 1 }) ∧
      ∀ g ∈ got, g.length ≤ n := by
  rcases hfd : d.fileFd with _ | off
  · exact ⟨none, none, by simp [fdRead, hfd, DataStore.ext_iff], fun g hg => nomatch hg⟩
  rcases hrd : sys.readTmp w.tick n with _ | k
  · exact ⟨none, d.fileFd, by simp [fdRead, hrd], fun g hg => nomatch hg⟩
  · refine ⟨some ((d.file.drop off).take (min (k + 1) n)), _, by simp [fdRead, hfd, hrd]; rfl, ?_⟩
    rintro _ ⟨⟩
    exact (List.length_take_le _ _).trans (min_le_right _ _)

/-- However it ends, the loop of `read` moves the file offset only. -/
theorem readLoop_frame (sys : Sys) (n : Nat) (d : DataStore) (w : World) :
    ∃ r f t, readLoop sys n (d, w) = (r, { d with fileFd := f }, { w with tick := t }) ∧
      ∀ g, r = .ok g → g.length ≤ n := by
  induction n using Nat.strong_induction_on generalizing d w with
  | _ n ih =>
    rw [readLoop]
    by_cases hn : n = 0
    · exact ⟨.ok [], d.fileFd, w.tick, by simp [hn], by simp⟩
    obtain ⟨got, f, hrd, hlen⟩ := fdRead_frame sys n d w
    simp only [hn, if_false]
    rw [Eff.bind_ok hrd]
    rcases got with _ | got
    · exact ⟨_, f, w.tick + 1, rfl, fun g hg => by cases hg⟩
    have hgot := hlen got rfl
    by_cases hnil : got = []
    · exact ⟨.ok [], f, w.tick + 1, by simp [hnil], by simp⟩
    by_cases hfull : n ≤ got.length
    · exact ⟨.ok got, f, w.tick + 1, by simp [hnil, hfull], by simpa using hgot⟩
    have hpos := List.length_pos_iff.2 hnil
    obtain ⟨r, f', t, hr, hrlen⟩ := ih (n - got.length) (by omega) { d with fileFd := f }
      { w with tick := w.tick + 1 }
    simp only [hnil, hfull, dite_false]
    rcases r with e | rest
    · exact ⟨.error e, f', t, by rw [Eff.bind_error hr], fun g hg => by cases hg⟩
    · refine ⟨.ok (got ++ rest), f', t, by rw [Eff.bind_ok hr, Eff.pure_apply], fun g hg => ?_⟩
      obtain rfl := Except.ok.inj hg
      have := hrlen rest rfl
      rw [List.length_append]
      omega

/-- A `read` that gives something moves the position forward, inside the content. -/
theorem read_progress {n : Nat} {d d' : DataStore} {w w' : World} {got : Bytes}
    (h : read sys n (d, w) = (.ok got, d', w')) (hne : got ≠ []) :
    d' = { d with readOffset := d'.readOffset, fileFd := d'.fileFd } ∧
      d.readOffset < d'.readOffset ∧ d'.readOffset ≤ d.currentSize := by
  simp only [read, Eff.obj_bind] at h
  split at h
  · cases h; exact absurd rfl hne
  rename_i hend
  split at h
  · simp only [Eff.modObj_bind, Eff.pure_apply, Prod.mk.injEq, Except.ok.injEq] at h
    obtain ⟨-, rfl, -⟩ := h
    exact ⟨rfl, show _ < _ + _ by omega, show _ + _ ≤ _ by omega⟩
  · obtain ⟨r, f, t, hr, hlen⟩ := readLoop_frame sys (min n (d.currentSize - d.readOffset)) d w
    rcases r with e | got'
    · rw [Eff.bind_error hr] at h
      cases h
    · rw [Eff.bind_ok hr] at h
      cases h
      have hpos := List.length_pos_iff.2 hne
      have := hlen got rfl
      exact ⟨rfl, show d.readOffset < d.readOffset + got.length by omega,
        show d.readOffset + got.length ≤ d.currentSize by omega⟩

/-- The store with its position, and the file offset, at `pos`. -/
def seekTo (d : DataStore) (pos : Nat) : DataStore :=
  { d with readOffset := pos, fileFd := if d.mode = .RAM then none else some pos }

@[simp] theorem seekTo_seekTo (d : DataStore) (p q : Nat) : (d.seekTo p).seekTo q = d.seekTo q := rfl

@[simp] theorem seekTo_mode (d : DataStore) (p : Nat) : (d.seekTo p).mode = d.mode := rfl

@[simp] theorem seekTo_currentSize (d : DataStore) (p : Nat) :
    (d.seekTo p).currentSize = d.currentSize := rfl

@[simp] theorem seekTo_readOffset (d : DataStore) (p : Nat) : (d.seekTo p).readOffset = p := rfl

theorem Holds.seekTo (h : d.Holds w data) {w' : World} (hw : w.tmp ⊆ w'.tmp) (pos : Nat) :
    (d.seekTo pos).Holds w' data :=
  ⟨h.size, fun hm => by
    obtain ⟨h1, -, h3⟩ := h.ram hm
    exact ⟨h1, if_pos hm, h3⟩, fun hm => by
    obtain ⟨h1, h2, -, c, hc, hcw⟩ := h.file hm
    exact ⟨h1, h2, ⟨pos, by simp [DataStore.seekTo, show d.mode = .FILE_MODE from hm]⟩, c, hc, hw hcw⟩⟩

theorem resetReadPosition_eq (hs : sys.NoFail) (h : d.Holds w data) :
    ∃ t, resetReadPosition sys (d, w) = (.ok (), d.seekTo 0, { w with tick := t }) := by
  rcases d.mode_cases with hm | hm
  · obtain ⟨-, h2, -⟩ := h.ram hm
    refine ⟨w.tick, ?_⟩
    simp [resetReadPosition, seekTo, hm, ← h2]
  · obtain ⟨-, -, ⟨off, hfd⟩, c, hc, hcw⟩ := h.file hm
    refine ⟨w.tick + 1, ?_⟩
    simp [resetReadPosition, seekTo, hm, hfd, hs.openTmp, hc, hcw]

/-- With the file offset at the position a `read` gives what follows the position. -/
theorem read_seekTo (hs : sys.NoFail) (h : d.Holds w data) (pos n : Nat) :
    ∃ t, read sys n (d.seekTo pos, w) = (.ok ((data.drop pos).take n),
      d.seekTo (pos + ((data.drop pos).take n).length), { w with tick := t }) := by
  have hpos := h.seekTo subset_rfl pos
  rcases d.mode_cases with hm | hm
  · exact ⟨w.tick, by rw [read_ram hpos hm]; simp [seekTo, hm]⟩
  · have hfd : (d.seekTo pos).fileFd = some pos := by simp [seekTo, hm]
    obtain ⟨t, ht⟩ := read_file (w := w) hs hpos hm hfd n rfl
    have hgot : (data.drop pos).take (min n (data.length - pos)) = (data.drop pos).take n := by
      rw [List.take_eq_take_iff, List.length_drop]; omega
    refine ⟨t, ht.trans ?_⟩
    simp [seekTo, hm, hgot]

end DataStore

end LeftHookRoll
