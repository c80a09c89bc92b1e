import LeftHookRoll.Request

/-!
# The chunk decoder on bytes

A buffer either has no CRLF, or it is a size line, CRLF and a tail (`line_cases`); `nextChunk_line` says
what a turn of the loop makes of the second, with the cases in which the sums of `size_t` wrap.
`Reads` is what the turns of the loop append, and `readsExactly_iff` says when that is the bytes of the chunks.
-/

namespace LeftHookRoll

namespace Request

/-- The size that `strtoul` reads in a size line. -/
def lineSize (line : Bytes) : Nat := strtoul16 (sizeField line)

/-- What the loop finds behind a size line of value `size`, when the sums do not wrap. -/
def afterLine (size : Nat) (tail : Bytes) : ChunkStep :=
  if tail.length < size + 2 then .wait
  else if substr tail size 2 ≠ crlf then .malformed
  else if size = 0 then .last (tail.drop 2)
  else .chunk (tail.take size) (tail.drop (size + 2))

theorem lineSize_lt (line : Bytes) : lineSize line < 2 ^ 64 := strtoul16_lt _

theorem findSub_line {line : Bytes} (h : ¬ crlf <:+: line) (tail : Bytes) :
    (line ++ crlf ++ tail).findSub crlf = some line.length := by
  refine List.findSub_append (List.findSub_eq_some_iff.2 ⟨by simp, ?_, fun m hm hpre => h ?_⟩)
  · rw [List.drop_left]
  obtain ⟨t, ht⟩ := hpre
  rw [List.drop_append_of_le_length (Nat.le_of_lt hm)] at ht
  -- an occurrence that starts in the line ends in it: its second byte is no CR
  obtain ⟨a, l, hl⟩ := List.exists_cons_of_ne_nil (l := line.drop m) (by simpa using hm)
  rw [hl] at ht
  rcases l with _ | ⟨b, l⟩
  · cases ht
  · have hin : crlf <+: line.drop m := by
      rw [hl]
      obtain ⟨ha, ht⟩ := List.cons.inj ht
      obtain ⟨hb, -⟩ := List.cons.inj ht
      rw [← ha, ← hb]
      exact ⟨l, rfl⟩
    exact hin.isInfix.trans (List.drop_suffix m line).isInfix

/-- A buffer without CRLF, or a size line and what follows it. -/
theorem line_cases (buf : Bytes) :
    ¬ crlf <:+: buf ∨ ∃ line tail, buf = line ++ crlf ++ tail ∧ ¬ crlf <:+: line := by
  rcases hfind : buf.findSub crlf with _ | p
  · exact .inl (List.findSub_eq_none_iff.1 hfind)
  · refine .inr ⟨buf.take p, buf.drop (p + crlf.length), List.eq_append_of_findSub hfind, fun hin => ?_⟩
    obtain ⟨m, hm⟩ := Option.isSome_iff_exists.1 (List.findSub_isSome_iff.2 hin)
    have hlen := List.findSub_add_le hm
    have hsame := List.findSub_append (t := buf.drop p) hm
    rw [List.take_append_drop, hfind] at hsame
    cases hsame
    rw [List.length_take, crlf, List.length_cons] at hlen
    omega

theorem nextChunk_of_no_line {buf : Bytes} (h : ¬ crlf <:+: buf) : nextChunk buf = .wait := by
  rw [nextChunk, List.findSub_eq_none_iff.2 h]

variable {line tail buf data rest more : Bytes}

/-- Where the sums stay below `2 ^ 64` a turn does what the grammar says. Else it takes the size line
for a chunk of all that is in the buffer, fails, or throws. -/
theorem nextChunk_line (hline : ¬ crlf <:+: line) (hlen : (line ++ crlf ++ tail).length < 2 ^ 63) :
    nextChunk (line ++ crlf ++ tail) =
      if line.length + lineSize line + 4 < 2 ^ 64 then afterLine (lineSize line) tail
      else if lineSize line = 2 ^ 64 - 2 then .chunk tail tail
      else if lineSize line = 2 ^ 64 - 1 then if tail = [] then .wait else .malformed
      else if line.length + lineSize line + 2 < 2 ^ 64 then .outOfRange
      else .malformed := by
  have htake : (line ++ crlf ++ tail).take line.length = line := by rw [List.append_assoc, List.take_left]
  obtain ⟨l, hl⟩ : ∃ l, l = line.length := ⟨_, rfl⟩
  have hdrop (n : Nat) : (line ++ crlf ++ tail).drop (l + 2 + n) = tail.drop n := by
    rw [← List.drop_drop, show l + 2 = (line ++ crlf).length by simp [crlf, hl], List.drop_left]
  have hlength : (line ++ crlf ++ tail).length = l + 2 + tail.length := by simp [crlf, hl]; omega
  have hlt := lineSize_lt line
  rw [nextChunk, findSub_line hline]
  simp only
  rw [htake, ← lineSize, ← hl, hlength]
  rw [hlength] at hlen
  clear hlength
  generalize lineSize line = n at hlt ⊢
  by_cases hsum : l + n + 4 < 2 ^ 64
  · rw [if_pos hsum, Nat.mod_eq_of_lt (by omega), Nat.mod_eq_of_lt (by omega), afterLine]
    by_cases hwait : tail.length < n + 2
    · rw [if_pos hwait, if_pos (by omega)]
    have hend : substr (line ++ crlf ++ tail) (l + 2 + n) 2 = substr tail n 2 := congrArg (·.take 2) (hdrop n)
    have hdata : substr (line ++ crlf ++ tail) (l + 2) n = tail.take n := congrArg (·.take n) (hdrop 0)
    rw [if_neg hwait, if_neg (by omega), if_neg (by omega), hend, hdata, Nat.add_assoc, hdrop]
    by_cases hzero : n = 0
    · rw [hzero]
    · simp only [hzero, if_false]
  rw [if_neg hsum]
  by_cases htwo : n = 2 ^ 64 - 2
  · -- both sums wrap to the end of the line: its own CRLF is taken for the one behind the data
    have h₁ : (l + 2 + n + 2) % 2 ^ 64 = l + 2 := by omega
    have h₂ : (l + 2 + n) % 2 ^ 64 = l := by omega
    have hcrlf : substr (line ++ crlf ++ tail) l 2 = crlf := by
      rw [substr, hl, List.append_assoc, List.drop_left]
      rfl
    rw [if_pos htwo, h₁, h₂, if_neg (by omega), if_neg (by omega), hcrlf, if_neg (not_not.2 rfl), if_neg (by omega), substr,
      show l + 2 = l + 2 + 0 from rfl, hdrop, List.drop_zero, List.take_of_length_le (by omega)]
  rw [if_neg htwo]
  by_cases hone : n = 2 ^ 64 - 1
  · have h₁ : (l + 2 + n + 2) % 2 ^ 64 = l + 3 := by omega
    have h₂ : (l + 2 + n) % 2 ^ 64 = l + 1 := by omega
    rw [if_pos hone, h₁, h₂]
    rcases tail with _ | ⟨b, tail⟩
    · rw [if_pos (by simp), if_pos rfl]
    · have hlf : substr (line ++ crlf ++ b :: tail) (l + 1) 2 = [10, b] := by
        rw [substr, hl, ← List.drop_drop, List.append_assoc, List.drop_left]
        rfl
      rw [List.length_cons, if_neg (by omega), if_neg (by omega), hlf, if_pos (by simp [crlf]), if_neg (List.cons_ne_nil b tail)]
  rw [if_neg hone]
  by_cases hend : l + n + 2 < 2 ^ 64
  · have h₁ : (l + 2 + n + 2) % 2 ^ 64 < 2 := by omega
    have h₂ : (l + 2 + n) % 2 ^ 64 = l + 2 + n := by omega
    rw [if_pos hend, h₂, if_neg (by omega), if_pos (by omega)]
  · -- a CRLF that starts in the line would be an earlier one
    obtain ⟨d, hd⟩ : ∃ d, l + 2 + n = 2 ^ 64 + d := Nat.exists_eq_add_of_le (by omega)
    have h₁ : (l + 2 + n + 2) % 2 ^ 64 = d + 2 := by omega
    have h₂ : (l + 2 + n) % 2 ^ 64 = d := by omega
    have hno : substr (line ++ crlf ++ tail) d 2 ≠ crlf := by
      intro hcrlf
      have hpre : substr (line ++ crlf ++ tail) d 2 <+: (line ++ crlf ++ tail).drop d := List.take_prefix 2 _
      rw [hcrlf] at hpre
      exact (List.findSub_eq_some_iff.1 (findSub_line hline tail)).2.2 d (by omega) hpre
    rw [if_neg hend, h₁, h₂, if_neg (by omega), if_neg (by omega), if_pos hno]

theorem line_unique {line' tail' : Bytes} (hline : ¬ crlf <:+: line) (hline' : ¬ crlf <:+: line')
    (h : line ++ crlf ++ tail = line' ++ crlf ++ tail') : line = line' ∧ tail = tail' := by
  have hfind := findSub_line hline tail
  rw [h, findSub_line hline' tail'] at hfind
  have hlen : (line ++ crlf).length = (line' ++ crlf).length := by
    rw [List.length_append, List.length_append, Option.some.inj hfind]
  obtain ⟨hl, ht⟩ := List.append_inj h hlen
  exact ⟨List.append_cancel_right hl, ht⟩

/-! ### What a turn that takes something has found -/

theorem afterLine_chunk {size : Nat} (h : afterLine size tail = .chunk data rest) :
    size = data.length ∧ data ≠ [] ∧ tail = data ++ crlf ++ rest := by
  unfold afterLine at h
  split_ifs at h with hwait hcrlf hzero
  cases h
  have hlen : (tail.take size).length = size := List.length_take_of_le (by omega)
  refine ⟨hlen.symm, List.ne_nil_of_length_pos (by omega), ?_⟩
  have hsplit : tail.drop size = crlf ++ tail.drop (size + 2) := by
    rw [← List.drop_drop, ← not_not.1 hcrlf, substr, List.take_append_drop]
  rw [List.append_assoc, ← hsplit, List.take_append_drop]

theorem afterLine_last {size : Nat} (h : afterLine size tail = .last rest) : size = 0 ∧ tail = crlf ++ rest := by
  unfold afterLine at h
  split_ifs at h with hwait hcrlf hzero
  cases h
  refine ⟨hzero, ?_⟩
  have hfront : tail.take 2 = crlf := by
    have := not_not.1 hcrlf
    rwa [hzero, substr, List.drop_zero] at this
  rw [← hfront, List.take_append_drop]

/-- A chunk is taken from behind its size line, or the size line alone is. -/
theorem nextChunk_chunk (hlen : buf.length < 2 ^ 63) (h : nextChunk buf = .chunk data rest) :
    ∃ line, ¬ crlf <:+: line ∧
      (lineSize line = data.length ∧ data ≠ [] ∧ buf = line ++ crlf ++ data ++ crlf ++ rest ∧
          line.length + lineSize line + 4 < 2 ^ 64 ∨
        lineSize line = 2 ^ 64 - 2 ∧ buf = line ++ crlf ++ rest ∧ data = rest) := by
  rcases line_cases buf with hno | ⟨line, tail, rfl, hline⟩
  · rw [nextChunk_of_no_line hno] at h
    cases h
  refine ⟨line, hline, ?_⟩
  rw [nextChunk_line hline hlen] at h
  split_ifs at h with hsum hwrap
  · obtain ⟨hsize, hne, rfl⟩ := afterLine_chunk h
    refine .inl ⟨hsize, hne, ?_, hsum⟩
    simp only [List.append_assoc]
  · cases h
    exact .inr ⟨hwrap, rfl, rfl⟩

theorem nextChunk_last (hlen : buf.length < 2 ^ 63) (h : nextChunk buf = .last rest) :
    ∃ line, ¬ crlf <:+: line ∧ lineSize line = 0 ∧ buf = line ++ crlf ++ crlf ++ rest := by
  rcases line_cases buf with hno | ⟨line, tail, rfl, hline⟩
  · rw [nextChunk_of_no_line hno] at h
    cases h
  refine ⟨line, hline, ?_⟩
  rw [nextChunk_line hline hlen] at h
  split_ifs at h with hsum hwrap
  obtain ⟨hsize, rfl⟩ := afterLine_last h
  refine ⟨hsize, ?_⟩
  simp only [List.append_assoc]

/-! ### The bytes of a chunk -/

/-- The turns of the loop on `raw` have appended `datas` and left `buf`. -/
inductive Reads (raw : Bytes) : List Bytes → Bytes → Prop
  | start : Reads raw [] raw
  | chunk {datas buf data rest} : Reads raw datas buf → nextChunk buf = .chunk data rest →
      Reads raw (datas ++ [data]) rest

/-- The sums of a turn on this buffer stay in 64 bits. -/
def SumsFit (buf : Bytes) : Prop :=
  ∀ crlfPos, buf.findSub crlf = some crlfPos → crlfPos + 2 + lineSize (buf.take crlfPos) + 2 < 2 ^ 64

/-- `raw` starts with chunks, `datas`, each behind a size line of its length; `buf` is what follows. -/
inductive Tiles : Bytes → List Bytes → Bytes → Prop
  | nil (buf : Bytes) : Tiles buf [] buf
  | cons {line data raw : Bytes} {datas : List Bytes} {buf : Bytes} : ¬ crlf <:+: line → lineSize line = data.length → data ≠ [] →
      Tiles raw datas buf → Tiles (line ++ crlf ++ data ++ crlf ++ raw) (data :: datas) buf

/-- No sum wraps, and no byte is read twice: the bytes appended are those of the chunks. -/
def ReadsExactly (raw : Bytes) : Prop :=
  ∀ datas buf, Reads raw datas buf → SumsFit buf ∧ Tiles raw datas buf

theorem Tiles.snoc {raw : Bytes} {datas : List Bytes} (h : Tiles raw datas (line ++ crlf ++ data ++ crlf ++ rest))
    (hline : ¬ crlf <:+: line) (hsize : lineSize line = data.length) (hne : data ≠ []) :
    Tiles raw (datas ++ [data]) rest := by
  generalize hbuf : line ++ crlf ++ data ++ crlf ++ rest = buf at h
  induction h with
  | nil =>
    rw [← hbuf]
    exact .cons hline hsize hne (.nil rest)
  | cons hline' hsize' hne' _ ih => exact .cons hline' hsize' hne' (ih hbuf)

theorem Reads.cons {raw buf' : Bytes} {datas : List Bytes} (hnext : nextChunk raw = .chunk data rest)
    (h : Reads rest datas buf') : Reads raw (data :: datas) buf' := by
  induction h with
  | start => exact .chunk .start hnext
  | chunk _ hnext' ih => exact .chunk ih hnext'

theorem Reads.length_le {raw : Bytes} {datas : List Bytes} (h : Reads raw datas buf) (hraw : raw.length < 2 ^ 63) :
    buf.length ≤ raw.length := by
  induction h with
  | start => exact le_refl _
  | chunk _ hnext ih => exact (Nat.le_of_lt (length_lt_of_nextChunk (by omega) hnext)).trans ih

theorem SumsFit.of_line (h : SumsFit (line ++ crlf ++ tail)) (hline : ¬ crlf <:+: line) :
    line.length + lineSize line + 4 < 2 ^ 64 := by
  have hsum := h line.length (findSub_line hline tail)
  rw [List.append_assoc, List.take_left] at hsum
  omega

/-- The turn on a chunk that is all there. -/
theorem nextChunk_of_chunk (hline : ¬ crlf <:+: line) (hsize : lineSize line = data.length) (hne : data ≠ [])
    (hsum : line.length + lineSize line + 4 < 2 ^ 64) (hlen : (line ++ crlf ++ data ++ crlf ++ rest).length < 2 ^ 63) :
    nextChunk (line ++ crlf ++ data ++ crlf ++ rest) = .chunk data rest := by
  have hassoc : line ++ crlf ++ data ++ crlf ++ rest = line ++ crlf ++ (data ++ (crlf ++ rest)) := by
    simp only [List.append_assoc]
  rw [hassoc] at hlen ⊢
  have hend : (data ++ (crlf ++ rest)).drop (data.length + 2) = rest := by
    rw [← List.drop_drop, List.drop_left]
    rfl
  have hpos := List.length_pos_iff.2 hne
  have hcrlf : substr (data ++ (crlf ++ rest)) data.length 2 = crlf := by
    rw [substr, List.drop_left]
    rfl
  rw [nextChunk_line hline hlen, if_pos hsum, hsize, afterLine, if_neg (by simp [crlf]), hcrlf, if_neg (not_not.2 rfl),
    if_neg (by omega), List.take_left, hend]

theorem Reads.tiles {raw : Bytes} {datas : List Bytes} (h : Reads raw datas buf) (hraw : raw.length < 2 ^ 63)
    (hfit : ∀ datas buf, Tiles raw datas buf → SumsFit buf) : Tiles raw datas buf := by
  induction h with
  | start => exact .nil raw
  | @chunk datas buf data rest hread hnext ih =>
    have hlen := hread.length_le hraw
    obtain ⟨line, hline, ⟨hsize, hne, rfl, -⟩ | ⟨hsize, rfl, -⟩⟩ := nextChunk_chunk (by omega) hnext
    · exact ih.snoc hline hsize hne
    · -- the size that makes the sums wrap to the end of the line
      have hsum := (hfit _ _ ih).of_line hline
      omega

theorem Tiles.reads {raw : Bytes} {datas : List Bytes} (h : Tiles raw datas buf) (hraw : raw.length < 2 ^ 63)
    (hfit : ∀ datas buf, Reads raw datas buf → SumsFit buf) : Reads raw datas buf := by
  induction h with
  | nil => exact .start
  | @cons line data raw datas buf hline hsize hne _ ih =>
    have hsum : line.length + lineSize line + 4 < 2 ^ 64 := by
      have hstart := hfit _ _ .start
      rw [List.append_assoc, List.append_assoc] at hstart
      exact hstart.of_line hline
    have hnext := nextChunk_of_chunk hline hsize hne hsum hraw
    have hlen : raw.length < 2 ^ 63 := by
      simp only [List.length_append] at hraw
      omega
    exact .cons hnext (ih hlen fun _ _ hread => hfit _ _ (.cons hnext hread))

/-- The decoder reads exactly when no size line behind chunks makes its sums wrap. -/
theorem readsExactly_iff {raw : Bytes} (hraw : raw.length < 2 ^ 63) :
    ReadsExactly raw ↔ ∀ datas buf crlfPos, Tiles raw datas buf → buf.findSub crlf = some crlfPos →
      lineSize (buf.take crlfPos) < 2 ^ 64 - 4 - crlfPos := by
  constructor
  · intro h datas buf p htiles hfind
    have := (h datas buf (htiles.reads hraw fun _ _ hread => (h _ _ hread).1)).1 p hfind
    omega
  · intro h datas buf hread
    have hfit : ∀ datas buf, Tiles raw datas buf → SumsFit buf := by
      intro datas buf htiles p hfind
      have := h datas buf p htiles hfind
      omega
    have htiles := hread.tiles hraw hfit
    exact ⟨hfit _ _ htiles, htiles⟩

/-- A chunk and the last one. -/
theorem reads_hello {datas : List Bytes} {buf : Bytes} (h : Reads (ascii "5\r\nhello\r\n0\r\n\r\n") datas buf) :
    datas = [] ∧ buf = ascii "5\r\nhello\r\n0\r\n\r\n" ∨ datas = [ascii "hello"] ∧ buf = ascii "0\r\n\r\n" := by
  induction h with
  | start => exact .inl ⟨rfl, rfl⟩
  | chunk _ hnext ih =>
    rcases ih with ⟨rfl, rfl⟩ | ⟨rfl, rfl⟩
    · have hfirst : nextChunk (ascii "5\r\nhello\r\n0\r\n\r\n") = .chunk (ascii "hello") (ascii "0\r\n\r\n") := by decide
      cases hfirst.symm.trans hnext
      exact .inr ⟨rfl, rfl⟩
    · have hlast : nextChunk (ascii "0\r\n\r\n") = .last [] := by decide
      cases hlast.symm.trans hnext

theorem readsExactly_iff_hello : ReadsExactly (ascii "5\r\nhello\r\n0\r\n\r\n") ∧
    ∀ datas buf crlfPos, Tiles (ascii "5\r\nhello\r\n0\r\n\r\n") datas buf → buf.findSub crlf = some crlfPos →
      lineSize (buf.take crlfPos) < 2 ^ 64 - 4 - crlfPos := by
  have hexact : ReadsExactly (ascii "5\r\nhello\r\n0\r\n\r\n") := by
    intro datas buf h
    have hline : ascii "5\r\nhello\r\n0\r\n\r\n" = ascii "5" ++ crlf ++ ascii "hello" ++ crlf ++ ascii "0\r\n\r\n" := by decide
    rcases reads_hello h with ⟨rfl, rfl⟩ | ⟨rfl, rfl⟩
    · refine ⟨fun p hp => ?_, .nil _⟩
      cases (show (ascii "5\r\nhello\r\n0\r\n\r\n").findSub crlf = some 1 by decide).symm.trans hp
      decide
    · refine ⟨fun p hp => ?_, hline ▸ .cons (by decide) (by decide) (by decide) (.nil _)⟩
      cases (show (ascii "0\r\n\r\n").findSub crlf = some 1 by decide).symm.trans hp
      decide
  exact ⟨hexact, (readsExactly_iff (by decide)).1 hexact⟩

/-- The greeting is appended, and is the next size line. -/
theorem reads_twice_past_wrap :
    nextChunk (ascii "fffffffffffffffe\r\nhello") = .chunk (ascii "hello") (ascii "hello") ∧
      ¬ ReadsExactly (ascii "fffffffffffffffe\r\nhello") := by
  refine ⟨by decide, fun h => ?_⟩
  exact absurd ((h _ _ .start).1 16 (by decide)) (by decide)

end Request

end LeftHookRoll
