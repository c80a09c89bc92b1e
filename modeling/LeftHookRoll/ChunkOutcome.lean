import LeftHookRoll.ChunkGrammar
import LeftHookRoll.ChunkRoundtrip

/-!
# The outcome of chunk decoding

`Decodes` is the loop on bytes; what it decides on a buffer it decides on every longer one
(`Decodes.append`, `Decodes.settled`). The slices keep what they have read so far decoded
(`Between`), so their outcome is that of the whole body, whatever their length
(`slicing_does_not_matter`).
-/

namespace LeftHookRoll

open Eff

namespace Request

/-- How the loop ends: more bytes are needed, the body is complete, or it is rejected. -/
inductive Verdict
  | incomplete
  | complete
  | malformed
  | tooLarge
  | outOfRange
deriving DecidableEq

/-- The size line makes the sums wrap to its own end. -/
def Wraps (buf : Bytes) : Prop :=
  ∃ line tail, buf = line ++ crlf ++ tail ∧ ¬ crlf <:+: line ∧ lineSize line = 2 ^ 64 - 2

/-- A turn appends `data` and leaves `rest`; where the sums wrap, the data depend on how much has arrived. -/
def Takes (buf data rest : Bytes) : Prop :=
  ∃ taken, nextChunk buf = .chunk taken rest ∧ (¬ Wraps buf → data = taken)

/-- The loop on `buf`, with `acc` decoded before: the verdict, all that is decoded, what is left. -/
inductive Decodes (limit : Nat) : Bytes → Bytes → Verdict → Bytes → Bytes → Prop
  | wait {acc buf} : nextChunk buf = .wait → Decodes limit acc buf .incomplete acc buf
  | outOfRange {acc buf} : nextChunk buf = .outOfRange → Decodes limit acc buf .outOfRange acc buf
  | malformed {acc buf} : nextChunk buf = .malformed → Decodes limit acc buf .malformed acc buf
  | last {acc buf rest} : nextChunk buf = .last rest → Decodes limit acc buf .complete acc rest
  | tooLarge {acc buf data rest} : Takes buf data rest → 0 < limit ∧ limit < (acc ++ data).length →
      Decodes limit acc buf .tooLarge (acc ++ data) buf
  | chunk {acc buf data rest v acc' buf'} : Takes buf data rest → ¬ (0 < limit ∧ limit < (acc ++ data).length) →
      Decodes limit (acc ++ data) rest v acc' buf' → Decodes limit acc buf v acc' buf'

/-! ### More bytes -/

section More

variable {line tail buf data rest more acc acc' acc'' buf' buf'' : Bytes} {size limit : Nat} {v : Verdict}

theorem afterLine_append (h : afterLine size tail ≠ .wait) :
    afterLine size (tail ++ more) = match afterLine size tail with
      | .last rest => .last (rest ++ more)
      | .chunk data rest => .chunk data (rest ++ more)
      | step => step := by
  have hlen : ¬ tail.length < size + 2 := by
    intro hshort
    rw [afterLine, if_pos hshort] at h
    exact h rfl
  have hcrlf : substr (tail ++ more) size 2 = substr tail size 2 := by
    rw [substr, substr, List.drop_append_of_le_length (by omega),
      List.take_append_of_le_length (by rw [List.length_drop]; omega)]
  rw [afterLine, afterLine, if_neg hlen, if_neg (by rw [List.length_append]; omega), hcrlf]
  split_ifs
  · rfl
  · rw [List.drop_append_of_le_length (by omega)]
  · rw [List.take_append_of_le_length (by omega), List.drop_append_of_le_length (by omega)]

theorem wraps_append (h : crlf <:+: buf) : Wraps (buf ++ more) ↔ Wraps buf := by
  obtain ⟨line, tail, rfl, hline⟩ := (line_cases buf).resolve_left (not_not.2 h)
  constructor
  · rintro ⟨line', tail', heq, hline', hsize⟩
    rw [List.append_assoc] at heq
    obtain ⟨rfl, -⟩ := line_unique hline hline' heq
    exact ⟨line, tail, rfl, hline, hsize⟩
  · rintro ⟨line', tail', heq, hline', hsize⟩
    exact ⟨line', tail' ++ more, by rw [heq, List.append_assoc], hline', hsize⟩

/-- What a turn decides on a buffer it decides on a longer one. -/
theorem nextChunk_append (hlen : (buf ++ more).length < 2 ^ 63) (h : nextChunk buf ≠ .wait) :
    match nextChunk buf with
    | .last rest => nextChunk (buf ++ more) = .last (rest ++ more)
    | .chunk data rest => Takes (buf ++ more) data (rest ++ more)
    | step => nextChunk (buf ++ more) = step := by
  rcases line_cases buf with hno | ⟨line, tail, rfl, hline⟩
  · exact absurd (nextChunk_of_no_line hno) h
  have hlen' : (line ++ crlf ++ tail).length < 2 ^ 63 := by
    rw [List.length_append] at hlen
    omega
  have hlonger := nextChunk_line hline (show (line ++ crlf ++ (tail ++ more)).length < 2 ^ 63 by rwa [List.append_assoc] at hlen)
  rw [← List.append_assoc] at hlonger
  have hin : crlf <:+: line ++ crlf ++ tail := ⟨line, tail, rfl⟩
  have hshort := nextChunk_line hline hlen'
  by_cases hsum : line.length + lineSize line + 4 < 2 ^ 64
  · rw [if_pos hsum] at hshort hlonger
    rw [hshort] at h ⊢
    rw [afterLine_append h] at hlonger
    have hnowrap : ¬ Wraps (line ++ crlf ++ tail) := by
      rintro ⟨line', tail', heq, hline', hsize⟩
      obtain ⟨rfl, -⟩ := line_unique hline hline' heq
      omega
    revert hlonger
    split <;> intro hlonger
    · exact hlonger
    · exact ⟨_, hlonger, fun _ => rfl⟩
    · exact hlonger
  rw [if_neg hsum] at hshort hlonger
  by_cases hwrap : lineSize line = 2 ^ 64 - 2
  · rw [if_pos hwrap] at hshort hlonger
    rw [hshort]
    exact ⟨_, hlonger, fun hno => absurd ⟨line, tail ++ more, by rw [List.append_assoc], hline, hwrap⟩ hno⟩
  rw [if_neg hwrap] at hshort hlonger
  by_cases hone : lineSize line = 2 ^ 64 - 1
  · rw [if_pos hone] at hshort hlonger
    have hne : tail ≠ [] := by
      intro hnil
      rw [if_pos hnil] at hshort
      exact h hshort
    rw [if_neg hne] at hshort
    rw [if_neg (by simp [hne])] at hlonger
    rw [hshort]
    exact hlonger
  rw [if_neg hone] at hshort hlonger
  rw [hshort]
  split_ifs at hlonger ⊢
  · exact hlonger
  · exact hlonger

theorem Takes.append (hlen : (buf ++ more).length < 2 ^ 63) (h : Takes buf data rest) :
    Takes (buf ++ more) data (rest ++ more) := by
  obtain ⟨taken, hnext, hdata⟩ := h
  have hmore := nextChunk_append hlen (by rw [hnext]; exact (nomatch ·))
  rw [hnext] at hmore
  obtain ⟨taken', hnext', hdata'⟩ := hmore
  refine ⟨taken', hnext', fun hno => ?_⟩
  have hin : crlf <:+: buf := by
    by_contra hno'
    rw [nextChunk_of_no_line hno'] at hnext
    cases hnext
  rw [hdata fun hwrap => hno ((wraps_append hin).2 hwrap), hdata' hno]

theorem Takes.length_lt (hlen : buf.length < 2 ^ 63) (h : Takes buf data rest) : rest.length < buf.length := by
  obtain ⟨taken, hnext, -⟩ := h
  exact length_lt_of_nextChunk hlen hnext

/-- The loop goes on where it has left off. -/
theorem Decodes.append (h : Decodes limit acc buf .incomplete acc' buf') (hlen : (buf ++ more).length < 2 ^ 63)
    (hgo : Decodes limit acc' (buf' ++ more) v acc'' buf'') : Decodes limit acc (buf ++ more) v acc'' buf'' := by
  generalize hv : Verdict.incomplete = v' at h
  induction h with
  | wait => exact hgo
  | chunk htakes hfit _ ih =>
    have hlt := htakes.length_lt (by rw [List.length_append] at hlen; omega)
    exact .chunk (htakes.append hlen) hfit (ih (by rw [List.length_append] at hlen ⊢; omega) hgo hv)
  | outOfRange => cases hv
  | malformed => cases hv
  | last => cases hv
  | tooLarge => cases hv

/-- A verdict stands, whatever follows. -/
theorem Decodes.settled (h : Decodes limit acc buf v acc' buf') (hlen : (buf ++ more).length < 2 ^ 63)
    (hv : v ≠ .incomplete) : ∃ buf'', Decodes limit acc (buf ++ more) v acc' buf'' := by
  induction h with
  | wait => exact absurd rfl hv
  | outOfRange hnext =>
    have hmore := nextChunk_append hlen (by rw [hnext]; exact (nomatch ·))
    rw [hnext] at hmore
    exact ⟨_, .outOfRange hmore⟩
  | malformed hnext =>
    have hmore := nextChunk_append hlen (by rw [hnext]; exact (nomatch ·))
    rw [hnext] at hmore
    exact ⟨_, .malformed hmore⟩
  | last hnext =>
    have hmore := nextChunk_append hlen (by rw [hnext]; exact (nomatch ·))
    rw [hnext] at hmore
    exact ⟨_, .last hmore⟩
  | tooLarge htakes hbig => exact ⟨_, .tooLarge (htakes.append hlen) hbig⟩
  | chunk htakes hfit _ ih =>
    have hlt := htakes.length_lt (by rw [List.length_append] at hlen; omega)
    obtain ⟨buf'', hrest⟩ := ih (by rw [List.length_append] at hlen ⊢; omega) hv
    exact ⟨buf'', .chunk (htakes.append hlen) hfit hrest⟩

end More

/-! ### The loop and its system calls -/

section Loop

variable {sys : Sys} {q q' : Request} {w w' : World} {acc buf raw : Bytes} {b : Bool}

/-- The request when the loop has ended with a verdict. -/
def Verdict.mark : Verdict → Request → Request
  | .complete, q => { q with isBodyProcessed := true }
  | .malformed, q => q.fail (ascii "400")
  | .tooLarge, q => q.fail (ascii "413")
  | _, q => q

/-- Whether the function returns from inside its loop. -/
def Verdict.stops : Verdict → Bool
  | .malformed | .tooLarge => true
  | _ => false

theorem takes_of_next {data rest : Bytes} (h : nextChunk buf = .chunk data rest) : Takes buf data rest :=
  ⟨data, h, fun _ => rfl⟩

/-- A loop that returns has decoded what the bytes say. -/
theorem decodeLoop_ok {hlen : buf.length < 2 ^ 63} (h : decodeLoop sys buf hlen (q, w) = (.ok b, q', w'))
    (hq : q.chunkBuffer = buf) (hd : q.decodedBody.Sound acc) :
    ∃ v acc' buf', Decodes q.maxBodySize acc buf v acc' buf' ∧ q'.decodedBody.Sound acc' ∧ b = v.stops ∧
      v ≠ .outOfRange ∧ q' = v.mark { q with decodedBody := q'.decodedBody, chunkBuffer := buf' } := by
  induction hk : buf.length using Nat.strong_induction_on generalizing q w buf acc with
  | _ k ih =>
    rcases hnext : nextChunk buf with _ | _ | _ | rest | ⟨data, rest⟩
    · rw [decodeLoop_wait sys hnext] at h
      cases h
      exact ⟨.incomplete, acc, buf, .wait hnext, hd, rfl, (by rintro ⟨⟩), by rw [← hq]; rfl⟩
    · rw [decodeLoop_outOfRange sys hnext] at h
      cases h
    · rw [decodeLoop_malformed sys hnext] at h
      cases h
      exact ⟨.malformed, acc, buf, .malformed hnext, hd, rfl, (by rintro ⟨⟩), by rw [← hq]; rfl⟩
    · rw [decodeLoop_last sys hnext] at h
      cases h
      exact ⟨.complete, acc, rest, .last hnext, hd, rfl, (by rintro ⟨⟩), rfl⟩
    rw [decodeLoop_chunk sys hnext] at h
    obtain ⟨_, ⟨q₁, w₁⟩, happend, h⟩ := Eff.bind_eq_ok.1 h
    obtain ⟨⟨d₁, v₁⟩, hstore, heq⟩ := Eff.on_eq_ok.1 happend
    cases heq
    have hd₁ : d₁.Sound (acc ++ data) := DataStore.append_ok hstore hd
    have hsize : d₁.getSize = (acc ++ data).length := hd₁.size
    rw [Eff.obj_bind] at h
    split at h
    · rename_i hbig
      rw [hsize] at hbig
      cases h
      exact ⟨.tooLarge, acc ++ data, buf, .tooLarge (takes_of_next hnext) hbig, hd₁, rfl, (by rintro ⟨⟩), by rw [← hq]; rfl⟩
    · rename_i hfit
      rw [hsize] at hfit
      rw [Eff.modObj_bind] at h
      obtain ⟨v, acc', buf', hgo, hd', hb, hv, hq'⟩ :=
        ih rest.length (hk ▸ length_lt_of_nextChunk hlen hnext) h rfl hd₁ rfl
      exact ⟨v, acc', buf', .chunk (takes_of_next hnext) hfit hgo, hd', hb, hv, hq'⟩

theorem append_holds (hs : sys.NoFail) {d : DataStore} (hd : d.Holds w acc) (x : Bytes) :
    ∃ d' w', DataStore.append sys x (d, w) = (.ok (), d', w') ∧ d'.Holds w' (acc ++ x) ∧ w.Quiet w' := by
  by_cases hx : x = []
  · rw [hx, List.append_nil]
    exact ⟨d, w, DataStore.append_nil, hd, .refl w⟩
  · obtain ⟨d', w', happend, hd', hw', -⟩ := DataStore.append_spec hs hd hx
    exact ⟨d', w', happend, hd', hw'⟩

/-- Where no temporary file fails the loop returns, unless a position is out of range. -/
theorem decodeLoop_returns (hs : sys.NoFail) (hlen : buf.length < 2 ^ 63) (hd : q.decodedBody.Holds w acc) :
    (∃ acc' buf', Decodes q.maxBodySize acc buf .outOfRange acc' buf') ∨
      ∃ b q' w' acc', decodeLoop sys buf hlen (q, w) = (.ok b, q', w') ∧ w.Quiet w' ∧ q'.decodedBody.Holds w' acc' := by
  induction hk : buf.length using Nat.strong_induction_on generalizing q w buf acc with
  | _ k ih =>
    rcases hnext : nextChunk buf with _ | _ | _ | rest | ⟨data, rest⟩
    · refine .inr ⟨false, q, w, acc, ?_, .refl w, hd⟩
      rw [decodeLoop_wait sys hnext]
      rfl
    · exact .inl ⟨acc, buf, .outOfRange hnext⟩
    · refine .inr ⟨true, q.fail (ascii "400"), w, acc, ?_, .refl w, hd⟩
      rw [decodeLoop_malformed sys hnext]
      rfl
    · refine .inr ⟨false, { q with chunkBuffer := rest, isBodyProcessed := true }, w, acc, ?_, .refl w, hd⟩
      rw [decodeLoop_last sys hnext]
      rfl
    obtain ⟨d₁, w₁, happend, hd₁, hw₁⟩ := append_holds hs hd data
    have hon : onDecodedBody (DataStore.append sys data) (q, w) = (.ok (), { q with decodedBody := d₁ }, w₁) :=
      Eff.on_eq happend
    have hsize : d₁.getSize = (acc ++ data).length := hd₁.size
    rw [decodeLoop_chunk sys hnext, Eff.bind_ok hon, Eff.obj_bind, hsize]
    by_cases hbig : 0 < q.maxBodySize ∧ q.maxBodySize < (acc ++ data).length
    · rw [if_pos hbig]
      exact .inr ⟨true, _, w₁, acc ++ data, rfl, hw₁, hd₁⟩
    rw [if_neg hbig, Eff.modObj_bind]
    have hlt := length_lt_of_nextChunk hlen hnext
    obtain ⟨acc', buf', hgo⟩ | ⟨b, q', w', acc', hrun, hw', hd'⟩ :=
      ih rest.length (hk ▸ hlt) (hlt.trans hlen)
        (show DataStore.Holds { q with decodedBody := d₁, chunkBuffer := rest }.decodedBody w₁ _ from hd₁) rfl
    · exact .inl ⟨acc', buf', .chunk (takes_of_next hnext) hbig hgo⟩
    · exact .inr ⟨b, q', w', acc', hrun, hw₁.trans hw', hd'⟩

end Loop

/-! ### The slices -/

/-- `processBodySlice`, for slices of `sliceSize` bytes. -/
def processBodySliceOf (sys : Sys) (sliceSize : Nat) : Method Request Bool := do
  let r ← obj
  if r.contentLength ≥ 0 ∨ r.isBodyProcessed ∨ r.reqState = .REQ_ERROR then return true
  else
    let got ← onBody (DataStore.read sys sliceSize)
    modObj fun r => { r with totalBytesRead := r.totalBytesRead + got.length }
    if hlen : (r.chunkBuffer ++ got).length < 2 ^ 63 then
      modObj fun r => { r with chunkBuffer := r.chunkBuffer ++ got }
      if ← decodeLoop sys (r.chunkBuffer ++ got) hlen then return true
      else closeSlice sys
    else throw (.runtime "basic_string::append")

/-- Calls for slices of `sliceSize` bytes until one returns true, `n` at most. -/
def processSlicesOf (sys : Sys) (sliceSize : Nat) : Nat → Method Request Bool
  | 0 => return false
  | n + 1 => do if ← processBodySliceOf sys sliceSize then return true else processSlicesOf sys sliceSize n

/-- The decode loop once on a whole body, and what a slice does after its loop. -/
def decodeWhole (sys : Sys) (raw : Bytes) (hlen : raw.length < 2 ^ 63) : Method Request Bool := do
  modObj fun r => { r with chunkBuffer := raw }
  if ← decodeLoop sys raw hlen then return true
  else closeSlice sys

theorem processSlices_eq (sys : Sys) (n : Nat) : processSlices sys n = processSlicesOf sys PARSE_BYTE_SLICE n := by
  induction n with
  | zero => rfl
  | succ n ih => rw [processSlices, processSlicesOf, ih]; rfl

/-- What the decoder has made of the body. -/
inductive Outcome
  | complete (body : Bytes)
  | error (statusCode : Bytes)
  | incomplete
deriving DecidableEq

/-- The content of a store. -/
def content (d : DataStore) : Bytes := if d.mode = .RAM then d.dataBuffer else d.file

def outcome (r : Request) : Outcome :=
  if r.reqState = .REQ_ERROR then .error r.statusCode
  else if r.isBodyProcessed then .complete (content r.body)
  else .incomplete

def Verdict.outcome : Verdict → Bytes → Outcome
  | .complete, body => .complete body
  | .malformed, _ => .error (ascii "400")
  | .tooLarge, _ => .error (ascii "413")
  | _, _ => .incomplete

section Slices

variable {sys : Sys} {q q' : Request} {w w' : World} {acc buf raw : Bytes} {b : Bool} {pos sliceSize n : Nat} {v : Verdict}

theorem content_of_sound {d : DataStore} (h : d.Sound raw) : content d = raw := by
  rcases d.mode_cases with hm | hm
  · rw [content, if_pos hm, h.ram hm]
  · rw [content, if_neg (by rw [hm]; exact (nomatch ·)), (h.file hm).1]

/-- Before a slice: `raw` is read up to `pos`, what is read is decoded as far as it goes. -/
structure Between (q : Request) (raw acc : Bytes) (pos : Nat) : Prop where
  counted : q.contentLength < 0
  undone : q.isBodyProcessed = false
  state : q.reqState = .REQ_CHUNKED
  inside : pos ≤ raw.length
  body : q.body.Readable raw pos
  decoded : q.decodedBody.Sound acc
  read : Decodes q.maxBodySize [] (raw.take pos) .incomplete acc q.chunkBuffer

/-- The decoder is through with `raw`. -/
structure Through (limit : Nat) (raw : Bytes) (q : Request) (v : Verdict) (body : Bytes) : Prop where
  read : ∃ rest, Decodes limit [] raw v body rest
  verdict : v = .complete ∨ v.stops = true
  shown : q.outcome = v.outcome body
  processed : q.isBodyProcessed = true ↔ v = .complete
  body : v = .complete → q.body.Readable body 0

theorem closeSlice_ok (h : closeSlice sys (q, w) = (.ok b, q', w')) (hdone : q.isBodyProcessed = true)
    (hd : q.decodedBody.Sound acc) : b = true ∧ q'.body.Readable acc 0 ∧ q'.reqState = q.reqState ∧
      q'.isBodyProcessed = true := by
  rw [closeSlice, Eff.obj_bind, if_pos hdone] at h
  obtain ⟨_, ⟨q₁, w₁⟩, hassign, h⟩ := Eff.bind_eq_ok.1 h
  obtain ⟨⟨d₁, v₁⟩, hcopy, heq⟩ := Eff.on_eq_ok.1 hassign
  cases heq
  rw [Eff.modObj_bind] at h
  obtain ⟨_, ⟨q₂, w₂⟩, hreset, h⟩ := Eff.bind_eq_ok.1 h
  obtain ⟨⟨d₂, v₂⟩, hseek, heq⟩ := Eff.on_eq_ok.1 hreset
  cases heq
  have hd₂ : d₂.Readable acc 0 := DataStore.resetReadPosition_ok hseek (DataStore.assign_ok hcopy hd)
  cases h
  exact ⟨rfl, hd₂, rfl, hdone⟩

/-- After the loop on what is read so far: another slice is due, or the decoder is through. -/
theorem after_loop {limit : Nat} {rest : Bytes} {q₁ : Request} {acc' buf' : Bytes}
    (hread : Decodes limit [] raw v acc' buf') (hd : q₁.decodedBody.Sound acc') (hstate : q.reqState = .REQ_CHUNKED)
    (hundone : q.isBodyProcessed = false) (hv : v ≠ .incomplete) (hv' : v ≠ .outOfRange)
    (hlen : (raw ++ rest).length < 2 ^ 63)
    (hq₁ : q₁ = v.mark { q with decodedBody := q₁.decodedBody, chunkBuffer := buf' })
    (h : (if v.stops then return true else closeSlice sys : Method Request Bool) (q₁, w) = (.ok b, q', w')) :
    b = true ∧ Through limit (raw ++ rest) q' v acc' := by
  obtain ⟨rest', hsettled⟩ := hread.settled hlen hv
  cases v with
  | incomplete => exact absurd rfl hv
  | outOfRange => exact absurd rfl hv'
  | malformed =>
    cases h
    refine ⟨rfl, ⟨rest', hsettled⟩, .inr rfl, ?_, ?_, (by rintro ⟨⟩)⟩
    · rw [hq₁]
      rfl
    · rw [hq₁]
      simp [Verdict.mark, fail, hundone]
  | tooLarge =>
    cases h
    refine ⟨rfl, ⟨rest', hsettled⟩, .inr rfl, ?_, ?_, (by rintro ⟨⟩)⟩
    · rw [hq₁]
      rfl
    · rw [hq₁]
      simp [Verdict.mark, fail, hundone]
  | complete =>
    have hdone : q₁.isBodyProcessed = true := by rw [hq₁]; rfl
    have hstate₁ : q₁.reqState = .REQ_CHUNKED := by rw [hq₁]; exact hstate
    obtain ⟨rfl, hbody, hstate', hdone'⟩ := closeSlice_ok h hdone hd
    refine ⟨rfl, ⟨rest', hsettled⟩, .inl rfl, ?_, ?_, fun _ => hbody⟩
    · rw [outcome, hstate', hstate₁, if_neg (by rintro ⟨⟩), hdone', if_pos rfl, content_of_sound hbody.sound]
      rfl
    · rw [hdone']
      simp

theorem Between.going (h : Between q raw acc pos) :
    ¬ (q.contentLength ≥ 0 ∨ q.isBodyProcessed ∨ q.reqState = .REQ_ERROR) := by
  rw [h.undone, h.state]
  simpa using h.counted

theorem processBodySliceOf_eq {got : Bytes} {d : DataStore} (hgo : Between q raw acc pos)
    (hread : DataStore.read sys sliceSize (q.body, w) = (.ok got, d, w'))
    (hlen : (q.chunkBuffer ++ got).length < 2 ^ 63) :
    processBodySliceOf sys sliceSize (q, w) = (decodeLoop sys (q.chunkBuffer ++ got) hlen >>= fun done =>
      if done then return true else closeSlice sys) (readSlice q d got, w') := by
  have hon : onBody (DataStore.read sys sliceSize) (q, w) = (.ok got, { q with body := d }, w') :=
    Eff.on_eq hread
  rw [processBodySliceOf, Eff.obj_bind, if_neg hgo.going, Eff.bind_ok hon, Eff.modObj_bind, dif_pos hlen, Eff.modObj_bind]
  rfl

theorem take_next (raw : Bytes) (pos k : Nat) :
    raw.take (pos + ((raw.drop pos).take k).length) = raw.take pos ++ (raw.drop pos).take k := by
  rw [List.take_add, List.length_take, List.length_drop]
  congr 1
  rw [List.take_eq_take_iff, List.length_drop]
  omega

/-- What is left of the bytes read is some of them. -/
theorem Decodes.left_le {limit : Nat} {acc' buf' : Bytes} (h : Decodes limit acc buf v acc' buf')
    (hlen : buf.length < 2 ^ 63) (hv : v = .incomplete) : buf'.length ≤ buf.length := by
  induction h with
  | wait => exact le_refl _
  | chunk htakes _ _ ih =>
    have hlt := htakes.length_lt hlen
    exact (ih (by omega) hv).trans (by omega)
  | outOfRange => cases hv
  | malformed => cases hv
  | last => cases hv
  | tooLarge => cases hv

theorem Between.buffer_lt (h : Between q raw acc pos) (hraw : raw.length < 2 ^ 63) :
    (q.chunkBuffer ++ (raw.drop pos).take sliceSize).length < 2 ^ 63 := by
  have hle := h.read.left_le (by rw [List.length_take]; omega) rfl
  rw [List.length_append, List.length_take, List.length_drop]
  rw [List.length_take] at hle
  omega

/-- One slice that returns. -/
theorem processBodySliceOf_ok (h : Between q raw acc pos) (hraw : raw.length < 2 ^ 63)
    (hrun : processBodySliceOf sys sliceSize (q, w) = (.ok b, q', w')) :
    b = false ∧ q'.maxBodySize = q.maxBodySize ∧ (∃ acc', Between q' raw acc' (min (pos + sliceSize) raw.length)) ∨
      b = true ∧ ∃ v body, Through q.maxBodySize raw q' v body := by
  obtain ⟨got, d, w₁, hread⟩ : ∃ got d w₁, DataStore.read sys sliceSize (q.body, w) = (.ok got, d, w₁) := by
    rw [processBodySliceOf, Eff.obj_bind, if_neg h.going] at hrun
    obtain ⟨got, ⟨q₁, w₁⟩, hon, -⟩ := Eff.bind_eq_ok.1 hrun
    obtain ⟨⟨d, w₁⟩, hread, -⟩ := Eff.on_eq_ok.1 hon
    exact ⟨got, d, w₁, hread⟩
  obtain ⟨hgot, hbody, -⟩ := DataStore.read_ok hread h.body
  have hlt : (q.chunkBuffer ++ got).length < 2 ^ 63 := hgot ▸ h.buffer_lt hraw
  rw [processBodySliceOf_eq h hread hlt] at hrun
  obtain ⟨done, ⟨q₁, w₂⟩, hloop, hrest⟩ := Eff.bind_eq_ok.1 hrun
  obtain ⟨v, acc', buf', hdec, hd, rfl, hv, hq₁⟩ := decodeLoop_ok hloop rfl h.decoded
  have htake : raw.take pos ++ got = raw.take (pos + got.length) := by rw [hgot, take_next]
  have hfull : Decodes q.maxBodySize [] (raw.take (pos + got.length)) v acc' buf' := by
    rw [← htake]
    refine h.read.append ?_ hdec
    rw [htake, List.length_take]
    omega
  have hpos : pos + got.length = min (pos + sliceSize) raw.length := by
    have hinside := h.inside
    rw [hgot, List.length_take, List.length_drop]
    omega
  by_cases hmore : v = .incomplete
  · -- more bytes are needed: the next slice goes on from here
    subst hmore
    have hundone : q₁.isBodyProcessed = false := by
      rw [hq₁]
      exact h.undone
    rw [show Verdict.stops .incomplete = false from rfl, if_neg Bool.false_ne_true, closeSlice, Eff.obj_bind,
      if_neg (by rw [hundone]; exact Bool.false_ne_true)] at hrest
    cases hrest
    refine .inl ⟨rfl, by rw [hq₁]; rfl, acc', ?_, hundone, ?_, by omega, ?_, hd, ?_⟩
    · rw [hq₁]
      exact h.counted
    · rw [hq₁]
      exact h.state
    · rw [hq₁, ← hpos]
      exact hbody
    · rw [hq₁, ← hpos]
      exact hfull
  · have hlen : (raw.take (pos + got.length) ++ raw.drop (pos + got.length)).length < 2 ^ 63 := by
      rwa [List.take_append_drop]
    obtain ⟨rfl, hthrough⟩ := after_loop hfull hd (q := readSlice q d got) h.state h.undone hmore hv hlen hq₁ hrest
    rw [List.take_append_drop] at hthrough
    exact .inr ⟨rfl, v, acc', hthrough⟩

/-- Slices that all return: none was the last, and `raw` is read so far, or the decoder is through. -/
theorem processSlicesOf_ok (h : Between q raw acc pos) (hraw : raw.length < 2 ^ 63)
    (hrun : processSlicesOf sys sliceSize n (q, w) = (.ok b, q', w')) :
    b = false ∧ q'.maxBodySize = q.maxBodySize ∧ (∃ acc', Between q' raw acc' (min (pos + n * sliceSize) raw.length)) ∨
      b = true ∧ ∃ v body, Through q.maxBodySize raw q' v body := by
  induction n generalizing q w acc pos with
  | zero =>
    cases hrun
    refine .inl ⟨rfl, rfl, acc, ?_⟩
    rwa [Nat.zero_mul, Nat.add_zero, Nat.min_eq_left h.inside]
  | succ n ih =>
    rw [processSlicesOf] at hrun
    obtain ⟨b₁, ⟨q₁, w₁⟩, hslice, hrest⟩ := Eff.bind_eq_ok.1 hrun
    rcases processBodySliceOf_ok h hraw hslice with ⟨rfl, hlimit, acc₁, h₁⟩ | ⟨rfl, hthrough⟩
    · rw [if_neg Bool.false_ne_true] at hrest
      have hpos : min (min (pos + sliceSize) raw.length + n * sliceSize) raw.length =
          min (pos + (n + 1) * sliceSize) raw.length := by
        rw [Nat.succ_mul]
        omega
      rw [← hlimit, ← hpos]
      exact ih h₁ hrest
    · cases hrest
      exact .inr ⟨rfl, hthrough⟩

/-! ### The same outcome for every slice length -/

/-- The size lines of `raw`, each behind the chunks before it, denote values below `bound`. -/
def SizesBelow (bound : Nat) (raw : Bytes) : Prop :=
  ∀ datas buf crlfPos, Tiles raw datas buf → buf.findSub crlf = some crlfPos → lineSize (buf.take crlfPos) < bound

theorem SizesBelow.of_line {line tail : Bytes} {bound : Nat} (h : SizesBelow bound (line ++ crlf ++ tail))
    (hline : ¬ crlf <:+: line) : lineSize line < bound := by
  have hsize := h [] _ line.length (.nil _) (findSub_line hline tail)
  rwa [List.append_assoc, List.take_left] at hsize

theorem SizesBelow.not_wraps (h : SizesBelow (2 ^ 63) buf) : ¬ Wraps buf := by
  rintro ⟨line, tail, rfl, hline, hsize⟩
  have hlt := h.of_line hline
  omega

/-- Where no sum wraps a turn appends what the buffer says. -/
theorem Takes.next {data rest : Bytes} (h : Takes buf data rest) (hsizes : SizesBelow (2 ^ 63) buf) :
    nextChunk buf = .chunk data rest := by
  obtain ⟨taken, hnext, hdata⟩ := h
  rw [hnext, hdata hsizes.not_wraps]

theorem SizesBelow.rest {data rest : Bytes} (hsizes : SizesBelow (2 ^ 63) buf) (hlen : buf.length < 2 ^ 63)
    (h : nextChunk buf = .chunk data rest) : SizesBelow (2 ^ 63) rest := by
  obtain ⟨line, hline, ⟨hsize, hne, rfl, -⟩ | ⟨hsize, rfl, -⟩⟩ := nextChunk_chunk hlen h
  · intro datas buf p htiles hfind
    exact hsizes (data :: datas) buf p (.cons hline hsize hne htiles) hfind
  · exact absurd ⟨line, rest, rfl, hline, hsize⟩ hsizes.not_wraps

theorem Decodes.unique {limit : Nat} {acc₁ acc₂ buf₁ buf₂ : Bytes} {v₁ v₂ : Verdict}
    (h₁ : Decodes limit acc buf v₁ acc₁ buf₁) (h₂ : Decodes limit acc buf v₂ acc₂ buf₂)
    (hlen : buf.length < 2 ^ 63) (hsizes : SizesBelow (2 ^ 63) buf) : v₁ = v₂ ∧ acc₁ = acc₂ := by
  induction h₁ with
  | wait hnext | outOfRange hnext | malformed hnext | last hnext =>
    cases h₂ with
    | wait hnext' | outOfRange hnext' | malformed hnext' | last hnext' =>
      rw [hnext] at hnext'
      cases hnext'
      try exact ⟨rfl, rfl⟩
    | tooLarge htakes _ | chunk htakes _ _ =>
      have hnext' := htakes.next hsizes
      rw [hnext] at hnext'
      cases hnext'
  | tooLarge htakes hbig =>
    have hnext := htakes.next hsizes
    cases h₂ with
    | wait hnext' | outOfRange hnext' | malformed hnext' | last hnext' =>
      rw [hnext] at hnext'
      cases hnext'
    | tooLarge htakes' _ =>
      have hnext' := htakes'.next hsizes
      rw [hnext] at hnext'
      cases hnext'
      exact ⟨rfl, rfl⟩
    | chunk htakes' hfit _ =>
      have hnext' := htakes'.next hsizes
      rw [hnext] at hnext'
      cases hnext'
      exact absurd hbig hfit
  | chunk htakes hfit _ ih =>
    have hnext := htakes.next hsizes
    cases h₂ with
    | wait hnext' | outOfRange hnext' | malformed hnext' | last hnext' =>
      rw [hnext] at hnext'
      cases hnext'
    | tooLarge htakes' hbig =>
      have hnext' := htakes'.next hsizes
      rw [hnext] at hnext'
      cases hnext'
      exact absurd hbig hfit
    | chunk htakes' _ hgo =>
      have hnext' := htakes'.next hsizes
      rw [hnext] at hnext'
      cases hnext'
      exact ih hgo ((length_lt_of_nextChunk hlen hnext).trans hlen) (hsizes.rest hlen hnext)

theorem decodes_exists (limit : Nat) (acc : Bytes) (hlen : buf.length < 2 ^ 63) :
    ∃ v acc' buf', Decodes limit acc buf v acc' buf' := by
  induction hk : buf.length using Nat.strong_induction_on generalizing buf acc with
  | _ k ih =>
    rcases hnext : nextChunk buf with _ | _ | _ | rest | ⟨data, rest⟩
    · exact ⟨_, _, _, .wait hnext⟩
    · exact ⟨_, _, _, .outOfRange hnext⟩
    · exact ⟨_, _, _, .malformed hnext⟩
    · exact ⟨_, _, _, .last hnext⟩
    by_cases hbig : 0 < limit ∧ limit < (acc ++ data).length
    · exact ⟨_, _, _, .tooLarge (takes_of_next hnext) hbig⟩
    · have hlt := length_lt_of_nextChunk hlen hnext
      obtain ⟨v, acc', buf', hgo⟩ := ih rest.length (hk ▸ hlt) (acc ++ data) (hlt.trans hlen) rfl
      exact ⟨v, acc', buf', .chunk (takes_of_next hnext) hbig hgo⟩

/-- The longest `std::string` has `2 ^ 63 - 2` bytes, so with sizes below `2 ^ 63` no position is out of range. -/
theorem Decodes.in_range {limit : Nat} {acc' buf' : Bytes} (h : Decodes limit acc buf v acc' buf')
    (hlen : buf.length + 1 < 2 ^ 63) (hsizes : SizesBelow (2 ^ 63) buf) : v ≠ .outOfRange := by
  induction h with
  | @outOfRange _ buf hnext =>
    rcases line_cases buf with hno | ⟨line, tail, rfl, hline⟩
    · rw [nextChunk_of_no_line hno] at hnext
      cases hnext
    have hsize := hsizes.of_line hline
    have hsum : line.length + lineSize line + 4 < 2 ^ 64 := by
      simp only [List.length_append, crlf, List.length_cons, List.length_nil] at hlen
      omega
    rw [nextChunk_line hline (by omega), if_pos hsum] at hnext
    unfold afterLine at hnext
    split_ifs at hnext
  | chunk htakes _ _ ih =>
    have hnext := htakes.next hsizes
    have hlt := htakes.length_lt (by omega)
    exact ih (by omega) (hsizes.rest (by omega) hnext)
  | wait | malformed | last | tooLarge => rintro ⟨⟩

/-! ### The slices return -/

theorem holds_sound_eq {d : DataStore} {acc' : Bytes} (h : d.Holds w acc) (h' : d.Sound acc') : acc = acc' :=
  (content_of_sound h.sound).symm.trans (content_of_sound h')

theorem closeSlice_returns (hs : sys.NoFail) {total : Bytes} (hd : q.decodedBody.Holds w total) (hbody : q.body.Holds w raw)
    (hstate : q.reqState = .REQ_CHUNKED) : ∃ b q' w', closeSlice sys (q, w) = (.ok b, q', w') ∧
      (b = false → q' = q ∧ w' = w) := by
  by_cases hdone : q.isBodyProcessed = true
  · obtain ⟨q', w', hclose, -⟩ := closeSlice_done hs hdone hd hbody hstate
    exact ⟨true, q', w', hclose, (nomatch ·)⟩
  · refine ⟨false, q, w, ?_, fun _ => ⟨rfl, rfl⟩⟩
    rw [closeSlice, Eff.obj_bind, if_neg hdone]
    rfl

/-- The loop and what follows it return, where no temporary file fails. -/
theorem loop_returns (hs : sys.NoFail) (hlen : buf.length < 2 ^ 63) (hq : q.chunkBuffer = buf) (hd : q.decodedBody.Holds w acc)
    (hbody : q.body.Holds w raw) (hstate : q.reqState = .REQ_CHUNKED)
    (hrange : ∀ acc' buf', ¬ Decodes q.maxBodySize acc buf .outOfRange acc' buf') :
    ∃ b q' w', (decodeLoop sys buf hlen >>= fun done => if done then return true else closeSlice sys : Method Request Bool)
        (q, w) = (.ok b, q', w') ∧
      (b = false → q'.body.Holds w' raw ∧ ∃ acc', q'.decodedBody.Holds w' acc') := by
  obtain ⟨acc', buf', hout⟩ | ⟨done, q₁, w₁, acc₁, hloop, hw₁, hd₁⟩ := decodeLoop_returns hs hlen hd
  · exact absurd hout (hrange acc' buf')
  rw [Eff.bind_ok hloop]
  by_cases hstop : done = true
  · rw [if_pos hstop]
    exact ⟨true, q₁, w₁, rfl, (nomatch ·)⟩
  obtain ⟨v, acc₂, buf', -, -, hdone, -, hq₁⟩ := decodeLoop_ok hloop hq hd.sound
  have hbody₁ : q₁.body = q.body := by
    rw [hq₁]
    cases v <;> rfl
  have hstate₁ : q₁.reqState = .REQ_CHUNKED := by
    rw [hq₁]
    cases v with
    | malformed | tooLarge => exact absurd hdone hstop
    | _ => exact hstate
  have hheld : q₁.body.Holds w₁ raw := hbody₁ ▸ hbody.mono hw₁.tmp
  obtain ⟨b, q', w', hclose, hsame⟩ := closeSlice_returns hs hd₁ hheld hstate₁
  rw [if_neg hstop]
  refine ⟨b, q', w', hclose, fun hb => ?_⟩
  obtain ⟨rfl, rfl⟩ := hsame hb
  exact ⟨hheld, acc₁, hd₁⟩

theorem processBodySliceOf_returns (hs : sys.NoFail) (h : Between q raw acc pos) (hraw : raw.length < 2 ^ 63)
    (hbody : q.body.Holds w raw) (hd : q.decodedBody.Holds w acc)
    (hrange : ∀ body rest, ¬ Decodes q.maxBodySize [] raw .outOfRange body rest) :
    ∃ b q' w', processBodySliceOf sys sliceSize (q, w) = (.ok b, q', w') ∧
      (b = false → q'.body.Holds w' raw ∧ ∃ acc', q'.decodedBody.Holds w' acc') := by
  have hseek : q.body = q.body.seekTo pos := by
    refine DataStore.ext rfl rfl rfl h.body.position rfl ?_ rfl rfl
    show q.body.fileFd = if q.body.mode = .RAM then none else some pos
    split
    · rename_i hm
      exact (hbody.ram hm).2.1
    · rename_i hm
      exact h.body.offset (q.body.mode_cases.resolve_left hm)
  obtain ⟨t, hread⟩ := DataStore.read_seekTo hs hbody pos sliceSize
  rw [← hseek] at hread
  obtain ⟨got, hgot⟩ : ∃ got, got = (raw.drop pos).take sliceSize := ⟨_, rfl⟩
  rw [← hgot] at hread
  have hlt : (q.chunkBuffer ++ got).length < 2 ^ 63 := hgot ▸ h.buffer_lt hraw
  rw [processBodySliceOf_eq h hread hlt]
  have hbody₁ : (q.body.seekTo (pos + got.length)).Holds { w with tick := t } raw := by
    refine hbody.seekTo ?_ _
    exact subset_rfl
  have hd₁ : q.decodedBody.Holds { w with tick := t } acc := hd.mono subset_rfl
  refine loop_returns hs hlt (q := readSlice q (q.body.seekTo (pos + got.length)) got) rfl hd₁ hbody₁ h.state ?_
  · intro acc' buf' hout
    have htake : raw.take pos ++ got = raw.take (pos + got.length) := by rw [hgot, take_next]
    have hfull : Decodes q.maxBodySize [] (raw.take pos ++ got) .outOfRange acc' buf' :=
      h.read.append (by rw [htake, List.length_take]; omega) hout
    rw [htake] at hfull
    obtain ⟨rest, hsettled⟩ : ∃ rest, Decodes q.maxBodySize []
        (raw.take (pos + got.length) ++ raw.drop (pos + got.length)) .outOfRange acc' rest :=
      hfull.settled (by rwa [List.take_append_drop]) (nomatch ·)
    rw [List.take_append_drop] at hsettled
    exact hrange _ _ hsettled

theorem processSlicesOf_returns (hs : sys.NoFail) (h : Between q raw acc pos) (hraw : raw.length < 2 ^ 63)
    (hbody : q.body.Holds w raw) (hd : q.decodedBody.Holds w acc)
    (hrange : ∀ body rest, ¬ Decodes q.maxBodySize [] raw .outOfRange body rest) (n : Nat) :
    ∃ b q' w', processSlicesOf sys sliceSize n (q, w) = (.ok b, q', w') := by
  induction n generalizing q w acc pos with
  | zero => exact ⟨false, q, w, rfl⟩
  | succ n ih =>
    obtain ⟨b, q₁, w₁, hslice, hmore⟩ := processBodySliceOf_returns hs h hraw hbody hd hrange
    rw [processSlicesOf, Eff.bind_ok hslice]
    rcases processBodySliceOf_ok h hraw hslice with ⟨rfl, hlimit, acc₁, h₁⟩ | ⟨rfl, -⟩
    · obtain ⟨hbody₁, acc₂, hd₁⟩ := hmore rfl
      cases holds_sound_eq hd₁ h₁.decoded
      rw [if_neg Bool.false_ne_true]
      exact ih h₁ hbody₁ hd₁ (by rwa [hlimit])
    · exact ⟨true, q₁, w₁, rfl⟩

/-- A request whose chunked body `raw` is received, and not decoded yet. -/
structure Ready (q : Request) (w : World) (raw : Bytes) : Prop where
  counted : q.contentLength < 0
  undone : q.isBodyProcessed = false
  state : q.reqState = .REQ_CHUNKED
  buffer : q.chunkBuffer = []
  decoded : q.decodedBody.Holds w []
  body : q.body.Holds w raw
  start : q.body = q.body.seekTo 0

theorem Ready.between (h : Ready q w raw) : Between q raw [] 0 := by
  refine ⟨h.counted, h.undone, h.state, Nat.zero_le _, ⟨h.body.sound, ?_, fun hm => ?_⟩, h.decoded.sound, ?_⟩
  · rw [h.start]
    rfl
  · rw [h.start]
    exact if_neg (by rw [hm]; exact (nomatch ·))
  · rw [h.buffer]
    exact .wait rfl

/-- Whatever the system answers, runs that return show `o`; they return where no temporary file fails. -/
structure Ends (sys : Sys) (m : Method Request Bool) (s : Request × World) (o : Outcome) : Prop where
  shown : ∀ b q' w', m s = (.ok b, q', w') → q'.outcome = o
  returns : sys.NoFail → ∃ b q' w', m s = (.ok b, q', w')

theorem Between.outcome (h : Between q raw acc pos) : q.outcome = .incomplete := by
  rw [Request.outcome, h.state, if_neg (nomatch ·), h.undone, if_neg Bool.false_ne_true]

theorem processSlicesOf_ends (h : Ready q w raw) (hraw : raw.length + 1 < 2 ^ 63) (hsizes : SizesBelow (2 ^ 63) raw)
    {body rest : Bytes} (hread : Decodes q.maxBodySize [] raw v body rest) (hn : raw.length ≤ n * sliceSize) :
    Ends sys (processSlicesOf sys sliceSize n) (q, w) (v.outcome body) := by
  constructor
  · intro b q' w' hrun
    rcases processSlicesOf_ok h.between (by omega) hrun with ⟨-, hlimit, acc', hall⟩ | ⟨-, v', body', hthrough⟩
    · have hdec := hall.read
      rw [hlimit, List.take_of_length_le (by omega)] at hdec
      obtain ⟨rfl, -⟩ := hread.unique hdec (by omega) hsizes
      exact hall.outcome
    · obtain ⟨rest', hdec⟩ := hthrough.read
      obtain ⟨rfl, rfl⟩ := hread.unique hdec (by omega) hsizes
      exact hthrough.shown
  · intro hs
    exact processSlicesOf_returns hs h.between (by omega) h.body h.decoded
      (fun _ _ hout => hout.in_range hraw hsizes rfl) n

theorem decodeWhole_ends (h : Ready q w raw) (hraw : raw.length + 1 < 2 ^ 63) (hsizes : SizesBelow (2 ^ 63) raw)
    {body rest : Bytes} (hread : Decodes q.maxBodySize [] raw v body rest) :
    Ends sys (decodeWhole sys raw (by omega)) (q, w) (v.outcome body) := by
  constructor
  · intro b q' w' hrun
    rw [decodeWhole, Eff.modObj_bind] at hrun
    obtain ⟨done, ⟨q₁, w₁⟩, hloop, hrest⟩ := Eff.bind_eq_ok.1 hrun
    obtain ⟨v', acc', buf', hdec, hd, rfl, hv, hq₁⟩ := decodeLoop_ok hloop rfl h.decoded.sound
    obtain ⟨rfl, rfl⟩ := hread.unique hdec (by omega) hsizes
    by_cases hmore : v = .incomplete
    · subst hmore
      have hundone : q₁.isBodyProcessed = false := by
        rw [hq₁]
        exact h.undone
      have hstate : q₁.reqState = .REQ_CHUNKED := by
        rw [hq₁]
        exact h.state
      rw [show Verdict.stops .incomplete = false from rfl, if_neg Bool.false_ne_true, closeSlice, Eff.obj_bind,
        if_neg (by rw [hundone]; exact Bool.false_ne_true)] at hrest
      cases hrest
      rw [Request.outcome, hundone, hstate]
      rfl
    · have hlen : (raw ++ []).length < 2 ^ 63 := by
        rw [List.append_nil]
        omega
      obtain ⟨-, hthrough⟩ := after_loop hdec hd (q := { q with chunkBuffer := raw }) h.state h.undone hmore hv hlen hq₁ hrest
      exact hthrough.shown
  · intro hs
    obtain ⟨b, q', w', hrun, -⟩ := loop_returns hs (show raw.length < 2 ^ 63 by omega)
      (q := { q with chunkBuffer := raw }) rfl h.decoded h.body h.state
      (fun _ _ hout => hout.in_range hraw hsizes rfl)
    exact ⟨b, q', w', hrun⟩

/-- The outcome of the slices is that of the whole body, for the slice length of the code and every other. -/
theorem slicing_does_not_matter (h : Ready q w raw) (hraw : raw.length + 1 < 2 ^ 63) (hsizes : SizesBelow (2 ^ 63) raw) :
    ∃ o, Ends sys (decodeWhole sys raw (by omega)) (q, w) o ∧
      (∀ n, raw.length ≤ n * PARSE_BYTE_SLICE → Ends sys (processSlices sys n) (q, w) o) ∧
      ∀ sliceSize n, raw.length ≤ n * sliceSize → Ends sys (processSlicesOf sys sliceSize n) (q, w) o := by
  obtain ⟨v, body, rest, hread⟩ := decodes_exists q.maxBodySize [] (show raw.length < 2 ^ 63 by omega)
  refine ⟨v.outcome body, decodeWhole_ends h hraw hsizes hread, fun n hn => ?_, fun sliceSize n hn => ?_⟩
  · rw [processSlices_eq]
    exact processSlicesOf_ends h hraw hsizes hread hn
  · exact processSlicesOf_ends h hraw hsizes hread hn

/-- A request whose body is received, with no limit. -/
def received (raw : Bytes) : Request where
  contentLength := -1
  reqState := .REQ_CHUNKED
  body := { dataBuffer := raw, currentSize := raw.length }

theorem received_ready (raw : Bytes) (w : World) : Ready (received raw) w raw :=
  ⟨show (-1 : Int) < 0 by decide, rfl, rfl, rfl, DataStore.holds_new w, ⟨rfl, fun _ => ⟨rfl, rfl, rfl⟩, (nomatch ·)⟩, rfl⟩

theorem SizesBelow.last {line tail : Bytes} {bound : Nat} (hline : ¬ crlf <:+: line) (hzero : lineSize line = 0)
    (hbound : 0 < bound) : SizesBelow bound (line ++ crlf ++ tail) := by
  intro datas buf p htiles hfind
  generalize hraw : line ++ crlf ++ tail = raw at htiles
  cases htiles with
  | nil =>
    rw [← hraw, findSub_line hline tail] at hfind
    cases hfind
    rwa [← hraw, List.append_assoc, List.take_left, hzero]
  | @cons line' data' raw' _ _ hline' hsize' hne' _ =>
    have hassoc : line' ++ crlf ++ data' ++ crlf ++ raw' = line' ++ crlf ++ (data' ++ (crlf ++ raw')) := by
      simp only [List.append_assoc]
    obtain ⟨rfl, -⟩ := line_unique hline hline' (hraw.trans hassoc)
    exact absurd (List.eq_nil_of_length_eq_zero (hsize'.symm.trans hzero)) hne'

theorem SizesBelow.cons {line data rest : Bytes} {bound : Nat} (hline : ¬ crlf <:+: line)
    (hsize : lineSize line = data.length) (hbound : lineSize line < bound) (h : SizesBelow bound rest) :
    SizesBelow bound (line ++ crlf ++ data ++ crlf ++ rest) := by
  have hassoc : line ++ crlf ++ data ++ crlf ++ rest = line ++ crlf ++ (data ++ (crlf ++ rest)) := by
    simp only [List.append_assoc]
  rw [hassoc]
  intro datas buf p htiles hfind
  generalize hraw : line ++ crlf ++ (data ++ (crlf ++ rest)) = raw at htiles
  cases htiles with
  | nil =>
    rw [← hraw, findSub_line hline] at hfind
    cases hfind
    rwa [← hraw, List.append_assoc, List.take_left]
  | @cons line' data' raw' _ _ hline' hsize' _ hrest =>
    have hassoc' : line' ++ crlf ++ data' ++ crlf ++ raw' = line' ++ crlf ++ (data' ++ (crlf ++ raw')) := by
      simp only [List.append_assoc]
    rw [hassoc'] at hraw
    obtain ⟨rfl, htail⟩ := line_unique hline hline' hraw
    obtain ⟨rfl, htail⟩ := List.append_inj htail (hsize.symm.trans hsize')
    cases List.append_cancel_left htail
    exact h _ _ p hrest hfind

/-- A chunk with an extension, and the last chunk. -/
def greeting : Bytes := ascii "5;x" ++ crlf ++ ascii "hello" ++ crlf ++ (ascii "0" ++ crlf ++ crlf)

theorem slicing_does_not_matter_greeting :
    ∃ o, Ends Sys.calm (decodeWhole Sys.calm greeting (by decide)) (received greeting, {}) o ∧
      (∀ n, greeting.length ≤ n * PARSE_BYTE_SLICE → Ends Sys.calm (processSlices Sys.calm n) (received greeting, {}) o) ∧
      ∀ sliceSize n, greeting.length ≤ n * sliceSize →
        Ends Sys.calm (processSlicesOf Sys.calm sliceSize n) (received greeting, {}) o :=
  slicing_does_not_matter (received_ready greeting {}) (by decide)
    (SizesBelow.cons (by decide) (by decide) (by decide) (SizesBelow.last (by decide) (by decide) (by decide)))

end Slices

end Request

end LeftHookRoll
