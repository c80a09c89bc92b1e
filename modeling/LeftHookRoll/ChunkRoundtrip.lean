import LeftHookRoll.DataStoreCopy
import LeftHookRoll.Segmentation

/-!
# Decoding undoes the chunked coding

`nextChunk` on what has arrived of an encoding takes the first chunk or waits (`nextChunk_encoded`). The
loop keeps what is left of the encoding and what is decoded together (`decodeLoop_encoded`), a slice
makes what is unread shorter, and so the slices come to the end (`decode_encode`).
-/

namespace LeftHookRoll

open Eff

/-- What else a hexadecimal digit is not. -/
structure PlainHex (d : UInt8) : Prop where
  nul : d ≠ 0
  space : isspace d = false
  minus : d ≠ 45
  plus : d ≠ 43
  semicolon : d ≠ 59
  cr : d ≠ 13
  x : toupper d ≠ 88

theorem plainHex {d : UInt8} (h : (hexVal d).isSome) : PlainHex d := by
  have hall : ∀ n : Fin 256, (hexVal (UInt8.ofNat n)).isSome → UInt8.ofNat n ≠ 0 ∧ isspace (UInt8.ofNat n) = false ∧
      UInt8.ofNat n ≠ 45 ∧ UInt8.ofNat n ≠ 43 ∧ UInt8.ofNat n ≠ 59 ∧ UInt8.ofNat n ≠ 13 ∧
      toupper (UInt8.ofNat n) ≠ 88 := by
    decide +kernel
  have hd : UInt8.ofNat (⟨d.toNat, d.toNat_lt⟩ : Fin 256) = d := UInt8.ofNat_toNat
  obtain ⟨h1, h2, h3, h4, h5, h6, h7⟩ := hd ▸ hall ⟨d.toNat, d.toNat_lt⟩ (by rw [hd]; exact h)
  exact ⟨h1, h2, h3, h4, h5, h6, h7⟩

/-- `strtoul` reads hexadecimal digits exactly, or overflows. -/
theorem strtoul16_digits {s : Bytes} (hne : s ≠ []) (hex : ∀ d ∈ s, (hexVal d).isSome) :
    strtoul16 s = if 2 ^ 64 ≤ foldDigits 16 hexVal 0 s then 2 ^ 64 - 1 else foldDigits 16 hexVal 0 s := by
  obtain ⟨c, s, rfl⟩ := List.exists_cons_of_ne_nil hne
  have hc := plainHex (hex c List.mem_cons_self)
  have hcstr : cstr (c :: s) = c :: s := cstr_eq_self fun hmem => (plainHex (hex 0 hmem)).nul rfl
  have hskip : (c :: s).dropWhile isspace = c :: s := by
    rw [List.dropWhile_cons, if_neg (by rw [hc.space]; exact Bool.false_ne_true)]
  have hsign : readSign (c :: s) = (false, c :: s) := by
    unfold readSign
    split
    · rename_i heq
      exact absurd (List.cons.inj heq).1 hc.minus
    · rename_i heq
      exact absurd (List.cons.inj heq).1 hc.plus
    · rfl
  have hnox : skipHexPrefix (c :: s) = c :: s := by
    unfold skipHexPrefix
    split
    · rename_i x rest heq
      obtain ⟨-, rfl⟩ := List.cons.inj heq
      rw [if_neg (plainHex (hex x (by simp))).x]
      exact heq.symm
    · rfl
  have htake : (c :: s).takeWhile (fun c => (hexVal c).isSome) = c :: s := List.takeWhile_eq_self_iff.2 hex
  rw [strtoul16, hcstr, hskip, hsign]
  simp only
  rw [hnox, htake]
  rfl

theorem strtoul16_hex {s : Bytes} (hne : s ≠ []) (hex : ∀ d ∈ s, (hexVal d).isSome)
    (hlt : foldDigits 16 hexVal 0 s < 2 ^ 64) : strtoul16 s = foldDigits 16 hexVal 0 s := by
  rw [strtoul16_digits hne hex, if_neg (by omega)]

namespace Request

/-! ### One turn of the loop -/

section Turn

variable {size data buf tail : Bytes}

/-- What has arrived of a chunk is taken when it is all there. -/
theorem nextChunk_encoded (hne : size ≠ []) (hex : ∀ d ∈ size, (hexVal d).isSome)
    (hvalue : foldDigits 16 hexVal 0 size = data.length)
    (hlen : (size ++ crlf ++ data ++ crlf).length < 2 ^ 63)
    (hpre : buf <+: size ++ crlf ++ data ++ crlf ++ tail) :
    nextChunk buf = if buf.length < (size ++ crlf ++ data ++ crlf).length then .wait
      else if data = [] then .last (buf.drop (size ++ crlf ++ data ++ crlf).length)
      else .chunk data (buf.drop (size ++ crlf ++ data ++ crlf).length) := by
  have hlength : (size ++ crlf ++ data ++ crlf).length = size.length + 2 + data.length + 2 := by
    simp [crlf]
    omega
  rw [hlength] at hlen ⊢
  have hfull : (size ++ crlf ++ data ++ crlf ++ tail).findSub crlf = some size.length := by
    rw [List.append_assoc, List.append_assoc, List.append_assoc, List.findSub_append_of_not_head (by decide)]
    · rfl
    · intro c hc hhead
      exact (plainHex (hex c hc)).cr (Option.some.inj hhead).symm
  obtain ⟨t, ht⟩ := hpre
  rw [← ht] at hfull
  by_cases hshort : buf.length < size.length + 2
  · rw [nextChunk, List.findSub_eq_none_of_append hfull hshort, if_pos (by omega)]
  have hfind : buf.findSub crlf = some size.length := List.findSub_of_append hfull (by simpa [crlf] using hshort)
  have htake : buf.take size.length = size := by
    have htake' : (buf ++ t).take size.length = size := by
      rw [ht, List.append_assoc, List.append_assoc, List.append_assoc]
      exact List.take_left
    rwa [List.take_append_of_le_length (by omega)] at htake'
  have hfield : sizeField size = size := by
    refine List.takeWhile_eq_self_iff.2 fun c hc => ?_
    simpa using (plainHex (hex c hc)).semicolon
  rw [nextChunk, hfind]
  simp only
  rw [htake, hfield, strtoul16_hex hne hex (by omega), hvalue, Nat.mod_eq_of_lt (by omega), Nat.mod_eq_of_lt (by omega)]
  by_cases hwait : buf.length < size.length + 2 + data.length + 2
  · rw [if_pos hwait, if_pos hwait]
  rw [if_neg hwait, if_neg hwait, if_neg (by omega)]
  -- the chunk is there
  obtain ⟨rest, rfl⟩ : size ++ crlf ++ data ++ crlf <+: buf :=
    List.prefix_of_prefix_length_le ⟨tail, rfl⟩ ⟨t, ht⟩ (by rw [hlength]; omega)
  have hend : (size ++ crlf ++ data ++ crlf ++ rest).drop (size.length + 2 + data.length) = crlf ++ rest := by
    rw [List.append_assoc, show size.length + 2 + data.length = (size ++ crlf ++ data).length by simp [crlf]; omega]
    exact List.drop_left
  have hdata : (size ++ crlf ++ data ++ crlf ++ rest).drop (size.length + 2) = data ++ (crlf ++ rest) := by
    rw [List.append_assoc, List.append_assoc, show size.length + 2 = (size ++ crlf).length by simp [crlf]]
    exact List.drop_left
  rw [substr, substr, hend, hdata, List.take_left, show (crlf ++ rest).take 2 = crlf from rfl, if_neg (not_not.2 rfl)]
  by_cases hnil : data = []
  · rw [if_pos (by rw [hnil]; rfl), if_pos hnil]
  · rw [if_neg (by simpa using hnil), if_neg hnil]

end Turn

/-! ### The loop -/

/-- The bytes that the chunks carry. -/
def payload (cs : List Connection.Chunk) : Bytes := cs.flatMap Connection.Chunk.data

/-- What is still to come: `unread`, after what is in the buffer, is the encoding of some more chunks,
which complete `data` to `total`. -/
structure ToCome (q : Request) (w : World) (total unread rest : Bytes) (cs : List Connection.Chunk) : Prop where
  input : q.chunkBuffer ++ unread = Connection.encodeChunks cs ++ rest
  holds : ∃ data, q.decodedBody.Holds w data ∧ data ++ payload cs = total
  fits : q.maxBodySize = 0 ∨ total.length ≤ q.maxBodySize

theorem encodeChunks_cons (c : Connection.Chunk) (cs : List Connection.Chunk) :
    Connection.encodeChunks (c :: cs) = c.size ++ crlf ++ c.data ++ crlf ++ Connection.encodeChunks cs := by
  rw [Connection.encodeChunks, List.flatMap_cons, Connection.Chunk.encode, List.append_assoc]
  rfl

theorem encodeChunks_length_le {cs' cs : List Connection.Chunk} (h : cs' <:+ cs) :
    (Connection.encodeChunks cs').length ≤ (Connection.encodeChunks cs).length := by
  obtain ⟨taken, rfl⟩ := h
  rw [Connection.encodeChunks, Connection.encodeChunks, List.flatMap_append, List.append_assoc]
  exact (List.suffix_append _ _).length_le

variable {sys : Sys} {q : Request} {w : World} {total buf unread rest : Bytes} {cs : List Connection.Chunk}

/-- The loop ends with a complete body, or with less than one chunk in the buffer. -/
theorem decodeLoop_encoded (hs : sys.NoFail) (h : ToCome q w total unread rest cs) (hq : q.chunkBuffer = buf)
    (hbuf : buf.length < 2 ^ 63) (hlen : (Connection.encodeChunks cs).length < 2 ^ 63) :
    ∃ q' w', decodeLoop sys buf hbuf (q, w) = (.ok false, q', w') ∧ w.Quiet w' ∧
      q' = { q with
        decodedBody := q'.decodedBody, chunkBuffer := q'.chunkBuffer, isBodyProcessed := q'.isBodyProcessed } ∧
      (q'.isBodyProcessed = true ∧ q'.decodedBody.Holds w' total ∨
        q'.isBodyProcessed = q.isBodyProcessed ∧ ∃ cs', cs' <:+ cs ∧ ToCome q' w' total unread rest cs' ∧
          q'.chunkBuffer.length < (Connection.encodeChunks cs').length) := by
  induction cs generalizing q w buf with
  | nil =>
    have hlast : Connection.encodeChunks [] = ascii "0" ++ crlf ++ [] ++ crlf := rfl
    have hturn : nextChunk buf = if buf.length < (ascii "0" ++ crlf ++ [] ++ crlf).length then .wait
        else if ([] : Bytes) = [] then .last (buf.drop (ascii "0" ++ crlf ++ [] ++ crlf).length)
        else .chunk [] (buf.drop (ascii "0" ++ crlf ++ [] ++ crlf).length) :=
      nextChunk_encoded (by decide) (by decide +kernel) rfl (by decide) ⟨unread, hlast ▸ hq ▸ h.input⟩
    rw [← hlast, if_pos rfl] at hturn
    split at hturn
    · rename_i hshort
      exact ⟨q, w, by rw [decodeLoop_wait sys hturn]; rfl, .refl w, rfl,
        .inr ⟨rfl, [], List.suffix_rfl, h, by rwa [hq]⟩⟩
    · obtain ⟨data, hdata, htotal⟩ := h.holds
      rw [payload, List.flatMap_nil, List.append_nil] at htotal
      refine ⟨{ q with
        chunkBuffer := buf.drop (Connection.encodeChunks []).length, isBodyProcessed := true }, w, ?_, .refl w, rfl,
        .inl ⟨rfl, htotal ▸ hdata⟩⟩
      rw [decodeLoop_last sys hturn]
      rfl
  | cons c cs ih =>
    have hcons := encodeChunks_cons c cs
    obtain ⟨head, hhead⟩ : ∃ head, head = c.size ++ crlf ++ c.data ++ crlf := ⟨_, rfl⟩
    have hlength : (Connection.encodeChunks (c :: cs)).length = head.length + (Connection.encodeChunks cs).length := by
      rw [hcons, ← hhead, List.length_append]
    have hinput := h.input
    rw [hq, hcons, List.append_assoc] at hinput
    have hturn := nextChunk_encoded c.size_ne_nil c.hex c.value (by rw [← hhead]; omega) ⟨unread, hinput⟩
    rw [if_neg c.data_ne_nil, ← hhead] at hturn
    rw [← hhead] at hinput
    split at hturn
    · rename_i hshort
      refine ⟨q, w, by rw [decodeLoop_wait sys hturn]; rfl, .refl w, rfl,
        .inr ⟨rfl, c :: cs, List.suffix_rfl, h, ?_⟩⟩
      rw [hq, hlength]
      omega
    -- the whole chunk is in the buffer
    rename_i hthere
    obtain ⟨buf', rfl⟩ : head <+: buf :=
      List.prefix_of_prefix_length_le ⟨_, rfl⟩ ⟨unread, hinput⟩ (Nat.not_lt.1 hthere)
    rw [List.drop_left] at hturn
    rw [List.append_assoc] at hinput
    obtain ⟨data, hdata, htotal⟩ := h.holds
    rw [payload, List.flatMap_cons, ← List.append_assoc] at htotal
    obtain ⟨d₁, w₁, happend, hd₁, hw₁, -⟩ := DataStore.append_spec hs hdata c.data_ne_nil
    have hnext : ToCome { q with decodedBody := d₁, chunkBuffer := buf' } w₁ total unread rest cs :=
      ⟨List.append_cancel_left hinput, ⟨_, hd₁, htotal⟩, h.fits⟩
    obtain ⟨q', w', hrun, hw', hq', hdone⟩ :=
      ih hnext rfl ((length_lt_of_nextChunk hbuf hturn).trans hbuf) (by omega)
    refine ⟨q', w', ?_, hw₁.trans hw', by rw [hq'], ?_⟩
    · have hon : onDecodedBody (DataStore.append sys c.data) (q, w) = (.ok (), { q with decodedBody := d₁ }, w₁) :=
        Eff.on_eq happend
      have hlimit : ¬ (q.maxBodySize > 0 ∧ d₁.getSize > q.maxBodySize) := by
        have hfits := h.fits
        rw [← htotal, List.length_append] at hfits
        rw [DataStore.getSize, hd₁.size]
        omega
      rw [decodeLoop_chunk sys hturn, Eff.bind_ok hon, Eff.obj_bind, if_neg hlimit, Eff.modObj_bind]
      exact hrun
    · rcases hdone with hdone | ⟨hflag, cs', hsuffix, hrest⟩
      · exact .inl hdone
      · exact .inr ⟨hflag, cs', hsuffix.trans (List.suffix_cons c cs), hrest⟩

/-! ### The slices -/

/-- A slice is due: the body is read up to `pos`, and less than one chunk is in the buffer. -/
structure Slicing (q : Request) (w : World) (content total rest : Bytes) (cs : List Connection.Chunk) (pos : Nat) :
    Prop where
  counted : q.contentLength < 0
  undone : q.isBodyProcessed = false
  state : q.reqState = .REQ_CHUNKED
  body : q.body.Holds w content
  position : q.body = q.body.seekTo pos
  toCome : ToCome q w total (content.drop pos) rest cs
  short : q.chunkBuffer.length < (Connection.encodeChunks cs).length
  length : (Connection.encodeChunks cs ++ rest.take (PARSE_BYTE_SLICE - 1)).length < 2 ^ 63

/-- The body is decoded: it is `total`, to be read from its start. -/
structure Finished (q q' : Request) (w' : World) (total : Bytes) : Prop where
  state : q'.reqState = .REQ_CHUNKED
  status : q'.statusCode = q.statusCode
  body : q'.body.Holds w' total
  position : q'.body = q'.body.seekTo 0
  header : q'.getHeader (ascii "content-length") = decimal total.length

variable {content : Bytes} {pos : Nat}

theorem Slicing.pos_lt (h : Slicing q w content total rest cs pos) : pos < content.length := by
  by_contra hge
  have hinput := h.toCome.input
  rw [List.drop_of_length_le (Nat.not_lt.1 hge), List.append_nil] at hinput
  have hshort := h.short
  rw [hinput, List.length_append] at hshort
  omega

/-- What a slice takes in fits in a string. -/
theorem Slicing.slice_lt (h : Slicing q w content total rest cs pos) :
    (q.chunkBuffer ++ (content.drop pos).take PARSE_BYTE_SLICE).length < 2 ^ 63 := by
  have hinput := congrArg List.length h.toCome.input
  have hshort := h.short
  have hlen := h.length
  simp only [List.length_append, List.length_take] at hinput hlen ⊢
  have hslice : PARSE_BYTE_SLICE = 8192 := rfl
  omega

/-- What a slice does after its loop. -/
def closeSlice (sys : Sys) : Method Request Bool := do
  let r ← obj
  if r.isBodyProcessed then
    onBody (DataStore.assign sys r.decodedBody)
    modObj fun r => { r with chunkBuffer := [] }
    onBody (DataStore.resetReadPosition sys)
    modObj fun r => { r with
      headers := r.headers.insert (ascii "content-length") (decimal r.body.getSize) }
    return true
  else return false

/-- The request when a slice has read `got`. -/
def readSlice (q : Request) (d : DataStore) (got : Bytes) : Request :=
  { q with body := d, totalBytesRead := q.totalBytesRead + got.length, chunkBuffer := q.chunkBuffer ++ got }

theorem processBodySlice_eq {got : Bytes} {d : DataStore} {w' : World}
    (hgo : ¬ (q.contentLength ≥ 0 ∨ q.isBodyProcessed ∨ q.reqState = .REQ_ERROR))
    (hread : DataStore.read sys PARSE_BYTE_SLICE (q.body, w) = (.ok got, d, w'))
    (hlen : (q.chunkBuffer ++ got).length < 2 ^ 63) :
    processBodySlice sys (q, w) = (decodeLoop sys (q.chunkBuffer ++ got) hlen >>= fun done =>
      if done then return true else closeSlice sys) (readSlice q d got, w') := by
  have hon : onBody (DataStore.read sys PARSE_BYTE_SLICE) (q, w) = (.ok got, { q with body := d }, w') :=
    Eff.on_eq hread
  rw [processBodySlice, Eff.obj_bind, if_neg hgo, Eff.bind_ok hon, Eff.modObj_bind, dif_pos hlen,
    Eff.modObj_bind]
  rfl

theorem closeSlice_done (hs : sys.NoFail) {old : Bytes} (hdone : q.isBodyProcessed = true)
    (hdecoded : q.decodedBody.Holds w total) (hbody : q.body.Holds w old) (hstate : q.reqState = .REQ_CHUNKED) :
    ∃ q' w', closeSlice sys (q, w) = (.ok true, q', w') ∧ Finished q q' w' total := by
  obtain ⟨d₁, w₁, hassign, hd₁, -⟩ := DataStore.assign_spec hs hdecoded hbody
  obtain ⟨t, hreset⟩ := DataStore.resetReadPosition_eq hs hd₁
  have hassign' : onBody (DataStore.assign sys q.decodedBody) (q, w) = (.ok (), { q with body := d₁ }, w₁) :=
    Eff.on_eq hassign
  have hreset' : onBody (DataStore.resetReadPosition sys) ({ q with body := d₁, chunkBuffer := [] }, w₁) =
      (.ok (), { q with body := d₁.seekTo 0, chunkBuffer := [] }, { w₁ with tick := t }) := Eff.on_eq hreset
  have hheld : (d₁.seekTo 0).Holds { w₁ with tick := t } total := by
    refine hd₁.seekTo ?_ 0
    exact subset_rfl
  refine ⟨{ q with
    body := d₁.seekTo 0, chunkBuffer := []
    headers := q.headers.insert (ascii "content-length") (decimal total.length) }, { w₁ with tick := t }, ?_,
    hstate, rfl, hheld, rfl, ?_⟩
  · rw [closeSlice, Eff.obj_bind, if_pos hdone, Eff.bind_ok hassign', Eff.modObj_bind, Eff.bind_ok hreset',
      Eff.modObj_bind, ← hd₁.size]
    rfl
  · rw [getHeader, OrdMap.find?_insert, if_pos (by decide)]
    rfl

theorem processBodySlice_encoded (hs : sys.NoFail) (h : Slicing q w content total rest cs pos) :
    ∃ q' w', (processBodySlice sys (q, w) = (.ok true, q', w') ∧ Finished q q' w' total) ∨
      processBodySlice sys (q, w) = (.ok false, q', w') ∧ q'.statusCode = q.statusCode ∧
        ∃ cs' pos', pos < pos' ∧ Slicing q' w' content total rest cs' pos' := by
  obtain ⟨got, hgot⟩ : ∃ got, got = (content.drop pos).take PARSE_BYTE_SLICE := ⟨_, rfl⟩
  obtain ⟨t, hread⟩ := DataStore.read_seekTo hs h.body pos PARSE_BYTE_SLICE
  rw [← h.position, ← hgot] at hread
  have hgo : ¬ (q.contentLength ≥ 0 ∨ q.isBodyProcessed ∨ q.reqState = .REQ_ERROR) := by
    rw [h.undone, h.state]
    simpa using h.counted
  have hslice := h.slice_lt
  rw [← hgot] at hslice
  have hinput : (q.chunkBuffer ++ got) ++ content.drop (pos + got.length) = Connection.encodeChunks cs ++ rest := by
    have hrest : got ++ content.drop (pos + got.length) = content.drop pos := by
      rw [← List.drop_drop, hgot, List.drop_length_take, List.take_append_drop]
    rw [List.append_assoc, hrest, h.toCome.input]
  obtain ⟨q₁, hq₁⟩ : ∃ q₁, q₁ = readSlice q (q.body.seekTo (pos + got.length)) got := ⟨_, rfl⟩
  have htoCome : ToCome q₁ { w with tick := t } total (content.drop (pos + got.length)) rest cs := by
    obtain ⟨data, hdata, htotal⟩ := h.toCome.holds
    rw [hq₁]
    exact ⟨hinput, ⟨data, hdata.mono subset_rfl, htotal⟩, h.toCome.fits⟩
  have hlen := h.length
  rw [List.length_append] at hlen
  obtain ⟨q₂, w₂, hloop, hw₂, hq₂, hdone⟩ := decodeLoop_encoded hs htoCome (by rw [hq₁]; rfl) hslice (by omega)
  have hbody : q₂.body.Holds w₂ content := by
    rw [hq₂, hq₁]
    exact h.body.seekTo hw₂.tmp _
  have hstate : q₂.reqState = .REQ_CHUNKED := by
    rw [hq₂, hq₁]
    exact h.state
  have hstatus : q₂.statusCode = q.statusCode := by rw [hq₂, hq₁]; rfl
  have hrun : processBodySlice sys (q, w) = closeSlice sys (q₂, w₂) := by
    rw [processBodySlice_eq hgo hread hslice, ← hq₁, Eff.bind_ok hloop]
    rfl
  rw [hrun]
  rcases hdone with ⟨hdone, hdecoded⟩ | ⟨hflag, cs', hsuffix, htoCome', hshort⟩
  · obtain ⟨q', w', hclose, hfin⟩ := closeSlice_done hs hdone hdecoded hbody hstate
    exact ⟨q', w', .inl ⟨hclose, hfin.state, hfin.status.trans hstatus, hfin.body, hfin.position, hfin.header⟩⟩
  · have hundone : q₂.isBodyProcessed = false := by
      rw [hflag, hq₁]
      exact h.undone
    have hpos := h.pos_lt
    refine ⟨q₂, w₂, .inr ⟨?_, hstatus, cs', pos + got.length, ?_, ?_, hundone, hstate, hbody, ?_, htoCome', hshort, ?_⟩⟩
    · rw [closeSlice, Eff.obj_bind, if_neg (by rw [hundone]; exact Bool.false_ne_true)]
      rfl
    · rw [hgot, List.length_take, List.length_drop, PARSE_BYTE_SLICE]
      omega
    · rw [hq₂, hq₁]
      exact h.counted
    · rw [hq₂, hq₁]
      rfl
    · have hle := encodeChunks_length_le hsuffix
      rw [List.length_append]
      omega

/-! ### The run -/

/-- Calls of `processBodySlice` until one returns true, `n` at most. -/
def processSlices (sys : Sys) : Nat → Method Request Bool
  | 0 => return false
  | n + 1 => do if ← processBodySlice sys then return true else processSlices sys n

theorem processSlices_encoded (hs : sys.NoFail) (h : Slicing q w content total rest cs pos) :
    ∃ n q' w', processSlices sys n (q, w) = (.ok true, q', w') ∧ Finished q q' w' total := by
  induction hleft : content.length - pos using Nat.strong_induction_on generalizing q w cs pos with
  | _ left ih =>
    obtain ⟨q₁, w₁, hlast | ⟨hmore, hstatus, cs₁, pos₁, hpos, hnext⟩⟩ := processBodySlice_encoded hs h
    · refine ⟨1, q₁, w₁, ?_, hlast.2⟩
      rw [processSlices, Eff.bind_ok hlast.1]
      rfl
    · have hlt := hnext.pos_lt
      obtain ⟨n, q', w', hrun, hfin⟩ := ih _ (by omega) hnext rfl
      refine ⟨n + 1, q', w', ?_, hfin.state, hfin.status.trans hstatus, hfin.body, hfin.position, hfin.header⟩
      rw [processSlices, Eff.bind_ok hmore]
      exact hrun

/-- What the decoder starts from. -/
def decoderState (r : Request) : DataStore × Bytes × Bool × Nat :=
  (r.decodedBody, r.chunkBuffer, r.isBodyProcessed, r.maxBodySize)

theorem decoderState_parseRequestLine (line : Bytes) (r : Request) :
    decoderState (parseRequestLine line r) = decoderState r := by
  have hquery (r : Request) : decoderState r.extractQueryFromURL = decoderState r := by
    unfold extractQueryFromURL
    split <;> rfl
  unfold parseRequestLine
  split
  · rfl
  simp only
  split
  · rfl
  split
  · split
    · rfl
    · exact hquery _
  · split
    · rfl
    split
    · rfl
    · exact hquery _

theorem decoderState_parseLines (lines : List Bytes) (firstLine : Bool) (r : Request) :
    decoderState (parseLines lines firstLine r) = decoderState r := by
  induction lines generalizing firstLine r with
  | nil => rfl
  | cons line lines ih =>
    rw [parseLines]
    split_ifs
    · exact ih firstLine r
    · rw [ih, decoderState_parseRequestLine]
    · rw [ih]
      unfold parseHeaderLine
      split
      · rfl
      simp only
      split <;> rfl

theorem decoderState_typeOfReq (r : Request) : decoderState r.typeOfReq = decoderState r := by
  unfold typeOfReq
  simp only
  split_ifs <;> rfl

theorem decoderState_parseBlock (block : Bytes) (r : Request) : decoderState (parseBlock block r) = decoderState r := by
  have hlines := decoderState_parseLines (headerLines block) true { r with cookies := ∅ }
  unfold parseBlock
  simp only
  split_ifs <;> split <;> first | exact hlines | exact (decoderState_typeOfReq _).trans hlines

/-- A chunked request has no length. -/
theorem contentLength_parseBlock {block : Bytes} {r : Request} (h : (parseBlock block r).reqState = .REQ_CHUNKED) :
    (parseBlock block r).contentLength = -1 := by
  have htype (r : Request) : r.typeOfReq.reqState = .REQ_CHUNKED → r.typeOfReq.contentLength = -1 := by
    unfold typeOfReq
    simp only
    split_ifs <;> simp [fail]
  revert h
  unfold parseBlock
  simp only
  split_ifs with hread <;> split <;> intro h
  · exact htype _ h
  · exact htype _ h
  · exact absurd ((not_not.1 hread).symm.trans h) (by decide)
  · exact absurd ((not_not.1 hread).symm.trans h) (by decide)

/-- `content` can be read from the start, in whatever pieces. -/
def ReadsBack (sys : Sys) (d : DataStore) (w : World) (content : Bytes) : Prop :=
  ∀ sizes : List Nat, ∃ d' w', DataStore.readAll sys sizes (d, w) = (.ok (content.take sizes.sum), d', w')

/-- Some number of slices ends with true and no error, and the body is then `total`. -/
def DecodesTo (sys : Sys) (q : Request) (w : World) (total : Bytes) : Prop :=
  ∃ n q' w', processSlices sys n (q, w) = (.ok true, q', w') ∧ q'.reqState = .REQ_CHUNKED ∧
    q'.statusCode = q.statusCode ∧ ReadsBack sys q'.body w' total ∧
    q'.getHeader (ascii "content-length") = decimal total.length

/-- The decoder undoes the chunked coding. -/
theorem decode_encode (hs : sys.NoFail) {limit n : Nat} {raw : Bytes} {d : DataStore} {cs : List Connection.Chunk}
    (hhead : parseHeaders raw { maxBodySize := limit } = (n, q)) (hq : q.reqState = .REQ_CHUNKED)
    (hd : d.Holds w (Connection.encodeChunks cs ++ rest)) (hstart : d = d.seekTo 0)
    (hfit : limit = 0 ∨ (payload cs).length ≤ limit)
    (hlen : (Connection.encodeChunks cs ++ rest.take (PARSE_BYTE_SLICE - 1)).length < 2 ^ 63) :
    DecodesTo sys { q with body := d } w (payload cs) := by
  unfold parseHeaders at hhead
  split at hhead
  · cases hhead
    cases hq
  rename_i e _
  cases hhead
  obtain ⟨q, hblock⟩ : ∃ q, q = parseBlock (raw.take e) { maxBodySize := limit } := ⟨_, rfl⟩
  have hcounted : q.contentLength = -1 := hblock ▸ contentLength_parseBlock hq
  have hstate : decoderState q = decoderState { maxBodySize := limit } := hblock ▸ decoderState_parseBlock ..
  rw [← hblock] at hq ⊢
  obtain ⟨hdecoded, hstate⟩ := Prod.mk.inj hstate
  obtain ⟨hbuf, hstate⟩ := Prod.mk.inj hstate
  obtain ⟨hundone, hlimit⟩ := Prod.mk.inj hstate
  have hslicing : Slicing { q with body := d } w (Connection.encodeChunks cs ++ rest) (payload cs) rest cs 0 := by
    refine ⟨by rw [hcounted]; decide, hundone, hq, hd, hstart, ⟨?_, ?_, by rwa [hlimit]⟩, ?_, hlen⟩
    · rw [hbuf]
      rfl
    · exact ⟨[], by rw [hdecoded]; exact DataStore.holds_new w, rfl⟩
    · rw [hbuf, Connection.encodeChunks, List.length_append]
      exact Nat.lt_add_left _ (show 0 < 5 by decide)
  obtain ⟨n, q', w', hrun, hfin⟩ := processSlices_encoded hs hslicing
  refine ⟨n, q', w', hrun, hfin.state, hfin.status, fun sizes => ?_, hfin.header⟩
  obtain ⟨d', w'', hread⟩ := DataStore.readAll_seekTo hs hfin.body 0 sizes
  rw [← hfin.position] at hread
  exact ⟨d', w'', hread⟩

/-- A store with the encoding of one chunk that starts with an empty line, and more. -/
def crlfBody : DataStore where
  dataBuffer := Connection.encodeChunks [Connection.crlfChunk] ++ ascii "GET /"
  currentSize := 32

theorem decode_encode_crlf_chunk :
    DecodesTo Sys.calm { (parseHeaders Connection.chunkedHead {}).2 with body := crlfBody } {}
      (payload [Connection.crlfChunk]) := by
  have hd : crlfBody.Holds {} (Connection.encodeChunks [Connection.crlfChunk] ++ ascii "GET /") :=
    ⟨by decide, fun _ => ⟨rfl, rfl, rfl⟩, (nomatch ·)⟩
  have hhead : parseHeaders Connection.chunkedHead {} =
      ((parseHeaders Connection.chunkedHead {}).1, (parseHeaders Connection.chunkedHead {}).2) := rfl
  exact decode_encode Sys.calm_noFail hhead (by decide) hd rfl (.inl rfl) (by decide)

end Request

end LeftHookRoll
