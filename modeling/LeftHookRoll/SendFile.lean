import LeftHookRoll.ResponseHeaders
import LeftHookRoll.SendStream

/-!
# Sending a static file

`FileSending` says how far a response with an open file is sent: what the descriptor will still deliver
and what is left in the stream buffer make up the rest of the file. `FileSending.step` is one call of
`sendSlice`, `serveFile_streams` any number of them from `serveFile` on.
-/

namespace LeftHookRoll

open Eff

/-- No `read` of a served file fails. -/
def Sys.Reads (sys : Sys) : Prop := ∀ t n, ∃ k, sys.readFile t n = some k

theorem Sys.calm_reads : Sys.calm.Reads := fun _ n => ⟨n, rfl⟩

/-- A system on which every path names a file of these bytes. -/
def Sys.holding (data : Bytes) : Sys :=
  { Sys.calm with stat := fun _ _ => some ⟨.regular, data.length⟩, openRead := fun _ _ => some data }

namespace Response

variable {sys : Sys} {fd : Nat} {hdr file rest unsent : Bytes} {r : Response} {w : World}

/-- What is left in the stream buffer. -/
inductive Unsent (r : Response) : Bytes → Prop
  | none (hbuf : r.streamBufLen = 0) : Unsent r []
  | some (hlen : r.streamBufLen = r.streamBuf.length) (hlt : r.streamBufSent < r.streamBuf.length) :
      Unsent r (r.streamBuf.drop r.streamBufSent)

/-- How far the response is sent: `r` and the bytes on the wire. -/
inductive FileProgress (hdr file : Bytes) (r : Response) : Bytes → Prop
  | head (n : Nat) (hstate : r.responseState = .SENDING_RES_HEAD) (hbuf : r.streamBufLen = 0)
      (hfile : r.fileFd = some file) (hn : n < hdr.length) : FileProgress hdr file r (hdr.take n)
  | body (m : Nat) {rest unsent : Bytes} (hstate : r.responseState = .SENDING_BODY_STATIC) (hfile : r.fileFd = some rest)
      (hunsent : Unsent r unsent) (hsplit : file.drop m = unsent ++ rest) (hm : m < file.length) :
      FileProgress hdr file r (hdr ++ file.take m)
  /-- The file is closed. -/
  | done (hfile : r.fileFd = none) : FileProgress hdr file r (hdr ++ file)

/-- What does not change while the file is sent; `sent` is on the wire, after what was there before. -/
structure FileSending (fd : Nat) (before hdr file : Bytes) (r : Response) (w : World) (sent : Bytes) : Prop where
  header : r.headerBuffer = hdr
  chunk : r.writeBufferSize = RESPONSE_SEND_CHUNK
  size : r.fileSize = file.length
  sigpipe : w.sigpipe = false
  progress : FileProgress hdr file r sent
  outbox : w.outbox fd = before ++ sent
  total : r.totalBytesSent = sent.length

/-- What one call does that is made when `sent` is on the wire. -/
structure FileStepped (fd : Nat) (before hdr file sent x : Bytes) (fin : Bool) (r' : Response) (w' : World) : Prop where
  sending : FileSending fd before hdr file r' w' (sent ++ x)
  ne_nil : x ≠ []
  fin_iff : fin = true ↔ sent ++ x = hdr ++ file
  closed_iff : fin = true ↔ r'.fileFd = none

theorem refillFromFile_eq (hr : sys.Reads) (hchunk : r.writeBufferSize = RESPONSE_SEND_CHUNK) (hrest : rest ≠ []) :
    ∃ got, got ≠ [] ∧ got <+: rest ∧ refillFromFile sys rest (r, w) =
      (.ok true, fillStreamBuf got { r with fileFd := some (rest.drop got.length) }, { w with tick := w.tick + 1 }) := by
  obtain ⟨k, hk⟩ := hr w.tick RESPONSE_SEND_CHUNK
  have hpos := chunk_pos
  obtain ⟨m, hm⟩ : ∃ m, min (k + 1) RESPONSE_SEND_CHUNK = m + 1 := ⟨min (k + 1) RESPONSE_SEND_CHUNK - 1, by omega⟩
  obtain ⟨b, tail, rfl⟩ := List.exists_cons_of_ne_nil hrest
  refine ⟨(b :: tail).take (m + 1), by simp, List.take_prefix _ _, ?_⟩
  have hread : sysRead sys (b :: tail) r.writeBufferSize (r, w) =
      (.ok (some ((b :: tail).take (m + 1))), r, { w with tick := w.tick + 1 }) := by
    simp [sysRead, hchunk, hk, hm]
  rw [refillFromFile, Eff.obj_bind, Eff.bind_ok hread]
  rfl

/-- The end of `_sendBodyFile`: send from the stream buffer, and close the file after its last byte. -/
def sendFileBuf (sys : Sys) (fd : Nat) : Method Response Bool := do
  if ← sendStreamBuf sys fd "sending response body file chunk" then
    let r ← obj
    if r.totalBytesSent - r.headerBuffer.length ≥ r.fileSize then
      closeFile
      return true
    else return false
  else
    closeFile
    return true

theorem sendBodyFile_eq (sys : Sys) (fd : Nat) (rest : Bytes) : sendBodyFile sys fd rest = (do
    throwIfSigpipe "sending response body file chunk"
    let more ← if (← obj).streamBufLen = 0 then refillFromFile sys rest else pure true
    if more then sendFileBuf sys fd
    else
      closeFile
      return true) := rfl

theorem Unsent.streamed {x : Bytes} {k : Nat} (h : Unsent r unsent) (hx : x = unsent.take (k + 1)) (hk : k < unsent.length) :
    Unsent (streamed (k + 1) r) (unsent.drop (k + 1)) := by
  cases h with
  | none hbuf => exact absurd hk (Nat.not_lt_zero k)
  | some hlen hlt =>
    rw [List.length_drop] at hk
    by_cases hend : r.streamBufSent + (k + 1) = r.streamBuf.length
    · rw [List.drop_drop, List.drop_of_length_le hend.ge]
      refine .none ?_
      simp [Response.streamed, hlen, hend]
    · rw [List.drop_drop]
      refine .some ?_ (show r.streamBufSent + (k + 1) < r.streamBuf.length by omega)
      simp [Response.streamed, hlen, hend]

/-- One call in the body, when the stream buffer holds unsent bytes. -/
theorem sendFileBuf_step {before : Bytes} {m : Nat} (ha : sys.TakesSome) (hstate : r.responseState = .SENDING_BODY_STATIC)
    (hfile : r.fileFd = some rest) (hunsent : Unsent r unsent) (hne : unsent ≠ []) (hsplit : file.drop m = unsent ++ rest)
    (hm : m < file.length) (h : FileSending fd before hdr file r w (hdr ++ file.take m)) :
    ∃ x fin r' w', sendFileBuf sys fd (r, w) = (.ok fin, r', w') ∧
      FileStepped fd before hdr file (hdr ++ file.take m) x fin r' w' := by
  have hbuf : r.streamBufLen = r.streamBuf.length ∧ r.streamBufSent < r.streamBuf.length ∧
      unsent = r.streamBuf.drop r.streamBufSent := by
    cases hunsent with
    | none => exact absurd rfl hne
    | some hlen hlt => exact ⟨hlen, hlt, rfl⟩
  obtain ⟨hlen, hlt, hun⟩ := hbuf
  obtain ⟨k, hk, -, hsend⟩ := sendStreamBuf_eq ha fd h.sigpipe "sending response body file chunk" hlen hlt
  rw [← List.length_drop, ← hun] at hk
  rw [← hun] at hsend
  obtain ⟨x, hx⟩ : ∃ x, x = unsent.take (k + 1) := ⟨_, rfl⟩
  have hxlen : x.length = k + 1 := by
    rw [hx, List.length_take_of_le hk]
  rw [← hx] at hsend
  have hlength := congrArg List.length hsplit
  rw [List.length_drop, List.length_append] at hlength
  have htake : file.take m ++ x = file.take (m + (k + 1)) := by
    rw [List.take_add, hsplit, List.take_append_of_le_length hk, hx]
  have hout : hdr ++ file.take m ++ x = hdr ++ file.take (m + (k + 1)) := by rw [List.append_assoc, htake]
  have htotal : (streamed (k + 1) r).totalBytesSent = (hdr ++ file.take m ++ x).length := by
    rw [List.length_append, hxlen, ← h.total]
    rfl
  have hrun : sendFileBuf sys fd (r, w) = (if m + (k + 1) ≥ file.length then (do closeFile; return true) else pure false)
      (streamed (k + 1) r, w.accept fd unsent.length x) := by
    rw [sendFileBuf, Eff.bind_ok hsend]
    simp only [if_true, Eff.obj_bind]
    rw [htotal, show (streamed (k + 1) r).headerBuffer = hdr from h.header,
      show (streamed (k + 1) r).fileSize = file.length from h.size, hout, List.length_append, Nat.add_sub_cancel_left,
      List.length_take_of_le (show m + (k + 1) ≤ file.length by omega)]
  have hkept (f : Option Bytes) (hprogress : FileProgress hdr file { streamed (k + 1) r with fileFd := f } (hdr ++ file.take m ++ x)) :
      FileSending fd before hdr file { streamed (k + 1) r with fileFd := f } (w.accept fd unsent.length x) (hdr ++ file.take m ++ x) :=
    ⟨h.header, h.chunk, h.size, h.sigpipe, hprogress, by rw [World.accept_outbox, h.outbox, List.append_assoc], htotal⟩
  have hxne : x ≠ [] := List.ne_nil_of_length_pos (by omega)
  rw [hrun]
  by_cases hend : m + (k + 1) ≥ file.length
  · rw [if_pos hend]
    have hall : hdr ++ file.take m ++ x = hdr ++ file := by rw [hout, List.take_of_length_le hend]
    refine ⟨x, true, _, _, rfl, hkept none ?_, hxne, iff_of_true rfl hall, iff_of_true rfl rfl⟩
    rw [hall]
    exact .done rfl
  · rw [if_neg hend]
    have hsame : { streamed (k + 1) r with fileFd := some rest } = streamed (k + 1) r := by
      rw [← hfile]
      rfl
    have hkept' := hkept (some rest)
    rw [hsame] at hkept'
    refine ⟨x, false, _, _, rfl, hkept' ?_, hxne, ?_, ?_⟩
    · rw [hout]
      refine .body _ hstate hfile (hunsent.streamed hx hk) ?_ (by omega)
      rw [← List.drop_drop, hsplit, List.drop_append_of_le_length hk]
    · refine iff_of_false (by nofun) fun heq => hend ?_
      have := congrArg List.length heq
      rw [hout, List.length_append, List.length_append, List.length_take] at this
      omega
    · refine iff_of_false (by nofun) fun hnone => ?_
      exact nomatch hfile.symm.trans hnone

/-- One call in the body of a file that has bytes left. -/
theorem sendBodyFile_step {before : Bytes} {m : Nat} (hr : sys.Reads) (ha : sys.TakesSome)
    (hstate : r.responseState = .SENDING_BODY_STATIC) (hfile : r.fileFd = some rest) (hunsent : Unsent r unsent)
    (hsplit : file.drop m = unsent ++ rest) (hm : m < file.length)
    (h : FileSending fd before hdr file r w (hdr ++ file.take m)) :
    ∃ x fin r' w', sendBodyFile sys fd rest (r, w) = (.ok fin, r', w') ∧
      FileStepped fd before hdr file (hdr ++ file.take m) x fin r' w' := by
  rw [sendBodyFile_eq, Eff.bind_ok (throwIfSigpipe_eq h.sigpipe _), Eff.obj_bind]
  cases hunsent with
  | none hbuf =>
    have hrest : rest ≠ [] := by
      rintro rfl
      have := congrArg List.length hsplit
      rw [List.length_drop, List.length_append, List.length_nil] at this
      omega
    obtain ⟨got, hgot, ⟨more, rfl⟩, hfill⟩ := refillFromFile_eq (w := w) hr h.chunk hrest
    rw [List.drop_left] at hfill
    rw [if_pos hbuf, Eff.bind_ok hfill]
    have hun : Unsent (fillStreamBuf got { r with fileFd := some more }) (got.drop 0) :=
      .some rfl (List.length_pos_iff.2 hgot)
    rw [List.drop_zero] at hun
    exact sendFileBuf_step ha hstate rfl hun hgot hsplit hm
      ⟨h.header, h.chunk, h.size, h.sigpipe, .body m hstate rfl hun hsplit hm, h.outbox, h.total⟩
  | some hlen hlt =>
    have hfull : r.streamBufLen ≠ 0 := by omega
    have hne : r.streamBuf.drop r.streamBufSent ≠ [] := by
      rw [← List.length_pos_iff, List.length_drop]
      omega
    rw [if_neg hfull, Eff.pure_bind_apply]
    exact sendFileBuf_step ha hstate hfile (.some hlen hlt) hne hsplit hm h

/-- An empty file is closed by the call that ends the header block. -/
theorem sendBodyFile_empty (hr : sys.Reads) (hchunk : r.writeBufferSize = RESPONSE_SEND_CHUNK) (hsig : w.sigpipe = false)
    (hbuf : r.streamBufLen = 0) : sendBodyFile sys fd [] (r, w) =
      (.ok true, { r with fileFd := none }, { w with tick := w.tick + 1 }) := by
  obtain ⟨k, hk⟩ := hr w.tick RESPONSE_SEND_CHUNK
  have hread : sysRead sys [] r.writeBufferSize (r, w) = (.ok (some []), r, { w with tick := w.tick + 1 }) := by
    simp [sysRead, hchunk, hk]
  have hrefill : refillFromFile sys [] (r, w) = (.ok false, r, { w with tick := w.tick + 1 }) := by
    rw [refillFromFile, Eff.obj_bind, Eff.bind_ok hread]
    rfl
  rw [sendBodyFile_eq, Eff.bind_ok (throwIfSigpipe_eq hsig _), Eff.obj_bind, if_pos hbuf, Eff.bind_ok hrefill]
  rfl

theorem FileStepped.after_head {before x y : Bytes} {fin : Bool} {n : Nat} (hx : hdr.take n ++ x = hdr)
    (h : FileStepped fd before hdr file hdr y fin r w) : FileStepped fd before hdr file (hdr.take n) (x ++ y) fin r w := by
  have hsent : hdr.take n ++ (x ++ y) = hdr ++ y := by rw [← List.append_assoc, hx]
  exact ⟨by rw [hsent]; exact h.sending, by simp [h.ne_nil], by rw [hsent]; exact h.fin_iff, h.closed_iff⟩

/-- One call, as long as the file is open. -/
theorem FileSending.step {before sent : Bytes} (hr : sys.Reads) (ha : sys.TakesSome)
    (h : FileSending fd before hdr file r w sent) (hopen : r.fileFd ≠ none) :
    ∃ x fin r' w', sendSlice sys fd (r, w) = (.ok fin, r', w') ∧ FileStepped fd before hdr file sent x fin r' w' := by
  have hprogress := h.progress
  cases hprogress with
  | done hfile => exact absurd hfile hopen
  | @body m rest unsent hstate hfile hunsent hsplit hm =>
    have hcall : sendSlice sys fd (r, w) = sendBodyFile sys fd rest (r, w) := by
      simp only [sendSlice, Eff.obj_bind, hstate, sendBodyStatic, hfile]
    rw [hcall]
    exact sendBodyFile_step hr ha hstate hfile hunsent hsplit hm h
  | head n hstate hbuf hfile hn =>
    obtain ⟨x, k, hne, hle, hx, hcall⟩ := sendHeader_eq (w := w) fd ha h.header h.chunk h.sigpipe hn
      (h.total.trans (List.length_take_of_le hn.le))
    have hsx : hdr.take n ++ x = hdr.take (n + x.length) := by rw [List.take_add, ← hx]
    have hslice : sendSlice sys fd (r, w) = sendHeader sys fd (r, w) := by simp only [sendSlice, Eff.obj_bind, hstate]
    have htotal : (countSent x.length r).totalBytesSent = (hdr.take n ++ x).length := by
      rw [List.length_append, ← h.total]
      rfl
    have hout : (w.accept fd k x).outbox fd = before ++ (hdr.take n ++ x) := by
      rw [World.accept_outbox, h.outbox, List.append_assoc]
    rw [hslice, hcall]
    by_cases hmore : n + x.length < hdr.length
    · rw [if_pos hmore]
      refine ⟨x, false, _, _, rfl, ⟨h.header, h.chunk, h.size, h.sigpipe, ?_, hout, htotal⟩, hne, ?_, ?_⟩
      · rw [hsx]
        exact .head _ hstate hbuf hfile hmore
      · refine iff_of_false (by rintro ⟨⟩) fun heq => ?_
        have := congrArg List.length heq
        rw [hsx, List.length_take, List.length_append] at this
        omega
      · exact iff_of_false (by rintro ⟨⟩) hopen
    have hhdr : hdr.take n ++ x = hdr := by
      rw [hsx, List.take_of_length_le (by omega)]
    rw [if_neg hmore, if_neg (fun hnone => hopen hnone.2), Eff.modObj_bind]
    rw [hhdr] at htotal hout
    have hbody : sendBodyStatic sys fd (startBody (countSent x.length r), w.accept fd k x) =
        sendBodyFile sys fd file (startBody (countSent x.length r), w.accept fd k x) := by
      rw [sendBodyStatic, Eff.obj_bind, show (startBody (countSent x.length r)).fileFd = some file from hfile]
    rw [hbody]
    by_cases hempty : file = []
    · subst hempty
      rw [sendBodyFile_empty (r := startBody (countSent x.length r)) (w := w.accept fd k x) hr h.chunk h.sigpipe hbuf]
      refine ⟨x, true, _, _, rfl, ⟨h.header, h.chunk, h.size, h.sigpipe, ?_, ?_, ?_⟩, hne, ?_, iff_of_true rfl rfl⟩
      · have hdone : FileProgress hdr [] { startBody (countSent x.length r) with fileFd := none } (hdr ++ []) := .done rfl
        rw [hhdr]
        rwa [List.append_nil] at hdone
      · rw [hhdr]
        exact hout
      · rw [hhdr]
        exact htotal
      · exact iff_of_true rfl (by rw [hhdr, List.append_nil])
    · have hpos := List.length_pos_iff.2 hempty
      have hunsent : Unsent (startBody (countSent x.length r)) [] := .none hbuf
      have hstart : FileSending fd before hdr file (startBody (countSent x.length r)) (w.accept fd k x) (hdr ++ file.take 0) := by
        refine ⟨h.header, h.chunk, h.size, h.sigpipe, .body 0 rfl hfile hunsent rfl hpos, ?_, ?_⟩
        · rw [hout, List.take_zero, List.append_nil]
        · rw [List.take_zero, List.append_nil]
          exact htotal
      obtain ⟨y, fin, r', w', hrun, hstep⟩ := sendBodyFile_step (r := startBody (countSent x.length r)) hr ha rfl hfile hunsent rfl
        hpos hstart
      rw [List.take_zero, List.append_nil] at hstep
      exact ⟨x ++ y, fin, r', w', hrun, hstep.after_head hhdr⟩

/-- Any number of calls. -/
theorem FileSending.run {before : Bytes} (hr : sys.Reads) (ha : sys.TakesSome) (h : FileSending fd before hdr file r w [])
    (hopen : r.fileFd ≠ none) (hhdr : hdr ≠ []) (n : Nat) :
    ∃ sent fin r' w', sendSlices sys fd n (r, w) = (.ok fin, r', w') ∧ FileSending fd before hdr file r' w' sent ∧
      (fin = true ↔ sent = hdr ++ file) ∧ (fin = true ↔ r'.fileFd = none) ∧ (fin = false → n ≤ sent.length) := by
  induction n with
  | zero =>
    refine ⟨[], false, r, w, rfl, h, iff_of_false (by rintro ⟨⟩) ?_, iff_of_false (by rintro ⟨⟩) hopen, fun _ => le_refl _⟩
    intro heq
    exact hhdr (List.append_eq_nil_iff.1 heq.symm).1
  | succ n ih =>
    obtain ⟨sent, fin, r', w', hrun, hsending, hfin, hclosed, hlong⟩ := ih
    rcases fin with _ | _
    · obtain ⟨x, fin, r'', w'', hcall, hstep⟩ := hsending.step hr ha fun hnone => by cases hclosed.2 hnone
      refine ⟨sent ++ x, fin, r'', w'', ?_, hstep.sending, hstep.fin_iff, hstep.closed_iff, fun _ => ?_⟩
      · rw [sendSlices, Eff.bind_ok hrun]
        exact hcall
      · have := hlong rfl
        have := List.length_pos_iff.2 hstep.ne_nil
        rw [List.length_append]
        omega
    · refine ⟨sent, true, r', w', ?_, hsending, hfin, hclosed, (by intros; contradiction)⟩
      rw [sendSlices, Eff.bind_ok hrun]
      rfl

theorem FileSending.isPrefix {before sent : Bytes} (h : FileSending fd before hdr file r w sent) : sent <+: hdr ++ file := by
  have hprogress := h.progress
  cases hprogress with
  | head n => exact (List.take_prefix _ _).trans (List.prefix_append _ _)
  | body m => exact (List.prefix_append_right_inj hdr).2 (List.take_prefix _ _)
  | done => exact List.prefix_rfl

/-- The response that `serveFile` leaves. -/
def served (sys : Sys) (path content : Bytes) (size : Nat) (now : Nat) (r : Response) : Response :=
  startHead (dated (sys.httpDate now) (addHeader (ascii "Content-Length") (decimal size)
    (addHeader (ascii "Content-Type") (detectContentType path) { r with
      fileFd := some content, fileSize := size, streamBufLen := 0, streamBufSent := 0
      statusCode := ascii "200", responsePhrase := ascii "OK" })))

theorem serveFile_run {path content : Bytes} {st : FileStat} (hstat : sys.stat w.tick (cstr path) = some st)
    (hopen : sys.openRead (w.tick + 1) (cstr path) = some content) (config : ServerConf) :
    serveFile sys path config (r, w) = (.ok (), served sys path content st.size w.now r,
      { w with tick := w.tick + 2, calls := .openRead (cstr path) :: .stat (cstr path) :: w.calls }) := by
  have hstat' : sysStat sys path (r, w) =
      (.ok (some st), r, { w with tick := w.tick + 1, calls := .stat (cstr path) :: w.calls }) := by
    rw [← hstat]
    rfl
  have hopen' : sysOpenRead sys path (r, { w with tick := w.tick + 1, calls := .stat (cstr path) :: w.calls }) =
      (.ok (some content), r, { w with
        tick := w.tick + 2, calls := .openRead (cstr path) :: .stat (cstr path) :: w.calls }) := by
    rw [← hopen]
    rfl
  rw [serveFile, Eff.bind_ok hstat']
  simp only
  rw [Eff.bind_ok hopen']
  rfl

theorem served_sending {path content : Bytes} {size : Nat} (hsize : size = content.length)
    (hchunk : r.writeBufferSize = RESPONSE_SEND_CHUNK) (hunsent : r.totalBytesSent = 0) (hsig : w.sigpipe = false)
    (now : Nat) (hdr : Bytes) (hhdr : hdr = (served sys path content size now r).headerBuffer) :
    FileSending fd (w.outbox fd) hdr content (served sys path content size now r) w [] ∧
      (served sys path content size now r).fileFd = some content ∧ hdr ≠ [] := by
  obtain ⟨r₁, hr₁⟩ : ∃ r₁, r₁ = dated (sys.httpDate now) (addHeader (ascii "Content-Length") (decimal size)
    (addHeader (ascii "Content-Type") (detectContentType path) { r with
      fileFd := some content, fileSize := size, streamBufLen := 0, streamBufSent := 0
      statusCode := ascii "200", responsePhrase := ascii "OK" })) := ⟨_, rfl⟩
  have hserved : served sys path content size now r = startHead r₁ := by rw [served, hr₁]
  have hsame : SameButHeaders { r with
      fileFd := some content, fileSize := size, streamBufLen := 0, streamBufSent := 0
      statusCode := ascii "200", responsePhrase := ascii "OK" } r₁ := by
    rw [hr₁]
    exact ((sameButHeaders_addHeader _ _ _).trans (sameButHeaders_addHeader _ _ _)).trans (sameButHeaders_dated _ _)
  rw [SameButHeaders] at hsame
  have hfile : (startHead r₁).fileFd = some content := by rw [hsame]; rfl
  have hhdr' : hdr = r₁.generateHeaderString := by rw [hhdr, hserved]; rfl
  have hne : hdr ≠ [] := by rw [hhdr']; exact generateHeaderString_ne_nil r₁
  rw [hserved]
  refine ⟨⟨hhdr'.symm, ?_, ?_, hsig, ?_, (List.append_nil _).symm, ?_⟩, hfile, hne⟩
  · rw [hsame]
    exact hchunk
  · rw [hsame]
    exact hsize
  · rw [← List.take_zero (l := hdr)]
    refine .head 0 rfl ?_ hfile (List.length_pos_iff.2 hne)
    rw [hsame]
    rfl
  · rw [hsame]
    exact hunsent

/-- After `serveFile`, however the socket takes the bytes: at every moment it has got a prefix of header
block and file; the call that returns true is the one that completes them, and with it, not before, the
file is closed; no more calls are needed than there are bytes. -/
theorem serveFile_streams (hr : sys.Reads) (ha : sys.Accepts) (path : Bytes) (config : ServerConf) {kind : FileKind}
    (hstat : sys.stat w.tick (cstr path) = some ⟨kind, file.length⟩)
    (hopen : sys.openRead (w.tick + 1) (cstr path) = some file) (hchunk : r.writeBufferSize = RESPONSE_SEND_CHUNK)
    (hunsent : r.totalBytesSent = 0) (hsig : w.sigpipe = false) :
    ∃ r₀ w₀, serveFile sys path config (r, w) = (.ok (), r₀, w₀) ∧ r₀.fileFd ≠ none ∧
      ∀ n, ∃ fin r' w' sent, sendSlices sys fd n (r₀, w₀) = (.ok fin, r', w') ∧
        w'.outbox fd = w₀.outbox fd ++ sent ∧ sent <+: r₀.headerBuffer ++ file ∧
        (fin = true ↔ sent = r₀.headerBuffer ++ file) ∧ (fin = true ↔ r'.fileFd = none) ∧
        ((r₀.headerBuffer ++ file).length ≤ n → fin = true) := by
  obtain ⟨r₀, hr₀⟩ : ∃ r₀, r₀ = served sys path file file.length w.now r := ⟨_, rfl⟩
  obtain ⟨w₀, hw₀⟩ : ∃ w₀ : World, w₀ = { w with
      tick := w.tick + 2, calls := .openRead (cstr path) :: .stat (cstr path) :: w.calls } := ⟨_, rfl⟩
  have hserved : FileSending fd (w₀.outbox fd) r₀.headerBuffer file r₀ w₀ [] ∧ r₀.fileFd = some file ∧
      r₀.headerBuffer ≠ [] := by
    rw [hr₀]
    exact served_sending rfl hchunk hunsent (by rw [hw₀]; exact hsig) w.now _ rfl
  obtain ⟨hsending, hfile, hne⟩ := hserved
  have hstart : r₀.fileFd ≠ none := by rw [hfile]; nofun
  refine ⟨r₀, w₀, ?_, hstart, fun n => ?_⟩
  · rw [serveFile_run hstat hopen, hr₀, hw₀]
  · obtain ⟨sent, fin, r', w', hrun, hafter, hfin, hclosed, hlong⟩ := hsending.run hr ha.takesSome hstart hne n
    refine ⟨fin, r', w', sent, hrun, hafter.outbox, hafter.isPrefix, hfin, hclosed, fun hn => ?_⟩
    rcases fin with _ | _
    · -- with this many bytes out nothing is missing
      refine hfin.2 (hafter.isPrefix.eq_of_length ?_)
      have := hlong rfl
      have := hafter.isPrefix.length_le
      omega
    · rfl

/-- Two bytes. -/
theorem serveFile_streams_two : ∃ r₀ w₀,
    serveFile (Sys.holding [1, 2]) (ascii "/a") {} ({}, {}) = (.ok (), r₀, w₀) ∧ r₀.fileFd ≠ none ∧
      ∀ n, ∃ fin r' w' sent, sendSlices (Sys.holding [1, 2]) 4 n (r₀, w₀) = (.ok fin, r', w') ∧
        w'.outbox 4 = w₀.outbox 4 ++ sent ∧ sent <+: r₀.headerBuffer ++ [1, 2] ∧
        (fin = true ↔ sent = r₀.headerBuffer ++ [1, 2]) ∧ (fin = true ↔ r'.fileFd = none) ∧
        ((r₀.headerBuffer ++ [1, 2]).length ≤ n → fin = true) :=
  serveFile_streams (fun _ n => ⟨n, rfl⟩) (fun _ n => ⟨n, id, rfl⟩) (ascii "/a") {} rfl rfl rfl rfl rfl

end Response

end LeftHookRoll
