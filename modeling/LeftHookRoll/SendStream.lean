import LeftHookRoll.SendSlice
import LeftHookRoll.DataStoreSpec

/-!
# What the socket gets from `sendSlice`

`Sending` says how far a response is sent: in the header block, in a RAM body, or in some copy of the
first block of a file-backed body, which the rewind before each refill makes the only block ever
read. `Sending.step` is one call and `sendSlices_run` any number of them; `sendSlice_streams_iff` says
for which bodies the bytes on the socket are the response.
-/

namespace LeftHookRoll

open Eff

/-- Every `send` takes at least one byte of what it is offered. -/
def Sys.Accepts (sys : Sys) : Prop := ∀ t n, ∃ k, (0 < n → 0 < k) ∧ sys.send t n = .sent k

/-- Every `send` of some bytes takes at least one. -/
def Sys.TakesSome (sys : Sys) : Prop := ∀ t n, 0 < n → ∃ k, 0 < k ∧ sys.send t n = .sent k

theorem Sys.Accepts.takesSome {sys : Sys} (h : sys.Accepts) : sys.TakesSome := by
  intro t n hn
  obtain ⟨k, hk, hsend⟩ := h t n
  exact ⟨k, hk hn, hsend⟩

/-- Every `send` takes all it is offered. -/
def Sys.SendsAll (sys : Sys) : Prop := ∀ t n, sys.send t n = .sent n

theorem Sys.SendsAll.accepts {sys : Sys} (h : sys.SendsAll) : sys.Accepts :=
  fun t n => ⟨n, id, h t n⟩

theorem Sys.calm_sendsAll : Sys.calm.SendsAll := fun _ _ => rfl

/-- The world after the socket took `data` of the `n` bytes it was offered. -/
def World.accept (w : World) (fd n : Nat) (data : Bytes) : World :=
  { w with
    tick := w.tick + 1
    outbox := Function.update w.outbox fd (w.outbox fd ++ data)
    sends := (w.tick, n) :: w.sends }

@[simp] theorem World.accept_outbox (w : World) (fd n : Nat) (data : Bytes) :
    (w.accept fd n data).outbox fd = w.outbox fd ++ data := by
  simp [World.accept]

namespace Response

variable {sys : Sys} {fd : Nat} {hdr body : Bytes} {r : Response} {w : World}

theorem sysSend_eq {σ : Type} {s : σ} (hs : sys.TakesSome) (fd : Nat) {data : Bytes}
    (hne : data ≠ []) :
    ∃ k, k < data.length ∧ (sys.SendsAll → k + 1 = data.length) ∧
      sysSend sys fd data (s, w) = (.ok (some (k + 1)), s, w.accept fd data.length (data.take (k + 1))) := by
  have hpos := List.length_pos_iff.2 hne
  obtain ⟨k, hk, hsend⟩ := hs w.tick data.length hpos
  have hmin : min k data.length - 1 + 1 = min k data.length := by omega
  refine ⟨min k data.length - 1, by omega, fun hall => ?_, ?_⟩
  · have := hall w.tick data.length
    rw [hsend] at this
    cases this
    omega
  · simp [sysSend, hsend, World.accept, hmin]

/-- What does not change while a response is sent. -/
structure Loaded (hdr body : Bytes) (r : Response) (w : World) : Prop where
  header : r.headerBuffer = hdr
  holds : r.responseDataStore.Holds w body
  noFile : r.fileFd = none
  chunk : r.writeBufferSize = RESPONSE_SEND_CHUNK
  sigpipe : w.sigpipe = false

/-- `n` copies of the first block of a body. -/
def copies (body : Bytes) (n : Nat) : Bytes :=
  (List.replicate n (body.take RESPONSE_SEND_CHUNK)).flatten

theorem copies_succ (body : Bytes) (n : Nat) :
    copies body (n + 1) = copies body n ++ body.take RESPONSE_SEND_CHUNK := by
  rw [copies, copies, List.replicate_succ', List.flatten_append, List.flatten_singleton]

theorem length_copies (body : Bytes) (n : Nat) :
    (copies body n).length = n * (body.take RESPONSE_SEND_CHUNK).length := by
  rw [copies, List.length_flatten, List.map_replicate, List.sum_replicate_nat]

/-- The stream buffer holds the first block of a file-backed body, of which `n` bytes are sent. -/
structure InBlock (body : Bytes) (r : Response) (n : Nat) : Prop where
  state : r.responseState = .SENDING_BODY_STATIC
  mode : r.responseDataStore.mode = .FILE_MODE
  buf : r.streamBuf = body.take RESPONSE_SEND_CHUNK
  len : r.streamBufLen = r.streamBuf.length
  sent : r.streamBufSent = n
  lt : n < r.streamBuf.length

theorem copies_mono (body : Bytes) {m n : Nat} (h : m ≤ n) : copies body m <+: copies body n := by
  induction h with
  | refl => exact List.prefix_rfl
  | step _ ih => exact ih.trans (copies_succ body _ ▸ List.prefix_append _ _)

/-- How far the response is sent: `r` and the bytes that are on the wire. -/
inductive Progress (hdr body : Bytes) (r : Response) : Bytes → Prop
  | head (n : Nat) (hstate : r.responseState = .SENDING_RES_HEAD) (hbuf : r.streamBufLen = 0)
      (hn : n ≤ hdr.length) (hbody : body ≠ [] → n < hdr.length) : Progress hdr body r (hdr.take n)
  | ram (n : Nat) (hstate : r.responseState = .SENDING_BODY_STATIC)
      (hmode : r.responseDataStore.mode = .RAM) (hn : n ≤ body.length) :
      Progress hdr body r (hdr ++ body.take n)
  /-- The stream buffer is empty, after whole copies of the first block. -/
  | refill (q : Nat) (hstate : r.responseState = .SENDING_BODY_STATIC)
      (hmode : r.responseDataStore.mode = .FILE_MODE) (hbody : body ≠ []) (hbuf : r.streamBufLen = 0) :
      Progress hdr body r (hdr ++ copies body q)
  | block (q n : Nat) (h : InBlock body r n) :
      Progress hdr body r (hdr ++ copies body q ++ (body.take RESPONSE_SEND_CHUNK).take n)

/-- The response is on its way: `sent` is on the wire. -/
structure Sending (fd : Nat) (hdr body : Bytes) (r : Response) (w : World) (sent : Bytes) : Prop
    extends Loaded hdr body r w where
  progress : Progress hdr body r sent
  outbox : w.outbox fd = sent
  total : r.totalBytesSent = sent.length

/-- From a file-backed body a call sends no further than the end of the block it is in. -/
structure WithinBlock (sys : Sys) (hdr body sent x : Bytes) : Prop where
  bound : ∀ m > 0, sent.length < (hdr ++ copies body m).length →
    (sent ++ x).length ≤ (hdr ++ copies body m).length
  whole : sys.SendsAll → hdr.length ≤ (sent ++ x).length → ∃ q, sent ++ x = hdr ++ copies body q

/-- What one call does that is made when `sent` is on the wire, for a store in the given mode. -/
structure Stepped (sys : Sys) (fd : Nat) (hdr body : Bytes) (mode : BufferMode) (sent x : Bytes)
    (fin : Bool) (r' : Response) (w' : World) : Prop where
  sending : Sending fd hdr body r' w' (sent ++ x)
  ne_nil : x ≠ []
  fin_iff : fin = true ↔ (sent ++ x).length = hdr.length + body.length
  mode_eq : r'.responseDataStore.mode = mode
  withinBlock : mode = .FILE_MODE → WithinBlock sys hdr body sent x

theorem sendStreamBuf_eq (ha : sys.TakesSome) (fd : Nat) (hsig : w.sigpipe = false) (context : String)
    (hlen : r.streamBufLen = r.streamBuf.length) (hlt : r.streamBufSent < r.streamBuf.length) :
    ∃ k, k < r.streamBuf.length - r.streamBufSent ∧
      (sys.SendsAll → k + 1 = r.streamBuf.length - r.streamBufSent) ∧
      sendStreamBuf sys fd context (r, w) = (.ok true, streamed (k + 1) r,
        w.accept fd (r.streamBuf.drop r.streamBufSent).length ((r.streamBuf.drop r.streamBufSent).take (k + 1))) := by
  have hsub : substr r.streamBuf r.streamBufSent (r.streamBufLen - r.streamBufSent) =
      r.streamBuf.drop r.streamBufSent := by
    rw [substr, hlen, ← List.length_drop, List.take_length]
  have hne : r.streamBuf.drop r.streamBufSent ≠ [] := by
    rw [← List.length_pos_iff, List.length_drop]; omega
  obtain ⟨k, hk, hall, hsend⟩ := sysSend_eq (s := r) (w := w) ha fd hne
  rw [List.length_drop] at hk hall
  refine ⟨k, hk, hall, ?_⟩
  simp only [sendStreamBuf, Eff.obj_bind, hsub]
  rw [Eff.bind_ok hsend, Eff.bind_ok (throwIfSigpipe_eq (by exact hsig) context)]
  rfl

/-- The response with its store read up to `pos`. -/
def storeAt (r : Response) (pos : Nat) : Response :=
  { r with responseDataStore := r.responseDataStore.seekTo pos }

theorem Loaded.storeAt (h : Loaded hdr body r w) (pos t : Nat) :
    Loaded hdr body (storeAt r pos) { w with tick := t } :=
  ⟨h.header, h.holds.seekTo (by exact subset_rfl) pos, h.noFile, h.chunk, h.sigpipe⟩

theorem Loaded.tick (h : Loaded hdr body r w) (t : Nat) : Loaded hdr body r { w with tick := t } :=
  ⟨h.header, h.holds.mono (by exact subset_rfl), h.noFile, h.chunk, h.sigpipe⟩

theorem Loaded.accept (h : Loaded hdr body r w) (fd n : Nat) (x : Bytes) :
    Loaded hdr body r (w.accept fd n x) :=
  ⟨h.header, h.holds.mono (by exact subset_rfl), h.noFile, h.chunk, h.sigpipe⟩

theorem Loaded.countSent (h : Loaded hdr body r w) (n : Nat) : Loaded hdr body (countSent n r) w :=
  ⟨h.header, h.holds, h.noFile, h.chunk, h.sigpipe⟩

theorem Loaded.startBody (h : Loaded hdr body r w) : Loaded hdr body (startBody r) w :=
  ⟨h.header, h.holds, h.noFile, h.chunk, h.sigpipe⟩

theorem Loaded.fill (h : Loaded hdr body r w) (got : Bytes) :
    Loaded hdr body (fillStreamBuf got r) w :=
  ⟨h.header, h.holds, h.noFile, h.chunk, h.sigpipe⟩

theorem rewind_eq (hs : sys.NoFail) (h : Loaded hdr body r w) :
    ∃ t, onStore (DataStore.resetReadPosition sys) (r, w) =
      (.ok (), storeAt r 0, { w with tick := t }) := by
  obtain ⟨t, ht⟩ := DataStore.resetReadPosition_eq hs h.holds
  exact ⟨t, onStore_eq ht⟩

/-- A refill after the rewind gives the first block. -/
theorem refillFromStore_eq (hs : sys.NoFail) (h : Loaded hdr body r w) (hbody : body ≠ []) :
    ∃ p t, refillFromStore sys (storeAt r 0, w) = (.ok true,
      fillStreamBuf (body.take RESPONSE_SEND_CHUNK) (storeAt r p), { w with tick := t }) := by
  obtain ⟨t, ht⟩ := DataStore.read_seekTo (w := w) hs h.holds 0 RESPONSE_SEND_CHUNK
  rw [List.drop_zero] at ht
  obtain ⟨b, got, hgot⟩ : ∃ b got, body.take RESPONSE_SEND_CHUNK = b :: got :=
    List.exists_cons_of_ne_nil (by simp [hbody, chunk_pos.ne'])
  refine ⟨0 + (body.take RESPONSE_SEND_CHUNK).length, t, ?_⟩
  simp only [refillFromStore, Eff.obj_bind, show (storeAt r 0).writeBufferSize = _ from h.chunk]
  rw [Eff.bind_ok (onStore_eq (by exact ht)), hgot]
  rfl

theorem Loaded.streamed (h : Loaded hdr body r w) (fd m n : Nat) (x : Bytes) :
    Loaded hdr body (streamed n r) (w.accept fd m x) :=
  ⟨h.header, h.holds.mono (by exact subset_rfl), h.noFile, h.chunk, h.sigpipe⟩

/-- Bytes of the block go out: it is not yet at its end, or the buffer is empty again. -/
theorem InBlock.streamed {n : Nat} (hb : InBlock body r n) (hdr : Bytes) (q : Nat) {m : Nat}
    (hm : n + m ≤ r.streamBuf.length) : Progress hdr body (streamed m r)
      (hdr ++ copies body q ++ (body.take RESPONSE_SEND_CHUNK).take (n + m)) := by
  by_cases hend : n + m = r.streamBuf.length
  · have hbody : body ≠ [] := by
      rintro rfl
      have := hb.lt
      simp [hb.buf] at this
    rw [hend, ← hb.buf, List.take_length, hb.buf, List.append_assoc, ← copies_succ]
    exact .refill (q + 1) hb.state hb.mode hbody (by simp [Response.streamed, hb.sent, hb.len, hend])
  · refine .block q (n + m) ⟨hb.state, hb.mode, hb.buf, ?_, ?_, by exact Nat.lt_of_le_of_ne hm hend⟩
    · simp [Response.streamed, hb.sent, hb.len, hend]
    · simp [Response.streamed, hb.sent]

theorem InBlock.withinBlock {n : Nat} (hb : InBlock body r n) (sys : Sys) (hdr : Bytes) (q : Nat)
    {m : Nat} (hm : n + m ≤ r.streamBuf.length) (hall : sys.SendsAll → n + m = r.streamBuf.length) :
    WithinBlock sys hdr body (hdr ++ copies body q ++ (body.take RESPONSE_SEND_CHUNK).take n)
      (((body.take RESPONSE_SEND_CHUNK).drop n).take m) := by
  have hsx : hdr ++ copies body q ++ (body.take RESPONSE_SEND_CHUNK).take n ++
      ((body.take RESPONSE_SEND_CHUNK).drop n).take m =
      hdr ++ copies body q ++ (body.take RESPONSE_SEND_CHUNK).take (n + m) := by
    rw [List.append_assoc, ← List.take_add]
  rw [hb.buf] at hm hall
  have hlt := hb.lt
  rw [hb.buf] at hlt
  refine ⟨fun p _ hp => ?_, fun hs _ => ⟨q + 1, ?_⟩⟩
  · rw [hsx]
    simp only [List.length_append, length_copies, List.length_take_of_le hm,
      List.length_take_of_le hlt.le] at hp ⊢
    have hqp : q < p := Nat.lt_of_mul_lt_mul_right (a := (body.take RESPONSE_SEND_CHUNK).length) (by omega)
    have := Nat.mul_le_mul_right (body.take RESPONSE_SEND_CHUNK).length hqp
    rw [Nat.succ_mul] at this
    omega
  · rw [hsx, hall hs, List.take_length, copies_succ, List.append_assoc]

/-- One call when the stream buffer holds unsent bytes of the first block. -/
theorem send_block (ha : sys.TakesSome) (h : Loaded hdr body r w) {q n : Nat} (hb : InBlock body r n)
    {sent : Bytes} (hsent : sent = hdr ++ copies body q ++ (body.take RESPONSE_SEND_CHUNK).take n)
    (hout : w.outbox fd = sent) (htot : r.totalBytesSent = sent.length) :
    ∃ x fin r' w', sendStored sys fd (r, w) = (.ok fin, r', w') ∧
      Stepped sys fd hdr body .FILE_MODE sent x fin r' w' := by
  obtain ⟨k, hk, hall, hsend⟩ := sendStreamBuf_eq ha fd h.sigpipe
    "sending response body datastore chunk" hb.len (hb.sent ▸ hb.lt)
  rw [hb.sent] at hk hall
  rw [hb.sent, hb.buf] at hsend
  obtain ⟨x, hx⟩ : ∃ x, x = ((body.take RESPONSE_SEND_CHUNK).drop n).take (k + 1) := ⟨_, rfl⟩
  have hlen : x.length = k + 1 := by
    rw [hx, List.length_take_of_le]
    rw [List.length_drop, ← hb.buf]
    omega
  rw [← hx] at hsend
  have hcall : sendStored sys fd (r, w) =
      (.ok (decide (r.totalBytesSent + (k + 1) = r.headerBuffer.length + r.responseDataStore.getSize)),
        streamed (k + 1) r, w.accept fd ((body.take RESPONSE_SEND_CHUNK).drop n).length x) := by
    simp only [sendStored]
    rw [Eff.bind_ok hsend]
    rfl
  have htotal : r.totalBytesSent + (k + 1) = (sent ++ x).length := by
    rw [List.length_append, hlen, htot]
  refine ⟨x, _, _, _, hcall, ⟨⟨h.streamed fd _ (k + 1) x, ?_, ?_, htotal⟩, ?_, ?_, hb.mode, fun _ => ?_⟩⟩
  · rw [hsent, hx, List.append_assoc, ← List.take_add]
    exact hb.streamed hdr q (by omega)
  · rw [World.accept_outbox, hout]
  · exact List.ne_nil_of_length_pos (by omega)
  · rw [decide_eq_true_iff, htotal, h.header, DataStore.getSize, h.holds.size]
  · rw [hsent, hx]
    exact hb.withinBlock sys hdr q (by omega) fun hs => by have := hall hs; omega

/-- One call in a RAM body. -/
theorem send_ram (ha : sys.TakesSome) (h : Loaded hdr body r w)
    (hstate : r.responseState = .SENDING_BODY_STATIC) (hmode : r.responseDataStore.mode = .RAM)
    {n : Nat} (hn : n < body.length) {sent : Bytes} (hsent : sent = hdr ++ body.take n)
    (hout : w.outbox fd = sent) (htot : r.totalBytesSent = sent.length) :
    ∃ x fin r' w', sendBodyRam sys fd (r, w) = (.ok fin, r', w') ∧
      Stepped sys fd hdr body .RAM sent x fin r' w' := by
  have hoff : r.totalBytesSent - r.headerBuffer.length = n := by
    rw [htot, hsent, h.header, List.length_append, List.length_take_of_le hn.le]
    omega
  have hsize : r.responseDataStore.getSize = body.length := h.holds.size
  have hpos := chunk_pos
  obtain ⟨m, hm⟩ : ∃ m, m = min (body.length - n) RESPONSE_SEND_CHUNK := ⟨_, rfl⟩
  have hlen : (substr body n m).length = m := by
    rw [substr, List.length_take_of_le]
    rw [List.length_drop]
    omega
  obtain ⟨k, hk, -, hsend⟩ := sysSend_eq (s := r) (w := w) ha fd
    (show substr body n m ≠ [] from List.ne_nil_of_length_pos (by omega))
  obtain ⟨x, hx⟩ : ∃ x, x = (body.drop n).take (k + 1) := ⟨_, rfl⟩
  have hxlen : x.length = k + 1 := by
    rw [hx, List.length_take_of_le]
    rw [List.length_drop]
    omega
  have hcut : (substr body n m).take (k + 1) = x := by
    rw [hx, substr, List.take_take, min_eq_left (by omega)]
  rw [hcut] at hsend
  have hcall : sendBodyRam sys fd (r, w) =
      (.ok (decide (r.totalBytesSent + (k + 1) = r.headerBuffer.length + body.length)),
        countSent (k + 1) r, w.accept fd (substr body n m).length x) := by
    simp only [sendBodyRam, Eff.obj_bind, hoff, hsize, if_neg (show body.length - n ≠ 0 by omega),
      h.chunk, ← hm, (h.holds.ram hmode).1]
    rw [Eff.bind_ok hsend, Eff.bind_ok (throwIfSigpipe_eq (by exact h.sigpipe) _)]
    rfl
  have htotal : r.totalBytesSent + (k + 1) = (sent ++ x).length := by
    rw [List.length_append, hxlen, htot]
  refine ⟨x, _, _, _, hcall, ⟨⟨⟨h.header, h.holds.mono (by exact subset_rfl), h.noFile, h.chunk,
    h.sigpipe⟩, ?_, ?_, htotal⟩, ?_, ?_, hmode, fun hf => nomatch hf⟩⟩
  · rw [hsent, hx, List.append_assoc, ← List.take_add]
    exact .ram (n + (k + 1)) hstate hmode (by omega)
  · rw [World.accept_outbox, hout]
  · exact List.ne_nil_of_length_pos (by omega)
  · rw [decide_eq_true_iff, htotal, h.header]

/-- One call once the header block is out. -/
theorem sendBodyStatic_step (hs : sys.NoFail) (ha : sys.TakesSome) {sent : Bytes}
    (h : Sending fd hdr body r w sent) (hstate : r.responseState = .SENDING_BODY_STATIC)
    (hne : sent.length ≠ hdr.length + body.length) :
    ∃ x fin r' w', sendBodyStatic sys fd (r, w) = (.ok fin, r', w') ∧
      Stepped sys fd hdr body r.responseDataStore.mode sent x fin r' w' := by
  obtain ⟨t, hrewind⟩ := rewind_eq hs h.toLoaded
  have hl := h.toLoaded.storeAt 0 t
  have hcall : sendBodyStatic sys fd (r, w) = sendBodyDataStore sys fd (storeAt r 0, { w with tick := t }) := by
    simp only [sendBodyStatic, Eff.obj_bind, h.noFile]
    rw [Eff.bind_ok hrewind]
  have hdata : sendBodyDataStore sys fd (storeAt r 0, { w with tick := t }) = _ :=
    Eff.bind_ok (throwIfSigpipe_eq hl.sigpipe "sending response body datastore chunk")
  rw [hcall, hdata]
  simp only [Eff.obj_bind, DataStore.getMode]
  obtain ⟨hload, hprog, hout, htot⟩ := h
  cases hprog with
  | head n hs' => rw [hstate] at hs'; cases hs'
  | ram n _ hmode hn =>
    have hlt : n < body.length := by
      rw [List.length_append, List.length_take_of_le hn] at hne
      omega
    rw [if_pos (by exact hmode), hmode]
    exact send_ram ha hl hstate hmode hlt rfl hout htot
  | refill q _ hmode hbody hbuf =>
    obtain ⟨p, t', hfill⟩ := refillFromStore_eq (w := { w with tick := t }) hs (hload.tick t) hbody
    have hb : InBlock body (fillStreamBuf (body.take RESPONSE_SEND_CHUNK) (storeAt r p)) 0 :=
      ⟨hstate, hmode, rfl, rfl, rfl, by
        simp [fillStreamBuf, hbody, chunk_pos, List.length_pos_iff]⟩
    rw [if_neg (by simp [storeAt, hmode]), Eff.obj_bind, if_pos (by exact hbuf), Eff.bind_ok hfill, if_pos rfl, hmode]
    exact send_block ha ((hload.storeAt p t').fill _) (q := q) hb (by simp) hout htot
  | block q n hb =>
    have hlen : (storeAt r 0).streamBufLen ≠ 0 := by
      have := hb.lt
      rw [show (storeAt r 0).streamBufLen = r.streamBufLen from rfl, hb.len]
      omega
    rw [if_neg (by simp [storeAt, hb.mode]), Eff.obj_bind, if_neg hlen, Eff.pure_bind_apply, if_pos rfl, hb.mode]
    exact send_block ha hl ⟨hb.state, hb.mode, hb.buf, hb.len, hb.sent, hb.lt⟩ rfl hout htot

/-- Up to the end of the header block nothing of a body is out. -/
theorem withinBlock_head (sys : Sys) (hdr body : Bytes) {n m : Nat} (hn : n ≤ m) (hm : m ≤ hdr.length) :
    WithinBlock sys hdr body (hdr.take n) ((hdr.drop n).take (m - n)) := by
  have hsx : hdr.take n ++ (hdr.drop n).take (m - n) = hdr.take m := by
    rw [← List.take_add, Nat.add_sub_cancel' hn]
  refine ⟨fun p _ _ => ?_, fun _ hle => ⟨0, ?_⟩⟩
  · rw [hsx, List.length_append]
    exact (List.length_take_le' _ _).trans (Nat.le_add_right _ _)
  · rw [hsx] at hle ⊢
    rw [List.length_take_of_le hm] at hle
    rw [List.take_of_length_le hle, copies, List.replicate_zero, List.flatten_nil, List.append_nil]

/-- The call that ends the header block goes on with the body. -/
theorem Stepped.after_head {mode : BufferMode} {n : Nat} {x : Bytes} {fin : Bool}
    (hbody : body ≠ []) (h : Stepped sys fd hdr body mode hdr x fin r w) :
    Stepped sys fd hdr body mode (hdr.take n) (hdr.drop n ++ x) fin r w := by
  have hsx : hdr.take n ++ (hdr.drop n ++ x) = hdr ++ x := by
    rw [← List.append_assoc, List.take_append_drop]
  refine ⟨by rw [hsx]; exact h.sending, by simp [h.ne_nil], by rw [hsx]; exact h.fin_iff, h.mode_eq,
    fun hf => ⟨fun m hm _ => ?_, fun hs hle => ?_⟩⟩
  · rw [hsx]
    refine (h.withinBlock hf).bound m hm ?_
    have hL : 0 < (body.take RESPONSE_SEND_CHUNK).length := by
      simp [List.length_pos_iff, hbody, chunk_pos]
    rw [List.length_append, length_copies]
    have := Nat.mul_pos hm hL
    omega
  · rw [hsx] at hle ⊢
    exact (h.withinBlock hf).whole hs hle

/-- The slice of the header block that a call sends first. -/
theorem sendHeader_eq (fd : Nat) (ha : sys.TakesSome) (hheader : r.headerBuffer = hdr) (hchunk : r.writeBufferSize = RESPONSE_SEND_CHUNK)
    (hsig : w.sigpipe = false) {n : Nat} (hn : n < hdr.length) (htot : r.totalBytesSent = n) :
    ∃ x m, x ≠ [] ∧ n + x.length ≤ hdr.length ∧ x = (hdr.drop n).take x.length ∧ sendHeader sys fd (r, w) =
      (if n + x.length < hdr.length then pure false
      else if r.responseDataStore.getSize = 0 ∧ r.fileFd = none then pure true
      else do
        modObj startBody
        sendBodyStatic sys fd) (countSent x.length r, w.accept fd m x) := by
  have hpos := chunk_pos
  obtain ⟨m, hm⟩ : ∃ m, m = min (hdr.length - n) RESPONSE_SEND_CHUNK := ⟨_, rfl⟩
  have hslice : (substr hdr n m).length = m := by
    rw [substr, List.length_take_of_le]
    rw [List.length_drop]
    omega
  obtain ⟨k, hk, -, hsend⟩ := sysSend_eq (s := r) (w := w) ha fd
    (show substr hdr n m ≠ [] from List.ne_nil_of_length_pos (by omega))
  obtain ⟨x, hx⟩ : ∃ x, x = (hdr.drop n).take (k + 1) := ⟨_, rfl⟩
  have hcut : (substr hdr n m).take (k + 1) = x := by
    rw [hx, substr, List.take_take, min_eq_left (by omega)]
  have hxlen : x.length = k + 1 := by
    rw [hx, List.length_take_of_le]
    rw [List.length_drop]
    omega
  rw [hcut] at hsend
  refine ⟨x, (substr hdr n m).length, List.ne_nil_of_length_pos (by omega), by omega, by rw [hxlen]; exact hx, ?_⟩
  simp only [sendHeader]
  rw [Eff.bind_ok (throwIfSigpipe_eq hsig _), Eff.obj_bind]
  simp only [hheader, hchunk, htot, ← hm]
  rw [Eff.bind_ok hsend, Eff.bind_ok (throwIfSigpipe_eq (by exact hsig) _)]
  simp only [Eff.modObj_bind, Eff.obj_bind, ← hxlen]
  rw [show (countSent x.length r).totalBytesSent = n + x.length by rw [countSent, htot]]
  rfl

/-- One call while bytes of the header block are left. -/
theorem sendHeader_step (hs : sys.NoFail) (ha : sys.TakesSome) (h : Loaded hdr body r w)
    (hstate : r.responseState = .SENDING_RES_HEAD) (hbuf : r.streamBufLen = 0) {n : Nat}
    (hn : n < hdr.length) (hout : w.outbox fd = hdr.take n) (htot : r.totalBytesSent = n) :
    ∃ x fin r' w', sendHeader sys fd (r, w) = (.ok fin, r', w') ∧
      Stepped sys fd hdr body r.responseDataStore.mode (hdr.take n) x fin r' w' := by
  obtain ⟨x, m, hne, hle, hx, hcall⟩ := sendHeader_eq fd ha h.header h.chunk h.sigpipe hn htot
  have hsx : hdr.take n ++ x = hdr.take (n + x.length) := by rw [List.take_add, ← hx]
  have hwithin := withinBlock_head sys hdr body (n := n) (m := n + x.length) (by omega) hle
  rw [Nat.add_sub_cancel_left, ← hx] at hwithin
  have hl := (h.accept fd m x).countSent x.length
  have hout' : (w.accept fd m x).outbox fd = hdr.take (n + x.length) := by
    rw [World.accept_outbox, hout, hsx]
  have htot' : (countSent x.length r).totalBytesSent = (hdr.take (n + x.length)).length := by
    rw [List.length_take_of_le hle, ← htot]
    rfl
  rw [hcall, show r.responseDataStore.getSize = body.length from h.holds.size]
  by_cases hmore : n + x.length < hdr.length
  · rw [if_pos hmore]
    refine ⟨x, false, _, _, rfl, ⟨⟨hl, ?_, ?_, ?_⟩, hne, ?_, rfl, fun _ => hwithin⟩⟩
    · rw [hsx]
      exact .head _ hstate hbuf hmore.le fun _ => hmore
    · rw [hout', hsx]
    · rw [htot', hsx]
    · rw [hsx, List.length_take_of_le hmore.le]
      simp only [Bool.false_eq_true, false_iff]
      omega
  rw [if_neg hmore]
  have hend : n + x.length = hdr.length := by omega
  rw [hend, List.take_length] at hsx hout' htot'
  rcases eq_or_ne body [] with rfl | hbody
  · rw [if_pos ⟨rfl, h.noFile⟩]
    refine ⟨x, true, _, _, rfl, ⟨⟨hl, ?_, ?_, ?_⟩, hne, ?_, rfl, fun _ => hwithin⟩⟩
    · rw [hsx]
      conv => arg 4; rw [← List.take_length (l := hdr)]
      exact .head _ hstate hbuf le_rfl fun hb => absurd rfl hb
    · rw [hout', hsx]
    · rw [htot', hsx]
    · rw [hsx]
      simp
  · rw [if_neg (by simp [hbody]), Eff.modObj_bind]
    have hsending : Sending fd hdr body (startBody (countSent x.length r)) (w.accept fd m x) hdr := by
      refine ⟨hl.startBody, ?_, hout', htot'⟩
      rcases r.responseDataStore.mode_cases with hm | hm
      · have hram : Progress hdr body (startBody (countSent x.length r)) _ := .ram 0 rfl hm (Nat.zero_le _)
        simpa using hram
      · have hrefill : Progress hdr body (startBody (countSent x.length r)) _ :=
          .refill 0 rfl hm hbody hbuf
        simpa [copies] using hrefill
    obtain ⟨y, fin, r', w', hc, hstep⟩ := sendBodyStatic_step hs ha hsending rfl (by
      have := List.length_pos_iff.2 hbody
      omega)
    exact ⟨hdr.drop n ++ y, fin, r', w', hc, hstep.after_head hbody⟩

/-- Every slice that `sendSlice` sends takes the response further. -/
theorem Sending.step (hs : sys.NoFail) (ha : sys.TakesSome) {sent : Bytes}
    (h : Sending fd hdr body r w sent) (hne : sent.length ≠ hdr.length + body.length) :
    ∃ x fin r' w', sendSlice sys fd (r, w) = (.ok fin, r', w') ∧
      Stepped sys fd hdr body r.responseDataStore.mode sent x fin r' w' := by
  by_cases hstate : r.responseState = .SENDING_BODY_STATIC
  · simp only [sendSlice, Eff.obj_bind, hstate]
    exact sendBodyStatic_step hs ha h hstate hne
  obtain ⟨hload, hprog, hout, htot⟩ := h
  cases hprog with
  | ram n hst => exact absurd hst hstate
  | refill q hst => exact absurd hst hstate
  | block q n hb => exact absurd hb.state hstate
  | head n hst hbuf hn hbody =>
    have hsent : (hdr.take n).length = n := List.length_take_of_le hn
    have hlt : n < hdr.length := by
      rcases eq_or_ne body [] with rfl | hb
      · rw [hsent, List.length_nil] at hne
        omega
      · exact hbody hb
    simp only [sendSlice, Eff.obj_bind, hst]
    exact sendHeader_step hs ha hload hst hbuf hlt hout (htot.trans hsent)

/-! ### Any number of calls -/

/-- `n` calls, but none after one has returned true; whether one has. -/
def sendSlices (sys : Sys) (fd : Nat) : Nat → Method Response Bool
  | 0 => return false
  | n + 1 => do
    if ← sendSlices sys fd n then return true
    else sendSlice sys fd

/-- What holds after any number of calls. -/
structure SentSome (sys : Sys) (fd : Nat) (hdr body : Bytes) (mode : BufferMode) (n : Nat) (fin : Bool)
    (sent : Bytes) (r : Response) (w : World) : Prop where
  sending : Sending fd hdr body r w sent
  mode_eq : r.responseDataStore.mode = mode
  fin_iff : fin = true ↔ sent.length = hdr.length + body.length
  long : fin = false → n ≤ sent.length
  /-- The body is never overrun when it is some copies of its first block. -/
  bound : mode = .FILE_MODE → ∀ m > 0, (copies body m).length = body.length →
    sent.length ≤ hdr.length + body.length
  whole : mode = .FILE_MODE → sys.SendsAll → hdr.length ≤ sent.length →
    ∃ q, sent = hdr ++ copies body q

theorem sendSlices_run (hs : sys.NoFail) (ha : sys.TakesSome) (h : Sending fd hdr body r w [])
    (hhdr : hdr ≠ []) (n : Nat) :
    ∃ sent fin r' w', sendSlices sys fd n (r, w) = (.ok fin, r', w') ∧
      SentSome sys fd hdr body r.responseDataStore.mode n fin sent r' w' := by
  have hpos := List.length_pos_iff.2 hhdr
  induction n with
  | zero =>
    refine ⟨[], false, r, w, rfl, h, rfl, ?_, fun _ => le_rfl, fun _ _ _ _ => Nat.zero_le _,
      fun _ _ hle => absurd hle (by simpa using hhdr)⟩
    rw [List.length_nil]
    simp only [Bool.false_eq_true, false_iff]
    omega
  | succ n ih =>
    obtain ⟨sent, fin, r', w', hrun, hsome⟩ := ih
    cases fin with
    | true =>
      refine ⟨sent, true, r', w', ?_, hsome.sending, hsome.mode_eq, hsome.fin_iff,
        (nomatch ·), hsome.bound, hsome.whole⟩
      simp only [sendSlices]
      rw [Eff.bind_ok hrun]
      rfl
    | false =>
      have hne : sent.length ≠ hdr.length + body.length := fun he => by
        simpa using hsome.fin_iff.2 he
      obtain ⟨x, fin, r'', w'', hcall, hstep⟩ := hsome.sending.step hs ha hne
      rw [hsome.mode_eq] at hstep
      have hx := List.length_pos_iff.2 hstep.ne_nil
      refine ⟨sent ++ x, fin, r'', w'', ?_, hstep.sending, hstep.mode_eq, hstep.fin_iff, fun _ => ?_,
        fun hm m hm0 hlen => ?_, fun hm hsa hle => (hstep.withinBlock hm).whole hsa hle⟩
      · simp only [sendSlices]
        rw [Eff.bind_ok hrun]
        exact hcall
      · have := hsome.long rfl
        rw [List.length_append]
        omega
      · have := hsome.bound hm m hm0 hlen
        have hb := (hstep.withinBlock hm).bound m hm0 (by rw [List.length_append]; omega)
        rwa [show (hdr ++ copies body m).length = _ from List.length_append, hlen] at hb

/-- The body is what the server would send of it: it is in RAM, or the first block is all of it, or
all of it is copies of the first block. -/
def Resendable (body : Bytes) (mode : BufferMode) : Prop :=
  mode = .RAM ∨ ∃ n, body = copies body n

theorem Sending.isPrefix {sent : Bytes} (h : Sending fd hdr body r w sent)
    (hlen : sent.length ≤ hdr.length + body.length)
    (hbody : Resendable body r.responseDataStore.mode) : sent <+: hdr ++ body := by
  cases h.progress with
  | head n => exact (List.take_prefix _ _).trans (List.prefix_append _ _)
  | ram n => exact (List.prefix_append_right_inj hdr).2 (List.take_prefix _ _)
  | refill q _ hmode hne =>
    obtain ⟨n, hn⟩ := hbody.resolve_left (by simp [hmode])
    have hL : 0 < (body.take RESPONSE_SEND_CHUNK).length := by
      simp [List.length_pos_iff, hne, chunk_pos]
    have hbl := congrArg List.length hn
    rw [length_copies] at hbl
    rw [List.length_append, length_copies, hbl] at hlen
    rw [List.prefix_append_right_inj]
    conv => rhs; rw [hn]
    exact copies_mono body (Nat.le_of_mul_le_mul_right (by omega) hL)
  | block q k hb =>
    obtain ⟨n, hn⟩ := hbody.resolve_left (by simp [hb.mode])
    have hk := hb.lt
    rw [hb.buf] at hk
    have hbl := congrArg List.length hn
    rw [length_copies] at hbl
    rw [List.length_append, List.length_append, length_copies, List.length_take_of_le hk.le, hbl] at hlen
    rw [List.append_assoc, List.prefix_append_right_inj]
    conv => rhs; rw [hn]
    rcases Nat.lt_or_ge q n with hqn | hqn
    · -- the block under way is one of the copies
      refine List.IsPrefix.trans ?_ (copies_mono body hqn)
      rw [copies_succ, List.prefix_append_right_inj]
      exact List.take_prefix _ _
    · have := Nat.mul_le_mul_right (body.take RESPONSE_SEND_CHUNK).length hqn
      obtain rfl : k = 0 := by omega
      rw [List.take_zero, List.append_nil]
      exact copies_mono body (Nat.le_of_mul_le_mul_right (by omega) hk)

/-- A response that was built and of which nothing has been sent. -/
structure Ready (fd : Nat) (hdr body : Bytes) (r : Response) (w : World) : Prop
    extends Loaded hdr body r w where
  state : r.responseState = .SENDING_RES_HEAD
  empty : r.streamBufLen = 0
  unsent : r.totalBytesSent = 0
  outbox : w.outbox fd = []

/-- At every moment the socket has a prefix of header block and body, and the call that returns true
is the one that completes them. -/
def Streams (sys : Sys) (fd : Nat) (hdr body : Bytes) (r : Response) (w : World) : Prop :=
  ∀ n, ∃ fin r' w', sendSlices sys fd n (r, w) = (.ok fin, r', w') ∧
    w'.outbox fd <+: hdr ++ body ∧ (0 < n → (fin = true ↔ w'.outbox fd = hdr ++ body))

theorem Ready.sending (h : Ready fd hdr body r w) (hhdr : hdr ≠ []) : Sending fd hdr body r w [] :=
  ⟨h.toLoaded, by
    rw [← List.take_zero (l := hdr)]
    exact .head 0 h.state h.empty (Nat.zero_le _) fun _ => List.length_pos_iff.2 hhdr,
    h.outbox, h.unsent⟩

/-- Without a header block the first call sends nothing and ends the response. -/
theorem Ready.no_header (ha : sys.Accepts) (h : Ready fd [] body r w) (n : Nat) :
    ∃ r' w', sendSlices sys fd (n + 1) (r, w) = (.ok true, r', w') ∧ w'.outbox fd = [] := by
  induction n with
  | zero =>
    obtain ⟨k, -, hsend⟩ := ha w.tick 0
    have hcall : sysSend sys fd [] (r, w) = (.ok (some 0), r, w.accept fd 0 []) := by
      simp [sysSend, hsend, World.accept]
    refine ⟨r, w.accept fd 0 [], ?_, by rw [World.accept_outbox, h.outbox]; rfl⟩
    simp only [sendSlices, Eff.pure_bind_apply, Bool.false_eq_true, if_false, sendSlice, Eff.obj_bind,
      h.state, sendHeader]
    rw [Eff.bind_ok (throwIfSigpipe_eq h.sigpipe _), Eff.obj_bind]
    simp only [h.header, substr, List.drop_nil, List.take_nil]
    rw [Eff.bind_ok hcall, Eff.bind_ok (throwIfSigpipe_eq (by exact h.sigpipe) _)]
    rfl
  | succ n ih =>
    obtain ⟨r', w', hrun, hout⟩ := ih
    refine ⟨r', w', ?_, hout⟩
    rw [sendSlices, Eff.bind_ok hrun]
    rfl

theorem Sending.length_le_of_ram {sent : Bytes} (h : Sending fd hdr body r w sent)
    (hm : r.responseDataStore.mode = .RAM) : sent.length ≤ hdr.length + body.length := by
  cases h.progress with
  | head n => exact (List.length_take_le' _ _).trans (Nat.le_add_right _ _)
  | ram n _ _ hn => rw [List.length_append, List.length_take_of_le hn]; omega
  | refill q _ hf => rw [hm] at hf; cases hf
  | block q n hb => rw [hb.mode] at hm; cases hm

theorem Ready.streams (hs : sys.NoFail) (ha : sys.TakesSome) (h : Ready fd hdr body r w)
    (hhdr : hdr ≠ []) (hbody : Resendable body r.responseDataStore.mode) :
    Streams sys fd hdr body r w := by
  intro n
  obtain ⟨sent, fin, r', w', hrun, hsome⟩ := sendSlices_run hs ha (h.sending hhdr) hhdr n
  have hlen : sent.length ≤ hdr.length + body.length := by
    rcases r.responseDataStore.mode_cases with hm | hm
    · exact hsome.sending.length_le_of_ram (hsome.mode_eq.trans hm)
    · obtain ⟨m, hbm⟩ := hbody.resolve_left (by simp [hm])
      rcases Nat.eq_zero_or_pos m with rfl | hm0
      · obtain rfl : body = [] := hbm
        exact hsome.bound hm 1 one_pos rfl
      · exact hsome.bound hm m hm0 (congrArg List.length hbm).symm
  have hpre := hsome.sending.isPrefix hlen (hsome.mode_eq ▸ hbody)
  refine ⟨fin, r', w', hrun, ?_⟩
  rw [hsome.sending.outbox]
  refine ⟨hpre, fun _ => hsome.fin_iff.trans ⟨fun he => ?_, fun he => ?_⟩⟩
  · exact hpre.eq_of_length (by rw [List.length_append, he])
  · rw [he, List.length_append]

/-- When each send takes all it is offered, whole blocks go out, and the response ends with one. -/
theorem Ready.resendable (hs : sys.NoFail) (ha : sys.SendsAll) (h : Ready fd hdr body r w)
    (hhdr : hdr ≠ []) (hstr : Streams sys fd hdr body r w) :
    Resendable body r.responseDataStore.mode := by
  rcases r.responseDataStore.mode_cases with hm | hm
  · exact .inl hm
  obtain ⟨sent, fin, r', w', hrun, hsome⟩ :=
    sendSlices_run hs ha.accepts.takesSome (h.sending hhdr) hhdr (hdr.length + body.length + 1)
  obtain ⟨fin', r'', w'', hrun', hpre, hfin⟩ := hstr (hdr.length + body.length + 1)
  rw [hrun] at hrun'
  cases hrun'
  rw [hsome.sending.outbox] at hpre hfin
  have hle := hpre.length_le
  rw [List.length_append] at hle
  have hdone : fin = true := by
    rcases hf : fin with _ | _
    · have := hsome.long hf
      omega
    · rfl
  have hlen := hsome.fin_iff.1 hdone
  obtain ⟨q, hq⟩ := hsome.whole hm ha (by omega)
  exact .inr ⟨q, List.append_cancel_left (((hfin (Nat.succ_pos _)).1 hdone).symm.trans hq)⟩

/-- The response goes out as it was built, however the socket takes it, exactly when there is a header
block (or nothing at all) and the body is in RAM or some copies of its first block. -/
theorem sendSlice_streams_iff (h : Ready fd hdr body r w) :
    (∀ sys : Sys, sys.NoFail → sys.Accepts → Streams sys fd hdr body r w) ↔
      (hdr = [] → body = []) ∧ Resendable body r.responseDataStore.mode := by
  rcases eq_or_ne hdr [] with rfl | hhdr
  · constructor
    · intro hall
      obtain ⟨fin, r', w', hrun, -, hfin⟩ := hall _ Sys.calm_noFail Sys.calm_sendsAll.accepts 1
      obtain ⟨r'', w'', hrun', hout⟩ := h.no_header Sys.calm_sendsAll.accepts 0
      rw [hrun] at hrun'
      cases hrun'
      rw [hout] at hfin
      have hnil : body = [] := ((hfin one_pos).1 rfl).symm
      exact ⟨fun _ => hnil, .inr ⟨0, hnil⟩⟩
    · rintro ⟨hnil, -⟩ sys - ha n
      obtain rfl := hnil rfl
      rcases n with _ | n
      · exact ⟨false, r, w, rfl, by rw [h.outbox]; exact List.nil_prefix, fun hn => absurd hn (lt_irrefl 0)⟩
      · obtain ⟨r', w', hrun, hout⟩ := h.no_header ha n
        exact ⟨true, r', w', hrun, by rw [hout]; exact List.nil_prefix, fun _ => by simp [hout]⟩
  · exact ⟨fun hall => ⟨fun hn => absurd hn hhdr,
      h.resendable Sys.calm_noFail Sys.calm_sendsAll hhdr (hall _ Sys.calm_noFail Sys.calm_sendsAll.accepts)⟩,
      fun hb sys hs ha => h.streams hs ha.takesSome hhdr hb.2⟩

/-- A response whose body is in RAM. -/
def ramResponse (hdr body : Bytes) : Response where
  headerBuffer := hdr
  responseDataStore := { dataBuffer := body, currentSize := body.length }

/-- A response whose body is in the temporary file number 0. -/
def fileResponse (hdr body : Bytes) : Response where
  headerBuffer := hdr
  responseDataStore :=
    { mode := .FILE_MODE, currentSize := body.length, fileFd := some body.length, absolutePath := some 0
      file := body }

theorem ready_ramResponse (fd : Nat) (hdr body : Bytes) : Ready fd hdr body (ramResponse hdr body) {} :=
  ⟨⟨rfl, ⟨rfl, fun _ => ⟨rfl, rfl, rfl⟩, fun hf => nomatch hf⟩, rfl, rfl, rfl⟩, rfl, rfl, rfl, rfl⟩

theorem ready_fileResponse (fd : Nat) (hdr body : Bytes) :
    Ready fd hdr body (fileResponse hdr body) { tmp := {0} } :=
  ⟨⟨rfl, ⟨rfl, (nomatch ·), fun _ => ⟨rfl, rfl, ⟨_, rfl⟩, 0, rfl, Finset.mem_singleton_self 0⟩⟩,
    rfl, rfl, rfl⟩, rfl, rfl, rfl, rfl⟩

theorem sendSlice_streams_ram :
    Streams Sys.calm 4 crlf (ascii "hello") (ramResponse crlf (ascii "hello")) {} :=
  (sendSlice_streams_iff (ready_ramResponse 4 crlf (ascii "hello"))).2 ⟨by decide, .inl rfl⟩ Sys.calm
    Sys.calm_noFail Sys.calm_sendsAll.accepts

theorem mem_of_mem_copies {a : UInt8} {n : Nat} (h : a ∈ copies body n) :
    a ∈ body.take RESPONSE_SEND_CHUNK := by
  obtain ⟨l, hl, ha⟩ := List.mem_flatten.1 h
  rwa [List.eq_of_mem_replicate hl] at ha

/-- A body that goes on with a new byte after the first block is not made of copies of it. -/
theorem not_resendable {n : Nat} (hn : RESPONSE_SEND_CHUNK ≤ n) :
    ¬ Resendable (List.replicate n 0 ++ [1]) .FILE_MODE := by
  rintro (h | ⟨m, h⟩)
  · cases h
  have hmem : (1 : UInt8) ∈ List.replicate n 0 ++ [1] := by simp
  rw [h] at hmem
  have htake := mem_of_mem_copies hmem
  rw [List.take_append_of_le_length (by simpa using hn)] at htake
  have := List.eq_of_mem_replicate (List.mem_of_mem_take htake)
  revert this
  decide

/-- One byte more than fits into RAM is enough for the bytes sent not to be the body. -/
theorem sendSlice_streams_fails_past_limit :
    ¬ ∀ sys : Sys, sys.NoFail → sys.Accepts →
      Streams sys 4 crlf (List.replicate BUFFERLIMIT 0 ++ [1])
        (fileResponse crlf (List.replicate BUFFERLIMIT 0 ++ [1])) { tmp := {0} } :=
  fun hall => not_resendable (by decide) ((ready_fileResponse 4 crlf _).resendable Sys.calm_noFail
    Sys.calm_sendsAll (by decide) (hall _ Sys.calm_noFail Sys.calm_sendsAll.accepts))

end Response

end LeftHookRoll
