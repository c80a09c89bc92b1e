import LeftHookRoll.CutOutcome
import LeftHookRoll.HeaderAccept

/-!
# A body with a length

What the store holds when a connection leaves READING, for any system: `SoundStage` is `InStage` with
what is known of a run that returned. The store gets whole segments, so that it holds exactly the body
when a segment ends where the body does (`takes_exactly_iff`).
-/

namespace LeftHookRoll

open Eff

namespace Connection

variable {sys : Sys} {q₀ : Request} {c c' : Connection} {w w' : World}

/-! ### Runs that return -/

/-- Where a connection is after a run that returned. -/
inductive SoundStage (q₀ : Request) (c : Connection) : Stage → Prop
  | header (got : Bytes) (hstate : c.state = .READING) (hbuf : c.readBuffer = got) (hreq : c.request = q₀) :
      SoundStage q₀ c (.header got)
  | tooLarge (hstate : c.state = .WRITING) : SoundStage q₀ c .tooLarge
  | rejected (q : Request) (hstate : c.state = .WRITING) : SoundStage q₀ c (.rejected q)
  | body (q : Request) (data : Bytes) (hstate : c.state = .READING)
      (htype : q.reqState = .REQ_CHUNKED ∨ q.reqState = .REQ_BODY)
      (hreq : c.request = { q with body := c.request.body }) (hbody : c.request.body.Sound data) :
      SoundStage q₀ c (.body q data)
  | ready (q : Request) (data : Bytes) (hstate : c.state = .PROCESSING)
      (hreq : c.request = { q with body := c.request.body }) (hbody : c.request.body.Sound data) :
      SoundStage q₀ c (.ready q data)

theorem append_body_ok {q : Request} {data p : Bytes}
    (h : onBody (DataStore.append sys p) (c, w) = (.ok (), c', w'))
    (hreq : c.request = { q with body := c.request.body }) (hbody : c.request.body.Sound data) :
    ∃ d, c' = withBody q d c ∧ d.Sound (data ++ p) := by
  rw [onBody, onRequest] at h
  obtain ⟨⟨q', w₁⟩, hbodyRun, heq⟩ := Eff.on_eq_ok.1 h
  obtain ⟨⟨d, w₂⟩, happ, heq'⟩ := Eff.on_eq_ok.1 hbodyRun
  cases heq
  cases heq'
  refine ⟨d, ?_, DataStore.append_ok happ hbody⟩
  rw [withBody, hreq]

theorem afterPiece_soundStage {q : Request} {d : DataStore} {data p : Bytes} (hstate : c.state = .READING)
    (htype : q.reqState = .REQ_CHUNKED ∨ q.reqState = .REQ_BODY) (hd : d.Sound (data ++ p)) :
    SoundStage q₀ (afterPiece q d data p c) (Stage.piece q data p) := by
  unfold afterPiece Stage.piece
  split
  · exact .ready q _ rfl rfl hd
  · exact .body q _ hstate htype rfl hd

theorem readChunked_ok {q : Request} {data p : Bytes} (h : readChunked sys p (c, w) = (.ok (), c', w'))
    (htype : q.reqState = .REQ_CHUNKED) (hreq : c.request = { q with body := c.request.body })
    (hbody : c.request.body.Sound data) : ∃ d, c' = afterPiece q d data p c ∧ d.Sound (data ++ p) := by
  obtain ⟨_, ⟨c₁, w₁⟩, happ, h⟩ := Eff.bind_eq_ok.1 h
  obtain ⟨d, rfl, hd⟩ := append_body_ok happ hreq hbody
  refine ⟨d, ?_, hd⟩
  rw [afterPiece, bodyDone_chunked htype]
  split at h
  · rename_i hdone
    cases h
    rw [if_pos hdone]
  · rename_i hdone
    cases h
    rw [if_neg hdone]

theorem readBody_ok {q : Request} {data p : Bytes} (h : readBody sys p (c, w) = (.ok (), c', w'))
    (htype : q.reqState = .REQ_BODY) (hreq : c.request = { q with body := c.request.body })
    (hbody : c.request.body.Sound data) : ∃ d, c' = afterPiece q d data p c ∧ d.Sound (data ++ p) := by
  obtain ⟨_, ⟨c₁, w₁⟩, happ, h⟩ := Eff.bind_eq_ok.1 h
  obtain ⟨d, rfl, hd⟩ := append_body_ok happ hreq hbody
  refine ⟨d, ?_, hd⟩
  rw [afterPiece, bodyDone_body htype, ← hd.size]
  rw [Eff.obj_bind] at h
  split at h
  · rename_i hdone
    cases h
    rw [if_pos (decide_eq_true (by exact hdone))]
  · rename_i hdone
    cases h
    have hshort : ¬ q.contentLength.toNat ≤ d.currentSize := hdone
    rw [if_neg (by simpa using hshort)]

theorem takeLeftover_ok {q : Request} {p : Bytes} (h : takeLeftover sys p (c, w) = (.ok (), c', w'))
    (hq : q.Typed) (htype : q.reqState = .REQ_CHUNKED ∨ q.reqState = .REQ_BODY) (hreq : c.request = q)
    (hbody : q.body.Sound []) : ∃ d, c' = afterPiece q d [] p c ∧ d.Sound p := by
  rw [takeLeftover] at h
  split at h
  · rename_i hp
    have hnot : bodyDone q [] [] = false := by
      rcases htype with ht | ht
      · rw [bodyDone_chunked ht]
        rfl
      · have := hq.length ht
        rw [bodyDone_body ht, decide_eq_false_iff_not, List.length_nil]
        omega
    cases h
    refine ⟨q.body, ?_, hp ▸ hbody⟩
    rw [hp, afterPiece, List.append_nil, hnot, if_neg (by simp), withBody, ← hreq]
  · obtain ⟨_, ⟨c₁, w₁⟩, happ, h⟩ := Eff.bind_eq_ok.1 h
    obtain ⟨d, rfl, hd⟩ := append_body_ok (q := q) happ (by rw [hreq]) (hreq ▸ hbody)
    refine ⟨d, ?_, hd⟩
    rw [Eff.obj_bind] at h
    rw [afterPiece, List.nil_append]
    rcases htype with ht | ht
    · rw [bodyDone_chunked ht]
      by_cases hdone : Request.isChunkedDone p = true
      · rw [if_pos (by exact ⟨ht, hdone⟩)] at h
        cases h
        rw [if_pos hdone]
      · rw [if_neg (by exact fun h' => hdone h'.2), if_neg (by simp [withBody, ht])] at h
        cases h
        rw [if_neg hdone]
    · rw [if_neg (by simp [withBody, ht])] at h
      rw [bodyDone_body ht, show p.length = d.currentSize from hd.size.symm]
      by_cases hdone : q.contentLength.toNat ≤ d.currentSize
      · rw [if_pos (by exact ⟨ht, hdone⟩)] at h
        cases h
        rw [if_pos (decide_eq_true hdone)]
      · rw [if_neg (by exact fun h' => hdone h'.2)] at h
        cases h
        rw [if_neg (by simpa using hdone)]

theorem readHeaders_ok (hq₀ : Unread q₀) {got s : Bytes} (h : readHeaders sys s (c, w) = (.ok (), c', w'))
    (hstate : c.state = .READING) (hbuf : c.readBuffer = got) (hreq : c.request = q₀) :
    SoundStage q₀ c' ((Stage.header got).next q₀ s) := by
  rw [readHeaders, Eff.modObj_bind, Eff.obj_bind] at h
  simp only [hbuf] at h
  rw [Stage.next]
  by_cases hlarge : MAX_HEADER_SIZE < (got ++ s).length
  · rw [if_pos (by exact hlarge)] at h
    rw [if_pos hlarge]
    exact .tooLarge (triggerError_ok h)
  rw [if_neg (by exact hlarge), Eff.obj_bind] at h
  rw [if_neg hlarge]
  rcases hfind : (got ++ s).findSub crlfcrlf with _ | e
  · simp only [Request.parseHeaders, hfind, Eff.modObj_bind, hreq, hq₀.state] at h
    cases h
    exact .header _ hstate rfl rfl
  obtain ⟨hparse, htyped⟩ := Request.parseBlock_spec ((got ++ s).take e)
    (show q₀.reqState ≠ .REQ_ERROR by simp [hq₀.state])
  simp only [Request.parseHeaders, hfind, Eff.modObj_bind, hreq] at h
  simp only [Stage.headersDone]
  obtain ⟨q, hq⟩ : ∃ q, q = Request.parseBlock ((got ++ s).take e) q₀ := ⟨_, rfl⟩
  rw [← hq] at hparse htyped h ⊢
  have hbody : q.body.Sound [] := by
    rw [hparse.body, hq₀.body]
    exact (DataStore.holds_new w).sound
  rcases hstq : q.reqState with _ | _ | _ | _ | _
  · exact absurd hstq htyped.state
  · simp only [hstq] at h
    obtain ⟨d, rfl, hd⟩ := takeLeftover_ok h htyped (.inr hstq) rfl hbody
    exact afterPiece_soundStage hstate (.inr hstq) hd
  · simp only [hstq] at h
    obtain ⟨d, rfl, hd⟩ := takeLeftover_ok h htyped (.inl hstq) rfl hbody
    exact afterPiece_soundStage hstate (.inl hstq) hd
  · simp only [hstq] at h
    cases h
    exact .ready q [] rfl rfl hbody
  · simp only [hstq] at h
    exact .rejected q (triggerError_ok h)

/-- One segment that is received without an exception. -/
theorem SoundStage.handleRead (hq₀ : Unread q₀) {st : Stage} (hst : SoundStage q₀ c st) {s : Bytes}
    (hne : s ≠ []) (h : handleRead sys (some s) (c, w) = (.ok (), c', w')) :
    SoundStage q₀ c' (st.next q₀ s) := by
  have hidle (hstate : c.state ≠ .READING) : c' = c := by
    rw [handleRead_idle hstate] at h
    cases h
    rfl
  cases hst with
  | tooLarge hstate => rw [hidle (by simp [hstate])]; exact .tooLarge hstate
  | rejected q hstate => rw [hidle (by simp [hstate])]; exact .rejected q hstate
  | ready q data hstate hreq hbody => rw [hidle (by simp [hstate])]; exact .ready q data hstate hreq hbody
  | body q data hstate htype hreq hbody =>
    rw [handleRead_reading hstate hne, hreq] at h
    rcases htype with ht | ht
    · simp only [ht] at h
      obtain ⟨d, rfl, hd⟩ := readChunked_ok h ht hreq hbody
      exact afterPiece_soundStage hstate (.inl ht) hd
    · simp only [ht] at h
      obtain ⟨d, rfl, hd⟩ := readBody_ok h ht hreq hbody
      exact afterPiece_soundStage hstate (.inr ht) hd
  | header got hstate hbuf hreq =>
    rw [handleRead_reading hstate hne, hreq, hq₀.state] at h
    exact readHeaders_ok hq₀ h hstate hbuf hreq

theorem SoundStage.handleReads (hq₀ : Unread q₀) {st : Stage} (hst : SoundStage q₀ c st) {segs : List Bytes}
    (hne : ∀ s ∈ segs, s ≠ []) (h : handleReads sys segs (c, w) = (.ok (), c', w')) :
    SoundStage q₀ c' (segs.foldl (Stage.next q₀) st) := by
  induction segs generalizing c w st with
  | nil =>
    cases h
    exact hst
  | cons s segs ih =>
    obtain ⟨_, ⟨c₁, w₁⟩, hread, hrest⟩ := Eff.bind_eq_ok.1 h
    exact ih (hst.handleRead hq₀ (hne s List.mem_cons_self) hread) (fun t ht => hne t (List.mem_cons_of_mem s ht)) hrest

/-! ### How much of the stream is taken -/

theorem fill_add {h n : Nat} (hn : 0 < n) {segs : List Bytes} (hle : h ≤ segs.flatten.length) :
    fill (h + n) segs = h + fill n (bodyPieces h segs) := by
  induction segs generalizing h with
  | nil =>
    rw [List.flatten_nil, List.length_nil] at hle
    rw [Nat.le_zero.1 hle]
    rfl
  | cons s segs ih =>
    rw [List.flatten_cons, List.length_append] at hle
    rw [fill, bodyPieces]
    by_cases hlt : s.length < h
    · rw [if_pos hlt, if_pos (by omega), show h + n - s.length = h - s.length + n by omega, ih (by omega)]
      omega
    · rw [if_neg hlt, fill, List.length_drop]
      by_cases hlt' : s.length < h + n
      · rw [if_pos hlt', if_pos (by omega), show h + n - s.length = n - (s.length - h) by omega]
        omega
      · rw [if_neg hlt', if_neg (by omega)]
        omega

theorem le_fill {h : Nat} {segs : List Bytes} (hle : h ≤ segs.flatten.length) : h ≤ fill h segs := by
  induction segs generalizing h with
  | nil => exact hle
  | cons s segs ih =>
    rw [List.flatten_cons, List.length_append] at hle
    rw [fill]
    split
    · have : h - s.length ≤ fill (h - s.length) segs := ih (by omega)
      omega
    · omega

theorem fill_le (h : Nat) (segs : List Bytes) : fill h segs ≤ segs.flatten.length := by
  induction segs generalizing h with
  | nil => exact Nat.zero_le _
  | cons s segs ih =>
    rw [List.flatten_cons, List.length_append, fill]
    split
    · have := ih (h - s.length)
      omega
    · omega

/-- A body with a length is taken up to the end of the piece in which it is complete. -/
theorem Stage.foldl_body_fill {q : Request} (hq : q.reqState = .REQ_BODY) {data : Bytes} {pieces : List Bytes}
    (hdata : data.length < q.contentLength.toNat)
    (hlen : q.contentLength.toNat ≤ (data ++ pieces.flatten).length) :
    pieces.foldl (next q₀) (.body q data) =
      .ready q (data ++ pieces.flatten.take (fill (q.contentLength.toNat - data.length) pieces)) := by
  induction pieces generalizing data with
  | nil =>
    simp only [List.flatten_nil, List.append_nil] at hlen
    omega
  | cons p ps ih =>
    rw [List.flatten_cons, ← List.append_assoc] at hlen
    rw [List.foldl_cons, next, piece, bodyDone_body hq, List.flatten_cons, fill]
    have hsum : (data ++ p).length = data.length + p.length := List.length_append
    by_cases hfull : q.contentLength.toNat ≤ (data ++ p).length
    · rw [if_pos (decide_eq_true hfull), Final.foldl (show Final (.ready q (data ++ p)) from trivial),
        if_neg (by omega), List.take_left]
    · rw [if_neg (by simpa using hfull), ih (by omega) hlen, if_pos (by omega), List.take_length_add_append,
        List.append_assoc, hsum, Nat.sub_add_eq]

/-! ### The body that is passed on -/

/-- A header block, up to its first empty line, that announces a body of `n` bytes. -/
structure CountedHead (q₀ : Request) (H : Bytes) (n : Nat) : Prop where
  ends : H.findSub crlfcrlf = some (H.length - 4)
  small : H.length ≤ MAX_HEADER_SIZE
  counted : (Request.parseBlock (H.take (H.length - 4)) q₀).reqState = .REQ_BODY
  length : (Request.parseBlock (H.take (H.length - 4)) q₀).contentLength = n

theorem CountedHead.length_eq {H : Bytes} {n : Nat} (h : CountedHead q₀ H n) : H.length - 4 + 4 = H.length := by
  have : H.length - 4 + crlfcrlf.length ≤ H.length := List.findSub_add_le h.ends
  simp only [crlfcrlf, List.length_cons, List.length_nil] at this
  omega

/-- The body store holds `body`, within the limit, and a script is told its length. -/
structure ExactBody (c : Connection) (body : Bytes) : Prop where
  content : content c.request.body = body
  limit : 0 < c.request.maxBodySize → (Connection.content c.request.body).length ≤ c.request.maxBodySize
  env : ∀ script, ∃ v, (CGIManager.buildEnvMap c.request script).find? (ascii "CONTENT_LENGTH") = some v ∧
    (strtoll10 v).1 = (Connection.content c.request.body).length

/-- Whenever a new connection that receives `segs` goes on to PROCESSING, its body is exactly `body`. -/
def TakesExactly (fd : Nat) (conf : Option ServerConf) (now : Nat) (segs : List Bytes) (body : Bytes) : Prop :=
  ∀ sys w c' w', handleReads sys segs (new fd conf now, w) = (.ok (), c', w') → c'.state = .PROCESSING →
    ExactBody c' body

theorem content_of_sound {d : DataStore} {data : Bytes} (h : d.Sound data) : content d = data := by
  rcases d.mode_cases with hm | hm
  · rw [content, if_pos hm, h.ram hm]
  · rw [content, if_neg (by simp [hm]), (h.file hm).1]

/-- The headers passed on do not hide the length. -/
theorem contentLength_of_buildEnvMap (q : Request) (script : Bytes) (hne : q.getHeader (ascii "content-length") ≠ []) :
    (CGIManager.buildEnvMap q script).find? (ascii "CONTENT_LENGTH") =
      some (q.getHeader (ascii "content-length")) := by
  have hkeep (entries : List (Bytes × Bytes)) (env : StrMap) :
      (entries.foldl (fun env h => env.insert (CGIManager.headerVariable h.1) h.2) env).find?
        (ascii "CONTENT_LENGTH") = env.find? (ascii "CONTENT_LENGTH") := by
    induction entries generalizing env with
    | nil => rfl
    | cons e entries ih =>
      have hkey : ascii "CONTENT_LENGTH" ≠ CGIManager.headerVariable e.1 := by
        intro heq
        have hhead := congrArg List.head? heq
        rw [CGIManager.headerVariable, List.head?_append_of_ne_nil _ (by decide)] at hhead
        exact absurd hhead (by decide)
      rw [List.foldl_cons, ih, OrdMap.find?_insert, if_neg hkey]
  unfold CGIManager.buildEnvMap
  simp only
  rw [hkeep, OrdMap.find?_insert, if_pos rfl, if_neg hne]

/-- What the parser says of a body with a length. -/
theorem parseBlock_counted (block : Bytes) {q₀ : Request} (h : (Request.parseBlock block q₀).reqState = .REQ_BODY) :
    let q := Request.parseBlock block q₀
    q.getHeader (ascii "content-length") ≠ [] ∧ q.maxBodySize = q₀.maxBodySize ∧
      q.contentLength = (strtoll10 (q.getHeader (ascii "content-length"))).1 ∧
      (0 < q₀.maxBodySize → q.contentLength.toNat ≤ q₀.maxBodySize) := by
  obtain ⟨p, hp⟩ : ∃ p, p = Request.parseLines (Request.headerLines block) true { q₀ with cookies := ∅ } := ⟨_, rfl⟩
  have hsize : p.maxBodySize = q₀.maxBodySize := hp ▸ Request.parseLines_maxBodySize _ { q₀ with cookies := ∅ }
  obtain ⟨hstate, hlength⟩ := Request.parseBlock_length block q₀ hp
  have hsame := Request.sameHead_parseBlock block q₀
  rw [← hp] at hsame
  have hheader : (Request.parseBlock block q₀).getHeader (ascii "content-length") =
      p.getHeader (ascii "Content-Length") := by
    rw [Request.getHeader, hsame.headers, Request.getHeader,
      show lowercase (ascii "content-length") = lowercase (ascii "Content-Length") by decide]
  rw [h] at hstate
  have hok : p.reqState ≠ .REQ_ERROR := by
    intro herror
    rw [if_neg (not_not.2 herror), herror] at hstate
    cases hstate
  rw [if_pos hok] at hstate hlength
  simp only
  rw [hheader, hsame.maxBodySize, hsize, hlength]
  have hrule := Request.lengthRule_typeOfReq p
  rw [← hstate] at hrule
  cases hrule with
  | chunked _ state => cases state
  | rejected _ _ _ state => cases state
  | empty _ _ state => cases state
  | counted _ hne hread length =>
    refine ⟨hne, rfl, length, fun hpos => ?_⟩
    rw [length]
    have := hread.2.2
    rw [hsize] at this
    exact not_lt.1 fun hlt => this ⟨hpos, hlt⟩

/-- The store gets exactly the body when a segment ends with it, and only then; with too many bytes in
the header buffer the request is rejected. -/
theorem takes_exactly_iff (fd : Nat) (conf : Option ServerConf) (now : Nat) {H B : Bytes} {n : Nat}
    (hH : CountedHead (new fd conf now).request H n) (hn : 0 < n) (hB : n ≤ B.length) {segs : List Bytes}
    (hcut : IsCut (H ++ B) segs) :
    TakesExactly fd conf now segs (B.take n) ↔
      fill (H.length + n) segs = H.length + n ∨ MAX_HEADER_SIZE < fill H.length segs := by
  obtain ⟨q₀, hq₀⟩ : ∃ q₀, q₀ = (new fd conf now).request := ⟨_, rfl⟩
  have hunread : Unread q₀ := hq₀ ▸ new_unread fd conf now
  rw [← hq₀] at hH
  have hlen := hH.length_eq
  obtain ⟨q, hq⟩ : ∃ q, q = Request.parseBlock (H.take (H.length - 4)) q₀ := ⟨_, rfl⟩
  obtain ⟨hne, hmax, hvalue, hlimit⟩ := parseBlock_counted (H.take (H.length - 4)) hH.counted
  have hstate := hH.counted
  have hcount := hH.length
  rw [← hq] at hstate hcount hne hmax hvalue hlimit
  have hcount' : q.contentLength.toNat = n := by omega
  -- the stage of the segments
  have hle : H.length ≤ segs.flatten.length := by
    rw [hcut.flatten, List.length_append]
    omega
  have hpieces : (bodyPieces H.length segs).flatten = B := by
    rw [flatten_bodyPieces hle, hcut.flatten, List.drop_left]
  have hafter : Stage.after q₀ segs = if MAX_HEADER_SIZE < fill H.length segs then .tooLarge else
      .ready q (B.take (fill n (bodyPieces H.length segs))) := by
    have hR := List.findSub_append (t := B) hH.ends
    rw [Stage.after_cut hR (by rw [hlen]; exact hH.small) hcut.flatten, hlen, Stage.ofCut,
      List.take_append_of_le_length (Nat.sub_le _ _), ← hq]
    split
    · rfl
    · rw [Stage.ofRequest, hstate]
      simp only
      rw [Stage.foldl_body_fill hstate (by rw [hcount']; exact hn) (by rw [hcount', List.nil_append, hpieces]; exact hB),
        hcount', hpieces]
      rfl
  rw [fill_add hn hle, Nat.add_left_cancel_iff]
  have hnle : n ≤ fill n (bodyPieces H.length segs) := le_fill (by rw [hpieces]; exact hB)
  have hfle : fill n (bodyPieces H.length segs) ≤ B.length := by
    rw [← hpieces]
    exact fill_le _ _
  constructor
  · intro htakes
    by_contra hno
    rw [not_or, not_lt] at hno
    obtain ⟨c', w', hrun, hst⟩ := handleReads_stage Sys.calm_noFail fd conf now {} hcut.ne_nil
    rw [← hq₀, hafter, if_neg (not_lt.2 hno.2)] at hst
    rcases hst with _ | _ | _ | _ | ⟨_, _, hproc, hreq, hbody⟩
    have hexact := (htakes Sys.calm {} c' w' hrun hproc).content
    rw [content_of_holds hbody] at hexact
    have := congrArg List.length hexact
    rw [List.length_take, List.length_take] at this
    omega
  · intro hfit sys w c' w' hrun hproc
    have hstart : SoundStage q₀ (new fd conf now) (.header []) := .header [] rfl rfl hq₀.symm
    have hst := hstart.handleReads hunread hcut.ne_nil hrun
    rw [show segs.foldl (Stage.next q₀) (.header []) = Stage.after q₀ segs from rfl, hafter] at hst
    split at hst
    · rcases hst with _ | hwriting
      rw [hproc] at hwriting
      cases hwriting
    rename_i hsmall
    rcases hst with _ | _ | _ | _ | ⟨_, _, -, hreq, hbody⟩
    rw [hfit.resolve_right hsmall] at hbody
    have hlength : (B.take n).length = n := by rw [List.length_take]; omega
    have hcontent := content_of_sound hbody
    refine ⟨hcontent, ?_, fun script => ⟨q.getHeader (ascii "content-length"), ?_, ?_⟩⟩
    · rw [hcontent, hlength, hreq]
      intro hpos
      rw [show Request.maxBodySize { q with body := c'.request.body } = q.maxBodySize from rfl, hmax] at hpos ⊢
      rw [← hcount']
      exact hlimit hpos
    · rw [hreq]
      exact contentLength_of_buildEnvMap { q with body := c'.request.body } script hne
    · rw [hcontent, hlength, ← hvalue, hcount]

/-- A request line and the header that announces two bytes. -/
def countedHead : Bytes := ascii "POST /up HTTP/1.1\r\nContent-Length: 2\r\n\r\n"

theorem countedHead_spec : CountedHead (new 4 none 0).request countedHead 2 :=
  ⟨by decide +kernel, by decide +kernel, by decide +kernel, by decide +kernel⟩

theorem takes_exactly_in_two_segments :
    TakesExactly 4 none 0 [countedHead ++ ascii "a", ascii "b", ascii "GET"] ((ascii "abGET").take 2) :=
  (takes_exactly_iff 4 none 0 countedHead_spec (by decide) (by decide)
    (isCut_of_decide (by decide))).2 (.inl (by decide))

/-- A segment that goes past the body goes into the store as a whole. -/
theorem not_takes_exactly_past_body :
    ¬ TakesExactly 4 none 0 [countedHead ++ ascii "abGET"] ((ascii "abGET").take 2) := by
  intro htakes
  obtain ⟨c', w', hrun, hst⟩ := handleReads_stage Sys.calm_noFail 4 none 0 {}
    (show ∀ s ∈ [countedHead ++ ascii "abGET"], s ≠ [] by decide)
  have hout : (handleReads Sys.calm [countedHead ++ ascii "abGET"] (new 4 none 0, {})).2.1.state = .PROCESSING ∧
      content (handleReads Sys.calm [countedHead ++ ascii "abGET"] (new 4 none 0, {})).2.1.request.body =
        ascii "abGET" := by
    decide +kernel
  rw [hrun] at hout
  have hexact := (htakes Sys.calm {} c' w' hrun hout.1).content
  rw [hout.2] at hexact
  exact absurd hexact (by decide)

end Connection

end LeftHookRoll
