import LeftHookRoll.ErrorPage

/-!
# Receiving a request segment by segment

`Stage` is what has become of the bytes received so far: it is computed from the segments alone, with
no system and no store. `InStage.handleRead` is the step: one segment takes a connection from the
stage of the segments before to the stage of the segments with it; `handleReads_stage` is the run.
-/

namespace LeftHookRoll

open Eff

namespace Request

/-- The codes with which the header parser gives up. -/
def parseErrorCodes : List Bytes := [ascii "400", ascii "413", ascii "501", ascii "505"]

/-- The parser has not touched the body, and if it gave up it said why. -/
structure Parsing (q₀ q : Request) : Prop where
  body : q.body = q₀.body
  coded : q.reqState = .REQ_ERROR → q.statusCode ∈ parseErrorCodes

variable {q₀ q : Request}

theorem Parsing.fail (h : Parsing q₀ q) {code : Bytes} (hc : code ∈ parseErrorCodes) :
    Parsing q₀ (q.fail code) := ⟨h.body, fun _ => hc⟩

theorem Parsing.extractQueryFromURL (h : Parsing q₀ q) : Parsing q₀ q.extractQueryFromURL := by
  unfold Request.extractQueryFromURL
  split
  · exact ⟨h.body, h.coded⟩
  · exact h

theorem Parsing.parseRequestLine (h : Parsing q₀ q) (line : Bytes) :
    Parsing q₀ (parseRequestLine line q) := by
  have h' (m : HTTPMethod) (url protocol : Bytes) :
      Parsing q₀ { q with methodName := m, URL := url, protocol := protocol } := ⟨h.body, h.coded⟩
  unfold Request.parseRequestLine
  split
  · exact h.fail (by decide)
  simp only
  split
  · exact (h' ..).fail (by decide)
  split
  · split
    · exact (h' ..).fail (by decide)
    · exact ⟨(h' ..).extractQueryFromURL.body, (by rintro ⟨⟩)⟩
  · split
    · exact (h' ..).fail (by decide)
    split
    · exact (h' ..).fail (by decide)
    · exact (h' ..).extractQueryFromURL

theorem Parsing.parseHeaderLine (h : Parsing q₀ q) (line : Bytes) :
    Parsing q₀ (parseHeaderLine line q) := by
  unfold Request.parseHeaderLine
  split
  · exact h
  simp only
  split
  · exact h
  · exact ⟨h.body, h.coded⟩

theorem Parsing.parseLines (h : Parsing q₀ q) (lines : List Bytes) (firstLine : Bool) :
    Parsing q₀ (parseLines lines firstLine q) := by
  induction lines generalizing firstLine q with
  | nil => exact h
  | cons line lines ih =>
    rw [Request.parseLines]
    split
    · exact ih h firstLine
    split
    · exact ih (h.parseRequestLine line) false
    · exact ih (h.parseHeaderLine line) firstLine

/-- How the request goes on after its headers. -/
structure Typed (q : Request) : Prop where
  state : q.reqState ≠ .REQ_HEADERS
  length : q.reqState = .REQ_BODY → 0 < q.contentLength

theorem Parsing.typeOfReq (h : Parsing q₀ q) : Parsing q₀ q.typeOfReq ∧ q.typeOfReq.Typed := by
  unfold Request.typeOfReq
  simp only
  split
  · exact ⟨⟨h.body, (by rintro ⟨⟩)⟩, (by rintro ⟨⟩), (by rintro ⟨⟩)⟩
  split
  · split
    · exact ⟨h.fail (by decide), (by rintro ⟨⟩), (by rintro ⟨⟩)⟩
    split
    · exact ⟨⟨h.body, fun _ => show ascii "413" ∈ parseErrorCodes by decide⟩, (by rintro ⟨⟩), (by rintro ⟨⟩)⟩
    rcases eq_or_ne (strtoll10 (q.getHeader (ascii "Content-Length"))).1 0 with h0 | h0
    · exact ⟨⟨h.body, by simp [h0]⟩, by simp [h0], by simp [h0]⟩
    · refine ⟨⟨h.body, by simp [h0]⟩, by simp [h0], fun _ => ?_⟩
      show 0 < (strtoll10 _).1
      omega
  · exact ⟨⟨h.body, (by rintro ⟨⟩)⟩, (by rintro ⟨⟩), (by rintro ⟨⟩)⟩

theorem Parsing.typed (h : Parsing q₀ q) :
    Parsing q₀ (if q.reqState ≠ .REQ_ERROR then q.typeOfReq else q) ∧
      Typed (if q.reqState ≠ .REQ_ERROR then q.typeOfReq else q) := by
  by_cases he : q.reqState = .REQ_ERROR
  · rw [if_neg (not_not.2 he)]
    exact ⟨h, by simp [he], by simp [he]⟩
  · rw [if_pos he]
    exact h.typeOfReq

theorem parseBlock_spec (block : Bytes) (h : q₀.reqState ≠ .REQ_ERROR) :
    Parsing q₀ (parseBlock block q₀) ∧ (parseBlock block q₀).Typed := by
  have hstart : Parsing q₀ { q₀ with cookies := ∅ } := ⟨rfl, fun he => absurd he h⟩
  obtain ⟨hp, ht⟩ := (hstart.parseLines (headerLines block) true).typed
  unfold Request.parseBlock
  simp only
  split
  · exact ⟨⟨hp.body, hp.coded⟩, ht.state, ht.length⟩
  · exact ⟨hp, ht⟩

end Request

namespace Connection

variable {sys : Sys} {q₀ : Request} {c : Connection} {w : World}

/-- What has become of the bytes received so far. -/
inductive Stage
  /-- The headers are not complete. -/
  | header (got : Bytes)
  /-- The headers are too large: 431. -/
  | tooLarge
  | rejected (q : Request)
  /-- The request `q` was read; `data` is its body so far. -/
  | body (q : Request) (data : Bytes)
  /-- The body is taken to be complete. -/
  | ready (q : Request) (data : Bytes)

/-- Whether the body is taken to be complete: `data` ends with the `piece` just received. -/
def bodyDone (q : Request) (data piece : Bytes) : Bool :=
  match q.reqState with
  | .REQ_CHUNKED => Request.isChunkedDone piece
  | .REQ_BODY => q.contentLength.toNat ≤ data.length
  | _ => false

namespace Stage

def piece (q : Request) (data p : Bytes) : Stage :=
  if bodyDone q (data ++ p) p then .ready q (data ++ p) else .body q (data ++ p)

/-- The headers of `buf` end at `e`. -/
def headersDone (q₀ : Request) (buf : Bytes) (e : Nat) : Stage :=
  let q := Request.parseBlock (buf.take e) q₀
  match q.reqState with
  | .REQ_ERROR => .rejected q
  | .REQ_DONE => .ready q []
  | _ => piece q [] (buf.drop (e + 4))

/-- One more segment. -/
def next (q₀ : Request) : Stage → Bytes → Stage
  | .header got, s =>
    if MAX_HEADER_SIZE < (got ++ s).length then .tooLarge
    else
      match (got ++ s).findSub crlfcrlf with
      | none => .header (got ++ s)
      | some e => headersDone q₀ (got ++ s) e
  | .body q data, s => piece q data s
  | st, _ => st

/-- The stage after some segments. -/
def after (q₀ : Request) (segs : List Bytes) : Stage := segs.foldl (next q₀) (.header [])

end Stage

/-- The connection `c` is at a stage of a request that is parsed from `q₀`. -/
inductive InStage (q₀ : Request) (c : Connection) (w : World) : Stage → Prop
  | header (got : Bytes) (hstate : c.state = .READING) (hbuf : c.readBuffer = got)
      (hreq : c.request = q₀) : InStage q₀ c w (.header got)
  | tooLarge (hstate : c.state = .WRITING) (hreq : c.request = q₀)
      (hcode : c.response.statusCode = ascii "431") : InStage q₀ c w .tooLarge
  | rejected (q : Request) (hstate : c.state = .WRITING) (hreq : c.request = q)
      (hq : q.body = q₀.body)
      (hcode : c.response.statusCode = decimalInt (atoi q.statusCode)) : InStage q₀ c w (.rejected q)
  | body (q : Request) (data : Bytes) (hstate : c.state = .READING)
      (htype : q.reqState = .REQ_CHUNKED ∨ q.reqState = .REQ_BODY)
      (hreq : c.request = { q with body := c.request.body }) (hbody : c.request.body.Holds w data) :
      InStage q₀ c w (.body q data)
  | ready (q : Request) (data : Bytes) (hstate : c.state = .PROCESSING)
      (hreq : c.request = { q with body := c.request.body }) (hbody : c.request.body.Holds w data) :
      InStage q₀ c w (.ready q data)

/-- A request of which nothing is read. -/
structure Unread (q₀ : Request) : Prop where
  state : q₀.reqState = .REQ_HEADERS
  body : q₀.body = {}

theorem new_inStage (fd : Nat) (conf : Option ServerConf) (now : Nat) (w : World) :
    InStage (new fd conf now).request (new fd conf now) w (.header []) :=
  .header [] rfl rfl rfl

theorem new_unread (fd : Nat) (conf : Option ServerConf) (now : Nat) :
    Unread (new fd conf now).request := ⟨rfl, rfl⟩

/-- Deliver segments, one per call of `handleRead`. -/
def handleReads (sys : Sys) : List Bytes → Method Connection Unit
  | [] => return ()
  | s :: segs => do
    handleRead sys (some s)
    handleReads sys segs

theorem bodyDone_chunked {q : Request} (ht : q.reqState = .REQ_CHUNKED) (data p : Bytes) :
    bodyDone q data p = Request.isChunkedDone p := by
  rw [bodyDone, ht]

theorem bodyDone_body {q : Request} (ht : q.reqState = .REQ_BODY) (data p : Bytes) :
    bodyDone q data p = decide (q.contentLength.toNat ≤ data.length) := by
  rw [bodyDone, ht]

/-- The connection with the parsed request `q`, whose body is in `d`. -/
def withBody (q : Request) (d : DataStore) (c : Connection) : Connection :=
  { c with request := { q with body := d } }

/-- A piece of the body is appended. -/
theorem append_body (hs : sys.NoFail) {q : Request} {data p : Bytes} (hp : p ≠ [])
    (hreq : c.request = { q with body := c.request.body }) (hbody : c.request.body.Holds w data) :
    ∃ d w', onBody (DataStore.append sys p) (c, w) = (.ok (), withBody q d c, w') ∧
      d.Holds w' (data ++ p) := by
  obtain ⟨d, w', happ, hd, -⟩ := DataStore.append_spec hs hbody hp
  refine ⟨d, w', ?_, hd⟩
  have hcall : Request.onBody (DataStore.append sys p) (c.request, w) =
      (.ok (), { c.request with body := d }, w') := Eff.on_eq happ
  rw [onBody, onRequest, Eff.on_eq hcall, hreq]
  rfl

/-- The connection after a piece of the body is appended and looked at. -/
def afterPiece (q : Request) (d : DataStore) (data p : Bytes) (c : Connection) : Connection :=
  if bodyDone q (data ++ p) p then setState .PROCESSING (withBody q d c) else withBody q d c

theorem afterPiece_inStage {q : Request} {d : DataStore} {data p : Bytes} (hstate : c.state = .READING)
    (htype : q.reqState = .REQ_CHUNKED ∨ q.reqState = .REQ_BODY) (hd : d.Holds w (data ++ p)) :
    InStage q₀ (afterPiece q d data p c) w (Stage.piece q data p) := by
  unfold afterPiece Stage.piece
  split
  · exact .ready q _ rfl rfl hd
  · exact .body q _ hstate htype rfl hd

theorem readChunked_eq (hs : sys.NoFail) {q : Request} {data p : Bytes} (hp : p ≠ [])
    (htype : q.reqState = .REQ_CHUNKED) (hreq : c.request = { q with body := c.request.body })
    (hbody : c.request.body.Holds w data) :
    ∃ d w', readChunked sys p (c, w) = (.ok (), afterPiece q d data p c, w') ∧ d.Holds w' (data ++ p) := by
  obtain ⟨d, w', happ, hd⟩ := append_body hs hp hreq hbody
  refine ⟨d, w', ?_, hd⟩
  rw [readChunked, Eff.bind_ok happ, afterPiece, bodyDone_chunked htype]
  split <;> rfl

theorem readBody_eq (hs : sys.NoFail) {q : Request} {data p : Bytes} (hp : p ≠ [])
    (htype : q.reqState = .REQ_BODY) (hreq : c.request = { q with body := c.request.body })
    (hbody : c.request.body.Holds w data) :
    ∃ d w', readBody sys p (c, w) = (.ok (), afterPiece q d data p c, w') ∧ d.Holds w' (data ++ p) := by
  obtain ⟨d, w', happ, hd⟩ := append_body hs hp hreq hbody
  refine ⟨d, w', ?_, hd⟩
  rw [readBody, Eff.bind_ok happ, afterPiece, bodyDone_body htype, ← hd.size, Eff.obj_bind]
  by_cases h : q.contentLength.toNat ≤ d.currentSize
  · rw [if_pos (by exact h), if_pos (decide_eq_true h)]
    rfl
  · rw [if_neg (by exact h), if_neg (by simpa using h)]
    rfl

/-- The bytes that came with the end of the headers are a piece like the others; no bytes are an empty
piece. -/
theorem takeLeftover_eq (hs : sys.NoFail) {q : Request} (p : Bytes) (hq : q.Typed)
    (htype : q.reqState = .REQ_CHUNKED ∨ q.reqState = .REQ_BODY) (hreq : c.request = q)
    (hbody : q.body.Holds w []) :
    ∃ d w', takeLeftover sys p (c, w) = (.ok (), afterPiece q d [] p c, w') ∧ d.Holds w' p := by
  by_cases hp : p = []
  · subst hp
    have hnot : bodyDone q [] [] = false := by
      rcases htype with ht | ht
      · rw [bodyDone_chunked ht]
        rfl
      · have := hq.length ht
        rw [bodyDone_body ht, decide_eq_false_iff_not, List.length_nil]
        omega
    refine ⟨q.body, w, ?_, hbody⟩
    rw [afterPiece, List.append_nil, hnot, if_neg (by simp), withBody, ← hreq]
    rfl
  · obtain ⟨d, w', happ, hd⟩ := append_body (q := q) hs hp (by rw [hreq]) (hreq ▸ hbody)
    refine ⟨d, w', ?_, hd⟩
    rw [takeLeftover, if_neg hp, Eff.bind_ok happ, afterPiece, List.nil_append,
      Eff.obj_bind]
    rcases htype with ht | ht
    · rw [bodyDone_chunked ht]
      by_cases h : Request.isChunkedDone p = true
      · rw [if_pos (by exact ⟨ht, h⟩), if_pos h]
        rfl
      · rw [if_neg (by exact fun h' => h h'.2), if_neg (by simp [withBody, ht]), if_neg h]
        rfl
    · rw [bodyDone_body ht, show p.length = d.currentSize from hd.size.symm,
        if_neg (by simp [withBody, ht])]
      by_cases h : q.contentLength.toNat ≤ d.currentSize
      · rw [if_pos (by exact ⟨ht, h⟩), if_pos (decide_eq_true h)]
        rfl
      · rw [if_neg (by exact fun h' => h h'.2), if_neg (by simpa using h)]
        rfl

/-- A segment that is received while the headers are not complete. -/
theorem readHeaders_inStage (hs : sys.NoFail) (hq₀ : Unread q₀) {got s : Bytes}
    (hstate : c.state = .READING) (hbuf : c.readBuffer = got) (hreq : c.request = q₀) :
    ∃ c' w', readHeaders sys s (c, w) = (.ok (), c', w') ∧
      InStage q₀ c' w' ((Stage.header got).next q₀ s) := by
  rw [readHeaders, Eff.modObj_bind, Eff.obj_bind]
  simp only [hbuf]
  rw [Stage.next]
  by_cases hlarge : MAX_HEADER_SIZE < (got ++ s).length
  · obtain ⟨r, w', htrig, hcode, -⟩ := triggerError_eq hs 431 { c with readBuffer := got ++ s } w
    rw [if_pos (by exact hlarge), if_pos hlarge]
    exact ⟨_, w', htrig, .tooLarge rfl hreq (hcode.trans (by decide))⟩
  rw [if_neg (by exact hlarge), if_neg hlarge, Eff.obj_bind]
  rcases hfind : (got ++ s).findSub crlfcrlf with _ | e
  · simp only [Request.parseHeaders, hfind, Eff.modObj_bind, hreq, hq₀.state]
    exact ⟨_, w, rfl, .header _ hstate rfl rfl⟩
  obtain ⟨hparse, htyped⟩ := Request.parseBlock_spec ((got ++ s).take e)
    (show q₀.reqState ≠ .REQ_ERROR by simp [hq₀.state])
  simp only [Request.parseHeaders, hfind, Eff.modObj_bind, hreq, Stage.headersDone]
  obtain ⟨q, hq⟩ : ∃ q, q = Request.parseBlock ((got ++ s).take e) q₀ := ⟨_, rfl⟩
  rw [← hq] at hparse htyped ⊢
  have hbody : q.body.Holds w [] := by
    rw [hparse.body, hq₀.body]
    exact DataStore.holds_new w
  rcases hstq : q.reqState with _ | _ | _ | _ | _
  · exact absurd hstq htyped.state
  · obtain ⟨d, w', hrun, hd⟩ := takeLeftover_eq (c := { c with readBuffer := [], request := q }) hs
      ((got ++ s).drop (e + 4)) htyped (.inr hstq) rfl hbody
    exact ⟨_, w', hrun, afterPiece_inStage hstate (.inr hstq) hd⟩
  · obtain ⟨d, w', hrun, hd⟩ := takeLeftover_eq (c := { c with readBuffer := [], request := q }) hs
      ((got ++ s).drop (e + 4)) htyped (.inl hstq) rfl hbody
    exact ⟨_, w', hrun, afterPiece_inStage hstate (.inl hstq) hd⟩
  · exact ⟨_, w, rfl, .ready q [] rfl rfl hbody⟩
  · obtain ⟨r, w', htrig, hcode, -⟩ := triggerError_eq hs (atoi q.statusCode)
      { c with readBuffer := got ++ s, request := q } w
    exact ⟨_, w', htrig, .rejected q rfl rfl hparse.body hcode⟩

/-- The connection after the bookkeeping of a read. -/
def received (s : Bytes) (w : World) (c : Connection) : Connection :=
  { c with lastActivity := w.now, totalBytesRead := c.totalBytesRead + s.length }

theorem handleRead_reading (hstate : c.state = .READING) {s : Bytes} (hne : s ≠ []) :
    handleRead sys (some s) (c, w) =
      (match c.request.reqState with
        | .REQ_HEADERS => readHeaders sys s
        | .REQ_BODY => readBody sys s
        | .REQ_CHUNKED => readChunked sys s
        | .REQ_DONE | .REQ_ERROR => pure ()) (received s w c, w) := by
  obtain ⟨b, rest, rfl⟩ := List.exists_cons_of_ne_nil hne
  unfold handleRead
  rw [Eff.obj_bind, if_neg (not_not.2 hstate)]
  rfl

/-- One segment takes a connection to the next stage. -/
theorem InStage.handleRead (hs : sys.NoFail) (hq₀ : Unread q₀) {st : Stage} (h : InStage q₀ c w st)
    {s : Bytes} (hne : s ≠ []) :
    ∃ c' w', handleRead sys (some s) (c, w) = (.ok (), c', w') ∧ InStage q₀ c' w' (st.next q₀ s) := by
  cases h with
  | tooLarge hstate hreq hcode =>
    exact ⟨c, w, handleRead_idle (by simp [hstate]) _, .tooLarge hstate hreq hcode⟩
  | rejected q hstate hreq hq hcode =>
    exact ⟨c, w, handleRead_idle (by simp [hstate]) _, .rejected q hstate hreq hq hcode⟩
  | ready q data hstate hreq hbody =>
    exact ⟨c, w, handleRead_idle (by simp [hstate]) _, .ready q data hstate hreq hbody⟩
  | body q data hstate htype hreq hbody =>
    rw [handleRead_reading hstate hne, hreq]
    rcases htype with ht | ht
    · simp only [ht]
      obtain ⟨d, w', hrun, hd⟩ := readChunked_eq (c := received s w c) hs hne ht hreq hbody
      exact ⟨_, w', hrun, afterPiece_inStage hstate (.inl ht) hd⟩
    · simp only [ht]
      obtain ⟨d, w', hrun, hd⟩ := readBody_eq (c := received s w c) hs hne ht hreq hbody
      exact ⟨_, w', hrun, afterPiece_inStage hstate (.inr ht) hd⟩
  | header got hstate hbuf hreq =>
    rw [handleRead_reading hstate hne, hreq, hq₀.state]
    exact readHeaders_inStage (c := received s w c) hs hq₀ hstate hbuf hreq

/-- Any segments take a connection through their stages. -/
theorem InStage.handleReads (hs : sys.NoFail) (hq₀ : Unread q₀) {st : Stage} (h : InStage q₀ c w st)
    {segs : List Bytes} (hne : ∀ s ∈ segs, s ≠ []) :
    ∃ c' w', handleReads sys segs (c, w) = (.ok (), c', w') ∧
      InStage q₀ c' w' (segs.foldl (Stage.next q₀) st) := by
  induction segs generalizing c w st with
  | nil => exact ⟨c, w, rfl, h⟩
  | cons s segs ih =>
    obtain ⟨c₁, w₁, hread, h₁⟩ := h.handleRead hs hq₀ (hne s (List.mem_cons_self ..))
    obtain ⟨c', w', hrest, h'⟩ := ih h₁ fun t ht => hne t (List.mem_cons_of_mem _ ht)
    refine ⟨c', w', ?_, h'⟩
    rw [Connection.handleReads, Eff.bind_ok hread, hrest]

/-- The run: a new connection that receives `segs` is at the stage of `segs`. -/
theorem handleReads_stage (hs : sys.NoFail) (fd : Nat) (conf : Option ServerConf) (now : Nat) (w : World)
    {segs : List Bytes} (hne : ∀ s ∈ segs, s ≠ []) :
    ∃ c' w', handleReads sys segs (new fd conf now, w) = (.ok (), c', w') ∧
      InStage (new fd conf now).request c' w' (Stage.after (new fd conf now).request segs) :=
  (new_inStage fd conf now w).handleReads hs (new_unread fd conf now) hne

end Connection

end LeftHookRoll
