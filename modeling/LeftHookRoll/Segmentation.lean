import LeftHookRoll.ReadSegments

/-!
# What depends on how a request is cut

A cut of a request enters the run in two ways only: how much is in the header buffer when the headers
are complete (`fill`), and the pieces in which the body arrives (`bodyPieces`). `after_cut` computes the
stage at the end from these. The end of a chunked body is looked for in each piece alone (`stopAt`).
-/

namespace LeftHookRoll

open Eff

namespace Connection

variable {q₀ : Request}

/-- What is in the header buffer when `h` bytes or more are received. -/
def fill (h : Nat) : List Bytes → Nat
  | [] => 0
  | s :: segs => if s.length < h then s.length + fill (h - s.length) segs else s.length

/-- What comes after the first `h` bytes, as it was cut. -/
def bodyPieces (h : Nat) : List Bytes → List Bytes
  | [] => []
  | s :: segs => if s.length < h then bodyPieces (h - s.length) segs else s.drop h :: segs

theorem flatten_bodyPieces {h : Nat} {segs : List Bytes} (hle : h ≤ segs.flatten.length) :
    (bodyPieces h segs).flatten = segs.flatten.drop h := by
  induction segs generalizing h with
  | nil => simp [bodyPieces]
  | cons s segs ih =>
    rw [List.flatten_cons, List.length_append] at hle
    rw [bodyPieces, List.flatten_cons]
    split
    case isTrue hlt =>
      rw [ih (by omega), List.drop_append, List.drop_of_length_le hlt.le, List.nil_append]
    case isFalse hlt =>
      rw [List.flatten_cons, List.drop_append_of_le_length (by omega)]

theorem bodyPieces_of_short {h : Nat} {segs : List Bytes} (hlt : segs.flatten.length < h) :
    bodyPieces h segs = [] := by
  induction segs generalizing h with
  | nil => rfl
  | cons s segs ih =>
    rw [List.flatten_cons, List.length_append] at hlt
    rw [bodyPieces, if_pos (by omega), ih (by omega)]

theorem fill_of_short {h : Nat} {segs : List Bytes} (hlt : segs.flatten.length < h) :
    fill h segs = segs.flatten.length := by
  induction segs generalizing h with
  | nil => rfl
  | cons s segs ih =>
    rw [List.flatten_cons, List.length_append] at hlt ⊢
    rw [fill, if_pos (by omega), ih (by omega)]

theorem fill_append {h : Nat} {segs : List Bytes} (hle : h ≤ segs.flatten.length) (hpos : 0 < h)
    (more : List Bytes) : fill h (segs ++ more) = fill h segs := by
  induction segs generalizing h with
  | nil =>
    rw [List.flatten_nil, List.length_nil] at hle
    omega
  | cons s segs ih =>
    rw [List.flatten_cons, List.length_append] at hle
    rw [List.cons_append, fill, fill]
    split
    · rw [ih (by omega) (by omega)]
    · rfl

theorem bodyPieces_mono (h : Nat) (segs more : List Bytes) :
    bodyPieces h segs <+: bodyPieces h (segs ++ more) := by
  induction segs generalizing h with
  | nil => exact List.nil_prefix
  | cons s segs ih =>
    rw [List.cons_append, bodyPieces, bodyPieces]
    split
    · exact ih _
    · exact List.prefix_append _ _

theorem bodyPieces_append {h : Nat} {segs : List Bytes} (hle : h ≤ segs.flatten.length) (hpos : 0 < h)
    (more : List Bytes) : bodyPieces h (segs ++ more) = bodyPieces h segs ++ more := by
  induction segs generalizing h with
  | nil =>
    rw [List.flatten_nil, List.length_nil] at hle
    omega
  | cons s segs ih =>
    rw [List.flatten_cons, List.length_append] at hle
    rw [List.cons_append, bodyPieces, bodyPieces]
    split
    · rw [ih (by omega) (by omega)]
    · rfl

theorem bodyPieces_append_of_short {h : Nat} {segs : List Bytes} (hlt : segs.flatten.length < h)
    (more : List Bytes) : bodyPieces h (segs ++ more) = bodyPieces (h - segs.flatten.length) more := by
  induction segs generalizing h with
  | nil => rfl
  | cons s segs ih =>
    rw [List.flatten_cons, List.length_append] at hlt ⊢
    rw [List.cons_append, bodyPieces, if_pos (by omega), ih (by omega), Nat.sub_add_eq]

/-- All pieces but the last come with all segments but the last. -/
theorem dropLast_bodyPieces {h : Nat} {segs : List Bytes} (hle : h ≤ segs.flatten.length) (hpos : 0 < h) :
    (bodyPieces h segs).dropLast = bodyPieces h segs.dropLast := by
  rcases List.eq_nil_or_concat' segs with rfl | ⟨init, s, rfl⟩
  · rfl
  rw [List.dropLast_concat]
  by_cases hi : h ≤ init.flatten.length
  · rw [bodyPieces_append hi hpos, List.dropLast_concat]
  · have hshort := Nat.lt_of_not_le hi
    rw [List.flatten_append, List.length_append, List.flatten_singleton] at hle
    rw [bodyPieces_of_short hshort, bodyPieces_append_of_short hshort, bodyPieces, if_neg (by omega)]
    rfl

/-- Where a chunked body is taken to end: after the first piece that holds the marker. -/
def stopAt : List Bytes → Option Nat
  | [] => none
  | p :: ps => if Request.isChunkedDone p then some p.length else (stopAt ps).map (p.length + ·)

namespace Stage

/-- Nothing more is read at this stage. -/
def Final : Stage → Prop
  | .header _ | .body .. => False
  | .tooLarge | .rejected _ | .ready .. => True

theorem Final.foldl {st : Stage} (h : st.Final) (segs : List Bytes) :
    segs.foldl (next q₀) st = st := by
  induction segs with
  | nil => rfl
  | cons s segs ih =>
    rw [List.foldl_cons, show next q₀ st s = st by cases st <;> first | rfl | exact h.elim, ih]

/-- The request `q` was read off the headers, and the body comes in `pieces`. -/
def ofRequest (q₀ q : Request) (pieces : List Bytes) : Stage :=
  match q.reqState with
  | .REQ_ERROR => .rejected q
  | .REQ_DONE => .ready q []
  | _ => pieces.foldl (next q₀) (.body q [])

/-- The header buffer has `n` bytes when the headers are complete, `block` is what they say, and the
body comes in `pieces`. -/
def ofCut (q₀ : Request) (block : Bytes) (n : Nat) (pieces : List Bytes) : Stage :=
  if MAX_HEADER_SIZE < n then .tooLarge else ofRequest q₀ (Request.parseBlock block q₀) pieces

/-- While the headers are not complete, the stage at the end depends on the rest of the cut through
`fill` and `bodyPieces` only. -/
theorem foldl_header {R got : Bytes} {e : Nat} (hR : R.findSub crlfcrlf = some e)
    (he : e + 4 ≤ MAX_HEADER_SIZE) {segs : List Bytes} (hcut : got ++ segs.flatten = R)
    (hgot : got.length < e + 4) :
    segs.foldl (next q₀) (.header got) = ofCut q₀ (R.take e)
      (got.length + fill (e + 4 - got.length) segs) (bodyPieces (e + 4 - got.length) segs) := by
  have hlen : e + 4 ≤ R.length := List.findSub_add_le hR
  induction segs generalizing got with
  | nil =>
    have := congrArg List.length hcut
    simp only [List.flatten_nil, List.append_nil] at this
    omega
  | cons s segs ih =>
    rw [List.flatten_cons, ← List.append_assoc] at hcut
    have hR' : ((got ++ s) ++ segs.flatten).findSub crlfcrlf = some e := hcut ▸ hR
    have hbuf : (got ++ s).length = got.length + s.length := List.length_append
    rw [List.foldl_cons, next, fill, bodyPieces]
    by_cases hlt : s.length < e + 4 - got.length
    · -- the headers are still not complete
      rw [if_pos hlt, if_pos hlt, if_neg (by omega),
        List.findSub_eq_none_of_append hR' (by rw [hbuf]; simp only [crlfcrlf, List.length_cons, List.length_nil]; omega)]
      simp only
      rw [ih hcut (by omega), hbuf, Nat.sub_add_eq, Nat.add_assoc]
    · rw [if_neg hlt, if_neg hlt, hbuf]
      by_cases hlarge : MAX_HEADER_SIZE < got.length + s.length
      · rw [if_pos hlarge, ofCut, if_pos hlarge, Final.foldl (show Final .tooLarge from trivial)]
      rw [if_neg hlarge, List.findSub_of_append hR' (by rw [hbuf]; simp only [crlfcrlf, List.length_cons, List.length_nil]; omega)]
      have hle : e ≤ (got ++ s).length := by omega
      have htake : (got ++ s).take e = R.take e := by
        rw [← hcut, List.take_append_of_le_length hle]
      have hdrop : (got ++ s).drop (e + 4) = s.drop (e + 4 - got.length) := by
        rw [List.drop_append, List.drop_of_length_le (by omega), List.nil_append]
      simp only [ofCut, if_neg hlarge, ofRequest, headersDone, htake, hdrop]
      cases (Request.parseBlock (R.take e) q₀).reqState with
      | REQ_HEADERS | REQ_BODY | REQ_CHUNKED => rfl
      | REQ_DONE => exact Final.foldl (show Final (.ready _ []) from trivial) segs
      | REQ_ERROR => exact Final.foldl (show Final (.rejected _) from trivial) segs

theorem foldl_header_short {R got rest : Bytes} {e : Nat} (hR : R.findSub crlfcrlf = some e)
    (he : e + 4 ≤ MAX_HEADER_SIZE) {segs : List Bytes} (hcut : got ++ segs.flatten ++ rest = R)
    (hshort : (got ++ segs.flatten).length < e + 4) :
    segs.foldl (next q₀) (.header got) = .header (got ++ segs.flatten) := by
  induction segs generalizing got with
  | nil => rw [List.flatten_nil, List.append_nil]; rfl
  | cons s segs ih =>
    rw [List.flatten_cons, ← List.append_assoc] at hcut hshort ⊢
    have hR' : ((got ++ s) ++ (segs.flatten ++ rest)).findSub crlfcrlf = some e := by
      rw [← List.append_assoc, hcut, hR]
    have hlt : (got ++ s).length < e + 4 := by
      rw [List.length_append] at hshort
      omega
    rw [List.foldl_cons, next, if_neg (by omega), List.findSub_eq_none_of_append hR' hlt]
    exact ih hcut hshort

theorem after_short {R rest : Bytes} {e : Nat} (hR : R.findSub crlfcrlf = some e)
    (he : e + 4 ≤ MAX_HEADER_SIZE) {segs : List Bytes} (hcut : segs.flatten ++ rest = R)
    (hshort : segs.flatten.length < e + 4) : after q₀ segs = .header segs.flatten :=
  show segs.foldl (next q₀) (.header []) = _ from foldl_header_short hR he hcut hshort

theorem after_cut {R : Bytes} {e : Nat} (hR : R.findSub crlfcrlf = some e) (he : e + 4 ≤ MAX_HEADER_SIZE)
    {segs : List Bytes} (hcut : segs.flatten = R) :
    after q₀ segs = ofCut q₀ (R.take e) (fill (e + 4) segs) (bodyPieces (e + 4) segs) := by
  have hrun : segs.foldl (next q₀) (.header []) = _ := foldl_header hR he hcut (Nat.succ_pos _)
  rw [after, hrun, List.length_nil, Nat.zero_add, Nat.sub_zero]

/-- A chunked body is read up to the end of the first piece that holds the marker. -/
theorem foldl_chunked {q : Request} (hq : q.reqState = .REQ_CHUNKED) (data : Bytes) (pieces : List Bytes) :
    pieces.foldl (next q₀) (.body q data) = match stopAt pieces with
      | some k => .ready q (data ++ pieces.flatten.take k)
      | none => .body q (data ++ pieces.flatten) := by
  induction pieces generalizing data with
  | nil => simp [stopAt]
  | cons p ps ih =>
    rw [List.foldl_cons, next, piece, bodyDone_chunked hq, stopAt, List.flatten_cons]
    by_cases hp : Request.isChunkedDone p = true
    · rw [if_pos hp, if_pos hp, Final.foldl (show Final (.ready q (data ++ p)) from trivial)]
      simp
    · rw [if_neg hp, if_neg hp, ih]
      rcases stopAt ps with _ | k <;> simp [List.take_append, List.append_assoc]

/-- A body with a length is read until it has that length. -/
theorem foldl_body {q : Request} (hq : q.reqState = .REQ_BODY) {data : Bytes} {pieces : List Bytes}
    (hdata : data.length < q.contentLength.toNat)
    (hlen : (data ++ pieces.flatten).length = q.contentLength.toNat) :
    pieces.foldl (next q₀) (.body q data) = .ready q (data ++ pieces.flatten) := by
  induction pieces generalizing data with
  | nil =>
    simp only [List.flatten_nil, List.append_nil] at hlen
    omega
  | cons p ps ih =>
    rw [List.flatten_cons, ← List.append_assoc] at hlen
    rw [List.foldl_cons, next, piece, bodyDone_body hq, List.flatten_cons, ← List.append_assoc]
    by_cases hfull : q.contentLength.toNat ≤ (data ++ p).length
    · rw [if_pos (decide_eq_true hfull), Final.foldl (show Final (.ready q (data ++ p)) from trivial)]
      have hnil : ps.flatten = [] := by
        rw [List.length_append] at hlen
        exact List.eq_nil_of_length_eq_zero (by omega)
      rw [hnil, List.append_nil]
    · rw [if_neg (by simpa using hfull)]
      exact ih (by omega) hlen

/-- From the start of a body on, the request stays the same. -/
theorem foldl_body_cases (q : Request) (data : Bytes) (pieces : List Bytes) :
    (∃ d, pieces.foldl (next q₀) (.body q data) = .body q d) ∨
      ∃ d, pieces.foldl (next q₀) (.body q data) = .ready q d := by
  induction pieces generalizing data with
  | nil => exact .inl ⟨data, rfl⟩
  | cons p ps ih =>
    rw [List.foldl_cons, next, piece]
    split
    · exact .inr ⟨_, Final.foldl (show Final (.ready q (data ++ p)) from trivial) ps⟩
    · exact ih _

end Stage

theorem InStage.reading_iff {c : Connection} {w : World} {st : Stage} (h : InStage q₀ c w st) :
    c.state = .READING ↔ ¬ st.Final := by
  cases h with
  | header _ hstate | body _ _ hstate => simp [hstate, Stage.Final]
  | tooLarge hstate | rejected _ hstate | ready _ _ hstate => simp [hstate, Stage.Final]

/-! ### The end of a chunked body -/

theorem stopAt_eq_none_iff {pieces : List Bytes} :
    stopAt pieces = none ↔ ∀ p ∈ pieces, Request.isChunkedDone p = false := by
  induction pieces with
  | nil => exact ⟨fun _ _ hp => (List.not_mem_nil hp).elim, fun _ => rfl⟩
  | cons p ps ih =>
    rw [stopAt, List.forall_mem_cons]
    cases Request.isChunkedDone p with
    | true => exact iff_of_false (by rw [if_pos rfl]; exact Option.some_ne_none _) fun h => nomatch h.1
    | false =>
      rw [if_neg Bool.false_ne_true, Option.map_eq_none_iff, ih]
      exact ⟨fun h => ⟨rfl, h⟩, And.right⟩

theorem stopAt_le {pieces : List Bytes} {k : Nat} (h : stopAt pieces = some k) :
    k ≤ pieces.flatten.length := by
  induction pieces generalizing k with
  | nil => cases h
  | cons p ps ih =>
    rw [stopAt] at h
    rw [List.flatten_cons, List.length_append]
    split at h
    · cases h
      omega
    · obtain ⟨j, hj, rfl⟩ := Option.map_eq_some_iff.1 h
      have := ih hj
      omega

/-- The stage of some segments that start a chunked request. -/
theorem Stage.after_final_iff {R : Bytes} {e : Nat} (hR : R.findSub crlfcrlf = some e)
    (he : e + 4 ≤ MAX_HEADER_SIZE) (hq : (Request.parseBlock (R.take e) q₀).reqState = .REQ_CHUNKED)
    {segs : List Bytes} (hcut : segs.flatten <+: R) (hfill : fill (e + 4) segs ≤ MAX_HEADER_SIZE) :
    (Stage.after q₀ segs).Final ↔ ∃ p ∈ bodyPieces (e + 4) segs, Request.isChunkedDone p = true := by
  obtain ⟨rest, hrest⟩ := hcut
  by_cases hshort : segs.flatten.length < e + 4
  · rw [Stage.after_short hR he hrest hshort, bodyPieces_of_short hshort]
    simp [Stage.Final]
  · have hR' : segs.flatten.findSub crlfcrlf = some e :=
      List.findSub_of_append (hrest ▸ hR) (Nat.not_lt.1 hshort)
    have htake : segs.flatten.take e = R.take e := by
      have hle : e ≤ segs.flatten.length := by omega
      rw [← hrest, List.take_append_of_le_length hle]
    rw [Stage.after_cut hR' he rfl, htake, Stage.ofCut, if_neg (by omega), Stage.ofRequest, hq]
    simp only
    rw [Stage.foldl_chunked hq]
    rcases hstop : stopAt (bodyPieces (e + 4) segs) with _ | k
    · have := stopAt_eq_none_iff.1 hstop
      simpa [Stage.Final] using this
    · refine iff_of_true trivial (by_contra fun hno => ?_)
      have hnone := stopAt_eq_none_iff.2 fun p hp => Bool.eq_false_iff.2 fun hd => hno ⟨p, hp, hd⟩
      rw [hstop] at hnone
      cases hnone

/-- A chunk: its size line is the number of its bytes in hexadecimal. -/
structure Chunk where
  size : Bytes
  data : Bytes
  size_ne_nil : size ≠ []
  hex : ∀ d ∈ size, (hexVal d).isSome
  value : foldDigits 16 hexVal 0 size = data.length
  data_ne_nil : data ≠ []

def Chunk.encode (c : Chunk) : Bytes := c.size ++ crlf ++ c.data ++ crlf

/-- The chunks and the zero-size chunk. -/
def encodeChunks (cs : List Chunk) : Bytes := cs.flatMap Chunk.encode ++ ascii "0\r\n\r\n"

/-- The connection takes in `segs` and waits for more. -/
def StillReading (sys : Sys) (s : Connection × World) (segs : List Bytes) : Prop :=
  ∃ c' w', handleReads sys segs s = (.ok (), c', w') ∧ c'.state = .READING

/-- A header block, up to its first empty line, that announces a chunked body. -/
structure ChunkedHead (q₀ : Request) (H : Bytes) : Prop where
  ends : H.findSub crlfcrlf = some (H.length - 4)
  small : H.length ≤ MAX_HEADER_SIZE
  chunked : (Request.parseBlock (H.take (H.length - 4)) q₀).reqState = .REQ_CHUNKED

theorem ChunkedHead.length {H : Bytes} (h : ChunkedHead q₀ H) : H.length - 4 + 4 = H.length := by
  have : H.length - 4 + crlfcrlf.length ≤ H.length := List.findSub_add_le h.ends
  simp only [crlfcrlf, List.length_cons, List.length_nil] at this
  omega

theorem stillReading_iff {sys : Sys} (hs : sys.NoFail) (fd : Nat) (conf : Option ServerConf) (now : Nat)
    (w : World) {segs : List Bytes} (hne : ∀ s ∈ segs, s ≠ []) :
    StillReading sys (new fd conf now, w) segs ↔
      ¬ (Stage.after (new fd conf now).request segs).Final := by
  obtain ⟨c', w', hrun, hst⟩ := handleReads_stage hs fd conf now w hne
  rw [← hst.reading_iff]
  constructor
  · rintro ⟨c'', w'', hrun', hread⟩
    rw [hrun] at hrun'
    cases hrun'
    exact hread
  · exact fun hread => ⟨c', w', hrun, hread⟩

/-- Until the last segment of a chunked request is in, the connection goes on reading exactly when no
piece of the body but the last holds the five bytes `0 CR LF CR LF`. -/
theorem chunked_stays_reading_iff {sys : Sys} (hs : sys.NoFail) (fd : Nat) (conf : Option ServerConf)
    (now : Nat) (w : World) {H : Bytes} (hH : ChunkedHead (new fd conf now).request H) (cs : List Chunk)
    {segs : List Bytes} (hne : ∀ s ∈ segs, s ≠ []) (hcut : segs.flatten = H ++ encodeChunks cs)
    (hfill : fill H.length segs ≤ MAX_HEADER_SIZE) :
    (∀ n < segs.length, StillReading sys (new fd conf now, w) (segs.take n)) ↔
      ∀ p ∈ (bodyPieces H.length segs).dropLast, ¬ ascii "0\r\n\r\n" <:+: p := by
  have hlen := hH.length
  have hpos : 0 < H.length := by omega
  have hR := List.findSub_append (t := encodeChunks cs) hH.ends
  have htake : (H ++ encodeChunks cs).take (H.length - 4) = H.take (H.length - 4) :=
    List.take_append_of_le_length (Nat.sub_le _ _)
  -- the stage after any first segments
  have hstage {pre more : List Bytes} (hpre : pre ++ more = segs) :
      StillReading sys (new fd conf now, w) pre ↔
        ∀ p ∈ bodyPieces H.length pre, Request.isChunkedDone p = false := by
    have hfill' : fill H.length pre ≤ MAX_HEADER_SIZE := by
      by_cases hshort : pre.flatten.length < H.length
      · rw [fill_of_short hshort]
        exact hshort.le.trans hH.small
      · rwa [← hpre, fill_append (Nat.not_lt.1 hshort) hpos] at hfill
    rw [stillReading_iff hs fd conf now w fun s hm => hne s (hpre ▸ List.mem_append_left more hm),
      Stage.after_final_iff hR (by rw [hlen]; exact hH.small) (by rw [htake]; exact hH.chunked)
        (by rw [← hcut, ← hpre, List.flatten_append]; exact List.prefix_append _ _) (by rwa [hlen]), hlen]
    simp
  have hmark (p : Bytes) : Request.isChunkedDone p = false ↔ ¬ ascii "0\r\n\r\n" <:+: p := by
    rw [← List.findSub_isSome_iff, Bool.not_eq_true, Request.isChunkedDone]
  have hle : H.length ≤ segs.flatten.length := by
    rw [hcut, List.length_append]
    omega
  have hinit (n : Nat) (hn : n < segs.length) : segs.take n <+: segs.dropLast := by
    rw [List.dropLast_eq_take]
    exact List.take_prefix_take_left (by omega)
  rw [dropLast_bodyPieces hle hpos]
  constructor
  · intro hall p hp
    have hsegs : 0 < segs.length := List.length_pos_iff.2 fun hnil => by
      rw [hnil, List.flatten_nil, List.length_nil] at hle
      omega
    have hread := hall (segs.length - 1) (by omega)
    rw [← List.dropLast_eq_take] at hread
    exact (hmark p).1 ((hstage (List.dropLast_append_getLast (List.length_pos_iff.1 hsegs))).1 hread p hp)
  · intro hall n hn
    obtain ⟨more, hmore⟩ := hinit n hn
    refine (hstage (List.take_append_drop n segs)).2 fun p hp => (hmark p).2 (hall p ?_)
    rw [← hmore]
    exact (bodyPieces_mono _ _ _).subset hp

/-- A request line and the header that announces a chunked body. -/
def chunkedHead : Bytes := ascii "POST /up HTTP/1.1\r\nTransfer-Encoding: chunked\r\n\r\n"

theorem chunkedHead_spec : ChunkedHead (new 4 none 0).request chunkedHead :=
  ⟨by decide, by decide, by decide⟩

/-- Sixteen bytes that start with an empty line. -/
def crlfChunk : Chunk where
  size := ascii "10"
  data := crlf ++ ascii "fourteen bytes"
  size_ne_nil := by decide
  hex := by decide +kernel
  value := rfl
  data_ne_nil := by decide

/-- The cut falls behind the size line. -/
theorem chunked_stays_reading_two_segments :
    StillReading Sys.calm (new 4 none 0, {})
      ([chunkedHead ++ ascii "10\r\n", ascii "\r\nfourteen bytes\r\n0\r\n\r\n"].take 1) := by
  have hpieces : (bodyPieces chunkedHead.length
      [chunkedHead ++ ascii "10\r\n", ascii "\r\nfourteen bytes\r\n0\r\n\r\n"]).dropLast =
      [ascii "10\r\n"] := by decide
  refine (chunked_stays_reading_iff Sys.calm_noFail 4 none 0 {} chunkedHead_spec [crlfChunk]
    (by decide) (by decide) (by decide)).2 (fun p hp => ?_) 1 (by decide)
  rw [hpieces, List.mem_singleton] at hp
  rw [hp]
  decide

/-- The size line `10` and the empty line that the data starts with spell the marker. -/
theorem chunked_stops_in_size_line :
    [chunkedHead ++ ascii "10\r\n\r\n", ascii "fourteen bytes\r\n0\r\n\r\n"].flatten =
        chunkedHead ++ encodeChunks [crlfChunk] ∧
      ¬ ∀ n < 2, StillReading Sys.calm (new 4 none 0, {})
        ([chunkedHead ++ ascii "10\r\n\r\n", ascii "fourteen bytes\r\n0\r\n\r\n"].take n) := by
  refine ⟨by decide, fun hall => ?_⟩
  obtain ⟨c', w', hrun, hread⟩ := hall 1 (by decide)
  have hstate : (handleReads Sys.calm [chunkedHead ++ ascii "10\r\n\r\n"] (new 4 none 0, {})).2.1.state =
      .PROCESSING := by decide +kernel
  rw [show [chunkedHead ++ ascii "10\r\n\r\n", ascii "fourteen bytes\r\n0\r\n\r\n"].take 1 =
    [chunkedHead ++ ascii "10\r\n\r\n"] from rfl] at hrun
  rw [hrun, hread] at hstate
  cases hstate

end Connection

end LeftHookRoll
