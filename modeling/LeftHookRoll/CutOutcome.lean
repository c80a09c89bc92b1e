import LeftHookRoll.Segmentation

/-!
# Two cuts of one request

`endOf` is how the run of a new connection ends that gets the segments of a cut. `cuts_agree_iff` says
when two cuts of one request end alike: what is in the header buffer when the headers are complete must
be too much for both or for neither, and a chunked body must be taken to end at the same place.
-/

namespace LeftHookRoll

open Eff

namespace Connection

variable {q₀ : Request}

/-- A line with the size `n`, and perhaps extensions. -/
def SizeLine (line : Bytes) (n : Nat) : Prop :=
  ∃ digits ext, line = digits ++ ext ∧ digits ≠ [] ∧ (∀ d ∈ digits, (hexVal d).isSome) ∧
    foldDigits 16 hexVal 0 digits = n ∧ (ext = [] ∨ ext.head? = some 59) ∧ ¬ crlf <:+: line

/-- A chunked body: chunks, a last chunk of size zero, trailer lines and an empty line. -/
inductive ChunkedBody : Bytes → Prop
  | last {line : Bytes} {trailer : List Bytes} (hline : SizeLine line 0)
      (ht : ∀ t ∈ trailer, t ≠ [] ∧ ¬ crlf <:+: t) :
      ChunkedBody (line ++ crlf ++ trailer.flatMap (· ++ crlf) ++ crlf)
  | chunk {line data rest : Bytes} (hline : SizeLine line data.length) (hne : data ≠ [])
      (hrest : ChunkedBody rest) : ChunkedBody (line ++ crlf ++ data ++ crlf ++ rest)

/-- `body` is what the headers of `q` announce; headers that are rejected may announce anything. -/
def Announced (q : Request) (body : Bytes) : Prop :=
  match q.reqState with
  | .REQ_BODY => body.length = q.contentLength.toNat
  | .REQ_CHUNKED => ChunkedBody body
  | .REQ_DONE | .REQ_HEADERS => body = []
  | .REQ_ERROR => True

/-- One complete request: a header block up to its first empty line, and the body it announces. -/
structure CompleteRequest (q₀ : Request) (H body : Bytes) : Prop where
  ends : H.findSub crlfcrlf = some (H.length - 4)
  small : H.length ≤ MAX_HEADER_SIZE
  body : Announced (Request.parseBlock (H.take (H.length - 4)) q₀) body

/-- `segs` is `R`, cut into what `recv` can give. -/
structure IsCut (R : Bytes) (segs : List Bytes) : Prop where
  flatten : segs.flatten = R
  ne_nil : ∀ s ∈ segs, s ≠ []
  small : ∀ s ∈ segs, s.length ≤ MAX_HEADER_SIZE

/-- What the end of a run is compared by. -/
structure Outcome where
  state : ConnectionState
  status : Option Bytes
  methodName : HTTPMethod
  URL : Bytes
  query : Bytes
  headers : StrMap
  body : Bytes
deriving DecidableEq

def outcomeOf (state : ConnectionState) (status : Option Bytes) (q : Request) (body : Bytes) : Outcome :=
  ⟨state, status, q.methodName, q.URL, q.query, q.headers, body⟩

/-- The content of a store. -/
def content (d : DataStore) : Bytes := if d.mode = .RAM then d.dataBuffer else d.file

/-- The state, the error status if there is one, and the request as far as it is read. -/
def outcome (c : Connection) : Outcome :=
  outcomeOf c.state (if c.state = .WRITING then some c.response.statusCode else none) c.request
    (content c.request.body)

/-- How the run of a new connection ends that gets `segs`. -/
def endOf (sys : Sys) (segs : List Bytes) (s : Connection × World) : Except Exn Outcome :=
  match handleReads sys segs s with
  | (.ok _, c, _) => .ok (outcome c)
  | (.error e, _) => .error e

def Stage.outcome (q₀ : Request) : Stage → Outcome
  | .header _ => outcomeOf .READING none q₀ []
  | .tooLarge => outcomeOf .WRITING (some (ascii "431")) q₀ []
  | .rejected q => outcomeOf .WRITING (some (decimalInt (atoi q.statusCode))) q []
  | .body q data => outcomeOf .READING none q data
  | .ready q data => outcomeOf .PROCESSING none q data

theorem content_of_holds {d : DataStore} {w : World} {data : Bytes} (h : d.Holds w data) :
    content d = data := by
  rcases d.mode_cases with hm | hm
  · rw [content, if_pos hm, (h.ram hm).1]
  · rw [content, if_neg (by simp [hm]), (h.file hm).2.1]

theorem InStage.outcome_eq (hq₀ : Unread q₀) {c : Connection} {w : World} {st : Stage}
    (h : InStage q₀ c w st) : outcome c = st.outcome q₀ := by
  have hnone : content q₀.body = [] := by rw [hq₀.body]; rfl
  cases h with
  | header got hstate _ hreq =>
    rw [outcome, hstate, hreq, hnone]
    rfl
  | tooLarge hstate hreq hcode =>
    rw [outcome, hstate, hreq, hcode, hnone]
    rfl
  | rejected q hstate hreq hq hcode =>
    rw [outcome, hstate, hreq, hcode, hq, hnone]
    rfl
  | body q data hstate _ hreq hbody =>
    rw [outcome, hstate, content_of_holds hbody, hreq]
    rfl
  | ready q data hstate hreq hbody =>
    rw [outcome, hstate, content_of_holds hbody, hreq]
    rfl

theorem endOf_eq {sys : Sys} (hs : sys.NoFail) (fd : Nat) (conf : Option ServerConf) (now : Nat)
    (w : World) {segs : List Bytes} (hne : ∀ s ∈ segs, s ≠ []) :
    endOf sys segs (new fd conf now, w) = .ok ((Stage.after (new fd conf now).request segs).outcome
      (new fd conf now).request) := by
  obtain ⟨c', w', hrun, hst⟩ := handleReads_stage hs fd conf now w hne
  rw [endOf, hrun, ← hst.outcome_eq (new_unread fd conf now)]

/-- A header block that fits the buffer is not answered like one that does not. -/
theorem Stage.ofRequest_outcome_ne {q : Request} (hq : Request.Parsing q₀ q) (pieces : List Bytes) :
    (Stage.ofRequest q₀ q pieces).outcome q₀ ≠ Stage.tooLarge.outcome q₀ := by
  have hcodes : ∀ code ∈ Request.parseErrorCodes, decimalInt (atoi code) ≠ ascii "431" := by decide
  have hbody : (pieces.foldl (Stage.next q₀) (.body q [])).outcome q₀ ≠ Stage.tooLarge.outcome q₀ := by
    rcases @Stage.foldl_body_cases q₀ q [] pieces with ⟨d, hd⟩ | ⟨d, hd⟩ <;> rw [hd] <;>
      exact fun he => by cases congrArg Outcome.state he
  intro he
  rw [Stage.ofRequest] at he
  cases hst : q.reqState <;> rw [hst] at he
  case REQ_ERROR => exact hcodes _ (hq.coded hst) (Option.some.inj (congrArg Outcome.status he))
  case REQ_DONE => cases congrArg Outcome.state he
  case REQ_HEADERS | REQ_BODY | REQ_CHUNKED => exact hbody he

/-- The place where a chunked body is taken to end can be told from how the run ends. -/
theorem Stage.chunked_outcome_iff {q : Request} (hq : q.reqState = .REQ_CHUNKED)
    {body : Bytes} {pieces pieces' : List Bytes} (hp : pieces.flatten = body)
    (hp' : pieces'.flatten = body) :
    (pieces.foldl (Stage.next q₀) (.body q [])).outcome q₀ =
        (pieces'.foldl (Stage.next q₀) (.body q [])).outcome q₀ ↔ stopAt pieces = stopAt pieces' := by
  rw [Stage.foldl_chunked hq, Stage.foldl_chunked hq, hp, hp', List.nil_append]
  rcases hk : stopAt pieces with _ | k <;> rcases hk' : stopAt pieces' with _ | k'
  · simp
  · exact iff_of_false (fun he => nomatch congrArg Outcome.state he) (nomatch ·)
  · exact iff_of_false (fun he => nomatch congrArg Outcome.state he) (nomatch ·)
  · refine ⟨fun he => ?_, fun he => by cases he; rfl⟩
    have hlen := congrArg (List.length ∘ Outcome.body) he
    have hle := hp ▸ stopAt_le hk
    have hle' := hp' ▸ stopAt_le hk'
    have : (body.take k).length = (body.take k').length := hlen
    rw [List.length_take_of_le hle, List.length_take_of_le hle'] at this
    rw [this]

/-- Two cuts of a complete request end alike exactly when the header buffer overflows for both or for
neither, and, if it does not and the body is chunked, the first pieces that hold `0 CR LF CR LF` end at
the same place (or no piece holds it in either). -/
theorem cuts_agree_iff {sys : Sys} (hs : sys.NoFail) (fd : Nat) (conf : Option ServerConf) (now : Nat)
    (w : World) {H body : Bytes} (hR : CompleteRequest (new fd conf now).request H body)
    {segs segs' : List Bytes} (hc : IsCut (H ++ body) segs) (hc' : IsCut (H ++ body) segs') :
    endOf sys segs (new fd conf now, w) = endOf sys segs' (new fd conf now, w) ↔
      (MAX_HEADER_SIZE < fill H.length segs ↔ MAX_HEADER_SIZE < fill H.length segs') ∧
      (fill H.length segs ≤ MAX_HEADER_SIZE →
        (Request.parseBlock (H.take (H.length - 4)) (new fd conf now).request).reqState = .REQ_CHUNKED →
        stopAt (bodyPieces H.length segs) = stopAt (bodyPieces H.length segs')) := by
  have hq₀ := new_unread fd conf now
  rw [endOf_eq hs fd conf now w hc.ne_nil, endOf_eq hs fd conf now w hc'.ne_nil, Except.ok.injEq]
  generalize (new fd conf now).request = q₀ at *
  have hlen : H.length - 4 + 4 = H.length := by
    have : H.length - 4 + crlfcrlf.length ≤ H.length := List.findSub_add_le hR.ends
    simp only [crlfcrlf, List.length_cons, List.length_nil] at this
    omega
  have hfind := List.findSub_append (t := body) hR.ends
  have htake : (H ++ body).take (H.length - 4) = H.take (H.length - 4) :=
    List.take_append_of_le_length (Nat.sub_le _ _)
  have hsmall : H.length - 4 + 4 ≤ MAX_HEADER_SIZE := hlen ▸ hR.small
  have hpieces {t : List Bytes} (ht : IsCut (H ++ body) t) : (bodyPieces H.length t).flatten = body := by
    rw [flatten_bodyPieces (by rw [ht.flatten, List.length_append]; omega), ht.flatten,
      List.drop_left]
  rw [Stage.after_cut hfind hsmall hc.flatten, Stage.after_cut hfind hsmall hc'.flatten, htake, hlen]
  have hspec := Request.parseBlock_spec (H.take (H.length - 4)) (show q₀.reqState ≠ .REQ_ERROR by simp [hq₀.state])
  have hbody := hR.body
  obtain ⟨q, hq⟩ : ∃ q, q = Request.parseBlock (H.take (H.length - 4)) q₀ := ⟨_, rfl⟩
  rw [Stage.ofCut, Stage.ofCut]
  rw [← hq] at hspec hbody ⊢
  by_cases hbig : MAX_HEADER_SIZE < fill H.length segs <;>
    by_cases hbig' : MAX_HEADER_SIZE < fill H.length segs'
  · rw [if_pos hbig, if_pos hbig']
    exact iff_of_true rfl ⟨iff_of_true hbig hbig', fun h => absurd hbig (Nat.not_lt.2 h)⟩
  · rw [if_pos hbig, if_neg hbig']
    exact iff_of_false (Stage.ofRequest_outcome_ne hspec.1 _).symm fun h => hbig' (h.1.1 hbig)
  · rw [if_neg hbig, if_pos hbig']
    exact iff_of_false (Stage.ofRequest_outcome_ne hspec.1 _) fun h => hbig (h.1.2 hbig')
  rw [if_neg hbig, if_neg hbig', Stage.ofRequest, Stage.ofRequest]
  have hsame : MAX_HEADER_SIZE < fill H.length segs ↔ MAX_HEADER_SIZE < fill H.length segs' :=
    iff_of_false hbig hbig'
  rw [Announced] at hbody
  cases hst : q.reqState <;> rw [hst] at hbody
  case REQ_HEADERS => exact absurd hst hspec.2.state
  case REQ_ERROR | REQ_DONE => exact iff_of_true rfl ⟨hsame, fun _ h => by cases h⟩
  case REQ_BODY =>
    have hlen0 : ([] : Bytes).length < q.contentLength.toNat := by
      have := hspec.2.length hst
      rw [List.length_nil]
      omega
    refine iff_of_true ?_ ⟨hsame, fun _ h => by cases h⟩
    simp only
    rw [Stage.foldl_body hst hlen0 (by rw [List.nil_append, hpieces hc, hbody]),
      Stage.foldl_body hst hlen0 (by rw [List.nil_append, hpieces hc', hbody]), hpieces hc, hpieces hc']
  case REQ_CHUNKED =>
    exact (Stage.chunked_outcome_iff hst (hpieces hc) (hpieces hc')).trans
      ⟨fun h => ⟨hsame, fun _ _ => h⟩, fun h => h.2 (Nat.not_lt.1 hbig) rfl⟩

theorem isCut_of_decide {R : Bytes} {segs : List Bytes}
    (h : segs.flatten = R ∧ ∀ s ∈ segs, s ≠ [] ∧ s.length ≤ MAX_HEADER_SIZE) : IsCut R segs :=
  ⟨h.1, fun s hs => (h.2 s hs).1, fun s hs => (h.2 s hs).2⟩

/-- The shortest chunked body. -/
def lastChunk : Bytes := ascii "0\r\n\r\n"

theorem lastChunk_chunkedBody : ChunkedBody lastChunk :=
  @ChunkedBody.last (ascii "0") []
    ⟨ascii "0", [], rfl, by decide, by decide +kernel, rfl, .inl rfl, by decide⟩ (by simp)

theorem chunkedRequest_complete : CompleteRequest (new 4 none 0).request chunkedHead lastChunk :=
  ⟨chunkedHead_spec.ends, chunkedHead_spec.small, by
    rw [Announced, chunkedHead_spec.chunked]
    exact lastChunk_chunkedBody⟩

theorem cuts_agree_after_headers :
    endOf Sys.calm [chunkedHead ++ lastChunk] (new 4 none 0, {}) =
      endOf Sys.calm [chunkedHead, lastChunk] (new 4 none 0, {}) :=
  (cuts_agree_iff Sys.calm_noFail 4 none 0 {} chunkedRequest_complete
    (isCut_of_decide (by decide)) (isCut_of_decide (by decide))).2
    ⟨by decide, fun _ _ => by decide⟩

/-- A cut inside the last chunk leaves the connection waiting. -/
theorem cuts_disagree_inside_marker :
    CompleteRequest (new 4 none 0).request chunkedHead lastChunk ∧
      ¬ ∀ segs segs', IsCut (chunkedHead ++ lastChunk) segs → IsCut (chunkedHead ++ lastChunk) segs' →
        endOf Sys.calm segs (new 4 none 0, {}) = endOf Sys.calm segs' (new 4 none 0, {}) := by
  refine ⟨chunkedRequest_complete, fun hall => ?_⟩
  have he := hall [chunkedHead ++ lastChunk] [chunkedHead ++ ascii "0\r\n\r", ascii "\n"]
    (isCut_of_decide (by decide)) (isCut_of_decide (by decide))
  have hstates : (endOf Sys.calm [chunkedHead ++ lastChunk] (new 4 none 0, {})).toOption.map Outcome.state ≠
      (endOf Sys.calm [chunkedHead ++ ascii "0\r\n\r", ascii "\n"] (new 4 none 0, {})).toOption.map
        Outcome.state := by
    decide +kernel
  exact hstates (congrArg (fun r => r.toOption.map Outcome.state) he)

end Connection

end LeftHookRoll
