import LeftHookRoll.ResponseFrame

/-!
# Which handler answers

`Reaches`: a request that is not answered before the handlers. `buildResponse_reached` says which
handler it gets; every other request uses no path but that of an error page (`serves_unreached`).
-/

namespace LeftHookRoll

open Eff

/-- The extension of the path is mapped to an interpreter. -/
def LocationConf.isScript (loc : LocationConf) (path : Bytes) : Prop :=
  getFileExtension path ≠ [] ∧ loc.isCgiExtension (getFileExtension path)

instance (loc : LocationConf) (path : Bytes) : Decidable (loc.isScript path) :=
  inferInstanceAs (Decidable (_ ∧ _))

/-! ### The URL of an accepted request -/

namespace Request

/-- The parser has rejected the request, has not seen a request line, or has set the URL. -/
def UrlSet (q : Request) : Prop :=
  q.reqState = .REQ_ERROR ∨ q.methodName = .UNKNOWN_METHOD ∨ q.URL.head? = some slash

variable {q : Request}

theorem urlSet_fail (q : Request) (code : Bytes) : (q.fail code).UrlSet := .inl rfl

theorem extractQueryFromURL_head (h : q.URL.head? = some slash) :
    q.extractQueryFromURL.URL.head? = some slash := by
  rw [extractQueryFromURL]
  split
  · rename_i pos hpos
    rcases hu : q.URL with _ | ⟨c, url⟩
    · rw [hu] at h; cases h
    rw [hu] at h hpos
    obtain rfl := Option.some.inj h
    rcases pos with _ | pos
    · simp [slash, List.idxOf?_cons] at hpos
    · rfl
  · exact h

theorem UrlSet.parseRequestLine (line : Bytes) (q : Request) : (parseRequestLine line q).UrlSet := by
  rw [Request.parseRequestLine]
  split
  · exact urlSet_fail _ _
  rename_i firstSpace _
  simp only
  split
  · exact urlSet_fail _ _
  split
  · split
    · exact urlSet_fail _ _
    · rename_i hurl
      exact .inr (.inr (extractQueryFromURL_head (not_not.1 hurl)))
  · split
    · exact urlSet_fail _ _
    split
    · exact urlSet_fail _ _
    · rename_i hurl
      exact .inr (.inr (extractQueryFromURL_head (not_not.1 hurl)))

theorem UrlSet.parseHeaderLine (h : q.UrlSet) (line : Bytes) : (parseHeaderLine line q).UrlSet := by
  rw [Request.parseHeaderLine]
  split
  · exact h
  · simp only
    split
    · exact h
    · exact h

theorem UrlSet.parseLines (h : q.UrlSet) (lines : List Bytes) (firstLine : Bool) :
    (parseLines lines firstLine q).UrlSet := by
  induction lines generalizing firstLine q with
  | nil => exact h
  | cons line rest ih =>
    rw [Request.parseLines]
    split_ifs
    · exact ih h firstLine
    · exact ih (.parseRequestLine line q) false
    · exact ih (h.parseHeaderLine line) firstLine

theorem UrlSet.typeOfReq (h : q.UrlSet) (hstate : q.reqState ≠ .REQ_ERROR) : q.typeOfReq.UrlSet := by
  have hset := h.resolve_left hstate
  rw [Request.typeOfReq]
  simp only
  split_ifs
  all_goals first | exact urlSet_fail _ _ | exact .inr hset

theorem UrlSet.parseBlock (h : q.UrlSet) (block : Bytes) : (parseBlock block q).UrlSet := by
  have hlines := UrlSet.parseLines (show UrlSet { q with cookies := ∅ } from h) (headerLines block) true
  have htype : UrlSet (if (Request.parseLines (headerLines block) true { q with cookies := ∅ }).reqState ≠
      .REQ_ERROR then (Request.parseLines (headerLines block) true { q with cookies := ∅ }).typeOfReq
      else Request.parseLines (headerLines block) true { q with cookies := ∅ }) := by
    split_ifs with hstate
    · exact hlines.typeOfReq hstate
    · exact hlines
  rw [Request.parseBlock]
  split
  · exact htype
  · exact htype

/-- `parseHeaders` accepts a request with the method and the URL of `q`. -/
def Accepted (q : Request) : Prop :=
  ∃ (raw : Bytes) (maxBodySize : Nat) (q' : Request) (n : Nat),
    parseHeaders raw { maxBodySize := maxBodySize } = (n, q') ∧ 0 < n ∧ q'.reqState ≠ .REQ_ERROR ∧
      q'.URL = q.URL ∧ q'.methodName = q.methodName

theorem Accepted.url (h : q.Accepted) (hm : q.methodName ≠ .UNKNOWN_METHOD) : q.URL.head? = some slash := by
  obtain ⟨raw, maxBodySize, q', n, hparse, hn, hstate, hurl, hmethod⟩ := h
  rw [parseHeaders] at hparse
  split at hparse
  · cases hparse
    exact absurd hn (lt_irrefl 0)
  · rename_i headerEnd _
    cases hparse
    have hset := UrlSet.parseBlock (show UrlSet { maxBodySize := maxBodySize } from .inr (.inl rfl))
      (raw.take headerEnd)
    rw [← hurl]
    exact (hset.resolve_left hstate).resolve_left (hmethod ▸ hm)

end Request

namespace Response

/-- The request is not rejected, its location allows the method and does not redirect. -/
structure Reaches (config : ServerConf) (loc : LocationConf) (req : Request) : Prop where
  statusCode : req.statusCode = ascii "200"
  location : matchLocation req.URL config = some loc
  allowed : loc.isMethodAllowed req.methodName = true
  returnCode : loc.returnCode = []

/-- `UNKNOWN_METHOD` is in no set of allowed methods. -/
theorem Reaches.known {config : ServerConf} {loc : LocationConf} {req : Request}
    (h : Reaches config loc req) : req.methodName ≠ .UNKNOWN_METHOD := by
  intro hm
  have := h.allowed
  rw [hm, LocationConf.isMethodAllowed, AllowedMethods.isAllowed, HTTPMethod.bit, Nat.and_zero] at this
  exact absurd this (by decide)

/-- No response is under way. -/
def Idle (r : Response) : Prop := r.buildPhase ≠ .BUILD_POST_WRITING ∧ r.buildPhase ≠ .BUILD_CGI_RUNNING

/-- The handler for a method, when the URL names no script. -/
def handleMethod (sys : Sys) (req : Request) (loc : LocationConf) (config : ServerConf) :
    Method Exchange Bool :=
  match req.methodName with
  | .GET => do
    onRes (handleGet sys req loc config)
    return true
  | .POST => handlePost sys loc config
  | .DELETE => do
    onRes (handleDelete sys req loc config)
    return true
  | .UNKNOWN_METHOD => do
    onRes (buildErrorPage sys (ascii "501") config)
    return true

variable {sys : Sys} {config : ServerConf} {loc : LocationConf} {req : Request} {r : Response} {w : World}

theorem buildResponse_reached (h : Reaches config loc req) (hr : Idle r) (w : World) :
    buildResponse sys config ((req, r), w) =
      (if loc.isScript req.URL then handleCGI sys loc config else handleMethod sys req loc config)
        ((req, { r with cachedConfig := some config }), w) := by
  obtain ⟨hpost, hcgi⟩ := hr
  rw [buildResponse, Eff.obj_bind]
  simp only [hpost, hcgi, if_false]
  rw [Eff.bind_ok (show onRes (modObj fun r => { r with cachedConfig := some config }) ((req, r), w) =
    (.ok (), (req, { r with cachedConfig := some config }), w) from rfl)]
  simp only [h.statusCode, h.location, h.allowed, h.returnCode, ne_eq, not_true_eq_false, if_false]
  rfl

theorem builds_buildRedirect {P : Call → Prop} (loc : LocationConf) : Moves (Builds P) (buildRedirect sys loc) := by
  have hend : Moves (Builds P) (do
      modObj (addHeader (ascii "Content-Length") (ascii "0"))
      addDateClose sys
      modObj startHead : Method Response Unit) :=
    builds_endHead sys fun _ => (sameButHeaders_addHeader _ _ _).noScript
  refine Moves.bind (builds_modObj fun _ => ⟨rfl, id⟩) fun _ => Moves.ite (fun _ => ?_) fun _ => hend
  exact Moves.bind (builds_modObj fun _ => (sameButHeaders_addHeader _ _ _).noScript) fun _ => hend

/-- A request that reaches no handler. -/
theorem serves_unreached {P : Call → Prop} (herr : ∀ p, P (.errorPage p)) (h : ∀ loc, ¬ Reaches config loc req)
    (hr : Idle r) (w : World) : Serves P ((req, r), w) (buildResponse sys config ((req, r), w)).2 := by
  obtain ⟨hpost, hcgi⟩ := hr
  have herror (code : Bytes) := serves_errorPage sys herr code config true
  rw [buildResponse, Eff.obj_bind]
  simp only [hpost, hcgi, if_false]
  refine Moves.bind (serves_onRes (builds_modObj fun _ => ?_)) (fun _ => ?_) ((req, r), w)
  · exact ⟨rfl, id⟩
  refine Moves.ite (fun _ => herror _) fun hstatus => ?_
  rcases hloc : matchLocation req.URL config with _ | loc
  · exact herror _
  refine Moves.ite (fun _ => herror _) fun hallowed => Moves.ite (fun _ => ?_) fun hreturn => ?_
  · exact (serves_onRes (builds_buildRedirect loc)).bind fun _ => Moves.pure _
  · exact absurd ⟨not_not.1 hstatus, hloc, not_not.1 hallowed, not_not.1 hreturn⟩ (h loc)

/-- The path that is looked up starts with the root, so that the check on it is always passed. -/
theorem isPathSafe_append (root : Bytes) {url : Bytes} (hurl : url ≠ []) :
    isPathSafe root (stripSlash (root ++ url)) = true := by
  have hstrip : ∃ u, stripSlash (root ++ url) = root ++ u := by
    rw [stripSlash]
    split
    · exact ⟨url.dropLast, List.dropLast_append_of_ne_nil hurl⟩
    · exact ⟨url, rfl⟩
  obtain ⟨u, hu⟩ := hstrip
  rw [hu, isPathSafe, if_neg (by rw [List.length_append]; omega), List.take_left]
  exact decide_eq_true rfl

/-- `isPathSafe` never rejects a GET. -/
theorem handleGet_eq (hurl : req.URL ≠ []) (config : ServerConf) (r : Response) (w : World) :
    handleGet sys req loc config (r, w) =
      serveResolved sys req loc config (stripSlash (loc.root ++ req.URL))
        (sys.stat w.tick (cstr (stripSlash (loc.root ++ req.URL))))
        (addCookie req r, lookedUp (stripSlash (loc.root ++ req.URL)) w) := by
  rw [handleGet, Eff.modObj_bind]
  simp only [isPathSafe_append loc.root hurl, not_true_eq_false, if_false]
  rw [Eff.bind_ok (sysStat_eq sys _ _ w)]

/-! ### How an error page ends -/

/-- The page and the headers may change. -/
def Fills (s s' : Response × World) : Prop :=
  s'.1 = { s.1 with
    responseDataStore := s'.1.responseDataStore, headers := s'.1.headers, setCookies := s'.1.setCookies
    headerBuffer := s'.1.headerBuffer, responseState := s'.1.responseState }

instance : IsPreorder (Response × World) Fills where
  refl _ := rfl
  trans s t u h h' := by
    rw [Fills] at h h' ⊢
    rw [h', h]

section Fills

variable (sys)

theorem fills_sysTick : Moves Fills (sysTick : Method Response Nat) := fun _ => rfl

theorem fills_onStore {α : Type} (m : Method DataStore α) : Moves Fills (onStore m) := fun _ => rfl

theorem fills_finalizeSuccess (contentType : Bytes) : Moves Fills (finalizeSuccess sys contentType) := by
  intro s
  obtain ⟨r', hrun, hr'⟩ := finalizeSuccess_eq sys contentType s.1 s.2
  rw [SameButHeaders] at hr'
  rw [Fills, hrun, hr']
  rfl

theorem fills_appendPage (content : Bytes) : Moves Fills (appendPage sys content) := by
  induction content using appendPage.induct with
  | case1 content ih =>
    rw [appendPage]
    refine fills_sysTick.bind fun t => ?_
    rcases sys.readFile t 4096 with _ | k
    · exact Moves.pure _
    simp only
    split
    · exact Moves.pure _
    · rename_i hgot
      exact (fills_onStore _).bind fun _ => ih k hgot

theorem fills_openErrorPage (customPath : Bytes) : Moves Fills (openErrorPage sys customPath) :=
  Moves.ite (fun _ => Moves.pure _) fun _ => Moves.bind (fun _ => rfl) fun _ => fills_sysTick.bind fun _ => Moves.pure _

end Fills

/-- What is left of the response when an error page is built, or its building has failed. -/
theorem buildErrorPage_fills (sys : Sys) (code : Bytes) (config : ServerConf) (s : Response × World) :
    Fills (resetForError code s.1, s.2) (buildErrorPage sys code config s).2 := by
  obtain ⟨r, w⟩ := s
  rw [buildErrorPage, Eff.bind_ok (onStore_eq (DataStore.clear_eq)), Eff.modObj_bind]
  refine ((fills_openErrorPage sys _).bind fun page => Moves.bind ?_ fun _ => fills_finalizeSuccess sys _)
    (resetForError code { r with responseDataStore := _ }, _)
  rcases page with _ | content
  · exact fills_onStore _
  · exact fills_appendPage sys content

/-- An error page with this code; no file is being sent. -/
def ErrorShown (code : Bytes) (s : Response × World) : Prop := s.1.fileFd = none ∧ s.1.statusCode = code

theorem buildErrorPage_shown (sys : Sys) (code : Bytes) (config : ServerConf) (s : Response × World) :
    ErrorShown code (buildErrorPage sys code config s).2 := by
  have hfills := buildErrorPage_fills sys code config s
  rw [Fills] at hfills
  rw [ErrorShown, hfills]
  exact ⟨rfl, rfl⟩

end Response

end LeftHookRoll
