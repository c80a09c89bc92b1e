import LeftHookRoll.CgiOutput
import LeftHookRoll.Exceptions
import LeftHookRoll.Handlers
import LeftHookRoll.Lib.Triple
import LeftHookRoll.SendFile
import LeftHookRoll.StaticScript

/-!
# The length that a header block announces

`Announces`: the header block is the serialization of what the response holds, and its one Content-Length
is the number of body bytes still to be sent. Every way to build an answer ends in such a response.
-/

namespace LeftHookRoll

open Eff

/-- No other name than `Content-Length` itself is one in another letter case. -/
def OneLength (headers : StrMap) : Prop :=
  ∀ e ∈ headers.entries, lowercase e.1 = ascii "content-length" → e.1 = ascii "Content-Length"

theorem OneLength.insert {headers : StrMap} (h : OneLength headers) {key : Bytes}
    (hkey : lowercase key = ascii "content-length" → key = ascii "Content-Length") (value : Bytes) :
    OneLength (headers.insert key value) := by
  intro e he
  rcases OrdMap.mem_entries_insert he with rfl | he
  · exact hkey
  · exact h e he

namespace Response

variable {sys : Sys} {config : ServerConf} {r : Response}

/-- The body bytes that are still to be sent of an answer of which nothing is sent. -/
def bodyLeft (r : Response) : Nat :=
  match r.fileFd with
  | some content => content.length
  | none => r.responseDataStore.getSize

structure Announces (r : Response) : Prop where
  block : r.headerBuffer = r.generateHeaderString
  once : r.headers.entries.filter (fun e => lowercase e.1 = ascii "content-length") =
    [(ascii "Content-Length", decimal (bodyLeft r))]

/-- No file is being sent, and Content-Length has one name. -/
structure Headed (r : Response) : Prop where
  noFile : r.fileFd = none
  one : OneLength r.headers

/-- Nothing is built yet, and no header was set. -/
structure Bare (r : Response) : Prop where
  headers : r.headers = ∅
  block : r.headerBuffer = []
  noFile : r.fileFd = none

theorem Bare.headed (h : Bare r) : Headed r := by
  refine ⟨h.noFile, fun e he => ?_⟩
  rw [h.headers] at he
  exact absurd he List.not_mem_nil

/-- A response that is still being built; only a script that runs may write to the store. -/
structure Unbuilt (r : Response) : Prop extends Bare r where
  store : r.buildPhase ≠ .BUILD_CGI_RUNNING → r.responseDataStore.getSize = 0
  config : r.buildPhase = .BUILD_POST_WRITING → r.cachedConfig ≠ none

theorem once_of {headers : StrMap} (h : OneLength headers) {value : Bytes}
    (hfind : headers.find? (ascii "Content-Length") = some value) :
    headers.entries.filter (fun e => lowercase e.1 = ascii "content-length") = [(ascii "Content-Length", value)] := by
  have hmem := OrdMap.mem_entries_of_find? hfind
  have hlower : lowercase (ascii "Content-Length") = ascii "content-length" := by decide
  have hiff (e : Bytes × Bytes) : e ∈ headers.entries.filter (fun e => lowercase e.1 = ascii "content-length") ↔
      e = (ascii "Content-Length", value) := by
    rw [List.mem_filter, decide_eq_true_eq]
    constructor
    · rintro ⟨he, hlow⟩
      have hname := h e he hlow
      have := OrdMap.find?_of_mem_entries he
      rw [hname, hfind] at this
      exact Prod.ext hname (Option.some.inj this).symm
    · rintro rfl
      exact ⟨hmem, hlower⟩
  have hnodup : (headers.entries.filter (fun e => lowercase e.1 = ascii "content-length")).Nodup := by
    refine List.Pairwise.filter _ (headers.sorted.imp ?_)
    rintro a b hlt rfl
    exact List.lt_irrefl _ hlt
  exact List.perm_singleton.1 ((List.perm_ext_iff_of_nodup hnodup (List.nodup_singleton _)).2 fun e =>
    (hiff e).trans List.mem_singleton.symm)

/-! ### The end of an answer -/

theorem Announces.one (h : Announces r) : OneLength r.headers := by
  intro e he hlow
  have hmem : e ∈ r.headers.entries.filter (fun e => lowercase e.1 = ascii "content-length") :=
    List.mem_filter.2 ⟨he, decide_eq_true hlow⟩
  rw [h.once, List.mem_singleton] at hmem
  exact congrArg Prod.fst hmem

/-- Any header but a Content-Length leaves the announced length as it is. -/
theorem Announces.addHeader (h : Announces r) {key : Bytes} (hcookie : isSetCookieHeader key = false)
    (hkey : lowercase key ≠ ascii "content-length") (value : Bytes) : Announces (addHeader key value r) := by
  have hne : r.headerBuffer ≠ [] := h.block ▸ generateHeaderString_ne_nil r
  have hheaders := addHeader_headers hcookie value r
  have hblock : (Response.addHeader key value r).headerBuffer = (Response.addHeader key value r).generateHeaderString := by
    unfold Response.addHeader
    simp only [hcookie, Bool.false_eq_true, if_false]
    rw [if_pos hne]
    rfl
  have hone : OneLength (r.headers.insert key value) := h.one.insert (fun heq => absurd heq hkey) value
  have hleft : bodyLeft (Response.addHeader key value r) = bodyLeft r := by
    rw [sameButHeaders_addHeader key value r]
    rfl
  have hmem : (ascii "Content-Length", decimal (bodyLeft r)) ∈
      r.headers.entries.filter (fun e => lowercase e.1 = ascii "content-length") := by
    rw [h.once]
    exact List.mem_singleton_self _
  have hother : ascii "Content-Length" ≠ key := by
    rintro rfl
    exact hkey (by decide)
  refine ⟨hblock, once_of (hheaders ▸ hone) ?_⟩
  rw [hheaders, OrdMap.find?_insert_of_ne _ hother, hleft]
  exact OrdMap.find?_of_mem_entries (List.mem_filter.1 hmem).1

/-- The end of every answer: the date, the connection header, the block. -/
theorem announces_dated {date : Bytes} (hone : OneLength r.headers)
    (hfind : r.headers.find? (ascii "Content-Length") = some (decimal (bodyLeft r))) : Announces (startHead (dated date r)) := by
  have hheaders := dated_headers date r
  have hone' : OneLength (dated date r).headers := by
    rw [hheaders]
    exact (hone.insert (by decide) _).insert (by decide) _
  have hleft : bodyLeft (startHead (dated date r)) = bodyLeft r := by
    rw [sameButHeaders_dated date r]
    rfl
  refine ⟨rfl, once_of hone' ?_⟩
  rw [hleft]
  show (dated date r).headers.find? _ = _
  rw [hheaders, OrdMap.find?_insert_of_ne _ (by decide), OrdMap.find?_insert_of_ne _ (by decide), hfind]

/-- An answer whose body is in the store. -/
theorem announces_finished {date contentType : Bytes} (h : Headed r) :
    Announces (finished date contentType r) ∧ Headed (finished date contentType r) := by
  obtain ⟨r₁, hr₁⟩ : ∃ r₁, r₁ = addHeader (ascii "Content-Length") (decimal r.responseDataStore.getSize)
    (addHeader (ascii "Content-Type") contentType r) := ⟨_, rfl⟩
  have hsame : SameButHeaders r r₁ := by
    rw [hr₁]
    exact (sameButHeaders_addHeader _ _ _).trans (sameButHeaders_addHeader _ _ _)
  have hheaders : r₁.headers = (r.headers.insert (ascii "Content-Type") contentType).insert (ascii "Content-Length")
      (decimal r.responseDataStore.getSize) := by
    rw [hr₁, addHeader_headers (by decide), addHeader_headers (by decide)]
  have hleft : bodyLeft r₁ = r.responseDataStore.getSize := by
    rw [bodyLeft, hsame, h.noFile]
  have hfinished : finished date contentType r = startHead (dated date r₁) := by rw [hr₁]; rfl
  have hannounces : Announces (finished date contentType r) := by
    rw [hfinished]
    refine announces_dated ?_ ?_
    · rw [hheaders]
      exact (h.one.insert (by decide) _).insert (by decide) _
    · rw [hheaders, hleft]
      exact OrdMap.find?_insert_self _ _ _
  refine ⟨hannounces, ?_, hannounces.one⟩
  rw [finished_eq]
  exact h.noFile

abbrev HeadedIn (s : Response × World) : Prop := Headed s.1

/-- An answer whose body is in the store, or was to be. -/
abbrev Stored (s : Response × World) : Prop := Announces s.1 ∧ Headed s.1

theorem triple_finalizeSuccess (sys : Sys) (contentType : Bytes) :
    Triple HeadedIn (finalizeSuccess sys contentType) (fun _ => Stored) fun _ => HeadedIn := by
  rintro ⟨r, w⟩ hr
  rw [finalizeSuccess_run]
  exact announces_finished hr

/-- Code that leaves headers and file alone. -/
theorem triple_aside {α : Type} {m : Method Response α}
    (h : ∀ s, (m s).2.1.headers = s.1.headers ∧ (m s).2.1.fileFd = s.1.fileFd) :
    Triple HeadedIn m (fun _ => HeadedIn) fun _ => HeadedIn := by
  refine Triple.of_keeping fun s hs => ?_
  obtain ⟨hheaders, hfile⟩ := h s
  exact ⟨hfile.trans hs.noFile, hheaders ▸ hs.one⟩

theorem triple_onStore {α : Type} (m : Method DataStore α) : Triple HeadedIn (onStore m) (fun _ => HeadedIn) fun _ => HeadedIn :=
  triple_aside fun _ => ⟨rfl, rfl⟩

theorem triple_outside {α : Type} {m : Method Response α} (h : Moves (Outside AnyCall) m) :
    Triple HeadedIn m (fun _ => HeadedIn) fun _ => HeadedIn := triple_aside fun s => by rw [(h s).1]; exact ⟨rfl, rfl⟩

theorem triple_appendPage (content : Bytes) : Triple HeadedIn (appendPage sys content) (fun _ => HeadedIn) fun _ => HeadedIn := by
  induction content using appendPage.induct with
  | case1 content ih =>
    rw [appendPage]
    refine (triple_outside outside_sysTick).bind fun t => ?_
    rcases sys.readFile t 4096 with _ | k
    · exact .pure fun _ h => h
    simp only
    split
    · exact .pure fun _ h => h
    · rename_i hgot
      exact (triple_onStore _).bind fun _ => ih k hgot

/-- An error page is such an answer whatever the response was before. -/
theorem triple_buildErrorPage (sys : Sys) (code : Bytes) (config : ServerConf) :
    Triple (fun _ => True) (buildErrorPage sys code config) (fun _ => Stored) fun _ => HeadedIn := by
  have hreset (d : DataStore) (r : Response) : Headed (resetForError code { r with responseDataStore := d }) :=
    ⟨rfl, fun _ he => absurd he List.not_mem_nil⟩
  have hpage : Triple HeadedIn (do
      let page ← openErrorPage sys (config.getErrorPagePath code)
      fillErrorPage sys code page
      finalizeSuccess sys (ascii "text/html")) (fun _ => Stored) fun _ => HeadedIn := by
    refine (triple_outside (outside_openErrorPage sys (fun _ => trivial) _)).bind fun page => Triple.bind ?_ fun _ =>
      triple_finalizeSuccess sys _
    rcases page with _ | content
    · exact triple_onStore _
    · exact triple_appendPage content
  rintro ⟨r, w⟩ -
  rw [buildErrorPage, Eff.bind_ok (onStore_eq DataStore.clear_eq), Eff.modObj_bind]
  exact hpage _ (hreset _ r)

/-! ### GET, DELETE and redirections -/

/-- The files do not change: `stat` may fail, but says nothing else, and a file that can be opened is as long as said. -/
structure Unchanged (files : Bytes → Option FileStat) (sys : Sys) : Prop where
  stat : ∀ t path st, sys.stat t path = some st → files path = some st
  content : ∀ t path st content, files path = some st → st.kind = .regular → sys.openRead t path = some content →
    content.length = st.size

/-- No header but Content-Length is needed, and there is no body yet. -/
structure Empty (r : Response) : Prop extends Headed r where
  store : r.responseDataStore.getSize = 0

abbrev EmptyIn (s : Response × World) : Prop := Empty s.1

abbrev Done (s : Response × World) : Prop := Announces s.1

theorem returns_errorPage {P : Response × World → Prop} (sys : Sys) (code : Bytes) (config : ServerConf) :
    Returns P (buildErrorPage sys code config) fun _ => Done :=
  (triple_buildErrorPage sys code config).conseq (fun _ _ => trivial) (fun _ _ h => h.1) fun _ _ _ => trivial

theorem returns_outside {α : Type} {P : Response → Prop} {m : Method Response α} (h : Moves (Outside AnyCall) m) :
    Returns (fun s => P s.1) m fun _ s => P s.1 :=
  .of_runs (fun s t a hs hrun => by rw [(h.of_ok hrun).1]; exact hs) fun _ _ _ _ _ => trivial

theorem returns_modObj {P Q : Response → Prop} {f : Response → Response} (h : ∀ r, P r → Q (f r)) :
    Returns (fun s => P s.1) (modObj f : Method Response Unit) fun _ s => Q s.1 := .modObj fun s hs => h s.1 hs

/-- The end of an answer whose length is set last. -/
theorem returns_end {P : Response → Prop} (sys : Sys) {f : Response → Response}
    (h : ∀ r, P r → OneLength (f r).headers ∧ (f r).headers.find? (ascii "Content-Length") = some (decimal (bodyLeft (f r)))) :
    Returns (fun s => P s.1) (do modObj f; addDateClose sys; modObj startHead : Method Response Unit) fun _ => Done := by
  intro s hs
  obtain ⟨hone, hfind⟩ := h s.1 hs
  exact announces_dated hone hfind

theorem Empty.noBody (h : Empty r) : OneLength (addHeader (ascii "Content-Length") (ascii "0") r).headers ∧
    (addHeader (ascii "Content-Length") (ascii "0") r).headers.find? (ascii "Content-Length") =
      some (decimal (bodyLeft (addHeader (ascii "Content-Length") (ascii "0") r))) := by
  have hleft : bodyLeft (addHeader (ascii "Content-Length") (ascii "0") r) = 0 := by
    rw [sameButHeaders_addHeader (ascii "Content-Length") (ascii "0") r, bodyLeft]
    simp only [h.noFile, h.store]
  rw [hleft, addHeader_headers (by decide), OrdMap.find?_insert_self]
  exact ⟨h.one.insert (by decide) _, rfl⟩

theorem Empty.addCookie (h : Empty r) (req : Request) : Empty (addCookie req r) := ⟨⟨h.noFile, h.one⟩, h.store⟩

theorem returns_buildRedirect (sys : Sys) (loc : LocationConf) : Returns EmptyIn (buildRedirect sys loc) fun _ => Done := by
  have hend : Returns EmptyIn (do
      modObj (addHeader (ascii "Content-Length") (ascii "0"))
      addDateClose sys
      modObj startHead : Method Response Unit) fun _ => Done := returns_end sys fun _ hr => hr.noBody
  have hstatus : Returns EmptyIn (modObj (setStatusCode loc.returnCode) : Method Response Unit) fun _ => EmptyIn :=
    returns_modObj fun _ hr => ⟨⟨hr.noFile, hr.one⟩, hr.store⟩
  refine hstatus.bind fun _ => .ite (fun _ => Triple.bind (Q := fun _ => EmptyIn) ?_ fun _ => hend) fun _ => hend
  refine returns_modObj fun r hr => ?_
  have hsame := sameButHeaders_addHeader (ascii "Location") loc.returnURL r
  refine ⟨⟨?_, ?_⟩, ?_⟩
  · rw [hsame]
    exact hr.noFile
  · rw [addHeader_headers (by decide)]
    exact hr.one.insert (by decide) _
  · rw [hsame]
    exact hr.store

variable {files : Bytes → Option FileStat}

theorem returns_sysStat {P : Response → Prop} (hs : Unchanged files sys) (path : Bytes) :
    Returns (fun s => P s.1) (sysStat sys path) fun st s => P s.1 ∧ ∀ x, st = some x → files (cstr path) = some x := by
  rintro ⟨r, w⟩ hr
  rw [sysStat_eq]
  exact ⟨hr, fun x hx => hs.stat _ _ _ hx⟩

/-- The headers of a file that is open. -/
theorem returns_opened (sys : Sys) (contentType content : Bytes) :
    Returns (fun s => s.1.fileFd = some content ∧ s.1.fileSize = content.length ∧ OneLength s.1.headers) (do
      modObj fun r => addHeader (ascii "Content-Length") (decimal r.fileSize) (addHeader (ascii "Content-Type") contentType r)
      addDateClose sys
      modObj startHead : Method Response Unit) fun _ => Done := by
  refine returns_end (P := fun r => r.fileFd = some content ∧ r.fileSize = content.length ∧ OneLength r.headers) sys ?_
  rintro r ⟨hfile, hsize, hone⟩
  have hsame := (sameButHeaders_addHeader (ascii "Content-Type") contentType r).trans
    (sameButHeaders_addHeader (ascii "Content-Length") (decimal r.fileSize) _)
  have hleft : bodyLeft (addHeader (ascii "Content-Length") (decimal r.fileSize) (addHeader (ascii "Content-Type") contentType r)) =
      content.length := by
    rw [hsame, bodyLeft, hfile]
  rw [hleft, addHeader_headers (by decide), addHeader_headers (by decide), OrdMap.find?_insert_self, hsize]
  exact ⟨(hone.insert (by decide) _).insert (by decide) _, rfl⟩

theorem returns_serveFile (hs : Unchanged files sys) {path : Bytes}
    (hkind : ∀ st, files (cstr path) = some st → st.kind = .regular) (config : ServerConf) :
    Returns EmptyIn (serveFile sys path config) fun _ => Done := by
  rintro ⟨r, w⟩ hr
  rw [serveFile, Eff.bind_ok (sysStat_eq sys path r w)]
  rcases hstat : sys.stat w.tick (cstr path) with _ | st
  · exact returns_errorPage (P := EmptyIn) sys _ config _ hr
  dsimp only
  rw [Eff.bind_ok (sysOpenRead_eq sys path r (lookedUp path w))]
  rcases hopen : sys.openRead (lookedUp path w).tick (cstr path) with _ | content
  · exact returns_errorPage (P := EmptyIn) sys _ config _ hr
  have hfile := hs.stat _ _ _ hstat
  have hlength := hs.content _ _ _ _ hfile (hkind st hfile) hopen
  obtain ⟨r₁, hr₁⟩ : ∃ r₁ : Response, r₁ = { r with
    fileFd := some content, fileSize := st.size, streamBufLen := 0, streamBufSent := 0
    statusCode := ascii "200", responsePhrase := ascii "OK" } := ⟨_, rfl⟩
  dsimp only
  rw [Eff.modObj_bind, ← hr₁]
  have hopened : r₁.fileFd = some content ∧ r₁.fileSize = content.length ∧ OneLength r₁.headers := by
    rw [hr₁, hlength]
    exact ⟨rfl, rfl, hr.one⟩
  exact returns_opened sys (detectContentType path) content (r₁, _) hopened

theorem returns_serveDirectory (sys : Sys) (url resolvedPath : Bytes) (loc : LocationConf) (config : ServerConf) :
    Returns EmptyIn (serveDirectory sys url resolvedPath loc config) fun _ => Done := by
  refine .ite (fun _ => ?_) fun _ => returns_errorPage sys _ config
  refine (returns_outside (outside_buildAutoIndexPage sys _ trivial fun _ _ _ _ _ _ _ => trivial)).bind fun listing => ?_
  refine .ite (fun _ => returns_errorPage sys _ config) fun _ => ?_
  have hstored : Returns EmptyIn (onStore (DataStore.append sys listing)) fun _ => HeadedIn :=
    (triple_onStore _).conseq (fun _ h => h.toHeaded) (fun _ _ h => h) fun _ _ _ => trivial
  refine hstored.bind fun _ => Triple.bind (Q := fun _ => HeadedIn) (returns_modObj fun _ hr => ⟨hr.noFile, hr.one⟩) fun _ => ?_
  exact (triple_finalizeSuccess sys _).conseq (fun _ h => h) (fun _ _ h => h.1) fun _ _ _ => trivial

theorem returns_serveResolved (hs : Unchanged files sys) (req : Request) (loc : LocationConf) (config : ServerConf) {path : Bytes}
    {st : Option FileStat} (hst : ∀ x, st = some x → files (cstr path) = some x) :
    Returns EmptyIn (serveResolved sys req loc config path st) fun _ => Done := by
  rcases st with _ | ⟨kind, size⟩
  · exact returns_errorPage sys _ config
  have hfile := hst _ rfl
  have hdir := returns_serveDirectory sys req.URL path loc config
  cases kind with
  | other => exact returns_errorPage sys _ config
  | regular =>
    refine returns_serveFile hs (fun st hst => ?_) config
    rw [hfile] at hst
    cases hst
    rfl
  | directory =>
    refine .ite (fun _ => (returns_sysStat hs _).bind fun ist => Triple.lift fun hist => .ite (fun hregular => ?_) fun _ => hdir)
      fun _ => hdir
    refine returns_serveFile hs (fun st hst => ?_) config
    obtain ⟨x, rfl, hkind⟩ := Option.map_eq_some_iff.1 hregular
    rw [hist x rfl] at hst
    cases hst
    exact hkind

theorem returns_handleGet (hs : Unchanged files sys) (req : Request) (loc : LocationConf) (config : ServerConf) :
    Returns EmptyIn (handleGet sys req loc config) fun _ => Done := by
  have hcookie : Returns EmptyIn (modObj (addCookie req) : Method Response Unit) fun _ => EmptyIn :=
    returns_modObj fun _ hr => hr.addCookie req
  refine hcookie.bind fun _ => .ite (fun _ => returns_errorPage sys _ config) fun _ => ?_
  exact (returns_sysStat hs _).bind fun st => Triple.lift fun hst => returns_serveResolved hs req loc config hst

theorem returns_handleDelete (sys : Sys) (req : Request) (loc : LocationConf) (config : ServerConf) :
    Returns EmptyIn (handleDelete sys req loc config) fun _ => Done := by
  have hcookie : Returns EmptyIn (modObj (addCookie req) : Method Response Unit) fun _ => EmptyIn :=
    returns_modObj fun _ hr => hr.addCookie req
  refine hcookie.bind fun _ => .ite (fun _ => returns_errorPage sys _ config) fun _ => ?_
  refine (returns_outside (outside_sysStat sys trivial)).bind fun st => ?_
  rcases st with _ | st
  · exact returns_errorPage sys _ config
  refine .ite (fun _ => returns_errorPage sys _ config) fun _ => ?_
  refine (returns_outside (outside_logCall trivial)).bind fun _ => (returns_outside outside_sysTick).bind fun t => ?_
  rcases sys.remove t _ with _ | denied
  · exact returns_end sys fun r hr => Empty.noBody (r := { r with statusCode := ascii "204", responsePhrase := ascii "No Content" })
      ⟨⟨hr.noFile, hr.one⟩, hr.store⟩
  · exact returns_errorPage sys _ config

/-! ### POST and CGI -/

/-- Where `buildResponse` gets to: an answer, or a response that is still being built. -/
def Gets (b : Bool) (s : Exchange × World) : Prop := if b then Announces s.1.2 else Unbuilt s.1.2

theorem returns_onRes {α : Type} {P : Response → Prop} {Q : α → Response → Prop} {m : Method Response α}
    (h : Returns (fun t => P t.1) m fun a t => Q a t.1) : Returns (fun s : Exchange × World => P s.1.2) (onRes m) fun a s => Q a s.1.2 :=
  h.on (fun _ hs => hs) (fun _ _ _ _ ht => ht) fun _ _ _ _ _ => trivial

theorem returns_onReq {α : Type} {P : Response → Prop} (m : Method Request α) :
    Returns (fun s : Exchange × World => P s.1.2) (onReq m) fun _ s => P s.1.2 :=
  .of_runs (fun s t a hs hrun => by
    obtain ⟨q, -, rfl⟩ := Eff.on_eq_ok.1 hrun
    exact hs) fun _ _ _ _ _ => trivial

/-- An answer of one call. -/
theorem gets_answer {P : Response → Prop} {m : Method Response Unit} (h : Returns (fun t => P t.1) m fun _ => Done) :
    Returns (fun s : Exchange × World => P s.1.2) (do onRes m; return true : Method Exchange Bool) Gets :=
  (returns_onRes (Q := fun _ r => Announces r) h).bind fun _ => .pure fun _ hs => hs

theorem gets_errorPage {P : Response → Prop} (sys : Sys) (code : Bytes) (config : ServerConf) :
    Returns (fun s : Exchange × World => P s.1.2) (do onRes (buildErrorPage sys code config); return true : Method Exchange Bool) Gets :=
  gets_answer (returns_errorPage sys code config)

/-- An upload is under way. -/
structure Uploads (r : Response) : Prop extends Bare r where
  store : r.responseDataStore.getSize = 0
  phase : r.buildPhase = .BUILD_POST_WRITING
  config : r.cachedConfig ≠ none

theorem Uploads.unbuilt (h : Uploads r) : Unbuilt r := ⟨h.toBare, fun _ => h.store, fun _ => h.config⟩

theorem Uploads.empty (h : Uploads r) : Empty r := ⟨h.toBare.headed, h.store⟩

abbrev UploadsIn (s : Exchange × World) : Prop := Uploads s.1.2

theorem returns_writePost (sys : Sys) (data : Bytes) : Returns (fun s => Uploads s.1) (writePost sys data) fun _ s => Uploads s.1 := by
  have hrest (written : Option Nat) : Returns (fun s => Uploads s.1)
      ((do throwIfSigpipe "writing request body to upload/CGI input"; return written) : Method Response _)
      fun _ s => Uploads s.1 := (returns_outside (outside_throwIfSigpipe _)).bind fun _ => .pure fun _ h => h
  refine .obj_bind fun r => Triple.pre (P := fun s => Uploads s.1) ?_ fun _ h => h.1
  rcases r.postOutFd with _ | f
  · exact Triple.bind (Q := fun _ s => Uploads s.1) (.pure fun _ h => h) hrest
  refine (returns_outside (outside_sysWrite sys f data)).bind fun written => ?_
  refine Triple.bind (Q := fun _ s => Uploads s.1) (returns_modObj fun r hr => ?_) fun _ =>
    Triple.bind (Q := fun _ s => Uploads s.1) (.pure fun _ h => h) hrest
  exact ⟨⟨hr.headers, hr.block, hr.noFile⟩, hr.store, hr.phase, hr.config⟩

theorem returns_writePostSlice (sys : Sys) : Returns UploadsIn (writePostSlice sys) fun _ => UploadsIn := by
  refine .obj_bind fun x => Triple.pre (P := UploadsIn) ?_ fun _ h => h.1
  refine .ite (fun _ => .ite (fun _ => ?_) fun _ => .pure fun _ h => h) fun _ => ?_
  · refine (returns_onRes (Q := fun _ => Uploads) (returns_writePost sys _)).bind fun written => ?_
    rcases written with _ | _ | k
    · exact .pure fun _ h => h
    · exact .pure fun _ h => h
    · refine Triple.bind (Q := fun _ => UploadsIn) (returns_onRes (Q := fun _ => Uploads) (returns_modObj fun r hr => ?_))
        fun _ => .pure fun _ h => h
      exact ⟨⟨hr.headers, hr.block, hr.noFile⟩, hr.store, hr.phase, hr.config⟩
  · refine (returns_onReq (P := Uploads) _).bind fun buf => ?_
    have hrest (ok : Bool) : Returns UploadsIn (do
        if ok then
          let body := (← obj).1.body
          return some (body.getSize ≤ body.getReadPosition)
        else return none : Method Exchange (Option Bool)) fun _ => UploadsIn :=
      .ite (fun _ => .obj_bind fun _ => .pure fun _ h => h.1) fun _ => .pure fun _ h => h
    refine .ite (fun _ => Triple.bind (Q := fun _ => UploadsIn) (.pure fun _ h => h) hrest) fun _ => ?_
    refine (returns_onRes (Q := fun _ => Uploads) (returns_writePost sys _)).bind fun _ => ?_
    exact Triple.bind (Q := fun _ => UploadsIn) (.pure fun _ h => h) hrest

theorem returns_failPostWrite (sys : Sys) : Returns (fun s => Uploads s.1) (failPostWrite sys) fun _ => Done := by
  have hclosed : Returns (fun s => Uploads s.1) (modObj fun r => { r with
      postOutFd := none, postCloses := r.postCloses + 1, buildPhase := .BUILD_DONE } : Method Response Unit)
      fun _ s => s.1.cachedConfig ≠ none := .modObj fun _ hs => hs.config
  refine hclosed.bind fun _ => .obj_bind fun r => ?_
  rcases hconfig : r.cachedConfig with _ | config
  · refine .pure fun s hs => ?_
    rw [hs.2] at hs
    exact absurd hconfig hs.1
  · exact returns_errorPage sys _ config

theorem returns_finishPost (sys : Sys) : Returns (fun s => Uploads s.1) (finishPost sys) fun _ => Done := by
  have hclosed : Returns (fun s => Uploads s.1) (modObj fun r => { r with
      postOutFd := none, postCloses := r.postCloses + 1, buildPhase := .BUILD_DONE } : Method Response Unit) fun _ => HeadedIn :=
    returns_modObj fun _ hr => ⟨hr.noFile, hr.empty.one⟩
  have hstored : Returns HeadedIn (onStore (DataStore.append sys uploadedPage)) fun _ => HeadedIn :=
    (triple_onStore _).conseq (fun _ h => h) (fun _ _ h => h) fun _ _ _ => trivial
  refine hclosed.bind fun _ => hstored.bind fun _ => Triple.bind (Q := fun _ => HeadedIn) (returns_modObj fun r hr => ?_) fun _ => ?_
  · have hsame := sameButHeaders_addHeader (ascii "Location") ([slash] ++ r.postFilename)
      { r with statusCode := ascii "201", responsePhrase := ascii "Created" }
    refine ⟨?_, ?_⟩
    · rw [hsame]
      exact hr.noFile
    · rw [addHeader_headers (by decide)]
      exact hr.one.insert (by decide) _
  · exact (triple_finalizeSuccess sys _).conseq (fun _ h => h) (fun _ _ h => h.1) fun _ _ _ => trivial

theorem gets_continuePostWrite (sys : Sys) : Returns UploadsIn (continuePostWrite sys) Gets := by
  refine (returns_onRes (Q := fun _ => Uploads) (returns_outside (outside_throwIfSigpipe _))).bind fun _ => ?_
  refine (returns_writePostSlice sys).bind fun last => ?_
  rcases last with _ | _ | _
  · exact gets_answer (returns_failPostWrite sys)
  · exact .pure fun _ h => h.unbuilt
  · exact gets_answer (returns_finishPost sys)

/-- The response before the handler of its method is called. -/
structure Called (r : Response) : Prop extends Bare r where
  store : r.responseDataStore.getSize = 0
  config : r.cachedConfig ≠ none

theorem Called.empty (h : Called r) : Empty r := ⟨h.toBare.headed, h.store⟩

theorem Called.addCookie (h : Called r) (req : Request) : Called (addCookie req r) := ⟨⟨h.headers, h.block, h.noFile⟩, h.store, h.config⟩

abbrev CalledIn (s : Exchange × World) : Prop := Called s.1.2

theorem returns_sysOpenWrite {P : Response → Prop} (sys : Sys) (path : Bytes) :
    Returns (fun s => P s.1) (sysOpenWrite sys path) fun _ s => P s.1 := by
  rintro ⟨r, w⟩ hr
  obtain ⟨file, w', hrun, -⟩ := sysOpenWrite_eq (P := AnyCall) sys path r w
  rw [hrun]
  exact hr

theorem gets_handlePost (sys : Sys) (loc : LocationConf) (config : ServerConf) : Returns CalledIn (handlePost sys loc config) Gets := by
  refine .obj_bind fun x => Triple.pre (P := CalledIn) ?_ fun _ h => h.1
  have hcookie : Returns CalledIn (onRes (modObj (addCookie x.1))) fun _ => CalledIn :=
    returns_onRes (Q := fun _ => Called) (returns_modObj fun _ hr => hr.addCookie x.1)
  refine hcookie.bind fun _ => .ite (fun _ => gets_errorPage sys _ config) fun _ => .world_bind fun w =>
    Triple.pre (P := CalledIn) ?_ fun _ h => h.1
  refine (returns_onRes (Q := fun _ => Called) (returns_sysOpenWrite sys _)).bind fun file => ?_
  rcases file with _ | f
  · exact gets_errorPage sys _ config
  refine Triple.bind (Q := fun _ => UploadsIn) (returns_onRes (Q := fun _ => Uploads) (returns_modObj fun r hr => ?_)) fun _ =>
    .obj_bind fun _ => Triple.pre (P := UploadsIn) (.ite (fun _ => ?_) fun _ => gets_continuePostWrite sys) fun _ h => h.1
  · exact ⟨⟨hr.headers, hr.block, hr.noFile⟩, hr.store, rfl, hr.config⟩
  · exact (returns_onReq (P := Uploads) _).bind fun _ => gets_continuePostWrite sys

theorem returns_prepareCgiInput {P : Response → Prop} (sys : Sys) :
    Returns (fun s => P s.1.2) (prepareCgiInput sys) fun _ s => P s.1.2 := by
  have hreset : Returns (fun s : Exchange × World => P s.1.2) (onReq (Request.onBody (DataStore.resetReadPosition sys)))
      fun _ s => P s.1.2 := returns_onReq _
  have hrest : Returns (fun s : Exchange × World => P s.1.2) (do
      if (← obj).1.body.getMode = .FILE_MODE then onReq (Request.onBody (DataStore.resetReadPosition sys))) fun _ s => P s.1.2 :=
    .obj_bind fun _ => Triple.pre (.ite (fun _ => hreset) fun _ => .pure fun _ h => h) fun _ h => h.1
  refine .obj_bind fun x => Triple.pre (P := fun s => P s.1.2) (.ite (fun _ => ?_) fun _ => hrest) fun _ h => h.1
  exact (returns_onReq _).bind fun _ => hrest

/-- Whether the script was started; if not, the answer is there. -/
theorem returns_startCgi (sys : Sys) (config : ServerConf) (hasInput : Bool) :
    Returns (fun s => Bare s.1) (startCgi sys config hasInput) fun b s => if b then Bare s.1 else Announces s.1 := by
  refine Triple.tryCatch (E := fun _ _ => True) (Triple.bind (Q := fun _ s => Bare s.1) ?_ fun _ => .pure fun _ h => by simpa using h) fun e => ?_
  · refine .of_runs (fun s t a hs hrun => ?_) fun _ _ _ _ _ => trivial
    obtain ⟨c, -, rfl⟩ := Eff.on_eq_ok.1 hrun
    exact ⟨hs.headers, hs.block, hs.noFile⟩
  cases e with
  | client code msg =>
    refine Triple.bind (Q := fun _ _ => True) (.modObj fun _ _ => trivial) fun _ => .ite (fun _ => ?_) fun _ => .throw fun _ _ => trivial
    refine (returns_errorPage sys _ config).bind fun _ => Triple.bind (Q := fun _ => Done) (.modObj fun s hs => ?_) fun _ =>
      .pure fun _ h => by simpa using h
    exact Announces.addHeader hs (by decide) (by decide) _
  | fatal | runtime | execed => exact .throw fun _ _ => trivial

theorem gets_runScript (sys : Sys) (loc : LocationConf) (config : ServerConf) (scriptPath : Bytes) :
    Returns CalledIn (runScript sys loc config scriptPath) Gets := by
  refine Triple.pre (P := fun s => Bare s.1.2) ?_ fun _ h => h.toBare
  refine (returns_prepareCgiInput sys).bind fun _ => .obj_bind fun x => Triple.pre (P := fun s => Bare s.1.2) ?_ fun _ h => h.1
  have hset : Returns (fun s : Exchange × World => Bare s.1.2) (onRes (modObj fun r => { r with
      cgiInstance := some (CGIManager.prepare x.1 scriptPath (loc.getCgiInterpreter (getFileExtension x.1.URL)) {}) }))
      fun _ s => Bare s.1.2 :=
    returns_onRes (Q := fun _ => Bare) (returns_modObj fun _ hr => ⟨hr.headers, hr.block, hr.noFile⟩)
  refine hset.bind fun _ => Triple.bind (returns_onRes (P := Bare) (Q := fun (b : Bool) r => if b then Bare r else Announces r)
    (returns_startCgi sys config _)) fun started => ?_
  cases started with
  | true =>
    have hrunning : Returns (fun s => Bare s.1.2) (onRes (modObj fun r => { r with
        buildPhase := .BUILD_CGI_RUNNING, cachedConfig := some config })) fun _ s => Unbuilt s.1.2 := by
      rintro s ⟨hheaders, hblock, hfile⟩
      exact ⟨⟨hheaders, hblock, hfile⟩, fun h => absurd rfl h, nofun⟩
    exact (hrunning.bind fun _ => .pure fun _ h => h).pre fun s (hs : Bare s.1.2) => hs
  | false => exact .pure fun _ hs => hs

theorem gets_handleCGI (sys : Sys) (loc : LocationConf) (config : ServerConf) : Returns CalledIn (handleCGI sys loc config) Gets := by
  refine .obj_bind fun x => Triple.pre (P := CalledIn) ?_ fun _ h => h.1
  have hcookie : Returns CalledIn (onRes (modObj (addCookie x.1))) fun _ => CalledIn :=
    returns_onRes (Q := fun _ => Called) (returns_modObj fun _ hr => hr.addCookie x.1)
  refine hcookie.bind fun _ => .ite (fun _ => gets_errorPage sys _ config) fun _ => ?_
  refine (returns_onRes (Q := fun _ => Called) (returns_outside (outside_sysStat sys trivial))).bind fun st => ?_
  exact .ite (fun _ => gets_errorPage sys _ config) fun _ => gets_runScript sys loc config _

theorem gets_buildResponse (hs : Unchanged files sys) (config : ServerConf) :
    Returns (fun s => Unbuilt s.1.2) (buildResponse sys config) Gets := by
  refine .obj_bind fun x => .ite (fun hpost => ?_) fun hpost => .ite (fun _ => .pure fun _ h => h.1) fun hcgi => ?_
  · refine (gets_continuePostWrite sys).pre fun s hs => ?_
    obtain ⟨h, rfl⟩ := hs
    exact ⟨h.toBare, h.store (by rw [hpost]; nofun), hpost, h.config hpost⟩
  have hcall : Returns (fun s : Exchange × World => Unbuilt s.1.2 ∧ s.1 = x)
      (onRes (modObj fun r => { r with cachedConfig := some config })) fun _ => CalledIn := by
    rintro s ⟨h, rfl⟩
    exact ⟨⟨h.headers, h.block, h.noFile⟩, h.store hcgi, nofun⟩
  have herror (code : Bytes) : Returns CalledIn (do onRes (buildErrorPage sys code config); return true : Method Exchange Bool) Gets :=
    gets_errorPage sys code config
  refine hcall.bind fun _ => .ite (fun _ => herror _) fun _ => ?_
  rcases matchLocation x.1.URL config with _ | loc
  · exact herror _
  refine .ite (fun _ => herror _) fun _ => .ite (fun _ => ?_) fun _ => .ite (fun _ => gets_handleCGI sys loc config) fun _ => ?_
  · exact (gets_answer (returns_buildRedirect sys loc)).pre fun _ h => h.empty
  cases x.1.methodName with
  | GET => exact (gets_answer (returns_handleGet hs x.1 loc config)).pre fun _ h => h.empty
  | POST => exact gets_handlePost sys loc config
  | DELETE => exact (gets_answer (returns_handleDelete sys x.1 loc config)).pre fun _ h => h.empty
  | UNKNOWN_METHOD => exact herror _

/-! ### The output of a script -/

theorem oneLength_addHeader (h : OneLength r.headers) {key : Bytes}
    (hkey : lowercase key = ascii "content-length" → key = ascii "Content-Length") (value : Bytes) :
    OneLength (addHeader key value r).headers := by
  rcases hcookie : isSetCookieHeader key with _ | _
  · rw [addHeader_headers hcookie]
    exact h.insert hkey value
  · rw [(addHeader_cookie hcookie value r).1]
    exact h

theorem cgiStatus_headers (value : Bytes) (r : Response) : (cgiStatus value r).headers = r.headers := by
  unfold cgiStatus
  split <;> rfl

/-- A script cannot set the length. -/
theorem oneLength_parseCgiHeaderLine (h : OneLength r.headers) (line contentType : Bytes) :
    OneLength (parseCgiHeaderLine line contentType r).2.2.headers := by
  unfold parseCgiHeaderLine
  simp only
  generalize (if line.getLast? = some CR then line.dropLast else line) = l
  split
  · exact h
  split
  · exact h
  rename_i colonPos _
  generalize (if (l.drop (colonPos + 1)).dropWhile isBlank = [] then l.drop (colonPos + 1)
    else (l.drop (colonPos + 1)).dropWhile isBlank) = value
  split_ifs
  · exact h
  · rw [cgiStatus_headers]
    exact h
  · exact oneLength_addHeader h (by decide) value
  · exact oneLength_addHeader h (by decide) value
  · exact h

theorem oneLength_parseCgiHeaders (h : OneLength r.headers) (headerBlock : Bytes) :
    OneLength (parseCgiHeaders headerBlock r).2.headers := by
  have hlines (lines : List Bytes) (contentType : Bytes) {r : Response} (h : OneLength r.headers) :
      OneLength (parseCgiHeaderLines lines contentType r).2.headers := by
    induction lines generalizing contentType r with
    | nil => exact h
    | cons line lines ih =>
      have hline := oneLength_parseCgiHeaderLine h line contentType
      rw [parseCgiHeaderLines]
      rcases hrun : parseCgiHeaderLine line contentType r with ⟨_ | _, contentType', r'⟩ <;> rw [hrun] at hline
      · exact hline
      · exact ih contentType' hline
  unfold parseCgiHeaders
  simp only
  split
  · exact h
  · exact hlines _ _ h

theorem Headed.parse (h : Headed r) (headerBlock : Bytes) : Headed (parseCgiHeaders headerBlock r).2 := by
  refine ⟨?_, oneLength_parseCgiHeaders h.one headerBlock⟩
  rw [said_parseCgiHeaders headerBlock r]
  exact h.noFile

/-- The answer to a script: without a configuration for the error page it may be missing. -/
def Answers (known : Option ServerConf) (s : Response × World) : Prop := Headed s.1 ∧ (known ≠ none → Announces s.1)

abbrev Knows (known : Option ServerConf) (s : Response × World) : Prop := Headed s.1 ∧ s.1.cachedConfig = known

theorem triple_forget {known : Option ServerConf} :
    Triple (Answers known) (modObj fun r => { r with cgiInstance := none } : Method Response Unit) (fun _ => Answers known)
      fun _ => HeadedIn :=
  .modObj fun _ hs => ⟨⟨hs.1.noFile, hs.1.one⟩, fun hknown => ⟨(hs.2 hknown).block, (hs.2 hknown).once⟩⟩

theorem triple_badGateway (sys : Sys) (known : Option ServerConf) :
    Triple (Knows known) (badGateway sys) (fun _ => Answers known) fun _ => HeadedIn := by
  refine .obj_bind fun r => Triple.pre (Triple.lift (P := Knows known) (p := r.cachedConfig = known) fun hr => ?_) ?_
  · rw [hr]
    rcases known with _ | config
    · exact Triple.bind (Q := fun _ => Answers none) (.modObj fun s hs => ⟨⟨hs.1.noFile, hs.1.one⟩, fun h => absurd rfl h⟩)
        fun _ => triple_forget
    · refine Triple.bind ?_ fun _ => triple_forget
      exact (triple_buildErrorPage sys _ config).conseq (fun _ _ => trivial) (fun _ _ h => ⟨h.2, fun _ => h.1⟩) fun _ _ h => h
  · rintro s ⟨hs, rfl⟩
    exact ⟨hs, hs.2⟩

theorem triple_finalizeCgiResponse (sys : Sys) (known : Option ServerConf) :
    Triple (Knows known) (finalizeCgiResponse sys) (fun _ => Answers known) fun _ => HeadedIn := by
  have hstore {α : Type} (m : Method DataStore α) : Triple (Knows known) (onStore m) (fun _ => Knows known) fun _ => HeadedIn :=
    (Triple.of_keeping fun _ hs => ⟨⟨hs.1.noFile, hs.1.one⟩, hs.2⟩).conseq (fun _ h => h) (fun _ _ h => h) fun _ _ h => h.1
  have hbad := triple_badGateway sys known
  refine Triple.bind (Q := fun _ => Knows known) (.modObj fun _ hs => ⟨⟨hs.1.noFile, hs.1.one⟩, hs.2⟩) fun _ => ?_
  refine (hstore _).bind fun cgiOutput => .ite (fun _ => hbad) fun _ => .ite (fun _ => hbad) fun _ => .obj_bind fun r => ?_
  refine Triple.bind (Q := fun _ => Knows known) (.modObj ?_) fun _ => ?_
  · rintro s ⟨⟨hs, hknown⟩, rfl⟩
    refine ⟨hs.parse _, ?_⟩
    rw [said_parseCgiHeaders _ s.1]
    exact hknown
  rcases (parseCgiHeaders _ r).1 with _ | contentType
  · exact hbad
  refine (hstore _).bind fun _ => (hstore _).bind fun _ => Triple.bind ?_ fun _ => triple_forget
  exact (triple_finalizeSuccess sys contentType).conseq (fun _ h => h.1) (fun _ _ h => ⟨h.2, fun _ => h.1⟩) fun _ _ h => h

theorem triple_cgiTimeout (sys : Sys) (config : ServerConf) :
    Triple (fun _ => True) (cgiTimeout sys config) (fun _ => Stored) fun _ _ => True := by
  have hany {α : Type} (m : Method Response α) : Triple (fun _ => True) m (fun _ _ => True) fun _ _ => True :=
    .of_runs (fun _ _ _ _ _ => trivial) fun _ _ _ _ _ => trivial
  have hpage : Triple (fun _ => True) (buildErrorPage sys (ascii "504") config) (fun _ => Stored) fun _ _ => True :=
    (triple_buildErrorPage sys _ config).conseq (fun _ h => h) (fun _ _ h => h) fun _ _ _ => trivial
  refine .obj_bind fun r => Triple.pre (P := fun _ => True) ?_ fun _ _ => trivial
  rcases r.cgiInstance with _ | cgi
  · exact (hany _).bind fun _ => hpage
  rcases hpid : cgi.pId with _ | pid <;> simp only [hpid]
  · exact (hany _).bind fun _ => (hany _).bind fun _ => hpage
  · exact (hany _).bind fun _ => (hany _).bind fun _ => (hany _).bind fun _ => (hany _).bind fun _ => hpage

theorem triple_readCgiOutput (sys : Sys) (got : Option Bytes) :
    Triple HeadedIn (readCgiOutput sys got) (fun _ => HeadedIn) fun _ => HeadedIn := by
  have hdone : Triple HeadedIn (readCgiOutput.isCgiDone sys) (fun _ => HeadedIn) fun _ => HeadedIn :=
    triple_aside fun _ => ⟨rfl, rfl⟩
  refine .obj_bind fun r => Triple.pre (P := HeadedIn) ?_ fun _ h => h.1
  rcases r.cgiInstance with _ | cgi
  · exact .pure fun _ h => h
  refine .ite (fun _ => .pure fun _ h => h) fun _ => ?_
  rcases got with _ | _ | ⟨b, data⟩
  · exact hdone.bind fun _ => .pure fun _ h => h
  · exact hdone.bind fun _ => .pure fun _ h => h
  · exact (triple_onStore _).bind fun _ => hdone

/-! ### Every answer -/

/-- A response while `buildResponse` says that it is not built yet. -/
inductive Unfinished (files : Bytes → Option FileStat) (config : ServerConf) : Response → Prop
  | start : Unfinished files config {}
  | again {sys : Sys} {req req' : Request} {r r' : Response} {w w' : World} (h : Unfinished files config r)
      (hs : Unchanged files sys) (hrun : buildResponse sys config ((req, r), w) = (.ok false, (req', r'), w')) :
      Unfinished files config r'

theorem Unfinished.unbuilt (h : Unfinished files config r) : Unbuilt r := by
  induction h with
  | start => exact ⟨⟨rfl, rfl, rfl⟩, fun _ => rfl, nofun⟩
  | again _ hs hrun ih => exact (gets_buildResponse hs config).ok ih hrun

/-- A response for which a script was started: output is read, or an answer is built, maybe again. -/
inductive Scripted (files : Bytes → Option FileStat) (config : ServerConf) : Response → Prop
  | started {r : Response} (h : Unfinished files config r) (hphase : r.buildPhase = .BUILD_CGI_RUNNING) : Scripted files config r
  | read {r : Response} (h : Scripted files config r) (sys : Sys) (got : Option Bytes) (w : World) :
      Scripted files config (readCgiOutput sys got (r, w)).2.1
  | finalized {sys : Sys} {r r' : Response} {w w' : World} (h : Scripted files config r)
      (hrun : finalizeCgiResponse sys (r, w) = (.ok (), r', w')) : Scripted files config r'
  | timedOut {sys : Sys} {r r' : Response} {w w' : World} (h : Scripted files config r)
      (hrun : cgiTimeout sys config (r, w) = (.ok (), r', w')) : Scripted files config r'
  | failed {sys : Sys} {code : Bytes} {r r' : Response} {w w' : World} (h : Scripted files config r)
      (hrun : buildErrorPage sys code config (r, w) = (.ok (), r', w')) : Scripted files config r'

theorem Scripted.headed (h : Scripted files config r) : Headed r := by
  induction h with
  | started h _ => exact h.unbuilt.toBare.headed
  | read _ sys got w ih =>
    have hread := triple_readCgiOutput sys got (_, w) ih
    rcases hrun : readCgiOutput sys got (_, w) with ⟨_ | _, t⟩ <;> rw [hrun] at hread
    · exact hread
    · exact hread
  | finalized _ hrun ih => exact ((triple_finalizeCgiResponse _ _).ok ⟨ih, rfl⟩ hrun).1
  | timedOut _ hrun _ => exact ((triple_cgiTimeout _ config).ok trivial hrun).2
  | failed _ hrun _ => exact ((triple_buildErrorPage _ _ config).ok trivial hrun).2

/-- While the files do not change, every way to build an answer leaves the serialized header block with one
Content-Length, the number of body bytes to be sent. -/
theorem answers_announce (hs : Unchanged files sys) (config : ServerConf) (w : World) :
    (∀ req r x w', Unfinished files config r → buildResponse sys config ((req, r), w) = (.ok true, x, w') → Announces x.2) ∧
    (∀ r r' w', Scripted files config r → r.cachedConfig ≠ none → finalizeCgiResponse sys (r, w) = (.ok (), r', w') →
      Announces r') ∧
    (∀ r r' w', cgiTimeout sys config (r, w) = (.ok (), r', w') → Announces r') ∧
    ∀ code r r' w', buildErrorPage sys code config (r, w) = (.ok (), r', w') → Announces r' := by
  refine ⟨fun req r x w' h hrun => ?_, fun r r' w' h hknown hrun => ?_, fun r r' w' hrun => ?_, fun code r r' w' hrun => ?_⟩
  · exact (gets_buildResponse hs config).ok (s := ((req, r), w)) h.unbuilt hrun
  · exact ((triple_finalizeCgiResponse sys _).ok ⟨h.headed, rfl⟩ hrun).2 hknown
  · exact ((triple_cgiTimeout sys config).ok trivial hrun).1
  · exact ((triple_buildErrorPage sys code config).ok trivial hrun).1

theorem answers_announce_page :
    Announces (buildResponse (Sys.holding (ascii "hi")) scriptServer
      ((parsed (ascii "GET /a.html HTTP/1.0\r\n\r\n"), {}), {})).2.1.2 := by
  have hs : Unchanged (fun _ => some ⟨.regular, 2⟩) (Sys.holding (ascii "hi")) :=
    ⟨fun _ _ _ h => h, fun _ _ _ _ hst _ hopen => by cases hst; cases hopen; rfl⟩
  have hrun : (buildResponse (Sys.holding (ascii "hi")) scriptServer
      ((parsed (ascii "GET /a.html HTTP/1.0\r\n\r\n"), {}), {})).1 = .ok true := by decide +kernel
  exact (answers_announce hs scriptServer {}).1 _ _ _ _ .start (Prod.ext hrun rfl)

end Response

end LeftHookRoll
