import LeftHookRoll.Exceptions
import LeftHookRoll.Handlers
import LeftHookRoll.ScriptFrame

/-!
# What a header block is made of

A `HeaderRule` says which status codes and which bytes may stand in a header block. `Worded`: all that a
response keeps for its header block meets the rule, and so does the block it has built. Every method of a
response keeps this if the codes and the texts that it is given meet the rule.
-/

namespace LeftHookRoll

open Eff

/-- What may stand in a header block. -/
structure HeaderRule where
  code : Bytes → Prop
  phrase : UInt8 → Prop
  text : UInt8 → Prop

/-- A printable byte of ASCII. -/
def Plain (b : UInt8) : Prop := 32 ≤ b ∧ b < 127

instance (b : UInt8) : Decidable (Plain b) := inferInstanceAs (Decidable (_ ∧ _))

/-- A check of the bytes of a text, not of all bytes there are. -/
instance decidableOnText {p : UInt8 → Prop} [DecidablePred p] (text : Bytes) : Decidable (∀ b ∈ text, p b) :=
  List.decidableBAll p text

theorem plain_of_isdigit {c : UInt8} (h : isdigit c) : Plain c := by
  rw [isdigit, decide_eq_true_eq] at h
  simp only [Plain, UInt8.le_iff_toNat_le, UInt8.lt_iff_toNat_lt, UInt8.toNat_ofNat] at h ⊢
  omega

theorem plain_decimal {n : Nat} : ∀ b ∈ decimal n, Plain b := fun _ h => plain_of_isdigit (isdigit_of_mem_decimal h)

theorem plain_decimalInt {n : Int} : ∀ b ∈ decimalInt n, Plain b := by
  intro b hb
  rw [decimalInt] at hb
  split at hb
  · rcases List.mem_cons.1 hb with rfl | hb
    · decide
    · exact plain_decimal b hb
  · exact plain_decimal b hb

/-- The status codes of the source's own answers. -/
def ownCodes : List Bytes :=
  [ascii "200", ascii "201", ascii "204", ascii "400", ascii "403", ascii "404", ascii "405", ascii "408", ascii "413",
    ascii "431", ascii "500", ascii "501", ascii "502", ascii "503", ascii "504", ascii "505"]

/-- The rule admits what the source itself puts into header blocks. -/
structure HeaderRule.Admits (ρ : HeaderRule) (sys : Sys) : Prop where
  codes : ∀ code ∈ ownCodes, ρ.code code
  phrase : ∀ b, Plain b → ρ.phrase b
  text : ∀ b, Plain b → ρ.text b
  date : ∀ t, ∀ b ∈ sys.httpDate t, ρ.text b

namespace Response

variable {ρ : HeaderRule} {sys : Sys} {r r' : Response}

/-- What a header block is built from meets the rule. -/
structure Meets (ρ : HeaderRule) (r : Response) : Prop where
  version : r.version = ascii "HTTP/1.0"
  code : ρ.code r.statusCode
  phrase : ∀ b ∈ r.responsePhrase, ρ.phrase b
  headers : ∀ h ∈ r.headers.entries, (∀ b ∈ h.1, ρ.text b) ∧ ∀ b ∈ h.2, ρ.text b
  cookies : ∀ c ∈ r.setCookies, ∀ b ∈ c, ρ.text b

/-- There is no header block, or it was built by the rule, from the headers that the response has and the cookies that it
had. -/
def Block (ρ : HeaderRule) (r : Response) : Prop :=
  r.headerBuffer = [] ∨ ∃ r₀, Meets ρ r₀ ∧ r₀.headers = r.headers ∧ r₀.setCookies <+: r.setCookies ∧
    r.headerBuffer = r₀.generateHeaderString

structure Worded (ρ : HeaderRule) (r : Response) : Prop extends Meets ρ r where
  filename : ∀ b ∈ r.postFilename, ρ.text b
  block : Block ρ r

/-- The same header block, and the same to build one from. -/
structure SameHead (r r' : Response) : Prop where
  version : r'.version = r.version
  statusCode : r'.statusCode = r.statusCode
  responsePhrase : r'.responsePhrase = r.responsePhrase
  headers : r'.headers = r.headers
  setCookies : r'.setCookies = r.setCookies
  postFilename : r'.postFilename = r.postFilename
  headerBuffer : r'.headerBuffer = r.headerBuffer

theorem Worded.same (h : Worded ρ r) (hr : SameHead r r') : Worded ρ r' where
  version := hr.version ▸ h.version
  code := hr.statusCode ▸ h.code
  phrase := hr.responsePhrase ▸ h.phrase
  headers := hr.headers ▸ h.headers
  cookies := hr.setCookies ▸ h.cookies
  filename := hr.postFilename ▸ h.filename
  block := by
    rw [Block, hr.headerBuffer, hr.headers, hr.setCookies]
    exact h.block

theorem Worded.setStatus (h : Worded ρ r) {code phrase : Bytes} (hcode : ρ.code code) (hphrase : ∀ b ∈ phrase, ρ.phrase b) :
    Worded ρ { r with statusCode := code, responsePhrase := phrase } :=
  ⟨⟨h.version, hcode, hphrase, h.headers, h.cookies⟩, h.filename, h.block⟩

theorem Worded.startHead (h : Worded ρ r) : Worded ρ (startHead r) :=
  ⟨⟨h.version, h.code, h.phrase, h.headers, h.cookies⟩, h.filename, .inr ⟨r, h.toMeets, rfl, List.prefix_rfl, rfl⟩⟩

theorem Worded.addHeader (h : Worded ρ r) {key value : Bytes} (hkey : ∀ b ∈ key, ρ.text b) (hvalue : ∀ b ∈ value, ρ.text b) :
    Worded ρ (addHeader key value r) := by
  obtain ⟨r₁, hr₁⟩ : ∃ r₁, r₁ = if isSetCookieHeader key then { r with setCookies := r.setCookies ++ [value] }
    else { r with headers := r.headers.insert key value } := ⟨_, rfl⟩
  have h₁ : Meets ρ r₁ := by
    rw [hr₁]
    split
    · refine ⟨h.version, h.code, h.phrase, h.headers, fun c hc => ?_⟩
      rcases List.mem_append.1 hc with hc | hc
      · exact h.cookies c hc
      · rw [List.mem_singleton.1 hc]
        exact hvalue
    · refine ⟨h.version, h.code, h.phrase, fun e he => ?_, h.cookies⟩
      rcases OrdMap.mem_entries_insert he with rfl | he
      · exact ⟨hkey, hvalue⟩
      · exact h.headers e he
  have hname : r₁.postFilename = r.postFilename := by
    rw [hr₁]
    split <;> rfl
  have hadd : Response.addHeader key value r =
      if r₁.headerBuffer ≠ [] then { r₁ with headerBuffer := r₁.generateHeaderString } else r₁ := by rw [hr₁]; rfl
  rw [hadd]
  split
  · exact ⟨⟨h₁.version, h₁.code, h₁.phrase, h₁.headers, h₁.cookies⟩, hname.symm ▸ h.filename,
      .inr ⟨r₁, h₁, rfl, List.prefix_rfl, rfl⟩⟩
  · rename_i hnone
    exact ⟨h₁, hname.symm ▸ h.filename, .inl (not_not.1 hnone)⟩

/-! ### The texts of the source -/

theorem plain_lookup {l : List (Bytes × Bytes)} (hl : ∀ e ∈ l, ∀ b ∈ e.2, Plain b) {other : Bytes}
    (hother : ∀ b ∈ other, Plain b) (k : Bytes) : ∀ b ∈ (l.lookup k).getD other, Plain b := by
  rcases hk : l.lookup k with _ | v
  · exact hother
  · obtain ⟨l₁, l₂, rfl, -⟩ := List.lookup_eq_some_iff.1 hk
    exact hl (k, v) (List.mem_append_right l₁ List.mem_cons_self)

theorem plain_lookupReasonPhrase (code : Bytes) : ∀ b ∈ lookupReasonPhrase code, Plain b :=
  plain_lookup (by decide) (by decide) code

theorem plain_detectContentType (path : Bytes) : ∀ b ∈ detectContentType path, Plain b := by
  unfold detectContentType
  split
  · decide
  · exact plain_lookup (by decide) (by decide) _

/-! ### What the methods keep -/

abbrev Words (ρ : HeaderRule) (s : Response × World) : Prop := Worded ρ s.1

theorem keeps_same {P : Exn → Prop} {f : Response → Response} (h : ∀ r, SameHead r (f r)) :
    Keeps (Words ρ) P (modObj f : Method Response Unit) := .modObj fun s hs => hs.same (h s.1)

theorem keeps_onStore {α : Type} {m : Method DataStore α} (h : Throws Exn.IsRuntime m) :
    Keeps (Words ρ) Exn.Usual (onStore m) :=
  .on_of_throws (usual_of_runtime h) fun _ _ hs => Worded.same hs ⟨rfl, rfl, rfl, rfl, rfl, rfl, rfl⟩

/-- Code that leaves the response alone. -/
theorem keeps_outside {α : Type} {m : Method Response α} (hm : Moves (Outside AnyCall) m) (ht : Throws Exn.Usual m) :
    Keeps (Words ρ) Exn.Usual m := by
  intro s hs
  refine ⟨?_, ht s⟩
  rw [Words, (hm s).1]
  exact hs

theorem keeps_openErrorPage (customPath : Bytes) : Keeps (Words ρ) Exn.Usual (openErrorPage sys customPath) :=
  keeps_outside (outside_openErrorPage sys (fun _ => trivial) customPath) (throws_openErrorPage sys customPath)

theorem keeps_appendPage (content : Bytes) : Keeps (Words ρ) Exn.Usual (appendPage sys content) := by
  induction content using appendPage.induct with
  | case1 content ih =>
    rw [appendPage]
    refine (keeps_outside outside_sysTick throws_sysTick).bind fun t => ?_
    rcases sys.readFile t 4096 with _ | k
    · exact .pure _
    simp only
    split
    · exact .pure _
    · rename_i hgot
      exact (keeps_onStore (DataStore.throws_append sys _)).bind fun _ => ih k hgot

theorem keeps_sysOpenWrite (path : Bytes) : Keeps (Words ρ) Exn.Usual (sysOpenWrite sys path) := by
  rintro ⟨r, w⟩ hs
  obtain ⟨file, w', hrun, -⟩ := sysOpenWrite_eq (P := AnyCall) sys path r w
  refine ⟨?_, throws_sysOpenWrite sys path (r, w)⟩
  rw [hrun]
  exact hs

section Admits

variable (ha : ρ.Admits sys)
include ha

theorem Worded.setLookup (h : Worded ρ r) {code : Bytes} (hcode : ρ.code code) : Worded ρ (setStatusCode code r) :=
  h.setStatus hcode fun b hb => ha.phrase b (plain_lookupReasonPhrase code b hb)

theorem Worded.setOwn (h : Worded ρ r) {code phrase : Bytes} (hcode : code ∈ ownCodes) (hphrase : ∀ b ∈ phrase, Plain b) :
    Worded ρ { r with statusCode := code, responsePhrase := phrase } :=
  h.setStatus (ha.codes code hcode) fun b hb => ha.phrase b (hphrase b hb)

theorem Worded.setPhrase (h : Worded ρ r) {phrase : Bytes} (hphrase : ∀ b ∈ phrase, Plain b) :
    Worded ρ (setResponsePhrase phrase r) := h.setStatus h.code fun b hb => ha.phrase b (hphrase b hb)

/-- A header with a name of the source. -/
theorem Worded.addNamed (h : Worded ρ r) {key value : Bytes} (hkey : ∀ b ∈ key, Plain b) (hvalue : ∀ b ∈ value, ρ.text b) :
    Worded ρ (Response.addHeader key value r) := h.addHeader (fun b hb => ha.text b (hkey b hb)) hvalue

theorem Worded.addPlain (h : Worded ρ r) {key value : Bytes} (hkey : ∀ b ∈ key, Plain b) (hvalue : ∀ b ∈ value, Plain b) :
    Worded ρ (Response.addHeader key value r) := h.addNamed ha hkey fun b hb => ha.text b (hvalue b hb)

theorem Worded.addCookie (h : Worded ρ r) (req : Request) : Worded ρ (addCookie req r) := by
  have hblock : Block ρ (Response.addCookie req r) := by
    rcases h.block with hnone | ⟨r₀, hr₀, hheaders, hcookies, hbuffer⟩
    · exact .inl hnone
    · exact .inr ⟨r₀, hr₀, hheaders, hcookies.trans (List.prefix_append _ _), hbuffer⟩
  refine ⟨⟨h.version, h.code, h.phrase, h.headers, fun c hc b hb => ?_⟩, h.filename, hblock⟩
  rcases List.mem_append.1 hc with hc | hc
  · exact h.cookies c hc b hb
  · rw [List.mem_singleton.1 hc] at hb
    have hstart : ∀ b ∈ ascii "session_count=", Plain b := by decide
    have hend : ∀ b ∈ ascii "; Path=/", Plain b := by decide
    refine ha.text b ?_
    rcases List.mem_append.1 hb with hb | hb
    · rcases List.mem_append.1 hb with hb | hb
      · exact hstart b hb
      · exact plain_decimalInt b hb
    · exact hend b hb

theorem keeps_addDateClose : Keeps (Words ρ) Exn.Usual (addDateClose sys) := by
  intro s hs
  have hdate : Worded ρ (Response.addHeader (ascii "Date") (sys.httpDate s.2.now) s.1) :=
    hs.addNamed ha (by decide) (ha.date s.2.now)
  have hclose : Worded ρ (addDateClose sys s).2.1 := hdate.addPlain ha (by decide) (by decide)
  refine ⟨hclose, fun e t ht => ?_⟩
  obtain ⟨r', hrun, -⟩ := addDateClose_eq sys s.1 s.2
  rw [hrun] at ht
  cases ht

/-- The end of an answer without a body. -/
theorem keeps_endHead {f : Response → Response} (h : ∀ r, Worded ρ r → Worded ρ (f r)) :
    Keeps (Words ρ) Exn.Usual (do modObj f; addDateClose sys; modObj startHead : Method Response Unit) := by
  refine Keeps.bind (.modObj fun s hs => h s.1 hs) fun _ => (keeps_addDateClose ha).bind fun _ => ?_
  exact .modObj fun s hs => hs.startHead

theorem keeps_finalizeSuccess {contentType : Bytes} (h : ∀ b ∈ contentType, ρ.text b) :
    Keeps (Words ρ) Exn.Usual (finalizeSuccess sys contentType) :=
  keeps_endHead ha fun _ hr => (hr.addNamed ha (by decide) h).addPlain ha (by decide) plain_decimal

theorem keeps_finalizeHtml : Keeps (Words ρ) Exn.Usual (finalizeSuccess sys (ascii "text/html")) :=
  keeps_finalizeSuccess ha fun b hb => ha.text b ((by decide : ∀ b ∈ ascii "text/html", Plain b) b hb)

/-- Whatever the response was, an error page starts from nothing. -/
theorem meets_resetForError (r : Response) (hversion : r.version = ascii "HTTP/1.0") {code : Bytes} (hcode : ρ.code code) :
    Meets ρ (resetForError code r) :=
  ⟨hversion, hcode, fun b hb => ha.phrase b (plain_lookupReasonPhrase code b hb), fun _ h => absurd h List.not_mem_nil,
    fun _ h => absurd h List.not_mem_nil⟩

/-! ### Error pages -/

/-- An error page, whatever the response was. -/
theorem words_buildErrorPage {code : Bytes} (hcode : ρ.code code) (config : ServerConf) {s : Response × World}
    (hversion : s.1.version = ascii "HTTP/1.0") (hname : ∀ b ∈ s.1.postFilename, ρ.text b) :
    Leads (Words ρ) Exn.Usual (buildErrorPage sys code config) s := by
  obtain ⟨r, w⟩ := s
  have hfill (page : Option Bytes) : Keeps (Words ρ) Exn.Usual (fillErrorPage sys code page) := by
    rcases page with _ | content
    · exact keeps_onStore (DataStore.throws_append sys _)
    · exact keeps_appendPage content
  have hpage : Keeps (Words ρ) Exn.Usual (do
      let page ← openErrorPage sys (config.getErrorPagePath code)
      fillErrorPage sys code page
      finalizeSuccess sys (ascii "text/html")) :=
    (keeps_openErrorPage _).bind fun page => (hfill page).bind fun _ => keeps_finalizeHtml ha
  rw [Leads, buildErrorPage, Eff.bind_ok (onStore_eq DataStore.clear_eq), Eff.modObj_bind]
  refine hpage _ ⟨meets_resetForError ha _ ?_ hcode, hname, .inl rfl⟩
  exact hversion

theorem keeps_buildErrorPage {code : Bytes} (hcode : ρ.code code) (config : ServerConf) :
    Keeps (Words ρ) Exn.Usual (buildErrorPage sys code config) :=
  fun _ hs => words_buildErrorPage ha hcode config hs.version hs.filename

theorem keeps_ownError (config : ServerConf) {code : Bytes} (hcode : code ∈ ownCodes) :
    Keeps (Words ρ) Exn.Usual (buildErrorPage sys code config) := keeps_buildErrorPage ha (ha.codes code hcode) config

/-! ### GET and DELETE -/

theorem keeps_serveFile (path : Bytes) (config : ServerConf) : Keeps (Words ρ) Exn.Usual (serveFile sys path config) := by
  refine (keeps_outside (outside_sysStat sys trivial) (throws_sysStat sys path)).bind fun st => ?_
  rcases st with _ | st
  · exact keeps_ownError ha config (by decide)
  refine (keeps_outside (outside_sysOpenRead sys trivial) (throws_sysOpenRead sys path)).bind fun content => ?_
  rcases content with _ | content
  · exact keeps_ownError ha config (by decide)
  refine Keeps.bind (.modObj fun s hs => ?_) fun _ => keeps_endHead ha fun r hr => ?_
  · have hopened : Worded ρ { s.1 with fileFd := some content, fileSize := st.size, streamBufLen := 0, streamBufSent := 0 } :=
      hs.same ⟨rfl, rfl, rfl, rfl, rfl, rfl, rfl⟩
    exact hopened.setOwn ha (by decide) (by decide)
  · exact (hr.addPlain ha (by decide) (plain_detectContentType path)).addPlain ha (by decide) plain_decimal

theorem keeps_serveDirectory (url resolvedPath : Bytes) (loc : LocationConf) (config : ServerConf) :
    Keeps (Words ρ) Exn.Usual (serveDirectory sys url resolvedPath loc config) := by
  refine .ite (fun _ => ?_) fun _ => keeps_ownError ha config (by decide)
  refine (keeps_outside (outside_buildAutoIndexPage sys _ trivial fun _ _ _ _ _ _ _ => trivial)
    (throws_buildAutoIndexPage sys _ resolvedPath)).bind fun listing => ?_
  refine .ite (fun _ => keeps_ownError ha config (by decide)) fun _ => ?_
  refine (keeps_onStore (DataStore.throws_append sys _)).bind fun _ => ?_
  refine Keeps.bind (.modObj fun s hs => ?_) fun _ => keeps_finalizeHtml ha
  exact Worded.setOwn ha hs (by decide) (by decide)

theorem keeps_serveResolved (req : Request) (loc : LocationConf) (config : ServerConf) (resolvedPath : Bytes)
    (st : Option FileStat) : Keeps (Words ρ) Exn.Usual (serveResolved sys req loc config resolvedPath st) := by
  rcases st with _ | ⟨kind, size⟩
  · exact keeps_ownError ha config (by decide)
  have hdir := keeps_serveDirectory ha req.URL resolvedPath loc config
  cases kind with
  | directory =>
    refine .ite (fun _ => ?_) fun _ => hdir
    refine (keeps_outside (outside_sysStat sys trivial) (throws_sysStat sys _)).bind fun ist => ?_
    exact .ite (fun _ => keeps_serveFile ha _ config) fun _ => hdir
  | other => exact keeps_ownError ha config (by decide)
  | regular => exact keeps_serveFile ha resolvedPath config

theorem keeps_handleGet (req : Request) (loc : LocationConf) (config : ServerConf) :
    Keeps (Words ρ) Exn.Usual (handleGet sys req loc config) := by
  refine Keeps.bind (.modObj fun s hs => Worded.addCookie ha hs req) fun _ => ?_
  refine .ite (fun _ => keeps_ownError ha config (by decide)) fun _ => ?_
  refine (keeps_outside (outside_sysStat sys trivial) (throws_sysStat sys _)).bind fun st => ?_
  exact keeps_serveResolved ha req loc config _ st

theorem keeps_deleteResolved (config : ServerConf) (resolvedPath : Bytes) (st : Option FileStat) :
    Keeps (Words ρ) Exn.Usual (deleteResolved sys config resolvedPath st) := by
  rcases st with _ | st
  · exact keeps_ownError ha config (by decide)
  refine .ite (fun _ => keeps_ownError ha config (by decide)) fun _ => ?_
  refine (keeps_outside (outside_logCall trivial) (throws_logCall _)).bind fun _ => ?_
  refine (keeps_outside outside_sysTick throws_sysTick).bind fun t => ?_
  rcases sys.remove t _ with _ | denied
  · exact keeps_endHead ha fun r hr => (hr.setOwn ha (by decide) (by decide)).addPlain ha (by decide) (by decide)
  · refine keeps_ownError ha config ?_
    split <;> decide

theorem keeps_handleDelete (req : Request) (loc : LocationConf) (config : ServerConf) :
    Keeps (Words ρ) Exn.Usual (handleDelete sys req loc config) := by
  refine Keeps.bind (.modObj fun s hs => Worded.addCookie ha hs req) fun _ => ?_
  refine .ite (fun _ => keeps_ownError ha config (by decide)) fun _ => ?_
  refine (keeps_outside (outside_sysStat sys trivial) (throws_sysStat sys _)).bind fun st => ?_
  exact keeps_deleteResolved ha config _ st

/-! ### POST -/

theorem keeps_failPostWrite : Keeps (Words ρ) Exn.Usual (failPostWrite sys) := by
  refine Keeps.bind (keeps_same fun _ => ⟨rfl, rfl, rfl, rfl, rfl, rfl, rfl⟩) fun _ => .obj_bind fun s _ => ?_
  rcases s.1.cachedConfig with _ | config
  · exact .pure _
  · exact keeps_ownError ha config (by decide)

theorem keeps_finishPost : Keeps (Words ρ) Exn.Usual (finishPost sys) := by
  refine Keeps.bind (keeps_same fun _ => ⟨rfl, rfl, rfl, rfl, rfl, rfl, rfl⟩) fun _ => ?_
  refine (keeps_onStore (DataStore.throws_append sys _)).bind fun _ => Keeps.bind (.modObj fun s hs => ?_) fun _ =>
    keeps_finalizeHtml ha
  have hslash : ∀ b ∈ [slash], Plain b := by decide
  refine Worded.addNamed ha (Worded.setOwn ha hs (by decide) (by decide)) (by decide) fun b hb => ?_
  rcases List.mem_append.1 hb with hb | hb
  · exact ha.text b (hslash b hb)
  · exact hs.filename b hb

omit ha in
theorem keeps_writePost (data : Bytes) : Keeps (Words ρ) Exn.Usual (writePost sys data) := by
  have hrest (written : Option Nat) : Keeps (Words ρ) Exn.Usual
      ((do throwIfSigpipe "writing request body to upload/CGI input"; return written) : Method Response _) :=
    (keeps_outside (outside_throwIfSigpipe _) (throws_throwIfSigpipe _)).bind fun _ => .pure _
  refine .obj_bind fun s _ => ?_
  rcases s.1.postOutFd with _ | f
  · exact (Keeps.pure _).bind hrest
  · refine (keeps_outside (outside_sysWrite sys f data) (throws_sysWrite sys f data)).bind fun written => ?_
    refine Keeps.bind (keeps_same fun _ => ?_) fun _ => (Keeps.pure _).bind hrest
    exact ⟨rfl, rfl, rfl, rfl, rfl, rfl, rfl⟩

end Admits

/-! ### The answer to a request -/

/-- What the request brings into the header block of its answer meets the rule: the redirection of its
location, the name of an upload. -/
structure Answerable (ρ : HeaderRule) (config : ServerConf) (req : Request) : Prop where
  redirect : ∀ loc, req.statusCode = ascii "200" → matchLocation req.URL config = some loc →
    loc.isMethodAllowed req.methodName → loc.returnCode ≠ [] →
    ρ.code loc.returnCode ∧ ∀ b ∈ loc.returnURL, ρ.text b
  upload : ∀ loc, Reaches config loc req → ¬ loc.isScript req.URL → req.methodName = .POST → loc.storageLocation ≠ [] →
    ∀ b ∈ extractFilenameFromUrl req.URL, ρ.text b

/-- The request is `req` but for its body, and the response meets the rule. -/
def Serving (ρ : HeaderRule) (req : Request) (s : Exchange × World) : Prop :=
  (∃ d, s.1.1 = { req with body := d }) ∧ Worded ρ s.1.2

variable {config : ServerConf} {req : Request}

theorem keeps_onRes {α : Type} {m : Method Response α} (h : Keeps (Words ρ) Exn.Usual m) :
    Keeps (Serving ρ req) Exn.Usual (onRes m) :=
  h.on (fun _ hs => hs.2) fun _ _ hs ht => ⟨hs.1, ht⟩

theorem keeps_onReq {α : Type} {m : Method DataStore α} (h : Throws Exn.IsRuntime m) :
    Keeps (Serving ρ req) Exn.Usual (onReq (Request.onBody m)) := by
  rintro ⟨⟨q, r⟩, w⟩ ⟨⟨d, hd⟩, hr⟩
  refine ⟨⟨⟨(m (q.body, w)).2.1, ?_⟩, hr⟩, (usual_of_runtime (Request.throws_onBody h)).on ((q, r), w)⟩
  show { q with body := (m (q.body, w)).2.1 } = _
  rw [show q = { req with body := d } from hd]

theorem keeps_answer {m : Method Response Unit} (h : Keeps (Words ρ) Exn.Usual m) (b : Bool) :
    Keeps (Serving ρ req) Exn.Usual (do onRes m; return b : Method Exchange Bool) :=
  (keeps_onRes h).bind fun _ => .pure _

theorem keeps_writePostSlice : Keeps (Serving ρ req) Exn.Usual (writePostSlice sys) := by
  refine .obj_bind fun x _ => .ite (fun _ => ?_) fun _ => ?_
  · refine .ite (fun _ => (keeps_onRes (keeps_writePost _)).bind fun written => ?_) fun _ => .pure _
    rcases written with _ | _ | k
    · exact .pure _
    · exact .pure _
    · refine Keeps.bind (keeps_onRes (keeps_same fun _ => ?_)) fun _ => .pure _
      exact ⟨rfl, rfl, rfl, rfl, rfl, rfl, rfl⟩
  · refine (keeps_onReq (DataStore.throws_read sys _)).bind fun buf => ?_
    have hrest (ok : Bool) : Keeps (Serving ρ req) Exn.Usual (do
        if ok then
          let body := (← obj).1.body
          return some (body.getSize ≤ body.getReadPosition)
        else return none : Method Exchange (Option Bool)) :=
      .ite (fun _ => .obj_bind fun _ _ => .pure _) fun _ => .pure _
    refine .ite (fun _ => (Keeps.pure _).bind hrest) fun _ => ?_
    exact (keeps_onRes (keeps_writePost _)).bind fun _ => (Keeps.pure _).bind hrest

theorem keeps_prepareCgiInput : Keeps (Serving ρ req) Exn.Usual (prepareCgiInput sys) := by
  have hreset : Keeps (Serving ρ req) Exn.Usual (onReq (Request.onBody (DataStore.resetReadPosition sys))) :=
    keeps_onReq (DataStore.throws_resetReadPosition sys)
  refine .obj_bind fun x _ => .ite (fun _ => ?_) fun _ => ?_
  · exact (keeps_onReq (DataStore.throws_switchToFileMode sys)).bind fun _ => .obj_bind fun _ _ =>
      .ite (fun _ => hreset) fun _ => .pure _
  · exact .obj_bind fun _ _ => .ite (fun _ => hreset) fun _ => .pure _

theorem plain_uploadName (url : Bytes) (now : Nat) :
    uploadName url now = extractFilenameFromUrl url ∨ ∀ b ∈ uploadName url now, Plain b := by
  rw [uploadName]
  split
  · have hname : ∀ b ∈ ascii "upload_", Plain b := by decide
    exact .inr fun b hb => (List.mem_append.1 hb).elim (hname b) (plain_decimal b)
  · exact .inl rfl

section Serving

variable (ha : ρ.Admits sys)
include ha

theorem keeps_ownAnswer {code : Bytes} (hcode : code ∈ ownCodes) (b : Bool) :
    Keeps (Serving ρ req) Exn.Usual (do onRes (buildErrorPage sys code config); return b : Method Exchange Bool) :=
  keeps_answer (keeps_ownError ha config hcode) b

theorem keeps_continuePostWrite : Keeps (Serving ρ req) Exn.Usual (continuePostWrite sys) := by
  refine (keeps_onRes (keeps_outside (outside_throwIfSigpipe _) (throws_throwIfSigpipe _))).bind fun _ => ?_
  refine keeps_writePostSlice.bind fun last => ?_
  rcases last with _ | _ | _
  · exact keeps_answer (keeps_failPostWrite ha) true
  · exact .pure _
  · exact keeps_answer (keeps_finishPost ha) true

theorem keeps_startPost {filename : Bytes} (h : ∀ b ∈ filename, ρ.text b) (file : Option OutFile) :
    Keeps (Serving ρ req) Exn.Usual (startPost sys config filename file) := by
  rcases file with _ | f
  · exact keeps_ownAnswer ha (by decide) true
  refine Keeps.bind (keeps_onRes (.modObj fun s hs => ?_)) fun _ => .obj_bind fun _ _ => .ite (fun _ => ?_) fun _ =>
    keeps_continuePostWrite ha
  · exact ⟨⟨hs.version, hs.code, hs.phrase, hs.headers, hs.cookies⟩, h, hs.block⟩
  · exact (keeps_onReq (DataStore.throws_resetReadPosition sys)).bind fun _ => keeps_continuePostWrite ha

theorem keeps_handlePost {loc : LocationConf}
    (h : loc.storageLocation ≠ [] → ∀ b ∈ extractFilenameFromUrl req.URL, ρ.text b) :
    Keeps (Serving ρ req) Exn.Usual (handlePost sys loc config) := by
  refine .obj_bind fun s hs => ?_
  obtain ⟨⟨q, r⟩, w⟩ := s
  obtain ⟨⟨d, rfl⟩, -⟩ := hs
  refine Keeps.bind (keeps_onRes (.modObj fun s hs => Worded.addCookie ha hs _)) fun _ => ?_
  refine .ite (fun _ => keeps_ownAnswer ha (by decide) true) fun hstore => Keeps.world.bind fun w => ?_
  refine (keeps_onRes (keeps_sysOpenWrite _)).bind fun file => keeps_startPost ha ?_ file
  have hname : ∀ b ∈ uploadName req.URL w.now, ρ.text b := by
    rcases plain_uploadName req.URL w.now with heq | hplain
    · rw [heq]
      exact h hstore
    · exact fun b hb => ha.text b (hplain b hb)
  exact hname

/-! ### CGI -/

theorem keeps_startCgi (hasInput : Bool) : Keeps (Words ρ) Exn.Usual (startCgi sys config hasInput) := by
  refine Keeps.tryCatch (Q := Exn.Usual) (Keeps.bind ?_ fun _ => .pure _) fun e he => ?_
  · exact .on_of_throws (CGIManager.throws_execute sys hasInput) fun _ _ hs => Worded.same hs ⟨rfl, rfl, rfl, rfl, rfl, rfl, rfl⟩
  cases e with
  | client code msg =>
    refine Keeps.bind (keeps_same fun _ => ⟨rfl, rfl, rfl, rfl, rfl, rfl, rfl⟩) fun _ => .ite (fun _ => ?_) fun _ => .throw he
    refine (keeps_ownError ha config (by decide)).bind fun _ => Keeps.bind (.modObj fun s hs => ?_) fun _ => .pure _
    exact Worded.addPlain ha hs (by decide) (by decide)
  | fatal | runtime | execed => exact .throw he

theorem keeps_runScript (loc : LocationConf) (scriptPath : Bytes) :
    Keeps (Serving ρ req) Exn.Usual (runScript sys loc config scriptPath) := by
  refine keeps_prepareCgiInput.bind fun _ => .obj_bind fun s _ => ?_
  refine Keeps.bind (keeps_onRes (keeps_same fun _ => ?_)) fun _ => (keeps_onRes (keeps_startCgi ha _)).bind fun started => ?_
  · exact ⟨rfl, rfl, rfl, rfl, rfl, rfl, rfl⟩
  refine .ite (fun _ => Keeps.bind (keeps_onRes (keeps_same fun _ => ?_)) fun _ => .pure _) fun _ => .pure _
  exact ⟨rfl, rfl, rfl, rfl, rfl, rfl, rfl⟩

theorem keeps_handleCGI (loc : LocationConf) : Keeps (Serving ρ req) Exn.Usual (handleCGI sys loc config) := by
  refine .obj_bind fun s _ => Keeps.bind (keeps_onRes (.modObj fun s hs => Worded.addCookie ha hs _)) fun _ => ?_
  refine .ite (fun _ => keeps_ownAnswer ha (by decide) true) fun _ => ?_
  refine (keeps_onRes (keeps_outside (outside_sysStat sys trivial) (throws_sysStat sys _))).bind fun st => ?_
  exact .ite (fun _ => keeps_ownAnswer ha (by decide) true) fun _ => keeps_runScript ha loc _

/-! ### `buildResponse` -/

theorem keeps_buildRedirect {loc : LocationConf} (hcode : ρ.code loc.returnCode) (hurl : ∀ b ∈ loc.returnURL, ρ.text b) :
    Keeps (Words ρ) Exn.Usual (buildRedirect sys loc) := by
  have hend : Keeps (Words ρ) Exn.Usual (do
      modObj (Response.addHeader (ascii "Content-Length") (ascii "0"))
      addDateClose sys
      modObj startHead : Method Response Unit) :=
    keeps_endHead ha fun r hr => hr.addPlain ha (by decide) (by decide)
  refine Keeps.bind (.modObj fun s hs => Worded.setLookup ha hs hcode) fun _ => .ite (fun _ => ?_) fun _ => hend
  exact Keeps.bind (.modObj fun s hs => Worded.addNamed ha hs (by decide) hurl) fun _ => hend

theorem keeps_buildResponse (hcode : req.statusCode ≠ ascii "200" → ρ.code req.statusCode) (hreq : Answerable ρ config req) :
    Keeps (Serving ρ req) Exn.Usual (buildResponse sys config) := by
  refine .obj_bind fun s hs => ?_
  obtain ⟨⟨q, r⟩, w⟩ := s
  obtain ⟨⟨d, rfl⟩, -⟩ := hs
  refine .ite (fun _ => keeps_continuePostWrite ha) fun _ => .ite (fun _ => .pure _) fun _ => ?_
  refine Keeps.bind (keeps_onRes (keeps_same fun _ => ⟨rfl, rfl, rfl, rfl, rfl, rfl, rfl⟩)) fun _ => ?_
  refine .ite (fun hstatus => keeps_answer (keeps_buildErrorPage ha (hcode hstatus) config) true) fun hstatus => ?_
  have hok : req.statusCode = ascii "200" := not_not.1 hstatus
  rcases hloc : matchLocation req.URL config with _ | loc
  · exact keeps_ownAnswer ha (by decide) true
  refine .ite (fun _ => keeps_ownAnswer ha (by decide) true) fun hallowed => ?_
  have hallows := not_not.1 hallowed
  refine .ite (fun hreturn => ?_) fun hreturn => .ite (fun _ => keeps_handleCGI ha loc) fun hscript => ?_
  · obtain ⟨hcode, hurl⟩ := hreq.redirect loc hok hloc hallows hreturn
    exact keeps_answer (keeps_buildRedirect ha hcode hurl) true
  have hreaches : Reaches config loc req := ⟨hok, hloc, hallows, not_not.1 hreturn⟩
  rcases hmethod : req.methodName with _ | _ | _ | _
  · exact keeps_ownAnswer ha (by decide) true
  · exact keeps_answer (keeps_handleGet ha _ loc config) true
  · exact keeps_handlePost ha fun hstore => hreq.upload loc hreaches hscript hmethod hstore
  · exact keeps_answer (keeps_handleDelete ha _ loc config) true

end Serving

/-! ### Sending, and the output of a script -/

theorem keeps_sendSlice (fd : Nat) : Keeps (Words ρ) Exn.Usual (sendSlice sys fd) := by
  intro s hs
  refine ⟨?_, throws_sendSlice sys fd s⟩
  obtain ⟨hsent, -⟩ := sendsOnly_sendSlice sys fd s
  rw [Sent] at hsent
  have hsame : SameHead s.1 (sendSlice sys fd s).2.1 := by
    rw [hsent]
    exact ⟨rfl, rfl, rfl, rfl, rfl, rfl, rfl⟩
  exact hs.same hsame

theorem keeps_isCgiDone : Keeps (Words ρ) Exn.Usual (readCgiOutput.isCgiDone sys) :=
  .on_of_throws (CGIManager.throws_isDone sys) fun _ _ hs => Worded.same hs ⟨rfl, rfl, rfl, rfl, rfl, rfl, rfl⟩

theorem keeps_readCgiOutput (got : Option Bytes) : Keeps (Words ρ) Exn.Usual (readCgiOutput sys got) := by
  have hdone : Keeps (Words ρ) Exn.Usual (do let _ ← readCgiOutput.isCgiDone sys; return true : Method Response Bool) :=
    keeps_isCgiDone.bind fun _ => .pure _
  refine .obj_bind fun s _ => ?_
  rcases s.1.cgiInstance with _ | cgi
  · exact .pure _
  refine .ite (fun _ => .pure _) fun _ => ?_
  rcases got with _ | _ | ⟨b, data⟩
  · exact hdone
  · exact hdone
  · exact (keeps_onStore (DataStore.throws_append sys _)).bind fun _ => keeps_isCgiDone

/-- The rule admits what a script may say: a status of three digits, and lines. -/
structure AdmitsScripts (ρ : HeaderRule) : Prop where
  code : ∀ code, code.length = 3 → code.all isdigit → ρ.code code
  phrase : ∀ b, b ≠ LF → ρ.phrase b
  text : ∀ b, b ≠ LF → ρ.text b

/-- All but the status meets the rule. -/
def Statusless (ρ : HeaderRule) (r : Response) : Prop :=
  ∀ code phrase, ρ.code code → (∀ b ∈ phrase, ρ.phrase b) → Worded ρ { r with statusCode := code, responsePhrase := phrase }

theorem Worded.statusless (h : Worded ρ r) : Statusless ρ r := fun _ _ hcode hphrase => h.setStatus hcode hphrase

section Scripts

variable (ha : ρ.Admits sys)
include ha

theorem words_badGateway {s : Response × World} (h : Statusless ρ s.1) :
    Leads (Words ρ) Exn.Usual (badGateway sys) s := by
  have hcode : ρ.code (ascii "502") := ha.codes _ (by decide)
  have hforget : Keeps (Words ρ) Exn.Usual (modObj fun r => { r with cgiInstance := none } : Method Response Unit) :=
    keeps_same fun _ => ⟨rfl, rfl, rfl, rfl, rfl, rfl, rfl⟩
  have hphrase : ∀ b ∈ ascii "Bad Gateway", Plain b := by decide
  have hset := h (ascii "502") (ascii "Bad Gateway") hcode fun b hb => ha.phrase b (hphrase b hb)
  rw [Leads, badGateway, Eff.obj_bind]
  rcases s.1.cachedConfig with _ | config
  · exact hforget _ hset
  · exact (words_buildErrorPage ha hcode config hset.version hset.filename).bind fun _ => hforget

theorem keeps_badGateway : Keeps (Words ρ) Exn.Usual (badGateway sys) :=
  fun _ hs => words_badGateway ha (Worded.statusless hs)

theorem keeps_cgiTimeout (config : ServerConf) : Keeps (Words ρ) Exn.Usual (cgiTimeout sys config) := by
  have hpage : Keeps (Words ρ) Exn.Usual (do
      modObj fun r => { r with buildPhase := .BUILD_DONE }
      buildErrorPage sys (ascii "504") config : Method Response Unit) :=
    Keeps.bind (keeps_same fun _ => ⟨rfl, rfl, rfl, rfl, rfl, rfl, rfl⟩) fun _ => keeps_ownError ha config (by decide)
  have hforget : Keeps (Words ρ) Exn.Usual (do
      modObj fun r => { r with cgiInstance := none }
      modObj fun r => { r with buildPhase := .BUILD_DONE }
      buildErrorPage sys (ascii "504") config : Method Response Unit) :=
    Keeps.bind (keeps_same fun _ => ⟨rfl, rfl, rfl, rfl, rfl, rfl, rfl⟩) fun _ => hpage
  refine .obj_bind fun s _ => ?_
  rcases s.1.cgiInstance with _ | cgi
  · exact hpage
  simp only
  rcases cgi.pId with _ | pid
  · exact hforget
  · have hkill : Keeps (Words ρ) Exn.Usual (killCgi pid) :=
      (keeps_outside outside_sysTick throws_sysTick).bind fun _ => .modWorld fun _ hs => hs
    exact hkill.bind fun _ => keeps_isCgiDone.bind fun _ => hforget

variable (hscript : AdmitsScripts ρ)
include hscript

/-- A line of a script. -/
theorem parseCgiHeaderLine_words {line contentType : Bytes} (hline : LF ∉ line) (hr : Worded ρ r)
    (htype : ∀ b ∈ contentType, ρ.text b) :
    Statusless ρ (parseCgiHeaderLine line contentType r).2.2 ∧
      ((parseCgiHeaderLine line contentType r).1 = true → Worded ρ (parseCgiHeaderLine line contentType r).2.2 ∧
        ∀ b ∈ (parseCgiHeaderLine line contentType r).2.1, ρ.text b) := by
  obtain ⟨l, hl⟩ : ∃ l, l = if line.getLast? = some CR then line.dropLast else line := ⟨_, rfl⟩
  have hlf : LF ∉ l := by
    rw [hl]
    split
    · exact fun h => hline (List.mem_of_mem_dropLast h)
    · exact hline
  unfold parseCgiHeaderLine
  simp only [← hl]
  split
  · exact ⟨hr.statusless, fun _ => ⟨hr, htype⟩⟩
  split
  · exact ⟨hr.statusless, (by rintro ⟨⟩)⟩
  rename_i colonPos _
  obtain ⟨value, hv⟩ : ∃ value, value = if (l.drop (colonPos + 1)).dropWhile isBlank = [] then l.drop (colonPos + 1)
    else (l.drop (colonPos + 1)).dropWhile isBlank := ⟨_, rfl⟩
  have hvlf : LF ∉ value := by
    rw [hv]
    split
    · exact fun h => hlf (List.mem_of_mem_drop h)
    · exact fun h => hlf (List.mem_of_mem_drop ((List.dropWhile_sublist _).mem h))
  have hvalue : ∀ b ∈ value, ρ.text b := fun b hb => hscript.text b fun heq => hvlf (heq ▸ hb)
  simp only [← hv]
  split_ifs
  · exact ⟨hr.statusless, fun _ => ⟨hr, hvalue⟩⟩
  · -- a status that is not three digits ends the parse
    refine ⟨?_, fun hok => ?_⟩
    · intro code phrase hcode hphrase
      have hset := hr.setStatus hcode hphrase
      unfold cgiStatus
      split
      · exact hset
      · exact hset
    · rw [decide_eq_true_eq] at hok
      refine ⟨?_, htype⟩
      have hcode : ρ.code (cgiStatus value r).statusCode := hscript.code _ hok.1 hok.2
      revert hcode
      unfold cgiStatus
      split
      · exact fun hcode => hr.setStatus hcode fun b hb => hscript.phrase b fun heq => hvlf (heq ▸ List.mem_of_mem_drop hb)
      · exact fun hcode => hr.setLookup ha hcode
  · have hadd : Worded ρ (Response.addHeader (ascii "Location") value r) := hr.addNamed ha (by decide) hvalue
    exact ⟨hadd.statusless, fun _ => ⟨hadd, htype⟩⟩
  · have hadd : Worded ρ (Response.addHeader (ascii "Set-Cookie") value r) := hr.addNamed ha (by decide) hvalue
    exact ⟨hadd.statusless, fun _ => ⟨hadd, htype⟩⟩
  · exact ⟨hr.statusless, fun _ => ⟨hr, htype⟩⟩

theorem parseCgiHeaderLines_words {lines : List Bytes} (hlines : ∀ line ∈ lines, LF ∉ line) {contentType : Bytes}
    (hr : Worded ρ r) (htype : ∀ b ∈ contentType, ρ.text b) :
    Statusless ρ (parseCgiHeaderLines lines contentType r).2 ∧ ∀ t, (parseCgiHeaderLines lines contentType r).1 = some t →
      Worded ρ (parseCgiHeaderLines lines contentType r).2 ∧ ∀ b ∈ t, ρ.text b := by
  induction lines generalizing contentType r with
  | nil =>
    refine ⟨hr.statusless, fun t ht => ?_⟩
    cases ht
    exact ⟨hr, htype⟩
  | cons line lines ih =>
    obtain ⟨hless, hgood⟩ := parseCgiHeaderLine_words ha hscript (hlines line List.mem_cons_self) hr htype
    rw [parseCgiHeaderLines]
    rcases hrun : parseCgiHeaderLine line contentType r with ⟨_ | _, contentType', r'⟩ <;> rw [hrun] at hless hgood
    · exact ⟨hless, (by intros; contradiction)⟩
    · obtain ⟨hr', htype'⟩ := hgood rfl
      exact ih (fun line hline => hlines line (List.mem_cons_of_mem _ hline)) hr' htype'

theorem parseCgiHeaders_words (headerBlock : Bytes) (hr : Worded ρ r) :
    Statusless ρ (parseCgiHeaders headerBlock r).2 ∧ ∀ t, (parseCgiHeaders headerBlock r).1 = some t →
      Worded ρ (parseCgiHeaders headerBlock r).2 ∧ ∀ b ∈ t, ρ.text b := by
  have hset : Worded ρ { r with statusCode := ascii "200", responsePhrase := ascii "OK" } :=
    hr.setOwn ha (by decide) (by decide)
  have hhtml : ∀ b ∈ ascii "text/html", Plain b := by decide
  unfold parseCgiHeaders
  simp only
  split
  · exact ⟨hset.statusless, nofun⟩
  · exact parseCgiHeaderLines_words ha hscript (fun _ hline => List.not_mem_of_mem_splitOn hline) hset
      fun b hb => ha.text b (hhtml b hb)

theorem keeps_finalizeCgiResponse : Keeps (Words ρ) Exn.Usual (finalizeCgiResponse sys) := by
  have hbad : Keeps (Words ρ) Exn.Usual (badGateway sys) := keeps_badGateway ha
  refine Keeps.bind (keeps_same fun _ => ⟨rfl, rfl, rfl, rfl, rfl, rfl, rfl⟩) fun _ => ?_
  refine (keeps_onStore (throws_drainDataStore sys)).bind fun cgiOutput => .ite (fun _ => hbad) fun _ => ?_
  refine .ite (fun _ => hbad) fun _ => .obj_bind fun s hs => ?_
  obtain ⟨hless, hgood⟩ := parseCgiHeaders_words ha hscript (splitCgiOutput cgiOutput).1 hs
  change Keeps (Words ρ) Exn.Usual (do
    modObj fun _ => (parseCgiHeaders (splitCgiOutput cgiOutput).1 s.1).2
    answerScript sys (splitCgiOutput cgiOutput).2 (parseCgiHeaders (splitCgiOutput cgiOutput).1 s.1).1)
  rcases htype : (parseCgiHeaders (splitCgiOutput cgiOutput).1 s.1).1 with _ | contentType
  · exact fun t _ => words_badGateway (s := ((parseCgiHeaders (splitCgiOutput cgiOutput).1 s.1).2, t.2)) ha hless
  · obtain ⟨hr, htext⟩ := hgood contentType htype
    refine Keeps.bind (.modObj fun _ _ => hr) fun _ => (keeps_onStore DataStore.throws_clear).bind fun _ => ?_
    refine (keeps_onStore (DataStore.throws_append sys _)).bind fun _ => (keeps_finalizeSuccess ha htext).bind fun _ => ?_
    exact keeps_same fun _ => ⟨rfl, rfl, rfl, rfl, rfl, rfl, rfl⟩

end Scripts

end Response

end LeftHookRoll
