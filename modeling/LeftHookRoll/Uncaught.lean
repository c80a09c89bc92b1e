import LeftHookRoll.Connection
import LeftHookRoll.Exceptions

/-!
# What the methods of a connection let through

`Exn.Raised`: the exceptions that the code of a connection throws, with the texts of those that are fatal, which only
a child throws. The handlers let no `ClientException` through (`escapes_onException`).
-/

namespace LeftHookRoll

open Eff

/-- The texts of the exceptions that a child throws which does not become its script. -/
def childFailures : List String :=
  ["CGI child fatal: missing script path", "CGI child fatal: chdir() failed", "CGI child fatal: dup2(stdin) failed",
    "CGI child fatal: dup2(stdout) failed", "CGI child fatal: execve() failed"]

/-- What the code of a connection throws. -/
inductive Exn.Raised : Exn → Prop
  | client (code : Nat) (msg : String) : Raised (.client code msg)
  | runtime (msg : String) : Raised (.runtime msg)
  | child {msg : String} (h : msg ∈ childFailures) : Raised (.fatal msg)
  | execed : Raised .execed

/-- What its handlers let through: the process is a child, or a handler has failed itself. -/
structure Exn.Escapes (e : Exn) : Prop where
  raised : e.Raised
  unhandled : ∀ code msg, e ≠ .client code msg

theorem Exn.IsRuntime.raised {e : Exn} (h : e.IsRuntime) : e.Raised := by
  obtain ⟨msg, rfl⟩ := h
  exact .runtime msg

theorem Exn.IsRuntime.escapes {e : Exn} (h : e.IsRuntime) : e.Escapes := by
  refine ⟨h.raised, fun code msg heq => ?_⟩
  obtain ⟨text, rfl⟩ := h
  cases heq

section Raised

variable {σ α : Type} (sys : Sys)

theorem raised_of_runtime {m : Method σ α} (h : Throws Exn.IsRuntime m) : Throws Exn.Raised m := h.mono fun _ => Exn.IsRuntime.raised

theorem raised_throwIfSigpipe (context : String) : Throws Exn.Raised (throwIfSigpipe context : Method σ Unit) :=
  Throws.world.bind fun _ => .ite (fun _ => (Throws.modWorld _).bind fun _ => .throw (.client _ _)) fun _ => .pure _

/-! ### Scripts -/

namespace CGIManager

theorem raised_prepareChildExecutionContext : Throws Exn.Raised (prepareChildExecutionContext sys) := by
  refine Throws.obj.bind fun c => ?_
  rcases c.scriptArgv.getLast? with _ | scriptPath
  · exact .throw (.child (by simp [childFailures]))
  · exact throws_sysTick.bind fun t => .ite (fun _ => .pure _) fun _ => .throw (.child (by simp [childFailures]))

theorem raised_runChild (hasInput : Bool) : Throws Exn.Raised (runChild sys hasInput) := by
  have hthrow {p : Prop} [Decidable p] {msg : String} (hmsg : msg ∈ childFailures) {k : Unit → Method CGIManager Unit}
      (hk : ∀ u, Throws Exn.Raised (k u)) : Throws Exn.Raised (if p then throw (.fatal msg) >>= k else k ()) :=
    .ite (fun _ => (Throws.throw (.child hmsg)).bind hk) fun _ => hk ()
  have hexec {p : Prop} [Decidable p] {msg : String} (hmsg : msg ∈ childFailures) :
      Throws Exn.Raised (if p then throw .execed >>= fun _ : PUnit => throw (.fatal msg) else throw (.fatal msg)
        : Method CGIManager Unit) :=
    .ite (fun _ => (Throws.throw .execed).bind fun _ => .throw (.child hmsg)) fun _ => .throw (.child hmsg)
  refine (raised_prepareChildExecutionContext sys).bind fun argv => (Throws.modObj _).bind fun _ => ?_
  refine .ite (fun _ => throws_sysTick.bind fun t => hthrow (by simp [childFailures]) fun _ => ?_) fun _ => ?_
  all_goals
    refine (Throws.modObj _).bind fun _ => throws_sysTick.bind fun t => hthrow (by simp [childFailures]) fun _ => ?_
    exact throws_sysTick.bind fun t => hexec (by simp [childFailures])

theorem raised_execute (hasInput : Bool) : Throws Exn.Raised (execute sys hasInput) := by
  have hlimit : Throws Exn.Raised (isSpawnLimitReached sys) := by
    intro s e t h
    rw [isSpawnLimitReached_eq] at h
    cases h
  refine hlimit.bind fun full => .ite (fun _ => (Throws.throw (.client _ _)).bind fun _ => ?_) fun _ => ?_
  all_goals
    refine throws_sysTick.bind fun t => ?_
    rcases sys.pipe t with _ | readEnd
    · exact .throw (.client _ _)
    refine (Throws.modObj _).bind fun _ => Throws.obj.bind fun c => (throws_logCall _).bind fun _ => ?_
    refine throws_sysTick.bind fun t => ?_
    rcases sys.fork t with _ | pid | _
    · exact (Throws.modObj _).bind fun _ => .throw (.client _ _)
    · exact (Throws.modObj _).bind fun _ => .modWorld _
    · exact raised_runChild sys hasInput

end CGIManager

/-! ### Answers -/

namespace Response

theorem runtime_onStore {m : Method DataStore α} (h : Throws Exn.IsRuntime m) : Throws Exn.IsRuntime (onStore m) := h.on

theorem runtime_addDateClose : Throws Exn.IsRuntime (addDateClose sys) :=
  (Throws.world.bind fun _ => .pure _).bind fun _ => .modObj _

theorem runtime_finalizeSuccess (contentType : Bytes) : Throws Exn.IsRuntime (finalizeSuccess sys contentType) :=
  (Throws.modObj _).bind fun _ => (runtime_addDateClose sys).bind fun _ => .modObj _

theorem runtime_appendPage (content : Bytes) : Throws Exn.IsRuntime (appendPage sys content) := by
  induction content using appendPage.induct with
  | case1 content ih =>
    rw [appendPage]
    refine throws_sysTick.bind fun t => ?_
    rcases sys.readFile t 4096 with _ | k
    · exact .pure _
    · exact .dite (fun _ => .pure _) fun hgot => (runtime_onStore (DataStore.throws_append sys _)).bind fun _ => ih k hgot

theorem runtime_buildErrorPage (code : Bytes) (config : ServerConf) : Throws Exn.IsRuntime (buildErrorPage sys code config) := by
  refine (runtime_onStore DataStore.throws_clear).bind fun _ => (Throws.modObj _).bind fun _ => ?_
  refine (throws_openErrorPage sys _).bind fun page => Throws.bind ?_ fun _ => runtime_finalizeSuccess sys _
  rcases page with _ | content
  · exact runtime_onStore (DataStore.throws_append sys _)
  · exact runtime_appendPage sys content

theorem runtime_serveFile (path : Bytes) (config : ServerConf) : Throws Exn.IsRuntime (serveFile sys path config) := by
  refine (throws_sysStat sys path).bind fun st => ?_
  rcases st with _ | st
  · exact runtime_buildErrorPage sys _ config
  refine (throws_sysOpenRead sys path).bind fun content => ?_
  rcases content with _ | content
  · exact runtime_buildErrorPage sys _ config
  · exact (Throws.modObj _).bind fun _ => (Throws.modObj _).bind fun _ => (runtime_addDateClose sys).bind fun _ => .modObj _

theorem runtime_serveDirectory (url resolvedPath : Bytes) (loc : LocationConf) (config : ServerConf) :
    Throws Exn.IsRuntime (serveDirectory sys url resolvedPath loc config) := by
  refine .ite (fun _ => (throws_buildAutoIndexPage sys _ _).bind fun listing => ?_) fun _ => runtime_buildErrorPage sys _ config
  refine .ite (fun _ => runtime_buildErrorPage sys _ config) fun _ => (runtime_onStore (DataStore.throws_append sys _)).bind fun _ => ?_
  exact (Throws.modObj _).bind fun _ => runtime_finalizeSuccess sys _

theorem runtime_serveResolved (req : Request) (loc : LocationConf) (config : ServerConf) (resolvedPath : Bytes)
    (st : Option FileStat) : Throws Exn.IsRuntime (serveResolved sys req loc config resolvedPath st) := by
  rcases st with _ | ⟨kind, size⟩
  · exact runtime_buildErrorPage sys _ config
  have hdirectory := runtime_serveDirectory sys req.URL resolvedPath loc config
  cases kind with
  | directory =>
    refine .ite (fun _ => (throws_sysStat sys _).bind fun ist => ?_) fun _ => hdirectory
    exact .ite (fun _ => runtime_serveFile sys _ config) fun _ => hdirectory
  | other => exact runtime_buildErrorPage sys _ config
  | regular => exact runtime_serveFile sys _ config

theorem runtime_handleGet (req : Request) (loc : LocationConf) (config : ServerConf) :
    Throws Exn.IsRuntime (handleGet sys req loc config) := by
  refine (Throws.modObj _).bind fun _ => .ite (fun _ => runtime_buildErrorPage sys _ config) fun _ => ?_
  exact (throws_sysStat sys _).bind fun st => runtime_serveResolved sys req loc config _ st

theorem runtime_handleDelete (req : Request) (loc : LocationConf) (config : ServerConf) :
    Throws Exn.IsRuntime (handleDelete sys req loc config) := by
  refine (Throws.modObj _).bind fun _ => .ite (fun _ => runtime_buildErrorPage sys _ config) fun _ => ?_
  refine (throws_sysStat sys _).bind fun st => ?_
  rcases st with _ | st
  · exact runtime_buildErrorPage sys _ config
  refine .ite (fun _ => runtime_buildErrorPage sys _ config) fun _ => (throws_logCall _).bind fun _ => ?_
  refine throws_sysTick.bind fun t => ?_
  rcases sys.remove t _ with _ | denied
  · exact (Throws.modObj _).bind fun _ => (runtime_addDateClose sys).bind fun _ => .modObj _
  · exact runtime_buildErrorPage sys _ config

/-! ### Uploads and scripts -/

theorem raised_onRes {m : Method Response α} (h : Throws Exn.Raised m) : Throws Exn.Raised (onRes m) := h.on

theorem raised_errorPage (code : Bytes) (config : ServerConf) :
    Throws Exn.Raised (do onRes (buildErrorPage sys code config); return true : Method Exchange Bool) :=
  (raised_onRes (raised_of_runtime (runtime_buildErrorPage sys code config))).bind fun _ => .pure _

theorem raised_onReqBody {m : Method DataStore α} (h : Throws Exn.IsRuntime m) : Throws Exn.Raised (onReq (Request.onBody m)) :=
  (raised_of_runtime (Request.throws_onBody h)).on

theorem runtime_failPostWrite : Throws Exn.IsRuntime (failPostWrite sys) := by
  refine (Throws.modObj _).bind fun _ => Throws.obj.bind fun r => ?_
  rcases r.cachedConfig with _ | config
  · exact .pure _
  · exact runtime_buildErrorPage sys _ config

theorem runtime_finishPost : Throws Exn.IsRuntime (finishPost sys) := by
  refine (Throws.modObj _).bind fun _ => (runtime_onStore (DataStore.throws_append sys _)).bind fun _ => ?_
  exact (Throws.modObj _).bind fun _ => runtime_finalizeSuccess sys _

theorem raised_writePost (data : Bytes) : Throws Exn.Raised (writePost sys data) := by
  have hrest (written : Option Nat) : Throws Exn.Raised (do
      throwIfSigpipe "writing request body to upload/CGI input"
      return written : Method Response (Option Nat)) := (raised_throwIfSigpipe _).bind fun _ => .pure _
  refine Throws.obj.bind fun r => ?_
  rcases r.postOutFd with _ | f
  · exact (Throws.pure _).bind hrest
  · exact (throws_sysWrite sys f data).bind fun _ => (Throws.modObj _).bind fun _ => hrest _

theorem raised_writePostSlice : Throws Exn.Raised (writePostSlice sys) := by
  refine Throws.obj.bind fun x => .ite (fun _ => .ite (fun _ => ?_) fun _ => .pure _) fun _ => ?_
  · refine (raised_onRes (raised_writePost sys _)).bind fun written => ?_
    rcases written with _ | _ | k
    · exact .pure _
    · exact .pure _
    · exact (raised_onRes (.modObj _)).bind fun _ => .pure _
  · have hrest (ok : Bool) : Throws Exn.Raised (do
        if ok then
          let body := (← obj).1.body
          return some (body.getSize ≤ body.getReadPosition)
        else return none : Method Exchange (Option Bool)) :=
      .ite (fun _ => Throws.obj.bind fun _ => .pure _) fun _ => .pure _
    refine (raised_onReqBody (DataStore.throws_read sys _)).bind fun buf => .ite (fun _ => (Throws.pure _).bind hrest) fun _ => ?_
    exact (raised_onRes (raised_writePost sys _)).bind fun _ => hrest _

theorem raised_continuePostWrite : Throws Exn.Raised (continuePostWrite sys) := by
  refine (raised_onRes (raised_throwIfSigpipe _)).bind fun _ => (raised_writePostSlice sys).bind fun done => ?_
  rcases done with _ | _ | _
  · exact (raised_onRes (raised_of_runtime (runtime_failPostWrite sys))).bind fun _ => .pure _
  · exact .pure _
  · exact (raised_onRes (raised_of_runtime (runtime_finishPost sys))).bind fun _ => .pure _

theorem raised_handlePost (loc : LocationConf) (config : ServerConf) : Throws Exn.Raised (handlePost sys loc config) := by
  refine Throws.obj.bind fun x => (raised_onRes (.modObj _)).bind fun _ => .ite (fun _ => raised_errorPage sys _ config) fun _ => ?_
  refine Throws.world.bind fun w => (raised_onRes (throws_sysOpenWrite sys _)).bind fun file => ?_
  rcases file with _ | f
  · exact raised_errorPage sys _ config
  refine (raised_onRes (.modObj _)).bind fun _ => Throws.obj.bind fun x => ?_
  refine .ite (fun _ => ?_) fun _ => raised_continuePostWrite sys
  exact (raised_onReqBody (DataStore.throws_resetReadPosition sys)).bind fun _ => raised_continuePostWrite sys

theorem raised_startCgi (config : ServerConf) (hasInput : Bool) : Throws Exn.Raised (startCgi sys config hasInput) := by
  refine Throws.tryCatch (Q := Exn.Raised) ((CGIManager.raised_execute sys hasInput).on.bind fun _ => .pure _) fun e he => ?_
  cases he with
  | client code msg =>
    refine (Throws.modObj _).bind fun _ => .ite (fun _ => ?_) fun _ => .throw (.client _ _)
    refine (raised_of_runtime (runtime_buildErrorPage sys _ config)).bind fun _ => (Throws.modObj _).bind fun _ => ?_
    exact .pure _
  | runtime msg => exact .throw (.runtime msg)
  | child h => exact .throw (.child h)
  | execed => exact .throw .execed

theorem raised_handleCGI (loc : LocationConf) (config : ServerConf) : Throws Exn.Raised (handleCGI sys loc config) := by
  refine Throws.obj.bind fun x => (raised_onRes (.modObj _)).bind fun _ => .ite (fun _ => raised_errorPage sys _ config) fun _ => ?_
  refine (raised_onRes (throws_sysStat sys _)).bind fun st => .ite (fun _ => raised_errorPage sys _ config) fun _ => ?_
  have hreset : Throws Exn.Raised (do
      if (← obj).1.body.getMode = .FILE_MODE then onReq (Request.onBody (DataStore.resetReadPosition sys))
      : Method Exchange Unit) :=
    Throws.obj.bind fun _ => .ite (fun _ => raised_onReqBody (DataStore.throws_resetReadPosition sys)) fun _ => .pure _
  have hinput : Throws Exn.Raised (prepareCgiInput sys) := by
    refine Throws.obj.bind fun x => .ite (fun _ => ?_) fun _ => hreset
    exact (raised_onReqBody (DataStore.throws_switchToFileMode sys)).bind fun _ => hreset
  refine hinput.bind fun _ => Throws.obj.bind fun x => (raised_onRes (.modObj _)).bind fun _ => ?_
  refine (raised_onRes (raised_startCgi sys config _)).bind fun started => .ite (fun _ => ?_) fun _ => .pure _
  exact (raised_onRes (.modObj _)).bind fun _ => .pure _

theorem raised_buildResponse (config : ServerConf) : Throws Exn.Raised (buildResponse sys config) := by
  have hanswer {m : Method Response Unit} (h : Throws Exn.IsRuntime m) :
      Throws Exn.Raised (do onRes m; return true : Method Exchange Bool) :=
    (raised_onRes (raised_of_runtime h)).bind fun _ => .pure _
  refine Throws.obj.bind fun x => .ite (fun _ => raised_continuePostWrite sys) fun _ => .ite (fun _ => .pure _) fun _ => ?_
  refine (raised_onRes (.modObj _)).bind fun _ => .ite (fun _ => raised_errorPage sys _ config) fun _ => ?_
  rcases matchLocation x.1.URL config with _ | loc
  · exact raised_errorPage sys _ config
  refine .ite (fun _ => raised_errorPage sys _ config) fun _ => .ite (fun _ => ?_) fun _ => ?_
  · refine hanswer ((Throws.modObj _).bind fun _ => ?_)
    have hend : Throws Exn.IsRuntime (do
        modObj (addHeader (ascii "Content-Length") (ascii "0"))
        addDateClose sys
        modObj startHead : Method Response Unit) :=
      (Throws.modObj _).bind fun _ => (runtime_addDateClose sys).bind fun _ => .modObj _
    exact .ite (fun _ => (Throws.modObj _).bind fun _ => hend) fun _ => hend
  refine .ite (fun _ => raised_handleCGI sys loc config) fun _ => ?_
  cases x.1.methodName with
  | GET => exact hanswer (runtime_handleGet sys x.1 loc config)
  | POST => exact raised_handlePost sys loc config
  | DELETE => exact hanswer (runtime_handleDelete sys x.1 loc config)
  | UNKNOWN_METHOD => exact raised_errorPage sys _ config

/-! ### Sending -/

theorem raised_sendStreamBuf (fd : Nat) (context : String) : Throws Exn.Raised (sendStreamBuf sys fd context) := by
  refine Throws.obj.bind fun r => (throws_sysSend sys fd _).bind fun sent => (raised_throwIfSigpipe _).bind fun _ => ?_
  rcases sent with _ | _ | k
  · exact .pure _
  · exact .pure _
  · exact (Throws.modObj _).bind fun _ => .pure _

theorem raised_sendBodyFile (fd : Nat) (rest : Bytes) : Throws Exn.Raised (sendBodyFile sys fd rest) := by
  have hclose : Throws Exn.Raised (do closeFile; return true : Method Response Bool) :=
    (Throws.modObj _).bind fun _ => .pure _
  have hrest (more : Bool) : Throws Exn.Raised (do
      if more then
        if ← sendStreamBuf sys fd "sending response body file chunk" then
          let r ← obj
          if r.totalBytesSent - r.headerBuffer.length ≥ r.fileSize then
            closeFile
            return true
          else return false
        else
          closeFile
          return true
      else
        closeFile
        return true : Method Response Bool) := by
    refine .ite (fun _ => (raised_sendStreamBuf sys fd _).bind fun took => ?_) fun _ => hclose
    exact .ite (fun _ => Throws.obj.bind fun _ => .ite (fun _ => hclose) fun _ => .pure _) fun _ => hclose
  refine (raised_throwIfSigpipe _).bind fun _ => Throws.obj.bind fun r => .ite (fun _ => ?_) fun _ => ?_
  · exact (throws_refillFromFile sys rest).bind hrest
  · exact (Throws.pure _).bind hrest

theorem raised_sendBodyDataStore (fd : Nat) : Throws Exn.Raised (sendBodyDataStore sys fd) := by
  have hram : Throws Exn.Raised (sendBodyRam sys fd) := by
    refine Throws.obj.bind fun r => .ite (fun _ => .pure _) fun _ => (throws_sysSend sys fd _).bind fun sent => ?_
    refine (raised_throwIfSigpipe _).bind fun _ => ?_
    rcases sent with _ | _ | k
    · exact .pure _
    · exact .pure _
    · exact (Throws.modObj _).bind fun _ => .pure _
  have hrest (more : Bool) : Throws Exn.Raised (if more then sendStored sys fd else return true) := by
    refine .ite (fun _ => (raised_sendStreamBuf sys fd _).bind fun took => ?_) fun _ => .pure _
    exact .ite (fun _ => Throws.obj.bind fun _ => .pure _) fun _ => .pure _
  refine (raised_throwIfSigpipe _).bind fun _ => Throws.obj.bind fun r => .ite (fun _ => hram) fun _ => ?_
  refine Throws.obj.bind fun r => .ite (fun _ => Throws.bind (Throws.obj.bind fun r => ?_) hrest) fun _ =>
    (Throws.pure _).bind hrest
  refine (raised_of_runtime (runtime_onStore (DataStore.throws_read sys _))).bind fun got => ?_
  rcases got with _ | ⟨b, got⟩
  · exact .pure _
  · exact (Throws.modObj _).bind fun _ => .pure _

theorem raised_sendBodyStatic (fd : Nat) : Throws Exn.Raised (sendBodyStatic sys fd) := by
  refine Throws.obj.bind fun r => ?_
  rcases r.fileFd with _ | rest
  · exact (raised_of_runtime (runtime_onStore (DataStore.throws_resetReadPosition sys))).bind fun _ =>
      raised_sendBodyDataStore sys fd
  · exact raised_sendBodyFile sys fd rest

theorem raised_sendSlice (fd : Nat) : Throws Exn.Raised (sendSlice sys fd) := by
  refine Throws.obj.bind fun r => ?_
  rcases r.responseState with _ | _ | _
  · refine (raised_throwIfSigpipe _).bind fun _ => Throws.obj.bind fun r => (throws_sysSend sys fd _).bind fun sent => ?_
    refine (raised_throwIfSigpipe _).bind fun _ => ?_
    rcases sent with _ | _ | k
    · exact .pure _
    · exact .pure _
    · refine (Throws.modObj _).bind fun _ => Throws.obj.bind fun r => .ite (fun _ => .pure _) fun _ => ?_
      exact .ite (fun _ => .pure _) fun _ => (Throws.modObj _).bind fun _ => raised_sendBodyStatic sys fd
  · exact raised_sendBodyStatic sys fd
  · exact .pure _

/-! ### The output of a script -/

theorem runtime_readCgiOutput (got : Option Bytes) : Throws Exn.IsRuntime (readCgiOutput sys got) := by
  have hdone : Throws Exn.IsRuntime (do let _ ← readCgiOutput.isCgiDone sys; return true : Method Response Bool) :=
    (throws_isCgiDone sys).bind fun _ => .pure _
  refine Throws.obj.bind fun r => ?_
  rcases r.cgiInstance with _ | cgi
  · exact .pure _
  refine .ite (fun _ => .pure _) fun _ => ?_
  rcases got with _ | _ | ⟨b, data⟩
  · exact hdone
  · exact hdone
  · exact (runtime_onStore (DataStore.throws_append sys _)).bind fun _ => throws_isCgiDone sys

theorem runtime_badGateway : Throws Exn.IsRuntime (badGateway sys) := by
  refine Throws.obj.bind fun r => ?_
  rcases r.cachedConfig with _ | config
  · exact (Throws.modObj _).bind fun _ => .modObj _
  · exact (runtime_buildErrorPage sys _ config).bind fun _ => .modObj _

theorem runtime_finalizeCgiResponse : Throws Exn.IsRuntime (finalizeCgiResponse sys) := by
  refine (Throws.modObj _).bind fun _ => (runtime_onStore (throws_drainDataStore sys)).bind fun output => ?_
  refine .ite (fun _ => runtime_badGateway sys) fun _ => .ite (fun _ => runtime_badGateway sys) fun _ => ?_
  refine Throws.obj.bind fun r => (Throws.modObj _).bind fun _ => ?_
  change Throws Exn.IsRuntime (answerScript sys (splitCgiOutput output).2 (parseCgiHeaders (splitCgiOutput output).1 r).1)
  rcases (parseCgiHeaders (splitCgiOutput output).1 r).1 with _ | contentType
  · exact runtime_badGateway sys
  refine (runtime_onStore DataStore.throws_clear).bind fun _ => (runtime_onStore (DataStore.throws_append sys _)).bind fun _ => ?_
  exact (runtime_finalizeSuccess sys contentType).bind fun _ => .modObj _

theorem runtime_cgiTimeout (config : ServerConf) : Throws Exn.IsRuntime (cgiTimeout sys config) := by
  have hpage : Throws Exn.IsRuntime (do
      modObj fun r => { r with buildPhase := .BUILD_DONE }
      buildErrorPage sys (ascii "504") config : Method Response Unit) :=
    (Throws.modObj _).bind fun _ => runtime_buildErrorPage sys _ config
  have hforget : Throws Exn.IsRuntime (do
      modObj fun r => { r with cgiInstance := none }
      modObj fun r => { r with buildPhase := .BUILD_DONE }
      buildErrorPage sys (ascii "504") config : Method Response Unit) := (Throws.modObj _).bind fun _ => hpage
  refine Throws.obj.bind fun r => ?_
  rcases r.cgiInstance with _ | cgi
  · exact hpage
  simp only
  rcases cgi.pId with _ | pid
  · exact hforget
  · have hkill : Throws Exn.IsRuntime (killCgi pid) := throws_sysTick.bind fun _ => .modWorld _
    exact hkill.bind fun _ => (throws_isCgiDone sys).bind fun _ => hforget

end Response

/-! ### The methods of a connection -/

namespace Connection

theorem runtime_triggerError (statusCode : Int) : Throws Exn.IsRuntime (triggerError sys statusCode) := by
  refine Throws.obj.bind fun c => ?_
  rcases c.serverConf with _ | conf
  · exact (Throws.modObj _).on.bind fun _ => .modObj _
  · exact (Response.runtime_buildErrorPage sys _ conf).on.bind fun _ => .modObj _

/-- No `ClientException` passes the handlers. -/
theorem escapes_onException {e : Exn} (he : e.Raised) : Throws Exn.Escapes (onException sys e) := by
  cases he with
  | client code msg => exact (runtime_triggerError sys code).mono fun _ => Exn.IsRuntime.escapes
  | runtime msg => exact (runtime_triggerError sys 500).mono fun _ => Exn.IsRuntime.escapes
  | child h => exact .throw ⟨.child h, nofun⟩
  | execed => exact .throw ⟨.execed, nofun⟩

theorem runtime_onBody {m : Method DataStore α} (h : Throws Exn.IsRuntime m) : Throws Exn.IsRuntime (onBody m) := by
  have hbody : Throws Exn.IsRuntime (onRequest (Request.onBody m)) := (Request.throws_onBody h).on
  exact hbody

theorem runtime_handleRead (recv : RecvResult) : Throws Exn.IsRuntime (handleRead sys recv) := by
  have happend (buf : Bytes) := runtime_onBody (DataStore.throws_append sys buf)
  have hdone : Throws Exn.IsRuntime (modObj (setState .PROCESSING) : Method Connection Unit) := .modObj _
  have hleftover (buf : Bytes) : Throws Exn.IsRuntime (takeLeftover sys buf) :=
    .ite (fun _ => .pure _) fun _ => (happend _).bind fun _ => Throws.obj.bind fun _ =>
      .ite (fun _ => hdone) fun _ => .ite (fun _ => hdone) fun _ => .pure _
  have hheaders (buf : Bytes) : Throws Exn.IsRuntime (readHeaders sys buf) := by
    refine (Throws.modObj _).bind fun _ => Throws.obj.bind fun c => .ite (fun _ => runtime_triggerError sys _) fun _ => ?_
    refine Throws.obj.bind fun c' => (Throws.modObj _).bind fun _ => ?_
    rcases (Request.parseHeaders c.readBuffer c'.request).2.reqState with _ | _ | _ | _ | _
    · exact .pure _
    · exact (Throws.modObj _).bind fun _ => hleftover _
    · exact (Throws.modObj _).bind fun _ => hleftover _
    · exact .modObj _
    · exact runtime_triggerError sys _
  refine Throws.obj.bind fun c => .ite (fun _ => .pure _) fun _ => ?_
  rcases recv with _ | _ | ⟨b, data⟩
  · exact .modObj _
  · exact .modObj _
  refine Throws.bind (Throws.world.bind fun _ => .modObj _) fun _ => (Throws.modObj _).bind fun _ => Throws.obj.bind fun c => ?_
  rcases c.request.reqState with _ | _ | _ | _ | _
  · exact hheaders _
  · exact (happend _).bind fun _ => Throws.obj.bind fun _ => .ite (fun _ => hdone) fun _ => .pure _
  · exact (happend _).bind fun _ => .ite (fun _ => hdone) fun _ => .pure _
  · exact .pure _
  · exact .pure _

theorem raised_handleWrite : Throws Exn.Raised (handleWrite sys) := by
  refine Throws.obj.bind fun c => .ite (fun _ => .pure _) fun _ => Throws.bind (Throws.world.bind fun _ => .modObj _) fun _ => ?_
  exact Throws.obj.bind fun c => (Response.raised_sendSlice sys _).on.bind fun _ => .ite (fun _ => .modObj _) fun _ => .pure _

theorem escapes_process : Throws Exn.Escapes (process sys) := by
  refine Throws.obj.bind fun c => .ite (fun _ => .pure _) fun _ => Throws.bind (Throws.world.bind fun _ => .modObj _) fun _ => ?_
  refine Throws.tryCatch (Q := Exn.Raised) (Throws.obj.bind fun c => ?_) fun e he => escapes_onException sys he
  have hdecode : Throws Exn.Raised (onRequest (Request.processBodySlice sys)) :=
    (raised_of_runtime (Request.throws_processBodySlice sys)).on
  refine .ite (fun _ => hdecode.bind fun decoded => ?_) fun _ => (Throws.pure _).bind fun decoded => ?_
  all_goals
    refine .ite (fun _ => .pure _) fun _ => Throws.obj.bind fun c => ?_
    refine .ite (fun _ => raised_of_runtime (runtime_triggerError sys _)) fun _ => ?_
    rcases c.serverConf with _ | conf
    · exact raised_of_runtime (runtime_triggerError sys _)
    refine (Response.raised_buildResponse sys conf).on.bind fun _ => .ite (fun _ => .modObj _) fun _ => ?_
    exact Throws.obj.bind fun _ => .ite (fun _ => .modObj _) fun _ => .pure _

end Connection

end Raised

end LeftHookRoll
