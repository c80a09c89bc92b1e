import LeftHookRoll.BuildResponse
import LeftHookRoll.SendSlice

/-!
# `Connection`: the state machine of one client socket

`handleRead` gets what `recv` gave as an argument; the other system calls come from `Sys`.
-/

namespace LeftHookRoll

open Eff

def MAX_HEADER_SIZE : Nat := 8192

inductive ConnectionState
  | READING
  | WRITING
  | PROCESSING
  | WAITING_FOR_CGI
  | FINISHED
deriving DecidableEq, Repr

structure Connection where
  acceptFD : Nat
  lastActivity : Nat := 0
  serverConf : Option ServerConf := none
  readBuffer : Bytes := []
  request : Request := {}
  response : Response := {}
  state : ConnectionState := .READING
  totalBytesRead : Nat := 0
deriving DecidableEq

/-- What `recv` gave: `none` is an error, no bytes is the end. -/
abbrev RecvResult := Option Bytes

namespace Connection

/-- The connection that `accept` gives rise to. -/
def new (fd : Nat) (defaultConfig : Option ServerConf) (now : Nat) : Connection where
  acceptFD := fd
  lastActivity := now
  serverConf := defaultConfig
  request := { maxBodySize := (defaultConfig.map ServerConf.maxBodySize).getD 0 }

def setState (state : ConnectionState) (c : Connection) : Connection := { c with state := state }

def getCgiPipeFd (c : Connection) : Option Nat := c.response.getCgiOutputFd

variable (sys : Sys)

def onRequest {α : Type} : Method Request α → Method Connection α :=
  Eff.on Connection.request fun q c => { c with request := q }

def onResponse {α : Type} : Method Response α → Method Connection α :=
  Eff.on Connection.response fun r c => { c with response := r }

def onExchange {α : Type} : Method Response.Exchange α → Method Connection α :=
  Eff.on (fun c => (c.request, c.response)) fun x c => { c with request := x.1, response := x.2 }

def onBody {α : Type} (m : Method DataStore α) : Method Connection α := onRequest (Request.onBody m)

def updateActivityTimer : Method Connection Unit := do
  let now := (← world).now
  modObj fun c => { c with lastActivity := now }

def triggerError (statusCode : Int) : Method Connection Unit := do
  match (← obj).serverConf with
  | some conf => onResponse (Response.buildErrorPage sys (decimalInt statusCode) conf)
  | none =>
    onResponse (modObj fun r =>
      Response.setResponsePhrase (ascii "Error") (Response.setStatusCode (decimalInt statusCode) r))
  modObj (setState .WRITING)

/-- The body bytes that came with the end of the headers. -/
def takeLeftover (leftover : Bytes) : Method Connection Unit := do
  if leftover = [] then return ()
  onBody (DataStore.append sys leftover)
  let q := (← obj).request
  if q.reqState = .REQ_CHUNKED ∧ Request.isChunkedDone leftover then
    modObj (setState .PROCESSING)
  else if q.reqState = .REQ_BODY ∧ q.body.getSize ≥ q.contentLength.toNat then
    modObj (setState .PROCESSING)

def readHeaders (buf : Bytes) : Method Connection Unit := do
  modObj fun c => { c with readBuffer := c.readBuffer ++ buf }
  let readBuffer := (← obj).readBuffer
  if readBuffer.length > MAX_HEADER_SIZE then triggerError sys 431
  else
    let parsed := Request.parseHeaders readBuffer (← obj).request
    modObj fun c => { c with request := parsed.2 }
    match parsed.2.reqState with
    | .REQ_ERROR => triggerError sys (atoi parsed.2.statusCode)
    | .REQ_HEADERS => return ()
    | .REQ_DONE => modObj fun c => { c with readBuffer := [], state := .PROCESSING }
    | .REQ_BODY | .REQ_CHUNKED => do
      modObj fun c => { c with readBuffer := [] }
      takeLeftover sys (readBuffer.drop parsed.1)

def readBody (buf : Bytes) : Method Connection Unit := do
  onBody (DataStore.append sys buf)
  let q := (← obj).request
  if q.body.getSize ≥ q.contentLength.toNat then modObj (setState .PROCESSING)

def readChunked (buf : Bytes) : Method Connection Unit := do
  onBody (DataStore.append sys buf)
  if Request.isChunkedDone buf then modObj (setState .PROCESSING)

def handleRead (recv : RecvResult) : Method Connection Unit := do
  if (← obj).state ≠ .READING then return ()
  match recv with
  | none | some [] => modObj (setState .FINISHED)
  | some (b :: data) =>
    let buf := b :: data
    updateActivityTimer
    modObj fun c => { c with totalBytesRead := c.totalBytesRead + buf.length }
    match (← obj).request.reqState with
    | .REQ_HEADERS => readHeaders sys buf
    | .REQ_BODY => readBody sys buf
    | .REQ_CHUNKED => readChunked sys buf
    | .REQ_DONE | .REQ_ERROR => return ()

/-- `process` inside its `try`. -/
def processBody : Method Connection Unit := do
  let decoded ←
    if (← obj).request.reqState = .REQ_CHUNKED then onRequest (Request.processBodySlice sys)
    else pure true
  if ¬ decoded then return ()
  let c ← obj
  if c.request.statusCode ≠ ascii "200" then triggerError sys (atoi c.request.statusCode)
  else
    match c.serverConf with
    | none => triggerError sys 500
    | some conf =>
      if ← onExchange (Response.buildResponse sys conf) then modObj (setState .WRITING)
      else if (← obj).response.buildPhase = .BUILD_CGI_RUNNING then
        modObj (setState .WAITING_FOR_CGI)

/-- What the callers' handlers do with an exception: an error page, unless it is fatal. -/
def onException : Exn → Method Connection Unit
  | .client code _ => triggerError sys code
  | .runtime _ => triggerError sys 500
  | .fatal msg => throw (.fatal msg)
  | .execed => throw .execed

def process : Method Connection Unit := do
  if (← obj).state ≠ .PROCESSING then return ()
  updateActivityTimer
  tryCatch (processBody sys) (onException sys)

def handleWrite : Method Connection Unit := do
  if (← obj).state ≠ .WRITING then return ()
  updateActivityTimer
  if ← onResponse (Response.sendSlice sys (← obj).acceptFD) then modObj (setState .FINISHED)

variable {sys} in
theorem handleRead_idle {c : Connection} {w : World} (hstate : c.state ≠ .READING) (r : RecvResult) :
    handleRead sys r (c, w) = (.ok (), c, w) := by
  unfold handleRead
  rw [Eff.obj_bind, if_pos hstate]
  rfl

variable {sys} in
theorem triggerError_ok {c c' : Connection} {w w' : World} {code : Int}
    (h : triggerError sys code (c, w) = (.ok (), c', w')) : c'.state = .WRITING := by
  rw [triggerError, Eff.obj_bind] at h
  rcases hconf : c.serverConf with _ | conf <;> simp only [hconf] at h
  all_goals
    obtain ⟨_, s, -, h⟩ := Eff.bind_eq_ok.1 h
    cases h
    rfl

def hasTimedOut (timeoutSeconds now : Nat) (c : Connection) : Bool :=
  timeoutSeconds ≤ now - c.lastActivity

end Connection

end LeftHookRoll
