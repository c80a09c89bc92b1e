import LeftHookRoll.Response
import LeftHookRoll.DataStoreSpec

/-!
# The output of a CGI script

`readCgiOutput` collects what comes through the pipe; `finalizeCgiResponse` splits it into header
block and body and builds the response.
-/

namespace LeftHookRoll

open Eff

namespace Response

variable (sys : Sys)

/-- `got`: what `read` gave of the pipe, or that it failed. -/
def readCgiOutput (got : Option Bytes) : Method Response Bool := do
  match (← obj).cgiInstance with
  | none => return true
  | some cgi =>
    if cgi.outPipe = none then return true
    else
      match got with
      | some (b :: data) => do
        onStore (DataStore.append sys (b :: data))
        isCgiDone
      | some [] | none => do
        let _ ← isCgiDone
        return true
where
  /-- `_cgiInstance->isDone()`. -/
  isCgiDone : Method Response Bool :=
    Eff.on (fun r => r.cgiInstance.getD {}) (fun c r => { r with cgiInstance := some c })
      (CGIManager.isDone sys)

/-- The blocking `waitpid` after a kill. -/
def killCgi (pid : Nat) : Method Response Unit := do
  let _ ← sysTick (σ := Response)
  modWorld fun w => { w with signals := (pid, .SIGKILL) :: w.signals }

def cgiTimeout (config : ServerConf) : Method Response Unit := do
  match (← obj).cgiInstance with
  | none => pure ()
  | some cgi =>
    match cgi.pId with
    | none => pure ()
    | some pid =>
      killCgi pid
      let _ ← readCgiOutput.isCgiDone sys
    modObj fun r => { r with cgiInstance := none }
  modObj fun r => { r with buildPhase := .BUILD_DONE }
  buildErrorPage sys (ascii "504") config

/-- The header block and the body of the output; without a blank line all of it is body. -/
def splitCgiOutput (raw : Bytes) : Bytes × Bytes :=
  match raw.findSub crlfcrlf with
  | some headerEnd => (raw.take headerEnd, raw.drop (headerEnd + 4))
  | none =>
    match raw.findSub [LF, LF] with
    | some headerEnd => (raw.take headerEnd, raw.drop (headerEnd + 2))
    | none => ([], raw)

def isBlank (c : UInt8) : Bool := c = 32 ∨ c = 9

/-- A `Status` value: the code and the phrase. -/
def cgiStatus (value : Bytes) (r : Response) : Response :=
  match value.idxOf? 32 with
  | some spacePos =>
    { r with statusCode := value.take spacePos, responsePhrase := value.drop (spacePos + 1) }
  | none => setStatusCode value r

/-- One header line; a line without a colon or with a bad status ends the parse. -/
def parseCgiHeaderLine (line contentType : Bytes) (r : Response) : Bool × Bytes × Response :=
  let line := if line.getLast? = some CR then line.dropLast else line
  if line = [] then (true, contentType, r)
  else
    match line.idxOf? 58 with
    | none => (false, contentType, r)
    | some colonPos =>
      let value := line.drop (colonPos + 1)
      let value := if value.dropWhile isBlank = [] then value else value.dropWhile isBlank
      let lowerKey := lowercase (line.take colonPos)
      if lowerKey = ascii "content-type" then (true, value, r)
      else if lowerKey = ascii "status" then
        let r := cgiStatus value r
        (r.statusCode.length = 3 ∧ r.statusCode.all isdigit, contentType, r)
      else if lowerKey = ascii "location" then (true, contentType, addHeader (ascii "Location") value r)
      else if lowerKey = ascii "set-cookie" then
        (true, contentType, addHeader (ascii "Set-Cookie") value r)
      else (true, contentType, r)

def parseCgiHeaderLines : List Bytes → Bytes → Response → Option Bytes × Response
  | [], contentType, r => (some contentType, r)
  | line :: lines, contentType, r =>
    match parseCgiHeaderLine line contentType r with
    | (true, contentType, r) => parseCgiHeaderLines lines contentType r
    | (false, _, r) => (none, r)

/-- The content type, when the header block can be read. -/
def parseCgiHeaders (headerBlock : Bytes) (r : Response) : Option Bytes × Response :=
  let r := { r with statusCode := ascii "200", responsePhrase := ascii "OK" }
  if headerBlock = [] then (none, r)
  else parseCgiHeaderLines (headerBlock.splitOn LF) (ascii "text/html") r

/-- The output cannot be used. -/
def badGateway : Method Response Unit := do
  match (← obj).cachedConfig with
  | some config => buildErrorPage sys (ascii "502") config
  | none => modObj fun r => setResponsePhrase (ascii "Bad Gateway") (setStatusCode (ascii "502") r)
  modObj fun r => { r with cgiInstance := none }

/-- The loop of `_drainDataStore`: read until nothing comes. -/
def drainLoop (s : DataStore × World) : Except Exn Bytes × DataStore × World :=
  match _ : DataStore.read sys RESPONSE_SEND_CHUNK s with
  | (.error e, s') => (.error e, s')
  | (.ok [], s') => (.ok [], s')
  | (.ok (b :: got), s') =>
    match drainLoop s' with
    | (.ok rest, s'') => (.ok (b :: got ++ rest), s'')
    | (.error e, s'') => (.error e, s'')
termination_by s.1.currentSize - s.1.readOffset
decreasing_by
  obtain ⟨heq, hlt, hle⟩ := DataStore.read_progress ‹_› (List.cons_ne_nil b got)
  have := congrArg DataStore.currentSize heq
  simp only at this
  omega

def drainDataStore : Method DataStore Bytes := do
  DataStore.resetReadPosition sys
  drainLoop sys

def finalizeCgiResponse : Method Response Unit := do
  modObj fun r => { r with buildPhase := .BUILD_DONE }
  let cgiOutput ← onStore (drainDataStore sys)
  if cgiOutput = [] then badGateway sys
  else
    let (cgiHeaders, cgiBody) := splitCgiOutput cgiOutput
    if cgiHeaders = [] then badGateway sys
    else
      let parsed := parseCgiHeaders cgiHeaders (← obj)
      modObj fun _ => parsed.2
      match parsed.1 with
      | none => badGateway sys
      | some contentType =>
        onStore DataStore.clear
        onStore (DataStore.append sys cgiBody)
        finalizeSuccess sys contentType
        modObj fun r => { r with cgiInstance := none }

end Response

end LeftHookRoll
