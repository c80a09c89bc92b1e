import LeftHookRoll.CGIManager

/-!
# `Response`: the object, its headers and its error pages

An open file is known by what its descriptor will still deliver, an upload by its path and the offset
of its descriptor. Every path is logged as the system sees it, up to the first NUL.
-/

namespace LeftHookRoll

open Eff

def RESPONSE_SEND_CHUNK : Nat := 16384

inductive ResponseState
  | SENDING_RES_HEAD
  | SENDING_BODY_STATIC
  | SENDING_BODY_CHUNKED
deriving DecidableEq, Repr

inductive BuildPhase
  | BUILD_IDLE
  | BUILD_POST_WRITING
  | BUILD_CGI_RUNNING
  | BUILD_DONE
deriving DecidableEq, Repr

/-- An upload that is being written. -/
structure OutFile where
  path : Bytes
  offset : Nat := 0
deriving DecidableEq, Repr

structure Response where
  statusCode : Bytes := ascii "200"
  version : Bytes := ascii "HTTP/1.0"
  responsePhrase : Bytes := ascii "OK"
  writeBufferSize : Nat := RESPONSE_SEND_CHUNK
  responseDataStore : DataStore := {}
  totalBytesSent : Nat := 0
  headers : StrMap := ∅
  setCookies : List Bytes := []
  /-- What `_fileFd` will still deliver, when it is open. -/
  fileFd : Option Bytes := none
  fileSize : Nat := 0
  streamBuf : Bytes := []
  streamBufLen : Nat := 0
  streamBufSent : Nat := 0
  cgiInstance : Option CGIManager := none
  buildPhase : BuildPhase := .BUILD_IDLE
  cachedConfig : Option ServerConf := none
  postOutFd : Option OutFile := none
  /-- How often `close` was called on the descriptor of an upload. -/
  postCloses : Nat := 0
  postWritePos : Nat := 0
  postFilename : Bytes := []
  responseState : ResponseState := .SENDING_RES_HEAD
  headerBuffer : Bytes := []
deriving DecidableEq

/-! ### System calls of the response code -/

section Calls

variable {σ : Type} (sys : Sys)

def throwIfSigpipe (context : String) : Method σ Unit := do
  if (← world).sigpipe then
    modWorld fun w => { w with sigpipe := false }
    throw (.client 502 ("SIGPIPE while " ++ context))

/-- `send(fd, ..)`: the number of bytes accepted. -/
def sysSend (fd : Nat) (data : Bytes) : Method σ (Option Nat) := do
  let t ← sysTick
  modWorld fun w => { w with sends := (t, data.length) :: w.sends }
  match sys.send t data.length with
  | .sent k =>
    let k := min k data.length
    modWorld fun w => { w with outbox := Function.update w.outbox fd (w.outbox fd ++ data.take k) }
    return some k
  | .wouldBlock | .failed => return none
  | .brokenPipe =>
    modWorld fun w => { w with sigpipe := true }
    return none

def sysStat (path : Bytes) : Method σ (Option FileStat) := do
  logCall (.stat (cstr path))
  return sys.stat (← sysTick) (cstr path)

def sysOpenRead (path : Bytes) : Method σ (Option Bytes) := do
  logCall (.openRead (cstr path))
  return sys.openRead (← sysTick) (cstr path)

/-- `read` of at most `n` bytes of a file that will deliver `rest`: nothing only at its end. -/
def sysRead (rest : Bytes) (n : Nat) : Method σ (Option Bytes) := do
  return (sys.readFile (← sysTick) n).map fun k => rest.take (min (k + 1) n)

/-- `open` for writing; the file is cut to nothing. -/
def sysOpenWrite (path : Bytes) : Method σ (Option OutFile) := do
  let ok := sys.openWrite (← sysTick) (cstr path)
  logCall (.openWrite (cstr path) ok)
  if ok then
    modWorld fun w => { w with uploads := Function.update w.uploads (cstr path) [] }
    return some { path := cstr path }
  else return none

/-- `write` at an offset, over what is there. -/
def overwrite (old : Bytes) (offset : Nat) (data : Bytes) : Bytes :=
  old.take offset ++ List.replicate (offset - old.length) 0 ++ data ++
    old.drop (offset + data.length)

/-- `write` to an upload: the number of bytes accepted. -/
def sysWrite (f : OutFile) (data : Bytes) : Method σ (Option Nat) := do
  match sys.writeFile (← sysTick) data.length with
  | none => return none
  | some k =>
    let k := min k data.length
    modWorld fun w => { w with
      uploads := Function.update w.uploads f.path
        (overwrite (w.uploads f.path) f.offset (data.take k)) }
    return some k

end Calls

namespace Response

theorem chunk_pos : 0 < RESPONSE_SEND_CHUNK := by decide

theorem throwIfSigpipe_eq {σ : Type} {s : σ} {w : World} (h : w.sigpipe = false) (context : String) :
    throwIfSigpipe context (s, w) = (.ok (), s, w) := by
  simp [throwIfSigpipe, h]

end Response

/-! ### Helpers of the source's unnamed namespace -/

def matchLocation (url : Bytes) (config : ServerConf) : Option LocationConf :=
  let step (best : Option LocationConf × Nat) (l : LocationConf) : Option LocationConf × Nat :=
    let isMatch : Bool :=
      if l.path = [slash] then true
      else if url = l.path then true
      else if url.length > l.path.length ∧ url[l.path.length]? = some slash then
        url.take l.path.length = l.path
      else false
    if isMatch ∧ l.path.length ≥ best.2 then (some l, l.path.length) else best
  (config.locations.foldl step (none, 0)).1

/-- The extensions that `detectContentType` knows. -/
def contentTypes : List (Bytes × Bytes) :=
  [(ascii "html", ascii "text/html"), (ascii "htm", ascii "text/html"),
    (ascii "css", ascii "text/css"), (ascii "js", ascii "application/javascript"),
    (ascii "json", ascii "application/json"), (ascii "xml", ascii "application/xml"),
    (ascii "txt", ascii "text/plain"), (ascii "png", ascii "image/png"),
    (ascii "jpg", ascii "image/jpeg"), (ascii "jpeg", ascii "image/jpeg"),
    (ascii "gif", ascii "image/gif"), (ascii "svg", ascii "image/svg+xml"),
    (ascii "ico", ascii "image/x-icon"), (ascii "pdf", ascii "application/pdf"),
    (ascii "zip", ascii "application/zip")]

def detectContentType (path : Bytes) : Bytes :=
  match path.rfindElem dot with
  | none => ascii "application/octet-stream"
  | some dotPos =>
    (contentTypes.lookup (lowercase (path.drop (dotPos + 1)))).getD (ascii "application/octet-stream")

def isSetCookieHeader (key : Bytes) : Bool := lowercase key = ascii "set-cookie"

def isPathSafe (root resolved : Bytes) : Bool :=
  if resolved.length < root.length then false else resolved.take root.length = root

def getFileExtension (path : Bytes) : Bytes :=
  match path.rfindElem dot with
  | none => []
  | some dotPos =>
    match path.rfindElem slash with
    | none => path.drop dotPos
    | some slashPos => if slashPos > dotPos then [] else path.drop dotPos

def extractFilenameFromUrl (url : Bytes) : Bytes :=
  match url.rfindElem slash with
  | none => []
  | some pos => if pos = url.length - 1 then [] else url.drop (pos + 1)

def buildDefaultErrorHtml (code phrase : Bytes) : Bytes :=
  ascii "<!DOCTYPE html>\r\n<html>\r\n<head><meta charset=\"utf-8\"><title>" ++
    (code ++ ascii " " ++ phrase) ++ ascii "</title></head>\r\n<body>\r\n<h1>" ++
    (code ++ ascii " " ++ phrase) ++ ascii "</h1>\r\n<p>LeftHookRoll/1.0</p>\r\n</body>\r\n</html>"

section AutoIndex

variable {σ : Type} (sys : Sys)

/-- The lines of a listing, for the names that `readdir` gives. -/
def autoIndexEntries (dirPath : Bytes) : List Bytes → Method σ Bytes
  | [] => return []
  | name :: names => do
    if name = [dot] ∨ name = [dot, dot] then autoIndexEntries dirPath names
    else
      let st ← sysStat sys (dirPath ++ [slash] ++ name)
      let name := if st.map (·.kind) = some .directory then name ++ [slash] else name
      let html ← autoIndexEntries dirPath names
      return ascii "<a href=\"" ++ name ++ ascii "\">" ++ name ++ ascii "</a>\r\n" ++ html

def buildAutoIndexPage (url dirPath : Bytes) : Method σ Bytes := do
  logCall (.opendir (cstr dirPath))
  match sys.opendir (← sysTick) (cstr dirPath) with
  | none => return []
  | some names =>
    let entries ← autoIndexEntries sys dirPath names
    return ascii "<!DOCTYPE html>\r\n<html>\r\n<head><meta charset=\"utf-8\"><title>Index of " ++ url ++
      ascii "</title></head>\r\n<body>\r\n<h1>Index of " ++ url ++
      ascii "</h1>\r\n<hr>\r\n<pre>\r\n" ++
      (if url ≠ [slash] then ascii "<a href=\"../\">../</a>\r\n" else []) ++ entries ++
      ascii "</pre>\r\n<hr>\r\n</body>\r\n</html>"

end AutoIndex

namespace Response

/-- The phrases that `_lookupReasonPhrase` knows. -/
def reasonPhrases : List (Bytes × Bytes) :=
  [(ascii "200", ascii "OK"), (ascii "201", ascii "Created"), (ascii "204", ascii "No Content"),
    (ascii "301", ascii "Moved Permanently"), (ascii "302", ascii "Found"),
    (ascii "303", ascii "See Other"), (ascii "307", ascii "Temporary Redirect"),
    (ascii "308", ascii "Permanent Redirect"), (ascii "400", ascii "Bad Request"),
    (ascii "403", ascii "Forbidden"), (ascii "404", ascii "Not Found"),
    (ascii "405", ascii "Method Not Allowed"), (ascii "408", ascii "Request Timeout"),
    (ascii "411", ascii "Length Required"), (ascii "413", ascii "Content Too Large"),
    (ascii "414", ascii "URI Too Long"), (ascii "500", ascii "Internal Server Error"),
    (ascii "501", ascii "Not Implemented"), (ascii "502", ascii "Bad Gateway"),
    (ascii "503", ascii "Service Unavailable"), (ascii "504", ascii "Gateway Timeout")]

def lookupReasonPhrase (code : Bytes) : Bytes := (reasonPhrases.lookup code).getD (ascii "Unknown")

def setStatusCode (code : Bytes) (r : Response) : Response :=
  { r with statusCode := code, responsePhrase := lookupReasonPhrase code }

def setResponsePhrase (phrase : Bytes) (r : Response) : Response :=
  { r with responsePhrase := phrase }

def generateHeaderString (r : Response) : Bytes :=
  r.version ++ ascii " " ++ r.statusCode ++ ascii " " ++ r.responsePhrase ++ crlf ++
    r.headers.entries.flatMap (fun h => h.1 ++ ascii ": " ++ h.2 ++ crlf) ++
    r.setCookies.flatMap (fun c => ascii "Set-Cookie: " ++ c ++ crlf) ++ crlf

/-- Once the header block is built, adding a header builds it again. -/
def addHeader (key value : Bytes) (r : Response) : Response :=
  let r :=
    if isSetCookieHeader key then { r with setCookies := r.setCookies ++ [value] }
    else { r with headers := r.headers.insert key value }
  if r.headerBuffer ≠ [] then { r with headerBuffer := r.generateHeaderString } else r

def addCookie (req : Request) (r : Response) : Response :=
  let oldVal := req.getCookie (ascii "session_count")
  let count := if oldVal = [] then 0 else atoi oldVal
  let cookie := ascii "session_count=" ++ decimalInt (Int.bmod (count + 1) (2 ^ 32)) ++ ascii "; Path=/"
  { r with setCookies := r.setCookies ++ [cookie] }

def getCgiOutputFd (r : Response) : Option Nat := r.cgiInstance.bind CGIManager.outPipe

/-- The block from the headers set, sent from its start. -/
def startHead (r : Response) : Response :=
  { r with headerBuffer := r.generateHeaderString, responseState := .SENDING_RES_HEAD }

variable (sys : Sys)

def onStore {α : Type} : Method DataStore α → Method Response α :=
  Eff.on Response.responseDataStore fun d r => { r with responseDataStore := d }

theorem onStore_eq {α : Type} {m : Method DataStore α} {r : Response} {w w' : World}
    {x : Except Exn α} {d : DataStore} (h : m (r.responseDataStore, w) = (x, d, w')) :
    onStore m (r, w) = (x, { r with responseDataStore := d }, w') := Eff.on_eq h

def onCgi (m : Method CGIManager Unit) : Method Response Unit :=
  Eff.on (fun r => r.cgiInstance.getD {}) (fun c r => { r with cgiInstance := some c }) m

def currentHttpDate : Method Response Bytes := return sys.httpDate (← world).now

/-- The last headers of every response. -/
def addDateClose : Method Response Unit := do
  let date ← currentHttpDate sys
  modObj fun r => addHeader (ascii "Connection") (ascii "close") (addHeader (ascii "Date") date r)

def finalizeSuccess (contentType : Bytes) : Method Response Unit := do
  modObj fun r => addHeader (ascii "Content-Length") (decimal r.responseDataStore.getSize)
    (addHeader (ascii "Content-Type") contentType r)
  addDateClose sys
  modObj startHead

/-- The loop of `buildErrorPage` that copies the file of a configured page. -/
def appendPage (content : Bytes) : Method Response Unit := do
  let t ← sysTick
  match sys.readFile t 4096 with
  | none => return ()
  | some k =>
    let got := content.take (min (k + 1) 4096)
    if _ : got = [] then return ()
    else
      onStore (DataStore.append sys got)
      appendPage (content.drop got.length)
termination_by content.length
decreasing_by
  have := List.length_pos_iff.2 ‹got ≠ []›
  have : got.length ≤ content.length := List.length_take_le' _ _
  rw [List.length_drop]
  exact Nat.sub_lt (by omega) (by omega)

def resetForError (code : Bytes) (r : Response) : Response :=
  setStatusCode code { r with
    totalBytesSent := 0, headers := ∅, setCookies := [], headerBuffer := [], fileFd := none
    fileSize := 0, streamBufLen := 0, streamBufSent := 0, postOutFd := none
    postCloses := if r.postOutFd = none then r.postCloses else r.postCloses + 1
    buildPhase := .BUILD_DONE }

/-- The configured page, when there is one that can be opened. -/
def openErrorPage (customPath : Bytes) : Method Response (Option Bytes) := do
  if customPath = [] then return none
  logCall (.errorPage (cstr customPath))
  return sys.openRead (← sysTick) (cstr customPath)

def fillErrorPage (code : Bytes) : Option Bytes → Method Response Unit
  | some content => appendPage sys content
  | none => onStore (DataStore.append sys (buildDefaultErrorHtml code (lookupReasonPhrase code)))

def buildErrorPage (code : Bytes) (config : ServerConf) : Method Response Unit := do
  onStore DataStore.clear
  modObj (resetForError code)
  let page ← openErrorPage sys (config.getErrorPagePath code)
  fillErrorPage sys code page
  finalizeSuccess sys (ascii "text/html")

end Response

end LeftHookRoll
