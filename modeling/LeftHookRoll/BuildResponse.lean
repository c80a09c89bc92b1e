import LeftHookRoll.Response

/-!
# `Response::buildResponse`: the handlers

GET and DELETE read the request only. POST and CGI use up its body: they run on the pair of the
request and the response.
-/

namespace LeftHookRoll

open Eff

namespace Response

variable (sys : Sys)

/-! ### GET and DELETE -/

def serveFile (path : Bytes) (config : ServerConf) : Method Response Unit := do
  match ← sysStat sys path with
  | none => buildErrorPage sys (ascii "404") config
  | some st =>
    match ← sysOpenRead sys path with
    | none => buildErrorPage sys (ascii "404") config
    | some content =>
      modObj fun r => { r with
        fileFd := some content, fileSize := st.size, streamBufLen := 0, streamBufSent := 0
        statusCode := ascii "200", responsePhrase := ascii "OK" }
      modObj fun r => addHeader (ascii "Content-Length") (decimal r.fileSize)
        (addHeader (ascii "Content-Type") (detectContentType path) r)
      addDateClose sys
      modObj startHead

/-- The path without a slash at its end. -/
def stripSlash (path : Bytes) : Bytes :=
  if path.length > 1 ∧ path.getLast? = some slash then path.dropLast else path

/-- A directory without an index page. -/
def serveDirectory (url resolvedPath : Bytes) (loc : LocationConf) (config : ServerConf) :
    Method Response Unit := do
  if loc.autoIndex then
    let dirUrl := if url.getLast? = some slash then url else url ++ [slash]
    let listing ← buildAutoIndexPage sys dirUrl resolvedPath
    if listing = [] then buildErrorPage sys (ascii "500") config
    else
      onStore (DataStore.append sys listing)
      modObj fun r => { r with statusCode := ascii "200", responsePhrase := ascii "OK" }
      finalizeSuccess sys (ascii "text/html")
  else buildErrorPage sys (ascii "403") config

/-- `_handleGet` from the answer of `stat` on. -/
def serveResolved (req : Request) (loc : LocationConf) (config : ServerConf) (resolvedPath : Bytes) :
    Option FileStat → Method Response Unit
  | none => buildErrorPage sys (ascii "404") config
  | some st =>
    match st.kind with
    | .directory => do
      if loc.defaultPage ≠ [] then
        let indexPath := resolvedPath ++ [slash] ++ loc.defaultPage
        let ist ← sysStat sys indexPath
        if ist.map (·.kind) = some .regular then serveFile sys indexPath config
        else serveDirectory sys req.URL resolvedPath loc config
      else serveDirectory sys req.URL resolvedPath loc config
    | .other => buildErrorPage sys (ascii "403") config
    | .regular => serveFile sys resolvedPath config

def handleGet (req : Request) (loc : LocationConf) (config : ServerConf) : Method Response Unit := do
  modObj (addCookie req)
  let resolvedPath := stripSlash (loc.root ++ req.URL)
  if ¬ isPathSafe loc.root resolvedPath then buildErrorPage sys (ascii "400") config
  else serveResolved sys req loc config resolvedPath (← sysStat sys resolvedPath)

/-- `_handleDelete` from the answer of `stat` on. -/
def deleteResolved (config : ServerConf) (resolvedPath : Bytes) : Option FileStat → Method Response Unit
  | none => buildErrorPage sys (ascii "404") config
  | some st =>
    if st.kind ≠ .regular then buildErrorPage sys (ascii "403") config
    else do
      logCall (.remove (cstr resolvedPath))
      match sys.remove (← sysTick) (cstr resolvedPath) with
      | some denied => buildErrorPage sys (if denied then ascii "403" else ascii "500") config
      | none =>
        modObj fun r => addHeader (ascii "Content-Length") (ascii "0")
          { r with statusCode := ascii "204", responsePhrase := ascii "No Content" }
        addDateClose sys
        modObj startHead

def handleDelete (req : Request) (loc : LocationConf) (config : ServerConf) :
    Method Response Unit := do
  modObj (addCookie req)
  let resolvedPath := stripSlash (loc.root ++ req.URL)
  if ¬ isPathSafe loc.root resolvedPath then buildErrorPage sys (ascii "400") config
  else deleteResolved sys config resolvedPath (← sysStat sys resolvedPath)

/-! ### POST and CGI: the request body is used up -/

/-- The request, given by reference, and the response. -/
abbrev Exchange := Request × Response

def onReq {α : Type} : Method Request α → Method Exchange α :=
  Eff.on Prod.fst fun q x => (q, x.2)

def onRes {α : Type} : Method Response α → Method Exchange α :=
  Eff.on Prod.snd fun r x => (x.1, r)

def failPostWrite : Method Response Unit := do
  modObj fun r => { r with postOutFd := none, postCloses := r.postCloses + 1, buildPhase := .BUILD_DONE }
  match (← obj).cachedConfig with
  | some config => buildErrorPage sys (ascii "500") config
  | none => return ()

def uploadedPage : Bytes :=
  ascii "<!DOCTYPE html>\r\n<html><body><p>File uploaded successfully.</p></body></html>"

def finishPost : Method Response Unit := do
  modObj fun r => { r with postOutFd := none, postCloses := r.postCloses + 1, buildPhase := .BUILD_DONE }
  onStore (DataStore.append sys uploadedPage)
  modObj fun r => addHeader (ascii "Location") ([slash] ++ r.postFilename)
    { r with statusCode := ascii "201", responsePhrase := ascii "Created" }
  finalizeSuccess sys (ascii "text/html")

/-- `write(_postOutFd, ..)`, and the check for a broken pipe after it. -/
def writePost (data : Bytes) : Method Response (Option Nat) := do
  let written ← match (← obj).postOutFd with
    | none => pure none
    | some f => do
      let written ← sysWrite sys f data
      modObj fun r => { r with postOutFd := some { f with offset := f.offset + written.getD 0 } }
      pure written
  throwIfSigpipe "writing request body to upload/CGI input"
  return written

/-- Whether a slice could be written; then whether it was the last one. -/
def writePostSlice : Method Exchange (Option Bool) := do
  let (req, res) ← obj
  if req.body.getMode = .RAM then
    let vec := req.body.dataBuffer
    if res.postWritePos < vec.length then
      let toWrite := min (vec.length - res.postWritePos) res.writeBufferSize
      match ← onRes (writePost sys (substr vec res.postWritePos toWrite)) with
      | none | some 0 => return none
      | some (k + 1) =>
        onRes (modObj fun r => { r with postWritePos := r.postWritePos + (k + 1) })
        return some (vec.length ≤ res.postWritePos + (k + 1))
    else return some true
  else
    let buf ← onReq (Request.onBody (DataStore.read sys RESPONSE_SEND_CHUNK))
    let ok ← if buf = [] then pure true else do
      let written ← onRes (writePost sys buf)
      pure (written = some buf.length)
    if ok then
      let body := (← obj).1.body
      return some (body.getSize ≤ body.getReadPosition)
    else return none

def continuePostWrite : Method Exchange Bool := do
  onRes (throwIfSigpipe "writing request body to upload/CGI input")
  match ← writePostSlice sys with
  | none => do
    onRes (failPostWrite sys)
    return true
  | some false => return false
  | some true => do
    onRes (finishPost sys)
    return true

/-- `_handlePost` from the answer of `open` on. -/
def startPost (config : ServerConf) (filename : Bytes) : Option OutFile → Method Exchange Bool
  | none => do
    onRes (buildErrorPage sys (ascii "500") config)
    return true
  | some f => do
    onRes (modObj fun r => { r with
      postOutFd := some f, postWritePos := 0, postFilename := filename
      buildPhase := .BUILD_POST_WRITING })
    if (← obj).1.body.getMode ≠ .RAM then onReq (Request.onBody (DataStore.resetReadPosition sys))
    continuePostWrite sys

def handlePost (loc : LocationConf) (config : ServerConf) : Method Exchange Bool := do
  let req := (← obj).1
  onRes (modObj (addCookie req))
  if loc.storageLocation = [] then
    onRes (buildErrorPage sys (ascii "503") config)
    return true
  else
    let name := extractFilenameFromUrl req.URL
    let now := (← world).now
    let filename := if name = [] then ascii "upload_" ++ decimal now else name
    startPost sys config filename (← onRes (sysOpenWrite sys (loc.storageLocation ++ [slash] ++ filename)))

/-- The body is passed on as a file, from its start. -/
def prepareCgiInput : Method Exchange Unit := do
  let body := (← obj).1.body
  if body.getSize > 0 ∧ body.getMode = .RAM then onReq (Request.onBody (DataStore.switchToFileMode sys))
  if (← obj).1.body.getMode = .FILE_MODE then onReq (Request.onBody (DataStore.resetReadPosition sys))

/-- Whether the script was started; when too many run, the answer is 503. -/
def startCgi (config : ServerConf) (hasInput : Bool) : Method Response Bool :=
  tryCatch
    (do
      onCgi (CGIManager.execute sys hasInput)
      return true)
    fun e => match e with
      | .client code _ => do
        modObj fun r => { r with cgiInstance := none }
        if code = 503 then
          buildErrorPage sys (ascii "503") config
          modObj (addHeader (ascii "Retry-After") (ascii "5"))
          return false
        else throw e
      | _ => throw e

/-- `_handleCGI` from where the script is known to be a file. -/
def runScript (loc : LocationConf) (config : ServerConf) (scriptPath : Bytes) : Method Exchange Bool := do
  prepareCgiInput sys
  let req := (← obj).1
  let interpreter := loc.getCgiInterpreter (getFileExtension req.URL)
  onRes (modObj fun r => { r with
    cgiInstance := some (CGIManager.prepare req scriptPath interpreter {}) })
  if ← onRes (startCgi sys config
      (req.body.getSize > 0 ∧ req.body.getMode = .FILE_MODE ∧ req.body.fileFd ≠ none)) then
    onRes (modObj fun r => { r with
      buildPhase := .BUILD_CGI_RUNNING, cachedConfig := some config })
    return false
  else return true

def handleCGI (loc : LocationConf) (config : ServerConf) : Method Exchange Bool := do
  let (req, _) ← obj
  onRes (modObj (addCookie req))
  let scriptPath := loc.root ++ req.URL
  if ¬ isPathSafe loc.root scriptPath then
    onRes (buildErrorPage sys (ascii "400") config)
    return true
  else
    let st ← onRes (sysStat sys scriptPath)
    if st.map (·.kind) ≠ some .regular then
      onRes (buildErrorPage sys (ascii "404") config)
      return true
    else runScript sys loc config scriptPath

/-- A configured redirection. -/
def buildRedirect (loc : LocationConf) : Method Response Unit := do
  modObj (setStatusCode loc.returnCode)
  if loc.returnURL ≠ [] then modObj (addHeader (ascii "Location") loc.returnURL)
  modObj (addHeader (ascii "Content-Length") (ascii "0"))
  addDateClose sys
  modObj startHead

def buildResponse (config : ServerConf) : Method Exchange Bool := do
  let (req, res) ← obj
  if res.buildPhase = .BUILD_POST_WRITING then continuePostWrite sys
  else if res.buildPhase = .BUILD_CGI_RUNNING then return false
  else
    onRes (modObj fun r => { r with cachedConfig := some config })
    if req.statusCode ≠ ascii "200" then
      onRes (buildErrorPage sys req.statusCode config)
      return true
    else
      match matchLocation req.URL config with
      | none =>
        onRes (buildErrorPage sys (ascii "404") config)
        return true
      | some loc =>
        if ¬ loc.isMethodAllowed req.methodName then
          onRes (buildErrorPage sys (ascii "405") config)
          return true
        else if loc.returnCode ≠ [] then
          onRes (buildRedirect sys loc)
          return true
        else
          let ext := getFileExtension req.URL
          if ext ≠ [] ∧ loc.isCgiExtension ext then handleCGI sys loc config
          else
            match req.methodName with
            | .GET =>
              onRes (handleGet sys req loc config)
              return true
            | .POST => handlePost sys loc config
            | .DELETE =>
              onRes (handleDelete sys req loc config)
              return true
            | .UNKNOWN_METHOD =>
              onRes (buildErrorPage sys (ascii "501") config)
              return true

end Response

end LeftHookRoll
