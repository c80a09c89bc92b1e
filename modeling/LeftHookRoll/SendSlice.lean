import LeftHookRoll.Response

/-!
# `Response::sendSlice`: sending a response slice by slice

The header block goes first. A body is streamed from an open file, sent from the RAM buffer, or read
from a file-backed store into the stream buffer.
-/

namespace LeftHookRoll

open Eff

namespace Response

variable (sys : Sys)

/-- `n` more bytes are out. -/
def countSent (n : Nat) (r : Response) : Response := { r with totalBytesSent := r.totalBytesSent + n }

/-- `n` bytes of the stream buffer are out. -/
def streamed (n : Nat) (r : Response) : Response :=
  { r with
    streamBufSent := r.streamBufSent + n, totalBytesSent := r.totalBytesSent + n
    streamBufLen := if r.streamBufSent + n = r.streamBufLen then 0 else r.streamBufLen }

/-- Send what is left of the stream buffer, with the checks for a broken pipe around it; whether the
socket took a byte. -/
def sendStreamBuf (fd : Nat) (context : String) : Method Response Bool := do
  let r ← obj
  let sent ← sysSend sys fd (substr r.streamBuf r.streamBufSent (r.streamBufLen - r.streamBufSent))
  throwIfSigpipe context
  match sent with
  | none | some 0 => return false
  | some (k + 1) =>
    modObj (streamed (k + 1))
    return true

def fillStreamBuf (got : Bytes) (r : Response) : Response :=
  { r with streamBuf := got, streamBufLen := got.length, streamBufSent := 0 }

def closeFile : Method Response Unit := modObj fun r => { r with fileFd := none }

/-- `rest` is what the descriptor will still deliver; false at its end. -/
def refillFromFile (rest : Bytes) : Method Response Bool := do
  match ← sysRead sys rest (← obj).writeBufferSize with
  | none | some [] => return false
  | some (b :: got) =>
    modObj fun r => fillStreamBuf (b :: got) { r with fileFd := some (rest.drop (b :: got).length) }
    return true

def sendBodyFile (fd : Nat) (rest : Bytes) : Method Response Bool := do
  throwIfSigpipe "sending response body file chunk"
  let more ← if (← obj).streamBufLen = 0 then refillFromFile sys rest else pure true
  if more then
    if ← sendStreamBuf sys fd "sending response body file chunk" then
      let r ← obj
      if r.totalBytesSent - r.headerBuffer.length ≥ r.fileSize then
        closeFile
        return true
      else return false
    else
      closeFile
      return true
  else
    closeFile
    return true

def refillFromStore : Method Response Bool := do
  match ← onStore (DataStore.read sys (← obj).writeBufferSize) with
  | [] => return false
  | b :: got =>
    modObj (fillStreamBuf (b :: got))
    return true

/-- The RAM branch of `_sendBodyDataStore`. The source subtracts unsigned numbers: were more sent
than there is to send, it would read past the buffer, which is undefined; here nothing is sent. -/
def sendBodyRam (fd : Nat) : Method Response Bool := do
  let r ← obj
  let bodySize := r.responseDataStore.getSize
  let bodyOffset := r.totalBytesSent - r.headerBuffer.length
  let bodyRemaining := bodySize - bodyOffset
  if bodyRemaining = 0 then return true
  else
    let toSend := min bodyRemaining r.writeBufferSize
    let sent ← sysSend sys fd (substr r.responseDataStore.dataBuffer bodyOffset toSend)
    throwIfSigpipe "sending response body datastore chunk"
    match sent with
    | none | some 0 => return true
    | some (k + 1) =>
      modObj (countSent (k + 1))
      return r.totalBytesSent + (k + 1) = r.headerBuffer.length + bodySize

/-- Send from the stream buffer, which was filled from the store. -/
def sendStored (fd : Nat) : Method Response Bool := do
  if ← sendStreamBuf sys fd "sending response body datastore chunk" then
    let r ← obj
    return r.totalBytesSent = r.headerBuffer.length + r.responseDataStore.getSize
  else return true

def sendBodyDataStore (fd : Nat) : Method Response Bool := do
  throwIfSigpipe "sending response body datastore chunk"
  if (← obj).responseDataStore.getMode = .RAM then sendBodyRam sys fd
  else
    let more ← if (← obj).streamBufLen = 0 then refillFromStore sys else pure true
    if more then sendStored sys fd else return true

def sendBodyStatic (fd : Nat) : Method Response Bool := do
  match (← obj).fileFd with
  | some rest => sendBodyFile sys fd rest
  | none =>
    onStore (DataStore.resetReadPosition sys)
    sendBodyDataStore sys fd

def startBody (r : Response) : Response := { r with responseState := .SENDING_BODY_STATIC }

def sendHeader (fd : Nat) : Method Response Bool := do
  throwIfSigpipe "sending response header"
  let r ← obj
  let headerSize := r.headerBuffer.length
  let toSend := min (headerSize - r.totalBytesSent) r.writeBufferSize
  let sent ← sysSend sys fd (substr r.headerBuffer r.totalBytesSent toSend)
  throwIfSigpipe "sending response header"
  match sent with
  | none | some 0 => return true
  | some (k + 1) =>
    modObj (countSent (k + 1))
    let r ← obj
    if r.totalBytesSent < headerSize then return false
    else if r.responseDataStore.getSize = 0 ∧ r.fileFd = none then return true
    else
      modObj startBody
      sendBodyStatic sys fd

def sendSlice (fd : Nat) : Method Response Bool := do
  match (← obj).responseState with
  | .SENDING_RES_HEAD => sendHeader sys fd
  | .SENDING_BODY_STATIC => sendBodyStatic sys fd
  | .SENDING_BODY_CHUNKED => return false

end Response

end LeftHookRoll
