import LeftHookRoll.Config
import LeftHookRoll.DataStore

/-!
# `Request`: the request parser and the chunk decoder

The header parser makes no system calls and is a function of the request. `processBodySlice` decodes
one slice of a chunked body; `nextChunk` is one turn of its loop, with the 64-bit sums of the source.
-/

namespace LeftHookRoll

open Eff

def PARSE_BYTE_SLICE : Nat := 8192

/-- `req_utils::trim`: the positions are of type `int`, so that a size from 2^31 on is cut or negative (at 2^31 itself
the subtraction overflows, which C++ leaves open). -/
def trim (s : Bytes) : Bytes :=
  let size := s.length % 2 ^ 32
  if 2 ^ 31 ≤ size then [] else ((s.take size).dropWhile isspace).rdropWhile isspace

inductive ReqState
  | REQ_HEADERS
  | REQ_BODY
  | REQ_CHUNKED
  | REQ_DONE
  | REQ_ERROR
deriving DecidableEq, Repr

structure Request where
  methodName : HTTPMethod := .UNKNOWN_METHOD
  URL : Bytes := []
  protocol : Bytes := []
  query : Bytes := []
  contentLength : Int := -1
  body : DataStore := {}
  decodedBody : DataStore := {}
  headers : StrMap := ∅
  cookies : StrMap := ∅
  reqState : ReqState := .REQ_HEADERS
  statusCode : Bytes := ascii "200"
  maxBodySize : Nat := 0
  totalBytesRead : Nat := 0
  isBodyProcessed : Bool := false
  chunkBuffer : Bytes := []
deriving DecidableEq

namespace Request

def getHeader (r : Request) (key : Bytes) : Bytes := (r.headers.find? (lowercase key)).getD []

def getCookie (r : Request) (key : Bytes) : Bytes := (r.cookies.find? key).getD []

/-- The parser gives up with a status code. -/
def fail (r : Request) (code : Bytes) : Request :=
  { r with reqState := .REQ_ERROR, statusCode := code }

def extractQueryFromURL (r : Request) : Request :=
  match r.URL.idxOf? 63 with
  | some queryPos => { r with query := r.URL.drop (queryPos + 1), URL := r.URL.take queryPos }
  | none => r

def parseRequestLine (line : Bytes) (r : Request) : Request :=
  match line.idxOf? 32 with
  | none => r.fail (ascii "400")
  | some firstSpace =>
    let r := { r with methodName := AllowedMethods.stringToMethod (line.take firstSpace) }
    if r.methodName = .UNKNOWN_METHOD then r.fail (ascii "501")
    else
      match (line.drop (firstSpace + 1)).idxOf? 32 with
      | none =>
        -- HTTP/0.9: "GET /path"
        let r := { r with URL := line.drop (firstSpace + 1) }
        if r.URL.head? ≠ some slash then r.fail (ascii "400")
        else { extractQueryFromURL { r with protocol := ascii "HTTP/0.9" } with reqState := .REQ_DONE }
      | some n =>
        let r := { r with
          URL := (line.drop (firstSpace + 1)).take n
          protocol := line.drop (firstSpace + 1 + n + 1) }
        if r.protocol ≠ ascii "HTTP/1.0" ∧ r.protocol ≠ ascii "HTTP/1.1" then r.fail (ascii "505")
        else if r.URL.head? ≠ some slash then r.fail (ascii "400")
        else extractQueryFromURL r

def parseHeaderLine (line : Bytes) (r : Request) : Request :=
  match line.idxOf? 58 with
  | none => r
  | some colonPos =>
    let key := lowercase (trim (line.take colonPos))
    if key = [] then r
    else { r with headers := r.headers.insert key (trim (line.drop (colonPos + 1))) }

/-- One `;`-separated token of a `Cookie` header. -/
def parseCookieToken (token : Bytes) (cookies : StrMap) : StrMap :=
  let token := trim token
  match token.idxOf? 61 with
  | none => cookies
  | some eqPos =>
    let key := trim (token.take eqPos)
    if key = [] then cookies else cookies.insert key (trim (token.drop (eqPos + 1)))

def parseCookies (cookieHeader : Bytes) (r : Request) : Request :=
  { r with cookies := (cookieHeader.splitOn 59).foldl (fun m t => parseCookieToken t m) r.cookies }

def typeOfReq (r : Request) : Request :=
  let transferEncoding := r.getHeader (ascii "Transfer-Encoding")
  let contentLengthStr := r.getHeader (ascii "Content-Length")
  if ((lowercase transferEncoding).findSub (ascii "chunked")).isSome then
    { r with contentLength := -1, reqState := .REQ_CHUNKED }
  else if contentLengthStr ≠ [] then
    let cl := strtoll10 contentLengthStr
    if cl.2 ≠ [] ∨ cl.1 < 0 then r.fail (ascii "400")
    else
      let r := { r with contentLength := cl.1 }
      if r.maxBodySize > 0 ∧ cl.1.toNat > r.maxBodySize then r.fail (ascii "413")
      else { r with reqState := if cl.1 = 0 then .REQ_DONE else .REQ_BODY }
  else { r with contentLength := 0, reqState := .REQ_DONE }

/-- The lines that the loop of `parseHeaders` cuts out, each up to the next CRLF or the end. -/
def headerLines : Bytes → List Bytes
  | [] => []
  | 13 :: 10 :: s => [] :: headerLines s
  | c :: s =>
    match headerLines s with
    | [] => [[c]]
    | line :: lines => (c :: line) :: lines

/-- The first line that is not empty is the request line. -/
def parseLines : List Bytes → Bool → Request → Request
  | [], _, r => r
  | line :: rest, firstLine, r =>
    if line = [] then parseLines rest firstLine r
    else if firstLine then parseLines rest false (parseRequestLine line r)
    else parseLines rest firstLine (parseHeaderLine line r)

/-- What `parseHeaders` does with the bytes up to the empty line. -/
def parseBlock (block : Bytes) (r : Request) : Request :=
  let r := parseLines (headerLines block) true { r with cookies := ∅ }
  let r := if r.reqState ≠ .REQ_ERROR then typeOfReq r else r
  match r.headers.find? (ascii "cookie") with
  | some c => parseCookies c r
  | none => r

/-- The index after the headers (0: not there yet) and the request. -/
def parseHeaders (rawBuffer : Bytes) (r : Request) : Nat × Request :=
  match rawBuffer.findSub crlfcrlf with
  | none => (0, r)
  | some headerEnd => (headerEnd + 4, parseBlock (rawBuffer.take headerEnd) r)

def isChunkedDone (newData : Bytes) : Bool := (newData.findSub (ascii "0\r\n\r\n")).isSome

/-- What the decode loop finds at the start of the chunk buffer. -/
inductive ChunkStep
  /-- Not enough bytes yet. -/
  | wait
  /-- `substr` past the end throws. -/
  | outOfRange
  /-- No CRLF after the data. -/
  | malformed
  | last (rest : Bytes)
  | chunk (data rest : Bytes)
deriving DecidableEq

/-- The size line up to an extension. -/
def sizeField (line : Bytes) : Bytes := line.takeWhile (· ≠ 59)

/-- One turn of the decode loop; the positions are sums of `size_t`. -/
def nextChunk (buf : Bytes) : ChunkStep :=
  match buf.findSub crlf with
  | none => .wait
  | some crlfPos =>
    let chunkSize := strtoul16 (sizeField (buf.take crlfPos))
    let totalBytesNeeded := (crlfPos + 2 + chunkSize + 2) % 2 ^ 64
    let dataEnd := (crlfPos + 2 + chunkSize) % 2 ^ 64
    if buf.length < totalBytesNeeded then .wait
    else if buf.length < dataEnd then .outOfRange
    else if substr buf dataEnd 2 ≠ crlf then .malformed
    else if chunkSize = 0 then .last (buf.drop totalBytesNeeded)
    else .chunk (substr buf (crlfPos + 2) chunkSize) (buf.drop totalBytesNeeded)

/-- A turn that takes a chunk takes bytes off the buffer. -/
theorem length_lt_of_nextChunk {buf data rest : Bytes} (hlen : buf.length < 2 ^ 63)
    (h : nextChunk buf = .chunk data rest) : rest.length < buf.length := by
  unfold nextChunk at h
  split at h
  · cases h
  rename_i crlfPos _
  simp only at h
  split_ifs at h with _ _ h3
  cases h
  have hcrlf := congrArg List.length (not_not.1 h3)
  simp only [substr, List.length_take, List.length_drop, crlf, List.length_cons,
    List.length_nil] at hcrlf
  rw [List.length_drop]
  have := Nat.mod_add_mod (crlfPos + 2 + strtoul16 (sizeField (buf.take crlfPos))) (2 ^ 64) 2
  omega

variable (sys : Sys)

def onBody {α : Type} : Method DataStore α → Method Request α :=
  Eff.on Request.body fun d r => { r with body := d }

def onDecodedBody {α : Type} : Method DataStore α → Method Request α :=
  Eff.on Request.decodedBody fun d r => { r with decodedBody := d }

/-- The decode loop on a chunk buffer `buf`; true when it returned from the function. -/
def decodeLoop (buf : Bytes) (hlen : buf.length < 2 ^ 63) : Method Request Bool :=
  match h : nextChunk buf with
  | .wait => return false
  | .outOfRange => throw (.runtime "basic_string::substr")
  | .malformed => do
    modObj (·.fail (ascii "400"))
    return true
  | .last rest => do
    modObj fun r => { r with chunkBuffer := rest, isBodyProcessed := true }
    return false
  | .chunk data rest => do
    onDecodedBody (DataStore.append sys data)
    let r ← obj
    if r.maxBodySize > 0 ∧ r.decodedBody.getSize > r.maxBodySize then
      modObj (·.fail (ascii "413"))
      return true
    else
      modObj fun r => { r with chunkBuffer := rest }
      have := length_lt_of_nextChunk hlen h
      decodeLoop rest (by omega)
termination_by buf.length

section Turn

variable {buf data rest : Bytes} {hlen : buf.length < 2 ^ 63}

theorem decodeLoop_wait (h : nextChunk buf = .wait) : decodeLoop sys buf hlen = pure false := by
  rw [decodeLoop]
  split <;> simp_all only [reduceCtorEq]

theorem decodeLoop_outOfRange (h : nextChunk buf = .outOfRange) :
    decodeLoop sys buf hlen = throw (.runtime "basic_string::substr") := by
  rw [decodeLoop]
  split <;> simp_all only [reduceCtorEq]

theorem decodeLoop_malformed (h : nextChunk buf = .malformed) :
    decodeLoop sys buf hlen = (do
      modObj (·.fail (ascii "400"))
      return true) := by
  rw [decodeLoop]
  split <;> simp_all only [reduceCtorEq]

theorem decodeLoop_last (h : nextChunk buf = .last rest) :
    decodeLoop sys buf hlen = (do
      modObj fun r => { r with chunkBuffer := rest, isBodyProcessed := true }
      return false) := by
  rw [decodeLoop]
  split <;> simp_all only [reduceCtorEq, ChunkStep.last.injEq]

theorem decodeLoop_chunk (h : nextChunk buf = .chunk data rest) :
    decodeLoop sys buf hlen = (do
      onDecodedBody (DataStore.append sys data)
      let r ← obj
      if r.maxBodySize > 0 ∧ r.decodedBody.getSize > r.maxBodySize then
        modObj (·.fail (ascii "413"))
        return true
      else
        modObj fun r => { r with chunkBuffer := rest }
        decodeLoop sys rest ((length_lt_of_nextChunk hlen h).trans hlen)) := by
  rw [decodeLoop]
  split <;> rename_i heq <;> rw [h] at heq <;> cases heq
  rfl

end Turn

/-- A `std::string` of 2^63 bytes cannot be built: the append throws. -/
def processBodySlice : Method Request Bool := do
  let r ← obj
  if r.contentLength ≥ 0 ∨ r.isBodyProcessed ∨ r.reqState = .REQ_ERROR then return true
  else
    let got ← onBody (DataStore.read sys PARSE_BYTE_SLICE)
    modObj fun r => { r with totalBytesRead := r.totalBytesRead + got.length }
    if hlen : (r.chunkBuffer ++ got).length < 2 ^ 63 then
      modObj fun r => { r with chunkBuffer := r.chunkBuffer ++ got }
      if ← decodeLoop sys (r.chunkBuffer ++ got) hlen then return true
      else
        let r ← obj
        if r.isBodyProcessed then
          onBody (DataStore.assign sys r.decodedBody)
          modObj fun r => { r with chunkBuffer := [] }
          onBody (DataStore.resetReadPosition sys)
          modObj fun r => { r with
            headers := r.headers.insert (ascii "content-length") (decimal r.body.getSize) }
          return true
        else return false
    else throw (.runtime "basic_string::append")

end Request

end LeftHookRoll
