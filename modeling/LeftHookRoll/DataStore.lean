import LeftHookRoll.World

/-!
# `DataStore`

A store is a RAM buffer or a temporary file. The content of the file is kept in the store, the only
writer of it (`file`); whether the file still exists under its name is in `World.tmp`. The open
descriptor is known by its file offset: every write goes to the end (`O_APPEND`) and leaves the
offset there, a `read` moves it, an `open` starts it at 0.
-/

namespace LeftHookRoll

open Eff

def BUFFERLIMIT : Nat := 1024 * 1024

inductive BufferMode
  | RAM
  | FILE_MODE
deriving DecidableEq, Repr

@[ext]
structure DataStore where
  mode : BufferMode := .RAM
  bufferLimit : Nat := BUFFERLIMIT
  currentSize : Nat := 0
  readOffset : Nat := 0
  dataBuffer : Bytes := []
  /-- The file offset of `_fileFd`, when it is open. -/
  fileFd : Option Nat := none
  /-- The number in the name of the temporary file. -/
  absolutePath : Option Nat := none
  /-- The content of the file. -/
  file : Bytes := []
deriving DecidableEq, Repr

namespace DataStore

variable (sys : Sys)

/-- `write(_fileFd, ..)`: the number of bytes accepted. -/
def fdWrite (data : Bytes) : Method DataStore (Option Nat) := do
  let t ← sysTick
  match (← obj).fileFd, sys.writeTmp t data.length with
  | some _, some k => do
    let k := min k data.length
    modObj fun d => { d with file := d.file ++ data.take k, fileFd := some (d.file.length + k) }
    return some k
  | _, _ => return none

/-- `read(_fileFd, ..)` of at most `n` bytes: nothing only at the end of the file. -/
def fdRead (n : Nat) : Method DataStore (Option Bytes) := do
  let t ← sysTick
  let d ← obj
  match d.fileFd, sys.readTmp t n with
  | some off, some k => do
    let got := (d.file.drop off).take (min (k + 1) n)
    modObj fun d => { d with fileFd := some (off + got.length) }
    return some got
  | _, _ => return none

def writeAll : Bytes → Method DataStore Unit
  | [] => return ()
  | b :: data => do
    match ← fdWrite sys (b :: data) with
    | none => throw (.runtime "DataStore: write failed")
    | some 0 => throw (.runtime "DataStore: write failed - 0 bytes written (possible disk full)")
    | some (k + 1) => writeAll (data.drop k)
termination_by data => data.length
decreasing_by
  rw [List.length_drop, List.length_cons]
  exact Nat.lt_succ_of_le (Nat.sub_le _ _)

/-- The names tried from `c` on; a name that exists is passed over. -/
def tryTempNames (tmp : Finset Nat) (c : Nat) : Method DataStore Nat := do
  let t ← sysTick
  modWorld fun w => { w with fileCounter := c + 1 }
  if sys.openTmp t then
    if h : c ∈ tmp then tryTempNames tmp (c + 1) else return c
  else throw (.runtime "DataStore: open failed")
termination_by (tmp.filter (c ≤ ·)).card
decreasing_by
  refine Finset.card_lt_card ⟨fun x hx => ?_, fun hs => ?_⟩
  · rw [Finset.mem_filter] at hx ⊢
    exact ⟨hx.1, by omega⟩
  · have := (Finset.mem_filter.1 (hs (Finset.mem_filter.2 ⟨h, le_refl c⟩))).2
    omega

def generateTempFileName : Method DataStore Unit := do
  let w ← world
  let c ← tryTempNames sys w.tmp w.fileCounter
  modWorld fun w => { w with tmp := insert c w.tmp }
  modObj fun d => { d with fileFd := some 0, absolutePath := some c, file := [] }

def switchToFileMode : Method DataStore Unit := do
  if (← obj).mode = .FILE_MODE then return ()
  generateTempFileName sys
  let d ← obj
  tryCatch (writeAll sys d.dataBuffer) fun e => do
    modObj fun d => { d with fileFd := none, absolutePath := none }
    throw e
  modObj fun d => { d with dataBuffer := [], mode := .FILE_MODE }

def append (data : Bytes) : Method DataStore Unit := do
  if data = [] then return ()
  let d ← obj
  if d.mode = .RAM then
    if d.currentSize + data.length > d.bufferLimit then
      switchToFileMode sys
      writeAll sys data
      modObj fun d => { d with currentSize := d.currentSize + data.length }
    else
      modObj fun d => { d with
        dataBuffer := d.dataBuffer ++ data, currentSize := d.currentSize + data.length }
  else
    writeAll sys data
    modObj fun d => { d with currentSize := d.currentSize + data.length }

def clear : Method DataStore Unit := do
  let d ← obj
  modObj fun d => { d with
    dataBuffer := [], currentSize := 0, readOffset := 0, mode := .RAM, fileFd := none }
  match d.absolutePath with
  | some c => modWorld fun w => { w with tmp := w.tmp.erase c }
  | none => return ()
  modObj fun d => { d with absolutePath := none }

/-- The loop of `read` in file mode: what is still to be read is `n`. -/
def readLoop (n : Nat) : Method DataStore Bytes := do
  if n = 0 then return []
  match ← fdRead sys n with
  | none => throw (.runtime "DataStore: read failed")
  | some got =>
    if _ : got = [] then return []
    else if _ : n ≤ got.length then return got
    else return got ++ (← readLoop (n - got.length))
termination_by n
decreasing_by
  have := List.length_pos_iff.2 ‹got ≠ []›
  omega

/-- The bytes put into the caller's buffer; their number is what `read` returns. -/
def read (length : Nat) : Method DataStore Bytes := do
  let d ← obj
  if length = 0 ∨ d.readOffset ≥ d.currentSize then return []
  let available := d.currentSize - d.readOffset
  let toRead := min length available
  if d.mode = .RAM then
    modObj fun d => { d with readOffset := d.readOffset + toRead }
    return (d.dataBuffer.drop d.readOffset).take toRead
  else
    let got ← readLoop sys toRead
    modObj fun d => { d with readOffset := d.readOffset + got.length }
    return got

def resetReadPosition : Method DataStore Unit := do
  modObj fun d => { d with readOffset := 0 }
  let d ← obj
  if d.mode = .FILE_MODE ∧ d.fileFd ≠ none then
    let t ← sysTick
    let w ← world
    if sys.openTmp t ∧ ∃ c ∈ d.absolutePath, c ∈ w.tmp then
      modObj fun d => { d with fileFd := some 0 }
    else
      modObj fun d => { d with fileFd := none }
      throw (.runtime "DataStore: Failed to reopen for reset")

/-- The loop of `copy_fd_contents`: `src` is the source from the descriptor's offset on, `n` is
`totalBytes - offset`. -/
def copyLoop (src : Bytes) (n : Nat) : Method DataStore Unit := do
  if _ : n = 0 then return ()
  else
    let toRead := min 8192 n
    let t ← sysTick
    match sys.readTmp t toRead with
    | none => throw (.runtime "DataStore: read failed during copy")
    | some k =>
      let got := src.take (min (k + 1) toRead)
      if _ : got = [] then
        throw (.runtime "DataStore: copy failed - unexpected EOF (source truncated)")
      else
        writeAll sys got
        copyLoop (src.drop got.length) (n - got.length)
termination_by n
decreasing_by exact Nat.sub_lt (by omega) (List.length_pos_iff.2 ‹got ≠ []›)

/-- The copy goes to the descriptor of the object. -/
def copyFdContents (other : DataStore) (totalBytes : Nat) : Method DataStore Unit := do
  let t ← sysTick
  let w ← world
  if sys.openTmp t ∧ ∃ c ∈ other.absolutePath, c ∈ w.tmp then
    copyLoop sys other.file totalBytes
  else throw (.runtime "DataStore: open failed during copy")

/-- The copy constructor. -/
def copy (other : DataStore) : Method DataStore Unit := do
  modObj fun _ => { bufferLimit := other.bufferLimit }
  if other.mode = .RAM then
    modObj fun d => { d with dataBuffer := other.dataBuffer, currentSize := other.currentSize }
  else
    modObj fun d => { d with currentSize := other.currentSize }
    switchToFileMode sys
    tryCatch
      (if other.currentSize > 0 then copyFdContents sys other other.currentSize else return ())
      fun e => do
        modObj fun d => { d with fileFd := none }
        throw e

/-- The destructor. -/
def destroy (d : DataStore) (w : World) : World := (clear (d, w)).2.2

/-- `operator=`: the argument is a copy, which is swapped in; the old content dies with it. -/
def assign (other : DataStore) : Method DataStore Unit := fun s =>
  match copy sys other ({}, s.2) with
  | (.error e, _, w) => (.error e, s.1, w)
  | (.ok _, d, w) => (.ok (), d, destroy s.1 w)

def getSize (d : DataStore) : Nat := d.currentSize

def getReadPosition (d : DataStore) : Nat := d.readOffset

def getMode (d : DataStore) : BufferMode := d.mode

end DataStore

end LeftHookRoll
