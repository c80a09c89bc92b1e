import LeftHookRoll.Lib.Keeps
import LeftHookRoll.ScriptFrame
import LeftHookRoll.SendSlice

/-!
# What the code throws

Every failure of a data store, and of the decoder above it, is a `std::runtime_error`. The code of a response
throws besides a `ClientException` of one of three codes (`Exn.Usual`).
-/

namespace LeftHookRoll

open Eff

/-- A `std::exception` that is neither a `ClientException` nor fatal. -/
def Exn.IsRuntime (e : Exn) : Prop := ∃ msg, e = .runtime msg

/-- A `ClientException` has one of the codes that the source throws; the others are free. -/
def Exn.Usual (e : Exn) : Prop := ∀ code msg, e = .client code msg → code ∈ [500, 502, 503]

theorem Exn.usual_client {code : Nat} {msg : String} (h : code ∈ [500, 502, 503]) : (Exn.client code msg).Usual := by
  intro code' msg' heq
  cases heq
  exact h

theorem Exn.IsRuntime.usual {e : Exn} (h : e.IsRuntime) : e.Usual := by
  obtain ⟨msg, rfl⟩ := h
  exact nofun

theorem usual_of_runtime {σ α : Type} {m : Method σ α} (h : Throws Exn.IsRuntime m) : Throws Exn.Usual m :=
  h.mono fun _ => Exn.IsRuntime.usual

variable {σ : Type} {P : Exn → Prop} (sys : Sys)

theorem throws_sysTick : Throws P (sysTick : Method σ Nat) := .of_ok fun _ => ⟨_, _, rfl⟩

theorem throws_runtime {ε : Type} (msg : String) : Throws Exn.IsRuntime (throw (.runtime msg) : Method σ ε) :=
  .throw ⟨msg, rfl⟩

namespace DataStore

theorem throws_fdWrite (data : Bytes) : Throws P (fdWrite sys data) := by
  refine throws_sysTick.bind fun t => Throws.obj.bind fun d => ?_
  split
  · exact (Throws.modObj _).bind fun _ => .pure _
  · exact .pure _

theorem throws_fdRead (n : Nat) : Throws P (fdRead sys n) := by
  refine throws_sysTick.bind fun t => Throws.obj.bind fun d => ?_
  split
  · exact (Throws.modObj _).bind fun _ => .pure _
  · exact .pure _

theorem throws_writeAll (data : Bytes) : Throws Exn.IsRuntime (writeAll sys data) := by
  induction data using writeAll.induct with
  | case1 =>
    rw [writeAll]
    exact .pure _
  | case2 b data ih =>
    rw [writeAll]
    refine (throws_fdWrite sys _).bind fun written => ?_
    rcases written with _ | _ | k
    · exact throws_runtime _
    · exact throws_runtime _
    · exact ih k

theorem throws_tryTempNames (tmp : Finset Nat) (c : Nat) : Throws Exn.IsRuntime (tryTempNames sys tmp c) := by
  induction c using tryTempNames.induct tmp with
  | case1 c ih =>
    rw [tryTempNames]
    refine throws_sysTick.bind fun t => (Throws.modWorld _).bind fun _ => .ite (fun _ => ?_) fun _ => throws_runtime _
    exact .dite ih fun _ => .pure _

theorem throws_generateTempFileName : Throws Exn.IsRuntime (generateTempFileName sys) :=
  Throws.world.bind fun _ => (throws_tryTempNames sys _ _).bind fun _ => (Throws.modWorld _).bind fun _ => .modObj _

theorem throws_switchToFileMode : Throws Exn.IsRuntime (switchToFileMode sys) := by
  refine Throws.obj.bind fun d => .ite (fun _ => .pure _) fun _ => ?_
  refine (throws_generateTempFileName sys).bind fun _ => Throws.obj.bind fun d => Throws.bind ?_ fun _ => .modObj _
  exact (throws_writeAll sys _).tryCatch fun e he => (Throws.modObj _).bind fun _ => .throw he

theorem throws_append (data : Bytes) : Throws Exn.IsRuntime (append sys data) := by
  have hwrite : Throws Exn.IsRuntime (do
      writeAll sys data
      modObj fun d => { d with currentSize := d.currentSize + data.length } : Method DataStore Unit) :=
    (throws_writeAll sys data).bind fun _ => .modObj _
  refine .ite (fun _ => .pure _) fun _ => Throws.obj.bind fun d => .ite (fun _ => ?_) fun _ => hwrite
  exact .ite (fun _ => (throws_switchToFileMode sys).bind fun _ => hwrite) fun _ => .modObj _

theorem throws_clear : Throws P clear := by
  refine Throws.obj.bind fun d => (Throws.modObj _).bind fun _ => ?_
  split
  · exact (Throws.modWorld _).bind fun _ => .modObj _
  · exact .pure _

theorem throws_readLoop (n : Nat) : Throws Exn.IsRuntime (readLoop sys n) := by
  induction n using Nat.strong_induction_on with
  | _ n ih =>
    rw [readLoop]
    refine .ite (fun _ => .pure _) fun hn => (throws_fdRead sys n).bind fun got => ?_
    rcases got with _ | got
    · exact throws_runtime _
    · refine .dite (fun _ => .pure _) fun hgot => .dite (fun _ => .pure _) fun _ => ?_
      have hlt : n - got.length < n := Nat.sub_lt (Nat.pos_of_ne_zero hn) (List.length_pos_iff.2 hgot)
      exact (ih _ hlt).bind fun _ => .pure _

theorem throws_read (length : Nat) : Throws Exn.IsRuntime (read sys length) := by
  refine Throws.obj.bind fun d => .ite (fun _ => .pure _) fun _ => .ite (fun _ => ?_) fun _ => ?_
  · exact (Throws.modObj _).bind fun _ => .pure _
  · exact (throws_readLoop sys _).bind fun _ => (Throws.modObj _).bind fun _ => .pure _

theorem throws_resetReadPosition : Throws Exn.IsRuntime (resetReadPosition sys) := by
  refine (Throws.modObj _).bind fun _ => Throws.obj.bind fun d => .ite (fun _ => ?_) fun _ => .pure _
  refine throws_sysTick.bind fun t => Throws.world.bind fun w => .ite (fun _ => .modObj _) fun _ => ?_
  exact (Throws.modObj _).bind fun _ => throws_runtime _

theorem throws_copyLoop (src : Bytes) (n : Nat) : Throws Exn.IsRuntime (copyLoop sys src n) := by
  induction n using Nat.strong_induction_on generalizing src with
  | _ n ih =>
    rw [copyLoop]
    refine .dite (fun _ => .pure _) fun hn => throws_sysTick.bind fun t => ?_
    rcases sys.readTmp t (min 8192 n) with _ | k
    · exact throws_runtime _
    · refine .dite (fun _ => throws_runtime _) fun hgot => (throws_writeAll sys _).bind fun _ => ih _ ?_ _
      exact Nat.sub_lt (Nat.pos_of_ne_zero hn) (List.length_pos_iff.2 hgot)

theorem throws_copyFdContents (other : DataStore) (n : Nat) : Throws Exn.IsRuntime (copyFdContents sys other n) :=
  throws_sysTick.bind fun _ => Throws.world.bind fun _ =>
    .ite (fun _ => throws_copyLoop sys _ _) fun _ => throws_runtime _

theorem throws_copy (other : DataStore) : Throws Exn.IsRuntime (copy sys other) := by
  refine (Throws.modObj _).bind fun _ => .ite (fun _ => .modObj _) fun _ => (Throws.modObj _).bind fun _ => ?_
  refine (throws_switchToFileMode sys).bind fun _ => Throws.tryCatch (Q := Exn.IsRuntime) ?_ fun e he => ?_
  · exact .ite (fun _ => throws_copyFdContents sys _ _) fun _ => .pure _
  · exact (Throws.modObj _).bind fun _ => .throw he

theorem throws_assign (other : DataStore) : Throws Exn.IsRuntime (assign sys other) := by
  intro s e t h
  rw [assign] at h
  split at h
  · rename_i hcopy
    cases h
    exact throws_copy sys other _ e _ hcopy
  · cases h

end DataStore

namespace Request

theorem throws_onBody {α : Type} {m : Method DataStore α} (h : Throws P m) : Throws P (onBody m) := h.on

theorem throws_decodeLoop (buf : Bytes) (hlen : buf.length < 2 ^ 63) : Throws Exn.IsRuntime (decodeLoop sys buf hlen) := by
  induction hn : buf.length using Nat.strong_induction_on generalizing buf with
  | _ n ih =>
    subst hn
    rcases hnext : nextChunk buf with _ | _ | _ | rest | ⟨data, rest⟩
    · rw [decodeLoop_wait sys hnext]
      exact .pure _
    · rw [decodeLoop_outOfRange sys hnext]
      exact throws_runtime _
    · rw [decodeLoop_malformed sys hnext]
      exact (Throws.modObj _).bind fun _ => .pure _
    · rw [decodeLoop_last sys hnext]
      exact (Throws.modObj _).bind fun _ => .pure _
    · rw [decodeLoop_chunk sys hnext]
      refine (Throws.on (DataStore.throws_append sys data)).bind fun _ => Throws.obj.bind fun r => ?_
      refine .ite (fun _ => (Throws.modObj _).bind fun _ => .pure _) fun _ => (Throws.modObj _).bind fun _ => ?_
      exact ih _ (length_lt_of_nextChunk hlen hnext) rest _ rfl

theorem throws_processBodySlice : Throws Exn.IsRuntime (processBodySlice sys) := by
  refine Throws.obj.bind fun r => .ite (fun _ => .pure _) fun _ => ?_
  refine (throws_onBody (DataStore.throws_read sys _)).bind fun got => (Throws.modObj _).bind fun _ => ?_
  refine .dite (fun _ => (Throws.modObj _).bind fun _ => ?_) fun _ => throws_runtime _
  refine (throws_decodeLoop sys _ _).bind fun done => .ite (fun _ => .pure _) fun _ => Throws.obj.bind fun r => ?_
  refine .ite (fun _ => ?_) fun _ => .pure _
  refine (throws_onBody (DataStore.throws_assign sys _)).bind fun _ => (Throws.modObj _).bind fun _ => ?_
  exact (throws_onBody (DataStore.throws_resetReadPosition sys)).bind fun _ => (Throws.modObj _).bind fun _ => .pure _

end Request

/-! ### What system calls throw -/

theorem throws_logCall (c : Call) : Throws P (logCall c : Method σ Unit) := .modWorld _

theorem throws_throwIfSigpipe (context : String) : Throws Exn.Usual (throwIfSigpipe context : Method σ Unit) := by
  refine Throws.world.bind fun w => .ite (fun _ => ?_) fun _ => .pure _
  exact (Throws.modWorld _).bind fun _ => .throw (Exn.usual_client (by simp))

theorem throws_sysStat (path : Bytes) : Throws P (sysStat sys path : Method σ _) :=
  (throws_logCall _).bind fun _ => throws_sysTick.bind fun _ => .pure _

theorem throws_sysOpenRead (path : Bytes) : Throws P (sysOpenRead sys path : Method σ _) :=
  (throws_logCall _).bind fun _ => throws_sysTick.bind fun _ => .pure _

theorem throws_sysRead (rest : Bytes) (n : Nat) : Throws P (sysRead sys rest n : Method σ _) :=
  throws_sysTick.bind fun _ => .pure _

theorem throws_sysOpenWrite (path : Bytes) : Throws P (sysOpenWrite sys path : Method σ _) := by
  refine throws_sysTick.bind fun t => (throws_logCall _).bind fun _ => .ite (fun _ => ?_) fun _ => .pure _
  exact (Throws.modWorld _).bind fun _ => .pure _

theorem throws_sysWrite (f : OutFile) (data : Bytes) : Throws P (sysWrite sys f data : Method σ _) := by
  refine throws_sysTick.bind fun t => ?_
  rcases sys.writeFile t data.length with _ | k
  · exact .pure _
  · exact (Throws.modWorld _).bind fun _ => .pure _

theorem throws_sysSend (fd : Nat) (data : Bytes) : Throws P (sysSend sys fd data : Method σ _) := by
  refine throws_sysTick.bind fun t => (Throws.modWorld _).bind fun _ => ?_
  split
  · exact (Throws.modWorld _).bind fun _ => .pure _
  · exact .pure _
  · exact .pure _
  · exact (Throws.modWorld _).bind fun _ => .pure _

theorem throws_autoIndexEntries (dirPath : Bytes) (names : List Bytes) :
    Throws P (autoIndexEntries sys dirPath names : Method σ _) := by
  induction names with
  | nil => exact .pure _
  | cons name names ih =>
    rw [autoIndexEntries]
    exact .ite (fun _ => ih) fun _ => (throws_sysStat sys _).bind fun _ => ih.bind fun _ => .pure _

theorem throws_buildAutoIndexPage (url dirPath : Bytes) : Throws P (buildAutoIndexPage sys url dirPath : Method σ _) := by
  refine (throws_logCall _).bind fun _ => throws_sysTick.bind fun t => ?_
  rcases sys.opendir t _ with _ | names
  · exact .pure _
  · exact (throws_autoIndexEntries sys dirPath names).bind fun _ => .pure _

/-! ### Scripts -/

namespace CGIManager

theorem throws_runChild (hasInput : Bool) : Throws Exn.Usual (runChild sys hasInput) := by
  have hthrow {p : Prop} [Decidable p] (msg : String) {k : Unit → Method CGIManager Unit} (hk : ∀ u, Throws Exn.Usual (k u)) :
      Throws Exn.Usual (if p then throw (.fatal msg) >>= k else k ()) :=
    .ite (fun _ => (Throws.throw nofun).bind hk) fun _ => hk ()
  have hcontext : Throws Exn.Usual (prepareChildExecutionContext sys) := by
    refine Throws.obj.bind fun c => ?_
    rcases c.scriptArgv.getLast? with _ | scriptPath
    · exact .throw nofun
    · exact throws_sysTick.bind fun t => .ite (fun _ => .pure _) fun _ => .throw nofun
  refine hcontext.bind fun argv => (Throws.modObj _).bind fun _ => ?_
  refine .ite (fun _ => throws_sysTick.bind fun t => hthrow _ fun _ => ?_) fun _ => ?_
  all_goals
    refine (Throws.modObj _).bind fun _ => throws_sysTick.bind fun t => hthrow _ fun _ => throws_sysTick.bind fun t => ?_
    exact .ite (fun _ => (Throws.throw nofun).bind fun _ => .throw nofun) fun _ => .throw nofun

theorem throws_execute (hasInput : Bool) : Throws Exn.Usual (execute sys hasInput) := by
  have hlimit : Throws Exn.Usual (isSpawnLimitReached sys) := by
    intro s e t h
    rw [isSpawnLimitReached_eq] at h
    cases h
  have hfail {code : Nat} {msg : String} (h : code ∈ [500, 502, 503]) :
      Throws Exn.Usual (throw (.client code msg) : Method CGIManager Unit) := .throw (Exn.usual_client h)
  refine hlimit.bind fun full => .ite (fun _ => (hfail (by simp)).bind fun _ => ?_) fun _ => ?_
  all_goals
    refine throws_sysTick.bind fun t => ?_
    rcases sys.pipe t with _ | readEnd
    · exact hfail (by simp)
    refine (Throws.modObj _).bind fun _ => Throws.obj.bind fun c => (throws_logCall _).bind fun _ => ?_
    refine throws_sysTick.bind fun t => ?_
    rcases sys.fork t with _ | pid | _
    · exact (Throws.modObj _).bind fun _ => hfail (by simp)
    · exact (Throws.modObj _).bind fun _ => .modWorld _
    · exact throws_runChild sys hasInput

theorem throws_isDone : Throws P (isDone sys) := by
  refine Throws.obj.bind fun c => ?_
  rcases c.pId with _ | pid
  · exact .pure _
  · refine throws_sysTick.bind fun t => .ite (fun _ => .pure _) fun _ => (Throws.modWorld _).bind fun _ => ?_
    exact (Throws.modObj _).bind fun _ => .pure _

end CGIManager

namespace Response

/-- The end of `_finalizeCgiResponse`, once the headers of the script are read. -/
def answerScript (sys : Sys) (cgiBody : Bytes) : Option Bytes → Method Response Unit
  | none => badGateway sys
  | some contentType => do
    onStore DataStore.clear
    onStore (DataStore.append sys cgiBody)
    finalizeSuccess sys contentType
    modObj fun r => { r with cgiInstance := none }

theorem throws_openErrorPage (customPath : Bytes) : Throws P (openErrorPage sys customPath) :=
  .ite (fun _ => .pure _) fun _ => (throws_logCall _).bind fun _ => throws_sysTick.bind fun _ => .pure _

theorem throws_onStore {α : Type} {m : Method DataStore α} (h : Throws Exn.IsRuntime m) :
    Throws Exn.Usual (onStore m) := (usual_of_runtime h).on

/-! ### Sending -/

theorem throws_sendStreamBuf (fd : Nat) (context : String) : Throws Exn.Usual (sendStreamBuf sys fd context) := by
  refine Throws.obj.bind fun r => (throws_sysSend sys fd _).bind fun sent => (throws_throwIfSigpipe _).bind fun _ => ?_
  rcases sent with _ | _ | k
  · exact .pure _
  · exact .pure _
  · exact (Throws.modObj _).bind fun _ => .pure _

theorem throws_refillFromFile (rest : Bytes) : Throws P (refillFromFile sys rest) := by
  refine Throws.obj.bind fun r => (throws_sysRead sys rest _).bind fun got => ?_
  rcases got with _ | _ | ⟨b, got⟩
  · exact .pure _
  · exact .pure _
  · exact (Throws.modObj _).bind fun _ => .pure _

theorem throws_sendBodyFile (fd : Nat) (rest : Bytes) : Throws Exn.Usual (sendBodyFile sys fd rest) := by
  have hclose : Throws Exn.Usual (do closeFile; return true : Method Response Bool) :=
    (Throws.modObj _).bind fun _ => .pure _
  have hrest (more : Bool) : Throws Exn.Usual (do
      if more then
        if ← sendStreamBuf sys fd "sending response body file chunk" then
          let r ← obj
          if r.totalBytesSent - r.headerBuffer.length ≥ r.fileSize then
            closeFile
            return true
          else return false
        else
          closeFile
          return true
      else
        closeFile
        return true : Method Response Bool) := by
    refine .ite (fun _ => (throws_sendStreamBuf sys fd _).bind fun took => ?_) fun _ => hclose
    exact .ite (fun _ => Throws.obj.bind fun _ => .ite (fun _ => hclose) fun _ => .pure _) fun _ => hclose
  refine (throws_throwIfSigpipe _).bind fun _ => Throws.obj.bind fun r => .ite (fun _ => ?_) fun _ => ?_
  · exact (throws_refillFromFile sys rest).bind hrest
  · exact (Throws.pure _).bind hrest

theorem throws_sendBodyRam (fd : Nat) : Throws Exn.Usual (sendBodyRam sys fd) := by
  refine Throws.obj.bind fun r => .ite (fun _ => .pure _) fun _ => (throws_sysSend sys fd _).bind fun sent => ?_
  refine (throws_throwIfSigpipe _).bind fun _ => ?_
  rcases sent with _ | _ | k
  · exact .pure _
  · exact .pure _
  · exact (Throws.modObj _).bind fun _ => .pure _

theorem throws_sendBodyDataStore (fd : Nat) : Throws Exn.Usual (sendBodyDataStore sys fd) := by
  have hrest (more : Bool) : Throws Exn.Usual (if more then sendStored sys fd else return true) := by
    refine .ite (fun _ => (throws_sendStreamBuf sys fd _).bind fun took => ?_) fun _ => .pure _
    exact .ite (fun _ => Throws.obj.bind fun _ => .pure _) fun _ => .pure _
  refine (throws_throwIfSigpipe _).bind fun _ => Throws.obj.bind fun r => .ite (fun _ => throws_sendBodyRam sys fd) fun _ => ?_
  refine Throws.obj.bind fun r => .ite (fun _ => Throws.bind (Throws.obj.bind fun r => ?_) hrest) fun _ =>
    (Throws.pure _).bind hrest
  refine (throws_onStore (DataStore.throws_read sys _)).bind fun got => ?_
  rcases got with _ | ⟨b, got⟩
  · exact .pure _
  · exact (Throws.modObj _).bind fun _ => .pure _

theorem throws_sendBodyStatic (fd : Nat) : Throws Exn.Usual (sendBodyStatic sys fd) := by
  refine Throws.obj.bind fun r => ?_
  rcases r.fileFd with _ | rest
  · exact (throws_onStore (DataStore.throws_resetReadPosition sys)).bind fun _ => throws_sendBodyDataStore sys fd
  · exact throws_sendBodyFile sys fd rest

theorem throws_sendSlice (fd : Nat) : Throws Exn.Usual (sendSlice sys fd) := by
  refine Throws.obj.bind fun r => ?_
  rcases r.responseState with _ | _ | _
  · refine (throws_throwIfSigpipe _).bind fun _ => Throws.obj.bind fun r => (throws_sysSend sys fd _).bind fun sent => ?_
    refine (throws_throwIfSigpipe _).bind fun _ => ?_
    rcases sent with _ | _ | k
    · exact .pure _
    · exact .pure _
    · refine (Throws.modObj _).bind fun _ => Throws.obj.bind fun r => .ite (fun _ => .pure _) fun _ => ?_
      exact .ite (fun _ => .pure _) fun _ => (Throws.modObj _).bind fun _ => throws_sendBodyStatic sys fd
  · exact throws_sendBodyStatic sys fd
  · exact .pure _

/-! ### The output of a script -/

theorem throws_isCgiDone : Throws P (readCgiOutput.isCgiDone sys) := (CGIManager.throws_isDone sys).on

theorem throws_drainDataStore : Throws Exn.IsRuntime (drainDataStore sys) := by
  have hread := DataStore.throws_read sys RESPONSE_SEND_CHUNK
  refine (DataStore.throws_resetReadPosition sys).bind fun _ s => ?_
  induction s using drainLoop.induct sys with
  | case1 s e s' h =>
    intro e' t ht
    rw [drainLoop_eq, Eff.bind_error h] at ht
    cases ht
    exact hread s e s' h
  | case2 s s' h =>
    intro e' t ht
    rw [drainLoop_eq, Eff.bind_ok h] at ht
    cases ht
  | case3 s b got s' h rest s'' hrest ih =>
    intro e' t ht
    rw [drainLoop_eq, Eff.bind_ok h, if_neg (List.cons_ne_nil b got), Eff.bind_ok hrest] at ht
    cases ht
  | case4 s b got s' h e s'' hrest ih =>
    intro e' t ht
    rw [drainLoop_eq, Eff.bind_ok h, if_neg (List.cons_ne_nil b got), Eff.bind_error hrest] at ht
    cases ht
    exact ih e s'' hrest

end Response

end LeftHookRoll
