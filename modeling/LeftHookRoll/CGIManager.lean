import Mathlib
import LeftHookRoll.Request

/-!
# `CGIManager`

`execute` is one definition for both processes that `fork` leaves behind: the system says which of
the two the run follows. In the child every failure throws a `FatalException`; a successful `execve`
ends the run with `Exn.execed`.
-/

namespace LeftHookRoll

open Eff

def MAX_ACTIVE_CGI_CHILDREN : Nat := 64

structure CGIManager where
  /-- `_pId`, when it is positive. -/
  pId : Option Nat := none
  /-- `_outPipe[0]`, when it is open. -/
  outPipe : Option Nat := none
  scriptArgv : List Bytes := []
  env : StrMap := ∅
  execveArgv : List Bytes := []
  execveEnvp : List Bytes := []
deriving DecidableEq

namespace CGIManager

def resolveScriptDirectory (scriptPath : Bytes) : Bytes :=
  match scriptPath.rfindElem slash with
  | none => [dot]
  | some 0 => [slash]
  | some slashPos => scriptPath.take slashPos

def resolveScriptExecArg (scriptPath : Bytes) : Bytes :=
  if scriptPath.head? = some slash then scriptPath
  else
    match scriptPath.rfindElem slash with
    | none => scriptPath
    | some slashPos => scriptPath.drop (slashPos + 1)

/-- The name of the variable that passes the header `key` on. -/
def headerVariable (key : Bytes) : Bytes :=
  ascii "HTTP_" ++ key.map fun c => if c = 45 then 95 else toupper c

def buildEnvMap (request : Request) (scriptPath : Bytes) : StrMap :=
  let env := (∅ : StrMap)
    |>.insert (ascii "REQUEST_METHOD") (AllowedMethods.methodToString request.methodName)
    |>.insert (ascii "QUERY_STRING") request.query
    |>.insert (ascii "SCRIPT_FILENAME") scriptPath
    |>.insert (ascii "SCRIPT_NAME") request.URL
    |>.insert (ascii "PATH_INFO") request.URL
    |>.insert (ascii "SERVER_PROTOCOL") request.protocol
    |>.insert (ascii "GATEWAY_INTERFACE") (ascii "CGI/1.1")
    |>.insert (ascii "REDIRECT_STATUS") (ascii "200")
  let ct := request.getHeader (ascii "content-type")
  let env := if ct = [] then env else env.insert (ascii "CONTENT_TYPE") ct
  let cl := request.getHeader (ascii "content-length")
  let env := env.insert (ascii "CONTENT_LENGTH") (if cl = [] then ascii "0" else cl)
  request.headers.entries.foldl (fun env h => env.insert (headerVariable h.1) h.2) env

/-- The arrays are filled by `strcpy`. -/
def prepExecveArrays (c : CGIManager) : CGIManager :=
  { c with
    execveArgv := c.scriptArgv.map cstr
    execveEnvp := c.env.entries.map fun e => cstr (e.1 ++ [61] ++ e.2) }

def prepare (request : Request) (scriptPath interpreterOverride : Bytes) (c : CGIManager) :
    CGIManager :=
  prepExecveArrays { c with
    env := buildEnvMap request scriptPath
    scriptArgv := (if interpreterOverride = [] then [] else [interpreterOverride]) ++ [scriptPath] }

variable (sys : Sys)

/-- The loop of `_reapFinishedActivePids`: the children that still run. -/
def reapLoop : List Nat → Method CGIManager (List Nat)
  | [] => return []
  | pid :: rest => do
    let t ← sysTick
    let stillRunning ← reapLoop rest
    match sys.waitpid t pid with
    | .running | .interrupted => return pid :: stillRunning
    | .exited | .failed => return stillRunning

def reapFinishedActivePids : Method CGIManager Unit := do
  let stillRunning ← reapLoop sys (← world).activePids
  modWorld fun w => { w with activePids := stillRunning }

def isSpawnLimitReached : Method CGIManager Bool := do
  reapFinishedActivePids sys
  return MAX_ACTIVE_CGI_CHILDREN ≤ (← world).activePids.length

/-- The children that still run, by the answers from call `t` on. -/
def stillRunning : Nat → List Nat → List Nat
  | _, [] => []
  | t, pid :: rest =>
    match sys.waitpid t pid with
    | .running | .interrupted => pid :: stillRunning (t + 1) rest
    | .exited | .failed => stillRunning (t + 1) rest

variable {sys} in
theorem reapLoop_eq (pids : List Nat) (c : CGIManager) (w : World) : reapLoop sys pids (c, w) =
    (.ok (stillRunning sys w.tick pids), c, { w with tick := w.tick + pids.length }) := by
  induction pids generalizing w with
  | nil => rfl
  | cons pid rest ih =>
    rw [reapLoop, sysTick_bind, Eff.bind_ok (ih { w with tick := w.tick + 1 }), stillRunning, List.length_cons,
      Nat.add_right_comm, Nat.add_assoc]
    rcases sys.waitpid w.tick pid with _ | _ | _ | _ <;> rfl

variable {sys} in
theorem isSpawnLimitReached_eq (c : CGIManager) (w : World) : isSpawnLimitReached sys (c, w) =
    (.ok (decide (MAX_ACTIVE_CGI_CHILDREN ≤ (stillRunning sys w.tick w.activePids).length)), c,
      { w with
        tick := w.tick + w.activePids.length, activePids := stillRunning sys w.tick w.activePids }) := by
  have hreap : reapFinishedActivePids sys (c, w) = (.ok (), c, { w with
      tick := w.tick + w.activePids.length, activePids := stillRunning sys w.tick w.activePids }) := by
    rw [reapFinishedActivePids, Eff.world_bind, Eff.bind_ok (reapLoop_eq w.activePids c w)]
    rfl
  rw [isSpawnLimitReached, Eff.bind_ok hreap]
  rfl

def registerPid (pid : Nat) (w : World) : World :=
  if pid ∈ w.activePids then w
  else { w with activePids := w.activePids.orderedInsert (· ≤ ·) pid }

def unregisterPid (pid : Nat) (w : World) : World :=
  { w with activePids := w.activePids.erase pid }

/-- The argument vector that the child passes to `execve`. -/
def prepareChildExecutionContext : Method CGIManager (List Bytes) := do
  let c ← obj
  match c.scriptArgv.getLast? with
  | none => throw (.fatal "CGI child fatal: missing script path")
  | some scriptPath =>
    let t ← sysTick
    if sys.chdir t (cstr (resolveScriptDirectory scriptPath)) then
      return c.execveArgv.set (if c.scriptArgv.length > 1 then 1 else 0)
        (cstr (resolveScriptExecArg scriptPath))
    else throw (.fatal "CGI child fatal: chdir() failed")

/-- What the child does after `fork`. -/
def runChild (hasInput : Bool) : Method CGIManager Unit := do
  let argv ← prepareChildExecutionContext sys
  modObj fun c => { c with execveArgv := argv }
  if hasInput then
    let t ← sysTick
    if ¬ sys.dup2 t then throw (.fatal "CGI child fatal: dup2(stdin) failed")
  modObj fun c => { c with outPipe := none }
  let t ← sysTick
  if ¬ sys.dup2 t then throw (.fatal "CGI child fatal: dup2(stdout) failed")
  -- `closeInheritedFds` closes the descriptors of this process only; no file is used before `execve`
  let t ← sysTick
  if sys.execve t (argv.headD []) then throw .execed
  throw (.fatal "CGI child fatal: execve() failed")

/-- `hasInput`: the body is passed on as the standard input. -/
def execute (hasInput : Bool) : Method CGIManager Unit := do
  if ← isSpawnLimitReached sys then
    throw (.client 503 "CGIManager::execute: max active CGI children reached")
  let t ← sysTick
  match sys.pipe t with
  | none => throw (.client 500 "CGIManager::execute: pipe() failed")
  | some readEnd =>
    modObj fun c => { c with outPipe := some readEnd }
    logCall (.exec (cstr ((← obj).scriptArgv.getLastD [])))
    let t ← sysTick
    match sys.fork t with
    | .failed =>
      modObj fun c => { c with pId := none, outPipe := none }
      throw (.client 500 "CGIManager::execute: fork() failed")
    | .child => runChild sys hasInput
    | .parent pid =>
      modObj fun c => { c with pId := some pid }
      modWorld (registerPid pid)

def isDone : Method CGIManager Bool := do
  match (← obj).pId with
  | none => return true
  | some pid =>
    let t ← sysTick
    if sys.waitpid t pid = .running then return false
    modWorld (unregisterPid pid)
    modObj fun c => { c with pId := none }
    return true

/-- A call that touches a process. -/
inductive ProcCall
  | kill (pid : Nat) (sig : Signal)
  /-- `waitpid` with `WNOHANG`, and its answer. -/
  | poll (pid : Nat) (answer : WaitResult)
  /-- `waitpid` without `WNOHANG`. -/
  | wait (pid : Nat)

/-- `kill`, for each of the processes. -/
def killAll (sig : Signal) (w : World) : List ProcCall × World :=
  (w.activePids.map (.kill · sig), { w with signals := (w.activePids.map (·, sig)).reverse ++ w.signals })

/-- One round of waiting: the processes that still run, and the calls. -/
def waitRound : List Nat → World → List Nat × List ProcCall × World
  | [], w => ([], [], w)
  | pid :: rest, w =>
    let answer := sys.waitpid w.tick pid
    let r := waitRound rest { w with tick := w.tick + 1 }
    (if answer = .running then pid :: r.1 else r.1, .poll pid answer :: r.2.1, r.2.2)

def graceLoop : Nat → World → List ProcCall × World
  | 0, w => ([], w)
  | rounds + 1, w =>
    if w.activePids = [] then ([], w)
    else
      let r := waitRound sys w.activePids w
      let later := graceLoop rounds { r.2.2 with activePids := r.1 }
      (r.2.1 ++ later.1, later.2)

/-- The static clean-up at shutdown, with its calls in order; it runs in whatever process destroys the server. -/
def cleanupAllProcesses (w : World) : List ProcCall × World :=
  if w.activePids = [] then ([], w)
  else
    let term := killAll .SIGTERM w
    let grace := graceLoop sys (sys.graceRounds w.tick) term.2
    let last := killAll .SIGKILL grace.2
    let waits := last.2.activePids.map .wait
    (term.1 ++ grace.1 ++ last.1 ++ waits, { last.2 with tick := last.2.tick + waits.length, activePids := [] })

/-! ### The calls of the clean-up -/

/-- The calls take the child off: a poll finds it gone, or a wait does. -/
def Reaps (calls : List ProcCall) (pid : Nat) : Prop :=
  (∃ answer, .poll pid answer ∈ calls ∧ answer ≠ .running) ∨ .wait pid ∈ calls

/-- A wait that blocks is for a process killed before. -/
def KilledFirst (calls : List ProcCall) : Prop :=
  ∀ front pid back, calls = front ++ .wait pid :: back → .kill pid .SIGKILL ∈ front

section Calls

variable {sys} {w : World} {pid : Nat} {calls calls' : List ProcCall}

theorem Reaps.mono (h : Reaps calls pid) (hsub : calls ⊆ calls') : Reaps calls' pid := by
  rcases h with ⟨answer, hpoll, hne⟩ | hwait
  · exact .inl ⟨answer, hsub hpoll, hne⟩
  · exact .inr (hsub hwait)

theorem reaps_waitRound {pids : List Nat} (h : pid ∈ pids) :
    Reaps (waitRound sys pids w).2.1 pid ∨ pid ∈ (waitRound sys pids w).1 := by
  induction pids generalizing w with
  | nil => cases h
  | cons first rest ih =>
    rw [waitRound]
    rcases List.mem_cons.1 h with rfl | h
    · by_cases hrun : sys.waitpid w.tick pid = .running
      · simp only [if_pos hrun]
        exact .inr List.mem_cons_self
      · exact .inl (.inl ⟨_, List.mem_cons_self, hrun⟩)
    · rcases ih h (w := { w with tick := w.tick + 1 }) with hreaps | hmem
      · exact .inl (hreaps.mono (List.subset_cons_self _ _))
      · refine .inr ?_
        simp only
        split_ifs
        · exact List.mem_cons_of_mem first hmem
        · exact hmem

theorem reaps_graceLoop (n : Nat) (h : pid ∈ w.activePids) :
    Reaps (graceLoop sys n w).1 pid ∨ pid ∈ (graceLoop sys n w).2.activePids := by
  induction n generalizing w with
  | zero => exact .inr h
  | succ n ih =>
    rw [graceLoop, if_neg (List.ne_nil_of_mem h)]
    rcases reaps_waitRound h with hreaps | hmem
    · exact .inl (hreaps.mono (List.subset_append_left _ _))
    · refine (ih (w := { (waitRound sys w.activePids w).2.2 with
        activePids := (waitRound sys w.activePids w).1 }) hmem).imp (fun hreaps => ?_) id
      exact hreaps.mono (List.subset_append_right _ _)

/-- The clean-up takes every process of the set off. -/
theorem reaps_cleanup (h : pid ∈ w.activePids) : Reaps (cleanupAllProcesses sys w).1 pid := by
  rw [cleanupAllProcesses, if_neg (List.ne_nil_of_mem h)]
  rcases @reaps_graceLoop sys (killAll .SIGTERM w).2 pid (sys.graceRounds w.tick) h with hreaps | hmem
  · refine hreaps.mono fun call hcall => ?_
    simp [hcall]
  · exact .inr (List.mem_append_right _ (List.mem_map_of_mem hmem))

/-- The rounds of the grace period wait for nobody. -/
theorem wait_not_mem_waitRound (pids : List Nat) (w : World) : ProcCall.wait pid ∉ (waitRound sys pids w).2.1 := by
  induction pids generalizing w with
  | nil => exact List.not_mem_nil
  | cons first rest ih =>
    intro h
    rcases List.mem_cons.1 h with heq | h
    · cases heq
    · exact ih _ h

theorem wait_not_mem_graceLoop (n : Nat) (w : World) : ProcCall.wait pid ∉ (graceLoop sys n w).1 := by
  induction n generalizing w with
  | zero => exact List.not_mem_nil
  | succ n ih =>
    rw [graceLoop]
    split_ifs
    · exact List.not_mem_nil
    · exact List.not_mem_append (wait_not_mem_waitRound _ _) (ih _)

theorem killedFirst_cleanup (w : World) : KilledFirst (cleanupAllProcesses sys w).1 := by
  intro front pid back hcalls
  rw [cleanupAllProcesses] at hcalls
  split_ifs at hcalls
  · exact absurd hcalls.symm (List.append_ne_nil_of_right_ne_nil _ (List.cons_ne_nil _ _))
  obtain ⟨pids, hpids⟩ : ∃ pids, pids =
      (graceLoop sys (sys.graceRounds w.tick) (killAll .SIGTERM w).2).2.activePids := ⟨_, rfl⟩
  obtain ⟨early, hearly⟩ : ∃ early, early = (killAll .SIGTERM w).1 ++
      (graceLoop sys (sys.graceRounds w.tick) (killAll .SIGTERM w).2).1 := ⟨_, rfl⟩
  have hkills (sig : Signal) (l : List Nat) : ProcCall.wait pid ∉ l.map (ProcCall.kill · sig) := by
    intro h
    obtain ⟨_, -, heq⟩ := List.mem_map.1 h
    cases heq
  have hout : ProcCall.wait pid ∉ early ++ pids.map (ProcCall.kill · .SIGKILL) := by
    rw [hearly]
    exact List.not_mem_append (List.not_mem_append (hkills _ _) (wait_not_mem_graceLoop _ _)) (hkills _ _)
  have hcalls' : (early ++ pids.map (ProcCall.kill · .SIGKILL)) ++ pids.map ProcCall.wait = front ++ .wait pid :: back := by
    rw [hearly, hpids]
    exact hcalls
  -- the wait lies behind the kills, so they are in front of it
  rcases List.append_eq_append_iff.1 hcalls' with ⟨mid, hfront, hwaits⟩ | ⟨mid, hkilled, hback⟩
  · have hmem : ProcCall.wait pid ∈ pids.map ProcCall.wait := hwaits ▸ List.mem_append_right mid List.mem_cons_self
    obtain ⟨q, hq, heq⟩ := List.mem_map.1 hmem
    cases heq
    rw [hfront]
    exact List.mem_append_left _ (List.mem_append_right _ (List.mem_map_of_mem hq))
  · rcases mid with _ | ⟨call, mid⟩
    · rw [List.append_nil] at hkilled
      rw [List.nil_append] at hback
      have hmem : ProcCall.wait pid ∈ pids.map ProcCall.wait := hback ▸ List.mem_cons_self
      obtain ⟨q, hq, heq⟩ := List.mem_map.1 hmem
      cases heq
      rw [← hkilled]
      exact List.mem_append_right _ (List.mem_map_of_mem hq)
    · obtain ⟨rfl, -⟩ := List.cons.inj hback
      exact absurd (hkilled ▸ List.mem_append_right front List.mem_cons_self) hout

end Calls

end CGIManager

end LeftHookRoll
