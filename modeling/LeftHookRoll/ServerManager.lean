import LeftHookRoll.CgiOutput
import LeftHookRoll.Connection

/-!
# `ServerManager`: the event loop

A `Connection*` is an address in `heap`, where the connections that are not deleted live. The loop is a
machine: a `Point` is a place where one of its loops starts a turn, `next` is what happens from there to
the next such place. The system answers anew at every point, with all that has happened before it
(`Kernel`), so that it can give a number or an address again as soon as it is free.
-/

namespace LeftHookRoll

open Eff

def BACKLOG : Nat := 128
def CONNECTION_TIMEOUT_S : Nat := 60
def CGI_TIMEOUT_S : Nat := 10

/-- An event mask. -/
structure Events where
  epollin : Bool := false
  epollout : Bool := false
  epollhup : Bool := false
  epollerr : Bool := false
deriving DecidableEq, Repr

structure ServerManager where
  processingQueue : List Nat := []
  processingSet : Finset Nat := ∅
  connections : OrdMap Nat Nat := ∅
  cgiPipeToConn : OrdMap Nat Nat := ∅
  cgiStartTimes : OrdMap Nat Nat := ∅
  fdEvents : OrdMap Nat Events := ∅
  listenFds : Finset Nat := ∅
  listenFdToServerConf : OrdMap Nat (Option ServerConf) := ∅
  /-- The static `lastSweep` of `_sweepTimeouts`. -/
  lastSweep : Nat := 0
  heap : OrdMap Nat Connection := ∅
  /-- How many connections were made; no code reads it. -/
  made : Nat := 0
  /-- Which of them is, or was last, at an address; no code reads it. -/
  serial : Nat → Nat := fun _ => 0
  /-- What `_dropConnection` gave to `close`, latest first; no code reads it. -/
  closed : List Nat := []

/-- The server and what it shares with the system. -/
abbrev ServerState := ServerManager × World

/-- Outcome of `accept` on a listening socket, and of the `fcntl` on the new one. -/
inductive AcceptResult
  | failed
  | client (fd : Nat) (nonblocking : Bool)
deriving DecidableEq, Repr

/-- A place where a loop starts a turn. -/
inductive Point
  /-- `_runRoundRobin`, after so many connections. -/
  | roundRobin (processed : Nat)
  | sweepTimeouts
  /-- The loop over `toDrop`. -/
  | dropTimedOut (toDrop : List Nat)
  | sweepCgiTimeouts
  /-- The loop over `toKill`. -/
  | killTimedOut (toKill : List Nat)
  | wait
  /-- The loop over the events. -/
  | batch (events : List (Nat × Events))
deriving DecidableEq, Repr

/-- What the system answers from a point on, in the state that the server has then. -/
structure Kernel where
  sys : ServerState → Sys
  /-- `time(NULL)`. -/
  now : Point → ServerState → Nat
  recv : ServerState → RecvResult
  /-- How many clients wait on the socket. -/
  waiting : ServerState → Nat
  accept : ServerState → AcceptResult
  /-- The address of a new connection. -/
  address : ServerState → Nat
  /-- `read` of a CGI pipe. -/
  readPipe : ServerState → Option Bytes
  /-- `none` is an error other than `EINTR`. -/
  epollWait : ServerState → Option (List (Nat × Events))

namespace ServerManager

variable (k : Kernel)

def ask {α : Type} (answer : ServerState → α) : Method ServerManager α := fun s => (.ok (answer s), s)

theorem ask_bind {α β : Type} (answer : ServerState → α) (f : α → Method ServerManager β) (s : ServerState) :
    (ask answer >>= f) s = f (answer s) s := rfl

/-- Run a method of the connection at an address. A deleted one cannot be used: the run ends. -/
def deref {α : Type} (conn : Nat) (m : Method Connection α) : Method ServerManager α := fun s =>
  match s.1.heap.find? conn with
  | some c => ((m (c, s.2)).1, { s.1 with heap := s.1.heap.insert conn (m (c, s.2)).2.1 }, (m (c, s.2)).2.2)
  | none => (.error (.fatal "use of a deleted connection"), s)

def getState (conn : Nat) : Method ServerManager ConnectionState := deref conn (return (← obj).state)

def epollCtl : Method ServerManager Bool := do
  let sys ← ask k.sys
  return sys.epollCtl (← sysTick)

def addPollFd (fd : Nat) (events : Events) : Method ServerManager Unit := do
  if (← obj).fdEvents.contains fd then
    modObj fun s => { s with fdEvents := s.fdEvents.insert fd events }
    if ¬ (← epollCtl k) then throw (.fatal "epoll_ctl(MOD)")
  else
    if ¬ (← epollCtl k) then throw (.fatal "epoll_ctl(ADD)")
    modObj fun s => { s with fdEvents := s.fdEvents.insert fd events }

def enqueueProcessing (conn : Nat) : Method ServerManager Unit :=
  modObj fun s =>
    if conn ∈ s.processingSet then s
    else { s with processingSet := insert conn s.processingSet, processingQueue := s.processingQueue ++ [conn] }

def dequeueProcessing (conn : Nat) : Method ServerManager Unit :=
  modObj fun s => { s with processingSet := s.processingSet.erase conn }

def registerCgiPipe (conn : Nat) : Method ServerManager Unit := do
  match ← deref conn (return (← obj).getCgiPipeFd) with
  | none => return ()
  | some pipeFd => do
    let now := (← world).now
    modObj fun s => { s with
      cgiPipeToConn := s.cgiPipeToConn.insert pipeFd conn, cgiStartTimes := s.cgiStartTimes.insert pipeFd now }
    addPollFd k pipeFd { epollin := true }

/-- An `epoll_ctl(DEL)` is made and its answer is not looked at. -/
def unregisterCgiPipe (pipeFd : Nat) : Method ServerManager Unit := do
  let _ ← epollCtl k
  modObj fun s => { s with
    fdEvents := s.fdEvents.erase pipeFd, cgiPipeToConn := s.cgiPipeToConn.erase pipeFd
    cgiStartTimes := s.cgiStartTimes.erase pipeFd }

/-- `~Connection`: the stores of its request and of its response go. -/
def destroyConnection (c : Connection) (w : World) : World :=
  (c.response.responseDataStore.destroy (c.request.body.destroy (c.request.decodedBody.destroy w)))

/-- `delete conn`. -/
def deleteConnection (conn : Nat) : Method ServerManager Unit := fun s =>
  match s.1.heap.find? conn with
  | some c => (.ok (), { s.1 with heap := s.1.heap.erase conn }, destroyConnection c s.2)
  | none => (.error (.fatal "use of a deleted connection"), s)

/-- What `_dropConnection` does with a connection that it finds. -/
def discard (fd conn : Nat) : Method ServerManager Unit := do
  match ← deref conn (return (← obj).getCgiPipeFd) with
  | none => pure ()
  | some pipeFd => unregisterCgiPipe k pipeFd
  dequeueProcessing conn
  deleteConnection conn
  modObj fun s => { s with connections := s.connections.erase fd }

def dropConnection (fd : Nat) : Method ServerManager Unit := do
  match (← obj).connections.find? fd with
  | none => pure ()
  | some conn => discard k fd conn
  let _ ← epollCtl k
  modObj fun s => { s with fdEvents := s.fdEvents.erase fd, closed := fd :: s.closed }

def finalizeProcessed (conn : Nat) : Method ServerManager Unit := do
  let fd ← deref conn (return (← obj).acceptFD)
  match ← getState conn with
  | .WRITING => addPollFd k fd { epollin := true, epollout := true }
  | .WAITING_FOR_CGI => do
    addPollFd k fd {}
    registerCgiPipe k conn
  | .FINISHED => dropConnection k fd
  | .READING | .PROCESSING => return ()

/-- The code of a caller's `try`, with its handlers. -/
def guarded (conn : Nat) (m : Method ServerManager Unit) : Method ServerManager Unit := do
  let sys ← ask k.sys
  tryCatch m fun e => deref conn (Connection.onException sys e)

/-! ### The loop of `_runRoundRobin` -/

/-- One turn, for a connection taken off the queue. -/
def processNext (conn : Nat) : Method ServerManager Unit := do
  let sys ← ask k.sys
  guarded k conn (deref conn (Connection.process sys))
  if (← getState conn) = .PROCESSING then
    modObj fun s => { s with processingQueue := s.processingQueue ++ [conn] }
  else
    dequeueProcessing conn
    finalizeProcessed k conn

/-- A pointer that is no longer in the set is passed over. -/
def runRoundRobin (processed : Nat) : Method ServerManager Point := do
  let s ← obj
  match s.processingQueue with
  | [] => return .sweepTimeouts
  | conn :: queue =>
    if BACKLOG / 2 ≤ processed then return .sweepTimeouts
    modObj fun s => { s with processingQueue := queue }
    if conn ∈ s.processingSet then
      processNext k conn
      return .roundRobin (processed + 1)
    else return .roundRobin processed

/-! ### The sweeps -/

/-- `toDrop`; the connections are looked at in the order of their descriptors. -/
def timedOut (s : ServerManager) (now : Nat) : List Nat :=
  (s.connections.entries.filter fun e =>
    (s.heap.find? e.2).any (Connection.hasTimedOut CONNECTION_TIMEOUT_S now)).map (·.1)

def sweepTimeouts : Method ServerManager Point := do
  let now := (← world).now
  let s ← obj
  if now - s.lastSweep < 5 then return .sweepCgiTimeouts
  else
    modObj fun s => { s with lastSweep := now }
    return .dropTimedOut (timedOut s now)

/-- One turn of the loop over `toDrop`. -/
def dropTimedOut (fd : Nat) : Method ServerManager Unit := do
  match (← obj).connections.find? fd with
  | none => return ()
  | some conn => do
    let sys ← ask k.sys
    deref conn (Connection.triggerError sys 408)
    dequeueProcessing conn
    finalizeProcessed k conn

/-- `toKill`. -/
def cgiTimedOut (s : ServerManager) (now : Nat) : List Nat :=
  (s.cgiStartTimes.entries.filter fun e => CGI_TIMEOUT_S ≤ now - e.2).map (·.1)

def sweepCgiTimeouts : Method ServerManager Point := do
  let s ← obj
  if s.cgiPipeToConn.entries = [] then return .wait
  else return .killTimedOut (cgiTimedOut s (← world).now)

/-- One turn of the loop over `toKill`. -/
def killTimedOut (pipeFd : Nat) : Method ServerManager Unit := do
  match (← obj).cgiPipeToConn.find? pipeFd with
  | none => return ()
  | some conn => do
    let sys ← ask k.sys
    let conf ← deref conn (return (← obj).serverConf)
    unregisterCgiPipe k pipeFd
    match conf with
    | some conf => deref conn (Connection.onResponse (Response.cgiTimeout sys conf))
    | none => deref conn (Connection.onResponse (modObj fun r =>
        Response.setResponsePhrase (ascii "Gateway Timeout") (Response.setStatusCode (ascii "504") r)))
    deref conn (modObj (Connection.setState .WRITING))
    let fd ← deref conn (return (← obj).acceptFD)
    addPollFd k fd { epollin := true, epollout := true }

/-! ### The events -/

/-- One turn of the loop of `_acceptNewConnections`; whether it goes on. -/
def acceptNext (listenFd : Nat) : Method ServerManager Bool := do
  match ← ask k.accept with
  | .failed => return false
  | .client _ false => return true
  | .client clientFd true => do
    let conn ← ask k.address
    let now := (← world).now
    modObj fun s => { s with
      heap := s.heap.insert conn (Connection.new clientFd ((s.listenFdToServerConf.find? listenFd).getD none) now)
      made := s.made + 1, serial := Function.update s.serial conn s.made
      connections := s.connections.insert clientFd conn }
    -- the socket is new: it has accepted nothing
    modWorld fun w => { w with outbox := Function.update w.outbox clientFd [] }
    addPollFd k clientFd { epollin := true }
    return true

/-- At most `n` clients, until `accept` fails. -/
def acceptLoop (listenFd : Nat) : Nat → Method ServerManager Unit
  | 0 => return ()
  | n + 1 => do if ← acceptNext k listenFd then acceptLoop listenFd n

def acceptNewConnections (listenFd : Nat) : Method ServerManager Unit := do
  acceptLoop k listenFd (← ask k.waiting)

/-- `_handleConnection` inside its `try`. -/
def serveConnection (conn : Nat) (events : Events) : Method ServerManager Unit := do
  let sys ← ask k.sys
  if events.epollin then
    let recv ← ask k.recv
    deref conn (Connection.handleRead sys recv)
    if (← getState conn) = .PROCESSING then
      deref conn (Connection.onBody (DataStore.resetReadPosition sys))
      enqueueProcessing conn
  if events.epollout ∧ (← getState conn) = .WRITING then deref conn (Connection.handleWrite sys)

def handleConnection (conn : Nat) (events : Events) : Method ServerManager Unit := do
  let fd ← deref conn (return (← obj).acceptFD)
  guarded k conn (serveConnection k conn events)
  match ← getState conn with
  | .READING => addPollFd k fd { epollin := true }
  | .PROCESSING | .WAITING_FOR_CGI => addPollFd k fd {}
  | .WRITING => addPollFd k fd { epollin := true, epollout := true }
  | .FINISHED => dropConnection k fd

/-- Whether the output is complete, as the event tells. -/
def cgiOutputDone (conn : Nat) (events : Events) : Method ServerManager Bool := do
  if events.epollhup ∨ events.epollerr then return true
  else if events.epollin then
    let sys ← ask k.sys
    let got ← ask k.readPipe
    deref conn (Connection.onResponse (Response.readCgiOutput sys got))
  else return false

/-- The answer is complete; this is outside the `try`. -/
def finishCgi (pipeFd conn : Nat) : Method ServerManager Unit := do
  let sys ← ask k.sys
  unregisterCgiPipe k pipeFd
  deref conn (Connection.onResponse (Response.finalizeCgiResponse sys))
  deref conn (modObj (Connection.setState .WRITING))
  let fd ← deref conn (return (← obj).acceptFD)
  addPollFd k fd { epollin := true, epollout := true }

/-- What the handlers of `_handleCgiPipeEvent` do. -/
def failCgi (pipeFd conn : Nat) (e : Exn) : Method ServerManager Unit := do
  let sys ← ask k.sys
  deref conn (Connection.onException sys e)
  unregisterCgiPipe k pipeFd
  let fd ← deref conn (return (← obj).acceptFD)
  addPollFd k fd { epollin := true, epollout := true }

def handleCgiPipeEvent (pipeFd : Nat) (events : Events) : Method ServerManager Unit := do
  match (← obj).cgiPipeToConn.find? pipeFd with
  | none => return ()
  | some conn => do
    let done ← tryCatch (some <$> cgiOutputDone k conn events) fun e => do
      failCgi k pipeFd conn e
      return none
    if done = some true then finishCgi k pipeFd conn

/-- One turn of the loop over the events. -/
def handleEvent (fd : Nat) (events : Events) : Method ServerManager Unit := do
  let s ← obj
  if s.cgiPipeToConn.contains fd then handleCgiPipeEvent k fd events
  else if events.epollhup ∨ events.epollerr then
    if fd ∉ s.listenFds then dropConnection k fd
  else if fd ∈ s.listenFds then acceptNewConnections k fd
  else
    match s.connections.find? fd with
    | none => return ()
    | some conn => handleConnection k conn events

def epollWait : Method ServerManager Point := do
  let answer ← ask k.epollWait
  modWorld fun w => { w with tick := w.tick + 1 }
  match answer with
  | none => throw (.fatal "epoll_wait()")
  | some [] => return .roundRobin 0
  | some events => return .batch events

/-! ### The machine -/

/-- From one point to the next; `run` starts, and starts over, at `roundRobin 0`. -/
def next (p : Point) : Method ServerManager Point := do
  let now ← ask (k.now p)
  modWorld fun w => { w with now := now }
  match p with
  | .roundRobin processed => runRoundRobin k processed
  | .sweepTimeouts => sweepTimeouts
  | .dropTimedOut [] => return .sweepCgiTimeouts
  | .dropTimedOut (fd :: toDrop) => do
    dropTimedOut k fd
    return .dropTimedOut toDrop
  | .sweepCgiTimeouts => sweepCgiTimeouts
  | .killTimedOut [] => return .wait
  | .killTimedOut (pipeFd :: toKill) => do
    killTimedOut k pipeFd
    return .killTimedOut toKill
  | .wait => epollWait k
  | .batch [] => return .roundRobin 0
  | .batch ((fd, events) :: rest) => do
    handleEvent k fd events
    return .batch rest

/-- The server before its first turn: it listens, and there is no client. -/
structure Fresh (s : ServerManager) : Prop where
  processingQueue : s.processingQueue = []
  processingSet : s.processingSet = ∅
  connections : s.connections = ∅
  cgiPipeToConn : s.cgiPipeToConn = ∅
  cgiStartTimes : s.cgiStartTimes = ∅
  fdEvents : ∀ fd, s.fdEvents.find? fd = if fd ∈ s.listenFds then some { epollin := true } else none
  heap : s.heap = ∅

/-- The points and states that `run` comes to. -/
inductive Reach (k : Kernel) : Point → ServerState → Prop
  | start {s : ServerState} (h : Fresh s.1) : Reach k (.roundRobin 0) s
  | next {p p' : Point} {s s' : ServerState} (h : Reach k p s) (hrun : next k p s = (.ok p', s')) : Reach k p' s'

end ServerManager

end LeftHookRoll
