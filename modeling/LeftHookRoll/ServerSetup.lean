import LeftHookRoll.Lib.Ledger
import LeftHookRoll.ServerReach

/-!
# The set-up of the server and its end

`construct` is the constructor that `main` uses: an epoll descriptor and one listening socket for each
configuration. `destroy` is the destructor. The calls on descriptors are in a log, latest first.
-/

namespace LeftHookRoll

open Eff

/-- A call on descriptors that succeeded. -/
inductive SockCall
  | epollCreate (fd : Nat)
  | socket (fd : Nat)
  | setReuse (fd : Nat)
  | bind (fd : Nat) (addr : SockAddr)
  | listen (fd : Nat)
  | setNonblock (fd : Nat)
  | close (fd : Nat)
deriving DecidableEq, Repr

namespace SockCall

def opens : SockCall → Option Nat
  | epollCreate fd | socket fd => some fd
  | _ => none

def closes : SockCall → Option Nat
  | close fd => some fd
  | _ => none

end SockCall

/-- What the system answers after the calls in the log. -/
structure Net where
  epollCreate : List SockCall → Option Nat
  socket : List SockCall → Option Nat
  setsockopt : List SockCall → Bool
  bind : List SockCall → SockAddr → Bool
  listen : List SockCall → Bool
  fcntl : List SockCall → Bool

instance lawfulOrderLT_addrKey : Std.LawfulOrderLT (List Nat) := inferInstance

/-- The server and what only its set-up uses; the order of the addresses in the map plays no part. -/
structure Setup where
  server : ServerManager := {}
  interfacePortPairs : OrdMap (List Nat) ServerConf := ∅
  serverConfs : List ServerConf := []
  epollFd : Option Nat := none
  log : List SockCall := []

namespace Setup

variable (net : Net) (k : Kernel) (sys : Sys)

def onServer {α : Type} : Method ServerManager α → Method Setup α :=
  Eff.on Setup.server fun m s => { s with server := m }

def record (c : SockCall) : Method Setup Unit := modObj fun s => { s with log := c :: s.log }

/-- A call on a new socket; when it fails the socket is closed. -/
def orClose (fd : Nat) (answer : Bool) (c : SockCall) (msg : String) : Method Setup Unit := do
  if answer then record c
  else
    record (.close fd)
    throw (.fatal msg)

def createListeningSocket (addr : SockAddr) : Method Setup Nat := do
  match net.socket (← obj).log with
  | none => throw (.fatal "socket()")
  | some fd => do
    record (.socket fd)
    orClose fd (net.setsockopt (← obj).log) (.setReuse fd) "setsockopt()"
    orClose fd (net.bind (← obj).log addr) (.bind fd addr) "bind()"
    orClose fd (net.listen (← obj).log) (.listen fd) "listen()"
    orClose fd (net.fcntl (← obj).log) (.setNonblock fd) "fcntl()"
    return fd

/-- What `SockAddrCompare` compares, in order. -/
def addrKey (addr : SockAddr) : List Nat := [addr.sin_addr, addr.sin_port]

/-- The new socket, with the configuration of its clients. -/
def addListenFd (fd : Nat) (conf : Option ServerConf) (s : ServerManager) : ServerManager :=
  { s with listenFds := insert fd s.listenFds, listenFdToServerConf := s.listenFdToServerConf.insert fd conf }

def addServer (conf : ServerConf) : Method Setup Unit := do
  let fd ← createListeningSocket net conf.interfacePortPair
  modObj fun s => { s with
    interfacePortPairs := s.interfacePortPairs.insert (addrKey conf.interfacePortPair) conf
    server := addListenFd fd (some conf) s.server }
  onServer (ServerManager.addPollFd k fd { epollin := true })

/-- `delete it->second`: the pipe of the script is closed with it. -/
def deleteConnections : List (Nat × Nat) → Method Setup Unit
  | [] => return ()
  | (_, conn) :: rest => do
    match ← onServer (ServerManager.deref conn (return (← obj).getCgiPipeFd)) with
    | none => pure ()
    | some pipeFd => record (.close pipeFd)
    onServer (ServerManager.deleteConnection conn)
    deleteConnections rest

def closeFds : List Nat → Method Setup Unit
  | [] => return ()
  | fd :: fds => do
    record (.close fd)
    closeFds fds

def closeAllFds : Method Setup Unit := do
  modObj fun s => { s with server := { s.server with
    processingQueue := [], processingSet := ∅, cgiPipeToConn := ∅, cgiStartTimes := ∅ } }
  deleteConnections (← obj).server.connections.entries
  modObj fun s => { s with server := { s.server with connections := ∅ } }
  closeFds (← obj).server.fdEvents.keys
  modObj fun s => { s with server := { s.server with fdEvents := ∅, listenFds := ∅, listenFdToServerConf := ∅ } }
  match (← obj).epollFd with
  | some fd => do
    record (.close fd)
    modObj fun s => { s with epollFd := none }
  | none => return ()

def addServers : List ServerConf → Method Setup Unit
  | [] => return ()
  | conf :: confs => do
    modObj fun s => { s with serverConfs := s.serverConfs ++ [conf] }
    addServer net k conf
    addServers confs

/-- What the constructor does before it lets an exception go on. -/
def release (e : Exn) : Method Setup Unit := do
  modObj fun s => { s with serverConfs := [] }
  closeAllFds
  throw e

/-- `ServerManager(std::vector<ServerConf>)`. -/
def construct (confs : List ServerConf) : Method Setup Unit := do
  match net.epollCreate (← obj).log with
  | none => throw (.fatal "epoll_create()")
  | some fd => do
    record (.epollCreate fd)
    modObj fun s => { s with epollFd := some fd }
    tryCatch (addServers net k confs) release

/-- `~ServerManager`. -/
def destroy : Method Setup Unit := do
  modObj fun s => { s with serverConfs := [] }
  closeAllFds
  modWorld fun w => (CGIManager.cleanupAllProcesses sys w).2

/-! ### The calls of the set-up -/

abbrev isOpen (log : List SockCall) (fd : Nat) : Bool := Ledger.held SockCall.opens SockCall.closes log fd

abbrev Orderly (log : List SockCall) : Prop := Ledger.Sound SockCall.opens SockCall.closes log

/-- The socket that was opened last. -/
def lastSocket : List SockCall → Option Nat
  | [] => none
  | .socket fd :: _ => some fd
  | _ :: log => lastSocket log

/-- The address that the descriptor is bound to. -/
def boundTo : List SockCall → Nat → Option (List Nat)
  | [], _ => none
  | .bind fd addr :: log, fd' => if fd = fd' then some (addrKey addr) else boundTo log fd'
  | .socket fd :: log, fd' | .epollCreate fd :: log, fd' | .close fd :: log, fd' =>
    if fd = fd' then none else boundTo log fd'
  | _ :: log, fd' => boundTo log fd'

/-- A new descriptor is not open yet, and an address is not bound twice. -/
structure HonestNet (net : Net) : Prop where
  epollCreate : ∀ log fd, net.epollCreate log = some fd → isOpen log fd = false
  socket : ∀ log fd, net.socket log = some fd → isOpen log fd = false
  bind : ∀ log addr fd, net.bind log addr = true → isOpen log fd = true → boundTo log fd ≠ some (addrKey addr)

variable {net : Net} {k : Kernel} {s s' : Setup} {w w' : World} {fd : Nat} {addr : SockAddr} {log : List SockCall}

/-- What stands in the log when a socket was set up. -/
def listeningCalls (fd : Nat) (addr : SockAddr) : List SockCall :=
  [.setNonblock fd, .listen fd, .bind fd addr, .setReuse fd, .socket fd]

def neutral (c : SockCall) : Prop := c.opens = none ∧ c.closes = none

/-- The ways that the set-up of a socket can end. -/
inductive SocketRun (net : Net) (addr : SockAddr) (s : Setup) (w : World) : Except Exn Nat × Setup × World → Prop
  | unopened (h : net.socket s.log = none) : SocketRun net addr s w (.error (.fatal "socket()"), s, w)
  | closed {fd : Nat} {msg : String} {calls : List SockCall} (h : net.socket s.log = some fd)
      (hcalls : ∀ c ∈ calls, neutral c) (hmsg : msg ∈ ["setsockopt()", "bind()", "listen()", "fcntl()"]) :
      SocketRun net addr s w (.error (.fatal msg), { s with log := .close fd :: (calls ++ .socket fd :: s.log) }, w)
  | done {fd : Nat} (h : net.socket s.log = some fd) (hbind : net.bind (.setReuse fd :: .socket fd :: s.log) addr = true) :
      SocketRun net addr s w (.ok fd, { s with log := listeningCalls fd addr ++ s.log }, w)

theorem createListeningSocket_run (net : Net) (addr : SockAddr) (s : Setup) (w : World) :
    SocketRun net addr s w (createListeningSocket net addr (s, w)) := by
  rw [createListeningSocket, Eff.obj_bind]
  rcases hsocket : net.socket s.log with _ | fd
  · exact .unopened hsocket
  -- each call is made after the ones before it have succeeded
  have hneutral (c : SockCall) (h : c = .setReuse fd ∨ c = .bind fd addr ∨ c = .listen fd) : neutral c := by
    rcases h with rfl | rfl | rfl <;> exact ⟨rfl, rfl⟩
  have hfail (calls : List SockCall) {msg : String} (hcalls : ∀ c ∈ calls, c = .setReuse fd ∨ c = .bind fd addr ∨ c = .listen fd)
      (hmsg : msg ∈ ["setsockopt()", "bind()", "listen()", "fcntl()"]) : SocketRun net addr s w
        (.error (.fatal msg), { s with log := .close fd :: (calls ++ .socket fd :: s.log) }, w) :=
    .closed hsocket (fun c hc => hneutral c (hcalls c hc)) hmsg
  simp only [record, Eff.modObj_bind, Eff.obj_bind]
  rcases hreuse : net.setsockopt (.socket fd :: s.log) with _ | _
  · exact hfail [] (by simp) (by simp)
  rw [Eff.bind_ok (show orClose fd true (.setReuse fd) "setsockopt()" _ = _ from rfl), Eff.obj_bind]
  dsimp only
  rcases hbind : net.bind (.setReuse fd :: .socket fd :: s.log) addr with _ | _
  · exact hfail [.setReuse fd] (by simp) (by simp)
  rw [Eff.bind_ok (show orClose fd true (.bind fd addr) "bind()" _ = _ from rfl), Eff.obj_bind]
  dsimp only
  rcases hlisten : net.listen (.bind fd addr :: .setReuse fd :: .socket fd :: s.log) with _ | _
  · exact hfail [.bind fd addr, .setReuse fd] (by simp) (by simp)
  rw [Eff.bind_ok (show orClose fd true (.listen fd) "listen()" _ = _ from rfl), Eff.obj_bind]
  dsimp only
  rcases hfcntl : net.fcntl (.listen fd :: .bind fd addr :: .setReuse fd :: .socket fd :: s.log) with _ | _
  · exact hfail [.listen fd, .bind fd addr, .setReuse fd] (by simp) (by simp)
  · exact .done hsocket hbind

theorem isOpen_neutral {calls : List SockCall} (h : ∀ c ∈ calls, neutral c) (log : List SockCall) (fd : Nat) :
    isOpen (calls ++ log) fd = isOpen log fd := by
  induction calls with
  | nil => rfl
  | cons c calls ih =>
    obtain ⟨hopens, hcloses⟩ := h c List.mem_cons_self
    exact (Ledger.held_cons_of_none fd hopens hcloses).trans (ih fun d hd => h d (List.mem_cons_of_mem c hd))

theorem orderly_neutral {calls : List SockCall} (h : ∀ c ∈ calls, neutral c) (hlog : Orderly log) : Orderly (calls ++ log) := by
  induction calls with
  | nil => exact hlog
  | cons c calls ih =>
    obtain ⟨hopens, hcloses⟩ := h c List.mem_cons_self
    refine ⟨⟨fun a ha => ?_, fun a ha => ?_⟩, ih fun d hd => h d (List.mem_cons_of_mem c hd)⟩
    · rw [hopens] at ha
      cases ha
    · rw [hcloses] at ha
      cases ha

theorem orderly_open {c : SockCall} (hc : c.opens = some fd) (hcloses : c.closes = none) (hlog : Orderly log)
    (hfree : isOpen log fd = false) : Orderly (c :: log) := by
  refine ⟨⟨fun a ha => ?_, fun a ha => ?_⟩, hlog⟩
  · rw [hc] at ha
    cases ha
    exact ⟨hfree, by rw [hcloses]; nofun⟩
  · rw [hcloses] at ha
    cases ha

theorem orderly_close (hlog : Orderly log) (hopen : isOpen log fd = true) : Orderly (.close fd :: log) :=
  ⟨⟨nofun, fun a ha => by cases ha; exact hopen⟩, hlog⟩

theorem isOpen_close (log : List SockCall) (fd fd' : Nat) :
    isOpen (.close fd :: log) fd' = (decide (fd' ≠ fd) && isOpen log fd') := Ledger.held_cons_of_give rfl rfl

theorem isOpen_socket (log : List SockCall) (fd fd' : Nat) :
    isOpen (.socket fd :: log) fd' = (decide (fd' = fd) || isOpen log fd') := Ledger.held_cons_of_take rfl rfl

/-- A socket that was closed again leaves what is open as it was. -/
theorem closed_again {calls : List SockCall} (h : ∀ c ∈ calls, neutral c) (hlog : Orderly log) (hfree : isOpen log fd = false) :
    Orderly (.close fd :: (calls ++ .socket fd :: log)) ∧
      ∀ fd', isOpen (.close fd :: (calls ++ .socket fd :: log)) fd' = isOpen log fd' := by
  refine ⟨orderly_close (orderly_neutral h (orderly_open rfl rfl hlog hfree)) ?_, fun fd' => ?_⟩
  · rw [isOpen_neutral h, isOpen_socket]
    simp
  · rw [isOpen_close, isOpen_neutral h, isOpen_socket]
    by_cases hfd : fd' = fd
    · subst hfd
      simp [hfree]
    · simp [hfd]

theorem isOpen_listening (log : List SockCall) (fd fd' : Nat) (addr : SockAddr) :
    isOpen (listeningCalls fd addr ++ log) fd' = (decide (fd' = fd) || isOpen log fd') := isOpen_socket log fd fd'

theorem orderly_listening (hlog : Orderly log) (hfree : isOpen log fd = false) (addr : SockAddr) :
    Orderly (listeningCalls fd addr ++ log) := by
  have hneutral : ∀ c ∈ [SockCall.setNonblock fd, .listen fd, .bind fd addr, .setReuse fd], neutral c := by
    simp [neutral, SockCall.opens, SockCall.closes]
  have hcalls := orderly_neutral hneutral (orderly_open (c := .socket fd) rfl rfl hlog hfree)
  exact hcalls

theorem boundTo_listening (log : List SockCall) (fd fd' : Nat) (addr : SockAddr) :
    boundTo (listeningCalls fd addr ++ log) fd' = if fd = fd' then some (addrKey addr) else boundTo log fd' := by
  simp only [listeningCalls, List.cons_append, List.nil_append, boundTo]
  split_ifs <;> rfl

/-- The server listens on these sockets, each for a configuration, and has no client. -/
structure Listening (socks : List (Nat × ServerConf)) (s : Setup) : Prop where
  epoll : ∃ fd, s.epollFd = some fd ∧ fd ∉ socks.map (·.1)
  nodup : (socks.map (·.1)).Nodup
  orderly : Orderly s.log
  unclosed : ∀ fd, .close fd ∉ s.log
  opened : ∀ fd, isOpen s.log fd = true ↔ s.epollFd = some fd ∨ fd ∈ socks.map (·.1)
  listens : ∀ e ∈ socks, boundTo s.log e.1 = some (addrKey e.2.interfacePortPair) ∧ .listen e.1 ∈ s.log ∧ .setNonblock e.1 ∈ s.log
  listenFds : ∀ fd, fd ∈ s.server.listenFds ↔ fd ∈ socks.map (·.1)
  confs : ∀ fd conf, s.server.listenFdToServerConf.find? fd = some conf ↔ ∃ e ∈ socks, e.1 = fd ∧ conf = some e.2
  fresh : s.server.Fresh
  closed : s.server.closed = []
  routed : ∀ e ∈ socks, s.interfacePortPairs.find? (addrKey e.2.interfacePortPair) = some e.2
  distinct : (socks.map fun e => addrKey e.2.interfacePortPair).Nodup

theorem addServer_ok {conf : ServerConf} (h : addServer net k conf (s, w) = (.ok (), s', w')) :
    ∃ fd, net.socket s.log = some fd ∧ net.bind (.setReuse fd :: .socket fd :: s.log) conf.interfacePortPair = true ∧
      s' = { s with
        log := listeningCalls fd conf.interfacePortPair ++ s.log
        interfacePortPairs := s.interfacePortPairs.insert (addrKey conf.interfacePortPair) conf
        server := ServerManager.watch fd { epollin := true } (addListenFd fd (some conf) s.server) } := by
  obtain ⟨fd, t, hsocket, h⟩ := Eff.bind_eq_ok.1 h
  have hrun := createListeningSocket_run net conf.interfacePortPair s w
  rw [hsocket] at hrun
  cases hrun with
  | done hfree hbind =>
    rw [Eff.modObj_bind] at h
    obtain ⟨u, hpoll, hu⟩ := Eff.on_eq_ok.1 h
    cases ServerManager.addPollFd_ok hpoll
    cases hu
    exact ⟨fd, hfree, hbind, rfl⟩

/-- One configuration more. -/
theorem Listening.add {socks : List (Nat × ServerConf)} {conf : ServerConf} (hn : HonestNet net) (h : Listening socks s)
    (hrun : addServer net k conf (s, w) = (.ok (), s', w')) : ∃ fd, Listening (socks ++ [(fd, conf)]) s' := by
  obtain ⟨fd, hsocket, hbind, rfl⟩ := addServer_ok hrun
  have hfree := hn.socket _ _ hsocket
  have hnot : ¬ (s.epollFd = some fd ∨ fd ∈ socks.map (·.1)) := fun hfd => by
    rw [(h.opened fd).2 hfd] at hfree
    cases hfree
  have hother {e : Nat × ServerConf} (he : e ∈ socks) : fd ≠ e.1 := fun heq => hnot (.inr (heq ▸ List.mem_map_of_mem he))
  have hmem (fd' : Nat) : fd' ∈ (socks ++ [(fd, conf)]).map (·.1) ↔ fd' ∈ socks.map (·.1) ∨ fd' = fd := by simp
  -- the kernel has refused an address that was taken
  have hkey {e : Nat × ServerConf} (he : e ∈ socks) : addrKey e.2.interfacePortPair ≠ addrKey conf.interfacePortPair := by
    have hopen : isOpen (.setReuse fd :: .socket fd :: s.log) e.1 = true := by
      rw [isOpen, Ledger.held_cons_of_none _ rfl rfl]
      refine (isOpen_socket s.log fd e.1).trans ?_
      rw [(h.opened e.1).2 (.inr (List.mem_map_of_mem he)), Bool.or_true]
    have hbound := hn.bind _ _ e.1 hbind hopen
    have hsame : boundTo (.setReuse fd :: .socket fd :: s.log) e.1 = boundTo s.log e.1 := if_neg (hother he)
    rw [hsame, (h.listens e he).1] at hbound
    exact fun heq => hbound (congrArg some heq)
  have hready (e : Nat × ServerConf) (he : e ∈ socks ++ [(fd, conf)]) :
      boundTo (listeningCalls fd conf.interfacePortPair ++ s.log) e.1 = some (addrKey e.2.interfacePortPair) ∧
        .listen e.1 ∈ listeningCalls fd conf.interfacePortPair ++ s.log ∧
        .setNonblock e.1 ∈ listeningCalls fd conf.interfacePortPair ++ s.log := by
    rw [boundTo_listening]
    rcases List.mem_append.1 he with he | he
    · obtain ⟨hbound, hlisten, hblock⟩ := h.listens e he
      rw [if_neg (hother he)]
      exact ⟨hbound, List.mem_append_right _ hlisten, List.mem_append_right _ hblock⟩
    · cases List.mem_singleton.1 he
      rw [if_pos rfl]
      exact ⟨rfl, by simp [listeningCalls], by simp [listeningCalls]⟩
  refine ⟨fd, ?_, ?_, ?_, fun fd' => ?_, fun fd' => ?_, hready, fun fd' => ?_, fun fd' c => ?_, ?_, h.closed, fun e he => ?_, ?_⟩
  · obtain ⟨ep, hep, hout⟩ := h.epoll
    refine ⟨ep, hep, fun hin => ?_⟩
    rcases (hmem ep).1 hin with hin | rfl
    · exact hout hin
    · exact hnot (.inl hep)
  · rw [List.map_append]
    refine List.nodup_append.2 ⟨h.nodup, List.nodup_singleton _, fun a ha b hb => ?_⟩
    cases List.mem_singleton.1 hb
    rintro rfl
    exact hnot (.inr ha)
  · exact orderly_listening h.orderly hfree _
  · have hold := h.unclosed fd'
    simp [listeningCalls, hold]
  · rw [hmem]
    show isOpen (listeningCalls fd _ ++ s.log) fd' = true ↔ _
    rw [isOpen_listening, Bool.or_eq_true, decide_eq_true_eq, h.opened]
    tauto
  · rw [hmem, ← h.listenFds]
    show fd' ∈ insert fd s.server.listenFds ↔ _
    rw [Finset.mem_insert, or_comm]
  · show (s.server.listenFdToServerConf.insert fd (some conf)).find? fd' = some c ↔ _
    rw [OrdMap.find?_insert_eq_some, h.confs]
    constructor
    · rintro (⟨rfl, rfl⟩ | ⟨-, e, he, rfl, rfl⟩)
      · exact ⟨(fd', conf), by simp, rfl, rfl⟩
      · exact ⟨e, List.mem_append_left _ he, rfl, rfl⟩
    · rintro ⟨e, he, rfl, rfl⟩
      rcases List.mem_append.1 he with he | he
      · exact .inr ⟨(hother he).symm, e, he, rfl, rfl⟩
      · cases List.mem_singleton.1 he
        exact .inl ⟨rfl, rfl⟩
  · obtain ⟨hqueue, hset, hconns, hpipes, hstarts, hevents, hheap⟩ := h.fresh
    refine ⟨hqueue, hset, hconns, hpipes, hstarts, fun fd' => ?_, hheap⟩
    show (s.server.fdEvents.insert fd _).find? fd' = if fd' ∈ insert fd s.server.listenFds then _ else _
    rw [OrdMap.find?_insert, hevents]
    by_cases hfd : fd' = fd <;> simp [hfd]
  · show (s.interfacePortPairs.insert (addrKey conf.interfacePortPair) conf).find? _ = _
    rcases List.mem_append.1 he with he | he
    · rw [OrdMap.find?_insert_of_ne _ (hkey he), h.routed e he]
    · cases List.mem_singleton.1 he
      exact OrdMap.find?_insert_self _ _ _
  · rw [List.map_append]
    refine List.nodup_append.2 ⟨h.distinct, List.nodup_singleton _, fun a ha b hb => ?_⟩
    obtain ⟨e, he, rfl⟩ := List.mem_map.1 ha
    cases List.mem_singleton.1 hb
    exact hkey he

/-! ### A set-up that fails -/

theorem addPollFd_error {m m' : ServerState} {events : Events} {e : Exn} (hnew : m.1.fdEvents.contains fd = false)
    (h : ServerManager.addPollFd k fd events m = (.error e, m')) : e = .fatal "epoll_ctl(ADD)" ∧ m'.1 = m.1 := by
  rw [ServerManager.addPollFd, Eff.obj_bind, if_neg (by rw [hnew]; decide)] at h
  rcases hctl : ServerManager.epollCtl k m with ⟨_ | b, t⟩
  · cases hctl
  cases ServerManager.epollCtl_ok hctl
  rw [Eff.bind_ok hctl] at h
  split at h
  · cases h
    exact ⟨rfl, rfl⟩
  · cases h

/-- Open are the watched descriptors, that of `epoll` and at most one more, which nobody watches. -/
structure Failing (leak : Option Nat) (s : Setup) : Prop where
  epoll : ∃ fd, s.epollFd = some fd ∧ fd ∉ s.server.fdEvents.keys
  connections : s.server.connections = ∅
  orderly : Orderly s.log
  opened : ∀ fd, isOpen s.log fd = true ↔ s.epollFd = some fd ∨ fd ∈ s.server.fdEvents.keys ∨ leak = some fd
  last : ∀ fd, leak = some fd → lastSocket s.log = some fd
  leak : ∀ fd, leak = some fd → s.epollFd ≠ some fd ∧ fd ∉ s.server.fdEvents.keys

theorem Listening.watched {socks : List (Nat × ServerConf)} (h : Listening socks s) (fd : Nat) :
    fd ∈ s.server.fdEvents.keys ↔ fd ∈ socks.map (·.1) := by
  rw [OrdMap.mem_keys, h.fresh.fdEvents, ← h.listenFds]
  split <;> simp [*]

theorem Listening.failing {socks : List (Nat × ServerConf)} (h : Listening socks s) : Failing none s := by
  obtain ⟨fd, hfd, hout⟩ := h.epoll
  refine ⟨⟨fd, hfd, fun hin => hout ((h.watched fd).1 hin)⟩, h.fresh.connections, h.orderly, fun x => ?_,
    fun _ hx => (by cases hx), fun _ hx => (by cases hx)⟩
  rw [h.opened, h.watched]
  simp

theorem Listening.fail {socks : List (Nat × ServerConf)} {conf : ServerConf} {e : Exn} (hn : HonestNet net) (h : Listening socks s)
    (hrun : addServer net k conf (s, w) = (.error e, s', w')) :
    ∃ msg leak, e = .fatal msg ∧ Failing leak s' ∧ (leak ≠ none ↔ msg = "epoll_ctl(ADD)") := by
  have hfailing := h.failing
  have hsocket := createListeningSocket_run net conf.interfacePortPair s w
  rcases hout : createListeningSocket net conf.interfacePortPair (s, w) with ⟨e' | fd, t⟩ <;> rw [hout] at hsocket
  · rw [addServer, Eff.bind_error hout] at hrun
    cases hrun
    cases hsocket with
    | unopened => exact ⟨_, none, rfl, hfailing, by simp⟩
    | closed hfd hcalls hmsg =>
      obtain ⟨horderly, hopen⟩ := closed_again hcalls h.orderly (hn.socket _ _ hfd)
      refine ⟨_, none, rfl, ⟨hfailing.epoll, hfailing.connections, horderly, fun x => ?_, fun _ hx => (by cases hx),
        fun _ hx => (by cases hx)⟩, ?_⟩
      · rw [hopen, hfailing.opened]
      · simp only [ne_eq, not_true_eq_false, false_iff]
        rintro rfl
        simp at hmsg
  cases hsocket with
  | done hfd hbind =>
    have hfree := hn.socket _ _ hfd
    have hnew : ¬ (s.epollFd = some fd ∨ fd ∈ s.server.fdEvents.keys) := fun hin => by
      rw [(hfailing.opened fd).2 (or_assoc.1 (.inl hin))] at hfree
      cases hfree
    have hunwatched : s.server.fdEvents.contains fd = false := by
      rw [Bool.eq_false_iff, ne_eq, OrdMap.contains_iff, ← OrdMap.mem_keys]
      exact fun hin => hnew (.inr hin)
    rw [addServer, Eff.bind_ok hout, Eff.modObj_bind, onServer, Eff.on_apply] at hrun
    obtain ⟨m, hm⟩ : ∃ m, m = addListenFd fd (some conf) s.server := ⟨_, rfl⟩
    have hsame : m.fdEvents = s.server.fdEvents ∧ m.connections = s.server.connections := by
      rw [hm]
      exact ⟨rfl, rfl⟩
    rw [← hm] at hrun
    rcases hpoll : ServerManager.addPollFd k fd { epollin := true } (m, w) with ⟨_ | _, t⟩ <;> rw [hpoll] at hrun <;> cases hrun
    obtain ⟨rfl, hserver⟩ := addPollFd_error (hsame.1 ▸ hunwatched) hpoll
    refine ⟨_, some fd, rfl, ⟨?_, ?_, orderly_listening h.orderly hfree _, fun x => ?_, fun x hx => hx, ?_⟩, by simp⟩
    all_goals dsimp only
    all_goals simp only [hserver, hsame]
    · exact hfailing.epoll
    · exact hfailing.connections
    · rw [isOpen_listening, Bool.or_eq_true, decide_eq_true_eq, hfailing.opened]
      simp only [Option.some.injEq, reduceCtorEq, or_false]
      tauto
    · rintro _ ⟨⟩
      exact not_or.1 hnew

/-! ### Closing -/

/-- The log when these descriptors were closed, one after the other. -/
def closeLog : List Nat → List SockCall → List SockCall
  | [], log => log
  | fd :: fds, log => closeLog fds (.close fd :: log)

theorem closeLog_append (fds fds' : List Nat) (log : List SockCall) : closeLog (fds ++ fds') log = closeLog fds' (closeLog fds log) := by
  induction fds generalizing log with
  | nil => rfl
  | cons fd fds ih => exact ih _

theorem lastSocket_closeLog (fds : List Nat) (log : List SockCall) : lastSocket (closeLog fds log) = lastSocket log := by
  induction fds generalizing log with
  | nil => rfl
  | cons fd fds ih => exact ih _

theorem isOpen_closeLog (fds : List Nat) (log : List SockCall) (fd : Nat) :
    isOpen (closeLog fds log) fd = true ↔ fd ∉ fds ∧ isOpen log fd = true := by
  induction fds generalizing log with
  | nil => simp [closeLog]
  | cons a fds ih =>
    rw [closeLog, ih, isOpen_close, List.mem_cons, not_or, Bool.and_eq_true, decide_eq_true_eq]
    tauto

theorem orderly_closeLog {fds : List Nat} (hnodup : fds.Nodup) (hopen : ∀ fd ∈ fds, isOpen log fd = true) (hlog : Orderly log) :
    Orderly (closeLog fds log) := by
  induction fds generalizing log with
  | nil => exact hlog
  | cons fd fds ih =>
    obtain ⟨hout, hnodup⟩ := List.nodup_cons.1 hnodup
    refine ih hnodup (fun a ha => ?_) (orderly_close hlog (hopen fd List.mem_cons_self))
    rw [isOpen_close, hopen a (List.mem_cons_of_mem fd ha), Bool.and_true, decide_eq_true_eq]
    rintro rfl
    exact hout ha

theorem closeFds_run (fds : List Nat) (s : Setup) (w : World) : closeFds fds (s, w) = (.ok (), { s with log := closeLog fds s.log }, w) := by
  induction fds generalizing s with
  | nil => rfl
  | cons fd fds ih => exact ih _

/-- The pipes of the connections. -/
def pipesOf (heap : OrdMap Nat Connection) (entries : List (Nat × Nat)) : List Nat :=
  entries.filterMap fun e => (heap.find? e.2).bind Connection.getCgiPipeFd

theorem activePids_destroyConnection (c : Connection) (w : World) :
    (ServerManager.destroyConnection c w).activePids = w.activePids := by
  have hdestroy (d : DataStore) (w : World) : (d.destroy w).activePids = w.activePids := by
    rw [DataStore.destroy, DataStore.clear, Eff.obj_bind, Eff.modObj_bind]
    rcases d.absolutePath <;> rfl
  rw [ServerManager.destroyConnection, hdestroy, hdestroy, hdestroy]

theorem deleteConnections_run {entries : List (Nat × Nat)} (hlive : ∀ e ∈ entries, ∃ c, s.server.heap.find? e.2 = some c)
    (hnodup : (entries.map (·.2)).Nodup) : ∃ heap w', deleteConnections entries (s, w) = (.ok (), { s with
      server := { s.server with heap := heap }, log := closeLog (pipesOf s.server.heap entries) s.log }, w') ∧
        w'.activePids = w.activePids ∧
        ∀ a, heap.find? a = if a ∈ entries.map (·.2) then none else s.server.heap.find? a := by
  induction entries generalizing s w with
  | nil => exact ⟨s.server.heap, w, rfl, rfl, fun a => rfl⟩
  | cons e entries ih =>
    obtain ⟨fd, conn⟩ := e
    obtain ⟨hout, hnodup⟩ := List.nodup_cons.1 hnodup
    obtain ⟨c, hc⟩ := hlive _ List.mem_cons_self
    have hne {e : Nat × Nat} (he : e ∈ entries) : e.2 ≠ conn := fun heq =>
      hout (List.mem_map.2 ⟨e, he, heq⟩)
    have hread : onServer (ServerManager.deref conn (return (← obj).getCgiPipeFd)) (s, w) = (.ok c.getCgiPipeFd, s, w) :=
      Eff.on_eq (ServerManager.deref_read hc _)
    obtain ⟨s₁, hs₁⟩ : ∃ s₁ : Setup, s₁ = { s with
      server := { s.server with heap := s.server.heap.erase conn }, log := closeLog c.getCgiPipeFd.toList s.log } := ⟨_, rfl⟩
    have hfind (a : Nat) : s₁.server.heap.find? a = if a = conn then none else s.server.heap.find? a := by
      rw [hs₁]
      exact OrdMap.find?_erase _ _ _
    have hpipes : pipesOf s₁.server.heap entries = pipesOf s.server.heap entries :=
      List.filterMap_congr fun e he => by rw [hfind, if_neg (hne he)]
    have hstep : deleteConnections ((fd, conn) :: entries) (s, w) =
        deleteConnections entries (s₁, ServerManager.destroyConnection c w) := by
      rw [deleteConnections, Eff.bind_ok hread, hs₁]
      rcases c.getCgiPipeFd with _ | p
      · exact Eff.bind_ok (Eff.on_eq (ServerManager.deleteConnection_eq hc))
      · dsimp only
        rw [record, Eff.modObj_bind]
        exact Eff.bind_ok (Eff.on_eq (ServerManager.deleteConnection_eq hc))
    obtain ⟨heap, w', hrun, hpids, hheap⟩ := @ih s₁ (ServerManager.destroyConnection c w) (fun e he => by
      rw [hfind, if_neg (hne he)]
      exact hlive e (List.mem_cons_of_mem _ he)) hnodup
    refine ⟨heap, w', ?_, hpids.trans (activePids_destroyConnection c w), fun a => ?_⟩
    · rw [hstep, hrun, hpipes, hs₁, pipesOf, pipesOf, List.filterMap_cons]
      simp only [hc, Option.bind_some]
      rcases c.getCgiPipeFd with _ | p <;> rfl
    · have hmem : a ∈ ((fd, conn) :: entries).map (·.2) ↔ a = conn ∨ a ∈ entries.map (·.2) := List.mem_cons
      rw [hheap, hfind]
      simp only [hmem]
      split_ifs <;> tauto

/-- The descriptors that `_closeAllFds` closes, in its order; those of pipes occur twice if they are watched. -/
def closing (s : Setup) : List Nat :=
  pipesOf s.server.heap s.server.connections.entries ++ s.server.fdEvents.keys ++ s.epollFd.toList

/-- The connections in the map are live, each under one descriptor only. -/
structure Deletable (s : ServerManager) : Prop where
  live : ∀ e ∈ s.connections.entries, ∃ c, s.heap.find? e.2 = some c
  once : (s.connections.entries.map (·.2)).Nodup

theorem closeAllFds_run (h : Deletable s.server) (w : World) : ∃ s' w', closeAllFds (s, w) = (.ok (), s', w') ∧
    s'.log = closeLog (closing s) s.log ∧ s'.epollFd = none ∧ s'.server.connections = ∅ ∧ s'.server.fdEvents = ∅ ∧
      s'.server.listenFds = ∅ ∧ w'.activePids = w.activePids ∧
      ∀ a, s'.server.heap.find? a = if a ∈ s.server.connections.entries.map (·.2) then none else s.server.heap.find? a := by
  obtain ⟨s₁, hs₁⟩ : ∃ s₁ : Setup, s₁ = { s with server := { s.server with
    processingQueue := [], processingSet := ∅, cgiPipeToConn := ∅, cgiStartTimes := ∅ } } := ⟨_, rfl⟩
  have hsame : s₁.server.heap = s.server.heap ∧ s₁.server.connections = s.server.connections ∧
      s₁.server.fdEvents = s.server.fdEvents ∧ s₁.epollFd = s.epollFd ∧ s₁.log = s.log := by
    rw [hs₁]
    exact ⟨rfl, rfl, rfl, rfl, rfl⟩
  obtain ⟨hheap₁, hconns, hevents, hepoll, hlog⟩ := hsame
  obtain ⟨heap, w', hdelete, hpids, hheap⟩ := @deleteConnections_run s₁ w s.server.connections.entries
    (fun e he => hheap₁ ▸ h.live e he) h.once
  rw [closeAllFds, Eff.modObj_bind, ← hs₁, Eff.obj_bind, hconns, Eff.bind_ok hdelete, Eff.modObj_bind, Eff.obj_bind,
    Eff.bind_ok (closeFds_run _ _ _), Eff.modObj_bind, Eff.obj_bind]
  dsimp only
  have hheap' (a : Nat) : heap.find? a = if a ∈ s.server.connections.entries.map (·.2) then none else s.server.heap.find? a := by
    rw [hheap, hheap₁]
  rw [hepoll, hheap₁, hevents, hlog]
  rcases hep : s.epollFd with _ | ep
  · refine ⟨_, _, rfl, ?_, rfl, rfl, rfl, rfl, hpids, hheap'⟩
    rw [closing, hep, Option.toList, List.append_nil, closeLog_append]
  · refine ⟨_, _, rfl, ?_, rfl, rfl, rfl, rfl, hpids, hheap'⟩
    rw [closing, hep, closeLog_append, closeLog_append]
    rfl

theorem Failing.close {leak : Option Nat} (h : Failing leak s) (w : World) : ∃ s' w', closeAllFds (s, w) = (.ok (), s', w') ∧
    Orderly s'.log ∧ lastSocket s'.log = lastSocket s.log ∧ ∀ fd, isOpen s'.log fd = true ↔ leak = some fd := by
  obtain ⟨ep, hep, hout⟩ := h.epoll
  have hdeletable : Deletable s.server := by
    refine ⟨fun e he => ?_, ?_⟩
    · rw [h.connections] at he
      cases he
    · rw [h.connections]
      exact List.nodup_nil
  obtain ⟨s', w', hrun, hlog, -⟩ := closeAllFds_run hdeletable w
  have hclosing : closing s = s.server.fdEvents.keys ++ [ep] := by
    rw [closing, h.connections, hep]
    rfl
  have hopen : ∀ fd ∈ closing s, isOpen s.log fd = true := by
    intro fd hfd
    rw [hclosing, List.mem_append, List.mem_singleton] at hfd
    rw [h.opened, hep]
    rcases hfd with hfd | rfl
    · exact .inr (.inl hfd)
    · exact .inl rfl
  have hnodup : (closing s).Nodup := by
    rw [hclosing]
    refine List.nodup_append.2 ⟨OrdMap.keys_nodup _, List.nodup_singleton _, fun a ha b hb => ?_⟩
    cases List.mem_singleton.1 hb
    rintro rfl
    exact hout ha
  refine ⟨s', w', hrun, hlog ▸ orderly_closeLog hnodup hopen h.orderly, hlog ▸ lastSocket_closeLog _ _, fun fd => ?_⟩
  rw [hlog, isOpen_closeLog, h.opened, hclosing, List.mem_append, List.mem_singleton, hep]
  constructor
  · rintro ⟨hclosed, heq | hkey | hleak⟩
    · exact absurd (.inr (Option.some.inj heq).symm) hclosed
    · exact absurd (.inl hkey) hclosed
    · exact hleak
  · intro hleak
    obtain ⟨hne, hunwatched⟩ := h.leak fd hleak
    refine ⟨?_, .inr (.inr hleak)⟩
    rintro (hkey | rfl)
    · exact hunwatched hkey
    · exact hne hep

/-- The loop of the constructor. -/
theorem Listening.addAll {socks : List (Nat × ServerConf)} {confs : List ServerConf} {out : Except Exn Unit} (hn : HonestNet net)
    (h : Listening socks s) (hrun : addServers net k confs (s, w) = (out, s', w')) :
    match out with
    | .ok _ => ∃ socks', socks'.map (·.2) = confs ∧ Listening (socks ++ socks') s'
    | .error e => ∃ msg leak, e = .fatal msg ∧ Failing leak s' ∧ (leak ≠ none ↔ msg = "epoll_ctl(ADD)") := by
  induction confs generalizing s w socks with
  | nil =>
    cases hrun
    exact ⟨[], rfl, by rwa [List.append_nil]⟩
  | cons conf confs ih =>
    obtain ⟨s₁, hs₁⟩ : ∃ s₁ : Setup, s₁ = { s with serverConfs := s.serverConfs ++ [conf] } := ⟨_, rfl⟩
    have h₁ : Listening socks s₁ := by
      rw [hs₁]
      exact ⟨h.epoll, h.nodup, h.orderly, h.unclosed, h.opened, h.listens, h.listenFds, h.confs, h.fresh, h.closed, h.routed,
        h.distinct⟩
    rw [addServers, Eff.modObj_bind, ← hs₁] at hrun
    rcases hadd : addServer net k conf (s₁, w) with ⟨e | _, s₂, w₂⟩
    · rw [Eff.bind_error hadd] at hrun
      cases hrun
      exact h₁.fail hn hadd
    rw [Eff.bind_ok hadd] at hrun
    obtain ⟨fd, h₂⟩ := h₁.add hn hadd
    have hrest := ih h₂ hrun
    cases out with
    | error e => exact hrest
    | ok _ =>
      obtain ⟨socks', hconfs, hlistening⟩ := hrest
      refine ⟨(fd, conf) :: socks', by rw [List.map_cons, hconfs], ?_⟩
      rwa [List.append_assoc, List.singleton_append] at hlistening

theorem listening_nil (ep : Nat) : Listening [] { epollFd := some ep, log := [.epollCreate ep] } := by
  have hopened (fd : Nat) : isOpen [.epollCreate ep] fd = (decide (fd = ep) || false) := Ledger.held_cons_of_take rfl rfl
  have hfresh : ServerManager.Fresh {} := ⟨rfl, rfl, rfl, rfl, rfl, fun _ => rfl, rfl⟩
  refine ⟨⟨ep, rfl, List.not_mem_nil⟩, List.nodup_nil, orderly_open rfl rfl trivial rfl, fun fd => by simp, fun fd => ?_,
    fun e he => absurd he List.not_mem_nil, fun fd => ?_, fun fd conf => ?_, hfresh, rfl,
    fun e he => absurd he List.not_mem_nil, List.nodup_nil⟩
  · rw [hopened]
    simp [eq_comm]
  · simp
  · simp

/-- What `addServers` gives, from an epoll descriptor on. -/
theorem construct_cases {confs : List ServerConf} {out : Except Exn Unit} (hn : HonestNet net)
    (hrun : construct net k confs ({}, w) = (out, s', w')) :
    match out with
    | .ok _ => ∃ socks, socks.map (·.2) = confs ∧ Listening socks s'
    | .error e => ∃ msg leak, e = .fatal msg ∧ Orderly s'.log ∧ (∀ fd, isOpen s'.log fd = true ↔ leak = some fd) ∧
        (leak ≠ none ↔ msg = "epoll_ctl(ADD)") ∧ ∀ fd, leak = some fd → lastSocket s'.log = some fd := by
  rw [construct, Eff.obj_bind] at hrun
  rcases hepoll : net.epollCreate [] with _ | ep <;> simp only [hepoll] at hrun
  · cases hrun
    exact ⟨_, none, rfl, trivial, fun fd => by simp [Ledger.held], by simp, fun _ hfd => by cases hfd⟩
  rw [record, Eff.modObj_bind, Eff.modObj_bind] at hrun
  obtain ⟨s₀, hs₀⟩ : ∃ s₀ : Setup, s₀ = { epollFd := some ep, log := [.epollCreate ep] } := ⟨_, rfl⟩
  have h₀ : Listening [] s₀ := hs₀ ▸ listening_nil ep
  rcases hadd : addServers net k confs (s₀, w) with ⟨e | _, s₁, w₁⟩
  · obtain ⟨msg, leak, rfl, hfailing, hleak⟩ := h₀.addAll hn hadd
    obtain ⟨s₂, hs₂⟩ : ∃ s₂ : Setup, s₂ = { s₁ with serverConfs := [] } := ⟨_, rfl⟩
    have hfailing₂ : Failing leak s₂ := by
      rw [hs₂]
      exact ⟨hfailing.epoll, hfailing.connections, hfailing.orderly, hfailing.opened, hfailing.last, hfailing.leak⟩
    obtain ⟨s₃, w₃, hclose, horderly, hlast, hopened⟩ := hfailing₂.close w₁
    have hout : tryCatch (addServers net k confs) release (s₀, w) = (.error (.fatal msg), s₃, w₃) := by
      rw [Eff.tryCatch_apply, hadd]
      dsimp only
      rw [release, Eff.modObj_bind, ← hs₂, Eff.bind_ok hclose]
      rfl
    rw [hs₀] at hout
    cases hrun.symm.trans hout
    exact ⟨msg, leak, rfl, horderly, hopened, hleak, fun fd hfd => hlast.trans (hfailing₂.last fd hfd)⟩
  · have hout : tryCatch (addServers net k confs) release (s₀, w) = (.ok (), s₁, w₁) := Eff.tryCatch_ok hadd
    rw [hs₀] at hout
    cases hrun.symm.trans hout
    exact h₀.addAll hn hadd

/-- If the server starts, then it listens on one socket for each configuration, on different addresses, and nothing
else is open but the descriptor of `epoll`. -/
theorem construct_listens {confs : List ServerConf} (hn : HonestNet net) (hrun : construct net k confs ({}, w) = (.ok (), s', w')) :
    ∃ socks, socks.map (·.2) = confs ∧ Listening socks s' := construct_cases hn hrun

/-- The socket that a set-up leaves open: the one opened last, when `epoll_ctl` has refused it. -/
def leaked (e : Exn) (log : List SockCall) : Option Nat := if e = .fatal "epoll_ctl(ADD)" then lastSocket log else none

/-- If the server does not start, then every descriptor that was opened is closed again, and none when it is not open;
what stays open is the socket that `epoll_ctl` has refused, and nothing else. -/
theorem construct_releases {confs : List ServerConf} {e : Exn} (hn : HonestNet net)
    (hrun : construct net k confs ({}, w) = (.error e, s', w')) :
    Orderly s'.log ∧ (leaked e s'.log ≠ none ↔ e = .fatal "epoll_ctl(ADD)") ∧
      ∀ fd, s'.log.countP (fun c => c.opens = some fd) =
        s'.log.countP (fun c => c.closes = some fd) + if leaked e s'.log = some fd then 1 else 0 := by
  obtain ⟨msg, leak, rfl, horderly, hopened, hleak, hlast⟩ := construct_cases hn hrun
  have hleaked : leaked (.fatal msg) s'.log = leak := by
    unfold leaked
    rcases leak with _ | fd
    · exact if_neg fun heq => hleak.2 (by cases heq; rfl) rfl
    · rw [if_pos (congrArg Exn.fatal (hleak.1 (Option.some_ne_none fd))), hlast fd rfl]
  rw [hleaked]
  refine ⟨horderly, by simpa using hleak, fun fd => ?_⟩
  have hbalance : s'.log.countP (fun c => c.opens = some fd) =
    s'.log.countP (fun c => c.closes = some fd) + (isOpen s'.log fd).toNat := horderly.balance fd
  by_cases hfd : leak = some fd
  · rw [(hopened fd).2 hfd] at hbalance
    rw [hbalance, if_pos hfd]
    rfl
  · rw [Bool.eq_false_iff.2 fun h => hfd ((hopened fd).1 h)] at hbalance
    rw [hbalance, if_neg hfd]
    rfl

/-! ### A system -/

/-- Gives out the smallest free numbers. -/
def plainNet : Net where
  epollCreate log := (List.range (log.length + 1)).find? fun fd => isOpen log fd = false
  socket log := (List.range (log.length + 1)).find? fun fd => isOpen log fd = false
  setsockopt _ := true
  bind log addr := log.all fun
    | .bind fd _ => isOpen log fd = false ∨ boundTo log fd ≠ some (addrKey addr)
    | _ => true
  listen _ := true
  fcntl _ := true

theorem exists_bind {log : List SockCall} {fd : Nat} {key : List Nat} (h : boundTo log fd = some key) :
    ∃ addr, .bind fd addr ∈ log := by
  have hrest {c : SockCall} {log : List SockCall} (h : ∃ addr, SockCall.bind fd addr ∈ log) : ∃ addr, SockCall.bind fd addr ∈ c :: log :=
    h.imp fun _ => List.mem_cons_of_mem _
  induction log with
  | nil => cases h
  | cons c log ih =>
    cases c with
    | bind fd' addr =>
      rw [boundTo] at h
      split at h
      · rename_i heq
        exact ⟨addr, heq ▸ List.mem_cons_self⟩
      · exact hrest (ih h)
    | socket _ | epollCreate _ | close _ =>
      rw [boundTo] at h
      split at h
      · cases h
      · exact hrest (ih h)
    | setReuse _ | listen _ | setNonblock _ => exact hrest (ih h)

theorem plainNet_honest : HonestNet plainNet := by
  have hfind {log : List SockCall} {fd : Nat} (h : (List.range (log.length + 1)).find? (fun fd => isOpen log fd = false) = some fd) :
      isOpen log fd = false := by simpa using List.find?_some h
  refine ⟨fun _ _ => hfind, fun _ _ => hfind, fun log addr fd h hopen hbound => ?_⟩
  obtain ⟨addr', hmem⟩ := exists_bind hbound
  have hrefused := List.all_eq_true.1 h _ hmem
  simp [hopen, hbound] at hrefused

/-- Two servers on two ports. -/
def twoServers : List ServerConf :=
  [{ interfacePortPair := ⟨2, 8080, 0⟩ }, { interfacePortPair := ⟨2, 8081, 0⟩ }]

theorem construct_listens_two : ∃ s' w', construct plainNet ServerManager.oneClient twoServers ({}, {}) = (.ok (), s', w') ∧
    ∃ socks, socks.map (·.2) = twoServers ∧ Listening socks s' := by
  have hrun : (construct plainNet ServerManager.oneClient twoServers ({}, {})).1 = .ok () := by decide +kernel
  rcases hout : construct plainNet ServerManager.oneClient twoServers ({}, {}) with ⟨out, s', w'⟩
  rw [hout] at hrun
  cases hrun
  exact ⟨s', w', rfl, construct_listens plainNet_honest hout⟩

/-- A system that watches nothing. -/
def watchingNothing : Kernel := { ServerManager.oneClient with sys := fun _ => { Sys.calm with epollCtl := fun _ => false } }

/-- The first socket stays open. -/
theorem construct_releases_unwatched : ∃ s' w',
    construct plainNet watchingNothing twoServers ({}, {}) = (.error (.fatal "epoll_ctl(ADD)"), s', w') ∧
      lastSocket s'.log = some 1 ∧ Orderly s'.log ∧
      (leaked (.fatal "epoll_ctl(ADD)") s'.log ≠ none ↔ Exn.fatal "epoll_ctl(ADD)" = .fatal "epoll_ctl(ADD)") ∧
      ∀ fd, s'.log.countP (fun c => c.opens = some fd) =
        s'.log.countP (fun c => c.closes = some fd) + if leaked (.fatal "epoll_ctl(ADD)") s'.log = some fd then 1 else 0 := by
  have hrun : (construct plainNet watchingNothing twoServers ({}, {})).1 = .error (.fatal "epoll_ctl(ADD)") ∧
      lastSocket (construct plainNet watchingNothing twoServers ({}, {})).2.1.log = some 1 := by decide +kernel
  rcases hout : construct plainNet watchingNothing twoServers ({}, {}) with ⟨out, s', w'⟩
  rw [hout] at hrun
  obtain ⟨herror, hlast⟩ := hrun
  cases herror
  exact ⟨s', w', rfl, hlast, construct_releases plainNet_honest hout⟩

end Setup

end LeftHookRoll
