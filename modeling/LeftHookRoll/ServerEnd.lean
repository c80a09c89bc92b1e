import LeftHookRoll.Lib.Triple
import LeftHookRoll.ServerReach
import LeftHookRoll.Uncaught

/-!
# However a turn ends

A turn of a reachable server uses no connection that was deleted, and what it throws is `Exn.Ends`: no `ClientException`
leaves `run`. The tables of connections and descriptors (`Rooted`) are right also where an exception has ended the turn.
-/

namespace LeftHookRoll

open Eff

/-- What ends a run: the system has refused something, or the handlers have let it through. -/
inductive Exn.Ends : Exn → Prop
  | uncaught {e : Exn} (h : e.Escapes) : Ends e
  | system {msg : String} (h : msg ∈ ["epoll_ctl(ADD)", "epoll_ctl(MOD)", "epoll_wait()"]) : Ends (.fatal msg)

namespace ServerManager

open LeftHookRoll.Connection

/-- The tables are right, and the sockets are those of the start, watched as then; none was closed that is not in `C`. -/
structure Rooted (L : Finset Nat) (C : List Nat) (s : ServerManager) : Prop where
  table : Table s.heap s.connections s.listenFds
  listenFds : s.listenFds = L
  watched : ∀ fd ∈ L, s.fdEvents.contains fd = true
  unclosed : ∀ fd ∈ L, fd ∈ s.closed → fd ∈ C

def Live (conn : Nat) (s : ServerManager) : Prop := ∃ c, s.heap.find? conn = some c

abbrev Grounded (L : Finset Nat) (C : List Nat) (s : ServerState) : Prop := Rooted L C s.1

/-- While a connection is served. -/
abbrev Serving (L : Finset Nat) (C : List Nat) (conn : Nat) (s : ServerState) : Prop := Rooted L C s.1 ∧ Live conn s.1

/-- Where an exception has ended the turn. -/
abbrev Ended (L : Finset Nat) (C : List Nat) (e : Exn) (s : ServerState) : Prop := Rooted L C s.1 ∧ e.Ends

variable {k : Kernel} {L : Finset Nat} {C : List Nat} {conn fd p : Nat} {s s' : ServerState} {α : Type}

theorem Rooted.maps {m m' : ServerManager} (h : Rooted L C m) (hheap : m'.heap = m.heap) (hconns : m'.connections = m.connections)
    (hlisten : m'.listenFds = m.listenFds) (hclosed : m'.closed = m.closed)
    (hevents : ∀ fd ∈ L, m.fdEvents.contains fd = true → m'.fdEvents.contains fd = true) : Rooted L C m' := by
  refine ⟨?_, hlisten.trans h.listenFds, fun fd hfd => hevents fd hfd (h.watched fd hfd), hclosed ▸ h.unclosed⟩
  rw [hheap, hconns, hlisten]
  exact h.table

theorem Rooted.watch {m : ServerManager} (h : Rooted L C m) (fd : Nat) (events : Events) : Rooted L C (watch fd events m) := by
  refine h.maps rfl rfl rfl rfl fun g _ hg => ?_
  show (m.fdEvents.insert fd events).contains g = true
  rw [OrdMap.contains_insert, hg, ite_self]

theorem Rooted.unwatch {m m' : ServerManager} (h : Rooted L C m) (hheap : m'.heap = m.heap) (hconns : m'.connections = m.connections)
    (hlisten : m'.listenFds = m.listenFds) (hevents : m'.fdEvents = m.fdEvents.erase fd) (hclosed : m'.closed ⊆ fd :: m.closed)
    (hfd : fd ∉ L) : Rooted L C m' := by
  have hne {g : Nat} (hg : g ∈ L) : g ≠ fd := fun heq => hfd (heq ▸ hg)
  refine ⟨?_, hlisten.trans h.listenFds, fun g hg => ?_, fun g hg hmem => ?_⟩
  · rw [hheap, hconns, hlisten]
    exact h.table
  · rw [hevents, OrdMap.contains_erase, if_neg (hne hg), h.watched g hg]
  · exact h.unclosed g hg ((List.mem_cons.1 (hclosed hmem)).resolve_left (hne hg))

/-- The client stays, and no pipe comes from nowhere. -/
structure Tame (s s' : Connection × World) : Prop where
  acceptFD : s'.1.acceptFD = s.1.acceptFD
  pipe : ∀ p, s'.1.getCgiPipeFd = some p → s.1.getCgiPipeFd = some p

theorem tame_of_steady {Q : World → World → Prop} {m : Method Connection α} (h : Moves (Steady Q) m) : Moves Tame m :=
  h.mono fun _ _ h => ⟨h.client.acceptFD, fun _ hp => h.getCgiPipeFd_eq.symm.trans hp⟩

theorem tame_handleWrite (sys : Sys) : Moves Tame (handleWrite sys) := by
  intro s
  have h := steady_handleWrite sys s
  exact ⟨h.client.acceptFD, fun _ hp => h.getCgiPipeFd_eq.symm.trans hp⟩

theorem tame_onResponse {m : Method Response α} (h : Moves Response.MayClose m) : Moves Tame (onResponse m) := by
  refine h.on fun c t ht => ⟨rfl, fun p hp => ?_⟩
  have hp' : t.1.getCgiOutputFd = some p := hp
  rcases ht.1 with heq | hnone
  · exact heq.symm.trans hp'
  · rw [hnone] at hp'
    cases hp'

theorem Rooted.put {m : ServerManager} {c c' : Connection} (h : Rooted L C m) (hc : m.heap.find? conn = some c)
    (hfd : c'.acceptFD = c.acceptFD)
    (hp : ∀ p, c'.getCgiPipeFd = some p → c.getCgiPipeFd = some p ∨ ¬ Holds m.heap m.connections m.listenFds p) :
    Rooted L C (put conn c' m) := ⟨h.table.put hc hfd hp, h.listenFds, h.watched, h.unclosed⟩

theorem Rooted.outside {m : ServerManager} {c : Connection} (h : Rooted L C m) (hc : m.heap.find? conn = some c) : c.acceptFD ∉ L :=
  h.listenFds ▸ h.table.fdListen _ _ (h.table.known conn c hc)

theorem Rooted.unregister {m : ServerManager} (h : Rooted L C m) (hp : p ∉ L) : Rooted L C (unregister p m) :=
  h.unwatch rfl rfl rfl rfl (List.subset_cons_self p m.closed) hp

theorem Rooted.remove {m : ServerManager} (h : Rooted L C m) (hfd : m.connections.find? fd = some conn) : Rooted L C (remove fd conn m) := by
  have hout : fd ∉ L := h.listenFds ▸ h.table.fdListen fd conn hfd
  have hne {g : Nat} (hg : g ∈ L) : g ≠ fd := fun heq => hout (heq ▸ hg)
  refine ⟨h.table.remove hfd, h.listenFds, fun g hg => ?_, fun g hg hmem => h.unclosed g hg ((List.mem_cons.1 hmem).resolve_left (hne hg))⟩
  show (m.fdEvents.erase fd).contains g = true
  rw [OrdMap.contains_erase, if_neg (hne hg), h.watched g hg]

/-! ### The methods -/

section Methods

variable {E : Exn → ServerState → Prop}

theorem triple_ask (P : ServerState → Prop) (answer : ServerState → α) :
    Triple P (ask answer) (fun a s => P s ∧ answer s = a) E := fun _ hs => ⟨hs, rfl⟩

theorem triple_epollCtl (P : ServerManager → Prop) : Triple (fun s => P s.1) (epollCtl k) (fun _ s => P s.1) E := fun _ hs => hs

/-- The maps may change of which no table speaks. -/
theorem triple_maps {f : ServerManager → ServerManager} (hheap : ∀ m, (f m).heap = m.heap)
    (hrooted : ∀ m, Rooted L C m → Rooted L C (f m)) :
    Triple (Serving L C conn) (modObj f : Method ServerManager Unit) (fun _ => Serving L C conn) E := by
  refine .modObj fun s hs => ⟨hrooted s.1 hs.1, ?_⟩
  rw [Live, hheap]
  exact hs.2

theorem triple_addPollFd (fd : Nat) (events : Events) :
    Triple (Serving L C conn) (addPollFd k fd events) (fun _ => Serving L C conn) (Ended L C) := by
  have hctl : Triple (Serving L C conn) (epollCtl k) (fun _ => Serving L C conn) (Ended L C) :=
    triple_epollCtl fun m => Rooted L C m ∧ Live conn m
  have hwatch : Triple (Serving L C conn) (modObj fun s => { s with fdEvents := s.fdEvents.insert fd events })
      (fun _ => Serving L C conn) (Ended L C) := triple_maps (fun _ => rfl) fun _ h => h.watch fd events
  refine .obj_bind fun m => Triple.pre (P := Serving L C conn) (.ite (fun _ => ?_) fun _ => ?_) fun _ h => h.1
  · refine hwatch.bind fun _ => hctl.bind fun ok => .ite (fun _ => .throw fun s hs => ?_) fun _ => .pure fun _ hs => hs
    exact ⟨hs.1, .system (by simp)⟩
  · refine hctl.bind fun ok => .ite (fun _ => Triple.bind (Q := fun _ _ => False) ?_ nofun) fun _ => hwatch
    exact .throw fun s hs => ⟨hs.1, .system (by simp)⟩

theorem triple_deref {Q : Exn → Prop} {m : Method Connection α} (hm : Moves Tame m) (ht : Throws Q m) :
    Triple (Serving L C conn) (deref conn m) (fun _ => Serving L C conn) fun e s => Serving L C conn s ∧ Q e := by
  rintro s ⟨hrooted, c, hc⟩
  have htame := hm (c, s.2)
  rw [deref_eq hc]
  rcases hrun : m (c, s.2) with ⟨e | a, t⟩ <;> rw [hrun] at htame
  · exact ⟨⟨hrooted.put hc htame.acceptFD fun p hp => .inl (htame.pipe p hp), _, find?_put ..⟩, ht _ _ _ hrun⟩
  · exact ⟨hrooted.put hc htame.acceptFD fun p hp => .inl (htame.pipe p hp), _, find?_put ..⟩

/-- A method whose exceptions nobody catches. -/
theorem triple_unhandled {m : Method Connection α} (hm : Moves Tame m) (ht : Throws Exn.Escapes m) :
    Triple (Serving L C conn) (deref conn m) (fun _ => Serving L C conn) (Ended L C) :=
  (triple_deref hm ht).conseq (fun _ h => h) (fun _ _ h => h) fun _ _ h => ⟨h.1.1, .uncaught h.2⟩

/-- A field of the connection. -/
theorem triple_field (f : Connection → α) : Triple (Serving L C conn) (deref conn (return f (← obj)))
    (fun a s => Serving L C conn s ∧ ∃ c, s.1.heap.find? conn = some c ∧ f c = a) E := by
  rintro s ⟨hrooted, c, hc⟩
  rw [deref_read hc]
  exact ⟨⟨hrooted, c, hc⟩, c, hc, rfl⟩

theorem triple_anyField (f : Connection → α) :
    Triple (Serving L C conn) (deref conn (return f (← obj))) (fun _ => Serving L C conn) E := (triple_field f).post fun _ _ h => h.1

theorem triple_acceptFD : Triple (Serving L C conn) (deref conn (return (← obj).acceptFD))
    (fun fd s => Serving L C conn s ∧ fd ∉ L) E := by
  refine (triple_field _).post fun fd s h => ⟨h.1, ?_⟩
  obtain ⟨c, hc, rfl⟩ := h.2
  exact h.1.1.outside hc

theorem triple_dequeueProcessing : Triple (Serving L C conn) (dequeueProcessing conn) (fun _ => Serving L C conn) E :=
  triple_maps (fun _ => rfl) fun _ h => h.maps rfl rfl rfl rfl fun _ _ hg => hg

theorem triple_enqueueProcessing : Triple (Serving L C conn) (enqueueProcessing conn) (fun _ => Serving L C conn) E := by
  refine triple_maps (fun m => ?_) fun m h => ?_ <;> split
  · rfl
  · rfl
  · exact h
  · exact h.maps rfl rfl rfl rfl fun _ _ hg => hg

theorem triple_unregisterCgiPipe (hp : p ∉ L) : Triple (Serving L C conn) (unregisterCgiPipe k p) (fun _ => Serving L C conn) E :=
  (triple_epollCtl fun m => Rooted L C m ∧ Live conn m).bind fun _ => triple_maps (fun _ => rfl) fun _ h => h.unregister hp

theorem triple_registerCgiPipe : Triple (Serving L C conn) (registerCgiPipe k conn) (fun _ => Serving L C conn) (Ended L C) := by
  refine (triple_anyField _).bind fun pipeFd => ?_
  rcases pipeFd with _ | pipeFd
  · exact .pure fun _ hs => hs
  · refine .world_bind fun w => Triple.pre (P := Serving L C conn) ?_ fun _ h => h.1
    have hregister : Triple (Serving L C conn) (modObj (register pipeFd conn w.now)) (fun _ => Serving L C conn) (Ended L C) :=
      triple_maps (fun _ => rfl) fun _ h => h.maps rfl rfl rfl rfl fun _ _ hg => hg
    exact hregister.bind fun _ => triple_addPollFd _ _

theorem triple_dropConnection (hfd : fd ∉ L) : Triple (Grounded L C) (dropConnection k fd) (fun _ => Grounded L C) E := by
  intro s hs
  rcases hconn : s.1.connections.find? fd with _ | conn
  · rw [dropConnection_unknown hconn]
    exact hs.unwatch rfl rfl rfl rfl (List.Subset.refl _) hfd
  · obtain ⟨c, hc, -⟩ := hs.table.live fd conn hconn
    obtain ⟨w', hrun, -⟩ := @dropConnection_known k s conn fd c hconn hc
    rw [hrun]
    rcases hpipe : c.getCgiPipeFd with _ | p
    · exact hs.remove hconn
    · exact Rooted.remove (hs.unregister (hs.listenFds ▸ hs.table.pipeListen conn c p hc hpipe)) hconn

theorem triple_finalizeProcessed : Triple (Serving L C conn) (finalizeProcessed k conn) (fun _ => Grounded L C) (Ended L C) := by
  refine triple_acceptFD.bind fun fd => .lift fun hfd => (triple_anyField _).bind fun state => ?_
  cases state with
  | WRITING => exact (triple_addPollFd _ _).post fun _ _ h => h.1
  | WAITING_FOR_CGI => exact (triple_addPollFd _ _).bind fun _ => triple_registerCgiPipe.post fun _ _ h => h.1
  | FINISHED => exact (triple_dropConnection hfd).pre fun _ h => h.1
  | READING | PROCESSING => exact .pure fun _ h => h.1

theorem triple_guarded {P : ServerState → Prop} {m : Method ServerManager Unit}
    (hm : Triple P m (fun _ => Serving L C conn) fun e s => Serving L C conn s ∧ e.Raised) :
    Triple P (guarded k conn m) (fun _ => Serving L C conn) (Ended L C) := by
  refine (triple_ask P _).bind fun sys => Triple.tryCatch (hm.pre fun _ h => h.1) fun e => .lift fun he => ?_
  exact triple_unhandled (tame_of_steady (steady_onException sys e)) (escapes_onException sys he)

/-! ### The turns -/

theorem triple_processNext (hk : Honest k) : Triple (Serving L C conn) (processNext k conn) (fun _ => Grounded L C) (Ended L C) := by
  refine (triple_ask (Serving L C conn) _).bind fun sys => Triple.bind (Q := fun _ => Serving L C conn) (triple_guarded ?_) fun _ => ?_
  · rintro s ⟨⟨hrooted, c, hc⟩, rfl⟩
    have hown := own_process (k.sys s) (c, s.2)
    rw [deref_eq hc]
    have hput : Rooted L C (put conn (process (k.sys s) (c, s.2)).2.1 s.1) := hrooted.put hc hown.client.acceptFD fun p hp => by
      rcases hown.pipe p hp with hold | ⟨t, hnew⟩
      · exact .inl hold
      · exact .inr (hk.pipe s t p hnew)
    rcases hrun : process (k.sys s) (c, s.2) with ⟨e | a, t⟩ <;> rw [hrun] at hput
    · exact ⟨⟨hput, _, find?_put ..⟩, (escapes_process _ _ _ _ hrun).raised⟩
    · exact ⟨hput, _, find?_put ..⟩
  · refine (triple_anyField _).bind fun state => .ite (fun _ => .modObj fun s hs => ?_) fun _ => ?_
    · exact hs.1.maps rfl rfl rfl rfl fun _ _ hg => hg
    · exact triple_dequeueProcessing.bind fun _ => triple_finalizeProcessed

theorem triple_runRoundRobin (hk : Honest k) (processed : Nat) :
    Triple (fun s => Inv s.1 ∧ Rooted L C s.1) (runRoundRobin k processed) (fun _ => Grounded L C) (Ended L C) := by
  refine .obj_bind fun m => ?_
  rcases hqueue : m.processingQueue with _ | ⟨conn, queue⟩
  · exact .pure fun _ hs => hs.1.2
  refine .ite (fun _ => .pure fun _ hs => hs.1.2) fun _ => ?_
  have hpop {m : ServerManager} (h : Rooted L C m) : Rooted L C { m with processingQueue := queue } :=
    h.maps rfl rfl rfl rfl fun _ _ hg => hg
  by_cases hmem : conn ∈ m.processingSet
  · simp only [if_pos hmem]
    refine Triple.bind (Q := fun _ => Serving L C conn) (.modObj ?_) fun _ => (triple_processNext hk).bind fun _ => .pure fun _ hs => hs
    rintro s ⟨⟨hinv, hrooted⟩, rfl⟩
    obtain ⟨c, hc, -⟩ := hinv.queue.queued conn hmem
    exact ⟨hpop hrooted, c, hc⟩
  · simp only [if_neg hmem]
    exact Triple.bind (Q := fun _ => Grounded L C) (.modObj fun s hs => hpop hs.1.2) fun _ => .pure fun _ hs => hs

theorem triple_dropTimedOut (fd : Nat) :
    Triple (fun s => Inv s.1 ∧ Rooted L C s.1) (dropTimedOut k fd) (fun _ => Grounded L C) (Ended L C) := by
  refine .obj_bind fun m => ?_
  rcases hconn : m.connections.find? fd with _ | conn
  · exact .pure fun _ hs => hs.1.2
  refine Triple.pre (P := Serving L C conn) ?_ ?_
  · refine (triple_ask (Serving L C conn) _).bind fun sys => Triple.pre (P := Serving L C conn) ?_ fun _ h => h.1
    refine (triple_unhandled (tame_of_steady (steady_triggerError sys _)) ?_).bind fun _ => ?_
    · exact (runtime_triggerError sys _).mono fun _ => Exn.IsRuntime.escapes
    · exact triple_dequeueProcessing.bind fun _ => triple_finalizeProcessed
  · rintro s ⟨⟨-, hrooted⟩, rfl⟩
    obtain ⟨c, hc, -⟩ := hrooted.table.live fd conn hconn
    exact ⟨hrooted, c, hc⟩

/-- The end of an answer that a script has to do with. -/
theorem triple_answer : Triple (Serving L C conn) (do
    deref conn (modObj (Connection.setState .WRITING))
    let fd ← deref conn (return (← obj).acceptFD)
    addPollFd k fd { epollin := true, epollout := true } : Method ServerManager Unit) (fun _ => Grounded L C) (Ended L C) := by
  have hset : Triple (Serving L C conn) (deref conn (modObj (Connection.setState .WRITING))) (fun _ => Serving L C conn) (Ended L C) :=
    triple_unhandled (Moves.modObj fun s => ⟨rfl, fun _ hp => hp⟩) (.modObj _)
  exact hset.bind fun _ => (triple_anyField _).bind fun fd => (triple_addPollFd _ _).post fun _ _ h => h.1

theorem triple_killTimedOut (pipeFd : Nat) :
    Triple (fun s => Inv s.1 ∧ Rooted L C s.1) (killTimedOut k pipeFd) (fun _ => Grounded L C) (Ended L C) := by
  refine .obj_bind fun m => ?_
  rcases hconn : m.cgiPipeToConn.find? pipeFd with _ | conn
  · exact .pure fun _ hs => hs.1.2
  refine Triple.pre (P := fun s => Serving L C conn s ∧ pipeFd ∉ L) (.lift fun hpipe => ?_) ?_
  · refine (triple_ask (Serving L C conn) _).bind fun sys => Triple.pre (P := Serving L C conn) ?_ fun _ h => h.1
    refine (triple_anyField _).bind fun conf => (triple_unregisterCgiPipe hpipe).bind fun _ => ?_
    rcases conf with _ | conf
    · have hphrase : Triple (Serving L C conn) (deref conn (Connection.onResponse (modObj fun r =>
          Response.setResponsePhrase (ascii "Gateway Timeout") (Response.setStatusCode (ascii "504") r))))
          (fun _ => Serving L C conn) (Ended L C) :=
        triple_unhandled (tame_onResponse (Response.mayClose_modObj fun _ => .inl rfl)) (Throws.modObj _).on
      exact hphrase.bind fun _ => triple_answer
    · refine (triple_unhandled (tame_onResponse (Response.mayClose_cgiTimeout sys conf)) ?_).bind fun _ => triple_answer
      exact ((Response.runtime_cgiTimeout sys conf).mono fun _ => Exn.IsRuntime.escapes).on
  · rintro s ⟨⟨hinv, hrooted⟩, rfl⟩
    obtain ⟨c, hc, hreg⟩ := hinv.pipes.registered pipeFd conn hconn
    exact ⟨⟨hrooted, c, hc⟩, hrooted.listenFds ▸ hrooted.table.pipeListen conn c pipeFd hc hreg.pipe⟩

/-! ### The events -/

theorem triple_acceptNext (hk : Honest k) (listenFd : Nat) :
    Triple (Grounded L C) (acceptNext k listenFd) (fun _ => Grounded L C) (Ended L C) := by
  intro s hs
  rw [acceptNext, ask_bind]
  rcases haccept : k.accept s with _ | ⟨clientFd, _ | _⟩
  · exact hs
  · exact hs
  have hnew := hk.accept s clientFd true haccept
  have haddress := hk.address s
  obtain ⟨conf, hconf⟩ : ∃ conf, conf = (s.1.listenFdToServerConf.find? listenFd).getD none := ⟨_, rfl⟩
  obtain ⟨m, hm⟩ : ∃ m : ServerManager, m = { s.1 with
      heap := s.1.heap.insert (k.address s) (.new clientFd conf s.2.now)
      made := s.1.made + 1, serial := Function.update s.1.serial (k.address s) s.1.made
      connections := s.1.connections.insert clientFd (k.address s) } := ⟨_, rfl⟩
  have hserving : Serving L C (k.address s) (m, { s.2 with outbox := Function.update s.2.outbox clientFd [] }) := by
    subst hm
    exact ⟨⟨hs.table.addClient (c := Connection.new clientFd conf s.2.now) haddress hnew rfl, hs.listenFds, hs.watched, hs.unclosed⟩, _,
      OrdMap.find?_insert_self ..⟩
  have hwatch : Triple (Serving L C (k.address s)) (do
      addPollFd k clientFd { epollin := true }
      return true : Method ServerManager Bool) (fun _ => Grounded L C) (Ended L C) :=
    (triple_addPollFd _ _).bind fun _ => .pure fun _ hs => hs.1
  have hrun := hwatch _ hserving
  rw [hm, hconf] at hrun
  exact hrun

theorem triple_acceptLoop (hk : Honest k) (listenFd n : Nat) :
    Triple (Grounded L C) (acceptLoop k listenFd n) (fun _ => Grounded L C) (Ended L C) := by
  induction n with
  | zero => exact .pure fun _ hs => hs
  | succ n ih => exact (triple_acceptNext hk listenFd).bind fun more => .ite (fun _ => ih) fun _ => .pure fun _ hs => hs

theorem triple_serveConnection (events : Events) : Triple (Serving L C conn) (serveConnection k conn events)
    (fun _ => Serving L C conn) fun e s => Serving L C conn s ∧ e.Raised := by
  have hwrite (sys : Sys) : Triple (Serving L C conn) (do
      if events.epollout ∧ (← getState conn) = .WRITING then deref conn (Connection.handleWrite sys)
      : Method ServerManager Unit) (fun _ => Serving L C conn) fun e s => Serving L C conn s ∧ e.Raised := by
    refine (triple_anyField _).bind fun state => .ite (fun _ => ?_) fun _ => .pure fun _ hs => hs
    exact triple_deref (tame_handleWrite sys) (raised_handleWrite sys)
  refine (triple_ask (Serving L C conn) _).bind fun sys => Triple.pre (P := Serving L C conn) ?_ fun _ h => h.1
  refine .ite (fun _ => ?_) fun _ => hwrite sys
  refine (triple_ask (Serving L C conn) _).bind fun recv => Triple.pre (P := Serving L C conn) ?_ fun _ h => h.1
  refine (triple_deref (tame_of_steady (steady_handleRead sys recv)) (raised_of_runtime (runtime_handleRead sys recv))).bind fun _ => ?_
  refine (triple_anyField _).bind fun state => .ite (fun _ => ?_) fun _ => hwrite sys
  refine (triple_deref (tame_of_steady (steady_onBody (DataStore.moves_resetReadPosition sys))) ?_).bind fun _ => ?_
  · exact raised_of_runtime (runtime_onBody (DataStore.throws_resetReadPosition sys))
  · exact triple_enqueueProcessing.bind fun _ => hwrite sys

theorem triple_handleConnection (events : Events) :
    Triple (Serving L C conn) (handleConnection k conn events) (fun _ => Grounded L C) (Ended L C) := by
  refine triple_acceptFD.bind fun fd => .lift fun hfd => (triple_guarded (triple_serveConnection events)).bind fun _ => ?_
  refine (triple_anyField _).bind fun state => ?_
  cases state with
  | READING | PROCESSING | WAITING_FOR_CGI | WRITING => exact (triple_addPollFd _ _).post fun _ _ h => h.1
  | FINISHED => exact (triple_dropConnection hfd).pre fun _ h => h.1

theorem triple_handleCgiPipeEvent (pipeFd : Nat) (events : Events) :
    Triple (fun s => Inv s.1 ∧ Rooted L C s.1) (handleCgiPipeEvent k pipeFd events) (fun _ => Grounded L C) (Ended L C) := by
  refine .obj_bind fun m => ?_
  rcases hconn : m.cgiPipeToConn.find? pipeFd with _ | conn
  · exact .pure fun _ hs => hs.1.2
  refine Triple.pre (P := fun s => Serving L C conn s ∧ pipeFd ∉ L) (.lift fun hpipe => ?_) ?_
  · have hdone : Triple (Serving L C conn) (cgiOutputDone k conn events) (fun _ => Serving L C conn)
        fun e s => Serving L C conn s ∧ e.Raised := by
      refine .ite (fun _ => .pure fun _ hs => hs) fun _ => .ite (fun _ => ?_) fun _ => .pure fun _ hs => hs
      refine (triple_ask (Serving L C conn) _).bind fun sys => Triple.pre (P := Serving L C conn) ?_ fun _ h => h.1
      refine (triple_ask (Serving L C conn) _).bind fun got => Triple.pre (P := Serving L C conn) ?_ fun _ h => h.1
      refine triple_deref (tame_onResponse ?_) (raised_of_runtime (Response.runtime_readCgiOutput sys got)).on
      exact (Response.keepsPipe_readCgiOutput sys got).mono fun _ _ h => h.mayClose
    have hfail (e : Exn) (he : e.Raised) : Triple (Serving L C conn) (failCgi k pipeFd conn e) (fun _ => Serving L C conn) (Ended L C) := by
      refine (triple_ask (Serving L C conn) _).bind fun sys => Triple.pre (P := Serving L C conn) ?_ fun _ h => h.1
      refine (triple_unhandled (tame_of_steady (steady_onException sys e)) (escapes_onException sys he)).bind fun _ => ?_
      exact (triple_unregisterCgiPipe hpipe).bind fun _ => (triple_anyField _).bind fun _ => triple_addPollFd _ _
    have hfinish : Triple (Serving L C conn) (finishCgi k pipeFd conn) (fun _ => Grounded L C) (Ended L C) := by
      refine (triple_ask (Serving L C conn) _).bind fun sys => Triple.pre (P := Serving L C conn) ?_ fun _ h => h.1
      refine (triple_unregisterCgiPipe hpipe).bind fun _ => Triple.bind ?_ fun _ => triple_answer
      refine triple_unhandled (tame_onResponse (Response.mayClose_finalizeCgiResponse sys)) ?_
      exact ((Response.runtime_finalizeCgiResponse sys).mono fun _ => Exn.IsRuntime.escapes).on
    refine Triple.bind (Q := fun _ => Serving L C conn) (Triple.tryCatch (hdone.bind fun _ => .pure fun _ hs => hs) fun e => ?_) fun done => ?_
    · exact .lift fun he => (hfail e he).bind fun _ => .pure fun _ hs => hs
    · exact .ite (fun _ => hfinish) fun _ => .pure fun _ hs => hs.1
  · rintro s ⟨⟨hinv, hrooted⟩, rfl⟩
    obtain ⟨c, hc, hreg⟩ := hinv.pipes.registered pipeFd conn hconn
    exact ⟨⟨hrooted, c, hc⟩, hrooted.listenFds ▸ hrooted.table.pipeListen conn c pipeFd hc hreg.pipe⟩

theorem triple_handleEvent (hk : Honest k) (fd : Nat) (events : Events) :
    Triple (fun s => Inv s.1 ∧ Rooted L C s.1) (handleEvent k fd events) (fun _ => Grounded L C) (Ended L C) := by
  refine .obj_bind fun m => .ite (fun _ => (triple_handleCgiPipeEvent fd events).pre fun _ h => h.1) fun _ => .ite (fun _ => ?_) fun _ => ?_
  · refine .ite (fun hfd s hs => ?_) fun _ => .pure fun _ hs => hs.1.2
    obtain ⟨⟨-, hrooted⟩, rfl⟩ := hs
    exact triple_dropConnection (hrooted.listenFds ▸ hfd) s hrooted
  · refine .ite (fun _ => ?_) fun _ => ?_
    · refine Triple.pre (P := Grounded L C) ((triple_ask (Grounded L C) _).bind fun n => ?_) fun _ h => h.1.2
      exact (triple_acceptLoop hk fd n).pre fun _ h => h.1
    rcases hconn : m.connections.find? fd with _ | conn
    · exact .pure fun _ hs => hs.1.2
    · refine (triple_handleConnection events).pre ?_
      rintro s ⟨⟨-, hrooted⟩, rfl⟩
      obtain ⟨c, hc, -⟩ := hrooted.table.live fd conn hconn
      exact ⟨hrooted, c, hc⟩

theorem triple_next (hk : Honest k) (q : Point) :
    Triple (fun s => Inv s.1 ∧ Rooted L C s.1) (next k q) (fun _ => Grounded L C) (Ended L C) := by
  have hstill {m : Method ServerManager Point} (h : Triple (Grounded L C) m (fun _ => Grounded L C) (Ended L C)) :
      Triple (fun s => Inv s.1 ∧ Rooted L C s.1) m (fun _ => Grounded L C) (Ended L C) := h.pre fun _ h => h.2
  refine Triple.bind (Q := fun _ s => Inv s.1 ∧ Rooted L C s.1) ((triple_ask _ _).post fun _ _ h => h.1) fun now => ?_
  refine Triple.bind (Q := fun _ s => Inv s.1 ∧ Rooted L C s.1) (.modWorld fun _ hs => ⟨hs.1, hs.2⟩) fun _ => ?_
  cases q with
  | roundRobin processed => exact triple_runRoundRobin hk processed
  | sweepTimeouts =>
    refine hstill (.world_bind fun w => Triple.pre (P := Grounded L C) (.obj_bind fun m => ?_) fun _ h => h.1)
    refine .ite (fun _ => .pure fun _ h => h.1) fun _ => Triple.bind (Q := fun _ => Grounded L C) (.modObj fun s hs => ?_) fun _ => ?_
    · exact hs.1.maps rfl rfl rfl rfl fun _ _ hg => hg
    · exact .pure fun _ hs => hs
  | dropTimedOut toDrop =>
    rcases toDrop with _ | ⟨fd, toDrop⟩
    · exact .pure fun _ h => h.2
    · exact (triple_dropTimedOut fd).bind fun _ => .pure fun _ hs => hs
  | sweepCgiTimeouts =>
    refine hstill (.obj_bind fun m => .ite (fun _ => .pure fun _ h => h.1) fun _ => .world_bind fun w => ?_)
    exact .pure fun _ h => h.1.1
  | killTimedOut toKill =>
    rcases toKill with _ | ⟨pipeFd, toKill⟩
    · exact .pure fun _ h => h.2
    · exact (triple_killTimedOut pipeFd).bind fun _ => .pure fun _ hs => hs
  | wait =>
    refine hstill ((triple_ask _ _).bind fun answer => Triple.bind (Q := fun _ => Grounded L C) (.modWorld fun _ hs => hs.1) fun _ => ?_)
    rcases answer with _ | _ | ⟨event, events⟩
    · exact .throw fun _ hs => ⟨hs, .system (by simp)⟩
    · exact .pure fun _ hs => hs
    · exact .pure fun _ hs => hs
  | batch events =>
    rcases events with _ | ⟨⟨fd, events⟩, rest⟩
    · exact .pure fun _ h => h.2
    · exact (triple_handleEvent hk fd events).bind fun _ => .pure fun _ hs => hs

end Methods

/-! ### Runs -/

theorem Inv.rooted {m : ServerManager} (h : Inv m) : Rooted m.listenFds m.closed m :=
  ⟨h.table, rfl, fun fd hfd => OrdMap.contains_iff.2 ⟨_, (h.watched fd).trans (wanted_listen hfd)⟩, fun _ _ hmem => hmem⟩

theorem rooted_after (hk : Honest k) {q q' : Point} {n : Nat} (h : Reach k q s) (hs : Rooted L C s.1)
    (hafter : after k n q s = some (q', s')) : Rooted L C s'.1 := by
  induction n generalizing q s with
  | zero =>
    cases hafter
    exact hs
  | succ n ih =>
    rw [after] at hafter
    split at hafter
    · rename_i hrun
      exact ih (h.next hrun) ((triple_next hk q).ok ⟨(reach_inv hk h).1, hs⟩ hrun) hafter
    · cases hafter

/-- A run that has come to `s` ends: the signal has come, or the next turn throws. -/
inductive Stops (k : Kernel) (q : Point) (s : ServerState) : ServerState → Prop
  | signalled : Stops k q s s
  | thrown {e : Exn} {t : ServerState} (h : next k q s = (.error e, t)) : Stops k q s t

theorem Stops.rooted (hk : Honest k) {q : Point} (h : Reach k q s) (hs : Rooted L C s.1) (hstop : Stops k q s s') : Rooted L C s'.1 := by
  cases hstop with
  | signalled => exact hs
  | thrown hrun => exact ((triple_next hk q).error ⟨(reach_inv hk h).1, hs⟩ hrun).1

/-- A run ends only because the system has refused something, in a child, or because a handler has failed; it never uses
a connection that was deleted, and no `ClientException` leaves it. -/
theorem next_ends (hk : Honest k) {q : Point} (h : Reach k q s) {e : Exn} (hrun : next k q s = (.error e, s')) :
    e.Ends ∧ e ≠ .fatal "use of a deleted connection" ∧ ∀ code msg, e ≠ .client code msg := by
  have hinv := (reach_inv hk h).1
  have hends := ((triple_next hk q).error ⟨hinv, hinv.rooted⟩ hrun).2
  refine ⟨hends, ?_, ?_⟩
  · rintro rfl
    rcases hends with ⟨⟨hraised, -⟩⟩ | hmsg
    · cases hraised with
      | child h => simp [childFailures] at h
    · simp at hmsg
  · rintro code msg rfl
    rcases hends with ⟨⟨-, hunhandled⟩⟩
    exact hunhandled code msg rfl

/-- The one client comes, but the system does not watch it. -/
def unwatched : Kernel := { oneClient with sys := fun _ => { Sys.calm with pipe := fun _ => none, epollCtl := fun _ => false } }

theorem unwatched_honest : Honest unwatched where
  address := oneClient_honest.address
  accept := oneClient_honest.accept
  pipe s t fd h := by cases h
  once := oneClient_honest.once
  asked := oneClient_honest.asked

theorem next_ends_unwatched : ∃ q s e s', after unwatched 4 (.roundRobin 0) listening = some (q, s) ∧
    next unwatched q s = (.error e, s') ∧ s'.1.connections.find? 5 = some 1 ∧
      (e.Ends ∧ e ≠ .fatal "use of a deleted connection" ∧ ∀ code msg, e ≠ .client code msg) := by
  have hlast : (after unwatched 4 (.roundRobin 0) listening).map (fun x =>
      ((next unwatched x.1 x.2).1, (next unwatched x.1 x.2).2.1.connections.find? 5)) =
        some (.error (.fatal "epoll_ctl(ADD)"), some 1) := by decide +kernel
  obtain ⟨⟨q, s⟩, hafter, heq⟩ := Option.map_eq_some_iff.1 hlast
  rw [Prod.mk.injEq] at heq
  rcases hrun : next unwatched q s with ⟨out, s'⟩
  rw [hrun] at heq
  obtain ⟨rfl, hconn⟩ := heq
  exact ⟨q, s, _, s', hafter, hrun, hconn, next_ends unwatched_honest ((Reach.start listening_fresh).after hafter) hrun⟩

end ServerManager

end LeftHookRoll
