import LeftHookRoll.ConnectionActs
import LeftHookRoll.ServerManager

/-!
# Every connection of the server lives

`Everywhere P`: every connection of the server meets `P`. What the server does keeps `Lives`, turn by turn,
with the condition on `process` taken at the head of the queue (`lives_of_reach`). So what holds in every
life of a connection holds in every run of the server.
-/

namespace LeftHookRoll

open Eff

namespace ServerManager

open Connection

def Everywhere (P : Connection → Prop) (s : ServerState) : Prop := ∀ conn c, s.1.heap.find? conn = some c → P c

variable {k : Kernel} {P : Connection → Prop} {conn : Nat}

theorem keeps_ask {α : Type} (answer : ServerState → α) : Keeps (Everywhere P) Exn.Usual (ask answer) :=
  fun _ hs => ⟨hs, nofun⟩

theorem keeps_tick : Keeps (Everywhere P) Exn.Usual (sysTick : Method ServerManager Nat) := fun _ hs => ⟨hs, nofun⟩

/-- The maps of the server may change, not the connections. -/
theorem keeps_maps {f : ServerManager → ServerManager} (h : ∀ s, (f s).heap = s.heap) :
    Keeps (Everywhere P) Exn.Usual (modObj f : Method ServerManager Unit) := by
  refine .modObj fun s hs => ?_
  intro conn c hc
  rw [h] at hc
  exact hs conn c hc

/-- A method of one connection. -/
theorem leads_deref {α : Type} {m : Method Connection α} {s : ServerState} (hs : Everywhere P s)
    (h : ∀ c, s.1.heap.find? conn = some c → Leads (fun t => P t.1) Exn.Usual m (c, s.2)) :
    Leads (Everywhere P) Exn.Usual (deref conn m) s := by
  rw [Leads, deref]
  split
  · rename_i c hc
    obtain ⟨hafter, hthrown⟩ := h c hc
    refine ⟨fun a d hd => ?_, fun e t ht => ?_⟩
    · rcases OrdMap.find?_insert_eq_some.1 hd with ⟨-, rfl⟩ | ⟨-, hd⟩
      · exact hafter
      · exact hs a d hd
    · rcases hrun : m (c, s.2) with ⟨e' | a, t'⟩ <;> rw [hrun] at ht <;> cases ht
      exact hthrown e t' hrun
  · refine ⟨hs, fun e t ht => ?_⟩
    cases ht
    intro code msg h
    cases h

theorem keeps_deref {α : Type} {m : Method Connection α} (h : Keeps (fun t => P t.1) Exn.Usual m) :
    Keeps (Everywhere P) Exn.Usual (deref conn m) := fun s hs => leads_deref hs fun c hc => h (c, s.2) (hs conn c hc)

/-- A field of a connection. -/
theorem keeps_field {α : Type} (f : Connection → α) : Keeps (Everywhere P) Exn.Usual (deref conn (return f (← obj))) :=
  keeps_deref (.obj_bind fun _ _ => .pure _)

theorem keeps_epollCtl : Keeps (Everywhere P) Exn.Usual (epollCtl k) :=
  (keeps_ask _).bind fun _ => keeps_tick.bind fun _ => .pure _

theorem keeps_addPollFd (fd : Nat) (events : Events) : Keeps (Everywhere P) Exn.Usual (addPollFd k fd events) := by
  refine .obj_bind fun s _ => .ite (fun _ => ?_) fun _ => keeps_epollCtl.bind fun ok => ?_
  · refine Keeps.bind (keeps_maps fun _ => rfl) fun _ => keeps_epollCtl.bind fun ok => ?_
    exact .ite (fun _ => .throw nofun) fun _ => .pure _
  · exact .ite (fun _ => (Keeps.throw nofun).bind fun _ => keeps_maps fun _ => rfl) fun _ => keeps_maps fun _ => rfl

theorem keeps_enqueueProcessing : Keeps (Everywhere P) Exn.Usual (enqueueProcessing conn) := by
  refine keeps_maps fun s => ?_
  split <;> rfl

theorem keeps_dequeueProcessing : Keeps (Everywhere P) Exn.Usual (dequeueProcessing conn) := keeps_maps fun _ => rfl

theorem keeps_registerCgiPipe : Keeps (Everywhere P) Exn.Usual (registerCgiPipe k conn) := by
  refine (keeps_field _).bind fun pipeFd => ?_
  rcases pipeFd with _ | pipeFd
  · exact .pure _
  · exact Keeps.world.bind fun _ => Keeps.bind (keeps_maps fun _ => rfl) fun _ => keeps_addPollFd _ _

theorem keeps_unregisterCgiPipe (pipeFd : Nat) : Keeps (Everywhere P) Exn.Usual (unregisterCgiPipe k pipeFd) :=
  keeps_epollCtl.bind fun _ => keeps_maps fun _ => rfl

theorem keeps_deleteConnection : Keeps (Everywhere P) Exn.Usual (deleteConnection conn) := by
  intro s hs
  rw [Leads, deleteConnection]
  split
  · exact ⟨fun a d hd => hs a d (OrdMap.find?_erase_eq_some.1 hd).2, fun _ _ h => by cases h⟩
  · refine ⟨hs, fun e t ht => ?_⟩
    cases ht
    intro code msg h
    cases h

theorem keeps_discard (fd : Nat) : Keeps (Everywhere P) Exn.Usual (discard k fd conn) := by
  have hrest : Keeps (Everywhere P) Exn.Usual (do
      dequeueProcessing conn
      deleteConnection conn
      modObj fun s => { s with connections := s.connections.erase fd } : Method ServerManager Unit) :=
    keeps_dequeueProcessing.bind fun _ => keeps_deleteConnection.bind fun _ => keeps_maps fun _ => rfl
  refine (keeps_field _).bind fun pipeFd => ?_
  rcases pipeFd with _ | pipeFd
  · exact hrest
  · exact (keeps_unregisterCgiPipe pipeFd).bind fun _ => hrest

theorem keeps_dropConnection (fd : Nat) : Keeps (Everywhere P) Exn.Usual (dropConnection k fd) := by
  have hclose : Keeps (Everywhere P) Exn.Usual (do
      let _ ← epollCtl k
      modObj fun s => { s with fdEvents := s.fdEvents.erase fd, closed := fd :: s.closed } : Method ServerManager Unit) :=
    keeps_epollCtl.bind fun _ => keeps_maps fun _ => rfl
  refine .obj_bind fun s _ => ?_
  rcases s.1.connections.find? fd with _ | conn
  · exact hclose
  · exact (keeps_discard fd).bind fun _ => hclose

theorem keeps_finalizeProcessed : Keeps (Everywhere P) Exn.Usual (finalizeProcessed k conn) := by
  refine (keeps_field _).bind fun fd => (keeps_field _).bind fun state => ?_
  cases state with
  | WRITING => exact keeps_addPollFd _ _
  | WAITING_FOR_CGI => exact (keeps_addPollFd _ _).bind fun _ => keeps_registerCgiPipe
  | FINISHED => exact keeps_dropConnection fd
  | READING | PROCESSING => exact .pure _

/-! ### The acts -/

/-- The connections have lived so far. -/
abbrev AllLive (C : Connection → Prop) : ServerState → Prop := Everywhere (Lives (fun _ => True) C)

variable {C : Connection → Prop}

theorem keeps_live (sys : Sys) {a : Act} (he : ∀ e, a = .failed e → e.Usual) (ha : a ≠ .process) :
    Keeps (fun s => Lives (fun _ => True) C s.1) Exn.Usual (a.run sys) :=
  fun s hs => leads_live trivial he hs (fun heq => absurd heq ha) s.2

theorem keeps_handler (sys : Sys) {e : Exn} (he : e.Usual) :
    Keeps (AllLive C) Exn.Usual (deref conn (Connection.onException sys e)) :=
  keeps_deref (keeps_live _ (a := .failed e) (fun _ heq => by cases heq; exact he) nofun)

theorem leads_guarded {m : Method ServerManager Unit} {s : ServerState} (h : Leads (AllLive C) Exn.Usual m s) :
    Leads (AllLive C) Exn.Usual (guarded k conn m) s := by
  rw [Leads, guarded, ask_bind]
  exact h.tryCatch fun _ he => keeps_handler (k.sys s) he

/-- The condition for `process`, at an address. -/
def Ready (C : Connection → Prop) (conn : Nat) (s : ServerState) : Prop :=
  ∀ c, s.1.heap.find? conn = some c → c.state = .PROCESSING → C c

theorem leads_processNext {s : ServerState} (hs : AllLive C s) (hC : Ready C conn s) :
    Leads (AllLive C) Exn.Usual (processNext k conn) s := by
  have hprocess : Leads (AllLive C) Exn.Usual (deref conn (Connection.process (k.sys s))) s :=
    leads_deref hs fun c hc => leads_live (a := .process) trivial nofun (hs conn c hc) (fun _ hstate => hC c hc hstate) s.2
  have hguarded : Leads (AllLive C) Exn.Usual (guarded k conn (deref conn (Connection.process (k.sys s)))) s :=
    leads_guarded hprocess
  rw [Leads, processNext, ask_bind]
  refine hguarded.bind fun _ => (keeps_field _).bind fun state => .ite (fun _ => keeps_maps fun _ => rfl) fun _ => ?_
  exact keeps_dequeueProcessing.bind fun _ => keeps_finalizeProcessed

theorem leads_runRoundRobin {processed : Nat} {s : ServerState} (hs : AllLive C s)
    (hC : ∀ conn queue, s.1.processingQueue = conn :: queue → processed < BACKLOG / 2 → conn ∈ s.1.processingSet → Ready C conn s) :
    Leads (AllLive C) Exn.Usual (runRoundRobin k processed) s := by
  rw [Leads, runRoundRobin, Eff.obj_bind]
  rcases hqueue : s.1.processingQueue with _ | ⟨conn, queue⟩
  · exact Keeps.pure _ s hs
  simp only
  split
  · exact Keeps.pure _ s hs
  rename_i hmore
  rw [Eff.modObj_bind]
  split
  · rename_i hmem
    exact (leads_processNext (s := ({ s.1 with processingQueue := queue }, s.2)) hs
      (hC conn queue hqueue (not_le.1 hmore) hmem)).bind fun _ => .pure _
  · exact Keeps.pure _ _ hs

theorem keeps_dropTimedOut (fd : Nat) : Keeps (AllLive C) Exn.Usual (dropTimedOut k fd) := by
  refine .obj_bind fun s _ => ?_
  rcases s.1.connections.find? fd with _ | conn
  · exact .pure _
  · refine (keeps_ask _).bind fun sys => (keeps_deref (keeps_live _ (a := .timeOut) nofun nofun)).bind fun _ => ?_
    exact keeps_dequeueProcessing.bind fun _ => keeps_finalizeProcessed

/-- The end of an answer that a script has to do with. -/
theorem keeps_answer : Keeps (AllLive C) Exn.Usual (do
    deref conn (modObj (Connection.setState .WRITING))
    let fd ← deref conn (return (← obj).acceptFD)
    addPollFd k fd { epollin := true, epollout := true } : Method ServerManager Unit) :=
  (keeps_deref (keeps_live Sys.calm (a := .answer) nofun nofun)).bind fun _ =>
    (keeps_field _).bind fun _ => keeps_addPollFd _ _

theorem keeps_killTimedOut (pipeFd : Nat) : Keeps (AllLive C) Exn.Usual (killTimedOut k pipeFd) := by
  refine .obj_bind fun s _ => ?_
  rcases s.1.cgiPipeToConn.find? pipeFd with _ | conn
  · exact .pure _
  refine (keeps_ask _).bind fun sys => (keeps_field _).bind fun conf => (keeps_unregisterCgiPipe pipeFd).bind fun _ => ?_
  rcases conf with _ | conf
  · exact (keeps_deref (keeps_live sys (a := .scriptTimeOut none) nofun nofun)).bind fun _ => keeps_answer
  · exact (keeps_deref (keeps_live sys (a := .scriptTimeOut (some conf)) nofun nofun)).bind fun _ => keeps_answer

theorem keeps_acceptNext (listenFd : Nat) : Keeps (AllLive C) Exn.Usual (acceptNext k listenFd) := by
  refine (keeps_ask _).bind fun answer => ?_
  rcases answer with _ | ⟨clientFd, _ | _⟩
  · exact .pure _
  · exact .pure _
  refine (keeps_ask _).bind fun conn => Keeps.world.bind fun w => Keeps.bind (.modObj fun s hs => ?_) fun _ => ?_
  · intro a d hd
    rcases OrdMap.find?_insert_eq_some.1 hd with ⟨-, rfl⟩ | ⟨-, hd⟩
    · exact .new _ _ _
    · exact hs a d hd
  · exact Keeps.bind (.modWorld fun _ hs => hs) fun _ => (keeps_addPollFd _ _).bind fun _ => .pure _

theorem keeps_acceptLoop (listenFd n : Nat) : Keeps (AllLive C) Exn.Usual (acceptLoop k listenFd n) := by
  induction n with
  | zero => exact .pure _
  | succ n ih => exact (keeps_acceptNext listenFd).bind fun more => .ite (fun _ => ih) fun _ => .pure _

theorem keeps_serveConnection (events : Events) : Keeps (AllLive C) Exn.Usual (serveConnection k conn events) := by
  have hwrite (sys : Sys) : Keeps (AllLive C) Exn.Usual (do
      if events.epollout ∧ (← getState conn) = .WRITING then deref conn (Connection.handleWrite sys)
      : Method ServerManager Unit) :=
    (keeps_field _).bind fun state => .ite (fun _ => keeps_deref (keeps_live _ (a := .write) nofun nofun)) fun _ => .pure _
  refine (keeps_ask _).bind fun sys => .ite (fun _ => (keeps_ask _).bind fun recv => ?_) fun _ => hwrite sys
  refine (keeps_deref (keeps_live sys (a := .recv recv) nofun nofun)).bind fun _ => (keeps_field _).bind fun state => ?_
  refine .ite (fun _ => ?_) fun _ => hwrite sys
  exact (keeps_deref (keeps_live sys (a := .rewind) nofun nofun)).bind fun _ =>
    keeps_enqueueProcessing.bind fun _ => hwrite sys

theorem keeps_handleConnection (events : Events) : Keeps (AllLive C) Exn.Usual (handleConnection k conn events) := by
  refine (keeps_field _).bind fun fd => Keeps.bind (fun s hs => leads_guarded (keeps_serveConnection events s hs)) fun _ => ?_
  refine (keeps_field _).bind fun state => ?_
  cases state with
  | READING | PROCESSING | WAITING_FOR_CGI | WRITING => exact keeps_addPollFd _ _
  | FINISHED => exact keeps_dropConnection fd

theorem keeps_cgiOutputDone (events : Events) : Keeps (AllLive C) Exn.Usual (cgiOutputDone k conn events) := by
  refine .ite (fun _ => .pure _) fun _ => .ite (fun _ => (keeps_ask _).bind fun sys => (keeps_ask _).bind fun got => ?_) fun _ => .pure _
  exact keeps_deref (.of_discard (keeps_live _ (a := .readScript got) nofun nofun))

theorem keeps_finishCgi (pipeFd : Nat) : Keeps (AllLive C) Exn.Usual (finishCgi k pipeFd conn) :=
  (keeps_ask _).bind fun _ => (keeps_unregisterCgiPipe pipeFd).bind fun _ =>
    (keeps_deref (keeps_live _ (a := .finishScript) nofun nofun)).bind fun _ => keeps_answer

theorem keeps_failCgi (pipeFd : Nat) {e : Exn} (he : e.Usual) : Keeps (AllLive C) Exn.Usual (failCgi k pipeFd conn e) :=
  (keeps_ask _).bind fun sys => (keeps_handler sys he).bind fun _ => (keeps_unregisterCgiPipe pipeFd).bind fun _ =>
    (keeps_field _).bind fun _ => keeps_addPollFd _ _

theorem keeps_handleCgiPipeEvent (pipeFd : Nat) (events : Events) :
    Keeps (AllLive C) Exn.Usual (handleCgiPipeEvent k pipeFd events) := by
  refine .obj_bind fun s _ => ?_
  rcases s.1.cgiPipeToConn.find? pipeFd with _ | conn
  · exact .pure _
  refine Keeps.bind (Keeps.tryCatch (Q := Exn.Usual) ?_ fun e he => (keeps_failCgi pipeFd he).bind fun _ => .pure _) fun done => ?_
  · exact (keeps_cgiOutputDone events).bind fun _ => .pure _
  · exact .ite (fun _ => keeps_finishCgi pipeFd) fun _ => .pure _

theorem keeps_handleEvent (fd : Nat) (events : Events) : Keeps (AllLive C) Exn.Usual (handleEvent k fd events) := by
  refine .obj_bind fun s _ => .ite (fun _ => keeps_handleCgiPipeEvent fd events) fun _ => .ite (fun _ => ?_) fun _ => ?_
  · exact .ite (fun _ => keeps_dropConnection fd) fun _ => .pure _
  refine .ite (fun _ => (keeps_ask _).bind fun n => keeps_acceptLoop fd n) fun _ => ?_
  rcases s.1.connections.find? fd with _ | conn
  · exact .pure _
  · exact keeps_handleConnection events

/-! ### Runs -/

/-- What `C` asks of a turn: that it holds of a connection that `process` is called on. -/
def TurnMeets (C : Connection → Prop) : Point → ServerState → Prop
  | .roundRobin processed, s => ∀ conn queue, s.1.processingQueue = conn :: queue → processed < BACKLOG / 2 →
      conn ∈ s.1.processingSet → Ready C conn s
  | _, _ => True

theorem keeps_epollWait : Keeps (AllLive C) Exn.Usual (epollWait k) := by
  refine (keeps_ask _).bind fun answer => Keeps.bind (.modWorld fun _ hs => hs) fun _ => ?_
  rcases answer with _ | _ | ⟨event, events⟩
  · exact .throw nofun
  · exact .pure _
  · exact .pure _

theorem keeps_sweepTimeouts : Keeps (AllLive C) Exn.Usual sweepTimeouts :=
  Keeps.world.bind fun _ => .obj_bind fun _ _ => .ite (fun _ => .pure _) fun _ =>
    Keeps.bind (keeps_maps fun _ => rfl) fun _ => .pure _

theorem keeps_sweepCgiTimeouts : Keeps (AllLive C) Exn.Usual sweepCgiTimeouts :=
  .obj_bind fun _ _ => .ite (fun _ => .pure _) fun _ => Keeps.world.bind fun _ => .pure _

theorem leads_next {p : Point} {s : ServerState} (hs : AllLive C s) (hC : TurnMeets C p s) :
    Leads (AllLive C) Exn.Usual (next k p) s := by
  refine Leads.bind_run (keeps_ask (k.now p) s hs) fun now t ht _ => ?_
  cases ht
  refine Leads.bind_run (Keeps.modWorld (fun _ hs => hs) s hs) fun _ u hu hs => ?_
  cases hu
  cases p with
  | roundRobin processed => exact leads_runRoundRobin hs hC
  | sweepTimeouts => exact keeps_sweepTimeouts _ hs
  | dropTimedOut toDrop =>
    rcases toDrop with _ | ⟨fd, toDrop⟩
    · exact Keeps.pure _ _ hs
    · exact (keeps_dropTimedOut fd).bind (fun _ => .pure _) _ hs
  | sweepCgiTimeouts => exact keeps_sweepCgiTimeouts _ hs
  | killTimedOut toKill =>
    rcases toKill with _ | ⟨pipeFd, toKill⟩
    · exact Keeps.pure _ _ hs
    · exact (keeps_killTimedOut pipeFd).bind (fun _ => .pure _) _ hs
  | wait => exact keeps_epollWait _ hs
  | batch events =>
    rcases events with _ | ⟨⟨fd, events⟩, rest⟩
    · exact Keeps.pure _ _ hs
    · exact (keeps_handleEvent fd events).bind (fun _ => .pure _) _ hs

/-- The points and states of the runs whose turns meet `C`. -/
inductive ReachIf (k : Kernel) (C : Connection → Prop) : Point → ServerState → Prop
  | start {s : ServerState} (h : Fresh s.1) : ReachIf k C (.roundRobin 0) s
  | next {p p' : Point} {s s' : ServerState} (h : ReachIf k C p s) (hC : TurnMeets C p s)
      (hrun : next k p s = (.ok p', s')) : ReachIf k C p' s'

/-- Every connection has lived, and no turn throws anything unusual. -/
theorem lives_of_reach {p : Point} {s : ServerState} (h : ReachIf k C p s) : AllLive C s := by
  induction h with
  | start h =>
    intro conn c hc
    rw [h.heap] at hc
    cases hc
  | next _ hC hrun ih =>
    have hnext := leads_next (k := k) ih hC
    rw [Leads, hrun] at hnext
    exact hnext.1

end ServerManager

end LeftHookRoll
