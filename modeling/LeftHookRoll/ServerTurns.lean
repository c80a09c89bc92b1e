import LeftHookRoll.ConnectionFrame
import LeftHookRoll.ServerManager

/-!
# What one turn of the event loop does

For each turn that returns: the state it leaves, in terms of the connection it serves before and after.
-/

namespace LeftHookRoll

open Eff

/-- One more system call. -/
def World.ticked (w : World) : World := { w with tick := w.tick + 1 }

theorem World.offline_ticked (w : World) : w.Offline w.ticked := ⟨rfl, rfl⟩

namespace ServerManager

open Connection

/-! ### The updates -/

def put (conn : Nat) (c : Connection) (s : ServerManager) : ServerManager :=
  { s with heap := s.heap.insert conn c }

def watch (fd : Nat) (events : Events) (s : ServerManager) : ServerManager :=
  { s with fdEvents := s.fdEvents.insert fd events }

def enqueue (conn : Nat) (s : ServerManager) : ServerManager :=
  if conn ∈ s.processingSet then s
  else { s with processingSet := insert conn s.processingSet, processingQueue := s.processingQueue ++ [conn] }

def dequeue (conn : Nat) (s : ServerManager) : ServerManager :=
  { s with processingSet := s.processingSet.erase conn }

def register (pipeFd conn now : Nat) (s : ServerManager) : ServerManager :=
  { s with
    cgiPipeToConn := s.cgiPipeToConn.insert pipeFd conn, cgiStartTimes := s.cgiStartTimes.insert pipeFd now }

def unregister (pipeFd : Nat) (s : ServerManager) : ServerManager :=
  { s with
    fdEvents := s.fdEvents.erase pipeFd, cgiPipeToConn := s.cgiPipeToConn.erase pipeFd
    cgiStartTimes := s.cgiStartTimes.erase pipeFd }

/-- The connection is gone. -/
def remove (fd conn : Nat) (s : ServerManager) : ServerManager :=
  { s with
    processingSet := s.processingSet.erase conn, heap := s.heap.erase conn
    connections := s.connections.erase fd, fdEvents := s.fdEvents.erase fd, closed := fd :: s.closed }

/-- The mask of a state. -/
def mask : ConnectionState → Events
  | .READING => { epollin := true }
  | .WRITING => { epollin := true, epollout := true }
  | .PROCESSING | .WAITING_FOR_CGI | .FINISHED => {}

theorem put_put (conn : Nat) (c c' : Connection) (s : ServerManager) : put conn c' (put conn c s) = put conn c' s := by
  rw [put, put, put, OrdMap.insert_insert]

theorem put_self {conn : Nat} {c : Connection} {s : ServerManager} (h : s.heap.find? conn = some c) :
    put conn c s = s := by
  rw [put, OrdMap.insert_of_find? h]

theorem find?_put (conn : Nat) (c : Connection) (s : ServerManager) : (put conn c s).heap.find? conn = some c := by
  rw [put, OrdMap.find?_insert, if_pos rfl]

theorem heap_enqueue (conn : Nat) (s : ServerManager) : (enqueue conn s).heap = s.heap := by
  rw [enqueue]
  split <;> rfl

/-! ### The methods -/

section Methods

variable {k : Kernel} {s s' : ServerState} {conn fd pipeFd : Nat} {c : Connection} {events : Events}

theorem deref_eq {α : Type} (hc : s.1.heap.find? conn = some c) (m : Method Connection α) :
    deref conn m s = ((m (c, s.2)).1, put conn (m (c, s.2)).2.1 s.1, (m (c, s.2)).2.2) := by
  rw [deref, hc]
  rfl

theorem deref_ok {α : Type} {x : α} {m : Method Connection α} (hc : s.1.heap.find? conn = some c) :
    deref conn m s = (.ok x, s') ↔ ∃ c' w', m (c, s.2) = (.ok x, c', w') ∧ s' = (put conn c' s.1, w') := by
  rw [deref_eq hc]
  rcases hm : m (c, s.2) with ⟨r, c', w'⟩
  constructor
  · intro h
    cases h
    exact ⟨c', w', rfl, rfl⟩
  · rintro ⟨c'', w'', heq, rfl⟩
    cases heq
    rfl

theorem deref_read {α : Type} (hc : s.1.heap.find? conn = some c) (f : Connection → α) :
    deref conn (do return f (← obj)) s = (.ok (f c), s) := by
  rw [deref_eq hc]
  exact Prod.ext rfl (Prod.ext (put_self hc) rfl)

theorem getState_eq (hc : s.1.heap.find? conn = some c) : getState conn s = (.ok c.state, s) := deref_read hc _

theorem epollCtl_ok {b : Bool} (h : epollCtl k s = (.ok b, s')) : s' = (s.1, s.2.ticked) := by
  cases h
  rfl

theorem addPollFd_ok (h : addPollFd k fd events s = (.ok (), s')) : s' = (watch fd events s.1, s.2.ticked) := by
  rw [addPollFd, Eff.obj_bind] at h
  split at h
  all_goals
    obtain ⟨_, s₁, hfirst, h⟩ := Eff.bind_eq_ok.1 h
  · cases hfirst
    obtain ⟨b, s₂, hctl, h⟩ := Eff.bind_eq_ok.1 h
    rw [epollCtl_ok hctl] at h
    split at h
    · cases h
    · cases h
      rfl
  · rw [epollCtl_ok hfirst] at h
    split at h
    · cases h
    · cases h
      rfl

theorem unregisterCgiPipe_eq (pipeFd : Nat) (s : ServerState) :
    unregisterCgiPipe k pipeFd s = (.ok (), unregister pipeFd s.1, s.2.ticked) := rfl

theorem registerCgiPipe_ok (hc : s.1.heap.find? conn = some c) (hp : c.getCgiPipeFd = some pipeFd)
    (h : registerCgiPipe k conn s = (.ok (), s')) :
    s' = (watch pipeFd (mask .READING) (register pipeFd conn s.2.now s.1), s.2.ticked) := by
  rw [registerCgiPipe, Eff.bind_ok (deref_read hc _)] at h
  simp only [hp, Eff.world_bind, Eff.modObj_bind] at h
  exact addPollFd_ok h

theorem offline_destroy (d : DataStore) (w : World) : w.Offline (d.destroy w) :=
  World.Local.offline (DataStore.moves_clear (d, w))

theorem offline_destroyConnection (c : Connection) (w : World) : w.Offline (destroyConnection c w) :=
  trans_of World.Offline (trans_of World.Offline (offline_destroy _ _) (offline_destroy _ _)) (offline_destroy _ _)

theorem dropConnection_unknown (h : s.1.connections.find? fd = none) :
    dropConnection k fd s =
      (.ok (), { s.1 with fdEvents := s.1.fdEvents.erase fd, closed := fd :: s.1.closed }, s.2.ticked) := by
  rw [dropConnection, Eff.obj_bind, h]
  rfl

/-- The pipe of the connection, if it has one, is forgotten too. -/
def unregisterPipe : Option Nat → ServerManager → ServerManager
  | none, s => s
  | some pipeFd, s => unregister pipeFd s

theorem deleteConnection_eq (hc : s.1.heap.find? conn = some c) :
    deleteConnection conn s = (.ok (), { s.1 with heap := s.1.heap.erase conn }, destroyConnection c s.2) := by
  rw [deleteConnection, hc]

/-- The connection is deleted; its descriptor is still watched. -/
theorem discard_eq (hc : s.1.heap.find? conn = some c) : ∃ w', discard k fd conn s = (.ok (),
    { unregisterPipe c.getCgiPipeFd s.1 with
      processingSet := s.1.processingSet.erase conn, heap := s.1.heap.erase conn
      connections := s.1.connections.erase fd }, w') ∧ s.2.Offline w' := by
  have hrest (t : ServerState) (ht : t.1.heap.find? conn = some c) : (do
      dequeueProcessing conn
      deleteConnection conn
      modObj fun s => { s with connections := s.connections.erase fd } : Method ServerManager Unit) t = (.ok (),
      { t.1 with
        processingSet := t.1.processingSet.erase conn, heap := t.1.heap.erase conn
        connections := t.1.connections.erase fd }, destroyConnection c t.2) := by
    have hdelete : deleteConnection conn (dequeue conn t.1, t.2) = _ := deleteConnection_eq ht
    rw [dequeueProcessing, Eff.modObj_bind]
    exact (Eff.bind_ok hdelete).trans rfl
  rw [discard, Eff.bind_ok (deref_read hc _)]
  rcases c.getCgiPipeFd with _ | p
  · exact ⟨_, hrest s hc, offline_destroyConnection _ _⟩
  · refine ⟨_, (Eff.bind_ok (unregisterCgiPipe_eq p s)).trans (hrest _ hc), ?_⟩
    exact trans_of World.Offline (World.offline_ticked _) (offline_destroyConnection _ _)

theorem dropConnection_known (h : s.1.connections.find? fd = some conn) (hc : s.1.heap.find? conn = some c) :
    ∃ w', dropConnection k fd s = (.ok (), remove fd conn (unregisterPipe c.getCgiPipeFd s.1), w') ∧
      s.2.Offline w' := by
  obtain ⟨w', hrun, hw'⟩ := @discard_eq k s conn fd c hc
  rw [dropConnection, Eff.obj_bind, h]
  refine ⟨w'.ticked, ?_, trans_of World.Offline hw' (World.offline_ticked _)⟩
  simp only
  rw [Eff.bind_ok hrun]
  rcases c.getCgiPipeFd with _ | p <;> rfl

/-- The end of a turn, by the state of the connection. -/
theorem finalizeProcessed_writing (hc : s.1.heap.find? conn = some c) (hs : c.state = .WRITING)
    (h : finalizeProcessed k conn s = (.ok (), s')) :
    s' = (watch c.acceptFD (mask .WRITING) s.1, s.2.ticked) := by
  rw [finalizeProcessed, Eff.bind_ok (deref_read hc _), Eff.bind_ok (getState_eq hc), hs] at h
  exact addPollFd_ok h

theorem finalizeProcessed_waiting (hc : s.1.heap.find? conn = some c) (hs : c.state = .WAITING_FOR_CGI)
    (hp : c.getCgiPipeFd = some pipeFd) (h : finalizeProcessed k conn s = (.ok (), s')) :
    s' = (watch pipeFd (mask .READING) (register pipeFd conn s.2.now (watch c.acceptFD (mask .WAITING_FOR_CGI) s.1)),
      s.2.ticked.ticked) := by
  rw [finalizeProcessed, Eff.bind_ok (deref_read hc _), Eff.bind_ok (getState_eq hc), hs] at h
  obtain ⟨_, t, hwatch, h⟩ := Eff.bind_eq_ok.1 h
  rw [addPollFd_ok hwatch] at h
  exact registerCgiPipe_ok (s := (watch c.acceptFD (mask .WAITING_FOR_CGI) s.1, s.2.ticked)) hc hp h

/-- A guarded method has returned, or its exception was answered with an error page. -/
theorem guarded_ok {m : Method Connection Unit} (hc : s.1.heap.find? conn = some c)
    (h : guarded k conn (deref conn m) s = (.ok (), s')) :
    ∃ c' w', s' = (put conn c' s.1, w') ∧ (m (c, s.2) = (.ok (), c', w') ∨
      ∃ e t, m (c, s.2) = (.error e, t) ∧ onException (k.sys s) e t = (.ok (), c', w')) := by
  obtain ⟨sys, s₁, hask, h⟩ := Eff.bind_eq_ok.1 h
  cases hask
  rcases hm : m (c, s.2) with ⟨e | _, c₁, w₁⟩
  · rw [Eff.tryCatch_apply, deref_eq hc, hm] at h
    obtain ⟨c', w', hrun, rfl⟩ := (deref_ok (find?_put conn c₁ s.1)).1 h
    refine ⟨c', w', ?_, .inr ⟨e, (c₁, w₁), rfl, hrun⟩⟩
    rw [put_put]
  · rw [Eff.tryCatch_apply, deref_eq hc, hm] at h
    cases h
    exact ⟨c₁, w₁, rfl, .inl rfl⟩

/-! ### The turns -/

/-- The turn of a connection that is processed: it goes on, is answered, or waits for its script. -/
theorem processNext_ok (hc : s.1.heap.find? conn = some c) (hs : c.state = .PROCESSING)
    (hb : Response.Building c.response) (h : processNext k conn s = (.ok (), s')) :
    ∃ c' w', Own (k.sys s) (c, s.2) (c', w') ∧
      ((c'.state = .PROCESSING ∧ Response.Building c'.response ∧
        s' = ({ put conn c' s.1 with processingQueue := s.1.processingQueue ++ [conn] }, w')) ∨
      (c'.state = .WRITING ∧ s' = (watch c.acceptFD (mask .WRITING) (dequeue conn (put conn c' s.1)), w')) ∨
      (Waits (k.sys s) s.2.now c' ∧ ∃ p, c'.getCgiPipeFd = some p ∧
        s' = (watch p (mask .READING) (register p conn s.2.now
          (watch c.acceptFD (mask .WAITING_FOR_CGI) (dequeue conn (put conn c' s.1)))), w'))) := by
  obtain ⟨sys, s₁, hask, h⟩ := Eff.bind_eq_ok.1 h
  cases hask
  obtain ⟨_, s₁, hguard, h⟩ := Eff.bind_eq_ok.1 h
  obtain ⟨c', w', rfl, hrun⟩ := guarded_ok hc hguard
  have hc' := find?_put conn c' s.1
  have hown : Own (k.sys s) (c, s.2) (c', w') := by
    rcases hrun with hrun | ⟨e, t, hrun, hcatch⟩
    · exact (own_process _).of_ok hrun
    · exact trans_of (Own _) ((own_process _).of_error hrun) ((own_of_steady (steady_onException _ e)).of_ok hcatch)
  have hstate : (c'.state = .PROCESSING ∧ Response.Building c'.response) ∨ c'.state = .WRITING ∨
      Waits (k.sys s) s.2.now c' := by
    rcases hrun with hrun | ⟨e, t, -, hcatch⟩
    · exact process_ok hs hb hrun
    · exact .inr (.inl (onException_ok hcatch))
  rw [Eff.bind_ok (getState_eq (s := (put conn c' s.1, w')) hc')] at h
  rcases hstate with ⟨hprocessing, hbuilding⟩ | hwriting | hwaits
  · rw [if_pos hprocessing] at h
    cases h
    exact ⟨c', w', hown, .inl ⟨hprocessing, hbuilding, rfl⟩⟩
  · rw [if_neg (by rw [hwriting]; decide)] at h
    have hfin := finalizeProcessed_writing (s := (dequeue conn (put conn c' s.1), w')) hc' hwriting h
    refine ⟨c', w'.ticked, hown.later (World.offline_ticked w'), .inr (.inl ⟨hwriting, ?_⟩)⟩
    rw [hfin, hown.client.acceptFD]
  · obtain ⟨p, _, hp, -⟩ := hwaits.pipe
    rw [if_neg (by rw [hwaits.state]; decide)] at h
    have hfin := finalizeProcessed_waiting (s := (dequeue conn (put conn c' s.1), w')) hc' hwaits.state hp h
    refine ⟨c', w'.ticked.ticked, hown.later ⟨rfl, rfl⟩, .inr (.inr ⟨hwaits, p, hp, ?_⟩)⟩
    rw [hfin, hown.client.acceptFD, show w'.now = s.2.now from hown.world.1]

/-- A connection that the idle sweep finds gets an error page. -/
theorem dropTimedOut_run (hfd : s.1.connections.find? fd = some conn) (hc : s.1.heap.find? conn = some c)
    (h : dropTimedOut k fd s = (.ok (), s')) :
    ∃ c' w', triggerError (k.sys s) 408 (c, s.2) = (.ok (), c', w') ∧
      s' = (watch c.acceptFD (mask .WRITING) (dequeue conn (put conn c' s.1)), w'.ticked) := by
  rw [dropTimedOut, Eff.obj_bind, hfd] at h
  obtain ⟨sys, s₁, hask, h⟩ := Eff.bind_eq_ok.1 h
  cases hask
  obtain ⟨_, s₁, hpage, h⟩ := Eff.bind_eq_ok.1 h
  obtain ⟨c', w', hrun, rfl⟩ := (deref_ok hc).1 hpage
  have hsteady : Steady World.Offline (c, s.2) (c', w') := (steady_triggerError _ _).of_ok hrun
  have hfin := finalizeProcessed_writing (s := (dequeue conn (put conn c' s.1), w')) (find?_put conn c' s.1)
    (triggerError_ok hrun) h
  refine ⟨c', w', hrun, ?_⟩
  rw [hfin, hsteady.client.acceptFD]

theorem dropTimedOut_ok (hfd : s.1.connections.find? fd = some conn) (hc : s.1.heap.find? conn = some c)
    (h : dropTimedOut k fd s = (.ok (), s')) :
    ∃ c' w', Steady World.Offline (c, s.2) (c', w') ∧ c'.state = .WRITING ∧
      s' = (watch c.acceptFD (mask .WRITING) (dequeue conn (put conn c' s.1)), w') := by
  obtain ⟨c', w', hrun, rfl⟩ := dropTimedOut_run hfd hc h
  have hsteady : Steady World.Offline (c, s.2) (c', w') := (steady_triggerError _ _).of_ok hrun
  exact ⟨c', w'.ticked, ⟨hsteady.client, hsteady.response, hsteady.waits, trans_of World.Offline hsteady.world
    (World.offline_ticked w')⟩, triggerError_ok hrun, rfl⟩

/-- The pipe is forgotten and the connection has an answer. -/
structure Settles (c c' : Connection) (w w' : World) : Prop where
  client : SameClient c c'
  pipe : c'.getCgiPipeFd = c.getCgiPipeFd ∨ c'.getCgiPipeFd = none
  state : c'.state = .WRITING
  world : w.Offline w'
  head : c.response.responseState = .SENDING_RES_HEAD → c'.response.responseState = .SENDING_RES_HEAD

def settle (pipeFd conn : Nat) (c' : Connection) (s : ServerManager) : ServerManager :=
  watch c'.acceptFD (mask .WRITING) (put conn c' (unregister pipeFd s))

theorem settle_put (pipeFd conn : Nat) (c c' : Connection) (s : ServerManager) :
    settle pipeFd conn c' (put conn c s) = settle pipeFd conn c' s :=
  congrArg (watch c'.acceptFD (mask .WRITING)) (put_put conn c c' (unregister pipeFd s))

/-- The part of the turns that end a script. -/
theorem settle_ok {m : Method Response Unit} (hc : s.1.heap.find? conn = some c) (hm : Moves Response.MayClose m)
    (hhead : Moves Response.AtHead m) (h : (do
      deref conn (onResponse m)
      deref conn (modObj (setState .WRITING))
      let fd ← deref conn (return (← obj).acceptFD)
      addPollFd k fd { epollin := true, epollout := true } : Method ServerManager Unit) s = (.ok (), s')) :
    ∃ c' w', Settles c c' s.2 w' ∧ s' = (watch c'.acceptFD (mask .WRITING) (put conn c' s.1), w') := by
  obtain ⟨_, s₁, hresponse, h⟩ := Eff.bind_eq_ok.1 h
  obtain ⟨c₁, w₁, hon, rfl⟩ := (deref_ok hc).1 hresponse
  obtain ⟨t, hrun, ht⟩ := Eff.on_eq_ok.1 hon
  cases ht
  have hmoved := hm.of_ok hrun
  obtain ⟨_, s₂, hstate, h⟩ := Eff.bind_eq_ok.1 h
  obtain ⟨c', w', hset, rfl⟩ := (deref_ok (find?_put conn _ s.1)).1 hstate
  cases hset
  have hfind := find?_put conn (setState .WRITING { c with response := t.1 }) s.1
  rw [put_put, Eff.bind_ok (deref_read hfind _)] at h
  exact ⟨setState .WRITING { c with response := t.1 }, _, ⟨⟨rfl, rfl⟩, hmoved.1, rfl,
    trans_of World.Offline hmoved.2 (World.offline_ticked _), fun hs => hhead.of_ok hrun hs⟩, addPollFd_ok h⟩

theorem killTimedOut_ok (hp : s.1.cgiPipeToConn.find? pipeFd = some conn) (hc : s.1.heap.find? conn = some c)
    (h : killTimedOut k pipeFd s = (.ok (), s')) :
    ∃ c' w', Settles c c' s.2 w' ∧ s' = (settle pipeFd conn c' s.1, w') := by
  have hend {m : Method Response Unit} (hm : Moves Response.MayClose m) (hhead : Moves Response.AtHead m) (h : (do
      deref conn (onResponse m)
      deref conn (modObj (setState .WRITING))
      let fd ← deref conn (return (← obj).acceptFD)
      addPollFd k fd { epollin := true, epollout := true } : Method ServerManager Unit)
        (unregister pipeFd s.1, s.2.ticked) = (.ok (), s')) :
      ∃ c' w', Settles c c' s.2 w' ∧ s' = (settle pipeFd conn c' s.1, w') := by
    obtain ⟨c', w', hsettles, rfl⟩ := settle_ok (s := (unregister pipeFd s.1, s.2.ticked)) hc hm hhead h
    exact ⟨c', w', ⟨hsettles.client, hsettles.pipe, hsettles.state, hsettles.world, hsettles.head⟩, rfl⟩
  rw [killTimedOut, Eff.obj_bind, hp] at h
  obtain ⟨sys, s₁, hask, h⟩ := Eff.bind_eq_ok.1 h
  cases hask
  rw [Eff.bind_ok (deref_read hc _), Eff.bind_ok (unregisterCgiPipe_eq pipeFd s)] at h
  rcases hconf : c.serverConf with _ | conf <;> simp only [hconf] at h
  · refine hend ?_ ?_ h
    · exact Response.mayClose_modObj fun _ => .inl rfl
    · exact Response.atHead_modObj fun _ h => h
  · exact hend (Response.mayClose_cgiTimeout _ conf) (Response.atHead_cgiTimeout _ conf) h

theorem finishCgi_ok (hc : s.1.heap.find? conn = some c) (h : finishCgi k pipeFd conn s = (.ok (), s')) :
    ∃ c' w', Settles c c' s.2 w' ∧ s' = (settle pipeFd conn c' s.1, w') := by
  obtain ⟨sys, s₁, hask, h⟩ := Eff.bind_eq_ok.1 h
  cases hask
  rw [Eff.bind_ok (unregisterCgiPipe_eq pipeFd s)] at h
  obtain ⟨c', w', hsettles, rfl⟩ :=
    settle_ok (s := (unregister pipeFd s.1, s.2.ticked)) hc (Response.mayClose_finalizeCgiResponse _)
      (Response.atHead_finalizeCgiResponse _) h
  exact ⟨c', w', ⟨hsettles.client, hsettles.pipe, hsettles.state, hsettles.world, hsettles.head⟩, rfl⟩

theorem failCgi_ok {e : Exn} (hc : s.1.heap.find? conn = some c) (h : failCgi k pipeFd conn e s = (.ok (), s')) :
    ∃ c' w', Settles c c' s.2 w' ∧ s' = (settle pipeFd conn c' s.1, w') := by
  obtain ⟨sys, s₁, hask, h⟩ := Eff.bind_eq_ok.1 h
  cases hask
  obtain ⟨_, s₁, hpage, h⟩ := Eff.bind_eq_ok.1 h
  obtain ⟨c', w', hrun, rfl⟩ := (deref_ok hc).1 hpage
  have hsteady : Steady World.Offline (c, s.2) (c', w') := (steady_onException _ e).of_ok hrun
  have hfind : (unregister pipeFd (put conn c' s.1)).heap.find? conn = some c' := find?_put conn c' s.1
  rw [Eff.bind_ok (unregisterCgiPipe_eq pipeFd _),
    Eff.bind_ok (deref_read (s := (unregister pipeFd (put conn c' s.1), w'.ticked)) hfind _)] at h
  refine ⟨c', w'.ticked.ticked, ⟨hsteady.client, .inl hsteady.getCgiPipeFd_eq, onException_ok hrun,
    trans_of World.Offline hsteady.world ⟨rfl, rfl⟩, fun hs => (keepsHead_onException _ e).of_ok hrun hs⟩, addPollFd_ok h⟩

/-- Only the output of the script is read. -/
structure Reads (c c' : Connection) (w w' : World) : Prop where
  client : SameClient c c'
  pipe : c'.getCgiPipeFd = c.getCgiPipeFd
  state : c'.state = c.state
  lastActivity : c'.lastActivity = c.lastActivity
  world : w.Offline w'
  head : c.response.responseState = .SENDING_RES_HEAD → c'.response.responseState = .SENDING_RES_HEAD

theorem cgiOutputDone_run (hc : s.1.heap.find? conn = some c) (events : Events) :
    ∃ r c' w', cgiOutputDone k conn events s = (r, put conn c' s.1, w') ∧ Reads c c' s.2 w' := by
  have hidle (b : Bool) : ∃ r c' w', (return b : Method ServerManager Bool) s = (r, put conn c' s.1, w') ∧
      Reads c c' s.2 w' := ⟨.ok b, c, s.2, by rw [put_self hc]; rfl, ⟨.refl c, rfl, rfl, rfl, refl_of World.Offline _, id⟩⟩
  unfold cgiOutputDone
  split
  · exact hidle true
  split
  · have hread := Response.keepsPipe_readCgiOutput (k.sys s) (k.readPipe s) (c.response, s.2)
    have hhead := Response.atHead_readCgiOutput (k.sys s) (k.readPipe s) (c.response, s.2)
    exact ⟨_, _, _, deref_eq hc _, ⟨⟨rfl, rfl⟩, hread.1, rfl, rfl, hread.2, hhead⟩⟩
  · exact hidle false

/-- The output of the script goes on, or it is complete or unusable. -/
theorem handleCgiPipeEvent_ok (hp : s.1.cgiPipeToConn.find? pipeFd = some conn)
    (hc : s.1.heap.find? conn = some c) (h : handleCgiPipeEvent k pipeFd events s = (.ok (), s')) :
    ∃ c' w', (Reads c c' s.2 w' ∧ s' = (put conn c' s.1, w')) ∨
      (Settles c c' s.2 w' ∧ s' = (settle pipeFd conn c' s.1, w')) := by
  obtain ⟨r, c₁, w₁, hrun, hreads⟩ := cgiOutputDone_run (k := k) hc events
  have hc₁ := find?_put conn c₁ s.1
  have hsettle {c' : Connection} {w' : World} (h' : Settles c₁ c' w₁ w') : Settles c c' s.2 w' :=
    ⟨hreads.client.trans h'.client, by rw [← hreads.pipe]; exact h'.pipe, h'.state,
      trans_of World.Offline hreads.world h'.world, h'.head ∘ hreads.head⟩
  rw [handleCgiPipeEvent, Eff.obj_bind, hp] at h
  obtain ⟨done, s₁, hdone, h⟩ := Eff.bind_eq_ok.1 h
  rw [Eff.tryCatch_apply] at hdone
  rcases r with e | complete
  · rw [show (some <$> cgiOutputDone k conn events) s = (.error e, put conn c₁ s.1, w₁) from Eff.bind_error hrun] at hdone
    obtain ⟨_, s₂, hfail, hnone⟩ := Eff.bind_eq_ok.1 hdone
    cases hnone
    obtain ⟨c', w', hs, rfl⟩ := failCgi_ok hc₁ hfail
    cases h
    exact ⟨c', w', .inr ⟨hsettle hs, by rw [settle_put]⟩⟩
  · rw [show (some <$> cgiOutputDone k conn events) s = (.ok (some complete), put conn c₁ s.1, w₁) from
      Eff.bind_ok hrun] at hdone
    cases hdone
    cases complete with
    | false =>
      cases h
      exact ⟨c₁, w₁, .inl ⟨hreads, rfl⟩⟩
    | true =>
      obtain ⟨c', w', hs, rfl⟩ := finishCgi_ok (s := (put conn c₁ s.1, w₁)) hc₁ h
      exact ⟨c', w', .inr ⟨hsettle hs, by rw [settle_put]⟩⟩

/-- What an event makes of a connection, when no exception is raised or one is answered. -/
structure Serves (c c' : Connection) (w w' : World) : Prop where
  steady : Steady (World.SendsTo c.acceptFD) (c, w) (c', w')
  state : c'.state = c.state ∨ c.state = .READING ∨ c.state = .WRITING ∧ (c'.state = .WRITING ∨ c'.state = .FINISHED)
  timer : c.state = .WAITING_FOR_CGI → c'.lastActivity = c.lastActivity

/-- A connection that comes to be processed is in the queue at once. -/
def enqueueIf (c c' : Connection) (conn : Nat) (s : ServerManager) : ServerManager :=
  if c.state ≠ .PROCESSING ∧ c'.state = .PROCESSING then enqueue conn s else s

/-- How an event is served: it is done with, or an exception is raised. -/
def ServeRun (s : ServerState) (conn : Nat) (c : Connection) (out : Except Exn Unit × ServerState) : Prop :=
  ∃ c' w', (out = (.ok (), enqueueIf c c' conn (put conn c' s.1), w') ∧ Serves c c' s.2 w') ∨
    ∃ e, out = (.error e, put conn c' s.1, w') ∧ Steady (World.SendsTo c.acceptFD) (c, s.2) (c', w') ∧
      (c.state = .READING ∨ c.state = .WRITING)

/-- The second part: a connection that is writing sends. -/
def sendPart (conn : Nat) (events : Events) (sys : Sys) : Method ServerManager Unit := do
  if events.epollout ∧ (← getState conn) = .WRITING then deref conn (Connection.handleWrite sys)

theorem sendPart_idle {sys : Sys} (hc : s.1.heap.find? conn = some c) (hs : c.state ≠ .WRITING) :
    sendPart conn events sys s = (.ok (), s) := by
  rw [sendPart, Eff.bind_ok (getState_eq hc), if_neg fun h => hs h.2]
  rfl

theorem sendPart_run (hc : s.1.heap.find? conn = some c) (events : Events) (sys : Sys) :
    (sendPart conn events sys s = (.ok (), s)) ∨ c.state = .WRITING ∧
      ∃ r c' w', sendPart conn events sys s = (r, put conn c' s.1, w') ∧
        Steady (World.SendsTo c.acceptFD) (c, s.2) (c', w') ∧ (r = .ok () → c'.state = .WRITING ∨ c'.state = .FINISHED) := by
  rw [sendPart, Eff.bind_ok (getState_eq hc)]
  split
  · rename_i hsend
    have hsteady := steady_handleWrite sys (c, s.2)
    refine .inr ⟨hsend.2, _, _, _, deref_eq hc _, hsteady, fun hok => handleWrite_ok hsend.2 (Prod.ext hok rfl)⟩
  · exact .inl rfl

theorem serveConnection_eq (conn : Nat) (events : Events) (s : ServerState) :
    serveConnection k conn events s = (if events.epollin then do
        deref conn (Connection.handleRead (k.sys s) (k.recv s))
        if (← getState conn) = .PROCESSING then
          deref conn (Connection.onBody (DataStore.resetReadPosition (k.sys s)))
          enqueueProcessing conn
        sendPart conn events (k.sys s)
      else sendPart conn events (k.sys s)) s := by
  unfold serveConnection sendPart
  rcases events.epollin with _ | _ <;> rfl

/-- The second part, for a connection that the first part has not made to be processed. -/
theorem serveRun_sendPart {c₁ : Connection} {w₁ : World} (hread : Steady World.Offline (c, s.2) (c₁, w₁))
    (hstate : c₁ = c ∨ c.state = .READING ∧ c₁.state ≠ .PROCESSING) (events : Events) (sys : Sys) :
    ServeRun s conn c (sendPart conn events sys (put conn c₁ s.1, w₁)) := by
  have hfd : c₁.acceptFD = c.acceptFD := hread.client.acceptFD
  have hsame : Serves c c₁ s.2 w₁ := by
    refine ⟨hread.toSends _, hstate.imp (fun h => by rw [h]) fun h => .inl h.1, fun hs => ?_⟩
    rcases hstate with h | h
    · rw [h]
    · rw [h.1] at hs
      cases hs
  have hqueue {c' : Connection} (hc' : c' = c₁ ∨ c'.state = .WRITING ∨ c'.state = .FINISHED) (t : ServerManager) :
      enqueueIf c c' conn t = t := by
    rw [enqueueIf, if_neg]
    rintro ⟨hnot, hp⟩
    rcases hc' with rfl | h | h
    · rcases hstate with rfl | h
      · exact hnot hp
      · exact h.2 hp
    all_goals
      rw [h] at hp
      cases hp
  have hsend := sendPart_run (s := (put conn c₁ s.1, w₁)) (find?_put conn c₁ s.1) events sys
  rcases hsend with hidle | ⟨hwriting, r, c', w', hrun, hsteady, hok⟩
  · exact ⟨c₁, w₁, .inl ⟨by rw [hidle, hqueue (.inl rfl)], hsame⟩⟩
  rw [hfd] at hsteady
  have hwrites : c.state = .READING ∨ c.state = .WRITING := by
    rcases hstate with rfl | h
    · exact .inr hwriting
    · exact .inl h.1
  rw [hrun, put_put]
  rcases r with e | _
  · exact ⟨c', w', .inr ⟨e, rfl, trans_of (Steady _) (hread.toSends _) hsteady, hwrites⟩⟩
  · have hend := hok rfl
    refine ⟨c', w', .inl ⟨by rw [hqueue (.inr hend)], trans_of (Steady _) (hread.toSends _) hsteady, ?_, fun hs => ?_⟩⟩
    · exact .inr (hwrites.imp_right fun h => ⟨h, hend⟩)
    · rcases hwrites with h | h <;> rw [h] at hs <;> cases hs

/-- `hidle`: no bytes are reported for a connection that is processed. -/
theorem serveConnection_run (hc : s.1.heap.find? conn = some c)
    (hidle : events.epollin = true → c.state ≠ .PROCESSING) :
    ServeRun s conn c (serveConnection k conn events s) := by
  have hsame : ServeRun s conn c (sendPart conn events (k.sys s) s) := by
    have : ServeRun s conn c _ := serveRun_sendPart (refl_of (Steady World.Offline) (c, s.2)) (.inl rfl) events (k.sys s)
    rwa [put_self hc] at this
  rw [serveConnection_eq]
  by_cases hin : events.epollin = true
  swap
  · rw [if_neg hin]
    exact hsame
  rw [if_pos hin]
  have hread := steady_handleRead (k.sys s) (k.recv s) (c, s.2)
  rcases hrun : Connection.handleRead (k.sys s) (k.recv s) (c, s.2) with ⟨e | _, c₁, w₁⟩ <;> rw [hrun] at hread
  · have hreading : c.state = .READING := by
      by_contra hs
      rw [handleRead_idle hs] at hrun
      cases hrun
    refine ⟨c₁, w₁, .inr ⟨e, ?_, hread.toSends _, .inl hreading⟩⟩
    rw [Eff.bind_error (by rw [deref_eq hc, hrun])]
  by_cases hreading : c.state = .READING
  swap
  · -- nothing is read
    rw [handleRead_idle hreading] at hrun
    cases hrun
    have hself : deref conn (Connection.handleRead (k.sys s) (k.recv s)) s = (.ok (), s) := by
      rw [deref_eq hc, handleRead_idle hreading, put_self hc]
    rw [Eff.bind_ok hself, Eff.bind_ok (getState_eq hc), if_neg (hidle hin)]
    exact hsame
  have hderef : deref conn (Connection.handleRead (k.sys s) (k.recv s)) s = (.ok (), put conn c₁ s.1, w₁) := by
    rw [deref_eq hc, hrun]
  have hc₁ := find?_put conn c₁ s.1
  rw [Eff.bind_ok hderef, Eff.bind_ok (getState_eq (s := (put conn c₁ s.1, w₁)) hc₁)]
  by_cases hprocessing : c₁.state = .PROCESSING
  swap
  · rw [if_neg hprocessing]
    exact serveRun_sendPart hread (.inr ⟨hreading, hprocessing⟩) events _
  rw [if_pos hprocessing]
  have hreset := steady_onBody (DataStore.moves_resetReadPosition (k.sys s)) (c₁, w₁)
  have hstays : ((Connection.onBody (DataStore.resetReadPosition (k.sys s))) (c₁, w₁)).2.1.state = c₁.state := rfl
  have hderef' := deref_eq (s := (put conn c₁ s.1, w₁)) hc₁ (Connection.onBody (DataStore.resetReadPosition (k.sys s)))
  rcases hrun' : (Connection.onBody (DataStore.resetReadPosition (k.sys s))) (c₁, w₁) with ⟨e | _, c₂, w₂⟩ <;>
    rw [hrun'] at hreset hstays hderef'
  all_goals
    rw [put_put] at hderef'
    have hsteady := (trans_of (Steady World.Offline) hread hreset).toSends c.acceptFD
  · exact ⟨c₂, w₂, .inr ⟨e, Eff.bind_error hderef', hsteady, .inl hreading⟩⟩
  · have hstate : c₂.state = .PROCESSING := hstays.trans hprocessing
    have hc₂ : (enqueue conn (put conn c₂ s.1)).heap.find? conn = some c₂ := by
      rw [heap_enqueue]
      exact find?_put conn c₂ s.1
    refine ⟨c₂, w₂, .inl ⟨?_, hsteady, .inr (.inl hreading), fun hs => by rw [hreading] at hs; cases hs⟩⟩
    rw [Eff.bind_ok hderef']
    refine (sendPart_idle (s := (enqueue conn (put conn c₂ s.1), w₂)) hc₂ (by rw [hstate]; decide)).trans ?_
    rw [enqueueIf, if_pos ⟨by rw [hreading]; decide, hstate⟩]

theorem heap_enqueueIf (c c' : Connection) (conn : Nat) (s : ServerManager) :
    (enqueueIf c c' conn s).heap = s.heap := by
  rw [enqueueIf]
  split
  · exact heap_enqueue conn s
  · rfl

theorem serve_ok (hc : s.1.heap.find? conn = some c) (hidle : events.epollin = true → c.state ≠ .PROCESSING)
    (h : guarded k conn (serveConnection k conn events) s = (.ok (), s')) :
    ∃ c' w', s' = (enqueueIf c c' conn (put conn c' s.1), w') ∧ Serves c c' s.2 w' := by
  obtain ⟨sys, s₁, hask, h⟩ := Eff.bind_eq_ok.1 h
  cases hask
  rw [Eff.tryCatch_apply] at h
  obtain ⟨c₁, w₁, ⟨hrun, hserves⟩ | ⟨e, hrun, hsteady, hstate⟩⟩ := serveConnection_run (k := k) hc hidle <;>
    rw [hrun] at h
  · cases h
    exact ⟨c₁, w₁, rfl, hserves⟩
  obtain ⟨c', w', hcatch, rfl⟩ := (deref_ok (s := (put conn c₁ s.1, w₁)) (find?_put conn c₁ s.1)).1 h
  have hwriting := onException_ok hcatch
  have hpage := ((steady_onException _ e).of_ok hcatch).toSends c.acceptFD
  refine ⟨c', w', ?_, trans_of (Steady _) hsteady hpage, .inr (hstate.imp_right fun h => ⟨h, .inl hwriting⟩), fun hs => ?_⟩
  · rw [put_put, enqueueIf, if_neg fun h => by rw [hwriting] at h; exact absurd h.2 (by decide)]
  · rcases hstate with h | h <;> rw [h] at hs <;> cases hs

/-- A client event: the connection is dropped if it is finished, else its mask follows its state. -/
theorem handleConnection_ok (hc : s.1.heap.find? conn = some c) (hfd : s.1.connections.find? c.acceptFD = some conn)
    (hidle : events.epollin = true → c.state ≠ .PROCESSING)
    (h : handleConnection k conn events s = (.ok (), s')) :
    ∃ c' w', Serves c c' s.2 w' ∧
      ((c'.state = .FINISHED ∧
        s' = (remove c.acceptFD conn (unregisterPipe c'.getCgiPipeFd (put conn c' s.1)), w')) ∨
      (c'.state ≠ .FINISHED ∧
        s' = (watch c.acceptFD (mask c'.state) (enqueueIf c c' conn (put conn c' s.1)), w'))) := by
  rw [handleConnection, Eff.bind_ok (deref_read hc _)] at h
  obtain ⟨_, s₁, hguard, h⟩ := Eff.bind_eq_ok.1 h
  obtain ⟨c', w', rfl, hserves⟩ := serve_ok hc hidle hguard
  have hc' : (enqueueIf c c' conn (put conn c' s.1)).heap.find? conn = some c' := by
    rw [heap_enqueueIf]
    exact find?_put conn c' s.1
  rw [Eff.bind_ok (getState_eq (s := (enqueueIf c c' conn (put conn c' s.1), w')) hc')] at h
  have hworld {w'' : World} (hw : w'.Offline w'') : Serves c c' s.2 w'' :=
    ⟨⟨hserves.steady.client, hserves.steady.response, hserves.steady.waits,
      trans_of (World.SendsTo _) hserves.steady.world (hw.sendsTo _)⟩, hserves.state, hserves.timer⟩
  by_cases hfinished : c'.state = .FINISHED
  · have hnot : enqueueIf c c' conn (put conn c' s.1) = put conn c' s.1 := by
      rw [enqueueIf, if_neg fun h => by rw [hfinished] at h; exact absurd h.2 (by decide)]
    rw [hfinished, hnot] at h
    obtain ⟨w'', hdrop, hw⟩ := dropConnection_known (k := k) (s := (put conn c' s.1, w')) hfd (find?_put conn c' s.1)
    simp only at h
    rw [hdrop] at h
    cases h
    exact ⟨c', w'', hworld hw, .inl ⟨hfinished, rfl⟩⟩
  · have hwatch : addPollFd k c.acceptFD (mask c'.state) (enqueueIf c c' conn (put conn c' s.1), w') = (.ok (), s') := by
      rcases hs : c'.state <;> rw [hs] at h
      · exact h
      · exact h
      · exact h
      · exact h
      · exact absurd hs hfinished
    exact ⟨c', w'.ticked, hworld (World.offline_ticked w'), .inr ⟨hfinished, addPollFd_ok hwatch⟩⟩

/-- A new connection, at an address that is free. -/
def addClient (fd conn now : Nat) (conf : Option ServerConf) (s : ServerManager) : ServerManager :=
  { put conn (Connection.new fd conf now) s with
    made := s.made + 1, serial := Function.update s.serial conn s.made
    connections := s.connections.insert fd conn }

theorem acceptNext_ok {listenFd : Nat} {more : Bool} (h : acceptNext k listenFd s = (.ok more, s')) :
    s' = s ∨ ∃ clientFd, k.accept s = .client clientFd true ∧
      s' = (watch clientFd (mask .READING) (addClient clientFd (k.address s) s.2.now
        ((s.1.listenFdToServerConf.find? listenFd).getD none) s.1),
        { s.2 with outbox := Function.update s.2.outbox clientFd [] }.ticked) := by
  obtain ⟨answer, s₁, hask, h⟩ := Eff.bind_eq_ok.1 h
  cases hask
  rcases haccept : k.accept s with _ | ⟨clientFd, _ | _⟩ <;> simp only [haccept] at h
  · cases h
    exact .inl rfl
  · cases h
    exact .inl rfl
  · obtain ⟨conn, s₁, hask, h⟩ := Eff.bind_eq_ok.1 h
    cases hask
    rw [Eff.world_bind, Eff.modObj_bind, Eff.modWorld_bind] at h
    obtain ⟨_, s₂, hwatch, h⟩ := Eff.bind_eq_ok.1 h
    cases h
    exact .inr ⟨clientFd, rfl, addPollFd_ok hwatch⟩

end Methods

end ServerManager

end LeftHookRoll
