import LeftHookRoll.ServerQueue

/-!
# Two idle sweeps

The idle sweep answers a connection with an error page and does not drop it. `Run.awaits` follows such a
connection through the turns: it stays, and nothing of its answer is sent, until the system reports that the client
hung up, or that it can be written to while `send` does not find it gone.
-/

namespace LeftHookRoll

open Eff

namespace ServerManager

open Connection

variable {k : Kernel} {p p' : Point} {s s' : ServerState} {conn fd serial : Nat} {c c' : Connection}

/-! ### What a turn does to the connections -/

/-- The turn before which the state is `s` serves the client of `fd`: the system reports that it hung up, or that it can be
written to, and the first `send` of the header block does not find it gone. -/
def Served (k : Kernel) (p : Point) (s : ServerState) (fd : Nat) : Prop :=
  ∃ events rest, p = .batch ((fd, events) :: rest) ∧ (events.epollhup ∨ events.epollerr ∨ events.epollout ∧
    ∃ conn c, s.1.connections.find? fd = some conn ∧ s.1.heap.find? conn = some c ∧
      ¬ Response.Broken (k.sys s) c.response s.2)

/-- One change to the connections; one that has an answer is removed only when `why` says so of its descriptor. -/
inductive Change (why : Nat → Prop) (s s' : ServerManager) : Prop
  | same (hconns : s'.connections = s.connections) (hheap : s'.heap = s.heap) (hserial : s'.serial = s.serial)
      (hmade : s'.made = s.made)
  | changed (conn : Nat) (c c' : Connection) (hc : s.heap.find? conn = some c) (hfd : c'.acceptFD = c.acceptFD)
      (hkeeps : Unsent c → ¬ why c.acceptFD → Unsent c') (hconns : s'.connections = s.connections)
      (hheap : s'.heap = s.heap.insert conn c') (hserial : s'.serial = s.serial) (hmade : s'.made = s.made)
  | removed (fd conn : Nat) (c : Connection) (hconn : s.connections.find? fd = some conn)
      (hc : s.heap.find? conn = some c) (hwhy : Unsent c → why fd)
      (hconns : s'.connections = s.connections.erase fd) (hheap : s'.heap = s.heap.erase conn)
      (hserial : s'.serial = s.serial) (hmade : s'.made = s.made)
  | added (fd conn now : Nat) (conf : Option ServerConf) (hnew : s.heap.find? conn = none)
      (hfd : s.connections.find? fd = none) (hconns : s'.connections = s.connections.insert fd conn)
      (hheap : s'.heap = s.heap.insert conn (Connection.new fd conf now))
      (hserial : s'.serial = Function.update s.serial conn s.made) (hmade : s'.made = s.made + 1)

/-- Any number of changes. -/
abbrev Changes (why : Nat → Prop) : ServerManager → ServerManager → Prop := Relation.ReflTransGen (Change why)

variable {why : Nat → Prop}

theorem changes_put {s : ServerManager} (hc : s.heap.find? conn = some c) (hfd : c'.acceptFD = c.acceptFD)
    (hkeeps : Unsent c → Unsent c') : Changes why s (put conn c' s) :=
  .single (.changed conn c c' hc hfd (fun h _ => hkeeps h) rfl rfl rfl rfl)

theorem changes_remove {s : ServerManager} {pipe : Option Nat} (hconn : s.connections.find? fd = some conn)
    (hc : s.heap.find? conn = some c) (hwhy : Unsent c → why fd) :
    Changes why s (remove fd conn (unregisterPipe pipe s)) := by
  cases pipe <;> exact .single (.removed fd conn c hconn hc hwhy rfl rfl rfl rfl)

theorem changes_processNext {queue : List Nat} (h : Inv s.1) (hmem : conn ∈ s.1.processingSet)
    (hrun : processNext k conn ({ s.1 with processingQueue := queue }, s.2) = (.ok (), s')) :
    Changes why s.1 s'.1 := by
  obtain ⟨c, hc, hs⟩ := h.queue.queued conn hmem
  have hbuild := (h.fits conn c hc).building (.inr hs)
  obtain ⟨c', w', hown, hturn⟩ := processNext_ok (s := ({ s.1 with processingQueue := queue }, s.2)) hc hs hbuild hrun
  have hnot (hu : Unsent c) (_ : ¬ why c.acceptFD) : Unsent c' := by
    have hw := hu.state
    rw [hs] at hw
    cases hw
  rcases hturn with ⟨-, -, rfl⟩ | ⟨-, rfl⟩ | ⟨-, -, -, rfl⟩ <;>
    exact .single (.changed conn c c' hc hown.client.acceptFD hnot rfl rfl rfl rfl)

theorem changes_dropTimedOut (h : Inv s.1) (hrun : dropTimedOut k fd s = (.ok (), s')) : Changes why s.1 s'.1 := by
  rcases hconn : s.1.connections.find? fd with _ | conn
  · rw [dropTimedOut, Eff.obj_bind, hconn] at hrun
    cases hrun
    exact .refl
  obtain ⟨c, hc, -⟩ := h.table.live fd conn hconn
  obtain ⟨c', w', hpage, rfl⟩ := dropTimedOut_run hconn hc hrun
  have hsteady : Steady World.Offline (c, s.2) (c', w') := (steady_triggerError _ _).of_ok hpage
  have hhead : KeepsHead (c, s.2) (c', w') := (keepsHead_triggerError _ _).of_ok hpage
  exact .single (.changed conn c c' hc hsteady.client.acceptFD (fun hu _ => ⟨triggerError_ok hpage, hhead hu.head⟩)
    rfl rfl rfl rfl)

theorem changes_killTimedOut {pipeFd : Nat} (h : Inv s.1) (hrun : killTimedOut k pipeFd s = (.ok (), s')) :
    Changes why s.1 s'.1 := by
  rcases hp : s.1.cgiPipeToConn.find? pipeFd with _ | conn
  · rw [killTimedOut, Eff.obj_bind, hp] at hrun
    cases hrun
    exact .refl
  obtain ⟨c, hc, -⟩ := h.pipes.registered pipeFd conn hp
  obtain ⟨c', w', hs, rfl⟩ := killTimedOut_ok hp hc hrun
  exact .single (.changed conn c c' hc hs.client.acceptFD (fun hu _ => ⟨hs.state, hs.head hu.head⟩) rfl rfl rfl rfl)

theorem changes_cgiPipeEvent {pipeFd : Nat} {events : Events} (h : Inv s.1)
    (hrun : handleCgiPipeEvent k pipeFd events s = (.ok (), s')) : Changes why s.1 s'.1 := by
  rcases hp : s.1.cgiPipeToConn.find? pipeFd with _ | conn
  · rw [handleCgiPipeEvent, Eff.obj_bind, hp] at hrun
    cases hrun
    exact .refl
  obtain ⟨c, hc, -⟩ := h.pipes.registered pipeFd conn hp
  obtain ⟨c', w', ⟨hr, rfl⟩ | ⟨hs, rfl⟩⟩ := handleCgiPipeEvent_ok hp hc hrun
  · exact changes_put hc hr.client.acceptFD fun hu => ⟨hr.state.trans hu.state, hr.head hu.head⟩
  · exact .single (.changed conn c c' hc hs.client.acceptFD (fun hu _ => ⟨hs.state, hs.head hu.head⟩) rfl rfl rfl rfl)

theorem changes_acceptLoop {listenFd : Nat} (hk : Honest k) (n : Nat) (s : ServerState)
    (hrun : acceptLoop k listenFd n s = (.ok (), s')) : Changes why s.1 s'.1 := by
  have hnext {more : Bool} {s s' : ServerState} (h : acceptNext k listenFd s = (.ok more, s')) : Changes why s.1 s'.1 := by
    rcases acceptNext_ok h with rfl | ⟨clientFd, haccept, rfl⟩
    · exact .refl
    · have hfree : s.1.connections.find? clientFd = none := by
        rcases hconn : s.1.connections.find? clientFd with _ | a
        · rfl
        · exact absurd (.inr (.inl ⟨a, hconn⟩)) (hk.accept s clientFd true haccept)
      exact .single (.added clientFd (k.address s) _ _ (hk.address s) hfree rfl rfl rfl rfl)
  induction n generalizing s with
  | zero =>
    cases hrun
    exact .refl
  | succ n ih =>
    obtain ⟨more, t, hstep, hrun⟩ := Eff.bind_eq_ok.1 hrun
    split at hrun
    · exact (hnext hstep).trans (ih t hrun)
    · cases hrun
      exact hnext hstep

/-- Bytes that come for a connection that has an answer are not read. -/
theorem serveConnection_answered {events : Events} (hc : s.1.heap.find? conn = some c) (hs : c.state = .WRITING) :
    serveConnection k conn events s = sendPart conn events (k.sys s) s := by
  rw [serveConnection_eq]
  split
  · have hidle : c.state ≠ .READING := by rw [hs]; decide
    have hread : deref conn (Connection.handleRead (k.sys s) (k.recv s)) s = (.ok (), s) := by
      rw [deref_eq hc, handleRead_idle hidle, put_self hc]
    rw [Eff.bind_ok hread, Eff.bind_ok (getState_eq hc), if_neg (by rw [hs]; decide)]
  · rfl

theorem handleConnection_answered {events : Events} (hc : s.1.heap.find? conn = some c) (hs : c.state = .WRITING)
    (hout : events.epollout = false) (hrun : handleConnection k conn events s = (.ok (), s')) :
    s' = (watch c.acceptFD (mask .WRITING) s.1, s.2.ticked) := by
  have hserve : serveConnection k conn events s = (.ok (), s) := by
    rw [serveConnection_answered hc hs, sendPart, Eff.bind_ok (getState_eq hc), if_neg fun h => by rw [hout] at h; cases h.1]
    rfl
  have hguarded : guarded k conn (serveConnection k conn events) s = (.ok (), s) := by
    rw [guarded]
    exact Eff.tryCatch_ok hserve
  rw [handleConnection, Eff.bind_ok (deref_read hc _), Eff.bind_ok hguarded, Eff.bind_ok (getState_eq hc), hs] at hrun
  exact addPollFd_ok hrun

/-- A client that can be written to has `handleWrite` called. -/
theorem serveConnection_writes {events : Events} (hc : s.1.heap.find? conn = some c) (hs : c.state = .WRITING)
    (hout : events.epollout = true) : serveConnection k conn events s = deref conn (Connection.handleWrite (k.sys s)) s := by
  rw [serveConnection_answered hc hs, sendPart, Eff.bind_ok (getState_eq hc), if_pos ⟨hout, hs⟩]

/-- A client whose answer is over is dropped. -/
theorem handleConnection_finished {events : Events} {w' : World} (hc : s.1.heap.find? conn = some c)
    (hfd : s.1.connections.find? c.acceptFD = some conn) (hs : c.state = .WRITING) (hout : events.epollout = true)
    (hwrite : Connection.handleWrite (k.sys s) (c, s.2) = (.ok (), c', w')) (hfinished : c'.state = .FINISHED)
    (hrun : handleConnection k conn events s = (.ok (), s')) :
    ∃ pipe w'', s' = (remove c.acceptFD conn (unregisterPipe pipe (put conn c' s.1)), w'') := by
  have hserve : serveConnection k conn events s = (.ok (), put conn c' s.1, w') := by
    rw [serveConnection_writes hc hs hout, deref_eq hc, hwrite]
  have hguarded : guarded k conn (serveConnection k conn events) s = (.ok (), put conn c' s.1, w') := by
    rw [guarded]
    exact Eff.tryCatch_ok hserve
  obtain ⟨w'', hdrop, -⟩ := dropConnection_known (k := k) (s := (put conn c' s.1, w')) hfd (find?_put conn c' s.1)
  rw [handleConnection, Eff.bind_ok (deref_read hc _), Eff.bind_ok hguarded,
    Eff.bind_ok (getState_eq (s := (put conn c' s.1, w')) (find?_put conn c' s.1)), hfinished] at hrun
  exact ⟨_, w'', (Prod.mk.inj (hrun.symm.trans hdrop)).2⟩

/-- An answer that meets a client that is gone is answered anew, and none of it is sent. -/
theorem handleConnection_broken {events : Events} (hc : s.1.heap.find? conn = some c) (hu : Unsent c)
    (hout : events.epollout = true) (hbroken : Response.Broken (k.sys s) c.response s.2)
    (hrun : handleConnection k conn events s = (.ok (), s')) :
    ∃ c' w', Unsent c' ∧ c'.acceptFD = c.acceptFD ∧ s' = (watch c.acceptFD (mask .WRITING) (put conn c' s.1), w') := by
  rw [handleConnection, Eff.bind_ok (deref_read hc _)] at hrun
  obtain ⟨_, s₁, hguard, hrun⟩ := Eff.bind_eq_ok.1 hrun
  obtain ⟨w₁, hwrite, -⟩ := handleWrite_broken hu hbroken
  obtain ⟨c₁, hc₁⟩ : ∃ c₁, c₁ = { c with lastActivity := s.2.now } := ⟨_, rfl⟩
  have hserve : serveConnection k conn events s =
      (.error (.client 502 "SIGPIPE while sending response header"), put conn c₁ s.1, w₁) := by
    rw [serveConnection_writes hc hu.state hout, deref_eq hc, hwrite, hc₁]
  have hask : guarded k conn (serveConnection k conn events) s =
      (tryCatch (serveConnection k conn events) fun e => deref conn (Connection.onException (k.sys s) e)) s := rfl
  rw [hask, Eff.tryCatch_apply, hserve] at hguard
  obtain ⟨c', w', hpage, rfl⟩ := (deref_ok (find?_put conn c₁ s.1)).1 hguard
  have hsteady : Steady World.Offline (c₁, w₁) (c', w') := (steady_onException _ _).of_ok hpage
  have hhead : KeepsHead (c₁, w₁) (c', w') := (keepsHead_onException _ _).of_ok hpage
  have hstate : c'.state = .WRITING := onException_ok hpage
  rw [put_put, Eff.bind_ok (getState_eq (find?_put conn c' s.1)), hstate] at hrun
  refine ⟨c', w'.ticked, ⟨hstate, hhead ?_⟩, ?_, addPollFd_ok hrun⟩
  · rw [hc₁]
    exact hu.head
  · rw [hsteady.client.acceptFD, hc₁]

theorem changes_connection {events : Events} (hfd : s.1.connections.find? c.acceptFD = some conn)
    (hc : s.1.heap.find? conn = some c) (hidle : events.epollin = true → c.state ≠ .PROCESSING)
    (hwhy : events.epollout = true → ¬ Response.Broken (k.sys s) c.response s.2 → why c.acceptFD)
    (hrun : handleConnection k conn events s = (.ok (), s')) : Changes why s.1 s'.1 := by
  by_cases hs : Unsent c ∧ ¬ why c.acceptFD
  · obtain ⟨hu, hnot⟩ := hs
    rcases hout : events.epollout with _ | _
    · rw [handleConnection_answered hc hu.state hout hrun]
      exact .single (.same rfl rfl rfl rfl)
    · have hbroken := not_not.1 fun h => hnot (hwhy hout h)
      obtain ⟨c', w', hu', hfd', rfl⟩ := handleConnection_broken hc hu hout hbroken hrun
      exact .single (.changed conn c c' hc hfd' (fun _ _ => hu') rfl rfl rfl rfl)
  have hwhy' (hu : Unsent c) : why c.acceptFD := not_not.1 fun h => hs ⟨hu, h⟩
  obtain ⟨c', w', hserves, ⟨-, rfl⟩ | ⟨hnot, rfl⟩⟩ := handleConnection_ok hc hfd hidle hrun
  · rw [remove_put]
    exact changes_remove hfd hc hwhy'
  have hchange : Change why s.1 (watch c.acceptFD (mask c'.state) (enqueueIf c c' conn (put conn c' s.1))) := by
    rw [enqueueIf, enqueue]
    split_ifs <;> exact .changed conn c c' hc hserves.steady.client.acceptFD (fun hu h => absurd (hwhy' hu) h) rfl rfl rfl rfl
  exact .single hchange

theorem changes_event {events : Events} {rest : List (Nat × Events)} (hk : Honest k) (h : Inv s.1)
    (hidle : events.epollin = true → Idle s.1 fd) (hrun : handleEvent k fd events s = (.ok (), s')) :
    Changes (Served k (.batch ((fd, events) :: rest)) s) s.1 s'.1 := by
  rw [handleEvent, Eff.obj_bind] at hrun
  split at hrun
  · exact changes_cgiPipeEvent h hrun
  split at hrun
  · rename_i hhup
    split at hrun
    · rcases hconn : s.1.connections.find? fd with _ | conn
      · rw [dropConnection_unknown hconn] at hrun
        cases hrun
        exact .single (.same rfl rfl rfl rfl)
      · obtain ⟨c, hc, -⟩ := h.table.live fd conn hconn
        obtain ⟨w', hdrop, -⟩ := dropConnection_known (k := k) hconn hc
        rw [hdrop] at hrun
        cases hrun
        exact changes_remove hconn hc fun _ => ⟨events, rest, rfl, hhup.imp_right .inl⟩
    · cases hrun
      exact .refl
  split at hrun
  · obtain ⟨n, t, hask, hrun⟩ := Eff.bind_eq_ok.1 hrun
    cases hask
    exact changes_acceptLoop hk _ s hrun
  rcases hconn : s.1.connections.find? fd with _ | conn
  · rw [hconn] at hrun
    cases hrun
    exact .refl
  rw [hconn] at hrun
  obtain ⟨c, hc, rfl⟩ := h.table.live fd conn hconn
  exact changes_connection hconn hc (fun hin => hidle hin conn c hconn hc)
    (fun hout hpeer => ⟨events, rest, rfl, .inr (.inr ⟨hout, conn, c, hconn, hc, hpeer⟩)⟩) hrun

/-- What a turn does to the connections. -/
theorem Turn.changes (hk : Honest k) (h : Inv s.1) (hpending : Pending s.1 p) (hturn : Turn k p s p' s') :
    Changes (Served k p s) s.1 s'.1 := by
  cases hturn with
  | roundRobinDone | sweepLater | dropDone | sweepCgiNone _ | sweepCgi | killDone | waitNone | batchDone | wait => exact .refl
  | pass | sweep => exact .single (.same rfl rfl rfl rfl)
  | process _ hmem hrun => exact changes_processNext h hmem hrun
  | drop hrun => exact changes_dropTimedOut h hrun
  | kill hrun => exact changes_killTimedOut h hrun
  | event hrun => exact changes_event hk h (hpending.2 _ List.mem_cons_self) hrun

/-! ### Which connection is which -/

/-- The connection that was made as number `serial` is in the map. -/
def Connected (s : ServerManager) (serial : Nat) : Prop :=
  ∃ fd conn, s.connections.find? fd = some conn ∧ s.serial conn = serial

/-- The connections are alive, and their numbers tell them apart. -/
structure Numbered (s : ServerManager) : Prop where
  live : ∀ fd conn, s.connections.find? fd = some conn → ∃ c, s.heap.find? conn = some c ∧ c.acceptFD = fd
  lt_made : ∀ fd conn, s.connections.find? fd = some conn → s.serial conn < s.made
  unique : ∀ fd conn fd' conn', s.connections.find? fd = some conn → s.connections.find? fd' = some conn' →
    s.serial conn = s.serial conn' → fd = fd'

section Numbered

variable {s s' : ServerManager}

theorem Numbered.of_sub (h : Numbered s)
    (hsub : ∀ fd conn, s'.connections.find? fd = some conn → s.connections.find? fd = some conn)
    (hlive : ∀ fd conn, s'.connections.find? fd = some conn → ∃ c, s'.heap.find? conn = some c ∧ c.acceptFD = fd)
    (hserial : s'.serial = s.serial) (hmade : s'.made = s.made) : Numbered s' := by
  refine ⟨hlive, fun fd conn hc => ?_, fun fd conn fd' conn' hc hc' => ?_⟩
  · rw [hserial, hmade]
    exact h.lt_made fd conn (hsub fd conn hc)
  · rw [hserial]
    exact h.unique fd conn fd' conn' (hsub fd conn hc) (hsub fd' conn' hc')

theorem Numbered.change (h : Numbered s) (hchange : Change why s s') : Numbered s' := by
  cases hchange with
  | same hconns hheap hserial hmade =>
    refine h.of_sub (fun fd conn hc => hconns ▸ hc) (fun fd conn hc => ?_) hserial hmade
    rw [hheap]
    exact h.live fd conn (hconns ▸ hc)
  | changed a c c' hc hfd _ hconns hheap hserial hmade =>
    refine h.of_sub (fun fd conn hconn => hconns ▸ hconn) (fun fd conn hconn => ?_) hserial hmade
    rw [hconns] at hconn
    obtain ⟨d, hd, rfl⟩ := h.live fd conn hconn
    by_cases ha : conn = a
    · rw [ha] at hd ⊢
      cases hc.symm.trans hd
      exact ⟨c', by rw [hheap, OrdMap.find?_insert_self], hfd⟩
    · exact ⟨d, by rw [hheap, OrdMap.find?_insert_of_ne _ ha, hd], rfl⟩
  | removed g a c hconn hc _ hconns hheap hserial hmade =>
    have hsub (fd conn : Nat) (hc : s'.connections.find? fd = some conn) : fd ≠ g ∧ s.connections.find? fd = some conn := by
      rw [hconns] at hc
      exact OrdMap.find?_erase_eq_some.1 hc
    refine h.of_sub (fun fd conn hc => (hsub fd conn hc).2) (fun fd conn hc' => ?_) hserial hmade
    obtain ⟨hne, hold⟩ := hsub fd conn hc'
    obtain ⟨d, hd, rfl⟩ := h.live fd conn hold
    have ha : conn ≠ a := by
      rintro rfl
      obtain ⟨e, he, hfd⟩ := h.live g conn hconn
      cases hd.symm.trans he
      exact hne hfd
    exact ⟨d, by rw [hheap, OrdMap.find?_erase, if_neg ha, hd], rfl⟩
  | added g a now conf hnew hfd hconns hheap hserial hmade =>
    have hold {fd conn : Nat} (hc : s.connections.find? fd = some conn) : conn ≠ a := by
      rintro rfl
      obtain ⟨d, hd, -⟩ := h.live fd conn hc
      rw [hnew] at hd
      cases hd
    have hcases {fd conn : Nat} (hc : s'.connections.find? fd = some conn) :
        fd = g ∧ conn = a ∧ s'.serial conn = s.made ∨
          s.connections.find? fd = some conn ∧ s'.serial conn = s.serial conn := by
      rw [hconns] at hc
      rcases OrdMap.find?_insert_eq_some.1 hc with ⟨rfl, rfl⟩ | ⟨-, hc⟩
      · exact .inl ⟨rfl, rfl, by rw [hserial, Function.update_self]⟩
      · exact .inr ⟨hc, by rw [hserial, Function.update_of_ne (hold hc)]⟩
    refine ⟨fun fd conn hc => ?_, fun fd conn hc => ?_, fun fd conn fd' conn' hc hc' heq => ?_⟩
    · rcases hcases hc with ⟨rfl, rfl, -⟩ | ⟨hc, -⟩
      · exact ⟨_, by rw [hheap, OrdMap.find?_insert_self], rfl⟩
      · obtain ⟨d, hd, hd'⟩ := h.live fd conn hc
        exact ⟨d, by rw [hheap, OrdMap.find?_insert_of_ne _ (hold hc), hd], hd'⟩
    · rw [hmade]
      rcases hcases hc with ⟨-, -, heq⟩ | ⟨hc, heq⟩
      · rw [heq]
        exact Nat.lt_succ_self _
      · rw [heq]
        exact (h.lt_made fd conn hc).trans (Nat.lt_succ_self _)
    · rcases hcases hc with ⟨rfl, -, hs⟩ | ⟨hc, hs⟩ <;> rcases hcases hc' with ⟨rfl, -, hs'⟩ | ⟨hc', hs'⟩
      · rfl
      · have := h.lt_made fd' conn' hc'
        omega
      · have := h.lt_made fd conn hc
        omega
      · exact h.unique fd conn fd' conn' hc hc' (by rw [← hs, ← hs', heq])

/-- A connection in the map was there before, or is the one that was made. -/
theorem Change.origin (h : Change why s s') (hnumbered : Numbered s) (hc : s'.connections.find? fd = some conn) :
    s.connections.find? fd = some conn ∧ s'.serial conn = s.serial conn ∨ s'.serial conn = s.made := by
  cases h with
  | same hconns _ hserial _ | changed _ _ _ _ _ _ hconns _ hserial _ =>
    rw [hconns] at hc
    exact .inl ⟨hc, by rw [hserial]⟩
  | removed _ _ _ _ _ _ hconns _ hserial _ =>
    rw [hconns] at hc
    exact .inl ⟨(OrdMap.find?_erase_eq_some.1 hc).2, by rw [hserial]⟩
  | added g a _ _ hnew _ hconns _ hserial _ =>
    rw [hconns] at hc
    rcases OrdMap.find?_insert_eq_some.1 hc with ⟨-, rfl⟩ | ⟨-, hold⟩
    · exact .inr (by rw [hserial, Function.update_self])
    · have hne : conn ≠ a := by
        rintro rfl
        obtain ⟨d, hd, -⟩ := hnumbered.live fd conn hold
        rw [hnew] at hd
        cases hd
      exact .inl ⟨hold, by rw [hserial, Function.update_of_ne hne]⟩

theorem Change.made_le (h : Change why s s') : s.made ≤ s'.made := by
  cases h with
  | same _ _ _ hmade | changed _ _ _ _ _ _ _ _ _ hmade | removed _ _ _ _ _ _ _ _ _ hmade => exact hmade.ge
  | added _ _ _ _ _ _ _ _ _ hmade => omega

/-- The number was given to a connection that is gone. -/
def Gone (s : ServerManager) (serial : Nat) : Prop := serial < s.made ∧ ¬ Connected s serial

theorem Gone.change (h : Gone s serial) (hnumbered : Numbered s) (hchange : Change why s s') : Gone s' serial := by
  refine ⟨h.1.trans_le hchange.made_le, ?_⟩
  rintro ⟨fd, conn, hc, rfl⟩
  rcases hchange.origin hnumbered hc with ⟨hold, heq⟩ | heq
  · exact h.2 ⟨fd, conn, hold, heq.symm⟩
  · exact absurd h.1 (by omega)

/-- The connection at `fd` is number `serial`, and it has an answer none of which is sent. -/
structure Answered (s : ServerManager) (fd conn serial : Nat) : Prop where
  connected : s.connections.find? fd = some conn
  serial : s.serial conn = serial
  unsent : ∃ c, s.heap.find? conn = some c ∧ Unsent c

/-- A connection with an answer stays until its client is served. -/
theorem Answered.change (h : Answered s fd conn serial) (hnumbered : Numbered s) (hwhy : ¬ why fd)
    (hchange : Change why s s') : Answered s' fd conn serial := by
  obtain ⟨hconn, hs, c, hc, hunsent⟩ := h
  cases hchange with
  | same hconns hheap hserial _ => exact ⟨by rw [hconns, hconn], by rw [hserial, hs], c, by rw [hheap, hc], hunsent⟩
  | changed a d d' hd _ hkeeps hconns hheap hserial _ =>
    refine ⟨by rw [hconns, hconn], by rw [hserial, hs], ?_⟩
    rw [hheap]
    by_cases ha : conn = a
    · obtain ⟨e, he, hfd⟩ := hnumbered.live fd conn hconn
      rw [ha] at hc he ⊢
      cases hc.symm.trans hd
      cases he.symm.trans hd
      exact ⟨d', OrdMap.find?_insert_self .., hkeeps hunsent (hfd.symm ▸ hwhy)⟩
    · exact ⟨c, by rw [OrdMap.find?_insert_of_ne _ ha, hc], hunsent⟩
  | removed g a d hg hd hremoved hconns hheap hserial _ =>
    have hne : conn ≠ a := by
      rintro rfl
      cases hc.symm.trans hd
      obtain ⟨e, he, rfl⟩ := hnumbered.live fd conn hconn
      obtain ⟨e', he', rfl⟩ := hnumbered.live g conn hg
      cases he.symm.trans he'
      exact hwhy (hremoved hunsent)
    have hfd : fd ≠ g := by
      rintro rfl
      exact hne (Option.some.inj (hconn.symm.trans hg))
    exact ⟨by rw [hconns, OrdMap.find?_erase, if_neg hfd, hconn], by rw [hserial, hs], c,
      by rw [hheap, OrdMap.find?_erase, if_neg hne, hc], hunsent⟩
  | added g a now conf hnew hg hconns hheap hserial _ =>
    have hne : conn ≠ a := by
      rintro rfl
      rw [hnew] at hc
      cases hc
    have hfd : fd ≠ g := by
      rintro rfl
      rw [hg] at hconn
      cases hconn
    exact ⟨by rw [hconns, OrdMap.find?_insert_of_ne _ hfd, hconn], by rw [hserial, Function.update_of_ne hne, hs], c,
      by rw [hheap, OrdMap.find?_insert_of_ne _ hne, hc], hunsent⟩

end Numbered

/-! ### Runs -/

/-- What a change keeps of numbered connections, any number of them does. -/
theorem changes_keep (I : ServerManager → Prop) (hI : ∀ {s s'}, Numbered s → I s → Change why s s' → I s')
    {s s' : ServerManager} (hnumbered : Numbered s) (hs : I s) (h : Changes why s s') : I s' := by
  have hboth : Numbered s' ∧ I s' := by
    induction h with
    | refl => exact ⟨hnumbered, hs⟩
    | tail _ hchange ih => exact ⟨ih.1.change hchange, hI ih.1 ih.2 hchange⟩
  exact hboth.2

section Run

variable {n : Nat} {p : Nat → Point} {s : Nat → ServerState} {i j m l : Nat}

theorem Run.changes (hk : Honest k) (hrun : Run k n p s) (hl : l < n) :
    Changes (Served k (p l) (timed k (p l) (s l))) (s l).1 (s (l + 1)).1 := by
  obtain ⟨hinv, hpending⟩ := reach_inv hk (hrun.reach hl.le)
  exact Turn.changes (s := timed k (p l) (s l)) hk hinv hpending (next_turn (hrun.next l hl))

theorem Run.numbered (hk : Honest k) (hrun : Run k n p s) (hl : l ≤ n) : Numbered (s l).1 := by
  induction l with
  | zero =>
    have hnone (fd conn : Nat) : (s 0).1.connections.find? fd ≠ some conn := by
      rw [hrun.fresh.connections]
      exact nofun
    exact ⟨fun fd conn hc => absurd hc (hnone fd conn), fun fd conn hc => absurd hc (hnone fd conn),
      fun fd conn _ _ hc => absurd hc (hnone fd conn)⟩
  | succ l ih =>
    have hl' : l < n := by omega
    exact changes_keep Numbered (fun hn _ hchange => hn.change hchange) (ih hl'.le) (ih hl'.le) (hrun.changes hk hl')

theorem Run.gone (hk : Honest k) (hrun : Run k n p s) {l' : Nat} (hll : l ≤ l') (hl : l' ≤ n)
    (h : Gone (s l).1 serial) : Gone (s l').1 serial := by
  induction l', hll using Nat.le_induction with
  | base => exact h
  | succ l' hll ih =>
    have hl' : l' < n := by omega
    exact changes_keep (Gone · serial) (fun hn hg hchange => hg.change hn hchange) (hrun.numbered hk hl'.le)
      (ih hl'.le) (hrun.changes hk hl')

/-- The connection has an answer none of which is sent, or the sweep comes to it. -/
def Awaits (p : Point) (s : ServerManager) (fd conn serial : Nat) : Prop :=
  Answered s fd conn serial ∨ (∃ toDrop, p = .dropTimedOut toDrop ∧ fd ∈ toDrop) ∧
    s.connections.find? fd = some conn ∧ s.serial conn = serial ∧ ∃ c, s.heap.find? conn = some c ∧ c.serverConf ≠ none

/-- A turn of the sweep answers the connection, or leaves it where it is. -/
theorem dropTimedOut_found {g : Nat} {s s' : ServerState} (h : Inv s.1) (hconn : s.1.connections.find? fd = some conn)
    (hc : s.1.heap.find? conn = some c) (hconf : c.serverConf ≠ none) (hrun : dropTimedOut k g s = (.ok (), s')) :
    s'.1.connections.find? fd = some conn ∧ s'.1.serial conn = s.1.serial conn ∧
      (∃ c', s'.1.heap.find? conn = some c' ∧ c'.serverConf ≠ none) ∧ (g = fd → Answered s'.1 fd conn (s.1.serial conn)) := by
  rcases hg : s.1.connections.find? g with _ | a
  · rw [dropTimedOut, Eff.obj_bind, hg] at hrun
    cases hrun
    exact ⟨hconn, rfl, ⟨c, hc, hconf⟩, fun heq => by rw [heq, hconn] at hg; cases hg⟩
  obtain ⟨d, hd, -⟩ := h.table.live g a hg
  obtain ⟨d', w', hpage, rfl⟩ := dropTimedOut_run hg hd hrun
  have hsteady : Steady World.Offline (d, s.2) (d', w') := (steady_triggerError _ _).of_ok hpage
  have hfind : (put a d' s.1).heap.find? a = some d' := find?_put a d' s.1
  refine ⟨hconn, rfl, ?_, fun heq => ?_⟩
  · by_cases ha : conn = a
    · rw [ha] at hc ⊢
      cases hc.symm.trans hd
      exact ⟨d', hfind, hsteady.client.serverConf ▸ hconf⟩
    · exact ⟨c, (OrdMap.find?_insert_of_ne _ ha _).trans hc, hconf⟩
  · rw [heq, hconn] at hg
    cases hg
    cases hc.symm.trans hd
    exact ⟨hconn, rfl, d', hfind, triggerError_unsent hconf hpage⟩

theorem Run.awaits (hk : Honest k) (hrun : Run k n p s) (hl : l < n) (h : Awaits (p l) (s l).1 fd conn serial)
    (hquiet : ¬ Served k (p l) (timed k (p l) (s l)) fd) : Awaits (p (l + 1)) (s (l + 1)).1 fd conn serial := by
  rcases h with h | ⟨⟨toDrop, hp, hmem⟩, hconn, rfl, c, hc, hconf⟩
  · exact .inl (changes_keep (Answered · fd conn serial) (fun hn ha hchange => ha.change hn hquiet hchange)
      (hrun.numbered hk hl.le) h (hrun.changes hk hl))
  obtain ⟨hinv, -⟩ := reach_inv hk (hrun.reach hl.le)
  have hturn := next_turn (hrun.next l hl)
  rw [hp] at hturn
  generalize p (l + 1) = p', s (l + 1) = s' at hturn ⊢
  cases hturn with
  | dropDone => cases hmem
  | @drop g rest _ _ hstep =>
    obtain ⟨hconn', hserial, hconf', hanswered⟩ :=
      dropTimedOut_found (s := timed k (.dropTimedOut (g :: rest)) (s l)) hinv hconn hc hconf hstep
    rcases List.mem_cons.1 hmem with rfl | hrest
    · exact .inl (hanswered rfl)
    · exact .inr ⟨⟨rest, rfl, hrest⟩, hconn', hserial, hconf'⟩

theorem Run.awaits_to (hk : Honest k) (hrun : Run k n p s) {l' : Nat} (hll : l ≤ l') (hl : l' ≤ n)
    (h : Awaits (p l) (s l).1 fd conn serial) (hquiet : ∀ r, l ≤ r → r < l' → ¬ Served k (p r) (timed k (p r) (s r)) fd) :
    Awaits (p l') (s l').1 fd conn serial := by
  induction l', hll using Nat.le_induction with
  | base => exact h
  | succ l' hll ih =>
    exact hrun.awaits hk (by omega) (ih (by omega) fun r hr hr' => hquiet r hr (by omega)) (hquiet l' hll (by omega))

/-- In the turn before which the state is `s` the connection is processed, bytes are read from it, or the socket takes bytes
that `handleWrite` sends. -/
def Active (k : Kernel) (p : Point) (s : ServerState) (serial : Nat) : Prop :=
  ∃ fd conn, s.1.connections.find? fd = some conn ∧ s.1.serial conn = serial ∧
    (called p s.1 = some conn ∨ ∃ events rest c, p = .batch ((fd, events) :: rest) ∧
      ¬ (events.epollhup ∨ events.epollerr) ∧ s.1.heap.find? conn = some c ∧
        (events.epollin = true ∧ c.state = .READING ∧ (∃ b data, k.recv s = some (b :: data)) ∨
          events.epollout = true ∧ c.state = .WRITING ∧
            (Connection.handleWrite (k.sys s) (c, s.2)).2.2.outbox fd ≠ s.2.outbox fd))

/-- The turns `i` and `j` begin two effective sweeps; the second one is over at `m`. -/
structure TwoSweeps (n : Nat) (p : Nat → Point) (i j m : Nat) : Prop where
  first : p i = .sweepTimeouts ∧ ∃ toDrop, p (i + 1) = .dropTimedOut toDrop
  second : p j = .sweepTimeouts ∧ ∃ toDrop, p (j + 1) = .dropTimedOut toDrop
  lt : i < j
  swept : p m = .sweepCgiTimeouts ∧ ∀ l, j < l → l < m → ∃ toDrop, p l = .dropTimedOut toDrop
  le : j < m ∧ m ≤ n

/-- What removes a connection from the map makes its number one that is gone. -/
theorem Gone.of_erase {s s' : ServerManager} (hnumbered : Numbered s) (hconn : s.connections.find? fd = some conn)
    (hconns : s'.connections = s.connections.erase fd) (hserial : s'.serial = s.serial) (hmade : s'.made = s.made) :
    Gone s' (s.serial conn) := by
  refine ⟨hmade ▸ hnumbered.lt_made fd conn hconn, ?_⟩
  rintro ⟨fd', conn', hconn', hserial'⟩
  rw [hconns] at hconn'
  rw [hserial] at hserial'
  obtain ⟨hne, hold⟩ := OrdMap.find?_erase_eq_some.1 hconn'
  exact hne (hnumbered.unique fd' conn' fd conn hold hconn hserial')

/-- Serving a connection that has an answer removes it, or sends bytes of the answer. -/
theorem Run.served (hk : Honest k) (hrun : Run k n p s) (hl : l < n) (h : Answered (s l).1 fd conn serial)
    (hserved : Served k (p l) (timed k (p l) (s l)) fd) :
    Gone (s (l + 1)).1 serial ∨ Active k (p l) (timed k (p l) (s l)) serial := by
  obtain ⟨events, rest, hp, hevents⟩ := hserved
  obtain ⟨hconn, rfl, c, hc, hu⟩ := h
  obtain ⟨hinv, -⟩ := reach_inv hk (hrun.reach hl.le)
  have hnumbered := hrun.numbered hk hl.le
  have hturn := next_turn (hrun.next l hl)
  have hfd : c.acceptFD = fd := by
    obtain ⟨d, hd, hd'⟩ := hnumbered.live fd conn hconn
    cases hc.symm.trans hd
    exact hd'
  have hpipe : ¬ (s l).1.cgiPipeToConn.contains fd = true := by
    simp [OrdMap.contains, hinv.not_pipe hconn]
  obtain ⟨t, ht⟩ : ∃ t, t = timed k (p l) (s l) := ⟨_, rfl⟩
  have hsame : t.1 = (s l).1 := by rw [ht]; rfl
  rw [← ht] at hturn hevents ⊢
  rw [← hsame] at hconn hc hpipe hnumbered hinv ⊢
  rw [hp] at hturn ⊢
  generalize p (l + 1) = p', s (l + 1) = s' at hturn ⊢
  cases hturn with
  | event hstep =>
    rw [handleEvent, Eff.obj_bind, if_neg (by exact hpipe)] at hstep
    by_cases hhup : events.epollhup ∨ events.epollerr
    · left
      obtain ⟨w', hdrop, -⟩ := dropConnection_known (k := k) (s := t) hconn hc
      rw [if_pos hhup, if_pos (by exact hinv.table.fdListen fd conn hconn), hdrop] at hstep
      cases hstep
      cases c.getCgiPipeFd <;> exact .of_erase hnumbered hconn rfl rfl rfl
    · obtain ⟨hout, conn', c', hconn', hc', hpeer⟩ := (or_assoc.2 hevents).resolve_left hhup
      cases hconn.symm.trans hconn'
      cases hc.symm.trans hc'
      rcases handleWrite_unbroken hu hpeer with ⟨d, w', hwrite, hd, hdfd⟩ | hbytes
      · left
        rw [← hfd] at hconn hstep
        rw [if_neg hhup, if_neg (by exact hinv.table.fdListen _ conn hconn), hconn] at hstep
        obtain ⟨pipe, w'', rfl⟩ := handleConnection_finished hc hconn hu.state hout hwrite hd hstep
        cases pipe <;> exact .of_erase hnumbered hconn rfl rfl rfl
      · rw [hfd] at hbytes
        exact .inr ⟨fd, conn, hconn, rfl, .inr ⟨events, rest, c, rfl, hhup, hc, .inr ⟨hout, hu.state, hbytes⟩⟩⟩

/-- A connection that awaits its answer or has it is not active before it is served. -/
theorem Run.inactive (hk : Honest k) (hrun : Run k n p s) (hl : l ≤ n) (h : Awaits (p l) (s l).1 fd conn serial)
    (hquiet : ¬ Served k (p l) (timed k (p l) (s l)) fd) : ¬ Active k (p l) (timed k (p l) (s l)) serial := by
  rintro ⟨fd', conn', hconn', hserial', hactive⟩
  rcases h with ⟨hconn, hserial, c, hc, hu⟩ | ⟨⟨toDrop, hp, -⟩, -⟩
  swap
  · rcases hactive with hcalled | ⟨events, rest, c, hbatch, -⟩
    · rw [hp] at hcalled
      cases hcalled
    · rw [hp] at hbatch
      cases hbatch
  obtain rfl := (hrun.numbered hk hl).unique fd' conn' fd conn hconn' hconn (hserial'.trans hserial.symm)
  cases hconn.symm.trans hconn'
  rcases hactive with hcalled | ⟨events, rest, d, hbatch, -, hd, ⟨-, hread, -⟩ | ⟨hout, -, hbytes⟩⟩
  · have hin : conn ∈ (s l).1.processingSet := by
      unfold called at hcalled
      split at hcalled
      · split at hcalled
        · rename_i hin
          cases hcalled
          exact hin.2
        · cases hcalled
      · cases hcalled
    obtain ⟨d, hd, hprocessing⟩ := (reach_inv hk (hrun.reach hl)).1.queue.queued conn hin
    cases hc.symm.trans hd
    rw [hu.state] at hprocessing
    cases hprocessing
  · cases hc.symm.trans hd
    rw [hu.state] at hread
    cases hread
  · cases hc.symm.trans hd
    have hbroken := not_not.1 fun hpeer => hquiet ⟨events, rest, hbatch, .inr (.inr ⟨hout, conn, c, hconn, hc, hpeer⟩)⟩
    obtain ⟨w', hwrite, hsame⟩ := handleWrite_broken hu hbroken
    rw [hwrite] at hbytes
    exact hbytes (congrFun hsame _)

/-- The connection that the first sweep finds awaits its answer from then on. -/
theorem Run.awaits_from (hk : Honest k) (hrun : Run k n p s) (hsweeps : TwoSweeps n p i j m)
    (hconn : (s i).1.connections.find? fd = some conn) (hc : (s i).1.heap.find? conn = some c) (hconf : c.serverConf ≠ none)
    (hidle : c.hasTimedOut CONNECTION_TIMEOUT_S (k.now (p i) (s i))) (hil : i < l) (hln : l ≤ n)
    (hquiet : ∀ r, i < r → r < l → ¬ Served k (p r) (timed k (p r) (s r)) fd) :
    Awaits (p l) (s l).1 fd conn ((s i).1.serial conn) := by
  obtain ⟨⟨hi, toDrop, hi'⟩, -, hij, -, hjm, hmn⟩ := hsweeps
  refine hrun.awaits_to hk hil hln ?_ fun r hr => hquiet r (by omega)
  have hturn := next_turn (hrun.next i (by omega))
  rw [hi] at hturn hidle
  rw [hi'] at hturn ⊢
  generalize s (i + 1) = s' at hturn ⊢
  cases hturn with
  | sweep =>
    refine .inr ⟨⟨_, rfl, ?_⟩, hconn, rfl, c, hc, hconf⟩
    refine List.mem_map.2 ⟨(fd, conn), List.mem_filter.2 ⟨OrdMap.mem_entries_of_find? hconn, ?_⟩, rfl⟩
    show ((s i).1.heap.find? conn).any _ = true
    rw [hc]
    exact hidle

theorem Awaits.answered {p : Point} {s : ServerManager} (h : Awaits p s fd conn serial)
    (hp : ∀ toDrop, p ≠ .dropTimedOut toDrop) : Answered s fd conn serial :=
  h.resolve_right fun ⟨⟨toDrop, hdrop, _⟩, _⟩ => hp toDrop hdrop

/-- Unless it is served, the connection outlives the second sweep, and is not active. -/
theorem Run.stays (hk : Honest k) (hrun : Run k n p s) (hsweeps : TwoSweeps n p i j m)
    (hconn : (s i).1.connections.find? fd = some conn) (hc : (s i).1.heap.find? conn = some c) (hconf : c.serverConf ≠ none)
    (hidle : c.hasTimedOut CONNECTION_TIMEOUT_S (k.now (p i) (s i)))
    (hquiet : ∀ l, i < l → l < j → ¬ Served k (p l) (timed k (p l) (s l)) fd) :
    Connected (s m).1 ((s i).1.serial conn) ∧
      ∀ l, i < l → l < j → ¬ Active k (p l) (timed k (p l) (s l)) ((s i).1.serial conn) := by
  have hawaits (l : Nat) (hil : i < l) (hln : l ≤ n) (hquiet : ∀ r, i < r → r < l → ¬ Served k (p r) (timed k (p r) (s r)) fd) :=
    hrun.awaits_from hk hsweeps hconn hc hconf hidle hil hln hquiet
  obtain ⟨-, ⟨hj, -⟩, hij, ⟨hm, hdrops⟩, hjm, hmn⟩ := hsweeps
  have hquiet' (l : Nat) (hil : i < l) (hlm : l < m) : ¬ Served k (p l) (timed k (p l) (s l)) fd := by
    rcases Nat.lt_trichotomy l j with hlj | rfl | hlj
    · exact hquiet l hil hlj
    · rw [hj]
      rintro ⟨_, _, hbatch, -⟩
      cases hbatch
    · obtain ⟨toDrop, hdrop⟩ := hdrops l hlj hlm
      rw [hdrop]
      rintro ⟨_, _, hbatch, -⟩
      cases hbatch
  have hend := (hawaits m (by omega) hmn hquiet').answered fun toDrop h => by rw [hm] at h; cases h
  refine ⟨⟨fd, conn, hend.connected, hend.serial⟩, fun l hil hlj => ?_⟩
  exact hrun.inactive hk (by omega) (hawaits l hil (by omega) fun r hr hrl => hquiet r hr (by omega)) (hquiet l hil hlj)

/-- A connection that one sweep finds idle is gone after a later one, or was active in between, exactly when its client was
served in between: it was reported with a hang-up or an error, or as ready to be written to while `send` does not find it
gone. The client has a configuration, as every client of a server that was set up has. -/
theorem swept_iff (hk : Honest k) (hrun : Run k n p s) (hsweeps : TwoSweeps n p i j m)
    (hconn : (s i).1.connections.find? fd = some conn) (hc : (s i).1.heap.find? conn = some c) (hconf : c.serverConf ≠ none)
    (hidle : c.hasTimedOut CONNECTION_TIMEOUT_S (k.now (p i) (s i))) :
    (Connected (s m).1 ((s i).1.serial conn) →
        ∃ l, i < l ∧ l < j ∧ Active k (p l) (timed k (p l) (s l)) ((s i).1.serial conn)) ↔
      ∃ l, i < l ∧ l < j ∧ Served k (p l) (timed k (p l) (s l)) fd := by
  constructor
  · intro h
    by_contra hnone
    obtain ⟨hconnected, hinactive⟩ :=
      hrun.stays hk hsweeps hconn hc hconf hidle fun l hil hlj hr => hnone ⟨l, hil, hlj, hr⟩
    obtain ⟨l, hil, hlj, hactive⟩ := h hconnected
    exact hinactive l hil hlj hactive
  · intro h hconnected
    classical
    -- the first turn that serves the client
    obtain ⟨hil, hlj, hserved⟩ := Nat.find_spec h
    have hfirst (r : Nat) (hr : i < r) (hrl : r < Nat.find h) : ¬ Served k (p r) (timed k (p r) (s r)) fd := fun hrep =>
      Nat.find_min h hrl ⟨hr, by omega, hrep⟩
    have hjm := hsweeps.le
    have hans := (hrun.awaits_from hk hsweeps hconn hc hconf hidle hil (by omega) hfirst).answered fun toDrop hdrop => by
      obtain ⟨_, _, hbatch, -⟩ := hserved
      rw [hdrop] at hbatch
      cases hbatch
    rcases hrun.served hk (by omega) hans hserved with hgone | hactive
    · have hlm : Nat.find h + 1 ≤ m := by omega
      exact absurd hconnected (hrun.gone hk hlm hjm.2 hgone).2
    · exact ⟨_, hil, hlj, hactive⟩

end Run

/-! ### A client that does nothing -/

/-- One client comes, sends nothing and takes nothing. The clock moves on by 100 seconds at each iteration. -/
def silent : Kernel where
  sys _ := { Sys.calm with pipe := fun _ => none }
  now p s := if p = .roundRobin 0 then s.2.now + 100 else s.2.now
  recv _ := none
  waiting _ := 1
  accept s := if isFree s.1 5 then .client 5 true else .failed
  address s := s.1.heap.keys.foldr max 0 + 1
  readPipe _ := none
  epollWait s := some (askedFor s.1 (if s.1.made = 0 then [(3, { epollin := true })] else []))

theorem silent_honest : Honest silent where
  address s := find?_above s.1.heap
  accept s fd b h := by
    rw [silent] at h
    dsimp only at h
    split at h
    · rename_i hfree
      cases h
      exact isFree_iff hfree
    · cases h
  pipe s t fd h := by cases h
  once s events h := by
    cases h
    refine List.Nodup.sublist (List.Sublist.map _ List.filter_sublist) ?_
    split_ifs <;> decide
  asked s events h e he := by
    cases h
    exact askedFor_spec he

/-- Two sweeps find the client of `silent`. -/
structure SilentRun (p : Nat → Point) (s : Nat → ServerState) : Prop where
  run : Run silent 17 p s
  sweeps : TwoSweeps 17 p 8 14 17
  client : (s 8).1.connections.find? 5 = some 1
  idle : ∃ c, (s 8).1.heap.find? 1 = some c ∧ c.serverConf ≠ none ∧ c.hasTimedOut CONNECTION_TIMEOUT_S (silent.now (p 8) (s 8))
  quiet : ∀ l, 8 < l → l < 14 → ¬ Served silent (p l) (timed silent (p l) (s l)) 5

theorem exists_silentRun : ∃ p s, SilentRun p s := by
  have hend : (after silent 17 (.roundRobin 0) listening).isSome := by decide +kernel
  obtain ⟨⟨p', s'⟩, hafter⟩ := Option.isSome_iff_exists.1 hend
  obtain ⟨p, s, hrun, hstart, -⟩ := exists_run listening_fresh hafter
  have hafter (l : Nat) (hl : l ≤ 17) : after silent l (.roundRobin 0) listening = some (p l, s l) := hstart ▸ hrun.after hl
  have hpoint {l : Nat} (hl : l ≤ 17) {q : Point} (h : (after silent l (.roundRobin 0) listening).map (·.1) = some q) :
      p l = q := by
    rw [hafter l hl] at h
    exact Option.some.inj h
  have h8 : p 8 = .sweepTimeouts := hpoint (by decide) (by decide +kernel)
  have h9 : p 9 = .dropTimedOut [5] := hpoint (by decide) (by decide +kernel)
  have h10 : p 10 = .dropTimedOut [] := hpoint (by decide) (by decide +kernel)
  have h11 : p 11 = .sweepCgiTimeouts := hpoint (by decide) (by decide +kernel)
  have h12 : p 12 = .wait := hpoint (by decide) (by decide +kernel)
  have h13 : p 13 = .roundRobin 0 := hpoint (by decide) (by decide +kernel)
  have h14 : p 14 = .sweepTimeouts := hpoint (by decide) (by decide +kernel)
  have h15 : p 15 = .dropTimedOut [5] := hpoint (by decide) (by decide +kernel)
  have h16 : p 16 = .dropTimedOut [] := hpoint (by decide) (by decide +kernel)
  have h17 : p 17 = .sweepCgiTimeouts := hpoint (by decide) (by decide +kernel)
  have hstate : (after silent 8 (.roundRobin 0) listening).map (fun x => (x.2.1.connections.find? 5,
      (x.2.1.heap.find? 1).map fun c => (c.serverConf.isSome, c.hasTimedOut CONNECTION_TIMEOUT_S x.2.2.now))) =
        some (some 1, some (true, true)) := by decide +kernel
  rw [hafter 8 (by decide)] at hstate
  obtain ⟨hconn, hidle⟩ := Prod.mk.inj (Option.some.inj hstate)
  obtain ⟨c, hc, hboth⟩ := Option.map_eq_some_iff.1 hidle
  obtain ⟨hconf, hlong⟩ := Prod.mk.inj hboth
  refine ⟨p, s, hrun, ⟨⟨h8, _, h9⟩, ⟨h14, _, h15⟩, by decide, ⟨h17, fun l hl hl' => ?_⟩, by decide⟩, hconn,
    ⟨c, hc, Option.isSome_iff_ne_none.1 hconf, ?_⟩, fun l hl hl' => ?_⟩
  · obtain rfl | rfl : l = 15 ∨ l = 16 := by omega
    · exact ⟨_, h15⟩
    · exact ⟨_, h16⟩
  · rw [h8]
    exact hlong
  · rintro ⟨events, rest, hbatch, -⟩
    obtain rfl | rfl | rfl | rfl | rfl : l = 9 ∨ l = 10 ∨ l = 11 ∨ l = 12 ∨ l = 13 := by omega
    · rw [h9] at hbatch
      cases hbatch
    · rw [h10] at hbatch
      cases hbatch
    · rw [h11] at hbatch
      cases hbatch
    · rw [h12] at hbatch
      cases hbatch
    · rw [h13] at hbatch
      cases hbatch

theorem swept_iff_silent : ∃ p s, SilentRun p s ∧ ¬ (Connected (s 17).1 ((s 8).1.serial 1) →
    ∃ l, 8 < l ∧ l < 14 ∧ Active silent (p l) (timed silent (p l) (s l)) ((s 8).1.serial 1)) := by
  obtain ⟨p, s, h⟩ := exists_silentRun
  obtain ⟨c, hc, hconf, hidle⟩ := h.idle
  have hiff := swept_iff silent_honest h.run h.sweeps h.client hc hconf hidle
  refine ⟨p, s, h, fun hswept => ?_⟩
  obtain ⟨l, hl, hl', hserved⟩ := hiff.1 hswept
  exact h.quiet l hl hl' hserved

/-- The client is still there after the second sweep. -/
theorem idle_not_dropped : Honest silent ∧ ∃ p s, SilentRun p s ∧ Connected (s 17).1 ((s 8).1.serial 1) ∧
    ∀ l, 8 < l → l < 14 → ¬ Active silent (p l) (timed silent (p l) (s l)) ((s 8).1.serial 1) := by
  obtain ⟨p, s, h⟩ := exists_silentRun
  obtain ⟨c, hc, hconf, hidle⟩ := h.idle
  exact ⟨silent_honest, p, s, h, h.run.stays silent_honest h.sweeps h.client hc hconf hidle h.quiet⟩

end ServerManager

end LeftHookRoll
