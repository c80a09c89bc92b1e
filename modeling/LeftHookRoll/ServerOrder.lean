import LeftHookRoll.ServerSweep

/-!
# The way of a connection through the server

`Shift` says what a turn does to the connections, as `Change` does, and says more of each: a connection only
goes forward, and keeps its client. So each is read from once, and is given one answer.
-/

namespace LeftHookRoll

open Eff

namespace Connection

/-- How far a connection has come. -/
def rank : ConnectionState → Nat
  | .READING => 0
  | .PROCESSING => 1
  | .WAITING_FOR_CGI => 2
  | .WRITING => 3
  | .FINISHED => 4

structure Onward (c c' : Connection) : Prop where
  client : SameClient c c'
  rank_le : rank c.state ≤ rank c'.state

theorem Onward.refl (c : Connection) : Onward c c := ⟨.refl c, le_rfl⟩

theorem Onward.trans {c c' c'' : Connection} (h : Onward c c') (h' : Onward c' c'') : Onward c c'' :=
  ⟨h.client.trans h'.client, h.rank_le.trans h'.rank_le⟩

/-- An answer is the last step. -/
theorem rank_le_writing {state : ConnectionState} (h : state ≠ .FINISHED) : rank state ≤ rank .WRITING := by
  cases state <;> first | decide | exact absurd rfl h

end Connection

namespace ServerManager

open LeftHookRoll.Connection

/-- The connections and the sockets that are listened on. -/
structure SameLives (s s' : ServerManager) : Prop where
  connections : s'.connections = s.connections
  heap : s'.heap = s.heap
  serial : s'.serial = s.serial
  made : s'.made = s.made
  listenFds : s'.listenFds = s.listenFds
  confs : s'.listenFdToServerConf = s.listenFdToServerConf

/-- The configuration that a client of the socket gets. -/
def confOf (s : ServerManager) (listenFd : Nat) : Option ServerConf := (s.listenFdToServerConf.find? listenFd).getD none

inductive Shift (s s' : ServerManager) : Prop
  | same (h : SameLives s s')
  | changed (conn : Nat) (c c' : Connection) (hc : s.heap.find? conn = some c) (honward : Onward c c')
      (hunfinished : c'.state ≠ .FINISHED) (h : SameLives (put conn c' s) s')
  | removed (fd conn : Nat) (c : Connection) (hconn : s.connections.find? fd = some conn) (hc : s.heap.find? conn = some c)
      (h : SameLives (remove fd conn s) s')
  | added (listenFd fd conn now : Nat) (hlisten : listenFd ∈ s.listenFds) (hnew : s.heap.find? conn = none)
      (hfd : s.connections.find? fd = none) (h : SameLives (addClient fd conn now (confOf s listenFd) s) s')

abbrev Shifts : ServerManager → ServerManager → Prop := Relation.ReflTransGen Shift

section Shift

variable {s s' : ServerManager} {conn fd : Nat} {c c' : Connection}

/-- It is a change in the sense of the idle sweeps. -/
theorem Shift.change (h : Shift s s') : Change (fun _ => True) s s' := by
  cases h with
  | same h => exact .same h.connections h.heap h.serial h.made
  | changed conn c c' hc honward hunfinished h =>
    exact .changed conn c c' hc honward.client.acceptFD (fun _ hno => absurd trivial hno) h.connections h.heap h.serial h.made
  | removed fd conn c hconn hc h =>
    exact .removed fd conn c hconn hc (fun _ => trivial) h.connections h.heap h.serial h.made
  | added listenFd fd conn now _ hnew hfd h =>
    exact .added fd conn now _ hnew hfd h.connections h.heap h.serial h.made

theorem Shift.listens (h : Shift s s') : s'.listenFds = s.listenFds ∧ s'.listenFdToServerConf = s.listenFdToServerConf := by
  cases h with
  | same h | changed _ _ _ _ _ _ h | removed _ _ _ _ _ h | added _ _ _ _ _ _ _ h => exact ⟨h.listenFds, h.confs⟩

end Shift

/-! ### What the turns do -/

section Turns

variable {k : Kernel} {p p' : Point} {s s' : ServerState} {conn fd : Nat} {c c' : Connection}

/-- An answer is given. -/
theorem onward_answer (h : Inv s.1) (hc : s.1.heap.find? conn = some c) (hclient : SameClient c c') (hs : c'.state = .WRITING) :
    Onward c c' :=
  ⟨hclient, hs ▸ rank_le_writing (h.fits conn c hc).unfinished⟩

theorem unfinished_of_writing (hs : c'.state = .WRITING) : c'.state ≠ .FINISHED := by
  rw [hs]
  decide

theorem shifts_processNext {queue : List Nat} (h : Inv s.1) (hmem : conn ∈ s.1.processingSet)
    (hrun : processNext k conn ({ s.1 with processingQueue := queue }, s.2) = (.ok (), s')) : Shifts s.1 s'.1 := by
  obtain ⟨c, hc, hs⟩ := h.queue.queued conn hmem
  have hbuild := (h.fits conn c hc).building (.inr hs)
  obtain ⟨c', w', hown, hturn⟩ := processNext_ok (s := ({ s.1 with processingQueue := queue }, s.2)) hc hs hbuild hrun
  have honward (hrank : rank .PROCESSING ≤ rank c'.state) : Onward c c' := ⟨hown.client, hs ▸ hrank⟩
  rcases hturn with ⟨hstate, -, rfl⟩ | ⟨hstate, rfl⟩ | ⟨hwaits, -, -, rfl⟩
  · exact .single (.changed conn c c' hc (honward (by rw [hstate])) (by rw [hstate]; decide) ⟨rfl, rfl, rfl, rfl, rfl, rfl⟩)
  · exact .single (.changed conn c c' hc (honward (by rw [hstate]; decide)) (by rw [hstate]; decide) ⟨rfl, rfl, rfl, rfl, rfl, rfl⟩)
  · have hstate := hwaits.state
    exact .single (.changed conn c c' hc (honward (by rw [hstate]; decide)) (by rw [hstate]; decide) ⟨rfl, rfl, rfl, rfl, rfl, rfl⟩)

theorem shifts_dropTimedOut (h : Inv s.1) (hrun : dropTimedOut k fd s = (.ok (), s')) : Shifts s.1 s'.1 := by
  rcases hconn : s.1.connections.find? fd with _ | conn
  · rw [dropTimedOut, Eff.obj_bind, hconn] at hrun
    cases hrun
    exact .refl
  obtain ⟨c, hc, -⟩ := h.table.live fd conn hconn
  obtain ⟨c', w', hsteady, hs, rfl⟩ := dropTimedOut_ok hconn hc hrun
  exact .single (.changed conn c c' hc (onward_answer h hc hsteady.client hs) (unfinished_of_writing hs) ⟨rfl, rfl, rfl, rfl, rfl, rfl⟩)

theorem shifts_settle {w' : World} {pipeFd : Nat} (h : Inv s.1) (hc : s.1.heap.find? conn = some c) (hs : Settles c c' s.2 w') :
    Shifts s.1 (settle pipeFd conn c' s.1) :=
  .single (.changed conn c c' hc (onward_answer h hc hs.client hs.state) (unfinished_of_writing hs.state) ⟨rfl, rfl, rfl, rfl, rfl, rfl⟩)

theorem shifts_killTimedOut {pipeFd : Nat} (h : Inv s.1) (hrun : killTimedOut k pipeFd s = (.ok (), s')) : Shifts s.1 s'.1 := by
  rcases hp : s.1.cgiPipeToConn.find? pipeFd with _ | conn
  · rw [killTimedOut, Eff.obj_bind, hp] at hrun
    cases hrun
    exact .refl
  obtain ⟨c, hc, -⟩ := h.pipes.registered pipeFd conn hp
  obtain ⟨c', w', hs, rfl⟩ := killTimedOut_ok hp hc hrun
  exact shifts_settle h hc hs

theorem shifts_cgiPipeEvent {pipeFd : Nat} {events : Events} (h : Inv s.1)
    (hrun : handleCgiPipeEvent k pipeFd events s = (.ok (), s')) : Shifts s.1 s'.1 := by
  rcases hp : s.1.cgiPipeToConn.find? pipeFd with _ | conn
  · rw [handleCgiPipeEvent, Eff.obj_bind, hp] at hrun
    cases hrun
    exact .refl
  obtain ⟨c, hc, -⟩ := h.pipes.registered pipeFd conn hp
  obtain ⟨c', w', ⟨hr, rfl⟩ | ⟨hs, rfl⟩⟩ := handleCgiPipeEvent_ok hp hc hrun
  · have hunfinished := hr.state ▸ (h.fits conn c hc).unfinished
    exact .single (.changed conn c c' hc ⟨hr.client, by rw [hr.state]⟩ hunfinished ⟨rfl, rfl, rfl, rfl, rfl, rfl⟩)
  · exact shifts_settle h hc hs

theorem shifts_acceptLoop {listenFd : Nat} (hk : Honest k) (n : Nat) (s : ServerState) (hlisten : listenFd ∈ s.1.listenFds)
    (hrun : acceptLoop k listenFd n s = (.ok (), s')) : Shifts s.1 s'.1 := by
  have hnext {more : Bool} {s s' : ServerState} (hlisten : listenFd ∈ s.1.listenFds)
      (h : acceptNext k listenFd s = (.ok more, s')) : Shifts s.1 s'.1 ∧ listenFd ∈ s'.1.listenFds := by
    rcases acceptNext_ok h with rfl | ⟨clientFd, haccept, rfl⟩
    · exact ⟨.refl, hlisten⟩
    · have hfree : s.1.connections.find? clientFd = none := by
        rcases hconn : s.1.connections.find? clientFd with _ | a
        · rfl
        · exact absurd (.inr (.inl ⟨a, hconn⟩)) (hk.accept s clientFd true haccept)
      exact ⟨.single (.added listenFd clientFd (k.address s) s.2.now hlisten (hk.address s) hfree ⟨rfl, rfl, rfl, rfl, rfl, rfl⟩), hlisten⟩
  induction n generalizing s with
  | zero =>
    cases hrun
    exact .refl
  | succ n ih =>
    obtain ⟨more, t, hstep, hrun⟩ := Eff.bind_eq_ok.1 hrun
    obtain ⟨hshifts, hlisten'⟩ := hnext hlisten hstep
    split at hrun
    · exact hshifts.trans (ih t hlisten' hrun)
    · cases hrun
      exact hshifts

theorem shifts_connection {events : Events} (hfd : s.1.connections.find? c.acceptFD = some conn)
    (hc : s.1.heap.find? conn = some c) (hidle : events.epollin = true → c.state ≠ .PROCESSING)
    (hrun : handleConnection k conn events s = (.ok (), s')) : Shifts s.1 s'.1 := by
  obtain ⟨c', w', hserves, ⟨-, rfl⟩ | ⟨hnot, rfl⟩⟩ := handleConnection_ok hc hfd hidle hrun
  · rw [remove_put]
    cases c'.getCgiPipeFd <;> exact .single (.removed c.acceptFD conn c hfd hc ⟨rfl, rfl, rfl, rfl, rfl, rfl⟩)
  have honward : Onward c c' := by
    refine ⟨hserves.steady.client, ?_⟩
    rcases hserves.state with heq | hread | ⟨hwriting, hend | hend⟩
    · rw [heq]
    · rw [hread]
      exact Nat.zero_le _
    · rw [hwriting, hend]
    · rw [hwriting, hend]
      decide
  have hshift : Shift s.1 (watch c.acceptFD (mask c'.state) (enqueueIf c c' conn (put conn c' s.1))) := by
    rw [enqueueIf, enqueue]
    split_ifs <;> exact .changed conn c c' hc honward hnot ⟨rfl, rfl, rfl, rfl, rfl, rfl⟩
  exact .single hshift

theorem shifts_event {events : Events} (hk : Honest k) (h : Inv s.1) (hidle : events.epollin = true → Idle s.1 fd)
    (hrun : handleEvent k fd events s = (.ok (), s')) : Shifts s.1 s'.1 := by
  rw [handleEvent, Eff.obj_bind] at hrun
  split at hrun
  · exact shifts_cgiPipeEvent h hrun
  split at hrun
  · split at hrun
    · rcases hconn : s.1.connections.find? fd with _ | conn
      · rw [dropConnection_unknown hconn] at hrun
        cases hrun
        exact .single (.same ⟨rfl, rfl, rfl, rfl, rfl, rfl⟩)
      · obtain ⟨c, hc, -⟩ := h.table.live fd conn hconn
        obtain ⟨w', hdrop, -⟩ := dropConnection_known (k := k) hconn hc
        rw [hdrop] at hrun
        cases hrun
        cases c.getCgiPipeFd <;> exact .single (.removed fd conn c hconn hc ⟨rfl, rfl, rfl, rfl, rfl, rfl⟩)
    · cases hrun
      exact .refl
  split at hrun
  · rename_i hlisten
    obtain ⟨n, t, hask, hrun⟩ := Eff.bind_eq_ok.1 hrun
    cases hask
    exact shifts_acceptLoop hk _ s hlisten hrun
  rcases hconn : s.1.connections.find? fd with _ | conn
  · rw [hconn] at hrun
    cases hrun
    exact .refl
  rw [hconn] at hrun
  obtain ⟨c, hc, rfl⟩ := h.table.live fd conn hconn
  exact shifts_connection hconn hc (fun hin => hidle hin conn c hconn hc) hrun

theorem Turn.shifts (hk : Honest k) (h : Inv s.1) (hpending : Pending s.1 p) (hturn : Turn k p s p' s') : Shifts s.1 s'.1 := by
  cases hturn with
  | roundRobinDone | sweepLater | dropDone | sweepCgiNone _ | sweepCgi | killDone | waitNone | batchDone | wait => exact .refl
  | pass | sweep => exact .single (.same ⟨rfl, rfl, rfl, rfl, rfl, rfl⟩)
  | process _ hmem hrun => exact shifts_processNext h hmem hrun
  | drop hrun => exact shifts_dropTimedOut h hrun
  | kill hrun => exact shifts_killTimedOut h hrun
  | event hrun => exact shifts_event hk h (hpending.2 _ List.mem_cons_self) hrun

end Turns

/-! ### Runs -/

/-- The connection that was made as number `serial`, as it is now. -/
def Seen (s : ServerManager) (serial : Nat) (c : Connection) : Prop :=
  ∃ conn, s.connections.find? c.acceptFD = some conn ∧ s.heap.find? conn = some c ∧ s.serial conn = serial

/-- What is seen of the connection is later than `c`. -/
structure Follows (c : Connection) (serial : Nat) (s : ServerManager) : Prop where
  lt_made : serial < s.made
  onward : ∀ c', Seen s serial c' → Onward c c'

section Runs

variable {c c' : Connection} {serial : Nat}

theorem Seen.follows {s : ServerManager} (h : Numbered s) (hc : Seen s serial c) : Follows c serial s := by
  obtain ⟨conn, hconn, hfind, rfl⟩ := hc
  refine ⟨h.lt_made _ _ hconn, ?_⟩
  rintro c' ⟨conn', hconn', hfind', heq⟩
  have hfd := h.unique _ _ _ _ hconn hconn' heq.symm
  rw [hfd, hconn'] at hconn
  cases hconn
  cases hfind.symm.trans hfind'
  exact .refl c

/-- Nothing but the connections of the map before it is in the map after it. -/
theorem Seen.of_same {s s' : ServerManager} (h : SameLives s s') (hc : Seen s' serial c) : Seen s serial c := by
  obtain ⟨conn, hconn, hfind, hserial⟩ := hc
  exact ⟨conn, h.connections ▸ hconn, h.heap ▸ hfind, h.serial ▸ hserial⟩

theorem Follows.shift {s s' : ServerManager} (h : Follows c serial s) (hnumbered : Numbered s) (hshift : Shift s s') :
    Follows c serial s' := by
  refine ⟨h.lt_made.trans_le hshift.change.made_le, fun d hd => ?_⟩
  cases hshift with
  | same hsame => exact h.onward d (hd.of_same hsame)
  | changed conn b b' hb honward _ hsame =>
    obtain ⟨a, hconn, hfind, hserial⟩ := hd.of_same hsame
    rcases OrdMap.find?_insert_eq_some.1 hfind with ⟨rfl, rfl⟩ | ⟨-, hfind⟩
    · exact (h.onward b ⟨a, honward.client.acceptFD ▸ hconn, hb, hserial⟩).trans honward
    · exact h.onward d ⟨a, hconn, hfind, hserial⟩
  | removed fd conn b hconn hb hsame =>
    obtain ⟨a, hconn, hfind, hserial⟩ := hd.of_same hsame
    exact h.onward d ⟨a, (OrdMap.find?_erase_eq_some.1 hconn).2, (OrdMap.find?_erase_eq_some.1 hfind).2, hserial⟩
  | added listenFd fd conn now _ hnew hfd hsame =>
    obtain ⟨a, hconn, hfind, hserial⟩ := hd.of_same hsame
    rcases OrdMap.find?_insert_eq_some.1 hconn with ⟨-, rfl⟩ | ⟨-, hconn⟩
    · -- the new connection has a new number
      have hmade : Function.update s.serial a s.made a = serial := hserial
      rw [Function.update_self] at hmade
      exact absurd h.lt_made (by omega)
    · obtain ⟨b, hb, -⟩ := hnumbered.live _ _ hconn
      have hne : a ≠ conn := by
        rintro rfl
        rw [hnew] at hb
        cases hb
      have hold : Function.update s.serial conn s.made a = serial := hserial
      rw [Function.update_of_ne hne] at hold
      exact h.onward d ⟨a, hconn, (OrdMap.find?_insert_of_ne _ hne _).symm.trans hfind, hold⟩

/-- What a shift keeps of numbered connections, any number of them does. -/
theorem shifts_keep (I : ServerManager → Prop) (hI : ∀ {s s'}, Numbered s → I s → Shift s s' → I s') {s s' : ServerManager}
    (hnumbered : Numbered s) (hs : I s) (h : Shifts s s') : I s' := by
  have hboth : Numbered s' ∧ I s' := by
    induction h with
    | refl => exact ⟨hnumbered, hs⟩
    | tail _ hshift ih => exact ⟨ih.1.change hshift.change, hI ih.1 ih.2 hshift⟩
  exact hboth.2

variable {k : Kernel} {n : Nat} {p : Nat → Point} {s : Nat → ServerState} {i j : Nat}

theorem Run.shifts (hk : Honest k) (hrun : Run k n p s) (hi : i < n) : Shifts (s i).1 (s (i + 1)).1 := by
  obtain ⟨hinv, hpending⟩ := reach_inv hk (hrun.reach hi.le)
  exact Turn.shifts (s := timed k (p i) (s i)) hk hinv hpending (next_turn (hrun.next i hi))

/-- From one point of a run to a later one, a connection that is still there has kept its descriptor and its
configuration, and has not gone back: it is never read from again when its request is complete, and never processed
again when it is answered. -/
theorem run_onward (hk : Honest k) (hrun : Run k n p s) (hij : i ≤ j) (hj : j ≤ n) (hc : Seen (s i).1 serial c)
    (hc' : Seen (s j).1 serial c') :
    c'.acceptFD = c.acceptFD ∧ c'.serverConf = c.serverConf ∧ rank c.state ≤ rank c'.state := by
  have hfollows : Follows c serial (s j).1 := by
    clear hc'
    induction j, hij using Nat.le_induction with
    | base => exact hc.follows (hrun.numbered hk hj)
    | succ j hij ih =>
      exact shifts_keep (Follows c serial) (fun hn hf hshift => hf.shift hn hshift) (hrun.numbered hk (by omega)) (ih (by omega))
        (hrun.shifts hk (by omega))
  obtain ⟨⟨hfd, hconf⟩, hrank⟩ := hfollows.onward c' hc'
  exact ⟨hfd, hconf, hrank⟩

theorem seen_oneClient (state : ConnectionState) (hrun : Run oneClient n p s) (hs : s 0 = listening) (hi : i ≤ n)
    (hafter : (after oneClient i (.roundRobin 0) listening).map (fun x =>
      (x.2.1.connections.find? 5, (x.2.1.heap.find? 1).map (·.state), x.2.1.serial 1)) = some (some 1, some state, 0)) :
    ∃ c, Seen (s i).1 0 c ∧ c.state = state := by
  rw [← hs, hrun.after hi, Option.map_some, Option.some.injEq, Prod.mk.injEq, Prod.mk.injEq] at hafter
  obtain ⟨hconn, hstate, hserial⟩ := hafter
  obtain ⟨c, hc, rfl⟩ := Option.map_eq_some_iff.1 hstate
  obtain ⟨d, hd, hfd⟩ := (reach_inv oneClient_honest (hrun.reach hi)).1.table.live 5 1 hconn
  cases hc.symm.trans hd
  exact ⟨c, ⟨1, by rw [hfd, hconn], hc, hserial⟩, rfl⟩

/-- The client of `oneClient`, when it has come and when it is answered. -/
theorem run_onward_oneClient : ∃ p s c c', Run oneClient 15 p s ∧ Seen (s 5).1 0 c ∧ c.state = .READING ∧ Seen (s 15).1 0 c' ∧
    c'.state = .WRITING ∧ (c'.acceptFD = c.acceptFD ∧ c'.serverConf = c.serverConf ∧ rank c.state ≤ rank c'.state) := by
  have hlast : (after oneClient 15 (.roundRobin 0) listening).isSome = true := by decide +kernel
  obtain ⟨⟨q, t⟩, hafter⟩ := Option.isSome_iff_exists.1 hlast
  obtain ⟨p, s, hrun, hs, -⟩ := exists_run listening_fresh hafter
  obtain ⟨c, hc, hreading⟩ := seen_oneClient (i := 5) .READING hrun hs (by decide) (by decide +kernel)
  obtain ⟨c', hc', hwriting⟩ := seen_oneClient (i := 15) .WRITING hrun hs le_rfl (by decide +kernel)
  exact ⟨p, s, c, c', hrun, hc, hreading, hc', hwriting, run_onward oneClient_honest hrun (by decide) le_rfl hc hc'⟩

end Runs

end ServerManager

end LeftHookRoll
