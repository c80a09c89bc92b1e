import LeftHookRoll.ServerEnd
import LeftHookRoll.ServerOrder
import LeftHookRoll.ServerSetup

/-!
# The server from its set-up to its end

Every run of a server that was set up by `construct` keeps the sockets and gives each client the configuration of one of
them. However the run ends, `destroy` deletes each connection, waits for each child in the set and closes each watched
descriptor once (`Released`).
-/

namespace LeftHookRoll

open Eff ServerManager

namespace Setup

variable {s : Setup} {w : World} {fd : Nat}

/-- How often the descriptor was closed. -/
def closeCount (log : List SockCall) (fd : Nat) : Nat := log.countP fun c => c.closes = some fd

theorem closeCount_closeLog (fds : List Nat) (log : List SockCall) (fd : Nat) :
    closeCount (closeLog fds log) fd = fds.count fd + closeCount log fd := by
  induction fds generalizing log with
  | nil => simp [closeLog]
  | cons a fds ih =>
    have hcons : closeCount (.close a :: log) fd = closeCount log fd + if a = fd then 1 else 0 := by
      simp [closeCount, List.countP_cons, SockCall.closes]
    rw [closeLog, ih, hcons, List.count_cons]
    simp only [beq_iff_eq]
    omega

/-- No connection is deleted twice. -/
theorem deletable {m : ServerManager} (h : ServerManager.Table m.heap m.connections m.listenFds) : Deletable m := by
  refine ⟨fun e he => ?_, ?_⟩
  · obtain ⟨c, hc, -⟩ := h.live e.1 e.2 (OrdMap.find?_of_mem_entries he)
    exact ⟨c, hc⟩
  · refine List.Nodup.map_on (fun a ha b hb heq => Prod.ext ?_ heq) (List.Nodup.of_map _ (OrdMap.keys_nodup m.connections))
    obtain ⟨c, hc, hfd⟩ := h.live a.1 a.2 (OrdMap.find?_of_mem_entries ha)
    obtain ⟨c', hc', hfd'⟩ := h.live b.1 b.2 (OrdMap.find?_of_mem_entries hb)
    rw [← heq, hc] at hc'
    cases hc'
    exact hfd.symm.trans hfd'

/-- A descriptor of a script's output. -/
def isPipe (m : ServerManager) (fd : Nat) : Bool := m.heap.entries.any fun e => e.2.getCgiPipeFd = some fd

theorem mem_pipesOf {m : ServerManager} (h : ServerManager.Table m.heap m.connections m.listenFds) :
    fd ∈ pipesOf m.heap m.connections.entries ↔ isPipe m fd = true := by
  rw [pipesOf, List.mem_filterMap, isPipe, List.any_eq_true]
  constructor
  · rintro ⟨e, -, hpipe⟩
    obtain ⟨c, hc, hfd⟩ := Option.bind_eq_some_iff.1 hpipe
    exact ⟨(e.2, c), OrdMap.mem_entries_of_find? hc, decide_eq_true hfd⟩
  · rintro ⟨⟨conn, c⟩, he, hfd⟩
    have hc := OrdMap.find?_of_mem_entries he
    exact ⟨_, OrdMap.mem_entries_of_find? (h.known conn c hc), Option.bind_eq_some_iff.2 ⟨c, hc, of_decide_eq_true hfd⟩⟩

theorem pipesOf_nodup {m : ServerManager} (h : ServerManager.Table m.heap m.connections m.listenFds) :
    (pipesOf m.heap m.connections.entries).Nodup := by
  refine List.Pairwise.filterMap _ (fun a a' hne p hp p' hp' heq => hne ?_) (List.pairwise_map.1 (deletable h).once)
  obtain ⟨c, hc, hfd⟩ := Option.bind_eq_some_iff.1 hp
  obtain ⟨c', hc', hfd'⟩ := Option.bind_eq_some_iff.1 hp'
  exact h.pipeOne a.2 a'.2 c c' p hc hc' hfd (heq ▸ hfd')

/-- While the tables are right: each connection is deleted, once, the clean-up starts with the children of the server, and
each descriptor is closed as often as it has an owner: the watch list of the loop, the server itself for that of `epoll`,
the response for its script's pipe. -/
theorem destroy_closes (h : ServerManager.Table s.server.heap s.server.connections s.server.listenFds) (sys : Sys) :
    ∃ s' w', destroy sys (s, w) = (.ok (), s', (CGIManager.cleanupAllProcesses sys w').2) ∧ s'.server.heap = ∅ ∧
      s'.server.connections = ∅ ∧ w'.activePids = w.activePids ∧
      ∀ fd, closeCount s'.log fd = closeCount s.log fd + (s.server.fdEvents.contains fd).toNat +
        (decide (s.epollFd = some fd)).toNat + (isPipe s.server fd).toNat := by
  obtain ⟨s₁, hs₁⟩ : ∃ s₁ : Setup, s₁ = { s with serverConfs := [] } := ⟨_, rfl⟩
  have hsame : s₁.server = s.server ∧ s₁.epollFd = s.epollFd ∧ s₁.log = s.log := by
    rw [hs₁]
    exact ⟨rfl, rfl, rfl⟩
  obtain ⟨hserver, hepoll, hlog⟩ := hsame
  obtain ⟨s', w', hrun, hlog', -, hconns, -, -, hpids, hheap⟩ := closeAllFds_run (hserver ▸ deletable h) w
  refine ⟨s', w', ?_, OrdMap.ext_find? fun a => ?_, hconns, hpids, fun fd => ?_⟩
  · rw [destroy, Eff.modObj_bind, ← hs₁, Eff.bind_ok hrun]
    rfl
  · rw [hheap, hserver]
    split
    · rfl
    · rename_i hout
      rcases hc : s.server.heap.find? a with _ | c
      · rfl
      · exact absurd (List.mem_map_of_mem (OrdMap.mem_entries_of_find? (h.known a c hc))) hout
  · have hcount {l : List Nat} (hl : l.Nodup) {b : Bool} (hmem : fd ∈ l ↔ b = true) : l.count fd = b.toNat := by
      rw [hl.count]
      cases b <;> simp [hmem]
    have hpipes := hcount (pipesOf_nodup h) (mem_pipesOf h)
    have hkeys : s.server.fdEvents.keys.count fd = (s.server.fdEvents.contains fd).toNat :=
      hcount (OrdMap.keys_nodup _) (OrdMap.mem_keys.trans OrdMap.contains_iff.symm)
    have hepollFd : s.epollFd.toList.count fd = (decide (s.epollFd = some fd)).toNat := by
      rcases s.epollFd with _ | ep
      · rfl
      · refine hcount (List.nodup_singleton ep) ?_
        simp [eq_comm]
    rw [hlog', closeCount_closeLog, hlog, closing, hserver, hepoll, List.count_append, List.count_append, hpipes, hkeys, hepollFd]
    omega

/-! ### Runs of a server that was set up -/

variable {net : Net} {k : Kernel} {confs : List ServerConf} {s₀ : Setup} {w₀ : World} {t t' : ServerState} {p : Point} {n : Nat}

/-- The sockets are the old ones, and each client has one of the configurations. -/
structure Configured (confs : List ServerConf) (m₀ m : ServerManager) : Prop where
  listenFds : m.listenFds = m₀.listenFds
  listens : m.listenFdToServerConf = m₀.listenFdToServerConf
  clients : ∀ conn c, m.heap.find? conn = some c → ∃ conf ∈ confs, c.serverConf = some conf

theorem Configured.shift {m₀ m m' : ServerManager} (hconfs : ∀ fd ∈ m₀.listenFds, ∃ conf ∈ confs, confOf m₀ fd = some conf)
    (h : Configured confs m₀ m) (hshift : Shift m m') : Configured confs m₀ m' := by
  obtain ⟨hfds, hlistens⟩ := hshift.listens
  refine ⟨hfds.trans h.listenFds, hlistens.trans h.listens, fun a d hd => ?_⟩
  cases hshift with
  | same hsame => exact h.clients a d (hsame.heap ▸ hd)
  | changed conn b b' hb honward _ hsame =>
    rw [hsame.heap] at hd
    rcases OrdMap.find?_insert_eq_some.1 hd with ⟨-, rfl⟩ | ⟨-, hd⟩
    · rw [honward.client.serverConf]
      exact h.clients conn b hb
    · exact h.clients a d hd
  | removed fd conn b _ _ hsame =>
    rw [hsame.heap] at hd
    exact h.clients a d (OrdMap.find?_erase_eq_some.1 hd).2
  | added listenFd fd conn now hlisten _ _ hsame =>
    rw [hsame.heap] at hd
    rcases OrdMap.find?_insert_eq_some.1 hd with ⟨-, rfl⟩ | ⟨-, hd⟩
    · obtain ⟨conf, hmem, hconf⟩ := hconfs listenFd (h.listenFds ▸ hlisten)
      refine ⟨conf, hmem, ?_⟩
      rw [← hconf, confOf, confOf, h.listens]
      rfl
    · exact h.clients a d hd

theorem configured_run (hk : Honest k) (hn : HonestNet net) (hstart : construct net k confs ({}, w) = (.ok (), s₀, w₀))
    (hafter : after k n (.roundRobin 0) (s₀.server, w₀) = some (p, t)) : Configured confs s₀.server t.1 := by
  obtain ⟨socks, rfl, hlistening⟩ := construct_cases hn hstart
  obtain ⟨q, s, hrun, hs, ht⟩ := exists_run (s := (s₀.server, w₀)) hlistening.fresh hafter
  have hconfs (fd : Nat) (hfd : fd ∈ s₀.server.listenFds) : ∃ conf ∈ socks.map (·.2), confOf s₀.server fd = some conf := by
    obtain ⟨e, he, rfl⟩ := List.mem_map.1 ((hlistening.listenFds fd).1 hfd)
    refine ⟨e.2, List.mem_map_of_mem he, ?_⟩
    rw [confOf, (hlistening.confs e.1 (some e.2)).2 ⟨e, he, rfl, rfl⟩, Option.getD_some]
  have hall (i : Nat) (hi : i ≤ n) : Configured (socks.map (·.2)) s₀.server (s i).1 := by
    induction i with
    | zero =>
      rw [hs]
      refine ⟨rfl, rfl, fun conn c hc => ?_⟩
      rw [hlistening.fresh.heap] at hc
      cases hc
    | succ i ih =>
      exact shifts_keep (Configured _ s₀.server) (fun _ h hshift => h.shift hconfs hshift) (hrun.numbered hk (by omega))
        (ih (by omega)) (hrun.shifts hk (by omega))
  exact ht ▸ hall n le_rfl

/-- However a server that was set up runs, each of its clients has one of its configurations: no branch for a client
without one is ever taken. -/
theorem clients_configured (hk : Honest k) (hn : HonestNet net) (hstart : construct net k confs ({}, w) = (.ok (), s₀, w₀))
    (hafter : after k n (.roundRobin 0) (s₀.server, w₀) = some (p, t)) :
    ∀ conn c, t.1.heap.find? conn = some c → ∃ conf ∈ confs, c.serverConf = some conf :=
  (configured_run hk hn hstart hafter).clients

/-- Three servers, the last of which is asked by the client of `oneClient`. -/
def threeServers : List ServerConf := twoServers ++ [{ interfacePortPair := ⟨2, 8082, 0⟩ }]

theorem oneClient_three : ∃ s₀ w₀ p t, construct plainNet oneClient threeServers ({}, {}) = (.ok (), s₀, w₀) ∧
    after oneClient 12 (.roundRobin 0) (s₀.server, w₀) = some (p, t) ∧ t.1.connections.find? 5 = some 1 ∧
      3 ∈ s₀.server.listenFds := by
  have hrun : (construct plainNet oneClient threeServers ({}, {})).1 = .ok () ∧
      (after oneClient 12 (.roundRobin 0) ((construct plainNet oneClient threeServers ({}, {})).2.1.server,
        (construct plainNet oneClient threeServers ({}, {})).2.2)).map (fun x => x.2.1.connections.find? 5) = some (some 1) ∧
      3 ∈ (construct plainNet oneClient threeServers ({}, {})).2.1.server.listenFds := by decide +kernel
  rcases hout : construct plainNet oneClient threeServers ({}, {}) with ⟨out, s₀, w₀⟩
  rw [hout] at hrun
  obtain ⟨hok, hrun, hlisten⟩ := hrun
  cases hok
  obtain ⟨⟨p, t⟩, hafter, hconn⟩ := Option.map_eq_some_iff.1 hrun
  exact ⟨s₀, w₀, p, t, rfl, hafter, hconn, hlisten⟩

theorem clients_configured_three : ∃ s₀ w₀ p t, construct plainNet oneClient threeServers ({}, {}) = (.ok (), s₀, w₀) ∧
    after oneClient 12 (.roundRobin 0) (s₀.server, w₀) = some (p, t) ∧ t.1.connections.find? 5 = some 1 ∧
      ∀ conn c, t.1.heap.find? conn = some c → ∃ conf ∈ threeServers, c.serverConf = some conf := by
  obtain ⟨s₀, w₀, p, t, hstart, hafter, hconn, -⟩ := oneClient_three
  exact ⟨s₀, w₀, p, t, hstart, hafter, hconn, clients_configured oneClient_honest plainNet_honest hstart hafter⟩

/-- How a lifetime ends, from a server `s₀` that was set up and a run that has come to `t`: each connection is deleted, the
clean-up waits for each child in the set, each listening socket is opened once and closed once, what the run itself has
closed counted too, and each descriptor is closed as often as it has an owner at the end. -/
structure Released (sys : Sys) (s₀ : Setup) (t : ServerState) (s' : Setup) (w' : World) : Prop where
  run : destroy sys ({ s₀ with server := t.1 }, t.2) = (.ok (), s', (CGIManager.cleanupAllProcesses sys w').2)
  heap : s'.server.heap = ∅
  children : ∀ pid ∈ t.2.activePids, CGIManager.Reaps (CGIManager.cleanupAllProcesses sys w').1 pid
  listening : ∀ fd ∈ s₀.server.listenFds, s₀.log.countP (fun c => c.opens = some fd) = 1 ∧
    closeCount s'.log fd + t.1.closed.count fd = 1
  owned : ∀ fd, closeCount s'.log fd = (t.1.fdEvents.contains fd).toNat + (decide (s₀.epollFd = some fd)).toNat +
    (isPipe t.1 fd).toNat

/-- From the set-up to the end, over any run, whether the signal ends it or an exception. -/
theorem lifetime_closes (hk : Honest k) (hn : HonestNet net) (hstart : construct net k confs ({}, w) = (.ok (), s₀, w₀))
    (hafter : after k n (.roundRobin 0) (s₀.server, w₀) = some (p, t)) (hstop : Stops k p t t') (sys : Sys) :
    ∃ s' w', Released sys s₀ t' s' w' := by
  obtain ⟨socks, rfl, hlistening⟩ := construct_cases hn hstart
  have hreach : Reach k (.roundRobin 0) (s₀.server, w₀) := .start hlistening.fresh
  have hrooted : Rooted s₀.server.listenFds s₀.server.closed t'.1 :=
    hstop.rooted hk (hreach.after hafter) (rooted_after hk hreach (reach_inv hk hreach).1.rooted hafter)
  obtain ⟨s', w', hrun, hheap, -, hpids, hcount⟩ := destroy_closes (s := { s₀ with server := t'.1 }) (w := t'.2) hrooted.table sys
  have hunclosed (fd : Nat) : closeCount s₀.log fd = 0 := by
    refine List.countP_eq_zero.2 fun c hc hclose => ?_
    have hcloses := of_decide_eq_true hclose
    cases c <;> cases hcloses
    exact hlistening.unclosed fd hc
  refine ⟨s', w', hrun, hheap, fun pid hpid => CGIManager.reaps_cleanup (hpids ▸ hpid), fun fd hfd => ?_, fun fd => ?_⟩
  · have hmem := (hlistening.listenFds fd).1 hfd
    have hheld : Ledger.held SockCall.opens SockCall.closes s₀.log fd = true := (hlistening.opened fd).2 (.inr hmem)
    have hbalance := hlistening.orderly.balance fd
    have hepoll : s₀.epollFd ≠ some fd := by
      obtain ⟨ep, hep, hout⟩ := hlistening.epoll
      rw [hep]
      rintro ⟨⟩
      exact hout hmem
    have hpipe : isPipe t'.1 fd = false := by
      refine Bool.eq_false_iff.2 fun hpipe => ?_
      obtain ⟨⟨conn, c⟩, he, hfdpipe⟩ := List.any_eq_true.1 hpipe
      exact hrooted.table.pipeListen conn c fd (OrdMap.find?_of_mem_entries he) (of_decide_eq_true hfdpipe)
        (hrooted.listenFds.symm ▸ hfd)
    have hkept : t'.1.closed.count fd = 0 := by
      refine List.count_eq_zero.2 fun hin => ?_
      have hold := hrooted.unclosed fd hfd hin
      rw [hlistening.closed] at hold
      cases hold
    have hclosed := hcount fd
    rw [hunclosed, hrooted.watched fd hfd, hpipe, decide_eq_false hepoll] at hclosed
    rw [hclosed, hkept]
    refine ⟨hbalance.trans ?_, rfl⟩
    have hgiven : s₀.log.countP (fun c => c.closes = some fd) = 0 := hunclosed fd
    rw [hgiven, hheld]
    rfl
  · rw [hcount, hunclosed, Nat.zero_add]

/-- The server is stopped while its client is served. -/
theorem lifetime_closes_three : ∃ s₀ w₀ p t, construct plainNet oneClient threeServers ({}, {}) = (.ok (), s₀, w₀) ∧
    after oneClient 12 (.roundRobin 0) (s₀.server, w₀) = some (p, t) ∧ 3 ∈ s₀.server.listenFds ∧
    ∃ s' w', Released Sys.calm s₀ t s' w' := by
  obtain ⟨s₀, w₀, p, t, hstart, hafter, -, hlisten⟩ := oneClient_three
  exact ⟨s₀, w₀, p, t, hstart, hafter, hlisten, lifetime_closes oneClient_honest plainNet_honest hstart hafter .signalled Sys.calm⟩

end Setup

end LeftHookRoll
