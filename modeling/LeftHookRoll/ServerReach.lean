import Mathlib
import LeftHookRoll.ServerKept

/-!
# What holds at every point of a run

`Turn` says once what the machine does from a point on. From it come the invariant of the queue of the
connections that are processed, at every point, and that of the maps, at the top of every iteration.
-/

namespace LeftHookRoll

open Eff

namespace ServerManager

open Connection

/-- From one point to the next, when the clock has been read. -/
inductive Turn (k : Kernel) : Point → ServerState → Point → ServerState → Prop
  | roundRobinDone {n : Nat} {s : ServerState} : Turn k (.roundRobin n) s .sweepTimeouts s
  | pass {n conn : Nat} {queue : List Nat} {s : ServerState} (hq : s.1.processingQueue = conn :: queue)
      (hmem : conn ∉ s.1.processingSet) :
      Turn k (.roundRobin n) s (.roundRobin n) ({ s.1 with processingQueue := queue }, s.2)
  | process {n conn : Nat} {queue : List Nat} {s s' : ServerState} (hq : s.1.processingQueue = conn :: queue)
      (hmem : conn ∈ s.1.processingSet)
      (hrun : processNext k conn ({ s.1 with processingQueue := queue }, s.2) = (.ok (), s')) :
      Turn k (.roundRobin n) s (.roundRobin (n + 1)) s'
  | sweepLater {s : ServerState} : Turn k .sweepTimeouts s .sweepCgiTimeouts s
  | sweep {s : ServerState} : Turn k .sweepTimeouts s (.dropTimedOut (timedOut s.1 s.2.now))
      ({ s.1 with lastSweep := s.2.now }, s.2)
  | dropDone {s : ServerState} : Turn k (.dropTimedOut []) s .sweepCgiTimeouts s
  | drop {fd : Nat} {toDrop : List Nat} {s s' : ServerState} (hrun : dropTimedOut k fd s = (.ok (), s')) :
      Turn k (.dropTimedOut (fd :: toDrop)) s (.dropTimedOut toDrop) s'
  | sweepCgiNone {s : ServerState} (hnone : s.1.cgiPipeToConn.entries = []) : Turn k .sweepCgiTimeouts s .wait s
  | sweepCgi {s : ServerState} : Turn k .sweepCgiTimeouts s (.killTimedOut (cgiTimedOut s.1 s.2.now)) s
  | killDone {s : ServerState} : Turn k (.killTimedOut []) s .wait s
  | kill {pipeFd : Nat} {toKill : List Nat} {s s' : ServerState} (hrun : killTimedOut k pipeFd s = (.ok (), s')) :
      Turn k (.killTimedOut (pipeFd :: toKill)) s (.killTimedOut toKill) s'
  | waitNone {s : ServerState} : Turn k .wait s (.roundRobin 0) (s.1, s.2.ticked)
  | wait {events : List (Nat × Events)} {s : ServerState} (hwait : k.epollWait s = some events) :
      Turn k .wait s (.batch events) (s.1, s.2.ticked)
  | batchDone {s : ServerState} : Turn k (.batch []) s (.roundRobin 0) s
  | event {fd : Nat} {events : Events} {rest : List (Nat × Events)} {s s' : ServerState}
      (hrun : handleEvent k fd events s = (.ok (), s')) :
      Turn k (.batch ((fd, events) :: rest)) s (.batch rest) s'

variable {k : Kernel} {p p' : Point} {s s' : ServerState}

/-- The clock has been read. -/
def timed (k : Kernel) (p : Point) (s : ServerState) : ServerState := (s.1, { s.2 with now := k.now p s })

theorem next_turn (h : next k p s = (.ok p', s')) : Turn k p (timed k p s) p' s' := by
  have hlast {m : Method ServerManager Unit} {q : Point} {t : ServerState}
      (h : (do m; return q : Method ServerManager Point) t = (.ok p', s')) : m t = (.ok (), s') ∧ q = p' := by
    obtain ⟨_, u, hm, hret⟩ := Eff.bind_eq_ok.1 h
    cases hret
    exact ⟨hm, rfl⟩
  obtain ⟨now, u, hask, h⟩ := Eff.bind_eq_ok.1 h
  cases hask
  rw [Eff.modWorld_bind] at h
  change (_ : Method ServerManager Point) (timed k p s) = _ at h
  generalize timed k p s = t at h ⊢
  cases p with
  | roundRobin n =>
    dsimp only at h
    rw [runRoundRobin, Eff.obj_bind] at h
    rcases hq : t.1.processingQueue with _ | ⟨conn, queue⟩ <;> simp only [hq] at h
    · cases h
      exact .roundRobinDone
    split at h
    · cases h
      exact .roundRobinDone
    rw [Eff.modObj_bind] at h
    split at h
    · rename_i hmem
      obtain ⟨hrun, rfl⟩ := hlast h
      exact .process hq hmem hrun
    · rename_i hmem
      cases h
      exact .pass hq hmem
  | sweepTimeouts =>
    dsimp only at h
    rw [sweepTimeouts, Eff.world_bind, Eff.obj_bind] at h
    split at h
    · cases h
      exact .sweepLater
    · cases h
      exact .sweep
  | dropTimedOut toDrop =>
    rcases toDrop with _ | ⟨fd, toDrop⟩
    · cases h
      exact .dropDone
    · obtain ⟨hrun, rfl⟩ := hlast h
      exact .drop hrun
  | sweepCgiTimeouts =>
    dsimp only at h
    rw [sweepCgiTimeouts, Eff.obj_bind] at h
    split at h
    · rename_i hnone
      cases h
      exact .sweepCgiNone hnone
    · cases h
      exact .sweepCgi
  | killTimedOut toKill =>
    rcases toKill with _ | ⟨pipeFd, toKill⟩
    · cases h
      exact .killDone
    · obtain ⟨hrun, rfl⟩ := hlast h
      exact .kill hrun
  | wait =>
    obtain ⟨answer, u, hask, h⟩ := Eff.bind_eq_ok.1 h
    cases hask
    rw [Eff.modWorld_bind] at h
    rcases hwait : k.epollWait t with _ | _ | ⟨e, events⟩ <;> rw [hwait] at h
    · cases h
    · cases h
      exact .waitNone
    · cases h
      exact .wait hwait
  | batch events =>
    rcases events with _ | ⟨⟨fd, events⟩, rest⟩
    · cases h
      exact .batchDone
    · obtain ⟨hrun, rfl⟩ := hlast h
      exact .event hrun

/-! ### The invariant at every point -/

/-- What is still to be handled of a batch tells of no bytes for a connection that is processed. -/
def Pending (s : ServerManager) : Point → Prop
  | .batch events => (events.map (·.1)).Nodup ∧ ∀ e ∈ events, e.2.epollin = true → Idle s e.1
  | _ => True

theorem Queue.pass {heap : Heap} {set : Finset Nat} {queue : List Nat} {conn : Nat}
    (h : Queue heap set (conn :: queue)) (hmem : conn ∉ set) : Queue heap set queue := by
  refine h.update conn (fun _ _ => rfl) (fun _ _ => Iff.rfl) (fun a ha hin => ?_) (fun hin => absurd hin hmem) ?_
  · exact (List.mem_cons.1 hin).resolve_left ha
  · exact fun c hc hs => absurd (h.waits conn c hc hs).1 hmem

/-- The events that the system reports are those that the masks ask for. -/
theorem Inv.pending {events : List (Nat × Events)} (hk : Honest k) (h : Inv s.1)
    (hwait : k.epollWait s = some events) : Pending s.1 (.batch events) := by
  refine ⟨hk.once s events hwait, fun e he hin conn c hconn hc hs => ?_⟩
  obtain ⟨m, hm, hasked, -⟩ := hk.asked s events hwait e he
  obtain ⟨d, hd, hfd⟩ := h.table.live e.1 conn hconn
  cases hc.symm.trans hd
  rw [h.watched, ← hfd, wanted_client h.table hc, hs] at hm
  cases hm
  exact absurd (hasked hin) (by decide)

theorem Turn.inv (hk : Honest k) (h : Inv s.1) (hpending : Pending s.1 p) (hturn : Turn k p s p' s') :
    Inv s'.1 ∧ Pending s'.1 p' := by
  cases hturn with
  | roundRobinDone | sweepLater | dropDone | sweepCgiNone _ | sweepCgi | killDone | waitNone | batchDone =>
    exact ⟨h, trivial⟩
  | sweep => exact ⟨⟨h.table, h.queue, h.fits, h.pipes, h.watched⟩, trivial⟩
  | pass hq hmem =>
    have hqueue := h.queue
    rw [hq] at hqueue
    exact ⟨⟨h.table, hqueue.pass hmem, h.fits, h.pipes, h.watched⟩, trivial⟩
  | process hq hmem hrun => exact ⟨(kept_processNext hk h hq hmem hrun).inv, trivial⟩
  | drop hrun => exact ⟨(dropped_dropTimedOut h hrun).inv, trivial⟩
  | kill hrun => exact ⟨(kept_killTimedOut h hrun).1.inv, trivial⟩
  | wait hwait => exact ⟨h, Inv.pending (s := s) hk h hwait⟩
  | @event fd events rest _ _ hrun =>
    obtain ⟨hnodup, hidle⟩ := hpending
    obtain ⟨hfd, hnodup⟩ := List.nodup_cons.1 hnodup
    have hhandled := handled_event hk h (hidle _ List.mem_cons_self) hrun
    refine ⟨hhandled.inv, hnodup, fun e he hin => hhandled.idle e.1 ?_ (hidle e (List.mem_cons_of_mem _ he) hin)⟩
    exact fun heq => hfd (List.mem_map.2 ⟨e, he, heq⟩)

theorem Fresh.inv {s : ServerManager} (h : Fresh s) : Inv s := by
  have hheap (conn : Nat) (c : Connection) : s.heap.find? conn ≠ some c := by
    rw [h.heap]
    exact nofun
  have hconns (fd : Nat) : s.connections.find? fd = none := by
    rw [h.connections]
    rfl
  have hpipes (p : Nat) : s.cgiPipeToConn.find? p = none := by
    rw [h.cgiPipeToConn]
    rfl
  refine ⟨⟨fun fd conn hfd => ?_, fun conn c hc => absurd hc (hheap conn c), fun fd conn hfd => ?_,
    fun conn c _ hc => absurd hc (hheap conn c), fun conn c _ hc => absurd hc (hheap conn c),
    fun conn _ c _ _ hc => absurd hc (hheap conn c)⟩, ⟨fun conn hin => ?_, fun conn c hc => absurd hc (hheap conn c)⟩,
    fun conn c hc => absurd hc (hheap conn c),
    ⟨fun p conn hp => ?_, fun conn c hc => absurd hc (hheap conn c), fun p => ?_⟩, fun fd => ?_⟩
  · rw [hconns] at hfd
    cases hfd
  · rw [hconns] at hfd
    cases hfd
  · rw [h.processingSet] at hin
    exact absurd hin (Finset.notMem_empty conn)
  · rw [hpipes] at hp
    cases hp
  · rw [h.cgiStartTimes, h.cgiPipeToConn]
  · rw [h.fdEvents]
    split
    · rename_i hlisten
      rw [wanted_listen hlisten]
      rfl
    · rename_i hlisten
      rw [wanted_pipe hlisten (hconns fd), OrdMap.contains, hpipes]
      rfl

theorem reach_inv (hk : Honest k) (h : Reach k p s) : Inv s.1 ∧ Pending s.1 p := by
  induction h with
  | start h => exact ⟨h.inv, trivial⟩
  | next _ hrun ih =>
    exact Turn.inv hk (s := timed k _ _) ih.1 ih.2 (next_turn hrun)

/-- The set, the queue and the connections agree. -/
structure Scheduled (s : ServerManager) : Prop where
  queued : ∀ conn ∈ s.processingSet, ∃ fd c, s.connections.find? fd = some conn ∧
    s.heap.find? conn = some c ∧ c.state = .PROCESSING
  waits : ∀ conn c, s.heap.find? conn = some c → c.state = .PROCESSING →
    conn ∈ s.processingSet ∧ conn ∈ s.processingQueue

theorem reach_scheduled (hk : Honest k) (h : Reach k p s) : Scheduled s.1 := by
  obtain ⟨hinv, -⟩ := reach_inv hk h
  refine ⟨fun conn hin => ?_, hinv.queue.waits⟩
  obtain ⟨c, hc, hs⟩ := hinv.queue.queued conn hin
  exact ⟨c.acceptFD, c, hinv.table.known conn c hc, hc, hs⟩

/-! ### The top of an iteration -/

/-- The script of the pipe has run as long as a client may be idle. -/
def Overdue (s : ServerState) (q : Nat) : Prop :=
  ∃ start, s.1.cgiStartTimes.find? q = some start ∧ CONNECTION_TIMEOUT_S ≤ s.2.now - start

/-- Which pipes may be registered for a connection that has an answer: none, but for those that the idle
sweep leaves to the sweep of the scripts. -/
def MayBeLate : Point → ServerState → Nat → Prop
  | .dropTimedOut _, s, q => Overdue s q
  | .sweepCgiTimeouts, s, q => Overdue s q
  | .killTimedOut toKill, _, q => q ∈ toKill
  | _, _, _ => False

/-- The connection has been idle for too long, if it waits for a script. -/
def Stale (s : ServerState) (fd : Nat) : Prop :=
  ∀ conn c, s.1.connections.find? fd = some conn → s.1.heap.find? conn = some c → c.state = .WAITING_FOR_CGI →
    CONNECTION_TIMEOUT_S ≤ s.2.now - c.lastActivity

structure Phase (p : Point) (s : ServerState) : Prop where
  late : ∀ q, Late s.1 q → MayBeLate p s q
  stale : ∀ toDrop, p = .dropTimedOut toDrop → ∀ fd ∈ toDrop, Stale s fd

theorem stale_timedOut {fd : Nat} (h : fd ∈ timedOut s.1 s.2.now) : Stale s fd := by
  obtain ⟨⟨g, a⟩, he, rfl⟩ := List.mem_map.1 h
  obtain ⟨he, hany⟩ := List.mem_filter.1 he
  intro conn c hconn hc _
  cases (OrdMap.find?_of_mem_entries he).symm.trans hconn
  have htimer : Connection.hasTimedOut CONNECTION_TIMEOUT_S s.2.now c = true := by
    rwa [hc] at hany
  exact of_decide_eq_true htimer

theorem mem_cgiTimedOut {q start : Nat} (h : s.1.cgiStartTimes.find? q = some start)
    (hlong : CONNECTION_TIMEOUT_S ≤ s.2.now - start) : q ∈ cgiTimedOut s.1 s.2.now := by
  refine List.mem_map.2 ⟨(q, start), List.mem_filter.2 ⟨OrdMap.mem_entries_of_find? h, ?_⟩, rfl⟩
  exact decide_eq_true (le_trans (by decide) hlong)

/-- A turn, at a time that has not changed. -/
theorem Turn.phase (hk : Honest k) (h : Inv s.1) (hpending : Pending s.1 p) (hphase : Phase p s)
    (hturn : Turn k p s p' s') : Phase p' s' := by
  have hnone {q : Nat} (hlate : Late s.1 q) (hp : ∀ t r, ¬ MayBeLate p t r) : False := hp _ _ (hphase.late q hlate)
  cases hturn with
  | roundRobinDone | batchDone => exact ⟨fun q hq => (hphase.late q hq).elim, nofun⟩
  | killDone => exact ⟨fun q hq => absurd (hphase.late q hq) List.not_mem_nil, nofun⟩
  | waitNone => exact ⟨fun q hq => (hphase.late q hq).elim, nofun⟩
  | wait => exact ⟨fun q hq => (hphase.late q hq).elim, nofun⟩
  | sweepLater => exact ⟨fun q hq => (hphase.late q hq).elim, nofun⟩
  | pass => exact ⟨fun q hq => (hphase.late q hq).elim, nofun⟩
  | process hq hmem hrun =>
    exact ⟨fun q hq' => (hphase.late q ((kept_processNext hk h hq hmem hrun).late q hq')).elim, nofun⟩
  | @event fd events rest _ _ hrun =>
    have hhandled := handled_event hk h (hpending.2 _ List.mem_cons_self) hrun
    exact ⟨fun q hq => (hphase.late q (hhandled.late q hq)).elim, nofun⟩
  | sweep =>
    refine ⟨fun q hq => (hphase.late q hq).elim, ?_⟩
    rintro toDrop heq fd hfd
    cases heq
    exact stale_timedOut (s := s) hfd
  | dropDone => exact ⟨fun q hq => hphase.late q hq, nofun⟩
  | @drop fd toDrop _ _ hrun =>
    have hdropped := dropped_dropTimedOut h hrun
    have hstale := hphase.stale _ rfl
    refine ⟨fun q hq => ?_, ?_⟩
    · rw [MayBeLate, Overdue, hdropped.starts, hdropped.now]
      rcases hdropped.late q hq with hold | ⟨conn, c, hconn, hc, hs, hreg⟩
      · exact hphase.late q hold
      · rcases (h.registered hreg hc).state with ⟨-, hstart⟩ | hw
        · exact ⟨c.lastActivity, hstart, hstale fd List.mem_cons_self conn c hconn hc hs⟩
        · rw [hs] at hw
          cases hw
    · rintro rest heq g hg conn c hconn hc hs
      cases heq
      obtain ⟨hconn, hc⟩ := hdropped.waiting g conn c hconn hc hs
      rw [hdropped.now]
      exact hstale g (List.mem_cons_of_mem _ hg) conn c hconn hc hs
  | sweepCgiNone hnone =>
    refine ⟨fun q hq => ?_, nofun⟩
    obtain ⟨conn, c, hreg, -⟩ := hq
    rw [OrdMap.find?_eq_none_of_entries hnone] at hreg
    cases hreg
  | sweepCgi =>
    refine ⟨fun q hq => ?_, nofun⟩
    obtain ⟨start, hstart, hlong⟩ := hphase.late q hq
    exact mem_cgiTimedOut hstart hlong
  | @kill pipeFd toKill _ _ hrun =>
    obtain ⟨hkept, hgone⟩ := kept_killTimedOut h hrun
    refine ⟨fun q hq => (List.mem_cons.1 (hphase.late q (hkept.late q hq))).resolve_left ?_, nofun⟩
    rintro rfl
    exact hgone hq

theorem reach_phase (hk : Honest k) (hclock : ∀ p s, p ≠ .roundRobin 0 → k.now p s = s.2.now) (h : Reach k p s) :
    Phase p s := by
  induction h with
  | start h =>
    refine ⟨fun q hq => ?_, nofun⟩
    obtain ⟨conn, c, hreg, -⟩ := hq
    rw [h.cgiPipeToConn] at hreg
    cases hreg
  | @next p p' s s' hreach hrun ih =>
    obtain ⟨hinv, hpending⟩ := reach_inv hk hreach
    refine Turn.phase hk (s := timed k p s) hinv hpending ?_ (next_turn hrun)
    by_cases hp : p = .roundRobin 0
    · subst hp
      exact ⟨fun q hq => ih.late q hq, nofun⟩
    · have hsame : timed k p s = s := by rw [timed, hclock p s hp]
      rwa [hsame]

/-- The maps agree with each other and with the states of the connections. -/
structure Synced (s : ServerManager) : Prop where
  masks : ∀ fd conn, s.connections.find? fd = some conn → ∃ c, s.heap.find? conn = some c ∧
    c.state ≠ .FINISHED ∧ s.fdEvents.find? fd = some (mask c.state)
  waiting : ∀ fd conn c, s.connections.find? fd = some conn → s.heap.find? conn = some c →
    (c.state = .WAITING_FOR_CGI ↔
      ∃ p, (∀ q, s.cgiPipeToConn.find? q = some conn ↔ q = p) ∧ c.getCgiPipeFd = some p)
  started : ∀ p, s.cgiStartTimes.contains p = s.cgiPipeToConn.contains p
  watched : ∀ fd, s.fdEvents.contains fd ↔ fd ∈ s.listenFds ∨ s.connections.contains fd ∨ s.cgiPipeToConn.contains fd
  listenClient : ∀ fd ∈ s.listenFds, ¬ s.connections.contains fd
  listenPipe : ∀ fd ∈ s.listenFds, ¬ s.cgiPipeToConn.contains fd
  clientPipe : ∀ fd, s.connections.contains fd → ¬ s.cgiPipeToConn.contains fd

theorem Inv.synced {s : ServerManager} (h : Inv s) (hlate : ∀ q, ¬ Late s q) : Synced s := by
  have hpipe {p conn : Nat} (hp : s.cgiPipeToConn.find? p = some conn) :
      p ∉ s.listenFds ∧ s.connections.find? p = none := by
    obtain ⟨c, hc, hreg⟩ := h.pipes.registered p conn hp
    exact ⟨h.table.pipeListen conn c p hc hreg.pipe, h.table.pipeFd conn c p hc hreg.pipe⟩
  refine ⟨fun fd conn hconn => ?_, fun fd conn c hconn hc => ⟨fun hs => ?_, ?_⟩, h.pipes.started, fun fd => ?_,
    fun fd hfd hconn => ?_, fun fd hfd hpipes => ?_, fun fd hconn hpipes => ?_⟩
  · obtain ⟨c, hc, rfl⟩ := h.table.live fd conn hconn
    exact ⟨c, hc, (h.fits conn c hc).unfinished, by rw [h.watched, wanted_client h.table hc]⟩
  · obtain ⟨p, hp⟩ := h.pipes.piped conn c hc hs
    exact ⟨p, fun q => ⟨fun hq => h.pipe_unique hp hq, fun hq => hq ▸ hp⟩, (h.registered hp hc).pipe⟩
  · rintro ⟨p, hp, -⟩
    have hreg := (hp p).2 rfl
    rcases (h.registered hreg hc).state with ⟨hw, -⟩ | hw
    · exact hw
    · exact absurd ⟨conn, c, hreg, hc, hw⟩ (hlate p)
  · rw [OrdMap.contains.eq_1 s.fdEvents, h.watched, OrdMap.contains.eq_1 s.connections]
    by_cases hlisten : fd ∈ s.listenFds
    · rw [wanted_listen hlisten]
      simp [hlisten]
    rcases hconn : s.connections.find? fd with _ | conn
    · rw [wanted_pipe hlisten hconn]
      rcases s.cgiPipeToConn.contains fd <;> simp [hlisten]
    · obtain ⟨c, hc, rfl⟩ := h.table.live fd conn hconn
      rw [wanted_client h.table hc]
      simp
  · obtain ⟨conn, hconn⟩ := OrdMap.contains_iff.1 hconn
    exact h.table.fdListen fd conn hconn hfd
  · obtain ⟨conn, hp⟩ := OrdMap.contains_iff.1 hpipes
    exact (hpipe hp).1 hfd
  · obtain ⟨conn, hp⟩ := OrdMap.contains_iff.1 hpipes
    rw [OrdMap.contains, (hpipe hp).2] at hconn
    cases hconn

/-- `hclock`: the clock moves at the top of an iteration only. -/
theorem reach_synced (hk : Honest k) (hclock : ∀ p s, p ≠ .roundRobin 0 → k.now p s = s.2.now) {n : Nat}
    (h : Reach k (.roundRobin n) s) : Synced s.1 :=
  (reach_inv hk h).1.synced fun q hq => ((reach_phase hk hclock h).late q hq).elim

/-! ### A run -/

/-- So many turns. -/
def after (k : Kernel) : Nat → Point → ServerState → Option (Point × ServerState)
  | 0, p, s => some (p, s)
  | n + 1, p, s =>
    match next k p s with
    | (.ok p', s') => after k n p' s'
    | (.error _, _) => none

theorem Reach.after {n : Nat} (h : Reach k p s) (hafter : ServerManager.after k n p s = some (p', s')) :
    Reach k p' s' := by
  induction n generalizing p s with
  | zero =>
    cases hafter
    exact h
  | succ n ih =>
    rw [ServerManager.after] at hafter
    split at hafter
    · rename_i hrun
      exact ih (h.next hrun) hafter
    · cases hafter

/-- One client comes and sends a request; it waits for nothing else. The clock moves on at each iteration. -/
def oneClient : Kernel where
  sys _ := { Sys.calm with pipe := fun _ => none }
  now p s := if p = .roundRobin 0 then s.2.now + 1 else s.2.now
  recv _ := some (ascii "GET / HTTP/1.1\r\nHost: a\r\n\r\n")
  waiting _ := 1
  accept s :=
    if s.1.heap.entries = [] ∧ s.1.connections.entries = [] ∧ 5 ∉ s.1.listenFds then .client 5 true else .failed
  address s := s.1.heap.keys.foldr max 0 + 1
  readPipe _ := none
  epollWait s :=
    if s.1.fdEvents.find? 5 = some { epollin := true } then some [(5, { epollin := true })]
    else if s.1.fdEvents.find? 3 = some { epollin := true } then some [(3, { epollin := true })]
    else some []

theorem oneClient_honest : Honest oneClient where
  address s := by
    rcases hc : s.1.heap.find? (s.1.heap.keys.foldr max 0 + 1) with _ | c
    · exact hc
    · have hmem := List.mem_map_of_mem (f := (·.1)) (OrdMap.mem_entries_of_find? hc)
      exact absurd (List.le_max_of_le' 0 hmem (le_refl _)) (Nat.not_succ_le_self _)
  accept s fd b h := by
    rw [oneClient] at h
    dsimp only at h
    split at h
    · rename_i hnone
      cases h
      rintro (hlisten | ⟨conn, hconn⟩ | ⟨conn, c, hc, -⟩)
      · exact hnone.2.2 hlisten
      · rw [OrdMap.find?_eq_none_of_entries hnone.2.1] at hconn
        cases hconn
      · rw [OrdMap.find?_eq_none_of_entries hnone.1] at hc
        cases hc
    · cases h
  pipe s t fd h := by cases h
  once s events h := by
    rw [oneClient] at h
    dsimp only at h
    split_ifs at h <;> cases h <;> simp
  asked s events h := by
    rw [oneClient] at h
    dsimp only at h
    split_ifs at h <;> cases h <;> simp [*]

/-- A server with one listening socket. -/
def listening : ServerState :=
  ({ listenFds := {3}, fdEvents := OrdMap.empty.insert 3 { epollin := true },
     listenFdToServerConf := OrdMap.empty.insert 3 (some {}) }, {})

theorem listening_fresh : Fresh listening.1 := by
  refine ⟨rfl, rfl, rfl, rfl, rfl, fun fd => ?_, rfl⟩
  rw [listening, OrdMap.find?_insert]
  simp
  rfl

/-- The request of the client has been read. -/
theorem oneClient_after : ∃ s, after oneClient 12 (.roundRobin 0) listening = some (.roundRobin 0, s) ∧
    s.1.processingSet = {1} ∧ s.1.connections.find? 5 = some 1 := by
  have hrun : (after oneClient 12 (.roundRobin 0) listening).map (fun x =>
      (x.1, x.2.1.processingSet, x.2.1.connections.find? 5)) = some (.roundRobin 0, {1}, some 1) := by decide +kernel
  obtain ⟨⟨p, s⟩, hafter, heq⟩ := Option.map_eq_some_iff.1 hrun
  simp only [Prod.mk.injEq] at heq
  obtain ⟨rfl, hset, hconn⟩ := heq
  exact ⟨s, hafter, hset, hconn⟩

theorem reach_scheduled_oneClient : ∃ s, after oneClient 12 (.roundRobin 0) listening = some (.roundRobin 0, s) ∧
    s.1.processingSet = {1} ∧ Scheduled s.1 := by
  obtain ⟨s, hafter, hset, -⟩ := oneClient_after
  exact ⟨s, hafter, hset, reach_scheduled oneClient_honest ((Reach.start listening_fresh).after hafter)⟩

theorem reach_synced_oneClient : ∃ s, after oneClient 12 (.roundRobin 0) listening = some (.roundRobin 0, s) ∧
    s.1.connections.find? 5 = some 1 ∧ Synced s.1 := by
  obtain ⟨s, hafter, -, hconn⟩ := oneClient_after
  refine ⟨s, hafter, hconn, reach_synced oneClient_honest (fun p s hp => ?_) ((Reach.start listening_fresh).after hafter)⟩
  exact if_neg hp

end ServerManager

end LeftHookRoll
