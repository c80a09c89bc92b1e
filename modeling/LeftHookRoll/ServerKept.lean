import LeftHookRoll.ServerInv

/-!
# Every turn keeps the invariant

One lemma for each turn. `Kept` also says that the turn leaves no script registered for a connection that
has an answer, unless it was so before; only the idle sweep does that.
-/

namespace LeftHookRoll

open Eff

namespace ServerManager

open Connection

/-- The pipe is registered and its connection has an answer by now. -/
def Late (s : ServerManager) (p : Nat) : Prop :=
  ∃ conn c, s.cgiPipeToConn.find? p = some conn ∧ s.heap.find? conn = some c ∧ c.state = .WRITING

/-- What a turn keeps. -/
structure Kept (s s' : ServerManager) : Prop where
  inv : Inv s'
  late : ∀ p, Late s' p → Late s p

/-- What the system promises: a new number or address is not one in use, and an event is reported once,
for a descriptor that is registered and as its mask asks. -/
structure Honest (k : Kernel) : Prop where
  address : ∀ s : ServerState, s.1.heap.find? (k.address s) = none
  accept : ∀ s fd nonblocking, k.accept s = .client fd nonblocking →
    ¬ Holds s.1.heap s.1.connections s.1.listenFds fd
  pipe : ∀ s t fd, (k.sys s).pipe t = some fd → ¬ Holds s.1.heap s.1.connections s.1.listenFds fd
  once : ∀ s events, k.epollWait s = some events → (events.map (·.1)).Nodup
  asked : ∀ s events, k.epollWait s = some events → ∀ e ∈ events, ∃ wanted, s.1.fdEvents.find? e.1 = some wanted ∧
    (e.2.epollin = true → wanted.epollin = true) ∧ (e.2.epollout = true → wanted.epollout = true)

section Updates

variable {s s' : ServerManager} {conn fd p : Nat} {c c' : Connection}

theorem Kept.trans {s'' : ServerManager} (h : Kept s s') (h' : Kept s' s'') : Kept s s'' :=
  ⟨h'.inv, fun p hp => h.late p (h'.late p hp)⟩

/-- A connection whose response is not built yet has no pipe. -/
theorem Inv.unpiped (h : Inv s) (hc : s.heap.find? conn = some c)
    (hs : c.state = .READING ∨ c.state = .PROCESSING) (p : Nat) : s.cgiPipeToConn.find? p ≠ some conn := by
  intro hp
  obtain ⟨d, hd, hreg⟩ := h.pipes.registered p conn hp
  rw [hc] at hd
  cases hd
  rcases hs with hs | hs <;> rcases hreg.state with ⟨hw, -⟩ | hw <;> rw [hs] at hw <;> cases hw

theorem Inv.registered (h : Inv s) (hp : s.cgiPipeToConn.find? p = some conn) (hc : s.heap.find? conn = some c) :
    Registered s.cgiStartTimes p c := by
  obtain ⟨d, hd, hreg⟩ := h.pipes.registered p conn hp
  rw [hc] at hd
  cases hd
  exact hreg

/-- The descriptor of a client is not registered as a pipe. -/
theorem Inv.not_pipe (h : Inv s) (hfd : s.connections.find? fd = some conn) : s.cgiPipeToConn.find? fd = none := by
  by_contra hne
  obtain ⟨a, ha⟩ := Option.ne_none_iff_exists'.1 hne
  obtain ⟨d, hd, hreg⟩ := h.pipes.registered fd a ha
  rw [h.table.pipeFd a d fd hd hreg.pipe] at hfd
  cases hfd

/-- A connection has at most one registered pipe, its own. -/
theorem Inv.pipe_unique {p' : Nat} (h : Inv s) (hp : s.cgiPipeToConn.find? p = some conn)
    (hp' : s.cgiPipeToConn.find? p' = some conn) : p' = p := by
  obtain ⟨c, hc, hreg⟩ := h.pipes.registered p conn hp
  exact Option.some.inj ((h.registered hp' hc).pipe.symm.trans hreg.pipe)

/-- A connection has changed and its mask follows it; the pipes that are registered stay. -/
theorem Inv.change (h : Inv s) (hc : s.heap.find? conn = some c) (hfd : c'.acceptFD = c.acceptFD)
    (hp : ∀ p, c'.getCgiPipeFd = some p → c.getCgiPipeFd = some p ∨ ¬ Holds s.heap s.connections s.listenFds p)
    (hfit : Fit c') (hreg : ∀ p, s.cgiPipeToConn.find? p = some conn → Registered s.cgiStartTimes p c')
    (hwait : c'.state = .WAITING_FOR_CGI → ∃ p, s.cgiPipeToConn.find? p = some conn)
    (set : Finset Nat) (queue : List Nat) (hset : ∀ a, a ≠ conn → (a ∈ set ↔ a ∈ s.processingSet))
    (hqueue : ∀ a, a ≠ conn → a ∈ s.processingQueue → a ∈ queue) (hmem : conn ∈ set ↔ c'.state = .PROCESSING)
    (hqueued : c'.state = .PROCESSING → conn ∈ queue) :
    Inv { watch c.acceptFD (mask c'.state) (put conn c' s) with processingSet := set, processingQueue := queue } := by
  have ht' := h.table.put hc hfd hp
  have hfind := OrdMap.find?_insert_self s.heap conn c'
  have hother (a : Nat) (ha : a ≠ conn) : (s.heap.insert conn c').find? a = s.heap.find? a :=
    OrdMap.find?_insert_of_ne _ ha _
  refine ⟨ht', h.queue.update conn hother hset hqueue (fun hin => ⟨c', hfind, hmem.1 hin⟩) ?_, h.fits.put hfit conn,
    h.pipes.update conn hother (fun _ _ _ => Iff.rfl) h.pipes.started (fun _ _ _ _ => rfl)
      (fun p hp => ⟨c', hfind, hreg p hp⟩) ?_, h.watched.put h.table ht' hc hfd⟩
  · intro d hd hs
    cases hfind.symm.trans hd
    exact ⟨hmem.2 hs, hqueued hs⟩
  · intro d hd hs
    cases hfind.symm.trans hd
    exact hwait hs

/-- The mask needs no change when the state has none. -/
theorem watch_same (h : Inv s) (hc : s.heap.find? conn = some c) (hs : c'.state = c.state) :
    watch c.acceptFD (mask c'.state) (put conn c' s) = put conn c' s := by
  have hmask : s.fdEvents.find? c.acceptFD = some (mask c'.state) := by
    rw [h.watched, hs, wanted_client h.table hc]
  exact congrArg (fun m => { put conn c' s with fdEvents := m }) (OrdMap.insert_of_find? hmask)

/-- A late pipe is that of another connection, or the one that is spoken of. -/
theorem Late.update (h : Late s' p) (conn : Nat)
    (hheap : ∀ a, a ≠ conn → s'.heap.find? a = s.heap.find? a)
    (hpipes : ∀ a, a ≠ conn → s'.cgiPipeToConn.find? p = some a → s.cgiPipeToConn.find? p = some a)
    (hconn : ∀ d, s'.cgiPipeToConn.find? p = some conn → s'.heap.find? conn = some d → d.state = .WRITING → Late s p) :
    Late s p := by
  obtain ⟨a, d, hp, hd, hs⟩ := h
  by_cases heq : a = conn
  · rw [heq] at hp hd
    exact hconn d hp hd hs
  · exact ⟨a, d, hpipes a heq hp, by rwa [← hheap a heq], hs⟩

/-- The connection has got an answer, and is not processed any more. -/
theorem Inv.answered (h : Inv s) (hc : s.heap.find? conn = some c) (hfd : c'.acceptFD = c.acceptFD)
    (hp : ∀ p, c'.getCgiPipeFd = some p → c.getCgiPipeFd = some p ∨ ¬ Holds s.heap s.connections s.listenFds p)
    (hs : c'.state = .WRITING) (hkeep : ∀ p, s.cgiPipeToConn.find? p = some conn → c'.getCgiPipeFd = some p)
    {queue : List Nat} (hqueue : ∀ a, a ≠ conn → a ∈ s.processingQueue → a ∈ queue) :
    Inv { watch c.acceptFD (mask .WRITING) (dequeue conn (put conn c' s)) with processingQueue := queue } := by
  have hne (state : ConnectionState) (hstate : state ≠ .WRITING) : c'.state ≠ state := fun h => hstate (h.symm.trans hs)
  have := h.change hc hfd hp (.of_writing hs) (fun p hp => ⟨hkeep p hp, .inr hs⟩)
    (fun h => absurd h (hne _ (by decide))) (s.processingSet.erase conn) queue (fun a ha => by simp [ha]) hqueue
    ⟨fun h => absurd h (by simp), fun h => absurd h (hne _ (by decide))⟩ (fun h => absurd h (hne _ (by decide)))
  rw [hs] at this
  exact this

/-- The connection waits for a script, with a pipe that was not open. -/
theorem Inv.waiting (h : Inv s) (hc : s.heap.find? conn = some c) (hs : c.state = .PROCESSING)
    (hfd : c'.acceptFD = c.acceptFD) (hs' : c'.state = .WAITING_FOR_CGI) (hp : c'.getCgiPipeFd = some p)
    (hnew : ¬ Holds s.heap s.connections s.listenFds p) {queue : List Nat}
    (hqueue : ∀ a, a ≠ conn → a ∈ s.processingQueue → a ∈ queue) :
    Inv { watch p (mask .READING) (register p conn c'.lastActivity (watch c.acceptFD (mask .WAITING_FOR_CGI)
      (dequeue conn (put conn c' s)))) with processingQueue := queue } := by
  have ht' := h.table.put hc hfd fun q hq => .inr (Option.some.inj (hp.symm.trans hq) ▸ hnew)
  have hfind := OrdMap.find?_insert_self s.heap conn c'
  have hother (a : Nat) (ha : a ≠ conn) : (s.heap.insert conn c').find? a = s.heap.find? a :=
    OrdMap.find?_insert_of_ne _ ha _
  have hfree (a : Nat) : s.cgiPipeToConn.find? p ≠ some a := fun ha => by
    obtain ⟨d, hd, hreg⟩ := h.pipes.registered p a ha
    exact hnew (.inr (.inr ⟨a, d, hd, hreg.pipe⟩))
  have hnone : s.connections.find? p = none := by
    by_contra hne
    exact hnew (.inr (.inl (Option.ne_none_iff_exists'.1 hne)))
  have hwatched := h.watched.put h.table ht' hc hfd
  rw [hs'] at hwatched
  refine ⟨ht', h.queue.update conn hother (fun a ha => by simp [dequeue, ha, put, watch, register]) hqueue ?_ ?_,
    h.fits.put (.of_waiting hs') conn, h.pipes.update conn hother ?_ ?_ ?_ ?_ ?_,
    hwatched.register (fun hmem => hnew (.inl hmem)) hnone conn⟩
  · exact fun hin => absurd hin (Finset.notMem_erase conn _)
  · intro d hd hd'
    cases hfind.symm.trans hd
    rw [hs'] at hd'
    cases hd'
  · intro q a ha
    refine OrdMap.find?_insert_eq_some.trans ⟨?_, fun hq => .inr ⟨?_, hq⟩⟩
    · rintro (⟨-, rfl⟩ | ⟨-, hq⟩)
      · exact absurd rfl ha
      · exact hq
    · rintro rfl
      exact hfree a hq
  · exact h.pipes.started_insert p conn c'.lastActivity
  · intro q a ha hq
    refine OrdMap.find?_insert_of_ne _ ?_ _
    rintro rfl
    exact ha (Option.some.inj (hq.symm.trans (OrdMap.find?_insert_self ..)))
  · intro q hq
    rcases OrdMap.find?_insert_eq_some.1 hq with ⟨rfl, -⟩ | ⟨-, hq⟩
    · exact ⟨c', hfind, hp, .inl ⟨hs', OrdMap.find?_insert_self ..⟩⟩
    · exact absurd hq (h.unpiped hc (.inr hs) q)
  · exact fun _ _ _ => ⟨p, OrdMap.find?_insert_self ..⟩

/-- The script is done with, and the connection has an answer. -/
theorem Inv.settle (h : Inv s) (hp : s.cgiPipeToConn.find? p = some conn) (hc : s.heap.find? conn = some c)
    (hfd : c'.acceptFD = c.acceptFD) (hpipe : c'.getCgiPipeFd = c.getCgiPipeFd ∨ c'.getCgiPipeFd = none)
    (hs : c'.state = .WRITING) : Inv (settle p conn c' s) := by
  have hreg := h.registered hp hc
  have ht' := h.table.put hc hfd fun q hq => .inl (by
    rcases hpipe with hpipe | hpipe
    · rwa [← hpipe]
    · rw [hpipe] at hq
      cases hq)
  have hfind := OrdMap.find?_insert_self s.heap conn c'
  have hother (a : Nat) (ha : a ≠ conn) : (s.heap.insert conn c').find? a = s.heap.find? a :=
    OrdMap.find?_insert_of_ne _ ha _
  have hne (state : ConnectionState) (hstate : state ≠ .WRITING) : c'.state ≠ state := fun h => hstate (h.symm.trans hs)
  have hwatched := (h.watched.unregister (h.table.pipeListen conn c p hc hreg.pipe)
    (h.table.pipeFd conn c p hc hreg.pipe)).put h.table ht' hc hfd
  rw [hs, ← hfd] at hwatched
  refine ⟨ht', h.queue.update conn hother (fun _ _ => Iff.rfl) (fun _ _ => id) ?_ ?_,
    h.fits.put (.of_writing hs) conn, h.pipes.update conn hother ?_ ?_ ?_ ?_ ?_, hwatched⟩
  · intro hin
    obtain ⟨d, hd, hstate⟩ := h.queue.queued conn hin
    cases hc.symm.trans hd
    exact absurd hp (h.unpiped hc (.inr hstate) p)
  · intro d hd hstate
    cases hfind.symm.trans hd
    exact absurd hstate (hne _ (by decide))
  · intro q a ha
    refine OrdMap.find?_erase_eq_some.trans ⟨fun hq => hq.2, fun hq => ⟨?_, hq⟩⟩
    rintro rfl
    exact ha (Option.some.inj (hq.symm.trans hp))
  · exact h.pipes.started_erase p
  · intro q a _ hq
    exact (OrdMap.find?_erase ..).trans (if_neg (OrdMap.find?_erase_eq_some.1 hq).1)
  · intro q hq
    obtain ⟨hqp, hq⟩ := OrdMap.find?_erase_eq_some.1 hq
    exact absurd (h.pipe_unique hp hq) hqp
  · intro d hd hstate
    cases hfind.symm.trans hd
    exact absurd hstate (hne _ (by decide))

/-- The connection and its pipe are gone. -/
theorem Inv.remove (h : Inv s) (hfd : s.connections.find? fd = some conn) (hc : s.heap.find? conn = some c) :
    Inv (remove fd conn (unregisterPipe c.getCgiPipeFd s)) := by
  have hother (a : Nat) (ha : a ≠ conn) : (s.heap.erase conn).find? a = s.heap.find? a := by
    rw [OrdMap.find?_erase, if_neg ha]
  have hgone (d : Connection) : (s.heap.erase conn).find? conn ≠ some d := by
    rw [OrdMap.find?_erase, if_pos rfl]
    exact nofun
  have hfdpipe := h.not_pipe hfd
  have ht := h.table.remove hfd
  -- the pipe of the connection is not registered for another one
  have hmine {q a : Nat} (hq : s.cgiPipeToConn.find? q = some a) (hcq : c.getCgiPipeFd = some q) : a = conn := by
    obtain ⟨d, hd, hreg⟩ := h.pipes.registered q a hq
    exact h.table.pipeOne a conn d c q hd hc hreg.pipe hcq
  rcases hpipe : c.getCgiPipeFd with _ | p
  · have hunused (q : Nat) : s.cgiPipeToConn.find? q ≠ some conn := fun hq => by
      have := (h.registered hq hc).pipe
      rw [hpipe] at this
      cases this
    exact ⟨ht, h.queue.update conn hother (fun a ha => by simp [ServerManager.remove, unregisterPipe, ha])
      (fun _ _ => id) (fun hin => absurd hin (Finset.notMem_erase conn _)) (fun d hd => absurd hd (hgone d)),
      h.fits.remove conn, h.pipes.update conn hother (fun _ _ _ => Iff.rfl) h.pipes.started (fun _ _ _ _ => rfl)
        (fun q hq => absurd hq (hunused q)) (fun d hd => absurd hd (hgone d)),
      h.watched.remove h.table hfdpipe hfd⟩
  · refine ⟨ht, h.queue.update conn hother (fun a ha => by simp [ServerManager.remove, unregisterPipe, unregister, ha])
      (fun _ _ => id) (fun hin => absurd hin (Finset.notMem_erase conn _)) (fun d hd => absurd hd (hgone d)),
      h.fits.remove conn, h.pipes.update conn hother ?_ ?_ ?_ ?_ (fun d hd => absurd hd (hgone d)),
      (h.watched.unregister (h.table.pipeListen conn c p hc hpipe) (h.table.pipeFd conn c p hc hpipe)).remove
        h.table ?_ hfd⟩
    · intro q a ha
      refine OrdMap.find?_erase_eq_some.trans ⟨fun hq => hq.2, fun hq => ⟨?_, hq⟩⟩
      rintro rfl
      exact ha (hmine hq hpipe)
    · exact h.pipes.started_erase p
    · intro q a _ hq
      exact (OrdMap.find?_erase ..).trans (if_neg (OrdMap.find?_erase_eq_some.1 hq).1)
    · intro q hq
      obtain ⟨hqp, hq⟩ := OrdMap.find?_erase_eq_some.1 hq
      exact absurd (Option.some.inj ((h.registered hq hc).pipe.symm.trans hpipe)) hqp
    · rw [OrdMap.find?_erase, hfdpipe, ite_self]

theorem Inv.addClient (h : Inv s) (hnew : s.heap.find? conn = none) (hfd : ¬ Holds s.heap s.connections s.listenFds fd)
    (now : Nat) (conf : Option ServerConf) :
    Inv (watch fd (mask .READING) (addClient fd conn now conf s)) := by
  have hfind := OrdMap.find?_insert_self s.heap conn (Connection.new fd conf now)
  have hother (a : Nat) (ha : a ≠ conn) : (s.heap.insert conn (Connection.new fd conf now)).find? a = s.heap.find? a :=
    OrdMap.find?_insert_of_ne _ ha _
  have ht' : Table (s.heap.insert conn (Connection.new fd conf now)) (s.connections.insert fd conn) s.listenFds :=
    h.table.addClient (c := Connection.new fd conf now) hnew hfd rfl
  refine ⟨ht', h.queue.update conn hother (fun _ _ => Iff.rfl) (fun _ _ => id) ?_ ?_, h.fits.put ?_ conn,
    h.pipes.update conn hother (fun _ _ _ => Iff.rfl) h.pipes.started (fun _ _ _ _ => rfl) ?_ ?_,
    h.watched.addClient (c := Connection.new fd conf now) h.table ht' hnew rfl⟩
  · intro hin
    obtain ⟨d, hd, -⟩ := h.queue.queued conn hin
    rw [hnew] at hd
    cases hd
  · intro d hd hs
    cases hfind.symm.trans hd
    cases hs
  · exact ⟨nofun, fun _ => ⟨rfl, nofun⟩⟩
  · intro q hq
    obtain ⟨d, hd, -⟩ := h.pipes.registered q conn hq
    rw [hnew] at hd
    cases hd
  · intro d hd hs
    cases hfind.symm.trans hd
    cases hs

end Updates

/-! ### The turns -/

section Turns

variable {k : Kernel} {s s' : ServerState} {conn fd pipeFd : Nat} {events : Events} {w' : World}

/-- The connection is not processed, if there is one. -/
def Idle (s : ServerManager) (fd : Nat) : Prop :=
  ∀ conn c, s.connections.find? fd = some conn → s.heap.find? conn = some c → c.state ≠ .PROCESSING

theorem Idle.update {s s' : ServerManager} (h : Idle s fd) (conn : Nat)
    (hheap : ∀ a, a ≠ conn → s'.heap.find? a = s.heap.find? a)
    (hconn : ∀ a, a ≠ conn → s'.connections.find? fd = some a → s.connections.find? fd = some a)
    (hstate : ∀ d, s'.connections.find? fd = some conn → s'.heap.find? conn = some d → d.state ≠ .PROCESSING) :
    Idle s' fd := by
  intro a d ha hd
  by_cases heq : a = conn
  · rw [heq] at ha hd
    exact hstate d ha hd
  · exact h a d (hconn a heq ha) (by rwa [← hheap a heq])

theorem kept_processNext {queue : List Nat} (hk : Honest k) (h : Inv s.1)
    (hq : s.1.processingQueue = conn :: queue) (hmem : conn ∈ s.1.processingSet)
    (hrun : processNext k conn ({ s.1 with processingQueue := queue }, s.2) = (.ok (), s')) : Kept s.1 s'.1 := by
  obtain ⟨c, hc, hs⟩ := h.queue.queued conn hmem
  obtain ⟨c', w', hown, hturn⟩ := processNext_ok (s := ({ s.1 with processingQueue := queue }, s.2)) hc hs ((h.fits conn c hc).building (.inr hs)) hrun
  have hfd := hown.client.acceptFD
  have hpipe (p : Nat) (hp : c'.getCgiPipeFd = some p) :
      c.getCgiPipeFd = some p ∨ ¬ Holds s.1.heap s.1.connections s.1.listenFds p :=
    (hown.pipe p hp).imp_right fun ⟨t, ht⟩ => hk.pipe ({ s.1 with processingQueue := queue }, s.2) t p ht
  have hunpiped := h.unpiped hc (.inr hs)
  have hother (a : Nat) (ha : a ≠ conn) : (s.1.heap.insert conn c').find? a = s.1.heap.find? a :=
    OrdMap.find?_insert_of_ne _ ha _
  have hrest (a : Nat) (ha : a ≠ conn) (hin : a ∈ s.1.processingQueue) : a ∈ queue := by
    rw [hq] at hin
    exact (List.mem_cons.1 hin).resolve_left ha
  rcases hturn with ⟨hs', hb, rfl⟩ | ⟨hs', rfl⟩ | ⟨hwaits, p, hp, rfl⟩
  · have hfit : Fit c' := ⟨by rw [hs']; decide, fun _ => hb⟩
    have hinv := h.change hc hfd hpipe hfit (fun p hp => absurd hp (hunpiped p))
      (fun hw => by rw [hs'] at hw; cases hw) s.1.processingSet (queue ++ [conn]) (fun _ _ => Iff.rfl) (fun a ha hin => List.mem_append_left _ (hrest a ha hin)) ⟨fun _ => hs', fun _ => hmem⟩
      fun _ => List.mem_append_right _ (List.mem_singleton_self conn)
    rw [watch_same h hc (hs'.trans hs.symm)] at hinv
    exact ⟨hinv, fun p hp => hp.update conn hother (fun _ _ => id) fun d hd => absurd hd (hunpiped p)⟩
  · exact ⟨h.answered hc hfd hpipe hs' (fun p hp => absurd hp (hunpiped p)) hrest,
      fun p hp => hp.update conn hother (fun _ _ => id) fun d hd => absurd hd (hunpiped p)⟩
  · have hnew := (hpipe p hp).resolve_left fun hold => by
      have := ((h.fits conn c hc).building (.inr hs)).cgiInstance
      rw [Connection.getCgiPipeFd, Response.getCgiOutputFd, this] at hold
      cases hold
    have hinv := h.waiting hc hs hfd hwaits.state hp hnew hrest
    rw [hwaits.lastActivity] at hinv
    refine ⟨hinv, fun q hq => hq.update conn hother (fun a ha hreg => ?_) fun d hreg hd hw => ?_⟩
    · rcases OrdMap.find?_insert_eq_some.1 hreg with ⟨-, rfl⟩ | ⟨-, hreg⟩
      · exact absurd rfl ha
      · exact hreg
    · cases (OrdMap.find?_insert_self ..).symm.trans hd
      rw [hwaits.state] at hw
      cases hw

/-- What a turn of the idle sweep does: it can leave the pipe of a connection that was waiting registered. -/
structure Dropped (fd : Nat) (s s' : ServerState) : Prop where
  inv : Inv s'.1
  now : s'.2.now = s.2.now
  starts : s'.1.cgiStartTimes = s.1.cgiStartTimes
  late : ∀ p, Late s'.1 p → Late s.1 p ∨ ∃ conn c, s.1.connections.find? fd = some conn ∧
    s.1.heap.find? conn = some c ∧ c.state = .WAITING_FOR_CGI ∧ s.1.cgiPipeToConn.find? p = some conn
  waiting : ∀ g conn c, s'.1.connections.find? g = some conn → s'.1.heap.find? conn = some c →
    c.state = .WAITING_FOR_CGI → s.1.connections.find? g = some conn ∧ s.1.heap.find? conn = some c

theorem dropped_dropTimedOut (h : Inv s.1) (hrun : dropTimedOut k fd s = (.ok (), s')) : Dropped fd s s' := by
  rcases hconn : s.1.connections.find? fd with _ | conn
  · rw [dropTimedOut, Eff.obj_bind, hconn] at hrun
    cases hrun
    exact ⟨h, rfl, rfl, fun p hp => .inl hp, fun _ _ _ ha hd _ => ⟨ha, hd⟩⟩
  obtain ⟨c, hc, -⟩ := h.table.live fd conn hconn
  obtain ⟨c', w', hsteady, hs', rfl⟩ := dropTimedOut_ok hconn hc hrun
  have hpipe := hsteady.getCgiPipeFd_eq
  have hother (a : Nat) (ha : a ≠ conn) : (s.1.heap.insert conn c').find? a = s.1.heap.find? a :=
    OrdMap.find?_insert_of_ne _ ha _
  refine ⟨h.answered hc hsteady.client.acceptFD (fun p hp => .inl (hpipe ▸ hp)) hs'
    (fun p hp => hpipe.trans (h.registered hp hc).pipe) fun _ _ => id, hsteady.world.1, rfl, fun p hp => ?_, fun g a d ha hd hw => ?_⟩
  · obtain ⟨a, d, hreg, hd, hw⟩ := hp
    by_cases heq : a = conn
    · subst heq
      rcases (h.registered hreg hc).state with ⟨hwait, -⟩ | hwriting
      · exact .inr ⟨a, c, hconn, hc, hwait, hreg⟩
      · exact .inl ⟨a, c, hreg, hc, hwriting⟩
    · exact .inl ⟨a, d, hreg, by rw [← hother a heq]; exact hd, hw⟩
  · rcases OrdMap.find?_insert_eq_some.1 hd with ⟨-, rfl⟩ | ⟨-, hd⟩
    · rw [hs'] at hw
      cases hw
    · exact ⟨ha, hd⟩

theorem kept_settle {c c' : Connection} (h : Inv s.1) (hp : s.1.cgiPipeToConn.find? pipeFd = some conn)
    (hc : s.1.heap.find? conn = some c) (hs : Settles c c' s.2 w') : Kept s.1 (settle pipeFd conn c' s.1) := by
  refine ⟨h.settle hp hc hs.client.acceptFD hs.pipe hs.state, fun p hlate => hlate.update conn ?_ ?_ ?_⟩
  · exact fun a ha => OrdMap.find?_insert_of_ne _ ha _
  · exact fun a _ hreg => (OrdMap.find?_erase_eq_some.1 hreg).2
  · intro d hreg
    obtain ⟨hne, hreg⟩ := OrdMap.find?_erase_eq_some.1 hreg
    exact absurd (h.pipe_unique hp hreg) hne

theorem idle_settle {c c' : Connection} (hs : Settles c c' s.2 w') (h : Idle s.1 fd) :
    Idle (settle pipeFd conn c' s.1) fd := by
  refine h.update conn (fun a ha => OrdMap.find?_insert_of_ne _ ha _) (fun _ _ => id) fun d _ hd => ?_
  cases (OrdMap.find?_insert_self ..).symm.trans hd
  rw [hs.state]
  decide

/-- No pipe is registered for long after its script took too long. -/
theorem kept_killTimedOut (h : Inv s.1) (hrun : killTimedOut k pipeFd s = (.ok (), s')) :
    Kept s.1 s'.1 ∧ ¬ Late s'.1 pipeFd := by
  rcases hp : s.1.cgiPipeToConn.find? pipeFd with _ | conn
  · rw [killTimedOut, Eff.obj_bind, hp] at hrun
    cases hrun
    refine ⟨⟨h, fun _ => id⟩, ?_⟩
    rintro ⟨conn, c, hreg, -⟩
    rw [hp] at hreg
    cases hreg
  obtain ⟨c, hc, -⟩ := h.pipes.registered pipeFd conn hp
  obtain ⟨c', w', hs, rfl⟩ := killTimedOut_ok hp hc hrun
  refine ⟨kept_settle h hp hc hs, ?_⟩
  rintro ⟨conn, c, hreg, -⟩
  exact (OrdMap.find?_erase_eq_some.1 hreg).1 rfl

/-- What the turn of an event keeps: no other connection comes to be processed. -/
structure Handled (fd : Nat) (s s' : ServerManager) : Prop extends Kept s s' where
  idle : ∀ g, g ≠ fd → Idle s g → Idle s' g

theorem Handled.refl (h : Inv s.1) (fd : Nat) : Handled fd s.1 s.1 := ⟨⟨h, fun _ => id⟩, fun _ _ => id⟩

theorem Handled.trans {s s' s'' : ServerManager} (h : Handled fd s s') (h' : Handled fd s' s'') : Handled fd s s'' :=
  ⟨h.toKept.trans h'.toKept, fun g hg hi => h'.idle g hg (h.idle g hg hi)⟩

theorem handled_cgiPipeEvent (h : Inv s.1) (hrun : handleCgiPipeEvent k pipeFd events s = (.ok (), s')) :
    Handled pipeFd s.1 s'.1 := by
  rcases hp : s.1.cgiPipeToConn.find? pipeFd with _ | conn
  · rw [handleCgiPipeEvent, Eff.obj_bind, hp] at hrun
    cases hrun
    exact .refl h pipeFd
  obtain ⟨c, hc, hreg⟩ := h.pipes.registered pipeFd conn hp
  obtain ⟨c', w', ⟨hr, rfl⟩ | ⟨hs, rfl⟩⟩ := handleCgiPipeEvent_ok hp hc hrun
  swap
  · exact ⟨kept_settle h hp hc hs, fun g _ hi => idle_settle hs hi⟩
  have hother (a : Nat) (ha : a ≠ conn) : (s.1.heap.insert conn c').find? a = s.1.heap.find? a :=
    OrdMap.find?_insert_of_ne _ ha _
  have hnot : c'.state ≠ .PROCESSING := by
    rw [hr.state]
    rcases hreg.state with ⟨hw, -⟩ | hw <;> rw [hw] <;> decide
  have hfit : Fit c' := by
    rcases hreg.state with ⟨hw, -⟩ | hw
    · exact .of_waiting (hr.state.trans hw)
    · exact .of_writing (hr.state.trans hw)
  have hinv := h.change hc hr.client.acceptFD (fun p hp => .inl (hr.pipe ▸ hp)) hfit
    (fun p hp => ⟨hr.pipe.trans (h.registered hp hc).pipe, by
      rw [hr.state, hr.lastActivity]
      exact (h.registered hp hc).state⟩)
    (fun _ => ⟨pipeFd, hp⟩) s.1.processingSet s.1.processingQueue (fun _ _ => Iff.rfl) (fun _ _ => id)
    ⟨fun hin => by
      obtain ⟨d, hd, hs⟩ := h.queue.queued conn hin
      cases hc.symm.trans hd
      exact absurd hp (h.unpiped hc (.inr hs) pipeFd), fun hs => absurd hs hnot⟩ fun hs => absurd hs hnot
  rw [watch_same h hc hr.state] at hinv
  refine ⟨⟨hinv, fun p hlate => hlate.update conn hother (fun _ _ => id) fun d hreg hd hw => ?_⟩, fun g _ hi =>
    hi.update conn hother (fun _ _ => id) fun d _ hd => ?_⟩
  · cases (OrdMap.find?_insert_self ..).symm.trans hd
    exact ⟨conn, c, hreg, hc, hr.state ▸ hw⟩
  · cases (OrdMap.find?_insert_self ..).symm.trans hd
    exact hnot

theorem connections_unregisterPipe (pipe : Option Nat) (s : ServerManager) :
    (unregisterPipe pipe s).connections = s.connections ∧ (unregisterPipe pipe s).heap = s.heap := by
  cases pipe <;> exact ⟨rfl, rfl⟩

theorem find?_unregisterPipe {pipe : Option Nat} {s : ServerManager} {p a : Nat}
    (h : (unregisterPipe pipe s).cgiPipeToConn.find? p = some a) : s.cgiPipeToConn.find? p = some a := by
  cases pipe
  · exact h
  · exact (OrdMap.find?_erase_eq_some.1 h).2

theorem handled_remove {c : Connection} (h : Inv s.1) (hfd : s.1.connections.find? fd = some conn)
    (hc : s.1.heap.find? conn = some c) : Handled fd s.1 (remove fd conn (unregisterPipe c.getCgiPipeFd s.1)) := by
  obtain ⟨hconns, hheap⟩ := connections_unregisterPipe c.getCgiPipeFd s.1
  have hother (a : Nat) (ha : a ≠ conn) :
      ((unregisterPipe c.getCgiPipeFd s.1).heap.erase conn).find? a = s.1.heap.find? a := by
    rw [OrdMap.find?_erase, if_neg ha, hheap]
  have hgone {d : Connection} : ((unregisterPipe c.getCgiPipeFd s.1).heap.erase conn).find? conn ≠ some d := by
    rw [OrdMap.find?_erase, if_pos rfl]
    exact nofun
  refine ⟨⟨h.remove hfd hc, fun p hlate => hlate.update conn hother (fun a _ hreg => find?_unregisterPipe hreg)
    fun d _ hd => absurd hd hgone⟩, fun g _ hi => hi.update conn hother (fun a _ ha => ?_) fun d _ hd => absurd hd hgone⟩
  rw [← hconns]
  exact (OrdMap.find?_erase_eq_some.1 ha).2

theorem remove_put (c' : Connection) (pipe : Option Nat) (s : ServerManager) :
    remove fd conn (unregisterPipe pipe (put conn c' s)) = remove fd conn (unregisterPipe pipe s) := by
  cases pipe <;> simp only [remove, unregisterPipe, unregister, put, OrdMap.erase_insert]

/-- An event of a number that is not that of a client: there is nothing to forget. -/
theorem handled_unknown (h : Inv s.1) (hlisten : fd ∉ s.1.listenFds) (hconn : s.1.connections.find? fd = none)
    (hpipe : s.1.cgiPipeToConn.contains fd = false) (closed : List Nat) :
    Handled fd s.1 { s.1 with fdEvents := s.1.fdEvents.erase fd, closed := closed } := by
  refine ⟨⟨⟨h.table, h.queue, h.fits, h.pipes, fun g => ?_⟩, fun _ => id⟩, fun _ _ => id⟩
  rw [OrdMap.find?_erase]
  split
  · rename_i hg
    rw [hg, wanted_pipe hlisten hconn, hpipe]
    rfl
  · exact h.watched g

theorem handled_connection {c : Connection} (h : Inv s.1) (hfd : s.1.connections.find? c.acceptFD = some conn)
    (hc : s.1.heap.find? conn = some c) (hidle : events.epollin = true → c.state ≠ .PROCESSING)
    (hrun : handleConnection k conn events s = (.ok (), s')) : Handled c.acceptFD s.1 s'.1 := by
  obtain ⟨c', w', hserves, ⟨-, rfl⟩ | ⟨hnot, rfl⟩⟩ := handleConnection_ok hc hfd hidle hrun
  · rw [remove_put, hserves.steady.getCgiPipeFd_eq]
    exact handled_remove h hfd hc
  have hpipe := hserves.steady.getCgiPipeFd_eq
  have hother (a : Nat) (ha : a ≠ conn) : (s.1.heap.insert conn c').find? a = s.1.heap.find? a :=
    OrdMap.find?_insert_of_ne _ ha _
  have hstate : c'.state = c.state ∨ c.state = .READING ∨ c.state = .WRITING ∧ c'.state = .WRITING :=
    hserves.state.imp_right (Or.imp_right fun ⟨hs, hs'⟩ => ⟨hs, hs'.resolve_right hnot⟩)
  have hreg (p : Nat) (hp : s.1.cgiPipeToConn.find? p = some conn) : Registered s.1.cgiStartTimes p c' := by
    have hold := h.registered hp hc
    refine ⟨hpipe.trans hold.pipe, ?_⟩
    rcases hold.state with ⟨hw, ht⟩ | hw
    · rcases hstate with hs | hs | hs
      · exact .inl ⟨hs.trans hw, by rw [hserves.timer hw, ht]⟩
      · rw [hw] at hs
        cases hs
      · exact .inr hs.2
    · rcases hstate with hs | hs | hs
      · exact .inr (hs.trans hw)
      · rw [hw] at hs
        cases hs
      · exact .inr hs.2
  have hfit : Fit c' := by
    refine ⟨hnot, fun hs' => hserves.steady.response.building ((h.fits conn c hc).building ?_)⟩
    rcases hstate with hs | hs | hs
    · rwa [hs] at hs'
    · exact .inl hs
    · rw [hs.2] at hs'
      exact absurd hs' (by decide)
  have hwait (hs' : c'.state = .WAITING_FOR_CGI) : ∃ p, s.1.cgiPipeToConn.find? p = some conn :=
    h.pipes.piped conn c hc (hserves.steady.waits hs')
  have hkept (set : Finset Nat) (queue : List Nat) (hset : ∀ a, a ≠ conn → (a ∈ set ↔ a ∈ s.1.processingSet))
      (hqueue : ∀ a, a ≠ conn → a ∈ s.1.processingQueue → a ∈ queue) (hmem : conn ∈ set ↔ c'.state = .PROCESSING)
      (hqueued : c'.state = .PROCESSING → conn ∈ queue) : Handled c.acceptFD s.1
        { watch c.acceptFD (mask c'.state) (put conn c' s.1) with processingSet := set, processingQueue := queue } := by
    refine ⟨⟨h.change hc hserves.steady.client.acceptFD (fun p hp => .inl (hpipe ▸ hp)) hfit hreg hwait set queue hset hqueue hmem
      hqueued, fun p hlate => hlate.update conn hother (fun _ _ => id) fun d hp hd hw => ?_⟩,
      fun g hg hi => hi.update conn hother (fun _ _ => id) fun d hconn => ?_⟩
    · cases (OrdMap.find?_insert_self ..).symm.trans hd
      refine ⟨conn, c, hp, hc, ?_⟩
      rcases (h.registered hp hc).state with ⟨hwait, -⟩ | hwriting
      · rcases hstate with hs | hs | hs
        · exact hs.symm.trans hw
        · rw [hwait] at hs
          cases hs
        · exact hs.1
      · exact hwriting
    · obtain ⟨d, hd, hdfd⟩ := h.table.live g conn hconn
      cases hc.symm.trans hd
      exact absurd hdfd.symm hg
  have hmember : conn ∈ s.1.processingSet ↔ c.state = .PROCESSING := by
    refine ⟨fun hin => ?_, fun hs => (h.queue.waits conn c hc hs).1⟩
    obtain ⟨d, hd, hs⟩ := h.queue.queued conn hin
    cases hc.symm.trans hd
    exact hs
  by_cases henqueue : c.state ≠ .PROCESSING ∧ c'.state = .PROCESSING
  · have hnotin : conn ∉ (put conn c' s.1).processingSet := fun hin => henqueue.1 (hmember.1 hin)
    rw [enqueueIf, if_pos henqueue, enqueue, if_neg hnotin]
    exact hkept (insert conn s.1.processingSet) (s.1.processingQueue ++ [conn])
      (fun a ha => by simp [ha]) (fun a _ hin => List.mem_append_left _ hin)
      ⟨fun _ => henqueue.2, fun _ => Finset.mem_insert_self ..⟩
      fun _ => List.mem_append_right _ (List.mem_singleton_self conn)
  · rw [enqueueIf, if_neg henqueue]
    have hsame : c'.state = .PROCESSING → c.state = .PROCESSING := fun hs => by
      by_contra hne
      exact henqueue ⟨hne, hs⟩
    refine hkept _ _ (fun _ _ => Iff.rfl) (fun _ _ => id) (hmember.trans ⟨fun hs => ?_, hsame⟩) fun hs =>
      (h.queue.waits conn c hc (hsame hs)).2
    rcases hstate with hs' | hs' | hs'
    · exact hs'.trans hs
    · rw [hs] at hs'
      cases hs'
    · rw [hs] at hs'
      cases hs'.1

theorem handled_acceptNext {listenFd : Nat} {more : Bool} (hk : Honest k) (h : Inv s.1)
    (hrun : acceptNext k listenFd s = (.ok more, s')) (fd : Nat) : Handled fd s.1 s'.1 := by
  rcases acceptNext_ok hrun with rfl | ⟨clientFd, haccept, rfl⟩
  · exact .refl h fd
  have hnew := hk.address s
  have hother (a : Nat) (ha : a ≠ k.address s) (c : Connection) :
      (s.1.heap.insert (k.address s) c).find? a = s.1.heap.find? a := OrdMap.find?_insert_of_ne _ ha _
  refine ⟨⟨h.addClient hnew (hk.accept s clientFd true haccept) _ _, fun p hlate => hlate.update (k.address s)
    (fun a ha => hother a ha _) (fun _ _ => id) fun d hreg => ?_⟩, fun g _ hi => hi.update (k.address s)
    (fun a ha => hother a ha _) (fun a ha hconn => ?_) fun d _ hd => ?_⟩
  · obtain ⟨d, hd, -⟩ := h.pipes.registered p _ hreg
    rw [hnew] at hd
    cases hd
  · rcases OrdMap.find?_insert_eq_some.1 hconn with ⟨-, rfl⟩ | ⟨-, hconn⟩
    · exact absurd rfl ha
    · exact hconn
  · cases (OrdMap.find?_insert_self ..).symm.trans hd
    exact nofun

theorem handled_acceptLoop {listenFd : Nat} (hk : Honest k) (n : Nat) (s s' : ServerState) (h : Inv s.1)
    (hrun : acceptLoop k listenFd n s = (.ok (), s')) (fd : Nat) : Handled fd s.1 s'.1 := by
  induction n generalizing s with
  | zero =>
    cases hrun
    exact .refl h fd
  | succ n ih =>
    obtain ⟨more, t, hnext, hrun⟩ := Eff.bind_eq_ok.1 hrun
    have ht := handled_acceptNext hk h hnext fd
    split at hrun
    · exact ht.trans (ih t ht.inv hrun)
    · cases hrun
      exact ht

/-- `hidle`: the event tells of no bytes for a connection that is processed. -/
theorem handled_event (hk : Honest k) (h : Inv s.1) (hidle : events.epollin = true → Idle s.1 fd)
    (hrun : handleEvent k fd events s = (.ok (), s')) : Handled fd s.1 s'.1 := by
  rw [handleEvent, Eff.obj_bind] at hrun
  split at hrun
  · exact handled_cgiPipeEvent h hrun
  rename_i hpipe
  split at hrun
  · split at hrun
    · rename_i hlisten
      rcases hconn : s.1.connections.find? fd with _ | conn
      · rw [dropConnection_unknown hconn] at hrun
        cases hrun
        exact handled_unknown h hlisten hconn (Bool.eq_false_iff.2 hpipe) _
      · obtain ⟨c, hc, -⟩ := h.table.live fd conn hconn
        obtain ⟨w', hdrop, -⟩ := dropConnection_known (k := k) hconn hc
        rw [hdrop] at hrun
        cases hrun
        exact handled_remove h hconn hc
    · cases hrun
      exact .refl h fd
  split at hrun
  · obtain ⟨n, t, hask, hrun⟩ := Eff.bind_eq_ok.1 hrun
    cases hask
    exact handled_acceptLoop hk _ s s' h hrun fd
  rcases hconn : s.1.connections.find? fd with _ | conn
  · rw [hconn] at hrun
    cases hrun
    exact .refl h fd
  rw [hconn] at hrun
  obtain ⟨c, hc, rfl⟩ := h.table.live fd conn hconn
  exact handled_connection h hconn hc (fun hin => hidle hin conn c hconn hc) hrun

end Turns

end ServerManager

end LeftHookRoll
