import LeftHookRoll.ServerTurns

/-!
# The invariant of the event loop

Its five parts each speak of a few of the maps: `Table` of the connections and their descriptors,
`Queue` of the connections that are processed, `Fits` of what each connection is in itself, `Pipes` of
the scripts that are waited for, `Watched` of the masks. Each has a lemma for each kind of update.
-/

namespace LeftHookRoll

namespace ServerManager

open Connection

abbrev Heap := OrdMap Nat Connection

/-- The number is that of a descriptor that the server has open for a socket or for a script. -/
def Holds (heap : Heap) (connections : OrdMap Nat Nat) (listenFds : Finset Nat) (fd : Nat) : Prop :=
  fd ∈ listenFds ∨ (∃ conn, connections.find? fd = some conn) ∨
    ∃ conn c, heap.find? conn = some c ∧ c.getCgiPipeFd = some fd

/-- Connections and client descriptors match, and no number is open twice. -/
structure Table (heap : Heap) (connections : OrdMap Nat Nat) (listenFds : Finset Nat) : Prop where
  live : ∀ fd conn, connections.find? fd = some conn → ∃ c, heap.find? conn = some c ∧ c.acceptFD = fd
  known : ∀ conn c, heap.find? conn = some c → connections.find? c.acceptFD = some conn
  fdListen : ∀ fd conn, connections.find? fd = some conn → fd ∉ listenFds
  pipeListen : ∀ conn c p, heap.find? conn = some c → c.getCgiPipeFd = some p → p ∉ listenFds
  pipeFd : ∀ conn c p, heap.find? conn = some c → c.getCgiPipeFd = some p → connections.find? p = none
  pipeOne : ∀ conn conn' c c' p, heap.find? conn = some c → heap.find? conn' = some c' →
    c.getCgiPipeFd = some p → c'.getCgiPipeFd = some p → conn = conn'

/-- The set holds the connections that are processed, and each of them is in the queue. -/
structure Queue (heap : Heap) (set : Finset Nat) (queue : List Nat) : Prop where
  queued : ∀ conn ∈ set, ∃ c, heap.find? conn = some c ∧ c.state = .PROCESSING
  waits : ∀ conn c, heap.find? conn = some c → c.state = .PROCESSING → conn ∈ set ∧ conn ∈ queue

/-- A finished connection is dropped at once; no script runs for a request that is not answered. -/
structure Fit (c : Connection) : Prop where
  unfinished : c.state ≠ .FINISHED
  building : c.state = .READING ∨ c.state = .PROCESSING → Response.Building c.response

theorem Fit.of_waiting {c : Connection} (h : c.state = .WAITING_FOR_CGI) : Fit c :=
  ⟨by rw [h]; decide, by rw [h]; rintro (h | h) <;> cases h⟩

theorem Fit.of_writing {c : Connection} (h : c.state = .WRITING) : Fit c :=
  ⟨by rw [h]; decide, by rw [h]; rintro (h | h) <;> cases h⟩

def Fits (heap : Heap) : Prop := ∀ conn c, heap.find? conn = some c → Fit c

/-- A registered pipe is that of its connection, which waits for the script since the registered time or
has an answer by now. -/
structure Registered (starts : OrdMap Nat Nat) (p : Nat) (c : Connection) : Prop where
  pipe : c.getCgiPipeFd = some p
  state : c.state = .WAITING_FOR_CGI ∧ starts.find? p = some c.lastActivity ∨ c.state = .WRITING

structure Pipes (heap : Heap) (pipes starts : OrdMap Nat Nat) : Prop where
  registered : ∀ p conn, pipes.find? p = some conn → ∃ c, heap.find? conn = some c ∧ Registered starts p c
  piped : ∀ conn c, heap.find? conn = some c → c.state = .WAITING_FOR_CGI → ∃ p, pipes.find? p = some conn
  started : ∀ p, starts.contains p = pipes.contains p

/-- The mask that a descriptor should have. -/
def wanted (heap : Heap) (connections pipes : OrdMap Nat Nat) (listenFds : Finset Nat) (fd : Nat) : Option Events :=
  if fd ∈ listenFds then some (mask .READING)
  else
    match connections.find? fd with
    | some conn => (heap.find? conn).map fun c => mask c.state
    | none => if pipes.contains fd then some (mask .READING) else none

def Watched (fdEvents : OrdMap Nat Events) (heap : Heap) (connections pipes : OrdMap Nat Nat)
    (listenFds : Finset Nat) : Prop :=
  ∀ fd, fdEvents.find? fd = wanted heap connections pipes listenFds fd

structure Inv (s : ServerManager) : Prop where
  table : Table s.heap s.connections s.listenFds
  queue : Queue s.heap s.processingSet s.processingQueue
  fits : Fits s.heap
  pipes : Pipes s.heap s.cgiPipeToConn s.cgiStartTimes
  watched : Watched s.fdEvents s.heap s.connections s.cgiPipeToConn s.listenFds

section Table

variable {heap : Heap} {connections pipes starts : OrdMap Nat Nat} {listenFds : Finset Nat} {conn fd : Nat}
  {c c' : Connection}

/-- A connection has changed; its pipe is the old one or one that was not open. -/
theorem Table.put (h : Table heap connections listenFds) (hc : heap.find? conn = some c)
    (hfd : c'.acceptFD = c.acceptFD)
    (hp : ∀ p, c'.getCgiPipeFd = some p → c.getCgiPipeFd = some p ∨ ¬ Holds heap connections listenFds p) :
    Table (heap.insert conn c') connections listenFds where
  live fd a ha := by
    obtain ⟨d, hd, hfd'⟩ := h.live fd a ha
    by_cases heq : a = conn
    · subst heq
      rw [hc] at hd
      cases hd
      exact ⟨c', OrdMap.find?_insert_self .., hfd.trans hfd'⟩
    · exact ⟨d, by rwa [OrdMap.find?_insert_of_ne _ heq], hfd'⟩
  known a d hd := by
    rcases OrdMap.find?_insert_eq_some.1 hd with ⟨rfl, rfl⟩ | ⟨-, hd⟩
    · rw [hfd]
      exact h.known a c hc
    · exact h.known a d hd
  fdListen := h.fdListen
  pipeListen a d p hd hdp := by
    rcases OrdMap.find?_insert_eq_some.1 hd with ⟨rfl, rfl⟩ | ⟨-, hd⟩
    · rcases hp p hdp with hold | hnew
      · exact h.pipeListen a c p hc hold
      · exact fun hmem => hnew (.inl hmem)
    · exact h.pipeListen a d p hd hdp
  pipeFd a d p hd hdp := by
    rcases OrdMap.find?_insert_eq_some.1 hd with ⟨rfl, rfl⟩ | ⟨-, hd⟩
    · rcases hp p hdp with hold | hnew
      · exact h.pipeFd a c p hc hold
      · by_contra hne
        exact hnew (.inr (.inl (Option.ne_none_iff_exists'.1 hne)))
    · exact h.pipeFd a d p hd hdp
  pipeOne a b d d' p hd hd' hdp hdp' := by
    -- a pipe that was there belongs to one connection, a new one to none before
    have hother {b : Nat} {d : Connection} (hd : heap.find? b = some d) (hdp : d.getCgiPipeFd = some p)
        (hcp : c'.getCgiPipeFd = some p) : b = conn := by
      rcases hp p hcp with hold | hnew
      · exact h.pipeOne b conn d c p hd hc hdp hold
      · exact absurd (.inr (.inr ⟨b, d, hd, hdp⟩)) hnew
    rcases OrdMap.find?_insert_eq_some.1 hd with ⟨rfl, rfl⟩ | ⟨-, hold⟩ <;>
      rcases OrdMap.find?_insert_eq_some.1 hd' with ⟨rfl, rfl⟩ | ⟨-, hold'⟩
    · rfl
    · exact (hother hold' hdp' hdp).symm
    · exact hother hold hdp hdp'
    · exact h.pipeOne a b d d' p hold hold' hdp hdp'

theorem Table.addClient (h : Table heap connections listenFds) (hnew : heap.find? conn = none)
    (hfd : ¬ Holds heap connections listenFds c.acceptFD) (hp : c.getCgiPipeFd = none) :
    Table (heap.insert conn c) (connections.insert c.acceptFD conn) listenFds where
  live g a ha := by
    rcases OrdMap.find?_insert_eq_some.1 ha with ⟨rfl, rfl⟩ | ⟨-, ha⟩
    · exact ⟨c, OrdMap.find?_insert_self .., rfl⟩
    · obtain ⟨d, hd, hdfd⟩ := h.live g a ha
      refine ⟨d, ?_, hdfd⟩
      rwa [OrdMap.find?_insert_of_ne]
      rintro rfl
      rw [hnew] at hd
      cases hd
  known a d hd := by
    rcases OrdMap.find?_insert_eq_some.1 hd with ⟨rfl, rfl⟩ | ⟨-, hd⟩
    · exact OrdMap.find?_insert_self ..
    · have hknown := h.known a d hd
      rwa [OrdMap.find?_insert_of_ne]
      intro heq
      exact hfd (.inr (.inl ⟨a, heq ▸ hknown⟩))
  fdListen g a ha := by
    rcases OrdMap.find?_insert_eq_some.1 ha with ⟨rfl, rfl⟩ | ⟨-, ha⟩
    · exact fun hmem => hfd (.inl hmem)
    · exact h.fdListen g a ha
  pipeListen a d p hd hdp := by
    rcases OrdMap.find?_insert_eq_some.1 hd with ⟨rfl, rfl⟩ | ⟨-, hd⟩
    · rw [hp] at hdp
      cases hdp
    · exact h.pipeListen a d p hd hdp
  pipeFd a d p hd hdp := by
    rcases OrdMap.find?_insert_eq_some.1 hd with ⟨rfl, rfl⟩ | ⟨-, hd⟩
    · rw [hp] at hdp
      cases hdp
    · rw [OrdMap.find?_insert_of_ne, h.pipeFd a d p hd hdp]
      rintro rfl
      exact hfd (.inr (.inr ⟨a, d, hd, hdp⟩))
  pipeOne a b d d' p hd hd' hdp hdp' := by
    rcases OrdMap.find?_insert_eq_some.1 hd with ⟨rfl, rfl⟩ | ⟨-, hd⟩
    · rw [hp] at hdp
      cases hdp
    rcases OrdMap.find?_insert_eq_some.1 hd' with ⟨rfl, rfl⟩ | ⟨-, hd'⟩
    · rw [hp] at hdp'
      cases hdp'
    · exact h.pipeOne a b d d' p hd hd' hdp hdp'

theorem Table.remove (h : Table heap connections listenFds) (hfd : connections.find? fd = some conn) :
    Table (heap.erase conn) (connections.erase fd) listenFds where
  live g a ha := by
    obtain ⟨hne, ha⟩ := OrdMap.find?_erase_eq_some.1 ha
    obtain ⟨d, hd, hdfd⟩ := h.live g a ha
    refine ⟨d, OrdMap.find?_erase_eq_some.2 ⟨?_, hd⟩, hdfd⟩
    rintro rfl
    obtain ⟨c, hc, hcfd⟩ := h.live fd a hfd
    rw [hc] at hd
    cases hd
    exact hne (hdfd.symm.trans hcfd)
  known a d hd := by
    obtain ⟨hne, hd⟩ := OrdMap.find?_erase_eq_some.1 hd
    have hknown := h.known a d hd
    refine OrdMap.find?_erase_eq_some.2 ⟨fun heq => ?_, hknown⟩
    rw [heq, hfd] at hknown
    exact hne (Option.some.inj hknown).symm
  fdListen g a ha := h.fdListen g a (OrdMap.find?_erase_eq_some.1 ha).2
  pipeListen a d p hd := h.pipeListen a d p (OrdMap.find?_erase_eq_some.1 hd).2
  pipeFd a d p hd hdp := by
    rw [OrdMap.find?_erase, h.pipeFd a d p (OrdMap.find?_erase_eq_some.1 hd).2 hdp, ite_self]
  pipeOne a b d d' p hd hd' :=
    h.pipeOne a b d d' p (OrdMap.find?_erase_eq_some.1 hd).2 (OrdMap.find?_erase_eq_some.1 hd').2

end Table

section Rest

variable {heap heap' : Heap} {connections pipes pipes' starts' starts : OrdMap Nat Nat} {listenFds : Finset Nat}
  {fdEvents : OrdMap Nat Events} {set set' : Finset Nat} {queue queue' : List Nat} {conn fd p : Nat}
  {c c' : Connection}

/-- Only what is said of `conn` has to be shown anew. -/
theorem Queue.update (h : Queue heap set queue) (conn : Nat)
    (hheap : ∀ a, a ≠ conn → heap'.find? a = heap.find? a) (hset : ∀ a, a ≠ conn → (a ∈ set' ↔ a ∈ set))
    (hqueue : ∀ a, a ≠ conn → a ∈ queue → a ∈ queue')
    (hin : conn ∈ set' → ∃ c, heap'.find? conn = some c ∧ c.state = .PROCESSING)
    (hall : ∀ c, heap'.find? conn = some c → c.state = .PROCESSING → conn ∈ set' ∧ conn ∈ queue') :
    Queue heap' set' queue' where
  queued a ha := by
    by_cases heq : a = conn
    · subst heq
      exact hin ha
    · rw [hheap a heq]
      exact h.queued a ((hset a heq).1 ha)
  waits a d hd hs := by
    by_cases heq : a = conn
    · subst heq
      exact hall d hd hs
    · rw [hheap a heq] at hd
      obtain ⟨hset', hqueue'⟩ := h.waits a d hd hs
      exact ⟨(hset a heq).2 hset', hqueue a heq hqueue'⟩

theorem Fits.put (h : Fits heap) (hc : Fit c) (conn : Nat) : Fits (heap.insert conn c) := by
  intro a d hd
  rcases OrdMap.find?_insert_eq_some.1 hd with ⟨rfl, rfl⟩ | ⟨-, hd⟩
  · exact hc
  · exact h a d hd

theorem Fits.remove (h : Fits heap) (conn : Nat) : Fits (heap.erase conn) :=
  fun a d hd => h a d (OrdMap.find?_erase_eq_some.1 hd).2

theorem Pipes.started_erase (h : Pipes heap pipes starts) (p q : Nat) :
    (starts.erase p).contains q = (pipes.erase p).contains q := by
  rw [OrdMap.contains_erase, OrdMap.contains_erase, h.started]

theorem Pipes.started_insert (h : Pipes heap pipes starts) (p conn now q : Nat) :
    (starts.insert p now).contains q = (pipes.insert p conn).contains q := by
  rw [OrdMap.contains_insert, OrdMap.contains_insert, h.started]

/-- Only what is said of `conn` has to be shown anew. -/
theorem Pipes.update (h : Pipes heap pipes starts) (conn : Nat)
    (hheap : ∀ a, a ≠ conn → heap'.find? a = heap.find? a)
    (hpipes : ∀ p a, a ≠ conn → (pipes'.find? p = some a ↔ pipes.find? p = some a))
    (hstarts : ∀ p, starts'.contains p = pipes'.contains p)
    (htimes : ∀ p a, a ≠ conn → pipes'.find? p = some a → starts'.find? p = starts.find? p)
    (hreg : ∀ p, pipes'.find? p = some conn → ∃ c, heap'.find? conn = some c ∧ Registered starts' p c)
    (hwait : ∀ c, heap'.find? conn = some c → c.state = .WAITING_FOR_CGI → ∃ p, pipes'.find? p = some conn) :
    Pipes heap' pipes' starts' where
  registered p a ha := by
    by_cases heq : a = conn
    · subst heq
      exact hreg p ha
    · obtain ⟨c, hc, hr⟩ := h.registered p a ((hpipes p a heq).1 ha)
      refine ⟨c, by rw [hheap a heq, hc], hr.pipe, ?_⟩
      rw [htimes p a heq ha]
      exact hr.state
  piped a d hd hs := by
    by_cases heq : a = conn
    · subst heq
      exact hwait d hd hs
    · rw [hheap a heq] at hd
      obtain ⟨p, hp⟩ := h.piped a d hd hs
      exact ⟨p, (hpipes p a heq).2 hp⟩
  started := hstarts

/-! ### The masks -/

theorem wanted_listen (h : fd ∈ listenFds) : wanted heap connections pipes listenFds fd = some (mask .READING) := by
  rw [wanted, if_pos h]

theorem wanted_client (ht : Table heap connections listenFds) (hc : heap.find? conn = some c) :
    wanted heap connections pipes listenFds c.acceptFD = some (mask c.state) := by
  have hknown := ht.known conn c hc
  rw [wanted, if_neg (ht.fdListen _ _ hknown), hknown]
  simp only [hc, Option.map_some]

theorem wanted_pipe (hlisten : fd ∉ listenFds) (hconn : connections.find? fd = none) :
    wanted heap connections pipes listenFds fd = if pipes.contains fd then some (mask .READING) else none := by
  rw [wanted, if_neg hlisten, hconn]

/-- The mask of a descriptor depends on its own entries only. -/
theorem wanted_congr {connections' : OrdMap Nat Nat} (hconn : connections'.find? fd = connections.find? fd)
    (hheap : ∀ a, connections.find? fd = some a → heap'.find? a = heap.find? a)
    (hpipes : pipes'.contains fd = pipes.contains fd) :
    wanted heap' connections' pipes' listenFds fd = wanted heap connections pipes listenFds fd := by
  rw [wanted, wanted, hconn, hpipes]
  rcases hfd : connections.find? fd with _ | a
  · rfl
  · simp only [hheap a hfd]

theorem Watched.put (h : Watched fdEvents heap connections pipes listenFds) (ht : Table heap connections listenFds)
    (ht' : Table (heap.insert conn c') connections listenFds) (hc : heap.find? conn = some c)
    (hfd : c'.acceptFD = c.acceptFD) :
    Watched (fdEvents.insert c.acceptFD (mask c'.state)) (heap.insert conn c') connections pipes listenFds := by
  intro g
  by_cases hg : g = c.acceptFD
  · rw [hg, OrdMap.find?_insert_self, ← hfd, wanted_client ht' (OrdMap.find?_insert_self ..)]
  · rw [OrdMap.find?_insert_of_ne _ hg, h g]
    refine (wanted_congr rfl (fun a ha => OrdMap.find?_insert_of_ne _ ?_ _) rfl).symm
    rintro rfl
    obtain ⟨d, hd, hdfd⟩ := ht.live g a ha
    rw [hc] at hd
    cases hd
    exact hg hdfd.symm

/-- The masks stay right when the state stays as it is. -/
theorem Watched.same (h : Watched fdEvents heap connections pipes listenFds) (ht : Table heap connections listenFds)
    (ht' : Table (heap.insert conn c') connections listenFds) (hc : heap.find? conn = some c)
    (hfd : c'.acceptFD = c.acceptFD) (hs : c'.state = c.state) :
    Watched fdEvents (heap.insert conn c') connections pipes listenFds := by
  have hmask : fdEvents.find? c.acceptFD = some (mask c'.state) := by rw [h, hs, wanted_client ht hc]
  have := h.put ht ht' hc hfd
  rwa [OrdMap.insert_of_find? hmask] at this

theorem Watched.unregister (h : Watched fdEvents heap connections pipes listenFds) (hlisten : p ∉ listenFds)
    (hconn : connections.find? p = none) :
    Watched (fdEvents.erase p) heap connections (pipes.erase p) listenFds := by
  intro g
  by_cases hg : g = p
  · subst hg
    rw [wanted_pipe hlisten hconn, OrdMap.contains_erase, OrdMap.find?_erase, if_pos rfl, if_pos rfl]
    rfl
  · rw [OrdMap.find?_erase, if_neg hg, h g]
    refine (wanted_congr rfl (fun _ _ => rfl) ?_).symm
    rw [OrdMap.contains_erase, if_neg hg]

theorem Watched.register (h : Watched fdEvents heap connections pipes listenFds) (hlisten : p ∉ listenFds)
    (hconn : connections.find? p = none) (conn : Nat) :
    Watched (fdEvents.insert p (mask .READING)) heap connections (pipes.insert p conn) listenFds := by
  intro g
  by_cases hg : g = p
  · subst hg
    rw [wanted_pipe hlisten hconn, OrdMap.contains_insert, OrdMap.find?_insert_self, if_pos rfl]
    rfl
  · rw [OrdMap.find?_insert_of_ne _ hg, h g]
    refine (wanted_congr rfl (fun _ _ => rfl) ?_).symm
    rw [OrdMap.contains_insert, if_neg hg]

theorem Watched.addClient (h : Watched fdEvents heap connections pipes listenFds) (ht : Table heap connections listenFds)
    (ht' : Table (heap.insert conn c) (connections.insert c.acceptFD conn) listenFds)
    (hnew : heap.find? conn = none) (hs : c.state = .READING) :
    Watched (fdEvents.insert c.acceptFD (mask .READING)) (heap.insert conn c) (connections.insert c.acceptFD conn)
      pipes listenFds := by
  intro g
  by_cases hg : g = c.acceptFD
  · rw [hg, OrdMap.find?_insert_self, wanted_client ht' (OrdMap.find?_insert_self ..), hs]
  · rw [OrdMap.find?_insert_of_ne _ hg, h g]
    refine (wanted_congr (OrdMap.find?_insert_of_ne _ hg _) (fun a ha => OrdMap.find?_insert_of_ne _ ?_ _) rfl).symm
    rintro rfl
    obtain ⟨d, hd, -⟩ := ht.live g a ha
    rw [hnew] at hd
    cases hd

theorem Watched.remove (h : Watched fdEvents heap connections pipes listenFds) (ht : Table heap connections listenFds)
    (hpipe : pipes.find? fd = none) (hfd : connections.find? fd = some conn) :
    Watched (fdEvents.erase fd) (heap.erase conn) (connections.erase fd) pipes listenFds := by
  intro g
  by_cases hg : g = fd
  · subst hg
    rw [OrdMap.find?_erase, if_pos rfl, wanted_pipe (ht.fdListen _ _ hfd) (by rw [OrdMap.find?_erase, if_pos rfl]),
      if_neg]
    rw [OrdMap.contains, hpipe]
    decide
  · rw [OrdMap.find?_erase, if_neg hg, h g]
    refine (wanted_congr (by rw [OrdMap.find?_erase, if_neg hg]) (fun a ha => ?_) rfl).symm
    rw [OrdMap.find?_erase, if_neg]
    rintro rfl
    obtain ⟨d, hd, hdfd⟩ := ht.live g a ha
    obtain ⟨d', hd', hdfd'⟩ := ht.live fd a hfd
    rw [hd] at hd'
    cases hd'
    exact hg (hdfd.symm.trans hdfd')

end Rest

end ServerManager

end LeftHookRoll
