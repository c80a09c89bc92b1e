import LeftHookRoll.Lib.RoundRobin
import LeftHookRoll.ServerReach

/-!
# Turns of the connections that are processed

The processing queue is served in turns; the pointer of a connection that was deleted stays in it. `next_move`
says what each turn of the loop does to the queue.
-/

namespace LeftHookRoll

open Eff RoundRobin

namespace ServerManager

open Connection

/-- A connection is processed at the address. -/
def Processed (s : ServerManager) (conn : Nat) : Prop := ∃ c, s.heap.find? conn = some c ∧ c.state = .PROCESSING

def line (s : ServerManager) : Line Nat := ⟨s.processingQueue, Processed s⟩

/-- The connection that `process` is called on in the turn. -/
def called (p : Point) (s : ServerManager) : Option Nat :=
  match p, s.processingQueue with
  | .roundRobin processed, conn :: _ => if processed < BACKLOG / 2 ∧ conn ∈ s.processingSet then some conn else none
  | _, _ => none

variable {k : Kernel} {p p' : Point} {s s' : ServerState} {conn fd pipeFd : Nat} {c c' : Connection} {events : Events}

/-! ### The turns that leave the queue as it is -/

/-- The queue is the same, and no other connection is processed. -/
structure Still (s s' : ServerManager) : Prop where
  queue : s'.processingQueue = s.processingQueue
  waits : ∀ a, Processed s' a → Processed s a

theorem Still.refl (s : ServerManager) : Still s s := ⟨rfl, fun _ => id⟩

theorem Still.trans {s s' s'' : ServerManager} (h : Still s s') (h' : Still s' s'') : Still s s'' :=
  ⟨h'.queue.trans h.queue, fun a ha => h.waits a (h'.waits a ha)⟩

/-- Another connection at the address that is processed only if the old one is. -/
theorem processed_put {s : ServerManager} {d : Connection} (hd : d.state = .PROCESSING → Processed s conn) {a : Nat}
    (h : ∃ c, (s.heap.insert conn d).find? a = some c ∧ c.state = .PROCESSING) : Processed s a := by
  obtain ⟨c, hc, hs⟩ := h
  rcases OrdMap.find?_insert_eq_some.1 hc with ⟨rfl, rfl⟩ | ⟨-, hc⟩
  · exact hd hs
  · exact ⟨c, hc, hs⟩

theorem still_settle {s : ServerManager} (hs : c'.state = .WRITING) : Still s (settle pipeFd conn c' s) :=
  ⟨rfl, fun _ => processed_put fun h => by rw [hs] at h; cases h⟩

theorem still_dropTimedOut (h : Inv s.1) (hrun : dropTimedOut k fd s = (.ok (), s')) : Still s.1 s'.1 := by
  rcases hconn : s.1.connections.find? fd with _ | conn
  · rw [dropTimedOut, Eff.obj_bind, hconn] at hrun
    cases hrun
    exact .refl s.1
  obtain ⟨c, hc, -⟩ := h.table.live fd conn hconn
  obtain ⟨c', w', -, hs, rfl⟩ := dropTimedOut_ok hconn hc hrun
  exact ⟨rfl, fun _ => processed_put fun h => by rw [hs] at h; cases h⟩

theorem still_killTimedOut (h : Inv s.1) (hrun : killTimedOut k pipeFd s = (.ok (), s')) : Still s.1 s'.1 := by
  rcases hp : s.1.cgiPipeToConn.find? pipeFd with _ | conn
  · rw [killTimedOut, Eff.obj_bind, hp] at hrun
    cases hrun
    exact .refl s.1
  obtain ⟨c, hc, -⟩ := h.pipes.registered pipeFd conn hp
  obtain ⟨c', w', hs, rfl⟩ := killTimedOut_ok hp hc hrun
  exact still_settle hs.state

theorem still_cgiPipeEvent (h : Inv s.1) (hrun : handleCgiPipeEvent k pipeFd events s = (.ok (), s')) :
    Still s.1 s'.1 := by
  rcases hp : s.1.cgiPipeToConn.find? pipeFd with _ | conn
  · rw [handleCgiPipeEvent, Eff.obj_bind, hp] at hrun
    cases hrun
    exact .refl s.1
  obtain ⟨c, hc, -⟩ := h.pipes.registered pipeFd conn hp
  obtain ⟨c', w', ⟨hr, rfl⟩ | ⟨hs, rfl⟩⟩ := handleCgiPipeEvent_ok hp hc hrun
  · exact ⟨rfl, fun _ => processed_put fun h => ⟨c, hc, hr.state ▸ h⟩⟩
  · exact still_settle hs.state

theorem still_remove {s : ServerManager} {pipe : Option Nat} : Still s (remove fd conn (unregisterPipe pipe s)) := by
  have hparts : (unregisterPipe pipe s).processingQueue = s.processingQueue ∧ (unregisterPipe pipe s).heap = s.heap := by
    cases pipe <;> exact ⟨rfl, rfl⟩
  refine ⟨hparts.1, ?_⟩
  rintro a ⟨c, hc, hs⟩
  have hc : ((unregisterPipe pipe s).heap.erase conn).find? a = some c := hc
  rw [hparts.2] at hc
  exact ⟨c, (OrdMap.find?_erase_eq_some.1 hc).2, hs⟩

theorem still_acceptLoop {listenFd : Nat} (n : Nat) (s : ServerState)
    (hrun : acceptLoop k listenFd n s = (.ok (), s')) : Still s.1 s'.1 := by
  have hnext {more : Bool} {s s' : ServerState} (h : acceptNext k listenFd s = (.ok more, s')) : Still s.1 s'.1 := by
    rcases acceptNext_ok h with rfl | ⟨clientFd, -, rfl⟩
    · exact .refl _
    · exact ⟨rfl, fun _ => processed_put fun h => by cases h⟩
  induction n generalizing s with
  | zero =>
    cases hrun
    exact .refl _
  | succ n ih =>
    obtain ⟨more, t, hstep, hrun⟩ := Eff.bind_eq_ok.1 hrun
    split at hrun
    · exact (hnext hstep).trans (ih t hrun)
    · cases hrun
      exact hnext hstep

/-! ### The other turns -/

theorem Still.move {s s' : ServerManager} (h : Still s s') : Move none (line s) (line s') := .still h.queue h.waits

/-- An event leaves the queue as it is, or a connection joins it. -/
theorem handleConnection_move {c : Connection} (h : Inv s.1) (hfd : s.1.connections.find? c.acceptFD = some conn)
    (hc : s.1.heap.find? conn = some c) (hidle : events.epollin = true → c.state ≠ .PROCESSING)
    (hrun : handleConnection k conn events s = (.ok (), s')) : Move none (line s.1) (line s'.1) := by
  obtain ⟨c', w', -, ⟨-, rfl⟩ | ⟨-, rfl⟩⟩ := handleConnection_ok hc hfd hidle hrun
  · rw [remove_put]
    exact still_remove.move
  have hother (a : Nat) (ha : a ≠ conn) (hp : Processed (put conn c' s.1) a) : Processed s.1 a := by
    obtain ⟨d, hd, hs⟩ := hp
    exact ⟨d, by rwa [put, OrdMap.find?_insert_of_ne _ ha] at hd, hs⟩
  by_cases henqueue : c.state ≠ .PROCESSING ∧ c'.state = .PROCESSING
  · have hold : ¬ Processed s.1 conn := by
      rintro ⟨d, hd, hs⟩
      cases hc.symm.trans hd
      exact henqueue.1 hs
    have hnotin : conn ∉ (put conn c' s.1).processingSet := fun hin => hold (h.queue.queued conn hin)
    rw [enqueueIf, if_pos henqueue, enqueue, if_neg hnotin]
    exact .join conn rfl hold ⟨c', find?_put conn c' s.1, henqueue.2⟩ hother
  · rw [enqueueIf, if_neg henqueue]
    refine .still rfl fun _ => processed_put fun hs => ⟨c, hc, ?_⟩
    by_contra hne
    exact henqueue ⟨hne, hs⟩

theorem handleEvent_move (h : Inv s.1) (hidle : events.epollin = true → Idle s.1 fd)
    (hrun : handleEvent k fd events s = (.ok (), s')) : Move none (line s.1) (line s'.1) := by
  rw [handleEvent, Eff.obj_bind] at hrun
  split at hrun
  · exact (still_cgiPipeEvent h hrun).move
  split at hrun
  · split at hrun
    · rcases hconn : s.1.connections.find? fd with _ | conn
      · rw [dropConnection_unknown hconn] at hrun
        cases hrun
        exact Still.move ⟨rfl, fun _ => id⟩
      · obtain ⟨c, hc, -⟩ := h.table.live fd conn hconn
        obtain ⟨w', hdrop, -⟩ := dropConnection_known (k := k) hconn hc
        rw [hdrop] at hrun
        cases hrun
        exact still_remove.move
    · cases hrun
      exact (Still.refl s.1).move
  split at hrun
  · obtain ⟨n, t, hask, hrun⟩ := Eff.bind_eq_ok.1 hrun
    cases hask
    exact (still_acceptLoop _ s hrun).move
  rcases hconn : s.1.connections.find? fd with _ | conn
  · rw [hconn] at hrun
    cases hrun
    exact (Still.refl s.1).move
  rw [hconn] at hrun
  obtain ⟨c, hc, rfl⟩ := h.table.live fd conn hconn
  exact handleConnection_move h hconn hc (fun hin => hidle hin conn c hconn hc) hrun

/-- The turn of a connection that is taken off the queue. -/
theorem processNext_move {queue : List Nat} (h : Inv s.1) (hq : s.1.processingQueue = conn :: queue)
    (hmem : conn ∈ s.1.processingSet)
    (hrun : processNext k conn ({ s.1 with processingQueue := queue }, s.2) = (.ok (), s')) :
    Move (some conn) (line s.1) (line s'.1) := by
  obtain ⟨c, hc, hs⟩ := h.queue.queued conn hmem
  have hbuild := (h.fits conn c hc).building (.inr hs)
  obtain ⟨c', w', -, hturn⟩ := processNext_ok (s := ({ s.1 with processingQueue := queue }, s.2)) hc hs hbuild hrun
  have hwaits (d : Connection) (a : Nat) (hp : Processed (put conn d s.1) a) : Processed s.1 a :=
    processed_put (fun _ => ⟨c, hc, hs⟩) hp
  have hleft {d : Connection} (hd : d.state ≠ .PROCESSING) : ¬ Processed (put conn d s.1) conn := by
    rintro ⟨e, he, hs'⟩
    cases (find?_put conn d s.1).symm.trans he
    exact hd hs'
  rcases hturn with ⟨-, -, rfl⟩ | ⟨hs', rfl⟩ | ⟨hwait, -, -, rfl⟩
  · exact .again conn queue hq rfl (hwaits c')
  · exact .leave conn hq (hleft (by rw [hs']; decide)) (hwaits c')
  · exact .leave conn hq (hleft (by rw [hwait.state]; decide)) (hwaits c')

theorem runRoundRobin_move {n : Nat} (h : Inv s.1) (hrun : runRoundRobin k n s = (.ok p', s')) :
    Move (called (.roundRobin n) s.1) (line s.1) (line s'.1) := by
  unfold called
  rw [runRoundRobin, Eff.obj_bind] at hrun
  rcases hq : s.1.processingQueue with _ | ⟨conn, queue⟩ <;> simp only [hq] at hrun ⊢
  · cases hrun
    exact (Still.refl s.1).move
  by_cases hfull : BACKLOG / 2 ≤ n
  · rw [if_pos hfull] at hrun
    cases hrun
    rw [if_neg (by omega)]
    exact (Still.refl s.1).move
  rw [if_neg hfull, Eff.modObj_bind] at hrun
  by_cases hmem : conn ∈ s.1.processingSet
  · rw [if_pos hmem] at hrun
    obtain ⟨_, t, hturn, hret⟩ := Eff.bind_eq_ok.1 hrun
    cases hret
    rw [if_pos ⟨by omega, hmem⟩]
    exact processNext_move h hq hmem hturn
  · rw [if_neg hmem] at hrun
    cases hrun
    rw [if_neg fun hin => hmem hin.2]
    refine .skip conn hq ?_ fun _ => id
    rintro ⟨c, hc, hs⟩
    exact hmem (h.queue.waits conn c hc hs).1

/-- Every turn is a move of the queue. -/
theorem next_move (hk : Honest k) (h : Reach k p s) (hrun : next k p s = (.ok p', s')) :
    Move (called p s.1) (line s.1) (line s'.1) := by
  obtain ⟨hinv, hpending⟩ := reach_inv hk h
  cases p with
  | roundRobin n =>
    obtain ⟨now, u, hask, hrun⟩ := Eff.bind_eq_ok.1 hrun
    cases hask
    rw [Eff.modWorld_bind] at hrun
    exact runRoundRobin_move (s := timed k (.roundRobin n) s) hinv hrun
  | sweepTimeouts =>
    cases next_turn hrun with
    | sweepLater | sweep => exact Still.move ⟨rfl, fun _ => id⟩
  | dropTimedOut =>
    cases next_turn hrun with
    | dropDone => exact Still.move ⟨rfl, fun _ => id⟩
    | drop hturn => exact (still_dropTimedOut (s := timed k _ s) hinv hturn).move
  | sweepCgiTimeouts =>
    cases next_turn hrun with
    | sweepCgiNone | sweepCgi => exact Still.move ⟨rfl, fun _ => id⟩
  | killTimedOut =>
    cases next_turn hrun with
    | killDone => exact Still.move ⟨rfl, fun _ => id⟩
    | kill hturn => exact (still_killTimedOut (s := timed k _ s) hinv hturn).move
  | wait =>
    cases next_turn hrun with
    | waitNone | wait => exact Still.move ⟨rfl, fun _ => id⟩
  | batch =>
    cases next_turn hrun with
    | batchDone => exact Still.move ⟨rfl, fun _ => id⟩
    | event hturn =>
      exact handleEvent_move (s := timed k _ s) hinv (hpending.2 _ List.mem_cons_self) hturn

/-! ### Runs -/

/-- A run of `n` turns. -/
structure Run (k : Kernel) (n : Nat) (p : Nat → Point) (s : Nat → ServerState) : Prop where
  point : p 0 = .roundRobin 0
  fresh : Fresh (s 0).1
  next : ∀ i < n, ServerManager.next k (p i) (s i) = (.ok (p (i + 1)), s (i + 1))

theorem Run.reach {n : Nat} {p : Nat → Point} {s : Nat → ServerState} (h : Run k n p s) {i : Nat} (hi : i ≤ n) :
    Reach k (p i) (s i) := by
  induction i with
  | zero =>
    rw [h.point]
    exact .start h.fresh
  | succ i ih => exact .next (ih (by omega)) (h.next i (by omega))

/-- Each connection that is processed is in the queue once. -/
def QueuedOnce (s : ServerManager) : Prop := ∀ conn, Processed s conn → s.processingQueue.count conn = 1

/-- Between two calls of `process` on one connection, each other connection that is processed throughout gets
exactly one. -/
def TakesTurns (n : Nat) (p : Nat → Point) (s : Nat → ServerState) : Prop :=
  ∀ i j conn other, i < j → j < n → conn ≠ other →
    (∀ m, i ≤ m → m ≤ j → Processed (s m).1 conn ∧ Processed (s m).1 other) →
    called (p i) (s i).1 = some conn → called (p j) (s j).1 = some conn →
    (∀ m, i < m → m < j → called (p m) (s m).1 ≠ some conn) →
    ∃! m, (i < m ∧ m < j) ∧ called (p m) (s m).1 = some other

/-- The queue is served fairly exactly when no connection comes to be processed while a pointer with its
address is in the queue. -/
theorem queue_fair_iff (hk : Honest k) {n : Nat} {p : Nat → Point} {s : Nat → ServerState} (hrun : Run k n p s) :
    ((∀ i ≤ n, QueuedOnce (s i).1) ∧ TakesTurns n p s) ↔
      ∀ i < n, ∀ conn, ¬ Processed (s i).1 conn → Processed (s (i + 1)).1 conn → conn ∉ (s i).1.processingQueue := by
  have hmove (i : Nat) (hi : i < n) := next_move hk (hrun.reach hi.le) (hrun.next i hi)
  constructor
  · rintro ⟨honce, -⟩ i hi
    exact ((hmove i hi).once_iff (honce i hi.le)).1 (honce (i + 1) hi)
  · intro hnew
    have honce : ∀ i ≤ n, QueuedOnce (s i).1 := by
      intro i hi
      induction i with
      | zero =>
        rintro conn ⟨c, hc, -⟩
        rw [hrun.fresh.heap] at hc
        cases hc
      | succ i ih => exact ((hmove i hi).once_iff (ih (by omega))).2 (hnew i hi)
    refine ⟨honce, fun i j conn other hij hj hne hwaits hi hjcall hbetween => ?_⟩
    exact @exactly_one_call _ conn other _ (fun m => line (s m).1) (fun m => called (p m) (s m).1) i j hij
      (fun m _ hmj => hmove m (by omega)) (fun m _ hmj => honce m (by omega)) hne hwaits hi hjcall hbetween

theorem exists_turns {n : Nat} (h : after k n p s = some (p', s')) :
    ∃ (q : Nat → Point) (t : Nat → ServerState), q 0 = p ∧ t 0 = s ∧
      (∀ i < n, next k (q i) (t i) = (.ok (q (i + 1)), t (i + 1))) ∧ q n = p' ∧ t n = s' := by
  induction n generalizing p s with
  | zero =>
    cases h
    exact ⟨fun _ => p', fun _ => s', rfl, rfl, fun i hi => absurd hi (Nat.not_lt_zero i), rfl, rfl⟩
  | succ n ih =>
    rw [after] at h
    rcases hturn : next k p s with ⟨_ | p₁, s₁⟩ <;> rw [hturn] at h
    · cases h
    · obtain ⟨q, t, hq, ht, hnext, hq', ht'⟩ := ih h
      refine ⟨fun i => i.casesOn p q, fun i => i.casesOn s t, rfl, rfl, fun i hi => ?_, hq', ht'⟩
      cases i with
      | zero =>
        show next k p s = (.ok (q 0), t 0)
        rw [hq, ht, hturn]
      | succ i => exact hnext i (by omega)

/-- So many turns are a run. -/
theorem exists_run {n : Nat} (hs : Fresh s.1) (h : after k n (.roundRobin 0) s = some (p', s')) :
    ∃ (q : Nat → Point) (t : Nat → ServerState), Run k n q t ∧ t 0 = s ∧ t n = s' := by
  obtain ⟨q, t, hq, ht, hnext, -, ht'⟩ := exists_turns h
  exact ⟨q, t, ⟨hq, ht ▸ hs, hnext⟩, ht, ht'⟩

theorem after_succ {q q' q'' : Point} {t t' t'' : ServerState} {n : Nat} (h : after k n q t = some (q', t'))
    (hnext : next k q' t' = (.ok q'', t'')) : after k (n + 1) q t = some (q'', t'') := by
  induction n generalizing q t with
  | zero =>
    cases h
    rw [after, hnext]
    rfl
  | succ n ih =>
    rw [after] at h
    rcases hfirst : next k q t with ⟨_ | q₁, t₁⟩ <;> rw [hfirst] at h
    · cases h
    · rw [ServerManager.after, hfirst]
      exact ih h

theorem Run.after {n l : Nat} {p : Nat → Point} {s : Nat → ServerState} (hrun : Run k n p s) (hl : l ≤ n) :
    ServerManager.after k l (.roundRobin 0) (s 0) = some (p l, s l) := by
  induction l with
  | zero => rw [ServerManager.after, hrun.point]
  | succ l ih => exact after_succ (ih (by omega)) (hrun.next l (by omega))

theorem queue_fair_iff_oneClient : ∃ p s, Run oneClient 12 p s ∧ (∀ i ≤ 12, QueuedOnce (s i).1) ∧ TakesTurns 12 p s := by
  obtain ⟨s', hafter, -⟩ := oneClient_after
  obtain ⟨p, s, hrun, hstart, -⟩ := exists_run listening_fresh hafter
  have hqueue : ∀ i < 12, (after oneClient i (.roundRobin 0) listening).map (fun x => decide (x.2.1.processingQueue = [] ∨
      x.2.1.processingQueue = [1] ∧ (x.2.1.heap.find? 1).map Connection.state = some .PROCESSING)) = some true := by
    decide +kernel
  refine ⟨p, s, hrun, (queue_fair_iff oneClient_honest hrun).2 fun i hi conn hnot _ hmem => ?_⟩
  have hi' := hqueue i hi
  rw [← hstart, hrun.after hi.le] at hi'
  rcases of_decide_eq_true (Option.some.inj hi') with hnil | ⟨hone, hstate⟩
  · rw [hnil] at hmem
    cases hmem
  · rw [hone, List.mem_singleton] at hmem
    obtain ⟨c, hc, hc'⟩ := Option.map_eq_some_iff.1 hstate
    exact hnot ⟨c, hmem ▸ hc, hc'⟩

/-! ### An address that is used again -/

/-- Whether nothing has the number. -/
def isFree (s : ServerManager) (fd : Nat) : Bool :=
  fd ∉ s.listenFds ∧ s.connections.find? fd = none ∧ s.heap.entries.all fun e => e.2.getCgiPipeFd ≠ some fd

/-- The events that the masks ask for. -/
def askedFor (s : ServerManager) (events : List (Nat × Events)) : List (Nat × Events) :=
  events.filter fun e => (s.fdEvents.find? e.1).any fun m =>
    (e.2.epollin → m.epollin) ∧ (e.2.epollout → m.epollout)

/-- The lowest number from `fd` on that is free, among `n` of them. -/
def lowestFree (s : ServerManager) (fd : Nat) : Nat → Option Nat
  | 0 => none
  | n + 1 => if isFree s fd then some fd else lowestFree s (fd + 1) n

/-- Three clients come and the first one leaves, so that a script that runs for the third one writes to a pipe with the
number of the first. The body of the second never ends. Then both hang up, and a fourth one gets the number of the pipe, the
lowest that is free, and the address of the second. -/
def reusing : Kernel where
  sys s := { Sys.calm with
    stat := fun _ _ => some ⟨.regular, 0⟩
    pipe := fun _ => lowestFree s.1 5 16 }
  now _ _ := 0
  recv s :=
    if s.1.made = 3 ∧ s.1.processingQueue ≠ [] then some (ascii "GET /a.py HTTP/1.1\r\nHost: a\r\n\r\n")
    else some (ascii "POST / HTTP/1.1\r\nTransfer-Encoding: chunked\r\n\r\n5\r\nab0\r\n\r\n")
  waiting s := if s.1.made = 0 then 3 else 1
  accept s := (lowestFree s.1 5 16).elim .failed (.client · true)
  address s := if s.1.heap.find? 2 = none ∧ s.1.made ≠ 0 then 2 else s.1.heap.keys.foldr max 0 + 1
  readPipe _ := none
  epollWait s := some (askedFor s.1 (
    if s.1.made = 0 then [(3, { epollin := true })]
    else if s.1.made = 3 ∧ s.1.connections.find? 5 ≠ none then [(5, { epollhup := true })]
    else if s.1.processingQueue = [] then [(6, { epollin := true }), (7, { epollin := true })]
    else [(6, { epollhup := true }), (7, { epollhup := true }), (3, { epollin := true }), (5, { epollin := true })]))

/-- It runs scripts. -/
def scripted : ServerState :=
  ({ listenFds := {3}, fdEvents := OrdMap.empty.insert 3 { epollin := true },
     listenFdToServerConf := OrdMap.empty.insert 3 (some { locations := [{
       path := ascii "/", root := ascii "/www", allowedMethods := ⟨7⟩
       cgiInterpreters := (∅ : StrMap).insert (ascii ".py") (ascii "/usr/bin/python3") }] }) }, {})

theorem isFree_iff {s : ServerManager} {fd : Nat} (h : isFree s fd = true) : ¬ Holds s.heap s.connections s.listenFds fd := by
  obtain ⟨hlisten, hconn, hpipe⟩ := of_decide_eq_true h
  rintro (h | ⟨conn, h⟩ | ⟨conn, c, hc, hp⟩)
  · exact hlisten h
  · rw [hconn] at h
    cases h
  · have := List.all_eq_true.1 hpipe _ (OrdMap.mem_entries_of_find? hc)
    exact of_decide_eq_true this hp

theorem lowestFree_free {s : ServerManager} {fd n lowest : Nat} (h : lowestFree s fd n = some lowest) :
    ¬ Holds s.heap s.connections s.listenFds lowest := by
  induction n generalizing fd with
  | zero => cases h
  | succ n ih =>
    rw [lowestFree] at h
    split at h
    · rename_i hfree
      cases h
      exact isFree_iff hfree
    · exact ih h

theorem askedFor_spec {s : ServerManager} {events : List (Nat × Events)} {e : Nat × Events} (he : e ∈ askedFor s events) :
    ∃ wanted, s.fdEvents.find? e.1 = some wanted ∧ (e.2.epollin = true → wanted.epollin = true) ∧
      (e.2.epollout = true → wanted.epollout = true) := by
  have hany := (List.mem_filter.1 he).2
  rcases hm : s.fdEvents.find? e.1 with _ | m <;> rw [hm] at hany
  · cases hany
  · exact ⟨m, rfl, of_decide_eq_true hany⟩

theorem find?_above (heap : Heap) : heap.find? (heap.keys.foldr max 0 + 1) = none := by
  rcases hc : heap.find? (heap.keys.foldr max 0 + 1) with _ | c
  · rfl
  · have hmem := List.mem_map_of_mem (f := (·.1)) (OrdMap.mem_entries_of_find? hc)
    exact absurd (List.le_max_of_le' 0 hmem (le_refl _)) (Nat.not_succ_le_self _)

theorem reusing_honest : Honest reusing where
  address s := by
    show s.1.heap.find? (if _ then _ else _) = none
    split
    · rename_i hnone
      exact hnone.1
    · exact find?_above s.1.heap
  accept s fd b h := by
    rw [reusing] at h
    dsimp only at h
    rcases hlowest : lowestFree s.1 5 16 with _ | lowest <;> rw [hlowest] at h <;> cases h
    exact lowestFree_free hlowest
  pipe s t fd h := lowestFree_free h
  once s events h := by
    cases h
    refine List.Nodup.sublist (List.Sublist.map _ List.filter_sublist) ?_
    split_ifs <;> decide
  asked s events h e he := by
    cases h
    exact askedFor_spec he

theorem scripted_fresh : Fresh scripted.1 := by
  refine ⟨rfl, rfl, rfl, rfl, rfl, fun fd => ?_, rfl⟩
  rw [scripted, OrdMap.find?_insert]
  simp
  rfl

/-- The fourth client is processed, and the pointer that the second one left has come to life. -/
theorem queued_twice : Honest reusing ∧ ∃ p s, Run reusing 92 p s ∧ Processed (s 92).1 2 ∧
    (s 92).1.processingQueue = [2, 2] ∧ ¬ QueuedOnce (s 92).1 := by
  have hend : (after reusing 92 (.roundRobin 0) scripted).map (fun x =>
      (x.2.1.processingQueue, (x.2.1.heap.find? 2).map Connection.state)) = some ([2, 2], some .PROCESSING) := by
    decide +kernel
  obtain ⟨⟨p', s'⟩, hafter, heq⟩ := Option.map_eq_some_iff.1 hend
  obtain ⟨hqueue, hstate⟩ := Prod.mk.inj heq
  obtain ⟨p, s, hrun, -, rfl⟩ := exists_run scripted_fresh hafter
  have hprocessed : Processed (s 92).1 2 := Option.map_eq_some_iff.1 hstate
  refine ⟨reusing_honest, p, s, hrun, hprocessed, hqueue, fun honce => ?_⟩
  have hcount := honce 2 hprocessed
  rw [hqueue] at hcount
  exact absurd hcount (by decide)

end ServerManager

end LeftHookRoll
