import LeftHookRoll.CgiOutput
import LeftHookRoll.ErrorPage
import LeftHookRoll.Lib.ProcTable

/-!
# The CGI children of the server

The table of processes (`ProcTable`) answers the calls that the code makes: `Polls` for the waits that do
not block, `Step` for a start, a poll, a timeout and a drop of a `CGIManager`, in any order and with
anything between them. Every child not waited for stays in `_activePids` (`children_tracked`). A stored
number names the manager's own child as long as the system gives no stored number to a new process
(`issues_own`). `Replays` is how the table answers the calls of the clean-up at shutdown.
-/

namespace LeftHookRoll

open Eff

abbrev Table := ProcTable Nat

/-- The answer of `waitpid(.., WNOHANG)`, from what the table says of the number. -/
def waitAnswer : Option Bool → WaitResult
  | none => .failed
  | some false => .running
  | some true => .exited

/-- The waits on `pids`, from call `t` on, are answered by the table. -/
inductive Polls (sys : Sys) (fresh : Nat → Prop) : Nat → List Nat → Table → Table → Prop
  | nil {t : Nat} {T T' : Table} (h : T.Drift fresh T') : Polls sys fresh t [] T T'
  | cons {t pid : Nat} {pids : List Nat} {T T₁ T' : Table} (h : T.Drift fresh T₁)
      (hanswer : sys.waitpid t pid = waitAnswer (T₁.poll pid))
      (hrest : Polls sys fresh (t + 1) pids (T₁.afterPoll pid) T') : Polls sys fresh t (pid :: pids) T T'

namespace Polls

variable {sys : Sys} {fresh : Nat → Prop} {t p : Nat} {pids : List Nat} {T T' : Table}

theorem isChild (h : Polls sys fresh t pids T T') (hp : T'.IsChild p) : T.IsChild p := by
  induction h with
  | nil hdrift => exact hdrift.isChild_iff.1 hp
  | cons hdrift _ _ ih => exact hdrift.isChild_iff.1 (ProcTable.isChild_afterPoll (ih hp)).1

theorem owns {i : Nat} (h : Polls sys fresh t pids T T') (hp : ¬ fresh p) (ho : T.Owns i p) : T'.Owns i p := by
  induction h with
  | nil hdrift => exact hdrift.owns hp ho
  | cons hdrift _ _ ih => exact ih (ProcTable.owns_afterPoll (hdrift.owns hp ho))

end Polls

namespace CGIManager

variable {sys : Sys} {fresh : Nat → Prop} {c : CGIManager} {w : World} {T T' : Table} {p : Nat}

theorem stillRunning_sublist (t : Nat) (pids : List Nat) : (stillRunning sys t pids).Sublist pids := by
  induction pids generalizing t with
  | nil => exact .slnil
  | cons pid rest ih =>
    rw [stillRunning]
    split
    · exact (ih _).cons_cons pid
    · exact (ih _).cons_cons pid
    · exact (ih _).cons pid
    · exact (ih _).cons pid

/-- The sweep forgets no child. -/
theorem mem_stillRunning {t : Nat} {pids : List Nat} (h : Polls sys fresh t pids T T') (hp : T'.IsChild p)
    (hmem : p ∈ pids) : p ∈ stillRunning sys t pids := by
  induction h with
  | nil _ => exact absurd hmem List.not_mem_nil
  | @cons t pid pids T T₁ T' hdrift hanswer hrest ih =>
    rw [stillRunning]
    obtain ⟨hchild, hruns⟩ := ProcTable.isChild_afterPoll (hrest.isChild hp)
    by_cases heq : p = pid
    · have hrun := hruns heq
      rw [heq] at hrun
      rw [hanswer, hrun, heq]
      exact List.mem_cons_self
    · have hrec := ih hp ((List.mem_cons.1 hmem).resolve_left heq)
      split
      · exact List.mem_cons_of_mem pid hrec
      · exact List.mem_cons_of_mem pid hrec
      · exact hrec
      · exact hrec

/-- A child that does not come to run here leaves its number in the manager and in the set; else the set
is what the sweep left. -/
theorem execute_parent (hparent : ∀ t, sys.fork t ≠ .child) (hasInput : Bool) (hc : c.pId = none) (w : World)
    {r : Except Exn Unit} {c' : CGIManager} {w' : World} (hrun : execute sys hasInput (c, w) = (r, c', w')) :
    (c'.pId = none ∧ w'.activePids = stillRunning sys w.tick w.activePids) ∨
      ∃ pid, c'.pId = some pid ∧ (stillRunning sys w.tick w.activePids).length < MAX_ACTIVE_CGI_CHILDREN ∧
        w'.activePids = (registerPid pid { w with activePids := stillRunning sys w.tick w.activePids }).activePids := by
  rw [execute, Eff.bind_ok (isSpawnLimitReached_eq c w)] at hrun
  simp only [decide_eq_true_eq] at hrun
  split at hrun
  · cases hrun
    exact .inl ⟨hc, rfl⟩
  rename_i hlimit
  rw [sysTick_bind] at hrun
  rcases hpipe : sys.pipe (w.tick + w.activePids.length) with _ | readEnd
  · simp only [hpipe] at hrun
    cases hrun
    exact .inl ⟨hc, rfl⟩
  simp only [hpipe] at hrun
  rw [Eff.modObj_bind, Eff.obj_bind, logCall, Eff.modWorld_bind, sysTick_bind] at hrun
  rcases hfork : sys.fork (w.tick + w.activePids.length + 1) with _ | pid | _
  · simp only [hfork] at hrun
    cases hrun
    exact .inl ⟨rfl, rfl⟩
  · simp only [hfork] at hrun
    cases hrun
    refine .inr ⟨pid, rfl, Nat.not_le.1 hlimit, ?_⟩
    unfold registerPid
    split_ifs <;> rfl
  · exact absurd hfork (hparent _)

/-! ### The set of active children -/

theorem mem_registerPid {pid : Nat} : p ∈ (registerPid pid w).activePids ↔ p = pid ∨ p ∈ w.activePids := by
  unfold registerPid
  split
  · rename_i hmem
    refine ⟨.inr, ?_⟩
    rintro (rfl | hp)
    · exact hmem
    · exact hp
  · exact List.mem_orderedInsert _

theorem length_registerPid_le (pid : Nat) (w : World) :
    (registerPid pid w).activePids.length ≤ w.activePids.length + 1 := by
  unfold registerPid
  split
  · exact Nat.le_succ _
  · exact (List.orderedInsert_length _ _ _).le

theorem nodup_registerPid (pid : Nat) (h : w.activePids.Nodup) : (registerPid pid w).activePids.Nodup := by
  unfold registerPid
  split
  · exact h
  · rename_i hmem
    exact (List.perm_orderedInsert _ _ _).nodup_iff.2 (List.nodup_cons.2 ⟨hmem, h⟩)

/-- What a poll of the number of `c` makes of the set. -/
def activeAfter (sys : Sys) (t : Nat) (active : List Nat) : Option Nat → List Nat
  | none => active
  | some pid => if sys.waitpid t pid = .running then active else active.erase pid

theorem isDone_eq (c : CGIManager) (w : World) : ∃ done c' w', isDone sys (c, w) = (.ok done, c', w') ∧
    (c'.pId = c.pId ∨ c'.pId = none) ∧ w'.activePids = activeAfter sys w.tick w.activePids c.pId := by
  rw [isDone, Eff.obj_bind, activeAfter.eq_def]
  rcases hpid : c.pId with _ | pid
  · exact ⟨true, c, w, rfl, .inl hpid, rfl⟩
  simp only
  rw [sysTick_bind]
  split
  · exact ⟨false, c, _, rfl, .inl hpid, rfl⟩
  · exact ⟨true, _, _, rfl, .inr rfl, rfl⟩

/-- The second call on the number, after the kill, is the poll in `isDone`. -/
theorem activePids_cgiTimeout (config : ServerConf) {r : Response} (hr : r.cgiInstance = some c) (w : World) :
    (Response.cgiTimeout sys config (r, w)).2.2.activePids = activeAfter sys (w.tick + 1) w.activePids c.pId := by
  have hpage (s : Response × World) : ((do
      modObj fun r => { r with cgiInstance := none }
      modObj fun r => { r with buildPhase := .BUILD_DONE }
      Response.buildErrorPage sys (ascii "504") config : Method Response Unit) s).2.2.activePids = s.2.activePids := by
    rw [Eff.modObj_bind, Eff.modObj_bind]
    exact (Response.silent_buildErrorPage sys _ config _).activePids_eq
  rw [Response.cgiTimeout, Eff.obj_bind, hr]
  simp only
  rcases hpid : c.pId with _ | pid
  · exact hpage (r, w)
  obtain ⟨w₁, hw₁⟩ : ∃ w₁, w₁ = { w with tick := w.tick + 1, signals := (pid, .SIGKILL) :: w.signals } := ⟨_, rfl⟩
  have hkill : Response.killCgi pid (r, w) = (.ok (), r, w₁) := by rw [hw₁]; rfl
  obtain ⟨done, c', w', hdone, -, hactive⟩ := @isDone_eq sys c w₁
  have hdone' : Response.readCgiOutput.isCgiDone sys (r, w₁) = (.ok done, { r with cgiInstance := some c' }, w') := by
    refine Eff.on_eq ?_
    simp only [hr]
    exact hdone
  simp only
  rw [Eff.bind_ok hkill, Eff.bind_ok hdone']
  refine (hpage _).trans ?_
  rw [hactive, hpid, hw₁]

theorem mem_activeAfter {t : Nat} {active : List Nat} (hnodup : active.Nodup) {pid : Nat}
    (hanswer : sys.waitpid t pid = waitAnswer (T.poll pid)) (hp : (T.afterPoll pid).IsChild p) (hmem : p ∈ active) :
    p ∈ activeAfter sys t active (some pid) := by
  obtain ⟨hchild, hruns⟩ := ProcTable.isChild_afterPoll hp
  rw [activeAfter]
  split
  · exact hmem
  · rename_i hrun
    refine (List.Nodup.mem_erase_iff hnodup).2 ⟨fun heq => hrun ?_, hmem⟩
    rw [hanswer, ← heq, hruns heq]
    rfl

end CGIManager

/-! ### Runs -/

/-- The managers that live, by the order of their making, what the server shares, and the processes. -/
structure CgiState where
  managers : Nat → Option CGIManager
  made : Nat
  world : World
  table : Table

/-- A `kill` or `waitpid` through the number that a manager stores, and the processes then. -/
structure Issue where
  manager : Nat
  pid : Nat
  table : Table

/-- The call meets the child of the manager, or no process at all. -/
def Issue.Own (i : Issue) : Prop := i.table.Owns i.manager i.pid

/-- `fork` for manager `m`, whose number is then stored. -/
def Forks (fresh : Nat → Prop) (m : Nat) (stored : Option Nat) (T T' : Table) : Prop :=
  match stored with
  | none => T' = T
  | some pid => T pid = none ∧ fresh pid ∧ T' = Function.update T pid (some (.child m false))

/-- `isDone` of manager `m`, which stores `stored`, as call `t`. -/
inductive PollsOwn (sys : Sys) (m t : Nat) (T : Table) : Option Nat → List Issue → Table → Prop
  | idle : PollsOwn sys m t T none [] T
  | call {pid : Nat} (hanswer : sys.waitpid t pid = waitAnswer (T.poll pid)) :
      PollsOwn sys m t T (some pid) [⟨m, pid, T⟩] (T.afterPoll pid)

/-- The calls of `cgiTimeout`: a kill with a wait that blocks, then `isDone`. -/
inductive KillsOwn (sys : Sys) (fresh : Nat → Prop) (m t : Nat) (T : Table) : Option Nat → List Issue → Table → Prop
  | idle : KillsOwn sys fresh m t T none [] T
  | call {pid : Nat} {T₁ T₂ T' : Table} {l : List Issue} (hwait : T.Wait fresh pid T₁) (hdrift : T₁.Drift fresh T₂)
      (hpoll : PollsOwn sys m (t + 1) T₂ (some pid) l T') : KillsOwn sys fresh m t T (some pid) (⟨m, pid, T⟩ :: l) T'

/-- One step, and the calls through stored numbers that it makes; `fresh` says which numbers the system
may give to a new process. -/
inductive CgiState.Step (fresh : CgiState → Nat → Prop) (s : CgiState) : List Issue → CgiState → Prop
  /-- No call is made. -/
  | drift {T' : Table} (h : s.table.Drift (fresh s) T') : Step fresh s [] { s with table := T' }
  /-- The server does something else. -/
  | other {w' : World} (h : w'.activePids = s.world.activePids) : Step fresh s [] { s with world := w' }
  /-- `execute` on a new manager; one that throws is deleted. -/
  | start {sys : Sys} {hasInput : Bool} {c c' : CGIManager} {r : Except Exn Unit} {w' : World} {T₁ T' : Table}
      (hc : c.pId = none) (hparent : ∀ t, sys.fork t ≠ .child)
      (hrun : CGIManager.execute sys hasInput (c, s.world) = (r, c', w'))
      (hpolls : Polls sys (fresh s) s.world.tick s.world.activePids s.table T₁)
      (hfork : Forks (fresh s) s.made c'.pId T₁ T') :
      Step fresh s [] ⟨Function.update s.managers s.made (r.toOption.map fun _ => c'), s.made + 1, w', T'⟩
  /-- `isDone`. -/
  | poll {sys : Sys} {m : Nat} {c c' : CGIManager} {r : Except Exn Bool} {w' : World} {T' : Table} {l : List Issue}
      (hm : s.managers m = some c) (hrun : CGIManager.isDone sys (c, s.world) = (r, c', w'))
      (hpoll : PollsOwn sys m s.world.tick s.table c.pId l T') :
      Step fresh s l { s with managers := Function.update s.managers m (some c'), world := w', table := T' }
  /-- `cgiTimeout` of the response that the manager belongs to. -/
  | timeout {sys : Sys} {m : Nat} {c : CGIManager} {x x' : Response} {config : ServerConf} {r : Except Exn Unit}
      {w' : World} {T' : Table} {l : List Issue} (hm : s.managers m = some c) (hx : x.cgiInstance = some c)
      (hrun : Response.cgiTimeout sys config (x, s.world) = (r, x', w'))
      (hkill : KillsOwn sys (fresh s) m s.world.tick s.table c.pId l T') :
      Step fresh s l { s with managers := Function.update s.managers m none, world := w', table := T' }
  /-- The manager goes with its response. -/
  | drop (m : Nat) : Step fresh s [] { s with managers := Function.update s.managers m none }

/-- The states that a run from a server with no children comes to, and the calls made on the way. -/
inductive CgiState.Run (fresh : CgiState → Nat → Prop) : CgiState → List Issue → Prop
  | start {w : World} {T : Table} (hw : w.activePids = []) (hT : ∀ p, ¬ T.IsChild p) : Run fresh ⟨fun _ => none, 0, w, T⟩ []
  | step {s s' : CgiState} {l l' : List Issue} (h : Run fresh s l) (hstep : s.Step fresh l' s') : Run fresh s' (l ++ l')

section Calls

variable {sys : Sys} {f : Nat → Prop} {m t i pid : Nat} {stored : Option Nat} {T T' : Table} {l : List Issue}

theorem PollsOwn.owns (h : PollsOwn sys m t T stored l T') (ho : T.Owns i pid) : T'.Owns i pid := by
  cases h with
  | idle => exact ho
  | call _ => exact ProcTable.owns_afterPoll ho

theorem PollsOwn.own (h : PollsOwn sys m t T stored l T')
    (ho : ∀ pid, stored = some pid → T.Owns m pid) : ∀ i ∈ l, i.Own := by
  cases h with
  | idle => exact fun _ hi => absurd hi List.not_mem_nil
  | call _ =>
    intro i hi
    rw [List.mem_singleton.1 hi]
    exact ho _ rfl

theorem KillsOwn.owns (h : KillsOwn sys f m t T stored l T') (hpid : ¬ f pid) (ho : T.Owns i pid) : T'.Owns i pid := by
  cases h with
  | idle => exact ho
  | call hwait hdrift hpoll => exact hpoll.owns (hdrift.owns hpid (hwait.owns hpid ho))

theorem KillsOwn.own (h : KillsOwn sys f m t T stored l T') (ho : ∀ pid, stored = some pid → ¬ f pid ∧ T.Owns m pid) :
    ∀ i ∈ l, i.Own := by
  cases h with
  | idle => exact fun _ hi => absurd hi List.not_mem_nil
  | call hwait hdrift hpoll =>
    obtain ⟨hfresh, howns⟩ := ho _ rfl
    intro i hi
    rcases List.mem_cons.1 hi with rfl | hi
    · exact howns
    · refine hpoll.own (fun pid heq => ?_) i hi
      cases heq
      exact hdrift.owns hfresh (hwait.owns hfresh howns)

end Calls

namespace CgiState

variable {fresh : CgiState → Nat → Prop} {s s' : CgiState} {l : List Issue}

/-! ### No child is forgotten -/

/-- The set holds every child that was not waited for, within the limit. -/
structure Tracked (s : CgiState) : Prop where
  active : ∀ p, s.table.IsChild p → p ∈ s.world.activePids
  nodup : s.world.activePids.Nodup
  limit : s.world.activePids.length ≤ MAX_ACTIVE_CGI_CHILDREN

theorem Tracked.start (hs : Tracked s) {sys : Sys} {m : Nat} {c c' : CGIManager} {r : Except Exn Unit} {hasInput : Bool}
    {w' : World} {T₁ T' : Table} {f : Nat → Prop} (hc : c.pId = none) (hparent : ∀ t, sys.fork t ≠ .child)
    (hrun : CGIManager.execute sys hasInput (c, s.world) = (r, c', w'))
    (hpolls : Polls sys f s.world.tick s.world.activePids s.table T₁) (hfork : Forks f m c'.pId T₁ T')
    {M : Nat → Option CGIManager} {n : Nat} : Tracked ⟨M, n, w', T'⟩ := by
  obtain ⟨kept, hkept⟩ : ∃ kept, kept = CGIManager.stillRunning sys s.world.tick s.world.activePids := ⟨_, rfl⟩
  have hsub : kept.Sublist s.world.activePids := hkept ▸ CGIManager.stillRunning_sublist _ _
  have hmem (p : Nat) (hp : T₁.IsChild p) : p ∈ kept :=
    hkept ▸ CGIManager.mem_stillRunning hpolls hp (hs.active p (hpolls.isChild hp))
  have hcases := CGIManager.execute_parent hparent hasInput hc s.world hrun
  rw [← hkept] at hcases
  rcases hcases with ⟨hnone, hactive⟩ | ⟨pid, hsome, hlimit, hactive⟩
  · rw [hnone] at hfork
    obtain rfl : T' = T₁ := hfork
    refine ⟨fun p hp => ?_, ?_, ?_⟩
    · show p ∈ w'.activePids
      rw [hactive]
      exact hmem p hp
    · show w'.activePids.Nodup
      rw [hactive]
      exact hs.nodup.sublist hsub
    · show w'.activePids.length ≤ _
      rw [hactive]
      exact hsub.length_le.trans hs.limit
  · rw [hsome] at hfork
    obtain ⟨hfree, -, hT'⟩ := hfork
    refine ⟨fun p hp => ?_, ?_, ?_⟩
    · show p ∈ w'.activePids
      rw [hactive, CGIManager.mem_registerPid]
      by_cases heq : p = pid
      · exact .inl heq
      · refine .inr (hmem p ?_)
        obtain ⟨i, e, he⟩ := hp
        have he' : T' p = some (.child i e) := he
        rw [hT', Function.update_of_ne heq] at he'
        exact ⟨i, e, he'⟩
    · show w'.activePids.Nodup
      rw [hactive]
      exact CGIManager.nodup_registerPid pid (hs.nodup.sublist hsub)
    · show w'.activePids.length ≤ _
      rw [hactive]
      exact (CGIManager.length_registerPid_le pid _).trans hlimit

theorem Tracked.pollsOwn (hs : Tracked s) {sys : Sys} {m t : Nat} {stored : Option Nat} {T T' : Table} {w' : World}
    (hpoll : PollsOwn sys m t T stored l T') (hT : ∀ p, T.IsChild p → s.table.IsChild p)
    (hactive : w'.activePids = CGIManager.activeAfter sys t s.world.activePids stored)
    {M : Nat → Option CGIManager} {n : Nat} : Tracked ⟨M, n, w', T'⟩ := by
  have hsub : w'.activePids.Sublist s.world.activePids := by
    rw [hactive]
    unfold CGIManager.activeAfter
    split
    · exact .refl _
    · split_ifs
      · exact .refl _
      · exact List.erase_sublist
  refine ⟨fun p hp => ?_, hs.nodup.sublist hsub, hsub.length_le.trans hs.limit⟩
  show p ∈ w'.activePids
  rw [hactive]
  cases hpoll with
  | idle => exact hs.active p (hT p hp)
  | call hanswer =>
    have hchild := (ProcTable.isChild_afterPoll hp).1
    exact CGIManager.mem_activeAfter hs.nodup hanswer hp (hs.active p (hT p hchild))

theorem Tracked.step (hs : Tracked s) (h : s.Step fresh l s') : Tracked s' := by
  cases h with
  | drift hdrift => exact ⟨fun p hp => hs.active p (hdrift.isChild_iff.1 hp), hs.nodup, hs.limit⟩
  | other hw => exact ⟨fun p hp => hw ▸ hs.active p hp, hw ▸ hs.nodup, hw ▸ hs.limit⟩
  | start hc hparent hrun hpolls hfork => exact hs.start hc hparent hrun hpolls hfork
  | @poll sys m c c' r w' T' l hm hrun hpoll =>
    obtain ⟨done, c₁, w₁, hdone, -, hactive⟩ := @CGIManager.isDone_eq sys c s.world
    rw [hrun] at hdone
    cases hdone
    exact hs.pollsOwn hpoll (fun _ hp => hp) hactive
  | @timeout sys m c x x' config r w' T' l hm hx hrun hkill =>
    have hactive := @CGIManager.activePids_cgiTimeout sys c config x hx s.world
    rw [hrun] at hactive
    generalize hstored : c.pId = stored at hkill hactive
    cases hkill with
    | idle => exact hs.pollsOwn (PollsOwn.idle (m := m)) (fun _ hp => hp) hactive
    | call hwait hdrift hpoll =>
      exact hs.pollsOwn hpoll (fun p hp => (hwait.isChild (hdrift.isChild_iff.1 hp)).2) hactive
  | drop m => exact ⟨hs.active, hs.nodup, hs.limit⟩

theorem Run.tracked (h : Run fresh s l) : Tracked s := by
  induction h with
  | start hw hT =>
    refine ⟨fun p hp => absurd hp (hT p), ?_, ?_⟩
    · show List.Nodup _
      rw [hw]
      exact List.nodup_nil
    · show List.length _ ≤ _
      rw [hw]
      exact Nat.zero_le _
  | step _ hstep ih => exact ih.step hstep

/-! ### The clean-up at shutdown -/

/-- The calls, answered by the table; a signal ends no process at once. -/
inductive Replays (fresh : Nat → Prop) : List CGIManager.ProcCall → Table → Table → Prop
  | nil {T T' : Table} (h : T.Drift fresh T') : Replays fresh [] T T'
  | kill {pid : Nat} {sig : Signal} {calls : List CGIManager.ProcCall} {T T' : Table}
      (hrest : Replays fresh calls T T') : Replays fresh (.kill pid sig :: calls) T T'
  | poll {pid : Nat} {answer : WaitResult} {calls : List CGIManager.ProcCall} {T T₁ T' : Table}
      (h : T.Drift fresh T₁) (hanswer : answer = waitAnswer (T₁.poll pid))
      (hrest : Replays fresh calls (T₁.afterPoll pid) T') : Replays fresh (.poll pid answer :: calls) T T'
  | wait {pid : Nat} {calls : List CGIManager.ProcCall} {T T₁ T' : Table} (hwait : T.Wait fresh pid T₁)
      (hrest : Replays fresh calls T₁ T') : Replays fresh (.wait pid :: calls) T T'

/-- A child that is left was polled as running only, and not waited for. -/
theorem Replays.isChild {f : Nat → Prop} {calls : List CGIManager.ProcCall} {T T' : Table} (h : Replays f calls T T')
    {p : Nat} (hp : T'.IsChild p) : T.IsChild p ∧ ¬ CGIManager.Reaps calls p := by
  induction h with
  | nil hdrift =>
    refine ⟨hdrift.isChild_iff.1 hp, ?_⟩
    rintro (⟨_, hpoll, -⟩ | hwait)
    · cases hpoll
    · cases hwait
  | kill _ ih =>
    obtain ⟨hchild, hnot⟩ := ih hp
    refine ⟨hchild, ?_⟩
    rintro (⟨answer, hpoll, hne⟩ | hwait)
    · exact hnot (.inl ⟨answer, List.mem_of_ne_of_mem (by rintro ⟨⟩) hpoll, hne⟩)
    · exact hnot (.inr (List.mem_of_ne_of_mem (by rintro ⟨⟩) hwait))
  | @poll pid answer _ T T₁ _ hdrift hanswer _ ih =>
    obtain ⟨hchild, hnot⟩ := ih hp
    obtain ⟨hchild, hruns⟩ := ProcTable.isChild_afterPoll hchild
    refine ⟨hdrift.isChild_iff.1 hchild, ?_⟩
    rintro (⟨answer', hpoll, hne⟩ | hwait)
    · rcases List.mem_cons.1 hpoll with heq | hpoll
      · cases heq
        rw [hanswer, hruns rfl] at hne
        exact hne rfl
      · exact hnot (.inl ⟨answer', hpoll, hne⟩)
    · exact hnot (.inr (List.mem_of_ne_of_mem (by rintro ⟨⟩) hwait))
  | wait hwait _ ih =>
    obtain ⟨hchild, hnot⟩ := ih hp
    obtain ⟨hne, hchild⟩ := hwait.isChild hchild
    refine ⟨hchild, ?_⟩
    rintro (⟨answer, hpoll, hrun⟩ | hmem)
    · exact hnot (.inl ⟨answer, List.mem_of_ne_of_mem (by rintro ⟨⟩) hpoll, hrun⟩)
    · rcases List.mem_cons.1 hmem with heq | hmem
      · cases heq
        exact hne rfl
      · exact hnot (.inr hmem)

theorem Tracked.cleanup (hs : Tracked s) {sys : Sys} {f : Nat → Prop} {T' : Table}
    (h : Replays f (CGIManager.cleanupAllProcesses sys s.world).1 s.table T') (p : Nat) : ¬ T'.IsChild p := by
  intro hp
  obtain ⟨hchild, hnot⟩ := h.isChild hp
  exact hnot (CGIManager.reaps_cleanup (hs.active p hchild))

/-- Every child that was not waited for is in the set, and there are no more of them than the limit. However the system
answers the calls of `cleanupAllProcesses`, no child is left, and it blocks for killed processes only. -/
structure Kept (s : CgiState) : Prop where
  active : ∀ p, s.table.IsChild p → p ∈ s.world.activePids
  few : ∀ pids : Finset Nat, (∀ p ∈ pids, s.table.IsChild p) → pids.card ≤ MAX_ACTIVE_CGI_CHILDREN
  cleaned : ∀ (sys : Sys) (f : Nat → Prop) (T' : Table),
    Replays f (CGIManager.cleanupAllProcesses sys s.world).1 s.table T' → ∀ p, ¬ T'.IsChild p
  killed : ∀ sys : Sys, CGIManager.KilledFirst (CGIManager.cleanupAllProcesses sys s.world).1

theorem children_kept (h : Run (fun _ _ => True) s l) : Kept s := by
  have hs := h.tracked
  refine ⟨hs.active, fun pids hpids => ?_, fun sys f T' h => hs.cleanup h, fun sys => CGIManager.killedFirst_cleanup _⟩
  have hsub : pids ⊆ s.world.activePids.toFinset := fun p hp => List.mem_toFinset.2 (hs.active p (hpids p hp))
  calc pids.card ≤ s.world.activePids.toFinset.card := Finset.card_le_card hsub
    _ ≤ s.world.activePids.length := List.toFinset_card_le _
    _ ≤ MAX_ACTIVE_CGI_CHILDREN := hs.limit

/-! ### Whose child a stored number names -/

/-- No living manager stores the number. -/
def NotStored (s : CgiState) (pid : Nat) : Prop := ∀ m c, s.managers m = some c → c.pId ≠ some pid

/-- Each stored number names the manager's own child, or no process. -/
def Named (s : CgiState) : Prop := ∀ m c pid, s.managers m = some c → c.pId = some pid → s.table.Owns m pid

theorem not_notStored {m pid : Nat} {c : CGIManager} (hm : s.managers m = some c) (hpid : c.pId = some pid) :
    ¬ NotStored s pid := fun hno => hno m c hm hpid

/-- One manager is replaced by one that stores the same number or none, and no stored number is given to a
new process. -/
theorem Named.replace (hs : Named s) {m : Nat} {new : Option CGIManager} {w' : World} {T' : Table}
    (hnew : ∀ c', new = some c' → ∀ pid, c'.pId = some pid → ∃ c, s.managers m = some c ∧ c.pId = some pid)
    (hT : ∀ i pid, ¬ NotStored s pid → s.table.Owns i pid → T'.Owns i pid) :
    Named { s with managers := Function.update s.managers m new, world := w', table := T' } := by
  intro i c' pid hi hpid
  have hi' : Function.update s.managers m new i = some c' := hi
  by_cases him : i = m
  · subst him
    rw [Function.update_self] at hi'
    obtain ⟨c, hc, hcpid⟩ := hnew c' hi' pid hpid
    exact hT i pid (not_notStored hc hcpid) (hs i c pid hc hcpid)
  · rw [Function.update_of_ne him] at hi'
    exact hT i pid (not_notStored hi' hpid) (hs i c' pid hi' hpid)

theorem Named.step (hs : Named s) (h : s.Step NotStored l s') : Named s' ∧ ∀ i ∈ l, i.Own := by
  have hkeep {m : Nat} {c c' : CGIManager} (hm : s.managers m = some c) (hc' : c'.pId = c.pId ∨ c'.pId = none) :
      ∀ c'', some c' = some c'' → ∀ pid, c''.pId = some pid → ∃ c, s.managers m = some c ∧ c.pId = some pid := by
    rintro _ ⟨⟩ pid hpid
    rcases hc' with hsame | hnone
    · exact ⟨c, hm, hsame ▸ hpid⟩
    · rw [hnone] at hpid
      cases hpid
  cases h with
  | drift hdrift =>
    refine ⟨fun m c pid hm hpid => ?_, fun _ hi => absurd hi List.not_mem_nil⟩
    exact hdrift.owns (not_notStored hm hpid) (hs m c pid hm hpid)
  | other _ => exact ⟨hs, fun _ hi => absurd hi List.not_mem_nil⟩
  | @start sys hasInput c c' r w' T₁ T' hc hparent hrun hpolls hfork =>
    refine ⟨fun m d pid hm hpid => ?_, fun _ hi => absurd hi List.not_mem_nil⟩
    have hm' : Function.update s.managers s.made (r.toOption.map fun _ => c') m = some d := hm
    by_cases hmade : m = s.made
    · -- the new child
      subst hmade
      rw [Function.update_self, Option.map_eq_some_iff] at hm'
      obtain ⟨_, -, rfl⟩ := hm'
      rw [hpid] at hfork
      obtain ⟨-, -, rfl⟩ := hfork
      intro x hx
      have hx' : Function.update T₁ pid (some (.child s.made false)) pid = some x := hx
      rw [Function.update_self] at hx'
      cases hx'
      exact ⟨false, rfl⟩
    · rw [Function.update_of_ne hmade] at hm'
      have hpolled := hpolls.owns (not_notStored hm' hpid) (hs m d pid hm' hpid)
      unfold Forks at hfork
      split at hfork
      · subst hfork
        exact hpolled
      · rename_i new _
        obtain ⟨-, hnew, rfl⟩ := hfork
        have hne : pid ≠ new := fun heq => hnew m d hm' (heq ▸ hpid)
        intro x hx
        have hx' : Function.update T₁ new (some (.child s.made false)) pid = some x := hx
        rw [Function.update_of_ne hne] at hx'
        exact hpolled x hx'
  | @poll sys m c c' r w' T' l hm hrun hpoll =>
    obtain ⟨done, c₁, w₁, hdone, hc₁, -⟩ := @CGIManager.isDone_eq sys c s.world
    rw [hrun] at hdone
    cases hdone
    exact ⟨hs.replace (hkeep hm hc₁) fun i pid _ ho => hpoll.owns ho,
      hpoll.own fun pid hpid => hs m c pid hm hpid⟩
  | @timeout sys m c x x' config r w' T' l hm hx hrun hkill =>
    exact ⟨hs.replace (fun _ hc => by cases hc) fun i pid hno ho => hkill.owns hno ho,
      hkill.own fun pid hpid => ⟨not_notStored hm hpid, hs m c pid hm hpid⟩⟩
  | drop m => exact ⟨hs.replace (fun _ hc => by cases hc) fun _ _ _ ho => ho, fun _ hi => absurd hi List.not_mem_nil⟩

theorem Run.named (h : Run NotStored s l) : Named s ∧ ∀ i ∈ l, i.Own := by
  induction h with
  | start hw hT =>
    refine ⟨fun m c pid hm => ?_, fun _ hi => absurd hi List.not_mem_nil⟩
    cases hm
  | step _ hstep ih =>
    obtain ⟨hnamed, hown⟩ := ih.1.step hstep
    refine ⟨hnamed, fun i hi => ?_⟩
    rcases List.mem_append.1 hi with hi | hi
    · exact ih.2 i hi
    · exact hown i hi

/-- All the calls meet the child of the manager that makes them. -/
def AllOwn (l : List Issue) : Prop := ∀ i ∈ l, i.Own

theorem issues_own (h : Run NotStored s l) : AllOwn l := h.named.2

/-! ### Two requests, one number -/

/-- A system on which every child that is polled has exited. -/
def exitedSys : Sys := { Sys.calm with waitpid := fun _ _ => .exited }

/-- A system on which no number that is polled is that of a child. -/
def noChildSys : Sys := { Sys.calm with waitpid := fun _ _ => .failed }

/-- No children. -/
def idleState : CgiState := ⟨fun _ => none, 0, {}, fun _ => none⟩

/-- A first request has started the child 100. -/
def oneChild : CgiState where
  managers := Function.update (fun _ => none) 0 (some { pId := some 100, outPipe := some 9 })
  made := 1
  world := { tick := 2, activePids := [100], calls := [.exec []] }
  table := Function.update (fun _ => none) 100 (some (.child 0 false))

theorem oneChild_step (hfresh : fresh idleState 100) : idleState.Step fresh [] oneChild := by
  have hrun : CGIManager.execute Sys.calm false ({}, idleState.world) =
      (.ok (), { pId := some 100, outPipe := some 9 }, oneChild.world) := rfl
  have hpolls : Polls Sys.calm (fresh idleState) 0 [] idleState.table idleState.table := .nil .refl
  have hfork : Forks (fresh idleState) 0 (some 100) idleState.table oneChild.table := ⟨rfl, hfresh, rfl⟩
  exact .start rfl (fun _ => show ForkResult.parent 100 ≠ .child by decide) hrun hpolls hfork

theorem idle_run : Run fresh idleState [] := .start rfl fun _ ⟨_, _, h⟩ => nomatch h

/-- The clean-up finds the child gone. -/
theorem children_kept_one : Kept oneChild ∧ ∃ T' : Table, T' 100 = none ∧
    Replays (fun _ => True) (CGIManager.cleanupAllProcesses exitedSys oneChild.world).1 oneChild.table T' := by
  obtain ⟨T, hT⟩ : ∃ T : Table, T = Function.update oneChild.table 100 (some (.child 0 true)) := ⟨_, rfl⟩
  have hexit : oneChild.table.Drift (fun _ => True) T := hT ▸ .single (.exit (i := 0) rfl)
  have hpoll : T.poll 100 = some true := by rw [hT]; rfl
  refine ⟨children_kept (.step idle_run (oneChild_step trivial)), T.afterPoll 100, ?_, ?_⟩
  · rw [ProcTable.afterPoll, if_pos hpoll, Function.update_self]
  · exact .kill (.poll hexit (by rw [hpoll]; rfl) (.nil .refl))

theorem issues_own_one_poll : AllOwn [⟨0, 100, oneChild.table⟩] := by
  have hanswer : Sys.calm.waitpid 2 100 = waitAnswer (oneChild.table.poll 100) := rfl
  have hrun : CGIManager.isDone Sys.calm ({ pId := some 100, outPipe := some 9 }, oneChild.world) =
      (.ok false, { pId := some 100, outPipe := some 9 }, { oneChild.world with tick := 3 }) := rfl
  exact issues_own (.step (.step idle_run (oneChild_step fun _ _ hm => nomatch hm)) (.poll rfl hrun (.call hanswer)))

/-- The child 100 has exited. -/
def childExited : CgiState := { oneChild with table := Function.update oneChild.table 100 (some (.child 0 true)) }

/-- A second request has waited for the child 100 and started a child that got its number. -/
def twoRequests : CgiState where
  managers := Function.update oneChild.managers 1 (some { pId := some 100, outPipe := some 9 })
  made := 2
  world := { tick := 5, activePids := [100], calls := [.exec [], .exec []] }
  table := Function.update (Function.update childExited.table 100 none) 100 (some (.child 1 false))

/-- The child of the first request exits, the start of a second one waits for it and gets its number, and
the timeout of the first kills the child of the second. -/
theorem not_issues_own : ¬ ∀ (s : CgiState) (l : List Issue), Run (fun _ _ => True) s l → AllOwn l := by
  intro hall
  have hexit : oneChild.Step (fun _ _ => True) [] childExited := .drift (.single (.exit (i := 0) rfl))
  have hstart : childExited.Step (fun _ _ => True) [] twoRequests := by
    have hrun : CGIManager.execute exitedSys false ({}, childExited.world) =
        (.ok (), { pId := some 100, outPipe := some 9 }, twoRequests.world) := rfl
    have hpoll : childExited.table.poll 100 = some true := rfl
    have hafter : childExited.table.afterPoll 100 = Function.update childExited.table 100 none := if_pos hpoll
    have hpolls : Polls exitedSys (fun _ => True) 2 [100] childExited.table (childExited.table.afterPoll 100) :=
      .cons .refl (by rw [hpoll]; rfl) (.nil .refl)
    have hfork : Forks (fun _ => True) 1 (some 100) (childExited.table.afterPoll 100) twoRequests.table := by
      rw [hafter]
      exact ⟨rfl, trivial, rfl⟩
    exact .start rfl (fun _ => show ForkResult.parent 100 ≠ .child by decide) hrun hpolls hfork
  obtain ⟨c, hc⟩ : ∃ c : CGIManager, c = { pId := some 100, outPipe := some 9 } := ⟨_, rfl⟩
  have hm : twoRequests.managers 0 = some c := by rw [hc]; rfl
  obtain ⟨r, x', w', hrun⟩ : ∃ r x' w', Response.cgiTimeout noChildSys {} ({ cgiInstance := some c }, twoRequests.world) =
      (r, x', w') := ⟨_, _, _, rfl⟩
  obtain ⟨l, T', hkill, hissue⟩ : ∃ l T', KillsOwn noChildSys (fun _ => True) 0 5 twoRequests.table c.pId l T' ∧
      ⟨0, 100, twoRequests.table⟩ ∈ l := by
    rw [hc]
    exact ⟨_, _, .call (ProcTable.wait_exit (i := 1) rfl) .refl (.call rfl), List.mem_cons_self⟩
  have hone : Run (fun _ _ => True) oneChild [] := .step idle_run (oneChild_step trivial)
  have htwo := ((hone.step hexit).step hstart).step (.timeout hm rfl hrun hkill)
  obtain ⟨e, he⟩ := hall _ _ htwo _ (List.mem_append_right _ hissue) _ rfl
  cases he

end CgiState

end LeftHookRoll
