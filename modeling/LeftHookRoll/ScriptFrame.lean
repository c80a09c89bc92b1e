import LeftHookRoll.CgiOutput
import LeftHookRoll.Handlers
import LeftHookRoll.SendSlice

/-!
# Which response code starts a script, sends bytes, or lets a pipe go

`Goes`: how `buildResponse` goes on when it returns. `Sends fd`: no script is started and no socket but
`fd` accepts a byte. `KeepsPipe` and `MayClose`: what reading the output of a script does to its pipe.
-/

namespace LeftHookRoll

open Eff

namespace World

/-- The clock stands and no socket accepts a byte. -/
def Offline (w w' : World) : Prop := w'.now = w.now ∧ w'.outbox = w.outbox

instance : IsPreorder World Offline where
  refl _ := ⟨rfl, rfl⟩
  trans _ _ _ h h' := ⟨h'.1.trans h.1, h'.2.trans h.2⟩

/-- The clock stands and no socket but `fd` accepts a byte. -/
def SendsTo (fd : Nat) (w w' : World) : Prop := w'.now = w.now ∧ ∀ g, g ≠ fd → w'.outbox g = w.outbox g

instance (fd : Nat) : IsPreorder World (SendsTo fd) where
  refl _ := ⟨rfl, fun _ _ => rfl⟩
  trans _ _ _ h h' := ⟨h'.1.trans h.1, fun g hg => (h'.2 g hg).trans (h.2 g hg)⟩

variable {P : Call → Prop} {w w' : World}

theorem Acts.offline (h : Acts P w w') : Offline w w' := ⟨h.now_eq, h.outbox_eq⟩

theorem Local.offline (h : Local w w') : Offline w w' := (h.acts (P := fun _ => True)).offline

theorem Offline.sendsTo (h : Offline w w') (fd : Nat) : SendsTo fd w w' :=
  ⟨h.1, fun g _ => congrFun h.2 g⟩

end World

/-- Any path may be used. -/
abbrev AnyCall : Call → Prop := fun _ => True

namespace CGIManager

variable {sys : Sys} {c c' : CGIManager} {w w' : World}

theorem raises_runChild (hasInput : Bool) : Raises (runChild sys hasInput) := by
  refine Raises.bind fun argv => Raises.bind fun _ => ?_
  refine Raises.ite (Raises.bind fun _ => Raises.ite .throw_bind ?_) ?_
  all_goals
    refine Raises.bind fun _ => Raises.bind fun _ => Raises.ite .throw_bind ?_
    exact Raises.bind fun _ => Raises.ite .throw_bind (.throw _)

/-- A manager that the code goes on with has the read end of a new pipe. -/
theorem execute_ok {hasInput : Bool} (h : execute sys hasInput (c, w) = (.ok (), c', w')) :
    ∃ p t, c'.outPipe = some p ∧ sys.pipe t = some p := by
  obtain ⟨full, s₁, -, h⟩ := Eff.bind_eq_ok.1 h
  split at h
  · cases h
  obtain ⟨t, s₂, -, h⟩ := Eff.bind_eq_ok.1 h
  rcases hpipe : sys.pipe t with _ | p
  · simp only [hpipe] at h
    cases h
  simp only [hpipe] at h
  rw [Eff.modObj_bind, Eff.obj_bind, logCall, Eff.modWorld_bind, sysTick_bind] at h
  generalize sys.fork _ = forked at h
  rcases forked with _ | pid | _
  · cases h
  · cases h
    exact ⟨p, t, rfl, hpipe⟩
  · exact absurd h (raises_runChild hasInput _ _ _)

/-- The pipe is the one there was, or a new one. -/
def OutFrom (sys : Sys) (s s' : CGIManager × World) : Prop :=
  ∀ p, s'.1.outPipe = some p → s.1.outPipe = some p ∨ ∃ t, sys.pipe t = some p

instance : IsPreorder (CGIManager × World) (OutFrom sys) where
  refl _ _ := .inl
  trans := by
    intro s t u h h' p hp
    rcases h' p hp with ht | hnew
    · exact h p ht
    · exact .inr hnew

theorem outFrom_modObj {f : CGIManager → CGIManager}
    (h : ∀ c p, (f c).outPipe = some p → c.outPipe = some p ∨ ∃ t, sys.pipe t = some p) :
    Moves (OutFrom sys) (modObj f : Method CGIManager Unit) := Moves.modObj fun s => h s.1

theorem outFrom_sysTick : Moves (OutFrom sys) (sysTick : Method CGIManager Nat) := fun _ _ => .inl

theorem outFrom_execute (hasInput : Bool) : Moves (OutFrom sys) (execute sys hasInput) := by
  have hkeep {f : CGIManager → CGIManager} (h : ∀ c, (f c).outPipe = c.outPipe) :
      Moves (OutFrom sys) (modObj f : Method CGIManager Unit) := outFrom_modObj fun c p hp => .inl (h c ▸ hp)
  have hclose : Moves (OutFrom sys) (modObj fun c => { c with outPipe := none } : Method CGIManager Unit) :=
    outFrom_modObj fun c p hp => by cases hp
  refine Moves.bind ?_ fun full => moves_throwIf _ fun _ => outFrom_sysTick.bind fun t => ?_
  · rintro ⟨c, w⟩
    rw [isSpawnLimitReached_eq]
    exact fun _ => .inl
  rcases hpipe : sys.pipe t with _ | readEnd
  · exact Moves.throw _
  refine Moves.bind (outFrom_modObj fun c p hp => ?_) fun _ => Moves.obj.bind fun c => ?_
  · cases hp
    exact .inr ⟨t, hpipe⟩
  refine Moves.bind (fun _ _ => .inl) fun _ => outFrom_sysTick.bind fun t => ?_
  rcases sys.fork t with _ | pid | _
  · exact Moves.bind (outFrom_modObj fun c p hp => by cases hp) fun _ => Moves.throw _
  · exact Moves.bind (hkeep fun _ => rfl) fun _ _ _ => .inl
  · exact moves_runChild sys outFrom_sysTick (fun _ => hkeep fun _ => rfl) hclose _

end CGIManager

namespace Response

variable {sys : Sys} {r r' : Response} {w w' : World}

/-- The response waits for the script of a new pipe. -/
def Running (sys : Sys) (r : Response) : Prop :=
  r.buildPhase = .BUILD_CGI_RUNNING ∧ ∃ p t, r.getCgiOutputFd = some p ∧ sys.pipe t = some p

theorem startCgi_ok {config : ServerConf} {hasInput : Bool}
    (h : startCgi sys config hasInput (r, w) = (.ok true, r', w')) :
    ∃ p t, r'.getCgiOutputFd = some p ∧ sys.pipe t = some p := by
  rw [startCgi, Eff.tryCatch_apply] at h
  split at h
  · rename_i b s hrun
    cases h
    obtain ⟨_, s₁, hexec, hret⟩ := Eff.bind_eq_ok.1 hrun
    cases hret
    obtain ⟨t, hexec, hs⟩ := Eff.on_eq_ok.1 hexec
    obtain ⟨p, n, hp, hn⟩ := CGIManager.execute_ok hexec
    cases hs
    exact ⟨p, n, hp, hn⟩
  · rename_i e s hrun
    split at h
    · obtain ⟨_, _, -, h⟩ := Eff.bind_eq_ok.1 h
      split at h
      · obtain ⟨_, _, -, h⟩ := Eff.bind_eq_ok.1 h
        obtain ⟨_, _, -, h⟩ := Eff.bind_eq_ok.1 h
        cases h
      · cases h
    · cases h

theorem runScript_ok {loc : LocationConf} {config : ServerConf} {path : Bytes} {x x' : Exchange} {b : Bool}
    (h : runScript sys loc config path (x, w) = (.ok b, x', w')) : b = true ∨ b = false ∧ Running sys x'.2 := by
  obtain ⟨_, s₁, -, h⟩ := Eff.bind_eq_ok.1 h
  rw [Eff.obj_bind] at h
  obtain ⟨_, s₂, -, h⟩ := Eff.bind_eq_ok.1 h
  obtain ⟨started, s₃, hstart, h⟩ := Eff.bind_eq_ok.1 h
  split at h
  · rename_i htrue
    rw [htrue] at hstart
    obtain ⟨_, s₄, hphase, h⟩ := Eff.bind_eq_ok.1 h
    cases h
    cases hphase
    obtain ⟨t, hrun, rfl⟩ := Eff.on_eq_ok.1 hstart
    obtain ⟨p, n, hp, hn⟩ := startCgi_ok hrun
    exact .inr ⟨rfl, rfl, p, n, hp, hn⟩
  · cases h
    exact .inl rfl

/-- No script was started for the response. -/
structure Building (r : Response) : Prop where
  cgiInstance : r.cgiInstance = none
  phase : r.buildPhase ≠ .BUILD_CGI_RUNNING

theorem NoScript.building (h : NoScript r r') (hr : Building r) : Building r' :=
  ⟨h.cgiInstance.trans hr.cgiInstance, fun hphase => hr.phase (h.phase hphase)⟩

theorem NoScript.getCgiOutputFd_eq (h : NoScript r r') : r'.getCgiOutputFd = r.getCgiOutputFd := by
  rw [getCgiOutputFd, getCgiOutputFd, h.cgiInstance]

/-- How `buildResponse` goes on when it returns: no script was started, or the response is complete, or
its script runs. -/
def Goes (sys : Sys) (b : Bool) (r : Response) : Prop := Building r ∨ b = true ∨ b = false ∧ Running sys r

theorem goes_of_serves {m : Method Exchange Bool} (hm : Moves (Serves AnyCall) m) {x x' : Exchange} {b : Bool}
    (hx : Building x.2) (h : m (x, w) = (.ok b, x', w')) : Goes sys b x'.2 :=
  .inl ((hm.of_ok h).1.building hx)

theorem goes_handleCGI {loc : LocationConf} {config : ServerConf} {x x' : Exchange} {b : Bool}
    (hx : Building x.2) (h : handleCGI sys loc config (x, w) = (.ok b, x', w')) : Goes sys b x'.2 := by
  rw [handleCGI, Eff.obj_bind] at h
  obtain ⟨_, s₁, hcookie, h⟩ := Eff.bind_eq_ok.1 h
  cases hcookie
  have hx₁ : Building (addCookie x.1 x.2) := NoScript.building (r := x.2) ⟨rfl, id⟩ hx
  have herror (code : Bytes) := serves_errorPage (P := AnyCall) sys (fun _ => trivial) code config true
  split at h
  · exact goes_of_serves (herror _) hx₁ h
  obtain ⟨st, s₂, hstat, h⟩ := Eff.bind_eq_ok.1 h
  have hx₂ : Building s₂.1.2 :=
    ((serves_onRes (builds_of_outside (outside_sysStat (P := AnyCall) sys trivial))).of_ok hstat).1.building hx₁
  split at h
  · exact goes_of_serves (herror _) hx₂ h
  · exact .inr (runScript_ok h)

theorem serves_handleMethod (req : Request) (loc : LocationConf) (config : ServerConf) :
    Moves (Serves AnyCall) (handleMethod sys req loc config) := by
  rw [handleMethod]
  cases req.methodName with
  | GET =>
    refine (serves_onRes fun s => builds_handleGet sys (fun _ => trivial) config s.1 ?_).bind fun _ => Moves.pure _
    exact ⟨trivial, fun _ => trivial, fun _ => ⟨trivial, fun _ _ _ _ _ _ _ => trivial⟩, fun _ _ =>
      ⟨trivial, fun _ => trivial⟩⟩
  | POST => exact fun s => serves_handlePost sys (fun _ => trivial) loc config s.1 s.2 fun _ => trivial
  | DELETE =>
    have hdelete := builds_handleDelete (P := AnyCall) sys (fun _ => trivial) req loc config trivial trivial
    exact (serves_onRes hdelete).bind fun _ => Moves.pure _
  | UNKNOWN_METHOD => exact serves_errorPage sys (fun _ => trivial) _ config true

theorem goes_buildResponse {config : ServerConf} {x x' : Exchange} {b : Bool} (hx : Building x.2)
    (h : buildResponse sys config (x, w) = (.ok b, x', w')) : Goes sys b x'.2 := by
  have herror (code : Bytes) := serves_errorPage (P := AnyCall) sys (fun _ => trivial) code config true
  rw [buildResponse, Eff.obj_bind] at h
  dsimp only at h
  split at h
  · exact goes_of_serves (serves_continuePostWrite sys fun _ => trivial) hx h
  split at h
  · exact absurd ‹_› hx.phase
  obtain ⟨_, s₁, hcached, h⟩ := Eff.bind_eq_ok.1 h
  cases hcached
  have hx₁ : Building { x.2 with cachedConfig := some config } := ⟨hx.cgiInstance, hx.phase⟩
  split at h
  · exact goes_of_serves (herror _) hx₁ h
  rcases hloc : matchLocation x.1.URL config with _ | loc
  · simp only [hloc] at h
    exact goes_of_serves (herror _) hx₁ h
  simp only [hloc] at h
  split at h
  · exact goes_of_serves (herror _) hx₁ h
  split at h
  · refine goes_of_serves ?_ hx₁ h
    exact (serves_onRes (builds_buildRedirect loc)).bind fun _ => Moves.pure _
  split at h
  · exact goes_handleCGI hx₁ h
  · exact goes_of_serves (serves_handleMethod x.1 loc config) hx₁ h

theorem moves_buildResponse {R : Exchange × World → Exchange × World → Prop} [IsPreorder (Exchange × World) R]
    (hR : ∀ s s', Serves AnyCall s s' → R s s') {config : ServerConf}
    (hscript : ∀ loc path, Moves R (runScript sys loc config path)) : Moves R (buildResponse sys config) := by
  have hserves {α : Type} {m : Method Exchange α} (hm : Moves (Serves AnyCall) m) : Moves R m := hm.mono hR
  have herror (code : Bytes) := hserves (serves_errorPage sys (fun _ => trivial) code config true)
  have hkeep {f : Response → Response} (hf : ∀ r, NoScript r (f r)) : Moves R (onRes (modObj f)) :=
    hserves (serves_onRes (builds_modObj hf))
  refine Moves.obj.bind fun x => Moves.ite (fun _ => ?_) fun _ => Moves.ite (fun _ => Moves.pure _) fun _ => ?_
  · exact hserves (serves_continuePostWrite sys fun _ => trivial)
  refine Moves.bind (hkeep fun _ => ⟨rfl, id⟩) fun _ => Moves.ite (fun _ => herror _) fun _ => ?_
  rcases matchLocation x.1.URL config with _ | loc
  · exact herror _
  refine Moves.ite (fun _ => herror _) fun _ => Moves.ite (fun _ => ?_) fun _ => Moves.ite (fun _ => ?_) fun _ => ?_
  · exact hserves ((serves_onRes (builds_buildRedirect loc)).bind fun _ => Moves.pure _)
  · refine Moves.obj.bind fun x => Moves.bind (hkeep fun _ => ⟨rfl, id⟩) fun _ => Moves.ite (fun _ => herror _) fun _ => ?_
    refine (hserves (serves_onRes (builds_of_outside (outside_sysStat sys trivial)))).bind fun st => ?_
    exact Moves.ite (fun _ => herror _) fun _ => hscript loc _
  · exact hserves (serves_handleMethod x.1 loc config)

theorem acts_buildResponse (config : ServerConf) :
    Moves (OnWorld (World.Acts AnyCall)) (buildResponse sys config) :=
  moves_buildResponse (fun _ _ h => h.acts) fun loc _ => acts_runScript sys (fun _ => trivial) loc config trivial

/-! ### Where a pipe comes from -/

/-- The pipe of the script is the one there was, or a new one. -/
def PipeFrom (sys : Sys) (s s' : Response × World) : Prop :=
  ∀ p, s'.1.getCgiOutputFd = some p → s.1.getCgiOutputFd = some p ∨ ∃ t, sys.pipe t = some p

instance : IsPreorder (Response × World) (PipeFrom sys) where
  refl _ _ := .inl
  trans := by
    intro s t u h h' p hp
    rcases h' p hp with ht | hnew
    · exact h p ht
    · exact .inr hnew

theorem pipeFrom_of_noScript {s s' : Response × World} (h : NoScript s.1 s'.1) : PipeFrom sys s s' :=
  fun _ hp => .inl (h.getCgiOutputFd_eq.symm.trans hp)

theorem pipeFrom_of_builds {α : Type} {m : Method Response α} (h : Moves (Builds AnyCall) m) :
    Moves (PipeFrom sys) m := h.mono fun _ _ h => pipeFrom_of_noScript h.1

theorem pipeFrom_modObj {f : Response → Response}
    (h : ∀ r, (f r).getCgiOutputFd = r.getCgiOutputFd ∨ (f r).getCgiOutputFd = none) :
    Moves (PipeFrom sys) (modObj f : Method Response Unit) := by
  intro s p hp
  rcases h s.1 with heq | hnone
  · exact .inl (heq ▸ hp)
  · rw [Eff.modObj_apply, hnone] at hp
    cases hp

theorem pipeFrom_onRes {α : Type} {m : Method Response α} (h : Moves (PipeFrom sys) m) :
    Moves (OnPart Prod.snd (PipeFrom sys)) (onRes m) := h.onPart fun _ _ => rfl

theorem pipeFrom_of_serves {α : Type} {m : Method Exchange α} (h : Moves (Serves AnyCall) m) :
    Moves (OnPart Prod.snd (PipeFrom sys)) m := h.mono fun _ _ h => pipeFrom_of_noScript h.1

theorem pipeFrom_startCgi (config : ServerConf) (hasInput : Bool) :
    Moves (PipeFrom sys) (startCgi sys config hasInput) := by
  refine Moves.tryCatch (Moves.bind ?_ fun _ => Moves.pure _) fun e => ?_
  · refine (CGIManager.outFrom_execute hasInput).on fun s t h p hp => ?_
    rcases h p hp with hold | hnew
    · left
      rw [getCgiOutputFd]
      rcases hcgi : s.1.cgiInstance with _ | cgi
      · rw [hcgi] at hold
        cases hold
      · rw [hcgi] at hold
        exact hold
    · exact .inr hnew
  · cases e with
    | client code msg =>
      refine Moves.bind (pipeFrom_modObj fun _ => .inr rfl) fun _ => Moves.ite (fun _ => ?_) fun _ => Moves.throw _
      refine (pipeFrom_of_builds (builds_buildErrorPage sys (fun _ => trivial) _ _)).bind fun _ => ?_
      exact (pipeFrom_of_builds (builds_modObj fun _ => (sameButHeaders_addHeader _ _ _).noScript)).bind fun _ =>
        Moves.pure _
    | fatal | runtime | execed => exact Moves.throw _

theorem pipeFrom_runScript (loc : LocationConf) (config : ServerConf) (scriptPath : Bytes) :
    Moves (OnPart Prod.snd (PipeFrom sys)) (runScript sys loc config scriptPath) := by
  refine (pipeFrom_of_serves (serves_prepareCgiInput sys)).bind fun _ => Moves.obj.bind fun x => ?_
  refine Moves.bind (pipeFrom_onRes (pipeFrom_modObj fun _ => .inr rfl)) fun _ => ?_
  refine (pipeFrom_onRes (pipeFrom_startCgi config _)).bind fun started => Moves.ite (fun _ => ?_) fun _ => Moves.pure _
  exact Moves.bind (pipeFrom_onRes (pipeFrom_modObj fun _ => .inl rfl)) fun _ => Moves.pure _

theorem pipeFrom_buildResponse (config : ServerConf) :
    Moves (OnPart Prod.snd (PipeFrom sys)) (buildResponse sys config) :=
  moves_buildResponse (fun _ _ h => pipeFrom_of_noScript h.1) fun loc _ => pipeFrom_runScript loc config _

/-! ### Sending -/

/-- What sending to `fd` does. -/
def Sends (fd : Nat) (s s' : Response × World) : Prop := NoScript s.1 s'.1 ∧ World.SendsTo fd s.2 s'.2

instance (fd : Nat) : IsPreorder (Response × World) (Sends fd) where
  refl s := ⟨.refl s.1, refl_of (World.SendsTo fd) s.2⟩
  trans _ _ _ h h' := ⟨h.1.trans h'.1, trans_of (World.SendsTo fd) h.2 h'.2⟩

/-- What sending changes of a response. -/
def Sent (r r' : Response) : Prop :=
  r' = { r with
    totalBytesSent := r'.totalBytesSent, responseDataStore := r'.responseDataStore, fileFd := r'.fileFd
    streamBuf := r'.streamBuf, streamBufLen := r'.streamBufLen, streamBufSent := r'.streamBufSent
    responseState := r'.responseState }

/-- Sending to `fd` changes nothing else. -/
def SendsOnly (fd : Nat) (s s' : Response × World) : Prop :=
  Sent s.1 s'.1 ∧
    s'.2 = { s.2 with
      tick := s'.2.tick, fileCounter := s'.2.fileCounter, tmp := s'.2.tmp, sigpipe := s'.2.sigpipe
      outbox := s'.2.outbox, sends := s'.2.sends } ∧
    ∀ g, g ≠ fd → s'.2.outbox g = s.2.outbox g

instance (fd : Nat) : IsPreorder (Response × World) (SendsOnly fd) where
  refl _ := ⟨rfl, rfl, fun _ _ => rfl⟩
  trans := by
    rintro s t u ⟨h, hw, ho⟩ ⟨h', hw', ho'⟩
    rw [Sent] at h h'
    refine ⟨?_, ?_, fun g hg => (ho' g hg).trans (ho g hg)⟩
    · rw [Sent, h', h]
    · rw [hw', hw]

theorem SendsOnly.sends {fd : Nat} {s s' : Response × World} (h : SendsOnly fd s s') : Sends fd s s' := by
  obtain ⟨hr, hw, ho⟩ := h
  rw [Sent] at hr
  refine ⟨?_, ?_, ho⟩
  · rw [hr]
    exact ⟨rfl, id⟩
  · rw [hw]

/-- What sending is made of, for a relation between states. -/
structure SendRules (sys : Sys) (fd : Nat) (R : Response × World → Response × World → Prop) : Prop where
  tick : Moves R (sysTick : Method Response Nat)
  sigpipe : ∀ context, Moves R (throwIfSigpipe context : Method Response Unit)
  send : ∀ data, Moves R (sysSend sys fd data : Method Response _)
  modObj : ∀ f : Response → Response, (∀ r, Sent r (f r)) → Moves R (Eff.modObj f : Method Response Unit)
  onStore : ∀ {α : Type} {m : Method DataStore α}, Moves (OnWorld World.Local) m → Moves R (Response.onStore m)

namespace SendRules

variable {fd : Nat} {R : Response × World → Response × World → Prop}

protected theorem closeFile (h : SendRules sys fd R) : Moves R closeFile := h.modObj _ fun _ => rfl

variable [IsPreorder (Response × World) R]

protected theorem sendStreamBuf (h : SendRules sys fd R) (context : String) : Moves R (sendStreamBuf sys fd context) := by
  refine Moves.obj.bind fun r => (h.send _).bind fun sent => ?_
  refine (h.sigpipe _).bind fun _ => ?_
  rcases sent with _ | _ | k
  · exact Moves.pure _
  · exact Moves.pure _
  · refine Moves.bind (h.modObj _ fun _ => ?_) fun _ => Moves.pure _
    exact rfl

protected theorem refillFromFile (h : SendRules sys fd R) (rest : Bytes) : Moves R (refillFromFile sys rest) := by
  refine Moves.obj.bind fun r => Moves.bind (h.tick.bind fun _ => Moves.pure _) fun got => ?_
  rcases got with _ | _ | ⟨b, got⟩
  · exact Moves.pure _
  · exact Moves.pure _
  · refine Moves.bind (h.modObj _ fun _ => ?_) fun _ => Moves.pure _
    exact rfl

protected theorem sendBodyFile (h : SendRules sys fd R) (rest : Bytes) : Moves R (sendBodyFile sys fd rest) := by
  have hclose : Moves R (do closeFile; return true : Method Response Bool) := h.closeFile.bind fun _ => Moves.pure _
  have hrest (more : Bool) : Moves R (do
      if more then
        if ← sendStreamBuf sys fd "sending response body file chunk" then
          let r ← obj
          if r.totalBytesSent - r.headerBuffer.length ≥ r.fileSize then
            closeFile
            return true
          else return false
        else
          closeFile
          return true
      else
        closeFile
        return true : Method Response Bool) := by
    refine Moves.ite (fun _ => (h.sendStreamBuf _).bind fun took => ?_) fun _ => hclose
    exact Moves.ite (fun _ => Moves.obj.bind fun _ => Moves.ite (fun _ => hclose) fun _ => Moves.pure _)
      fun _ => hclose
  refine (h.sigpipe _).bind fun _ => Moves.obj.bind fun r => Moves.ite (fun _ => ?_) fun _ => ?_
  · exact (h.refillFromFile rest).bind hrest
  · exact (Moves.pure _).bind hrest

protected theorem sendBodyRam (h : SendRules sys fd R) : Moves R (sendBodyRam sys fd) := by
  refine Moves.obj.bind fun r => Moves.ite (fun _ => Moves.pure _) fun _ => ?_
  refine (h.send _).bind fun sent => (h.sigpipe _).bind fun _ => ?_
  rcases sent with _ | _ | k
  · exact Moves.pure _
  · exact Moves.pure _
  · refine Moves.bind (h.modObj _ fun _ => ?_) fun _ => Moves.pure _
    exact rfl

protected theorem sendBodyDataStore (h : SendRules sys fd R) : Moves R (sendBodyDataStore sys fd) := by
  have hrest (more : Bool) : Moves R (if more then sendStored sys fd else return true) := by
    refine Moves.ite (fun _ => (h.sendStreamBuf _).bind fun took => ?_) fun _ => Moves.pure _
    exact Moves.ite (fun _ => Moves.obj.bind fun _ => Moves.pure _) fun _ => Moves.pure _
  refine (h.sigpipe _).bind fun _ => Moves.obj.bind fun r =>
    Moves.ite (fun _ => h.sendBodyRam) fun _ => Moves.obj.bind fun r => Moves.ite (fun _ => ?_) fun _ => ?_
  · refine Moves.bind (Moves.obj.bind fun r => ?_) hrest
    refine (h.onStore (DataStore.moves_read sys _)).bind fun got => ?_
    rcases got with _ | ⟨b, got⟩
    · exact Moves.pure _
    · refine Moves.bind (h.modObj _ fun _ => ?_) fun _ => Moves.pure _
      exact rfl
  · exact (Moves.pure _).bind hrest

protected theorem sendBodyStatic (h : SendRules sys fd R) : Moves R (sendBodyStatic sys fd) := by
  refine Moves.obj.bind fun r => ?_
  rcases r.fileFd with _ | rest
  · exact (h.onStore (DataStore.moves_resetReadPosition sys)).bind fun _ => h.sendBodyDataStore
  · exact h.sendBodyFile rest

protected theorem sendSlice (h : SendRules sys fd R) : Moves R (sendSlice sys fd) := by
  refine Moves.obj.bind fun r => ?_
  rcases r.responseState with _ | _ | _
  · refine (h.sigpipe _).bind fun _ => Moves.obj.bind fun r => ?_
    refine (h.send _).bind fun sent => (h.sigpipe _).bind fun _ => ?_
    rcases sent with _ | _ | k
    · exact Moves.pure _
    · exact Moves.pure _
    · refine Moves.bind (h.modObj _ fun _ => rfl) fun _ => Moves.obj.bind fun r => ?_
      refine Moves.ite (fun _ => Moves.pure _) fun _ => Moves.ite (fun _ => Moves.pure _) fun _ => ?_
      exact Moves.bind (h.modObj _ fun _ => rfl) fun _ => h.sendBodyStatic
  · exact h.sendBodyStatic
  · exact Moves.pure _

end SendRules

theorem sendsOnly_rules (sys : Sys) (fd : Nat) : SendRules sys fd (SendsOnly fd) where
  tick _ := ⟨rfl, rfl, fun _ _ => rfl⟩
  sigpipe context := by
    refine Moves.world.bind fun w => Moves.ite (fun _ => ?_) fun _ => Moves.pure _
    exact Moves.bind (fun _ => ⟨rfl, rfl, fun _ _ => rfl⟩) fun _ => Moves.throw _
  send data := by
    refine Moves.bind (fun _ => ⟨rfl, rfl, fun _ _ => rfl⟩) fun t => ?_
    refine Moves.bind (fun _ => ⟨rfl, rfl, fun _ _ => rfl⟩) fun _ => ?_
    rcases sys.send t data.length with k | _ | _ | _
    · refine Moves.bind ?_ fun _ => Moves.pure _
      exact fun s => ⟨rfl, rfl, fun g hg => Function.update_of_ne hg _ _⟩
    · exact Moves.pure _
    · refine Moves.bind ?_ fun _ => Moves.pure _
      exact fun s => ⟨rfl, rfl, fun _ _ => rfl⟩
    · exact Moves.pure _
  modObj f h := Moves.modObj fun s => ⟨h s.1, rfl, fun _ _ => rfl⟩
  onStore h := by
    refine h.on fun s t h => ⟨rfl, ?_⟩
    have hw : t.2 = _ := h
    rw [hw]
    exact ⟨rfl, fun _ _ => rfl⟩

section Sends

variable (sys) (fd : Nat)

theorem sendsOnly_sendSlice : Moves (SendsOnly fd) (sendSlice sys fd) := (sendsOnly_rules sys fd).sendSlice

theorem sends_sendSlice : Moves (Sends fd) (sendSlice sys fd) :=
  (sendsOnly_sendSlice sys fd).mono fun _ _ h => h.sends

end Sends

/-! ### The output of a script -/

/-- The pipe of the script stays as it is. -/
def KeepsPipe (s s' : Response × World) : Prop :=
  s'.1.getCgiOutputFd = s.1.getCgiOutputFd ∧ World.Offline s.2 s'.2

instance : IsPreorder (Response × World) KeepsPipe where
  refl s := ⟨rfl, refl_of World.Offline s.2⟩
  trans _ _ _ h h' := ⟨h'.1.trans h.1, trans_of World.Offline h.2 h'.2⟩

/-- The pipe of the script stays as it is, or is closed. -/
def MayClose (s s' : Response × World) : Prop :=
  (s'.1.getCgiOutputFd = s.1.getCgiOutputFd ∨ s'.1.getCgiOutputFd = none) ∧ World.Offline s.2 s'.2

instance : IsPreorder (Response × World) MayClose where
  refl s := ⟨.inl rfl, refl_of World.Offline s.2⟩
  trans := by
    rintro s t u ⟨h, hw⟩ ⟨h', hw'⟩
    refine ⟨h'.elim (fun h' => ?_) .inr, trans_of World.Offline hw hw'⟩
    rw [h']
    exact h

theorem keepsPipe_of_builds {α : Type} {m : Method Response α} (h : Moves (Builds AnyCall) m) :
    Moves KeepsPipe m := h.mono fun _ _ h => ⟨h.1.getCgiOutputFd_eq, h.2.offline⟩

theorem KeepsPipe.mayClose {s s' : Response × World} (h : KeepsPipe s s') : MayClose s s' := ⟨.inl h.1, h.2⟩

theorem mayClose_of_builds {α : Type} {m : Method Response α} (h : Moves (Builds AnyCall) m) :
    Moves MayClose m := (keepsPipe_of_builds h).mono fun _ _ h => h.mayClose

theorem mayClose_modObj {f : Response → Response}
    (h : ∀ r, (f r).getCgiOutputFd = r.getCgiOutputFd ∨ (f r).getCgiOutputFd = none) :
    Moves MayClose (modObj f : Method Response Unit) :=
  Moves.modObj fun s => ⟨h s.1, refl_of World.Offline s.2⟩

section Output

variable (sys)

/-- A poll that finds the child gone forgets its number only. -/
theorem keepsPipe_isCgiDone : Moves KeepsPipe (readCgiOutput.isCgiDone sys) := by
  rintro ⟨r, w⟩
  rw [KeepsPipe, getCgiOutputFd, getCgiOutputFd, readCgiOutput.isCgiDone, Eff.on_apply, CGIManager.isDone]
  have hpipe : (r.cgiInstance.getD {}).outPipe = r.cgiInstance.bind CGIManager.outPipe := by
    cases r.cgiInstance <;> rfl
  simp only [Eff.obj_bind, Option.bind_some]
  rcases (r.cgiInstance.getD {}).pId with _ | pid
  · exact ⟨hpipe, rfl, rfl⟩
  simp only [sysTick_bind]
  split
  · exact ⟨hpipe, rfl, rfl⟩
  · exact ⟨hpipe, rfl, rfl⟩

theorem keepsPipe_readCgiOutput (got : Option Bytes) : Moves KeepsPipe (readCgiOutput sys got) := by
  refine Moves.obj.bind fun r => ?_
  rcases r.cgiInstance with _ | cgi
  · exact Moves.pure _
  refine Moves.ite (fun _ => Moves.pure _) fun _ => ?_
  have hdone : Moves KeepsPipe (do let _ ← readCgiOutput.isCgiDone sys; return true : Method Response Bool) :=
    (keepsPipe_isCgiDone sys).bind fun _ => Moves.pure _
  rcases got with _ | _ | ⟨b, data⟩
  · exact hdone
  · exact hdone
  · exact (keepsPipe_of_builds (builds_onStore (DataStore.moves_append sys _))).bind fun _ => keepsPipe_isCgiDone sys

theorem mayClose_cgiTimeout (config : ServerConf) : Moves MayClose (cgiTimeout sys config) := by
  refine Moves.obj.bind fun r => ?_
  have hpage : Moves MayClose (do
      modObj fun r => { r with buildPhase := .BUILD_DONE }
      buildErrorPage sys (ascii "504") config : Method Response Unit) :=
    Moves.bind (mayClose_modObj fun _ => .inl rfl) fun _ =>
      mayClose_of_builds (builds_buildErrorPage sys (fun _ => trivial) _ _)
  have hforget : Moves MayClose (do
      modObj fun r => { r with cgiInstance := none }
      modObj fun r => { r with buildPhase := .BUILD_DONE }
      buildErrorPage sys (ascii "504") config : Method Response Unit) :=
    Moves.bind (mayClose_modObj fun _ => .inr rfl) fun _ => hpage
  rcases r.cgiInstance with _ | cgi
  · exact hpage
  simp only
  rcases cgi.pId with _ | pid
  · exact hforget
  refine Moves.bind ?_ fun _ => Moves.bind ?_ fun _ => hforget
  · exact fun s => ⟨.inl rfl, rfl, rfl⟩
  · exact (keepsPipe_isCgiDone sys).mono fun _ _ h => h.mayClose

/-- One turn of the loop. -/
theorem drainLoop_eq (s : DataStore × World) :
    drainLoop sys s = (DataStore.read sys RESPONSE_SEND_CHUNK >>= fun got =>
      if got = [] then return []
      else do return got ++ (← drainLoop sys)) s := by
  conv_lhs => unfold drainLoop
  rw [Eff.bind_apply]
  rcases DataStore.read sys RESPONSE_SEND_CHUNK s with ⟨e | _ | ⟨b, got⟩, s'⟩
  · rfl
  · rfl
  · simp only [List.cons_ne_nil, if_false]
    rcases hrest : drainLoop sys s' with ⟨e | rest, s''⟩
    · exact (Eff.bind_error hrest).symm
    · exact (Eff.bind_ok (f := fun rest => pure (b :: got ++ rest)) hrest).symm

theorem moves_drainDataStore : Moves (OnWorld World.Local) (drainDataStore sys) := by
  have hread := DataStore.moves_read sys RESPONSE_SEND_CHUNK
  refine (DataStore.moves_resetReadPosition sys).bind fun _ s => ?_
  induction s using drainLoop.induct sys with
  | case1 s e s' h =>
    rw [drainLoop_eq, Eff.bind_error h]
    exact hread.of_error h
  | case2 s s' h =>
    rw [drainLoop_eq, Eff.bind_ok h]
    exact hread.of_ok h
  | case3 s b got s' h rest s'' hrest ih =>
    rw [hrest] at ih
    rw [drainLoop_eq, Eff.bind_ok h, if_neg (List.cons_ne_nil b got), Eff.bind_ok hrest]
    exact trans_of (OnWorld World.Local) (hread.of_ok h) ih
  | case4 s b got s' h e s'' hrest ih =>
    rw [hrest] at ih
    rw [drainLoop_eq, Eff.bind_ok h, if_neg (List.cons_ne_nil b got), Eff.bind_error hrest]
    exact trans_of (OnWorld World.Local) (hread.of_ok h) ih

/-- The headers of a script change the status and the headers only. -/
def Said (r r' : Response) : Prop :=
  r' = { r with
    statusCode := r'.statusCode, responsePhrase := r'.responsePhrase
    headers := r'.headers, setCookies := r'.setCookies, headerBuffer := r'.headerBuffer }

theorem Said.trans {r r' r'' : Response} (h : Said r r') (h' : Said r' r'') : Said r r'' := by
  rw [Said] at h h' ⊢
  rw [h', h]

theorem Said.noScript {r r' : Response} (h : Said r r') : NoScript r r' := by
  rw [Said] at h
  rw [h]
  exact ⟨rfl, id⟩

theorem said_addHeader (key value : Bytes) (r : Response) : Said r (addHeader key value r) := by
  have hadd := sameButHeaders_addHeader key value r
  rw [SameButHeaders] at hadd
  rw [Said, hadd]

theorem said_cgiStatus (value : Bytes) (r : Response) : Said r (cgiStatus value r) := by
  unfold cgiStatus
  split
  · rfl
  · rfl

theorem said_parseCgiHeaderLine (line contentType : Bytes) (r : Response) :
    Said r (parseCgiHeaderLine line contentType r).2.2 := by
  unfold parseCgiHeaderLine
  simp only
  generalize (if line.getLast? = some CR then line.dropLast else line) = l
  split
  · rfl
  split
  · rfl
  rename_i colonPos _
  generalize (if (l.drop (colonPos + 1)).dropWhile isBlank = [] then l.drop (colonPos + 1)
    else (l.drop (colonPos + 1)).dropWhile isBlank) = value
  split_ifs
  · rfl
  · exact said_cgiStatus _ r
  · exact said_addHeader _ _ r
  · exact said_addHeader _ _ r
  · rfl

theorem said_parseCgiHeaders (headerBlock : Bytes) (r : Response) : Said r (parseCgiHeaders headerBlock r).2 := by
  have hlines (lines : List Bytes) (contentType : Bytes) (r : Response) :
      Said r (parseCgiHeaderLines lines contentType r).2 := by
    induction lines generalizing contentType r with
    | nil => rfl
    | cons line lines ih =>
      have hline := said_parseCgiHeaderLine line contentType r
      rw [parseCgiHeaderLines]
      rcases hrun : parseCgiHeaderLine line contentType r with ⟨_ | _, contentType', r'⟩ <;> rw [hrun] at hline
      · exact hline
      · exact hline.trans (ih contentType' r')
  have hstart : Said r { r with statusCode := ascii "200", responsePhrase := ascii "OK" } := rfl
  unfold parseCgiHeaders
  simp only
  split
  · exact hstart
  · exact hstart.trans (hlines _ _ _)

theorem mayClose_badGateway : Moves MayClose (badGateway sys) := by
  refine Moves.obj.bind fun r => ?_
  rcases r.cachedConfig with _ | config
  · exact Moves.bind (mayClose_modObj fun _ => .inl rfl) fun _ => mayClose_modObj fun _ => .inr rfl
  · exact Moves.bind (mayClose_of_builds (builds_buildErrorPage sys (fun _ => trivial) _ _)) fun _ =>
      mayClose_modObj fun _ => .inr rfl

theorem mayClose_finalizeCgiResponse : Moves MayClose (finalizeCgiResponse sys) := by
  have hstore {α : Type} {m : Method DataStore α} (h : Moves (OnWorld World.Local) m) : Moves MayClose (onStore m) :=
    mayClose_of_builds (builds_onStore h)
  refine Moves.bind (mayClose_modObj fun _ => .inl rfl) fun _ => ?_
  refine (hstore (moves_drainDataStore sys)).bind fun cgiOutput => ?_
  refine Moves.ite (fun _ => mayClose_badGateway sys) fun _ => Moves.ite (fun _ => mayClose_badGateway sys) fun _ => ?_
  refine Moves.obj_bind fun s => Eff.bind_along ?_ fun _ => ?_
  · exact ⟨.inl (said_parseCgiHeaders _ s.1).noScript.getCgiOutputFd_eq, refl_of World.Offline s.2⟩
  rcases (parseCgiHeaders _ s.1).1 with _ | contentType
  · exact mayClose_badGateway sys
  refine (hstore DataStore.moves_clear).bind fun _ => (hstore (DataStore.moves_append sys _)).bind fun _ => ?_
  refine (mayClose_of_builds (builds_finalizeSuccess sys _)).bind fun _ => ?_
  exact mayClose_modObj fun _ => .inr rfl

end Output

end Response

end LeftHookRoll
