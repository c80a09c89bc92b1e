import LeftHookRoll.Connection
import LeftHookRoll.SendHead

/-!
# What the methods of a connection change, and the states they lead to

`Steady`: every method but `process` keeps the client, starts no script and does not make the connection
wait for one. `process` leaves a connection waiting if and only if it has started a script
(`process_ok`).
-/

namespace LeftHookRoll

open Eff

namespace Request

variable (sys : Sys)

theorem moves_decodeLoop (buf : Bytes) (hlen : buf.length < 2 ^ 63) :
    Moves (OnWorld World.Local) (decodeLoop sys buf hlen) := by
  induction hn : buf.length using Nat.strong_induction_on generalizing buf with
  | _ n ih =>
    subst hn
    rcases hnext : nextChunk buf with _ | _ | _ | rest | ⟨data, rest⟩
    · rw [decodeLoop_wait sys hnext]
      exact Moves.pure _
    · rw [decodeLoop_outOfRange sys hnext]
      exact Moves.throw _
    · rw [decodeLoop_malformed sys hnext]
      exact (Moves.modObj_onWorld _ _).bind fun _ => Moves.pure _
    · rw [decodeLoop_last sys hnext]
      exact (Moves.modObj_onWorld _ _).bind fun _ => Moves.pure _
    · rw [decodeLoop_chunk sys hnext]
      refine (DataStore.moves_append sys data).onWorld.bind fun _ => Moves.obj.bind fun r => Moves.ite (fun _ => ?_) fun _ => ?_
      · exact (Moves.modObj_onWorld _ _).bind fun _ => Moves.pure _
      · exact (Moves.modObj_onWorld _ _).bind fun _ => ih _ (length_lt_of_nextChunk hlen hnext) rest _ rfl

theorem moves_processBodySlice : Moves (OnWorld World.Local) (processBodySlice sys) := by
  refine Moves.obj.bind fun r => Moves.ite (fun _ => Moves.pure _) fun _ => ?_
  refine (DataStore.moves_read sys _).onWorld.bind fun got => (Moves.modObj_onWorld _ _).bind fun _ => ?_
  split
  swap
  · exact Moves.throw _
  refine (Moves.modObj_onWorld _ _).bind fun _ => (moves_decodeLoop sys _ _).bind fun done => ?_
  refine Moves.ite (fun _ => Moves.pure _) fun _ => Moves.obj.bind fun r => Moves.ite (fun _ => ?_) fun _ => Moves.pure _
  refine (DataStore.moves_assign sys _).onWorld.bind fun _ => (Moves.modObj_onWorld _ _).bind fun _ => ?_
  refine (DataStore.moves_resetReadPosition sys).onWorld.bind fun _ => ?_
  exact (Moves.modObj_onWorld _ _).bind fun _ => Moves.pure _

end Request

namespace Connection

open Response

/-- What no method changes. -/
structure SameClient (c c' : Connection) : Prop where
  acceptFD : c'.acceptFD = c.acceptFD
  serverConf : c'.serverConf = c.serverConf

theorem SameClient.refl (c : Connection) : SameClient c c := ⟨rfl, rfl⟩

theorem SameClient.trans {c c' c'' : Connection} (h : SameClient c c') (h' : SameClient c' c'') :
    SameClient c c'' := ⟨h'.acceptFD.trans h.acceptFD, h'.serverConf.trans h.serverConf⟩

/-- What every method but `process` does: no script is started and the connection does not come to wait
for one. -/
structure Steady (Q : World → World → Prop) (s s' : Connection × World) : Prop where
  client : SameClient s.1 s'.1
  response : NoScript s.1.response s'.1.response
  waits : s'.1.state = .WAITING_FOR_CGI → s.1.state = .WAITING_FOR_CGI
  world : Q s.2 s'.2

instance (Q : World → World → Prop) [IsPreorder World Q] : IsPreorder (Connection × World) (Steady Q) where
  refl s := ⟨.refl s.1, .refl s.1.response, id, refl_of Q s.2⟩
  trans _ _ _ h h' := ⟨h.client.trans h'.client, h.response.trans h'.response, h.waits ∘ h'.waits,
    trans_of Q h.world h'.world⟩

theorem Steady.getCgiPipeFd_eq {Q : World → World → Prop} {s s' : Connection × World} (h : Steady Q s s') :
    s'.1.getCgiPipeFd = s.1.getCgiPipeFd := h.response.getCgiOutputFd_eq

theorem Steady.toSends {s s' : Connection × World} (h : Steady World.Offline s s') (fd : Nat) :
    Steady (World.SendsTo fd) s s' := ⟨h.client, h.response, h.waits, h.world.sendsTo fd⟩

section Steady

variable (sys : Sys)

theorem steady_modObj {f : Connection → Connection} (h : ∀ c, SameClient c (f c))
    (hr : ∀ c, (f c).response = c.response) (hs : ∀ c, (f c).state = .WAITING_FOR_CGI → c.state = .WAITING_FOR_CGI) :
    Moves (Steady World.Offline) (modObj f : Method Connection Unit) :=
  Moves.modObj fun s => ⟨h s.1, by rw [hr]; exact .refl _, hs s.1, refl_of World.Offline s.2⟩

theorem steady_setState {state : ConnectionState} (h : state ≠ .WAITING_FOR_CGI) :
    Moves (Steady World.Offline) (modObj (setState state) : Method Connection Unit) :=
  steady_modObj (fun _ => ⟨rfl, rfl⟩) (fun _ => rfl) fun _ hs => absurd hs h

theorem steady_onResponse {α : Type} {m : Method Response α} (h : Moves (Builds AnyCall) m) :
    Moves (Steady World.Offline) (onResponse m) :=
  h.on fun _ _ h => ⟨⟨rfl, rfl⟩, h.1, id, h.2.offline⟩

theorem steady_onBody {α : Type} {m : Method DataStore α} (h : Moves (OnWorld World.Local) m) :
    Moves (Steady World.Offline) (onBody m) :=
  Moves.on (h.onWorld : Moves (OnWorld World.Local) (Request.onBody m)) fun s _ h =>
    ⟨⟨rfl, rfl⟩, .refl s.1.response, id, World.Local.offline h⟩

theorem steady_updateActivityTimer : Moves (Steady World.Offline) updateActivityTimer :=
  Moves.world.bind fun _ => steady_modObj (fun _ => ⟨rfl, rfl⟩) (fun _ => rfl) fun _ => id

theorem steady_triggerError (code : Int) : Moves (Steady World.Offline) (triggerError sys code) := by
  have hend : Moves (Steady World.Offline) (modObj (setState .WRITING) : Method Connection Unit) :=
    steady_setState (by decide)
  refine Moves.obj.bind fun c => ?_
  rcases c.serverConf with _ | conf
  · refine Moves.bind (steady_onResponse (builds_modObj fun _ => ?_)) fun _ => hend
    exact ⟨rfl, id⟩
  · exact (steady_onResponse (builds_buildErrorPage sys (fun _ => trivial) _ conf)).bind fun _ => hend

theorem steady_onException (e : Exn) : Moves (Steady World.Offline) (onException sys e) := by
  cases e with
  | client code _ => exact steady_triggerError sys code
  | runtime _ => exact steady_triggerError sys 500
  | fatal | execed => exact Moves.throw _

theorem steady_takeLeftover (leftover : Bytes) : Moves (Steady World.Offline) (takeLeftover sys leftover) := by
  have hdone : Moves (Steady World.Offline) (modObj (setState .PROCESSING) : Method Connection Unit) :=
    steady_setState (by decide)
  refine Moves.ite (fun _ => Moves.pure _) fun _ => (steady_onBody (DataStore.moves_append sys _)).bind fun _ => ?_
  exact Moves.obj.bind fun c => Moves.ite (fun _ => hdone) fun _ => Moves.ite (fun _ => hdone) fun _ => Moves.pure _

theorem steady_readHeaders (buf : Bytes) : Moves (Steady World.Offline) (readHeaders sys buf) := by
  have hset {f : Connection → Connection} (h : ∀ c, SameClient c (f c)) (hr : ∀ c, (f c).response = c.response)
      (hs : ∀ c, (f c).state = c.state) : Moves (Steady World.Offline) (modObj f : Method Connection Unit) :=
    steady_modObj h hr fun c hw => (hs c).symm.trans hw
  refine Moves.bind (hset (fun _ => ⟨rfl, rfl⟩) (fun _ => rfl) fun _ => rfl) fun _ => Moves.obj.bind fun c => ?_
  refine Moves.ite (fun _ => steady_triggerError sys _) fun _ => Moves.obj.bind fun c' => ?_
  refine Moves.bind (hset (fun _ => ⟨rfl, rfl⟩) (fun _ => rfl) fun _ => rfl) fun _ => ?_
  have hleft : Moves (Steady World.Offline) (do
      modObj fun c => { c with readBuffer := [] }
      takeLeftover sys (c.readBuffer.drop (Request.parseHeaders c.readBuffer c'.request).1)
      : Method Connection Unit) :=
    Moves.bind (hset (fun _ => ⟨rfl, rfl⟩) (fun _ => rfl) fun _ => rfl) fun _ => steady_takeLeftover sys _
  rcases (Request.parseHeaders c.readBuffer c'.request).2.reqState with _ | _ | _ | _ | _
  · exact Moves.pure _
  · exact hleft
  · exact hleft
  · exact steady_modObj (fun _ => ⟨rfl, rfl⟩) (fun _ => rfl) fun _ h => by cases h
  · exact steady_triggerError sys _

theorem steady_handleRead (recv : RecvResult) : Moves (Steady World.Offline) (handleRead sys recv) := by
  have happend (buf : Bytes) : Moves (Steady World.Offline) (onBody (DataStore.append sys buf)) :=
    steady_onBody (DataStore.moves_append sys buf)
  have hdone : Moves (Steady World.Offline) (modObj (setState .PROCESSING) : Method Connection Unit) :=
    steady_setState (by decide)
  refine Moves.obj.bind fun c => Moves.ite (fun _ => Moves.pure _) fun _ => ?_
  rcases recv with _ | _ | ⟨b, data⟩
  · exact steady_setState (by decide)
  · exact steady_setState (by decide)
  refine steady_updateActivityTimer.bind fun _ => Moves.bind ?_ fun _ => Moves.obj.bind fun c => ?_
  · exact steady_modObj (fun _ => ⟨rfl, rfl⟩) (fun _ => rfl) fun _ => id
  rcases c.request.reqState with _ | _ | _ | _ | _
  · exact steady_readHeaders sys _
  · exact (happend _).bind fun _ => Moves.obj.bind fun _ => Moves.ite (fun _ => hdone) fun _ => Moves.pure _
  · exact (happend _).bind fun _ => Moves.ite (fun _ => hdone) fun _ => Moves.pure _
  · exact Moves.pure _
  · exact Moves.pure _

variable {sys} in
theorem handleWrite_eq {c : Connection} (h : c.state = .WRITING) (w : World) : handleWrite sys (c, w) =
    (onResponse (Response.sendSlice sys c.acceptFD) >>= fun done =>
      if done then modObj (setState .FINISHED) else return ()) ({ c with lastActivity := w.now }, w) := by
  rw [handleWrite, Eff.obj_bind, if_neg (not_not.2 h)]
  rfl

theorem steady_handleWrite (s : Connection × World) :
    Steady (World.SendsTo s.1.acceptFD) s (handleWrite sys s).2 := by
  obtain ⟨c, w⟩ := s
  by_cases hs : c.state = .WRITING
  swap
  · rw [handleWrite, Eff.obj_bind, if_pos hs]
    exact refl_of (Steady _) (c, w)
  have hsend : Moves (Steady (World.SendsTo c.acceptFD)) (onResponse (Response.sendSlice sys c.acceptFD)) :=
    (sends_sendSlice sys c.acceptFD).on fun _ _ h => ⟨⟨rfl, rfl⟩, h.1, id, h.2⟩
  have hstart : Steady (World.SendsTo c.acceptFD) (c, w) ({ c with lastActivity := w.now }, w) :=
    ⟨⟨rfl, rfl⟩, .refl c.response, id, refl_of (World.SendsTo _) w⟩
  rw [handleWrite_eq hs]
  refine trans_of (Steady _) hstart (hsend.bind (fun done => Moves.ite (fun _ => ?_) fun _ => Moves.pure _) _)
  exact (steady_setState (by decide)).mono fun _ _ h => h.toSends _

end Steady

/-! ### An answer that is still to be sent -/

/-- A connection with an answer none of which is sent. -/
structure Unsent (c : Connection) : Prop where
  state : c.state = .WRITING
  head : c.response.responseState = .SENDING_RES_HEAD

/-- The header block is not passed over. -/
def KeepsHead : Connection × World → Connection × World → Prop := fun s s' =>
  Response.AtHead (s.1.response, s.2) (s'.1.response, s'.2)

instance : IsPreorder (Connection × World) KeepsHead where
  refl _ := id
  trans _ _ _ h h' := h' ∘ h

section Unsent

variable {sys : Sys} {c c' : Connection} {w w' : World}

theorem keepsHead_onResponse {α : Type} {m : Method Response α} (h : Moves Response.AtHead m) : Moves KeepsHead (onResponse m) :=
  h.on fun _ _ h => h

theorem keepsHead_triggerError (sys : Sys) (code : Int) : Moves KeepsHead (triggerError sys code) := by
  have hset : Moves KeepsHead (modObj (setState .WRITING) : Method Connection Unit) := fun _ => id
  refine Moves.obj.bind fun c => ?_
  rcases c.serverConf with _ | conf
  · exact Moves.bind (keepsHead_onResponse (Response.atHead_modObj fun _ h => h)) fun _ => hset
  · exact Moves.bind (keepsHead_onResponse (Response.atHead_buildErrorPage sys _ conf)) fun _ => hset

theorem keepsHead_onException (sys : Sys) (e : Exn) : Moves KeepsHead (onException sys e) := by
  cases e with
  | client code _ => exact keepsHead_triggerError sys code
  | runtime _ => exact keepsHead_triggerError sys 500
  | fatal | execed => exact Moves.throw _

/-- With a configuration the error page takes the place of what was sent. -/
theorem triggerError_unsent {code : Int} (hconf : c.serverConf ≠ none) (h : triggerError sys code (c, w) = (.ok (), c', w')) :
    Unsent c' := by
  refine ⟨triggerError_ok h, ?_⟩
  obtain ⟨conf, hconf⟩ := Option.ne_none_iff_exists'.1 hconf
  rw [triggerError, Eff.obj_bind, hconf] at h
  obtain ⟨_, s, hpage, h⟩ := Eff.bind_eq_ok.1 h
  cases h
  obtain ⟨t, hrun, rfl⟩ := Eff.on_eq_ok.1 hpage
  exact Response.buildErrorPage_head sys hrun

/-- While the peer is gone, `handleWrite` raises an exception and leaves the answer as it is. -/
theorem handleWrite_broken (hc : Unsent c) (h : Response.Broken sys c.response w) :
    ∃ w', handleWrite sys (c, w) = (.error (.client 502 "SIGPIPE while sending response header"), { c with lastActivity := w.now }, w') ∧
      w'.outbox = w.outbox := by
  obtain ⟨w', hsend, hout⟩ := Response.sendSlice_broken hc.head h c.acceptFD
  refine ⟨w', ?_, hout⟩
  rw [handleWrite_eq hc.state]
  exact Eff.bind_error (Eff.on_eq hsend)

/-- While the peer is there, the answer is over or the socket gets bytes of it. -/
theorem handleWrite_unbroken (hc : Unsent c) (h : ¬ Response.Broken sys c.response w) :
    (∃ c' w', handleWrite sys (c, w) = (.ok (), c', w') ∧ c'.state = .FINISHED ∧ c'.acceptFD = c.acceptFD) ∨
      (handleWrite sys (c, w)).2.2.outbox c.acceptFD ≠ w.outbox c.acceptFD := by
  rw [handleWrite_eq hc.state]
  rcases Response.sendSlice_unbroken hc.head h c.acceptFD with ⟨r', w', hsend⟩ | hbytes
  · refine .inl ⟨setState .FINISHED { c with lastActivity := w.now, response := r' }, w', ?_, rfl, rfl⟩
    exact (Eff.bind_ok (Eff.on_eq hsend)).trans rfl
  · right
    rcases hsend : Response.sendSlice sys c.acceptFD (c.response, w) with ⟨x, r', w'⟩
    have hon : onResponse (Response.sendSlice sys c.acceptFD) ({ c with lastActivity := w.now }, w) =
        (x, { c with lastActivity := w.now, response := r' }, w') := Eff.on_eq hsend
    rw [hsend] at hbytes
    rcases x with e | done
    · rw [Eff.bind_error hon]
      exact hbytes
    · rw [Eff.bind_ok hon]
      cases done <;> exact hbytes

end Unsent

/-! ### The states that a method leads to -/

section States

variable {sys : Sys} {c c' : Connection} {w w' : World}

theorem onException_ok {e : Exn} (h : onException sys e (c, w) = (.ok (), c', w')) : c'.state = .WRITING := by
  cases e with
  | client code _ => exact triggerError_ok h
  | runtime _ => exact triggerError_ok h
  | fatal | execed => cases h

theorem handleWrite_ok (hs : c.state = .WRITING) (h : handleWrite sys (c, w) = (.ok (), c', w')) :
    c'.state = .WRITING ∨ c'.state = .FINISHED := by
  rw [handleWrite_eq hs] at h
  obtain ⟨done, s, hsend, h⟩ := Eff.bind_eq_ok.1 h
  obtain ⟨t, -, rfl⟩ := Eff.on_eq_ok.1 hsend
  split at h
  · cases h
    exact .inr rfl
  · cases h
    exact .inl hs

/-- A connection that `process` leaves waiting has the read end of a new pipe, and its timer is that of
the start. -/
structure Waits (sys : Sys) (now : Nat) (c : Connection) : Prop where
  state : c.state = .WAITING_FOR_CGI
  lastActivity : c.lastActivity = now
  pipe : ∃ p t, c.getCgiPipeFd = some p ∧ sys.pipe t = some p

/-- `processBody` once the body is decoded. -/
def respond (sys : Sys) : Method Connection Unit := do
  let c ← obj
  if c.request.statusCode ≠ ascii "200" then triggerError sys (atoi c.request.statusCode)
  else
    match c.serverConf with
    | none => triggerError sys 500
    | some conf =>
      if ← onExchange (Response.buildResponse sys conf) then modObj (setState .WRITING)
      else if (← obj).response.buildPhase = .BUILD_CGI_RUNNING then
        modObj (setState .WAITING_FOR_CGI)

theorem processBody_eq (sys : Sys) : processBody sys = (do
    let decoded ←
      if (← obj).request.reqState = .REQ_CHUNKED then onRequest (Request.processBodySlice sys)
      else pure true
    if ¬ decoded then return () else respond sys) := rfl

theorem respond_ok (hs : c.state = .PROCESSING) (hb : Building c.response)
    (h : respond sys (c, w) = (.ok (), c', w')) :
    (c'.state = .PROCESSING ∧ Building c'.response) ∨ c'.state = .WRITING ∨ Waits sys c.lastActivity c' := by
  rw [respond, Eff.obj_bind] at h
  split at h
  · exact .inr (.inl (triggerError_ok h))
  rcases hconf : c.serverConf with _ | conf <;> simp only [hconf] at h
  · exact .inr (.inl (triggerError_ok h))
  obtain ⟨complete, s, hon, h⟩ := Eff.bind_eq_ok.1 h
  obtain ⟨⟨x, w₁⟩, hbuild, rfl⟩ := Eff.on_eq_ok.1 hon
  have hgoes := goes_buildResponse (x := (c.request, c.response)) hb hbuild
  split at h
  · cases h
    exact .inr (.inl rfl)
  rename_i hincomplete
  rw [Eff.obj_bind] at h
  split at h
  · rename_i hphase
    cases h
    rcases hgoes with hbuilding | htrue | ⟨-, hrunning⟩
    · exact absurd hphase hbuilding.phase
    · exact absurd htrue hincomplete
    · exact .inr (.inr ⟨rfl, rfl, hrunning.2⟩)
  · rename_i hphase
    cases h
    rcases hgoes with hbuilding | htrue | ⟨-, hrunning⟩
    · exact .inl ⟨hs, hbuilding⟩
    · exact absurd htrue hincomplete
    · exact absurd hrunning.1 hphase

theorem processBody_ok (hs : c.state = .PROCESSING) (hb : Building c.response)
    (h : processBody sys (c, w) = (.ok (), c', w')) :
    (c'.state = .PROCESSING ∧ Building c'.response) ∨ c'.state = .WRITING ∨ Waits sys c.lastActivity c' := by
  have hrest {decoded : Bool} {s : Connection × World}
      (h : (if ¬ decoded then return () else respond sys : Method Connection Unit) s = (.ok (), c', w'))
      (hs : s.1.state = .PROCESSING) (hb : Building s.1.response) :
      (c'.state = .PROCESSING ∧ Building c'.response) ∨ c'.state = .WRITING ∨ Waits sys s.1.lastActivity c' := by
    split at h
    · cases h
      exact .inl ⟨hs, hb⟩
    · exact respond_ok hs hb h
  rw [processBody_eq, Eff.obj_bind] at h
  split at h
  · obtain ⟨decoded, s, hdecode, h⟩ := Eff.bind_eq_ok.1 h
    obtain ⟨t, -, rfl⟩ := Eff.on_eq_ok.1 hdecode
    exact hrest h hs hb
  · exact hrest h hs hb

theorem process_idle (h : c.state ≠ .PROCESSING) (w : World) : process sys (c, w) = (.ok (), c, w) := by
  rw [process, Eff.obj_bind, if_pos h]
  rfl

theorem process_eq (h : c.state = .PROCESSING) (w : World) : process sys (c, w) =
    (tryCatch (processBody sys) (onException sys) : Method Connection Unit) ({ c with lastActivity := w.now }, w) := by
  rw [process, Eff.obj_bind, if_neg (not_not.2 h)]
  rfl

theorem process_ok (hs : c.state = .PROCESSING) (hb : Building c.response)
    (h : process sys (c, w) = (.ok (), c', w')) :
    (c'.state = .PROCESSING ∧ Building c'.response) ∨ c'.state = .WRITING ∨ Waits sys w.now c' := by
  rw [process_eq hs, Eff.tryCatch_apply] at h
  split at h
  · rename_i hrun
    cases h
    exact processBody_ok (c := { c with lastActivity := w.now }) hs hb hrun
  · exact .inr (.inl (onException_ok h))

/-- What `process` does. -/
structure Own (sys : Sys) (s s' : Connection × World) : Prop where
  client : SameClient s.1 s'.1
  pipe : PipeFrom sys (s.1.response, s.2) (s'.1.response, s'.2)
  world : World.Offline s.2 s'.2

instance : IsPreorder (Connection × World) (Own sys) where
  refl s := ⟨.refl s.1, refl_of (PipeFrom sys) _, refl_of World.Offline s.2⟩
  trans _ _ _ h h' := ⟨h.client.trans h'.client, trans_of (PipeFrom sys) h.pipe h'.pipe,
    trans_of World.Offline h.world h'.world⟩

theorem Own.later {s : Connection × World} (h : Own sys s (c, w)) (hw : w.Offline w') : Own sys s (c, w') :=
  ⟨h.client, h.pipe, trans_of World.Offline h.world hw⟩

theorem Steady.own {s s' : Connection × World} (h : Steady World.Offline s s') : Own sys s s' :=
  ⟨h.client, pipeFrom_of_noScript h.response, h.world⟩

theorem own_of_steady {α : Type} {m : Method Connection α} (h : Moves (Steady World.Offline) m) :
    Moves (Own sys) m := h.mono fun _ _ h => h.own

theorem own_respond (sys : Sys) : Moves (Own sys) (respond sys) := by
  have hset (state : ConnectionState) : Moves (Own sys) (modObj (setState state) : Method Connection Unit) :=
    fun s => ⟨⟨rfl, rfl⟩, fun _ => .inl, refl_of World.Offline s.2⟩
  refine Moves.obj.bind fun c => Moves.ite (fun _ => own_of_steady (steady_triggerError sys _)) fun _ => ?_
  rcases c.serverConf with _ | conf
  · exact own_of_steady (steady_triggerError sys _)
  have hbuild : Moves (Own sys) (onExchange (Response.buildResponse sys conf)) := fun s =>
    ⟨⟨rfl, rfl⟩, pipeFrom_buildResponse conf ((s.1.request, s.1.response), s.2),
      (acts_buildResponse conf ((s.1.request, s.1.response), s.2)).offline⟩
  refine hbuild.bind fun _ => Moves.ite (fun _ => hset _) fun _ => Moves.obj.bind fun _ => ?_
  exact Moves.ite (fun _ => hset _) fun _ => Moves.pure _

theorem own_process (sys : Sys) : Moves (Own sys) (process sys) := by
  have hrest (decoded : Bool) :
      Moves (Own sys) (if ¬ decoded then return () else respond sys : Method Connection Unit) :=
    Moves.ite (fun _ => Moves.pure _) fun _ => own_respond sys
  refine Moves.obj.bind fun c => Moves.ite (fun _ => Moves.pure _) fun _ => ?_
  refine (own_of_steady steady_updateActivityTimer).bind fun _ => Moves.tryCatch ?_ fun e => ?_
  · rw [processBody_eq]
    refine Moves.obj.bind fun c => Moves.ite (fun _ => Moves.bind ?_ hrest) fun _ => (Moves.pure _).bind hrest
    exact (Request.moves_processBodySlice sys).on fun _ _ h => ⟨⟨rfl, rfl⟩, fun _ => .inl, World.Local.offline h⟩
  · exact own_of_steady (steady_onException sys e)

end States

end Connection

end LeftHookRoll
