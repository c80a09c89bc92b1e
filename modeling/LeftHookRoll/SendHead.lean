import LeftHookRoll.ScriptFrame

/-!
# Sending the header block

`AtHead`: nothing but `sendSlice` moves a response on from its header block. `Broken` says when the first `send` of
the block raises an exception. Then the response stays where it is (`sendSlice_broken`); else it is over, or the
socket has got bytes of it (`sendSlice_unbroken`).
-/

namespace LeftHookRoll

open Eff

namespace Response

variable {sys : Sys} {fd : Nat} {r : Response} {w : World}

/-! ### Before the body -/

/-- A response whose header block is not out stays one. -/
def AtHead (s s' : Response × World) : Prop :=
  s.1.responseState = .SENDING_RES_HEAD → s'.1.responseState = .SENDING_RES_HEAD

instance : IsPreorder (Response × World) AtHead where
  refl _ := id
  trans _ _ _ h h' := h' ∘ h

theorem atHead_modObj {f : Response → Response} (h : ∀ r, r.responseState = .SENDING_RES_HEAD →
    (f r).responseState = .SENDING_RES_HEAD) : Moves AtHead (modObj f : Method Response Unit) := fun s => h s.1

theorem atHead_onStore {α : Type} (m : Method DataStore α) : Moves AtHead (onStore m) :=
  Moves.on (T := fun _ _ => True) (fun _ => trivial) fun _ _ _ => id

theorem atHead_of_outside {α : Type} {P : Call → Prop} {m : Method Response α} (h : Moves (Outside P) m) : Moves AtHead m :=
  h.mono fun _ _ h hs => by rw [h.1, hs]

section Output

variable (sys)

theorem finalizeSuccess_head (contentType : Bytes) (s : Response × World) :
    (finalizeSuccess sys contentType s).2.1.responseState = .SENDING_RES_HEAD := by
  obtain ⟨r', hrun, -⟩ := finalizeSuccess_eq sys contentType s.1 s.2
  rw [hrun]
  rfl

theorem atHead_appendPage (content : Bytes) : Moves AtHead (appendPage sys content) := by
  induction content using appendPage.induct with
  | case1 content ih =>
    rw [appendPage]
    refine (atHead_of_outside (outside_sysTick (P := AnyCall))).bind fun t => ?_
    rcases sys.readFile t 4096 with _ | k
    · exact Moves.pure _
    simp only
    split
    · exact Moves.pure _
    · rename_i hgot
      exact (atHead_onStore _).bind fun _ => ih k hgot

theorem atHead_buildErrorPage (code : Bytes) (config : ServerConf) : Moves AtHead (buildErrorPage sys code config) := by
  refine (atHead_onStore _).bind fun _ => Moves.bind (atHead_modObj fun _ h => h) fun _ => ?_
  refine (atHead_of_outside (outside_openErrorPage (P := AnyCall) sys (fun _ => trivial) _)).bind fun page => ?_
  refine Moves.bind ?_ fun _ s _ => finalizeSuccess_head sys _ s
  rcases page with _ | content
  · exact atHead_onStore _
  · exact atHead_appendPage sys content

/-- Whatever was sent before: an error page starts with its header block. -/
theorem buildErrorPage_head {code : Bytes} {config : ServerConf} {s' : Response × World}
    (h : buildErrorPage sys code config (r, w) = (.ok (), s')) : s'.1.responseState = .SENDING_RES_HEAD := by
  obtain ⟨_, s₁, -, h⟩ := Eff.bind_eq_ok.1 h
  obtain ⟨_, s₂, -, h⟩ := Eff.bind_eq_ok.1 h
  obtain ⟨_, s₃, -, h⟩ := Eff.bind_eq_ok.1 h
  obtain ⟨_, s₄, -, h⟩ := Eff.bind_eq_ok.1 h
  have hhead := finalizeSuccess_head sys (ascii "text/html") s₄
  rwa [h] at hhead

theorem atHead_isCgiDone : Moves AtHead (readCgiOutput.isCgiDone sys) :=
  Moves.on (T := fun _ _ => True) (fun _ => trivial) fun _ _ _ => id

theorem atHead_readCgiOutput (got : Option Bytes) : Moves AtHead (readCgiOutput sys got) := by
  refine Moves.obj.bind fun r => ?_
  rcases r.cgiInstance with _ | cgi
  · exact Moves.pure _
  refine Moves.ite (fun _ => Moves.pure _) fun _ => ?_
  have hdone : Moves AtHead (do let _ ← readCgiOutput.isCgiDone sys; return true : Method Response Bool) :=
    (atHead_isCgiDone sys).bind fun _ => Moves.pure _
  rcases got with _ | _ | ⟨b, data⟩
  · exact hdone
  · exact hdone
  · exact (atHead_onStore _).bind fun _ => atHead_isCgiDone sys

theorem atHead_cgiTimeout (config : ServerConf) : Moves AtHead (cgiTimeout sys config) := by
  refine Moves.obj.bind fun r => ?_
  have hpage : Moves AtHead (do
      modObj fun r => { r with buildPhase := .BUILD_DONE }
      buildErrorPage sys (ascii "504") config : Method Response Unit) :=
    Moves.bind (atHead_modObj fun _ h => h) fun _ => atHead_buildErrorPage sys _ _
  have hforget : Moves AtHead (do
      modObj fun r => { r with cgiInstance := none }
      modObj fun r => { r with buildPhase := .BUILD_DONE }
      buildErrorPage sys (ascii "504") config : Method Response Unit) :=
    Moves.bind (atHead_modObj fun _ h => h) fun _ => hpage
  rcases r.cgiInstance with _ | cgi
  · exact hpage
  simp only
  rcases cgi.pId with _ | pid
  · exact hforget
  · exact Moves.bind (fun _ h => h) fun _ => (atHead_isCgiDone sys).bind fun _ => hforget

theorem atHead_badGateway : Moves AtHead (badGateway sys) := by
  refine Moves.obj.bind fun r => ?_
  rcases r.cachedConfig with _ | config
  · exact Moves.bind (atHead_modObj fun _ h => h) fun _ => atHead_modObj fun _ h => h
  · exact (atHead_buildErrorPage sys _ _).bind fun _ => atHead_modObj fun _ h => h

theorem atHead_finalizeCgiResponse : Moves AtHead (finalizeCgiResponse sys) := by
  have hbad := atHead_badGateway sys
  refine Moves.bind (atHead_modObj fun _ h => h) fun _ => (atHead_onStore _).bind fun cgiOutput => ?_
  refine Moves.ite (fun _ => hbad) fun _ => Moves.ite (fun _ => hbad) fun _ => Moves.obj_bind fun s => ?_
  refine Eff.bind_along (fun hs => ?_) fun _ => ?_
  · have hsaid := said_parseCgiHeaders (splitCgiOutput cgiOutput).1 s.1
    rw [Said] at hsaid
    show (parseCgiHeaders (splitCgiOutput cgiOutput).1 s.1).2.responseState = _
    rw [hsaid]
    exact hs
  rcases (parseCgiHeaders _ s.1).1 with _ | contentType
  · exact hbad
  refine (atHead_onStore _).bind fun _ => (atHead_onStore _).bind fun _ => ?_
  exact Moves.bind (fun s _ => finalizeSuccess_head sys _ s) fun _ => atHead_modObj fun _ h => h

end Output

/-! ### The first `send` -/

/-- What the socket has got stays. -/
def Grows (fd : Nat) : Response × World → Response × World → Prop :=
  OnWorld fun w w' => w.outbox fd <+: w'.outbox fd

instance (fd : Nat) : IsPreorder (Response × World) (Grows fd) where
  refl s := List.prefix_refl (s.2.outbox fd)
  trans _ _ _ h h' := List.IsPrefix.trans h h'

theorem grows_rules (sys : Sys) (fd : Nat) : SendRules sys fd (Grows fd) where
  tick s := List.prefix_refl (s.2.outbox fd)
  sigpipe context := by
    refine Moves.world.bind fun w => Moves.ite (fun _ => ?_) fun _ => Moves.pure _
    exact Moves.bind (fun s => List.prefix_refl (s.2.outbox fd)) fun _ => Moves.throw _
  send data := by
    refine Moves.bind (fun s => List.prefix_refl (s.2.outbox fd)) fun t => ?_
    refine Moves.bind (fun s => List.prefix_refl (s.2.outbox fd)) fun _ => ?_
    rcases sys.send t data.length with k | _ | _ | _
    · refine Moves.bind (fun s => ?_) fun _ => Moves.pure _
      show s.2.outbox fd <+: Function.update s.2.outbox fd (s.2.outbox fd ++ data.take (min k data.length)) fd
      rw [Function.update_self]
      exact List.prefix_append _ _
    · exact Moves.pure _
    · exact Moves.bind (fun s => List.prefix_refl (s.2.outbox fd)) fun _ => Moves.pure _
    · exact Moves.pure _
  modObj f _ := fun s => List.prefix_refl (s.2.outbox fd)
  onStore h := by
    refine h.on fun s t h => ?_
    have hw : t.2 = _ := h
    rw [Grows, OnWorld, hw]

/-- What the next `send` of the header block is given. -/
def headSlice (r : Response) : Bytes :=
  substr r.headerBuffer r.totalBytesSent (min (r.headerBuffer.length - r.totalBytesSent) r.writeBufferSize)

/-- The next `send` of the header block finds the peer gone, or a `SIGPIPE` from before it is still to be looked at. -/
def Broken (sys : Sys) (r : Response) (w : World) : Prop :=
  w.sigpipe = true ∨ sys.send w.tick r.headSlice.length = .brokenPipe

theorem sysSend_brokenPipe {σ : Type} {s : σ} {data : Bytes} (h : sys.send w.tick data.length = .brokenPipe) (fd : Nat) :
    sysSend sys fd data (s, w) = (.ok none, s, { w with tick := w.tick + 1, sigpipe := true, sends := (w.tick, data.length) :: w.sends }) := by
  simp [sysSend, h]

/-- Bytes that a `send` takes are on the socket. -/
theorem sysSend_run {σ : Type} {s : σ} {data : Bytes} (hw : w.sigpipe = false) (h : sys.send w.tick data.length ≠ .brokenPipe)
    (fd : Nat) : ∃ sent w', sysSend sys fd data (s, w) = (.ok sent, s, w') ∧ w'.sigpipe = false ∧
      ∀ k, sent = some (k + 1) → (w.outbox fd).length < (w'.outbox fd).length := by
  rcases hsend : sys.send w.tick data.length with k | _ | _ | _
  · refine ⟨some (min k data.length), { w with
      tick := w.tick + 1
      outbox := Function.update w.outbox fd (w.outbox fd ++ data.take (min k data.length))
      sends := (w.tick, data.length) :: w.sends },
      by simp [sysSend, hsend], hw, fun n hn => ?_⟩
    have hn := Option.some.inj hn
    simp only [Function.update_self, List.length_append, List.length_take]
    omega
  · exact ⟨none, { w with tick := w.tick + 1, sends := (w.tick, data.length) :: w.sends }, by simp [sysSend, hsend], hw, fun n hn => by cases hn⟩
  · exact absurd hsend h
  · exact ⟨none, { w with tick := w.tick + 1, sends := (w.tick, data.length) :: w.sends }, by simp [sysSend, hsend], hw, fun n hn => by cases hn⟩

/-- `_sendHeader` behind its `send`. -/
def afterSend (sys : Sys) (fd : Nat) (headerSize : Nat) (sent : Option Nat) : Method Response Bool := do
  throwIfSigpipe "sending response header"
  match sent with
  | none | some 0 => return true
  | some (k + 1) =>
    modObj (countSent (k + 1))
    let r ← obj
    if r.totalBytesSent < headerSize then return false
    else if r.responseDataStore.getSize = 0 ∧ r.fileFd = none then return true
    else
      modObj startBody
      sendBodyStatic sys fd

theorem sendSlice_head (hstate : r.responseState = .SENDING_RES_HEAD) (hw : w.sigpipe = false) (fd : Nat) :
    sendSlice sys fd (r, w) = (sysSend sys fd r.headSlice >>= afterSend sys fd r.headerBuffer.length) (r, w) := by
  rw [sendSlice, Eff.obj_bind]
  simp only [hstate]
  rw [sendHeader, Eff.bind_ok (throwIfSigpipe_eq hw _), Eff.obj_bind]
  rfl

theorem throwIfSigpipe_raises {σ : Type} {s : σ} (hw : w.sigpipe = true) (context : String) :
    (throwIfSigpipe context : Method σ Unit) (s, w) =
      (.error (.client 502 ("SIGPIPE while " ++ context)), s, { w with sigpipe := false }) := by
  simp [throwIfSigpipe, hw]

/-- A response whose peer is gone raises an exception, and stays as it is. -/
theorem sendSlice_broken (hstate : r.responseState = .SENDING_RES_HEAD) (h : Broken sys r w) (fd : Nat) :
    ∃ w', sendSlice sys fd (r, w) = (.error (.client 502 "SIGPIPE while sending response header"), r, w') ∧
      w'.outbox = w.outbox := by
  by_cases hw : w.sigpipe = true
  · refine ⟨{ w with sigpipe := false }, ?_, rfl⟩
    rw [sendSlice, Eff.obj_bind]
    simp only [hstate]
    exact Eff.bind_error (throwIfSigpipe_raises hw _)
  · refine ⟨{ w with tick := w.tick + 1, sigpipe := false, sends := (w.tick, r.headSlice.length) :: w.sends }, ?_, rfl⟩
    rw [sendSlice_head hstate (by simpa using hw), Eff.bind_ok (sysSend_brokenPipe (h.resolve_left hw) fd)]
    exact Eff.bind_error (throwIfSigpipe_raises rfl _)

theorem grows_afterSend (headerSize k : Nat) : Moves (Grows fd) (afterSend sys fd headerSize (some (k + 1))) := by
  have hrules := grows_rules sys fd
  refine (hrules.sigpipe _).bind fun _ => Moves.bind (hrules.modObj _ fun _ => rfl) fun _ => Moves.obj.bind fun r => ?_
  refine Moves.ite (fun _ => Moves.pure _) fun _ => Moves.ite (fun _ => Moves.pure _) fun _ => ?_
  exact Moves.bind (hrules.modObj _ fun _ => rfl) fun _ => hrules.sendBodyStatic

/-- A response whose peer is there is over, or the socket gets bytes of it. -/
theorem sendSlice_unbroken (hstate : r.responseState = .SENDING_RES_HEAD) (h : ¬ Broken sys r w) (fd : Nat) :
    (∃ r' w', sendSlice sys fd (r, w) = (.ok true, r', w')) ∨ (sendSlice sys fd (r, w)).2.2.outbox fd ≠ w.outbox fd := by
  obtain ⟨hw, hpeer⟩ := not_or.1 h
  have hw : w.sigpipe = false := by simpa using hw
  obtain ⟨sent, w', hsend, hw', hlonger⟩ := @sysSend_run sys w _ r r.headSlice hw hpeer fd
  rw [sendSlice_head hstate hw, Eff.bind_ok hsend]
  have hover {m : Method Response Bool} (hm : m (r, w') = (.ok true, r, w')) :
      (do throwIfSigpipe "sending response header"; m : Method Response Bool) (r, w') = (.ok true, r, w') := by
    rw [Eff.bind_ok (throwIfSigpipe_eq hw' _), hm]
  rcases sent with _ | _ | k
  · exact .inl ⟨r, w', hover rfl⟩
  · exact .inl ⟨r, w', hover rfl⟩
  · right
    have hgrows : w'.outbox fd <+: (afterSend sys fd r.headerBuffer.length (some (k + 1)) (r, w')).2.2.outbox fd :=
      grows_afterSend _ k (r, w')
    intro heq
    have hle := hgrows.length_le
    rw [heq] at hle
    exact absurd (hlonger k rfl) (by omega)

end Response

end LeftHookRoll
