import LeftHookRoll.SendFile
import LeftHookRoll.SendHead

/-!
# Sending to a socket that would block

A `send` that takes no byte ends the response, for whatever reason it took none. `Lasts` says what a transfer should do,
and `sendSlices_lasts_iff` that it does so exactly when no `send` that it makes would block: up to a `send` that takes
nothing the transfer is the one to a peer that takes everything, and with that `send` it ends.
-/

namespace LeftHookRoll

open Eff

/-- The answer to a `send` that took bytes. -/
def SendResult.Taken : SendResult → Prop
  | .sent n => 0 < n
  | .wouldBlock | .brokenPipe | .failed => False

instance : DecidablePred SendResult.Taken
  | .sent n => inferInstanceAs (Decidable (0 < n))
  | .wouldBlock | .brokenPipe | .failed => inferInstanceAs (Decidable False)

/-- The answer of a socket whose peer is gone. -/
def SendResult.Gone : SendResult → Prop
  | .failed | .brokenPipe => True
  | .sent _ | .wouldBlock => False

/-- The call of `send`, given by its number and by how many bytes it is offered, has to be tried again: it takes none of
them, and the peer is there. -/
def Sys.Blocks (sys : Sys) (call : Nat × Nat) : Prop :=
  0 < call.2 ∧ ¬ (sys.send call.1 call.2).Taken ∧ ¬ (sys.send call.1 call.2).Gone

/-- The system with a peer that takes what would otherwise be refused. -/
def Sys.lasting (sys : Sys) : Sys :=
  { sys with send := fun t n => if n = 0 ∨ (sys.send t n).Taken then sys.send t n else .sent n }

/-- A system on which the first `send` would block and every other one takes all. -/
def Sys.blockedOnce : Sys := { Sys.calm with send := fun t n => if t = 0 then .wouldBlock else .sent n }

/-- A system whose first `send` takes all and on which the peer is gone from then on. -/
def Sys.fading : Sys := { Sys.calm with send := fun t n => if t = 0 then .sent n else .brokenPipe }

namespace Sys

variable {sys : Sys}

theorem lasting_taken {t n : Nat} (h : n = 0 ∨ (sys.send t n).Taken) : sys.lasting.send t n = sys.send t n := if_pos h

theorem lasting_refused {t n : Nat} (h : ¬ (n = 0 ∨ (sys.send t n).Taken)) : sys.lasting.send t n = .sent n := if_neg h

theorem lasting_takesSome (sys : Sys) : sys.lasting.TakesSome := by
  intro t n hn
  by_cases h : n = 0 ∨ (sys.send t n).Taken
  · rw [lasting_taken h]
    have htaken := h.resolve_left hn.ne'
    rcases hsend : sys.send t n with k | _ | _ | _ <;> rw [hsend] at htaken
    · exact ⟨k, htaken, rfl⟩
    · exact htaken.elim
    · exact htaken.elim
    · exact htaken.elim
  · exact ⟨n, hn, lasting_refused h⟩

/-- What sockets answer is of no concern to files. -/
theorem NoFail.withSend (h : sys.NoFail) (send : Nat → Nat → SendResult) : { sys with send := send }.NoFail :=
  ⟨h.writeTmp, h.readTmp, h.openTmp⟩

theorem NoFail.lasting (h : sys.NoFail) : sys.lasting.NoFail := h.withSend _

theorem Reads.lasting (h : sys.Reads) : sys.lasting.Reads := h

end Sys

/-- A store does not see what the sockets do. -/
theorem DataStore.readLoop_lasting (sys : Sys) (n : Nat) : readLoop sys.lasting n = readLoop sys n := by
  induction n using Nat.strong_induction_on with
  | _ n ih =>
    rw [readLoop, readLoop]
    by_cases hzero : n = 0
    · rw [if_pos hzero, if_pos hzero]
    · rw [if_neg hzero, if_neg hzero, show fdRead sys.lasting n = fdRead sys n from rfl]
      congr 1
      funext got
      rcases got with _ | got
      · rfl
      dsimp only
      by_cases hgot : got = []
      · rw [dif_pos hgot, dif_pos hgot]
      by_cases hall : n ≤ got.length
      · rw [dif_neg hgot, dif_neg hgot, dif_pos hall, dif_pos hall]
      · have hpos := List.length_pos_iff.2 hgot
        rw [dif_neg hgot, dif_neg hgot, dif_neg hall, dif_neg hall, ih (n - got.length) (by omega)]

theorem DataStore.read_lasting (sys : Sys) (n : Nat) : read sys.lasting n = read sys n := by
  unfold DataStore.read
  simp only [readLoop_lasting]

/-! ### The calls of `send` -/

/-- The calls of `send` on the way from `w` to `w'`, latest first. -/
def World.Made (w w' : World) (made : List (Nat × Nat)) : Prop := w'.sends = made ++ w.sends

/-- From `w` to `w'` every `send` that was offered bytes took some. -/
def World.Smooth (sys : Sys) (w w' : World) : Prop :=
  ∃ made, w.Made w' made ∧ ∀ call ∈ made, 0 < call.2 → (sys.send call.1 call.2).Taken

/-- The last system call on the way from `w` to `w'` was a `send` that took nothing of what it was offered; those before
it took some. -/
def World.Refused (sys : Sys) (w w' : World) : Prop :=
  ∃ w₁ n, w.Smooth sys w₁ ∧ w'.sends = (w'.tick - 1, n) :: w₁.sends ∧ 0 < n ∧ ¬ (sys.send (w'.tick - 1) n).Taken

/-- The last system call on the way from `w` to `w'` was a `send` that found the peer gone. -/
def World.PeerGone (sys : Sys) (w w' : World) : Prop :=
  ∃ n made, w.Made w' ((w'.tick - 1, n) :: made) ∧ (sys.send (w'.tick - 1) n).Gone

namespace World

variable {sys : Sys} {w w' w'' : World} {made : List (Nat × Nat)}

theorem Made.unique {made' : List (Nat × Nat)} (h : w.Made w' made) (h' : w.Made w' made') : made = made' :=
  List.append_cancel_right (h.symm.trans h')

theorem Smooth.of_sends (sys : Sys) (h : w'.sends = w.sends) : w.Smooth sys w' := ⟨[], h, by simp⟩

theorem Smooth.trans (h : w.Smooth sys w') (h' : w'.Smooth sys w'') : w.Smooth sys w'' := by
  obtain ⟨made, hmade, htaken⟩ := h
  obtain ⟨made', hmade', htaken'⟩ := h'
  refine ⟨made' ++ made, ?_, fun call hcall => ?_⟩
  · rw [Made, hmade', hmade, List.append_assoc]
  · exact (List.mem_append.1 hcall).elim (htaken' call) (htaken call)

theorem Smooth.not_blocks {call : Nat × Nat} (h : w.Smooth sys w') (hmade : w.Made w' made) (hcall : call ∈ made) :
    ¬ sys.Blocks call := by
  obtain ⟨made', hmade', htaken⟩ := h
  obtain rfl := hmade.unique hmade'
  exact fun hblocks => hblocks.2.1 (htaken call hcall hblocks.1)

theorem Smooth.refused (h : w.Smooth sys w') (h' : w'.Refused sys w'') : w.Refused sys w'' := by
  obtain ⟨w₁, n, hsmooth, hsends, hn, hrefused⟩ := h'
  exact ⟨w₁, n, h.trans hsmooth, hsends, hn, hrefused⟩

theorem Refused.congr (h : w.Refused sys w') (htick : w''.tick = w'.tick) (hsends : w''.sends = w'.sends) :
    w.Refused sys w'' := by
  rw [Refused, htick, hsends]
  exact h

/-- Where the last `send` took nothing, the peer is gone unless that `send` would block. -/
theorem Refused.peerGone (h : w.Refused sys w') (hnever : ∀ made, w.Made w' made → ∀ call ∈ made, ¬ sys.Blocks call) :
    w.PeerGone sys w' := by
  obtain ⟨w₁, n, ⟨made, hmade, -⟩, hsends, hn, hrefused⟩ := h
  have hlast : w.Made w' ((w'.tick - 1, n) :: made) := by rw [Made, hsends, hmade, List.cons_append]
  refine ⟨n, made, hlast, not_not.1 fun hgone => ?_⟩
  exact hnever _ hlast _ List.mem_cons_self ⟨hn, hrefused, hgone⟩

/-- Only the last `send` can be the one that would block, and then the peer is there. -/
theorem Refused.not_peerGone {call : Nat × Nat} (h : w.Refused sys w') (hmade : w.Made w' made) (hcall : call ∈ made)
    (hblocks : sys.Blocks call) : ¬ w.PeerGone sys w' := by
  rintro ⟨n', made', hmade', hgone⟩
  obtain ⟨w₁, n, hsmooth, hsends, -, -⟩ := h
  obtain rfl := hmade.unique hmade'
  have hrest : w.Made w₁ made' := by
    have hcons := hsends.symm.trans hmade
    exact (List.cons.inj hcons).2
  rcases List.mem_cons.1 hcall with rfl | hcall
  · exact hblocks.2.2 hgone
  · exact hsmooth.not_blocks hrest hcall hblocks

end World

namespace Response

variable {sys : Sys} {fd : Nat} {α β : Type} {last : α → Prop} {s : Response × World}

/-- No `send` is made. -/
abbrev Still : Response × World → Response × World → Prop := OnWorld fun w w' => w'.sends = w.sends

instance : IsPreorder (Response × World) Still where
  refl _ := rfl
  trans _ _ _ h h' := h'.trans h

theorem still_throwIfSigpipe (context : String) : Moves Still (throwIfSigpipe context : Method Response Unit) := by
  refine Moves.world.bind fun w => Moves.ite (fun _ => ?_) fun _ => Moves.pure _
  exact Moves.bind (fun _ => rfl) fun _ => Moves.throw _

theorem still_closeFile : Moves Still closeFile := fun _ => rfl

theorem still_onStore {m : Method DataStore α} (h : Moves (OnWorld World.Local) m) : Moves Still (Response.onStore m) := by
  refine h.on fun s t h => ?_
  have hw : t.2 = _ := h
  rw [Still, OnWorld, hw]

theorem still_refillFromStore (sys : Sys) : Moves Still (refillFromStore sys) := by
  refine Moves.obj.bind fun r => (still_onStore (DataStore.moves_read sys _)).bind fun got => ?_
  rcases got with _ | ⟨b, got⟩
  · exact Moves.pure _
  · exact Moves.bind (fun _ => rfl) fun _ => Moves.pure _

theorem still_refillFromFile (sys : Sys) (rest : Bytes) : Moves Still (refillFromFile sys rest) := by
  refine Moves.obj.bind fun r => Moves.bind (Moves.bind (fun _ => rfl) fun _ => Moves.pure _) fun got => ?_
  rcases got with _ | _ | ⟨b, got⟩
  · exact Moves.pure _
  · exact Moves.pure _
  · exact Moves.bind (fun _ => rfl) fun _ => Moves.pure _

/-- The run that began in `w` ended where a `send` took nothing, with a result that ends the response; the other run
got further. -/
structure Cut (sys : Sys) (fd : Nat) (last : α → Prop) (w : World) (out out' : Except Exn α × Response × World) : Prop where
  last : ∀ a, out.1 = .ok a → last a
  refused : w.Refused sys out.2.2
  outbox : out.2.2.outbox fd <+: out'.2.2.outbox fd
  shorter : (out.2.2.outbox fd).length < (out'.2.2.outbox fd).length

/-- `m` goes as `m'` does, as long as every `send` takes some of what it is offered. -/
def UpToRefusal (sys : Sys) (fd : Nat) (last : α → Prop) (m m' : Method Response α) : Prop :=
  ∀ s, (m s = m' s ∧ s.2.Smooth sys (m s).2.2) ∨ Cut sys fd last s.2 (m s) (m' s)

/-- `m` makes no system call, sends nothing and ends with a result that ends the response. -/
def Quits (last : α → Prop) (m : Method Response α) : Prop :=
  ∀ s, (∀ a, (m s).1 = .ok a → last a) ∧ (m s).2.2 = { s.2 with sigpipe := (m s).2.2.sigpipe }

theorem Quits.pure {a : α} (h : last a) : Quits last (Pure.pure a : Method Response α) := by
  refine fun s => ⟨fun b hb => ?_, rfl⟩
  cases hb
  exact h

theorem quits_true : Quits (· = true) (Pure.pure true : Method Response Bool) := Quits.pure rfl

theorem Quits.closeFile {m : Method Response α} (h : Quits last m) :
    Quits last (Response.closeFile >>= fun _ => m) := fun s => h ({ s.1 with fileFd := none }, s.2)

theorem Quits.sigpipe {m : Method Response α} (h : Quits last m) (context : String) :
    Quits last (throwIfSigpipe context >>= fun _ => m) := by
  rintro ⟨r, w⟩
  rcases hsig : w.sigpipe with _ | _
  · rw [Eff.bind_ok (throwIfSigpipe_eq hsig context)]
    exact h (r, w)
  · rw [Eff.bind_error (throwIfSigpipe_raises hsig context)]
    exact ⟨(by intros; contradiction), rfl⟩

namespace UpToRefusal

theorem refl (last : α → Prop) {m : Method Response α} (h : Moves Still m) : UpToRefusal sys fd last m m :=
  fun s => .inl ⟨rfl, .of_sends sys (h s)⟩

theorem obj_bind {f f' : Response → Method Response α} (h : ∀ r, UpToRefusal sys fd last (f r) (f' r)) :
    UpToRefusal sys fd last (obj >>= f) (obj >>= f') := fun s => h s.1 s

theorem ite {p : Prop} [Decidable p] {m m' n n' : Method Response α} (h : UpToRefusal sys fd last m m')
    (h' : UpToRefusal sys fd last n n') : UpToRefusal sys fd last (if p then m else n) (if p then m' else n') := by
  split
  · exact h
  · exact h'

theorem after {a : α} {w : World} {last' : β → Prop} {f f' : α → Method Response β} {t : Response × World}
    (hf : UpToRefusal sys fd last' (f a) (f' a)) (hsmooth : w.Smooth sys t.2) :
    (f a t = f' a t ∧ w.Smooth sys (f a t).2.2) ∨ Cut sys fd last' w (f a t) (f' a t) := by
  rcases hf t with ⟨heq, hnext⟩ | hcut
  · exact .inl ⟨heq, hsmooth.trans hnext⟩
  · exact .inr ⟨hcut.last, hsmooth.refused hcut.refused, hcut.outbox, hcut.shorter⟩

theorem bind {last' : β → Prop} {m m' : Method Response α} {f f' : α → Method Response β}
    (h : UpToRefusal sys fd last m m') (hquit : ∀ a, last a → Quits last' (f a))
    (hf : ∀ a, UpToRefusal sys fd last' (f a) (f' a)) (hgrows : ∀ a, Moves (Grows fd) (f' a)) :
    UpToRefusal sys fd last' (m >>= f) (m' >>= f') := by
  intro s
  have hle : (m' s).2.2.outbox fd <+: ((m' >>= f') s).2.2.outbox fd := by
    rw [bind_apply]
    rcases m' s with ⟨e | a, t⟩
    · exact List.prefix_refl (t.2.outbox fd)
    · exact hgrows a t
  rcases h s with ⟨heq, hsmooth⟩ | hcut
  · rw [heq] at hsmooth
    rw [bind_apply, bind_apply, heq]
    rcases hrun : m' s with ⟨e | a, t⟩ <;> rw [hrun] at hsmooth
    · exact .inl ⟨rfl, hsmooth⟩
    · exact (hf a).after hsmooth
  · obtain ⟨hlast, hrefused, hout, hshort⟩ := hcut
    have hshort := hshort.trans_le hle.length_le
    right
    rcases hrun : m s with ⟨e | a, t⟩ <;> rw [hrun] at hlast hrefused hout hshort
    · rw [bind_error hrun]
      exact ⟨(by intros; contradiction), hrefused, hout.trans hle, hshort⟩
    · rw [bind_ok hrun]
      obtain ⟨hlast', hworld⟩ := hquit a (hlast a rfl) t
      refine ⟨hlast', hrefused.congr ?_ ?_, ?_, ?_⟩
      · rw [hworld]
      · rw [hworld]
      · rw [hworld]
        exact hout.trans hle
      · rw [hworld]
        exact hshort

theorem bind_same {m : Method Response α} {last' : β → Prop} {f f' : α → Method Response β} (h : Moves Still m)
    (hf : ∀ a, UpToRefusal sys fd last' (f a) (f' a)) : UpToRefusal sys fd last' (m >>= f) (m >>= f') := by
  intro s
  have hsmooth : s.2.Smooth sys (m s).2.2 := .of_sends sys (h s)
  rw [bind_apply, bind_apply]
  rcases hrun : m s with ⟨e | a, t⟩ <;> rw [hrun] at hsmooth
  · exact .inl ⟨rfl, hsmooth⟩
  · exact (hf a).after hsmooth

end UpToRefusal

/-! ### The places that send -/

/-- What `send` returns when it took nothing. -/
def TookNone (sent : Option Nat) : Prop := sent = none ∨ sent = some 0

theorem sysSend_refused {data : Bytes} (h : ¬ (sys.send s.2.tick data.length).Taken) (fd : Nat) :
    ∃ sent b, TookNone sent ∧ sysSend sys fd data s =
      (.ok sent, s.1, { s.2 with tick := s.2.tick + 1, sigpipe := b, sends := (s.2.tick, data.length) :: s.2.sends }) := by
  rcases hsend : sys.send s.2.tick data.length with k | _ | _ | _ <;> rw [hsend] at h
  · obtain rfl : k = 0 := Nat.eq_zero_of_not_pos h
    exact ⟨some 0, s.2.sigpipe, .inr rfl, by simp [sysSend, hsend]⟩
  · exact ⟨none, s.2.sigpipe, .inl rfl, by simp [sysSend, hsend]⟩
  · exact ⟨none, true, .inl rfl, by simp [sysSend, hsend]⟩
  · exact ⟨none, s.2.sigpipe, .inl rfl, by simp [sysSend, hsend]⟩

theorem sysSend_made (sys : Sys) (fd : Nat) (data : Bytes) (s : Response × World) :
    s.2.Made (sysSend sys fd data s).2.2 [(s.2.tick, data.length)] := by
  rcases hsend : sys.send s.2.tick data.length with k | _ | _ | _ <;> simp [sysSend, hsend, World.Made]

variable (sys fd) in
theorem upToRefusal_sysSend (data : Bytes) :
    UpToRefusal sys fd TookNone (sysSend sys fd data) (sysSend sys.lasting fd data) := by
  intro s
  by_cases h : data.length = 0 ∨ (sys.send s.2.tick data.length).Taken
  · left
    refine ⟨?_, _, sysSend_made sys fd data s, fun call hcall hpos => ?_⟩
    · simp only [sysSend, sysTick_bind, Sys.lasting_taken h]
    · obtain rfl := List.mem_singleton.1 hcall
      exact h.resolve_left hpos.ne'
  · right
    have hdata : 0 < data.length := Nat.pos_of_ne_zero fun h0 => h (.inl h0)
    have hrefused : ¬ (sys.send s.2.tick data.length).Taken := fun ht => h (.inr ht)
    have hall : sysSend sys.lasting fd data s = (.ok (some data.length), s.1, s.2.accept fd data.length data) := by
      simp [sysSend, Sys.lasting_refused h, World.accept]
    obtain ⟨sent, b, hnone, hrun⟩ := sysSend_refused (s := s) hrefused fd
    rw [hrun, hall]
    refine ⟨fun a ha => ?_, ⟨s.2, data.length, .of_sends sys rfl, rfl, hdata, hrefused⟩, ?_, ?_⟩
    · cases ha
      exact hnone
    · rw [World.accept_outbox]
      exact List.prefix_append _ _
    · rw [World.accept_outbox, List.length_append]
      exact Nat.lt_add_of_pos_right hdata

variable (sys fd) in
theorem upToRefusal_sendStreamBuf (context : String) :
    UpToRefusal sys fd (· = false) (sendStreamBuf sys fd context) (sendStreamBuf sys.lasting fd context) := by
  have hquit : Quits (· = false) (Pure.pure false : Method Response Bool) := Quits.pure rfl
  refine .obj_bind fun r => (upToRefusal_sysSend sys fd _).bind ?_ (fun sent => .refl _ ?_) fun sent => ?_
  · rintro sent (rfl | rfl)
    · exact hquit.sigpipe context
    · exact hquit.sigpipe context
  · refine (still_throwIfSigpipe context).bind fun _ => ?_
    rcases sent with _ | _ | k
    · exact Moves.pure _
    · exact Moves.pure _
    · exact Moves.bind (fun _ => rfl) fun _ => Moves.pure _
  · refine ((grows_rules sys fd).sigpipe context).bind fun _ => ?_
    rcases sent with _ | _ | k
    · exact Moves.pure _
    · exact Moves.pure _
    · exact ((grows_rules sys fd).modObj _ fun _ => by exact rfl).bind fun _ => Moves.pure _

theorem upToRefusal_sendStored : UpToRefusal sys fd (· = true) (sendStored sys fd) (sendStored sys.lasting fd) := by
  refine (upToRefusal_sendStreamBuf sys fd _).bind ?_ (fun took => .refl _ ?_) fun took => ?_
  · rintro took rfl
    exact quits_true
  · exact Moves.ite (fun _ => Moves.obj.bind fun _ => Moves.pure _) fun _ => Moves.pure _
  · exact Moves.ite (fun _ => Moves.obj.bind fun _ => Moves.pure _) fun _ => Moves.pure _

theorem upToRefusal_sendFileBuf : UpToRefusal sys fd (· = true) (sendFileBuf sys fd) (sendFileBuf sys.lasting fd) := by
  have hstill : Moves Still (do closeFile; return true : Method Response Bool) := still_closeFile.bind fun _ => Moves.pure _
  have hgrows : Moves (Grows fd) (do closeFile; return true : Method Response Bool) :=
    (grows_rules sys fd).closeFile.bind fun _ => Moves.pure _
  refine (upToRefusal_sendStreamBuf sys fd _).bind ?_ (fun took => .refl _ ?_) fun took => ?_
  · rintro took rfl
    exact quits_true.closeFile
  · exact Moves.ite (fun _ => Moves.obj.bind fun _ => Moves.ite (fun _ => hstill) fun _ => Moves.pure _) fun _ => hstill
  · exact Moves.ite (fun _ => Moves.obj.bind fun _ => Moves.ite (fun _ => hgrows) fun _ => Moves.pure _) fun _ => hgrows

theorem upToRefusal_sendBodyRam : UpToRefusal sys fd (· = true) (sendBodyRam sys fd) (sendBodyRam sys.lasting fd) := by
  refine .obj_bind fun r => .ite (.refl _ (Moves.pure _)) ?_
  refine (upToRefusal_sysSend sys fd _).bind ?_ (fun sent => .refl _ ?_) fun sent => ?_
  · rintro sent (rfl | rfl)
    · exact quits_true.sigpipe _
    · exact quits_true.sigpipe _
  · refine (still_throwIfSigpipe _).bind fun _ => ?_
    rcases sent with _ | _ | k
    · exact Moves.pure _
    · exact Moves.pure _
    · exact Moves.bind (fun _ => rfl) fun _ => Moves.pure _
  · refine ((grows_rules sys fd).sigpipe _).bind fun _ => ?_
    rcases sent with _ | _ | k
    · exact Moves.pure _
    · exact Moves.pure _
    · exact ((grows_rules sys fd).modObj _ fun _ => by exact rfl).bind fun _ => Moves.pure _

theorem upToRefusal_sendBodyFile (rest : Bytes) :
    UpToRefusal sys fd (· = true) (sendBodyFile sys fd rest) (sendBodyFile sys.lasting fd rest) := by
  rw [sendBodyFile_eq, sendBodyFile_eq]
  refine .bind_same (still_throwIfSigpipe _) fun _ => .obj_bind fun r => ?_
  have hrest (more : Bool) : UpToRefusal sys fd (· = true)
      (if more then sendFileBuf sys fd else do closeFile; return true)
      (if more then sendFileBuf sys.lasting fd else do closeFile; return true) :=
    .ite upToRefusal_sendFileBuf (.refl _ (still_closeFile.bind fun _ => Moves.pure _))
  exact .ite (.bind_same (still_refillFromFile sys rest) hrest) (.bind_same (Moves.pure _) hrest)

theorem upToRefusal_sendBodyDataStore :
    UpToRefusal sys fd (· = true) (sendBodyDataStore sys fd) (sendBodyDataStore sys.lasting fd) := by
  refine .bind_same (still_throwIfSigpipe _) fun _ => .obj_bind fun r => .ite upToRefusal_sendBodyRam ?_
  have hrest (more : Bool) : UpToRefusal sys fd (· = true) (if more then sendStored sys fd else return true)
      (if more then sendStored sys.lasting fd else return true) := .ite upToRefusal_sendStored (.refl _ (Moves.pure _))
  have hrefill : refillFromStore sys.lasting = refillFromStore sys := by
    unfold refillFromStore
    simp only [DataStore.read_lasting]
  rw [hrefill]
  exact .obj_bind fun r => .ite (.bind_same (still_refillFromStore sys) hrest) (.bind_same (Moves.pure _) hrest)

theorem upToRefusal_sendBodyStatic :
    UpToRefusal sys fd (· = true) (sendBodyStatic sys fd) (sendBodyStatic sys.lasting fd) := by
  refine .obj_bind fun r => ?_
  rcases r.fileFd with _ | rest
  · exact .bind_same (still_onStore (DataStore.moves_resetReadPosition sys)) fun _ => upToRefusal_sendBodyDataStore
  · exact upToRefusal_sendBodyFile rest

theorem upToRefusal_sendSlice : UpToRefusal sys fd (· = true) (sendSlice sys fd) (sendSlice sys.lasting fd) := by
  refine .obj_bind fun r => ?_
  rcases r.responseState with _ | _ | _
  · refine .bind_same (still_throwIfSigpipe _) fun _ => .obj_bind fun r => ?_
    refine (upToRefusal_sysSend sys fd _).bind ?_ (fun sent => .bind_same (still_throwIfSigpipe _) fun _ => ?_) fun sent => ?_
    · rintro sent (rfl | rfl)
      · exact quits_true.sigpipe _
      · exact quits_true.sigpipe _
    · rcases sent with _ | _ | k
      · exact .refl _ (Moves.pure _)
      · exact .refl _ (Moves.pure _)
      · exact .bind_same (fun _ => rfl) fun _ => .obj_bind fun r => .ite (.refl _ (Moves.pure _)) <|
          .ite (.refl _ (Moves.pure _)) <| .bind_same (fun _ => rfl) fun _ => upToRefusal_sendBodyStatic
    · refine ((grows_rules sys.lasting fd).sigpipe _).bind fun _ => ?_
      rcases sent with _ | _ | k
      · exact Moves.pure _
      · exact Moves.pure _
      · refine ((grows_rules sys.lasting fd).modObj _ fun _ => by exact rfl).bind fun _ => Moves.obj.bind fun r => ?_
        refine Moves.ite (fun _ => Moves.pure _) fun _ => Moves.ite (fun _ => Moves.pure _) fun _ => ?_
        exact ((grows_rules sys.lasting fd).modObj _ fun _ => by exact rfl).bind fun _ => (grows_rules sys.lasting fd).sendBodyStatic
  · exact upToRefusal_sendBodyStatic
  · exact .refl _ (Moves.pure _)

variable (sys fd) in
theorem upToRefusal_sendSlices (n : Nat) :
    UpToRefusal sys fd (· = true) (sendSlices sys fd n) (sendSlices sys.lasting fd n) := by
  induction n with
  | zero => exact .refl _ (Moves.pure _)
  | succ n ih =>
    refine ih.bind ?_ (fun _ => .ite (.refl _ (Moves.pure _)) upToRefusal_sendSlice) fun _ => ?_
    · rintro fin rfl
      exact quits_true
    · exact Moves.ite (fun _ => Moves.pure _) fun _ => (grows_rules sys.lasting fd).sendSlice

/-! ### The whole transfer -/

variable {hdr content : Bytes} {r : Response} {w : World}

/-- A response of which nothing has been sent: a header block, alone or with a body in a store, or with an open
file. -/
inductive Built (fd : Nat) (hdr content : Bytes) (r : Response) (w : World) : Prop
  | store (h : Ready fd hdr content r w)
  | file (h : FileSending fd [] hdr content r w []) (hopen : r.fileFd ≠ none)

/-- What some calls have done that began with the response `r` in `w`: the socket has got a prefix of it. While there is
more to send no file is closed; the transfer ends with all bytes sent, or because the peer is gone. -/
structure Lasted (sys : Sys) (fd : Nat) (hdr content : Bytes) (r : Response) (w : World)
    (out : Except Exn Bool × Response × World) : Prop where
  isPrefix : out.2.2.outbox fd <+: hdr ++ content
  unfinished : out.1 = .ok false → r.fileFd ≠ none → out.2.1.fileFd ≠ none
  finished : out.1 = .ok true → out.2.2.outbox fd = hdr ++ content ∨ w.PeerGone sys out.2.2
  thrown : ∀ e, out.1 = .error e → w.PeerGone sys out.2.2

/-- So it is after any number of calls. -/
def Lasts (sys : Sys) (fd : Nat) (hdr content : Bytes) (r : Response) (w : World) : Prop :=
  ∀ n, Lasted sys fd hdr content r w (sendSlices sys fd n (r, w))

/-- No `send` that the transfer makes has to be tried again. -/
def NeverBlocks (sys : Sys) (fd : Nat) (r : Response) (w : World) : Prop :=
  ∀ n made, w.Made (sendSlices sys fd n (r, w)).2.2 made → ∀ call ∈ made, ¬ sys.Blocks call

/-- A peer that takes everything gets everything. -/
theorem Built.completes (hs : sys.NoFail) (hr : sys.Reads) (ha : sys.TakesSome) (h : Built fd hdr content r w) (hhdr : hdr ≠ [])
    (hbody : r.fileFd = none → Resendable content r.responseDataStore.mode) (n : Nat) :
    ∃ fin r' w', sendSlices sys fd n (r, w) = (.ok fin, r', w') ∧ w'.outbox fd <+: hdr ++ content ∧
      (fin = false → r.fileFd ≠ none → r'.fileFd ≠ none) ∧ (fin = true → w'.outbox fd = hdr ++ content) := by
  cases h with
  | store h =>
    obtain ⟨fin, r', w', hrun, hpre, hfin⟩ := h.streams hs ha hhdr (hbody h.noFile) n
    refine ⟨fin, r', w', hrun, hpre, fun _ hopen => absurd h.noFile hopen, fun hdone => ?_⟩
    rcases n with _ | n
    · cases hrun
      cases hdone
    · exact (hfin n.succ_pos).1 hdone
  | file h hopen =>
    obtain ⟨sent, fin, r', w', hrun, hafter, hfin, hclosed, -⟩ := h.run hr ha hopen hhdr n
    have hout : w'.outbox fd = sent := hafter.outbox
    refine ⟨fin, r', w', hrun, ?_, fun hmore _ hnone => ?_, fun hdone => ?_⟩
    · rw [hout]
      exact hafter.isPrefix
    · cases hmore.symm.trans (hclosed.2 hnone)
    · rw [hout]
      exact hfin.1 hdone

/-- However far a transfer has come: with a `send` that would block it ends, and what is left is lost. -/
theorem Built.not_lasts (hs : sys.NoFail) (hr : sys.Reads) (h : Built fd hdr content r w) (hhdr : hdr ≠ [])
    (hbody : r.fileFd = none → Resendable content r.responseDataStore.mode) {n : Nat} {made : List (Nat × Nat)}
    {call : Nat × Nat} (hmade : w.Made (sendSlices sys fd n (r, w)).2.2 made) (hcall : call ∈ made)
    (hblocks : sys.Blocks call) : ¬ Lasts sys fd hdr content r w := by
  intro hlasts
  rcases upToRefusal_sendSlices sys fd n (r, w) with ⟨-, hsmooth⟩ | hcut
  · exact hsmooth.not_blocks hmade hcall hblocks
  obtain ⟨fin, r', w', hrun, hpre, -, -⟩ := h.completes hs.lasting hr.lasting sys.lasting_takesSome hhdr hbody n
  have hshort := hcut.shorter
  rw [hrun] at hshort
  have hgone := hcut.refused.not_peerGone hmade hcall hblocks
  rcases hout : (sendSlices sys fd n (r, w)).1 with e | fin
  · exact hgone ((hlasts n).thrown e hout)
  · obtain rfl := hcut.last fin hout
    rcases (hlasts n).finished hout with hall | hpeer
    · rw [hall] at hshort
      exact absurd hpre.length_le hshort.not_ge
    · exact hgone hpeer

/-- No byte is lost, no file is closed early, and the transfer ends only with all bytes sent or the peer gone: so it is
exactly when no `send` that it makes would block. -/
theorem sendSlices_lasts_iff (hs : sys.NoFail) (hr : sys.Reads) (h : Built fd hdr content r w) (hhdr : hdr ≠ [])
    (hbody : r.fileFd = none → Resendable content r.responseDataStore.mode) :
    Lasts sys fd hdr content r w ↔ NeverBlocks sys fd r w := by
  constructor
  · exact fun hlasts n made hmade call hcall hblocks => h.not_lasts hs hr hhdr hbody hmade hcall hblocks hlasts
  · intro hnever n
    obtain ⟨fin, r', w', hrun, hpre, hopen, hdone⟩ :=
      h.completes hs.lasting hr.lasting sys.lasting_takesSome hhdr hbody n
    rcases upToRefusal_sendSlices sys fd n (r, w) with ⟨hsame, -⟩ | hcut
    · rw [hsame, hrun]
      refine ⟨hpre, fun hf => hopen ?_, fun hf => .inl (hdone ?_), by intros; contradiction⟩
      · exact Except.ok.inj hf
      · exact Except.ok.inj hf
    · have hle := hcut.outbox
      rw [hrun] at hle
      have hgone := hcut.refused.peerGone (hnever n)
      refine ⟨hle.trans hpre, fun hf => ?_, fun _ => .inr hgone, fun _ _ => hgone⟩
      cases hcut.last false hf

theorem built_ramResponse (fd : Nat) (hdr body : Bytes) : Built fd hdr body (ramResponse hdr body) {} :=
  .store (ready_ramResponse fd hdr body)

/-- The header block is taken, and at the body the peer is gone. -/
theorem sendSlices_lasts_fading : Lasts Sys.fading 4 crlf (ascii "hello") (ramResponse crlf (ascii "hello")) {} := by
  have hs : Sys.fading.NoFail := Sys.calm_noFail.withSend _
  refine (sendSlices_lasts_iff hs Sys.calm_reads (built_ramResponse 4 crlf (ascii "hello")) (by simp [crlf])
    fun _ => .inl rfl).2 fun n made _ call _ hblocks => ?_
  obtain ⟨hpos, htaken, hgone⟩ := hblocks
  by_cases h : call.1 = 0
  · have hsend : Sys.fading.send call.1 call.2 = .sent call.2 := if_pos h
    rw [hsend] at htaken
    exact htaken hpos
  · have hsend : Sys.fading.send call.1 call.2 = .brokenPipe := if_neg h
    rw [hsend] at hgone
    exact hgone trivial

/-- Nothing of the response is sent, and it is taken for complete. -/
theorem sendSlices_ends_blocked :
    ¬ Lasts Sys.blockedOnce 4 crlf (ascii "hello") (ramResponse crlf (ascii "hello")) {} := by
  have hmade : World.Made {} (sendSlices Sys.blockedOnce 4 1 (ramResponse crlf (ascii "hello"), {})).2.2 [(0, 2)] := rfl
  have hs : Sys.blockedOnce.NoFail := Sys.calm_noFail.withSend _
  exact (built_ramResponse 4 crlf (ascii "hello")).not_lasts hs Sys.calm_reads (by simp [crlf]) (fun _ => .inl rfl) hmade
    List.mem_cons_self ⟨Nat.two_pos, id, id⟩

end Response

end LeftHookRoll
