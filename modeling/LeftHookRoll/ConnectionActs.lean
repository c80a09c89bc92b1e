import LeftHookRoll.HeaderBlock
import LeftHookRoll.Rejection

/-!
# The life of a connection

`Lives S C c`: `c` comes of a new connection when the server does to it what it does to connections
(`Act`), in any order and on systems of the kind `S`; `process` is called only while `C` holds. What a
`HeaderRule` asks of header blocks holds in every such life (`Lives.sound`), if the requests are answerable.
-/

namespace LeftHookRoll

open Eff

namespace Connection

open Response

/-- What the server does with a connection; `failed` is what its handlers do with an exception. -/
inductive Act
  | recv (r : RecvResult)
  | rewind
  | process
  | write
  | timeOut
  | failed (e : Exn)
  | readScript (got : Option Bytes)
  | finishScript
  | scriptTimeOut (conf : Option ServerConf)
  | answer

def Act.run (sys : Sys) : Act → Method Connection Unit
  | .recv r => handleRead sys r
  | .rewind => onBody (DataStore.resetReadPosition sys)
  | .process => Connection.process sys
  | .write => handleWrite sys
  | .timeOut => triggerError sys 408
  | .failed e => onException sys e
  | .readScript got => do let _ ← onResponse (readCgiOutput sys got)
  | .finishScript => onResponse (finalizeCgiResponse sys)
  | .scriptTimeOut (some conf) => onResponse (cgiTimeout sys conf)
  | .scriptTimeOut none => onResponse (modObj fun r =>
      setResponsePhrase (ascii "Gateway Timeout") (setStatusCode (ascii "504") r))
  | .answer => modObj (setState .WRITING)

/-! ### The header block, act by act -/

/-- The status of the request is that of its state, and the response meets the rule. -/
structure Sound (ρ : HeaderRule) (c : Connection) : Prop where
  settled : c.request.Settled
  worded : Worded ρ c.response

abbrev Sounds (ρ : HeaderRule) (s : Connection × World) : Prop := Sound ρ s.1

variable {ρ : HeaderRule} {sys : Sys}

theorem keeps_onResponse {α : Type} {m : Method Response α} (h : Keeps (Words ρ) Exn.Usual m) :
    Keeps (Sounds ρ) Exn.Usual (onResponse m) :=
  h.on (fun _ hs => hs.worded) fun _ _ hs ht => ⟨hs.settled, ht⟩

theorem keeps_onBody {α : Type} {m : Method DataStore α} (h : Throws Exn.IsRuntime m) :
    Keeps (Sounds ρ) Exn.Usual (onBody m) := by
  have hthrows : Throws Exn.Usual (onBody m) := by
    unfold onBody onRequest
    exact (usual_of_runtime (Request.throws_onBody h)).on
  exact fun s hs => ⟨⟨hs.settled, hs.worded⟩, hthrows s⟩

theorem keeps_setState (state : ConnectionState) :
    Keeps (Sounds ρ) Exn.Usual (modObj (setState state) : Method Connection Unit) :=
  .modObj fun _ hs => ⟨hs.settled, hs.worded⟩

theorem keeps_updateActivityTimer : Keeps (Sounds ρ) Exn.Usual updateActivityTimer :=
  Keeps.world.bind fun _ => .modObj fun _ hs => ⟨hs.settled, hs.worded⟩

theorem keeps_append (data : Bytes) : Keeps (Sounds ρ) Exn.Usual (onBody (DataStore.append sys data)) :=
  keeps_onBody (DataStore.throws_append sys data)

theorem keeps_takeLeftover (leftover : Bytes) : Keeps (Sounds ρ) Exn.Usual (takeLeftover sys leftover) := by
  refine .ite (fun _ => .pure _) fun _ => (keeps_append leftover).bind fun _ => .obj_bind fun s _ => ?_
  exact .ite (fun _ => keeps_setState _) fun _ => .ite (fun _ => keeps_setState _) fun _ => .pure _

theorem keeps_readBody (buf : Bytes) : Keeps (Sounds ρ) Exn.Usual (readBody sys buf) :=
  (keeps_append buf).bind fun _ => .obj_bind fun _ _ => .ite (fun _ => keeps_setState _) fun _ => .pure _

theorem keeps_readChunked (buf : Bytes) : Keeps (Sounds ρ) Exn.Usual (readChunked sys buf) :=
  (keeps_append buf).bind fun _ => .ite (fun _ => keeps_setState _) fun _ => .pure _

theorem keeps_handleWrite : Keeps (Sounds ρ) Exn.Usual (handleWrite sys) := by
  refine .obj_bind fun _ _ => .ite (fun _ => .pure _) fun _ => keeps_updateActivityTimer.bind fun _ => ?_
  refine .obj_bind fun _ _ => (keeps_onResponse (keeps_sendSlice _)).bind fun done => ?_
  exact .ite (fun _ => keeps_setState _) fun _ => .pure _

section Admits

variable (ha : ρ.Admits sys)
include ha

theorem keeps_triggerError {code : Int} (hcode : ρ.code (decimalInt code)) :
    Keeps (Sounds ρ) Exn.Usual (triggerError sys code) := by
  refine .obj_bind fun s hs => ?_
  rcases s.1.serverConf with _ | conf
  · refine Keeps.bind (keeps_onResponse (.modObj fun s hs => ?_)) fun _ => keeps_setState _
    exact Worded.setPhrase ha (Worded.setLookup ha hs hcode) (by decide)
  · exact (keeps_onResponse (keeps_buildErrorPage ha hcode conf)).bind fun _ => keeps_setState _

theorem keeps_ownTrigger {code : Int} (hcode : decimalInt code ∈ ownCodes) :
    Keeps (Sounds ρ) Exn.Usual (triggerError sys code) := keeps_triggerError ha (ha.codes _ hcode)

theorem keeps_onException {e : Exn} (he : e.Usual) : Keeps (Sounds ρ) Exn.Usual (onException sys e) := by
  cases e with
  | client code msg =>
    have hcode : ∀ code ∈ [500, 502, 503], decimalInt ((code : Nat) : Int) ∈ ownCodes := by decide
    exact keeps_ownTrigger ha (hcode code (he code msg rfl))
  | runtime _ => exact keeps_ownTrigger ha (by decide)
  | fatal | execed => exact .throw nofun

/-- The page for the status of a rejected request. -/
theorem keeps_reject {code : Bytes} (h : code ∈ Request.rejectCodes) :
    Keeps (Sounds ρ) Exn.Usual (triggerError sys (atoi code)) := by
  have hown : ∀ code ∈ Request.rejectCodes, code ∈ ownCodes := by decide
  refine keeps_triggerError ha ?_
  rw [Request.decimalInt_atoi h]
  exact ha.codes code (hown code h)

theorem leads_readHeaders (buf : Bytes) {s : Connection × World} (hs : Sounds ρ s)
    (hstate : s.1.request.reqState = .REQ_HEADERS) : Leads (Sounds ρ) Exn.Usual (readHeaders sys buf) s := by
  obtain ⟨c, w⟩ := s
  obtain ⟨hsettled, hworded⟩ := hs
  have hparsed := (parseHeaders_settled hsettled hstate (c.readBuffer ++ buf)).1
  rw [Leads, readHeaders, Eff.modObj_bind, Eff.obj_bind]
  split
  · exact keeps_ownTrigger ha (by decide) _ ⟨hsettled, hworded⟩
  rw [Eff.obj_bind, Eff.modObj_bind]
  obtain ⟨q, hq⟩ : ∃ q, q = (Request.parseHeaders (c.readBuffer ++ buf) c.request).2 := ⟨_, rfl⟩
  rw [← hq] at hparsed
  simp only [← hq]
  have hsound (c' : Connection) (hrequest : c'.request = q) (hresponse : c'.response = c.response) : Sound ρ c' :=
    ⟨hrequest ▸ hparsed, hresponse ▸ hworded⟩
  rcases hstate' : q.reqState with _ | _ | _ | _ | _
  · exact Keeps.pure _ _ (hsound _ rfl rfl)
  · exact (Keeps.modObj fun _ hs => ⟨hs.settled, hs.worded⟩).bind (fun _ => keeps_takeLeftover _) _ (hsound _ rfl rfl)
  · exact (Keeps.modObj fun _ hs => ⟨hs.settled, hs.worded⟩).bind (fun _ => keeps_takeLeftover _) _ (hsound _ rfl rfl)
  · exact Keeps.modObj (fun _ hs => ⟨hs.settled, hs.worded⟩) _ (hsound _ rfl rfl)
  · exact keeps_reject ha (hparsed.mem hstate') _ (hsound _ rfl rfl)

theorem keeps_handleRead (recv : RecvResult) : Keeps (Sounds ρ) Exn.Usual (handleRead sys recv) := by
  refine .obj_bind fun _ _ => .ite (fun _ => .pure _) fun _ => ?_
  rcases recv with _ | _ | ⟨b, data⟩
  · exact keeps_setState _
  · exact keeps_setState _
  refine keeps_updateActivityTimer.bind fun _ => Keeps.bind (.modObj fun _ hs => ⟨hs.settled, hs.worded⟩) fun _ => ?_
  intro s hs
  rw [Leads, Eff.obj_bind]
  rcases hstate : s.1.request.reqState with _ | _ | _ | _ | _
  · exact leads_readHeaders ha _ hs hstate
  · exact keeps_readBody _ s hs
  · exact keeps_readChunked _ s hs
  · exact Keeps.pure _ s hs
  · exact Keeps.pure _ s hs

end Admits

/-! ### Processing -/

/-- The first part of `processBody`: whether the body is decoded. -/
def decode (sys : Sys) : Method Connection Bool := do
  if (← obj).request.reqState = .REQ_CHUNKED then onRequest (Request.processBodySlice sys) else pure true

theorem processBody_decode (sys : Sys) :
    processBody sys = (decode sys >>= fun decoded => if ¬ decoded then return () else respond sys) := by
  funext s
  rw [processBody_eq, Eff.obj_bind]
  split
  · rename_i h
    rw [Eff.bind_apply, Eff.bind_apply, decode, Eff.obj_bind, if_pos h]
  · rename_i h
    have hdecode : decode sys s = (.ok true, s) := by
      rw [decode, Eff.obj_bind, if_neg h]
      rfl
    rw [Eff.bind_ok hdecode]
    rfl

/-- The request as `respond` gets it: a chunked body is decoded. -/
def Decoded (q q' : Request) : Prop :=
  q.reqState ≠ .REQ_CHUNKED ∧ q' = q ∨
    q.reqState = .REQ_CHUNKED ∧ ∃ sys w w', Request.processBodySlice sys (q, w) = (.ok true, q', w')

/-- What the request brings into the header block meets the rule. -/
def AnswerableBy (ρ : HeaderRule) (c : Connection) : Prop :=
  ∀ q conf, Decoded c.request q → c.serverConf = some conf → Answerable ρ conf q

theorem decode_true {c c' : Connection} {w w' : World} (h : decode sys (c, w) = (.ok true, c', w')) :
    c'.serverConf = c.serverConf ∧ Decoded c.request c'.request := by
  rw [decode, Eff.obj_bind] at h
  split at h
  · rename_i hchunked
    obtain ⟨t, hslice, heq⟩ := Eff.on_eq_ok.1 h
    cases heq
    exact ⟨rfl, .inr ⟨hchunked, sys, w, _, hslice⟩⟩
  · rename_i hchunked
    cases h
    exact ⟨rfl, .inl ⟨hchunked, rfl⟩⟩

theorem keeps_decode : Keeps (Sounds ρ) Exn.Usual (decode sys) := by
  have hslice : Throws Exn.Usual (onRequest (Request.processBodySlice sys)) := by
    unfold onRequest
    exact (usual_of_runtime (Request.throws_processBodySlice sys)).on
  refine .obj_bind fun _ _ => .ite (fun _ s hs => ⟨?_, hslice s⟩) fun _ => .pure _
  exact ⟨(Request.slice_processBodySlice sys (s.1.request, s.2)).settled hs.settled, hs.worded⟩

theorem leads_respond (ha : ρ.Admits sys) {s : Connection × World} (hs : Sounds ρ s)
    (hreq : ∀ conf, s.1.serverConf = some conf → Answerable ρ conf s.1.request) :
    Leads (Sounds ρ) Exn.Usual (respond sys) s := by
  obtain ⟨hsettled, hworded⟩ := hs
  rw [Leads, respond, Eff.obj_bind]
  split
  · rename_i hstatus
    exact keeps_reject ha (hsettled.mem (hsettled.status_iff.1 hstatus)) s ⟨hsettled, hworded⟩
  rename_i hstatus
  rcases hconf : s.1.serverConf with _ | conf
  · exact keeps_ownTrigger ha (by decide) s ⟨hsettled, hworded⟩
  refine Leads.bind (Leads.on (J := Serving ρ s.1.request) ?_ fun t ht => ?_) (fun complete => ?_)
  · exact keeps_buildResponse ha (fun hne => absurd hne hstatus) (hreq conf hconf) ((s.1.request, s.1.response), s.2) ⟨⟨s.1.request.body, rfl⟩, hworded⟩
  · obtain ⟨⟨d, hd⟩, hr⟩ := ht
    refine ⟨?_, hr⟩
    show t.1.1.Settled
    rw [hd]
    exact hsettled
  · exact .ite (fun _ => keeps_setState _) fun _ => .obj_bind fun _ _ => .ite (fun _ => keeps_setState _) fun _ => .pure _

theorem leads_processBody (ha : ρ.Admits sys) {s : Connection × World} (hs : Sounds ρ s) (hreq : AnswerableBy ρ s.1) :
    Leads (Sounds ρ) Exn.Usual (processBody sys) s := by
  rw [processBody_decode]
  refine (keeps_decode s hs).bind_run fun decoded t hrun ht => ?_
  cases decoded with
  | false => exact Keeps.pure _ t ht
  | true =>
    obtain ⟨hconf, hdecoded⟩ := decode_true hrun
    refine leads_respond ha ht fun conf hsome => ?_
    rw [hconf] at hsome
    exact hreq _ conf hdecoded hsome

theorem leads_process (ha : ρ.Admits sys) {s : Connection × World} (hs : Sounds ρ s)
    (hreq : s.1.state = .PROCESSING → AnswerableBy ρ s.1) : Leads (Sounds ρ) Exn.Usual (process sys) s := by
  obtain ⟨c, w⟩ := s
  by_cases hstate : c.state = .PROCESSING
  · have htimer : Sounds ρ ({ c with lastActivity := w.now }, w) := ⟨hs.settled, hs.worded⟩
    have hbody := leads_processBody ha htimer (hreq hstate)
    rw [Leads, process_eq hstate]
    exact hbody.tryCatch fun e he => keeps_onException ha he
  · rw [Leads, process_idle hstate]
    refine ⟨hs, fun e t h => ?_⟩
    cases h

/-! ### Lives -/

inductive Lives (S : Sys → Prop) (C : Connection → Prop) : Connection → Prop
  | new (fd : Nat) (conf : Option ServerConf) (now : Nat) : Lives S C (new fd conf now)
  | act {c : Connection} {sys : Sys} {a : Act} {w : World} : Lives S C c → S sys →
      (∀ e, a = .failed e → e.Usual) → (a = .process → c.state = .PROCESSING → C c) → Lives S C (a.run sys (c, w)).2.1

theorem leads_act (ha : ρ.Admits sys) (hscript : AdmitsScripts ρ) {a : Act} (he : ∀ e, a = .failed e → e.Usual)
    {s : Connection × World} (hs : Sounds ρ s) (hreq : a = .process → s.1.state = .PROCESSING → AnswerableBy ρ s.1) :
    Leads (Sounds ρ) Exn.Usual (a.run sys) s := by
  cases a with
  | recv r => exact keeps_handleRead ha r s hs
  | rewind => exact keeps_onBody (DataStore.throws_resetReadPosition sys) s hs
  | process => exact leads_process ha hs (hreq rfl)
  | write => exact keeps_handleWrite s hs
  | timeOut => exact keeps_ownTrigger ha (by decide) s hs
  | failed e => exact keeps_onException ha (he e rfl) s hs
  | readScript got => exact (keeps_onResponse (keeps_readCgiOutput got)).bind (fun _ => .pure _) s hs
  | finishScript => exact keeps_onResponse (keeps_finalizeCgiResponse ha hscript) s hs
  | scriptTimeOut conf =>
    rcases conf with _ | conf
    · refine keeps_onResponse (.modObj fun s hs => ?_) s hs
      exact Worded.setPhrase ha (Worded.setLookup ha hs (ha.codes _ (by decide))) (by decide)
    · exact keeps_onResponse (keeps_cgiTimeout ha conf) s hs
  | answer => exact keeps_setState _ s hs

theorem sound_new {sys : Sys} (ha : ρ.Admits sys) (fd : Nat) (conf : Option ServerConf) (now : Nat) :
    Sound ρ (new fd conf now) := by
  have hphrase : ∀ b ∈ ascii "OK", Plain b := by decide
  refine ⟨.inl ⟨rfl, (nomatch ·)⟩, ⟨⟨rfl, ha.codes (ascii "200") (by decide), fun b hb => ha.phrase b (hphrase b hb), ?_, ?_⟩, ?_, .inl rfl⟩⟩
  · exact fun _ h => absurd h List.not_mem_nil
  · exact fun _ h => absurd h List.not_mem_nil
  · exact fun _ h => absurd h List.not_mem_nil

/-- The rule holds in every life, if it admits what the systems, the scripts and the requests bring in. -/
theorem Lives.sound {S : Sys → Prop} {C : Connection → Prop} (sys : Sys) (hsome : S sys) (ha : ∀ sys, S sys → ρ.Admits sys)
    (hscript : AdmitsScripts ρ) (hreq : ∀ c, C c → AnswerableBy ρ c) {c : Connection} (h : Lives S C c) : Sound ρ c := by
  induction h with
  | new fd conf now => exact sound_new (ha sys hsome) fd conf now
  | act _ hsys he hC ih =>
    refine (leads_act (ha _ hsys) hscript he (s := (_, _)) ih fun ha hs => hreq _ (hC ha hs)).1

/-! ### What may be thrown -/

/-- The rule that asks for nothing. -/
def anyRule : HeaderRule := ⟨fun _ => True, fun _ => True, fun _ => True⟩

theorem admits_anyRule (sys : Sys) : anyRule.Admits sys :=
  ⟨fun _ _ => trivial, fun _ _ => trivial, fun _ _ => trivial, fun _ _ _ => trivial⟩

theorem admitsScripts_anyRule : AdmitsScripts anyRule := ⟨fun _ _ _ => trivial, fun _ _ => trivial, fun _ _ => trivial⟩

theorem answerableBy_anyRule (c : Connection) : AnswerableBy anyRule c :=
  fun _ _ _ _ => ⟨fun _ _ _ _ _ => ⟨trivial, fun _ _ => trivial⟩, fun _ _ _ _ _ _ _ => trivial⟩

/-- An act of the server goes on with the life, and throws nothing unusual. -/
theorem leads_live {S : Sys → Prop} {C : Connection → Prop} (hsys : S sys) {a : Act} (he : ∀ e, a = .failed e → e.Usual)
    {c : Connection} (h : Lives S C c) (hC : a = .process → c.state = .PROCESSING → C c) (w : World) :
    Leads (fun s => Lives S C s.1) Exn.Usual (a.run sys) (c, w) := by
  have hsound : Sound anyRule c :=
    h.sound _ hsys (fun sys _ => admits_anyRule sys) admitsScripts_anyRule fun c _ => answerableBy_anyRule c
  have hthrows := leads_act (s := (c, w)) (admits_anyRule sys) admitsScripts_anyRule he hsound fun _ _ => answerableBy_anyRule c
  exact ⟨.act h hsys he hC, hthrows.2⟩

end Connection

end LeftHookRoll
