import LeftHookRoll.ConnectionFrame
import LeftHookRoll.ErrorPage
import LeftHookRoll.ChunkRoundtrip

/-!
# A rejected request reaches no handler

`Run` is any sequence of what the server does with a connection. In it the status of the request is 200
until it is in `REQ_ERROR` (`Settled`), and as long as it may still be rejected the connection has only
read, sent, and opened error pages (`Inv`, `Inv.step`).
-/

namespace LeftHookRoll

open Eff

/-! ### The status of a request -/

namespace Request

/-- The status codes that the parser and the chunk decoder reject with. -/
def rejectCodes : List Bytes := [ascii "400", ascii "413", ascii "501", ascii "505"]

/-- Not rejected, with status 200, or rejected with another. -/
def Settled (q : Request) : Prop :=
  q.statusCode = ascii "200" ∧ q.reqState ≠ .REQ_ERROR ∨ q.statusCode ∈ rejectCodes ∧ q.reqState = .REQ_ERROR

theorem ne_of_mem_rejectCodes {code : Bytes} (h : code ∈ rejectCodes) : code ≠ ascii "200" := by
  revert code
  decide

theorem decimalInt_atoi {code : Bytes} (h : code ∈ rejectCodes) : decimalInt (atoi code) = code := by
  revert code
  decide

variable {q : Request} {block : Bytes}

theorem Settled.status_iff (h : q.Settled) : q.statusCode ≠ ascii "200" ↔ q.reqState = .REQ_ERROR := by
  rcases h with ⟨hcode, hstate⟩ | ⟨hcode, hstate⟩
  · exact ⟨fun hne => absurd hcode hne, fun heq => absurd heq hstate⟩
  · exact ⟨fun _ => hstate, fun _ => ne_of_mem_rejectCodes hcode⟩

theorem Settled.status_eq (h : q.Settled) (hstate : q.reqState ≠ .REQ_ERROR) : q.statusCode = ascii "200" := by
  by_contra hne
  exact hstate (h.status_iff.1 hne)

theorem Settled.mem (h : q.Settled) (hstate : q.reqState = .REQ_ERROR) : q.statusCode ∈ rejectCodes := by
  rcases h with ⟨-, hne⟩ | ⟨hcode, -⟩
  · exact absurd hstate hne
  · exact hcode

theorem settled_fail (q : Request) {code : Bytes} (h : code ∈ rejectCodes) : (q.fail code).Settled := .inr ⟨h, rfl⟩

theorem Settled.parseRequestLine (h : q.statusCode = ascii "200") (hstate : q.reqState ≠ .REQ_ERROR) (line : Bytes) :
    (parseRequestLine line q).Settled := by
  have hquery (r : Request) : r.extractQueryFromURL.statusCode = r.statusCode ∧
      r.extractQueryFromURL.reqState = r.reqState := by
    unfold extractQueryFromURL
    split <;> exact ⟨rfl, rfl⟩
  unfold Request.parseRequestLine
  split
  · exact settled_fail _ (by decide)
  simp only
  split
  · exact settled_fail _ (by decide)
  split
  · split
    · exact settled_fail _ (by decide)
    · exact .inl ⟨(hquery _).1.trans h, (by rintro ⟨⟩)⟩
  · split
    · exact settled_fail _ (by decide)
    split
    · exact settled_fail _ (by decide)
    · refine .inl ⟨(hquery _).1.trans h, ?_⟩
      rw [(hquery _).2]
      exact hstate

theorem Settled.parseHeaderLine (h : q.Settled) (line : Bytes) : (parseHeaderLine line q).Settled := by
  unfold Request.parseHeaderLine
  split
  · exact h
  simp only
  split
  · exact h
  · exact h

theorem Settled.parseLines (h : q.Settled) (lines : List Bytes) {firstLine : Bool}
    (hfirst : firstLine = true → q.reqState ≠ .REQ_ERROR) : (parseLines lines firstLine q).Settled := by
  induction lines generalizing firstLine q with
  | nil => exact h
  | cons line rest ih =>
    rw [Request.parseLines]
    split_ifs with _ hline
    · exact ih h hfirst
    · exact ih (.parseRequestLine (h.status_eq (hfirst hline)) (hfirst hline) line) (by rintro ⟨⟩)
    · exact ih (h.parseHeaderLine line) fun htrue => absurd htrue hline

theorem Settled.typeOfReq (h : q.statusCode = ascii "200") : q.typeOfReq.Settled := by
  unfold Request.typeOfReq
  simp only
  split_ifs
  · exact .inl ⟨h, (by rintro ⟨⟩)⟩
  · exact settled_fail _ (by decide)
  · exact settled_fail _ (by decide)
  · exact .inl ⟨h, (by rintro ⟨⟩)⟩
  · exact .inl ⟨h, (by rintro ⟨⟩)⟩
  · exact .inl ⟨h, (by rintro ⟨⟩)⟩

theorem Settled.parseBlock (h : q.Settled) (hstate : q.reqState ≠ .REQ_ERROR) (block : Bytes) :
    (parseBlock block q).Settled := by
  have hlines : (Request.parseLines (headerLines block) true { q with cookies := ∅ }).Settled :=
    Settled.parseLines (show Settled { q with cookies := ∅ } from h) _ fun _ => hstate
  unfold Request.parseBlock
  simp only
  split_ifs with hread
  · have htype := Settled.typeOfReq (hlines.status_eq hread)
    split
    · exact htype
    · exact htype
  · split
    · exact hlines
    · exact hlines

/-- What a slice does to the state and the status of a request. -/
structure Slice (s s' : Request × World) : Prop where
  contentLength : s'.1.contentLength = s.1.contentLength
  verdict : s'.1.reqState = s.1.reqState ∧ s'.1.statusCode = s.1.statusCode ∨
    s'.1.reqState = .REQ_ERROR ∧ s'.1.statusCode ∈ rejectCodes

instance : IsPreorder (Request × World) Slice where
  refl _ := ⟨rfl, .inl ⟨rfl, rfl⟩⟩
  trans s t u h h' := by
    refine ⟨h'.contentLength.trans h.contentLength, ?_⟩
    rcases h'.verdict with ⟨hstate, hcode⟩ | hrejected
    · rw [hstate, hcode]
      exact h.verdict
    · exact .inr hrejected

theorem Slice.settled {s s' : Request × World} (h : Slice s s') (hs : s.1.Settled) : s'.1.Settled := by
  rcases h.verdict with ⟨hstate, hcode⟩ | ⟨hstate, hcode⟩
  · rw [Settled, hstate, hcode]
    exact hs
  · exact .inr ⟨hcode, hstate⟩

section Slice

variable (sys : Sys)

theorem slice_onBody {α : Type} (m : Method DataStore α) : Moves Slice (onBody m) := fun _ => ⟨rfl, .inl ⟨rfl, rfl⟩⟩

theorem slice_onDecodedBody {α : Type} (m : Method DataStore α) : Moves Slice (onDecodedBody m) :=
  fun _ => ⟨rfl, .inl ⟨rfl, rfl⟩⟩

theorem slice_modObj {f : Request → Request} (h : ∀ q, (f q).contentLength = q.contentLength ∧
    (f q).reqState = q.reqState ∧ (f q).statusCode = q.statusCode) : Moves Slice (modObj f : Method Request Unit) :=
  fun s => ⟨(h s.1).1, .inl (h s.1).2⟩

theorem slice_fail {code : Bytes} (h : code ∈ rejectCodes) : Moves Slice (modObj (·.fail code) : Method Request Unit) :=
  fun _ => ⟨rfl, .inr ⟨rfl, h⟩⟩

theorem slice_decodeLoop (buf : Bytes) (hlen : buf.length < 2 ^ 63) : Moves Slice (decodeLoop sys buf hlen) := by
  induction hn : buf.length using Nat.strong_induction_on generalizing buf with
  | _ n ih =>
    subst hn
    rcases hnext : nextChunk buf with _ | _ | _ | rest | ⟨data, rest⟩
    · rw [decodeLoop_wait sys hnext]
      exact Moves.pure _
    · rw [decodeLoop_outOfRange sys hnext]
      exact Moves.throw _
    · rw [decodeLoop_malformed sys hnext]
      exact (slice_fail (by decide)).bind fun _ => Moves.pure _
    · rw [decodeLoop_last sys hnext]
      refine Moves.bind (slice_modObj ?_) fun _ => Moves.pure _
      exact fun _ => ⟨rfl, rfl, rfl⟩
    · rw [decodeLoop_chunk sys hnext]
      refine (slice_onDecodedBody _).bind fun _ => Moves.obj.bind fun r => Moves.ite (fun _ => ?_) fun _ => ?_
      · exact (slice_fail (by decide)).bind fun _ => Moves.pure _
      · refine Moves.bind (slice_modObj ?_) fun _ => ih _ (length_lt_of_nextChunk hlen hnext) rest _ rfl
        exact fun _ => ⟨rfl, rfl, rfl⟩

theorem slice_processBodySlice : Moves Slice (processBodySlice sys) := by
  refine Moves.obj.bind fun r => Moves.ite (fun _ => Moves.pure _) fun _ => (slice_onBody _).bind fun got => ?_
  refine Moves.bind (slice_modObj ?_) fun _ => ?_
  · exact fun _ => ⟨rfl, rfl, rfl⟩
  split
  swap
  · exact Moves.throw _
  refine Moves.bind (slice_modObj ?_) fun _ => (slice_decodeLoop sys _ _).bind fun done => ?_
  · exact fun _ => ⟨rfl, rfl, rfl⟩
  refine Moves.ite (fun _ => Moves.pure _) fun _ => Moves.obj.bind fun r => Moves.ite (fun _ => ?_) fun _ => Moves.pure _
  refine (slice_onBody _).bind fun _ => Moves.bind (slice_modObj ?_) fun _ => (slice_onBody _).bind fun _ => ?_
  · exact fun _ => ⟨rfl, rfl, rfl⟩
  refine Moves.bind (slice_modObj ?_) fun _ => Moves.pure _
  exact fun _ => ⟨rfl, rfl, rfl⟩

variable {sys} {q' : Request} {w w' : World}

/-- A loop that returns from the function has rejected the body. -/
theorem decodeLoop_true {buf : Bytes} {hlen : buf.length < 2 ^ 63}
    (h : decodeLoop sys buf hlen (q, w) = (.ok true, q', w')) : q'.reqState = .REQ_ERROR := by
  induction hn : buf.length using Nat.strong_induction_on generalizing q w buf with
  | _ n ih =>
    subst hn
    rcases hnext : nextChunk buf with _ | _ | _ | rest | ⟨data, rest⟩
    · rw [decodeLoop_wait sys hnext] at h
      cases h
    · rw [decodeLoop_outOfRange sys hnext] at h
      cases h
    · rw [decodeLoop_malformed sys hnext] at h
      cases h
      rfl
    · rw [decodeLoop_last sys hnext] at h
      cases h
    · rw [decodeLoop_chunk sys hnext] at h
      obtain ⟨_, s, -, h⟩ := Eff.bind_eq_ok.1 h
      rw [Eff.obj_bind] at h
      split at h
      · cases h
        rfl
      · rw [Eff.modObj_bind] at h
        exact ih _ (length_lt_of_nextChunk hlen hnext) h rfl

/-- A loop that is left has rejected nothing. -/
theorem decodeLoop_false {buf : Bytes} {hlen : buf.length < 2 ^ 63}
    (h : decodeLoop sys buf hlen (q, w) = (.ok false, q', w')) : q'.reqState = q.reqState := by
  induction hn : buf.length using Nat.strong_induction_on generalizing q w buf with
  | _ n ih =>
    subst hn
    rcases hnext : nextChunk buf with _ | _ | _ | rest | ⟨data, rest⟩
    · rw [decodeLoop_wait sys hnext] at h
      cases h
      rfl
    · rw [decodeLoop_outOfRange sys hnext] at h
      cases h
    · rw [decodeLoop_malformed sys hnext] at h
      cases h
    · rw [decodeLoop_last sys hnext] at h
      cases h
      rfl
    · rw [decodeLoop_chunk sys hnext] at h
      obtain ⟨_, s, happend, h⟩ := Eff.bind_eq_ok.1 h
      obtain ⟨t, -, rfl⟩ := Eff.on_eq_ok.1 happend
      rw [Eff.obj_bind] at h
      split at h
      · cases h
      · rw [Eff.modObj_bind] at h
        have hrest := ih _ (length_lt_of_nextChunk hlen hnext) h rfl
        exact hrest

theorem processBodySlice_idle (h : q.isBodyProcessed = true) (w : World) :
    processBodySlice sys (q, w) = (.ok true, q, w) := by
  rw [processBodySlice, Eff.obj_bind, if_pos (.inr (.inl h))]
  rfl

/-- A slice that asks for another one has rejected nothing. -/
theorem processBodySlice_false (h : processBodySlice sys (q, w) = (.ok false, q', w')) : q'.reqState = q.reqState := by
  rw [processBodySlice, Eff.obj_bind] at h
  split at h
  · cases h
  obtain ⟨got, s₁, hread, h⟩ := Eff.bind_eq_ok.1 h
  obtain ⟨t₁, -, rfl⟩ := Eff.on_eq_ok.1 hread
  rw [Eff.modObj_bind] at h
  split at h
  swap
  · cases h
  rw [Eff.modObj_bind] at h
  obtain ⟨done, s₂, hloop, h⟩ := Eff.bind_eq_ok.1 h
  split at h
  · cases h
  rename_i hdone
  rw [Bool.not_eq_true] at hdone
  rw [hdone] at hloop
  rw [Eff.obj_bind] at h
  split at h
  · obtain ⟨_, s₃, -, h⟩ := Eff.bind_eq_ok.1 h
    rw [Eff.modObj_bind] at h
    obtain ⟨_, s₄, -, h⟩ := Eff.bind_eq_ok.1 h
    cases h
  · cases h
    have hsame := decodeLoop_false hloop
    exact hsame

/-- A slice that ends with true has decoded the body, or rejected it. -/
theorem processBodySlice_true (hcounted : q.contentLength < 0) (h : processBodySlice sys (q, w) = (.ok true, q', w')) :
    q'.isBodyProcessed = true ∨ q'.reqState = .REQ_ERROR := by
  rw [processBodySlice, Eff.obj_bind] at h
  split at h
  · rename_i hend
    cases h
    rcases hend with hcount | hdone | herror
    · exact absurd hcount (by simpa using hcounted)
    · exact .inl hdone
    · exact .inr herror
  obtain ⟨got, s₁, -, h⟩ := Eff.bind_eq_ok.1 h
  rw [Eff.modObj_bind] at h
  split at h
  swap
  · cases h
  rw [Eff.modObj_bind] at h
  obtain ⟨done, s₂, hloop, h⟩ := Eff.bind_eq_ok.1 h
  split at h
  · rename_i hdone
    cases h
    rw [hdone] at hloop
    exact .inr (decodeLoop_true hloop)
  rw [Eff.obj_bind] at h
  split at h
  · rename_i hprocessed
    obtain ⟨_, s₃, hassign, h⟩ := Eff.bind_eq_ok.1 h
    obtain ⟨t, -, rfl⟩ := Eff.on_eq_ok.1 hassign
    rw [Eff.modObj_bind] at h
    obtain ⟨_, s₄, hreset, h⟩ := Eff.bind_eq_ok.1 h
    obtain ⟨t', -, rfl⟩ := Eff.on_eq_ok.1 hreset
    cases h
    exact .inl hprocessed
  · cases h

end Slice

end Request

/-! ### What a connection does besides its handlers -/

/-- No file was written, no process started or signalled, and no path used but of error pages. -/
structure World.Harmless (w w' : World) : Prop where
  uploads : w'.uploads = w.uploads
  activePids : w'.activePids = w.activePids
  signals : w'.signals = w.signals
  calls : ∃ new, w'.calls = new ++ w.calls ∧ ∀ call ∈ new, ∃ path, call = .errorPage path

instance : IsPreorder World World.Harmless where
  refl _ := ⟨rfl, rfl, rfl, [], rfl, by simp⟩
  trans w w' w'' h h' := by
    obtain ⟨new, hnew, hpages⟩ := h.calls
    obtain ⟨new', hnew', hpages'⟩ := h'.calls
    refine ⟨h'.uploads.trans h.uploads, h'.activePids.trans h.activePids, h'.signals.trans h.signals, new' ++ new, ?_, ?_⟩
    · rw [hnew', hnew, List.append_assoc]
    · intro call hcall
      exact (List.mem_append.1 hcall).elim (hpages' call) (hpages call)

theorem World.Local.harmless {w w' : World} (h : w.Local w') : w.Harmless w' := by
  rw [h]
  exact ⟨rfl, rfl, rfl, [], rfl, by simp⟩

namespace Connection

open Response

/-- The request keeps all but its body, no handler has touched the response, and the world is unharmed. -/
structure Fed (s s' : Connection × World) : Prop where
  request : s'.1.request = { s.1.request with body := s'.1.request.body }
  cachedConfig : s'.1.response.cachedConfig = s.1.response.cachedConfig
  cgiInstance : s'.1.response.cgiInstance = s.1.response.cgiInstance
  world : s.2.Harmless s'.2

instance : IsPreorder (Connection × World) Fed where
  refl s := ⟨rfl, rfl, rfl, refl_of World.Harmless s.2⟩
  trans s t u h h' := by
    refine ⟨?_, h'.cachedConfig.trans h.cachedConfig, h'.cgiInstance.trans h.cgiInstance,
      trans_of World.Harmless h.world h'.world⟩
    rw [h'.request, h.request]

/-- Besides, the connection does not come to process its request. -/
structure Aside (s s' : Connection × World) : Prop extends Fed s s' where
  processing : s'.1.state = .PROCESSING → s.1.state = .PROCESSING

instance : IsPreorder (Connection × World) Aside where
  refl s := ⟨refl_of Fed s, id⟩
  trans _ _ _ h h' := ⟨trans_of Fed h.toFed h'.toFed, h.processing ∘ h'.processing⟩

section Aside

variable (sys : Sys)

theorem fed_onBody {α : Type} {m : Method DataStore α} (h : Moves (OnWorld World.Local) m) :
    Moves Fed (onBody m) := fun s => ⟨rfl, rfl, rfl, World.Local.harmless (h (s.1.request.body, s.2))⟩

theorem aside_modObj {f : Connection → Connection} (h : ∀ c, (f c).request = c.request ∧ (f c).response = c.response ∧
    ((f c).state = .PROCESSING → c.state = .PROCESSING)) : Moves Aside (modObj f : Method Connection Unit) := by
  intro s
  obtain ⟨hrequest, hresponse, hstate⟩ := h s.1
  refine ⟨⟨?_, ?_, ?_, refl_of World.Harmless s.2⟩, hstate⟩
  · rw [Eff.modObj_apply, hrequest]
  · rw [Eff.modObj_apply, hresponse]
  · rw [Eff.modObj_apply, hresponse]

theorem aside_setState {state : ConnectionState} (h : state ≠ .PROCESSING) :
    Moves Aside (modObj (setState state) : Method Connection Unit) :=
  aside_modObj fun _ => ⟨rfl, rfl, fun hs => absurd hs h⟩

theorem aside_onResponse {α : Type} {m : Method Response α}
    (h : ∀ s, (m s).2.1.cachedConfig = s.1.cachedConfig ∧ (m s).2.1.cgiInstance = s.1.cgiInstance ∧ s.2.Harmless (m s).2.2) :
    Moves Aside (onResponse m) := by
  intro s
  obtain ⟨hconfig, hscript, hworld⟩ := h (s.1.response, s.2)
  exact ⟨⟨rfl, hconfig, hscript, hworld⟩, id⟩

theorem aside_updateActivityTimer : Moves Aside updateActivityTimer :=
  Moves.world.bind fun _ => aside_modObj fun _ => ⟨rfl, rfl, id⟩

theorem aside_buildErrorPage (code : Bytes) (config : ServerConf) :
    Moves Aside (onResponse (buildErrorPage sys code config)) := by
  refine aside_onResponse fun s => ?_
  have hfills := buildErrorPage_fills sys code config s
  have hsilent : s.2.Silent (buildErrorPage sys code config s).2.2 := silent_buildErrorPage sys code config s
  obtain ⟨-, -, hcalls⟩ := builds_buildErrorPage (P := fun call => ∃ path, call = .errorPage path) sys
    (fun path => ⟨path, rfl⟩) code config s
  rw [Fills] at hfills
  refine ⟨by rw [hfills]; rfl, by rw [hfills]; rfl, ?_⟩
  rw [World.Silent] at hsilent
  refine ⟨by rw [hsilent], by rw [hsilent], by rw [hsilent], hcalls⟩

theorem aside_triggerError (code : Int) : Moves Aside (triggerError sys code) := by
  refine Moves.obj.bind fun c => ?_
  rcases c.serverConf with _ | conf
  · refine Moves.bind (aside_onResponse fun s => ?_) fun _ => aside_setState (by decide)
    exact ⟨rfl, rfl, refl_of World.Harmless s.2⟩
  · exact (aside_buildErrorPage sys _ conf).bind fun _ => aside_setState (by decide)

theorem aside_onException (e : Exn) : Moves Aside (onException sys e) := by
  cases e with
  | client code _ => exact aside_triggerError sys code
  | runtime _ => exact aside_triggerError sys 500
  | fatal | execed => exact Moves.throw _

theorem aside_sendSlice (fd : Nat) : Moves Aside (onResponse (sendSlice sys fd)) := by
  refine aside_onResponse fun s => ?_
  obtain ⟨hsent, hworld, -⟩ := sendsOnly_sendSlice sys fd s
  rw [Sent] at hsent
  refine ⟨by rw [hsent], by rw [hsent], ?_⟩
  rw [hworld]
  exact ⟨rfl, rfl, rfl, [], rfl, by simp⟩

theorem aside_handleWrite : Moves Aside (handleWrite sys) := by
  refine Moves.obj.bind fun c => Moves.ite (fun _ => Moves.pure _) fun _ => aside_updateActivityTimer.bind fun _ => ?_
  refine Moves.obj.bind fun c => (aside_sendSlice sys _).bind fun done => Moves.ite (fun _ => ?_) fun _ => Moves.pure _
  exact aside_setState (by decide)

end Aside

/-! ### Reading -/

section Reading

variable (sys : Sys)

theorem fed_modObj {f : Connection → Connection}
    (h : ∀ c, (f c).request = c.request ∧ (f c).response = c.response) : Moves Fed (modObj f : Method Connection Unit) := by
  intro s
  obtain ⟨hrequest, hresponse⟩ := h s.1
  refine ⟨?_, ?_, ?_, refl_of World.Harmless s.2⟩
  · rw [Eff.modObj_apply, hrequest]
  · rw [Eff.modObj_apply, hresponse]
  · rw [Eff.modObj_apply, hresponse]

theorem fed_done : Moves Fed (modObj (setState .PROCESSING) : Method Connection Unit) := fed_modObj fun _ => ⟨rfl, rfl⟩

theorem fed_append (data : Bytes) : Moves Fed (onBody (DataStore.append sys data)) :=
  fed_onBody (DataStore.moves_append sys data)

theorem fed_takeLeftover (leftover : Bytes) : Moves Fed (takeLeftover sys leftover) := by
  refine Moves.ite (fun _ => Moves.pure _) fun _ => (fed_append sys leftover).bind fun _ => Moves.obj.bind fun c => ?_
  exact Moves.ite (fun _ => fed_done) fun _ => Moves.ite (fun _ => fed_done) fun _ => Moves.pure _

theorem fed_readBody (buf : Bytes) : Moves Fed (readBody sys buf) :=
  (fed_append sys buf).bind fun _ => Moves.obj.bind fun _ => Moves.ite (fun _ => fed_done) fun _ => Moves.pure _

theorem fed_readChunked (buf : Bytes) : Moves Fed (readChunked sys buf) :=
  (fed_append sys buf).bind fun _ => Moves.ite (fun _ => fed_done) fun _ => Moves.pure _

end Reading

/-! ### The runs of a connection -/

/-- What the server does with a connection. `process` and the handlers for its exceptions are two events;
`script` is all that happens to the response while the pipe of its script is known. -/
inductive Event
  | recv (r : RecvResult)
  | rewind
  | process
  | failed (e : Exn)
  | write
  | timeOut
  | script (m : Method Response Bool)

/-- The code of an event. -/
def Event.run (sys : Sys) : Event → Method Connection Unit
  | .recv r => handleRead sys r
  | .rewind => onBody (DataStore.resetReadPosition sys)
  | .process => do
    if (← obj).state ≠ .PROCESSING then return ()
    updateActivityTimer
    processBody sys
  | .failed e => onException sys e
  | .write => handleWrite sys
  | .timeOut => triggerError sys 408
  | .script m => do
    if (← obj).getCgiPipeFd = none then return ()
    if ← onResponse m then modObj (setState .WRITING)

/-- A run: the events of the connection `c₀`, each with the world before and after it, latest first. Between
them the world may change in any way. -/
inductive Run (sys : Sys) (c₀ : Connection) : Connection → World → List (World × World) → Prop
  | start {w : World} : Run sys c₀ c₀ w []
  | elsewhere {c : Connection} {w : World} {steps : List (World × World)} (w' : World) :
      Run sys c₀ c w steps → Run sys c₀ c w' steps
  | event {c c' : Connection} {w w' : World} {steps : List (World × World)} {e : Event} {r : Except Exn Unit} :
      Run sys c₀ c w steps → e.run sys (c, w) = (r, c', w') → Run sys c₀ c' w' ((w, w') :: steps)

variable {sys : Sys} {c₀ c c' : Connection} {w w' : World} {steps : List (World × World)}

theorem Run.next (h : Run sys c₀ c w steps) (e : Event) :
    Run sys c₀ (e.run sys (c, w)).2.1 (e.run sys (c, w)).2.2 ((w, (e.run sys (c, w)).2.2) :: steps) := .event h rfl

/-- `process` and its handlers are events. -/
theorem Run.process (h : Run sys c₀ c w steps) {r : Except Exn Unit} (hrun : process sys (c, w) = (r, c', w')) :
    ∃ steps', Run sys c₀ c' w' (steps' ++ steps) := by
  by_cases hs : c.state = .PROCESSING
  swap
  · rw [process_idle hs] at hrun
    cases hrun
    exact ⟨[], h⟩
  have hevent : Event.run sys .process (c, w) = processBody sys ({ c with lastActivity := w.now }, w) := by
    rw [Event.run, Eff.obj_bind, if_neg (not_not.2 hs)]
    rfl
  rw [process_eq hs, Eff.tryCatch_apply] at hrun
  rcases hbody : processBody sys ({ c with lastActivity := w.now }, w) with ⟨e | u, c₁, w₁⟩ <;> rw [hbody] at hrun
  · exact ⟨[(w₁, w'), (w, w₁)], .event (e := .failed e) (.event (e := .process) h (hevent.trans hbody)) hrun⟩
  · cases hrun
    exact ⟨[(w, w')], .event (e := .process) h (hevent.trans hbody)⟩

/-- The request may still be rejected, or is. -/
def Pending (q : Request) : Prop :=
  q.reqState = .REQ_HEADERS ∨ q.reqState = .REQ_ERROR ∨ q.reqState = .REQ_CHUNKED ∧ q.isBodyProcessed = false

/-- No handler has run: `buildResponse`, which calls them, has not stored its configuration. -/
structure Untouched (c : Connection) (steps : List (World × World)) : Prop where
  cachedConfig : c.response.cachedConfig = none
  cgiInstance : c.response.cgiInstance = none
  steps : ∀ s ∈ steps, World.Harmless s.1 s.2

structure Inv (c : Connection) (steps : List (World × World)) : Prop where
  settled : c.request.Settled
  counted : c.request.reqState = .REQ_CHUNKED → c.request.contentLength < 0
  processing : c.state = .PROCESSING → c.request.reqState ≠ .REQ_HEADERS
  untouched : Pending c.request → Untouched c steps

theorem Untouched.fed (h : Untouched c steps) (hfed : Fed (c, w) (c', w')) : Untouched c' ((w, w') :: steps) := by
  refine ⟨hfed.cachedConfig.trans h.cachedConfig, hfed.cgiInstance.trans h.cgiInstance, fun s hs => ?_⟩
  rcases List.mem_cons.1 hs with rfl | hs
  · exact hfed.world
  · exact h.steps s hs

theorem Fed.reqState_eq {s s' : Connection × World} (h : Fed s s') : s'.1.request.reqState = s.1.request.reqState := by
  rw [h.request]

theorem Inv.fed (h : Inv c steps) (hfed : Fed (c, w) (c', w'))
    (hstate : c'.state = .PROCESSING → c'.request.reqState ≠ .REQ_HEADERS) : Inv c' ((w, w') :: steps) := by
  have hrequest : c'.request = { c.request with body := c'.request.body } := hfed.request
  refine ⟨?_, ?_, hstate, fun hpending => ?_⟩
  · rw [hrequest]
    exact h.settled
  · rw [hrequest]
    exact h.counted
  · rw [hrequest] at hpending
    exact (h.untouched hpending).fed hfed

theorem Inv.aside (h : Inv c steps) (haside : Aside (c, w) (c', w')) : Inv c' ((w, w') :: steps) := by
  refine h.fed haside.toFed fun hstate => ?_
  have hreq : c'.request.reqState = c.request.reqState := haside.toFed.reqState_eq
  rw [hreq]
  exact h.processing (haside.processing hstate)

/-! ### What a step keeps -/

/-- The header block of a request that is read. -/
theorem parseHeaders_settled {q : Request} (h : q.Settled) (hstate : q.reqState = .REQ_HEADERS) (raw : Bytes) :
    (Request.parseHeaders raw q).2.Settled ∧ ((Request.parseHeaders raw q).2.reqState = .REQ_CHUNKED →
      (Request.parseHeaders raw q).2.contentLength < 0) := by
  unfold Request.parseHeaders
  split
  · exact ⟨h, fun hchunked => by rw [hstate] at hchunked; cases hchunked⟩
  · refine ⟨h.parseBlock (by rw [hstate]; rintro ⟨⟩) _, fun hchunked => ?_⟩
    rw [Request.contentLength_parseBlock hchunked]
    decide

/-- What a read does to the connection. -/
inductive ReadStep (sys : Sys) (c : Connection) (w : World) (r : Except Exn Unit) (c' : Connection) (w' : World) : Prop
  | aside : Aside (c, w) (c', w') → ReadStep sys c w r c' w'
  | body : c.request.reqState ≠ .REQ_HEADERS → Fed (c, w) (c', w') → ReadStep sys c w r c' w'
  | rejected (c₁ : Connection) (raw : Bytes) : c.request.reqState = .REQ_HEADERS → c₁.state = .READING →
      c₁.response = c.response → c₁.request = (Request.parseHeaders raw c.request).2 →
      c₁.request.reqState = .REQ_ERROR → triggerError sys (atoi c₁.request.statusCode) (c₁, w) = (r, c', w') →
      ReadStep sys c w r c' w'
  | parsed (c₁ : Connection) (raw : Bytes) : c.request.reqState = .REQ_HEADERS → c₁.state = .READING →
      c₁.response = c.response → c₁.request = (Request.parseHeaders raw c.request).2 →
      c₁.request.reqState ≠ .REQ_ERROR → Fed (c₁, w) (c', w') →
      (c'.state = .PROCESSING → c₁.request.reqState ≠ .REQ_HEADERS) → ReadStep sys c w r c' w'

theorem readHeaders_cases (hq : c.request.reqState = .REQ_HEADERS) (hs : c.state = .READING) {buf : Bytes}
    {r : Except Exn Unit} (hrun : readHeaders sys buf (c, w) = (r, c', w')) : ReadStep sys c w r c' w' := by
  rw [readHeaders, Eff.modObj_bind, Eff.obj_bind] at hrun
  split at hrun
  · have haside := aside_triggerError sys 431 ({ c with readBuffer := c.readBuffer ++ buf }, w)
    rw [hrun] at haside
    exact .aside ⟨⟨haside.request, haside.cachedConfig, haside.cgiInstance, haside.world⟩, haside.processing⟩
  rw [Eff.obj_bind, Eff.modObj_bind] at hrun
  obtain ⟨q, hparsed⟩ : ∃ q, q = (Request.parseHeaders (c.readBuffer ++ buf) c.request).2 := ⟨_, rfl⟩
  simp only [← hparsed] at hrun
  have hmore {b : Bytes} {m : Method Connection Unit} (hm : Moves Fed m) (hne : q.reqState ≠ .REQ_HEADERS)
      (herr : q.reqState ≠ .REQ_ERROR) (hrun : m ({ c with request := q, readBuffer := b }, w) = (r, c', w')) :
      ReadStep sys c w r c' w' := by
    have hfed := hm ({ c with request := q, readBuffer := b }, w)
    rw [hrun] at hfed
    exact .parsed { c with request := q, readBuffer := b } (c.readBuffer ++ buf) hq hs rfl hparsed herr hfed fun _ => hne
  rcases hstate : q.reqState with _ | _ | _ | _ | _ <;> simp only [hstate] at hrun
  · -- the block is not complete
    cases hrun
    refine .parsed { c with request := q, readBuffer := c.readBuffer ++ buf } (c.readBuffer ++ buf) hq hs rfl hparsed
      (by rw [hstate]; rintro ⟨⟩) (refl_of Fed _) ?_
    intro hprocessing
    rw [show c.state = .PROCESSING from hprocessing] at hs
    cases hs
  · exact hmore (fed_takeLeftover sys _) (by rw [hstate]; rintro ⟨⟩) (by rw [hstate]; rintro ⟨⟩) hrun
  · exact hmore (fed_takeLeftover sys _) (by rw [hstate]; rintro ⟨⟩) (by rw [hstate]; rintro ⟨⟩) hrun
  · -- there is no body
    exact hmore (b := []) fed_done (by rw [hstate]; rintro ⟨⟩) (by rw [hstate]; rintro ⟨⟩) hrun
  · exact .rejected { c with request := q, readBuffer := c.readBuffer ++ buf } (c.readBuffer ++ buf) hq hs rfl hparsed hstate hrun

theorem handleRead_cases {recv : RecvResult} {r : Except Exn Unit}
    (hrun : handleRead sys recv (c, w) = (r, c', w')) : ReadStep sys c w r c' w' := by
  by_cases hs : c.state = .READING
  swap
  · rw [handleRead_idle hs] at hrun
    cases hrun
    exact .aside (refl_of Aside _)
  have hread := hrun
  unfold Connection.handleRead at hrun
  rw [Eff.obj_bind, if_neg (not_not.2 hs)] at hrun
  have hfinished : Aside (c, w) ({ c with state := .FINISHED }, w) :=
    aside_setState (by decide : ConnectionState.FINISHED ≠ .PROCESSING) (c, w)
  rcases recv with _ | _ | ⟨b, data⟩
  · cases hrun
    exact .aside hfinished
  · cases hrun
    exact .aside hfinished
  obtain ⟨c₁, hc₁⟩ : ∃ c₁, c₁ = { c with lastActivity := w.now, totalBytesRead := c.totalBytesRead + (b :: data).length } :=
    ⟨_, rfl⟩
  have hrequest : c₁.request = c.request := by rw [hc₁]
  have hresponse : c₁.response = c.response := by rw [hc₁]
  have hstate : c₁.state = c.state := by rw [hc₁]
  replace hrun := hread
  rw [Connection.handleRead_reading hs (List.cons_ne_nil b data), show Connection.received (b :: data) w c = c₁ from hc₁.symm] at hrun
  have hfrom {c' : Connection} {w' : World} (h : Fed (c₁, w) (c', w')) : Fed (c, w) (c', w') := by
    obtain ⟨hreq, hconfig, hscript, hworld⟩ := h
    exact ⟨hreq.trans (by rw [hrequest]), hconfig.trans (by rw [hresponse]), hscript.trans (by rw [hresponse]), hworld⟩
  have hmore {m : Method Connection Unit} (hm : Moves Fed m) (hne : c.request.reqState ≠ .REQ_HEADERS)
      (hrun : m (c₁, w) = (r, c', w')) : ReadStep sys c w r c' w' := by
    have hfed := hm (c₁, w)
    rw [hrun] at hfed
    exact .body hne (hfrom hfed)
  rcases hq : c.request.reqState with _ | _ | _ | _ | _ <;> simp only [hq] at hrun
  · rcases readHeaders_cases (hrequest ▸ hq) (hstate.trans hs) hrun with haside | ⟨hne, hfed⟩ |
      ⟨_, raw, hheaders, hreading, hres, hparse, herr, hrun⟩ | ⟨_, raw, hheaders, hreading, hres, hparse, herr, hfed, hnext⟩
    · exact .aside ⟨hfrom haside.toFed, fun hp => hstate ▸ haside.processing hp⟩
    · exact absurd (hrequest ▸ hq) hne
    · exact .rejected _ raw hq hreading (hres.trans hresponse) (hrequest ▸ hparse) herr hrun
    · exact .parsed _ raw hq hreading (hres.trans hresponse) (hrequest ▸ hparse) herr hfed hnext
  · exact hmore (fed_readBody sys _) (by rw [hq]; rintro ⟨⟩) hrun
  · exact hmore (fed_readChunked sys _) (by rw [hq]; rintro ⟨⟩) hrun
  · exact hmore (Moves.pure ()) (by rw [hq]; rintro ⟨⟩) hrun
  · exact hmore (Moves.pure ()) (by rw [hq]; rintro ⟨⟩) hrun

/-- The header block of a request is read. -/
theorem Inv.parse (h : Inv c steps) {c₁ : Connection} {raw : Bytes} (hq : c.request.reqState = .REQ_HEADERS)
    (hs : c₁.state = .READING) (hres : c₁.response = c.response)
    (hreq : c₁.request = (Request.parseHeaders raw c.request).2) : Inv c₁ steps := by
  obtain ⟨hsettled, hcounted⟩ := parseHeaders_settled h.settled hq raw
  rw [← hreq] at hsettled hcounted
  have hclean := h.untouched (.inl hq)
  refine ⟨hsettled, hcounted, fun hstate => ?_, fun _ => ⟨hres ▸ hclean.cachedConfig, hres ▸ hclean.cgiInstance, hclean.steps⟩⟩
  rw [hstate] at hs
  cases hs

theorem Inv.handleRead (h : Inv c steps) {recv : RecvResult} {r : Except Exn Unit}
    (hrun : handleRead sys recv (c, w) = (r, c', w')) : Inv c' ((w, w') :: steps) := by
  rcases handleRead_cases hrun with haside | ⟨hne, hfed⟩ | ⟨c₁, raw, hq, hs, hres, hreq, herr, hrun⟩ |
    ⟨c₁, raw, hq, hs, hres, hreq, herr, hfed, hnext⟩
  · exact h.aside haside
  · refine h.fed hfed fun _ => ?_
    rw [hfed.reqState_eq]
    exact hne
  · have haside := aside_triggerError sys (atoi c₁.request.statusCode) (c₁, w)
    rw [hrun] at haside
    exact (h.parse hq hs hres hreq).aside haside
  · refine (h.parse hq hs hres hreq).fed hfed fun hstate => ?_
    rw [hfed.reqState_eq]
    exact hnext hstate

/-! ### Processing -/

/-- A handler keeps the request but its body. -/
def KeepsRequest (s s' : Exchange × World) : Prop := s'.1.1 = { s.1.1 with body := s'.1.1.body }

instance : IsPreorder (Exchange × World) KeepsRequest where
  refl _ := rfl
  trans s t u h h' := by
    rw [KeepsRequest] at h h' ⊢
    rw [h', h]

section KeepsRequest

variable (sys : Sys)

theorem keepsRequest_onRes {α : Type} (m : Method Response α) : Moves KeepsRequest (onRes m) := fun _ => rfl

theorem keepsRequest_onBody {α : Type} (m : Method DataStore α) : Moves KeepsRequest (onReq (Request.onBody m)) :=
  fun _ => rfl

theorem keepsRequest_answer (m : Method Response Unit) :
    Moves KeepsRequest (do onRes m; return true : Method Exchange Bool) :=
  (keepsRequest_onRes m).bind fun _ => Moves.pure _

theorem keepsRequest_writePostSlice : Moves KeepsRequest (writePostSlice sys) := by
  refine Moves.obj.bind fun x => Moves.ite (fun _ => ?_) fun _ => ?_
  · refine Moves.ite (fun _ => (keepsRequest_onRes _).bind fun written => ?_) fun _ => Moves.pure _
    rcases written with _ | _ | k
    · exact Moves.pure _
    · exact Moves.pure _
    · exact (keepsRequest_onRes _).bind fun _ => Moves.pure _
  · refine (keepsRequest_onBody _).bind fun buf => ?_
    have hrest (ok : Bool) : Moves KeepsRequest (do
        if ok then
          let body := (← obj).1.body
          return some (body.getSize ≤ body.getReadPosition)
        else return none : Method Exchange (Option Bool)) :=
      Moves.ite (fun _ => Moves.obj.bind fun _ => Moves.pure _) fun _ => Moves.pure _
    refine Moves.ite (fun _ => (Moves.pure _).bind hrest) fun _ => ?_
    exact (keepsRequest_onRes _).bind fun _ => (Moves.pure _).bind hrest

theorem keepsRequest_continuePostWrite : Moves KeepsRequest (continuePostWrite sys) := by
  refine (keepsRequest_onRes _).bind fun _ => (keepsRequest_writePostSlice sys).bind fun last => ?_
  rcases last with _ | _ | _
  · exact keepsRequest_answer _
  · exact Moves.pure _
  · exact keepsRequest_answer _

theorem keepsRequest_handlePost (loc : LocationConf) (config : ServerConf) : Moves KeepsRequest (handlePost sys loc config) := by
  refine Moves.obj.bind fun x => (keepsRequest_onRes _).bind fun _ => Moves.ite (fun _ => keepsRequest_answer _) fun _ => ?_
  refine Moves.world.bind fun w => (keepsRequest_onRes _).bind fun file => ?_
  rcases file with _ | f
  · exact keepsRequest_answer _
  refine (keepsRequest_onRes _).bind fun _ => Moves.obj.bind fun x => Moves.ite (fun _ => ?_) fun _ => ?_
  · exact (keepsRequest_onBody _).bind fun _ => keepsRequest_continuePostWrite sys
  · exact keepsRequest_continuePostWrite sys

theorem keepsRequest_prepareCgiInput : Moves KeepsRequest (prepareCgiInput sys) := by
  refine Moves.obj.bind fun x => Moves.ite (fun _ => ?_) fun _ => ?_
  · exact (keepsRequest_onBody _).bind fun _ => Moves.obj.bind fun _ =>
      Moves.ite (fun _ => keepsRequest_onBody _) fun _ => Moves.pure _
  · exact Moves.obj.bind fun _ => Moves.ite (fun _ => keepsRequest_onBody _) fun _ => Moves.pure _

theorem keepsRequest_handleCGI (loc : LocationConf) (config : ServerConf) : Moves KeepsRequest (handleCGI sys loc config) := by
  refine Moves.obj.bind fun x => (keepsRequest_onRes _).bind fun _ => Moves.ite (fun _ => keepsRequest_answer _) fun _ => ?_
  refine (keepsRequest_onRes _).bind fun st => Moves.ite (fun _ => keepsRequest_answer _) fun _ => ?_
  refine (keepsRequest_prepareCgiInput sys).bind fun _ => Moves.obj.bind fun x => (keepsRequest_onRes _).bind fun _ => ?_
  refine (keepsRequest_onRes _).bind fun started => Moves.ite (fun _ => ?_) fun _ => Moves.pure _
  exact (keepsRequest_onRes _).bind fun _ => Moves.pure _

theorem keepsRequest_buildResponse (config : ServerConf) : Moves KeepsRequest (buildResponse sys config) := by
  refine Moves.obj.bind fun x => Moves.ite (fun _ => keepsRequest_continuePostWrite sys) fun _ => ?_
  refine Moves.ite (fun _ => Moves.pure _) fun _ => (keepsRequest_onRes _).bind fun _ => ?_
  refine Moves.ite (fun _ => keepsRequest_answer _) fun _ => ?_
  rcases matchLocation x.1.URL config with _ | loc
  · exact keepsRequest_answer _
  refine Moves.ite (fun _ => keepsRequest_answer _) fun _ => Moves.ite (fun _ => keepsRequest_answer _) fun _ => ?_
  refine Moves.ite (fun _ => keepsRequest_handleCGI sys loc config) fun _ => ?_
  rcases x.1.methodName
  · exact keepsRequest_answer _
  · exact keepsRequest_answer _
  · exact keepsRequest_handlePost sys loc config
  · exact keepsRequest_answer _

end KeepsRequest

theorem triggerError_shows {code : Int} (h : triggerError sys code (c, w) = (.ok (), c', w')) :
    c'.state = .WRITING ∧ c'.response.statusCode = decimalInt code ∧ c'.request = c.request := by
  rw [triggerError, Eff.obj_bind] at h
  rcases hconf : c.serverConf with _ | conf <;> simp only [hconf] at h
  · obtain ⟨_, s, hset, h⟩ := Eff.bind_eq_ok.1 h
    cases hset
    cases h
    exact ⟨rfl, rfl, rfl⟩
  · obtain ⟨_, s, hon, h⟩ := Eff.bind_eq_ok.1 h
    obtain ⟨t, hpage, rfl⟩ := Eff.on_eq_ok.1 hon
    cases h
    have hshown := buildErrorPage_shown sys (decimalInt code) conf (c.response, w)
    rw [show buildErrorPage sys (decimalInt code) conf (c.response, w) = (.ok _, t) from hpage] at hshown
    exact ⟨rfl, hshown.2, rfl⟩

/-- Two steps are one. -/
theorem Inv.merge {w₁ : World} (h : Inv c ((w₁, w') :: (w, w₁) :: steps)) : Inv c ((w, w') :: steps) := by
  refine ⟨h.settled, h.counted, h.processing, fun hpending => ?_⟩
  obtain ⟨hconfig, hscript, hsteps⟩ := h.untouched hpending
  refine ⟨hconfig, hscript, fun s hs => ?_⟩
  rcases List.mem_cons.1 hs with rfl | hs
  · have hsecond : World.Harmless w₁ w' := hsteps _ List.mem_cons_self
    have hfirst : World.Harmless w w₁ := hsteps _ (List.mem_cons_of_mem _ List.mem_cons_self)
    exact trans_of World.Harmless hfirst hsecond
  · exact hsteps s (List.mem_cons_of_mem _ (List.mem_cons_of_mem _ hs))

/-- The request keeps its state, and it can no longer be rejected. -/
theorem Inv.handled (h : Inv c steps) (hpending : ¬ Pending c.request)
    (hreq : c'.request = { c.request with body := c'.request.body }) : Inv c' ((w, w') :: steps) := by
  have hstate : c'.request.reqState = c.request.reqState := by rw [hreq]
  have hdecoded : c'.request.isBodyProcessed = c.request.isBodyProcessed := by rw [hreq]
  refine ⟨?_, ?_, fun _ hheaders => hpending (.inl (hstate ▸ hheaders)), fun hp => absurd ?_ hpending⟩
  · rw [hreq]
    exact h.settled
  · rw [hreq]
    exact h.counted
  · rw [Pending, hstate, hdecoded] at hp
    exact hp

/-- The connection keeps its request but the body. -/
def SameRequest (s s' : Connection × World) : Prop := s'.1.request = { s.1.request with body := s'.1.request.body }

instance : IsPreorder (Connection × World) SameRequest where
  refl _ := rfl
  trans s t u h h' := by
    rw [SameRequest] at h h' ⊢
    rw [h', h]

/-- The answer of a handler. -/
theorem sameRequest_respond (sys : Sys) (w : World) (hstatus : c.request.statusCode = ascii "200") :
    SameRequest (c, w) (respond sys (c, w)).2 := by
  rw [respond, Eff.obj_bind, if_neg (not_not.2 hstatus)]
  rcases c.serverConf with _ | conf
  · exact (aside_triggerError sys 500 (c, w)).request
  have hset (state : ConnectionState) : Moves SameRequest (modObj (setState state) : Method Connection Unit) := fun _ => rfl
  have hbuild : Moves SameRequest (onExchange (Response.buildResponse sys conf)) :=
    (keepsRequest_buildResponse sys conf).on fun _ _ h => h
  refine Moves.bind hbuild (fun complete => Moves.ite (fun _ => hset _) fun _ => ?_) (c, w)
  exact Moves.obj.bind fun _ => Moves.ite (fun _ => hset _) fun _ => Moves.pure _

theorem sameRequest_script (sys : Sys) (m : Method Response Bool) : Moves SameRequest (Event.run sys (.script m)) := by
  have hanswer : Moves SameRequest (onResponse m) := fun _ => rfl
  have hset : Moves SameRequest (modObj (setState .WRITING) : Method Connection Unit) := fun _ => rfl
  exact Moves.obj.bind fun _ => Moves.ite (fun _ => Moves.pure _) fun _ => hanswer.bind fun _ =>
    Moves.ite (fun _ => hset) fun _ => Moves.pure _

/-- A decoded request is answered: by a page for its status, or by a handler. -/
theorem Inv.respond (h : Inv c steps) (hstate : c.request.reqState ≠ .REQ_HEADERS)
    (hdecoded : c.request.reqState = .REQ_CHUNKED → c.request.isBodyProcessed = true) {r : Except Exn Unit}
    (hrun : respond sys (c, w) = (r, c', w')) : Inv c' ((w, w') :: steps) := by
  by_cases hstatus : c.request.statusCode = ascii "200"
  · have hsame := sameRequest_respond sys w hstatus
    rw [hrun] at hsame
    refine h.handled ?_ hsame
    rintro (hheaders | herror | ⟨hchunked, hnot⟩)
    · exact hstate hheaders
    · exact h.settled.status_iff.2 herror hstatus
    · rw [hdecoded hchunked] at hnot
      cases hnot
  · have haside := aside_triggerError sys (atoi c.request.statusCode) (c, w)
    rw [Connection.respond, Eff.obj_bind, if_pos hstatus] at hrun
    rw [hrun] at haside
    exact h.aside haside

/-- The request after a slice. -/
theorem Inv.slice (h : Inv c steps) (hchunked : c.request.reqState = .REQ_CHUNKED) {r : Except Exn Bool} {q : Request}
    (hrun : Request.processBodySlice sys (c.request, w) = (r, q, w')) :
    Inv { c with request := q } ((w, w') :: steps) := by
  by_cases hdecoded : c.request.isBodyProcessed = true
  · rw [Request.processBodySlice_idle hdecoded] at hrun
    cases hrun
    exact h.aside (refl_of Aside _)
  have hslice := Request.slice_processBodySlice sys (c.request, w)
  have hworld : World.Local w (Request.processBodySlice sys (c.request, w)).2.2 :=
    Request.moves_processBodySlice sys (c.request, w)
  rw [hrun] at hslice hworld
  have hclean := h.untouched (.inr (.inr ⟨hchunked, Bool.not_eq_true _ ▸ hdecoded⟩))
  refine ⟨hslice.settled h.settled, fun _ => ?_, fun _ => ?_, fun _ => ?_⟩
  · rw [show q.contentLength = c.request.contentLength from hslice.contentLength]
    exact h.counted hchunked
  · show q.reqState ≠ .REQ_HEADERS
    rcases hslice.verdict with ⟨hstate, -⟩ | ⟨hstate, -⟩
    · rw [show q.reqState = c.request.reqState from hstate, hchunked]
      exact (nomatch ·)
    · rw [show q.reqState = .REQ_ERROR from hstate]
      exact (nomatch ·)
  · refine ⟨hclean.cachedConfig, hclean.cgiInstance, fun s hs => ?_⟩
    rcases List.mem_cons.1 hs with rfl | hs
    · exact hworld.harmless
    · exact hclean.steps s hs

theorem Inv.processBody (h : Inv c steps) (hs : c.state = .PROCESSING) {r : Except Exn Unit}
    (hrun : processBody sys (c, w) = (r, c', w')) : Inv c' ((w, w') :: steps) := by
  rw [processBody_eq, Eff.obj_bind] at hrun
  split at hrun
  swap
  · rename_i hchunked
    exact h.respond (h.processing hs) (fun hstate => absurd hstate hchunked) hrun
  rename_i hchunked
  rcases hslice : Request.processBodySlice sys (c.request, w) with ⟨e | decoded, q, w₁⟩
  · have hon : onRequest (Request.processBodySlice sys) (c, w) = (.error e, { c with request := q }, w₁) := Eff.on_eq hslice
    rw [Eff.bind_error hon] at hrun
    cases hrun
    exact h.slice hchunked hslice
  have hon : onRequest (Request.processBodySlice sys) (c, w) = (.ok decoded, { c with request := q }, w₁) := Eff.on_eq hslice
  rw [Eff.bind_ok hon] at hrun
  have hinv := h.slice hchunked hslice
  cases decoded with
  | false =>
    cases hrun
    exact hinv
  | true =>
    refine (hinv.respond (hinv.processing hs) (fun hstate => ?_) hrun).merge
    rcases Request.processBodySlice_true (h.counted hchunked) hslice with hdone | herror
    · exact hdone
    · rw [show q.reqState = .REQ_CHUNKED from hstate] at herror
      cases herror

theorem Inv.step (h : Inv c steps) {e : Event} {r : Except Exn Unit} (hrun : e.run sys (c, w) = (r, c', w')) :
    Inv c' ((w, w') :: steps) := by
  have haside {m : Method Connection Unit} (hm : Moves Aside m) (hrun : m (c, w) = (r, c', w')) :
      Inv c' ((w, w') :: steps) := by
    have hmoved := hm (c, w)
    rw [hrun] at hmoved
    exact h.aside hmoved
  cases e with
  | recv data => exact h.handleRead hrun
  | rewind =>
    have hfed : Fed (c, w) (Event.run sys .rewind (c, w)).2 := fed_onBody (DataStore.moves_resetReadPosition sys) (c, w)
    have hkept : (Event.run sys .rewind (c, w)).2.1.state = c.state := rfl
    rw [hrun] at hfed hkept
    refine h.fed hfed fun hstate => ?_
    rw [hfed.reqState_eq]
    exact h.processing (hkept ▸ hstate)
  | process =>
    rw [Event.run, Eff.obj_bind] at hrun
    split at hrun
    · cases hrun
      exact h.aside (refl_of Aside _)
    rename_i hs
    have htimer : Inv { c with lastActivity := w.now } steps :=
      ⟨h.settled, h.counted, h.processing, fun hp => ⟨(h.untouched hp).cachedConfig, (h.untouched hp).cgiInstance,
        (h.untouched hp).steps⟩⟩
    exact htimer.processBody (not_not.1 hs) hrun
  | failed e => exact haside (aside_onException sys e) hrun
  | write => exact haside (aside_handleWrite sys) hrun
  | timeOut => exact haside (aside_triggerError sys 408) hrun
  | script m =>
    by_cases hpipe : c.getCgiPipeFd = none
    · rw [Event.run, Eff.obj_bind, if_pos hpipe] at hrun
      cases hrun
      exact h.aside (refl_of Aside _)
    have hsame := sameRequest_script sys m (c, w)
    rw [hrun] at hsame
    refine h.handled (fun hp => hpipe ?_) hsame
    rw [getCgiPipeFd, getCgiOutputFd, (h.untouched hp).cgiInstance]
    rfl

theorem Inv.new (fd : Nat) (conf : Option ServerConf) (now : Nat) : Inv (new fd conf now) [] where
  settled := .inl ⟨rfl, (nomatch ·)⟩
  counted := (nomatch ·)
  processing := (nomatch ·)
  untouched _ := ⟨rfl, rfl, fun _ hs => absurd hs List.not_mem_nil⟩

theorem Run.inv {fd now : Nat} {conf : Option ServerConf} (h : Run sys (Connection.new fd conf now) c w steps) :
    Inv c steps := by
  induction h with
  | start => exact .new fd conf now
  | elsewhere _ _ ih => exact ih
  | event _ hrun ih => exact ih.step hrun

/-! ### The answer -/

theorem SameRequest.not_rejected (h : SameRequest (c, w) (c', w')) (hne : c.request.reqState ≠ .REQ_ERROR) :
    c'.request.reqState ≠ .REQ_ERROR := by
  rw [h]
  exact hne

/-- The page for the status of a rejected request. -/
theorem Inv.shows {c₁ : Connection} (h : Inv c₁ steps) (herror : c₁.request.reqState = .REQ_ERROR)
    (hrun : triggerError sys (atoi c₁.request.statusCode) (c₁, w) = (.ok (), c', w')) :
    c'.state = .WRITING ∧ c'.response.statusCode = c'.request.statusCode := by
  obtain ⟨hstate, hcode, hreq⟩ := triggerError_shows hrun
  rw [hcode, hreq, Request.decimalInt_atoi (h.settled.mem herror)]
  exact ⟨hstate, rfl⟩

theorem Inv.respond_shows (h : Inv c steps) (herror : c.request.reqState = .REQ_ERROR)
    (hrun : Connection.respond sys (c, w) = (.ok (), c', w')) :
    c'.state = .WRITING ∧ c'.response.statusCode = c'.request.statusCode := by
  rw [Connection.respond, Eff.obj_bind, if_pos (h.settled.status_iff.2 herror)] at hrun
  exact h.shows herror hrun

theorem Inv.processBody_shows (h : Inv c steps) (hne : c.request.reqState ≠ .REQ_ERROR)
    (hrun : Connection.processBody sys (c, w) = (.ok (), c', w')) (herror : c'.request.reqState = .REQ_ERROR) :
    c'.state = .WRITING ∧ c'.response.statusCode = c'.request.statusCode := by
  have hrespond {c₁ : Connection} {w₁ : World} {steps₁ : List (World × World)} (h₁ : Inv c₁ steps₁)
      (hrun : Connection.respond sys (c₁, w₁) = (.ok (), c', w')) :
      c'.state = .WRITING ∧ c'.response.statusCode = c'.request.statusCode := by
    by_cases hrejected : c₁.request.reqState = .REQ_ERROR
    · exact h₁.respond_shows hrejected hrun
    · have hsame := sameRequest_respond sys w₁ (h₁.settled.status_eq hrejected)
      rw [hrun] at hsame
      exact absurd herror (hsame.not_rejected hrejected)
  rw [processBody_eq, Eff.obj_bind] at hrun
  split at hrun
  swap
  · exact hrespond h hrun
  rename_i hchunked
  obtain ⟨decoded, s, hon, hrun⟩ := Eff.bind_eq_ok.1 hrun
  obtain ⟨t, hslice, rfl⟩ := Eff.on_eq_ok.1 hon
  have hinv := h.slice hchunked hslice
  cases decoded with
  | false =>
    cases hrun
    exact absurd ((Request.processBodySlice_false hslice).symm.trans herror) hne
  | true => exact hrespond hinv hrun

/-- The answer to the event that rejects the request has the status of the rejection. -/
theorem Inv.step_shows (h : Inv c steps) {e : Event} (hne : c.request.reqState ≠ .REQ_ERROR)
    (hrun : e.run sys (c, w) = (.ok (), c', w')) (herror : c'.request.reqState = .REQ_ERROR) :
    c'.state = .WRITING ∧ c'.response.statusCode = c'.request.statusCode := by
  have hsame {m : Method Connection Unit} (hm : Moves SameRequest m) (hrun : m (c, w) = (.ok (), c', w')) :
      c'.state = .WRITING ∧ c'.response.statusCode = c'.request.statusCode := by
    have hkept := hm (c, w)
    rw [hrun] at hkept
    exact absurd herror (hkept.not_rejected hne)
  cases e with
  | recv data =>
    rcases handleRead_cases hrun with haside | ⟨-, hfed⟩ | ⟨c₁, raw, hq, hs, hres, hreq, herr, hrun⟩ |
      ⟨c₁, raw, hq, hs, hres, hreq, herr, hfed, -⟩
    · exact absurd herror (SameRequest.not_rejected haside.request hne)
    · exact absurd herror (SameRequest.not_rejected hfed.request hne)
    · exact (h.parse hq hs hres hreq).shows herr hrun
    · exact absurd herror (SameRequest.not_rejected hfed.request herr)
  | rewind =>
    have hrewind : Moves SameRequest (Event.run sys .rewind) := fun _ => rfl
    exact hsame hrewind hrun
  | process =>
    rw [Event.run, Eff.obj_bind] at hrun
    split at hrun
    · cases hrun
      exact absurd herror hne
    have htimer : Inv { c with lastActivity := w.now } steps :=
      ⟨h.settled, h.counted, h.processing, fun hp => ⟨(h.untouched hp).cachedConfig, (h.untouched hp).cgiInstance,
        (h.untouched hp).steps⟩⟩
    exact htimer.processBody_shows hne hrun herror
  | failed e => exact hsame ((aside_onException sys e).mono fun _ _ h => h.request) hrun
  | write => exact hsame ((aside_handleWrite sys).mono fun _ _ h => h.request) hrun
  | timeOut => exact hsame ((aside_triggerError sys 408).mono fun _ _ h => h.request) hrun
  | script m => exact hsame (sameRequest_script sys m) hrun

/-- A rejected request stays so. -/
theorem Inv.step_rejected (h : Inv c steps) {e : Event} {r : Except Exn Unit} (hrun : e.run sys (c, w) = (r, c', w'))
    (herror : c.request.reqState = .REQ_ERROR) : c'.request.reqState = .REQ_ERROR := by
  have hsame {m : Method Connection Unit} (hm : Moves SameRequest m) (hrun : m (c, w) = (r, c', w')) :
      c'.request.reqState = .REQ_ERROR := by
    have hkept := hm (c, w)
    rw [hrun] at hkept
    rw [hkept]
    exact herror
  have htrigger (code : Int) : Moves SameRequest (triggerError sys code) :=
    (aside_triggerError sys code).mono fun _ _ h => h.request
  cases e with
  | recv data =>
    rcases handleRead_cases hrun with haside | ⟨-, hfed⟩ | ⟨_, _, hq, _⟩ | ⟨_, _, hq, _⟩
    · exact haside.reqState_eq.trans herror
    · exact hfed.reqState_eq.trans herror
    · rw [hq] at herror
      cases herror
    · rw [hq] at herror
      cases herror
  | rewind =>
    have hrewind : Moves SameRequest (Event.run sys .rewind) := fun _ => rfl
    exact hsame hrewind hrun
  | process =>
    have hne : c.request.reqState ≠ .REQ_CHUNKED := by
      rw [herror]
      exact (nomatch ·)
    rw [Event.run, Eff.obj_bind] at hrun
    split at hrun
    · cases hrun
      exact herror
    have hkept := htrigger (atoi c.request.statusCode) ({ c with lastActivity := w.now }, w)
    have hrespond : Connection.processBody sys ({ c with lastActivity := w.now }, w) =
        triggerError sys (atoi c.request.statusCode) ({ c with lastActivity := w.now }, w) := by
      rw [processBody_eq, Eff.obj_bind]
      simp only [hne, if_false]
      rw [Eff.pure_bind_apply, Connection.respond]
      simp only [not_true_eq_false, if_false]
      rw [Eff.obj_bind, if_pos (h.settled.status_iff.2 herror)]
    rw [← hrespond] at hkept
    rw [show Connection.processBody sys ({ c with lastActivity := w.now }, w) = (r, c', w') from hrun] at hkept
    rw [hkept]
    exact herror
  | failed e => exact hsame ((aside_onException sys e).mono fun _ _ h => h.request) hrun
  | write => exact hsame ((aside_handleWrite sys).mono fun _ _ h => h.request) hrun
  | timeOut => exact hsame (htrigger 408) hrun
  | script m => exact hsame (sameRequest_script sys m) hrun

/-- In every run of a connection: the request has a status other than 200 if and only if it is rejected; if
it is, no handler has run; the event that rejects it answers with its status; and it stays rejected. -/
theorem rejected_untouched {fd now : Nat} {conf : Option ServerConf} (h : Run sys (new fd conf now) c w steps) :
    (c.request.statusCode ≠ ascii "200" ↔ c.request.reqState = .REQ_ERROR) ∧
      (c.request.reqState = .REQ_ERROR → Untouched c steps) ∧
      (∀ (e : Event) (c' : Connection) (w' : World), e.run sys (c, w) = (.ok (), c', w') →
        c.request.reqState ≠ .REQ_ERROR → c'.request.reqState = .REQ_ERROR →
        c'.state = .WRITING ∧ c'.response.statusCode = c'.request.statusCode) ∧
      ∀ (e : Event) (r : Except Exn Unit) (c' : Connection) (w' : World), e.run sys (c, w) = (r, c', w') →
        c.request.reqState = .REQ_ERROR → c'.request.reqState = .REQ_ERROR := by
  have hinv := h.inv
  refine ⟨hinv.settled.status_iff, fun herror => hinv.untouched (.inr (.inl herror)), ?_, ?_⟩
  · intro e c' w' hrun hne herror
    exact hinv.step_shows hne hrun herror
  · intro e r c' w' hrun herror
    exact hinv.step_rejected hrun herror

/-- A request with a method that the server does not know. -/
def unknownMethod : Bytes := ascii "BREW / HTTP/1.0\r\n\r\n"

/-- A new connection that reads it. -/
def afterUnknown : Except Exn Unit × Connection × World :=
  Event.run Sys.calm (.recv (some unknownMethod)) (new 4 (some {}) 0, {})

theorem rejected_untouched_unknown :
    afterUnknown.2.1.request.statusCode = ascii "501" ∧ Untouched afterUnknown.2.1 [({}, afterUnknown.2.2)] := by
  have hstart : Run Sys.calm (new 4 (some {}) 0) (new 4 (some {}) 0) {} [] := .start
  have hrun := hstart.next (.recv (some unknownMethod))
  unfold afterUnknown
  exact ⟨by decide +kernel, (rejected_untouched hrun).2.1 (by decide +kernel)⟩

end Connection

end LeftHookRoll
