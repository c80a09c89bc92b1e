import LeftHookRoll.DataStoreSpec
import LeftHookRoll.ErrorPage
import LeftHookRoll.Handlers

/-!
# Uploads

`Uploading` says how far the body of a request is written to its file. `Uploading.step` is one call of
`buildResponse`, `Resumed` any number of them with the rest of the server at work in between, and
`upload_ends` says how an upload ends.
-/

namespace LeftHookRoll

open Eff

namespace Response

variable {sys : Sys} {dest body : Bytes} {config : ServerConf} {r : Response} {w : World} {p c : Nat}

/-! ### One `write` -/

theorem overwrite_end (old data : Bytes) : overwrite old old.length data = old ++ data := by
  simp [overwrite]

/-- How many bytes a `write` takes. -/
def taken (sys : Sys) (t n : Nat) : Nat := min ((sys.writeFile t n).getD 0) n

/-- A `write` at the end of the file. -/
theorem sysWrite_end {σ : Type} (sys : Sys) (dest : Bytes) (s : σ) (w : World) (data : Bytes) :
    ∃ a w', sysWrite sys ⟨dest, (w.uploads dest).length⟩ data (s, w) = (.ok a, s, w') ∧
      a.getD 0 = taken sys w.tick data.length ∧
      w'.uploads dest = w.uploads dest ++ data.take (taken sys w.tick data.length) ∧ w'.sigpipe = w.sigpipe ∧
      w'.tmp = w.tmp := by
  rcases hwrite : sys.writeFile w.tick data.length with _ | k
  · have htaken : taken sys w.tick data.length = 0 := by simp [taken, hwrite]
    refine ⟨none, { w with tick := w.tick + 1 }, by simp [sysWrite, hwrite], htaken.symm, ?_, rfl, rfl⟩
    rw [htaken, List.take_zero, List.append_nil]
  · have htaken : taken sys w.tick data.length = min k data.length := by simp [taken, hwrite]
    refine ⟨some (min k data.length), { w with
      tick := w.tick + 1
      uploads := Function.update w.uploads dest
        (overwrite (w.uploads dest) (w.uploads dest).length (data.take (min k data.length))) }, ?_, htaken.symm, ?_, rfl, rfl⟩
    · simp [sysWrite, hwrite]
    · rw [htaken]
      simp [overwrite_end]

theorem writePost_eq (sys : Sys) (hfd : r.postOutFd = some ⟨dest, (w.uploads dest).length⟩) (hsig : w.sigpipe = false) (data : Bytes) :
    ∃ a w', writePost sys data (r, w) =
        (.ok a, { r with postOutFd := some ⟨dest, (w.uploads dest).length + taken sys w.tick data.length⟩ }, w') ∧
      a.getD 0 = taken sys w.tick data.length ∧
      w'.uploads dest = w.uploads dest ++ data.take (taken sys w.tick data.length) ∧ w'.sigpipe = false ∧
      w'.tmp = w.tmp := by
  obtain ⟨a, w', hrun, ha, hup, hsig', htmp⟩ := sysWrite_end sys dest r w data
  refine ⟨a, w', ?_, ha, hup, hsig'.trans hsig, htmp⟩
  rw [writePost, Eff.obj_bind, hfd]
  simp only
  rw [Eff.bind_ok hrun, Eff.modObj_bind, Eff.pure_bind_apply, Eff.bind_ok (throwIfSigpipe_eq (hsig'.trans hsig) _), ha]
  rfl

/-! ### How far the body is written -/

/-- The `write` of the next call fails; for a body in a file it also fails when it is short. -/
def WriteFails (sys : Sys) (s : Exchange × World) : Prop :=
  let q := s.1.1
  let r := s.1.2
  if q.body.mode = .RAM then
    r.postWritePos < q.body.dataBuffer.length ∧
      taken sys s.2.tick (min (q.body.dataBuffer.length - r.postWritePos) r.writeBufferSize) = 0
  else
    match DataStore.read sys RESPONSE_SEND_CHUNK (q.body, s.2) with
    | (.ok buf, _, w) => taken sys w.tick buf.length < buf.length
    | (.error _, _) => False

/-- Where the next slice begins. -/
inductive Cursor (p : Nat) (q : Request) (r : Response) : Prop
  | ram (hmode : q.body.mode = .RAM) (hpos : r.postWritePos = p)
  | file (hmode : q.body.mode = .FILE_MODE) (hpos : q.body.seekTo p = q.body)

/-- The first `p` bytes of the body are written to `dest`; the descriptor is open, and uploads of this response were
closed `c` times before. -/
structure Uploading (dest body : Bytes) (config : ServerConf) (c p : Nat) (s : Exchange × World) : Prop where
  phase : s.1.2.buildPhase = .BUILD_POST_WRITING
  fd : s.1.2.postOutFd = some ⟨dest, p⟩
  closes : s.1.2.postCloses = c
  config : s.1.2.cachedConfig = some config
  chunk : s.1.2.writeBufferSize = RESPONSE_SEND_CHUNK
  store : ∃ data, ∀ w, s.1.2.responseDataStore.Holds w data
  cursor : Cursor p s.1.1 s.1.2
  holds : s.1.1.body.Holds s.2 body
  written : s.2.uploads dest = body.take p
  le : p ≤ body.length
  sigpipe : s.2.sigpipe = false

/-- What a slice comes to when `p` bytes are written. -/
inductive Sliced (sys : Sys) (dest body : Bytes) (config : ServerConf) (c p : Nat) (s : Exchange × World) :
    Except Exn (Option Bool) × Exchange × World → Prop
  | failed (s' : Exchange × World) (hfails : WriteFails sys s) (hconfig : s'.1.2.cachedConfig = some config)
      (hcloses : s'.1.2.postCloses = c) : Sliced sys dest body config c p s (.ok none, s')
  | wrote (q : Nat) (s' : Exchange × World) (hfails : ¬ WriteFails sys s) (hle : p ≤ q) (hlt : p < body.length → p < q)
      (h : Uploading dest body config c q s') : Sliced sys dest body config c p s (.ok (some (decide (body.length ≤ q))), s')

variable {s : Exchange × World}

theorem onRes_eq {α : Type} {m : Method Response α} {q : Request} {r' : Response} {w' : World} {x : Except Exn α}
    (h : m (r, w) = (x, r', w')) : onRes m ((q, r), w) = (x, (q, r'), w') := Eff.on_eq h

/-- After a `write` of the slice that begins at `p`. -/
theorem Uploading.advance {q q' : Request} {w' : World} {n pos : Nat} (h : Uploading dest body config c p ((q, r), w))
    (hcursor : Cursor (p + n) q' { r with postOutFd := some ⟨dest, p + n⟩, postWritePos := pos }) (hholds : q'.body.Holds w' body)
    (hwritten : w'.uploads dest = w.uploads dest ++ (body.drop p).take n) (hle : p + n ≤ body.length)
    (hsig : w'.sigpipe = false) :
    Uploading dest body config c (p + n) ((q', { r with postOutFd := some ⟨dest, p + n⟩, postWritePos := pos }), w') := by
  refine ⟨h.phase, rfl, h.closes, h.config, h.chunk, h.store, hcursor, hholds, ?_, hle, hsig⟩
  have hbefore : w.uploads dest = body.take p := h.written
  rw [hwritten, hbefore, ← List.take_add]

theorem Uploading.length (h : Uploading dest body config c p s) : (s.2.uploads dest).length = p := by
  rw [h.written, List.length_take_of_le h.le]

theorem Uploading.slice_ram (h : Uploading dest body config c p s) (hmode : s.1.1.body.mode = .RAM)
    (hpos : s.1.2.postWritePos = p) : Sliced sys dest body config c p s (writePostSlice sys s) := by
  obtain ⟨⟨q, r⟩, w⟩ := s
  have hbuf : q.body.dataBuffer = body := (h.holds.ram hmode).1
  have hchunk : r.writeBufferSize = RESPONSE_SEND_CHUNK := h.chunk
  have hlen : (w.uploads dest).length = p := h.length
  have hpos' : r.postWritePos = p := hpos
  obtain ⟨m, hm⟩ : ∃ m, m = min (body.length - p) RESPONSE_SEND_CHUNK := ⟨_, rfl⟩
  have hfails : WriteFails sys ((q, r), w) ↔ p < body.length ∧ taken sys w.tick m = 0 := by
    have hmode' : q.body.mode = .RAM := hmode
    simp only [WriteFails, hmode', if_true, hbuf, hpos', hchunk, ← hm]
  rw [writePostSlice, Eff.obj_bind]
  simp only [show q.body.getMode = .RAM from hmode, if_true, hbuf, hpos', hchunk, ← hm]
  by_cases hend : p < body.length
  · have hslice : (substr body p m).length = m := by
      rw [substr, List.length_take_of_le]
      rw [List.length_drop]
      omega
    have hfd : r.postOutFd = some ⟨dest, (w.uploads dest).length⟩ := by
      rw [hlen]
      exact h.fd
    obtain ⟨a, w', hrun, ha, hup, hsig, htmp⟩ := writePost_eq sys hfd h.sigpipe (substr body p m)
    rw [hslice] at hrun ha hup
    rw [if_pos hend, Eff.bind_ok (onRes_eq hrun)]
    rcases a with _ | _ | k
    · exact .failed _ (hfails.2 ⟨hend, ha.symm⟩) h.config h.closes
    · exact .failed _ (hfails.2 ⟨hend, ha.symm⟩) h.config h.closes
    · have hk : taken sys w.tick m = k + 1 := ha.symm
      have hle : k + 1 ≤ m := hk ▸ Nat.min_le_right _ _
      rw [hlen, hk]
      refine .wrote (p + (k + 1)) ((q, { r with postOutFd := some ⟨dest, p + (k + 1)⟩, postWritePos := r.postWritePos + (k + 1) }), w')
        (fun hf => ?_) (by omega) (fun _ => by omega) (h.advance (.ram hmode ?_) (h.holds.mono ?_) ?_ (by omega) hsig)
      · have := (hfails.1 hf).2
        omega
      · rw [← hpos']
      · rw [htmp]
      · rw [hup, hk, substr, List.take_take, min_eq_left hle]
  · rw [if_neg hend]
    have hall : decide (body.length ≤ p) = true := by
      rw [decide_eq_true_iff]
      omega
    have hwrote : Sliced sys dest body config c p ((q, r), w) _ :=
      .wrote p _ (fun hf => hend (hfails.1 hf).1) (le_refl p) (fun hlt => absurd hlt hend) h
    rw [hall] at hwrote
    exact hwrote

theorem onReq_eq {α : Type} {m : Method Request α} {q q' : Request} {w' : World} {x : Except Exn α}
    (h : m (q, w) = (x, q', w')) : onReq m ((q, r), w) = (x, (q', r), w') := Eff.on_eq h

/-- The request with its body read up to `n`. -/
def bodyAt (q : Request) (n : Nat) : Request := { q with body := q.body.seekTo n }

theorem Uploading.slice_file (hs : sys.NoFail) (h : Uploading dest body config c p s) (hmode : s.1.1.body.mode = .FILE_MODE)
    (hpos : s.1.1.body.seekTo p = s.1.1.body) : Sliced sys dest body config c p s (writePostSlice sys s) := by
  obtain ⟨⟨q, r⟩, w⟩ := s
  have hram : ¬ q.body.getMode = .RAM := fun hram => nomatch hmode.symm.trans hram
  have hholds : q.body.Holds w body := h.holds
  have hlen : (w.uploads dest).length = p := h.length
  have hle := h.le
  obtain ⟨x, hx⟩ : ∃ x, x = (body.drop p).take RESPONSE_SEND_CHUNK := ⟨_, rfl⟩
  obtain ⟨t, hread⟩ := DataStore.read_seekTo (w := w) hs hholds p RESPONSE_SEND_CHUNK
  rw [← hx, show q.body.seekTo p = q.body from hpos] at hread
  have hxle : p + x.length ≤ body.length := by
    have : x.length ≤ (body.drop p).length := hx ▸ List.length_take_le' _ _
    rw [List.length_drop] at this
    omega
  have hfails : WriteFails sys ((q, r), w) ↔ taken sys t x.length < x.length := by
    rw [WriteFails]
    simp only
    rw [if_neg (show ¬ q.body.mode = .RAM from hram), hread]
  have hslice : onReq (Request.onBody (DataStore.read sys RESPONSE_SEND_CHUNK)) ((q, r), w) =
      (.ok x, (bodyAt q (p + x.length), r), { w with tick := t }) := onReq_eq (Eff.on_eq hread)
  have hafter : (bodyAt q (p + x.length)).body.Holds w body := hholds.seekTo subset_rfl _
  have hsize : (bodyAt q (p + x.length)).body.getSize = body.length := hafter.size
  have hcursor (r' : Response) : Cursor (p + x.length) (bodyAt q (p + x.length)) r' := .file hmode rfl
  -- the end of both cases: what is read has been written
  have hend {w' : World} (hup : w'.uploads dest = w.uploads dest ++ x) (hsig : w'.sigpipe = false) (htmp : w'.tmp = w.tmp) :
      Uploading dest body config c (p + x.length)
        ((bodyAt q (p + x.length), { r with postOutFd := some ⟨dest, p + x.length⟩ }), w') := by
    refine h.advance (hcursor _) (hafter.mono (by rw [htmp])) ?_ hxle hsig
    rw [hup, hx, List.length_take, List.take_eq_take_iff.2]
    simp
  have hlast (r' : Response) (w' : World) : (do
      let body := (← obj).1.body
      return some (body.getSize ≤ body.getReadPosition) : Method Exchange (Option Bool)) ((bodyAt q (p + x.length), r'), w') =
        (.ok (some (decide (body.length ≤ p + x.length))), (bodyAt q (p + x.length), r'), w') := by
    simp only [Eff.obj_bind, hsize]
    rfl
  rw [writePostSlice, Eff.obj_bind]
  simp only [hram, if_false]
  rw [Eff.bind_ok hslice]
  by_cases hnil : x = []
  · have hall : body.length ≤ p := by
      have := congrArg List.length (hx.symm.trans hnil)
      have := chunk_pos
      simp only [List.length_take, List.length_drop, List.length_nil] at *
      omega
    have hsame : { r with postOutFd := some ⟨dest, p + x.length⟩ } = r := by
      rw [hnil, List.length_nil, Nat.add_zero, ← h.fd]
    have hafter' : Uploading dest body config c (p + x.length) (_, { w with tick := t }) :=
      hend (by rw [hnil, List.append_nil]) h.sigpipe rfl
    rw [hsame] at hafter'
    rw [if_pos hnil, Eff.pure_bind_apply, if_pos rfl, hlast]
    refine .wrote (p + x.length) _ (fun hf => ?_) (Nat.le_add_right _ _) (fun hlt => absurd hlt (Nat.not_lt.2 hall)) hafter'
    have := hfails.1 hf
    rw [hnil] at this
    exact Nat.not_lt_zero _ this
  · rw [if_neg hnil]
    have hfd : r.postOutFd = some ⟨dest, (w.uploads dest).length⟩ := by
      rw [hlen]
      exact h.fd
    obtain ⟨a, w', hrun, ha, hup, hsig, htmp⟩ := writePost_eq sys (w := { w with tick := t }) hfd h.sigpipe x
    rw [Eff.bind_ok (onRes_eq hrun), Eff.pure_bind_apply]
    by_cases hshort : taken sys t x.length < x.length
    · have hne : a ≠ some x.length := by
        rintro rfl
        exact absurd ha.symm hshort.ne
      rw [if_neg (by simpa using hne)]
      exact .failed _ (hfails.2 hshort) h.config h.closes
    · have htaken : taken sys t x.length = x.length := Nat.le_antisymm (Nat.min_le_right _ _) (Nat.not_lt.1 hshort)
      have hsome : a = some x.length := by
        rcases a with _ | k
        · exact absurd (List.length_eq_zero_iff.1 (htaken.symm.trans ha.symm)) hnil
        · exact congrArg some (ha.trans htaken)
      have hpos : 0 < x.length := List.length_pos_iff.2 hnil
      rw [if_pos (by simpa using hsome), hlast]
      refine .wrote (p + x.length) _ (fun hf => hshort (hfails.1 hf)) (Nat.le_add_right _ _) (fun _ => by omega) ?_
      rw [show (w.uploads dest).length = p from hlen, htaken]
      refine hend ?_ hsig htmp
      rw [hup, htaken, List.take_length]

theorem Uploading.slice (hs : sys.NoFail) (h : Uploading dest body config c p s) :
    Sliced sys dest body config c p s (writePostSlice sys s) := by
  have hcursor := h.cursor
  cases hcursor with
  | ram hmode hpos => exact h.slice_ram hmode hpos
  | file hmode hpos => exact h.slice_file hs hmode hpos

/-! ### The end of an upload -/

/-- The upload has ended with this status: the descriptor is closed, and was once since `c`. -/
structure UploadEnded (code : Bytes) (c : Nat) (r : Response) : Prop where
  statusCode : r.statusCode = code
  phase : r.buildPhase = .BUILD_DONE
  closed : r.postOutFd = none
  closes : r.postCloses = c + 1

theorem failPostWrite_eq (hs : sys.NoFail) (hconfig : r.cachedConfig = some config) (hcloses : r.postCloses = c) :
    ∃ r' w', failPostWrite sys (r, w) = (.ok (), r', w') ∧ UploadEnded (ascii "500") c r' := by
  obtain ⟨r₀, hr₀⟩ : ∃ r₀, r₀ = { r with postOutFd := none, postCloses := r.postCloses + 1, buildPhase := .BUILD_DONE } :=
    ⟨_, rfl⟩
  obtain ⟨r', w', hrun, -⟩ := buildErrorPage_eq hs (ascii "500") config r₀ w
  have hfills := buildErrorPage_fills sys (ascii "500") config (r₀, w)
  rw [hrun, Fills] at hfills
  have hconfig₀ : r₀.cachedConfig = some config := by
    rw [hr₀]
    exact hconfig
  have hstart : failPostWrite sys (r, w) = buildErrorPage sys (ascii "500") config (r₀, w) := by
    rw [failPostWrite, Eff.modObj_bind, Eff.obj_bind, ← hr₀]
    simp only [hconfig₀]
  refine ⟨r', w', hstart.trans hrun, ?_⟩
  · rw [show r' = _ from hfills, hr₀, ← hcloses]
    exact ⟨rfl, rfl, rfl, rfl⟩

theorem finishPost_eq (hs : sys.NoFail) {data : Bytes} (hstore : r.responseDataStore.Holds w data) (hcloses : r.postCloses = c) :
    ∃ r' w', finishPost sys (r, w) = (.ok (), r', w') ∧ UploadEnded (ascii "201") c r' ∧ w'.uploads = w.uploads := by
  obtain ⟨d, w', happ, -, hquiet, -⟩ := DataStore.append_spec hs hstore (x := uploadedPage) (by simp [uploadedPage, ascii])
  obtain ⟨r₀, hr₀⟩ : ∃ r₀, r₀ = { r with
    postOutFd := none, postCloses := r.postCloses + 1, buildPhase := .BUILD_DONE, responseDataStore := d } := ⟨_, rfl⟩
  obtain ⟨r₁, hr₁⟩ : ∃ r₁, r₁ = addHeader (ascii "Location") ([slash] ++ r₀.postFilename)
    { r₀ with statusCode := ascii "201", responsePhrase := ascii "Created" } := ⟨_, rfl⟩
  obtain ⟨r', hfin, hsame⟩ := finalizeSuccess_eq sys (ascii "text/html") r₁ w'
  have hstored : onStore (DataStore.append sys uploadedPage)
      ({ r with postOutFd := none, postCloses := r.postCloses + 1, buildPhase := .BUILD_DONE }, w) = (.ok (), r₀, w') := by
    rw [hr₀]
    exact onStore_eq happ
  have hsame' := (hr₁ ▸ sameButHeaders_addHeader _ _ _).trans hsame
  rw [SameButHeaders] at hsame'
  refine ⟨startHead r', w', ?_, ?_, by rw [hquiet.eq]⟩
  · rw [finishPost, Eff.modObj_bind, Eff.bind_ok hstored, Eff.modObj_bind, ← hr₁]
    exact hfin
  · rw [hsame', hr₀, ← hcloses]
    exact ⟨rfl, rfl, rfl, rfl⟩

/-- What one call of `buildResponse` comes to when `p` bytes are written. -/
inductive Continued (sys : Sys) (dest body : Bytes) (config : ServerConf) (c p : Nat) (s : Exchange × World) :
    Except Exn Bool × Exchange × World → Prop
  | more (q : Nat) (s' : Exchange × World) (hfails : ¬ WriteFails sys s) (hlt : p < q) (hmore : q < body.length)
      (h : Uploading dest body config c q s') : Continued sys dest body config c p s (.ok false, s')
  | stored (s' : Exchange × World) (hfails : ¬ WriteFails sys s) (hend : UploadEnded (ascii "201") c s'.1.2)
      (hall : s'.2.uploads dest = body) : Continued sys dest body config c p s (.ok true, s')
  | failed (s' : Exchange × World) (hfails : WriteFails sys s) (hend : UploadEnded (ascii "500") c s'.1.2) :
      Continued sys dest body config c p s (.ok true, s')

theorem Uploading.continues (h : Uploading dest body config c p s) (config' : ServerConf) :
    buildResponse sys config' s = continuePostWrite sys s := by
  rw [buildResponse, Eff.obj_bind]
  exact congrFun (if_pos h.phase) _

theorem Uploading.step (hs : sys.NoFail) (h : Uploading dest body config c p s) :
    Continued sys dest body config c p s (buildResponse sys config s) := by
  obtain ⟨⟨q, r⟩, w⟩ := s
  have hsig : onRes (throwIfSigpipe "writing request body to upload/CGI input") ((q, r), w) = (.ok (), (q, r), w) :=
    onRes_eq (throwIfSigpipe_eq h.sigpipe _)
  rw [h.continues, continuePostWrite, Eff.bind_ok hsig]
  have hslice := h.slice hs
  generalize hrun : writePostSlice sys ((q, r), w) = out at hslice
  cases hslice with
  | failed s' hfails hconfig hcloses =>
    obtain ⟨⟨q', r'⟩, w'⟩ := s'
    obtain ⟨r'', w'', hfail, hend⟩ := failPostWrite_eq (w := w') hs hconfig hcloses
    rw [Eff.bind_ok hrun]
    dsimp only
    rw [Eff.bind_ok (onRes_eq hfail)]
    exact .failed _ hfails hend
  | wrote n s' hfails hle hlt h' =>
    rw [Eff.bind_ok hrun]
    by_cases hall : body.length ≤ n
    · obtain ⟨⟨q', r'⟩, w'⟩ := s'
      obtain ⟨data, hstore⟩ := h'.store
      obtain ⟨r'', w'', hfinish, hend, hup⟩ := finishPost_eq hs (hstore w') h'.closes
      rw [decide_eq_true hall]
      dsimp only
      rw [Eff.bind_ok (onRes_eq hfinish)]
      refine .stored _ hfails hend ?_
      rw [show ((q', r''), w'').2.uploads = w'.uploads from hup, show w'.uploads dest = _ from h'.written,
        List.take_of_length_le hall]
    · rw [decide_eq_false hall]
      have hmore := Nat.lt_of_not_le hall
      exact .more n s' hfails (hlt (by omega)) hmore h'

/-! ### A whole upload -/

/-- What the rest of the server does between two calls: nobody else writes to `dest` or removes the file that holds
the body. -/
structure Elsewhere (dest : Bytes) (q : Request) (w w' : World) : Prop where
  uploads : w'.uploads dest = w.uploads dest
  body : ∀ n, q.body.absolutePath = some n → n ∈ w.tmp → n ∈ w'.tmp
  sigpipe : w.sigpipe = false → w'.sigpipe = false

theorem Uploading.elsewhere {x : Exchange} {w' : World} (h : Uploading dest body config c p (x, w))
    (he : Elsewhere dest x.1 w w') : Uploading dest body config c p (x, w') := by
  refine ⟨h.phase, h.fd, h.closes, h.config, h.chunk, h.store, h.cursor, ⟨h.holds.size, h.holds.ram, fun hm => ?_⟩,
    he.uploads.trans h.written, h.le, he.sigpipe h.sigpipe⟩
  obtain ⟨hbuf, hfile, hfd, n, hn, hmem⟩ := h.holds.file hm
  exact ⟨hbuf, hfile, hfd, n, hn, he.body n hn hmem⟩

/-- After `n` calls that returned false, each followed by what the rest of the server did. -/
inductive Resumed (sys : Sys) (config : ServerConf) (dest : Bytes) (s₀ : Exchange × World) : Nat → Exchange × World → Prop
  | opened : Resumed sys config dest s₀ 0 s₀
  | again {n : Nat} {s : Exchange × World} {x : Exchange} {w w' : World} (h : Resumed sys config dest s₀ n s)
      (hcall : buildResponse sys config s = (.ok false, x, w)) (he : Elsewhere dest x.1 w w') :
      Resumed sys config dest s₀ (n + 1) (x, w')

theorem Uploading.run {s₀ : Exchange × World} {n : Nat} (hs : sys.NoFail) (h₀ : Uploading dest body config c 0 s₀)
    (hrun : Resumed sys config dest s₀ n s) : ∃ p, n ≤ p ∧ Uploading dest body config c p s := by
  induction hrun with
  | opened => exact ⟨0, le_refl 0, h₀⟩
  | again _ hcall he ih =>
    obtain ⟨p, hp, h⟩ := ih
    have hstep := h.step hs
    rw [hcall] at hstep
    cases hstep with
    | more q _ _ hlt _ h' => exact ⟨q, by omega, h'.elsewhere he⟩

/-- The path under which an upload is stored. -/
def uploadPath (loc : LocationConf) (req : Request) (now : Nat) : Bytes :=
  cstr (loc.storageLocation ++ [slash] ++ uploadName req.URL now)

/-- The response when the file is open. -/
def postOpened (config : ServerConf) (req : Request) (dest filename : Bytes) (r : Response) : Response :=
  { addCookie req { r with cachedConfig := some config } with
    postOutFd := some { path := dest }, postWritePos := 0, postFilename := filename, buildPhase := .BUILD_POST_WRITING }

variable {loc : LocationConf} {req : Request}

/-- The call that opens the file goes on with the first slice. -/
theorem buildResponse_opens (hs : sys.NoFail) (hreq : Reaches config loc req) (hscript : ¬ loc.isScript req.URL)
    (hpost : req.methodName = .POST) (hstorage : loc.storageLocation ≠ []) (hidle : Idle r)
    (hchunk : r.writeBufferSize = RESPONSE_SEND_CHUNK) (hstore : ∃ data, ∀ w, r.responseDataStore.Holds w data)
    (hbody : req.body.Holds w body) (hsig : w.sigpipe = false)
    (hopen : sys.openWrite w.tick (uploadPath loc req w.now) = true) :
    ∃ s₀, buildResponse sys config ((req, r), w) = continuePostWrite sys s₀ ∧
      Uploading (uploadPath loc req w.now) body config r.postCloses 0 s₀ := by
  obtain ⟨dest, hdest⟩ : ∃ dest, dest = uploadPath loc req w.now := ⟨_, rfl⟩
  obtain ⟨filename, hname⟩ : ∃ filename, filename = uploadName req.URL w.now := ⟨_, rfl⟩
  obtain ⟨w₁, hw₁⟩ : ∃ w₁ : World, w₁ = { w with
    tick := w.tick + 1, calls := .openWrite dest true :: w.calls, uploads := Function.update w.uploads dest [] } := ⟨_, rfl⟩
  have hcstr : cstr (loc.storageLocation ++ [slash] ++ filename) = dest := by rw [hdest, uploadPath, hname]
  have hopened : sysOpenWrite sys (loc.storageLocation ++ [slash] ++ filename)
      (addCookie req { r with cachedConfig := some config }, w) =
        (.ok (some { path := dest }), addCookie req { r with cachedConfig := some config }, w₁) := by
    rw [← hdest] at hopen
    rw [sysOpenWrite, sysTick_bind, hcstr, hw₁]
    simp only [hopen]
    rfl
  rw [hname] at hopened
  have hstart : buildResponse sys config ((req, r), w) = (do
      if (← obj).1.body.getMode ≠ .RAM then onReq (Request.onBody (DataStore.resetReadPosition sys))
      continuePostWrite sys : Method Exchange Bool) ((req, postOpened config req dest filename r), w₁) := by
    rw [buildResponse_reached hreq hidle, if_neg hscript, handleMethod, hpost]
    dsimp only
    rw [handlePost_opened sys hstorage config hopened, ← hname]
    rfl
  have hstored : ∃ data, ∀ w, (postOpened config req dest filename r).responseDataStore.Holds w data := hstore
  have hsend : (postOpened config req dest filename r).writeBufferSize = RESPONSE_SEND_CHUNK := hchunk
  have hempty : w₁.uploads dest = body.take 0 := by
    rw [hw₁]
    exact Function.update_self _ _ _
  have hkept : req.body.Holds w₁ body := by
    rw [hw₁]
    exact hbody.mono (by exact subset_rfl)
  have hquiet : w₁.sigpipe = false := by
    rw [hw₁]
    exact hsig
  rw [hstart, Eff.obj_bind, ← hdest]
  rcases req.body.mode_cases with hmode | hmode
  · refine ⟨((req, postOpened config req dest filename r), w₁), ?_, ?_⟩
    · exact congrFun (if_neg (not_not.2 hmode)) _
    · exact ⟨rfl, rfl, rfl, rfl, hsend, hstored, .ram hmode rfl, hkept, hempty, Nat.zero_le _, hquiet⟩
  · obtain ⟨t, hreset⟩ := DataStore.resetReadPosition_eq hs hkept
    have hreset' : onReq (Request.onBody (DataStore.resetReadPosition sys)) ((req, postOpened config req dest filename r), w₁) =
        (.ok (), (bodyAt req 0, postOpened config req dest filename r), { w₁ with tick := t }) := onReq_eq (Eff.on_eq hreset)
    refine ⟨((bodyAt req 0, postOpened config req dest filename r), { w₁ with tick := t }), ?_, ?_⟩
    · have hram : ¬ req.body.getMode = .RAM := fun hram => nomatch hmode.symm.trans hram
      exact (congrFun (if_pos hram) _).trans (Eff.bind_ok hreset')
    · exact ⟨rfl, rfl, rfl, rfl, hsend, hstored, .file hmode rfl, hkept.seekTo (by exact subset_rfl) 0, hempty, Nat.zero_le _,
        hquiet⟩

/-- From the `open` on: whatever the writes answer and whatever the rest of the server does in between, no call throws,
no more calls return false than the body has bytes, and the call that returns true leaves the whole body in the file and
status 201, or, when its write fails, status 500. The descriptor is open until this call, which closes it once. -/
theorem upload_ends (hs : sys.NoFail) (hreq : Reaches config loc req) (hscript : ¬ loc.isScript req.URL)
    (hpost : req.methodName = .POST) (hstorage : loc.storageLocation ≠ []) (hidle : Idle r)
    (hchunk : r.writeBufferSize = RESPONSE_SEND_CHUNK) (hstore : ∃ data, ∀ w, r.responseDataStore.Holds w data)
    (hbody : req.body.Holds w body) (hsig : w.sigpipe = false)
    (hopen : sys.openWrite w.tick (uploadPath loc req w.now) = true) :
    ∃ s₀, buildResponse sys config ((req, r), w) = buildResponse sys config s₀ ∧
      s₀.1.2.postOutFd = some ⟨uploadPath loc req w.now, 0⟩ ∧ s₀.1.2.postCloses = r.postCloses ∧
      ∀ n s, Resumed sys config (uploadPath loc req w.now) s₀ n s → n ≤ body.length ∧
        ((∃ x w', buildResponse sys config s = (.ok false, x, w') ∧ ¬ WriteFails sys s ∧ n + 1 < body.length ∧
            x.2.postOutFd ≠ none ∧ x.2.postCloses = r.postCloses) ∨
          (∃ x w', buildResponse sys config s = (.ok true, x, w') ∧ ¬ WriteFails sys s ∧
            UploadEnded (ascii "201") r.postCloses x.2 ∧ w'.uploads (uploadPath loc req w.now) = body) ∨
          ∃ x w', buildResponse sys config s = (.ok true, x, w') ∧ WriteFails sys s ∧
            UploadEnded (ascii "500") r.postCloses x.2) := by
  obtain ⟨s₀, hstart, h₀⟩ := buildResponse_opens hs hreq hscript hpost hstorage hidle hchunk hstore hbody hsig hopen
  refine ⟨s₀, hstart.trans (h₀.continues config).symm, h₀.fd, h₀.closes, fun n s hrun => ?_⟩
  obtain ⟨p, hp, h⟩ := h₀.run hs hrun
  refine ⟨hp.trans h.le, ?_⟩
  have hstep := h.step hs
  generalize hcall : buildResponse sys config s = out at hstep
  cases hstep with
  | more q s' hfails hlt hmore h' =>
    refine .inl ⟨s'.1, s'.2, rfl, hfails, by omega, fun hnone => ?_, h'.closes⟩
    exact nomatch h'.fd.symm.trans hnone
  | stored s' hfails hend hall => exact .inr (.inl ⟨s'.1, s'.2, rfl, hfails, hend, hall⟩)
  | failed s' hfails hend => exact .inr (.inr ⟨s'.1, s'.2, rfl, hfails, hend⟩)

/-- A location that stores what is posted to it. -/
def uploadLocation : LocationConf where
  path := [slash]
  allowedMethods := ⟨2⟩
  storageLocation := ascii "/up"

def uploadServer : ServerConf where
  locations := [uploadLocation]

/-- A request with a body of four bytes. -/
def photoRequest : Request where
  methodName := .POST
  URL := ascii "/photo.jpg"
  body := { dataBuffer := ascii "JPEG", currentSize := 4 }

theorem upload_ends_photo : ∃ s₀, buildResponse Sys.calm uploadServer ((photoRequest, {}), {}) =
      buildResponse Sys.calm uploadServer s₀ ∧
    s₀.1.2.postOutFd = some ⟨uploadPath uploadLocation photoRequest 0, 0⟩ ∧ s₀.1.2.postCloses = 0 ∧
    ∀ n s, Resumed Sys.calm uploadServer (uploadPath uploadLocation photoRequest 0) s₀ n s → n ≤ (ascii "JPEG").length ∧
      ((∃ x w', buildResponse Sys.calm uploadServer s = (.ok false, x, w') ∧ ¬ WriteFails Sys.calm s ∧
          n + 1 < (ascii "JPEG").length ∧ x.2.postOutFd ≠ none ∧ x.2.postCloses = 0) ∨
        (∃ x w', buildResponse Sys.calm uploadServer s = (.ok true, x, w') ∧ ¬ WriteFails Sys.calm s ∧
          UploadEnded (ascii "201") 0 x.2 ∧ w'.uploads (uploadPath uploadLocation photoRequest 0) = ascii "JPEG") ∨
        ∃ x w', buildResponse Sys.calm uploadServer s = (.ok true, x, w') ∧ WriteFails Sys.calm s ∧
          UploadEnded (ascii "500") 0 x.2) := by
  have hreq : Reaches uploadServer uploadLocation photoRequest := ⟨rfl, by decide, by decide, rfl⟩
  exact upload_ends Sys.calm_noFail hreq (by decide) rfl (by simp [uploadLocation, ascii]) ⟨nofun, nofun⟩ rfl
    ⟨[], fun _ => DataStore.holds_new _⟩ ⟨rfl, fun _ => ⟨rfl, rfl, rfl⟩, nofun⟩ rfl rfl

end Response

end LeftHookRoll
