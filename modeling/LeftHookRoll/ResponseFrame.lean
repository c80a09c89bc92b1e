import LeftHookRoll.BuildResponse
import LeftHookRoll.DataStoreFrame

/-!
# What building a response does to the world, on every system

`World.Acts P w w'`: between `w` and `w'` the paths given to the system meet `P`, and no socket has
accepted a byte. The lemmas follow the code: each asks `P` of the paths that its function uses.
-/

namespace LeftHookRoll

open Eff

def World.Acts (P : Call → Prop) (w w' : World) : Prop :=
  w' = { w with
    tick := w'.tick, fileCounter := w'.fileCounter, tmp := w'.tmp, sigpipe := w'.sigpipe
    activePids := w'.activePids, calls := w'.calls, uploads := w'.uploads } ∧
    ∃ new, w'.calls = new ++ w.calls ∧ ∀ c ∈ new, P c

instance (P : Call → Prop) : IsPreorder World (World.Acts P) where
  refl _ := ⟨rfl, [], rfl, by simp⟩
  trans := by
    rintro w w' w'' ⟨h, new, hc, hP⟩ ⟨h', new', hc', hP'⟩
    refine ⟨by rw [h', h], new' ++ new, by rw [hc', hc, List.append_assoc], fun c hcm => ?_⟩
    rcases List.mem_append.1 hcm with h | h
    · exact hP' c h
    · exact hP c h

namespace World

variable {P : Call → Prop} {w w' : World}

theorem Local.acts (h : Local w w') : Acts P w w' := by
  rw [h]
  exact ⟨rfl, [], rfl, by simp⟩

theorem Acts.now_eq (h : Acts P w w') : w'.now = w.now := by rw [h.1]

theorem Acts.outbox_eq (h : Acts P w w') : w'.outbox = w.outbox := by rw [h.1]

end World

variable {σ : Type} {P : Call → Prop} (sys : Sys)

/-- The object stays as it is. -/
def Outside (P : Call → Prop) (s s' : σ × World) : Prop := s'.1 = s.1 ∧ World.Acts P s.2 s'.2

instance : IsPreorder (σ × World) (Outside P) where
  refl s := ⟨rfl, refl_of (World.Acts P) s.2⟩
  trans _ _ _ h h' := ⟨h'.1.trans h.1, trans_of (World.Acts P) h.2 h'.2⟩

theorem Outside.acts {s s' : σ × World} (h : Outside P s s') : OnWorld (World.Acts P) s s' := h.2

theorem outside_sysTick : Moves (Outside P) (sysTick : Method σ Nat) := fun _ => ⟨rfl, rfl, [], rfl, by simp⟩

theorem outside_logCall {c : Call} (h : P c) : Moves (Outside P) (logCall c : Method σ Unit) :=
  fun _ => ⟨rfl, rfl, [c], rfl, by simpa using h⟩

theorem outside_throwIfSigpipe (context : String) :
    Moves (Outside P) (throwIfSigpipe context : Method σ Unit) := by
  refine Moves.world.bind fun w => Moves.ite (fun _ => ?_) fun _ => Moves.pure _
  exact Moves.bind (fun _ => ⟨rfl, rfl, [], rfl, by simp⟩) fun _ => Moves.throw _

theorem outside_sysStat {path : Bytes} (h : P (.stat (cstr path))) :
    Moves (Outside P) (sysStat sys path : Method σ _) :=
  (outside_logCall h).bind fun _ => outside_sysTick.bind fun _ => Moves.pure _

theorem outside_sysOpenRead {path : Bytes} (h : P (.openRead (cstr path))) :
    Moves (Outside P) (sysOpenRead sys path : Method σ _) :=
  (outside_logCall h).bind fun _ => outside_sysTick.bind fun _ => Moves.pure _

theorem sysOpenWrite_eq (path : Bytes) (s : σ) (w : World) :
    ∃ file w', sysOpenWrite sys path (s, w) = (.ok file, s, w') ∧
      (P (.openWrite (cstr path) (sys.openWrite w.tick (cstr path))) → World.Acts P w w') ∧
      w'.calls = .openWrite (cstr path) (sys.openWrite w.tick (cstr path)) :: w.calls := by
  obtain ⟨asked, hasked⟩ : ∃ asked, asked = { w with
    tick := w.tick + 1, calls := .openWrite (cstr path) (sys.openWrite w.tick (cstr path)) :: w.calls } :=
    ⟨_, rfl⟩
  have hrun : sysOpenWrite sys path (s, w) = (if sys.openWrite w.tick (cstr path) then do
      modWorld fun w => { w with uploads := Function.update w.uploads (cstr path) [] }
      return some { path := cstr path }
    else return none : Method σ (Option OutFile)) (s, asked) := hasked ▸ rfl
  rw [hrun]
  split
  · exact ⟨_, _, rfl, fun h => hasked ▸ ⟨rfl, [_], rfl, by simpa using h⟩, hasked ▸ rfl⟩
  · exact ⟨_, _, rfl, fun h => hasked ▸ ⟨rfl, [_], rfl, by simpa using h⟩, hasked ▸ rfl⟩

theorem outside_sysWrite (f : OutFile) (data : Bytes) :
    Moves (Outside P) (sysWrite sys f data : Method σ _) := by
  refine outside_sysTick.bind fun t => ?_
  rcases sys.writeFile t data.length with _ | k
  · exact Moves.pure _
  · exact Moves.bind (fun _ => ⟨rfl, rfl, [], rfl, by simp⟩) fun _ => Moves.pure _

def fileKind (sys : Sys) (t : Nat) (path : Bytes) : Option FileKind := (sys.stat t path).map FileStat.kind

/-- The world after a lookup. -/
def lookedUp (path : Bytes) (w : World) : World :=
  { w with calls := .stat (cstr path) :: w.calls, tick := w.tick + 1 }

theorem sysStat_eq (path : Bytes) (s : σ) (w : World) :
    sysStat sys path (s, w) = (.ok (sys.stat w.tick (cstr path)), s, lookedUp path w) := rfl

theorem sysOpenRead_eq (path : Bytes) (s : σ) (w : World) :
    sysOpenRead sys path (s, w) = (.ok (sys.openRead w.tick (cstr path)), s,
      { w with calls := .openRead (cstr path) :: w.calls, tick := w.tick + 1 }) := rfl

theorem outside_autoIndexEntries (dirPath : Bytes) {names : List Bytes}
    (h : ∀ name ∈ names, name ≠ [dot] → name ≠ [dot, dot] → P (.stat (cstr (dirPath ++ [slash] ++ name)))) :
    Moves (Outside P) (autoIndexEntries sys dirPath names : Method σ _) := by
  induction names with
  | nil => exact Moves.pure _
  | cons name names ih =>
    have hrest := ih fun n hn => h n (List.mem_cons_of_mem _ hn)
    rw [autoIndexEntries]
    refine Moves.ite (fun _ => hrest) fun hdots => ?_
    rw [not_or] at hdots
    refine (outside_sysStat sys (h name List.mem_cons_self hdots.1 hdots.2)).bind fun _ => ?_
    exact hrest.bind fun _ => Moves.pure _

theorem outside_buildAutoIndexPage (url : Bytes) {dirPath : Bytes} (hdir : P (.opendir (cstr dirPath)))
    (h : ∀ t names, sys.opendir t (cstr dirPath) = some names → ∀ name ∈ names, name ≠ [dot] →
      name ≠ [dot, dot] → P (.stat (cstr (dirPath ++ [slash] ++ name)))) :
    Moves (Outside P) (buildAutoIndexPage sys url dirPath : Method σ _) := by
  refine (outside_logCall hdir).bind fun _ => outside_sysTick.bind fun t => ?_
  rcases hopen : sys.opendir t (cstr dirPath) with _ | names
  · exact Moves.pure _
  · exact (outside_autoIndexEntries sys dirPath (h t names hopen)).bind fun _ => Moves.pure _

namespace CGIManager

/-- A run that keeps the script and may be started for it. -/
def RunsScript (P : Call → Prop) (s s' : CGIManager × World) : Prop :=
  P (.exec (cstr (s.1.scriptArgv.getLastD []))) → s'.1.scriptArgv = s.1.scriptArgv ∧ World.Acts P s.2 s'.2

instance (P : Call → Prop) : IsPreorder (CGIManager × World) (RunsScript P) where
  refl s _ := ⟨rfl, refl_of (World.Acts P) s.2⟩
  trans := by
    intro s t u h h' hP
    obtain ⟨hargv, hacts⟩ := h hP
    obtain ⟨hargv', hacts'⟩ := h' (by rwa [hargv])
    exact ⟨hargv'.trans hargv, trans_of _ hacts hacts'⟩

theorem runsScript_modObj {f : CGIManager → CGIManager} (h : ∀ c, (f c).scriptArgv = c.scriptArgv) :
    Moves (RunsScript P) (modObj f : Method CGIManager Unit) :=
  Moves.modObj fun s _ => ⟨h s.1, refl_of (World.Acts P) s.2⟩

theorem runsScript_modWorld {f : World → World} (h : ∀ w, World.Acts P w (f w)) :
    Moves (RunsScript P) (modWorld f : Method CGIManager Unit) := fun s _ => ⟨rfl, h s.2⟩

theorem runsScript_sysTick : Moves (RunsScript P) (sysTick : Method CGIManager Nat) :=
  fun s _ => ⟨rfl, (outside_sysTick s).acts⟩

theorem runsScript_isSpawnLimitReached : Moves (RunsScript P) (isSpawnLimitReached sys) := by
  rintro ⟨c, w⟩
  rw [isSpawnLimitReached_eq]
  exact fun _ => ⟨rfl, rfl, [], rfl, by simp⟩

section RunChild

variable {R : CGIManager × World → CGIManager × World → Prop} [IsPreorder (CGIManager × World) R]

theorem moves_throwIf {p : Prop} [Decidable p] (e : Exn) {k : Unit → Method CGIManager Unit}
    (hk : ∀ u, Moves R (k u)) : Moves R (if p then throw e >>= k else k ()) :=
  Moves.ite (fun _ => (Moves.throw _).bind hk) fun _ => hk ()

/-- What the child makes of the manager before it throws. -/
theorem moves_runChild (htick : Moves R (sysTick : Method CGIManager Nat))
    (hargv : ∀ argv, Moves R (modObj fun c => { c with execveArgv := argv } : Method CGIManager Unit))
    (hclose : Moves R (modObj fun c => { c with outPipe := none } : Method CGIManager Unit)) (hasInput : Bool) :
    Moves R (runChild sys hasInput) := by
  have hcontext : Moves R (prepareChildExecutionContext sys) := by
    refine Moves.obj.bind fun c => ?_
    rcases c.scriptArgv.getLast? with _ | scriptPath
    · exact Moves.throw _
    · exact htick.bind fun t => Moves.ite (fun _ => Moves.pure _) fun _ => Moves.throw _
  refine hcontext.bind fun argv => (hargv argv).bind fun _ => ?_
  -- the rest from the redirection of the output on
  refine Moves.ite (fun _ => htick.bind fun t => moves_throwIf _ fun _ => ?_) fun _ => ?_
  all_goals
    refine hclose.bind fun _ => htick.bind fun t => moves_throwIf _ fun _ => ?_
    exact htick.bind fun t => moves_throwIf _ fun _ => Moves.throw _

end RunChild

theorem runsScript_execute (hasInput : Bool) : Moves (RunsScript P) (execute sys hasInput) := by
  refine (runsScript_isSpawnLimitReached sys).bind fun full => moves_throwIf _ fun _ => ?_
  refine runsScript_sysTick.bind fun t => ?_
  rcases sys.pipe t with _ | readEnd
  · exact Moves.throw _
  refine Moves.bind ?_ fun _ => Moves.obj_bind fun s =>
    Eff.bind_along (fun hP => ⟨rfl, (outside_logCall hP s).acts⟩) fun _ => runsScript_sysTick.bind fun t => ?_
  · exact runsScript_modObj fun _ => rfl
  rcases sys.fork t with _ | pid | _
  · refine Moves.bind ?_ fun _ => Moves.throw _
    exact runsScript_modObj fun _ => rfl
  · refine Moves.bind ?_ fun _ => runsScript_modWorld fun w => ?_
    · exact runsScript_modObj fun _ => rfl
    rw [registerPid]
    split
    · exact refl_of (World.Acts P) w
    · exact ⟨rfl, [], rfl, by simp⟩
  · exact moves_runChild sys runsScript_sysTick (fun _ => runsScript_modObj fun _ => rfl) (runsScript_modObj fun _ => rfl) _

end CGIManager

namespace Response

variable {r r' r'' : Response}

/-- `r'` differs from `r` in the headers only. -/
def SameButHeaders (r r' : Response) : Prop :=
  r' = { r with headers := r'.headers, setCookies := r'.setCookies, headerBuffer := r'.headerBuffer }

theorem SameButHeaders.trans (h : SameButHeaders r r') (h' : SameButHeaders r' r'') :
    SameButHeaders r r'' := by
  rw [SameButHeaders] at h h' ⊢
  rw [h', h]

theorem SameButHeaders.fileFd_eq (h : SameButHeaders r r') : r'.fileFd = r.fileFd := by
  rw [SameButHeaders] at h
  rw [h]

theorem sameButHeaders_addHeader (key value : Bytes) (r : Response) :
    SameButHeaders r (addHeader key value r) := by
  by_cases hc : isSetCookieHeader key <;> by_cases hb : r.headerBuffer = [] <;>
    simp [SameButHeaders, addHeader, hc, hb]

theorem generateHeaderString_ne_nil (r : Response) : r.generateHeaderString ≠ [] := by
  simp [generateHeaderString, crlf]

theorem addDateClose_eq (sys : Sys) (r : Response) (w : World) :
    ∃ r', addDateClose sys (r, w) = (.ok (), r', w) ∧ SameButHeaders r r' :=
  ⟨_, rfl, (sameButHeaders_addHeader _ _ _).trans (sameButHeaders_addHeader _ _ _)⟩

theorem finalizeSuccess_eq (sys : Sys) (contentType : Bytes) (r : Response) (w : World) :
    ∃ r', finalizeSuccess sys contentType (r, w) = (.ok (), startHead r', w) ∧ SameButHeaders r r' := by
  obtain ⟨r', hd, hr⟩ := addDateClose_eq sys (addHeader (ascii "Content-Length")
    (decimal r.responseDataStore.getSize) (addHeader (ascii "Content-Type") contentType r)) w
  refine ⟨r', ?_, ((sameButHeaders_addHeader _ _ _).trans (sameButHeaders_addHeader _ _ _)).trans hr⟩
  simp only [finalizeSuccess, Eff.modObj_bind]
  rw [Eff.bind_ok hd]
  rfl

/-- No script is started, and none that runs is let go. -/
structure NoScript (r r' : Response) : Prop where
  cgiInstance : r'.cgiInstance = r.cgiInstance
  phase : r'.buildPhase = .BUILD_CGI_RUNNING → r.buildPhase = .BUILD_CGI_RUNNING

theorem NoScript.refl (r : Response) : NoScript r r := ⟨rfl, id⟩

theorem NoScript.trans (h : NoScript r r') (h' : NoScript r' r'') : NoScript r r'' :=
  ⟨h'.cgiInstance.trans h.cgiInstance, h.phase ∘ h'.phase⟩

theorem NoScript.of_done (h : r'.cgiInstance = r.cgiInstance) (hphase : r'.buildPhase = .BUILD_DONE) :
    NoScript r r' := ⟨h, fun hr => by rw [hphase] at hr; cases hr⟩

theorem SameButHeaders.noScript (h : SameButHeaders r r') : NoScript r r' := by
  rw [SameButHeaders] at h
  rw [h]
  exact ⟨rfl, id⟩

/-- What the code for all answers but those of scripts does. -/
def Builds (P : Call → Prop) (s s' : Response × World) : Prop :=
  NoScript s.1 s'.1 ∧ World.Acts P s.2 s'.2

instance : IsPreorder (Response × World) (Builds P) where
  refl s := ⟨.refl s.1, refl_of (World.Acts P) s.2⟩
  trans _ _ _ h h' := ⟨h.1.trans h'.1, trans_of (World.Acts P) h.2 h'.2⟩

theorem Builds.acts {s s' : Response × World} (h : Builds P s s') : OnWorld (World.Acts P) s s' := h.2

theorem builds_of_outside {α : Type} {m : Method Response α} (h : Moves (Outside P) m) : Moves (Builds P) m :=
  h.mono fun _ _ h => ⟨by rw [h.1]; exact .refl _, h.2⟩

theorem builds_onStore {α : Type} {m : Method DataStore α} (h : Moves (OnWorld World.Local) m) :
    Moves (Builds P) (onStore m) := h.on fun _ _ h => ⟨⟨rfl, id⟩, World.Local.acts h⟩

theorem builds_modObj {f : Response → Response} (h : ∀ r, NoScript r (f r)) :
    Moves (Builds P) (modObj f : Method Response Unit) :=
  Moves.modObj fun s => ⟨h s.1, refl_of (World.Acts P) s.2⟩

theorem builds_addDateClose : Moves (Builds P) (addDateClose sys) := by
  intro s
  obtain ⟨r', hrun, hr'⟩ := addDateClose_eq sys s.1 s.2
  rw [hrun]
  exact ⟨hr'.noScript, refl_of (World.Acts P) s.2⟩

theorem builds_finalizeSuccess (contentType : Bytes) : Moves (Builds P) (finalizeSuccess sys contentType) := by
  intro s
  obtain ⟨r', hrun, hr'⟩ := finalizeSuccess_eq sys contentType s.1 s.2
  rw [hrun]
  exact ⟨hr'.noScript.trans ⟨rfl, id⟩, refl_of (World.Acts P) s.2⟩

/-- The end of an answer without a body. -/
theorem builds_endHead {f : Response → Response} (h : ∀ r, NoScript r (f r)) :
    Moves (Builds P) (do modObj f; addDateClose sys; modObj startHead : Method Response Unit) :=
  (builds_modObj h).bind fun _ => (builds_addDateClose sys).bind fun _ => builds_modObj fun _ => ⟨rfl, id⟩

theorem builds_appendPage (content : Bytes) : Moves (Builds P) (appendPage sys content) := by
  induction content using appendPage.induct with
  | case1 content ih =>
    rw [appendPage]
    refine (builds_of_outside outside_sysTick).bind fun t => ?_
    rcases sys.readFile t 4096 with _ | k
    · exact Moves.pure _
    simp only
    split
    · exact Moves.pure _
    · rename_i hgot
      exact (builds_onStore (DataStore.moves_append sys _)).bind fun _ => ih k hgot

/-! ### Parts of the handlers -/

/-- The same of an exchange: the request may change. -/
abbrev Serves (P : Call → Prop) : Exchange × World → Exchange × World → Prop := OnPart Prod.snd (Builds P)

theorem Serves.acts {s s' : Exchange × World} (h : Serves P s s') : OnWorld (World.Acts P) s s' := h.2

theorem serves_onReq {α : Type} {m : Method Request α} (h : Moves (OnWorld World.Local) m) :
    Moves (Serves P) (onReq m) := h.on fun s _ h => ⟨.refl s.1.2, World.Local.acts h⟩

theorem serves_onRes {α : Type} {m : Method Response α} (h : Moves (Builds P) m) : Moves (Serves P) (onRes m) :=
  h.onPart fun _ _ => rfl

theorem builds_finishPost : Moves (Builds P) (finishPost sys) := by
  refine Moves.bind (builds_modObj fun _ => .of_done rfl rfl) fun _ => ?_
  refine (builds_onStore (DataStore.moves_append sys _)).bind fun _ => ?_
  refine Moves.bind (builds_modObj fun r => ?_) fun _ => builds_finalizeSuccess sys _
  have hstatus : NoScript r { r with statusCode := ascii "201", responsePhrase := ascii "Created" } := ⟨rfl, id⟩
  exact hstatus.trans (sameButHeaders_addHeader _ _ _).noScript

theorem builds_writePost (data : Bytes) : Moves (Builds P) (writePost sys data) := by
  refine Moves.obj.bind fun r => ?_
  have hrest (written : Option Nat) : Moves (Builds P)
      ((do throwIfSigpipe "writing request body to upload/CGI input"; return written) : Method Response _) :=
    (builds_of_outside (outside_throwIfSigpipe _)).bind fun _ => Moves.pure _
  rcases r.postOutFd with _ | f
  · exact (Moves.pure _).bind hrest
  · refine (builds_of_outside (outside_sysWrite sys f data)).bind fun _ => ?_
    refine Moves.bind (builds_modObj fun _ => ?_) fun _ => (Moves.pure _).bind hrest
    exact ⟨rfl, id⟩

theorem serves_writePostSlice : Moves (Serves P) (writePostSlice sys) := by
  refine Moves.obj.bind fun x => Moves.ite (fun _ => ?_) fun _ => ?_
  · refine Moves.ite (fun _ => ?_) fun _ => Moves.pure _
    refine (serves_onRes (builds_writePost sys _)).bind fun written => ?_
    rcases written with _ | _ | k
    · exact Moves.pure _
    · exact Moves.pure _
    · refine Moves.bind (serves_onRes (builds_modObj fun _ => ?_)) fun _ => Moves.pure _
      exact ⟨rfl, id⟩
  · refine (serves_onReq (DataStore.moves_read sys _).onWorld).bind fun buf => ?_
    have hrest (ok : Bool) : Moves (Serves P) (do
        if ok then
          let body := (← obj).1.body
          return some (body.getSize ≤ body.getReadPosition)
        else return none : Method Exchange (Option Bool)) :=
      Moves.ite (fun _ => Moves.obj.bind fun _ => Moves.pure _) fun _ => Moves.pure _
    refine Moves.ite (fun _ => (Moves.pure _).bind hrest) fun _ => ?_
    exact (serves_onRes (builds_writePost sys _)).bind fun _ => (Moves.pure _).bind hrest

theorem serves_prepareCgiInput : Moves (Serves P) (prepareCgiInput sys) := by
  have hreset : Moves (Serves P) (onReq (Request.onBody (DataStore.resetReadPosition sys))) :=
    serves_onReq (DataStore.moves_resetReadPosition sys).onWorld
  refine Moves.obj.bind fun x => Moves.ite (fun _ => ?_) fun _ => ?_
  · exact (serves_onReq (DataStore.moves_switchToFileMode sys).onWorld).bind fun _ => Moves.obj.bind fun _ =>
      Moves.ite (fun _ => hreset) fun _ => Moves.pure _
  · exact Moves.obj.bind fun _ => Moves.ite (fun _ => hreset) fun _ => Moves.pure _

/-- The name of the file that a POST to `url` is written to. -/
def uploadName (url : Bytes) (now : Nat) : Bytes :=
  if extractFilenameFromUrl url = [] then ascii "upload_" ++ decimal now else extractFilenameFromUrl url

/-- An upload from the answer of `open` on. -/
theorem handlePost_opened {loc : LocationConf} (hstore : loc.storageLocation ≠ []) (config : ServerConf) {req : Request}
    {r : Response} {w w' : World} {file : Option OutFile}
    (hopen : sysOpenWrite sys (loc.storageLocation ++ [slash] ++ uploadName req.URL w.now) (addCookie req r, w) =
      (.ok file, addCookie req r, w')) :
    handlePost sys loc config ((req, r), w) =
      startPost sys config (uploadName req.URL w.now) file ((req, addCookie req r), w') := by
  rw [handlePost, Eff.obj_bind]
  rw [Eff.bind_ok (show onRes (modObj (addCookie req)) ((req, r), w) = (.ok (), (req, addCookie req r), w) from rfl)]
  simp only [hstore, if_false, Eff.world_bind]
  refine Eff.bind_ok ?_
  rw [onRes, Eff.on_apply]
  exact congrArg (fun out => (out.1, (req, out.2.1), out.2.2)) hopen

theorem handlePost_eq {loc : LocationConf} (hstore : loc.storageLocation ≠ []) (config : ServerConf)
    (req : Request) (r : Response) (w : World) :
    ∃ file w', handlePost sys loc config ((req, r), w) =
        startPost sys config (uploadName req.URL w.now) file ((req, addCookie req r), w') ∧
      (P (.openWrite (cstr (loc.storageLocation ++ [slash] ++ uploadName req.URL w.now))
        (sys.openWrite w.tick (cstr (loc.storageLocation ++ [slash] ++ uploadName req.URL w.now)))) →
        World.Acts P w w') ∧
      w'.calls = .openWrite (cstr (loc.storageLocation ++ [slash] ++ uploadName req.URL w.now))
        (sys.openWrite w.tick (cstr (loc.storageLocation ++ [slash] ++ uploadName req.URL w.now))) ::
        w.calls := by
  obtain ⟨file, w', hopen, hw'⟩ := sysOpenWrite_eq (P := P) sys
    (loc.storageLocation ++ [slash] ++ uploadName req.URL w.now) (addCookie req r) w
  exact ⟨file, w', handlePost_opened sys hstore config hopen, hw'⟩

section ErrorPage

variable (herr : ∀ p, P (.errorPage p))
include herr

theorem outside_openErrorPage (customPath : Bytes) : Moves (Outside P) (openErrorPage sys customPath) := by
  refine Moves.ite (fun _ => Moves.pure _) fun _ => (outside_logCall (herr _)).bind fun _ => ?_
  exact outside_sysTick.bind fun _ => Moves.pure _

theorem builds_buildErrorPage (code : Bytes) (config : ServerConf) :
    Moves (Builds P) (buildErrorPage sys code config) := by
  refine (builds_onStore DataStore.moves_clear).bind fun _ => ?_
  refine Moves.bind (builds_modObj fun _ => .of_done rfl rfl) fun _ => ?_
  refine (builds_of_outside (outside_openErrorPage sys herr _)).bind fun page => ?_
  refine Moves.bind ?_ fun _ => builds_finalizeSuccess sys _
  rcases page with _ | content
  · exact builds_onStore (DataStore.moves_append sys _)
  · exact builds_appendPage sys content

theorem serves_errorPage (code : Bytes) (config : ServerConf) (b : Bool) :
    Moves (Serves P) (do onRes (buildErrorPage sys code config); return b : Method Exchange Bool) :=
  (serves_onRes (builds_buildErrorPage sys herr code config)).bind fun _ => Moves.pure _

/-! ### GET and DELETE -/

theorem builds_serveFile {path : Bytes} (config : ServerConf) (hstat : P (.stat (cstr path)))
    (hopen : P (.openRead (cstr path))) : Moves (Builds P) (serveFile sys path config) := by
  refine (builds_of_outside (outside_sysStat sys hstat)).bind fun st => ?_
  rcases st with _ | st
  · exact builds_buildErrorPage sys herr _ _
  refine (builds_of_outside (outside_sysOpenRead sys hopen)).bind fun content => ?_
  rcases content with _ | content
  · exact builds_buildErrorPage sys herr _ _
  · refine Moves.bind (builds_modObj fun _ => ⟨rfl, id⟩) fun _ => builds_endHead sys fun r => ?_
    exact ((sameButHeaders_addHeader _ _ _).trans (sameButHeaders_addHeader _ _ _)).noScript

/-- The paths of a directory without an index page. -/
structure ListingPaths (sys : Sys) (P : Call → Prop) (dirPath : Bytes) : Prop where
  opendir : P (.opendir (cstr dirPath))
  entry : ∀ t names, sys.opendir t (cstr dirPath) = some names → ∀ name ∈ names, name ≠ [dot] →
    name ≠ [dot, dot] → P (.stat (cstr (dirPath ++ [slash] ++ name)))

theorem builds_serveDirectory (url : Bytes) {resolvedPath : Bytes} (loc : LocationConf) (config : ServerConf)
    (h : ListingPaths sys P resolvedPath) :
    Moves (Builds P) (serveDirectory sys url resolvedPath loc config) := by
  refine Moves.ite (fun _ => ?_) fun _ => builds_buildErrorPage sys herr _ _
  refine (builds_of_outside (outside_buildAutoIndexPage sys _ h.opendir h.entry)).bind fun listing => ?_
  refine Moves.ite (fun _ => builds_buildErrorPage sys herr _ _) fun _ => ?_
  refine (builds_onStore (DataStore.moves_append sys _)).bind fun _ => ?_
  refine Moves.bind (builds_modObj fun _ => ?_) fun _ => builds_finalizeSuccess sys _
  exact ⟨rfl, id⟩

/-- The paths that GET uses for a resolved path when its first system call has the number `t`. -/
structure GetPaths (sys : Sys) (P : Call → Prop) (loc : LocationConf) (path : Bytes) (t : Nat) : Prop where
  stat : P (.stat (cstr path))
  openRead : fileKind sys t (cstr path) = some .regular → P (.openRead (cstr path))
  listing : fileKind sys t (cstr path) = some .directory → ListingPaths sys P path
  index : fileKind sys t (cstr path) = some .directory → loc.defaultPage ≠ [] →
    P (.stat (cstr (path ++ [slash] ++ loc.defaultPage))) ∧
      (fileKind sys (t + 1) (cstr (path ++ [slash] ++ loc.defaultPage)) = some .regular →
        P (.openRead (cstr (path ++ [slash] ++ loc.defaultPage))))

theorem builds_serveResolved {req : Request} {loc : LocationConf} (config : ServerConf) {path : Bytes}
    (r : Response) {w : World} {t : Nat} (ht : w.tick = t + 1) (h : GetPaths sys P loc path t) :
    Builds P (r, w) (serveResolved sys req loc config path (sys.stat t (cstr path)) (r, w)).2 := by
  rcases hst : sys.stat t (cstr path) with _ | ⟨kind, size⟩
  · exact builds_buildErrorPage sys herr _ _ _
  have hkind : fileKind sys t (cstr path) = some kind := by rw [fileKind, hst]; rfl
  cases kind with
  | regular => exact builds_serveFile sys herr config h.stat (h.openRead hkind) _
  | other => exact builds_buildErrorPage sys herr _ _ _
  | directory =>
    have hdir := builds_serveDirectory sys herr req.URL loc config (h.listing hkind)
    rw [serveResolved]
    simp only
    by_cases hpage : loc.defaultPage = []
    · simp only [hpage, ne_eq, not_true_eq_false, if_false]
      exact hdir _
    obtain ⟨hstat, hopen⟩ := h.index hkind hpage
    obtain ⟨index, hindex⟩ : ∃ index, index = path ++ [slash] ++ loc.defaultPage := ⟨_, rfl⟩
    rw [← hindex] at hstat hopen
    simp only [hpage, ne_eq, not_false_eq_true, if_true]
    rw [← hindex, Eff.bind_ok (sysStat_eq sys index _ _)]
    refine trans_of (Builds P) (builds_of_outside (outside_sysStat sys hstat) (r, w)) ?_
    by_cases hregular : fileKind sys (t + 1) (cstr index) = some .regular
    · have : (sys.stat w.tick (cstr index)).map (·.kind) = some .regular := ht ▸ hregular
      simp only [this, if_true]
      exact builds_serveFile sys herr config hstat (hopen hregular) _
    · have : (sys.stat w.tick (cstr index)).map (·.kind) ≠ some .regular := ht ▸ hregular
      simp only [this, if_false]
      exact hdir _

theorem builds_handleGet {req : Request} {loc : LocationConf} (config : ServerConf) (r : Response) {w : World}
    (h : GetPaths sys P loc (stripSlash (loc.root ++ req.URL)) w.tick) :
    Builds P (r, w) (handleGet sys req loc config (r, w)).2 := by
  have hcookie : Builds P (r, w) (addCookie req r, w) := ⟨⟨rfl, id⟩, refl_of (World.Acts P) w⟩
  rw [handleGet, Eff.modObj_bind]
  refine trans_of (Builds P) hcookie ?_
  by_cases hsafe : isPathSafe loc.root (stripSlash (loc.root ++ req.URL)) = true
  · simp only [hsafe, not_true_eq_false, if_false]
    rw [Eff.bind_ok (sysStat_eq sys _ _ w)]
    refine trans_of (Builds P) (builds_of_outside (outside_sysStat sys h.stat) (addCookie req r, w)) ?_
    exact builds_serveResolved sys herr config _ rfl h
  · simp only [hsafe]
    exact builds_buildErrorPage sys herr _ _ _

theorem builds_deleteResolved (config : ServerConf) {path : Bytes} (st : Option FileStat)
    (hremove : P (.remove (cstr path))) : Moves (Builds P) (deleteResolved sys config path st) := by
  rcases st with _ | st
  · exact builds_buildErrorPage sys herr _ _
  refine Moves.ite (fun _ => builds_buildErrorPage sys herr _ _) fun _ => ?_
  refine (builds_of_outside (outside_logCall hremove)).bind fun _ => ?_
  refine (builds_of_outside outside_sysTick).bind fun t => ?_
  rcases sys.remove t _ with _ | denied
  · refine builds_endHead sys fun r => ?_
    have hstatus : NoScript r { r with statusCode := ascii "204", responsePhrase := ascii "No Content" } := ⟨rfl, id⟩
    exact hstatus.trans (sameButHeaders_addHeader _ _ _).noScript
  · exact builds_buildErrorPage sys herr _ _

theorem builds_handleDelete (req : Request) (loc : LocationConf) (config : ServerConf)
    (hstat : P (.stat (cstr (stripSlash (loc.root ++ req.URL)))))
    (hremove : P (.remove (cstr (stripSlash (loc.root ++ req.URL))))) :
    Moves (Builds P) (handleDelete sys req loc config) := by
  refine Moves.bind (builds_modObj fun _ => ⟨rfl, id⟩) fun _ => ?_
  refine Moves.ite (fun _ => builds_buildErrorPage sys herr _ _) fun _ => ?_
  refine (builds_of_outside (outside_sysStat sys hstat)).bind fun st => ?_
  exact builds_deleteResolved sys herr config st hremove

/-! ### POST -/

theorem builds_failPostWrite : Moves (Builds P) (failPostWrite sys) := by
  refine Moves.bind (builds_modObj fun _ => .of_done rfl rfl) fun _ => Moves.obj.bind fun r => ?_
  rcases r.cachedConfig with _ | config
  · exact Moves.pure _
  · exact builds_buildErrorPage sys herr _ _

theorem serves_continuePostWrite : Moves (Serves P) (continuePostWrite sys) := by
  refine (serves_onRes (builds_of_outside (outside_throwIfSigpipe _))).bind fun _ => ?_
  refine (serves_writePostSlice sys).bind fun last => ?_
  rcases last with _ | _ | _
  · exact (serves_onRes (builds_failPostWrite sys herr)).bind fun _ => Moves.pure _
  · exact Moves.pure _
  · exact (serves_onRes (builds_finishPost sys)).bind fun _ => Moves.pure _

theorem serves_startPost (config : ServerConf) (filename : Bytes) (file : Option OutFile) :
    Moves (Serves P) (startPost sys config filename file) := by
  rcases file with _ | f
  · exact serves_errorPage sys herr _ _ true
  refine Moves.bind (serves_onRes (builds_modObj fun r => ?_)) fun _ => Moves.obj.bind fun _ =>
    Moves.ite (fun _ => ?_) fun _ => serves_continuePostWrite sys herr
  · exact ⟨rfl, fun h => by cases h⟩
  · exact (serves_onReq (DataStore.moves_resetReadPosition sys).onWorld).bind fun _ =>
      serves_continuePostWrite sys herr

theorem serves_handlePost (loc : LocationConf) (config : ServerConf) (x : Exchange) (w : World)
    (h : loc.storageLocation ≠ [] →
      P (.openWrite (cstr (loc.storageLocation ++ [slash] ++ uploadName x.1.URL w.now))
        (sys.openWrite w.tick (cstr (loc.storageLocation ++ [slash] ++ uploadName x.1.URL w.now))))) :
    Serves P (x, w) (handlePost sys loc config (x, w)).2 := by
  by_cases hstore : loc.storageLocation = []
  · rw [handlePost, Eff.obj_bind]
    simp only [hstore, if_true]
    refine Moves.bind (serves_onRes (builds_modObj fun _ => ?_)) (fun _ => serves_errorPage sys herr _ _ true) (x, w)
    exact ⟨rfl, id⟩
  obtain ⟨file, w', hrun, hopened, -⟩ := handlePost_eq (P := P) sys hstore config x.1 x.2 w
  have hfirst : Serves P (x, w) ((x.1, addCookie x.1 x.2), w') := ⟨⟨rfl, id⟩, hopened (h hstore)⟩
  rw [hrun]
  exact trans_of (Serves P) hfirst (serves_startPost sys herr config _ file ((x.1, addCookie x.1 x.2), w'))

/-! ### CGI -/

theorem acts_startCgi (config : ServerConf) (hasInput : Bool) (r : Response) (w : World)
    (h : P (.exec (cstr ((r.cgiInstance.getD {}).scriptArgv.getLastD [])))) :
    World.Acts P w (startCgi sys config hasInput (r, w)).2.2 := by
  refine Eff.tryCatch_along (R := OnWorld (World.Acts P)) (s := (r, w)) ?_ fun e => ?_
  · refine Eff.bind_along ?_ fun _ => Moves.pure _
    exact (CGIManager.runsScript_execute sys hasInput (r.cgiInstance.getD {}, w) h).2
  · cases e with
    | client code msg =>
      refine (Moves.modObj_onWorld _ _).bind fun _ => Moves.ite (fun _ => ?_) fun _ => Moves.throw _
      exact ((builds_buildErrorPage sys herr _ _).mono fun _ _ h => h.acts).bind fun _ =>
        (Moves.modObj_onWorld _ _).bind fun _ => Moves.pure _
    | fatal | runtime | execed => exact Moves.throw _

theorem acts_runScript (loc : LocationConf) (config : ServerConf) {scriptPath : Bytes}
    (hexec : P (.exec (cstr scriptPath))) :
    Moves (OnWorld (World.Acts P)) (runScript sys loc config scriptPath) := by
  refine ((serves_prepareCgiInput sys).mono fun _ _ h => h.acts).bind fun _ => Moves.obj.bind fun x => ?_
  -- the script that is started is the one that was just prepared
  intro s
  obtain ⟨c, hc⟩ : ∃ c, c = CGIManager.prepare x.1 scriptPath
    (loc.getCgiInterpreter (getFileExtension x.1.URL)) {} := ⟨_, rfl⟩
  have hscript : c.scriptArgv.getLastD [] = scriptPath := by
    rw [hc, CGIManager.prepare, CGIManager.prepExecveArrays, List.getLastD_concat]
  simp only
  rw [← hc]
  refine Eff.bind_along (R := OnWorld (World.Acts P))
    (s := ((s.1.1, { s.1.2 with cgiInstance := some c }), s.2)) ?_ fun started => ?_
  · refine acts_startCgi sys herr config _ _ s.2 ?_
    rwa [show (some c).getD {} = c from rfl, hscript]
  · exact Moves.ite (fun _ => Moves.bind (Moves.modObj_onWorld _ _).onWorld fun _ => Moves.pure _)
      fun _ => Moves.pure _

theorem acts_handleCGI (loc : LocationConf) (config : ServerConf) (x : Exchange) (w : World)
    (hstat : P (.stat (cstr (loc.root ++ x.1.URL)))) (hexec : P (.exec (cstr (loc.root ++ x.1.URL)))) :
    World.Acts P w (handleCGI sys loc config (x, w)).2.2 := by
  have herror (code : Bytes) : Moves (OnWorld (World.Acts P)) (do
      onRes (buildErrorPage sys code config)
      return true : Method Exchange Bool) := (serves_errorPage sys herr code config true).mono fun _ _ h => h.acts
  rw [handleCGI, Eff.obj_bind]
  refine Moves.bind (Moves.modObj_onWorld (World.Acts P) _).onWorld (fun _ => ?_) (x, w)
  refine Moves.ite (fun _ => herror _) fun _ => ?_
  refine Moves.bind ((outside_sysStat sys hstat).mono fun _ _ h => h.acts).onWorld fun st => ?_
  exact Moves.ite (fun _ => herror _) fun _ => acts_runScript sys herr loc config hexec

end ErrorPage

end Response

end LeftHookRoll
