import LeftHookRoll.Handlers

/-!
# When a script is sent as a file

`resolvedFile` is the regular file that GET resolves a URL to. `scripts_never_static_iff` says when a
file whose extension is mapped to an interpreter is never sent by `_serveFile`: the decision for CGI
looks at the extension of the URL, the file is found by a path that may have another one.
-/

namespace LeftHookRoll

open Eff

namespace Response

variable {sys : Sys} {config : ServerConf} {loc : LocationConf} {req : Request} {r : Response} {w : World}

/-- The path that GET looks up, as the system sees it. -/
def resolvedPath (loc : LocationConf) (url : Bytes) : Bytes := cstr (stripSlash (loc.root ++ url))

def indexPath (loc : LocationConf) (url : Bytes) : Bytes :=
  cstr (stripSlash (loc.root ++ url) ++ [slash] ++ loc.defaultPage)

/-- The regular file that GET finds when its first system call has the number `t`, and the number of
the next call. -/
def resolvedFile (sys : Sys) (loc : LocationConf) (url : Bytes) (t : Nat) : Option (Bytes × Nat) :=
  match fileKind sys t (resolvedPath loc url) with
  | some .regular => some (resolvedPath loc url, t + 1)
  | some .directory =>
    if loc.defaultPage ≠ [] ∧ fileKind sys (t + 1) (indexPath loc url) = some .regular then
      some (indexPath loc url, t + 2)
    else none
  | _ => none

/-- The file can be looked up again and opened. -/
def Opens (sys : Sys) (f : Bytes × Nat) : Prop :=
  (sys.stat f.2 f.1).isSome ∧ (sys.openRead (f.2 + 1) f.1).isSome

/-- Since `w` the file at `path` was opened by `_serveFile`, and the response sends it. -/
def Delivers (w : World) (r' : Response) (w' : World) (path : Bytes) : Prop :=
  r'.fileFd.isSome ∧ ∃ new, w'.calls = new ++ w.calls ∧ .openRead path ∈ new

/-- No file is opened to be sent. -/
def NoFile : Call → Prop
  | .openRead _ => False
  | _ => True

theorem not_delivers_of_acts {w' : World} (h : World.Acts NoFile w w') (r' : Response) (path : Bytes) :
    ¬ Delivers w r' w' path := by
  rintro ⟨-, new, hnew, hmem⟩
  obtain ⟨-, new', hnew', hno⟩ := h
  obtain rfl := List.append_cancel_right (hnew.symm.trans hnew')
  exact hno _ hmem

theorem not_delivers_of_shown {code : Bytes} {w' : World} {r' : Response} (h : ErrorShown code (r', w'))
    (path : Bytes) : ¬ Delivers w r' w' path := by
  rintro ⟨hfd, -⟩
  rw [h.1] at hfd
  cases hfd

/-! ### What GET does -/

theorem serveFile_delivers (config : ServerConf) (r : Response) {path : Bytes}
    (h : Opens sys (cstr path, w.tick)) :
    ∃ r' w', serveFile sys path config (r, w) = (.ok (), r', w') ∧ r'.fileFd.isSome ∧
      w'.calls = .openRead (cstr path) :: .stat (cstr path) :: w.calls := by
  obtain ⟨st, hst⟩ := Option.isSome_iff_exists.1 h.1
  obtain ⟨content, hopen⟩ := Option.isSome_iff_exists.1 h.2
  rw [serveFile, Eff.bind_ok (sysStat_eq sys path r w), hst]
  simp only
  rw [Eff.bind_ok (sysOpenRead_eq sys path r _), show sys.openRead (lookedUp path w).tick (cstr path) =
    some content from hopen]
  simp only [Eff.modObj_bind]
  obtain ⟨r', hdate, hr'⟩ := addDateClose_eq sys (addHeader (ascii "Content-Length") (decimal st.size)
    (addHeader (ascii "Content-Type") (detectContentType path) { r with
      fileFd := some content, fileSize := st.size, streamBufLen := 0, streamBufSent := 0
      statusCode := ascii "200", responsePhrase := ascii "OK" }))
    { lookedUp path w with
      calls := .openRead (cstr path) :: .stat (cstr path) :: w.calls, tick := w.tick + 2 }
  refine ⟨startHead r', _, (Eff.bind_ok hdate).trans rfl, ?_, rfl⟩
  have hfd := ((sameButHeaders_addHeader _ _ _).trans ((sameButHeaders_addHeader _ _ _).trans hr')).fileFd_eq
  rw [startHead, hfd]
  rfl

theorem serveFile_missing (config : ServerConf) (r : Response) {path : Bytes}
    (h : ¬ Opens sys (cstr path, w.tick)) : ErrorShown (ascii "404") (serveFile sys path config (r, w)).2 := by
  rw [serveFile, Eff.bind_ok (sysStat_eq sys path r w)]
  rcases hst : sys.stat w.tick (cstr path) with _ | st
  · exact buildErrorPage_shown sys _ _ _
  simp only
  rw [Eff.bind_ok (sysOpenRead_eq sys path r _)]
  rcases hopen : sys.openRead (lookedUp path w).tick (cstr path) with _ | content
  · exact buildErrorPage_shown sys _ _ _
  · refine absurd ⟨?_, ?_⟩ h
    · rw [hst]; rfl
    · rw [show sys.openRead (w.tick + 1) (cstr path) = _ from hopen]; rfl

theorem acts_lookedUp (path : Bytes) (w : World) : World.Acts NoFile w (lookedUp path w) :=
  ⟨rfl, [.stat (cstr path)], rfl, by simp [NoFile]⟩

/-- The run of GET that finds the regular file `f`. -/
theorem handleGet_found (config : ServerConf) (r : Response) (hurl : req.URL ≠ []) {f : Bytes × Nat}
    (hf : resolvedFile sys loc req.URL w.tick = some f) :
    ∃ path w', cstr path = f.1 ∧ w'.tick = f.2 ∧ World.Acts NoFile w w' ∧
      handleGet sys req loc config (r, w) = serveFile sys path config (addCookie req r, w') := by
  rw [handleGet_eq hurl]
  rw [resolvedFile, fileKind, resolvedPath] at hf
  rcases hst : sys.stat w.tick (cstr (stripSlash (loc.root ++ req.URL))) with _ | ⟨kind, size⟩
  · rw [hst] at hf; cases hf
  rw [hst] at hf
  cases kind with
  | regular =>
    cases hf
    exact ⟨_, lookedUp (stripSlash (loc.root ++ req.URL)) w, rfl, rfl, acts_lookedUp _ _, rfl⟩
  | other => cases hf
  | directory =>
    rw [serveResolved]
    simp only [Option.map_some] at hf ⊢
    split at hf
    · rename_i hpage
      cases hf
      have hindex : Option.map (fun st : FileStat => st.kind)
          (sys.stat (lookedUp (stripSlash (loc.root ++ req.URL)) w).tick
            (cstr (stripSlash (loc.root ++ req.URL) ++ [slash] ++ loc.defaultPage))) = some .regular := hpage.2
      rw [if_pos hpage.1, Eff.bind_ok (sysStat_eq sys _ _ _)]
      simp only [hindex, if_true]
      exact ⟨_, lookedUp (stripSlash (loc.root ++ req.URL) ++ [slash] ++ loc.defaultPage)
        (lookedUp (stripSlash (loc.root ++ req.URL)) w), rfl, rfl,
        trans_of _ (acts_lookedUp _ _) (acts_lookedUp _ _), rfl⟩
    · cases hf

/-- The run of GET that finds no regular file. -/
theorem acts_handleGet_not_found (config : ServerConf) (r : Response)
    (hf : resolvedFile sys loc req.URL w.tick = none) :
    World.Acts NoFile w (handleGet sys req loc config (r, w)).2.2 := by
  refine (builds_handleGet sys (fun _ => trivial) config r
    ⟨trivial, fun hkind => ?_, fun _ => ⟨trivial, fun _ _ _ _ _ _ _ => trivial⟩, fun hkind hpage =>
      ⟨trivial, fun hindex => ?_⟩⟩).acts
  · rw [resolvedFile, resolvedPath, hkind] at hf
    cases hf
  · rw [resolvedFile, resolvedPath, hkind] at hf
    simp only [hpage, ne_eq, not_false_eq_true, true_and] at hf
    rw [if_pos (show fileKind sys (w.tick + 1) (indexPath loc req.URL) = _ from hindex)] at hf
    cases hf

theorem onRes_return_snd (m : Method Response Unit) (x : Exchange) (w : World) :
    ((onRes m >>= fun _ => pure true : Method Exchange Bool) (x, w)).2 =
      ((x.1, (m (x.2, w)).2.1), (m (x.2, w)).2.2) := by
  rw [Eff.bind_apply, onRes, Eff.on_apply]
  rcases m (x.2, w) with ⟨e | u, r, w'⟩
  · rfl
  · rfl

/-- The run `out` of `buildResponse` sends no script as a file: a GET that finds one runs it, or ends
with an error. -/
structure ScriptsGuarded (sys : Sys) (config : ServerConf) (loc : LocationConf) (req : Request) (r : Response)
    (w : World) (out : Except Exn Bool × Exchange × World) : Prop where
  notSent : ∀ path, loc.isScript path → ¬ Delivers w out.2.1.2 out.2.2 path
  answered : Reaches config loc req → ∀ f, resolvedFile sys loc req.URL w.tick = some f → loc.isScript f.1 →
    out = handleCGI sys loc config ((req, { r with cachedConfig := some config }), w) ∨
      ErrorShown (ascii "404") (out.2.1.2, out.2.2)

/-- Scripts are guarded unless the URL has no mapped extension and the file it resolves to has one. -/
theorem scripts_guarded_iff (hq : req.Accepted) (hget : req.methodName = .GET)
    (hloc : matchLocation req.URL config = some loc) (hr : Idle r) (w : World) :
    ScriptsGuarded sys config loc req r w (buildResponse sys config ((req, r), w)) ↔
      ¬ (Reaches config loc req ∧ ¬ loc.isScript req.URL ∧
        ∃ f, resolvedFile sys loc req.URL w.tick = some f ∧ loc.isScript f.1 ∧ Opens sys f) := by
  have hurl : req.URL ≠ [] := by
    have := hq.url (by rw [hget]; rintro ⟨⟩)
    intro hnil
    rw [hnil] at this
    cases this
  by_cases hreach : Reaches config loc req
  swap
  · have hacts : World.Acts NoFile w (buildResponse sys config ((req, r), w)).2.2 := by
      refine (serves_unreached (fun _ => trivial) (fun l hl => hreach ?_) hr w).acts
      obtain rfl := Option.some.inj (hloc.symm.trans hl.location)
      exact hl
    exact iff_of_true ⟨fun path _ => not_delivers_of_acts hacts _ path, fun h => absurd h hreach⟩
      fun h => hreach h.1
  rw [buildResponse_reached hreach hr]
  by_cases hcgi : loc.isScript req.URL
  · rw [if_pos hcgi]
    refine iff_of_true ⟨fun path _ => ?_, fun _ _ _ _ => .inl rfl⟩ fun h => h.2.1 hcgi
    exact not_delivers_of_acts (acts_handleCGI sys (fun _ => trivial) loc config _ w trivial trivial) _ path
  rw [if_neg hcgi, handleMethod, hget]
  simp only
  obtain ⟨r₁, hr₁⟩ : ∃ r₁, r₁ = { r with cachedConfig := some config } := ⟨_, rfl⟩
  rw [← hr₁]
  have hend := onRes_return_snd (handleGet sys req loc config) (req, r₁) w
  rcases hf : resolvedFile sys loc req.URL w.tick with _ | f
  · have hacts := acts_handleGet_not_found config r₁ hf
    refine iff_of_true ⟨fun path _ => ?_, fun _ f hf' => ?_⟩ fun h => ?_
    · rw [hend]
      exact not_delivers_of_acts hacts _ path
    · rw [hf] at hf'
      cases hf'
    · obtain ⟨-, -, f, hf', -⟩ := h
      cases hf'
  obtain ⟨path, w', hpath, htick, hacts, hrun⟩ := handleGet_found config r₁ hurl hf
  rw [hrun] at hend
  by_cases hopen : Opens sys f
  · obtain ⟨r', w'', hserve, hfd, hcalls⟩ := serveFile_delivers config (addCookie req r₁)
      (show Opens sys (cstr path, w'.tick) by rwa [hpath, htick])
    rw [hserve] at hend
    obtain ⟨-, new, hnew, hno⟩ := hacts
    have hcalls' : w''.calls = (.openRead f.1 :: .stat f.1 :: new) ++ w.calls := by
      rw [hcalls, hpath, hnew]
      rfl
    by_cases hs : loc.isScript f.1
    · refine iff_of_false (fun h => h.notSent f.1 hs ?_) fun h => h ⟨hreach, hcgi, f, rfl, hs, hopen⟩
      rw [hend]
      exact ⟨hfd, _, hcalls', List.mem_cons_self⟩
    · refine iff_of_true ⟨fun p hp hdel => ?_, fun _ f' hf' hs' => ?_⟩ fun h => ?_
      · rw [hend] at hdel
        obtain ⟨-, new', hnew', hmem⟩ := hdel
        obtain rfl := List.append_cancel_right (hcalls'.symm.trans hnew')
        rcases List.mem_cons.1 hmem with heq | hmem
        · cases heq
          exact hs hp
        rcases List.mem_cons.1 hmem with heq | hmem
        · cases heq
        · exact hno _ hmem
      · rw [hf] at hf'
        cases hf'
        exact absurd hs' hs
      · obtain ⟨-, -, f', hf', hs', -⟩ := h
        cases hf'
        exact hs hs'
  · have hshown := serveFile_missing config (addCookie req r₁)
      (show ¬ Opens sys (cstr path, w'.tick) by rwa [hpath, htick])
    refine iff_of_true ⟨fun p _ => ?_, fun _ _ _ _ => .inr ?_⟩ fun h => ?_
    · rw [hend]
      exact not_delivers_of_shown hshown p
    · rw [hend]
      exact hshown
    · obtain ⟨-, -, f', hf', -, hopen'⟩ := h
      cases hf'
      exact hopen hopen'

/-- A location that runs `.py` files. -/
def scriptLocation : LocationConf where
  path := ascii "/"
  root := ascii "/www"
  allowedMethods := AllowedMethods.addMethod {} .GET
  cgiInterpreters := (∅ : StrMap).insert (ascii ".py") (ascii "/usr/bin/python3")

def scriptServer : ServerConf where
  locations := [scriptLocation]

/-- The only file is the script `/www/x.py`. -/
def scriptHost : Sys :=
  { Sys.calm with
    stat := fun _ path => if path = ascii "/www/x.py" then some ⟨.regular, 8⟩ else none
    openRead := fun _ path => if path = ascii "/www/x.py" then some (ascii "print(1)") else none }

/-- The request that `parseHeaders` makes of a header block. -/
def parsed (raw : Bytes) : Request := (Request.parseHeaders raw {}).2

theorem scripts_guarded_plain_url :
    ScriptsGuarded scriptHost scriptServer scriptLocation (parsed (ascii "GET /x.py HTTP/1.0\r\n\r\n")) {} {}
      (buildResponse scriptHost scriptServer ((parsed (ascii "GET /x.py HTTP/1.0\r\n\r\n"), {}), {})) :=
  (scripts_guarded_iff ⟨ascii "GET /x.py HTTP/1.0\r\n\r\n", 0, _, 22, by decide, by decide,
    by decide, rfl, rfl⟩ (by decide) (by decide) ⟨by decide, by decide⟩ {}).2
    fun h => h.2.1 (by decide)

/-- A slash behind the name hides the extension, and is cut off before the file is looked up. -/
theorem scripts_not_guarded_with_slash :
    ¬ ScriptsGuarded scriptHost scriptServer scriptLocation (parsed (ascii "GET /x.py/ HTTP/1.0\r\n\r\n")) {} {}
      (buildResponse scriptHost scriptServer ((parsed (ascii "GET /x.py/ HTTP/1.0\r\n\r\n"), {}), {})) := by
  intro h
  refine h.notSent (ascii "/www/x.py") (by decide) ⟨by decide, _, (List.append_nil _).symm, ?_⟩
  decide

end Response

end LeftHookRoll
