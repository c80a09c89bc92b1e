import LeftHookRoll.Lib.LexPath
import LeftHookRoll.StaticScript

/-!
# Which paths the handlers use

`AllowedCall`: the path is inside the location's root, or directly inside its upload store, once it is
resolved lexically. `isPathSafe` looks for the root at the start of a path that was just put behind the
root, so it never rejects one; `paths_inside_iff` says for which URLs the paths are inside all the same.
-/

namespace LeftHookRoll

open Eff LexPath

/-- Where a path of the system leads. -/
def place (path : Bytes) : Place Bytes := resolve slash dot path

/-- What a location promises of a path that is used for it. -/
def AllowedCall (loc : LocationConf) : Call → Prop
  | .stat path | .openRead path | .remove path | .opendir path | .exec path =>
    (place (cstr loc.root)).Inside (place path)
  | .openWrite path ok => ok = true → (place (cstr loc.storageLocation)).DirectlyInside (place path)
  | .errorPage _ => True

/-- `c` is among the paths used between `w` and `w'`. -/
def Used (w w' : World) (c : Call) : Prop := ∃ new, w'.calls = new ++ w.calls ∧ c ∈ new

theorem World.Acts.of_used {P : Call → Prop} {w w' : World} (h : World.Acts P w w') {c : Call}
    (hc : Used w w' c) : P c := by
  obtain ⟨-, new, hnew, hP⟩ := h
  obtain ⟨new', hnew', hmem⟩ := hc
  obtain rfl := List.append_cancel_right (hnew.symm.trans hnew')
  exact hP c hmem

/-- What was used first stays used. -/
theorem used_of_first {P : Call → Prop} {w w₁ w' : World} {c : Call} (h₁ : w₁.calls = c :: w.calls)
    (h : World.Acts P w₁ w') : Used w w' c := by
  obtain ⟨-, new, hnew, -⟩ := h
  exact ⟨new ++ [c], by rw [hnew, h₁, List.append_assoc]; rfl, by simp⟩

theorem Used.of_later {P : Call → Prop} {w w₁ w' : World} {c : Call} (h : World.Acts P w w₁)
    (hc : Used w₁ w' c) : Used w w' c := by
  obtain ⟨-, new, hnew, -⟩ := h
  obtain ⟨new', hnew', hmem⟩ := hc
  exact ⟨new' ++ new, by rw [hnew', hnew, List.append_assoc], List.mem_append_left _ hmem⟩

/-! ### Paths below the root -/

/-- What a path below a root says behind the root, up to the first NUL. -/
def below (u : Bytes) : List (Seg Bytes) := segs slash dot (cstr u).tail

/-- `root` followed by `u` does not leave `root`. A NUL in `root` hides all that follows; behind an empty
root every URL is an absolute path. -/
def StaysInRoot (root u : Bytes) : Prop :=
  0 ∈ root ∨ root ≠ [] ∧ (place root).StaysIn (below u)

instance (root u : Bytes) : Decidable (StaysInRoot root u) := inferInstanceAs (Decidable (_ ∨ _ ∧ _))

theorem cstr_append_of_mem {s : Bytes} (h : 0 ∈ s) (t : Bytes) : cstr (s ++ t) = cstr s := by
  induction s with
  | nil => cases h
  | cons c s ih =>
    rw [cstr, cstr, List.cons_append, List.takeWhile_cons, List.takeWhile_cons]
    by_cases hc : c = 0
    · simp [hc]
    · simp only [ne_eq, hc, not_false_eq_true, decide_true, if_true, List.cons.injEq, true_and]
      exact ih ((List.mem_cons.1 h).resolve_left (Ne.symm hc))

theorem inside_root_iff {root u : Bytes} (hu : u = [] ∧ root ≠ [] ∨ u.head? = some slash) :
    (place (cstr root)).Inside (place (cstr (root ++ u))) ↔ StaysInRoot root u := by
  by_cases hnul : 0 ∈ root
  · rw [cstr_append_of_mem hnul]
    exact iff_of_true (Place.inside_refl _) (.inl hnul)
  rw [cstr_append hnul, cstr_eq_self hnul, StaysInRoot]
  rcases hu with ⟨rfl, hne⟩ | hhead
  · have hbelow : below [] = [.stay] := rfl
    rw [show cstr [] = [] from rfl, List.append_nil, hbelow, ← Place.inside_walk_iff]
    exact iff_of_true (Place.inside_refl _) (.inr ⟨hne, Place.inside_refl _⟩)
  obtain ⟨rest, rfl⟩ : ∃ rest, u = slash :: rest := by
    rcases u with _ | ⟨c, rest⟩
    · cases hhead
    · exact ⟨rest, by rw [Option.some.inj hhead]⟩
  have hcstr : cstr (slash :: rest) = slash :: cstr rest := rfl
  by_cases hne : root = []
  · refine iff_of_false (fun h => ?_) fun h => ?_
    · have habs : (place ([] ++ cstr (slash :: rest))).absolute = true := Place.walk_absolute _ _
      rw [hne] at h
      exact nomatch habs.symm.trans h.1
    · exact (h.resolve_left hnul).1 hne
  have hwalk : place (root ++ slash :: cstr rest) = (place root).walk (segs slash dot (cstr rest)) :=
    resolve_append slash dot hne _
  rw [hcstr, hwalk, Place.inside_walk_iff, below, hcstr]
  exact ⟨fun h => .inr ⟨hne, h⟩, fun h => (h.resolve_left hnul).2⟩

/-- What `place` is of an entry of a directory. -/
theorem place_entry {dirPath name : Bytes} (hne : dirPath ≠ []) (hname : slash ∉ name) :
    place (dirPath ++ [slash] ++ name) = (place dirPath).step (seg dot name) := by
  rw [List.append_assoc, List.singleton_append, place, resolve_append slash dot hne,
    segs_of_not_mem slash dot hname]
  rfl

theorem cstr_entry {dirPath name : Bytes} (hdir : 0 ∉ dirPath) :
    cstr (dirPath ++ [slash] ++ name) = dirPath ++ [slash] ++ cstr name :=
  cstr_append (by simp [hdir, slash]) name

/-- An entry of a directory is inside the directory. -/
theorem inside_entry {d : Place Bytes} {dirPath name : Bytes} (hd : d.Inside (place (cstr dirPath)))
    (hne : dirPath ≠ []) (hname : slash ∉ name ∧ 0 ∉ name) (hdots : name ≠ [dot, dot]) :
    d.Inside (place (cstr (dirPath ++ [slash] ++ name))) := by
  by_cases hnul : 0 ∈ dirPath
  · rwa [List.append_assoc, cstr_append_of_mem hnul]
  rw [cstr_entry hnul, cstr_eq_self hname.2, place_entry hne hname.1, seg, if_neg hdots]
  rw [cstr_eq_self hnul] at hd
  split_ifs
  · exact hd
  · exact hd.name name

/-! ### GET and DELETE -/

namespace Response

/-- What GET and DELETE put behind the root. -/
def strippedUrl (root url : Bytes) : Bytes :=
  if (root ++ url).length > 1 ∧ (root ++ url).getLast? = some slash then url.dropLast else url

theorem stripSlash_append (root : Bytes) {url : Bytes} (hurl : url ≠ []) :
    stripSlash (root ++ url) = root ++ strippedUrl root url := by
  rw [stripSlash, strippedUrl]
  split_ifs
  · exact List.dropLast_append_of_ne_nil hurl
  · rfl

theorem strippedUrl_head {root url : Bytes} (hurl : url.head? = some slash) :
    strippedUrl root url = [] ∧ root ≠ [] ∨ (strippedUrl root url).head? = some slash := by
  obtain ⟨rest, rfl⟩ : ∃ rest, url = slash :: rest := by
    rcases url with _ | ⟨c, rest⟩
    · cases hurl
    · exact ⟨rest, by rw [Option.some.inj hurl]⟩
  rw [strippedUrl]
  split_ifs with hstrip
  · rcases rest with _ | ⟨c, rest⟩
    · left
      refine ⟨rfl, fun hnil => ?_⟩
      rw [hnil] at hstrip
      exact absurd hstrip.1 (by decide)
    · exact .inr rfl
  · exact .inr rfl

/-- What the names of a directory's entries are: `readdir` gives no slash and no NUL. -/
def ListsNames (sys : Sys) : Prop :=
  ∀ t path names, sys.opendir t path = some names → ∀ name ∈ names, slash ∉ name ∧ 0 ∉ name

/-- A path that ends in a directory's own name cannot be opened for writing. -/
def KeepsDirectories (sys : Sys) : Prop :=
  ∀ t dirPath, ∀ name ∈ [[], [dot], [dot, dot]], sys.openWrite t (dirPath ++ [slash] ++ name) = false

/-- The URL of a GET stays in the root; so does the default page, when the path is a directory. -/
def GetStays (sys : Sys) (loc : LocationConf) (url : Bytes) (t : Nat) : Prop :=
  StaysInRoot loc.root (strippedUrl loc.root url) ∧
    (fileKind sys t (resolvedPath loc url) = some .directory → loc.defaultPage ≠ [] →
      StaysInRoot loc.root (strippedUrl loc.root url ++ [slash] ++ loc.defaultPage))

instance (sys : Sys) (loc : LocationConf) (url : Bytes) (t : Nat) : Decidable (GetStays sys loc url t) :=
  inferInstanceAs (Decidable (_ ∧ (_ → _ → _)))

variable {sys : Sys} {config : ServerConf} {loc : LocationConf} {req : Request} {r : Response} {w : World}

theorem inside_resolved_iff (hurl : req.URL.head? = some slash) :
    AllowedCall loc (.stat (cstr (stripSlash (loc.root ++ req.URL)))) ↔
      StaysInRoot loc.root (strippedUrl loc.root req.URL) := by
  have hne : req.URL ≠ [] := fun h => by rw [h] at hurl; cases hurl
  rw [stripSlash_append loc.root hne]
  exact inside_root_iff (strippedUrl_head hurl)

theorem inside_index_iff (hurl : req.URL.head? = some slash) :
    AllowedCall loc (.stat (cstr (stripSlash (loc.root ++ req.URL) ++ [slash] ++ loc.defaultPage))) ↔
      StaysInRoot loc.root (strippedUrl loc.root req.URL ++ [slash] ++ loc.defaultPage) := by
  have hne : req.URL ≠ [] := fun h => by rw [h] at hurl; cases hurl
  rw [stripSlash_append loc.root hne, List.append_assoc, List.append_assoc, ← List.append_assoc _ [slash]]
  refine inside_root_iff (.inr ?_)
  rcases @strippedUrl_head loc.root _ hurl with ⟨hnil, -⟩ | hhead
  · rw [hnil]
    rfl
  · rw [List.append_assoc, List.head?_append_of_ne_nil _ fun h => by rw [h] at hhead; cases hhead]
    exact hhead

theorem resolved_ne_nil {u : Bytes} (h : StaysInRoot loc.root u) (hurl : req.URL ≠ []) :
    stripSlash (loc.root ++ req.URL) ≠ [] := by
  have hroot : loc.root ≠ [] := by
    rcases h with h | h
    · exact List.ne_nil_of_mem h
    · exact h.1
  rw [stripSlash_append loc.root hurl]
  exact List.append_ne_nil_of_left_ne_nil hroot _

/-- A directory with a default page: the page is looked up. -/
theorem serveResolved_uses_index (config : ServerConf) (path : Bytes) (st : FileStat) (r : Response) (w : World)
    (hdir : st.kind = .directory) (hpage : loc.defaultPage ≠ []) :
    Used w (serveResolved sys req loc config path (some st) (r, w)).2.2
      (.stat (cstr (path ++ [slash] ++ loc.defaultPage))) := by
  have htrue : Moves (Builds fun _ => True) (serveDirectory sys req.URL path loc config) :=
    builds_serveDirectory sys (fun _ => trivial) _ _ _ ⟨trivial, fun _ _ _ _ _ _ _ => trivial⟩
  rw [serveResolved, hdir]
  simp only [hpage, ne_eq, not_false_eq_true, if_true]
  rw [Eff.bind_ok (sysStat_eq sys _ _ w)]
  refine used_of_first rfl (Moves.ite (R := Builds fun _ => True) (fun _ => ?_) (fun _ => htrue) (r, lookedUp _ w)).acts
  exact builds_serveFile sys (fun _ => trivial) config trivial trivial

theorem handleGet_inside_iff (hnames : ListsNames sys) (hurl : req.URL.head? = some slash)
    (config : ServerConf) (r : Response) :
    (∀ c, Used w (handleGet sys req loc config (r, w)).2.2 c → AllowedCall loc c) ↔
      GetStays sys loc req.URL w.tick := by
  have hne : req.URL ≠ [] := fun h => by rw [h] at hurl; cases hurl
  have htrue : GetPaths sys (fun _ => True) loc (stripSlash (loc.root ++ req.URL)) w.tick :=
    ⟨trivial, fun _ => trivial, fun _ => ⟨trivial, fun _ _ _ _ _ _ _ => trivial⟩, fun _ _ =>
      ⟨trivial, fun _ => trivial⟩⟩
  constructor
  · intro hall
    rw [handleGet_eq hne] at hall
    refine ⟨(inside_resolved_iff hurl).1 (hall _ (used_of_first rfl
      (builds_serveResolved sys (fun _ => trivial) config _ rfl htrue).acts)), fun hkind hpage => ?_⟩
    refine (inside_index_iff hurl).1 (hall _ (Used.of_later (acts_lookedUp (stripSlash (loc.root ++ req.URL)) w) ?_))
    obtain ⟨st, hst, hdir⟩ := Option.map_eq_some_iff.1 hkind
    rw [show sys.stat w.tick (cstr (stripSlash (loc.root ++ req.URL))) = some st from hst]
    exact serveResolved_uses_index config _ st _ _ hdir hpage
  · intro h c hc
    have hin := (inside_resolved_iff hurl).2 h.1
    refine (builds_handleGet sys (fun _ => trivial) config r ⟨hin, fun _ => hin, fun _ => ⟨hin, ?_⟩,
      fun hkind hpage => ?_⟩).acts.of_used hc
    · intro t names hopen name hmem _ hdots
      exact inside_entry hin (resolved_ne_nil h.1 hne) (hnames t _ names hopen name hmem) hdots
    · have hindex := (inside_index_iff hurl).2 (h.2 hkind hpage)
      exact ⟨hindex, fun _ => hindex⟩

theorem handleDelete_inside_iff (hurl : req.URL.head? = some slash) (config : ServerConf) (r : Response) :
    (∀ c, Used w (handleDelete sys req loc config (r, w)).2.2 c → AllowedCall loc c) ↔
      StaysInRoot loc.root (strippedUrl loc.root req.URL) := by
  have hne : req.URL ≠ [] := fun h => by rw [h] at hurl; cases hurl
  rw [← inside_resolved_iff hurl]
  constructor
  · intro hall
    refine hall _ ?_
    rw [handleDelete, Eff.modObj_bind]
    simp only [isPathSafe_append loc.root hne, not_true_eq_false, if_false]
    rw [Eff.bind_ok (sysStat_eq sys _ _ w)]
    exact used_of_first rfl (builds_deleteResolved sys (P := fun _ => True) (fun _ => trivial) config _ trivial _).acts
  · intro h c hc
    exact (builds_handleDelete sys (P := AllowedCall loc) (fun _ => trivial) req loc config h h (r, w)).acts.of_used hc

/-! ### CGI and POST -/

theorem handleCGI_inside_iff (hurl : req.URL.head? = some slash) (config : ServerConf) (r : Response) :
    (∀ c, Used w (handleCGI sys loc config ((req, r), w)).2.2 c → AllowedCall loc c) ↔
      StaysInRoot loc.root req.URL := by
  have hsafe : isPathSafe loc.root (loc.root ++ req.URL) = true := by
    rw [isPathSafe, if_neg (by rw [List.length_append]; omega), List.take_left]
    exact decide_eq_true rfl
  have hiff : AllowedCall loc (.stat (cstr (loc.root ++ req.URL))) ↔ StaysInRoot loc.root req.URL :=
    inside_root_iff (.inr hurl)
  rw [← hiff]
  constructor
  · intro hall
    refine hall _ ?_
    rw [handleCGI, Eff.obj_bind]
    simp only [hsafe, not_true_eq_false, if_false]
    rw [Eff.bind_ok (show onRes (modObj (addCookie req)) ((req, r), w) = (.ok (), (req, addCookie req r), w) from rfl)]
    rw [Eff.bind_ok (show onRes (sysStat sys (loc.root ++ req.URL)) ((req, addCookie req r), w) =
      (.ok (sys.stat w.tick (cstr (loc.root ++ req.URL))), _, lookedUp (loc.root ++ req.URL) w) from rfl)]
    refine used_of_first rfl (Moves.ite (R := OnWorld (World.Acts fun _ => True)) (fun _ => ?_) (fun _ => ?_) _)
    · exact (serves_errorPage sys (fun _ => trivial) _ _ true).mono fun _ _ h => h.acts
    · exact acts_runScript sys (fun _ => trivial) loc config trivial
  · intro h c hc
    exact (acts_handleCGI sys (P := AllowedCall loc) (fun _ => trivial) loc config (req, r) w h h).of_used hc

/-- No NUL cuts the upload store short, or the upload fails. -/
def PostStays (sys : Sys) (loc : LocationConf) (w : World) : Prop :=
  loc.storageLocation ≠ [] → 0 ∈ loc.storageLocation →
    sys.openWrite w.tick (cstr loc.storageLocation) = false

theorem slash_not_mem_uploadName (url : Bytes) (now : Nat) : slash ∉ uploadName url now := by
  rw [uploadName]
  split
  · intro h
    rcases List.mem_append.1 h with h | h
    · exact absurd h (by decide)
    · exact absurd (isdigit_of_mem_decimal h) (by decide)
  · rw [extractFilenameFromUrl]
    split
    · exact List.not_mem_nil
    · rename_i pos hpos
      split
      · exact List.not_mem_nil
      · exact List.not_mem_drop_of_rfindElem hpos

theorem slash_not_mem_cstr {s : Bytes} (h : slash ∉ s) : slash ∉ cstr s :=
  fun hmem => h ((cstr_isPrefix s).subset hmem)

/-- A file that an upload opens is an entry of the store. -/
theorem directlyInside_upload (hdirs : KeepsDirectories sys) {name : Bytes} (hname : slash ∉ name)
    (hstore : loc.storageLocation ≠ []) (hnul : 0 ∉ loc.storageLocation) (t : Nat) :
    AllowedCall loc (.openWrite (cstr (loc.storageLocation ++ [slash] ++ name))
      (sys.openWrite t (cstr (loc.storageLocation ++ [slash] ++ name)))) := by
  intro hopen
  rw [cstr_entry hnul] at hopen ⊢
  have hplain : cstr name ∉ [[], [dot], [dot, dot]] := fun hmem => by
    rw [hdirs t _ _ hmem] at hopen
    cases hopen
  simp only [List.mem_cons, List.not_mem_nil, or_false, not_or] at hplain
  rw [place_entry hstore (slash_not_mem_cstr hname), cstr_eq_self hnul, seg, if_neg hplain.2.2,
    if_neg (by tauto)]
  exact ⟨_, rfl⟩

theorem handlePost_inside_iff (hdirs : KeepsDirectories sys) (config : ServerConf) (r : Response) :
    (∀ c, Used w (handlePost sys loc config ((req, r), w)).2.2 c → AllowedCall loc c) ↔
      PostStays sys loc w := by
  constructor
  · intro hall hstore hnul
    obtain ⟨file, w', hrun, -, hcalls⟩ := handlePost_eq (P := fun _ => True) sys hstore config req r w
    rw [hrun] at hall
    have hallowed := hall _ (used_of_first hcalls 
      (serves_startPost sys (P := fun _ => True) (fun _ => trivial) config _ file _).acts)
    rw [List.append_assoc, cstr_append_of_mem hnul] at hallowed
    by_contra hopen
    obtain ⟨name, hname⟩ := hallowed (Bool.not_eq_false _ ▸ hopen)
    have hlen := congrArg (fun d => d.names.length) hname
    simp [Place.step] at hlen
  · intro h c hc
    refine (serves_handlePost sys (fun _ => trivial) loc config (req, r) w fun hstore => ?_).acts.of_used hc
    by_cases hnul : 0 ∈ loc.storageLocation
    · rw [List.append_assoc, cstr_append_of_mem hnul, h hstore hnul]
      exact fun hopen => by cases hopen
    · exact directlyInside_upload hdirs (slash_not_mem_uploadName _ _) hstore hnul _

/-! ### All handlers -/

/-- Every path that was used since `w` is where it belongs. -/
def PathsInside (loc : LocationConf) (w w' : World) : Prop := ∀ c, Used w w' c → AllowedCall loc c

/-- The handler that gets a request uses paths inside only. -/
def HandlerStays (sys : Sys) (loc : LocationConf) (req : Request) (w : World) : Prop :=
  if loc.isScript req.URL then StaysInRoot loc.root req.URL
  else
    match req.methodName with
    | .GET => GetStays sys loc req.URL w.tick
    | .DELETE => StaysInRoot loc.root (strippedUrl loc.root req.URL)
    | .POST => PostStays sys loc w
    | .UNKNOWN_METHOD => True

/-- `isPathSafe` rejects nothing, so that the URL alone decides. -/
theorem paths_inside_iff (hnames : ListsNames sys) (hdirs : KeepsDirectories sys) (hq : req.Accepted)
    (hloc : matchLocation req.URL config = some loc) (hr : Idle r) :
    PathsInside loc w (buildResponse sys config ((req, r), w)).2.2 ↔
      (Reaches config loc req → HandlerStays sys loc req w) := by
  by_cases hreach : Reaches config loc req
  swap
  · refine iff_of_true (fun c hc => ?_) fun h => absurd h hreach
    refine (serves_unreached (P := AllowedCall loc) (fun _ => trivial) (fun l hl => hreach ?_) hr w).acts.of_used hc
    obtain rfl := Option.some.inj (hloc.symm.trans hl.location)
    exact hl
  have hurl := hq.url hreach.known
  rw [buildResponse_reached hreach hr, HandlerStays, PathsInside]
  simp only [hreach, true_implies]
  by_cases hcgi : loc.isScript req.URL
  · rw [if_pos hcgi, if_pos hcgi]
    exact handleCGI_inside_iff hurl config _
  rw [if_neg hcgi, if_neg hcgi, handleMethod]
  cases hm : req.methodName with
  | GET =>
    simp only [onRes_return_snd]
    exact handleGet_inside_iff hnames hurl config _
  | DELETE =>
    simp only [onRes_return_snd]
    exact handleDelete_inside_iff hurl config _
  | POST => exact handlePost_inside_iff hdirs config _
  | UNKNOWN_METHOD => exact absurd hm hreach.known

/-- The only file is `/www/a.html`; nothing can be written and no directory listed. -/
def pageHost : Sys :=
  { Sys.calm with
    stat := fun _ path => if path = ascii "/www/a.html" then some ⟨.regular, 2⟩ else none
    openRead := fun _ path => if path = ascii "/www/a.html" then some (ascii "hi") else none
    openWrite := fun _ _ => false }

theorem paths_inside_plain_url :
    PathsInside scriptLocation {} (buildResponse pageHost scriptServer
      ((parsed (ascii "GET /a.html HTTP/1.0\r\n\r\n"), {}), {})).2.2 :=
  (paths_inside_iff (fun _ _ _ h => nomatch (show none = some _ from h)) (fun _ _ _ _ => rfl)
    ⟨ascii "GET /a.html HTTP/1.0\r\n\r\n", 0, _, 24, by decide, by decide, by decide, rfl, rfl⟩
    (by decide) ⟨by decide, by decide⟩).2 fun _ => by
      rw [HandlerStays, if_neg (by decide),
        show (parsed (ascii "GET /a.html HTTP/1.0\r\n\r\n")).methodName = .GET by decide]
      exact (by decide :
        GetStays pageHost scriptLocation (parsed (ascii "GET /a.html HTTP/1.0\r\n\r\n")).URL 0)

/-- `..` leads out of the root. -/
theorem paths_not_inside_dots :
    ¬ PathsInside scriptLocation {} (buildResponse pageHost scriptServer
      ((parsed (ascii "GET /../etc/passwd HTTP/1.0\r\n\r\n"), {}), {})).2.2 := by
  intro h
  have hused : AllowedCall scriptLocation (.stat (ascii "/www/../etc/passwd")) :=
    h _ ⟨[.stat (ascii "/www/../etc/passwd")], by decide +kernel, List.mem_cons_self⟩
  have hroot : place (cstr scriptLocation.root) = ⟨true, 0, [ascii "www"]⟩ := by decide
  have hpath : place (ascii "/www/../etc/passwd") = ⟨true, 0, [ascii "passwd", ascii "etc"]⟩ := by decide
  rw [AllowedCall, hroot, hpath] at hused
  exact absurd hused.2.2 (by decide)

end Response

end LeftHookRoll
