import LeftHookRoll.Lib.Cursor
import LeftHookRoll.Lib.UrlPath
import LeftHookRoll.ResponseHeaders
import LeftHookRoll.StaticScript

/-!
# The links of a listing

`buildAutoIndexPage` writes one link for each entry, with nothing but the entry's name. A client resolves it
against the URL of the request, not against the `dirUrl` of the title: `listsEntries_iff` says for which URLs
that leads to the entry.
-/

namespace LeftHookRoll

open Eff UrlPath

/-- The entries that are listed. -/
def listed (names : List Bytes) : List Bytes := names.filter fun name => ¬ (name = [dot] ∨ name = [dot, dot])

/-- The line of a link: the reference and the text that is shown. -/
def linkLine (href label : Bytes) : Bytes := ascii "<a href=\"" ++ href ++ ascii "\">" ++ label ++ ascii "</a>\r\n"

/-- The links to the entries, when the first `stat` has the number `t`. -/
def entryLinks (sys : Sys) (dirPath : Bytes) : Nat → List Bytes → List Bytes
  | _, [] => []
  | t, name :: names =>
    if name = [dot] ∨ name = [dot, dot] then entryLinks sys dirPath t names
    else
      (if fileKind sys t (cstr (dirPath ++ [slash] ++ name)) = some .directory then name ++ [slash] else name) ::
        entryLinks sys dirPath (t + 1) names

/-- What the page has of them. -/
def entryLines (sys : Sys) (dirPath : Bytes) (t : Nat) (names : List Bytes) : Bytes :=
  (entryLinks sys dirPath t names).flatMap fun link => linkLine link link

/-- The page up to its first entry. -/
def listingHead (url : Bytes) : Bytes :=
  ascii "<!DOCTYPE html>\r\n<html>\r\n<head><meta charset=\"utf-8\"><title>Index of " ++ url ++
    ascii "</title></head>\r\n<body>\r\n<h1>Index of " ++ url ++ ascii "</h1>\r\n<hr>\r\n<pre>\r\n" ++
    if url ≠ [slash] then ascii "<a href=\"../\">../</a>\r\n" else []

def listingTail : Bytes := ascii "</pre>\r\n<hr>\r\n</body>\r\n</html>"

/-- The URL of a directory with the slash that its entries are behind. -/
def dirUrl (url : Bytes) : Bytes := if url.getLast? = some slash then url else url ++ [slash]

/-- A byte that means the same in a URL as in a name. -/
def isUnreserved (c : UInt8) : Bool :=
  isdigit c ∨ (65 ≤ c ∧ c ≤ 90) ∨ (97 ≤ c ∧ c ≤ 122) ∨ c ∈ ascii "-._~"

/-- A reference that leads to an entry: to the URL of the directory, a slash and the name, with a slash behind or not. -/
def LeadsTo (url name href : Bytes) : Prop :=
  ∃ tail, (tail = [] ∨ tail = [slash]) ∧ resolve slash dot url href = normalize slash dot (dirUrl url ++ (name ++ tail))

/-- A link whose ends can be read off the page: no quote is in the reference, and no `<` in the text. -/
structure Link where
  href : Bytes
  label : Bytes
  quoted : 34 ∉ href
  closed : 60 ∉ label

/-- The part of a page that is made of links. -/
def linkLines (links : List Link) : Bytes := links.flatMap fun l => linkLine l.href l.label

/-- A page that lists the entries: between its head and its tail are their links, one each, and nothing else. -/
def ListsEntries (url : Bytes) (names : List Bytes) (page : Bytes) : Prop :=
  ∃ links, page = listingHead (dirUrl url) ++ linkLines links ++ listingTail ∧
    List.Forall₂ (fun name l => LeadsTo url name l.href) (listed names) links

/-- What stands behind the last slash does not count: nothing, `.`, or `..` at the root. -/
def EndsInPlace (url : Bytes) : Prop :=
  let last := url.rtakeWhile (· ≠ slash)
  last = [] ∨ last = [dot] ∨ last = [dot, dot] ∧ normalize slash dot (url.rdropWhile (· ≠ slash)) = [slash]

instance (url : Bytes) : Decidable (EndsInPlace url) := inferInstanceAs (Decidable (_ ∨ _ ∨ _ ∧ _))

/-! ### The page -/

theorem autoIndexEntries_eq {σ : Type} (sys : Sys) (dirPath : Bytes) (names : List Bytes) (s : σ) (w : World) :
    ∃ w', autoIndexEntries sys dirPath names (s, w) =
      (.ok (entryLines sys dirPath w.tick names), s, w') := by
  induction names generalizing w with
  | nil => exact ⟨w, rfl⟩
  | cons name names ih =>
    rw [autoIndexEntries, entryLines, entryLinks]
    split
    · exact ih w
    · obtain ⟨w', hrun⟩ := ih (lookedUp (dirPath ++ [slash] ++ name) w)
      refine ⟨w', ?_⟩
      rw [Eff.bind_ok (sysStat_eq sys _ s w)]
      exact (Eff.bind_ok hrun).trans (by rw [List.flatMap_cons]; rfl)

theorem forall₂_entryLinks (sys : Sys) (dirPath : Bytes) (t : Nat) (names : List Bytes) :
    List.Forall₂ (fun name link => link = name ∨ link = name ++ [slash]) (listed names)
      (entryLinks sys dirPath t names) := by
  induction names generalizing t with
  | nil => exact .nil
  | cons name names ih =>
    rw [entryLinks]
    by_cases hdots : name = [dot] ∨ name = [dot, dot]
    · rw [if_pos hdots, listed, List.filter_cons_of_neg (by simpa using fun h => hdots.resolve_left h)]
      exact ih t
    · rw [if_neg hdots, listed, List.filter_cons_of_pos (by simpa using not_or.1 hdots)]
      refine .cons ?_ (ih (t + 1))
      split
      · exact .inr rfl
      · exact .inl rfl

theorem buildAutoIndexPage_eq {σ : Type} {sys : Sys} {dirPath : Bytes} {names : List Bytes} {w : World}
    (hopen : sys.opendir w.tick (cstr dirPath) = some names) (url : Bytes) (s : σ) :
    ∃ w', buildAutoIndexPage sys url dirPath (s, w) =
      (.ok (listingHead url ++ entryLines sys dirPath (w.tick + 1) names ++ listingTail), s, w') := by
  obtain ⟨w', hrun⟩ := autoIndexEntries_eq sys dirPath names s
    { w with calls := .opendir (cstr dirPath) :: w.calls, tick := w.tick + 1 }
  refine ⟨w', ?_⟩
  rw [buildAutoIndexPage, logCall, Eff.modWorld_bind, sysTick_bind]
  simp only [hopen]
  rw [Eff.bind_ok hrun]
  rfl

theorem listingTail_ne_nil : listingTail ≠ [] := by simp [listingTail, ascii]

/-! ### The links that stand on a page -/

theorem linkLine_append (href label rest : Bytes) : linkLine href label ++ rest =
    ascii "<a href=\"" ++ (href ++ 34 :: 62 :: (label ++ 60 :: (ascii "/a>\r\n" ++ rest))) := by
  have hend : ascii "\">" = [34, 62] := by decide
  have hclose : ascii "</a>\r\n" = 60 :: ascii "/a>\r\n" := by decide
  simp [linkLine, hend, hclose]

theorem unique_linkLine : Cursor.UniqueReading (fun l : Link => linkLine l.href l.label) fun _ => True := by
  rintro ⟨href, label, hquoted, hclosed⟩ ⟨href', label', hquoted', hclosed'⟩ - - rest rest' h
  rw [linkLine_append, linkLine_append] at h
  obtain ⟨rfl, htext⟩ := Cursor.append_cons_unique hquoted hquoted' (List.append_cancel_left h)
  obtain ⟨rfl, hend⟩ := Cursor.append_cons_unique hclosed hclosed' (List.cons.inj htext).2
  exact ⟨rfl, List.append_cancel_left hend⟩

/-- The links can be read off the page. -/
theorem linkLines_injective {links links' : List Link} (h : linkLines links = linkLines links') : links = links' := by
  refine unique_linkLine.all (fun l _ hnil => ?_) (fun _ _ => trivial) (fun _ _ => trivial) h
  rw [← List.append_nil (linkLine l.href l.label), linkLine_append] at hnil
  cases hnil

theorem exists_links {names links : List Bytes} (h : List.Forall₂ (fun _ link => 34 ∉ link ∧ 60 ∉ link) names links) :
    ∃ ls : List Link, ls.map Link.href = links ∧ linkLines ls = links.flatMap fun link => linkLine link link := by
  induction h with
  | nil => exact ⟨[], rfl, rfl⟩
  | @cons _ link _ links hlink _ ih =>
    obtain ⟨ls, rfl, hlines⟩ := ih
    refine ⟨⟨link, link, hlink.1, hlink.2⟩ :: ls, rfl, ?_⟩
    rw [linkLines, List.flatMap_cons, List.flatMap_cons]
    exact congrArg (linkLine link link ++ ·) hlines

/-! ### Where the links lead -/

theorem entry_of_safe {name : Bytes} (hne : name ≠ []) (hsafe : ∀ c ∈ name, isUnreserved c)
    (hdots : ¬ (name = [dot] ∨ name = [dot, dot])) {tail : Bytes} (htail : tail = [] ∨ tail = [slash]) :
    Entry slash dot name tail where
  ne_nil := hne
  not_mem h := absurd (hsafe slash h) (by decide)
  not_dot h := hdots (.inl h)
  not_dots h := hdots (.inr h)
  tail_eq := htail

theorem not_mem_entry {c : UInt8} {name tail : Bytes} (hsafe : ∀ d ∈ name, isUnreserved d) (h : Entry slash dot name tail)
    (hc : isUnreserved c = false) (hslash : c ≠ slash) : c ∉ name ++ tail := by
  intro hmem
  rcases List.mem_append.1 hmem with hname | htail
  · exact Bool.false_ne_true (hc.symm.trans (hsafe c hname))
  · rcases h.tail_eq with rfl | rfl
    · cases htail
    · exact hslash (List.mem_singleton.1 htail)

/-- A URL up to its last slash, and what stands behind. -/
theorem exists_last {url : Bytes} (hurl : url.head? = some slash) : ∃ p s, url = p ++ slash :: s ∧ slash ∉ s := by
  have hmem : slash ∈ url := List.mem_of_mem_head? hurl
  obtain ⟨n, hn⟩ : ∃ n, url.rfindElem slash = some n := by
    rcases hfind : url.rfindElem slash with _ | n
    · exact absurd hmem (List.not_mem_of_rfindElem hfind)
    · exact ⟨n, rfl⟩
  exact ⟨url.take n, url.drop (n + 1), (List.eq_append_of_rfindElem hn).1, List.not_mem_drop_of_rfindElem hn⟩

theorem endsInPlace_iff {p s : Bytes} (hs : slash ∉ s) : EndsInPlace (p ++ slash :: s) ↔
    s = [] ∨ s = [dot] ∨ s = [dot, dot] ∧ normalize slash dot (p ++ [slash]) = [slash] := by
  rw [EndsInPlace, rtakeWhile_append hs, rdropWhile_append hs]

/-- The name of an entry, resolved against the URL, is the entry when what is behind the URL's last slash does not count. -/
theorem resolve_link_iff {url name tail : Bytes} (hurl : url.head? = some slash) (h : Entry slash dot name tail) :
    resolve slash dot url (name ++ tail) = normalize slash dot (dirUrl url ++ (name ++ tail)) ↔ EndsInPlace url := by
  obtain ⟨p, s, rfl, hs⟩ := exists_last hurl
  rw [endsInPlace_iff hs]
  rcases eq_or_ne s [] with rfl | hne
  · have hdir : dirUrl (p ++ [slash]) = p ++ [slash] := by rw [dirUrl, if_pos (by simp)]
    rw [resolve_eq hs h.head, hdir, List.append_assoc]
    simp
  · have hlast : (p ++ slash :: s).getLast? ≠ some slash := by
      rw [List.getLast?_append_of_ne_nil _ (List.cons_ne_nil _ _), List.getLast?_cons_of_ne_nil hne]
      exact fun h => hs (List.mem_of_getLast? h)
    rw [dirUrl, if_neg hlast, resolve_entry_iff hs h]
    simp [hne]

theorem exists_dirUrl (url : Bytes) : ∃ p, dirUrl url = p ++ [slash] := by
  rw [dirUrl]
  split
  · rename_i hlast
    exact ⟨_, (List.dropLast_append_getLast? slash (Option.mem_def.2 hlast)).symm⟩
  · exact ⟨url, rfl⟩

/-- No other spelling of the entry helps: the slash behind it shows in the path. -/
theorem leadsTo_iff {url name tail : Bytes} (hurl : url.head? = some slash) (h : Entry slash dot name tail) :
    LeadsTo url name (name ++ tail) ↔ EndsInPlace url := by
  rw [← resolve_link_iff hurl h]
  constructor
  · rintro ⟨tail', htail', heq⟩
    have h' : Entry slash dot name tail' := ⟨h.ne_nil, h.not_mem, h.not_dot, h.not_dots, htail'⟩
    obtain ⟨p, s, rfl, hs⟩ := exists_last hurl
    obtain ⟨p', hp'⟩ := exists_dirUrl (p ++ slash :: s)
    have hpaths := heq
    rw [resolve_eq hs h.head, hp', List.append_assoc, List.singleton_append] at hpaths
    obtain rfl := h.tail_unique h' hpaths
    exact heq
  · exact fun heq => ⟨tail, h.tail_eq, heq⟩

theorem listsEntries_iff {url : Bytes} (hurl : url.head? = some slash) {names : List Bytes}
    (hsafe : ∀ name ∈ names, name ≠ [] ∧ ∀ c ∈ name, isUnreserved c) {links : List Bytes}
    (hlinks : List.Forall₂ (fun name link => link = name ∨ link = name ++ [slash]) (listed names) links) :
    ListsEntries url names (listingHead (dirUrl url) ++ (links.flatMap fun link => linkLine link link) ++ listingTail) ↔
      listed names = [] ∨ EndsInPlace url := by
  have hentry : ∀ name ∈ listed names, ∀ {link : Bytes}, link = name ∨ link = name ++ [slash] →
      ∃ tail, link = name ++ tail ∧ (∀ c ∈ name, isUnreserved c) ∧ Entry slash dot name tail := by
    intro name hname link hlink
    obtain ⟨hmem, hdots⟩ := List.mem_filter.1 hname
    have h {tail : Bytes} (htail : tail = [] ∨ tail = [slash]) : Entry slash dot name tail :=
      entry_of_safe (hsafe name hmem).1 (hsafe name hmem).2 (by simpa using hdots) htail
    rcases hlink with rfl | rfl
    · exact ⟨[], (List.append_nil _).symm, (hsafe _ hmem).2, h (.inl rfl)⟩
    · exact ⟨[slash], rfl, (hsafe name hmem).2, h (.inr rfl)⟩
  have hall := (List.forall₂_and_left (listed names) links).2 ⟨fun name hname link => @hentry name hname link, hlinks⟩
  have hiff : List.Forall₂ (fun name link => LeadsTo url name link ↔ EndsInPlace url) (listed names) links := by
    refine hall.imp fun name link h => ?_
    obtain ⟨tail, rfl, -, he⟩ := h.1 link h.2
    exact leadsTo_iff hurl he
  obtain ⟨ls, rfl, hlines⟩ : ∃ ls : List Link, ls.map Link.href = links ∧
      linkLines ls = links.flatMap fun link => linkLine link link := by
    refine exists_links (hall.imp fun name link h => ?_)
    obtain ⟨tail, rfl, hsafe, he⟩ := h.1 link h.2
    exact ⟨not_mem_entry hsafe he (by decide) (by decide), not_mem_entry hsafe he (by decide) (by decide)⟩
  rw [← hlines]
  constructor
  · rintro ⟨links', heq, hleads⟩
    obtain rfl : ls = links' := linkLines_injective (List.append_cancel_left (List.append_cancel_right heq))
    rw [List.forall₂_map_right_iff] at hiff
    generalize listed names = shown at hiff hleads ⊢
    cases hiff with
    | nil => exact .inl rfl
    | cons hfirst _ =>
      cases hleads with
      | cons hlead _ => exact .inr (hfirst.1 hlead)
  · intro h
    refine ⟨ls, rfl, List.forall₂_map_right_iff.1 ?_⟩
    rcases h with hnil | hplace
    · rw [hnil] at hiff ⊢
      generalize ls.map Link.href = hrefs at hiff ⊢
      cases hiff
      exact .nil
    · exact hiff.imp fun name link h => h.2 hplace

/-! ### What GET answers -/

namespace Response

/-- GET, its first system call being the one with the number `t`, lists the directory, and reads these names. -/
structure ServesListing (sys : Sys) (loc : LocationConf) (url : Bytes) (t : Nat) (names : List Bytes) : Prop where
  directory : fileKind sys t (resolvedPath loc url) = some .directory
  no_page : loc.defaultPage ≠ [] → fileKind sys (t + 1) (indexPath loc url) ≠ some .regular
  autoIndex : loc.autoIndex
  names : sys.opendir (if loc.defaultPage = [] then t + 1 else t + 2) (resolvedPath loc url) = some names

variable {sys : Sys} {req : Request} {loc : LocationConf} {config : ServerConf} {r r' : Response} {w w' : World}

theorem serveDirectory_listing {url path : Bytes} {names : List Bytes} (hauto : loc.autoIndex)
    (hopen : sys.opendir w.tick (cstr path) = some names) (hstore : r.responseDataStore.Sound [])
    (hrun : serveDirectory sys url path loc config (r, w) = (.ok (), r', w')) :
    r'.responseDataStore.Sound (listingHead (dirUrl url) ++
      entryLines sys path (w.tick + 1) names ++ listingTail) := by
  obtain ⟨w₁, hpage⟩ := buildAutoIndexPage_eq hopen (dirUrl url) r
  have hne : listingHead (dirUrl url) ++ entryLines sys path (w.tick + 1) names ++ listingTail ≠ [] :=
    List.append_ne_nil_of_right_ne_nil _ listingTail_ne_nil
  rw [serveDirectory, if_pos hauto] at hrun
  have hrest := (Eff.bind_ok hpage).symm.trans hrun
  rw [if_neg hne] at hrest
  rcases happend : DataStore.append sys (listingHead (dirUrl url) ++
    entryLines sys path (w.tick + 1) names ++ listingTail) (r.responseDataStore, w₁) with ⟨x, d, w₂⟩
  cases x with
  | ok =>
    rw [Eff.bind_ok (onStore_eq happend), Eff.modObj_bind, finalizeSuccess_run] at hrest
    obtain ⟨rfl, rfl⟩ := Prod.mk.inj (Prod.mk.inj hrest).2
    rw [finished_eq]
    have hpage := DataStore.append_ok happend hstore
    rwa [List.nil_append] at hpage
  | error e =>
    rw [Eff.bind_error (onStore_eq happend)] at hrest
    cases hrest

theorem handleGet_listing {names : List Bytes} (hurl : req.URL ≠ [])
    (hserves : ServesListing sys loc req.URL w.tick names) (hstore : r.responseDataStore.Sound [])
    (hrun : handleGet sys req loc config (r, w) = (.ok (), r', w')) :
    ∃ t, r'.responseDataStore.Sound (listingHead (dirUrl req.URL) ++
      entryLines sys (stripSlash (loc.root ++ req.URL)) t names ++ listingTail) := by
  rw [handleGet_eq hurl] at hrun
  obtain ⟨st, hst, hdir⟩ := Option.map_eq_some_iff.1 hserves.directory
  rw [show sys.stat w.tick (cstr (stripSlash (loc.root ++ req.URL))) = some st from hst, serveResolved, hdir] at hrun
  have hnames := hserves.names
  by_cases hpage : loc.defaultPage = []
  · rw [if_pos hpage] at hnames
    simp only [hpage, ne_eq, not_true_eq_false, if_false] at hrun
    exact ⟨_, serveDirectory_listing hserves.autoIndex hnames (by exact hstore) hrun⟩
  · rw [if_neg hpage] at hnames
    simp only [hpage, ne_eq, not_false_eq_true, if_true] at hrun
    rw [Eff.bind_ok (sysStat_eq sys _ _ _)] at hrun
    have hindex : Option.map FileStat.kind (sys.stat (lookedUp (stripSlash (loc.root ++ req.URL)) w).tick
        (cstr (stripSlash (loc.root ++ req.URL) ++ [slash] ++ loc.defaultPage))) ≠ some .regular :=
      hserves.no_page hpage
    rw [if_neg hindex] at hrun
    exact ⟨_, serveDirectory_listing hserves.autoIndex hnames (by exact hstore) hrun⟩

/-- The links of a served listing lead to the entries just when nothing behind the URL's last slash counts. -/
theorem listing_links_iff {names : List Bytes} (hurl : req.URL.head? = some slash)
    (hserves : ServesListing sys loc req.URL w.tick names)
    (hsafe : ∀ name ∈ names, name ≠ [] ∧ ∀ c ∈ name, isUnreserved c) (hstore : r.responseDataStore.Sound [])
    (hrun : handleGet sys req loc config (r, w) = (.ok (), r', w')) :
    ∃ page, r'.responseDataStore.Sound page ∧
      (ListsEntries req.URL names page ↔ listed names = [] ∨ EndsInPlace req.URL) := by
  have hne : req.URL ≠ [] := fun h => by rw [h] at hurl; cases hurl
  obtain ⟨t, hpage⟩ := handleGet_listing hne hserves hstore hrun
  exact ⟨_, hpage, listsEntries_iff hurl hsafe (forall₂_entryLinks sys _ t names)⟩

/-- A system with one directory, with the file `a` in it. -/
def oneFile : Sys := { Sys.calm with
  stat := fun _ path => some ⟨if path = ascii "/www/docs" then .directory else .regular, 0⟩
  opendir := fun _ _ => some [ascii "a"] }

/-- The listing of the directory under either URL. -/
def docsListing (url : Bytes) : Except Exn Unit × Response × World :=
  handleGet oneFile { URL := url } { root := ascii "/www", autoIndex := true } {} ({}, {})

theorem docsListing_eq {url : Bytes} (h : (docsListing url).1.isOk) :
    docsListing url = (.ok (), (docsListing url).2.1, (docsListing url).2.2) := by
  rcases hrun : docsListing url with ⟨_ | _, r', w'⟩
  · rw [hrun] at h
    cases h
  · rfl

theorem oneFile_serves {url : Bytes} (hurl : resolvedPath { root := ascii "/www" } url = ascii "/www/docs") :
    ServesListing oneFile { root := ascii "/www", autoIndex := true } url 0 [ascii "a"] where
  directory := by
    show Option.map FileStat.kind (oneFile.stat 0 (resolvedPath { root := ascii "/www" } url)) = _
    rw [hurl]
    rfl
  no_page h := absurd rfl h
  autoIndex := rfl
  names := rfl

theorem listing_links_iff_docs : ∃ page, (docsListing (ascii "/docs/")).2.1.responseDataStore.Sound page ∧
    ListsEntries (ascii "/docs/") [ascii "a"] page := by
  have hserves := @oneFile_serves (ascii "/docs/") (by decide)
  have hrun := @docsListing_eq (ascii "/docs/") (by decide +kernel)
  obtain ⟨page, hpage, hiff⟩ := @listing_links_iff oneFile { URL := ascii "/docs/" } _ _ _ _ _ _ _ (by decide) hserves
    (by decide +kernel) (DataStore.holds_new {}).sound hrun
  exact ⟨page, hpage, hiff.2 (.inr (by decide))⟩

/-- Without the slash, the link to `/docs/a` leads to `/a`. -/
theorem listing_link_lost : ∃ r' w', handleGet oneFile { URL := ascii "/docs" }
    { root := ascii "/www", autoIndex := true } {} ({}, {}) = (.ok (), r', w') ∧
      ServesListing oneFile { root := ascii "/www", autoIndex := true } (ascii "/docs") 0 [ascii "a"] ∧
      resolve slash dot (ascii "/docs") (ascii "a") = ascii "/a" ∧
      ∃ page, r'.responseDataStore.Sound page ∧ ¬ ListsEntries (ascii "/docs") [ascii "a"] page := by
  have hserves := @oneFile_serves (ascii "/docs") (by decide)
  have hrun := @docsListing_eq (ascii "/docs") (by decide +kernel)
  obtain ⟨t, hpage⟩ := handleGet_listing (by decide) hserves (DataStore.holds_new {}).sound hrun
  refine ⟨_, _, hrun, hserves, by decide +kernel, _, hpage, ?_⟩
  intro hlists
  have hwhen := (listsEntries_iff (by decide) (by decide +kernel) (forall₂_entryLinks oneFile _ t [ascii "a"])).1 hlists
  exact absurd hwhen (by decide +kernel)

end Response

end LeftHookRoll
