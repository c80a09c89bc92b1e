import Mathlib
import LeftHookRoll.Response
import LeftHookRoll.Lib.LastMax

/-!
# Which location answers

`matchLocation` is a search for the last longest of the locations that match (`matchLocation_eq`), so the
order of the location blocks does not matter when their paths differ. Its test for a match looks for a
slash behind the path: a path that ends in a slash is passed over unless the URL is the path itself or
has a second slash there.
-/

namespace LeftHookRoll

/-- The location is asked for: its path is `/`, the URL itself, or followed by a slash the start of it. -/
def LocationConf.Matches (url : Bytes) (l : LocationConf) : Prop :=
  l.path = [slash] ∨ url = l.path ∨ l.path ++ [slash] <+: url

instance (url : Bytes) : DecidablePred (LocationConf.Matches url) := fun _ => inferInstanceAs (Decidable (_ ∨ _))

/-- A location that the URL is routed to: none that matches has a longer path, and none behind it the same path. -/
structure RoutedTo (config : ServerConf) (url : Bytes) (loc : LocationConf) : Prop where
  matches_url : loc.Matches url
  longest : ∀ l ∈ config.locations, l.Matches url → l.path.length ≤ loc.path.length
  last : ∃ before after, config.locations = before ++ loc :: after ∧ ∀ l ∈ after, l.path ≠ loc.path

theorem prefix_iff_border {path url : Bytes} : path ++ [slash] <+: url ↔
    path.length < url.length ∧ url[path.length]? = some slash ∧ url.take path.length = path := by
  constructor
  · rintro ⟨rest, rfl⟩
    simp
  · rintro ⟨hlt, hget, htake⟩
    refine ⟨url.drop (path.length + 1), ?_⟩
    rw [List.append_assoc, List.singleton_append]
    rw [List.getElem?_eq_getElem hlt, Option.some.injEq] at hget
    rw [← hget, ← List.drop_eq_getElem_cons hlt]
    nth_rewrite 1 [← htake]
    exact List.take_append_drop _ _

/-- The test of the loop. -/
theorem isMatch_iff (url : Bytes) (l : LocationConf) :
    (if l.path = [slash] then true
      else if url = l.path then true
      else if url.length > l.path.length ∧ url[l.path.length]? = some slash then decide (url.take l.path.length = l.path)
      else false) = true ↔ l.Matches url := by
  rw [LocationConf.Matches, prefix_iff_border]
  split_ifs with hroot hsame hborder
  · simp [hroot]
  · simp [hsame]
  · rw [decide_eq_true_eq]
    refine ⟨fun htake => .inr (.inr ⟨hborder.1, hborder.2, htake⟩), fun h => ?_⟩
    exact ((h.resolve_left hroot).resolve_left hsame).2.2
  · simp only [hroot, hsame, false_or, false_iff]
    exact fun h => hborder ⟨h.1, h.2.1⟩

theorem matchLocation_eq (url : Bytes) (config : ServerConf) :
    matchLocation url config = config.locations.lastMax (LocationConf.Matches url) fun l => l.path.length := by
  rw [matchLocation, List.lastMax]
  refine congrArg Prod.fst (congrArg (fun step => config.locations.foldl step (none, 0)) ?_)
  funext best l
  rw [List.keepMax]
  exact if_congr (and_congr_left' (isMatch_iff url l)) rfl rfl

/-- A path that matches is the start of the URL. -/
theorem LocationConf.Matches.isPrefix {l : LocationConf} {url : Bytes} (h : l.Matches url) (hurl : url.head? = some slash) :
    l.path <+: url := by
  rcases h with hroot | hsame | hborder
  · rcases url with _ | ⟨c, url⟩
    · cases hurl
    · cases hurl
      rw [hroot]
      exact ⟨url, rfl⟩
  · rw [hsame]
  · exact (List.prefix_append _ _).trans hborder

theorem LocationConf.Matches.path_eq {l l' : LocationConf} {url : Bytes} (h : l.Matches url) (h' : l'.Matches url)
    (hurl : url.head? = some slash) (hlen : l.path.length = l'.path.length) : l.path = l'.path :=
  (List.prefix_of_prefix_length_le (h.isPrefix hurl) (h'.isPrefix hurl) hlen.le).eq_of_length hlen

theorem matchLocation_mem {url : Bytes} {config : ServerConf} {loc : LocationConf}
    (h : matchLocation url config = some loc) : loc ∈ config.locations :=
  (List.isLastMax_of_lastMax (matchLocation_eq url config ▸ h)).mem

theorem routedTo_of_matchLocation {url : Bytes} {config : ServerConf} {loc : LocationConf}
    (h : matchLocation url config = some loc) : RoutedTo config url loc := by
  have hmax := List.isLastMax_of_lastMax (matchLocation_eq url config ▸ h)
  refine ⟨hmax.holds, fun l hl hmatch => hmax.le hl hmatch, ?_⟩
  obtain ⟨before, after, hlocs, hloc, -, hafter⟩ := hmax
  refine ⟨before, after, hlocs, fun l hl hpath => ?_⟩
  have hmatch : l.Matches url := by
    rw [LocationConf.Matches, hpath]
    exact hloc
  have hlt : l.path.length < loc.path.length := hafter l hl hmatch
  exact absurd (congrArg List.length hpath) hlt.ne

/-- The longest of the locations that match, of equal paths the last; the order of different paths is free. -/
theorem matchLocation_routes (config : ServerConf) (url : Bytes) (hurl : url.head? = some slash) :
    (matchLocation url config = none ↔ ∀ loc ∈ config.locations, ¬ loc.Matches url) ∧
      (∀ loc, matchLocation url config = some loc → RoutedTo config url loc) ∧
      ((config.locations.map LocationConf.path).Nodup → ∀ config' : ServerConf, config'.locations.Perm config.locations →
        matchLocation url config' = matchLocation url config) := by
  refine ⟨?_, fun loc => routedTo_of_matchLocation, fun hdistinct config' hperm => ?_⟩
  · rw [matchLocation_eq]
    exact List.lastMax_eq_none
  · rw [matchLocation_eq, matchLocation_eq]
    refine (List.lastMax_perm hperm.symm fun l hl l' hl' h h' hlen => ?_).symm
    exact List.inj_on_of_nodup_map hdistinct hl hl' (h.path_eq h' hurl hlen)

/-- A file with the locations `/` and `/img`, in both orders. -/
theorem matchLocation_routes_img :
    matchLocation (ascii "/img/a.png") { locations := [{ path := ascii "/img" }, { path := ascii "/" }] } =
      matchLocation (ascii "/img/a.png") { locations := [{ path := ascii "/" }, { path := ascii "/img" }] } :=
  (matchLocation_routes { locations := [{ path := ascii "/" }, { path := ascii "/img" }] } (ascii "/img/a.png") rfl).2.2 (by decide) { locations := [{ path := ascii "/img" }, { path := ascii "/" }] } (List.Perm.swap _ _ _)

/-! ### Paths that end in a slash -/

/-- A location whose path ends in a slash and starts the URL is not passed over for a shorter one. -/
def KeepsTrailing (config : ServerConf) (url : Bytes) : Prop :=
  ∀ loc ∈ config.locations, loc.path.getLast? = some slash → loc.path <+: url →
    ∃ best, matchLocation url config = some best ∧ loc.path.length ≤ best.path.length

/-- What follows such a path in the URL is nothing, or another slash, or there is as long a location at a border. -/
def Bordered (config : ServerConf) (url : Bytes) : Prop :=
  ∀ loc ∈ config.locations, loc.path.getLast? = some slash → loc.path <+: url →
    ∃ l ∈ config.locations, l.Matches url ∧ loc.path.length ≤ l.path.length

theorem keepsTrailing_iff (config : ServerConf) (url : Bytes) : KeepsTrailing config url ↔ Bordered config url := by
  refine forall₄_congr fun loc _ _ _ => ?_
  rw [matchLocation_eq]
  constructor
  · rintro ⟨best, hbest, hlen⟩
    have hmax := List.isLastMax_of_lastMax hbest
    exact ⟨best, hmax.mem, hmax.holds, hlen⟩
  · rintro ⟨l, hl, hmatch, hlen⟩
    obtain ⟨best, hbest⟩ := List.exists_lastMax (fun l : LocationConf => l.path.length) hl hmatch
    exact ⟨best, hbest, hlen.trans ((List.isLastMax_of_lastMax hbest).le hl hmatch)⟩

/-- `location /img/` does not answer `/img/a.png`; the request gets the location `/`. -/
theorem not_keepsTrailing_img :
    ¬ KeepsTrailing { locations := [{ path := ascii "/" }, { path := ascii "/img/" }] } (ascii "/img/a.png") := by
  intro h
  obtain ⟨best, hbest, hlen⟩ := h { path := ascii "/img/" } (by decide) (by decide) (by decide)
  have hroot : matchLocation (ascii "/img/a.png") { locations := [{ path := ascii "/" }, { path := ascii "/img/" }] } =
      some { path := ascii "/" } := by decide
  rw [hroot] at hbest
  cases hbest
  exact absurd hlen (by decide)

end LeftHookRoll
