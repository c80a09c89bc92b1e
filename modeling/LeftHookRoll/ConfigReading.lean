import LeftHookRoll.ConfigGrammar

/-!
# What the parser reads

A `ServerSetting` is a directive with the values it was given, whatever these are; `apply` is what it does to
the configuration, if its values pass the checks of the code. The parser returns exactly when its tokens are
those of settings that apply (`parseText_ok`).
-/

namespace LeftHookRoll

namespace ConfigParser

/-! ### Settings -/

inductive LocationSetting
  | root (path : Bytes)
  | methods (names : List Bytes)
  | autoindex (value : Bytes)
  | index (page : Bytes)
  | uploadStore (dir : Bytes)
  | ret (code url : Bytes)
  | cgiInterpreter (path ext : Bytes)
deriving DecidableEq

namespace LocationSetting

def directive : LocationSetting → Directive
  | root path => ⟨ascii "root", [path]⟩
  | methods names => ⟨ascii "methods", names⟩
  | autoindex value => ⟨ascii "autoindex", [value]⟩
  | index page => ⟨ascii "index", [page]⟩
  | uploadStore dir => ⟨ascii "upload_store", [dir]⟩
  | ret code url => ⟨ascii "return", [code, url]⟩
  | cgiInterpreter path ext => ⟨ascii "cgi_interpreter", [path, ext]⟩

def tokens (x : LocationSetting) : List Bytes := x.directive.tokens

def addMethods (loc : LocationConf) (names : List Bytes) : Option LocationConf :=
  names.foldlM (fun loc name => (parseMethodToken name).toOption.map loc.addAllowedMethod) loc

def apply (loc : LocationConf) : LocationSetting → Option LocationConf
  | root path => some { loc with root := path }
  | methods names => if names = [] then none else addMethods loc names
  | autoindex value =>
    if value = ascii "on" then some { loc with autoIndex := true }
    else if value = ascii "off" then some { loc with autoIndex := false }
    else none
  | index page => some { loc with defaultPage := page }
  | uploadStore dir => some { loc with storageLocation := dir }
  | ret code url => if code.all isdigit then some { loc with returnCode := code, returnURL := url } else none
  | cgiInterpreter path ext => some (loc.addCgiInterpreter ext path)

end LocationSetting

inductive ServerSetting
  | listen (value : Bytes)
  | serverName (name : Bytes)
  | maxBodySize (value : Bytes)
  | errorPage (code path : Bytes)
  | location (path : Bytes) (xs : List LocationSetting)

namespace ServerSetting

def item : ServerSetting → Item
  | listen value => .directive ⟨ascii "listen", [value]⟩
  | serverName name => .directive ⟨ascii "server_name", [name]⟩
  | maxBodySize value => .directive ⟨ascii "client_max_body_size", [value]⟩
  | errorPage code path => .directive ⟨ascii "error_page", [code, path]⟩
  | location path xs => .location path (xs.map LocationSetting.directive)

def tokens (x : ServerSetting) : List Bytes := x.item.tokens

def apply (resolve : Bytes → Option Nat) (conf : ServerConf) : ServerSetting → Option ServerConf
  | listen value => (parseSockAddr resolve value).toOption.map fun addr => { conf with interfacePortPair := addr }
  | serverName name => some { conf with serverName := name }
  | maxBodySize value => (parseBodySize value).toOption.map fun size => { conf with maxBodySize := size }
  | errorPage code path => if code.length = 3 ∧ code.all isdigit then some (conf.addErrorPage code path) else none
  | location path xs => (xs.foldlM LocationSetting.apply { path := path }).map conf.addLocation

end ServerSetting

/-- A server block, as it was written. -/
abbrev Settings := List ServerSetting

namespace Settings

def block (b : Settings) : Block := b.map ServerSetting.item

def tokens (b : Settings) : List Bytes := blockTokens b.block

def conf (resolve : Bytes → Option Nat) (b : Settings) : Option ServerConf := b.foldlM (ServerSetting.apply resolve) {}

end Settings

/-! ### The parsers of one directive -/

section Directives

variable {ts rest : List Bytes}

theorem expect_ok {token : Bytes} : (expect token).run ts = .ok ((), rest) ↔ ts = token :: rest := by
  unfold expect consume
  rw [Cursor.bind_eq_ok]
  constructor
  · rintro ⟨got, mid, hgot, h⟩
    rw [Cursor.next_eq_ok] at hgot
    split at h
    · cases h
    · rename_i heq
      cases h
      rw [hgot, not_not.1 heq]
  · rintro rfl
    exact ⟨token, rest, rfl, by rw [if_neg (not_not.2 rfl)]; rfl⟩

variable {α : Type} {a : α}

/-- A directive with one value. -/
theorem oneValue_ok {k : Bytes → Parser α} :
    (do let v ← consume; expect (ascii ";"); k v : Parser α).run ts = .ok (a, rest) ↔
      ∃ v mid, ts = v :: ascii ";" :: mid ∧ (k v).run mid = .ok (a, rest) := by
  unfold consume
  simp only [Cursor.bind_eq_ok, Cursor.next_eq_ok]
  constructor
  · rintro ⟨v, mid, rfl, _, mid', hsemi, h⟩
    rw [expect_ok] at hsemi
    exact ⟨v, mid', by rw [hsemi], h⟩
  · rintro ⟨v, mid, rfl, h⟩
    exact ⟨v, _, rfl, (), mid, expect_ok.2 rfl, h⟩

/-- A directive with two values. -/
theorem twoValues_ok {k : Bytes → Bytes → Parser α} :
    (do let v ← consume; let v' ← consume; expect (ascii ";"); k v v' : Parser α).run ts = .ok (a, rest) ↔
      ∃ v v' mid, ts = v :: v' :: ascii ";" :: mid ∧ (k v v').run mid = .ok (a, rest) := by
  have hfirst : (do let v ← consume; let v' ← consume; expect (ascii ";"); k v v' : Parser α).run ts = .ok (a, rest) ↔
      ∃ v mid, ts = v :: mid ∧ (do let v' ← consume; expect (ascii ";"); k v v' : Parser α).run mid = .ok (a, rest) := by
    unfold consume
    rw [Cursor.bind_eq_ok]
    simp only [Cursor.next_eq_ok]
  rw [hfirst]
  simp only [oneValue_ok]
  constructor
  · rintro ⟨v, mid, rfl, v', mid', rfl, h⟩
    exact ⟨v, v', mid', rfl, h⟩
  · rintro ⟨v, v', mid, rfl, h⟩
    exact ⟨v, _, rfl, v', mid, rfl, h⟩

theorem pure_ok {a' : α} : (pure a' : Parser α).run ts = .ok (a, rest) ↔ a' = a ∧ ts = rest := by
  rw [Cursor.run_pure, Except.ok.injEq, Prod.mk.injEq]

theorem toOption_eq_some {ε β : Type} {r : Except ε β} {b : β} : r.toOption = some b ↔ r = .ok b := by
  rcases r with e | b'
  · exact iff_of_false (by intro h; cases h) (by intro h; cases h)
  · exact ⟨fun h => by cases h; rfl, fun h => by cases h; rfl⟩

/-- A value that is converted first. -/
theorem lift_pure_ok {β : Type} {r : Except ConfigException β} {f : β → α} :
    (do let b ← Cursor.lift r; return f b : Parser α).run ts = .ok (a, rest) ↔ r.toOption.map f = some a ∧ ts = rest := by
  rw [Cursor.bind_eq_ok]
  simp only [Cursor.lift_eq_ok, pure_ok, Option.map_eq_some_iff, toOption_eq_some]
  constructor
  · rintro ⟨b, mid, ⟨hb, rfl⟩, hf, hrest⟩
    exact ⟨⟨b, hb, hf⟩, hrest⟩
  · rintro ⟨⟨b, hb, hf⟩, hrest⟩
    exact ⟨b, ts, ⟨hb, rfl⟩, hf, hrest⟩

end Directives

/-! ### Loops over directives -/

section Loops

variable {α X : Type} {z : Bytes} {directive : Bytes → α → Parser α} {tokens : X → List Bytes}
  {apply : α → X → Option α} {a a' : α} {ts rest : List Bytes}

/-- A loop reads settings if its body reads one. -/
theorem steps_iff (hstart : ∀ x a a', apply a x = some a' → ∃ t r, tokens x = t :: r ∧ t ≠ z)
    (hdir : ∀ t a ts a' rest, t ≠ z →
      ((directive t a).run ts = .ok (a', rest) ↔ ∃ x, t :: ts = tokens x ++ rest ∧ apply a x = some a')) :
    Cursor.Steps (fun t => t = z) directive a ts a' (z :: rest) ↔
      ∃ xs : List X, ts = xs.flatMap tokens ++ z :: rest ∧ xs.foldlM apply a = some a' := by
  constructor
  · intro h
    obtain ⟨last, hlast⟩ : ∃ last, last = z :: rest := ⟨_, rfl⟩
    rw [← hlast] at h ⊢
    induction h with
    | nil => cases hlast
    | stop ht a ts => exact ⟨[], rfl, rfl⟩
    | step ht hbody _ ih =>
      obtain ⟨xs, hmid, hfold⟩ := ih hlast
      obtain ⟨x, hx, happly⟩ := (hdir _ _ _ _ _ (by simpa using ht)).1 hbody
      refine ⟨x :: xs, ?_, ?_⟩
      · rw [hx, hmid, List.flatMap_cons, List.append_assoc]
      · rw [List.foldlM_cons, happly]
        exact hfold
  · rintro ⟨xs, rfl, hfold⟩
    induction xs generalizing a with
    | nil =>
      cases hfold
      exact .stop (by simp) _ _
    | cons x xs ih =>
      rw [List.foldlM_cons] at hfold
      rcases happly : apply a x with _ | a₁ <;> rw [happly] at hfold
      · cases hfold
      obtain ⟨t, r, ht, hne⟩ := hstart x a a₁ happly
      rw [List.flatMap_cons, ht, List.append_assoc, List.cons_append]
      refine .step (by simpa using hne) ((hdir t a _ a₁ _ hne).2 ⟨x, ?_, happly⟩) (ih hfold)
      rw [ht, List.cons_append]

theorem loop_expect_ok (hstart : ∀ x a a', apply a x = some a' → ∃ t r, tokens x = t :: r ∧ t ≠ z)
    (hdir : ∀ t a ts a' rest, t ≠ z →
      ((directive t a).run ts = .ok (a', rest) ↔ ∃ x, t :: ts = tokens x ++ rest ∧ apply a x = some a')) :
    (do let a ← Cursor.loop (· = z) directive a; expect z; return a : Parser α).run ts = .ok (a', rest) ↔
      ∃ xs : List X, ts = xs.flatMap tokens ++ z :: rest ∧ xs.foldlM apply a = some a' := by
  rw [← steps_iff hstart hdir, Cursor.bind_eq_ok]
  simp only [Cursor.loop_eq_ok, Cursor.bind_eq_ok, pure_ok]
  constructor
  · rintro ⟨a₁, mid, hsteps, _, mid', hexpect, rfl, rfl⟩
    rw [expect_ok] at hexpect
    rw [← hexpect]
    exact hsteps
  · intro hsteps
    exact ⟨a', z :: rest, hsteps, (), rest, expect_ok.2 rfl, rfl, rfl⟩

end Loops

/-! ### Location blocks -/

section Location

variable {ts rest : List Bytes} {loc loc' : LocationConf}

theorem method_ne_semicolon {name : Bytes} (h : (parseMethodToken name).toOption.map loc.addAllowedMethod = some loc') :
    name ≠ ascii ";" := by
  rintro rfl
  rw [show parseMethodToken (ascii ";") = .error _ from rfl] at h
  cases h

/-- The loop over the methods. -/
theorem methods_loop_ok :
    (do
      let loc ← Cursor.loop (· = ascii ";")
        (fun token loc => return loc.addAllowedMethod (← Cursor.lift (parseMethodToken token))) loc
      expect (ascii ";")
      return loc : Parser LocationConf).run ts = .ok (loc', rest) ↔
      ∃ names, ts = names ++ ascii ";" :: rest ∧ LocationSetting.addMethods loc names = some loc' := by
  have hstart : ∀ (name : Bytes) (loc loc' : LocationConf),
      (parseMethodToken name).toOption.map loc.addAllowedMethod = some loc' →
        ∃ t r, [name] = t :: r ∧ t ≠ ascii ";" :=
    fun name _ _ h => ⟨name, [], rfl, method_ne_semicolon h⟩
  refine (loop_expect_ok hstart fun t loc ts loc' rest _ => ?_).trans ?_
  · rw [lift_pure_ok]
    constructor
    · rintro ⟨h, rfl⟩
      exact ⟨t, rfl, h⟩
    · rintro ⟨name, heq, h⟩
      obtain ⟨rfl, rfl⟩ := List.cons.inj heq
      exact ⟨h, rfl⟩
  · simp only [List.flatMap_singleton']
    exact Iff.rfl

theorem parseMethods_ok : (parseMethods loc).run ts = .ok (loc', rest) ↔
    ∃ names, ts = names ++ ascii ";" :: rest ∧ (LocationSetting.methods names).apply loc = some loc' := by
  have hnone {names : List Bytes} (h : (LocationSetting.methods names).apply loc = some loc') :
      ∃ name more, names = name :: more ∧ name ≠ ascii ";" := by
    rcases names with _ | ⟨name, more⟩
    · cases h
    rw [LocationSetting.apply, if_neg (List.cons_ne_nil _ _), LocationSetting.addMethods, List.foldlM_cons] at h
    rcases hname : (parseMethodToken name).toOption.map loc.addAllowedMethod with _ | loc₁ <;> rw [hname] at h
    · cases h
    · exact ⟨name, more, rfl, method_ne_semicolon hname⟩
  unfold parseMethods
  rw [Cursor.bind_ok (Cursor.run_peek? ts)]
  rcases ts with _ | ⟨t, ts⟩
  · refine iff_of_false (by intro h; cases h) ?_
    rintro ⟨names, hts, -⟩
    exact absurd hts.symm (by simp)
  rw [List.head?_cons]
  simp only
  split
  · rename_i ht
    refine iff_of_false (by intro h; cases h) ?_
    rintro ⟨names, hts, happly⟩
    obtain ⟨name, more, rfl, hne⟩ := hnone happly
    rw [List.cons_append] at hts
    exact hne ((List.cons.inj hts).1.symm.trans ht)
  · rename_i ht
    rw [methods_loop_ok]
    refine exists_congr fun names => and_congr_right fun hts => ?_
    have hne : names ≠ [] := by
      rintro rfl
      exact ht (List.cons.inj hts).1
    rw [LocationSetting.apply, if_neg hne]

theorem parseAutoIndex_ok : (parseAutoIndex loc).run ts = .ok (loc', rest) ↔
    ∃ value, ts = value :: ascii ";" :: rest ∧ (LocationSetting.autoindex value).apply loc = some loc' := by
  unfold parseAutoIndex
  rw [oneValue_ok]
  constructor
  · rintro ⟨value, mid, rfl, h⟩
    refine ⟨value, ?_⟩
    rw [LocationSetting.apply]
    split at h
    · rename_i hon
      cases h
      rw [if_pos hon]
      exact ⟨rfl, rfl⟩
    rename_i hon
    split at h
    · rename_i hoff
      cases h
      rw [if_neg hon, if_pos hoff]
      exact ⟨rfl, rfl⟩
    · cases h
  · rintro ⟨value, rfl, h⟩
    refine ⟨value, rest, rfl, ?_⟩
    rw [LocationSetting.apply] at h
    split_ifs at h ⊢
    · cases h
      rfl
    · cases h
      rfl

theorem parseReturn_ok : (parseReturn loc).run ts = .ok (loc', rest) ↔
    ∃ code url, ts = code :: url :: ascii ";" :: rest ∧ (LocationSetting.ret code url).apply loc = some loc' := by
  unfold parseReturn
  rw [twoValues_ok]
  constructor
  · rintro ⟨code, url, mid, rfl, h⟩
    refine ⟨code, url, ?_⟩
    rw [LocationSetting.apply]
    split at h
    · cases h
    · rename_i hdigits
      cases h
      rw [if_pos (not_not.1 hdigits)]
      exact ⟨rfl, rfl⟩
  · rintro ⟨code, url, rfl, h⟩
    refine ⟨code, url, rest, rfl, ?_⟩
    rw [LocationSetting.apply] at h
    split at h
    · rename_i hdigits
      cases h
      rw [if_neg (not_not.2 hdigits)]
      rfl
    · cases h

/-- A directive with one value that is taken as it is. -/
theorem oneWord_ok {α : Type} {f : Bytes → α} {a : α} :
    (do let v ← consume; expect (ascii ";"); return f v : Parser α).run ts = .ok (a, rest) ↔
      ∃ v, ts = v :: ascii ";" :: rest ∧ some (f v) = some a := by
  rw [oneValue_ok]
  simp only [pure_ok, Option.some.injEq]
  constructor
  · rintro ⟨v, mid, rfl, rfl, rfl⟩
    exact ⟨v, rfl, rfl⟩
  · rintro ⟨v, rfl, rfl⟩
    exact ⟨v, rest, rfl, rfl, rfl⟩

theorem parseRoot_ok : (parseRoot loc).run ts = .ok (loc', rest) ↔
    ∃ path, ts = path :: ascii ";" :: rest ∧ (LocationSetting.root path).apply loc = some loc' := oneWord_ok

theorem parseIndex_ok : (parseIndex loc).run ts = .ok (loc', rest) ↔
    ∃ page, ts = page :: ascii ";" :: rest ∧ (LocationSetting.index page).apply loc = some loc' := oneWord_ok

theorem parseUploadStore_ok : (parseUploadStore loc).run ts = .ok (loc', rest) ↔
    ∃ dir, ts = dir :: ascii ";" :: rest ∧ (LocationSetting.uploadStore dir).apply loc = some loc' := oneWord_ok

theorem parseCgiInterpreter_ok : (parseCgiInterpreter loc).run ts = .ok (loc', rest) ↔
    ∃ path ext, ts = path :: ext :: ascii ";" :: rest ∧
      (LocationSetting.cgiInterpreter path ext).apply loc = some loc' := by
  unfold parseCgiInterpreter
  rw [twoValues_ok]
  simp only [pure_ok, LocationSetting.apply, Option.some.injEq]
  constructor
  · rintro ⟨path, ext, mid, rfl, rfl, rfl⟩
    exact ⟨path, ext, rfl, rfl⟩
  · rintro ⟨path, ext, rfl, rfl⟩
    exact ⟨path, ext, rest, rfl, rfl, rfl⟩

theorem locationDirective_ok {name : Bytes} : (locationDirective name loc).run ts = .ok (loc', rest) ↔
    ∃ x : LocationSetting, name :: ts = x.tokens ++ rest ∧ x.apply loc = some loc' := by
  constructor
  · intro h
    unfold locationDirective at h
    split_ifs at h with h1 h2 h3 h4 h5 h6 h7
    · obtain ⟨v, rfl, happly⟩ := parseRoot_ok.1 h
      exact ⟨.root v, by rw [h1]; rfl, happly⟩
    · obtain ⟨names, rfl, happly⟩ := parseMethods_ok.1 h
      refine ⟨.methods names, ?_, happly⟩
      rw [h2]
      simp [LocationSetting.tokens, LocationSetting.directive, Directive.tokens]
    · obtain ⟨v, rfl, happly⟩ := parseAutoIndex_ok.1 h
      exact ⟨.autoindex v, by rw [h3]; rfl, happly⟩
    · obtain ⟨v, rfl, happly⟩ := parseIndex_ok.1 h
      exact ⟨.index v, by rw [h4]; rfl, happly⟩
    · obtain ⟨v, rfl, happly⟩ := parseUploadStore_ok.1 h
      exact ⟨.uploadStore v, by rw [h5]; rfl, happly⟩
    · obtain ⟨v, v', rfl, happly⟩ := parseReturn_ok.1 h
      exact ⟨.ret v v', by rw [h6]; rfl, happly⟩
    · obtain ⟨v, v', rfl, happly⟩ := parseCgiInterpreter_ok.1 h
      exact ⟨.cgiInterpreter v v', by rw [h7]; rfl, happly⟩
    · cases h
  · rintro ⟨x, heq, happly⟩
    obtain ⟨rfl, hts⟩ : name = x.directive.name ∧ ts = x.directive.values ++ ascii ";" :: rest := by
      rw [LocationSetting.tokens, Directive.tokens, List.cons_append, List.cons_append, List.append_assoc] at heq
      exact List.cons.inj heq
    cases x with
    | root v => exact parseRoot_ok.2 ⟨v, hts, happly⟩
    | methods names => exact parseMethods_ok.2 ⟨names, hts, happly⟩
    | autoindex v => exact parseAutoIndex_ok.2 ⟨v, hts, happly⟩
    | index v => exact parseIndex_ok.2 ⟨v, hts, happly⟩
    | uploadStore v => exact parseUploadStore_ok.2 ⟨v, hts, happly⟩
    | ret v v' => exact parseReturn_ok.2 ⟨v, v', hts, happly⟩
    | cgiInterpreter v v' => exact parseCgiInterpreter_ok.2 ⟨v, v', hts, happly⟩

end Location

/-! ### Server blocks -/

section Server

variable {resolve : Bytes → Option Nat} {ts rest : List Bytes} {conf conf' : ServerConf}

theorem parseListen_ok : (parseListen resolve conf).run ts = .ok (conf', rest) ↔
    ∃ value, ts = value :: ascii ";" :: rest ∧ (ServerSetting.listen value).apply resolve conf = some conf' := by
  unfold parseListen
  rw [oneValue_ok]
  simp only [lift_pure_ok]
  constructor
  · rintro ⟨value, mid, rfl, happly, rfl⟩
    exact ⟨value, rfl, happly⟩
  · rintro ⟨value, rfl, happly⟩
    exact ⟨value, rest, rfl, happly, rfl⟩

theorem parseMaxBodySize_ok (resolve : Bytes → Option Nat) : (parseMaxBodySize conf).run ts = .ok (conf', rest) ↔
    ∃ value, ts = value :: ascii ";" :: rest ∧ (ServerSetting.maxBodySize value).apply resolve conf = some conf' := by
  unfold parseMaxBodySize
  rw [oneValue_ok]
  simp only [lift_pure_ok]
  constructor
  · rintro ⟨value, mid, rfl, happly, rfl⟩
    exact ⟨value, rfl, happly⟩
  · rintro ⟨value, rfl, happly⟩
    exact ⟨value, rest, rfl, happly, rfl⟩

theorem parseServerName_ok (resolve : Bytes → Option Nat) : (parseServerName conf).run ts = .ok (conf', rest) ↔
    ∃ name, ts = name :: ascii ";" :: rest ∧ (ServerSetting.serverName name).apply resolve conf = some conf' := oneWord_ok

theorem parseErrorPage_ok (resolve : Bytes → Option Nat) : (parseErrorPage conf).run ts = .ok (conf', rest) ↔
    ∃ code path, ts = code :: path :: ascii ";" :: rest ∧
      (ServerSetting.errorPage code path).apply resolve conf = some conf' := by
  have hcode (code : Bytes) : (code.length ≠ 3 ∨ ¬ code.all isdigit) ↔ ¬ (code.length = 3 ∧ code.all isdigit) := by
    rw [not_and_or]
  unfold parseErrorPage
  rw [twoValues_ok]
  simp only [hcode]
  constructor
  · rintro ⟨code, path, mid, rfl, h⟩
    refine ⟨code, path, ?_⟩
    rw [ServerSetting.apply]
    split at h
    · cases h
    · rename_i hdigits
      cases h
      rw [if_pos (not_not.1 hdigits)]
      exact ⟨rfl, rfl⟩
  · rintro ⟨code, path, rfl, h⟩
    refine ⟨code, path, rest, rfl, ?_⟩
    rw [ServerSetting.apply] at h
    split at h
    · rename_i hdigits
      cases h
      rw [if_neg (not_not.2 hdigits)]
      rfl
    · cases h

theorem LocationSetting.known (x : LocationSetting) : ∃ a, locationArity x.directive.name = some a := by
  cases x <;> exact ⟨_, rfl⟩

theorem LocationSetting.start (x : LocationSetting) : ∃ t r, x.tokens = t :: r ∧ t ≠ [closeBrace] := by
  obtain ⟨a, ha⟩ := x.known
  exact Directive.start (by decide) ha

theorem parseLocationBlock_ok {path : Bytes} {loc : LocationConf} :
    (parseLocationBlock path).run ts = .ok (loc, rest) ↔
      ∃ xs : List LocationSetting, ts = xs.flatMap LocationSetting.tokens ++ [closeBrace] :: rest ∧
        xs.foldlM LocationSetting.apply { path := path } = some loc :=
  loop_expect_ok (fun x _ _ _ => x.start) fun _ _ _ _ _ _ => locationDirective_ok

theorem parseLocation_ok (resolve : Bytes → Option Nat) : (parseLocation conf).run ts = .ok (conf', rest) ↔
    ∃ path xs, ascii "location" :: ts = (ServerSetting.location path xs).tokens ++ rest ∧
      (ServerSetting.location path xs).apply resolve conf = some conf' := by
  have htokens (path : Bytes) (xs : List LocationSetting) : ascii "location" :: ts = (ServerSetting.location path xs).tokens ++ rest ↔
      ts = path :: [openBrace] :: (xs.flatMap LocationSetting.tokens ++ [closeBrace] :: rest) := by
    have hflat : (xs.map LocationSetting.directive).flatMap Directive.tokens = xs.flatMap LocationSetting.tokens :=
      List.flatMap_map _ _ _
    simp [ServerSetting.tokens, ServerSetting.item, Item.tokens, hflat]
  unfold parseLocation consume
  simp only [htokens, Cursor.bind_eq_ok, Cursor.next_eq_ok, parseLocationBlock_ok, pure_ok, ServerSetting.apply,
    Option.map_eq_some_iff]
  constructor
  · rintro ⟨path, _, rfl, _, mid, hopen, loc, _, ⟨xs, rfl, hfold⟩, rfl, rfl⟩
    rw [expect_ok] at hopen
    exact ⟨path, xs, by rw [hopen], loc, hfold, rfl⟩
  · rintro ⟨path, xs, rfl, loc, hfold, rfl⟩
    exact ⟨path, _, rfl, (), _, expect_ok.2 rfl, loc, rest, ⟨xs, rfl, hfold⟩, rfl, rfl⟩

theorem serverDirective_ok {name : Bytes} : (serverDirective resolve name conf).run ts = .ok (conf', rest) ↔
    ∃ x : ServerSetting, name :: ts = x.tokens ++ rest ∧ x.apply resolve conf = some conf' := by
  constructor
  · intro h
    unfold serverDirective at h
    split_ifs at h with h1 h2 h3 h4 h5
    · obtain ⟨v, rfl, happly⟩ := parseListen_ok.1 h
      exact ⟨.listen v, by rw [h1]; rfl, happly⟩
    · obtain ⟨v, rfl, happly⟩ := (parseServerName_ok resolve).1 h
      exact ⟨.serverName v, by rw [h2]; rfl, happly⟩
    · obtain ⟨v, rfl, happly⟩ := (parseMaxBodySize_ok resolve).1 h
      exact ⟨.maxBodySize v, by rw [h3]; rfl, happly⟩
    · obtain ⟨v, v', rfl, happly⟩ := (parseErrorPage_ok resolve).1 h
      exact ⟨.errorPage v v', by rw [h4]; rfl, happly⟩
    · obtain ⟨path, xs, hts, happly⟩ := (parseLocation_ok resolve).1 h
      exact ⟨.location path xs, by rw [h5]; exact hts, happly⟩
    · cases h
  · rintro ⟨x, heq, happly⟩
    cases x with
    | listen v =>
      obtain ⟨rfl, hts⟩ := List.cons.inj heq
      exact parseListen_ok.2 ⟨v, hts, happly⟩
    | serverName v =>
      obtain ⟨rfl, hts⟩ := List.cons.inj heq
      exact (parseServerName_ok resolve).2 ⟨v, hts, happly⟩
    | maxBodySize v =>
      obtain ⟨rfl, hts⟩ := List.cons.inj heq
      exact (parseMaxBodySize_ok resolve).2 ⟨v, hts, happly⟩
    | errorPage v v' =>
      obtain ⟨rfl, hts⟩ := List.cons.inj heq
      exact (parseErrorPage_ok resolve).2 ⟨v, v', hts, happly⟩
    | location path xs =>
      have hname : name = ascii "location" := (List.cons.inj heq).1
      rw [hname] at heq ⊢
      exact (parseLocation_ok resolve).2 ⟨path, xs, heq, happly⟩

theorem ServerSetting.start (x : ServerSetting) : ∃ t r, x.tokens = t :: r ∧ t ≠ [closeBrace] := by
  have hstart {d : Directive} {a : Arity} (ha : serverArity d.name = some a) : ∃ t r, d.tokens = t :: r ∧ t ≠ [closeBrace] :=
    Directive.start (by decide) ha
  cases x with
  | location path xs => exact ⟨ascii "location", _, rfl, by decide⟩
  | listen value => exact hstart (d := ⟨ascii "listen", [value]⟩) rfl
  | serverName name => exact hstart (d := ⟨ascii "server_name", [name]⟩) rfl
  | maxBodySize value => exact hstart (d := ⟨ascii "client_max_body_size", [value]⟩) rfl
  | errorPage code path => exact hstart (d := ⟨ascii "error_page", [code, path]⟩) rfl

theorem parseServerBlock_ok : (parseServerBlock resolve).run ts = .ok (conf, rest) ↔
    ∃ b : Settings, ts = b.flatMap ServerSetting.tokens ++ [closeBrace] :: rest ∧ b.conf resolve = some conf :=
  loop_expect_ok (fun x _ _ _ => x.start) fun _ _ _ _ _ _ => serverDirective_ok

end Server

/-! ### The file -/

section File

variable {resolve : Bytes → Option Nat} {ts rest : List Bytes} {servers servers' confs : List ServerConf}

theorem Settings.tokens_append (b : Settings) (rest : List Bytes) : b.tokens ++ rest =
    ascii "server" :: [openBrace] :: (b.flatMap ServerSetting.tokens ++ [closeBrace] :: rest) := by
  have hflat : (b.map ServerSetting.item).flatMap Item.tokens = b.flatMap ServerSetting.tokens := List.flatMap_map _ _ _
  simp [Settings.tokens, blockTokens, Settings.block, hflat]

theorem serverBlock_ok {t : Bytes} : (serverBlock resolve t servers).run ts = .ok (servers', rest) ↔
    ∃ (b : Settings) (conf : ServerConf), t :: ts = b.tokens ++ rest ∧ b.conf resolve = some conf ∧
      servers' = servers ++ [conf] := by
  simp only [Settings.tokens_append]
  unfold serverBlock
  split
  · rename_i hne
    refine iff_of_false (by intro h; cases h) ?_
    rintro ⟨b, conf, hts, -⟩
    exact hne (List.cons.inj hts).1
  rename_i hserver
  simp only [Cursor.bind_eq_ok, parseServerBlock_ok, pure_ok]
  constructor
  · rintro ⟨_, mid, hopen, conf, _, ⟨b, rfl, hb⟩, rfl, rfl⟩
    rw [expect_ok] at hopen
    exact ⟨b, conf, by rw [hopen, not_not.1 hserver], hb, rfl⟩
  · rintro ⟨b, conf, hts, hb, rfl⟩
    exact ⟨(), _, expect_ok.2 (List.cons.inj hts).2, conf, rest, ⟨b, rfl, hb⟩, rfl, rfl⟩

/-- The blocks and what they say. -/
abbrev Describes (resolve : Bytes → Option Nat) : List Settings → List ServerConf → Prop :=
  List.Forall₂ fun b conf => Settings.conf resolve b = some conf

theorem serverSteps_iff (servers : List ServerConf) : Cursor.Steps (fun _ => false) (serverBlock resolve) servers ts servers' rest ↔
    rest = [] ∧ ∃ bs confs, ts = bs.flatMap Settings.tokens ∧ Describes resolve bs confs ∧ servers' = servers ++ confs := by
  constructor
  · intro h
    induction h with
    | nil s => exact ⟨rfl, [], [], rfl, .nil, (List.append_nil s).symm⟩
    | stop ht => cases ht
    | step _ hbody _ ih =>
      obtain ⟨hrest, bs, confs, hmid, hconfs, hs⟩ := ih
      obtain ⟨b, conf, hts, hb, hs'⟩ := serverBlock_ok.1 hbody
      refine ⟨hrest, b :: bs, conf :: confs, ?_, .cons hb hconfs, ?_⟩
      · rw [hts, hmid, List.flatMap_cons]
      · rw [hs, hs', List.append_assoc, List.singleton_append]
  · rintro ⟨rfl, bs, confs, rfl, hconfs, rfl⟩
    induction hconfs generalizing servers with
    | nil =>
      rw [List.append_nil]
      exact .nil servers
    | @cons b conf bs confs hb _ ih =>
      have hnext := ih (servers ++ [conf])
      rw [List.append_assoc, List.singleton_append] at hnext
      rw [List.flatMap_cons, Settings.tokens_append]
      refine .step rfl (serverBlock_ok.2 ⟨b, conf, ?_, hb, rfl⟩) hnext
      rw [Settings.tokens_append]

/-- The parser returns what the settings say that its tokens are those of. -/
theorem parseText_ok {content : Bytes} : parseText resolve content = .ok confs ↔
    ∃ bs, bs ≠ [] ∧ tokenize content = bs.flatMap Settings.tokens ∧ Describes resolve bs confs := by
  have hrun (servers : List ServerConf) (rest : List Bytes) :
      (parseServers resolve).run (tokenize content) = .ok (servers, rest) ↔
        rest = [] ∧ ∃ bs, tokenize content = bs.flatMap Settings.tokens ∧ Describes resolve bs servers := by
    refine (Cursor.loop_eq_ok.trans (serverSteps_iff [])).trans (and_congr_right fun _ => ?_)
    constructor
    · rintro ⟨bs, confs, hts, hconfs, rfl⟩
      exact ⟨bs, hts, hconfs⟩
    · rintro ⟨bs, hts, hconfs⟩
      exact ⟨bs, servers, hts, hconfs, rfl⟩
  unfold parseText
  constructor
  · intro h
    split at h
    · cases h
    · rename_i servers rest hservers
      obtain ⟨-, bs, hts, hconfs⟩ := (hrun _ _).1 hservers
      split at h
      · cases h
      · rename_i hne
        cases h
        refine ⟨bs, ?_, hts, hconfs⟩
        rintro rfl
        cases hconfs
        exact hne rfl
  · rintro ⟨bs, hne, hts, hconfs⟩
    rw [(hrun confs []).2 ⟨rfl, bs, hts, hconfs⟩]
    simp only
    rw [if_neg]
    rintro rfl
    cases hconfs
    exact hne rfl

end File

end ConfigParser

end LeftHookRoll
