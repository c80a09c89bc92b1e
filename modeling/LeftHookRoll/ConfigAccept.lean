import LeftHookRoll.ConfigReading

/-!
# What the parser accepts

Values are taken without a look at their kind, so `{`, `}` and `;` pass for a value wherever no check
excludes them. `accepts_derivable_iff`: this is the only way in which a file that is not derivable is
accepted.
-/

namespace LeftHookRoll

namespace ConfigParser

/-- The values that are taken without a check. -/
def LocationSetting.words : LocationSetting → List Bytes
  | root path => [path]
  | index page => [page]
  | uploadStore dir => [dir]
  | ret _ url => [url]
  | cgiInterpreter path ext => [path, ext]
  | methods _ | autoindex _ => []

def ServerSetting.words : ServerSetting → List Bytes
  | serverName name => [name]
  | errorPage _ path => [path]
  | location path xs => path :: xs.flatMap LocationSetting.words
  | listen _ | maxBodySize _ => []

/-- The parser reads the file, and `{`, `}` or `;` stands in it for a server name, a location, a path, a page,
an extension or the target of a redirection. -/
def Swallows (resolve : Bytes → Option Nat) (content : Bytes) : Prop :=
  ∃ bs confs, bs ≠ [] ∧ tokenize content = bs.flatMap Settings.tokens ∧ Describes resolve bs confs ∧
    ∃ b ∈ bs, ∃ x ∈ b, ∃ v ∈ ServerSetting.words x, IsPunctToken v

/-! ### The checks on the other values -/

theorem foldlM_some {α X : Type} {f : α → X → Option α} {xs : List X} {a a' : α} (h : xs.foldlM f a = some a') :
    ∀ x ∈ xs, ∃ a₁ a₂, f a₁ x = some a₂ := by
  induction xs generalizing a with
  | nil => exact fun x hx => absurd hx List.not_mem_nil
  | cons y ys ih =>
    rw [List.foldlM_cons] at h
    rcases hy : f a y with _ | a₁ <;> rw [hy] at h
    · cases h
    intro x hx
    rcases List.mem_cons.1 hx with rfl | hx
    · exact ⟨a, a₁, hy⟩
    · exact ih h x hx

theorem not_punct_of_digits {v : Bytes} (h : v.all isdigit) : ¬ IsPunctToken v := by
  rintro (rfl | rfl | rfl) <;> exact absurd h (by decide)

theorem not_punct_of_method {name : Bytes} {m : HTTPMethod} (h : parseMethodToken name = .ok m) : ¬ IsPunctToken name := by
  rintro (rfl | rfl | rfl) <;> cases h

theorem not_punct_of_size {value : Bytes} {size : Nat} (h : parseBodySize value = .ok size) : ¬ IsPunctToken value := by
  rintro (rfl | rfl | rfl) <;> cases h

theorem not_punct_of_addr {resolve : Bytes → Option Nat} {value : Bytes} {addr : SockAddr}
    (h : parseSockAddr resolve value = .ok addr) : ¬ IsPunctToken value := by
  rintro (rfl | rfl | rfl) <;> cases h

section Words

variable {resolve : Bytes → Option Nat} {loc loc' : LocationConf} {conf conf' : ServerConf}

theorem worded_pair {name v v' : Bytes} (hv : ¬ IsPunctToken v) :
    Directive.Worded ⟨name, [v, v']⟩ ↔ ∀ u ∈ [v'], ¬ IsPunctToken u := by
  simp [Directive.Worded, hv]

theorem worded_of_not_punct {name v : Bytes} (hv : ¬ IsPunctToken v) :
    Directive.Worded ⟨name, [v]⟩ ↔ ∀ u ∈ ([] : List Bytes), ¬ IsPunctToken u := by
  simp [Directive.Worded, hv]

theorem LocationSetting.methods_known {names : List Bytes} (h : (methods names).apply loc = some loc') :
    names ≠ [] ∧ ∀ name ∈ names, ¬ IsPunctToken name := by
  rw [LocationSetting.apply] at h
  split at h
  · cases h
  rename_i hne
  refine ⟨hne, fun name hname => ?_⟩
  obtain ⟨loc₁, loc₂, hmethod⟩ := foldlM_some h name hname
  obtain ⟨m, hm, -⟩ := Option.map_eq_some_iff.1 hmethod
  exact not_punct_of_method (toOption_eq_some.1 hm)

/-- A location setting that applies is a directive of the grammar, but for the kind of its words. -/
theorem LocationSetting.grammar {x : LocationSetting} (h : x.apply loc = some loc') :
    x.directive.WellFormed locationArity ∧ (x.directive.Worded ↔ ∀ v ∈ x.words, ¬ IsPunctToken v) := by
  cases x with
  | root | index | uploadStore | cgiInterpreter => exact ⟨⟨_, rfl, rfl⟩, Iff.rfl⟩
  | methods names =>
    obtain ⟨hne, hknown⟩ := methods_known h
    refine ⟨⟨_, rfl, hne, fun hmem => hknown _ hmem (by decide)⟩, iff_of_true hknown ?_⟩
    exact fun v hv => absurd hv List.not_mem_nil
  | autoindex value =>
    refine ⟨⟨_, rfl, rfl⟩, worded_of_not_punct ?_⟩
    rintro (rfl | rfl | rfl) <;> cases h
  | ret code url =>
    refine ⟨⟨_, rfl, rfl⟩, worded_pair ?_⟩
    rw [LocationSetting.apply] at h
    split at h
    · rename_i hdigits
      exact not_punct_of_digits hdigits
    · cases h

theorem ServerSetting.grammar {x : ServerSetting} (h : x.apply resolve conf = some conf') :
    x.item.WellFormed ∧ (x.item.Worded ↔ ∀ v ∈ x.words, ¬ IsPunctToken v) := by
  cases x with
  | serverName => exact ⟨⟨_, rfl, rfl⟩, Iff.rfl⟩
  | listen value =>
    obtain ⟨addr, haddr, -⟩ := Option.map_eq_some_iff.1 h
    exact ⟨⟨_, rfl, rfl⟩, worded_of_not_punct (not_punct_of_addr (toOption_eq_some.1 haddr))⟩
  | maxBodySize value =>
    obtain ⟨size, hsize, -⟩ := Option.map_eq_some_iff.1 h
    exact ⟨⟨_, rfl, rfl⟩, worded_of_not_punct (not_punct_of_size (toOption_eq_some.1 hsize))⟩
  | errorPage code path =>
    refine ⟨⟨_, rfl, rfl⟩, worded_pair ?_⟩
    rw [ServerSetting.apply] at h
    split at h
    · rename_i hdigits
      exact not_punct_of_digits hdigits.2
    · cases h
  | location path xs =>
    obtain ⟨loc, hfold, -⟩ := Option.map_eq_some_iff.1 h
    have hgrammar (x : LocationSetting) (hx : x ∈ xs) :
        x.directive.WellFormed locationArity ∧ (x.directive.Worded ↔ ∀ v ∈ x.words, ¬ IsPunctToken v) := by
      obtain ⟨loc₁, loc₂, happly⟩ := foldlM_some hfold x hx
      exact LocationSetting.grammar happly
    refine ⟨fun d hd => ?_, ?_⟩
    · obtain ⟨x, hx, rfl⟩ := List.mem_map.1 hd
      exact (hgrammar x hx).1
    · rw [ServerSetting.words, List.forall_mem_cons, List.forall_mem_flatMap]
      refine and_congr_right fun _ => ?_
      rw [List.forall_mem_map]
      exact forall₂_congr fun x hx => (hgrammar x hx).2

end Words

/-! ### Acceptance -/

section Accept

variable {resolve : Bytes → Option Nat} {bs : List Settings} {confs : List ServerConf}

theorem Describes.applies (h : Describes resolve bs confs) {b : Settings} (hb : b ∈ bs) {x : ServerSetting} (hx : x ∈ b) :
    ∃ conf conf', x.apply resolve conf = some conf' := by
  induction h with
  | nil => cases hb
  | cons hconf _ ih =>
    rcases List.mem_cons.1 hb with rfl | hb
    · exact foldlM_some hconf x hx
    · exact ih hb

theorem tokensOf_blocks (bs : List Settings) : tokensOf (bs.map Settings.block) = bs.flatMap Settings.tokens :=
  List.flatMap_map _ _ _

/-- What the parser reads is a reading in the grammar, but for the kind of its words. -/
theorem Describes.grammar (h : Describes resolve bs confs) : WellFormed (bs.map Settings.block) ∧
    (Worded (bs.map Settings.block) ↔ ∀ b ∈ bs, ∀ x ∈ b, ∀ v ∈ ServerSetting.words x, ¬ IsPunctToken v) := by
  have hgrammar (b : Settings) (hb : b ∈ bs) (x : ServerSetting) (hx : x ∈ b) :
      x.item.WellFormed ∧ (x.item.Worded ↔ ∀ v ∈ x.words, ¬ IsPunctToken v) := by
    obtain ⟨conf, conf', happly⟩ := h.applies hb hx
    exact ServerSetting.grammar happly
  simp only [WellFormed, Worded, Settings.block, List.forall_mem_map]
  exact ⟨fun b hb x hx => (hgrammar b hb x hx).1, forall₂_congr fun b hb => forall₂_congr fun x hx => (hgrammar b hb x hx).2⟩

/-- A file that is read is derivable if and only if no word in it is punctuation. -/
theorem derivable_iff {content : Bytes} (hne : bs ≠ []) (hts : tokenize content = bs.flatMap Settings.tokens)
    (h : Describes resolve bs confs) :
    Derivable (tokenize content) ↔ ∀ b ∈ bs, ∀ x ∈ b, ∀ v ∈ ServerSetting.words x, ¬ IsPunctToken v := by
  obtain ⟨hwell, hworded⟩ := h.grammar
  rw [← hworded]
  constructor
  · rintro ⟨blocks, -, hwell', hworded', heq⟩
    rw [hts, ← tokensOf_blocks] at heq
    rwa [← tokensOf_inj hwell' hwell heq]
  · intro hall
    refine ⟨bs.map Settings.block, ?_, hwell, hall, (tokensOf_blocks bs).trans hts.symm⟩
    rwa [ne_eq, List.map_eq_nil_iff]

/-- Only derivable files are accepted and all others throw, if and only if the file is none in which
punctuation is read as a word. -/
theorem accepts_derivable_iff (resolve : Bytes → Option Nat) (filePath content : Bytes) :
    (((∃ confs, parse resolve filePath (.text content) = .ok confs) → Derivable (tokenize content)) ∧
      (¬ Derivable (tokenize content) → ∃ e, parse resolve filePath (.text content) = .error e)) ↔
      ¬ Swallows resolve content := by
  constructor
  · rintro ⟨haccepted, -⟩ ⟨bs, confs, hne, hts, hdescribes, b, hb, x, hx, v, hv, hpunct⟩
    have hderivable := haccepted ⟨confs, parseText_ok.2 ⟨bs, hne, hts, hdescribes⟩⟩
    exact (derivable_iff hne hts hdescribes).1 hderivable b hb x hx v hv hpunct
  · intro hswallows
    have haccepted (confs : List ServerConf) (h : parse resolve filePath (.text content) = .ok confs) :
        Derivable (tokenize content) := by
      obtain ⟨bs, hne, hts, hdescribes⟩ := parseText_ok.1 h
      refine (derivable_iff hne hts hdescribes).2 fun b hb x hx v hv hpunct => hswallows ?_
      exact ⟨bs, confs, hne, hts, hdescribes, b, hb, x, hx, v, hv, hpunct⟩
    refine ⟨fun ⟨confs, h⟩ => haccepted confs h, fun hnot => ?_⟩
    rcases hrun : parse resolve filePath (.text content) with e | confs
    · exact ⟨e, rfl⟩
    · exact absurd (haccepted confs hrun) hnot

end Accept

/-- A server without a name: the semicolon is the name, and a second one ends the directive. -/
def nameless : Bytes := ascii "server \x7b server_name ;; \x7d"

theorem nameless_accepted :
    ¬ ∀ content, (∃ confs, parse (fun _ => none) [] (.text content) = .ok confs) → Derivable (tokenize content) := by
  intro hall
  have hparse : parse (fun _ => none) [] (.text nameless) = .ok [{ serverName := ascii ";" }] := by decide +kernel
  obtain ⟨blocks, -, hwell, hworded, heq⟩ := hall nameless ⟨_, hparse⟩
  have hread : tokenize nameless = tokensOf [[.directive ⟨ascii "server_name", [ascii ";"]⟩]] := by decide +kernel
  rw [hread] at heq
  have hblocks := tokensOf_inj hwell ?_ heq
  · rw [hblocks] at hworded
    exact hworded _ List.mem_cons_self _ List.mem_cons_self _ List.mem_cons_self (by decide)
  · intro b hb x hx
    rw [List.mem_singleton] at hb
    rw [hb, List.mem_singleton] at hx
    rw [hx]
    exact ⟨_, rfl, rfl⟩

end ConfigParser

end LeftHookRoll
