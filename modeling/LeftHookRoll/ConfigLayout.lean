import LeftHookRoll.ConfigReading

/-!
# Parsing undoes printing

`Layout ts s`: the text `s` consists of the tokens `ts`, with any blanks and comments between them, which
two words need and punctuation does not. `tokenize` gives back the tokens (`tokenize_layout`), and the
parser what documented directives say (`parse_layout`).
-/

namespace LeftHookRoll

namespace ConfigParser

/-! ### Layout -/

def IsWord (t : Bytes) : Prop := t ≠ [] ∧ ∀ c ∈ t, isWordChar c

/-- Blanks and whole comments. -/
inductive Gap : Bytes → Prop
  | nil : Gap []
  | space {c : UInt8} {g : Bytes} (hc : isspace c) (hg : Gap g) : Gap (c :: g)
  | comment {text g : Bytes} (ht : LF ∉ text) (hg : Gap g) : Gap (hash :: (text ++ LF :: g))

/-- No word goes on with `s`. -/
def EndsWord (s : Bytes) : Prop := ∀ c ∈ s.head?, isWordChar c = false

inductive Layout : List Bytes → Bytes → Prop
  | done {g : Bytes} (hg : Gap g) : Layout [] g
  | comment {g text : Bytes} (hg : Gap g) (ht : LF ∉ text) : Layout [] (g ++ hash :: text)
  | punct {g t s : Bytes} {ts : List Bytes} (hg : Gap g) (ht : IsPunctToken t) (hs : Layout ts s) :
      Layout (t :: ts) (g ++ (t ++ s))
  | word {g t s : Bytes} {ts : List Bytes} (hg : Gap g) (ht : IsWord t) (hend : EndsWord s) (hs : Layout ts s) :
      Layout (t :: ts) (g ++ (t ++ s))

section Tokenize

variable {c : UInt8} {g s t text : Bytes} {ts : List Bytes}

theorem tokenize_space (hc : isspace c) (s : Bytes) : tokenize (c :: s) = tokenize s := by
  rw [tokenize, if_pos hc]

theorem tokenize_comment (text : Bytes) : tokenize (hash :: text) = tokenize (text.dropWhile (· ≠ LF)) := by
  rw [tokenize, if_neg (by decide), if_pos rfl]

theorem tokenize_punct (ht : IsPunctToken t) (s : Bytes) : tokenize (t ++ s) = t :: tokenize s := by
  have hchar : ∃ c, t = [c] ∧ isspace c = false ∧ c ≠ hash ∧ isPunct c = true := by
    rcases ht with rfl | rfl | rfl
    · exact ⟨openBrace, by decide⟩
    · exact ⟨closeBrace, by decide⟩
    · exact ⟨semicolon, by decide⟩
  obtain ⟨c, rfl, hspace, hhash, hpunct⟩ := hchar
  rw [List.singleton_append, tokenize, if_neg (by simp [hspace]), if_neg hhash, if_pos hpunct]

theorem dropWhile_comment (ht : LF ∉ text) (s : Bytes) : (text ++ LF :: s).dropWhile (· ≠ LF) = LF :: s := by
  rw [List.dropWhile_append_of_pos, List.dropWhile_cons, if_neg (by decide)]
  intro c hc
  simpa using fun h : c = LF => ht (h ▸ hc)

theorem tokenize_gap (hg : Gap g) (s : Bytes) : tokenize (g ++ s) = tokenize s := by
  induction hg with
  | nil => rfl
  | space hc _ ih => exact (tokenize_space hc _).trans ih
  | comment ht _ ih =>
    rw [List.cons_append, List.append_assoc, List.cons_append, tokenize_comment, dropWhile_comment ht,
      tokenize_space (by decide), ih]

theorem isWordChar_iff : isWordChar c ↔ ¬ isspace c ∧ ¬ isPunct c ∧ c ≠ hash := by
  rw [isWordChar, decide_eq_true_eq]

theorem tokenize_word (ht : IsWord t) (hs : EndsWord s) : tokenize (t ++ s) = t :: tokenize s := by
  obtain ⟨hne, hchars⟩ := ht
  obtain ⟨c, t, rfl⟩ := List.exists_cons_of_ne_nil hne
  obtain ⟨hc, ht⟩ := List.forall_mem_cons.1 hchars
  obtain ⟨hspace, hpunct, hhash⟩ := isWordChar_iff.1 hc
  have htake : (t ++ s).takeWhile isWordChar = t ++ s.takeWhile isWordChar := List.takeWhile_append_of_pos ht
  have hdrop : (t ++ s).dropWhile isWordChar = s.dropWhile isWordChar := List.dropWhile_append_of_pos ht
  rw [List.cons_append, tokenize, if_neg hspace, if_neg hhash, if_neg hpunct, htake, hdrop]
  rcases s with _ | ⟨d, s⟩
  · rw [List.takeWhile_nil, List.dropWhile_nil, List.append_nil]
  · have hd : isWordChar d = false := hs d rfl
    rw [List.takeWhile_cons_of_neg (by simp [hd]), List.dropWhile_cons_of_neg (by simp [hd]), List.append_nil]

/-- The tokens of a text are those that it lays out. -/
theorem tokenize_layout (h : Layout ts s) : tokenize s = ts := by
  induction h with
  | @done g hg =>
    rw [← List.append_nil g, tokenize_gap hg, tokenize]
  | comment hg ht =>
    rw [tokenize_gap hg, tokenize_comment, List.dropWhile_eq_nil_iff.2, tokenize]
    intro c hc
    simpa using fun h : c = LF => ht (h ▸ hc)
  | punct hg ht _ ih => rw [tokenize_gap hg, tokenize_punct ht, ih]
  | word hg ht hend _ ih => rw [tokenize_gap hg, tokenize_word ht hend, ih]

theorem Gap.append (hg : Gap g) {g' : Bytes} (hg' : Gap g') : Gap (g ++ g') := by
  induction hg with
  | nil => exact hg'
  | space hc _ ih => exact .space hc ih
  | comment ht _ ih =>
    rw [List.cons_append, List.append_assoc, List.cons_append]
    exact .comment ht ih

theorem Layout.gap (hg : Gap g) (h : Layout ts s) : Layout ts (g ++ s) := by
  cases h with
  | done hg' => exact .done (hg.append hg')
  | comment hg' ht =>
    rw [← List.append_assoc]
    exact .comment (hg.append hg') ht
  | punct hg' ht hs =>
    rw [← List.append_assoc]
    exact .punct (hg.append hg') ht hs
  | word hg' ht hend hs =>
    rw [← List.append_assoc]
    exact .word (hg.append hg') ht hend hs

/-- Every text is a layout of its tokens. -/
theorem layout_tokenize (s : Bytes) : Layout (tokenize s) s := by
  induction hn : s.length using Nat.strongRecOn generalizing s with
  | ind n ih =>
    subst hn
    rcases s with _ | ⟨c, s⟩
    · rw [tokenize]
      exact .done .nil
    have hlt {s' : Bytes} (h : s'.length ≤ s.length) : Layout (tokenize s') s' :=
      ih s'.length (Nat.lt_succ_of_le h) s' rfl
    by_cases hspace : isspace c
    · rw [tokenize_space hspace]
      exact (hlt le_rfl).gap (.space hspace .nil)
    by_cases hhash : c = hash
    · subst hhash
      have htext : LF ∉ s.takeWhile (· ≠ LF) := fun hmem => by simpa using List.mem_takeWhile_imp hmem
      have hsplit : s.takeWhile (· ≠ LF) ++ s.dropWhile (· ≠ LF) = s := List.takeWhile_append_dropWhile
      rw [tokenize_comment]
      rcases hrest : s.dropWhile (· ≠ LF) with _ | ⟨d, rest⟩
      · rw [hrest, List.append_nil] at hsplit
        rw [hsplit] at htext
        rw [tokenize]
        exact .comment .nil htext
      · have hd : d = LF := by
          have hhead := List.head?_dropWhile_not (fun c => decide (c ≠ LF)) s
          rw [hrest] at hhead
          simpa using hhead
        rw [hd] at hrest ⊢
        rw [hrest] at hsplit
        have hlen := congrArg List.length hsplit
        rw [List.length_append, List.length_cons] at hlen
        rw [tokenize_space (by decide), ← hsplit]
        have hrestLayout := (hlt (by omega : rest.length ≤ s.length)).gap (.comment htext .nil)
        rwa [List.cons_append, List.append_assoc, List.singleton_append] at hrestLayout
    by_cases hpunct : isPunct c
    · have htoken : IsPunctToken [c] := by
        rw [isPunct, decide_eq_true_eq] at hpunct
        rcases hpunct with rfl | rfl | rfl
        · exact .inl rfl
        · exact .inr (.inl rfl)
        · exact .inr (.inr rfl)
      rw [← List.singleton_append, tokenize_punct htoken]
      exact .punct .nil htoken (hlt le_rfl)
    have hword : IsWord (c :: s.takeWhile isWordChar) := by
      refine ⟨List.cons_ne_nil _ _, List.forall_mem_cons.2 ⟨?_, fun d hd => List.mem_takeWhile_imp hd⟩⟩
      exact isWordChar_iff.2 ⟨hspace, hpunct, hhash⟩
    have hend : EndsWord (s.dropWhile isWordChar) := by
      intro d hd
      have hhead := List.head?_dropWhile_not isWordChar s
      rw [hd] at hhead
      exact hhead
    have hsplit : c :: s = c :: s.takeWhile isWordChar ++ s.dropWhile isWordChar := by
      rw [List.cons_append, List.takeWhile_append_dropWhile]
    rw [hsplit, tokenize_word hword hend]
    exact .word .nil hword hend (hlt (List.length_dropWhile_le _ s))

/-- What a text is a layout of are its tokens. -/
theorem layout_iff : Layout ts s ↔ tokenize s = ts :=
  ⟨tokenize_layout, fun h => h ▸ layout_tokenize s⟩

end Tokenize

/-! ### Documented directives -/

/-- The units of a size, by their suffix. -/
def sizeUnits : List (Bytes × Nat) :=
  [([], 1), (ascii "k", 2 ^ 10), (ascii "K", 2 ^ 10), (ascii "m", 2 ^ 20), (ascii "M", 2 ^ 20),
    (ascii "g", 2 ^ 30), (ascii "G", 2 ^ 30)]

def sizeUnit (value : Bytes) : Option Nat := sizeUnits.lookup (value.dropWhile isdigit)

/-- The number of bytes that a size stands for. -/
def sizeOf (value : Bytes) : Nat := decimalValue (value.takeWhile isdigit) * (sizeUnit value).getD 0

def knownMethods : List Bytes := [ascii "GET", ascii "POST", ascii "DELETE"]

def LocationSetting.Documented : LocationSetting → Prop
  | root path => IsWord path
  | methods names => names ≠ [] ∧ ∀ name ∈ names, name ∈ knownMethods
  | autoindex value => value = ascii "on" ∨ value = ascii "off"
  | index page => IsWord page
  | uploadStore dir => IsWord dir
  | ret code url => IsWord code ∧ code.all isdigit ∧ IsWord url
  | cgiInterpreter path ext => IsWord path ∧ IsWord ext

def ServerSetting.Documented : ServerSetting → Prop
  | listen value => value ≠ [] ∧ value.all isdigit ∧ 1 ≤ decimalValue value ∧ decimalValue value ≤ 65535
  | serverName name => IsWord name
  | maxBodySize value => value.takeWhile isdigit ≠ [] ∧ (sizeUnit value).isSome ∧ sizeOf value < 2 ^ 63
  | errorPage code path => code.length = 3 ∧ code.all isdigit ∧ IsWord path
  | location path xs => IsWord path ∧ ∀ x ∈ xs, x.Documented

/-- The last value that one of the settings gives. -/
def lastOf {α X : Type} (f : X → Option α) (default : α) (xs : List X) : α := ((xs.filterMap f).getLast?).getD default

/-- What the settings of a location say. -/
def locationConf (path : Bytes) (xs : List LocationSetting) : LocationConf where
  path := path
  root := lastOf (fun | .root path => some path | _ => none) [] xs
  allowedMethods := (xs.flatMap fun | .methods names => names | _ => []).foldl
    (fun a name => a.addMethod (AllowedMethods.stringToMethod name)) {}
  returnURL := lastOf (fun | .ret _ url => some url | _ => none) [] xs
  returnCode := lastOf (fun | .ret code _ => some code | _ => none) [] xs
  autoIndex := lastOf (fun | .autoindex value => some (decide (value = ascii "on")) | _ => none) false xs
  defaultPage := lastOf (fun | .index page => some page | _ => none) [] xs
  storageLocation := lastOf (fun | .uploadStore dir => some dir | _ => none) [] xs
  cgiInterpreters := .ofPairs (xs.filterMap fun | .cgiInterpreter path ext => some (ext, path) | _ => none)

/-- What the settings of a server say. -/
def serverConf (xs : Settings) : ServerConf where
  serverName := lastOf (fun | .serverName name => some name | _ => none) [] xs
  interfacePortPair := lastOf
    (fun | .listen value => some { sin_family := AF_INET, sin_port := decimalValue value, sin_addr := 0 } | _ => none) {} xs
  maxBodySize := lastOf (fun | .maxBodySize value => some (sizeOf value) | _ => none) 0 xs
  locations := xs.filterMap fun | .location path xs => some (locationConf path xs) | _ => none
  errorPages := .ofPairs (xs.filterMap fun | .errorPage code path => some (code, path) | _ => none)

section Documented

variable {α X : Type}

@[simp] theorem lastOf_concat (f : X → Option α) (default : α) (xs : List X) (x : X) :
    lastOf f default (xs ++ [x]) = (f x).getD (lastOf f default xs) := by
  rw [lastOf, lastOf, List.filterMap_append]
  rcases hx : f x with _ | a
  · simp [hx]
  · simp [hx]

theorem stringToMethod_known {name : Bytes} (h : name ∈ knownMethods) :
    parseMethodToken name = .ok (AllowedMethods.stringToMethod name) := by
  simp only [knownMethods, List.mem_cons, List.not_mem_nil, or_false] at h
  rcases h with rfl | rfl | rfl <;> rfl

theorem addMethods_known {names : List Bytes} (h : ∀ name ∈ names, name ∈ knownMethods) (loc : LocationConf) :
    LocationSetting.addMethods loc names = some { loc with
      allowedMethods := names.foldl (fun a name => a.addMethod (AllowedMethods.stringToMethod name)) loc.allowedMethods } := by
  induction names generalizing loc with
  | nil => rfl
  | cons name names ih =>
    obtain ⟨hname, hnames⟩ := List.forall_mem_cons.1 h
    rw [LocationSetting.addMethods, List.foldlM_cons, stringToMethod_known hname]
    exact ih hnames _

/-- A documented setting adds to what the settings before it say. -/
theorem LocationSetting.apply_concat {x : LocationSetting} (h : x.Documented) (path : Bytes) (xs : List LocationSetting) :
    x.apply (locationConf path xs) = some (locationConf path (xs ++ [x])) := by
  cases x with
  | root | index | uploadStore => simp [LocationSetting.apply, locationConf]
  | cgiInterpreter path ext =>
    simp [LocationSetting.apply, locationConf, LocationConf.addCgiInterpreter, OrdMap.ofPairs_concat]
  | methods names =>
    obtain ⟨hne, hknown⟩ := h
    rw [LocationSetting.apply, if_neg hne, addMethods_known hknown]
    simp [locationConf]
  | autoindex value =>
    rcases h with rfl | rfl
    · rw [LocationSetting.apply, if_pos rfl]
      simp [locationConf]
    · rw [LocationSetting.apply, if_neg (by decide), if_pos rfl]
      have hoff : ascii "off" ≠ ascii "on" := by decide
      simp [locationConf, hoff]
  | ret code url =>
    obtain ⟨-, hdigits, -⟩ := h
    rw [LocationSetting.apply, if_pos hdigits]
    simp [locationConf]

theorem locationConf_foldlM {xs : List LocationSetting} (h : ∀ x ∈ xs, x.Documented) (path : Bytes) :
    xs.foldlM LocationSetting.apply { path := path } = some (locationConf path xs) := by
  induction xs using List.reverseRecOn with
  | nil => rfl
  | append_singleton xs x ih =>
    rw [List.foldlM_append, ih fun y hy => h y (List.mem_append_left _ hy), Option.bind_eq_bind, Option.bind_some]
    rw [List.foldlM_cons, LocationSetting.apply_concat (h x (List.mem_append_right _ List.mem_cons_self))]
    rfl

theorem atoi_digits {v : Bytes} (hne : v ≠ []) (h : v.all isdigit) (hle : decimalValue v ≤ 65535) : atoi v = decimalValue v := by
  rw [atoi, strtoll10_digits hne (List.all_eq_true.1 h)]
  rw [Int.bmod_def]
  split <;> omega

theorem parseSockAddr_port {value : Bytes} (hne : value ≠ []) (h : value.all isdigit) (hpos : 1 ≤ decimalValue value)
    (hle : decimalValue value ≤ 65535) (resolve : Bytes → Option Nat) :
    parseSockAddr resolve value = .ok { sin_family := AF_INET, sin_port := decimalValue value, sin_addr := 0 } := by
  have hcolon : value.idxOf? 58 = none := by
    rw [List.idxOf?_eq_none_iff]
    intro hmem
    exact absurd (List.all_eq_true.1 h _ hmem) (by decide)
  have hport : parsePort (ascii "invalid listen value: ") value = .ok (decimalValue value) := by
    rw [parsePort, if_neg (by simp [hne, h]), atoi_digits hne h hle, if_neg (by omega)]
    rfl
  rw [parseSockAddr, hcolon]
  simp only [hport]
  rfl

/-- The suffix of a size is at most one character, which the code knows. -/
theorem sizeUnit_cases {value : Bytes} {unit : Nat} (h : sizeUnit value = some unit) :
    value.dropWhile isdigit = [] ∧ unit = 1 ∨
      ∃ c, value.dropWhile isdigit = [c] ∧ sizeSuffix c = some unit := by
  obtain ⟨before, after, hunits, -⟩ := List.lookup_eq_some_iff.1 h
  have hmem : (value.dropWhile isdigit, unit) ∈ sizeUnits := by
    rw [hunits]
    exact List.mem_append_right _ List.mem_cons_self
  simp only [sizeUnits, List.mem_cons, List.not_mem_nil, or_false, Prod.mk.injEq] at hmem
  rcases hmem with hnone | ⟨hs, rfl⟩ | ⟨hs, rfl⟩ | ⟨hs, rfl⟩ | ⟨hs, rfl⟩ | ⟨hs, rfl⟩ | ⟨hs, rfl⟩
  · exact .inl hnone
  all_goals exact .inr ⟨_, hs, by decide⟩

theorem sizeSuffix_digit {c : UInt8} (h : isdigit c) : sizeSuffix c = none := by
  rcases hs : sizeSuffix c with _ | n
  · rfl
  unfold sizeSuffix at hs
  split_ifs at hs with hk hm hg
  · rcases hk with rfl | rfl <;> exact absurd h (by decide)
  · rcases hm with rfl | rfl <;> exact absurd h (by decide)
  · rcases hg with rfl | rfl <;> exact absurd h (by decide)

theorem parseBodySize_documented {value : Bytes} (hne : value.takeWhile isdigit ≠ []) (hunit : (sizeUnit value).isSome)
    (hlt : sizeOf value < 2 ^ 63) : parseBodySize value = .ok (sizeOf value) := by
  obtain ⟨unit, hunit⟩ := Option.isSome_iff_exists.1 hunit
  obtain ⟨ds, hds⟩ : ∃ ds, ds = value.takeWhile isdigit := ⟨_, rfl⟩
  have hdigits : ∀ c ∈ ds, isdigit c := fun c hc => List.mem_takeWhile_imp (hds ▸ hc)
  have hall : ds.all isdigit := List.all_eq_true.2 hdigits
  rw [← hds] at hne
  have hsize : sizeOf value = decimalValue ds * unit := by rw [sizeOf, hunit, ← hds]; rfl
  rw [hsize] at hlt ⊢
  -- the product is not cut, and the number not saturated
  have hproduct (hpos : 0 < unit) : (strtoll10 ds).1.toNat * unit % 2 ^ 64 = decimalValue ds * unit := by
    have hle : decimalValue ds ≤ decimalValue ds * unit := Nat.le_mul_of_pos_right _ hpos
    have hmin : min (2 ^ 63 - 1 : Int) (decimalValue ds) = decimalValue ds := by omega
    rw [strtoll10_digits hne hdigits]
    simp only [hmin, Int.toNat_natCast]
    exact Nat.mod_eq_of_lt (by omega)
  have hsplit : value = ds ++ value.dropWhile isdigit := by rw [hds, List.takeWhile_append_dropWhile]
  rcases sizeUnit_cases hunit with ⟨hdrop, rfl⟩ | ⟨c, hdrop, hc⟩
  · rw [hdrop, List.append_nil] at hsplit
    rw [hsplit, parseBodySize, List.getLast?_eq_getLast_of_ne_nil hne]
    have hlast := sizeSuffix_digit (hdigits _ (List.getLast_mem hne))
    simp only [hlast, Option.isSome_none, Bool.false_eq_true, if_false, Option.getD_none]
    rw [if_neg (by simp [hne, hall]), hproduct (by omega)]
  · rw [hdrop] at hsplit
    have hpos : 0 < unit := by
      unfold sizeSuffix at hc
      split_ifs at hc <;> cases hc <;> decide
    rw [hsplit, parseBodySize, List.getLast?_concat]
    simp only [hc, Option.isSome_some, if_true, Option.getD_some, List.dropLast_concat]
    rw [if_neg (by simp [hne, hall]), hproduct hpos]

/-- A documented setting adds to what the settings before it say. -/
theorem ServerSetting.apply_concat (resolve : Bytes → Option Nat) {x : ServerSetting} (h : x.Documented) (xs : Settings) :
    x.apply resolve (serverConf xs) = some (serverConf (xs ++ [x])) := by
  cases x with
  | serverName name => simp [ServerSetting.apply, serverConf]
  | listen value =>
    obtain ⟨hne, hdigits, hpos, hle⟩ := h
    rw [ServerSetting.apply, parseSockAddr_port hne hdigits hpos hle]
    simp [serverConf, Except.toOption]
  | maxBodySize value =>
    obtain ⟨hne, hunit, hlt⟩ := h
    rw [ServerSetting.apply, parseBodySize_documented hne hunit hlt]
    simp [serverConf, Except.toOption]
  | errorPage code path =>
    obtain ⟨hlen, hdigits, -⟩ := h
    rw [ServerSetting.apply, if_pos ⟨hlen, hdigits⟩]
    simp [serverConf, ServerConf.addErrorPage, OrdMap.ofPairs_concat]
  | location path xs =>
    rw [ServerSetting.apply, locationConf_foldlM h.2]
    simp [serverConf, ServerConf.addLocation]

theorem serverConf_foldlM (resolve : Bytes → Option Nat) {xs : Settings} (h : ∀ x ∈ xs, ServerSetting.Documented x) :
    Settings.conf resolve xs = some (serverConf xs) := by
  induction xs using List.reverseRecOn with
  | nil => rfl
  | append_singleton xs x ih =>
    have hxs := ih fun y hy => h y (List.mem_append_left _ hy)
    rw [Settings.conf] at hxs ⊢
    rw [List.foldlM_append, hxs, Option.bind_eq_bind, Option.bind_some, List.foldlM_cons,
      ServerSetting.apply_concat resolve (h x (List.mem_append_right _ List.mem_cons_self))]
    rfl

/-- Any layout of documented server blocks is parsed to what they say. -/
theorem parse_layout (resolve : Bytes → Option Nat) (filePath : Bytes) {bs : List Settings} (hne : bs ≠ [])
    (hdoc : ∀ b ∈ bs, ∀ x ∈ b, ServerSetting.Documented x) {content : Bytes}
    (hlayout : Layout (bs.flatMap Settings.tokens) content) :
    parse resolve filePath (.text content) = .ok (bs.map serverConf) := by
  refine parseText_ok.2 ⟨bs, hne, tokenize_layout hlayout, ?_⟩
  clear hne hlayout
  induction bs with
  | nil => exact .nil
  | cons b bs ih =>
    obtain ⟨hb, hbs⟩ := List.forall_mem_cons.1 hdoc
    exact .cons (serverConf_foldlM resolve hb) (ih hbs)

end Documented

/-- A file with a comment in the middle of a directive. -/
def sampleFile : Bytes := ascii
  "server \x7b listen 8080; # main\n\n location / \x7b methods GET # only\n DELETE; return 301 /x; \x7d client_max_body_size 2k;\x7d"

def sampleSettings : List Settings :=
  [[.listen (ascii "8080"),
    .location (ascii "/") [.methods [ascii "GET", ascii "DELETE"], .ret (ascii "301") (ascii "/x")],
    .maxBodySize (ascii "2k")]]

theorem parse_sampleFile : parse (fun _ => none) [] (.text sampleFile) = .ok (sampleSettings.map serverConf) := by
  refine parse_layout (fun _ => none) [] (List.cons_ne_nil _ _) ?_ (layout_iff.2 (by decide +kernel))
  have hword (t : Bytes) (h : t ≠ [] ∧ t.all isWordChar) : IsWord t := ⟨h.1, List.all_eq_true.1 h.2⟩
  simp only [List.forall_mem_cons, List.not_mem_nil, IsEmpty.forall_iff, implies_true, and_true,
    ServerSetting.Documented, LocationSetting.Documented]
  refine ⟨by decide, ⟨hword _ (by decide), by decide, hword _ (by decide), by decide,
    hword _ (by decide)⟩, by decide⟩

end ConfigParser

end LeftHookRoll
