import LeftHookRoll.CGIManager
import LeftHookRoll.HeaderAccept

/-!
# The environment of a script

A header becomes a variable whose name starts with `HTTP_`, and no other variable has such a name. So the
headers change none of the others (`environment_agrees`); the names that the parser stores stay apart when
they become variables (`headerVariable_inj`), so that none is lost (`header_variable`).
-/

namespace LeftHookRoll

/-! ### Upper and lower case -/

theorem tolower_tolower (c : UInt8) : tolower (tolower c) = tolower c := by
  have hlow {x : UInt8} (h : 65 ≤ x ∧ x ≤ 90) : ¬ (65 ≤ x + 32 ∧ x + 32 ≤ 90) := by
    simp only [UInt8.le_iff_toNat_le, UInt8.toNat_add] at h ⊢
    simp only [UInt8.reduceToNat] at h ⊢
    omega
  rw [tolower, tolower]
  split_ifs with h hagain
  · exact absurd hagain (hlow h)
  · rfl
  · rfl

theorem lowercase_lowercase (s : Bytes) : lowercase (lowercase s) = lowercase s := by
  rw [lowercase, lowercase, List.map_map]
  exact List.map_congr_left fun c _ => tolower_tolower c

namespace Request

/-- The names of the headers are in lower case. -/
def LowerNames (q : Request) : Prop := ∀ h ∈ q.headers.entries, lowercase h.1 = h.1

variable {q : Request}

theorem LowerNames.of_headers {q' : Request} (h : q.LowerNames) (heq : q'.headers = q.headers) : q'.LowerNames := by
  rw [LowerNames, heq]
  exact h

theorem LowerNames.insert {q' : Request} (h : q.LowerNames) {key value : Bytes} (hkey : lowercase key = key)
    (heq : q'.headers = q.headers.insert key value) : q'.LowerNames := by
  intro e he
  rw [heq] at he
  rcases OrdMap.mem_entries_insert he with rfl | he
  · exact hkey
  · exact h e he

theorem LowerNames.parseHeaderLine (h : q.LowerNames) (line : Bytes) : (parseHeaderLine line q).LowerNames := by
  rw [Request.parseHeaderLine]
  split
  · exact h
  · simp only
    split
    · exact h
    · exact h.insert (lowercase_lowercase _) rfl

theorem LowerNames.parseLines (h : q.LowerNames) (lines : List Bytes) (firstLine : Bool) :
    (parseLines lines firstLine q).LowerNames := by
  induction lines generalizing firstLine q with
  | nil => exact h
  | cons line rest ih =>
    rw [Request.parseLines]
    split_ifs
    · exact ih h firstLine
    · exact ih (h.of_headers (parseRequestLine_headers line q).1) false
    · exact ih (h.parseHeaderLine line) firstLine

theorem LowerNames.parseHeaders (h : q.LowerNames) (raw : Bytes) : (parseHeaders raw q).2.LowerNames := by
  rw [Request.parseHeaders]
  split
  · exact h
  · have hlines := LowerNames.parseLines (show LowerNames { q with cookies := ∅ } from h)
    exact (hlines _ true).of_headers (sameHead_parseBlock _ q).headers

/-- The part of the state that counts here. -/
abbrev Names (s : Request × World) : Prop := s.1.LowerNames

theorem names_decodeLoop (sys : Sys) (buf : Bytes) (hlen : buf.length < 2 ^ 63) :
    Eff.Moves (Eff.Keeping Names) (decodeLoop sys buf hlen) := by
  induction hn : buf.length using Nat.strong_induction_on generalizing buf with
  | _ n ih =>
    subst hn
    rcases hnext : nextChunk buf with _ | _ | _ | rest | ⟨data, rest⟩
    · rw [decodeLoop_wait sys hnext]
      exact .pure _
    · rw [decodeLoop_outOfRange sys hnext]
      exact .throw _
    · rw [decodeLoop_malformed sys hnext]
      exact (Eff.Moves.modObj fun _ h => h).bind fun _ => .pure _
    · rw [decodeLoop_last sys hnext]
      exact (Eff.Moves.modObj fun _ h => h).bind fun _ => .pure _
    · rw [decodeLoop_chunk sys hnext]
      have hstore : Eff.Moves (Eff.Keeping Names) (onDecodedBody (DataStore.append sys data)) := fun _ h => h
      refine hstore.bind fun _ => Eff.Moves.obj.bind fun r => .ite (fun _ => ?_) fun _ => ?_
      · exact (Eff.Moves.modObj fun _ h => h).bind fun _ => .pure _
      · exact (Eff.Moves.modObj fun _ h => h).bind fun _ => ih _ (length_lt_of_nextChunk hlen hnext) rest _ rfl

theorem names_processBodySlice (sys : Sys) : Eff.Moves (Eff.Keeping Names) (processBodySlice sys) := by
  have hbody {α : Type} (m : Method DataStore α) : Eff.Moves (Eff.Keeping Names) (onBody m) := fun _ h => h
  refine Eff.Moves.obj.bind fun r => .ite (fun _ => .pure _) fun _ => ?_
  refine (hbody _).bind fun got => (Eff.Moves.modObj fun _ h => h).bind fun _ => ?_
  split
  swap
  · exact .throw _
  refine (Eff.Moves.modObj fun _ h => h).bind fun _ => (names_decodeLoop sys _ _).bind fun done => ?_
  refine .ite (fun _ => .pure _) fun _ => Eff.Moves.obj.bind fun r => .ite (fun _ => ?_) fun _ => .pure _
  refine (hbody _).bind fun _ => (Eff.Moves.modObj fun _ h => h).bind fun _ => (hbody _).bind fun _ => ?_
  -- the length of the decoded body is the one header that is added
  exact (Eff.Moves.modObj fun _ h => LowerNames.insert h (by decide) rfl).bind fun _ => .pure _

/-- A request whose headers were read by the parser; its body may have been stored and decoded since. -/
inductive Received : Request → Prop
  | parsed (raw : Bytes) (maxBodySize : Nat) : Received (parseHeaders raw { maxBodySize := maxBodySize }).2
  | stored {q : Request} (h : Received q) (body : DataStore) : Received { q with body := body }
  | decoded {q q' : Request} {w w' : World} {sys : Sys} {out : Except Exn Bool} (h : Received q)
      (hrun : processBodySlice sys (q, w) = (out, q', w')) : Received q'

theorem Received.lowerNames (h : q.Received) : q.LowerNames := by
  induction h with
  | parsed raw maxBodySize => exact LowerNames.parseHeaders (fun _ h => by cases h) raw
  | stored _ body ih => exact ih
  | @decoded q q' w w' sys out _ hrun ih =>
    have := names_processBodySlice sys (q, w) ih
    rwa [hrun] at this

end Request

namespace CGIManager

/-! ### Names of variables -/

/-- The bytes of a header's name. -/
def isToken (c : UInt8) : Bool :=
  c ∈ ascii "!#$%&'*+-.^_`|~" ∨ isdigit c ∨ (65 ≤ c ∧ c ≤ 90) ∨ (97 ≤ c ∧ c ≤ 122)

/-- `HTTP_` and the name in upper case, with `_` for `-`. -/
def httpVariable (name : Bytes) : Bytes :=
  ascii "HTTP_" ++ (name.map toupper).map fun c => if c = 45 then 95 else c

theorem toupper_eq_minus {c : UInt8} : toupper c = 45 ↔ c = 45 := by
  rw [toupper]
  split
  · rename_i h
    simp only [UInt8.le_iff_toNat_le] at h
    simp only [← UInt8.toNat_inj, UInt8.toNat_sub, UInt8.reduceToNat] at h ⊢
    omega
  · rfl

theorem headerVariable_eq (name : Bytes) : headerVariable name = httpVariable name := by
  rw [headerVariable, httpVariable, List.map_map]
  refine congrArg (ascii "HTTP_" ++ ·) (List.map_congr_left fun c _ => ?_)
  by_cases hc : c = 45
  · simp [hc, toupper]
  · simp [hc, toupper_eq_minus]

/-- Upper case and `_` do not bring two bytes together that were in lower case and none of them `_`. -/
theorem variableByte_inj {a b : UInt8} (ha : tolower a = a) (hb : tolower b = b) (ha' : a ≠ 95) (hb' : b ≠ 95)
    (h : (if a = 45 then 95 else toupper a) = if b = 45 then 95 else toupper b) : a = b := by
  have hnot {c : UInt8} (hc : tolower c = c) : ¬ (65 ≤ c ∧ c ≤ 90) := by
    intro hup
    rw [tolower, if_pos hup] at hc
    simp only [← UInt8.toNat_inj, UInt8.toNat_add, UInt8.reduceToNat] at hc
    omega
  have ha := hnot ha
  have hb := hnot hb
  simp only [toupper, UInt8.le_iff_toNat_le, ← UInt8.toNat_inj, UInt8.reduceToNat, ne_eq] at *
  split_ifs at h <;> (try simp only [UInt8.toNat_sub, UInt8.reduceToNat] at h) <;> omega

theorem headerVariable_inj {a b : Bytes} (ha : lowercase a = a) (hb : lowercase b = b) (ha' : 95 ∉ a) (hb' : 95 ∉ b)
    (h : headerVariable a = headerVariable b) : a = b := by
  replace h := List.append_cancel_left h
  induction a generalizing b with
  | nil => exact (List.map_eq_nil_iff.1 h.symm).symm
  | cons x a ih =>
    rcases b with _ | ⟨y, b⟩
    · cases h
    rw [List.map_cons, List.map_cons] at h
    rw [lowercase, List.map_cons] at ha hb
    rw [List.mem_cons, not_or] at ha' hb'
    obtain ⟨hx, ha⟩ := List.cons.inj ha
    obtain ⟨hy, hb⟩ := List.cons.inj hb
    obtain ⟨hxy, h⟩ := List.cons.inj h
    rw [variableByte_inj hx hy (Ne.symm ha'.1) (Ne.symm hb'.1) hxy, ih ha hb ha'.2 hb'.2 h]

/-! ### The entries of the environment -/

theorem not_http_of_short {k : Bytes} (h : ¬ ascii "HTTP_" <+: k) (v : Bytes) : ¬ ascii "HTTP_" <+: k ++ 61 :: v := by
  intro hpre
  rcases Nat.le_total (ascii "HTTP_").length k.length with hle | hle
  · exact h (List.prefix_of_prefix_length_le hpre (List.prefix_append k _) hle)
  · have hk : k <+: ascii "HTTP_" := List.prefix_of_prefix_length_le (List.prefix_append k _) hpre hle
    obtain ⟨t, ht⟩ := hk
    rw [← ht, List.prefix_append_right_inj] at hpre
    rcases t with _ | ⟨x, t⟩
    · exact h (by rw [← ht, List.append_nil])
    · have hx : x = 61 := (List.cons_prefix_cons.1 hpre).1
      have hmem : x ∈ ascii "HTTP_" := by
        rw [← ht]
        exact List.mem_append_right k List.mem_cons_self
      rw [hx] at hmem
      exact absurd hmem (by simp [ascii])

/-- What `getenv` finds: the rest of the first entry that starts with the name and an equals sign. -/
def getenv (block : List Bytes) (name : Bytes) : Option Bytes :=
  (block.find? fun e => name ++ [61] <+: e).map (·.drop (name.length + 1))

/-- An entry of the block. -/
def envEntry (e : Bytes × Bytes) : Bytes := cstr (e.1 ++ [61] ++ e.2)

theorem http_prefix_envEntry (e : Bytes × Bytes) : ascii "HTTP_" <+: envEntry e ↔ ascii "HTTP_" <+: e.1 := by
  constructor
  · intro h
    by_contra hnot
    have hcut := cstr_isPrefix (e.1 ++ [61] ++ e.2)
    rw [List.append_assoc] at hcut
    exact not_http_of_short hnot e.2 (h.trans (by rwa [envEntry, List.append_assoc]))
  · rintro ⟨t, ht⟩
    rw [envEntry, ← ht, List.append_assoc, List.append_assoc, cstr_append (by simp [ascii])]
    exact List.prefix_append _ _

/-- Only the entries without the prefix count for a variable without it. -/
theorem getenv_filter (block : List Bytes) {name : Bytes} (h : ¬ ascii "HTTP_" <+: name) :
    getenv (block.filter fun e => ¬ ascii "HTTP_" <+: e) name = getenv block name := by
  have hkeep : ∀ e : Bytes, name ++ [61] <+: e → ¬ ascii "HTTP_" <+: e := by
    rintro e ⟨t, rfl⟩
    rw [List.append_assoc]
    exact not_http_of_short h t
  rw [getenv, getenv, List.find?_filter]
  congr 2
  funext e
  by_cases hpre : name ++ [61] <+: e
  · simp [hpre, hkeep e hpre]
  · simp [hpre]

/-- The variables that are set before the headers. -/
def metaVariables (request : Request) (scriptPath : Bytes) : StrMap :=
  let env := (∅ : StrMap)
    |>.insert (ascii "REQUEST_METHOD") (AllowedMethods.methodToString request.methodName)
    |>.insert (ascii "QUERY_STRING") request.query
    |>.insert (ascii "SCRIPT_FILENAME") scriptPath
    |>.insert (ascii "SCRIPT_NAME") request.URL
    |>.insert (ascii "PATH_INFO") request.URL
    |>.insert (ascii "SERVER_PROTOCOL") request.protocol
    |>.insert (ascii "GATEWAY_INTERFACE") (ascii "CGI/1.1")
    |>.insert (ascii "REDIRECT_STATUS") (ascii "200")
  let ct := request.getHeader (ascii "content-type")
  let env := if ct = [] then env else env.insert (ascii "CONTENT_TYPE") ct
  let cl := request.getHeader (ascii "content-length")
  env.insert (ascii "CONTENT_LENGTH") (if cl = [] then ascii "0" else cl)

def addHeaderVariables (headers : List (Bytes × Bytes)) (env : StrMap) : StrMap :=
  headers.foldl (fun env h => env.insert (headerVariable h.1) h.2) env

theorem buildEnvMap_eq (request : Request) (scriptPath : Bytes) : buildEnvMap request scriptPath =
    addHeaderVariables request.headers.entries (metaVariables request scriptPath) := rfl

theorem execveEnvp_eq (request : Request) (scriptPath interpreterOverride : Bytes) (c : CGIManager) :
    (prepare request scriptPath interpreterOverride c).execveEnvp =
      (buildEnvMap request scriptPath).entries.map envEntry := rfl

/-- Headers leave the variables without the prefix alone. -/
theorem filterKeys_addHeaderVariables (headers : List (Bytes × Bytes)) (env : StrMap) :
    (addHeaderVariables headers env).filterKeys (fun k => ¬ ascii "HTTP_" <+: k) =
      env.filterKeys fun k => ¬ ascii "HTTP_" <+: k := by
  induction headers generalizing env with
  | nil => rfl
  | cons h headers ih =>
    rw [addHeaderVariables, List.foldl_cons]
    refine (ih _).trans (OrdMap.filterKeys_insert_of_not ?_ _)
    simp [headerVariable]

/-- The value of a variable without the prefix does not depend on the headers that became variables. -/
theorem getenv_prepare (request : Request) (scriptPath interpreterOverride : Bytes) (c : CGIManager) {name : Bytes}
    (h : ¬ ascii "HTTP_" <+: name) :
    getenv (prepare request scriptPath interpreterOverride c).execveEnvp name =
      getenv (((metaVariables request scriptPath).filterKeys fun k => ¬ ascii "HTTP_" <+: k).entries.map envEntry) name := by
  have hcomm : (fun e => decide (¬ ascii "HTTP_" <+: e)) ∘ envEntry = fun e => decide (¬ ascii "HTTP_" <+: e.1) := by
    funext e
    simp [http_prefix_envEntry]
  rw [← getenv_filter _ h, execveEnvp_eq, buildEnvMap_eq, List.filter_map, hcomm,
    ← filterKeys_addHeaderVariables request.headers.entries]
  rfl

/-- A header whose variable no other header has is found under it. -/
theorem find?_addHeaderVariables {headers : List (Bytes × Bytes)} {name value : Bytes} (env : StrMap)
    (hmem : (name, value) ∈ headers)
    (hinj : ∀ h ∈ headers, headerVariable h.1 = headerVariable name → h = (name, value)) :
    (addHeaderVariables headers env).find? (headerVariable name) = some value := by
  induction headers using List.reverseRecOn with
  | nil => cases hmem
  | append_singleton headers h ih =>
    rw [addHeaderVariables, List.foldl_append, List.foldl_cons, List.foldl_nil, OrdMap.find?_insert]
    split
    · rename_i heq
      rw [hinj h (by simp) heq.symm]
    · rename_i hne
      refine ih ?_ fun h' hh' => hinj h' (List.mem_append_left _ hh')
      refine (List.mem_append.1 hmem).resolve_right fun hlast => hne ?_
      rw [← List.mem_singleton.1 hlast]

/-! ### Names that can be read back -/

/-- The name ends where the equals sign of the entry stands. -/
def PlainName (k : Bytes) : Prop := 0 ∉ k ∧ 61 ∉ k

theorem takeWhile_envEntry {e : Bytes × Bytes} (h : PlainName e.1) : (envEntry e).takeWhile (· ≠ 61) = e.1 := by
  have hall : ∀ c ∈ e.1, decide (c ≠ 61) = true := fun c hc => by
    simpa using fun heq : c = 61 => h.2 (heq ▸ hc)
  have hsign : (61 :: e.2).takeWhile (· ≠ 0) = 61 :: cstr e.2 := rfl
  rw [envEntry, List.append_assoc, List.singleton_append, cstr_append h.1, cstr, hsign,
    List.takeWhile_append_of_pos hall]
  simp

theorem plainName_insert {m : StrMap} (hm : ∀ e ∈ m.entries, PlainName e.1) {k : Bytes} (hk : PlainName k) (v : Bytes) :
    ∀ e ∈ (m.insert k v).entries, PlainName e.1 := by
  intro e he
  rcases OrdMap.mem_entries_insert he with rfl | he
  · exact hk
  · exact hm e he

theorem plainName_metaVariables (request : Request) (scriptPath : Bytes) :
    ∀ e ∈ (metaVariables request scriptPath).entries, PlainName e.1 := by
  have hnone : ∀ e ∈ (∅ : StrMap).entries, PlainName e.1 := fun e he => by cases he
  rw [metaVariables]
  refine plainName_insert ?_ (by simp [PlainName, ascii]) _
  split
  all_goals
    repeat refine plainName_insert ?_ (by simp [PlainName, ascii]) _
    exact hnone

theorem plainName_headerVariable {name : Bytes} (h : ∀ c ∈ name, isToken c) : PlainName (headerVariable name) := by
  have hbyte {c d : UInt8} (hc : isToken c) (hd : isToken d = false) (hlow : d < 65) :
      (if c = 45 then 95 else toupper c) ≠ d := by
    intro heq
    have hne : c ≠ d := fun hcd => by rw [hcd, hd] at hc; cases hc
    rw [toupper] at heq
    simp only [UInt8.le_iff_toNat_le, UInt8.lt_iff_toNat_lt, ← UInt8.toNat_inj, UInt8.reduceToNat, ne_eq] at *
    split_ifs at heq <;> (try simp only [UInt8.toNat_sub, UInt8.reduceToNat] at heq) <;> omega
  have hnot {d : UInt8} (hd : isToken d = false) (hlow : d < 65) (hlead : d ∉ ascii "HTTP_") :
      d ∉ headerVariable name := by
    rw [headerVariable, List.mem_append, not_or]
    refine ⟨hlead, fun hmem => ?_⟩
    obtain ⟨c, hc, heq⟩ := List.mem_map.1 hmem
    exact hbyte (h c hc) hd hlow heq
  exact ⟨hnot (by decide) (by decide) (by simp [ascii]), hnot (by decide) (by decide) (by simp [ascii])⟩

theorem plainName_addHeaderVariables {headers : List (Bytes × Bytes)} (hnames : ∀ h ∈ headers, ∀ c ∈ h.1, isToken c)
    {env : StrMap} (henv : ∀ e ∈ env.entries, PlainName e.1) :
    ∀ e ∈ (addHeaderVariables headers env).entries, PlainName e.1 := by
  induction headers generalizing env with
  | nil => exact henv
  | cons h headers ih =>
    rw [List.forall_mem_cons] at hnames
    exact ih hnames.2 (plainName_insert henv (plainName_headerVariable hnames.1) h.2)

/-- A header of a received request is one variable, with its value. -/
theorem header_variable {q : Request} (hq : q.Received) (hnames : ∀ h ∈ q.headers.entries, ∀ c ∈ h.1, isToken c ∧ c ≠ 95)
    (hvalues : ∀ h ∈ q.headers.entries, 0 ∉ h.2) {name value : Bytes} (hfind : q.headers.find? name = some value)
    (scriptPath interpreterOverride : Bytes) (c : CGIManager) :
    (prepare q scriptPath interpreterOverride c).execveEnvp.filter (fun e => e.takeWhile (· ≠ 61) = httpVariable name) =
      [httpVariable name ++ [61] ++ value] := by
  have hmem := OrdMap.mem_entries_of_find? hfind
  have hunderscore : ∀ h ∈ q.headers.entries, 95 ∉ h.1 := fun h hh hmem => (hnames h hh 95 hmem).2 rfl
  have hinj : ∀ h ∈ q.headers.entries, headerVariable h.1 = headerVariable name → h = (name, value) := by
    intro h hh heq
    have hname := headerVariable_inj (hq.lowerNames h hh) (hq.lowerNames _ hmem) (hunderscore h hh) (hunderscore _ hmem) heq
    have hvalue : q.headers.find? h.1 = some h.2 := OrdMap.find?_of_mem_entries hh
    rw [hname, hfind] at hvalue
    exact Prod.ext hname (Option.some.inj hvalue).symm
  have hvar := find?_addHeaderVariables (metaVariables q scriptPath) hmem hinj
  have hplain := plainName_addHeaderVariables (fun h hh c hc => (hnames h hh c hc).1) (plainName_metaVariables q scriptPath)
  have hentry : (buildEnvMap q scriptPath).entries.filter (fun e => (envEntry e).takeWhile (· ≠ 61) = headerVariable name) =
      [(headerVariable name, value)] := by
    rw [buildEnvMap_eq, ← OrdMap.filter_key_eq hvar]
    refine List.filter_congr fun e he => ?_
    rw [takeWhile_envEntry (hplain e he)]
  have hwhole : envEntry (headerVariable name, value) = headerVariable name ++ [61] ++ value := by
    refine cstr_eq_self ?_
    simp only [List.mem_append, not_or]
    exact ⟨⟨(plainName_headerVariable fun c hc => (hnames _ hmem c hc).1).1, by simp⟩, hvalues _ hmem⟩
  rw [← headerVariable_eq, execveEnvp_eq, List.filter_map, ← hwhole]
  exact congrArg (List.map envEntry) hentry

/-- Only what a request says of its method, target and body counts for the variables without `HTTP_`; with names
that do not fall together each header is one of the others. -/
theorem environment_of_headers (scriptPath interpreterOverride : Bytes) (c c' : CGIManager) :
    (∀ q q' : Request, q'.methodName = q.methodName → q'.URL = q.URL → q'.query = q.query →
      q'.protocol = q.protocol → q'.getHeader (ascii "content-type") = q.getHeader (ascii "content-type") →
      q'.getHeader (ascii "content-length") = q.getHeader (ascii "content-length") →
      ∀ name, ¬ ascii "HTTP_" <+: name →
        getenv (prepare q' scriptPath interpreterOverride c').execveEnvp name =
          getenv (prepare q scriptPath interpreterOverride c).execveEnvp name) ∧
    ∀ q : Request, q.Received → (∀ h ∈ q.headers.entries, ∀ x ∈ h.1, isToken x ∧ x ≠ 95) →
      (∀ h ∈ q.headers.entries, 0 ∉ h.2) → ∀ name value, q.headers.find? name = some value →
        (prepare q scriptPath interpreterOverride c).execveEnvp.filter
            (fun e => e.takeWhile (· ≠ 61) = httpVariable name) = [httpVariable name ++ [61] ++ value] := by
  refine ⟨fun q q' hmethod hurl hquery hprotocol htype hlength name hname => ?_,
    fun q hq hnames hvalues name value hfind => header_variable hq hnames hvalues hfind _ _ _⟩
  have hmeta : metaVariables q' scriptPath = metaVariables q scriptPath := by
    simp only [metaVariables, hmethod, hurl, hquery, hprotocol, htype, hlength]
  rw [getenv_prepare _ _ _ _ hname, getenv_prepare _ _ _ _ hname, hmeta]

/-- Two requests for one script, with a header more in the second. -/
def plainRequest (extra : Bytes) : Request :=
  (Request.parseHeaders (ascii "GET /a HTTP/1.0\r\n" ++ extra ++ ascii "\r\n") {}).2

theorem environment_of_headers_extra :
    getenv (prepare (plainRequest (ascii "X-A: b\r\n")) (ascii "/s") [] {}).execveEnvp (ascii "PATH_INFO") =
        getenv (prepare (plainRequest []) (ascii "/s") [] {}).execveEnvp (ascii "PATH_INFO") ∧
      (prepare (plainRequest (ascii "X-A: b\r\n")) (ascii "/s") [] {}).execveEnvp.filter
        (fun e => e.takeWhile (· ≠ 61) = httpVariable (ascii "x-a")) = [httpVariable (ascii "x-a") ++ [61] ++ ascii "b"] := by
  have hboth := environment_of_headers (ascii "/s") [] {} {}
  refine ⟨hboth.1 (plainRequest []) (plainRequest (ascii "X-A: b\r\n")) ?_ ?_ ?_ ?_ ?_ ?_ (ascii "PATH_INFO") ?_,
    hboth.2 (plainRequest (ascii "X-A: b\r\n")) (.parsed _ 0) ?_ ?_ (ascii "x-a") (ascii "b") ?_⟩
  all_goals decide +kernel

end CGIManager

end LeftHookRoll
