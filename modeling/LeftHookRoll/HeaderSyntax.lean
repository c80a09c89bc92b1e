import LeftHookRoll.Request

/-!
# The header block: parsing undoes rendering

`HeaderBlock` is a request line and header fields as a client may write them. `parseHeaders_render` says
that the parser takes exactly the block and gives the parts back; the lines are cut first
(`headerLines_intercalate`), then each is read on its own.
-/

namespace LeftHookRoll

/-! ### Trimming -/

/-- No white space at either end. -/
def Trimmed (s : Bytes) : Prop := (∀ c ∈ s.head?, ¬ isspace c) ∧ ∀ c ∈ s.getLast?, ¬ isspace c

theorem dropWhile_append_of_pos {p : UInt8 → Bool} {a s : Bytes} (ha : ∀ c ∈ a, p c) :
    (a ++ s).dropWhile p = s.dropWhile p := by
  induction a with
  | nil => rfl
  | cons c a ih =>
    rw [List.cons_append, List.dropWhile_cons, if_pos (ha c List.mem_cons_self)]
    exact ih fun b hb => ha b (List.mem_cons_of_mem c hb)

theorem dropWhile_of_head {p : UInt8 → Bool} {s : Bytes} (h : ∀ c ∈ s.head?, ¬ p c) : s.dropWhile p = s := by
  rcases s with _ | ⟨c, s⟩
  · rfl
  · rw [List.dropWhile_cons, if_neg (h c rfl)]

/-- A text without the white space around it. -/
def strip (s : Bytes) : Bytes := (s.dropWhile isspace).rdropWhile isspace

/-- `trim` is right as long as an `int` can hold the size. -/
theorem trim_eq {s : Bytes} (h : s.length < 2 ^ 31) : trim s = strip s := by
  have hmod : s.length % 2 ^ 32 = s.length := Nat.mod_eq_of_lt (by omega)
  unfold trim
  rw [hmod, if_neg (not_le.2 h), List.take_length]
  rfl

theorem strip_blanks {a s b : Bytes} (ha : ∀ c ∈ a, isspace c) (hb : ∀ c ∈ b, isspace c) (hs : Trimmed s) :
    strip (a ++ s ++ b) = s := by
  rw [strip, List.append_assoc, dropWhile_append_of_pos ha]
  rcases eq_or_ne s [] with rfl | hne
  · have hnil : b.dropWhile isspace = [] := List.dropWhile_eq_nil_iff.2 hb
    rw [List.nil_append, hnil]
    rfl
  have hhead : ∀ c ∈ (s ++ b).head?, ¬ isspace c := by
    rw [List.head?_append_of_ne_nil s hne]
    exact hs.1
  have hlast : ∀ c ∈ s.reverse.head?, ¬ isspace c := by
    rw [List.head?_reverse]
    exact hs.2
  rw [dropWhile_of_head hhead, List.rdropWhile, List.reverse_append,
    dropWhile_append_of_pos fun c hc => hb c (List.mem_reverse.1 hc), dropWhile_of_head hlast, List.reverse_reverse]

namespace Request

/-! ### Lines -/

/-- A line with something on it. -/
def IsLine (line : Bytes) : Prop := line ≠ [] ∧ CR ∉ line

theorem headerLines_cons {c : UInt8} (hc : c ≠ 13) (s : Bytes) :
    headerLines (c :: s) = match headerLines s with
      | [] => [[c]]
      | line :: lines => (c :: line) :: lines := by
  have hnot : ∀ s', c = 13 → s = 10 :: s' → False := fun _ hc' => absurd hc' hc
  exact (headerLines.eq_3 c s hnot).trans rfl

theorem headerLines_append {line : Bytes} (h : CR ∉ line) (s : Bytes) :
    headerLines (line ++ crlf ++ s) = line :: headerLines s := by
  induction line with
  | nil => rfl
  | cons c line ih =>
    rw [List.mem_cons, not_or] at h
    rw [List.cons_append, List.cons_append, headerLines_cons fun hc => h.1 hc.symm, ih h.2]

theorem headerLines_line {line : Bytes} (h : IsLine line) : headerLines line = [line] := by
  obtain ⟨hne, h⟩ := h
  induction line with
  | nil => exact absurd rfl hne
  | cons c line ih =>
    rw [List.mem_cons, not_or] at h
    rw [headerLines_cons fun hc => h.1 hc.symm]
    rcases eq_or_ne line [] with rfl | hline
    · rfl
    · rw [ih hline h.2]

/-- The lines are cut out as they were put together. -/
theorem headerLines_intercalate {lines : List Bytes} (h : ∀ line ∈ lines, IsLine line) :
    headerLines (crlf.intercalate lines) = lines := by
  induction lines with
  | nil => rfl
  | cons line lines ih =>
    have hline := h line List.mem_cons_self
    rcases lines with _ | ⟨next, lines⟩
    · rw [List.intercalate_singleton, headerLines_line hline]
    · rw [List.intercalate_cons_cons, headerLines_append hline.2,
        ih fun l hl => h l (List.mem_cons_of_mem line hl)]

/-- The block ends behind its last line. -/
theorem findSub_intercalate {line : Bytes} {lines : List Bytes} (h : ∀ l ∈ line :: lines, IsLine l)
    (rest : Bytes) :
    (crlf.intercalate (line :: lines) ++ crlfcrlf ++ rest).findSub crlfcrlf =
      some (crlf.intercalate (line :: lines)).length :=
  List.findSub_intercalate (a := CR) (by decide) h rest

/-! ### Fields -/

/-- What a header line says: the name in lower case and the value. -/
def fieldOf (line : Bytes) : Option (Bytes × Bytes) :=
  match line.idxOf? 58 with
  | none => none
  | some colonPos =>
    let key := lowercase (trim (line.take colonPos))
    if key = [] then none else some (key, trim (line.drop (colonPos + 1)))

def readField (headers : StrMap) (line : Bytes) : StrMap :=
  match fieldOf line with
  | none => headers
  | some f => headers.insert f.1 f.2

theorem parseHeaderLine_eq (line : Bytes) (q : Request) :
    parseHeaderLine line q = { q with headers := readField q.headers line } := by
  rw [parseHeaderLine, readField, fieldOf]
  rcases line.idxOf? 58 with _ | colonPos
  · rfl
  · simp only
    split_ifs <;> rfl

theorem foldl_parseHeaderLine (lines : List Bytes) (q : Request) :
    lines.foldl (fun q line => parseHeaderLine line q) q = { q with headers := lines.foldl readField q.headers } := by
  induction lines generalizing q with
  | nil => rfl
  | cons line lines ih => rw [List.foldl_cons, ih, parseHeaderLine_eq, List.foldl_cons]

/-- The first line that is not empty is the request line, the others are header lines. -/
theorem parseLines_eq (lines : List Bytes) (q : Request) :
    parseLines lines true q = match lines.filter (· ≠ []) with
      | [] => q
      | line :: rest => rest.foldl (fun q line => parseHeaderLine line q) (parseRequestLine line q) := by
  have hrest (lines : List Bytes) (q : Request) :
      parseLines lines false q = (lines.filter (· ≠ [])).foldl (fun q line => parseHeaderLine line q) q := by
    induction lines generalizing q with
    | nil => rfl
    | cons line lines ih =>
      rw [parseLines]
      by_cases hline : line = []
      · simp [hline, ih]
      · simp [hline, ih]
  induction lines with
  | nil => rfl
  | cons line lines ih =>
    rw [parseLines]
    by_cases hline : line = []
    · simp [hline, ih]
    · simp [hline, hrest]

/-- The last field of a name counts. -/
theorem find?_foldl_readField (lines : List Bytes) (headers : StrMap) (key : Bytes) :
    (lines.foldl readField headers).find? key =
      ((lines.filterMap fieldOf).reverse.lookup key).or (headers.find? key) := by
  induction lines using List.reverseRecOn with
  | nil => rfl
  | append_singleton lines line ih =>
    rw [List.foldl_append, List.foldl_cons, List.foldl_nil, readField, List.filterMap_append]
    rcases hf : fieldOf line with _ | ⟨k, v⟩
    · simp [hf, ih]
    · rw [List.filterMap_cons, hf, List.filterMap_nil, List.reverse_append, List.reverse_singleton,
        List.singleton_append, List.lookup_cons, OrdMap.find?_insert, ih]
      by_cases hk : key = k
      · simp [hk]
      · simp [hk, beq_eq_false_iff_ne.2 hk]

/-- What the steps after the lines leave alone. -/
structure SameHead (q q' : Request) : Prop where
  methodName : q'.methodName = q.methodName
  URL : q'.URL = q.URL
  query : q'.query = q.query
  protocol : q'.protocol = q.protocol
  headers : q'.headers = q.headers
  maxBodySize : q'.maxBodySize = q.maxBodySize

theorem sameHead_typeOfReq (q : Request) : SameHead q q.typeOfReq := by
  unfold typeOfReq
  simp only
  split_ifs <;> exact ⟨rfl, rfl, rfl, rfl, rfl, rfl⟩

theorem sameHead_parseBlock (block : Bytes) (q : Request) :
    SameHead (parseLines (headerLines block) true { q with cookies := ∅ }) (parseBlock block q) := by
  obtain ⟨p, hp⟩ : ∃ p, p = parseLines (headerLines block) true { q with cookies := ∅ } := ⟨_, rfl⟩
  have htype : SameHead p (if p.reqState ≠ .REQ_ERROR then p.typeOfReq else p) := by
    split_ifs
    · exact sameHead_typeOfReq p
    · exact ⟨rfl, rfl, rfl, rfl, rfl, rfl⟩
  rw [parseBlock, ← hp]
  split
  · exact ⟨htype.methodName, htype.URL, htype.query, htype.protocol, htype.headers, htype.maxBodySize⟩
  · exact htype

end Request

/-! ### Rendering -/

/-- A header field with its blanks around the colon. -/
structure HeaderField where
  name : Bytes
  before : Bytes
  after : Bytes
  value : Bytes
  name_ne : name ≠ []
  name_plain : ∀ c ∈ name, c ≠ 58 ∧ c ≠ CR ∧ c ≠ LF
  name_trimmed : Trimmed name
  value_plain : ∀ c ∈ value, c ≠ CR ∧ c ≠ LF
  value_trimmed : Trimmed value
  blanks : ∀ c ∈ before ++ after, isspace c ∧ c ≠ CR ∧ c ≠ LF

namespace HeaderField

def render (f : HeaderField) : Bytes := f.name ++ f.before ++ [58] ++ f.after ++ f.value

theorem isLine_render (f : HeaderField) : Request.IsLine f.render := by
  refine ⟨by simp [render], fun hmem => ?_⟩
  have hblank (c : UInt8) (hc : c ∈ f.before ++ f.after) : CR ≠ c := (f.blanks c hc).2.1.symm
  simp only [render, List.mem_append, List.mem_singleton] at hmem
  rcases hmem with (((h | h) | h) | h) | h
  · exact (f.name_plain CR h).2.1 rfl
  · exact hblank CR (List.mem_append_left _ h) rfl
  · exact absurd h (by decide)
  · exact hblank CR (List.mem_append_right _ h) rfl
  · exact (f.value_plain CR h).1 rfl

theorem fieldOf_render (f : HeaderField) (hsmall : f.render.length < 2 ^ 31) :
    Request.fieldOf f.render = some (lowercase f.name, f.value) := by
  have hcolon : 58 ∉ f.name ++ f.before := by
    intro h
    rcases List.mem_append.1 h with h | h
    · exact (f.name_plain _ h).1 rfl
    · exact absurd (f.blanks _ (List.mem_append_left _ h)).1 (by decide)
  have hidx : f.render.idxOf? 58 = some (f.name ++ f.before).length := by
    rw [render, List.append_assoc, List.append_assoc, List.singleton_append]
    exact List.idxOf?_append_cons hcolon _
  have htake : f.render.take (f.name ++ f.before).length = [] ++ f.name ++ f.before := by
    rw [render, List.append_assoc, List.append_assoc]
    exact List.take_left
  have hdrop : f.render.drop ((f.name ++ f.before).length + 1) = f.after ++ f.value ++ [] := by
    rw [render, List.append_nil, List.append_assoc _ f.after,
      show (f.name ++ f.before).length + 1 = (f.name ++ f.before ++ [58]).length by simp [Nat.add_assoc]]
    exact List.drop_left
  have hkey : lowercase f.name ≠ [] := fun h => f.name_ne (List.map_eq_nil_iff.1 h)
  have hname : trim (f.render.take (f.name ++ f.before).length) = f.name := by
    rw [trim_eq ((List.length_take_le' _ _).trans_lt hsmall), htake]
    exact strip_blanks (by simp) (fun c hc => (f.blanks c (List.mem_append_left _ hc)).1) f.name_trimmed
  have hvalue : trim (f.render.drop ((f.name ++ f.before).length + 1)) = f.value := by
    rw [trim_eq (lt_of_le_of_lt (by simp) hsmall), hdrop]
    exact strip_blanks (fun c hc => (f.blanks c (List.mem_append_right _ hc)).1) (by simp) f.value_trimmed
  rw [Request.fieldOf, hidx]
  simp only
  rw [hname, hvalue, if_neg hkey]

end HeaderField

/-- A request line and the header fields, as a client writes them. -/
structure HeaderBlock where
  method : HTTPMethod
  path : Bytes
  query : Option Bytes
  version : Bytes
  fields : List HeaderField
  method_known : method ≠ .UNKNOWN_METHOD
  path_slash : path.head? = some slash
  path_plain : ∀ c ∈ path, c ≠ 32 ∧ c ≠ 63 ∧ c ≠ CR ∧ c ≠ LF
  query_plain : ∀ q ∈ query, ∀ c ∈ q, c ≠ 32 ∧ c ≠ CR ∧ c ≠ LF
  version_known : version = ascii "HTTP/1.0" ∨ version = ascii "HTTP/1.1"

namespace HeaderBlock

variable (h : HeaderBlock)

/-- The path and the query. -/
def target : Bytes := h.path ++ h.query.elim [] fun q => 63 :: q

def requestLine : Bytes := AllowedMethods.methodToString h.method ++ [32] ++ h.target ++ [32] ++ h.version

def lines : List Bytes := h.requestLine :: h.fields.map HeaderField.render

def render : Bytes := crlf.intercalate h.lines ++ crlfcrlf

theorem space_not_mem_target : 32 ∉ h.target := by
  rw [target]
  intro hmem
  rcases List.mem_append.1 hmem with hmem | hmem
  · exact (h.path_plain _ hmem).1 rfl
  · rcases hq : h.query with _ | q
    · rw [hq] at hmem
      cases hmem
    · rw [hq] at hmem
      rcases List.mem_cons.1 hmem with heq | hmem
      · cases heq
      · exact (h.query_plain q hq _ hmem).1 rfl

theorem isLine_requestLine : Request.IsLine h.requestLine := by
  have hmethod : CR ∉ AllowedMethods.methodToString h.method := by cases h.method <;> decide
  have hversion : CR ∉ h.version := by rcases h.version_known with hv | hv <;> rw [hv] <;> decide
  refine ⟨by simp [requestLine], fun hmem => ?_⟩
  simp only [requestLine, target, List.mem_append, List.mem_singleton] at hmem
  rcases hmem with (((hmem | hmem) | hmem | hmem) | hmem) | hmem
  · exact hmethod hmem
  · exact absurd hmem (by decide)
  · exact (h.path_plain _ hmem).2.2.1 rfl
  · rcases hq : h.query with _ | q
    · rw [hq] at hmem
      cases hmem
    · rw [hq] at hmem
      rcases List.mem_cons.1 hmem with heq | hmem
      · cases heq
      · exact (h.query_plain q hq _ hmem).2.1 rfl
  · exact absurd hmem (by decide)
  · exact hversion hmem

theorem isLine_lines : ∀ line ∈ h.lines, Request.IsLine line := by
  intro line hline
  rcases List.mem_cons.1 hline with rfl | hline
  · exact h.isLine_requestLine
  · obtain ⟨f, -, rfl⟩ := List.mem_map.1 hline
    exact f.isLine_render

theorem parseRequestLine_render (q : Request) (hquery : q.query = []) :
    Request.parseRequestLine h.requestLine q =
      { q with methodName := h.method, URL := h.path, query := h.query.getD [], protocol := h.version } := by
  obtain ⟨m, hm⟩ : ∃ m, m = AllowedMethods.methodToString h.method := ⟨_, rfl⟩
  have hspace : 32 ∉ m := by rw [hm]; cases h.method <;> decide
  have hback : AllowedMethods.stringToMethod m = h.method := by
    rw [hm]
    cases h.method <;> rfl
  have hline : h.requestLine = m ++ 32 :: (h.target ++ 32 :: h.version) := by
    simp [requestLine, hm]
  have hdrop : h.requestLine.drop (m.length + 1) = h.target ++ 32 :: h.version := by
    rw [hline, ← List.drop_drop, List.drop_left]
    rfl
  have hversion : (h.requestLine.drop (m.length + 1)).drop (h.target.length + 1) = h.version := by
    rw [hdrop, ← List.drop_drop, List.drop_left]
    rfl
  have hknown : ¬ (h.version ≠ ascii "HTTP/1.0" ∧ h.version ≠ ascii "HTTP/1.1") := by
    exact fun hno => h.version_known.elim hno.1 hno.2
  have hhead : h.target.head? = some slash := by
    rw [target, List.head?_append, h.path_slash]
    rfl
  rw [Request.parseRequestLine, show h.requestLine.idxOf? 32 = some m.length by
    rw [hline]; exact List.idxOf?_append_cons hspace _]
  simp only
  rw [show h.requestLine.take m.length = m by rw [hline]; exact List.take_left, hback,
    if_neg h.method_known, hdrop, List.idxOf?_append_cons h.space_not_mem_target]
  simp only
  rw [List.take_left, Nat.add_assoc _ h.target.length, ← List.drop_drop, hversion, if_neg hknown,
    if_neg (not_not.2 hhead)]
  rw [Request.extractQueryFromURL]
  have hpath : 63 ∉ h.path := fun hmem => (h.path_plain _ hmem).2.1 rfl
  rcases hq : h.query with _ | query
  · have htarget : h.target = h.path := by rw [target, hq]; exact List.append_nil _
    simp only [htarget, List.idxOf?_eq_none_iff.2 hpath, Option.getD_none, ← hquery]
  · have htarget : h.target = h.path ++ 63 :: query := by rw [target, hq]; rfl
    simp only [htarget, List.idxOf?_append_cons hpath, List.take_left, Option.getD_some]
    rw [← List.drop_drop, List.drop_left]
    rfl

/-- The value of the last field with a name, whatever the case of its letters. -/
def value (key : Bytes) : Bytes :=
  ((h.fields.filter fun f => lowercase f.name = lowercase key).getLast?.map HeaderField.value).getD []

theorem lookup_fields {fields : List HeaderField} (hsmall : ∀ f ∈ fields, f.render.length < 2 ^ 31) (key : Bytes) :
    ((fields.map HeaderField.render).filterMap Request.fieldOf).reverse.lookup key =
      (fields.filter fun f => lowercase f.name = key).getLast?.map HeaderField.value := by
  induction fields using List.reverseRecOn with
  | nil => rfl
  | append_singleton fields f ih =>
    have hfields : ∀ g ∈ fields, g.render.length < 2 ^ 31 := fun g hg => hsmall g (List.mem_append_left [f] hg)
    have hf : f.render.length < 2 ^ 31 := hsmall f (List.mem_append_right fields List.mem_cons_self)
    rw [List.map_append, List.filterMap_append, List.map_singleton, List.filterMap_cons,
      HeaderField.fieldOf_render f hf, List.filterMap_nil, List.reverse_append, List.reverse_singleton,
      List.singleton_append, List.lookup_cons, ih hfields, List.filter_append, List.getLast?_append]
    by_cases hk : lowercase f.name = key
    · simp [hk]
    · simp [hk, beq_eq_false_iff_ne.2 (Ne.symm hk)]

/-- What the parser makes of the block, whatever follows it. -/
structure ParsedAs (out : Nat × Request) : Prop where
  index : out.1 = h.render.length
  methodName : out.2.methodName = h.method
  URL : out.2.URL = h.path
  query : out.2.query = h.query.getD []
  protocol : out.2.protocol = h.version
  getHeader : ∀ key, out.2.getHeader key = h.value key

variable {h} in
theorem parsedAs_render (hsmall : ∀ f ∈ h.fields, f.render.length < 2 ^ 31) (rest : Bytes) (maxBodySize : Nat) :
    h.ParsedAs (Request.parseHeaders (h.render ++ rest) { maxBodySize := maxBodySize }) := by
  obtain ⟨block, hblock⟩ : ∃ block, block = crlf.intercalate h.lines := ⟨_, rfl⟩
  have hend : (h.render ++ rest).findSub crlfcrlf = some block.length := by
    rw [hblock]
    exact Request.findSub_intercalate h.isLine_lines rest
  have htake : (h.render ++ rest).take block.length = block := by
    rw [render, ← hblock, List.append_assoc]
    exact List.take_left
  have hlines : Request.headerLines block = h.lines := by
    rw [hblock]
    exact Request.headerLines_intercalate h.isLine_lines
  have hfilter : h.lines.filter (· ≠ []) = h.requestLine :: h.fields.map HeaderField.render :=
    List.filter_eq_self.2 fun line hline => decide_eq_true (h.isLine_lines line hline).1
  rw [Request.parseHeaders, hend]
  simp only
  rw [htake]
  have hsame := Request.sameHead_parseBlock block { maxBodySize := maxBodySize }
  rw [hlines, Request.parseLines_eq, hfilter] at hsame
  simp only at hsame
  rw [h.parseRequestLine_render _ rfl, Request.foldl_parseHeaderLine] at hsame
  refine ⟨?_, hsame.methodName, hsame.URL, hsame.query, hsame.protocol, fun key => ?_⟩
  · rw [render, List.length_append, ← hblock]
    rfl
  · rw [Request.getHeader, hsame.headers, Request.find?_foldl_readField, lookup_fields hsmall]
    simp [value]

/-- No proper prefix of the block is parsed. -/
theorem parseHeaders_prefix {p : Bytes} (hp : p <+: h.render) (hne : p ≠ h.render) (q : Request) :
    Request.parseHeaders p q = (0, q) := by
  obtain ⟨t, ht⟩ := hp
  have hend : (p ++ t).findSub crlfcrlf = some (crlf.intercalate h.lines).length := by
    rw [ht, ← List.append_nil h.render]
    exact Request.findSub_intercalate h.isLine_lines []
  have hlen : p.length < (crlf.intercalate h.lines).length + crlfcrlf.length := by
    have hpos : t ≠ [] := fun hnil => hne (by rw [← ht, hnil, List.append_nil])
    have htotal := congrArg List.length ht
    rw [render, List.length_append, List.length_append] at htotal
    have := List.length_pos_iff.2 hpos
    omega
  rw [Request.parseHeaders, List.findSub_eq_none_of_append hend hlen]

variable {h} in
/-- The parser takes a block apart into what it was rendered from, and waits for all of it. A field must not be too long
for an `int`; `readHeaders` takes at most `MAX_HEADER_SIZE` bytes. -/
theorem parseHeaders_render (hsmall : ∀ f ∈ h.fields, f.render.length < 2 ^ 31) (rest : Bytes) (maxBodySize : Nat) :
    h.ParsedAs (Request.parseHeaders (h.render ++ rest) { maxBodySize := maxBodySize }) ∧
      ∀ p, p <+: h.render → p ≠ h.render →
        Request.parseHeaders p { maxBodySize := maxBodySize } = (0, { maxBodySize := maxBodySize }) :=
  ⟨parsedAs_render hsmall rest maxBodySize, fun _ hp hne => h.parseHeaders_prefix hp hne _⟩

/-- `hOST :\tb`. -/
def hostField : HeaderField where
  name := ascii "hOST"
  before := [32]
  after := [9]
  value := ascii "b"
  name_ne := by decide +kernel
  name_plain := by decide +kernel
  name_trimmed := by unfold Trimmed; decide +kernel
  value_plain := by decide +kernel
  value_trimmed := by unfold Trimmed; decide +kernel
  blanks := by decide +kernel

/-- `GET /a?q HTTP/1.1` with one field. -/
def hostBlock : HeaderBlock where
  method := .GET
  path := ascii "/a"
  query := some (ascii "q")
  version := ascii "HTTP/1.1"
  fields := [hostField]
  method_known := nofun
  path_slash := rfl
  path_plain := by decide +kernel
  query_plain := by decide +kernel
  version_known := .inr rfl

theorem parseHeaders_render_host :
    hostBlock.ParsedAs (Request.parseHeaders (hostBlock.render ++ ascii "body") { maxBodySize := 9 }) ∧
      ∀ p, p <+: hostBlock.render → p ≠ hostBlock.render →
        Request.parseHeaders p { maxBodySize := 9 } = (0, { maxBodySize := 9 }) := by
  have hsmall : ∀ f ∈ hostBlock.fields, f.render.length < 2 ^ 31 := by simp [hostBlock, hostField, HeaderField.render, ascii]
  exact parseHeaders_render hsmall (ascii "body") 9

end HeaderBlock

end LeftHookRoll
