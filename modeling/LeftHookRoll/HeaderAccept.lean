import LeftHookRoll.HeaderSyntax

/-!
# What the header parser accepts

`SoundlyRead` is what an accepted header block should be: a valid request line, and one of a chunked
body, a counted body and no body. `soundly_read_iff` says for which blocks this is so: the rest are
blocks without any line, lengths that `strtoll` reads but that are no plain numbers, and headers that
are there but not used.
-/

namespace LeftHookRoll

theorem eq_append_of_idxOf? {s : Bytes} {a : UInt8} {n : Nat} (h : s.idxOf? a = some n) :
    s = s.take n ++ a :: s.drop (n + 1) ∧ a ∉ s.take n := by
  obtain ⟨hlt, hget, hfirst⟩ := List.idxOf?_eq_some_iff.1 h
  constructor
  · conv_lhs => rw [← List.take_append_drop n s, List.drop_eq_getElem_cons hlt, hget]
  · intro hmem
    obtain ⟨j, hj, hjget⟩ := List.mem_take_iff_getElem.1 hmem
    exact hfirst j (by omega) hjget

namespace Request

/-! ### The request line -/

/-- A method, a target and, after HTTP/0.9, a version. -/
inductive ValidRequestLine : Bytes → Prop
  | simple {m : HTTPMethod} {target : Bytes} (hm : m ≠ .UNKNOWN_METHOD) (hslash : target.head? = some slash)
    (hspace : 32 ∉ target) : ValidRequestLine (AllowedMethods.methodToString m ++ 32 :: target)
  | full {m : HTTPMethod} {target version : Bytes} (hm : m ≠ .UNKNOWN_METHOD)
    (hslash : target.head? = some slash) (hspace : 32 ∉ target)
    (hversion : version = ascii "HTTP/1.0" ∨ version = ascii "HTTP/1.1") :
    ValidRequestLine (AllowedMethods.methodToString m ++ 32 :: (target ++ 32 :: version))

theorem methodToString_of_stringToMethod {s : Bytes} (h : AllowedMethods.stringToMethod s ≠ .UNKNOWN_METHOD) :
    AllowedMethods.methodToString (AllowedMethods.stringToMethod s) = s := by
  unfold AllowedMethods.stringToMethod at h ⊢
  split_ifs at h ⊢ with h1 h2 h3
  · exact h1.symm
  · exact h2.symm
  · exact h3.symm
  · exact absurd rfl h

theorem extractQueryFromURL_reqState (q : Request) : q.extractQueryFromURL.reqState = q.reqState := by
  unfold extractQueryFromURL
  split <;> rfl

theorem parseRequestLine_accepts_iff (line : Bytes) {q : Request} (hq : q.reqState ≠ .REQ_ERROR) :
    (parseRequestLine line q).reqState ≠ .REQ_ERROR ↔ ValidRequestLine line := by
  constructor
  · intro h
    unfold parseRequestLine at h
    split at h
    · exact absurd rfl h
    rename_i n hn
    obtain ⟨hline, -⟩ := eq_append_of_idxOf? hn
    simp only at h
    split at h
    · exact absurd rfl h
    rename_i hm
    rw [hline, ← methodToString_of_stringToMethod hm]
    split at h
    · rename_i hnone
      split at h
      · exact absurd rfl h
      · rename_i hslash
        exact .simple hm (not_not.1 hslash) (List.idxOf?_eq_none_iff.1 hnone)
    · rename_i k hk
      obtain ⟨htarget, hspace⟩ := eq_append_of_idxOf? hk
      split at h
      · exact absurd rfl h
      rename_i hversion
      split at h
      · exact absurd rfl h
      rename_i hslash
      rw [htarget]
      refine .full hm (not_not.1 hslash) hspace ?_
      rw [List.drop_drop, ← Nat.add_assoc]
      by_contra hno
      rw [not_or] at hno
      exact hversion hno
  · intro h
    have hspace (m : HTTPMethod) : 32 ∉ AllowedMethods.methodToString m := by cases m <;> decide
    have hback (m : HTTPMethod) : AllowedMethods.stringToMethod (AllowedMethods.methodToString m) = m := by
      cases m <;> rfl
    have hdrop (a b : Bytes) : (a ++ 32 :: b).drop (a.length + 1) = b := by
      rw [← List.drop_drop, List.drop_left]
      rfl
    cases h with
    | @simple m target hm hslash hsp =>
      rw [parseRequestLine, List.idxOf?_append_cons (hspace m)]
      simp only
      rw [List.take_left, hback, if_neg hm, hdrop, List.idxOf?_eq_none_iff.2 hsp]
      simp only
      rw [if_neg (not_not.2 hslash)]
      exact (nomatch ·)
    | @full m target version hm hslash hsp hversion =>
      rw [parseRequestLine, List.idxOf?_append_cons (hspace m)]
      simp only
      rw [List.take_left, hback, if_neg hm, hdrop, List.idxOf?_append_cons hsp]
      simp only
      rw [List.take_left, Nat.add_assoc _ target.length, ← List.drop_drop, hdrop, hdrop, if_neg fun hno => hversion.elim hno.1 hno.2,
        if_neg (not_not.2 hslash), extractQueryFromURL_reqState]
      exact hq

/-! ### The headers -/

/-- The lines of a header block that are not empty. -/
def blockLines (block : Bytes) : List Bytes := (headerLines block).filter (· ≠ [])

/-- The field of a header line: the name in lower case and the value, without the blanks around them. -/
def headerField (line : Bytes) : Option (Bytes × Bytes) :=
  match line.idxOf? 58 with
  | none => none
  | some colonPos =>
    let key := lowercase (strip (line.take colonPos))
    if key = [] then none else some (key, strip (line.drop (colonPos + 1)))

theorem fieldOf_eq {line : Bytes} (h : line.length < 2 ^ 31) : fieldOf line = headerField line := by
  rw [fieldOf, headerField]
  rcases line.idxOf? 58 with _ | colonPos
  · rfl
  · have hkey : (line.take colonPos).length < 2 ^ 31 := (List.length_take_le' _ _).trans_lt h
    have hvalue : (line.drop (colonPos + 1)).length < 2 ^ 31 := lt_of_le_of_lt (by simp) h
    simp only [trim_eq hkey, trim_eq hvalue]

/-- The value of a header, the last one of its name; `key` is in lower case. -/
def blockHeader (block key : Bytes) : Option Bytes :=
  ((blockLines block).tail.filterMap headerField).reverse.lookup key

/-- The header block of a buffer, when its end is there. -/
def headerBlock (raw : Bytes) : Option Bytes := (raw.findSub crlfcrlf).map raw.take

/-- A transfer coding of this name is among those listed. -/
def NamesChunked (v : Bytes) : Prop := ∃ coding ∈ v.splitOn 44, lowercase (strip coding) = ascii "chunked"

def ReadAsChunked (block : Bytes) (q : Request) : Prop :=
  (∃ v ∈ blockHeader block (ascii "transfer-encoding"), NamesChunked v) ∧ q.reqState = .REQ_CHUNKED ∧
    q.contentLength = -1

def ReadAsLength (block : Bytes) (maxBodySize : Nat) (q : Request) : Prop :=
  ∃ v ∈ blockHeader block (ascii "content-length"), v ≠ [] ∧ (∀ c ∈ v, isdigit c) ∧
    q.contentLength = decimalValue v ∧ (0 < maxBodySize → decimalValue v ≤ maxBodySize) ∧
    q.reqState = if decimalValue v = 0 then .REQ_DONE else .REQ_BODY

def ReadAsEmpty (block : Bytes) (q : Request) : Prop :=
  blockHeader block (ascii "transfer-encoding") = none ∧ blockHeader block (ascii "content-length") = none ∧
    q.reqState = .REQ_DONE ∧ q.contentLength = 0

def ExactlyOne (a b c : Prop) : Prop := (a ∧ ¬ b ∧ ¬ c) ∨ (¬ a ∧ b ∧ ¬ c) ∨ (¬ a ∧ ¬ b ∧ c)

theorem exactlyOne_left {a b c : Prop} (hb : ¬ b) (hc : ¬ c) : ExactlyOne a b c ↔ a := by
  unfold ExactlyOne
  tauto

theorem exactlyOne_mid {a b c : Prop} (ha : ¬ a) (hc : ¬ c) : ExactlyOne a b c ↔ b := by
  unfold ExactlyOne
  tauto

theorem exactlyOne_right {a b c : Prop} (ha : ¬ a) (hb : ¬ b) : ExactlyOne a b c ↔ c := by
  unfold ExactlyOne
  tauto

/-- If the headers are complete and accepted, they are what they have to be. -/
def SoundlyRead (raw : Bytes) (maxBodySize : Nat) (out : Nat × Request) : Prop :=
  ∀ block ∈ headerBlock raw, out.1 = block.length + 4 ∧ (out.2.reqState ≠ .REQ_ERROR →
    (∃ line ∈ (blockLines block).head?, ValidRequestLine line) ∧
      ExactlyOne (ReadAsChunked block out.2) (ReadAsLength block maxBodySize out.2) (ReadAsEmpty block out.2))

/-- What `typeOfReq` goes by. -/
def mentionsChunked (v : Bytes) : Bool := ((lowercase v).findSub (ascii "chunked")).isSome

/-- `strtoll` reads `v` to its end, as a length within the limit. -/
def ReadByStrtoll (maxBodySize : Nat) (v : Bytes) : Prop :=
  (strtoll10 v).2 = [] ∧ 0 ≤ (strtoll10 v).1 ∧ ¬ (maxBodySize > 0 ∧ (strtoll10 v).1.toNat > maxBodySize)

/-- The lengths that are read exactly. -/
def PlainNumber (v : Bytes) : Prop := (∀ c ∈ v, isdigit c) ∧ decimalValue v < 2 ^ 63

/-- A value that is missing counts as an empty one. -/
def headerText (block key : Bytes) : Bytes := (blockHeader block key).getD []

/-- A block that is rejected or read exactly. -/
def PlainBlock (block : Bytes) (maxBodySize : Nat) : Prop :=
  ∃ line ∈ (blockLines block).head?, ValidRequestLine line →
    if mentionsChunked (headerText block (ascii "transfer-encoding")) then
      NamesChunked (headerText block (ascii "transfer-encoding"))
    else if headerText block (ascii "content-length") ≠ [] then
      ReadByStrtoll maxBodySize (headerText block (ascii "content-length")) →
        PlainNumber (headerText block (ascii "content-length"))
    else blockHeader block (ascii "transfer-encoding") = none ∧ blockHeader block (ascii "content-length") = none

theorem parseRequestLine_headers (line : Bytes) (q : Request) :
    (parseRequestLine line q).headers = q.headers ∧ (parseRequestLine line q).maxBodySize = q.maxBodySize := by
  have hextract (q : Request) :
      q.extractQueryFromURL.headers = q.headers ∧ q.extractQueryFromURL.maxBodySize = q.maxBodySize := by
    unfold extractQueryFromURL
    split <;> exact ⟨rfl, rfl⟩
  unfold parseRequestLine
  split
  · exact ⟨rfl, rfl⟩
  simp only
  split
  · exact ⟨rfl, rfl⟩
  split
  · split
    · exact ⟨rfl, rfl⟩
    · exact hextract _
  · split
    · exact ⟨rfl, rfl⟩
    split
    · exact ⟨rfl, rfl⟩
    · exact hextract _

theorem parseLines_maxBodySize (lines : List Bytes) (q : Request) :
    (parseLines lines true q).maxBodySize = q.maxBodySize := by
  rw [parseLines_eq]
  split
  · rfl
  · rw [foldl_parseHeaderLine]
    exact (parseRequestLine_headers _ q).2

theorem length_headerLines {block line : Bytes} (h : line ∈ headerLines block) : line.length ≤ block.length := by
  induction block using headerLines.induct generalizing line with
  | case1 => cases h
  | case2 s ih =>
    rw [headerLines] at h
    rcases List.mem_cons.1 h with rfl | h
    · exact Nat.zero_le _
    · exact (ih h).trans ((Nat.le_succ _).trans (Nat.le_succ _))
  | case3 c s hnot hnil ih =>
    rw [headerLines.eq_3 c s hnot, hnil] at h
    obtain rfl := List.mem_singleton.1 h
    exact Nat.succ_le_succ (Nat.zero_le _)
  | case4 c s hnot first rest hcons ih =>
    rw [headerLines.eq_3 c s hnot, hcons] at h
    rcases List.mem_cons.1 h with rfl | h
    · exact Nat.succ_le_succ (ih (hcons ▸ List.mem_cons_self))
    · exact (ih (hcons ▸ List.mem_cons_of_mem first h)).trans (Nat.le_succ _)

/-- The lines of a block that is not too long are read as they should be. -/
theorem filterMap_fieldOf {block : Bytes} (hsmall : block.length < 2 ^ 31) {lines : List Bytes}
    (h : ∀ line ∈ lines, line ∈ headerLines block) : lines.filterMap fieldOf = lines.filterMap headerField :=
  List.filterMap_congr fun line hline => fieldOf_eq ((length_headerLines (h line hline)).trans_lt hsmall)

/-- The request when all lines are read. -/
structure LinesRead (block : Bytes) (q p : Request) : Prop where
  maxBodySize : p.maxBodySize = q.maxBodySize
  getHeader : ∀ key, p.getHeader key = headerText block (lowercase key)
  accepted : p.reqState ≠ .REQ_ERROR ↔ ∀ line ∈ (blockLines block).head?, ValidRequestLine line

theorem linesRead {block : Bytes} (hsmall : block.length < 2 ^ 31) {q : Request} (hheaders : q.headers = ∅) (hq : q.reqState ≠ .REQ_ERROR) :
    LinesRead block q (parseLines (headerLines block) true { q with cookies := ∅ }) := by
  have hq' : { q with cookies := ∅ }.reqState ≠ .REQ_ERROR := hq
  have hsize := parseLines_maxBodySize (headerLines block) { q with cookies := ∅ }
  rw [parseLines_eq] at hsize ⊢
  rcases hlines : (headerLines block).filter (· ≠ []) with _ | ⟨line, rest⟩
  · refine ⟨rfl, fun key => ?_, iff_of_true hq' ?_⟩
    · rw [headerText, blockHeader, blockLines, hlines, getHeader, hheaders]
      rfl
    · rw [blockLines, hlines]
      exact fun _ h => by cases h
  · have hsame := (parseRequestLine_headers line { q with cookies := ∅ }).1
    rw [hlines] at hsize
    simp only at hsize ⊢
    rw [foldl_parseHeaderLine] at hsize ⊢
    have hrest : rest.filterMap fieldOf = rest.filterMap headerField := by
      refine filterMap_fieldOf hsmall fun l hl => ?_
      exact (List.mem_filter.1 (hlines ▸ List.mem_cons_of_mem line hl)).1
    refine ⟨hsize, fun key => ?_, ?_⟩
    · rw [headerText, blockHeader, blockLines, hlines, getHeader, hsame, hheaders, find?_foldl_readField, hrest]
      simp
    · rw [blockLines, hlines]
      refine (parseRequestLine_accepts_iff line hq').trans ⟨fun h l hl => ?_, fun h => h line rfl⟩
      obtain rfl := Option.some.inj hl
      exact h

/-- How the length of the body is read when the lines are accepted. -/
inductive LengthRule (p : Request) (reqState : ReqState) (contentLength : Int) : Prop
  | chunked (h : mentionsChunked (p.getHeader (ascii "Transfer-Encoding"))) (state : reqState = .REQ_CHUNKED)
    (length : contentLength = -1)
  | rejected (h : ¬ mentionsChunked (p.getHeader (ascii "Transfer-Encoding")))
    (hne : p.getHeader (ascii "Content-Length") ≠ [])
    (hbad : ¬ ReadByStrtoll p.maxBodySize (p.getHeader (ascii "Content-Length"))) (state : reqState = .REQ_ERROR)
  | counted (h : ¬ mentionsChunked (p.getHeader (ascii "Transfer-Encoding")))
    (hne : p.getHeader (ascii "Content-Length") ≠ [])
    (hread : ReadByStrtoll p.maxBodySize (p.getHeader (ascii "Content-Length")))
    (length : contentLength = (strtoll10 (p.getHeader (ascii "Content-Length"))).1)
    (state : reqState =
      if (strtoll10 (p.getHeader (ascii "Content-Length"))).1 = 0 then .REQ_DONE else .REQ_BODY)
  | empty (h : ¬ mentionsChunked (p.getHeader (ascii "Transfer-Encoding")))
    (hnil : p.getHeader (ascii "Content-Length") = []) (state : reqState = .REQ_DONE)
    (length : contentLength = 0)

theorem lengthRule_typeOfReq (p : Request) : LengthRule p p.typeOfReq.reqState p.typeOfReq.contentLength := by
  unfold typeOfReq
  simp only
  split
  · rename_i hte
    exact .chunked hte rfl rfl
  rename_i hte
  split
  · rename_i hcl
    split
    · rename_i hbad
      refine .rejected hte hcl (fun h => ?_) rfl
      rcases hbad with hrest | hneg
      · exact hrest h.1
      · exact absurd h.2.1 (not_le.2 hneg)
    rename_i hbad
    rw [not_or, not_not, not_lt] at hbad
    split
    · rename_i hbig
      exact .rejected hte hcl (fun h => h.2.2 hbig) rfl
    · rename_i hbig
      exact .counted hte hcl ⟨hbad.1, hbad.2, hbig⟩ rfl rfl
  · rename_i hcl
    exact .empty hte (not_not.1 hcl) rfl rfl

theorem parseBlock_length (block : Bytes) (q : Request) {p : Request}
    (hp : p = parseLines (headerLines block) true { q with cookies := ∅ }) :
    (parseBlock block q).reqState = (if p.reqState ≠ .REQ_ERROR then p.typeOfReq else p).reqState ∧
      (parseBlock block q).contentLength = (if p.reqState ≠ .REQ_ERROR then p.typeOfReq else p).contentLength := by
  unfold parseBlock
  rw [← hp]
  simp only
  split <;> exact ⟨rfl, rfl⟩

/-- A digit string that is read at all is a plain number. -/
theorem plainNumber_of_exact {v : Bytes} (hne : v ≠ []) (h : ∀ c ∈ v, isdigit c)
    (hexact : (strtoll10 v).1 = decimalValue v) : PlainNumber v := by
  refine ⟨h, ?_⟩
  rw [strtoll10_digits hne h] at hexact
  have hle : (decimalValue v : Int) ≤ 2 ^ 63 - 1 := min_eq_right_iff.1 hexact
  omega

theorem strtoll10_plain {v : Bytes} (hne : v ≠ []) (h : PlainNumber v) : (strtoll10 v).1 = decimalValue v := by
  rw [strtoll10_digits hne h.1]
  have := h.2
  refine min_eq_right ?_
  omega

theorem blockHeader_of_headerText {block key : Bytes} (h : headerText block key ≠ []) :
    blockHeader block key = some (headerText block key) := by
  rw [headerText] at h ⊢
  rcases hb : blockHeader block key with _ | v
  · rw [hb] at h
    exact absurd rfl h
  · rfl

theorem headerText_of_blockHeader {block key v : Bytes} (h : v ∈ blockHeader block key) :
    headerText block key = v := by
  rw [headerText, h]
  rfl

/-- One rule for the length: it is one of the three ways exactly when the header it goes by is plain. -/
theorem exactlyOne_iff {block : Bytes} {maxBodySize : Nat} {p q : Request}
    (hp : ∀ key, p.getHeader key = headerText block (lowercase key)) (hsize : p.maxBodySize = maxBodySize)
    (hrule : LengthRule p q.reqState q.contentLength) (hstate : q.reqState ≠ .REQ_ERROR) :
    ExactlyOne (ReadAsChunked block q) (ReadAsLength block maxBodySize q) (ReadAsEmpty block q) ↔
      if mentionsChunked (headerText block (ascii "transfer-encoding")) then
        NamesChunked (headerText block (ascii "transfer-encoding"))
      else if headerText block (ascii "content-length") ≠ [] then
        ReadByStrtoll maxBodySize (headerText block (ascii "content-length")) →
          PlainNumber (headerText block (ascii "content-length"))
      else blockHeader block (ascii "transfer-encoding") = none ∧
        blockHeader block (ascii "content-length") = none := by
  have hte : p.getHeader (ascii "Transfer-Encoding") = headerText block (ascii "transfer-encoding") := hp _
  have hcl : p.getHeader (ascii "Content-Length") = headerText block (ascii "content-length") := hp _
  have hnotLength (hlen : q.reqState ≠ .REQ_DONE ∧ q.reqState ≠ .REQ_BODY) :
      ¬ ReadAsLength block maxBodySize q := by
    rintro ⟨v, -, -, -, -, -, hst⟩
    split_ifs at hst
    · exact hlen.1 hst
    · exact hlen.2 hst
  cases hrule with
  | chunked h state length =>
    rw [hte] at h
    have hne : headerText block (ascii "transfer-encoding") ≠ [] := by
      intro hnil
      rw [hnil] at h
      exact absurd h (by decide)
    have hnotEmpty : ¬ ReadAsEmpty block q := by
      rintro ⟨-, -, hst, -⟩
      rw [state] at hst
      cases hst
    rw [if_pos h, exactlyOne_left (hnotLength (by rw [state]; exact ⟨(nomatch ·), (nomatch ·)⟩)) hnotEmpty]
    constructor
    · rintro ⟨⟨v, hv, hnames⟩, -⟩
      rwa [headerText_of_blockHeader hv]
    · intro hnames
      exact ⟨⟨_, blockHeader_of_headerText hne, hnames⟩, state, length⟩
  | rejected _ _ _ state => exact absurd state hstate
  | counted h hne hread length state =>
    rw [hte] at h
    rw [hcl] at hne hread length state
    rw [if_neg h, if_pos hne, exactlyOne_mid (fun hchunked => ?_) fun hempty => ?_]
    · constructor
      · rintro ⟨v, hv, -, hdigits, hlen, -, -⟩ -
        rw [headerText_of_blockHeader hv] at hne length ⊢
        exact plainNumber_of_exact hne hdigits (length.symm.trans hlen)
      · intro hplain
        have hplain := hplain (hsize ▸ hread)
        have hvalue := strtoll10_plain hne hplain
        obtain ⟨-, -, hbound⟩ := hread
        rw [hvalue] at length state hbound
        refine ⟨_, blockHeader_of_headerText hne, hne, hplain.1, length, fun hpos => ?_, ?_⟩
        · rw [hsize, Int.toNat_natCast] at hbound
          exact not_lt.1 fun hlt => hbound ⟨hpos, hlt⟩
        · simpa using state
    · rw [hchunked.2.1] at state
      split_ifs at state
    · exact nomatch ((blockHeader_of_headerText hne).symm.trans hempty.2.1)
  | empty h hnil state length =>
    rw [hte] at h
    rw [hcl] at hnil
    have hnotChunked : ¬ ReadAsChunked block q := by
      rintro ⟨-, hst, -⟩
      rw [state] at hst
      cases hst
    rw [if_neg h, if_neg (not_not.2 hnil), exactlyOne_right hnotChunked
      fun ⟨v, hv, hne, _⟩ => hne ((headerText_of_blockHeader hv).symm.trans hnil)]
    exact ⟨fun hempty => ⟨hempty.1, hempty.2.1⟩, fun hnone => ⟨hnone.1, hnone.2, state, length⟩⟩

/-- A block that is rejected, or accepted as what it is. -/
theorem parseBlock_sound_iff {block : Bytes} (hsmall : block.length < 2 ^ 31) {q₀ : Request} (hheaders : q₀.headers = ∅)
    (hq₀ : q₀.reqState ≠ .REQ_ERROR) :
    ((parseBlock block q₀).reqState ≠ .REQ_ERROR → (∃ line ∈ (blockLines block).head?, ValidRequestLine line) ∧
      ExactlyOne (ReadAsChunked block (parseBlock block q₀)) (ReadAsLength block q₀.maxBodySize (parseBlock block q₀))
        (ReadAsEmpty block (parseBlock block q₀))) ↔ PlainBlock block q₀.maxBodySize := by
  obtain ⟨p, hp⟩ : ∃ p, p = parseLines (headerLines block) true { q₀ with cookies := ∅ } := ⟨_, rfl⟩
  have hlines : LinesRead block q₀ p := hp ▸ linesRead hsmall hheaders hq₀
  obtain ⟨hstate, hlength⟩ := parseBlock_length block q₀ hp
  by_cases hvalid : p.reqState = .REQ_ERROR
  · -- the request line is rejected, so there is one
    rw [if_neg (not_not.2 hvalid), hvalid] at hstate
    have hno := mt hlines.accepted.2 (not_not.2 hvalid)
    push Not at hno
    obtain ⟨line, hline, hinvalid⟩ := hno
    exact iff_of_true (fun h => absurd hstate h) ⟨line, hline, fun h => absurd h hinvalid⟩
  have hrule := lengthRule_typeOfReq p
  rw [if_pos hvalid] at hstate hlength
  rw [← hstate, ← hlength] at hrule
  rcases hhead : (blockLines block).head? with _ | line
  · have hnil : blockLines block = [] := List.head?_eq_none_iff.1 hhead
    have hnone (key : Bytes) : headerText block key = [] := by
      rw [headerText, blockHeader, hnil]
      rfl
    refine iff_of_false (fun h => ?_) fun ⟨_, h, _⟩ => by rw [hhead] at h; cases h
    have haccepted : (parseBlock block q₀).reqState ≠ .REQ_ERROR := by
      cases hrule with
      | chunked h state => rw [state]; exact (nomatch ·)
      | rejected _ hne => exact absurd ((hlines.getHeader _).trans (hnone _)) hne
      | counted _ hne => exact absurd ((hlines.getHeader _).trans (hnone _)) hne
      | empty _ _ state => rw [state]; exact (nomatch ·)
    obtain ⟨⟨line, hline, -⟩, -⟩ := h haccepted
    cases hline
  have hline : ValidRequestLine line := hlines.accepted.1 hvalid line hhead
  have hplain : PlainBlock block q₀.maxBodySize ↔ _ :=
    ⟨fun ⟨l, hl, h⟩ => h (Option.some.inj (hhead.symm.trans hl) ▸ hline), fun h => ⟨line, hhead, fun _ => h⟩⟩
  rw [hplain]
  by_cases herror : (parseBlock block q₀).reqState = .REQ_ERROR
  · refine iff_of_true (fun h => absurd herror h) ?_
    cases hrule with
    | chunked _ state => exact nomatch (herror.symm.trans state)
    | counted _ _ _ _ state =>
      rw [herror] at state
      split_ifs at state
    | empty _ _ state => exact nomatch (herror.symm.trans state)
    | rejected h hne hbad =>
      rw [hlines.getHeader] at h
      rw [hlines.getHeader] at hne hbad
      rw [hlines.maxBodySize] at hbad
      exact (if_neg h).symm ▸ (if_pos hne).symm ▸ fun hread => absurd hread hbad
  · rw [← exactlyOne_iff hlines.getHeader hlines.maxBodySize hrule herror]
    exact ⟨fun h => (h herror).2, fun h _ => ⟨⟨line, rfl, hline⟩, h⟩⟩

/-- An accepted block is read soundly when it is plain, and only then. The block must not be too long for an `int`;
`readHeaders` takes at most `MAX_HEADER_SIZE` bytes. -/
theorem soundly_read_iff {raw : Bytes} (hsmall : ∀ block ∈ headerBlock raw, block.length < 2 ^ 31) (maxBodySize : Nat) :
    SoundlyRead raw maxBodySize (parseHeaders raw { maxBodySize := maxBodySize }) ↔
      ∀ block ∈ headerBlock raw, PlainBlock block maxBodySize := by
  unfold headerBlock at hsmall
  unfold SoundlyRead headerBlock parseHeaders
  rcases hend : raw.findSub crlfcrlf with _ | headerEnd
  · exact iff_of_true (fun _ h => by cases h) fun _ h => by cases h
  have hlen : (raw.take headerEnd).length = headerEnd := by
    rw [List.length_take]
    exact min_eq_left (by have := List.findSub_add_le hend; omega)
  simp only [Option.map_some, Option.mem_some_iff, forall_eq', hlen, true_and]
  have hblock : (raw.take headerEnd).length < 2 ^ 31 := hsmall _ (by rw [hend]; rfl)
  exact parseBlock_sound_iff hblock rfl (by rintro ⟨⟩)

/-- A counted body of five bytes. -/
def countedRequest : Bytes := ascii "GET / HTTP/1.1" ++ crlf ++ ascii "Content-Length: 5" ++ crlfcrlf

theorem soundly_read_iff_counted :
    SoundlyRead countedRequest 9 (parseHeaders countedRequest { maxBodySize := 9 }) := by
  have hblock : headerBlock countedRequest = some (ascii "GET / HTTP/1.1" ++ crlf ++ ascii "Content-Length: 5") := by
    decide +kernel
  have hsmall : ∀ block ∈ headerBlock countedRequest, block.length < 2 ^ 31 := by
    rw [hblock]
    rintro _ ⟨⟩
    decide +kernel
  refine (soundly_read_iff hsmall 9).2 ?_
  rw [hblock]
  rintro _ ⟨⟩
  refine ⟨ascii "GET / HTTP/1.1", by decide +kernel, fun _ => ?_⟩
  have hchunked : headerText (ascii "GET / HTTP/1.1" ++ crlf ++ ascii "Content-Length: 5") (ascii "transfer-encoding") = [] := by
    decide +kernel
  have hlength : headerText (ascii "GET / HTTP/1.1" ++ crlf ++ ascii "Content-Length: 5") (ascii "content-length") = [53] := by
    decide +kernel
  rw [hchunked, hlength, if_neg (by decide), if_pos (by decide)]
  exact fun _ => ⟨by simp [isdigit], by decide⟩

/-- A header block with no line in it is accepted. -/
theorem not_soundly_read_without_lines :
    ¬ SoundlyRead crlfcrlf 0 (parseHeaders crlfcrlf { maxBodySize := 0 }) := by
  intro h
  obtain ⟨-, h⟩ := h [] (by decide)
  obtain ⟨⟨line, hline, -⟩, -⟩ := h (by decide)
  cases hline

end Request

end LeftHookRoll
