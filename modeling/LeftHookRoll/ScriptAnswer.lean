import LeftHookRoll.HeaderSyntax
import LeftHookRoll.ResponseHeaders
import LeftHookRoll.ScriptFrame

/-!
# The answer of a script

A script writes header lines, an empty line and a body, with either line end (`ScriptLine`, `output`).
`finalizes_iff` says when `finalizeCgiResponse` takes them apart as they were put together: the search for
the empty line looks for CRLF CRLF in all of the output first, so lines that end in LF must not be
followed by a body that contains it.
-/

namespace LeftHookRoll

open Eff

/-- The value of a `Status` line: three digits, alone or before a space and a phrase. -/
def StatusValue (value : Bytes) : Prop :=
  ∃ code, code.length = 3 ∧ code.all isdigit ∧ (value = code ∨ ∃ phrase, value = code ++ 32 :: phrase)

/-- What stands behind the colon of a header line; leading blanks do not count if there is more. -/
def headerValue (rest : Bytes) : Bytes := if rest.dropWhile Response.isBlank = [] then rest else rest.dropWhile Response.isBlank

/-- A header line of a script, without its end. -/
structure ScriptLine where
  name : Bytes
  rest : Bytes
  name_clean : 58 ∉ name ∧ CR ∉ name ∧ LF ∉ name
  rest_clean : CR ∉ rest ∧ LF ∉ rest
  status : lowercase name = ascii "status" → StatusValue (headerValue rest)

namespace ScriptLine

def text (l : ScriptLine) : Bytes := l.name ++ 58 :: l.rest

def key (l : ScriptLine) : Bytes := lowercase l.name

def value (l : ScriptLine) : Bytes := headerValue l.rest

/-- The values of a header, in order. -/
def values (key : Bytes) (lines : List ScriptLine) : List Bytes := (lines.filter fun l => l.key = key).map value

theorem values_concat (key : Bytes) (lines : List ScriptLine) (l : ScriptLine) :
    values key (lines ++ [l]) = if l.key = key then values key lines ++ [l.value] else values key lines := by
  unfold values
  rw [List.filter_append, List.map_append]
  by_cases h : l.key = key
  · simp [h]
  · simp [h]

theorem text_clean (l : ScriptLine) : l.text ≠ [] ∧ CR ∉ l.text ∧ LF ∉ l.text := by
  refine ⟨by simp [text], ?_, ?_⟩
  · simp only [text, List.mem_append, List.mem_cons, not_or]
    exact ⟨l.name_clean.2.1, by decide, l.rest_clean.1⟩
  · simp only [text, List.mem_append, List.mem_cons, not_or]
    exact ⟨l.name_clean.2.2, by decide, l.rest_clean.2⟩

end ScriptLine

inductive LineEnd
  | lf
  | crlf
deriving DecidableEq

def LineEnd.bytes : LineEnd → Bytes
  | lf => [LF]
  | crlf => [CR, LF]

/-- What the script writes. -/
def scriptOutput (eol : LineEnd) (lines : List ScriptLine) (body : Bytes) : Bytes :=
  lines.flatMap (fun l => l.text ++ eol.bytes) ++ eol.bytes ++ body

namespace Response

/-! ### The output is cut -/

theorem flatMap_eol (eol : Bytes) (line : Bytes) (lines : List Bytes) :
    (line :: lines).flatMap (· ++ eol) = eol.intercalate (line :: lines) ++ eol := by
  induction lines generalizing line with
  | nil => simp
  | cons next lines ih =>
    rw [List.flatMap_cons, ih, List.intercalate_cons_cons]
    simp only [List.append_assoc]

theorem scriptOutput_eq (eol : LineEnd) (l : ScriptLine) (lines : List ScriptLine) (body : Bytes) :
    scriptOutput eol (l :: lines) body =
      eol.bytes.intercalate ((l :: lines).map ScriptLine.text) ++ (eol.bytes ++ eol.bytes) ++ body := by
  have hlines : (l :: lines).flatMap (fun l => l.text ++ eol.bytes) =
      ((l :: lines).map ScriptLine.text).flatMap (· ++ eol.bytes) := by
    rw [List.flatMap_map]
  rw [scriptOutput, hlines, List.map_cons, flatMap_eol]
  simp only [List.append_assoc]

/-- The end of the lines, in their own style. -/
theorem findSub_scriptOutput (eol : LineEnd) (l : ScriptLine) (lines : List ScriptLine) (body : Bytes) :
    (scriptOutput eol (l :: lines) body).findSub (eol.bytes ++ eol.bytes) =
      some (eol.bytes.intercalate ((l :: lines).map ScriptLine.text)).length := by
  rw [scriptOutput_eq]
  cases eol with
  | lf =>
    refine List.findSub_intercalate (a := LF) (s := []) List.not_mem_nil (fun t ht => ?_) body
    rw [← List.map_cons] at ht
    obtain ⟨l', -, rfl⟩ := List.mem_map.1 ht
    exact ⟨l'.text_clean.1, l'.text_clean.2.2⟩
  | crlf =>
    refine List.findSub_intercalate (a := CR) (s := [LF]) (by decide) (fun t ht => ?_) body
    rw [← List.map_cons] at ht
    obtain ⟨l', -, rfl⟩ := List.mem_map.1 ht
    exact ⟨l'.text_clean.1, l'.text_clean.2.1⟩

/-- No CR before the body when the lines end in LF. -/
theorem not_mem_head_lf (lines : List ScriptLine) : CR ∉ lines.flatMap (fun l => l.text ++ LineEnd.lf.bytes) ++ LineEnd.lf.bytes := by
  intro h
  rcases List.mem_append.1 h with h | h
  · obtain ⟨l, -, h⟩ := List.mem_flatMap.1 h
    rcases List.mem_append.1 h with h | h
    · exact l.text_clean.2.1 h
    · exact absurd h (by decide)
  · exact absurd h (by decide)

theorem intercalate_ne_nil (eol : LineEnd) (l : ScriptLine) (lines : List ScriptLine) :
    eol.bytes.intercalate ((l :: lines).map ScriptLine.text) ≠ [] := by
  rw [List.map_cons]
  rcases lines.map ScriptLine.text with _ | ⟨next, rest⟩
  · rw [List.intercalate_singleton]
    exact l.text_clean.1
  · rw [List.intercalate_cons_cons, List.append_assoc]
    exact fun hnil => l.text_clean.1 (List.append_eq_nil_iff.1 hnil).1

theorem findSub_crlf_of_lf (lines : List ScriptLine) (body : Bytes) :
    (scriptOutput .lf lines body).findSub crlfcrlf =
      (body.findSub crlfcrlf).map ((lines.flatMap (fun l => l.text ++ LineEnd.lf.bytes) ++ LineEnd.lf.bytes).length + ·) := by
  rw [scriptOutput]
  refine List.findSub_append_of_not_head (by decide) fun b hb hhead => not_mem_head_lf lines ?_
  cases hhead
  exact hb

theorem splitCgiOutput_scriptOutput {eol : LineEnd} {l : ScriptLine} {lines : List ScriptLine} {body : Bytes}
    (h : eol = .crlf ∨ ¬ crlfcrlf <:+: body) : splitCgiOutput (scriptOutput eol (l :: lines) body) =
      (eol.bytes.intercalate ((l :: lines).map ScriptLine.text), body) := by
  have hfind := findSub_scriptOutput eol l lines body
  have hout := scriptOutput_eq eol l lines body
  unfold splitCgiOutput
  cases eol with
  | crlf =>
    have hfind' : (scriptOutput .crlf (l :: lines) body).findSub crlfcrlf =
      some (LineEnd.crlf.bytes.intercalate ((l :: lines).map ScriptLine.text)).length := hfind
    rw [hfind', hout]
    simp only [List.append_assoc, List.take_left, Prod.mk.injEq, true_and]
    rw [← List.drop_drop, List.drop_left]
    rfl
  | lf =>
    have hno : (scriptOutput .lf (l :: lines) body).findSub crlfcrlf = none := by
      rw [findSub_crlf_of_lf, List.findSub_eq_none_iff.2 (h.resolve_left nofun)]
      rfl
    have hfind' : (scriptOutput .lf (l :: lines) body).findSub [LF, LF] =
      some (LineEnd.lf.bytes.intercalate ((l :: lines).map ScriptLine.text)).length := hfind
    rw [hno, hfind', hout]
    simp only [List.append_assoc, List.take_left, Prod.mk.injEq, true_and]
    rw [← List.drop_drop, List.drop_left]
    rfl

/-! ### The lines are read -/

theorem cgiStatus_value {value : Bytes} (h : StatusValue value) (r : Response) :
    (cgiStatus value r).statusCode = value.take 3 ∧ (value.take 3).length = 3 ∧ (value.take 3).all isdigit := by
  obtain ⟨code, hlength, hdigits, rfl | ⟨phrase, rfl⟩⟩ := h
  · have hspace : value.idxOf? 32 = none := by
      rw [List.idxOf?_eq_none_iff]
      intro hmem
      exact absurd (List.all_eq_true.1 hdigits 32 hmem) (by decide)
    rw [cgiStatus, hspace, List.take_of_length_le hlength.le]
    exact ⟨rfl, hlength, hdigits⟩
  · have hnot : 32 ∉ code := fun hmem => absurd (List.all_eq_true.1 hdigits 32 hmem) (by decide)
    have htake : (code ++ 32 :: phrase).take 3 = code := by rw [← hlength, List.take_left]
    rw [cgiStatus, List.idxOf?_append_cons hnot, htake]
    exact ⟨List.take_left, hlength, hdigits⟩

end Response

open Response

/-- What a line does to the content type and the response. -/
def ScriptLine.apply (s : Bytes × Response) (l : ScriptLine) : Bytes × Response :=
  if l.key = ascii "content-type" then (l.value, s.2)
  else if l.key = ascii "status" then (s.1, cgiStatus l.value s.2)
  else if l.key = ascii "location" then (s.1, addHeader (ascii "Location") l.value s.2)
  else if l.key = ascii "set-cookie" then (s.1, addHeader (ascii "Set-Cookie") l.value s.2)
  else s

/-- A line as it stands between two LF. -/
def ScriptLine.Reads (l : ScriptLine) (line : Bytes) : Prop := line = l.text ∨ line = l.text ++ [CR]

namespace Response

theorem parseCgiHeaderLine_reads {l : ScriptLine} {line : Bytes} (h : l.Reads line) (s : Bytes × Response) :
    parseCgiHeaderLine line s.1 s.2 = (true, l.apply s) := by
  obtain ⟨hne, hcr, -⟩ := l.text_clean
  have hline : (if line.getLast? = some CR then line.dropLast else line) = l.text := by
    rcases h with rfl | rfl
    · rw [if_neg fun hlast => hcr (List.mem_of_getLast? hlast)]
    · rw [if_pos (by simp), List.dropLast_concat]
  have hcolon : l.text.idxOf? 58 = some l.name.length := List.idxOf?_append_cons l.name_clean.1 l.rest
  have hname : l.text.take l.name.length = l.name := List.take_left
  have hrest : l.text.drop (l.name.length + 1) = l.rest := by
    rw [ScriptLine.text, ← List.drop_drop, List.drop_left]
    rfl
  have hvalue : (if l.rest.dropWhile isBlank = [] then l.rest else l.rest.dropWhile isBlank) = l.value := rfl
  have hkey : lowercase l.name = l.key := rfl
  unfold parseCgiHeaderLine
  simp only [hline, if_neg hne, hcolon, hname, hrest, hvalue, hkey, ScriptLine.apply]
  split_ifs with hct hstatus hloc hcookie
  · rfl
  · obtain ⟨hcode, hlength, hdigits⟩ := cgiStatus_value (l.status hstatus) s.2
    have hcode : (cgiStatus l.value s.2).statusCode = l.value.take 3 := hcode
    have hlength : (l.value.take 3).length = 3 := hlength
    have hdigits : (l.value.take 3).all isdigit := hdigits
    rw [hcode, hlength, hdigits]
    rfl
  · rfl
  · rfl
  · rfl

theorem parseCgiHeaderLines_reads {lines : List ScriptLine} {block : List Bytes} (h : List.Forall₂ ScriptLine.Reads lines block)
    (s : Bytes × Response) : parseCgiHeaderLines block s.1 s.2 =
      (some (lines.foldl ScriptLine.apply s).1, (lines.foldl ScriptLine.apply s).2) := by
  induction h generalizing s with
  | nil => rfl
  | cons hline _ ih =>
    rw [parseCgiHeaderLines, parseCgiHeaderLine_reads hline, List.foldl_cons]
    exact ih _

theorem not_mem_of_reads {lines : List ScriptLine} {block : List Bytes} (h : List.Forall₂ ScriptLine.Reads lines block) :
    ∀ line ∈ block, LF ∉ line := by
  induction h with
  | nil => exact fun line hline => absurd hline List.not_mem_nil
  | @cons l line _ _ hreads _ ih =>
    intro t ht
    rcases List.mem_cons.1 ht with rfl | ht
    · rcases hreads with rfl | rfl
      · exact l.text_clean.2.2
      · simp only [List.mem_append, List.mem_singleton, not_or]
        exact ⟨l.text_clean.2.2, by decide⟩
    · exact ih t ht

/-- The lines between the LFs of the header block. -/
theorem exists_reads (eol : LineEnd) (l : ScriptLine) (lines : List ScriptLine) :
    ∃ block, List.Forall₂ ScriptLine.Reads (l :: lines) block ∧
      (eol.bytes.intercalate ((l :: lines).map ScriptLine.text)).splitOn LF = block := by
  have hjoin : ∃ block, List.Forall₂ ScriptLine.Reads (l :: lines) block ∧
      eol.bytes.intercalate ((l :: lines).map ScriptLine.text) = [LF].intercalate block := by
    induction lines generalizing l with
    | nil => exact ⟨[l.text], .cons (.inl rfl) .nil, rfl⟩
    | cons next lines ih =>
      obtain ⟨block, hblock, heq⟩ := ih next
      rcases hblock with _ | ⟨hnext, hrest⟩
      rw [List.map_cons, List.map_cons, List.intercalate_cons_cons, ← List.map_cons, heq]
      cases eol with
      | lf => exact ⟨l.text :: _, .cons (.inl rfl) (.cons hnext hrest), by rw [List.intercalate_cons_cons]; rfl⟩
      | crlf =>
        refine ⟨(l.text ++ [CR]) :: _, .cons (.inr rfl) (.cons hnext hrest), ?_⟩
        rw [List.intercalate_cons_cons]
        simp [LineEnd.bytes]
  obtain ⟨block, hblock, heq⟩ := hjoin
  refine ⟨block, hblock, ?_⟩
  rw [heq]
  refine List.splitOn_intercalate LF (not_mem_of_reads hblock) ?_
  rintro rfl
  cases hblock

/-- What the lines have said so far: the last of the single values, all the cookies. -/
structure Told (lines : List ScriptLine) (r : Response) (s : Bytes × Response) : Prop where
  contentType : s.1 = (ScriptLine.values (ascii "content-type") lines).getLast?.getD (ascii "text/html")
  status : s.2.statusCode = ((ScriptLine.values (ascii "status") lines).getLast?.map (List.take 3)).getD (ascii "200")
  location : ∀ v, (ScriptLine.values (ascii "location") lines).getLast? = some v → s.2.headers.find? (ascii "Location") = some v
  cookies : s.2.setCookies = r.setCookies ++ ScriptLine.values (ascii "set-cookie") lines
  store : s.2.responseDataStore = r.responseDataStore

theorem told_foldl (lines : List ScriptLine) (r : Response) : Told lines r
    (lines.foldl ScriptLine.apply (ascii "text/html", { r with statusCode := ascii "200", responsePhrase := ascii "OK" })) := by
  induction lines using List.reverseRecOn with
  | nil => exact ⟨rfl, rfl, nofun, (List.append_nil _).symm, rfl⟩
  | append_singleton lines l ih =>
    rw [List.foldl_append, List.foldl_cons, List.foldl_nil]
    generalize lines.foldl ScriptLine.apply _ = s at ih ⊢
    obtain ⟨hct, hstatus, hloc, hcookies, hstore⟩ := ih
    unfold ScriptLine.apply
    split_ifs with h₁ h₂ h₃ h₄
    · constructor
      · simp [ScriptLine.values_concat, h₁]
      · simpa [ScriptLine.values_concat, h₁, show ascii "content-type" ≠ ascii "status" by decide] using hstatus
      · simpa [ScriptLine.values_concat, h₁, show ascii "content-type" ≠ ascii "location" by decide] using hloc
      · simpa [ScriptLine.values_concat, h₁, show ascii "content-type" ≠ ascii "set-cookie" by decide] using hcookies
      · exact hstore
    · have hkey : l.key = ascii "status" := h₂
      obtain ⟨hcode, -, -⟩ := cgiStatus_value (l.status hkey) s.2
      have hsame : (cgiStatus l.value s.2).headers = s.2.headers ∧ (cgiStatus l.value s.2).setCookies = s.2.setCookies ∧
          (cgiStatus l.value s.2).responseDataStore = s.2.responseDataStore := by
        unfold cgiStatus
        split <;> exact ⟨rfl, rfl, rfl⟩
      obtain ⟨hheaders, hsame, hsameStore⟩ := hsame
      constructor
      · simpa [ScriptLine.values_concat, h₂, show ascii "status" ≠ ascii "content-type" by decide] using hct
      · simp only [ScriptLine.values_concat, h₂, if_true, List.getLast?_concat, Option.map_some, Option.getD_some]
        exact hcode
      · simpa [ScriptLine.values_concat, h₂, hheaders, show ascii "status" ≠ ascii "location" by decide] using hloc
      · simpa [ScriptLine.values_concat, h₂, hsame, show ascii "status" ≠ ascii "set-cookie" by decide] using hcookies
      · exact hsameStore.trans hstore
    · have hadd := sameButHeaders_addHeader (ascii "Location") l.value s.2
      rw [SameButHeaders] at hadd
      constructor
      · simpa [ScriptLine.values_concat, h₃, show ascii "location" ≠ ascii "content-type" by decide] using hct
      · rw [hadd]
        simpa [ScriptLine.values_concat, h₃, show ascii "location" ≠ ascii "status" by decide] using hstatus
      · simp [ScriptLine.values_concat, h₃, addHeader_headers (show isSetCookieHeader (ascii "Location") = false by decide)]
      · simpa [ScriptLine.values_concat, h₃, show ascii "location" ≠ ascii "set-cookie" by decide,
          addHeader_setCookies (show isSetCookieHeader (ascii "Location") = false by decide)] using hcookies
      · rw [hadd]
        exact hstore
    · have hadd := sameButHeaders_addHeader (ascii "Set-Cookie") l.value s.2
      obtain ⟨hheaders, hsame⟩ := addHeader_cookie (show isSetCookieHeader (ascii "Set-Cookie") = true by decide) l.value s.2
      rw [SameButHeaders] at hadd
      constructor
      · simpa [ScriptLine.values_concat, h₄, show ascii "set-cookie" ≠ ascii "content-type" by decide] using hct
      · rw [hadd]
        simpa [ScriptLine.values_concat, h₄, show ascii "set-cookie" ≠ ascii "status" by decide] using hstatus
      · simpa [ScriptLine.values_concat, h₄, hheaders, show ascii "set-cookie" ≠ ascii "location" by decide] using hloc
      · simp [ScriptLine.values_concat, h₄, hsame, hcookies]
      · rw [hadd]
        exact hstore
    · constructor
      · simpa [ScriptLine.values_concat, h₁] using hct
      · simpa [ScriptLine.values_concat, h₂] using hstatus
      · simpa [ScriptLine.values_concat, h₃] using hloc
      · simpa [ScriptLine.values_concat, h₄] using hcookies
      · exact hstore

/-! ### The output is drained -/

section Drain

variable {sys : Sys} {d : DataStore} {w : World} {data : Bytes}

theorem drainLoop_seekTo (hs : sys.NoFail) (h : d.Holds w data) (pos : Nat) :
    ∃ t, drainLoop sys (d.seekTo pos, w) = (.ok (data.drop pos), d.seekTo (max pos data.length), { w with tick := t }) := by
  obtain ⟨n, hn⟩ : ∃ n, n = data.length - pos := ⟨_, rfl⟩
  induction n using Nat.strongRecOn generalizing pos w with
  | ind n ih =>
    obtain ⟨t, hread⟩ := DataStore.read_seekTo hs h pos RESPONSE_SEND_CHUNK
    rw [drainLoop_eq, Eff.bind_ok hread]
    by_cases hend : data.length ≤ pos
    · have hnil : data.drop pos = [] := List.drop_of_length_le hend
      rw [hnil, List.take_nil, if_pos rfl, max_eq_left hend]
      exact ⟨t, rfl⟩
    · have hlen : ((data.drop pos).take RESPONSE_SEND_CHUNK).length = min RESPONSE_SEND_CHUNK (data.length - pos) := by
        rw [List.length_take, List.length_drop]
      have hchunk : 0 < RESPONSE_SEND_CHUNK := by decide
      have hne : (data.drop pos).take RESPONSE_SEND_CHUNK ≠ [] := by
        rw [← List.length_pos_iff, hlen]
        omega
      obtain ⟨t', hrest⟩ := ih (data.length - (pos + ((data.drop pos).take RESPONSE_SEND_CHUNK).length)) (by omega)
        (w := { w with tick := t }) (h.mono subset_rfl) _ rfl
      rw [if_neg hne, Eff.bind_ok hrest, Eff.pure_apply, max_eq_right (by omega), max_eq_right (by omega)]
      refine ⟨t', ?_⟩
      congr 2
      rw [← List.drop_drop, List.drop_length_take, List.take_append_drop]

theorem drainDataStore_eq (hs : sys.NoFail) (h : d.Holds w data) :
    ∃ t, drainDataStore sys (d, w) = (.ok data, d.seekTo data.length, { w with tick := t }) := by
  obtain ⟨t, hreset⟩ := DataStore.resetReadPosition_eq hs h
  obtain ⟨t', hloop⟩ := drainLoop_seekTo hs (w := { w with tick := t }) (h.mono subset_rfl) 0
  refine ⟨t', ?_⟩
  rw [List.drop_zero, max_eq_right (Nat.zero_le _)] at hloop
  exact (Eff.bind_ok hreset).trans hloop

end Drain

/-! ### The whole answer -/

/-- The response that a script's output is to become. -/
structure Answered (lines : List ScriptLine) (body : Bytes) (r r' : Response) (w' : World) : Prop where
  body : r'.responseDataStore.Holds w' body
  status : r'.statusCode = ((ScriptLine.values (ascii "status") lines).getLast?.map (List.take 3)).getD (ascii "200")
  contentType : r'.headers.find? (ascii "Content-Type") =
    some ((ScriptLine.values (ascii "content-type") lines).getLast?.getD (ascii "text/html"))
  location : ∀ v, (ScriptLine.values (ascii "location") lines).getLast? = some v → r'.headers.find? (ascii "Location") = some v
  cookies : r'.setCookies = r.setCookies ++ ScriptLine.values (ascii "set-cookie") lines

/-- Whatever the response was: when its store holds the output, it becomes the answer. -/
def Finalizes (eol : LineEnd) (lines : List ScriptLine) (body : Bytes) : Prop :=
  ∀ (sys : Sys), sys.NoFail → ∀ r w, r.responseDataStore.Holds w (scriptOutput eol lines body) →
    ∃ r' w', finalizeCgiResponse sys (r, w) = (.ok (), r', w') ∧ Answered lines body r r' w'

variable {sys : Sys} {r : Response} {w : World}

/-- `finalizeCgiResponse` behind the drain. -/
def answerOutput (sys : Sys) (cgiOutput : Bytes) : Method Response Unit := do
  if cgiOutput = [] then badGateway sys
  else
    let (cgiHeaders, cgiBody) := splitCgiOutput cgiOutput
    if cgiHeaders = [] then badGateway sys
    else
      let parsed := parseCgiHeaders cgiHeaders (← obj)
      modObj fun _ => parsed.2
      match parsed.1 with
      | none => badGateway sys
      | some contentType =>
        onStore DataStore.clear
        onStore (DataStore.append sys cgiBody)
        finalizeSuccess sys contentType
        modObj fun r => { r with cgiInstance := none }

theorem finalizeCgiResponse_drained {raw : Bytes} {d : DataStore} {w' : World}
    (h : drainDataStore sys (r.responseDataStore, w) = (.ok raw, d, w')) :
    finalizeCgiResponse sys (r, w) =
      answerOutput sys raw ({ r with buildPhase := .BUILD_DONE, responseDataStore := d }, w') := by
  rw [finalizeCgiResponse, Eff.modObj_bind]
  exact Eff.bind_ok (onStore_eq h)

/-- The last part: the header block is read, the store gets the body. -/
theorem store_body (hs : sys.NoFail) (body contentType : Bytes) (r : Response) (w : World) :
    ∃ d w', d.Holds w' body ∧ (do
        onStore DataStore.clear
        onStore (DataStore.append sys body)
        finalizeSuccess sys contentType
        modObj fun r => { r with cgiInstance := none } : Method Response Unit) (r, w) =
      (.ok (), { finished (sys.httpDate w'.now) contentType { r with responseDataStore := d } with cgiInstance := none }, w') := by
  obtain ⟨d₀, w₀, hclear, hempty⟩ : ∃ d₀ w₀, DataStore.clear (r.responseDataStore, w) = (.ok (), d₀, w₀) ∧ d₀.Holds w₀ [] :=
    ⟨_, _, DataStore.clear_eq, DataStore.clear_holds _ _⟩
  obtain ⟨d, w', happend, hd⟩ : ∃ d w', DataStore.append sys body (d₀, w₀) = (.ok (), d, w') ∧ d.Holds w' body := by
    rcases eq_or_ne body [] with rfl | hne
    · exact ⟨d₀, w₀, DataStore.append_nil, hempty⟩
    · obtain ⟨d, w', hrun, hd, -⟩ := DataStore.append_spec hs hempty hne
      exact ⟨d, w', hrun, hd⟩
  refine ⟨d, w', hd, ?_⟩
  rw [Eff.bind_ok (onStore_eq hclear), Eff.bind_ok (onStore_eq happend), Eff.bind_ok (finalizeSuccess_run sys contentType _ _)]
  rfl

theorem finalizeCgiResponse_ok {eol : LineEnd} {l : ScriptLine} {lines : List ScriptLine} {body : Bytes}
    (h : eol = .crlf ∨ ¬ crlfcrlf <:+: body) : Finalizes eol (l :: lines) body := by
  intro sys hs r w hholds
  obtain ⟨t, hdrain⟩ := drainDataStore_eq hs hholds
  obtain ⟨r₁, hr₁⟩ : ∃ r₁, r₁ = { r with
    buildPhase := .BUILD_DONE, responseDataStore := r.responseDataStore.seekTo (scriptOutput eol (l :: lines) body).length } := ⟨_, rfl⟩
  obtain ⟨block, hreads, hsplit⟩ := exists_reads eol l lines
  have htold := told_foldl (l :: lines) r₁
  obtain ⟨s, hs'⟩ : ∃ s, s = (l :: lines).foldl ScriptLine.apply
    (ascii "text/html", { r₁ with statusCode := ascii "200", responsePhrase := ascii "OK" }) := ⟨_, rfl⟩
  rw [← hs'] at htold
  have hheaders := intercalate_ne_nil eol l lines
  have hout : scriptOutput eol (l :: lines) body ≠ [] := by
    rw [scriptOutput_eq, List.append_assoc]
    exact fun hnil => hheaders (List.append_eq_nil_iff.1 hnil).1
  have hparse : parseCgiHeaders (eol.bytes.intercalate ((l :: lines).map ScriptLine.text)) r₁ = (some s.1, s.2) := by
    rw [parseCgiHeaders, if_neg hheaders, hsplit, hs']
    exact parseCgiHeaderLines_reads hreads (ascii "text/html", _)
  obtain ⟨d, w', hd, hrun⟩ := store_body hs body s.1 s.2 { w with tick := t }
  refine ⟨{ finished (sys.httpDate w'.now) s.1 { s.2 with responseDataStore := d } with cgiInstance := none }, w', ?_, ?_⟩
  · rw [finalizeCgiResponse_drained hdrain, ← hr₁, answerOutput, if_neg hout, splitCgiOutput_scriptOutput h]
    simp only [if_neg hheaders]
    rw [Eff.obj_bind, hparse, Eff.modObj_bind]
    exact hrun
  · have hfields := finished_eq (sys.httpDate w'.now) s.1 { s.2 with responseDataStore := d }
    refine ⟨?_, ?_, ?_, fun v hv => ?_, ?_⟩
    · show (finished _ _ _).responseDataStore.Holds w' body
      rw [hfields]
      exact hd
    · show (finished _ _ _).statusCode = _
      rw [hfields]
      exact htold.status
    · show (finished _ _ _).headers.find? _ = _
      rw [finished_headers, OrdMap.find?_insert_of_ne _ (by decide), OrdMap.find?_insert_of_ne _ (by decide),
        OrdMap.find?_insert_of_ne _ (by decide), OrdMap.find?_insert_self, htold.contentType]
    · show (finished _ _ _).headers.find? _ = _
      rw [finished_headers, OrdMap.find?_insert_of_ne _ (by decide), OrdMap.find?_insert_of_ne _ (by decide),
        OrdMap.find?_insert_of_ne _ (by decide), OrdMap.find?_insert_of_ne _ (by decide)]
      exact htold.location v hv
    · show (finished _ _ _).setCookies = _
      rw [finished_setCookies]
      exact htold.cookies.trans (by rw [hr₁])

/-- Output in which CRLF CRLF first stands in the body is cut there. -/
theorem splitCgiOutput_inside (lines : List ScriptLine) {body : Bytes} (h : crlfcrlf <:+: body) :
    (splitCgiOutput (scriptOutput .lf lines body)).2.length < body.length := by
  rcases hfind : body.findSub crlfcrlf with _ | k
  · exact absurd h (List.findSub_eq_none_iff.1 hfind)
  have hle : k + crlfcrlf.length ≤ body.length := List.findSub_add_le hfind
  have hlen : crlfcrlf.length = 4 := rfl
  rw [splitCgiOutput, findSub_crlf_of_lf, hfind]
  simp only [Option.map_some]
  rw [scriptOutput, List.length_drop, List.length_append]
  omega

/-- Without a configuration the store ends with the output or what was taken for its body. -/
theorem finalizeCgiResponse_store (hs : sys.NoFail) {raw : Bytes} (hholds : r.responseDataStore.Holds w raw)
    (hconf : r.cachedConfig = none) : ∃ r' w', finalizeCgiResponse sys (r, w) = (.ok (), r', w') ∧
      (r'.responseDataStore.Holds w' raw ∨ r'.responseDataStore.Holds w' (splitCgiOutput raw).2) := by
  obtain ⟨t, hdrain⟩ := drainDataStore_eq hs hholds
  obtain ⟨d, hd⟩ : ∃ d, d = r.responseDataStore.seekTo raw.length := ⟨_, rfl⟩
  have hkept : d.Holds { w with tick := t } raw := by
    rw [hd]
    exact hholds.seekTo (show w.tmp ⊆ ({ w with tick := t } : World).tmp from subset_rfl) _
  have hbad (r₁ : Response) (hstore : r₁.responseDataStore = d) (hconf : r₁.cachedConfig = none) :
      ∃ r', badGateway sys (r₁, { w with tick := t }) = (.ok (), r', { w with tick := t }) ∧
        r'.responseDataStore.Holds { w with tick := t } raw := by
    refine ⟨{ setResponsePhrase (ascii "Bad Gateway") (setStatusCode (ascii "502") r₁) with cgiInstance := none }, ?_, ?_⟩
    · rw [badGateway, Eff.obj_bind, hconf]
      rfl
    · rw [← hstore] at hkept
      exact hkept
  rw [finalizeCgiResponse_drained hdrain, ← hd, answerOutput]
  split
  · obtain ⟨r', hrun, hr'⟩ := hbad { r with buildPhase := .BUILD_DONE, responseDataStore := d } rfl hconf
    exact ⟨r', _, hrun, .inl hr'⟩
  rcases hsplit : splitCgiOutput raw with ⟨head, rest⟩
  simp only
  split
  · obtain ⟨r', hrun, hr'⟩ := hbad { r with buildPhase := .BUILD_DONE, responseDataStore := d } rfl hconf
    exact ⟨r', _, hrun, .inl hr'⟩
  rw [Eff.obj_bind, Eff.modObj_bind]
  obtain ⟨parsed, hparsed⟩ : ∃ parsed, parsed =
    parseCgiHeaders head { r with buildPhase := .BUILD_DONE, responseDataStore := d } := ⟨_, rfl⟩
  have hsaid := said_parseCgiHeaders head { r with buildPhase := .BUILD_DONE, responseDataStore := d }
  rw [← hparsed, Said] at hsaid
  rw [← hparsed]
  rcases parsed.1 with _ | contentType
  · obtain ⟨r', hrun, hr'⟩ := hbad parsed.2 (by rw [hsaid]) (by rw [hsaid]; exact hconf)
    exact ⟨r', _, hrun, .inl hr'⟩
  · obtain ⟨d', w', hd', hrun⟩ := store_body hs rest contentType parsed.2 { w with tick := t }
    refine ⟨_, w', hrun, .inr ?_⟩
    show (finished _ _ _).responseDataStore.Holds w' rest
    rw [finished_eq]
    exact hd'

theorem length_lt_scriptOutput (eol : LineEnd) (lines : List ScriptLine) (body : Bytes) :
    body.length < (scriptOutput eol lines body).length := by
  have heol : 0 < eol.bytes.length := by cases eol <;> decide
  rw [scriptOutput, List.length_append, List.length_append]
  omega

/-- The answer of a response whose store holds such output, and that knows no configuration. -/
theorem not_finalizes_inside {lines : List ScriptLine} {body : Bytes} (hin : crlfcrlf <:+: body) :
    ¬ Finalizes .lf lines body := by
  intro hfinal
  obtain ⟨r, hr⟩ : ∃ r : Response, r = { responseDataStore := {
    dataBuffer := scriptOutput .lf lines body, currentSize := (scriptOutput .lf lines body).length } } := ⟨_, rfl⟩
  have hholds : r.responseDataStore.Holds {} (scriptOutput .lf lines body) := by
    rw [hr]
    exact ⟨rfl, fun _ => ⟨rfl, rfl, rfl⟩, nofun⟩
  obtain ⟨r', w', hrun, hanswer⟩ := hfinal Sys.calm Sys.calm_noFail r {} hholds
  obtain ⟨r'', w'', hrun', hstore⟩ := finalizeCgiResponse_store Sys.calm_noFail hholds (by rw [hr])
  rw [hrun] at hrun'
  cases hrun'
  have hsize := hanswer.body.size
  rcases hstore with hraw | hrest
  · have hlong := length_lt_scriptOutput .lf lines body
    rw [← hraw.size, hsize] at hlong
    exact lt_irrefl _ hlong
  · have hshort := splitCgiOutput_inside lines hin
    rw [← hrest.size, hsize] at hshort
    exact lt_irrefl _ hshort

/-- Which outputs are taken apart as they were put together. -/
theorem finalizes_iff (eol : LineEnd) {lines : List ScriptLine} (hne : lines ≠ []) (body : Bytes) :
    Finalizes eol lines body ↔ (eol = .lf → ¬ crlfcrlf <:+: body) := by
  obtain ⟨l, lines, rfl⟩ := List.exists_cons_of_ne_nil hne
  constructor
  · rintro hfinal rfl hin
    exact not_finalizes_inside hin hfinal
  · intro h
    refine finalizeCgiResponse_ok ?_
    cases eol with
    | lf => exact .inr (h rfl)
    | crlf => exact .inl rfl

/-- `Content-Type: text/plain` -/
def plainText : ScriptLine where
  name := ascii "Content-Type"
  rest := ascii " text/plain"
  name_clean := by decide
  rest_clean := by decide
  status h := absurd h (by decide)

theorem finalizes_plainText : Finalizes .lf [plainText] (ascii "a\n\nb") :=
  (finalizes_iff .lf (List.cons_ne_nil _ _) (ascii "a\n\nb")).2 fun _ => by decide

/-- A body with an empty CRLF line behind lines that end in LF. -/
theorem not_finalizes_plainText : ¬ ∀ (eol : LineEnd) (lines : List ScriptLine) (body : Bytes), lines ≠ [] →
    Finalizes eol lines body :=
  fun hall => not_finalizes_inside (by decide) (hall .lf [plainText] (ascii "a\r\n\r\nb") (List.cons_ne_nil _ _))

end Response

end LeftHookRoll
