import LeftHookRoll.CgiEnvironment
import LeftHookRoll.ConfigReading
import LeftHookRoll.Rejection
import LeftHookRoll.HeaderBlock
import LeftHookRoll.ResponseHeaders
import LeftHookRoll.Routing
import LeftHookRoll.Upload

/-!
# The lines of a header block

`HasLines`: the block has the lines that it is to have and one empty line at its end, for whoever cuts it. The configuration
brings in words of its file, which hold no CR and no LF; the request brings in the name of an upload, which may hold one
of them alone.
-/

namespace LeftHookRoll

open Eff

/-! ### Blocks of lines -/

/-- A byte that stands inside a line. -/
def LineByte (b : UInt8) : Prop := b ≠ CR ∧ b ≠ LF

instance (b : UInt8) : Decidable (LineByte b) := inferInstanceAs (Decidable (_ ∧ _))

/-- Every line, as CRLF ends it, is free of CR and LF. -/
def CleanLines (block : Bytes) : Prop :=
  ∃ lines : List Bytes, block = lines.flatMap (· ++ crlf) ∧ ∀ line ∈ lines, ∀ b ∈ line, LineByte b

/-- The lines for a recipient who takes a CR or an LF alone as an end, too. -/
def recipientLines : Bytes → List Bytes
  | [] => []
  | 13 :: 10 :: s => [] :: recipientLines s
  | c :: s =>
    if c = CR ∨ c = LF then [] :: recipientLines s
    else
      match recipientLines s with
      | [] => [[c]]
      | line :: lines => (c :: line) :: lines

/-- The block has these lines and an empty one at its end, and no other, whoever cuts it. -/
structure HasLines (lines : List Bytes) (block : Bytes) : Prop where
  written : block = (lines ++ [[]]).flatMap (· ++ crlf)
  clean : ∀ line ∈ lines, line ≠ [] ∧ ∀ b ∈ line, LineByte b
  read : recipientLines block = lines ++ [[]]

theorem recipientLines_line {line : Bytes} (h : ∀ b ∈ line, LineByte b) (s : Bytes) :
    recipientLines (line ++ crlf ++ s) = line :: recipientLines s := by
  induction line with
  | nil => rfl
  | cons c line ih =>
    obtain ⟨hc, hline⟩ := List.forall_mem_cons.1 h
    have hnot (s' : Bytes) (hcr : c = 13) (_ : line ++ crlf ++ s = 10 :: s') : False := hc.1 hcr
    rw [List.cons_append, List.cons_append, recipientLines.eq_3 c _ hnot, if_neg (not_or.2 hc), ih hline]

theorem recipientLines_flatMap {lines : List Bytes} (h : ∀ line ∈ lines, ∀ b ∈ line, LineByte b) :
    recipientLines (lines.flatMap (· ++ crlf)) = lines := by
  induction lines with
  | nil => rfl
  | cons line lines ih =>
    obtain ⟨hline, hlines⟩ := List.forall_mem_cons.1 h
    rw [List.flatMap_cons, recipientLines_line hline, ih hlines]

theorem clean_concat {lines : List Bytes} (h : ∀ line ∈ lines, line ≠ [] ∧ ∀ b ∈ line, LineByte b) :
    ∀ line ∈ lines ++ [[]], ∀ b ∈ line, LineByte b := by
  intro line hline
  rcases List.mem_append.1 hline with hline | hline
  · exact (h line hline).2
  · rw [List.mem_singleton.1 hline]
    exact fun _ hb => absurd hb List.not_mem_nil

/-- Where no line breaks, there are the lines that were written. -/
theorem hasLines_flatMap {lines : List Bytes} (h : ∀ line ∈ lines, line ≠ [] ∧ ∀ b ∈ line, LineByte b) :
    HasLines lines ((lines ++ [[]]).flatMap (· ++ crlf)) := ⟨rfl, h, recipientLines_flatMap (clean_concat h)⟩

theorem HasLines.cleanLines {lines : List Bytes} {block : Bytes} (h : HasLines lines block) : CleanLines block :=
  ⟨lines ++ [[]], h.written, clean_concat h.clean⟩

/-- Where lines are clean, CR and LF stand together. -/
theorem CleanLines.paired {pre post : Bytes} (h : CleanLines (pre ++ post)) :
    (post.head? = some LF → pre.getLast? = some CR) ∧ (pre.getLast? = some CR → post.head? = some LF) := by
  obtain ⟨lines, heq, hlines⟩ := h
  induction lines generalizing pre with
  | nil =>
    obtain ⟨rfl, rfl⟩ := List.append_eq_nil_iff.1 heq
    exact ⟨(nomatch ·), (nomatch ·)⟩
  | cons line lines ih =>
    obtain ⟨hline, hlines⟩ := List.forall_mem_cons.1 hlines
    rw [List.flatMap_cons, List.append_assoc] at heq
    -- the cut is inside the line, between its CR and its LF, or behind them
    rcases List.append_eq_append_iff.1 heq with ⟨t, rfl, rfl⟩ | ⟨t, rfl, ht⟩
    · have hpre : pre.getLast? ≠ some CR := fun hlast =>
        (hline CR (List.mem_append_left t (List.mem_of_getLast? hlast))).1 rfl
      refine ⟨fun hhead => ?_, fun hlast => absurd hlast hpre⟩
      rcases t with _ | ⟨b, t⟩
      · exact nomatch hhead
      · cases hhead
        exact absurd rfl (hline LF (List.mem_append_right pre List.mem_cons_self)).2
    · rcases t with _ | ⟨c, _ | ⟨c', t⟩⟩
      · rw [List.append_nil]
        rw [List.nil_append] at ht
        subst ht
        refine ⟨(nomatch ·), fun hlast => absurd rfl (hline CR (List.mem_of_getLast? hlast)).1⟩
      · cases ht
        rw [List.getLast?_concat]
        exact ⟨fun _ => rfl, fun _ => rfl⟩
      · obtain ⟨rfl, rfl, htail⟩ : CR = c ∧ LF = c' ∧ lines.flatMap (· ++ crlf) = t ++ post := by
          simpa [crlf, CR, LF, eq_comm] using ht
        have hrest := ih htail.symm hlines
        rcases t with _ | ⟨d, t⟩
        · refine ⟨fun hhead => (nomatch hrest.1 hhead), fun hlast => ?_⟩
          rw [List.getLast?_append_of_ne_nil _ (List.cons_ne_nil _ _)] at hlast
          exact absurd hlast (by simp [CR, LF])
        · rw [List.getLast?_append_of_ne_nil _ (List.cons_ne_nil _ _), List.getLast?_cons_cons, List.getLast?_cons_cons]
          exact hrest

/-- The rule for header blocks of clean lines. -/
def lineRule : HeaderRule where
  code code := ∀ b ∈ code, LineByte b
  phrase := LineByte
  text := LineByte

theorem lineByte_of_plain {b : UInt8} (h : Plain b) : LineByte b := by
  constructor
  · rintro rfl
    exact absurd h (by decide)
  · rintro rfl
    exact absurd h (by decide)

/-- The system writes dates in one line. -/
def DatesInLine (sys : Sys) : Prop := ∀ t, ∀ b ∈ sys.httpDate t, LineByte b

theorem admits_lineRule {sys : Sys} (h : DatesInLine sys) : lineRule.Admits sys where
  codes := by
    show ∀ code ∈ ownCodes, ∀ b ∈ code, LineByte b
    decide
  phrase _ := lineByte_of_plain
  text _ := lineByte_of_plain
  date := h

namespace Response

/-- The lines that a header block is to have: the status line, and one for each header and for each cookie. -/
def linesOf (statusLine : Bytes) (headers : StrMap) (cookies : List Bytes) : List Bytes :=
  statusLine :: (headers.entries.map fun e => e.1 ++ ascii ": " ++ e.2) ++ cookies.map (ascii "Set-Cookie: " ++ ·)

/-- The header block has the lines of the headers that the response has and of the cookies that it had. -/
def InLines (r : Response) : Prop :=
  ∃ code phrase cookies, cookies <+: r.setCookies ∧
    HasLines (linesOf (ascii "HTTP/1.0 " ++ code ++ ascii " " ++ phrase) r.headers cookies) r.headerBuffer

theorem Meets.hasLines {r : Response} (h : Meets lineRule r) :
    HasLines (linesOf (ascii "HTTP/1.0 " ++ r.statusCode ++ ascii " " ++ r.responsePhrase) r.headers r.setCookies)
      r.generateHeaderString := by
  have hspace : ∀ b ∈ ascii " ", LineByte b := by decide
  have hcolon : ∀ b ∈ ascii ": ", LineByte b := by decide
  have hstart : ∀ b ∈ ascii "Set-Cookie: ", LineByte b := by decide
  have hversion : ∀ b ∈ ascii "HTTP/1.0 ", LineByte b := by decide
  have hblock : r.generateHeaderString = (linesOf (ascii "HTTP/1.0 " ++ r.statusCode ++ ascii " " ++ r.responsePhrase)
      r.headers r.setCookies ++ [[]]).flatMap (· ++ crlf) := by
    have hhead : ascii "HTTP/1.0 " = r.version ++ ascii " " := by
      rw [h.version]
      rfl
    simp [generateHeaderString, linesOf, hhead, List.flatMap_map, List.append_assoc]
  rw [hblock]
  refine hasLines_flatMap fun line hline => ?_
  rcases List.mem_append.1 hline with hline | hline
  · rcases List.mem_cons.1 hline with rfl | hline
    · refine ⟨by simp [ascii], ?_⟩
      simp only [List.forall_mem_append]
      exact ⟨⟨⟨hversion, h.code⟩, hspace⟩, h.phrase⟩
    · obtain ⟨e, he, rfl⟩ := List.mem_map.1 hline
      refine ⟨by simp [ascii], ?_⟩
      simp only [List.forall_mem_append]
      exact ⟨⟨(h.headers e he).1, hcolon⟩, (h.headers e he).2⟩
  · obtain ⟨c, hc, rfl⟩ := List.mem_map.1 hline
    refine ⟨by simp [ascii], ?_⟩
    simp only [List.forall_mem_append]
    exact ⟨hstart, h.cookies c hc⟩

theorem Worded.inLines {r : Response} (h : Worded lineRule r) : r.headerBuffer = [] ∨ InLines r := by
  rcases h.block with hnone | ⟨r₀, hr₀, hheaders, hcookies, hbuffer⟩
  · exact .inl hnone
  · refine .inr ⟨r₀.statusCode, r₀.responsePhrase, r₀.setCookies, hcookies, ?_⟩
    rw [hbuffer, ← hheaders]
    exact hr₀.hasLines

theorem InLines.cleanLines {r : Response} (h : InLines r) : CleanLines r.headerBuffer := by
  obtain ⟨_, _, _, -, hlines⟩ := h
  exact hlines.cleanLines

end Response

/-! ### What the configuration brings in -/

namespace ConfigParser

theorem not_isspace_of_mem_tokenize (content : Bytes) : ∀ t ∈ tokenize content, ∀ b ∈ t, ¬ isspace b := by
  induction content using tokenize.induct with
  | case1 =>
    rw [tokenize]
    exact fun _ h => absurd h List.not_mem_nil
  | case2 c s hspace ih =>
    rw [tokenize, if_pos hspace]
    exact ih
  | case3 s hspace ih =>
    rw [tokenize, if_neg hspace, if_pos rfl]
    exact ih
  | case4 c s hspace hhash hpunct ih =>
    rw [tokenize, if_neg hspace, if_neg hhash, if_pos hpunct, List.forall_mem_cons]
    refine ⟨fun b hb => ?_, ih⟩
    rw [List.mem_singleton.1 hb]
    exact hspace
  | case5 c s hspace hhash hpunct ih =>
    rw [tokenize, if_neg hspace, if_neg hhash, if_neg hpunct, List.forall_mem_cons]
    refine ⟨fun b hb => ?_, ih⟩
    rcases List.mem_cons.1 hb with rfl | hb
    · exact hspace
    · have hword := List.mem_takeWhile_imp hb
      rw [isWordChar, decide_eq_true_eq] at hword
      exact hword.1

theorem lineByte_of_not_isspace {b : UInt8} (h : ¬ isspace b) : LineByte b := by
  constructor
  · rintro rfl
    exact h (by decide)
  · rintro rfl
    exact h (by decide)

/-- What every setting keeps, all settings together keep. -/
theorem foldlM_keeps {α X : Type} {f : α → X → Option α} {I : α → Prop} {xs : List X}
    (h : ∀ x ∈ xs, ∀ a a', I a → f a x = some a' → I a') {a a' : α} (ha : I a) (hrun : xs.foldlM f a = some a') : I a' := by
  induction xs generalizing a with
  | nil =>
    cases hrun
    exact ha
  | cons x xs ih =>
    rw [List.foldlM_cons] at hrun
    rcases hx : f a x with _ | a₁ <;> rw [hx] at hrun
    · cases hrun
    obtain ⟨hhead, htail⟩ := List.forall_mem_cons.1 h
    exact ih htail (hhead a a₁ ha hx) hrun

/-- The words of the redirection meet `P`. -/
def Redirects (P : Bytes → Prop) (loc : LocationConf) : Prop := P loc.returnCode ∧ P loc.returnURL

variable {P : Bytes → Prop}

theorem LocationSetting.redirects {x : LocationSetting} (hx : ∀ t ∈ x.tokens, P t) {loc loc' : LocationConf}
    (hloc : Redirects P loc) (h : x.apply loc = some loc') : Redirects P loc' := by
  cases x with
  | root path | index page | uploadStore dir | cgiInterpreter path ext =>
    cases h
    exact hloc
  | methods names =>
    rw [apply] at h
    split at h
    · cases h
    refine foldlM_keeps (fun name _ loc₁ loc₂ h₁ hadd => ?_) hloc h
    obtain ⟨m, -, rfl⟩ := Option.map_eq_some_iff.1 hadd
    exact h₁
  | autoindex value =>
    rw [apply] at h
    split_ifs at h
    · cases h
      exact hloc
    · cases h
      exact hloc
  | ret code url =>
    rw [apply] at h
    split_ifs at h
    cases h
    refine ⟨hx code ?_, hx url ?_⟩
    · simp [LocationSetting.tokens, directive, Directive.tokens]
    · simp [LocationSetting.tokens, directive, Directive.tokens]

theorem ServerSetting.redirects {resolve : Bytes → Option Nat} {x : ServerSetting} (hx : ∀ t ∈ x.tokens, P t) (hnil : P [])
    {conf conf' : ServerConf} (hconf : ∀ loc ∈ conf.locations, Redirects P loc) (h : x.apply resolve conf = some conf') :
    ∀ loc ∈ conf'.locations, Redirects P loc := by
  cases x with
  | listen value | maxBodySize value =>
    obtain ⟨v, -, rfl⟩ := Option.map_eq_some_iff.1 h
    exact hconf
  | serverName name =>
    cases h
    exact hconf
  | errorPage code path =>
    rw [apply] at h
    split_ifs at h
    cases h
    exact hconf
  | location path xs =>
    obtain ⟨loc, hloc, rfl⟩ := Option.map_eq_some_iff.1 h
    have hnew : Redirects P loc := by
      refine foldlM_keeps (I := Redirects P) (fun y hy loc₁ loc₂ h₁ happly => ?_) ⟨hnil, hnil⟩ hloc
      refine y.redirects (fun t ht => hx t ?_) h₁ happly
      simp only [ServerSetting.tokens, item, Item.tokens, List.mem_cons, List.mem_append, List.mem_flatMap, List.mem_map]
      exact .inl (.inr (.inr (.inr ⟨_, ⟨y, hy, rfl⟩, ht⟩)))
    intro loc' hloc'
    rcases List.mem_append.1 hloc' with hloc' | hloc'
    · exact hconf loc' hloc'
    · rw [List.mem_singleton.1 hloc']
      exact hnew

/-- The redirections of a configuration are words of its file. -/
theorem parse_redirects {resolve : Bytes → Option Nat} {filePath content : Bytes} {confs : List ServerConf}
    (h : parse resolve filePath (.text content) = .ok confs) {conf : ServerConf} (hconf : conf ∈ confs) :
    ∀ loc ∈ conf.locations, Redirects (fun word => ∀ b ∈ word, LineByte b) loc := by
  obtain ⟨bs, -, htokens, hdescribes⟩ := parseText_ok.1 h
  have hwords : ∀ b ∈ bs, ∀ t ∈ b.tokens, ∀ c ∈ t, LineByte c := by
    intro b hb t ht c hc
    refine lineByte_of_not_isspace (not_isspace_of_mem_tokenize content t ?_ c hc)
    rw [htokens]
    exact List.mem_flatMap.2 ⟨b, hb, ht⟩
  clear h htokens
  induction hdescribes with
  | nil => cases hconf
  | @cons b conf₁ bs confs hb _ ih =>
    obtain ⟨hhead, htail⟩ := List.forall_mem_cons.1 hwords
    have hsettings : ∀ x ∈ b, ∀ t ∈ ServerSetting.tokens x, ∀ c ∈ t, LineByte c := by
      intro x hx t ht
      refine hhead t ?_
      simp only [Settings.tokens, Settings.block, blockTokens, List.mem_cons, List.mem_append, List.mem_flatMap, List.mem_map]
      exact .inl (.inr (.inr ⟨_, ⟨x, hx, rfl⟩, ht⟩))
    rcases List.mem_cons.1 hconf with rfl | hconf
    · refine foldlM_keeps (I := fun conf : ServerConf => ∀ loc ∈ conf.locations, Redirects _ loc) ?_
        (fun _ hloc => absurd hloc List.not_mem_nil) hb
      exact fun x hx _ _ h₁ happly => x.redirects (hsettings x hx) (fun _ hc => absurd hc List.not_mem_nil) h₁ happly
    · exact ih hconf htail

end ConfigParser

/-! ### What the request brings in -/

namespace Request

variable {q : Request}

theorem head?_headerLines {s line : Bytes} {lines : List Bytes} (h : headerLines s = line :: lines) {b : UInt8}
    (hb : line.head? = some b) : s.head? = some b := by
  induction s using headerLines.induct with
  | case1 => cases h
  | case2 s ih =>
    cases h
    cases hb
  | case3 c s hnot hnil ih =>
    rw [headerLines.eq_3 c s hnot, hnil] at h
    cases h
    exact hb
  | case4 c s hnot line' lines' hcons ih =>
    rw [headerLines.eq_3 c s hnot, hcons] at h
    cases h
    exact hb

/-- No line goes on behind a CRLF. -/
theorem not_crlf_of_mem_headerLines (s : Bytes) : ∀ line ∈ headerLines s, ¬ crlf <:+: line := by
  induction s using headerLines.induct with
  | case1 => exact fun _ h => absurd h List.not_mem_nil
  | case2 s ih =>
    rw [headerLines, List.forall_mem_cons]
    exact ⟨by simp [crlf], ih⟩
  | case3 c s hnot hnil ih =>
    rw [headerLines.eq_3 c s hnot, hnil, List.forall_mem_cons]
    exact ⟨by simp [crlf, List.infix_cons_iff, List.cons_prefix_cons], fun _ h => absurd h List.not_mem_nil⟩
  | case4 c s hnot line lines hcons ih =>
    rw [headerLines.eq_3 c s hnot, hcons, List.forall_mem_cons]
    rw [hcons, List.forall_mem_cons] at ih
    refine ⟨fun hinfix => ?_, ih.2⟩
    rcases List.infix_cons_iff.1 hinfix with hprefix | hinfix
    · -- then the text itself begins with a CRLF
      obtain ⟨hc, t, rfl⟩ : c = 13 ∧ ∃ t, line = 10 :: t := by
        obtain ⟨t, ht⟩ := hprefix
        cases ht
        exact ⟨rfl, t, rfl⟩
      have hhead := head?_headerLines hcons rfl
      rcases s with _ | ⟨d, s⟩
      · cases hhead
      · cases hhead
        exact hnot s hc rfl
    · exact ih.1 hinfix

/-- There is no CRLF in the URL. -/
def UnbrokenUrl (q : Request) : Prop := ¬ crlf <:+: q.URL

theorem UnbrokenUrl.of_infix {s t : Bytes} (h : ¬ crlf <:+: s) (ht : t <:+: s) : ¬ crlf <:+: t := fun hin => h (hin.trans ht)

theorem UnbrokenUrl.extractQueryFromURL (h : q.UnbrokenUrl) : q.extractQueryFromURL.UnbrokenUrl := by
  rw [Request.extractQueryFromURL]
  split
  · exact of_infix h (List.take_prefix _ _).isInfix
  · exact h

theorem UnbrokenUrl.parseRequestLine (h : q.UnbrokenUrl) {line : Bytes} (hline : ¬ crlf <:+: line) :
    (parseRequestLine line q).UnbrokenUrl := by
  have hrest (n : Nat) : ¬ crlf <:+: line.drop n := of_infix hline (List.drop_suffix n line).isInfix
  have hpart (n m : Nat) : ¬ crlf <:+: (line.drop n).take m := of_infix (hrest n) (List.take_prefix m _).isInfix
  rw [Request.parseRequestLine]
  split
  · exact h
  simp only
  split
  · exact h
  split
  · split
    · exact hrest _
    · exact extractQueryFromURL (q := { q with methodName := _, URL := _, protocol := _ }) (hrest _)
  · split
    · exact hpart _ _
    split
    · exact hpart _ _
    · exact extractQueryFromURL (q := { q with methodName := _, URL := _, protocol := _ }) (hpart _ _)

theorem UnbrokenUrl.parseLines (h : q.UnbrokenUrl) {lines : List Bytes} (hlines : ∀ line ∈ lines, ¬ crlf <:+: line)
    (firstLine : Bool) : (parseLines lines firstLine q).UnbrokenUrl := by
  induction lines generalizing firstLine q with
  | nil => exact h
  | cons line rest ih =>
    obtain ⟨hline, hrest⟩ := List.forall_mem_cons.1 hlines
    rw [Request.parseLines]
    split_ifs
    · exact ih h hrest firstLine
    · exact ih (h.parseRequestLine hline) hrest false
    · refine ih ?_ hrest firstLine
      unfold UnbrokenUrl Request.parseHeaderLine
      split
      · exact h
      · simp only
        split_ifs
        · exact h
        · exact h

theorem UnbrokenUrl.parseHeaders (h : q.UnbrokenUrl) (raw : Bytes) : (parseHeaders raw q).2.UnbrokenUrl := by
  rw [Request.parseHeaders]
  split
  · exact h
  · rename_i headerEnd _
    have hlines := UnbrokenUrl.parseLines (show UnbrokenUrl { q with cookies := ∅ } from h)
      (not_crlf_of_mem_headerLines (raw.take headerEnd)) true
    unfold UnbrokenUrl
    rwa [(sameHead_parseBlock _ q).URL]

/-- The URL stays as it is. -/
def SameUrl (s s' : Request × World) : Prop := s'.1.URL = s.1.URL

instance : IsPreorder (Request × World) SameUrl where
  refl _ := rfl
  trans _ _ _ h h' := h'.trans h

theorem sameUrl_decodeLoop (sys : Sys) (buf : Bytes) (hlen : buf.length < 2 ^ 63) : Moves SameUrl (decodeLoop sys buf hlen) := by
  induction hn : buf.length using Nat.strong_induction_on generalizing buf with
  | _ n ih =>
    subst hn
    rcases hnext : nextChunk buf with _ | _ | _ | rest | ⟨data, rest⟩
    · rw [decodeLoop_wait sys hnext]
      exact .pure _
    · rw [decodeLoop_outOfRange sys hnext]
      exact .throw _
    · rw [decodeLoop_malformed sys hnext]
      exact Moves.bind (.modObj fun _ => rfl) fun _ => .pure _
    · rw [decodeLoop_last sys hnext]
      exact Moves.bind (.modObj fun _ => rfl) fun _ => .pure _
    · rw [decodeLoop_chunk sys hnext]
      have hstore : Moves SameUrl (onDecodedBody (DataStore.append sys data)) := fun _ => rfl
      refine hstore.bind fun _ => Moves.obj.bind fun r => .ite (fun _ => ?_) fun _ => ?_
      · exact Moves.bind (.modObj fun _ => rfl) fun _ => .pure _
      · exact Moves.bind (.modObj fun _ => rfl) fun _ => ih _ (length_lt_of_nextChunk hlen hnext) rest _ rfl

theorem sameUrl_processBodySlice (sys : Sys) : Moves SameUrl (processBodySlice sys) := by
  have hbody {α : Type} (m : Method DataStore α) : Moves SameUrl (onBody m) := fun _ => rfl
  refine Moves.obj.bind fun r => .ite (fun _ => .pure _) fun _ => ?_
  refine (hbody _).bind fun got => Moves.bind (.modObj fun _ => rfl) fun _ => ?_
  split
  swap
  · exact .throw _
  refine Moves.bind (.modObj fun _ => rfl) fun _ => (sameUrl_decodeLoop sys _ _).bind fun done => ?_
  refine .ite (fun _ => .pure _) fun _ => Moves.obj.bind fun r => .ite (fun _ => ?_) fun _ => .pure _
  refine (hbody _).bind fun _ => Moves.bind (.modObj fun _ => rfl) fun _ => (hbody _).bind fun _ => ?_
  exact Moves.bind (.modObj fun _ => rfl) fun _ => .pure _

theorem Received.unbrokenUrl (h : q.Received) : q.UnbrokenUrl := by
  induction h with
  | parsed raw maxBodySize => exact UnbrokenUrl.parseHeaders (by simp [UnbrokenUrl, crlf]) raw
  | stored _ _ ih => exact ih
  | @decoded q q' w w' sys out _ hrun ih =>
    have hsame : SameUrl (q, w) (q', w') := by
      have := sameUrl_processBodySlice sys (q, w)
      rwa [hrun] at this
    unfold UnbrokenUrl
    rwa [show q'.URL = q.URL from hsame]

theorem Received.settled (h : q.Received) : q.Settled := by
  induction h with
  | parsed raw maxBodySize =>
    exact (Connection.parseHeaders_settled (q := { maxBodySize := maxBodySize }) (.inl ⟨rfl, (nomatch ·)⟩) rfl raw).1
  | stored _ _ ih => exact ih
  | @decoded q q' w w' sys out _ hrun ih =>
    have hslice := slice_processBodySlice sys (q, w)
    rw [hrun] at hslice
    exact hslice.settled ih

end Request

/-! ### The header block of an answer -/

namespace Response

variable {config : ServerConf} {req : Request}

/-- The request, but for its body, and the response to it, call by call: an answer is built, an error page takes
its place, a slice is sent. -/
inductive Answering (S : Sys → Prop) (config : ServerConf) (req : Request) : Exchange → Prop
  | start (body : DataStore) : Answering S config req ({ req with body := body }, {})
  | build {x : Exchange} {sys : Sys} {w : World} (h : Answering S config req x) (hsys : S sys) :
      Answering S config req (buildResponse sys config (x, w)).2.1
  | fail {x : Exchange} {sys : Sys} {w : World} {code : Bytes} (h : Answering S config req x) (hsys : S sys)
      (hcode : code ∈ ownCodes) : Answering S config req (x.1, (buildErrorPage sys code config (x.2, w)).2.1)
  | send {x : Exchange} {sys : Sys} {w : World} {fd : Nat} (h : Answering S config req x) (hsys : S sys) :
      Answering S config req (x.1, (sendSlice sys fd (x.2, w)).2.1)

theorem Answering.worded {ρ : HeaderRule} {S : Sys → Prop} (ha : ∀ sys, S sys → ρ.Admits sys)
    (hstart : Worded ρ {}) (hcode : req.statusCode ≠ ascii "200" → ρ.code req.statusCode) (hreq : Answerable ρ config req)
    {x : Exchange} (h : Answering S config req x) : (∃ d, x.1 = { req with body := d }) ∧ Worded ρ x.2 := by
  induction h with
  | start body => exact ⟨⟨body, rfl⟩, hstart⟩
  | @build x sys w _ hsys ih => exact (keeps_buildResponse (ha sys hsys) hcode hreq (x, w) ih).1
  | @fail x sys w code _ hsys hmem ih => exact ⟨ih.1, (keeps_ownError (ha sys hsys) config hmem (x.2, w) ih.2).1⟩
  | @send x sys w fd _ hsys ih => exact ⟨ih.1, (keeps_sendSlice fd (x.2, w) ih.2).1⟩

/-- The request is an upload to a file whose name holds a CR or an LF. -/
def NamesLine (config : ServerConf) (req : Request) : Prop :=
  ∃ loc, Reaches config loc req ∧ ¬ loc.isScript req.URL ∧ req.methodName = .POST ∧ loc.storageLocation ≠ [] ∧
    ∃ b ∈ extractFilenameFromUrl req.URL, ¬ LineByte b

theorem generateHeaderString_split {r : Response} {e : Bytes × Bytes} (h : e ∈ r.headers.entries) :
    ∃ pre post, r.generateHeaderString = pre ++ (e.1 ++ ascii ": " ++ e.2 ++ crlf) ++ post := by
  obtain ⟨before, after, hentries⟩ := List.append_of_mem h
  refine ⟨r.version ++ ascii " " ++ r.statusCode ++ ascii " " ++ r.responsePhrase ++ crlf ++
    before.flatMap (fun e => e.1 ++ ascii ": " ++ e.2 ++ crlf), after.flatMap (fun e => e.1 ++ ascii ": " ++ e.2 ++ crlf) ++
    r.setCookies.flatMap (fun c => ascii "Set-Cookie: " ++ c ++ crlf) ++ crlf, ?_⟩
  rw [generateHeaderString, hentries, List.flatMap_append, List.flatMap_cons]
  simp only [List.append_assoc]

/-- A value with a CR or an LF alone, behind a slash, breaks a line. -/
theorem not_cleanLines {pre value post : Bytes} (hvalue : ¬ crlf <:+: value) {b : UInt8} (hb : b ∈ value) (hline : ¬ LineByte b) :
    ¬ CleanLines (pre ++ slash :: value ++ crlf ++ post) := by
  intro hclean
  obtain ⟨x, y, rfl⟩ := List.append_of_mem hb
  rw [LineByte, not_and_or, not_not, not_not] at hline
  rcases hline with rfl | rfl
  · have hcut : pre ++ slash :: (x ++ CR :: y) ++ crlf ++ post = (pre ++ slash :: x ++ [CR]) ++ (y ++ crlf ++ post) := by simp
    rw [hcut] at hclean
    have hhead := hclean.paired.2 List.getLast?_concat
    rcases y with _ | ⟨c, y⟩
    · cases hhead
    · cases hhead
      exact hvalue ⟨x, y, by simp [crlf, CR, LF]⟩
  · have hcut : pre ++ slash :: (x ++ LF :: y) ++ crlf ++ post = (pre ++ slash :: x) ++ (LF :: y ++ crlf ++ post) := by simp
    rw [hcut] at hclean
    have hlast := hclean.paired.1 rfl
    rw [List.getLast?_append_of_ne_nil _ (List.cons_ne_nil _ _)] at hlast
    rcases List.eq_nil_or_concat x with rfl | ⟨x', c, rfl⟩
    · cases hlast
    · rw [List.concat_eq_append, ← List.cons_append, List.getLast?_concat] at hlast
      cases hlast
      exact hvalue ⟨x', y, by simp [crlf, CR, LF]⟩

/-- The answer to an upload names the file. -/
theorem finishPost_names {sys : Sys} (hs : sys.NoFail) {r : Response} {w : World} {data : Bytes}
    (hstore : r.responseDataStore.Holds w data) :
    ∃ r' w', finishPost sys (r, w) = (.ok (), r', w') ∧
      ∃ pre post, r'.headerBuffer = pre ++ slash :: r.postFilename ++ crlf ++ post := by
  obtain ⟨d, w', happ, -⟩ := DataStore.append_spec hs hstore (x := uploadedPage) (by simp [uploadedPage, ascii])
  obtain ⟨r₀, hr₀⟩ : ∃ r₀, r₀ = { r with
    postOutFd := none, postCloses := r.postCloses + 1, buildPhase := .BUILD_DONE, responseDataStore := d } := ⟨_, rfl⟩
  have hstored : onStore (DataStore.append sys uploadedPage)
      ({ r with postOutFd := none, postCloses := r.postCloses + 1, buildPhase := .BUILD_DONE }, w) = (.ok (), r₀, w') := by
    rw [hr₀]
    exact onStore_eq happ
  obtain ⟨r₁, hr₁⟩ : ∃ r₁, r₁ = addHeader (ascii "Location") ([slash] ++ r₀.postFilename)
    { r₀ with statusCode := ascii "201", responsePhrase := ascii "Created" } := ⟨_, rfl⟩
  have hrun : finishPost sys (r, w) = (.ok (), finished (sys.httpDate w'.now) (ascii "text/html") r₁, w') := by
    rw [finishPost, Eff.modObj_bind, Eff.bind_ok hstored, Eff.modObj_bind, ← hr₁]
    exact finalizeSuccess_run sys _ _ _
  have hlocation : (finished (sys.httpDate w'.now) (ascii "text/html") r₁).headers.find? (ascii "Location") =
      some (slash :: r.postFilename) := by
    rw [finished_headers, hr₁, addHeader_headers (by decide), hr₀]
    simp only [OrdMap.find?_insert]
    rw [if_neg (by decide), if_neg (by decide), if_neg (by decide), if_neg (by decide), if_true]
    rfl
  obtain ⟨pre, post, hsplit⟩ := generateHeaderString_split (OrdMap.mem_entries_of_find? hlocation)
  refine ⟨_, _, hrun, pre ++ (ascii "Location" ++ ascii ": "), post, ?_⟩
  have hbuffer : (finished (sys.httpDate w'.now) (ascii "text/html") r₁).headerBuffer =
      (finished (sys.httpDate w'.now) (ascii "text/html") r₁).generateHeaderString := rfl
  rw [hbuffer, hsplit]
  simp only [List.append_assoc]

variable {S : Sys → Prop}

/-- Where the name of an upload breaks a line, so does an answer. -/
theorem answering_names (hreq : req.UnbrokenUrl) (h : NamesLine config req) :
    ∃ x, Answering DatesInLine config req x ∧ x.2.headerBuffer ≠ [] ∧ ¬ CleanLines x.2.headerBuffer := by
  obtain ⟨loc, hreaches, hscript, hpost, hstorage, b, hb, hline⟩ := h
  have hname : uploadName req.URL ({} : World).now = extractFilenameFromUrl req.URL := by
    rw [uploadName, if_neg (List.ne_nil_of_mem hb)]
  have hinfix : ¬ crlf <:+: extractFilenameFromUrl req.URL := by
    refine Request.UnbrokenUrl.of_infix hreq ?_
    unfold extractFilenameFromUrl
    split
    · exact List.nil_infix
    · split_ifs
      · exact List.nil_infix
      · exact (List.drop_suffix _ _).isInfix
  obtain ⟨q, hq⟩ : ∃ q, q = { req with body := {} } := ⟨_, rfl⟩
  have hreaches' : Reaches config loc q := by
    rw [hq]
    exact ⟨hreaches.statusCode, hreaches.location, hreaches.allowed, hreaches.returnCode⟩
  obtain ⟨dest, hdest⟩ : ∃ dest, dest = cstr (loc.storageLocation ++ [slash] ++ uploadName q.URL ({} : World).now) := ⟨_, rfl⟩
  obtain ⟨r, hr⟩ : ∃ r, r = postOpened config q dest (uploadName q.URL ({} : World).now) {} := ⟨_, rfl⟩
  obtain ⟨w, hw⟩ : ∃ w : World, w = { ({} : World) with
    tick := 1, calls := [.openWrite dest true], uploads := Function.update (fun _ => []) dest [] } := ⟨_, rfl⟩
  have hopened : sysOpenWrite Sys.calm (loc.storageLocation ++ [slash] ++ uploadName q.URL ({} : World).now)
      (addCookie q { ({} : Response) with cachedConfig := some config }, {}) =
        (.ok (some { path := dest }), addCookie q { ({} : Response) with cachedConfig := some config }, w) := by
    rw [hw, hdest]
    rfl
  have hidle : Idle {} := ⟨nofun, nofun⟩
  -- an empty body is written at once
  have hrun : buildResponse Sys.calm config ((q, {}), {}) = (do
      onRes (finishPost Sys.calm)
      return true : Method Exchange Bool) ((q, r), w) := by
    rw [buildResponse_reached hreaches' hidle, if_neg (by rwa [hq]), handleMethod, show q.methodName = .POST by rw [hq, ← hpost]]
    dsimp only
    rw [handlePost_opened Sys.calm hstorage config hopened, hr, hw, hq]
    rfl
  have hempty : r.responseDataStore.Holds w [] := by
    rw [hr]
    exact DataStore.holds_new _
  obtain ⟨r', w', hfinish, pre, post, hblock⟩ := finishPost_names Sys.calm_noFail hempty
  have hanswer : Answering DatesInLine config req (buildResponse Sys.calm config ((q, {}), {})).2.1 := by
    rw [hq]
    exact .build (.start {}) fun _ _ hb => absurd hb List.not_mem_nil
  have hend : (buildResponse Sys.calm config ((q, {}), {})).2.1 = (q, r') := by
    rw [hrun, Eff.bind_ok (onRes_eq hfinish)]
    rfl
  rw [hend] at hanswer
  have hfile : r.postFilename = extractFilenameFromUrl req.URL := by
    rw [hr, ← hname, hq]
    rfl
  rw [hfile] at hblock
  refine ⟨_, hanswer, ?_, ?_⟩
  · show r'.headerBuffer ≠ []
    rw [hblock]
    simp
  · show ¬ CleanLines r'.headerBuffer
    rw [hblock]
    exact not_cleanLines hinfix hb hline

theorem worded_start : Worded lineRule {} := by
  have hphrase : ∀ b ∈ ascii "OK", LineByte b := by decide
  have hcode : ∀ b ∈ ascii "200", LineByte b := by decide
  have hnone : ∀ e ∈ (∅ : StrMap).entries, (∀ b ∈ e.1, LineByte b) ∧ ∀ b ∈ e.2, LineByte b :=
    fun _ h => absurd h List.not_mem_nil
  exact ⟨⟨rfl, hcode, hphrase, hnone, fun _ h => absurd h List.not_mem_nil⟩, fun _ h => absurd h List.not_mem_nil, .inl rfl⟩

/-- For a configuration that the parser accepts and a received request, all header blocks have their own lines and no
other if and only if the request is no upload whose file name holds a CR or an LF. -/
theorem answers_in_lines_iff {resolve : Bytes → Option Nat} {filePath content : Bytes} {confs : List ServerConf}
    (hparse : ConfigParser.parse resolve filePath (.text content) = .ok confs) (hconf : config ∈ confs) (hreq : req.Received) :
    (∀ x, Answering DatesInLine config req x → x.2.headerBuffer = [] ∨ InLines x.2) ↔ ¬ NamesLine config req := by
  constructor
  · intro h hnames
    obtain ⟨x, hx, hne, hbroken⟩ := answering_names hreq.unbrokenUrl hnames
    exact (h x hx).elim hne fun hlines => hbroken hlines.cleanLines
  · intro hnames x hx
    have hredirects := ConfigParser.parse_redirects hparse hconf
    have hcode : req.statusCode ≠ ascii "200" → lineRule.code req.statusCode := by
      intro hstatus
      have hreject : ∀ code ∈ Request.rejectCodes, ∀ b ∈ code, LineByte b := by decide
      exact hreject _ (hreq.settled.mem (hreq.settled.status_iff.1 hstatus))
    have hanswerable : Answerable lineRule config req := by
      refine ⟨fun loc _ hloc _ _ => hredirects loc (matchLocation_mem hloc), ?_⟩
      intro loc hreaches hscript hpost hstorage b hb
      by_contra hline
      exact hnames ⟨loc, hreaches, hscript, hpost, hstorage, b, hb, hline⟩
    obtain ⟨-, hworded⟩ := hx.worded (fun _ hsys => admits_lineRule hsys) worded_start hcode hanswerable
    exact hworded.inLines

/-- A file with one location for uploads. -/
def uploadFile : Bytes := ascii "server \x7b location / \x7b methods POST; upload_store /up; \x7d \x7d"

theorem parse_uploadFile : ConfigParser.parse (fun _ => none) [] (.text uploadFile) = .ok [uploadServer] := by decide +kernel

/-- The request for a POST to this URL. -/
def postTo (url : Bytes) : Request :=
  (Request.parseHeaders (ascii "POST " ++ url ++ ascii " HTTP/1.0\r\nContent-Length: 0\r\n\r\n") {}).2

theorem answers_in_lines_iff_photo : ¬ NamesLine uploadServer (postTo (ascii "/photo.jpg")) ∧
    ∀ x, Answering DatesInLine uploadServer (postTo (ascii "/photo.jpg")) x → x.2.headerBuffer = [] ∨ InLines x.2 := by
  have hname : ∀ b ∈ extractFilenameFromUrl (postTo (ascii "/photo.jpg")).URL, LineByte b := by decide +kernel
  have hnames : ¬ NamesLine uploadServer (postTo (ascii "/photo.jpg")) := by
    rintro ⟨_, -, -, -, -, b, hb, hline⟩
    exact hline (hname b hb)
  exact ⟨hnames, (answers_in_lines_iff parse_uploadFile (List.mem_singleton_self _) (.parsed _ 0)).2 hnames⟩

/-- A line feed in the URL of an upload begins a line of its own in the answer. -/
theorem answers_in_lines_fails : ¬ ∀ (content : Bytes) (confs : List ServerConf) (config : ServerConf) (req : Request),
    ConfigParser.parse (fun _ => none) [] (.text content) = .ok confs → config ∈ confs → req.Received →
      ∀ x, Answering DatesInLine config req x → x.2.headerBuffer = [] ∨ InLines x.2 := by
  intro hall
  have hreceived : (postTo (ascii "/a\nX:1")).Received := .parsed _ 0
  have hloc : matchLocation (postTo (ascii "/a\nX:1")).URL uploadServer = some uploadLocation := by decide +kernel
  have hnames : NamesLine uploadServer (postTo (ascii "/a\nX:1")) := by
    refine ⟨uploadLocation, ⟨?_, hloc, ?_, ?_⟩, ?_, ?_, ?_, LF, ?_, ?_⟩
    all_goals decide +kernel
  obtain ⟨x, hx, hne, hbroken⟩ := answering_names hreceived.unbrokenUrl hnames
  have hlines := hall uploadFile _ uploadServer _ parse_uploadFile (List.mem_singleton_self _) hreceived x hx
  exact hlines.elim hne fun h => hbroken h.cleanLines

end Response

end LeftHookRoll
