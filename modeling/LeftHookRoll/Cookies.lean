import Mathlib
import LeftHookRoll.HeaderSyntax

/-!
# The cookies of a request

`CookieToken cookie text`: `text` may stand between two separators of a `Cookie` header, and says `cookie`
or nothing. `parseCookies` reads the tokens one by one (`parseCookieToken_pair`, `parseCookieToken_none`),
so that the last pair of a name counts.
-/

namespace LeftHookRoll

/-! ### Blanks around an equals sign -/

theorem not_isspace_eq : ¬ isspace 61 := by decide

theorem eq_not_mem_blanks {a : Bytes} (ha : ∀ c ∈ a, isspace c) : 61 ∉ a := fun h => not_isspace_eq (ha 61 h)

theorem semicolon_not_mem_blanks {a : Bytes} (ha : ∀ c ∈ a, isspace c) : 59 ∉ a := fun h =>
  absurd (ha 59 h) (by decide)

/-- Blanks are taken off the end up to an equals sign. -/
theorem rdropWhile_eq (s t : Bytes) : (s ++ 61 :: t).rdropWhile isspace = s ++ 61 :: t.rdropWhile isspace := by
  have hstop : (61 :: s.reverse).dropWhile isspace = 61 :: s.reverse := dropWhile_of_head (by simp [isspace])
  have hdrop : (t.reverse ++ 61 :: s.reverse).dropWhile isspace = t.reverse.dropWhile isspace ++ 61 :: s.reverse := by
    rw [List.dropWhile_append]
    split
    · rename_i hnil
      rw [hstop, List.isEmpty_iff.1 hnil, List.nil_append]
    · rfl
  simp [List.rdropWhile, hdrop]

/-- Stripping twice is stripping once. -/
theorem strip_rdropWhile {c s d : Bytes} (hc : ∀ x ∈ c, isspace x) (hd : ∀ x ∈ d, isspace x) (hs : Trimmed s) :
    strip ((c ++ s ++ d).rdropWhile isspace) = s := by
  have hdrop : (c ++ s ++ d).rdropWhile isspace = (c ++ s).rdropWhile isspace := by
    rw [List.rdropWhile, List.reverse_append, dropWhile_append_of_pos fun x hx => hd x (List.mem_reverse.1 hx)]
    rfl
  rw [hdrop]
  rcases eq_or_ne s [] with rfl | hne
  · have hnil : (c ++ []).rdropWhile isspace = [] := by
      rw [List.append_nil, List.rdropWhile, List.dropWhile_eq_nil_iff.2 fun x hx => hc x (List.mem_reverse.1 hx)]
      rfl
    rw [hnil]
    rfl
  · have hlast : ∀ x ∈ (c ++ s).reverse.head?, ¬ isspace x := by
      rw [List.head?_reverse, List.getLast?_append_of_ne_nil c hne]
      exact hs.2
    rw [List.rdropWhile, dropWhile_of_head hlast, List.reverse_reverse]
    simpa using strip_blanks hc (b := []) (by simp) hs

/-! ### Tokens -/

/-- What may stand between two separators, and the pair that it says. -/
inductive CookieToken : Option (Bytes × Bytes) → Bytes → Prop
  | pair {a name b c value d : Bytes} (hblank : ∀ x ∈ a ++ b ++ c ++ d, isspace x) (hne : name ≠ [])
      (hname : 59 ∉ name ∧ 61 ∉ name) (hvalue : 59 ∉ value) (htrim : Trimmed name ∧ Trimmed value) :
      CookieToken (some (name, value)) (a ++ name ++ b ++ 61 :: (c ++ value ++ d))
  | noSign {text : Bytes} (h : 59 ∉ text) (hsign : 61 ∉ text) : CookieToken none text
  | noName {a rest : Bytes} (hblank : ∀ x ∈ a, isspace x) (h : 59 ∉ rest) : CookieToken none (a ++ 61 :: rest)

namespace CookieToken

variable {cookie : Option (Bytes × Bytes)} {text : Bytes}

theorem semicolon_not_mem (h : CookieToken cookie text) : 59 ∉ text := by
  cases h with
  | pair hblank _ hname hvalue =>
    have hsep := semicolon_not_mem_blanks hblank
    simp only [List.mem_append, List.mem_cons, not_or] at hsep ⊢
    exact ⟨⟨⟨hsep.1.1.1, hname.1⟩, hsep.1.1.2⟩, by decide, ⟨hsep.1.2, hvalue⟩, hsep.2⟩
  | noSign h => exact h
  | noName hblank h =>
    simp only [List.mem_append, List.mem_cons, not_or]
    exact ⟨semicolon_not_mem_blanks hblank, by decide, h⟩

end CookieToken

namespace Request

/-- A token with an equals sign, when what is before it has no other. -/
theorem parseCookieToken_eq {key rest : Bytes} (hkey : 61 ∉ key) (hhead : ∀ c ∈ key.head?, ¬ isspace c) {a : Bytes}
    (ha : ∀ c ∈ a, isspace c) (hsmall : (a ++ key ++ 61 :: rest).length < 2 ^ 31) (cookies : StrMap) :
    parseCookieToken (a ++ key ++ 61 :: rest) cookies =
      if strip key = [] then cookies else cookies.insert (strip key) (strip (rest.rdropWhile isspace)) := by
  have hfront : ∀ c ∈ (key ++ 61 :: rest).head?, ¬ isspace c := by
    rcases key with _ | ⟨c, key⟩
    · simp [isspace]
    · exact hhead
  have htrim : trim (a ++ key ++ 61 :: rest) = key ++ 61 :: rest.rdropWhile isspace := by
    rw [trim_eq hsmall, strip, List.append_assoc, dropWhile_append_of_pos ha, dropWhile_of_head hfront, rdropWhile_eq]
  have hidx : (key ++ 61 :: rest.rdropWhile isspace).idxOf? 61 = some key.length :=
    List.idxOf?_append_cons hkey _
  simp only [List.length_append, List.length_cons] at hsmall
  have hname : key.length < 2 ^ 31 := by omega
  have hvalue : (rest.rdropWhile isspace).length < 2 ^ 31 := by
    have := (List.rdropWhile_prefix isspace rest).length_le
    omega
  rw [parseCookieToken, htrim, hidx]
  simp [trim_eq hname, trim_eq hvalue]

theorem parseCookieToken_pair {name value text : Bytes} (h : CookieToken (some (name, value)) text)
    (hsmall : text.length < 2 ^ 31) (cookies : StrMap) :
    parseCookieToken text cookies = cookies.insert name value := by
  cases h with
  | @pair a _ b c _ d hblank hne hname hvalue htrim =>
    simp only [List.forall_mem_append] at hblank
    obtain ⟨⟨⟨ha, hb⟩, hc⟩, hd⟩ := hblank
    have hkey : strip (name ++ b) = name := by simpa using strip_blanks (a := []) (by simp) hb htrim.1
    have hhead : ∀ x ∈ (name ++ b).head?, ¬ isspace x := by
      rw [List.head?_append_of_ne_nil name hne]
      exact htrim.1.1
    have hsign : 61 ∉ name ++ b := List.not_mem_append hname.2 (eq_not_mem_blanks hb)
    rw [List.append_assoc a] at hsmall ⊢
    rw [parseCookieToken_eq hsign hhead ha hsmall, hkey, if_neg hne, strip_rdropWhile hc hd htrim.2]

theorem parseCookieToken_none {text : Bytes} (h : CookieToken none text) (hsmall : text.length < 2 ^ 31)
    (cookies : StrMap) : parseCookieToken text cookies = cookies := by
  cases h with
  | noSign _ hsign =>
    have hnone : (trim text).idxOf? 61 = none := by
      rw [trim_eq hsmall, List.idxOf?_eq_none_iff]
      exact fun hmem => hsign ((List.dropWhile_suffix _).mem ((List.rdropWhile_prefix _ _).mem hmem))
    rw [parseCookieToken, hnone]
  | @noName a rest hblank =>
    have h := @parseCookieToken_eq [] rest (by simp) (by simp) a hblank (by simpa using hsmall) cookies
    simpa [strip] using h

theorem foldl_parseCookieToken {cookies : List (Option (Bytes × Bytes))} {texts : List Bytes}
    (h : List.Forall₂ CookieToken cookies texts) (hsmall : ∀ text ∈ texts, text.length < 2 ^ 31) (m : StrMap) :
    texts.foldl (fun m t => parseCookieToken t m) m = cookies.reduceOption.foldl (fun m e => m.insert e.1 e.2) m := by
  induction h generalizing m with
  | nil => rfl
  | @cons cookie text cookies texts htoken _ ih =>
    obtain ⟨htext, hrest⟩ := List.forall_mem_cons.1 hsmall
    rw [List.foldl_cons, ih hrest]
    rcases cookie with _ | ⟨name, value⟩
    · rw [parseCookieToken_none htoken htext, List.reduceOption_cons_of_none]
    · rw [parseCookieToken_pair htoken htext, List.reduceOption_cons_of_some, List.foldl_cons]

/-- The separators of a `Cookie` header are where the tokens were joined. -/
theorem foldl_tokens {cookies : List (Option (Bytes × Bytes))} {texts : List Bytes}
    (h : List.Forall₂ CookieToken cookies texts) (m : StrMap) :
    (([59].intercalate texts).splitOn 59).foldl (fun m t => parseCookieToken t m) m =
      texts.foldl (fun m t => parseCookieToken t m) m := by
  have hsep : ∀ text ∈ texts, 59 ∉ text := by
    induction h with
    | nil => simp
    | cons htoken _ ih => exact List.forall_mem_cons.2 ⟨htoken.semicolon_not_mem, ih⟩
  rcases eq_or_ne texts [] with rfl | hne
  · rfl
  · rw [List.splitOn_intercalate 59 hsep hne]

/-- Each of the texts is part of the header. -/
theorem length_le_intercalate {texts : List Bytes} {text : Bytes} (h : text ∈ texts) :
    text.length ≤ ([59].intercalate texts).length := by
  induction texts with
  | nil => cases h
  | cons first rest ih =>
    rcases rest with _ | ⟨next, rest⟩
    · rw [List.mem_singleton.1 h, List.intercalate_singleton]
    · rw [List.intercalate_cons_cons, List.length_append, List.length_append]
      rcases List.mem_cons.1 h with rfl | h
      · omega
      · have := ih h
        omega

theorem find?_parseCookies {cookies : List (Option (Bytes × Bytes))} {texts : List Bytes}
    (h : List.Forall₂ CookieToken cookies texts) (hsmall : ([59].intercalate texts).length < 2 ^ 31) (q : Request)
    (name : Bytes) : (parseCookies ([59].intercalate texts) { q with cookies := ∅ }).cookies.find? name =
      (cookies.reduceOption.filter fun e => e.1 = name).getLast?.map (·.2) := by
  rw [parseCookies, foldl_tokens h,
    foldl_parseCookieToken h fun text htext => (length_le_intercalate htext).trans_lt hsmall]
  exact OrdMap.find?_ofPairs _ _

/-! ### The header of a request -/

theorem parseRequestLine_cookies (line : Bytes) (q : Request) : (parseRequestLine line q).cookies = q.cookies := by
  have hquery (q : Request) : q.extractQueryFromURL.cookies = q.cookies := by
    rw [extractQueryFromURL]
    split <;> rfl
  rw [parseRequestLine]
  split
  · rfl
  simp only
  split
  · rfl
  split
  · split
    · rfl
    · exact hquery _
  · split
    · rfl
    split
    · rfl
    · exact hquery _

theorem parseHeaderLine_cookies (line : Bytes) (q : Request) : (parseHeaderLine line q).cookies = q.cookies := by
  rw [parseHeaderLine]
  split
  · rfl
  · simp only
    split_ifs <;> rfl

theorem parseLines_cookies (lines : List Bytes) (firstLine : Bool) (q : Request) :
    (parseLines lines firstLine q).cookies = q.cookies := by
  induction lines generalizing firstLine q with
  | nil => rfl
  | cons line rest ih =>
    rw [parseLines]
    split_ifs
    · exact ih firstLine q
    · rw [ih, parseRequestLine_cookies]
    · rw [ih, parseHeaderLine_cookies]

/-- The cookies of a request are those of its last `Cookie` line. -/
theorem parseBlock_cookies (block : Bytes) (q : Request) : (parseBlock block q).cookies =
    match (parseBlock block q).headers.find? (ascii "cookie") with
    | some header => (parseCookies header { q with cookies := ∅ }).cookies
    | none => ∅ := by
  obtain ⟨p, hp⟩ : ∃ p, p = parseLines (headerLines block) true { q with cookies := ∅ } := ⟨_, rfl⟩
  have hnone : p.cookies = ∅ := by rw [hp, parseLines_cookies]
  obtain ⟨r, hr⟩ : ∃ r, r = if p.reqState ≠ .REQ_ERROR then p.typeOfReq else p := ⟨_, rfl⟩
  have htype : r.cookies = p.cookies := by
    rw [hr]
    split_ifs
    · unfold typeOfReq
      simp only
      split_ifs <;> rfl
    · rfl
  have hblock : parseBlock block q = match r.headers.find? (ascii "cookie") with
      | some header => parseCookies header r
      | none => r := by
    subst hr hp
    rfl
  rw [hblock]
  rcases hfind : r.headers.find? (ascii "cookie") with _ | header
  · simp only [hfind, htype, hnone]
  · simp only [parseCookies, hfind, htype, hnone]

/-- The value of the last pair of a name, in the cookies of a request. -/
def LastPairs (cookies : List (Option (Bytes × Bytes))) (q : Request) : Prop :=
  ∀ name, q.cookies.find? name = (cookies.reduceOption.filter fun e => e.1 = name).getLast?.map (·.2)

/-- A name has the value of its last pair; nothing else in the header counts, whatever the rest of the block is. The
header must not be too long for an `int`; `readHeaders` takes at most `MAX_HEADER_SIZE` bytes. -/
theorem getCookies_tokens {cookies : List (Option (Bytes × Bytes))} {texts : List Bytes}
    (h : List.Forall₂ CookieToken cookies texts) (hsmall : ([59].intercalate texts).length < 2 ^ 31) (q : Request) :
    LastPairs cookies (parseCookies ([59].intercalate texts) { q with cookies := ∅ }) ∧
      ∀ block, (parseBlock block q).headers.find? (ascii "cookie") = some ([59].intercalate texts) →
        LastPairs cookies (parseBlock block q) := by
  refine ⟨find?_parseCookies h hsmall q, fun block hblock name => ?_⟩
  rw [parseBlock_cookies, hblock]
  exact find?_parseCookies h hsmall _ name

/-- A pair with blanks and a second sign, an empty token, one without a name, the name again, a separator at the end. -/
def twiceBlock : Bytes := ascii "GET / HTTP/1.1" ++ crlf ++ ascii "Cookie: a = b=c;; =x;a=2;"

theorem getCookies_tokens_twice : (parseBlock twiceBlock {}).cookies.find? (ascii "a") = some (ascii "2") := by
  have htrim (c : UInt8) (h : ¬ isspace c) : Trimmed [c] := by simpa [Trimmed] using h
  have hfirst : CookieToken (some (ascii "a", ascii "b=c")) (ascii "a = b=c") :=
    .pair (a := []) (b := [32]) (c := [32]) (d := []) (by simp [isspace]) (by simp [ascii]) (by decide) (by decide)
      ⟨htrim 97 (by decide), by simp [Trimmed, ascii, isspace]⟩
  have hagain : CookieToken (some (ascii "a", ascii "2")) (ascii "a=2") :=
    .pair (a := []) (b := []) (c := []) (d := []) (by simp) (by simp [ascii]) (by decide) (by decide)
      ⟨htrim 97 (by decide), htrim 50 (by decide)⟩
  have hnone : CookieToken none [] := .noSign List.not_mem_nil List.not_mem_nil
  have hnoName : CookieToken none (ascii " =x") := .noName (a := [32]) (by simp [isspace]) (by decide)
  have htokens := List.Forall₂.cons hfirst (.cons hnone (.cons hnoName (.cons hagain (.cons hnone .nil))))
  have hsmall : ([59].intercalate [ascii "a = b=c", [], ascii " =x", ascii "a=2", []]).length < 2 ^ 31 := by
    decide +kernel
  have hheader : (parseBlock twiceBlock {}).headers.find? (ascii "cookie") =
      some ([59].intercalate [ascii "a = b=c", [], ascii " =x", ascii "a=2", []]) := by decide +kernel
  exact ((getCookies_tokens htokens hsmall {}).2 twiceBlock hheader (ascii "a")).trans (by decide +kernel)

end Request

end LeftHookRoll
