import LeftHookRoll.ConfigParser
import LeftHookRoll.Routing
import LeftHookRoll.ServerLives
import LeftHookRoll.ServerReach

/-!
# The status line

The rule for header blocks here is that of their first line: three digits and a phrase on one line. In
every run it holds for every block, as long as no request is answered by a redirection whose configured
code is not three digits (`reach_statusLine`); the parser takes any digits for such a code.
-/

namespace LeftHookRoll

open Eff

def ThreeDigits (code : Bytes) : Prop := code.length = 3 ∧ ∀ d ∈ code, isdigit d

instance (code : Bytes) : Decidable (ThreeDigits code) := inferInstanceAs (Decidable (_ ∧ _))

/-- The block starts with a status line. -/
def StatusLine (block : Bytes) : Prop :=
  ∃ code phrase rest, block = ascii "HTTP/1.0 " ++ code ++ ascii " " ++ phrase ++ crlf ++ rest ∧ ThreeDigits code ∧ LF ∉ phrase

/-- The rule for the first line. -/
def statusRule : HeaderRule where
  code := ThreeDigits
  phrase b := b ≠ LF
  text _ := True

theorem admits_statusRule (sys : Sys) : statusRule.Admits sys where
  codes := by
    show ∀ code ∈ ownCodes, ThreeDigits code
    decide
  phrase b hb heq := by
    rw [heq] at hb
    exact absurd hb (by decide)
  text _ _ := trivial
  date _ _ _ := trivial

theorem admitsScripts_statusRule : Response.AdmitsScripts statusRule where
  code _ hlength hdigits := ⟨hlength, List.all_eq_true.1 hdigits⟩
  phrase _ h := h
  text _ _ := trivial

theorem Response.Meets.statusLine {r : Response} (h : Response.Meets statusRule r) : StatusLine r.generateHeaderString := by
  refine ⟨r.statusCode, r.responsePhrase, r.headers.entries.flatMap (fun h => h.1 ++ ascii ": " ++ h.2 ++ crlf) ++
    r.setCookies.flatMap (fun c => ascii "Set-Cookie: " ++ c ++ crlf) ++ crlf, ?_, h.code, fun hlf => h.phrase LF hlf rfl⟩
  have hstart : ascii "HTTP/1.0" ++ ascii " " = ascii "HTTP/1.0 " := by decide
  rw [generateHeaderString, h.version, hstart]
  simp only [List.append_assoc]

theorem StatusLine.digits {block : Bytes} (h : StatusLine block) : ThreeDigits ((block.drop 9).take 3) := by
  obtain ⟨code, phrase, rest, rfl, hcode, -⟩ := h
  have hstart : (ascii "HTTP/1.0 ").length = 9 := by decide
  rw [List.append_assoc, List.append_assoc, List.append_assoc, List.append_assoc, ← hstart, List.drop_left, ← hcode.1,
    List.take_left]
  exact hcode

namespace Connection

/-- The header block, if one was built, starts with a status line. -/
def HasStatusLine (c : Connection) : Prop := c.response.headerBuffer = [] ∨ StatusLine c.response.headerBuffer

theorem Sound.hasStatusLine {c : Connection} (h : Sound statusRule c) : HasStatusLine c := by
  rcases h.worded.block with hnone | ⟨r, hr, -, -, hblock⟩
  · exact .inl hnone
  · exact .inr (hblock ▸ hr.statusLine)

/-- The decoded request is answered by the redirection of `loc`. -/
structure RedirectsBy (c : Connection) (loc : LocationConf) : Prop where
  redirects : ∃ q conf, Decoded c.request q ∧ c.serverConf = some conf ∧ q.statusCode = ascii "200" ∧
    matchLocation q.URL conf = some loc ∧ loc.isMethodAllowed q.methodName
  returnCode : loc.returnCode ≠ []

/-- A redirection that the request is answered by has a code of three digits. -/
def RedirectsWell (c : Connection) : Prop := ∀ loc, RedirectsBy c loc → ThreeDigits loc.returnCode

theorem RedirectsWell.answerableBy {c : Connection} (h : RedirectsWell c) : AnswerableBy statusRule c := by
  intro q conf hq hconf
  refine ⟨fun loc hstatus hloc hallowed hreturn => ⟨h loc ⟨⟨q, conf, hq, hconf, hstatus, hloc, hallowed⟩, hreturn⟩, ?_⟩, ?_⟩
  · exact fun _ _ => trivial
  · exact fun _ _ _ _ _ _ _ => trivial

theorem Lives.hasStatusLine {c : Connection} (h : Lives (fun _ => True) RedirectsWell c) : HasStatusLine c :=
  (h.sound Sys.calm trivial (fun sys _ => admits_statusRule sys) admitsScripts_statusRule
    fun _ => RedirectsWell.answerableBy).hasStatusLine

end Connection

namespace ServerManager

open Connection

/-- In every run in which no request is answered by a redirection with a code that is not three digits, every
header block starts with a status line, also that of a turn that throws. -/
theorem reach_statusLine {k : Kernel} {p : Point} {s : ServerState} (h : ReachIf k RedirectsWell p s) :
    Everywhere HasStatusLine s ∧ (TurnMeets RedirectsWell p s → Everywhere HasStatusLine (next k p s).2) := by
  have hlive := lives_of_reach h
  refine ⟨fun conn c hc => (hlive conn c hc).hasStatusLine, fun hC conn c hc => ?_⟩
  exact ((leads_next hlive hC).1 conn c hc).hasStatusLine

/-! ### A redirection with one digit -/

def oneDigit : Bytes := ascii "server \x7b location / \x7b methods GET; return 7 /x; \x7d \x7d"

def oneDigitConf : ServerConf where
  locations := [{ path := [slash], allowedMethods := ⟨1⟩, returnCode := ascii "7", returnURL := ascii "/x" }]

theorem parse_oneDigit : ConfigParser.parse (fun _ => none) [] (.text oneDigit) = .ok [oneDigitConf] := by decide +kernel

/-- A server with one listening socket, for a configuration. -/
def listeningFor (conf : ServerConf) : ServerState :=
  ({ listening.1 with listenFdToServerConf := OrdMap.empty.insert 3 (some conf) }, {})

theorem listeningFor_fresh (conf : ServerConf) : Fresh (listeningFor conf).1 := by
  obtain ⟨h₁, h₂, h₃, h₄, h₅, h₆, h₇⟩ := listening_fresh
  exact ⟨h₁, h₂, h₃, h₄, h₅, h₆, h₇⟩

/-- No connection is processed in this turn. -/
def idle : Point → ServerState → Bool
  | .roundRobin _, s => s.1.processingQueue = []
  | _, _ => true

theorem turnMeets_of_idle {C : Connection → Prop} {p : Point} {s : ServerState} (h : idle p s = true) : TurnMeets C p s := by
  cases p with
  | roundRobin processed =>
    intro conn queue hcons
    rw [idle, decide_eq_true_eq, hcons] at h
    cases h
  | _ => trivial

theorem ReachIf.after {k : Kernel} {C : Connection → Prop} {n : Nat} {p p' : Point} {s s' : ServerState} (h : ReachIf k C p s)
    (hidle : ∀ m < n, ∀ q t, ServerManager.after k m p s = some (q, t) → idle q t = true)
    (hafter : ServerManager.after k n p s = some (p', s')) : ReachIf k C p' s' := by
  induction n generalizing p s with
  | zero =>
    cases hafter
    exact h
  | succ n ih =>
    have hfirst := hidle 0 (Nat.succ_pos n) p s rfl
    rw [ServerManager.after] at hafter
    split at hafter
    · rename_i p₁ s₁ hrun
      refine ih (h.next (turnMeets_of_idle hfirst) hrun) (fun m hm q t hq => ?_) hafter
      refine hidle (m + 1) (Nat.succ_lt_succ hm) q t ?_
      rw [ServerManager.after, hrun]
      exact hq
    · cases hafter

/-- A file whose redirection has three digits. -/
def threeDigitsConf : ServerConf where
  locations := [{ path := [slash], allowedMethods := ⟨1⟩, returnCode := ascii "301", returnURL := ascii "/x" }]

theorem Connection.redirectsWell_of_conf {c : Connection} {conf : ServerConf} (hconf : c.serverConf = some conf)
    (h : ∀ loc ∈ conf.locations, loc.returnCode = [] ∨ ThreeDigits loc.returnCode) : RedirectsWell c := by
  rintro loc ⟨⟨q, conf', -, hconf', -, hloc, -⟩, hreturn⟩
  rw [hconf] at hconf'
  cases hconf'
  exact (h loc (matchLocation_mem hloc)).resolve_left hreturn

/-- The header block that the only client gets, after so many turns. -/
def blockAfter (conf : ServerConf) (n : Nat) : Option (Option Bytes) :=
  (after oneClient n (.roundRobin 0) (listeningFor conf)).map fun x => (x.2.1.heap.find? 1).map fun c => c.response.headerBuffer

/-- The answer to a request that a location with `return 301` redirects. -/
theorem reach_statusLine_threeDigits : ∃ s, after oneClient 12 (.roundRobin 0) (listeningFor threeDigitsConf) = some (.roundRobin 0, s) ∧
    s.1.processingQueue = [1] ∧ Everywhere HasStatusLine (next oneClient (.roundRobin 0) s).2 := by
  have hrun : (after oneClient 12 (.roundRobin 0) (listeningFor threeDigitsConf)).map (fun x =>
      (x.1, x.2.1.processingQueue, (x.2.1.heap.find? 1).map (·.serverConf))) =
        some (.roundRobin 0, [1], some (some threeDigitsConf)) := by decide +kernel
  have hidle : ∀ m < 12, (after oneClient m (.roundRobin 0) (listeningFor threeDigitsConf)).map (fun x =>
      idle x.1 x.2) = some true := by decide +kernel
  obtain ⟨⟨p, s⟩, hafter, heq⟩ := Option.map_eq_some_iff.1 hrun
  simp only [Prod.mk.injEq] at heq
  obtain ⟨rfl, hqueue, hconf⟩ := heq
  have hreach := (ReachIf.start (C := RedirectsWell) (listeningFor_fresh threeDigitsConf)).after (fun m hm q t hq => ?_) hafter
  · refine ⟨s, hafter, hqueue, (reach_statusLine hreach).2 fun conn queue hcons _ _ c hc _ => ?_⟩
    rw [hqueue] at hcons
    cases hcons
    rw [hc] at hconf
    exact Connection.redirectsWell_of_conf (Option.some.inj hconf) (by decide)
  · have := hidle m hm
    rw [hq] at this
    exact Option.some.inj this

/-- A file that the parser accepts makes the server answer with a status of one digit. -/
theorem statusLine_fails : ¬ ∀ content confs, ConfigParser.parse (fun _ => none) [] (.text content) = .ok confs →
    ∀ (k : Kernel) (s₀ : ServerState), Fresh s₀.1 →
      (∀ fd conf, s₀.1.listenFdToServerConf.find? fd = some (some conf) → conf ∈ confs) →
      ∀ (n : Nat) (p : Point) (s : ServerState), after k n (.roundRobin 0) s₀ = some (p, s) → Everywhere HasStatusLine s := by
  intro hall
  have hrun : (blockAfter oneDigitConf 13).map (·.map fun block => (block.drop 9).take 3) = some (some (ascii "7 U")) := by
    decide +kernel
  obtain ⟨found, hblock, hfound⟩ := Option.map_eq_some_iff.1 hrun
  obtain ⟨⟨p, s⟩, hafter, rfl⟩ := Option.map_eq_some_iff.1 hblock
  obtain ⟨block, hheap, hdigits⟩ := Option.map_eq_some_iff.1 hfound
  obtain ⟨c, hc, rfl⟩ := Option.map_eq_some_iff.1 hheap
  have hline := hall oneDigit _ parse_oneDigit oneClient (listeningFor oneDigitConf) (listeningFor_fresh _) ?_ 13 p s hafter 1 c hc
  · rcases hline with hnone | hline
    · rw [hnone] at hdigits
      exact absurd hdigits (by decide)
    · have := hline.digits
      rw [hdigits] at this
      exact absurd this (by decide)
  · intro fd conf hconf
    rcases OrdMap.find?_insert_eq_some.1 hconf with ⟨-, hconf⟩ | ⟨-, hconf⟩
    · rw [← Option.some.inj hconf]
      exact List.mem_singleton_self _
    · cases hconf

end ServerManager

end LeftHookRoll
