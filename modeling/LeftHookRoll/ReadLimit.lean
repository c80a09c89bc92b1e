import LeftHookRoll.CountedBody

/-!
# The body limit while a chunked body is read

The decoder applies the limit, and it runs when the reading has ended. `Stage.says_after` tells from the
segments whether a chunked body is still being read; its store then has all that was received of it.
-/

namespace LeftHookRoll

open Eff

namespace Connection

variable {sys : Sys} {q₀ : Request} {c c' : Connection} {w w' : World}

/-! ### A chunked body that does not end -/

theorem isChunkedDone_eq_false_iff (p : Bytes) :
    Request.isChunkedDone p = false ↔ ¬ ascii "0\r\n\r\n" <:+: p := by
  rw [← List.findSub_isSome_iff, Bool.not_eq_true, Request.isChunkedDone]

/-- `segs` are the headers of a chunked request, up to `e`, and pieces of a body none of which holds the marker. -/
structure Unended (q₀ : Request) (segs : List Bytes) (e : Nat) : Prop where
  ends : segs.flatten.findSub crlfcrlf = some e
  small : fill (e + 4) segs ≤ MAX_HEADER_SIZE
  chunked : (Request.parseBlock (segs.flatten.take e) q₀).reqState = .REQ_CHUNKED
  no_marker : ∀ p ∈ bodyPieces (e + 4) segs, ¬ ascii "0\r\n\r\n" <:+: p

theorem fill_append_of_short {h : Nat} {segs : List Bytes} (hlt : segs.flatten.length < h) (more : List Bytes) :
    fill h (segs ++ more) = segs.flatten.length + fill (h - segs.flatten.length) more := by
  induction segs generalizing h with
  | nil => simp
  | cons s segs ih =>
    rw [List.flatten_cons, List.length_append] at hlt ⊢
    rw [List.cons_append, fill, if_pos (by omega), ih (by omega), Nat.sub_sub, Nat.add_assoc]

theorem Unended.after {segs : List Bytes} {e : Nat} (h : Unended q₀ segs e) : Stage.after q₀ segs =
    .body (Request.parseBlock (segs.flatten.take e) q₀) (segs.flatten.drop (e + 4)) := by
  have hle : e + 4 ≤ segs.flatten.length := List.findSub_add_le h.ends
  have hstop := stopAt_eq_none_iff.2 fun p hp => (isChunkedDone_eq_false_iff p).2 (h.no_marker p hp)
  rw [Stage.after_cut h.ends ((le_fill hle).trans h.small) rfl, Stage.ofCut, if_neg (by have := h.small; omega),
    Stage.ofRequest, h.chunked]
  simp only
  rw [Stage.foldl_chunked h.chunked, hstop, flatten_bodyPieces hle]
  rfl

/-- What the stage says of the segments, while the headers or a chunked body are read. -/
def Stage.Says (q₀ : Request) (segs : List Bytes) : Stage → Prop
  | .header got => got = segs.flatten ∧ segs.flatten.findSub crlfcrlf = none
  | .body q data => q.reqState = .REQ_CHUNKED → ∃ e, Unended q₀ segs e ∧ data = segs.flatten.drop (e + 4)
  | _ => True

/-- The segment that completes the headers. -/
theorem unended_head {segs : List Bytes} {s : Bytes} {e : Nat} (hopen : segs.flatten.findSub crlfcrlf = none)
    (hsmall : ¬ MAX_HEADER_SIZE < (segs.flatten ++ s).length) (hends : (segs.flatten ++ s).findSub crlfcrlf = some e)
    (hq : (Request.parseBlock ((segs.flatten ++ s).take e) q₀).reqState = .REQ_CHUNKED)
    (hdone : Request.isChunkedDone ((segs.flatten ++ s).drop (e + 4)) = false) : Unended q₀ (segs ++ [s]) e := by
  have hflat : (segs ++ [s]).flatten = segs.flatten ++ s := by simp
  have hle : e + 4 ≤ (segs.flatten ++ s).length := List.findSub_add_le hends
  have hshort : segs.flatten.length < e + 4 := by
    by_contra hge
    rw [List.findSub_of_append hends (Nat.not_lt.1 hge)] at hopen
    cases hopen
  rw [List.length_append] at hle hsmall
  refine ⟨hflat ▸ hends, ?_, hflat ▸ hq, ?_⟩
  · rw [fill_append_of_short hshort, fill, if_neg (by omega)]
    omega
  · rw [bodyPieces_append_of_short hshort, bodyPieces, if_neg (by omega)]
    rw [List.drop_append, List.drop_of_length_le hshort.le, List.nil_append] at hdone
    intro p hp
    rw [List.mem_singleton.1 hp]
    exact (isChunkedDone_eq_false_iff _).1 hdone

/-- Another segment without the marker. -/
theorem Unended.snoc {segs : List Bytes} {e : Nat} (h : Unended q₀ segs e) {s : Bytes}
    (hdone : Request.isChunkedDone s = false) : Unended q₀ (segs ++ [s]) e := by
  have hflat : (segs ++ [s]).flatten = segs.flatten ++ s := by simp
  have hle : e + 4 ≤ segs.flatten.length := List.findSub_add_le h.ends
  refine ⟨hflat ▸ List.findSub_append h.ends, ?_, ?_, ?_⟩
  · rw [fill_append hle (by omega)]
    exact h.small
  · rw [hflat, List.take_append_of_le_length (by omega)]
    exact h.chunked
  · rw [bodyPieces_append hle (by omega)]
    intro p hp
    rcases List.mem_append.1 hp with hp | hp
    · exact h.no_marker p hp
    · rw [List.mem_singleton.1 hp]
      exact (isChunkedDone_eq_false_iff s).1 hdone

theorem Stage.Says.next {segs : List Bytes} {st : Stage} (h : st.Says q₀ segs) (s : Bytes) :
    (st.next q₀ s).Says q₀ (segs ++ [s]) := by
  have hflat : (segs ++ [s]).flatten = segs.flatten ++ s := by simp
  cases st with
  | tooLarge | rejected | ready => trivial
  | header got =>
    obtain ⟨rfl, hopen⟩ := h
    rw [Stage.next]
    by_cases hlarge : MAX_HEADER_SIZE < (segs.flatten ++ s).length
    · rw [if_pos hlarge]
      trivial
    rw [if_neg hlarge]
    rcases hends : (segs.flatten ++ s).findSub crlfcrlf with _ | e
    · exact ⟨hflat.symm, hflat ▸ hends⟩
    simp only [Stage.headersDone]
    split
    · trivial
    · trivial
    · rw [Stage.piece, List.nil_append]
      split
      · trivial
      case isFalse hdone =>
        intro hq
        rw [bodyDone_chunked hq, Bool.not_eq_true] at hdone
        exact ⟨e, unended_head hopen hlarge hends hq hdone, by rw [hflat]⟩
  | body q data =>
    rw [Stage.next, Stage.piece]
    split
    · trivial
    case isFalse hdone =>
      intro hq
      rw [bodyDone_chunked hq, Bool.not_eq_true] at hdone
      obtain ⟨e, hopen, rfl⟩ := h hq
      have hle : e + 4 ≤ segs.flatten.length := List.findSub_add_le hopen.ends
      exact ⟨e, hopen.snoc hdone, by rw [hflat, List.drop_append_of_le_length hle]⟩

theorem Stage.says_after (q₀ : Request) (segs : List Bytes) : (Stage.after q₀ segs).Says q₀ segs := by
  induction segs using List.reverseRecOn with
  | nil => exact ⟨rfl, rfl⟩
  | append_singleton segs s ih =>
    rw [Stage.after, List.foldl_append]
    exact ih.next s

/-! ### The payload that is stored -/

/-- Chunks one after the other, and what they carry. -/
inductive Chunks : Bytes → Bytes → Prop
  | nil : Chunks [] []
  | chunk {line data rest payload : Bytes} (hline : SizeLine line data.length) (hne : data ≠ [])
      (hrest : Chunks rest payload) : Chunks (line ++ crlf ++ data ++ crlf ++ rest) (data ++ payload)

theorem Chunks.length_le {chunks payload : Bytes} (h : Chunks chunks payload) : payload.length ≤ chunks.length := by
  induction h with
  | nil => exact le_rfl
  | chunk _ _ _ ih =>
    simp only [List.length_append]
    omega

/-- The complete chunks that `stored` starts with carry `limit` bytes at most. -/
def PayloadWithin (limit : Nat) (stored : Bytes) : Prop :=
  ∀ chunks payload, chunks <+: stored → Chunks chunks payload → payload.length ≤ limit

/-- Whatever the system does: while the connection reads a chunked body, the chunks in its store carry
`limit` bytes at most. -/
def StoresWithin (limit : Nat) (c₀ : Connection) (segs : List Bytes) : Prop :=
  ∀ sys w n c w', handleReads sys (segs.take n) (c₀, w) = (.ok (), c, w') → c.state = .READING →
    c.request.reqState = .REQ_CHUNKED → PayloadWithin limit (content c.request.body)

/-- All that was received of such a body is in the store. -/
theorem Unended.reads {fd now : Nat} {conf : Option ServerConf} {segs : List Bytes} {e : Nat}
    (h : Unended (new fd conf now).request segs e) (hne : ∀ s ∈ segs, s ≠ []) :
    ∃ c w', handleReads Sys.calm segs (new fd conf now, {}) = (.ok (), c, w') ∧ c.state = .READING ∧
      c.request.reqState = .REQ_CHUNKED ∧ content c.request.body = segs.flatten.drop (e + 4) := by
  obtain ⟨c, w', hrun, hst⟩ := handleReads_stage Sys.calm_noFail fd conf now {} hne
  rw [h.after] at hst
  cases hst with
  | body _ _ hstate _ hreq hbody =>
    exact ⟨c, w', hrun, hstate, by rw [hreq]; exact h.chunked, content_of_holds hbody⟩

/-- The limit is kept, but for one segment, exactly when no more than that comes before a piece of the body
with the marker. -/
theorem storesWithin_iff (fd : Nat) (conf : ServerConf) (now : Nat) {segs : List Bytes} (hne : ∀ s ∈ segs, s ≠ []) :
    StoresWithin (conf.maxBodySize + MAX_HEADER_SIZE) (new fd (some conf) now) segs ↔
      ∀ n e, Unended (new fd (some conf) now).request (segs.take n) e →
        PayloadWithin (conf.maxBodySize + MAX_HEADER_SIZE) ((segs.take n).flatten.drop (e + 4)) := by
  have hne' (n : Nat) : ∀ s ∈ segs.take n, s ≠ [] := fun s hs => hne s (List.mem_of_mem_take hs)
  constructor
  · intro h n e hopen
    obtain ⟨c, w', hrun, hstate, hchunked, hcontent⟩ := hopen.reads (hne' n)
    rw [← hcontent]
    exact h Sys.calm {} n c w' hrun hstate hchunked
  · intro h sys w n c w' hrun hstate hchunked
    have hst := SoundStage.handleReads (new_unread fd (some conf) now) (.header [] rfl rfl rfl) (hne' n) hrun
    have hsays := Stage.says_after (new fd (some conf) now).request (segs.take n)
    rw [Stage.after] at hsays
    generalize (segs.take n).foldl (Stage.next (new fd (some conf) now).request) (.header []) = st at hst hsays
    cases hst with
    | tooLarge hwrite | rejected _ hwrite | ready _ _ hwrite =>
      rw [hstate] at hwrite
      cases hwrite
    | header _ _ _ hreq =>
      rw [hreq] at hchunked
      cases hchunked
    | body q data _ _ hreq hbody =>
      rw [hreq] at hchunked
      obtain ⟨e, hopen, rfl⟩ := hsays hchunked
      rw [content_of_sound hbody]
      exact h n e hopen

/-- One chunk is no more than the limit. -/
theorem storesWithin_iff_one_chunk : StoresWithin (1 + MAX_HEADER_SIZE) (new 4 (some { maxBodySize := 1 }) 0)
    [chunkedHead, ascii "1\r\na\r\n"] := by
  refine (storesWithin_iff 4 { maxBodySize := 1 } 0 (by decide)).2 fun n e _ chunks payload hprefix hchunks => ?_
  have hshort : ([chunkedHead, ascii "1\r\na\r\n"].take n).flatten.length ≤ [chunkedHead, ascii "1\r\na\r\n"].flatten.length :=
    (List.take_sublist n _).flatten.length_le
  calc payload.length ≤ chunks.length := hchunks.length_le
    _ ≤ (([chunkedHead, ascii "1\r\na\r\n"].take n).flatten.drop (e + 4)).length := hprefix.length_le
    _ ≤ ([chunkedHead, ascii "1\r\na\r\n"].take n).flatten.length := (List.drop_sublist _ _).length_le
    _ ≤ 1 + MAX_HEADER_SIZE := hshort.trans (by decide)

/-- `n` chunks of one byte each. -/
def oneByteChunks (n : Nat) : List Bytes := List.replicate n (ascii "1\r\na\r\n")

theorem chunks_oneByteChunks (n : Nat) : Chunks (oneByteChunks n).flatten (List.replicate n 97) := by
  induction n with
  | zero => exact .nil
  | succ n ih =>
    have hline : SizeLine (ascii "1") [(97 : UInt8)].length :=
      ⟨ascii "1", [], rfl, by decide, by decide +kernel, rfl, .inl rfl, by decide⟩
    exact .chunk hline (by decide) ih

theorem unended_oneByteChunks (fd now : Nat) (conf : ServerConf) (n : Nat) :
    Unended (new fd (some conf) now).request (chunkedHead :: oneByteChunks n) (chunkedHead.length - 4) := by
  have hlen : chunkedHead.length - 4 + 4 = chunkedHead.length := rfl
  refine ⟨?_, ?_, ?_, ?_⟩
  · rw [List.flatten_cons]
    exact List.findSub_append (by decide)
  · rw [hlen, fill, if_neg (Nat.lt_irrefl _)]
    decide
  · rw [List.flatten_cons, List.take_append_of_le_length (Nat.sub_le _ _)]
    rfl
  · rw [hlen, bodyPieces, if_neg (Nat.lt_irrefl _), List.drop_length]
    intro p hp
    rcases List.mem_cons.1 hp with rfl | hp
    · decide
    · rw [List.eq_of_mem_replicate hp]
      decide

/-- Any limit is passed, by chunks of one byte. -/
theorem stores_past_limit (fd now : Nat) (conf : ServerConf) :
    ¬ StoresWithin (conf.maxBodySize + MAX_HEADER_SIZE) (new fd (some conf) now)
      (chunkedHead :: oneByteChunks (conf.maxBodySize + MAX_HEADER_SIZE + 1)) := by
  intro h
  obtain ⟨c, w', hrun, hstate, hchunked, hcontent⟩ :=
    (unended_oneByteChunks fd now conf (conf.maxBodySize + MAX_HEADER_SIZE + 1)).reads (by
      intro s hs
      rcases List.mem_cons.1 hs with rfl | hs
      · decide
      · rw [List.eq_of_mem_replicate hs]
        decide)
  have hwithin := h Sys.calm {} (oneByteChunks (conf.maxBodySize + MAX_HEADER_SIZE + 1)).length.succ c w' (by
    rw [List.take_of_length_le (by simp)]
    exact hrun) hstate hchunked
  rw [hcontent, List.flatten_cons, show chunkedHead.length - 4 + 4 = chunkedHead.length from rfl,
    List.drop_left] at hwithin
  have hle := hwithin _ _ List.prefix_rfl (chunks_oneByteChunks _)
  rw [List.length_replicate] at hle
  omega

/-- A limit of one byte, and 8194 chunks with one byte each. -/
theorem limit_not_kept : ¬ StoresWithin (1 + MAX_HEADER_SIZE) (new 4 (some { maxBodySize := 1 }) 0)
    (chunkedHead :: oneByteChunks 8194) :=
  stores_past_limit 4 0 { maxBodySize := 1 }

end Connection

end LeftHookRoll
