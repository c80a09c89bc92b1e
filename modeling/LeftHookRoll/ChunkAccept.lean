import LeftHookRoll.ChunkOutcome

/-!
# What the chunk decoder accepts

`Message` is the grammar of a chunked message, `LaxMessage` what `strtoul` makes of it. A body is
accepted when it is the second (`Decodes.lax`, `LaxMessage.complete`), and is decoded as the first says
when its size lines are of the grammar (`Decodes.message`).
-/

namespace LeftHookRoll

namespace Request

/-- A size line of the grammar: hexadecimal digits, up to an extension. -/
structure HexLine (line : Bytes) : Prop where
  no_crlf : ¬ crlf <:+: line
  digits : sizeField line ≠ []
  hex : ∀ d ∈ sizeField line, (hexVal d).isSome

def hexSize (line : Bytes) : Nat := foldDigits 16 hexVal 0 (sizeField line)

/-- `raw` starts with a chunked message of the grammar, whose data are `body`. -/
inductive Message : Bytes → Bytes → Prop
  | last {line rest : Bytes} : HexLine line → hexSize line = 0 → Message (line ++ crlf ++ crlf ++ rest) []
  | chunk {line data raw body : Bytes} : HexLine line → hexSize line = data.length → data ≠ [] → Message raw body →
      Message (line ++ crlf ++ data ++ crlf ++ raw) (data ++ body)

/-- `raw` starts with a chunked message as `strtoul` reads the sizes; these are its size lines. A line of
value `2 ^ 64 - 2` is passed over. -/
inductive LaxMessage : Bytes → List Bytes → Prop
  | last {line rest : Bytes} : ¬ crlf <:+: line → lineSize line = 0 → LaxMessage (line ++ crlf ++ crlf ++ rest) [line]
  | chunk {line data raw : Bytes} {lines : List Bytes} : ¬ crlf <:+: line → lineSize line = data.length → data ≠ [] →
      LaxMessage raw lines → LaxMessage (line ++ crlf ++ data ++ crlf ++ raw) (line :: lines)
  | wrapped {line raw : Bytes} {lines : List Bytes} : ¬ crlf <:+: line → lineSize line = 2 ^ 64 - 2 →
      LaxMessage raw lines → LaxMessage (line ++ crlf ++ raw) (line :: lines)

/-- Slices that end with true have decoded a message of the grammar within the limit, or rejected the body. -/
def SoundlyDecoded (raw : Bytes) : Prop :=
  ∀ (sys : Sys) (q : Request) (w : World) (n : Nat) (q' : Request) (w' : World), Ready q w raw →
    processSlices sys n (q, w) = (.ok true, q', w') →
      (∃ body, q'.outcome = .complete body ∧ q'.body.Readable body 0 ∧ Message raw body ∧
        (q.maxBodySize = 0 ∨ body.length ≤ q.maxBodySize)) ∨
      q'.outcome = .error (ascii "400") ∨ q'.outcome = .error (ascii "413")

section Accepted

variable {line tail data raw rest body acc acc' buf' : Bytes} {lines : List Bytes} {limit : Nat} {v : Verdict}

theorem HexLine.lineSize_eq (h : HexLine line) :
    lineSize line = if 2 ^ 64 ≤ hexSize line then 2 ^ 64 - 1 else hexSize line :=
  strtoul16_digits h.digits h.hex

theorem nextChunk_of_last (hline : ¬ crlf <:+: line) (hsize : lineSize line = 0)
    (hlen : (line ++ crlf ++ crlf ++ rest).length < 2 ^ 63) : nextChunk (line ++ crlf ++ crlf ++ rest) = .last rest := by
  have hassoc : line ++ crlf ++ crlf ++ rest = line ++ crlf ++ (crlf ++ rest) := by simp only [List.append_assoc]
  rw [hassoc] at hlen ⊢
  have hshort : line.length + 4 < 2 ^ 64 := by
    simp only [List.length_append] at hlen
    omega
  rw [nextChunk_line hline hlen, hsize, Nat.add_zero, if_pos hshort]
  rfl

theorem nextChunk_of_wrapped (hline : ¬ crlf <:+: line) (hsize : lineSize line = 2 ^ 64 - 2)
    (hlen : (line ++ crlf ++ raw).length < 2 ^ 63) : nextChunk (line ++ crlf ++ raw) = .chunk raw raw := by
  rw [nextChunk_line hline hlen, if_neg (by omega), if_pos hsize]

theorem Decodes.lax (h : Decodes limit acc raw v acc' buf') (hlen : raw.length < 2 ^ 63) (hv : v = .complete) :
    ∃ lines, LaxMessage raw lines := by
  induction h with
  | last hnext =>
    obtain ⟨line, hline, hsize, rfl⟩ := nextChunk_last hlen hnext
    exact ⟨_, .last hline hsize⟩
  | chunk htakes _ _ ih =>
    obtain ⟨lines, hlines⟩ := ih ((htakes.length_lt hlen).trans hlen) hv
    obtain ⟨taken, hnext, -⟩ := htakes
    obtain ⟨line, hline, ⟨hsize, hne, rfl, -⟩ | ⟨hsize, rfl, -⟩⟩ := nextChunk_chunk hlen hnext
    · exact ⟨_, .chunk hline hsize hne hlines⟩
    · exact ⟨_, .wrapped hline hsize hlines⟩
  | wait | outOfRange | malformed | tooLarge => cases hv

theorem Decodes.of_chunk (hnext : nextChunk raw = .chunk data rest) (h : Decodes 0 acc raw v acc' buf') :
    ∃ acc₁, Decodes 0 acc₁ rest v acc' buf' := by
  cases h with
  | chunk htakes _ hgo =>
    obtain ⟨taken, hnext', -⟩ := htakes
    rw [hnext] at hnext'
    cases hnext'
    exact ⟨_, hgo⟩
  | tooLarge _ hbig => exact absurd hbig.1 (Nat.lt_irrefl 0)
  | wait hnext' | outOfRange hnext' | malformed hnext' | last hnext' =>
    rw [hnext] at hnext'
    cases hnext'

theorem Decodes.of_last (hnext : nextChunk raw = .last rest) (h : Decodes limit acc raw v acc' buf') : v = .complete := by
  cases h with
  | last => rfl
  | wait hnext' | outOfRange hnext' | malformed hnext' =>
    rw [hnext] at hnext'
    cases hnext'
  | tooLarge htakes _ | chunk htakes _ _ =>
    obtain ⟨taken, hnext', -⟩ := htakes
    rw [hnext] at hnext'
    cases hnext'

theorem nextChunk_of_sized (hline : ¬ crlf <:+: line) (hsize : lineSize line = data.length) (hne : data ≠ [])
    (hlen : (line ++ crlf ++ data ++ crlf ++ rest).length < 2 ^ 63) :
    nextChunk (line ++ crlf ++ data ++ crlf ++ rest) = .chunk data rest := by
  refine nextChunk_of_chunk hline hsize hne ?_ hlen
  simp only [List.length_append] at hlen
  omega

/-- A message as `strtoul` reads it is decoded to its end when there is no limit. -/
theorem LaxMessage.complete (h : LaxMessage raw lines) (hlen : raw.length < 2 ^ 63)
    (hdec : Decodes 0 acc raw v acc' buf') : v = .complete := by
  induction h generalizing acc with
  | last hline hsize => exact hdec.of_last (nextChunk_of_last hline hsize hlen)
  | chunk hline hsize hne _ ih =>
    obtain ⟨acc₁, hrest⟩ := hdec.of_chunk (nextChunk_of_sized hline hsize hne hlen)
    simp only [List.length_append] at hlen
    exact ih (by omega) hrest
  | wrapped hline hsize _ ih =>
    obtain ⟨acc₁, hrest⟩ := hdec.of_chunk (nextChunk_of_wrapped hline hsize hlen)
    rw [List.length_append] at hlen
    exact ih (by omega) hrest

/-- The size lines of a message of the grammar are its size lines for `strtoul`. -/
theorem Message.hexLines (h : Message raw body) (hlen : raw.length < 2 ^ 63) (hlax : LaxMessage raw lines) :
    ∀ line ∈ lines, HexLine line ∧ lineSize line ≠ 2 ^ 64 - 2 := by
  induction h generalizing lines with
  | @last line rest hline hzero =>
    have hsize : lineSize line = 0 := by
      rw [hline.lineSize_eq, hzero]
      rfl
    generalize hraw : line ++ crlf ++ crlf ++ rest = raw at hlax
    rw [List.append_assoc] at hraw
    have hall : ∀ line' tail', raw = line' ++ crlf ++ tail' → ¬ crlf <:+: line' → line = line' := by
      intro line' tail' heq hline'
      exact (line_unique hline.no_crlf hline' (hraw.trans heq)).1
    cases hlax with
    | @last line' rest' hline' _ =>
      cases hall line' (crlf ++ rest') (by rw [List.append_assoc]) hline'
      rintro _ (_ | ⟨_, ⟨⟩⟩)
      exact ⟨hline, by omega⟩
    | @chunk line' data' raw' _ hline' hsize' hne' _ =>
      cases hall line' (data' ++ (crlf ++ raw')) (by simp only [List.append_assoc]) hline'
      exact absurd (List.eq_nil_of_length_eq_zero (hsize'.symm.trans hsize)) hne'
    | @wrapped line' raw' _ hline' hsize' _ =>
      cases hall line' raw' rfl hline'
      omega
  | @chunk line data rest body hline hvalue hne _ ih =>
    have hsize : lineSize line = data.length := by
      simp only [List.length_append] at hlen
      rw [hline.lineSize_eq, hvalue, if_neg (by omega)]
    have hpos := List.length_pos_iff.2 hne
    have hshort : rest.length < 2 ^ 63 := by
      simp only [List.length_append] at hlen
      omega
    have hdata : data.length < 2 ^ 63 := by
      simp only [List.length_append] at hlen
      omega
    generalize hraw : line ++ crlf ++ data ++ crlf ++ rest = raw at hlax
    have hall : ∀ line' tail', raw = line' ++ crlf ++ tail' → ¬ crlf <:+: line' →
        line = line' ∧ data ++ (crlf ++ rest) = tail' := by
      intro line' tail' heq hline'
      refine line_unique hline.no_crlf hline' (Eq.trans ?_ heq)
      rw [← hraw]
      simp only [List.append_assoc]
    cases hlax with
    | @last line' rest' hline' hsize' =>
      obtain ⟨rfl, -⟩ := hall line' (crlf ++ rest') (by rw [List.append_assoc]) hline'
      omega
    | @chunk line' data' raw' lines' hline' hsize' hne' hrest =>
      obtain ⟨rfl, htail⟩ := hall line' (data' ++ (crlf ++ raw')) (by simp only [List.append_assoc]) hline'
      obtain ⟨rfl, htail⟩ := List.append_inj htail (hsize.symm.trans hsize')
      cases List.append_cancel_left htail
      rintro line' (_ | ⟨_, hmem⟩)
      · exact ⟨hline, by omega⟩
      · exact ih hshort hrest line' hmem
    | @wrapped line' raw' _ hline' hsize' _ =>
      obtain ⟨rfl, -⟩ := hall line' raw' rfl hline'
      omega

/-- What is decoded of a body whose size lines are all of the grammar is the data of its message. -/
theorem Decodes.message (h : Decodes limit acc raw v acc' buf') (hlen : raw.length < 2 ^ 63) (hv : v = .complete)
    (hlines : ∀ lines, LaxMessage raw lines → ∀ line ∈ lines, HexLine line ∧ lineSize line ≠ 2 ^ 64 - 2) :
    ∃ body, acc' = acc ++ body ∧ Message raw body := by
  induction h with
  | @last acc _ _ hnext =>
    obtain ⟨line, hline, hsize, rfl⟩ := nextChunk_last hlen hnext
    obtain ⟨hhex, -⟩ := hlines _ (.last hline hsize) line List.mem_cons_self
    refine ⟨[], (List.append_nil _).symm, .last hhex ?_⟩
    rw [hhex.lineSize_eq] at hsize
    split at hsize <;> omega
  | @chunk acc _ data rest _ _ _ htakes _ hgo ih =>
    have hlt := htakes.length_lt hlen
    obtain ⟨lines, hrest⟩ := hgo.lax (by omega) hv
    obtain ⟨taken, hnext, hdata⟩ := htakes
    obtain ⟨line, hline, ⟨hsize, hne, rfl, -⟩ | ⟨hsize, rfl, -⟩⟩ := nextChunk_chunk hlen hnext
    · have hnowrap : ¬ Wraps (line ++ crlf ++ taken ++ crlf ++ rest) := by
        rintro ⟨line', tail', heq, hline', hsize'⟩
        rw [List.append_assoc, List.append_assoc] at heq
        obtain ⟨rfl, -⟩ := line_unique hline hline' heq
        simp only [List.length_append] at hlen
        omega
      cases hdata hnowrap
      obtain ⟨hhex, -⟩ := hlines _ (.chunk hline hsize hne hrest) line List.mem_cons_self
      obtain ⟨body, hbody, hmessage⟩ := ih (by omega) hv fun lines hlax line' hmem =>
        hlines _ (.chunk hline hsize hne hlax) line' (List.mem_cons_of_mem _ hmem)
      refine ⟨data ++ body, by rw [hbody, List.append_assoc], .chunk hhex ?_ hne hmessage⟩
      rw [hhex.lineSize_eq] at hsize
      simp only [List.length_append] at hlen
      split at hsize <;> omega
    · exact absurd hsize (hlines _ (.wrapped hline hsize hrest) line List.mem_cons_self).2
  | wait | outOfRange | malformed | tooLarge => cases hv

theorem Decodes.fits (h : Decodes limit acc raw v acc' buf') (hv : v = .complete) (hacc : limit = 0 ∨ acc.length ≤ limit) :
    limit = 0 ∨ acc'.length ≤ limit := by
  induction h with
  | last => exact hacc
  | chunk _ hfit _ ih => exact ih hv (by omega)
  | wait | outOfRange | malformed | tooLarge => cases hv

/-- The slices end with true on a message as `strtoul` reads it. -/
theorem LaxMessage.run (h : LaxMessage raw lines) (hraw : raw.length < 2 ^ 63) :
    ∃ n q' w' body, processSlices Sys.calm n (received raw, {}) = (.ok true, q', w') ∧ q'.outcome = .complete body := by
  have hready := received_ready raw {}
  have hcomplete {v : Verdict} {body rest : Bytes} (hdec : Decodes 0 [] raw v body rest) : v = .complete :=
    h.complete hraw hdec
  obtain ⟨b, q', w', hrun⟩ : ∃ b q' w',
      processSlicesOf Sys.calm PARSE_BYTE_SLICE raw.length (received raw, {}) = (.ok b, q', w') :=
    processSlicesOf_returns Sys.calm_noFail hready.between hraw hready.body hready.decoded
      (fun body rest hdec => nomatch hcomplete hdec) raw.length
  rcases processSlicesOf_ok hready.between hraw hrun with ⟨-, hlimit, acc, hall⟩ | ⟨rfl, v, body, hthrough⟩
  · -- everything is read
    have hslice : raw.length ≤ 0 + raw.length * PARSE_BYTE_SLICE := by
      rw [Nat.zero_add]
      exact Nat.le_mul_of_pos_right _ (by decide)
    have hdec := hall.read
    rw [hlimit, List.take_of_length_le (by omega)] at hdec
    cases hcomplete hdec
  · obtain ⟨rest, hdec⟩ := hthrough.read
    cases hcomplete hdec
    rw [← processSlices_eq] at hrun
    exact ⟨_, q', w', body, hrun, hthrough.shown⟩

/-- The decoder is sound on `raw` when the size lines it takes for those of a message are of the grammar. -/
theorem soundly_decoded_iff (hraw : raw.length < 2 ^ 63) :
    SoundlyDecoded raw ↔
      ∀ lines, LaxMessage raw lines → ∀ line ∈ lines, HexLine line ∧ lineSize line ≠ 2 ^ 64 - 2 := by
  constructor
  · intro h lines hlax
    obtain ⟨n, q', w', body, hrun, hshown⟩ := hlax.run hraw
    rcases h _ _ _ _ _ _ (received_ready raw {}) hrun with ⟨body', -, -, hmessage, -⟩ | herr | herr
    · exact hmessage.hexLines hraw hlax
    · cases hshown.symm.trans herr
    · cases hshown.symm.trans herr
  · intro h sys q w n q' w' hready hrun
    rw [processSlices_eq] at hrun
    rcases processSlicesOf_ok hready.between hraw hrun with ⟨hb, -⟩ | ⟨-, v, body, hthrough⟩
    · cases hb
    obtain ⟨rest, hdec⟩ := hthrough.read
    have hshown := hthrough.shown
    rcases hthrough.verdict with rfl | hstops
    · obtain ⟨body', hbody', hmessage⟩ := hdec.message hraw rfl h
      rw [List.nil_append] at hbody'
      rw [← hbody'] at hmessage
      exact .inl ⟨body, hshown, hthrough.body rfl, hmessage, hdec.fits rfl (.inr (Nat.zero_le _))⟩
    · cases v with
      | malformed => exact .inr (.inl hshown)
      | tooLarge => exact .inr (.inr hshown)
      | incomplete | complete | outOfRange => cases hstops

theorem message_greeting : Message greeting (ascii "hello") := by
  have hlast : Message (ascii "0" ++ crlf ++ crlf ++ []) [] := .last ⟨by decide, by decide, by decide +kernel⟩ (by decide)
  exact .chunk ⟨by decide, by decide, by decide +kernel⟩ (by decide) (by decide) hlast

theorem soundly_decoded_greeting : SoundlyDecoded greeting :=
  (soundly_decoded_iff (by decide)).2 fun _ hlax => message_greeting.hexLines (by decide) hlax

/-- A size line without any digit is read as 0. -/
theorem not_soundly_decoded_without_digits : ¬ SoundlyDecoded (ascii "\r\n\r\n") := by
  intro h
  have hlax : LaxMessage ([] ++ crlf ++ crlf ++ []) [[]] := .last (by decide) rfl
  obtain ⟨n, q', w', body, hrun, hshown⟩ := hlax.run (by decide)
  rcases h _ _ _ _ _ _ (received_ready _ {}) hrun with ⟨body', -, -, hmessage, -⟩ | herr | herr
  · exact (hmessage.hexLines (by decide) hlax [] List.mem_cons_self).1.digits rfl
  · cases hshown.symm.trans herr
  · cases hshown.symm.trans herr

end Accepted

end Request

end LeftHookRoll
