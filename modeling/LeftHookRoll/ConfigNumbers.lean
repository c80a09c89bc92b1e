import LeftHookRoll.ConfigReading

/-!
# Numbers in the configuration

`listen` and `client_max_body_size` read their digits with `atoi` and `atol`: a number of 64 bits that is
cut to an `int`, and one that saturates before it is multiplied and cut to 64 bits. `portKept_iff` and
`sizeKept_iff` say for which values the number that is stored is the one that is written.
-/

namespace LeftHookRoll

namespace ConfigParser

/-- Digits, and nothing else. -/
def Digits (s : Bytes) : Prop := s ≠ [] ∧ s.all isdigit

instance (s : Bytes) : Decidable (Digits s) := inferInstanceAs (Decidable (_ ∧ _))

theorem Digits.strtoll10 {s : Bytes} (h : Digits s) :
    (strtoll10 s).1 = min (2 ^ 63 - 1) (decimalValue s : Int) := by
  rw [strtoll10_digits h.1 (List.all_eq_true.1 h.2)]

/-! ### Ports -/

/-- What is written for the port. -/
def portText (value : Bytes) : Bytes :=
  match value.idxOf? 58 with
  | some colon => value.drop (colon + 1)
  | none => value

/-- There is no host, or one that can be resolved. -/
def HostKnown (resolve : Bytes → Option Nat) (value : Bytes) : Prop :=
  ∀ colon, value.idxOf? 58 = some colon → value.take colon ≠ [] ∧ (resolve (cstr (value.take colon))).isSome

/-- The directive is refused, or the port is the number that is written and in range. -/
def PortKept (resolve : Bytes → Option Nat) (value : Bytes) : Prop :=
  ∀ conf rest, (∃ e, (parseListen resolve conf).run (value :: ascii ";" :: rest) = .error e) ∨
    ∃ conf', (parseListen resolve conf).run (value :: ascii ";" :: rest) = .ok (conf', rest) ∧
      conf'.interfacePortPair.sin_port = decimalValue (portText value) ∧
      1 ≤ conf'.interfacePortPair.sin_port ∧ conf'.interfacePortPair.sin_port ≤ 65535

/-- A number that is no port, but is one after the cut to 32 bits. -/
def Wraps (n : Nat) : Prop := 65535 < n ∧ n < 2 ^ 63 ∧ 1 ≤ n % 2 ^ 32 ∧ n % 2 ^ 32 ≤ 65535

/-- The cut of a saturated number to an `int`. -/
theorem bmod_port (n : Nat) : 0 < Int.bmod (min (2 ^ 63 - 1) (n : Int)) (2 ^ 32) ∧ Int.bmod (min (2 ^ 63 - 1) (n : Int)) (2 ^ 32) ≤ 65535 ↔
    n < 2 ^ 63 ∧ 1 ≤ n % 2 ^ 32 ∧ n % 2 ^ 32 ≤ 65535 := by
  rw [Int.bmod_def]
  omega

theorem bmod_port_eq {n : Nat} (h : n < 2 ^ 63) (hle : n % 2 ^ 32 ≤ 65535) :
    (Int.bmod (min (2 ^ 63 - 1) (n : Int)) (2 ^ 32)).toNat = n % 2 ^ 32 := by
  rw [Int.bmod_def]
  omega

theorem parsePort_ok {what s : Bytes} {port : Nat} : parsePort what s = .ok port ↔
    Digits s ∧ decimalValue s < 2 ^ 63 ∧ port = decimalValue s % 2 ^ 32 ∧ 1 ≤ port ∧ port ≤ 65535 := by
  unfold parsePort
  by_cases hd : Digits s
  · rw [if_neg fun h => h.elim hd.1 fun h => h hd.2, atoi, hd.strtoll10]
    by_cases hport : decimalValue s < 2 ^ 63 ∧ 1 ≤ decimalValue s % 2 ^ 32 ∧ decimalValue s % 2 ^ 32 ≤ 65535
    · obtain ⟨hpos, hle⟩ := (bmod_port _).2 hport
      rw [if_neg (by omega), bmod_port_eq hport.1 hport.2.2, Except.ok.injEq]
      constructor
      · rintro rfl
        exact ⟨hd, hport.1, rfl, hport.2⟩
      · rintro ⟨-, -, rfl, -⟩
        rfl
    · have hout : ¬ (0 < Int.bmod (min (2 ^ 63 - 1) (decimalValue s : Int)) (2 ^ 32) ∧
          Int.bmod (min (2 ^ 63 - 1) (decimalValue s : Int)) (2 ^ 32) ≤ 65535) := fun h => hport ((bmod_port _).1 h)
      rw [if_pos (by omega)]
      refine ⟨nofun, fun ⟨_, hlt, heq, hrange⟩ => absurd ?_ hport⟩
      exact ⟨hlt, heq ▸ hrange⟩
  · rw [if_pos]
    · exact ⟨nofun, fun h => absurd h.1 hd⟩
    · rw [Digits, not_and_or, not_not] at hd
      exact hd

/-- What `listen` accepts. -/
theorem parseSockAddr_ok {resolve : Bytes → Option Nat} {value : Bytes} {port : Nat} :
    (∃ addr, parseSockAddr resolve value = .ok addr ∧ addr.sin_port = port) ↔
      HostKnown resolve value ∧ Digits (portText value) ∧ decimalValue (portText value) < 2 ^ 63 ∧
        port = decimalValue (portText value) % 2 ^ 32 ∧ 1 ≤ port ∧ port ≤ 65535 := by
  unfold parseSockAddr portText HostKnown
  rcases hcolon : value.idxOf? 58 with _ | colon
  · simp only
    rcases hport : parsePort (ascii "invalid listen value: ") value with e | p
    · constructor
      · rintro ⟨_, h, _⟩
        cases h
      · rintro ⟨_, h⟩
        rw [parsePort_ok.2 h] at hport
        cases hport
    · constructor
      · rintro ⟨addr, h, rfl⟩
        cases h
        exact ⟨by rintro _ ⟨⟩, parsePort_ok.1 hport⟩
      · rintro ⟨-, h⟩
        rw [parsePort_ok.2 h] at hport
        cases hport
        exact ⟨_, rfl, rfl⟩
  · simp only [Option.some.injEq, forall_eq']
    rcases hport : parsePort (ascii "invalid port in listen: ") (value.drop (colon + 1)) with e | p
    · constructor
      · rintro ⟨_, h, _⟩
        cases h
      · rintro ⟨_, h⟩
        rw [parsePort_ok.2 h] at hport
        cases hport
    · constructor
      · rintro ⟨addr, h, rfl⟩
        change (if value.take colon = [] then _ else _) = Except.ok addr at h
        split_ifs at h with hip
        rcases hresolve : resolve (cstr (value.take colon)) with _ | a <;> rw [hresolve] at h
        · cases h
        · cases h
          exact ⟨⟨hip, rfl⟩, parsePort_ok.1 hport⟩
      · rintro ⟨⟨hip, hresolve⟩, h⟩
        rw [parsePort_ok.2 h] at hport
        cases hport
        obtain ⟨a, ha⟩ := Option.isSome_iff_exists.1 hresolve
        refine ⟨{ sin_family := AF_INET, sin_port := port, sin_addr := a }, ?_, rfl⟩
        show (if value.take colon = [] then _ else _) = _
        rw [if_neg hip, ha]

theorem parseListen_run (resolve : Bytes → Option Nat) (conf : ServerConf) (value : Bytes) (rest : List Bytes) :
    (parseListen resolve conf).run (value :: ascii ";" :: rest) =
      (parseSockAddr resolve value).map fun addr => ({ conf with interfacePortPair := addr }, rest) := by
  have hvalue : (consume.run (value :: ascii ";" :: rest)) = .ok (value, ascii ";" :: rest) := rfl
  have hend : (expect (ascii ";")).run (ascii ";" :: rest) = .ok ((), rest) := expect_ok.2 rfl
  unfold parseListen
  simp only [Cursor.run_bind, hvalue, hend]
  rcases parseSockAddr resolve value with e | addr
  · rfl
  · rfl

theorem portKept_iff (resolve : Bytes → Option Nat) (value : Bytes) : PortKept resolve value ↔
    ¬ (HostKnown resolve value ∧ Digits (portText value) ∧ Wraps (decimalValue (portText value))) := by
  constructor
  · rintro hkept ⟨hhost, hdigits, hlarge, hlt, hrange⟩
    obtain ⟨addr, haddr, hport⟩ := parseSockAddr_ok.2 ⟨hhost, hdigits, hlt, rfl, hrange⟩
    rcases hkept {} [] with ⟨e, he⟩ | ⟨conf', hconf, heq, -, hle⟩
    · rw [parseListen_run, haddr] at he
      cases he
    · rw [parseListen_run, haddr] at hconf
      cases hconf
      have : addr.sin_port ≤ 65535 := hle
      omega
  · intro hcut conf rest
    rw [parseListen_run]
    rcases haddr : parseSockAddr resolve value with e | addr
    · exact .inl ⟨e, rfl⟩
    obtain ⟨hhost, hdigits, hlt, heq, hrange⟩ := parseSockAddr_ok.1 ⟨addr, haddr, rfl⟩
    refine .inr ⟨_, rfl, ?_, hrange⟩
    have hsmall : ¬ 65535 < decimalValue (portText value) :=
      fun hlarge => hcut ⟨hhost, hdigits, hlarge, hlt, heq ▸ hrange⟩
    show addr.sin_port = _
    rw [heq]
    exact Nat.mod_eq_of_lt (by omega)

/-! ### Body sizes -/

/-- What a last letter stands for. -/
def unitOf (value : Bytes) : Nat := ((value.getLast?.bind sizeSuffix)).getD 1

/-- The size without such a letter. -/
def sizeText (value : Bytes) : Bytes := if (value.getLast?.bind sizeSuffix).isSome then value.dropLast else value

/-- The directive is refused, or the size is the number that is written, in its unit. -/
def SizeKept (value : Bytes) : Prop :=
  ∀ conf rest, (∃ e, (parseMaxBodySize conf).run (value :: ascii ";" :: rest) = .error e) ∨
    ∃ conf', (parseMaxBodySize conf).run (value :: ascii ";" :: rest) = .ok (conf', rest) ∧
      conf'.maxBodySize = decimalValue (sizeText value) * unitOf value

theorem parseBodySize_ok {value : Bytes} {size : Nat} : parseBodySize value = .ok size ↔
    Digits (sizeText value) ∧ size = min (2 ^ 63 - 1) (decimalValue (sizeText value)) * unitOf value % 2 ^ 64 := by
  unfold parseBodySize unitOf
  rcases hlast : value.getLast? with _ | suffix
  · refine ⟨nofun, fun ⟨hdigits, _⟩ => absurd ?_ hdigits.1⟩
    rw [sizeText, hlast]
    exact List.getLast?_eq_none_iff.1 hlast
  have htext : (if (sizeSuffix suffix).isSome then value.dropLast else value) = sizeText value := by
    rw [sizeText, hlast]
    rfl
  simp only [htext, Option.bind_some]
  by_cases hd : Digits (sizeText value)
  · rw [if_neg fun h => h.elim hd.1 fun h => h hd.2, hd.strtoll10, Except.ok.injEq]
    have hnat : (min (2 ^ 63 - 1) (decimalValue (sizeText value) : Int)).toNat = min (2 ^ 63 - 1) (decimalValue (sizeText value)) := by
      omega
    rw [hnat]
    exact ⟨fun h => ⟨hd, h.symm⟩, fun h => h.2.symm⟩
  · rw [if_pos]
    · exact ⟨nofun, fun h => absurd h.1 hd⟩
    · rw [Digits, not_and_or, not_not] at hd
      exact hd

theorem parseMaxBodySize_run (conf : ServerConf) (value : Bytes) (rest : List Bytes) :
    (parseMaxBodySize conf).run (value :: ascii ";" :: rest) =
      (parseBodySize value).map fun size => ({ conf with maxBodySize := size }, rest) := by
  have hvalue : (consume.run (value :: ascii ";" :: rest)) = .ok (value, ascii ";" :: rest) := rfl
  have hend : (expect (ascii ";")).run (ascii ";" :: rest) = .ok ((), rest) := expect_ok.2 rfl
  unfold parseMaxBodySize
  simp only [Cursor.run_bind, hvalue, hend]
  rcases parseBodySize value with e | size
  · rfl
  · rfl

theorem one_le_unitOf (value : Bytes) : 1 ≤ unitOf value := by
  unfold unitOf
  rcases value.getLast? with _ | c
  · exact le_rfl
  · show 1 ≤ (sizeSuffix c).getD 1
    unfold sizeSuffix
    split_ifs <;> decide

theorem sizeKept_iff (value : Bytes) : SizeKept value ↔
    (Digits (sizeText value) → decimalValue (sizeText value) < 2 ^ 63 ∧ decimalValue (sizeText value) * unitOf value < 2 ^ 64) := by
  have hunit := one_le_unitOf value
  constructor
  · intro hkept hdigits
    have hsize := parseBodySize_ok.2 ⟨hdigits, rfl⟩
    rcases hkept {} [] with ⟨e, he⟩ | ⟨conf', hconf, heq⟩
    · rw [parseMaxBodySize_run, hsize] at he
      cases he
    rw [parseMaxBodySize_run, hsize] at hconf
    cases hconf
    have heq : min (2 ^ 63 - 1) (decimalValue (sizeText value)) * unitOf value % 2 ^ 64 =
      decimalValue (sizeText value) * unitOf value := heq
    have hlt : decimalValue (sizeText value) * unitOf value < 2 ^ 64 := heq ▸ Nat.mod_lt _ (by decide)
    refine ⟨?_, hlt⟩
    by_contra hlarge
    -- the saturated number times the unit is below the real one
    have hmin : min (2 ^ 63 - 1) (decimalValue (sizeText value)) = 2 ^ 63 - 1 := by omega
    rw [hmin] at heq
    have hle : (2 ^ 63 - 1) * unitOf value % 2 ^ 64 ≤ (2 ^ 63 - 1) * unitOf value := Nat.mod_le _ _
    have hmul : (2 ^ 63 - 1 + 1) * unitOf value ≤ decimalValue (sizeText value) * unitOf value :=
      Nat.mul_le_mul_right _ (by omega)
    omega
  · intro hfits conf rest
    rw [parseMaxBodySize_run]
    rcases hsize : parseBodySize value with e | size
    · exact .inl ⟨e, rfl⟩
    obtain ⟨hdigits, heq⟩ := parseBodySize_ok.1 hsize
    obtain ⟨hlt, hprod⟩ := hfits hdigits
    refine .inr ⟨_, rfl, ?_⟩
    show size = _
    rw [heq, min_eq_right (by omega)]
    exact Nat.mod_eq_of_lt hprod

/-- Which ports and which body sizes are stored as they are written. -/
theorem numbers_kept_iff (resolve : Bytes → Option Nat) (listen size : Bytes) :
    (PortKept resolve listen ↔
      ¬ (HostKnown resolve listen ∧ Digits (portText listen) ∧ Wraps (decimalValue (portText listen)))) ∧
      (SizeKept size ↔ (Digits (sizeText size) →
        decimalValue (sizeText size) < 2 ^ 63 ∧ decimalValue (sizeText size) * unitOf size < 2 ^ 64)) :=
  ⟨portKept_iff resolve listen, sizeKept_iff size⟩

/-- `listen 4294967376` is port 80, and `client_max_body_size 17179869184G` is 0, no limit. -/
theorem numbers_not_kept : ¬ (∀ resolve value, PortKept resolve value) ∧ ¬ ∀ value, SizeKept value := by
  refine ⟨fun hall => ?_, fun hall => ?_⟩
  · rcases hall (fun _ => none) (ascii "4294967376") {} [] with ⟨e, he⟩ | ⟨conf', hconf, heq, -⟩
    · rw [parseListen_run] at he
      cases he
    · rw [parseListen_run] at hconf
      cases hconf
      exact absurd heq (by decide)
  · rcases hall (ascii "17179869184G") {} [] with ⟨e, he⟩ | ⟨conf', hconf, heq⟩
    · rw [parseMaxBodySize_run] at he
      cases he
    · rw [parseMaxBodySize_run] at hconf
      cases hconf
      exact absurd heq (by decide)

end ConfigParser

end LeftHookRoll
