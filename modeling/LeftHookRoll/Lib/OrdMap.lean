import Mathlib

/-!
# Finite maps kept in key order

`OrdMap κ ν` is a list of entries with strictly increasing keys, so a map has one form and walking
it goes in key order.
-/

/-- A finite map as its entries in increasing order of the keys. -/
structure OrdMap (κ ν : Type) [LT κ] where
  entries : List (κ × ν)
  sorted : entries.Pairwise (·.1 < ·.1)

namespace OrdMap

variable {κ ν : Type} [LT κ]

@[ext] theorem ext {m m' : OrdMap κ ν} (h : m.entries = m'.entries) : m = m' := by
  cases m; cases m'; cases h; rfl

instance [DecidableEq κ] [DecidableEq ν] : DecidableEq (OrdMap κ ν) := fun m m' =>
  decidable_of_iff (m.entries = m'.entries) ⟨ext, fun h => h ▸ rfl⟩

def empty : OrdMap κ ν := ⟨[], .nil⟩

instance : EmptyCollection (OrdMap κ ν) := ⟨empty⟩

instance : Inhabited (OrdMap κ ν) := ⟨empty⟩

def keys (m : OrdMap κ ν) : List κ := m.entries.map (·.1)

variable [DecidableEq κ]

def find? (m : OrdMap κ ν) (k : κ) : Option ν := m.entries.lookup k

def contains (m : OrdMap κ ν) (k : κ) : Bool := (m.find? k).isSome

def erase (m : OrdMap κ ν) (k : κ) : OrdMap κ ν :=
  ⟨m.entries.filter (·.1 ≠ k), m.sorted.filter _⟩

section Insert

variable [DecidableLT κ]

def insertEntry (k : κ) (v : ν) : List (κ × ν) → List (κ × ν)
  | [] => [(k, v)]
  | e :: m =>
    if k = e.1 then (k, v) :: m else if k < e.1 then (k, v) :: e :: m else e :: insertEntry k v m

theorem mem_insertEntry {k : κ} {v : ν} {m : List (κ × ν)} {e : κ × ν}
    (h : e ∈ insertEntry k v m) : e = (k, v) ∨ e ∈ m := by
  induction m with
  | nil => simpa [insertEntry] using h
  | cons a m ih =>
    rw [insertEntry] at h
    split_ifs at h
    · rcases List.mem_cons.1 h with h | h
      · exact .inl h
      · exact .inr (List.mem_cons_of_mem _ h)
    · rcases List.mem_cons.1 h with h | h
      · exact .inl h
      · exact .inr h
    · rcases List.mem_cons.1 h with rfl | h
      · exact .inr (List.mem_cons_self ..)
      · exact (ih h).imp_right (List.mem_cons_of_mem _)

theorem lookup_insertEntry (k k' : κ) (v : ν) (m : List (κ × ν)) :
    (insertEntry k v m).lookup k' = if k' = k then some v else m.lookup k' := by
  induction m with
  | nil => rw [insertEntry]; grind
  | cons e m ih =>
    rw [insertEntry]
    split_ifs with h1 h2 <;> grind

variable [LE κ] [Std.IsLinearOrder κ] [Std.LawfulOrderLT κ]

theorem insertEntry_sorted (k : κ) (v : ν) {m : List (κ × ν)} (h : m.Pairwise (·.1 < ·.1)) :
    (insertEntry k v m).Pairwise (·.1 < ·.1) := by
  induction m with
  | nil => simp [insertEntry]
  | cons e m ih =>
    obtain ⟨he, hm⟩ := List.pairwise_cons.1 h
    rw [insertEntry]
    split_ifs with h1 h2
    · exact List.pairwise_cons.2 ⟨fun a ha => h1 ▸ he a ha, hm⟩
    · refine List.pairwise_cons.2 ⟨fun a ha => ?_, h⟩
      rcases List.mem_cons.1 ha with rfl | ha
      · exact h2
      · exact Std.lt_trans h2 (he a ha)
    · refine List.pairwise_cons.2 ⟨fun a ha => ?_, ih hm⟩
      rcases mem_insertEntry ha with rfl | ha
      · exact Std.lt_of_le_of_ne (Std.not_lt.1 h2) (Ne.symm h1)
      · exact he a ha

def insert (m : OrdMap κ ν) (k : κ) (v : ν) : OrdMap κ ν :=
  ⟨insertEntry k v m.entries, insertEntry_sorted k v m.sorted⟩

@[simp] theorem find?_insert (m : OrdMap κ ν) (k k' : κ) (v : ν) :
    (m.insert k v).find? k' = if k' = k then some v else m.find? k' :=
  lookup_insertEntry k k' v m.entries

theorem find?_insert_self (m : OrdMap κ ν) (k : κ) (v : ν) : (m.insert k v).find? k = some v := by
  rw [find?_insert, if_pos rfl]

theorem find?_insert_of_ne (m : OrdMap κ ν) {k k' : κ} (h : k' ≠ k) (v : ν) :
    (m.insert k v).find? k' = m.find? k' := by
  rw [find?_insert, if_neg h]

theorem find?_insert_eq_some {m : OrdMap κ ν} {k k' : κ} {v v' : ν} :
    (m.insert k v).find? k' = some v' ↔ k' = k ∧ v' = v ∨ k' ≠ k ∧ m.find? k' = some v' := by
  rw [find?_insert]
  by_cases h : k' = k
  · simp only [h, if_true, Option.some.injEq, true_and, ne_eq, not_true, false_and, or_false]
    exact eq_comm
  · simp [h]

theorem contains_insert (m : OrdMap κ ν) (k k' : κ) (v : ν) :
    (m.insert k v).contains k' = if k' = k then true else m.contains k' := by
  rw [contains, contains, find?_insert]
  split <;> rfl

/-- The map of a list of pairs; of two pairs with one key it keeps the last. -/
def ofPairs (l : List (κ × ν)) : OrdMap κ ν := l.foldl (fun m e => m.insert e.1 e.2) ∅

theorem ofPairs_concat (l : List (κ × ν)) (e : κ × ν) : ofPairs (l ++ [e]) = (ofPairs l).insert e.1 e.2 := by
  rw [ofPairs, List.foldl_append]
  rfl

theorem find?_ofPairs (l : List (κ × ν)) (k : κ) :
    (ofPairs l).find? k = ((l.filter fun e => e.1 = k).getLast?).map (·.2) := by
  induction l using List.reverseRecOn with
  | nil => rfl
  | append_singleton l e ih =>
    rw [ofPairs_concat, find?_insert, List.filter_append]
    split
    · rename_i hk
      simp [hk]
    · rename_i hk
      simp [Ne.symm hk, ih]

end Insert

@[simp] theorem find?_empty (k : κ) : (∅ : OrdMap κ ν).find? k = none := rfl

theorem contains_iff {m : OrdMap κ ν} {k : κ} : m.contains k ↔ ∃ v, m.find? k = some v :=
  Option.isSome_iff_exists

omit [LT κ] in
theorem lookup_filter_ne (k k' : κ) (m : List (κ × ν)) :
    (m.filter (·.1 ≠ k)).lookup k' = if k' = k then none else m.lookup k' := by
  induction m with
  | nil => rw [List.filter_nil]; grind
  | cons e m ih => rw [List.filter_cons]; split_ifs <;> grind

@[simp] theorem find?_erase (m : OrdMap κ ν) (k k' : κ) :
    (m.erase k).find? k' = if k' = k then none else m.find? k' := lookup_filter_ne k k' m.entries

theorem contains_erase (m : OrdMap κ ν) (k k' : κ) :
    (m.erase k).contains k' = if k' = k then false else m.contains k' := by
  rw [contains, contains, find?_erase]
  split <;> rfl

theorem find?_erase_eq_some {m : OrdMap κ ν} {k k' : κ} {v : ν} :
    (m.erase k).find? k' = some v ↔ k' ≠ k ∧ m.find? k' = some v := by
  rw [find?_erase]
  split <;> simp [*]

theorem mem_entries_of_find? {m : OrdMap κ ν} {k : κ} {v : ν} (h : m.find? k = some v) : (k, v) ∈ m.entries := by
  obtain ⟨l, hl⟩ : ∃ l, l = m.entries := ⟨_, rfl⟩
  rw [find?, ← hl] at h
  rw [← hl]
  clear hl
  induction l with
  | nil => cases h
  | cons e l ih =>
    rw [List.lookup_cons] at h
    split at h
    · rename_i heq
      cases h
      rw [beq_iff_eq] at heq
      rw [heq]
      exact List.mem_cons_self
    · exact List.mem_cons_of_mem _ (ih h)

/-- The entries with a key that meets `p`. -/
def filterKeys (m : OrdMap κ ν) (p : κ → Bool) : OrdMap κ ν :=
  ⟨m.entries.filter fun e => p e.1, m.sorted.filter _⟩

omit [LT κ] in
theorem lookup_filter_key (p : κ → Bool) (k : κ) (m : List (κ × ν)) :
    (m.filter fun e => p e.1).lookup k = if p k then m.lookup k else none := by
  induction m with
  | nil => simp
  | cons e m ih => grind

@[simp] theorem find?_filterKeys (m : OrdMap κ ν) (p : κ → Bool) (k : κ) :
    (m.filterKeys p).find? k = if p k then m.find? k else none := lookup_filter_key p k m.entries

theorem find?_eq_none_of_entries {m : OrdMap κ ν} (h : m.entries = []) (k : κ) : m.find? k = none := by
  rw [find?, h]
  rfl

omit [LT κ] in
theorem lookup_head (e : κ × ν) (m : List (κ × ν)) : (e :: m).lookup e.1 = some e.2 := by
  rw [List.lookup_cons, beq_self_eq_true]

section Ext

variable [LE κ] [Std.IsLinearOrder κ] [Std.LawfulOrderLT κ]

/-- A key below all others is not found. -/
theorem lookup_eq_none_of_lt {k : κ} {m : List (κ × ν)} (h : ∀ e ∈ m, k < e.1) : m.lookup k = none := by
  rw [List.lookup_eq_none_iff]
  intro e he
  have := h e he
  grind

theorem eq_of_lookup_eq {m m' : List (κ × ν)} (hm : m.Pairwise (·.1 < ·.1)) (hm' : m'.Pairwise (·.1 < ·.1))
    (h : ∀ k, m.lookup k = m'.lookup k) : m = m' := by
  induction m generalizing m' with
  | nil =>
    rcases m' with _ | ⟨e, m'⟩
    · rfl
    · have := h e.1
      rw [lookup_head] at this
      cases this
  | cons e m ih =>
    rcases m' with _ | ⟨e', m'⟩
    · have := h e.1
      rw [lookup_head] at this
      cases this
    obtain ⟨he, hm⟩ := List.pairwise_cons.1 hm
    obtain ⟨he', hm'⟩ := List.pairwise_cons.1 hm'
    have hfirst : ∀ {a b : κ × ν} {l l' : List (κ × ν)}, (∀ x ∈ l', b.1 < x.1) →
        (a :: l).lookup a.1 = (b :: l').lookup a.1 → ¬ a.1 < b.1 := by
      intro a b l l' hb hl hlt
      rw [lookup_head, lookup_eq_none_of_lt] at hl
      · cases hl
      · intro x hx
        rcases List.mem_cons.1 hx with rfl | hx
        · exact hlt
        · exact Std.lt_trans hlt (hb x hx)
    have hkey : e.1 = e'.1 := by
      have h1 := hfirst he' (h e.1)
      have h2 := hfirst he (h e'.1).symm
      grind
    have hval := h e.1
    rw [lookup_head, hkey, lookup_head] at hval
    have hee : e = e' := Prod.ext hkey (Option.some.inj hval)
    rw [hee, ih hm hm' fun k => ?_]
    have hk := h k
    rw [hee] at hk he
    by_cases hke : k = e'.1
    · rw [hke, lookup_eq_none_of_lt he, lookup_eq_none_of_lt he']
    · rwa [List.lookup_cons, List.lookup_cons, beq_false_of_ne hke] at hk

omit [Std.IsLinearOrder κ] in
theorem lookup_of_mem {e : κ × ν} {m : List (κ × ν)} (hm : m.Pairwise (·.1 < ·.1)) (h : e ∈ m) :
    m.lookup e.1 = some e.2 := by
  induction m with
  | nil => cases h
  | cons a m ih =>
    obtain ⟨ha, hm⟩ := List.pairwise_cons.1 hm
    rcases List.mem_cons.1 h with rfl | h
    · exact lookup_head e m
    · have hne : e.1 ≠ a.1 := fun heq => Std.lt_irrefl (heq ▸ ha e h)
      rw [List.lookup_cons, beq_false_of_ne hne]
      exact ih hm h

omit [Std.IsLinearOrder κ] in
theorem find?_of_mem_entries {m : OrdMap κ ν} {k : κ} {v : ν} (h : (k, v) ∈ m.entries) : m.find? k = some v :=
  lookup_of_mem m.sorted h

omit [Std.IsLinearOrder κ] in
theorem mem_keys {m : OrdMap κ ν} {k : κ} : k ∈ m.keys ↔ ∃ v, m.find? k = some v := by
  constructor
  · intro h
    obtain ⟨e, he, rfl⟩ := List.mem_map.1 h
    exact ⟨e.2, find?_of_mem_entries he⟩
  · rintro ⟨v, hv⟩
    exact List.mem_map.2 ⟨(k, v), mem_entries_of_find? hv, rfl⟩

omit [DecidableEq κ] [Std.IsLinearOrder κ] in
theorem keys_nodup (m : OrdMap κ ν) : m.keys.Nodup := by
  refine List.Pairwise.map _ (fun a b hlt heq => ?_) m.sorted
  exact Std.lt_irrefl (heq ▸ hlt)

/-- Two maps with the same values are one map. -/
theorem ext_find? {m m' : OrdMap κ ν} (h : ∀ k, m.find? k = m'.find? k) : m = m' :=
  ext (eq_of_lookup_eq m.sorted m'.sorted h)

variable [DecidableLT κ]

theorem mem_entries_insert {m : OrdMap κ ν} {k : κ} {v : ν} {e : κ × ν} (h : e ∈ (m.insert k v).entries) :
    e = (k, v) ∨ e ∈ m.entries := by
  rcases find?_insert_eq_some.1 (find?_of_mem_entries h) with ⟨hk, hv⟩ | ⟨-, hold⟩
  · exact .inl (Prod.ext hk hv)
  · exact .inr (mem_entries_of_find? hold)

theorem filterKeys_insert_of_not {m : OrdMap κ ν} {p : κ → Bool} {k : κ} (h : p k = false) (v : ν) :
    (m.insert k v).filterKeys p = m.filterKeys p := by
  refine ext_find? fun x => ?_
  simp only [find?_filterKeys, find?_insert]
  split_ifs with hx hk
  · rw [hk, h] at hx
    cases hx
  · rfl
  · rfl

/-- A key has one entry at most. -/
theorem filter_key_eq {m : OrdMap κ ν} {k : κ} {v : ν} (h : m.find? k = some v) :
    m.entries.filter (fun e => e.1 = k) = [(k, v)] := by
  have hmap : m.filterKeys (fun x => decide (x = k)) = (∅ : OrdMap κ ν).insert k v := by
    refine ext_find? fun x => ?_
    rw [find?_filterKeys, find?_insert, find?_empty]
    simp only [decide_eq_true_eq]
    split_ifs with hx
    · rw [hx, h]
    · rfl
  exact congrArg entries hmap

theorem insert_insert (m : OrdMap κ ν) (k : κ) (v v' : ν) : (m.insert k v).insert k v' = m.insert k v' := by
  refine ext_find? fun x => ?_
  simp only [find?_insert]
  split <;> rfl

theorem insert_of_find? {m : OrdMap κ ν} {k : κ} {v : ν} (h : m.find? k = some v) : m.insert k v = m := by
  refine ext_find? fun x => ?_
  rw [find?_insert]
  split
  · rename_i hx
    rw [hx, h]
  · rfl

theorem erase_insert (m : OrdMap κ ν) (k : κ) (v : ν) : (m.insert k v).erase k = m.erase k := by
  refine ext_find? fun x => ?_
  simp only [find?_erase, find?_insert]
  split <;> rfl

end Ext

end OrdMap
