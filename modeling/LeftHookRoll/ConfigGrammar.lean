import LeftHookRoll.ConfigParser

/-!
# The grammar of a configuration file

A file is a list of server blocks; a block is a list of `Item`s. `WellFormed` says that every directive is
known and has the number of values it takes, `Worded` that no value and no location path is one of the
tokens `{`, `}` and `;`. A token sequence has one well-formed reading (`tokensOf_inj`).
-/

namespace LeftHookRoll

namespace ConfigParser

/-- One of the tokens `{`, `}`, `;`. -/
def IsPunctToken (t : Bytes) : Prop := t = [openBrace] ∨ t = [closeBrace] ∨ t = ascii ";"

instance (t : Bytes) : Decidable (IsPunctToken t) := inferInstanceAs (Decidable (_ ∨ _))

/-- A directive that ends with a semicolon. -/
structure Directive where
  name : Bytes
  values : List Bytes
deriving DecidableEq

inductive Arity
  | exactly (n : Nat)
  | oneOrMore

def serverArity (name : Bytes) : Option Arity :=
  if name = ascii "listen" then some (.exactly 1)
  else if name = ascii "server_name" then some (.exactly 1)
  else if name = ascii "client_max_body_size" then some (.exactly 1)
  else if name = ascii "error_page" then some (.exactly 2)
  else none

def locationArity (name : Bytes) : Option Arity :=
  if name = ascii "root" then some (.exactly 1)
  else if name = ascii "methods" then some .oneOrMore
  else if name = ascii "autoindex" then some (.exactly 1)
  else if name = ascii "index" then some (.exactly 1)
  else if name = ascii "upload_store" then some (.exactly 1)
  else if name = ascii "return" then some (.exactly 2)
  else if name = ascii "cgi_interpreter" then some (.exactly 2)
  else none

/-- A semicolon ends the values when their number is not fixed. -/
def Arity.Admits : Arity → List Bytes → Prop
  | .exactly n, values => values.length = n
  | .oneOrMore, values => values ≠ [] ∧ ascii ";" ∉ values

namespace Directive

def tokens (d : Directive) : List Bytes := d.name :: d.values ++ [ascii ";"]

/-- The directive is known, and has the number of values that it takes. -/
def WellFormed (arity : Bytes → Option Arity) (d : Directive) : Prop := ∃ a, arity d.name = some a ∧ a.Admits d.values

def Worded (d : Directive) : Prop := ∀ v ∈ d.values, ¬ IsPunctToken v

end Directive

/-- What stands in a server block. -/
inductive Item
  | directive (d : Directive)
  | location (path : Bytes) (ds : List Directive)

namespace Item

def tokens : Item → List Bytes
  | .directive d => d.tokens
  | .location path ds => ascii "location" :: path :: [openBrace] :: ds.flatMap Directive.tokens ++ [[closeBrace]]

def WellFormed : Item → Prop
  | .directive d => d.WellFormed serverArity
  | .location _ ds => ∀ d ∈ ds, d.WellFormed locationArity

def Worded : Item → Prop
  | .directive d => d.Worded
  | .location path ds => ¬ IsPunctToken path ∧ ∀ d ∈ ds, d.Worded

end Item

abbrev Block := List Item

def blockTokens (b : Block) : List Bytes := ascii "server" :: [openBrace] :: b.flatMap Item.tokens ++ [[closeBrace]]

def tokensOf (blocks : List Block) : List Bytes := blocks.flatMap blockTokens

def WellFormed (blocks : List Block) : Prop := ∀ b ∈ blocks, ∀ x ∈ b, x.WellFormed

def Worded (blocks : List Block) : Prop := ∀ b ∈ blocks, ∀ x ∈ b, x.Worded

/-- The documented grammar. -/
def Derivable (tokens : List Bytes) : Prop :=
  ∃ blocks, blocks ≠ [] ∧ WellFormed blocks ∧ Worded blocks ∧ tokensOf blocks = tokens

/-! ### The reading is unique -/

section Unique

variable {s s' : List Bytes}

theorem Arity.Admits.unique {a : Arity} {vs vs' : List Bytes} (h : a.Admits vs) (h' : a.Admits vs')
    (heq : vs ++ ascii ";" :: s = vs' ++ ascii ";" :: s') : vs = vs' ∧ s = s' := by
  cases a with
  | exactly n =>
    have hlen : vs.length = vs'.length := Eq.trans h (Eq.symm h')
    obtain ⟨hvs, hs⟩ := List.append_inj heq hlen
    exact ⟨hvs, (List.cons.inj hs).2⟩
  | oneOrMore => exact Cursor.append_cons_unique h.2 h'.2 heq

theorem directive_unique (arity : Bytes → Option Arity) :
    Cursor.UniqueReading Directive.tokens (Directive.WellFormed arity) := by
  rintro ⟨name, vs⟩ ⟨name', vs'⟩ ⟨a, ha, hvs⟩ ⟨a', ha', hvs'⟩ s s' heq
  rw [Directive.tokens, Directive.tokens, List.cons_append, List.cons_append, List.cons_append, List.cons_append] at heq
  obtain ⟨hname, hrest⟩ := List.cons.inj heq
  simp only at hname ha ha' hvs hvs'
  subst hname
  rw [ha] at ha'
  cases ha'
  rw [List.append_assoc, List.append_assoc] at hrest
  obtain ⟨rfl, hs⟩ := hvs.unique hvs' hrest
  exact ⟨rfl, hs⟩

theorem Directive.start {arity : Bytes → Option Arity} {z : Bytes} (hz : arity z = none) {d : Directive} {a : Arity}
    (ha : arity d.name = some a) : ∃ t r, d.tokens = t :: r ∧ t ≠ z := by
  refine ⟨d.name, d.values ++ [ascii ";"], rfl, ?_⟩
  rintro rfl
  rw [hz] at ha
  cases ha

theorem Directive.WellFormed.start {arity : Bytes → Option Arity} {z : Bytes} (hz : arity z = none) {d : Directive}
    (h : d.WellFormed arity) : ∃ t r, d.tokens = t :: r ∧ t ≠ z := by
  obtain ⟨a, ha, -⟩ := h
  exact Directive.start hz ha

theorem item_unique : Cursor.UniqueReading Item.tokens Item.WellFormed := by
  have hserver {d : Directive} {path : Bytes} {ds : List Directive} {s s' : List Bytes} (h : d.WellFormed serverArity) :
      (Item.directive d).tokens ++ s ≠ (Item.location path ds).tokens ++ s' := by
    intro heq
    obtain ⟨t, r, ht, hne⟩ := h.start (z := ascii "location") (by decide)
    rw [show (Item.directive d).tokens = t :: r from ht] at heq
    exact hne (List.cons.inj heq).1
  rintro (d | ⟨path, ds⟩) (d' | ⟨path', ds'⟩) h h' s s' heq
  · obtain ⟨rfl, hs⟩ := directive_unique serverArity d d' h h' s s' heq
    exact ⟨rfl, hs⟩
  · exact absurd heq (hserver h)
  · exact absurd heq.symm (hserver h')
  · simp only [Item.tokens, List.cons_append, List.append_assoc, List.nil_append, List.cons.injEq, true_and] at heq
    obtain ⟨rfl, heq⟩ := heq
    obtain ⟨rfl, hs⟩ := (directive_unique locationArity).until (fun _ hd => hd.start (by decide)) h h' heq
    exact ⟨rfl, hs⟩

theorem Item.WellFormed.start {x : Item} (h : x.WellFormed) : ∃ t r, x.tokens = t :: r ∧ t ≠ [closeBrace] := by
  rcases x with d | ⟨path, ds⟩
  · have hserver : d.WellFormed serverArity := h
    exact hserver.start (by decide)
  · exact ⟨ascii "location", _, rfl, by decide⟩

theorem block_unique : Cursor.UniqueReading blockTokens (fun b => ∀ x ∈ b, x.WellFormed) := by
  intro b b' h h' s s' heq
  simp only [blockTokens, List.cons_append, List.append_assoc, List.nil_append, List.cons.injEq, true_and] at heq
  exact item_unique.until (fun _ hx => hx.start) h h' heq

theorem tokensOf_inj {blocks blocks' : List Block} (h : WellFormed blocks) (h' : WellFormed blocks')
    (heq : tokensOf blocks = tokensOf blocks') : blocks = blocks' :=
  block_unique.all (fun _ _ => List.cons_ne_nil _ _) h h' heq

end Unique

end ConfigParser

end LeftHookRoll
