/-
  Sigils: the characters that may stand before a name and say where its value is looked up,
  the contexts they stand for, and the grammars that accept some of them.

  * `Sigil.ofChar?_char`: a sigil is read back from its character.
  * `Context.sigil?_eq_some_iff`: three contexts have a sigil, and each sigil one context.
-/
import TemplateExpr.Text.CharClass

namespace TemplateExpr

/-- The character before a name: `#` for component state, `@` for a variable of the loop or
    scope around the expression, `$` for a data store. -/
inductive Sigil where
  | state
  | scope
  | store
deriving DecidableEq, Repr, Inhabited

/-- What a name is looked up in. A name without a sigil is a helper or a property. -/
inductive Context where
  | property
  | state
  | scope
  | store
  | helper
deriving DecidableEq, Repr, Inhabited

namespace Sigil

/-- The sigils in the order in which sets of them are listed. -/
def all : List Sigil :=
  [state, scope, store]

def char : Sigil → Char
  | state => '#'
  | scope => '@'
  | store => '$'

def ofChar? : Char → Option Sigil
  | '#' => some state
  | '@' => some scope
  | '$' => some store
  | _ => none

@[simp] theorem ofChar?_char (sigil : Sigil) : ofChar? sigil.char = some sigil := by
  cases sigil <;> rfl

theorem char_injective {a b : Sigil} (h : a.char = b.char) : a = b := by
  rw [← Option.some.injEq, ← ofChar?_char, h, ofChar?_char]

theorem char_of_ofChar? {c : Char} {sigil : Sigil} (h : ofChar? c = some sigil) :
    sigil.char = c := by
  unfold ofChar? at h
  split at h <;> simp_all [char] <;> subst h <;> rfl

/-- The context that a name with this sigil has. -/
def context : Sigil → Context
  | state => .state
  | scope => .scope
  | store => .store

end Sigil

namespace Context

/-- The word for the context in output. -/
def word : Context → String
  | property => "property"
  | state => "state"
  | scope => "variable"
  | store => "store"
  | helper => "helper"

def ofWord? (word : String) : Option Context :=
  [property, state, scope, store, helper].find? (·.word == word)

theorem ofWord?_word (context : Context) : ofWord? context.word = some context := by
  cases context <;> simp [ofWord?, word, List.find?]

/-- The sigil that a name of this context is written with. -/
def sigil? : Context → Option Sigil
  | state => some .state
  | scope => some .scope
  | store => some .store
  | property | helper => none

theorem sigil?_eq_some_iff (context : Context) (sigil : Sigil) :
    context.sigil? = some sigil ↔ sigil.context = context := by
  cases context <;> cases sigil <;> simp [sigil?, Sigil.context]

end Context

/-- A name without its sigil, and the sigil if it has one. -/
def sigilAndName (name : String) : Option Sigil × String :=
  match name.toList with
  | [] => (none, name)
  | c :: rest =>
    match Sigil.ofChar? c with
    | some sigil => (some sigil, String.ofList rest)
    | none => (none, name)

/-- A name with the sigil of its context in front, if the context has one. -/
def Context.write (context : Option Context) (name : String) : String :=
  match context.bind Context.sigil? with
  | some sigil => String.ofList (sigil.char :: name.toList)
  | none => name

/-- Which sigils a name may begin with. -/
structure Grammar where
  state : Bool
  scope : Bool
  store : Bool
deriving DecidableEq, Repr

namespace Grammar

/-- Plain expressions: no sigil is special. -/
def base : Grammar :=
  ⟨false, false, false⟩

/-- The sigil may begin a name. -/
def accepts (g : Grammar) : Sigil → Bool
  | .state => g.state
  | .scope => g.scope
  | .store => g.store

/-- The grammar with more sigils. -/
def extend (g : Grammar) (sigils : List Sigil) : Grammar :=
  ⟨g.state || sigils.contains .state, g.scope || sigils.contains .scope,
    g.store || sigils.contains .store⟩

/-- Template expressions: every sigil may begin a name. -/
def template : Grammar :=
  base.extend Sigil.all

instance : Inhabited Grammar :=
  ⟨template⟩

/-- The accepted sigil that the character is. -/
def sigil? (g : Grammar) (c : Char) : Option Sigil :=
  (Sigil.ofChar? c).filter g.accepts

end Grammar

end TemplateExpr
