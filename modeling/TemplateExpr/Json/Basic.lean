/-
  JSON values. The entries of an object keep their order. Numbers with a fraction or an
  exponent are kept apart from whole numbers.
-/
namespace TemplateExpr

inductive Json where
  | null
  | boolean (value : Bool)
  | whole (value : Int)
  | float (value : Float)
  | text (value : String)
  | array (items : List Json)
  | object (entries : List (String × Json))
deriving Repr, Inhabited

namespace Json

mutual

/-- How many arrays and objects are nested in the value, one added. -/
def depth : Json → Nat
  | null | boolean _ | whole _ | float _ | text _ => 1
  | array items => 1 + depthOfItems items
  | object entries => 1 + depthOfEntries entries

def depthOfItems : List Json → Nat
  | [] => 0
  | item :: items => max item.depth (depthOfItems items)

def depthOfEntries : List (String × Json) → Nat
  | [] => 0
  | (_, value) :: entries => max value.depth (depthOfEntries entries)

end

/-- The value of the first entry with this key; nothing if there is none or if the value is no
    object. -/
def field? (key : String) : Json → Option Json
  | object entries => entries.lookup key
  | _ => none

def text? : Json → Option String
  | text value => some value
  | _ => none

def boolean? : Json → Option Bool
  | boolean value => some value
  | _ => none

def items? : Json → Option (List Json)
  | array items => some items
  | _ => none

/-- A whole number from zero to the largest of 64 bits. -/
def natural? : Json → Option Nat
  | whole (.ofNat n) => if n < UInt64.size then some n else none
  | _ => none

/-- The items of an array, all read in the same way. -/
def listOf? {α : Type} (read : Json → Option α) (json : Json) : Option (List α) :=
  json.items?.bind fun items => items.mapM read

/-- An entry that has to be there. -/
def required? {α : Type} (key : String) (read : Json → Option α) (json : Json) : Option α :=
  (json.field? key).bind read

/-- An entry that may be missing or null. -/
def optional? {α : Type} (key : String) (read : Json → Option α) (json : Json) :
    Option (Option α) :=
  match json.field? key with
  | none | some null => some none
  | some value => (read value).map some

/-- A list of texts. -/
def texts (items : List String) : Json :=
  array (items.map text)

end Json

end TemplateExpr
