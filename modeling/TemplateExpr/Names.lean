/-
  Lists of names without repetition, in the order in which the names were first given.

  * `Names.mem_insert`, `Names.mem_ofList`: what is in a list after adding to it.
-/
namespace TemplateExpr

/-- Names in the order of their first mention. -/
structure Names where
  toList : List String
  nodup : toList.Nodup := by simp
deriving DecidableEq, Repr

namespace Names

def empty : Names where
  toList := []

instance : Inhabited Names :=
  ⟨empty⟩

def contains (names : Names) (name : String) : Bool :=
  names.toList.contains name

def size (names : Names) : Nat :=
  names.toList.length

instance : Membership String Names :=
  ⟨fun names name => name ∈ names.toList⟩

theorem mem_def {name : String} {names : Names} : name ∈ names ↔ name ∈ names.toList :=
  Iff.rfl

instance (name : String) (names : Names) : Decidable (name ∈ names) :=
  inferInstanceAs (Decidable (name ∈ names.toList))

@[simp] theorem contains_eq_true_iff {names : Names} {name : String} :
    names.contains name = true ↔ name ∈ names := by
  simp [contains, mem_def]

/-- The list with `name` at its end, unless it has the name already. -/
def insert (names : Names) (name : String) : Names :=
  if h : name ∈ names.toList then names
  else
    { toList := names.toList ++ [name]
      nodup := List.nodup_append.2
        ⟨names.nodup, by simp, fun a ha b hb e => h (by simp at hb; subst hb e; exact ha)⟩ }

/-- The list with all of `more` inserted, one after the other. -/
def insertAll (names : Names) (more : List String) : Names :=
  more.foldl insert names

def ofList (names : List String) : Names :=
  empty.insertAll names

theorem toList_insert (names : Names) (name : String) :
    (names.insert name).toList =
      if name ∈ names.toList then names.toList else names.toList ++ [name] := by
  unfold insert
  by_cases h : name ∈ names.toList <;> simp [h]

theorem mem_insert {names : Names} {name other : String} :
    other ∈ names.insert name ↔ other ∈ names ∨ other = name := by
  rw [mem_def, toList_insert]
  split
  · next h => exact ⟨.inl, fun h' => h'.elim id fun e => e ▸ h⟩
  · simp [mem_def]

theorem mem_insertAll {names : Names} {more : List String} {name : String} :
    name ∈ names.insertAll more ↔ name ∈ names ∨ name ∈ more := by
  induction more generalizing names with
  | nil => simp [insertAll]
  | cons first more ih =>
    change name ∈ (names.insert first).insertAll more ↔ _
    rw [ih, mem_insert, List.mem_cons, or_assoc]

theorem mem_ofList {names : List String} {name : String} :
    name ∈ ofList names ↔ name ∈ names := by
  rw [ofList, mem_insertAll]
  simp [mem_def, empty]

/-- The names of the language itself that a template may use. -/
def defaultGlobals : Names :=
  ofList ["Math", "String", "Boolean", "Object"]

end Names

end TemplateExpr
