/-
  Reading the entries of an object whose entries are known, and reading back the parts of a node
  that are no trees: positions, spans, identifiers and the values of literals.

  * `Json.required?_head`, `Json.required?_tail`: a look-up goes from entry to entry.
  * `Span.ofJson?_toJson`, `Identifier.ofJson?_toJson`: what is written is read back.
-/
import TemplateExpr.Codec.OfTree

namespace TemplateExpr
open Source (Position Span)

namespace Json
variable {α : Type} {key other : String} {read : Json → Option α} {value item : Json}
  {entries : List (String × Json)} {items : List Json} {n : Nat}

/-! ## Looking up entries -/

@[simp] theorem field?_head : (object ((key, value) :: entries)).field? key = some value := by
  rw [field?, List.lookup_cons_self]

@[simp] theorem field?_tail (h : key ≠ other) :
    (object ((other, value) :: entries)).field? key = (object entries).field? key := by
  rw [field?, List.lookup_cons, beq_false_of_ne h]
  rfl

@[simp] theorem required?_head :
    (object ((key, value) :: entries)).required? key read = read value := by
  rw [required?, field?_head, Option.bind_some]

@[simp] theorem required?_tail (h : key ≠ other) :
    (object ((other, value) :: entries)).required? key read =
      (object entries).required? key read := by
  rw [required?, field?_tail h, required?]

@[simp] theorem required?_nil : (object []).required? key read = none := rfl

theorem optional?_head (h : value ≠ null) :
    (object ((key, value) :: entries)).optional? key read = (read value).map some := by
  rw [optional?, field?_head]
  cases value with
  | null => exact absurd rfl h
  | _ => rfl

@[simp] theorem optional?_head_null :
    (object ((key, null) :: entries)).optional? key read = some none := by
  rw [optional?, field?_head]

@[simp] theorem optional?_tail (h : key ≠ other) :
    (object ((other, value) :: entries)).optional? key read =
      (object entries).optional? key read := by
  rw [optional?, field?_tail h, optional?]

@[simp] theorem optional?_nil : (object []).optional? key read = some none := rfl

@[simp] theorem text?_text (text : String) : (Json.text text).text? = some text := rfl

@[simp] theorem boolean?_boolean (value : Bool) : (boolean value).boolean? = some value := rfl

/-- A reader that looks at the kind first goes on with the kind. -/
theorem bind_kind {kind : String} {f : String → Option α} :
    ((object (("type", .text kind) :: entries)).required? "type" text? >>= f) = f kind := by
  rw [required?_head]
  rfl

/-! ## Reading lists -/

theorem listOf?_cons {a : α} {as : List α} (ha : read item = some a)
    (has : (array items).listOf? read = some as) :
    (array (item :: items)).listOf? read = some (a :: as) := by
  change items.mapM read = some as at has
  change (item :: items).mapM read = some (a :: as)
  rw [List.mapM_cons, ha, has]
  rfl

/-! ## How deep the parts are nested -/

theorem one_le_depth : ∀ json : Json, 1 ≤ json.depth
  | null | boolean _ | whole _ | float _ | text _ => Nat.le_refl 1
  | array _ | object _ => Nat.le_add_right 1 _

@[simp] theorem depth_object_le : (object entries).depth ≤ n + 1 ↔ depthOfEntries entries ≤ n := by
  rw [depth]
  omega

theorem depthOfEntries_le (h : (object entries).depth ≤ n) : depthOfEntries entries ≤ n := by
  rw [depth] at h
  omega

theorem depthOfItems_le (h : (array items).depth ≤ n) : depthOfItems items ≤ n := by
  rw [depth] at h
  omega

@[simp] theorem depthOfItems_cons_le :
    depthOfItems (item :: items) ≤ n ↔ item.depth ≤ n ∧ depthOfItems items ≤ n := by
  rw [depthOfItems]
  omega

@[simp] theorem depthOfEntries_cons_le : depthOfEntries ((key, value) :: entries) ≤ n ↔
    value.depth ≤ n ∧ depthOfEntries entries ≤ n := by
  rw [depthOfEntries]
  omega

theorem depth_le_of_mem (h : depthOfEntries entries ≤ n) (hm : (key, value) ∈ entries) :
    value.depth ≤ n := by
  induction entries with
  | nil => cases hm
  | cons entry entries ih =>
    obtain ⟨hv, he⟩ := depthOfEntries_cons_le.1 h
    cases hm with
    | head => exact hv
    | tail _ hm => exact ih he hm

end Json

/-! ## Places -/

/-- The number can be read back. -/
theorem Json.natural?_whole {n : Nat} (h : n < UInt64.size) :
    (Json.whole n).natural? = some n :=
  if_pos h

/-- Line and column are numbers of 64 bits. -/
def Source.Position.Fits (p : Position) : Prop :=
  p.line < UInt64.size ∧ p.column < UInt64.size

/-- Offsets, lines and columns are numbers of 64 bits. -/
structure Source.Span.Fits (span : Span) : Prop where
  start : span.start.offset < UInt64.size
  stop : span.stop.offset < UInt64.size
  first : span.start.position.Fits
  last : span.stop.position.Fits

theorem Source.Position.ofJson?_toJson {p : Position} (h : p.Fits) :
    ofJson? p.toJson = some p := by
  simp [ofJson?, toJson, Json.natural?_whole h.1, Json.natural?_whole h.2]

@[simp] theorem Source.Span.ofJson?_toJson {span : Span} (h : span.Fits) :
    ofJson? span.toJson = some span := by
  simp [ofJson?, toJson, Json.natural?_whole h.start, Json.natural?_whole h.stop,
    Position.ofJson?_toJson h.first, Position.ofJson?_toJson h.last]

/-! ## Names and values -/

@[simp] theorem Identifier.ofJson?_toJson {id : Identifier} (h : id.span.Fits) :
    ofJson? id.toJson = some id := by
  obtain ⟨name, context, span⟩ := id
  have hs : Span.ofJson? span.toJson = some span := Span.ofJson?_toJson h
  cases context with
  | none => simp [ofJson?, toJson, entries, hs]
  | some context =>
    simp [ofJson?, toJson, entries, hs, Json.optional?_head, Context.ofJson?,
      Context.ofWord?_word]

/-- The entry that tells what the identifier stands for is not looked at. -/
@[simp] theorem Identifier.ofJson?_type {id : Identifier} {kind : Json} (h : id.span.Fits) :
    ofJson? (.object (("type", kind) :: id.entries)) = some id := by
  rw [← Identifier.ofJson?_toJson h]
  simp [ofJson?, toJson]

/-- The number is finite, if the value is a number. -/
def LiteralValue.isFinite : LiteralValue → Bool
  | number value => value.isFinite
  | null | boolean _ | text _ => true

/-- The value that JSON keeps: null in place of a number that is not finite. -/
def LiteralValue.kept (value : LiteralValue) : LiteralValue :=
  if value.isFinite then value else null

@[simp] theorem LiteralValue.ofJson?_toJson (value : LiteralValue) :
    ofJson? value.toJson = some value.kept := by
  cases value with
  | number value =>
    rw [toJson, kept, isFinite]
    split <;> rfl
  | null | boolean | text => rfl

end TemplateExpr
