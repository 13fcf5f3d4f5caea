/-
  The outline of a tree: its spans, each with the outlines of the parts that it has in the
  source. An outline nests if every span has a character and holds its parts, which stand one
  behind the other; the key and the value of a shorthand entry are one name, and share its span.

  * `Expr.spans_outline`: the spans of a tree are those of its outline.
  * `Outline.Nests.between`: in an outline that nests, every span lies within the span at the top.
-/
import TemplateExpr.Proofs.Tree.Spans

namespace TemplateExpr
open Source (Span)

inductive Outline where
  | node (span : Span) (parts : List Outline)
  /-- An entry of an object that is a name alone. -/
  | shorthand (span : Span) (key value : Outline)

namespace Outline

def span : Outline → Span
  | node span _ | shorthand span _ _ => span

@[simp] theorem span_node (span : Span) (parts : List Outline) :
    (node span parts).span = span := rfl

mutual

/-- The spans in the order of the tree. -/
def spans : Outline → List Span
  | node span parts => span :: spansOfParts parts
  | shorthand span key value => span :: (key.spans ++ value.spans)

def spansOfParts : List Outline → List Span
  | [] => []
  | part :: parts => part.spans ++ spansOfParts parts

end

theorem spansOfParts_eq (parts : List Outline) : spansOfParts parts = parts.flatMap spans := by
  induction parts with
  | nil => rfl
  | cons part parts ih => rw [spansOfParts, ih, List.flatMap_cons]

/-- The one ends before the other begins. -/
def Before (a b : Outline) : Prop :=
  a.span.stop.offset ≤ b.span.start.offset

end Outline

/-! ## Outlines of trees -/

/-- A name has no parts. -/
def Identifier.outline (id : Identifier) : Outline :=
  .node id.span []

mutual

def Expr.outline : Expr → Outline
  | .identifier id => id.outline
  | .literal _ _ span | .this span => .node span []
  | .array elements span => .node span (outlinesOfList elements)
  | .object properties span => .node span (outlinesOfProperties properties)
  | .member object property _ _ span => .node span [object.outline, property.outline]
  | .call callee arguments _ span => .node span (callee.outline :: outlinesOfList arguments)
  | .unary _ argument span | .update _ _ argument span => .node span [argument.outline]
  | .binary _ left right span | .logical _ left right span | .assignment _ left right span =>
    .node span [left.outline, right.outline]
  | .conditional test consequent alternate span =>
    .node span [test.outline, consequent.outline, alternate.outline]
  | .sequence expressions span => .node span (outlinesOfList expressions)
  | .arrow lambda | .function lambda => lambda.outline

def outlinesOfList : List Expr → List Outline
  | [] => []
  | e :: es => e.outline :: outlinesOfList es

def Property.outline : Property → Outline
  | ⟨key, value, _, true, span⟩ => .shorthand span key.outline value.outline
  | ⟨key, value, _, false, span⟩ => .node span [key.outline, value.outline]

def outlinesOfProperties : List Property → List Outline
  | [] => []
  | p :: ps => p.outline :: outlinesOfProperties ps

def Lambda.outline : Lambda → Outline
  | ⟨id, params, body, span⟩ =>
    .node span (id.toList.map Identifier.outline ++ (outlinesOfParams params ++ [body.outline]))

def Param.outline : Param → Outline
  | .plain id => id.outline
  | .withDefault id value span => .node span [id.outline, value.outline]

def outlinesOfParams : List Param → List Outline
  | [] => []
  | p :: ps => p.outline :: outlinesOfParams ps

def Body.outline : Body → Outline
  | .expression value => value.outline
  | .block statements span => .node span (outlinesOfStatements statements)

def Statement.outline : Statement → Outline
  | .expression value span => .node span [value.outline]
  | .return none span => .node span []
  | .return (some argument) span => .node span [argument.outline]
  | .declaration lambda => lambda.outline

def outlinesOfStatements : List Statement → List Outline
  | [] => []
  | s :: ss => s.outline :: outlinesOfStatements ss

end

theorem outlinesOfList_eq (es : List Expr) : outlinesOfList es = es.map Expr.outline := by
  induction es with
  | nil => rfl
  | cons e es ih => rw [outlinesOfList, ih, List.map_cons]

theorem outlinesOfProperties_eq (ps : List Property) :
    outlinesOfProperties ps = ps.map Property.outline := by
  induction ps with
  | nil => rfl
  | cons p ps ih => rw [outlinesOfProperties, ih, List.map_cons]

theorem outlinesOfParams_eq (ps : List Param) : outlinesOfParams ps = ps.map Param.outline := by
  induction ps with
  | nil => rfl
  | cons p ps ih => rw [outlinesOfParams, ih, List.map_cons]

theorem outlinesOfStatements_eq (ss : List Statement) :
    outlinesOfStatements ss = ss.map Statement.outline := by
  induction ss with
  | nil => rfl
  | cons s ss ih => rw [outlinesOfStatements, ih, List.map_cons]

@[simp] theorem Identifier.span_outline (id : Identifier) : id.outline.span = id.span := rfl

theorem Lambda.span_outline (f : Lambda) : f.outline.span = f.span := by
  cases f
  rfl

@[simp] theorem Expr.span_outline (e : Expr) : e.outline.span = e.span := by
  cases e with
  | arrow lambda | function lambda => exact lambda.span_outline
  | _ => rfl

@[simp] theorem Statement.span_outline (s : Statement) : s.outline.span = s.span := by
  cases s with
  | «return» argument => cases argument <;> rfl
  | declaration lambda => exact lambda.span_outline
  | expression => rfl

mutual

/-- The outline has all spans of the tree. -/
theorem Expr.spans_outline : ∀ e : Expr, e.outline.spans = e.spans
  | .identifier _ | .literal _ _ _ | .this _ => rfl
  | .array elements span => congrArg (span :: ·) (spansOfList_outlines elements)
  | .object properties span => congrArg (span :: ·) (spansOfProperties_outlines properties)
  | .member object property _ _ _ => by
    simp only [Expr.outline, Outline.spans, Outline.spansOfParts, Expr.spans,
      Expr.spans_outline object, Expr.spans_outline property, List.append_nil]
  | .call callee arguments _ _ => by
    simp only [Expr.outline, Outline.spans, Outline.spansOfParts, Expr.spans,
      Expr.spans_outline callee, spansOfList_outlines arguments]
  | .unary _ argument _ | .update _ _ argument _ => by
    simp only [Expr.outline, Outline.spans, Outline.spansOfParts, Expr.spans,
      Expr.spans_outline argument, List.append_nil]
  | .binary _ left right _ | .logical _ left right _ | .assignment _ left right _ => by
    simp only [Expr.outline, Outline.spans, Outline.spansOfParts, Expr.spans,
      Expr.spans_outline left, Expr.spans_outline right, List.append_nil]
  | .conditional test consequent alternate _ => by
    simp only [Expr.outline, Outline.spans, Outline.spansOfParts, Expr.spans,
      Expr.spans_outline test, Expr.spans_outline consequent, Expr.spans_outline alternate,
      List.append_nil, List.append_assoc]
  | .sequence expressions span => congrArg (span :: ·) (spansOfList_outlines expressions)
  | .arrow lambda | .function lambda => Lambda.spans_outline lambda

theorem spansOfList_outlines : ∀ es : List Expr,
    Outline.spansOfParts (outlinesOfList es) = spansOfList es
  | [] => rfl
  | e :: es => by
    rw [outlinesOfList, Outline.spansOfParts, Expr.spans_outline e, spansOfList_outlines es,
      spansOfList]

theorem Property.spans_outline : ∀ p : Property, p.outline.spans = p.spans
  | ⟨key, value, _, true, _⟩ => by
    rw [Property.outline, Outline.spans, Expr.spans_outline key, Expr.spans_outline value,
      Property.spans]
  | ⟨key, value, _, false, _⟩ => by
    simp only [Property.outline, Outline.spans, Outline.spansOfParts, Property.spans,
      Expr.spans_outline key, Expr.spans_outline value, List.append_nil]

theorem spansOfProperties_outlines : ∀ ps : List Property,
    Outline.spansOfParts (outlinesOfProperties ps) = spansOfProperties ps
  | [] => rfl
  | p :: ps => by
    rw [outlinesOfProperties, Outline.spansOfParts, Property.spans_outline p,
      spansOfProperties_outlines ps, spansOfProperties]

theorem Lambda.spans_outline : ∀ f : Lambda, f.outline.spans = f.spans
  | ⟨none, params, body, span⟩ => by
    simp only [Lambda.outline, Outline.spans, Outline.spansOfParts_eq, Lambda.spans,
      Option.toList_none, List.map_nil, List.nil_append, List.flatMap_append,
      List.flatMap_singleton, ← spansOfParams_outlines params, Body.spans_outline body]
  | ⟨some id, params, body, span⟩ => by
    simp only [Lambda.outline, Outline.spans, Outline.spansOfParts_eq, Lambda.spans,
      Option.toList_some, List.map_cons, List.map_nil, List.flatMap_append,
      List.flatMap_singleton, ← spansOfParams_outlines params, Body.spans_outline body,
      Identifier.outline, List.flatMap_nil, List.append_assoc]

theorem Param.spans_outline : ∀ p : Param, p.outline.spans = p.spans
  | .plain _ => rfl
  | .withDefault _ value _ => by
    simp only [Param.outline, Outline.spans, Outline.spansOfParts, Param.spans,
      Identifier.outline, Expr.spans_outline value, List.append_nil, List.cons_append,
      List.nil_append]

theorem spansOfParams_outlines : ∀ ps : List Param,
    Outline.spansOfParts (outlinesOfParams ps) = spansOfParams ps
  | [] => rfl
  | p :: ps => by
    rw [outlinesOfParams, Outline.spansOfParts, Param.spans_outline p,
      spansOfParams_outlines ps, spansOfParams]

theorem Body.spans_outline : ∀ b : Body, b.outline.spans = b.spans
  | .expression value => Expr.spans_outline value
  | .block statements span => congrArg (span :: ·) (spansOfStatements_outlines statements)

theorem Statement.spans_outline : ∀ s : Statement, s.outline.spans = s.spans
  | .expression value _ | .return (some value) _ => by
    simp only [Statement.outline, Outline.spans, Outline.spansOfParts, Statement.spans,
      Expr.spans_outline value, List.append_nil]
  | .return none _ => rfl
  | .declaration lambda => Lambda.spans_outline lambda

theorem spansOfStatements_outlines : ∀ ss : List Statement,
    Outline.spansOfParts (outlinesOfStatements ss) = spansOfStatements ss
  | [] => rfl
  | s :: ss => by
    rw [outlinesOfStatements, Outline.spansOfParts, Statement.spans_outline s,
      spansOfStatements_outlines ss, spansOfStatements]

end

/-! ## Nesting -/

/-- The span has a character, and lies between the two offsets. -/
structure Source.Span.Between (low high : Nat) (span : Span) : Prop where
  low_le : low ≤ span.start.offset
  start_lt : span.start.offset < span.stop.offset
  le_high : span.stop.offset ≤ high

/-- The span has a character, and lies within the other one. -/
def Source.Span.Within (outer span : Span) : Prop :=
  span.Between outer.start.offset outer.stop.offset

theorem Source.Span.Between.within {low high : Nat} {outer span : Span}
    (h : outer.Between low high) (hs : outer.Within span) : span.Between low high :=
  ⟨Nat.le_trans h.low_le hs.low_le, hs.start_lt, Nat.le_trans hs.le_high h.le_high⟩

namespace Outline

/-- Every span has a character and holds its parts, which stand one behind the other in the
    order of the tree. -/
inductive Nests : Outline → Prop
  | node {span parts} : span.start.offset < span.stop.offset →
    (∀ part ∈ parts, span.Within part.span) → parts.Pairwise Before →
    (∀ part ∈ parts, Nests part) → Nests (node span parts)
  /-- The key and the value have one span, which is that of the entry. -/
  | shorthand {span key value} : span.start.offset < span.stop.offset →
    key.span = span → value.span = span → Nests key → Nests value →
    Nests (shorthand span key value)

variable {outline : Outline} {low high : Nat}

theorem Nests.start_lt (h : outline.Nests) :
    outline.span.start.offset < outline.span.stop.offset := by
  cases h <;> assumption

theorem Nests.leaf {span : Span} (h : span.start.offset < span.stop.offset) :
    Nests (.node span []) :=
  .node h (List.forall_mem_nil _) .nil (List.forall_mem_nil _)

/-- Where the span at the top lies, all spans lie. -/
theorem Nests.between (h : outline.Nests) (hb : outline.span.Between low high) :
    ∀ span ∈ outline.spans, span.Between low high := by
  induction h generalizing low high with
  | node _ hw _ _ ih =>
    refine List.forall_mem_cons.2 ⟨hb, fun inner hi => ?_⟩
    rw [spansOfParts_eq] at hi
    obtain ⟨part, hp, hi⟩ := List.mem_flatMap.1 hi
    exact ih part hp (hb.within (hw part hp)) inner hi
  | shorthand _ hk hv _ _ ihk ihv =>
    refine List.forall_mem_cons.2 ⟨hb, List.forall_mem_append.2 ⟨ihk ?_, ihv ?_⟩⟩
    · rw [hk]; exact hb
    · rw [hv]; exact hb

end Outline

end TemplateExpr
