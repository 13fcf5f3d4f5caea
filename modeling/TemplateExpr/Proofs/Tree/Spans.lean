/-
  The spans of a tree: those of its statements, blocks, functions, parameters, entries,
  expressions and identifiers, in the order of the tree.

  * `spans_relabel`: a relabelling that knows only spans of spans acts on them one by one.
-/
import TemplateExpr.Proofs.Tree.Relabel

namespace TemplateExpr
open Source (Span)

mutual

def Expr.spans : Expr → List Span
  | .identifier id => [id.span]
  | .literal _ _ span | .this span => [span]
  | .array elements span => span :: spansOfList elements
  | .object properties span => span :: spansOfProperties properties
  | .member object property _ _ span => span :: (object.spans ++ property.spans)
  | .call callee arguments _ span => span :: (callee.spans ++ spansOfList arguments)
  | .unary _ argument span | .update _ _ argument span => span :: argument.spans
  | .binary _ left right span | .logical _ left right span | .assignment _ left right span =>
    span :: (left.spans ++ right.spans)
  | .conditional test consequent alternate span =>
    span :: (test.spans ++ consequent.spans ++ alternate.spans)
  | .sequence expressions span => span :: spansOfList expressions
  | .arrow lambda | .function lambda => lambda.spans

def spansOfList : List Expr → List Span
  | [] => []
  | e :: es => e.spans ++ spansOfList es

def Property.spans : Property → List Span
  | ⟨key, value, _, _, span⟩ => span :: (key.spans ++ value.spans)

def spansOfProperties : List Property → List Span
  | [] => []
  | p :: ps => p.spans ++ spansOfProperties ps

def Lambda.spans : Lambda → List Span
  | ⟨id, params, body, span⟩ =>
    span :: (id.toList.map (·.span) ++ spansOfParams params ++ body.spans)

def Param.spans : Param → List Span
  | .plain id => [id.span]
  | .withDefault id value span => span :: id.span :: value.spans

def spansOfParams : List Param → List Span
  | [] => []
  | p :: ps => p.spans ++ spansOfParams ps

def Body.spans : Body → List Span
  | .expression value => value.spans
  | .block statements span => span :: spansOfStatements statements

def Statement.spans : Statement → List Span
  | .expression value span => span :: value.spans
  | .return none span => [span]
  | .return (some argument) span => span :: argument.spans
  | .declaration lambda => lambda.spans

def spansOfStatements : List Statement → List Span
  | [] => []
  | s :: ss => s.spans ++ spansOfStatements ss

end

/-- Every span of the program. -/
def Program.spans (program : Program) : List Span :=
  program.span :: spansOfStatements program.body

theorem spansOfStatements_eq (ss : List Statement) :
    spansOfStatements ss = ss.flatMap Statement.spans := by
  induction ss with
  | nil => rfl
  | cons s ss ih => rw [spansOfStatements, ih, List.flatMap_cons]

/-! ## Relabelled trees -/

/-- What becomes of the span of an identifier is what becomes of any other span. -/
structure Relabel.Uniform (r : Relabel) : Prop where
  onName : ∀ id, (r.onName id).span = r.onSpan id.span
  onFunction : ∀ id, (r.onFunction id).span = r.onSpan id.span

section
variable {r : Relabel}

mutual

theorem Expr.spans_relabel (hr : r.Uniform) : ∀ e : Expr,
    (e.relabel r).spans = e.spans.map r.onSpan
  | .identifier id => by
    simp only [Expr.relabel, Expr.spans, hr.onName, List.map_cons, List.map_nil]
  | .literal _ _ _ | .this _ => rfl
  | .array elements _ => by
    simp only [Expr.relabel, Expr.spans, spansOfList_relabel hr elements, List.map_cons]
  | .object properties _ => by
    simp only [Expr.relabel, Expr.spans, spansOfProperties_relabel hr properties, List.map_cons]
  | .member object property _ _ _ => by
    simp only [Expr.relabel, Expr.spans, Expr.spans_relabel hr object,
      Expr.spans_relabel hr property, List.map_cons, List.map_append]
  | .call callee arguments _ _ => by
    simp only [Expr.relabel, Expr.spans, Expr.spans_relabel hr callee,
      spansOfList_relabel hr arguments, List.map_cons, List.map_append]
  | .unary _ argument _ | .update _ _ argument _ => by
    simp only [Expr.relabel, Expr.spans, Expr.spans_relabel hr argument, List.map_cons]
  | .binary _ left right _ | .logical _ left right _ | .assignment _ left right _ => by
    simp only [Expr.relabel, Expr.spans, Expr.spans_relabel hr left,
      Expr.spans_relabel hr right, List.map_cons, List.map_append]
  | .conditional test consequent alternate _ => by
    simp only [Expr.relabel, Expr.spans, Expr.spans_relabel hr test,
      Expr.spans_relabel hr consequent, Expr.spans_relabel hr alternate, List.map_cons,
      List.map_append]
  | .sequence expressions _ => by
    simp only [Expr.relabel, Expr.spans, spansOfList_relabel hr expressions, List.map_cons]
  | .arrow lambda | .function lambda => Lambda.spans_relabel hr lambda

theorem spansOfList_relabel (hr : r.Uniform) : ∀ es : List Expr,
    spansOfList (relabelList r es) = (spansOfList es).map r.onSpan
  | [] => rfl
  | e :: es => by
    simp only [relabelList, spansOfList, Expr.spans_relabel hr e, spansOfList_relabel hr es,
      List.map_append]

theorem Property.spans_relabel (hr : r.Uniform) : ∀ p : Property,
    (p.relabel r).spans = p.spans.map r.onSpan
  | ⟨key, value, _, _, _⟩ => by
    simp only [Property.relabel, Property.spans, Expr.spans_relabel hr key,
      Expr.spans_relabel hr value, List.map_cons, List.map_append]

theorem spansOfProperties_relabel (hr : r.Uniform) : ∀ ps : List Property,
    spansOfProperties (relabelProperties r ps) = (spansOfProperties ps).map r.onSpan
  | [] => rfl
  | p :: ps => by
    simp only [relabelProperties, spansOfProperties, Property.spans_relabel hr p,
      spansOfProperties_relabel hr ps, List.map_append]

theorem Lambda.spans_relabel (hr : r.Uniform) : ∀ f : Lambda,
    (f.relabel r).spans = f.spans.map r.onSpan
  | ⟨none, params, body, _⟩ => by
    simp only [Lambda.relabel, Lambda.spans, spansOfParams_relabel hr params,
      Body.spans_relabel hr body, Option.map_none, Option.toList_none, List.map_nil,
      List.nil_append, List.map_cons, List.map_append]
  | ⟨some id, params, body, _⟩ => by
    simp only [Lambda.relabel, Lambda.spans, spansOfParams_relabel hr params,
      Body.spans_relabel hr body, Option.map_some, Option.toList_some, List.map_cons,
      List.map_nil, List.map_append, hr.onFunction]

theorem Param.spans_relabel (hr : r.Uniform) : ∀ p : Param,
    (p.relabel r).spans = p.spans.map r.onSpan
  | .plain id => by
    simp only [Param.relabel, Param.spans, hr.onName, List.map_cons, List.map_nil]
  | .withDefault id value _ => by
    simp only [Param.relabel, Param.spans, hr.onName, Expr.spans_relabel hr value,
      List.map_cons]

theorem spansOfParams_relabel (hr : r.Uniform) : ∀ ps : List Param,
    spansOfParams (relabelParams r ps) = (spansOfParams ps).map r.onSpan
  | [] => rfl
  | p :: ps => by
    simp only [relabelParams, spansOfParams, Param.spans_relabel hr p,
      spansOfParams_relabel hr ps, List.map_append]

theorem Body.spans_relabel (hr : r.Uniform) : ∀ b : Body,
    (b.relabel r).spans = b.spans.map r.onSpan
  | .expression value => Expr.spans_relabel hr value
  | .block statements _ => by
    simp only [Body.relabel, Body.spans, spansOfStatements_relabel hr statements, List.map_cons]

theorem Statement.spans_relabel (hr : r.Uniform) : ∀ s : Statement,
    (s.relabel r).spans = s.spans.map r.onSpan
  | .expression value _ => by
    simp only [Statement.relabel, Statement.spans, Expr.spans_relabel hr value, List.map_cons]
  | .return none _ => rfl
  | .return (some argument) _ => by
    simp only [Statement.relabel, Statement.spans, Expr.spans_relabel hr argument,
      List.map_cons]
  | .declaration lambda => Lambda.spans_relabel hr lambda

theorem spansOfStatements_relabel (hr : r.Uniform) : ∀ ss : List Statement,
    spansOfStatements (relabelStatements r ss) = (spansOfStatements ss).map r.onSpan
  | [] => rfl
  | s :: ss => by
    simp only [relabelStatements, spansOfStatements, Statement.spans_relabel hr s,
      spansOfStatements_relabel hr ss, List.map_append]

end

end

end TemplateExpr
