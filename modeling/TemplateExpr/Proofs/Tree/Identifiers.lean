/-
  The identifiers of a relabelled tree.

  * `Program.identifiers_relabel`: a relabelling that treats the names of functions like other
    names acts on the identifiers one by one.
-/
import TemplateExpr.Syntax.Identifiers
import TemplateExpr.Proofs.Tree.Relabel

namespace TemplateExpr

section
variable {r : Relabel}

mutual

theorem Expr.identifiers_relabel (h : r.onFunction = r.onName) : ∀ e : Expr,
    (e.relabel r).identifiers = e.identifiers.map r.onName
  | .identifier _ | .literal _ _ _ | .this _ => rfl
  | .array elements _ => identifiersOfList_relabel h elements
  | .object properties _ => identifiersOfProperties_relabel h properties
  | .member object property _ _ _ => by
    simp only [Expr.relabel, Expr.identifiers, Expr.identifiers_relabel h object,
      Expr.identifiers_relabel h property, List.map_append]
  | .call callee arguments _ _ => by
    simp only [Expr.relabel, Expr.identifiers, Expr.identifiers_relabel h callee,
      identifiersOfList_relabel h arguments, List.map_append]
  | .unary _ argument _ | .update _ _ argument _ => Expr.identifiers_relabel h argument
  | .binary _ left right _ | .logical _ left right _ | .assignment _ left right _ => by
    simp only [Expr.relabel, Expr.identifiers, Expr.identifiers_relabel h left,
      Expr.identifiers_relabel h right, List.map_append]
  | .conditional test consequent alternate _ => by
    simp only [Expr.relabel, Expr.identifiers, Expr.identifiers_relabel h test,
      Expr.identifiers_relabel h consequent, Expr.identifiers_relabel h alternate,
      List.map_append]
  | .sequence expressions _ => identifiersOfList_relabel h expressions
  | .arrow lambda | .function lambda => Lambda.identifiers_relabel h lambda

theorem identifiersOfList_relabel (h : r.onFunction = r.onName) : ∀ es : List Expr,
    identifiersOfList (relabelList r es) = (identifiersOfList es).map r.onName
  | [] => rfl
  | e :: es => by
    simp only [relabelList, identifiersOfList, Expr.identifiers_relabel h e,
      identifiersOfList_relabel h es, List.map_append]

theorem Property.identifiers_relabel (h : r.onFunction = r.onName) : ∀ p : Property,
    (p.relabel r).identifiers = p.identifiers.map r.onName
  | ⟨_, value, _, true, _⟩ => Expr.identifiers_relabel h value
  | ⟨key, value, _, false, _⟩ => by
    simp only [Property.relabel, Property.identifiers, Bool.false_eq_true, if_false,
      Expr.identifiers_relabel h key, Expr.identifiers_relabel h value, List.map_append]

theorem identifiersOfProperties_relabel (h : r.onFunction = r.onName) : ∀ ps : List Property,
    identifiersOfProperties (relabelProperties r ps) = (identifiersOfProperties ps).map r.onName
  | [] => rfl
  | p :: ps => by
    simp only [relabelProperties, identifiersOfProperties, Property.identifiers_relabel h p,
      identifiersOfProperties_relabel h ps, List.map_append]

theorem Lambda.identifiers_relabel (h : r.onFunction = r.onName) : ∀ f : Lambda,
    (f.relabel r).identifiers = f.identifiers.map r.onName
  | ⟨id, params, body, _⟩ => by
    have hid : (id.map r.onFunction).toList = id.toList.map r.onName := by
      cases id with
      | none => rfl
      | some id => rw [h]; rfl
    simp only [Lambda.relabel, Lambda.identifiers, hid, identifiersOfParams_relabel h params,
      Body.identifiers_relabel h body, List.map_append]

theorem Param.identifiers_relabel (h : r.onFunction = r.onName) : ∀ p : Param,
    (p.relabel r).identifiers = p.identifiers.map r.onName
  | .plain _ => rfl
  | .withDefault id value _ =>
    congrArg (r.onName id :: ·) (Expr.identifiers_relabel h value)

theorem identifiersOfParams_relabel (h : r.onFunction = r.onName) : ∀ ps : List Param,
    identifiersOfParams (relabelParams r ps) = (identifiersOfParams ps).map r.onName
  | [] => rfl
  | p :: ps => by
    simp only [relabelParams, identifiersOfParams, Param.identifiers_relabel h p,
      identifiersOfParams_relabel h ps, List.map_append]

theorem Body.identifiers_relabel (h : r.onFunction = r.onName) : ∀ b : Body,
    (b.relabel r).identifiers = b.identifiers.map r.onName
  | .expression value => Expr.identifiers_relabel h value
  | .block statements _ => identifiersOfStatements_relabel h statements

theorem Statement.identifiers_relabel (h : r.onFunction = r.onName) : ∀ s : Statement,
    (s.relabel r).identifiers = s.identifiers.map r.onName
  | .expression value _ => Expr.identifiers_relabel h value
  | .return none _ => rfl
  | .return (some argument) _ => Expr.identifiers_relabel h argument
  | .declaration lambda => Lambda.identifiers_relabel h lambda

theorem identifiersOfStatements_relabel (h : r.onFunction = r.onName) : ∀ ss : List Statement,
    identifiersOfStatements (relabelStatements r ss) = (identifiersOfStatements ss).map r.onName
  | [] => rfl
  | s :: ss => by
    simp only [relabelStatements, identifiersOfStatements, Statement.identifiers_relabel h s,
      identifiersOfStatements_relabel h ss, List.map_append]

end

/-- The identifiers of a relabelled program are those of the program, relabelled. -/
theorem Program.identifiers_relabel (h : r.onFunction = r.onName) (p : Program) :
    (p.relabel r).identifiers = p.identifiers.map r.onName :=
  identifiersOfStatements_relabel h p.body

end

end TemplateExpr
