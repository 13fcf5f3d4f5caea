/-
  The identifiers of a tree in the order of the text. A shorthand entry of an object counts
  once, by its value.
-/
import TemplateExpr.Syntax.Tree

namespace TemplateExpr

mutual

def Expr.identifiers : Expr → List Identifier
  | .identifier id => [id]
  | .literal _ _ _ | .this _ => []
  | .array elements _ => identifiersOfList elements
  | .object properties _ => identifiersOfProperties properties
  | .member object property _ _ _ => object.identifiers ++ property.identifiers
  | .call callee arguments _ _ => callee.identifiers ++ identifiersOfList arguments
  | .unary _ argument _ | .update _ _ argument _ => argument.identifiers
  | .binary _ left right _ | .logical _ left right _ | .assignment _ left right _ =>
    left.identifiers ++ right.identifiers
  | .conditional test consequent alternate _ =>
    test.identifiers ++ consequent.identifiers ++ alternate.identifiers
  | .sequence expressions _ => identifiersOfList expressions
  | .arrow lambda | .function lambda => lambda.identifiers

def identifiersOfList : List Expr → List Identifier
  | [] => []
  | e :: es => e.identifiers ++ identifiersOfList es

def Property.identifiers : Property → List Identifier
  | ⟨key, value, _, shorthand, _⟩ =>
    (if shorthand then [] else key.identifiers) ++ value.identifiers

def identifiersOfProperties : List Property → List Identifier
  | [] => []
  | p :: ps => p.identifiers ++ identifiersOfProperties ps

def Lambda.identifiers : Lambda → List Identifier
  | ⟨id, params, body, _⟩ =>
    id.toList ++ identifiersOfParams params ++ body.identifiers

def Param.identifiers : Param → List Identifier
  | .plain id => [id]
  | .withDefault id value _ => id :: value.identifiers

def identifiersOfParams : List Param → List Identifier
  | [] => []
  | p :: ps => p.identifiers ++ identifiersOfParams ps

def Body.identifiers : Body → List Identifier
  | .expression value => value.identifiers
  | .block statements _ => identifiersOfStatements statements

def Statement.identifiers : Statement → List Identifier
  | .expression value _ => value.identifiers
  | .return none _ => []
  | .return (some argument) _ => argument.identifiers
  | .declaration lambda => lambda.identifiers

def identifiersOfStatements : List Statement → List Identifier
  | [] => []
  | s :: ss => s.identifiers ++ identifiersOfStatements ss

end

/-- Every identifier of the program. -/
def Program.identifiers (program : Program) : List Identifier :=
  identifiersOfStatements program.body

theorem identifiersOfList_eq (es : List Expr) :
    identifiersOfList es = es.flatMap Expr.identifiers := by
  induction es with
  | nil => rfl
  | cons e es ih => rw [identifiersOfList, ih, List.flatMap_cons]

theorem identifiersOfProperties_eq (ps : List Property) :
    identifiersOfProperties ps = ps.flatMap Property.identifiers := by
  induction ps with
  | nil => rfl
  | cons p ps ih => rw [identifiersOfProperties, ih, List.flatMap_cons]

theorem identifiersOfParams_eq (ps : List Param) :
    identifiersOfParams ps = ps.flatMap Param.identifiers := by
  induction ps with
  | nil => rfl
  | cons p ps ih => rw [identifiersOfParams, ih, List.flatMap_cons]

theorem identifiersOfStatements_eq (ss : List Statement) :
    identifiersOfStatements ss = ss.flatMap Statement.identifiers := by
  induction ss with
  | nil => rfl
  | cons s ss ih => rw [identifiersOfStatements, ih, List.flatMap_cons]

end TemplateExpr
