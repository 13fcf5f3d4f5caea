/-
  When two trees are the same, spans included. Number literals are compared as numbers.
-/
import TemplateExpr.Syntax.Tree

namespace TemplateExpr

mutual

def Expr.same : Expr → Expr → Bool
  | .identifier a, .identifier b => a == b
  | .literal v raw span, .literal v' raw' span' => v == v' && raw == raw' && span == span'
  | .this span, .this span' => span == span'
  | .array es span, .array es' span' => sameList es es' && span == span'
  | .object ps span, .object ps' span' => sameProperties ps ps' && span == span'
  | .member a b c d span, .member a' b' c' d' span' =>
    a.same a' && b.same b' && c == c' && d == d' && span == span'
  | .call f es o span, .call f' es' o' span' =>
    f.same f' && sameList es es' && o == o' && span == span'
  | .unary op a span, .unary op' a' span' => op == op' && a.same a' && span == span'
  | .update op l a span, .update op' l' a' span' =>
    op == op' && l == l' && a.same a' && span == span'
  | .binary op a b span, .binary op' a' b' span' =>
    op == op' && a.same a' && b.same b' && span == span'
  | .logical op a b span, .logical op' a' b' span' =>
    op == op' && a.same a' && b.same b' && span == span'
  | .conditional a b c span, .conditional a' b' c' span' =>
    a.same a' && b.same b' && c.same c' && span == span'
  | .assignment op a b span, .assignment op' a' b' span' =>
    op == op' && a.same a' && b.same b' && span == span'
  | .sequence es span, .sequence es' span' => sameList es es' && span == span'
  | .arrow f, .arrow f' => f.same f'
  | .function f, .function f' => f.same f'
  | _, _ => false

def sameList : List Expr → List Expr → Bool
  | [], [] => true
  | e :: es, e' :: es' => e.same e' && sameList es es'
  | _, _ => false

def Property.same : Property → Property → Bool
  | ⟨key, value, computed, shorthand, span⟩, ⟨key', value', computed', shorthand', span'⟩ =>
    key.same key' && value.same value' && computed == computed' && shorthand == shorthand' &&
      span == span'

def sameProperties : List Property → List Property → Bool
  | [], [] => true
  | p :: ps, p' :: ps' => p.same p' && sameProperties ps ps'
  | _, _ => false

def Lambda.same : Lambda → Lambda → Bool
  | ⟨id, params, body, span⟩, ⟨id', params', body', span'⟩ =>
    id == id' && sameParams params params' && body.same body' && span == span'

def Param.same : Param → Param → Bool
  | .plain id, .plain id' => id == id'
  | .withDefault id e span, .withDefault id' e' span' => id == id' && e.same e' && span == span'
  | _, _ => false

def sameParams : List Param → List Param → Bool
  | [], [] => true
  | p :: ps, p' :: ps' => p.same p' && sameParams ps ps'
  | _, _ => false

def Body.same : Body → Body → Bool
  | .expression e, .expression e' => e.same e'
  | .block ss span, .block ss' span' => sameStatements ss ss' && span == span'
  | _, _ => false

def Statement.same : Statement → Statement → Bool
  | .expression e span, .expression e' span' => e.same e' && span == span'
  | .return none span, .return none span' => span == span'
  | .return (some e) span, .return (some e') span' => e.same e' && span == span'
  | .declaration f, .declaration f' => f.same f'
  | _, _ => false

def sameStatements : List Statement → List Statement → Bool
  | [], [] => true
  | s :: ss, s' :: ss' => s.same s' && sameStatements ss ss'
  | _, _ => false

end

def Program.same (p q : Program) : Bool :=
  sameStatements p.body q.body && p.span == q.span && p.url == q.url

end TemplateExpr
