/-
  How tightly the kinds of expressions bind, as the printer of trees sees it. A looser one has
  the smaller number.

  * `Precedence.ofBinary_eq_levels`: for binary operators the printer's numbers are the levels
    that the parser climbs.
-/
import TemplateExpr.Syntax.Tree
import TemplateExpr.Syntax.Operator

namespace TemplateExpr

namespace Precedence

def sequence : Nat := 1
def assignment : Nat := 2
def conditional : Nat := 3
def loosestBinary : Nat := 4
def power : Nat := 14
def unary : Nat := 15
def postfixed : Nat := 16
def call : Nat := 17
def atom : Nat := 18

/-- The binary operators. A symbol that is none of them counts as an atom. -/
def ofBinary : String → Nat
  | "||" | "??" => 4
  | "&&" => 5
  | "|" => 6
  | "^" => 7
  | "&" => 8
  | "==" | "!=" | "===" | "!==" => 9
  | "<" | ">" | "<=" | ">=" | "in" | "instanceof" => 10
  | "<<" | ">>" | ">>>" => 11
  | "+" | "-" => 12
  | "*" | "/" | "%" => 13
  | "**" => 14
  | _ => atom

/-- The levels of the parser follow the conditional, then come the powers. -/
theorem ofBinary_eq_levels (op : String) :
    ofBinary op =
      if op = Operator.power then power
      else
        match Operator.levels.findIdx? (·.operators.contains op) with
        | some level => loosestBinary + level
        | none => atom := by
  unfold ofBinary
  split
  case h_26 =>
    -- neither table has the symbol
    simp_all [Operator.power, Operator.levels, List.findIdx?_cons]
  all_goals decide

end Precedence

def Expr.precedence : Expr → Nat
  | .sequence _ _ => Precedence.sequence
  | .assignment _ _ _ _ | .arrow _ => Precedence.assignment
  | .conditional _ _ _ _ => Precedence.conditional
  | .binary op _ _ _ | .logical op _ _ _ => Precedence.ofBinary op
  | .unary _ _ _ => Precedence.unary
  | .update _ leading _ _ => if leading then Precedence.unary else Precedence.postfixed
  | .member _ _ _ _ _ | .call _ _ _ _ => Precedence.call
  | .identifier _ | .literal _ _ _ | .this _ | .array _ _ | .object _ _ | .function _ =>
    Precedence.atom

end TemplateExpr
