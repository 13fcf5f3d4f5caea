/-
  The operators by their kinds, and the levels of the binary ones from the loosest to the
  tightest. The level of `**`, which is tighter than all of these, groups to the right.
-/
namespace TemplateExpr.Operator

/-- Binary operators that bind equally tight and group to the left. -/
structure Level where
  operators : List String
  logical : Bool
deriving DecidableEq, Repr

/-- The levels that group to the left, the loosest first. -/
def levels : List Level :=
  [⟨["||", "??"], true⟩,
   ⟨["&&"], true⟩,
   ⟨["|"], false⟩,
   ⟨["^"], false⟩,
   ⟨["&"], false⟩,
   ⟨["==", "!=", "===", "!=="], false⟩,
   ⟨["<", ">", "<=", ">=", "in", "instanceof"], false⟩,
   ⟨["<<", ">>", ">>>"], false⟩,
   ⟨["+", "-"], false⟩,
   ⟨["*", "/", "%"], false⟩]

/-- The operator of powers. -/
def power : String := "**"

/-- Operators in front of their operand. -/
def unary : List String :=
  ["!", "-", "+", "~"]

/-- Reserved words that stand in front of their operand like an operator. -/
def unaryWords : List String :=
  ["typeof", "void"]

/-- Operators that change their operand. -/
def update : List String :=
  ["++", "--"]

/-- Operators that assign to their left operand. -/
def assignment : List String :=
  ["=", "+=", "-=", "*=", "/=", "%=", "**=", "<<=", ">>=", ">>>=", "&=", "^=", "|=", "&&=",
   "||=", "??="]

end TemplateExpr.Operator
