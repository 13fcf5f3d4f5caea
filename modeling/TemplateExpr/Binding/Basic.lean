/-
  The bindings of a template to its component: the classified references of a program in the
  order of the text.
-/
import TemplateExpr.Syntax.Identifiers

namespace TemplateExpr
open Source (Span)

/-- A reference to something in the component. -/
structure Binding where
  name : String
  context : Context
  span : Span
deriving DecidableEq, Repr, Inhabited

/-- A classified identifier is a binding. -/
def Binding.ofIdentifier? (id : Identifier) : Option Binding :=
  id.context.map fun context => ⟨id.name, context, id.span⟩

/-- The one starts no later than the other. -/
def Binding.startsBefore (a b : Binding) : Bool :=
  a.span.start.offset ≤ b.span.start.offset

/-- The bindings of a program by their start; those with one start stay in the order of the
    tree. -/
def Program.bindings (program : Program) : List Binding :=
  (program.identifiers.filterMap Binding.ofIdentifier?).mergeSort Binding.startsBefore

theorem Program.bindings_perm (program : Program) :
    program.bindings.Perm (program.identifiers.filterMap Binding.ofIdentifier?) :=
  List.mergeSort_perm _ _

end TemplateExpr
