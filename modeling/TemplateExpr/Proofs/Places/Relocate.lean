/-
  Relocating: every place of a tree, of a token, of an input or of a failure is replaced by
  another one. Moving a text into its document relocates its tokens, and forgetting all places
  relocates a tree to a single one.

  * `relocate_to`: joining two spans and relocating them can be done in either order.
  * The tests that productions make of an input do not see its places (`atMark_relocate` and its
    companions).
-/
import TemplateExpr.Production.Input
import TemplateExpr.Proofs.Tree.Relabel

namespace TemplateExpr
open Source (Place Span Origin)

/-! ## Spans, tokens and trees -/

def Source.Span.relocate (f : Place → Place) (span : Span) : Span :=
  ⟨f span.start, f span.stop⟩

def Identifier.relocate (f : Place → Place) (id : Identifier) : Identifier :=
  { id with span := id.span.relocate f }

def Token.relocate (f : Place → Place) (token : Token) : Token :=
  token.mapSpan (·.relocate f)

/-- Every place is replaced by another one. -/
def Relabel.places (f : Place → Place) : Relabel :=
  ⟨Identifier.relocate f, Identifier.relocate f, Span.relocate f⟩

def Expr.relocate (f : Place → Place) (e : Expr) : Expr := e.relabel (.places f)

def Property.relocate (f : Place → Place) (p : Property) : Property := p.relabel (.places f)

def Lambda.relocate (f : Place → Place) (lambda : Lambda) : Lambda := lambda.relabel (.places f)

def Param.relocate (f : Place → Place) (p : Param) : Param := p.relabel (.places f)

def Body.relocate (f : Place → Place) (body : Body) : Body := body.relabel (.places f)

def Statement.relocate (f : Place → Place) (s : Statement) : Statement := s.relabel (.places f)

def Program.relocate (f : Place → Place) (program : Program) : Program :=
  program.relabel (.places f)

section
variable (f : Place → Place)

theorem relocate_to (a b : Span) : (a.to b).relocate f = (a.relocate f).to (b.relocate f) := rfl

@[simp] theorem Expr.span_relocate (e : Expr) : (e.relocate f).span = e.span.relocate f := by
  cases e with
  | arrow lambda => cases lambda; rfl
  | function lambda => cases lambda; rfl
  | _ => rfl

@[simp] theorem Expr.isTarget_relocate (e : Expr) : (e.relocate f).isTarget = e.isTarget :=
  e.isTarget_relabel _

theorem Expr.relocate_array (es : List Expr) (span : Span) :
    (Expr.array es span).relocate f = .array (es.map (·.relocate f)) (span.relocate f) := by
  rw [relocate, relabel, relabelList_eq]
  rfl

theorem Expr.relocate_object (ps : List Property) (span : Span) :
    (Expr.object ps span).relocate f = .object (ps.map (·.relocate f)) (span.relocate f) := by
  rw [relocate, relabel, relabelProperties_eq]
  rfl

theorem Expr.relocate_call (callee : Expr) (es : List Expr) (optional : Bool) (span : Span) :
    (Expr.call callee es optional span).relocate f =
      .call (callee.relocate f) (es.map (·.relocate f)) optional (span.relocate f) := by
  rw [relocate, relabel, relabelList_eq]
  rfl

theorem Expr.relocate_sequence (es : List Expr) (span : Span) :
    (Expr.sequence es span).relocate f = .sequence (es.map (·.relocate f)) (span.relocate f) := by
  rw [relocate, relabel, relabelList_eq]
  rfl

theorem Expr.relocate_arrow (lambda : Lambda) :
    (Expr.arrow lambda).relocate f = .arrow (lambda.relocate f) := rfl

theorem Lambda.relocate_mk (id : Option Identifier) (ps : List Param) (body : Body)
    (span : Span) :
    Lambda.relocate f ⟨id, ps, body, span⟩ =
      ⟨id.map (·.relocate f), ps.map (·.relocate f), body.relocate f, span.relocate f⟩ := by
  rw [relocate, relabel, relabelParams_eq]
  rfl

theorem Body.relocate_block (ss : List Statement) (span : Span) :
    (Body.block ss span).relocate f = .block (ss.map (·.relocate f)) (span.relocate f) := by
  rw [relocate, relabel, relabelStatements_eq]
  rfl

@[simp] theorem Token.lexeme_relocate (token : Token) :
    (token.relocate f).lexeme = token.lexeme := rfl

@[simp] theorem Token.newlineBefore_relocate (token : Token) :
    (token.relocate f).newlineBefore = token.newlineBefore := rfl

end

/-! ## Inputs and failures -/

def Input.relocate (f : Place → Place) (i : Input) : Input :=
  ⟨i.last.relocate f, i.rest.map (·.relocate f), i.stop.relocate f⟩

def Failure.relocate (f : Place → Place) : Failure → Failure
  | .fault why place => .fault why (f place)
  | .exhausted => .exhausted

namespace Input

variable (f : Place → Place) (i : Input)

@[simp] theorem left_relocate : (i.relocate f).left = i.left :=
  List.length_map _

@[simp] theorem lexeme?_relocate : (i.relocate f).lexeme? = i.lexeme? := by
  cases i with
  | mk last rest stop => cases rest <;> rfl

@[simp] theorem head?_relocate :
    (i.relocate f).rest.head? = i.rest.head?.map (·.relocate f) :=
  List.head?_map

@[simp] theorem here_relocate : (i.relocate f).here = i.here.relocate f := by
  cases i with
  | mk last rest stop => cases rest <;> rfl

@[simp] theorem skip_relocate : (i.relocate f).skip = i.skip.relocate f := by
  cases i with
  | mk last rest stop => cases rest <;> rfl

@[simp] theorem spanFrom_relocate (start : Span) :
    (i.relocate f).spanFrom (start.relocate f) = (i.spanFrom start).relocate f := rfl

@[simp] theorem isEmpty_relocate : (i.relocate f).rest.isEmpty = i.rest.isEmpty :=
  List.isEmpty_map

@[simp] theorem atMark_relocate (c : Char) : (i.relocate f).atMark c = i.atMark c := by
  rw [atMark, lexeme?_relocate, atMark]

@[simp] theorem atOperator_relocate (symbol : String) :
    (i.relocate f).atOperator symbol = i.atOperator symbol := by
  rw [atOperator, lexeme?_relocate, atOperator]

@[simp] theorem atKeyword_relocate (word : String) :
    (i.relocate f).atKeyword word = i.atKeyword word := by
  rw [atKeyword, lexeme?_relocate, atKeyword]

@[simp] theorem atNewline_relocate : (i.relocate f).atNewline = i.atNewline := by
  cases i with
  | mk last rest stop => cases rest <;> rfl

@[simp] theorem refusal_relocate : (i.relocate f).refusal = i.refusal.relocate f := by
  cases i with
  | mk last rest stop =>
    cases rest with
    | nil => rfl
    | cons token rest =>
      obtain ⟨lexeme, raw, newline, span⟩ := token
      cases lexeme <;> rfl

@[simp] theorem takeName?_relocate :
    (i.relocate f).takeName? =
      i.takeName?.map fun (id, rest) => (id.relocate f, rest.relocate f) := by
  cases i with
  | mk last rest stop =>
    cases rest with
    | nil => rfl
    | cons token rest =>
      obtain ⟨lexeme, raw, newline, span⟩ := token
      cases lexeme <;> rfl

end Input

end TemplateExpr
