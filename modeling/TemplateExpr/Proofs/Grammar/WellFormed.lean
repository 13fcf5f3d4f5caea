/-
  The shape of every tree that is read from a text, at any depth: what may be assigned to, which
  operators stand on which nodes, what names a member or an entry, which functions have names
  and blocks, and where `return` stands.

  * `Program.WellFormed`: the shape.
  * `wellFormed_of_reads`: what each phrase of the grammar reads has it.
  * `Program.wellFormed_of_ofText`: so has a program that a text is read as.
-/
import TemplateExpr.Proofs.Printing.OfText

namespace TemplateExpr
open Production
open Operator (Level)

/-! ## Kinds of operators -/

/-- The operators that decide by their left operand whether the right one is evaluated. -/
def Operator.logical : List String :=
  ["||", "??", "&&"]

/-- The other operators between two operands. -/
def Operator.binary : List String :=
  ["|", "^", "&", "==", "!=", "===", "!==", "<", ">", "<=", ">=", "in", "instanceof", "<<", ">>",
   ">>>", "+", "-", "*", "/", "%", "**"]

theorem Operator.binary_disjoint_logical : ∀ op ∈ Operator.binary, op ∉ Operator.logical := by
  decide

theorem Operator.power_mem_binary : Operator.power ∈ Operator.binary := by
  decide

/-- The operators of a level are all of the kind that the level is. -/
theorem Operator.Level.kind_of_mem : ∀ level ∈ Operator.levels, ∀ op ∈ level.operators,
    op ∈ if level.logical then Operator.logical else Operator.binary := by
  decide

/-! ## Well-formed trees -/

/-- A name, or the literal of a text or a number. -/
def Expr.isPlainKey : Expr → Bool
  | .identifier _ | .literal (.text _) _ _ | .literal (.number _) _ _ => true
  | _ => false

mutual

/-- No name has a context, every operator is of the kind of its node, what is assigned to can
    be, and a name behind a point is a name. -/
inductive Expr.WellFormed : Expr → Prop
  | identifier {id} : id.context = none → Expr.WellFormed (.identifier id)
  | literal {value raw span} : Expr.WellFormed (.literal value raw span)
  | this {span} : Expr.WellFormed (.this span)
  | array {elements span} :
    (∀ e ∈ elements, e.WellFormed) → Expr.WellFormed (.array elements span)
  | object {properties span} :
    (∀ p ∈ properties, p.WellFormed) → Expr.WellFormed (.object properties span)
  | member {object property computed optional span} :
    (computed = false → property.identifier?.isSome = true) →
    object.WellFormed → property.WellFormed →
    Expr.WellFormed (.member object property computed optional span)
  | call {callee arguments optional span} :
    callee.WellFormed → (∀ e ∈ arguments, e.WellFormed) →
    Expr.WellFormed (.call callee arguments optional span)
  | unary {op argument span} :
    op ∈ Operator.unary ∨ op ∈ Operator.unaryWords →
    argument.WellFormed → Expr.WellFormed (.unary op argument span)
  | update {op leading argument span} :
    op ∈ Operator.update → argument.isTarget = true →
    argument.WellFormed → Expr.WellFormed (.update op leading argument span)
  | binary {op left right span} :
    op ∈ Operator.binary → op ∉ Operator.logical →
    left.WellFormed → right.WellFormed → Expr.WellFormed (.binary op left right span)
  | logical {op left right span} :
    op ∈ Operator.logical →
    left.WellFormed → right.WellFormed → Expr.WellFormed (.logical op left right span)
  | conditional {test consequent alternate span} :
    test.WellFormed → consequent.WellFormed → alternate.WellFormed →
    Expr.WellFormed (.conditional test consequent alternate span)
  | assignment {op left right span} :
    op ∈ Operator.assignment → left.isTarget = true →
    left.WellFormed → right.WellFormed → Expr.WellFormed (.assignment op left right span)
  | sequence {expressions span} :
    2 ≤ expressions.length → (∀ e ∈ expressions, e.WellFormed) →
    Expr.WellFormed (.sequence expressions span)
  | arrow {lambda} : lambda.id = none → lambda.WellFormed → Expr.WellFormed (.arrow lambda)
  | function {lambda} :
    lambda.body.isBlock = true → lambda.WellFormed → Expr.WellFormed (.function lambda)

/-- A key that is not computed is a name, a text or a number. An entry without value of its own
    is a name that is not reserved, and the value is the same name. -/
inductive Property.WellFormed : Property → Prop
  | entry {key value computed span} :
    (computed = false → key.isPlainKey = true) → key.WellFormed → value.WellFormed →
    Property.WellFormed ⟨key, value, computed, false, span⟩
  | shorthand {id span} :
    id.context = none → id.name ∉ Symbol.keywords →
    Property.WellFormed ⟨.identifier id, .identifier id, false, true, span⟩

inductive Lambda.WellFormed : Lambda → Prop
  | mk {id params body span} :
    (∀ name ∈ id, name.context = none) → (∀ p ∈ params, p.WellFormed) → body.WellFormed →
    Lambda.WellFormed ⟨id, params, body, span⟩

inductive Param.WellFormed : Param → Prop
  | plain {id} : id.context = none → Param.WellFormed (.plain id)
  | withDefault {id value span} :
    id.context = none → value.WellFormed → Param.WellFormed (.withDefault id value span)

inductive Body.WellFormed : Body → Prop
  | expression {value} : value.WellFormed → Body.WellFormed (.expression value)
  | block {statements span} :
    (∀ s ∈ statements, s.WellFormed true) → Body.WellFormed (.block statements span)

/-- A `return` stands in the block of a function only, and a declared function has a name and a
    block. -/
inductive Statement.WellFormed : Statement → (inBody : Bool) → Prop
  | expression {value span inBody} :
    value.WellFormed → Statement.WellFormed (.expression value span) inBody
  | return {argument span} :
    (∀ value ∈ argument, value.WellFormed) → Statement.WellFormed (.return argument span) true
  | declaration {lambda inBody} :
    lambda.id.isSome = true → lambda.body.isBlock = true → lambda.WellFormed →
    Statement.WellFormed (.declaration lambda) inBody

end

/-- The statements of a program are not in the body of a function. -/
def Program.WellFormed (program : Program) : Prop :=
  ∀ s ∈ program.body, s.WellFormed false

/-! ## What the phrases read -/

/-- What is read for the phrase is well formed, if the operand before it is. -/
def Phrase.WellFormed : {k : Kind} → Phrase k → k.type → Prop
  | _, .assignment, e | _, .conditional, e | _, .power, e | _, .prefixed, e | _, .postfixed, e
  | _, .chain, e | _, .primary, e | _, .sequence, e => e.WellFormed
  | _, .ladder levels, e => levels ⊆ Operator.levels → e.WellFormed
  | _, .climb level tighter left, e =>
    level :: tighter ⊆ Operator.levels → left.WellFormed → e.WellFormed
  | _, .links operand, e | _, .link operand, e => operand.WellFormed → e.WellFormed
  | _, .memberName, e => e.identifier?.isSome = true ∧ e.WellFormed
  | _, .others, es => ∀ e ∈ es, e.WellFormed
  | _, .items item _, as => ∀ a ∈ as, item.WellFormed a
  | _, .property, p => p.WellFormed
  | _, .param, p => p.WellFormed
  | _, .arrowParams, ps => ∀ p ∈ ps, p.WellFormed
  | _, .block, b => b.isBlock = true ∧ b.WellFormed
  | _, .blockStatements, ss => ∀ s ∈ ss, s.WellFormed true
  | _, .function declaration, f =>
    (declaration = true → f.id.isSome = true) ∧ f.body.isBlock = true ∧ f.WellFormed
  | _, .statement inBody, s => s.WellFormed inBody

section
variable {g : Grammar} {i j : Input} {e key : Expr}

theorem Input.context_takeName? {id : Identifier} (h : i.takeName? = some (id, j)) :
    id.context = none := by
  obtain ⟨text, -, rfl, -⟩ := Input.takeName?_eq_some_iff.1 h
  rfl

theorem Expr.WellFormed.of_atom? {token : Token} (h : atom? token = some e) : e.WellFormed := by
  cases atomOf_of_atom? h with
  | name => exact .identifier rfl
  | this => exact .this
  | _ => exact .literal

theorem Expr.WellFormed.of_plainKey? {token : Token} {alone : Bool}
    (h : plainKey? token = some (key, alone)) : key.isPlainKey = true ∧ key.WellFormed := by
  unfold plainKey? at h
  split at h <;> cases h
  · exact ⟨rfl, .identifier rfl⟩
  · exact ⟨rfl, .identifier rfl⟩
  · exact ⟨rfl, .literal⟩
  · exact ⟨rfl, .literal⟩

/-- A key that may stand alone is a name, and the tokens keep reserved words apart from names. -/
theorem Input.Lexed.shorthand (hi : i.Lexed g)
    (h : i.rest.head?.bind plainKey? = some (key, true)) :
    ∃ id, key = .identifier id ∧ id.context = none ∧ id.name ∉ Symbol.keywords := by
  obtain ⟨⟨lexeme, raw, newline, span⟩, rest, hr, hk⟩ := Input.head?_bind_eq_some_iff.1 h
  cases lexeme with
  | name text =>
    cases hk
    have hname := hi.name (Input.lexeme?_eq_some_iff.2 ⟨_, rest, hr, rfl⟩)
    exact ⟨_, rfl, rfl, hname.known rfl⟩
  | _ => cases hk

theorem Expr.WellFormed.binaryNode {level : Level} {op : String} {left right : Expr}
    (hm : level ∈ Operator.levels) (ho : op ∈ level.operators) (hl : left.WellFormed)
    (hr : right.WellFormed) : (binaryNode level op left right).WellFormed := by
  have hkind := Operator.Level.kind_of_mem level hm op ho
  unfold Production.binaryNode
  split
  · next hlogical =>
    rw [if_pos hlogical] at hkind
    exact .logical hkind hl hr
  · next hlogical =>
    rw [if_neg hlogical] at hkind
    exact .binary hkind (Operator.binary_disjoint_logical op hkind) hl hr

end

theorem wellFormed_of_reads {g : Grammar} {k : Kind} {c : Phrase k} {i j : Input} {a : k.type}
    (h : Reads c i a j) (hi : i.Lexed g) : c.WellFormed a := by
  induction h with
  | itemsClose => exact List.forall_mem_nil _
  | itemsMore _ hr _ _ iha ihr =>
    exact List.forall_mem_cons.2 ⟨iha hi, ihr (hi.leaves hr.leaves).skip⟩
  | itemsLast _ _ _ _ iha => exact List.forall_mem_singleton.2 (iha hi)
  | othersNone => exact List.forall_mem_nil _
  | othersMore _ hr _ ih ihr =>
    exact List.forall_mem_cons.2 ⟨ih hi.skip, ihr (hi.skip.leaves hr.leaves)⟩
  | single _ _ ih => exact ih hi
  | several hr _ ih ihr =>
    exact .sequence (by simp) (List.forall_mem_cons.2 ⟨ih hi, ihr (hi.leaves hr.leaves)⟩)
  | plainParam ht => exact .plain (Input.context_takeName? ht)
  | defaultParam ht _ _ ih =>
    have hj := (hi.leaves (Input.leaves_of_takeName? ht)).skip
    exact .withDefault (Input.context_takeName? ht) (ih hj)
  | bodyEnd => exact List.forall_mem_nil _
  | bodyEmpty _ _ ih => exact ih hi.skip
  | bodyNext _ _ hr _ ih ihr => exact List.forall_mem_cons.2 ⟨ih hi, ihr (hi.leaves hr.leaves)⟩
  | block _ _ ih => exact ⟨rfl, .block (ih hi.skip)⟩
  | namedFunction _ ht _ hr _ ihp ihb =>
    have hj := (hi.skip.leaves (Input.leaves_of_takeName? ht)).skip
    obtain ⟨hblock, hb⟩ := ihb (hj.leaves hr.leaves)
    refine ⟨fun _ => rfl, hblock, .mk (fun name hn => ?_) (ihp hj) hb⟩
    obtain rfl := Option.some.inj hn
    exact Input.context_takeName? ht
  | namelessFunction _ _ hr _ ihp ihb =>
    obtain ⟨hblock, hb⟩ := ihb (hi.skip.skip.leaves hr.leaves)
    exact ⟨by simp, hblock, .mk (by simp) (ihp hi.skip.skip) hb⟩
  | paramList _ _ ih => exact ih hi.skip
  | soleParam ht => exact List.forall_mem_singleton.2 (.plain (Input.context_takeName? ht))
  | memberName => exact ⟨rfl, .identifier rfl⟩
  | computedProperty _ hr _ _ _ ihk ihv =>
    exact .entry (by simp) (ihk hi.skip) (ihv (hi.skip.leaves hr.leaves).skip.skip)
  | keyedProperty hk _ _ ih =>
    obtain ⟨token, rest, -, hk⟩ := Input.head?_bind_eq_some_iff.1 hk
    obtain ⟨hplain, hkey⟩ := Expr.WellFormed.of_plainKey? hk
    exact .entry (fun _ => hplain) hkey (ih hi.skip.skip)
  | shorthand hk =>
    obtain ⟨id, rfl, hcontext, hname⟩ := hi.shorthand hk
    exact .shorthand hcontext hname
  | atom ha =>
    obtain ⟨token, rest, -, ha⟩ := Input.head?_bind_eq_some_iff.1 ha
    exact .of_atom? ha
  | functionValue _ _ ih => exact .function (ih hi).2.1 (ih hi).2.2
  | parens _ _ _ ih => exact ih hi.skip
  | array _ _ ih => exact .array (ih hi.skip)
  | object _ _ ih => exact .object (ih hi.skip)
  | named _ _ ih | namedOptional _ _ ih =>
    exact fun ho => .member (fun _ => (ih hi.skip).1) ho (ih hi.skip).2
  | computed _ _ _ ih => exact fun ho => .member (by simp) ho (ih hi.skip)
  | computedOptional _ _ _ _ ih => exact fun ho => .member (by simp) ho (ih hi.skip.skip)
  | call _ _ ih => exact fun ho => .call ho (ih hi.skip)
  | callOptional _ _ _ ih => exact fun ho => .call ho (ih hi.skip.skip)
  | linksNone => exact id
  | linksMore hr _ ih ihr => exact fun ho => ihr (hi.leaves hr.leaves) (ih hi ho)
  | chain hr _ ih ihr => exact ihr (hi.leaves hr.leaves) (ih hi)
  | noTrailing _ _ ih => exact ih hi
  | trailingUpdate _ ho _ ht ih => exact .update (operatorOf?_eq_some_iff.1 ho).2 ht (ih hi)
  | leadingUpdate ho _ ht ih => exact .update (operatorOf?_eq_some_iff.1 ho).2 ht (ih hi.skip)
  | unary _ hu _ ih =>
    have ho := (unaryOf?_eq_some_iff.1 hu).imp And.right And.right
    exact .unary ho (ih hi.skip)
  | noPrefix _ _ _ ih => exact ih hi
  | noPower _ _ ih => exact ih hi
  | power hr _ _ ih ihr =>
    exact .binary Operator.power_mem_binary
      (Operator.binary_disjoint_logical _ Operator.power_mem_binary) (ih hi)
      (ihr (hi.leaves hr.leaves).skip)
  | ladderTop _ ih => exact fun _ => ih hi
  | ladderStep hr _ ih ihr =>
    exact fun hl => ihr (hi.leaves hr.leaves) hl (ih hi fun _ hm => hl (List.mem_cons_of_mem _ hm))
  | climbStop => exact fun _ => id
  | climbMore ho hr _ ihr ih =>
    intro hl hleft
    have hright := ihr hi.skip fun _ hm => hl (List.mem_cons_of_mem _ hm)
    exact ih (hi.skip.leaves hr.leaves) hl (.binaryNode (hl List.mem_cons_self)
      (binaryOf?_eq_some_iff.1 ho).2 hleft hright)
  | noConditional _ _ ih => exact ih hi (List.Subset.refl _)
  | conditional hr _ hc _ _ ih ihc iha =>
    have hj := (hi.leaves hr.leaves).skip
    exact .conditional (ih hi (List.Subset.refl _)) (ihc hj) (iha (hj.leaves hc.leaves).skip)
  | blockArrow _ hr _ _ ihp ihb =>
    exact .arrow rfl (.mk (by simp) (ihp hi) (ihb (hi.leaves hr.leaves).skip).2)
  | arrow _ hr _ _ _ ihp ihe =>
    exact .arrow rfl (.mk (by simp) (ihp hi) (.expression (ihe (hi.leaves hr.leaves).skip)))
  | noAssignment _ _ _ ih => exact ih hi
  | assignment _ hr ho ht _ ih ihr =>
    exact .assignment (operatorOf?_eq_some_iff.1 ho).2 ht (ih hi) (ihr (hi.leaves hr.leaves).skip)
  | declaration _ _ ih =>
    obtain ⟨hid, hb, hf⟩ := ih hi
    exact .declaration (hid rfl) hb hf
  | bareReturn => exact .return (by simp)
  | «return» _ _ _ _ ih =>
    refine .return fun value hv => ?_
    obtain rfl := Option.some.inj hv
    exact ih hi.skip
  | expression _ _ _ _ ih => exact .expression (ih hi)

theorem wellFormed_of_readsAll {g : Grammar} {i : Input} {ss : List Statement} (h : ReadsAll i ss)
    (hi : i.Lexed g) : ∀ s ∈ ss, s.WellFormed false := by
  intro s hs
  obtain ⟨i', j', hl, hr⟩ := h.reads_of_mem hs
  exact wellFormed_of_reads hr (hi.leaves hl)

/-- A program that a text is read as is well formed. -/
theorem Program.wellFormed_of_ofText {g : Grammar} {origin : Option Source.Origin}
    {url : Option String} {text : List Char} {p : Program}
    (h : Program.ofText g origin url text = .ok p) : p.WellFormed :=
  wellFormed_of_readsAll (readsAll_of_ofText h).1 (lexed_ofText g origin text)

/-- The target of `++` stands in parentheses, and `return` in the default value of a parameter. -/
theorem wellFormed_of_ofText_nested :
    let text := "function f(#a = () => \x7breturn \x7bb, in: (c.d)++\x7d\x7d) \x7b\x7d x, y".toList
    ∃ p, Program.ofText .template none none text = .ok p ∧ p.WellFormed := by
  intro text
  obtain ⟨p, h⟩ : ∃ p, Program.ofText .template none none text = .ok p :=
    exists_eq_ok_of_isOk (by decide +kernel)
  exact ⟨p, h, Program.wellFormed_of_ofText h⟩

end TemplateExpr
