/-
  A syntax tree is read back from its JSON form. What gets lost is only what JSON has no form
  for: a number that is not finite becomes null.

  * `TreeReaders.expr?_member` and the like: a node is read back if its parts are.
  * `Expr.read_toJson` and its companions: readers for values that are nested at least as deep
    as the tree read it back.
  * `Program.ofJson?_toJson_kept`: so does the reader of programs.
-/
import TemplateExpr.Proofs.Codec.Entries
import TemplateExpr.Proofs.Tree.Literals
import TemplateExpr.Proofs.Tree.Spans

namespace TemplateExpr
open Source (Span)
open TreeReaders

/-- All these spans can be read back. -/
def SpansFit (spans : List Span) : Prop :=
  ∀ span ∈ spans, span.Fits

section
variable {span : Span} {spans others : List Span}

theorem spansFit_cons : SpansFit (span :: spans) ↔ span.Fits ∧ SpansFit spans :=
  List.forall_mem_cons

theorem spansFit_append : SpansFit (spans ++ others) ↔ SpansFit spans ∧ SpansFit others :=
  List.forall_mem_append

end

/-! ## One node -/

namespace TreeReaders
variable {r : TreeReaders} {span : Span} {id : Identifier} {op : String} {x y z kind : Json}
  {items : List Json} {a b c : Expr} {es : List Expr} {f : Lambda}

theorem expr?_identifier (hs : id.span.Fits) :
    r.expr? (.object (("type", .text "Identifier") :: id.entries)) = some (.identifier id) :=
  congrArg (Option.map Expr.identifier) (Identifier.ofJson?_type hs)

theorem expr?_literal {value : LiteralValue} {raw : String} (hs : span.Fits) :
    r.expr? (node "Literal" [("value", value.toJson), ("raw", .text raw)] span) =
      some (.literal value.kept raw span) := by
  rw [node, expr?, Json.bind_kind]
  -- the kind is known, so that the match over all kinds is its own branch
  change _ >>= _ = _
  simp [hs]

theorem expr?_this (hs : span.Fits) :
    r.expr? (node "ThisExpression" [] span) = some (.this span) := by
  rw [node, expr?, Json.bind_kind]
  change Option.map _ _ = _
  simp [hs]

theorem expr?_array (hs : span.Fits) (he : (Json.array items).listOf? r.expr = some es) :
    r.expr? (node "ArrayExpression" [("elements", .array items)] span) =
      some (.array es span) := by
  rw [node, expr?, Json.bind_kind]
  change _ >>= _ = _
  simp [hs, he]

theorem expr?_object {ps : List Property} (hs : span.Fits)
    (hp : (Json.array items).listOf? r.property? = some ps) :
    r.expr? (node "ObjectExpression" [("properties", .array items)] span) =
      some (.object ps span) := by
  rw [node, expr?, Json.bind_kind]
  change _ >>= _ = _
  simp [hs, hp]

theorem expr?_member {computed optional : Bool} (hs : span.Fits) (ho : r.expr x = some a)
    (hp : r.expr y = some b) :
    r.expr? (node "MemberExpression"
      [("object", x), ("property", y), ("computed", .boolean computed),
       ("optional", .boolean optional)] span) = some (.member a b computed optional span) := by
  rw [node, expr?, Json.bind_kind]
  change _ >>= _ = _
  simp [hs, ho, hp]

theorem expr?_call {optional : Bool} (hs : span.Fits) (hc : r.expr x = some a)
    (ha : (Json.array items).listOf? r.expr = some es) :
    r.expr? (node "CallExpression"
      [("callee", x), ("arguments", .array items), ("optional", .boolean optional)] span) =
      some (.call a es optional span) := by
  rw [node, expr?, Json.bind_kind]
  change _ >>= _ = _
  simp [hs, hc, ha]

theorem expr?_unary (hs : span.Fits) (ha : r.expr x = some a) :
    r.expr? (node "UnaryExpression" [("operator", .text op), ("argument", x)] span) =
      some (.unary op a span) := by
  rw [node, expr?, Json.bind_kind]
  change _ >>= _ = _
  simp [hs, ha]

theorem expr?_update {leading : Bool} (hs : span.Fits) (ha : r.expr x = some a) :
    r.expr? (node "UpdateExpression"
      [("operator", .text op), ("prefix", .boolean leading), ("argument", x)] span) =
      some (.update op leading a span) := by
  rw [node, expr?, Json.bind_kind]
  change _ >>= _ = _
  simp [hs, ha]

/-- The operations with two operands have the same entries. -/
theorem operation?_node {kind : String} {make : String → Expr → Expr → Span → Expr}
    (hs : span.Fits) (hl : r.expr x = some a) (hr : r.expr y = some b) :
    r.operation? make (node kind [("operator", .text op), ("left", x), ("right", y)] span) =
      some (make op a b span) := by
  rw [operation?]
  simp [node, hs, hl, hr]

theorem expr?_binary (hs : span.Fits) (hl : r.expr x = some a) (hr : r.expr y = some b) :
    r.expr? (node "BinaryExpression" [("operator", .text op), ("left", x), ("right", y)] span) =
      some (.binary op a b span) :=
  operation?_node hs hl hr

theorem expr?_logical (hs : span.Fits) (hl : r.expr x = some a) (hr : r.expr y = some b) :
    r.expr? (node "LogicalExpression" [("operator", .text op), ("left", x), ("right", y)] span) =
      some (.logical op a b span) :=
  operation?_node hs hl hr

theorem expr?_assignment (hs : span.Fits) (hl : r.expr x = some a) (hr : r.expr y = some b) :
    r.expr? (node "AssignmentExpression" [("operator", .text op), ("left", x), ("right", y)]
      span) = some (.assignment op a b span) :=
  operation?_node hs hl hr

theorem expr?_conditional (hs : span.Fits) (ht : r.expr x = some a) (hc : r.expr y = some b)
    (ha : r.expr z = some c) :
    r.expr? (node "ConditionalExpression"
      [("test", x), ("consequent", y), ("alternate", z)] span) =
      some (.conditional a b c span) := by
  rw [node, expr?, Json.bind_kind]
  change _ >>= _ = _
  simp [hs, ht, hc, ha]

theorem expr?_sequence (hs : span.Fits) (he : (Json.array items).listOf? r.expr = some es) :
    r.expr? (node "SequenceExpression" [("expressions", .array items)] span) =
      some (.sequence es span) := by
  rw [node, expr?, Json.bind_kind]
  change _ >>= _ = _
  simp [hs, he]

/-- Behind the entry with their kind, all functions have the same entries. -/
theorem lambda?_nameless {params : List Param} {body : Body} (hs : span.Fits)
    (hp : (Json.array items).listOf? r.param? = some params) (hb : r.body? x = some body) :
    r.lambda? (.object
      [("type", kind), ("params", .array items), ("body", x), ("span", span.toJson)]) =
      some ⟨none, params, body, span⟩ := by
  rw [lambda?]
  simp [hs, hp, hb]

theorem lambda?_named {params : List Param} {body : Body} (hs : span.Fits) (hid : id.span.Fits)
    (hp : (Json.array items).listOf? r.param? = some params) (hb : r.body? x = some body) :
    r.lambda? (.object
      [("type", kind), ("id", id.toJson), ("params", .array items), ("body", x),
       ("span", span.toJson)]) = some ⟨some id, params, body, span⟩ := by
  have hname : id.toJson ≠ .null := by simp [Identifier.toJson]
  rw [lambda?]
  simp [Json.optional?_head hname, hs, hid, hp, hb]

theorem expr?_arrow {entries : List (String × Json)}
    (h : r.lambda? (.object (("type", .text "ArrowFunctionExpression") :: entries)) = some f) :
    r.expr? (.object (("type", .text "ArrowFunctionExpression") :: entries)) =
      some (.arrow f) :=
  congrArg (Option.map Expr.arrow) h

theorem expr?_function {entries : List (String × Json)}
    (h : r.lambda? (.object (("type", .text "FunctionExpression") :: entries)) = some f) :
    r.expr? (.object (("type", .text "FunctionExpression") :: entries)) =
      some (.function f) :=
  congrArg (Option.map Expr.function) h

theorem property?_node {computed shorthand : Bool} (hs : span.Fits) (hk : r.expr x = some a)
    (hv : r.expr y = some b) :
    r.property? (.object
      [("key", x), ("value", y), ("computed", .boolean computed),
       ("shorthand", .boolean shorthand), ("span", span.toJson)]) =
      some ⟨a, b, computed, shorthand, span⟩ := by
  rw [property?]
  simp [hs, hk, hv]

theorem param?_plain (hs : id.span.Fits) :
    r.param? (.object (("type", .text "Identifier") :: id.entries)) = some (.plain id) :=
  congrArg (Option.map Param.plain) (Identifier.ofJson?_type hs)

theorem param?_withDefault (hs : span.Fits) (hid : id.span.Fits) (hv : r.expr x = some a) :
    r.param? (node "AssignmentPattern" [("left", id.toJson), ("right", x)] span) =
      some (.withDefault id a span) := by
  rw [node, param?, Json.bind_kind]
  change _ >>= _ = _
  simp [hs, hid, hv]

theorem statement?_expression (hs : span.Fits) (hv : r.expr x = some a) :
    r.statement? (node "ExpressionStatement" [("expression", x)] span) =
      some (.expression a span) := by
  rw [node, statement?, Json.bind_kind]
  change _ >>= _ = _
  simp [hs, hv]

theorem statement?_bareReturn (hs : span.Fits) :
    r.statement? (node "ReturnStatement" [("argument", .null)] span) =
      some (.return none span) := by
  rw [node, statement?, Json.bind_kind]
  change _ >>= _ = _
  simp [hs]

theorem statement?_return (hs : span.Fits) (hx : x ≠ .null) (ha : r.expr x = some a) :
    r.statement? (node "ReturnStatement" [("argument", x)] span) =
      some (.return (some a) span) := by
  rw [node, statement?, Json.bind_kind]
  change _ >>= _ = _
  simp [Json.optional?_head hx, hs, ha]

theorem statement?_declaration {entries : List (String × Json)}
    (h : r.lambda? (.object (("type", .text "FunctionDeclaration") :: entries)) = some f) :
    r.statement? (.object (("type", .text "FunctionDeclaration") :: entries)) =
      some (.declaration f) :=
  congrArg (Option.map Statement.declaration) h

/-- A block names no kind, so it is not read as an expression. -/
theorem expr_block (n : Nat) :
    (ofDepth n).expr (.object [("body", x), ("span", y)]) = none := by
  cases n with
  | zero => rfl
  | succ n =>
    change (ofDepth n).expr? _ = none
    rw [expr?]
    simp

theorem body?_expression (hv : r.expr x = some a) : r.body? x = some (.expression a) := by
  rw [body?, hv]

theorem body?_block {n : Nat} {ss : List Statement} (hs : span.Fits)
    (h : (Json.array items).listOf? (ofDepth n).statement = some ss) :
    (ofDepth n).body? (.object [("body", .array items), ("span", span.toJson)]) =
      some (.block ss span) := by
  rw [body?, expr_block, block?]
  simp [hs, h]

end TreeReaders

/-! ## Whole trees -/

/-- A part of a node is nested less deep than the node. -/
theorem Json.depth_le_of_part {kind key : String} {parts : List (String × Json)} {span : Span}
    {part : Json} {n : Nat} (h : (node kind parts span).depth ≤ n + 1)
    (hp : (key, part) ∈ parts) : part.depth ≤ n := by
  rw [node, depth_object_le] at h
  exact depth_le_of_mem (depthOfEntries_cons_le.1 h).2 (List.mem_append_left _ hp)

theorem Json.depthOfItems_le_of_part {kind key : String} {parts : List (String × Json)}
    {span : Span} {items : List Json} {n : Nat} (h : (node kind parts span).depth ≤ n + 1)
    (hp : (key, .array items) ∈ parts) : depthOfItems items ≤ n :=
  depthOfItems_le (depth_le_of_part h hp)

theorem Json.depthOfEntries_le_of_kind {kind : Json} {entries : List (String × Json)} {n : Nat}
    (h : (object (("type", kind) :: entries)).depth ≤ n + 1) : depthOfEntries entries ≤ n :=
  (depthOfEntries_cons_le.1 (depth_object_le.1 h)).2

theorem Expr.toJson_ne_null (e : Expr) : e.toJson ≠ .null := by
  cases e <;> simp [toJson, node]

mutual

theorem Expr.read_toJson (e : Expr) : ∀ {n : Nat}, e.toJson.depth ≤ n → SpansFit e.spans →
    (ofDepth n).expr e.toJson = some (e.mapLiterals LiteralValue.kept)
  | 0, h, _ => absurd h (Nat.not_le_of_gt (Json.one_le_depth e.toJson))
  | n + 1, h, hs => by
    cases e with
    | identifier _ => exact expr?_identifier (spansFit_cons.1 hs).1
    | literal _ _ _ => exact expr?_literal (spansFit_cons.1 hs).1
    | this _ => exact expr?_this (spansFit_cons.1 hs).1
    | array elements _ =>
      obtain ⟨hspan, hs⟩ := spansFit_cons.1 hs
      exact expr?_array hspan
        (readList_toJson elements (Json.depthOfItems_le_of_part h (.head _)) hs)
    | object properties _ =>
      obtain ⟨hspan, hs⟩ := spansFit_cons.1 hs
      exact expr?_object hspan
        (readProperties_toJson properties (Json.depthOfItems_le_of_part h (.head _)) hs)
    | member object property _ _ _ =>
      obtain ⟨hspan, hs⟩ := spansFit_cons.1 hs
      obtain ⟨ho, hp⟩ := spansFit_append.1 hs
      exact expr?_member hspan
        (object.read_toJson (Json.depth_le_of_part h (.head _)) ho)
        (property.read_toJson (Json.depth_le_of_part h (.tail _ (.head _))) hp)
    | call callee arguments _ _ =>
      obtain ⟨hspan, hs⟩ := spansFit_cons.1 hs
      obtain ⟨hc, ha⟩ := spansFit_append.1 hs
      exact expr?_call hspan
        (callee.read_toJson (Json.depth_le_of_part h (.head _)) hc)
        (readList_toJson arguments (Json.depthOfItems_le_of_part h (.tail _ (.head _))) ha)
    | unary _ argument _ =>
      obtain ⟨hspan, hs⟩ := spansFit_cons.1 hs
      exact expr?_unary hspan
        (argument.read_toJson (Json.depth_le_of_part h (.tail _ (.head _))) hs)
    | update _ _ argument _ =>
      obtain ⟨hspan, hs⟩ := spansFit_cons.1 hs
      exact expr?_update hspan
        (argument.read_toJson (Json.depth_le_of_part h (.tail _ (.tail _ (.head _)))) hs)
    | binary _ left right _ =>
      obtain ⟨hspan, hs⟩ := spansFit_cons.1 hs
      obtain ⟨hl, hr⟩ := spansFit_append.1 hs
      exact expr?_binary hspan
        (left.read_toJson (Json.depth_le_of_part h (.tail _ (.head _))) hl)
        (right.read_toJson (Json.depth_le_of_part h (.tail _ (.tail _ (.head _)))) hr)
    | logical _ left right _ =>
      obtain ⟨hspan, hs⟩ := spansFit_cons.1 hs
      obtain ⟨hl, hr⟩ := spansFit_append.1 hs
      exact expr?_logical hspan
        (left.read_toJson (Json.depth_le_of_part h (.tail _ (.head _))) hl)
        (right.read_toJson (Json.depth_le_of_part h (.tail _ (.tail _ (.head _)))) hr)
    | assignment _ left right _ =>
      obtain ⟨hspan, hs⟩ := spansFit_cons.1 hs
      obtain ⟨hl, hr⟩ := spansFit_append.1 hs
      exact expr?_assignment hspan
        (left.read_toJson (Json.depth_le_of_part h (.tail _ (.head _))) hl)
        (right.read_toJson (Json.depth_le_of_part h (.tail _ (.tail _ (.head _)))) hr)
    | conditional test consequent alternate _ =>
      obtain ⟨hspan, hs⟩ := spansFit_cons.1 hs
      obtain ⟨hs, ha⟩ := spansFit_append.1 hs
      obtain ⟨ht, hc⟩ := spansFit_append.1 hs
      exact expr?_conditional hspan
        (test.read_toJson (Json.depth_le_of_part h (.head _)) ht)
        (consequent.read_toJson (Json.depth_le_of_part h (.tail _ (.head _))) hc)
        (alternate.read_toJson (Json.depth_le_of_part h (.tail _ (.tail _ (.head _)))) ha)
    | sequence expressions _ =>
      obtain ⟨hspan, hs⟩ := spansFit_cons.1 hs
      exact expr?_sequence hspan
        (readList_toJson expressions (Json.depthOfItems_le_of_part h (.head _)) hs)
    | arrow lambda =>
      exact expr?_arrow (lambda.read_entries _ (Json.depthOfEntries_le_of_kind h) hs)
    | «function» lambda =>
      exact expr?_function (lambda.read_entries _ (Json.depthOfEntries_le_of_kind h) hs)

theorem readList_toJson : ∀ (es : List Expr) {n : Nat},
    Json.depthOfItems (jsonOfList es) ≤ n → SpansFit (spansOfList es) →
    (Json.array (jsonOfList es)).listOf? (ofDepth n).expr =
      some (mapLiteralsList LiteralValue.kept es)
  | [], _, _, _ => rfl
  | e :: es, n, h, hs => by
    obtain ⟨he, hes⟩ := Json.depthOfItems_cons_le.1 h
    obtain ⟨hse, hses⟩ := spansFit_append.1 hs
    exact Json.listOf?_cons (e.read_toJson he hse) (readList_toJson es hes hses)

theorem Property.read_toJson : ∀ (p : Property) {n : Nat}, p.toJson.depth ≤ n →
    SpansFit p.spans →
    (ofDepth n).property? p.toJson = some (p.mapLiterals LiteralValue.kept)
  | ⟨key, value, _, _, _⟩, n, h, hs => by
    obtain ⟨hspan, hs⟩ := spansFit_cons.1 hs
    obtain ⟨hk, hv⟩ := spansFit_append.1 hs
    have h := Json.depthOfEntries_le h
    exact property?_node hspan
      (key.read_toJson (Json.depth_le_of_mem h (.head _)) hk)
      (value.read_toJson (Json.depth_le_of_mem h (.tail _ (.head _))) hv)

theorem readProperties_toJson : ∀ (ps : List Property) {n : Nat},
    Json.depthOfItems (jsonOfProperties ps) ≤ n → SpansFit (spansOfProperties ps) →
    (Json.array (jsonOfProperties ps)).listOf? (ofDepth n).property? =
      some (mapLiteralsProperties LiteralValue.kept ps)
  | [], _, _, _ => rfl
  | p :: ps, n, h, hs => by
    obtain ⟨hp, hps⟩ := Json.depthOfItems_cons_le.1 h
    obtain ⟨hsp, hsps⟩ := spansFit_append.1 hs
    exact Json.listOf?_cons (p.read_toJson hp hsp) (readProperties_toJson ps hps hsps)

theorem Lambda.read_entries : ∀ (lambda : Lambda) (kind : Json) {n : Nat},
    Json.depthOfEntries lambda.entries ≤ n → SpansFit lambda.spans →
    (ofDepth n).lambda? (.object (("type", kind) :: lambda.entries)) =
      some (lambda.mapLiterals LiteralValue.kept)
  | ⟨id, params, body, _⟩, kind, n, h, hs => by
    obtain ⟨hspan, hs⟩ := spansFit_cons.1 hs
    obtain ⟨hs, hb⟩ := spansFit_append.1 hs
    obtain ⟨hid, hp⟩ := spansFit_append.1 hs
    cases id with
    | none =>
      exact lambda?_nameless hspan
        (readParams_toJson params
          (Json.depthOfItems_le (Json.depth_le_of_mem h (.head _))) hp)
        (body.read_toJson (Json.depth_le_of_mem h (.tail _ (.head _))) hb)
    | some id =>
      exact lambda?_named hspan (spansFit_cons.1 hid).1
        (readParams_toJson params
          (Json.depthOfItems_le (Json.depth_le_of_mem h (.tail _ (.head _)))) hp)
        (body.read_toJson (Json.depth_le_of_mem h (.tail _ (.tail _ (.head _)))) hb)

theorem Param.read_toJson : ∀ (p : Param) {n : Nat}, p.toJson.depth ≤ n → SpansFit p.spans →
    (ofDepth n).param? p.toJson = some (p.mapLiterals LiteralValue.kept)
  | .plain _, n, _, hs => param?_plain (spansFit_cons.1 hs).1
  | .withDefault _ value _, n, h, hs => by
    obtain ⟨hspan, hs⟩ := spansFit_cons.1 hs
    obtain ⟨hid, hs⟩ := spansFit_cons.1 hs
    exact param?_withDefault hspan hid
      (value.read_toJson
        (Json.depth_le_of_part (Nat.le_succ_of_le h) (.tail _ (.head _))) hs)

theorem readParams_toJson : ∀ (ps : List Param) {n : Nat},
    Json.depthOfItems (jsonOfParams ps) ≤ n → SpansFit (spansOfParams ps) →
    (Json.array (jsonOfParams ps)).listOf? (ofDepth n).param? =
      some (mapLiteralsParams LiteralValue.kept ps)
  | [], _, _, _ => rfl
  | p :: ps, n, h, hs => by
    obtain ⟨hp, hps⟩ := Json.depthOfItems_cons_le.1 h
    obtain ⟨hsp, hsps⟩ := spansFit_append.1 hs
    exact Json.listOf?_cons (p.read_toJson hp hsp) (readParams_toJson ps hps hsps)

theorem Body.read_toJson : ∀ (b : Body) {n : Nat}, b.toJson.depth ≤ n → SpansFit b.spans →
    (ofDepth n).body? b.toJson = some (b.mapLiterals LiteralValue.kept)
  | .expression value, n, h, hs => body?_expression (value.read_toJson h hs)
  | .block statements _, n, h, hs => by
    obtain ⟨hspan, hs⟩ := spansFit_cons.1 hs
    have h := Json.depth_le_of_mem (Json.depthOfEntries_le h) (.head _)
    exact body?_block hspan (readStatements_toJson statements (Json.depthOfItems_le h) hs)

theorem Statement.read_toJson (s : Statement) : ∀ {n : Nat}, s.toJson.depth ≤ n →
    SpansFit s.spans →
    (ofDepth n).statement s.toJson = some (s.mapLiterals LiteralValue.kept)
  | 0, h, _ => absurd h (Nat.not_le_of_gt (Json.one_le_depth s.toJson))
  | n + 1, h, hs => by
    cases s with
    | expression value _ =>
      obtain ⟨hspan, hs⟩ := spansFit_cons.1 hs
      exact statement?_expression hspan
        (value.read_toJson (Json.depth_le_of_part h (.head _)) hs)
    | «return» argument _ =>
      cases argument with
      | none => exact statement?_bareReturn (spansFit_cons.1 hs).1
      | some argument =>
        obtain ⟨hspan, hs⟩ := spansFit_cons.1 hs
        exact statement?_return hspan argument.toJson_ne_null
          (argument.read_toJson (Json.depth_le_of_part h (.head _)) hs)
    | declaration lambda =>
      exact statement?_declaration
        (lambda.read_entries _ (Json.depthOfEntries_le_of_kind h) hs)

theorem readStatements_toJson : ∀ (ss : List Statement) {n : Nat},
    Json.depthOfItems (jsonOfStatements ss) ≤ n → SpansFit (spansOfStatements ss) →
    (Json.array (jsonOfStatements ss)).listOf? (ofDepth n).statement =
      some (mapLiteralsStatements LiteralValue.kept ss)
  | [], _, _, _ => rfl
  | s :: ss, n, h, hs => by
    obtain ⟨hs', hss⟩ := Json.depthOfItems_cons_le.1 h
    obtain ⟨hsps, hspss⟩ := spansFit_append.1 hs
    exact Json.listOf?_cons (s.read_toJson hs' hsps) (readStatements_toJson ss hss hspss)

end

/-- The statements of a program are read one by one, each as deep as it is nested. -/
theorem listOf?_statements (ss : List Statement) (hs : SpansFit (spansOfStatements ss)) :
    (Json.array (jsonOfStatements ss)).listOf? Statement.ofJson? =
      some (mapLiteralsStatements LiteralValue.kept ss) := by
  induction ss with
  | nil => rfl
  | cons s ss ih =>
    obtain ⟨hs, hss⟩ := spansFit_append.1 hs
    exact Json.listOf?_cons (s.read_toJson (Nat.le_refl _) hs) (ih hss)

theorem LiteralValue.kept_of_isFinite {value : LiteralValue} (h : value.isFinite = true) :
    value.kept = value :=
  if_pos h

/-- A program whose offsets, lines and columns are numbers of 64 bits is read back from its JSON
    form, with null in place of the numbers that are not finite; if all are, it is the same
    program. -/
theorem Program.ofJson?_toJson_kept (p : Program) (hs : ∀ span ∈ p.spans, span.Fits) :
    ofJson? p.toJson = some (p.mapLiterals LiteralValue.kept) ∧
      ((∀ value ∈ p.literals, value.isFinite = true) → ofJson? p.toJson = some p) := by
  have hread : ofJson? p.toJson = some (p.mapLiterals LiteralValue.kept) := by
    obtain ⟨body, span, url⟩ := p
    obtain ⟨hspan, hbody⟩ := spansFit_cons.1 hs
    have hss := listOf?_statements body hbody
    cases url with
    | none => simp [ofJson?, toJson, mapLiterals, hspan, hss]
    | some url =>
      have hurl : Json.text url ≠ .null := by simp
      simp [ofJson?, toJson, mapLiterals, Json.optional?_head hurl, hspan, hss]
  refine ⟨hread, fun hf => ?_⟩
  rw [hread, p.mapLiterals_eq_self fun value hv => LiteralValue.kept_of_isFinite (hf value hv)]

/-- The value that a parameter takes by default is read back as null if it is infinite, and as
    it is if it is finite. -/
theorem ofJson?_toJson_default :
    let span : Span := ⟨⟨0, 1, 0⟩, ⟨9, 2, 4⟩⟩
    let program (value : LiteralValue) : Program :=
      ⟨[.declaration ⟨some ⟨"f", none, span⟩,
        [.withDefault ⟨"a", some .state, span⟩ (.literal value "1e999" span) span],
        .block [.return none span] span, span⟩], span, some "page"⟩
    (∀ value, ∀ span ∈ (program value).spans, span.Fits) ∧
      Program.ofJson? (program (.number (1 / 0))).toJson = some (program .null) ∧
      Program.ofJson? (program (.number 0.5)).toJson = some (program (.number 0.5)) := by
  intro span program
  have hfits : span.Fits := ⟨by decide, by decide, ⟨by decide, by decide⟩, by decide, by decide⟩
  have hs : ∀ value, ∀ other ∈ (program value).spans, other.Fits := by
    intro value other ho
    have hall : (program value).spans = List.replicate 8 span := rfl
    rw [hall] at ho
    exact List.eq_of_mem_replicate ho ▸ hfits
  have hinfinite : (LiteralValue.number (1 / 0)).kept = .null := if_neg (by decide)
  have hread := (Program.ofJson?_toJson_kept (program (.number (1 / 0))) (hs _)).1
  refine ⟨hs, ?_, (Program.ofJson?_toJson_kept (program (.number 0.5)) (hs _)).2 ?_⟩
  · rw [hread]
    exact congrArg (some <| program ·) hinfinite
  · intro value hv
    obtain rfl := List.mem_singleton.1 hv
    decide

end TemplateExpr
