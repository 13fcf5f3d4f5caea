/-
  The tokens that a tree stands for, in their order. A text that is read as a program has these
  tokens, and brackets and separators between them: reading loses no token, repeats none and
  moves none.

  * `Expr.terminals_trace`: the yield of a printable tree is what the pieces of its text tell.
  * `Program.terminals_of_ofText`: the yield of a program is the tokens that it was read from.
-/
import TemplateExpr.Proofs.Printing.OfText

namespace TemplateExpr
open Source
open Bit (trace)

/-! ## Terminals -/

/-- A token by what it stands for, with its value, and by its characters. -/
structure Terminal where
  lexeme : Lexeme
  raw : String
deriving Repr

namespace Terminal

def name (text : String) : Terminal := ⟨.name text, text⟩

def keyword (word : String) : Terminal := ⟨.keyword word, word⟩

def operator (op : String) : Terminal := ⟨.operator op, op⟩

/-- A name where reserved words are names, too. -/
def word (text : String) : Terminal := ⟨Symbol.word text, text⟩

/-- An operator, which may be a reserved word. -/
def symbol (op : String) : Terminal :=
  if Symbol.keywords.contains op then keyword op else operator op

/-- A literal by its value, and its characters. -/
def literal (value : LiteralValue) (raw : String) : Terminal :=
  match value with
  | .null => ⟨.keyword "null", raw⟩
  | .boolean value => ⟨.keyword (if value then "true" else "false"), raw⟩
  | .number value => ⟨.number value, raw⟩
  | .text value => ⟨.text value, raw⟩

end Terminal

def Token.terminal (token : Token) : Terminal := ⟨token.lexeme, token.raw⟩

def Piece.terminal (p : Piece) : Terminal := ⟨p.lexeme, p.raw⟩

/-! ## The yield of a tree -/

/-- The key of an entry that is not computed, or the name of a member. -/
def Expr.keyYield : Expr → List Terminal
  | .identifier id => [.word id.name]
  | .literal value raw _ => [.literal value raw]
  | _ => []

mutual

def Expr.yield : Expr → List Terminal
  | .identifier id => [.name id.name]
  | .literal value raw _ => [.literal value raw]
  | .this _ => [.keyword "this"]
  | .array elements _ => yieldOfList elements
  | .object properties _ => yieldOfProperties properties
  | .member object property computed optional _ =>
    object.yield ++ (if optional then [.operator "?."] else []) ++
      (if computed then property.yield else property.keyYield)
  | .call callee arguments optional _ =>
    callee.yield ++ (if optional then [.operator "?."] else []) ++ yieldOfList arguments
  | .unary op argument _ => .symbol op :: argument.yield
  | .update op leading argument _ =>
    if leading then .operator op :: argument.yield else argument.yield ++ [.operator op]
  | .binary op left right _ | .logical op left right _ =>
    left.yield ++ .symbol op :: right.yield
  | .conditional test consequent alternate _ =>
    test.yield ++ .operator "?" :: (consequent.yield ++ alternate.yield)
  | .assignment op left right _ => left.yield ++ .operator op :: right.yield
  | .sequence expressions _ => yieldOfList expressions
  | .arrow ⟨_, params, body, _⟩ => yieldOfParams params ++ .operator "=>" :: body.yield
  | .function lambda => lambda.yield

def yieldOfList : List Expr → List Terminal
  | [] => []
  | e :: es => e.yield ++ yieldOfList es

/-- The name of a shorthand entry counts once. -/
def Property.yield : Property → List Terminal
  | ⟨key, value, computed, shorthand, _⟩ =>
    if shorthand then value.yield
    else (if computed then key.yield else key.keyYield) ++ value.yield

def yieldOfProperties : List Property → List Terminal
  | [] => []
  | p :: ps => p.yield ++ yieldOfProperties ps

/-- A function behind its keyword. -/
def Lambda.yield : Lambda → List Terminal
  | ⟨id, params, body, _⟩ =>
    .keyword "function" ::
      (id.toList.map (fun id => .name id.name) ++ yieldOfParams params ++ body.yield)

def Param.yield : Param → List Terminal
  | .plain id => [.name id.name]
  | .withDefault id value _ => .name id.name :: .operator "=" :: value.yield

def yieldOfParams : List Param → List Terminal
  | [] => []
  | p :: ps => p.yield ++ yieldOfParams ps

def Body.yield : Body → List Terminal
  | .expression value => value.yield
  | .block statements _ => yieldOfStatements statements

def Statement.yield : Statement → List Terminal
  | .expression value _ => value.yield
  | .return none _ => [.keyword "return"]
  | .return (some argument) _ => .keyword "return" :: argument.yield
  | .declaration lambda => lambda.yield

def yieldOfStatements : List Statement → List Terminal
  | [] => []
  | s :: ss => s.yield ++ yieldOfStatements ss

end

/-- The tokens that the program stands for, but for brackets and separators. -/
def Program.yield (program : Program) : List Terminal :=
  yieldOfStatements program.body

/-! ## What the pieces tell -/

section
variable {g : Grammar} {full : Bool} {word op raw : String} {value : LiteralValue}

theorem terminal_word (h : Spelled g (.name word) word) :
    (Piece.word word).terminal = .name word :=
  congrArg (Terminal.mk · word) (word_of_spelled h)

@[simp] theorem terminal_symbol : (Piece.symbol op).terminal = .symbol op := by
  unfold Piece.symbol Terminal.symbol
  split <;> rfl

@[simp] theorem terminal_keyword : (Piece.keyword word).terminal = .keyword word := rfl

@[simp] theorem terminal_operator : (Piece.operator op).terminal = .operator op := rfl

@[simp] theorem terminal_arrow (block : Bool) :
    (Piece.arrow block).terminal = .operator "=>" := rfl

theorem terminal_literal (h : value.Written g full raw) :
    (Piece.literal value raw).terminal = .literal value raw := by
  cases value with
  | null =>
    obtain rfl : raw = "null" := h
    rfl
  | boolean value =>
    obtain rfl : raw = if value then "true" else "false" := h
    rfl
  | number | text => rfl

theorem Expr.keyYield_of_isName {e : Expr} (h : e.IsName g) :
    (trace e.bits).map Piece.terminal = (e.relabel .lexical).keyYield := by
  obtain ⟨id, rfl, -⟩ := IsName.identifier h
  rw [Expr.bits, trace_word]
  rfl

theorem Expr.keyYield_of_isKey {e : Expr} (h : e.IsKey g) :
    (trace e.bits).map Piece.terminal = (e.relabel .lexical).keyYield := by
  cases e with
  | identifier => exact Expr.keyYield_of_isName h
  | literal value raw =>
    rw [Expr.bits, trace_literal]
    cases value with
    | number | text => rfl
    | null | boolean => cases h
  | _ => cases h

/-! The names of the yield are those that are written. -/

mutual

theorem Expr.terminals_trace : ∀ e : Expr, e.Printable g full →
    (trace e.bits).map Piece.terminal = (e.relabel .lexical).yield
  | .identifier id, h => by
    simp only [Expr.bits, trace_word, List.map_cons, terminal_word h]
    rfl
  | .literal value raw _, h => by
    simp only [Expr.bits, trace_literal, List.map_cons, terminal_literal h]
    rfl
  | .this _, _ => rfl
  | .array elements _, h => by
    simp [Expr.bits, Expr.relabel, Expr.yield, trace_bitsOfList, terminals_traceList elements h]
  | .object properties _, h => by
    simp [Expr.bits, Expr.relabel, Expr.yield, trace_bitsOfProperties,
      terminals_traceProperties properties h]
  | .member object property true optional _, h => by
    have ho := Expr.terminals_trace object h.1
    have hp := Expr.terminals_trace property h.2
    cases optional <;> simp [Expr.bits, Expr.relabel, Expr.yield, ho, hp]
  | .member object property false optional _, h => by
    have ho := Expr.terminals_trace object h.1
    have hp := Expr.keyYield_of_isName h.2
    cases optional <;> simp [Expr.bits, Expr.relabel, Expr.yield, ho, hp]
  | .call callee arguments optional _, h => by
    have hc := Expr.terminals_trace callee h.1
    have ha := terminals_traceList arguments h.2
    cases optional <;>
      simp [Expr.bits, Expr.relabel, Expr.yield, trace_bitsOfList, hc, ha]
  | .unary op argument _, h => by
    have ha := Expr.terminals_trace argument h.2
    simp only [Expr.bits, Expr.relabel, Expr.yield, trace_symbol, trace_append, trace_grouped,
      List.map_cons, terminal_symbol, ← ha]
    split <;> rfl
  | .update op leading argument _, h => by
    have ha := Expr.terminals_trace argument h.2.2
    cases leading <;> simp [Expr.bits, Expr.relabel, Expr.yield, ha]
  | .binary op left right _, h | .logical op left right _, h => by
    have hl := Expr.terminals_trace left h.2.1
    have hr := Expr.terminals_trace right h.2.2
    simp [Expr.bits, Expr.relabel, Expr.yield, hl, hr]
  | .conditional test consequent alternate _, h => by
    have ht := Expr.terminals_trace test h.1
    have hc := Expr.terminals_trace consequent h.2.1
    have ha := Expr.terminals_trace alternate h.2.2
    simp [Expr.bits, Expr.relabel, Expr.yield, ht, hc, ha]
  | .assignment op left right _, h => by
    have hl := Expr.terminals_trace left h.2.2.1
    have hr := Expr.terminals_trace right h.2.2.2
    simp [Expr.bits, Expr.relabel, Expr.yield, hl, hr]
  | .sequence expressions _, h => by
    simp only [Expr.bits, Expr.relabel, Expr.yield, trace_bitsOfList,
      terminals_traceList expressions h.2]
  | .arrow ⟨_, params, body, _⟩, h => by
    obtain ⟨-, -, -, hp, hb⟩ := h
    have hp := terminals_traceParams params hp
    have hb := Body.terminals_trace body hb
    simp [Expr.bits, Expr.relabel, Lambda.relabel, Expr.yield, trace_bitsOfParams, hp, hb]
  | .function lambda, h => Lambda.terminals_trace lambda h.2.2

theorem terminals_traceList : ∀ es : List Expr, PrintableList g full es →
    (Kind.trace (.list .expr) es).map Piece.terminal = yieldOfList (relabelList .lexical es)
  | [], _ => rfl
  | e :: es, h => by
    rw [relabelList, yieldOfList, ← Expr.terminals_trace e h.1, ← terminals_traceList es h.2,
      ← List.map_append]
    rfl

theorem Property.terminals_trace : ∀ p : Property, p.Printable g full →
    (trace p.bits).map Piece.terminal = (p.relabel .lexical).yield
  | ⟨key, value, computed, true, _⟩, h => by
    obtain ⟨key, value, rfl, rfl, -, hv⟩ := IsShorthand.identifiers h.2
    simp only [Property.bits, if_true, Expr.bits, trace_word, List.map_cons, terminal_word hv]
    rfl
  | ⟨key, value, true, false, _⟩, h => by
    have hk := Expr.terminals_trace key h.1
    have hv := Expr.terminals_trace value h.2
    simp [Property.bits, Property.relabel, Property.yield, hk, hv]
  | ⟨key, value, false, false, _⟩, h => by
    have hk := Expr.keyYield_of_isKey h.1
    have hv := Expr.terminals_trace value h.2
    simp [Property.bits, Property.relabel, Property.yield, hk, hv]

theorem terminals_traceProperties : ∀ ps : List Property, PrintableProperties g full ps →
    (Kind.trace (.list .property) ps).map Piece.terminal =
      yieldOfProperties (relabelProperties .lexical ps)
  | [], _ => rfl
  | p :: ps, h => by
    rw [relabelProperties, yieldOfProperties, ← Property.terminals_trace p h.1,
      ← terminals_traceProperties ps h.2, ← List.map_append]
    rfl

theorem Lambda.terminals_trace : ∀ f : Lambda, f.Printable g full →
    (trace f.bits).map Piece.terminal = (f.relabel .lexical).yield
  | ⟨id, params, body, _⟩, h => by
    obtain ⟨hid, hp, hb⟩ := h
    have hp := terminals_traceParams params hp
    have hb := Body.terminals_trace body hb
    cases id with
    | none =>
      simp [Lambda.bits, Lambda.relabel, Lambda.yield, trace_bitsOfParams, hp, hb]
    | some id =>
      simp [Lambda.bits, Lambda.relabel, Lambda.yield, trace_bitsOfParams, hp, hb,
        terminal_word (hid id rfl), Relabel.lexical]

theorem Param.terminals_trace : ∀ p : Param, p.Printable g full →
    (trace p.bits).map Piece.terminal = (p.relabel .lexical).yield
  | .plain id, h => by
    simp only [Param.bits, trace_word, List.map_cons, terminal_word h]
    rfl
  | .withDefault id value _, h => by
    have hv := Expr.terminals_trace value h.2
    simp [Param.bits, Param.relabel, Param.yield, hv, terminal_word h.1,
      Relabel.lexical]

theorem terminals_traceParams : ∀ ps : List Param, PrintableParams g full ps →
    (Kind.trace (.list .param) ps).map Piece.terminal =
      yieldOfParams (relabelParams .lexical ps)
  | [], _ => rfl
  | p :: ps, h => by
    rw [relabelParams, yieldOfParams, ← Param.terminals_trace p h.1,
      ← terminals_traceParams ps h.2, ← List.map_append]
    rfl

theorem Body.terminals_trace : ∀ b : Body, b.Printable g full →
    (trace b.bits).map Piece.terminal = (b.relabel .lexical).yield
  | .expression value, h => by
    rw [Body.bits, trace_grouped, Expr.terminals_trace value h]
    rfl
  | .block statements _, h => by
    rw [trace_block, terminals_traceStatements statements h]
    rfl

theorem Statement.terminals_trace {inBody : Bool} : ∀ s : Statement,
    s.Printable g full inBody →
    (trace s.bits).map Piece.terminal = (s.relabel .lexical).yield
  | .expression value _, h => by
    rw [Statement.bits, trace_grouped, Expr.terminals_trace value h]
    rfl
  | .return none _, _ => rfl
  | .return (some argument) _, h => by
    simp only [Statement.bits, trace_keyword, trace_gap, List.map_cons,
      Expr.terminals_trace argument h.2]
    rfl
  | .declaration lambda, h => Lambda.terminals_trace lambda h.2.2.2

theorem terminals_traceStatements {inBody : Bool} : ∀ ss : List Statement,
    PrintableStatements g full inBody ss →
    (Kind.trace (.list .statement) ss).map Piece.terminal =
      yieldOfStatements (relabelStatements .lexical ss)
  | [], _ => rfl
  | s :: ss, h => by
    rw [relabelStatements, yieldOfStatements, ← Statement.terminals_trace s h.1,
      ← terminals_traceStatements ss h.2, ← List.map_append]
    rfl

end

end

/-! ## Programs that were read -/

theorem terminals_traceOfTokens (tokens : List Token) :
    (traceOfTokens tokens).map Piece.terminal =
      (tokens.filter (·.lexeme.isTelling)).map Token.terminal := by
  induction tokens with
  | nil => rfl
  | cons token rest ih =>
    unfold traceOfTokens
    cases h : token.lexeme.isTelling with
    | true => simp [h, ih, Piece.terminal, Token.terminal]
    | false => simp [h, ih]

/-- Of a text that is read, the tokens that are no brackets or separators are the yield of the
    program, each once and in their order. -/
theorem Program.terminals_of_ofText {g : Grammar} {origin : Option Origin} {url : Option String}
    {text : List Char} {p : Program} (h : Program.ofText g origin url text = .ok p) :
    ((Token.ofText g text).filter (·.lexeme.isTelling)).map Token.terminal = p.yield := by
  have ht := trace_of_readsAll (readsAll_of_ofText h).1 (lexed_ofText g origin text)
  have hy := terminals_traceStatements p.body (Program.printable_of_ofText h)
  rw [← ht, trace_ofText, terminals_traceOfTokens] at hy
  have hl : relabelStatements .lexical p.body = p.body :=
    congrArg Program.body (Program.lexical_of_ofText h)
  rw [hy, hl, Program.yield]

/-- A declaration with a default value and a shorthand entry, and a conditional behind it. -/
theorem terminals_of_ofText_declaration :
    let text := "function f(#a = 1) \x7b return \x7bb, in: (#a?.in)\x7d; \x7d x ? 'y' : -z;;".toList
    ∃ p, Program.ofText .template none none text = .ok p ∧
      ((Token.ofText .template text).filter (·.lexeme.isTelling)).map Token.terminal = p.yield ∧
      p.yield.map (·.raw) = ["function", "f", "#a", "=", "1", "return", "b", "in", "#a", "?.",
        "in", "x", "?", "'y'", "-", "z"] := by
  intro text
  have raws : (Program.ofText .template none none text).toOption.map
      (fun p => p.yield.map (·.raw)) = some ["function", "f", "#a", "=", "1", "return", "b", "in",
        "#a", "?.", "in", "x", "?", "'y'", "-", "z"] := by decide +kernel
  obtain ⟨p, hp, hraws⟩ := Option.map_eq_some_iff.1 raws
  have h := Production.eq_ok_of_toOption hp
  exact ⟨p, h, Program.terminals_of_ofText h, hraws⟩

end TemplateExpr
