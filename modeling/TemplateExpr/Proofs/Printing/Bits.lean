/-
  The text of a tree cut into its pieces and the spaces between them.

  * `Expr.text_bits`, `Program.text_bits`: put together again, the bits are the text.
-/
import TemplateExpr.Proofs.Printing.Operands
import TemplateExpr.Syntax.Written

namespace TemplateExpr

/-- A part of the text of a tree. -/
inductive Bit where
  /-- One space. -/
  | gap
  | piece (p : Piece)

/-- A name, or a reserved word where one may stand for a name. -/
def Piece.word (text : String) : Piece := ⟨Symbol.word text, text, false⟩

/-- The piece of a literal. -/
def Piece.literal (value : LiteralValue) (raw : String) : Piece :=
  match value with
  | .null | .boolean _ => .keyword raw
  | .number value => ⟨.number value, raw, false⟩
  | .text value => ⟨.text value, raw, false⟩

@[simp] theorem Piece.raw_word (text : String) : (Piece.word text).raw = text := rfl

@[simp] theorem Piece.raw_literal (value : LiteralValue) (raw : String) :
    (Piece.literal value raw).raw = raw := by
  cases value <;> rfl

namespace Bit

/-- The characters of the bits. -/
def text : List Bit → List Char
  | [] => []
  | gap :: bits => ' ' :: text bits
  | piece p :: bits => p.raw.toList ++ text bits

/-- The bits without the spaces. -/
def pieces : List Bit → List Piece
  | [] => []
  | gap :: bits => pieces bits
  | piece p :: bits => p :: pieces bits

def mark (c : Char) : Bit := piece (.mark c)

/-- The bits in parentheses, if need be. -/
def grouped (need : Bool) (bits : List Bit) : List Bit :=
  if need then mark '(' :: (bits ++ [mark ')']) else bits

/-- The bits of items with a mark and a space between each and the next. -/
def joined (c : Char) : List (List Bit) → List Bit
  | [] => []
  | [bits] => bits
  | first :: second :: more => first ++ mark c :: gap :: joined c (second :: more)

section
variable (bits others : List Bit)

@[simp] theorem text_nil : text [] = [] := rfl

@[simp] theorem text_gap : text (gap :: bits) = ' ' :: text bits := rfl

@[simp] theorem text_piece (p : Piece) : text (piece p :: bits) = p.raw.toList ++ text bits := rfl

@[simp] theorem text_mark (c : Char) : text (mark c :: bits) = c :: text bits := by
  simp [mark]

@[simp] theorem text_append : text (bits ++ others) = text bits ++ text others := by
  induction bits with
  | nil => rfl
  | cons bit bits ih => cases bit <;> simp [ih]

@[simp] theorem pieces_nil : pieces [] = [] := rfl

@[simp] theorem pieces_gap : pieces (gap :: bits) = pieces bits := rfl

@[simp] theorem pieces_piece (p : Piece) : pieces (piece p :: bits) = p :: pieces bits := rfl

@[simp] theorem pieces_mark (c : Char) : pieces (mark c :: bits) = .mark c :: pieces bits := rfl

@[simp] theorem pieces_append : pieces (bits ++ others) = pieces bits ++ pieces others := by
  induction bits with
  | nil => rfl
  | cons bit bits ih => cases bit <;> simp [ih]

theorem text_grouped (need : Bool) {written : String} (h : text bits = written.toList) :
    text (grouped need bits) = (TemplateExpr.grouped need written).toList := by
  cases need <;> simp [grouped, TemplateExpr.grouped, h]

end

theorem text_joined {c : Char} {separator : String} (hs : separator.toList = [c, ' '])
    {items : List (List Bit)} {written : List String}
    (h : items.map text = written.map String.toList) :
    text (joined c items) = (joinWith separator written).toList := by
  induction items generalizing written with
  | nil =>
    obtain rfl : written = [] := by simpa using h
    rfl
  | cons first items ih =>
    obtain ⟨w, ws, rfl, hw, hws⟩ := List.map_eq_cons_iff.1 h.symm
    have ih := ih hws.symm
    cases items with
    | nil =>
      obtain rfl : ws = [] := by simpa using hws
      exact hw.symm
    | cons second items =>
      obtain ⟨w', ws, rfl, -, -⟩ := List.map_eq_cons_iff.1 hws
      rw [joined, text_append, text_mark, text_gap, ih, joinWith_cons_cons]
      simp [hs, hw]

theorem pieces_joined (c : Char) (items : List (List Bit)) :
    pieces (joined c items) = TemplateExpr.joined c (items.map pieces) := by
  induction items with
  | nil => rfl
  | cons first items ih =>
    cases items with
    | nil => rfl
    | cons second items =>
      simp only [joined, TemplateExpr.joined, List.map_cons, pieces_append, pieces_mark,
        pieces_gap] at ih ⊢
      rw [ih]

end Bit

/-! ## The bits of a tree -/

/-- The body stands between braces. -/
def Body.isBlock : Body → Bool
  | .expression _ => false
  | .block _ _ => true

open Bit (gap piece mark)

mutual

def Expr.bits : Expr → List Bit
  | .identifier id => [piece (.word id.written)]
  | .literal value raw _ => [piece (.literal value raw)]
  | .this _ => [piece (.keyword "this")]
  | .array elements _ => mark '[' :: (Bit.joined ',' (bitsOfList elements) ++ [mark ']'])
  | .object properties _ =>
    mark '\x7b' :: (Bit.joined ',' (bitsOfProperties properties) ++ [mark '\x7d'])
  | .member object property computed optional _ =>
    let before := Bit.grouped (needsGroupAsCallee object) object.bits
    let name := property.bits
    match computed, optional with
    | true, true => before ++ piece (.operator "?.") :: mark '[' :: (name ++ [mark ']'])
    | true, false => before ++ mark '[' :: (name ++ [mark ']'])
    | false, true => before ++ piece (.operator "?.") :: name
    | false, false => before ++ mark '.' :: name
  | .call callee arguments optional _ =>
    Bit.grouped (needsGroupAsCallee callee) callee.bits ++
      ((if optional then [piece (.operator "?."), mark '('] else [mark '(']) ++
        (Bit.joined ',' (bitsOfList arguments) ++ [mark ')']))
  | .unary op argument _ =>
    let need : Bool := argument.precedence < Precedence.unary
    piece (.symbol op) :: ((if wantsSpace op (grouped need argument.written) then [gap] else []) ++
      Bit.grouped need argument.bits)
  | .update op leading argument _ =>
    if leading then
      piece (.operator op) :: Bit.grouped (argument.precedence < Precedence.unary) argument.bits
    else
      Bit.grouped (argument.precedence < Precedence.call) argument.bits ++ [piece (.operator op)]
  | .binary op left right _ | .logical op left right _ =>
    Bit.grouped (left.precedence < leftMinimum op) left.bits ++ gap :: piece (.symbol op) :: gap ::
      Bit.grouped (right.precedence < rightMinimum op) right.bits
  | .conditional test consequent alternate _ =>
    Bit.grouped (test.precedence < Precedence.conditional + 1) test.bits ++
      gap :: piece (.operator "?") :: gap ::
      (Bit.grouped (consequent.precedence < Precedence.assignment) consequent.bits ++
        gap :: mark ':' :: gap ::
        Bit.grouped (alternate.precedence < Precedence.assignment) alternate.bits)
  | .assignment op left right _ =>
    Bit.grouped (left.precedence < Precedence.postfixed) left.bits ++
      gap :: piece (.operator op) :: gap ::
      Bit.grouped (right.precedence < Precedence.assignment) right.bits
  | .sequence expressions _ => Bit.joined ',' (bitsOfList expressions)
  | .arrow ⟨_, params, body, _⟩ =>
    mark '(' :: (Bit.joined ',' (bitsOfParams params) ++
      mark ')' :: gap :: piece (.arrow body.isBlock) :: gap :: body.bits)
  | .function lambda => lambda.bits

/-- The bits of the items of a list, one item each. -/
def bitsOfList : List Expr → List (List Bit)
  | [] => []
  | e :: es => Bit.grouped (e.precedence < Precedence.assignment) e.bits :: bitsOfList es

def Property.bits : Property → List Bit
  | ⟨key, value, computed, shorthand, _⟩ =>
    if shorthand then value.bits
    else
      (if computed then
        mark '[' :: (Bit.grouped (key.precedence < Precedence.assignment) key.bits ++ [mark ']'])
        else key.bits) ++
        mark ':' :: gap :: Bit.grouped (value.precedence < Precedence.assignment) value.bits

def bitsOfProperties : List Property → List (List Bit)
  | [] => []
  | p :: ps => p.bits :: bitsOfProperties ps

def Lambda.bits : Lambda → List Bit
  | ⟨id, params, body, _⟩ =>
    piece (.keyword "function") ::
      ((match id with | some id => [gap, piece (.word id.name)] | none => []) ++
        mark '(' :: (Bit.joined ',' (bitsOfParams params) ++ mark ')' :: gap :: body.bits))

def Param.bits : Param → List Bit
  | .plain id => [piece (.word id.written)]
  | .withDefault id value _ =>
    piece (.word id.written) :: gap :: piece (.operator "=") :: gap ::
      Bit.grouped (value.precedence < Precedence.assignment) value.bits

def bitsOfParams : List Param → List (List Bit)
  | [] => []
  | p :: ps => p.bits :: bitsOfParams ps

def Body.bits : Body → List Bit
  | .expression value =>
    Bit.grouped ((Body.expression value).isObject || value.precedence < Precedence.assignment)
      value.bits
  | .block [] _ => [mark '\x7b', mark '\x7d']
  | .block (s :: ss) _ =>
    mark '\x7b' :: gap :: (Bit.joined ';' (s.bits :: bitsOfStatements ss) ++ [gap, mark '\x7d'])

def Statement.bits : Statement → List Bit
  | .expression value _ => Bit.grouped (readsAsDeclaration value.written) value.bits
  | .return none _ => [piece (.keyword "return")]
  | .return (some argument) _ => piece (.keyword "return") :: gap :: argument.bits
  | .declaration lambda => lambda.bits

def bitsOfStatements : List Statement → List (List Bit)
  | [] => []
  | s :: ss => s.bits :: bitsOfStatements ss

end

def Program.bits (program : Program) : List Bit :=
  Bit.joined ';' (bitsOfStatements program.body)

/-- The bits of an item of a list; a comma inside it wants parentheses. -/
def Expr.itemBits (e : Expr) : List Bit :=
  Bit.grouped (e.precedence < Precedence.assignment) e.bits

theorem bitsOfList_eq (es : List Expr) : bitsOfList es = es.map Expr.itemBits := by
  induction es with
  | nil => rfl
  | cons e es ih => rw [bitsOfList, ih, List.map_cons, Expr.itemBits]

theorem bitsOfProperties_eq (ps : List Property) : bitsOfProperties ps = ps.map Property.bits := by
  induction ps with
  | nil => rfl
  | cons p ps ih => rw [bitsOfProperties, ih, List.map_cons]

theorem bitsOfParams_eq (ps : List Param) : bitsOfParams ps = ps.map Param.bits := by
  induction ps with
  | nil => rfl
  | cons p ps ih => rw [bitsOfParams, ih, List.map_cons]

theorem bitsOfStatements_eq (ss : List Statement) :
    bitsOfStatements ss = ss.map Statement.bits := by
  induction ss with
  | nil => rfl
  | cons s ss ih => rw [bitsOfStatements, ih, List.map_cons]

/-! ## The text of the bits -/

section
open Bit

theorem text_commas {items : List (List Bit)} {written : List String}
    (h : items.map text = written.map String.toList) :
    text (Bit.joined ',' items) = (joinWith ", " written).toList :=
  text_joined (by simp) h

theorem text_semicolons {items : List (List Bit)} {written : List String}
    (h : items.map text = written.map String.toList) :
    text (Bit.joined ';' items) = (joinWith "; " written).toList :=
  text_joined (by simp) h

mutual

theorem Expr.text_bits : ∀ e : Expr, text e.bits = e.written.toList
  | .identifier id => by simp [Expr.bits, Expr.written]
  | .literal value raw _ => by simp [Expr.bits, Expr.written]
  | .this _ => by simp [Expr.bits, Expr.written]
  | .array elements _ => by
    simp [Expr.bits, Expr.written, text_commas (text_bitsOfList elements)]
  | .object properties _ => by
    simp [Expr.bits, Expr.written, inBraces, text_commas (text_bitsOfProperties properties)]
  | .member object property computed optional _ => by
    have ho := text_grouped _ (needsGroupAsCallee object) (Expr.text_bits object)
    have hp := Expr.text_bits property
    cases computed <;> cases optional <;>
      simp [Expr.bits, Expr.written, ho, hp]
  | .call callee arguments optional _ => by
    have hc := text_grouped _ (needsGroupAsCallee callee) (Expr.text_bits callee)
    cases optional <;>
      simp [Expr.bits, Expr.written, hc, text_commas (text_bitsOfList arguments)]
  | .unary op argument _ => by
    have ha := text_grouped _ (argument.precedence < Precedence.unary) (Expr.text_bits argument)
    simp only [Expr.bits, Expr.written, writtenUnary, text_piece, text_append, ha]
    split <;> simp
  | .update op leading argument _ => by
    have hl := text_grouped _ (argument.precedence < Precedence.unary) (Expr.text_bits argument)
    have ht := text_grouped _ (argument.precedence < Precedence.call) (Expr.text_bits argument)
    cases leading <;> simp [Expr.bits, Expr.written, hl, ht]
  | .binary op left right _ | .logical op left right _ => by
    have hl := text_grouped _ (left.precedence < leftMinimum op) (Expr.text_bits left)
    have hr := text_grouped _ (right.precedence < rightMinimum op) (Expr.text_bits right)
    simp [Expr.bits, Expr.written, hl, hr]
  | .conditional test consequent alternate _ => by
    have ht := text_grouped _ (test.precedence < Precedence.conditional + 1) (Expr.text_bits test)
    have hc := text_grouped _ (consequent.precedence < Precedence.assignment)
      (Expr.text_bits consequent)
    have ha := text_grouped _ (alternate.precedence < Precedence.assignment)
      (Expr.text_bits alternate)
    simp only [Expr.bits, Expr.written, Nat.lt_add_one_iff] at ht ⊢
    simp [ht, hc, ha]
  | .assignment op left right _ => by
    have hl := text_grouped _ (left.precedence < Precedence.postfixed) (Expr.text_bits left)
    have hr := text_grouped _ (right.precedence < Precedence.assignment) (Expr.text_bits right)
    simp [Expr.bits, Expr.written, hl, hr]
  | .sequence expressions _ => by
    simp [Expr.bits, Expr.written, text_commas (text_bitsOfList expressions)]
  | .arrow ⟨_, params, body, _⟩ => by
    simp [Expr.bits, Expr.written, text_commas (text_bitsOfParams params), Body.text_bits body,
      Piece.arrow]
  | .function lambda => Lambda.text_bits lambda

theorem text_bitsOfList : ∀ es : List Expr,
    (bitsOfList es).map text = (writtenList es).map String.toList
  | [] => rfl
  | e :: es => by
    rw [bitsOfList, writtenList, List.map_cons, List.map_cons, text_bitsOfList es,
      text_grouped _ _ (Expr.text_bits e)]

theorem Property.text_bits : ∀ p : Property, text p.bits = p.written.toList
  | ⟨key, value, computed, shorthand, _⟩ => by
    have hv := text_grouped _ (value.precedence < Precedence.assignment) (Expr.text_bits value)
    have hk := text_grouped _ (key.precedence < Precedence.assignment) (Expr.text_bits key)
    cases shorthand <;> cases computed <;>
      simp [Property.bits, Property.written, hv, hk, Expr.text_bits key, Expr.text_bits value]

theorem text_bitsOfProperties : ∀ ps : List Property,
    (bitsOfProperties ps).map text = (writtenProperties ps).map String.toList
  | [] => rfl
  | p :: ps => by
    rw [bitsOfProperties, writtenProperties, List.map_cons, List.map_cons,
      text_bitsOfProperties ps, Property.text_bits p]

theorem Lambda.text_bits : ∀ f : Lambda, text f.bits = f.written.toList
  | ⟨id, params, body, _⟩ => by
    cases id <;>
      simp [Lambda.bits, Lambda.written, text_commas (text_bitsOfParams params),
        Body.text_bits body]

theorem Param.text_bits : ∀ p : Param, text p.bits = p.written.toList
  | .plain id => by simp [Param.bits, Param.written]
  | .withDefault id value _ => by
    have hv := text_grouped _ (value.precedence < Precedence.assignment) (Expr.text_bits value)
    simp [Param.bits, Param.written, hv]

theorem text_bitsOfParams : ∀ ps : List Param,
    (bitsOfParams ps).map text = (writtenParams ps).map String.toList
  | [] => rfl
  | p :: ps => by
    rw [bitsOfParams, writtenParams, List.map_cons, List.map_cons, text_bitsOfParams ps,
      Param.text_bits p]

theorem Body.text_bits : ∀ b : Body, text b.bits = b.written.toList
  | .expression value => by
    rw [Body.bits, Body.written, text_grouped _ _ (Expr.text_bits value)]
  | .block [] _ => by simp [Body.bits, Body.written, inBraces]
  | .block (s :: ss) _ => by
    have hs : (s.bits :: bitsOfStatements ss).map text =
        (s.written :: writtenStatements ss).map String.toList := by
      rw [List.map_cons, List.map_cons, Statement.text_bits s, text_bitsOfStatements ss]
    simp [Body.bits, Body.written, inBraces, text_semicolons hs]

theorem Statement.text_bits : ∀ s : Statement, text s.bits = s.written.toList
  | .expression value _ => by
    rw [Statement.bits, Statement.written, text_grouped _ _ (Expr.text_bits value)]
  | .return none _ => by simp [Statement.bits, Statement.written]
  | .return (some argument) _ => by
    simp [Statement.bits, Statement.written, Expr.text_bits argument]
  | .declaration lambda => Lambda.text_bits lambda

theorem text_bitsOfStatements : ∀ ss : List Statement,
    (bitsOfStatements ss).map text = (writtenStatements ss).map String.toList
  | [] => rfl
  | s :: ss => by
    rw [bitsOfStatements, writtenStatements, List.map_cons, List.map_cons,
      text_bitsOfStatements ss, Statement.text_bits s]

end

theorem Program.text_bits (program : Program) : text program.bits = program.written.toList :=
  text_semicolons (text_bitsOfStatements program.body)

end

end TemplateExpr
