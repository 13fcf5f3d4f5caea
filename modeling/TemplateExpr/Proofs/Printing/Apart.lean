/-
  Each piece of the text of a tree keeps its lexeme in front of what follows it. The two
  exceptions are those of `Expr.legible`, and they are the only ones.

  * `Piece.Joins`, `Piece.Clear`: what a piece wants of the text behind it. The tree sees to the
    first for every piece; the second is what `legible` is about.
  * `Expr.apart`: the pieces of a tree join, and they are clear if and only if it is legible.
-/
import TemplateExpr.Proofs.Printing.First

namespace TemplateExpr
open Text
open Bit (gap piece mark)

theorem noName_cons {c : Char} (h : isNamePart c = false) (ds : List Char) : NoName (c :: ds) := h

/-! ## Pieces in front of a text -/

/-- The piece keeps its lexeme in front of the text, but for a point behind a whole number. -/
def Piece.Joins (p : Piece) (ds : List Char) : Prop :=
  match p.lexeme with
  | .number _ => NoName ds
  | lexeme => lexeme.Ends p.raw.toList ds

/-- The text does not begin with a point if the piece is a whole number, and it goes on with a
    brace behind `=>` only if a block is meant. -/
def Piece.Clear (p : Piece) (ds : List Char) : Prop :=
  match p.lexeme with
  | .number _ => p.raw.toList.all isDigit = true → ds.head? ≠ some '.'
  | .operator op => op = "=>" → [' ', '\x7b'] <+: ds → p.block = true
  | _ => True

theorem Piece.ends {p : Piece} {ds : List Char} (hj : p.Joins ds) (hc : p.Clear ds) :
    p.lexeme.Ends p.raw.toList ds := by
  obtain ⟨lexeme, raw, block⟩ := p
  cases lexeme with
  | number => exact ⟨hj, hc⟩
  | _ => exact hj

/-- Every piece joins with the text behind it, and is clear of it if `care`. -/
def Bit.Apart (care : Bool) : List Bit → List Char → Prop
  | [], _ => True
  | gap :: bits, ds => Apart care bits ds
  | piece p :: bits, ds =>
    (p.Joins (text bits ++ ds) ∧ (care = true → p.Clear (text bits ++ ds))) ∧ Apart care bits ds

open Bit (Apart)

section
variable {care : Bool} {bits others : List Bit} {ds : List Char} {c : Char} {op word : String}

@[simp] theorem apart_nil : Apart care [] ds ↔ True := Iff.rfl

@[simp] theorem apart_gap : Apart care (gap :: bits) ds ↔ Apart care bits ds := Iff.rfl

theorem apart_piece {p : Piece} : Apart care (piece p :: bits) ds ↔
    (p.Joins (Bit.text bits ++ ds) ∧ (care = true → p.Clear (Bit.text bits ++ ds))) ∧
      Apart care bits ds := Iff.rfl

@[simp] theorem apart_append :
    Apart care (bits ++ others) ds ↔
      Apart care bits (Bit.text others ++ ds) ∧ Apart care others ds := by
  induction bits with
  | nil => simp
  | cons bit bits ih => cases bit <;> simp [apart_piece, ih, and_assoc]

@[simp] theorem apart_mark (hc : c ≠ '.') :
    Apart care (mark c :: bits) ds ↔ Apart care bits ds := by
  have hj : (Piece.mark c).Joins (Bit.text bits ++ ds) := fun h => absurd h hc
  have hclear : (Piece.mark c).Clear (Bit.text bits ++ ds) := trivial
  simp [mark, apart_piece, hj, hclear]

theorem apart_point (h : (Bit.text bits ++ ds).head?.any isDigit = false) :
    Apart care (mark '.' :: bits) ds ↔ Apart care bits ds := by
  have hj : (Piece.mark '.').Joins (Bit.text bits ++ ds) := fun _ => h
  have hclear : (Piece.mark '.').Clear (Bit.text bits ++ ds) := trivial
  simp [mark, apart_piece, hj, hclear]

theorem apart_word (h : NoName (Bit.text bits ++ ds)) :
    Apart care (piece (.word word) :: bits) ds ↔ Apart care bits ds := by
  have both : (Piece.word word).Joins (Bit.text bits ++ ds) ∧
      (Piece.word word).Clear (Bit.text bits ++ ds) := by
    unfold Piece.Joins Piece.Clear
    obtain ⟨hw, -⟩ | ⟨hw, -⟩ := Lexeme.word_cases word <;>
    · simp only [Piece.word, hw]
      exact ⟨h, trivial⟩
  simp [apart_piece, both]

theorem apart_keyword (h : NoName (Bit.text bits ++ ds)) :
    Apart care (piece (.keyword word) :: bits) ds ↔ Apart care bits ds := by
  have hj : (Piece.keyword word).Joins (Bit.text bits ++ ds) := h
  have hclear : (Piece.keyword word).Clear (Bit.text bits ++ ds) := trivial
  simp [apart_piece, hj, hclear]

theorem apart_operator (ho : op ≠ "=>")
    (h : ∀ c ∈ (Bit.text bits ++ ds).head?, Symbol.endsBefore op c = true) :
    Apart care (piece (.operator op) :: bits) ds ↔ Apart care bits ds := by
  have hj : (Piece.operator op).Joins (Bit.text bits ++ ds) := h
  have hclear : (Piece.operator op).Clear (Bit.text bits ++ ds) := fun h => absurd h ho
  simp [apart_piece, hj, hclear]

theorem apart_word_gap :
    Apart care (piece (.word word) :: gap :: bits) ds ↔ Apart care bits ds :=
  apart_word (noName_cons isNamePart_space _)

theorem apart_word_mark (hc : isNamePart c = false) :
    Apart care (piece (.word word) :: mark c :: bits) ds ↔ Apart care (mark c :: bits) ds := by
  refine apart_word ?_
  rw [Bit.text_mark]
  exact noName_cons hc _

theorem apart_keyword_gap :
    Apart care (piece (.keyword word) :: gap :: bits) ds ↔ Apart care bits ds :=
  apart_keyword (noName_cons isNamePart_space _)

theorem apart_keyword_mark (hc : isNamePart c = false) :
    Apart care (piece (.keyword word) :: mark c :: bits) ds ↔ Apart care (mark c :: bits) ds := by
  refine apart_keyword ?_
  rw [Bit.text_mark]
  exact noName_cons hc _

theorem apart_arrow_gap {block : Bool} :
    Apart care (piece (.arrow block) :: gap :: bits) ds ↔
      (care = true → (Bit.text bits ++ ds).head? = some '\x7b' → block = true) ∧
        Apart care bits ds := by
  have hj : (Piece.arrow block).Joins (Bit.text (gap :: bits) ++ ds) := by
    intro c hc
    rw [← Option.some.inj hc]
    decide
  have hclear : (Piece.arrow block).Clear (Bit.text (gap :: bits) ++ ds) ↔
      ((Bit.text bits ++ ds).head? = some '\x7b' → block = true) := by
    have hp : [' ', '\x7b'] <+: Bit.text (gap :: bits) ++ ds ↔
        (Bit.text bits ++ ds).head? = some '\x7b' := by
      rw [Bit.text_gap, List.cons_append, List.cons_prefix_cons, and_iff_right rfl]
      cases Bit.text bits ++ ds <;> simp [eq_comm]
    rw [← hp]
    exact ⟨fun h => h rfl, fun h _ => h⟩
  simp only [apart_piece, hj, hclear, true_and, apart_gap]

/-- The spellings of operators in the middle of an expression. -/
def IsSymbol (op : String) : Prop :=
  op ∈ Symbol.operators ++ Symbol.keywords ∧ op ≠ "=>"

/-- No operator goes on with a space. -/
theorem endsBefore_space (op : String) : Symbol.endsBefore op ' ' = true := by
  have table : ∀ op ∈ Symbol.operators, ' ' ∉ op.toList := by decide
  have hc : ' ' ∉ Symbol.continuations op := by
    intro hm
    obtain ⟨longer, hl, hc⟩ := List.mem_filterMap.1 hm
    exact table longer (List.mem_filter.1 hl).1 (List.mem_of_getElem? hc)
  have hd : isDigit ' ' = false := by decide
  simp [Symbol.endsBefore, hc, hd]

theorem apart_operator_gap (ho : op ∈ Symbol.operators ∧ op ≠ "=>") :
    Apart care (piece (.operator op) :: gap :: bits) ds ↔ Apart care bits ds := by
  rw [apart_operator ho.2 (fun c hc => ?_), apart_gap]
  rw [← Option.some.inj hc]
  exact endsBefore_space op

theorem apart_symbol_gap (ho : IsSymbol op) :
    Apart care (piece (.symbol op) :: gap :: bits) ds ↔ Apart care bits ds := by
  unfold Piece.symbol
  split
  · exact apart_keyword_gap
  · next hk =>
    have hm : op ∈ Symbol.operators :=
      (List.mem_append.1 ho.1).resolve_right (by simpa using hk)
    exact apart_operator_gap ⟨hm, ho.2⟩

/-- The operators that are not followed by a space go on with no character. -/
theorem apart_update (ho : op ∈ Operator.update) :
    Apart care (piece (.operator op) :: bits) ds ↔ Apart care bits ds := by
  have table : ∀ op ∈ Operator.update, Symbol.continuations op = [] ∧ op ≠ "/" ∧ op ≠ "?." ∧
      op ≠ "=>" := by decide
  obtain ⟨hc, hs, hq, ha⟩ := table op ho
  exact apart_operator ha fun c _ => by simp [Symbol.endsBefore, hc, hs, hq]

theorem apart_optional (h : (Bit.text bits ++ ds).head?.any isDigit = false) :
    Apart care (piece (.operator "?.") :: bits) ds ↔ Apart care bits ds := by
  have hc : Symbol.continuations "?." = [] := by decide
  refine apart_operator (by decide) fun c hd => ?_
  rw [Option.mem_def] at hd
  rw [hd, Option.any_some] at h
  simp [Symbol.endsBefore, hc, h]

theorem apart_optional_mark (hd : isDigit c = false) :
    Apart care (piece (.operator "?.") :: mark c :: bits) ds ↔ Apart care (mark c :: bits) ds := by
  refine apart_optional ?_
  rw [Bit.text_mark]
  exact hd

/-- A unary operator ends in front of an operand that it wants no space before. -/
theorem apart_unary {argument : String} {rest : List Char} (ho : op ∈ Operator.unary)
    (hw : wantsSpace op argument = false) (hr : argument.toList = c :: rest) (hc : c ≠ '=')
    (ht : Bit.text bits = argument.toList) :
    Apart care (piece (.symbol op) :: bits) ds ↔ Apart care bits ds := by
  have table : ∀ op ∈ Operator.unary, Symbol.keywords.contains op = false ∧ op ≠ "/" ∧
      op ≠ "?." ∧ op ≠ "=>" ∧ (Symbol.continuations op).all (fun c =>
        c == '=' || (op == "-" || op == "+") && op.toList == [c]) = true := by decide
  obtain ⟨hk, hs, hq, ha, hcont⟩ := table op ho
  have hp : Piece.symbol op = .operator op := by rw [Piece.symbol, hk]; rfl
  rw [hp]
  refine apart_operator ha fun d hd => ?_
  rw [ht, hr, List.cons_append] at hd
  obtain rfl : c = d := Option.some.inj hd
  have hnot : c ∉ Symbol.continuations op := by
    intro hm
    obtain he | ⟨hsign, hop⟩ :=
      (Bool.or_eq_true_iff.1 (List.all_eq_true.1 hcont c hm)).imp_right Bool.and_eq_true_iff.1
    · exact hc (eq_of_beq he)
    · rw [wantsSpace, hsign, eq_of_beq hop, hr] at hw
      simp at hw
  simp [Symbol.endsBefore, hnot, hs, hq]

/-! ## Texts behind an expression -/

/-- What may follow any expression. -/
def separators : List Char :=
  [' ', ',', ')', ']', '\x7d', ':', ';']

/-- What may also follow an operand with the members and calls behind it. -/
def linkStarts : List Char :=
  ['.', '?', '[', '(', '+', '-']

/-- The text may follow an expression of the level. -/
def Follows (m : Nat) (ds : List Char) : Prop :=
  ∀ c ∈ ds.head?, c ∈ separators ∨ (Precedence.call ≤ m ∧ c ∈ linkStarts)

/-- The text may follow any expression. -/
def Separated (ds : List Char) : Prop :=
  ∀ c ∈ ds.head?, c ∈ separators

theorem Separated.follows (h : Separated ds) (m : Nat) : Follows m ds :=
  fun c hc => .inl (h c hc)

theorem Follows.separated {m : Nat} (h : Follows m ds) (hm : m < Precedence.call) :
    Separated ds := fun c hc => (h c hc).resolve_right fun hl => absurd hl.1 (Nat.not_le_of_lt hm)

theorem Follows.mono {m n : Nat} (h : Follows m ds) (hmn : m ≤ n) : Follows n ds :=
  fun c hc => (h c hc).imp_right fun hl => ⟨Nat.le_trans hl.1 hmn, hl.2⟩

theorem separated_cons (hc : c ∈ separators) (ds : List Char) : Separated (c :: ds) := by
  rintro d hd
  rwa [← Option.some.inj hd]

theorem separated_nil : Separated [] := by
  rintro c hc
  cases hc

theorem Follows.noName {m : Nat} (h : Follows m ds) : NoName ds := by
  have table : ((separators ++ linkStarts).all fun c => decide (c.toNat < 128 ∧
      (c.isAlpha || c == '_' || c == '$' || c.isDigit) = false)) = true := by decide
  cases ds with
  | nil => rfl
  | cons c ds =>
    have hc : c ∈ separators ++ linkStarts :=
      List.mem_append.2 ((h c rfl).imp_right And.right)
    obtain ⟨hl, hn⟩ := of_decide_eq_true (List.all_eq_true.1 table c hc)
    exact (isNamePart_ascii hl).trans hn

theorem follows_link (hc : c ∈ linkStarts) (ds : List Char) :
    Follows Precedence.call (c :: ds) := by
  rintro d hd
  rw [← Option.some.inj hd]
  exact .inr ⟨Nat.le_refl _, hc⟩

theorem Separated.noName (h : Separated ds) : NoName ds := (h.follows 0).noName

theorem Separated.head_ne_point (h : Separated ds) : ds.head? ≠ some '.' :=
  fun hp => absurd (h '.' hp) (by decide)

end

/-! ## Operators -/

theorem isSymbol_unary {op : String} (h : op ∈ Operator.unary ∨ op ∈ Operator.unaryWords) :
    IsSymbol op := by
  have table : ∀ op ∈ Operator.unary ++ Operator.unaryWords,
      op ∈ Symbol.operators ++ Symbol.keywords ∧ op ≠ "=>" := by decide
  exact table op (List.mem_append.2 h)

/-- Words want a space behind them. -/
theorem unary_of_not_wantsSpace {op argument : String}
    (h : op ∈ Operator.unary ∨ op ∈ Operator.unaryWords) (hw : wantsSpace op argument = false) :
    op ∈ Operator.unary := by
  have table : ∀ op ∈ Operator.unaryWords, op.toList.all isAlphabetic = true := by decide
  refine h.resolve_right fun h => ?_
  rw [wantsSpace, table op h] at hw
  cases hw

theorem isOperator_question : "?" ∈ Symbol.operators ∧ "?" ≠ "=>" := by
  decide

theorem isOperator_assignment {op : String} (h : op ∈ Operator.assignment) :
    op ∈ Symbol.operators ∧ op ≠ "=>" := by
  revert op
  decide

theorem isSymbol_binary {logical : Bool} {op : String}
    (h : op = Operator.power ∨ IsOperator logical op) : IsSymbol op := by
  have table : ∀ level ∈ Operator.levels, ∀ op ∈ level.operators,
      op ∈ Symbol.operators ++ Symbol.keywords ∧ op ≠ "=>" := by decide
  obtain rfl | ⟨level, hl, -, ho⟩ := h
  · unfold IsSymbol
    decide
  · exact table level hl op ho

theorem ofBinary_lt {logical : Bool} {op : String}
    (h : op = Operator.power ∨ IsOperator logical op) :
    Precedence.ofBinary op < Precedence.call := by
  have table : ∀ level ∈ Operator.levels, ∀ op ∈ level.operators,
      Precedence.ofBinary op < Precedence.call := by decide
  obtain rfl | ⟨level, hl, -, ho⟩ := h
  · decide
  · exact table level hl op ho

/-! ## Names and series -/

/-- A word does not begin with a digit. -/
theorem IsWord.first {g : Grammar} {word : String} (h : IsWord g word) :
    ∃ c cs, word.toList = c :: cs ∧ isDigit c = false := by
  obtain h | h := h
  · obtain ⟨c, cs, hraw, -, hread⟩ := h.alone rfl
    refine ⟨c, cs, hraw, ?_⟩
    cases hd : isDigit c with
    | false => rfl
    | true =>
      rw [(Lexeme.start_of_isDigit hd).read_eq] at hread
      have hl := congrArg Prod.fst hread
      obtain ⟨value, hv⟩ | ⟨fault, hv⟩ := Number.read_lexeme (c :: cs) <;>
      · dsimp only at hl
        rw [hv] at hl
        cases hl
  · have table : ∀ word ∈ Symbol.keywords, word.toList.head?.any (!isDigit ·) = true := by
      decide
    obtain ⟨c, cs, hcs, hd⟩ := first_of_any (table word h)
    exact ⟨c, cs, hcs, by simpa using hd⟩

theorem IsWord.first_not_digit {g : Grammar} {word : String} (h : IsWord g word)
    (ds : List Char) :
    (Bit.text [piece (.word word)] ++ ds).head?.any isDigit = false := by
  obtain ⟨c, cs, hw, hd⟩ := h.first
  simp [Piece.word, hw, hd]

theorem IsName.identifier {g : Grammar} {e : Expr} (h : e.IsName g) :
    ∃ id, e = .identifier id ∧ IsWord g id.written := by
  cases e with
  | identifier id => exact ⟨id, rfl, h⟩
  | _ => exact absurd h id

theorem IsShorthand.identifiers {g : Grammar} {key value : Expr} (h : key.IsShorthand g value) :
    ∃ id id', key = .identifier id ∧ value = .identifier id' ∧ id.written = id'.written ∧
      Spelled g (.name id'.written) id'.written := by
  cases key with
  | identifier id =>
    cases value with
    | identifier id' => exact ⟨id, id', rfl, rfl, h⟩
    | _ => exact absurd h False.elim
  | _ => exact absurd h False.elim

/-- A key that is not computed stands apart from the colon behind it. -/
theorem IsKey.apart {g : Grammar} {care : Bool} {key : Expr} (h : key.IsKey g) (ds : List Char) :
    key.legible = true ∧ (Apart care key.bits (':' :: ds) ↔ True) := by
  have hs : Separated (':' :: ds) := separated_cons (by decide) ds
  have hn : NoName (Bit.text [] ++ ':' :: ds) := hs.noName
  cases key with
  | identifier id => exact ⟨rfl, by simp [Expr.bits, apart_word hn]⟩
  | literal value raw =>
    cases value with
    | number value =>
      have hj : (Piece.literal (.number value) raw).Joins (':' :: ds) := hn
      have hc : (Piece.literal (.number value) raw).Clear (':' :: ds) := fun _ hp => by cases hp
      exact ⟨rfl, by simp [Expr.bits, apart_piece, hj, hc]⟩
    | text value =>
      have hj : (Piece.literal (.text value) raw).Joins (':' :: ds) := trivial
      have hc : (Piece.literal (.text value) raw).Clear (':' :: ds) := trivial
      exact ⟨rfl, by simp [Expr.bits, apart_piece, hj, hc]⟩
    | _ => exact absurd h id
  | _ => exact absurd h id

section
variable {care : Bool} {ds : List Char} {α : Type} {bits : α → List Bit} {P : α → Prop}

/-- Items in a row are apart if each is apart from what may follow it. -/
theorem apart_joined {c : Char} (hc : c ∈ separators) {as : List α}
    (h : ∀ a ∈ as, ∀ ds, Separated ds → (Apart care (bits a) ds ↔ (care = true → P a)))
    (hs : Separated ds) :
    Apart care (Bit.joined c (as.map bits)) ds ↔ (care = true → ∀ a ∈ as, P a) := by
  have hpoint : c ≠ '.' := by
    rintro rfl
    exact absurd hc (by decide)
  induction as with
  | nil => simp [Bit.joined]
  | cons a as ih =>
    have ih := ih fun x hx => h x (List.mem_cons_of_mem a hx)
    have ha := h a List.mem_cons_self
    cases as with
    | nil => simpa [Bit.joined] using ha ds hs
    | cons b as =>
      have hfollow : Separated
          (Bit.text (mark c :: gap :: Bit.joined c ((b :: as).map bits)) ++ ds) := by
        rw [Bit.text_mark]
        exact separated_cons hc _
      rw [List.map_cons, List.map_cons, Bit.joined, apart_append, apart_mark hpoint, apart_gap]
      refine (and_congr (ha _ hfollow) ih).trans ?_
      simp only [List.forall_mem_cons, imp_and]

end

/-! ## Trees -/

/-- The bits of the expression are apart from what may follow it. -/
def Expr.ApartFrom (care : Bool) (e : Expr) : Prop :=
  ∀ ds, Follows e.precedence ds → (Apart care e.bits ds ↔
    (care = true → e.legible = true ∧ (e.isWholeNumber = true → ds.head? ≠ some '.')))

section
variable {care : Bool} {ds : List Char} {e : Expr} {need : Bool} {m : Nat}

theorem Expr.ApartFrom.of_legible (hw : e.isWholeNumber = false)
    (h : ∀ ds, Follows e.precedence ds →
      (Apart care e.bits ds ↔ (care = true → e.legible = true))) : e.ApartFrom care := by
  intro ds hf
  rw [h ds hf, hw]
  simp

/-- In parentheses or not, an expression stays apart from what may follow it. -/
theorem Expr.ApartFrom.grouped (h : e.ApartFrom care) (hn : need = false → m ≤ e.precedence)
    (hf : Follows m ds) : Apart care (Bit.grouped need e.bits) ds ↔
      (care = true → e.legible = true ∧
        (need = false → e.isWholeNumber = true → ds.head? ≠ some '.')) := by
  cases need with
  | false => simpa [Bit.grouped] using h ds (hf.mono (hn rfl))
  | true =>
    have hclose : Separated (')' :: ds) := separated_cons (by decide) ds
    have hb := h _ (hclose.follows _)
    simpa [Bit.grouped] using hb

theorem Expr.ApartFrom.operand (h : e.ApartFrom care) (m : Nat) (hs : Separated ds) :
    Apart care (Bit.grouped (e.precedence < m) e.bits) ds ↔
      (care = true → e.legible = true) := by
  have hp := hs.head_ne_point
  rw [h.grouped (m := m) (by simp) (hs.follows m)]
  simp [hp]

/-- Two operands, with an operator and spaces between them. -/
theorem Expr.ApartFrom.around {left right : Expr} {symbol : Piece} (hl : left.ApartFrom care)
    (hr : right.ApartFrom care)
    (hsymbol : ∀ bits, Apart care (piece symbol :: gap :: bits) ds ↔ Apart care bits ds)
    (m n : Nat) (hs : Separated ds) :
    Apart care (Bit.grouped (left.precedence < m) left.bits ++ gap :: piece symbol :: gap ::
      Bit.grouped (right.precedence < n) right.bits) ds ↔
      (care = true → (left.legible && right.legible) = true) := by
  have hleft := hl.operand m (separated_cons (c := ' ') (by decide) (symbol.raw.toList ++ ' ' ::
    (Bit.text (Bit.grouped (right.precedence < n) right.bits) ++ ds)))
  simp [hsymbol, hleft, hr.operand n hs, imp_and]

theorem Expr.ApartFrom.callee (h : e.ApartFrom care) (hf : Follows Precedence.call ds) :
    Apart care (Bit.grouped (needsGroupAsCallee e) e.bits) ds ↔
      (care = true → e.legible = true ∧ (e.isWholeNumber = true → ds.head? ≠ some '.')) := by
  have hn : needsGroupAsCallee e = false → Precedence.call ≤ e.precedence := by
    cases e <;> simp [needsGroupAsCallee]
  have hw : e.isWholeNumber = true → needsGroupAsCallee e = false := by
    intro hw
    cases e with
    | literal => rfl
    | _ => cases hw
  rw [h.grouped hn hf]
  grind

theorem apart_list {es : List Expr}
    (h : ∀ e ∈ es, ∀ ds, Separated ds →
      (Apart care e.itemBits ds ↔ (care = true → e.legible = true))) (hs : Separated ds) :
    Apart care (Bit.joined ',' (bitsOfList es)) ds ↔ (care = true → legibleList es = true) := by
  rw [bitsOfList_eq, apart_joined (by decide) h hs, legibleList_iff]

theorem apart_params {ps : List Param}
    (h : ∀ p ∈ ps, ∀ ds, Separated ds →
      (Apart care p.bits ds ↔ (care = true → p.legible = true))) (hs : Separated ds) :
    Apart care (Bit.joined ',' (bitsOfParams ps)) ds ↔
      (care = true → legibleParams ps = true) := by
  rw [bitsOfParams_eq, apart_joined (by decide) h hs, legibleParams_iff]

end

/-- What follows `=>` begins with a brace only for a block, unless the body reads as one. -/
theorem Body.readsAsBlock_iff {g : Grammar} {full : Bool} (body : Body) (h : body.Printable g full)
    (ds : List Char) : ((Bit.text body.bits ++ ds).head? = some '\x7b' → body.isBlock = true) ↔
      body.readsAsBlock = false := by
  cases body with
  | block statements =>
    cases statements <;> simp [Body.isBlock, Body.readsAsBlock, Body.bits]
  | expression value =>
    obtain ⟨p, rest, hp, ⟨c, cs, hc, -⟩, -, -⟩ := (value.opens h).grouped
      ((Body.expression value).isObject || decide (value.precedence < Precedence.assignment))
    have ht : Bit.text (Body.expression value).bits = c :: (cs ++ Bit.text rest) := by
      rw [Body.bits, hp, Bit.text_piece, hc, List.cons_append]
    have hw : (Body.expression value).written.toList = c :: (cs ++ Bit.text rest) := by
      rw [← Body.text_bits, ht]
    rw [ht, Body.readsAsBlock, hw]
    simp [Body.isBlock]

section
variable {g : Grammar} {full care : Bool}

mutual

theorem Expr.apart : ∀ e : Expr, e.Printable g full → e.ApartFrom care
  | .identifier id, _ => .of_legible rfl fun ds hf => by
    have hn : NoName (Bit.text [] ++ ds) := hf.noName
    simp [Expr.bits, apart_word hn, Expr.legible]
  | .literal value raw _, h => fun ds hf => by
    have hn : NoName (Bit.text [] ++ ds) := hf.noName
    cases value with
    | null | boolean =>
      simp [Expr.bits, Piece.literal, apart_keyword hn, Expr.legible, Expr.isWholeNumber]
    | number value =>
      have hj : (Piece.literal (.number value) raw).Joins ds := hf.noName
      have hc : (Piece.literal (.number value) raw).Clear ds ↔
          (raw.toList.all isDigit = true → ds.head? ≠ some '.') := Iff.rfl
      simp [Expr.bits, apart_piece, hj, hc, Expr.legible, Expr.isWholeNumber]
    | text value =>
      have hj : (Piece.literal (.text value) raw).Joins ds := trivial
      have hc : (Piece.literal (.text value) raw).Clear ds := trivial
      simp [Expr.bits, apart_piece, hj, hc, Expr.legible, Expr.isWholeNumber]
  | .this _, _ => .of_legible rfl fun ds hf => by
    have hn : NoName (Bit.text [] ++ ds) := hf.noName
    simp [Expr.bits, apart_keyword hn, Expr.legible]
  | .array elements _, h => .of_legible rfl fun ds hf => by
    have hs : Separated (']' :: ds) := separated_cons (by decide) ds
    simp [Expr.bits, apart_list (apart_items elements h) hs, Expr.legible]
  | .object properties _, h => .of_legible rfl fun ds hf => by
    have hs : Separated ('\x7d' :: ds) := separated_cons (by decide) ds
    have hp := apart_joined (c := ',') (by decide) (apart_properties properties h) hs
    rw [← bitsOfProperties_eq, ← legibleProperties_iff] at hp
    simp [Expr.bits, hp, Expr.legible]
  | .member o p computed optional _, h => .of_legible rfl fun ds hf => by
    cases computed with
    | true =>
      have hs : Separated (']' :: ds) := separated_cons (by decide) ds
      have hp := Expr.apart p h.2 _ (hs.follows _)
      cases optional with
      | false =>
        have ho := (Expr.apart o h.1).callee (follows_link (c := '[') (by decide)
          (Bit.text p.bits ++ ']' :: ds))
        simp [Expr.bits, ho, hp, Expr.legible, imp_and]
      | true =>
        have ho := (Expr.apart o h.1).callee (follows_link (c := '?') (by decide)
          ('.' :: '[' :: (Bit.text p.bits ++ ']' :: ds)))
        have hq : ∀ bits, Apart care (piece (.operator "?.") :: mark '[' :: bits) ds ↔
            Apart care (mark '[' :: bits) ds := fun _ => apart_optional_mark (by decide)
        simp [Expr.bits, hq, ho, hp, Expr.legible, imp_and]
    | false =>
      obtain ⟨id, rfl, hw⟩ := IsName.identifier h.2
      have hn : NoName (Bit.text [] ++ ds) := hf.noName
      have hd := hw.first_not_digit ds
      cases optional with
      | false =>
        have ho := (Expr.apart o h.1).callee (follows_link (c := '.') (by decide)
          (id.written.toList ++ ds))
        have hp : Apart care [mark '.', piece (.word id.written)] ds :=
          (apart_point hd).2 ((apart_word hn).2 trivial)
        simp [Expr.bits, hp, ho, Expr.legible, imp_and]
      | true =>
        have ho := (Expr.apart o h.1).callee (follows_link (c := '?') (by decide)
          ('.' :: (id.written.toList ++ ds)))
        have hp : Apart care [piece (.operator "?."), piece (.word id.written)] ds :=
          (apart_optional hd).2 ((apart_word hn).2 trivial)
        simp [Expr.bits, hp, ho, Expr.legible]
  | .call callee arguments optional _, h => .of_legible rfl fun ds hf => by
    have hs : Separated (')' :: ds) := separated_cons (by decide) ds
    have ha := apart_list (apart_items arguments h.2) hs
    cases optional with
    | false =>
      have hc := (Expr.apart callee h.1).callee (follows_link (c := '(') (by decide)
        (Bit.text (Bit.joined ',' (bitsOfList arguments)) ++ ')' :: ds))
      simp [Expr.bits, ha, hc, Expr.legible, imp_and]
    | true =>
      have hc := (Expr.apart callee h.1).callee (follows_link (c := '?') (by decide)
        ('.' :: '(' :: (Bit.text (Bit.joined ',' (bitsOfList arguments)) ++ ')' :: ds)))
      have ho : ∀ bits, Apart care (piece (.operator "?.") :: mark '(' :: bits) ds ↔
          Apart care (mark '(' :: bits) ds := fun _ => apart_optional_mark (by decide)
      simp [Expr.bits, ho, ha, hc, Expr.legible, imp_and]
  | .unary op argument _, h => .of_legible rfl fun ds hf => by
    have hs : Separated ds := hf.separated (m := Precedence.unary) (by decide)
    have ha := (Expr.apart argument h.2).operand Precedence.unary hs
    have hsymbol : ∀ bits, Apart care (piece (.symbol op) :: gap :: bits) ds ↔
        Apart care bits ds := fun _ => apart_symbol_gap (isSymbol_unary h.1)
    have ht := Bit.text_grouped _ (argument.precedence < Precedence.unary) argument.text_bits
    obtain ⟨p, rest, hp, ⟨c, cs, hc, hne⟩, -, -⟩ :=
      (argument.opens h.2).grouped (argument.precedence < Precedence.unary)
    simp only [Expr.bits]
    split
    · simp [hsymbol, ha, Expr.legible]
    · next hw =>
      have hw : wantsSpace op (grouped (argument.precedence < Precedence.unary)
          argument.written) = false := by simpa using hw
      have hfirst : (grouped (argument.precedence < Precedence.unary) argument.written).toList =
          c :: (cs ++ Bit.text rest) := by
        rw [← ht, hp, Bit.text_piece, hc, List.cons_append]
      have hu : Apart care (piece (.symbol op) ::
          Bit.grouped (argument.precedence < Precedence.unary) argument.bits) ds ↔
          Apart care (Bit.grouped (argument.precedence < Precedence.unary) argument.bits) ds :=
        apart_unary (unary_of_not_wantsSpace h.1 hw) hw hfirst hne ht
      simp [hu, ha, Expr.legible]
  | .update op leading argument _, h => .of_legible rfl fun ds hf => by
    have ha : argument.ApartFrom care := Expr.apart argument h.2.2
    cases leading with
    | true =>
      have hs : Separated ds := hf.separated (m := Precedence.unary) (by decide)
      simp [Expr.bits, apart_update h.1, ha.operand Precedence.unary hs, Expr.legible]
    | false =>
      have table : ∀ op ∈ Operator.update, ∃ c cs, op.toList = c :: cs ∧ c ∈ linkStarts ∧
          c ≠ '.' := by
        intro op ho
        obtain rfl | rfl : op = "++" ∨ op = "--" := by simpa [Operator.update] using ho
        · exact ⟨'+', ['+'], rfl, by decide, by decide⟩
        · exact ⟨'-', ['-'], rfl, by decide, by decide⟩
      obtain ⟨c, cs, hop, hl, hp⟩ := table op h.1
      have hn : decide (argument.precedence < Precedence.call) = false →
          Precedence.call ≤ argument.precedence := by simp
      have hg := ha.grouped hn (follows_link hl (cs ++ ds))
      simp [Expr.bits, apart_update h.1, hop, hg, hp, Expr.legible]
  | .binary op left right _, h => .of_legible rfl fun ds hf => by
    have hs : Separated ds := hf.separated (m := Precedence.ofBinary op) (ofBinary_lt h.1)
    rw [Expr.bits, Expr.legible]
    exact (Expr.apart left h.2.1).around (Expr.apart right h.2.2)
      (fun _ => apart_symbol_gap (isSymbol_binary h.1)) _ _ hs
  | .logical op left right _, h => .of_legible rfl fun ds hf => by
    have hs : Separated ds := hf.separated (m := Precedence.ofBinary op) (ofBinary_lt (.inr h.1))
    rw [Expr.bits, Expr.legible]
    exact (Expr.apart left h.2.1).around (Expr.apart right h.2.2)
      (fun _ => apart_symbol_gap (isSymbol_binary (.inr h.1))) _ _ hs
  | .conditional test consequent alternate _, h => .of_legible rfl fun ds hf => by
    have hs : Separated ds := hf.separated (m := Precedence.conditional) (by decide)
    have space : ∀ cs, Separated (' ' :: cs) := separated_cons (by decide)
    have htest : test.ApartFrom care := Expr.apart test h.1
    have hthen : consequent.ApartFrom care := Expr.apart consequent h.2.1
    have ht := htest.operand (Precedence.conditional + 1) (space ('?' :: ' ' :: (Bit.text
      (Bit.grouped (consequent.precedence < Precedence.assignment) consequent.bits) ++
        ' ' :: ':' :: ' ' :: (Bit.text
          (Bit.grouped (alternate.precedence < Precedence.assignment) alternate.bits) ++ ds))))
    have hc := hthen.operand Precedence.assignment (space (':' :: ' ' :: (Bit.text
      (Bit.grouped (alternate.precedence < Precedence.assignment) alternate.bits) ++ ds)))
    have ha := (Expr.apart alternate h.2.2).operand Precedence.assignment hs
    simp only [Expr.bits, Nat.lt_add_one_iff] at ht ⊢
    simp [apart_operator_gap isOperator_question, ht, hc, ha, Expr.legible, imp_and, and_assoc]
  | .assignment op left right _, h => .of_legible rfl fun ds hf => by
    have hs : Separated ds := hf.separated (m := Precedence.assignment) (by decide)
    rw [Expr.bits, Expr.legible]
    exact (Expr.apart left h.2.2.1).around (Expr.apart right h.2.2.2)
      (fun _ => apart_operator_gap (isOperator_assignment h.1)) _ _ hs
  | .sequence expressions _, h => .of_legible rfl fun ds hf => by
    have hs : Separated ds := hf.separated (m := Precedence.sequence) (by decide)
    simp [Expr.bits, apart_list (apart_items expressions h.2) hs, Expr.legible]
  | .arrow ⟨_, params, body, _⟩, h => .of_legible rfl fun ds hf => by
    have hs : Separated ds := hf.separated (m := Precedence.assignment) (by decide)
    have hclose : Separated (')' :: ' ' :: '=' :: '>' :: ' ' :: (Bit.text body.bits ++ ds)) :=
      separated_cons (by decide) _
    have hp := apart_params (apart_paramItems params h.2.2.2.1) hclose
    have hb := Body.apart body h.2.2.2.2 ds (.inr hs)
    have harrow : Apart care (piece (.arrow body.isBlock) :: gap :: body.bits) ds ↔
        (care = true → body.readsAsBlock = false) ∧ (care = true → body.legible = true) := by
      rw [apart_arrow_gap, body.readsAsBlock_iff h.2.2.2.2 ds, hb]
    simp [Expr.bits, harrow, hp, Expr.legible, imp_and, and_assoc, and_comm]
  | .function f, h => .of_legible rfl fun ds hf => by
    simp [Expr.bits, Lambda.apart f h.2.2 h.2.1 ds, Expr.legible]

theorem apart_items : ∀ es : List Expr, PrintableList g full es → ∀ e ∈ es, ∀ ds,
    Separated ds → (Apart care e.itemBits ds ↔ (care = true → e.legible = true))
  | [], _ => fun _ he => nomatch he
  | e :: es, h => by
    intro x hx ds hs
    cases hx with
    | head => exact (Expr.apart e h.1).operand _ hs
    | tail _ hx => exact apart_items es h.2 x hx ds hs

theorem Property.apart : ∀ p : Property, p.Printable g full → ∀ ds, Separated ds →
    (Apart care p.bits ds ↔ (care = true → p.legible = true))
  | ⟨key, value, computed, shorthand, _⟩, h => fun ds hs => by
    cases shorthand with
    | true =>
      obtain ⟨id, id', rfl, rfl, -, -⟩ := IsShorthand.identifiers h.2
      have hn : NoName (Bit.text [] ++ ds) := hs.noName
      simp [Property.bits, Expr.bits, apart_word hn, Property.legible, Expr.legible]
    | false =>
      have hv := (Expr.apart value h.2).operand Precedence.assignment hs
      cases computed with
      | true =>
        have hkey : key.ApartFrom care := Expr.apart key h.1
        have hk := hkey.operand Precedence.assignment (separated_cons (c := ']') (by decide)
          (':' :: ' ' :: (Bit.text
            (Bit.grouped (value.precedence < Precedence.assignment) value.bits) ++ ds)))
        simp [Property.bits, hk, hv, Property.legible, imp_and]
      | false =>
        obtain ⟨hl, hk⟩ := @IsKey.apart g care key h.1 (' ' :: (Bit.text
          (Bit.grouped (value.precedence < Precedence.assignment) value.bits) ++ ds))
        simp [Property.bits, hk, hl, hv, Property.legible]

theorem apart_properties : ∀ ps : List Property, PrintableProperties g full ps → ∀ p ∈ ps, ∀ ds,
    Separated ds → (Apart care p.bits ds ↔ (care = true → p.legible = true))
  | [], _ => fun _ hp => nomatch hp
  | p :: ps, h => by
    intro x hx ds hs
    cases hx with
    | head => exact Property.apart p h.1 ds hs
    | tail _ hx => exact apart_properties ps h.2 x hx ds hs

theorem Lambda.apart : ∀ f : Lambda, f.Printable g full → f.body.isBlock = true → ∀ ds,
    (Apart care f.bits ds ↔ (care = true → f.legible = true))
  | ⟨id, params, body, _⟩, h => fun hb ds => by
    have hclose : Separated (')' :: ' ' :: (Bit.text body.bits ++ ds)) :=
      separated_cons (by decide) _
    have hp := apart_params (apart_paramItems params h.2.1) hclose
    have hbody := Body.apart body h.2.2 ds (.inl hb)
    cases id <;>
      simp [Lambda.bits, apart_keyword_gap, apart_word_mark isNamePart_open,
        apart_keyword_mark isNamePart_open, hp, hbody, Lambda.legible, imp_and]

theorem Param.apart : ∀ p : Param, p.Printable g full → ∀ ds, Separated ds →
    (Apart care p.bits ds ↔ (care = true → p.legible = true))
  | .plain id, _ => fun ds hs => by
    have hn : NoName (Bit.text [] ++ ds) := hs.noName
    simp [Param.bits, apart_word hn, Param.legible]
  | .withDefault id value _, h => fun ds hs => by
    have hv := (Expr.apart value h.2).operand Precedence.assignment hs
    have ho : "=" ∈ Operator.assignment := by decide
    simp [Param.bits, apart_word_gap, apart_operator_gap (isOperator_assignment ho), hv,
      Param.legible]

theorem apart_paramItems : ∀ ps : List Param, PrintableParams g full ps → ∀ p ∈ ps, ∀ ds,
    Separated ds → (Apart care p.bits ds ↔ (care = true → p.legible = true))
  | [], _ => fun _ hp => nomatch hp
  | p :: ps, h => by
    intro x hx ds hs
    cases hx with
    | head => exact Param.apart p h.1 ds hs
    | tail _ hx => exact apart_paramItems ps h.2 x hx ds hs

theorem Body.apart : ∀ b : Body, b.Printable g full → ∀ ds, b.isBlock = true ∨ Separated ds →
    (Apart care b.bits ds ↔ (care = true → b.legible = true))
  | .expression value, h => fun ds hs => by
    have hs : Separated ds := hs.resolve_left (by simp [Body.isBlock])
    have hn : ((Body.expression value).isObject ||
        decide (value.precedence < Precedence.assignment)) = false →
          Precedence.assignment ≤ value.precedence := by simp
    have hp := hs.head_ne_point
    rw [Body.bits, (Expr.apart value h).grouped hn (hs.follows _)]
    simp [hp, Body.legible]
  | .block [] _, _ => fun ds _ => by
    simp [Body.bits, Body.legible, legibleStatements]
  | .block (s :: ss) _, h => fun ds _ => by
    have hs : Separated (' ' :: '\x7d' :: ds) := separated_cons (by decide) _
    have hss := apart_joined (c := ';') (by decide) (apart_statements (s :: ss) h) hs
    rw [← bitsOfStatements_eq, ← legibleStatements_iff, bitsOfStatements] at hss
    simp [Body.bits, hss, Body.legible]

theorem Statement.apart {inBody : Bool} : ∀ s : Statement, s.Printable g full inBody → ∀ ds,
    Separated ds → (Apart care s.bits ds ↔ (care = true → s.legible = true))
  | .expression value _, h => fun ds hs => by
    have hp := hs.head_ne_point
    rw [Statement.bits, (Expr.apart value h).grouped (fun _ => Nat.zero_le _) (hs.follows _)]
    simp [hp, Statement.legible]
  | .return none _, _ => fun ds hs => by
    have hn : NoName (Bit.text [] ++ ds) := hs.noName
    simp [Statement.bits, apart_keyword hn, Statement.legible]
  | .return (some argument) _, h => fun ds hs => by
    have hp := hs.head_ne_point
    have ha := Expr.apart argument h.2 ds (hs.follows _)
    simp [Statement.bits, apart_keyword_gap, ha, hp, Statement.legible]
  | .declaration f, h => fun ds _ => Lambda.apart f h.2.2.2 h.2.2.1 ds

theorem apart_statements {inBody : Bool} : ∀ ss : List Statement,
    PrintableStatements g full inBody ss → ∀ s ∈ ss, ∀ ds, Separated ds →
      (Apart care s.bits ds ↔ (care = true → s.legible = true))
  | [], _ => fun _ hs => nomatch hs
  | s :: ss, h => by
    intro x hx ds hs
    cases hx with
    | head => exact Statement.apart s h.1 ds hs
    | tail _ hx => exact apart_statements ss h.2 x hx ds hs

end

end

end TemplateExpr
