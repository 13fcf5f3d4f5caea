/-
  What the text of an expression begins with.

  * `Expr.opens`: a piece that no operator in front of it reaches into, and that is the reserved
    word of functions only if parameters or a name follow.
-/
import TemplateExpr.Proofs.Printing.Printable

namespace TemplateExpr
open Text
open Bit (gap piece mark)

/-- The bits begin with a piece that an expression can begin with. -/
structure Opening (full : Bool) (p : Piece) (rest : List Bit) : Prop where
  /-- The piece has characters, and `=` is not the first. -/
  first : ∃ c cs, p.raw.toList = c :: cs ∧ c ≠ '='
  /-- A mark is written as itself. -/
  mark : ∀ c, p.lexeme = .mark c → p.raw = String.singleton c
  /-- Only functions begin with their reserved word, which more follows than a name. -/
  function : p.lexeme = .keyword "function" → full = true ∧ p.raw = "function" ∧
    ∃ c more, Bit.text rest = c :: more ∧ isNamePart c = false

def Opens (full : Bool) (bits : List Bit) : Prop :=
  ∃ p rest, bits = piece p :: rest ∧ Opening full p rest

section
variable {g : Grammar} {full : Bool} {bits others : List Bit} {p : Piece}

theorem Opens.append (h : Opens full bits) (others : List Bit) : Opens full (bits ++ others) := by
  obtain ⟨p, rest, rfl, hf, hm, hw⟩ := h
  refine ⟨p, rest ++ others, rfl, hf, hm, fun hp => ?_⟩
  obtain ⟨hfull, hraw, c, more, ht, hc⟩ := hw hp
  refine ⟨hfull, hraw, c, more ++ Bit.text others, ?_, hc⟩
  rw [Bit.text_append, ht, List.cons_append]

/-- Pieces that are no reserved word open whatever follows. -/
theorem opens_piece (hf : ∃ c cs, p.raw.toList = c :: cs ∧ c ≠ '=')
    (hm : ∀ c, p.lexeme = .mark c → p.raw = String.singleton c)
    (hw : p.lexeme ≠ .keyword "function") (rest : List Bit) : Opens full (piece p :: rest) :=
  ⟨p, rest, rfl, hf, hm, fun h => absurd h hw⟩

theorem opens_mark {c : Char} (hc : c ≠ '=') (rest : List Bit) :
    Opens full (mark c :: rest) := by
  refine opens_piece ⟨c, [], by simp [Piece.mark], hc⟩ (fun d hd => ?_) (by simp [Piece.mark]) rest
  obtain rfl := Lexeme.mark.inj hd
  rfl

theorem Opens.grouped (h : Opens full bits) (need : Bool) :
    Opens full (Bit.grouped need bits) := by
  cases need with
  | false => exact h
  | true => exact opens_mark (by decide) _

theorem opens_joined {c : Char} {first : List Bit} {more : List (List Bit)}
    (h : Opens full first) : Opens full (Bit.joined c (first :: more)) := by
  cases more with
  | nil => exact h
  | cons second more => exact h.append _

/-- The first character of a text passes a test. -/
theorem first_of_any {text : String} {test : Char → Bool}
    (h : text.toList.head?.any test = true) :
    ∃ c cs, text.toList = c :: cs ∧ test c = true := by
  cases hl : text.toList with
  | nil =>
    rw [hl] at h
    cases h
  | cons c cs =>
    rw [hl] at h
    exact ⟨c, cs, rfl, h⟩

/-- A single token that is no operator does not begin with `=`. -/
theorem first_of_spelled {lexeme : Lexeme} {raw : String} (h : Spelled g lexeme raw)
    (hf : lexeme.isFault = false) (ho : ∀ op, lexeme ≠ .operator op) :
    ∃ c cs, raw.toList = c :: cs ∧ c ≠ '=' := by
  obtain ⟨c, cs, hraw, -, hread⟩ := h.alone hf
  refine ⟨c, cs, hraw, ?_⟩
  rintro rfl
  have hequals : Lexeme.beginsOperator '=' = true := by
    rw [Lexeme.beginsOperator_ascii (by decide)]
    rfl
  obtain ⟨op, -, hop, -⟩ := Lexeme.operator_of_beginsOperator hequals (by rw [hread]; exact hf)
  rw [hread] at hop
  exact ho op hop

/-- A single token that is a name is no reserved word. -/
theorem word_of_spelled {word : String} (h : Spelled g (.name word) word) :
    Symbol.word word = .name word := by
  have hk : word ∉ Symbol.keywords := (h.alone rfl).known rfl
  obtain ⟨-, hm⟩ | ⟨hw, -⟩ := Lexeme.word_cases word
  · exact absurd hm hk
  · exact hw

theorem opens_name {word : String} (h : Spelled g (.name word) word) (rest : List Bit) :
    Opens full (piece (.word word) :: rest) := by
  have hw : (Piece.word word).lexeme = .name word := word_of_spelled h
  exact opens_piece (first_of_spelled h rfl (by simp)) (by simp [hw]) (by simp [hw]) rest

theorem opens_literal {value : LiteralValue} {raw : String} (h : value.Written g full raw)
    (rest : List Bit) : Opens full (piece (.literal value raw) :: rest) := by
  have words : ∀ word ∈ ["null", "true", "false"], word ≠ "function" ∧
      word.toList.head?.any (· != '=') = true := by decide
  have keyword : ∀ word ∈ ["null", "true", "false"],
      Opens full (piece (.keyword word) :: rest) := by
    intro word hm
    obtain ⟨hne, hfirst⟩ := words word hm
    obtain ⟨c, cs, hcs, hc⟩ := first_of_any hfirst
    exact opens_piece ⟨c, cs, hcs, bne_iff_ne.1 hc⟩ (by simp [Piece.keyword])
      (by simp [Piece.keyword, hne]) rest
  cases value with
  | null => exact h ▸ keyword "null" (by simp)
  | boolean value =>
    cases value with
    | true => exact h ▸ keyword "true" (by simp)
    | false => exact h ▸ keyword "false" (by simp)
  | number value =>
    exact opens_piece (first_of_spelled h.2 rfl (by simp)) (by simp [Piece.literal])
      (by simp [Piece.literal]) rest
  | text value =>
    have h : Spelled g (.text value) raw := h
    exact opens_piece (first_of_spelled h rfl (by simp)) (by simp [Piece.literal])
      (by simp [Piece.literal]) rest

theorem opens_operator {op : String} (ho : op ∈ Operator.update) (rest : List Bit) :
    Opens full (piece (.operator op) :: rest) := by
  have table : ∀ op ∈ Operator.update, op.toList.head?.any (· != '=') = true := by decide
  obtain ⟨c, cs, hcs, hc⟩ := first_of_any (table op ho)
  exact opens_piece ⟨c, cs, hcs, bne_iff_ne.1 hc⟩ (by simp [Piece.operator])
    (by simp [Piece.operator]) rest

theorem opens_symbol {op : String} (ho : op ∈ Operator.unary ∨ op ∈ Operator.unaryWords)
    (rest : List Bit) : Opens full (piece (.symbol op) :: rest) := by
  have table : ∀ op ∈ Operator.unary ++ Operator.unaryWords, op ≠ "function" ∧
      op.toList.head?.any (· != '=') = true := by decide
  obtain ⟨hne, hfirst⟩ := table op (List.mem_append.2 ho)
  obtain ⟨c, cs, hcs, hc⟩ := first_of_any hfirst
  have hl := Piece.lexeme_symbol op
  have hraw : (Piece.symbol op).raw.toList = c :: cs := by rw [Piece.raw_symbol, hcs]
  refine opens_piece ⟨c, cs, hraw, bne_iff_ne.1 hc⟩ (fun d hd => ?_) ?_ rest <;>
    obtain hl | hl := hl <;> simp_all

theorem Lambda.opens (f : Lambda) : Opens true f.bits := by
  obtain ⟨id, params, body, span⟩ := f
  have hf : ∃ c cs, (Piece.keyword "function").raw.toList = c :: cs ∧ c ≠ '=' :=
    ⟨'f', "unction".toList, rfl, by decide⟩
  refine ⟨_, _, rfl, hf, by simp [Piece.keyword], fun _ => ⟨rfl, rfl, ?_⟩⟩
  cases id with
  | none => exact ⟨'(', _, by simp; rfl, isNamePart_open⟩
  | some id => exact ⟨' ', _, by simp; rfl, isNamePart_space⟩

theorem Expr.opens : ∀ e : Expr, e.Printable g full → Opens full e.bits
  | .identifier _, h => opens_name h []
  | .literal _ _ _, h => opens_literal h []
  | .this _, _ => opens_piece ⟨'t', "his".toList, rfl, by decide⟩ (by simp [Piece.keyword])
    (by simp [Piece.keyword]) []
  | .array _ _, _ => opens_mark (by decide) _
  | .object _ _, _ => opens_mark (by decide) _
  | .member o _ computed optional _, h => by
    have ho := (Expr.opens o h.1).grouped (needsGroupAsCallee o)
    cases computed <;> cases optional <;> exact ho.append _
  | .call callee _ _ _, h => ((Expr.opens callee h.1).grouped _).append _
  | .unary _ _ _, h => opens_symbol h.1 _
  | .update _ leading argument _, h => by
    rw [Expr.bits]
    cases leading with
    | true => exact opens_operator h.1 _
    | false => exact ((Expr.opens argument h.2.2).grouped _).append _
  | .binary _ left _ _, h => ((Expr.opens left h.2.1).grouped _).append _
  | .logical _ left _ _, h => ((Expr.opens left h.2.1).grouped _).append _
  | .conditional test _ _ _, h => ((Expr.opens test h.1).grouped _).append _
  | .assignment _ left _ _, h => ((Expr.opens left h.2.2.1).grouped _).append _
  | .sequence [] _, h => absurd h.1 (by simp)
  | .sequence (e :: _) _, h => opens_joined ((Expr.opens e h.2.1).grouped _)
  | .arrow ⟨_, _, _, _⟩, _ => opens_mark (by decide) _
  | .function f, h => by
    have hf := f.opens
    rwa [← h.1] at hf

end

end TemplateExpr
