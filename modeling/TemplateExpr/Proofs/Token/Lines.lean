/-
  A lexeme that is no text literal stands on one line: it is read the same where a line ends
  behind it as where the text does, be it a fault or not. So nothing of the following lines has
  a part in it, their ends included.

  * `Number.read_append_lineEnd`: numbers.
  * `Symbol.operatorAt?_append_lineEnd`: operators.
  * `Lexeme.read_append_lineEnd`: any lexeme that does not begin with a quote.
-/
import Mathlib.Data.List.Find
import TemplateExpr.Proofs.Token.Spelling

namespace TemplateExpr
open Text

section
variable {cs ds : List Char}

/-- The line ends here, with a line feed, with a carriage return, or with the text. -/
abbrev Text.LineEnd (ds : List Char) : Prop :=
  ∀ c ∈ ds.head?, c = '\n' ∨ c = '\r'

theorem Text.LineEnd.noName (h : LineEnd ds) : NoName ds := by
  cases ds with
  | nil => rfl
  | cons d ds =>
    rw [NoName, List.head?_cons, Option.any_some]
    obtain rfl | rfl := h d rfl <;> exact (isNamePart_ascii (by decide)).trans (by decide)

theorem Text.LineEnd.head?_ne (h : LineEnd ds) {c : Char} (hc : c ≠ '\n' ∧ c ≠ '\r') :
    ds.head? ≠ some c :=
  fun hd => (h c hd).elim hc.1 hc.2

end

/-! ## Numbers -/

namespace Number
variable {cs ds : List Char}

theorem exponentMarkLength_append_lineEnd (h : LineEnd ds) :
    exponentMarkLength (cs ++ ds) = exponentMarkLength cs := by
  match cs with
  | [] =>
    refine exponentMarkLength_append h.noName fun hm => ?_
    cases hm rfl
  | [c] =>
    cases ds with
    | nil => rfl
    | cons d ds =>
      have hsign : ¬(d = '+' ∨ d = '-') := by
        rintro (rfl | rfl) <;> exact h.head?_ne (by decide) rfl
      simp only [exponentMarkLength, List.singleton_append, if_neg hsign]
  | c :: d :: cs => rfl

theorem Layout.ofText_append_lineEnd (h : LineEnd ds) : ofText (cs ++ ds) = ofText cs :=
  ofText_append_of_mark h.noName (fun _ => h.head?_ne (by decide))
    (exponentMarkLength_append_lineEnd h)

theorem read_append_lineEnd (hc : cs ≠ []) (h : LineEnd ds) : read (cs ++ ds) = read cs :=
  read_append_of_decimal hc h.noName fun _ =>
    readDecimal_append_of_layout h.noName (Layout.ofText_append_lineEnd h)

end Number

/-! ## Operators -/

namespace Symbol
variable {cs ds : List Char}

/-- An operator goes over no line end. -/
theorem prefix_append_lineEnd (h : LineEnd ds) {op : String} (ho : op ∈ operators) :
    op.toList <+: cs ++ ds ↔ op.toList <+: cs := by
  have table : ∀ op ∈ operators, '\n' ∉ op.toList ∧ '\r' ∉ op.toList := by decide
  refine ⟨fun hp => ?_, fun hp => hp.trans (List.prefix_append _ _)⟩
  obtain hshort | ⟨more, hmore⟩ := List.prefix_or_prefix_of_prefix hp (List.prefix_append cs ds)
  · exact hshort
  · rw [← hmore, List.prefix_append_right_inj] at hp
    cases more with
    | nil => exact (hmore.symm.trans (List.append_nil cs)) ▸ List.prefix_rfl
    | cons c more =>
      obtain ⟨others, rfl⟩ := hp
      have hc : c ∈ op.toList := hmore ▸ List.mem_append_right _ List.mem_cons_self
      obtain rfl | rfl := h c rfl
      · exact absurd hc (table op ho).1
      · exact absurd hc (table op ho).2

theorem operatorAt?_append_lineEnd (h : LineEnd ds) : operatorAt? (cs ++ ds) = operatorAt? cs := by
  have hdigit : ds.head?.any isDigit = false :=
    any_eq_false_of_noName h.noName fun _ => isNamePart_of_isDigit
  have hfind : operators.find? (fun op => op.toList.isPrefixOf (cs ++ ds)) =
      operators.find? fun op => op.toList.isPrefixOf cs := by
    refine List.find?_congr fun op ho => ?_
    rw [Bool.eq_iff_iff, List.isPrefixOf_iff_prefix, List.isPrefixOf_iff_prefix]
    exact prefix_append_lineEnd h ho
  rw [operatorAt?, operatorAt?, hfind]
  cases hf : operators.find? fun op => op.toList.isPrefixOf cs with
  | none => rfl
  | some op =>
    rw [Option.map_some, Option.map_some]
    by_cases hq : op = "?."
    · have hp : op.toList <+: cs := List.isPrefixOf_iff_prefix.1 (by simpa using List.find?_some hf)
      have hle : 2 ≤ cs.length := by
        rw [hq] at hp
        exact hp.length_le
      rw [any_head?_drop_append hdigit hle]
    · rw [if_neg fun hd => hq hd.1, if_neg fun hd => hq hd.1]

end Symbol

/-! ## Any lexeme -/

namespace Lexeme
variable {g : Grammar} {c : Char} {cs ds : List Char}

/-- A lexeme that does not begin with a quote is settled by the line that it begins on. -/
theorem read_append_lineEnd (hc : (c == '\'' || c == '"') = false) (h : LineEnd ds) :
    read g c (cs ++ ds) = read g c cs := by
  have hbegins := beginsNumber_append_of_noName h.noName c cs
  have hstart := start_read g c cs
  generalize read g c cs = found at hstart ⊢
  cases hstart with
  | sigil hs => rw [(Start.sigil hs).read_eq, readSigil_append h.noName]
  | word hs hn => rw [(Start.word hs hn).read_eq, readWord_append h.noName]
  | number hs hn hd =>
    rw [(Start.number hs hn (hbegins.trans hd)).read_eq, ← List.cons_append,
      Number.read_append_lineEnd (List.cons_ne_nil c cs) h]
  | mark hs hn hd hm => exact (Start.mark hs hn (hbegins.trans hd) hm).read_eq
  | literal hs hn hd hm hq => rw [hc] at hq; cases hq
  | operator hs hn hd hm hq =>
    rw [(Start.operator hs hn (hbegins.trans hd) hm hq).read_eq, readOperator, readOperator,
      ← List.cons_append, Symbol.operatorAt?_append_lineEnd h]

end Lexeme

end TemplateExpr
