/-
  The ways to write a text literal. A character stands for itself, or a backslash comes first: then
  a letter for a control character, the character itself, or its number in base sixteen. Each way
  has an end of its own, so any of them can follow any other.

  * `Literal.readBody_encodes`: one character of a literal, in front of any text.
  * `Literal.readBody_forall₂`: all of them, up to the closing quote.
  * `Token.ofText_enclosed`: a text between two quotes is one token, whatever way each of its
    characters is written.
-/
import Mathlib.Data.List.Forall2
import Mathlib.Data.List.TakeWhile
import TemplateExpr.Proofs.Token.LineEnds

namespace TemplateExpr
open Source Text

namespace Literal

/-! ## Ways to write a character -/

/-- The characters that a letter or digit behind a backslash stands for. -/
def controls : List (Char × Char) :=
  [('\n', 'n'), ('\r', 'r'), ('\t', 't'), ('\x08', 'b'), ('\x0c', 'f'), ('\x0b', 'v'),
    ('\x00', '0')]

/-- The characters that do not stand for themselves behind a backslash. -/
def letters : List Char :=
  ['n', 'r', 't', 'b', 'f', 'v', '0', 'u', 'x']

/-- The number of the character in base sixteen, with `width` digits in either case. -/
structure Numeral (width : Nat) (c : Char) (digits : List Char) : Prop where
  length : digits.length = width
  hex : ∀ d ∈ digits, isHexDigit d = true
  value : digitsValue 16 digits = c.toNat

/-- What may stand for a character in a literal between two of the quotes. -/
inductive Encodes (quote : Char) (c : Char) : List Char → Prop
  | plain : c ≠ quote → c ≠ '\\' → isNewline c = false → Encodes quote c [c]
  | control {letter} : (c, letter) ∈ controls → Encodes quote c ['\\', letter]
  | itself : c ∉ letters → Encodes quote c ['\\', c]
  | byte {digits} : Numeral 2 c digits → Encodes quote c ('\\' :: 'x' :: digits)
  | unit {digits} : Numeral 4 c digits → Encodes quote c ('\\' :: 'u' :: digits)

/-! ## Reading one character -/

variable {quote c : Char} {digits part seen : List Char} {width : Nat}

theorem hexDigits_append (hl : digits.length = width) (hd : ∀ d ∈ digits, isHexDigit d = true)
    (cs : List Char) : hexDigits width (digits ++ cs) = digits := by
  rw [hexDigits, List.take_left' hl, List.takeWhile_eq_self_iff.2 hd]

theorem charOfNat?_toNat (c : Char) : charOfNat? c.toNat = some c := by
  exact (if_pos c.valid).trans (congrArg some (Char.ofNat_toNat c))

/-- The digits of a character give it back, also in front of more digits. -/
theorem Numeral.hexChar? (h : Numeral width c digits) (cs : List Char) :
    hexChar? width (digits ++ cs) = some c := by
  rw [Literal.hexChar?, hexDigits_append h.length h.hex]
  exact (if_pos h.length).trans (h.value ▸ charOfNat?_toNat c)

theorem escape_of_control {letter : Char} (h : (c, letter) ∈ controls) (cs : List Char) :
    escape (letter :: cs) = .char c 1 := by
  have table : ∀ p ∈ controls, p.2 ≠ 'u' ∧ p.2 ≠ 'x' ∧ escaped p.2 = p.1 := by decide
  obtain ⟨hu, hx, he⟩ := table _ h
  rw [escape_of_ne hu hx, he]

theorem escaped_of_not_mem (h : c ∉ letters) : escaped c = c := by
  unfold escaped
  split <;> first | rfl | exact absurd (by decide) h

theorem escape_of_not_mem (h : c ∉ letters) (cs : List Char) : escape (c :: cs) = .char c 1 := by
  have hne : ∀ letter ∈ letters, c ≠ letter := fun _ hm hc => h (hc ▸ hm)
  rw [escape_of_ne (hne 'u' (by decide)) (hne 'x' (by decide)), escaped_of_not_mem h]

/-- A backslash and what stands behind it are one character. -/
theorem readBody_escape (hq : '\\' ≠ quote) {cs : List Char}
    (h : escape (part ++ cs) = .char c part.length) :
    readBody quote seen ('\\' :: part ++ cs) =
      ((readBody quote (c :: seen) cs).1,
        ('\\' :: part).length + (readBody quote (c :: seen) cs).2) := by
  rw [List.cons_append, readBody, if_neg hq, if_neg (by decide), if_pos rfl, h]
  simp only [List.drop_left, List.length_cons, Nat.add_comm 1]

/-- A character is read from each way to write it, whatever follows. -/
theorem readBody_encodes (hq : '\\' ≠ quote) (h : Encodes quote c part) (cs : List Char) :
    readBody quote seen (part ++ cs) =
      ((readBody quote (c :: seen) cs).1,
        part.length + (readBody quote (c :: seen) cs).2) := by
  cases h with
  | plain hc hb hn =>
    rw [List.singleton_append, readBody, if_neg hc, if_neg (by simp [hn]), if_neg hb]
    rfl
  | control hm => exact readBody_escape hq (escape_of_control hm cs)
  | itself hm => exact readBody_escape hq (escape_of_not_mem hm cs)
  | byte hd =>
    refine readBody_escape hq ?_
    rw [List.cons_append, escape, hd.hexChar?, List.length_cons, hd.length]
  | unit hd =>
    refine readBody_escape hq ?_
    rw [List.cons_append, escape, hd.hexChar?, List.length_cons, hd.length]

/-! ## Reading a literal -/

/-- The characters of a literal are read one by one, and then the quote that ends it. -/
theorem readBody_forall₂ (hq : '\\' ≠ quote) {value : List Char} {parts : List (List Char)}
    (h : List.Forall₂ (Encodes quote) value parts) (seen cs : List Char) :
    readBody quote seen (parts.flatten ++ quote :: cs) =
      (.text (String.ofList (seen.reverse ++ value)), parts.flatten.length + 1) := by
  induction h generalizing seen with
  | nil => rw [List.flatten_nil, List.nil_append, readBody, if_pos rfl, List.append_nil]; rfl
  | @cons c part value parts hc _ ih =>
    rw [List.flatten_cons, List.append_assoc, readBody_encodes hq hc, ih, List.reverse_cons,
      List.append_assoc, List.singleton_append, List.length_append, Nat.add_assoc]

end Literal

/-- A text between two quotes. -/
def Literal.enclosed (quote : Char) (inner : List Char) : List Char :=
  quote :: (inner ++ [quote])

/-- A literal is one token, and it denotes the characters that its parts stand for. -/
theorem Token.ofText_enclosed (g : Grammar) {quote : Char} (hq : quote = '\'' ∨ quote = '"')
    {value : String} {parts : List (List Char)}
    (h : List.Forall₂ (Literal.Encodes quote) value.toList parts) :
    ofText g (Literal.enclosed quote parts.flatten) =
      [⟨.text value, String.ofList (Literal.enclosed quote parts.flatten), false,
        ⟨Place.origin, Place.endOf (Literal.enclosed quote parts.flatten)⟩⟩] := by
  have hback : '\\' ≠ quote := by obtain rfl | rfl := hq <;> decide
  have hbegins : Trivia.begins (Literal.enclosed quote parts.flatten) = false := by
    obtain rfl | rfl := hq <;> rfl
  have hread : Lexeme.read g quote (parts.flatten ++ [quote]) =
      (.text value, (parts.flatten ++ [quote]).length) := by
    rw [Lexeme.read_of_quote (by simpa using hq), Literal.read, Literal.readBody_forall₂ hback h,
      List.reverse_nil, List.nil_append, String.ofList_toList, List.length_append]
    rfl
  have halone :
      (Lexeme.text value).Alone g (String.ofList (Literal.enclosed quote parts.flatten)) :=
    ⟨quote, parts.flatten ++ [quote], String.toList_ofList, hbegins, hread⟩
  have htokens := ofText_of_alone halone
  rwa [String.toList_ofList] at htokens

/-- A digit behind two digits of base sixteen, a zero, and a quote behind a backslash. -/
theorem Token.ofText_enclosed_escapes :
    ('\'' = '\'' ∨ '\'' = '"') ∧
    List.Forall₂ (Literal.Encodes '\'') "A1\x00\n\"'é".toList
      ["\\x41".toList, ['1'], "\\0".toList, "\\n".toList, ['"'], "\\'".toList,
        "\\u00E9".toList] ∧
    ofText .template "'\\x411\\0\\n\"\\'\\u00E9'".toList =
      [⟨.text "A1\x00\n\"'é", "'\\x411\\0\\n\"\\'\\u00E9'", false,
        ⟨Place.origin, ⟨20, 1, 20⟩⟩⟩] := by
  have hbyte : Literal.Numeral 2 'A' ['4', '1'] := ⟨rfl, List.all_eq_true.1 rfl, rfl⟩
  have hunit : Literal.Numeral 4 'é' ['0', '0', 'E', '9'] :=
    ⟨rfl, List.all_eq_true.1 rfl, rfl⟩
  have hparts : List.Forall₂ (Literal.Encodes '\'') "A1\x00\n\"'é".toList
      ["\\x41".toList, ['1'], "\\0".toList, "\\n".toList, ['"'], "\\'".toList,
        "\\u00E9".toList] :=
    .cons (.byte hbyte) <| .cons (.plain (by decide) (by decide) (by decide)) <|
    .cons (.control (by decide)) <| .cons (.control (by decide)) <|
    .cons (.plain (by decide) (by decide) (by decide)) <| .cons (.itself (by decide)) <|
    .cons (.unit hunit) .nil
  exact ⟨.inl rfl, hparts, Token.ofText_enclosed .template (.inl rfl) hparts⟩

end TemplateExpr
