/-
  Tokens do not depend on their neighbours. Put side by side again, each with one space between it
  and the next, the characters of the tokens of a text are the same tokens.

  Some readers look at the character behind what they take: behind a name, behind the digits of a
  number, behind `?.`. A space settles all of them as the end of the text does.

  * `Lexeme.ends_before_space`: a space ends every lexeme.
  * `Token.map_content_spaced`: lexemes with spaces between them, one by one.
  * `Token.ofText_spaced`: the tokens of a text.
-/
import TemplateExpr.Proofs.Grammar.Faults
import TemplateExpr.Proofs.Token.Tiling
import TemplateExpr.Token.Value

namespace TemplateExpr
open Source Text

namespace Lexeme
variable {g : Grammar} {lexeme : Lexeme} {raw : String} {ds : List Char}

theorem noName_of_space (h : ∀ c ∈ ds.head?, c = ' ') : NoName ds := by
  cases ds with
  | nil => rfl
  | cons d ds =>
    obtain rfl := h d rfl
    rw [NoName, List.head?_cons, Option.any_some]
    exact (isNamePart_ascii (by decide)).trans (by decide)

/-- A lexeme ends where the text does, and in front of a space. -/
theorem ends_before_space (h : lexeme.Alone g raw) (hf : lexeme.isFault = false)
    (hd : ∀ c ∈ ds.head?, c = ' ') : lexeme.Ends raw.toList ds := by
  have hname := noName_of_space hd
  cases lexeme with
  | mark => exact fun _ => any_eq_false_of_noName hname fun _ => isNamePart_of_isDigit
  | name | keyword => exact hname
  | text => trivial
  | operator op =>
    have table : ∀ op ∈ Symbol.operators, Symbol.endsBefore op ' ' = true := by decide
    intro c hc
    rw [hd c hc]
    exact table op (h.known hf)
  | number =>
    refine ⟨hname, fun _ hpoint => ?_⟩
    have hspace := hd '.' hpoint
    cases hspace
  | fault => cases hf

end Lexeme

namespace Token
variable {g : Grammar}

/-- What a token is wherever it stands: its lexeme, the text that it carries, and its number. -/
def content (token : Token) : Lexeme × String × Float :=
  (token.lexeme, token.text, token.value)

/-- The characters of the tokens in the text, with one space between each and the next. -/
def spaced (text : List Char) (tokens : List Token) : List Char :=
  [' '].intercalate (tokens.map (·.span.textIn text))

/-- The characters of tokens with spaces between them are those tokens. -/
theorem map_content_spaced {tokens : List Token}
    (h : ∀ token ∈ tokens, token.lexeme.isFault = false ∧ token.lexeme.Alone g token.raw)
    (cursor : Cursor) :
    (ofTextFrom g cursor ([' '].intercalate (tokens.map (·.raw.toList)))).map content =
      tokens.map content := by
  induction tokens generalizing cursor with
  | nil => exact congrArg (List.map content) (ofTextFrom_nil g cursor)
  | cons token rest ih =>
    obtain ⟨⟨hf, halone⟩, hrest⟩ := List.forall_mem_cons.1 h
    cases rest with
    | nil =>
      have hends : token.lexeme.Ends token.raw.toList [] :=
        Lexeme.ends_before_space halone hf nofun
      obtain ⟨span, cursor', hfirst⟩ := ofTextFrom_alone halone hends cursor
      rw [List.append_nil, ofTextFrom_nil] at hfirst
      rw [List.map_singleton, List.intercalate_singleton, hfirst]
      rfl
    | cons next rest =>
      have hends : token.lexeme.Ends token.raw.toList
          (' ' :: [' '].intercalate ((next :: rest).map (·.raw.toList))) :=
        Lexeme.ends_before_space halone hf fun c hc => (Option.some.inj hc).symm
      obtain ⟨span, cursor', hfirst⟩ := ofTextFrom_alone halone hends cursor
      have hjoin : [' '].intercalate ((token :: next :: rest).map (·.raw.toList)) =
          token.raw.toList ++ ' ' :: [' '].intercalate ((next :: rest).map (·.raw.toList)) := by
        simp
      rw [hjoin, hfirst, ofTextFrom_space, List.map_cons, ih hrest]
      rfl

/-- Tokens do not depend on their neighbours: if no token of a text is a fault, their characters
    with one space between each and the next have the same tokens, in the same order. -/
theorem ofText_spaced {text : List Char} (h : Faultless (ofText g text)) :
    (ofText g (spaced text (ofText g text))).map content = (ofText g text).map content := by
  have hcharacters : spaced text (ofText g text) =
      [' '].intercalate ((ofText g text).map (·.raw.toList)) :=
    congrArg ([' '].intercalate ·) (List.map_congr_left fun token ht => (standsIn_of_mem ht).1)
  rw [hcharacters]
  refine map_content_spaced (fun token ht => ⟨h token ht, ?_⟩) Cursor.origin
  obtain hfault | hspelled := spelled_of_mem ht
  · rw [h token ht] at hfault
    cases hfault
  · exact hspelled.alone (h token ht)

/-- A number behind a `?`, a comment behind a bracket, and operators that share their characters. -/
theorem ofText_spaced_neighbours :
    let text := "a?.5:#b/c[0x1f]/**/.e+++'f\\x41g'".toList
    Faultless (ofText .template text) ∧
      spaced text (ofText .template text) = "a ? .5 : #b / c [ 0x1f ] . e ++ + 'f\\x41g'".toList ∧
      (ofText .template "a ? .5 : #b / c [ 0x1f ] . e ++ + 'f\\x41g'".toList).map content =
        (ofText .template text).map content := by
  intro text
  have hf : Faultless (ofText .template text) := by decide +kernel
  have hs : spaced text (ofText .template text) =
      "a ? .5 : #b / c [ 0x1f ] . e ++ + 'f\\x41g'".toList := by decide +kernel
  exact ⟨hf, hs, hs ▸ ofText_spaced hf⟩

end Token

end TemplateExpr
