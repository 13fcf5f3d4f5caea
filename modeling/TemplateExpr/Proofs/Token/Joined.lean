/-
  Texts with a line end between them. A comment to the end of a line ends there, and so does every
  lexeme that is no fault, so the tokens of the joined text are those of its parts. What is left
  of the line end is that the first token behind it begins a line.

  * `Trivia.ofText_append_newline`: blanks and comments.
  * `Token.ofTextFrom_append_newline`: the tokens of the first text, if it has no fault.
  * `Token.ofTextFrom_newline`: the tokens of the second one.
  * `Token.map_erased_joined`: two texts with a semicolon on a line of its own between them.
-/
import TemplateExpr.Proofs.Printing.Tokens
import TemplateExpr.Proofs.Token.LineEnds
import TemplateExpr.Proofs.Token.Sigils

namespace TemplateExpr
open Source Text

/-! ## Trivia -/

namespace Trivia
variable {cs : List Char} {n : Nat}

theorem closing?_append (h : closing? cs = some n) (ds : List Char) :
    closing? (cs ++ ds) = some n := by
  induction cs using closing?.induct generalizing n with
  | case1 => cases h
  | case2 cs => exact h
  | case3 c cs hc ih =>
    have hnot : ¬(c = '*' ∧ cs.head?.any (· == '/') = true) := by
      rintro ⟨rfl, hd⟩
      cases cs with
      | nil => cases hd
      | cons d cs => exact hc cs rfl (congrArg (· :: cs) (beq_iff_eq.1 hd))
    rw [closing?_cons hnot] at h
    obtain ⟨m, hm, rfl⟩ := Option.map_eq_some_iff.1 h
    have hhead : (cs ++ ds).head? = cs.head? := by
      cases cs with
      | nil => cases hm
      | cons d cs => rfl
    rw [List.cons_append, closing?_cons (by rwa [hhead]), ih hm]
    rfl

theorem lineLength_append_newline (cs ds : List Char) :
    lineLength (cs ++ '\n' :: ds) = lineLength cs := by
  induction cs with
  | nil => rfl
  | cons c cs ih =>
    rw [lineLength, lineLength, List.cons_append, List.takeWhile_cons, List.takeWhile_cons]
    split
    · exact congrArg (· + 1) ih
    · rfl

/-- The trivia of a text of the given length, when other trivia follows the text. -/
def before (trivia : Trivia) (length : Nat) (next : Trivia) : Trivia :=
  if trivia.length = length then next.behind length trivia.newline else trivia

theorem behind_before (trivia next : Trivia) (length m : Nat) (newline : Bool) :
    (trivia.before length next).behind m newline =
      (trivia.behind m newline).before (m + length) next := by
  unfold before behind
  simp only [Nat.add_left_cancel_iff]
  split <;> simp [Nat.add_assoc, Bool.or_assoc]

/-- The trivia at the front of a text goes on behind the line end that follows, if it is all of
    the text. -/
theorem ofText_append_newline (cs ds : List Char) (ho : (ofText cs).openComment = false) :
    ofText (cs ++ '\n' :: ds) = (ofText cs).before cs.length (ofText ('\n' :: ds)) := by
  induction cs using ofText.induct with
  | case1 =>
    have hempty : ofText [] = empty := by rw [ofText]
    rw [List.nil_append, hempty, before, behind]
    simp [empty]
  | case2 cs ih =>
    have hle := lineLength_le cs
    rw [ofText] at ho
    have hdrop : (cs ++ '\n' :: ds).drop (lineLength cs) =
        cs.drop (lineLength cs) ++ '\n' :: ds := List.drop_append_of_le_length hle
    rw [List.cons_append, List.cons_append, ofText, lineLength_append_newline, hdrop, ih ho,
      behind_before, ofText]
    congr 1
    simp only [List.length_drop, List.length_cons]
    omega
  | case3 cs n hn ih =>
    have hle := closing?_le hn
    rw [ofText, hn] at ho
    have hdrop : (cs ++ '\n' :: ds).drop n = cs.drop n ++ '\n' :: ds :=
      List.drop_append_of_le_length hle
    rw [List.cons_append, List.cons_append, ofText, closing?_append hn, ofText, hn]
    dsimp only
    rw [hdrop, List.take_append_of_le_length hle, ih ho, behind_before]
    congr 1
    simp only [List.length_drop, List.length_cons]
    omega
  | case4 cs hn =>
    rw [ofText, hn] at ho
    cases ho
  | case5 c cs h1 h2 hc ih =>
    rw [ofText_cons_of_isSpace hc] at ho ⊢
    rw [List.cons_append, ofText_cons_of_isSpace hc, ih ho, behind_before]
    congr 1
    exact Nat.add_comm 1 _
  | case6 c cs h1 h2 hc =>
    have hempty : ofText (c :: cs) = empty := by
      rw [ofText, if_neg hc]
      all_goals assumption
    have hbegins : begins (c :: cs) = false :=
      not_begins_of_length (by rw [hempty]; rfl) (by rw [hempty]; rfl)
    have hbegins' : begins (c :: (cs ++ '\n' :: ds)) = false := by
      cases cs with
      | nil => simpa [begins] using hbegins
      | cons d cs => exact hbegins
    rw [hempty, List.cons_append, ofText_of_not_begins hbegins']
    rfl

end Trivia

/-! ## Tokens -/

/-- A lexeme that is no fault goes over no line end behind it. -/
theorem Lexeme.read_append_newline {g : Grammar} {c : Char} {cs : List Char}
    (hf : (read g c cs).1.isFault = false) (ds : List Char) :
    read g c (cs ++ '\n' :: ds) = read g c cs := by
  cases hq : (c == '\'' || c == '"') with
  | true =>
    rw [read_of_quote hq] at hf ⊢
    rw [read_of_quote hq]
    obtain ⟨fault, hlit⟩ | ⟨value, hlit⟩ := Literal.readBody_lexeme c [] cs
    · rw [Literal.read, hlit] at hf
      cases hf
    · have hread : Literal.readBody c [] cs = (.text value, (Literal.readBody c [] cs).2) :=
        Prod.ext hlit rfl
      have happend := (Literal.readBody_take_append hread).2
        (cs.drop (Literal.readBody c [] cs).2 ++ '\n' :: ds)
      rw [← List.append_assoc, List.take_append_drop] at happend
      rw [Literal.read, Literal.read, happend, ← hread]
  | false =>
    exact read_append_lineEnd hq fun _ hd => .inl (Option.some.inj hd).symm

namespace Token
variable {g : Grammar} {cursor cursor' : Cursor} {cs cs' : List Char}

/-- What trivia there is in front does not matter, but for its line ends. -/
theorem ofTextFrom_congr
    (hdrop : cs.drop (Trivia.ofText cs).length = cs'.drop (Trivia.ofText cs').length)
    (hcursor : cursor.past (cs.take (Trivia.ofText cs).length) =
      cursor'.past (cs'.take (Trivia.ofText cs').length))
    (hnewline : (Trivia.ofText cs).newline = (Trivia.ofText cs').newline)
    (ho : (Trivia.ofText cs).openComment = (Trivia.ofText cs').openComment) :
    ofTextFrom g cursor cs = ofTextFrom g cursor' cs' := by
  cases hd : cs.drop (Trivia.ofText cs).length with
  | nil => rw [ofTextFrom_of_drop_eq_nil hd, ofTextFrom_of_drop_eq_nil (hdrop.symm.trans hd)]
  | cons c rest =>
    rw [ofTextFrom_of_drop hd, ofTextFrom_of_drop (hdrop.symm.trans hd), hcursor, hnewline, ho]

theorem openComment_of_faultless (h : Faultless (ofTextFrom g cursor cs)) :
    (Trivia.ofText cs).openComment = false := by
  cases ho : (Trivia.ofText cs).openComment with
  | false => rfl
  | true =>
    obtain ⟨ds, hd⟩ := Trivia.drop_of_openComment ho
    rw [ofTextFrom_of_drop hd] at h
    dsimp only at h
    rw [if_pos ho] at h
    cases h _ List.mem_cons_self

/-- Behind a text of trivia the reader goes on at the line end. -/
theorem ofTextFrom_append_newline_of_blank (hd : cs.drop (Trivia.ofText cs).length = [])
    (ho : (Trivia.ofText cs).openComment = false) (ds : List Char) :
    ofTextFrom g cursor (cs ++ '\n' :: ds) = ofTextFrom g (cursor.past cs) ('\n' :: ds) := by
  have hall : (Trivia.ofText cs).length = cs.length :=
    Nat.le_antisymm (Trivia.length_le cs) (List.drop_eq_nil_iff.1 hd)
  have htrivia := Trivia.ofText_append_newline cs ds ho
  rw [Trivia.before, if_pos hall] at htrivia
  refine ofTextFrom_congr ?_ ?_ ?_ ?_ <;> rw [htrivia, Trivia.behind] <;> dsimp only
  · rw [List.drop_length_add_append]
  · rw [List.take_length_add_append, Cursor.past_append]
  · rw [Trivia.ofText_cons_of_isSpace rfl]
    exact Bool.or_true _

/-- One step of the reader in front of a line end: it takes what it takes without it. -/
theorem ofTextFrom_append_newline_of_drop {c : Char} {rest : List Char}
    (hd : cs.drop (Trivia.ofText cs).length = c :: rest)
    (h : Faultless (ofTextFrom g cursor cs)) (ds : List Char) :
    let start := cursor.past (cs.take (Trivia.ofText cs).length)
    let found := Lexeme.read g c rest
    ofTextFrom g cursor (cs ++ '\n' :: ds) =
      lexed start found.1 (Trivia.ofText cs).newline c (rest.take found.2) ::
        ofTextFrom g (start.past (c :: rest.take found.2)) (rest.drop found.2 ++ '\n' :: ds) := by
  intro start found
  have ho := openComment_of_faultless h
  have hf : ¬found.1.isFault = true := by simp [found, (ofTextFrom_of_faultless hd h).1]
  have hle := Trivia.length_le cs
  have hlen := Lexeme.read_le g c rest
  have hlt : (Trivia.ofText cs).length ≠ cs.length := fun hall => by
    rw [hall, List.drop_length] at hd
    cases hd
  have htrivia := Trivia.ofText_append_newline cs ds ho
  rw [Trivia.before, if_neg hlt] at htrivia
  have hd' : (cs ++ '\n' :: ds).drop (Trivia.ofText (cs ++ '\n' :: ds)).length =
      c :: (rest ++ '\n' :: ds) := by
    rw [htrivia, List.drop_append_of_le_length hle, hd, List.cons_append]
  have hread := Lexeme.read_append_newline (ofTextFrom_of_faultless hd h).1 ds
  rw [ofTextFrom_of_drop hd', htrivia]
  dsimp only
  rw [hread, ho, if_neg (by decide), if_neg hf, List.take_append_of_le_length hle,
    List.take_append_of_le_length hlen, List.drop_append_of_le_length hlen]

/-- The tokens of a text without faults stay when a line end and more text follow. The induction
    is on the number of characters that are left. -/
theorem ofTextFrom_append_newline (h : Faultless (ofTextFrom g cursor cs)) (ds : List Char) :
    ofTextFrom g cursor (cs ++ '\n' :: ds) =
      ofTextFrom g cursor cs ++ ofTextFrom g (cursor.past cs) ('\n' :: ds) := by
  induction hn : cs.length using Nat.strongRecOn generalizing cursor cs with
  | ind n ih =>
    cases hd : cs.drop (Trivia.ofText cs).length with
    | nil =>
      rw [ofTextFrom_append_newline_of_blank hd (openComment_of_faultless h),
        ofTextFrom_of_drop_eq_nil hd, List.nil_append]
    | cons c rest =>
      obtain ⟨-, hrest, he⟩ := ofTextFrom_of_faultless hd h
      rw [ofTextFrom_append_newline_of_drop hd h, ih _ (hn ▸ length_drop_lt hd _) hrest rfl, he,
        List.cons_append]
      congr 3
      -- the cursor behind the whole text
      have hsplit := List.take_append_drop (Trivia.ofText cs).length cs
      rw [hd, ← List.take_append_drop (Lexeme.read g c rest).2 rest] at hsplit
      conv_rhs => rw [← hsplit]
      simp only [Cursor.past_append, Cursor.past_cons]

/-- The tokens, of which the first begins a line. -/
def onNewLine : List Token → List Token
  | [] => []
  | token :: rest => { token with newlineBefore := true } :: rest

theorem faultless_onNewLine {tokens : List Token} (h : Faultless tokens) :
    Faultless (onNewLine tokens) := by
  cases tokens with
  | nil => exact h
  | cons token rest => exact List.forall_mem_cons.2 (List.forall_mem_cons.1 h)

/-- Behind a line end, the first token begins a line. -/
theorem ofTextFrom_newline (h : Faultless (ofTextFrom g (cursor.step '\n') cs)) :
    ofTextFrom g cursor ('\n' :: cs) = onNewLine (ofTextFrom g (cursor.step '\n') cs) := by
  have htrivia := Trivia.ofText_cons_of_isSpace (c := '\n') rfl cs
  have hlen : (Trivia.ofText ('\n' :: cs)).length = (Trivia.ofText cs).length + 1 := by
    rw [htrivia]
    exact Nat.add_comm _ _
  have hdrop : ('\n' :: cs).drop (Trivia.ofText ('\n' :: cs)).length =
      cs.drop (Trivia.ofText cs).length := by
    rw [hlen, List.drop_succ_cons]
  cases hd : cs.drop (Trivia.ofText cs).length with
  | nil =>
    rw [ofTextFrom_of_drop_eq_nil hd, ofTextFrom_of_drop_eq_nil (hdrop.trans hd)]
    rfl
  | cons c rest =>
    have ho : ¬(Trivia.ofText cs).openComment = true := by simp [openComment_of_faultless h]
    have ho' : ¬(Trivia.ofText ('\n' :: cs)).openComment = true := by rwa [htrivia]
    have hnewline : (Trivia.ofText ('\n' :: cs)).newline = true := by
      rw [htrivia]
      rfl
    rw [ofTextFrom_of_drop hd, ofTextFrom_of_drop (hdrop.trans hd)]
    dsimp only
    rw [if_neg ho, if_neg ho', hlen, List.take_succ_cons, Cursor.past_cons, hnewline]
    split <;> rfl

/-- The token without its place. -/
def erased (token : Token) : Token :=
  token.relocate fun _ => .nowhere

theorem map_erased_onNewLine (tokens : List Token) :
    (onNewLine tokens).map erased = onNewLine (tokens.map erased) := by
  cases tokens <;> rfl

theorem faultless_map_erased {tokens : List Token} :
    Faultless (tokens.map erased) ↔ Faultless tokens :=
  List.forall_mem_map

/-- But for their places, the tokens of a text are the same wherever the text stands. -/
theorem map_erased_ofTextFrom (g : Grammar) (cursor cursor' : Cursor) (cs : List Char) :
    (ofTextFrom g cursor cs).map erased = (ofTextFrom g cursor' cs).map erased := by
  induction hn : cs.length using Nat.strongRecOn generalizing cursor cursor' cs with
  | ind n ih =>
    cases hd : cs.drop (Trivia.ofText cs).length with
    | nil => rw [ofTextFrom_of_drop_eq_nil hd, ofTextFrom_of_drop_eq_nil hd]
    | cons c rest =>
      rw [ofTextFrom_of_drop hd, ofTextFrom_of_drop hd]
      dsimp only
      split
      · rfl
      · split
        · rfl
        · exact congrArg (_ :: ·) (ih _ (hn ▸ length_drop_lt hd _) _ _ _ rfl)

/-- The tokens of two texts without faults with a semicolon on a line between them. -/
theorem map_erased_joined {a b : List Char} (ha : Faultless (ofText g a))
    (hb : Faultless (ofText g b)) :
    (ofText g (a ++ '\n' :: ';' :: '\n' :: b)).map erased =
      (ofText g a).map erased ++
        ⟨.mark ';', ";", true, .nowhere⟩ :: onNewLine ((ofText g b).map erased) := by
  have hmark : (Lexeme.mark ';').Alone g ";" := Lexeme.alone_mark g (by decide)
  have hends : (Lexeme.mark ';').Ends ";".toList ('\n' :: b) := fun h => nomatch h
  obtain ⟨span, behind, hsemicolon⟩ :=
    ofTextFrom_alone hmark hends ((Cursor.origin.past a).step '\n')
  have herased := map_erased_ofTextFrom g (behind.step '\n') Cursor.origin b
  have hb' : Faultless (ofTextFrom g (behind.step '\n') b) := by
    rw [← faultless_map_erased, herased, faultless_map_erased]
    exact hb
  have hrest : ofTextFrom g ((Cursor.origin.past a).step '\n') (';' :: '\n' :: b) =
      ⟨.mark ';', ";", false, span⟩ :: onNewLine (ofTextFrom g (behind.step '\n') b) := by
    rw [← ofTextFrom_newline hb']
    exact hsemicolon
  have hfaultless :
      Faultless (ofTextFrom g ((Cursor.origin.past a).step '\n') (';' :: '\n' :: b)) := by
    rw [hrest]
    exact List.forall_mem_cons.2 ⟨rfl, faultless_onNewLine hb'⟩
  rw [ofText, ofTextFrom_append_newline ha, ofTextFrom_newline hfaultless, hrest, List.map_append,
    ofText, ofText, ← herased, ← map_erased_onNewLine]
  rfl

end Token

end TemplateExpr
