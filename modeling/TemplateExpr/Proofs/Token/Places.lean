/-
  Where the tokens of a text stand: at places of that text, one behind the other.

  * `ofTextFrom_of_drop`: one step of the reader of tokens.
  * `cut_of_mem`: a token is the characters of the text between its ends.
  * `ascending_ofTextFrom`, `ascending_ofTextWithin`: no token is empty, and each stands behind
    the one before it.
-/
import TemplateExpr.Syntax.OfText
import TemplateExpr.Proofs.Places.Order

namespace TemplateExpr
open Source

/-! ## Places of a text -/

/-- The place is behind some of the characters that the cursor stands before. -/
def Source.Cursor.Reaches (cursor : Cursor) (text : List Char) (place : Place) : Prop :=
  ∃ n ≤ text.length, place = (cursor.past (text.take n)).place

/-- The characters of the document between the ends of the span. -/
def Source.Span.textIn (span : Span) (document : List Char) : List Char :=
  (document.drop span.start.offset).take (span.stop.offset - span.start.offset)

namespace Source.Cursor

theorem reaches_start (cursor : Cursor) (cs : List Char) : cursor.Reaches cs cursor.place :=
  ⟨0, Nat.zero_le _, rfl⟩

theorem reaches_past (cursor : Cursor) (cs ds : List Char) :
    cursor.Reaches (cs ++ ds) (cursor.past cs).place :=
  ⟨cs.length, by simp, by rw [List.take_left']; rfl⟩

end Source.Cursor

/-- The end of a text is where a cursor comes to that reads it. -/
theorem Source.Place.endOf_eq (text : List Char) :
    Place.endOf text = (Cursor.origin.past text).place := by
  have hoffset := Cursor.offset_past Cursor.origin text
  rw [show Cursor.origin.place.offset = 0 from rfl, Nat.zero_add] at hoffset
  rw [Place.endOf, positionAt, List.take_length, ← hoffset]

/-! ## Single steps -/

namespace Token

variable {g : Grammar} {cursor : Cursor} {cs rest : List Char} {c : Char}

/-- The token that a lexeme at the cursor makes, when `taken` more characters belong to it. -/
def lexed (start : Cursor) (lexeme : Lexeme) (newline : Bool) (c : Char) (taken : List Char) :
    Token :=
  ⟨lexeme, String.ofList (c :: taken), newline, ⟨start.place, (start.past (c :: taken)).place⟩⟩

/-- Nothing is read behind the last lexeme. -/
theorem ofTextFrom_of_drop_eq_nil (h : cs.drop (Trivia.ofText cs).length = []) :
    ofTextFrom g cursor cs = [] := by
  rw [ofTextFrom]
  split
  · rfl
  · next h' => rw [h] at h'; cases h'

/-- One step of the reader: behind the trivia, a comment without end takes all that is left,
    and else a lexeme takes its characters; behind a fault nothing is read. -/
theorem ofTextFrom_of_drop (h : cs.drop (Trivia.ofText cs).length = c :: rest) :
    ofTextFrom g cursor cs =
      (let start := cursor.past (cs.take (Trivia.ofText cs).length)
      if (Trivia.ofText cs).openComment then [lexed start (.fault .openComment) false c rest]
      else
        let found := Lexeme.read g c rest
        let token := lexed start found.1 (Trivia.ofText cs).newline c (rest.take found.2)
        if found.1.isFault then [token]
        else token ::
          ofTextFrom g (start.past (c :: rest.take found.2)) (rest.drop found.2)) := by
  rw [ofTextFrom]
  split
  · next h' => rw [h] at h'; cases h'
  · next c' rest' h' =>
    rw [h] at h'
    obtain ⟨rfl, rfl⟩ := List.cons.inj h'
    rfl

/-- Less text is left behind a lexeme than was left in front of it. -/
theorem length_drop_lt (h : cs.drop (Trivia.ofText cs).length = c :: rest) (n : Nat) :
    (rest.drop n).length < cs.length := by
  have := congrArg List.length h
  simp only [List.length_drop, List.length_cons] at this ⊢
  omega

theorem span_lexed (start : Cursor) (lexeme : Lexeme) (newline : Bool) (c : Char)
    (taken : List Char) :
    (lexed start lexeme newline c taken).span =
      ⟨start.place, (start.past (c :: taken)).place⟩ := rfl

/-- The token is characters of the text, and its span is from the place before them to the place
    behind them. -/
def CutFrom (cursor : Cursor) (text : List Char) (token : Token) : Prop :=
  ∃ before after, text = before ++ (token.raw.toList ++ after) ∧
    token.span = ⟨(cursor.past before).place, (cursor.past (before ++ token.raw.toList)).place⟩

/-- What is cut from the end of a text is cut from the text. -/
theorem CutFrom.behind {token : Token} (h : token.CutFrom (cursor.past cs) rest) :
    token.CutFrom cursor (cs ++ rest) := by
  obtain ⟨before, after, rfl, hs⟩ := h
  refine ⟨cs ++ before, after, by simp, ?_⟩
  simp only [hs, List.append_assoc, Cursor.past_append]

theorem CutFrom.reaches {token : Token} (h : token.CutFrom cursor cs) :
    cursor.Reaches cs token.span.start ∧ cursor.Reaches cs token.span.stop := by
  obtain ⟨before, after, rfl, hs⟩ := h
  rw [hs]
  refine ⟨Cursor.reaches_past _ _ _, ?_⟩
  rw [← List.append_assoc]
  exact Cursor.reaches_past _ _ _

theorem cut_lexed (trivia : List Char) (lexeme : Lexeme) (newline : Bool)
    (taken others : List Char) :
    (lexed (cursor.past trivia) lexeme newline c taken).CutFrom cursor
      (trivia ++ (c :: taken ++ others)) := by
  refine ⟨trivia, others, by simp [lexed], ?_⟩
  rw [span_lexed, lexed, String.toList_ofList, Cursor.past_append]

/-- A token is the characters of the text between its ends. -/
theorem cut_of_mem {token : Token} (h : token ∈ ofTextFrom g cursor cs) :
    token.CutFrom cursor cs := by
  induction hn : cs.length using Nat.strongRecOn generalizing cursor cs with
  | ind n ih =>
    cases hd : cs.drop (Trivia.ofText cs).length with
    | nil => rw [ofTextFrom_of_drop_eq_nil hd] at h; cases h
    | cons c rest =>
      have hcs : cs = cs.take (Trivia.ofText cs).length ++ (c :: rest) := by
        rw [← hd, List.take_append_drop]
      rw [ofTextFrom_of_drop hd] at h
      dsimp only at h
      split at h
      · rw [List.mem_singleton.1 h]
        have hfirst := @cut_lexed cursor c (cs.take (Trivia.ofText cs).length)
          (.fault .openComment) false rest []
        rwa [List.append_nil, ← hcs] at hfirst
      · have hrest : c :: rest = c :: rest.take (Lexeme.read g c rest).2 ++
            rest.drop (Lexeme.read g c rest).2 := by
          rw [List.cons_append, List.take_append_drop]
        have hfirst := @cut_lexed cursor c
          (cs.take (Trivia.ofText cs).length) (Lexeme.read g c rest).1
          (Trivia.ofText cs).newline (rest.take (Lexeme.read g c rest).2)
          (rest.drop (Lexeme.read g c rest).2)
        rw [← hrest, ← hcs] at hfirst
        split at h
        · rw [List.mem_singleton.1 h]
          exact hfirst
        · obtain rfl | h := List.mem_cons.1 h
          · exact hfirst
          · have hcut := (ih _ (hn ▸ length_drop_lt hd _) h rfl).behind.behind
            rwa [← hrest, ← hcs] at hcut

/-- Both ends of every token are places of the text. -/
theorem reaches_of_mem {token : Token} (h : token ∈ ofTextFrom g cursor cs) :
    cursor.Reaches cs token.span.start ∧ cursor.Reaches cs token.span.stop :=
  (cut_of_mem h).reaches

theorem stop_le_of_mem {token : Token} (h : token ∈ ofTextFrom g cursor cs) :
    token.span.stop.offset ≤ cursor.place.offset + cs.length := by
  obtain ⟨-, n, hn, hstop⟩ := reaches_of_mem h
  rw [hstop, Cursor.offset_past, List.length_take]
  omega

/-- The tokens stand one behind the other, the first one not before the cursor. -/
theorem ascending_ofTextFrom (g : Grammar) (cursor : Cursor) (cs : List Char) :
    Ascending cursor.place.offset (ofTextFrom g cursor cs) := by
  induction hn : cs.length using Nat.strongRecOn generalizing cursor cs with
  | ind n ih =>
    cases hd : cs.drop (Trivia.ofText cs).length with
    | nil => rw [ofTextFrom_of_drop_eq_nil hd]; trivial
    | cons c rest =>
      have hlow : cursor.place.offset ≤
          (cursor.past (cs.take (Trivia.ofText cs).length)).place.offset := by
        rw [Cursor.offset_past]
        exact Nat.le_add_right _ _
      have hlt : ∀ (start : Cursor) (taken : List Char),
          start.place.offset < (start.past (c :: taken)).place.offset := by
        intro start taken
        rw [Cursor.offset_past, List.length_cons]
        omega
      rw [ofTextFrom_of_drop hd]
      dsimp only
      split
      · exact ⟨hlow, hlt _ _, trivial⟩
      · split
        · exact ⟨hlow, hlt _ _, trivial⟩
        · exact ⟨hlow, hlt _ _, ih _ (hn ▸ length_drop_lt hd _) _ _ rfl⟩

/-- No token of a text ends behind it. -/
theorem stop_le_length {text : List Char} {token : Token} (h : token ∈ ofText g text) :
    token.span.stop.offset ≤ text.length := by
  have hstop := stop_le_of_mem h
  rwa [show Cursor.origin.place.offset = 0 from rfl, Nat.zero_add] at hstop

/-- The tokens of a text stand one behind the other, also in a document that it fits into. -/
theorem ascending_ofTextWithin (g : Grammar) {origin : Option Origin} {text : List Char}
    (hfit : FitsWithin origin text) :
    Ascending (offsetWithin origin 0) (ofTextWithin g origin text) :=
  (ascending_ofTextFrom g Cursor.origin text).within hfit fun _ => stop_le_length

end Token

end TemplateExpr
