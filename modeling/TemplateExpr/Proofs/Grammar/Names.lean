/-
  The identifiers of a tree that was read are names among its tokens, in the same order and each
  from a token of its own.

  * `mentions_of_reads`: for every phrase.
  * `ReadsAll.identifiers_sublist`: for a program.
-/
import TemplateExpr.Proofs.Grammar.Reads
import TemplateExpr.Syntax.Identifiers

namespace TemplateExpr
open Production

/-- The identifier that a token is where it stands for a name. Reserved words are names behind a
    point and in front of a colon. -/
def Token.identifier? (token : Token) : Option Identifier :=
  match token.lexeme with
  | .name text | .keyword text => some ⟨text, none, token.span⟩
  | _ => none

/-- The names among the tokens that are left. -/
def Input.names (i : Input) : List Identifier :=
  i.rest.filterMap Token.identifier?

/-- The identifiers are names of the tokens between the two inputs, in their order. -/
def Mentions (ids : List Identifier) (i j : Input) : Prop :=
  (ids ++ j.names).Sublist i.names

namespace Mentions

variable {ids more : List Identifier} {i j l : Input}

theorem refl (i : Input) : Mentions [] i i := List.Sublist.refl _

theorem trans (h : Mentions ids i j) (h' : Mentions more j l) : Mentions (ids ++ more) i l := by
  unfold Mentions at h h' ⊢
  rw [List.append_assoc]
  exact (h'.append_left ids).trans h

theorem of_eq (h : Mentions ids i j) (he : ids = more) : Mentions more i j := he ▸ h

/-- Tokens may be passed over. -/
theorem skip (h : Mentions ids i j) : Mentions ids i j.skip := by
  refine List.Sublist.trans (List.Sublist.append_left ?_ ids) h
  obtain ⟨last, rest, stop⟩ := j
  cases rest with
  | nil => exact List.Sublist.refl _
  | cons token rest => exact (List.sublist_cons_self token rest).filterMap _

/-- What follows has no names before it. -/
theorem after (h : Mentions ids j l) (hs : Mentions [] i j) : Mentions ids i l :=
  hs.trans h

/-- The next token is a name. -/
theorem token {text : String}
    (h : i.lexeme? = some (.name text) ∨ i.lexeme? = some (.keyword text)) :
    Mentions [⟨text, none, i.here⟩] i i.skip := by
  have ht : ∃ token rest, i.rest = token :: rest ∧
      token.identifier? = some ⟨text, none, token.span⟩ := by
    obtain h | h := h <;>
    · obtain ⟨token, rest, hr, hl⟩ := Input.lexeme?_eq_some_iff.1 h
      exact ⟨token, rest, hr, by rw [Token.identifier?, hl]⟩
  obtain ⟨token, rest, hr, ht⟩ := ht
  obtain ⟨last, _, stop⟩ := i
  obtain rfl : _ = token :: rest := hr
  have hn : Input.names ⟨last, token :: rest, stop⟩ =
      ⟨text, none, token.span⟩ :: rest.filterMap Token.identifier? :=
    List.filterMap_cons_some ht
  rw [Mentions, hn]
  exact List.Sublist.refl _

theorem takeName? {id : Identifier} (h : i.takeName? = some (id, j)) : Mentions [id] i j := by
  obtain ⟨text, hl, rfl, rfl⟩ := Input.takeName?_eq_some_iff.1 h
  exact token (.inl hl)

theorem plainKey? {key : Expr} {alone : Bool}
    (h : i.rest.head?.bind Production.plainKey? = some (key, alone)) :
    Mentions key.identifiers i i.skip := by
  obtain ⟨⟨lexeme, raw, newline, span⟩, rest, hr, h⟩ := Input.head?_bind_eq_some_iff.1 h
  have hl : i.lexeme? = some lexeme := Input.lexeme?_eq_some_iff.2 ⟨_, rest, hr, rfl⟩
  have hh : i.here = span := by rw [Input.here, hr]
  cases lexeme with
  | name text => cases h; exact hh ▸ token (.inl hl)
  | keyword text => cases h; exact hh ▸ token (.inr hl)
  | text value => cases h; exact (refl i).skip
  | number value => cases h; exact (refl i).skip
  | mark | operator | fault => cases h

theorem atom? {e : Expr} (h : i.rest.head?.bind Production.atom? = some e) :
    Mentions e.identifiers i i.skip := by
  obtain ⟨⟨lexeme, raw, newline, span⟩, rest, hr, h⟩ := Input.head?_bind_eq_some_iff.1 h
  have hl : i.lexeme? = some lexeme := Input.lexeme?_eq_some_iff.2 ⟨_, rest, hr, rfl⟩
  have hh : i.here = span := by rw [Input.here, hr]
  cases atomOf_of_atom? h with
  | name => exact hh ▸ token (.inl hl)
  | _ => exact (refl i).skip

theorem statementEnd {inBody : Bool} (h : Mentions ids i j)
    (he : Production.statementEnd inBody j = .ok l) : Mentions ids i l := by
  obtain ⟨-, rfl⟩ | ⟨-, rfl, -⟩ := statementEnd_eq_ok he
  · exact h.skip
  · exact h

end Mentions

/-! ## Phrases -/

def Kind.identifiers : (k : Kind) → k.type → List Identifier
  | .expr, e => Expr.identifiers e
  | .property, p => Property.identifiers p
  | .param, p => Param.identifiers p
  | .lambda, f => Lambda.identifiers f
  | .body, b => Body.identifiers b
  | .statement, s => Statement.identifiers s
  | .list k, as => List.flatMap k.identifiers as

theorem identifiers_binaryNode (level : Operator.Level) (op : String) (l r : Expr) :
    (binaryNode level op l r).identifiers = l.identifiers ++ r.identifiers := by
  unfold binaryNode
  split <;> rfl

/-- The identifiers of what a phrase stands for are names of the tokens that it takes. The names
    of an operand before it are in front of those. -/
def Phrase.Listed : {k : Kind} → Phrase k → Input → k.type → Input → Prop
  | _, .items (k := k) item _, i, as, j =>
    (∀ {i a j}, item.Listed i a j → Mentions (k.identifiers a) i j) →
      Mentions (as.flatMap k.identifiers) i j
  | _, .climb _ _ operand, i, e, j | _, .links operand, i, e, j | _, .link operand, i, e, j =>
    ∀ {before}, Mentions operand.identifiers before i → Mentions e.identifiers before j
  | k, _, i, a, j => Mentions (k.identifiers a) i j

open Mentions

theorem mentions_of_reads {k : Kind} {c : Phrase k} {i j : Input} {a : k.type}
    (h : Reads c i a j) : c.Listed i a j := by
  induction h with
  | itemsClose => exact fun _ => (refl _).skip
  | itemsMore _ _ _ _ iha ihr => exact fun hp => (hp iha).skip.trans (ihr hp)
  | itemsLast _ _ _ _ iha => exact fun hp => (hp iha).skip.of_eq (by simp)
  | othersNone => exact refl _
  | othersMore _ _ _ ih ihr => exact (ih.after (refl _).skip).trans ihr
  | single _ _ ih ihr => exact (ih.trans ihr).of_eq (by simp [Kind.identifiers])
  | several _ _ ih ihr =>
    exact (ih.trans ihr).of_eq
      (by simp [Kind.identifiers, Expr.identifiers, identifiersOfList, identifiersOfList_eq])
  | plainParam ht => exact takeName? ht
  | defaultParam ht _ _ ih => exact (takeName? ht).skip.trans ih
  | bodyEnd => exact (refl _).skip
  | bodyEmpty _ _ ih => exact ih.after (refl _).skip
  | bodyNext _ _ _ _ ih ihr => exact Mentions.trans ih ihr
  | block _ _ ih =>
    exact (ih.after (refl _).skip).of_eq (identifiersOfStatements_eq _).symm
  | namedFunction _ ht _ _ _ ihp ihb =>
    have hn := (takeName? ht).after (refl _).skip
    have hb := (hn.skip.trans (ihp id)).trans ihb
    exact hb.of_eq (by simp [Kind.identifiers, Lambda.identifiers, identifiersOfParams_eq])
  | namelessFunction _ _ _ _ ihp ihb =>
    have hp := (ihp id).after (refl _).skip.skip
    exact (hp.trans ihb).of_eq
      (by simp [Kind.identifiers, Lambda.identifiers, identifiersOfParams_eq])
  | paramList _ _ ih => exact (ih id).after (refl _).skip
  | soleParam ht => exact takeName? ht
  | memberName hl => exact token hl
  | computedProperty _ _ _ _ _ ihk ihv =>
    exact (Mentions.after ihk (refl _).skip).skip.skip.trans ihv
  | keyedProperty hk _ _ ih => exact (plainKey? hk).skip.trans ih
  | shorthand hk => exact plainKey? hk
  | atom ha => exact atom? ha
  | functionValue _ _ ih => exact ih
  | parens _ _ _ ih => exact (Mentions.after ih (refl _).skip).skip
  | array _ _ ih =>
    exact ((ih id).after (refl _).skip).of_eq (identifiersOfList_eq _).symm
  | object _ _ ih =>
    exact ((ih id).after (refl _).skip).of_eq (identifiersOfProperties_eq _).symm
  | named _ _ ih | namedOptional _ _ ih => exact fun ho => ho.skip.trans ih
  | computed _ _ _ ih => exact fun ho => (ho.skip.trans ih).skip
  | computedOptional _ _ _ _ ih => exact fun ho => (ho.skip.skip.trans ih).skip
  | call _ _ ih =>
    exact fun ho => (ho.skip.trans (ih id)).of_eq
      (by simp [Kind.identifiers, Expr.identifiers, identifiersOfList_eq])
  | callOptional _ _ _ ih =>
    exact fun ho => (ho.skip.skip.trans (ih id)).of_eq
      (by simp [Kind.identifiers, Expr.identifiers, identifiersOfList_eq])
  | linksNone => exact id
  | linksMore _ _ ih ihr => exact fun ho => ihr (ih ho)
  | chain _ _ ih ihr => exact ihr ih
  | noTrailing _ _ ih => exact ih
  | trailingUpdate _ _ _ _ ih => exact Mentions.skip ih
  | leadingUpdate _ _ _ ih | unary _ _ _ ih => exact Mentions.after ih (refl _).skip
  | noPrefix _ _ _ ih => exact ih
  | noPower _ _ ih => exact ih
  | power _ _ _ ih ihr => exact (Mentions.skip ih).trans ihr
  | ladderTop _ ih => exact ih
  | ladderStep _ _ ih ihr => exact ihr ih
  | climbStop => exact id
  | climbMore _ _ _ ihr ih =>
    exact fun ho => ih ((ho.skip.trans ihr).of_eq (identifiers_binaryNode _ _ _ _).symm)
  | noConditional _ _ ih => exact ih
  | conditional _ _ _ _ _ ih ihc iha => exact ((Mentions.skip ih).trans ihc).skip.trans iha
  | blockArrow _ _ _ _ ihp ihb =>
    exact ((Mentions.skip ihp).trans ihb).of_eq
      (by simp [Kind.identifiers, Expr.identifiers, Lambda.identifiers, identifiersOfParams_eq])
  | arrow _ _ _ _ _ ihp ihe =>
    exact ((Mentions.skip ihp).trans ihe).of_eq
      (by simp [Kind.identifiers, Expr.identifiers, Lambda.identifiers, Body.identifiers,
        identifiersOfParams_eq])
  | noAssignment _ _ _ ih => exact ih
  | assignment _ _ _ _ _ ih ihr => exact (Mentions.skip ih).trans ihr
  | declaration _ _ ih => exact ih
  | bareReturn _ _ he => exact (refl _).skip.statementEnd he
  | «return» _ _ _ he ih => exact (Mentions.after ih (refl _).skip).statementEnd he
  | expression _ _ _ he ih => exact Mentions.statementEnd ih he

theorem ReadsAll.mentions {i : Input} {ss : List Statement} (h : ReadsAll i ss) :
    ∃ j, Mentions (identifiersOfStatements ss) i j := by
  induction h with
  | done => exact ⟨_, refl _⟩
  | empty _ _ ih =>
    obtain ⟨j, hl⟩ := ih
    exact ⟨j, hl.after (refl _).skip⟩
  | next _ hr _ ih =>
    obtain ⟨j, hl⟩ := ih
    exact ⟨j, Mentions.trans (mentions_of_reads hr) hl⟩

/-- The identifiers of a program are names of its tokens, in their order. -/
theorem ReadsAll.identifiers_sublist {i : Input} {ss : List Statement} (h : ReadsAll i ss) :
    (identifiersOfStatements ss).Sublist i.names := by
  obtain ⟨j, hl⟩ := h.mentions
  exact (List.sublist_append_left _ _).trans hl

end TemplateExpr
