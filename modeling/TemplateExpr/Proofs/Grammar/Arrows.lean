/-
  Every `=>` that is read is the arrow of an arrow function.

  * `counted_of_reads`: a phrase takes as many `=>` as what it stands for has arrow functions.
  * `ReadsAll.arrows_eq`: so does a program, which takes all its tokens.
-/
import TemplateExpr.Proofs.Grammar.Reads

namespace TemplateExpr
open Production

/-! ## Arrow functions of a tree -/

mutual

/-- How many arrow functions there are in the expression. -/
def Expr.arrows : Expr → Nat
  | .identifier _ | .literal _ _ _ | .this _ => 0
  | .array elements _ => arrowsOfList elements
  | .object properties _ => arrowsOfProperties properties
  | .member object property _ _ _ => object.arrows + property.arrows
  | .call callee arguments _ _ => callee.arrows + arrowsOfList arguments
  | .unary _ argument _ | .update _ _ argument _ => argument.arrows
  | .binary _ left right _ | .logical _ left right _ | .assignment _ left right _ =>
    left.arrows + right.arrows
  | .conditional test consequent alternate _ =>
    test.arrows + consequent.arrows + alternate.arrows
  | .sequence expressions _ => arrowsOfList expressions
  | .arrow lambda => lambda.arrows + 1
  | .function lambda => lambda.arrows

def arrowsOfList : List Expr → Nat
  | [] => 0
  | e :: es => e.arrows + arrowsOfList es

/-- The value of a shorthand entry repeats its key, which is a name. -/
def Property.arrows : Property → Nat
  | ⟨key, value, _, _, _⟩ => key.arrows + value.arrows

def arrowsOfProperties : List Property → Nat
  | [] => 0
  | p :: ps => p.arrows + arrowsOfProperties ps

def Lambda.arrows : Lambda → Nat
  | ⟨_, params, body, _⟩ => arrowsOfParams params + body.arrows

def Param.arrows : Param → Nat
  | .plain _ => 0
  | .withDefault _ value _ => value.arrows

def arrowsOfParams : List Param → Nat
  | [] => 0
  | p :: ps => p.arrows + arrowsOfParams ps

def Body.arrows : Body → Nat
  | .expression value => value.arrows
  | .block statements _ => arrowsOfStatements statements

def Statement.arrows : Statement → Nat
  | .expression value _ => value.arrows
  | .return none _ => 0
  | .return (some argument) _ => argument.arrows
  | .declaration lambda => lambda.arrows

def arrowsOfStatements : List Statement → Nat
  | [] => 0
  | s :: ss => s.arrows + arrowsOfStatements ss

end

/-! ## Arrows among the tokens -/

/-- How many `=>` come next. -/
def Input.arrows (i : Input) : Nat :=
  i.rest.countP (·.lexeme.isOperator "=>")

section
variable {i j : Input}

theorem arrows_skip_of_lexeme? {lexeme : Lexeme} (h : i.lexeme? = some lexeme) :
    i.arrows = i.skip.arrows + if lexeme.isOperator "=>" then 1 else 0 := by
  obtain ⟨token, rest, hr, rfl⟩ := Input.lexeme?_eq_some_iff.1 h
  rw [Input.arrows, Input.arrows, Input.skip, hr, List.countP_cons]

theorem arrows_of_atMark {c : Char} (h : i.atMark c = true) : i.skip.arrows = i.arrows :=
  (arrows_skip_of_lexeme? (Input.atMark_iff.1 h)).symm

theorem arrows_of_atKeyword {word : String} (h : i.atKeyword word = true) :
    i.skip.arrows = i.arrows :=
  (arrows_skip_of_lexeme? (Input.atKeyword_iff.1 h)).symm

theorem arrows_of_atOperator {symbol : String} (h : i.atOperator symbol = true)
    (hs : symbol ≠ "=>") : i.skip.arrows = i.arrows := by
  rw [arrows_skip_of_lexeme? (Input.atOperator_iff.1 h)]
  simp [Lexeme.isOperator, hs]

theorem arrows_of_power (h : i.atOperator Operator.power = true) : i.skip.arrows = i.arrows :=
  arrows_of_atOperator h (by decide)

theorem arrows_of_arrow (h : i.atOperator "=>" = true) : i.arrows = i.skip.arrows + 1 :=
  arrows_skip_of_lexeme? (Input.atOperator_iff.1 h)

theorem arrows_of_takeName? {id : Identifier} (h : i.takeName? = some (id, j)) :
    j.arrows = i.arrows := by
  obtain ⟨text, hl, -, rfl⟩ := Input.takeName?_eq_some_iff.1 h
  exact (arrows_skip_of_lexeme? hl).symm

theorem arrows_of_word {text : String}
    (h : i.lexeme? = some (.name text) ∨ i.lexeme? = some (.keyword text)) :
    i.skip.arrows = i.arrows := by
  obtain h | h := h <;> exact (arrows_skip_of_lexeme? h).symm

theorem arrows_of_statementEnd {inBody : Bool} (h : statementEnd inBody i = .ok j) :
    j.arrows = i.arrows := by
  obtain ⟨hm, rfl⟩ | ⟨-, rfl, -⟩ := statementEnd_eq_ok h
  · exact arrows_of_atMark hm
  · rfl

theorem arrows_of_plainKey? {key : Expr} {alone : Bool}
    (h : i.rest.head?.bind plainKey? = some (key, alone)) :
    i.skip.arrows = i.arrows ∧ key.arrows = 0 := by
  obtain ⟨⟨lexeme, raw, newline, span⟩, rest, hr, ht⟩ := Input.head?_bind_eq_some_iff.1 h
  rw [arrows_skip_of_lexeme? (Input.lexeme?_eq_some_iff.2 ⟨_, rest, hr, rfl⟩)]
  cases lexeme <;> cases ht <;> exact ⟨rfl, rfl⟩

theorem arrows_of_atom? {e : Expr} (h : i.rest.head?.bind atom? = some e) :
    i.skip.arrows = i.arrows ∧ e.arrows = 0 := by
  obtain ⟨token, rest, hr, ht⟩ := Input.head?_bind_eq_some_iff.1 h
  rw [arrows_skip_of_lexeme? (Input.lexeme?_eq_some_iff.2 ⟨_, rest, hr, rfl⟩)]
  cases atomOf_of_atom? ht <;> exact ⟨rfl, rfl⟩

theorem arrows_of_operator {op : String} {operators : List String} (ho : "=>" ∉ operators)
    (hop : op ∈ operators)
    (h : i.lexeme? = some (.operator op) ∨ i.lexeme? = some (.keyword op)) :
    i.skip.arrows = i.arrows := by
  obtain h | h := h
  · exact arrows_of_atOperator (Input.atOperator_iff.2 h) fun he => ho (he ▸ hop)
  · exact arrows_of_atKeyword (Input.atKeyword_iff.2 h)

theorem arrows_of_update {op : String} (h : operatorOf? Operator.update i = some op) :
    i.skip.arrows = i.arrows :=
  arrows_of_operator (by decide) (operatorOf?_eq_some_iff.1 h).2
    (.inl (operatorOf?_eq_some_iff.1 h).1)

theorem arrows_of_assign {op : String} (h : operatorOf? Operator.assignment i = some op) :
    i.skip.arrows = i.arrows :=
  arrows_of_operator (by decide) (operatorOf?_eq_some_iff.1 h).2
    (.inl (operatorOf?_eq_some_iff.1 h).1)

theorem arrows_of_unaryOf? {op : String} (h : unaryOf? i = some op) :
    i.skip.arrows = i.arrows := by
  obtain ⟨hl, ho⟩ | ⟨hl, ho⟩ := unaryOf?_eq_some_iff.1 h
  · exact arrows_of_operator (by decide) ho (.inl hl)
  · exact arrows_of_operator (by decide) ho (.inr hl)

theorem not_mem_operators {level : Operator.Level} (hl : level ∈ Operator.levels) :
    "=>" ∉ level.operators := by
  have table : ∀ level ∈ Operator.levels, "=>" ∉ level.operators := by decide
  exact table level hl

theorem arrows_of_binaryOf? {level : Operator.Level} (hl : level ∈ Operator.levels) {op : String}
    (h : binaryOf? level.operators i = some op) : i.skip.arrows = i.arrows :=
  arrows_of_operator (not_mem_operators hl) (binaryOf?_eq_some_iff.1 h).2
    (binaryOf?_eq_some_iff.1 h).1

end

/-! ## Readings -/

def Kind.arrows : (k : Kind) → k.type → Nat
  | .expr, e => Expr.arrows e
  | .property, p => Property.arrows p
  | .param, p => Param.arrows p
  | .lambda, f => Lambda.arrows f
  | .body, b => Body.arrows b
  | .statement, s => Statement.arrows s
  | .list k, as => List.foldr (fun a n => k.arrows a + n) 0 as

/-- The arrow functions of the operand that was read before the phrase. -/
def Phrase.operandArrows {k : Kind} : Phrase k → Nat
  | .climb _ _ operand | .links operand | .link operand => operand.arrows
  | _ => 0

/-- The binary operators of the phrase are some of the language. -/
def Phrase.Known {k : Kind} : Phrase k → Prop
  | .ladder levels => levels ⊆ Operator.levels
  | .climb level tighter _ => level ∈ Operator.levels ∧ tighter ⊆ Operator.levels
  | .items item _ => item.Known ∧ item.operandArrows = 0
  | _ => True

theorem Kind.arrows_exprs (es : List Expr) : (Kind.list .expr).arrows es = arrowsOfList es := by
  induction es with
  | nil => rfl
  | cons e es ih => rw [arrowsOfList, ← ih]; rfl

theorem Kind.arrows_properties (ps : List Property) :
    (Kind.list .property).arrows ps = arrowsOfProperties ps := by
  induction ps with
  | nil => rfl
  | cons p ps ih => rw [arrowsOfProperties, ← ih]; rfl

theorem Kind.arrows_params (ps : List Param) :
    (Kind.list .param).arrows ps = arrowsOfParams ps := by
  induction ps with
  | nil => rfl
  | cons p ps ih => rw [arrowsOfParams, ← ih]; rfl

theorem Kind.arrows_statements (ss : List Statement) :
    (Kind.list .statement).arrows ss = arrowsOfStatements ss := by
  induction ss with
  | nil => rfl
  | cons s ss ih => rw [arrowsOfStatements, ← ih]; rfl

theorem arrows_binaryNode (level : Operator.Level) (op : String) (left right : Expr) :
    (binaryNode level op left right).arrows = left.arrows + right.arrows := by
  unfold binaryNode
  cases level.logical <;> rfl

/-- From the first input on, `n` of its `=>` are read when the second one is left. -/
def Counted (s : Input) (n : Nat) (i : Input) : Prop :=
  s.arrows = i.arrows + n

namespace Counted

variable {s i j : Input} {m n : Nat}

theorem refl (i : Input) : Counted i 0 i :=
  rfl

theorem of_eq (h : Counted s m i) (he : m = n) : Counted s n i :=
  he ▸ h

/-- Tokens are read that are no `=>`. -/
theorem token (h : Counted s n i) (hi : j.arrows = i.arrows) : Counted s n j := by
  rw [Counted, hi]
  exact h

theorem mark (h : Counted s n i) {c : Char} (hm : i.atMark c = true) : Counted s n i.skip :=
  h.token (arrows_of_atMark hm)

/-- What follows is read. -/
theorem next (h : Counted s m i) (h' : Counted i n j) : Counted s (m + n) j := by
  rw [Counted, h, h', Nat.add_assoc, Nat.add_comm n]

/-- The `=>` of an arrow function is read. -/
theorem arrow (h : Counted s n i) (ho : i.atOperator "=>" = true) : Counted s (n + 1) i.skip := by
  rw [Counted, h, arrows_of_arrow ho]
  exact Nat.add_right_comm ..

end Counted

/-- A phrase takes as many `=>` as what it stands for has arrow functions. The induction is on
    the reading; what is counted begins at any input before it, so that an operand counts with
    what is read behind it. -/
theorem counted_of_reads {k : Kind} {c : Phrase k} {i j : Input} {a : k.type}
    (h : Reads c i a j) (hc : c.Known) {s : Input} (hs : Counted s c.operandArrows i) :
    Counted s (k.arrows a) j := by
  induction h generalizing s with
  | itemsClose hm => exact hs.mark hm
  | itemsMore _ _ hm _ ihi ihr =>
    exact ((ihi hc.1 (hs.of_eq hc.2.symm)).mark hm).next (ihr hc (.refl _))
  | itemsLast _ _ _ hm ihi => exact (ihi hc.1 (hs.of_eq hc.2.symm)).mark hm
  | othersNone => exact hs
  | othersMore hm _ _ ihe ihr => exact (ihe trivial (hs.mark hm)).next (ihr trivial (.refl _))
  | single _ _ ihe ihr => exact (ihe trivial hs).next (ihr trivial (.refl _))
  | @several _ e _ _ _ _ _ _ ihe ihr =>
    have he := (ihe trivial hs).next (ihr trivial (.refl _))
    exact he.of_eq (congrArg (e.arrows + ·) (Kind.arrows_exprs _))
  | plainParam ht => exact hs.token (arrows_of_takeName? ht)
  | defaultParam ht ho _ ih =>
    have hi := hs.token (arrows_of_takeName? ht)
    exact ih trivial (hi.token (arrows_of_atOperator ho (by decide)))
  | bodyEnd hm => exact hs.mark hm
  | bodyEmpty hm _ ih => exact ih trivial (hs.mark hm)
  | bodyNext _ _ _ _ ihs ihr => exact (ihs trivial hs).next (ihr trivial (.refl _))
  | block hm _ ih => exact (ih trivial (hs.mark hm)).of_eq (Kind.arrows_statements _)
  | namedFunction hk ht hm _ _ ihp ihb =>
    have hi := (hs.token (arrows_of_atKeyword hk)).token (arrows_of_takeName? ht)
    have hp := (ihp ⟨trivial, rfl⟩ (hi.mark hm)).of_eq (Kind.arrows_params _)
    exact hp.next (ihb trivial (.refl _))
  | namelessFunction hk hm _ _ ihp ihb =>
    have hi := (hs.token (arrows_of_atKeyword hk)).mark hm
    have hp := (ihp ⟨trivial, rfl⟩ hi).of_eq (Kind.arrows_params _)
    exact hp.next (ihb trivial (.refl _))
  | paramList hm _ ih => exact ih ⟨trivial, rfl⟩ (hs.mark hm)
  | soleParam ht => exact hs.token (arrows_of_takeName? ht)
  | memberName hl => exact hs.token (arrows_of_word hl)
  | computedProperty ho _ hm hv _ ihk ihv =>
    have hk := ((ihk trivial (hs.mark ho)).mark hm).mark hv
    exact hk.next (ihv trivial (.refl _))
  | keyedProperty hk hm _ ihv =>
    obtain ⟨hi, hz⟩ := arrows_of_plainKey? hk
    have hv := ((hs.token hi).of_eq hz.symm).mark hm
    exact hv.next (ihv trivial (.refl _))
  | shorthand hk =>
    obtain ⟨hi, hz⟩ := arrows_of_plainKey? hk
    exact (hs.token hi).of_eq (by rw [Kind.arrows, Property.arrows, hz]; rfl)
  | atom ha =>
    obtain ⟨hi, hz⟩ := arrows_of_atom? ha
    exact (hs.token hi).of_eq hz.symm
  | functionValue _ _ ih => exact ih trivial hs
  | parens ho _ hm ih => exact (ih trivial (hs.mark ho)).mark hm
  | array hm _ ih => exact (ih ⟨trivial, rfl⟩ (hs.mark hm)).of_eq (Kind.arrows_exprs _)
  | object hm _ ih => exact (ih ⟨trivial, rfl⟩ (hs.mark hm)).of_eq (Kind.arrows_properties _)
  | named hm _ ih => exact (hs.mark hm).next (ih trivial (.refl _))
  | namedOptional ho _ ih =>
    exact (hs.token (arrows_of_atOperator ho (by decide))).next (ih trivial (.refl _))
  | computed ho _ hm ih => exact ((hs.mark ho).next (ih trivial (.refl _))).mark hm
  | computedOptional hq ho _ hm ih =>
    have hi := (hs.token (arrows_of_atOperator hq (by decide))).mark ho
    exact (hi.next (ih trivial (.refl _))).mark hm
  | @call _ o _ _ hm _ ih =>
    have he := (hs.mark hm).next (ih ⟨trivial, rfl⟩ (.refl _))
    exact he.of_eq (congrArg (o.arrows + ·) (Kind.arrows_exprs _))
  | @callOptional _ o _ _ hq hm _ ih =>
    have hi := (hs.token (arrows_of_atOperator hq (by decide))).mark hm
    have he := hi.next (ih ⟨trivial, rfl⟩ (.refl _))
    exact he.of_eq (congrArg (o.arrows + ·) (Kind.arrows_exprs _))
  | linksNone => exact hs
  | linksMore _ _ iho ihr => exact ihr trivial (iho trivial hs)
  | chain _ _ iho ihr => exact ihr trivial (iho trivial hs)
  | noTrailing _ _ ih => exact ih trivial hs
  | trailingUpdate _ ho _ _ ih => exact (ih trivial hs).token (arrows_of_update ho)
  | leadingUpdate ho _ _ ih => exact ih trivial (hs.token (arrows_of_update ho))
  | unary _ hu _ ih => exact ih trivial (hs.token (arrows_of_unaryOf? hu))
  | noPrefix _ _ _ ih => exact ih trivial hs
  | noPower _ _ ih => exact ih trivial hs
  | power _ ho _ ih ihr =>
    exact ((ih trivial hs).token (arrows_of_power ho)).next (ihr trivial (.refl _))
  | ladderTop _ ih => exact ih trivial hs
  | ladderStep _ _ ih ihr =>
    have hl := List.subset_of_cons_subset hc
    exact ihr ⟨hc List.mem_cons_self, hl⟩ (ih hl hs)
  | climbStop => exact hs
  | climbMore ho _ _ ihr ih =>
    have hr := (hs.token (arrows_of_binaryOf? hc.1 ho)).next (ihr hc.2 (.refl _))
    exact ih hc (hr.of_eq (arrows_binaryNode ..).symm)
  | noConditional _ _ ih => exact ih (List.Subset.refl _) hs
  | conditional _ ho _ hm _ ih ihc iha =>
    have ht := (ih (List.Subset.refl _) hs).token (arrows_of_atOperator ho (by decide))
    have hc := (ht.next (ihc trivial (.refl _))).mark hm
    exact hc.next (iha trivial (.refl _))
  | blockArrow _ _ ho _ ihp ihb =>
    have hp := ((ihp trivial hs).of_eq (Kind.arrows_params _)).arrow ho
    exact (hp.next (ihb trivial (.refl _))).of_eq (Nat.add_right_comm ..)
  | arrow _ _ ho _ _ ihp ihe =>
    have hp := ((ihp trivial hs).of_eq (Kind.arrows_params _)).arrow ho
    exact (hp.next (ihe trivial (.refl _))).of_eq (Nat.add_right_comm ..)
  | noAssignment _ _ _ ih => exact ih trivial hs
  | assignment _ _ ho _ _ ih ihr =>
    exact ((ih trivial hs).token (arrows_of_assign ho)).next (ihr trivial (.refl _))
  | declaration _ _ ih => exact ih trivial hs
  | bareReturn hk _ he =>
    exact (hs.token (arrows_of_atKeyword hk)).token (arrows_of_statementEnd he)
  | «return» hk _ _ he ih =>
    exact (ih trivial (hs.token (arrows_of_atKeyword hk))).token (arrows_of_statementEnd he)
  | expression _ _ _ he ih => exact (ih trivial hs).token (arrows_of_statementEnd he)

/-- A program has as many arrow functions as there are `=>` among its tokens. -/
theorem ReadsAll.arrows_eq {i : Input} {ss : List Statement} (h : ReadsAll i ss) :
    i.arrows = arrowsOfStatements ss := by
  induction h with
  | done he => rw [Input.arrows, he]; rfl
  | empty hm _ ih => rw [← arrows_of_atMark hm, ih]
  | @next i s j ss _ hs _ ih =>
    have hr : i.arrows = j.arrows + s.arrows := counted_of_reads hs trivial (.refl i)
    rw [hr, ih, arrowsOfStatements, Nat.add_comm]

end TemplateExpr
