/-
  Trees that were read from tokens: their names have no context, and they have the shapes that
  `Expr.Printable` describes.

  * `unlabelled_of_reads`: a tree that was read is labelled as it is written.
  * `printable_of_reads`: it is printable if its tokens are single tokens by themselves.
-/
import TemplateExpr.Proofs.Grammar.Reads
import TemplateExpr.Proofs.Printing.Printable

namespace TemplateExpr
open Source (Span)
open Operator (Level)
open Production

/-- The operand that was read before the phrase. -/
def Phrase.given? {k : Kind} : Phrase k → Option Expr
  | .climb _ _ left => some left
  | .links operand | .link operand => some operand
  | .items item _ => item.given?
  | _ => none

/-! ## Labels -/

/-- The labels are those that are written. -/
def Kind.Unlabelled : (k : Kind) → k.type → Prop
  | .expr, e => e.relabel .lexical = e
  | .property, p => p.relabel .lexical = p
  | .param, p => p.relabel .lexical = p
  | .lambda, f => f.relabel .lexical = f
  | .body, b => b.relabel .lexical = b
  | .statement, s => s.relabel .lexical = s
  | .list of, as => ∀ a ∈ as, of.Unlabelled a

theorem map_eq_of_forall {α : Type} {f : α → α} {as : List α} (h : ∀ a ∈ as, f a = a) :
    as.map f = as :=
  (List.map_congr_left h).trans (List.map_id as)

/-- A name that was read is labelled as it is written. -/
theorem lexical_takeName? {i j : Input} {id : Identifier} (h : i.takeName? = some (id, j)) :
    Relabel.lexical.onName id = id := by
  obtain ⟨text, -, rfl, -⟩ := Input.takeName?_eq_some_iff.1 h
  rfl

theorem lexical_plainKey? {token : Token} {key : Expr} {alone : Bool}
    (h : plainKey? token = some (key, alone)) : key.relabel .lexical = key := by
  unfold plainKey? at h
  split at h <;> cases h <;> rfl

theorem lexical_atom? {token : Token} {e : Expr} (h : atom? token = some e) :
    e.relabel .lexical = e := by
  cases atomOf_of_atom? h <;> rfl

@[simp] theorem onSpan_lexical (span : Span) : Relabel.lexical.onSpan span = span := rfl

@[simp] theorem onName_lexical (text : String) (span : Span) :
    Relabel.lexical.onName ⟨text, none, span⟩ = ⟨text, none, span⟩ := rfl

theorem lexical_binaryNode {level : Level} {op : String} {l r : Expr}
    (hl : l.relabel .lexical = l) (hr : r.relabel .lexical = r) :
    (binaryNode level op l r).relabel .lexical = binaryNode level op l r := by
  unfold binaryNode
  split <;> simp [Expr.relabel, hl, hr]

theorem unlabelled_of_reads {k : Kind} {c : Phrase k} {i j : Input} {a : k.type}
    (h : Reads c i a j) (hg : ∀ e ∈ c.given?, e.relabel .lexical = e) : k.Unlabelled a := by
  induction h with
  | plainParam ht => exact congrArg Param.plain (lexical_takeName? ht)
  | defaultParam ht _ _ ih =>
    exact congr (congrArg (Param.withDefault · · _) (lexical_takeName? ht)) (ih nofun)
  | soleParam ht =>
    exact List.forall_mem_singleton.2 (congrArg Param.plain (lexical_takeName? ht))
  | namedFunction _ ht _ _ _ ihp ihb =>
    obtain ⟨text, -, rfl, -⟩ := Input.takeName?_eq_some_iff.1 ht
    have hp := map_eq_of_forall (ihp nofun)
    have hb := ihb nofun
    rw [← relabelParams_eq] at hp
    simp only [Kind.Unlabelled] at hb ⊢
    rw [Lambda.relabel, hp, hb]
    rfl
  | keyedProperty hk _ _ ih =>
    obtain ⟨token, rest, -, hk⟩ := Input.head?_bind_eq_some_iff.1 hk
    have hv := ih nofun
    simp only [Kind.Unlabelled] at hv ⊢
    rw [Property.relabel, lexical_plainKey? hk, hv, onSpan_lexical]
  | shorthand hk =>
    obtain ⟨token, rest, -, hk⟩ := Input.head?_bind_eq_some_iff.1 hk
    simp only [Kind.Unlabelled]
    rw [Property.relabel, lexical_plainKey? hk, onSpan_lexical]
  | atom ha =>
    obtain ⟨token, rest, -, ha⟩ := Input.head?_bind_eq_some_iff.1 ha
    exact lexical_atom? ha
  | climbMore _ _ _ ihr ih =>
    refine ih fun e he => ?_
    obtain rfl := Option.some.inj he
    exact lexical_binaryNode (hg _ rfl) (ihr nofun)
  -- The other rules build a node around parts that they read.
  | _ =>
    simp_all [Kind.Unlabelled, Phrase.given?, Expr.relabel, Property.relabel, Lambda.relabel,
      Body.relabel, Statement.relabel, relabelList_eq, relabelProperties_eq, relabelParams_eq,
      relabelStatements_eq, map_eq_of_forall]

/-! ## Shapes -/

/-- Every token is a fault, or a single token by itself. -/
def Input.Lexed (g : Grammar) (i : Input) : Prop :=
  ∀ token ∈ i.rest, token.lexeme.isFault = true ∨ Spelled g token.lexeme token.raw

section
variable {g : Grammar} {i j : Input} {lexeme : Lexeme} {text raw : String}

theorem Input.Lexed.leaves (h : i.Lexed g) (hl : i.Leaves j) : j.Lexed g :=
  fun token ht => h token (hl.subset ht)

theorem Input.Lexed.skip (h : i.Lexed g) : i.skip.Lexed g :=
  h.leaves i.leaves_skip

/-- The next token is a single token, unless it is a fault. -/
theorem Input.Lexed.spelled (h : i.Lexed g) {token : Token} {rest : List Token}
    (hr : i.rest = token :: rest) (hf : token.lexeme.isFault = false) :
    Spelled g token.lexeme token.raw := by
  have ht := h token (hr ▸ List.mem_cons_self)
  rw [hf] at ht
  exact ht.resolve_left nofun

theorem Spelled.raw_eq (h : Spelled g lexeme raw) (hs : lexeme.spelling? = some text) :
    raw = text := by
  have hf : lexeme.isFault = false := by
    cases lexeme with
    | fault => cases hs
    | _ => rfl
  obtain ⟨c, cs, hraw, -, hread⟩ := h.alone hf
  have hr : (Lexeme.read g c cs).1.spelling? = some text := by rw [hread]; exact hs
  have ht := Lexeme.spelling_read hr
  rw [hread, List.take_length, ← hraw, String.ofList_toList] at ht
  exact ht

theorem Spelled.known (h : Spelled g lexeme raw) (hf : lexeme.isFault = false) :
    lexeme.Known :=
  (h.alone hf).known hf

theorem Input.Lexed.name (h : i.Lexed g) (hl : i.lexeme? = some (.name text)) :
    Spelled g (.name text) text := by
  obtain ⟨token, rest, hr, ht⟩ := Input.lexeme?_eq_some_iff.1 hl
  have hs := h.spelled hr (by rw [ht]; rfl)
  rw [ht] at hs
  rwa [hs.raw_eq rfl] at hs

theorem Input.Lexed.spelled_takeName? (h : i.Lexed g) {id : Identifier}
    (ht : i.takeName? = some (id, j)) : Spelled g (.name id.written) id.written := by
  obtain ⟨text, hl, rfl, -⟩ := Input.takeName?_eq_some_iff.1 ht
  exact h.name hl

theorem Input.Lexed.word (h : i.Lexed g)
    (hl : i.lexeme? = some (.name text) ∨ i.lexeme? = some (.keyword text)) :
    IsWord g text := by
  obtain hl | hl := hl
  · exact .inl (h.name hl)
  · obtain ⟨token, rest, hr, ht⟩ := Input.lexeme?_eq_some_iff.1 hl
    have hs := h.spelled hr (by rw [ht]; rfl)
    rw [ht] at hs
    exact .inr (hs.known rfl)

theorem Input.Lexed.isKey (h : i.Lexed g) {key : Expr} {alone : Bool}
    (hk : i.rest.head?.bind plainKey? = some (key, alone)) :
    key.IsKey g ∧ (alone = true → key.IsShorthand g key) := by
  obtain ⟨⟨lexeme, raw, newline, span⟩, rest, hr, hk⟩ := Input.head?_bind_eq_some_iff.1 hk
  have hl : i.lexeme? = some lexeme := Input.lexeme?_eq_some_iff.2 ⟨_, rest, hr, rfl⟩
  cases lexeme with
  | name text => cases hk; exact ⟨h.word (.inl hl), fun _ => ⟨rfl, h.name hl⟩⟩
  | keyword text => cases hk; exact ⟨h.word (.inr hl), nofun⟩
  | text value => cases hk; exact ⟨h.spelled hr rfl, nofun⟩
  | number value => cases hk; exact ⟨h.spelled hr rfl, nofun⟩
  | mark | operator | fault => cases hk

theorem Input.Lexed.printable_atom? (h : i.Lexed g) {e : Expr}
    (ha : i.rest.head?.bind atom? = some e) : e.Printable g true := by
  obtain ⟨token, rest, hr, ha⟩ := Input.head?_bind_eq_some_iff.1 ha
  cases atomOf_of_atom? ha with
  | name => exact h.name (Input.lexeme?_eq_some_iff.2 ⟨_, rest, hr, rfl⟩)
  | number => exact ⟨rfl, h.spelled hr rfl⟩
  | text => exact h.spelled hr rfl
  | true | false | null => exact (h.spelled hr rfl).raw_eq rfl
  | this => trivial

end

theorem printableList_iff {g : Grammar} {full : Bool} {es : List Expr} :
    PrintableList g full es ↔ ∀ e ∈ es, e.Printable g full := by
  induction es with
  | nil => simp [PrintableList]
  | cons e es ih => simp [PrintableList, ih]

theorem printableProperties_iff {g : Grammar} {full : Bool} {ps : List Property} :
    PrintableProperties g full ps ↔ ∀ p ∈ ps, p.Printable g full := by
  induction ps with
  | nil => simp [PrintableProperties]
  | cons p ps ih => simp [PrintableProperties, ih]

theorem printableParams_iff {g : Grammar} {full : Bool} {ps : List Param} :
    PrintableParams g full ps ↔ ∀ p ∈ ps, p.Printable g full := by
  induction ps with
  | nil => simp [PrintableParams]
  | cons p ps ih => simp [PrintableParams, ih]

section
variable (g : Grammar)

/-- What is read for the phrase is printable, if the operand before it is. -/
def Phrase.Printed : {k : Kind} → Phrase k → k.type → Prop
  | _, .assignment, e | _, .conditional, e | _, .power, e | _, .prefixed, e | _, .postfixed, e
  | _, .chain, e | _, .primary, e | _, .sequence, e => e.Printable g true
  | _, .ladder levels, e => levels ⊆ Operator.levels → e.Printable g true
  | _, .climb level tighter left, e =>
    level :: tighter ⊆ Operator.levels → left.Printable g true → e.Printable g true
  | _, .links operand, e | _, .link operand, e =>
    operand.Printable g true → e.Printable g true
  | _, .memberName, e => e.IsName g
  | _, .others, es => ∀ e ∈ es, e.Printable g true
  | _, .items item _, as => ∀ a ∈ as, item.Printed a
  | _, .property, p => p.Printable g true
  | _, .param, p => p.Printable g true
  | _, .arrowParams, ps => ∀ p ∈ ps, p.Printable g true
  | _, .block, b => b.isBlock = true ∧ b.Printable g true
  | _, .blockStatements, ss => PrintableStatements g true true ss
  | _, .function declaration, f =>
    (declaration = true → f.id.isSome = true) ∧ f.body.isBlock = true ∧ f.Printable g true
  | _, .statement inBody, s => s.Printable g true inBody

end

theorem printable_binaryNode {g : Grammar} {level : Level} {op : String} {l r : Expr}
    (hm : level ∈ Operator.levels) (ho : op ∈ level.operators) (hl : l.Printable g true)
    (hr : r.Printable g true) : (binaryNode level op l r).Printable g true := by
  unfold binaryNode
  split
  · next hlog => exact ⟨⟨level, hm, hlog, ho⟩, hl, hr⟩
  · next hlog => exact ⟨.inr ⟨level, hm, by simpa using hlog, ho⟩, hl, hr⟩

theorem printable_of_reads {g : Grammar} {k : Kind} {c : Phrase k} {i j : Input} {a : k.type}
    (h : Reads c i a j) (hi : i.Lexed g) : c.Printed g a := by
  induction h with
  | itemsClose => exact nofun
  | itemsMore _ hr _ _ iha ihr =>
    exact List.forall_mem_cons.2 ⟨iha hi, ihr ((hi.leaves hr.leaves).skip)⟩
  | itemsLast _ _ _ _ iha => exact List.forall_mem_singleton.2 (iha hi)
  | othersNone => exact nofun
  | othersMore _ hr _ ih ihr =>
    have hs := hi.skip
    exact List.forall_mem_cons.2 ⟨ih hs, ihr (hs.leaves hr.leaves)⟩
  | single _ _ ih => exact ih hi
  | several hr _ ih ihr =>
    have hes := List.forall_mem_cons.2 ⟨ih hi, ihr (hi.leaves hr.leaves)⟩
    exact ⟨by simp, printableList_iff.2 hes⟩
  | plainParam ht => exact hi.spelled_takeName? ht
  | defaultParam ht _ _ ih =>
    have hj := (hi.leaves (Input.leaves_of_takeName? ht)).skip
    exact ⟨hi.spelled_takeName? ht, ih hj⟩
  | bodyEnd => trivial
  | bodyEmpty _ _ ih => exact ih hi.skip
  | bodyNext _ _ hr _ ih ihr => exact ⟨ih hi, ihr (hi.leaves hr.leaves)⟩
  | block _ _ ih => exact ⟨rfl, ih hi.skip⟩
  | namedFunction _ ht _ hr _ ihp ihb =>
    have hs := hi.skip
    have hj := (hs.leaves (Input.leaves_of_takeName? ht)).skip
    obtain ⟨hblock, hb⟩ := ihb (hj.leaves hr.leaves)
    refine ⟨fun _ => rfl, hblock, fun name hn => ?_, printableParams_iff.2 (ihp hj), hb⟩
    obtain rfl := Option.some.inj hn
    obtain ⟨text, hl, rfl, -⟩ := Input.takeName?_eq_some_iff.1 ht
    exact hs.name hl
  | namelessFunction _ _ hr _ ihp ihb =>
    have hs := hi.skip.skip
    obtain ⟨hblock, hb⟩ := ihb (hs.leaves hr.leaves)
    exact ⟨nofun, hblock, nofun, printableParams_iff.2 (ihp hs), hb⟩
  | paramList _ _ ih => exact ih hi.skip
  | soleParam ht => exact List.forall_mem_singleton.2 (hi.spelled_takeName? ht)
  | memberName hl => exact hi.word hl
  | computedProperty _ hr _ _ _ ihk ihv =>
    have hs := hi.skip
    have hj := (hs.leaves hr.leaves).skip
    exact ⟨ihk hs, ihv hj.skip⟩
  | keyedProperty hk _ _ ih =>
    have hs := hi.skip
    exact ⟨(hi.isKey hk).1, ih hs.skip⟩
  | shorthand hk => exact ⟨rfl, (hi.isKey hk).2 rfl⟩
  | atom ha => exact hi.printable_atom? ha
  | functionValue _ _ ih => exact ⟨rfl, (ih hi).2⟩
  | parens _ _ _ ih => exact ih hi.skip
  | array _ _ ih => exact printableList_iff.2 (ih hi.skip)
  | object _ _ ih => exact printableProperties_iff.2 (ih hi.skip)
  | named _ _ ih | namedOptional _ _ ih =>
    exact fun ho => ⟨ho, ih hi.skip⟩
  | computed _ _ _ ih => exact fun ho => ⟨ho, ih hi.skip⟩
  | computedOptional _ _ _ _ ih =>
    exact fun ho => ⟨ho, ih (hi.skip.skip)⟩
  | call _ _ ih =>
    exact fun ho => ⟨ho, printableList_iff.2 (ih hi.skip)⟩
  | callOptional _ _ _ ih =>
    have hs := hi.skip.skip
    exact fun ho => ⟨ho, printableList_iff.2 (ih hs)⟩
  | linksNone => exact id
  | linksMore hr _ ih ihr => exact fun ho => ihr (hi.leaves hr.leaves) (ih hi ho)
  | chain hr _ ih ihr => exact ihr (hi.leaves hr.leaves) (ih hi)
  | noTrailing _ _ ih => exact ih hi
  | trailingUpdate _ ho _ ht ih => exact ⟨(operatorOf?_eq_some_iff.1 ho).2, ht, ih hi⟩
  | leadingUpdate ho _ ht ih =>
    exact ⟨(operatorOf?_eq_some_iff.1 ho).2, ht, ih hi.skip⟩
  | unary _ hu _ ih =>
    have ho := (unaryOf?_eq_some_iff.1 hu).imp And.right And.right
    exact ⟨ho, ih hi.skip⟩
  | noPrefix _ _ _ ih => exact ih hi
  | noPower _ _ ih => exact ih hi
  | power hr _ _ ih ihr =>
    exact ⟨.inl rfl, ih hi, ihr ((hi.leaves hr.leaves).skip)⟩
  | ladderTop _ ih => exact fun _ => ih hi
  | ladderStep hr _ ih ihr =>
    exact fun hl => ihr (hi.leaves hr.leaves) hl (ih hi fun _ hm => hl (List.mem_cons_of_mem _ hm))
  | climbStop => exact fun _ => id
  | climbMore ho hr _ ihr ih =>
    intro hl hleft
    have hs := hi.skip
    have hright := ihr hs fun _ hm => hl (List.mem_cons_of_mem _ hm)
    exact ih (hs.leaves hr.leaves) hl (printable_binaryNode (hl List.mem_cons_self)
      (binaryOf?_eq_some_iff.1 ho).2 hleft hright)
  | noConditional _ _ ih => exact ih hi (List.Subset.refl _)
  | conditional hr _ hc _ _ ih ihc iha =>
    have hj := (hi.leaves hr.leaves).skip
    have hl := (hj.leaves hc.leaves).skip
    exact ⟨ih hi (List.Subset.refl _), ihc hj, iha hl⟩
  | blockArrow _ hr _ _ ihp ihb =>
    have hj := (hi.leaves hr.leaves).skip
    exact ⟨rfl, rfl, nofun, printableParams_iff.2 (ihp hi), (ihb hj).2⟩
  | arrow _ hr _ _ _ ihp ihe =>
    have hj := (hi.leaves hr.leaves).skip
    exact ⟨rfl, rfl, nofun, printableParams_iff.2 (ihp hi), ihe hj⟩
  | noAssignment _ _ _ ih => exact ih hi
  | assignment _ hr ho ht _ ih ihr =>
    have hj := (hi.leaves hr.leaves).skip
    exact ⟨(operatorOf?_eq_some_iff.1 ho).2, ht, ih hi, ihr hj⟩
  | declaration _ _ ih =>
    obtain ⟨hid, hb, hf⟩ := ih hi
    exact ⟨rfl, hid rfl, hb, hf⟩
  | bareReturn => exact rfl
  | «return» _ _ _ _ ih => exact ⟨rfl, ih hi.skip⟩
  | expression _ _ _ _ ih => exact ih hi

/-! ## Programs -/

theorem unlabelled_of_readsAll {i : Input} {ss : List Statement} (h : ReadsAll i ss) :
    relabelStatements .lexical ss = ss := by
  rw [relabelStatements_eq]
  refine map_eq_of_forall fun s hs => ?_
  obtain ⟨i', j', -, hr⟩ := h.reads_of_mem hs
  exact unlabelled_of_reads hr nofun

theorem printable_of_readsAll {g : Grammar} {i : Input} {ss : List Statement} (h : ReadsAll i ss)
    (hi : i.Lexed g) : PrintableStatements g true false ss := by
  induction h with
  | done => trivial
  | empty _ _ ih => exact ih hi.skip
  | next _ hr _ ih => exact ⟨printable_of_reads hr hi, ih (hi.leaves hr.leaves)⟩

end TemplateExpr
