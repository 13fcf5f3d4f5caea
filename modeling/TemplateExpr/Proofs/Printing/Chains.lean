/-
  Chains of operators: names with a binary operator between each and the next. The grammar reads
  them through eleven productions, each over the one before; what they come to is one table. A
  chain has one tree that is grouped by the tiers of the table, and the chain is read as it.

  * `OperatorTree.groups_ofChain`: a chain has such a tree, built from the left by pushing each
    operator down the right edge.
  * `OperatorTree.written_toExpr`: the printer writes such a tree without parentheses.
  * `OperatorTree.ofText_of_groups`: so the text of the chain is read as such a tree.
  * `Program.ofText_chain`: it is the only one.
-/
import TemplateExpr.Proofs.Printing.RoundTrip
import TemplateExpr.Proofs.Token.Names

namespace TemplateExpr
open Source Text

/-! ## The table -/

namespace Operator

/-- The binary operators, from the loosest to the tightest. -/
def tiers : List (List String) :=
  [["||", "??"], ["&&"], ["|"], ["^"], ["&"], ["==", "!=", "===", "!=="],
   ["<", ">", "<=", ">=", "in", "instanceof"], ["<<", ">>", ">>>"], ["+", "-"], ["*", "/", "%"],
   ["**"]]

/-- How tightly the operator binds. -/
def tier (op : String) : Nat :=
  tiers.findIdx (·.contains op)

/-- The operator may be that of the left operand, without parentheses. -/
def FitsLeft (op inner : String) : Prop :=
  if op = "**" then tier op < tier inner else tier op ≤ tier inner

/-- The operator may be that of the right operand, without parentheses. -/
def FitsRight (op inner : String) : Prop :=
  if op = "**" then tier op ≤ tier inner else tier op < tier inner

instance (op inner : String) : Decidable (FitsLeft op inner) :=
  inferInstanceAs (Decidable (if op = "**" then tier op < tier inner else tier op ≤ tier inner))

instance (op inner : String) : Decidable (FitsRight op inner) :=
  inferInstanceAs (Decidable (if op = "**" then tier op ≤ tier inner else tier op < tier inner))

theorem eq_power_of_tier {op : String} (h : tier op = tier "**") : op = "**" := by
  have hlast : tier "**" = 10 := by decide
  rw [hlast] at h
  have hlt : tiers.findIdx (·.contains op) < tiers.length := by
    change tier op < 11
    omega
  have hfound := List.findIdx_getElem (w := hlt)
  simp only [show tiers.findIdx (·.contains op) = 10 from h] at hfound
  simpa [tiers] using hfound

/-- Of two operators one belongs into an operand of the other. -/
theorem fitsRight_of_not_fitsLeft {op inner : String} (h : ¬ FitsLeft op inner) :
    FitsRight inner op := by
  unfold FitsLeft at h
  unfold FitsRight
  split at h
  · next hop =>
    subst hop
    split
    · next hinner => exact Nat.le_of_eq (by rw [hinner])
    · next hinner =>
      have hne : tier inner ≠ tier "**" := fun he => hinner (eq_power_of_tier he)
      omega
  · split <;> omega

end Operator

/-! ## Trees of operators -/

/-- A tree of binary operations on names. -/
inductive OperatorTree where
  | name (name : String)
  | operation (op : String) (left right : OperatorTree)
deriving DecidableEq, Repr

namespace OperatorTree

/-- The operator of the whole tree. -/
def top? : OperatorTree → Option String
  | name _ => none
  | operation op _ _ => some op

/-- The first name of the tree, from the left to the right. -/
def first : OperatorTree → String
  | name x => x
  | operation _ left _ => left.first

/-- The operators behind the first name, each with the name behind it. -/
def others : OperatorTree → List (String × String)
  | name _ => []
  | operation op left right => left.others ++ (op, right.first) :: right.others

/-- Looser operators are further up; of equally tight ones the right one is, and with powers the
    left one. -/
def Grouped : OperatorTree → Prop
  | name _ => True
  | operation op left right =>
    (∀ inner ∈ left.top?, Operator.FitsLeft op inner) ∧
      (∀ inner ∈ right.top?, Operator.FitsRight op inner) ∧ left.Grouped ∧ right.Grouped

instance instDecidableGrouped : (tree : OperatorTree) → Decidable tree.Grouped
  | name _ => .isTrue trivial
  | operation op left right =>
    have := instDecidableGrouped left
    have := instDecidableGrouped right
    inferInstanceAs (Decidable ((∀ inner ∈ left.top?, Operator.FitsLeft op inner) ∧
      (∀ inner ∈ right.top?, Operator.FitsRight op inner) ∧ left.Grouped ∧ right.Grouped))

/-- The tree has the names and operators of a chain in their order, and is grouped by their
    tiers. -/
structure Groups (tree : OperatorTree) (first : String) (others : List (String × String)) :
    Prop where
  first : tree.first = first
  others : tree.others = others
  grouped : tree.Grouped

/-- The tree as an expression without places. -/
def toExpr : OperatorTree → Expr
  | name x => .identifier ⟨x, none, .nowhere⟩
  | operation op left right =>
    if op ∈ ["||", "??", "&&"] then .logical op left.toExpr right.toExpr .nowhere
    else .binary op left.toExpr right.toExpr .nowhere

/-- The tree with one more operator and name at its end. The operator goes down the right edge,
    as far as it is tighter than what it meets. -/
def push : OperatorTree → String → String → OperatorTree
  | name x, op, y => operation op (name x) (name y)
  | operation upper left right, op, y =>
    if Operator.FitsLeft op upper then operation op (operation upper left right) (name y)
    else operation upper left (right.push op y)

/-- The tree of a chain. -/
def ofChain (first : String) (others : List (String × String)) : OperatorTree :=
  others.foldl (fun tree link => tree.push link.1 link.2) (name first)

/-- The text of a chain, with spaces around the operators. -/
def chainText (first : String) : List (String × String) → String
  | [] => first
  | (op, x) :: others => first ++ " " ++ op ++ " " ++ chainText x others

/-! ## Pushing operators -/

section
variable {tree left right : OperatorTree} {op x y : String}

theorem first_push (tree : OperatorTree) (op y : String) : (tree.push op y).first = tree.first := by
  cases tree with
  | name => rfl
  | operation upper left right =>
    rw [push]
    split <;> rfl

theorem others_push (tree : OperatorTree) (op y : String) :
    (tree.push op y).others = tree.others ++ [(op, y)] := by
  induction tree with
  | name => rfl
  | operation upper left right _ ih =>
    rw [push]
    split
    · rfl
    · rw [others, others, ih, first_push, List.append_assoc, List.cons_append]

/-- On top of the pushed tree is the operator, or what was there before. -/
theorem mem_top?_push {inner : String} (h : inner ∈ (tree.push op y).top?) :
    inner = op ∨ inner ∈ tree.top? := by
  cases tree with
  | name => exact .inl (Option.some.inj h).symm
  | operation upper left right =>
    rw [push] at h
    split at h
    · exact .inl (Option.some.inj h).symm
    · exact .inr h

theorem Grouped.push (h : tree.Grouped) (op y : String) : (tree.push op y).Grouped := by
  induction tree with
  | name => exact ⟨by simp [top?], by simp [top?], trivial, trivial⟩
  | operation upper left right _ ih =>
    obtain ⟨hleft, hright, hl, hr⟩ := h
    rw [OperatorTree.push]
    split
    · next hfits =>
      refine ⟨fun inner hinner => ?_, by simp [top?], ⟨hleft, hright, hl, hr⟩, trivial⟩
      rwa [← Option.some.inj hinner]
    · next hfits =>
      refine ⟨hleft, fun inner hinner => ?_, hl, ih hr⟩
      obtain rfl | hinner := mem_top?_push hinner
      · exact Operator.fitsRight_of_not_fitsLeft hfits
      · exact hright inner hinner

/-- Every chain has a tree that is grouped by the tiers. -/
theorem groups_ofChain (first : String) (others : List (String × String)) :
    (ofChain first others).Groups first others := by
  have run : ∀ (others : List (String × String)) (tree : OperatorTree), tree.Grouped →
      (others.foldl (fun tree link => tree.push link.1 link.2) tree).Groups tree.first
        (tree.others ++ others) := by
    intro others
    induction others with
    | nil => exact fun tree h => ⟨rfl, (List.append_nil _).symm, h⟩
    | cons link others ih =>
      intro tree h
      have hrest := ih (tree.push link.1 link.2) (h.push link.1 link.2)
      rwa [first_push, others_push, List.append_assoc] at hrest
  exact run others (name first) trivial

end

/-! ## The printed tree -/

theorem chainText_append (first : String) (before : List (String × String)) (op x : String)
    (after : List (String × String)) :
    chainText first (before ++ (op, x) :: after) =
      chainText first before ++ " " ++ op ++ " " ++ chainText x after := by
  induction before generalizing first with
  | nil => rfl
  | cons link before ih =>
    obtain ⟨op', y⟩ := link
    rw [List.cons_append, chainText, ih, chainText]
    simp only [String.append_assoc]

/-- The printer has the same table, above the looser kinds of expressions. -/
theorem ofBinary_eq {op : String} (h : op ∈ Operator.tiers.flatten) :
    Precedence.ofBinary op = Operator.tier op + 4 := by
  have table : ∀ op ∈ Operator.tiers.flatten,
      Precedence.ofBinary op = Operator.tier op + 4 := by decide
  exact table op h

theorem tier_lt {op : String} (h : op ∈ Operator.tiers.flatten) : Operator.tier op < 11 := by
  have table : ∀ op ∈ Operator.tiers.flatten, Operator.tier op < 11 := by decide
  exact table op h

/-- The operators are those of the language. -/
def Known (tree : OperatorTree) : Prop :=
  ∀ link ∈ tree.others, link.1 ∈ Operator.tiers.flatten

section
variable {tree left right : OperatorTree} {op : String}

theorem Known.operation (h : (OperatorTree.operation op left right).Known) :
    op ∈ Operator.tiers.flatten ∧ left.Known ∧ right.Known :=
  ⟨h (op, right.first) (List.mem_append_right _ List.mem_cons_self),
    fun link hl => h link (List.mem_append_left _ hl),
    fun link hl => h link (List.mem_append_right _ (List.mem_cons_of_mem _ hl))⟩

theorem precedence_toExpr (op : String) (left right : OperatorTree) :
    (operation op left right).toExpr.precedence = Precedence.ofBinary op := by
  rw [toExpr]
  split <;> rfl

theorem leftMinimum_le (hop : op ∈ Operator.tiers.flatten) (hk : tree.Known)
    (h : ∀ inner ∈ tree.top?, Operator.FitsLeft op inner) :
    leftMinimum op ≤ tree.toExpr.precedence := by
  have hlt := tier_lt hop
  rw [leftMinimum, ofBinary_eq hop]
  cases tree with
  | name =>
    change _ ≤ 18
    split <;> omega
  | operation inner left right =>
    have hfits := h inner rfl
    rw [Operator.FitsLeft] at hfits
    rw [precedence_toExpr, ofBinary_eq hk.operation.1, Operator.power]
    split at hfits
    · next he => rw [if_pos he]; omega
    · next he => rw [if_neg he]; omega

theorem rightMinimum_le (hop : op ∈ Operator.tiers.flatten) (hk : tree.Known)
    (h : ∀ inner ∈ tree.top?, Operator.FitsRight op inner) :
    rightMinimum op ≤ tree.toExpr.precedence := by
  have hlt := tier_lt hop
  rw [rightMinimum, ofBinary_eq hop]
  cases tree with
  | name =>
    change _ ≤ 18
    split <;> omega
  | operation inner left right =>
    have hfits := h inner rfl
    rw [Operator.FitsRight] at hfits
    rw [precedence_toExpr, ofBinary_eq hk.operation.1, Operator.power]
    split at hfits
    · next he => rw [if_pos he]; omega
    · next he => rw [if_neg he]; omega

/-- A tree that is grouped by the tiers needs no parentheses. -/
theorem written_toExpr (hg : tree.Grouped) (hk : tree.Known) :
    tree.toExpr.written = chainText tree.first tree.others := by
  induction tree with
  | name => rfl
  | operation op left right ihl ihr =>
    obtain ⟨hleft, hright, hgl, hgr⟩ := hg
    obtain ⟨hop, hkl, hkr⟩ := hk.operation
    have hnone : ∀ {minimum : Nat} {e : Expr}, minimum ≤ e.precedence →
        grouped (e.precedence < minimum) e.written = e.written := fun hle => by
      rw [decide_eq_false (Nat.not_lt_of_le hle)]
      rfl
    have hwritten : (OperatorTree.operation op left right).toExpr.written =
        left.toExpr.written ++ " " ++ op ++ " " ++ right.toExpr.written := by
      rw [toExpr]
      split <;> rw [Expr.written, hnone (leftMinimum_le hop hkl hleft),
        hnone (rightMinimum_le hop hkr hright)]
    rw [hwritten, ihl hgl hkl, ihr hgr hkr, others, chainText_append]
    rfl

theorem toExpr_injective {other : OperatorTree} (h : tree.toExpr = other.toExpr) :
    tree = other := by
  induction tree generalizing other with
  | name x =>
    cases other with
    | name y => cases h; rfl
    | operation =>
      rw [toExpr, toExpr] at h
      split at h <;> cases h
  | operation op left right ihl ihr =>
    cases other with
    | name =>
      rw [toExpr, toExpr] at h
      split at h <;> cases h
    | operation op' left' right' =>
      have hparts : op = op' ∧ left.toExpr = left'.toExpr ∧ right.toExpr = right'.toExpr := by
        rw [toExpr, toExpr] at h
        split at h
        · split at h
          · obtain ⟨ho, hl, hr, -⟩ := Expr.logical.inj h
            exact ⟨ho, hl, hr⟩
          · cases h
        · split at h
          · cases h
          · obtain ⟨ho, hl, hr, -⟩ := Expr.binary.inj h
            exact ⟨ho, hl, hr⟩
      obtain ⟨rfl, hl, hr⟩ := hparts
      rw [ihl hl, ihr hr]

/-- The tree is what its names are written with, without places, already. -/
theorem relabel_bare_toExpr (tree : OperatorTree) : tree.toExpr.relabel .bare = tree.toExpr := by
  induction tree with
  | name => rfl
  | operation op left right ihl ihr =>
    rw [toExpr]
    split <;> rw [Expr.relabel, ihl, ihr] <;> rfl

end

end OperatorTree

/-! ## Reading a chain -/

/-- The names of a chain are names of the grammar, and its operators are those of the language. -/
structure ChainOf (g : Grammar) (first : String) (others : List (String × String)) : Prop where
  first : NameText g first.toList
  others : ∀ link ∈ others, link.1 ∈ Operator.tiers.flatten ∧ NameText g link.2.toList

section
variable {g : Grammar} {first : String} {others : List (String × String)} {tree : OperatorTree}
open OperatorTree (chainText)

theorem isOperator_of_mem_tiers {op : String} (h : op ∈ Operator.tiers.flatten) :
    if op ∈ ["||", "??", "&&"] then IsOperator true op
    else op = Operator.power ∨ IsOperator false op := by
  have table : ∀ op ∈ Operator.tiers.flatten, if op ∈ ["||", "??", "&&"] then IsOperator true op
      else op = Operator.power ∨ IsOperator false op := by
    unfold IsOperator
    decide
  exact table op h

theorem ChainOf.printable (h : ChainOf g tree.first tree.others) :
    tree.toExpr.Printable g false := by
  induction tree with
  | name => exact spelled_name_iff.2 h.first
  | operation op left right ihl ihr =>
    obtain ⟨hop, hright⟩ :=
      h.others (op, right.first) (List.mem_append_right _ List.mem_cons_self)
    have hl := ihl ⟨h.first, fun link hl => h.others link (List.mem_append_left _ hl)⟩
    have hr := ihr ⟨hright, fun link hl =>
      h.others link (List.mem_append_right _ (List.mem_cons_of_mem _ hl))⟩
    have ho := isOperator_of_mem_tiers hop
    rw [OperatorTree.toExpr]
    split
    · next hlogical => exact ⟨by rwa [if_pos hlogical] at ho, hl, hr⟩
    · next hlogical => exact ⟨by rwa [if_neg hlogical] at ho, hl, hr⟩

/-- The characters of a name in front of something else. -/
theorem takeWhile_name {c : Char} {cs rest : List Char} (hc : isNameStart c = true)
    (hcs : ∀ d ∈ cs, isNamePart d = true) (hr : NoName rest) :
    (c :: cs ++ rest).takeWhile isNamePart = c :: cs := by
  rw [takeWhile_append_of_head hr, List.takeWhile_eq_self_iff]
  exact List.forall_mem_cons.2 ⟨isNamePart_of_isNameStart hc, hcs⟩

/-- A text that begins with a name does not begin with the reserved word of functions. -/
theorem readsAsDeclaration_of_nameText {x rest : String} (hx : NameText g x.toList)
    (hr : NoName rest.toList) : readsAsDeclaration (x ++ rest) = false := by
  rw [Bool.eq_false_iff]
  intro h
  simp only [readsAsDeclaration, Bool.and_eq_true, List.isPrefixOf_iff_prefix,
    String.toList_append] at h
  obtain ⟨⟨more, hmore⟩, hnext⟩ := h
  rw [← hmore, show 8 = "function".toList.length from rfl, List.drop_left] at hnext
  have hnone : NoName more := by
    cases more with
    | nil => rfl
    | cons d more => simpa [NoName] using hnext
  have hletters : "unction".toList.all isNamePart = true := by decide
  have hfunction : ("function".toList ++ more).takeWhile isNamePart = "function".toList :=
    @takeWhile_name 'f' "unction".toList more (by decide) (List.all_eq_true.1 hletters) hnone
  generalize hraw : x.toList = raw at hx hmore
  cases hx with
  | @sigil sigil =>
    -- no sigil is the letter that the reserved word begins with
    cases sigil <;> cases hmore
  | @word c cs _ hc hcs hk =>
    rw [hmore, takeWhile_name hc hcs hr] at hfunction
    rw [hfunction, String.ofList_toList] at hk
    exact hk (by decide)

theorem noName_chain (first : String) (others : List (String × String)) :
    ∃ rest, chainText first others = first ++ rest ∧ NoName rest.toList := by
  cases others with
  | nil => exact ⟨"", by rw [chainText, String.append_empty], rfl⟩
  | cons link others =>
    obtain ⟨op, x⟩ := link
    refine ⟨" " ++ op ++ " " ++ chainText x others, ?_, ?_⟩
    · rw [chainText]
      simp only [String.append_assoc]
    · have hspace : " ".toList = [' '] := rfl
      rw [String.append_assoc, String.append_assoc, String.toList_append, hspace, NoName,
        List.singleton_append, List.head?_cons, Option.any_some, isNamePart_space]

/-- The text of a chain is one statement, the expression of any tree that groups the chain. -/
theorem OperatorTree.ofText_of_groups (h : tree.Groups first others) (hc : ChainOf g first others)
    (origin : Option Origin) (url : Option String) :
    ∃ e span whole, Program.ofText g origin url (chainText first others).toList =
        .ok ⟨[.expression e span], whole, url⟩ ∧ e.erased = tree.toExpr := by
  obtain ⟨rfl, rfl, hgrouped⟩ := h
  have hprintable := hc.printable
  have hwritten := written_toExpr hgrouped fun link hl => (hc.others link hl).1
  have hplain : readsAsDeclaration tree.toExpr.written = false := by
    obtain ⟨rest, htext, hrest⟩ := noName_chain tree.first tree.others
    rw [hwritten, htext]
    exact readsAsDeclaration_of_nameText hc.first hrest
  have hstatements : PrintableStatements g false false [.expression tree.toExpr .nowhere] :=
    ⟨hprintable, trivial⟩
  have hlegible : legibleStatements [.expression tree.toExpr .nowhere] = true := by
    rw [legibleStatements, Statement.legible, Expr.legible_of_plain _ hprintable]
    rfl
  obtain ⟨body, whole, hp, hb⟩ := Program.ofText_written
    (p := ⟨[.expression tree.toExpr .nowhere], .nowhere, url⟩) hstatements hlegible origin url
  have htext : (Program.mk [.expression tree.toExpr .nowhere] .nowhere url).written =
      chainText tree.first tree.others := by
    rw [← hwritten]
    change grouped (readsAsDeclaration tree.toExpr.written) tree.toExpr.written = _
    rw [hplain]
    rfl
  rw [htext] at hp
  change _ = [Statement.expression (tree.toExpr.relabel .bare) .nowhere] at hb
  rw [relabelStatements_eq, List.map_eq_singleton_iff, tree.relabel_bare_toExpr] at hb
  obtain ⟨s, rfl, hs⟩ := hb
  cases s with
  | expression e span => exact ⟨e, span, whole, hp, (Statement.expression.inj hs).1⟩
  | «return» argument => cases argument <;> cases hs
  | declaration => cases hs

end

/-- A chain of names is one statement. Its expression is the one tree with these names and
    operators in their order that is grouped by the tiers. -/
theorem Program.ofText_chain {g : Grammar} {first : String} {others : List (String × String)}
    (h : ChainOf g first others) (origin : Option Origin) (url : Option String) :
    ∃ tree : OperatorTree, tree.Groups first others ∧
      (∀ other : OperatorTree, other.Groups first others → other = tree) ∧
      ∃ e span whole,
        Program.ofText g origin url (OperatorTree.chainText first others).toList =
          .ok ⟨[.expression e span], whole, url⟩ ∧ e.erased = tree.toExpr := by
  have hgroups := OperatorTree.groups_ofChain first others
  obtain ⟨e, span, whole, hp, he⟩ := OperatorTree.ofText_of_groups hgroups h origin url
  refine ⟨_, hgroups, fun other hother => ?_, e, span, whole, hp, he⟩
  -- the text has one answer, so the other tree is the same expression
  obtain ⟨e', span', whole', hp', he'⟩ := OperatorTree.ofText_of_groups hother h origin url
  rw [hp] at hp'
  obtain rfl : e = e' := by
    have hbody := congrArg Program.body (Except.ok.inj hp')
    exact (Statement.expression.inj (List.cons.inj hbody).1).1
  exact OperatorTree.toExpr_injective (he'.symm.trans he)

/-- `a ?? b in #c ** d ** e - f`. -/
theorem ofText_chain_powers :
    let others := [("??", "b"), ("in", "#c"), ("**", "d"), ("**", "e"), ("-", "f")]
    let tree : OperatorTree := .operation "??" (.name "a") (.operation "in" (.name "b")
      (.operation "-" (.operation "**" (.name "#c") (.operation "**" (.name "d") (.name "e")))
        (.name "f")))
    OperatorTree.chainText "a" others = "a ?? b in #c ** d ** e - f" ∧
    (∀ other : OperatorTree, other.Groups "a" others → other = tree) ∧
    ∃ e span whole, Program.ofText .template none none
        "a ?? b in #c ** d ** e - f".toList = .ok ⟨[.expression e span], whole, none⟩ ∧
      e.erased = tree.toExpr := by
  intro others tree
  have letter : ∀ c : Char, Grammar.template.sigil? c = none → isNameStart c = true →
      String.ofList [c] ∉ Symbol.keywords → NameText .template [c] :=
    fun c hs hn hk => .word hs hn (List.forall_mem_nil _) hk
  have hc : ChainOf .template "a" others := by
    refine ⟨letter 'a' (by decide) (by decide) (by decide), ?_⟩
    simp only [others, List.forall_mem_cons]
    exact ⟨⟨by decide, letter 'b' (by decide) (by decide) (by decide)⟩,
      ⟨by decide, @NameText.sigil .template .state 'c' [] rfl (by decide) (List.forall_mem_nil _)⟩,
      ⟨by decide, letter 'd' (by decide) (by decide) (by decide)⟩,
      ⟨by decide, letter 'e' (by decide) (by decide) (by decide)⟩,
      ⟨by decide, letter 'f' (by decide) (by decide) (by decide)⟩, List.forall_mem_nil _⟩
  have hgroups : tree.Groups "a" others := ⟨rfl, rfl, by decide⟩
  obtain ⟨found, -, hunique, hread⟩ := Program.ofText_chain hc none none
  obtain rfl : tree = found := hunique tree hgroups
  exact ⟨rfl, hunique, hread⟩

end TemplateExpr
