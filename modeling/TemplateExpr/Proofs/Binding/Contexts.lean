/-
  Where the contexts of a classified program come from. The reader of tokens asks the grammar
  which characters are sigils; the classification does not ask it, and splits off every `#`, `@`
  and `$` that a name begins with. The two agree but for one case: `$` starts a name where it is
  no sigil.

  * `resolve_of_nameText`: the two rules on one name.
  * `Dialect.sourced_iff_of_analyse`: the contexts come from sigils that the grammar accepts, and
    names are left behind them, unless it is `$` that was split off where it is no sigil.
  * `analyse_strayDollar`: then the name that is left may be no name.
-/
import TemplateExpr.Template
import TemplateExpr.Proofs.Binding.References
import TemplateExpr.Proofs.Printing.OfText
import TemplateExpr.Proofs.Token.Names

namespace TemplateExpr
open Text

/-- The context is that of a sigil of the grammar, or of none, and a name stands behind the
    sigil. -/
def Identifier.Sourced (g : Grammar) (id : Identifier) : Prop :=
  ∀ context, id.context = some context →
    (∀ sigil, context.sigil? = some sigil → g.accepts sigil = true) ∧
      id.name.toList.head?.any isNameStart = true

section
variable {g : Grammar} {helpers : Names} {name bare : String} {context : Context}

/-- Only one sigil could start a name. -/
theorem Sigil.eq_store_of_isNameStart {sigil : Sigil} (h : isNameStart sigil.char = true) :
    sigil = .store := by
  rw [isNameStart_ascii (by cases sigil <;> decide)] at h
  cases sigil with
  | state => cases h
  | scope => cases h
  | store => rfl

theorem resolve_of_sigil {sigil : Sigil} {cs : List Char} (h : name.toList = sigil.char :: cs) :
    resolve helpers name = (sigil.context, String.ofList cs) := by
  rw [resolve, sigilAndName, h]
  dsimp only
  rw [Sigil.ofChar?_char]

theorem resolve_of_no_sigil {c : Char} {cs : List Char} (h : name.toList = c :: cs)
    (hc : Sigil.ofChar? c = none) : resolve helpers name =
      (if helpers.contains name then .helper else .property, name) := by
  rw [resolve, sigilAndName, h]
  dsimp only
  rw [hc]
  dsimp only
  split <;> rfl

/-- The reader of tokens and the classification split the same names, but for those that begin
    with `$` when it is no sigil. -/
theorem resolve_of_nameText (h : NameText g name.toList)
    (hr : resolve helpers name = (context, bare)) :
    ((∀ sigil, context.sigil? = some sigil → g.accepts sigil = true) ∧
      bare.toList.head?.any isNameStart = true) ∨ (context = .store ∧ g.store = false) := by
  generalize htext : name.toList = text at h
  cases h with
  | @sigil sigil c cs ha hc hcs =>
    rw [resolve_of_sigil htext] at hr
    obtain ⟨rfl, rfl⟩ := Prod.mk.inj hr
    refine .inl ⟨fun other ho => ?_, ?_⟩
    · have hsame : some sigil = some other :=
        ((Context.sigil?_eq_some_iff _ _).2 rfl).symm.trans ho
      cases hsame
      exact ha
    · rw [String.toList_ofList]
      exact hc
  | @word c cs hs hc hcs hk =>
    cases ho : Sigil.ofChar? c with
    | none =>
      rw [resolve_of_no_sigil htext ho] at hr
      obtain ⟨rfl, rfl⟩ := Prod.mk.inj hr
      refine .inl ⟨fun sigil hsigil => ?_, ?_⟩
      · split at hsigil <;> cases hsigil
      · rw [htext]
        exact hc
    | some sigil =>
      -- the character is `$`, and no sigil of the grammar
      obtain rfl := Sigil.char_of_ofChar? ho
      obtain rfl := Sigil.eq_store_of_isNameStart hc
      rw [resolve_of_sigil htext] at hr
      obtain ⟨rfl, -⟩ := Prod.mk.inj hr
      refine .inr ⟨rfl, ?_⟩
      cases hg : g.store with
      | false => rfl
      | true =>
        have hdollar : g.sigil? Sigil.store.char = some .store :=
          Grammar.sigil?_eq_some_iff.2 ⟨rfl, hg⟩
        rw [hs] at hdollar
        cases hdollar

/-- An identifier that is classified, when its name is one of the grammar. -/
theorem Identifier.sourced_scoped {v : Vocabulary} {bound : Finset String} {standing : Standing}
    {id : Identifier} (hnone : id.context = none) (hname : NameText g id.name.toList)
    (hsome : (id.scoped v bound standing).context.isSome = true) :
    (id.scoped v bound standing).Sourced g ↔
      ((id.scoped v bound standing).context = some .store → g.store = true) := by
  unfold Identifier.scoped at hsome ⊢
  split
  · constructor
    · intro hsourced hstore
      exact (hsourced .store hstore).1 .store rfl
    · intro hstore context hcontext
      obtain rfl := Option.some.inj hcontext
      obtain hfine | ⟨hc, hg⟩ :=
        resolve_of_nameText hname (Prod.eta (resolve v.helpers id.name)).symm
      · exact hfine
      · rw [hstore (congrArg some hc)] at hg
        cases hg
  · next hkeep =>
    rw [if_neg hkeep, hnone] at hsome
    cases hsome

end

/-- Every identifier with a context is, with its sigil, a name of the grammar. Its context comes
    from a sigil of the grammar, with a name behind it, if and only if it is not that of a
    store, or `$` is such a sigil. -/
theorem Dialect.sourced_iff_of_analyse {dialect : Dialect} {around : Surroundings}
    {code : String} {program : Program} (h : dialect.analyse around code = .ok program) :
    ∀ id ∈ program.identifiers, id.context.isSome = true →
      NameText dialect.grammar id.written.toList ∧
      (id.Sourced dialect.grammar ↔ (id.context = some .store → dialect.grammar.store = true)) := by
  obtain ⟨parsed, hp, rfl⟩ := analyse_eq_ok_iff.1 h
  intro id' hid' hsome
  obtain ⟨id, hid, rfl | ⟨hs, bound, standing, rfl⟩⟩ :=
    Program.stems_classify (v := dialect.vocabulary around) (Program.printable_of_ofText hp) id'
      hid'
  · rw [Program.context_of_ofText hp id' hid] at hsome
    cases hsome
  · have hnone := Program.context_of_ofText hp id hid
    have hname := spelled_name_iff.1 hs
    rw [Identifier.written_scoped _ bound standing hnone]
    refine ⟨hname, ?_⟩
    have hplain : id.written = id.name := by
      rw [Identifier.written, hnone]
      rfl
    rw [hplain] at hname
    exact Identifier.sourced_scoped hnone hname hsome

/-- In the template grammar every context comes from its sigil. -/
theorem analyse_sourced_template : ∃ program,
    ({} : Dialect).analyse {} "#a + f(@b, $c)" = .ok program ∧
    program.identifiers.map (fun id => (id.context, id.name)) =
      [(some .state, "a"), (some .property, "f"), (some .scope, "b"), (some .store, "c")] ∧
    ∀ id ∈ program.identifiers, id.context.isSome = true → id.Sourced .template := by
  have hids : (({} : Dialect).analyse {} "#a + f(@b, $c)").toOption.map
      (fun program => program.identifiers.map fun id => (id.context, id.name)) =
      some [(some .state, "a"), (some .property, "f"), (some .scope, "b"), (some .store, "c")] := by
    decide +kernel
  obtain ⟨program, hp, hids⟩ := Option.map_eq_some_iff.1 hids
  have h := Production.eq_ok_of_toOption hp
  exact ⟨program, h, hids, fun id hid hsome =>
    (Dialect.sourced_iff_of_analyse h id hid hsome).2.2 fun _ => rfl⟩

/-- Without sigils `$` and `$1` are names, which are classified as stores with the names that
    are left of them: none, and `1`. -/
theorem analyse_strayDollar :
    let dialect : Dialect := { grammar := .base }
    ∃ program, dialect.analyse {} "$ + $1" = .ok program ∧
      program.identifiers.map (fun id => (id.context, id.name)) =
        [(some .store, ""), (some .store, "1")] ∧
      ∀ id ∈ program.identifiers, ¬ id.Sourced .base := by
  intro dialect
  have hids : (dialect.analyse {} "$ + $1").toOption.map
      (fun program => program.identifiers.map fun id => (id.context, id.name)) =
      some [(some .store, ""), (some .store, "1")] := by
    decide +kernel
  obtain ⟨program, hp, hids⟩ := Option.map_eq_some_iff.1 hids
  refine ⟨program, Production.eq_ok_of_toOption hp, hids, fun id hid hsourced => ?_⟩
  have hmem : (id.context, id.name) ∈ [(some Context.store, ""), (some Context.store, "1")] := by
    rw [← hids]
    exact List.mem_map_of_mem hid
  have hstore : id.context = some .store := by
    obtain he | he := List.mem_pair.1 hmem <;> exact congrArg Prod.fst he
  cases (hsourced .store hstore).1 .store rfl

end TemplateExpr
