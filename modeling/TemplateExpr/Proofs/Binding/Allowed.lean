/-
  The helpers that a project allows, and the text that is the name of one. Three rules say what a
  name is: the pattern of the settings, the reader of tokens, and the classification, which splits
  a sigil off before it looks for a helper. The pattern knows neither the reserved words nor the
  sigil `$`, and without them the three agree.

  * `Program.ofText_name`: a text that is a name is one identifier.
  * `Dialect.helper_of_analyse`: no helper of a program has a reserved word or a sigil.
  * `Settings.accepted_iff`: the names that the settings accept.
  * `Settings.analyse_accepted_iff`: a helper that was accepted, and is no reserved word, is found
    by its name unless that begins with `$`.
-/
import TemplateExpr.Settings
import TemplateExpr.Proofs.Binding.Contexts
import TemplateExpr.Proofs.Grammar.Complete

namespace TemplateExpr
open Source Production Text

/-! ## A text that is one name -/

section
variable {g : Grammar} {i j : Input} {e : Expr} {name raw : String} {newline : Bool} {span : Span}
  {url : Option String}

theorem Input.lexeme?_of_rest_eq_nil (h : i.rest = []) : i.lexeme? = none := by
  rw [lexeme?, h]
  rfl

/-- No operation goes on at the end of the text. -/
theorem Reads.ladder_of_rest_eq_nil (h : Reads .power i e j) (hj : j.rest = []) :
    ∀ levels, Reads (.ladder levels) i e j
  | [] => .ladderTop h
  | level :: tighter => by
    have hno : binaryOf? level.operators j = none := by
      rw [binaryOf?, Input.lexeme?_of_rest_eq_nil hj]
    exact .ladderStep (ladder_of_rest_eq_nil h hj tighter) (.climbStop hno)

/-- A name that is all that is left is read as a statement. -/
theorem reads_name (h : i.rest = [⟨.name name, raw, newline, span⟩]) :
    Reads (.statement false) i (.expression (.identifier ⟨name, none, span⟩) span) i.skip := by
  obtain ⟨last, rest, stop⟩ := i
  obtain rfl : rest = _ := h
  have hchain : Reads .chain ⟨last, [⟨.name name, raw, newline, span⟩], stop⟩
      (.identifier ⟨name, none, span⟩) ⟨span, [], stop⟩ := .chain (.atom rfl) (.linksNone rfl)
  have hpower := Reads.noPower (.noPrefix rfl rfl (.noTrailing hchain (.inl rfl))) rfl
  have hvalue := Reads.noAssignment rfl
    (.noConditional (hpower.ladder_of_rest_eq_nil rfl Operator.levels) rfl) rfl
  exact .expression rfl rfl (.single hvalue (.othersNone rfl)) rfl

/-- The program that a text is which is a name. -/
def Program.ofName (name : String) (context : Option Context) (url : Option String) : Program :=
  let span : Span := ⟨Place.origin, Place.endOf name.toList⟩
  ⟨[.expression (.identifier ⟨name, context, span⟩) span], span, url⟩

theorem Program.ofText_name (h : NameText g name.toList) :
    ofText g none url name.toList = .ok (.ofName name none url) := by
  have htokens := Token.ofText_of_alone ((spelled_name_iff.2 h).alone rfl)
  have hwithin : Token.ofTextWithin g none name.toList =
      [⟨.name name, name, false, ⟨Place.origin, Place.endOf name.toList⟩⟩] := by
    rw [Token.ofTextWithin, htokens]
    rfl
  have hall : ReadsAll (Input.ofText g none name.toList) (Program.ofName name none url).body :=
    .next (by rw [Input.ofText, hwithin]; rfl) (reads_name hwithin)
      (.done (by rw [Input.ofText, hwithin]; rfl))
  obtain ⟨j, hj⟩ := program_of_readsAll hall
  rw [Input.ofText] at hj
  rw [ofText, hj]
  rfl

/-- A name that keeps its spelling is classified in its place. -/
theorem Program.classify_ofName {v : Vocabulary} {context : Context} (hg : name ∉ v.globals)
    (hr : resolve v.helpers name = (context, name)) :
    (ofName name none url).classify v = ofName name (some context) url := by
  have hid : ∀ span,
      Identifier.scoped v ∅ .use ⟨name, none, span⟩ = ⟨name, some context, span⟩ := by
    intro span
    rw [Identifier.scoped, if_pos ⟨rfl, hg, Finset.notMem_empty _⟩, hr]
  rw [classify_eq_scoped]
  simp only [Program.scoped, ofName, scopedStatements, Statement.scoped, Expr.scoped, hid]

end

/-! ## What helpers are called -/

section
variable {helpers : Names} {name bare : String}

/-- The first character of the name may be a sigil. -/
def sigilled (name : String) : Bool :=
  name.toList.head?.any fun c => (Sigil.ofChar? c).isSome

/-- Only a name without sigil is that of a helper, and it keeps its spelling. -/
theorem resolve_eq_helper_iff :
    resolve helpers name = (.helper, bare) ↔
      bare = name ∧ sigilled name = false ∧ name ∈ helpers := by
  have hlookup : (if helpers.contains name then (Context.helper, name) else (.property, name)) =
      (.helper, bare) ↔ bare = name ∧ name ∈ helpers := by
    by_cases hm : name ∈ helpers
    · simpa [hm] using eq_comm
    · simp [hm]
  rw [resolve, sigilAndName, sigilled]
  cases name.toList with
  | nil => simpa using hlookup
  | cons c cs =>
    dsimp only [List.head?_cons, Option.any_some]
    cases Sigil.ofChar? c with
    | none => simpa using hlookup
    | some sigil => cases sigil <;> simp [Sigil.context]

/-- An identifier that becomes a helper keeps its name. -/
theorem Identifier.helper_scoped {v : Vocabulary} {bound : Finset String} {standing : Standing}
    {id : Identifier} (hnone : id.context = none)
    (h : (id.scoped v bound standing).context = some .helper) :
    (id.scoped v bound standing).name = id.name ∧ sigilled id.name = false ∧
      id.name ∈ v.helpers := by
  unfold Identifier.scoped at h ⊢
  split
  · next hkeep =>
    rw [if_pos hkeep] at h
    exact resolve_eq_helper_iff.1 (Prod.ext (Option.some.inj h) rfl)
  · next hkeep =>
    rw [if_neg hkeep, hnone] at h
    cases h

end

/-- A helper of a program is on the list, and its name is neither reserved nor has a sigil. -/
theorem Dialect.helper_of_analyse {dialect : Dialect} {around : Surroundings} {code : String}
    {program : Program} (h : dialect.analyse around code = .ok program) :
    ∀ id ∈ program.identifiers, id.context = some .helper →
      id.name ∈ around.helpers ∧ sigilled id.name = false ∧ id.name ∉ Symbol.keywords := by
  obtain ⟨parsed, hp, rfl⟩ := analyse_eq_ok_iff.1 h
  intro id' hid' hhelper
  obtain ⟨id, hid, rfl | ⟨hs, bound, standing, rfl⟩⟩ :=
    Program.stems_classify (v := dialect.vocabulary around) (Program.printable_of_ofText hp) id'
      hid'
  · rw [Program.context_of_ofText hp id' hid] at hhelper
    cases hhelper
  · have hnone := Program.context_of_ofText hp id hid
    have hplain : id.written = id.name := by
      rw [Identifier.written, hnone]
      rfl
    rw [hplain] at hs
    obtain ⟨hname, hsigil, hm⟩ := Identifier.helper_scoped hnone hhelper
    rw [hname]
    exact ⟨hm, hsigil, hs.known rfl⟩

/-! ## Accepted helpers -/

namespace Settings

variable {settings more : Settings} {name : String} {names : List String}

/-- The name is accepted for a helper: it is on a list that passes the check, or can be added to
    one. -/
inductive Accepted (name : String) : Prop
  | listed {settings : Settings} : settings.check = .ok () → name ∈ settings.helpers →
    Accepted name
  | added {settings more : Settings} {names : List String} :
    settings.addHelpers names = .ok more → name ∈ names → Accepted name

theorem checkName_eq_ok_iff : checkName name = .ok () ↔ isPlainName name = true := by
  unfold checkName
  split <;> simp_all

theorem isPlainName_of_forM (h : names.forM checkName = .ok ()) :
    ∀ name ∈ names, isPlainName name = true := by
  induction names with
  | nil => simp
  | cons first names ih =>
    change (checkName first >>= fun _ => names.forM checkName) = .ok () at h
    obtain ⟨_, hfirst, hmore⟩ := bind_eq_ok h
    exact List.forall_mem_cons.2 ⟨checkName_eq_ok_iff.1 hfirst, ih hmore⟩

theorem isPlainName_of_addHelpers (h : settings.addHelpers names = .ok more) :
    ∀ name ∈ names, isPlainName name = true := by
  induction names generalizing settings with
  | nil => simp
  | cons first names ih =>
    rw [addHelpers] at h
    obtain ⟨_, hfirst, hmore⟩ := bind_eq_ok h
    exact List.forall_mem_cons.2 ⟨checkName_eq_ok_iff.1 hfirst, ih hmore⟩

/-- The names that are accepted are the plain ones. -/
theorem accepted_iff : Accepted name ↔ isPlainName name = true := by
  constructor
  · rintro (⟨hc, hm⟩ | ⟨ha, hm⟩)
    · exact isPlainName_of_forM hc name (List.mem_append_left _ hm)
    · exact isPlainName_of_addHelpers ha name hm
  · intro h
    have hadd : empty.addHelpers [name] = .ok (empty.addHelper name) := by
      rw [addHelpers, checkName_eq_ok_iff.2 h]
      rfl
    exact .added hadd (List.mem_singleton.2 rfl)

theorem isNameStart_of_isPlainStart {c : Char} (h : isPlainStart c = true) :
    isNameStart c = true := by
  simp only [isPlainStart, Bool.or_eq_true] at h
  obtain (ha | hu) | hd := h
  · rw [isNameStart, isAlphabetic_of_isAlpha ha]
    rfl
  · simp [isNameStart, hu]
  · simp [isNameStart, hd]

/-- Of the characters that may start a plain name, only `$` may be a sigil. -/
theorem ofChar?_of_isPlainStart {c : Char} (h : isPlainStart c = true) (hc : c ≠ '$') :
    Sigil.ofChar? c = none := by
  cases ho : Sigil.ofChar? c with
  | none => rfl
  | some sigil =>
    obtain rfl := Sigil.char_of_ofChar? ho
    cases sigil with
    | state => cases h
    | scope => cases h
    | store => exact absurd rfl hc

/-- A plain name that is not reserved and does not begin with `$` is a name of the reader. -/
theorem nameText_of_isPlainName (h : isPlainName name = true) (hs : name.toList.head? ≠ some '$')
    (hk : name ∉ Symbol.keywords) : NameText .template name.toList ∧ sigilled name = false := by
  have hname : String.ofList name.toList ∉ Symbol.keywords := by rwa [String.ofList_toList]
  rw [isPlainName] at h
  rw [sigilled]
  cases hcs : name.toList with
  | nil =>
    rw [hcs] at h
    cases h
  | cons c cs =>
    rw [hcs] at h hs hname
    simp only [Bool.and_eq_true, List.all_eq_true, Bool.or_eq_true] at h
    obtain ⟨hc, hparts⟩ := h
    have hnone := ofChar?_of_isPlainStart hc fun he => hs (congrArg some he)
    refine ⟨.word ?_ (isNameStart_of_isPlainStart hc) (fun d hd => ?_) hname, ?_⟩
    · rw [Grammar.sigil?, hnone]
      rfl
    · obtain hd | hd := hparts d hd
      · exact isNamePart_of_isNameStart (isNameStart_of_isPlainStart hd)
      · exact isNamePart_of_isDigit hd
    · rw [List.head?_cons, Option.any_some, hnone]
      rfl

/-- A helper that was accepted, and is neither a global nor a reserved word, is found by its name
    unless the name begins with `$`: then the sigil goes first. -/
theorem analyse_accepted_iff (h : Accepted name) (hm : name ∈ settings.helpers)
    (hg : name ∉ settings.globalNames) (hk : name ∉ Symbol.keywords) :
    settings.dialect.analyse settings.surroundings name =
        .ok (.ofName name (some .helper) none) ↔
      name.toList.head? ≠ some '$' := by
  constructor
  · intro ha hs
    obtain ⟨-, hsigil, -⟩ := Dialect.helper_of_analyse ha _ (List.mem_singleton.2 rfl) rfl
    change sigilled name = false at hsigil
    rw [sigilled, hs] at hsigil
    cases hsigil
  · intro hs
    obtain ⟨hname, hsigil⟩ := nameText_of_isPlainName (accepted_iff.1 h) hs hk
    have hr : resolve settings.helperNames name = (.helper, name) :=
      resolve_eq_helper_iff.2 ⟨rfl, hsigil, Names.mem_ofList.2 hm⟩
    exact Dialect.analyse_eq_ok_iff.2
      ⟨_, Program.ofText_name hname, Program.classify_ofName hg hr⟩

/-- A helper on the list of a project. -/
theorem analyse_accepted_format :
    let settings : Settings := ⟨["format"], none⟩
    Accepted "format" ∧ "format" ∈ settings.helpers ∧ "format" ∉ settings.globalNames ∧
    "format" ∉ Symbol.keywords ∧
    settings.dialect.analyse settings.surroundings "format" =
      .ok (.ofName "format" (some .helper) none) :=
  have haccepted : Accepted "format" :=
    .listed (show check ⟨["format"], none⟩ = .ok () from rfl) (by decide)
  ⟨haccepted, by decide, by decide, by decide,
    (analyse_accepted_iff haccepted (by decide) (by decide) (by decide)).2 (by decide)⟩

/-- On a list that passes the check, `$x` is read as a store and `true` as no name. -/
theorem analyse_accepted_reserved :
    let settings : Settings := ⟨["$x", "true"], none⟩
    settings.check = .ok () ∧
    (Accepted "$x" ∧ "$x" ∈ settings.helpers ∧ "$x" ∉ settings.globalNames ∧
      ∃ program, settings.dialect.analyse settings.surroundings "$x" = .ok program ∧
        ∀ id ∈ program.identifiers, ¬(id.name = "$x" ∧ id.context = some .helper)) ∧
    (Accepted "true" ∧ "true" ∈ settings.helpers ∧ "true" ∉ settings.globalNames ∧
      ∃ program, settings.dialect.analyse settings.surroundings "true" = .ok program ∧
        ∀ id ∈ program.identifiers, ¬(id.name = "true" ∧ id.context = some .helper)) := by
  intro settings
  have answers : ∀ code ∈ settings.helpers,
      ∃ program, settings.dialect.analyse settings.surroundings code = .ok program := by
    intro code hcode
    have table : ∀ code ∈ settings.helpers,
        (settings.dialect.analyse settings.surroundings code).isOk = true := by
      decide +kernel
    exact exists_eq_ok_of_isOk (table code hcode)
  obtain ⟨store, hstore⟩ := answers "$x" (by decide)
  obtain ⟨literal, hliteral⟩ := answers "true" (by decide)
  have hcheck : settings.check = .ok () := rfl
  refine ⟨hcheck,
    ⟨.listed hcheck (by decide), by decide, by decide, store, hstore, fun id hid hfound => ?_⟩,
    .listed hcheck (by decide), by decide, by decide, literal, hliteral, fun id hid hfound => ?_⟩
  · obtain ⟨-, hsigil, -⟩ := Dialect.helper_of_analyse hstore id hid hfound.2
    rw [hfound.1] at hsigil
    revert hsigil
    decide
  · obtain ⟨-, -, hk⟩ := Dialect.helper_of_analyse hliteral id hid hfound.2
    rw [hfound.1] at hk
    exact absurd (by decide) hk

end Settings

end TemplateExpr
