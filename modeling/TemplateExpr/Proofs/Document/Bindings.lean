/-
  The bindings of a region point at their own text. A binding is found in the tree by walking it;
  here it is followed back through the classification, the grammar and the reader of tokens to
  the characters of the document.

  * `Program.identifiers_ascending`: the identifiers of a program stand one behind the other.
  * `Program.pointsInto_of_ofText`: a binding has the span of one token, a name, and is written
    there.
  * `Dialect.bindings_of_region`: both for the regions of a document.
-/
import TemplateExpr.Proofs.Binding.References
import TemplateExpr.Proofs.Binding.Written
import TemplateExpr.Proofs.Document.Coordinates
import TemplateExpr.Proofs.Grammar.Names
import TemplateExpr.Proofs.Printing.OfText
import TemplateExpr.Proofs.Token.Tiling

namespace TemplateExpr
open Source

/-! ## Tokens by their spans -/

/-- The token starts further to the front. -/
def Token.Before (a b : Token) : Prop := a.span.start.offset < b.span.start.offset

theorem Ascending.pairwise {low : Nat} {tokens : List Token} (h : Ascending low tokens) :
    tokens.Pairwise Token.Before :=
  h.apart.imp_of_mem fun ha _ hle => Nat.lt_of_lt_of_le (h.forward _ ha).2 hle

/-- Among tokens that stand one behind the other, a span belongs to one token. -/
theorem filter_span_eq {tokens : List Token} (h : tokens.Pairwise Token.Before) {token : Token}
    (ht : token ∈ tokens) : tokens.filter (·.span = token.span) = [token] := by
  have before_ne : ∀ {a b : Token}, a.Before b → a.span ≠ b.span := by
    intro a b hlt he
    rw [Token.Before, he] at hlt
    exact Nat.lt_irrefl _ hlt
  induction tokens with
  | nil => cases ht
  | cons first rest ih =>
    obtain ⟨hf, hr⟩ := List.pairwise_cons.1 h
    obtain rfl | ht := List.mem_cons.1 ht
    · have hn : rest.filter (·.span = token.span) = [] := by
        rw [List.filter_eq_nil_iff]
        intro other ho
        simpa using (before_ne (hf other ho)).symm
      rw [List.filter_cons_of_pos (by simp), hn]
    · have hd : first.span ≠ token.span := before_ne (hf token ht)
      rw [List.filter_cons_of_neg (by simpa using hd), ih hr ht]

/-! ## The text of a span -/

section
variable {region : Region} {document before after : List Char} {g : Grammar}

/-- In a document the span covers what it covers of the piece that it lies in. -/
theorem Source.Span.textIn_of_rawIn {front code back : List Char} {span : Span}
    (hstart : front.length ≤ span.start.offset) (hle : span.start.offset ≤ span.stop.offset)
    (hstop : span.stop.offset ≤ front.length + code.length) :
    span.textIn (front ++ (code ++ back)) = span.rawIn front.length code := by
  obtain ⟨n, hn⟩ := Nat.exists_eq_add_of_le hstart
  obtain ⟨m, hm⟩ := Nat.exists_eq_add_of_le hle
  have hin : m ≤ (code.drop n).length := by rw [List.length_drop]; omega
  rw [textIn, rawIn, hm, hn, Nat.add_sub_cancel_left, List.drop_length_add_append,
    List.drop_append_of_le_length (by omega), List.take_append_of_le_length hin]
  rw [if_pos (by omega), List.extract_eq_take_drop, Nat.add_sub_cancel_left]
  congr 1
  omega

/-- A token of a region is written in the document where its span says. -/
theorem Token.textIn_of_mem (h : region.StandsIn document before after) (hb : Bounded document)
    {token : Token} (ht : token ∈ Token.ofTextWithin g (some region.origin) region.code) :
    token.span.textIn document = token.raw.toList := by
  have hfit := h.fits hb
  have hbase : offsetWithin (some region.origin) 0 = (before ++ ['{']).length := by
    rw [offsetWithin_some hfit (Nat.zero_le _), Nat.zero_add, h.offset_eq]
  have hdocument : document = (before ++ ['{']) ++ (region.code ++ '}' :: after) := by
    rw [h.document_eq]
    simp
  obtain ⟨hstart, hlt⟩ := (ascending_ofTextWithin g hfit).forward token ht
  have hstop : token.span.stop.offset ≤ (before ++ ['{']).length + region.code.length := by
    obtain ⟨original, ho, rfl⟩ := List.mem_map.1 ht
    have hle := stop_le_length ho
    rw [span_mapSpan, Span.offset_stop_within, offsetWithin_of_le hfit hle, hbase]
    omega
  rw [hdocument, Span.textIn_of_rawIn (hbase ▸ hstart) (Nat.le_of_lt hlt) hstop, ← hbase]
  exact rawIn_of_mem hfit ht

end

/-! ## Programs that were read -/

theorem Token.span_identifier? {token : Token} {id : Identifier}
    (h : token.identifier? = some id) : token.span = id.span := by
  unfold identifier? at h
  split at h <;> cases h <;> rfl

/-- The text is that of one token, so it is not two different ones. -/
theorem Spelled.unique {g : Grammar} {lexeme lexeme' : Lexeme} {raw : String}
    (h : Spelled g lexeme raw) (h' : Spelled g lexeme' raw) : lexeme = lexeme' := by
  obtain ⟨token, ht, rfl, -⟩ := h
  obtain ⟨token', ht', rfl, -⟩ := h'
  rw [ht] at ht'
  rw [List.singleton_inj.1 ht']

section
variable {g : Grammar} {origin : Option Origin} {url : Option String} {text : List Char}
  {p : Program}

theorem Token.before_ofTextWithin (g : Grammar) (hfit : FitsWithin origin text) :
    (Token.ofTextWithin g origin text).Pairwise Token.Before :=
  (Token.ascending_ofTextWithin g hfit).pairwise

/-- The identifiers of a program stand one behind the other. -/
theorem Program.identifiers_ascending (hfit : FitsWithin origin text)
    (h : Program.ofText g origin url text = .ok p) :
    p.identifiers.Pairwise fun a b => a.span.start.offset < b.span.start.offset := by
  refine List.Pairwise.sublist (Program.identifiers_sublist h) ?_
  refine List.Pairwise.filterMap _ ?_ (Token.before_ofTextWithin g hfit)
  intro a b hlt id hid id' hid'
  rwa [Token.Before, Token.span_identifier? hid, Token.span_identifier? hid'] at hlt

/-- An identifier that is a name was read from one token, which is that name. -/
theorem Program.token_of_identifier (h : Program.ofText g origin url text = .ok p)
    {id : Identifier} (hid : id ∈ p.identifiers)
    (hs : Spelled g (.name id.written) id.written) :
    ∃ token ∈ Token.ofTextWithin g origin text, token.span = id.span ∧
      token.lexeme = .name id.written ∧ token.raw = id.written := by
  obtain ⟨token, ht, hi⟩ := List.mem_filterMap.1 ((Program.identifiers_sublist h).subset hid)
  have hspelled : token.lexeme.isFault = true ∨ Spelled g token.lexeme token.raw :=
    lexed_ofText g origin text token ht
  refine ⟨token, ht, Token.span_identifier? hi, ?_⟩
  unfold Token.identifier? at hi
  split at hi
  · next text hl =>
    cases hi
    rw [hl] at hspelled
    exact ⟨hl, (hspelled.resolve_left nofun).raw_eq rfl⟩
  · next text hl =>
    cases hi
    rw [hl] at hspelled
    have hkeyword := hspelled.resolve_left nofun
    rw [hkeyword.raw_eq rfl] at hkeyword
    cases hkeyword.unique hs
  · cases hi

end

/-! ## Bindings -/

/-- The binding has the span of one token, which is a name, and what stands there in the document
    is the sigil of its context, if that has one, and its name. -/
structure Binding.PointsInto (document : List Char) (tokens : List Token) (b : Binding) : Prop where
  token : ∃ token text, tokens.filter (·.span = b.span) = [token] ∧ token.lexeme = .name text
  text : b.span.textIn document = (b.context.sigil?.map Sigil.char).toList ++ b.name.toList

theorem toList_written {id : Identifier} {context : Context} (h : id.context = some context) :
    id.written.toList = (context.sigil?.map Sigil.char).toList ++ id.name.toList := by
  rw [Identifier.written, h, Context.write, Option.bind_some]
  cases context.sigil? with
  | none => rfl
  | some sigil => exact String.toList_ofList

/-- The bindings of identifiers that stand one behind the other are in order already. -/
theorem Program.bindings_of_ascending {p : Program}
    (h : p.identifiers.Pairwise fun a b => a.span.start.offset < b.span.start.offset) :
    p.bindings = p.identifiers.filterMap Binding.ofIdentifier? ∧
      p.bindings.Pairwise fun a b => a.span.start.offset < b.span.start.offset := by
  have hlt : (p.identifiers.filterMap Binding.ofIdentifier?).Pairwise
      fun a b => a.span.start.offset < b.span.start.offset := by
    refine List.Pairwise.filterMap _ ?_ h
    intro id id' hlt b hb b' hb'
    obtain ⟨context, -, rfl⟩ := Option.map_eq_some_iff.1 hb
    obtain ⟨context', -, rfl⟩ := Option.map_eq_some_iff.1 hb'
    exact hlt
  have hsorted : p.bindings = p.identifiers.filterMap Binding.ofIdentifier? := by
    refine List.mergeSort_of_pairwise (hlt.imp fun hab => ?_)
    simpa [Binding.startsBefore] using Nat.le_of_lt hab
  rw [hsorted]
  exact ⟨rfl, hlt⟩

theorem Program.pointsInto_of_ofText {region : Region} {document before after : List Char}
    (hr : region.StandsIn document before after) (hd : Bounded document) {g : Grammar}
    {url : Option String} {p : Program}
    (h : Program.ofText g (some region.origin) url region.code = .ok p) {v : Vocabulary}
    {b : Binding} (hb : b ∈ (p.classify v).bindings) :
    b.PointsInto document (Token.ofTextWithin g (some region.origin) region.code) := by
  obtain ⟨id', hid', hb⟩ := List.mem_filterMap.1 ((p.classify v).bindings_perm.subset hb)
  obtain ⟨context, hc, rfl⟩ := Option.map_eq_some_iff.1 hb
  obtain ⟨id, hid, rfl | ⟨hs, bound, standing, rfl⟩⟩ :=
    Program.stems_classify (v := v) (Program.printable_of_ofText h) id' hid'
  · rw [Program.context_of_ofText h id' hid] at hc
    cases hc
  · obtain ⟨token, ht, hspan, hl, hraw⟩ := Program.token_of_identifier h hid hs
    have hwritten := Identifier.written_scoped v bound standing (Program.context_of_ofText h id hid)
    rw [← Identifier.span_scoped v bound standing id] at hspan
    refine ⟨⟨token, _, ?_, hl⟩, ?_⟩
    · rw [← hspan]
      exact filter_span_eq (Token.before_ofTextWithin g (hr.fits hd)) ht
    · rw [← hspan, Token.textIn_of_mem hr hd ht, hraw, ← hwritten, toList_written hc]

/-- Classifying leaves the identifiers one behind the other. -/
theorem Dialect.identifiers_ascending {dialect : Dialect} {around : Surroundings} {code : String}
    {program : Program} (hfit : FitsWithin around.origin code.toList)
    (h : dialect.analyse around code = .ok program) :
    program.identifiers.Pairwise fun a b => a.span.start.offset < b.span.start.offset := by
  obtain ⟨parsed, hp, rfl⟩ := analyse_eq_ok_iff.1 h
  have hlt : ((parsed.classify (dialect.vocabulary around)).identifiers.map (·.span)).Pairwise
      fun a b => a.start.offset < b.start.offset := by
    rw [Program.span_identifiers_classify, List.pairwise_map]
    exact Program.identifiers_ascending hfit hp
  rwa [List.pairwise_map] at hlt

/-- The identifiers and the bindings of what is read from a region stand one behind the other, so
    that sorting the bindings changes nothing; and each binding has the span of one name of the
    region, which is written there in the document. No position of the document overflows. -/
theorem Dialect.bindings_of_region (dialect : Dialect) (around : Surroundings)
    {document : List Char} {region : Region} (hd : Bounded document)
    (hr : region.FoundIn document) {program : Program}
    (h : dialect.analyse (around.at region) (String.ofList region.code) = .ok program) :
    (program.identifiers.Pairwise fun a b => a.span.start.offset < b.span.start.offset) ∧
    program.bindings = program.identifiers.filterMap Binding.ofIdentifier? ∧
    (program.bindings.Pairwise fun a b => a.span.start.offset < b.span.start.offset) ∧
    ∀ b ∈ program.bindings, b.PointsInto document
      (Token.ofTextWithin dialect.grammar (some region.origin) region.code) := by
  obtain ⟨before, after, hstands⟩ := hr.split
  have hlt := identifiers_ascending (by rw [String.toList_ofList]; exact hstands.fits hd) h
  obtain ⟨hsorted, hb⟩ := Program.bindings_of_ascending hlt
  obtain ⟨parsed, hp, rfl⟩ := analyse_eq_ok_iff.1 h
  rw [parse, String.toList_ofList] at hp
  exact ⟨hlt, hsorted, hb, fun b hm => Program.pointsInto_of_ofText hstands hd hp hm⟩

/-- A state and a helper, a parameter and a property, and a member that is none of these. -/
theorem bindings_of_region_helper :
    let document := "\n\x7b#a + f(x => x + b.in)\x7d".toList
    let region : Region := ⟨"#a + f(x => x + b.in)".toList, ⟨2, 1, 1⟩, 1, 24⟩
    let around : Surroundings := { helpers := Names.empty.insert "f" }
    let tokens := Token.ofTextWithin .template (some region.origin) region.code
    region.FoundIn document ∧
    ∃ program, ({} : Dialect).analyse (around.at region) "#a + f(x => x + b.in)" = .ok program ∧
      (program.identifiers.Pairwise fun a b => a.span.start.offset < b.span.start.offset) ∧
      program.bindings = program.identifiers.filterMap Binding.ofIdentifier? ∧
      (program.bindings.Pairwise fun a b => a.span.start.offset < b.span.start.offset) ∧
      (∀ b ∈ program.bindings, b.PointsInto document tokens) ∧
      program.bindings.map (fun b => (b.context, b.name, String.ofList (b.span.textIn document))) =
        [(.state, "a", "#a"), (.helper, "f", "f"), (.property, "b", "b")] := by
  intro document region around tokens
  have hd : Bounded document := by decide
  have hr : region.FoundIn document := ⟨0, by decide⟩
  have hb : (({} : Dialect).analyse (around.at region) "#a + f(x => x + b.in)").toOption.map
      (fun program => (program.identifiers.filterMap Binding.ofIdentifier?).map fun b =>
        (b.context, b.name, String.ofList (b.span.textIn document))) =
      some [(.state, "a", "#a"), (.helper, "f", "f"), (.property, "b", "b")] := by decide +kernel
  obtain ⟨program, hsome, hb⟩ := Option.map_eq_some_iff.1 hb
  have h := Production.eq_ok_of_toOption hsome
  obtain ⟨hids, hsorted, hlt, hp⟩ := Dialect.bindings_of_region {} around hd hr h
  refine ⟨hr, program, h, hids, hsorted, hlt, hp, ?_⟩
  rw [hsorted]
  exact hb

end TemplateExpr
