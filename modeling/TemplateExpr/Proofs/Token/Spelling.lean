/-
  A lexeme is read the same alone as in front of more text, unless the text goes on with
  characters that it would take too.

  * `Lexeme.read_take`: the characters of a lexeme, by themselves, are that lexeme.
  * `Lexeme.read_append`: a lexeme by itself is the same lexeme in front of another text.
-/
import TemplateExpr.Token.Lexeme
import TemplateExpr.Proofs.Token.Numbers

namespace TemplateExpr
open Text

/-! ## Text literals -/

namespace Literal

variable {cs ds : List Char} {c d quote : Char} {n : Nat}

theorem hexDigits_le (width : Nat) (cs : List Char) : (hexDigits width cs).length ≤ cs.length :=
  ((List.takeWhile_sublist _).trans (List.take_sublist _ _)).length_le

theorem length_le_of_hexChar? {width : Nat} (h : hexChar? width cs = some c) :
    width ≤ cs.length := by
  unfold hexChar? at h
  dsimp only at h
  split at h
  · next hl =>
    have := hexDigits_le width cs
    omega
  · cases h

theorem hexChar?_take_append {width : Nat} (h : width ≤ cs.length) (ds : List Char) :
    hexChar? width (cs.take width ++ ds) = hexChar? width cs := by
  have : hexDigits width (cs.take width ++ ds) = hexDigits width cs := by
    rw [hexDigits, List.take_left' (List.length_take_of_le h), hexDigits]
  unfold hexChar?
  rw [this]

theorem escape_of_ne (hu : c ≠ 'u') (hx : c ≠ 'x') (cs : List Char) :
    escape (c :: cs) = .char (escaped c) 1 := by
  unfold escape
  split
  · next h => cases h
  · next h => exact absurd (List.cons.inj h).1 hu
  · next h => exact absurd (List.cons.inj h).1 hx
  · next h => rw [(List.cons.inj h).1]

/-- What an escape stands for is settled by its own characters. -/
theorem escape_take_append (h : escape cs = .char d n) :
    n ≤ cs.length ∧ ∀ ds, escape (cs.take n ++ ds) = .char d n := by
  unfold escape at h
  split at h
  · cases h
  · split at h
    · next hc =>
      cases h
      have hl := length_le_of_hexChar? hc
      refine ⟨Nat.succ_le_succ hl, fun ds => ?_⟩
      rw [List.take_succ_cons, List.cons_append, escape, hexChar?_take_append hl, hc]
    · cases h
  · split at h
    · next hc =>
      cases h
      have hl := length_le_of_hexChar? hc
      refine ⟨Nat.succ_le_succ hl, fun ds => ?_⟩
      rw [List.take_succ_cons, List.cons_append, escape, hexChar?_take_append hl, hc]
    · cases h
  · next hu hx =>
    cases h
    refine ⟨Nat.succ_le_succ (Nat.zero_le _), fun ds => ?_⟩
    rw [List.take_succ_cons, List.cons_append]
    exact escape_of_ne hu hx _

/-- A literal ends at its closing quote, whatever follows. -/
theorem readBody_take_append {seen : List Char} {value : String}
    (h : readBody quote seen cs = (.text value, n)) :
    n ≤ cs.length ∧ ∀ ds, readBody quote seen (cs.take n ++ ds) = (.text value, n) := by
  induction hk : cs.length using Nat.strongRecOn generalizing cs seen n with
  | ind k ih =>
    cases cs with
    | nil => rw [readBody] at h; cases h
    | cons c cs =>
      rw [readBody] at h
      split at h
      · next hq =>
        cases h
        refine ⟨Nat.succ_le_of_lt (hk ▸ Nat.succ_pos _), fun ds => ?_⟩
        rw [List.take_succ_cons, List.cons_append, readBody, if_pos hq]
      · next hq =>
        split at h
        · cases h
        · next hn =>
          split at h
          · next hb =>
            split at h
            · cases h
            · next e length he =>
              obtain ⟨hl, hs⟩ := escape_take_append he
              cases hr : readBody quote (e :: seen) (cs.drop length) with
              | mk lexeme m =>
                rw [hr] at h
                cases h
                obtain ⟨hle, hrest⟩ := ih _
                  (by rw [List.length_drop, ← hk, List.length_cons]; omega) hr rfl
                rw [List.length_drop] at hle
                rw [List.length_cons] at hk
                refine ⟨by omega, fun ds => ?_⟩
                have htake : (c :: cs).take (1 + length + m) ++ ds =
                    c :: (cs.take length ++ ((cs.drop length).take m ++ ds)) := by
                  rw [Nat.add_assoc, Nat.add_comm 1, List.take_succ_cons, List.take_add,
                    List.cons_append, List.append_assoc]
                rw [htake, readBody, if_neg hq, if_neg hn, if_pos hb, hs]
                dsimp only
                rw [List.drop_left' (List.length_take_of_le hl), hrest]
          · next hb =>
            cases hr : readBody quote (c :: seen) cs with
            | mk lexeme m =>
              rw [hr] at h
              cases h
              obtain ⟨hle, hrest⟩ := ih _ (by rw [← hk, List.length_cons]; omega) hr rfl
              rw [List.length_cons] at hk
              refine ⟨by omega, fun ds => ?_⟩
              rw [Nat.add_comm 1, List.take_succ_cons, List.cons_append, readBody, if_neg hq,
                if_neg hn, if_neg hb, hrest, Nat.add_comm]

theorem escape_fault_le {fault : LexicalFault} (h : escape cs = .fault fault n) :
    n ≤ cs.length := by
  unfold escape at h
  split at h
  · cases h; exact Nat.zero_le _
  · split at h
    · cases h
    · next ds _ _ =>
      cases h
      have := hexDigits_le 4 ds
      rw [List.length_cons]
      omega
  · split at h
    · cases h
    · next ds _ _ =>
      cases h
      have := hexDigits_le 2 ds
      rw [List.length_cons]
      omega
  · cases h

theorem readBody_le (quote : Char) (seen cs : List Char) :
    (readBody quote seen cs).2 ≤ cs.length := by
  induction seen, cs using readBody.induct quote with
  | case1 => rw [readBody]; exact Nat.le_refl _
  | case2 seen cs => rw [readBody, if_pos rfl]; exact Nat.succ_le_succ (Nat.zero_le _)
  | case3 seen c cs hq hn => rw [readBody, if_neg hq, if_pos hn]; exact Nat.zero_le _
  | case4 seen cs fault length he hq hn =>
    rw [readBody, if_neg hq, if_neg hn, if_pos rfl, he]
    have := escape_fault_le he
    simp only [List.length_cons]
    omega
  | case5 seen cs d length he hq hn ih =>
    rw [readBody, if_neg hq, if_neg hn, if_pos rfl, he]
    have := (escape_take_append he).1
    simp only [List.length_drop, List.length_cons] at ih ⊢
    omega
  | case6 seen c cs hq hn hb ih =>
    rw [readBody, if_neg hq, if_neg hn, if_neg hb]
    simp only [List.length_cons]
    omega

/-- A literal is at fault, or it denotes a text. -/
theorem readBody_lexeme (quote : Char) (seen cs : List Char) :
    (∃ fault, (readBody quote seen cs).1 = .fault fault) ∨
      ∃ value, (readBody quote seen cs).1 = .text value := by
  induction seen, cs using readBody.induct quote with
  | case1 => exact .inl ⟨_, by rw [readBody]⟩
  | case2 => exact .inr ⟨_, by rw [readBody, if_pos rfl]⟩
  | case3 seen c cs hq hn => exact .inl ⟨_, by rw [readBody, if_neg hq, if_pos hn]⟩
  | case4 seen cs fault length he hq hn =>
    exact .inl ⟨_, by rw [readBody, if_neg hq, if_neg hn, if_pos rfl, he]⟩
  | case5 seen cs d length he hq hn ih =>
    rw [readBody, if_neg hq, if_neg hn, if_pos rfl, he]
    exact ih
  | case6 seen c cs hq hn hb ih =>
    rw [readBody, if_neg hq, if_neg hn, if_neg hb]
    exact ih

end Literal

/-! ## Operators -/

namespace Symbol

variable {op : String} {cs ds : List Char}

/-- The characters that make a longer operator of an operator. -/
def continuations (op : String) : List Char :=
  (operators.filter (op.toList.isPrefixOf ·.toList)).filterMap (·.toList[op.length]?)

/-- An operator ends where the character stands next: the two make no longer operator and no
    comment, and `?.` with a digit behind it is none. -/
def endsBefore (op : String) (c : Char) : Bool :=
  !(continuations op).contains c && !(op == "/" && (c == '/' || c == '*')) &&
    !(op == "?." && isDigit c)

theorem mem_operators_of_operatorAt? (h : operatorAt? cs = some op) :
    op ∈ operators ∧ op.toList <+: cs := by
  obtain ⟨found, hf, ho⟩ := Option.map_eq_some_iff.1 h
  have hm := List.mem_of_find?_eq_some hf
  have hp : found.toList.isPrefixOf cs = true := by
    have := List.find?_some hf
    exact this
  rw [List.isPrefixOf_iff_prefix] at hp
  split at ho
  · next hq =>
    rw [← ho]
    rw [hq.1] at hp
    have hshort : "?".toList <+: "?.".toList := by decide
    exact ⟨by decide, hshort.trans hp⟩
  · rw [← ho]
    exact ⟨hm, hp⟩

theorem operatorAt?_toList (h : op ∈ operators) : operatorAt? op.toList = some op := by
  have table : ∀ op ∈ operators, operatorAt? op.toList = some op := by decide
  exact table op h

/-- A longer operator in front of the text goes on with its next character. -/
theorem head?_mem_continuations {longer : String} (hl : longer ∈ operators)
    (hp : op.toList <+: longer.toList) (hne : longer ≠ op)
    (h : longer.toList <+: op.toList ++ ds) : ∃ c ∈ ds.head?, c ∈ continuations op := by
  obtain ⟨more, hmore⟩ := hp
  rw [← hmore, List.prefix_append_right_inj] at h
  cases more with
  | nil =>
    rw [List.append_nil] at hmore
    exact absurd (String.toList_inj.1 hmore.symm) hne
  | cons c more =>
    obtain ⟨others, rfl⟩ := h
    refine ⟨c, rfl, List.mem_filterMap.2 ⟨longer, List.mem_filter.2 ⟨hl, ?_⟩, ?_⟩⟩
    · rw [List.isPrefixOf_iff_prefix, ← hmore]
      exact List.prefix_append _ _
    · rw [← hmore, String.length_toList.symm, List.getElem?_append_right (Nat.le_refl _),
        Nat.sub_self]
      rfl

/-- An operator is found in front of a text that it ends before. -/
theorem operatorAt?_append (ho : op ∈ operators) (h : ∀ c ∈ ds.head?, endsBefore op c = true) :
    operatorAt? (op.toList ++ ds) = some op := by
  have order : operators.Pairwise fun a b => ¬ a.toList <+: b.toList := by decide
  obtain ⟨before, behind, hsplit⟩ := List.append_of_mem ho
  have hfind : operators.find? (fun op' => op'.toList.isPrefixOf (op.toList ++ ds)) = some op := by
    rw [List.find?_eq_some_iff_append]
    refine ⟨List.isPrefixOf_iff_prefix.2 (List.prefix_append _ _), before, behind, hsplit, ?_⟩
    intro other hother
    rw [hsplit, List.pairwise_append] at order
    have hnot : ¬ other.toList <+: op.toList := order.2.2 other hother op List.mem_cons_self
    rw [Bool.not_eq_true', Bool.eq_false_iff, ne_eq, List.isPrefixOf_iff_prefix]
    intro hp
    obtain hshort | hlong := List.prefix_or_prefix_of_prefix hp (List.prefix_append op.toList ds)
    · exact hnot hshort
    · have hmem : other ∈ operators := hsplit ▸ List.mem_append_left _ hother
      have hne : other ≠ op := fun he => hnot (he ▸ List.prefix_rfl)
      obtain ⟨c, hc, hcont⟩ := head?_mem_continuations hmem hlong hne hp
      have := h c hc
      simp only [endsBefore, Bool.and_eq_true, Bool.not_eq_true', List.contains_eq_mem,
        decide_eq_false_iff_not] at this
      exact this.1.1 hcont
  have hdigit : ¬(op = "?." ∧ ((op.toList ++ ds).drop 2).head?.any isDigit = true) := by
    rintro ⟨rfl, hd⟩
    have hdrop : ("?.".toList ++ ds).drop 2 = ds := rfl
    rw [hdrop] at hd
    cases ds with
    | nil => cases hd
    | cons c ds =>
      have := h c rfl
      rw [List.head?_cons, Option.any_some] at hd
      simp [endsBefore, hd] at this
  rw [operatorAt?, hfind, Option.map_some, if_neg hdigit]

end Symbol

/-! ## Lexemes -/

namespace Lexeme

variable {g : Grammar} {lexeme : Lexeme} {c : Char} {cs ds : List Char} {n : Nat}

/-- The lexeme with the given characters ends where the other text begins. -/
def Ends (lexeme : Lexeme) (raw ds : List Char) : Prop :=
  match lexeme with
  | mark c => c = '.' → ds.head?.any isDigit = false
  | name _ | keyword _ => NoName ds
  | number _ => NoName ds ∧ (raw.all isDigit = true → ds.head? ≠ some '.')
  | text _ => True
  | operator op => ∀ c ∈ ds.head?, Symbol.endsBefore op c = true
  | fault _ => False

/-- The characters that a lexeme is always written with. -/
def spelling? : Lexeme → Option String
  | mark c => some (String.singleton c)
  | name word | keyword word | operator word => some word
  | text _ | number _ | fault _ => none

theorem word_cases (word : String) :
    (Symbol.word word = .keyword word ∧ word ∈ Symbol.keywords) ∨
      (Symbol.word word = .name word ∧ word ∉ Symbol.keywords) := by
  unfold Symbol.word
  by_cases h : word ∈ Symbol.keywords
  · exact .inl ⟨by simp [h], h⟩
  · exact .inr ⟨by simp [h], h⟩

theorem noName_of_ends_word {word : String} {raw : List Char}
    (h : (Symbol.word word).Ends raw ds) : NoName ds := by
  obtain ⟨hw, -⟩ | ⟨hw, -⟩ := word_cases word <;> rw [hw] at h <;> exact h

/-- The lexeme is a name that is not reserved, or a spelling of the language. -/
def Known : Lexeme → Prop
  | mark c => c ∈ Symbol.marks
  | name word => word ∉ Symbol.keywords
  | keyword word => word ∈ Symbol.keywords
  | operator op => op ∈ Symbol.operators
  | text _ | number _ => True
  | fault _ => False

theorem known_word (word : String) : (Symbol.word word).Known := by
  obtain ⟨hw, hm⟩ | ⟨hw, hm⟩ := word_cases word <;> rw [hw] <;> exact hm

theorem spelling?_word (word : String) : (Symbol.word word).spelling? = some word := by
  obtain ⟨hw, -⟩ | ⟨hw, -⟩ := word_cases word <;> rw [hw] <;> rfl

/-! ### Words -/

theorem takeWhile_take_length (p : Char → Bool) (cs : List Char) :
    (cs.take (cs.takeWhile p).length).takeWhile p = cs.takeWhile p := by
  rw [← List.take_takeWhile, List.take_length]

theorem readWord_take (c : Char) (cs : List Char) :
    readWord c (cs.take (readWord c cs).2) = readWord c cs := by
  simp only [readWord, takeWhile_take_length]

theorem readWord_append (hd : NoName ds) (c : Char) (cs : List Char) :
    readWord c (cs ++ ds) = readWord c cs := by
  rw [readWord, takeWhile_append_of_head hd, readWord]

theorem readSigil_take {sigil : Sigil} (h : (readSigil sigil cs).1.isFault = false) :
    readSigil sigil (cs.take (readSigil sigil cs).2) = readSigil sigil cs := by
  cases cs with
  | nil => rfl
  | cons d cs =>
    cases hd : isNameStart d with
    | false =>
      simp only [readSigil, List.head?_cons, Option.any_some, hd] at h
      cases h
    | true =>
      simp only [readSigil, List.head?_cons, Option.any_some, hd, if_true,
        List.takeWhile_cons_of_pos (isNamePart_of_isNameStart hd), List.length_cons,
        List.take_succ_cons, takeWhile_take_length]

theorem readSigil_append (hd : NoName ds) (sigil : Sigil) (cs : List Char) :
    readSigil sigil (cs ++ ds) = readSigil sigil cs := by
  have hname : ds.head?.any isNameStart = false :=
    any_eq_false_of_noName hd fun _ => isNamePart_of_isNameStart
  have hnext := any_head?_drop_append hname (Nat.zero_le cs.length)
  rw [List.drop_zero, List.drop_zero] at hnext
  rw [readSigil, takeWhile_append_of_head hd, hnext, readSigil]

/-! ### Any lexeme -/

theorem isFault_of_ends {raw : List Char} (h : lexeme.Ends raw ds) : lexeme.isFault = false := by
  cases lexeme with
  | fault => exact absurd h id
  | _ => rfl

/-! ### Numbers, text literals and operators -/

/-- The reader of numbers counts the first character too. -/
theorem length_of_number (hc : isDigit c = true ∨ c = '.')
    (h : (Number.read (c :: cs)).2 - 1 = n) : (Number.read (c :: cs)).2 = n + 1 := by
  have := Number.read_pos hc cs
  omega

theorem number_append (hc : isDigit c = true ∨ c = '.')
    (hl : (Number.read (c :: cs)).1 = lexeme) (hn : (Number.read (c :: cs)).2 - 1 = cs.length)
    (he : lexeme.Ends (c :: cs) ds) :
    (Number.read (c :: (cs ++ ds))).1 = lexeme ∧
      (Number.read (c :: (cs ++ ds))).2 - 1 = cs.length := by
  obtain ⟨value, hv⟩ | ⟨fault, hv⟩ := Number.read_lexeme (c :: cs)
  · obtain rfl := hl.symm.trans hv
    have hread : Number.read (c :: cs) = (.number value, (c :: cs).length) :=
      Prod.ext hl (length_of_number hc hn)
    have := Number.read_append hread rfl (List.cons_ne_nil c cs) he.1 he.2
    rw [List.cons_append, hread] at this
    rw [this]
    exact ⟨rfl, rfl⟩
  · obtain rfl := hl.symm.trans hv
    exact absurd he id

theorem literal_append (h : Literal.read c cs = (lexeme, cs.length))
    (hf : lexeme.isFault = false) (ds : List Char) :
    Literal.read c (cs ++ ds) = (lexeme, cs.length) := by
  have hl : (Literal.readBody c [] cs).1 = lexeme := congrArg Prod.fst h
  obtain ⟨fault, hv⟩ | ⟨value, hv⟩ := Literal.readBody_lexeme c [] cs
  · obtain rfl := hl.symm.trans hv
    cases hf
  · obtain rfl := hl.symm.trans hv
    have := (Literal.readBody_take_append h).2 ds
    rwa [List.take_length] at this

theorem readOperator_of_operatorAt? {op : String} (h : Symbol.operatorAt? (c :: cs) = some op) :
    readOperator c cs = (.operator op, op.length - 1) := by
  rw [readOperator, h]

/-- An operator has the characters that are taken for it. -/
theorem toList_of_operatorAt? {op : String} (h : Symbol.operatorAt? (c :: cs) = some op) :
    op ∈ Symbol.operators ∧ op.length - 1 ≤ cs.length ∧
      op.toList = c :: cs.take (op.length - 1) := by
  obtain ⟨hmem, hp⟩ := Symbol.mem_operators_of_operatorAt? h
  have positive : ∀ op ∈ Symbol.operators, 0 < op.length := by decide
  have hpos := positive op hmem
  have hle := hp.length_le
  rw [String.length_toList, List.length_cons] at hle
  refine ⟨hmem, by omega, ?_⟩
  rw [List.prefix_iff_eq_take.1 hp, String.length_toList, ← Nat.sub_add_cancel hpos,
    List.take_succ_cons, Nat.add_sub_cancel]

theorem operator_append (h : readOperator c cs = (lexeme, cs.length))
    (he : lexeme.Ends (c :: cs) ds) : readOperator c (cs ++ ds) = (lexeme, cs.length) := by
  cases ho : Symbol.operatorAt? (c :: cs) with
  | none =>
    rw [readOperator, ho] at h
    obtain ⟨rfl, -⟩ := Prod.mk.inj h
    exact absurd he id
  | some op =>
    rw [readOperator_of_operatorAt? ho] at h
    obtain ⟨rfl, hn⟩ := Prod.mk.inj h
    obtain ⟨hmem, -, hop⟩ := toList_of_operatorAt? ho
    rw [hn, List.take_length] at hop
    have := Symbol.operatorAt?_append hmem he
    rw [hop, List.cons_append] at this
    rw [readOperator_of_operatorAt? this, hn]

/-! ### Any lexeme -/

/-- A number begins with the character. -/
def beginsNumber (c : Char) (cs : List Char) : Bool :=
  isDigit c || (c == '.' && cs.head?.any isDigit)

theorem digit_or_point (h : beginsNumber c cs = true) : isDigit c = true ∨ c = '.' := by
  simp only [beginsNumber, Bool.or_eq_true, Bool.and_eq_true, beq_iff_eq] at h
  exact h.imp_right And.left

theorem beginsNumber_append (h : beginsNumber c cs = true) (ds : List Char) :
    beginsNumber c (cs ++ ds) = true := by
  cases cs with
  | nil =>
    simp only [beginsNumber, List.head?_nil, Option.any_none, Bool.and_false, Bool.or_false] at h
    rw [beginsNumber, h, Bool.true_or]
  | cons d cs => exact h

theorem beginsNumber_append_of_noName (h : NoName ds) (c : Char) (cs : List Char) :
    beginsNumber c (cs ++ ds) = beginsNumber c cs := by
  have hdigit : ds.head?.any isDigit = false :=
    any_eq_false_of_noName h fun _ => isNamePart_of_isDigit
  exact congrArg (fun next => isDigit c || (c == '.' && next))
    (any_head?_drop_append hdigit (Nat.zero_le cs.length))

/-- How a lexeme begins, and how it is read. -/
inductive Start (g : Grammar) (c : Char) (cs : List Char) : Lexeme × Nat → Prop
  | sigil {sigil} : g.sigil? c = some sigil → Start g c cs (readSigil sigil cs)
  | word : g.sigil? c = none → isNameStart c = true → Start g c cs (readWord c cs)
  | number : g.sigil? c = none → isNameStart c = false → beginsNumber c cs = true →
    Start g c cs ((Number.read (c :: cs)).1, (Number.read (c :: cs)).2 - 1)
  | mark : g.sigil? c = none → isNameStart c = false → beginsNumber c cs = false →
    c ∈ Symbol.marks → Start g c cs (.mark c, 0)
  | literal : g.sigil? c = none → isNameStart c = false → beginsNumber c cs = false →
    c ∉ Symbol.marks → (c == '\'' || c == '"') = true → Start g c cs (Literal.read c cs)
  | operator : g.sigil? c = none → isNameStart c = false → beginsNumber c cs = false →
    c ∉ Symbol.marks → (c == '\'' || c == '"') = false → Start g c cs (readOperator c cs)

theorem start_read (g : Grammar) (c : Char) (cs : List Char) : Start g c cs (read g c cs) := by
  unfold read
  split
  · next hs => exact .sigil hs
  · next hs =>
    split
    · next hn => exact .word hs hn
    · next hn =>
      have hn : isNameStart c = false := by simpa using hn
      split
      · next hd => exact .number hs hn hd
      · next hd =>
        have hd : beginsNumber c cs = false := by simpa [beginsNumber] using hd
        split
        · next hm => exact .mark hs hn hd (by simpa using hm)
        · next hm =>
          have hm : c ∉ Symbol.marks := by simpa using hm
          split
          · next hq => exact .literal hs hn hd hm hq
          · next hq => exact .operator hs hn hd hm (by simpa using hq)

theorem Start.read_eq {found : Lexeme × Nat} (h : Start g c cs found) : read g c cs = found := by
  rw [read, ← beginsNumber]
  cases h with
  | sigil hs => simp [hs]
  | word hs hn => simp [hs, hn]
  | number hs hn hd => simp [hs, hn, hd]
  | mark hs hn hd hm => simp [hs, hn, hd, hm]
  | literal hs hn hd hm hq => simp only [hs, hn, hd, hq]; simp [hm]
  | operator hs hn hd hm hq => simp only [hs, hn, hd, hq]; simp [hm]

/-- A digit begins a number. -/
theorem start_of_isDigit (hc : isDigit c = true) :
    Start g c cs ((Number.read (c :: cs)).1, (Number.read (c :: cs)).2 - 1) := by
  have hs : g.sigil? c = none := by
    rw [Grammar.sigil?]
    cases hd : Sigil.ofChar? c with
    | none => rfl
    | some sigil =>
      rw [← Sigil.char_of_ofChar? hd] at hc
      cases sigil <;> exact absurd hc (by decide)
  exact .number hs (isNameStart_of_isDigit hc) (by rw [beginsNumber, hc, Bool.true_or])

theorem beginsNumber_of_not_mark (hd : beginsNumber c cs = false) (hm : c ∉ Symbol.marks)
    (ds : List Char) : beginsNumber c ds = false := by
  have hpoint : (c == '.') = false := by
    rw [beq_eq_false_iff_ne]
    rintro rfl
    exact hm (by decide)
  simp only [beginsNumber, hpoint, Bool.false_and, Bool.or_false] at hd ⊢
  exact hd

/-- A lexeme by itself is the same lexeme in front of a text that it ends before. -/
theorem read_append (h : read g c cs = (lexeme, cs.length)) (he : lexeme.Ends (c :: cs) ds) :
    read g c (cs ++ ds) = (lexeme, cs.length) := by
  have hf := isFault_of_ends he
  have hstart := start_read g c cs
  rw [h] at hstart
  generalize hfound : (lexeme, cs.length) = found at hstart
  cases hstart with
  | @sigil sigil hs =>
    have hd : NoName ds := by
      unfold readSigil at hfound
      split at hfound <;> obtain ⟨rfl, -⟩ := Prod.mk.inj hfound
      · exact he
      · cases hf
    rw [(Start.sigil hs).read_eq, readSigil_append hd]
  | word hs hn =>
    have hd : NoName ds := by
      obtain ⟨rfl, -⟩ := Prod.mk.inj hfound
      exact noName_of_ends_word he
    rw [(Start.word hs hn).read_eq, readWord_append hd]
  | number hs hn hd =>
    obtain ⟨hl, hlen⟩ := Prod.mk.inj hfound
    obtain ⟨hl', hlen'⟩ := number_append (digit_or_point hd) hl.symm hlen.symm he
    rw [(Start.number hs hn (beginsNumber_append hd ds)).read_eq, hl', hlen', ← hl, ← hlen]
  | mark hs hn hd hm =>
    obtain ⟨rfl, hlen⟩ := Prod.mk.inj hfound
    obtain rfl := List.eq_nil_of_length_eq_zero hlen
    have hd' : beginsNumber c ds = false := by
      cases hpoint : (c == '.') with
      | false => simpa only [beginsNumber, hpoint, Bool.false_and, Bool.or_false] using hd
      | true =>
        have := he (beq_iff_eq.1 hpoint)
        simpa only [beginsNumber, hpoint, this, List.head?_nil, Option.any_none] using hd
    exact (Start.mark hs hn hd' hm).read_eq
  | literal hs hn hd hm hq =>
    have hd' := beginsNumber_of_not_mark hd hm (cs ++ ds)
    rw [(Start.literal hs hn hd' hm hq).read_eq, literal_append hfound.symm hf, hfound]
  | operator hs hn hd hm hq =>
    have hd' := beginsNumber_of_not_mark hd hm (cs ++ ds)
    rw [(Start.operator hs hn hd' hm hq).read_eq, operator_append hfound.symm he, hfound]

theorem beginsNumber_take (h : beginsNumber c cs = true) :
    beginsNumber c (cs.take ((Number.read (c :: cs)).2 - 1)) = true := by
  cases hd : isDigit c with
  | true => rw [beginsNumber, hd, Bool.true_or]
  | false =>
    obtain rfl : c = '.' := (digit_or_point h).resolve_left (by simp [hd])
    cases cs with
    | nil => cases h
    | cons d cs =>
      have hd : isDigit d = true := h
      have hle := Number.fraction_le_read_point (d :: cs)
      have hpos := Number.digitCount_pos hd cs
      obtain ⟨n, hn⟩ : ∃ n, (Number.read ('.' :: d :: cs)).2 - 1 = n + 1 :=
        ⟨(Number.read ('.' :: d :: cs)).2 - 2, by omega⟩
      rw [hn]
      exact hd

theorem read_le (g : Grammar) (c : Char) (cs : List Char) : (read g c cs).2 ≤ cs.length := by
  have hstart := start_read g c cs
  generalize read g c cs = found at hstart ⊢
  cases hstart with
  | sigil =>
    unfold readSigil
    split
    · exact (List.takeWhile_sublist _).length_le
    · exact Nat.zero_le _
  | word => exact (List.takeWhile_sublist _).length_le
  | number =>
    have := Number.read_le (c :: cs)
    rw [List.length_cons] at this
    dsimp only
    omega
  | mark => exact Nat.zero_le _
  | literal => exact Literal.readBody_le c [] cs
  | operator =>
    cases ho : Symbol.operatorAt? (c :: cs) with
    | none =>
      rw [readOperator, ho]
      exact Nat.zero_le _
    | some op =>
      rw [readOperator_of_operatorAt? ho]
      exact (toList_of_operatorAt? ho).2.1

/-- The characters of a lexeme, by themselves, are that lexeme. -/
theorem read_take (hf : (read g c cs).1.isFault = false) :
    read g c (cs.take (read g c cs).2) = read g c cs := by
  have hstart := start_read g c cs
  generalize read g c cs = found at hstart hf ⊢
  cases hstart with
  | sigil hs => rw [(Start.sigil hs).read_eq, readSigil_take hf]
  | word hs hn => rw [(Start.word hs hn).read_eq, readWord_take]
  | number hs hn hd =>
    have ht := Number.read_take hf
    rw [length_of_number (digit_or_point hd) rfl, List.take_succ_cons] at ht
    rw [(Start.number hs hn (beginsNumber_take hd)).read_eq, ht]
  | mark hs hn hd hm =>
    have hd' : beginsNumber c [] = false := by
      simp only [beginsNumber, Bool.or_eq_false_iff] at hd
      rw [beginsNumber, hd.1, List.head?_nil, Option.any_none, Bool.and_false, Bool.or_false]
    exact (Start.mark hs hn hd' hm).read_eq
  | literal hs hn hd hm hq =>
    have hd' := beginsNumber_of_not_mark hd hm (cs.take (Literal.read c cs).2)
    rw [(Start.literal hs hn hd' hm hq).read_eq]
    obtain ⟨fault, hv⟩ | ⟨value, hv⟩ := Literal.readBody_lexeme c [] cs
    · rw [Literal.read, hv] at hf
      cases hf
    · have := (Literal.readBody_take_append (Prod.ext hv rfl)).2 []
      rw [List.append_nil] at this
      rw [Literal.read, Literal.read, this, ← hv]
  | operator hs hn hd hm hq =>
    have hd' := beginsNumber_of_not_mark hd hm (cs.take (readOperator c cs).2)
    rw [(Start.operator hs hn hd' hm hq).read_eq]
    cases ho : Symbol.operatorAt? (c :: cs) with
    | none =>
      rw [readOperator, ho] at hf
      cases hf
    | some op =>
      obtain ⟨hmem, -, hop⟩ := toList_of_operatorAt? ho
      rw [readOperator_of_operatorAt? ho]
      refine readOperator_of_operatorAt? ?_
      rw [← hop]
      exact Symbol.operatorAt?_toList hmem

/-- No reserved word begins with a sigil. -/
theorem not_keyword_of_sigil (sigil : Sigil) (cs : List Char) :
    String.ofList (sigil.char :: cs) ∉ Symbol.keywords := by
  have table : ∀ word ∈ Symbol.keywords, ∀ sigil ∈ Sigil.all,
      word.toList.head? ≠ some sigil.char := by decide
  intro hm
  refine table _ hm sigil (by cases sigil <;> decide) ?_
  rw [String.toList_ofList]
  rfl

/-- What is read is no fault only if the language knows it. -/
theorem known_read (hf : (read g c cs).1.isFault = false) : (read g c cs).1.Known := by
  have hstart := start_read g c cs
  generalize read g c cs = found at hstart hf ⊢
  cases hstart with
  | @sigil sigil hs =>
    unfold readSigil at hf ⊢
    split
    · exact not_keyword_of_sigil sigil _
    · next hn => rw [if_neg hn] at hf; cases hf
  | word => exact known_word _
  | number =>
    obtain ⟨value, hv⟩ | ⟨fault, hv⟩ := Number.read_lexeme (c :: cs)
    · dsimp only
      rw [hv]
      trivial
    · rw [hv] at hf
      cases hf
  | mark _ _ _ hm => exact hm
  | literal =>
    obtain ⟨fault, hv⟩ | ⟨value, hv⟩ := Literal.readBody_lexeme c [] cs
    · rw [Literal.read, hv] at hf
      cases hf
    · rw [Literal.read, hv]
      trivial
  | operator =>
    cases ho : Symbol.operatorAt? (c :: cs) with
    | none =>
      rw [readOperator, ho] at hf
      cases hf
    | some op =>
      rw [readOperator_of_operatorAt? ho]
      exact (toList_of_operatorAt? ho).1

/-- A lexeme with a fixed spelling is read from its spelling. -/
theorem spelling_read {word : String} (h : (read g c cs).1.spelling? = some word) :
    String.ofList (c :: cs.take (read g c cs).2) = word := by
  have hstart := start_read g c cs
  generalize read g c cs = found at hstart h ⊢
  have htake : ∀ cs : List Char,
      cs.take (cs.takeWhile isNamePart).length = cs.takeWhile isNamePart := fun cs =>
    (List.prefix_iff_eq_take.1 (List.takeWhile_prefix _)).symm
  cases hstart with
  | @sigil sigil hs =>
    have hc : sigil.char = c := by
      obtain ⟨hs, -⟩ := Option.filter_eq_some_iff.1 hs
      exact Sigil.char_of_ofChar? hs
    unfold readSigil at h ⊢
    split
    · next hn =>
      rw [if_pos hn] at h
      rw [← Option.some.inj h, hc]
      dsimp only
      rw [htake]
    · next hn => rw [if_neg hn] at h; cases h
  | word =>
    unfold readWord at h ⊢
    dsimp only at h ⊢
    rw [spelling?_word] at h
    rw [← Option.some.inj h, htake]
  | number =>
    obtain ⟨value, hv⟩ | ⟨fault, hv⟩ := Number.read_lexeme (c :: cs) <;>
    · dsimp only at h
      rw [hv] at h
      cases h
  | mark => exact Option.some.inj h
  | literal =>
    obtain ⟨fault, hv⟩ | ⟨value, hv⟩ := Literal.readBody_lexeme c [] cs <;>
    · rw [Literal.read, hv] at h
      cases h
  | operator =>
    cases ho : Symbol.operatorAt? (c :: cs) with
    | none =>
      rw [readOperator, ho] at h
      cases h
    | some op =>
      rw [readOperator_of_operatorAt? ho] at h ⊢
      rw [← Option.some.inj h, ← (toList_of_operatorAt? ho).2.2, String.ofList_toList]

/-- No lexeme but an operator begins with the character. -/
def beginsOperator (c : Char) : Bool :=
  (Sigil.ofChar? c).isNone && !isNameStart c && !isDigit c && c != '.' &&
    !Symbol.marks.contains c && !(c == '\'' || c == '"')

theorem start_of_beginsOperator (hc : beginsOperator c = true) :
    Start g c cs (readOperator c cs) := by
  simp only [beginsOperator, Bool.and_eq_true, Option.isNone_iff_eq_none, Bool.not_eq_true',
    bne_iff_ne, ne_eq] at hc
  obtain ⟨⟨⟨⟨⟨hs, hn⟩, hd⟩, hp⟩, hm⟩, hq⟩ := hc
  have hs : g.sigil? c = none := by rw [Grammar.sigil?, hs]; rfl
  have hd : beginsNumber c cs = false := by simp [beginsNumber, hd, hp]
  exact .operator hs hn hd (by simpa using hm) hq

theorem beginsOperator_ascii (hc : c.toNat < 128) :
    beginsOperator c = ((Sigil.ofChar? c).isNone && !(c.isAlpha || c == '_' || c == '$') &&
      !isDigit c && c != '.' && !Symbol.marks.contains c && !(c == '\'' || c == '"')) := by
  rw [beginsOperator, isNameStart_ascii hc]

theorem operator_of_beginsOperator (hc : beginsOperator c = true)
    (hf : (read g c cs).1.isFault = false) :
    ∃ op ∈ Symbol.operators, (read g c cs).1 = .operator op ∧
      op.toList = c :: cs.take (read g c cs).2 := by
  have hr : read g c cs = readOperator c cs := (start_of_beginsOperator hc).read_eq
  rw [hr] at hf ⊢
  cases ho : Symbol.operatorAt? (c :: cs) with
  | none =>
    rw [readOperator, ho] at hf
    cases hf
  | some op =>
    rw [readOperator_of_operatorAt? ho]
    obtain ⟨hmem, -, hop⟩ := toList_of_operatorAt? ho
    exact ⟨op, hmem, rfl, hop⟩

end Lexeme

end TemplateExpr
