/-
  The walk over a document and the look at a single offset see the same regions. Asked again and
  again, the walk answers with the regions of the document in their order, then with an error if
  a brace has no partner, then with nothing; and the document is these regions with text between
  them in which no brace opens.

  * `Region.at?_of_closing?`, `Region.at?_of_openBrace`: what a look at a brace finds.
  * `RegionWalk.cut_of_cursor`: the answers of a walk that stands somewhere in a document.
  * `RegionWalk.answers_ofDocument`: all the answers of the walk over a document.
-/
import TemplateExpr.Proofs.Document.Walk

namespace TemplateExpr
open Source

/-! ## One look at an offset -/

theorem Source.Cursor.place_past (cs ds : List Char) :
    (Cursor.origin.past cs).place = ⟨cs.length, positionAt (cs ++ ds) cs.length⟩ := by
  have ho : (Cursor.origin.past cs).place.offset = cs.length := by
    rw [Cursor.offset_past]
    exact Nat.zero_add _
  rw [positionAt, List.take_left, ← ho]

/-- A look at the offset of a brace that has a partner finds the region between them. -/
theorem Region.at?_of_closing? (before : List Char) {code after : List Char}
    (h : closing? 1 none (code ++ '}' :: after) = some (code.length + 1)) :
    at? (before ++ '{' :: (code ++ '}' :: after)) before.length =
      .ok (some ⟨code, Origin.ofPlace (Cursor.origin.past (before ++ ['{'])).place, before.length,
        before.length + code.length + 2⟩) := by
  have horigin : Origin.atOffset (before ++ '{' :: (code ++ '}' :: after)) (before.length + 1) =
      Origin.ofPlace (Cursor.origin.past (before ++ ['{'])).place := by
    rw [Cursor.place_past _ (code ++ '}' :: after), List.append_assoc, List.length_append]
    rfl
  have hstop : before.length + 1 + (code.length + 1) = before.length + code.length + 2 := by
    omega
  rw [at?, List.drop_left]
  simp only [h, horigin, hstop, Nat.add_sub_cancel, List.take_left']

/-- A look at the offset of a brace without partner finds the error there. -/
theorem Region.at?_of_openBrace (before : List Char) {inner : List Char}
    (h : closing? 1 none inner = none) :
    at? (before ++ '{' :: inner) before.length =
      .error ⟨.openBrace, (Cursor.origin.past before).place, none⟩ := by
  rw [at?, List.drop_left]
  simp only [h]
  rw [Cursor.place_past before ('{' :: inner)]

/-! ## A document that is cut into regions -/

/-- A region, and the text between the region before it and this one. -/
structure Stretch where
  gap : List Char
  region : Region

/-- The characters of the document that the stretch is. -/
def Stretch.text (part : Stretch) : List Char :=
  part.gap ++ '{' :: (part.region.code ++ ['}'])

/-- No brace opens in the gap, and at the brace behind it the region is found, which ends where
    the stretch ends. -/
structure Stretch.StandsBehind (document before : List Char) (part : Stretch) : Prop where
  gap : '{' ∉ part.gap
  start_eq : part.region.start = (before ++ part.gap).length
  stop_eq : part.region.stop = (before ++ part.text).length
  at?_eq : Region.at? document part.region.start = .ok (some part.region)

/-- The stretch of a gap and of the region in the braces behind it. -/
def Stretch.ofGap (before gap code : List Char) : Stretch :=
  ⟨gap, ⟨code, Origin.ofPlace (Cursor.origin.past (before ++ gap ++ ['{'])).place,
    (before ++ gap).length, (before ++ gap).length + code.length + 2⟩⟩

theorem Stretch.standsBehind_ofGap {before gap code after : List Char} (hgap : '{' ∉ gap)
    (hn : Region.closing? 1 none (code ++ '}' :: after) = some (code.length + 1)) :
    (ofGap before gap code).StandsBehind (before ++ (gap ++ '{' :: (code ++ '}' :: after)))
      before := by
  have hstop : (before ++ (ofGap before gap code).text).length =
      (before ++ gap).length + code.length + 2 := by
    simp only [ofGap, text, List.length_append, List.length_cons, List.length_nil]
    omega
  have hat := Region.at?_of_closing? (before ++ gap) hn
  rw [List.append_assoc] at hat
  exact ⟨hgap, rfl, hstop.symm, hat⟩

/-- What is left behind the last region: nothing there opens a brace, or at the first one the
    error is found. -/
def EndsBehind (document before tail : List Char) : Option SyntaxError → Prop
  | none => '{' ∉ tail
  | some e => ∃ gap inner, tail = gap ++ '{' :: inner ∧ '{' ∉ gap ∧
      e.place.offset = (before ++ gap).length ∧ Region.at? document e.place.offset = .error e

/-- What a walk answers that finds these stretches, and then perhaps an error. -/
def answers (parts : List Stretch) (error : Option SyntaxError) :
    List (Except SyntaxError Region) :=
  parts.map (.ok ·.region) ++ (error.map .error).toList

/-- Each stretch stands behind the ones before it, the first one behind the given text. -/
def StandInOrder (document before : List Char) (parts : List Stretch) : Prop :=
  ∀ front part back, parts = front ++ part :: back →
    part.StandsBehind document (before ++ front.flatMap Stretch.text)

theorem StandInOrder.nil (document before : List Char) : StandInOrder document before [] := by
  intro front part back h
  cases front <;> cases h

theorem StandInOrder.cons {document before : List Char} {part : Stretch} {parts : List Stretch}
    (h : part.StandsBehind document before)
    (hr : StandInOrder document (before ++ part.text) parts) :
    StandInOrder document before (part :: parts) := by
  intro front other back heq
  cases front with
  | nil =>
    obtain ⟨rfl, rfl⟩ := List.cons.inj heq
    rwa [List.flatMap_nil, List.append_nil]
  | cons first front =>
    obtain ⟨rfl, rfl⟩ := List.cons.inj heq
    rw [List.flatMap_cons, ← List.append_assoc]
    exact hr front other back rfl

/-! ## The answers of the walk -/

namespace RegionWalk

variable {document : List Char} {walk : RegionWalk}

/-- The first answer, and then those of the walk behind it. -/
theorem after_succ (walk : RegionWalk) (n : Nat) : walk.after (n + 1) = walk.next.2.after n := by
  induction n with
  | zero => rfl
  | succ n ih => rw [after, ih, ← after]

/-- A walk that is over stays so and has no answer. -/
theorem next_finished (walk : RegionWalk) : walk.finished.next = (none, walk.finished) :=
  next_of_noBrace rfl

theorem answer_finished (walk : RegionWalk) (n : Nat) :
    (walk.finished.after n).next.1 = none := by
  have hn : walk.finished.after n = walk.finished := by
    induction n with
    | zero => rfl
    | succ n ih => rw [after, ih, next_finished]
  rw [hn, next_finished]

/-- After an answer that ends the walk there is none. -/
theorem answers_of_last {answer : Option (Except SyntaxError Region)}
    (h : walk.next = (answer, walk.finished)) (n : Nat) :
    (walk.after n).next.1 = answer.toList[n]? := by
  cases n with
  | zero =>
    rw [after, h]
    cases answer <;> rfl
  | succ n =>
    rw [after_succ, h, answer_finished]
    cases answer <;> rfl

/-- From a place in the document on: the answers of the walk, and what is left, cut by them. -/
theorem cut_of_cursor (walk : RegionWalk) (before : List Char)
    (hd : document = before ++ walk.rest) (hc : walk.cursor = Cursor.origin.past before) :
    ∃ (parts : List Stretch) (tail : List Char) (error : Option SyntaxError),
      walk.rest = parts.flatMap Stretch.text ++ tail ∧
      (∀ n, (walk.after n).next.1 = (answers parts error)[n]?) ∧
      StandInOrder document before parts ∧
      EndsBehind document (before ++ parts.flatMap Stretch.text) tail error := by
  induction hk : walk.rest.length using Nat.strongRecOn generalizing walk before with
  | ind k ih =>
    obtain ⟨hno, hnext⟩ | ⟨gap, inner, hr, hgap, hn, hnext⟩ |
        ⟨gap, code, after, hr, hgap, hn, hnext⟩ := next_cases hc
    · exact ⟨[], walk.rest, none, rfl, answers_of_last hnext, .nil _ _, hno⟩
    · have hat := Region.at?_of_openBrace (before ++ gap) hn
      rw [List.append_assoc, ← hr, ← hd] at hat
      have hoffset : (Cursor.origin.past (before ++ gap)).place.offset =
          (before ++ gap).length := by
        rw [Cursor.place_past _ []]
      refine ⟨[], walk.rest, some _, rfl, answers_of_last hnext, .nil _ _, gap, inner, hr, hgap,
        ?_, ?_⟩
      · rw [hoffset, List.flatMap_nil, List.append_nil]
      · rw [hoffset]
        exact hat
    · have hpart := @Stretch.standsBehind_ofGap before gap code after hgap hn
      rw [← hr, ← hd] at hpart
      -- the stretch that this step finds, and the walk behind it
      generalize hdef : Stretch.ofGap before gap code = part at hpart
      have htext : before ++ part.text = before ++ gap ++ '{' :: (code ++ ['}']) := by
        rw [← hdef]
        exact (List.append_assoc _ _ _).symm
      have hrest : walk.rest = part.text ++ after := by
        rw [hr, ← hdef]
        simp [Stretch.ofGap, Stretch.text]
      have hlen : after.length < k := by
        rw [← hk, hrest, List.length_append, Stretch.text, List.length_append, List.length_cons]
        omega
      have hafter := ih _ hlen walk.next.2 (before ++ part.text)
      rw [hnext, htext] at hafter
      obtain ⟨parts, tail, error, hcut, hanswers, hparts, hend⟩ :=
        hafter (by rw [← htext, List.append_assoc, ← hrest, hd]) rfl rfl
      rw [← htext] at hparts hend
      refine ⟨part :: parts, tail, error, ?_, ?_, hparts.cons hpart, ?_⟩
      · rw [hrest, List.flatMap_cons, List.append_assoc, ← hcut]
      · intro n
        cases n with
        | zero => rw [RegionWalk.after, hnext, ← hdef]; rfl
        | succ n => rw [after_succ, hnext, hanswers]; rfl
      · rwa [List.flatMap_cons, ← List.append_assoc]

/-- The answers of the walk over a document are its regions in their order, then at most one
    error, then nothing. Each is what a look at the offset of its brace finds, and the document is
    the regions in their braces with text between them in which no brace opens; behind the last
    region that holds up to the brace of the error, if there is one. -/
theorem answers_ofDocument (document : List Char) :
    ∃ (parts : List Stretch) (tail : List Char) (error : Option SyntaxError),
      document = parts.flatMap Stretch.text ++ tail ∧
      (∀ n, ((ofDocument document).after n).next.1 = (answers parts error)[n]?) ∧
      StandInOrder document [] parts ∧
      EndsBehind document (parts.flatMap Stretch.text) tail error :=
  cut_of_cursor (ofDocument document) [] rfl rfl

end RegionWalk

end TemplateExpr
