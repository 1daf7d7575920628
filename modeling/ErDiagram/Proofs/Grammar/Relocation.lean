import ErDiagram.Proofs.Grammar.Reading

/-! The readers do not see where the tokens stand. Of the source they see the types only, so the
same tokens in another source, each of them further down by the same number of lines, are read
alike. -/
namespace ErDiagram

/-- The fault on a later line. -/
def SyntaxFault.lower (down : Nat) (f : SyntaxFault) : SyntaxFault :=
  { f with line := f.line + down }

namespace Grammar

open Parse

/-- The type that these tokens begin with, cut out of the source. -/
def typeText? (source : List Char) (ts : List Located) : Option (List Char) :=
  match ts.takeWhile isTypeToken with
  | [] => none
  | first :: more =>
      some (Text.trimChars (Text.slice first.start
        ((first :: more).getLast (List.cons_ne_nil _ _)).stop source))

theorem typeText_eq (source : List Char) (endLine : Nat) (ts : List Located) :
    typeText source endLine ts =
      match typeText? source ts with
      | none => .error (unexpected endLine .typeName ts)
      | some text => .ok (String.ofList text, ts.dropWhile isTypeToken) := by
  unfold typeText typeText?
  cases ts.takeWhile isTypeToken <;> rfl

theorem moreFlags_flag (endLine : Nat) (flag : String) (line start stop line' start' stop' : Nat)
    (ts : List Located) :
    moreFlags endLine (⟨.comma, line, start, stop⟩ :: ⟨.ident flag, line', start', stop'⟩ :: ts) =
      (do
        let (flags, rest) ← moreFlags endLine ts
        return (flag :: flags, rest)) := by
  rw [moreFlags]
  cases moreFlags endLine ts <;> rfl

/-- The same tokens in another source, further down by some lines. -/
inductive Relocated (source other : List Char) (down : Nat) :
    List Located → List Located → Prop where
  | nil : Relocated source other down [] []
  | cons {token : Token} {line start stop start' stop' : Nat} {ts ts' : List Located}
      (hType : typeText? other (⟨token, line + down, start', stop'⟩ :: ts') =
        typeText? source (⟨token, line, start, stop⟩ :: ts))
      (later : Relocated source other down ts ts') :
      Relocated source other down (⟨token, line, start, stop⟩ :: ts)
        (⟨token, line + down, start', stop'⟩ :: ts')

/-- The readers give the same, or the same fault further down. -/
inductive SameRead {α : Type} (down : Nat) (Same : α → α → Prop) : Read α → Read α → Prop where
  | ok {a b : α} (hSame : Same a b) : SameRead down Same (.ok a) (.ok b)
  | error (f : SyntaxFault) : SameRead down Same (.error f) (.error (f.lower down))

theorem SameRead.bind {α β : Type} {down : Nat} {Same : α → α → Prop} {Alike : β → β → Prop}
    {x y : Read α} {f g : α → Read β} (h : SameRead down Same x y)
    (hNext : ∀ a b, Same a b → SameRead down Alike (f a) (g b)) :
    SameRead down Alike (x >>= f) (y >>= g) := by
  cases h with
  | ok hSame => exact hNext _ _ hSame
  | error f => exact .error f

theorem SameRead.eq {α : Type} {x y : Read α} (h : SameRead 0 (fun a b => b = a) x y) : y = x := by
  cases h with
  | ok hSame => rw [hSame]
  | error f => rfl

theorem sameRead_note (down line : Nat) (segment : List Char) :
    SameRead down (fun a b => b = a) (note line segment) (note (line + down) segment) := by
  unfold note
  cases Text.splitFirst '=' segment with
  | none => exact .error _
  | some parts => exact .ok rfl

theorem sameRead_notesOf (down line : Nat) (content : List Char) :
    SameRead down (fun a b => b = a) (notesOf line content) (notesOf (line + down) content) := by
  unfold notesOf
  split
  · exact .ok rfl
  · induction Text.splitOn ',' content with
    | nil => exact .ok rfl
    | cons segment segments ih =>
        rw [List.mapM_cons, List.mapM_cons]
        refine (sameRead_note down line segment).bind fun first _ hFirst => ?_
        refine ih.bind fun others _ hOthers => ?_
        rw [hFirst, hOthers]
        exact .ok rfl

section

variable {source other : List Char} {down : Nat}

/-- The same value, and the same tokens behind it. -/
def SameRest (source other : List Char) (down : Nat) {α : Type} (a b : α × List Located) : Prop :=
  b.1 = a.1 ∧ Relocated source other down a.2 b.2

theorem SameRead.bindRead {α β : Type} {Alike : β → β → Prop}
    {x y : Read (α × List Located)} {f g : α × List Located → Read β}
    (h : SameRead down (SameRest source other down) x y)
    (hNext : ∀ a ts ts', x = .ok (a, ts) → Relocated source other down ts ts' →
      SameRead down Alike (f (a, ts)) (g (a, ts'))) :
    SameRead down Alike (x >>= f) (y >>= g) := by
  cases h with
  | @ok a b hSame =>
      obtain ⟨value, ts⟩ := a
      obtain ⟨_, ts'⟩ := b
      obtain ⟨rfl, hRest⟩ := hSame
      exact hNext _ ts ts' rfl hRest
  | error f => exact .error f

theorem SameRead.bindRest {α β : Type} {Alike : β → β → Prop}
    {x y : Read (α × List Located)} {f g : α × List Located → Read β}
    (h : SameRead down (SameRest source other down) x y)
    (hNext : ∀ a ts ts', Relocated source other down ts ts' →
      SameRead down Alike (f (a, ts)) (g (a, ts'))) :
    SameRead down Alike (x >>= f) (y >>= g) :=
  h.bindRead fun a ts ts' _ => hNext a ts ts'

variable {ts ts' : List Located} (h : Relocated source other down ts ts') (endLine : Nat)

include h

theorem Relocated.typeText?_eq : typeText? other ts' = typeText? source ts := by
  cases h with
  | nil => rfl
  | cons hType later => exact hType

theorem Relocated.unexpected (expected : Expectation) :
    unexpected (endLine + down) expected ts' = (unexpected endLine expected ts).lower down := by
  cases h <;> rfl

theorem Relocated.dropWhile :
    Relocated source other down (ts.dropWhile isTypeToken) (ts'.dropWhile isTypeToken) := by
  induction h with
  | nil => exact .nil
  | @cons token line start stop start' stop' ts ts' hType later ih =>
      rw [List.dropWhile_cons, List.dropWhile_cons]
      change Relocated _ _ _ (if isTypeToken ⟨token, line, start, stop⟩ then _ else _)
        (if isTypeToken ⟨token, line, start, stop⟩ then _ else _)
      split
      · exact ih
      · exact .cons hType later

theorem Relocated.error {α : Type} {Same : α → α → Prop} (expected : Expectation) :
    SameRead down Same (.error (Parse.unexpected endLine expected ts))
      (.error (Parse.unexpected (endLine + down) expected ts')) := by
  rw [h.unexpected]
  exact .error _

theorem Relocated.ident (expected : Expectation) :
    SameRead down (SameRest source other down) (ident endLine expected ts)
      (ident (endLine + down) expected ts') := by
  cases h with
  | nil => exact .error _
  | @cons token _ _ _ _ _ _ _ _ later =>
      cases token with
      | ident name => exact .ok ⟨rfl, later⟩
      | _ => exact .error _

theorem Relocated.mark (token : Token) (expected : Expectation) :
    SameRead down (SameRest source other down) (mark endLine token expected ts)
      (mark (endLine + down) token expected ts') := by
  cases h with
  | nil => exact .error _
  | @cons found line start stop start' stop' ts ts' hType later =>
      by_cases hToken : found = token
      · simp only [Parse.mark, hToken, if_true]
        exact .ok ⟨rfl, later⟩
      · simp only [Parse.mark, hToken, if_false]
        exact .error _

theorem Relocated.moreFlags :
    SameRead down (SameRest source other down) (moreFlags endLine ts)
      (moreFlags (endLine + down) ts') := by
  induction hLength : ts.length using Nat.strong_induction_on generalizing ts ts' with
  | _ length ih =>
      cases h with
      | nil => exact .ok ⟨rfl, .nil⟩
      | @cons token _ _ _ _ _ _ _ hType later =>
          cases token with
          | comma =>
              cases later with
              | nil => exact .error _
              | @cons token line start stop start' stop' ts ts' hFlag later =>
                  cases token with
                  | ident flag =>
                      rw [moreFlags_flag, moreFlags_flag]
                      have hShorter : ts.length < length := by
                        simp only [← hLength, List.length_cons]
                        omega
                      have hLater := ih _ hShorter later rfl
                      exact hLater.bindRest fun flags ts ts' hRest => .ok ⟨rfl, hRest⟩
                  | _ => exact .error _
          | _ => exact .ok ⟨rfl, .cons hType later⟩

theorem Relocated.flags :
    SameRead down (SameRest source other down) (flags endLine ts)
      (flags (endLine + down) ts') := by
  cases h with
  | nil => exact .ok ⟨rfl, .nil⟩
  | @cons token _ _ _ _ _ _ _ hType later =>
      cases token with
      | openParen =>
          refine (later.ident endLine .flagName).bindRest fun first ts ts' hOthers => ?_
          refine (hOthers.moreFlags endLine).bindRest fun others ts ts' hClosing => ?_
          exact (hClosing.mark endLine .closeParen .closeParen).bindRest fun _ ts ts' hRest =>
            .ok ⟨rfl, hRest⟩
      | _ => exact .ok ⟨rfl, .cons hType later⟩

omit endLine in
theorem Relocated.questionMark :
    SameRest source other down (questionMark ts) (questionMark ts') := by
  cases h with
  | nil => exact ⟨rfl, .nil⟩
  | @cons token _ _ _ _ _ _ _ hType later =>
      cases token with
      | question => exact ⟨rfl, later⟩
      | _ => exact ⟨rfl, .cons hType later⟩

omit endLine in
theorem Relocated.lateQuestion (early : Bool) :
    SameRest source other down (lateQuestion early ts) (lateQuestion early ts') := by
  cases early with
  | true => exact ⟨rfl, h⟩
  | false => exact h.questionMark

theorem Relocated.typeText :
    SameRead down (SameRest source other down) (typeText source endLine ts)
      (typeText other (endLine + down) ts') := by
  rw [typeText_eq, typeText_eq, h.typeText?_eq]
  cases typeText? source ts with
  | none => exact h.error endLine .typeName
  | some text => exact .ok ⟨rfl, h.dropWhile⟩

omit endLine in
theorem Relocated.notes :
    SameRead down (SameRest source other down) (notes ts) (notes ts') := by
  cases h with
  | nil => exact .ok ⟨rfl, .nil⟩
  | @cons token line start stop start' stop' ts ts' hType later =>
      cases token with
      | text content =>
          refine (sameRead_notesOf down line content.toList).bind fun read _ hRead => ?_
          exact .ok ⟨hRead, later⟩
      | _ => exact .ok ⟨rfl, .cons hType later⟩

theorem Relocated.target (hasFlags : Bool) :
    SameRead down (SameRest source other down) (target source endLine hasFlags ts)
      (target other (endLine + down) hasFlags ts') := by
  cases h with
  | nil => exact .error _
  | @cons token line start stop start' stop' ts ts' hType later =>
      cases token with
      | colon =>
          exact (later.typeText endLine).bindRest fun text ts ts' hRest => .ok ⟨rfl, hRest⟩
      | arrow =>
          cases hasFlags with
          | true => exact .error _
          | false =>
              refine (later.ident endLine .referencedTable).bindRest fun table ts ts' hDot => ?_
              refine (hDot.mark endLine .dot .dot).bindRest fun _ ts ts' hAttr => ?_
              exact (hAttr.ident endLine .referencedAttribute).bindRest fun attr ts ts' hRest =>
                .ok ⟨rfl, hRest⟩
      | _ => exact .error _

theorem Relocated.attributeDecl :
    SameRead down (SameRest source other down) (attributeDecl source endLine ts)
      (attributeDecl other (endLine + down) ts') := by
  refine (h.ident endLine .attributeName).bindRest fun name us us' hName => ?_
  obtain ⟨hEarly, hFlags⟩ := hName.questionMark
  dsimp only
  rw [hEarly]
  refine (hFlags.flags endLine).bindRest fun flags vs vs' hLate => ?_
  obtain ⟨hLateMark, hTarget⟩ := hLate.lateQuestion (Parse.questionMark us).1
  dsimp only
  rw [← Grammar.lateQuestion, ← Grammar.lateQuestion, hLateMark]
  refine (hTarget.target endLine _).bindRest fun target ws ws' hNotes => ?_
  exact hNotes.notes.bindRest fun ns ts ts' hRest => .ok ⟨rfl, hRest⟩

end

theorem block_attribute (source : List Char) (endLine : Nat) (table : String) (tableLine : Nat)
    (seen : List String) {t : Located} (hBreak : t.token ≠ .lineBreak)
    (hBrace : t.token ≠ .closeBrace) (ts : List Located) :
    block source endLine table tableLine seen (t :: ts) = (do
      let (a, after) ← attributeDecl source endLine (t :: ts)
      if a.name ∈ seen then .error ⟨t.line, .duplicateAttribute table a.name⟩
      else
        match after with
        | [] => .error ⟨tableLine, .unclosedTable table⟩
        | u :: more =>
            if u.token = .lineBreak ∨ u.token = .closeBrace then do
              let (others, rest) ← block source endLine table tableLine (a.name :: seen) (u :: more)
              return (a :: others, rest)
            else .error (unexpected endLine .endOfLine (u :: more))) := by
  rw [block]
  split
  · exact absurd ‹_› hBreak
  · exact absurd ‹_› hBrace
  · split
    · rename_i hRead
      simp only [hRead, bind, Except.bind]
    · rename_i a after hRead
      simp only [hRead, bind, Except.bind]
      cases after with
      | nil => rfl
      | cons u more =>
          dsimp only
          cases block source endLine table tableLine (a.name :: seen) (u :: more) <;> rfl

theorem Relocated.block {source other : List Char} {down : Nat} {ts ts' : List Located}
    (h : Relocated source other down ts ts') (endLine : Nat) (table : String) (tableLine : Nat)
    (seen : List String) :
    SameRead down (SameRest source other down) (block source endLine table tableLine seen ts)
      (block other (endLine + down) table (tableLine + down) seen ts') := by
  induction hLength : ts.length using Nat.strong_induction_on generalizing ts ts' seen with
  | _ length ih =>
      have hAll := h
      cases h with
      | nil =>
          rw [Parse.block, Parse.block]
          exact .error _
      | @cons token line start stop start' stop' ts ts' hType later =>
          by_cases hBreak : token = .lineBreak
          · subst hBreak
            rw [Parse.block, Parse.block]
            exact ih _ (by simp [← hLength]) later seen rfl
          by_cases hBrace : token = .closeBrace
          · subst hBrace
            rw [Parse.block, Parse.block]
            exact .ok ⟨rfl, later⟩
          rw [block_attribute _ _ _ _ _ hBreak hBrace, block_attribute _ _ _ _ _ hBreak hBrace]
          refine (hAll.attributeDecl endLine).bindRead fun a us us' hRead hAfter => ?_
          by_cases hSeen : a.name ∈ seen
          · simp only [hSeen, if_true]
            exact .error _
          simp only [hSeen, if_false]
          cases hAfter with
          | nil => exact .error _
          | @cons token line start stop start' stop' ts ts' hType later =>
              by_cases hEnd : token = .lineBreak ∨ token = .closeBrace
              · simp only [hEnd, if_true]
                have hShorter := hLength ▸ attributeDecl_length hRead
                exact (ih _ hShorter (.cons hType later) _ rfl).bindRest fun others ts ts' hRest =>
                  .ok ⟨rfl, hRest⟩
              · simp only [hEnd, if_false]
                exact .error _

theorem Relocated.table {source other : List Char} {down : Nat} {ts ts' : List Located}
    (h : Relocated source other down ts ts') (endLine line : Nat) :
    SameRead down (SameRest source other down) (table source endLine line ts)
      (table other (endLine + down) (line + down) ts') := by
  refine (h.ident endLine .tableName).bindRest fun name us us' hBrace => ?_
  refine (hBrace.mark endLine .openBrace .openBrace).bindRest fun _ vs vs' hBlock => ?_
  exact (hBlock.block endLine name line []).bindRest fun attributes ts ts' hRest =>
    .ok ⟨rfl, hRest⟩

theorem tables_keyword (source : List Char) (endLine : Nat) (seen : List String) {t : Located}
    (hKeyword : t.token = .ident "table") (ts : List Located) :
    Parse.tables source endLine seen (t :: ts) = (do
      let (read, after) ← Parse.table source endLine t.line ts
      if read.name ∈ seen then .error ⟨t.line, .duplicateTable read.name⟩
      else do
        let others ← Parse.tables source endLine (read.name :: seen) after
        return read :: others) := by
  rw [Parse.tables, if_neg (by simp [hKeyword]), if_pos hKeyword]
  split
  · rename_i hRead
    simp only [hRead, bind, Except.bind]
  · rename_i read after hRead
    simp only [hRead, bind, Except.bind]
    cases Parse.tables source endLine (read.name :: seen) after <;> rfl

/-- All tables are read alike. -/
theorem Relocated.tables {source other : List Char} {down : Nat} {ts ts' : List Located}
    (h : Relocated source other down ts ts') (endLine : Nat) (seen : List String) :
    SameRead down (fun a b => b = a) (Parse.tables source endLine seen ts)
      (Parse.tables other (endLine + down) seen ts') := by
  induction hLength : ts.length using Nat.strong_induction_on generalizing ts ts' seen with
  | _ length ih =>
      have hAll := h
      cases h with
      | nil =>
          rw [Parse.tables, Parse.tables]
          exact .ok rfl
      | @cons token line start stop start' stop' ts ts' hType later =>
          by_cases hBreak : token = .lineBreak
          · subst hBreak
            rw [Parse.tables, Parse.tables]
            exact ih _ (by simp [← hLength]) later seen rfl
          by_cases hKeyword : token = .ident "table"
          · rw [tables_keyword _ _ _ hKeyword, tables_keyword _ _ _ hKeyword]
            refine (later.table endLine line).bindRead fun read us us' hRead hAfter => ?_
            by_cases hSeen : read.name ∈ seen
            · simp only [hSeen, if_true]
              exact .error _
            · simp only [hSeen, if_false]
              have hShorter : us.length < length := by
                rw [← hLength]
                exact Nat.lt_succ_of_lt (table_length hRead)
              refine (ih _ hShorter hAfter _ rfl).bind fun others _ hOthers => ?_
              exact .ok (congrArg _ hOthers)
          · rw [Parse.tables, Parse.tables]
            simp only [hBreak, hKeyword, if_false]
            exact .error _

end Grammar
end ErDiagram
