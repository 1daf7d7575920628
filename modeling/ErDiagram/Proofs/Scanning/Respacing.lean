import ErDiagram.Proofs.Grammar.Relocation
import ErDiagram.Proofs.Scanning.TypesAhead

/-! Texts that differ in their gaps only. They are scanned into the same tokens, each on the same
line as in the other text or further down by the same number of lines, and the same types stand
among them. -/
namespace ErDiagram.Token

open Text Grammar

/-- The other text has the same lexemes, with the same type ahead of each of them. -/
inductive Respaced : List Char → List Char → Prop where
  | done {cs ds : List Char} (hGap : (splitGap false cs).2 = [])
      (hOther : (splitGap false ds).2 = []) : Respaced cs ds
  | stuck {cs ds more others : List Char} {c : Char} {cause : ScanCause}
      (hGap : (splitGap false cs).2 = c :: more) (hOther : (splitGap false ds).2 = c :: others)
      (hError : lexeme c more = .error cause) (hOtherError : lexeme c others = .error cause) :
      Respaced cs ds
  | token {cs ds more others rest otherRest spelling : List Char} {c : Char} {t : Token}
      (hGap : (splitGap false cs).2 = c :: more) (hOther : (splitGap false ds).2 = c :: others)
      (hLexeme : lexeme c more = .ok ⟨t, spelling, rest⟩)
      (hOtherLexeme : lexeme c others = .ok ⟨t, spelling, otherRest⟩)
      (hType : typeAhead ds = typeAhead cs) (later : Respaced rest otherRest) : Respaced cs ds

theorem Respaced.refl (cs : List Char) : Respaced cs cs := by
  induction hLength : cs.length using Nat.strong_induction_on generalizing cs with
  | _ length ih =>
      cases hGap : (splitGap false cs).2 with
      | nil => exact .done hGap hGap
      | cons c more =>
          cases hLexeme : lexeme c more with
          | error cause => exact .stuck hGap hGap hLexeme hLexeme
          | ok l =>
              refine .token hGap hGap hLexeme hLexeme rfl (ih _ ?_ l.rest rfl)
              have hSplit := congrArg List.length (splitGap_append false cs)
              have hRest := lexeme_rest_length hLexeme
              simp only [hGap, List.length_append, List.length_cons] at hSplit
              omega

/-- A token behind two gaps, in front of two texts that are scanned alike. -/
theorem Respaced.spelled {gap otherGap rest otherRest spelling : List Char} {t : Token}
    (hSpells : Spells rest t spelling) (hGap : IsGap gap (spelling ++ rest))
    (hOtherGap : IsGap otherGap (spelling ++ otherRest))
    (hHead : ∀ c ∈ otherRest.head?, isBlank c ∨ c ∈ rest.head?)
    (hType :
      typeAhead (otherGap ++ (spelling ++ otherRest)) = typeAhead (gap ++ (spelling ++ rest)))
    (later : Respaced rest otherRest) :
    Respaced (gap ++ (spelling ++ rest)) (otherGap ++ (spelling ++ otherRest)) := by
  obtain ⟨c, more, rfl, hStop, hLexeme⟩ := hSpells.lexeme_eq
  obtain ⟨_, _, hSame, -, hOtherLexeme⟩ := (hSpells.replace hHead).lexeme_eq
  obtain ⟨rfl, rfl⟩ := List.cons.inj hSame
  have hSplit := hGap.splitGap_eq (splitGap_of_stop hStop)
  have hOtherSplit := hOtherGap.splitGap_eq (splitGap_of_stop hStop)
  exact .token (congrArg Prod.snd hSplit) (congrArg Prod.snd hOtherSplit) hLexeme hOtherLexeme hType
    later

/-- Both texts are scanned alike, the other one further down. -/
inductive SameScan (source other : List Char) (down : Nat) :
    Except ScanError Scanned → Except ScanError Scanned → Prop where
  | ok {s s' : Scanned} (hTokens : Relocated source other down s.tokens s'.tokens)
      (hEnd : s'.endLine = s.endLine + down) : SameScan source other down (.ok s) (.ok s')
  | error (line : Nat) (cause : ScanCause) :
      SameScan source other down (.error ⟨line, cause⟩) (.error ⟨line + down, cause⟩)

/-- The type that scanned tokens begin with is the one ahead. -/
theorem typeText?_eq {line : Nat} {ahead cs : List Char} {s : Scanned}
    (h : scanFrom line (byteLength ahead) cs = .ok s) :
    typeText? (ahead ++ cs) s.tokens =
      if s.tokens.head?.any Parse.isTypeToken then some (typeAhead cs) else none := by
  have hSpans := (scanFrom_laid h).spansType rfl
  unfold typeText?
  cases hTokens : s.tokens with
  | nil => rfl
  | cons t ts =>
      rw [hTokens] at hSpans
      by_cases hType : Parse.isTypeToken t
      · rw [List.takeWhile_cons_of_pos hType] at hSpans ⊢
        rw [List.head?_cons, Option.any_some, if_pos hType]
        exact congrArg some hSpans.slice_eq
      · rw [List.takeWhile_cons_of_neg hType]
        rw [List.head?_cons, Option.any_some, if_neg hType]

theorem lineAfter_add (line down : Nat) (t : Token) :
    lineAfter (line + down) t = lineAfter line t + down := by
  unfold lineAfter
  split
  · exact Nat.add_right_comm line down 1
  · rfl

/-- What the scanner does at a token. -/
theorem scanFrom_token (line : Nat) (ahead : List Char) {cs more rest spelling : List Char}
    {c : Char} {t : Token} (hGap : (splitGap false cs).2 = c :: more)
    (hLexeme : lexeme c more = .ok ⟨t, spelling, rest⟩) :
    ∃ front start stop, ahead ++ cs = front ++ rest ∧
      scanFrom line (byteLength ahead) cs =
        (scanFrom (lineAfter line t) (byteLength front) rest).map
          (prepend [⟨t, line, start, stop⟩]) := by
  let start := ahead ++ (splitGap false cs).1
  refine ⟨start ++ spelling, byteLength start, byteLength (start ++ spelling), ?_, ?_⟩
  · have hAppend := splitGap_append false cs
    rw [hGap, ← lexeme_append hLexeme] at hAppend
    rw [← hAppend]
    simp [start]
  · rw [scanFrom_eq]
    simp only [hGap, hLexeme, start, byteLength_append]

/-- Both texts are scanned alike, whatever stands ahead of them. -/
theorem Respaced.sameScan {cs ds : List Char} (h : Respaced cs ds) (line down : Nat)
    (ahead other : List Char) :
    SameScan (ahead ++ cs) (other ++ ds) down (scanFrom line (byteLength ahead) cs)
      (scanFrom (line + down) (byteLength other) ds) := by
  induction h generalizing line ahead other with
  | done hGap hOther =>
      simp only [scanFrom_eq, hGap, hOther]
      exact .ok .nil rfl
  | stuck hGap hOther hError hOtherError =>
      simp only [scanFrom_eq, hGap, hOther, hError, hOtherError]
      exact .error _ _
  | @token cs ds more others rest otherRest spelling c t hGap hOther hLexeme hOtherLexeme hType
      later ih =>
      obtain ⟨front, start, stop, hFront, hScan⟩ := scanFrom_token line ahead hGap hLexeme
      obtain ⟨otherFront, start', stop', hOtherFront, hOtherScan⟩ :=
        scanFrom_token (line + down) other hOther hOtherLexeme
      rw [lineAfter_add] at hOtherScan
      have hLater := ih (lineAfter line t) front otherFront
      rw [← hFront, ← hOtherFront] at hLater
      generalize scanFrom (lineAfter line t) (byteLength front) rest = x at hScan hLater
      generalize scanFrom (lineAfter line t + down) (byteLength otherFront) otherRest = y
        at hOtherScan hLater
      cases hLater with
      | error line cause =>
          rw [hScan, hOtherScan]
          exact .error line cause
      | @ok s s' hTokens hEnd =>
          rw [hScan, hOtherScan]
          refine .ok (.cons ?_ hTokens) hEnd
          have hThere := typeText?_eq hOtherScan
          rw [hType] at hThere
          exact hThere.trans (typeText?_eq hScan).symm

end ErDiagram.Token

namespace ErDiagram

open Token Grammar

/-- The tables of a source, or its first fault without the text of the line it is found on. -/
def readTables (text : String) : Parse.Read (List Table) :=
  match tokenize text with
  | .error e => .error ⟨e.line, .scan e.cause⟩
  | .ok s => Parse.tables text.toList s.endLine [] s.tokens

theorem parse_eq_readTables (text : String) :
    parse text = (readTables text).mapError (SyntaxFault.quote text) := by
  unfold parse readTables
  cases tokenize text with
  | error e => rfl
  | ok s =>
      dsimp only
      cases Parse.tables text.toList s.endLine [] s.tokens <;> rfl

theorem mapError_parse (text : String) :
    (parse text).mapError SyntaxError.toSyntaxFault = readTables text := by
  rw [parse_eq_readTables]
  cases readTables text <;> rfl

theorem readTables_eq_of_respaced {text other : String} (h : Respaced text.toList other.toList) :
    readTables other = readTables text := by
  have hScan : SameScan text.toList other.toList 0 (tokenize text) (tokenize other) :=
    h.sameScan 1 0 [] []
  unfold readTables
  generalize tokenize text = x at hScan
  generalize tokenize other = y at hScan
  cases hScan with
  | error => rfl
  | @ok s s' hTokens hEnd =>
      have hRead := hTokens.tables s.endLine []
      rw [← hEnd] at hRead
      exact hRead.eq

end ErDiagram
