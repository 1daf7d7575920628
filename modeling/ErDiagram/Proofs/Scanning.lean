import ErDiagram.Proofs.Text
import ErDiagram.Token.Scan

/-! What scanning a text gives. A scanned text is gaps and lexemes in turn, so the tokens between
two of them lie on a part of the text that has no blank at either end. -/
namespace ErDiagram.Token

open Text

/-! ### Gaps -/

theorem isNameChar_of_isBlank {c : Char} (h : isBlank c) : isNameChar c = false := by
  have hNe : c ≠ '_' := by
    rintro rfl
    exact absurd h (by decide)
  simp [isNameChar, isAlphanumeric_of_isBlank h, hNe]

/-- A gap ends at a line feed, or at a character that is no blank and begins no comment. -/
theorem splitGap_stop {inComment : Bool} {cs gap more : List Char} {c : Char}
    (h : splitGap inComment cs = (gap, c :: more)) :
    c = '\n' ∨ isBlank c = false ∧ c ≠ '#' := by
  fun_induction splitGap inComment cs generalizing gap with
  | case1 => cases h
  | case2 =>
      cases h
      exact Or.inl rfl
  | case3 inComment d ds hBreak hSkip gap' rest hRest ih =>
      cases h
      exact ih hRest
  | case4 inComment ds gap' rest hRest hBreak hSkip ih =>
      cases h
      exact ih hRest
  | case5 inComment d ds hBreak hSkip hHash =>
      cases h
      simp only [Bool.or_eq_true, not_or, Bool.not_eq_true] at hSkip
      exact Or.inr ⟨hSkip.2, hHash⟩

/-- The gap before what is left, cut off the text. -/
theorem splitGap_eq {inComment : Bool} {cs rest : List Char}
    (h : (splitGap inComment cs).2 = rest) :
    (splitGap inComment cs).1 ++ rest = cs ∧
      splitGap inComment ((splitGap inComment cs).1 ++ rest) =
        ((splitGap inComment cs).1, rest) := by
  have hAppend := splitGap_append inComment cs
  rw [h] at hAppend
  refine ⟨hAppend, ?_⟩
  rw [hAppend]
  exact Prod.ext rfl h

/-- Where a token can begin there is no gap. -/
theorem splitGap_of_stop {c : Char} {cs : List Char}
    (h : c = '\n' ∨ isBlank c = false ∧ c ≠ '#') : splitGap false (c :: cs) = ([], c :: cs) := by
  rcases h with rfl | ⟨hBlank, hHash⟩
  · simp [splitGap]
  · simp [splitGap, hBlank, hHash]

theorem splitGap_blank {c : Char} (cs : List Char) (hBlank : isBlank c) (hBreak : c ≠ '\n') :
    splitGap false (c :: cs) = (c :: (splitGap false cs).1, (splitGap false cs).2) := by
  simp [splitGap, hBlank, hBreak]

/-! ### Lexemes -/

/-- A character between quotes that stands for itself. -/
theorem splitLiteral_cons {c : Char} (hQuote : c ≠ '"') (hSlash : c ≠ '\\') (hBreak : c ≠ '\n')
    (cs : List Char) : splitLiteral (c :: cs) =
      (splitLiteral cs).map fun l => ⟨c :: l.content, c :: l.spelling, l.rest⟩ := by
  rw [splitLiteral]
  · exact hQuote
  · exact hBreak
  · exact fun h _ => hSlash h
  · exact fun _ _ h _ => hSlash h

/-- A character that is neither a backslash alone nor one in front of another character. -/
theorem ne_backslash {c : Char} {cs : List Char} (hAlone : c = '\\' → cs = [] → False)
    (hPair : ∀ d ds, c = '\\' → cs = d :: ds → False) : c ≠ '\\' := by
  rintro rfl
  cases cs with
  | nil => exact hAlone rfl rfl
  | cons d ds => exact hPair d ds rfl rfl

theorem splitLiteral_last {cs : List Char} {l : Literal} (h : splitLiteral cs = some l) :
    l.spelling.getLast? = some '"' := by
  fun_induction splitLiteral cs generalizing l with
  | case1 => cases h
  | case2 cs =>
      cases h
      rfl
  | case3 => cases h
  | case4 => cases h
  | case5 c cs ih =>
      obtain ⟨m, hm, rfl⟩ := Option.map_eq_some_iff.1 h
      simp [List.getLast?_cons, ih hm]
  | case6 c cs _ _ _ _ ih =>
      obtain ⟨m, hm, rfl⟩ := Option.map_eq_some_iff.1 h
      simp [List.getLast?_cons, ih hm]

theorem isTrimmed_singleton {c : Char} (h : isBlank c = false) : IsTrimmed [c] := by
  constructor <;> simpa using h

/-- The spelling of a lexeme has no blank at either end. -/
theorem lexeme_isTrimmed {c : Char} {cs : List Char} {l : Lexeme} (h : lexeme c cs = .ok l)
    (hBlank : isBlank c = false) : IsTrimmed l.spelling := by
  unfold lexeme at h
  split at h <;> try (cases h; exact isTrimmed_singleton hBlank)
  · split at h
    · rename_i m hSplit
      cases h
      refine ⟨by simpa using hBlank, ?_⟩
      simp only [List.getLast?_cons, splitLiteral_last hSplit, Option.getD_some]
      simp
      decide
    · cases h
  · split at h
    · cases h
      refine ⟨by simpa using hBlank, ?_⟩
      simp
      decide
    · cases h
      exact isTrimmed_singleton hBlank
  · split at h
    · rename_i hName
      cases h
      refine ⟨by simpa using hBlank, fun d hd => ?_⟩
      have hMem := List.mem_of_getLast? hd
      have hNameChar : isNameChar d = true := by
        rcases List.mem_cons.1 hMem with rfl | hTake
        · exact hName
        · exact List.mem_takeWhile_imp hTake
      by_contra hNot
      rw [isNameChar_of_isBlank (by simpa using hNot)] at hNameChar
      cases hNameChar
    · split at h
      · cases h
      · cases h
        exact isTrimmed_singleton hBlank

/-! ### Scanned texts -/

/-- The line on which the text behind a token goes on. -/
def lineAfter (line : Nat) (t : Token) : Nat := if t = lineBreak then line + 1 else line

/-- More tokens in front of those of a scanned text. -/
def prepend (ts : List Located) (s : Scanned) : Scanned := { s with tokens := ts ++ s.tokens }

@[simp] theorem prepend_nil (s : Scanned) : prepend [] s = s := rfl

@[simp] theorem prepend_prepend (ts us : List Located) (s : Scanned) :
    prepend ts (prepend us s) = prepend (ts ++ us) s := by
  simp [prepend]

/-- A scanned text from a line and a byte offset on: gaps and lexemes in turn, and a gap at the
end. -/
inductive Laid : Nat → Nat → List Char → Scanned → Prop where
  | done {line offset : Nat} {gap : List Char} (hGap : splitGap false gap = (gap, [])) :
      Laid line offset gap ⟨[], line, offset + byteLength gap⟩
  | token {line offset : Nat} {gap more : List Char} {c : Char} {l : Lexeme} {s : Scanned}
      (hGap : splitGap false (gap ++ c :: more) = (gap, c :: more))
      (hLexeme : lexeme c more = .ok l)
      (later : Laid (lineAfter line l.token)
        (offset + byteLength gap + byteLength l.spelling) l.rest s) :
      Laid line offset (gap ++ c :: more) (prepend [⟨l.token, line, offset + byteLength gap,
        offset + byteLength gap + byteLength l.spelling⟩] s)

/-- One step of the scanner, after the gap. -/
theorem scanFrom_eq (line offset : Nat) (cs : List Char) :
    scanFrom line offset cs =
      let start := offset + byteLength (splitGap false cs).1
      match (splitGap false cs).2 with
      | [] => .ok ⟨[], line, start⟩
      | c :: more =>
          match lexeme c more with
          | .error cause => .error ⟨line, cause⟩
          | .ok l =>
              (scanFrom (lineAfter line l.token) (start + byteLength l.spelling) l.rest).map
                (prepend [⟨l.token, line, start, start + byteLength l.spelling⟩]) := by
  rw [scanFrom]
  dsimp only
  split
  · rename_i hGap
    rw [hGap]
  · rename_i c more hGap
    rw [hGap]
    dsimp only
    split
    · rename_i hLexeme
      rw [hLexeme]
    · rename_i l hLexeme
      rw [hLexeme]
      dsimp only [lineAfter]
      split <;> (rename_i hLater; rw [hLater]; rfl)

theorem scanFrom_laid {line offset : Nat} {cs : List Char} {s : Scanned}
    (h : scanFrom line offset cs = .ok s) : Laid line offset cs s := by
  fun_induction scanFrom line offset cs generalizing s with
  | case1 line offset cs start =>
      rename_i hGap
      cases h
      have hAppend := splitGap_append false cs
      rw [hGap, List.append_nil] at hAppend
      have hStart : start = offset + byteLength cs := by
        rw [← congrArg byteLength hAppend]
      rw [hStart]
      exact Laid.done (Prod.ext hAppend hGap)
  | case2 => cases h
  | case3 => cases h
  | case4 line offset cs start c more hGap l hLexeme stop nextLine later hLater =>
      cases h
      rename_i ih
      obtain ⟨hAppend, hSplit⟩ := splitGap_eq hGap
      have hLine : nextLine = lineAfter line l.token := dite_eq_ite ..
      have hLaid := ih hLater
      rw [hLine] at hLaid
      have hToken := Laid.token hSplit hLexeme hLaid
      rwa [hAppend] at hToken

theorem Laid.endOffset_eq {line offset : Nat} {cs : List Char} {s : Scanned}
    (h : Laid line offset cs s) : s.endOffset = offset + byteLength cs := by
  induction h with
  | done => rfl
  | @token line offset gap more c l s hGap hLexeme later ih =>
      rw [← lexeme_append hLexeme]
      simp only [prepend, ih, byteLength_append, Nat.add_assoc]

/-- Each token of a scanned text is a lexeme of it, read where the token starts. -/
theorem Laid.exists_lexeme {line offset : Nat} {cs : List Char} {s : Scanned}
    (h : Laid line offset cs s) {t : Located} (ht : t ∈ s.tokens) :
    ∃ front c more l, cs = front ++ c :: more ∧ lexeme c more = .ok l ∧ t.token = l.token ∧
      t.start = offset + byteLength front ∧ t.stop = t.start + byteLength l.spelling := by
  induction h with
  | done => cases ht
  | @token line offset gap more c l s hGap hLexeme later ih =>
      rcases List.mem_cons.1 ht with rfl | hLater
      · exact ⟨gap, c, more, l, rfl, hLexeme, rfl, rfl, rfl⟩
      · obtain ⟨front, d, behind, m, hRest, hm, hToken, hStart, hStop⟩ := ih hLater
        refine ⟨gap ++ l.spelling ++ front, d, behind, m, ?_, hm, hToken, ?_, hStop⟩
        · rw [← lexeme_append hLexeme, hRest]
          simp
        · rw [hStart]
          simp [Nat.add_assoc]

/-- A run of tokens without line breaks lies on a part of the text that begins where the first of
them starts, ends where the last of them stops, and has no blank at either end. -/
theorem Laid.run {line offset : Nat} {cs : List Char} {s : Scanned} (h : Laid line offset cs s)
    {before behind others : List Located} {first : Located}
    (hTokens : s.tokens = before ++ (first :: others) ++ behind)
    (hBreaks : ∀ t ∈ first :: others, t.token ≠ lineBreak) :
    ∃ ahead text rest, cs = ahead ++ text ++ rest ∧ first.start = offset + byteLength ahead ∧
      ((first :: others).getLast (List.cons_ne_nil _ _)).stop =
        offset + byteLength (ahead ++ text) ∧ text ≠ [] ∧ IsTrimmed text := by
  induction h generalizing before first others with
  | done => simp at hTokens
  | @token line offset gap more c l s hGap hLexeme later ih =>
      have hAppend := lexeme_append hLexeme
      cases before with
      | cons b before =>
          obtain ⟨-, hLater⟩ := List.cons.inj hTokens
          obtain ⟨ahead, text, rest, hRest, hStart, hStop, hText⟩ := ih hLater hBreaks
          refine ⟨gap ++ l.spelling ++ ahead, text, rest, ?_, ?_, ?_, hText⟩
          · rw [← hAppend, hRest]
            simp
          · rw [hStart]
            simp [Nat.add_assoc]
          · rw [hStop]
            simp [Nat.add_assoc]
      | nil =>
          obtain ⟨hFirst, hLater⟩ := List.cons.inj hTokens
          have hTrimmed : IsTrimmed l.spelling := by
            apply lexeme_isTrimmed hLexeme
            rcases splitGap_stop hGap with rfl | ⟨hBlank, -⟩
            · cases hLexeme
              exact absurd (by rw [← hFirst]) (hBreaks first List.mem_cons_self)
            · exact hBlank
          cases others with
          | nil =>
              refine ⟨gap, l.spelling, l.rest, ?_, ?_, ?_, lexeme_spelling_ne_nil hLexeme, hTrimmed⟩
              · rw [List.append_assoc, hAppend]
              · rw [← hFirst]
              · rw [← hFirst]
                simp [Nat.add_assoc]
          | cons second others =>
              have hRun : s.tokens = [] ++ (second :: others) ++ behind := hLater
              obtain ⟨ahead, text, rest, hRest, -, hStop, hText, hLast⟩ :=
                ih hRun fun t ht => hBreaks t (List.mem_cons_of_mem _ ht)
              refine ⟨gap, l.spelling ++ ahead ++ text, rest, ?_, ?_, ?_, by simp [hText],
                hTrimmed.append hLast (lexeme_spelling_ne_nil hLexeme) hText⟩
              · rw [← hAppend, hRest]
                simp
              · rw [← hFirst]
              · rw [List.getLast_cons (List.cons_ne_nil _ _), hStop]
                simp [Nat.add_assoc]

/-- The slice of a source that a run of tokens takes has no blank at either end. -/
theorem isTrimmed_slice {source : String} {s : Scanned} (h : tokenize source = .ok s)
    {before behind others : List Located} {first : Located}
    (hTokens : s.tokens = before ++ (first :: others) ++ behind)
    (hBreaks : ∀ t ∈ first :: others, t.token ≠ lineBreak) :
    IsTrimmed (slice first.start ((first :: others).getLast (List.cons_ne_nil _ _)).stop
      source.toList) := by
  obtain ⟨ahead, text, rest, hSource, hStart, hStop, -, hTrimmed⟩ :=
    (scanFrom_laid h).run hTokens hBreaks
  rw [Nat.zero_add] at hStart hStop
  rw [hStart, hStop, hSource, slice_append]
  exact hTrimmed

end ErDiagram.Token
