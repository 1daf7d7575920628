import ErDiagram.Proofs.AcceptedNames
import ErDiagram.Proofs.Scanning.Failure
import ErDiagram.Proofs.Scanning.Respacing

/-! Comments and carriage returns. Neither changes what a source declares: without its comments a
source has the same lexemes, and a carriage return in front of a line feed is a blank, or a part of
the comment there. -/
namespace ErDiagram

open Text Token

/-! ### Comments -/

/-- What a place of a source lies in. -/
inductive Text.Region where
  | plain
  | comment
  | quoted
  | escaped
deriving DecidableEq, Repr

/-- The region behind a character. A comment begins with a hash outside of quotes and ends in front
of the next line feed. Behind a backslash a quote ends nothing. -/
def Text.Region.next : Region → Char → Region
  | plain, c => if c = '#' then comment else if c = '"' then quoted else plain
  | comment, c => if c = '\n' then plain else comment
  | quoted, c => if c = '\\' then escaped else if c = '"' then plain else quoted
  | escaped, _ => quoted

/-- What is left of a text without the comments in it. -/
def Text.dropComments (region : Region) : List Char → List Char
  | [] => []
  | c :: cs =>
      let later := dropComments (region.next c) cs
      if region.next c = .comment then later else c :: later

/-- The source without its comments. -/
def withoutComments (text : String) : String :=
  String.ofList (dropComments .plain text.toList)

namespace Text

theorem dropComments_hash (cs : List Char) :
    dropComments .plain ('#' :: cs) = dropComments .comment cs := by
  simp [dropComments, Region.next]

theorem dropComments_quote (cs : List Char) :
    dropComments .plain ('"' :: cs) = '"' :: dropComments .quoted cs := by
  simp [dropComments, Region.next]

theorem dropComments_cons {c : Char} (hHash : c ≠ '#') (hQuote : c ≠ '"') (cs : List Char) :
    dropComments .plain (c :: cs) = c :: dropComments .plain cs := by
  simp [dropComments, Region.next, hHash, hQuote]

theorem dropComments_plain {cs : List Char} (h : ∀ c ∈ cs, c ≠ '#' ∧ c ≠ '"') (rest : List Char) :
    dropComments .plain (cs ++ rest) = cs ++ dropComments .plain rest := by
  induction cs with
  | nil => rfl
  | cons c cs ih =>
      obtain ⟨⟨hHash, hQuote⟩, hMore⟩ := List.forall_mem_cons.1 h
      rw [List.cons_append, dropComments_cons hHash hQuote, ih hMore, List.cons_append]

theorem dropComments_endsLine (cs : List Char) : EndsLine (dropComments .comment cs) := by
  induction cs with
  | nil => simp [dropComments, EndsLine]
  | cons c cs ih =>
      by_cases hBreak : c = '\n'
      · simp [dropComments, Region.next, EndsLine, hBreak]
      · simpa [dropComments, Region.next, hBreak] using ih

/-- Nothing of a comment is left, and behind it the text is plain. -/
theorem dropComments_comment {body rest : List Char} (hBody : '\n' ∉ body) (hEnd : EndsLine rest) :
    dropComments .comment (body ++ rest) = dropComments .plain rest := by
  induction body with
  | nil =>
      cases rest with
      | nil => rfl
      | cons c rest =>
          obtain rfl := hEnd c rfl
          simp [dropComments, Region.next]
  | cons c body ih =>
      rw [List.mem_cons, not_or] at hBody
      simpa [dropComments, Region.next, Ne.symm hBody.1] using ih hBody.2

theorem dropComments_head? (cs : List Char) :
    ∀ c ∈ (dropComments .plain cs).head?, isBlank c ∨ c ∈ cs.head? := by
  cases cs with
  | nil => simp [dropComments]
  | cons c cs =>
      by_cases hHash : c = '#'
      · intro d hd
        rw [hHash, dropComments_hash] at hd
        obtain rfl := dropComments_endsLine cs d hd
        exact Or.inl (by decide)
      · by_cases hQuote : c = '"'
        · rw [hQuote, dropComments_quote]
          exact fun _ hd => Or.inr hd
        · rw [dropComments_cons hHash hQuote]
          exact fun _ hd => Or.inr hd

theorem upToTypeEnd_of_endsLine {cs : List Char} (h : EndsLine cs) : upToTypeEnd cs = [] := by
  cases cs with
  | nil => rfl
  | cons c cs =>
      obtain rfl := h c rfl
      exact upToTypeEnd_cons rfl cs

/-- A comment ends a type like the end of the line behind it. -/
theorem upToTypeEnd_dropComments (cs : List Char) :
    upToTypeEnd (dropComments .plain cs) = upToTypeEnd cs := by
  induction cs with
  | nil => rfl
  | cons c cs ih =>
      by_cases hHash : c = '#'
      · rw [hHash, dropComments_hash, upToTypeEnd_of_endsLine (dropComments_endsLine cs),
          upToTypeEnd_cons rfl]
      · by_cases hQuote : c = '"'
        · rw [hQuote, dropComments_quote, upToTypeEnd_cons rfl, upToTypeEnd_cons rfl]
        · rw [dropComments_cons hHash hQuote]
          unfold upToTypeEnd at ih ⊢
          rw [List.takeWhile_cons, List.takeWhile_cons, ih]

end Text

namespace Token

theorem IsName.isPlain {cs : List Char} (h : IsName cs) : ∀ c ∈ cs, c ≠ '#' ∧ c ≠ '"' := by
  intro c hc
  constructor <;> (rintro rfl; exact absurd (h.2 _ hc) (by decide))

theorem Quotes.dropComments_eq {body content : List Char} (h : Quotes body content)
    (rest : List Char) :
    dropComments .quoted (body ++ '"' :: rest) = body ++ '"' :: dropComments .plain rest := by
  induction h with
  | nil => simp [dropComments, Region.next]
  | plain hQuote hSlash hBreak later ih => simp [dropComments, Region.next, hQuote, hSlash, ih]
  | escaped hEscape later ih => simp [dropComments, Region.next, ih]

/-- No part of a token is a comment. -/
theorem Spells.dropComments_eq {behind spelling : List Char} {t : Token}
    (h : Spells behind t spelling) (rest : List Char) :
    dropComments .plain (spelling ++ rest) = spelling ++ dropComments .plain rest := by
  cases h with
  | lineBreak | arrow => exact dropComments_plain (by simp) rest
  | name hName hEnds => exact dropComments_plain hName.isPlain rest
  | text hQuotes =>
      rw [List.cons_append, dropComments_quote, List.append_assoc, List.singleton_append,
        hQuotes.dropComments_eq]
      simp
  | mark hMark =>
      simp only [punctuation, List.mem_cons, Prod.mk.injEq, List.not_mem_nil, or_false] at hMark
      refine dropComments_plain (List.forall_mem_singleton.2 ?_) rest
      rcases hMark with ⟨rfl, -⟩ | ⟨rfl, -⟩ | ⟨rfl, -⟩ | ⟨rfl, -⟩ | ⟨rfl, -⟩ | ⟨rfl, -⟩ | ⟨rfl, -⟩ |
        ⟨rfl, -⟩ <;> decide
  | symbol hSymbol hArrow =>
      refine dropComments_plain (List.forall_mem_singleton.2 ?_) rest
      exact ⟨hSymbol.hash_ne, hSymbol.quote_ne⟩

/-- What is left of a gap is blank. -/
theorem IsGap.dropComments_eq {gap behind : List Char} (h : IsGap gap behind) :
    ∃ blanks, (∀ rest, IsGap blanks rest) ∧
      dropComments .plain (gap ++ behind) = blanks ++ dropComments .plain behind := by
  induction h with
  | nil => exact ⟨[], fun _ => .nil, rfl⟩
  | @blank c gap behind hBlank hBreak later ih =>
      obtain ⟨blanks, hGap, hDrop⟩ := ih
      have hHash : c ≠ '#' := by
        rintro rfl
        exact absurd hBlank (by decide)
      have hQuote : c ≠ '"' := by
        rintro rfl
        exact absurd hBlank (by decide)
      refine ⟨c :: blanks, fun rest => .blank hBlank hBreak (hGap rest), ?_⟩
      rw [List.cons_append, dropComments_cons hHash hQuote, hDrop, List.cons_append]
  | comment hBody hEnd later ih =>
      obtain rfl := later.eq_nil_of_endsLine hEnd
      refine ⟨[], fun _ => .nil, ?_⟩
      rw [List.append_nil, List.cons_append, dropComments_hash]
      exact dropComments_comment hBody hEnd

/-- A scanned text has the same lexemes without its comments. -/
theorem Laid.respaced_dropComments {line offset : Nat} {cs : List Char} {s : Scanned}
    (h : Laid line offset cs s) : Respaced cs (dropComments .plain cs) := by
  induction h with
  | @done line offset gap hGap =>
      have hIsGap := (isGap_of_splitGap hGap).1
      obtain ⟨blanks, hBlanks, hDrop⟩ := hIsGap.dropComments_eq
      have hSplit := (hBlanks []).splitGap_eq rfl
      rw [List.append_nil] at hDrop hSplit
      rw [hDrop]
      refine .done (congrArg Prod.snd hGap) ?_
      rw [show dropComments .plain [] = [] from rfl, List.append_nil, hSplit]
  | @token line offset gap more c l s hGap hLexeme later ih =>
      have hIsGap := (isGap_of_splitGap hGap).1
      have hSpells := lexeme_spells hLexeme (splitGap_stop hGap)
      rw [← lexeme_append hLexeme] at hIsGap
      obtain ⟨blanks, hBlanks, hDrop⟩ := hIsGap.dropComments_eq
      rw [hSpells.dropComments_eq] at hDrop
      rw [← lexeme_append hLexeme, hDrop]
      refine .spelled hSpells hIsGap (hBlanks _) (dropComments_head? l.rest) ?_ ih
      rw [← hDrop, typeAhead, upToTypeEnd_dropComments, typeAhead]

end Token

/-! ### Carriage returns -/

/-- A text with a carriage return in front of every line feed. -/
def Text.addReturns (cs : List Char) : List Char :=
  cs.flatMap fun c => if c = '\n' then ['\r', c] else [c]

/-- The source with both characters at the end of each line. -/
def withCarriageReturns (text : String) : String := String.ofList (addReturns text.toList)

namespace Text

theorem addReturns_append (cs ds : List Char) :
    addReturns (cs ++ ds) = addReturns cs ++ addReturns ds := List.flatMap_append

theorem addReturns_lineFeed (cs : List Char) :
    addReturns ('\n' :: cs) = '\r' :: '\n' :: addReturns cs := rfl

theorem addReturns_cons {c : Char} (hc : c ≠ '\n') (cs : List Char) :
    addReturns (c :: cs) = c :: addReturns cs := by
  simp [addReturns, hc]

theorem addReturns_of_not_mem {cs : List Char} (h : '\n' ∉ cs) : addReturns cs = cs := by
  induction cs with
  | nil => rfl
  | cons c cs ih =>
      rw [List.mem_cons, not_or] at h
      rw [addReturns_cons (Ne.symm h.1), ih h.2]

theorem addReturns_head? (cs : List Char) :
    ∀ c ∈ (addReturns cs).head?, isBlank c ∨ c ∈ cs.head? := by
  cases cs with
  | nil => simp [addReturns]
  | cons c cs =>
      by_cases hc : c = '\n'
      · intro d hd
        rw [hc, addReturns_lineFeed] at hd
        obtain rfl := Option.some.inj hd
        exact Or.inl (by decide)
      · rw [addReturns_cons hc]
        exact fun _ hd => Or.inr hd

/-- The carriage return at the end of a line is a blank behind its type. -/
theorem upToTypeEnd_addReturns (cs : List Char) : ∃ back, (∀ c ∈ back, isBlank c) ∧
    upToTypeEnd (addReturns cs) = upToTypeEnd cs ++ back := by
  induction cs with
  | nil => exact ⟨[], by simp, rfl⟩
  | cons c cs ih =>
      by_cases hc : c = '\n'
      · refine ⟨['\r'], List.forall_mem_singleton.2 rfl, ?_⟩
        rw [hc, addReturns_lineFeed]
        rfl
      obtain ⟨back, hBlank, hEq⟩ := ih
      rw [addReturns_cons hc]
      cases hEnds : endsType c with
      | true =>
          refine ⟨[], by simp, ?_⟩
          rw [upToTypeEnd_cons hEnds, upToTypeEnd_cons hEnds, List.append_nil]
      | false =>
          have hFits : ∀ d ∈ [c], endsType d = false := List.forall_mem_singleton.2 hEnds
          refine ⟨back, hBlank, ?_⟩
          change upToTypeEnd ([c] ++ addReturns cs) = upToTypeEnd ([c] ++ cs) ++ back
          rw [upToTypeEnd_append hFits, upToTypeEnd_append hFits, hEq, List.append_assoc]

theorem typeAhead_addReturns (cs : List Char) : typeAhead (addReturns cs) = typeAhead cs := by
  obtain ⟨back, hBlank, hEq⟩ := upToTypeEnd_addReturns cs
  rw [typeAhead, hEq, trimChars_append_right _ hBlank, typeAhead]

/-- The lines are the same but for a blank at the end of each of them but the last. -/
theorem trimmedLines_addReturns (cs : List Char) :
    (splitOn '\n' (addReturns cs)).map trimChars = (splitOn '\n' cs).map trimChars := by
  induction hLength : cs.length using Nat.strong_induction_on generalizing cs with
  | _ length ih =>
      by_cases hMem : '\n' ∈ cs
      · obtain ⟨part, rest, rfl, hPart⟩ := List.eq_append_cons_of_mem hMem
        have hEnd : '\n' ∉ part ++ ['\r'] := by simp [hPart]
        have hLater := ih rest.length (by simp [← hLength]; omega) rest rfl
        have hText : addReturns (part ++ '\n' :: rest) =
            (part ++ ['\r']) ++ '\n' :: addReturns rest := by
          rw [addReturns_append, addReturns_of_not_mem hPart, addReturns_lineFeed,
            List.append_assoc]
          rfl
        rw [hText, splitOn_append hEnd, splitOn_append hPart, List.map_cons, List.map_cons, hLater,
          trimChars_append_right part (List.forall_mem_singleton.2 rfl)]
      · rw [addReturns_of_not_mem hMem]

/-- Each line is quoted alike. -/
theorem trimmedLine_addReturns (number : Nat) (cs : List Char) :
    trimmedLine number (addReturns cs) = trimmedLine number cs := by
  have hTrim (lines : List (List Char)) : trimChars (lines[number - 1]?.getD []) =
      ((lines.map trimChars)[number - 1]?).getD [] := by
    rw [List.getElem?_map]
    cases lines[number - 1]? <;> rfl
  rw [trimmedLine, trimmedLine, hTrim, hTrim, trimmedLines_addReturns]

end Text

namespace Token

/-- A blank at the end of a gap that ends with its line. -/
theorem IsGap.append_blank {gap behind other : List Char} {c : Char} (h : IsGap gap behind)
    (hBlank : isBlank c) (hBreak : c ≠ '\n') (hEnd : EndsLine other) :
    IsGap (gap ++ [c]) other := by
  induction h with
  | nil => exact .blank hBlank hBreak .nil
  | blank hHere hNoBreak later ih => exact .blank hHere hNoBreak ih
  | @comment body gap behind hBody hLine later ih =>
      obtain rfl := later.eq_nil_of_endsLine hLine
      have hLonger : '\n' ∉ body ++ [c] := by simp [hBody, Ne.symm hBreak]
      have hGap := IsGap.comment hLonger (show EndsLine ([] ++ other) from hEnd) .nil
      simpa using hGap

theorem not_escaped_tail {c : Char} {cs : List Char} (h : ¬ ['\\', '\n'] <:+: c :: cs) :
    ¬ ['\\', '\n'] <:+: cs := fun hLater => h (List.infix_cons hLater)

/-- A literal that is open stays so. -/
theorem splitLiteral_addReturns {cs : List Char} (h : splitLiteral cs = none)
    (hEscape : ¬ ['\\', '\n'] <:+: cs) : splitLiteral (addReturns cs) = none := by
  fun_induction splitLiteral cs with
  | case1 => rfl
  | case2 => cases h
  | case3 => rfl
  | case4 => rfl
  | case5 c cs ih =>
      have hBreak : c ≠ '\n' := by
        rintro rfl
        exact hEscape (List.prefix_append ['\\', '\n'] cs).isInfix
      have hLater := ih (Option.map_eq_none_iff.1 h) (not_escaped_tail (not_escaped_tail hEscape))
      rw [addReturns_cons (by decide), addReturns_cons hBreak, splitLiteral, hLater]
      rfl
  | case6 c cs hQuote hBreak hAlone hPair ih =>
      have hSlash := ne_backslash hAlone hPair
      have hLater := ih (Option.map_eq_none_iff.1 h) (not_escaped_tail hEscape)
      rw [addReturns_cons hBreak, splitLiteral_cons hQuote hSlash hBreak, hLater]
      rfl

/-- A token that begins with no line feed is on one line, if no line feed of it is escaped. -/
theorem Spells.oneLine {behind spelling : List Char} {t : Token} (h : Spells behind t spelling)
    (hHead : spelling.head? ≠ some '\n') (hEscape : ¬ ['\\', '\n'] <:+: spelling) :
    '\n' ∉ spelling := by
  intro hMem
  obtain ⟨-, rfl⟩ | ⟨-, body, content, rfl, -, hInfix⟩ := h.lineBreak_or_quotes hMem
  · exact hHead rfl
  · exact hEscape (List.infix_cons (hInfix.trans (List.prefix_append ..).isInfix))

/-- At the end of a line there is a blank more in the gap, and else nothing changes. -/
theorem respaced_lineFeed {gap more : List Char} (hGap : IsGap gap ('\n' :: more))
    (later : Respaced more (addReturns more)) :
    Respaced (gap ++ '\n' :: more) (addReturns (gap ++ '\n' :: more)) := by
  have hText : addReturns (gap ++ '\n' :: more) = (gap ++ ['\r']) ++ ('\n' :: addReturns more) := by
    rw [addReturns_append, addReturns_of_not_mem hGap.not_mem, addReturns_lineFeed,
      List.append_assoc]
    rfl
  have hLonger : IsGap (gap ++ ['\r']) ('\n' :: addReturns more) :=
    hGap.append_blank (by decide) (by decide) fun c hc => (Option.some.inj hc).symm
  have hSpells : Spells more .lineBreak ['\n'] := .lineBreak
  have hType := typeAhead_addReturns (gap ++ '\n' :: more)
  rw [hText] at hType ⊢
  exact .spelled hSpells hGap hLonger (addReturns_head? more) hType later

theorem respaced_spelled {gap rest spelling : List Char} {t : Token}
    (hSpells : Spells rest t spelling) (hGap : IsGap gap (spelling ++ rest))
    (hBreak : '\n' ∉ spelling) (later : Respaced rest (addReturns rest)) :
    Respaced (gap ++ (spelling ++ rest)) (addReturns (gap ++ (spelling ++ rest))) := by
  have hType := typeAhead_addReturns (gap ++ (spelling ++ rest))
  rw [addReturns_append, addReturns_append, addReturns_of_not_mem hGap.not_mem,
    addReturns_of_not_mem hBreak] at hType ⊢
  exact .spelled hSpells hGap (hGap.replace_rest hSpells _) (addReturns_head? rest) hType later

theorem respaced_stuck {cs gap more : List Char} {c : Char} {cause : ScanCause}
    (hSplit : splitGap false cs = (gap, c :: more)) (hLexeme : lexeme c more = .error cause)
    (hBreak : c ≠ '\n') (hEscape : ¬ ['\\', '\n'] <:+: more) :
    Respaced cs (addReturns cs) := by
  obtain ⟨hGap, hAppend⟩ := isGap_of_splitGap hSplit
  have hText : addReturns cs = gap ++ c :: addReturns more := by
    rw [← hAppend, addReturns_append, addReturns_of_not_mem hGap.not_mem, addReturns_cons hBreak]
  have hOther := splitGap_replace hSplit (@replaces_cons c (addReturns more) more)
  have hFault := lexeme_error_replace hLexeme fun hOpen => splitLiteral_addReturns hOpen hEscape
  rw [hText]
  exact .stuck (congrArg Prod.snd hSplit) (congrArg Prod.snd hOther) hLexeme hFault

/-- A text has the same lexemes with carriage returns, if none of its line feeds is escaped. -/
theorem respaced_addReturns {cs : List Char} (hEscape : ¬ ['\\', '\n'] <:+: cs) :
    Respaced cs (addReturns cs) := by
  induction hLength : cs.length using Nat.strong_induction_on generalizing cs with
  | _ length ih =>
      cases hSplit : splitGap false cs with
      | mk gap rest =>
          obtain ⟨hGap, hAppend⟩ := isGap_of_splitGap hSplit
          cases rest with
          | nil =>
              rw [List.append_nil] at hAppend
              rw [addReturns_of_not_mem (hAppend ▸ hGap.not_mem)]
              exact .refl cs
          | cons c more =>
              have hSuffix : c :: more <:+ cs := ⟨gap, hAppend⟩
              have hInside {ds : List Char} (h : ds <:+ c :: more) : ¬ ['\\', '\n'] <:+: ds :=
                fun hInfix => hEscape (hInfix.trans (h.trans hSuffix).isInfix)
              have hLater {ds : List Char} (h : ds <:+ c :: more)
                  (hShort : ds.length ≤ more.length) : Respaced ds (addReturns ds) := by
                have hMore := hSuffix.length_le
                rw [List.length_cons] at hMore
                exact ih ds.length (by omega) (hInside h) rfl
              by_cases hBreak : c = '\n'
              · subst hBreak
                rw [← hAppend]
                exact respaced_lineFeed hGap (hLater (List.suffix_cons _ more) (Nat.le_refl _))
              cases hLexeme : lexeme c more with
              | error cause =>
                  exact respaced_stuck hSplit hLexeme hBreak (hInside (List.suffix_cons c more))
              | ok l =>
                  have hSpelling := lexeme_append hLexeme
                  have hSpells := lexeme_spells hLexeme (splitGap_stop hSplit)
                  have hRest := hLater ⟨l.spelling, hSpelling⟩ (lexeme_rest_length hLexeme)
                  rw [← hSpelling] at hGap hAppend
                  rw [← hAppend]
                  have hOneLine : '\n' ∉ l.spelling := by
                    refine hSpells.oneLine (fun hHead => hBreak ?_) fun hInfix => ?_
                    · obtain ⟨others, hOthers⟩ := List.head?_eq_some_iff.1 hHead
                      rw [hOthers] at hSpelling
                      exact (List.cons.inj hSpelling).1.symm
                    · exact hInside List.suffix_rfl (hInfix.trans ⟨[], l.rest, hSpelling⟩)
                  exact respaced_spelled hSpells hGap hOneLine hRest

end Token

/-! ### What a source declares -/

/-- Comments and carriage returns mean nothing. Without its comments a source that can be scanned
declares the same tables, or has the same fault on the same line. With carriage returns every source
declares the same tables or has the same error, if no line feed of it stands behind a backslash. -/
theorem parse_ignores_comments_and_returns (text : String) :
    ((∃ s, tokenize text = .ok s) →
      (parse (withoutComments text)).mapError SyntaxError.toSyntaxFault =
        (parse text).mapError SyntaxError.toSyntaxFault) ∧
    (¬ ['\\', '\n'] <:+: text.toList → parse (withCarriageReturns text) = parse text) := by
  constructor
  · rintro ⟨s, hScan⟩
    rw [mapError_parse, mapError_parse]
    apply readTables_eq_of_respaced
    rw [withoutComments, String.toList_ofList]
    exact (scanFrom_laid hScan).respaced_dropComments
  · intro hEscape
    have hText : (withCarriageReturns text).toList = addReturns text.toList := String.toList_ofList
    have hRead : readTables (withCarriageReturns text) = readTables text :=
      readTables_eq_of_respaced (hText ▸ respaced_addReturns hEscape)
    have hQuote : SyntaxFault.quote (withCarriageReturns text) = SyntaxFault.quote text := by
      funext fault
      rw [SyntaxFault.quote, SyntaxFault.quote, hText, trimmedLine_addReturns]
    rw [parse_eq_readTables, parse_eq_readTables, hRead, hQuote]

/-- A hash between quotes begins no comment, and a quote in a comment no text. -/
theorem parse_ignores_comment_with_quote :
    let text := "table A \x7b # \"B\n x: t \"k=#1\"# y\n\x7d"
    (∃ s, tokenize text = .ok s) ∧ ¬ ['\\', '\n'] <:+: text.toList ∧
      withoutComments text = "table A \x7b \n x: t \"k=#1\"\n\x7d" ∧
      withCarriageReturns text = "table A \x7b # \"B\r\n x: t \"k=#1\"# y\r\n\x7d" ∧
      (parse (withoutComments text)).mapError SyntaxError.toSyntaxFault =
        (parse text).mapError SyntaxError.toSyntaxFault ∧
      parse (withCarriageReturns text) = parse text := by
  intro text
  have hParse : parse text = .ok [⟨"A", [⟨"x", false, [], [⟨"k", "#1"⟩], .typed "t"⟩]⟩] := by
    decide +kernel
  have hScan : ∃ s, tokenize text = .ok s := exists_tokenize_of_parse hParse
  have hEscape : ¬ ['\\', '\n'] <:+: text.toList := by decide +kernel
  obtain ⟨hComments, hReturns⟩ := parse_ignores_comments_and_returns text
  exact ⟨hScan, hEscape, by decide +kernel, by decide +kernel, hComments hScan, hReturns hEscape⟩

end ErDiagram
