import ErDiagram.Proofs.Scanning.Failure

/-! A source with more lines behind it. A scanned text gives the same tokens in front of a line
feed, and a text that cannot be scanned stays so, unless a quote behind it closes a literal. -/
namespace ErDiagram.Token

open Text

/-- A gap is read alike in front of a line feed. -/
theorem yields_gap (line offset : Nat) {gap other : List Char}
    (hGap : splitGap false gap = (gap, [])) (hOther : Replaces other []) :
    Yields line offset gap other [] line := by
  have hStart : splitGap false other = ([], other) :=
    splitGap_replace (rfl : splitGap false [] = ([], [])) hOther
  rw [Yields, scanFrom_eq, scanFrom_eq line (offset + byteLength gap),
    splitGap_replace hGap hOther, hStart]
  simp only [byteLength_nil, Nat.add_zero]
  cases other with
  | nil => rfl
  | cons c more =>
      dsimp only
      cases lexeme c more with
      | error cause => rfl
      | ok l =>
          dsimp only
          cases scanFrom (lineAfter line l.token) _ l.rest <;> rfl

theorem Laid.yields {line offset : Nat} {cs other : List Char} {s : Scanned}
    (h : Laid line offset cs s) (hOther : Replaces other []) :
    Yields line offset cs other s.tokens s.endLine := by
  induction h with
  | done hGap => exact yields_gap _ _ hGap hOther
  | @token line offset gap more c l s hGap hLexeme later ih =>
      have hRest : Replaces (l.rest ++ other) l.rest := by
        have hAppend := hOther.append l.rest
        rwa [List.append_nil] at hAppend
      have hFirst := yields_replace line offset hGap hLexeme hRest
      rw [← lexeme_append hLexeme, ← List.append_assoc]
      rw [Nat.add_assoc, ← byteLength_append] at ih
      exact hFirst.append ih

/-- A literal that is open is not closed by text without a quote. -/
theorem splitLiteral_append_eq_none {cs behind : List Char} (h : splitLiteral cs = none)
    (hQuote : '"' ∉ behind) : splitLiteral (cs ++ behind) = none := by
  cases hSplit : splitLiteral (cs ++ behind) with
  | none => rfl
  | some l =>
      -- The closing quote is the last character of the spelling, so it stands in `cs`.
      have hLast := splitLiteral_last hSplit
      have hPrefix : l.spelling <+: cs := by
        rcases List.append_eq_append_iff.1 (splitLiteral_append hSplit) with
          ⟨rest, hcs, -⟩ | ⟨rest, hSpelling, hBehind⟩
        · exact ⟨rest, hcs.symm⟩
        · cases rest with
          | nil => exact ⟨[], by rw [hSpelling, List.append_nil, List.append_nil]⟩
          | cons d rest =>
              rw [hSpelling, List.getLast?_append_of_ne_nil _ (List.cons_ne_nil d rest)] at hLast
              have hMem : '"' ∈ d :: rest := List.mem_of_getLast? hLast
              exact absurd (hBehind ▸ List.mem_append_left _ hMem) hQuote
      obtain ⟨rest, rfl⟩ := hPrefix
      rw [splitLiteral_replace hSplit] at h
      cases h

/-- A text that cannot be scanned is not mended by lines without a quote. -/
theorem scanFrom_append_eq_error {line offset : Nat} {cs : List Char} {e : ScanError}
    (h : scanFrom line offset cs = .error e) {behind : List Char} (hBehind : Replaces behind [])
    (hQuote : '"' ∉ behind) : scanFrom line offset (cs ++ behind) = .error e := by
  fun_induction scanFrom line offset cs with
  | case1 => cases h
  | case2 line offset cs c more hGap cause hLexeme =>
      cases h
      obtain ⟨hAppend, hSplit⟩ := splitGap_eq hGap
      have hLonger := splitGap_replace hSplit (@replaces_cons c (more ++ behind) more)
      have hFault := lexeme_error_replace hLexeme fun hOpen =>
        splitLiteral_append_eq_none hOpen hQuote
      rw [← hAppend, List.append_assoc, List.cons_append, scanFrom_eq]
      simp only [hLonger, hFault]
  | case3 line offset cs start c more hGap l hLexeme stop nextLine fault hLater =>
      cases h
      rename_i ih
      obtain ⟨hAppend, hSplit⟩ := splitGap_eq hGap
      have hLine : nextLine = lineAfter line l.token := dite_eq_ite ..
      have hRest : Replaces (l.rest ++ behind) l.rest := by
        have hLonger := hBehind.append l.rest
        rwa [List.append_nil] at hLonger
      have hYields := yields_replace line offset hSplit hLexeme hRest
      have hCut : cs ++ behind =
          (splitGap false cs).1 ++ l.spelling ++ (l.rest ++ behind) := by
        rw [List.append_assoc, ← List.append_assoc l.spelling, lexeme_append hLexeme,
          ← List.append_assoc, hAppend]
      have hFault := ih hLater
      rw [hLine] at hFault
      rw [Yields, byteLength_append, ← Nat.add_assoc, hFault] at hYields
      rw [hCut, hYields]
      rfl
  | case4 => cases h

theorem scanFrom_lineFeed_closeBrace (line offset : Nat) :
    scanFrom line offset ['\n', '\x7d'] = .ok ⟨[⟨lineBreak, line, offset, offset + 1⟩,
      ⟨closeBrace, line + 1, offset + 1, offset + 2⟩], line + 1, offset + 2⟩ := by
  have hBreak : Yields line offset ['\n'] ['\x7d'] _ (line + 1) :=
    yields_lexeme (Or.inl rfl) rfl line offset
  have hStop : isBlank '\x7d' = false ∧ '\x7d' ≠ '#' := by decide
  have hBrace : Yields (line + 1) (offset + byteLength ['\n']) ['\x7d'] [] _ (line + 1) :=
    yields_lexeme (Or.inr hStop) rfl (line + 1) _
  have hBoth := hBreak.append hBrace
  rw [Yields, scanFrom_eq (line + 1)] at hBoth
  exact hBoth

/-- A closing brace on a line of its own behind a source. -/
theorem tokenize_closed {text : String} {s : Scanned} (h : tokenize text = .ok s) :
    tokenize (text ++ "\n\x7d") = .ok ⟨s.tokens ++
      [⟨lineBreak, s.endLine, s.endOffset, s.endOffset + 1⟩,
        ⟨closeBrace, s.endLine + 1, s.endOffset + 1, s.endOffset + 2⟩],
      s.endLine + 1, s.endOffset + 2⟩ := by
  have hLaid := scanFrom_laid h
  have hYields := hLaid.yields (replaces_lineFeed ['\x7d'] [])
  rw [Yields, ← hLaid.endOffset_eq] at hYields
  rw [tokenize, String.toList_append, show "\n\x7d".toList = ['\n', '\x7d'] from rfl, hYields,
    scanFrom_lineFeed_closeBrace]
  rfl

end ErDiagram.Token
