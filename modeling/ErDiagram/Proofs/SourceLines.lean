import ErDiagram.Proofs.Grammar.Violations
import ErDiagram.Proofs.Scanning.EscapedBreaks

/-! Which line an error quotes. A fault of the readers has the line of a token that it is about, or
of the end of the source, so an error quotes the right line where the scanner's count is right. -/
namespace ErDiagram

/-- Whether the cause is about this token. A table is named by its keyword. -/
def SyntaxCause.Blames (cause : SyntaxCause) (t : Token) : Prop :=
  match cause with
  | scan _ => False
  | unexpected found _ => found = some t
  | unclosedTable _ | duplicateTable _ => t = .ident "table"
  | noteWithoutEquals _ => ∃ content, t = .text content
  | duplicateAttribute _ attr => t = .ident attr

/-- The fault is about one of these tokens and has its line. -/
def SyntaxFault.BlamesOneOf (f : SyntaxFault) (ts : List Located) : Prop :=
  ∃ t ∈ ts, f.cause.Blames t.token ∧ f.line = t.line

/-- A violation is about a token of the table or the attribute that it is found in. -/
theorem Grammar.Violation.blamesOneOf {ts : List Located} {f : SyntaxFault}
    (h : Violation ts f) : f.BlamesOneOf ts := by
  obtain ⟨front, rest, -, rfl, hTable⟩ := h
  cases hTable with
  | @duplicateTable t =>
      exact ⟨t.keyword.mark (.ident "table"), by simp [TableTree.tokens], rfl, rfl⟩
  | @inside t rest f admissible block =>
      cases block with
      | @duplicateAttribute a => exact ⟨a.name.token, by simp [AttrTree.tokens], rfl, rfl⟩
      | @noteWithoutEquals name target caption =>
          exact ⟨caption.place.mark (.text caption.content),
            by simp [AttrTree.tokens, captionTokens], ⟨_, rfl⟩, rfl⟩
      | unclosedTable =>
          exact ⟨t.keyword.mark (.ident "table"), by simp [OpenTable.tokens], rfl, rfl⟩

/-- A fault of the readers is about a token, or about the end of the source. -/
theorem blames_of_tables {source : List Char} {s : Scanned} {f : SyntaxFault}
    (h : Parse.tables source s.endLine [] s.tokens = .error f) :
    f.BlamesOneOf s.tokens ∨ ∃ expected, f = ⟨s.endLine, .unexpected none expected⟩ := by
  by_cases hUnexpected : f.IsUnexpected
  · have hStuck := Grammar.tables_stuck h hUnexpected
    generalize s.tokens = ts at hStuck
    obtain @⟨before, after, behind, r, expected, fits, reads, stops⟩ := hStuck
    cases after with
    | nil => exact Or.inr ⟨expected, rfl⟩
    | cons t after => exact Or.inl ⟨t, by simp, rfl, rfl⟩
  · exact Or.inl ((Grammar.tables_eq_error_iff_violation hUnexpected).1 h).blamesOneOf

open Text

/-- The cause lies at this offset of the source: where the scanner stops, where a token starts that
the cause is about, or at the end. -/
inductive SyntaxCause.LiesAt (text : String) : SyntaxCause → Nat → Prop where
  | scan {e : ScanError} {ahead behind : List Char} {c : Char} {s : Scanned}
      (fails : Token.Fails 1 0 text.toList e ahead c behind s) :
      LiesAt text (.scan e.cause) (byteLength ahead)
  | token {cause : SyntaxCause} {s : Scanned} {t : Located} (hScan : tokenize text = .ok s)
      (mem : t ∈ s.tokens) (blames : cause.Blames t.token) : LiesAt text cause t.start
  | atEnd {s : Scanned} {expected : Expectation} (hScan : tokenize text = .ok s) :
      LiesAt text (.unexpected none expected) s.endOffset

/-- All lines that are given for a source are right: those of its tokens and of its end, that of
what the scanner stops at, and the one that an error quotes. Only line breaks go over to the next
line. -/
structure HasRightLines (text : String) : Prop where
  starts : ∀ s, tokenize text = .ok s →
    ∀ line offset, (line, offset) ∈ s.starts → line = lineNumberAt offset text.toList
  breaks : ∀ s, tokenize text = .ok s → ∀ t ∈ s.tokens, t.token ≠ .lineBreak →
    '\n' ∉ slice t.start t.stop text.toList
  scanErrors : ∀ e, tokenize text = .error e → ∃ ahead c behind s,
    Token.Fails 1 0 text.toList e ahead c behind s ∧ e.line = 1 + ahead.count '\n'
  quotes : ∀ e, parse text = .error e → ∃ offset, e.cause.LiesAt text offset ∧
    e.line = lineNumberAt offset text.toList ∧
    e.content = String.ofList (trimChars (lineTextAt offset text.toList))

theorem quote_content {text : String} {f : SyntaxFault} {ahead behind : List Char}
    (hText : text.toList = ahead ++ behind) (hLine : f.line = 1 + ahead.count '\n') :
    (f.quote text).line = lineNumberAt (byteLength ahead) text.toList ∧
      (f.quote text).content =
        String.ofList (trimChars (lineTextAt (byteLength ahead) text.toList)) := by
  have hNumber : f.line = lineNumberAt (byteLength ahead) text.toList := by
    rw [hText, lineNumberAt_append, hLine]
  refine ⟨hNumber, ?_⟩
  change String.ofList (trimmedLine f.line text.toList) = _
  rw [hNumber, hText, trimmedLine_lineNumberAt]

theorem scanError_line_iff {text : String} {e : ScanError} {ahead behind : List Char} {c : Char}
    {s : Scanned} (h : Token.Fails 1 0 text.toList e ahead c behind s) :
    e.line = 1 + ahead.count '\n' ↔ ¬ Token.EscapesBreak text.toList := by
  rw [← h.line_eq, (Token.scanFrom_laid h.reads).endLine_eq_iff, h.escapesBreak_iff]

/-- If no token in quotes has an escaped line break, all lines are right. -/
theorem hasRightLines_of_not_escapesBreak {text : String}
    (hEscape : ¬ Token.EscapesBreak text.toList) : HasRightLines text := by
  have hStarts {s : Scanned} (hScan : tokenize text = .ok s) {line offset : Nat}
      (h : (line, offset) ∈ s.starts) := (Token.scanFrom_laid hScan).line_eq hEscape h
  constructor
  case starts =>
    intro s hScan line offset h
    obtain ⟨front, behind, hText, rfl, hLine⟩ := hStarts hScan h
    rw [hText, lineNumberAt_append, hLine]
  case breaks =>
    intro s hScan t ht hToken hBreak
    apply hEscape
    rw [Token.escapesBreak_iff_of_tokenize hScan]
    exact ⟨t, ht, Token.hiddenBreaks_pos_iff.2 ⟨hToken, hBreak⟩⟩
  case scanErrors =>
    intro e hScan
    obtain ⟨ahead, c, behind, s, hFails⟩ := Token.scanFrom_fails hScan
    exact ⟨ahead, c, behind, s, hFails, (scanError_line_iff hFails).2 hEscape⟩
  case quotes =>
    intro e h
    cases hScan : tokenize text with
    | error scanError =>
        simp only [parse, hScan] at h
        cases h
        obtain ⟨ahead, c, behind, s, hFails⟩ := Token.scanFrom_fails hScan
        have hLine := (scanError_line_iff hFails).2 hEscape
        exact ⟨_, .scan hFails, quote_content hFails.text_eq hLine⟩
    | ok s =>
        simp only [parse, hScan] at h
        split at h
        · rename_i fault hTables
          cases h
          rcases blames_of_tables hTables with ⟨t, ht, hBlames, hLine⟩ | ⟨expected, rfl⟩
          · have hStart : (t.line, t.start) ∈ s.starts :=
              List.mem_append_left _ (List.mem_map_of_mem ht)
            obtain ⟨front, behind, hText, hOffset, hCount⟩ := hStarts hScan hStart
            refine ⟨t.start, .token hScan ht hBlames, ?_⟩
            rw [hOffset]
            exact quote_content hText (hLine.trans hCount)
          · have hEnd : (s.endLine, s.endOffset) ∈ s.starts := by simp [Scanned.starts]
            obtain ⟨front, behind, hText, hOffset, hCount⟩ := hStarts hScan hEnd
            refine ⟨s.endOffset, .atEnd hScan, ?_⟩
            rw [hOffset]
            exact quote_content hText hCount
        · cases h

/-- If no line break of a source stands behind a backslash, all lines are right. -/
theorem hasRightLines (text : String) (hEscape : ¬ ['\\', '\n'] <:+: text.toList) :
    HasRightLines text :=
  hasRightLines_of_not_escapesBreak fun h => hEscape h.isInfix

/-- All lines are right if and only if no token in quotes has a line feed behind a backslash. -/
theorem hasRightLines_iff (text : String) :
    HasRightLines text ↔ ¬ Token.EscapesBreak text.toList := by
  refine ⟨fun h hEscape => ?_, hasRightLines_of_not_escapesBreak⟩
  cases hScan : tokenize text with
  | ok s =>
      obtain ⟨t, ht, hHidden⟩ := (Token.escapesBreak_iff_of_tokenize hScan).1 hEscape
      obtain ⟨hToken, hBreak⟩ := Token.hiddenBreaks_pos_iff.1 hHidden
      exact h.breaks s hScan t ht hToken hBreak
  | error e =>
      obtain ⟨ahead, c, behind, s, hFails, hLine⟩ := h.scanErrors e hScan
      exact (scanError_line_iff hFails).1 hLine hEscape

/-- A backslash at the end of a comment does no harm: the text in quotes is on the second line. -/
theorem hasRightLines_of_comment : HasRightLines "# a \\\n\"k\"" := by
  refine (hasRightLines_iff _).2 fun hEscape => ?_
  have hScan : tokenize "# a \\\n\"k\"" =
      .ok ⟨[⟨.lineBreak, 1, 5, 6⟩, ⟨.text "k", 2, 6, 9⟩], 2, 9⟩ := by decide +kernel
  rw [Token.escapesBreak_iff_of_tokenize hScan] at hEscape
  exact absurd hEscape (by decide +kernel)

/-- A line break behind a backslash goes into the text, and the name behind it is given the first
line. -/
theorem not_hasRightLines_escaped_break : ¬ HasRightLines "\"\\\n\" x" := by
  intro h
  have hScan : tokenize "\"\\\n\" x" =
      .ok ⟨[⟨.text "\n", 1, 0, 4⟩, ⟨.ident "x", 1, 5, 6⟩], 1, 6⟩ := by decide +kernel
  have hLine := h.starts _ hScan 1 5 (by decide)
  exact absurd hLine (by decide +kernel)

end ErDiagram
