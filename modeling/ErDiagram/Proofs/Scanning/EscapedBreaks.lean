import ErDiagram.Proofs.Scanning.Failure
import ErDiagram.Proofs.Scanning.Segmentation

/-! Line feeds behind a backslash in quotes. The scanner counts all other line breaks, so its lines
are right up to the first token with such a line feed, and behind it they are not. -/
namespace ErDiagram.Token

open Text

/-- Among the tokens that the text begins with is one in quotes with a line feed behind a backslash.
A backslash outside of quotes does not count. -/
inductive EscapesBreak : List Char → Prop where
  | here {gap body content rest : List Char} (hGap : IsGap gap ('"' :: (body ++ '"' :: rest)))
      (hQuotes : Quotes body content) (hEscape : ['\\', '\n'] <:+: body) :
      EscapesBreak (gap ++ '"' :: (body ++ '"' :: rest))
  | later {gap spelling rest : List Char} {t : Token} (hGap : IsGap gap (spelling ++ rest))
      (hSpells : Spells rest t spelling) (later : EscapesBreak rest) :
      EscapesBreak (gap ++ (spelling ++ rest))

namespace EscapesBreak

theorem ne_nil {cs : List Char} (h : EscapesBreak cs) : cs ≠ [] := by
  induction h with
  | here => simp
  | later _ _ _ ih => simp [ih]

theorem isInfix {cs : List Char} (h : EscapesBreak cs) : ['\\', '\n'] <:+: cs := by
  induction h with
  | @here gap body content rest hGap hQuotes hEscape =>
      exact hEscape.trans ⟨gap ++ ['"'], '"' :: rest, by simp⟩
  | @later gap spelling rest t hGap hSpells later ih =>
      exact ih.trans ⟨gap ++ spelling, [], by simp⟩

/-- The first token of the text is in quotes and has the line break, or it is escaped behind. -/
theorem cases_token {cs : List Char} (h : EscapesBreak cs) :
    ∃ gap spelling rest t, cs = gap ++ (spelling ++ rest) ∧ IsGap gap (spelling ++ rest) ∧
      Spells rest t spelling ∧ (t ≠ lineBreak ∧ '\n' ∈ spelling ∨ EscapesBreak rest) := by
  cases h with
  | @here gap body content rest hGap hQuotes hEscape =>
      have hInside : '\n' ∈ body := hEscape.subset (by simp)
      have hBreak : '\n' ∈ '"' :: (body ++ ['"']) := by simp [hInside]
      refine ⟨gap, '"' :: (body ++ ['"']), rest, .text (String.ofList content), ?_, ?_,
        .text hQuotes, Or.inl ⟨by simp, hBreak⟩⟩
      · simp
      · simpa using hGap
  | later hGap hSpells later => exact ⟨_, _, _, _, rfl, hGap, hSpells, Or.inr later⟩

/-- What begins a text escapes no more line breaks than the text does. -/
theorem of_isPrefix {cs ds : List Char} (h : EscapesBreak cs) (hPrefix : cs <+: ds) :
    EscapesBreak ds := by
  obtain ⟨more, rfl⟩ := hPrefix
  induction h with
  | @here gap body content rest hGap hQuotes hEscape =>
      rw [List.append_assoc, List.cons_append, List.append_assoc, List.cons_append]
      exact .here (hGap.replace rfl) hQuotes hEscape
  | @later gap spelling rest t hGap hSpells later ih =>
      rw [List.append_assoc, List.append_assoc]
      refine .later (hGap.replace_rest hSpells _) (hSpells.replace fun c hc => Or.inr ?_) ih
      rwa [List.head?_append_of_ne_nil _ later.ne_nil] at hc

/-- Up to the end of the token in quotes the text can be scanned. -/
theorem exists_scanned {cs : List Char} (h : EscapesBreak cs) :
    ∃ front, front <+: cs ∧ EscapesBreak front ∧
      ∀ line offset, ∃ s, scanFrom line offset front = .ok s := by
  induction h with
  | @here gap body content rest hGap hQuotes hEscape =>
      have hAlone : IsGap gap ('"' :: (body ++ ['"'])) := hGap.replace rfl
      have hSpells : Spells [] (.text (String.ofList content)) ('"' :: (body ++ ['"'])) :=
        .text hQuotes
      refine ⟨gap ++ '"' :: (body ++ ['"']), ⟨rest, by simp⟩, .here hAlone hQuotes hEscape, ?_⟩
      intro line offset
      rw [← List.append_nil ('"' :: _)] at hAlone ⊢
      exact ⟨_, hSpells.scanFrom_eq hAlone (Token.scanFrom_eq ..)⟩
  | @later gap spelling rest t hGap hSpells later ih =>
      obtain ⟨front, hFront, hEscapes, hScan⟩ := ih
      have hThere : Spells front t spelling := by
        refine hSpells.replace fun c hc => Or.inr ?_
        obtain ⟨more, rfl⟩ := hFront
        rwa [List.head?_append_of_ne_nil _ hEscapes.ne_nil]
      have hBefore := hGap.replace_rest hSpells front
      refine ⟨gap ++ (spelling ++ front), ?_, .later hBefore hThere hEscapes, ?_⟩
      · rwa [List.prefix_append_right_inj, List.prefix_append_right_inj]
      · intro line offset
        obtain ⟨s, hs⟩ := hScan (lineAfter line t) (offset + byteLength gap + byteLength spelling)
        exact ⟨_, hThere.scanFrom_eq hBefore hs⟩

end EscapesBreak

/-- Where the scanner stops, it has read every token that matters: the text up to such a token can
be scanned, and nothing longer than `ahead` can. -/
theorem Fails.escapesBreak_iff {line offset : Nat} {cs : List Char} {e : ScanError}
    {ahead behind : List Char} {c : Char} {s : Scanned}
    (h : Fails line offset cs e ahead c behind s) : EscapesBreak cs ↔ EscapesBreak ahead := by
  have hAhead : ahead <+: cs := h.text_eq ▸ List.prefix_append ..
  refine ⟨fun hBreak => ?_, fun hBreak => hBreak.of_isPrefix hAhead⟩
  obtain ⟨front, hFront, hEscapes, hScan⟩ := hBreak.exists_scanned
  rcases List.prefix_or_prefix_of_prefix hFront hAhead with hShort | ⟨more, rfl⟩
  · exact hEscapes.of_isPrefix hShort
  · cases more with
    | nil => rwa [List.append_nil] at hEscapes
    | cons d more =>
        rw [h.text_eq, List.prefix_append_right_inj, List.cons_prefix_cons] at hFront
        obtain ⟨rfl, hMore⟩ := hFront
        obtain ⟨s', hs'⟩ := hScan line offset
        rw [h.fails more hMore] at hs'
        cases hs'

/-! ### Lines -/

theorem hiddenBreaks_pos_iff {source : List Char} {t : Located} :
    0 < t.hiddenBreaks source ↔ t.token ≠ lineBreak ∧ '\n' ∈ slice t.start t.stop source := by
  unfold Located.hiddenBreaks
  split
  · simp [*]
  · simp [*, List.count_pos_iff]

theorem not_escapesBreak_of_splitGap {gap : List Char} (hGap : splitGap false gap = (gap, [])) :
    ¬ EscapesBreak gap := by
  intro h
  obtain ⟨gap', spelling, rest, t, rfl, hGap', hSpells, -⟩ := h.cases_token
  obtain ⟨c, more, hSplit, -⟩ := hSpells.read_eq hGap'
  rw [hGap] at hSplit
  cases congrArg Prod.snd hSplit

/-- A text escapes a line break in its first token or behind it. -/
theorem escapesBreak_iff_of_lexeme {gap more : List Char} {c : Char} {l : Lexeme}
    (hGap : splitGap false (gap ++ c :: more) = (gap, c :: more))
    (hLexeme : lexeme c more = .ok l) :
    EscapesBreak (gap ++ c :: more) ↔
      l.token ≠ lineBreak ∧ '\n' ∈ l.spelling ∨ EscapesBreak l.rest := by
  constructor
  · intro h
    obtain ⟨gap', spelling, rest, t, hText, hGap', hSpells, hBreak⟩ := h.cases_token
    obtain ⟨d, others, hSplit, hRead⟩ := hSpells.read_eq hGap'
    rw [← hText, hGap] at hSplit
    cases hSplit
    rw [hLexeme] at hRead
    cases hRead
    exact hBreak
  · have hIsGap := (isGap_of_splitGap hGap).1
    have hSpells := lexeme_spells hLexeme (splitGap_stop hGap)
    rw [← lexeme_append hLexeme] at hIsGap ⊢
    rintro (⟨hToken, hBreak⟩ | hLater)
    · obtain ⟨hLine, -⟩ | ⟨-, body, content, hSpelling, hQuotes, hEscape⟩ :=
        hSpells.lineBreak_or_quotes hBreak
      · exact absurd hLine hToken
      · rw [hSpelling, List.cons_append, List.append_assoc] at hIsGap ⊢
        exact .here hIsGap hQuotes hEscape
    · exact .later hIsGap hSpells hLater

/-- A scanned text escapes a line break where a token hides one from the scanner's count. -/
theorem Laid.escapesBreak_iff {line offset : Nat} {cs : List Char} {s : Scanned}
    (h : Laid line offset cs s) {source ahead : List Char} (hSource : source = ahead ++ cs)
    (hOffset : offset = byteLength ahead) :
    EscapesBreak cs ↔ ∃ t ∈ s.tokens, 0 < t.hiddenBreaks source := by
  induction h generalizing ahead with
  | done hGap => simp [not_escapesBreak_of_splitGap hGap]
  | @token line offset gap more c l s hGap hLexeme later ih =>
      have hText : source = ahead ++ gap ++ l.spelling ++ l.rest := by
        rw [hSource, ← lexeme_append hLexeme]
        simp
      have hLater := ih hText (by simp [hOffset, Nat.add_assoc])
      have hSlice := slice_of_append hText
      rw [byteLength_append, ← hOffset] at hSlice
      rw [escapesBreak_iff_of_lexeme hGap hLexeme, hLater]
      simp [prepend, hiddenBreaks_pos_iff, hSlice]

theorem escapesBreak_iff_of_tokenize {text : String} {s : Scanned} (h : tokenize text = .ok s) :
    EscapesBreak text.toList ↔ ∃ t ∈ s.tokens, 0 < t.hiddenBreaks text.toList :=
  (scanFrom_laid h).escapesBreak_iff (List.nil_append _).symm rfl

/-- The scanner ends on the last line of a scanned text, unless a line break is escaped. -/
theorem Laid.endLine_eq_iff {line : Nat} {source : List Char} {s : Scanned}
    (h : Laid line 0 source s) :
    s.endLine = line + source.count '\n' ↔ ¬ EscapesBreak source := by
  have hEnd : s.starts[s.tokens.length]? = some (s.endLine, s.endOffset) := by
    simp [Scanned.starts]
  obtain ⟨front, ⟨rest, rfl⟩, hOffset, hLine⟩ :=
    h.line_add (show source = [] ++ source from rfl) rfl hEnd
  rw [h.endOffset_eq, Nat.zero_add, List.nil_append, byteLength_append] at hOffset
  obtain rfl : rest = [] := byteLength_eq_zero_iff.1 (Nat.add_eq_left.1 hOffset)
  rw [List.append_nil] at h hLine ⊢
  rw [List.take_length] at hLine
  rw [h.escapesBreak_iff (show front = [] ++ front from rfl) rfl]
  have hHidden : 0 < (s.tokens.map (Located.hiddenBreaks front)).sum ↔
      ∃ t ∈ s.tokens, 0 < t.hiddenBreaks front := by
    simp [List.sum_pos_iff_exists_pos_nat]
  rw [← hHidden]
  omega

/-- If no line break is escaped, the scanner counts every line. -/
theorem Laid.line_eq {source : List Char} {s : Scanned} (h : Laid 1 0 source s)
    (hEscape : ¬ EscapesBreak source) {l start : Nat} (hStart : (l, start) ∈ s.starts) :
    ∃ front behind, source = front ++ behind ∧ start = byteLength front ∧
      l = 1 + front.count '\n' := by
  obtain ⟨n, hn⟩ := List.mem_iff_getElem?.1 hStart
  have hSource : source = [] ++ source := rfl
  obtain ⟨front, ⟨behind, hText⟩, hFront, hLine⟩ := h.line_add hSource rfl hn
  have hNone : ¬ 0 < ((s.tokens.take n).map (Located.hiddenBreaks source)).sum := by
    rw [List.sum_pos_iff_exists_pos_nat]
    rintro ⟨k, hk, hPos⟩
    obtain ⟨t, ht, rfl⟩ := List.mem_map.1 hk
    exact hEscape ((h.escapesBreak_iff hSource rfl).2 ⟨t, List.mem_of_mem_take ht, hPos⟩)
  exact ⟨front, behind, hText.symm, hFront, by omega⟩

end ErDiagram.Token
