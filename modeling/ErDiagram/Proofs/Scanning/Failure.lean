import ErDiagram.Proofs.Scanning.Yields

/-! Where scanning fails. The scanner looks no further than one character behind a lexeme, so a text
can be cut off where a lexeme begins, and what stands before is read as in the whole text. -/
namespace ErDiagram.Token

open Text

/-- Whether a text may stand in the place of another without a change to what is read before: it is
empty, or it begins with a line feed or with the same character. -/
def Replaces (cs ds : List Char) : Prop := ∀ c ∈ cs.head?, c = '\n' ∨ c ∈ ds.head?

theorem replaces_cons {c : Char} {cs ds : List Char} : Replaces (c :: cs) (c :: ds) :=
  fun _ h => Or.inr h

theorem replaces_lineFeed (cs ds : List Char) : Replaces ('\n' :: cs) ds :=
  fun _ h => Or.inl (Option.some.inj h).symm

theorem Replaces.of_isPrefix {cs ds : List Char} (h : cs <+: ds) : Replaces cs ds := by
  obtain ⟨behind, rfl⟩ := h
  cases cs with
  | nil => intro c hc; cases hc
  | cons c cs => exact replaces_cons

theorem Replaces.append {other behind : List Char} (h : Replaces other behind)
    (ahead : List Char) : Replaces (ahead ++ other) (ahead ++ behind) := by
  cases ahead with
  | nil => exact h
  | cons d ahead => exact replaces_cons

theorem Replaces.cases {cs ds : List Char} (h : Replaces cs ds) :
    cs = [] ∨ (∃ cs', cs = '\n' :: cs') ∨ ∃ c cs' ds', cs = c :: cs' ∧ ds = c :: ds' := by
  cases cs with
  | nil => exact Or.inl rfl
  | cons c cs =>
      rcases h c rfl with rfl | hSame
      · exact Or.inr (Or.inl ⟨cs, rfl⟩)
      · obtain ⟨ds', hds⟩ := List.head?_eq_some_iff.1 hSame
        exact Or.inr (Or.inr ⟨c, cs, ds', rfl, hds⟩)

theorem splitGap_replace {inComment : Bool} {cs gap rest other : List Char}
    (h : splitGap inComment cs = (gap, rest)) (hOther : Replaces other rest) :
    splitGap inComment (gap ++ other) = (gap, other) := by
  fun_induction splitGap inComment cs generalizing gap with
  | case1 =>
      cases h
      rcases hOther.cases with rfl | ⟨_, rfl⟩ | ⟨_, _, _, -, hNil⟩
      · rfl
      · simp [splitGap]
      · cases hNil
  | case2 =>
      cases h
      rcases hOther.cases with rfl | ⟨_, rfl⟩ | ⟨_, _, _, rfl, hCons⟩
      · rfl
      · simp [splitGap]
      · cases hCons
        simp [splitGap]
  | case3 inComment c cs hBreak hSkip gap' rest' hRest ih =>
      cases h
      rw [List.cons_append, splitGap, if_neg hBreak, if_pos hSkip, ih hRest]
  | case4 inComment cs gap' rest' hRest hBreak hSkip ih =>
      cases h
      rw [List.cons_append, splitGap, if_neg hBreak, if_neg hSkip, if_pos rfl, ih hRest]
  | case5 inComment c cs hBreak hSkip hHash =>
      cases h
      rcases hOther.cases with rfl | ⟨_, rfl⟩ | ⟨_, _, _, rfl, hCons⟩
      · rfl
      · simp [splitGap]
      · cases hCons
        rw [List.nil_append, splitGap, if_neg hBreak, if_neg hSkip, if_neg hHash]

theorem splitLiteral_replace {cs : List Char} {l : Literal} (h : splitLiteral cs = some l)
    (other : List Char) :
    splitLiteral (l.spelling ++ other) = some ⟨l.content, l.spelling, other⟩ := by
  fun_induction splitLiteral cs generalizing l with
  | case1 => cases h
  | case2 cs =>
      cases h
      rfl
  | case3 => cases h
  | case4 => cases h
  | case5 c cs ih =>
      obtain ⟨m, hm, rfl⟩ := Option.map_eq_some_iff.1 h
      simp [splitLiteral, ih hm]
  | case6 c cs hQuote hBreak hAlone hPair ih =>
      obtain ⟨m, hm, rfl⟩ := Option.map_eq_some_iff.1 h
      rw [List.cons_append, splitLiteral_cons hQuote (ne_backslash hAlone hPair) hBreak, ih hm]
      rfl

theorem splitLiteral_eq_none {cs ds : List Char} (h : splitLiteral ds = none)
    (hPrefix : cs <+: ds) : splitLiteral cs = none := by
  cases hSplit : splitLiteral cs with
  | none => rfl
  | some l =>
      obtain ⟨behind, rfl⟩ := hPrefix
      rw [← splitLiteral_append hSplit, List.append_assoc, splitLiteral_replace hSplit] at h
      cases h

/-- A lexeme is read alike in front of another rest. -/
theorem lexeme_replace {c : Char} {cs other : List Char} {l : Lexeme} (h : lexeme c cs = .ok l)
    (hOther : Replaces other l.rest) : ∃ spelling, l.spelling = c :: spelling ∧
      lexeme c (spelling ++ other) = .ok { l with rest := other } := by
  unfold lexeme at h
  split at h <;> try (cases h; exact ⟨[], rfl, rfl⟩)
  · split at h
    · rename_i m hSplit
      cases h
      exact ⟨m.spelling, rfl, by simp [lexeme, splitLiteral_replace hSplit]⟩
    · cases h
  · split at h
    · cases h
      exact ⟨['>'], rfl, rfl⟩
    · rename_i hNoArrow
      cases h
      refine ⟨[], rfl, ?_⟩
      rcases hOther.cases with rfl | ⟨_, rfl⟩ | ⟨d, ds, es, rfl, hRest⟩
      · rfl
      · rfl
      · have hNot : d ≠ '>' := by
          rintro rfl
          exact hNoArrow es hRest
        simp [lexeme, hNot]
  · split at h
    · rename_i hName
      cases h
      have hEnds : EndsName other := fun d hd => by
        rcases hOther d hd with rfl | hSame
        · decide
        · have hHead := List.head?_dropWhile_not isNameChar cs
          rw [hSame] at hHead
          simpa using hHead
      have hName' : ∀ d ∈ cs.takeWhile isNameChar, isNameChar d := fun d hd =>
        List.mem_takeWhile_imp hd
      obtain ⟨hTake, hDrop⟩ := span_append hName' hEnds
      exact ⟨cs.takeWhile isNameChar, rfl, by rw [lexeme_nameChar hName, hTake, hDrop]⟩
    · rename_i hNoName
      split at h
      · cases h
      · rename_i hControl
        cases h
        refine ⟨[], rfl, ?_⟩
        unfold lexeme
        split <;> first | contradiction | skip
        rw [if_neg hNoName, if_neg hControl]
        rfl

/-- What begins no lexeme begins none in front of another rest either, unless a quote is closed
there. -/
theorem lexeme_error_replace {c : Char} {cs other : List Char} {cause : ScanCause}
    (h : lexeme c cs = .error cause) (hOpen : splitLiteral cs = none → splitLiteral other = none) :
    lexeme c other = .error cause := by
  unfold lexeme at h
  split at h <;> try cases h
  · split at h
    · cases h
    · rename_i hSplit
      cases h
      simp [lexeme, hOpen hSplit]
  · split at h <;> cases h
  · split at h
    · cases h
    · rename_i hNoName
      split at h
      · rename_i hControl
        cases h
        unfold lexeme
        split <;> first | contradiction | skip
        rw [if_neg hNoName, if_pos hControl]
      · cases h

/-- A character that begins no lexeme is a control character, or a quote that is never closed. -/
theorem lexeme_error {c : Char} {cs : List Char} {cause : ScanCause}
    (h : lexeme c cs = .error cause) :
    cause = .unexpectedCharacter c ∨ cause = .unterminatedText ∧ c = '"' := by
  unfold lexeme at h
  split at h <;> try cases h
  · split at h <;> cases h
    exact Or.inr ⟨rfl, rfl⟩
  · split at h <;> cases h
  · split at h
    · cases h
    · split at h <;> cases h
      exact Or.inl rfl

/-- A gap and a lexeme are read alike in front of another rest. -/
theorem yields_replace (line offset : Nat) {gap more other : List Char} {c : Char} {l : Lexeme}
    (hGap : splitGap false (gap ++ c :: more) = (gap, c :: more))
    (hLexeme : lexeme c more = .ok l) (hOther : Replaces other l.rest) :
    Yields line offset (gap ++ l.spelling) other [⟨l.token, line, offset + byteLength gap,
      offset + byteLength gap + byteLength l.spelling⟩] (lineAfter line l.token) := by
  obtain ⟨spelling, hSpelling, hRead⟩ := lexeme_replace hLexeme hOther
  have hSplit :
      splitGap false (gap ++ c :: (spelling ++ other)) = (gap, c :: (spelling ++ other)) :=
    splitGap_replace hGap replaces_cons
  rw [Yields, byteLength_append, List.append_assoc, hSpelling, List.cons_append, scanFrom_eq,
    ← hSpelling]
  simp only [hSplit, hRead, Nat.add_assoc]

/-- The scanner gets no further than in front of the character `c`: it reads what stands before it,
and it fails alike on everything longer. -/
structure Fails (line offset : Nat) (cs : List Char) (e : ScanError) (ahead : List Char) (c : Char)
    (behind : List Char) (s : Scanned) : Prop where
  text_eq : cs = ahead ++ c :: behind
  reads : scanFrom line offset ahead = .ok s
  line_eq : s.endLine = e.line
  cause : e.cause = .unexpectedCharacter c ∨ e.cause = .unterminatedText ∧ c = '"'
  fails : ∀ more, more <+: behind → scanFrom line offset (ahead ++ c :: more) = .error e

theorem fails_here (line offset : Nat) {gap more : List Char} {c : Char} {cause : ScanCause}
    (hGap : splitGap false (gap ++ c :: more) = (gap, c :: more))
    (hLexeme : lexeme c more = .error cause) :
    Fails line offset (gap ++ c :: more) ⟨line, cause⟩ gap c more
      ⟨[], line, offset + byteLength gap⟩ := by
  refine ⟨rfl, ?_, rfl, lexeme_error hLexeme, fun ds hPrefix => ?_⟩
  · have hSplit : splitGap false gap = (gap, []) := by
      have hNone := splitGap_replace hGap (Replaces.of_isPrefix (List.nil_prefix))
      rwa [List.append_nil] at hNone
    simp only [scanFrom_eq, hSplit]
  · have hSplit : splitGap false (gap ++ c :: ds) = (gap, c :: ds) :=
      splitGap_replace hGap replaces_cons
    have hShorter := lexeme_error_replace hLexeme fun hOpen => splitLiteral_eq_none hOpen hPrefix
    simp only [scanFrom_eq, hSplit, hShorter]

theorem Fails.behind {line offset : Nat} {gap more ahead behind : List Char} {c d : Char}
    {l : Lexeme} {e : ScanError} {s : Scanned}
    (hGap : splitGap false (gap ++ c :: more) = (gap, c :: more))
    (hLexeme : lexeme c more = .ok l)
    (h : Fails (lineAfter line l.token) (offset + byteLength gap + byteLength l.spelling) l.rest e
      ahead d behind s) :
    Fails line offset (gap ++ c :: more) e (gap ++ l.spelling ++ ahead) d behind
      (prepend [⟨l.token, line, offset + byteLength gap,
        offset + byteLength gap + byteLength l.spelling⟩] s) := by
  obtain ⟨hText, hReads, hLine, hCause, hFails⟩ := h
  refine ⟨?_, ?_, hLine, hCause, fun ds hPrefix => ?_⟩
  · rw [← lexeme_append hLexeme, hText]
    simp
  · have hAhead : Replaces ahead l.rest := hText ▸ .of_isPrefix (List.prefix_append ..)
    have hYields := yields_replace line offset hGap hLexeme hAhead
    rw [Yields, byteLength_append, ← Nat.add_assoc, hReads] at hYields
    exact hYields
  · have hLonger : Replaces (ahead ++ d :: ds) l.rest := hText ▸ replaces_cons.append ahead
    have hYields := yields_replace line offset hGap hLexeme hLonger
    rw [Yields, byteLength_append, ← Nat.add_assoc, hFails ds hPrefix] at hYields
    rw [List.append_assoc]
    exact hYields

theorem scanFrom_fails {line offset : Nat} {cs : List Char} {e : ScanError}
    (h : scanFrom line offset cs = .error e) :
    ∃ ahead c behind s, Fails line offset cs e ahead c behind s := by
  fun_induction scanFrom line offset cs with
  | case1 => cases h
  | case2 line offset cs c more hGap cause hLexeme =>
      cases h
      obtain ⟨hAppend, hSplit⟩ := splitGap_eq hGap
      have hFails := fails_here line offset hSplit hLexeme
      rw [hAppend] at hFails
      exact ⟨_, c, more, _, hFails⟩
  | case3 line offset cs start c more hGap l hLexeme stop nextLine fault hLater =>
      cases h
      rename_i ih
      obtain ⟨hAppend, hSplit⟩ := splitGap_eq hGap
      have hLine : nextLine = lineAfter line l.token := dite_eq_ite ..
      obtain ⟨ahead, d, behind, s, hFails⟩ := ih hLater
      rw [hLine] at hFails
      have hBehind := hFails.behind hSplit hLexeme
      rw [hAppend] at hBehind
      exact ⟨_, d, behind, _, hBehind⟩
  | case4 => cases h

end ErDiagram.Token
