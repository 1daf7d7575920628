import ErDiagram.Proofs.Scanning.Lines
import ErDiagram.Proofs.Scanning.Yields
import Mathlib.Data.List.Chain

/-! The tokens of a text, said without the scanner: where they stand, what may lie between them, and
how each of them is spelled. Scanning gives the one list of tokens that is of this kind, and fails
only where there is none. -/
namespace ErDiagram

open Text

namespace Token

/-! ### What stands in a text -/

/-- The line ends here, or the text does. -/
def EndsLine (cs : List Char) : Prop := ∀ c ∈ cs.head?, c = '\n'

/-- What may stand between two tokens, given all that follows: blanks that are no line feeds, and
comments. A comment runs up to the end of its line. -/
inductive IsGap : List Char → List Char → Prop where
  | nil {behind : List Char} : IsGap [] behind
  | blank {c : Char} {gap behind : List Char} (hBlank : isBlank c) (hBreak : c ≠ '\n')
      (later : IsGap gap behind) : IsGap (c :: gap) behind
  | comment {body gap behind : List Char} (hBody : '\n' ∉ body) (hEnd : EndsLine (gap ++ behind))
      (later : IsGap gap behind) : IsGap ('#' :: (body ++ gap)) behind

/-- The marks that are tokens of their own. -/
def punctuation : List (Char × Token) :=
  [('{', .openBrace), ('}', .closeBrace), ('(', .openParen), (')', .closeParen), (',', .comma),
    (':', .colon), ('?', .question), ('.', .dot)]

/-- A mark that means something inside a type only. -/
structure IsSymbol (c : Char) : Prop where
  blank : isBlank c = false
  control : isControl c = false
  nameChar : isNameChar c = false
  hash_ne : c ≠ '#'
  quote_ne : c ≠ '"'
  punctuation : ∀ t, (c, t) ∉ punctuation

/-- What a character stands for behind a backslash: three letters for controls, and every other
character for itself. -/
inductive Escapes : Char → Char → Prop where
  | lineFeed : Escapes 'n' '\n'
  | tab : Escapes 't' '\t'
  | carriageReturn : Escapes 'r' '\r'
  | itself {c : Char} (hLetter : c ∉ ['n', 't', 'r']) : Escapes c c

/-- What stands between the quotes of a text, and its content. Only behind a backslash a quote does
not end the text, and only there a line feed can stand. -/
inductive Quotes : List Char → List Char → Prop where
  | nil : Quotes [] []
  | plain {c : Char} {spelling content : List Char} (hQuote : c ≠ '"') (hSlash : c ≠ '\\')
      (hBreak : c ≠ '\n') (later : Quotes spelling content) : Quotes (c :: spelling) (c :: content)
  | escaped {c d : Char} {spelling content : List Char} (hEscape : Escapes c d)
      (later : Quotes spelling content) : Quotes ('\\' :: c :: spelling) (d :: content)

/-- How a token is spelled, given all that follows: a name does not stop in front of another of its
characters, and a hyphen in front of an angle bracket is half of an arrow. -/
inductive Spells (behind : List Char) : Token → List Char → Prop where
  | lineBreak : Spells behind .lineBreak ['\n']
  | name {cs : List Char} (hName : IsName cs) (hEnds : EndsName behind) :
      Spells behind (.ident (String.ofList cs)) cs
  | text {cs content : List Char} (hQuotes : Quotes cs content) :
      Spells behind (.text (String.ofList content)) ('"' :: (cs ++ ['"']))
  | arrow : Spells behind .arrow ['-', '>']
  | mark {c : Char} {t : Token} (hMark : (c, t) ∈ punctuation) : Spells behind t [c]
  | symbol {c : Char} (hSymbol : IsSymbol c) (hArrow : c = '-' → behind.head? ≠ some '>') :
      Spells behind (.symbol c) [c]

/-! ### Gaps -/

theorem IsGap.not_mem {gap behind : List Char} (h : IsGap gap behind) : '\n' ∉ gap := by
  induction h with
  | nil => simp
  | blank hBlank hBreak later ih => simp [Ne.symm hBreak, ih]
  | comment hBody hEnd later ih => simp [hBody, ih]

/-- Nothing of a gap is left behind a comment. -/
theorem IsGap.eq_nil_of_endsLine {gap behind : List Char} (h : IsGap gap behind)
    (hEnd : EndsLine (gap ++ behind)) : gap = [] := by
  cases gap with
  | nil => rfl
  | cons c gap =>
      obtain rfl := hEnd c rfl
      exact absurd List.mem_cons_self h.not_mem

/-- A comment takes all of its line. -/
theorem splitGap_comment {body behind : List Char} (hBody : '\n' ∉ body) (hEnd : EndsLine behind) :
    splitGap true (body ++ behind) = (body, behind) := by
  induction body with
  | nil =>
      cases behind with
      | nil => rfl
      | cons c behind =>
          obtain rfl := hEnd c rfl
          simp [splitGap]
  | cons c body ih =>
      rw [List.mem_cons, not_or] at hBody
      rw [List.cons_append, splitGap, if_neg (Ne.symm hBody.1), Bool.true_or, if_pos rfl,
        ih hBody.2]

theorem IsGap.splitGap_eq {gap behind : List Char} (h : IsGap gap behind)
    (hStop : splitGap false behind = ([], behind)) :
    splitGap false (gap ++ behind) = (gap, behind) := by
  induction h with
  | nil => exact hStop
  | blank hBlank hBreak later ih => rw [List.cons_append, splitGap_blank _ hBlank hBreak, ih hStop]
  | @comment body gap behind hBody hEnd later ih =>
      obtain rfl := later.eq_nil_of_endsLine hEnd
      have hComment : splitGap true (body ++ behind) = (body, behind) := splitGap_comment hBody hEnd
      rw [List.append_nil, List.cons_append, splitGap, if_neg (by decide), if_neg (by decide),
        if_pos rfl, hComment]

theorem splitGap_endsLine (cs : List Char) : EndsLine (splitGap true cs).2 := by
  intro c hc
  induction cs with
  | nil => cases hc
  | cons d cs ih =>
      rw [splitGap] at hc
      split at hc
      · rename_i hBreak
        exact (Option.some.inj hc).symm.trans hBreak
      · exact ih hc

theorem splitGap_isGap (cs : List Char) : IsGap (splitGap false cs).1 (splitGap false cs).2 := by
  induction cs with
  | nil => exact .nil
  | cons c cs ih =>
      rw [splitGap]
      split
      · exact .nil
      · rename_i hBreak
        split
        · rename_i hBlank
          exact .blank hBlank hBreak ih
        · split
          · rename_i hHash
            subst hHash
            have hGap := IsGap.comment (splitGap_not_mem true cs)
              (show EndsLine ([] ++ _) from splitGap_endsLine cs) .nil
            rwa [List.append_nil] at hGap
          · exact .nil

/-- A text begins with the gap that is split off it. -/
theorem isGap_of_splitGap {cs gap behind : List Char} (h : splitGap false cs = (gap, behind)) :
    IsGap gap behind ∧ gap ++ behind = cs := by
  have hGap := splitGap_isGap cs
  have hAppend := splitGap_append false cs
  rw [h] at hGap hAppend
  exact ⟨hGap, hAppend⟩

/-! ### Spellings -/

theorem escapes_iff {c d : Char} : Escapes c d ↔ unescape c = d := by
  constructor
  · intro h
    cases h with
    | lineFeed => rfl
    | tab => rfl
    | carriageReturn => rfl
    | itself hLetter =>
        simp only [List.mem_cons, List.not_mem_nil, or_false, not_or] at hLetter
        simp [unescape, hLetter]
  · rintro rfl
    unfold unescape
    split
    · exact .lineFeed
    · exact .tab
    · exact .carriageReturn
    · exact .itself (by simp_all)

theorem splitLiteral_quotes {cs : List Char} {l : Literal} (h : splitLiteral cs = some l) :
    ∃ body, l.spelling = body ++ ['"'] ∧ Quotes body l.content := by
  fun_induction splitLiteral cs generalizing l with
  | case1 => cases h
  | case2 cs =>
      cases h
      exact ⟨[], rfl, .nil⟩
  | case3 => cases h
  | case4 => cases h
  | case5 c cs ih =>
      obtain ⟨m, hm, rfl⟩ := Option.map_eq_some_iff.1 h
      obtain ⟨body, hSpelling, hQuotes⟩ := ih hm
      exact ⟨'\\' :: c :: body, by simp [hSpelling], .escaped (escapes_iff.2 rfl) hQuotes⟩
  | case6 c cs hQuote hBreak hAlone hPair ih =>
      obtain ⟨m, hm, rfl⟩ := Option.map_eq_some_iff.1 h
      obtain ⟨body, hSpelling, hQuotes⟩ := ih hm
      exact ⟨c :: body, by simp [hSpelling],
        .plain hQuote (ne_backslash hAlone hPair) hBreak hQuotes⟩

theorem Quotes.splitLiteral_eq {body content : List Char} (h : Quotes body content)
    (rest : List Char) :
    splitLiteral (body ++ '"' :: rest) = some ⟨content, body ++ ['"'], rest⟩ := by
  induction h with
  | nil => rfl
  | plain hQuote hSlash hBreak later ih =>
      rw [List.cons_append, splitLiteral_cons hQuote hSlash hBreak, ih]
      rfl
  | escaped hEscape later ih =>
      rw [List.cons_append, List.cons_append, splitLiteral, ih, escapes_iff.1 hEscape]
      rfl

/-- Where a token can begin, the scanner reads one that is spelled there. -/
theorem lexeme_spells {c : Char} {cs : List Char} {l : Lexeme} (h : lexeme c cs = .ok l)
    (hStop : c = '\n' ∨ isBlank c = false ∧ c ≠ '#') : Spells l.rest l.token l.spelling := by
  unfold lexeme at h
  split at h
  case h_1 =>
    cases h
    exact .lineBreak
  case h_2 | h_3 | h_4 | h_5 | h_6 | h_7 | h_8 | h_9 =>
    cases h
    exact .mark (by simp [punctuation])
  case h_10 =>
    split at h
    · rename_i m hSplit
      cases h
      obtain ⟨body, hSpelling, hQuotes⟩ := splitLiteral_quotes hSplit
      simp only [hSpelling]
      exact .text hQuotes
    · cases h
  case h_11 =>
    split at h
    · cases h
      exact .arrow
    · rename_i hArrow
      cases h
      refine .symbol ⟨by decide, by decide, by decide, by decide, by decide, ?_⟩ fun _ hHead => ?_
      · simp [punctuation]
      · obtain ⟨rest, hRest⟩ := List.head?_eq_some_iff.1 hHead
        exact hArrow rest hRest
  case h_12 hBreak _ _ _ _ _ _ _ _ hQuote hHyphen =>
    obtain ⟨hBlank, hHash⟩ := hStop.resolve_left hBreak
    split at h
    · rename_i hName
      cases h
      refine .name ⟨List.cons_ne_nil _ _, List.forall_mem_cons.2 ⟨hName, fun d hd => ?_⟩⟩ ?_
      · exact List.mem_takeWhile_imp hd
      · intro d hd
        have hHead := List.head?_dropWhile_not isNameChar cs
        rw [hd] at hHead
        simpa using hHead
    · rename_i hName
      split at h
      · cases h
      · rename_i hControl
        cases h
        refine .symbol ⟨hBlank, by simpa using hControl, by simpa using hName, hHash, hQuote, ?_⟩
          fun hc => absurd hc hHyphen
        simp_all [punctuation]

theorem Spells.lexeme_eq {behind : List Char} {t : Token} {spelling : List Char}
    (h : Spells behind t spelling) :
    ∃ c more, spelling = c :: more ∧ (c = '\n' ∨ isBlank c = false ∧ c ≠ '#') ∧
      lexeme c (more ++ behind) = .ok ⟨t, spelling, behind⟩ := by
  cases h with
  | lineBreak => exact ⟨_, _, rfl, Or.inl rfl, rfl⟩
  | name hName hEnds =>
      cases spelling with
      | nil => exact absurd rfl hName.1
      | cons c more =>
          obtain ⟨hHead, hMore⟩ := List.forall_mem_cons.1 hName.2
          refine ⟨c, more, rfl, stop_of_nameChar hHead, ?_⟩
          rw [lexeme_nameChar hHead, (span_append hMore hEnds).1, (span_append hMore hEnds).2]
  | text hQuotes =>
      refine ⟨_, _, rfl, Or.inr (by decide), ?_⟩
      simp [lexeme, hQuotes.splitLiteral_eq]
  | arrow => exact ⟨_, _, rfl, Or.inr (by decide), rfl⟩
  | mark hMark =>
      simp only [punctuation, List.mem_cons, Prod.mk.injEq, List.not_mem_nil, or_false] at hMark
      rcases hMark with ⟨rfl, rfl⟩ | ⟨rfl, rfl⟩ | ⟨rfl, rfl⟩ | ⟨rfl, rfl⟩ | ⟨rfl, rfl⟩ |
        ⟨rfl, rfl⟩ | ⟨rfl, rfl⟩ | ⟨rfl, rfl⟩ <;>
        exact ⟨_, _, rfl, Or.inr (by decide), rfl⟩
  | @symbol c hSymbol hArrow =>
      refine ⟨c, [], rfl, Or.inr ⟨hSymbol.blank, hSymbol.hash_ne⟩, ?_⟩
      have hMark := hSymbol.punctuation
      simp only [punctuation, List.mem_cons, Prod.mk.injEq, List.not_mem_nil, or_false] at hMark
      unfold lexeme
      split <;> try simp at hMark
      · exact absurd hSymbol.blank (by decide)
      · exact absurd rfl hSymbol.quote_ne
      · split
        · rename_i hBehind
          exact absurd (congrArg List.head? hBehind) (hArrow rfl)
        · rfl
      · rw [if_neg (by simp [hSymbol.nameChar]), if_neg (by simp [hSymbol.control])]
        rfl

/-! ### Line feeds in tokens -/

/-- A line feed between quotes stands behind a backslash. -/
theorem Quotes.escape_of_mem {body content : List Char} (h : Quotes body content)
    (hBreak : '\n' ∈ body) : ['\\', '\n'] <:+: body := by
  induction h with
  | nil => cases hBreak
  | plain hQuote hSlash hNoBreak later ih =>
      rcases List.mem_cons.1 hBreak with rfl | hLater
      · exact absurd rfl hNoBreak
      · exact List.infix_cons (ih hLater)
  | @escaped c d body content hEscape later ih =>
      rcases List.mem_cons.1 hBreak with hSlash | hMem
      · cases hSlash
      rcases List.mem_cons.1 hMem with rfl | hLater
      · exact (List.prefix_append ['\\', '\n'] body).isInfix
      · exact List.infix_cons (List.infix_cons (ih hLater))

/-- A token with a line feed in it is the line feed, or it is in quotes. -/
theorem Spells.lineBreak_or_quotes {behind spelling : List Char} {t : Token}
    (h : Spells behind t spelling) (hBreak : '\n' ∈ spelling) :
    t = .lineBreak ∧ spelling = ['\n'] ∨
      t ≠ .lineBreak ∧ ∃ body content, spelling = '"' :: (body ++ ['"']) ∧
        Quotes body content ∧ ['\\', '\n'] <:+: body := by
  cases h with
  | lineBreak => exact Or.inl ⟨rfl, rfl⟩
  | name hName hEnds => exact absurd (hName.2 _ hBreak) (by decide)
  | @text body content hQuotes =>
      have hInside : '\n' ∈ body := by simpa using hBreak
      exact Or.inr ⟨by simp, body, content, rfl, hQuotes, hQuotes.escape_of_mem hInside⟩
  | arrow => simp at hBreak
  | mark hMark =>
      obtain rfl := List.mem_singleton.1 hBreak
      simp [punctuation] at hMark
  | symbol hSymbol hArrow =>
      obtain rfl := List.mem_singleton.1 hBreak
      exact absurd hSymbol.blank (by decide)

/-! ### Other texts behind a token -/

/-- A gap is one in front of another text that begins alike. -/
theorem IsGap.replace {gap behind other : List Char} (h : IsGap gap behind)
    (hHead : other.head? = behind.head?) : IsGap gap other := by
  induction h with
  | nil => exact .nil
  | blank hBlank hBreak later ih => exact .blank hBlank hBreak (ih hHead)
  | comment hBody hEnd later ih =>
      refine .comment hBody (fun c hc => hEnd c ?_) (ih hHead)
      rwa [List.head?_append, ← hHead, ← List.head?_append]

/-- A token is spelled alike in front of a rest that begins as its own did, or with a blank. -/
theorem Spells.replace {behind other spelling : List Char} {t : Token}
    (h : Spells behind t spelling) (hOther : ∀ c ∈ other.head?, isBlank c ∨ c ∈ behind.head?) :
    Spells other t spelling := by
  cases h with
  | lineBreak => exact .lineBreak
  | arrow => exact .arrow
  | text hQuotes => exact .text hQuotes
  | mark hMark => exact .mark hMark
  | name hName hEnds =>
      refine .name hName fun c hc => ?_
      rcases hOther c hc with hBlank | hSame
      · exact isNameChar_of_isBlank hBlank
      · exact hEnds c hSame
  | symbol hSymbol hArrow =>
      refine .symbol hSymbol fun hc hHead => ?_
      rcases hOther _ hHead with hBlank | hSame
      · exact absurd hBlank (by decide)
      · exact hArrow hc hSame

theorem IsGap.replace_rest {gap rest spelling : List Char} {t : Token}
    (h : IsGap gap (spelling ++ rest)) (hSpells : Spells rest t spelling) (other : List Char) :
    IsGap gap (spelling ++ other) := by
  apply h.replace
  obtain ⟨c, more, rfl, -⟩ := hSpells.lexeme_eq
  rfl

/-- A gap and a token that is spelled behind it are what the scanner reads there. -/
theorem Spells.read_eq {gap rest spelling : List Char} {t : Token} (h : Spells rest t spelling)
    (hGap : IsGap gap (spelling ++ rest)) :
    ∃ c more, splitGap false (gap ++ (spelling ++ rest)) = (gap, c :: more) ∧
      lexeme c more = .ok ⟨t, spelling, rest⟩ := by
  obtain ⟨c, more, rfl, hStop, hLexeme⟩ := h.lexeme_eq
  exact ⟨c, more ++ rest, hGap.splitGap_eq (splitGap_of_stop hStop), hLexeme⟩

/-- A text that is scanned is scanned with a gap and a token in front of it. -/
theorem Spells.scanFrom_eq {line offset : Nat} {gap rest spelling : List Char} {t : Token}
    {s : Scanned} (h : Spells rest t spelling) (hGap : IsGap gap (spelling ++ rest))
    (hScan : scanFrom (lineAfter line t) (offset + byteLength gap + byteLength spelling) rest =
      .ok s) :
    scanFrom line offset (gap ++ (spelling ++ rest)) = .ok (prepend [⟨t, line,
      offset + byteLength gap, offset + byteLength gap + byteLength spelling⟩] s) := by
  obtain ⟨c, more, hSplit, hLexeme⟩ := h.read_eq hGap
  rw [Token.scanFrom_eq]
  simp only [hSplit, hLexeme, hScan]
  rfl

end Token

open Token

/-! ### Segmentations -/

/-- A token from one byte offset to another. Where there is no token the text ends. -/
structure Segment where
  token : Option Token
  start : Nat
  stop : Nat
deriving DecidableEq, Repr

/-- The offset lies between two characters of the text, or at one of its ends. -/
def IsBoundary (source : List Char) (offset : Nat) : Prop :=
  ∃ front, front <+: source ∧ byteLength front = offset

/-- From one offset to another there is nothing but a gap. -/
def IsGapBetween (source : List Char) (stop start : Nat) : Prop :=
  stop ≤ start ∧ IsGap (slice stop start source) (dropBytes start source)

/-- The text from an offset on falls into these segments. The last one, and no other, is the end of
the text. -/
structure SegmentsFrom (source : List Char) (start : Nat) (ss : List Segment) : Prop where
  ends : ∃ ts, ss = ts ++ [⟨none, byteLength source, byteLength source⟩] ∧
    ∀ s ∈ ts, s.token.isSome
  nonempty : ∀ s ∈ ss, s.token.isSome → s.start < s.stop
  boundaries : ∀ s ∈ ss, IsBoundary source s.start ∧ IsBoundary source s.stop
  firstGap : ∀ s ∈ ss.head?, IsGapBetween source start s.start
  gaps : ss.IsChain fun s t => IsGapBetween source s.stop t.start
  spelled : ∀ s ∈ ss, ∀ t ∈ s.token,
    Spells (dropBytes s.stop source) t (slice s.start s.stop source)

/-- The text falls into these segments. -/
def IsSegmentation (source : List Char) (ss : List Segment) : Prop := SegmentsFrom source 0 ss

def Located.segment (t : Located) : Segment := ⟨some t.token, t.start, t.stop⟩

/-- The tokens that the scanner gives, and the end. -/
def Scanned.segments (s : Scanned) : List Segment :=
  s.tokens.map Located.segment ++ [⟨none, s.endOffset, s.endOffset⟩]

theorem isPrefix_of_byteLength_le {first second cs : List Char} (hFirst : first <+: cs)
    (hSecond : second <+: cs) (hLe : byteLength first ≤ byteLength second) : first <+: second := by
  rcases List.prefix_or_prefix_of_prefix hFirst hSecond with hPrefix | ⟨more, rfl⟩
  · exact hPrefix
  · rw [byteLength_append] at hLe
    obtain rfl : more = [] := byteLength_eq_zero_iff.1 (by omega)
    exact List.prefix_rfl.trans (by simp)

/-- A boundary that does not lie before another one cuts what stands behind that. -/
theorem IsBoundary.cut {ahead cs : List Char} {offset : Nat} (h : IsBoundary (ahead ++ cs) offset)
    (hLe : byteLength ahead ≤ offset) :
    ∃ inner rest, cs = inner ++ rest ∧ offset = byteLength (ahead ++ inner) := by
  obtain ⟨front, hFront, rfl⟩ := h
  obtain ⟨inner, rfl⟩ := isPrefix_of_byteLength_le (List.prefix_append ..) hFront hLe
  obtain ⟨rest, hRest⟩ := hFront
  rw [List.append_assoc, List.append_cancel_left_eq] at hRest
  exact ⟨inner, rest, hRest.symm, rfl⟩

theorem isBoundary_append (front rest : List Char) :
    IsBoundary (front ++ rest) (byteLength front) :=
  ⟨front, List.prefix_append .., rfl⟩

theorem isGapBetween_append {source ahead gap behind : List Char}
    (hSource : source = ahead ++ gap ++ behind) :
    IsGapBetween source (byteLength ahead) (byteLength (ahead ++ gap)) ↔ IsGap gap behind := by
  have hLe : byteLength ahead ≤ byteLength (ahead ++ gap) := by simp
  rw [IsGapBetween, and_iff_right hLe, hSource, slice_append, dropBytes_byteLength_append]

theorem segmentsFrom_end {source ahead gap : List Char} (hSource : source = ahead ++ gap)
    (hGap : IsGap gap []) :
    SegmentsFrom source (byteLength ahead) [⟨none, byteLength source, byteLength source⟩] := by
  have hEnd : IsBoundary source (byteLength source) := ⟨source, List.prefix_rfl, rfl⟩
  refine ⟨⟨[], rfl, by simp⟩, by simp, by simpa using hEnd, ?_, by simp, by simp⟩
  intro s hs
  obtain rfl := Option.some.inj hs
  rw [hSource]
  exact (isGapBetween_append (List.append_nil _).symm).2 hGap

/-- A gap and a token in front of segments. -/
theorem SegmentsFrom.token {source ahead gap spelling rest : List Char} {t : Token}
    {ss : List Segment} (hSource : source = ahead ++ gap ++ spelling ++ rest)
    (hGap : IsGap gap (spelling ++ rest)) (hSpells : Spells rest t spelling)
    (h : SegmentsFrom source (byteLength (ahead ++ gap ++ spelling)) ss) :
    SegmentsFrom source (byteLength ahead)
      (⟨some t, byteLength (ahead ++ gap), byteLength (ahead ++ gap ++ spelling)⟩ :: ss) := by
  obtain ⟨c, more, hSpelling, -, -⟩ := hSpells.lexeme_eq
  obtain ⟨ts, hEnd, hTokens⟩ := h.ends
  constructor
  case ends => exact ⟨_ :: ts, by rw [hEnd, List.cons_append], by simpa using hTokens⟩
  case nonempty =>
    refine List.forall_mem_cons.2 ⟨fun _ => ?_, h.nonempty⟩
    have hPos := c.utf8Size_pos
    rw [byteLength_append _ spelling, hSpelling, byteLength_cons]
    dsimp only
    omega
  case boundaries =>
    refine List.forall_mem_cons.2 ⟨⟨?_, ?_⟩, h.boundaries⟩
    · rw [hSource, List.append_assoc]
      exact isBoundary_append ..
    · rw [hSource]
      exact isBoundary_append ..
  case firstGap =>
    intro s hs
    obtain rfl := Option.some.inj hs
    exact (isGapBetween_append (by rw [hSource, List.append_assoc])).2 hGap
  case gaps => exact List.isChain_cons.2 ⟨h.firstGap, h.gaps⟩
  case spelled =>
    refine List.forall_mem_cons.2 ⟨?_, h.spelled⟩
    intro u hu
    obtain rfl := Option.some.inj hu
    rw [hSource, slice_append, dropBytes_byteLength_append]
    exact hSpells

/-- The first of the segments in which a text goes on: its end, or a token. -/
theorem SegmentsFrom.cases {ahead cs : List Char} {s : Segment} {ss : List Segment}
    (h : SegmentsFrom (ahead ++ cs) (byteLength ahead) (s :: ss)) :
    (IsGap cs [] ∧ s :: ss = [⟨none, byteLength (ahead ++ cs), byteLength (ahead ++ cs)⟩]) ∨
      ∃ t gap spelling rest, cs = gap ++ spelling ++ rest ∧ IsGap gap (spelling ++ rest) ∧
        Spells rest t spelling ∧
        s = ⟨some t, byteLength (ahead ++ gap), byteLength (ahead ++ gap ++ spelling)⟩ ∧
        SegmentsFrom (ahead ++ cs) (byteLength (ahead ++ gap ++ spelling)) ss := by
  obtain ⟨ts, hEnd, hTokens⟩ := h.ends
  have hGap := h.firstGap s rfl
  cases ts with
  | nil =>
      obtain ⟨rfl, rfl⟩ := List.cons.inj hEnd
      exact Or.inl ⟨(isGapBetween_append (List.append_nil _).symm).1 hGap, rfl⟩
  | cons first ts =>
      obtain ⟨rfl, rfl⟩ := List.cons.inj hEnd
      obtain ⟨hSome, hLater⟩ := List.forall_mem_cons.1 hTokens
      obtain ⟨t, ht⟩ := Option.isSome_iff_exists.1 hSome
      obtain ⟨token, start, stop⟩ := s
      obtain rfl : token = some t := ht
      have hLess := h.nonempty _ List.mem_cons_self rfl
      obtain ⟨hStart, hStop⟩ := h.boundaries _ List.mem_cons_self
      obtain ⟨gap, behind, rfl, rfl⟩ := hStart.cut hGap.1
      rw [← List.append_assoc] at hStop
      obtain ⟨spelling, rest, rfl, rfl⟩ := hStop.cut (Nat.le_of_lt hLess)
      have hSource : ahead ++ (gap ++ (spelling ++ rest)) = ahead ++ gap ++ spelling ++ rest := by
        simp
      have hSpelled := h.spelled _ List.mem_cons_self t rfl
      rw [hSource, slice_append, dropBytes_byteLength_append] at hSpelled
      obtain ⟨hNext, hChain⟩ := List.isChain_cons.1 h.gaps
      refine Or.inr ⟨t, gap, spelling, rest, by simp, ?_, hSpelled, rfl, ?_⟩
      · exact (isGapBetween_append (List.append_assoc ..).symm).1 hGap
      · exact ⟨⟨ts, rfl, hLater⟩, (List.forall_mem_cons.1 h.nonempty).2,
          (List.forall_mem_cons.1 h.boundaries).2, hNext, hChain,
          (List.forall_mem_cons.1 h.spelled).2⟩

namespace Token

/-- Scanned texts are segmented. -/
theorem Laid.segmentsFrom {line offset : Nat} {cs : List Char} {s : Scanned}
    (h : Laid line offset cs s) {source ahead : List Char} (hSource : source = ahead ++ cs)
    (hOffset : offset = byteLength ahead) : SegmentsFrom source offset s.segments := by
  induction h generalizing ahead with
  | @done line offset gap hGap =>
      have hIsGap := (isGap_of_splitGap hGap).1
      subst hOffset
      have hEnd := segmentsFrom_end hSource hIsGap
      rw [hSource, byteLength_append] at hEnd
      rwa [hSource]
  | @token line offset gap more c l s hGap hLexeme later ih =>
      have hAppend := lexeme_append hLexeme
      have hIsGap := (isGap_of_splitGap hGap).1
      rw [← hAppend] at hIsGap
      have hSpells := lexeme_spells hLexeme (splitGap_stop hGap)
      have hText : source = ahead ++ gap ++ l.spelling ++ l.rest := by
        rw [hSource, ← hAppend]
        simp
      subst hOffset
      have hLater := ih hText (by simp only [byteLength_append])
      simp only [← byteLength_append] at hLater ⊢
      exact hLater.token hText hIsGap hSpells

/-- A text that is segmented is scanned, whatever its line. -/
theorem exists_scanFrom_of_segmentsFrom {ahead cs : List Char} {ss : List Segment}
    (h : SegmentsFrom (ahead ++ cs) (byteLength ahead) ss) (line : Nat) :
    ∃ s, scanFrom line (byteLength ahead) cs = .ok s ∧ s.segments = ss := by
  induction ss generalizing ahead cs line with
  | nil =>
      obtain ⟨ts, hEnd, -⟩ := h.ends
      simp at hEnd
  | cons segment ss ih =>
      rcases h.cases with ⟨hGap, hEnd⟩ | ⟨t, gap, spelling, rest, rfl, hGap, hSpells, rfl, hLater⟩
      · have hSplit := hGap.splitGap_eq rfl
        rw [List.append_nil] at hSplit
        refine ⟨⟨[], line, byteLength (ahead ++ cs)⟩, ?_, hEnd.symm⟩
        rw [scanFrom_eq]
        simp only [hSplit, byteLength_append]
      · have hText : ahead ++ (gap ++ spelling ++ rest) = ahead ++ gap ++ spelling ++ rest := by
          simp
        rw [hText] at hLater
        obtain ⟨s, hScan, rfl⟩ := ih hLater (lineAfter line t)
        simp only [byteLength_append] at hScan
        rw [List.append_assoc, hSpells.scanFrom_eq hGap hScan]
        refine ⟨_, rfl, ?_⟩
        simp only [byteLength_append]
        rfl

end Token

/-- Scanning a text gives its one segmentation, if it has one. -/
theorem tokenize_segments_iff (text : String) (ss : List Segment) :
    (∃ s, tokenize text = .ok s ∧ s.segments = ss) ↔ IsSegmentation text.toList ss := by
  constructor
  · rintro ⟨s, hScan, rfl⟩
    exact (scanFrom_laid hScan).segmentsFrom (List.nil_append _).symm rfl
  · intro h
    have hFrom : SegmentsFrom ([] ++ text.toList) (byteLength []) ss := h
    exact exists_scanFrom_of_segmentsFrom hFrom 1

/-- A letter of two bytes, a hyphen in front of an arrow, a quote that ends nothing, a comment. -/
example : (tokenize "é-->\"\\\"\" # c").toOption.map Scanned.segments =
    some [⟨some (.ident "é"), 0, 2⟩, ⟨some (.symbol '-'), 2, 3⟩, ⟨some .arrow, 3, 5⟩,
      ⟨some (.text "\""), 5, 9⟩, ⟨none, 13, 13⟩] := by
  decide +kernel

end ErDiagram
