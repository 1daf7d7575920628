import ErDiagram.Proofs.Scanning
import Mathlib.Algebra.BigOperators.Group.List.Basic
import Mathlib.Algebra.GroupWithZero.Nat

/-! Lines. The scanner counts the line breaks that are tokens, and by those within other tokens its
count falls behind. -/
namespace ErDiagram

open Text

theorem Text.byteLength_eq_zero_iff {cs : List Char} : byteLength cs = 0 ↔ cs = [] := by
  cases cs with
  | nil => simp
  | cons c cs =>
      have hPos := c.utf8Size_pos
      simp only [byteLength_cons, List.cons_ne_nil, iff_false]
      omega

/-- The number of the line on which an offset lies. -/
def lineNumberAt (offset : Nat) (source : List Char) : Nat :=
  1 + (takeBytes offset source).count '\n'

/-- The text of that line. -/
def lineTextAt (offset : Nat) (source : List Char) : List Char :=
  (takeBytes offset source).rtakeWhile (· ≠ '\n') ++
    (dropBytes offset source).takeWhile (· ≠ '\n')

theorem lineNumberAt_append (ahead behind : List Char) :
    lineNumberAt (byteLength ahead) (ahead ++ behind) = 1 + ahead.count '\n' := by
  rw [lineNumberAt, takeBytes_byteLength_append]

/-- The text of a line is found by its number. -/
theorem trimmedLine_lineNumberAt (ahead behind : List Char) :
    trimmedLine (lineNumberAt (byteLength ahead) (ahead ++ behind)) (ahead ++ behind) =
      trimChars (lineTextAt (byteLength ahead) (ahead ++ behind)) := by
  rw [lineNumberAt_append, lineTextAt, takeBytes_byteLength_append, dropBytes_byteLength_append,
    trimmedLine, Nat.add_sub_cancel_left, splitOn_count, Option.getD_some]

/-- The line breaks within a token that is none itself. -/
def Located.hiddenBreaks (source : List Char) (t : Located) : Nat :=
  if t.token = .lineBreak then 0 else (slice t.start t.stop source).count '\n'

/-- The lines and offsets at which the tokens start, and those of the end. -/
def Scanned.starts (s : Scanned) : List (Nat × Nat) :=
  s.tokens.map (fun t => (t.line, t.start)) ++ [(s.endLine, s.endOffset)]

namespace Token

/-! ### Line breaks in gaps and lexemes -/

theorem splitGap_not_mem (inComment : Bool) (cs : List Char) :
    '\n' ∉ (splitGap inComment cs).1 := by
  fun_induction splitGap inComment cs with
  | case1 => simp
  | case2 => simp
  | case3 inComment c cs hBreak hSkip gap rest hRest ih =>
      rw [hRest] at ih
      simpa [Ne.symm hBreak] using ih
  | case4 inComment cs gap rest hRest hBreak hSkip ih =>
      rw [hRest] at ih
      simpa using ih
  | case5 => simp

theorem lexeme_lineBreak {c : Char} {cs : List Char} {l : Lexeme} (h : lexeme c cs = .ok l)
    (hToken : l.token = lineBreak) : l.spelling = ['\n'] := by
  unfold lexeme at h
  split at h <;> try (cases h; cases hToken)
  · rfl
  · split at h <;> (cases h; try cases hToken)
  · split at h <;> (cases h; cases hToken)
  · split at h
    · cases h
      cases hToken
    · split at h <;> (cases h; try cases hToken)

theorem count_splitGap {cs gap rest : List Char} (h : splitGap false cs = (gap, rest)) :
    gap.count '\n' = 0 := by
  have hNot := splitGap_not_mem false cs
  rw [h] at hNot
  exact List.count_eq_zero.2 hNot

/-! ### Lines of scanned texts -/

theorem slice_of_append {source front inner behind : List Char}
    (h : source = front ++ inner ++ behind) :
    slice (byteLength front) (byteLength front + byteLength inner) source = inner := by
  rw [h, ← byteLength_append, slice_append]

/-- The count of a token and the line breaks within it make up the line breaks of its spelling. -/
theorem lineAfter_add_hiddenBreaks {source more : List Char} {c : Char} {l : Lexeme}
    (front : List Char) (h : lexeme c more = .ok l) (hSource : source = front ++ c :: more)
    (line : Nat) (t : Located)
    (ht : t = ⟨l.token, line, byteLength front, byteLength front + byteLength l.spelling⟩) :
    lineAfter line l.token + t.hiddenBreaks source = line + l.spelling.count '\n' := by
  rw [← lexeme_append h, ← List.append_assoc] at hSource
  subst ht
  unfold Located.hiddenBreaks lineAfter
  split
  · rename_i hBreak
    rw [lexeme_lineBreak h hBreak]
    rfl
  · rw [slice_of_append hSource]

theorem Laid.line_add {line offset : Nat} {cs : List Char} {s : Scanned}
    (h : Laid line offset cs s) {source ahead : List Char} (hSource : source = ahead ++ cs)
    (hOffset : offset = byteLength ahead) {n l start : Nat} (hn : s.starts[n]? = some (l, start)) :
    ∃ front, front <+: cs ∧ start = byteLength (ahead ++ front) ∧
      l + ((s.tokens.take n).map (Located.hiddenBreaks source)).sum = line + front.count '\n' := by
  induction h generalizing ahead n with
  | @done line offset gap hGap =>
      cases n with
      | succ n => cases hn
      | zero =>
          cases hn
          exact ⟨gap, List.prefix_rfl, by simp [hOffset], by simp [count_splitGap hGap]⟩
  | @token line offset gap more c lex s hGap hLexeme later ih =>
      have hText := lexeme_append hLexeme
      have hNone := count_splitGap hGap
      cases n with
      | zero =>
          cases hn
          exact ⟨gap, List.prefix_append .., by simp [hOffset], by simp [hNone]⟩
      | succ n =>
          obtain ⟨front, hFront, hStart, hLine⟩ := @ih (ahead ++ gap ++ lex.spelling)
            (by simp [hSource, hText]) (by simp [hOffset, Nat.add_assoc]) n hn
          have hToken := lineAfter_add_hiddenBreaks (ahead ++ gap) hLexeme
            (show source = ahead ++ gap ++ c :: more by simp [hSource]) line _ rfl
          refine ⟨gap ++ lex.spelling ++ front, ?_, by simp [hStart], ?_⟩
          · rw [List.append_assoc, List.prefix_append_right_inj, ← hText,
              List.prefix_append_right_inj]
            exact hFront
          · simp only [prepend, List.singleton_append, List.take_succ_cons, List.map_cons,
              List.sum_cons, List.count_append, hNone, hOffset] at hToken ⊢
            rw [byteLength_append] at hToken
            omega

end Token

/-- What the scanner really counts: the line of a token, or of the end, falls behind by the line
breaks within the tokens before. -/
theorem line_add_hiddenBreaks {text : String} {s : Scanned} (h : tokenize text = .ok s)
    {n l start : Nat} (hn : s.starts[n]? = some (l, start)) :
    l + ((s.tokens.take n).map (Located.hiddenBreaks text.toList)).sum =
      lineNumberAt start text.toList := by
  obtain ⟨front, ⟨behind, hSource⟩, hFront, hLine⟩ :=
    (Token.scanFrom_laid h).line_add (show text.toList = [] ++ text.toList from rfl) rfl hn
  rw [hLine, hFront, ← hSource, List.nil_append, lineNumberAt_append]

end ErDiagram
