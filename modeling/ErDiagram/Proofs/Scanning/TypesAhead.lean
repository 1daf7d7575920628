import ErDiagram.Proofs.Grammar.Reading
import ErDiagram.Proofs.Scanning.TypeTexts

/-! The type at the beginning of a text. It is found by going through the characters up to the first
that ends a type. The slice from the first token of a type to the last one is the same text, but for
the blanks around it. -/
namespace ErDiagram

open Text Token

/-- The characters in front of which a type ends: a line feed, the closing brace of its table, and
what begins a caption or a comment. -/
def Text.endsType (c : Char) : Bool := c == '\n' || c == '}' || c == '"' || c == '#'

/-- All that stands in front of the first character that ends a type. -/
def Text.upToTypeEnd (cs : List Char) : List Char := cs.takeWhile (!endsType ·)

/-- The type at the beginning of a text, read character by character. -/
def Text.typeAhead (cs : List Char) : List Char := trimChars (upToTypeEnd cs)

theorem Text.upToTypeEnd_append {cs : List Char} (h : ∀ c ∈ cs, endsType c = false)
    (rest : List Char) : upToTypeEnd (cs ++ rest) = cs ++ upToTypeEnd rest :=
  List.takeWhile_append_of_pos fun c hc => by rw [h c hc]; rfl

theorem Text.upToTypeEnd_cons {c : Char} (h : endsType c) (cs : List Char) :
    upToTypeEnd (c :: cs) = [] :=
  List.takeWhile_cons_of_neg (by simp [h])

namespace Token

theorem FitsType.endsType_eq {c : Char} (h : FitsType c) : endsType c = false := by
  simp [endsType, h.break_ne, h.brace_ne, h.quote_ne, h.hash_ne]

/-- A token outside of types begins with a character that ends a type. -/
theorem Spells.exists_endsType {behind spelling : List Char} {t : Token}
    (h : Spells behind t spelling) (hType : ¬ Grammar.InType t) :
    ∃ c more, spelling = c :: more ∧ endsType c := by
  cases h with
  | lineBreak => exact ⟨_, _, rfl, rfl⟩
  | text => exact ⟨_, _, rfl, rfl⟩
  | name | arrow | symbol => exact absurd (by simp [Grammar.InType]) hType
  | mark hMark =>
      simp only [punctuation, List.mem_cons, Prod.mk.injEq, List.not_mem_nil, or_false] at hMark
      rcases hMark with ⟨rfl, rfl⟩ | ⟨rfl, rfl⟩ | ⟨rfl, rfl⟩ | ⟨rfl, rfl⟩ | ⟨rfl, rfl⟩ |
        ⟨rfl, rfl⟩ | ⟨rfl, rfl⟩ | ⟨rfl, rfl⟩
      case inr.inl => exact ⟨_, _, rfl, rfl⟩
      all_goals exact absurd (by simp [Grammar.InType]) hType

/-- In a gap a type is ended by a comment if by anything. -/
theorem IsGap.isBlank_upToTypeEnd {gap behind : List Char} (h : IsGap gap behind)
    (hBehind : ∀ c ∈ upToTypeEnd behind, isBlank c) :
    ∀ c ∈ upToTypeEnd (gap ++ behind), isBlank c := by
  induction h with
  | nil => exact hBehind
  | @blank c gap behind hBlank hBreak later ih =>
      have hFits : ∀ d ∈ [c], endsType d = false :=
        List.forall_mem_singleton.2 (fitsType_of_isBlank hBlank hBreak).endsType_eq
      rw [← List.singleton_append, List.append_assoc, upToTypeEnd_append hFits]
      exact List.forall_mem_append.2 ⟨List.forall_mem_singleton.2 hBlank, ih hBehind⟩
  | comment =>
      rw [List.cons_append, upToTypeEnd_cons rfl]
      simp

/-! ### Types at the beginning of a text -/

/-- The tokens of a type at the beginning of a text that goes on behind `ahead`. They take all that
stands in front of the first character that ends a type, but for the blanks around it. -/
inductive SpansType (ahead cs : List Char) : List Located → Prop where
  | nil (hBlank : ∀ c ∈ upToTypeEnd cs, isBlank c) : SpansType ahead cs []
  | run {gap text rest : List Char} {first : Located} {others : List Located}
      (hText : cs = gap ++ text ++ rest) (hGap : ∀ c ∈ gap, isBlank c ∧ endsType c = false)
      (hInside : ∀ c ∈ text, endsType c = false) (hRest : ∀ c ∈ upToTypeEnd rest, isBlank c)
      (hStart : first.start = byteLength (ahead ++ gap))
      (hStop : ((first :: others).getLast (List.cons_ne_nil _ _)).stop =
        byteLength (ahead ++ gap ++ text)) : SpansType ahead cs (first :: others)

/-- A token of a type in front of the text behind it. -/
theorem SpansType.cons {ahead gap spelling rest : List Char} {t : Located} {ts : List Located}
    (h : SpansType (ahead ++ gap ++ spelling) rest ts)
    (hGap : ∀ c ∈ gap, isBlank c ∧ endsType c = false)
    (hSpelling : ∀ c ∈ spelling, endsType c = false)
    (hStart : t.start = byteLength (ahead ++ gap))
    (hStop : t.stop = byteLength (ahead ++ gap ++ spelling)) :
    SpansType ahead (gap ++ spelling ++ rest) (t :: ts) := by
  cases h with
  | nil hBlank => exact .run rfl hGap hSpelling hBlank hStart hStop
  | @run between text behind first others hText hBetween hInside hRest hFirst hLast =>
      have hWhole : gap ++ spelling ++ rest = gap ++ (spelling ++ between ++ text) ++ behind := by
        rw [hText]
        simp
      refine .run hWhole hGap ?_ hRest hStart ?_
      · refine List.forall_mem_append.2 ⟨List.forall_mem_append.2 ⟨hSpelling, ?_⟩, hInside⟩
        exact fun c hc => (hBetween c hc).2
      · rw [List.getLast_cons (List.cons_ne_nil _ _), hLast]
        simp only [List.append_assoc]

theorem Laid.spansType {line offset : Nat} {cs : List Char} {s : Scanned}
    (h : Laid line offset cs s) {ahead : List Char} (hOffset : offset = byteLength ahead) :
    SpansType ahead cs (s.tokens.takeWhile Parse.isTypeToken) := by
  induction h generalizing ahead with
  | @done line offset gap hGap =>
      have hIsGap := (isGap_of_splitGap hGap).1
      have hBlank := hIsGap.isBlank_upToTypeEnd (by simp [upToTypeEnd])
      rw [List.append_nil] at hBlank
      exact .nil hBlank
  | @token line offset gap more c l s hGap hLexeme later ih =>
      have hIsGap := (isGap_of_splitGap hGap).1
      have hSpells := lexeme_spells hLexeme (splitGap_stop hGap)
      rw [← lexeme_append hLexeme] at hIsGap ⊢
      by_cases hType : Grammar.InType l.token
      · have hFits := hSpells.fitsType hType
        have hEnds : ¬ EndsLine (l.spelling ++ l.rest) := by
          obtain ⟨d, ds, hSpelling⟩ := List.exists_cons_of_ne_nil (lexeme_spelling_ne_nil hLexeme)
          rw [hSpelling] at hFits ⊢
          exact fun hEnd => (hFits d List.mem_cons_self).break_ne (hEnd d rfl)
        have hBlank := hIsGap.isBlank_of_mem hEnds
        simp only [prepend, List.singleton_append]
        rw [List.takeWhile_cons_of_pos (Grammar.isTypeToken_iff.2 hType), ← List.append_assoc]
        subst hOffset
        have hLater : SpansType (ahead ++ gap ++ l.spelling) l.rest _ :=
          ih (by simp only [byteLength_append])
        refine hLater.cons (fun d hd => ⟨hBlank d hd, ?_⟩)
          (fun d hd => (hFits d hd).endsType_eq) ?_ ?_
        · exact (fitsType_of_isBlank (hBlank d hd)
            fun hBreak => hIsGap.not_mem (hBreak ▸ hd)).endsType_eq
        · simp only [byteLength_append]
        · simp only [byteLength_append]
      · obtain ⟨d, ds, hSpelling, hEnds⟩ := hSpells.exists_endsType hType
        simp only [prepend, List.singleton_append]
        rw [List.takeWhile_cons_of_neg fun h => hType (Grammar.isTypeToken_iff.1 h)]
        refine .nil (hIsGap.isBlank_upToTypeEnd ?_)
        rw [hSpelling, List.cons_append, upToTypeEnd_cons hEnds]
        simp

/-- The slice between the ends of these tokens is the type at the beginning of the text, but for
blanks. -/
theorem SpansType.slice_eq {ahead cs : List Char} {first : Located} {others : List Located}
    (h : SpansType ahead cs (first :: others)) :
    trimChars (slice first.start ((first :: others).getLast (List.cons_ne_nil _ _)).stop
      (ahead ++ cs)) = typeAhead cs := by
  cases h with
  | @run gap text rest _ _ hText hGap hInside hRest hStart hStop =>
      have hSource : ahead ++ cs = (ahead ++ gap) ++ text ++ rest := by simp [hText]
      rw [hStart, hStop, hSource, slice_append, typeAhead, hText, List.append_assoc,
        upToTypeEnd_append fun c hc => (hGap c hc).2, upToTypeEnd_append hInside,
        trimChars_append_left fun c hc => (hGap c hc).1, trimChars_append_right text hRest]

theorem SpansType.boundaries {ahead cs : List Char} {first : Located} {others : List Located}
    (h : SpansType ahead cs (first :: others)) :
    first.start ≤ ((first :: others).getLast (List.cons_ne_nil _ _)).stop ∧
      IsBoundary (ahead ++ cs) first.start ∧
      IsBoundary (ahead ++ cs) ((first :: others).getLast (List.cons_ne_nil _ _)).stop := by
  cases h with
  | @run gap text rest _ _ hText hGap hInside hRest hStart hStop =>
      refine ⟨?_, ⟨ahead ++ gap, ⟨text ++ rest, ?_⟩, hStart.symm⟩,
        ⟨ahead ++ gap ++ text, ⟨rest, ?_⟩, hStop.symm⟩⟩
      · rw [hStart, hStop, byteLength_append _ text]
        exact Nat.le_add_right _ _
      · simp [hText]
      · simp [hText]

/-- What is scanned behind one of the tokens. -/
theorem Laid.behind {line offset : Nat} {cs : List Char} {s : Scanned}
    (h : Laid line offset cs s) {before ts : List Located} {t : Located}
    (hTokens : s.tokens = before ++ t :: ts) :
    ∃ ahead spelling behind next later, cs = ahead ++ spelling ++ behind ∧
      Spells behind t.token spelling ∧ t.start = offset + byteLength ahead ∧
      t.stop = offset + byteLength (ahead ++ spelling) ∧ Laid next t.stop behind later ∧
      later.tokens = ts := by
  induction h generalizing before with
  | done => simp at hTokens
  | @token line offset gap more c l s hGap hLexeme later ih =>
      cases before with
      | nil =>
          obtain ⟨rfl, rfl⟩ := List.cons.inj hTokens
          refine ⟨gap, l.spelling, l.rest, _, s, ?_, lexeme_spells hLexeme (splitGap_stop hGap),
            rfl, ?_, later, rfl⟩
          · rw [← lexeme_append hLexeme, List.append_assoc]
          · simp only [byteLength_append, Nat.add_assoc]
      | cons b before =>
          obtain ⟨-, hLater⟩ := List.cons.inj hTokens
          obtain ⟨ahead, spelling, behind, next, last, hRest, hSpells, hStart, hStop, hLast,
            hEnd⟩ := ih hLater
          refine ⟨gap ++ l.spelling ++ ahead, spelling, behind, next, last, ?_, hSpells, ?_, ?_,
            hLast, hEnd⟩
          · rw [← lexeme_append hLexeme, hRest]
            simp
          · rw [hStart]
            simp only [byteLength_append, Nat.add_assoc]
          · rw [hStop]
            simp only [byteLength_append, Nat.add_assoc]

theorem Spells.colon_eq {behind spelling : List Char} (h : Spells behind .colon spelling) :
    spelling = [':'] := by
  cases h with
  | mark hMark =>
      simp only [punctuation, List.mem_cons, Prod.mk.injEq, List.not_mem_nil, or_false,
        reduceCtorEq, and_false, false_or, and_true] at hMark
      rw [hMark]

end Token

end ErDiagram
