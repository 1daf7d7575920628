import ErDiagram.Proofs.Scanning.Segmentation

/-! The text of a type. No token of a type has a line feed, a quote, a hash or a closing brace in
it, and between two of them there are blanks only: a comment would run up to a line feed, which is
no token of a type. -/
namespace ErDiagram

open Text Token

/-! ### Characters -/

theorem Text.isAlphanumeric_of_isControl {c : Char} (h : isControl c) :
    isAlphanumeric c = false := by
  have hAll : ∀ n < 160, (n < 32 ∨ 127 ≤ n) → isAlphanumeric (Char.ofNat n) = false := by
    decide +kernel
  simp only [isControl, Bool.or_eq_true, Bool.and_eq_true, decide_eq_true_eq] at h
  rw [← Char.ofNat_toNat c]
  exact hAll _ (by omega) (by omega)

namespace Token

theorem fitsType_of_isBlank {c : Char} (hBlank : isBlank c) (hBreak : c ≠ '\n') : FitsType c := by
  refine ⟨hBreak, ?_, ?_, ?_, fun _ => hBlank⟩ <;>
    (rintro rfl; exact absurd hBlank (by decide))

theorem fitsType_of_isNameChar {c : Char} (hName : isNameChar c) : FitsType c := by
  refine ⟨?_, ?_, ?_, ?_, fun hControl => ?_⟩
  case refine_5 =>
    rw [isNameChar, isAlphanumeric_of_isControl hControl, Bool.false_or, beq_iff_eq] at hName
    rw [hName] at hControl
    exact absurd hControl (by decide)
  all_goals
    rintro rfl
    exact absurd hName (by decide)

/-- The spelling of a token of a type may stand in a type. -/
theorem Spells.fitsType {behind spelling : List Char} {t : Token} (h : Spells behind t spelling)
    (hType : Grammar.InType t) : ∀ c ∈ spelling, FitsType c := by
  cases h with
  | lineBreak => exact absurd rfl hType.1
  | name hName hEnds => exact fun c hc => fitsType_of_isNameChar (hName.2 c hc)
  | text hQuotes => exact absurd rfl (hType.2.2 _)
  | arrow => exact List.forall_mem_cons.2 ⟨by decide, List.forall_mem_singleton.2 (by decide)⟩
  | mark hMark =>
      simp only [punctuation, List.mem_cons, Prod.mk.injEq, List.not_mem_nil, or_false] at hMark
      rcases hMark with ⟨rfl, rfl⟩ | ⟨rfl, rfl⟩ | ⟨rfl, rfl⟩ | ⟨rfl, rfl⟩ | ⟨rfl, rfl⟩ |
        ⟨rfl, rfl⟩ | ⟨rfl, rfl⟩ | ⟨rfl, rfl⟩
      case inr.inl => exact absurd rfl hType.2.1
      all_goals exact List.forall_mem_singleton.2 (by decide)
  | @symbol c hSymbol hArrow =>
      rintro d hd
      obtain rfl := List.mem_singleton.1 hd
      refine ⟨?_, hSymbol.quote_ne, hSymbol.hash_ne, ?_, fun hControl => ?_⟩
      · rintro rfl
        exact absurd hSymbol.blank (by decide)
      · rintro rfl
        exact hSymbol.punctuation .closeBrace (by simp [punctuation])
      · rw [hSymbol.control] at hControl
        cases hControl

/-- There is no comment in a gap with something of its line behind it. -/
theorem IsGap.isBlank_of_mem {gap behind : List Char} (h : IsGap gap behind)
    (hBehind : ¬ EndsLine behind) : ∀ c ∈ gap, isBlank c := by
  induction h with
  | nil => simp
  | blank hBlank hBreak later ih => exact List.forall_mem_cons.2 ⟨hBlank, ih hBehind⟩
  | comment hBody hEnd later ih =>
      obtain rfl := later.eq_nil_of_endsLine hEnd
      exact absurd hEnd hBehind

end Token

/-! ### Runs of tokens -/

theorem SegmentsFrom.exists_spelling {source : List Char} {start : Nat} {ss : List Segment}
    (h : SegmentsFrom source start ss) {s : Segment} (hs : s ∈ ss) {t : Token}
    (ht : s.token = some t) :
    ∃ ahead spelling rest, source = ahead ++ spelling ++ rest ∧ s.start = byteLength ahead ∧
      s.stop = byteLength (ahead ++ spelling) ∧ spelling ≠ [] ∧ Spells rest t spelling := by
  have hLess := h.nonempty s hs (Option.isSome_iff_exists.2 ⟨t, ht⟩)
  have hSpelled := h.spelled s hs t ht
  obtain ⟨hStart, hStop⟩ := h.boundaries s hs
  obtain ⟨ahead, ⟨behind, rfl⟩, hAhead⟩ := hStart
  obtain ⟨spelling, rest, rfl, hEnd⟩ := hStop.cut (hAhead ▸ Nat.le_of_lt hLess)
  refine ⟨ahead, spelling, rest, (List.append_assoc ..).symm, hAhead.symm, hEnd, ?_, ?_⟩
  · rintro rfl
    rw [List.append_nil, hAhead] at hEnd
    omega
  · rwa [← hAhead, hEnd, ← List.append_assoc, slice_append, dropBytes_byteLength_append]
      at hSpelled

theorem SegmentsFrom.exists_typeText {source : List Char} {start : Nat} {ss : List Segment}
    (h : SegmentsFrom source start ss) {first : Segment} {others : List Segment}
    (hInfix : first :: others <:+: ss)
    (hType : ∀ s ∈ first :: others, ∃ t ∈ s.token, Grammar.InType t) :
    ∃ ahead text rest, source = ahead ++ text ++ rest ∧ first.start = byteLength ahead ∧
      ((first :: others).getLast (List.cons_ne_nil _ _)).stop = byteLength (ahead ++ text) ∧
      text ≠ [] ∧ ∀ c ∈ text, FitsType c := by
  induction others generalizing first with
  | nil =>
      obtain ⟨t, ht, hFits⟩ := hType first List.mem_cons_self
      obtain ⟨ahead, spelling, rest, hSource, hStart, hStop, hNe, hSpells⟩ :=
        h.exists_spelling (hInfix.subset List.mem_cons_self) ht
      exact ⟨ahead, spelling, rest, hSource, hStart, hStop, hNe, hSpells.fitsType hFits⟩
  | cons second others ih =>
      obtain ⟨ahead', text, rest, hSource', hStart', hStop', hNe, hFits'⟩ :=
        ih ((List.suffix_cons ..).isInfix.trans hInfix) fun s hs =>
          hType s (List.mem_cons_of_mem _ hs)
      obtain ⟨t, ht, hFits⟩ := hType first List.mem_cons_self
      obtain ⟨ahead, spelling, behind, hSource, hStart, hStop, hSpelling, hSpells⟩ :=
        h.exists_spelling (hInfix.subset List.mem_cons_self) ht
      have hChain := List.IsChain.infix h.gaps hInfix
      have hBetween := (List.isChain_cons_cons.1 hChain).1
      rw [hStop, hStart'] at hBetween
      obtain ⟨gap, rfl⟩ := isPrefix_of_byteLength_le (hSource ▸ List.prefix_append ..)
        (hSource' ▸ (List.append_assoc .. ▸ List.prefix_append ..)) hBetween.1
      have hGap := (isGapBetween_append (hSource'.trans (List.append_assoc ..))).1 hBetween
      have hEnds : ¬ EndsLine (text ++ rest) := by
        obtain ⟨c, more, rfl⟩ := List.exists_cons_of_ne_nil hNe
        exact fun hEnd => (hFits' c List.mem_cons_self).break_ne (hEnd c rfl)
      refine ⟨ahead, spelling ++ gap ++ text, rest, by simp [hSource'], hStart, ?_, by simp [hNe],
        ?_⟩
      · rw [List.getLast_cons (List.cons_ne_nil _ _), hStop']
        simp
      · simp only [List.mem_append]
        rintro c ((hc | hc) | hc)
        · exact hSpells.fitsType hFits c hc
        · exact fitsType_of_isBlank (hGap.isBlank_of_mem hEnds c hc)
            fun hBreak => hGap.not_mem (hBreak ▸ hc)
        · exact hFits' c hc

/-- The source from the first token of a type to the last one is the text of a type. -/
theorem Grammar.TypeRun.isTypeText {text : String} {s : Scanned} (hScan : tokenize text = .ok s)
    {r : TypeRun} (hTokens : r.tokens <:+: s.tokens) :
    IsTypeText (slice r.first.start r.last.stop text.toList) := by
  have hSegments := (scanFrom_laid hScan).segmentsFrom (List.nil_append _).symm rfl
  have hInfix : r.first.segment :: r.others.map Located.segment <:+: s.segments :=
    (hTokens.map Located.segment).trans (List.prefix_append ..).isInfix
  obtain ⟨ahead, type, rest, hSource, hStart, hStop, hNe, hFits⟩ :=
    hSegments.exists_typeText hInfix fun u hu => by
      rw [← List.map_cons] at hu
      obtain ⟨t, ht, rfl⟩ := List.mem_map.1 hu
      exact ⟨t.token, rfl, r.inType t ht⟩
  have hLast : r.last.stop = byteLength (ahead ++ type) := by
    rw [← hStop]
    simp only [← List.map_cons, List.getLast_map]
    rfl
  have hTrimmed : IsTrimmed (slice r.first.start r.last.stop text.toList) := by
    obtain ⟨before, behind, hRun⟩ := hTokens
    exact isTrimmed_slice hScan hRun.symm fun t ht => (r.inType t ht).1
  have hText : slice r.first.start r.last.stop text.toList = type := by
    rw [hLast, show r.first.start = byteLength ahead from hStart, hSource, slice_append]
  exact ⟨hText ▸ hNe, hTrimmed, hText ▸ hFits⟩

end ErDiagram
