import ErDiagram.Proofs.AcceptedNames
import ErDiagram.Proofs.Scanning.TypesAhead

/-! The types of an accepted source. The reader takes a type as one slice, from the start of its
first token to the end of its last one. The same text is found by going through the characters
behind the colon. -/
namespace ErDiagram

open Text Token

namespace Grammar

/-- An attribute ends with its line or at the closing brace. -/
theorem BlockTree.exists_atEnd {a : AttrTree} {b : BlockTree} (h : a ∈ b.attrs) :
    ∃ before u after, b.tokens = before ++ (a.tokens ++ u :: after) ∧ AtEnd (u :: after) := by
  induction b with
  | close => cases h
  | last c p =>
      obtain rfl := List.mem_singleton.1 h
      exact ⟨[], p.mark .closeBrace, [], rfl, atEnd_cons.2 (Or.inr rfl)⟩
  | line c p ps later ih =>
      rcases List.mem_cons.1 h with rfl | hLater
      · refine ⟨[], p.mark .lineBreak, breakTokens ps ++ later.tokens, ?_,
          atEnd_cons.2 (Or.inl rfl)⟩
        rw [BlockTree.tokens, List.append_assoc]
        rfl
      · obtain ⟨before, u, after, hTokens, hEnd⟩ := ih hLater
        refine ⟨c.tokens ++ breakTokens (p :: ps) ++ before, u, after, ?_, hEnd⟩
        rw [BlockTree.tokens, hTokens, ← List.append_assoc]

/-- The tokens of a typed attribute from its colon on. -/
theorem Derivation.exists_colon {d : Derivation} {entry : TableTree × List Place}
    (hEntry : entry ∈ d.tables) {a : AttrTree} (ha : a ∈ entry.1.block.attrs) {marks : Marks}
    {colon : Place} {type : TypeRun} (hTarget : a.target = .typed marks colon type) :
    ∃ before after, d.tokens = before ++ colon.mark .colon :: (type.tokens ++ after) ∧
      ∀ t ∈ after.head?, ¬ InType t.token := by
  obtain ⟨ahead, behind, hTable⟩ := entry.1.block_isInfix.trans (Derivation.table_infix hEntry)
  obtain ⟨before, u, after, hBlock, hEnd⟩ := BlockTree.exists_atEnd ha
  refine ⟨ahead ++ before ++ a.name.token :: marks.tokens,
    captionTokens a.caption ++ u :: (after ++ behind), ?_, not_inType_next ?_⟩
  · rw [← hTable, hBlock, AttrTree.tokens, hTarget, TargetTree.tokens]
    simp
  · exact atEnd_cons.2 (atEnd_cons.1 hEnd)

/-- The type behind a colon of the source, as the reader takes it: the whole slice is in the source,
between two characters, and all that stands in the rest of the line is kept but for the blanks
around it. -/
structure TypeRun.IsVerbatim (text : String) (s : Scanned) (colon : Place) (r : TypeRun)
    (behind : List Char) : Prop where
  read : ∃ before after, s.tokens = before ++ colon.mark .colon :: (r.tokens ++ after) ∧
    Parse.typeText text.toList s.endLine (r.tokens ++ after) =
      .ok (String.ofList (typeAhead behind), after)
  slice_eq : trimChars (slice r.first.start r.last.stop text.toList) = typeAhead behind
  start_le_stop : r.first.start ≤ r.last.stop
  start_isBoundary : IsBoundary text.toList r.first.start
  stop_isBoundary : IsBoundary text.toList r.last.stop

theorem TypeRun.isVerbatim {text : String} {s : Scanned} (hScan : tokenize text = .ok s)
    {before after : List Located} {colon : Place} {r : TypeRun}
    (hTokens : s.tokens = before ++ colon.mark .colon :: (r.tokens ++ after))
    (hAfter : ∀ t ∈ after.head?, ¬ InType t.token) :
    ∃ ahead behind, text.toList = ahead ++ ':' :: behind ∧ colon.start = byteLength ahead ∧
      r.IsVerbatim text s colon behind := by
  obtain ⟨ahead, spelling, behind, next, later, hText, hSpells, hStart, hStop, hLaid, hLater⟩ :=
    (scanFrom_laid hScan).behind hTokens
  obtain rfl := hSpells.colon_eq
  rw [Nat.zero_add] at hStart hStop
  have hSpans := hLaid.spansType hStop
  rw [hLater, (r.span_tokens hAfter).1, TypeRun.tokens] at hSpans
  have hSlice := hSpans.slice_eq
  obtain ⟨hOrder, hFirst, hLast⟩ := hSpans.boundaries
  rw [← hText] at hSlice hFirst hLast
  refine ⟨ahead, behind, by rw [hText, List.append_assoc]; rfl, hStart,
    ⟨before, after, hTokens, ?_⟩, hSlice, hOrder, hFirst, hLast⟩
  rw [typeText_complete r hAfter, ← hSlice, TypeRun.trimmedText, Text.trim, TypeRun.text,
    String.toList_ofList]
  rfl

end Grammar

/-- What an accepted source says of the types in it: each is the text of its line between the colon
and the first line feed, closing brace, quote or hash, without the blanks around it. The reader
takes it as one slice, between two characters and in the right order. -/
theorem parse_types_verbatim (text : String) (ds : List Table) (h : parse text = .ok ds) :
    ∃ (s : Scanned) (d : Grammar.Derivation),
      tokenize text = .ok s ∧ d.tokens = s.tokens ∧ d.spelled text.toList = ds ∧
      ∀ entry ∈ d.tables, ∀ a ∈ entry.1.block.attrs, ∀ marks colon type,
        a.target = .typed marks colon type →
          ∃ ahead behind, text.toList = ahead ++ ':' :: behind ∧ colon.start = byteLength ahead ∧
            (a.spelled text.toList).target = .typed (String.ofList (typeAhead behind)) ∧
            type.IsVerbatim text s colon behind := by
  obtain ⟨s, hScan⟩ := exists_tokenize_of_parse h
  obtain ⟨d, hTokens, -, rfl⟩ := Grammar.derivation_of_parse hScan h
  refine ⟨s, d, hScan, hTokens, rfl, fun entry hEntry a ha marks colon type hTarget => ?_⟩
  obtain ⟨before, after, hColon, hAfter⟩ := Grammar.Derivation.exists_colon hEntry ha hTarget
  rw [hTokens] at hColon
  obtain ⟨ahead, behind, hText, hStart, hVerbatim⟩ :=
    Grammar.TypeRun.isVerbatim hScan hColon hAfter
  refine ⟨ahead, behind, hText, hStart, ?_, hVerbatim⟩
  have hRead := Grammar.AttrTree.read_eq_spelled hScan
    (hTokens ▸ Grammar.Derivation.attr_infix hEntry ha)
  rw [← hRead, Grammar.AttrTree.read, hTarget, Grammar.TargetTree.read, Grammar.TypeRun.trimmedText,
    Text.trim, Grammar.TypeRun.text, String.toList_ofList, hVerbatim.slice_eq]

/-- Types with letters of two and three bytes, in front of a comment and of a caption. -/
theorem types_of_wide_letters_verbatim :
    let text := "table A \x7b\n ü: größe -> 数:[x]\t# c\n y(PK): 数, u \"k=v\" \x7d"
    let ds : List Table := [⟨"A", [⟨"ü", false, [], [], .typed "größe -> 数:[x]"⟩,
      ⟨"y", false, ["PK"], [⟨"k", "v"⟩], .typed "数, u"⟩]⟩]
    parse text = .ok ds ∧ ∃ (s : Scanned) (d : Grammar.Derivation),
      tokenize text = .ok s ∧ d.tokens = s.tokens ∧ d.spelled text.toList = ds ∧
      ∀ entry ∈ d.tables, ∀ a ∈ entry.1.block.attrs, ∀ marks colon type,
        a.target = .typed marks colon type →
          ∃ ahead behind, text.toList = ahead ++ ':' :: behind ∧ colon.start = byteLength ahead ∧
            (a.spelled text.toList).target = .typed (String.ofList (typeAhead behind)) ∧
            type.IsVerbatim text s colon behind := by
  intro text ds
  have hParse : parse text = .ok ds := by decide +kernel
  exact ⟨hParse, parse_types_verbatim text ds hParse⟩

end ErDiagram
