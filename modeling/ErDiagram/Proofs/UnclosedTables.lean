import ErDiagram.Proofs.Grammar.Violations
import ErDiagram.Proofs.Scanning.Continuation

/-! Tables that are never closed. A source in which only the last closing brace is missing is mended
by a brace on a line of its own, and that line mends no other source. -/
namespace ErDiagram.Grammar

/-- A list that ends with `ws`, cut in front of a part that is no shorter. -/
theorem append_eq_append_of_length_le {α : Type} {ws xs ys zs : List α} (h : ys ++ zs = xs ++ ws)
    (hLength : ws.length ≤ zs.length) : ∃ us, zs = us ++ ws ∧ xs = ys ++ us := by
  rcases List.append_eq_append_iff.1 h with ⟨us, hxs, hzs⟩ | ⟨us, hys, hws⟩
  · exact ⟨us, hzs, hxs⟩
  · obtain rfl : us = [] := by
      rw [hws, List.length_append] at hLength
      exact List.eq_nil_of_length_eq_zero (by omega)
    exact ⟨[], hws.symm, by rw [hys, List.append_nil, List.append_nil]⟩

/-! ### Closing a table -/

section Closing

variable (p q : Place)

/-- The end of a line and a closing brace on the next one. -/
def closingTokens : List Located := [p.mark .lineBreak, q.mark .closeBrace]

theorem exists_closed_block (lines : List Line) (last : Option AttrTree) (breaks : List Place) :
    ∃ (before : List Place) (b : BlockTree),
      breakTokens breaks ++ (lineTokens lines ++
        (last.toList.flatMap AttrTree.tokens ++ closingTokens p q)) =
          breakTokens before ++ b.tokens ∧ b.attrs = lines.map Line.attr ++ last.toList := by
  induction lines generalizing breaks with
  | nil =>
      cases last with
      | none =>
          refine ⟨breaks ++ [p], .close q, ?_, rfl⟩
          simp [breakTokens, lineTokens, BlockTree.tokens, closingTokens]
      | some a =>
          refine ⟨breaks, .line a p [] (.close q), ?_, rfl⟩
          simp [breakTokens, lineTokens, BlockTree.tokens, closingTokens]
  | cons l lines ih =>
      obtain ⟨before, b, hTokens, hAttrs⟩ := ih (l.lineBreak :: l.more)
      rw [← b.tokens.append_nil] at hTokens
      obtain ⟨c, hCons, hNames⟩ := BlockTree.exists_cons l.attr hTokens (Or.inl rfl)
      refine ⟨breaks, c, ?_, by rw [hNames, hAttrs]; rfl⟩
      rw [List.append_nil] at hCons
      rw [lineTokens_cons, ← hCons]
      simp [breakTokens]

theorem OpenTable.names_of_attrs {t : OpenTable} {last : Option AttrTree} {b : BlockTree}
    (h : b.attrs = t.lines.map Line.attr ++ last.toList) :
    b.names = lineNames t.lines ++ last.toList.map (·.name.name) := by
  rw [BlockTree.names, h, List.map_append, List.map_map]
  rfl

theorem exists_closed_table {t : OpenTable} (hAdmissible : t.IsAdmissible)
    {last : Option AttrTree} (hLegible : ∀ a ∈ last, a.IsLegible)
    (hNew : ∀ a ∈ last, a.name.name ∉ lineNames t.lines) :
    ∃ tree : TableTree, tree.IsAdmissible ∧ tree.name = t.name ∧ tree.keyword = t.keyword ∧
      t.tokens ++ (last.toList.flatMap AttrTree.tokens ++ closingTokens p q) = tree.tokens := by
  obtain ⟨before, b, hTokens, hAttrs⟩ := exists_closed_block p q t.lines last t.breaks
  refine ⟨⟨t.keyword, t.name, t.opening, before, b⟩, ⟨?_, ?_⟩, rfl, rfl, ?_⟩
  · rw [show BlockTree.names _ = _ from OpenTable.names_of_attrs hAttrs, List.nodup_append]
    cases last with
    | none => exact ⟨hAdmissible.nodup, List.nodup_nil, fun _ _ _ h => by cases h⟩
    | some a =>
        refine ⟨hAdmissible.nodup, List.pairwise_singleton _ _, ?_⟩
        intro name hName other hOther hSame
        rw [hSame, List.mem_singleton.1 hOther] at hName
        exact hNew a rfl hName
  · intro a ha
    rw [hAttrs, List.mem_append, List.mem_map, Option.mem_toList] at ha
    rcases ha with ⟨l, hl, rfl⟩ | hLast
    · exact hAdmissible.legible l hl
    · exact hLegible a hLast
  · rw [OpenTable.tokens_append, hTokens]
    rfl

end Closing

/-! ### Opening a closed table -/

theorem BlockTree.tokens_ne_nil (b : BlockTree) : b.tokens ≠ [] := by
  cases b <;> simp [BlockTree.tokens, AttrTree.tokens]

theorem notNext_lineBreak_lines (lines : List Line) (last : Option AttrTree) :
    NotNext .lineBreak (lineTokens lines ++ last.toList.flatMap AttrTree.tokens) := by
  apply notNext_lineBreak_lineTokens
  cases last <;> simp [AttrTree.tokens, NotNext]

/-- A block that ends with a line break and its brace has only whole lines or one attribute more in
front of them. -/
theorem exists_lines_of_closed {p q : Place} {b : BlockTree} {breaks : List Place}
    {xs : List Located} (h : breakTokens breaks ++ b.tokens = xs ++ closingTokens p q) :
    ∃ (before : List Place) (lines : List Line) (last : Option AttrTree),
      xs = breakTokens before ++ (lineTokens lines ++ last.toList.flatMap AttrTree.tokens) ∧
        b.attrs = lines.map Line.attr ++ last.toList := by
  induction b generalizing breaks xs with
  | close closing =>
      obtain ⟨hBreaks, -⟩ := List.append_inj' (h.trans (List.append_cons ..)) rfl
      obtain ⟨before, -, -, rfl, -⟩ := List.map_eq_append_iff.1 hBreaks
      exact ⟨before, [], none, by simp [breakTokens, lineTokens], rfl⟩
  | last a closing =>
      rw [BlockTree.tokens, ← List.append_assoc] at h
      obtain ⟨hTokens, -⟩ := List.append_inj' (h.trans (List.append_cons ..)) rfl
      obtain ⟨us, ha, -⟩ := append_eq_append_of_length_le hTokens (by simp [AttrTree.tokens])
      have hMem : p.mark .lineBreak ∈ a.tokens := ha ▸ List.mem_append_right us List.mem_cons_self
      exact absurd rfl (a.token_ne_lineBreak hMem)
  | line a lineBreak more later ih =>
      rw [BlockTree.tokens, List.append_assoc a.tokens, ← List.append_assoc] at h
      have hLength : (closingTokens p q).length ≤
          (breakTokens (lineBreak :: more) ++ later.tokens).length := by
        have hLater := List.length_pos_iff.2 later.tokens_ne_nil
        simp only [breakTokens, closingTokens, List.map_cons, List.length_append, List.length_cons,
          List.length_nil]
        omega
      obtain ⟨us, hLines, rfl⟩ := append_eq_append_of_length_le h hLength
      obtain ⟨before, lines, last, hus, hAttrs⟩ := ih hLines
      cases before with
      | cons p' ps =>
          refine ⟨breaks, ⟨a, p', ps⟩ :: lines, last, ?_, by rw [BlockTree.attrs, hAttrs]; rfl⟩
          rw [hus, lineTokens_cons]
          simp
      | nil =>
          -- The line break behind `a` is one of the last two tokens.
          have hNotNext := notNext_lineBreak_lines lines last
          rw [← show us = lineTokens lines ++ last.toList.flatMap AttrTree.tokens from hus]
            at hNotNext
          cases us with
          | cons u us =>
              obtain ⟨rfl, -⟩ := List.cons.inj hLines
              exact absurd rfl (notNext_cons.1 hNotNext)
          | nil =>
              cases lines with
              | cons l lines => simp [lineTokens_cons, AttrTree.tokens] at hus
              | nil =>
                  cases last with
                  | some c => simp [AttrTree.tokens] at hus
                  | none =>
                      refine ⟨breaks, [], some a, ?_, by rw [BlockTree.attrs, hAttrs]; rfl⟩
                      simp [lineTokens]

/-- A closed table without its last two tokens is open. -/
theorem exists_openTable {p q : Place} {tree : TableTree} {front xs : List Located}
    (h : front ++ tree.tokens = xs ++ closingTokens p q) :
    ∃ (t : OpenTable) (last : Option AttrTree),
      xs = front ++ (t.tokens ++ last.toList.flatMap AttrTree.tokens) ∧
        t.name = tree.name ∧ t.keyword = tree.keyword ∧
          tree.block.attrs = t.lines.map Line.attr ++ last.toList := by
  obtain ⟨us, hTree, rfl⟩ :=
    append_eq_append_of_length_le h (by simp [closingTokens, TableTree.tokens])
  -- Three tokens stand in front of the block, and none of them is a line break.
  rcases us with _ | ⟨x, _ | ⟨y, _ | ⟨z, us⟩⟩⟩
  case cons.cons.cons =>
    simp only [TableTree.tokens, List.cons_append, List.cons.injEq] at hTree
    obtain ⟨rfl, rfl, rfl, hBlock⟩ := hTree
    obtain ⟨before, lines, last, rfl, hAttrs⟩ := exists_lines_of_closed hBlock
    exact ⟨⟨tree.keyword, tree.name, tree.opening, before, lines⟩, last,
      by simp [OpenTable.tokens], rfl, rfl, hAttrs⟩
  all_goals simp [TableTree.tokens, closingTokens, Place.mark_inj, Word.token] at hTree

/-- A table in order is in order up to its last attribute, and so is this attribute. -/
theorem BlockViolation.of_closed {t : OpenTable} {last : Option AttrTree} {tree : TableTree}
    (hTree : tree.IsAdmissible)
    (hAttrs : tree.block.attrs = t.lines.map Line.attr ++ last.toList) :
    t.IsAdmissible ∧ BlockViolation t.name.name t.keyword.line (lineNames t.lines)
      (last.toList.flatMap AttrTree.tokens) ⟨t.keyword.line, .unclosedTable t.name.name⟩ := by
  have hNodup := hTree.nodup
  rw [OpenTable.names_of_attrs hAttrs, List.nodup_append] at hNodup
  obtain ⟨hLines, -, hApart⟩ := hNodup
  have hLegible : ∀ a ∈ t.lines.map Line.attr ++ last.toList, a.IsLegible := hAttrs ▸ hTree.legible
  rw [List.forall_mem_append] at hLegible
  refine ⟨⟨hLines, List.forall_mem_map.1 hLegible.1⟩, .unclosedTable ?_ ?_⟩
  · exact fun a ha => hLegible.2 a (Option.mem_toList.2 ha)
  · intro a ha hTaken
    exact hApart _ hTaken _ (List.mem_map_of_mem (Option.mem_toList.2 ha)) rfl

theorem tokens_concat (breaks : List Place) (front : List (TableTree × List Place))
    (tree : TableTree) (behind : List Place) :
    (Derivation.mk breaks (front ++ [(tree, behind)])).tokens =
      (Derivation.mk breaks front).tokens ++ (tree.tokens ++ breakTokens behind) := by
  simp [Derivation.tokens, tableTokens]

/-- What is closed by the last line of a source is unclosed without this line. -/
theorem violation_of_closed {p q : Place} {ts : List Located} {d : Derivation}
    (hTokens : d.tokens = ts ++ closingTokens p q) (h : d.IsAdmissible) :
    ∃ entry ∈ d.tables.getLast?,
      Violation ts ⟨entry.1.keyword.line, .unclosedTable entry.1.name.name⟩ := by
  obtain ⟨breaks, tables⟩ := d
  rcases List.eq_nil_or_concat' tables with rfl | ⟨front, ⟨tree, behind⟩, rfl⟩
  · have hMem : q.mark .closeBrace ∈ breakTokens breaks := by
      rw [Derivation.tokens, tableTokens, List.flatMap_nil, List.append_nil] at hTokens
      rw [hTokens]
      simp [closingTokens]
    simp [breakTokens, Place.mark_inj] at hMem
  · rw [tokens_concat] at hTokens
    obtain rfl : behind = [] := by
      rcases List.eq_nil_or_concat' behind with hNil | ⟨bs, b, rfl⟩
      · exact hNil
      · rw [breakTokens, List.map_append, ← List.append_assoc, ← List.append_assoc] at hTokens
        obtain ⟨-, hLast⟩ := List.append_inj' (hTokens.trans (List.append_cons ..)) rfl
        simp [Place.mark_inj] at hLast
    rw [breakTokens, List.map_nil, List.append_nil] at hTokens
    obtain ⟨t, last, rfl, hName, hKeyword, hAttrs⟩ := exists_openTable hTokens
    obtain ⟨hNodup, hTables⟩ := Derivation.isAdmissible_iff.1 h
    rw [List.forall_mem_append] at hTables
    rw [Derivation.names, List.map_append, List.nodup_append] at hNodup
    obtain ⟨hOpen, hViolation⟩ :=
      BlockViolation.of_closed (hTables.2 _ (List.mem_singleton_self _)) hAttrs
    refine ⟨(tree, []), by simp, ⟨breaks, front⟩, _, ?_, rfl, ?_⟩
    · exact Derivation.isAdmissible_iff.2 ⟨hNodup.1, hTables.1⟩
    · rw [← hName, ← hKeyword]
      exact .inside hOpen hViolation

end ErDiagram.Grammar

namespace ErDiagram

open Grammar

/-! ### Sources -/

/-- The source with a closing brace on a line of its own behind it. -/
def withClosingBrace (text : String) : String := text ++ "\n\x7d"

theorem tokenize_withClosingBrace {text : String} {s : Scanned} (h : tokenize text = .ok s) :
    ∃ p q endLine endOffset,
      tokenize (withClosingBrace text) = .ok ⟨s.tokens ++ closingTokens p q, endLine, endOffset⟩ :=
  ⟨⟨s.endLine, s.endOffset, s.endOffset + 1⟩, ⟨s.endLine + 1, s.endOffset + 1, s.endOffset + 2⟩,
    _, _, Token.tokenize_closed h⟩

/-- A source that cannot be scanned is not mended. -/
theorem exists_scanned_of_withClosingBrace {text : String} {ds : List Table}
    (h : parse (withClosingBrace text) = .ok ds) : ∃ s, tokenize text = .ok s := by
  cases hScan : tokenize text with
  | ok s => exact ⟨s, rfl⟩
  | error error =>
      have hClosed : tokenize (withClosingBrace text) = .error error := by
        rw [tokenize, withClosingBrace, String.toList_append]
        exact Token.scanFrom_append_eq_error hScan (Token.replaces_lineFeed _ _) (by decide)
      rw [parse, hClosed] at h
      cases h

theorem exists_scanned_of_cause {text : String} {e : SyntaxError} (h : parse text = .error e)
    (hCause : ∀ cause, e.cause ≠ .scan cause) : ∃ s, tokenize text = .ok s := by
  cases hScan : tokenize text with
  | ok s => exact ⟨s, rfl⟩
  | error error =>
      rw [parse, hScan] at h
      cases h
      exact absurd rfl (hCause error.cause)

/-- One table more at the end of a source, with a new name. -/
theorem parse_of_new_table {text : String} {s : Scanned} (hScan : tokenize text = .ok s)
    {front : Derivation} {tree : TableTree} (hTokens : s.tokens = front.tokens ++ tree.tokens)
    (hFront : front.IsAdmissible) (hTree : tree.IsAdmissible)
    (hNew : tree.name.name ∉ front.names) :
    ∃ ds, parse text = .ok (ds ++ [tree.spelled text.toList]) := by
  let d : Derivation := ⟨front.breaks, front.tables ++ [(tree, [])]⟩
  have hDerivation : d.tokens = s.tokens := by
    rw [tokens_concat, hTokens, breakTokens, List.map_nil, List.append_nil]
  have hAdmissible : d.IsAdmissible := by
    obtain ⟨hNodup, hTables⟩ := Derivation.isAdmissible_iff.1 hFront
    refine Derivation.isAdmissible_iff.2 ⟨?_, List.forall_mem_append.2 ⟨hTables, by simpa⟩⟩
    rw [Derivation.names, List.map_append, List.nodup_append]
    refine ⟨hNodup, List.pairwise_singleton _ _, fun name hName other hOther hSame => ?_⟩
    rw [hSame, List.mem_singleton.1 hOther] at hName
    exact hNew hName
  refine ⟨front.spelled text.toList, ?_⟩
  rw [parse_of_derivation hScan hDerivation hAdmissible, Derivation.spelled, List.map_append]
  rfl

/-- With its brace the unclosed table is complete. Then it is the last one, unless its name is
taken. -/
theorem parse_withClosingBrace_of_unclosed {text : String} {e : SyntaxError} {name : String}
    (h : parse text = .error e) (hCause : e.cause = .unclosedTable name) :
    (∃ ds t, parse (withClosingBrace text) = .ok (ds ++ [t]) ∧ t.name = name) ∨
      ∃ e', parse (withClosingBrace text) = .error e' ∧ e'.cause = .duplicateTable name := by
  obtain ⟨s, hScan⟩ := exists_scanned_of_cause h fun cause hScan => by cases hCause.symm.trans hScan
  obtain ⟨p, q, endLine, endOffset, hClosed⟩ := tokenize_withClosingBrace hScan
  have hFault : ¬ e.toSyntaxFault.IsUnexpected := by
    rintro ⟨found, expected, hUnexpected⟩
    cases hCause.symm.trans hUnexpected
  have hViolation := violation_of_parse hScan h hFault
  generalize e.toSyntaxFault = f at hViolation hCause
  obtain ⟨front, rest, hFront, hTokens, hTable⟩ := hViolation
  cases hTable with
  | duplicateTable => cases hCause
  | @inside t rest _ admissible block =>
      cases block with
      | duplicateAttribute => cases hCause
      | noteWithoutEquals => cases hCause
      | @unclosedTable last legible isNew =>
          cases hCause
          obtain ⟨tree, hTree, hName, -, hTreeTokens⟩ :=
            exists_closed_table p q admissible legible isNew
          have hAll : s.tokens ++ closingTokens p q = front.tokens ++ tree.tokens := by
            rw [hTokens, ← hTreeTokens]
            simp
          rw [hAll] at hClosed
          by_cases hTaken : tree.name.name ∈ front.names
          · refine Or.inr ⟨_, parse_of_violation hClosed ⟨front, tree.tokens ++ [], hFront,
              by rw [List.append_nil], .duplicateTable hTree hTaken⟩, ?_⟩
            rw [hName]
            rfl
          · obtain ⟨ds, hParse⟩ := parse_of_new_table hClosed rfl hFront hTree hTaken
            exact Or.inl ⟨ds, _, hParse, congrArg Word.name hName⟩

/-- If a brace on a line of its own mends a source, its only fault is that its last table is never
closed. -/
theorem unclosed_of_parse_withClosingBrace {text : String} {e : SyntaxError} {ds : List Table}
    (h : parse text = .error e) (hMended : parse (withClosingBrace text) = .ok ds) :
    ∃ t ∈ ds.getLast?, e.cause = .unclosedTable t.name := by
  obtain ⟨s, hScan⟩ := exists_scanned_of_withClosingBrace hMended
  obtain ⟨p, q, endLine, endOffset, hClosed⟩ := tokenize_withClosingBrace hScan
  obtain ⟨d, hTokens, hAdmissible, rfl⟩ := derivation_of_parse hClosed hMended
  obtain ⟨entry, hLast, hViolation⟩ := violation_of_closed hTokens hAdmissible
  refine ⟨entry.1.spelled (withClosingBrace text).toList, ?_, ?_⟩
  · rw [Derivation.spelled, List.getLast?_map, hLast]
    rfl
  · rw [parse_of_violation hScan hViolation] at h
    cases h
    rfl

/-- A source that can be scanned is refused with a fault other than a token out of place exactly if
this is its first violation; an illegible caption is then the first one there is. An unclosed table
is told by the line of its keyword, and a closing brace on a line of its own mends it, unless its
name is taken. That line mends no source with another fault. -/
theorem parse_eq_error_iff_violation (text : String) :
    (∀ s, tokenize text = .ok s →
      (∀ f : SyntaxFault, ¬ f.IsUnexpected →
        ((∃ e, parse text = .error e ∧ e.toSyntaxFault = f) ↔ Violation s.tokens f)) ∧
      ∀ e quoted, parse text = .error e → e.cause = .noteWithoutEquals quoted →
        ∃ (before : List Located) (caption : Caption) (after : List Located) (segment : List Char),
          s.tokens = before ++ caption.place.mark (.text caption.content) :: after ∧
            AreLegible before ∧ caption.illegible? = some segment ∧
              e.toSyntaxFault = segmentFault caption.place.line segment) ∧
    (∀ e name, parse text = .error e → e.cause = .unclosedTable name →
      (∃ ds t, parse (withClosingBrace text) = .ok (ds ++ [t]) ∧ t.name = name) ∨
        ∃ e', parse (withClosingBrace text) = .error e' ∧ e'.cause = .duplicateTable name) ∧
    ∀ e ds, parse text = .error e → parse (withClosingBrace text) = .ok ds →
      ∃ t ∈ ds.getLast?, e.cause = .unclosedTable t.name := by
  refine ⟨fun s hScan => ⟨fun f hFault => ⟨?_, fun h => ⟨_, parse_of_violation hScan h, rfl⟩⟩,
    fun e quoted h hCause => ?_⟩, fun e name => parse_withClosingBrace_of_unclosed,
    fun e ds => unclosed_of_parse_withClosingBrace⟩
  · rintro ⟨e, h, rfl⟩
    exact violation_of_parse hScan h hFault
  · have hFault : ¬ e.toSyntaxFault.IsUnexpected := by
      rintro ⟨found, expected, hUnexpected⟩
      cases hCause.symm.trans hUnexpected
    exact (violation_of_parse hScan h hFault).exists_caption hCause

/-- The table is open behind its last attribute, whose line does not end. -/
theorem violation_of_open_line :
    let tokens : List Located := [⟨.ident "table", 1, 0, 5⟩, ⟨.ident "A", 1, 6, 7⟩,
      ⟨.openBrace, 1, 8, 9⟩, ⟨.lineBreak, 1, 9, 10⟩, ⟨.ident "x", 2, 10, 11⟩, ⟨.colon, 2, 11, 12⟩,
      ⟨.ident "t", 2, 13, 14⟩]
    Violation tokens ⟨1, .unclosedTable "A"⟩ ∧
      ∃ ds t, parse "table A \x7b\nx: t\n\x7d" = .ok (ds ++ [t]) ∧ t.name = "A" := by
  intro tokens
  have hParse : parse "table A \x7b\nx: t" =
      .error ⟨⟨1, .unclosedTable "A"⟩, "table A \x7b"⟩ := by decide +kernel
  have hScan : tokenize "table A \x7b\nx: t" = .ok ⟨tokens, 2, 14⟩ := by decide +kernel
  have hMended : parse (withClosingBrace "table A \x7b\nx: t") =
      .ok [⟨"A", [⟨"x", false, [], [], .typed "t"⟩]⟩] := by decide +kernel
  obtain ⟨hTokens, hClosed, -⟩ := parse_eq_error_iff_violation "table A \x7b\nx: t"
  refine ⟨((hTokens _ hScan).1 _ ?_).1 ⟨_, hParse, rfl⟩, ?_⟩
  · rintro ⟨found, expected, hCause⟩
    cases hCause
  · rcases hClosed _ _ hParse rfl with hAccepted | ⟨e, hRefused, -⟩
    · exact hAccepted
    · cases hMended.symm.trans hRefused

end ErDiagram
