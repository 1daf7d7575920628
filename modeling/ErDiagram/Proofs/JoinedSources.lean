import ErDiagram.Proofs.AcceptedNames
import ErDiagram.Proofs.Grammar.Violations
import ErDiagram.Proofs.Scanning.Continuation
import ErDiagram.Proofs.Scanning.Respacing

/-! Two sources one after the other. What the first one declares is not changed by lines behind it,
and the second one is read as on its own, but with the names of the first one taken. -/
namespace ErDiagram

open Text Token

/-! ### The tokens of both -/

/-- Both sources with a line feed between them. -/
def joined (first second : String) : String := first ++ "\n" ++ second

theorem toList_joined (first second : String) :
    (joined first second).toList = first.toList ++ ['\n'] ++ second.toList := by
  rw [joined, String.toList_append, String.toList_append]
  rfl

namespace Token

theorem tokenize_joined {first second : String} {s t : Scanned} (hFirst : tokenize first = .ok s)
    (hSecond : tokenize second = .ok t) :
    ∃ (p : Grammar.Place) (u : Scanned),
      tokenize (joined first second) = .ok (prepend (s.tokens ++ [p.mark .lineBreak]) u) ∧
      Grammar.Relocated second.toList (joined first second).toList s.endLine t.tokens u.tokens ∧
      u.endLine = t.endLine + s.endLine := by
  have hYields := (scanFrom_laid hFirst).yields (replaces_lineFeed second.toList [])
  have hBreak : Yields s.endLine (0 + byteLength first.toList) ['\n'] second.toList _ _ :=
    yields_lexeme (Or.inl rfl) rfl _ _
  have hBoth := hYields.append hBreak
  have hLater := (Respaced.refl second.toList).sameScan 1 s.endLine [] (first.toList ++ ['\n'])
  rw [← toList_joined] at hLater
  rw [Yields, ← toList_joined, lineAfter, if_pos rfl, Nat.add_comm s.endLine] at hBoth
  simp only [Nat.zero_add] at hBoth
  rw [tokenize, hBoth]
  rw [show scanFrom 1 (byteLength []) second.toList = .ok t from hSecond] at hLater
  generalize scanFrom (1 + s.endLine) _ second.toList = x at hLater
  cases hLater with
  | @ok _ u hTokens hEnd => exact ⟨⟨_, _, _⟩, u, rfl, hTokens, hEnd⟩

end Token

/-! ### Types in a longer source -/

namespace Grammar

/-- A type is cut out alike of a longer source. -/
theorem AttrTree.read_append {text : String} {s : Scanned} (hScan : tokenize text = .ok s)
    {a : AttrTree} (ha : a.tokens <:+: s.tokens) (more : List Char) :
    a.read (text.toList ++ more) = a.read text.toList := by
  obtain ⟨name, target, caption⟩ := a
  cases target with
  | reference => rfl
  | typed marks colon type =>
      obtain ⟨before, behind, hTokens⟩ :=
        (AttrTree.type_infix name marks colon type caption).trans ha
      obtain ⟨ahead, inner, rest, hText, hStart, hStop, -, -⟩ :=
        (scanFrom_laid hScan).run hTokens.symm fun t ht => (type.inType t ht).1
      rw [Nat.zero_add] at hStart hStop
      have hSlice (tail : List Char) :
          type.text (ahead ++ inner ++ tail) = String.ofList inner := by
        rw [TypeRun.text, hStart, TypeRun.last, hStop, slice_append]
      have hSame : type.text (text.toList ++ more) = type.text text.toList := by
        rw [hText, hSlice, List.append_assoc, hSlice]
      simp only [AttrTree.read, TargetTree.read, TypeRun.trimmedText, hSame]
      rfl

theorem Derivation.read_append {text : String} {s : Scanned} (hScan : tokenize text = .ok s)
    {d : Derivation} (hTokens : d.tokens = s.tokens) (more : List Char) :
    d.read (text.toList ++ more) = d.read text.toList := by
  apply List.map_congr_left
  intro entry hEntry
  rw [TableTree.read, TableTree.read, Table.mk.injEq]
  refine ⟨rfl, ?_⟩
  apply List.map_congr_left
  intro a ha
  exact AttrTree.read_append hScan (hTokens ▸ Derivation.attr_infix hEntry ha) more

/-- Tables in order with new names, in front of one whose name is taken. -/
theorem tables_duplicate (source : List Char) (endLine : Nat) {seen : List String}
    {front back : List (TableTree × List Place)} {entry : TableTree × List Place}
    (hNew : NewNames (front.map (·.1.name.name)) seen)
    (hAdmissible : ∀ e ∈ front ++ entry :: back, e.1.IsAdmissible)
    (hTaken : entry.1.name.name ∈ seen) :
    Parse.tables source endLine seen (tableTokens (front ++ entry :: back)) =
      .error ⟨entry.1.keyword.line, .duplicateTable entry.1.name.name⟩ := by
  obtain ⟨hFront, hBack⟩ := List.forall_mem_append.1 hAdmissible
  obtain ⟨tree, breaks⟩ := entry
  rw [tableTokens, List.flatMap_append, ← tableTokens, ← tableTokens, tables_append hNew hFront,
    tableTokens_cons, tables_table source endLine _ (hBack _ List.mem_cons_self),
    if_pos (List.mem_append_right _ hTaken)]
  rfl

theorem newNames_of_spelled {source : List Char} {names : List String}
    {ts : List (TableTree × List Place)} (hNodup : (ts.map (·.1.name.name)).Nodup)
    (h : ∀ t ∈ ts.map fun entry => entry.1.spelled source, t.name ∉ names) :
    NewNames (ts.map (·.1.name.name)) names.reverse := by
  refine ⟨hNodup, fun name hName => ?_⟩
  obtain ⟨entry, hEntry, rfl⟩ := List.mem_map.1 hName
  rw [List.mem_reverse]
  exact h (entry.1.spelled source) (List.mem_map_of_mem hEntry)

end Grammar

/-- What both sources declare, if the reader has got to the second one. -/
theorem parse_joined_eq {first second : String} {s t : Scanned} (hFirst : tokenize first = .ok s)
    (hSecond : tokenize second = .ok t) {d : Grammar.Derivation} (hTokens : d.tokens = s.tokens)
    (hAdmissible : d.IsAdmissible) :
    Grammar.SameRead s.endLine (fun es r => r = d.spelled first.toList ++ es)
      (Parse.tables second.toList t.endLine d.names.reverse t.tokens)
      (readTables (joined first second)) := by
  obtain ⟨p, u, hBoth, hRelocated, hEnd⟩ := tokenize_joined hFirst hSecond
  obtain ⟨hNodup, hTables⟩ := Grammar.Derivation.isAdmissible_iff.1 hAdmissible
  have hRead : d.read (joined first second).toList = d.spelled first.toList := by
    rw [toList_joined, List.append_assoc, Grammar.Derivation.read_append hFirst hTokens,
      Grammar.Derivation.read_eq_spelled hFirst hTokens]
  have hLater := hRelocated.tables t.endLine d.names.reverse
  rw [← hEnd] at hLater
  have hFront : readTables (joined first second) =
      (Parse.tables (joined first second).toList u.endLine d.names.reverse u.tokens).map
        (d.spelled first.toList ++ ·) := by
    rw [readTables, hBoth]
    dsimp only [prepend]
    rw [← hTokens, Grammar.Derivation.tokens, List.append_assoc, List.append_assoc,
      Grammar.tables_breaks, Grammar.tables_append ⟨hNodup, by simp⟩ hTables, ← hRead,
      List.append_nil, show [p.mark .lineBreak] = Grammar.breakTokens [p] from rfl,
      Grammar.tables_breaks]
    rfl
  rw [hFront]
  generalize Parse.tables second.toList t.endLine d.names.reverse t.tokens = x at hLater
  generalize Parse.tables (joined first second).toList u.endLine d.names.reverse u.tokens = y
    at hLater
  cases hLater with
  | ok hSame => exact .ok (by rw [hSame])
  | error f => exact .error f

/-- Two accepted sources, one after the other, declare the tables of both in order. If the second
one declares a name of the first one again, the first table there with such a name is the fault. -/
theorem parse_joined (first second : String) (ds es : List Table) (hFirst : parse first = .ok ds)
    (hSecond : parse second = .ok es) :
    ((∀ t ∈ es, t.name ∉ ds.map Table.name) → parse (joined first second) = .ok (ds ++ es)) ∧
      ∀ front t back, es = front ++ t :: back → (∀ u ∈ front, u.name ∉ ds.map Table.name) →
        t.name ∈ ds.map Table.name →
          ∃ e, parse (joined first second) = .error e ∧ e.cause = .duplicateTable t.name := by
  obtain ⟨s, hScan⟩ := exists_tokenize_of_parse hFirst
  obtain ⟨t, hSecondScan⟩ := exists_tokenize_of_parse hSecond
  obtain ⟨d, hTokens, hAdmissible, rfl⟩ := Grammar.derivation_of_parse hScan hFirst
  obtain ⟨⟨breaks, tables⟩, hSecondTokens, hOther, rfl⟩ :=
    Grammar.derivation_of_parse hSecondScan hSecond
  obtain ⟨hNodup, hTables⟩ := Grammar.Derivation.isAdmissible_iff.1 hOther
  have hNames : (d.spelled first.toList).map Table.name = d.names := by
    rw [Grammar.Derivation.spelled, List.map_map]
    rfl
  have hRead := parse_joined_eq hScan hSecondScan hTokens hAdmissible
  rw [← hSecondTokens, Grammar.Derivation.tokens, Grammar.tables_breaks] at hRead
  rw [parse_eq_readTables, hNames]
  refine ⟨fun hNew => ?_, fun front u back hSplit hFront hTaken => ?_⟩
  · have hUnseen := Grammar.newNames_of_spelled hNodup hNew
    have hSpelled : tables.map (fun entry => entry.1.read second.toList) =
        tables.map fun entry => entry.1.spelled second.toList :=
      Grammar.Derivation.read_eq_spelled hSecondScan hSecondTokens
    rw [Grammar.tables_complete hUnseen hTables, hSpelled] at hRead
    generalize readTables (joined first second) = r at hRead
    cases hRead with
    | ok hSame =>
        rw [hSame]
        rfl
  · obtain ⟨before, after, rfl, rfl, hAfter⟩ := List.map_eq_append_iff.1 hSplit
    obtain ⟨entry, behind, rfl, rfl, -⟩ := List.map_eq_cons_iff.1 hAfter
    rw [Grammar.Derivation.names, List.map_append, List.nodup_append] at hNodup
    have hUnseen := Grammar.newNames_of_spelled hNodup.1 hFront
    rw [Grammar.tables_duplicate _ _ hUnseen hTables (List.mem_reverse.2 hTaken)] at hRead
    generalize readTables (joined first second) = r at hRead
    cases hRead with
    | error => exact ⟨_, rfl, rfl⟩

/-- The first source ends in a comment. Behind it one source declares a new table only, and another
one the first table again. -/
theorem parse_joined_behind_comment :
    let first := "table A \x7b x: t \x7d # -"
    let second := "table B \x7b y -> A.x \x7d"
    let third := "table B \x7b y: größe \x7d table A \x7b\x7d"
    parse first = .ok [⟨"A", [⟨"x", false, [], [], .typed "t"⟩]⟩] ∧
      parse second = .ok [⟨"B", [⟨"y", false, [], [], .reference "A" "x"⟩]⟩] ∧
      parse third = .ok [⟨"B", [⟨"y", false, [], [], .typed "größe"⟩]⟩, ⟨"A", []⟩] ∧
      parse (joined first second) = .ok [⟨"A", [⟨"x", false, [], [], .typed "t"⟩]⟩,
        ⟨"B", [⟨"y", false, [], [], .reference "A" "x"⟩]⟩] ∧
      ∃ e, parse (joined first third) = .error e ∧ e.cause = .duplicateTable "A" := by
  intro first second third
  have hFirst : parse first = .ok [⟨"A", [⟨"x", false, [], [], .typed "t"⟩]⟩] := by decide +kernel
  have hSecond : parse second = .ok [⟨"B", [⟨"y", false, [], [], .reference "A" "x"⟩]⟩] := by
    decide +kernel
  have hThird : parse third = .ok [⟨"B", [⟨"y", false, [], [], .typed "größe"⟩]⟩, ⟨"A", []⟩] := by
    decide +kernel
  refine ⟨hFirst, hSecond, hThird, ?_, ?_⟩
  · exact (parse_joined first second _ _ hFirst hSecond).1 (by decide)
  · exact (parse_joined first third _ _ hFirst hThird).2 [_] _ [] rfl (by decide) (by decide)

end ErDiagram
