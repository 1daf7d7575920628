import ErDiagram.Proofs.AcceptedNames
import ErDiagram.Proofs.Scanning.TypeTexts

/-! What an accepted source declares. The tables are well-formed, so their canonical text can be
written and read again. -/
namespace ErDiagram

open Token

/-- The names that a target refers to. -/
def Target.names : Target → List String
  | typed _ => []
  | reference table attr => [table, attr]

/-- All names that a table declares or refers to: its own, and those of its attributes, of their
flags and of their targets. -/
def Table.names (t : Table) : List String :=
  t.name :: t.attributes.flatMap fun a => a.name :: (a.flags ++ a.target.names)

theorem Table.IsWellFormed.isName {t : Table} (h : t.IsWellFormed) {name : String}
    (hName : name ∈ t.names) : IsName name.toList := by
  simp only [Table.names, List.mem_cons, List.mem_flatMap, List.mem_append] at hName
  rcases hName with rfl | ⟨a, ha, rfl | hFlag | hTarget⟩
  · exact h.name
  · exact (h.attributes a ha).name
  · exact (h.attributes a ha).flags name hFlag
  · have hNamed := (h.attributes a ha).target
    cases hKind : a.target with
    | typed text => simp [Target.names, hKind] at hTarget
    | reference table attr =>
        rw [hKind] at hNamed
        simp only [Target.names, hKind, List.mem_cons, List.not_mem_nil, or_false] at hTarget
        rcases hTarget with rfl | rfl
        · exact hNamed.1
        · exact hNamed.2

namespace Grammar

/-! ### Flags -/

theorem FlagList.exists_word {f : FlagList} {flag : String} (h : flag ∈ f.names) :
    ∃ w : Word, w.token ∈ f.tokens ∧ w.name = flag := by
  rcases List.mem_cons.1 h with rfl | hOther
  · exact ⟨f.first, by simp [FlagList.tokens], rfl⟩
  · obtain ⟨⟨comma, w⟩, hw, rfl⟩ := List.mem_map.1 hOther
    refine ⟨w, ?_, rfl⟩
    have hMem : w.token ∈ commaTokens f.others :=
      List.mem_flatMap.2 ⟨(comma, w), hw, by simp⟩
    simp [FlagList.tokens, hMem]

theorem Marks.exists_word {m : Marks} {flag : String} (h : flag ∈ m.flagNames) :
    ∃ w : Word, w.token ∈ m.tokens ∧ w.name = flag := by
  cases m with
  | questionFirst question flags =>
      cases flags with
      | none => cases h
      | some f =>
          obtain ⟨w, hw, hName⟩ := FlagList.exists_word h
          exact ⟨w, by simp [Marks.tokens, hw], hName⟩
  | questionLast f question =>
      obtain ⟨w, hw, hName⟩ := FlagList.exists_word h
      exact ⟨w, by simp [Marks.tokens, hw], hName⟩

/-! ### Notes -/

theorem segmentNote_isWellFormed {segment : List Char} (hComma : ',' ∉ segment) :
    (segmentNote segment).IsWellFormed := by
  have hKey : Text.trimChars (segment.takeWhile (· ≠ '=')) ⊆ segment.takeWhile (· ≠ '=') :=
    Text.trimChars_subset _
  have hValue : Text.trimChars (segment.dropWhile (· ≠ '=')).tail ⊆ segment := fun _ hc =>
    (List.dropWhile_suffix _).subset (List.mem_of_mem_tail (Text.trimChars_subset _ hc))
  constructor <;> simp only [segmentNote, String.toList_ofList]
  case key_trimmed => exact Text.isTrimmed_trimChars _
  case equals_not_mem =>
    intro hEquals
    simpa using List.mem_takeWhile_imp (hKey hEquals)
  case comma_not_mem_key => exact fun h => hComma ((List.takeWhile_prefix _).subset (hKey h))
  case value_trimmed => exact Text.isTrimmed_trimChars _
  case comma_not_mem_value => exact fun h => hComma (hValue h)

theorem Caption.notes_isWellFormed {a : Caption} {n : Note} (h : n ∈ a.notes) :
    n.IsWellFormed := by
  rw [Caption.notes] at h
  split at h
  · cases h
  · obtain ⟨segment, hSegment, rfl⟩ := List.mem_map.1 h
    exact segmentNote_isWellFormed (Text.not_mem_of_mem_splitOn hSegment)

/-! ### Attributes -/

theorem AttrTree.spelled_isWellFormed {text : String} {s : Scanned}
    (hScan : tokenize text = .ok s) {a : AttrTree} (ha : a.tokens <:+: s.tokens) :
    (a.spelled text.toList).IsWellFormed := by
  have hWord {w : Word} (hw : w.token ∈ a.tokens) : IsName w.name.toList :=
    Word.isName hScan (ha.subset hw)
  obtain ⟨name, target, caption⟩ := a
  constructor
  case name => exact hWord (by simp [AttrTree.tokens])
  case flags =>
    intro flag hFlag
    cases target with
    | reference => cases hFlag
    | typed marks colon type =>
        obtain ⟨w, hw, rfl⟩ := Marks.exists_word hFlag
        exact hWord (by simp [AttrTree.tokens, TargetTree.tokens, hw])
  case notes =>
    intro n hn
    cases caption with
    | none => cases hn
    | some caption => exact Caption.notes_isWellFormed hn
  case target =>
    cases target with
    | reference question arrow table dot attr =>
        obtain ⟨hTable, hAttribute⟩ := TargetTree.words_mem (a := ⟨name, _, caption⟩) rfl
        exact ⟨hWord hTable, hWord hAttribute⟩
    | typed marks colon type =>
        have hType := TypeRun.isTypeText hScan
          ((AttrTree.type_infix name marks colon type caption).trans ha)
        simpa [AttrTree.spelled, TargetTree.spelled, TypeRun.text, Target.IsWellFormed] using hType
  case flags_of_reference =>
    intro hReference
    cases target with
    | reference => rfl
    | typed => cases hReference

end Grammar

theorem isWellFormed_of_parse {text : String} {ds : List Table} (h : parse text = .ok ds)
    {t : Table} (ht : t ∈ ds) : t.IsWellFormed := by
  have hNamed := (wellNamed_of_parse h).tables t ht
  obtain ⟨s, hScan⟩ := exists_tokenize_of_parse h
  obtain ⟨d, hTokens, -, rfl⟩ := Grammar.derivation_of_parse hScan h
  refine ⟨hNamed.name, fun a ha => ?_, hNamed.nodup⟩
  obtain ⟨entry, hEntry, rfl⟩ := List.mem_map.1 ht
  obtain ⟨tree, hTree, rfl⟩ := List.mem_map.1 ha
  exact Grammar.AttrTree.spelled_isWellFormed hScan
    (hTokens ▸ Grammar.Derivation.attr_infix hEntry hTree)

/-- All that an accepted source declares is well-formed, and no name in it has a dot. -/
theorem wellFormed_of_parse (text : String) (ds : List Table) (h : parse text = .ok ds) :
    WellFormed ds ∧ ∀ t ∈ ds, ∀ name ∈ t.names, '.' ∉ name.toList :=
  ⟨⟨fun _ ht => isWellFormed_of_parse h ht, (wellNamed_of_parse h).nodup⟩,
    fun _ ht _ hName => ((isWellFormed_of_parse h ht).isName hName).dot_not_mem⟩

/-- A type with a comment behind it, and a caption with blanks around its notes. -/
def commentedSource : String :=
  "table é \x7b\n x(PK, FK)?: a -> b [ç]  # \" \x7d\n y? -> B.x \" k = v=w , z= \"\x7d"

theorem wellFormed_of_commentedSource :
    let ds : List Table := [⟨"é", [⟨"x", true, ["PK", "FK"], [], .typed "a -> b [ç]"⟩,
      ⟨"y", true, [], [⟨"k", "v=w"⟩, ⟨"z", ""⟩], .reference "B" "x"⟩]⟩]
    parse commentedSource = .ok ds ∧
      WellFormed ds ∧ ∀ t ∈ ds, ∀ name ∈ t.names, '.' ∉ name.toList := by
  intro ds
  have hParse : parse commentedSource = .ok ds := by decide +kernel
  exact ⟨hParse, wellFormed_of_parse commentedSource ds hParse⟩

end ErDiagram
