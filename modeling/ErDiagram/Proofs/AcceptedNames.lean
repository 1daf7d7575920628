import ErDiagram.Proofs.Grammar.Acceptance
import ErDiagram.Proofs.WellFormed

/-! The names in an accepted source. The tables, and the attributes of each table, have distinct
names, and each name is a token of its own, so no dot stands in it. -/
namespace ErDiagram

namespace Token

theorem lexeme_isName {c : Char} {cs : List Char} {l : Lexeme} (h : lexeme c cs = .ok l)
    {name : String} (hIdent : l.token = .ident name) : IsName name.toList := by
  unfold lexeme at h
  split at h <;> try (cases h; cases hIdent)
  · split at h <;> (cases h; try cases hIdent)
  · split at h <;> (cases h; cases hIdent)
  · split at h
    · rename_i hName
      cases h
      cases hIdent
      rw [String.toList_ofList]
      refine ⟨List.cons_ne_nil _ _, List.forall_mem_cons.2 ⟨hName, fun d hd => ?_⟩⟩
      exact List.mem_takeWhile_imp hd
    · split at h <;> (cases h; try cases hIdent)

theorem Laid.isName {line offset : Nat} {cs : List Char} {s : Scanned}
    (h : Laid line offset cs s) {t : Located} (ht : t ∈ s.tokens) {name : String}
    (hIdent : t.token = .ident name) : IsName name.toList := by
  obtain ⟨_, _, _, _, -, hLexeme, hToken, -, -⟩ := h.exists_lexeme ht
  exact lexeme_isName hLexeme (hToken.symm.trans hIdent)

theorem IsName.dot_not_mem {cs : List Char} (h : IsName cs) : '.' ∉ cs := by
  intro hMem
  exact absurd (h.2 '.' hMem) (by decide)

end Token

open Token

namespace Grammar

/-- A word among the tokens of a source is a name. -/
theorem Word.isName {text : String} {s : Scanned} (hScan : tokenize text = .ok s) {w : Word}
    (h : w.token ∈ s.tokens) : IsName w.name.toList :=
  (scanFrom_laid hScan).isName h rfl

theorem TargetTree.words_mem {a : AttrTree} {question : Option Place} {arrow dot : Place}
    {table attr : Word} (h : a.target = .reference question arrow table dot attr) :
    table.token ∈ a.tokens ∧ attr.token ∈ a.tokens := by
  simp [AttrTree.tokens, h, TargetTree.tokens]

end Grammar

/-- The names of a table, of its attributes and of all that it refers to can stand in a source. -/
structure Table.IsNamed (t : Table) : Prop where
  name : IsName t.name.toList
  attributes : ∀ a ∈ t.attributes, IsName a.name.toList
  targets : ∀ r ∈ t.references, IsName r.targetTable.toList ∧ IsName r.targetAttribute.toList
  nodup : (t.attributes.map Attribute.name).Nodup

structure WellNamed (ds : List Table) : Prop where
  tables : ∀ t ∈ ds, t.IsNamed
  nodup : (ds.map Table.name).Nodup

theorem mem_references_iff {t : Table} {r : Reference} :
    r ∈ t.references ↔ ∃ a ∈ t.attributes, a.name = r.source ∧
      a.target = .reference r.targetTable r.targetAttribute := by
  simp only [Table.references, List.mem_filterMap]
  refine exists_congr fun a => and_congr_right fun _ => ?_
  obtain ⟨source, table, attr⟩ := r
  cases hTarget : a.target <;> simp [Attribute.reference?, hTarget]

theorem Grammar.TableTree.isNamed {text : String} {s : Scanned} (hScan : tokenize text = .ok s)
    {t : TableTree} (hTokens : t.tokens <:+: s.tokens)
    (hNodup : (t.block.attrs.map (·.name.name)).Nodup) :
    (t.spelled text.toList).IsNamed := by
  have hAttr {a : AttrTree} (ha : a ∈ t.block.attrs) : a.tokens ⊆ s.tokens :=
    ((BlockTree.attr_infix ha).trans (t.block_isInfix.trans hTokens)).subset
  refine ⟨?_, ?_, ?_, ?_⟩
  · exact Word.isName hScan (hTokens.subset (by simp [TableTree.tokens]))
  · intro a ha
    obtain ⟨tree, hTree, rfl⟩ := List.mem_map.1 ha
    exact Word.isName hScan (hAttr hTree (by simp [AttrTree.tokens]))
  · intro r hr
    obtain ⟨a, ha, -, hTarget⟩ := mem_references_iff.1 hr
    obtain ⟨tree, hTree, rfl⟩ := List.mem_map.1 ha
    cases hKind : tree.target with
    | typed => simp [AttrTree.spelled, TargetTree.spelled, hKind] at hTarget
    | reference question arrow table dot attr =>
        obtain ⟨hTable, hAttribute⟩ := TargetTree.words_mem hKind
        simp only [AttrTree.spelled, TargetTree.spelled, hKind, Target.reference.injEq] at hTarget
        rw [← hTarget.1, ← hTarget.2]
        exact ⟨Word.isName hScan (hAttr hTree hTable), Word.isName hScan (hAttr hTree hAttribute)⟩
  · rw [TableTree.spelled, List.map_map]
    exact hNodup

theorem exists_tokenize_of_parse {text : String} {tables : List Table}
    (h : parse text = .ok tables) : ∃ s, tokenize text = .ok s := by
  cases hScan : tokenize text with
  | ok s => exact ⟨s, rfl⟩
  | error => simp [parse, hScan] at h

theorem wellNamed_of_parse {text : String} {tables : List Table} (h : parse text = .ok tables) :
    WellNamed tables := by
  obtain ⟨s, hScan⟩ := exists_tokenize_of_parse h
  obtain ⟨d, hTokens, hAdmissible, rfl⟩ := Grammar.derivation_of_parse hScan h
  refine ⟨fun t ht => ?_, ?_⟩
  · obtain ⟨entry, hEntry, rfl⟩ := List.mem_map.1 ht
    exact Grammar.TableTree.isNamed hScan (hTokens ▸ Grammar.Derivation.table_infix hEntry)
      (hAdmissible.attrs_nodup entry hEntry)
  · rw [Grammar.Derivation.spelled, List.map_map]
    exact hAdmissible.tables_nodup

end ErDiagram
