import ErDiagram.Proofs.Text
import ErDiagram.Schema
import ErDiagram.Token.Scan

/-! The tables that the schema language can write down. -/
namespace ErDiagram

/-- A text of one character at least, all of which may stand in a name. -/
def Token.IsName (cs : List Char) : Prop := cs ≠ [] ∧ ∀ c ∈ cs, Token.isNameChar c

instance (cs : List Char) : Decidable (Token.IsName cs) :=
  decidable_of_iff (cs ≠ [] ∧ cs.all Token.isNameChar) (and_congr_right' List.all_eq_true)

/-- A character that may stand in the text of a type. -/
structure Token.FitsType (c : Char) : Prop where
  break_ne : c ≠ '\n'
  quote_ne : c ≠ '"'
  hash_ne : c ≠ '#'
  brace_ne : c ≠ '}'
  blank_of_control : Text.isControl c → Text.isBlank c

/-- The key and the value of a note stand before and behind an equals sign, and commas stand
between notes, so neither may blur where it ends. -/
structure Note.IsWellFormed (n : Note) : Prop where
  key_trimmed : Text.IsTrimmed n.key.toList
  equals_not_mem : '=' ∉ n.key.toList
  comma_not_mem_key : ',' ∉ n.key.toList
  value_trimmed : Text.IsTrimmed n.value.toList
  comma_not_mem_value : ',' ∉ n.value.toList

/-- A type is not empty and has no blank at either end. -/
structure IsTypeText (cs : List Char) : Prop where
  ne_nil : cs ≠ []
  trimmed : Text.IsTrimmed cs
  fits : ∀ c ∈ cs, Token.FitsType c

def Target.IsWellFormed : Target → Prop
  | typed text => IsTypeText text.toList
  | reference table attr => Token.IsName table.toList ∧ Token.IsName attr.toList

structure Attribute.IsWellFormed (a : Attribute) : Prop where
  name : Token.IsName a.name.toList
  flags : ∀ flag ∈ a.flags, Token.IsName flag.toList
  notes : ∀ n ∈ a.notes, n.IsWellFormed
  target : a.target.IsWellFormed
  flags_of_reference : a.isReference → a.flags = []

structure Table.IsWellFormed (t : Table) : Prop where
  name : Token.IsName t.name.toList
  attributes : ∀ a ∈ t.attributes, a.IsWellFormed
  nodup : (t.attributes.map Attribute.name).Nodup

structure WellFormed (ds : List Table) : Prop where
  tables : ∀ t ∈ ds, t.IsWellFormed
  nodup : (ds.map Table.name).Nodup

/-! ### Decisions -/

instance (c : Char) : Decidable (Token.FitsType c) :=
  decidable_of_iff (c ≠ '\n' ∧ c ≠ '"' ∧ c ≠ '#' ∧ c ≠ '}' ∧ (Text.isControl c → Text.isBlank c))
    ⟨fun ⟨hBreak, hQuote, hHash, hBrace, hControl⟩ => ⟨hBreak, hQuote, hHash, hBrace, hControl⟩,
      fun h => ⟨h.break_ne, h.quote_ne, h.hash_ne, h.brace_ne, h.blank_of_control⟩⟩

instance (cs : List Char) : Decidable (Text.IsTrimmed cs) :=
  decidable_of_iff (cs.head?.all (!Text.isBlank ·) ∧ cs.getLast?.all (!Text.isBlank ·)) <| by
    simp only [Option.all_eq_true, Bool.not_eq_true']
    exact ⟨fun ⟨hHead, hLast⟩ => ⟨hHead, hLast⟩, fun h => ⟨h.head, h.last⟩⟩

instance (n : Note) : Decidable n.IsWellFormed :=
  decidable_of_iff (Text.IsTrimmed n.key.toList ∧ '=' ∉ n.key.toList ∧ ',' ∉ n.key.toList ∧
      Text.IsTrimmed n.value.toList ∧ ',' ∉ n.value.toList)
    ⟨fun ⟨hKey, hEquals, hKeyComma, hValue, hComma⟩ => ⟨hKey, hEquals, hKeyComma, hValue, hComma⟩,
      fun h => ⟨h.key_trimmed, h.equals_not_mem, h.comma_not_mem_key, h.value_trimmed,
        h.comma_not_mem_value⟩⟩

instance (cs : List Char) : Decidable (IsTypeText cs) :=
  decidable_of_iff (cs ≠ [] ∧ Text.IsTrimmed cs ∧ cs.all fun c => decide (Token.FitsType c)) <| by
    simp only [List.all_eq_true, decide_eq_true_eq]
    exact ⟨fun ⟨hNe, hTrimmed, hFits⟩ => ⟨hNe, hTrimmed, hFits⟩,
      fun h => ⟨h.ne_nil, h.trimmed, h.fits⟩⟩

instance (t : Target) : Decidable t.IsWellFormed :=
  match t with
  | .typed text => inferInstanceAs (Decidable (IsTypeText text.toList))
  | .reference table attr =>
      inferInstanceAs (Decidable (Token.IsName table.toList ∧ Token.IsName attr.toList))

instance (a : Attribute) : Decidable a.IsWellFormed :=
  decidable_of_iff (Token.IsName a.name.toList ∧ (∀ flag ∈ a.flags, Token.IsName flag.toList) ∧
      (∀ n ∈ a.notes, n.IsWellFormed) ∧ a.target.IsWellFormed ∧ (a.isReference → a.flags = []))
    ⟨fun ⟨hName, hFlags, hNotes, hTarget, hReference⟩ =>
        ⟨hName, hFlags, hNotes, hTarget, hReference⟩,
      fun h => ⟨h.name, h.flags, h.notes, h.target, h.flags_of_reference⟩⟩

instance (t : Table) : Decidable t.IsWellFormed :=
  decidable_of_iff (Token.IsName t.name.toList ∧ (∀ a ∈ t.attributes, a.IsWellFormed) ∧
      (t.attributes.map Attribute.name).Nodup)
    ⟨fun ⟨hName, hAttributes, hNodup⟩ => ⟨hName, hAttributes, hNodup⟩,
      fun h => ⟨h.name, h.attributes, h.nodup⟩⟩

instance (ds : List Table) : Decidable (WellFormed ds) :=
  decidable_of_iff ((∀ t ∈ ds, t.IsWellFormed) ∧ (ds.map Table.name).Nodup)
    ⟨fun ⟨hTables, hNodup⟩ => ⟨hTables, hNodup⟩, fun h => ⟨h.tables, h.nodup⟩⟩

end ErDiagram
