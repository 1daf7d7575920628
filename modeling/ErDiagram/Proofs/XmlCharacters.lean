import ErDiagram.Decimal.Text
import ErDiagram.Markup
import ErDiagram.Proofs.Scanning.TypeTexts

/-! The characters that XML allows in a document. Markup is written in them, and so are names and
numbers. Any other character stands in what is written of a tree only if a text or an attribute of
the tree has it, since it has no escape. -/
namespace ErDiagram

open Text

/-! ### Characters -/

/-- The characters of XML 1.0: tab, line feed and carriage return, and of the others all but the
controls below the blank, the surrogates and the last two of the basic plane. -/
def IsXmlChar (c : Char) : Prop :=
  c.toNat = 0x9 ∨ c.toNat = 0xa ∨ c.toNat = 0xd ∨ (0x20 ≤ c.toNat ∧ c.toNat ≤ 0xd7ff) ∨
    (0xe000 ≤ c.toNat ∧ c.toNat ≤ 0xfffd) ∨ (0x10000 ≤ c.toNat ∧ c.toNat ≤ 0x10ffff)

instance : DecidablePred IsXmlChar := fun c =>
  inferInstanceAs (Decidable (c.toNat = 0x9 ∨ c.toNat = 0xa ∨ c.toNat = 0xd ∨ _ ∨ _ ∨ _))

def IsXmlText (cs : List Char) : Prop := ∀ c ∈ cs, IsXmlChar c

-- The instance is named, since the one that is found may go through all characters there are.
instance (cs : List Char) : Decidable (IsXmlText cs) := List.decidableBAll IsXmlChar cs

theorem not_isXmlChar_iff {c : Char} : ¬ IsXmlChar c ↔
    (c.toNat < 0x20 ∧ c.toNat ≠ 0x9 ∧ c.toNat ≠ 0xa ∧ c.toNat ≠ 0xd) ∨
      c.toNat = 0xfffe ∨ c.toNat = 0xffff := by
  have hValid : c.toNat < 0xd800 ∨ 0xdfff < c.toNat ∧ c.toNat < 0x110000 := c.valid
  rw [IsXmlChar]
  omega

theorem IsXmlChar.ne_of_not {c d : Char} (hd : IsXmlChar d) (hc : ¬ IsXmlChar c) : c ≠ d :=
  fun h => hc (h ▸ hd)

theorem isXmlText_append_iff {cs ds : List Char} :
    IsXmlText (cs ++ ds) ↔ IsXmlText cs ∧ IsXmlText ds :=
  List.forall_mem_append

theorem IsXmlText.subset {cs ds : List Char} (h : IsXmlText ds) (hSubset : cs ⊆ ds) :
    IsXmlText cs :=
  fun c hc => h c (hSubset hc)

theorem IsXmlText.not_mem {cs : List Char} (h : IsXmlText cs) {c : Char} (hc : ¬ IsXmlChar c) :
    c ∉ cs :=
  fun hMem => hc (h c hMem)

theorem isXmlText_intercalate {separator : String} {parts : List String}
    (hSeparator : IsXmlText separator.toList) (h : ∀ part ∈ parts, IsXmlText part.toList) :
    IsXmlText (separator.intercalate parts).toList := by
  intro c hMem
  by_contra hc
  rw [String.toList_intercalate, mem_intercalate_iff (hSeparator.not_mem hc)] at hMem
  obtain ⟨_, hMap, hMem⟩ := hMem
  obtain ⟨part, hPart, rfl⟩ := List.mem_map.1 hMap
  exact hc (h part hPart c hMem)

/-! ### Names and types -/

theorem Token.isXmlChar_of_isNameChar {c : Char} (h : isNameChar c) : IsXmlChar c := by
  have hLast : isNameChar (Char.ofNat 0xfffe) = false ∧ isNameChar (Char.ofNat 0xffff) = false := by
    decide +kernel
  by_contra hc
  rcases not_isXmlChar_iff.1 hc with ⟨hControl, -⟩ | hNumber | hNumber
  · have hAlphanumeric := isAlphanumeric_of_isControl (c := c) (by simp [isControl, hControl])
    rw [isNameChar, hAlphanumeric, Bool.false_or, beq_iff_eq] at h
    exact hc (h ▸ by decide)
  · rw [← hNumber, Char.ofNat_toNat, h] at hLast
    cases hLast.1
  · rw [← hNumber, Char.ofNat_toNat, h] at hLast
    cases hLast.2

theorem Token.IsName.isXmlText {cs : List Char} (h : IsName cs) : IsXmlText cs :=
  fun c hc => isXmlChar_of_isNameChar (h.2 c hc)

/-! ### Numbers -/

namespace Decimal

theorem isXmlText_toDigits (n : Nat) : IsXmlText (Nat.toDigits 10 n) := by
  intro c hc
  have hDigit : 48 ≤ c.toNat ∧ c.toNat ≤ 57 :=
    Char.isDigit_iff_toNat.1 (Nat.isDigit_of_mem_toDigits (by decide) (by decide) hc)
  rw [IsXmlChar]
  omega

theorem isXmlText_replicate (n : Nat) : IsXmlText (List.replicate n '0') := by
  intro c hc
  obtain rfl := List.eq_of_mem_replicate hc
  decide

theorem isXmlText_positional (d : Digits) : IsXmlText d.positional.toList := by
  have hDigits := isXmlText_toDigits d.digits
  unfold Digits.positional
  dsimp only
  split
  · rw [String.toList_ofList]
    exact isXmlText_append_iff.2 ⟨hDigits, isXmlText_replicate _⟩
  · rename_i k _
    have hPadded : IsXmlText (List.replicate (k + 2 - (Nat.toDigits 10 d.digits).length) '0' ++
        Nat.toDigits 10 d.digits) :=
      isXmlText_append_iff.2 ⟨isXmlText_replicate _, hDigits⟩
    have hWhole (n : Nat) := hPadded.subset (List.take_subset n _)
    have hFraction (n : Nat) : IsXmlText (dropZeros (List.drop n _)) :=
      hPadded.subset fun c hc => List.mem_of_mem_drop (List.mem_reverse.1
        (List.dropWhile_subset _ (List.mem_reverse.1 hc)))
    rw [String.toList_ofList]
    split
    · exact hWhole _
    · exact isXmlText_append_iff.2 ⟨hWhole _, List.forall_mem_cons.2 ⟨by decide, hFraction _⟩⟩

theorem isXmlText_text (x : Float) : IsXmlText (text x).toList := by
  unfold text
  split
  · decide
  · split <;> decide
  · rename_i negative mantissa exponent _
    have hMagnitude : IsXmlText (if mantissa = 0 then "0"
        else (Shortest.ofBinary mantissa exponent).positional).toList := by
      split
      · decide
      · exact isXmlText_positional _
    dsimp only
    split
    · rw [String.toList_append]
      exact isXmlText_append_iff.2 ⟨by decide, hMagnitude⟩
    · exact hMagnitude

end Decimal

/-! ### Markup -/

namespace Markup

/-- The names and the values within a tag. -/
structure IsXmlTag (tag : String) (attributes : List (String × String)) : Prop where
  names : ∀ name ∈ tag :: attributes.map Prod.fst, IsXmlText name.toList
  values : ∀ value ∈ attributes.map Prod.snd, IsXmlText value.toList

section Written

variable {c : Char} (hc : ¬ IsXmlChar c)
include hc

theorem mem_escapeChar_iff (d : Char) : c ∈ escapeChar d ↔ c = d := by
  unfold escapeChar
  split
  case h_5 => rw [List.mem_singleton]
  all_goals
    exact iff_of_false (IsXmlText.not_mem (by decide) hc) (IsXmlChar.ne_of_not (by decide) hc)

theorem mem_escape_iff (s : String) : c ∈ escape s ↔ c ∈ s.toList := by
  simp [escape, mem_escapeChar_iff hc]

theorem not_mem_writeAttribute {pair : String × String} (hName : IsXmlText pair.1.toList)
    (hValue : IsXmlText pair.2.toList) : c ∉ writeAttribute pair := by
  have hBlank : c ∉ [' '] := IsXmlText.not_mem (by decide) hc
  have hEquals : c ∉ "=\"".toList := IsXmlText.not_mem (by decide) hc
  have hQuote : c ∉ ['"'] := IsXmlText.not_mem (by decide) hc
  rw [writeAttribute, ← List.singleton_append]
  simp only [List.mem_append, mem_escape_iff hc, not_or]
  exact ⟨⟨⟨⟨hBlank, hName.not_mem hc⟩, hEquals⟩, hValue.not_mem hc⟩, hQuote⟩

theorem not_mem_writeTag {tag : String} {attributes : List (String × String)}
    (h : IsXmlTag tag attributes) : c ∉ writeTag tag attributes := by
  obtain ⟨hTag, hNames⟩ := List.forall_mem_cons.1 h.names
  rw [writeTag, List.mem_append, List.mem_flatMap, not_or]
  refine ⟨hTag.not_mem hc, ?_⟩
  rintro ⟨pair, hPair, hMem⟩
  exact not_mem_writeAttribute hc (hNames _ (List.mem_map_of_mem hPair))
    (h.values _ (List.mem_map_of_mem hPair)) hMem

omit hc in
theorem mem_writeAll_iff {nodes : List Node} :
    c ∈ writeAll nodes ↔ ∃ node ∈ nodes, c ∈ node.write := by
  induction nodes with
  | nil => simp [writeAll]
  | cons node nodes ih => rw [writeAll, List.mem_append, ih, List.exists_mem_cons_iff]

theorem mem_write_text_iff (content : String) :
    c ∈ (Node.text content).write ↔ c ∈ content.toList := by
  rw [Node.write, mem_escape_iff hc]

theorem mem_write_element_iff {tag : String} {attributes : List (String × String)}
    (h : IsXmlTag tag attributes) (children : List Node) :
    c ∈ (Node.element tag attributes children).write ↔ ∃ child ∈ children, c ∈ child.write := by
  have hOpen : c ≠ '<' := IsXmlChar.ne_of_not (by decide) hc
  have hClose : c ≠ '>' := IsXmlChar.ne_of_not (by decide) hc
  have hEnd : c ∉ "</".toList := IsXmlText.not_mem (by decide) hc
  have hTag : c ∉ tag.toList := (List.forall_mem_cons.1 h.names).1.not_mem hc
  simp only [Node.write, List.cons_append, List.mem_cons, List.mem_append, List.not_mem_nil,
    hOpen, hClose, hEnd, hTag, not_mem_writeTag hc h, mem_writeAll_iff, false_or, or_false]

theorem not_mem_write_empty {tag : String} {attributes : List (String × String)}
    (h : IsXmlTag tag attributes) : c ∉ (Node.empty tag attributes).write := by
  have hOpen : c ≠ '<' := IsXmlChar.ne_of_not (by decide) hc
  have hEnd : c ∉ " />".toList := IsXmlText.not_mem (by decide) hc
  simp only [Node.write, List.cons_append, List.mem_cons, List.mem_append, hOpen, hEnd,
    not_mem_writeTag hc h, or_false, not_false_eq_true]

theorem mem_write_block_iff {tag : String} {attributes : List (String × String)}
    (h : IsXmlTag tag attributes) (children : List Node) :
    c ∈ (block tag attributes children).write ↔ ∃ child ∈ children, c ∈ child.write := by
  have hBreak : c ∉ (Node.text "\n").write := by
    rw [mem_write_text_iff hc]
    exact IsXmlText.not_mem (by decide) hc
  rw [block, mem_write_element_iff hc h]
  simp only [List.mem_cons, List.mem_flatMap, List.not_mem_nil, or_false]
  constructor
  · rintro ⟨node, rfl | ⟨child, hChild, rfl | rfl⟩, hMem⟩
    · exact absurd hMem hBreak
    · exact ⟨_, hChild, hMem⟩
    · exact absurd hMem hBreak
  · rintro ⟨child, hChild, hMem⟩
    exact ⟨child, Or.inr ⟨child, hChild, Or.inl rfl⟩, hMem⟩

end Written

end Markup

end ErDiagram
