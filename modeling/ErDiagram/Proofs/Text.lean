import ErDiagram.Text.Alphanumeric
import ErDiagram.Text.Lines
import Mathlib.Data.List.Basic
import Mathlib.Data.List.DropRight
import Mathlib.Data.List.TakeWhile

/-! Blanks, and parts between separators. -/
namespace ErDiagram.Text

/-! ### Blanks at the ends of a text -/

/-- A text of blanks alone has nothing left. -/
theorem trimChars_eq_nil_iff {cs : List Char} : trimChars cs = [] ↔ ∀ c ∈ cs, isBlank c := by
  simp only [trimChars, List.reverse_eq_nil_iff, List.dropWhile_eq_nil_iff, List.mem_reverse]
  constructor
  · intro h c hc
    rw [← List.takeWhile_append_dropWhile (p := isBlank) (l := cs)] at hc
    rcases List.mem_append.1 hc with hTake | hDrop
    · exact List.mem_takeWhile_imp hTake
    · exact h c hDrop
  · intro h c hc
    exact h c ((List.dropWhile_suffix _).mem hc)

/-- No blank stands at either end of the text. -/
structure IsTrimmed (cs : List Char) : Prop where
  head : ∀ c ∈ cs.head?, isBlank c = false
  last : ∀ c ∈ cs.getLast?, isBlank c = false

theorem dropWhile_eq_self {α : Type} {p : α → Bool} {cs : List α}
    (h : ∀ c ∈ cs.head?, p c = false) : cs.dropWhile p = cs := by
  cases cs with
  | nil => rfl
  | cons c cs => rw [List.dropWhile_cons_of_neg (by simp [h c rfl])]

/-- What ends a class of characters cuts them off. -/
theorem span_append {α : Type} {p : α → Bool} {cs rest : List α} (hcs : ∀ c ∈ cs, p c)
    (hRest : ∀ c ∈ rest.head?, p c = false) :
    (cs ++ rest).takeWhile p = cs ∧ (cs ++ rest).dropWhile p = rest := by
  rw [List.takeWhile_append_of_pos hcs, List.dropWhile_append_of_pos hcs, dropWhile_eq_self hRest]
  cases rest with
  | nil => simp
  | cons c rest =>
      rw [List.takeWhile_cons_of_neg (by simp [hRest c rfl]), List.append_nil]
      exact ⟨rfl, rfl⟩

/-- Nothing is dropped where no blank stands at an end. -/
theorem IsTrimmed.trimChars_eq {cs : List Char} (h : IsTrimmed cs) : trimChars cs = cs := by
  have hLast : ∀ c ∈ cs.reverse.head?, isBlank c = false := by
    rw [List.head?_reverse]
    exact h.last
  rw [trimChars, dropWhile_eq_self h.head, dropWhile_eq_self hLast, List.reverse_reverse]

theorem IsTrimmed.append {cs ds es : List Char} (hFirst : IsTrimmed cs) (hLast : IsTrimmed es)
    (hcs : cs ≠ []) (hes : es ≠ []) : IsTrimmed (cs ++ ds ++ es) := by
  constructor
  · rw [List.append_assoc, List.head?_append_of_ne_nil _ hcs]
    exact hFirst.head
  · rw [List.getLast?_append_of_ne_nil _ hes]
    exact hLast.last

/-- Blanks in front of a text do not count. -/
theorem trimChars_append_left {front : List Char} (hFront : ∀ c ∈ front, isBlank c)
    (cs : List Char) : trimChars (front ++ cs) = trimChars cs := by
  rw [trimChars, List.dropWhile_append_of_pos hFront, ← trimChars]

/-- Neither do blanks behind it. -/
theorem trimChars_append_right (cs : List Char) {back : List Char}
    (hBack : ∀ c ∈ back, isBlank c) : trimChars (cs ++ back) = trimChars cs := by
  by_cases hBlank : ∀ c ∈ cs, isBlank c
  · have hNone := trimChars_append_left hBlank back
    rw [trimChars_eq_nil_iff.2 hBack] at hNone
    rw [hNone, trimChars_eq_nil_iff.2 hBlank]
  · have hFront : (cs.dropWhile isBlank).isEmpty = false := by
      rwa [List.isEmpty_eq_false_iff, Ne, List.dropWhile_eq_nil_iff]
    have hReverse : ∀ c ∈ back.reverse, isBlank c := by simpa using hBack
    rw [trimChars, trimChars, List.dropWhile_append, hFront, if_neg Bool.false_ne_true,
      List.reverse_append, List.dropWhile_append_of_pos hReverse]

theorem trimChars_eq_rdropWhile (cs : List Char) :
    trimChars cs = (cs.dropWhile isBlank).rdropWhile isBlank := rfl

theorem trimChars_subset (cs : List Char) : trimChars cs ⊆ cs := by
  have hPrefix : trimChars cs <+: cs.dropWhile isBlank := List.rdropWhile_prefix ..
  exact fun _ hc => (List.dropWhile_suffix _).mem (hPrefix.mem hc)

/-- Trimming leaves no blank at either end. -/
theorem isTrimmed_trimChars (cs : List Char) : IsTrimmed (trimChars cs) := by
  constructor
  · intro c hc
    obtain ⟨more, hMore⟩ : trimChars cs <+: cs.dropWhile isBlank := List.rdropWhile_prefix ..
    obtain ⟨rest, hRest⟩ := List.head?_eq_some_iff.1 hc
    have hHead := List.head?_dropWhile_not isBlank cs
    rw [← hMore, hRest] at hHead
    simpa using hHead
  · intro c hc
    rw [trimChars_eq_rdropWhile] at hc
    obtain ⟨hNe, rfl⟩ := List.mem_getLast?_eq_getLast hc
    simpa using List.rdropWhile_last_not isBlank _ hNe

/-! ### Parts between separators -/

theorem not_mem_of_mem_splitOn {separator : Char} {cs part : List Char}
    (h : part ∈ splitOn separator cs) : separator ∉ part := by
  induction cs generalizing part with
  | nil =>
      obtain rfl := List.mem_singleton.1 h
      simp
  | cons c cs ih =>
      rw [splitOn] at h
      split at h
      · rcases List.mem_cons.1 h with rfl | hLater
        · simp
        · exact ih hLater
      · rename_i hc
        split at h
        · exact absurd ‹_› (splitOn_ne_nil _ _)
        · rename_i first later hSplit
          rcases List.mem_cons.1 h with rfl | hLater
          · have hFirst := ih (hSplit ▸ List.mem_cons_self)
            simp [Ne.symm hc, hFirst]
          · exact ih (hSplit ▸ List.mem_cons_of_mem _ hLater)

theorem splitOn_of_not_mem {separator : Char} {part : List Char} (h : separator ∉ part) :
    splitOn separator part = [part] := by
  induction part with
  | nil => rfl
  | cons c part ih =>
      rw [List.mem_cons, not_or] at h
      rw [splitOn, if_neg (Ne.symm h.1), ih h.2]

theorem splitOn_append {separator : Char} {part : List Char} (h : separator ∉ part)
    (cs : List Char) :
    splitOn separator (part ++ separator :: cs) = part :: splitOn separator cs := by
  induction part with
  | nil => simp [splitOn]
  | cons c part ih =>
      rw [List.mem_cons, not_or] at h
      rw [List.cons_append, splitOn, if_neg (Ne.symm h.1), ih h.2]

/-- Joined parts are split up again, if none of them has the separator. -/
theorem splitOn_intercalate {separator : Char} {parts : List (List Char)} (hNe : parts ≠ [])
    (h : ∀ part ∈ parts, separator ∉ part) :
    splitOn separator ([separator].intercalate parts) = parts := by
  induction parts with
  | nil => exact absurd rfl hNe
  | cons part parts ih =>
      obtain ⟨hHere, hLater⟩ := List.forall_mem_cons.1 h
      cases parts with
      | nil => simpa [List.intercalate] using splitOn_of_not_mem hHere
      | cons next parts =>
          rw [List.intercalate_cons_cons, List.append_assoc, List.singleton_append,
            splitOn_append hHere, ih (List.cons_ne_nil _ _) hLater]

/-- Joining adds no characters but those of the separator. -/
theorem mem_intercalate_iff {c : Char} {separator : List Char} (hc : c ∉ separator)
    {parts : List (List Char)} : c ∈ separator.intercalate parts ↔ ∃ part ∈ parts, c ∈ part := by
  induction parts with
  | nil => simp [List.intercalate]
  | cons part parts ih =>
      cases parts with
      | nil => simp [List.intercalate]
      | cons next parts =>
          rw [List.intercalate_cons_cons, List.mem_append, List.mem_append, or_iff_left hc, ih,
            List.exists_mem_cons_iff _ part]

/-- The parts of a text make it up again. -/
theorem intercalate_splitOn (separator : Char) (cs : List Char) :
    [separator].intercalate (splitOn separator cs) = cs := by
  induction cs with
  | nil => simp [splitOn, List.intercalate]
  | cons c cs ih =>
      cases hSplit : splitOn separator cs with
      | nil => exact absurd hSplit (splitOn_ne_nil _ _)
      | cons part later =>
          rw [hSplit] at ih
          by_cases hc : c = separator
          · rw [splitOn, if_pos hc, hSplit, List.intercalate_cons_cons, ih, hc]
            rfl
          · simp only [splitOn, if_neg hc, hSplit]
            cases later with
            | nil => simpa [List.intercalate] using ih
            | cons next later =>
                rw [List.intercalate_cons_cons] at ih ⊢
                rw [List.cons_append, List.cons_append, ih]

theorem subset_of_mem_splitOn {separator : Char} {cs part : List Char}
    (h : part ∈ splitOn separator cs) : part ⊆ cs := by
  intro c hc
  have hSeparator : c ∉ [separator] := by
    intro hMem
    obtain rfl := List.mem_singleton.1 hMem
    exact not_mem_of_mem_splitOn h hc
  rw [← intercalate_splitOn separator cs, mem_intercalate_iff hSeparator]
  exact ⟨part, h, hc⟩

theorem splitOn_head? (separator : Char) (cs : List Char) :
    (splitOn separator cs)[0]? = some (cs.takeWhile (· ≠ separator)) := by
  induction cs with
  | nil => rfl
  | cons c cs ih =>
      by_cases hc : c = separator
      · simp [splitOn, hc]
      · cases hSplit : splitOn separator cs with
        | nil => exact absurd hSplit (splitOn_ne_nil _ _)
        | cons part later =>
            rw [hSplit] at ih
            obtain rfl : part = cs.takeWhile (· ≠ separator) := by simpa using ih
            simp [splitOn, hc, hSplit]

theorem rtakeWhile_append_cons {p : Char → Bool} {c : Char} (hc : p c = false)
    (cs ds : List Char) : (cs ++ c :: ds).rtakeWhile p = ds.rtakeWhile p := by
  have hStop : (c :: cs.reverse).takeWhile p = [] := List.takeWhile_cons_of_neg (by simp [hc])
  have hReverse : (cs ++ c :: ds).reverse = ds.reverse ++ c :: cs.reverse := by simp
  rw [List.rtakeWhile, List.rtakeWhile, hReverse, List.takeWhile_append, hStop, List.append_nil]
  split
  · rename_i hLength
    rw [(List.takeWhile_prefix p).eq_of_length hLength]
  · rfl

/-- The part in which a place of the text lies: what stands before it behind the last separator,
and what follows up to the next one. -/
theorem splitOn_count (separator : Char) (ahead behind : List Char) :
    (splitOn separator (ahead ++ behind))[ahead.count separator]? =
      some (ahead.rtakeWhile (· ≠ separator) ++ behind.takeWhile (· ≠ separator)) := by
  induction hCount : ahead.count separator generalizing ahead with
  | zero =>
      have hNot : separator ∉ ahead := List.count_eq_zero.1 hCount
      have hAll : ∀ c ∈ ahead, decide (c ≠ separator) = true := fun c hc =>
        decide_eq_true (ne_of_mem_of_not_mem hc hNot)
      rw [splitOn_head?, List.takeWhile_append_of_pos hAll, List.rtakeWhile_eq_self_iff.2 hAll]
  | succ n ih =>
      have hMem : separator ∈ ahead := List.count_pos_iff.1 (by omega)
      obtain ⟨part, later, rfl, hPart⟩ := List.eq_append_cons_of_mem hMem
      have hLater : later.count separator = n := by
        rw [List.count_append, List.count_cons_self, List.count_eq_zero.2 hPart] at hCount
        omega
      rw [List.append_assoc, List.cons_append, splitOn_append hPart, List.getElem?_cons_succ,
        ih later hLater, rtakeWhile_append_cons (by simp)]

/-! ### Slices -/

theorem takeBytes_subset (bytes : Nat) (cs : List Char) : takeBytes bytes cs ⊆ cs := by
  fun_induction takeBytes bytes cs with
  | case1 => exact List.nil_subset _
  | case2 _ c _ _ ih => exact List.cons_subset_cons c ih
  | case3 => exact List.nil_subset _

theorem dropBytes_subset (bytes : Nat) (cs : List Char) : dropBytes bytes cs ⊆ cs := by
  fun_induction dropBytes bytes cs with
  | case1 => exact List.Subset.refl _
  | case2 => exact List.nil_subset _
  | case3 _ c _ ih => exact List.subset_cons_of_subset c ih

theorem slice_subset (start stop : Nat) (cs : List Char) : slice start stop cs ⊆ cs :=
  List.Subset.trans (takeBytes_subset _ _) (dropBytes_subset _ _)

/-! ### Blanks and letters -/

/-- All blank characters, by their numbers. -/
def blankNumbers : List Nat :=
  [9, 10, 11, 12, 13, 0x20, 0x85, 0xa0, 0x1680, 0x2000, 0x2001, 0x2002, 0x2003, 0x2004, 0x2005,
    0x2006, 0x2007, 0x2008, 0x2009, 0x200a, 0x2028, 0x2029, 0x202f, 0x205f, 0x3000]

theorem mem_blankNumbers {c : Char} (h : isBlank c) : c.toNat ∈ blankNumbers := by
  simp only [isBlank, Bool.or_eq_true, Bool.and_eq_true, decide_eq_true_eq, beq_iff_eq] at h
  simp only [blankNumbers, List.mem_cons, List.not_mem_nil, or_false]
  omega

/-- No blank is a letter or a number. -/
theorem isAlphanumeric_of_isBlank {c : Char} (h : isBlank c) : isAlphanumeric c = false := by
  have hAll : ∀ n ∈ blankNumbers, isAlphanumeric (Char.ofNat n) = false := by decide +kernel
  rw [← Char.ofNat_toNat c]
  exact hAll _ (mem_blankNumbers h)

end ErDiagram.Text
