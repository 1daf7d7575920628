import ErDiagram.Proofs.Grammar.Acceptance
import ErDiagram.Proofs.Scanning.Yields

/-! The canonical text of tables, one line for each attribute. Reading it gives the tables back. -/
namespace ErDiagram

/-! ### Writing -/

/-- Flags in parentheses, with commas between them. Without flags there are no parentheses. -/
def writeFlags : List String → List Char
  | [] => []
  | first :: others =>
      ['('] ++ (first.toList ++ (others.flatMap (fun flag => [','] ++ flag.toList) ++ [')']))

def writeQuestion (isOptional : Bool) : List Char := if isOptional then ['?'] else []

def writeTarget : Target → List Char
  | .typed text => [':'] ++ ([' '] ++ text.toList)
  | .reference table attr =>
      [' '] ++ (['-', '>'] ++ ([' '] ++ (table.toList ++ (['.'] ++ attr.toList))))

def Note.segment (n : Note) : List Char := n.key.toList ++ '=' :: n.value.toList

/-- Notes with commas between them, as one text in quotes. Without notes there is no such text. -/
def writeNotes (notes : List Note) : List Char :=
  if notes = [] then []
  else [' '] ++ Token.writeText ([','].intercalate (notes.map Note.segment))

def Attribute.text (a : Attribute) : List Char :=
  a.name.toList ++
    (writeFlags a.flags ++ writeQuestion a.isOptional ++ writeTarget a.target ++
      writeNotes a.notes)

def Table.headText (t : Table) : List Char :=
  "table".toList ++ ([' '] ++ (t.name.toList ++ ([' '] ++ ['{'])))

/-- Attributes line by line, and the closing brace. -/
def blockText (attributes : List Attribute) : List Char :=
  attributes.flatMap (fun a => a.text ++ ['\n']) ++ ['}']

def Table.text (t : Table) : List Char :=
  t.headText ++ (['\n'] ++ blockText t.attributes)

def tablesText (ds : List Table) : List Char := ds.flatMap fun t => t.text ++ ['\n']

/-- The text from which the tables are read again. -/
def canonicalText (ds : List Table) : String := String.ofList (tablesText ds)

end ErDiagram

namespace ErDiagram.Grammar

open Token Text

/-! ### Marks and words -/

theorem yields_mark {c : Char} {t : Token} (rest : List Char)
    (hLexeme : lexeme c rest = .ok ⟨t, [c], rest⟩) (hStop : isBlank c = false ∧ c ≠ '#')
    (hToken : t ≠ lineBreak) (line offset : Nat) :
    ∃ p : Place, Yields line offset [c] rest [p.mark t] line := by
  have hFirst : lexeme c ([] ++ rest) = .ok ⟨t, [c], rest⟩ := hLexeme
  have hYields := yields_lexeme (Or.inr hStop) hFirst line offset
  rw [lineAfter, if_neg hToken] at hYields
  exact ⟨⟨line, offset, offset + byteLength [c]⟩, hYields⟩

theorem yields_lineBreak (rest : List Char) (line offset : Nat) :
    ∃ p : Place, Yields line offset ['\n'] rest [p.mark .lineBreak] (line + 1) :=
  ⟨⟨line, offset, offset + byteLength ['\n']⟩, yields_lexeme (Or.inl rfl) rfl line offset⟩

theorem yields_space (rest : List Char) (line offset : Nat) :
    Yields line offset [' '] rest [] line :=
  yields_blank (by decide) (by decide) line offset rest

theorem yields_word {name : String} {rest : List Char} (hName : IsName name.toList)
    (hRest : EndsName rest) (line offset : Nat) :
    ∃ w : Word, Yields line offset name.toList rest [w.token] line ∧ w.name = name := by
  have hYields := yields_name hName hRest line offset
  rw [String.ofList_toList] at hYields
  exact ⟨⟨name, line, offset, offset + byteLength name.toList⟩, hYields, rfl⟩

theorem yields_question (isOptional : Bool) (rest : List Char) (line offset : Nat) :
    ∃ q : Option Place, Yields line offset (writeQuestion isOptional) rest (questionTokens q) line ∧
      q.isSome = isOptional := by
  cases isOptional with
  | false => exact ⟨none, Yields.nil line offset rest, rfl⟩
  | true =>
      obtain ⟨p, hYields⟩ := yields_mark (c := '?') rest rfl (by decide) (by decide) line offset
      exact ⟨some p, hYields, rfl⟩

/-! ### Attributes -/

theorem yields_moreFlags {flags : List String} (hNames : ∀ flag ∈ flags, IsName flag.toList)
    {rest : List Char} (hRest : EndsName rest) (line offset : Nat) :
    ∃ fs : List (Place × Word),
      Yields line offset (flags.flatMap fun flag => [','] ++ flag.toList) rest (commaTokens fs)
        line ∧ fs.map (·.2.name) = flags := by
  induction flags generalizing offset with
  | nil => exact ⟨[], Yields.nil line offset rest, rfl⟩
  | cons flag flags ih =>
      obtain ⟨hHere, hLater⟩ := List.forall_mem_cons.1 hNames
      have hEnds : EndsName ((flags.flatMap fun flag => [','] ++ flag.toList) ++ rest) := by
        cases flags with
        | nil => exact hRest
        | cons => exact endsName_cons.2 (by decide)
      obtain ⟨p, hComma⟩ := yields_mark (c := ',') _ rfl (by decide) (by decide) line offset
      obtain ⟨w, hWord, hName⟩ := yields_word hHere hEnds line _
      obtain ⟨fs, hMore, hFlags⟩ := ih hLater _
      refine ⟨(p, w) :: fs, (hComma.append hWord).append hMore, ?_⟩
      rw [List.map_cons, hName, hFlags]

theorem yields_flagList {flags : List String} (hNames : ∀ flag ∈ flags, IsName flag.toList)
    (hNe : flags ≠ []) (rest : List Char) (line offset : Nat) :
    ∃ f : FlagList, Yields line offset (writeFlags flags) rest f.tokens line ∧
      f.names = flags := by
  cases flags with
  | nil => exact absurd rfl hNe
  | cons first others =>
      obtain ⟨hFirst, hOthers⟩ := List.forall_mem_cons.1 hNames
      have hEnds : EndsName ([')'] ++ rest) := endsName_cons.2 (by decide)
      have hFirstEnds : EndsName
          ((others.flatMap fun flag => [','] ++ flag.toList) ++ [')'] ++ rest) := by
        cases others with
        | nil => exact hEnds
        | cons => exact endsName_cons.2 (by decide)
      obtain ⟨p, hOpen⟩ := yields_mark (c := '(') _ rfl (by decide) (by decide) line offset
      obtain ⟨w, hWord, hName⟩ := yields_word hFirst hFirstEnds line _
      obtain ⟨fs, hMore, hFlags⟩ := yields_moreFlags hOthers hEnds line _
      obtain ⟨q, hClose⟩ := yields_mark (c := ')') rest rfl (by decide) (by decide) line _
      refine ⟨⟨p, w, fs, q⟩, hOpen.append (hWord.append (hMore.append hClose)), ?_⟩
      rw [FlagList.names, hName, hFlags]

/-- A question mark stands behind flags, so it is the first mark only without them. -/
theorem yields_marks {flags : List String} (hNames : ∀ flag ∈ flags, IsName flag.toList)
    (isOptional : Bool) (rest : List Char) (line offset : Nat) :
    ∃ m : Marks, Yields line offset (writeFlags flags ++ writeQuestion isOptional) rest m.tokens
      line ∧ m.hasQuestion = isOptional ∧ m.flagNames = flags := by
  by_cases hNone : flags = []
  · subst hNone
    obtain ⟨q, hQuestion, hSome⟩ := yields_question isOptional rest line offset
    refine ⟨.questionFirst q none, ?_, hSome, rfl⟩
    rw [Marks.tokens, Option.toList_none, List.flatMap_nil, List.append_nil]
    exact hQuestion
  · obtain ⟨f, hFlags, hFlagNames⟩ := yields_flagList hNames hNone
      (writeQuestion isOptional ++ rest) line offset
    cases isOptional with
    | false =>
        refine ⟨.questionFirst none (some f), ?_, rfl, hFlagNames⟩
        rw [Marks.tokens, Option.toList_some, List.flatMap_singleton, writeQuestion,
          if_neg (by decide), List.append_nil]
        exact hFlags
    | true =>
        obtain ⟨q, hQuestion⟩ := yields_mark (c := '?') rest rfl (by decide) (by decide) line _
        exact ⟨.questionLast f q, hFlags.append hQuestion, rfl, hFlagNames⟩

/-- The tokens of a type take all of its text. -/
theorem yields_typeRun {text rest : List Char} (hText : IsTypeText text) (hRest : EndsName rest)
    (hArrow : ∀ c ∈ rest.head?, c ≠ '>') (line offset : Nat) :
    ∃ r : TypeRun, Yields line offset text rest r.tokens line ∧ r.first.start = offset ∧
      r.last.stop = offset + byteLength text := by
  obtain ⟨ts, hYields, hPiece⟩ := yields_type hText.fits hRest hArrow line offset
  cases text with
  | nil => exact absurd rfl hText.ne_nil
  | cons c more =>
      obtain ⟨t, ht, hStart⟩ := hPiece.first c rfl (hText.trimmed.head c rfl)
      cases ts with
      | nil => cases ht
      | cons first others =>
          obtain rfl := Option.some.inj ht
          have hLast := List.getLast?_eq_some_getLast (List.cons_ne_nil c more)
          obtain ⟨u, hu, hStop⟩ := hPiece.last _ hLast (hText.trimmed.last _ hLast)
          rw [List.getLast?_eq_some_getLast (List.cons_ne_nil _ _)] at hu
          obtain rfl := Option.some.inj hu
          exact ⟨⟨first, others, hPiece.inType⟩, hYields, hStart, hStop⟩

/-! ### Captions -/

theorem segmentNote_segment {n : Note} (h : n.IsWellFormed) : segmentNote n.segment = n := by
  have hKey : ∀ c ∈ n.key.toList, (decide (c ≠ '=')) = true := by
    rintro c hc
    rw [decide_eq_true_iff]
    rintro rfl
    exact h.equals_not_mem hc
  have hTake : n.segment.takeWhile (· ≠ '=') = n.key.toList := by
    rw [Note.segment, List.takeWhile_append_of_pos hKey, List.takeWhile_cons_of_neg (by simp),
      List.append_nil]
  have hDrop : n.segment.dropWhile (· ≠ '=') = '=' :: n.value.toList := by
    rw [Note.segment, List.dropWhile_append_of_pos hKey, List.dropWhile_cons_of_neg (by simp)]
  rw [segmentNote, hTake, hDrop, List.tail_cons, h.key_trimmed.trimChars_eq,
    h.value_trimmed.trimChars_eq, String.ofList_toList, String.ofList_toList]

theorem equals_mem_segment (n : Note) : '=' ∈ n.segment :=
  List.mem_append_right _ List.mem_cons_self

/-- The segments of a written caption are the written notes. -/
theorem notes_of_segments {ns : List Note} (hNotes : ∀ n ∈ ns, n.IsWellFormed) (hNe : ns ≠ [])
    {a : Caption} (hContent : a.content.toList = [','].intercalate (ns.map Note.segment)) :
    a.IsLegible ∧ a.notes = ns := by
  have hComma : ∀ part ∈ ns.map Note.segment, ',' ∉ part := by
    intro part hPart
    obtain ⟨n, hn, rfl⟩ := List.mem_map.1 hPart
    simp [Note.segment, (hNotes n hn).comma_not_mem_key, (hNotes n hn).comma_not_mem_value]
  have hSegments : a.segments = ns.map Note.segment := by
    rw [Caption.segments, hContent, splitOn_intercalate (by simpa using hNe) hComma]
  have hNotBlank : ¬ a.IsBlank := by
    intro hBlank
    obtain ⟨n, hn⟩ := List.exists_mem_of_ne_nil ns hNe
    have hEquals : '=' ∈ [','].intercalate (ns.map Note.segment) :=
      (mem_intercalate_iff (by decide)).2 ⟨_, List.mem_map_of_mem hn, equals_mem_segment n⟩
    rw [← hContent] at hEquals
    exact absurd (hBlank _ hEquals) (by decide)
  constructor
  · right
    intro segment hSegment
    rw [hSegments] at hSegment
    obtain ⟨n, -, rfl⟩ := List.mem_map.1 hSegment
    exact equals_mem_segment n
  · rw [Caption.notes, if_neg hNotBlank, hSegments, List.map_map]
    exact (List.map_congr_left fun n hn => segmentNote_segment (hNotes n hn)).trans
      (List.map_id ns)

theorem yields_notes {ns : List Note} (hNotes : ∀ n ∈ ns, n.IsWellFormed) (rest : List Char)
    (line offset : Nat) :
    ∃ a : Option Caption, Yields line offset (writeNotes ns) rest (captionTokens a) line ∧
      (∀ caption ∈ a, caption.IsLegible) ∧ (a.map Caption.notes).getD [] = ns := by
  by_cases hNone : ns = []
  · rw [writeNotes, if_pos hNone]
    exact ⟨none, Yields.nil line offset rest, by simp, hNone.symm⟩
  · rw [writeNotes, if_neg hNone]
    let content := [','].intercalate (ns.map Note.segment)
    have hText := yields_text content rest line (offset + byteLength [' '])
    let a : Caption := ⟨String.ofList content, line, offset + byteLength [' '],
      offset + byteLength [' '] + byteLength (writeText content)⟩
    obtain ⟨hLegible, hRead⟩ := notes_of_segments (a := a) hNotes hNone String.toList_ofList
    refine ⟨some a, (yields_space _ line offset).append hText, ?_, hRead⟩
    rintro caption ⟨⟩
    exact hLegible

/-! ### Lines and tables -/

theorem TypeRun.text_eq {source before text behind : List Char} {r : TypeRun}
    (hSource : source = before ++ text ++ behind) (hStart : r.first.start = byteLength before)
    (hStop : r.last.stop = byteLength (before ++ text)) : r.text source = String.ofList text := by
  rw [TypeRun.text, hStart, hStop, hSource, slice_append]

theorem yields_target {a : Attribute} (h : a.IsWellFormed) {rest : List Char}
    (hRest : EndsName rest) (hArrow : ∀ c ∈ rest.head?, c ≠ '>') (line offset : Nat) :
    ∃ t : TargetTree,
      Yields line offset (writeFlags a.flags ++ writeQuestion a.isOptional ++ writeTarget a.target)
        rest t.tokens line ∧
      t.isOptional = a.isOptional ∧ t.flagNames = a.flags ∧
      ∀ before behind, byteLength before = offset →
        t.spelled (before ++ (writeFlags a.flags ++ writeQuestion a.isOptional ++
          writeTarget a.target) ++ behind) = a.target := by
  obtain ⟨name, isOptional, flags, notes, target⟩ := a
  cases target with
  | typed text =>
      obtain ⟨m, hMarks, hOptional, hFlags⟩ := yields_marks h.flags isOptional
        ([':'] ++ ([' '] ++ text.toList) ++ rest) line offset
      obtain ⟨p, hColon⟩ := yields_mark (c := ':') _ rfl (by decide) (by decide) line _
      have hSpace := yields_space (text.toList ++ rest) line
      obtain ⟨r, hType, hStart, hStop⟩ := yields_typeRun h.target hRest hArrow line _
      refine ⟨.typed m p r, hMarks.append (hColon.append ((hSpace _).append hType)), hOptional,
        hFlags, ?_⟩
      intro before behind hBefore
      let ahead := before ++ (writeFlags flags ++ writeQuestion isOptional ++ [':'] ++ [' '])
      have hSource : before ++ (writeFlags flags ++ writeQuestion isOptional ++
          writeTarget (.typed text)) ++ behind = ahead ++ text.toList ++ behind := by
        simp [ahead, writeTarget]
      have hText := TypeRun.text_eq hSource (r := r)
        (by rw [hStart, ← hBefore]; simp [ahead, Nat.add_assoc])
        (by rw [hStop, ← hBefore]; simp [ahead, Nat.add_assoc])
      rw [String.ofList_toList] at hText
      exact congrArg Target.typed hText
  | reference table attr =>
      obtain rfl : flags = [] := h.flags_of_reference rfl
      obtain ⟨hTable, hAttr⟩ := h.target
      have hDotEnds : EndsName (['.'] ++ attr.toList ++ rest) := endsName_cons.2 (by decide)
      have hArrowText : lexeme '-' (['>'] ++ ([' '] ++ (table.toList ++ (['.'] ++ attr.toList)) ++
          rest)) = .ok ⟨.arrow, ['-', '>'], _⟩ := rfl
      obtain ⟨q, hQuestion, hOptional⟩ := yields_question isOptional
        (writeTarget (.reference table attr) ++ rest) line offset
      have hSpace := yields_space (['-', '>'] ++ ([' '] ++ (table.toList ++ (['.'] ++
        attr.toList))) ++ rest) line
      have hArrowYields := yields_lexeme (Or.inr ⟨by decide, by decide⟩) hArrowText line
      have hNext := yields_space (table.toList ++ (['.'] ++ attr.toList) ++ rest) line
      obtain ⟨t, hTableYields, hTableName⟩ := yields_word hTable hDotEnds line _
      obtain ⟨d, hDot⟩ := yields_mark (c := '.') _ rfl (by decide) (by decide) line _
      obtain ⟨w, hAttrYields, hAttrName⟩ := yields_word hAttr hRest line _
      let start := offset + byteLength (writeQuestion isOptional) + byteLength [' ']
      let arrow : Place := ⟨line, start, start + byteLength ['-', '>']⟩
      refine ⟨.reference q arrow t d w, hQuestion.append ((hSpace _).append
        ((hArrowYields start).append ((hNext _).append (hTableYields.append
          (hDot.append hAttrYields))))), hOptional, rfl, ?_⟩
      intro before behind hBefore
      rw [TargetTree.spelled, hTableName, hAttrName]

/-- What follows the name of an attribute ends the name. -/
theorem endsName_marks (a : Attribute) (rest : List Char) :
    EndsName (writeFlags a.flags ++ writeQuestion a.isOptional ++ writeTarget a.target ++
      rest) := by
  obtain ⟨name, isOptional, flags, notes, target⟩ := a
  cases flags with
  | cons => exact endsName_cons.2 (by decide)
  | nil =>
      cases isOptional with
      | true => exact endsName_cons.2 (by decide)
      | false => cases target <;> exact endsName_cons.2 (by decide)

theorem notes_head {ns : List Note} {rest : List Char} :
    ∀ c ∈ (writeNotes ns ++ '\n' :: rest).head?, c = ' ' ∨ c = '\n' := by
  intro c hc
  by_cases hNone : ns = []
  · rw [writeNotes, if_pos hNone] at hc
    exact Or.inr (Option.some.inj hc).symm
  · rw [writeNotes, if_neg hNone] at hc
    exact Or.inl (Option.some.inj hc).symm

theorem yields_attribute {a : Attribute} (h : a.IsWellFormed) (rest : List Char)
    (line offset : Nat) :
    ∃ tree : AttrTree, Yields line offset a.text ('\n' :: rest) tree.tokens line ∧
      tree.IsLegible ∧ ∀ before behind, byteLength before = offset →
        tree.spelled (before ++ a.text ++ behind) = a := by
  have hEnds : EndsName (writeNotes a.notes ++ '\n' :: rest) := by
    intro c hc
    rcases notes_head c hc with rfl | rfl <;> decide
  have hArrow : ∀ c ∈ (writeNotes a.notes ++ '\n' :: rest).head?, c ≠ '>' := by
    intro c hc
    rcases notes_head c hc with rfl | rfl <;> decide
  have hNameEnds : EndsName (writeFlags a.flags ++ writeQuestion a.isOptional ++
      writeTarget a.target ++ writeNotes a.notes ++ '\n' :: rest) := by
    rw [List.append_assoc]
    exact endsName_marks a _
  obtain ⟨w, hName, hNameEq⟩ := yields_word h.name hNameEnds line offset
  obtain ⟨t, hTarget, hOptional, hFlags, hSpelled⟩ := yields_target h hEnds hArrow line _
  obtain ⟨c, hNotes, hLegible, hRead⟩ := yields_notes h.notes ('\n' :: rest) line _
  refine ⟨⟨w, t, c⟩, hName.append (hTarget.append hNotes), hLegible, ?_⟩
  intro before behind hBefore
  have hAhead : byteLength (before ++ a.name.toList) = offset + byteLength a.name.toList := by
    rw [byteLength_append, hBefore]
  have hHere := hSpelled (before ++ a.name.toList) (writeNotes a.notes ++ behind) hAhead
  have hSource : before ++ a.text ++ behind = before ++ a.name.toList ++ (writeFlags a.flags ++
      writeQuestion a.isOptional ++ writeTarget a.target) ++ (writeNotes a.notes ++ behind) := by
    simp [Attribute.text]
  rw [AttrTree.spelled, hNameEq, hOptional, hFlags, hRead, hSource, hHere]

theorem blockText_cons (a : Attribute) (attrs : List Attribute) :
    blockText (a :: attrs) = a.text ++ ['\n'] ++ blockText attrs := by
  rw [blockText, List.flatMap_cons, List.append_assoc]
  rfl

theorem yields_block {attrs : List Attribute} (h : ∀ a ∈ attrs, a.IsWellFormed) (rest : List Char)
    (line offset : Nat) :
    ∃ (b : BlockTree) (next : Nat), Yields line offset (blockText attrs) rest b.tokens next ∧
      b.IsLegible ∧ ∀ before behind, byteLength before = offset →
        b.attrs.map (AttrTree.spelled (before ++ blockText attrs ++ behind)) = attrs := by
  induction attrs generalizing line offset with
  | nil =>
      obtain ⟨p, hClose⟩ := yields_mark (c := '}') rest rfl (by decide) (by decide) line offset
      exact ⟨.close p, line, hClose, by simp [BlockTree.IsLegible, BlockTree.attrs],
        fun _ _ _ => rfl⟩
  | cons a attrs ih =>
      obtain ⟨hHere, hLater⟩ := List.forall_mem_cons.1 h
      obtain ⟨tree, hAttr, hLegible, hSpelled⟩ :=
        yields_attribute hHere (blockText attrs ++ rest) line offset
      obtain ⟨p, hBreak⟩ := yields_lineBreak (blockText attrs ++ rest) line _
      obtain ⟨b, next, hBlock, hBlockLegible, hBlockSpelled⟩ := ih hLater (line + 1)
        (offset + byteLength (a.text ++ ['\n']))
      rw [blockText_cons]
      refine ⟨.line tree p [] b, next, (hAttr.append hBreak).append hBlock,
        List.forall_mem_cons.2 ⟨hLegible, hBlockLegible⟩, ?_⟩
      intro before behind hBefore
      have hFirst := hSpelled before (['\n'] ++ blockText attrs ++ behind) hBefore
      have hAhead : byteLength (before ++ (a.text ++ ['\n'])) =
          offset + byteLength (a.text ++ ['\n']) := by
        rw [byteLength_append, hBefore]
      have hOthers := hBlockSpelled (before ++ (a.text ++ ['\n'])) behind hAhead
      simp only [List.append_assoc] at hFirst hOthers ⊢
      rw [BlockTree.attrs, List.map_cons, hFirst, hOthers]

theorem yields_head {t : Table} (hName : IsName t.name.toList) (rest : List Char)
    (line offset : Nat) :
    ∃ (keyword : Place) (w : Word) (opening : Place), Yields line offset t.headText rest
      [keyword.mark (.ident "table"), w.token, opening.mark .openBrace] line ∧ w.name = t.name := by
  have hTable : IsName "table".toList := by decide +kernel
  have hBlank (cs : List Char) : EndsName (' ' :: cs) := endsName_cons.2 (by decide)
  obtain ⟨⟨_, keyword⟩, hKeyword, rfl⟩ := yields_word hTable
    (hBlank (t.name.toList ++ ([' '] ++ ['{']) ++ rest)) line offset
  have hSpace := yields_space (t.name.toList ++ ([' '] ++ ['{']) ++ rest) line
  obtain ⟨w, hWord, hWordName⟩ := yields_word hName (hBlank (['{'] ++ rest)) line _
  have hNext := yields_space (['{'] ++ rest) line
  obtain ⟨p, hOpen⟩ := yields_mark (c := '{') rest rfl (by decide) (by decide) line _
  exact ⟨keyword, w, p, hKeyword.append ((hSpace _).append (hWord.append ((hNext _).append
    hOpen))), hWordName⟩

theorem yields_table {t : Table} (h : t.IsWellFormed) (rest : List Char) (line offset : Nat) :
    ∃ (tree : TableTree) (next : Nat), Yields line offset t.text rest tree.tokens next ∧
      tree.block.IsLegible ∧ ∀ before behind, byteLength before = offset →
        tree.spelled (before ++ t.text ++ behind) = t := by
  obtain ⟨keyword, w, p, hHead, hName⟩ := yields_head h.name
    (['\n'] ++ blockText t.attributes ++ rest) line offset
  obtain ⟨q, hBreak⟩ := yields_lineBreak (blockText t.attributes ++ rest) line _
  obtain ⟨b, next, hBlock, hLegible, hSpelled⟩ := yields_block h.attributes rest (line + 1) _
  refine ⟨⟨keyword, w, p, [q], b⟩, next, hHead.append (hBreak.append hBlock), hLegible, ?_⟩
  intro before behind hBefore
  have hAhead : byteLength (before ++ (t.headText ++ ['\n'])) =
      offset + byteLength t.headText + byteLength ['\n'] := by
    rw [byteLength_append, byteLength_append, hBefore, Nat.add_assoc]
  have hAttrs := hSpelled (before ++ (t.headText ++ ['\n'])) behind hAhead
  simp only [List.append_assoc] at hAttrs
  rw [TableTree.spelled, hName, Table.text]
  simp only [List.append_assoc]
  rw [hAttrs]

theorem tablesText_cons (t : Table) (ds : List Table) :
    tablesText (t :: ds) = t.text ++ ['\n'] ++ tablesText ds := rfl

theorem yields_tables {ds : List Table} (h : ∀ t ∈ ds, t.IsWellFormed) (line offset : Nat) :
    ∃ (trees : List (TableTree × List Place)) (next : Nat),
      Yields line offset (tablesText ds) [] (tableTokens trees) next ∧
        (∀ entry ∈ trees, entry.1.block.IsLegible) ∧
        ∀ before, byteLength before = offset →
          trees.map (fun entry => entry.1.spelled (before ++ tablesText ds)) = ds := by
  induction ds generalizing line offset with
  | nil => exact ⟨[], line, Yields.nil line offset [], by simp, fun _ _ => rfl⟩
  | cons t ds ih =>
      obtain ⟨hHere, hLater⟩ := List.forall_mem_cons.1 h
      obtain ⟨tree, next, hTable, hLegible, hSpelled⟩ :=
        yields_table hHere (['\n'] ++ (tablesText ds ++ [])) line offset
      obtain ⟨p, hBreak⟩ := yields_lineBreak (tablesText ds ++ []) next _
      obtain ⟨trees, last, hTables, hAllLegible, hAllSpelled⟩ := ih hLater (next + 1)
        (offset + byteLength (t.text ++ ['\n']))
      rw [tablesText_cons]
      refine ⟨(tree, [p]) :: trees, last, (hTable.append hBreak).append hTables,
        List.forall_mem_cons.2 ⟨hLegible, hAllLegible⟩, ?_⟩
      intro before hBefore
      have hFirst := hSpelled before (['\n'] ++ tablesText ds) hBefore
      have hAhead : byteLength (before ++ (t.text ++ ['\n'])) =
          offset + byteLength (t.text ++ ['\n']) := by
        rw [byteLength_append, hBefore]
      have hOthers := hAllSpelled (before ++ (t.text ++ ['\n'])) hAhead
      simp only [List.append_assoc] at hFirst hOthers
      rw [List.map_cons]
      simp only [List.append_assoc]
      rw [hFirst, hOthers]

/-! ### Reading back -/

theorem Derivation.names_spelled (source : List Char) (d : Derivation) :
    (d.spelled source).map Table.name = d.tables.map fun entry => entry.1.name.name := by
  rw [Derivation.spelled, List.map_map]
  rfl

theorem TableTree.names_spelled (source : List Char) (t : TableTree) :
    (t.spelled source).attributes.map Attribute.name = t.block.attrs.map (·.name.name) := by
  rw [TableTree.spelled, List.map_map]
  rfl

/-- Names that a derivation spells without repetition stand in it without repetition. -/
theorem Derivation.isAdmissible_of_spelled {source : List Char} {d : Derivation}
    (h : WellFormed (d.spelled source)) (hLegible : ∀ entry ∈ d.tables, entry.1.block.IsLegible) :
    d.IsAdmissible := by
  refine ⟨d.names_spelled source ▸ h.nodup, fun entry hEntry => ?_, hLegible⟩
  rw [← entry.1.names_spelled source]
  exact (h.tables _ (List.mem_map_of_mem hEntry)).nodup

end ErDiagram.Grammar

namespace ErDiagram

/-- All tables that can be written down are read back from their canonical text. -/
theorem parse_canonicalText (ds : List Table) (h : WellFormed ds) :
    parse (canonicalText ds) = .ok ds := by
  obtain ⟨trees, next, hYields, hLegible, hSpelled⟩ := Grammar.yields_tables h.tables 1 0
  have hScan := hYields.tokenize_eq
  let d : Grammar.Derivation := ⟨[], trees⟩
  have hRead : d.spelled (canonicalText ds).toList = ds := by
    rw [canonicalText, String.toList_ofList]
    exact hSpelled [] rfl
  have hWellFormed : WellFormed (d.spelled (canonicalText ds).toList) := by
    rw [hRead]
    exact h
  have hAdmissible : d.IsAdmissible :=
    Grammar.Derivation.isAdmissible_of_spelled hWellFormed hLegible
  have hParse := Grammar.parse_of_derivation hScan (d := d) rfl hAdmissible
  rw [← canonicalText, hRead] at hParse
  exact hParse

/-- Flags, a question mark, a type with blanks, notes with quotes, backslashes and line feeds, and
a table that is not declared. -/
theorem parse_canonicalText_orders :
    parse ("table orders \x7b\nid(PK,AI)?: list [ int ] \"k=a\\nb,q=\\\"\\\\\"\n" ++
        "who? -> users.id\n\x7d\ntable x \x7b\n\x7d\n") =
      .ok [⟨"orders", [⟨"id", true, ["PK", "AI"], [⟨"k", "a\nb"⟩, ⟨"q", "\"\\"⟩],
          .typed "list [ int ]"⟩, ⟨"who", true, [], [], .reference "users" "id"⟩]⟩, ⟨"x", []⟩] :=
  parse_canonicalText [⟨"orders", [⟨"id", true, ["PK", "AI"], [⟨"k", "a\nb"⟩, ⟨"q", "\"\\"⟩],
      .typed "list [ int ]"⟩, ⟨"who", true, [], [], .reference "users" "id"⟩]⟩, ⟨"x", []⟩]
    (by decide +kernel)

end ErDiagram
