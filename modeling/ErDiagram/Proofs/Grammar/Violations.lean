import ErDiagram.Proofs.Grammar.Faults

/-! The faults that are no tokens out of place: a name declared twice, a caption that cannot be read
and a table that is never closed. Each is told by what stands before it, all of which is in order,
and the readers report it if it is there and only then. -/
namespace ErDiagram.Grammar

open Parse

/-! ### What is in order up to a fault -/

/-- An attribute with the end of its line. -/
structure Line where
  attr : AttrTree
  lineBreak : Place
  more : List Place

def Line.tokens (l : Line) : List Located := l.attr.tokens ++ breakTokens (l.lineBreak :: l.more)

def lineTokens (lines : List Line) : List Located := lines.flatMap Line.tokens

def lineNames (lines : List Line) : List String := lines.map (·.attr.name.name)

/-- A table up to the end of a line inside of it. -/
structure OpenTable where
  keyword : Place
  name : Word
  opening : Place
  breaks : List Place
  lines : List Line

def OpenTable.tokens (t : OpenTable) : List Located :=
  t.keyword.mark (.ident "table") :: t.name.token :: t.opening.mark .openBrace ::
    (breakTokens t.breaks ++ lineTokens t.lines)

structure OpenTable.IsAdmissible (t : OpenTable) : Prop where
  nodup : (lineNames t.lines).Nodup
  legible : ∀ l ∈ t.lines, l.attr.IsLegible

/-! ### Violations -/

/-- The first fault inside a table, whose keyword is on the line `tableLine`, behind lines that are
in order. The names of the attributes on these lines are taken. -/
inductive BlockViolation (table : String) (tableLine : Nat) (taken : List String) :
    List Located → SyntaxFault → Prop where
  /-- A complete attribute with a name that is taken. -/
  | duplicateAttribute {a : AttrTree} {rest : List Located} (legible : a.IsLegible)
      (ends : a.EndsBefore rest) (isTaken : a.name.name ∈ taken) :
      BlockViolation table tableLine taken (a.tokens ++ rest)
        ⟨a.name.place.line, .duplicateAttribute table a.name.name⟩
  /-- A caption that is not blank and has a segment without an equals sign. -/
  | noteWithoutEquals {name : Word} {target : TargetTree} {caption : Caption} {rest : List Located}
      {segment : List Char} (illegible : caption.illegible? = some segment) :
      BlockViolation table tableLine taken ((AttrTree.mk name target (some caption)).tokens ++ rest)
        (segmentFault caption.place.line segment)
  /-- The end of the source, maybe behind a last attribute that is in order. -/
  | unclosedTable {last : Option AttrTree} (legible : ∀ a ∈ last, a.IsLegible)
      (isNew : ∀ a ∈ last, a.name.name ∉ taken) :
      BlockViolation table tableLine taken (last.toList.flatMap AttrTree.tokens)
        ⟨tableLine, .unclosedTable table⟩

/-- The first fault behind tables that are in order, whose names are taken. -/
inductive TableViolation (taken : List String) : List Located → SyntaxFault → Prop where
  /-- A complete table with a name that is taken. -/
  | duplicateTable {t : TableTree} {rest : List Located} (admissible : t.IsAdmissible)
      (isTaken : t.name.name ∈ taken) :
      TableViolation taken (t.tokens ++ rest) ⟨t.keyword.line, .duplicateTable t.name.name⟩
  | inside {t : OpenTable} {rest : List Located} {f : SyntaxFault} (admissible : t.IsAdmissible)
      (block : BlockViolation t.name.name t.keyword.line (lineNames t.lines) rest f) :
      TableViolation taken (t.tokens ++ rest) f

/-- The fault is the first one in the tokens of a source. -/
def Violation (ts : List Located) (f : SyntaxFault) : Prop :=
  ∃ (front : Derivation) (rest : List Located), front.IsAdmissible ∧
    ts = front.tokens ++ rest ∧ TableViolation front.names rest f

variable {source : List Char} {endLine : Nat} {ts rest : List Located} {f : SyntaxFault}

section Taken

variable {table : String} {tableLine : Nat} {taken others : List String}

theorem BlockViolation.congr (h : BlockViolation table tableLine taken ts f)
    (hTaken : ∀ name, name ∈ taken ↔ name ∈ others) :
    BlockViolation table tableLine others ts f := by
  cases h with
  | duplicateAttribute legible ends isTaken =>
      exact .duplicateAttribute legible ends ((hTaken _).1 isTaken)
  | noteWithoutEquals illegible => exact .noteWithoutEquals illegible
  | unclosedTable legible isNew =>
      exact .unclosedTable legible fun a ha hOther => isNew a ha ((hTaken _).2 hOther)

theorem TableViolation.congr (h : TableViolation taken ts f)
    (hTaken : ∀ name, name ∈ taken ↔ name ∈ others) : TableViolation others ts f := by
  cases h with
  | duplicateTable admissible isTaken => exact .duplicateTable admissible ((hTaken _).1 isTaken)
  | inside admissible block => exact .inside admissible block

end Taken

theorem BlockViolation.atBreak (table : String) (tableLine : Nat) (taken : List String) :
    BlockViolation table tableLine taken [] ⟨tableLine, .unclosedTable table⟩ :=
  @unclosedTable _ _ _ none (fun _ ha => by cases ha) (fun _ ha => by cases ha)

theorem BlockViolation.behind {table : String} {tableLine : Nat} {taken : List String}
    {a : AttrTree} (hLegible : a.IsLegible) (hNew : a.name.name ∉ taken) :
    BlockViolation table tableLine taken a.tokens ⟨tableLine, .unclosedTable table⟩ := by
  have hEnd := @unclosedTable table tableLine taken (some a)
    (fun _ ha => Option.some.inj ha ▸ hLegible)
    (fun _ ha => Option.some.inj ha ▸ hNew)
  rwa [Option.toList_some, List.flatMap_singleton] at hEnd

/-! ### Texts in quotes -/

theorem FlagList.inType (l : FlagList) : ∀ t ∈ l.tokens, InType t.token := by
  have hComma : ∀ t ∈ commaTokens l.others, InType t.token := by
    intro t ht
    obtain ⟨⟨comma, flag⟩, -, hPair⟩ := List.mem_flatMap.1 ht
    rcases List.mem_pair.1 hPair with rfl | rfl <;> simp [InType]
  refine List.forall_mem_cons.2 ⟨by simp [InType], List.forall_mem_cons.2 ⟨by simp [InType], ?_⟩⟩
  exact List.forall_mem_append.2 ⟨hComma, by simp [InType]⟩

theorem questionTokens_inType (q : Option Place) : ∀ t ∈ questionTokens q, InType t.token := by
  cases q <;> simp [questionTokens, InType]

theorem Marks.inType (m : Marks) : ∀ t ∈ m.tokens, InType t.token := by
  cases m with
  | questionFirst question flags =>
      refine List.forall_mem_append.2 ⟨questionTokens_inType question, fun t ht => ?_⟩
      obtain ⟨l, -, hFlags⟩ := List.mem_flatMap.1 ht
      exact l.inType t hFlags
  | questionLast flags question =>
      exact List.forall_mem_append.2 ⟨flags.inType, questionTokens_inType (some question)⟩

/-- All tokens of an attribute but its caption could stand in a type. -/
theorem TargetTree.inType (target : TargetTree) : ∀ t ∈ target.tokens, InType t.token := by
  cases target with
  | typed marks colon type =>
      exact List.forall_mem_append.2 ⟨marks.inType,
        List.forall_mem_cons.2 ⟨by simp [InType], type.inType⟩⟩
  | reference question =>
      exact List.forall_mem_append.2 ⟨questionTokens_inType question, by simp [InType]⟩

theorem AttrTree.inType_or (a : AttrTree) {t : Located} (ht : t ∈ a.tokens) :
    InType t.token ∨ ∃ caption ∈ a.caption, t = caption.place.mark (.text caption.content) := by
  rcases List.mem_cons.1 ht with rfl | hMore
  · exact Or.inl (by simp [InType])
  · rcases List.mem_append.1 hMore with hTarget | hCaption
    · exact Or.inl (a.target.inType t hTarget)
    · obtain ⟨caption, hMem, rfl⟩ := List.mem_map.1 hCaption
      exact Or.inr ⟨caption, Option.mem_toList.1 hMem, rfl⟩

/-- An attribute stands on one line. -/
theorem AttrTree.token_ne_lineBreak (a : AttrTree) {t : Located} (ht : t ∈ a.tokens) :
    t.token ≠ .lineBreak := by
  rcases a.inType_or ht with hType | ⟨caption, -, rfl⟩
  · exact hType.1
  · simp

/-- All texts in quotes are captions that can be read. -/
def AreLegible (ts : List Located) : Prop :=
  ∀ t ∈ ts, ∀ content, t.token = .text content → (Caption.mk content t.place).IsLegible

theorem areLegible_append {us : List Located} :
    AreLegible (ts ++ us) ↔ AreLegible ts ∧ AreLegible us :=
  List.forall_mem_append

theorem areLegible_of_ne_text (h : ∀ t ∈ ts, ∀ content, t.token ≠ .text content) :
    AreLegible ts := fun t ht content hText => absurd hText (h t ht content)

theorem areLegible_breakTokens (breaks : List Place) : AreLegible (breakTokens breaks) :=
  areLegible_of_ne_text (by simp [breakTokens])

theorem AttrTree.IsLegible.areLegible {a : AttrTree} (h : a.IsLegible) : AreLegible a.tokens := by
  intro t ht content hText
  rcases a.inType_or ht with hType | ⟨caption, hCaption, rfl⟩
  · exact absurd hText (hType.2.2 content)
  · cases hText
    exact h caption hCaption

theorem BlockTree.areLegible {b : BlockTree} (h : b.IsLegible) : AreLegible b.tokens := by
  induction b with
  | close closing => exact areLegible_of_ne_text (by simp [BlockTree.tokens])
  | last a closing =>
      exact areLegible_append.2 ⟨AttrTree.IsLegible.areLegible (h a List.mem_cons_self),
        areLegible_of_ne_text (by simp)⟩
  | line a lineBreak more later ih =>
      obtain ⟨hHere, hLater⟩ := List.forall_mem_cons.1 h
      exact areLegible_append.2 ⟨areLegible_append.2
        ⟨AttrTree.IsLegible.areLegible hHere, areLegible_breakTokens _⟩, ih hLater⟩

theorem areLegible_lineTokens {lines : List Line} (h : ∀ l ∈ lines, l.attr.IsLegible) :
    AreLegible (lineTokens lines) := by
  intro t ht
  obtain ⟨l, hl, hLine⟩ := List.mem_flatMap.1 ht
  exact areLegible_append.2 ⟨(h l hl).areLegible, areLegible_breakTokens _⟩ t hLine

/-- The keyword, the name and the brace in front of a block are no texts. -/
theorem areLegible_table {keyword opening : Place} {name : Word} (h : AreLegible ts) :
    AreLegible (keyword.mark (.ident "table") :: name.token :: opening.mark .openBrace :: ts) := by
  have hFront : AreLegible [keyword.mark (.ident "table"), name.token, opening.mark .openBrace] :=
    areLegible_of_ne_text (by simp)
  exact areLegible_append.2 ⟨hFront, h⟩

theorem OpenTable.IsAdmissible.areLegible {t : OpenTable} (h : t.IsAdmissible) :
    AreLegible t.tokens :=
  areLegible_table (areLegible_append.2 ⟨areLegible_breakTokens _, areLegible_lineTokens h.legible⟩)

theorem Derivation.IsAdmissible.areLegible {d : Derivation} (h : d.IsAdmissible) :
    AreLegible d.tokens := by
  refine areLegible_append.2 ⟨areLegible_breakTokens _, fun t ht => ?_⟩
  obtain ⟨entry, hEntry, hTable⟩ := List.mem_flatMap.1 ht
  have hBlock := BlockTree.areLegible (h.legible entry hEntry)
  exact areLegible_append.2 ⟨areLegible_table (areLegible_append.2
    ⟨areLegible_breakTokens _, hBlock⟩), areLegible_breakTokens _⟩ t hTable

/-! ### Every other fault is a violation -/

/-- An attribute that is not read to its end has a token out of place or an illegible caption. -/
theorem attributeDecl_violation (h : attributeDecl source endLine ts = .error f)
    (hFault : ¬ f.IsUnexpected) :
    ∃ name target caption rest segment, caption.illegible? = some segment ∧
      ts = (AttrTree.mk name target (some caption)).tokens ++ rest ∧
        f = segmentFault caption.place.line segment := by
  simp only [attributeDecl, bind_eq_error, Prod.exists, ident_eq_ok_iff] at h
  obtain hName | ⟨_, ts, ⟨name, rfl, rfl⟩, h⟩ := h
  · obtain ⟨rfl, -⟩ := ident_error hName
    exact absurd ⟨_, _, unexpected_cause ..⟩ hFault
  obtain hFlags | ⟨names, after, hFlags, h⟩ := h
  · exact absurd (marks_stuck hFlags).isUnexpected hFault
  obtain ⟨marks, hMarks, hQuestion, rfl, hReference⟩ := marks_sound hFlags
  obtain hTarget | ⟨t, behind, hTarget, h⟩ := h
  · exact absurd (target_stuck (marks_endsBefore hFlags hQuestion rfl) hTarget).isUnexpected hFault
  obtain hNotes | ⟨_, _, -, hResult⟩ := h
  · obtain ⟨caption, rest, rfl, segment, hSegment, rfl⟩ := notes_eq_error_iff.1 hNotes
    rw [lateQuestion] at hMarks
    rcases target_sound hTarget with ⟨colon, type, hTokens, rfl, -⟩ |
      ⟨hNoFlags, arrow, table, dot, attr, hTokens, rfl⟩
    · refine ⟨name, .typed marks colon type, caption, rest, segment, hSegment, ?_, rfl⟩
      rw [hMarks, hTokens, AttrTree.tokens_append, typed_tokens]
      rfl
    · obtain ⟨q, rfl⟩ := hReference (by simpa using hNoFlags)
      refine ⟨name, .reference q arrow table dot attr, caption, rest, segment, hSegment, ?_, rfl⟩
      rw [hMarks, hTokens, AttrTree.tokens_append, reference_tokens]
      rfl
  · cases hResult

theorem BlockViolation.notNext_lineBreak {table : String} {tableLine : Nat} {taken : List String}
    (h : BlockViolation table tableLine taken ts f) : NotNext .lineBreak ts := by
  cases h with
  | duplicateAttribute => simp [AttrTree.tokens]
  | noteWithoutEquals => simp [AttrTree.tokens]
  | @unclosedTable last => cases last <;> simp [AttrTree.tokens, NotNext]

theorem lineTokens_cons (l : Line) (lines : List Line) :
    lineTokens (l :: lines) =
      l.attr.tokens ++ (breakTokens (l.lineBreak :: l.more) ++ lineTokens lines) := by
  simp [lineTokens, Line.tokens]

theorem notNext_lineBreak_lineTokens (lines : List Line) (h : NotNext .lineBreak ts) :
    NotNext .lineBreak (lineTokens lines ++ ts) := by
  cases lines with
  | nil => exact h
  | cons l lines => simp [lineTokens_cons, AttrTree.tokens]

/-- What stands between the start of a block and the first fault in it. -/
structure LinesBefore (table : String) (tableLine : Nat) (seen : List String) (ts : List Located)
    (f : SyntaxFault) (breaks : List Place) (lines : List Line) (rest : List Located) : Prop where
  tokens : ts = breakTokens breaks ++ (lineTokens lines ++ rest)
  isNew : NewNames (lineNames lines) seen
  legible : ∀ l ∈ lines, l.attr.IsLegible
  violation : BlockViolation table tableLine (lineNames lines ++ seen) rest f

section Block

variable {table : String} {tableLine : Nat} {seen : List String}

theorem LinesBefore.start (h : BlockViolation table tableLine seen ts f) :
    LinesBefore table tableLine seen ts f [] [] ts :=
  ⟨rfl, newNames_nil seen, fun _ hl => absurd hl List.not_mem_nil, h⟩

/-- An attribute that ends with its line, in front of the lines behind it. -/
theorem LinesBefore.cons {a : AttrTree} {u : Located} {more : List Located} {breaks : List Place}
    {lines : List Line}
    (h : LinesBefore table tableLine (a.name.name :: seen) (u :: more) f breaks lines rest)
    (hBreak : u.token = .lineBreak) (hSeen : a.name.name ∉ seen) (hLegible : a.IsLegible) :
    ∃ l : Line,
      LinesBefore table tableLine seen (a.tokens ++ u :: more) f [] (l :: lines) rest := by
  obtain ⟨hTokens, hNew, hLines, hViolation⟩ := h
  cases breaks with
  | nil =>
      have hNotNext := notNext_lineBreak_lineTokens lines hViolation.notNext_lineBreak
      rw [← show u :: more = lineTokens lines ++ rest from hTokens] at hNotNext
      exact absurd hBreak (notNext_cons.1 hNotNext)
  | cons p ps =>
      refine ⟨⟨a, p, ps⟩, ?_, newNames_cons.2 ⟨hSeen, hNew⟩,
        List.forall_mem_cons.2 ⟨hLegible, hLines⟩, hViolation.congr fun name => ?_⟩
      · rw [hTokens, lineTokens_cons, List.append_assoc, List.append_assoc]
        rfl
      · simp only [lineNames, List.map_cons, List.mem_append, List.mem_cons]
        exact or_left_comm.trans or_assoc.symm

theorem block_violation (h : block source endLine table tableLine seen ts = .error f)
    (hFault : ¬ f.IsUnexpected) :
    ∃ breaks lines rest, LinesBefore table tableLine seen ts f breaks lines rest := by
  fun_induction block source endLine table tableLine seen ts with
  | case1 seen =>
      cases h
      exact ⟨[], [], _, .start (.atBreak table tableLine seen)⟩
  | case2 seen t after hToken ih =>
      obtain ⟨breaks, lines, rest, hTokens, hNew, hLines, hViolation⟩ := ih h
      refine ⟨t.place :: breaks, lines, rest, ?_, hNew, hLines, hViolation⟩
      rw [← t.mark_place hToken, hTokens]
      rfl
  | case3 => cases h
  | case4 seen t after fault hDecl =>
      cases h
      obtain ⟨name, target, caption, rest, segment, hSegment, hTokens, rfl⟩ :=
        attributeDecl_violation hDecl hFault
      rw [hTokens]
      exact ⟨[], [], _, .start (.noteWithoutEquals hSegment)⟩
  | case5 seen t after a behind hDecl hSeen =>
      cases h
      obtain ⟨tree, hTokens, rfl, hLegible, hEnds⟩ := attributeDecl_sound hDecl
      obtain ⟨rfl, -⟩ := List.cons.inj (hTokens.trans (tree.tokens_append _))
      rw [hTokens]
      exact ⟨[], [], _, .start (.duplicateAttribute hLegible hEnds hSeen)⟩
  | case6 seen t after a hSeen hDecl =>
      cases h
      obtain ⟨tree, hTokens, rfl, hLegible, -⟩ := attributeDecl_sound hDecl
      rw [hTokens, List.append_nil]
      exact ⟨[], [], _, .start (.behind hLegible hSeen)⟩
  | case7 seen t after a hSeen u more hDecl hEnd fault hBlock _ _ _ ih =>
      cases h
      obtain ⟨tree, hTokens, rfl, hLegible, -⟩ := attributeDecl_sound hDecl
      obtain ⟨breaks, lines, rest, hBefore⟩ := ih hBlock
      have hBreak : u.token = .lineBreak := by
        refine hEnd.resolve_right fun hBrace => ?_
        rw [block, hBrace] at hBlock
        cases hBlock
      rw [hTokens]
      obtain ⟨l, hCons⟩ := hBefore.cons hBreak hSeen hLegible
      exact ⟨[], l :: lines, rest, hCons⟩
  | case8 => cases h
  | case9 =>
      cases h
      exact absurd ⟨_, _, unexpected_cause ..⟩ hFault

end Block

theorem table_violation {p : Place} (h : Parse.table source endLine p.line ts = .error f)
    (hFault : ¬ f.IsUnexpected) :
    ∃ (t : OpenTable) (rest : List Located), t.IsAdmissible ∧
      p.mark (.ident "table") :: ts = t.tokens ++ rest ∧
        BlockViolation t.name.name t.keyword.line (lineNames t.lines) rest f := by
  simp only [Parse.table, bind_eq_error, Prod.exists, ident_eq_ok_iff] at h
  obtain hName | ⟨_, _, ⟨name, rfl, rfl⟩, h⟩ := h
  · obtain ⟨rfl, -⟩ := ident_error hName
    exact absurd ⟨_, _, unexpected_cause ..⟩ hFault
  obtain hOpening | ⟨_, _, hOpening, h⟩ := h
  · obtain ⟨rfl, -⟩ := mark_error hOpening
    exact absurd ⟨_, _, unexpected_cause ..⟩ hFault
  obtain ⟨opening, rfl⟩ := mark_eq_ok_iff.1 hOpening
  obtain hBlock | ⟨_, _, -, hResult⟩ := h
  · obtain ⟨breaks, lines, rest, hTokens, hNew, hLegible, hViolation⟩ :=
      block_violation hBlock hFault
    rw [List.append_nil] at hViolation
    refine ⟨⟨p, name, opening, breaks, lines⟩, rest, ⟨hNew.nodup, hLegible⟩, ?_, hViolation⟩
    rw [hTokens]
    simp [OpenTable.tokens]
  · cases hResult

theorem tables_violation {seen : List String}
    (h : Parse.tables source endLine seen ts = .error f) (hFault : ¬ f.IsUnexpected) :
    ∃ (front : Derivation) (rest : List Located), ts = front.tokens ++ rest ∧
      NewNames front.names seen ∧ (∀ entry ∈ front.tables, entry.1.IsAdmissible) ∧
        TableViolation (front.names ++ seen) rest f := by
  fun_induction Parse.tables source endLine seen ts with
  | case1 => cases h
  | case2 seen t after hToken ih =>
      obtain ⟨front, rest, hTokens, hFront⟩ := ih h
      refine ⟨⟨t.place :: front.breaks, front.tables⟩, rest, ?_, hFront⟩
      rw [← t.mark_place hToken, hTokens]
      rfl
  | case3 seen t after hBreak hToken fault hTable =>
      cases h
      obtain ⟨tree, rest, hAdmissible, hTokens, hBlock⟩ :=
        table_violation (p := t.place) hTable hFault
      rw [t.mark_place hToken] at hTokens
      exact ⟨⟨[], []⟩, t :: after, rfl, newNames_nil seen, by simp,
        hTokens ▸ .inside hAdmissible hBlock⟩
  | case4 seen t rest hBreak hToken read after hTable hSeen =>
      cases h
      obtain ⟨tree, hTokens, rfl, hAdmissible⟩ := table_sound (p := t.place) hTable
      rw [t.mark_place hToken] at hTokens
      obtain ⟨rfl, -⟩ := List.cons.inj (hTokens.trans (tree.tokens_append _))
      exact ⟨⟨[], []⟩, _, rfl, newNames_nil seen, by simp,
        hTokens ▸ .duplicateTable hAdmissible hSeen⟩
  | case5 seen t rest _ hToken read after hTable hSeen fault hLater ih =>
      cases h
      obtain ⟨tree, hTree, rfl, hHere⟩ := table_sound (p := t.place) hTable
      rw [t.mark_place hToken] at hTree
      obtain ⟨front, behind, rfl, hNew, hAdmissible, hViolation⟩ := ih hLater
      refine ⟨⟨[], (tree, front.breaks) :: front.tables⟩, behind, ?_,
        newNames_cons.2 ⟨hSeen, hNew⟩, List.forall_mem_cons.2 ⟨hHere, hAdmissible⟩,
        hViolation.congr fun name => ?_⟩
      · rw [hTree, Derivation.tokens, Derivation.tokens, tableTokens_cons]
        simp [breakTokens]
      · simp only [Derivation.names, List.map_cons, List.mem_append, List.mem_cons]
        exact or_left_comm.trans or_assoc.symm
  | case6 => cases h
  | case7 =>
      cases h
      exact absurd ⟨_, _, unexpected_cause ..⟩ hFault

/-! ### Violations are reported -/

section Block

variable {table : String} {tableLine : Nat} {seen : List String}

theorem BlockViolation.block_eq (h : BlockViolation table tableLine seen ts f) :
    block source endLine table tableLine seen ts = .error f := by
  cases h with
  | @duplicateAttribute a rest legible ends isTaken =>
      have hDecl : attributeDecl source endLine (a.tokens ++ rest) = .ok (a.read source, rest) :=
        attributeDecl_of_endsBefore legible ends
      rw [AttrTree.tokens_append] at hDecl ⊢
      rw [block_word, hDecl]
      exact if_pos isTaken
  | @noteWithoutEquals name target caption rest segment illegible =>
      have hNotes : notes (captionTokens (some caption) ++ rest) =
          .error (segmentFault caption.place.line segment) :=
        notes_eq_error_iff.2 ⟨caption, rest, rfl, segment, illegible, rfl⟩
      rw [AttrTree.tokens_append, block_word, attributeDecl_tokens, hNotes]
      · rfl
      · rintro marks colon type - t ⟨⟩ hType
        exact hType.2.2 caption.content rfl
  | @unclosedTable last legible isNew =>
      cases last with
      | none =>
          rw [Option.toList_none, List.flatMap_nil, block]
      | some a =>
          have hDecl : attributeDecl source endLine (a.tokens ++ []) = .ok (a.read source, []) :=
            attributeDecl_complete (legible a rfl) fun _ ht => by cases ht
          rw [Option.toList_some, List.flatMap_singleton, ← a.tokens.append_nil]
          rw [AttrTree.tokens_append] at hDecl ⊢
          rw [block_word, hDecl]
          exact if_neg (isNew a rfl)

/-- Lines in order are read up to what stands behind them. -/
theorem block_lines {lines : List Line} (hNew : NewNames (lineNames lines) seen)
    (hLegible : ∀ l ∈ lines, l.attr.IsLegible)
    (h : block source endLine table tableLine ((lineNames lines).reverse ++ seen) ts = .error f) :
    block source endLine table tableLine seen (lineTokens lines ++ ts) = .error f := by
  induction lines generalizing seen with
  | nil => exact h
  | cons l lines ih =>
      obtain ⟨hSeen, hLaterNew⟩ := newNames_cons.1 hNew
      obtain ⟨hHere, hLater⟩ := List.forall_mem_cons.1 hLegible
      rw [lineNames, List.map_cons, List.reverse_cons, List.append_assoc] at h
      have hBlock := ih hLaterNew hLater h
      rw [← block_breaks (l.lineBreak :: l.more)] at hBlock
      rw [lineTokens_cons, List.append_assoc, List.append_assoc]
      exact (block_attr hHere hSeen (Or.inl rfl) _).trans (congrArg _ hBlock)

end Block

theorem OpenTable.tokens_append (t : OpenTable) (rest : List Located) :
    t.tokens ++ rest = t.keyword.mark (.ident "table") :: t.name.token ::
      t.opening.mark .openBrace :: (breakTokens t.breaks ++ (lineTokens t.lines ++ rest)) := by
  simp [OpenTable.tokens]

theorem table_of_block {t : OpenTable} (hAdmissible : t.IsAdmissible)
    (h : BlockViolation t.name.name t.keyword.line (lineNames t.lines) rest f) :
    Parse.table source endLine t.keyword.line (t.name.token :: t.opening.mark .openBrace ::
      (breakTokens t.breaks ++ (lineTokens t.lines ++ rest))) = .error f := by
  have hBlock : block source endLine t.name.name t.keyword.line []
      (lineTokens t.lines ++ rest) = .error f :=
    block_lines ⟨hAdmissible.nodup, by simp⟩ hAdmissible.legible
      (BlockViolation.block_eq (h.congr (by simp)))
  rw [← block_breaks t.breaks] at hBlock
  simp only [Parse.table, ident_token, mark_token, bind, Except.bind, hBlock]

theorem TableViolation.tables_eq {seen : List String} (h : TableViolation seen ts f) :
    Parse.tables source endLine seen ts = .error f := by
  cases h with
  | @duplicateTable t rest admissible isTaken =>
      rw [tables_table source endLine seen admissible]
      exact if_pos isTaken
  | @inside t rest f admissible block =>
      rw [OpenTable.tokens_append, Parse.tables, if_neg (by simp), if_pos (Place.mark_token _ _)]
      split
      · rename_i hFault
        exact congrArg _ (Except.error.inj (hFault.symm.trans (table_of_block admissible block)))
      · rename_i hRead
        cases (table_of_block admissible block).symm.trans hRead

theorem Derivation.isAdmissible_iff {d : Derivation} :
    d.IsAdmissible ↔ d.names.Nodup ∧ ∀ entry ∈ d.tables, entry.1.IsAdmissible := by
  constructor
  · intro h
    exact ⟨h.tables_nodup, fun entry hEntry => ⟨h.attrs_nodup entry hEntry, h.legible entry hEntry⟩⟩
  · rintro ⟨hNodup, hTables⟩
    exact ⟨hNodup, fun entry hEntry => (hTables entry hEntry).nodup,
      fun entry hEntry => (hTables entry hEntry).legible⟩

theorem Violation.tables_eq (h : Violation ts f) :
    Parse.tables source endLine [] ts = .error f := by
  obtain ⟨front, rest, hFront, rfl, hViolation⟩ := h
  obtain ⟨hNodup, hTables⟩ := Derivation.isAdmissible_iff.1 hFront
  have hFault :
      Parse.tables source endLine ((front.tables.map (·.1.name.name)).reverse ++ []) rest =
        .error f := TableViolation.tables_eq (hViolation.congr (by simp [Derivation.names]))
  rw [Derivation.tokens, List.append_assoc, tables_breaks, tables_append ⟨hNodup, by simp⟩ hTables,
    hFault]
  rfl

/-- The readers report a fault other than a token out of place exactly if it is the first violation
of the tokens. -/
theorem tables_eq_error_iff_violation (hFault : ¬ f.IsUnexpected) :
    Parse.tables source endLine [] ts = .error f ↔ Violation ts f := by
  refine ⟨fun h => ?_, Violation.tables_eq⟩
  obtain ⟨front, rest, rfl, hNew, hTables, hViolation⟩ := tables_violation h hFault
  rw [List.append_nil] at hViolation
  exact ⟨front, rest, Derivation.isAdmissible_iff.2 ⟨hNew.nodup, hTables⟩, rfl, hViolation⟩

/-- The caption that is reported is the first one that cannot be read. -/
theorem Violation.exists_caption (h : Violation ts f) {quoted : String}
    (hCause : f.cause = .noteWithoutEquals quoted) :
    ∃ (before : List Located) (caption : Caption) (after : List Located) (segment : List Char),
      ts = before ++ caption.place.mark (.text caption.content) :: after ∧ AreLegible before ∧
        caption.illegible? = some segment ∧ f = segmentFault caption.place.line segment := by
  obtain ⟨front, rest, hFront, rfl, hViolation⟩ := h
  cases hViolation with
  | duplicateTable => cases hCause
  | @inside t behind _ admissible block =>
      cases block with
      | duplicateAttribute => cases hCause
      | unclosedTable => cases hCause
      | @noteWithoutEquals name target caption after segment illegible =>
          have hType : ∀ t ∈ name.token :: target.tokens, InType t.token :=
            List.forall_mem_cons.2 ⟨by simp [InType], target.inType⟩
          have hAttr : AreLegible (name.token :: target.tokens) :=
            areLegible_of_ne_text fun t ht => (hType t ht).2.2
          refine ⟨front.tokens ++ (t.tokens ++ name.token :: target.tokens), caption, after,
            segment, ?_, ?_, illegible, rfl⟩
          · simp [AttrTree.tokens, captionTokens]
          · exact areLegible_append.2
              ⟨hFront.areLegible, areLegible_append.2 ⟨admissible.areLegible, hAttr⟩⟩

end ErDiagram.Grammar

namespace ErDiagram

open Grammar

theorem parse_of_violation {text : String} {s : Scanned} (hScan : tokenize text = .ok s)
    {f : SyntaxFault} (h : Violation s.tokens f) : parse text = .error (f.quote text) := by
  simp only [parse, hScan, h.tables_eq]

theorem violation_of_parse {text : String} {s : Scanned} (hScan : tokenize text = .ok s)
    {e : SyntaxError} (h : parse text = .error e) (hFault : ¬ e.toSyntaxFault.IsUnexpected) :
    Violation s.tokens e.toSyntaxFault :=
  (tables_eq_error_iff_violation hFault).1 (fault_of_parse hScan h)

end ErDiagram
