import ErDiagram.Proofs.Grammar.Reading
import ErDiagram.Proofs.Scanning

/-! What is accepted as a block, a table and a whole source: the tokens of a tree whose names are
distinct and whose captions can be read. -/
namespace ErDiagram

/-- The place of a token. -/
def Located.place (t : Located) : Grammar.Place := ⟨t.line, t.start, t.stop⟩

theorem Located.mark_place (t : Located) {token : Token} (h : t.token = token) :
    t.place.mark token = t := by
  subst h
  rfl

end ErDiagram

namespace ErDiagram.Grammar

open Parse

variable {source : List Char} {endLine : Nat}

/-- No name stands twice in the list or among those that are taken already. -/
structure NewNames (names seen : List String) : Prop where
  nodup : names.Nodup
  unseen : ∀ name ∈ names, name ∉ seen

theorem newNames_cons {name : String} {names seen : List String} :
    NewNames (name :: names) seen ↔ name ∉ seen ∧ NewNames names (name :: seen) := by
  constructor
  · rintro ⟨hNodup, hUnseen⟩
    rw [List.nodup_cons] at hNodup
    rw [List.forall_mem_cons] at hUnseen
    refine ⟨hUnseen.1, hNodup.2, fun other hOther hMem => ?_⟩
    rcases List.mem_cons.1 hMem with rfl | hSeen
    · exact hNodup.1 hOther
    · exact hUnseen.2 other hOther hSeen
  · rintro ⟨hHere, hNodup, hUnseen⟩
    refine ⟨List.nodup_cons.2 ⟨fun hMem => hUnseen name hMem List.mem_cons_self, hNodup⟩, ?_⟩
    rw [List.forall_mem_cons]
    exact ⟨hHere, fun other hOther hSeen => hUnseen other hOther (List.mem_cons_of_mem _ hSeen)⟩

theorem newNames_nil (seen : List String) : NewNames [] seen := ⟨List.nodup_nil, by simp⟩

def BlockTree.names (b : BlockTree) : List String := b.attrs.map (·.name.name)

/-- A block after some line breaks, as the reader gives it. -/
structure BlockReading (source : List Char) (seen : List String) (ts : List Located)
    (attributes : List Attribute) (rest : List Located) (breaks : List Place) (b : BlockTree) :
    Prop where
  tokens : ts = breakTokens breaks ++ (b.tokens ++ rest)
  attributes : attributes = b.attrs.map (AttrTree.read source)
  isNew : NewNames b.names seen
  legible : ∀ a ∈ b.attrs, a.IsLegible

/-- An attribute in front of the token that ends it makes a longer block, whether the token is the
first line break before a block or the brace that is all of it. -/
theorem BlockTree.exists_cons (a : AttrTree) {u : Located} {more rest : List Located}
    {breaks : List Place} {b : BlockTree}
    (hTokens : u :: more = breakTokens breaks ++ (b.tokens ++ rest))
    (hEnd : u.token = .lineBreak ∨ u.token = .closeBrace) :
    ∃ c : BlockTree, a.tokens ++ u :: more = c.tokens ++ rest ∧ c.attrs = a :: b.attrs := by
  cases breaks with
  | cons p ps => exact ⟨.line a p ps b, by rw [hTokens, BlockTree.line_tokens], rfl⟩
  | nil =>
      cases b with
      | close q => exact ⟨.last a q, by rw [hTokens, BlockTree.last_tokens]; rfl, rfl⟩
      | last c q =>
          obtain ⟨rfl, -⟩ := List.cons.inj hTokens
          simp at hEnd
      | line c q qs later =>
          obtain ⟨rfl, -⟩ := List.cons.inj hTokens
          simp at hEnd

theorem BlockReading.cons {seen : List String} {u : Located} {more rest : List Located}
    {others : List Attribute} {breaks : List Place} {b : BlockTree} {a : AttrTree}
    (hBlock : BlockReading source (a.name.name :: seen) (u :: more) others rest breaks b)
    (hEnd : u.token = .lineBreak ∨ u.token = .closeBrace) (hSeen : a.name.name ∉ seen)
    (hLegible : a.IsLegible) :
    ∃ c : BlockTree, BlockReading source seen (a.tokens ++ u :: more)
      (a.read source :: others) rest [] c := by
  obtain ⟨hTokens, rfl, hNew, hBlockLegible⟩ := hBlock
  obtain ⟨c, hCons, hAttrs⟩ := BlockTree.exists_cons a hTokens hEnd
  refine ⟨c, hCons, ?_, ?_, ?_⟩
  · rw [hAttrs]
    rfl
  · rw [BlockTree.names, hAttrs]
    exact newNames_cons.2 ⟨hSeen, hNew⟩
  · rw [hAttrs]
    exact List.forall_mem_cons.2 ⟨hLegible, hBlockLegible⟩

theorem block_sound {table : String} {tableLine : Nat} {seen : List String}
    {ts rest : List Located} {attributes : List Attribute}
    (h : block source endLine table tableLine seen ts = .ok (attributes, rest)) :
    ∃ breaks b, BlockReading source seen ts attributes rest breaks b := by
  fun_induction block source endLine table tableLine seen ts generalizing attributes rest with
  | case1 => cases h
  | case2 seen t after hToken ih =>
      obtain ⟨breaks, b, hTokens, hAttributes, hNew, hLegible⟩ := ih h
      refine ⟨t.place :: breaks, b, ?_, hAttributes, hNew, hLegible⟩
      rw [← t.mark_place hToken, hTokens]
      rfl
  | case3 seen t after hToken =>
      cases h
      refine ⟨[], .close t.place, ?_, rfl, newNames_nil seen, ?_⟩
      · rw [← t.mark_place hToken]
        rfl
      · simp [BlockTree.attrs]
  | case4 => cases h
  | case5 => cases h
  | case6 => cases h
  | case7 => cases h
  | case8 seen t after a hSeen u more hDecl hEnd others rest' hBlock _ _ _ ih =>
      cases h
      obtain ⟨tree, hTokens, rfl, hLegible, -⟩ := attributeDecl_sound hDecl
      obtain ⟨breaks, b, hReading⟩ := ih hBlock
      rw [hTokens]
      obtain ⟨c, hCons⟩ := hReading.cons hEnd hSeen hLegible
      exact ⟨[], c, hCons⟩
  | case9 => cases h

theorem block_breaks {table : String} {tableLine : Nat} {seen : List String}
    (breaks : List Place) (ts : List Located) :
    block source endLine table tableLine seen (breakTokens breaks ++ ts) =
      block source endLine table tableLine seen ts := by
  induction breaks with
  | nil => rfl
  | cons p breaks ih =>
      change block _ _ _ _ _ (p.mark .lineBreak :: (breakTokens breaks ++ ts)) = _
      rw [block, Place.mark_token]
      exact ih

/-- What the reader of a block does with an attribute, whatever the attribute is. -/
theorem block_word (source : List Char) (endLine : Nat) (table : String) (tableLine : Nat)
    (seen : List String) (w : Word) (ts : List Located) :
    block source endLine table tableLine seen (w.token :: ts) =
      match attributeDecl source endLine (w.token :: ts) with
      | .error fault => .error fault
      | .ok (a, after) =>
          if a.name ∈ seen then .error ⟨w.place.line, .duplicateAttribute table a.name⟩
          else
            match after with
            | [] => .error ⟨tableLine, .unclosedTable table⟩
            | u :: more =>
                if u.token = .lineBreak ∨ u.token = .closeBrace then
                  match block source endLine table tableLine (a.name :: seen) (u :: more) with
                  | .error fault => .error fault
                  | .ok (others, rest) => .ok (a :: others, rest)
                else .error (unexpected endLine .endOfLine (u :: more)) := by
  rw [block]
  simp only [Word.token_token]
  split
  · rename_i hRead
    simp only [hRead]
  · rename_i a after hRead
    simp only [hRead]
    cases after <;> rfl

/-- An attribute in order with a new name is followed by the rest of its block. -/
theorem block_attr {table : String} {tableLine : Nat} {seen : List String} {a : AttrTree}
    (hLegible : a.IsLegible) (hSeen : a.name.name ∉ seen) {u : Located}
    (hEnd : u.token = .lineBreak ∨ u.token = .closeBrace) (more : List Located) :
    block source endLine table tableLine seen (a.tokens ++ u :: more) =
      (block source endLine table tableLine (a.name.name :: seen) (u :: more)).map
        fun (others, rest) => (a.read source :: others, rest) := by
  have hDecl : attributeDecl source endLine (a.tokens ++ u :: more) =
      .ok (a.read source, u :: more) := attributeDecl_complete hLegible (atEnd_cons.2 hEnd)
  rw [AttrTree.tokens_append] at hDecl ⊢
  rw [block_word, hDecl]
  refine (if_neg hSeen).trans ((if_pos hEnd).trans ?_)
  rw [show (a.read source).name = a.name.name from rfl]
  cases block source endLine table tableLine (a.name.name :: seen) (u :: more) <;> rfl

theorem block_complete (source : List Char) (endLine : Nat) (table : String)
    (tableLine : Nat) {seen : List String} {b : BlockTree}
    (hNew : NewNames b.names seen) (hLegible : ∀ a ∈ b.attrs, a.IsLegible) (rest : List Located) :
    block source endLine table tableLine seen (b.tokens ++ rest) =
      .ok (b.attrs.map (AttrTree.read source), rest) := by
  have hClose (seen : List String) (p : Place) :
      block source endLine table tableLine seen (p.mark .closeBrace :: rest) = .ok ([], rest) := by
    rw [block, Place.mark_token]
  induction b generalizing seen with
  | close p => exact hClose seen p
  | last a p =>
      obtain ⟨hSeen, -⟩ := newNames_cons.1 hNew
      rw [BlockTree.last_tokens, block_attr (hLegible a List.mem_cons_self) hSeen (Or.inr rfl),
        hClose]
      rfl
  | line a p ps later ih =>
      obtain ⟨hSeen, hLater⟩ := newNames_cons.1 hNew
      have hRead := ih hLater fun c hc => hLegible c (List.mem_cons_of_mem _ hc)
      rw [← block_breaks (p :: ps)] at hRead
      rw [BlockTree.line_tokens]
      exact (block_attr (hLegible a List.mem_cons_self) hSeen (Or.inl rfl) _).trans
        (congrArg _ hRead)

/-! ### Tables -/

/-- The table that the reader gives for a tree. -/
def TableTree.read (source : List Char) (t : TableTree) : Table :=
  ⟨t.name.name, t.block.attrs.map (AttrTree.read source)⟩

structure TableTree.IsAdmissible (t : TableTree) : Prop where
  nodup : t.block.names.Nodup
  legible : t.block.IsLegible

theorem table_sound {p : Place} {ts rest : List Located} {t : Table}
    (h : Parse.table source endLine p.line ts = .ok (t, rest)) :
    ∃ tree : TableTree, p.mark (.ident "table") :: ts = tree.tokens ++ rest ∧
      t = tree.read source ∧ tree.IsAdmissible := by
  simp only [Parse.table, bind_eq_ok, Prod.exists, ident_eq_ok_iff] at h
  obtain ⟨_, _, ⟨name, rfl, rfl⟩, _, after, hOpening, attributes, _, hBlock, hResult⟩ := h
  cases hResult
  obtain ⟨opening, rfl⟩ := mark_eq_ok_iff.1 hOpening
  obtain ⟨breaks, b, hTokens, rfl, hNew, hLegible⟩ := block_sound hBlock
  refine ⟨⟨p, name, opening, breaks, b⟩, ?_, rfl, hNew.nodup, hLegible⟩
  rw [TableTree.tokens_append, hTokens]

theorem table_complete (source : List Char) (endLine : Nat) {t : TableTree}
    (hAdmissible : t.IsAdmissible) (rest : List Located) :
    Parse.table source endLine t.keyword.line
      (t.name.token :: t.opening.mark .openBrace ::
        (breakTokens t.breaks ++ (t.block.tokens ++ rest))) = .ok (t.read source, rest) := by
  have hNew : NewNames t.block.names [] := ⟨hAdmissible.nodup, by simp⟩
  have hBlock := block_complete source endLine t.name.name t.keyword.line hNew
    hAdmissible.legible rest
  rw [← block_breaks t.breaks] at hBlock
  simp only [Parse.table, bind_eq_ok, Prod.exists, ident_token]
  exact ⟨_, _, rfl, _, _, mark_token _ _ _ _, _, _, hBlock, rfl⟩

def Derivation.names (d : Derivation) : List String := d.tables.map (·.1.name.name)

def Derivation.read (source : List Char) (d : Derivation) : List Table :=
  d.tables.map fun entry => entry.1.read source

theorem tables_sound {seen : List String} {ts : List Located} {ds : List Table}
    (h : Parse.tables source endLine seen ts = .ok ds) :
    ∃ d : Derivation, ts = d.tokens ∧ ds = d.read source ∧ NewNames d.names seen ∧
      ∀ entry ∈ d.tables, entry.1.IsAdmissible := by
  fun_induction Parse.tables source endLine seen ts generalizing ds with
  | case1 =>
      cases h
      exact ⟨⟨[], []⟩, rfl, rfl, newNames_nil _, by simp⟩
  | case2 seen t after hToken ih =>
      obtain ⟨d, hTokens, hRead, hNew, hAdmissible⟩ := ih h
      refine ⟨⟨t.place :: d.breaks, d.tables⟩, ?_, hRead, hNew, hAdmissible⟩
      rw [← t.mark_place hToken, hTokens]
      rfl
  | case3 => cases h
  | case4 => cases h
  | case5 => cases h
  | case6 seen t rest _ hToken read after hTable hSeen others hOthers ih =>
      cases h
      obtain ⟨tree, hTree, rfl, hHere⟩ := table_sound (p := t.place) hTable
      obtain ⟨d, rfl, rfl, hNew, hLater⟩ := ih hOthers
      rw [t.mark_place hToken] at hTree
      refine ⟨⟨[], (tree, d.breaks) :: d.tables⟩, ?_, rfl, newNames_cons.2 ⟨hSeen, hNew⟩,
        List.forall_mem_cons.2 ⟨hHere, hLater⟩⟩
      rw [hTree, Derivation.tokens, Derivation.tokens, tableTokens_cons]
      rfl
  | case7 => cases h

theorem tables_breaks {seen : List String} (breaks : List Place) (ts : List Located) :
    Parse.tables source endLine seen (breakTokens breaks ++ ts) =
      Parse.tables source endLine seen ts := by
  induction breaks with
  | nil => rfl
  | cons p breaks ih =>
      change Parse.tables _ _ _ (p.mark .lineBreak :: (breakTokens breaks ++ ts)) = _
      rw [Parse.tables, if_pos (p.mark_token _)]
      exact ih

/-- A table in order is read, and then its name is looked for among those that are taken. -/
theorem tables_table (source : List Char) (endLine : Nat) (seen : List String) {t : TableTree}
    (hAdmissible : t.IsAdmissible) (rest : List Located) :
    Parse.tables source endLine seen (t.tokens ++ rest) =
      if t.name.name ∈ seen then .error ⟨t.keyword.line, .duplicateTable t.name.name⟩
      else (Parse.tables source endLine (t.name.name :: seen) rest).map (t.read source :: ·) := by
  have hTable := table_complete source endLine hAdmissible rest
  rw [TableTree.tokens_append, Parse.tables, if_neg (by simp), if_pos (Place.mark_token _ _)]
  split
  · rename_i hFault
    cases hTable.symm.trans hFault
  · rename_i hRead
    cases hTable.symm.trans hRead
    rw [show (t.read source).name = t.name.name from rfl]
    split
    · rfl
    · cases Parse.tables source endLine (t.name.name :: seen) rest <;> rfl

/-- Tables in order are read up to what stands behind them. -/
theorem tables_append {seen : List String} {front : List (TableTree × List Place)}
    (hNew : NewNames (front.map (·.1.name.name)) seen)
    (hAdmissible : ∀ entry ∈ front, entry.1.IsAdmissible) (rest : List Located) :
    Parse.tables source endLine seen (tableTokens front ++ rest) =
      (Parse.tables source endLine ((front.map (·.1.name.name)).reverse ++ seen) rest).map
        (front.map (fun entry => entry.1.read source) ++ ·) := by
  induction front generalizing seen with
  | nil =>
      change Parse.tables source endLine seen rest = (Parse.tables source endLine seen rest).map _
      cases Parse.tables source endLine seen rest <;> rfl
  | cons entry front ih =>
      obtain ⟨tree, breaks⟩ := entry
      obtain ⟨hSeen, hLaterNew⟩ := newNames_cons.1 hNew
      obtain ⟨hHere, hLater⟩ := List.forall_mem_cons.1 hAdmissible
      rw [tableTokens_cons, List.append_assoc, List.append_assoc,
        tables_table source endLine seen hHere, if_neg hSeen, tables_breaks, ih hLaterNew hLater,
        List.map_cons, List.map_cons, List.reverse_cons, List.append_assoc]
      dsimp only [List.singleton_append]
      cases Parse.tables source endLine _ rest <;> rfl

theorem tables_complete {seen : List String} {ts : List (TableTree × List Place)}
    (hNew : NewNames (ts.map (·.1.name.name)) seen)
    (hAdmissible : ∀ entry ∈ ts, entry.1.IsAdmissible) :
    Parse.tables source endLine seen (tableTokens ts) =
      .ok (ts.map fun entry => entry.1.read source) := by
  have hTables := @tables_append source endLine _ _ hNew hAdmissible []
  rwa [List.append_nil, Parse.tables, Except.map, List.append_nil] at hTables

/-! ### Sources -/

theorem BlockTree.attr_infix {a : AttrTree} {b : BlockTree} (h : a ∈ b.attrs) :
    a.tokens <:+: b.tokens := by
  induction b with
  | close => cases h
  | last c p =>
      obtain rfl := List.mem_singleton.1 h
      exact (List.prefix_append ..).isInfix
  | line c p ps later ih =>
      rcases List.mem_cons.1 h with rfl | hLater
      · exact ⟨[], breakTokens (p :: ps) ++ later.tokens, by simp [BlockTree.tokens]⟩
      · exact (ih hLater).trans (List.suffix_append ..).isInfix

theorem TableTree.block_isInfix (t : TableTree) : t.block.tokens <:+: t.tokens :=
  List.infix_cons (List.infix_cons (List.infix_cons (List.suffix_append ..).isInfix))

theorem Derivation.table_infix {d : Derivation} {entry : TableTree × List Place}
    (hEntry : entry ∈ d.tables) : entry.1.tokens <:+: d.tokens := by
  have hTable : entry.1.tokens <:+: entry.1.tokens ++ breakTokens entry.2 :=
    (List.prefix_append ..).isInfix
  have hTables : entry.1.tokens ++ breakTokens entry.2 <:+: tableTokens d.tables := by
    rw [tableTokens, List.flatMap_def]
    exact List.infix_of_mem_flatten (List.mem_map_of_mem hEntry)
  exact hTable.trans (hTables.trans (List.suffix_append ..).isInfix)

theorem Derivation.attr_infix {d : Derivation} {entry : TableTree × List Place}
    (hEntry : entry ∈ d.tables) {a : AttrTree} (ha : a ∈ entry.1.block.attrs) :
    a.tokens <:+: d.tokens :=
  (BlockTree.attr_infix ha).trans (entry.1.block_isInfix.trans (Derivation.table_infix hEntry))

theorem AttrTree.type_infix (name : Word) (marks : Marks) (colon : Place) (type : TypeRun)
    (caption : Option Caption) :
    type.tokens <:+: (AttrTree.mk name (.typed marks colon type) caption).tokens := by
  refine ⟨name.token :: (marks.tokens ++ [colon.mark .colon]), captionTokens caption, ?_⟩
  simp [AttrTree.tokens, TargetTree.tokens]

/-- The slices of types have no blank at either end, since no token has, so the reader takes them
as they are. -/
theorem AttrTree.read_eq_spelled {text : String} {s : Scanned} (hScan : tokenize text = .ok s)
    {a : AttrTree} (ha : a.tokens <:+: s.tokens) :
    a.read text.toList = a.spelled text.toList := by
  obtain ⟨name, target, caption⟩ := a
  cases target with
  | reference => rfl
  | typed marks colon type =>
      obtain ⟨before, behind, hTokens⟩ :=
        (AttrTree.type_infix name marks colon type caption).trans ha
      have hTrimmed := Token.isTrimmed_slice hScan hTokens.symm fun t ht => (type.inType t ht).1
      have hText : type.trimmedText text.toList = type.text text.toList := by
        rw [TypeRun.trimmedText, Text.trim, TypeRun.text, String.toList_ofList]
        exact congrArg String.ofList hTrimmed.trimChars_eq
      simp only [AttrTree.read, TargetTree.read, hText]
      rfl

theorem Derivation.read_eq_spelled {text : String} {s : Scanned}
    (hScan : tokenize text = .ok s) {d : Derivation} (hTokens : d.tokens = s.tokens) :
    d.read text.toList = d.spelled text.toList := by
  apply List.map_congr_left
  intro entry hEntry
  rw [TableTree.read, TableTree.spelled, Table.mk.injEq]
  refine ⟨rfl, ?_⟩
  apply List.map_congr_left
  intro a ha
  exact AttrTree.read_eq_spelled hScan (hTokens ▸ Derivation.attr_infix hEntry ha)

theorem parse_of_derivation {text : String} {s : Scanned} (hScan : tokenize text = .ok s)
    {d : Derivation} (hTokens : d.tokens = s.tokens) (hAdmissible : d.IsAdmissible) :
    parse text = .ok (d.spelled text.toList) := by
  have hTables : Parse.tables text.toList s.endLine [] s.tokens = .ok (d.read text.toList) := by
    rw [← hTokens, Derivation.tokens, tables_breaks]
    exact tables_complete ⟨hAdmissible.tables_nodup, by simp⟩ fun entry hEntry =>
      ⟨hAdmissible.attrs_nodup entry hEntry, hAdmissible.legible entry hEntry⟩
  simp only [parse, hScan, hTables, Derivation.read_eq_spelled hScan hTokens]

theorem derivation_of_parse {text : String} {s : Scanned} (hScan : tokenize text = .ok s)
    {ds : List Table} (h : parse text = .ok ds) :
    ∃ d : Derivation, d.tokens = s.tokens ∧ d.IsAdmissible ∧ d.spelled text.toList = ds := by
  simp only [parse, hScan] at h
  split at h
  · cases h
  · rename_i hTables
    cases h
    obtain ⟨d, hTokens, rfl, hNew, hAdmissible⟩ := tables_sound hTables
    refine ⟨d, hTokens.symm, ⟨hNew.nodup, fun entry hEntry => (hAdmissible entry hEntry).nodup,
      fun entry hEntry => (hAdmissible entry hEntry).legible⟩, ?_⟩
    exact (Derivation.read_eq_spelled hScan hTokens.symm).symm

/-- A source is accepted exactly if its tokens have a derivation without repeated names and
unreadable captions. There is one derivation at most, and the tables are those it spells. -/
theorem parse_eq_ok_iff (text : String) (s : Scanned) (hScan : tokenize text = .ok s) :
    (∀ ds, parse text = .ok ds ↔
      ∃ d : Derivation, d.tokens = s.tokens ∧ d.IsAdmissible ∧ d.spelled text.toList = ds) ∧
    ∀ d e : Derivation, d.tokens = s.tokens → e.tokens = s.tokens → d = e := by
  refine ⟨fun ds => ⟨derivation_of_parse hScan, ?_⟩, fun d e hd he => ?_⟩
  · rintro ⟨d, hTokens, hAdmissible, rfl⟩
    exact parse_of_derivation hScan hTokens hAdmissible
  · exact Derivation.tokens_injective (hd.trans he.symm)

/-- A table of two attributes, one with flags, a question mark behind them and a caption. -/
theorem derivation_of_flagged_attribute :
    ∃ d : Derivation,
      d.tokens = [⟨.ident "table", 1, 0, 5⟩, ⟨.ident "A", 1, 6, 7⟩, ⟨.openBrace, 1, 8, 9⟩,
        ⟨.lineBreak, 1, 9, 10⟩, ⟨.ident "x", 2, 10, 11⟩, ⟨.openParen, 2, 11, 12⟩,
        ⟨.ident "PK", 2, 12, 14⟩, ⟨.closeParen, 2, 14, 15⟩, ⟨.question, 2, 15, 16⟩,
        ⟨.colon, 2, 16, 17⟩, ⟨.ident "t", 2, 18, 19⟩, ⟨.symbol '[', 2, 20, 21⟩,
        ⟨.symbol ']', 2, 21, 22⟩, ⟨.text " k = v=w", 2, 23, 33⟩, ⟨.lineBreak, 2, 33, 34⟩,
        ⟨.ident "y", 3, 34, 35⟩, ⟨.arrow, 3, 36, 38⟩, ⟨.ident "B", 3, 39, 40⟩,
        ⟨.dot, 3, 40, 41⟩, ⟨.ident "x", 3, 41, 42⟩, ⟨.closeBrace, 3, 43, 44⟩] ∧
      d.IsAdmissible ∧
      d.spelled "table A \x7b\nx(PK)?: t [] \" k = v=w\"\ny -> B.x \x7d".toList =
        [⟨"A", [⟨"x", true, ["PK"], [⟨"k", "v=w"⟩], .typed "t []"⟩,
          ⟨"y", false, [], [], .reference "B" "x"⟩]⟩] :=
  ((parse_eq_ok_iff "table A \x7b\nx(PK)?: t [] \" k = v=w\"\ny -> B.x \x7d" ⟨_, 3, 44⟩
    (by decide +kernel)).1 _).1
    (by decide +kernel)

end ErDiagram.Grammar
