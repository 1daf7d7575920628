import ErDiagram.Proofs.Grammar

/-! No sequence of tokens has two derivations. Each tree is cut off the front of a sequence by the
token that follows it, so equal sequences begin with equal trees. -/
namespace ErDiagram.Grammar

/-- Two sequences that run up to the first element outside of a class are equal, and so is what
follows them, if the whole sequences are. -/
theorem append_inj_of_stop {α : Type} {p : α → Prop} {xs ys r s : List α}
    (hxs : ∀ a ∈ xs, p a) (hys : ∀ a ∈ ys, p a) (hr : ∀ a ∈ r.head?, ¬ p a)
    (hs : ∀ a ∈ s.head?, ¬ p a) (h : xs ++ r = ys ++ s) : xs = ys ∧ r = s := by
  induction xs generalizing ys with
  | nil =>
      cases ys with
      | nil => exact ⟨rfl, h⟩
      | cons y ys =>
          rw [List.nil_append] at h
          subst h
          exact absurd (hys y List.mem_cons_self) (hr y rfl)
  | cons x xs ih =>
      cases ys with
      | nil =>
          rw [List.nil_append] at h
          subst h
          exact absurd (hxs x List.mem_cons_self) (hs x rfl)
      | cons y ys =>
          obtain ⟨hxy, hRest⟩ := List.cons.inj h
          obtain ⟨hEq, hFollow⟩ := ih (fun a ha => hxs a (List.mem_cons_of_mem _ ha))
            (fun a ha => hys a (List.mem_cons_of_mem _ ha)) hRest
          exact ⟨by rw [hxy, hEq], hFollow⟩

theorem Place.mark_inj {p q : Place} {t u : Token} : p.mark t = q.mark u ↔ p = q ∧ t = u := by
  cases p
  cases q
  simp [Place.mark, and_comm]

theorem Word.token_inj {v w : Word} : v.token = w.token ↔ v = w := by
  cases v
  cases w
  simp [Word.token, Place.mark_inj, and_comm]

@[simp] theorem Place.mark_token (p : Place) (t : Token) : (p.mark t).token = t := rfl

@[simp] theorem Word.token_token (w : Word) : w.token.token = .ident w.name := rfl

theorem map_mark_inj {t : Token} {ps qs : List Place} :
    ps.map (·.mark t) = qs.map (·.mark t) ↔ ps = qs :=
  (List.map_injective_iff.2 fun _ _ h => (Place.mark_inj.1 h).1).eq_iff

/-- Whether the next token, if there is one, is not of this kind. -/
def NotNext (t : Token) (ts : List Located) : Prop := ∀ next ∈ ts.head?, next.token ≠ t

@[simp] theorem notNext_cons {t : Token} {u : Located} {ts : List Located} :
    NotNext t (u :: ts) ↔ u.token ≠ t := by
  simp [NotNext]

theorem breakTokens_inj {ps qs : List Place} {r s : List Located} (hr : NotNext .lineBreak r)
    (hs : NotNext .lineBreak s) (h : breakTokens ps ++ r = breakTokens qs ++ s) :
    ps = qs ∧ r = s := by
  have hBreaks (bs : List Place) : ∀ t ∈ breakTokens bs, t.token = .lineBreak := by
    simp [breakTokens]
  obtain ⟨hEq, hFollow⟩ := append_inj_of_stop (hBreaks ps) (hBreaks qs) hr hs h
  exact ⟨map_mark_inj.1 hEq, hFollow⟩

theorem questionTokens_inj {p q : Option Place} {r s : List Located} (hr : NotNext .question r)
    (hs : NotNext .question s) (h : questionTokens p ++ r = questionTokens q ++ s) :
    p = q ∧ r = s := by
  cases p <;> cases q
  · exact ⟨rfl, h⟩
  · subst h
    simp [questionTokens] at hr
  · subst h
    simp [questionTokens] at hs
  · simpa [questionTokens, Place.mark_inj] using h

theorem commaTokens_inj {fs gs : List (Place × Word)} {r s : List Located}
    (hr : NotNext .comma r) (hs : NotNext .comma s)
    (h : commaTokens fs ++ r = commaTokens gs ++ s) : fs = gs ∧ r = s := by
  induction fs generalizing gs with
  | nil =>
      cases gs with
      | nil => exact ⟨rfl, h⟩
      | cons g gs =>
          change r = g.1.mark .comma :: _ at h
          subst h
          simp at hr
  | cons f fs ih =>
      cases gs with
      | nil =>
          change f.1.mark .comma :: _ = s at h
          subst h
          simp at hs
      | cons g gs =>
          change f.1.mark .comma :: f.2.token :: (commaTokens fs ++ r) =
            g.1.mark .comma :: g.2.token :: (commaTokens gs ++ s) at h
          simp only [List.cons.injEq, Place.mark_inj, Word.token_inj, and_true] at h
          obtain ⟨hComma, hFlag, hRest⟩ := h
          obtain ⟨hEq, hFollow⟩ := ih hRest
          exact ⟨by rw [hEq, Prod.ext hComma hFlag], hFollow⟩

theorem FlagList.tokens_inj {f g : FlagList} {r s : List Located}
    (h : f.tokens ++ r = g.tokens ++ s) : f = g ∧ r = s := by
  simp only [FlagList.tokens, List.cons_append, List.append_assoc, List.cons.injEq,
    Place.mark_inj, Word.token_inj, and_true, List.nil_append] at h
  obtain ⟨hOpening, hFirst, hRest⟩ := h
  obtain ⟨hOthers, hClosing⟩ := commaTokens_inj (by simp) (by simp) hRest
  simp only [List.cons.injEq, Place.mark_inj, and_true] at hClosing
  cases f
  cases g
  exact ⟨by simp_all, hClosing.2⟩

theorem FlagList.tokens_append (f : FlagList) (r : List Located) :
    f.tokens ++ r = f.opening.mark .openParen :: f.first.token ::
      (commaTokens f.others ++ f.closing.mark .closeParen :: r) := by
  simp [FlagList.tokens]

theorem optionalFlags_inj {f g : Option FlagList} {r s : List Located}
    (hr : NotNext .openParen r) (hs : NotNext .openParen s)
    (h : f.toList.flatMap FlagList.tokens ++ r = g.toList.flatMap FlagList.tokens ++ s) :
    f = g ∧ r = s := by
  cases f with
  | none =>
      cases g with
      | none => exact ⟨rfl, h⟩
      | some g =>
          simp only [Option.toList_none, List.flatMap_nil, List.nil_append, Option.toList_some,
            List.flatMap_singleton, FlagList.tokens_append] at h
          subst h
          simp at hr
  | some f =>
      cases g with
      | none =>
          simp only [Option.toList_none, List.flatMap_nil, List.nil_append, Option.toList_some,
            List.flatMap_singleton, FlagList.tokens_append] at h
          subst h
          simp at hs
      | some g =>
          simp only [Option.toList_some, List.flatMap_singleton] at h
          obtain ⟨rfl, hFollow⟩ := FlagList.tokens_inj h
          exact ⟨rfl, hFollow⟩

theorem optionalFlags_notNext (f : Option FlagList) {r : List Located}
    (hr : NotNext .question r) : NotNext .question (f.toList.flatMap FlagList.tokens ++ r) := by
  cases f with
  | none => exact hr
  | some f => simp [FlagList.tokens]

/-- A question mark before the flags and one behind them are told apart by the first token, or by
the one that follows the flags. -/
theorem questionFirst_ne_questionLast {question : Option Place} {flags : Option FlagList}
    {f : FlagList} {p : Place} {r s : List Located} (hQuestion : NotNext .question r)
    (hParen : NotNext .openParen r) :
    (Marks.questionFirst question flags).tokens ++ r ≠ (Marks.questionLast f p).tokens ++ s := by
  intro h
  simp only [Marks.tokens, List.append_assoc, List.singleton_append] at h
  rw [FlagList.tokens_append f] at h
  cases question with
  | some q => simp [questionTokens, Place.mark_inj] at h
  | none =>
      cases flags with
      | none =>
          simp only [questionTokens, Option.toList_none, List.map_nil, List.flatMap_nil,
            List.nil_append] at h
          subst h
          simp at hParen
      | some g =>
          simp only [questionTokens, Option.toList_none, List.map_nil, List.nil_append,
            Option.toList_some, List.flatMap_singleton] at h
          rw [← FlagList.tokens_append f] at h
          obtain ⟨-, hFollow⟩ := FlagList.tokens_inj h
          subst hFollow
          simp at hQuestion

theorem Marks.tokens_inj {m n : Marks} {r s : List Located} (hrQuestion : NotNext .question r)
    (hrParen : NotNext .openParen r) (hsQuestion : NotNext .question s)
    (hsParen : NotNext .openParen s) (h : m.tokens ++ r = n.tokens ++ s) : m = n ∧ r = s := by
  cases m with
  | questionFirst p f =>
      cases n with
      | questionFirst q g =>
          simp only [Marks.tokens, List.append_assoc] at h
          obtain ⟨rfl, hRest⟩ := questionTokens_inj (optionalFlags_notNext f hrQuestion)
            (optionalFlags_notNext g hsQuestion) h
          obtain ⟨rfl, hFollow⟩ := optionalFlags_inj hrParen hsParen hRest
          exact ⟨rfl, hFollow⟩
      | questionLast g q => exact absurd h (questionFirst_ne_questionLast hrQuestion hrParen)
  | questionLast f p =>
      cases n with
      | questionFirst q g => exact absurd h.symm (questionFirst_ne_questionLast hsQuestion hsParen)
      | questionLast g q =>
          simp only [Marks.tokens, List.append_assoc, List.singleton_append] at h
          obtain ⟨rfl, hRest⟩ := FlagList.tokens_inj h
          obtain ⟨hPlace, hFollow⟩ := List.cons.inj hRest
          exact ⟨by rw [(Place.mark_inj.1 hPlace).1], hFollow⟩

/-- Whether the next token, if there is one, ends an attribute. -/
def AtEnd (ts : List Located) : Prop :=
  ∀ next ∈ ts.head?, next.token = .lineBreak ∨ next.token = .closeBrace

@[simp] theorem atEnd_cons {t : Located} {ts : List Located} :
    AtEnd (t :: ts) ↔ t.token = .lineBreak ∨ t.token = .closeBrace := by
  simp [AtEnd]

theorem captionTokens_inj {a b : Option Caption} {r s : List Located} (hr : AtEnd r)
    (hs : AtEnd s) (h : captionTokens a ++ r = captionTokens b ++ s) : a = b ∧ r = s := by
  cases a <;> cases b
  · exact ⟨rfl, h⟩
  · subst h
    simp [captionTokens] at hr
  · subst h
    simp [captionTokens] at hs
  · rename_i a b
    cases a
    cases b
    simp_all [captionTokens, Place.mark_inj]

/-- No type goes on in the caption or behind it. -/
theorem not_inType_next {a : Option Caption} {r : List Located} (hr : AtEnd r) :
    ∀ t ∈ (captionTokens a ++ r).head?, ¬ InType t.token := by
  cases a with
  | none =>
      intro t ht hType
      rcases hr t ht with hBreak | hBrace
      · exact hType.1 hBreak
      · exact hType.2.1 hBrace
  | some a =>
      intro t ht hType
      simp only [captionTokens, Option.toList_some, List.map_cons, List.cons_append,
        List.head?_cons, Option.mem_def, Option.some.injEq] at ht
      exact hType.2.2 a.content (by rw [← ht, Place.mark_token])

theorem TypeRun.tokens_inj {q r : TypeRun} (h : q.tokens = r.tokens) : q = r := by
  cases q
  cases r
  simp_all [TypeRun.tokens]

/-- A reference begins like a typed attribute without flags, and the arrow decides. -/
theorem reference_tokens (question : Option Place) (arrow : Place) (table : Word) (dot : Place)
    (attr : Word) (r : List Located) :
    (TargetTree.reference question arrow table dot attr).tokens ++ r =
      (Marks.questionFirst question none).tokens ++ arrow.mark .arrow :: table.token ::
        dot.mark .dot :: attr.token :: r := by
  simp [TargetTree.tokens, Marks.tokens]

theorem typed_tokens (marks : Marks) (colon : Place) (type : TypeRun) (r : List Located) :
    (TargetTree.typed marks colon type).tokens ++ r =
      marks.tokens ++ colon.mark .colon :: (type.tokens ++ r) := by
  simp [TargetTree.tokens]

theorem typed_ne_reference {marks : Marks} {colon : Place} {type : TypeRun}
    {question : Option Place} {arrow : Place} {table : Word} {dot : Place} {attr : Word}
    {r s : List Located} :
    (TargetTree.typed marks colon type).tokens ++ r ≠
      (TargetTree.reference question arrow table dot attr).tokens ++ s := by
  intro h
  rw [reference_tokens, typed_tokens] at h
  obtain ⟨-, hRest⟩ := Marks.tokens_inj (by simp) (by simp) (by simp) (by simp) h
  simp [Place.mark_inj] at hRest

theorem TargetTree.tokens_inj {t u : TargetTree} {a b : Option Caption} {r s : List Located}
    (hr : AtEnd r) (hs : AtEnd s)
    (h : t.tokens ++ (captionTokens a ++ r) = u.tokens ++ (captionTokens b ++ s)) :
    t = u ∧ a = b ∧ r = s := by
  cases t with
  | typed marks colon type =>
      cases u with
      | typed marks' colon' type' =>
          rw [typed_tokens, typed_tokens] at h
          obtain ⟨rfl, hRest⟩ := Marks.tokens_inj (by simp) (by simp) (by simp) (by simp) h
          obtain ⟨hColon, hRest⟩ := List.cons.inj hRest
          obtain ⟨hType, hRest⟩ := append_inj_of_stop type.inType type'.inType
            (not_inType_next hr) (not_inType_next hs) hRest
          obtain ⟨hCaption, hFollow⟩ := captionTokens_inj hr hs hRest
          exact ⟨by rw [(Place.mark_inj.1 hColon).1, TypeRun.tokens_inj hType], hCaption, hFollow⟩
      | reference => exact absurd h typed_ne_reference
  | reference question arrow table dot attr =>
      cases u with
      | typed => exact absurd h.symm typed_ne_reference
      | reference question' arrow' table' dot' attr' =>
          rw [reference_tokens, reference_tokens] at h
          obtain ⟨hMarks, hRest⟩ := Marks.tokens_inj (by simp) (by simp) (by simp) (by simp) h
          simp only [List.cons.injEq, Place.mark_inj, Word.token_inj, and_true] at hRest
          obtain ⟨rfl, rfl, rfl, rfl, hRest⟩ := hRest
          obtain ⟨hCaption, hFollow⟩ := captionTokens_inj hr hs hRest
          exact ⟨by rw [(Marks.questionFirst.inj hMarks).1], hCaption, hFollow⟩

theorem AttrTree.tokens_append (a : AttrTree) (r : List Located) :
    a.tokens ++ r = a.name.token :: (a.target.tokens ++ (captionTokens a.caption ++ r)) := by
  simp [AttrTree.tokens]

theorem AttrTree.tokens_inj {a b : AttrTree} {r s : List Located} (hr : AtEnd r) (hs : AtEnd s)
    (h : a.tokens ++ r = b.tokens ++ s) : a = b ∧ r = s := by
  rw [AttrTree.tokens_append, AttrTree.tokens_append] at h
  obtain ⟨hName, hRest⟩ := List.cons.inj h
  obtain ⟨hTarget, hCaption, hFollow⟩ := TargetTree.tokens_inj hr hs hRest
  cases a
  cases b
  exact ⟨by simp_all [Word.token_inj], hFollow⟩

theorem AttrTree.tokens_ne_close {a : AttrTree} {p : Place} {r s : List Located} :
    a.tokens ++ r ≠ p.mark .closeBrace :: s := by
  intro h
  rw [AttrTree.tokens_append] at h
  simp [Word.token, Place.mark_inj] at h

/-- A block begins with a name or with its closing brace. -/
theorem BlockTree.notNext_lineBreak (b : BlockTree) (r : List Located) :
    NotNext .lineBreak (b.tokens ++ r) := by
  cases b <;> simp [BlockTree.tokens, AttrTree.tokens]

theorem BlockTree.line_tokens (a : AttrTree) (lineBreak : Place) (more : List Place)
    (later : BlockTree) (r : List Located) :
    (BlockTree.line a lineBreak more later).tokens ++ r =
      a.tokens ++ (breakTokens (lineBreak :: more) ++ (later.tokens ++ r)) := by
  simp [BlockTree.tokens]

theorem BlockTree.last_tokens (a : AttrTree) (closing : Place) (r : List Located) :
    (BlockTree.last a closing).tokens ++ r = a.tokens ++ closing.mark .closeBrace :: r := by
  simp [BlockTree.tokens]

theorem last_ne_line {a b : AttrTree} {closing lineBreak : Place} {more : List Place}
    {later : BlockTree} {r s : List Located} :
    (BlockTree.last a closing).tokens ++ r ≠
      (BlockTree.line b lineBreak more later).tokens ++ s := by
  intro h
  rw [BlockTree.line_tokens, BlockTree.last_tokens] at h
  obtain ⟨-, hRest⟩ := AttrTree.tokens_inj (by simp) (by simp [breakTokens]) h
  simp [breakTokens, Place.mark_inj] at hRest

theorem BlockTree.tokens_inj {b c : BlockTree} {r s : List Located}
    (h : b.tokens ++ r = c.tokens ++ s) : b = c ∧ r = s := by
  induction b generalizing c with
  | close closing =>
      cases c with
      | close closing' =>
          obtain ⟨hPlace, hFollow⟩ := List.cons.inj h
          exact ⟨by rw [(Place.mark_inj.1 hPlace).1], hFollow⟩
      | last a closing' =>
          rw [BlockTree.last_tokens] at h
          exact absurd h.symm AttrTree.tokens_ne_close
      | line a lineBreak more later =>
          rw [BlockTree.line_tokens] at h
          exact absurd h.symm AttrTree.tokens_ne_close
  | last a closing =>
      cases c with
      | close closing' =>
          rw [BlockTree.last_tokens] at h
          exact absurd h AttrTree.tokens_ne_close
      | last a' closing' =>
          rw [BlockTree.last_tokens, BlockTree.last_tokens] at h
          obtain ⟨rfl, hRest⟩ := AttrTree.tokens_inj (by simp) (by simp) h
          obtain ⟨hPlace, hFollow⟩ := List.cons.inj hRest
          exact ⟨by rw [(Place.mark_inj.1 hPlace).1], hFollow⟩
      | line a' lineBreak more later => exact absurd h last_ne_line
  | line a lineBreak more later ih =>
      cases c with
      | close closing' =>
          rw [BlockTree.line_tokens] at h
          exact absurd h AttrTree.tokens_ne_close
      | last a' closing' => exact absurd h.symm last_ne_line
      | line a' lineBreak' more' later' =>
          rw [BlockTree.line_tokens, BlockTree.line_tokens] at h
          obtain ⟨rfl, hRest⟩ :=
            AttrTree.tokens_inj (by simp [breakTokens]) (by simp [breakTokens]) h
          obtain ⟨hBreaks, hLater⟩ := breakTokens_inj (later.notNext_lineBreak r)
            (later'.notNext_lineBreak s) hRest
          obtain ⟨rfl, hFollow⟩ := ih hLater
          obtain ⟨rfl, rfl⟩ := List.cons.inj hBreaks
          exact ⟨rfl, hFollow⟩

theorem TableTree.tokens_append (t : TableTree) (r : List Located) :
    t.tokens ++ r = t.keyword.mark (.ident "table") :: t.name.token ::
      t.opening.mark .openBrace :: (breakTokens t.breaks ++ (t.block.tokens ++ r)) := by
  simp [TableTree.tokens]

theorem TableTree.tokens_inj {t u : TableTree} {r s : List Located}
    (h : t.tokens ++ r = u.tokens ++ s) : t = u ∧ r = s := by
  rw [TableTree.tokens_append, TableTree.tokens_append] at h
  simp only [List.cons.injEq, Place.mark_inj, Word.token_inj, and_true] at h
  obtain ⟨hKeyword, hName, hOpening, hRest⟩ := h
  obtain ⟨hBreaks, hRest⟩ := breakTokens_inj (t.block.notNext_lineBreak r)
    (u.block.notNext_lineBreak s) hRest
  obtain ⟨hBlock, hFollow⟩ := BlockTree.tokens_inj hRest
  cases t
  cases u
  exact ⟨by simp_all, hFollow⟩

theorem notNext_lineBreak_tableTokens (ts : List (TableTree × List Place)) :
    NotNext .lineBreak (tableTokens ts) := by
  cases ts with
  | nil => simp [tableTokens, NotNext]
  | cons entry ts => simp [tableTokens, TableTree.tokens]

theorem tableTokens_cons (t : TableTree) (breaks : List Place)
    (ts : List (TableTree × List Place)) :
    tableTokens ((t, breaks) :: ts) = t.tokens ++ (breakTokens breaks ++ tableTokens ts) := by
  simp [tableTokens]

theorem tableTokens_inj {ts us : List (TableTree × List Place)}
    (h : tableTokens ts = tableTokens us) : ts = us := by
  induction ts generalizing us with
  | nil =>
      cases us with
      | nil => rfl
      | cons entry us => simp [tableTokens, TableTree.tokens] at h
  | cons entry ts ih =>
      cases us with
      | nil => simp [tableTokens, TableTree.tokens] at h
      | cons entry' us =>
          obtain ⟨t, breaks⟩ := entry
          obtain ⟨u, breaks'⟩ := entry'
          rw [tableTokens_cons, tableTokens_cons] at h
          obtain ⟨rfl, hRest⟩ := TableTree.tokens_inj h
          obtain ⟨rfl, hLater⟩ := breakTokens_inj (notNext_lineBreak_tableTokens ts)
            (notNext_lineBreak_tableTokens us) hRest
          rw [ih hLater]

/-- The grammar is unambiguous. -/
theorem Derivation.tokens_injective {d e : Derivation} (h : d.tokens = e.tokens) : d = e := by
  obtain ⟨hBreaks, hTables⟩ := breakTokens_inj (notNext_lineBreak_tableTokens d.tables)
    (notNext_lineBreak_tableTokens e.tables) h
  have hEq := tableTokens_inj hTables
  cases d
  cases e
  simp_all

end ErDiagram.Grammar
