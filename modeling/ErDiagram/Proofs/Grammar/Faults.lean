import ErDiagram.Proofs.Grammar.Acceptance
import ErDiagram.Proofs.Grammar.Automaton

/-! A token out of place is found as soon as it is read: what stands before it begins a sentence of
the grammar, and no sentence goes on with it. Each reader is followed to each of its faults. -/
namespace ErDiagram

/-- Whether the fault is a token out of place. The grammar has no part in the other faults. -/
def SyntaxFault.IsUnexpected (f : SyntaxFault) : Prop :=
  ∃ found expected, f.cause = .unexpected found expected

end ErDiagram

namespace ErDiagram.Grammar

open Parse Spot

variable {source : List Char} {endLine : Nat}

/-- The next token. There is none at the end of the source. -/
def upcoming (ts : List Located) : Option Token := ts.head?.map Located.token

theorem upcoming_eq_some_iff {t : Token} {ts : List Located} :
    upcoming ts = some t ↔ ∃ line start stop more, ts = ⟨t, line, start, stop⟩ :: more := by
  constructor
  · intro h
    obtain ⟨⟨token, line, start, stop⟩, hHead, rfl⟩ := Option.map_eq_some_iff.1 h
    obtain ⟨more, rfl⟩ := List.head?_eq_some_iff.1 hHead
    exact ⟨line, start, stop, more, rfl⟩
  · rintro ⟨line, start, stop, more, rfl⟩
    rfl

theorem upcoming_ne {t : Token} {ts : List Located}
    (h : ∀ line start stop more, ts = ⟨t, line, start, stop⟩ :: more → False) :
    upcoming ts ≠ some t := by
  intro hNext
  obtain ⟨line, start, stop, more, hTokens⟩ := upcoming_eq_some_iff.1 hNext
  exact h line start stop more hTokens

theorem notNext_iff {t : Token} {ts : List Located} : NotNext t ts ↔ upcoming ts ≠ some t := by
  cases ts with
  | nil => simp [NotNext, upcoming]
  | cons u ts => simp [upcoming]

theorem unexpected_cause (endLine : Nat) (expected : Expectation) (ts : List Located) :
    (Parse.unexpected endLine expected ts).cause = .unexpected (upcoming ts) expected := by
  cases ts <;> rfl

/-- The fault is at the first token with which nothing goes on at the spot `q`. What stands before
it begins one of the sequences that fit there. -/
inductive Stuck (endLine : Nat) (q : Spot) (Fits : List Located → Prop) :
    List Located → SyntaxFault → Prop where
  | intro {before after behind : List Located} {r : Spot} {expected : Expectation}
      (fits : Fits (before ++ behind)) (reads : q.Reads before r)
      (stops : r.step (upcoming after) = none) :
      Stuck endLine q Fits (before ++ after) (unexpected endLine expected after)

section Stuck

variable {q r : Spot} {Fits FitsBehind : List Located → Prop} {ts : List Located}
  {f : SyntaxFault}

theorem Stuck.isUnexpected (h : Stuck endLine q Fits ts f) : f.IsUnexpected := by
  obtain @⟨before, after, behind, r, expected, fits, reads, stops⟩ := h
  exact ⟨upcoming after, expected, unexpected_cause endLine expected after⟩

theorem Stuck.here {expected : Expectation} (hAny : ∃ behind, Fits behind)
    (hStop : q.step (upcoming ts) = none) :
    Stuck endLine q Fits ts (unexpected endLine expected ts) := by
  obtain ⟨behind, hFits⟩ := hAny
  exact @Stuck.intro _ _ _ [] ts behind q expected hFits (.nil q) hStop

/-- Tokens that are read before put the fault as far behind. Whatever fits behind them has to be the
middle of something that fits as a whole. -/
theorem Stuck.after (us : List Located) (h : Stuck endLine r FitsBehind ts f)
    (hReads : q.Reads us r) (hFits : ∀ xs, FitsBehind xs → ∃ ys, Fits (us ++ (xs ++ ys))) :
    Stuck endLine q Fits (us ++ ts) f := by
  obtain ⟨fits, reads, stops⟩ := h
  obtain ⟨ys, hAll⟩ := hFits _ fits
  rw [← List.append_assoc]
  rw [List.append_assoc, ← List.append_assoc] at hAll
  exact .intro hAll (hReads.append reads) stops

theorem Stuck.mono (h : Stuck endLine q FitsBehind ts f)
    (hFits : ∀ xs, FitsBehind xs → ∃ ys, Fits (xs ++ ys)) : Stuck endLine q Fits ts f :=
  h.after [] (.nil q) hFits

end Stuck

instance : Inhabited Place := ⟨⟨0, 0, 0⟩⟩

instance : Inhabited Word := ⟨⟨"", default⟩⟩

instance : Inhabited FlagList := ⟨⟨default, default, [], default⟩⟩

instance : Inhabited TypeRun := ⟨⟨(default : Word).token, [], by simp [InType]⟩⟩

instance : Inhabited TargetTree := ⟨.typed (.questionFirst none none) default default⟩

instance : Inhabited AttrTree := ⟨⟨default, default, none⟩⟩

instance : Inhabited BlockTree := ⟨.close default⟩

instance : Inhabited TableTree := ⟨⟨default, default, default, [], default⟩⟩

variable {ts rest : List Located} {f : SyntaxFault}

/-! ### Names, marks and flags -/

theorem ident_error {expected : Expectation} (h : ident endLine expected ts = .error f) :
    f = unexpected endLine expected ts ∧ ∀ name, upcoming ts ≠ some (.ident name) := by
  unfold ident at h
  split at h
  · cases h
  · rename_i hNoName
    cases h
    exact ⟨rfl, fun name => upcoming_ne (hNoName name)⟩

theorem mark_error {token : Token} {expected : Expectation}
    (h : Parse.mark endLine token expected ts = .error f) :
    f = unexpected endLine expected ts ∧ upcoming ts ≠ some token := by
  unfold Parse.mark at h
  split at h
  · cases h
    exact ⟨rfl, by simp [upcoming]⟩
  · split at h
    · cases h
    · rename_i hToken
      cases h
      exact ⟨rfl, by simpa [upcoming] using hToken⟩

/-- Where only a name may stand, a reader of a name stops together with the automaton. -/
theorem ident_stuck {q : Spot} {Fits : List Located → Prop} {expected : Expectation}
    (hName : ∀ t, (∀ name, t ≠ some (.ident name)) → q.step t = none)
    (hAny : ∃ behind, Fits behind) (h : ident endLine expected ts = .error f) :
    Stuck endLine q Fits ts f := by
  obtain ⟨rfl, hNoName⟩ := ident_error h
  exact .here hAny (hName _ hNoName)

theorem mark_stuck {q : Spot} {Fits : List Located → Prop} {token : Token}
    {expected : Expectation} (hMark : ∀ t, t ≠ some token → q.step t = none)
    (hAny : ∃ behind, Fits behind) (h : Parse.mark endLine token expected ts = .error f) :
    Stuck endLine q Fits ts f := by
  obtain ⟨rfl, hNoMark⟩ := mark_error h
  exact .here hAny (hMark _ hNoMark)

theorem moreFlags_stuck (late : Bool) (h : moreFlags endLine ts = .error f) :
    Stuck endLine (flagEnd late) (fun xs => ∃ fs, xs = commaTokens fs) ts f := by
  fun_induction moreFlags endLine ts with
  | case1 line start stop flag line' start' stop' rest fault hMore ih =>
      cases h
      refine (ih hMore).after [⟨.comma, _, _, _⟩, ⟨.ident flag, _, _, _⟩]
        (.cons rfl (.cons rfl (.nil _))) ?_
      rintro _ ⟨fs, rfl⟩
      exact ⟨[], (⟨line, start, stop⟩, ⟨flag, line', start', stop'⟩) :: fs,
        by rw [List.append_nil]; rfl⟩
  | case2 => cases h
  | case3 line start stop rest hNoName =>
      cases h
      have hFlag : Stuck endLine (flagName late) (fun xs => ∃ w : Word, xs = [w.token]) rest
          (unexpected endLine .flagName rest) := by
        refine .here ⟨_, default, rfl⟩ ?_
        -- This is what the last case of `step` asks for.
        have hNext name := upcoming_ne (hNoName name)
        simp only [step]
      refine hFlag.after [⟨.comma, _, _, _⟩] (.cons rfl (.nil _)) ?_
      rintro _ ⟨w, rfl⟩
      exact ⟨[], [(⟨line, start, stop⟩, w)], rfl⟩
  | case4 => cases h

theorem moreFlags_notNext {names : List String} (h : moreFlags endLine ts = .ok (names, rest)) :
    NotNext .comma rest := by
  fun_induction moreFlags endLine ts generalizing names rest with
  | case1 => cases h
  | case2 _ _ _ _ _ _ _ _ _ _ hMore ih =>
      cases h
      exact ih hMore
  | case3 => cases h
  | case4 ts hFlag hComma =>
      cases h
      exact notNext_iff.2 (upcoming_ne hComma)

theorem flagList_stuck {p : Place} (late : Bool) (h : flagList endLine ts = .error f) :
    Stuck endLine (flagName late)
      (fun xs => ∃ l : FlagList, p.mark .openParen :: xs = l.tokens) ts f := by
  simp only [flagList, bind_eq_error, Prod.exists, ident_eq_ok_iff] at h
  obtain hFirst | ⟨_, _, ⟨first, rfl, rfl⟩, h⟩ := h
  · exact ident_stuck (fun t hNoName => by simp only [step]) ⟨_, ⟨p, default, [], default⟩, rfl⟩
      hFirst
  obtain hOthers | ⟨names, after, hOthers, h⟩ := h
  · refine (moreFlags_stuck late hOthers).after [first.token] (.cons rfl (.nil _)) ?_
    rintro _ ⟨fs, rfl⟩
    exact ⟨_, ⟨p, first, fs, default⟩, rfl⟩
  obtain hClosing | ⟨_, _, -, hResult⟩ := h
  · have hNoComma := notNext_iff.1 (moreFlags_notNext hOthers)
    obtain ⟨fs, rfl, rfl⟩ := moreFlags_sound hOthers
    obtain ⟨rfl, hNoParen⟩ := mark_error hClosing
    have hClose : Stuck endLine (flagEnd late) (fun xs => ∃ q : Place, xs = [q.mark .closeParen])
        after (unexpected endLine .closeParen after) :=
      .here ⟨_, default, rfl⟩ (by simp only [step])
    refine hClose.after (first.token :: commaTokens fs)
      (.cons rfl (commaTokens_reads late fs)) ?_
    rintro _ ⟨q, rfl⟩
    exact ⟨[], ⟨p, first, fs, q⟩, rfl⟩
  · cases hResult

/-- The readers of an early question mark and of the flags behind it stop only within the flags. -/
theorem marks_stuck (h : Parse.flags endLine (questionMark ts).2 = .error f) :
    Stuck endLine named (fun xs => ∃ m : Marks, xs = m.tokens) ts f := by
  obtain ⟨q, hTokens, -⟩ := questionMark_sound ts
  rw [hTokens]
  generalize (questionMark ts).2 = behind at h
  unfold Parse.flags at h
  split at h
  · rename_i line start stop more
    have hList (late : Bool) := flagList_stuck (p := ⟨line, start, stop⟩) late h
    have hFlags {r : Spot} {late : Bool} (hOpen : r.step (some .openParen) = some (flagName late)) :
        Stuck endLine r (fun xs => ∃ l : FlagList, xs = l.tokens)
          (⟨.openParen, line, start, stop⟩ :: more) f := by
      refine (hList late).after [⟨.openParen, line, start, stop⟩]
        (.cons hOpen (.nil _)) ?_
      rintro xs ⟨l, hl⟩
      exact ⟨[], l, by rw [List.append_nil]; exact hl⟩
    cases q with
    | none =>
        refine (hFlags rfl).mono ?_
        rintro _ ⟨l, rfl⟩
        exact ⟨[], .questionFirst none (some l), by simp [Marks.tokens, questionTokens]⟩
    | some p =>
        refine (hFlags rfl).after _ (.cons rfl (.nil _)) ?_
        rintro _ ⟨l, rfl⟩
        exact ⟨[], .questionFirst (some p) (some l), by simp [Marks.tokens, questionTokens]⟩
  · cases h

/-! ### Attributes -/

theorem questionMark_notNext (h : (questionMark ts).1 = false) :
    upcoming (questionMark ts).2 ≠ some .question := by
  unfold questionMark at h ⊢
  split
  · cases h
  · rename_i hNoQuestion
    exact upcoming_ne hNoQuestion

/-- What the readers of question marks and flags leave does not begin with another one. -/
structure Marks.EndsBefore (m : Marks) (rest : List Located) : Prop where
  question : m.hasQuestion = false → upcoming rest ≠ some .question
  flags : m.flagNames = [] → upcoming rest ≠ some .openParen

/-- Behind the marks a colon follows, or an arrow if there are no flags. -/
theorem Marks.EndsBefore.step_eq_none {m : Marks} (h : m.EndsBefore rest)
    (hColon : upcoming rest ≠ some .colon)
    (hArrow : m.flagNames = [] → upcoming rest ≠ some .arrow) :
    m.spot.step (upcoming rest) = none := by
  obtain ⟨hQuestion, hParen⟩ := h
  match m with
  | .questionFirst none none =>
      have := hQuestion rfl
      have := hParen rfl
      have := hArrow rfl
      simp only [Marks.spot, step]
  | .questionFirst (some _) none =>
      have := hParen rfl
      have := hArrow rfl
      simp only [Marks.spot, step]
  | .questionFirst none (some _) =>
      have := hQuestion rfl
      simp only [Marks.spot, step]
  | .questionFirst (some _) (some _) =>
      simp only [Marks.spot, step]
      split <;> simp_all
  | .questionLast _ _ =>
      simp only [Marks.spot, step]
      split <;> simp_all

theorem flags_notNext {names : List String} (h : Parse.flags endLine ts = .ok (names, rest))
    (hNames : names = []) : ts = rest ∧ upcoming rest ≠ some .openParen := by
  unfold Parse.flags at h
  split at h
  · obtain ⟨l, -, rfl⟩ := flagList_sound (p := default) h
    exact absurd hNames l.names_ne_nil
  · rename_i hNoParen
    cases h
    exact ⟨rfl, upcoming_ne hNoParen⟩

theorem marks_endsBefore {names : List String} {m : Marks}
    (h : Parse.flags endLine (questionMark ts).2 = .ok (names, rest))
    (hQuestion : m.hasQuestion =
      ((questionMark ts).1 || (lateQuestion (questionMark ts).1 rest).1))
    (hNames : m.flagNames = names) : m.EndsBefore (lateQuestion (questionMark ts).1 rest).2 := by
  constructor
  · intro hNone
    rw [hNone, eq_comm, Bool.or_eq_false_iff] at hQuestion
    obtain ⟨hEarly, hLate⟩ := hQuestion
    rw [hEarly] at hLate ⊢
    exact questionMark_notNext hLate
  · intro hNone
    obtain ⟨hRest, hNoParen⟩ := flags_notNext h (hNames.symm.trans hNone)
    cases hEarly : (questionMark ts).1 with
    | true => exact hNoParen
    | false =>
        -- Without flags between them, the second question mark would have been the first.
        have hNoQuestion := questionMark_notNext hEarly
        rw [hRest] at hNoQuestion
        rw [lateQuestion_of_notNext false (notNext_iff.2 hNoQuestion)]
        exact hNoParen

theorem typeText_stuck (h : typeText source endLine ts = .error f) :
    Stuck endLine typeBegin (fun xs => ∃ type : TypeRun, xs = type.tokens) ts f := by
  unfold typeText at h
  split at h
  · rename_i hTake
    cases h
    refine .here ⟨_, default, rfl⟩ ?_
    cases ts with
    | nil => rfl
    | cons t ts =>
        have hStop : ¬ InType t.token := by
          rw [← isTypeToken_iff]
          intro hType
          rw [List.takeWhile_cons_of_pos hType] at hTake
          cases hTake
        change typeBegin.step (some t.token) = none
        cases hToken : t.token with
        | lineBreak | closeBrace | text => rfl
        | _ => simp [InType, hToken] at hStop
  · cases h

def referenceTokens (table : Word) (dot : Place) (attr : Word) : List Located :=
  [table.token, dot.mark .dot, attr.token]

theorem reference_stuck {arrow : Place}
    (h : Parse.target source endLine false (arrow.mark .arrow :: ts) = .error f) :
    Stuck endLine refTable (fun xs => ∃ table dot attr, xs = referenceTokens table dot attr)
      ts f := by
  rw [show arrow.mark .arrow = ⟨.arrow, arrow.line, arrow.start, arrow.stop⟩ from rfl] at h
  simp only [Parse.target, Bool.false_eq_true, if_false, bind_eq_error, Prod.exists,
    ident_eq_ok_iff] at h
  obtain hTable | ⟨_, _, ⟨table, rfl, rfl⟩, h⟩ := h
  · exact ident_stuck (fun t hNoName => by simp only [step]) ⟨_, default, default, default, rfl⟩
      hTable
  obtain hDot | ⟨_, ts, hDot, h⟩ := h
  · have hStuck : Stuck endLine refDot (fun xs => ∃ dot attr, xs = [Place.mark dot .dot,
        Word.token attr]) _ f :=
      mark_stuck (fun t hNoDot => by simp only [step]) ⟨_, default, default, rfl⟩ hDot
    refine hStuck.after [table.token] (.cons rfl (.nil _)) ?_
    rintro _ ⟨dot, attr, rfl⟩
    exact ⟨[], table, dot, attr, rfl⟩
  obtain ⟨dot, rfl⟩ := mark_eq_ok_iff.1 hDot
  obtain hAttr | ⟨_, _, -, hResult⟩ := h
  · have hStuck : Stuck endLine refAttr (fun xs => ∃ attr, xs = [Word.token attr]) _ f :=
      ident_stuck (fun t hNoName => by simp only [step]) ⟨_, default, rfl⟩ hAttr
    refine hStuck.after [table.token, dot.mark .dot]
      (.cons rfl (.cons rfl (.nil _))) ?_
    rintro _ ⟨attr, rfl⟩
    exact ⟨[], table, dot, attr, rfl⟩
  · cases hResult

theorem Marks.eq_of_flagNames_eq_nil {m : Marks} (h : m.flagNames = []) :
    ∃ q, m = .questionFirst q none := by
  match m with
  | .questionFirst q none => exact ⟨q, rfl⟩
  | .questionFirst _ (some l) => exact absurd h l.names_ne_nil
  | .questionLast l _ => exact absurd h l.names_ne_nil

theorem target_stuck {m : Marks} (hMarks : m.EndsBefore ts)
    (h : Parse.target source endLine (!m.flagNames.isEmpty) ts = .error f) :
    Stuck endLine m.spot (fun xs => ∃ t : TargetTree, m.tokens ++ xs = t.tokens) ts f := by
  have hAny : ∃ xs, ∃ t : TargetTree, m.tokens ++ xs = t.tokens :=
    ⟨_, .typed m default default, rfl⟩
  unfold Parse.target at h
  split at h
  · rename_i line start stop ts
    simp only [bind_eq_error, Prod.exists] at h
    obtain hType | ⟨_, _, -, hResult⟩ := h
    · refine (typeText_stuck hType).after [⟨.colon, line, start, stop⟩]
        (.cons m.spot_colon (.nil _)) ?_
      rintro _ ⟨type, rfl⟩
      exact ⟨[], .typed m ⟨line, start, stop⟩ type, by rw [List.append_nil]; rfl⟩
    · cases hResult
  · rename_i line start stop ts
    split at h
    · rename_i hFlags
      cases h
      refine .here hAny (hMarks.step_eq_none (by simp [upcoming]) fun hNone => ?_)
      rw [hNone] at hFlags
      cases hFlags
    · rename_i hFlags
      have hNone : m.flagNames = [] := by simpa using hFlags
      obtain ⟨q, rfl⟩ := Marks.eq_of_flagNames_eq_nil hNone
      have hArrow : (Marks.questionFirst q none).spot.step (some .arrow) = some refTable := by
        cases q <;> rfl
      have hStuck := @reference_stuck source _ _ _ ⟨line, start, stop⟩ h
      refine hStuck.after [⟨.arrow, line, start, stop⟩] (.cons hArrow (.nil _)) ?_
      rintro _ ⟨table, dot, attr, rfl⟩
      exact ⟨[], .reference q ⟨line, start, stop⟩ table dot attr,
        by simp [Marks.tokens, TargetTree.tokens, referenceTokens, Place.mark]⟩
  · rename_i hNoColon hNoArrow
    cases h
    exact .here hAny (hMarks.step_eq_none (upcoming_ne hNoColon) fun _ => upcoming_ne hNoArrow)

/-- A caption that cannot be read is reported on its own line. -/
theorem notes_eq_error_iff : notes ts = .error f ↔
    ∃ (a : Caption) (rest : List Located), ts = a.place.mark (.text a.content) :: rest ∧
      ∃ segment, a.illegible? = some segment ∧ f = segmentFault a.place.line segment := by
  constructor
  · intro h
    unfold notes at h
    split at h
    · rename_i content line start stop rest
      simp only [bind_eq_error] at h
      obtain hRead | ⟨_, -, hResult⟩ := h
      · exact ⟨⟨content, line, start, stop⟩, rest, rfl, notesOf_eq_error_iff.1 hRead⟩
      · cases hResult
    · cases h
  · rintro ⟨a, rest, rfl, hSegment⟩
    exact bind_eq_error.2 (Or.inl (notesOf_eq_error_iff.2 hSegment))

theorem attributeDecl_stuck (hBreak : upcoming ts ≠ some .lineBreak)
    (hBrace : upcoming ts ≠ some .closeBrace)
    (h : attributeDecl source endLine ts = .error f) (hFault : f.IsUnexpected) :
    Stuck endLine inside (fun xs => ∃ a : AttrTree, xs = a.tokens) ts f := by
  simp only [attributeDecl, bind_eq_error, Prod.exists, ident_eq_ok_iff] at h
  obtain hName | ⟨_, ts, ⟨name, rfl, rfl⟩, h⟩ := h
  · obtain ⟨rfl, hNoName⟩ := ident_error hName
    exact .here ⟨_, default, rfl⟩ (by simp only [step])
  obtain hFlags | ⟨names, after, hFlags, h⟩ := h
  · refine (marks_stuck hFlags).after [name.token] (.cons rfl (.nil _)) ?_
    rintro _ ⟨m, rfl⟩
    exact ⟨(default : Place).mark .colon :: (default : TypeRun).tokens,
      ⟨name, .typed m default default, none⟩,
      by simp [AttrTree.tokens, TargetTree.tokens, captionTokens]⟩
  obtain ⟨marks, hMarks, hQuestion, rfl, -⟩ := marks_sound hFlags
  have hEnds := marks_endsBefore hFlags hQuestion rfl
  obtain hTarget | ⟨_, behind, -, h⟩ := h
  · rw [hMarks]
    refine (target_stuck hEnds hTarget).after (name.token :: marks.tokens)
      (.cons rfl marks.reads) ?_
    rintro xs ⟨target, hTokens⟩
    exact ⟨[], ⟨name, target, none⟩, by simp [AttrTree.tokens, captionTokens, ← hTokens]⟩
  obtain hNotes | ⟨_, _, -, hResult⟩ := h
  · obtain ⟨_, _, -, _, -, rfl⟩ := notes_eq_error_iff.1 hNotes
    obtain ⟨_, _, hCause⟩ := hFault
    cases hCause
  · cases hResult

/-! ### Blocks, tables and sources -/

/-- Behind an attribute that has ended, only the end of its line may follow. -/
theorem AttrTree.EndsBefore.step_eq_none {a : AttrTree} (h : a.EndsBefore ts)
    (hBreak : upcoming ts ≠ some .lineBreak) (hBrace : upcoming ts ≠ some .closeBrace) :
    a.spot.step (upcoming ts) = none := by
  obtain ⟨name, target, caption⟩ := a
  cases caption with
  | some c => simp only [AttrTree.spot, step]
  | none =>
      obtain ⟨hNoText, hNoType⟩ := h rfl
      have hText content := notNext_iff.1 (hNoText content)
      cases target with
      | reference => simp only [AttrTree.spot, TargetTree.spot, step]
      | typed marks colon type =>
          cases ts with
          | nil => rfl
          | cons t ts =>
              have hStop : ¬ InType t.token := hNoType marks colon type rfl t rfl
              cases hToken : t.token <;> simp_all [InType, upcoming]

/-- A fault that is found behind the token `u` is found from any spot that `u` leads to the same
place. -/
theorem Stuck.behind {p q : Spot} {Fits : List Located → Prop} {u : Located}
    (h : Stuck endLine q Fits (u :: ts) f) (hRead : q.step (some u.token) ≠ none)
    (hSame : p.step (some u.token) = q.step (some u.token)) :
    Stuck endLine p (fun xs => Fits xs ∧ ∃ more, xs = u :: more) (u :: ts) f := by
  generalize hTokens : u :: ts = us at h
  obtain @⟨before, after, behind, r, expected, fits, reads, stops⟩ := h
  cases before with
  | nil =>
      cases hTokens
      cases reads
      exact absurd stops hRead
  | cons v before =>
      obtain ⟨rfl, rfl⟩ := List.cons.inj hTokens
      obtain ⟨s, hStep, hRest⟩ := reads_cons_iff.1 reads
      exact .intro ⟨fits, _, rfl⟩ (.cons (hSame.trans hStep) hRest) stops

/-- A later attribute is read from behind the one before it, where the automaton has not come back
to the inside of the table yet. The line break takes it there from either spot. -/
theorem block_stuck {table : String} {tableLine : Nat} {seen : List String}
    (h : block source endLine table tableLine seen ts = .error f) (hFault : f.IsUnexpected) :
    Stuck endLine inside (fun xs => ∃ breaks b, xs = breakTokens breaks ++ BlockTree.tokens b)
      ts f := by
  fun_induction block source endLine table tableLine seen ts with
  | case1 =>
      cases h
      obtain ⟨_, _, hCause⟩ := hFault
      cases hCause
  | case2 seen t after hToken ih =>
      have hRead : inside.step (some t.token) = some inside := by rw [hToken]; rfl
      refine (ih h).after [t] (.cons hRead (.nil _)) ?_
      rintro _ ⟨breaks, b, rfl⟩
      refine ⟨[], t.place :: breaks, b, ?_⟩
      rw [List.append_nil, ← t.mark_place hToken]
      rfl
  | case3 => cases h
  | case4 seen t after fault hDecl hBreak hBrace =>
      cases h
      refine (attributeDecl_stuck ?_ ?_ hDecl hFault).mono ?_
      · simpa [upcoming] using hBreak
      · simpa [upcoming] using hBrace
      · rintro _ ⟨a, rfl⟩
        exact ⟨_, [], .last a default, rfl⟩
  | case5 =>
      cases h
      obtain ⟨_, _, hCause⟩ := hFault
      cases hCause
  | case6 =>
      cases h
      obtain ⟨_, _, hCause⟩ := hFault
      cases hCause
  | case7 seen t after a hSeen u more hDecl hEnd fault hBlock _ _ _ ih =>
      cases h
      obtain ⟨tree, hTokens, rfl, -, -⟩ := attributeDecl_sound hDecl
      have hSame : tree.spot.step (some u.token) = inside.step (some u.token) := by
        rcases hEnd with hBreak | hBrace
        · rw [hBreak, tree.spot_end.1]; rfl
        · rw [hBrace, tree.spot_end.2]; rfl
      have hRead : inside.step (some u.token) ≠ none := by
        rcases hEnd with hBreak | hBrace
        · rw [hBreak]; exact Option.some_ne_none _
        · rw [hBrace]; exact Option.some_ne_none _
      rw [hTokens]
      refine ((ih hBlock).behind hRead hSame).after _ tree.reads ?_
      rintro _ ⟨⟨breaks, b, hLater⟩, more, rfl⟩
      rw [← (BlockTree.tokens b).append_nil] at hLater
      obtain ⟨c, hCons, -⟩ := BlockTree.exists_cons tree hLater hEnd
      exact ⟨[], [], c, by rw [List.append_nil, hCons, List.append_nil]; rfl⟩
  | case8 => cases h
  | case9 seen t after a hSeen u more hDecl hEnd =>
      cases h
      obtain ⟨tree, hTokens, rfl, -, hEnds⟩ := attributeDecl_sound hDecl
      obtain ⟨hBreak, hBrace⟩ := not_or.1 hEnd
      have hStuck : Stuck endLine tree.spot (fun xs => ∃ p : Place, xs = [p.mark .closeBrace])
          (u :: more) (unexpected endLine .endOfLine (u :: more)) :=
        .here ⟨_, default, rfl⟩
          (hEnds.step_eq_none (by simpa [upcoming] using hBreak) (by simpa [upcoming] using hBrace))
      rw [hTokens]
      refine hStuck.after _ tree.reads ?_
      rintro _ ⟨p, rfl⟩
      exact ⟨[], [], .last tree p, rfl⟩

theorem table_stuck {p : Place} (h : Parse.table source endLine p.line ts = .error f)
    (hFault : f.IsUnexpected) :
    Stuck endLine tableName
      (fun xs => ∃ t : TableTree, p.mark (.ident "table") :: xs = t.tokens) ts f := by
  simp only [Parse.table, bind_eq_error, Prod.exists, ident_eq_ok_iff] at h
  obtain hName | ⟨_, _, ⟨name, rfl, rfl⟩, h⟩ := h
  · exact ident_stuck (fun t hNoName => by simp only [step])
      ⟨_, ⟨p, default, default, [], default⟩, rfl⟩ hName
  obtain hOpening | ⟨_, _, hOpening, h⟩ := h
  · have hStuck : Stuck endLine opening (fun xs => ∃ o b, xs =
        Place.mark o .openBrace :: BlockTree.tokens b) _ f :=
      mark_stuck (fun t hNoBrace => by simp only [step]) ⟨_, default, default, rfl⟩ hOpening
    refine hStuck.after [name.token] (.cons rfl (.nil _)) ?_
    rintro _ ⟨o, b, rfl⟩
    exact ⟨[], ⟨p, name, o, [], b⟩, by rw [List.append_nil]; rfl⟩
  obtain ⟨o, rfl⟩ := mark_eq_ok_iff.1 hOpening
  obtain hBlock | ⟨_, _, -, hResult⟩ := h
  · refine (block_stuck hBlock hFault).after [name.token, o.mark .openBrace]
      (.cons rfl (.cons rfl (.nil _))) ?_
    rintro _ ⟨breaks, b, rfl⟩
    exact ⟨[], ⟨p, name, o, breaks, b⟩, by rw [List.append_nil]; rfl⟩
  · cases hResult

theorem tables_stuck {seen : List String} (h : Parse.tables source endLine seen ts = .error f)
    (hFault : f.IsUnexpected) :
    Stuck endLine outside (fun xs => ∃ d : Derivation, xs = d.tokens) ts f := by
  fun_induction Parse.tables source endLine seen ts with
  | case1 => cases h
  | case2 seen t after hToken ih =>
      have hRead : outside.step (some t.token) = some outside := by rw [hToken]; rfl
      refine (ih h).after [t] (.cons hRead (.nil _)) ?_
      rintro _ ⟨d, rfl⟩
      refine ⟨[], ⟨t.place :: d.breaks, d.tables⟩, ?_⟩
      rw [List.append_nil, ← t.mark_place hToken]
      rfl
  | case3 seen t after hBreak hToken fault hTable =>
      cases h
      have hRead : outside.step (some t.token) = some tableName := by rw [hToken]; rfl
      refine (table_stuck (p := t.place) hTable hFault).after [t]
        (.cons hRead (.nil _)) ?_
      rintro xs ⟨tree, hTree⟩
      refine ⟨[], ⟨[], [(tree, [])]⟩, ?_⟩
      rw [t.mark_place hToken] at hTree
      simp [Derivation.tokens, breakTokens, tableTokens, ← hTree]
  | case4 =>
      cases h
      obtain ⟨_, _, hCause⟩ := hFault
      cases hCause
  | case5 seen t rest _ hToken read after hTable hSeen fault hLater ih =>
      cases h
      obtain ⟨tree, hTree, -, -⟩ := table_sound (p := t.place) hTable
      rw [t.mark_place hToken] at hTree
      rw [hTree]
      refine (ih hLater).after _ tree.reads ?_
      rintro _ ⟨d, rfl⟩
      refine ⟨[], ⟨[], (tree, d.breaks) :: d.tables⟩, ?_⟩
      rw [List.append_nil, Derivation.tokens, Derivation.tokens, tableTokens_cons]
      rfl
  | case6 => cases h
  | case7 seen t rest hBreak hTable =>
      cases h
      refine .here ⟨_, ⟨[], []⟩, rfl⟩ ?_
      change outside.step (some t.token) = none
      simp only [step, if_neg hTable]

/-- Some sentence of the grammar begins with these tokens. The end of the source is the last of
a sentence. -/
def BeginsSentence (ts : List (Option Token)) : Prop := ∃ d : Derivation, ts <+: d.sentence

end ErDiagram.Grammar

namespace ErDiagram

open Grammar Spot

/-- What the readers are given: the tokens and the end of the source, each with its line. -/
def Scanned.stream (s : Scanned) : List (Option Token × Nat) :=
  s.tokens.map (fun t => (some t.token, t.line)) ++ [(none, s.endLine)]

def Scanned.kinds (s : Scanned) : List (Option Token) := s.stream.map Prod.fst

theorem Scanned.kinds_eq (s : Scanned) : s.kinds = Grammar.kinds s.tokens ++ [none] := by
  simp [Scanned.kinds, Scanned.stream, Grammar.kinds]

theorem fault_of_parse {text : String} {s : Scanned} (hScan : tokenize text = .ok s)
    {e : SyntaxError} (h : parse text = .error e) :
    Parse.tables text.toList s.endLine [] s.tokens = .error e.toSyntaxFault := by
  simp only [parse, hScan] at h
  split at h
  · rename_i fault hTables
    cases h
    exact hTables
  · cases h

theorem Scanned.stream_getElem? {s : Scanned} {before after : List Located}
    (hTokens : s.tokens = before ++ after) (expected : Expectation) :
    s.stream[before.length]? =
      some (upcoming after, (Parse.unexpected s.endLine expected after).line) := by
  rw [Scanned.stream, hTokens, List.map_append, List.append_assoc,
    List.getElem?_append_right (by simp), List.length_map, Nat.sub_self]
  cases after <;> rfl

theorem Scanned.kinds_take {s : Scanned} {before after : List Located}
    (hTokens : s.tokens = before ++ after) :
    s.kinds.take before.length = Grammar.kinds before ∧
      s.kinds.take (before.length + 1) = Grammar.kinds before ++ [upcoming after] := by
  have hLength : before.length = (Grammar.kinds before).length := by simp [Grammar.kinds]
  rw [s.kinds_eq, hTokens, kinds_append, List.append_assoc, hLength]
  refine ⟨List.take_left, ?_⟩
  rw [List.take_length_add_append]
  cases after <;> rfl

/-- A token that is reported as unexpected is the first one with which no sentence goes on. Its line
is the one that is reported. -/
theorem exists_first_misfit_of_parse (text : String) (s : Scanned) (hScan : tokenize text = .ok s)
    (e : SyntaxError) (h : parse text = .error e) (found : Option Token) (expected : Expectation)
    (hCause : e.cause = .unexpected found expected) :
    ∃ k, s.stream[k]? = some (found, e.line) ∧ BeginsSentence (s.kinds.take k) ∧
      ¬ BeginsSentence (s.kinds.take (k + 1)) := by
  have hStuck := tables_stuck (fault_of_parse hScan h) ⟨found, expected, hCause⟩
  generalize hTokens : s.tokens = ts at hStuck
  generalize hFault : e.toSyntaxFault = f at hStuck hCause
  obtain @⟨before, after, behind, r, expected', ⟨d, fits⟩, reads, stops⟩ := hStuck
  rw [unexpected_cause] at hCause
  cases hCause
  obtain ⟨hBefore, hWithNext⟩ := Scanned.kinds_take hTokens
  refine ⟨before.length, ?_, ⟨d, ?_⟩, ?_⟩
  · rw [Scanned.stream_getElem? hTokens expected, ← hFault]
  · rw [hBefore, Derivation.sentence, ← fits]
    exact ⟨Grammar.kinds behind ++ [none], by simp [Grammar.kinds]⟩
  · rintro ⟨d', hPrefix⟩
    rw [hWithNext] at hPrefix
    refine not_prefix_of_run_eq_none ?_ d' hPrefix
    have hRun : outside.run (Grammar.kinds before) = some r := reads
    rw [run_append, hRun, Option.bind_some, run, List.foldlM_cons, stops]
    rfl

/-- A second question mark behind the flags does not fit. -/
theorem exists_first_misfit_of_second_question :
    ∃ s : Scanned, tokenize "table A \x7b\n x?(PK)?: t \x7d" = .ok s ∧
      ∃ k, s.stream[k]? = some (some .question, 2) ∧ BeginsSentence (s.kinds.take k) ∧
        ¬ BeginsSentence (s.kinds.take (k + 1)) := by
  let tokens : List Located := [⟨.ident "table", 1, 0, 5⟩, ⟨.ident "A", 1, 6, 7⟩,
    ⟨.openBrace, 1, 8, 9⟩, ⟨.lineBreak, 1, 9, 10⟩, ⟨.ident "x", 2, 11, 12⟩,
    ⟨.question, 2, 12, 13⟩, ⟨.openParen, 2, 13, 14⟩, ⟨.ident "PK", 2, 14, 16⟩,
    ⟨.closeParen, 2, 16, 17⟩, ⟨.question, 2, 17, 18⟩, ⟨.colon, 2, 18, 19⟩, ⟨.ident "t", 2, 20, 21⟩,
    ⟨.closeBrace, 2, 22, 23⟩]
  have hScan : tokenize "table A \x7b\n x?(PK)?: t \x7d" = .ok ⟨tokens, 2, 23⟩ := by
    decide +kernel
  have hParse : parse "table A \x7b\n x?(PK)?: t \x7d" =
      .error ⟨⟨2, .unexpected (some .question) .colonOrArrow⟩, "x?(PK)?: t \x7d"⟩ := by
    decide +kernel
  exact ⟨_, hScan, exists_first_misfit_of_parse _ _ hScan _ hParse _ _ rfl⟩

end ErDiagram
