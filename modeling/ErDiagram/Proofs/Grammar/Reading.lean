import ErDiagram.Proofs.Grammar.Unambiguous
import ErDiagram.Proofs.Text

/-! What each reader accepts. Read from left to right, an accepted sequence begins with the tokens
of a tree; conversely the tokens of a tree are accepted in front of anything that cannot go on
with it. -/
namespace ErDiagram.Grammar

open Parse

variable {source : List Char} {endLine : Nat}

theorem bind_eq_ok {α β : Type} {x : Read α} {f : α → Read β} {r : β} :
    (x >>= f) = .ok r ↔ ∃ a, x = .ok a ∧ f a = .ok r := by
  cases x <;> simp [bind, Except.bind]

theorem bind_eq_error {α β : Type} {x : Read α} {g : α → Read β} {f : SyntaxFault} :
    (x >>= g) = .error f ↔ x = .error f ∨ ∃ a, x = .ok a ∧ g a = .error f := by
  cases x <;> simp [bind, Except.bind]

/-! ### Names, marks and flags -/

theorem ident_eq_ok_iff {expected : Expectation} {ts rest : List Located} {name : String} :
    ident endLine expected ts = .ok (name, rest) ↔
      ∃ w : Word, w.name = name ∧ ts = w.token :: rest := by
  constructor
  · intro h
    unfold ident at h
    split at h
    · rename_i name line start stop rest
      cases h
      exact ⟨⟨name, line, start, stop⟩, rfl, rfl⟩
    · cases h
  · rintro ⟨w, rfl, rfl⟩
    rfl

theorem mark_eq_ok_iff {token : Token} {expected : Expectation} {ts rest : List Located} :
    Parse.mark endLine token expected ts = .ok ((), rest) ↔
      ∃ p : Place, ts = p.mark token :: rest := by
  constructor
  · intro h
    unfold Parse.mark at h
    split at h
    · cases h
    · rename_i t rest
      split at h
      · rename_i hToken
        cases h
        subst hToken
        exact ⟨⟨t.line, t.start, t.stop⟩, rfl⟩
      · cases h
  · rintro ⟨p, rfl⟩
    simp [Parse.mark, Place.mark]

@[simp] theorem ident_token (w : Word) (expected : Expectation) (rest : List Located) :
    ident endLine expected (w.token :: rest) = .ok (w.name, rest) := rfl

@[simp] theorem mark_token (p : Place) (token : Token) (expected : Expectation)
    (rest : List Located) :
    Parse.mark endLine token expected (p.mark token :: rest) = .ok ((), rest) :=
  mark_eq_ok_iff.2 ⟨p, rfl⟩

theorem moreFlags_sound {ts rest : List Located} {names : List String}
    (h : moreFlags endLine ts = .ok (names, rest)) :
    ∃ fs, ts = commaTokens fs ++ rest ∧ names = fs.map (·.2.name) := by
  fun_induction moreFlags endLine ts generalizing names rest with
  | case1 => cases h
  | case2 line start stop flag line' start' stop' ts flags after hMore ih =>
      cases h
      obtain ⟨fs, hTokens, hNames⟩ := ih hMore
      exact ⟨(⟨line, start, stop⟩, ⟨flag, line', start', stop'⟩) :: fs,
        by rw [hTokens]; rfl, by rw [hNames]; rfl⟩
  | case3 => cases h
  | case4 =>
      cases h
      exact ⟨[], rfl, rfl⟩

theorem moreFlags_complete (fs : List (Place × Word)) {rest : List Located}
    (hRest : NotNext .comma rest) :
    moreFlags endLine (commaTokens fs ++ rest) = .ok (fs.map (·.2.name), rest) := by
  induction fs with
  | nil =>
      change moreFlags endLine rest = .ok ([], rest)
      unfold moreFlags
      split
      · simp at hRest
      · simp at hRest
      · rfl
  | cons f fs ih =>
      change moreFlags endLine (f.1.mark .comma :: f.2.token :: (commaTokens fs ++ rest)) = _
      simp [moreFlags, Place.mark, Word.token, ih]

theorem flagList_sound {p : Place} {ts rest : List Located} {names : List String}
    (h : flagList endLine ts = .ok (names, rest)) :
    ∃ f : FlagList, p.mark .openParen :: ts = f.tokens ++ rest ∧ names = f.names := by
  simp only [flagList, bind_eq_ok, Prod.exists, ident_eq_ok_iff] at h
  obtain ⟨_, _, ⟨first, rfl, rfl⟩, others, after, hOthers, _, rest', hClosing, hResult⟩ := h
  obtain ⟨fs, rfl, rfl⟩ := moreFlags_sound hOthers
  obtain ⟨closing, rfl⟩ := mark_eq_ok_iff.1 hClosing
  cases hResult
  exact ⟨⟨p, first, fs, closing⟩, by simp [FlagList.tokens_append], rfl⟩

theorem flags_sound {ts rest : List Located} {names : List String}
    (h : Parse.flags endLine ts = .ok (names, rest)) :
    ∃ f : Option FlagList, ts = f.toList.flatMap FlagList.tokens ++ rest ∧
      names = (f.map FlagList.names).getD [] := by
  unfold Parse.flags at h
  split at h
  · rename_i line start stop ts
    obtain ⟨f, hTokens, hNames⟩ := flagList_sound (p := ⟨line, start, stop⟩) h
    refine ⟨some f, ?_, hNames⟩
    rw [Option.toList_some, List.flatMap_singleton]
    exact hTokens
  · cases h
    exact ⟨none, rfl, rfl⟩

theorem flags_complete (endLine : Nat) (f : Option FlagList) {rest : List Located}
    (hRest : NotNext .openParen rest) :
    Parse.flags endLine (f.toList.flatMap FlagList.tokens ++ rest) =
      .ok ((f.map FlagList.names).getD [], rest) := by
  cases f with
  | none =>
      change Parse.flags endLine rest = .ok ([], rest)
      unfold Parse.flags
      split
      · simp at hRest
      · rfl
  | some f =>
      rw [Option.toList_some, List.flatMap_singleton, FlagList.tokens_append]
      change flagList endLine (f.first.token :: _) = _
      simp only [flagList, ident_token, bind, Except.bind]
      rw [moreFlags_complete f.others (by simp)]
      simp only [mark_token]
      rfl

theorem questionMark_sound (ts : List Located) :
    ∃ q : Option Place, ts = questionTokens q ++ (questionMark ts).2 ∧
      (questionMark ts).1 = q.isSome := by
  unfold questionMark
  split
  · rename_i line start stop rest
    exact ⟨some ⟨line, start, stop⟩, rfl, rfl⟩
  · exact ⟨none, rfl, rfl⟩

theorem questionMark_complete (q : Option Place) {rest : List Located}
    (hRest : NotNext .question rest) :
    questionMark (questionTokens q ++ rest) = (q.isSome, rest) := by
  cases q with
  | none =>
      change questionMark rest = (false, rest)
      unfold questionMark
      split
      · simp at hRest
      · rfl
  | some p => rfl

/-! ### Captions and types -/

theorem note_eq_ok_iff {line : Nat} {segment : List Char} {n : Note} :
    note line segment = .ok n ↔ '=' ∈ segment ∧ n = segmentNote segment := by
  unfold note
  cases hSplit : Text.splitFirst '=' segment with
  | none =>
      rw [Text.splitFirst_eq_none_iff] at hSplit
      simp [hSplit]
  | some parts =>
      obtain ⟨before, after⟩ := parts
      rw [Text.splitFirst_eq_some_iff] at hSplit
      obtain ⟨rfl, hBefore⟩ := hSplit
      have hInside : ∀ c ∈ before, decide (c ≠ '=') = true := by
        intro c hc
        exact decide_eq_true (ne_of_mem_of_not_mem hc hBefore)
      have hNote : segmentNote (before ++ '=' :: after) =
          ⟨String.ofList (Text.trimChars before), String.ofList (Text.trimChars after)⟩ := by
        rw [segmentNote, List.takeWhile_append_of_pos hInside, List.dropWhile_append_of_pos hInside]
        simp
      simp only [hNote, List.mem_append, List.mem_cons, true_or, or_true, true_and,
        Except.ok.injEq]
      exact eq_comm

theorem mapM_note_eq_ok_iff {line : Nat} {segments : List (List Char)} {ns : List Note} :
    segments.mapM (note line) = .ok ns ↔
      (∀ segment ∈ segments, '=' ∈ segment) ∧ ns = segments.map segmentNote := by
  induction segments generalizing ns with
  | nil => simp [pure, Except.pure, eq_comm]
  | cons segment segments ih =>
      simp only [List.mapM_cons, bind_eq_ok, note_eq_ok_iff, ih, pure, Except.pure,
        Except.ok.injEq, List.forall_mem_cons, List.map_cons]
      constructor
      · rintro ⟨_, ⟨hHere, rfl⟩, _, ⟨hLater, rfl⟩, rfl⟩
        exact ⟨⟨hHere, hLater⟩, rfl⟩
      · rintro ⟨⟨hHere, hLater⟩, rfl⟩
        exact ⟨_, ⟨hHere, rfl⟩, _, ⟨hLater, rfl⟩, rfl⟩

theorem notesOf_eq_ok_iff {line : Nat} {a : Caption} {ns : List Note} :
    notesOf line a.content.toList = .ok ns ↔ a.IsLegible ∧ ns = a.notes := by
  unfold notesOf Caption.IsLegible Caption.notes
  by_cases hBlank : a.IsBlank
  · rw [if_pos (Text.trimChars_eq_nil_iff.2 hBlank), if_pos hBlank]
    simp [hBlank, eq_comm]
  · rw [if_neg (mt Text.trimChars_eq_nil_iff.1 hBlank), if_neg hBlank]
    simp [hBlank, mapM_note_eq_ok_iff, Caption.segments]

/-- A segment without an equals sign is quoted without the blanks around it. -/
def segmentFault (line : Nat) (segment : List Char) : SyntaxFault :=
  ⟨line, .noteWithoutEquals (String.ofList (Text.trimChars segment))⟩

theorem note_eq_error_iff {line : Nat} {segment : List Char} {f : SyntaxFault} :
    note line segment = .error f ↔ '=' ∉ segment ∧ f = segmentFault line segment := by
  unfold note
  cases hSplit : Text.splitFirst '=' segment with
  | none =>
      rw [Text.splitFirst_eq_none_iff] at hSplit
      simp [hSplit, segmentFault, eq_comm]
  | some parts =>
      obtain ⟨before, after⟩ := parts
      rw [Text.splitFirst_eq_some_iff] at hSplit
      simp [hSplit.1]

/-- The first segment that is no note is the one reported. -/
theorem mapM_note_eq_error_iff {line : Nat} {segments : List (List Char)} {f : SyntaxFault} :
    segments.mapM (note line) = .error f ↔
      ∃ segment, segments.find? (fun segment => '=' ∉ segment) = some segment ∧
        f = segmentFault line segment := by
  induction segments with
  | nil => simp [pure, Except.pure]
  | cons segment segments ih =>
      simp only [List.mapM_cons, bind_eq_error, note_eq_error_iff, note_eq_ok_iff, ih]
      by_cases hEquals : '=' ∈ segment
      · simp [hEquals, pure, Except.pure]
      · simp [hEquals]

theorem notesOf_eq_error_iff {line : Nat} {a : Caption} {f : SyntaxFault} :
    notesOf line a.content.toList = .error f ↔
      ∃ segment, a.illegible? = some segment ∧ f = segmentFault line segment := by
  unfold notesOf Caption.illegible?
  by_cases hBlank : a.IsBlank
  · rw [if_pos (Text.trimChars_eq_nil_iff.2 hBlank), if_pos hBlank]
    simp
  · rw [if_neg (mt Text.trimChars_eq_nil_iff.1 hBlank), if_neg hBlank]
    exact mapM_note_eq_error_iff

theorem notes_sound {ts rest : List Located} {ns : List Note}
    (h : notes ts = .ok (ns, rest)) :
    ∃ a : Option Caption, ts = captionTokens a ++ rest ∧
      (∀ caption ∈ a, caption.IsLegible) ∧ ns = (a.map Caption.notes).getD [] ∧
      (a = none → ∀ content, NotNext (.text content) rest) := by
  unfold notes at h
  split at h
  · rename_i content line start stop ts
    simp only [bind_eq_ok] at h
    obtain ⟨read, hRead, hResult⟩ := h
    cases hResult
    let a : Caption := ⟨content, line, start, stop⟩
    obtain ⟨hLegible, rfl⟩ := (notesOf_eq_ok_iff (a := a)).1 hRead
    refine ⟨some a, rfl, ?_, rfl, fun hNone => by cases hNone⟩
    rintro caption ⟨⟩
    exact hLegible
  · rename_i hNoText
    cases h
    refine ⟨none, rfl, by simp, rfl, fun _ content next hNext hText => ?_⟩
    obtain ⟨more, rfl⟩ := List.head?_eq_some_iff.1 hNext
    exact hNoText content next.line next.start next.stop more (by rw [← hText])

theorem notes_complete {a : Option Caption} {rest : List Located}
    (hLegible : ∀ caption ∈ a, caption.IsLegible)
    (hRest : a = none → ∀ content, NotNext (.text content) rest) :
    notes (captionTokens a ++ rest) = .ok ((a.map Caption.notes).getD [], rest) := by
  cases a with
  | none =>
      change notes rest = .ok ([], rest)
      unfold notes
      split
      · rename_i content line start stop more
        exact absurd rfl (notNext_cons.1 (hRest rfl content))
      · rfl
  | some a =>
      have hRead : notesOf a.place.line a.content.toList = .ok a.notes :=
        notesOf_eq_ok_iff.2 ⟨hLegible a rfl, rfl⟩
      change (do let read ← notesOf a.place.line a.content.toList; return (read, rest)) = _
      rw [hRead]
      rfl

theorem isTypeToken_iff {t : Located} : isTypeToken t = true ↔ InType t.token := by
  unfold isTypeToken InType
  split <;> simp_all

/-- Until the slices of types are known to have no blanks at their ends, the text that a reader
takes for a type is the slice without them. -/
def TypeRun.trimmedText (source : List Char) (r : TypeRun) : String :=
  Text.trim (r.text source)

theorem typeText_sound {ts rest : List Located} {text : String}
    (h : typeText source endLine ts = .ok (text, rest)) :
    ∃ r : TypeRun, ts = r.tokens ++ rest ∧ text = r.trimmedText source ∧
      ∀ t ∈ rest.head?, ¬ InType t.token := by
  unfold typeText at h
  split at h
  · cases h
  · rename_i first others hTake
    cases h
    refine ⟨⟨first, others, fun t ht => ?_⟩, ?_, ?_, fun t ht => ?_⟩
    · rw [← hTake] at ht
      exact isTypeToken_iff.1 (List.mem_takeWhile_imp ht)
    · rw [TypeRun.tokens, ← hTake, List.takeWhile_append_dropWhile]
    · simp [TypeRun.trimmedText, TypeRun.text, TypeRun.last, Text.trim]
    · have hStop := List.head?_dropWhile_not isTypeToken ts
      rw [ht] at hStop
      rw [← isTypeToken_iff, hStop]
      exact Bool.false_ne_true

/-- The tokens of a type are cut off by the one behind them. -/
theorem TypeRun.span_tokens (r : TypeRun) {rest : List Located}
    (hRest : ∀ t ∈ rest.head?, ¬ InType t.token) :
    (r.tokens ++ rest).takeWhile isTypeToken = r.tokens ∧
      (r.tokens ++ rest).dropWhile isTypeToken = rest := by
  refine Text.span_append (fun t ht => isTypeToken_iff.2 (r.inType t ht)) fun t ht => ?_
  rw [Bool.eq_false_iff, Ne, isTypeToken_iff]
  exact hRest t ht

theorem typeText_complete (r : TypeRun) {rest : List Located}
    (hRest : ∀ t ∈ rest.head?, ¬ InType t.token) :
    typeText source endLine (r.tokens ++ rest) = .ok (r.trimmedText source, rest) := by
  obtain ⟨hTake, hDrop⟩ := r.span_tokens hRest
  unfold typeText
  rw [hTake, hDrop]
  simp [TypeRun.tokens, TypeRun.trimmedText, TypeRun.text, TypeRun.last, Text.trim]

/-! ### Attributes -/

theorem target_sound {hasFlags : Bool} {ts rest : List Located} {t : Target}
    (h : Parse.target source endLine hasFlags ts = .ok (t, rest)) :
    (∃ (colon : Place) (type : TypeRun), ts = colon.mark .colon :: (type.tokens ++ rest) ∧
      t = .typed (type.trimmedText source) ∧ ∀ t ∈ rest.head?, ¬ InType t.token) ∨
    hasFlags = false ∧ ∃ (arrow : Place) (table : Word) (dot : Place) (attr : Word),
      ts = arrow.mark .arrow :: table.token :: dot.mark .dot :: attr.token :: rest ∧
      t = .reference table.name attr.name := by
  unfold Parse.target at h
  split at h
  · rename_i line start stop ts
    simp only [bind_eq_ok, Prod.exists] at h
    obtain ⟨text, after, hText, hResult⟩ := h
    obtain ⟨type, rfl, rfl, hStop⟩ := typeText_sound hText
    cases hResult
    exact Or.inl ⟨⟨line, start, stop⟩, type, rfl, rfl, hStop⟩
  · rename_i line start stop ts
    split at h
    · cases h
    · rename_i hFlags
      simp only [bind_eq_ok, Prod.exists, ident_eq_ok_iff] at h
      obtain ⟨_, _, ⟨table, rfl, rfl⟩, _, after, hDot, _, _, ⟨attr, rfl, rfl⟩, hResult⟩ := h
      obtain ⟨dot, rfl⟩ := mark_eq_ok_iff.1 hDot
      cases hResult
      exact Or.inr ⟨by simpa using hFlags, ⟨line, start, stop⟩, table, dot, attr, rfl, rfl⟩
  · cases h

theorem target_typed (source : List Char) (endLine : Nat) (hasFlags : Bool) (colon : Place)
    (type : TypeRun) {rest : List Located} (hRest : ∀ t ∈ rest.head?, ¬ InType t.token) :
    Parse.target source endLine hasFlags (colon.mark .colon :: (type.tokens ++ rest)) =
      .ok (.typed (type.trimmedText source), rest) := by
  simp only [Parse.target, Place.mark, typeText_complete type hRest, bind, Except.bind]
  rfl

theorem target_reference (source : List Char) (endLine : Nat) (arrow : Place) (table : Word)
    (dot : Place) (attr : Word) (rest : List Located) :
    Parse.target source endLine false
      (arrow.mark .arrow :: table.token :: dot.mark .dot :: attr.token :: rest) =
        .ok (.reference table.name attr.name, rest) := by
  rw [show arrow.mark .arrow = ⟨.arrow, arrow.line, arrow.start, arrow.stop⟩ from rfl]
  simp only [Parse.target, Bool.false_eq_true, if_false, ident_token, mark_token, bind, Except.bind]
  rfl

def TargetTree.read (source : List Char) : TargetTree → Target
  | typed _ _ type => .typed (type.trimmedText source)
  | reference _ _ table _ attr => .reference table.name attr.name

/-- The attribute that the reader gives for a tree. -/
def AttrTree.read (source : List Char) (a : AttrTree) : Attribute :=
  { a.spelled source with target := a.target.read source }

def AttrTree.IsLegible (a : AttrTree) : Prop :=
  ∀ caption ∈ a.caption, caption.IsLegible

/-- The question mark behind the flags, which the reader looks for only if there was none before
them. -/
def lateQuestion (early : Bool) (ts : List Located) : Bool × List Located :=
  if early then (false, ts) else questionMark ts

theorem FlagList.names_ne_nil (f : FlagList) : f.names ≠ [] := List.cons_ne_nil _ _

/-- The three readers between the name and the colon find one question mark at most, before the
flags or behind them. Without flags both places are the same. -/
theorem marks_sound {ts after : List Located} {names : List String}
    (h : Parse.flags endLine (questionMark ts).2 = .ok (names, after)) :
    ∃ m : Marks, ts = m.tokens ++ (lateQuestion (questionMark ts).1 after).2 ∧
      m.hasQuestion = ((questionMark ts).1 || (lateQuestion (questionMark ts).1 after).1) ∧
      m.flagNames = names ∧ (names = [] → ∃ q, m = .questionFirst q none) := by
  obtain ⟨early, hEarly, hEarlyFound⟩ := questionMark_sound ts
  obtain ⟨flags, hFlags, rfl⟩ := flags_sound h
  obtain ⟨late, hLate, hLateFound⟩ := questionMark_sound after
  rw [hFlags] at hEarly
  have hNone : (flags.map FlagList.names).getD [] = [] → flags = none := by
    cases flags with
    | none => exact fun _ => rfl
    | some f => exact fun hNil => absurd hNil f.names_ne_nil
  cases early with
  | some p =>
      refine ⟨.questionFirst (some p) flags, ?_, ?_, rfl, fun hNil => ⟨some p, ?_⟩⟩
      · simpa [lateQuestion, hEarlyFound, Marks.tokens] using hEarly
      · simp [Marks.hasQuestion, hEarlyFound]
      · rw [hNone hNil]
  | none =>
      simp only [lateQuestion, hEarlyFound, hLateFound, Option.isSome_none, Bool.false_eq_true,
        if_false, Bool.false_or]
      rw [hLate] at hEarly
      cases late with
      | none =>
          refine ⟨.questionFirst none flags, ?_, rfl, rfl, fun hNil => ⟨none, ?_⟩⟩
          · simpa [Marks.tokens, questionTokens] using hEarly
          · rw [hNone hNil]
      | some q =>
          cases flags with
          | none => exact ⟨.questionFirst (some q) none, hEarly, rfl, rfl, fun _ => ⟨_, rfl⟩⟩
          | some f =>
              refine ⟨.questionLast f q, ?_, rfl, rfl, fun hNil => absurd hNil f.names_ne_nil⟩
              simpa [Marks.tokens, questionTokens] using hEarly

/-- Nothing more belongs to the attribute: an attribute without a caption is not followed by one,
and neither does a type go on. -/
def AttrTree.EndsBefore (a : AttrTree) (rest : List Located) : Prop :=
  a.caption = none → (∀ content, NotNext (.text content) rest) ∧
    ∀ marks colon type, a.target = .typed marks colon type → ∀ t ∈ rest.head?, ¬ InType t.token

theorem attributeDecl_sound {ts rest : List Located} {a : Attribute}
    (h : attributeDecl source endLine ts = .ok (a, rest)) :
    ∃ tree : AttrTree, ts = tree.tokens ++ rest ∧ a = tree.read source ∧ tree.IsLegible ∧
      tree.EndsBefore rest := by
  simp only [attributeDecl, bind_eq_ok, Prod.exists, ident_eq_ok_iff] at h
  obtain ⟨_, ts, ⟨name, rfl, rfl⟩, names, after, hFlags, t, behind, hTarget, ns, _, hNotes,
    hResult⟩ := h
  cases hResult
  obtain ⟨marks, hMarks, hQuestion, rfl, hReference⟩ := marks_sound hFlags
  obtain ⟨caption, rfl, hLegible, rfl, hNoText⟩ := notes_sound hNotes
  rw [lateQuestion] at hMarks hQuestion
  rcases target_sound hTarget with ⟨colon, type, hTokens, rfl, hStop⟩ |
    ⟨hNoFlags, arrow, table, dot, attr, hTokens, rfl⟩
  · refine ⟨⟨name, .typed marks colon type, caption⟩, ?_, ?_, hLegible, fun hNone => ?_⟩
    · rw [hMarks, hTokens, AttrTree.tokens_append, typed_tokens]
    · rw [← hQuestion]
      rfl
    · obtain rfl : caption = none := hNone
      exact ⟨hNoText rfl, fun _ _ _ _ => hStop⟩
  · obtain ⟨q, rfl⟩ := hReference (by simpa using hNoFlags)
    refine ⟨⟨name, .reference q arrow table dot attr, caption⟩, ?_, ?_, hLegible, fun hNone => ?_⟩
    · rw [hMarks, hTokens, AttrTree.tokens_append, reference_tokens]
    · rw [← hQuestion]
      rfl
    · exact ⟨hNoText hNone, fun _ _ _ hTyped => by cases hTyped⟩

theorem lateQuestion_of_notNext (early : Bool) {ts : List Located} (h : NotNext .question ts) :
    lateQuestion early ts = (false, ts) := by
  cases early with
  | true => rfl
  | false => exact questionMark_complete none h

theorem marks_complete (endLine : Nat) (m : Marks) (rest : List Located)
    (hQuestion : NotNext .question rest)
    (hParen : NotNext .openParen rest) :
    ∃ early ts after, questionMark (m.tokens ++ rest) = (early, ts) ∧
      Parse.flags endLine ts = .ok (m.flagNames, after) ∧
      (early || (lateQuestion early after).1) = m.hasQuestion ∧
      (lateQuestion early after).2 = rest := by
  cases m with
  | questionFirst q flags =>
      have hEarly := questionMark_complete q (optionalFlags_notNext flags hQuestion)
      have hLate := lateQuestion_of_notNext q.isSome hQuestion
      rw [Marks.tokens, List.append_assoc]
      refine ⟨_, _, rest, hEarly, flags_complete endLine flags hParen, ?_, ?_⟩
      · rw [hLate, Bool.or_false]
        rfl
      · rw [hLate]
  | questionLast f p =>
      let behind := p.mark .question :: rest
      have hEarly : questionMark (f.tokens ++ behind) = (false, f.tokens ++ behind) :=
        questionMark_complete none (by simp)
      have hParenNext : NotNext .openParen behind := by simp [behind]
      have hFlags := flags_complete endLine (some f) hParenNext
      rw [Option.toList_some, List.flatMap_singleton] at hFlags
      rw [Marks.tokens, List.append_assoc]
      exact ⟨false, _, behind, hEarly, hFlags, rfl, rfl⟩

/-- What stands in front of the caption is read up to it, whether the caption can be read or not. -/
theorem attributeDecl_tokens (source : List Char) (endLine : Nat) (name : Word)
    (target : TargetTree) {ts : List Located}
    (hStop : ∀ marks colon type, target = .typed marks colon type →
      ∀ t ∈ ts.head?, ¬ InType t.token) :
    attributeDecl source endLine (name.token :: (target.tokens ++ ts)) = (do
      let (ns, rest) ← notes ts
      return (⟨name.name, target.isOptional, target.flagNames, ns, target.read source⟩, rest)) := by
  cases target with
  | typed marks colon type =>
      obtain ⟨early, us, after, hEarly, hFlags, hQuestion, hAfter⟩ :=
        marks_complete endLine marks (colon.mark .colon :: (type.tokens ++ ts)) (by simp) (by simp)
      have hTarget := target_typed source endLine (!marks.flagNames.isEmpty) colon type
        (hStop marks colon type rfl)
      rw [typed_tokens]
      simp only [attributeDecl, ident_token, hEarly, hFlags, bind, Except.bind]
      rw [← lateQuestion, hAfter]
      simp only [hTarget, hQuestion]
      rfl
  | reference question arrow table dot attr =>
      obtain ⟨early, us, after, hEarly, hFlags, hQuestion, hAfter⟩ :=
        marks_complete endLine (.questionFirst question none)
          (arrow.mark .arrow :: table.token :: dot.mark .dot :: attr.token :: ts) (by simp)
          (by simp)
      have hTarget : Parse.target source endLine
          (!(Marks.questionFirst question none).flagNames.isEmpty) _ = _ :=
        target_reference source endLine arrow table dot attr ts
      rw [reference_tokens]
      simp only [attributeDecl, ident_token, hEarly, hFlags, bind, Except.bind]
      rw [← lateQuestion, hAfter]
      simp only [hTarget, hQuestion]
      rfl

theorem AttrTree.EndsBefore.of_atEnd {rest : List Located} (h : AtEnd rest) (a : AttrTree) :
    a.EndsBefore rest := by
  intro _
  refine ⟨fun content next hNext hText => ?_, fun _ _ _ _ => ?_⟩
  · rcases h next hNext with hBreak | hBrace
    · cases hText.symm.trans hBreak
    · cases hText.symm.trans hBrace
  · exact @not_inType_next none rest h

/-- An attribute is read in front of anything that does not go on with it. -/
theorem attributeDecl_of_endsBefore {a : AttrTree} (hLegible : a.IsLegible) {rest : List Located}
    (hEnds : a.EndsBefore rest) :
    attributeDecl source endLine (a.tokens ++ rest) = .ok (a.read source, rest) := by
  have hNotes := notes_complete hLegible fun hNone => (hEnds hNone).1
  rw [AttrTree.tokens_append, attributeDecl_tokens, hNotes]
  · rfl
  · intro marks colon type hTyped t ht
    cases hCaption : a.caption with
    | none =>
        rw [hCaption] at ht
        exact (hEnds hCaption).2 marks colon type hTyped t ht
    | some caption =>
        rw [hCaption] at ht
        cases ht
        exact fun hType => hType.2.2 caption.content rfl

theorem attributeDecl_complete {a : AttrTree} (hLegible : a.IsLegible) {rest : List Located}
    (hRest : AtEnd rest) :
    attributeDecl source endLine (a.tokens ++ rest) = .ok (a.read source, rest) :=
  attributeDecl_of_endsBefore hLegible (.of_atEnd hRest a)

end ErDiagram.Grammar
