import ErDiagram.Proofs.Grammar
import ErDiagram.Proofs.Scanning
import ErDiagram.Proofs.WellFormed

/-! What a piece of text gives in front of the rest of a source. Pieces are put together one after
another, each in front of everything behind it, so the longest token is always the one meant. -/
namespace ErDiagram.Token

open Text

/-- In front of `rest` the text gives these tokens, and the scanner goes on behind it on the line
`next`. -/
def Yields (line offset : Nat) (text rest : List Char) (ts : List Located) (next : Nat) : Prop :=
  scanFrom line offset (text ++ rest) =
    (scanFrom next (offset + byteLength text) rest).map (prepend ts)

theorem Yields.nil (line offset : Nat) (rest : List Char) : Yields line offset [] rest [] line := by
  rw [Yields, List.nil_append, byteLength_nil, Nat.add_zero]
  cases scanFrom line offset rest <;> rfl

theorem Yields.append {line middle next offset : Nat} {first second rest : List Char}
    {ts us : List Located} (hFirst : Yields line offset first (second ++ rest) ts middle)
    (hSecond : Yields middle (offset + byteLength first) second rest us next) :
    Yields line offset (first ++ second) rest (ts ++ us) next := by
  rw [Yields, List.append_assoc, hFirst, hSecond, byteLength_append, Nat.add_assoc]
  cases scanFrom next (offset + (byteLength first + byteLength second)) rest with
  | error => rfl
  | ok s => simp [Except.map]

theorem yields_blank {c : Char} (hBlank : isBlank c) (hBreak : c ≠ '\n') (line offset : Nat)
    (rest : List Char) : Yields line offset [c] rest [] line := by
  have hMap (x : Except ScanError Scanned) : x.map (prepend []) = x := by
    cases x <;> rfl
  rw [Yields, hMap, List.singleton_append, scanFrom_eq, scanFrom_eq line (offset + _)]
  simp only [splitGap_blank rest hBlank hBreak, byteLength_cons, byteLength_nil, Nat.add_zero,
    Nat.add_assoc]

/-- A lexeme that reads one piece of the text to its end. -/
theorem yields_lexeme {c : Char} {more rest : List Char} {t : Token}
    (hStop : c = '\n' ∨ isBlank c = false ∧ c ≠ '#')
    (hLexeme : lexeme c (more ++ rest) = .ok ⟨t, c :: more, rest⟩) (line offset : Nat) :
    Yields line offset (c :: more) rest
      [⟨t, line, offset, offset + byteLength (c :: more)⟩] (lineAfter line t) := by
  rw [Yields, List.cons_append, scanFrom_eq]
  simp only [splitGap_of_stop hStop, byteLength_nil, Nat.add_zero, hLexeme]

theorem Yields.tokenize_eq {text : List Char} {ts : List Located} {next : Nat}
    (h : Yields 1 0 text [] ts next) :
    tokenize (String.ofList text) = .ok ⟨ts, next, byteLength text⟩ := by
  rw [tokenize, String.toList_ofList]
  rw [Yields, List.append_nil, Nat.zero_add, scanFrom_eq next] at h
  rw [h]
  simp [splitGap, Except.map, prepend]

/-! ### Names -/

/-- Whether the text, if there is one, begins with a character that ends a name. -/
def EndsName (cs : List Char) : Prop := ∀ c ∈ cs.head?, isNameChar c = false

@[simp] theorem endsName_cons {c : Char} {cs : List Char} :
    EndsName (c :: cs) ↔ isNameChar c = false := by
  simp [EndsName]

/-- What ends a name cuts it off, whatever stands before. -/
theorem name_append (more : List Char) {rest : List Char} (hRest : EndsName rest) :
    (more ++ rest).takeWhile isNameChar = more.takeWhile isNameChar ∧
      (more ++ rest).dropWhile isNameChar = more.dropWhile isNameChar ++ rest := by
  have hAfter : EndsName (more.dropWhile isNameChar ++ rest) := by
    have hHead := List.head?_dropWhile_not isNameChar more
    cases hDrop : more.dropWhile isNameChar with
    | nil => exact hRest
    | cons d after =>
        rw [hDrop] at hHead
        simpa using hHead
  have hTaken : ∀ d ∈ more.takeWhile isNameChar, isNameChar d :=
    fun d hd => List.mem_takeWhile_imp hd
  have hSplit := span_append hTaken hAfter
  rwa [← List.append_assoc, List.takeWhile_append_dropWhile] at hSplit

theorem lexeme_nameChar {c : Char} (hName : isNameChar c) (cs : List Char) :
    lexeme c cs = .ok ⟨.ident (String.ofList (c :: cs.takeWhile isNameChar)),
      c :: cs.takeWhile isNameChar, cs.dropWhile isNameChar⟩ := by
  unfold lexeme
  split <;> first | exact absurd hName (by decide) | skip
  rw [if_pos hName]

theorem stop_of_nameChar {c : Char} (hName : isNameChar c) :
    c = '\n' ∨ isBlank c = false ∧ c ≠ '#' := by
  refine Or.inr ⟨?_, ?_⟩
  · by_contra hBlank
    rw [isNameChar_of_isBlank (by simpa using hBlank)] at hName
    cases hName
  · rintro rfl
    exact absurd hName (by decide)

theorem yields_name {name rest : List Char} (hName : IsName name) (hRest : EndsName rest)
    (line offset : Nat) : Yields line offset name rest
      [⟨.ident (String.ofList name), line, offset, offset + byteLength name⟩] line := by
  cases name with
  | nil => exact absurd rfl hName.1
  | cons c more =>
      obtain ⟨hHead, hMore⟩ := List.forall_mem_cons.1 hName.2
      refine yields_lexeme (stop_of_nameChar hHead) ?_ line offset
      rw [lexeme_nameChar hHead, (span_append hMore hRest).1, (span_append hMore hRest).2]

/-! ### Texts in quotes -/

/-- A character as it is written between quotes. -/
def escapeChar (c : Char) : List Char :=
  match c with
  | '\\' => ['\\', '\\']
  | '"' => ['\\', '"']
  | '\n' => ['\\', 'n']
  | _ => [c]

/-- A text as it is written in quotes. -/
def writeText (cs : List Char) : List Char := '"' :: (cs.flatMap escapeChar ++ ['"'])

theorem splitLiteral_escapeChar (c : Char) (cs : List Char) :
    splitLiteral (escapeChar c ++ cs) = (splitLiteral cs).map fun l =>
      ⟨c :: l.content, escapeChar c ++ l.spelling, l.rest⟩ := by
  unfold escapeChar
  split
  · rfl
  · rfl
  · rfl
  · rename_i hBackslash hQuote hBreak
    rw [List.singleton_append, splitLiteral_cons hQuote hBackslash hBreak]
    rfl

theorem splitLiteral_escape (cs rest : List Char) :
    splitLiteral (cs.flatMap escapeChar ++ '"' :: rest) =
      some ⟨cs, cs.flatMap escapeChar ++ ['"'], rest⟩ := by
  induction cs with
  | nil => simp [splitLiteral]
  | cons c cs ih =>
      rw [List.flatMap_cons, List.append_assoc, splitLiteral_escapeChar, ih]
      simp

theorem yields_text (cs rest : List Char) (line offset : Nat) :
    Yields line offset (writeText cs) rest
      [⟨.text (String.ofList cs), line, offset, offset + byteLength (writeText cs)⟩] line := by
  refine yields_lexeme (Or.inr ⟨by decide, by decide⟩) ?_ line offset
  have hSplit := splitLiteral_escape cs rest
  simp only [lexeme, List.append_assoc, List.singleton_append, hSplit]

/-! ### Types -/

/-- A lexeme of a type, cut from a text that goes on with a blank or a line feed. -/
theorem lexeme_fitsType {c : Char} (more : List Char) {rest : List Char} (hFits : FitsType c)
    (hBlank : isBlank c = false) (hRest : EndsName rest) (hArrow : ∀ d ∈ rest.head?, d ≠ '>') :
    ∃ (t : Token) (spelling after : List Char), more = spelling ++ after ∧
      Grammar.InType t ∧ lexeme c (more ++ rest) = .ok ⟨t, c :: spelling, after ++ rest⟩ := by
  unfold lexeme
  split
  · exact absurd rfl hFits.break_ne
  · exact ⟨openBrace, [], more, by simp [Grammar.InType]⟩
  · exact absurd rfl hFits.brace_ne
  · exact ⟨openParen, [], more, by simp [Grammar.InType]⟩
  · exact ⟨closeParen, [], more, by simp [Grammar.InType]⟩
  · exact ⟨comma, [], more, by simp [Grammar.InType]⟩
  · exact ⟨colon, [], more, by simp [Grammar.InType]⟩
  · exact ⟨question, [], more, by simp [Grammar.InType]⟩
  · exact ⟨dot, [], more, by simp [Grammar.InType]⟩
  · exact absurd rfl hFits.quote_ne
  · cases more with
    | nil =>
        refine ⟨symbol '-', [], [], rfl, by simp [Grammar.InType], ?_⟩
        rw [List.nil_append]
        split
        · exact absurd rfl (hArrow '>' rfl)
        · rfl
    | cons d more =>
        by_cases hd : d = '>'
        · subst hd
          exact ⟨arrow, ['>'], more, by simp [Grammar.InType]⟩
        · exact ⟨symbol '-', [], d :: more, by simp [Grammar.InType, hd]⟩
  · split
    · obtain ⟨hTake, hDrop⟩ := name_append more hRest
      refine ⟨_, more.takeWhile isNameChar, more.dropWhile isNameChar, ?_, ?_,
        by rw [hTake, hDrop]⟩
      · exact (List.takeWhile_append_dropWhile).symm
      · simp [Grammar.InType]
    · split
      · rename_i hControl
        rw [hFits.blank_of_control hControl] at hBlank
        cases hBlank
      · exact ⟨symbol c, [], more, by simp [Grammar.InType]⟩

/-- The tokens of a piece of a type: they begin and end where the piece does, unless it begins or
ends with blanks. -/
structure TypePiece (offset : Nat) (text : List Char) (ts : List Located) : Prop where
  inType : ∀ t ∈ ts, Grammar.InType t.token
  nil : text = [] → ts = []
  first : ∀ c ∈ text.head?, isBlank c = false → ∃ t ∈ ts.head?, t.start = offset
  last : ∀ c ∈ text.getLast?, isBlank c = false →
    ∃ t ∈ ts.getLast?, t.stop = offset + byteLength text

theorem TypePiece.blank {offset : Nat} {c : Char} {text : List Char} {ts : List Located}
    (hBlank : isBlank c) (h : TypePiece (offset + byteLength [c]) text ts) :
    TypePiece offset (c :: text) ts := by
  refine ⟨h.inType, by simp, ?_, ?_⟩
  · intro d hd hNot
    obtain rfl := Option.some.inj hd
    rw [hBlank] at hNot
    cases hNot
  · intro d hd hNot
    cases text with
    | nil =>
        simp only [List.getLast?_singleton, Option.mem_def, Option.some.injEq] at hd
        rw [← hd, hBlank] at hNot
        cases hNot
    | cons e text =>
        rw [List.getLast?_cons_cons] at hd
        obtain ⟨t, ht, hStop⟩ := h.last d hd hNot
        refine ⟨t, ht, ?_⟩
        rw [hStop]
        simp [Nat.add_assoc]

theorem TypePiece.lexeme {offset line : Nat} {t : Token} {c : Char} {spelling after : List Char}
    {ts : List Located} (hType : Grammar.InType t)
    (h : TypePiece (offset + byteLength (c :: spelling)) after ts) :
    TypePiece offset (c :: spelling ++ after)
      (⟨t, line, offset, offset + byteLength (c :: spelling)⟩ :: ts) := by
  refine ⟨List.forall_mem_cons.2 ⟨hType, h.inType⟩, by simp, ?_, ?_⟩
  · intro d hd hNot
    exact ⟨_, rfl, rfl⟩
  · intro d hd hNot
    cases after with
    | nil =>
        rw [h.nil rfl]
        exact ⟨_, rfl, by simp⟩
    | cons e after =>
        rw [List.getLast?_append_of_ne_nil _ (List.cons_ne_nil _ _)] at hd
        obtain ⟨u, hu, hStop⟩ := h.last d hd hNot
        refine ⟨u, ?_, ?_⟩
        · cases ts with
          | nil => cases hu
          | cons v ts =>
              rw [List.getLast?_cons_cons]
              exact hu
        · rw [hStop]
          simp [Nat.add_assoc]

theorem yields_type {text rest : List Char} (hFits : ∀ c ∈ text, FitsType c)
    (hRest : EndsName rest) (hArrow : ∀ c ∈ rest.head?, c ≠ '>') (line offset : Nat) :
    ∃ ts, Yields line offset text rest ts line ∧ TypePiece offset text ts := by
  induction hLength : text.length using Nat.strong_induction_on generalizing text offset with
  | _ length ih =>
      cases text with
      | nil => exact ⟨[], Yields.nil line offset rest, by simp, fun _ => rfl, by simp, by simp⟩
      | cons c more =>
          obtain ⟨hHere, hMore⟩ := List.forall_mem_cons.1 hFits
          by_cases hBlank : isBlank c
          · obtain ⟨ts, hYields, hPiece⟩ := ih more.length (by simp [← hLength]) hMore
              (offset + byteLength [c]) rfl
            exact ⟨ts, (yields_blank hBlank hHere.break_ne line offset _).append hYields,
              hPiece.blank hBlank⟩
          · have hNot : isBlank c = false := by simpa using hBlank
            obtain ⟨t, spelling, after, rfl, hType, hLexeme⟩ :=
              lexeme_fitsType more hHere hNot hRest hArrow
            obtain ⟨ts, hYields, hPiece⟩ := ih after.length
              (by simp only [List.length_cons, List.length_append] at hLength; omega)
              (fun d hd => hMore d (List.mem_append_right _ hd))
              (offset + byteLength (c :: spelling)) rfl
            rw [List.append_assoc] at hLexeme
            have hFirst := yields_lexeme (Or.inr ⟨hNot, hHere.hash_ne⟩) hLexeme line offset
            rw [lineAfter, if_neg hType.1] at hFirst
            exact ⟨_, hFirst.append hYields, hPiece.lexeme hType⟩

end ErDiagram.Token
