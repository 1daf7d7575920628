import ErDiagram.Markup
import ErDiagram.Proofs.Text

/-! A reader of markup, and what it reads from a written tree. It knows tags, attributes in double
quotes and four entities, and takes every blank of a text as it stands. -/
namespace ErDiagram.Markup

/-! ### The reader -/

/-- What markup holds: characters, and elements with what they hold. -/
inductive Content where
  | char (c : Char)
  | element (tag : String) (attributes : List (String × String)) (children : List Content)

/-- One character of a text or of the value of an attribute. An ampersand begins an entity, and the
sign that begins a tag does not stand for itself. -/
def readChar : List Char → Option (Char × List Char)
  | '&' :: 'a' :: 'm' :: 'p' :: ';' :: cs => some ('&', cs)
  | '&' :: 'l' :: 't' :: ';' :: cs => some ('<', cs)
  | '&' :: 'g' :: 't' :: ';' :: cs => some ('>', cs)
  | '&' :: 'q' :: 'u' :: 'o' :: 't' :: ';' :: cs => some ('"', cs)
  | '&' :: _ => none
  | '<' :: _ => none
  | c :: cs => some (c, cs)
  | [] => none

theorem readChar_length {cs rest : List Char} {c : Char} (h : readChar cs = some (c, rest)) :
    rest.length < cs.length := by
  unfold readChar at h
  split at h <;> cases h <;> simp only [List.length_cons] <;> omega

/-- A value up to the closing quote. -/
def readValue (cs : List Char) : Option (List Char × List Char) :=
  match cs with
  | [] => none
  | c :: more =>
    if c = '"' then some ([], more)
    else
      match _hChar : readChar (c :: more) with
      | none => none
      | some (c, rest) => (readValue rest).map fun (value, behind) => (c :: value, behind)
termination_by cs.length
decreasing_by exact readChar_length _hChar

theorem readValue_length {cs value rest : List Char} (h : readValue cs = some (value, rest)) :
    rest.length < cs.length := by
  fun_induction readValue cs generalizing value with
  | case1 => cases h
  | case2 =>
      cases h
      simp
  | case3 => cases h
  | case4 c more _ d behind hChar ih =>
      obtain ⟨⟨_, _⟩, hValue, hPair⟩ := Option.map_eq_some_iff.1 h
      cases hPair
      exact Nat.lt_trans (ih hValue) (readChar_length hChar)

/-- A character of the name of a tag or an attribute. -/
def isTagChar (c : Char) : Bool := c.isAlphanum || c == '-'

/-- A name of one character at least, and the text behind it. -/
def readName (cs : List Char) : Option (String × List Char) :=
  match cs.takeWhile isTagChar with
  | [] => none
  | name => some (String.ofList name, cs.dropWhile isTagChar)

theorem readName_length {cs rest : List Char} {name : String}
    (h : readName cs = some (name, rest)) : rest.length ≤ cs.length := by
  unfold readName at h
  split at h
  · cases h
  · cases h
    exact (List.dropWhile_suffix _).length_le

/-- An attribute: its name, an equals sign and its value in double quotes. -/
def readAttribute (cs : List Char) : Option ((String × String) × List Char) :=
  match readName cs with
  | some (name, '=' :: '"' :: rest) =>
    (readValue rest).map fun (value, behind) => ((name, String.ofList value), behind)
  | _ => none

theorem readAttribute_length {cs rest : List Char} {pair : String × String}
    (h : readAttribute cs = some (pair, rest)) : rest.length < cs.length := by
  unfold readAttribute at h
  split at h
  · rename_i name more hName
    obtain ⟨⟨_, _⟩, hValue, hPair⟩ := Option.map_eq_some_iff.1 h
    cases hPair
    have hRest := readValue_length hValue
    have hMore := readName_length hName
    simp only [List.length_cons] at hMore
    omega
  · cases h

/-- The end of a tag behind its name: its attributes, whether the element is empty, and the text
behind the tag. -/
structure TagEnd where
  attributes : List (String × String)
  isEmpty : Bool
  rest : List Char

def readTagEnd (cs : List Char) : Option TagEnd :=
  match cs with
  | '>' :: rest => some ⟨[], false, rest⟩
  | ' ' :: '/' :: '>' :: rest => some ⟨[], true, rest⟩
  | ' ' :: rest =>
    match _hAttribute : readAttribute rest with
    | none => none
    | some (pair, behind) =>
      (readTagEnd behind).map fun tag => { tag with attributes := pair :: tag.attributes }
  | _ => none
termination_by cs.length
decreasing_by exact Nat.lt_succ_of_lt (readAttribute_length _hAttribute)

theorem readTagEnd_length {cs : List Char} {tag : TagEnd} (h : readTagEnd cs = some tag) :
    tag.rest.length < cs.length := by
  fun_induction readTagEnd cs generalizing tag with
  | case1 =>
      cases h
      simp
  | case2 =>
      cases h
      simp only [List.length_cons]
      omega
  | case3 => cases h
  | case4 rest _ pair behind hAttribute ih =>
      obtain ⟨later, hLater, rfl⟩ := Option.map_eq_some_iff.1 h
      have hBehind := readAttribute_length hAttribute
      have hRest := ih hLater
      simp only [List.length_cons]
      omega
  | case5 => cases h

/-- The least part of markup that is read at once. -/
inductive Event where
  | char (c : Char)
  | opening (tag : String) (attributes : List (String × String))
  | closing (tag : String)
  | empty (tag : String) (attributes : List (String × String))

/-- A tag or a character. No attribute stands twice in a tag. -/
def readEvent (cs : List Char) : Option (Event × List Char) :=
  match cs with
  | '<' :: '/' :: cs =>
    match readName cs with
    | some (tag, '>' :: rest) => some (.closing tag, rest)
    | _ => none
  | '<' :: cs =>
    match readName cs with
    | none => none
    | some (tag, behind) =>
      match readTagEnd behind with
      | none => none
      | some ⟨attributes, isEmpty, rest⟩ =>
        if (attributes.map Prod.fst).Nodup then
          some (if isEmpty then .empty tag attributes else .opening tag attributes, rest)
        else none
  | _ => (readChar cs).map fun (c, rest) => (.char c, rest)

theorem readEvent_length {cs rest : List Char} {e : Event} (h : readEvent cs = some (e, rest)) :
    rest.length < cs.length := by
  unfold readEvent at h
  split at h
  · split at h
    · rename_i hName
      cases h
      have hRest := readName_length hName
      simp only [List.length_cons] at hRest ⊢
      omega
    · cases h
  · split at h
    · cases h
    · rename_i hName
      split at h
      · cases h
      · rename_i hEnd
        have hBehind := readName_length hName
        have hRest := readTagEnd_length hEnd
        split at h
        · cases h
          simp only [List.length_cons]
          dsimp only at hRest
          omega
        · cases h
  · obtain ⟨⟨_, _⟩, hChar, hPair⟩ := Option.map_eq_some_iff.1 h
    cases hPair
    exact readChar_length hChar

/-- An element that is not closed yet, and what stands before it in the element around it. -/
structure Frame where
  before : List Content
  tag : String
  attributes : List (String × String)

/-- What is read so far: the open elements, the innermost first, and the contents of that one. -/
structure Reading where
  frames : List Frame
  here : List Content

def Reading.add (r : Reading) (contents : List Content) : Reading :=
  { r with here := r.here ++ contents }

/-- A closing tag closes the innermost element, which must have the same name. -/
def Reading.event (r : Reading) : Event → Option Reading
  | .char c => some (r.add [.char c])
  | .empty tag attributes => some (r.add [.element tag attributes []])
  | .opening tag attributes => some ⟨⟨r.here, tag, attributes⟩ :: r.frames, []⟩
  | .closing tag =>
    match r.frames with
    | [] => none
    | frame :: frames =>
      if frame.tag = tag then
        some ⟨frames, frame.before ++ [.element frame.tag frame.attributes r.here]⟩
      else none

/-- Reads to the end of the text. All elements must be closed there. -/
def readContents (r : Reading) (cs : List Char) : Option (List Content) :=
  match cs with
  | [] => if r.frames.isEmpty then some r.here else none
  | c :: more =>
    match _hEvent : readEvent (c :: more) with
    | none => none
    | some (e, rest) =>
      match r.event e with
      | none => none
      | some next => readContents next rest
termination_by cs.length
decreasing_by exact readEvent_length _hEvent

/-- Whether only blanks stand outside of the element. -/
def Content.isSpace : Content → Bool
  | .char c => c == ' ' || c == '\n'
  | .element .. => false

/-- A document is one element with blanks around it. -/
def readDocument (text : String) : Option Content :=
  match readContents ⟨[], []⟩ text.toList with
  | none => none
  | some contents =>
    match contents.filter fun x => !x.isSpace with
    | [.element tag attributes children] => some (.element tag attributes children)
    | _ => none

/-! ### Escaped text -/

/-- All occurrences of a character in a text, replaced one by one. -/
def replaceChar (c : Char) (replacement : String) (cs : List Char) : List Char :=
  cs.flatMap fun d => if d = c then replacement.toList else [d]

/-- The ampersands are replaced first, so none that an entity brings in is replaced again. -/
theorem escape_eq_replacements (s : String) :
    escape s = replaceChar '"' "&quot;" (replaceChar '>' "&gt;" (replaceChar '<' "&lt;"
      (replaceChar '&' "&amp;" s.toList))) := by
  simp only [escape, replaceChar, List.flatMap_assoc]
  congr 1
  funext c
  unfold escapeChar
  split
  · rfl
  · rfl
  · rfl
  · rfl
  · rename_i hAmp hLess hGreater hQuote
    simp only [if_neg hAmp, if_neg hLess, if_neg hGreater, if_neg hQuote, List.flatMap_singleton]

theorem readChar_escapeChar (c : Char) (rest : List Char) :
    readChar (escapeChar c ++ rest) = some (c, rest) := by
  unfold escapeChar
  split
  · rfl
  · rfl
  · rfl
  · rfl
  · rename_i hAmp hLess _ _
    rw [List.singleton_append, readChar]
    · exact fun _ hc _ => hAmp hc
    · exact fun _ hc _ => hAmp hc
    · exact fun _ hc _ => hAmp hc
    · exact fun _ hc _ => hAmp hc
    · exact fun hc => hAmp hc
    · exact fun hc => hLess hc

/-- No character is written with a quote or the sign that begins a tag. -/
theorem escapeChar_cons (c : Char) : ∃ d ds, escapeChar c = d :: ds ∧ d ≠ '"' ∧ d ≠ '<' := by
  unfold escapeChar
  split
  · exact ⟨_, _, rfl, by decide, by decide⟩
  · exact ⟨_, _, rfl, by decide, by decide⟩
  · exact ⟨_, _, rfl, by decide, by decide⟩
  · exact ⟨_, _, rfl, by decide, by decide⟩
  · rename_i hLess _ hQuote
    exact ⟨c, [], rfl, hQuote, hLess⟩

theorem readValue_escape (cs rest : List Char) :
    readValue (cs.flatMap escapeChar ++ '"' :: rest) = some (cs, rest) := by
  induction cs with
  | nil => simp [readValue]
  | cons c cs ih =>
      have hChar := readChar_escapeChar c (cs.flatMap escapeChar ++ '"' :: rest)
      obtain ⟨d, ds, hEscape, hQuote, -⟩ := escapeChar_cons c
      rw [hEscape, List.cons_append] at hChar
      rw [List.flatMap_cons, List.append_assoc, hEscape, List.cons_append, readValue,
        if_neg hQuote]
      split
      · rename_i hNone
        rw [hChar] at hNone
        cases hNone
      · rename_i hSome
        rw [hChar] at hSome
        cases hSome
        rw [ih]
        rfl

/-! ### Names and attributes -/

/-- A text of one character at least, all of which may stand in the name of a tag. -/
def IsTagName (name : String) : Prop := name.toList ≠ [] ∧ ∀ c ∈ name.toList, isTagChar c

instance (name : String) : Decidable (IsTagName name) :=
  decidable_of_iff (name.toList ≠ [] ∧ name.toList.all isTagChar)
    (and_congr_right' List.all_eq_true)

theorem readName_append {name : String} (hName : IsTagName name) {rest : List Char}
    (hRest : ∀ c ∈ rest.head?, isTagChar c = false) :
    readName (name.toList ++ rest) = some (name, rest) := by
  obtain ⟨hTake, hDrop⟩ := Text.span_append hName.2 hRest
  unfold readName
  rw [hTake, hDrop]
  split
  · rename_i hNil
    exact absurd hNil hName.1
  · rw [String.ofList_toList]

theorem readAttribute_write {pair : String × String} (hName : IsTagName pair.1)
    (rest : List Char) :
    readAttribute (pair.1.toList ++ "=\"".toList ++ escape pair.2 ++ ['"'] ++ rest) =
      some (pair, rest) := by
  have hStop : ∀ c ∈ ('=' :: '"' :: (escape pair.2 ++ '"' :: rest)).head?, isTagChar c = false := by
    rintro c ⟨⟩
    decide
  have hRead := readName_append hName hStop
  have hText : pair.1.toList ++ "=\"".toList ++ escape pair.2 ++ ['"'] ++ rest =
      pair.1.toList ++ '=' :: '"' :: (escape pair.2 ++ '"' :: rest) := by
    simp
  rw [hText, readAttribute, hRead]
  simp only [escape, readValue_escape, Option.map_some, String.ofList_toList]

theorem readTagEnd_attribute {cs behind : List Char} {pair : String × String}
    (hRead : readAttribute cs = some (pair, behind)) :
    readTagEnd (' ' :: cs) =
      (readTagEnd behind).map fun tag => { tag with attributes := pair :: tag.attributes } := by
  rw [readTagEnd.eq_def]
  split
  · rename_i hText
    cases hText
  · rename_i hText
    cases hText
    cases hRead
  · rename_i hText
    cases hText
    split
    · rename_i hNone
      rw [hRead] at hNone
      cases hNone
    · rename_i hSome
      rw [hRead] at hSome
      cases hSome
      rfl
  · rename_i hOther
    exact absurd rfl (hOther cs)

/-- Attributes are read up to the end of the tag. -/
theorem readTagEnd_write {attributes : List (String × String)}
    (hNames : ∀ pair ∈ attributes, IsTagName pair.1) {ending rest : List Char} {isEmpty : Bool}
    (hEnd : readTagEnd ending = some ⟨[], isEmpty, rest⟩) :
    readTagEnd (attributes.flatMap writeAttribute ++ ending) =
      some ⟨attributes, isEmpty, rest⟩ := by
  induction attributes with
  | nil => exact hEnd
  | cons pair attributes ih =>
      obtain ⟨hHere, hLater⟩ := List.forall_mem_cons.1 hNames
      have hRead := readAttribute_write hHere (attributes.flatMap writeAttribute ++ ending)
      have hText : (pair :: attributes).flatMap writeAttribute ++ ending =
          ' ' :: (pair.1.toList ++ "=\"".toList ++ escape pair.2 ++ ['"'] ++
            (attributes.flatMap writeAttribute ++ ending)) := by
        simp [writeAttribute]
      rw [hText, readTagEnd_attribute hRead, ih hLater, Option.map_some]

/-! ### Trees -/

/-- A tag that can be read: its name and those of its attributes are names, and no attribute stands
twice. -/
def IsTag (tag : String) (names : List String) : Prop :=
  IsTagName tag ∧ (∀ name ∈ names, IsTagName name) ∧ names.Nodup

instance (tag : String) (names : List String) : Decidable (IsTag tag names) :=
  inferInstanceAs (Decidable (_ ∧ _ ∧ _))

mutual

/-- All tags of the tree can be read. What stands in texts and values does not matter. -/
def Node.IsPlain : Node → Prop
  | .text _ => True
  | .element tag attributes children =>
    IsTag tag (attributes.map Prod.fst) ∧ AllPlain children
  | .empty tag attributes => IsTag tag (attributes.map Prod.fst)

def AllPlain : List Node → Prop
  | [] => True
  | node :: nodes => node.IsPlain ∧ AllPlain nodes

end

mutual

/-- What a node holds, its texts character by character. -/
def Node.contents : Node → List Content
  | .text content => content.toList.map .char
  | .element tag attributes children => [.element tag attributes (allContents children)]
  | .empty tag attributes => [.element tag attributes []]

def allContents : List Node → List Content
  | [] => []
  | node :: nodes => node.contents ++ allContents nodes

end

/-- Behind the name of a tag, its attributes and its end do not go on with the name. -/
theorem tagEnd_head (attributes : List (String × String)) {c : Char} (more : List Char)
    (hStop : isTagChar c = false) :
    ∀ d ∈ (attributes.flatMap writeAttribute ++ c :: more).head?, isTagChar d = false := by
  intro d hd
  cases attributes with
  | nil =>
      obtain rfl := Option.some.inj hd
      exact hStop
  | cons pair attributes =>
      obtain rfl := Option.some.inj hd
      decide

theorem readEvent_tag {tag : String} {attributes : List (String × String)}
    (hTag : IsTag tag (attributes.map Prod.fst)) {c : Char} {more rest : List Char}
    {isEmpty : Bool} (hStop : isTagChar c = false)
    (hEnd : readTagEnd (c :: more) = some ⟨[], isEmpty, rest⟩) :
    readEvent ('<' :: (writeTag tag attributes ++ c :: more)) =
      some (if isEmpty then .empty tag attributes else .opening tag attributes, rest) := by
  obtain ⟨hName, hNames, hNodup⟩ := hTag
  have hPairs : ∀ pair ∈ attributes, IsTagName pair.1 := fun pair hPair =>
    hNames _ (List.mem_map_of_mem hPair)
  have hTagName := readName_append hName (tagEnd_head attributes more hStop)
  rw [writeTag, List.append_assoc]
  unfold readEvent
  split
  · rename_i behind hText
    obtain ⟨-, hSlash⟩ := List.cons.inj hText
    rw [hSlash] at hTagName
    cases hTagName
  · rename_i hText
    obtain ⟨-, rfl⟩ := List.cons.inj hText
    simp only [hTagName, readTagEnd_write hPairs hEnd, if_pos hNodup]
  · rename_i hOther
    exact absurd rfl (hOther _)

theorem readEvent_closing {tag : String} (hName : IsTagName tag) (rest : List Char) :
    readEvent ("</".toList ++ tag.toList ++ ['>'] ++ rest) = some (.closing tag, rest) := by
  have hStop : ∀ c ∈ ('>' :: rest).head?, isTagChar c = false := by
    rintro c ⟨⟩
    decide
  have hText : "</".toList ++ tag.toList ++ ['>'] ++ rest =
      '<' :: '/' :: (tag.toList ++ '>' :: rest) := by
    simp
  simp only [hText, readEvent, readName_append hName hStop]

theorem readEvent_escapeChar (c : Char) (rest : List Char) :
    readEvent (escapeChar c ++ rest) = some (.char c, rest) := by
  have hChar := readChar_escapeChar c rest
  obtain ⟨d, ds, hEscape, -, hLess⟩ := escapeChar_cons c
  rw [hEscape, List.cons_append] at hChar ⊢
  rw [readEvent, hChar]
  · rfl
  · exact fun _ hText => hLess (List.cons.inj hText).1
  · exact fun _ hText => hLess (List.cons.inj hText).1

theorem Reading.add_nil (r : Reading) : r.add [] = r := by
  rw [Reading.add, List.append_nil]

theorem Reading.add_add (r : Reading) (xs ys : List Content) :
    (r.add xs).add ys = r.add (xs ++ ys) := by
  rw [Reading.add, Reading.add, Reading.add, List.append_assoc]

theorem readContents_event {r next : Reading} {cs rest : List Char} {e : Event}
    (hEvent : readEvent cs = some (e, rest)) (hNext : r.event e = some next) :
    readContents r cs = readContents next rest := by
  cases cs with
  | nil => cases hEvent
  | cons c more =>
      rw [readContents]
      split
      · rename_i hNone
        rw [hEvent] at hNone
        cases hNone
      · rename_i hSome
        rw [hEvent] at hSome
        cases hSome
        rw [hNext]

theorem readContents_escape (r : Reading) (cs rest : List Char) :
    readContents r (cs.flatMap escapeChar ++ rest) = readContents (r.add (cs.map .char)) rest := by
  induction cs generalizing r with
  | nil => rw [List.flatMap_nil, List.nil_append, List.map_nil, Reading.add_nil]
  | cons c cs ih =>
      rw [List.flatMap_cons, List.append_assoc,
        readContents_event (readEvent_escapeChar c _) rfl, ih, Reading.add_add]
      rfl

theorem readTagEnd_open (rest : List Char) : readTagEnd ('>' :: rest) = some ⟨[], false, rest⟩ := by
  rw [readTagEnd]

theorem readTagEnd_empty (rest : List Char) :
    readTagEnd (' ' :: '/' :: '>' :: rest) = some ⟨[], true, rest⟩ := by
  rw [readTagEnd]

mutual

/-- A written node is read again, whatever stands behind it. -/
theorem readContents_write (n : Node) (hPlain : n.IsPlain) (r : Reading) (rest : List Char) :
    readContents r (n.write ++ rest) = readContents (r.add n.contents) rest := by
  cases n with
  | text content => exact readContents_escape r content.toList rest
  | empty tag attributes =>
      have hRead := readEvent_tag hPlain (by decide) (readTagEnd_empty rest)
      have hText : (Node.empty tag attributes).write ++ rest =
          '<' :: (writeTag tag attributes ++ ' ' :: '/' :: '>' :: rest) := by
        simp [Node.write]
      rw [hText]
      exact readContents_event hRead rfl
  | element tag attributes children =>
      obtain ⟨hTag, hChildren⟩ := hPlain
      let close := "</".toList ++ tag.toList ++ ['>'] ++ rest
      let inside : Reading := ⟨⟨r.here, tag, attributes⟩ :: r.frames, []⟩
      have hOpen := readEvent_tag hTag (by decide) (readTagEnd_open (writeAll children ++ close))
      have hClose : (inside.add (allContents children)).event (.closing tag) =
          some (r.add (Node.element tag attributes children).contents) := by
        simp [Reading.event, Reading.add, Node.contents, inside]
      have hText : (Node.element tag attributes children).write ++ rest =
          '<' :: (writeTag tag attributes ++ '>' :: (writeAll children ++ close)) := by
        simp [Node.write, close]
      calc
        readContents r ((Node.element tag attributes children).write ++ rest) =
            readContents inside (writeAll children ++ close) := by
          rw [hText]
          exact readContents_event hOpen rfl
        _ = readContents (inside.add (allContents children)) close :=
          readContents_writeAll children hChildren inside close
        _ = readContents (r.add (Node.element tag attributes children).contents) rest :=
          readContents_event (readEvent_closing hTag.1 rest) hClose

theorem readContents_writeAll (ns : List Node) (hPlain : AllPlain ns) (r : Reading)
    (rest : List Char) :
    readContents r (writeAll ns ++ rest) = readContents (r.add (allContents ns)) rest := by
  cases ns with
  | nil =>
      rw [allContents, Reading.add_nil]
      rfl
  | cons n ns =>
      rw [writeAll, List.append_assoc, readContents_write n hPlain.1,
        readContents_writeAll ns hPlain.2, Reading.add_add, allContents]

end

/-- A written element with a line feed behind it is read as a document. -/
theorem readDocument_write {n : Node} (hPlain : n.IsPlain) {tag : String}
    {attributes : List (String × String)} {children : List Content}
    (hContents : n.contents = [.element tag attributes children]) :
    readDocument (String.ofList (n.write ++ ['\n'])) = some (.element tag attributes children) := by
  have hRead : readContents ⟨[], []⟩ (n.write ++ ['\n']) =
      some [.element tag attributes children, .char '\n'] := by
    have hBreak : readEvent ['\n'] = some (.char '\n', []) := readEvent_escapeChar '\n' []
    rw [readContents_write n hPlain, readContents_event hBreak rfl, readContents, hContents]
    rfl
  rw [readDocument, String.toList_ofList, hRead]
  rfl

end ErDiagram.Markup
