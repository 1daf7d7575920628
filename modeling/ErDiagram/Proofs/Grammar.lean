import ErDiagram.Schema.Parse
import Mathlib.Data.List.Basic

/-! The grammar of the schema language. A derivation is a tree over the tokens of a source, and it
says what tables it spells. Nothing here refers to the readers. -/
namespace ErDiagram.Grammar

/-! ### Derivation trees -/

/-- Where a token stands: its line and the byte offsets of its ends. -/
structure Place where
  line : Nat
  start : Nat
  stop : Nat
deriving DecidableEq, Repr

/-- The given token at this place. -/
def Place.mark (p : Place) (token : Token) : Located := ⟨token, p.line, p.start, p.stop⟩

/-- A name at its place. -/
structure Word where
  name : String
  place : Place
deriving DecidableEq, Repr

def Word.token (w : Word) : Located := w.place.mark (.ident w.name)

/-- Flags in parentheses. There is at least one; the others stand behind commas. -/
structure FlagList where
  opening : Place
  first : Word
  others : List (Place × Word)
  closing : Place

/-- What stands between the name and the colon of a typed attribute: an optional question mark and
then optional flags, or flags and then a question mark. -/
inductive Marks where
  | questionFirst (question : Option Place) (flags : Option FlagList)
  | questionLast (flags : FlagList) (question : Place)

/-- Line breaks, closing braces and texts in quotes end a type. All other tokens belong to it. -/
def InType (t : Token) : Prop :=
  t ≠ .lineBreak ∧ t ≠ .closeBrace ∧ ∀ content, t ≠ .text content

/-- The tokens of a type, of which there is at least one. -/
structure TypeRun where
  first : Located
  others : List Located
  inType : ∀ t ∈ first :: others, InType t.token

/-- What follows the name of an attribute: a type after a colon, or a table and one of its
attributes after an arrow. Only a typed attribute has flags. -/
inductive TargetTree where
  | typed (marks : Marks) (colon : Place) (type : TypeRun)
  | reference (question : Option Place) (arrow : Place) (table : Word) (dot : Place) (attr : Word)

/-- A text in quotes behind an attribute. -/
structure Caption where
  content : String
  place : Place

structure AttrTree where
  name : Word
  target : TargetTree
  caption : Option Caption

/-- The inside of a table and its closing brace. An attribute ends with its line; only behind the
last one the brace may stand on the same line. -/
inductive BlockTree where
  | close (closing : Place)
  | last (a : AttrTree) (closing : Place)
  | line (a : AttrTree) (lineBreak : Place) (more : List Place) (later : BlockTree)

structure TableTree where
  keyword : Place
  name : Word
  opening : Place
  breaks : List Place
  block : BlockTree

/-- Tables up to the end of the source, with line breaks before, between and behind them. -/
structure Derivation where
  breaks : List Place
  tables : List (TableTree × List Place)

/-! ### The tokens of a tree -/

def breakTokens (breaks : List Place) : List Located := breaks.map (·.mark .lineBreak)

def questionTokens (question : Option Place) : List Located :=
  question.toList.map (·.mark .question)

def commaTokens (flags : List (Place × Word)) : List Located :=
  flags.flatMap fun (comma, flag) => [comma.mark .comma, flag.token]

def FlagList.tokens (f : FlagList) : List Located :=
  f.opening.mark .openParen :: f.first.token ::
    (commaTokens f.others ++ [f.closing.mark .closeParen])

def Marks.tokens : Marks → List Located
  | questionFirst question flags => questionTokens question ++ flags.toList.flatMap FlagList.tokens
  | questionLast flags question => flags.tokens ++ [question.mark .question]

def TypeRun.tokens (r : TypeRun) : List Located := r.first :: r.others

def TargetTree.tokens : TargetTree → List Located
  | typed marks colon type => marks.tokens ++ colon.mark .colon :: type.tokens
  | reference question arrow table dot attr =>
      questionTokens question ++
        [arrow.mark .arrow, table.token, dot.mark .dot, attr.token]

def captionTokens (caption : Option Caption) : List Located :=
  caption.toList.map fun a => a.place.mark (.text a.content)

def AttrTree.tokens (a : AttrTree) : List Located :=
  a.name.token :: (a.target.tokens ++ captionTokens a.caption)

def BlockTree.tokens : BlockTree → List Located
  | close closing => [closing.mark .closeBrace]
  | last a closing => a.tokens ++ [closing.mark .closeBrace]
  | line a lineBreak more later =>
      a.tokens ++ breakTokens (lineBreak :: more) ++ later.tokens

def TableTree.tokens (t : TableTree) : List Located :=
  t.keyword.mark (.ident "table") :: t.name.token :: t.opening.mark .openBrace ::
    (breakTokens t.breaks ++ t.block.tokens)

def tableTokens (tables : List (TableTree × List Place)) : List Located :=
  tables.flatMap fun (t, breaks) => t.tokens ++ breakTokens breaks

def Derivation.tokens (d : Derivation) : List Located :=
  breakTokens d.breaks ++ tableTokens d.tables

/-! ### What a tree spells -/

def FlagList.names (f : FlagList) : List String := f.first.name :: f.others.map (·.2.name)

def Marks.hasQuestion : Marks → Bool
  | questionFirst question _ => question.isSome
  | questionLast _ _ => true

def Marks.flagNames : Marks → List String
  | questionFirst _ flags => (flags.map FlagList.names).getD []
  | questionLast flags _ => flags.names

def TypeRun.last (r : TypeRun) : Located := (r.first :: r.others).getLast (List.cons_ne_nil _ _)

/-- The text of the source from the start of the first token to the end of the last one. -/
def TypeRun.text (source : List Char) (r : TypeRun) : String :=
  String.ofList (Text.slice r.first.start r.last.stop source)

/-- The parts of a caption between its commas. -/
def Caption.segments (a : Caption) : List (List Char) :=
  Text.splitOn ',' a.content.toList

def Caption.IsBlank (a : Caption) : Prop := ∀ c ∈ a.content.toList, Text.isBlank c

instance (a : Caption) : Decidable a.IsBlank :=
  decidable_of_iff (a.content.toList.all Text.isBlank) List.all_eq_true

/-- A caption can be read if it is blank or each of its segments has an equals sign. -/
def Caption.IsLegible (a : Caption) : Prop :=
  a.IsBlank ∨ ∀ segment ∈ a.segments, '=' ∈ segment

/-- The first segment without an equals sign, which makes a caption illegible unless it is blank. -/
def Caption.illegible? (a : Caption) : Option (List Char) :=
  if a.IsBlank then none else a.segments.find? fun segment => '=' ∉ segment

/-- The key before the first equals sign of a segment and the value behind it, without the blanks
around each. -/
def segmentNote (segment : List Char) : Note where
  key := String.ofList (Text.trimChars (segment.takeWhile (· ≠ '=')))
  value := String.ofList (Text.trimChars (segment.dropWhile (· ≠ '=')).tail)

def Caption.notes (a : Caption) : List Note :=
  if a.IsBlank then [] else a.segments.map segmentNote

def TargetTree.isOptional : TargetTree → Bool
  | typed marks _ _ => marks.hasQuestion
  | reference question _ _ _ _ => question.isSome

def TargetTree.flagNames : TargetTree → List String
  | typed marks _ _ => marks.flagNames
  | reference _ _ _ _ _ => []

def TargetTree.spelled (source : List Char) : TargetTree → Target
  | typed _ _ type => .typed (type.text source)
  | reference _ _ table _ attr => .reference table.name attr.name

def AttrTree.spelled (source : List Char) (a : AttrTree) : Attribute where
  name := a.name.name
  isOptional := a.target.isOptional
  flags := a.target.flagNames
  notes := (a.caption.map Caption.notes).getD []
  target := a.target.spelled source

def BlockTree.attrs : BlockTree → List AttrTree
  | close _ => []
  | last a _ => [a]
  | line a _ _ later => a :: later.attrs

def TableTree.spelled (source : List Char) (t : TableTree) : Table :=
  ⟨t.name.name, t.block.attrs.map (AttrTree.spelled source)⟩

/-- The tables that a derivation over the tokens of a source spells, in order. -/
def Derivation.spelled (source : List Char) (d : Derivation) : List Table :=
  d.tables.map fun entry => entry.1.spelled source

def BlockTree.IsLegible (b : BlockTree) : Prop :=
  ∀ a ∈ b.attrs, ∀ caption ∈ a.caption, caption.IsLegible

/-- What the grammar leaves open: no name is declared twice, and all captions can be read. -/
structure Derivation.IsAdmissible (d : Derivation) : Prop where
  tables_nodup : (d.tables.map fun entry => entry.1.name.name).Nodup
  attrs_nodup : ∀ entry ∈ d.tables, (entry.1.block.attrs.map (·.name.name)).Nodup
  legible : ∀ entry ∈ d.tables, entry.1.block.IsLegible

end ErDiagram.Grammar
