/-! Markup: trees of elements and text, and how they are written.

All text is escaped where it is written, so no text of a tree ends an attribute or begins a tag. -/

namespace ErDiagram.Markup

/-- A node of a tree. An empty element is written as one tag. -/
inductive Node where
  | text (content : String)
  | element (tag : String) (attributes : List (String × String)) (children : List Node)
  | empty (tag : String) (attributes : List (String × String))

/-- A character as it is written in text and in the value of an attribute. -/
def escapeChar (c : Char) : List Char :=
  match c with
  | '&' => "&amp;".toList
  | '<' => "&lt;".toList
  | '>' => "&gt;".toList
  | '"' => "&quot;".toList
  | _ => [c]

def escape (s : String) : List Char :=
  s.toList.flatMap escapeChar

/-- An attribute, after a space that sets it off from what stands before it. -/
def writeAttribute (pair : String × String) : List Char :=
  ' ' :: pair.1.toList ++ "=\"".toList ++ escape pair.2 ++ ['"']

/-- The inside of a tag. -/
def writeTag (tag : String) (attributes : List (String × String)) : List Char :=
  tag.toList ++ attributes.flatMap writeAttribute

mutual

/-- A node as it is written. -/
def Node.write : Node → List Char
  | .text content => escape content
  | .element tag attributes children =>
    '<' :: writeTag tag attributes ++ '>' :: writeAll children ++ "</".toList ++ tag.toList ++ ['>']
  | .empty tag attributes => '<' :: writeTag tag attributes ++ " />".toList

/-- Nodes written one after another. -/
def writeAll : List Node → List Char
  | [] => []
  | node :: nodes => node.write ++ writeAll nodes

end

/-- An element whose tags and children stand on lines of their own. -/
def block (tag : String) (attributes : List (String × String)) (children : List Node) : Node :=
  .element tag attributes (.text "\n" :: children.flatMap fun child => [child, .text "\n"])

end ErDiagram.Markup
