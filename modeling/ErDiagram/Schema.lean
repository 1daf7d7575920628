/-! Tables, their attributes, and the ids of what is drawn of them. -/

namespace ErDiagram

/-- A remark beside an attribute: a key and its value. -/
structure Note where
  key : String
  value : String
deriving DecidableEq, Repr

/-- What an attribute holds: values of a type, which is free text, or references to an attribute of
a table. The table referred to need not be declared. -/
inductive Target where
  | typed (text : String)
  | reference (table attr : String)
deriving DecidableEq, Repr

/-- The text that stands for a target in a drawing. -/
def Target.label : Target → String
  | typed text => text
  | reference table attr => table ++ "." ++ attr

/-- An attribute, with its flags and notes in the order of their declaration. -/
structure Attribute where
  name : String
  isOptional : Bool
  flags : List String
  notes : List Note
  target : Target
deriving DecidableEq, Repr

/-- Whether the attribute refers to another one. -/
def Attribute.isReference (a : Attribute) : Bool :=
  match a.target with
  | .typed _ => false
  | .reference .. => true

/-- A table, with its attributes in the order of their declaration. -/
structure Table where
  name : String
  attributes : List Attribute
deriving DecidableEq, Repr

/-- A reference: the attribute that makes it, and the table and attribute it points to. -/
structure Reference where
  source : String
  targetTable : String
  targetAttribute : String
deriving DecidableEq, Repr

/-- The reference that an attribute makes, if it makes one. -/
def Attribute.reference? (a : Attribute) : Option Reference :=
  match a.target with
  | .typed _ => none
  | .reference table attr => some ⟨a.name, table, attr⟩

/-- The references of a table in the order of its attributes. -/
def Table.references (t : Table) : List Reference :=
  t.attributes.filterMap Attribute.reference?

/-- The id of a drawn table. -/
def tableId (table : String) : String :=
  "table." ++ table

/-- The id of a drawn attribute row. -/
def attributeId (table attr : String) : String :=
  "table." ++ table ++ "." ++ attr

end ErDiagram
