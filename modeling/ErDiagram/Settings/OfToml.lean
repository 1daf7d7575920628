import ErDiagram.Settings
import ErDiagram.Toml.Document

/-! Settings from a TOML document.

A group of settings is a table, or an array with the settings in a fixed order. What is left out has
its standard value, and entries that mean nothing here are passed over. -/

namespace ErDiagram.Settings

open Toml (Value)

/-- Integers that are passed over still have to be in the range of 128 bits. -/
def isStorable (n : Int) : Bool :=
  -(Nat.pow 2 127 : Int) ≤ n && n < Nat.pow 2 128

mutual

/-- Whether a value that means nothing here can be passed over: all its numbers have to be
representable. -/
def isIgnorable : Value → Bool
  | .integer n => isStorable n
  | .float x => x.isSome
  | .array items => allIgnorable items
  | .table entries => allEntriesIgnorable entries
  | _ => true

def allIgnorable : List Value → Bool
  | [] => true
  | v :: others => isIgnorable v && allIgnorable others

def allEntriesIgnorable : List (String × Value) → Bool
  | [] => true
  | (_, v) :: others => isIgnorable v && allEntriesIgnorable others

end

/-- A number. An integer stands for the nearest double. -/
def number? : Value → Option Float
  | .float x => x
  | .integer n =>
    if -(Nat.pow 2 63 : Int) ≤ n ∧ n < Nat.pow 2 64 then
      some (Decimal.toFloat (decide (n < 0)) n.natAbs 0)
    else none
  | _ => none

def text? : Value → Option String
  | .text content => some content
  | _ => none

/-- A setting of a group: its key, and how a value sets it. -/
structure Field (σ : Type) where
  key : String
  set : σ → Value → Option σ

/-- A setting that is a number. -/
def numberField {σ : Type} (key : String) (put : σ → Float → σ) : Field σ :=
  ⟨key, fun group v => (number? v).map (put group)⟩

/-- Sets what the table has. The fields' keys differ, and so do the table's. -/
def setEntries? {σ : Type} (fields : List (Field σ)) (group : σ) :
    List (String × Value) → Option σ
  | [] => some group
  | (key, v) :: others => do
    match fields.find? fun field => field.key == key with
    | some field => setEntries? fields (← field.set group v) others
    | none => if isIgnorable v then setEntries? fields group others else none

/-- Sets the fields in their order as far as the array goes. -/
def setItems? {σ : Type} : List (Field σ) → σ → List Value → Option σ
  | field :: fields, group, v :: others => do
    setItems? fields (← field.set group v) others
  | _, group, _ => some group

/-- A group of settings. A date has no entries that mean anything here. -/
def group? {σ : Type} (fields : List (Field σ)) (standard : σ) : Value → Option σ
  | .table entries => setEntries? fields standard entries
  | .array items => setItems? fields standard items
  | .moment => some standard
  | _ => none

def layoutFields : List (Field (LayoutSettings Float)) := [
  numberField "margin_x" fun s x => { s with marginX := x },
  numberField "margin_y" fun s x => { s with marginY := x },
  numberField "gap" fun s x => { s with gap := x }]

def routingFields : List (Field (RoutingSettings Float)) := [
  numberField "padding" fun s x => { s with padding := x },
  numberField "marker_width" fun s x => { s with markerWidth := x },
  numberField "marker_height" fun s x => { s with markerHeight := x },
  ⟨"default_color", fun s v => (text? v).map fun color => { s with defaultColor := color }⟩]

def metricsFields : List (Field (TextMetrics Float)) := [
  numberField "char_width" fun s x => { s with charWidth := x },
  numberField "line_height" fun s x => { s with lineHeight := x },
  numberField "padding_x" fun s x => { s with paddingX := x },
  numberField "padding_y" fun s x => { s with paddingY := x },
  numberField "column_gap" fun s x => { s with columnGap := x },
  numberField "min_table_width" fun s x => { s with minTableWidth := x }]

def palette? : Value → Option Palette
  | .array items => (items.mapM text?).map Palette.mk
  | _ => none

def fields : List (Field (Settings Float)) := [
  ⟨"layout", fun s v => (group? layoutFields .standard v).map ({ s with layout := · })⟩,
  ⟨"routing", fun s v => (group? routingFields .standard v).map ({ s with routing := · })⟩,
  ⟨"metrics", fun s v => (group? metricsFields .standard v).map ({ s with metrics := · })⟩,
  ⟨"palette", fun s v => (palette? v).map ({ s with palette := · })⟩]

/-- The settings that a TOML document makes, or nothing if it is no such document. -/
def ofToml? (source : String) : Option (Settings Float) := do
  setEntries? fields .standard (← Toml.read? source)

end ErDiagram.Settings
