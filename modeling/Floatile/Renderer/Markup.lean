import Floatile.Lib.Decimal
import Floatile.UiSchema.Ir

/-! The generated source as a tree of pieces. A piece keeps where its text comes from; the tree
keeps which guard and which braces stand around it. -/
namespace Floatile.Renderer

open Floatile.Lib
open Floatile.UiSchema

/-- The projection types that the renderer and the shell share. -/
inductive BindingValueType where
  | string
  | boolean
  | number
  | stringList
  | numberList
  deriving DecidableEq, Repr

/-- A path of the state and the name of the property that is generated for it. -/
structure BindingSlot where
  path : String
  prop : String
  valueType : BindingValueType
  deriving DecidableEq, Repr

/-- A declared event and the name of the callback that is generated for it. -/
structure EventSlot where
  event : String
  callback : String
  deriving DecidableEq, Repr

inductive Piece where
  /-- A text of the renderer itself. -/
  | host (text : String)
  /-- An encoded string literal, with its quotes. -/
  | quoted (literal : String)
  | number (value : Float)
  | color (literal : String)
  /-- A text of the document that is copied as it is. -/
  | raw (text : String)
  | prop (slot : BindingSlot)
  | callback (slot : EventSlot)

/-- The condition in front of an element. -/
inductive Condition where
  | isTrue (slot : BindingSlot)
  | isFalse (slot : BindingSlot)
  | below (breakpoint : Float)
  | atLeast (breakpoint : Float)

def Condition.pieces : Condition → List Piece
  | .isTrue slot => [.host "if root.",.prop slot,.host ": "]
  | .isFalse slot => [.host "if !root.",.prop slot,.host ": "]
  | .below breakpoint => [.host "if root.width < ",.number breakpoint,.host "px: "]
  | .atLeast breakpoint => [.host "if root.width >= ",.number breakpoint,.host "px: "]

/-- The bodies of components carry the component: a leaf has no components inside, a block has
them between its braces, as has the row of a grid. -/
inductive Markup where
  | text (pieces : List Piece)
  | guard (condition : Condition)
  | leaf (comp : Component) (pieces : List Piece)
  | block (comp : Component) (content : List Markup)
  | row (content : List Markup)

inductive Origin where
  | host
  | quoted
  | number
  | color
  | raw
  | name
  deriving DecidableEq, Repr

/-- A character of the source and where it comes from. -/
structure Glyph where
  origin : Origin
  char : Char
  deriving DecidableEq, Repr

def glyphsOf (origin : Origin) (text : String) : List Glyph := text.toList.map (Glyph.mk origin)

def Piece.glyphs : Piece → List Glyph
  | .host text => glyphsOf .host text
  | .quoted literal => glyphsOf .quoted literal
  | .number value => glyphsOf .number (Decimal.displayF64 value)
  | .color literal => glyphsOf .color literal
  | .raw text => glyphsOf .raw text
  | .prop slot => glyphsOf .name slot.prop
  | .callback slot => glyphsOf .name slot.callback

/-- The line without a carriage return at its end; the line is kept in reverse. -/
def stripReturn : List Glyph → List Glyph
  | g :: line => if g.char = '\r' then line else g :: line
  | [] => []

/-- The lines of a text, where the reversed current line is already read. -/
def linesFrom (line : List Glyph) : List Glyph → List (List Glyph)
  | [] => if line.isEmpty then [] else [line.reverse]
  | g :: rest =>
    if g.char = '\n' then (stripReturn line).reverse :: linesFrom [] rest
    else linesFrom (g :: line) rest

/-- Every line with eight blanks in front. -/
def indent (text : List Glyph) : List Glyph :=
  (linesFrom [] text).flatMap
    (fun line => glyphsOf .host "        " ++ line ++ glyphsOf .host "\n")

mutual

/-- Every child of a row ends with a line break, so its cells are indented together. -/
def Markup.glyphs : Markup → List Glyph
  | .text pieces => pieces.flatMap Piece.glyphs
  | .guard condition => condition.pieces.flatMap Piece.glyphs
  | .leaf _ pieces => pieces.flatMap Piece.glyphs
  | .block _ content => glyphsList content
  | .row content =>
    glyphsOf .host "    Row \x7b\n" ++ indent (glyphsList content) ++ glyphsOf .host "    \x7d\n"

def glyphsList : List Markup → List Glyph
  | [] => []
  | m :: rest => m.glyphs ++ glyphsList rest

end

def textOf (markup : List Markup) : String :=
  String.ofList ((glyphsList markup).map Glyph.char)

end Floatile.Renderer
