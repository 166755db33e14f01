/-
  Writing trees as HTML.

  * `Writer`: the settings that decide how elements are written.
  * `Writer.render`: an element with all below it; `Writer.renderInner`: its children only, which is
    never indented.
  * `Writer.blockDepth?`: the elements whose children stand on lines of their own.
-/
import ComponentMarkup.Config.Basic
import ComponentMarkup.Markup.Escape
import ComponentMarkup.Markup.Token.Scan
import ComponentMarkup.Tree.Basic

namespace ComponentMarkup.Markup

/-- The settings for writing elements. -/
structure Writer where
  output : OutputConfig
  markup : MarkupConfig

namespace Writer

variable (w : Writer)

/-- Whether the body of an element is written without escaping. -/
def keepsBody (name : String) : Bool :=
  w.output.preserveScriptBody && isRawName name

/-- An attribute with a space before it. -/
def writeAttribute (attr : String × String) : String :=
  " " ++ attr.1 ++ "=\"" ++ escapeAttribute attr.2 ++ "\""

/-- The start tag of an element. -/
def writeStartTag (node : Node) : String :=
  "<" ++ node.name ++ String.join (node.attributes.entries.map writeAttribute) ++ ">"

/-- The end tag of an element. -/
def writeEndTag (name : String) : String :=
  "</" ++ name ++ ">"

/-- A line break, and the indentation of the given depth. -/
def newLine (depth : Nat) : String :=
  "\n" ++ String.ofList (List.replicate (2 * depth) ' ')

/-- Text, escaped unless it stands in a body that is kept. -/
def writeText (kept : Bool) (s : String) : String :=
  if kept then s else escapeText s

/-- The indentation of an element whose children stand on lines of their own: one with element
children and without visible text, unless its body is kept or it is not indented itself. -/
def blockDepth? (indent : Option Nat) (node : Node) : Option Nat :=
  if !w.keepsBody node.name && node.hasElements && !node.hasVisibleText then indent else none

mutual

/-- Writes an element, at the given indentation or without any. -/
def writeElement (indent : Option Nat) : Node → String
  | ⟨name, attributes, children⟩ =>
    writeStartTag ⟨name, attributes, children⟩ ++
      if w.markup.isVoid name && children.isEmpty then
        if w.output.stripVoidClosing then "" else writeEndTag name
      else
        match w.blockDepth? indent ⟨name, attributes, children⟩ with
        | some depth => writeLines (depth + 1) children ++ newLine depth ++ writeEndTag name
        | none => writeChildren (w.keepsBody name) children ++ writeEndTag name

/-- Writes the element children of a block, each on a line of its own. -/
def writeLines (depth : Nat) : List Child → String
  | [] => ""
  | .text _ :: rest => writeLines depth rest
  | .element node :: rest =>
    newLine depth ++ writeElement (some depth) node ++ writeLines depth rest

/-- Writes children one directly after another. -/
def writeChildren (kept : Bool) : List Child → String
  | [] => ""
  | .text s :: rest => writeText kept s ++ writeChildren kept rest
  | .element node :: rest => writeElement none node ++ writeChildren kept rest

end

/-- An element with all below it. -/
def render (node : Node) : String :=
  w.writeElement (if w.output.format then some 0 else none) node

/-- The children of an element, without indentation. -/
def renderInner (node : Node) : String :=
  w.writeChildren (w.keepsBody node.name) node.children

end Writer

end ComponentMarkup.Markup
