/-!
# Page layout

Listings are made of lines. A layout knows how far a line is indented, what one step of
indentation looks like, and whether lines may carry colours. Colours are put around the
text of a line and never around its indentation.
-/

namespace ScriptLowering.Listing

/-! ## Colours -/

inductive Style where
  | green
  | cyan
  | bold
  deriving DecidableEq, Repr

namespace Style

def reset : List Char := ['\x1b', '[', '0', 'm']

def code : Style → List Char
  | green => ['\x1b', '[', '3', '2', 'm']
  | cyan => ['\x1b', '[', '3', '6', 'm']
  | bold => ['\x1b', '[', '1', 'm']

/-- Repeat the code after every reset that the text itself holds. -/
def reopen (code : List Char) : List Char → List Char
  | '\x1b' :: '[' :: '0' :: 'm' :: rest => reset ++ code ++ reopen code rest
  | character :: rest => character :: reopen code rest
  | [] => []

def paint (style : Style) (text : String) : String :=
  String.ofList (style.code ++ reopen style.code text.toList ++ reset)

end Style

/-! ## Settings -/

inductive IndentStyle where
  | spaces (width : Nat)
  | tabs
  deriving DecidableEq, Repr

def IndentStyle.unit : IndentStyle → String
  | spaces width => String.ofList (List.replicate width ' ')
  | tabs => "\t"

structure Settings where
  useColors : Bool
  indentStyle : IndentStyle
  /-- Write the type of every temp beside its definition. -/
  includeTypes : Bool
  deriving DecidableEq, Repr

namespace Settings

def colored : Settings := ⟨true, .spaces 4, false⟩

def plain : Settings := { colored with useColors := false }

def withColors (settings : Settings) (useColors : Bool) : Settings :=
  { settings with useColors := useColors }

def withTypes (settings : Settings) (includeTypes : Bool) : Settings :=
  { settings with includeTypes := includeTypes }

def withIndent (settings : Settings) (indentStyle : IndentStyle) : Settings :=
  { settings with indentStyle := indentStyle }

end Settings

/-! ## Lines -/

structure Layout where
  level : Nat
  unit : String
  useColors : Bool
  deriving DecidableEq, Repr

namespace Layout

def ofSettings (settings : Settings) : Layout :=
  ⟨0, settings.indentStyle.unit, settings.useColors⟩

def default : Layout := ofSettings .colored

def indent (layout : Layout) : Layout := { layout with level := layout.level + 1 }

/-- There is nothing to the left of the margin. -/
def dedent (layout : Layout) : Layout := { layout with level := layout.level - 1 }

@[simp] theorem dedent_indent (layout : Layout) : layout.indent.dedent = layout := by
  cases layout
  rfl

def indentation (layout : Layout) : String :=
  String.join (List.replicate layout.level layout.unit)

def line (layout : Layout) (text : String) : String := layout.indentation ++ text ++ "\n"

def styled (layout : Layout) (style : Style) (text : String) : String :=
  if layout.useColors then style.paint text else text

def styledLine (layout : Layout) (style : Style) (text : String) : String :=
  layout.line (layout.styled style text)

def comment (layout : Layout) (text : String) : String :=
  layout.styledLine .green ("; " ++ text)

def blank : String := "\n"

def openBlock (layout : Layout) (header : String) : String := layout.line (header ++ " \x7b")

def closeBlock (layout : Layout) : String := layout.line "\x7d"

/-- A body between braces, one step further in than its header. -/
def block (layout : Layout) (header : String) (body : Layout → String) : String :=
  layout.openBlock header ++ body layout.indent ++ layout.closeBlock

end Layout

end ScriptLowering.Listing
