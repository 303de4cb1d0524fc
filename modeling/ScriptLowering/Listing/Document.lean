import ScriptLowering.Json.Record
import ScriptLowering.Listing.Layout

/-!
# Listing settings as documents

Settings may leave out any field; a field that is left out is as in `Settings.colored`.
-/

namespace ScriptLowering.Listing

namespace IndentStyle

def toJson : IndentStyle → Json
  | spaces width => Json.ofLabelled "Spaces" (.integer width)
  | tabs => .string "Tabs"

/-- A width has to fit into a machine word. -/
def ofJson? (document : Json) : Option IndentStyle :=
  match document.bareChoice? with
  | some "Tabs" => some .tabs
  | _ =>
      match document.choice? with
      | some ("Spaces", some content) => (content.asNatural? UInt64.size).map .spaces
      | _ => none

end IndentStyle

namespace Settings

def toJson (settings : Settings) : Json :=
  .object [("use_colors", .bool settings.useColors),
    ("indent_style", settings.indentStyle.toJson),
    ("include_types", .bool settings.includeTypes)]

def ofJson? (document : Json) : Option Settings := do
  let record ← document.record? ["use_colors", "indent_style", "include_types"]
  return {
    useColors := ← record.defaulted? "use_colors" colored.useColors Json.asBool?
    indentStyle :=
      ← record.defaulted? "indent_style" colored.indentStyle IndentStyle.ofJson?
    includeTypes := ← record.defaulted? "include_types" colored.includeTypes Json.asBool? }

end Settings

end ScriptLowering.Listing
