import ProviderManual.Manual.Page
import ProviderManual.Proofs.Template.Comparison

/-! What the standard template reads as. -/

namespace ProviderManual.Manual

open ProviderManual.Template

def put (name : String) : Node :=
  .output (.name name)

def putMember (name member : String) : Node :=
  .output (.member (.name name) member)

def itemBody : List Node :=
  [.text "* \x60", putMember "a" "name", .text "\x60 -",
    .choice (.member (.name "a") "required") [.text " (Required)"]
      [.choice (.member (.name "a") "optional") [.text " (Optional)"] []],
    .text "",
    .choice (.member (.name "a") "description") [.text " ", putMember "a" "description", .text ""] [],
    .text "",
    .choice (.member (.name "a") "block")
      [.text " A \x60", putMember "a" "name", .text "\x60 block as defined below."] [],
    .text "",
    .choice (.member (.name "a") "bounds") [.text " ", putMember "a" "bounds", .text ""] [],
    .text ""]

def itemLoop (items : Expr) : Node :=
  .loop "a" items [.text "", .output (.call (.name "item") [.name "a"]), .text "\n"] []

def descriptionChoice : Node :=
  .choice (.member (.name "resource") "description")
    [.text "", putMember "resource" "description", .text "\n\n"] []

def argumentChoice : Node :=
  .choice (.name "arguments")
    [.text "The following arguments are supported:\n\n", itemLoop (.name "arguments"), .text ""]
    [.text "This ", put "noun", .text " has no arguments.\n"]

def blockLoop : Node :=
  .loop "block" (.name "blocks")
    [.text "\n---\n\nA \x60", putMember "block" "name", .text "\x60 block ", putMember "block" "verb",
      .text " the following:\n\n", itemLoop (.member (.name "block") "items"), .text ""] []

def frontNodes : List Node :=
  [.text "---\nlayout: \"", putMember "resource" "provider",
    .text "\"\npage_title: \"", putMember "resource" "provider",
    .text ": ", putMember "resource" "name",
    .text "\"\nsidebar_current: \"docs-", putMember "resource" "provider",
    .text "-", putMember "resource" "type", .text "-",
    .output (.filter "replace" (.member (.name "resource") "name_suffix") [.text "_", .text "-"]),
    .text "\"\ndescription: |-\n  ", put "summary",
    .text "\n---\n\n# ", put "title", .text ": ", putMember "resource" "name", .text "\n\n"]

def argumentNodes : List Node :=
  [descriptionChoice, .text "## Argument Reference\n\n", argumentChoice]

def exportedNodes : List Node :=
  [.text ("\n## Attributes Reference\n\nThe following attributes are exported:\n\n"
      ++ "* \x60id\x60 - The ID of the "),
    put "noun", .text ".\n", itemLoop (.name "exported"), .text "", blockLoop, .text ""]

def pageNodes : List Node :=
  frontNodes ++ argumentNodes ++ exportedNodes

theorem parse_standardTemplate :
    parse standardTemplate = some (.text "" :: .define "item" ["a"] itemBody :: pageNodes) := by
  -- the characters of the template are listed first, since its text is joined from lines
  simp only [parse, Chunk.ofText?, standardTemplate, itemRoutine, String.join, List.map, List.foldl,
    String.toList_append, String.reduceToList]
  decide +kernel

end ProviderManual.Manual
