import ProviderManual.Manual.Attribute

/-! The standard page of a resource, laid out part by part from the resource itself. -/

namespace ProviderManual.Manual

mutual

def Attribute.preorder : Attribute → List Attribute
  | ⟨name, description, required, optional, computed, attributes, min, max⟩ =>
      ⟨name, description, required, optional, computed, attributes, min, max⟩
        :: preorderAll attributes

def preorderAll : List Attribute → List Attribute
  | [] => []
  | a :: as => a.preorder ++ preorderAll as

end

def blocksOf (as : List Attribute) : List Attribute :=
  (preorderAll as).filter (!·.attributes.isEmpty)

def boundsSentence : Int → Int → Option String
  | 0, 0 => none
  | min, 0 => some ("At least " ++ toString min ++ " must be specified.")
  | 0, max => some ("At most " ++ toString max ++ " may be specified.")
  | min, max =>
      if min = max then some ("Exactly " ++ toString min ++ " must be specified.")
      else some ("Between " ++ toString min ++ " and " ++ toString max ++ " must be specified.")

def coded (name : String) : String :=
  "\x60" ++ name ++ "\x60"

/-- A piece of a line, with the space before it; an empty piece takes no space. -/
def piece (s : String) : String :=
  if s.isEmpty then "" else " " ++ s

def verbFor (a : Attribute) : String :=
  if a.required ∨ a.optional then "supports" else "exports"

namespace Attribute

def necessity (a : Attribute) : String :=
  if a.required then "(Required)" else if a.optional then "(Optional)" else ""

def blockNote (a : Attribute) : String :=
  if a.attributes.isEmpty then "" else "A " ++ coded a.name ++ " block as defined below."

def line (a : Attribute) : String :=
  "* " ++ coded a.name ++ " -" ++ piece a.necessity ++ piece a.description ++ piece a.blockNote
    ++ piece ((boundsSentence a.min a.max).getD "")

end Attribute

def linesOf (as : List Attribute) : String :=
  String.join (as.map fun a => a.line ++ "\n")

def Attribute.sectionText (a : Attribute) : String :=
  "\n---\n\nA " ++ coded a.name ++ " block " ++ verbFor a ++ " the following:\n\n"
    ++ linesOf a.attributes

structure Wording where
  tag : String
  heading : String
  noun : String

def ResourceType.wording : ResourceType → Wording
  | .datasource => ⟨"datasource", "Data Source", "data source"⟩
  | .resource => ⟨"resource", "Resource", "resource"⟩

/-- What stands before the first line feed, and before the carriage return of that line end. -/
def firstLine : List Char → List Char
  | [] => []
  | '\n' :: _ => []
  | '\r' :: '\n' :: _ => []
  | c :: cs => c :: firstLine cs

namespace Resource

def lead (r : Resource) : String :=
  if r.shortDescription = "" then String.ofList (firstLine r.description.toList)
  else r.shortDescription

def dashedSuffix (r : Resource) : String :=
  String.ofList (r.nameSuffix.toList.map fun c => if c = '_' then '-' else c)

def frontMatter (r : Resource) : String :=
  "---\n"
    ++ "layout: \"" ++ r.provider ++ "\"\n"
    ++ "page_title: \"" ++ r.provider ++ ": " ++ r.name ++ "\"\n"
    ++ "sidebar_current: \"docs-" ++ r.provider ++ "-" ++ r.type.wording.tag ++ "-" ++ r.dashedSuffix ++ "\"\n"
    ++ "description: |-\n  " ++ r.lead ++ "\n"
    ++ "---\n\n"

def head (r : Resource) : String :=
  "# " ++ r.type.wording.heading ++ ": " ++ r.name ++ "\n\n"
    ++ if r.description.isEmpty then "" else r.description ++ "\n\n"

def arguments (r : Resource) : List Attribute :=
  r.attributes.filter fun a => a.required || a.optional

def exported (r : Resource) : List Attribute :=
  r.attributes.filter fun a => !(a.required || a.optional)

def argumentPart (r : Resource) : String :=
  "## Argument Reference\n\n"
    ++ (if r.arguments.isEmpty then "This " ++ r.type.wording.noun ++ " has no arguments.\n"
        else "The following arguments are supported:\n\n" ++ linesOf r.arguments)
    ++ "\n"

def exportedPart (r : Resource) : String :=
  "## Attributes Reference\n\nThe following attributes are exported:\n\n"
    ++ "* " ++ coded "id" ++ " - The ID of the " ++ r.type.wording.noun ++ ".\n" ++ linesOf r.exported

def layout (r : Resource) : String :=
  r.frontMatter ++ r.head ++ r.argumentPart ++ r.exportedPart
    ++ String.join ((blocksOf r.attributes).map Attribute.sectionText)

end Resource

end ProviderManual.Manual
