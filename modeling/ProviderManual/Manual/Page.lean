import ProviderManual.Files.Tree
import ProviderManual.Manual.Document
import ProviderManual.Template.Read
import ProviderManual.Template.Render

namespace ProviderManual.Manual

structure Item where
  name : String
  description : String
  required : Bool
  optional : Bool
  computed : Bool
  block : Bool
  min : Int
  max : Int
  bounds : Option String
  deriving DecidableEq, Repr

def boundsText (min max : Int) : Option String :=
  if min = 0 ∧ max = 0 then none
  else if max = 0 then some ("At least " ++ toString min ++ " must be specified.")
  else if min = 0 then some ("At most " ++ toString max ++ " may be specified.")
  else if min = max then some ("Exactly " ++ toString min ++ " must be specified.")
  else some ("Between " ++ toString min ++ " and " ++ toString max ++ " must be specified.")

def Item.ofAttribute (a : Attribute) : Item where
  name := a.name
  description := a.description
  required := a.required
  optional := a.optional
  computed := a.computed
  block := a.isBlock
  min := a.min
  max := a.max
  bounds := boundsText a.min a.max

structure BlockSection where
  name : String
  verb : String
  items : List Item
  deriving DecidableEq, Repr

mutual

def Attribute.sections : Attribute → List BlockSection
  | ⟨name, _, required, optional, _, attributes, _, _⟩ =>
      sectionOf name (required || optional) attributes ++ sectionsOfAll attributes

def sectionOf (name : String) (isArgument : Bool) : List Attribute → List BlockSection
  | [] => []
  | a :: as =>
      [{ name := name
         verb := if isArgument then "supports" else "exports"
         items := (a :: as).map Item.ofAttribute }]

def sectionsOfAll : List Attribute → List BlockSection
  | [] => []
  | a :: as => a.sections ++ sectionsOfAll as

end

def Resource.summary (r : Resource) : String :=
  if r.shortDescription.isEmpty then
    String.ofList ((Text.lines r.description.toList).headD [])
  else r.shortDescription

structure Page where
  resource : Resource
  title : String
  noun : String
  summary : String
  arguments : List Item
  exported : List Item
  blocks : List BlockSection

def Resource.page (r : Resource) : Page where
  resource := r
  title := r.type.title
  noun := r.type.noun
  summary := r.summary
  arguments := (r.attributes.filter (·.isArgument)).map Item.ofAttribute
  exported := (r.attributes.filter (!·.isArgument)).map Item.ofAttribute
  blocks := sectionsOfAll r.attributes

mutual

def templateValue : Json.Value → Template.Value
  | .null => .absent
  | .bool b => .bool b
  | .int n => .int n
  | .string s => .text s
  | .array items => .list (templateValues items)
  | .object members => .map (templateMembers members)

def templateValues : List Json.Value → List Template.Value
  | [] => []
  | v :: vs => templateValue v :: templateValues vs

def templateMembers : List (String × Json.Value) → List (String × Template.Value)
  | [] => []
  | (name, v) :: ms => (name, templateValue v) :: templateMembers ms

end

def Item.value (i : Item) : Template.Value :=
  .map [("name", .text i.name), ("description", .text i.description),
    ("required", .bool i.required), ("optional", .bool i.optional),
    ("computed", .bool i.computed), ("block", .bool i.block), ("min", .int i.min),
    ("max", .int i.max), ("bounds", (i.bounds.map Template.Value.text).getD .absent)]

def BlockSection.value (b : BlockSection) : Template.Value :=
  .map [("name", .text b.name), ("verb", .text b.verb), ("items", .list (b.items.map Item.value))]

def Page.names (p : Page) : List (String × Template.Value) :=
  [("resource", templateValue p.resource.toJson), ("title", .text p.title),
    ("noun", .text p.noun), ("summary", .text p.summary),
    ("arguments", .list (p.arguments.map Item.value)),
    ("exported", .list (p.exported.map Item.value)),
    ("blocks", .list (p.blocks.map BlockSection.value))]

def itemRoutine : String :=
  String.join [
    "\x7b% macro item(a) %\x7d",
    "* \x60\x7b\x7b a.name \x7d\x7d\x60 -",
    "\x7b% if a.required %\x7d (Required)\x7b% elif a.optional %\x7d (Optional)\x7b% endif %\x7d",
    "\x7b% if a.description %\x7d \x7b\x7b a.description \x7d\x7d\x7b% endif %\x7d",
    "\x7b% if a.block %\x7d A \x60\x7b\x7b a.name \x7d\x7d\x60 block as defined below.",
    "\x7b% endif %\x7d",
    "\x7b% if a.bounds %\x7d \x7b\x7b a.bounds \x7d\x7d\x7b% endif %\x7d",
    "\x7b% endmacro %\x7d"]

def standardTemplate : String :=
  String.join ([
    itemRoutine,
    "---",
    "layout: \"\x7b\x7b resource.provider \x7d\x7d\"",
    "page_title: \"\x7b\x7b resource.provider \x7d\x7d: \x7b\x7b resource.name \x7d\x7d\"",
    "sidebar_current: \"docs-\x7b\x7b resource.provider \x7d\x7d-\x7b\x7b resource.type \x7d\x7d-"
      ++ "\x7b\x7b resource.name_suffix | replace(\"_\", \"-\") \x7d\x7d\"",
    "description: |-",
    "  \x7b\x7b summary \x7d\x7d",
    "---",
    "",
    "# \x7b\x7b title \x7d\x7d: \x7b\x7b resource.name \x7d\x7d",
    "",
    "\x7b% if resource.description %\x7d",
    "\x7b\x7b resource.description \x7d\x7d",
    "",
    "\x7b% endif %\x7d",
    "## Argument Reference",
    "",
    "\x7b% if arguments %\x7d",
    "The following arguments are supported:",
    "",
    "\x7b% for a in arguments %\x7d",
    "\x7b\x7b item(a) \x7d\x7d",
    "\x7b% endfor %\x7d",
    "\x7b% else %\x7d",
    "This \x7b\x7b noun \x7d\x7d has no arguments.",
    "\x7b% endif %\x7d",
    "",
    "## Attributes Reference",
    "",
    "The following attributes are exported:",
    "",
    "* \x60id\x60 - The ID of the \x7b\x7b noun \x7d\x7d.",
    "\x7b% for a in exported %\x7d",
    "\x7b\x7b item(a) \x7d\x7d",
    "\x7b% endfor %\x7d",
    "\x7b% for block in blocks %\x7d",
    "",
    "---",
    "",
    "A \x60\x7b\x7b block.name \x7d\x7d\x60 block \x7b\x7b block.verb \x7d\x7d the following:",
    "",
    "\x7b% for a in block.items %\x7d",
    "\x7b\x7b item(a) \x7d\x7d",
    "\x7b% endfor %\x7d",
    "\x7b% endfor %\x7d"].map (· ++ "\n"))

def Resource.render (template : List Template.Node) (r : Resource) :
    Except Template.Fault String :=
  Template.render r.page.names template

def Resource.pagePath (root : String) (r : Resource) : String :=
  Files.join (Files.join root r.type.dir) (r.nameSuffix ++ ".html.markdown")

inductive PageFault where
  | creating (path : String) (fault : Files.Fault)
  | rendering (resource : String) (fault : Template.Fault)
  | writing (path : String) (fault : Files.Fault)
  deriving DecidableEq, Repr

def PageFault.message : PageFault → String
  | .creating path fault => "creating " ++ path ++ ": " ++ fault.message
  | .rendering resource fault => "rendering " ++ resource ++ ": " ++ fault.message
  | .writing path fault => "writing " ++ path ++ ": " ++ fault.message

def Resource.writePage (template : List Template.Node) (root : String) (t : Files.Tree)
    (r : Resource) : Files.Tree × Except PageFault String :=
  let path := r.pagePath root
  let directory := Files.parent path
  match t.createDirectory directory with
  | .error f => (t, .error (.creating directory f))
  | .ok made =>
      match r.render template with
      | .error f => (made, .error (.rendering r.name f))
      | .ok page =>
          match made.write path page.toUTF8 with
          | .error f => (made, .error (.writing path f))
          | .ok written => (written, .ok path)

def writePages (template : List Template.Node) (root : String) (t : Files.Tree) :
    List Resource → Files.Tree × Except PageFault (List String)
  | [] => (t, .ok [])
  | r :: rs =>
      match r.writePage template root t with
      | (t, .error f) => (t, .error f)
      | (t, .ok path) =>
          match writePages template root t rs with
          | (t, .error f) => (t, .error f)
          | (t, .ok paths) => (t, .ok (path :: paths))

end ProviderManual.Manual
