import ProviderManual.Text.Order
import ProviderManual.Text.Pieces

namespace ProviderManual.Manual

inductive ResourceType where
  | datasource
  | resource
  deriving DecidableEq, Repr

namespace ResourceType

def name : ResourceType → String
  | .datasource => "datasource"
  | .resource => "resource"

def dir : ResourceType → String
  | .datasource => "d"
  | .resource => "r"

def title : ResourceType → String
  | .datasource => "Data Source"
  | .resource => "Resource"

def noun : ResourceType → String
  | .datasource => "data source"
  | .resource => "resource"

end ResourceType

structure Attribute where
  name : String
  description : String
  required : Bool
  optional : Bool
  computed : Bool
  attributes : List Attribute
  min : Int
  max : Int
  deriving Repr, BEq

namespace Attribute

def isArgument (a : Attribute) : Bool :=
  a.required || a.optional

def isBlock (a : Attribute) : Bool :=
  !a.attributes.isEmpty

end Attribute

def sortAttributes (attributes : List Attribute) : List Attribute :=
  Text.sortOn Attribute.name attributes

structure Resource where
  provider : String
  name : String
  nameSuffix : String
  shortDescription : String
  description : String
  type : ResourceType
  attributes : List Attribute
  deriving Repr, BEq

def findNamed (name : String) (attributes : List Attribute) : Option Attribute :=
  attributes.find? (·.name = name)

def descend (a : Attribute) : List String → Option Attribute
  | [] => some a
  | name :: names =>
      match findNamed name a.attributes with
      | some b => descend b names
      | none => none

def segments (path : String) : List String :=
  (Text.pieces '.' path.toList).map String.ofList

def Resource.attribute? (r : Resource) (path : String) : Option Attribute :=
  match segments path with
  | [] => none
  | name :: names =>
      match findNamed name r.attributes with
      | some a => descend a names
      | none => none

end ProviderManual.Manual
