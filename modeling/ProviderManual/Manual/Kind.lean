import ProviderManual.Manual.Attribute
import ProviderManual.Schema.Index

namespace ProviderManual.Manual

open ProviderManual.Schema

inductive KindFilter where
  | datasource
  | resource
  | all
  deriving DecidableEq, Repr

namespace KindFilter

def types : KindFilter → List ResourceType
  | .datasource => [.datasource]
  | .resource => [.resource]
  | .all => [.datasource, .resource]

def name : KindFilter → String
  | .datasource => "datasource"
  | .resource => "resource"
  | .all => "all"

def ofName? : String → Option KindFilter
  | "datasource" => some .datasource
  | "resource" => some .resource
  | "all" => some .all
  | _ => none

def parse (word : String) : Except String KindFilter :=
  match word.toLower with
  | "datasource" | "data-source" | "d" => .ok .datasource
  | "resource" | "r" => .ok .resource
  | "all" => .ok .all
  | _ => .error ("unknown kind: " ++ word)

end KindFilter

end ProviderManual.Manual

namespace ProviderManual.Schema.ScanMode

def name : ScanMode → String
  | .first => "first"
  | .all => "all"

def ofName? : String → Option ScanMode
  | "first" => some .first
  | "all" => some .all
  | _ => none

def parse (word : String) : Except String ScanMode :=
  match word.toLower with
  | "first" => .ok .first
  | "all" => .ok .all
  | _ => .error ("unknown scan mode: " ++ word)

end ProviderManual.Schema.ScanMode
