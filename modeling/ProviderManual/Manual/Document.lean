import ProviderManual.Json.Value
import ProviderManual.Manual.Generate

namespace ProviderManual.Manual

open ProviderManual.Json

mutual

def Attribute.toJson : Attribute → Value
  | ⟨name, description, required, optional, computed, attributes, min, max⟩ =>
      .object (
        [("name", .string name), ("description", .string description),
          ("required", .bool required), ("optional", .bool optional),
          ("computed", .bool computed)]
        ++ childrenMember attributes
        ++ [("min", .int min), ("max", .int max)])

def childrenMember : List Attribute → List (String × Value)
  | [] => []
  | a :: as => [("attributes", .array (a.toJson :: attributesToJson as))]

def attributesToJson : List Attribute → List Value
  | [] => []
  | a :: as => a.toJson :: attributesToJson as

end

def Resource.toJson (r : Resource) : Value :=
  .object [("provider", .string r.provider), ("name", .string r.name),
    ("name_suffix", .string r.nameSuffix), ("short_description", .string r.shortDescription),
    ("description", .string r.description), ("type", .string r.type.name),
    ("attributes", .array (attributesToJson r.attributes))]

def readMember {α : Type} (name : String) (read : Value → Option α) (v : Value) : Option α :=
  (v.member? name).bind read

def ResourceType.ofName? : String → Option ResourceType
  | "datasource" => some .datasource
  | "resource" => some .resource
  | _ => none

mutual

def childrenOfMembers? : List (String × Value) → Option (List Attribute)
  | [] => some []
  | (name, v) :: ms =>
      if name = "attributes" then attributesOfJson? v else childrenOfMembers? ms

def attributesOfJson? : Value → Option (List Attribute)
  | .array items => attributesOfItems? items
  | _ => none

def attributesOfItems? : List Value → Option (List Attribute)
  | [] => some []
  | v :: vs =>
      match attributeOfJson? v, attributesOfItems? vs with
      | some a, some as => some (a :: as)
      | _, _ => none

def attributeOfJson? : Value → Option Attribute
  | .object members => do
      let v := Value.object members
      let name ← readMember "name" Value.string? v
      let description ← readMember "description" Value.string? v
      let required ← readMember "required" Value.bool? v
      let optional ← readMember "optional" Value.bool? v
      let computed ← readMember "computed" Value.bool? v
      let min ← readMember "min" Value.int? v
      let max ← readMember "max" Value.int? v
      let attributes ← childrenOfMembers? members
      return ⟨name, description, required, optional, computed, attributes, min, max⟩
  | _ => none

end

def Resource.ofJson? (v : Value) : Option Resource := do
  let provider ← readMember "provider" Value.string? v
  let name ← readMember "name" Value.string? v
  let nameSuffix ← readMember "name_suffix" Value.string? v
  let shortDescription ← readMember "short_description" Value.string? v
  let description ← readMember "description" Value.string? v
  let type ← readMember "type" (fun v => v.string?.bind ResourceType.ofName?) v
  let attributes ← readMember "attributes" attributesOfJson? v
  return ⟨provider, name, nameSuffix, shortDescription, description, type, attributes⟩

open ProviderManual.Schema

def failureToJson (e : ResourceError) : Value :=
  .object [("resource", .string e.resource), ("type", .string e.type.name),
    ("errors", .array (e.errors.map fun e =>
      .object [("path", .string e.path.text), ("message", .string e.fault.message)]))]

def registryFailureToJson (e : RegistryError) : Value :=
  .object [("registry", .string (registryField e.type)), ("type", .string e.type.name),
    ("message", .string e.fault.message)]

def toolVersion : String :=
  "0.1.0"

def Report.toJson (provider : String) (r : Report) : Value :=
  .object [("version", .string toolVersion), ("provider", .string provider),
    ("resources", .array (r.resources.map Resource.toJson)),
    ("failures", .array (r.failures.map failureToJson)),
    ("registry_failures", .array (r.registryFailures.map registryFailureToJson))]

end ProviderManual.Manual
