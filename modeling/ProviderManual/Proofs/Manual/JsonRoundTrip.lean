import ProviderManual.Manual.Document
import ProviderManual.Proofs.Manual.PageItems

/-! Resources as JSON and back. -/

namespace ProviderManual.Json

mutual

/-- The objects in a value, each before those inside it. -/
def Value.objects : Value → List Value
  | .object members => .object members :: membersObjects members
  | .array items => itemsObjects items
  | .null | .bool _ | .int _ | .string _ => []

def itemsObjects : List Value → List Value
  | [] => []
  | v :: vs => v.objects ++ itemsObjects vs

def membersObjects : List (String × Value) → List Value
  | [] => []
  | (_, v) :: ms => v.objects ++ membersObjects ms

end

end ProviderManual.Json

namespace ProviderManual.Manual

open ProviderManual.Json

theorem attributesToJson_eq_map (as : List Attribute) :
    attributesToJson as = as.map Attribute.toJson := by
  induction as with
  | nil => rfl
  | cons a as ih => rw [attributesToJson, ih, List.map_cons]

def Attribute.jsonMembers (a : Attribute) (children : List (String × Value)) :
    List (String × Value) :=
  [("name", .string a.name), ("description", .string a.description), ("required", .bool a.required),
    ("optional", .bool a.optional), ("computed", .bool a.computed)] ++ children ++
    [("min", .int a.min), ("max", .int a.max)]

theorem Attribute.toJson_eq (a : Attribute) :
    a.toJson = .object (a.jsonMembers (childrenMember a.attributes)) := by
  cases a
  rw [Attribute.toJson]
  rfl

theorem childrenMember_cases (as : List Attribute) :
    childrenMember as = [] ∧ as = [] ∨
      childrenMember as = [("attributes", .array (as.map Attribute.toJson))] ∧ as ≠ [] := by
  cases as with
  | nil => exact .inl ⟨rfl, rfl⟩
  | cons a as =>
      rw [childrenMember, attributesToJson_eq_map]
      exact .inr ⟨rfl, List.cons_ne_nil a as⟩

theorem Attribute.member?_attributes_toJson (a : Attribute) :
    a.toJson.member? "attributes" =
      if a.attributes.isEmpty then none else some (.array (a.attributes.map Attribute.toJson)) := by
  rw [Attribute.toJson_eq]
  rcases childrenMember_cases a.attributes with ⟨hmember, hchildren⟩ | ⟨hmember, hchildren⟩
  · rw [hmember, hchildren]
    rfl
  · rw [hmember, List.isEmpty_eq_false_iff.2 hchildren]
    rfl

theorem readMember_bounds (a : Attribute) :
    readMember "min" Value.int? (.object (a.jsonMembers (childrenMember a.attributes))) = some a.min ∧
    readMember "max" Value.int? (.object (a.jsonMembers (childrenMember a.attributes))) = some a.max := by
  rcases childrenMember_cases a.attributes with ⟨hmember, -⟩ | ⟨hmember, -⟩
  · rw [hmember]
    exact ⟨rfl, rfl⟩
  · rw [hmember]
    exact ⟨rfl, rfl⟩

theorem attributeOfJson?_jsonMembers {a : Attribute}
    (h : childrenOfMembers? (a.jsonMembers (childrenMember a.attributes)) = some a.attributes) :
    attributeOfJson? a.toJson = some a := by
  obtain ⟨hmin, hmax⟩ := readMember_bounds a
  rw [Attribute.toJson_eq, attributeOfJson?, hmin, hmax, h]
  cases a
  rfl

mutual

theorem attributeOfJson?_toJson : ∀ a : Attribute, attributeOfJson? a.toJson = some a
  | ⟨name, description, required, optional, computed, attributes, min, max⟩ => by
      have hitems := attributesOfItems?_toJson attributes
      refine attributeOfJson?_jsonMembers ?_
      cases attributes with
      | nil => rfl
      | cons b bs => exact hitems

theorem attributesOfItems?_toJson : ∀ as : List Attribute,
    attributesOfItems? (attributesToJson as) = some as
  | [] => rfl
  | a :: as => by
      rw [attributesToJson, attributesOfItems?, attributeOfJson?_toJson a, attributesOfItems?_toJson as]

end

theorem ofJson?_toJson (r : Resource) : Resource.ofJson? r.toJson = some r := by
  have hattributes : readMember "attributes" attributesOfJson? r.toJson = some r.attributes :=
    attributesOfItems?_toJson r.attributes
  have htype : readMember "type" (fun v => v.string?.bind ResourceType.ofName?) r.toJson =
      some r.type := by
    cases r with
    | mk _ _ _ _ _ type _ => cases type <;> rfl
  rw [Resource.ofJson?, hattributes, htype]
  rfl

theorem membersObjects_jsonMembers (a : Attribute) :
    membersObjects (a.jsonMembers (childrenMember a.attributes)) =
      itemsObjects (attributesToJson a.attributes) := by
  rcases childrenMember_cases a.attributes with ⟨hmember, hchildren⟩ | ⟨hmember, -⟩
  · rw [hmember, hchildren]
    rfl
  · rw [hmember, attributesToJson_eq_map]
    exact List.append_nil _

mutual

theorem Attribute.objects_toJson : ∀ a : Attribute, a.toJson.objects = a.preorder.map Attribute.toJson
  | ⟨name, description, required, optional, computed, attributes, min, max⟩ => by
      have hitems := itemsObjects_toJson attributes
      rw [Attribute.preorder, List.map_cons, ← hitems, Attribute.toJson_eq, Value.objects,
        membersObjects_jsonMembers]

theorem itemsObjects_toJson : ∀ as : List Attribute,
    itemsObjects (attributesToJson as) = (preorderAll as).map Attribute.toJson
  | [] => rfl
  | a :: as => by
      rw [attributesToJson, itemsObjects, preorderAll, List.map_append, Attribute.objects_toJson a,
        itemsObjects_toJson as]

end

theorem Resource.objects_toJson (r : Resource) :
    r.toJson.objects = r.toJson :: (preorderAll r.attributes).map Attribute.toJson := by
  have hobjects : r.toJson.objects = r.toJson :: (itemsObjects (attributesToJson r.attributes) ++ []) :=
    rfl
  rw [hobjects, List.append_nil, itemsObjects_toJson]

theorem Attribute.nodup_members (a : Attribute) :
    ((a.jsonMembers (childrenMember a.attributes)).map Prod.fst).Nodup := by
  rw [Attribute.jsonMembers, List.map_append, List.map_append]
  rcases childrenMember_cases a.attributes with ⟨hmember, -⟩ | ⟨hmember, -⟩
  · rw [hmember]
    simp
  · rw [hmember]
    simp

theorem nodup_members_of_mem_objects {r : Resource} {members : List (String × Value)}
    (h : .object members ∈ r.toJson :: (preorderAll r.attributes).map Attribute.toJson) :
    (members.map Prod.fst).Nodup := by
  rcases List.mem_cons.1 h with h | h
  · obtain rfl := Value.object.inj h
    simp
  · obtain ⟨a, -, ha⟩ := List.mem_map.1 h
    rw [Attribute.toJson_eq] at ha
    obtain rfl := Value.object.inj ha
    exact a.nodup_members

/-- A resource is read back from its JSON as it was; of its objects only attributes without children
lack the member for them. -/
theorem resource_read_back_from_json (r : Resource) :
    Resource.ofJson? r.toJson = some r ∧
    r.toJson.objects = r.toJson :: (preorderAll r.attributes).map Attribute.toJson ∧
    (∀ members, .object members ∈ r.toJson.objects → (members.map Prod.fst).Nodup) ∧
    (∀ a : Attribute, a.toJson.member? "attributes" =
      if a.attributes.isEmpty then none
      else some (.array (a.attributes.map Attribute.toJson))) ∧
    r.toJson.member? "attributes" = some (.array (r.attributes.map Attribute.toJson)) := by
  refine ⟨ofJson?_toJson r, r.objects_toJson, fun members h => ?_,
    Attribute.member?_attributes_toJson, ?_⟩
  · rw [r.objects_toJson] at h
    exact nodup_members_of_mem_objects h
  · rw [← attributesToJson_eq_map]
    rfl

end ProviderManual.Manual
