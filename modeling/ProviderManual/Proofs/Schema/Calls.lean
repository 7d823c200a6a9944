import Mathlib.Data.List.Perm.Subperm
import Mathlib.Logic.Relation
import ProviderManual.Schema.Resolver

/-! The calls of a resolver, each with the builders that are under expansion when it is made. -/

namespace ProviderManual.Schema

open ProviderManual.Source ProviderManual.Manual

inductive Call where
  | attributes (path : Path) (elements : List Expr)
  | element (path : Path) (x : Expr)
  | builder (path : Path) (name b : String)
  | field (path : Path) (name : String) (elements : List Expr)

structure Activation where
  expanding : List String
  call : Call

variable (index : Index) (modules : Modules)

/-- The first call makes the second. An element is resolved with what the elements before it left
under expansion. -/
inductive Makes : Activation → Activation → Prop
  | element {s path before x after} :
      Makes ⟨s, .attributes path (before ++ x :: after)⟩
        ⟨(Resolver.each index modules s path before).expanding, .element path x⟩
  | inline {s path x name value elements} :
      elementParts x = .ok (name, value) → fieldSource value = .ok (.inline elements) →
      Makes ⟨s, .element path x⟩ ⟨s, .field (path ++ [name]) name elements⟩
  | builder {s path x name value b} :
      elementParts x = .ok (name, value) → fieldSource value = .ok (.builder b) →
      Makes ⟨s, .element path x⟩ ⟨s, .builder (path ++ [name]) name b⟩
  | expand {s path name b d l} :
      index.schema? b = some d → b ∉ s → builderLiteral modules d = some l →
      Makes ⟨s, .builder path name b⟩ ⟨b :: s, .field path name l.elements⟩
  | nested {s path name elements l} :
      nestedSchema elements = .ok (some l) →
      Makes ⟨s, .field path name elements⟩ ⟨s, .attributes path l.elements⟩

def Activation.expandingAfter (a : Activation) : List String :=
  match a.call with
  | .attributes path elements =>
      (Resolver.attributes index modules a.expanding path elements).expanding
  | .element path x => (Resolver.element index modules a.expanding path x).expanding
  | .builder path name b => (Resolver.builder index modules a.expanding path name b).expanding
  | .field path name elements =>
      (Resolver.field index modules a.expanding path name elements).expanding

theorem Activation.expandingAfter_eq (a : Activation) :
    a.expandingAfter index modules = a.expanding := by
  obtain ⟨hattributes, helement, hbuilder, hfield⟩ := Resolver.pair_eq index modules
  obtain ⟨s, call⟩ := a
  cases call with
  | attributes path elements => exact congrArg Prod.snd (hattributes s path elements)
  | element path x => exact congrArg Prod.snd (helement s path x)
  | builder path name b => exact congrArg Prod.snd (hbuilder s path name b)
  | field path name elements => exact congrArg Prod.snd (hfield s path name elements)

theorem expanding_each (s : List String) (path : Path) (xs : List Expr) :
    (Resolver.each index modules s path xs).expanding = s :=
  congrArg Prod.snd (Resolver.each_pair index modules fun x _ =>
    (Resolver.pair_eq index modules).2.1 s path x)

abbrev MadeBy (a' a : Activation) : Prop :=
  Makes index modules a a'

theorem acc_calls :
    (∀ s path elements, Acc (MadeBy index modules) ⟨s, .attributes path elements⟩) ∧
    (∀ s path x, Acc (MadeBy index modules) ⟨s, .element path x⟩) ∧
    (∀ s path name b, Acc (MadeBy index modules) ⟨s, .builder path name b⟩) ∧
    (∀ s path name elements, Acc (MadeBy index modules) ⟨s, .field path name elements⟩) := by
  refine resolution_induct index modules ?_ ?_ ?_ ?_
  · intro s path elements ih
    refine .intro _ fun a' h => ?_
    cases h with
    | element =>
        -- the elements before this one left the builders under expansion as they were
        rw [expanding_each]
        exact ih _ (by simp)
  · intro s path x hinline hbuilder
    refine .intro _ fun a' h => ?_
    cases h with
    | inline hp hs => exact hinline _ _ _ hp hs
    | builder hp hs => exact hbuilder _ _ _ hp hs
  · intro s path name b ih
    refine .intro _ fun a' h => ?_
    cases h with
    | expand hd hb hl => exact ih _ _ hd hb hl
  · intro s path name elements ih
    refine .intro _ fun a' h => ?_
    cases h with
    | nested hn => exact ih _ hn

theorem acc_madeBy (a : Activation) : Acc (MadeBy index modules) a := by
  obtain ⟨hattributes, helement, hbuilder, hfield⟩ := acc_calls index modules
  obtain ⟨s, call⟩ := a
  cases call with
  | attributes path elements => exact hattributes s path elements
  | element path x => exact helement s path x
  | builder path name b => exact hbuilder s path name b
  | field path name elements => exact hfield s path name elements

structure WellNested (s : List String) : Prop where
  nodup : s.Nodup
  indexed : ∀ b ∈ s, b ∈ index.schemas.names

theorem WellNested.nil : WellNested index [] :=
  ⟨List.nodup_nil, by simp⟩

theorem WellNested.makes {a a' : Activation} (h : Makes index modules a a')
    (ha : WellNested index a.expanding) : WellNested index a'.expanding := by
  cases h with
  | @element s path before x after =>
      rw [expanding_each]
      exact ha
  | inline _ _ => exact ha
  | builder _ _ => exact ha
  | expand hd hb _ =>
      refine ⟨List.nodup_cons.2 ⟨hb, ha.nodup⟩, fun c hc => ?_⟩
      rcases List.mem_cons.1 hc with rfl | hc
      · exact Text.Table.mem_names_of_get? hd
      · exact ha.indexed c hc
  | nested _ => exact ha

theorem WellNested.reached {a a' : Activation}
    (h : Relation.ReflTransGen (Makes index modules) a a') (ha : WellNested index a.expanding) :
    WellNested index a'.expanding := by
  induction h with
  | refl => exact ha
  | tail _ hmakes ih => exact ih.makes index modules hmakes

theorem WellNested.length_le {s : List String} (h : WellNested index s) :
    s.length ≤ index.schemas.size := by
  have hsub : s.length ≤ index.schemas.names.length := (h.nodup.subperm h.indexed).length_le
  simpa [Text.Table.names, Text.Table.size] using hsub

/-- Whichever call a fresh resolver gets, it ends, and so does each call below it; the builders
under expansion are distinct and indexed at each of them, and it leaves them as they were. -/
theorem fresh_call_balanced (call : Call) :
    Acc (MadeBy index modules) ⟨[], call⟩ ∧
    ∀ a, Relation.ReflTransGen (Makes index modules) ⟨[], call⟩ a →
      a.expanding.Nodup ∧ (∀ b ∈ a.expanding, b ∈ index.schemas.names) ∧
      a.expanding.length ≤ index.schemas.size ∧
      a.expandingAfter index modules = a.expanding := by
  refine ⟨acc_madeBy index modules _, fun a h => ?_⟩
  have ha : WellNested index a.expanding := .reached index modules h (.nil index)
  exact ⟨ha.nodup, ha.indexed, ha.length_le, a.expandingAfter_eq index modules⟩

end ProviderManual.Schema
