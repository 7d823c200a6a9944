import Mathlib.Data.List.Forall2
import Mathlib.Data.List.Perm.Basic
import ProviderManual.Manual.Layout
import ProviderManual.Manual.Page

/-! Every attribute of a resource has one item on its page. -/

namespace ProviderManual.Manual

/-- The elements of a list told apart by a property, both parts in the order of the list. -/
inductive Split {α : Type} (p : α → Prop) : List α → List α → List α → Prop where
  | nil : Split p [] [] []
  | left {x : α} {xs ys zs : List α} : p x → Split p xs ys zs → Split p (x :: xs) (x :: ys) zs
  | right {x : α} {xs ys zs : List α} : ¬ p x → Split p xs ys zs → Split p (x :: xs) ys (x :: zs)

theorem Split.filter {α : Type} {q : α → Prop} {p : α → Bool} (h : ∀ x, p x = true ↔ q x)
    (xs : List α) : Split q xs (xs.filter p) (xs.filter (!p ·)) := by
  induction xs with
  | nil => exact .nil
  | cons x xs ih =>
      by_cases hx : p x = true
      · rw [List.filter_cons_of_pos hx, List.filter_cons_of_neg (by simp [hx])]
        exact .left ((h x).1 hx) ih
      · rw [List.filter_cons_of_neg hx, List.filter_cons_of_pos (by simpa using hx)]
        exact .right (fun hq => hx ((h x).2 hq)) ih

theorem Split.perm {α : Type} {p : α → Prop} {xs ys zs : List α} (h : Split p xs ys zs) :
    (ys ++ zs).Perm xs := by
  induction h with
  | nil => exact .nil
  | left _ _ ih => exact ih.cons _
  | right _ _ ih => exact List.perm_middle.trans (ih.cons _)

theorem Attribute.isArgument_iff (a : Attribute) :
    a.isArgument = true ↔ a.required = true ∨ a.optional = true := by
  rw [Attribute.isArgument, Bool.or_eq_true]

/-- An item tells of an attribute what stands in it, and is one of a block exactly if the attribute has
children. -/
structure Shows (a : Attribute) (i : Item) : Prop where
  name_eq : i.name = a.name
  description_eq : i.description = a.description
  required_eq : i.required = a.required
  optional_eq : i.optional = a.optional
  computed_eq : i.computed = a.computed
  block_iff : i.block = true ↔ a.attributes ≠ []
  min_eq : i.min = a.min
  max_eq : i.max = a.max
  bounds_eq : i.bounds = boundsSentence a.min a.max

structure ShowsBlock (a : Attribute) (b : BlockSection) : Prop where
  name_eq : b.name = a.name
  verb_eq : b.verb = verbFor a
  items : List.Forall₂ Shows a.attributes b.items

theorem boundsText_eq (min max : Int) : boundsText min max = boundsSentence min max := by
  unfold boundsSentence
  split
  · rfl
  · next hmin =>
      have hmin : min ≠ 0 := hmin
      simp [boundsText, hmin]
  · next hmax =>
      have hmax : max ≠ 0 := hmax
      simp [boundsText, hmax]
  · next hmin hmax _ =>
      have hmin : min ≠ 0 := hmin
      have hmax : max ≠ 0 := hmax
      simp [boundsText, hmin, hmax]

theorem shows_ofAttribute (a : Attribute) : Shows a (.ofAttribute a) where
  name_eq := rfl
  description_eq := rfl
  required_eq := rfl
  optional_eq := rfl
  computed_eq := rfl
  block_iff := by simp [Item.ofAttribute, Attribute.isBlock]
  min_eq := rfl
  max_eq := rfl
  bounds_eq := boundsText_eq a.min a.max

theorem forall₂_shows (as : List Attribute) : List.Forall₂ Shows as (as.map Item.ofAttribute) :=
  List.forall₂_map_right_iff.2 (List.forall₂_same.2 fun a _ => shows_ofAttribute a)

def BlockSection.ofAttribute (a : Attribute) : BlockSection where
  name := a.name
  verb := verbFor a
  items := a.attributes.map Item.ofAttribute

theorem showsBlock_ofAttribute (a : Attribute) : ShowsBlock a (.ofAttribute a) where
  name_eq := rfl
  verb_eq := rfl
  items := forall₂_shows a.attributes

mutual

theorem Attribute.sections_eq : ∀ a : Attribute,
    a.sections = (a.preorder.filter (!·.attributes.isEmpty)).map BlockSection.ofAttribute
  | ⟨name, description, required, optional, computed, attributes, min, max⟩ => by
      rw [Attribute.sections, Attribute.preorder, sectionsOfAll_eq attributes, blocksOf]
      cases attributes with
      | nil => rfl
      | cons b bs =>
          rw [List.filter_cons_of_pos rfl]
          simp [sectionOf, BlockSection.ofAttribute, verbFor]

theorem sectionsOfAll_eq : ∀ as : List Attribute,
    sectionsOfAll as = (blocksOf as).map BlockSection.ofAttribute
  | [] => rfl
  | a :: as => by
      rw [sectionsOfAll, blocksOf, preorderAll, List.filter_append, List.map_append,
        Attribute.sections_eq a, sectionsOfAll_eq as, blocksOf]

end

mutual

theorem Attribute.perm_preorder : ∀ a : Attribute,
    (a :: a.preorder.flatMap (·.attributes)).Perm a.preorder
  | ⟨name, description, required, optional, computed, attributes, min, max⟩ => by
      rw [Attribute.preorder, List.flatMap_cons]
      exact (perm_preorderAll attributes).cons _

theorem perm_preorderAll : ∀ as : List Attribute,
    (as ++ (preorderAll as).flatMap (·.attributes)).Perm (preorderAll as)
  | [] => .nil
  | a :: as => by
      rw [preorderAll, List.flatMap_append]
      have hcomm : (as ++ (a.preorder.flatMap (·.attributes) ++
          (preorderAll as).flatMap (·.attributes))).Perm
          (a.preorder.flatMap (·.attributes) ++ (as ++ (preorderAll as).flatMap (·.attributes))) :=
        List.perm_append_comm_assoc _ _ _
      exact (hcomm.cons a).trans ((Attribute.perm_preorder a).append (perm_preorderAll as))

end

theorem flatMap_blocks (as : List Attribute) :
    (as.filter (!·.attributes.isEmpty)).flatMap (·.attributes) = as.flatMap (·.attributes) := by
  induction as with
  | nil => rfl
  | cons a as ih =>
      cases h : a.attributes with
      | nil =>
          rw [List.filter_cons_of_neg (by simp [h]), ih, List.flatMap_cons, h, List.nil_append]
      | cons b bs =>
          rw [List.filter_cons_of_pos (by simp [h]), List.flatMap_cons, List.flatMap_cons, ih]

def Page.items (p : Page) : List Item :=
  p.arguments ++ p.exported ++ p.blocks.flatMap (·.items)

theorem blocks_page (r : Resource) :
    r.page.blocks = (blocksOf r.attributes).map BlockSection.ofAttribute :=
  sectionsOfAll_eq r.attributes

theorem items_page_perm (r : Resource) :
    r.page.items.Perm ((preorderAll r.attributes).map Item.ofAttribute) := by
  have hsections : r.page.blocks.flatMap (·.items) =
      ((preorderAll r.attributes).flatMap (·.attributes)).map Item.ofAttribute := by
    rw [blocks_page, List.flatMap_map, ← flatMap_blocks, List.map_flatMap]
    rfl
  have htop : (r.page.arguments ++ r.page.exported).Perm (r.attributes.map Item.ofAttribute) := by
    rw [Resource.page, ← List.map_append]
    exact (Split.filter Attribute.isArgument_iff r.attributes).perm.map _
  rw [Page.items, hsections]
  refine (htop.append_right _).trans ?_
  rw [← List.map_append]
  exact (perm_preorderAll r.attributes).map _

/-- The items of a page are those of the attribute tree, each attribute once: split in two at the top,
and by sections below. -/
theorem page_items_of_attribute_tree (r : Resource) :
    (∃ arguments exported,
      Split (fun a => a.required = true ∨ a.optional = true) r.attributes arguments exported ∧
      List.Forall₂ Shows arguments r.page.arguments ∧
      List.Forall₂ Shows exported r.page.exported) ∧
    List.Forall₂ ShowsBlock (blocksOf r.attributes) r.page.blocks ∧
    (∃ items, List.Forall₂ Shows (preorderAll r.attributes) items ∧ r.page.items.Perm items) ∧
    (r.page.items.filter (·.block)).length = r.page.blocks.length := by
  refine ⟨⟨_, _, .filter Attribute.isArgument_iff r.attributes, forall₂_shows _, forall₂_shows _⟩, ?_,
    ⟨_, forall₂_shows _, items_page_perm r⟩, ?_⟩
  · rw [blocks_page]
    exact List.forall₂_map_right_iff.2 (List.forall₂_same.2 fun a _ => showsBlock_ofAttribute a)
  · rw [((items_page_perm r).filter _).length_eq, blocks_page, List.filter_map, List.length_map,
      List.length_map]
    rfl

end ProviderManual.Manual
