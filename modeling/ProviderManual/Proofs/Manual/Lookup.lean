import Mathlib.Data.List.Nodup
import Mathlib.Data.Set.Function
import ProviderManual.Manual.Attribute

/-! Attributes by dotted path, also after sorting. -/

namespace ProviderManual.Manual

structure SplitsAtDots (path : String) (names : List String) : Prop where
  nonempty : names ≠ []
  dotless : ∀ name ∈ names, '.' ∉ name.toList
  joined : ".".intercalate names = path

structure IsFirstNamed (siblings : List Attribute) (name : String) (a : Attribute) : Prop where
  name_eq : a.name = name
  first : ∃ before after, siblings = before ++ a :: after ∧ ∀ b ∈ before, b.name ≠ name

/-- The names lead down from siblings to an attribute, at each level through the first of the name. -/
inductive LeadsTo : List Attribute → List String → Attribute → Prop
  | last {siblings name a} : IsFirstNamed siblings name a → LeadsTo siblings [name] a
  | down {siblings name a names b} : IsFirstNamed siblings name a →
      LeadsTo a.attributes names b → LeadsTo siblings (name :: names) b

/-- On the way down from siblings there is a name that none at its level has. -/
inductive LeadsNowhere : List Attribute → List String → Prop
  | here {siblings name names} : (∀ a ∈ siblings, a.name ≠ name) →
      LeadsNowhere siblings (name :: names)
  | down {siblings name a names} : IsFirstNamed siblings name a →
      LeadsNowhere a.attributes names → LeadsNowhere siblings (name :: names)

/-- Attributes from one of the siblings down, each a child of the one before. -/
inductive ChainBelow : List Attribute → List Attribute → Prop
  | last {siblings a} : a ∈ siblings → ChainBelow siblings [a]
  | down {siblings a chain} : a ∈ siblings → ChainBelow a.attributes chain →
      ChainBelow siblings (a :: chain)

/-- Each attribute of a chain has a name without dots that no other attribute at its level has. -/
def ToldApart : List Attribute → List Attribute → Prop
  | _, [] => True
  | siblings, a :: chain =>
      ('.' ∉ a.name.toList ∧ ∀ b ∈ siblings, b.name = a.name → b = a) ∧
        ToldApart a.attributes chain

/-- At every level the names are different and without dots. -/
inductive PlainlyNamed : List Attribute → Prop
  | intro {siblings} : (siblings.map Attribute.name).Nodup →
      (∀ a ∈ siblings, '.' ∉ a.name.toList) →
      (∀ a ∈ siblings, PlainlyNamed a.attributes) → PlainlyNamed siblings

def dottedPath (chain : List Attribute) : String :=
  ".".intercalate (chain.map Attribute.name)

section Splitting

theorem segments_intercalate {name : String} {names : List String}
    (h : ∀ n ∈ name :: names, '.' ∉ n.toList) : segments (".".intercalate (name :: names)) = name :: names := by
  induction names generalizing name with
  | nil => simp [segments, Text.pieces_of_not_mem (h name List.mem_cons_self)]
  | cons next names ih =>
      obtain ⟨hname, hnames⟩ := List.forall_mem_cons.1 h
      have hjoin : (".".intercalate (name :: next :: names)).toList =
          name.toList ++ '.' :: (".".intercalate (next :: names)).toList := by
        simp [String.toList_intercalate]
      rw [segments, hjoin, Text.pieces_append_cons, Text.pieces_of_not_mem hname, List.map_append]
      simpa [segments] using ih hnames

theorem splitsAtDots_iff {path : String} {names : List String} :
    SplitsAtDots path names ↔ segments path = names := by
  constructor
  · rintro ⟨hne, hdotless, rfl⟩
    obtain ⟨name, names, rfl⟩ := List.exists_cons_of_ne_nil hne
    exact segments_intercalate hdotless
  · rintro rfl
    refine ⟨by simpa [segments] using Text.pieces_ne_nil '.' path.toList, ?_, ?_⟩
    · refine List.forall_mem_map.2 fun cs hcs => ?_
      rw [String.toList_ofList]
      exact Text.not_mem_of_mem_pieces hcs
    · rw [← String.toList_inj, String.toList_intercalate, segments, List.map_map]
      have hid : String.toList ∘ String.ofList = id := funext fun cs => String.toList_ofList
      rw [hid, List.map_id]
      exact Text.intercalate_pieces '.' path.toList

end Splitting

section Following

variable {siblings chain : List Attribute} {name : String} {names : List String} {a b : Attribute}

theorem findNamed_eq_some_iff : findNamed name siblings = some a ↔ IsFirstNamed siblings name a := by
  rw [findNamed, List.find?_eq_some_iff_append]
  constructor
  · rintro ⟨hname, before, after, hsiblings, hbefore⟩
    exact ⟨of_decide_eq_true hname, before, after, hsiblings, by simpa using hbefore⟩
  · rintro ⟨hname, before, after, hsiblings, hbefore⟩
    exact ⟨decide_eq_true hname, before, after, hsiblings, by simpa using hbefore⟩

theorem findNamed_eq_none_iff : findNamed name siblings = none ↔ ∀ b ∈ siblings, b.name ≠ name := by
  simp [findNamed]

theorem IsFirstNamed.mem (h : IsFirstNamed siblings name a) : a ∈ siblings := by
  obtain ⟨-, before, after, rfl, -⟩ := h
  simp

theorem isFirstNamed_of_only (ha : a ∈ siblings) (honly : ∀ b ∈ siblings, b.name = a.name → b = a) :
    IsFirstNamed siblings a.name a := by
  rw [← findNamed_eq_some_iff]
  cases hfind : findNamed a.name siblings with
  | none => exact absurd rfl (findNamed_eq_none_iff.1 hfind a ha)
  | some b =>
      have hb := findNamed_eq_some_iff.1 hfind
      rw [honly b hb.mem hb.name_eq]

theorem descend_cons (a : Attribute) (name : String) (names : List String) :
    descend a (name :: names) = (findNamed name a.attributes).bind (descend · names) := by
  rw [descend]
  cases findNamed name a.attributes <;> rfl

theorem findNamed_bind_descend_eq_some_iff :
    (findNamed name siblings).bind (descend · names) = some b ↔
      LeadsTo siblings (name :: names) b := by
  induction names generalizing siblings name with
  | nil =>
      simp only [Option.bind_eq_some_iff, descend, Option.some.injEq, exists_eq_right]
      rw [findNamed_eq_some_iff]
      constructor
      · exact .last
      · rintro (h | ⟨-, ⟨⟩⟩)
        exact h
  | cons next names ih =>
      simp only [Option.bind_eq_some_iff, descend_cons, findNamed_eq_some_iff]
      constructor
      · rintro ⟨a, ha, h⟩
        exact .down ha (ih.1 (Option.bind_eq_some_iff.2 (by simpa [findNamed_eq_some_iff] using h)))
      · rintro (_ | ⟨ha, h⟩)
        exact ⟨_, ha, by simpa [Option.bind_eq_some_iff, findNamed_eq_some_iff] using ih.2 h⟩

theorem findNamed_bind_descend_eq_none_iff :
    (findNamed name siblings).bind (descend · names) = none ↔
      LeadsNowhere siblings (name :: names) := by
  induction names generalizing siblings name with
  | nil =>
      cases hfind : findNamed name siblings with
      | none => exact iff_of_true rfl (.here (findNamed_eq_none_iff.1 hfind))
      | some a =>
          refine iff_of_false (fun h => nomatch h) ?_
          rintro (h | ⟨-, ⟨⟩⟩)
          exact absurd (findNamed_eq_none_iff.2 h) (by simp [hfind])
  | cons next names ih =>
      cases hfind : findNamed name siblings with
      | none => exact iff_of_true rfl (.here (findNamed_eq_none_iff.1 hfind))
      | some a =>
          rw [Option.bind_some, descend_cons, ih]
          constructor
          · exact .down (findNamed_eq_some_iff.1 hfind)
          · rintro (h | ⟨ha, h⟩)
            · exact absurd (findNamed_eq_none_iff.2 h) (by simp [hfind])
            · rw [findNamed_eq_some_iff.2 ha, Option.some.injEq] at hfind
              exact hfind ▸ h

theorem LeadsTo.exists_chain (h : LeadsTo siblings names a) :
    ∃ chain, ChainBelow siblings chain ∧ chain.map Attribute.name = names ∧ chain.getLast? = some a := by
  induction h with
  | last ha => exact ⟨_, .last ha.mem, by simp [ha.name_eq], rfl⟩
  | down ha _ ih =>
      obtain ⟨chain, hchain, hnames, hlast⟩ := ih
      refine ⟨_, .down ha.mem hchain, by simp [ha.name_eq, hnames], ?_⟩
      rw [List.getLast?_cons, hlast]
      rfl

theorem ChainBelow.leadsTo (h : ChainBelow siblings chain) (hapart : ToldApart siblings chain) :
    ∃ a, chain.getLast? = some a ∧ LeadsTo siblings (chain.map Attribute.name) a := by
  induction h with
  | last ha => exact ⟨_, rfl, .last (isFirstNamed_of_only ha hapart.1.2)⟩
  | down ha hchain ih =>
      obtain ⟨b, hlast, hb⟩ := ih hapart.2
      refine ⟨b, ?_, .down (isFirstNamed_of_only ha hapart.1.2) hb⟩
      rw [List.getLast?_cons, hlast]
      rfl

theorem ChainBelow.ne_nil (h : ChainBelow siblings chain) : chain ≠ [] := by
  cases h <;> exact List.cons_ne_nil _ _

theorem ToldApart.dotless (h : ToldApart siblings chain) :
    ∀ n ∈ chain.map Attribute.name, '.' ∉ n.toList := by
  induction chain generalizing siblings with
  | nil => exact fun n hn => absurd hn List.not_mem_nil
  | cons a chain ih => exact List.forall_mem_cons.2 ⟨h.1.1, ih h.2⟩

theorem ChainBelow.splitsAtDots (h : ChainBelow siblings chain) (hapart : ToldApart siblings chain) :
    SplitsAtDots (dottedPath chain) (chain.map Attribute.name) :=
  ⟨by simpa using h.ne_nil, hapart.dotless, rfl⟩

theorem PlainlyNamed.toldApart (h : PlainlyNamed siblings) (hchain : ChainBelow siblings chain) :
    ToldApart siblings chain := by
  induction hchain with
  | last ha =>
      obtain ⟨hnodup, hdotless, -⟩ := h
      exact ⟨⟨hdotless _ ha, fun b hb hname => List.inj_on_of_nodup_map hnodup hb ha hname⟩, trivial⟩
  | down ha _ ih =>
      obtain ⟨hnodup, hdotless, hbelow⟩ := h
      exact ⟨⟨hdotless _ ha, fun b hb hname => List.inj_on_of_nodup_map hnodup hb ha hname⟩,
        ih (hbelow _ ha)⟩

theorem ChainBelow.eq_of_names {chain' : List Attribute} (h : ChainBelow siblings chain)
    (h' : ChainBelow siblings chain') (hapart : ToldApart siblings chain)
    (hnames : chain.map Attribute.name = chain'.map Attribute.name) : chain = chain' := by
  induction h generalizing chain' with
  | last ha =>
      cases h' with
      | last ha' => simpa using (hapart.1.2 _ ha' (List.cons.inj hnames).1.symm).symm
      | down _ hchain' => exact absurd (List.cons.inj hnames).2.symm (by simpa using hchain'.ne_nil)
  | down ha hchain ih =>
      cases h' with
      | last _ => exact absurd (List.cons.inj hnames).2 (by simpa using hchain.ne_nil)
      | down ha' hchain' =>
          obtain ⟨hname, hrest⟩ := List.cons.inj hnames
          obtain rfl := hapart.1.2 _ ha' hname.symm
          rw [ih hchain' hapart.2 hrest]

theorem attribute?_eq (r : Resource) {path : String} (h : segments path = name :: names) :
    r.attribute? path = (findNamed name r.attributes).bind (descend · names) := by
  rw [Resource.attribute?, h]
  dsimp only
  cases findNamed name r.attributes <;> rfl

end Following

/-- What the names of a path lead to is found, and nothing exactly if a name is met that no sibling has.
Attributes told apart at each level, without dots in their names, have one path each. -/
theorem attribute_by_dotted_path (r : Resource) :
    (∀ path, ∃ names, SplitsAtDots path names ∧
      (∀ a, r.attribute? path = some a ↔ LeadsTo r.attributes names a) ∧
      (r.attribute? path = none ↔ LeadsNowhere r.attributes names)) ∧
    (∀ chain, ChainBelow r.attributes chain → ToldApart r.attributes chain →
      r.attribute? (dottedPath chain) = chain.getLast?) ∧
    (PlainlyNamed r.attributes →
      Set.BijOn dottedPath {chain | ChainBelow r.attributes chain} {path | (r.attribute? path).isSome} ∧
      ∀ chain, ChainBelow r.attributes chain → r.attribute? (dottedPath chain) = chain.getLast?) := by
  have hfollow (path : String) : (∀ a, r.attribute? path = some a ↔ LeadsTo r.attributes (segments path) a) ∧
      (r.attribute? path = none ↔ LeadsNowhere r.attributes (segments path)) := by
    obtain ⟨name, names, hsegments⟩ :=
      List.exists_cons_of_ne_nil (splitsAtDots_iff.2 (rfl : segments path = segments path)).nonempty
    rw [attribute?_eq r hsegments, hsegments]
    exact ⟨fun a => findNamed_bind_descend_eq_some_iff, findNamed_bind_descend_eq_none_iff⟩
  have hchain (chain : List Attribute) (h : ChainBelow r.attributes chain)
      (hapart : ToldApart r.attributes chain) : r.attribute? (dottedPath chain) = chain.getLast? := by
    obtain ⟨a, hlast, ha⟩ := h.leadsTo hapart
    rw [hlast, (hfollow _).1, splitsAtDots_iff.1 (h.splitsAtDots hapart)]
    exact ha
  refine ⟨fun path => ⟨segments path, splitsAtDots_iff.2 rfl, hfollow path⟩, hchain,
    fun hplain => ⟨⟨?_, ?_, ?_⟩, fun chain h => hchain chain h (hplain.toldApart h)⟩⟩
  · intro chain h
    obtain ⟨a, hlast, -⟩ := ChainBelow.leadsTo h (hplain.toldApart h)
    rw [Set.mem_ofPred_eq, hchain chain h (hplain.toldApart h), hlast]
    rfl
  · intro chain h chain' h' heq
    refine ChainBelow.eq_of_names h h' (hplain.toldApart h) ?_
    rw [← splitsAtDots_iff.1 (ChainBelow.splitsAtDots h (hplain.toldApart h)),
      ← splitsAtDots_iff.1 (ChainBelow.splitsAtDots h' (hplain.toldApart h')), heq]
  · intro path hpath
    obtain ⟨a, ha⟩ := Option.isSome_iff_exists.1 hpath
    obtain ⟨chain, h, hnames, -⟩ := LeadsTo.exists_chain (((hfollow path).1 a).1 ha)
    refine ⟨chain, h, ?_⟩
    rw [dottedPath, hnames]
    exact (splitsAtDots_iff.2 rfl).joined

def plainAttribute (name : String) (children : List Attribute) : Attribute :=
  ⟨name, "", false, true, false, children, 0, 0⟩

def diskedImage : Resource where
  provider := "acme"
  name := "acme_image"
  nameSuffix := "image"
  shortDescription := ""
  description := ""
  type := .resource
  attributes := [plainAttribute "name" [],
    plainAttribute "os_disk" [plainAttribute "caching" [], plainAttribute "name" []]]

theorem plainlyNamed_diskedImage : PlainlyNamed diskedImage.attributes := by
  have hleaf : PlainlyNamed [] := ⟨List.nodup_nil, nofun, nofun⟩
  have hblock : PlainlyNamed [plainAttribute "caching" [], plainAttribute "name" []] :=
    ⟨by decide, by decide, by simpa [plainAttribute] using hleaf⟩
  refine ⟨by decide, by decide, ?_⟩
  exact List.forall_mem_cons.2 ⟨hleaf, List.forall_mem_cons.2 ⟨hblock, nofun⟩⟩

theorem nested_name_found_beside_top_name :
    PlainlyNamed diskedImage.attributes ∧
    ChainBelow diskedImage.attributes [plainAttribute "os_disk"
      [plainAttribute "caching" [], plainAttribute "name" []], plainAttribute "name" []] ∧
    diskedImage.attribute? "os_disk.name" = some (plainAttribute "name" []) := by
  have hchain : ChainBelow diskedImage.attributes [plainAttribute "os_disk"
      [plainAttribute "caching" [], plainAttribute "name" []], plainAttribute "name" []] :=
    .down (by simp [diskedImage]) (.last (by simp [plainAttribute]))
  obtain ⟨-, hfound⟩ := (attribute_by_dotted_path diskedImage).2.2 plainlyNamed_diskedImage
  exact ⟨plainlyNamed_diskedImage, hchain, hfound _ hchain⟩

section Sorting

theorem findNamed_sortAttributes (name : String) (attributes : List Attribute) :
    findNamed name (sortAttributes attributes) = findNamed name attributes :=
  Text.find?_sortOn Attribute.name attributes name

theorem attribute?_congr {r r' : Resource}
    (h : ∀ name, findNamed name r'.attributes = findNamed name r.attributes) (path : String) :
    r'.attribute? path = r.attribute? path := by
  rw [Resource.attribute?, Resource.attribute?]
  cases segments path with
  | nil => rfl
  | cons name names => simp only [h]

/-- Sorting the top level changes no lookup, since attributes of one name keep their order. -/
theorem lookup_unchanged_by_sorting :
    (∀ (r : Resource) (path : String),
      { r with attributes := sortAttributes r.attributes }.attribute? path = r.attribute? path) ∧
    ∀ attributes : List Attribute,
      (∀ sorted, Text.SortedFrom Attribute.name attributes sorted ↔ sorted = sortAttributes attributes) ∧
      sortAttributes (sortAttributes attributes) = sortAttributes attributes ∧
      ∀ name, findNamed name (sortAttributes attributes) = findNamed name attributes := by
  refine ⟨fun r path => ?_, fun attributes => ⟨fun sorted => ?_, ?_, fun name => ?_⟩⟩
  · exact attribute?_congr (fun name => findNamed_sortAttributes name r.attributes) path
  · exact Text.sortedFrom_iff
  · exact Text.sortOn_sortOn Attribute.name attributes
  · exact findNamed_sortAttributes name attributes

end Sorting

end ProviderManual.Manual
