import Mathlib.Data.List.Basic
import ProviderManual.Files.Tree

/-! Paths and the places they name. -/

namespace ProviderManual.Files

theorem names_injective : Function.Injective names := by
  intro path path' h
  have hofList : Function.Injective String.ofList := fun cs cs' hcs => by
    rw [← String.toList_ofList (l := cs), hcs, String.toList_ofList]
  have hpieces : Text.pieces '/' path.toList = Text.pieces '/' path'.toList :=
    List.map_injective_iff.2 hofList h
  rw [← String.toList_inj, ← Text.intercalate_pieces '/' path.toList, hpieces,
    Text.intercalate_pieces]

theorem names_append_slash (path path' : String) :
    names (path ++ "/" ++ path') = names path ++ names path' := by
  have hslash : (path ++ "/" ++ path').toList = path.toList ++ '/' :: path'.toList := by simp
  rw [names, hslash, Text.pieces_append_cons, List.map_append]
  rfl

theorem names_ne_nil (path : String) : names path ≠ [] := by
  simpa [names] using Text.pieces_ne_nil '/' path.toList

theorem dropLast_names_append_lastName (path : String) :
    (names path).dropLast ++ [lastName path] = names path := by
  rw [lastName, List.getLast?_eq_some_getLast (names_ne_nil path)]
  exact List.dropLast_concat_getLast (names_ne_nil path)

def IsAbsolute (path : String) : Prop :=
  path.toList.head? = some '/'

instance (path : String) : Decidable (IsAbsolute path) :=
  inferInstanceAs (Decidable (_ = _))

theorem join_of_isAbsolute {path : String} (h : IsAbsolute path) (base : String) :
    join base path = path := by
  obtain ⟨cs, hpath⟩ := List.head?_eq_some_iff.1 h
  rw [join, hpath]
  rfl

theorem join_cases {path : String} (h : ¬ IsAbsolute path) (base : String) :
    (base = "" ∧ join base path = path) ∨
    (∃ above, base = above ++ "/" ∧ join base path = above ++ "/" ++ path) ∨
    (base ≠ "" ∧ join base path = base ++ "/" ++ path) := by
  unfold join
  split
  · next hpath => exact absurd (by rw [IsAbsolute, hpath]; rfl) h
  · split
    · next hlast =>
        obtain rfl : base = "" := String.toList_eq_nil_iff.1 (List.getLast?_eq_none_iff.1 hlast)
        exact .inl ⟨rfl, String.empty_append⟩
    · next hlast =>
        obtain ⟨above, habove⟩ := List.getLast?_eq_some_iff.1 hlast
        have hbase : base = String.ofList above ++ "/" := by
          rw [← String.toList_inj, habove]
          simp
        exact .inr (.inl ⟨String.ofList above, hbase, congrArg (· ++ path) hbase⟩)
    · next hlast =>
        refine .inr (.inr ⟨fun hempty => ?_, rfl⟩)
        simp [hempty] at hlast

/-- Each name in the path leads one step down. -/
def Descends (path : String) : Prop :=
  ∀ name ∈ names path, Tree.stays name = false ∧ name ≠ ".."

instance (path : String) : Decidable (Descends path) :=
  inferInstanceAs (Decidable (∀ name ∈ names path, _))

theorem Descends.not_isAbsolute {path : String} (h : Descends path) : ¬ IsAbsolute path := by
  intro habsolute
  obtain ⟨cs, hpath⟩ := List.head?_eq_some_iff.1 habsolute
  -- the name before the first slash is empty
  have hempty : "" ∈ names path := by simp [names, hpath, Text.pieces]
  exact absurd (h "" hempty).1 (by decide)

namespace Tree

def follow (p : Place) (name : String) : Place :=
  if stays name then p else if name = ".." then p.dropLast else p ++ [name]

def destination (p : Place) (names : List String) : Place :=
  names.foldl follow p

/-- The place that a path names, whatever there is on the way to it. -/
def placeOf (t : Tree) (path : String) : Place :=
  destination (t.start path) (names path)

theorem destination_append (p : Place) (names names' : List String) :
    destination p (names ++ names') = destination (destination p names) names' :=
  List.foldl_append

theorem start_of_isAbsolute {path : String} (h : IsAbsolute path) (t : Tree) : t.start path = [] :=
  if_pos h

theorem start_append {base : String} (h : base ≠ "") (t : Tree) (rest : String) :
    t.start (base ++ rest) = t.start base := by
  have hhead : (base ++ rest).toList.head? = base.toList.head? := by
    rw [String.toList_append]
    exact List.head?_append_of_ne_nil _ (mt String.toList_eq_nil_iff.1 h)
  rw [start, start, hhead]

theorem start_join {path : String} (h : ¬ IsAbsolute path) (t : Tree) (base : String) :
    t.start (join base path) = t.start base := by
  rcases join_cases h base with ⟨rfl, hjoin⟩ | ⟨above, rfl, hjoin⟩ | ⟨hne, hjoin⟩
  · rw [hjoin]
    exact if_neg h
  · rw [hjoin]
    exact start_append (by simp) t path
  · rw [hjoin, String.append_assoc]
    exact start_append hne t ("/" ++ path)

theorem placeOf_join {path : String} (h : ¬ IsAbsolute path) (t : Tree) (base : String) :
    t.placeOf (join base path) = destination (t.placeOf base) (names path) := by
  rw [placeOf, start_join h, placeOf, ← destination_append]
  rcases join_cases h base with ⟨rfl, hjoin⟩ | ⟨above, rfl, hjoin⟩ | ⟨-, hjoin⟩
  · rw [hjoin]
    rfl
  · -- the name behind the slash that is there already is empty and stays
    have habove : names (above ++ "/") = names above ++ [""] := by
      rw [← String.append_empty (s := above ++ "/"), names_append_slash]
      rfl
    rw [hjoin, names_append_slash, habove, destination_append, destination_append, destination_append]
    rfl
  · rw [hjoin, names_append_slash]

theorem destination_of_descends {names : List String}
    (h : ∀ name ∈ names, stays name = false ∧ name ≠ "..") (p : Place) :
    destination p names = p ++ names := by
  induction names generalizing p with
  | nil => exact (List.append_nil p).symm
  | cons name names ih =>
      obtain ⟨⟨hstays, hup⟩, hnames⟩ := List.forall_mem_cons.1 h
      have hfollow : follow p name = p ++ [name] := by
        rw [follow, if_neg (by simp [hstays]), if_neg hup]
      rw [destination, List.foldl_cons, hfollow]
      exact (ih hnames (p ++ [name])).trans (List.append_assoc p [name] names)

theorem placeOf_join_of_descends {path : String} (h : Descends path) (t : Tree) (base : String) :
    t.placeOf (join base path) = t.placeOf base ++ names path := by
  rw [placeOf_join h.not_isAbsolute, destination_of_descends h]

theorem destination_of_walk {t : Tree} {p q : Place} {names : List String}
    (h : t.walk p names = .ok q) : destination p names = q := by
  induction names generalizing p with
  | nil => exact Except.ok.inj h
  | cons name names ih =>
      rw [walk] at h
      rw [destination, List.foldl_cons, follow]
      split at h
      · cases h
      · cases h
      · split at h
        · next hstays => exact (if_pos hstays) ▸ ih h
        · next hstays =>
            rw [if_neg hstays]
            split at h
            · next hup => exact (if_pos hup) ▸ ih h
            · next hup =>
                rw [if_neg hup]
                split at h
                · cases h
                · split at h
                  · cases h
                  · exact ih h

theorem placeOf_of_target {t : Tree} {path : String} {p : Place} (h : t.target path = .ok p) :
    t.placeOf path = p ∧ p ≠ [] := by
  unfold target at h
  split at h
  · cases h
  · split at h
    · cases h
    · next above hwalk =>
        split at h
        · cases h
        · cases h
        · dsimp only at h
          split at h
          · cases h
          · next hlast =>
              rw [not_or] at hlast
              have hp : p = above ++ [lastName path] := by
                split at h
                · cases h
                · split at h
                  · cases h
                  · exact (Except.ok.inj h).symm
              have hplace : t.placeOf path = above ++ [lastName path] := by
                rw [placeOf, ← dropLast_names_append_lastName, destination_append,
                  destination_of_walk hwalk]
                simp [destination, follow, hlast]
              exact ⟨hplace.trans hp.symm, by simp [hp]⟩

theorem of_write {t t' : Tree} {path : String} {bytes : ByteArray} (h : t.write path bytes = .ok t') :
    t.placeOf path ≠ [] ∧ t' = t.set (t.placeOf path) (.file bytes) := by
  unfold write at h
  split at h
  · cases h
  · next p htarget =>
      obtain ⟨hplace, hne⟩ := placeOf_of_target htarget
      exact ⟨hplace ▸ hne, hplace ▸ (Except.ok.inj h).symm⟩

/-- The trees have the same files with the same bytes; directories may be missing in one of them. -/
structure SameFiles (t t' : Tree) : Prop where
  here : t'.here = t.here
  file_iff : ∀ p bytes, t'.find? p = some (.file bytes) ↔ t.find? p = some (.file bytes)

theorem SameFiles.refl (t : Tree) : SameFiles t t :=
  ⟨rfl, fun _ _ => Iff.rfl⟩

theorem SameFiles.trans {t t' t'' : Tree} (h : SameFiles t t') (h' : SameFiles t' t'') :
    SameFiles t t'' :=
  ⟨h'.here.trans h.here, fun p bytes => (h'.file_iff p bytes).trans (h.file_iff p bytes)⟩

theorem SameFiles.placeOf {t t' : Tree} (h : SameFiles t t') (path : String) :
    t'.placeOf path = t.placeOf path := by
  rw [Tree.placeOf, Tree.placeOf, start, start, h.here]

/-- The trees have the same files with the same bytes but for those at some places. -/
structure SameFilesBeyond (places : List Place) (t t' : Tree) : Prop where
  here : t'.here = t.here
  file_iff : ∀ p ∉ places, ∀ bytes, t'.find? p = some (.file bytes) ↔ t.find? p = some (.file bytes)

theorem SameFiles.beyond {t t' : Tree} (h : SameFiles t t') (places : List Place) :
    SameFilesBeyond places t t' :=
  ⟨h.here, fun p _ => h.file_iff p⟩

theorem SameFilesBeyond.trans {places places' : List Place} {t t' t'' : Tree}
    (h : SameFilesBeyond places t t') (h' : SameFilesBeyond places' t' t'') :
    SameFilesBeyond (places ++ places') t t'' := by
  refine ⟨h'.here.trans h.here, fun p hp bytes => ?_⟩
  rw [List.mem_append, not_or] at hp
  exact (h'.file_iff p hp.2 bytes).trans (h.file_iff p hp.1 bytes)

theorem SameFilesBeyond.placeOf {places : List Place} {t t' : Tree} (h : SameFilesBeyond places t t')
    (path : String) : t'.placeOf path = t.placeOf path := by
  rw [Tree.placeOf, Tree.placeOf, start, start, h.here]

theorem sameFilesBeyond_set {p : Place} (hp : p ≠ []) (t : Tree) (e : Entry) :
    SameFilesBeyond [p] t (t.set p e) := by
  refine ⟨rfl, fun q hq bytes => ?_⟩
  rw [find?_set t p q e hp, if_neg (by simpa using hq)]

theorem sameFiles_set_directory {t : Tree} {p : Place} (hp : p ≠ []) (h : t.find? p = none) :
    SameFiles t (t.set p .directory) := by
  refine ⟨rfl, fun q bytes => ?_⟩
  rw [find?_set t p q .directory hp]
  by_cases hq : q = p
  · simp [hq, h]
  · rw [if_neg hq]

theorem sameFiles_of_makeDirectories {t t' : Tree} {p : Place} {names : List String}
    (h : t.makeDirectories p names = .ok t') : SameFiles t t' := by
  induction names generalizing t p with
  | nil => exact Except.ok.inj h ▸ .refl t
  | cons name names ih =>
      rw [makeDirectories] at h
      split at h
      · exact ih h
      · split at h
        · exact ih h
        · split at h
          · cases h
          · dsimp only at h
            split at h
            · exact ih h
            · cases h
            · next hnone => exact (sameFiles_set_directory (by simp) hnone).trans (ih h)

theorem sameFiles_of_createDirectory {t t' : Tree} {path : String}
    (h : t.createDirectory path = .ok t') : SameFiles t t' := by
  unfold createDirectory at h
  split at h
  · cases h
  · exact sameFiles_of_makeDirectories h

end Tree

end ProviderManual.Files
