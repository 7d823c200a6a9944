/-! The order of texts by their UTF-8 bytes, and the stable sort that uses it. -/

namespace ProviderManual.Text

def utf8Bytes (s : String) : List UInt8 :=
  s.toUTF8.data.toList

theorem utf8Bytes_inj {a b : String} (h : utf8Bytes a = utf8Bytes b) : a = b :=
  String.toByteArray_inj.1 (ByteArray.ext (Array.toList_inj.1 h))

def bytesLe (a b : String) : Bool :=
  decide (utf8Bytes a ≤ utf8Bytes b)

def BytesLt (a b : String) : Prop :=
  utf8Bytes a < utf8Bytes b

instance (a b : String) : Decidable (BytesLt a b) :=
  inferInstanceAs (Decidable (utf8Bytes a < utf8Bytes b))

theorem BytesLt.trans {a b c : String} (h : BytesLt a b) (h' : BytesLt b c) : BytesLt a c :=
  List.lt_trans h h'

theorem BytesLt.irrefl (a : String) : ¬ BytesLt a a :=
  List.lt_irrefl _

theorem BytesLt.of_not {a b : String} (h : ¬ BytesLt a b) (hne : a ≠ b) : BytesLt b a := by
  have hle : utf8Bytes b ≤ utf8Bytes a := List.not_lt.1 h
  by_cases hlt : utf8Bytes b < utf8Bytes a
  · exact hlt
  · exact absurd (utf8Bytes_inj (List.le_antisymm (List.not_lt.1 hlt) hle)) hne

theorem bytesLe_trans (a b c : String) (h : bytesLe a b = true) (h' : bytesLe b c = true) :
    bytesLe a c = true := by
  simp only [bytesLe, decide_eq_true_eq] at *
  exact List.le_trans h h'

theorem bytesLe_total (a b : String) : (bytesLe a b || bytesLe b a) = true := by
  simp only [bytesLe, Bool.or_eq_true, decide_eq_true_eq]
  exact List.le_total _ _

theorem bytesLe_antisymm {a b : String} (h : bytesLe a b = true) (h' : bytesLe b a = true) :
    a = b :=
  utf8Bytes_inj (List.le_antisymm (of_decide_eq_true h) (of_decide_eq_true h'))

theorem BytesLt.of_bytesLe {a b : String} (h : bytesLe a b = true) (hne : a ≠ b) : BytesLt a b := by
  refine BytesLt.of_not (fun hlt => ?_) hne.symm
  exact absurd (of_decide_eq_true h) (List.not_le.2 hlt)

def sortOn {α : Type} (name : α → String) (xs : List α) : List α :=
  xs.mergeSort (fun x y => bytesLe (name x) (name y))

theorem sortOn_perm {α : Type} (name : α → String) (xs : List α) : (sortOn name xs).Perm xs :=
  List.mergeSort_perm xs _

theorem pairwise_sortOn {α : Type} (name : α → String) (xs : List α) :
    (sortOn name xs).Pairwise (fun x y => bytesLe (name x) (name y) = true) :=
  List.pairwise_mergeSort (fun x y z => bytesLe_trans (name x) (name y) (name z))
    (fun x y => bytesLe_total (name x) (name y)) xs

theorem pairwise_bytesLt_sortOn {α : Type} {name : α → String} {xs : List α}
    (hn : (xs.map name).Nodup) :
    (sortOn name xs).Pairwise fun x y => BytesLt (name x) (name y) := by
  have hsorted : ((sortOn name xs).map name).Nodup :=
    ((sortOn_perm name xs).map name).nodup_iff.2 hn
  refine ((pairwise_sortOn name xs).and (List.pairwise_map.1 hsorted)).imp ?_
  rintro x y ⟨hle, hne⟩
  exact BytesLt.of_bytesLe hle hne

theorem sortOn_eq_of_perm {α : Type} {name : α → String} {xs ys : List α} (h : xs.Perm ys)
    (hn : (xs.map name).Nodup) : sortOn name xs = sortOn name ys := by
  have hperm : (sortOn name xs).Perm (sortOn name ys) :=
    ((sortOn_perm name xs).trans h).trans (sortOn_perm name ys).symm
  refine hperm.eq_of_pairwise (fun x y _ _ hxy hyx => ?_) (pairwise_bytesLt_sortOn hn)
    (pairwise_bytesLt_sortOn ((h.map name).nodup_iff.1 hn))
  exact absurd (hxy.trans hyx) (BytesLt.irrefl _)

section Stability

variable {α : Type} {name : α → String} {xs ys zs : List α}

theorem filter_sortOn (name : α → String) (xs : List α) (n : String) :
    (sortOn name xs).filter (fun x => name x = n) = xs.filter (fun x => name x = n) := by
  have hsublist : (xs.filter fun x => name x = n).Sublist (sortOn name xs) := by
    refine List.sublist_mergeSort (fun x y z => bytesLe_trans (name x) (name y) (name z))
      (fun x y => bytesLe_total (name x) (name y)) ?_ List.filter_sublist
    refine List.Pairwise.imp_of_mem (fun {x y} hx hy _ => ?_) (List.pairwise_of_forall fun _ _ => trivial)
    rw [of_decide_eq_true (List.mem_filter.1 hx).2, of_decide_eq_true (List.mem_filter.1 hy).2]
    simpa using bytesLe_total n n
  have hkept := hsublist.filter fun x => name x = n
  rw [List.filter_filter] at hkept
  simp only [Bool.and_self] at hkept
  exact (hkept.eq_of_length ((sortOn_perm name xs).filter _).length_eq.symm).symm

/-- `ys` are the elements of `xs` in byte order of their names, those of one name as they stood. -/
structure SortedFrom (name : α → String) (xs ys : List α) : Prop where
  perm : ys.Perm xs
  ordered : ys.Pairwise fun x y => utf8Bytes (name x) ≤ utf8Bytes (name y)
  stable : ∀ n, ys.filter (fun y => name y = n) = xs.filter fun x => name x = n

theorem sortedFrom_sortOn (name : α → String) (xs : List α) : SortedFrom name xs (sortOn name xs) where
  perm := sortOn_perm name xs
  ordered := (pairwise_sortOn name xs).imp of_decide_eq_true
  stable := filter_sortOn name xs

theorem utf8Bytes_le_of_mem_cons {x y : α}
    (h : (y :: ys).Pairwise fun x y => utf8Bytes (name x) ≤ utf8Bytes (name y)) (hx : x ∈ y :: ys) :
    utf8Bytes (name y) ≤ utf8Bytes (name x) := by
  rcases List.mem_cons.1 hx with rfl | hx
  · exact List.le_refl _
  · exact List.rel_of_pairwise_cons h hx

theorem mem_iff_of_filter_eq
    (h : ∀ n, ys.filter (fun y => name y = n) = zs.filter fun z => name z = n) (x : α) :
    x ∈ ys ↔ x ∈ zs := by
  simpa using congrArg (x ∈ ·) (h (name x))

theorem eq_of_ordered_of_filter_eq
    (hy : ys.Pairwise fun x y => utf8Bytes (name x) ≤ utf8Bytes (name y))
    (hz : zs.Pairwise fun x y => utf8Bytes (name x) ≤ utf8Bytes (name y))
    (h : ∀ n, ys.filter (fun y => name y = n) = zs.filter fun z => name z = n) : ys = zs := by
  induction ys generalizing zs with
  | nil =>
      refine (List.eq_nil_iff_forall_not_mem.2 fun z hz => ?_).symm
      exact List.not_mem_nil ((mem_iff_of_filter_eq h z).2 hz)
  | cons y ys ih =>
      have hmem := mem_iff_of_filter_eq h
      cases zs with
      | nil => exact absurd ((hmem y).1 List.mem_cons_self) List.not_mem_nil
      | cons z zs =>
          -- the least name is that of either head, and its first element is the head of both
          have hname : name y = name z := by
            refine utf8Bytes_inj (List.le_antisymm ?_ ?_)
            · exact utf8Bytes_le_of_mem_cons hy ((hmem z).2 List.mem_cons_self)
            · exact utf8Bytes_le_of_mem_cons hz ((hmem y).1 List.mem_cons_self)
          obtain rfl : y = z := by
            have hheads := h (name y)
            rw [List.filter_cons_of_pos (by simp), List.filter_cons_of_pos (by simp [hname])] at hheads
            exact (List.cons.inj hheads).1
          have hrest (n : String) : ys.filter (fun y => name y = n) = zs.filter fun z => name z = n := by
            have hn := h n
            by_cases hyn : name y = n
            · rw [List.filter_cons_of_pos (by simpa using hyn),
                List.filter_cons_of_pos (by simpa using hyn)] at hn
              exact (List.cons.inj hn).2
            · rwa [List.filter_cons_of_neg (by simpa using hyn),
                List.filter_cons_of_neg (by simpa using hyn)] at hn
          rw [ih hy.of_cons hz.of_cons hrest]

theorem sortedFrom_iff : SortedFrom name xs ys ↔ ys = sortOn name xs := by
  constructor
  · rintro ⟨-, hordered, hstable⟩
    have hsorted := sortedFrom_sortOn name xs
    exact eq_of_ordered_of_filter_eq hordered hsorted.ordered fun n =>
      (hstable n).trans (hsorted.stable n).symm
  · rintro rfl
    exact sortedFrom_sortOn name xs

theorem sortOn_sortOn (name : α → String) (xs : List α) :
    sortOn name (sortOn name xs) = sortOn name xs :=
  List.mergeSort_of_pairwise (pairwise_sortOn name xs)

theorem find?_sortOn (name : α → String) (xs : List α) (n : String) :
    (sortOn name xs).find? (fun x => name x = n) = xs.find? fun x => name x = n := by
  rw [← List.head?_filter, filter_sortOn, List.head?_filter]

end Stability

end ProviderManual.Text
