import CodeWorkspace.Proofs.Store.Succession
import Mathlib.Data.List.Dedup

/-! The order of paths. It goes by components, so it cannot tell two spellings of one place apart, and tells any two
places: sorted paths have the spellings of a place side by side, and each place is left once where neighbours are
dropped. -/
namespace CodeWorkspace.Path

namespace Component

instance : Std.TransOrd Component :=
  inferInstanceAs (Std.TransCmp (compareLex (compareOn rank) (compareOn label)))

theorem eq_of_rank_of_label {a b : Component} (rank : a.rank = b.rank) (label : a.label = b.label) : a = b := by
  cases a with
  | name text =>
    cases b with
    | name other => exact congrArg name label
    | root | here | up => cases rank
  | root | here | up =>
    cases b <;> first | rfl | cases rank

instance : Std.LawfulEqOrd Component where
  eq_of_compare same := by
    obtain ⟨rank, label⟩ := Ordering.then_eq_eq.mp same
    exact eq_of_rank_of_label (Std.LawfulEqOrd.eq_of_compare rank) (Std.LawfulEqOrd.eq_of_compare label)

end Component

variable {p q r : Path} {paths : List Path}

/-- The one path comes in front of the other, whatever their spellings. -/
def Before (p q : Path) : Prop := compare p.components q.components = .lt

instance (p q : Path) : Decidable (p.Before q) := inferInstanceAs (Decidable (_ = _))

theorem compare_swap (p q : Path) : compare q.components p.components = (compare p.components q.components).swap :=
  Std.OrientedCmp.eq_swap

theorem compare_eq_iff : compare p.components q.components = .eq ↔ p.same q = true :=
  Std.LawfulEqCmp.compare_eq_iff_eq.trans same_iff.symm

theorem le_refl (p : Path) : p.le p = true := by
  rw [le, compare_eq_iff.mpr (same_refl p)]
  rfl

theorem le_trans (h : p.le q = true) (h' : q.le r = true) : p.le r = true := Std.TransCmp.isLE_trans h h'

theorem le_total (p q : Path) : (p.le q || q.le p) = true := by
  rw [le, le, compare_swap p q]
  cases compare p.components q.components <;> rfl

theorem before_iff : p.Before q ↔ p.le q = true ∧ p.same q = false := by
  rw [Bool.eq_false_iff, ne_eq, ← compare_eq_iff, Before, le]
  cases compare p.components q.components <;> simp

theorem same_of_le_of_le (h : p.le q = true) (h' : q.le p = true) : p.same q = true := by
  rw [le] at h
  rw [le, compare_swap p q] at h'
  rw [← compare_eq_iff]
  cases order : compare p.components q.components with
  | eq => rfl
  | lt => rw [order] at h'; cases h'
  | gt => rw [order] at h; cases h

theorem Before.same_eq_false (h : p.Before q) : p.same q = false := (before_iff.mp h).2

/-! ## Sorting -/

theorem mem_sort : p ∈ sort paths ↔ p ∈ paths := (List.mergeSort_perm paths le).mem_iff

theorem pairwise_sort (paths : List Path) : (sort paths).Pairwise fun p q => p.le q = true :=
  @List.pairwise_mergeSort Path le (fun _ _ _ h h' => le_trans h h') (fun p q => le_total p q) paths

theorem sort_of_sorted (sorted : paths.Pairwise fun p q => p.le q = true) : sort paths = paths :=
  List.mergeSort_of_pairwise sorted

/-! ## Dropping neighbours -/

theorem dedup_nil : dedup [] = [] := by rw [dedup]

theorem dedup_singleton (p : Path) : dedup [p] = [p] := by rw [dedup]

theorem dedup_same (same : p.same q = true) : dedup (p :: q :: paths) = dedup (p :: paths) := by rw [dedup, if_pos same]

theorem dedup_other (other : ¬ p.same q = true) : dedup (p :: q :: paths) = p :: dedup (q :: paths) := by
  rw [dedup, if_neg other]

theorem mem_of_mem_dedup (h : p ∈ dedup paths) : p ∈ paths := by
  induction paths using dedup.induct with
  | case1 => rwa [dedup_nil] at h
  | case2 => rwa [dedup_singleton] at h
  | case3 q r rest same ih =>
    rw [dedup_same same] at h
    rcases List.mem_cons.mp (ih h) with rfl | h
    · exact List.mem_cons_self
    · exact List.mem_cons_of_mem _ (List.mem_cons_of_mem _ h)
  | case4 q r rest other ih =>
    rw [dedup_other other] at h
    rcases List.mem_cons.mp h with rfl | h
    · exact List.mem_cons_self
    · exact List.mem_cons_of_mem _ (ih h)

/-- Every place is left, under one of its spellings. -/
theorem exists_mem_dedup (h : p ∈ paths) : ∃ q ∈ dedup paths, q.same p = true := by
  induction paths using dedup.induct generalizing p with
  | case1 => cases h
  | case2 q =>
    rw [dedup_singleton]
    rw [List.mem_singleton.mp h]
    exact ⟨q, List.mem_cons_self, same_refl q⟩
  | case3 q r rest same ih =>
    rw [dedup_same same]
    rcases List.mem_cons.mp h with rfl | h
    · exact ih List.mem_cons_self
    · rcases List.mem_cons.mp h with rfl | h
      · obtain ⟨x, mem, there⟩ := ih List.mem_cons_self
        exact ⟨x, mem, same_trans there same⟩
      · exact ih (List.mem_cons_of_mem _ h)
  | case4 q r rest other ih =>
    rw [dedup_other other]
    rcases List.mem_cons.mp h with rfl | h
    · exact ⟨p, List.mem_cons_self, same_refl p⟩
    · obtain ⟨x, mem, there⟩ := ih h
      exact ⟨x, List.mem_cons_of_mem _ mem, there⟩

/-- Neighbours are all that there is to compare. -/
theorem pairwise_dedup (sorted : paths.Pairwise fun p q => p.le q = true) : (dedup paths).Pairwise Before := by
  induction paths using dedup.induct with
  | case1 =>
    rw [dedup_nil]
    exact .nil
  | case2 =>
    rw [dedup_singleton]
    exact List.pairwise_singleton ..
  | case3 q r rest same ih =>
    rw [dedup_same same]
    exact ih (sorted.sublist ((List.sublist_cons_self r rest).cons_cons q))
  | case4 q r rest other ih =>
    rw [dedup_other other]
    obtain ⟨front, behind⟩ := List.pairwise_cons.mp sorted
    refine List.pairwise_cons.mpr ⟨fun x mem => ?_, ih behind⟩
    have mem := mem_of_mem_dedup mem
    refine before_iff.mpr ⟨front x mem, Bool.eq_false_iff.mpr fun same => other ?_⟩
    -- What comes between two spellings of one place is a third one.
    have back : r.le q = true := by
      rw [le, same_iff.mp same]
      rcases List.mem_cons.mp mem with rfl | mem
      · exact le_refl x
      · exact List.rel_of_pairwise_cons behind mem
    exact same_of_le_of_le (front r List.mem_cons_self) back

/-! ## Each place once -/

theorem pairwise_dedup_sort (paths : List Path) : (dedup (sort paths)).Pairwise Before :=
  pairwise_dedup (pairwise_sort paths)

theorem mem_of_mem_dedup_sort (h : p ∈ dedup (sort paths)) : p ∈ paths := mem_sort.mp (mem_of_mem_dedup h)

theorem exists_mem_dedup_sort (h : p ∈ paths) : ∃ q ∈ dedup (sort paths), q.same p = true :=
  exists_mem_dedup (mem_sort.mpr h)

theorem nodup_dedup_sort (paths : List Path) : ((dedup (sort paths)).map (·.components)).Nodup := by
  refine List.pairwise_map.mpr ((pairwise_dedup_sort paths).imp fun before same => ?_)
  rw [← same_iff, before.same_eq_false] at same
  cases same

/-- What is left are as many as there are places. -/
theorem length_dedup_sort (paths : List Path) :
    (dedup (sort paths)).length = (paths.map (·.components)).dedup.length := by
  have places : List.Perm ((dedup (sort paths)).map (·.components)) (paths.map (·.components)).dedup := by
    refine (List.perm_ext_iff_of_nodup (nodup_dedup_sort paths) (List.nodup_dedup _)).mpr fun place => ?_
    rw [List.mem_dedup, List.mem_map, List.mem_map]
    constructor
    · rintro ⟨p, mem, rfl⟩
      exact ⟨p, mem_of_mem_dedup_sort mem, rfl⟩
    · rintro ⟨p, mem, rfl⟩
      obtain ⟨q, left, same⟩ := exists_mem_dedup_sort mem
      exact ⟨q, left, same_iff.mp same⟩
  rw [← places.length_eq, List.length_map]

/-! ## First spellings -/

/-- Sorting leaves the spellings of a place in their order. -/
theorem filter_sort (p : Path) (paths : List Path) : (sort paths).filter (·.same p) = paths.filter (·.same p) := by
  have spellings : (paths.filter (·.same p)).Pairwise fun q r => q.le r = true := by
    refine List.pairwise_iff_forall_sublist.mpr fun {q r} sub => ?_
    have hq : q.same p = true := (List.mem_filter.mp (sub.subset (by simp))).2
    have hr : r.same p = true := (List.mem_filter.mp (sub.subset (by simp))).2
    rw [le, same_iff.mp hq, ← same_iff.mp hr]
    exact le_refl r
  have kept : (paths.filter (·.same p)).Sublist (sort paths) :=
    @List.sublist_mergeSort Path le paths (fun _ _ _ h h' => le_trans h h') (fun q r => le_total q r) _ spellings
      List.filter_sublist
  have kept := kept.filter (·.same p)
  simp only [List.filter_filter, Bool.and_self] at kept
  exact (kept.eq_of_length ((List.mergeSort_perm paths le).filter _).length_eq.symm).symm

theorem find?_sort (p : Path) (paths : List Path) : (sort paths).find? (·.same p) = paths.find? (·.same p) := by
  rw [← List.head?_filter, filter_sort, List.head?_filter]

theorem find?_dedup (p : Path) (paths : List Path) : (dedup paths).find? (·.same p) = paths.find? (·.same p) := by
  induction paths using dedup.induct with
  | case1 => rw [dedup_nil]
  | case2 => rw [dedup_singleton]
  | case3 q r rest same ih =>
    rw [dedup_same same, ih, List.find?_cons, List.find?_cons, List.find?_cons, same_comm r, ← same_congr same,
      same_comm p]
    cases q.same p <;> rfl
  | case4 q r rest other ih => rw [dedup_other other, List.find?_cons, ih, List.find?_cons (a := q)]

/-- Each place is left in the spelling that came first. -/
theorem mem_dedup_sort_iff : p ∈ dedup (sort paths) ↔ paths.find? (·.same p) = some p := by
  rw [← find?_sort, ← find?_dedup]
  refine ⟨fun mem => ?_, List.mem_of_find?_eq_some⟩
  cases found : (dedup (sort paths)).find? (·.same p) with
  | none => exact absurd (same_refl p) (List.find?_eq_none.mp found p mem)
  | some q =>
    have same : q.same p = true := by simpa using List.find?_some found
    rw [List.inj_on_of_nodup_map (nodup_dedup_sort paths) (List.mem_of_find?_eq_some found) mem (same_iff.mp same)]

end CodeWorkspace.Path
