import CodeWorkspace.Proofs.Snapshot.Description
import CodeWorkspace.Solution.Order
import Mathlib.Data.List.Nodup

/-! Which projects a compilation order holds. It takes each project of the solution once at most, and since a
checked solution has one project for each key, no key comes twice. -/
namespace CodeWorkspace.Projects

/-! ## Checked solutions -/

theorem findIn_eq_none {projects : List Project} {name : String} :
    findIn projects name = none ↔ ∀ p ∈ projects, projectKey p.name ≠ projectKey name := by
  simp [findIn]

theorem keys_nodup_concat {before : List Project} {p : Project} (distinct : (before.map (projectKey ·.name)).Nodup)
    (new : ∀ q ∈ before, projectKey q.name ≠ projectKey p.name) :
    ((before ++ [p]).map (projectKey ·.name)).Nodup := by
  rw [List.map_append, List.nodup_append]
  refine ⟨distinct, by simp, ?_⟩
  intro key hkey _ hp
  obtain ⟨q, hq, rfl⟩ := List.mem_map.mp hkey
  obtain rfl : _ = projectKey p.name := by simpa using hp
  exact new q hq

theorem keys_nodup_of_firstDuplicate {before after : List Project}
    (distinct : (before.map (projectKey ·.name)).Nodup) (h : firstDuplicate before after = none) :
    ((before ++ after).map (projectKey ·.name)).Nodup := by
  induction after generalizing before with
  | nil => simpa using distinct
  | cons p rest ih =>
    rw [firstDuplicate] at h
    split at h
    · cases h
    · next fresh =>
      rw [Bool.not_eq_true, Option.isSome_eq_false_iff, Option.isNone_iff_eq_none,
        findIn_eq_none] at fresh
      simpa using ih (keys_nodup_concat distinct fresh) h

theorem names_link {projects some linked : List Project} (h : link projects some = .ok linked) :
    linked.map (·.name) = some.map (·.name) := by
  induction some generalizing linked with
  | nil => cases h; rfl
  | cons p rest ih =>
    rw [link] at h
    split at h
    · cases h
    · split at h
      · cases h
      · next more =>
        cases h
        simp only [List.map_cons, ih more]

theorem keys_nodup_of_ofSolution {s : Solution} {ps : Projects} (h : ofSolution s = .ok ps) :
    (ps.all.map (projectKey ·.name)).Nodup := by
  unfold ofSolution at h
  split at h
  · cases h
  · next unique =>
    cases linked : link s.projects s.projects with
    | error e => rw [linked] at h; cases h
    | ok all =>
      rw [linked] at h
      cases h
      have := keys_nodup_of_firstDuplicate (by simp) unique
      have keys : ∀ projects : List Project,
          projects.map (projectKey ·.name) = (projects.map (·.name)).map projectKey := by simp
      rw [List.nil_append, keys, ← names_link linked, ← keys] at this
      exact this

theorem distinct_of_ofSolution {s : Solution} {ps : Projects} (h : ofSolution s = .ok ps) :
    ps.Distinct := fun _ hp _ hq same =>
  List.inj_on_of_nodup_map (keys_nodup_of_ofSolution h) hp hq same

/-! ## Compilation orders -/

theorem isNamed_eq_false {projects : List Project} {name : String} :
    isNamed projects name = false ↔ ∀ p ∈ projects, p.name ≠ name := by
  simp [isNamed]

theorem extend_nil (ps : Projects) (path order : List Project) : ps.extend path order [] = .ok order := by
  rw [extend]

theorem extend_cons {ps : Projects} {name : String} {p : Project} (found : ps.find? name = some p)
    (path order : List Project) (rest : List String) :
    ps.extend path order (name :: rest) =
      if isNamed order p.name then ps.extend path order rest
      else if isNamed path p.name then .error (.cyclicReference (cycleOf path p.name))
      else
        match ps.extend (p :: path) order p.references with
        | .error e => .error e
        | .ok order => ps.extend path (order ++ [p]) rest := by
  rw [extend]
  split
  · next h => cases found.symm.trans h
  · next h =>
    cases found.symm.trans h
    rfl

/-- An order without repetitions that takes up no project of the path. -/
structure Partial (ps : Projects) (path order : List Project) : Prop where
  listed : ∀ p ∈ order, p ∈ ps.all
  names : (order.map (·.name)).Nodup
  off : ∀ p ∈ path, isNamed order p.name = false

namespace Partial

variable {ps : Projects} {path order : List Project} {p : Project}

theorem enter (h : Partial ps path order) (new : isNamed order p.name = false) :
    Partial ps (p :: path) order where
  listed := h.listed
  names := h.names
  off := List.forall_mem_cons.mpr ⟨new, h.off⟩

/-- A project is taken once the search below it is over. -/
theorem leave (h : Partial ps (p :: path) order) (found : p ∈ ps.all)
    (new : isNamed path p.name = false) : Partial ps path (order ++ [p]) where
  listed q hq := by
    rcases List.mem_append.mp hq with hq | hq
    · exact h.listed q hq
    · rw [List.mem_singleton.mp hq]
      exact found
  names := by
    rw [List.map_append, List.nodup_append]
    refine ⟨h.names, by simp, ?_⟩
    intro name hname _ hp
    obtain ⟨q, hq, rfl⟩ := List.mem_map.mp hname
    obtain rfl : _ = p.name := by simpa using hp
    exact isNamed_eq_false.mp (h.off p List.mem_cons_self) q hq
  off q hq := by
    rw [isNamed_eq_false]
    intro r hr
    rcases List.mem_append.mp hr with hr | hr
    · exact isNamed_eq_false.mp (h.off q (List.mem_cons_of_mem _ hq)) r hr
    · rw [List.mem_singleton.mp hr]
      exact fun same => isNamed_eq_false.mp new q hq same.symm

end Partial

theorem partial_of_extend {ps : Projects} {path order order' : List Project} {names : List String}
    (h : ps.extend path order names = .ok order') (before : Partial ps path order) :
    Partial ps path order' := by
  fun_induction extend ps path order names generalizing order' with
  | case1 path order =>
    cases h
    exact before
  | case2 => cases h
  | case3 path order name rest p found taken ih => exact ih h before
  | case4 => cases h
  | case5 => cases h
  | case6 path order name rest p found taken new below extended ih ih' =>
    have inside := ih extended (before.enter (by simpa using taken))
    exact ih' h (inside.leave (mem_of_find? found) (by simpa using new))

theorem partial_of_compilationOrder {ps : Projects} {name : String} {order : List Project}
    (h : ps.compilationOrder name = .ok order) : Partial ps [] order :=
  partial_of_extend h ⟨by simp, by simp, by simp⟩

theorem keys_nodup_of_compilationOrder {ps : Projects} (distinct : ps.Distinct) {name : String}
    {order : List Project} (h : ps.compilationOrder name = .ok order) :
    (order.map (projectKey ·.name)).Nodup := by
  have whole := partial_of_compilationOrder h
  apply (List.Nodup.of_map _ whole.names).map_on
  intro p hp q hq same
  exact distinct p (whole.listed p hp) q (whole.listed q hq) same

end CodeWorkspace.Projects
