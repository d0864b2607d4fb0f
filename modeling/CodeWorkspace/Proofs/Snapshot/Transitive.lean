import CodeWorkspace.Proofs.Query.Cursor
import CodeWorkspace.Proofs.Snapshot.Description
import CodeWorkspace.Proofs.Solution.Closure

/-! The walk through a snapshot and all it was built on. Where the snapshots reference each other as the projects of a
solution do, it meets them in the order in which the search for a compilation order takes the projects, wherever each of
them came from. -/
namespace CodeWorkspace

variable {ps : Projects} {store : Store}

namespace Snapshot

/-- The other snapshot is this one, or this one was built on it. -/
def Reaches : Snapshot → Snapshot → Prop := Relation.ReflTransGen fun s r => r ∈ s.references

/-! ## What the walk meets -/

private theorem mem_reachAll {r : Reached} {ss : List Snapshot} {t : Snapshot}
    (each : ∀ s ∈ ss, ∀ r, t ∈ (reach r s).order → t ∈ r.order ∨ s.Reaches t) (met : t ∈ (reachAll r ss).order) :
    t ∈ r.order ∨ ∃ s ∈ ss, s.Reaches t := by
  induction ss generalizing r with
  | nil => exact .inl (reachAll_nil r ▸ met)
  | cons s rest ih =>
    rw [List.forall_mem_cons] at each
    rw [reachAll_cons] at met
    rcases ih each.2 met with before | ⟨s', hs', way⟩
    · exact (each.1 r before).imp_right fun way => ⟨s, List.mem_cons_self, way⟩
    · exact .inr ⟨s', List.mem_cons_of_mem _ hs', way⟩

theorem reaches_of_mem_reach {r : Reached} {s t : Snapshot} (met : t ∈ (reach r s).order) :
    t ∈ r.order ∨ s.Reaches t := by
  induction s using Snapshot.induction generalizing r with
  | step s ih =>
    rw [reach_eq] at met
    split at met
    · exact .inl met
    · rcases List.mem_append.mp met with below | here
      · rcases mem_reachAll (fun s hs r => ih s hs) below with before | ⟨r', hr', way⟩
        · exact .inl before
        · exact .inr (.head hr' way)
      · rw [List.mem_singleton.mp here]
        exact .inr .refl

theorem reaches_of_mem_transitive {s t : Snapshot} (met : t ∈ s.transitive) : s.Reaches t :=
  (reaches_of_mem_reach met).resolve_left List.not_mem_nil

/-- A walk ends where it began. -/
theorem transitive_eq (s : Snapshot) : ∃ before, s.transitive = before ++ [s] := by
  rw [transitive, reach_eq]
  exact ⟨_, rfl⟩

/-! ## Beside the search for an order -/

/-- The references are those of the project of that name, and so on below. -/
inductive Mirrors (ps : Projects) : Snapshot → Prop where
  | project {p : Project} {s : Snapshot} (listed : p ∈ ps.all) (name : s.project = p.name)
      (names : s.references.map (·.project) = p.references) (references : ∀ r ∈ s.references, Mirrors ps r) :
      Mirrors ps s

/-- A snapshot of the project that is found by this name. -/
structure Found (ps : Projects) (name : String) (s : Snapshot) : Prop where
  project : ∃ p, ps.find? name = some p ∧ s.project = p.name
  mirrors : s.Mirrors ps

theorem Found.of_mirrors (distinct : ps.Distinct) {s : Snapshot} (h : s.Mirrors ps) : Found ps s.project s := by
  refine ⟨?_, h⟩
  obtain ⟨listed, name, -⟩ := h
  rw [name]
  exact ⟨_, Projects.find?_of_mem distinct listed, rfl⟩

theorem Found.project_eq {name : String} {s : Snapshot} {p : Project} (h : Found ps name s)
    (found : ps.find? name = some p) : s.project = p.name := by
  obtain ⟨q, there, project⟩ := h.project
  cases found.symm.trans there
  exact project

/-- The references of a snapshot are those of its project. -/
theorem Found.references (distinct : ps.Distinct) {name : String} {s : Snapshot} {p : Project}
    (h : Found ps name s) (found : ps.find? name = some p) :
    List.Forall₂ (Found ps) p.references s.references := by
  have project := h.project_eq found
  obtain ⟨listed, own, names, references⟩ := h.mirrors
  cases distinct _ listed p (Projects.mem_of_find? found) (by rw [← own, project])
  rw [← names, List.forall₂_map_left_iff, List.forall₂_same]
  exact fun r hr => .of_mirrors distinct (references r hr)

/-- How far the walk has got where the search has got to `order` below `path`. -/
structure Follows (path order : List Project) (r : Reached) : Prop where
  left : r.order.map (·.project) = order.map (·.name)
  met : ∀ name, r.names.contains name = (Projects.isNamed order name || Projects.isNamed path name)

namespace Follows

variable {path order : List Project} {r : Reached} {p : Project}

theorem enter (h : Follows path order r) : Follows (p :: path) order { r with names := p.name :: r.names } where
  left := h.left
  met name := by
    rw [List.contains_cons, h.met, Projects.isNamed, Projects.isNamed, Projects.isNamed, List.any_cons,
      Bool.or_left_comm]
    congr 2
    rw [Bool.eq_iff_iff, beq_iff_eq, decide_eq_true_eq, eq_comm]

theorem leave (h : Follows (p :: path) order r) {s : Snapshot} (project : s.project = p.name) :
    Follows path (order ++ [p]) { r with order := r.order ++ [s] } where
  left := by simp [h.left, project]
  met name := by
    rw [h.met]
    simp [Projects.isNamed, Bool.or_assoc]

end Follows

theorem follows_of_extend (distinct : ps.Distinct) {path order order' : List Project} {names : List String}
    (extended : ps.extend path order names = .ok order') {ss : List Snapshot} {r : Reached}
    (snapshots : List.Forall₂ (Found ps) names ss) (follows : Follows path order r) :
    Follows path order' (reachAll r ss) := by
  fun_induction Projects.extend ps path order names generalizing order' ss r with
  | case1 path order =>
    cases extended
    cases snapshots
    rwa [reachAll_nil]
  | case2 => cases extended
  | case3 path order name rest p found taken ih =>
    cases snapshots with
    | cons here more =>
      have met := follows.met p.name
      rw [taken, Bool.true_or] at met
      rw [reachAll_cons, reach_eq, here.project_eq found, if_pos met]
      exact ih extended more follows
  | case4 => cases extended
  | case5 => cases extended
  | case6 path order name rest p found taken new behind below ih ih' =>
    cases snapshots with
    | cons here more =>
      -- Neither of the two has met the project, so both go below it before they take it.
      have met := follows.met p.name
      rw [Bool.not_eq_true] at taken new
      rw [taken, new, Bool.or_false, ← Bool.not_eq_true] at met
      rw [reachAll_cons, reach_eq, here.project_eq found, if_neg met]
      have inside := ih below (here.references distinct found) follows.enter
      exact ih' extended more (inside.leave (here.project_eq found))

/-- The walk through a snapshot repeats the compilation order of its project. -/
theorem projects_transitive (distinct : ps.Distinct) {name : String} {order : List Project} {s : Snapshot}
    (ordered : ps.compilationOrder name = .ok order) (found : Found ps name s) :
    s.transitive.map (·.project) = order.map (·.name) := by
  have follows := follows_of_extend distinct ordered (.cons found .nil) (r := {}) ⟨rfl, fun _ => rfl⟩
  rw [reachAll_cons, reachAll_nil] at follows
  exact follows.left

/-! ## What is known of all that is below -/

section Below

variable {tools : Toolchain → Prop} {hashed : List Job.Inputs} {s t : Snapshot}

theorem genuine_of_reaches (h : s.Genuine tools hashed) (way : s.Reaches t) : t.Genuine tools hashed := by
  induction way with
  | refl => exact h
  | tail _ step ih =>
    obtain ⟨-, -, made, references⟩ := ih
    obtain ⟨y, -, -, rfl⟩ := Job.run_eq_ok_iff.mp made
    exact references _ step

theorem described_of_reaches (h : s.origin.Describes ps store) (way : s.Reaches t) : t.origin.Describes ps store := by
  induction way with
  | refl => exact h
  | tail _ step ih =>
    obtain ⟨-, -, -, -, -, references⟩ := ih
    apply references
    rw [origin_eq]
    exact List.mem_map_of_mem step

end Below
end Snapshot

/-! ## Queries -/

/-- A query of all that a snapshot leads to comes to the snapshot itself last. -/
theorem Query.toList_transitive {s : Snapshot} {before : List Snapshot} (last : s.transitive = before ++ [s])
    (filter : Filter) :
    (Query.mk s filter .transitive).cursor.toList =
      (before.flatMap fun t => (Query.mk t filter .project).cursor.toList) ++
        (Query.mk s filter .project).cursor.toList := by
  simp [toList_cursor, declarations, projects, last]

end CodeWorkspace
