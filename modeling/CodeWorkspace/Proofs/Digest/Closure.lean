import CodeWorkspace.Proofs.Session.Currency

/-! What a digest stands for. The fields of a buffer can be read back, so as long as no two buffers share a digest,
projects share one just if they share their names, the paths of their documents as they read, the versions of these, and
all of this again in what they reference. -/
namespace CodeWorkspace

/-- A project that leads to no cycle, over a store that holds all documents on the way. -/
structure AcyclicProject where
  solution : Solution
  projects : Projects
  checked : Projects.ofSolution solution = .ok projects
  name : String
  order : List Project
  ordered : projects.compilationOrder name = .ok order
  store : Store
  held : ∀ p ∈ order, ∀ path ∈ p.documents, store.contains path = true

namespace AcyclicProject

/-- All that is hashed for the project. -/
def hashed (x : AcyclicProject) : List Job.Inputs := rehashed x.projects x.store x.name

def digest (x : AcyclicProject) : Except WorkspaceError Digest := redigest x.projects x.store x.name

/-- The project, its documents as the store holds them, and the same of all that it references. -/
structure IsClosure (x : AcyclicProject) (o : Origin) : Prop where
  described : o.Describes x.projects x.store
  named : ∃ root, x.projects.find? x.name = some root ∧ o.project = root.name

/-- The digest is that of a snapshot which tells the closure. -/
theorem exists_snapshot (x : AcyclicProject) {more : List Job.Inputs} (sub : ∀ i ∈ x.hashed, i ∈ more) :
    ∃ s : Snapshot, x.digest = .ok s.digest ∧ x.IsClosure s.origin ∧ s.Genuine (fun _ => True) more := by
  have linked := Projects.linked_of_ofSolution x.checked
  have distinct := Projects.distinct_of_ofSolution x.checked
  have ordered := x.ordered
  obtain ⟨root, before, found, last⟩ := Projects.last_of_compilationOrder ordered
  rw [last] at ordered
  have captured : ∀ p ∈ before ++ [root], ∃ documents, x.store.capture p.documents = .ok documents := by
    rw [← last]
    exact fun p hp => Store.exists_capture_iff.mpr (x.held p hp)
  obtain ⟨s, compiled⟩ := exists_compileFresh linked distinct ordered (by simp) captured
  obtain ⟨project, anew⟩ := anew_of_compileFresh ordered (fun _ => id) compiled
  refine ⟨s, redigest_eq_ok.mpr ⟨s, compiled, rfl⟩, ⟨anew.described, root, found, ?_⟩, anew.genuine.mono sub⟩
  rw [Snapshot.project_origin, project]

end AcyclicProject

/-- Buffers tell their fields; and where the buffers at hand have a digest each, digests tell closures with all paths as
they read, be they those of inputs with whatever snapshots they were looked up with, or those of projects over a
store. -/
theorem digest_eq_iff_closure_eq :
    (∀ i j : Job.Inputs, i.Fits → j.Fits → i.buffer = j.buffer →
      i.project = j.project ∧
        i.documents.map (fun d => (d.path.text, d.version)) = j.documents.map (fun d => (d.path.text, d.version)) ∧
        i.references.map (·.digest) = j.references.map (·.digest)) ∧
    (∀ (hashed : List Job.Inputs) (i j : Job.Inputs), Job.Inputs.CollisionFree hashed →
      i.Asked (fun _ => True) hashed → j.Asked (fun _ => True) hashed →
      (i.digest = j.digest ↔ i.origin.reading = j.origin.reading)) ∧
    ∀ x y : AcyclicProject, Job.Inputs.CollisionFree (x.hashed ++ y.hashed) →
      ∃ d e o p, x.digest = .ok d ∧ y.digest = .ok e ∧ x.IsClosure o ∧ y.IsClosure p ∧
        (d = e ↔ o.reading = p.reading) := by
  refine ⟨fun i j hi hj => Job.Inputs.fields_of_buffer_eq hi hj, fun hashed i j free hi hj => ?_, fun x y free => ?_⟩
  · exact ⟨hi.reading_eq free hj, hi.digest_eq hj⟩
  · obtain ⟨s, digest, closure, genuine⟩ := x.exists_snapshot fun _ => List.mem_append_left y.hashed
    obtain ⟨t, digest', closure', genuine'⟩ := y.exists_snapshot fun _ => List.mem_append_right x.hashed
    exact ⟨s.digest, t.digest, s.origin, t.origin, digest, digest', closure, closure',
      genuine.reading_eq free genuine', genuine.digest_eq genuine'⟩

/-! ## A small solution -/

def Job.Inputs.lib (text : String) (version : Nat) : Inputs := ⟨"Lib", [⟨⟨"lib"⟩, text, version⟩], []⟩

def Job.Inputs.app (lib : Inputs) : Inputs := ⟨"App", [⟨⟨"app"⟩, "y", 1⟩], [lib.bare]⟩

/-- Two versions of the one and the other over each of them. -/
def Job.Inputs.versions : List Inputs := [lib "x" 1, lib "x" 2, (lib "x" 1).app, (lib "x" 2).app]

theorem Job.Inputs.asked_app {lib : Inputs} (known : lib ∈ versions) (asked : lib.app ∈ versions)
    (lowest : lib.references = []) : lib.app.Asked (fun _ => True) versions where
  mem := asked
  references r hr := by
    rw [List.mem_singleton.mp hr]
    exact .run trivial known (Job.run_blank lib) (by simp [lowest])

/-- The larger project of the pair. -/
def AcyclicProject.app (store : Store)
    (held : ∀ p ∈ [Solution.lib, Solution.app], ∀ path ∈ p.documents, store.contains path = true) : AcyclicProject where
  solution := .pair
  projects := ⟨[Solution.lib, Solution.app]⟩
  checked := Solution.ofSolution_pair
  name := "App"
  order := [Solution.lib, Solution.app]
  ordered := Solution.compilationOrder_pair
  store := store
  held := held

def AcyclicProject.drafted : AcyclicProject :=
  .app ((({} : Store).put ⟨"lib"⟩ "x").put ⟨"app"⟩ "y") (by decide +kernel)

def AcyclicProject.revised : AcyclicProject :=
  .app (AcyclicProject.drafted.store.put ⟨"lib"⟩ "z") (by decide +kernel)

section Witness

open Job.Inputs AcyclicProject

/-- Texts do not count, versions do. -/
theorem digest_eq_iff_closure_eq_app :
    ((lib "x" 1).Fits ∧ (lib "z" 1).Fits ∧ (lib "x" 1).buffer = (lib "z" 1).buffer ∧
      (lib "x" 1).project = (lib "z" 1).project ∧
        (lib "x" 1).documents.map (fun d => (d.path.text, d.version)) =
          (lib "z" 1).documents.map (fun d => (d.path.text, d.version)) ∧
        (lib "x" 1).references.map (·.digest) = (lib "z" 1).references.map (·.digest)) ∧
    (CollisionFree versions ∧ (lib "x" 1).app.Asked (fun _ => True) versions ∧
      (lib "x" 2).app.Asked (fun _ => True) versions ∧
        ((lib "x" 1).app.digest = (lib "x" 2).app.digest ↔
          (lib "x" 1).app.origin.reading = (lib "x" 2).app.origin.reading)) ∧
    CollisionFree (drafted.hashed ++ revised.hashed) ∧
      ∃ d e o p, drafted.digest = .ok d ∧ revised.digest = .ok e ∧ drafted.IsClosure o ∧ revised.IsClosure p ∧
        (d = e ↔ o.reading = p.reading) := by
  obtain ⟨ofBuffers, ofInputs, ofProjects⟩ := digest_eq_iff_closure_eq
  have fits : (lib "x" 1).Fits ∧ (lib "z" 1).Fits := by decide +kernel
  have same : (lib "x" 1).buffer = (lib "z" 1).buffer := rfl
  have free : CollisionFree versions := by decide +kernel
  have before : (lib "x" 1).app.Asked (fun _ => True) versions :=
    asked_app (by simp [versions]) (by simp [versions]) rfl
  have after : (lib "x" 2).app.Asked (fun _ => True) versions :=
    asked_app (by simp [versions]) (by simp [versions]) rfl
  have free' : CollisionFree (drafted.hashed ++ revised.hashed) := by
    simp only [AcyclicProject.hashed, drafted, revised, AcyclicProject.app, rehashed, Request.ofStore,
      Solution.compilationOrder_pair]
    decide +kernel
  exact ⟨⟨fits.1, fits.2, same, ofBuffers _ _ fits.1 fits.2 same⟩,
    ⟨free, before, after, ofInputs _ _ _ free before after⟩, free', ofProjects _ _ free'⟩

end Witness
end CodeWorkspace
