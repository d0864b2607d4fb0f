import CodeWorkspace.Proofs.Solution.Order
import CodeWorkspace.Request

/-! A request on its way. What it has and what it still needs are together the compilation order, all documents
are from one capture, and whatever holds of the snapshots it was given holds of all that it asks for. -/
namespace CodeWorkspace.Request

variable {ps : Projects} {store : Store} {good : Snapshot → Prop} {q : Request} {i : Job.Inputs}

/-- `order` is the compilation order; `good` is what is known of snapshots that were given to the request. -/
structure Fits (ps : Projects) (store : Store) (good : Snapshot → Prop) (order : List Project)
    (q : Request) : Prop where
  listed : ∀ p ∈ order, p ∈ ps.all
  names : (q.built.map (·.1)).reverse ++ q.remaining.map (·.1.name) = order.map (·.name)
  remaining : ∀ x ∈ q.remaining, x.1 ∈ order ∧ store.capture x.1.documents = .ok x.2
  built : ∀ x ∈ q.built, x.2.project = x.1 ∧ good x.2

/-- Inputs of a project: its documents as the store holds them, and snapshots of the projects that it references. -/
structure Drawn (ps : Projects) (store : Store) (p : Project) (i : Job.Inputs) : Prop where
  listed : p ∈ ps.all
  name : i.project = p.name
  captured : store.capture p.documents = .ok i.documents
  references : i.references.map (·.project) = p.references

theorem Drawn.describes {p : Project} (drawn : Drawn ps store p i)
    (below : ∀ r ∈ i.references, r.origin.Describes ps store) : i.origin.Describes ps store := by
  refine .project drawn.listed drawn.name drawn.captured rfl ?_ ?_
  · rw [← drawn.references]
    simp [Job.Inputs.origin]
  · simpa [Job.Inputs.origin] using below

theorem captureAll_eq_ok {order : List Project} {all : List (Project × List Document)}
    (h : captureAll store order = .ok all) :
    all.map (·.1) = order ∧ ∀ x ∈ all, store.capture x.1.documents = .ok x.2 := by
  induction order generalizing all with
  | nil => cases h; simp
  | cons p rest ih =>
    rw [captureAll] at h
    split at h
    · cases h
    · next documents captured =>
      split at h
      · cases h
      · next more captured' =>
        cases h
        obtain ⟨projects, each⟩ := ih captured'
        rw [List.map_cons, projects, List.forall_mem_cons]
        exact ⟨rfl, captured, each⟩

theorem ofStore_eq_ok {name : String} (h : ofStore ps store name = .ok q) :
    ∃ order, ps.compilationOrder name = .ok order ∧ q.built = [] ∧ q.Fits ps store good order := by
  unfold ofStore at h
  split at h
  · cases h
  · next order ordered =>
    split at h
    · cases h
    · next remaining captured =>
      cases h
      obtain ⟨projects, each⟩ := captureAll_eq_ok captured
      refine ⟨order, ordered, rfl, (Projects.partial_of_compilationOrder ordered).listed, ?_, ?_, by simp⟩
      · rw [← projects]
        simp
      · intro x hx
        refine ⟨?_, each x hx⟩
        rw [← projects]
        exact List.mem_map_of_mem hx

/-! ## What a request needs next -/

theorem mem_built_of_snapshot? {name : String} {s : Snapshot} (h : q.snapshot? name = some s) :
    (name, s) ∈ q.built := by
  unfold snapshot? at h
  obtain ⟨⟨name', s'⟩, found, rfl⟩ := Option.map_eq_some_iff.mp h
  have same : name' = name := by simpa using List.find?_some found
  rw [← same]
  exact List.mem_of_find?_eq_some found

theorem references_eq_ok {names : List String} {refs : List Snapshot}
    (named : ∀ x ∈ q.built, x.2.project = x.1) (h : q.references names = .ok refs) :
    refs.map (·.project) = names ∧ ∀ r ∈ refs, (r.project, r) ∈ q.built := by
  induction names generalizing refs with
  | nil => cases h; simp
  | cons name rest ih =>
    rw [references] at h
    split at h
    · cases h
    · next s found =>
      split at h
      · cases h
      · next more looked =>
        cases h
        obtain ⟨names, mem⟩ := ih looked
        have here := mem_built_of_snapshot? found
        have project : s.project = name := named _ here
        rw [List.map_cons, names, project, List.forall_mem_cons, project]
        exact ⟨rfl, here, mem⟩

theorem exists_references {q : Request} {names : List String}
    (known : ∀ name ∈ names, (q.snapshot? name).isSome = true) :
    ∃ references, q.references names = .ok references := by
  induction names with
  | nil => exact ⟨[], rfl⟩
  | cons name rest ih =>
    rw [List.forall_mem_cons] at known
    obtain ⟨s, found⟩ := Option.isSome_iff_exists.mp known.1
    obtain ⟨more, looked⟩ := ih known.2
    exact ⟨s :: more, by rw [references, found, looked]⟩

/-- A request needs a project for which it has all references. -/
theorem demand_eq_needs (h : q.demand = .needs i) :
    ∃ p rest, q.remaining = (p, i.documents) :: rest ∧ i.project = p.name ∧
      q.references p.references = .ok i.references := by
  unfold demand at h
  split at h
  · split at h <;> cases h
  · next p documents rest remaining =>
    split at h
    · cases h
    · next refs found =>
      cases h
      exact ⟨p, rest, remaining, rfl, found⟩

/-- A request ends with the snapshot that it was given last. -/
theorem demand_eq_finished_ok {s : Snapshot} (h : q.demand = .finished (.ok s)) :
    q.remaining = [] ∧ ∃ name rest, q.built = (name, s) :: rest := by
  unfold demand at h
  split at h
  · next none =>
    split at h
    · cases h
    · next name s rest built =>
      cases h
      exact ⟨none, name, rest, built⟩
  · split at h <;> cases h

namespace Fits

variable {order : List Project}

theorem mono {better : Snapshot → Prop} (h : q.Fits ps store good order)
    (sub : ∀ s, good s → better s) : q.Fits ps store better order where
  listed := h.listed
  names := h.names
  remaining := h.remaining
  built x hx := ⟨(h.built x hx).1, sub x.2 (h.built x hx).2⟩

theorem good_of_needs (h : q.Fits ps store good order) (needs : q.demand = .needs i) :
    ∀ r ∈ i.references, good r := by
  obtain ⟨p, rest, -, -, found⟩ := demand_eq_needs needs
  have mem := (references_eq_ok (fun x hx => (h.built x hx).1) found).2
  exact fun r hr => (h.built _ (mem r hr)).2

/-- What a request needs is what a project of its order has. -/
theorem drawn (h : q.Fits ps store good order) (needs : q.demand = .needs i) :
    ∃ p ∈ order, Drawn ps store p i := by
  obtain ⟨p, rest, remaining, name, found⟩ := demand_eq_needs needs
  obtain ⟨mem, captured⟩ := h.remaining (p, i.documents) (by simp [remaining])
  exact ⟨p, mem, h.listed p mem, name, captured, (references_eq_ok (fun x hx => (h.built x hx).1) found).1⟩

theorem advance (h : q.Fits ps store good order) (needs : q.demand = .needs i) {s : Snapshot}
    (project : s.project = i.project) (fine : good s) : (q.advance s).Fits ps store good order := by
  obtain ⟨p, rest, remaining, name, -⟩ := demand_eq_needs needs
  have names := h.names
  have each := h.remaining
  rw [remaining] at names each
  simp only [Request.advance, remaining]
  refine ⟨h.listed, ?_, fun x hx => each x (List.mem_cons_of_mem _ hx), ?_⟩
  · simpa using names
  · rw [List.forall_mem_cons]
    exact ⟨⟨project.trans name, fine⟩, h.built⟩

end Fits

/-! ## What is looked up -/

/-- A request over one capture, `taken` being what it has. -/
structure Along (store : Store) (order taken : List Project) (q : Request) : Prop where
  order : taken ++ q.remaining.map (·.1) = order
  names : q.built.map (·.1) = (taken.map (·.name)).reverse
  captured : ∀ x ∈ q.remaining, store.capture x.1.documents = .ok x.2

/-- What a project was looked up with: its documents as captured, and the snapshots of its references among those
given. -/
structure Record (store : Store) (built : List (String × Snapshot)) (p : Project) (i : Job.Inputs) : Prop where
  name : i.project = p.name
  captured : store.capture p.documents = .ok i.documents
  references : List.Forall₂ (fun name r => (name, r) ∈ built) p.references i.references

theorem Record.mono {store : Store} {built more : List (String × Snapshot)} {p : Project} {i : Job.Inputs}
    (h : Record store built p i) (sub : ∀ x ∈ built, x ∈ more) : Record store more p i where
  name := h.name
  captured := h.captured
  references := h.references.imp fun _ _ mem => sub _ mem

theorem Record.key {store : Store} {built : List (String × Snapshot)} {p : Project} {i : Job.Inputs}
    (h : Record store built p i) : i.key = projectKey p.name := congrArg projectKey h.name

theorem along_of_ofStore {ps : Projects} {store : Store} {name : String} {q : Request}
    (h : ofStore ps store name = .ok q) :
    ∃ order, ps.compilationOrder name = .ok order ∧ q.built = [] ∧ q.Along store order [] := by
  unfold ofStore at h
  split at h
  · cases h
  · next order ordered =>
    split at h
    · cases h
    · next remaining captured =>
      cases h
      obtain ⟨projects, each⟩ := captureAll_eq_ok captured
      exact ⟨order, ordered, rfl, projects, rfl, each⟩

theorem forall₂_of_references {q : Request} {names : List String} {references : List Snapshot}
    (h : q.references names = .ok references) :
    List.Forall₂ (fun name r => (name, r) ∈ q.built) names references := by
  induction names generalizing references with
  | nil =>
    cases h
    exact .nil
  | cons name rest ih =>
    rw [Request.references] at h
    split at h
    · cases h
    · next found =>
      split at h
      · cases h
      · next looked =>
        cases h
        exact .cons (mem_built_of_snapshot? found) (ih looked)

section Along

variable {store : Store} {order taken : List Project} {q : Request} {i : Job.Inputs} {p : Project}
  {documents : List Document} {rest : List (Project × List Document)}

theorem Along.next (along : q.Along store order taken) (needs : q.demand = .needs i) :
    ∃ p rest, q.remaining = (p, i.documents) :: rest ∧ Record store q.built p i := by
  obtain ⟨p, rest, remaining, name, found⟩ := demand_eq_needs needs
  have captured := along.captured (p, i.documents) (by rw [remaining]; exact List.mem_cons_self)
  exact ⟨p, rest, remaining, name, captured, forall₂_of_references found⟩

theorem Along.mem_order (along : q.Along store order taken) (remaining : q.remaining = (p, documents) :: rest) :
    p ∈ order := by
  rw [← along.order, remaining]
  simp

theorem Along.mem_taken (along : q.Along store order taken) {x : String × Snapshot} (hx : x ∈ q.built) :
    ∃ p ∈ taken, p.name = x.1 := by
  have : x.1 ∈ q.built.map (·.1) := List.mem_map_of_mem hx
  rw [along.names, List.mem_reverse] at this
  exact List.mem_map.mp this

theorem built_advance (remaining : q.remaining = (p, documents) :: rest) (s : Snapshot) :
    (q.advance s).built = (p.name, s) :: q.built := by
  simp only [advance, remaining]

theorem remaining_advance (remaining : q.remaining = (p, documents) :: rest) (s : Snapshot) :
    (q.advance s).remaining = rest := by
  simp only [advance, remaining]

theorem Along.advance (along : q.Along store order taken) (remaining : q.remaining = (p, documents) :: rest)
    (s : Snapshot) : (q.advance s).Along store order (taken ++ [p]) := by
  have order := along.order
  have captured := along.captured
  rw [remaining] at order captured
  refine ⟨?_, ?_, ?_⟩
  · rw [remaining_advance remaining, ← order]
    simp
  · rw [built_advance remaining, List.map_cons, along.names]
    simp
  · rw [remaining_advance remaining]
    exact fun x hx => captured x (List.mem_cons_of_mem _ hx)

theorem exists_given {built : List (String × Snapshot)}
    (names : built.map (·.1) = (order.map (·.name)).reverse) (hp : p ∈ order) : ∃ s, (p.name, s) ∈ built := by
  have : p.name ∈ built.map (·.1) := by
    rw [names, List.mem_reverse]
    exact List.mem_map_of_mem hp
  obtain ⟨⟨_, s⟩, hs, rfl⟩ := List.mem_map.mp this
  exact ⟨s, hs⟩

/-- The project that comes next shares its key with no other one. -/
theorem Along.key_ne (along : q.Along store order taken) (keys : (order.map (projectKey ·.name)).Nodup)
    (remaining : q.remaining = (p, documents) :: rest) :
    (∀ x ∈ q.built, projectKey x.1 ≠ projectKey p.name) ∧
      ∀ y ∈ rest, projectKey y.1.name ≠ projectKey p.name := by
  have distinct : order.Pairwise fun a b => projectKey a.name ≠ projectKey b.name := List.pairwise_map.mp keys
  rw [← along.order, remaining, List.pairwise_append, List.map_cons, List.pairwise_cons] at distinct
  obtain ⟨-, ⟨behind, -⟩, apart⟩ := distinct
  constructor
  · intro x hx
    obtain ⟨r, hr, name⟩ := along.mem_taken hx
    rw [← name]
    exact apart r hr p List.mem_cons_self
  · intro y hy
    exact (behind y.1 (List.mem_map_of_mem hy)).symm

end Along
end CodeWorkspace.Request
