import CodeWorkspace.Proofs.Snapshot.Origin
import CodeWorkspace.Proofs.Store.Succession

/-! What a store makes of a project: the origin that every snapshot has which is compiled from it. A store that
comes later describes the project alike or in higher versions. -/
namespace CodeWorkspace

/-- No two projects share a key. -/
def Projects.Distinct (ps : Projects) : Prop :=
  ∀ p ∈ ps.all, ∀ q ∈ ps.all, projectKey p.name = projectKey q.name → p = q

namespace Origin

/-- The documents are those of the project as the store holds them, and likewise for all references. -/
inductive Describes (ps : Projects) (store : Store) : Origin → Prop where
  | project {p : Project} {o : Origin} {documents : List Document} (listed : p ∈ ps.all)
      (name : o.project = p.name) (captured : store.capture p.documents = .ok documents)
      (stamps : o.documents = documents.map (·.stamp))
      (names : o.references.map (·.project) = p.references)
      (references : ∀ r ∈ o.references, Describes ps store r) : Describes ps store o

/-- Each document of the other origin is there, in the same version or a later one. -/
def NoOlderThan (o old : Origin) : Prop :=
  ∀ x ∈ old.closure, ∃ y ∈ o.closure, y.1.same x.1 = true ∧ x.2 ≤ y.2

instance (o old : Origin) : Decidable (o.NoOlderThan old) :=
  inferInstanceAs (Decidable (∀ x ∈ old.closure, ∃ y ∈ o.closure, _))

namespace Describes

variable {ps : Projects} {s t u : Store} {o o' : Origin}

/-- Whatever is described is held. -/
theorem held (h : o.Describes ps s) :
    ∀ x ∈ o.closure, ∃ path d, s.get? path = some d ∧ x = d.stamp := by
  induction h with
  | project _ _ captured stamps _ _ ih =>
    refine forall_mem_closure.mpr ⟨fun x hx => ?_, ih⟩
    rw [stamps] at hx
    obtain ⟨d, hd, rfl⟩ := List.mem_map.mp hx
    obtain ⟨path, -, held⟩ := Store.held_of_capture captured d hd
    exact ⟨path, d, held, rfl⟩

theorem version? (h : o.Describes ps s) (sound : s.Sound) :
    ∀ x ∈ o.closure, s.version? x.1 = some x.2 := by
  intro x hx
  obtain ⟨path, d, held, rfl⟩ := h.held x hx
  have : s.get? d.path = some d := by rw [s.get?_congr (sound.place held), held]
  simp [Store.version?, Document.stamp, this]

/-- What a later store describes in versions that an earlier one had reached, the earlier one describes. -/
theorem earlier (h : o.Describes ps t) (before : s.LeadsTo t) (sound : t.Sound)
    (old : ∀ x ∈ o.closure, x.2 ≤ s.lastVersion x.1) : o.Describes ps s := by
  induction h with
  | project listed name captured stamps names _ ih =>
    obtain ⟨own, below⟩ := forall_mem_closure.mp old
    refine .project listed name ?_ stamps names fun r hr => ih r hr (below r hr)
    apply Store.capture_of_held captured
    intro d hd path held
    apply before.held_before held
    rw [← s.lastVersion_congr (sound.place held)]
    exact own d.stamp (by rw [stamps]; exact List.mem_map_of_mem hd)

theorem lastVersion (h : o.Describes ps s) (sound : s.Sound) :
    ∀ x ∈ o.closure, s.lastVersion x.1 = x.2 := by
  intro x hx
  obtain ⟨path, d, held, rfl⟩ := h.held x hx
  rw [Document.stamp, sound.version held, s.lastVersion_congr (sound.place held)]

/-- What is described before and afterwards is described in between. -/
theorem between (before : o.Describes ps s) (after : o.Describes ps u) (h : s.LeadsTo t)
    (h' : t.LeadsTo u) (hs : s.Sound) (hu : u.Sound) : o.Describes ps t := by
  apply after.earlier h' hu
  intro x hx
  rw [← before.lastVersion hs x hx]
  exact h.lastVersion_le x.1

/-- As long as a store holds what was described in the versions described, it describes it too. -/
theorem later (h : o.Describes ps s) (leads : s.LeadsTo t) (hs : s.Sound)
    (current : ∀ x ∈ o.closure, t.version? x.1 = some x.2) : o.Describes ps t := by
  induction h with
  | project listed name captured stamps names _ ih =>
    obtain ⟨own, below⟩ := forall_mem_closure.mp current
    refine .project listed name ?_ stamps names fun r hr => ih r hr (below r hr)
    apply Store.capture_of_held captured
    intro d hd path held
    have place := hs.place held
    have version : t.version? d.path = some d.version :=
      own d.stamp (by rw [stamps]; exact List.mem_map_of_mem hd)
    obtain ⟨d', held', same⟩ := Option.map_eq_some_iff.mp version
    have before : s.get? d.path = some d := by rw [s.get?_congr place, held]
    rw [← t.get?_congr place, held', leads.held_eq hs before held' same.symm]

/-- Projects of one key are one project. -/
theorem project_eq (distinct : ps.Distinct) (h : o.Describes ps s) (h' : o'.Describes ps t)
    (same : projectKey o.project = projectKey o'.project) : o.project = o'.project := by
  obtain ⟨listed, name, -⟩ := h
  obtain ⟨listed', name', -⟩ := h'
  rw [name, name'] at same ⊢
  exact congrArg Project.name (distinct _ listed _ listed' same)

/-- The same project of the same solution is behind origins of one name. -/
private theorem shape (distinct : ps.Distinct) (h : o.Describes ps s) (h' : o'.Describes ps t)
    (same : o.project = o'.project) :
    ∃ p ∈ ps.all, o.references.map (·.project) = p.references ∧
      o'.references.map (·.project) = p.references ∧
      (∃ ds, s.capture p.documents = .ok ds ∧ o.documents = ds.map (·.stamp)) ∧
      (∃ ds, t.capture p.documents = .ok ds ∧ o'.documents = ds.map (·.stamp)) ∧
      (∀ r ∈ o.references, Describes ps s r) ∧ ∀ r ∈ o'.references, Describes ps t r := by
  obtain ⟨listed, name, captured, stamps, names, references⟩ := h
  obtain ⟨listed', name', captured', stamps', names', references'⟩ := h'
  have := distinct _ listed _ listed' (by rw [← name, ← name', same])
  subst this
  exact ⟨_, listed, names, names', ⟨_, captured, stamps⟩, ⟨_, captured', stamps'⟩, references,
    references'⟩

/-- A store describes a project in one way. -/
theorem unique (distinct : ps.Distinct) (h : o.Describes ps s) (h' : o'.Describes ps s)
    (same : o.project = o'.project) : o = o' := by
  induction o using Origin.induction generalizing o' with
  | step o ih =>
    obtain ⟨p, -, names, names', ⟨ds, captured, stamps⟩, ⟨ds', captured', stamps'⟩, below, below'⟩ :=
      shape distinct h h' same
    have documents : o.documents = o'.documents := by
      rw [captured] at captured'
      cases captured'
      rw [stamps, stamps']
    have references : o.references.map id = o'.references.map id :=
      map_eq_map_of_tells (fun r hr r' hr' => ih r hr (below r hr) (below' r' hr'))
        (names.trans names'.symm)
    obtain ⟨_, _, _⟩ := o
    obtain ⟨_, _, _⟩ := o'
    simp only [List.map_id] at references
    simp only [Origin.mk.injEq]
    exact ⟨same, documents, references⟩

/-- In the history of one store what is described of a project shows in how it reads. -/
theorem eq_of_reading (distinct : ps.Distinct) (h : o.Describes ps s) (h' : o'.Describes ps t) (leads : s.LeadsTo t)
    (sound : s.Sound) (same : o.reading = o'.reading) : o = o' := by
  induction o using Origin.induction generalizing o' with
  | step o ih =>
    rw [Origin.reading_eq, Origin.reading_eq, Origin.mk.injEq] at same
    obtain ⟨project, read, below⟩ := same
    obtain ⟨p, -, -, -, ⟨ds, captured, stamps⟩, ⟨ds', captured', stamps'⟩, described, described'⟩ :=
      shape distinct h h' project
    have documents : o.documents = o'.documents := by
      have versions := congrArg (List.map Prod.snd) read
      rw [stamps, stamps'] at versions
      simp only [List.map_map, Function.comp_def, Document.stamp] at versions
      rw [stamps, stamps', leads.capture_eq sound captured captured' versions]
    have references : o.references.map id = o'.references.map id :=
      map_eq_map_of_tells (fun r hr r' hr' => ih r hr (described r hr) (described' r' hr')) below
    obtain ⟨_, _, _⟩ := o
    obtain ⟨_, _, _⟩ := o'
    simp only [List.map_id] at references
    simp only [Origin.mk.injEq]
    exact ⟨project, documents, references⟩

/-- Whatever place one state of the store describes a project by, any other describes it by that place too. -/
theorem covers (distinct : ps.Distinct) (h : o.Describes ps s) (h' : o'.Describes ps t)
    (same : o.project = o'.project) (hs : s.Sound) (ht : t.Sound) :
    ∀ x ∈ o.closure, ∃ y ∈ o'.closure, y.1.same x.1 = true := by
  induction o using Origin.induction generalizing o' with
  | step o ih =>
    obtain ⟨p, -, names, names', ⟨ds, captured, stamps⟩, ⟨ds', captured', stamps'⟩, below, below'⟩ :=
      shape distinct h h' same
    refine forall_mem_closure.mpr ⟨fun x hx => ?_, fun r hr x hx => ?_⟩
    · rw [stamps] at hx
      obtain ⟨d, hd, rfl⟩ := List.mem_map.mp hx
      obtain ⟨path, hpath, held⟩ := Store.held_of_capture captured d hd
      obtain ⟨d', hd', held'⟩ := Store.captured_of_mem captured' path hpath
      refine ⟨d'.stamp, mem_closure.mpr (.inl ?_), ?_⟩
      · rw [stamps']
        exact List.mem_map_of_mem hd'
      · exact Path.same_trans (ht.place held') (by rw [Path.same_comm]; exact hs.place held)
    · have : r.project ∈ o'.references.map (·.project) := by
        rw [names', ← names]
        exact List.mem_map_of_mem hr
      obtain ⟨r', hr', name⟩ := List.mem_map.mp this
      obtain ⟨y, hy, place⟩ := ih r hr (below r hr) (below' r' hr') name.symm x hx
      exact ⟨y, mem_closure.mpr (.inr ⟨r', hr', hy⟩), place⟩

section Succession

variable (distinct : ps.Distinct) (h : o.Describes ps s) (h' : o'.Describes ps t)
  (same : o.project = o'.project) (leads : s.LeadsTo t) (hs : s.Sound) (ht : t.Sound)
include distinct h h' same leads hs ht

theorem noOlderThan : o'.NoOlderThan o := by
  intro x hx
  obtain ⟨y, hy, place⟩ := h.covers distinct h' same hs ht x hx
  refine ⟨y, hy, place, ?_⟩
  calc x.2 = s.lastVersion x.1 := (h.lastVersion hs x hx).symm
    _ ≤ t.lastVersion x.1 := leads.lastVersion_le x.1
    _ = t.lastVersion y.1 := (t.lastVersion_congr place).symm
    _ = y.2 := h'.lastVersion ht y hy

/-- Where the earlier state is no older, nothing was written in between. -/
theorem eq_of_noOlderThan (old : o.NoOlderThan o') : o = o' := by
  refine h.unique distinct (h'.earlier leads ht fun x hx => ?_) same
  obtain ⟨y, hy, place, le⟩ := old x hx
  rwa [← s.lastVersion_congr place, h.lastVersion hs y hy]

end Succession

end Describes
end Origin
end CodeWorkspace
