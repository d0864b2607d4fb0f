import CodeWorkspace.Proofs.Digest.Fields
import CodeWorkspace.Proofs.Text.Lossy

/-! What a snapshot was compiled from: the project and its documents in their versions, and the same of all
that it references. Where no two buffers have one digest, a digest tells the origin as it reads and an origin as it
reads the digest, whoever made the snapshot and when. -/
namespace CodeWorkspace

/-- The path that is spelled as this one reads. -/
def Path.reading (p : Path) : Path := ⟨p.text⟩

theorem Path.reading_eq_iff {p q : Path} : p.reading = q.reading ↔ p.text = q.text := by
  constructor
  · intro same
    have texts := congrArg Path.text same
    rwa [reading, reading, text_ofText, text_ofText] at texts
  · intro same
    rw [reading, reading, same]

def Document.stamp (d : Document) : Path × Nat := (d.path, d.version)

def CompiledDocument.stamp (d : CompiledDocument) : Path × Nat := (d.path, d.version)

structure Origin where
  project : String
  /-- Paths and versions in project order. -/
  documents : List (Path × Nat)
  references : List Origin

namespace Origin

@[elab_as_elim]
theorem induction {motive : Origin → Prop}
    (step : ∀ o, (∀ r ∈ o.references, motive r) → motive o) (o : Origin) : motive o :=
  step o fun r _hr => induction step r
termination_by sizeOf o
decreasing_by
  obtain ⟨_, _, references⟩ := o
  have := List.sizeOf_lt_of_mem _hr
  simp only [Origin.mk.sizeOf_spec] at this ⊢
  omega

mutual

/-- The documents of a project and of all it references, as often as they are listed. -/
def closure : Origin → List (Path × Nat)
  | ⟨_, documents, references⟩ => documents ++ closures references

def closures : List Origin → List (Path × Nat)
  | [] => []
  | o :: rest => o.closure ++ closures rest

end

mutual

/-- An origin with all paths as they read. -/
def reading : Origin → Origin
  | ⟨project, documents, references⟩ =>
    ⟨project, documents.map fun x => (x.1.reading, x.2), readings references⟩

def readings : List Origin → List Origin
  | [] => []
  | o :: rest => o.reading :: readings rest

end

theorem readings_eq_map (os : List Origin) : readings os = os.map reading := by
  induction os with
  | nil => rw [readings]; rfl
  | cons o rest ih => rw [readings, ih]; rfl

theorem reading_eq (o : Origin) :
    o.reading = ⟨o.project, o.documents.map fun x => (x.1.reading, x.2), o.references.map reading⟩ := by
  cases o
  rw [reading, readings_eq_map]

theorem mem_closures {x : Path × Nat} {os : List Origin} :
    x ∈ closures os ↔ ∃ o ∈ os, x ∈ o.closure := by
  induction os with
  | nil => rw [closures]; simp
  | cons o rest ih => rw [closures]; simp [ih]

theorem mem_closure {x : Path × Nat} {o : Origin} :
    x ∈ o.closure ↔ x ∈ o.documents ∨ ∃ r ∈ o.references, x ∈ r.closure := by
  cases o
  rw [closure, List.mem_append, mem_closures]

theorem forall_mem_closure {o : Origin} {P : Path × Nat → Prop} :
    (∀ x ∈ o.closure, P x) ↔
      (∀ x ∈ o.documents, P x) ∧ ∀ r ∈ o.references, ∀ x ∈ r.closure, P x := by
  constructor
  · intro h
    exact ⟨fun x hx => h x (mem_closure.mpr (.inl hx)),
      fun r hr x hx => h x (mem_closure.mpr (.inr ⟨r, hr, hx⟩))⟩
  · rintro ⟨own, below⟩ x hx
    rcases mem_closure.mp hx with hx | ⟨r, hr, hx⟩
    · exact own x hx
    · exact below r hr x hx

end Origin

namespace Snapshot

@[elab_as_elim]
theorem induction {motive : Snapshot → Prop}
    (step : ∀ s, (∀ r ∈ s.references, motive r) → motive s) (s : Snapshot) : motive s :=
  step s fun r _hr => induction step r
termination_by sizeOf s
decreasing_by
  obtain ⟨_, _, _, _, _, _, references⟩ := s
  have := List.sizeOf_lt_of_mem _hr
  simp only [Snapshot.mk.sizeOf_spec] at this ⊢
  omega

mutual

def origin : Snapshot → Origin
  | ⟨project, _, _, documents, _, _, references⟩ =>
    ⟨project, documents.map (·.stamp), origins references⟩

def origins : List Snapshot → List Origin
  | [] => []
  | s :: rest => s.origin :: origins rest

end

theorem origins_eq_map (ss : List Snapshot) : origins ss = ss.map origin := by
  induction ss with
  | nil => rw [origins]; rfl
  | cons s rest ih => rw [origins, ih]; rfl

theorem origin_eq (s : Snapshot) :
    s.origin = ⟨s.project, s.documents.map (·.stamp), s.references.map origin⟩ := by
  cases s
  rw [origin, origins_eq_map]

@[simp] theorem project_origin (s : Snapshot) : s.origin.project = s.project := by rw [origin_eq]

/-- Whether a snapshot is current shows from its origin. -/
theorem isCurrent_iff (store : Store) (s : Snapshot) :
    s.isCurrent store = true ↔ ∀ x ∈ s.origin.closure, store.version? x.1 = some x.2 := by
  induction s using Snapshot.induction with
  | step s ih =>
    rw [isCurrent_eq, areCurrent_eq_all, Bool.and_eq_true, List.all_eq_true, List.all_eq_true,
      Origin.forall_mem_closure, origin_eq s]
    refine and_congr ?_ ?_
    · simp [CompiledDocument.isCurrent, CompiledDocument.stamp]
    · rw [List.forall_mem_map]
      exact forall₂_congr ih

end Snapshot

/-- Where `f` tells `g`, member by member, the list of the one tells the list of the other. -/
theorem map_eq_map_of_tells {α β γ : Type*} {f : α → β} {g : α → γ} {xs ys : List α}
    (tells : ∀ x ∈ xs, ∀ y ∈ ys, f x = f y → g x = g y) (h : xs.map f = ys.map f) :
    xs.map g = ys.map g := by
  induction xs generalizing ys with
  | nil =>
    cases ys with
    | nil => rfl
    | cons => simp at h
  | cons x xs ih =>
    cases ys with
    | nil => simp at h
    | cons y ys =>
      simp only [List.map_cons, List.cons.injEq] at h ⊢
      exact ⟨tells x (by simp) y (by simp) h.1,
        ih (fun x hx y hy => tells x (by simp [hx]) y (by simp [hy])) h.2⟩

namespace Job

namespace Inputs

def origin (i : Inputs) : Origin where
  project := i.project
  documents := i.documents.map (·.stamp)
  references := i.references.map (·.origin)

/-- What is hashed of a document. -/
def imprint (d : Document) : String × Nat := (d.path.text, d.version)

theorem documentFields_eq (documents : List Document) :
    documentFields documents =
      (documents.map imprint).flatMap fun x => Buffer.text x.1 ++ Buffer.number x.2 := by
  simp [documentFields, List.flatMap_map, imprint, Buffer.document, Buffer.path]

theorem map_imprint_eq_iff {ds es : List Document} :
    ds.map imprint = es.map imprint ↔
      (ds.map (·.stamp)).map (fun x => (x.1.reading, x.2)) = (es.map (·.stamp)).map fun x => (x.1.reading, x.2) := by
  have alike (d e : Document) :
      imprint d = imprint e ↔ (d.path.reading, d.version) = (e.path.reading, e.version) := by
    rw [imprint, imprint, Prod.mk.injEq, Prod.mk.injEq, Path.reading_eq_iff]
  rw [List.map_map, List.map_map]
  constructor
  · exact map_eq_map_of_tells fun d _ e _ => (alike d e).mp
  · exact map_eq_map_of_tells fun d _ e _ => (alike d e).mpr

theorem referenceFields_eq (references : List Snapshot) :
    referenceFields references = (references.map (·.digest)).flatMap Buffer.digest := by
  simp [referenceFields, List.flatMap_map]

/-- Of documents only paths as they read and versions are hashed, and of references only the digests. -/
theorem digest_congr {i j : Inputs} (project : i.project = j.project)
    (documents : i.documents.map imprint = j.documents.map imprint)
    (references : i.references.map (·.digest) = j.references.map (·.digest)) :
    i.digest = j.digest := by
  have counts : i.documents.length = j.documents.length := by
    simpa using congrArg List.length documents
  have counts' : i.references.length = j.references.length := by
    simpa using congrArg List.length references
  simp only [digest, buffer, documentFields_eq, referenceFields_eq, project, documents, references,
    counts, counts']

end Inputs

theorem stamps_parseAll {tc : Toolchain} {documents : List Document} {p : Parse}
    (h : parseAll tc documents = .ok p) :
    p.documents.map (·.stamp) = documents.map (·.stamp) := by
  induction documents generalizing p with
  | nil => cases h; rfl
  | cons d rest ih =>
    rw [parseAll] at h
    split at h
    · cases h
    · split at h
      · cases h
      · next parsed =>
        cases h
        simp only [List.map_cons, ih parsed]
        rfl

theorem stamps_yield {tc : Toolchain} {i : Inputs} {y : Yield} (h : i.yield tc = .ok y) :
    y.documents.map (·.stamp) = i.documents.map (·.stamp) := by
  unfold Inputs.yield at h
  split at h
  · cases h
  · next parsed =>
    split at h
    · cases h
    · cases h
      exact stamps_parseAll parsed

section Run

variable {tc : Toolchain} {j : Job} {s : Snapshot}

theorem project_of_run (h : j.run tc = .ok s) : s.project = j.inputs.project := by
  obtain ⟨y, -, -, rfl⟩ := run_eq_ok_iff.mp h
  rfl

theorem digest_of_run (h : j.run tc = .ok s) : s.digest = j.inputs.digest := by
  obtain ⟨y, -, -, rfl⟩ := run_eq_ok_iff.mp h
  rfl

theorem sequence_of_run (h : j.run tc = .ok s) : s.sequence = j.sequence := by
  obtain ⟨y, -, -, rfl⟩ := run_eq_ok_iff.mp h
  rfl

theorem clean_of_run (h : j.run tc = .ok s) : s.diagnostics.any (·.isError) = false := by
  obtain ⟨y, -, clean, rfl⟩ := run_eq_ok_iff.mp h
  exact clean

theorem origin_of_run (h : j.run tc = .ok s) : s.origin = j.inputs.origin := by
  obtain ⟨y, made, -, rfl⟩ := run_eq_ok_iff.mp h
  rw [Snapshot.origin_eq]
  simp only [snapshot, Inputs.origin, stamps_yield made]

end Run

end Job

/-! ## Digests and origins -/

/-- A snapshot that one of some toolchains made from inputs that were hashed, as were those of all its
references. -/
inductive Snapshot.Genuine (tools : Toolchain → Prop) (hashed : List Job.Inputs) : Snapshot → Prop where
  | run {tc : Toolchain} {j : Job} {s : Snapshot} (tool : tools tc) (asked : j.inputs ∈ hashed)
      (made : j.run tc = .ok s) (references : ∀ r ∈ j.inputs.references, Genuine tools hashed r) :
      Genuine tools hashed s

namespace Job.Inputs

variable {tools : Toolchain → Prop} {hashed : List Inputs}

theorem reading_origin_eq_iff {i j : Inputs} :
    i.origin.reading = j.origin.reading ↔
      i.project = j.project ∧ i.documents.map imprint = j.documents.map imprint ∧
        i.references.map (·.origin.reading) = j.references.map (·.origin.reading) := by
  rw [Origin.reading_eq, Origin.reading_eq, Origin.mk.injEq, map_imprint_eq_iff]
  simp only [origin, List.map_map, Function.comp_def]

theorem reading_eq {i j : Inputs} (free : CollisionFree hashed) (hi : i ∈ hashed) (hj : j ∈ hashed)
    (below : ∀ r ∈ i.references, ∀ r' ∈ j.references, r.digest = r'.digest → r.origin.reading = r'.origin.reading)
    (same : i.digest = j.digest) : i.origin.reading = j.origin.reading := by
  obtain ⟨project, documents, references⟩ := free.fields hi hj same
  exact reading_origin_eq_iff.mpr ⟨project, documents, map_eq_map_of_tells below references⟩

theorem digest_eq {i j : Inputs}
    (below : ∀ r ∈ i.references, ∀ r' ∈ j.references, r.origin.reading = r'.origin.reading → r.digest = r'.digest)
    (same : i.origin.reading = j.origin.reading) : i.digest = j.digest := by
  obtain ⟨project, documents, references⟩ := reading_origin_eq_iff.mp same
  exact digest_congr project documents (map_eq_map_of_tells below references)

/-- Inputs that were hashed, with references that were built from such. -/
structure Asked (tools : Toolchain → Prop) (hashed : List Inputs) (i : Inputs) : Prop where
  mem : i ∈ hashed
  references : ∀ r ∈ i.references, r.Genuine tools hashed

end Job.Inputs

namespace Snapshot

variable {tools : Toolchain → Prop} {hashed : List Job.Inputs} {s t : Snapshot}

theorem Genuine.mono {more : List Job.Inputs} (h : s.Genuine tools hashed)
    (sub : ∀ i ∈ hashed, i ∈ more) : s.Genuine tools more := by
  induction h with
  | run tool asked made _ ih => exact .run tool (sub _ asked) made ih

theorem Genuine.reading_eq (free : Job.Inputs.CollisionFree hashed) (hs : s.Genuine tools hashed)
    (ht : t.Genuine tools hashed) (same : s.digest = t.digest) : s.origin.reading = t.origin.reading := by
  induction hs generalizing t with
  | run _ asked made _ ih =>
    obtain ⟨_, asked', made', genuine'⟩ := ht
    rw [Job.digest_of_run made, Job.digest_of_run made'] at same
    rw [Job.origin_of_run made, Job.origin_of_run made']
    exact Job.Inputs.reading_eq free asked asked' (fun r hr r' hr' => ih r hr (genuine' r' hr')) same

theorem Genuine.digest_eq (hs : s.Genuine tools hashed) (ht : t.Genuine tools hashed)
    (same : s.origin.reading = t.origin.reading) : s.digest = t.digest := by
  induction hs generalizing t with
  | run _ _ made _ ih =>
    obtain ⟨_, _, made', genuine'⟩ := ht
    rw [Job.origin_of_run made, Job.origin_of_run made'] at same
    rw [Job.digest_of_run made, Job.digest_of_run made']
    exact Job.Inputs.digest_eq (fun r hr r' hr' => ih r hr (genuine' r' hr')) same

theorem Genuine.project_eq (free : Job.Inputs.CollisionFree hashed) (hs : s.Genuine tools hashed)
    (ht : t.Genuine tools hashed) (same : s.digest = t.digest) : s.project = t.project := by
  have alike := hs.reading_eq free ht same
  rw [Origin.reading_eq, Origin.reading_eq, Origin.mk.injEq, project_origin, project_origin] at alike
  exact alike.1

end Snapshot

namespace Job.Inputs.Asked

variable {tools : Toolchain → Prop} {hashed : List Inputs} {i j : Inputs}

theorem mono {more : List Inputs} (h : i.Asked tools hashed) (sub : ∀ i ∈ hashed, i ∈ more) :
    i.Asked tools more where
  mem := sub i h.mem
  references r hr := (h.references r hr).mono sub

theorem reading_eq (free : CollisionFree hashed) (hi : i.Asked tools hashed) (hj : j.Asked tools hashed)
    (same : i.digest = j.digest) : i.origin.reading = j.origin.reading :=
  Inputs.reading_eq free hi.mem hj.mem
    (fun r hr r' hr' => (hi.references r hr).reading_eq free (hj.references r' hr')) same

theorem digest_eq (hi : i.Asked tools hashed) (hj : j.Asked tools hashed)
    (same : i.origin.reading = j.origin.reading) : i.digest = j.digest :=
  Inputs.digest_eq (fun r hr r' hr' => (hi.references r hr).digest_eq (hj.references r' hr')) same

end Job.Inputs.Asked
end CodeWorkspace
