import CodeWorkspace.Proofs.Snapshot.Origin

/-! What a snapshot holds apart from the numbers of the builds it came from. One toolchain makes the same of the
same texts, so where what is hashed of a document tells the document, a digest tells the whole content. -/
namespace CodeWorkspace

namespace Snapshot

mutual

/-- The snapshot and all below it without the numbers of their builds. -/
def unnumbered : Snapshot → Snapshot
  | ⟨project, digest, _, documents, symbols, diagnostics, references⟩ =>
    ⟨project, digest, 0, documents, symbols, diagnostics, allUnnumbered references⟩

def allUnnumbered : List Snapshot → List Snapshot
  | [] => []
  | s :: rest => s.unnumbered :: allUnnumbered rest

end

theorem allUnnumbered_eq_map (ss : List Snapshot) : allUnnumbered ss = ss.map unnumbered := by
  induction ss with
  | nil => rw [allUnnumbered]; rfl
  | cons s rest ih => rw [allUnnumbered, ih]; rfl

theorem unnumbered_eq (s : Snapshot) :
    s.unnumbered = { s with sequence := 0, references := s.references.map unnumbered } := by
  cases s
  rw [unnumbered, allUnnumbered_eq_map]

@[simp] theorem digest_unnumbered (s : Snapshot) : s.unnumbered.digest = s.digest := by
  rw [unnumbered_eq]

@[simp] theorem symbols_unnumbered (s : Snapshot) : s.unnumbered.symbols = s.symbols := by
  rw [unnumbered_eq]

@[simp] theorem diagnostics_unnumbered (s : Snapshot) : s.unnumbered.diagnostics = s.diagnostics := by
  rw [unnumbered_eq]

end Snapshot

/-- An outcome without the numbers of builds. -/
def unnumbered (result : Except WorkspaceError Snapshot) : Except WorkspaceError Snapshot :=
  result.map (·.unnumbered)

namespace Job

def Inputs.unnumbered (i : Inputs) : Inputs := { i with references := i.references.map (·.unnumbered) }

@[simp] theorem Inputs.digest_unnumbered (i : Inputs) : i.unnumbered.digest = i.digest :=
  digest_congr rfl rfl (by simp [unnumbered])

/-- Of references only the symbols count. -/
theorem Inputs.yield_unnumbered (tc : Toolchain) (i : Inputs) : i.unnumbered.yield tc = i.yield tc := by
  have symbols : (i.references.map (·.unnumbered)).map (·.symbols) = i.references.map (·.symbols) := by
    simp
  unfold Inputs.yield bind Inputs.unnumbered
  simp only [symbols]

private theorem unnumbered_run (tc : Toolchain) (i : Inputs) (n : Nat) :
    CodeWorkspace.unnumbered (run tc ⟨i, n⟩) = run tc ⟨i.unnumbered, 0⟩ := by
  unfold run
  dsimp only
  rw [Inputs.yield_unnumbered]
  cases i.yield tc with
  | error => rfl
  | ok y =>
    dsimp only
    split
    · rfl
    · simp only [CodeWorkspace.unnumbered, Except.map, snapshot, Snapshot.unnumbered_eq,
        Inputs.digest_unnumbered]
      rfl

/-- Builds of alike inputs come out alike, whatever their numbers. -/
theorem unnumbered_run_congr (tc : Toolchain) {i j : Job}
    (same : i.inputs.unnumbered = j.inputs.unnumbered) :
    CodeWorkspace.unnumbered (i.run tc) = CodeWorkspace.unnumbered (j.run tc) := by
  obtain ⟨i, n⟩ := i
  obtain ⟨j, m⟩ := j
  rw [unnumbered_run, unnumbered_run, same]

end Job

/-! ## Content from digests -/

/-- Among all that is hashed, a path as it reads and a version tell the document. -/
def Job.Inputs.ImprintsTell (hashed : List Inputs) : Prop :=
  ∀ i ∈ hashed, ∀ j ∈ hashed, ∀ d ∈ i.documents, ∀ d' ∈ j.documents, imprint d = imprint d' → d = d'

section Determined

variable {tc : Toolchain} {hashed : List Job.Inputs}

theorem Job.Inputs.unnumbered_eq {i j : Inputs} (free : CollisionFree hashed) (tell : ImprintsTell hashed)
    (hi : i ∈ hashed) (hj : j ∈ hashed)
    (below : ∀ r ∈ i.references, ∀ r' ∈ j.references, r.digest = r'.digest → r.unnumbered = r'.unnumbered)
    (same : i.digest = j.digest) : i.unnumbered = j.unnumbered := by
  obtain ⟨project, imprints, digests⟩ := free.fields hi hj same
  have documents : i.documents.map id = j.documents.map id :=
    map_eq_map_of_tells (tell i hi j hj) imprints
  have references := map_eq_map_of_tells below digests
  obtain ⟨_, _, _⟩ := i
  obtain ⟨_, _, _⟩ := j
  simp only [List.map_id] at documents
  simp only [unnumbered, Inputs.mk.injEq]
  exact ⟨project, documents, references⟩

theorem Snapshot.Genuine.unnumbered_eq (free : Job.Inputs.CollisionFree hashed)
    (tell : Job.Inputs.ImprintsTell hashed) {s t : Snapshot} (hs : s.Genuine (· = tc) hashed)
    (ht : t.Genuine (· = tc) hashed) (same : s.digest = t.digest) : s.unnumbered = t.unnumbered := by
  induction hs generalizing t with
  | run tool asked made _ ih =>
    obtain ⟨tool', asked', made', genuine'⟩ := ht
    rw [show _ = tc from tool] at made
    rw [show _ = tc from tool'] at made'
    rw [Job.digest_of_run made, Job.digest_of_run made'] at same
    have alike := Job.Inputs.unnumbered_eq free tell asked asked'
      (fun r hr r' hr' => ih r hr (genuine' r' hr')) same
    have results := Job.unnumbered_run_congr tc alike
    rw [made, made'] at results
    exact Except.ok.inj results

theorem Job.Inputs.Asked.unnumbered_eq (free : CollisionFree hashed) (tell : ImprintsTell hashed)
    {i j : Inputs} (hi : i.Asked (· = tc) hashed) (hj : j.Asked (· = tc) hashed)
    (same : i.digest = j.digest) : i.unnumbered = j.unnumbered :=
  Inputs.unnumbered_eq free tell hi.mem hj.mem
    (fun r hr r' hr' => (hi.references r hr).unnumbered_eq free tell (hj.references r' hr')) same

end Determined
end CodeWorkspace
