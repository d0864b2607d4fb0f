import CodeWorkspace.Error
import CodeWorkspace.Snapshot
import CodeWorkspace.Solution.Projects

/-! The build of one project. All it needs is captured beforehand, so it may run at any later time, and its
outcome depends on nothing else. -/
namespace CodeWorkspace

structure Job.Inputs where
  project : String
  /-- In project order. -/
  documents : List Document
  /-- The compiled direct references in the order of the project. -/
  references : List Snapshot
  deriving Repr, Inhabited

structure Job where
  inputs : Job.Inputs
  sequence : Nat
  deriving Repr, Inhabited

namespace Job

/-- Builds with one fingerprint have the same outcome, whoever asks for them. -/
structure Fingerprint where
  key : String
  digest : Digest
  deriving DecidableEq, Repr, Inhabited

namespace Inputs

def documentFields (documents : List Document) : Buffer :=
  documents.flatMap fun d => Buffer.document d.path d.version

def referenceFields (references : List Snapshot) : Buffer :=
  references.flatMap fun s => Buffer.digest s.digest

/-- The name, then the documents with their versions, then the digests of the references, which cover
their own references in turn. Lists have their length in front. -/
def buffer (i : Inputs) : Buffer :=
  Buffer.text i.project ++
    Buffer.number i.documents.length ++ documentFields i.documents ++
    Buffer.number i.references.length ++ referenceFields i.references

def digest (i : Inputs) : Digest := .ofBuffer i.buffer

def key (i : Inputs) : String := projectKey i.project

def fingerprint (i : Inputs) : Fingerprint := ⟨i.key, i.digest⟩

end Inputs

def fingerprint (j : Job) : Fingerprint := j.inputs.fingerprint

/-- The documents of a build once they are parsed, and what was reported on them. -/
structure Parse where
  documents : List CompiledDocument
  diagnostics : List Diagnostic
  deriving Repr, Inhabited

def compiled (d : Document) (parsed : Parsed) : CompiledDocument where
  path := d.path
  tree := parsed.tree
  lines := .ofText d.text
  version := d.version

/-- Parses documents in their order. The first breakdown ends it. -/
def parseAll (tc : Toolchain) : List Document → Except String Parse
  | [] => .ok ⟨[], []⟩
  | d :: rest =>
    match tc.parse d.path d.text with
    | .error detail => .error detail
    | .ok parsed =>
      match parseAll tc rest with
      | .error detail => .error detail
      | .ok p =>
        .ok ⟨compiled d parsed :: p.documents, parsed.diagnostics.map (·.within d.path) ++ p.diagnostics⟩

def bind (tc : Toolchain) (i : Inputs) (documents : List CompiledDocument) : Except String Bound :=
  tc.bind i.project (documents.map (·.toSourceUnit)) (i.references.map (·.symbols))

/-- What a build makes of its inputs. -/
structure Yield where
  documents : List CompiledDocument
  symbols : Symbols
  /-- Reports on the documents come before those of the binding. -/
  diagnostics : List Diagnostic
  deriving Repr, Inhabited

/-- Fails only where the toolchain breaks down. -/
def Inputs.yield (tc : Toolchain) (i : Inputs) : Except String Yield :=
  match parseAll tc i.documents with
  | .error detail => .error detail
  | .ok parse =>
    match bind tc i parse.documents with
    | .error detail => .error detail
    | .ok bound => .ok ⟨parse.documents, bound.symbols, parse.diagnostics ++ bound.diagnostics⟩

def breakdown (detail : String) : Diagnostic where
  severity := .error
  message := "toolchain panicked: " ++ detail

def snapshot (j : Job) (y : Yield) : Snapshot where
  project := j.inputs.project
  digest := j.inputs.digest
  sequence := j.sequence
  documents := y.documents
  symbols := y.symbols
  diagnostics := y.diagnostics
  references := j.inputs.references

/-- One error among the reports fails the build, which then carries them all. -/
def run (tc : Toolchain) (j : Job) : Except WorkspaceError Snapshot :=
  match j.inputs.yield tc with
  | .error detail => .error (.compilation j.inputs.project [breakdown detail])
  | .ok y =>
    if y.diagnostics.any (·.isError) then .error (.compilation j.inputs.project y.diagnostics)
    else .ok (j.snapshot y)

theorem run_eq_ok_iff {tc : Toolchain} {j : Job} {s : Snapshot} :
    j.run tc = .ok s ↔
      ∃ y, j.inputs.yield tc = .ok y ∧ y.diagnostics.any (·.isError) = false ∧ s = j.snapshot y := by
  unfold run
  cases made : j.inputs.yield tc with
  | error => simp
  | ok y =>
    constructor
    · intro h
      dsimp only at h
      split at h
      · cases h
      · next clean =>
        cases h
        exact ⟨y, rfl, Bool.eq_false_iff.mpr clean, rfl⟩
    · rintro ⟨_, h, clean, rfl⟩
      cases h
      dsimp only
      rw [clean]
      rfl

end Job
end CodeWorkspace
