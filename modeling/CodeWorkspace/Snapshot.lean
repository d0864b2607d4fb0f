import CodeWorkspace.Digest.Basic
import CodeWorkspace.Store
import CodeWorkspace.Toolchain.Basic

/-! Compiled projects. A snapshot never changes and holds the snapshots of its references, so that all it was
compiled from stays in reach. -/
namespace CodeWorkspace

structure CompiledDocument extends SourceUnit where
  /-- The version of the text that the tree was parsed from. -/
  version : Nat
  deriving Repr, Inhabited

structure Snapshot where
  project : String
  digest : Digest
  /-- Builds are numbered in the order of their start. -/
  sequence : Nat
  /-- In project order. -/
  documents : List CompiledDocument
  symbols : Symbols
  /-- What the build reported. None of it is an error. -/
  diagnostics : List Diagnostic
  references : List Snapshot
  deriving Repr, Inhabited

/-- Whether a store still holds the version that was compiled. -/
def CompiledDocument.isCurrent (store : Store) (d : CompiledDocument) : Bool :=
  store.version? d.path = some d.version

namespace Snapshot

def document? (s : Snapshot) (path : Path) : Option CompiledDocument :=
  s.documents.find? (·.path.same path)

/-- The projects a walk through references has met, and the snapshots it has left behind in order. -/
structure Reached where
  names : List String := []
  order : List Snapshot := []
  deriving Inhabited

mutual

/-- Goes below a snapshot first. A project that was met is not entered again. -/
def reach (r : Reached) : Snapshot → Reached
  | ⟨project, digest, sequence, documents, symbols, diagnostics, references⟩ =>
    if r.names.contains project then r
    else
      let below := reachAll { r with names := project :: r.names } references
      { below with
        order := below.order ++
          [⟨project, digest, sequence, documents, symbols, diagnostics, references⟩] }

def reachAll (r : Reached) : List Snapshot → Reached
  | [] => r
  | s :: rest => reachAll (reach r s) rest

end

theorem reach_eq (r : Reached) (s : Snapshot) :
    reach r s =
      if r.names.contains s.project then r
      else
        let below := reachAll { r with names := s.project :: r.names } s.references
        { below with order := below.order ++ [s] } := by
  cases s; rw [reach]

@[simp] theorem reachAll_nil (r : Reached) : reachAll r [] = r := by rw [reachAll]

@[simp] theorem reachAll_cons (r : Reached) (s : Snapshot) (rest : List Snapshot) :
    reachAll r (s :: rest) = reachAll (reach r s) rest := by rw [reachAll]

/-- The snapshot and all it was built on, each project once and behind its references. -/
def transitive (s : Snapshot) : List Snapshot := (reach {} s).order

mutual

/-- Whether every document that went into the snapshot is held in the version compiled. -/
def isCurrent (store : Store) : Snapshot → Bool
  | ⟨_, _, _, documents, _, _, references⟩ =>
    documents.all (·.isCurrent store) && areCurrent store references

def areCurrent (store : Store) : List Snapshot → Bool
  | [] => true
  | s :: rest => s.isCurrent store && areCurrent store rest

end

theorem isCurrent_eq (store : Store) (s : Snapshot) :
    s.isCurrent store = (s.documents.all (·.isCurrent store) && areCurrent store s.references) := by
  cases s; rw [isCurrent]

theorem areCurrent_eq_all (store : Store) (ss : List Snapshot) :
    areCurrent store ss = ss.all (·.isCurrent store) := by
  induction ss with
  | nil => rw [areCurrent]; rfl
  | cons s rest ih => rw [areCurrent, ih]; rfl

end Snapshot
end CodeWorkspace
