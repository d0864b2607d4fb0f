import CodeWorkspace.Error

/-! The texts of a session by path. Every write of a path gets the next version number, also when the
document was evicted in between; a store keeps one record for each place ever written. -/
namespace CodeWorkspace

/-- One version of a document, under the path it was last written to. -/
structure Document where
  path : Path
  text : String
  version : Nat
  deriving DecidableEq, Repr, Inhabited

namespace Store

/-- What a store knows of a place. The documents held and the versions kept of evicted ones might as well be two tables
with no place in both: the records with a document, and those without. -/
structure Record where
  /-- The first spelling used since the document was absent. -/
  path : Path
  /-- The version of the last write. -/
  version : Nat
  /-- What is held now, if the document was not evicted. -/
  held : Option Document
  deriving DecidableEq, Repr, Inhabited

end Store

structure Store where
  records : List Store.Record := []
  deriving DecidableEq, Repr, Inhabited

namespace Store

def record? (s : Store) (path : Path) : Option Record := s.records.find? (·.path.same path)

def get? (s : Store) (path : Path) : Option Document := (s.record? path).bind (·.held)

def version? (s : Store) (path : Path) : Option Nat := (s.get? path).map (·.version)

def contains (s : Store) (path : Path) : Bool := (s.get? path).isSome

/-- The version of the last write of a path, 0 if there was none. -/
def lastVersion (s : Store) (path : Path) : Nat :=
  match s.record? path with
  | none => 0
  | some r => r.version

/-- The record of a path after a write. -/
def Record.write (r : Record) (path : Path) (text : String) : Record where
  path := if r.held.isSome then r.path else path
  version := r.version + 1
  held := some ⟨path, text, r.version + 1⟩

def put (s : Store) (path : Path) (text : String) : Store :=
  match s.record? path with
  | none => ⟨s.records ++ [⟨path, 1, some ⟨path, text, 1⟩⟩]⟩
  | some _ => ⟨s.records.map fun r => if r.path.same path then r.write path text else r⟩

/-- Drops a document; its version is remembered. -/
def evict (s : Store) (path : Path) : Store :=
  ⟨s.records.map fun r => if r.path.same path then { r with held := none } else r⟩

/-- The paths of the documents held, in order. -/
def paths (s : Store) : List Path :=
  Path.sort ((s.records.filter (·.held.isSome)).map (·.path))

def read (s : Store) (path : Path) : Except WorkspaceError Document :=
  match s.get? path with
  | some d => .ok d
  | none => .error (.documentNotFound path)

/-- Several documents at one point in time; the first path that is missing fails. -/
def capture (s : Store) : List Path → Except WorkspaceError (List Document)
  | [] => .ok []
  | p :: rest =>
    match s.read p with
    | .error e => .error e
    | .ok d =>
      match s.capture rest with
      | .error e => .error e
      | .ok ds => .ok (d :: ds)

end Store
end CodeWorkspace
