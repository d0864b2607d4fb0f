import CodeWorkspace.Disk.Basic
import CodeWorkspace.Manifest.Solution
import CodeWorkspace.Path.Relation
import CodeWorkspace.Store

/-! Filling a store from a disk, and finding out from a disk what a solution consists of. Loading is all or
nothing: if some file cannot be read, every such file is reported and no document is stored. -/
namespace CodeWorkspace

def unreadable (path : Path) (f : ReadFailure) : Diagnostic where
  severity := .error
  message := "failed to read " ++ path.text ++ ": " ++ f.message
  path := some path

def unscanned (path : Path) (f : ReadFailure) : Diagnostic where
  severity := .error
  message := "failed to scan: IO error for operation on " ++ path.text ++ ": " ++ f.message

namespace Disk

/-- The texts of the files that could be read, and reports on the others. -/
def readAll (disk : Disk) : List Path → List (Path × String) × List Diagnostic
  | [] => ([], [])
  | path :: rest =>
    let (texts, reports) := disk.readAll rest
    match disk.read path with
    | .ok text => ((path, text) :: texts, reports)
    | .error f => (texts, unreadable path f :: reports)

/-- The solution of a manifest. Its relative documents are seen from where the manifest stands. -/
def readSolution (disk : Disk) (path : Path) : Except WorkspaceError Solution :=
  match disk.read path with
  | .error f => .error (.workspaceLoad [unreadable path f])
  | .ok text =>
    match Solution.ofJson text with
    | .error e => .error e
    | .ok s =>
      let base := path.parent.getD ⟨""⟩
      .ok {
        path := some path
        projects := s.projects.map fun p => { p with documents := p.documents.map base.join } }

/-- A project of all files below a directory that have one of these extensions, in the order of paths.
If a directory on the way cannot be read, there is none. -/
def discover (disk : Disk) (name : String) (root : Path) (extensions : List String) :
    Except WorkspaceError Project :=
  match disk.scan root with
  | .noDirectory =>
    .error (.workspaceLoad [{ severity := .error, message := "Directory not found: " ++ root.text }])
  | .incomplete unreadable =>
    .error (.workspaceLoad (unreadable.map fun (path, f) => unscanned (root.join path) f))
  | .files files =>
    let isWanted (file : Path) : Bool := file.extension.any fun e => extensions.any (.ofText · = e)
    .ok {
      name := name
      documents := Path.sort ((files.filter isWanted).map root.join)
      references := [] }

end Disk

/-- Every document of a solution once, in the order of paths. -/
def Solution.documents (s : Solution) : List Path :=
  Path.dedup (Path.sort (s.projects.flatMap (·.documents)))

/-- What changes a store as it goes. Where it fails, what was changed before stays. -/
abbrev Storing := EStateM WorkspaceError Store

namespace Store

def putAll (s : Store) (texts : List (Path × String)) : Store :=
  texts.foldl (fun s (path, text) => s.put path text) s

def storing : List (Path × String) → Storing Unit
  | [] => pure ()
  | (path, text) :: rest => do
    modify (·.put path text)
    storing rest

/-- Stores the texts of files, and tells how many they are. A file given twice is stored twice. -/
def loading (disk : Disk) (paths : List Path) : Storing Nat := do
  let (texts, reports) := disk.readAll paths
  if reports ≠ [] then throw (.workspaceLoad reports)
  storing texts
  return texts.length

/-- Loads a solution, and tells the number of its documents. -/
def loadSolution (disk : Disk) (solution : Solution) : Storing Nat := loading disk solution.documents

/-- A load for hosts that keep the store they had where it fails. -/
def load (s : Store) (disk : Disk) (paths : List Path) : Except WorkspaceError (Store × Nat) :=
  match (loading disk paths).run s with
  | .ok count t => .ok (t, count)
  | .error e _ => .error e

end Store
end CodeWorkspace
