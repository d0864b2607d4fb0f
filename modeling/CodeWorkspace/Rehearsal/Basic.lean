import CodeWorkspace.Rehearsal.Crew
import CodeWorkspace.Rehearsal.Script
import CodeWorkspace.Workspace

/-! A workspace over the scripted toolchain, whose builds are under control: a document is held until the gates
are open that it waits for, and builds get on as far as free threads can take them. -/
namespace CodeWorkspace

structure Rehearsal where
  workspace : Workspace := {}
  opened : List String := []
  deriving Inhabited

namespace Rehearsal

def fate (r : Rehearsal) (d : Document) : Fate :=
  let directives := Directive.ofText d.text
  if Directive.areHeld r.opened directives then .held
  else if directives.any (·.isCrash) then .crashed
  else .parsed

/-- The threads of a workspace that leaves their number open. -/
def processors : Nat := 8

/-- Documents that are parsed in turn are all meant for one thread. -/
def crew (r : Rehearsal) : Crew :=
  let config := r.workspace.config
  let threads := if config.buildThreads = 0 then processors else config.buildThreads
  ⟨threads, if config.parallelParse then threads else 0, r.fate⟩

/-- Whether a build comes to its end among those that are under way. -/
def hasEnded (r : Rehearsal) (running : List Job) (j : Job) : Bool :=
  (r.crew.standings running).any fun (other, standing) =>
    other.sequence = j.sequence && standing.isThrough

def runner (r : Rehearsal) : Runner := ⟨.scripted, r.hasEnded⟩

def opening (r : Rehearsal) (gate : String) : Rehearsal := { r with opened := gate :: r.opened }

/-- Opens a gate and lets the builds go on that it held back. -/
def release (r : Rehearsal) (gate : String) : Rehearsal :=
  let r := r.opening gate
  { r with workspace := { r.workspace with engine := r.workspace.engine.settle r.runner } }

/-- Where all builds stand that were ever started. Gates are never closed, so those that ended still do. -/
def standings (r : Rehearsal) : List (Job × Crew.Standing) :=
  r.crew.standings r.workspace.engine.started

/-- How many documents the parser has been given in all. -/
def parses (r : Rehearsal) : Nat := r.standings.foldl (fun n (_, standing) => n + standing.begun) 0

/-- How many projects the binder has been given. It comes after the last document, and only if all of them
were parsed. -/
def binds (r : Rehearsal) : Nat :=
  (r.standings.filter fun (j, standing) =>
    standing.isThrough && j.inputs.documents.all (r.fate · = .parsed)).length

def compile (r : Rehearsal) (projects : Projects) (store : Store) (name : String) :
    Except WorkspaceError Snapshot × Rehearsal :=
  let (result, workspace) := r.workspace.compile r.runner projects store name
  (result, { r with workspace })

/-- Several callers at a time. A gate is opened when all of them have come. -/
def compileTogether (r : Rehearsal) (projects : Projects) (store : Store) (name : String)
    (callers : Nat) (gate : String) : List (Except WorkspaceError Snapshot) × Rehearsal :=
  let later := r.opening gate
  let (results, workspace) :=
    r.workspace.compileTogether r.runner later.runner projects store name callers
  (results, { later with workspace })

end Rehearsal
end CodeWorkspace
