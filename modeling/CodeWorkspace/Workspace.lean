import CodeWorkspace.Engine
import CodeWorkspace.Solution.Loading
import CodeWorkspace.Text.Quoted

/-! A workspace: the texts of a session, what is compiled from them, and the projects that are opened
against them. -/
namespace CodeWorkspace

structure Config where
  /-- How long a caller waits for a build. -/
  buildTimeout : Duration := .ofSeconds 30
  /-- Whether the documents of a project are parsed side by side instead of in turn. -/
  parallelParse : Bool := true
  /-- How many threads carry out builds, 0 for as many as there are processors. -/
  buildThreads : Nat := 0
  /-- Whether opening a solution loads the documents that the store does not hold. -/
  loadFromDisk : Bool := false
  deriving DecidableEq, Repr, Inhabited

structure Workspace where
  config : Config := {}
  store : Store := {}
  engine : Engine := {}
  deriving Inhabited

/-- An open project. -/
structure Handle where
  /-- The name as the solution spells it. -/
  name : String
  projects : Projects
  deriving DecidableEq, Repr, Inhabited

/-- The form that logs show. -/
def Handle.render (h : Handle) : String :=
  "ProjectHandle \x7b name: " ++ Text.quote h.name ++ ", projects: " ++
    toString h.projects.all.length ++ " \x7d"

/-- The documents of projects that a store does not hold, each once and in the order of paths. -/
def Store.missing (s : Store) (projects : Projects) : List Path :=
  Path.dedup (Path.sort ((projects.all.flatMap (·.documents)).filter (!s.contains ·)))

namespace Workspace

/-- Checks a solution and, if a workspace is set up so, loads what its store misses. -/
def opening (config : Config) (disk : Disk) (s : Solution) : Storing Projects := do
  match Projects.ofSolution s with
  | .error e => throw e
  | .ok projects =>
    if config.loadFromDisk then
      let _ ← Store.loading disk ((← get).missing projects)
      return projects
    else return projects

def openSolution (w : Workspace) (disk : Disk) (s : Solution) :
    Except WorkspaceError (Projects × Workspace) :=
  match (opening w.config disk s).run w.store with
  | .ok projects store => .ok (projects, { w with store })
  | .error e _ => .error e

/-- The handle of a project whose name may be given in any case. What the solution misses is loaded even
if there is no such project. -/
def openProject (w : Workspace) (disk : Disk) (s : Solution) (name : String) :
    Except WorkspaceError Handle × Workspace :=
  match (opening w.config disk s).run w.store with
  | .error e store => (.error e, { w with store })
  | .ok projects store =>
    match projects.resolve name with
    | .error e => (.error e, { w with store })
    | .ok p => (.ok ⟨p.name, projects⟩, { w with store })

def cache (w : Workspace) : Cache := w.engine.cache

def withCache (w : Workspace) (cache : Cache) : Workspace := { w with engine := { w.engine with cache } }

/-- Compiles a project of a solution from the documents of a store. -/
def compile (run : Runner) (w : Workspace) (projects : Projects) (store : Store) (name : String) :
    Except WorkspaceError Snapshot × Workspace :=
  let (caller, engine) := w.engine.enter run projects store name
  let (result, engine) := engine.conclude w.config.buildTimeout caller
  (result, { w with engine })

/-- Several callers for one project at a time. All of them come before builds are carried out as in
`later`. -/
def compileTogether (run later : Runner) (w : Workspace) (projects : Projects) (store : Store)
    (name : String) (callers : Nat) : List (Except WorkspaceError Snapshot) × Workspace :=
  let enter (e : Engine) (_ : Unit) := e.enter run projects store name
  let (waiting, engine) := Engine.each enter w.engine (List.replicate callers ())
  let (waiting, engine) := Engine.each (Engine.resume later) (engine.settle later) waiting
  let (results, engine) := Engine.each (Engine.conclude w.config.buildTimeout) engine waiting
  (results, { w with engine })

end Workspace
end CodeWorkspace
