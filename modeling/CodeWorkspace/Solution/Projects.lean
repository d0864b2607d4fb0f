import CodeWorkspace.Error
import CodeWorkspace.Solution.Basic
import CodeWorkspace.Text.Lowercase

/-! The projects of a checked solution: no two names differ in case only, and references lead to projects of
the solution, whose own spelling they carry. References may go round in circles. -/
namespace CodeWorkspace

/-- Project names are compared in lowercase. -/
def projectKey (name : String) : String := Text.lowercase name

structure Projects where
  all : List Project
  deriving DecidableEq, Repr, Inhabited

namespace Projects

def findIn (projects : List Project) (name : String) : Option Project :=
  projects.find? (projectKey ·.name = projectKey name)

def find? (ps : Projects) (name : String) : Option Project := findIn ps.all name

def contains (ps : Projects) (name : String) : Bool := (ps.find? name).isSome

def resolve (ps : Projects) (name : String) : Except WorkspaceError Project :=
  match ps.find? name with
  | some p => .ok p
  | none => .error (.projectNotFound name)

def firstDuplicate (before : List Project) : List Project → Option Project
  | [] => none
  | p :: rest =>
    if (findIn before p.name).isSome then some p else firstDuplicate (before ++ [p]) rest

/-- The references of `project` as their targets are spelled. -/
def targets (projects : List Project) (project : Project) :
    List String → Except WorkspaceError (List String)
  | [] => .ok []
  | reference :: rest =>
    match findIn projects reference with
    | none => .error (.danglingReference project.name reference)
    | some target =>
      match targets projects project rest with
      | .error e => .error e
      | .ok names => .ok (target.name :: names)

def link (projects : List Project) : List Project → Except WorkspaceError (List Project)
  | [] => .ok []
  | p :: rest =>
    match targets projects p p.references with
    | .error e => .error e
    | .ok names =>
      match link projects rest with
      | .error e => .error e
      | .ok linked => .ok ({ p with references := names.eraseDups } :: linked)

/-- Names are checked before references; the first fault in the order of the solution counts. -/
def ofSolution (s : Solution) : Except WorkspaceError Projects :=
  match firstDuplicate [] s.projects with
  | some p => .error (.duplicateProject p.name)
  | none => (link s.projects s.projects).map Projects.mk

def owners (ps : Projects) (path : Path) : List Project := ps.all.filter (·.lists path)

end Projects
end CodeWorkspace
