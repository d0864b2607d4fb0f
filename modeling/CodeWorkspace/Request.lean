import CodeWorkspace.Job
import CodeWorkspace.Solution.Order

/-! One caller's way to a compiled project. The documents of all projects on the way are captured at its
beginning; then each project is asked for in compilation order, with the snapshots that came before it. -/
namespace CodeWorkspace

structure Request where
  name : String
  /-- Projects that are still needed, with their documents as captured. -/
  remaining : List (Project × List Document)
  /-- Snapshots by the names of their projects, the last one first. -/
  built : List (String × Snapshot) := []
  deriving Repr, Inhabited

namespace Request

inductive Demand where
  | finished (result : Except WorkspaceError Snapshot)
  | needs (inputs : Job.Inputs)
  deriving Repr, Inhabited

/-- The documents of all projects at one point in time. -/
def captureAll (store : Store) : List Project → Except WorkspaceError (List (Project × List Document))
  | [] => .ok []
  | p :: rest =>
    match store.capture p.documents with
    | .error e => .error e
    | .ok documents =>
      match captureAll store rest with
      | .error e => .error e
      | .ok more => .ok ((p, documents) :: more)

/-- Cycles and missing documents fail here, before anything is built. -/
def ofStore (projects : Projects) (store : Store) (name : String) : Except WorkspaceError Request :=
  match projects.compilationOrder name with
  | .error e => .error e
  | .ok order =>
    match captureAll store order with
    | .error e => .error e
    | .ok remaining => .ok { name, remaining }

def snapshot? (r : Request) (project : String) : Option Snapshot :=
  (r.built.find? (·.1 = project)).map (·.2)

def references (r : Request) : List String → Except WorkspaceError (List Snapshot)
  | [] => .ok []
  | name :: rest =>
    match r.snapshot? name with
    | none => .error (.projectNotFound name)
    | some s =>
      match r.references rest with
      | .error e => .error e
      | .ok more => .ok (s :: more)

def demand (r : Request) : Demand :=
  match r.remaining with
  | [] =>
    match r.built with
    | [] => .finished (.error (.projectNotFound r.name))
    | (_, s) :: _ => .finished (.ok s)
  | (p, documents) :: _ =>
    match r.references p.references with
    | .error e => .finished (.error e)
    | .ok references => .needs ⟨p.name, documents, references⟩

/-- The request once the project it needs next is there. -/
def advance (r : Request) (s : Snapshot) : Request :=
  match r.remaining with
  | [] => r
  | (p, _) :: rest => { r with remaining := rest, built := (p.name, s) :: r.built }

theorem remaining_advance_lt {r : Request} {i : Job.Inputs} (h : r.demand = .needs i) (s : Snapshot) :
    (r.advance s).remaining.length < r.remaining.length := by
  obtain ⟨name, remaining, built⟩ := r
  cases remaining with
  | nil => simp only [demand] at h; split at h <;> simp at h
  | cons => simp [advance]

end Request
end CodeWorkspace
