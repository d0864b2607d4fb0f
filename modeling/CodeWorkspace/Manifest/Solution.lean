import CodeWorkspace.Error
import CodeWorkspace.Manifest.Value
import CodeWorkspace.Solution.Basic

/-! Solutions as JSON manifests. A reader takes what a manifest says in its order and stops at the first
fault. Members it does not know are passed over; an array may stand for an object, with the members in their
order, and those at its end that an object may lack may be missing. -/
namespace CodeWorkspace.Manifest

inductive Fault where
  | missing (name : String)
  | duplicate (name : String)
  | malformed
  deriving DecidableEq, Repr

def Fault.message : Fault → String
  | missing name => "missing field `" ++ name ++ "`"
  | duplicate name => "duplicate field `" ++ name ++ "`"
  | malformed => ""

abbrev Reader (α : Type) := Value → Except Fault α

def readText : Reader String
  | .text (some s) => .ok s
  | _ => .error .malformed

def readPath : Reader Path := fun v => (readText v).map (⟨·⟩)

def readPath? : Reader (Option Path)
  | .null => .ok none
  | v => (readPath v).map some

def readItems (read : Reader α) : List Value → Except Fault (List α)
  | [] => .ok []
  | v :: rest => do
    let a ← read v
    let as ← readItems read rest
    return a :: as

/-- What stands behind the last part of an array or object: its end, unless the text breaks off. -/
def checkClosed (closed : Bool) : Except Fault Unit :=
  if closed then .ok () else .error .malformed

def readList (read : Reader α) : Reader (List α)
  | .array items closed => do
    let as ← readItems read items
    checkClosed closed
    return as
  | _ => .error .malformed

/-- Takes in the members of an object in their order. A key that is no text is a fault. -/
def readMembers (member : σ → String → Value → Except Fault σ) (state : σ) :
    List (Option String × Value) → Except Fault σ
  | [] => .ok state
  | (none, _) :: _ => .error .malformed
  | (some key, v) :: rest => do
    let state ← member state key v
    readMembers member state rest

/-- The value of a member that must not be there yet. -/
def readOnce (key : String) (before : Option α) (read : Reader α) : Reader (Option α) := fun v =>
  if before.isSome then .error (.duplicate key) else (read v).map some

def skip (v : Value) : Except Fault Unit := checkClosed v.isWhole

def require (key : String) : Option α → Except Fault α
  | some a => .ok a
  | none => .error (.missing key)

structure ProjectMembers where
  name : Option String := none
  documents : Option (List Path) := none
  references : Option (List String) := none

def readProjectMember (p : ProjectMembers) (key : String) (v : Value) : Except Fault ProjectMembers :=
  if key = "name" then do return { p with name := ← readOnce key p.name readText v }
  else if key = "documents" then do
    return { p with documents := ← readOnce key p.documents (readList readPath) v }
  else if key = "references" then do
    return { p with references := ← readOnce key p.references (readList readText) v }
  else do
    skip v
    return p

def readProject : Reader Project
  | .object members closed => do
    let p ← readMembers readProjectMember {} members
    checkClosed closed
    return ⟨← require "name" p.name, p.documents.getD [], p.references.getD []⟩
  | .array items closed => do
    match items with
    | [] => throw .malformed
    | name :: rest =>
      let name ← readText name
      let documents ← match rest with
        | [] => pure []
        | v :: _ => readList readPath v
      let references ← match rest with
        | _ :: v :: _ => readList readText v
        | _ => pure []
      checkClosed (closed && rest.length ≤ 2)
      return ⟨name, documents, references⟩
  | _ => .error .malformed

structure SolutionMembers where
  path : Option (Option Path) := none
  projects : Option (List Project) := none

def readSolutionMember (s : SolutionMembers) (key : String) (v : Value) : Except Fault SolutionMembers :=
  if key = "path" then do return { s with path := ← readOnce key s.path readPath? v }
  else if key = "projects" then do
    return { s with projects := ← readOnce key s.projects (readList readProject) v }
  else do
    skip v
    return s

def readSolution : Reader Solution
  | .object members closed => do
    let s ← readMembers readSolutionMember {} members
    checkClosed closed
    return ⟨s.path.getD none, ← require "projects" s.projects⟩
  | .array items closed => do
    match items with
    | path :: projects :: rest =>
      let path ← readPath? path
      let projects ← readList readProject projects
      checkClosed (closed && rest.isEmpty)
      return ⟨path, projects⟩
    | _ => throw .malformed
  | _ => .error .malformed

def read (text : String) : Except Fault Solution := do
  let (v, goesOn) := ofText text
  let s ← readSolution v
  checkClosed !goesOn
  return s

/-- A new line at a depth of two spaces each. -/
def newline (depth : Nat) : List Char := '\n' :: List.replicate (2 * depth) ' '

/-- The items of a list, one a line, between brackets on the lines around them. -/
def printList (depth : Nat) (print : α → List Char) : List α → List Char
  | [] => ['[', ']']
  | a :: rest =>
    ['['] ++ newline (depth + 1) ++ print a ++
      rest.flatMap (fun a => [','] ++ newline (depth + 1) ++ print a) ++ newline depth ++ [']']

def printMember (depth : Nat) (key : String) (value : List Char) : List Char :=
  newline depth ++ printText key ++ [':', ' '] ++ value

def printProject (depth : Nat) (p : Project) : List Char :=
  ['{'] ++ printMember (depth + 1) "name" (printText p.name) ++ [','] ++
    printMember (depth + 1) "documents" (printList (depth + 1) (fun d => printText d.text) p.documents) ++
    [','] ++ printMember (depth + 1) "references" (printList (depth + 1) printText p.references) ++
    newline depth ++ ['}']

def printPath? : Option Path → List Char
  | none => ['n', 'u', 'l', 'l']
  | some path => printText path.text

def printSolution (s : Solution) : List Char :=
  ['{'] ++ printMember 1 "path" (printPath? s.path) ++ [','] ++
    printMember 1 "projects" (printList 1 (printProject 2) s.projects) ++ newline 0 ++ ['}']

end CodeWorkspace.Manifest

namespace CodeWorkspace.Solution

/-- The solution that a manifest describes. -/
def ofJson (text : String) : Except WorkspaceError Solution :=
  match Manifest.read text with
  | .ok s => .ok s
  | .error fault =>
    .error (.workspaceLoad [{
      severity := .error, message := "invalid solution manifest: " ++ fault.message }])

def toJson (s : Solution) : String := String.ofList (Manifest.printSolution s)

/-- Where the solution was read from, and its documents as often as they are listed. -/
def paths (s : Solution) : List Path := s.path.toList ++ s.projects.flatMap (·.documents)

/-- The manifest of a solution, in which only paths can stand that are texts. -/
def serialize (s : Solution) : Except WorkspaceError String :=
  if s.paths.all (·.isText) then .ok s.toJson
  else .error (.workspaceLoad [{
    severity := .error
    message := "failed to serialize solution manifest: path contains invalid UTF-8 characters" }])

end CodeWorkspace.Solution
