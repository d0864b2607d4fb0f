import CodeWorkspace.Path.Basic

/-! What a build system says of a solution. Nothing in it is checked yet. -/
namespace CodeWorkspace

structure Project where
  name : String
  /-- In compilation order. -/
  documents : List Path
  /-- Names of the projects that are referenced directly. -/
  references : List String
  deriving DecidableEq, Repr, Inhabited

structure Solution where
  /-- Where the solution was read from, if it came from a file. -/
  path : Option Path
  projects : List Project
  deriving DecidableEq, Repr, Inhabited

namespace Solution

def displayName (s : Solution) : String :=
  match s.path with
  | none => "<memory>"
  | some path => path.text

end Solution

def Project.lists (p : Project) (path : Path) : Bool := p.documents.any (·.same path)

end CodeWorkspace
