import CodeWorkspace.Solution.Projects

/-! The order in which projects compile: a project comes behind everything it references. The search for it
keeps the path from its root, whose projects must not be met again, and the order so far. It needs no marks
beside them: the projects under visit are those on the path, and those it is done with are in the order. -/
namespace CodeWorkspace.Projects

def isNamed (projects : List Project) (name : String) : Bool := projects.any (·.name = name)

/-- The way round from a project on the path, the innermost first, back to itself. Nobody asks for it where the path
does not have the project. -/
def cycleOf (path : List Project) (name : String) : List String :=
  name :: ((path.takeWhile (·.name ≠ name)).reverse.map (·.name) ++ [name])

/-- The projects that the path has not reached. -/
def unreached (ps : Projects) (path : List Project) : List Project :=
  ps.all.filter fun q => !isNamed path q.name

theorem unreached_cons_lt {ps : Projects} {path : List Project} {p : Project}
    (found : p ∈ ps.all) (new : ¬isNamed path p.name = true) :
    (unreached ps (p :: path)).length < (unreached ps path).length := by
  have sub : unreached ps (p :: path) =
      (unreached ps path).filter fun q => !decide (p.name = q.name) := by
    simp only [unreached, isNamed, List.any_cons, List.filter_filter]
    congr 1
    funext q
    by_cases h : p.name = q.name <;> simp [h]
  rw [sub]
  refine Nat.lt_of_le_of_ne (List.length_filter_le ..) fun same => ?_
  have := List.length_filter_eq_length_iff.mp same p (by simp [unreached, found, new])
  simp at this

theorem mem_of_find? {ps : Projects} {name : String} {p : Project} (h : ps.find? name = some p) :
    p ∈ ps.all := List.mem_of_find?_eq_some h

/-- The order with the projects of these names, and all they reference, added at its end. -/
def extend (ps : Projects) (path : List Project) (order : List Project) :
    List String → Except WorkspaceError (List Project)
  | [] => .ok order
  | name :: rest =>
    match _found : ps.find? name with
    | none => .error (.projectNotFound name)
    | some p =>
      if isNamed order p.name then ps.extend path order rest
      else if _new : isNamed path p.name then .error (.cyclicReference (cycleOf path p.name))
      else
        match ps.extend (p :: path) order p.references with
        | .error e => .error e
        | .ok order => ps.extend path (order ++ [p]) rest
termination_by names => ((unreached ps path).length, names.length)
decreasing_by
  all_goals simp_wf
  · exact Prod.Lex.right _ (by simp)
  · exact Prod.Lex.left _ _ (unreached_cons_lt (mem_of_find? _found) _new)
  · exact Prod.Lex.right _ (by simp)

/-- The projects that `name` leads to, itself the last, each behind all that it references. -/
def compilationOrder (ps : Projects) (name : String) : Except WorkspaceError (List Project) :=
  ps.extend [] [] [name]

end CodeWorkspace.Projects
