import CodeWorkspace.Tree.Node

/-! Walking a tree in pre-order. `Tree.visits` lists the walk by recursion on the tree; a `Walk` is the
same walk as a cursor that yields one visit at a time and can be left at any point. -/
namespace CodeWorkspace

structure Surroundings where
  depth : Nat
  parent : Option Node
  /-- Dot-joined names of the named ancestors. -/
  qualifier : String
  /-- Whether some ancestor is a type. -/
  inType : Bool
  deriving Repr, Inhabited

structure Visit where
  node : Node
  depth : Nat
  parent : Option Node
  qualifiedName : String
  inType : Bool
  deriving Repr, Inhabited

namespace Surroundings

/-- Around the top-level nodes of a document. -/
def top : Surroundings := ⟨0, none, "", false⟩

/-- The name of `n` seen from here. An unnamed node adds nothing to its qualifier. -/
def qualify (s : Surroundings) (n : Node) : String :=
  match n.name with
  | none => s.qualifier
  | some name => if s.qualifier.isEmpty then name else s.qualifier ++ "." ++ name

def visit (s : Surroundings) (n : Node) : Visit := ⟨n, s.depth, s.parent, s.qualify n, s.inType⟩

/-- Around the children of `n`. -/
def inside (s : Surroundings) (n : Node) : Surroundings :=
  ⟨s.depth + 1, some n, s.qualify n, s.inType || n.kind.isTypeLike⟩

end Surroundings

namespace Node

mutual

def visits (s : Surroundings) : Node → List Visit
  | ⟨kind, name, range, children⟩ =>
    s.visit ⟨kind, name, range, children⟩ ::
      visitsAll (s.inside ⟨kind, name, range, children⟩) children

def visitsAll (s : Surroundings) : List Node → List Visit
  | [] => []
  | n :: rest => n.visits s ++ visitsAll s rest

end

theorem visits_eq (s : Surroundings) (n : Node) :
    n.visits s = s.visit n :: visitsAll (s.inside n) n.children := by cases n; rw [visits]

@[simp] theorem visitsAll_nil (s : Surroundings) : visitsAll s [] = [] := by rw [visitsAll]

@[simp] theorem visitsAll_cons (s : Surroundings) (n : Node) (rest : List Node) :
    visitsAll s (n :: rest) = n.visits s ++ visitsAll s rest := by rw [visitsAll]

end Node

def Tree.visits (t : Tree) : List Visit := Node.visitsAll .top t.items

/-- The unvisited rest of a walk: sibling lists still to be entered, innermost first. -/
structure Walk where
  levels : List (Surroundings × List Node)
  deriving Repr, Inhabited

namespace Walk

def ofTree (t : Tree) : Walk := ⟨[(.top, t.items)]⟩

/-- Nodes and levels that are left, which every step makes fewer. -/
def measure : List (Surroundings × List Node) → Nat
  | [] => 0
  | (_, nodes) :: outer => 2 * Node.sizeAll nodes + 1 + measure outer

def size (w : Walk) : Nat := measure w.levels

/-- The next visit and the walk after it. Children come before the siblings of their parent. -/
def nextIn : List (Surroundings × List Node) → Option (Visit × List (Surroundings × List Node))
  | [] => none
  | (_, []) :: outer => nextIn outer
  | (s, n :: rest) :: outer =>
    some (s.visit n,
      if n.children.isEmpty then (s, rest) :: outer
      else (s.inside n, n.children) :: (s, rest) :: outer)

def next? (w : Walk) : Option (Visit × Walk) := (nextIn w.levels).map fun (v, levels) => (v, ⟨levels⟩)

theorem measure_of_nextIn {levels levels' : List (Surroundings × List Node)} {v : Visit}
    (h : nextIn levels = some (v, levels')) : measure levels' < measure levels := by
  fun_induction nextIn levels with
  | case1 => simp at h
  | case2 s outer ih => have := ih h; simp only [measure]; omega
  | case3 s n rest outer =>
    simp only [Option.some.injEq, Prod.mk.injEq] at h
    obtain ⟨-, rfl⟩ := h
    have := n.size_eq
    split <;> simp only [measure, Node.sizeAll_cons] <;> omega

theorem size_of_next? {w w' : Walk} {v : Visit} (h : w.next? = some (v, w')) : w'.size < w.size := by
  obtain ⟨⟨v', levels⟩, hn, heq⟩ := Option.map_eq_some_iff.mp h
  cases heq
  exact measure_of_nextIn hn

def toList (w : Walk) : List Visit :=
  match _h : w.next? with
  | none => []
  | some (v, w') => v :: w'.toList
termination_by w.size
decreasing_by exact size_of_next? _h

theorem toList_of_next?_none {w : Walk} (h : w.next? = none) : w.toList = [] := by
  rw [toList]
  split
  · rfl
  · simp_all

theorem toList_of_next? {w w' : Walk} {v : Visit} (h : w.next? = some (v, w')) :
    w.toList = v :: w'.toList := by
  rw [toList]
  split
  · simp_all
  · next h' =>
    rw [h] at h'
    cases h'
    rfl

end Walk
end CodeWorkspace
