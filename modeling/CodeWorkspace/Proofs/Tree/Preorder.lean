import CodeWorkspace.Tree.Walk
import Mathlib.Logic.Relation

/-! The nodes of a forest as a list, each before its descendants and siblings in order. Whatever else a walk
tells of them, these are the nodes that it visits. -/
namespace CodeWorkspace.Node

mutual

/-- A node and all below it. -/
def preorder : Node → List Node
  | ⟨kind, name, range, children⟩ => ⟨kind, name, range, children⟩ :: preorderAll children

def preorderAll : List Node → List Node
  | [] => []
  | n :: rest => n.preorder ++ preorderAll rest

end

theorem preorder_eq (n : Node) : n.preorder = n :: preorderAll n.children := by cases n; rw [preorder]

@[simp] theorem preorderAll_nil : preorderAll [] = [] := by rw [preorderAll]

@[simp] theorem preorderAll_cons (n : Node) (rest : List Node) :
    preorderAll (n :: rest) = n :: (preorderAll n.children ++ preorderAll rest) := by
  rw [preorderAll, preorder_eq, List.cons_append]

@[simp] theorem preorderAll_append (ns ms : List Node) :
    preorderAll (ns ++ ms) = preorderAll ns ++ preorderAll ms := by
  induction ns with
  | nil => simp
  | cons n rest ih => simp [ih]

/-- What holds of a forest if it holds of its first tree's children and of the other trees. -/
@[elab_as_elim]
theorem forest_induction {motive : List Node → Prop} (nil : motive [])
    (cons : ∀ n rest, motive n.children → motive rest → motive (n :: rest)) (ns : List Node) : motive ns :=
  match ns with
  | [] => nil
  | ⟨kind, name, range, children⟩ :: rest =>
    cons _ rest (forest_induction nil cons children) (forest_induction nil cons rest)

/-- A proper ancestor of the other node. -/
def IsAbove : Node → Node → Prop := Relation.TransGen fun parent child => child ∈ parent.children

theorem mem_preorderAll_of_mem {n : Node} {ns : List Node} (h : n ∈ ns) : n ∈ preorderAll ns := by
  induction ns with
  | nil => cases h
  | cons m rest ih =>
    rw [preorderAll_cons]
    cases h with
    | head => exact List.mem_cons_self
    | tail _ h => exact List.mem_cons_of_mem _ (List.mem_append_right _ (ih h))

theorem mem_preorderAll_of_child {parent child : Node} (h : child ∈ parent.children) {ns : List Node}
    (parent_mem : parent ∈ preorderAll ns) : child ∈ preorderAll ns := by
  induction ns using forest_induction with
  | nil => simp at parent_mem
  | cons n rest below beside =>
    simp only [preorderAll_cons, List.mem_cons, List.mem_append] at parent_mem ⊢
    rcases parent_mem with rfl | parent_mem | parent_mem
    · exact .inr (.inl (mem_preorderAll_of_mem h))
    · exact .inr (.inl (below parent_mem))
    · exact .inr (.inr (beside parent_mem))

theorem root_of_mem_preorderAll {n : Node} {ns : List Node} (h : n ∈ preorderAll ns) :
    ∃ root ∈ ns, n = root ∨ root.IsAbove n := by
  induction ns using forest_induction with
  | nil => simp at h
  | cons m rest below beside =>
    simp only [preorderAll_cons, List.mem_cons, List.mem_append] at h
    rcases h with rfl | h | h
    · exact ⟨n, List.mem_cons_self, .inl rfl⟩
    · obtain ⟨child, child_mem, rfl | above⟩ := below h
      · exact ⟨m, List.mem_cons_self, .inr (.single child_mem)⟩
      · exact ⟨m, List.mem_cons_self, .inr (.head child_mem above)⟩
    · obtain ⟨root, root_mem, above⟩ := beside h
      exact ⟨root, List.mem_cons_of_mem _ root_mem, above⟩

theorem isAbove_iff {a n : Node} : a.IsAbove n ↔ n ∈ preorderAll a.children := by
  constructor
  · intro above
    induction above with
    | single child => exact mem_preorderAll_of_mem child
    | tail _ child parent_mem => exact mem_preorderAll_of_child child parent_mem
  · intro h
    obtain ⟨child, child_mem, rfl | above⟩ := root_of_mem_preorderAll h
    · exact .single child_mem
    · exact .head child_mem above

theorem map_node_visitsAll (s : Surroundings) (ns : List Node) :
    (visitsAll s ns).map (·.node) = preorderAll ns := by
  induction ns using forest_induction generalizing s with
  | nil => simp
  | cons n rest children siblings =>
    simp [visits_eq, Surroundings.visit, children, siblings]

end CodeWorkspace.Node

namespace CodeWorkspace.Tree

def nodes (t : Tree) : List Node := t.visits.map (·.node)

theorem nodes_eq (t : Tree) : t.nodes = Node.preorderAll t.items := Node.map_node_visitsAll .top t.items

end CodeWorkspace.Tree

/-! ## Step by step -/

namespace CodeWorkspace.Walk

/-- All that is left to visit. -/
def visitsIn (levels : List (Surroundings × List Node)) : List Visit :=
  levels.flatMap fun level => Node.visitsAll level.1 level.2

theorem visitsIn_eq (levels : List (Surroundings × List Node)) :
    visitsIn levels =
      match nextIn levels with
      | none => []
      | some (v, levels') => v :: visitsIn levels' := by
  fun_induction nextIn levels with
  | case1 => rfl
  | case2 s outer ih =>
    rw [← ih]
    simp [visitsIn]
  | case3 s n rest outer =>
    by_cases leaf : n.children = []
    · simp [visitsIn, Node.visits_eq, leaf]
    · simp [visitsIn, Node.visits_eq, leaf]

theorem toList_eq (w : Walk) : w.toList = visitsIn w.levels := by
  fun_induction toList w with
  | case1 w h =>
    rw [visitsIn_eq, Option.map_eq_none_iff.mp h]
  | case2 w v w' h ih =>
    obtain ⟨⟨_, levels⟩, next, same⟩ := Option.map_eq_some_iff.mp h
    cases same
    rw [visitsIn_eq, next, ih]

/-- A walk from the top of a tree is what the recursion on the tree lists. -/
theorem toList_ofTree (t : Tree) : (ofTree t).toList = t.visits := by
  simp [toList_eq, visitsIn, ofTree, Tree.visits]

end CodeWorkspace.Walk
