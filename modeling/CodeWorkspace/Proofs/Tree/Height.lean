import CodeWorkspace.Proofs.Tree.Preorder

/-! How many levels of nodes a forest has, and that no walk goes below them. -/
namespace CodeWorkspace.Node

mutual

/-- The number of levels of a subtree, that of its root included. -/
def height : Node → Nat
  | ⟨_, _, _, children⟩ => heightAll children + 1

def heightAll : List Node → Nat
  | [] => 0
  | n :: rest => max n.height (heightAll rest)

end

theorem height_eq (n : Node) : n.height = heightAll n.children + 1 := by cases n; rw [height]

@[simp] theorem heightAll_nil : heightAll [] = 0 := by rw [heightAll]

@[simp] theorem heightAll_cons (n : Node) (rest : List Node) :
    heightAll (n :: rest) = max (heightAll n.children + 1) (heightAll rest) := by rw [heightAll, height_eq]

@[simp] theorem heightAll_append (ns ms : List Node) :
    heightAll (ns ++ ms) = max (heightAll ns) (heightAll ms) := by
  induction ns with
  | nil => simp
  | cons n rest ih => simp [ih, Nat.max_assoc]

theorem depth_lt_of_mem_visitsAll {s : Surroundings} {ns : List Node} {v : Visit} (mem : v ∈ visitsAll s ns) :
    v.depth < s.depth + heightAll ns := by
  induction ns using forest_induction generalizing s with
  | nil => simp at mem
  | cons n rest children siblings =>
    rw [visitsAll_cons, visits_eq, List.cons_append, List.mem_cons, List.mem_append] at mem
    rw [heightAll_cons]
    rcases mem with rfl | below | beside
    · simp only [Surroundings.visit]
      omega
    · have := children below
      simp only [Surroundings.inside] at this
      omega
    · have := siblings beside
      omega

end CodeWorkspace.Node
