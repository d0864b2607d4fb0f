import CodeWorkspace.Proofs.Outline.Declarations
import Mathlib.Data.List.Forall2

/-! Where the nodes of a tree stand, and that a walk tells the ancestry of each. A place names a top-level node, one of
its children, and so on down. Places compare as lists do: a node comes before those below it, and those come before
its later siblings. -/
namespace CodeWorkspace

namespace Node

/-- The node at a place below this one, behind its ancestors from here on, the outermost first. -/
def lineage? (n : Node) : List Nat → Option (List Node × Node)
  | [] => some ([], n)
  | i :: place => (n.children[i]?.bind (·.lineage? place)).map fun found => (n :: found.1, found.2)

/-- The same in a forest, where nothing stands at the empty place. -/
def lineageIn? (nodes : List Node) : List Nat → Option (List Node × Node)
  | [] => none
  | i :: place => nodes[i]?.bind (·.lineage? place)

@[simp] theorem lineage?_nil (n : Node) : n.lineage? [] = some ([], n) := rfl

theorem lineage?_cons (n : Node) (i : Nat) (place : List Nat) :
    n.lineage? (i :: place) = (lineageIn? n.children (i :: place)).map fun found => (n :: found.1, found.2) := rfl

mutual

/-- The places of a node and all below it, as seen from the node. -/
def places : Node → List (List Nat)
  | ⟨_, _, _, children⟩ => [] :: placesFrom 0 children

/-- The places of a forest whose first tree is numbered `first`. -/
def placesFrom (first : Nat) : List Node → List (List Nat)
  | [] => []
  | n :: rest => n.places.map (first :: ·) ++ placesFrom (first + 1) rest

end

theorem places_eq (n : Node) : n.places = [] :: placesFrom 0 n.children := by cases n; rw [places]

@[simp] theorem placesFrom_nil (first : Nat) : placesFrom first [] = [] := by rw [placesFrom]

@[simp] theorem placesFrom_cons (first : Nat) (n : Node) (rest : List Node) :
    placesFrom first (n :: rest) =
      [first] :: ((placesFrom 0 n.children).map (first :: ·) ++ placesFrom (first + 1) rest) := by
  rw [placesFrom, places_eq, List.map_cons, List.cons_append]

theorem le_of_mem_placesFrom {first : Nat} {ns : List Node} {place : List Nat} (mem : place ∈ placesFrom first ns) :
    ∃ i rest, place = i :: rest ∧ first ≤ i := by
  induction ns generalizing first with
  | nil => simp at mem
  | cons n rest ih =>
    rw [placesFrom_cons, List.mem_cons, List.mem_append, List.mem_map] at mem
    rcases mem with rfl | ⟨below, -, rfl⟩ | mem
    · exact ⟨first, [], rfl, Nat.le_refl _⟩
    · exact ⟨first, below, rfl, Nat.le_refl _⟩
    · obtain ⟨i, rest, rfl, le⟩ := ih mem
      exact ⟨i, rest, rfl, by omega⟩

theorem pairwise_placesFrom (first : Nat) (ns : List Node) : (placesFrom first ns).Pairwise (· < ·) := by
  induction ns using forest_induction generalizing first with
  | nil => simp
  | cons n rest children siblings =>
    rw [placesFrom_cons, List.pairwise_cons, List.pairwise_append, List.pairwise_map]
    have later {place : List Nat} (mem : place ∈ placesFrom (first + 1) rest) (below : List Nat) :
        first :: below < place := by
      obtain ⟨i, rest, rfl, le⟩ := le_of_mem_placesFrom mem
      exact List.cons_lt_cons_iff.mpr (.inl (by omega))
    refine ⟨List.forall_mem_append.mpr ⟨?_, fun place mem => later mem []⟩, ?_, siblings _, ?_⟩
    · intro _ mem
      obtain ⟨below, inside, rfl⟩ := List.mem_map.mp mem
      obtain ⟨i, rest, rfl, -⟩ := le_of_mem_placesFrom inside
      exact List.cons_lt_cons_iff.mpr (.inr ⟨rfl, List.nil_lt_cons i rest⟩)
    · exact (children 0).imp fun lt => List.cons_lt_cons_iff.mpr (.inr ⟨rfl, lt⟩)
    · intro _ mem place mem'
      obtain ⟨below, -, rfl⟩ := List.mem_map.mp mem
      exact later mem' below

theorem mem_placesFrom_of_isSome {ns : List Node} {i : Nat} {place : List Nat}
    (found : (lineageIn? ns (i :: place)).isSome = true) (first : Nat) :
    (first + i) :: place ∈ placesFrom first ns := by
  induction ns using forest_induction generalizing i place first with
  | nil => simp [lineageIn?] at found
  | cons n rest children siblings =>
    rw [placesFrom_cons, List.mem_cons, List.mem_append, List.mem_map]
    cases i with
    | zero =>
      cases place with
      | nil => exact .inl rfl
      | cons j below =>
        have inside : (lineageIn? n.children (j :: below)).isSome = true := by
          rw [← Option.isSome_map]
          exact found
        exact .inr (.inl ⟨j :: below, by simpa using children inside 0, rfl⟩)
    | succ i =>
      have further : (lineageIn? rest (i :: place)).isSome = true := by simpa [lineageIn?] using found
      have beside := siblings further (first + 1)
      rw [Nat.add_assoc, Nat.add_comm 1 i] at beside
      exact .inr (.inr beside)

end Node

def Tree.lineage? (t : Tree) (place : List Nat) : Option (List Node × Node) := Node.lineageIn? t.items place

def Tree.places (t : Tree) : List (List Nat) := Node.placesFrom 0 t.items

/-! ## What a visit tells -/

/-- A visit of `n` tells it and its proper ancestors, the outermost first. -/
structure Visit.Tells (v : Visit) (above : List Node) (n : Node) : Prop where
  node : v.node = n
  depth : v.depth = above.length
  parent : v.parent = above.getLast?
  inType : v.inType = true ↔ ∃ a ∈ above, a.kind.isTypeLike = true
  qualifiedName : v.qualifiedName = ".".intercalate ((above ++ [n]).filterMap (·.name))

theorem intercalate_concat (separator last : String) (front : List String) :
    separator.intercalate (front ++ [last]) =
      if front = [] then last else separator.intercalate front ++ separator ++ last := by
  induction front with
  | nil => simp
  | cons first rest ih => cases rest <;> simp_all [String.append_assoc]

theorem isEmpty_intercalate {names : List String} (filled : ∀ name ∈ names, name ≠ "") :
    (".".intercalate names).isEmpty = names.isEmpty := by
  match names with
  | [] => rfl
  | [name] => simpa using filled
  | name :: next :: rest => simp

namespace Surroundings

/-- What is inside these nodes, the outermost first, none of which has an empty name. -/
structure Within (s : Surroundings) (above : List Node) : Prop where
  depth : s.depth = above.length
  parent : s.parent = above.getLast?
  inType : s.inType = true ↔ ∃ a ∈ above, a.kind.isTypeLike = true
  qualifier : s.qualifier = ".".intercalate (above.filterMap (·.name))
  named : ∀ a ∈ above, a.name ≠ some ""

namespace Within

theorem top : Within .top [] := ⟨rfl, rfl, by simp [Surroundings.top], rfl, by simp⟩

variable {s : Surroundings} {above : List Node} {n : Node}

/-- An empty qualifier gets no dot behind it, and is empty only where no node around has a name. -/
theorem qualify (h : s.Within above) (n : Node) :
    s.qualify n = ".".intercalate ((above ++ [n]).filterMap (·.name)) := by
  have filled : ∀ name ∈ above.filterMap (·.name), name ≠ "" := by
    intro name mem
    obtain ⟨a, a_mem, a_name⟩ := List.mem_filterMap.mp mem
    rintro rfl
    exact h.named a a_mem a_name
  unfold Surroundings.qualify
  rw [List.filterMap_append, h.qualifier]
  cases name : n.name with
  | none => simp [name]
  | some name' => simp [name, intercalate_concat, isEmpty_intercalate filled]

theorem tells (h : s.Within above) (n : Node) : (s.visit n).Tells above n :=
  ⟨rfl, h.depth, h.parent, h.inType, h.qualify n⟩

theorem inside (h : s.Within above) (named : n.name ≠ some "") : (s.inside n).Within (above ++ [n]) where
  depth := by simp [Surroundings.inside, h.depth]
  parent := by simp [Surroundings.inside]
  inType := by simp [Surroundings.inside, h.inType, or_and_right, exists_or]
  qualifier := h.qualify n
  named := by
    intro a mem
    rcases List.mem_append.mp mem with mem | mem
    · exact h.named a mem
    · rwa [List.mem_singleton.mp mem]

end Within
end Surroundings

theorem exists_of_forall₂ {α β : Type} {R : α → β → Prop} {xs : List α} {ys : List β} (h : List.Forall₂ R xs ys)
    {x : α} (mem : x ∈ xs) : ∃ y ∈ ys, R x y := by
  induction h with
  | nil => cases mem
  | cons here _ ih =>
    cases mem with
    | head => exact ⟨_, List.mem_cons_self, here⟩
    | tail _ mem =>
      obtain ⟨y, y_mem, related⟩ := ih mem
      exact ⟨y, List.mem_cons_of_mem _ y_mem, related⟩

/-- The walk of a forest goes from place to place. `before` are the trees in front of it, `above` what it is inside. -/
theorem Node.forall₂_visitsAll {s : Surroundings} {above : List Node} (within : s.Within above) {ns : List Node}
    (named : ∀ n ∈ preorderAll ns, n.name ≠ some "") (before : List Node) :
    List.Forall₂ (fun place v => ∃ below n,
        lineageIn? (before ++ ns) place = some (below, n) ∧ Visit.Tells v (above ++ below) n)
      (placesFrom before.length ns) (visitsAll s ns) := by
  induction ns using forest_induction generalizing s above before with
  | nil => simp
  | cons n rest children siblings =>
    rw [preorderAll_cons, List.forall_mem_cons, List.forall_mem_append] at named
    obtain ⟨own, inner, outer⟩ := named
    have here : (before ++ n :: rest)[before.length]? = some n := by simp
    rw [placesFrom_cons, visitsAll_cons, visits_eq, List.cons_append]
    refine .cons ⟨[], n, by simp [lineageIn?], by simpa using within.tells n⟩ (List.rel_append ?_ ?_)
    · rw [List.forall₂_map_left_iff]
      refine (children (within.inside own) inner []).imp ?_
      rintro place v ⟨below, m, found, tells⟩
      refine ⟨n :: below, m, ?_, by simpa using tells⟩
      cases place with
      | nil => cases found
      | cons j place =>
        rw [List.nil_append] at found
        simp only [lineageIn?, here, Option.bind_some]
        rw [lineage?_cons, found, Option.map_some]
    · simpa using siblings within outer (before ++ [n])

namespace Walk

/-! ## The open levels -/

/-- Each level is as deep as there are levels outside it. -/
def Stacked : List (Surroundings × List Node) → Prop
  | [] => True
  | (s, _) :: outer => s.depth = outer.length ∧ Stacked outer

/-- A step leaves open the levels around its node, the one with the node's siblings, though none may be left there, and
one with its children, if it has any. -/
theorem stacked_of_nextIn {levels levels' : List (Surroundings × List Node)} {v : Visit} (stacked : Stacked levels)
    (next : nextIn levels = some (v, levels')) :
    Stacked levels' ∧ levels'.length = v.depth + if v.node.children.isEmpty then 1 else 2 := by
  fun_induction nextIn levels with
  | case1 => cases next
  | case2 s outer ih => exact ih stacked.2 next
  | case3 s n rest outer =>
    cases next
    obtain ⟨depth, outside⟩ := stacked
    have node : (s.visit n).node = n := rfl
    have visited : (s.visit n).depth = outer.length := depth
    rw [node, visited]
    split
    · exact ⟨⟨depth, outside⟩, rfl⟩
    · exact ⟨⟨congrArg (· + 1) depth, depth, outside⟩, rfl⟩

theorem stacked_of_next? {w w' : Walk} {v : Visit} (stacked : Stacked w.levels) (next : w.next? = some (v, w')) :
    Stacked w'.levels ∧ w'.levels.length = v.depth + if v.node.children.isEmpty then 1 else 2 := by
  obtain ⟨⟨_, levels⟩, next_levels, same⟩ := Option.map_eq_some_iff.mp next
  cases same
  exact stacked_of_nextIn stacked next_levels

/-- At any point of a walk the depth of a visit can be read off the number of open levels. -/
theorem length_levels_of_next? {t : Tree} {w w' : Walk} {v : Visit}
    (reached : Relation.ReflTransGen (fun w w' => ∃ v, next? w = some (v, w')) (ofTree t) w)
    (next : w.next? = some (v, w')) :
    w'.levels.length = v.depth + if v.node.children.isEmpty then 1 else 2 := by
  have stacked : Stacked w.levels := by
    clear next
    induction reached with
    | refl => exact ⟨rfl, trivial⟩
    | tail _ step ih =>
      obtain ⟨v, step⟩ := step
      exact (stacked_of_next? ih step).1
  exact (stacked_of_next? stacked next).2

end Walk

namespace Tree

/-- A walk goes through all places of a tree in their order and tells at each what stands there and around it, if no
name is empty; and no document has a declaration with an empty name. -/
theorem walk_tells_lineage :
    (∀ path text, ∀ n ∈ (Outline.parse path text).tree.nodes, n.name ≠ some "") ∧
      ∀ t : Tree, (∀ n ∈ t.nodes, n.name ≠ some "") →
        (Walk.ofTree t).toList = t.visits ∧
          t.places.Pairwise (· < ·) ∧
          (∀ place, place ∈ t.places ↔ (t.lineage? place).isSome = true) ∧
          List.Forall₂ (fun place v => ∃ above n, t.lineage? place = some (above, n) ∧ Visit.Tells v above n)
            t.places (Walk.ofTree t).toList := by
  refine ⟨Outline.name_ne_empty_of_parse, fun t named => ?_⟩
  rw [nodes_eq] at named
  have told : List.Forall₂ (fun place v => ∃ above n, t.lineage? place = some (above, n) ∧ Visit.Tells v above n)
      t.places (Walk.ofTree t).toList := by
    rw [Walk.toList_ofTree]
    exact Node.forall₂_visitsAll .top named []
  refine ⟨Walk.toList_ofTree t, Node.pairwise_placesFrom 0 t.items, fun place => ⟨fun mem => ?_, fun found => ?_⟩, told⟩
  · obtain ⟨v, -, above, n, found, -⟩ := exists_of_forall₂ told mem
    rw [found, Option.isSome_some]
  · cases place with
    | nil => cases found
    | cons i place =>
      have mem := Node.mem_placesFrom_of_isSome found 0
      rwa [Nat.zero_add] at mem

/-- A function in an enum without a name in a class. -/
def nameless : Tree where
  items :=
    [⟨.classDecl, some "Outer", ⟨0, 40⟩,
      [⟨.enumDecl, none, ⟨14, 38⟩, [⟨.functionDecl, some "run", ⟨21, 36⟩, []⟩]⟩]⟩,
    ⟨.structDecl, some "Point", ⟨41, 50⟩, []⟩]
  length := 50

theorem walk_tells_lineage_nameless :
    (∀ n ∈ nameless.nodes, n.name ≠ some "") ∧
      ∃ v ∈ (Walk.ofTree nameless).toList,
        v.node.name = some "run" ∧ v.depth = 2 ∧ v.inType = true ∧ v.qualifiedName = "Outer.run" := by
  have named : ∀ n ∈ nameless.nodes, n.name ≠ some "" := by
    rw [nodes_eq]
    simp [nameless]
  obtain ⟨-, -, complete, told⟩ := walk_tells_lineage.2 nameless named
  have place : [0, 0, 0] ∈ nameless.places := (complete [0, 0, 0]).mpr rfl
  obtain ⟨v, mem, above, n, found, tells⟩ := exists_of_forall₂ told place
  simp only [Tree.lineage?, nameless, Node.lineageIn?, Node.lineage?, List.getElem?_cons_zero, Option.bind_some,
    Option.map_some, Option.some.injEq, Prod.mk.injEq] at found
  obtain ⟨rfl, rfl⟩ := found
  refine ⟨named, v, mem, congrArg Node.name tells.node, tells.depth, tells.inType.mpr ?_, tells.qualifiedName⟩
  exact ⟨_, List.mem_cons_self, rfl⟩

end Tree
end CodeWorkspace
