import CodeWorkspace.Proofs.Solution.Search
import Mathlib.Data.List.Chain
import Mathlib.Data.List.TakeWhile

/-! Circles among references. The search meets one just if there is one to be met, and the names that it reports lead
once round it. -/
namespace CodeWorkspace.Projects

/-- Some project that `root` leads to is led back to from itself. -/
def Cyclic (ps : Projects) (root : Project) : Prop :=
  ∃ p, ps.Reaches root p ∧ Relation.TransGen ps.References p p

/-- Names once round a circle that `root` leads to, the first one again at the end. -/
structure IsCircle (ps : Projects) (root : Project) (names : List String) : Prop where
  long : 2 ≤ names.length
  closed : names.head? = names.getLast?
  once : names.dropLast.Nodup
  linked : names.IsChain fun a b => ∃ p ∈ ps.all, ∃ q, p.name = a ∧ q.name = b ∧ ps.References p q
  reached : ∀ name ∈ names, ∃ p, p.name = name ∧ ps.Reaches root p

/-! ## The path of the search -/

/-- What the search keeps as its path leads from the root down, the innermost project first. -/
structure Trail (ps : Projects) (root : Project) (path : List Project) : Prop where
  listed : ∀ p ∈ path, p ∈ ps.all
  names : (path.map (·.name)).Nodup
  reached : ∀ p ∈ path, ps.Reaches root p
  chain : path.IsChain fun below above => ps.References above below

/-- What comes next on a path: the root on an empty one, else a reference of its innermost project. -/
structure Next (ps : Projects) (root : Project) (path : List Project) (p : Project) : Prop where
  listed : p ∈ ps.all
  reached : ps.Reaches root p
  step : ∀ above ∈ path.head?, ps.References above p

section Trail

variable {ps : Projects} {root p : Project} {path : List Project}

theorem Trail.enter (way : ps.Trail root path) (next : ps.Next root path p) (new : isNamed path p.name = false) :
    ps.Trail root (p :: path) where
  listed := List.forall_mem_cons.mpr ⟨next.listed, way.listed⟩
  names := by
    rw [List.map_cons, List.nodup_cons]
    refine ⟨fun mem => ?_, way.names⟩
    obtain ⟨q, hq, same⟩ := List.mem_map.mp mem
    exact isNamed_eq_false.mp new q hq same
  reached := List.forall_mem_cons.mpr ⟨next.reached, way.reached⟩
  chain := List.isChain_cons.mpr ⟨next.step, way.chain⟩

/-- Where a path comes to a project again, the part below that project is what comes first. -/
theorem exists_split_of_isNamed {name : String} (named : isNamed path name = true) :
    ∃ q outer, q.name = name ∧ path = path.takeWhile (·.name ≠ name) ++ q :: outer := by
  induction path with
  | nil => cases named
  | cons r rest ih =>
    by_cases here : r.name = name
    · exact ⟨r, rest, here, by simp [here]⟩
    · have below : isNamed rest name = true := by simpa [isNamed, here] using named
      obtain ⟨q, outer, same, split⟩ := ih below
      refine ⟨q, outer, same, ?_⟩
      rw [List.takeWhile_cons_of_pos (by simpa using here), List.cons_append, ← split]

end Trail

/-! ## The way round -/

section Circle

variable {ps : Projects} {root p : Project} {path : List Project}

/-- The part of a path below a project that comes next again, with that project at both ends. -/
def round (path : List Project) (p : Project) : List Project :=
  p :: ((path.takeWhile (·.name ≠ p.name)).reverse ++ [p])

theorem cycleOf_eq (path : List Project) (p : Project) : cycleOf path p.name = (round path p).map (·.name) := by
  simp [cycleOf, round]

theorem Trail.split (way : ps.Trail root path) (distinct : ps.Distinct) (next : ps.Next root path p)
    (reached : isNamed path p.name = true) :
    ∃ outer, path = path.takeWhile (·.name ≠ p.name) ++ p :: outer := by
  obtain ⟨q, outer, same, split⟩ := exists_split_of_isNamed reached
  have listed : q ∈ ps.all := by
    apply way.listed
    rw [split]
    simp
  rw [distinct q listed p next.listed (by rw [same])] at split
  exact ⟨outer, split⟩

theorem Trail.chain_round (way : ps.Trail root path) (distinct : ps.Distinct) (next : ps.Next root path p)
    (reached : isNamed path p.name = true) : (round path p).IsChain ps.References := by
  obtain ⟨outer, split⟩ := way.split distinct next reached
  have whole : (p :: path).IsChain fun below above => ps.References above below :=
    List.isChain_cons.mpr ⟨next.step, way.chain⟩
  rw [split, List.append_cons, ← List.cons_append] at whole
  have below := List.isChain_reverse.mpr whole.left_of_append
  simpa [round] using below

theorem mem_round {q : Project} (mem : q ∈ round path p) : q = p ∨ q ∈ path := by
  simp only [round, List.mem_cons, List.mem_append, List.mem_reverse, List.not_mem_nil, or_false] at mem
  rcases mem with rfl | mem | rfl
  · exact .inl rfl
  · exact .inr (List.takeWhile_subset _ mem)
  · exact .inl rfl

theorem Trail.cyclic (way : ps.Trail root path) (distinct : ps.Distinct) (next : ps.Next root path p)
    (reached : isNamed path p.name = true) : ps.Cyclic root := by
  refine ⟨p, next.reached, ?_⟩
  have chain : (round path p).IsChain (Relation.TransGen ps.References) :=
    (way.chain_round distinct next reached).imp fun _ _ => .single
  have first := (List.pairwise_cons.mp chain.pairwise).1
  exact first p (by simp)

theorem Trail.listed_round (way : ps.Trail root path) (next : ps.Next root path p) :
    ∀ q ∈ round path p, q ∈ ps.all := by
  intro q mem
  rcases mem_round mem with rfl | mem
  · exact next.listed
  · exact way.listed q mem

theorem Trail.isCircle (way : ps.Trail root path) (distinct : ps.Distinct) (next : ps.Next root path p)
    (reached : isNamed path p.name = true) : ps.IsCircle root (cycleOf path p.name) where
  long := by simp [cycleOf]
  closed := by
    rw [cycleOf, ← List.cons_append, List.getLast?_concat]
    rfl
  once := by
    rw [cycleOf, ← List.cons_append, List.dropLast_concat, List.nodup_cons, List.map_reverse, List.nodup_reverse,
      List.mem_reverse]
    constructor
    · intro mem
      obtain ⟨q, hq, same⟩ := List.mem_map.mp mem
      have other : q.name ≠ p.name := by simpa using List.mem_takeWhile_imp hq
      exact other same
    · exact way.names.sublist ((List.takeWhile_sublist _).map _)
  linked := by
    rw [cycleOf_eq, List.isChain_map]
    apply (way.chain_round distinct next reached).imp_of_mem_imp
    intro a b ha _ step
    exact ⟨a, way.listed_round next a ha, b, rfl, rfl, step⟩
  reached := by
    rw [cycleOf_eq, List.forall_mem_map]
    intro q mem
    rcases mem_round mem with rfl | mem
    · exact ⟨q, rfl, next.reached⟩
    · exact ⟨q, rfl, way.reached q mem⟩

end Circle

/-! ## The search -/

section Search

variable {ps : Projects} {root p : Project} {path order : List Project} {name : String} {names : List String}
  {failure : WorkspaceError}

/-- Names that may come next on a path. -/
def NextNamed (ps : Projects) (root : Project) (path : List Project) (names : List String) : Prop :=
  ∀ name ∈ names, ∃ p, ps.find? name = some p ∧ ps.Next root path p

theorem nextNamed_references (linked : ps.Linked) (distinct : ps.Distinct) (next : ps.Next root path p) :
    ps.NextNamed root (p :: path) p.references := by
  intro name mem
  obtain ⟨q, listed, rfl⟩ := linked p next.listed name mem
  have step : ps.References p q := ⟨listed, mem⟩
  refine ⟨q, find?_of_mem distinct listed, listed, next.reached.tail step, ?_⟩
  rintro above ⟨⟩
  exact step

/-- Wherever the search fails, it has just come round a circle. -/
theorem circle_of_extend (linked : ps.Linked) (distinct : ps.Distinct) (way : ps.Trail root path)
    (next : ps.NextNamed root path names) (failed : ps.extend path order names = .error failure) :
    ps.Cyclic root ∧ ∃ cycle, failure = .cyclicReference cycle ∧ ps.IsCircle root cycle := by
  fun_induction extend ps path order names with
  | case1 => cases failed
  | case2 path order name rest absent =>
    obtain ⟨p, found, -⟩ := next name List.mem_cons_self
    cases absent.symm.trans found
  | case3 path order name rest p found taken ih =>
    exact ih way (fun other mem => next other (List.mem_cons_of_mem _ mem)) failed
  | case4 path order name rest p found new reached =>
    obtain ⟨q, found', next⟩ := next name List.mem_cons_self
    cases found.symm.trans found'
    cases failed
    exact ⟨way.cyclic distinct next reached, _, rfl, way.isCircle distinct next reached⟩
  | case5 path order name rest p found new enters failure' below ih =>
    obtain ⟨q, found', next⟩ := next name List.mem_cons_self
    cases found.symm.trans found'
    cases failed
    exact ih (way.enter next (by simpa using enters)) (nextNamed_references linked distinct next) below
  | case6 path order name rest p found new enters below extended ih ih' =>
    exact ih' way (fun other mem => next other (List.mem_cons_of_mem _ mem)) failed

theorem circle_of_compilationOrder (linked : ps.Linked) (distinct : ps.Distinct) (found : ps.find? name = some root)
    (failed : ps.compilationOrder name = .error failure) :
    ps.Cyclic root ∧ ∃ cycle, failure = .cyclicReference cycle ∧ ps.IsCircle root cycle := by
  have start : ps.Trail root [] := ⟨by simp, by simp, by simp, .nil⟩
  refine circle_of_extend linked distinct start ?_ failed
  intro asked mem
  rw [List.mem_singleton.mp mem]
  exact ⟨root, found, mem_of_find? found, .refl, by simp⟩

theorem mem_front_of_transGen (linked : ps.Linked) (distinct : ps.Distinct)
    (ordered : ps.compilationOrder name = .ok order) {front behind : List Project} {q : Project}
    (split : order = front ++ p :: behind) (way : Relation.TransGen ps.References p q) : q ∈ front := by
  induction way with
  | single step => exact mem_front linked distinct ordered split step
  | tail _ step mem =>
    obtain ⟨first, others, rfl⟩ := List.append_of_mem mem
    rw [List.append_assoc, List.cons_append] at split
    exact List.mem_append_left _ (mem_front linked distinct ordered split step)

/-- What a project leads to stands in front of it, so it does not lead to itself. -/
theorem not_cyclic_of_compilationOrder (linked : ps.Linked) (distinct : ps.Distinct)
    (found : ps.find? name = some root) (ordered : ps.compilationOrder name = .ok order) : ¬ps.Cyclic root := by
  rintro ⟨p, reached, round⟩
  have once : order.Nodup := (partial_of_compilationOrder ordered).names.of_map
  have mem := (mem_compilationOrder_iff linked distinct ordered found).mpr reached
  obtain ⟨front, behind, split⟩ := List.append_of_mem mem
  have ahead : p ∈ front := mem_front_of_transGen linked distinct ordered split round
  rw [split] at once
  exact List.disjoint_of_nodup_append once ahead List.mem_cons_self

theorem fails_iff_cyclic {s : Solution} (checked : ofSolution s = .ok ps) (found : ps.find? name = some root) :
    ((∃ failure, ps.compilationOrder name = .error failure) ↔ ps.Cyclic root) ∧
      ∀ failure, ps.compilationOrder name = .error failure →
        ∃ cycle, failure = .cyclicReference cycle ∧ ps.IsCircle root cycle := by
  have linked := linked_of_ofSolution checked
  have distinct := distinct_of_ofSolution checked
  have circle {failure : WorkspaceError} (failed : ps.compilationOrder name = .error failure) :=
    circle_of_compilationOrder linked distinct found failed
  refine ⟨⟨fun ⟨_, failed⟩ => (circle failed).1, fun cyclic => ?_⟩, fun _ failed => (circle failed).2⟩
  cases ordered : ps.compilationOrder name with
  | error failure => exact ⟨failure, rfl⟩
  | ok order => exact absurd cyclic (not_cyclic_of_compilationOrder linked distinct found ordered)

end Search

/-- The circle is not met at the project that was asked for, and it is reported without the way to it. -/
theorem fails_iff_cyclic_tool :
    ofSolution layers = .ok layered ∧ layered.find? "tool" = some tool ∧ layered.Cyclic tool ∧
      layered.compilationOrder "tool" = .error (.cyclicReference ["Plugin", "Host", "Plugin"]) ∧
      layered.IsCircle tool ["Plugin", "Host", "Plugin"] := by
  have found : layered.find? "tool" = some tool := by decide +kernel
  have within : layered.orderWithin layered.all.length "tool" =
      some (.error (.cyclicReference ["Plugin", "Host", "Plugin"])) := by decide +kernel
  have failed := Option.some.inj ((orderWithin_length layered "tool").symm.trans within)
  obtain ⟨cyclic, circle⟩ := fails_iff_cyclic ofSolution_layers found
  obtain ⟨cycle, same, round⟩ := circle _ failed
  cases same
  exact ⟨ofSolution_layers, found, cyclic.mp ⟨_, failed⟩, failed, round⟩

end CodeWorkspace.Projects
