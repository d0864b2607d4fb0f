import CodeWorkspace.Proofs.Solution.Order
import Mathlib.Logic.Relation

/-! What a project leads to through references. A compilation order has nothing else in it than what its last
project leads to, and each project behind all that it references. -/
namespace CodeWorkspace.Projects

/-- Every reference is the name of a project. -/
def Linked (ps : Projects) : Prop := ∀ p ∈ ps.all, ∀ name ∈ p.references, ∃ q ∈ ps.all, q.name = name

def References (ps : Projects) (p q : Project) : Prop := q ∈ ps.all ∧ q.name ∈ p.references

/-- The other project is this one or is referenced by it, directly or not. -/
def Reaches (ps : Projects) : Project → Project → Prop := Relation.ReflTransGen ps.References

/-! ## Checked solutions -/

theorem mem_targets {projects : List Project} {p : Project} {references names : List String}
    (h : targets projects p references = .ok names) : ∀ name ∈ names, ∃ q ∈ projects, q.name = name := by
  induction references generalizing names with
  | nil =>
    cases h
    simp
  | cons reference rest ih =>
    rw [targets] at h
    split at h
    · cases h
    · next target found =>
      split at h
      · cases h
      · next more =>
        cases h
        exact List.forall_mem_cons.mpr ⟨⟨target, List.mem_of_find?_eq_some found, rfl⟩, ih more⟩

theorem references_link {projects some linked : List Project} (h : link projects some = .ok linked) :
    ∀ p ∈ linked, ∀ name ∈ p.references, ∃ q ∈ projects, q.name = name := by
  induction some generalizing linked with
  | nil =>
    cases h
    simp
  | cons p rest ih =>
    rw [link] at h
    split at h
    · cases h
    · next targeted =>
      split at h
      · cases h
      · next more =>
        cases h
        refine List.forall_mem_cons.mpr ⟨fun name mem => ?_, ih more⟩
        exact mem_targets targeted name (List.mem_eraseDups.mp mem)

theorem linked_of_ofSolution {s : Solution} {ps : Projects} (h : ofSolution s = .ok ps) : ps.Linked := by
  unfold ofSolution at h
  split at h
  · cases h
  · cases linked : link s.projects s.projects with
    | error e => rw [linked] at h; cases h
    | ok all =>
      rw [linked] at h
      cases h
      intro p hp name mem
      obtain ⟨q, hq, rfl⟩ := references_link linked p hp name mem
      have : q.name ∈ all.map (·.name) := by
        rw [names_link linked]
        exact List.mem_map_of_mem hq
      exact List.mem_map.mp this

theorem find?_of_mem {ps : Projects} (distinct : ps.Distinct) {p : Project} (h : p ∈ ps.all) :
    ps.find? p.name = some p := by
  cases found : ps.find? p.name with
  | none => exact absurd rfl (findIn_eq_none.mp found p h)
  | some q =>
    have key : projectKey q.name = projectKey p.name := by simpa using List.find?_some found
    rw [distinct q (mem_of_find? found) p h key]

/-! ## Compilation orders -/

theorem isNamed_iff {projects : List Project} {name : String} :
    isNamed projects name = true ↔ ∃ p ∈ projects, p.name = name := by
  simp [isNamed]

/-- Each project comes behind all that it references, `before` standing in front of them all. -/
def Founded (before : List Project) : List Project → Prop
  | [] => True
  | p :: rest => (∀ name ∈ p.references, isNamed before name = true) ∧ Founded (before ++ [p]) rest

theorem founded_append {before order : List Project} {p : Project} (h : Founded before order)
    (references : ∀ name ∈ p.references, isNamed (before ++ order) name = true) :
    Founded before (order ++ [p]) := by
  induction order generalizing before with
  | nil =>
    rw [List.append_nil] at references
    exact ⟨references, trivial⟩
  | cons q rest ih =>
    refine ⟨h.1, ih h.2 ?_⟩
    rw [List.append_assoc]
    exact references

section Extend

variable {ps : Projects} {path order order' : List Project} {names : List String}

/-- The order only grows, and in the end it has all the projects that were asked for. -/
theorem named_of_extend (h : ps.extend path order names = .ok order') :
    (∀ p ∈ order, p ∈ order') ∧ ∀ name ∈ names, ∀ p, ps.find? name = some p → isNamed order' p.name = true := by
  fun_induction extend ps path order names generalizing order' with
  | case1 path order =>
    cases h
    exact ⟨fun _ => id, by simp⟩
  | case2 => cases h
  | case3 path order name rest p found taken ih =>
    obtain ⟨grows, named⟩ := ih h
    refine ⟨grows, List.forall_mem_cons.mpr ⟨fun q same => ?_, named⟩⟩
    cases found.symm.trans same
    obtain ⟨q, hq, same⟩ := isNamed_iff.mp taken
    exact isNamed_iff.mpr ⟨q, grows q hq, same⟩
  | case4 => cases h
  | case5 => cases h
  | case6 path order name rest p found taken new below extended ih ih' =>
    obtain ⟨inside, -⟩ := ih extended
    obtain ⟨grows, named⟩ := ih' h
    refine ⟨fun q hq => grows q (List.mem_append_left _ (inside q hq)),
      List.forall_mem_cons.mpr ⟨fun q same => ?_, named⟩⟩
    cases found.symm.trans same
    exact isNamed_iff.mpr ⟨p, grows p (by simp), rfl⟩

theorem founded_of_extend (linked : ps.Linked) (distinct : ps.Distinct)
    (h : ps.extend path order names = .ok order') (before : Founded [] order) : Founded [] order' := by
  fun_induction extend ps path order names generalizing order' with
  | case1 path order =>
    cases h
    exact before
  | case2 => cases h
  | case3 path order name rest p found taken ih => exact ih h before
  | case4 => cases h
  | case5 => cases h
  | case6 path order name rest p found taken new below extended ih ih' =>
    -- A project is taken once the search below it is over, when all that it references has been taken.
    refine ih' h (founded_append (ih extended before) fun reference mem => ?_)
    obtain ⟨q, hq, rfl⟩ := linked p (mem_of_find? found) reference mem
    exact (named_of_extend extended).2 q.name mem q (find?_of_mem distinct hq)

theorem reaches_of_extend (linked : ps.Linked) (distinct : ps.Distinct)
    (h : ps.extend path order names = .ok order') :
    ∀ q ∈ order', q ∈ order ∨ ∃ name ∈ names, ∃ p, ps.find? name = some p ∧ ps.Reaches p q := by
  fun_induction extend ps path order names generalizing order' with
  | case1 path order =>
    cases h
    exact fun _ => .inl
  | case2 => cases h
  | case3 path order name rest p found taken ih =>
    intro q hq
    rcases ih h q hq with old | ⟨asked, mem, way⟩
    · exact .inl old
    · exact .inr ⟨asked, List.mem_cons_of_mem _ mem, way⟩
  | case4 => cases h
  | case5 => cases h
  | case6 path order name rest p found taken new below extended ih ih' =>
    intro q hq
    rcases ih' h q hq with old | ⟨asked, mem, way⟩
    · rcases List.mem_append.mp old with old | here
      · rcases ih extended q old with old | ⟨reference, mem, target, there, way⟩
        · exact .inl old
        · obtain ⟨direct, listed, rfl⟩ := linked p (mem_of_find? found) reference mem
          cases there.symm.trans (find?_of_mem distinct listed)
          exact .inr ⟨name, List.mem_cons_self, p, found, .head ⟨listed, mem⟩ way⟩
      · rw [List.mem_singleton.mp here]
        exact .inr ⟨name, List.mem_cons_self, p, found, .refl⟩
    · exact .inr ⟨asked, List.mem_cons_of_mem _ mem, way⟩

end Extend

section CompilationOrder

variable {ps : Projects} {name : String} {order : List Project}

theorem last_of_compilationOrder (h : ps.compilationOrder name = .ok order) :
    ∃ root before, ps.find? name = some root ∧ order = before ++ [root] := by
  unfold compilationOrder at h
  cases found : ps.find? name with
  | none =>
    rw [extend] at h
    split at h
    · cases h
    · next there => cases found.symm.trans there
  | some root =>
    rw [extend_cons found] at h
    simp only [isNamed, List.any_nil, Bool.false_eq_true, if_false] at h
    split at h
    · cases h
    · next before _ =>
      rw [extend_nil] at h
      cases h
      exact ⟨root, before, rfl, rfl⟩

theorem founded_of_compilationOrder (linked : ps.Linked) (distinct : ps.Distinct)
    (h : ps.compilationOrder name = .ok order) : Founded [] order :=
  founded_of_extend linked distinct h trivial

theorem reaches_of_compilationOrder (linked : ps.Linked) (distinct : ps.Distinct)
    (h : ps.compilationOrder name = .ok order) {root : Project} (found : ps.find? name = some root) :
    ∀ q ∈ order, ps.Reaches root q := by
  intro q hq
  rcases reaches_of_extend linked distinct h q hq with old | ⟨asked, mem, p, there, way⟩
  · cases old
  · rw [List.mem_singleton.mp mem] at there
    cases found.symm.trans there
    exact way

theorem mem_of_founded {before order : List Project} (distinct : ps.Distinct) (h : Founded before order)
    (listed : ∀ p ∈ before ++ order, p ∈ ps.all) {p q : Project} (hp : p ∈ order) (step : ps.References p q) :
    q ∈ before ++ order := by
  induction order generalizing before with
  | nil => cases hp
  | cons r rest ih =>
    obtain ⟨named, founded⟩ := h
    rcases List.mem_cons.mp hp with rfl | hp
    · obtain ⟨q', hq', same⟩ := isNamed_iff.mp (named q.name step.2)
      have mem := List.mem_append_left (p :: rest) hq'
      rwa [distinct q' (listed q' mem) q step.1 (by rw [same])] at mem
    · rw [List.append_cons] at listed ⊢
      exact ih founded listed hp

theorem mem_compilationOrder_iff (linked : ps.Linked) (distinct : ps.Distinct)
    (h : ps.compilationOrder name = .ok order) {root : Project} (found : ps.find? name = some root) {q : Project} :
    q ∈ order ↔ ps.Reaches root q := by
  refine ⟨reaches_of_compilationOrder linked distinct h found q, fun way => ?_⟩
  obtain ⟨root', before, found', rfl⟩ := last_of_compilationOrder h
  cases found.symm.trans found'
  induction way with
  | refl => simp
  | tail _ step ih =>
    exact mem_of_founded distinct (founded_of_compilationOrder linked distinct h)
      (partial_of_compilationOrder h).listed ih step

end CompilationOrder
end CodeWorkspace.Projects
