import CodeWorkspace.Proofs.Solution.Closure

/-! The search for a compilation order comes to an end on every graph, never deeper than there are projects, and
what it finds is a topological order of the closure. -/
namespace CodeWorkspace.Projects

/-! ## How deep the search goes -/

/-- Goes through names as `extend` does, with `visit` for what is behind a project that is entered. -/
def extendEach (ps : Projects) (visit : List Project → Project → Option (Except WorkspaceError (List Project)))
    (path order : List Project) : List String → Option (Except WorkspaceError (List Project))
  | [] => some (.ok order)
  | name :: rest =>
    match ps.find? name with
    | none => some (.error (.projectNotFound name))
    | some p =>
      if isNamed order p.name then ps.extendEach visit path order rest
      else if isNamed path p.name then some (.error (.cyclicReference (cycleOf path p.name)))
      else
        match visit order p with
        | none => none
        | some (.error e) => some (.error e)
        | some (.ok order) => ps.extendEach visit path (order ++ [p]) rest

/-- Enters a project and goes through its references. It gives up where more than `depth` projects would be entered
one below another. -/
def descend (ps : Projects) : Nat → List Project → List Project → Project →
    Option (Except WorkspaceError (List Project))
  | 0, _, _, _ => none
  | depth + 1, path, order, p => ps.extendEach (ps.descend depth (p :: path)) (p :: path) order p.references

/-- The compilation order, if the search for it enters no more than `depth` projects one below another. -/
def orderWithin (ps : Projects) (depth : Nat) (name : String) : Option (Except WorkspaceError (List Project)) :=
  ps.extendEach (ps.descend depth []) [] [] [name]

theorem extendEach_descend {ps : Projects} {depth : Nat} {path : List Project}
    (deep : (unreached ps path).length ≤ depth) (order : List Project) (names : List String) :
    ps.extendEach (ps.descend depth path) path order names = some (ps.extend path order names) := by
  fun_induction extend ps path order names generalizing depth with
  | case1 path order => rfl
  | case2 path order name rest absent => simp only [extendEach, absent]
  | case3 path order name rest p found taken ih =>
    simp only [extendEach, found, taken, if_true]
    exact ih deep
  | case4 path order name rest p found new reached =>
    simp only [extendEach, found, new, reached, if_true, if_false, Bool.false_eq_true]
  | case5 path order name rest p found new enters failure failed ih =>
    -- Whoever enters a project has not reached it yet, so there is room for one more.
    have fewer := unreached_cons_lt (mem_of_find? found) enters
    obtain ⟨depth, rfl⟩ : ∃ below, depth = below + 1 := ⟨depth - 1, by omega⟩
    have below := ih (Nat.le_of_lt_succ (Nat.lt_of_lt_of_le fewer deep))
    rw [failed] at below
    simp only [extendEach, found, new, enters, descend, below, if_false, Bool.false_eq_true]
  | case6 path order name rest p found new enters behind extended ih ih' =>
    have fewer := unreached_cons_lt (mem_of_find? found) enters
    obtain ⟨depth, rfl⟩ : ∃ below, depth = below + 1 := ⟨depth - 1, by omega⟩
    have below := ih (Nat.le_of_lt_succ (Nat.lt_of_lt_of_le fewer deep))
    rw [extended] at below
    simp only [extendEach, found, new, enters, descend, below, if_false, Bool.false_eq_true]
    exact ih' deep

/-- Whatever the references are, the search comes to its end: on its way down it enters no project twice. -/
theorem orderWithin_length (ps : Projects) (name : String) :
    ps.orderWithin ps.all.length name = some (ps.compilationOrder name) :=
  extendEach_descend (List.length_filter_le ..) [] [name]

/-! ## What the search finds -/

section Order

variable {ps : Projects} {name : String} {order front behind : List Project} {p q : Project}

theorem named_of_founded {before : List Project} (h : Founded before (front ++ p :: behind)) :
    ∀ name ∈ p.references, isNamed (before ++ front) name = true := by
  induction front generalizing before with
  | nil =>
    rw [List.append_nil]
    exact h.1
  | cons q front ih =>
    have := ih h.2
    rwa [List.append_assoc, List.singleton_append] at this

/-- What a project references stands in front of it. -/
theorem mem_front (linked : ps.Linked) (distinct : ps.Distinct) (h : ps.compilationOrder name = .ok order)
    (split : order = front ++ p :: behind) (step : ps.References p q) : q ∈ front := by
  have founded := founded_of_compilationOrder linked distinct h
  rw [split] at founded
  obtain ⟨q', mem, same⟩ := isNamed_iff.mp (named_of_founded founded q.name step.2)
  have listed : q' ∈ ps.all := by
    apply (partial_of_compilationOrder h).listed
    rw [split]
    exact List.mem_append_left _ mem
  rwa [distinct q' listed q step.1 (by rw [same])] at mem

end Order

theorem compilationOrder_topological {s : Solution} {ps : Projects} (checked : ofSolution s = .ok ps)
    (name : String) :
    ps.orderWithin ps.all.length name = some (ps.compilationOrder name) ∧
      ∀ order, ps.compilationOrder name = .ok order →
        ∃ root before, ps.find? name = some root ∧ order = before ++ [root] ∧ order.Nodup ∧
          (∀ p, p ∈ order ↔ ps.Reaches root p) ∧
          ∀ front p behind, order = front ++ p :: behind → ∀ q, ps.References p q → q ∈ front := by
  have linked := linked_of_ofSolution checked
  have distinct := distinct_of_ofSolution checked
  refine ⟨orderWithin_length ps name, fun order ordered => ?_⟩
  obtain ⟨root, before, found, last⟩ := last_of_compilationOrder ordered
  refine ⟨root, before, found, last, ?_, fun p => mem_compilationOrder_iff linked distinct ordered found, ?_⟩
  · exact (partial_of_compilationOrder ordered).names.of_map
  · exact fun front p behind split q => mem_front linked distinct ordered split

/-! ## A small solution -/

def core : Project := ⟨"Core", [], []⟩

def ui : Project := ⟨"Ui", [], ["Core"]⟩

def shell : Project := ⟨"Shell", [], ["Ui", "Core"]⟩

def host : Project := ⟨"Host", [], ["Core", "Plugin"]⟩

def plugin : Project := ⟨"Plugin", [], ["Core", "Host"]⟩

def tool : Project := ⟨"Tool", [], ["Plugin"]⟩

def layered : Projects := ⟨[shell, ui, core, tool, plugin, host]⟩

/-- The same with references as somebody wrote them down. -/
def layers : Solution :=
  ⟨none, [{ shell with references := ["ui", "CORE", "core"] }, { ui with references := ["core"] }, core, tool,
    { plugin with references := ["Core", "host"] }, host]⟩

theorem ofSolution_layers : ofSolution layers = .ok layered := rfl

/-- Two ways lead to the core, and a circle elsewhere does not matter. -/
theorem compilationOrder_topological_shell :
    ofSolution layers = .ok layered ∧ layered.compilationOrder "shell" = .ok [core, ui, shell] ∧
      (∀ p, p ∈ [core, ui, shell] ↔ layered.Reaches shell p) ∧
      ∀ front p behind, [core, ui, shell] = front ++ p :: behind → ∀ q, layered.References p q → q ∈ front := by
  obtain ⟨found, topological⟩ := compilationOrder_topological ofSolution_layers "shell"
  have within : layered.orderWithin layered.all.length "shell" = some (.ok [core, ui, shell]) := by
    decide +kernel
  have ordered : layered.compilationOrder "shell" = .ok [core, ui, shell] := Option.some.inj (found.symm.trans within)
  obtain ⟨root, before, -, split, -, closure, behind⟩ := topological _ ordered
  obtain rfl : shell = root := by simpa using congrArg List.getLast? split
  exact ⟨ofSolution_layers, ordered, closure, behind⟩

end CodeWorkspace.Projects
