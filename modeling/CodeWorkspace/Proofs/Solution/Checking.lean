import CodeWorkspace.Proofs.Solution.Search
import Mathlib.Data.List.Induction

/-! Which solutions are accepted, and what becomes of them. Names are checked before references, and of all faults the
first in the order of the solution is told. What is accepted is closed: each reference leads to a project of the
solution and carries its spelling. -/
namespace CodeWorkspace

/-! ## What there is to check -/

def projectKeys (projects : List Project) : List String := projects.map (projectKey ·.name)

/-- Where a project first mentions whoever answers to this name. -/
def Project.mention (p : Project) (name : String) : Nat := (p.references.map projectKey).idxOf (projectKey name)

namespace Solution

/-- Whether a project answers to this name. -/
def defines (s : Solution) (name : String) : Bool := s.projects.any (projectKey ·.name = projectKey name)

/-- All references in their order, with the projects that have them. -/
def mentions (s : Solution) : List (Project × String) := s.projects.flatMap fun p => p.references.map (p, ·)

def dangling? (s : Solution) : Option (Project × String) := s.mentions.find? fun x => !s.defines x.2

inductive Fault (s : Solution) : WorkspaceError → Prop where
  /-- The first project with the key of one before it. -/
  | duplicate {before after : List Project} {p : Project} (split : s.projects = before ++ p :: after)
      (distinct : (projectKeys before).Nodup) (taken : projectKey p.name ∈ projectKeys before) :
      Fault s (.duplicateProject p.name)
  /-- The first reference without a project, where all names are in order. -/
  | dangling {p : Project} {reference : String} (distinct : (projectKeys s.projects).Nodup)
      (first : s.dangling? = some (p, reference)) : Fault s (.danglingReference p.name reference)

structure WellFormed (s : Solution) : Prop where
  distinct : (projectKeys s.projects).Nodup
  defined : ∀ p ∈ s.projects, ∀ reference ∈ p.references, s.defines reference = true

/-- What becomes of a project once its references are looked up. -/
structure Links (s : Solution) (p q : Project) : Prop where
  name : q.name = p.name
  documents : q.documents = p.documents
  targets : ∀ name, name ∈ q.references ↔
    ∃ t ∈ s.projects, t.name = name ∧ ∃ reference ∈ p.references, projectKey reference = projectKey name
  once : q.references.Nodup
  order : q.references.Pairwise fun a b => p.mention a < p.mention b

theorem defines_iff {s : Solution} {name : String} :
    s.defines name = true ↔ ∃ p ∈ s.projects, projectKey p.name = projectKey name := by
  simp [defines]

theorem mem_mentions {s : Solution} {p : Project} {reference : String} :
    (p, reference) ∈ s.mentions ↔ p ∈ s.projects ∧ reference ∈ p.references := by
  simp [mentions]

theorem dangling?_eq_none {s : Solution} :
    s.dangling? = none ↔ ∀ p ∈ s.projects, ∀ reference ∈ p.references, s.defines reference = true := by
  rw [dangling?, List.find?_eq_none]
  constructor
  · intro fine p hp reference mem
    simpa using fine (p, reference) (mem_mentions.mpr ⟨hp, mem⟩)
  · rintro fine ⟨p, reference⟩ mem
    obtain ⟨hp, mem⟩ := mem_mentions.mp mem
    rw [fine p hp reference mem]
    decide

end Solution

namespace Projects

open Solution

/-! ## Names -/

theorem isSome_findIn {projects : List Project} {name : String} :
    (findIn projects name).isSome = true ↔ projectKey name ∈ projectKeys projects := by
  simp [findIn, projectKeys]

theorem firstDuplicate_eq_some (before : List Project) {rest : List Project} {p : Project}
    (distinct : (projectKeys before).Nodup) :
    firstDuplicate before rest = some p ↔ ∃ front after, rest = front ++ p :: after ∧
      (projectKeys (before ++ front)).Nodup ∧ projectKey p.name ∈ projectKeys (before ++ front) := by
  induction rest generalizing before with
  | nil => simp [firstDuplicate]
  | cons q rest ih =>
    rw [firstDuplicate]
    split
    · next taken =>
      rw [isSome_findIn] at taken
      constructor
      · rintro ⟨⟩
        exact ⟨[], rest, rfl, by rwa [List.append_nil], by rwa [List.append_nil]⟩
      · rintro ⟨front, after, split, new, -⟩
        cases front with
        | nil => exact congrArg some (List.cons.inj split).1
        | cons r front =>
          -- No later project is the first: the keys in front of it repeat one already.
          obtain ⟨rfl, -⟩ := List.cons.inj split
          rw [projectKeys, List.map_append, List.nodup_append] at new
          exact absurd rfl (new.2.2 _ taken _ (by simp))
    · next free =>
      rw [isSome_findIn] at free
      have more : (projectKeys (before ++ [q])).Nodup :=
        keys_nodup_concat distinct fun r mem same => free (same ▸ List.mem_map_of_mem mem)
      rw [ih (before ++ [q]) more]
      constructor
      · rintro ⟨front, after, rfl, new, taken⟩
        exact ⟨q :: front, after, rfl, by rwa [List.append_cons], by rwa [List.append_cons]⟩
      · rintro ⟨front, after, split, new, taken⟩
        cases front with
        | nil =>
          obtain ⟨rfl, -⟩ := List.cons.inj split
          rw [List.append_nil] at taken
          exact absurd taken free
        | cons r front =>
          obtain ⟨rfl, rfl⟩ := List.cons.inj split
          exact ⟨front, after, rfl, by rwa [← List.append_cons], by rwa [← List.append_cons]⟩

theorem firstDuplicate_eq_none {projects : List Project} :
    firstDuplicate [] projects = none ↔ (projectKeys projects).Nodup := by
  refine ⟨keys_nodup_of_firstDuplicate List.nodup_nil, fun distinct => ?_⟩
  refine Option.eq_none_iff_forall_ne_some.mpr fun p found => ?_
  obtain ⟨front, after, rfl, -, taken⟩ := (firstDuplicate_eq_some [] List.nodup_nil).mp found
  rw [projectKeys, List.map_append, List.nodup_append] at distinct
  exact distinct.2.2 _ taken _ (by simp) rfl

/-! ## References -/

/-- What the references are called by those who are meant. -/
def spelled (projects : List Project) (references : List String) : List String :=
  (references.filterMap (findIn projects)).map (·.name)

def relinked (projects : List Project) (p : Project) : Project :=
  { p with references := (spelled projects p.references).eraseDups }

theorem targets_eq (projects : List Project) (p : Project) (references : List String) :
    targets projects p references =
      match references.find? fun r => (findIn projects r).isNone with
      | some reference => .error (.danglingReference p.name reference)
      | none => .ok (spelled projects references) := by
  induction references with
  | nil => rfl
  | cons reference rest ih =>
    rw [targets]
    cases found : findIn projects reference with
    | none => rw [List.find?_cons_of_pos (by rw [found]; rfl)]
    | some target =>
      rw [List.find?_cons_of_neg (by rw [found]; exact Bool.false_ne_true), ih]
      cases rest.find? fun r => (findIn projects r).isNone with
      | some missing => rfl
      | none => simp only [spelled, List.filterMap_cons_some found, List.map_cons]

theorem link_eq (projects listed : List Project) :
    link projects listed =
      match (listed.flatMap fun p => p.references.map (p, ·)).find? fun x => (findIn projects x.2).isNone with
      | some (p, reference) => .error (.danglingReference p.name reference)
      | none => .ok (listed.map (relinked projects)) := by
  induction listed with
  | nil => rfl
  | cons p rest ih =>
    have here : (p.references.map (p, ·)).find? (fun x => (findIn projects x.2).isNone) =
        (p.references.find? fun r => (findIn projects r).isNone).map (p, ·) := List.find?_map
    rw [link, targets_eq, List.flatMap_cons, List.find?_append, here, ih]
    cases p.references.find? fun r => (findIn projects r).isNone with
    | some missing => rfl
    | none =>
      rw [Option.map_none, Option.none_or]
      cases (rest.flatMap fun p => p.references.map (p, ·)).find? fun x => (findIn projects x.2).isNone with
      | some missing => rfl
      | none => rfl

theorem isNone_findIn (s : Solution) (name : String) : (findIn s.projects name).isNone = !s.defines name := by
  rw [findIn, defines, ← List.isSome_find?, Option.not_isSome]

theorem ofSolution_eq (s : Solution) :
    ofSolution s =
      match firstDuplicate [] s.projects, s.dangling? with
      | some p, _ => .error (.duplicateProject p.name)
      | none, some (p, reference) => .error (.danglingReference p.name reference)
      | none, none => .ok ⟨s.projects.map (relinked s.projects)⟩ := by
  have first : s.dangling? = s.mentions.find? fun x => (findIn s.projects x.2).isNone := by
    simp only [isNone_findIn, dangling?]
  rw [ofSolution, link_eq, first, mentions]
  cases firstDuplicate [] s.projects with
  | some p => rfl
  | none =>
    cases (s.projects.flatMap fun p => p.references.map (p, ·)).find? fun x => (findIn s.projects x.2).isNone with
    | some missing => rfl
    | none => rfl

/-! ## Accepted solutions -/

/-- Without its repetitions, a list is in the order of first mention. -/
theorem pairwise_eraseDups {names : List String}
    (tells : ∀ a ∈ names, ∀ b ∈ names, projectKey a = projectKey b → a = b) :
    names.eraseDups.Pairwise fun a b =>
      (names.map projectKey).idxOf (projectKey a) < (names.map projectKey).idxOf (projectKey b) := by
  induction names using List.reverseRecOn with
  | nil => exact .nil
  | append_singleton names x ih =>
    have before := ih fun a ha b hb => tells a (List.mem_append_left _ ha) b (List.mem_append_left _ hb)
    have stays {a : String} (ha : a ∈ names.eraseDups) :
        ((names ++ [x]).map projectKey).idxOf (projectKey a) = (names.map projectKey).idxOf (projectKey a) := by
      rw [List.map_append, List.idxOf_append_of_mem (List.mem_map_of_mem (List.mem_eraseDups.mp ha))]
    -- The last name is left only if it is new, and then it was mentioned behind all others.
    rw [List.eraseDups_append]
    refine List.pairwise_append.mpr ⟨?_, ?_, fun a ha b hb => ?_⟩
    · refine before.imp_of_mem fun ha hb lt => ?_
      rwa [stays ha, stays hb]
    · by_cases known : x ∈ names <;> simp [List.removeAll, known, List.eraseDups_cons]
    · obtain ⟨here, new⟩ : b = x ∧ b ∉ names := by simpa [List.removeAll] using List.mem_eraseDups.mp hb
      subst here
      have other : projectKey b ∉ names.map projectKey := by
        intro mem
        obtain ⟨c, hc, same⟩ := List.mem_map.mp mem
        exact new (tells c (List.mem_append_left _ hc) b (by simp) same ▸ hc)
      rw [stays ha, List.map_append, List.idxOf_append_of_notMem other]
      exact Nat.lt_add_right _ (List.idxOf_lt_length_of_mem (List.mem_map_of_mem (List.mem_eraseDups.mp ha)))

theorem findIn_eq_some {projects : List Project} (distinct : (projectKeys projects).Nodup) {name : String}
    {p : Project} :
    findIn projects name = some p ↔ p ∈ projects ∧ projectKey p.name = projectKey name := by
  constructor
  · intro found
    exact ⟨List.mem_of_find?_eq_some found, by simpa using List.find?_some found⟩
  · rintro ⟨mem, same⟩
    cases found : findIn projects name with
    | none => exact absurd same (findIn_eq_none.mp found p mem)
    | some q =>
      have key : projectKey q.name = projectKey name := by simpa using List.find?_some found
      rw [List.inj_on_of_nodup_map distinct (List.mem_of_find?_eq_some found) mem (key.trans same.symm)]

section WellFormed

variable {s : Solution} (whole : s.WellFormed)
include whole

theorem mem_spelled {references : List String} {name : String} :
    name ∈ spelled s.projects references ↔
      ∃ t ∈ s.projects, t.name = name ∧ ∃ reference ∈ references, projectKey reference = projectKey name := by
  simp only [spelled, List.mem_map, List.mem_filterMap, findIn_eq_some whole.distinct]
  constructor
  · rintro ⟨t, ⟨reference, mem, listed, same⟩, rfl⟩
    exact ⟨t, listed, rfl, reference, mem, same.symm⟩
  · rintro ⟨t, listed, rfl, reference, mem, same⟩
    exact ⟨t, ⟨reference, mem, listed, same.symm⟩, rfl⟩

theorem keys_spelled {references : List String} (defined : ∀ reference ∈ references, s.defines reference = true) :
    (spelled s.projects references).map projectKey = references.map projectKey := by
  induction references with
  | nil => rfl
  | cons reference rest ih =>
    rw [List.forall_mem_cons] at defined
    obtain ⟨t, listed, same⟩ := defines_iff.mp defined.1
    have found := (findIn_eq_some whole.distinct).mpr ⟨listed, same⟩
    rw [spelled, List.filterMap_cons_some found, List.map_cons, List.map_cons, List.map_cons, same, ← ih defined.2]
    rfl

theorem links_relinked {p : Project} (hp : p ∈ s.projects) : s.Links p (relinked s.projects p) := by
  have tells : ∀ a ∈ spelled s.projects p.references, ∀ b ∈ spelled s.projects p.references,
      projectKey a = projectKey b → a = b := by
    intro a ha b hb same
    obtain ⟨t, listed, rfl, -⟩ := (mem_spelled whole).mp ha
    obtain ⟨u, listed', rfl, -⟩ := (mem_spelled whole).mp hb
    rw [List.inj_on_of_nodup_map whole.distinct listed listed' same]
  have order := pairwise_eraseDups tells
  rw [keys_spelled whole (whole.defined p hp)] at order
  refine ⟨rfl, rfl, fun name => ?_, order.imp fun lt same => ?_, order⟩
  · rw [← mem_spelled whole]
    exact List.mem_eraseDups
  · rw [same] at lt
    exact Nat.lt_irrefl _ lt

theorem ofSolution_of_wellFormed : ofSolution s = .ok ⟨s.projects.map (relinked s.projects)⟩ := by
  rw [ofSolution_eq, firstDuplicate_eq_none.mpr whole.distinct, dangling?_eq_none.mpr whole.defined]

end WellFormed

theorem wellFormed_of_ofSolution {s : Solution} {ps : Projects} (accepted : ofSolution s = .ok ps) : s.WellFormed := by
  rw [ofSolution_eq] at accepted
  cases distinct : firstDuplicate [] s.projects with
  | some p => rw [distinct] at accepted; cases accepted
  | none =>
    cases defined : s.dangling? with
    | some missing => rw [distinct, defined] at accepted; cases accepted
    | none => exact ⟨firstDuplicate_eq_none.mp distinct, dangling?_eq_none.mp defined⟩

theorem ofSolution_eq_error {s : Solution} {e : WorkspaceError} : ofSolution s = .error e ↔ s.Fault e := by
  rw [ofSolution_eq]
  constructor
  · intro failed
    cases found : firstDuplicate [] s.projects with
    | some p =>
      rw [found] at failed
      cases failed
      obtain ⟨before, after, split, distinct, taken⟩ := (firstDuplicate_eq_some [] List.nodup_nil).mp found
      exact .duplicate split distinct taken
    | none =>
      cases first : s.dangling? with
      | some missing =>
        rw [found, first] at failed
        cases failed
        exact .dangling (firstDuplicate_eq_none.mp found) first
      | none => rw [found, first] at failed; cases failed
  · intro fault
    cases fault with
    | duplicate split distinct taken =>
      rw [(firstDuplicate_eq_some [] List.nodup_nil).mpr ⟨_, _, split, distinct, taken⟩]
    | dangling distinct first => rw [firstDuplicate_eq_none.mpr distinct, first]

theorem exists_duplicate_iff {s : Solution} :
    (∃ name, s.Fault (.duplicateProject name)) ↔ ¬ (projectKeys s.projects).Nodup := by
  rw [← firstDuplicate_eq_none, ← ne_eq, Option.ne_none_iff_exists']
  constructor
  · rintro ⟨_, fault⟩
    cases fault with
    | @duplicate before after p split distinct taken =>
      exact ⟨p, (firstDuplicate_eq_some [] List.nodup_nil).mpr ⟨before, after, split, distinct, taken⟩⟩
  · rintro ⟨p, found⟩
    obtain ⟨before, after, split, distinct, taken⟩ := (firstDuplicate_eq_some [] List.nodup_nil).mp found
    exact ⟨p.name, .duplicate split distinct taken⟩

theorem exists_dangling_iff {s : Solution} :
    (∃ project reference, s.Fault (.danglingReference project reference)) ↔
      (projectKeys s.projects).Nodup ∧ ∃ p ∈ s.projects, ∃ reference ∈ p.references, s.defines reference = false := by
  constructor
  · rintro ⟨_, _, fault⟩
    cases fault with
    | dangling distinct first =>
      obtain ⟨hp, mem⟩ := mem_mentions.mp (List.mem_of_find?_eq_some first)
      exact ⟨distinct, _, hp, _, mem, by simpa using List.find?_some first⟩
  · rintro ⟨distinct, p, hp, reference, mem, undefined⟩
    cases first : s.dangling? with
    | none =>
      rw [dangling?_eq_none.mp first p hp reference mem] at undefined
      cases undefined
    | some missing => exact ⟨missing.1.name, missing.2, .dangling distinct first⟩

/-- A solution is accepted just if no two of its projects have one key and every reference has a project; else the
first project whose key came before is told, or, if there is none, the first reference without a project. What is
accepted has the projects in their order with their documents, whatever spelling a project is asked for in, and each
refers to projects of the solution by their own names, once each and in the order of first mention. -/
theorem ofSolution_checks (s : Solution) :
    (∀ e, ofSolution s = .error e ↔ s.Fault e) ∧
    ((∃ name, s.Fault (.duplicateProject name)) ↔ ¬ (projectKeys s.projects).Nodup) ∧
    ((∃ project reference, s.Fault (.danglingReference project reference)) ↔
      (projectKeys s.projects).Nodup ∧ ∃ p ∈ s.projects, ∃ reference ∈ p.references, s.defines reference = false) ∧
    ((∃ ps, ofSolution s = .ok ps) ↔ s.WellFormed) ∧
    ∀ ps, ofSolution s = .ok ps →
      List.Forall₂ s.Links s.projects ps.all ∧
      (∀ name p, ps.resolve name = .ok p ↔ p ∈ ps.all ∧ projectKey p.name = projectKey name) ∧
      (∀ name, ps.contains name = s.defines name) ∧
      ∀ p ∈ ps.all, ∀ name ∈ p.references, ∃ q ∈ ps.all, q.name = name ∧ ps.resolve name = .ok q := by
  refine ⟨fun e => ofSolution_eq_error, exists_duplicate_iff, exists_dangling_iff, ?_, fun ps accepted => ?_⟩
  · exact ⟨fun ⟨ps, accepted⟩ => wellFormed_of_ofSolution accepted, fun whole => ⟨_, ofSolution_of_wellFormed whole⟩⟩
  · have whole := wellFormed_of_ofSolution accepted
    have resolved (name : String) (p : Project) :
        ps.resolve name = .ok p ↔ p ∈ ps.all ∧ projectKey p.name = projectKey name := by
      rw [← findIn_eq_some (keys_nodup_of_ofSolution accepted), resolve, find?]
      cases findIn ps.all name <;> simp
    obtain rfl := Except.ok.inj (accepted.symm.trans (ofSolution_of_wellFormed whole))
    refine ⟨?_, resolved, fun name => ?_, fun p hp name mem => ?_⟩
    · exact List.forall₂_map_right_iff.mpr (List.forall₂_same.mpr fun p hp => links_relinked whole hp)
    · rw [contains, find?, findIn, List.isSome_find?, List.any_map]
      rfl
    · obtain ⟨q, hq, rfl⟩ := linked_of_ofSolution accepted p hp name mem
      exact ⟨q, hq, rfl, (resolved q.name q).mpr ⟨hq, rfl⟩⟩

/-- A project under two spellings, behind a reference that leads nowhere. -/
def respelled : Solution := ⟨none, [⟨"App", [], ["core", "Tests"]⟩, core, ⟨"CORE", [], []⟩]⟩

/-- The same without the second spelling. -/
def dangling : Solution := ⟨none, [⟨"App", [], ["core", "Tests"]⟩, core]⟩

theorem ofSolution_checks_layers :
    ofSolution layers = .ok layered ∧ List.Forall₂ layers.Links layers.projects layered.all ∧
      layered.resolve "CORE" = .ok core ∧ layered.resolve "host" = .ok host ∧ layers.WellFormed ∧
      respelled.Fault (.duplicateProject "CORE") ∧ dangling.Fault (.danglingReference "App" "Tests") := by
  obtain ⟨-, -, -, accepted, known⟩ := ofSolution_checks layers
  obtain ⟨links, resolved, -, -⟩ := known layered ofSolution_layers
  have twice : ofSolution respelled = .error (.duplicateProject "CORE") := by decide +kernel
  have nowhere : ofSolution dangling = .error (.danglingReference "App" "Tests") := by decide +kernel
  refine ⟨ofSolution_layers, links, (resolved "CORE" core).mpr ?_, (resolved "host" host).mpr ?_,
    accepted.mp ⟨layered, ofSolution_layers⟩, ((ofSolution_checks respelled).1 _).mp twice,
    ((ofSolution_checks dangling).1 _).mp nowhere⟩ <;> decide +kernel

end Projects
end CodeWorkspace
