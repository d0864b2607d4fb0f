import CodeWorkspace.Proofs.Outline.Sizes
import CodeWorkspace.Proofs.Query.Symbols
import CodeWorkspace.Proofs.Session.Provenance
import CodeWorkspace.Proofs.Symbols.Clashes
import Mathlib.Data.List.Find

/-! Warnings about hidden declarations. A build looks into the tables of the projects that it references directly. What
it finds there is what their documents declare, so that the trees alone tell what a build warns of. -/
namespace CodeWorkspace

/-- Warns of a type that hides a declaration of another project. -/
def Diagnostic.isShadowing (d : Diagnostic) : Bool := d.code = some "W0001"

/-! ## Bindings -/

namespace Bound

variable {references : List Symbols}

theorem shadowings_warnings (references : List Symbols) (o : Occurrence) :
    (warnings references o).filter (·.isShadowing) = warnings references o := by
  unfold warnings
  cases o.hidden? references <;> rfl

theorem shadowings_add (references : List Symbols) (b : Bound) (o : Occurrence) :
    (add references b o).diagnostics.filter (·.isShadowing) =
      b.diagnostics.filter (·.isShadowing) ++ warnings references o := by
  cases found : b.symbols.get? o.visit.qualifiedName with
  | none => rw [add_free found, List.filter_append, shadowings_warnings]
  | some x =>
    have other : (o.redefining x).isShadowing = false := rfl
    rw [add_taken found, List.filter_append, List.filter_append, shadowings_warnings]
    split <;> simp [other]

/-- Every declaration is warned of on its own, whatever became of the others. -/
theorem shadowings_foldl (references : List Symbols) (b : Bound) (os : List Occurrence) :
    (os.foldl (add references) b).diagnostics.filter (·.isShadowing) =
      b.diagnostics.filter (·.isShadowing) ++ os.flatMap (warnings references) := by
  induction os generalizing b with
  | nil => simp
  | cons o rest ih => rw [List.foldl_cons, ih, shadowings_add, List.flatMap_cons, List.append_assoc]

theorem project_add (references : List Symbols) (b : Bound) (o : Occurrence) :
    (add references b o).symbols.project = b.symbols.project := by
  cases found : b.symbols.get? o.visit.qualifiedName with
  | none => rw [add_free found]
  | some x => rw [add_taken found]

theorem project_foldl (references : List Symbols) (b : Bound) (os : List Occurrence) :
    (os.foldl (add references) b).symbols.project = b.symbols.project := by
  induction os generalizing b with
  | nil => rfl
  | cons o rest ih => rw [List.foldl_cons, ih, project_add]

theorem contains_ofUnits (project : String) (units : List SourceUnit) (references : List Symbols) (name : String) :
    (ofUnits project units references).symbols.contains name =
      (units.flatMap (·.occurrences)).any (·.visit.qualifiedName = name) := by
  rw [Symbols.contains, get?_ofUnits, Option.isSome_map, List.isSome_find?]

end Bound

/-! ## Builds -/

theorem Outline.Problem.code_ne_shadowing (p : Problem) : p.code ≠ "W0001" := by
  cases p <;> simp only [code] <;> decide

/-- Parsing reports nothing of the kind. -/
theorem Outline.code_ne_shadowing_of_parse {path : Path} {text : String} :
    ∀ d ∈ (parse path text).diagnostics, d.code ≠ some "W0001" := by
  intro d mem same
  rcases Nat.lt_or_ge text.utf8ByteSize UInt32.size with small | large
  · rw [parse_of_lt path small] at mem
    obtain ⟨problem, -, rfl⟩ := List.mem_map.mp mem
    exact problem.code_ne_shadowing (Option.some.inj same)
  · rw [parse_of_le path large, List.mem_singleton] at mem
    subst mem
    exact absurd (Option.some.inj same) (by decide)

theorem Diagnostic.code_within (path : Path) (d : Diagnostic) : (d.within path).code = d.code := by
  unfold within
  split <;> rfl

namespace Job

theorem shadowings_parseAll {documents : List Document} {p : Parse} (parsed : parseAll .outline documents = .ok p) :
    p.diagnostics.filter (·.isShadowing) = [] := by
  induction documents generalizing p with
  | nil => cases parsed; rfl
  | cons d rest ih =>
    rw [parseAll] at parsed
    split at parsed
    · cases parsed
    · next made =>
      cases made
      split at parsed
      · cases parsed
      · next q here =>
        cases parsed
        rw [List.filter_append, ih here, List.append_nil, List.filter_eq_nil_iff]
        rintro _ mem
        obtain ⟨report, reported, rfl⟩ := List.mem_map.mp mem
        rw [Diagnostic.isShadowing, Diagnostic.code_within, decide_eq_true_eq]
        exact Outline.code_ne_shadowing_of_parse report reported

theorem binding_of_run {j : Job} {s : Snapshot} (made : j.run .outline = .ok s) :
    let bound := Bound.ofUnits s.project (s.documents.map (·.toSourceUnit)) (s.references.map (·.symbols))
    s.references = j.inputs.references ∧ s.symbols = bound.symbols ∧
      s.diagnostics.filter (·.isShadowing) = bound.diagnostics.filter (·.isShadowing) := by
  obtain ⟨y, yields, -, rfl⟩ := run_eq_ok_iff.mp made
  unfold Inputs.yield at yields
  split at yields
  · cases yields
  · next parse parsed =>
    cases yields
    refine ⟨rfl, rfl, ?_⟩
    exact (List.filter_append ..).trans (by rw [shadowings_parseAll parsed, List.nil_append]; rfl)

end Job

/-! ## Snapshots -/

namespace Snapshot

/-- Whether the documents of the project have a declaration of this name, of whatever kind. -/
def declares (s : Snapshot) (name : String) : Bool := s.declarations.any (·.qualifiedName = name)

end Snapshot

def Declaration.shadowing (d : Declaration) (owner : Snapshot) : Diagnostic where
  severity := .warning
  message := s!"`{d.qualifiedName}` hides a declaration from project {owner.project}"
  code := some "W0001"
  path := some d.path
  span := some d.span

namespace Snapshot

/-- The first direct reference that the declaration hides a name of. -/
def hidden? (s : Snapshot) (d : Declaration) : Option Snapshot :=
  if d.kind.isTypeLike then s.references.find? (·.declares d.qualifiedName) else none

/-- What there is to warn of, as the trees tell it. -/
def shadowings (s : Snapshot) : List Diagnostic :=
  s.declarations.filterMap fun d => (s.hidden? d).map d.shadowing

section Genuine

variable {hashed : List Job.Inputs} {s : Snapshot}

/-- The table knows the names that the documents declare, though it keeps but one declaration of each. -/
theorem Genuine.contains_symbols (genuine : s.Genuine (· = .outline) hashed) (name : String) :
    s.symbols.contains name = s.declares name := by
  obtain ⟨rfl, -, made, -⟩ := genuine
  rw [(Job.binding_of_run made).2.1, Bound.contains_ofUnits, declares, declarations_eq, List.any_map]
  rfl

theorem Genuine.project_symbols (genuine : s.Genuine (· = .outline) hashed) : s.symbols.project = s.project := by
  obtain ⟨rfl, -, made, -⟩ := genuine
  rw [(Job.binding_of_run made).2.1]
  exact Bound.project_foldl _ _ _

theorem Genuine.references (genuine : s.Genuine (· = .outline) hashed) :
    ∀ r ∈ s.references, r.Genuine (· = .outline) hashed := by
  obtain ⟨rfl, -, made, references⟩ := genuine
  rw [(Job.binding_of_run made).1]
  exact references

theorem Genuine.hidden?_eq (genuine : s.Genuine (· = .outline) hashed) (o : Occurrence) :
    o.hidden? (s.references.map (·.symbols)) = (s.hidden? (o.declaration s.project)).map (·.symbols) := by
  have owner : s.references.find? ((·.contains o.visit.qualifiedName) ∘ (·.symbols)) =
      s.references.find? (·.declares o.visit.qualifiedName) :=
    List.find?_congr fun r mem => (genuine.references r mem).contains_symbols o.visit.qualifiedName
  have kind : (o.declaration s.project).kind = o.visit.node.kind := rfl
  unfold Occurrence.hidden? hidden?
  rw [List.find?_map, owner, kind]
  split <;> rfl

theorem Genuine.warnings_eq (genuine : s.Genuine (· = .outline) hashed) (o : Occurrence) :
    Bound.warnings (s.references.map (·.symbols)) o =
      ((s.hidden? (o.declaration s.project)).map (o.declaration s.project).shadowing).toList := by
  rw [Bound.warnings, genuine.hidden?_eq, Option.map_map]
  refine congrArg Option.toList (Option.map_congr fun owner found => ?_)
  have mem : owner ∈ s.references := by
    unfold hidden? at found
    split at found
    · exact List.mem_of_find?_eq_some found
    · cases found
  rw [Function.comp_apply, Occurrence.shadowing, (genuine.references owner mem).project_symbols]
  rfl

theorem Genuine.shadowings_eq (genuine : s.Genuine (· = .outline) hashed) :
    s.diagnostics.filter (·.isShadowing) = s.shadowings := by
  have made : s.diagnostics.filter (·.isShadowing) =
      ((s.documents.map (·.toSourceUnit)).flatMap (·.occurrences)).flatMap
        (Bound.warnings (s.references.map (·.symbols))) := by
    obtain ⟨rfl, -, made, -⟩ := genuine
    rw [(Job.binding_of_run made).2.2, Bound.ofUnits, Bound.shadowings_foldl]
    rfl
  rw [made, shadowings, declarations_eq, List.filterMap_map, List.filterMap_eq_flatMap_toList]
  exact List.flatMap_congr fun o _ => genuine.warnings_eq o

end Genuine
end Snapshot

/-! ## Whatever is built -/

namespace SharedCache

/-- The warnings of a snapshot are those on its own types, in the order of their declaration, that have the name of a
declaration of a direct reference, and each names the first such reference. Snapshots further down count for nothing. A
cache that works with this toolchain has no other snapshots. -/
theorem shadowings_of_built :
    (∀ hashed s, Snapshot.Genuine (· = .outline) hashed s → s.diagnostics.filter (·.isShadowing) = s.shadowings) ∧
    ∀ events, (∀ event ∈ events, event.2.Uses (· = .outline)) →
      (∀ n s, (run events).engine.outcome? n = some (.ok s) → s.Genuine (· = .outline) (run events).hashed) ∧
      ∀ c ∈ (run events).calls, ∀ s, c.answer? = some (.ok s) → s.Genuine (· = .outline) (run events).hashed := by
  refine ⟨fun hashed s genuine => genuine.shadowings_eq, fun events one => ⟨?_, ?_⟩⟩
  · exact fun n s ended => genuine_of_outcome one ended
  · exact fun c hc s answer => genuine_of_answer one hc answer

def base : Job := ⟨⟨"Base", [⟨⟨"base.cs"⟩, "class Far {}", 1⟩], []⟩, 1⟩

def mid (base : Snapshot) : Job :=
  ⟨⟨"Mid", [⟨⟨"mid.cs"⟩, "namespace N {} fn Near();", 1⟩], [base]⟩, 2⟩

def top (mid : Snapshot) : Job :=
  ⟨⟨"Top", [⟨⟨"top.cs"⟩, "namespace N {} class Far {} class Near {}", 1⟩], [mid]⟩, 3⟩

/-- One project on another; the last one hides a function of the one below it and a class of the one below that. -/
def layered : Except WorkspaceError Snapshot := do
  let base ← base.run .outline
  let mid ← (mid base).run .outline
  (top mid).run .outline

theorem genuine_of_layered {s : Snapshot} (built : layered = .ok s) : ∃ hashed, s.Genuine (· = .outline) hashed := by
  unfold layered at built
  cases first : base.run .outline with
  | error => rw [first] at built; cases built
  | ok b =>
    rw [first] at built
    cases second : (mid b).run .outline with
    | error => exact absurd built (by simp [second, bind, Except.bind])
    | ok m =>
      have third : (top m).run .outline = .ok s := by simpa [second, bind, Except.bind] using built
      refine ⟨[base.inputs, (mid b).inputs, (top m).inputs], .run rfl (by simp) third ?_⟩
      refine List.forall_mem_singleton.mpr (.run rfl (by simp) second ?_)
      exact List.forall_mem_singleton.mpr (.run rfl (by simp) first nofun)

theorem shadowings_of_built_layered :
    (∃ hashed s, layered = .ok s ∧ s.Genuine (· = .outline) hashed ∧
      s.diagnostics.filter (·.isShadowing) = s.shadowings ∧
      s.shadowings.map (·.message) = ["`Near` hides a declaration from project Mid"]) ∧
    (∀ event ∈ parted, event.2.Uses (· = .outline)) ∧
    ∃ c ∈ (run parted).calls, ∃ s, c.answer? = some (.ok s) ∧ s.Genuine (· = .outline) (run parted).hashed := by
  constructor
  · have told : ∃ s ∈ layered.toOption,
        s.shadowings.map (·.message) = ["`Near` hides a declaration from project Mid"] := by
      decide +kernel
    obtain ⟨s, here, told⟩ := told
    have built : layered = .ok s := by
      cases made : layered with
      | error failure => rw [made] at here; cases here
      | ok t => rw [made] at here; cases here; rfl
    obtain ⟨hashed, genuine⟩ := genuine_of_layered built
    exact ⟨hashed, s, built, genuine, shadowings_of_built.1 hashed s genuine, told⟩
  · have one : ∀ event ∈ parted, event.2.Uses (· = .outline) := by simp [parted, Session.Event.Uses]
    have answered : ∃ c ∈ (run parted).calls, (c.answer?.any (·.isOk)) = true := by
      simp only [run, parted, List.foldl, after, session,
        Session.after_call Solution.ofSolution_pair compilationOrder_lib]
      decide +kernel
    obtain ⟨c, hc, isOk⟩ := answered
    obtain ⟨s, answer⟩ := Call.exists_of_isOk isOk
    exact ⟨one, c, hc, s, answer, (shadowings_of_built.2 parted one).2 c hc s answer⟩

end SharedCache
end CodeWorkspace
