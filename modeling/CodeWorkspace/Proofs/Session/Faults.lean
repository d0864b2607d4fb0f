import CodeWorkspace.Proofs.Engine.SingleFlight
import CodeWorkspace.Proofs.Session.Soundness
import CodeWorkspace.Proofs.Solution.Cycles
import CodeWorkspace.Workspace

/-! What is wrong with the projects or the documents that a caller needs comes out before it gets to the cache, which
is left as it was. Whoever gets there is given a snapshot or the errors of a build, or gives up waiting for one. -/
namespace CodeWorkspace

/-! ## Documents that are missing -/

namespace Store

/-- The first of these paths that the store does not hold. -/
def absent? (s : Store) (paths : List Path) : Option Path := paths.find? (!s.contains ·)

variable {s : Store} {paths : List Path}

theorem get?_of_absent?_none (all : s.absent? paths = none) : ∀ path ∈ paths, ∃ d, s.get? path = some d := by
  intro path mem
  have held := List.find?_eq_none.mp all path mem
  exact Option.ne_none_iff_exists'.mp (by simpa [contains] using held)

theorem capture_eq (s : Store) (paths : List Path) :
    s.capture paths =
      match s.absent? paths with
      | some path => .error (.documentNotFound path)
      | none => .ok (paths.filterMap s.get?) := by
  induction paths with
  | nil => rfl
  | cons path rest ih =>
    cases held : s.get? path with
    | none => simp [capture, read, absent?, contains, held]
    | some d =>
      have later : s.absent? (path :: rest) = s.absent? rest := by simp [absent?, contains, held]
      rw [capture, read, held, later, ih, List.filterMap_cons_some held]
      cases s.absent? rest <;> rfl

theorem length_filterMap_get? (all : s.absent? paths = none) : (paths.filterMap s.get?).length = paths.length := by
  rw [List.filterMap_length_eq_length]
  intro path mem
  obtain ⟨d, held⟩ := get?_of_absent?_none all path mem
  simp [held]

end Store

namespace Request

/-- Documents in one row, cut up again by how many each project has. -/
def cut : List Project → List Document → List (Project × List Document)
  | [], _ => []
  | p :: rest, documents =>
    (p, documents.take p.documents.length) :: cut rest (documents.drop p.documents.length)

/-- The documents of all projects are captured in one go. -/
theorem captureAll_eq_cut (store : Store) (order : List Project) :
    captureAll store order = (store.capture (order.flatMap (·.documents))).map (cut order) := by
  induction order with
  | nil => rfl
  | cons p rest ih =>
    rw [captureAll, ih, List.flatMap_cons, Store.capture_eq, Store.capture_eq, Store.capture_eq]
    simp only [Store.absent?, List.find?_append]
    cases here : p.documents.find? (!store.contains ·) with
    | some path => rfl
    | none =>
      have length := Store.length_filterMap_get? here
      cases (rest.flatMap (·.documents)).find? (!store.contains ·) with
      | some path => rfl
      | none => simp [Except.map, cut, ← length]

theorem ofStore_eq {ps : Projects} {store : Store} {name : String} {order : List Project}
    (ordered : ps.compilationOrder name = .ok order) :
    ofStore ps store name =
      match store.absent? (order.flatMap (·.documents)) with
      | some path => .error (.documentNotFound path)
      | none => .ok { name, remaining := cut order ((order.flatMap (·.documents)).filterMap store.get?) } := by
  simp only [ofStore, ordered, captureAll_eq_cut, Store.capture_eq]
  cases store.absent? (order.flatMap (·.documents)) <;> rfl

end Request

/-! ## What is at fault -/

/-- The store does not hold all documents of a closure. -/
def Projects.Lacks (ps : Projects) (store : Store) (root : Project) : Prop :=
  ∃ p, ps.Reaches root p ∧ ∃ path ∈ p.documents, store.contains path = false

def Projects.Workable (ps : Projects) (store : Store) (name : String) : Prop :=
  ∃ root, ps.find? name = some root ∧ ¬ps.Cyclic root ∧ ¬ps.Lacks store root

/-- Each fault counts only where the ones above it are ruled out. -/
inductive Fault (ps : Projects) (store : Store) (name : String) : WorkspaceError → Prop where
  | unknown (absent : ps.find? name = none) : Fault ps store name (.projectNotFound name)
  | circle {root : Project} {cycle : List String} (found : ps.find? name = some root) (cyclic : ps.Cyclic root) :
      Fault ps store name (.cyclicReference cycle)
  | missing {root : Project} {order : List Project} {path : Path} (found : ps.find? name = some root)
      (ordered : ps.compilationOrder name = .ok order)
      (first : store.absent? (order.flatMap (·.documents)) = some path) : Fault ps store name (.documentNotFound path)

section Fault

variable {ps : Projects} {store : Store} {name : String} {root : Project} {order : List Project}
  {failure : WorkspaceError} {q : Request}

theorem Projects.compilationOrder_unknown (absent : ps.find? name = none) :
    ps.compilationOrder name = .error (.projectNotFound name) := by
  rw [compilationOrder, extend]
  split
  · rfl
  · next found => cases absent.symm.trans found

theorem fault_of_compilationOrder (linked : ps.Linked) (distinct : ps.Distinct)
    (failed : ps.compilationOrder name = .error failure) : Fault ps store name failure := by
  cases found : ps.find? name with
  | none =>
    rw [Projects.compilationOrder_unknown found] at failed
    cases failed
    exact .unknown found
  | some root =>
    obtain ⟨cyclic, cycle, rfl, -⟩ := Projects.circle_of_compilationOrder linked distinct found failed
    exact .circle found cyclic

theorem Request.fault_of_ofStore (linked : ps.Linked) (distinct : ps.Distinct)
    (failed : ofStore ps store name = .error failure) : Fault ps store name failure := by
  cases ordered : ps.compilationOrder name with
  | error =>
    rw [ofStore, ordered] at failed
    cases failed
    exact fault_of_compilationOrder linked distinct ordered
  | ok order =>
    obtain ⟨root, -, found, -⟩ := Projects.last_of_compilationOrder ordered
    rw [ofStore_eq ordered] at failed
    split at failed
    · next first =>
      cases failed
      exact .missing found ordered first
    · cases failed

/-- The documents in the order are those of the closure. -/
theorem Projects.lacks_iff (linked : ps.Linked) (distinct : ps.Distinct) (found : ps.find? name = some root)
    (ordered : ps.compilationOrder name = .ok order) :
    ps.Lacks store root ↔ ∃ path, store.absent? (order.flatMap (·.documents)) = some path := by
  have closure (p : Project) := mem_compilationOrder_iff linked distinct ordered found (q := p)
  rw [← Option.isSome_iff_exists, Store.absent?, List.find?_isSome]
  constructor
  · rintro ⟨p, reached, path, mem, absent⟩
    exact ⟨path, List.mem_flatMap.mpr ⟨p, (closure p).mpr reached, mem⟩, by simp [absent]⟩
  · rintro ⟨path, mem, absent⟩
    obtain ⟨p, hp, mem⟩ := List.mem_flatMap.mp mem
    exact ⟨p, (closure p).mp hp, path, mem, by simpa using absent⟩

theorem Request.workable_of_ofStore (linked : ps.Linked) (distinct : ps.Distinct)
    (made : ofStore ps store name = .ok q) : ps.Workable store name := by
  obtain ⟨order, ordered, -, along⟩ := along_of_ofStore made
  obtain ⟨root, -, found, -⟩ := Projects.last_of_compilationOrder ordered
  refine ⟨root, found, Projects.not_cyclic_of_compilationOrder linked distinct found ordered, ?_⟩
  rw [Projects.lacks_iff linked distinct found ordered]
  rintro ⟨path, first⟩
  rw [ofStore_eq ordered, first] at made
  cases made

end Fault

/-! ## Verdicts -/

/-- What comes of a build, or of waiting for it. -/
inductive FromBuild : Except WorkspaceError Snapshot → Prop where
  | made (s : Snapshot) : FromBuild (.ok s)
  | failed (project : String) (diagnostics : List Diagnostic) : FromBuild (.error (.compilation project diagnostics))
  | late (project : String) (timeout : Duration) : FromBuild (.error (.buildTimeout project timeout))

/-- What a caller may be told, and when. -/
structure Verdict (ps : Projects) (store : Store) (name : String) (result : Except WorkspaceError Snapshot) :
    Prop where
  unknown : ∀ asked, result = .error (.projectNotFound asked) ↔ asked = name ∧ ps.find? name = none
  circle : ∀ root, ps.find? name = some root →
    ((∃ cycle, result = .error (.cyclicReference cycle)) ↔ ps.Cyclic root)
  missing : ∀ root, ps.find? name = some root → ¬ps.Cyclic root →
    ((∃ path, result = .error (.documentNotFound path)) ↔ ps.Lacks store root)
  first : ∀ path, result = .error (.documentNotFound path) →
    ∃ order, ps.compilationOrder name = .ok order ∧ store.absent? (order.flatMap (·.documents)) = some path
  otherwise : ps.Workable store name → FromBuild result

section Verdict

variable {ps : Projects} {store : Store} {name : String} {failure : WorkspaceError}
  {result : Except WorkspaceError Snapshot}

theorem fromBuild_run (tc : Toolchain) (j : Job) : FromBuild (j.run tc) := by
  unfold Job.run
  split
  · exact .failed ..
  · split
    · exact .failed ..
    · exact .made _

theorem Fault.not_workable (linked : ps.Linked) (distinct : ps.Distinct) (fault : Fault ps store name failure) :
    ¬ps.Workable store name := by
  rintro ⟨root, found, acyclic, complete⟩
  cases fault with
  | unknown absent => cases absent.symm.trans found
  | circle found' cyclic =>
    cases found.symm.trans found'
    exact acyclic cyclic
  | missing found' ordered first =>
    cases found.symm.trans found'
    exact complete ((Projects.lacks_iff linked distinct found ordered).mpr ⟨_, first⟩)

theorem verdict_of_fault (linked : ps.Linked) (distinct : ps.Distinct) (fault : Fault ps store name failure) :
    Verdict ps store name (.error failure) where
  unknown asked := by
    cases fault with
    | unknown absent => simp [absent, eq_comm]
    | circle found => simp [found]
    | missing found => simp [found]
  circle root found := by
    cases fault with
    | unknown absent => cases absent.symm.trans found
    | circle found' cyclic =>
      cases found.symm.trans found'
      simp [cyclic]
    | missing found' ordered =>
      cases found.symm.trans found'
      simp [Projects.not_cyclic_of_compilationOrder linked distinct found ordered]
  missing root found acyclic := by
    cases fault with
    | unknown absent => cases absent.symm.trans found
    | circle found' cyclic =>
      cases found.symm.trans found'
      exact absurd cyclic acyclic
    | missing found' ordered first =>
      cases found.symm.trans found'
      have lacks := (Projects.lacks_iff linked distinct found ordered).mpr ⟨_, first⟩
      exact ⟨fun _ => lacks, fun _ => ⟨_, rfl⟩⟩
  first path named := by
    cases named
    cases fault with
    | missing found ordered first => exact ⟨_, ordered, first⟩
  otherwise workable := absurd workable (fault.not_workable linked distinct)

theorem verdict_of_fromBuild (workable : ps.Workable store name) (ends : FromBuild result) :
    Verdict ps store name result := by
  obtain ⟨root, found, acyclic, complete⟩ := workable
  refine ⟨fun asked => ?_, fun other found' => ?_, fun other found' _ => ?_, fun path named => ?_, fun _ => ends⟩
  · cases ends <;> simp [found]
  · cases found.symm.trans found'
    cases ends <;> simp [acyclic]
  · cases found.symm.trans found'
    cases ends <;> simp [complete]
  · rw [named] at ends
    cases ends

end Verdict

/-! ## Requests on their way -/

namespace Request

variable {store : Store} {order taken : List Project} {q : Request}

theorem Along.isSome_snapshot? (along : q.Along store order taken) {p : Project} (mem : p ∈ taken) :
    (q.snapshot? p.name).isSome = true := by
  obtain ⟨s, given⟩ := exists_given along.names mem
  simp only [snapshot?, Option.isSome_map, List.find?_isSome]
  exact ⟨_, given, by simp⟩

/-- A request on its way along an order in which each project stands behind all that it references. -/
def Steady (q : Request) : Prop :=
  ∃ store order taken, q.Along store order taken ∧ Projects.Founded [] order ∧ order ≠ []

theorem steady_of_ofStore {ps : Projects} {name : String} (linked : ps.Linked) (distinct : ps.Distinct)
    (made : ofStore ps store name = .ok q) : q.Steady := by
  obtain ⟨order, ordered, -, along⟩ := along_of_ofStore made
  obtain ⟨root, before, -, last⟩ := Projects.last_of_compilationOrder ordered
  exact ⟨store, order, [], along, Projects.founded_of_compilationOrder linked distinct ordered, by simp [last]⟩

/-- Such a request does not fail by itself. What it refers to is there, and in the end so is a snapshot. -/
theorem Steady.demand (h : q.Steady) : (∃ i, q.demand = .needs i) ∨ ∃ s, q.demand = .finished (.ok s) := by
  obtain ⟨store, order, taken, along, founded, nonempty⟩ := h
  have split := along.order
  unfold Request.demand
  cases remaining : q.remaining with
  | nil =>
    right
    rw [remaining, List.map_nil, List.append_nil] at split
    obtain ⟨p, mem⟩ := List.exists_mem_of_ne_nil order nonempty
    rw [← split] at mem
    obtain ⟨s, given⟩ := exists_given along.names mem
    cases built : q.built with
    | nil =>
      rw [built] at given
      cases given
    | cons x rest => exact ⟨x.2, rfl⟩
  | cons x rest =>
    left
    obtain ⟨p, documents⟩ := x
    rw [remaining, List.map_cons] at split
    rw [← split] at founded
    have given : ∀ name ∈ p.references, (q.snapshot? name).isSome = true := by
      intro name mem
      obtain ⟨r, taken, rfl⟩ := Projects.isNamed_iff.mp (Projects.named_of_founded founded name mem)
      exact along.isSome_snapshot? taken
    obtain ⟨references, found⟩ := exists_references given
    exact ⟨⟨p.name, documents, references⟩, by simp only [found]⟩

theorem Steady.advance {i : Job.Inputs} (h : q.Steady) (needs : q.demand = .needs i) (s : Snapshot) :
    (q.advance s).Steady := by
  obtain ⟨store, order, taken, along, ordered⟩ := h
  obtain ⟨p, rest, remaining, -⟩ := along.next needs
  exact ⟨store, order, taken ++ [p], along.advance remaining s, ordered⟩

end Request

/-! ## Runners -/

namespace Engine

/-- The outcomes on record are those of builds. -/
def Built (e : Engine) : Prop := ∀ n result, e.outcome? n = some result → FromBuild result

variable {e : Engine}

theorem Sound.built {tools : Toolchain → Prop} (h : e.Sound tools) : e.Built := by
  intro n result ended
  obtain ⟨j, -, -, tc, -, rfl⟩ := h.outcomes n result ended
  exact fromBuild_run tc j

theorem Built.lookup (h : e.Built) (i : Job.Inputs) : (e.lookup i).2.Built := by
  have way := looked e i
  generalize e.lookup i = r at way
  cases way <;> exact h

theorem Built.finish (h : e.Built) (tc : Toolchain) (j : Job) : (e.finish tc j).Built := by
  intro n result ended
  rw [outcome?_finish] at ended
  split at ended
  · cases ended
    exact fromBuild_run tc j
  · exact h n result ended

theorem Built.settle (h : e.Built) (run : Runner) : (e.settle run).Built := by
  unfold Engine.settle
  generalize e.running.filter (run.ready e.running) = ready
  induction ready generalizing e with
  | nil => exact h
  | cons j rest ih => exact ih (h.finish run.toolchain j)

theorem fromBuild_proceed {q : Request} {result : Except WorkspaceError Snapshot} (run : Runner) (built : e.Built)
    (steady : q.Steady) (ends : (e.proceed run q).1 = .finished result) : FromBuild result := by
  fun_induction Engine.proceed run e q with
  | case1 e q result' demand =>
    cases ends
    rcases steady.demand with ⟨i, needs⟩ | ⟨s, made⟩
    · cases demand.symm.trans needs
    · cases demand.symm.trans made
      exact .made s
  | case2 e q i needs s e' found ih =>
    have looked := built.lookup i
    rw [found] at looked
    exact ih looked (steady.advance needs s) ends
  | case3 => cases ends
  | case4 e q i needs n e' found f failure =>
    rename_i ended
    have looked := built.lookup i
    rw [found] at looked
    cases ends
    exact looked.settle run n _ ended
  | case5 e q i needs n e' found f s =>
    rename_i ended ih
    have looked := built.lookup i
    rw [found] at looked
    exact ih (looked.settle run) (steady.advance needs s) ends

end Engine

namespace Workspace

variable {ps : Projects} {store : Store} {name : String} {w : Workspace}

theorem compile_fault {failure : WorkspaceError} (run : Runner)
    (failed : Request.ofStore ps store name = .error failure) :
    w.compile run ps store name = (.error failure, w) := by
  simp only [compile, Engine.enter, failed, Engine.conclude]

theorem fromBuild_compile {q : Request} (run : Runner) (built : w.engine.Built)
    (made : Request.ofStore ps store name = .ok q) (steady : q.Steady) :
    FromBuild (w.compile run ps store name).1 := by
  simp only [compile, Engine.enter, made]
  cases caller : (w.engine.proceed run q).1 with
  | finished result => exact w.engine.fromBuild_proceed run built steady caller
  | waits => exact .late ..

end Workspace

/-! ## Callers among others -/

namespace Call

/-- What may happen at a cache once a caller has come. -/
inductive Turn where
  | lookup
  | wake
  | giveUp (timeout : Duration)
  /-- None of this caller's doing. -/
  | others (event : Desk.Event)

def Turn.others? : Turn → Option Desk.Event
  | .others event => some event
  | .lookup | .wake | .giveUp _ => none

def move (x : Desk × Call) (step : Engine → Call → Engine × Call) : Desk × Call :=
  ({ x.1 with engine := (step x.1.engine x.2).1 }, (step x.1.engine x.2).2)

def turn (x : Desk × Call) : Turn → Desk × Call
  | .lookup => move x fun e c => c.lookup e
  | .wake => move x fun e c => c.wake e
  | .giveUp timeout => move x fun e c => c.giveUp timeout e
  | .others event => (x.1.after event, x.2)

def among (d : Desk) (t : Task) (turns : List Turn) : Desk × Call :=
  turns.foldl turn (d, { toTask := t, stage := .begin t })

/-- A caller that was told already takes no step. -/
theorem foldl_turn_returned {c : Call} {built : List (String × Snapshot)} {result : Except WorkspaceError Snapshot}
    (stage : c.stage = .returned built result) (d : Desk) (turns : List Turn) :
    turns.foldl turn (d, c) = ((turns.filterMap Turn.others?).foldl Desk.after d, c) := by
  induction turns generalizing d with
  | nil => rfl
  | cons now rest ih =>
    rw [List.foldl_cons]
    cases now with
    | others event => exact ih (d.after event)
    | lookup | wake | giveUp =>
      simp only [turn, move, lookup, wake, giveUp, stage]
      exact ih d

/-- A caller on its way, or one that was told what comes of builds. -/
inductive Stage.Proper : Stage → Prop where
  | asks {i : Job.Inputs} {q : Request} (steady : q.Steady) (needs : q.demand = .needs i) : Proper (.asks i q)
  | waits {number : Nat} {i : Job.Inputs} {q : Request} (steady : q.Steady) (needs : q.demand = .needs i) :
      Proper (.waits number i q)
  | returned {built : List (String × Snapshot)} {result : Except WorkspaceError Snapshot} (ends : FromBuild result) :
      Proper (.returned built result)

theorem Stage.proper_ofRequest {q : Request} (steady : q.Steady) : (Stage.ofRequest q).Proper := by
  rcases steady.demand with ⟨i, needs⟩ | ⟨s, ends⟩
  · simp only [Stage.ofRequest, needs]
    exact .asks steady needs
  · simp only [Stage.ofRequest, ends]
    exact .returned (.made s)

theorem Stage.proper_receive {q : Request} {i : Job.Inputs} {result : Except WorkspaceError Snapshot}
    (steady : q.Steady) (needs : q.demand = .needs i) (ends : FromBuild result) :
    (Stage.receive q result).Proper := by
  cases result with
  | error => exact .returned ends
  | ok s => exact proper_ofRequest (steady.advance needs s)

theorem Moves.proper {e : Engine} {c : Call} {r : Engine × Call} (h : Moves e c r) (built : e.Built)
    (proper : c.stage.Proper) : r.2.stage.Proper := by
  cases h with
  | stays => exact proper
  | hit stage =>
    rw [stage] at proper
    obtain ⟨steady, needs⟩ := proper
    exact Stage.proper_receive steady needs (.made _)
  | joins stage =>
    rw [stage] at proper
    obtain ⟨steady, needs⟩ := proper
    exact .waits steady needs
  | starts stage =>
    rw [stage] at proper
    obtain ⟨steady, needs⟩ := proper
    exact .waits steady needs
  | wakes stage ended =>
    rw [stage] at proper
    cases proper with
    | waits steady needs => exact Stage.proper_receive steady needs (built _ _ ended)
  | givesUp => exact .returned (.late ..)

theorem proper_turn {x : Desk × Call} (sound : x.1.Sound) (proper : x.2.stage.Proper) (now : Turn) :
    (turn x now).1.Sound ∧ (turn x now).2.stage.Proper := by
  have moves {step : Engine → Call → Engine × Call} (way : Moves x.1.engine x.2 (step x.1.engine x.2)) :
      (move x step).1.Sound ∧ (move x step).2.stage.Proper := by
    refine ⟨⟨way.engine sound.engine, fun t ht => ?_⟩, way.proper sound.engine.built proper⟩
    exact (sound.tickets t ht).mono way.leads
  cases now with
  | lookup => exact moves (moves_lookup ..)
  | wake => exact moves (moves_wake ..)
  | giveUp => exact moves (moves_giveUp ..)
  | others event => exact ⟨sound.after event, proper⟩

theorem proper_foldl {x : Desk × Call} (sound : x.1.Sound) (proper : x.2.stage.Proper) (turns : List Turn) :
    (turns.foldl turn x).2.stage.Proper := by
  induction turns generalizing x with
  | nil => exact proper
  | cons now rest ih =>
    obtain ⟨sound, proper⟩ := proper_turn sound proper now
    exact ih sound proper

theorem proper_among {d : Desk} {t : Task} {q : Request} (sound : d.Sound)
    (made : Request.ofStore t.projects t.captured t.name = .ok q) (steady : q.Steady) (turns : List Turn) :
    (among d t turns).2.stage.Proper := by
  apply proper_foldl sound
  simp only [Stage.begin, made]
  exact Stage.proper_ofRequest steady

theorem among_fault {t : Task} {failure : WorkspaceError} (d : Desk)
    (failed : Request.ofStore t.projects t.captured t.name = .error failure) (turns : List Turn) :
    (among d t turns).2.answer? = some (.error failure) ∧
      (among d t turns).1 = (turns.filterMap Turn.others?).foldl Desk.after d := by
  have stage : Stage.begin t = .returned [] (.error failure) := by simp only [Stage.begin, failed]
  rw [among, foldl_turn_returned stage]
  exact ⟨answer?_eq_some.mpr ⟨[], stage⟩, rfl⟩

/-- Whatever came before at the cache and whatever else happens there, a caller is told of a fault at once and without
a trace of it at the cache. Where there is none, nothing but a build decides what it is told. -/
theorem faults_come_first {s : Solution} {ps : Projects} (checked : Projects.ofSolution s = .ok ps)
    (history : List Desk.Event) (store : Store) (name : String) :
    (∀ turns : List Turn,
      let d := Desk.run history
      let x := among d ⟨ps, name, store⟩ turns
      (∀ result, x.2.answer? = some result → Verdict ps store name result) ∧
        (¬ps.Workable store name →
          x.2.answer?.isSome = true ∧ x.1 = (turns.filterMap Turn.others?).foldl Desk.after d)) ∧
    ∀ (run : Runner) (config : Config) (current : Store),
      let w : Workspace := ⟨config, current, (Desk.run history).engine⟩
      Verdict ps store name (w.compile run ps store name).1 ∧
        (¬ps.Workable store name → (w.compile run ps store name).2 = w) := by
  have linked := Projects.linked_of_ofSolution checked
  have distinct := Projects.distinct_of_ofSolution checked
  have sound := Desk.sound_run history
  dsimp only
  cases asked : Request.ofStore ps store name with
  | error failure =>
    have verdict := verdict_of_fault linked distinct (Request.fault_of_ofStore linked distinct asked)
    refine ⟨fun turns => ?_, fun run config current => ?_⟩
    · obtain ⟨answer, others⟩ := among_fault (t := ⟨ps, name, store⟩) (Desk.run history) asked turns
      rw [answer, others]
      exact ⟨fun _ same => Option.some.inj same ▸ verdict, fun _ => ⟨rfl, rfl⟩⟩
    · rw [Workspace.compile_fault run asked]
      exact ⟨verdict, fun _ => rfl⟩
  | ok q =>
    have workable := Request.workable_of_ofStore linked distinct asked
    have steady := Request.steady_of_ofStore linked distinct asked
    refine ⟨fun turns => ⟨fun result answer => ?_, absurd workable⟩, fun run config current => ⟨?_, absurd workable⟩⟩
    · have proper := proper_among (t := ⟨ps, name, store⟩) sound asked steady turns
      obtain ⟨built, stage⟩ := answer?_eq_some.mp answer
      rw [stage] at proper
      cases proper with
      | returned ends => exact verdict_of_fromBuild workable ends
    · exact verdict_of_fromBuild workable (Workspace.fromBuild_compile run sound.engine.built asked steady)

/-- The document of one project is there and that of the other one is not, while a build is under way. -/
theorem faults_come_first_absent :
    let ps : Projects := ⟨[Solution.lib, Solution.app]⟩
    let store := Store.put {} ⟨"lib"⟩ "namespace Lib {}"
    let d := Desk.run [.ask ⟨"Lib", [], []⟩]
    let x := among d ⟨ps, "App", store⟩ [.lookup, .others .clear, .giveUp (.ofSeconds 1)]
    Projects.ofSolution Solution.pair = .ok ps ∧ x.2.answer? = some (.error (.documentNotFound ⟨"app"⟩)) ∧
      x.1 = d.after .clear := by
  intro ps store d x
  have checked : Projects.ofSolution Solution.pair = .ok ps := Solution.ofSolution_pair
  have found : ps.find? "App" = some Solution.app := by decide +kernel
  have lacks : ps.Lacks store Solution.app := ⟨Solution.app, .refl, ⟨"app"⟩, by decide, by decide +kernel⟩
  have fault : ¬ps.Workable store "App" := by
    rintro ⟨root, found', -, complete⟩
    cases found.symm.trans found'
    exact complete lacks
  obtain ⟨told, quiet⟩ := (faults_come_first checked [.ask ⟨"Lib", [], []⟩] store "App").1
    [.lookup, .others .clear, .giveUp (.ofSeconds 1)]
  obtain ⟨isSome, others⟩ := quiet fault
  refine ⟨checked, ?_, others⟩
  obtain ⟨result, answer⟩ := Option.isSome_iff_exists.mp isSome
  have verdict := told result answer
  have acyclic := Projects.not_cyclic_of_compilationOrder (Projects.linked_of_ofSolution checked)
    (Projects.distinct_of_ofSolution checked) found Solution.compilationOrder_pair
  obtain ⟨path, rfl⟩ := (verdict.missing _ found acyclic).mpr lacks
  obtain ⟨order, ordered, first⟩ := verdict.first path rfl
  cases Solution.compilationOrder_pair.symm.trans ordered
  have here : store.absent? ([Solution.lib, Solution.app].flatMap (·.documents)) = some ⟨"app"⟩ := by decide +kernel
  cases here.symm.trans first
  exact answer

end Call

end CodeWorkspace
