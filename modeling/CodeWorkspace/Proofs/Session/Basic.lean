import CodeWorkspace.Proofs.Engine.Soundness
import CodeWorkspace.Proofs.Request

/-! One store and one cache, and all that may happen at them. A caller captures what it needs in one step, and then
looks up one project after another; edits, other callers, builds and timeouts may come between any two of its
steps. -/
namespace CodeWorkspace

inductive Call.Stage where
  | asks (inputs : Job.Inputs) (request : Request)
  /-- For the build of this number. -/
  | waits (number : Nat) (inputs : Job.Inputs) (request : Request)
  /-- With the snapshots that it got on its way, the last one first. -/
  | returned (built : List (String × Snapshot)) (result : Except WorkspaceError Snapshot)
  deriving Inhabited

/-- What a caller is after. -/
structure Call.Task where
  projects : Projects
  name : String
  /-- The store as it was when the documents were captured. -/
  captured : Store
  deriving Inhabited

structure Call extends Call.Task where
  stage : Call.Stage
  /-- All that was looked up. -/
  asked : List Job.Inputs := []
  /-- The numbers of the builds that the caller started and did not join. -/
  started : List Nat := []
  deriving Inhabited

namespace Call

def answer? (c : Call) : Option (Except WorkspaceError Snapshot) :=
  match c.stage with
  | .returned _ result => some result
  | .asks .. | .waits .. => none

theorem answer?_eq_some {c : Call} {result : Except WorkspaceError Snapshot} :
    c.answer? = some result ↔ ∃ built, c.stage = .returned built result := by
  unfold answer?
  split
  · next stage => simp [stage]
  · next stage => simp [stage]
  · next stage => simp [stage]

theorem exists_of_isOk {c : Call} (h : c.answer?.any (·.isOk) = true) :
    ∃ s, c.answer? = some (.ok s) := by
  obtain ⟨result, answer, isOk⟩ := (Option.any_eq_true ..).mp h
  cases result with
  | error => cases isOk
  | ok s => exact ⟨s, answer⟩

def Stage.ofRequest (q : Request) : Stage :=
  match q.demand with
  | .finished result => .returned q.built result
  | .needs i => .asks i q

def Stage.begin (t : Task) : Stage :=
  match Request.ofStore t.projects t.captured t.name with
  | .error failure => .returned [] (.error failure)
  | .ok q => .ofRequest q

/-- A failure ends a request, a snapshot leads it on. -/
def Stage.receive (q : Request) : Except WorkspaceError Snapshot → Stage
  | .error failure => .returned q.built (.error failure)
  | .ok s => .ofRequest (q.advance s)

def lookup (e : Engine) (c : Call) : Engine × Call :=
  match c.stage with
  | .asks i q =>
    match e.lookup i with
    | (.inl s, e) => (e, { c with stage := .receive q (.ok s), asked := i :: c.asked })
    | (.inr number, e') =>
      (e', { c with
        stage := .waits number i q
        asked := i :: c.asked
        started := (e'.started.drop e.started.length).map (·.sequence) ++ c.started })
  | _ => (e, c)

def wake (e : Engine) (c : Call) : Engine × Call :=
  match c.stage with
  | .waits number _ q =>
    match e.outcome? number with
    | some result => (e, { c with stage := .receive q result })
    | none => (e, c)
  | _ => (e, c)

def giveUp (timeout : Duration) (e : Engine) (c : Call) : Engine × Call :=
  match c.stage with
  | .waits _ i q =>
    ({ e with cache := e.cache.giveUp },
      { c with stage := .returned q.built (.error (.buildTimeout i.project timeout)) })
  | _ => (e, c)

/-- All that one step of a caller may be. -/
inductive Moves (e : Engine) (c : Call) : Engine × Call → Prop where
  | stays : Moves e c (e, c)
  | hit {i : Job.Inputs} {q : Request} {s : Snapshot} {stats : Cache.Stats} (stage : c.stage = .asks i q)
      (live : e.cache.liveAt i.key = some s) (same : s.digest = i.digest) :
      Moves e c ({ e with cache.stats := stats },
        { c with stage := .receive q (.ok s), asked := i :: c.asked })
  | joins {i : Job.Inputs} {q : Request} {number : Nat} {stats : Cache.Stats}
      (stage : c.stage = .asks i q) (under : e.cache.sequence? i.fingerprint = some number) :
      Moves e c ({ e with cache.stats := stats },
        { c with stage := .waits number i q, asked := i :: c.asked })
  | starts {i : Job.Inputs} {q : Request} (stage : c.stage = .asks i q)
      (missed : ∀ s, e.cache.liveAt i.key = some s → s.digest ≠ i.digest)
      (new : e.cache.sequence? i.fingerprint = none) :
      Moves e c (e.start i, { c with
        stage := .waits e.cache.nextSequence i q
        asked := i :: c.asked
        started := e.cache.nextSequence :: c.started })
  | wakes {number : Nat} {i : Job.Inputs} {q : Request} {result : Except WorkspaceError Snapshot}
      (stage : c.stage = .waits number i q) (ended : e.outcome? number = some result) :
      Moves e c (e, { c with stage := .receive q result })
  | givesUp {number : Nat} {i : Job.Inputs} {q : Request} {timeout : Duration}
      (stage : c.stage = .waits number i q) :
      Moves e c ({ e with cache := e.cache.giveUp },
        { c with stage := .returned q.built (.error (.buildTimeout i.project timeout)) })

theorem moves_lookup (e : Engine) (c : Call) : Moves e c (c.lookup e) := by
  unfold lookup
  split
  · next i q stage =>
    have way := Engine.looked e i
    generalize e.lookup i = r at way
    cases way with
    | hit live same => exact .hit stage live same
    | joined missed under =>
      simp only [List.drop_length, List.map_nil, List.nil_append]
      exact .joins stage under
    | started missed new =>
      simp only [Engine.start, List.drop_left, List.map_cons, List.map_nil, List.singleton_append]
      exact .starts stage missed new
  · exact .stays

theorem moves_wake (e : Engine) (c : Call) : Moves e c (c.wake e) := by
  unfold wake
  split
  · next stage =>
    split
    · next ended => exact .wakes stage ended
    · exact .stays
  · exact .stays

theorem moves_giveUp (timeout : Duration) (e : Engine) (c : Call) : Moves e c (c.giveUp timeout e) := by
  unfold giveUp
  split
  · next stage => exact .givesUp stage
  · exact .stays

end Call

structure Session where
  store : Store := {}
  engine : Engine := {}
  /-- In the order of their captures. -/
  calls : List Call := []
  deriving Inhabited

namespace Session

inductive Event where
  | put (path : Path) (text : String)
  | evict (path : Path)
  | invalidate (project : String)
  | clear
  /-- A caller comes and captures the documents that it needs. -/
  | call (solution : Solution) (name : String)
  | lookup (call : Nat)
  /-- A build under way ends, with whatever this toolchain makes of it. -/
  | finish (tc : Toolchain) (number : Nat)
  | wake (call : Nat)
  | giveUp (call : Nat) (timeout : Duration)

/-- One caller takes a step. -/
def move (w : Session) (k : Nat) (step : Engine → Call → Engine × Call) : Session :=
  match w.calls[k]? with
  | none => w
  | some c => { w with engine := (step w.engine c).1, calls := w.calls.set k (step w.engine c).2 }

/-- A caller whose solution is at fault does not get as far as to the cache. -/
def enter (w : Session) (solution : Solution) (name : String) : Session :=
  match Projects.ofSolution solution with
  | .error _ => w
  | .ok projects =>
    let task : Call.Task := ⟨projects, name, w.store⟩
    { w with calls := w.calls ++ [{ toTask := task, stage := .begin task }] }

/-- Where an event does not apply, nothing happens. -/
def after (w : Session) : Event → Session
  | .put path text => { w with store := w.store.put path text }
  | .evict path => { w with store := w.store.evict path }
  | .invalidate project =>
    { w with engine := { w.engine with cache := w.engine.cache.invalidate project } }
  | .clear => { w with engine := { w.engine with cache := w.engine.cache.clear } }
  | .call solution name => w.enter solution name
  | .lookup k => w.move k fun e c => c.lookup e
  | .finish tc number => { w with engine := w.engine.complete tc number }
  | .wake k => w.move k fun e c => c.wake e
  | .giveUp k timeout => w.move k fun e c => c.giveUp timeout e

def run (events : List Event) : Session := events.foldl after {}

theorem run_append (events more : List Event) : run (events ++ more) = more.foldl after (run events) :=
  List.foldl_append ..

theorem after_call {w : Session} {solution : Solution} {projects : Projects} {name : String}
    {order : List Project} (checked : Projects.ofSolution solution = .ok projects)
    (ordered : projects.compilationOrder name = .ok order) :
    w.after (.call solution name) = { w with calls := w.calls ++ [{
      toTask := ⟨projects, name, w.store⟩
      stage :=
        match Request.captureAll w.store order with
        | .error failure => .returned [] (.error failure)
        | .ok remaining => .ofRequest { name, remaining } }] } := by
  simp only [after, enter, checked, Call.Stage.begin, Request.ofStore, ordered]
  cases Request.captureAll w.store order <;> rfl

/-- The inputs of all lookups, whose buffers are all that was hashed. -/
def hashed (w : Session) : List Job.Inputs := w.calls.flatMap (·.asked)

theorem mem_hashed {w : Session} {i : Job.Inputs} : i ∈ w.hashed ↔ ∃ c ∈ w.calls, i ∈ c.asked := by
  simp [hashed]

end Session
end CodeWorkspace
