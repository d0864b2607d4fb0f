import CodeWorkspace.Cache
import CodeWorkspace.Request

/-! The cache at work: builds that run beside their callers, and callers that wait for them. Whoever runs the
builds decides when one of them ends; a caller goes on until it has its snapshot or waits for a build that
has not ended. -/
namespace CodeWorkspace

structure Runner where
  toolchain : Toolchain
  /-- Whether a build gets to its end, given all that are under way in the order of their start. -/
  ready : List Job → Job → Bool

structure Engine where
  cache : Cache := {}
  /-- All builds in the order of their start. -/
  started : List Job := []
  /-- The outcomes of those that ended, by number. -/
  ended : List (Nat × Except WorkspaceError Snapshot) := []
  deriving Inhabited

inductive Caller where
  | finished (result : Except WorkspaceError Snapshot)
  /-- For the build of this number, which makes what the request needs next. -/
  | waits (sequence : Nat) (request : Request)
  deriving Inhabited

namespace Engine

def outcome? (e : Engine) (sequence : Nat) : Option (Except WorkspaceError Snapshot) :=
  (e.ended.find? (·.1 = sequence)).map (·.2)

def running (e : Engine) : List Job := e.started.filter fun j => (e.outcome? j.sequence).isNone

/-- The snapshot of a project, or the number of the build that makes it. -/
def lookup (e : Engine) (i : Job.Inputs) : (Snapshot ⊕ Nat) × Engine :=
  match e.cache.lookup i with
  | (.hit s, cache) => (.inl s, { e with cache })
  | (.joined sequence, cache) => (.inr sequence, { e with cache })
  | (.started job, cache) => (.inr job.sequence, { e with cache, started := e.started ++ [job] })

def finish (tc : Toolchain) (e : Engine) (j : Job) : Engine :=
  let result := j.run tc
  { e with cache := e.cache.publish j result, ended := (j.sequence, result) :: e.ended }

/-- All builds end that get to their end. -/
def settle (run : Runner) (e : Engine) : Engine :=
  (e.running.filter (run.ready e.running)).foldl (finish run.toolchain) e

/-- Takes a caller as far as it gets. -/
def proceed (run : Runner) (e : Engine) (q : Request) : Caller × Engine :=
  match _h : q.demand with
  | .finished result => (.finished result, e)
  | .needs i =>
    match e.lookup i with
    | (.inl s, e) => proceed run e (q.advance s)
    | (.inr sequence, e) =>
      let e := e.settle run
      match e.outcome? sequence with
      | none => (.waits sequence q, e)
      | some (.error failure) => (.finished (.error failure), e)
      | some (.ok s) => proceed run e (q.advance s)
termination_by q.remaining.length
decreasing_by all_goals exact Request.remaining_advance_lt _h _

def enter (run : Runner) (e : Engine) (projects : Projects) (store : Store) (name : String) :
    Caller × Engine :=
  match Request.ofStore projects store name with
  | .error failure => (.finished (.error failure), e)
  | .ok q => e.proceed run q

/-- A caller goes on if its build has ended. -/
def resume (run : Runner) (e : Engine) : Caller → Caller × Engine
  | .finished result => (.finished result, e)
  | .waits sequence q =>
    match e.outcome? sequence with
    | none => (.waits sequence q, e)
    | some (.error failure) => (.finished (.error failure), e)
    | some (.ok s) => e.proceed run (q.advance s)

/-- The project that a waiting caller waits for. -/
def awaited (q : Request) : String :=
  match q.demand with
  | .needs i => i.project
  | .finished _ => q.name

/-- A caller that still waits gives up after `timeout`. Its build goes on. -/
def conclude (timeout : Duration) (e : Engine) : Caller → Except WorkspaceError Snapshot × Engine
  | .finished result => (result, e)
  | .waits _ q => (.error (.buildTimeout (awaited q) timeout), { e with cache := e.cache.giveUp })

def each (step : Engine → α → β × Engine) (e : Engine) : List α → List β × Engine
  | [] => ([], e)
  | a :: rest =>
    let (b, e) := step e a
    let (bs, e) := each step e rest
    (b :: bs, e)

end Engine
end CodeWorkspace
