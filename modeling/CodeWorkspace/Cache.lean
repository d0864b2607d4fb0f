import CodeWorkspace.Job

/-! The cache of compiled projects: one live snapshot for each project, and the builds that are under way.
Each operation here is one atomic step; builds run between a `lookup` that starts them and the `publish`
of their outcome, and any number of them may be under way at a time. -/
namespace CodeWorkspace

/-- Events since the cache was made. Each is counted without bound: 64-bit counters hold the same numbers up to 2^64
events of a kind. -/
structure Cache.Stats where
  /-- Lookups that a live snapshot answered. -/
  hits : Nat := 0
  /-- Builds started. -/
  builds : Nat := 0
  /-- Lookups that found their build under way. -/
  joins : Nat := 0
  /-- Builds that ended in an error. -/
  failures : Nat := 0
  /-- Callers that gave up waiting. -/
  timeouts : Nat := 0
  deriving DecidableEq, Repr, Inhabited

structure Cache where
  /-- By project key. -/
  live : List (String × Snapshot) := []
  /-- The numbers of the builds under way. -/
  inFlight : List (Job.Fingerprint × Nat) := []
  /-- The number of the next build. It, too, is a 64-bit counter up to 2^64 builds. -/
  nextSequence : Nat := 1
  stats : Cache.Stats := {}
  deriving Repr, Inhabited

namespace Cache

inductive Answer where
  | hit (snapshot : Snapshot)
  /-- The build was under way already. -/
  | joined (sequence : Nat)
  | started (job : Job)
  deriving Repr, Inhabited

def liveAt (c : Cache) (key : String) : Option Snapshot :=
  (c.live.find? (·.1 = key)).map (·.2)

/-- The live snapshot of a project, in whatever case its name is given. It may be out of date. -/
def live? (c : Cache) (project : String) : Option Snapshot := c.liveAt (projectKey project)

def sequence? (c : Cache) (f : Job.Fingerprint) : Option Nat :=
  (c.inFlight.find? (·.1 = f)).map (·.2)

/-- The live snapshot of the same digest, else the build under way, else a new build. -/
def lookup (c : Cache) (i : Job.Inputs) : Answer × Cache :=
  let f := i.fingerprint
  match (c.liveAt f.key).filter (·.digest = f.digest) with
  | some s => (.hit s, { c with stats := { c.stats with hits := c.stats.hits + 1 } })
  | none =>
    match c.sequence? f with
    | some sequence =>
      (.joined sequence, { c with stats := { c.stats with joins := c.stats.joins + 1 } })
    | none =>
      (.started ⟨i, c.nextSequence⟩,
        { c with
          inFlight := (f, c.nextSequence) :: c.inFlight
          nextSequence := c.nextSequence + 1
          stats := { c.stats with builds := c.stats.builds + 1 } })

def setLive (c : Cache) (key : String) (s : Snapshot) : Cache :=
  { c with live := (key, s) :: c.live.filter (·.1 ≠ key) }

/-- A build never replaces the snapshot of a later one. -/
def offer (c : Cache) (key : String) (s : Snapshot) : Cache :=
  match c.liveAt key with
  | none => c.setLive key s
  | some old => if old.sequence < s.sequence then c.setLive key s else c

def publish (c : Cache) (j : Job) (result : Except WorkspaceError Snapshot) : Cache :=
  let c := { c with inFlight := c.inFlight.filter (·.1 ≠ j.fingerprint) }
  match result with
  | .ok s => c.offer j.inputs.key s
  | .error _ => { c with stats := { c.stats with failures := c.stats.failures + 1 } }

/-- A caller gives up waiting. The build goes on. -/
def giveUp (c : Cache) : Cache :=
  { c with stats := { c.stats with timeouts := c.stats.timeouts + 1 } }

/-- Drops the live snapshot of a project. Builds under way go on. -/
def invalidate (c : Cache) (project : String) : Cache :=
  { c with live := c.live.filter (·.1 ≠ projectKey project) }

def clear (c : Cache) : Cache := { c with live := [] }

end Cache
end CodeWorkspace
