import CodeWorkspace.Proofs.Engine.Soundness

/-! Any number of callers at one cache. Each asks for one snapshot and then has it, waits for the build that makes
it, or has given up; between any two steps of one caller all others may take theirs, builds may end well or
badly, and live snapshots may be dropped. -/
namespace CodeWorkspace

/-- Where a caller stands. Builds are named by their numbers. -/
inductive Ticket.State where
  | hit (snapshot : Snapshot)
  | waits (number : Nat)
  | woken (number : Nat) (result : Except WorkspaceError Snapshot)
  | gaveUp (number : Nat)
  deriving Inhabited

structure Ticket where
  inputs : Job.Inputs
  state : Ticket.State
  deriving Inhabited

namespace Ticket

/-- What the caller was told, unless it waits or gave up. -/
def answer? (t : Ticket) : Option (Except WorkspaceError Snapshot) :=
  match t.state with
  | .hit s => some (.ok s)
  | .woken _ result => some result
  | .waits _ | .gaveUp _ => none

/-- The build that the caller started or joined. -/
def build? (t : Ticket) : Option Nat :=
  match t.state with
  | .hit _ => none
  | .waits number | .woken number _ | .gaveUp number => some number

end Ticket

structure Desk where
  engine : Engine := {}
  /-- In the order in which the callers came. -/
  tickets : List Ticket := []
  deriving Inhabited

namespace Desk

inductive Event where
  | ask (inputs : Job.Inputs)
  /-- A build under way ends, with whatever this toolchain makes of it. -/
  | finish (tc : Toolchain) (number : Nat)
  | wake (ticket : Nat)
  | giveUp (ticket : Nat)
  | invalidate (project : String)
  | clear

/-- Whether live snapshots are dropped. -/
def Event.drops : Event → Bool
  | .invalidate _ | .clear => true
  | .ask _ | .finish .. | .wake _ | .giveUp _ => false

/-- Where an event does not apply, nothing happens. -/
def after (d : Desk) : Event → Desk
  | .ask i =>
    match d.engine.lookup i with
    | (.inl s, engine) => ⟨engine, d.tickets ++ [⟨i, .hit s⟩]⟩
    | (.inr number, engine) => ⟨engine, d.tickets ++ [⟨i, .waits number⟩]⟩
  | .finish tc number => { d with engine := d.engine.complete tc number }
  | .wake k =>
    match d.tickets[k]? with
    | some ⟨i, .waits number⟩ =>
      match d.engine.outcome? number with
      | some result => { d with tickets := d.tickets.set k ⟨i, .woken number result⟩ }
      | none => d
    | _ => d
  | .giveUp k =>
    match d.tickets[k]? with
    | some ⟨i, .waits number⟩ =>
      ⟨{ d.engine with cache := d.engine.cache.giveUp }, d.tickets.set k ⟨i, .gaveUp number⟩⟩
    | _ => d
  | .invalidate project =>
    { d with engine := { d.engine with cache := d.engine.cache.invalidate project } }
  | .clear => { d with engine := { d.engine with cache := d.engine.cache.clear } }

theorem after_wake {d : Desk} {k number : Nat} {i : Job.Inputs} {result : Except WorkspaceError Snapshot}
    (waiting : d.tickets[k]? = some ⟨i, .waits number⟩) (ended : d.engine.outcome? number = some result) :
    d.after (.wake k) = { d with tickets := d.tickets.set k ⟨i, .woken number result⟩ } := by
  simp only [after, waiting, ended]

def run (events : List Event) : Desk := events.foldl after {}

/-! ## One step -/

/-- What stands behind a ticket in the records of the builds. -/
def Served (e : Engine) (t : Ticket) : Prop :=
  match t.state with
  | .hit s => s.digest = t.inputs.digest
  | .waits number | .gaveUp number =>
    ∃ j ∈ e.started, j.fingerprint = t.inputs.fingerprint ∧ j.sequence = number
  | .woken number result =>
    ∃ j ∈ e.started, j.fingerprint = t.inputs.fingerprint ∧ j.sequence = number ∧
      e.outcome? number = some result

theorem Served.mono {e f : Engine} {t : Ticket} (h : Served e t) (leads : e.LeadsTo f) : Served f t := by
  obtain ⟨i, state⟩ := t
  cases state with
  | hit => exact h
  | waits =>
    obtain ⟨j, hj, same⟩ := h
    exact ⟨j, leads.started j hj, same⟩
  | gaveUp =>
    obtain ⟨j, hj, same⟩ := h
    exact ⟨j, leads.started j hj, same⟩
  | woken =>
    obtain ⟨j, hj, same, number, ended⟩ := h
    exact ⟨j, leads.started j hj, same, number, leads.outcome ended⟩

structure Sound (d : Desk) : Prop where
  engine : d.engine.Sound fun _ => True
  tickets : ∀ t ∈ d.tickets, Served d.engine t

namespace Sound

variable {d : Desk}

private theorem mono (h : d.Sound) {e : Engine} (sound : e.Sound fun _ => True)
    (leads : d.engine.LeadsTo e) : Sound { d with engine := e } where
  engine := sound
  tickets t ht := (h.tickets t ht).mono leads

private theorem join (h : d.Sound) {t : Ticket} (served : Served d.engine t) :
    Sound { d with tickets := d.tickets ++ [t] } where
  engine := h.engine
  tickets t' ht' := by
    rcases List.mem_append.mp ht' with ht' | ht'
    · exact h.tickets t' ht'
    · rw [List.mem_singleton.mp ht']
      exact served

private theorem replace (h : d.Sound) {t : Ticket} (served : Served d.engine t) (k : Nat) :
    Sound { d with tickets := d.tickets.set k t } where
  engine := h.engine
  tickets t' ht' := by
    rcases List.mem_or_eq_of_mem_set ht' with ht' | rfl
    · exact h.tickets t' ht'
    · exact served

private theorem ask (h : d.Sound) (i : Job.Inputs) : (d.after (.ask i)).Sound := by
  have sound := h.engine.lookup i
  have leads := Engine.LeadsTo.lookup d.engine i
  have way := Engine.looked d.engine i
  unfold after
  dsimp only
  generalize d.engine.lookup i = r at sound leads way
  cases way with
  | hit live same => exact (h.mono sound leads).join same
  | joined missed under =>
    apply (h.mono sound leads).join
    obtain ⟨j, hj, same⟩ := h.engine.mem_inFlight.mp (Cache.mem_inFlight_of_sequence? under)
    exact ⟨j, (Engine.mem_running.mp hj).1, same⟩
  | started =>
    apply (h.mono sound leads).join
    exact ⟨⟨i, d.engine.cache.nextSequence⟩, by simp [Engine.start], rfl, rfl⟩

theorem after (h : d.Sound) (event : Event) : (d.after event).Sound := by
  cases event with
  | ask i => exact h.ask i
  | finish tc number =>
    exact h.mono (h.engine.complete trivial number) (.complete tc d.engine number)
  | wake k =>
    unfold Desk.after
    dsimp only
    split
    · next i number found =>
      split
      · next result ended =>
        obtain ⟨j, hj, same, at_number⟩ := h.tickets _ (List.mem_of_getElem? found)
        have served : Served d.engine ⟨i, .woken number result⟩ := ⟨j, hj, same, at_number, ended⟩
        exact h.replace served k
      · exact h
    · exact h
  | giveUp k =>
    unfold Desk.after
    dsimp only
    split
    · next i number found =>
      have waiting := h.tickets _ (List.mem_of_getElem? found)
      have left : Served d.engine ⟨i, .gaveUp number⟩ := waiting
      exact (h.replace left k).mono h.engine.giveUp ⟨fun _ => id, id⟩
    · exact h
  | invalidate project => exact h.mono (h.engine.invalidate project) ⟨fun _ => id, id⟩
  | clear => exact h.mono h.engine.clear ⟨fun _ => id, id⟩

end Sound

theorem grows_after (d : Desk) {event : Event} (keeps : event.drops = false) :
    d.engine.Grows (d.after event).engine := by
  cases event with
  | ask i =>
    have grows := Engine.Grows.lookup d.engine i
    unfold after
    dsimp only
    generalize d.engine.lookup i = r at grows
    obtain ⟨found | number, e⟩ := r <;> exact grows
  | finish tc number => exact .complete tc d.engine number
  | wake k =>
    unfold after
    dsimp only
    split
    · split <;> rfl
    · rfl
  | giveUp k =>
    unfold after
    dsimp only
    split
    · exact .refl d.engine
    · rfl
  | invalidate => cases keeps
  | clear => cases keeps

/-! ## Whole runs -/

theorem sound_foldl {d : Desk} (h : d.Sound) (events : List Event) : (events.foldl after d).Sound := by
  induction events generalizing d with
  | nil => exact h
  | cons event rest ih => exact ih (h.after event)

theorem sound_run (events : List Event) : (run events).Sound :=
  sound_foldl ⟨.empty, by simp⟩ events

theorem grows_foldl (d : Desk) {events : List Event} (keep : ∀ event ∈ events, event.drops = false) :
    d.engine.Grows (events.foldl after d).engine := by
  induction events generalizing d with
  | nil => rfl
  | cons event rest ih =>
    rw [List.forall_mem_cons] at keep
    exact (grows_after d keep.1).trans (ih (d.after event) keep.2)

/-- What holds of a cache and its callers at any time. -/
structure SingleFlight (d : Desk) : Prop where
  /-- In flight are the builds that were started and have not ended. -/
  inFlight : ∀ f n, (f, n) ∈ d.engine.cache.inFlight ↔
    ∃ j ∈ d.engine.started, j.fingerprint = f ∧ j.sequence = n ∧ d.engine.outcome? n = none
  once : (d.engine.cache.inFlight.map (·.1)).Nodup
  numbers : (d.engine.started.map (·.sequence)).Nodup
  below : ∀ j ∈ d.engine.started, j.sequence < d.engine.cache.nextSequence
  keys : (d.engine.cache.live.map (·.1)).Nodup
  live : ∀ x ∈ d.engine.cache.live,
    projectKey x.2.project = x.1 ∧ x.2.diagnostics.any (·.isError) = false
  answered : ∀ t ∈ d.tickets, ∀ s, t.answer? = some (.ok s) → s.digest = t.inputs.digest
  failed : ∀ t ∈ d.tickets, ∀ failure, t.answer? = some (.error failure) →
    ∃ j ∈ d.engine.started, j.fingerprint = t.inputs.fingerprint ∧ t.build? = some j.sequence ∧
      d.engine.outcome? j.sequence = some (.error failure)
  /-- A caller waits for a build of its own digest, and no longer than that is under way. -/
  waiting : ∀ k i n, d.tickets[k]? = some ⟨i, .waits n⟩ →
    (i.fingerprint, n) ∈ d.engine.cache.inFlight ∨
      ∃ result, (d.after (.wake k)).tickets[k]? = some ⟨i, .woken n result⟩

theorem Sound.singleFlight {d : Desk} (h : d.Sound) : d.SingleFlight where
  inFlight f n := by
    rw [h.engine.mem_inFlight]
    constructor
    · rintro ⟨j, hj, same, rfl⟩
      obtain ⟨started, unended⟩ := Engine.mem_running.mp hj
      exact ⟨j, started, same, rfl, unended⟩
    · rintro ⟨j, hj, same, rfl, unended⟩
      exact ⟨j, Engine.mem_running.mpr ⟨hj, unended⟩, same, rfl⟩
  once := by
    rw [h.engine.inFlight, List.map_reverse, List.nodup_reverse, List.map_map]
    exact h.engine.single
  numbers := List.pairwise_map.mpr (h.engine.numbered.imp Nat.ne_of_lt)
  below := h.engine.below
  keys := h.engine.keys
  live := by
    rintro ⟨k, s⟩ mem
    have live := (Cache.liveAt_eq_some_iff h.engine.keys).mpr mem
    obtain ⟨j, -, -, -, tc, -, made⟩ := h.engine.made_of_liveAt live
    exact ⟨h.engine.key_of_liveAt live, Job.clean_of_run made⟩
  answered := by
    rintro ⟨i, state⟩ ht s answer
    have served := h.tickets _ ht
    cases state with
    | hit => cases answer; exact served
    | waits => cases answer
    | gaveUp => cases answer
    | woken number result =>
      cases answer
      obtain ⟨j, hj, same, rfl, ended⟩ := served
      obtain ⟨tc, -, made⟩ := h.engine.run_of_outcome hj ended
      rw [Job.digest_of_run made]
      exact congrArg Job.Fingerprint.digest same
  failed := by
    rintro ⟨i, state⟩ ht failure answer
    have served := h.tickets _ ht
    cases state with
    | hit => cases answer
    | waits => cases answer
    | gaveUp => cases answer
    | woken number result =>
      cases answer
      obtain ⟨j, hj, same, rfl, ended⟩ := served
      exact ⟨j, hj, same, rfl, ended⟩
  waiting k i n found := by
    obtain ⟨j, hj, same, rfl⟩ := h.tickets _ (List.mem_of_getElem? found)
    cases ended : d.engine.outcome? j.sequence with
    | none =>
      exact .inl (h.engine.mem_inFlight.mpr ⟨j, Engine.mem_running.mpr ⟨hj, ended⟩, same, rfl⟩)
    | some result =>
      refine .inr ⟨result, ?_⟩
      have inside := (List.getElem?_eq_some_iff.mp found).1
      rw [after_wake found ended, List.getElem?_set_self inside]

/-- Single flight: in whatever order callers ask, wake and give up, builds end and live snapshots are dropped. -/
theorem run_single_flight (events : List Event) :
    (run events).SingleFlight ∧
      ∀ more : List Event, (∀ event ∈ more, event.drops = false) →
        (run events).engine.Grows (run (events ++ more)).engine := by
  refine ⟨(sound_run events).singleFlight, fun more keep => ?_⟩
  unfold run
  rw [List.foldl_append]
  exact grows_foldl _ keep

end Desk
end CodeWorkspace
