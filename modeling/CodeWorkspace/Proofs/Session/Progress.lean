import CodeWorkspace.Proofs.Session.Faults

/-! A caller on its way can always be answered, whatever the others do: all it takes are its own lookups and the ends of
the builds that it waits for. -/
namespace CodeWorkspace

variable {tools : Toolchain → Prop} {tc : Toolchain}

namespace Engine

variable {e : Engine} {j : Job}

theorem exists_outcome_complete (hj : j ∈ e.started) (tc : Toolchain) :
    ∃ result, (e.complete tc j.sequence).outcome? j.sequence = some result := by
  cases ended : e.outcome? j.sequence with
  | some result => exact ⟨result, (LeadsTo.complete tc e j.sequence).outcome ended⟩
  | none =>
    unfold complete
    split
    · next idle =>
      have other := List.find?_eq_none.mp idle j (mem_running.mpr ⟨hj, ended⟩)
      simp at other
    · next j' found =>
      have same : j'.sequence = j.sequence := by simpa using List.find?_some found
      exact ⟨j'.run tc, by rw [outcome?_finish, if_pos same]⟩

/-- No build makes anyone give up waiting. -/
theorem Sound.ne_buildTimeout (h : e.Sound tools) {n : Nat} {result : Except WorkspaceError Snapshot}
    (ended : e.outcome? n = some result) (project : String) (timeout : Duration) :
    result ≠ .error (.buildTimeout project timeout) := by
  obtain ⟨j, -, -, tc, -, rfl⟩ := h.outcomes n result ended
  unfold Job.run
  split
  · simp
  · split <;> simp

end Engine

namespace Call

variable {e : Engine} {c : Call} {i : Job.Inputs} {q : Request}

/-- A lookup gives a snapshot, or a build to wait for. -/
theorem stage_lookup (sound : e.Sound tools) (asks : c.stage = .asks i q) :
    (∃ s, (c.lookup e).2.stage = .receive q (.ok s)) ∨
      ∃ j ∈ (c.lookup e).1.started, (c.lookup e).2.stage = .waits j.sequence i q := by
  simp only [lookup, asks]
  have way := Engine.looked e i
  generalize e.lookup i = r at way
  cases way with
  | hit => exact .inl ⟨_, rfl⟩
  | joined _ under =>
    obtain ⟨j, running, -, rfl⟩ := sound.mem_inFlight.mp (Cache.mem_inFlight_of_sequence? under)
    exact .inr ⟨j, (Engine.mem_running.mp running).1, rfl⟩
  | started => exact .inr ⟨⟨i, e.cache.nextSequence⟩, by simp [Engine.start], rfl⟩

end Call

namespace Session

variable {w : Session} {k : Nat} {c : Call} {q : Request} {i : Job.Inputs}

/-- What one caller does on its way, and builds that end. -/
def Event.Serves (tc : Toolchain) (k : Nat) : Event → Prop
  | .lookup n | .wake n => n = k
  | .finish tool _ => tool = tc
  | .put .. | .evict _ | .invalidate _ | .clear | .call .. | .giveUp .. => False

/-- A caller can get its answer without giving up. -/
def CanAnswer (tc : Toolchain) (k : Nat) (w : Session) : Prop :=
  ∃ more : List Event, (∀ event ∈ more, event.Serves tc k) ∧
    ∃ c, (more.foldl after w).calls[k]? = some c ∧ ∃ result, c.answer? = some result ∧
      ∀ project timeout, result ≠ .error (.buildTimeout project timeout)

theorem CanAnswer.of_after (event : Event) (serves : event.Serves tc k) (h : (w.after event).CanAnswer tc k) :
    w.CanAnswer tc k := by
  obtain ⟨more, all, answered⟩ := h
  exact ⟨event :: more, List.forall_mem_cons.mpr ⟨serves, all⟩, answered⟩

theorem canAnswer_of_returned {built : List (String × Snapshot)} {result : Except WorkspaceError Snapshot}
    (found : w.calls[k]? = some c) (returned : c.stage = .returned built result)
    (inTime : ∀ project timeout, result ≠ .error (.buildTimeout project timeout)) : w.CanAnswer tc k :=
  ⟨[], by simp, c, found, result, Call.answer?_eq_some.mpr ⟨built, returned⟩, inTime⟩

/-- A request leads to an answer wherever it is a caller's. -/
def Answerable (tools : Toolchain → Prop) (tc : Toolchain) (k : Nat) (q : Request) : Prop :=
  ∀ (w : Session) (c : Call), w.engine.Sound tools → w.calls[k]? = some c → c.stage = .ofRequest q → w.CanAnswer tc k

theorem canAnswer_of_receive (further : ∀ s, Answerable tools tc k (q.advance s)) (engine : w.engine.Sound tools)
    (found : w.calls[k]? = some c) {result : Except WorkspaceError Snapshot} (stage : c.stage = .receive q result)
    (inTime : ∀ project timeout, result ≠ .error (.buildTimeout project timeout)) : w.CanAnswer tc k := by
  cases result with
  | error => exact canAnswer_of_returned found stage inTime
  | ok s => exact further s w c engine found stage

theorem canAnswer_of_waits (tool : tools tc) (further : ∀ s, Answerable tools tc k (q.advance s))
    (engine : w.engine.Sound tools) (found : w.calls[k]? = some c) {j : Job} (hj : j ∈ w.engine.started)
    (waits : c.stage = .waits j.sequence i q) : w.CanAnswer tc k := by
  obtain ⟨result, ended⟩ := Engine.exists_outcome_complete hj tc
  have sound : (w.after (.finish tc j.sequence)).engine.Sound tools := engine.complete tool j.sequence
  have here : (w.after (.finish tc j.sequence)).calls[k]? = some c := found
  have woken : (c.wake (w.engine.complete tc j.sequence)).2.stage = .receive q result := by
    simp only [Call.wake, waits, ended]
  apply CanAnswer.of_after (.finish tc j.sequence) rfl
  apply CanAnswer.of_after (.wake k) rfl
  exact canAnswer_of_receive further (sound_engine_move Call.moves_wake sound) (calls_move_self here _) woken
    (sound.ne_buildTimeout ended)

theorem canAnswer_of_asks (tool : tools tc) (further : ∀ s, Answerable tools tc k (q.advance s))
    (engine : w.engine.Sound tools) (found : w.calls[k]? = some c) (asks : c.stage = .asks i q) :
    w.CanAnswer tc k := by
  apply CanAnswer.of_after (.lookup k) rfl
  have here := calls_move_self found fun e c => c.lookup e
  have sound : (w.after (.lookup k)).engine.Sound tools := sound_engine_move Call.moves_lookup engine
  rcases Call.stage_lookup engine asks with ⟨s, given⟩ | ⟨j, hj, waits⟩
  · exact canAnswer_of_receive further sound here given (by simp)
  · refine canAnswer_of_waits tool further sound here ?_ waits
    rw [after, move_some found]
    exact hj

/-- Each round of a lookup, the end of a build and a wake takes one project off. -/
theorem answerable_of_steady (tool : tools tc) (k : Nat) {q : Request} (steady : q.Steady) :
    Answerable tools tc k q := by
  intro w c engine found stage
  rcases steady.demand with ⟨i, needs⟩ | ⟨s, ends⟩
  · rw [Call.Stage.ofRequest, needs] at stage
    refine canAnswer_of_asks tool (fun s => ?_) engine found stage
    have := Request.remaining_advance_lt needs s
    exact answerable_of_steady tool k (steady.advance needs s)
  · rw [Call.Stage.ofRequest, ends] at stage
    exact canAnswer_of_returned found stage (by simp)
termination_by q.remaining.length

end Session
end CodeWorkspace
