import CodeWorkspace.Proofs.Session.Stores

/-! Where snapshots come from. Whatever a cache hands out, to whichever caller and beside whichever stores, was made by
one of the toolchains at work, and so was all that it was built on. Digests may collide: a caller may then be given
what it did not ask for, but nothing that was not built. -/
namespace CodeWorkspace

variable {tools : Toolchain → Prop} {good better : Snapshot → Prop}

/-! ## Requests -/

namespace Request

variable {q : Request} {i : Job.Inputs}

theorem mem_of_references {names : List String} {references : List Snapshot}
    (found : q.references names = .ok references) : ∀ r ∈ references, ∃ name, (name, r) ∈ q.built := by
  induction names generalizing references with
  | nil => cases found; simp
  | cons name rest ih =>
    rw [Request.references] at found
    split at found
    · cases found
    · next s here =>
      split at found
      · cases found
      · next more looked =>
        cases found
        exact List.forall_mem_cons.mpr ⟨⟨name, mem_built_of_snapshot? here⟩, ih looked⟩

/-- All snapshots that the request was given are good. -/
def Has (good : Snapshot → Prop) (q : Request) : Prop := ∀ x ∈ q.built, good x.2

theorem Has.references (has : q.Has good) (needs : q.demand = .needs i) : ∀ r ∈ i.references, good r := by
  obtain ⟨p, rest, -, -, found⟩ := demand_eq_needs needs
  intro r mem
  obtain ⟨name, built⟩ := mem_of_references found r mem
  exact has _ built

theorem Has.finished {s : Snapshot} (has : q.Has good) (ends : q.demand = .finished (.ok s)) : good s := by
  obtain ⟨-, name, rest, built⟩ := demand_eq_finished_ok ends
  exact has (name, s) (by rw [built]; exact List.mem_cons_self)

theorem Has.advance {s : Snapshot} (has : q.Has good) (fine : good s) : (q.advance s).Has good := by
  unfold Request.advance
  split
  · exact has
  · exact List.forall_mem_cons.mpr ⟨fine, has⟩

end Request

/-! ## Callers -/

namespace Call

variable {e : Engine} {c : Call} {q : Request}

inductive Stage.Carries (good : Snapshot → Prop) : Stage → Prop where
  | asks {i : Job.Inputs} {q : Request} (has : q.Has good) (references : ∀ r ∈ i.references, good r) :
      Carries good (.asks i q)
  | waits {number : Nat} {i : Job.Inputs} {q : Request} (has : q.Has good) : Carries good (.waits number i q)
  | returned {built : List (String × Snapshot)} {result : Except WorkspaceError Snapshot}
      (fine : ∀ s, result = .ok s → good s) : Carries good (.returned built result)

theorem Stage.Carries.mono {stage : Stage} (h : stage.Carries good) (sub : ∀ s, good s → better s) :
    stage.Carries better := by
  cases h with
  | asks has references => exact .asks (fun x hx => sub _ (has x hx)) fun r hr => sub r (references r hr)
  | waits has => exact .waits fun x hx => sub _ (has x hx)
  | returned fine => exact .returned fun s ok => sub s (fine s ok)

theorem Stage.Carries.ofRequest (has : q.Has good) : (Stage.ofRequest q).Carries good := by
  unfold Stage.ofRequest
  split
  · next ends => exact .returned fun s ok => has.finished (ok ▸ ends)
  · next needs => exact .asks has (has.references needs)

theorem Stage.Carries.begin (t : Task) : (Stage.begin t).Carries good := by
  unfold Stage.begin
  split
  · exact .returned nofun
  · next made =>
    obtain ⟨order, -, -, fits⟩ := Request.ofStore_eq_ok made
    exact .ofRequest fun x hx => (fits.built x hx).2

theorem Stage.Carries.receive {result : Except WorkspaceError Snapshot} (has : q.Has good)
    (fine : ∀ s, result = .ok s → good s) : (Stage.receive q result).Carries good := by
  cases result with
  | error => exact .returned nofun
  | ok s => exact .ofRequest (has.advance (fine s rfl))

/-- All snapshots that a caller has met are good. -/
structure Carries (good : Snapshot → Prop) (c : Call) : Prop where
  asked : ∀ i ∈ c.asked, ∀ r ∈ i.references, good r
  stage : c.stage.Carries good

theorem Carries.mono (h : c.Carries good) (sub : ∀ s, good s → better s) : c.Carries better :=
  ⟨fun i hi r hr => sub r (h.asked i hi r hr), h.stage.mono sub⟩

/-- A caller is given what builds have ended with. -/
theorem Moves.carries {r : Engine × Call} (h : Moves e c r) (sound : e.Sound tools)
    (ended : ∀ n s, e.outcome? n = some (.ok s) → good s) (carries : c.Carries good) : r.2.Carries good := by
  obtain ⟨asked, at_⟩ := carries
  cases h with
  | stays => exact ⟨asked, at_⟩
  | @hit i q s stats stage live =>
    rw [stage] at at_
    cases at_ with
    | asks has references =>
      -- What is live was built, be it from these inputs or from others of that digest.
      obtain ⟨j, -, -, made, -⟩ := sound.made_of_liveAt live
      have fine : good s := ended j.sequence s made
      exact ⟨List.forall_mem_cons.mpr ⟨references, asked⟩, .receive has fun t ok => Except.ok.inj ok ▸ fine⟩
  | joins stage | starts stage =>
    rw [stage] at at_
    cases at_ with
    | asks has references => exact ⟨List.forall_mem_cons.mpr ⟨references, asked⟩, .waits has⟩
  | @wakes number i q result stage made =>
    rw [stage] at at_
    cases at_ with
    | waits has => exact ⟨asked, .receive has fun s ok => ended number s (ok ▸ made)⟩
  | givesUp => exact ⟨asked, .returned nofun⟩

end Call

/-! ## Sessions -/

namespace Session

variable {w : Session} {event : Event}

theorem sound_engine_after (h : w.engine.Sound tools) (uses : event.Uses tools) :
    (w.after event).engine.Sound tools := by
  cases event with
  | put | evict => exact h
  | invalidate project => exact h.invalidate project
  | clear => exact h.clear
  | call =>
    unfold after enter
    dsimp only
    split <;> exact h
  | lookup => exact sound_engine_move Call.moves_lookup h
  | finish tc number => exact h.complete uses number
  | wake => exact sound_engine_move Call.moves_wake h
  | giveUp => exact sound_engine_move (Call.moves_giveUp _) h

/-- What rests neither on the stores nor on the digests. -/
structure Sourced (tools : Toolchain → Prop) (w : Session) : Prop where
  engine : w.engine.Sound tools
  builds : ∀ j ∈ w.engine.started, ∃ c ∈ w.calls, j.inputs ∈ c.asked ∧ j.sequence ∈ c.started
  calls : ∀ c ∈ w.calls, c.Carries (·.Genuine tools w.hashed)

namespace Sourced

theorem empty : Sourced tools {} := ⟨.empty, by simp, by simp⟩

theorem genuine_of_outcome (h : w.Sourced tools) {n : Nat} {s : Snapshot} (ended : w.engine.outcome? n = some (.ok s)) :
    s.Genuine tools w.hashed := by
  obtain ⟨j, hj, -, tc, tool, made⟩ := h.engine.outcomes n _ ended
  obtain ⟨c, hc, asked, -⟩ := h.builds j hj
  exact .run tool (mem_hashed.mpr ⟨c, hc, asked⟩) made ((h.calls c hc).asked _ asked)

theorem after (h : w.Sourced tools) (uses : event.Uses tools) : (w.after event).Sourced tools where
  engine := sound_engine_after h.engine uses
  builds := builds_after event h.builds
  calls := by
    have more : ∀ s : Snapshot, s.Genuine tools w.hashed → s.Genuine tools (w.after event).hashed :=
      fun s genuine => genuine.mono (hashed_after w event)
    refine calls_after event (fun t _ => ⟨by simp, .begin t⟩) (fun c _ r way _ carries => ?_)
      fun c hc => (h.calls c hc).mono more
    exact way.carries h.engine (fun _ s ended => more s (h.genuine_of_outcome ended)) carries

end Sourced
end Session

namespace SharedCache

variable {events : List (Nat × Session.Event)}

theorem sourced_run (uses : ∀ event ∈ events, event.2.Uses tools) (k : Nat) :
    ((run events).session k).Sourced tools := by
  induction events using List.reverseRecOn generalizing k with
  | nil => exact .empty
  | append_singleton events event ih =>
    have before := ih (fun e he => uses e (List.mem_append_left _ he)) event.1
    have next := before.after (uses event (by simp))
    rw [run_concat]
    exact ⟨next.engine, next.builds, next.calls⟩

/-- Whatever a build has ended with. -/
theorem genuine_of_outcome (uses : ∀ event ∈ events, event.2.Uses tools) {n : Nat} {s : Snapshot}
    (ended : (run events).engine.outcome? n = some (.ok s)) : s.Genuine tools (run events).hashed :=
  (sourced_run uses 0).genuine_of_outcome ended

/-- Whatever a caller is given. -/
theorem genuine_of_answer (uses : ∀ event ∈ events, event.2.Uses tools) {c : Call} (hc : c ∈ (run events).calls)
    {s : Snapshot} (answer : c.answer? = some (.ok s)) : s.Genuine tools (run events).hashed := by
  obtain ⟨built, returned⟩ := Call.answer?_eq_some.mp answer
  have stage := ((sourced_run uses 0).calls c hc).stage
  rw [returned] at stage
  cases stage with
  | returned fine => exact fine s rfl

end SharedCache
end CodeWorkspace
