import CodeWorkspace.Proofs.Engine.SingleFlight
import Mathlib.Algebra.GroupWithZero.Nat
import Mathlib.Data.List.Induction

/-! What the counters of a cache tell. They are counted up at different places, by callers and by builds, but in every
state they account for all that was looked up and for all that was built. -/
namespace CodeWorkspace

namespace Engine

/-- All lookups that were counted, whatever came of them. -/
def counted (e : Engine) : Nat := e.cache.stats.hits + e.cache.stats.joins + e.cache.stats.builds

/-- Builds that ended well, whether or not their snapshots became live. -/
def published (e : Engine) : Nat := e.ended.countP (·.2.isOk)

/-- The counters account for this many lookups. -/
structure Accounts (e : Engine) (lookups : Nat) : Prop where
  lookups : e.cache.stats.hits + e.cache.stats.joins + e.cache.stats.builds = lookups
  builds : e.cache.stats.builds = e.cache.inFlight.length + e.cache.stats.failures + e.published
  timeouts : e.cache.stats.timeouts ≤ e.cache.stats.joins + e.cache.stats.builds

/-- The counters against the records of the builds, with this many lookups made and this many callers waiting. -/
structure Ledger (e : Engine) (lookups waiting : Nat) : Prop where
  sound : e.Sound fun _ => True
  lookups : e.counted = lookups
  started : e.cache.stats.builds = e.started.length
  ended : e.started.length = e.running.length + e.ended.length
  failures : e.cache.stats.failures = e.ended.countP (!·.2.isOk)
  /-- Whoever waits has joined a build or started one, and may still give up. -/
  timeouts : e.cache.stats.timeouts + waiting ≤ e.cache.stats.joins + e.cache.stats.builds

variable {e e' : Engine} {i : Job.Inputs} {lookups waiting : Nat}

theorem counted_lookup (e : Engine) (i : Job.Inputs) : (e.lookup i).2.counted = e.counted + 1 := by
  have way := looked e i
  generalize e.lookup i = r at way
  cases way <;> simp only [counted, start] <;> omega

theorem counted_finish (tc : Toolchain) (e : Engine) (j : Job) : (e.finish tc j).counted = e.counted := by
  have stats : (e.finish tc j).cache.stats = (e.cache.publish j (j.run tc)).stats := rfl
  rw [counted, stats, Cache.hits_publish, Cache.joins_publish, Cache.builds_publish, counted]

theorem Sound.length_running_finish {tools : Toolchain → Prop} (h : e.Sound tools) {j : Job} (running : j ∈ e.running)
    (tc : Toolchain) : e.running.length = (e.finish tc j).running.length + 1 := by
  have numbers : (e.running.map (·.sequence)).Nodup :=
    List.pairwise_map.mpr ((h.numbered.sublist List.filter_sublist).imp Nat.ne_of_lt)
  have once := List.count_eq_one_of_mem numbers (List.mem_map_of_mem running)
  rw [List.count, List.countP_map] at once
  rw [running_finish, ← List.countP_eq_length_filter, List.length_eq_countP_add_countP (·.sequence == j.sequence),
    Nat.add_comm]
  exact congrArg₂ (· + ·) (List.countP_congr fun x _ => by simp) once

namespace Ledger

theorem empty : Ledger {} 0 0 where
  sound := .empty
  lookups := rfl
  started := rfl
  ended := rfl
  failures := rfl
  timeouts := Nat.le_refl 0

section Steps

variable (h : e.Ledger lookups waiting)
include h

theorem hit {s : Snapshot} (found : e.lookup i = (.inl s, e')) : e'.Ledger (lookups + 1) waiting := by
  have sound := h.sound.lookup i
  have one := counted_lookup e i
  have way := looked e i
  rw [found] at sound one way
  rw [h.lookups] at one
  cases way with
  | hit => exact ⟨sound, one, h.started, h.ended, h.failures, h.timeouts⟩

/-- A lookup that finds nothing live leaves its caller waiting, and joins a build or starts one. -/
theorem waits {n : Nat} (found : e.lookup i = (.inr n, e')) : e'.Ledger (lookups + 1) (waiting + 1) := by
  have sound := h.sound.lookup i
  have one := counted_lookup e i
  have way := looked e i
  rw [found] at sound one way
  rw [h.lookups] at one
  have waiting := h.timeouts
  cases way with
  | joined => exact ⟨sound, one, h.started, h.ended, h.failures, by simp only; omega⟩
  | started =>
    have more : (e.start i).started.length = e.started.length + 1 := List.length_append
    refine ⟨sound, one, ?_, ?_, h.failures, by simp only [start]; omega⟩
    · rw [more, ← h.started]
      rfl
    · have ended : (e.start i).ended = e.ended := rfl
      rw [more, h.ended, h.sound.running_start, List.length_append, List.length_singleton, ended]
      omega

theorem finish {j : Job} (running : j ∈ e.running) (tc : Toolchain) : (e.finish tc j).Ledger lookups waiting := by
  have sound : (e.finish tc j).Sound fun _ => True := h.sound.finish trivial running
  have stats : (e.finish tc j).cache.stats = (e.cache.publish j (j.run tc)).stats := rfl
  refine ⟨sound, (counted_finish tc e j).trans h.lookups, ?_, ?_, ?_, ?_⟩
  · rw [stats, Cache.builds_publish]
    exact h.started
  · have started : (e.finish tc j).started = e.started := rfl
    have ended : (e.finish tc j).ended.length = e.ended.length + 1 := rfl
    rw [started, h.ended, ended, h.sound.length_running_finish running tc, Nat.add_assoc, Nat.add_comm 1]
  · rw [stats, Cache.failures_publish, h.failures]
    cases well : (j.run tc).isOk <;> simp [Engine.finish, well]
  · rw [stats, Cache.timeouts_publish, Cache.joins_publish, Cache.builds_publish]
    exact h.timeouts

theorem complete (tc : Toolchain) (number : Nat) : (e.complete tc number).Ledger lookups waiting :=
  complete_induction (motive := fun e => e.Ledger lookups waiting) number h fun _ running _ => h.finish running tc

theorem invalidate (project : String) :
    Ledger { e with cache := e.cache.invalidate project } lookups waiting :=
  ⟨h.sound.invalidate project, h.lookups, h.started, h.ended, h.failures, h.timeouts⟩

theorem clear : Ledger { e with cache := e.cache.clear } lookups waiting :=
  ⟨h.sound.clear, h.lookups, h.started, h.ended, h.failures, h.timeouts⟩

theorem accounts : e.Accounts lookups where
  lookups := h.lookups
  builds := by
    have inFlight : e.cache.inFlight.length = e.running.length := by
      rw [h.sound.inFlight, List.length_reverse, List.length_map]
    have outcomes : e.ended.length = e.published + e.ended.countP (!·.2.isOk) := by
      rw [List.length_eq_countP_add_countP (·.2.isOk)]
      simp [published]
    rw [h.started, h.ended, inFlight, h.failures, outcomes, Nat.add_assoc, Nat.add_comm e.published]
  timeouts := Nat.le_of_add_right_le h.timeouts

end Steps

theorem giveUp (h : e.Ledger lookups (waiting + 1)) : Ledger { e with cache := e.cache.giveUp } lookups waiting := by
  obtain ⟨sound, count, started, ended, failures, timeouts⟩ := h
  exact ⟨sound.giveUp, count, started, ended, failures, by simp only [Cache.giveUp]; omega⟩

theorem leave (h : e.Ledger lookups (waiting + 1)) : e.Ledger lookups waiting :=
  { h with timeouts := Nat.le_of_succ_le h.timeouts }

end Ledger
end Engine

/-! ## Callers -/

/-- One entry of a list is replaced: all others count as before. -/
theorem exists_sum_map_set {α : Type*} (f : α → Nat) {xs : List α} {k : Nat} {x : α} (found : xs[k]? = some x) :
    ∃ others, (xs.map f).sum = others + f x ∧ ∀ y, ((xs.set k y).map f).sum = others + f y := by
  induction xs generalizing k with
  | nil => cases found
  | cons z rest ih =>
    cases k with
    | zero =>
      cases found
      exact ⟨(rest.map f).sum, Nat.add_comm .., fun y => Nat.add_comm ..⟩
    | succ k =>
      obtain ⟨others, before, after⟩ := ih found
      refine ⟨f z + others, ?_, fun y => ?_⟩
      · rw [List.map_cons, List.sum_cons, before, Nat.add_assoc]
      · rw [List.set_cons_succ, List.map_cons, List.sum_cons, after, Nat.add_assoc]

def Ticket.State.waiting : Ticket.State → Nat
  | .waits _ => 1
  | .hit _ | .woken .. | .gaveUp _ => 0

namespace Desk

def Event.asks : Event → Bool
  | .ask _ => true
  | .finish .. | .wake _ | .giveUp _ | .invalidate _ | .clear => false

def Ledger (d : Desk) : Prop := d.engine.Ledger d.tickets.length (d.tickets.map (·.state.waiting)).sum

variable {d : Desk}

/-- A caller that waited goes its way. -/
theorem Ledger.set {k number : Nat} {i : Job.Inputs} {e : Engine} {state : Ticket.State} (h : d.Ledger)
    (found : d.tickets[k]? = some ⟨i, .waits number⟩) (gone : state.waiting = 0)
    (keeps : ∀ {lookups waiting}, d.engine.Ledger lookups (waiting + 1) → e.Ledger lookups waiting) :
    Ledger ⟨e, d.tickets.set k ⟨i, state⟩⟩ := by
  obtain ⟨others, before, after⟩ := exists_sum_map_set (·.state.waiting) found
  rw [Ledger, before] at h
  rw [Ledger, after, List.length_set, gone]
  exact keeps h

theorem Ledger.after (h : d.Ledger) (event : Event) : (d.after event).Ledger := by
  cases event with
  | ask i =>
    unfold Desk.after
    dsimp only
    cases found : d.engine.lookup i with
    | mk answer e =>
      cases answer with
      | inl s => simpa [Ledger, Ticket.State.waiting] using h.hit found
      | inr number => simpa [Ledger, Ticket.State.waiting] using h.waits found
  | finish tc number => exact h.complete tc number
  | wake k =>
    unfold Desk.after
    dsimp only
    split
    · next found =>
      split
      · exact h.set found rfl Engine.Ledger.leave
      · exact h
    · exact h
  | giveUp k =>
    unfold Desk.after
    dsimp only
    split
    · next found => exact h.set found rfl Engine.Ledger.giveUp
    · exact h
  | invalidate project => exact Engine.Ledger.invalidate h project
  | clear => exact Engine.Ledger.clear h

theorem length_tickets_after (d : Desk) (event : Event) :
    (d.after event).tickets.length = d.tickets.length + [event].countP Event.asks := by
  cases event with
  | ask i =>
    unfold after
    dsimp only
    split <;> simp [Event.asks]
  | wake k | giveUp k =>
    unfold after
    dsimp only
    split <;> try split
    all_goals simp [Event.asks]
  | finish | invalidate | clear => rfl

theorem run_concat (events : List Event) (event : Event) : run (events ++ [event]) = (run events).after event :=
  List.foldl_append ..

theorem ledger_run (events : List Event) : (run events).Ledger := by
  induction events using List.reverseRecOn with
  | nil => exact .empty
  | append_singleton events event ih =>
    rw [run_concat]
    exact ih.after event

theorem length_tickets_run (events : List Event) : (run events).tickets.length = events.countP Event.asks := by
  induction events using List.reverseRecOn with
  | nil => rfl
  | append_singleton events event ih => rw [run_concat, length_tickets_after, ih, List.countP_append]

theorem accounts_run (events : List Event) : (run events).engine.Accounts (events.countP Event.asks) := by
  rw [← length_tickets_run]
  exact (ledger_run events).accounts

end Desk
end CodeWorkspace
