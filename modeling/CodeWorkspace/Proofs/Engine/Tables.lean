import CodeWorkspace.Engine
import Mathlib.Data.List.Nodup

/-! What the operations of a cache do to its two tables, entry by entry. -/
namespace CodeWorkspace

namespace Cache

variable {c : Cache} {key k project : String} {s : Snapshot}

theorem mem_live_of_liveAt (h : c.liveAt k = some s) : (k, s) ∈ c.live := by
  unfold liveAt at h
  obtain ⟨⟨k', s'⟩, found, rfl⟩ := Option.map_eq_some_iff.mp h
  have same : k' = k := by simpa using List.find?_some found
  rw [← same]
  exact List.mem_of_find?_eq_some found

/-- Where no key comes twice, the entries are what is found. -/
theorem liveAt_eq_some_iff (keys : (c.live.map (·.1)).Nodup) :
    c.liveAt k = some s ↔ (k, s) ∈ c.live := by
  refine ⟨mem_live_of_liveAt, fun h => ?_⟩
  cases found : c.liveAt k with
  | none =>
    unfold liveAt at found
    rw [Option.map_eq_none_iff, List.find?_eq_none] at found
    simpa using found _ h
  | some s' =>
    have := List.inj_on_of_nodup_map keys (mem_live_of_liveAt found) h rfl
    simpa using this

private theorem liveAt_filter (c : Cache) (key k : String) :
    Cache.liveAt { c with live := c.live.filter (·.1 ≠ key) } k =
      if key = k then none else c.liveAt k := by
  unfold liveAt
  rw [List.find?_filter]
  split
  · next same =>
    rw [Option.map_eq_none_iff, List.find?_eq_none]
    rintro x -
    simp only [← same]
    simp
  · next other =>
    congr 2
    funext x
    by_cases h : x.1 = k
    · simp [h, Ne.symm other]
    · simp [h]

@[simp] theorem liveAt_setLive :
    (c.setLive key s).liveAt k = if key = k then some s else c.liveAt k := by
  have rest := liveAt_filter c key k
  unfold setLive
  unfold liveAt at rest ⊢
  dsimp only at rest ⊢
  rw [List.find?_cons]
  by_cases h : key = k
  · simp [h]
  · simpa [h] using rest

@[simp] theorem liveAt_invalidate :
    (c.invalidate project).liveAt k = if projectKey project = k then none else c.liveAt k :=
  liveAt_filter c (projectKey project) k

theorem keys_setLive (keys : (c.live.map (·.1)).Nodup) : ((c.setLive key s).live.map (·.1)).Nodup := by
  unfold setLive
  rw [List.map_cons, List.nodup_cons]
  refine ⟨by simp, ?_⟩
  exact keys.sublist (List.filter_sublist.map _)

theorem keys_invalidate (keys : (c.live.map (·.1)).Nodup) :
    ((c.invalidate project).live.map (·.1)).Nodup :=
  keys.sublist (List.filter_sublist.map _)

theorem keys_offer (keys : (c.live.map (·.1)).Nodup) : ((c.offer key s).live.map (·.1)).Nodup := by
  unfold offer
  split
  · exact keys_setLive keys
  · split
    · exact keys_setLive keys
    · exact keys

/-- An offer is taken, unless a later snapshot is live. -/
theorem liveAt_offer (c : Cache) (key k : String) (s : Snapshot) :
    (c.offer key s).liveAt k =
      if key = k ∧ ∀ old, c.liveAt key = some old → old.sequence < s.sequence then some s
      else c.liveAt k := by
  unfold offer
  split
  · next none => simp [none]
  · next old found =>
    split
    · next newer => simp [found, newer]
    · next stale => simp [found, stale]

@[simp] theorem inFlight_offer : (c.offer key s).inFlight = c.inFlight := by
  unfold offer
  split
  · rfl
  · split <;> rfl

@[simp] theorem nextSequence_offer : (c.offer key s).nextSequence = c.nextSequence := by
  unfold offer
  split
  · rfl
  · split <;> rfl

@[simp] theorem stats_offer : (c.offer key s).stats = c.stats := by
  unfold offer
  split
  · rfl
  · split <;> rfl

private theorem liveAt_publish_ok (c : Cache) (j : Job) (s : Snapshot) (k : String) :
    (c.publish j (.ok s)).liveAt k =
      if j.inputs.key = k ∧ ∀ old, c.liveAt j.inputs.key = some old → old.sequence < s.sequence
      then some s else c.liveAt k :=
  liveAt_offer { c with inFlight := c.inFlight.filter (·.1 ≠ j.fingerprint) } j.inputs.key k s

section Publish

variable {j : Job} {result : Except WorkspaceError Snapshot}

/-- What is live after a build was live before or comes from it. -/
theorem liveAt_of_publish (h : (c.publish j result).liveAt k = some s) :
    c.liveAt k = some s ∨
      result = .ok s ∧ j.inputs.key = k ∧ ∀ old, c.liveAt k = some old → old.sequence < s.sequence := by
  cases result with
  | error => exact .inl h
  | ok made =>
    rw [liveAt_publish_ok] at h
    split at h
    · next taken =>
      cases h
      obtain ⟨rfl, newer⟩ := taken
      exact .inr ⟨rfl, rfl, newer⟩
    · exact .inl h

/-- A snapshot stays live after a build, or a later one takes its place. -/
theorem liveAt_publish (h : c.liveAt k = some s) :
    ∃ l, (c.publish j result).liveAt k = some l ∧ (l = s ∨ s.sequence < l.sequence) := by
  cases result with
  | error => exact ⟨s, h, .inl rfl⟩
  | ok made =>
    rw [liveAt_publish_ok]
    split
    · next taken =>
      obtain ⟨rfl, newer⟩ := taken
      exact ⟨made, rfl, .inr (newer s h)⟩
    · exact ⟨s, h, .inl rfl⟩

theorem liveAt_publish_of_ne (other : j.inputs.key ≠ k) : (c.publish j result).liveAt k = c.liveAt k := by
  cases result with
  | error => rfl
  | ok made =>
    rw [liveAt_publish_ok, if_neg]
    exact fun taken => other taken.1

/-- A snapshot that was published is live unless a later one is. -/
theorem published_le_liveAt (c : Cache) (j : Job) (s : Snapshot) :
    ∃ l, (c.publish j (.ok s)).liveAt j.inputs.key = some l ∧ s.sequence ≤ l.sequence := by
  rw [liveAt_publish_ok]
  split
  · exact ⟨s, rfl, Nat.le_refl _⟩
  · next kept =>
    simp only [true_and, not_forall, Nat.not_lt] at kept
    obtain ⟨old, live, newer⟩ := kept
    exact ⟨old, live, newer⟩

@[simp] theorem inFlight_publish :
    (c.publish j result).inFlight = c.inFlight.filter (·.1 ≠ j.fingerprint) := by
  cases result with
  | error => rfl
  | ok made => exact inFlight_offer

@[simp] theorem nextSequence_publish : (c.publish j result).nextSequence = c.nextSequence := by
  cases result with
  | error => rfl
  | ok made => exact nextSequence_offer

@[simp] theorem hits_publish : (c.publish j result).stats.hits = c.stats.hits := by
  cases result with
  | error => rfl
  | ok made => exact congrArg Cache.Stats.hits stats_offer

@[simp] theorem joins_publish : (c.publish j result).stats.joins = c.stats.joins := by
  cases result with
  | error => rfl
  | ok made => exact congrArg Cache.Stats.joins stats_offer

@[simp] theorem builds_publish : (c.publish j result).stats.builds = c.stats.builds := by
  cases result with
  | error => rfl
  | ok made => exact congrArg Cache.Stats.builds stats_offer

@[simp] theorem timeouts_publish : (c.publish j result).stats.timeouts = c.stats.timeouts := by
  cases result with
  | error => rfl
  | ok made => exact congrArg Cache.Stats.timeouts stats_offer

theorem failures_publish :
    (c.publish j result).stats.failures = c.stats.failures + if result.isOk then 0 else 1 := by
  cases result with
  | error => rfl
  | ok made => exact congrArg Cache.Stats.failures stats_offer

theorem keys_publish (keys : (c.live.map (·.1)).Nodup) :
    ((c.publish j result).live.map (·.1)).Nodup := by
  cases result with
  | error => exact keys
  | ok made => exact keys_offer keys

end Publish

theorem mem_inFlight_of_sequence? {f : Job.Fingerprint} {n : Nat} (h : c.sequence? f = some n) :
    (f, n) ∈ c.inFlight := by
  unfold sequence? at h
  obtain ⟨⟨f', n'⟩, found, rfl⟩ := Option.map_eq_some_iff.mp h
  have same : f' = f := by simpa using List.find?_some found
  rw [← same]
  exact List.mem_of_find?_eq_some found

theorem not_mem_inFlight_of_sequence? {f : Job.Fingerprint} (h : c.sequence? f = none) (n : Nat) :
    (f, n) ∉ c.inFlight := by
  unfold sequence? at h
  rw [Option.map_eq_none_iff, List.find?_eq_none] at h
  exact fun mem => by simpa using h _ mem

end Cache

namespace Engine

/-- An engine with one more build under way. -/
def start (e : Engine) (i : Job.Inputs) : Engine :=
  { e with
    cache.inFlight := (i.fingerprint, e.cache.nextSequence) :: e.cache.inFlight
    cache.nextSequence := e.cache.nextSequence + 1
    cache.stats.builds := e.cache.stats.builds + 1
    started := e.started ++ [⟨i, e.cache.nextSequence⟩] }

/-- The three ways a lookup may go. -/
inductive Looked (e : Engine) (i : Job.Inputs) : (Snapshot ⊕ Nat) × Engine → Prop where
  | hit {s : Snapshot} (live : e.cache.liveAt i.key = some s) (same : s.digest = i.digest) :
      Looked e i (.inl s, { e with cache.stats.hits := e.cache.stats.hits + 1 })
  | joined {n : Nat} (missed : ∀ s, e.cache.liveAt i.key = some s → s.digest ≠ i.digest)
      (under : e.cache.sequence? i.fingerprint = some n) :
      Looked e i (.inr n, { e with cache.stats.joins := e.cache.stats.joins + 1 })
  | started (missed : ∀ s, e.cache.liveAt i.key = some s → s.digest ≠ i.digest)
      (new : e.cache.sequence? i.fingerprint = none) :
      Looked e i (.inr e.cache.nextSequence, e.start i)

theorem looked (e : Engine) (i : Job.Inputs) : Looked e i (e.lookup i) := by
  unfold lookup Cache.lookup
  dsimp only
  cases found : (e.cache.liveAt i.fingerprint.key).filter (·.digest = i.fingerprint.digest) with
  | some s =>
    obtain ⟨live, same⟩ := Option.filter_eq_some_iff.mp found
    exact .hit live (of_decide_eq_true same)
  | none =>
    have missed : ∀ s, e.cache.liveAt i.key = some s → s.digest ≠ i.digest := by
      intro s live
      exact of_decide_eq_false (Bool.eq_false_iff.mpr (Option.filter_eq_none_iff.mp found s live))
    cases under : e.cache.sequence? i.fingerprint with
    | some n => exact .joined missed under
    | none => exact .started missed under

@[simp] theorem liveAt_lookup (e : Engine) (i : Job.Inputs) (k : String) :
    (e.lookup i).2.cache.liveAt k = e.cache.liveAt k := by
  have way := looked e i
  generalize e.lookup i = r at way
  cases way <;> rfl

end Engine
end CodeWorkspace
