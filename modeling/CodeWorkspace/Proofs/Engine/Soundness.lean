import CodeWorkspace.Proofs.Engine.Tables
import CodeWorkspace.Proofs.Snapshot.Origin

/-! The tables of a cache and the builds of its engine always fit together, in whatever order lookups, builds,
timeouts and invalidations come. -/
namespace CodeWorkspace.Engine

variable {tools : Toolchain → Prop} {e : Engine} {tc : Toolchain} {j : Job}

/-! ## Builds that end -/

theorem mem_running : j ∈ e.running ↔ j ∈ e.started ∧ e.outcome? j.sequence = none := by
  simp [running]

theorem outcome?_finish (tc : Toolchain) (e : Engine) (j : Job) (n : Nat) :
    (e.finish tc j).outcome? n = if j.sequence = n then some (j.run tc) else e.outcome? n := by
  unfold outcome? finish
  dsimp only
  rw [List.find?_cons]
  by_cases h : j.sequence = n <;> simp [h]

theorem liveAt_finish_of_ne {key : String} (tc : Toolchain) (e : Engine) (other : j.inputs.key ≠ key) :
    (e.finish tc j).cache.liveAt key = e.cache.liveAt key := Cache.liveAt_publish_of_ne other

theorem liveAt_finish_of_error {failure : WorkspaceError} (e : Engine) (failed : j.run tc = .error failure)
    (key : String) : (e.finish tc j).cache.liveAt key = e.cache.liveAt key := by
  unfold finish
  rw [failed]
  rfl

theorem running_finish (tc : Toolchain) (e : Engine) (j : Job) :
    (e.finish tc j).running = e.running.filter (·.sequence ≠ j.sequence) := by
  unfold running
  rw [List.filter_filter]
  apply List.filter_congr
  intro x _
  rw [outcome?_finish]
  by_cases h : j.sequence = x.sequence
  · simp [h]
  · simp [h, Ne.symm h]

/-- The build of a number ends, if it is under way. -/
def complete (tc : Toolchain) (e : Engine) (number : Nat) : Engine :=
  match e.running.find? (·.sequence = number) with
  | none => e
  | some j => e.finish tc j

/-- What holds of an engine as it is, and once a build has ended, holds of it after `complete`. -/
theorem complete_induction {motive : Engine → Prop} (number : Nat) (stays : motive e)
    (ends : ∀ j ∈ e.running, j.sequence = number → motive (e.finish tc j)) :
    motive (e.complete tc number) := by
  unfold complete
  split
  · exact stays
  · next found =>
    exact ends _ (List.mem_of_find?_eq_some found) (by simpa using List.find?_some found)

/-! ## What never changes again -/

/-- Builds stay on record, and so do their outcomes. -/
structure LeadsTo (e f : Engine) : Prop where
  started : ∀ j ∈ e.started, j ∈ f.started
  outcome : ∀ {n result}, e.outcome? n = some result → f.outcome? n = some result

namespace LeadsTo

@[refl] theorem refl (e : Engine) : e.LeadsTo e := ⟨fun _ => id, id⟩

theorem trans {e f g : Engine} (h : e.LeadsTo f) (h' : f.LeadsTo g) : e.LeadsTo g :=
  ⟨fun j hj => h'.started j (h.started j hj), fun ended => h'.outcome (h.outcome ended)⟩

theorem start (e : Engine) (i : Job.Inputs) : e.LeadsTo (e.start i) :=
  ⟨fun _ => List.mem_append_left _, id⟩

theorem lookup (e : Engine) (i : Job.Inputs) : e.LeadsTo (e.lookup i).2 := by
  have way := looked e i
  generalize e.lookup i = r at way
  cases way with
  | hit => exact ⟨fun _ => id, id⟩
  | joined => exact ⟨fun _ => id, id⟩
  | started => exact .start e i

theorem complete (tc : Toolchain) (e : Engine) (number : Nat) : e.LeadsTo (e.complete tc number) := by
  refine complete_induction number (.refl e) fun j running _ => ⟨fun _ => id, fun {n _} ended => ?_⟩
  rw [outcome?_finish, if_neg]
  · exact ended
  · rintro rfl
    rw [(mem_running.mp running).2] at ended
    cases ended

end LeadsTo

/-- Live snapshots stay, or later ones take their places. -/
def Grows (e f : Engine) : Prop :=
  ∀ k s, e.cache.liveAt k = some s →
    ∃ l, f.cache.liveAt k = some l ∧ (l = s ∨ s.sequence < l.sequence)

namespace Grows

@[refl] theorem refl (e : Engine) : e.Grows e := fun _ s live => ⟨s, live, .inl rfl⟩

theorem trans {e f g : Engine} (h : e.Grows f) (h' : f.Grows g) : e.Grows g := by
  intro k s live
  obtain ⟨l, live, way⟩ := h k s live
  obtain ⟨m, live, way'⟩ := h' k l live
  refine ⟨m, live, ?_⟩
  rcases way with rfl | lt
  · exact way'
  · rcases way' with rfl | lt'
    · exact .inr lt
    · exact .inr (Nat.lt_trans lt lt')

theorem lookup (e : Engine) (i : Job.Inputs) : e.Grows (e.lookup i).2 :=
  fun k s live => ⟨s, (liveAt_lookup e i k).trans live, .inl rfl⟩

theorem complete (tc : Toolchain) (e : Engine) (number : Nat) : e.Grows (e.complete tc number) :=
  complete_induction number (.refl e) fun _ _ _ _ _ live => Cache.liveAt_publish live

end Grows

/-! ## Sound engines -/

/-- `tools` are the toolchains that carried builds out. -/
structure Sound (tools : Toolchain → Prop) (e : Engine) : Prop where
  numbered : e.started.Pairwise (·.sequence < ·.sequence)
  below : ∀ j ∈ e.started, j.sequence < e.cache.nextSequence
  outcomes : ∀ n result, e.outcome? n = some result →
    ∃ j ∈ e.started, j.sequence = n ∧ ∃ tc, tools tc ∧ j.run tc = result
  inFlight : e.cache.inFlight = (e.running.map fun j => (j.fingerprint, j.sequence)).reverse
  single : (e.running.map (·.fingerprint)).Nodup
  keys : (e.cache.live.map (·.1)).Nodup
  live : ∀ k s, e.cache.liveAt k = some s →
    ∃ j ∈ e.started, j.inputs.key = k ∧ e.outcome? j.sequence = some (.ok s)
  /-- No build is under way for what is live. -/
  wanted : ∀ j ∈ e.running, ∀ s, e.cache.liveAt j.inputs.key = some s → s.digest ≠ j.inputs.digest

namespace Sound

theorem empty : Sound tools {} where
  numbered := .nil
  below := by simp
  outcomes := by simp [outcome?]
  inFlight := rfl
  single := by simp [running]
  keys := by simp
  live := by simp [Cache.liveAt]
  wanted := by simp [running]

section Facts

variable (h : e.Sound tools)
include h

theorem job_eq {j j' : Job} (hj : j ∈ e.started) (hj' : j' ∈ e.started)
    (same : j.sequence = j'.sequence) : j = j' := by
  have distinct : (e.started.map (·.sequence)).Nodup :=
    List.pairwise_map.mpr (h.numbered.imp Nat.ne_of_lt)
  exact List.inj_on_of_nodup_map distinct hj hj' same

theorem running_eq {j j' : Job} (hj : j ∈ e.running) (hj' : j' ∈ e.running)
    (same : j.fingerprint = j'.fingerprint) : j = j' :=
  List.inj_on_of_nodup_map h.single hj hj' same

theorem mem_inFlight {f : Job.Fingerprint} {n : Nat} :
    (f, n) ∈ e.cache.inFlight ↔ ∃ j ∈ e.running, j.fingerprint = f ∧ j.sequence = n := by
  rw [h.inFlight]
  simp

theorem run_of_outcome {result : Except WorkspaceError Snapshot} (hj : j ∈ e.started)
    (ended : e.outcome? j.sequence = some result) : ∃ tc, tools tc ∧ j.run tc = result := by
  obtain ⟨j', hj', same, run⟩ := h.outcomes _ _ ended
  rw [h.job_eq hj hj' same.symm]
  exact run

theorem outcome?_nextSequence : e.outcome? e.cache.nextSequence = none := by
  cases ended : e.outcome? e.cache.nextSequence with
  | none => rfl
  | some result =>
    obtain ⟨j, hj, same, -⟩ := h.outcomes _ _ ended
    have := h.below j hj
    omega

/-- Behind a live snapshot is the build that made it. -/
theorem made_of_liveAt {k : String} {s : Snapshot} (live : e.cache.liveAt k = some s) :
    ∃ j ∈ e.started, j.inputs.key = k ∧ e.outcome? j.sequence = some (.ok s) ∧
      ∃ tc, tools tc ∧ j.run tc = .ok s := by
  obtain ⟨j, hj, key, ended⟩ := h.live k s live
  exact ⟨j, hj, key, ended, h.run_of_outcome hj ended⟩

/-- What a live snapshot says of itself is what it is found under. -/
theorem key_of_liveAt {k : String} {s : Snapshot} (live : e.cache.liveAt k = some s) :
    projectKey s.project = k := by
  obtain ⟨j, -, key, -, tc, -, made⟩ := h.made_of_liveAt live
  rw [Job.project_of_run made]
  exact key

end Facts

/-! ## Every step leads from sound engines to sound engines -/

/-- Live snapshots may be dropped at any time. -/
theorem dropping (h : e.Sound tools) {c : Cache} (inFlight : c.inFlight = e.cache.inFlight)
    (next : c.nextSequence = e.cache.nextSequence) (keys : (c.live.map (·.1)).Nodup)
    (fewer : ∀ k s, c.liveAt k = some s → e.cache.liveAt k = some s) :
    Sound tools { e with cache := c } where
  numbered := h.numbered
  below := by
    rw [next]
    exact h.below
  outcomes := h.outcomes
  inFlight := inFlight.trans h.inFlight
  single := h.single
  keys := keys
  live k s live := h.live k s (fewer k s live)
  wanted j running s live := h.wanted j running s (fewer _ s live)

theorem giveUp (h : e.Sound tools) : Sound tools { e with cache := e.cache.giveUp } :=
  h.dropping rfl rfl h.keys fun _ _ => id

theorem invalidate (h : e.Sound tools) (project : String) :
    Sound tools { e with cache := e.cache.invalidate project } := by
  refine h.dropping rfl rfl (Cache.keys_invalidate h.keys) fun k s live => ?_
  rw [Cache.liveAt_invalidate] at live
  split at live
  · cases live
  · exact live

theorem clear (h : e.Sound tools) : Sound tools { e with cache := e.cache.clear } :=
  h.dropping rfl rfl (by simp [Cache.clear]) fun _ _ live => by cases live

theorem running_start (h : e.Sound tools) (i : Job.Inputs) :
    (e.start i).running = e.running ++ [⟨i, e.cache.nextSequence⟩] := by
  change (e.started ++ [_]).filter (fun j : Job => (e.outcome? j.sequence).isNone) = _
  rw [List.filter_append]
  simp [running, h.outcome?_nextSequence]

theorem start (h : e.Sound tools) {i : Job.Inputs}
    (missed : ∀ s, e.cache.liveAt i.key = some s → s.digest ≠ i.digest)
    (new : e.cache.sequence? i.fingerprint = none) : (e.start i).Sound tools := by
  refine { numbered := ?_, below := ?_, outcomes := ?_, inFlight := ?_, single := ?_, keys := h.keys,
           live := ?_, wanted := ?_ }
  · refine List.pairwise_append.mpr ⟨h.numbered, by simp, fun j hj j' hj' => ?_⟩
    rw [List.mem_singleton.mp hj']
    exact h.below j hj
  · intro j hj
    rcases List.mem_append.mp hj with hj | hj
    · exact Nat.lt_succ_of_lt (h.below j hj)
    · rw [List.mem_singleton.mp hj]
      exact Nat.lt_succ_self _
  · intro n result ended
    obtain ⟨j, hj, same⟩ := h.outcomes n result ended
    exact ⟨j, List.mem_append_left _ hj, same⟩
  · rw [h.running_start]
    simp [Engine.start, h.inFlight, Job.fingerprint]
  · rw [h.running_start, List.map_append, List.nodup_append]
    refine ⟨h.single, by simp, ?_⟩
    intro f hf _ hi
    obtain ⟨j, hj, rfl⟩ := List.mem_map.mp hf
    obtain rfl : _ = i.fingerprint := by simpa [Job.fingerprint] using hi
    intro same
    exact Cache.not_mem_inFlight_of_sequence? new j.sequence
      (h.mem_inFlight.mpr ⟨j, hj, same, rfl⟩)
  · intro k s live
    obtain ⟨j, hj, made⟩ := h.live k s live
    exact ⟨j, List.mem_append_left _ hj, made⟩
  · rw [h.running_start]
    intro j hj
    rcases List.mem_append.mp hj with hj | hj
    · exact h.wanted j hj
    · rw [List.mem_singleton.mp hj]
      exact missed

theorem lookup (h : e.Sound tools) (i : Job.Inputs) : (e.lookup i).2.Sound tools := by
  have way := looked e i
  generalize e.lookup i = r at way
  cases way with
  | hit => exact h.dropping rfl rfl h.keys fun _ _ => id
  | joined => exact h.dropping rfl rfl h.keys fun _ _ => id
  | started missed new => exact h.start missed new

theorem finish (h : e.Sound tools) (tool : tools tc) (running : j ∈ e.running) :
    (e.finish tc j).Sound tools := by
  obtain ⟨started, unended⟩ := mem_running.mp running
  have others {x : Job} (hx : x ∈ (e.finish tc j).running) :
      x ∈ e.running ∧ x.fingerprint ≠ j.fingerprint := by
    rw [running_finish] at hx
    obtain ⟨hx, other⟩ := List.mem_filter.mp hx
    refine ⟨hx, fun same => ?_⟩
    rw [h.running_eq hx running same] at other
    simp at other
  refine { numbered := h.numbered, below := ?_, outcomes := ?_, inFlight := ?_, single := ?_,
           keys := Cache.keys_publish h.keys, live := ?_, wanted := ?_ }
  · exact fun x hx => Nat.lt_of_lt_of_eq (h.below x hx) Cache.nextSequence_publish.symm
  · intro n result ended
    rw [outcome?_finish] at ended
    split at ended
    · next same =>
      cases ended
      exact ⟨j, started, same, tc, tool, rfl⟩
    · exact h.outcomes n result ended
  · -- The table drops a fingerprint, the record a number. Among builds under way these are the same build.
    have same : e.running.filter (·.sequence ≠ j.sequence) =
        e.running.filter (·.fingerprint ≠ j.fingerprint) := by
      apply List.filter_congr
      intro x hx
      congr 1
      refine propext (not_congr ⟨fun same => ?_, fun same => ?_⟩)
      · rw [h.job_eq (mem_running.mp hx).1 started same]
      · rw [h.running_eq hx running same]
    rw [running_finish, same]
    change (e.cache.publish j _).inFlight = _
    rw [Cache.inFlight_publish, h.inFlight, List.filter_reverse, List.filter_map]
    rfl
  · rw [running_finish]
    exact h.single.sublist (List.filter_sublist.map _)
  · intro k s live
    rcases Cache.liveAt_of_publish live with live | ⟨made, key, -⟩
    · obtain ⟨x, hx, key, ended⟩ := h.live k s live
      refine ⟨x, hx, key, ?_⟩
      rw [outcome?_finish, if_neg]
      · exact ended
      · intro same
        rw [← same, unended] at ended
        cases ended
    · exact ⟨j, started, key, by rw [outcome?_finish, if_pos rfl, made]⟩
  · intro x hx s live
    obtain ⟨hx, other⟩ := others hx
    rcases Cache.liveAt_of_publish live with live | ⟨made, key, -⟩
    · exact h.wanted x hx s live
    · -- Two builds of one fingerprint are never under way at a time.
      intro same
      rw [Job.digest_of_run made] at same
      exact other (by simp only [Job.fingerprint, Job.Inputs.fingerprint, key, same])

theorem complete (h : e.Sound tools) (tool : tools tc) (number : Nat) :
    (e.complete tc number).Sound tools :=
  complete_induction number h fun _ running _ => h.finish tool running

end Sound
end CodeWorkspace.Engine
