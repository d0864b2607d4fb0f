import CodeWorkspace.Proofs.Session.Descriptions

/-! When one snapshot takes the place of another. Builds are numbered as they are started, but their documents were
captured before that. Of two builds of a project the later number wins, be its documents the older ones: the new
snapshot is no older if and only if its build was started by a caller that captured later. -/
namespace CodeWorkspace.Session

variable {tools : Toolchain → Prop} {w : Session} {event : Event} {ps : Projects} {key : String} {s : Snapshot}

/-- The caller that started a build, by its place in the order of captures. -/
def starter? (w : Session) (number : Nat) : Option Nat :=
  w.calls.findIdx? (·.started.contains number)

/-- What is live was live before, or comes from a build that has just ended. -/
theorem liveAt_of_after (live : (w.after event).engine.cache.liveAt key = some s) :
    w.engine.cache.liveAt key = some s ∨
      ∃ j ∈ w.engine.running, ∃ tc, j.inputs.key = key ∧ j.run tc = .ok s := by
  cases event with
  | put | evict => exact .inl live
  | invalidate project =>
    left
    rw [after, Cache.liveAt_invalidate] at live
    split at live
    · cases live
    · exact live
  | clear => cases live
  | call solution name =>
    unfold after enter at live
    dsimp only at live
    split at live
    · exact .inl live
    · exact .inl live
  | lookup => exact .inl ((liveAt_move Call.moves_lookup key).symm.trans live)
  | finish tc number =>
    revert live
    refine Engine.complete_induction (motive := fun e => e.cache.liveAt key = some s → _) number .inl ?_
    intro j running _ live
    rcases Cache.liveAt_of_publish live with live | ⟨made, same, -⟩
    · exact .inl live
    · exact .inr ⟨j, running, tc, same, made⟩
  | wake => exact .inl ((liveAt_move Call.moves_wake key).symm.trans live)
  | giveUp => exact .inl ((liveAt_move (Call.moves_giveUp _) key).symm.trans live)

namespace Sound

/-- Every build was started by a caller that looked it up. -/
theorem starter (h : w.Sound tools) {j : Job} (hj : j ∈ w.engine.started) :
    ∃ k c, w.starter? j.sequence = some k ∧ w.calls[k]? = some c ∧ j.inputs ∈ c.asked := by
  obtain ⟨x, hx, -, mem⟩ := h.builds j hj
  have there : (w.starter? j.sequence).isSome = true := by
    rw [starter?, List.findIdx?_isSome, List.any_eq_true]
    exact ⟨x, hx, by simpa using mem⟩
  obtain ⟨k, found⟩ := Option.isSome_iff_exists.mp there
  obtain ⟨inside, started, -⟩ := List.findIdx?_eq_some_iff_getElem.mp found
  have hc : w.calls[k] ∈ w.calls := List.getElem_mem inside
  obtain ⟨j', hj', same, asked⟩ := (h.calls _ hc).started j.sequence (by simpa using started)
  rw [h.engine.job_eq hj' hj same] at asked
  exact ⟨k, w.calls[k], found, List.getElem?_eq_getElem inside, asked⟩

/-- Captures follow one another as the callers do. -/
theorem captured_leadsTo (h : w.Sound tools) {a b : Nat} {c d : Call} (le : a ≤ b)
    (hc : w.calls[a]? = some c) (hd : w.calls[b]? = some d) : c.captured.LeadsTo d.captured := by
  obtain ⟨inside, rfl⟩ := List.getElem?_eq_some_iff.mp hc
  obtain ⟨inside', rfl⟩ := List.getElem?_eq_some_iff.mp hd
  rcases Nat.lt_or_eq_of_le le with lt | rfl
  · exact List.pairwise_iff_getElem.mp (List.pairwise_map.mp h.history) a b inside inside' lt
  · rfl

/-- Of two builds of a project that differ, the one is no older than the other if and only if it was started by a
caller that captured later. -/
theorem noOlderThan_iff (h : w.Sound tools) (free : Job.Inputs.CollisionFree w.hashed)
    (one : ∀ c ∈ w.calls, c.projects = ps) {i j : Job} (hi : i ∈ w.engine.started) (hj : j ∈ w.engine.started)
    (key : i.inputs.key = j.inputs.key) (other : i.inputs.digest ≠ j.inputs.digest) :
    ∃ a b, w.starter? i.sequence = some a ∧ w.starter? j.sequence = some b ∧
      (j.inputs.origin.NoOlderThan i.inputs.origin ↔ a < b) := by
  obtain ⟨a, c, started, hc, asked⟩ := h.starter hi
  obtain ⟨b, d, started', hd, asked'⟩ := h.starter hj
  have c_sound := h.calls c (List.mem_of_getElem? hc)
  have d_sound := h.calls d (List.mem_of_getElem? hd)
  have distinct := c_sound.distinct
  have tell := h.pathsTell free one
  have described := c_sound.describes free tell asked
  have described' := d_sound.describes free tell asked'
  rw [one c (List.mem_of_getElem? hc)] at distinct described
  rw [one d (List.mem_of_getElem? hd)] at described'
  have project := described.project_eq distinct described' key
  refine ⟨a, b, started, started', fun no => ?_, fun lt => ?_⟩
  · -- Had `d` captured first, both builds would be of one origin, and so of one digest.
    by_contra le
    have leads := h.captured_leadsTo (Nat.le_of_not_lt le) hd hc
    have same := described'.eq_of_noOlderThan distinct described project.symm leads d_sound.store
      c_sound.store no
    exact other ((h.asked_of_started i hi).digest_eq (h.asked_of_started j hj) (congrArg Origin.reading same.symm))
  · have leads := h.captured_leadsTo (Nat.le_of_lt lt) hc hd
    exact described.noOlderThan distinct described' project leads c_sound.store d_sound.store

end Sound

/-- Among callers of one set of projects, a snapshot that takes the place of another is no older than that if and
only if its build was started by a caller that captured later. -/
theorem noOlderThan_iff_captured_later (ps : Projects) (events : List Event)
    (within : ∀ event ∈ events, event.Within ps)
    (free : Job.Inputs.CollisionFree (run events).hashed) :
    ∀ before event rest, events = before ++ event :: rest → ∀ (key : String) (l s : Snapshot),
      (run before).engine.cache.liveAt key = some l →
        ((run before).after event).engine.cache.liveAt key = some s → s.sequence ≠ l.sequence →
          ∃ a b, (run before).starter? l.sequence = some a ∧ (run before).starter? s.sequence = some b ∧
            (s.origin.NoOlderThan l.origin ↔ a < b) := by
  rintro before event rest rfl key l s was live other
  rw [run_append] at free
  have free := free.mono (hashed_foldl (run before) (event :: rest))
  obtain ⟨sound, one⟩ := run_induction (motive := fun w => ∀ c ∈ w.calls, c.projects = ps)
    (fun event _ => uses_any event) free (by simp) fun _ event' _ whole _ _ _ =>
      projects_after (within event' (by simp [whole]))
  generalize run before = w at was live sound one free
  rcases liveAt_of_after live with kept | ⟨j, running, tc, rfl, made⟩
  · rw [was] at kept
    cases kept
    exact absurd rfl other
  · obtain ⟨hj, -⟩ := Engine.mem_running.mp running
    obtain ⟨i, hi, key, -, tc', -, made'⟩ := sound.engine.made_of_liveAt was
    -- What is live is of another digest; otherwise the new build would not have been under way.
    have wanted : l.digest ≠ j.inputs.digest := sound.engine.wanted j running l was
    rw [Job.digest_of_run made'] at wanted
    rw [Job.sequence_of_run made, Job.sequence_of_run made', Job.origin_of_run made,
      Job.origin_of_run made']
    exact sound.noOlderThan_iff free one hi hj key wanted

/-- The second caller edits a document, starts its last build before the first caller wakes, and is done. -/
def overtaken : List Event :=
  [.put ⟨"lib"⟩ "x", .put ⟨"app"⟩ "y", .call .pair "App", .lookup 0, .finish .blank 1, .put ⟨"lib"⟩ "z",
    .call .pair "App", .lookup 1, .finish .blank 2, .wake 1, .lookup 1, .finish .blank 3, .wake 0, .lookup 0,
    .finish .blank 4]

theorem within_overtaken : ∀ event ∈ overtaken, event.Within ⟨[Solution.lib, Solution.app]⟩ := by
  decide +kernel

theorem collisionFree_overtaken : Job.Inputs.CollisionFree (run overtaken).hashed := by
  simp only [run, overtaken, List.foldl, after_call Solution.ofSolution_pair Solution.compilationOrder_pair]
  decide +kernel

theorem noOlderThan_iff_captured_later_overtaken :
    (∀ event ∈ overtaken, event.Within ⟨[Solution.lib, Solution.app]⟩) ∧
      Job.Inputs.CollisionFree (run overtaken).hashed ∧
      ∃ l s, (run (overtaken.take 8)).engine.cache.liveAt "lib" = some l ∧
        ((run (overtaken.take 8)).after (.finish .blank 2)).engine.cache.liveAt "lib" = some s ∧
          s.sequence ≠ l.sequence ∧ ∃ a b, (run (overtaken.take 8)).starter? l.sequence = some a ∧
            (run (overtaken.take 8)).starter? s.sequence = some b ∧ (s.origin.NoOlderThan l.origin ↔ a < b) := by
  have live : ∃ l ∈ (run (overtaken.take 8)).engine.cache.liveAt "lib",
      ∃ s ∈ ((run (overtaken.take 8)).after (.finish .blank 2)).engine.cache.liveAt "lib",
        s.sequence ≠ l.sequence := by
    simp only [run, overtaken, List.take, List.foldl,
      after_call Solution.ofSolution_pair Solution.compilationOrder_pair]
    decide +kernel
  obtain ⟨l, was, s, now, other⟩ := live
  have conclusion := noOlderThan_iff_captured_later ⟨[Solution.lib, Solution.app]⟩ overtaken within_overtaken
    collisionFree_overtaken
  exact ⟨within_overtaken, collisionFree_overtaken, l, s, was, now, other,
    conclusion (overtaken.take 8) (.finish .blank 2) (overtaken.drop 9) rfl "lib" l s was now other⟩

/-- The last build puts a snapshot over the older text in the place of one over the newer. -/
theorem older_replaces_newer :
    (∀ event ∈ overtaken, event.Within ⟨[Solution.lib, Solution.app]⟩) ∧
      Job.Inputs.CollisionFree (run overtaken).hashed ∧
      ∃ l s, (run (overtaken.take 14)).engine.cache.liveAt "app" = some l ∧
        ((run (overtaken.take 14)).after (.finish .blank 4)).engine.cache.liveAt "app" = some s ∧
          s.sequence ≠ l.sequence ∧ ¬ s.origin.NoOlderThan l.origin := by
  have live : ∃ l ∈ (run (overtaken.take 14)).engine.cache.liveAt "app",
      ∃ s ∈ ((run (overtaken.take 14)).after (.finish .blank 4)).engine.cache.liveAt "app",
        s.sequence ≠ l.sequence ∧ ¬ s.origin.NoOlderThan l.origin := by
    simp only [run, overtaken, List.take, List.foldl,
      after_call Solution.ofSolution_pair Solution.compilationOrder_pair]
    decide +kernel
  obtain ⟨l, was, s, now, other, older⟩ := live
  exact ⟨within_overtaken, collisionFree_overtaken, l, s, was, now, other, older⟩

end CodeWorkspace.Session
