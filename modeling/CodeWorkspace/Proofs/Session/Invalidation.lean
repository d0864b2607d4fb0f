import CodeWorkspace.Proofs.Engine.SingleFlight
import CodeWorkspace.Proofs.Session.Alone
import CodeWorkspace.Proofs.Solution.Closure
import CodeWorkspace.Proofs.Store.Puts

/-! What is built again after documents were put. A digest changes with a document of the project or with the digest
of a reference, so what a put reaches is what lists the document and all that leads there; everything else is
found as it was left. -/
namespace CodeWorkspace

/-- A project that lists one of these paths, itself or through its references. -/
def Projects.Affected (ps : Projects) (paths : List Path) (p : Project) : Prop :=
  ∃ q, ps.Reaches p q ∧ ∃ path ∈ paths, q.lists path = true

theorem Projects.affected_iff {ps : Projects} {paths : List Path} {p : Project} :
    ps.Affected paths p ↔
      (∃ path ∈ paths, p.lists path = true) ∨ ∃ q, ps.References p q ∧ ps.Affected paths q := by
  constructor
  · rintro ⟨q, way, listed⟩
    rcases way.cases_head with rfl | ⟨r, step, way⟩
    · exact .inl listed
    · exact .inr ⟨r, step, q, way, listed⟩
  · rintro (listed | ⟨r, step, q, way, listed⟩)
    · exact ⟨p, .refl, listed⟩
    · exact ⟨q, .head step way, listed⟩

/-! ## Two lists beside a third -/

section Beside

variable {α β γ δ : Type*} {P : α → β → Prop} {xs : List α} {ys : List β}

theorem forall₂_eq {Q : α → β → Prop} {zs : List β} (h : List.Forall₂ P xs ys) (h' : List.Forall₂ Q xs zs)
    (unique : ∀ x ∈ xs, ∀ y z, P x y → Q x z → y = z) : ys = zs := by
  induction h generalizing zs with
  | nil =>
    cases h'
    rfl
  | cons here _ ih =>
    cases h' with
    | cons here' rest' =>
      rw [List.forall_mem_cons] at unique
      rw [unique.1 _ _ here here', ih rest' unique.2]

theorem forall₂_beside {Q : α → γ → Prop} {zs : List γ} {f : β → δ} {g : γ → δ} (h : List.Forall₂ P xs ys)
    (h' : List.Forall₂ Q xs zs) (alike : ys.map f = zs.map g) :
    ∀ x ∈ xs, ∃ y z, P x y ∧ Q x z ∧ f y = g z := by
  induction h generalizing zs with
  | nil => simp
  | cons here _ ih =>
    cases h' with
    | cons here' rest' =>
      simp only [List.map_cons, List.cons.injEq] at alike
      exact List.forall_mem_cons.mpr ⟨⟨_, _, here, here', alike.1⟩, ih rest' alike.2⟩

end Beside

theorem Project.versions_ne {p : Project} {s : Store} {puts : List (Path × String)} (sound : s.Sound)
    (written : ∃ path ∈ puts.map (·.1), p.lists path = true) {documents documents' : List Document}
    (captured : s.capture p.documents = .ok documents)
    (captured' : (s.putAll puts).capture p.documents = .ok documents') :
    documents.map (·.version) ≠ documents'.map (·.version) := by
  intro alike
  obtain ⟨path, mem, listed⟩ := written
  obtain ⟨w, hw, rfl⟩ := List.mem_map.mp mem
  obtain ⟨place, here, same⟩ := List.any_eq_true.mp listed
  obtain ⟨d, d', held, held', version⟩ := forall₂_beside (Store.capture_eq_ok_iff.mp captured)
    (Store.capture_eq_ok_iff.mp captured') alike place here
  have sound' := sound.putAll puts
  rw [sound.version held, sound'.version held'] at version
  have := Store.lastVersion_putAll_lt (s := s) ⟨w, hw, by rw [Path.same_comm]; exact same⟩
  omega

/-! ## The first time -/

/-- What a request was given stands beside what was looked up for it. -/
def Request.Recorded (store : Store) (order : List Project) (asked : List Job.Inputs)
    (built : List (String × Snapshot)) : Prop :=
  ∀ x ∈ built, ∃ p ∈ order, ∃ i ∈ asked, p.name = x.1 ∧ Record store built p i ∧ x.2.digest = i.digest

def Engine.Holds (e : Engine) (built : List (String × Snapshot)) : Prop :=
  ∀ x ∈ built, e.cache.liveAt (projectKey x.1) = some x.2

section First

variable {store : Store} {order taken : List Project} {asked : List Job.Inputs} {e e' f : Engine} {q : Request}
  {p : Project} {i : Job.Inputs} {rest : List (Project × List Document)} {t : Snapshot}

theorem Request.Recorded.advance (h : Recorded store order asked q.built) (along : q.Along store order taken)
    (remaining : q.remaining = (p, i.documents) :: rest) (record : Record store q.built p i) (mem : i ∈ asked)
    (digest : t.digest = i.digest) : Recorded store order asked (q.advance t).built := by
  have sub : ∀ x ∈ q.built, x ∈ (p.name, t) :: q.built := fun _ => List.mem_cons_of_mem _
  rw [built_advance remaining]
  unfold Recorded
  rw [List.forall_mem_cons]
  refine ⟨⟨p, along.mem_order remaining, i, mem, rfl, record.mono sub, digest⟩, fun x hx => ?_⟩
  obtain ⟨p', hp', i', hi', name, record', digest'⟩ := h x hx
  exact ⟨p', hp', i', hi', name, record'.mono sub, digest'⟩

theorem Engine.Holds.advance (h : e.Holds q.built) (stands : Stands store order taken e q)
    (keys : (order.map (projectKey ·.name)).Nodup) (remaining : q.remaining = (p, i.documents) :: rest)
    (record : Request.Record store q.built p i) (serves : e.Serves i t e') : e'.Holds (q.advance t).built := by
  rw [Request.built_advance remaining]
  unfold Holds
  rw [List.forall_mem_cons]
  constructor
  · rw [← record.key]
    exact serves.live stands.sound
  · intro x hx
    refine serves.others ?_ (h x hx)
    rw [record.key]
    exact (stands.along.key_ne keys remaining).1 x hx

/-- A request leaves its snapshots live behind. -/
theorem Engine.Answers.holds {is : List Job.Inputs} {built : List (String × Snapshot)} {s : Snapshot}
    (answers : e.Answers q is f built s) (stands : Stands store order [] e q) (none : q.built = [])
    (keys : (order.map (projectKey ·.name)).Nodup) (sub : ∀ i ∈ is, i ∈ asked) :
    f.Sound (fun _ => True) ∧ f.running = [] ∧ built.map (·.1) = (order.map (·.name)).reverse ∧
      Request.Recorded store order asked built ∧ f.Holds built ∧ ∃ name rest, built = (name, s) :: rest := by
  obtain ⟨q', stands', ⟨recorded, holds⟩, rfl, last⟩ := answers.induct
    (motive := fun _ e q => Request.Recorded store order asked q.built ∧ e.Holds q.built) stands
    (by simp [none, Request.Recorded, Holds])
    fun mem stands remaining record serves h =>
      ⟨h.1.advance stands.along remaining record (sub _ mem) serves.digest,
        h.2.advance stands keys remaining record serves⟩
  exact ⟨stands'.sound, stands'.idle, stands'.along.names, recorded, holds, last⟩

end First

/-! ## The second time -/

namespace Request

structure Answered (ps : Projects) (store : Store) (order : List Project) (asked : List Job.Inputs)
    (old : List (String × Snapshot)) : Prop where
  distinct : ps.Distinct
  listed : ∀ p ∈ order, p ∈ ps.all
  keys : (order.map (projectKey ·.name)).Nodup
  names : old.map (·.1) = (order.map (·.name)).reverse
  recorded : Recorded store order asked old

/-- A snapshot that is given over other documents is the old one, or one of another digest where the project is
affected. -/
def Matched (affected : Project → Prop) (order : List Project) (old : List (String × Snapshot))
    (x : String × Snapshot) : Prop :=
  ∃ p ∈ order, p.name = x.1 ∧ (¬ affected p → x ∈ old) ∧
    (affected p → ∀ t, (p.name, t) ∈ old → x.2.digest ≠ t.digest)

namespace Answered

variable {ps : Projects} {store : Store} {order : List Project} {asked : List Job.Inputs}
  {old new : List (String × Snapshot)} {puts : List (Path × String)} {p : Project} {i i' : Job.Inputs}
  (h : Answered ps store order asked old)
include h

theorem once : (order.map (·.name)).Nodup := by
  apply List.Nodup.of_map projectKey
  rw [List.map_map]
  exact h.keys

theorem unique {name : String} {t t' : Snapshot} (ht : (name, t) ∈ old) (ht' : (name, t') ∈ old) : t = t' := by
  have once : (old.map (·.1)).Nodup := by
    rw [h.names, List.nodup_reverse]
    exact h.once
  have := List.inj_on_of_nodup_map once ht ht' rfl
  simpa using this

theorem project_eq {p q : Project} (hp : p ∈ order) (hq : q ∈ order) (same : p.name = q.name) : p = q :=
  List.inj_on_of_nodup_map h.once hp hq same

theorem record (hp : p ∈ order) :
    ∃ t, (p.name, t) ∈ old ∧ ∃ i ∈ asked, Record store old p i ∧ t.digest = i.digest := by
  obtain ⟨t, ht⟩ := exists_given h.names hp
  obtain ⟨p', hp', i, hi, same, record, digest⟩ := h.recorded _ ht
  rw [h.project_eq hp' hp same] at record
  exact ⟨t, ht, i, hi, record, digest⟩

section Again

variable (record : Record store old p i) (record' : Record (store.putAll puts) new p i')
  (matched : ∀ x ∈ new, Matched (ps.Affected (puts.map (·.1))) order old x)
include record record' matched

/-- Where nothing was put that a project leads to, it is looked up with the same again. -/
theorem inputs_eq (unaffected : ¬ ps.Affected (puts.map (·.1)) p) : i' = i := by
  rw [Projects.affected_iff, not_or] at unaffected
  obtain ⟨unwritten, beneath⟩ := unaffected
  have documents : i'.documents = i.documents := by
    have same : ∀ d ∈ p.documents, (store.putAll puts).get? d = store.get? d := by
      intro d hd
      apply Store.get?_putAll
      intro w hw
      by_contra written
      rw [Bool.not_eq_false, Path.same_comm] at written
      exact unwritten ⟨w.1, List.mem_map_of_mem hw, List.any_eq_true.mpr ⟨d, hd, written⟩⟩
    have := record'.captured
    rw [Store.capture_congr same, record.captured] at this
    exact (Except.ok.inj this).symm
  have references : i'.references = i.references := by
    apply forall₂_eq record'.references record.references
    -- What leads to nothing that was put references nothing that does, and those snapshots were kept.
    intro name mem t' t ht' ht
    obtain ⟨q, hq, same, kept, -⟩ := matched _ ht'
    refine h.unique (kept fun affected => beneath ⟨q, ⟨h.listed q hq, ?_⟩, affected⟩) ht
    rw [same]
    exact mem
  cases i
  cases i'
  simp only [Job.Inputs.mk.injEq]
  exact ⟨record'.name.trans record.name.symm, documents, references⟩

/-- What was put shows in the digest of all projects that lead to it. -/
theorem digest_ne (sound : store.Sound) (affected : ps.Affected (puts.map (·.1)) p) {hashed : List Job.Inputs}
    (free : Job.Inputs.CollisionFree hashed) (mem : i ∈ hashed) (mem' : i' ∈ hashed) : i'.digest ≠ i.digest := by
  intro same
  -- One digest would mean one buffer, hence the same versions and the same digests of references.
  obtain ⟨-, imprints, digests⟩ := free.fields mem mem' same.symm
  rcases Projects.affected_iff.mp affected with written | ⟨q, ⟨listed, direct⟩, affected⟩
  · refine p.versions_ne sound written record.captured record'.captured ?_
    have versions := congrArg (List.map Prod.snd) imprints
    rwa [List.map_map, List.map_map] at versions
  · obtain ⟨t, t', ht, ht', same⟩ := forall₂_beside record.references record'.references digests q.name direct
    obtain ⟨r, hr, name, -, changed⟩ := matched _ ht'
    have : r = q := h.distinct r (h.listed r hr) q listed (by rw [name])
    subst this
    exact changed affected t ht same.symm

end Again
end Answered
end Request

namespace Engine

/-- How far a request over other documents is. -/
structure Redone (affected : Project → Prop) (order : List Project) (old : List (String × Snapshot)) (e : Engine)
    (taken : List Project) (f : Engine) (q : Request) (builds : List Job) : Prop where
  since : ∃ hits, e.Since f builds hits ∧ hits + builds.length = taken.length
  sublist : (builds.map (·.inputs.project)).Sublist (taken.map (·.name))
  rebuilt : ∀ name, name ∈ builds.map (·.inputs.project) ↔ ∃ p ∈ taken, affected p ∧ p.name = name
  matched : ∀ x ∈ q.built, Request.Matched affected order old x
  waiting : ∀ y ∈ q.remaining, ∀ t, (y.1.name, t) ∈ old → f.cache.liveAt (projectKey y.1.name) = some t

section Second

variable {ps : Projects} {store : Store} {order taken : List Project} {asked : List Job.Inputs}
  {old : List (String × Snapshot)} {puts : List (Path × String)} {e f f' : Engine} {q : Request} {builds : List Job}
  {p : Project} {rest : List (Project × List Document)} {i : Job.Inputs} {s : Snapshot} {hashed : List Job.Inputs}
  (answered : Request.Answered ps store order asked old) (sound : store.Sound)
  (free : Job.Inputs.CollisionFree hashed) (sub : ∀ i ∈ asked, i ∈ hashed)
include answered sound free sub

/-- One project over other documents: a build where it is affected, else the old snapshot. -/
theorem Redone.serves (h : Redone (ps.Affected (puts.map (·.1))) order old e taken f q builds)
    (listed : p ∈ order) (remaining : q.remaining = (p, i.documents) :: rest)
    (record : Request.Record (store.putAll puts) q.built p i) (mem : i ∈ hashed) (serves : f.Serves i s f') :
    Request.Matched (ps.Affected (puts.map (·.1))) order old (p.name, s) ∧
      ∃ more hits, f.Since f' more hits ∧ hits + more.length = 1 ∧
        (more.map (·.inputs.project)).Sublist [p.name] ∧
        ∀ name, name ∈ more.map (·.inputs.project) ↔ ps.Affected (puts.map (·.1)) p ∧ p.name = name := by
  obtain ⟨t, ht, i₀, mem₀, record₀, digest⟩ := answered.record listed
  have live : f.cache.liveAt i.key = some t := by
    rw [record.key]
    exact h.waiting (p, i.documents) (by rw [remaining]; exact List.mem_cons_self) t ht
  by_cases affected : ps.Affected (puts.map (·.1)) p
  · have other : i.digest ≠ t.digest := by
      rw [digest]
      exact answered.digest_ne record₀ record h.matched sound affected free (sub i₀ mem₀) mem
    have built := serves.built_of_live live other.symm
    refine ⟨⟨p, listed, rfl, (absurd affected ·), fun _ t' ht' => ?_⟩, _, 0, built, rfl, ?_, ?_⟩
    · rw [answered.unique ht' ht, serves.digest]
      exact other
    · simp [record.name]
    · simp [record.name, affected, eq_comm]
  · have same : i = i₀ := answered.inputs_eq record₀ record h.matched affected
    obtain ⟨rfl, hit⟩ := serves.hit_of_live live (by rw [digest, same])
    refine ⟨⟨p, listed, rfl, fun _ => ht, (absurd · affected)⟩, [], 1, hit, rfl, by simp, ?_⟩
    simp [affected]

theorem Redone.advance (h : Redone (ps.Affected (puts.map (·.1))) order old e taken f q builds)
    (stands : Stands (store.putAll puts) order taken f q) (remaining : q.remaining = (p, i.documents) :: rest)
    (record : Request.Record (store.putAll puts) q.built p i) (mem : i ∈ hashed) (serves : f.Serves i s f') :
    ∃ builds', Redone (ps.Affected (puts.map (·.1))) order old e (taken ++ [p]) f' (q.advance s) builds' := by
  obtain ⟨hits, since, count⟩ := h.since
  obtain ⟨matched, more, n, since', one, single, named⟩ := h.serves answered sound free sub
    (stands.along.mem_order remaining) remaining record mem serves
  refine ⟨builds ++ more, ⟨hits + n, since.trans since', ?_⟩, ?_, fun name => ?_, ?_, ?_⟩
  · rw [List.length_append, List.length_append, List.length_singleton]
    omega
  · rw [List.map_append, List.map_append]
    exact h.sublist.append single
  · rw [List.map_append, List.mem_append, h.rebuilt, named]
    simp [or_and_right, exists_or]
  · rw [Request.built_advance remaining]
    exact List.forall_mem_cons.mpr ⟨matched, h.matched⟩
  · rw [Request.remaining_advance remaining]
    intro y hy t ht
    refine serves.others ?_ (h.waiting y (by rw [remaining]; exact List.mem_cons_of_mem _ hy) t ht)
    rw [record.key]
    exact (stands.along.key_ne answered.keys remaining).2 y hy

theorem Answers.redone {is : List Job.Inputs} {new : List (String × Snapshot)}
    (answers : e.Answers q is f new s) (stands : Stands (store.putAll puts) order [] e q) (none : q.built = [])
    (holds : e.Holds old) (mem : ∀ i ∈ is, i ∈ hashed) :
    f.Sound (fun _ => True) ∧ new.map (·.1) = (order.map (·.name)).reverse ∧
      (∃ q' builds, q'.built = new ∧
        Redone (ps.Affected (puts.map (·.1))) order old e order f q' builds) ∧
      ∃ name rest, new = (name, s) :: rest := by
  have start : Redone (ps.Affected (puts.map (·.1))) order old e [] e q [] := by
    refine ⟨⟨0, .refl e, rfl⟩, .slnil, by simp, by simp [none], fun y _ t ht => holds (y.1.name, t) ht⟩
  obtain ⟨q', stands', ⟨builds, redone⟩, rfl, last⟩ := answers.induct
    (motive := fun taken f q => ∃ builds,
      Redone (ps.Affected (puts.map (·.1))) order old e taken f q builds) stands ⟨[], start⟩
    fun hi stands remaining record serves ⟨_, h⟩ =>
      h.advance answered sound free sub stands remaining record (mem _ hi) serves
  exact ⟨stands'.sound, stands'.along.names, ⟨q', builds, rfl, redone⟩, last⟩

end Second

/-- What a request comes to that is made again, where `affected` tells which projects changed with what was put. -/
structure Rebuilds (affected : Project → Prop) (order : List Project) (old : List (String × Snapshot)) (e f : Engine)
    (new : List (String × Snapshot)) (builds : List Job) : Prop where
  names : (order.map (·.name)).Nodup
  given : new.map (·.1) = (order.map (·.name)).reverse
  /-- No project is built twice. -/
  once : (builds.map (·.inputs.project)).Nodup
  rebuilt : ∀ name, name ∈ builds.map (·.inputs.project) ↔ ∃ p ∈ order, affected p ∧ p.name = name
  later : ∀ j ∈ builds, ∀ j' ∈ e.started, j'.sequence < j.sequence
  /-- Whatever was not built was a hit. -/
  since : ∃ hits, e.Since f builds hits ∧ hits + builds.length = order.length
  kept : ∀ p ∈ order, ¬ affected p → ∃ t, (p.name, t) ∈ old ∧ (p.name, t) ∈ new

section Rebuilds

variable {affected : Project → Prop} {order : List Project} {old : List (String × Snapshot)} {e f : Engine}
  {q : Request} {builds : List Job}

theorem Redone.rebuilds (h : Redone affected order old e order f q builds) (sound : f.Sound fun _ => True)
    (names : (order.map (·.name)).Nodup) (given : q.built.map (·.1) = (order.map (·.name)).reverse) :
    Rebuilds affected order old e f q.built builds where
  names := names
  given := given
  once := h.sublist.nodup names
  rebuilt := h.rebuilt
  later := by
    obtain ⟨_, since, -⟩ := h.since
    have numbered := sound.numbered
    rw [since.started, List.pairwise_append] at numbered
    exact fun j hj j' hj' => numbered.2.2 j' hj' j hj
  since := h.since
  kept p hp unaffected := by
    obtain ⟨t, ht⟩ := Request.exists_given given hp
    obtain ⟨p', hp', same, kept, -⟩ := h.matched _ ht
    rw [List.inj_on_of_nodup_map names hp' hp same] at kept
    exact ⟨t, kept unaffected, ht⟩

theorem Redone.of_unaffected (h : Redone affected order old e order f q builds) (unaffected : ∀ p, ¬ affected p) :
    builds = [] ∧ ∀ x ∈ q.built, x ∈ old := by
  constructor
  · rw [List.eq_nil_iff_forall_not_mem]
    intro j hj
    obtain ⟨p, -, here, -⟩ := (h.rebuilt _).mp (List.mem_map_of_mem hj)
    exact unaffected p here
  · intro x hx
    obtain ⟨p, -, -, kept, -⟩ := h.matched x hx
    exact kept (unaffected p)

end Rebuilds
end Engine

namespace Call

/-- A request is made, documents are put, and the request is made again. -/
theorem rebuilds_affected (history : List Desk.Event) (solution : Solution) (edits : List Store.Edit)
    (puts : List (Path × String)) (name : String) (steps again : List Step) {ps : Projects}
    (checked : Projects.ofSolution solution = .ok ps) (idle : (Desk.run history).engine.cache.inFlight = [])
    {first second : Engine × Call}
    (came : first = alone (Desk.run history).engine ⟨ps, name, Store.edited {} edits⟩ steps)
    (back : second = alone first.1 ⟨ps, name, (Store.edited {} edits).putAll puts⟩ again)
    {old new : List (String × Snapshot)} {s s' : Snapshot} (returned : first.2.stage = .returned old (.ok s))
    (returned' : second.2.stage = .returned new (.ok s'))
    (free : Job.Inputs.CollisionFree (first.2.asked ++ second.2.asked)) :
    ∃ root order builds, ps.find? name = some root ∧ (∀ p, p ∈ order ↔ ps.Reaches root p) ∧
      Engine.Rebuilds (ps.Affected (puts.map (·.1))) order old first.1 second.1 new builds ∧
        (puts = [] → builds = [] ∧ s' = s) := by
  have distinct := Projects.distinct_of_ofSolution checked
  have linked := Projects.linked_of_ofSolution checked
  have sound := (Desk.sound_run history).engine
  have still : (Desk.run history).engine.running = [] := by
    rw [sound.inFlight] at idle
    simpa using idle
  subst came back
  -- The first time.
  obtain ⟨q, is, asked, answers, sub⟩ := answers_of_alone sound still returned
  obtain ⟨order, ordered, none, along⟩ := Request.along_of_ofStore asked
  obtain ⟨root, _, found, -⟩ := Projects.last_of_compilationOrder ordered
  have keys := Projects.keys_nodup_of_compilationOrder distinct ordered
  obtain ⟨sound₁, idle₁, names, recorded, holds, n, _, last⟩ := answers.holds ⟨sound, still, along⟩ none keys sub
  have answered : Request.Answered ps _ order _ old :=
    ⟨distinct, (Projects.partial_of_compilationOrder ordered).listed, keys, names, recorded⟩
  -- The second time.
  obtain ⟨q', is', asked', answers', sub'⟩ := answers_of_alone sound₁ idle₁ returned'
  obtain ⟨order', ordered', none', along'⟩ := Request.along_of_ofStore asked'
  cases ordered.symm.trans ordered'
  obtain ⟨sound₂, given, ⟨_, builds, rfl, redone⟩, n', _, last'⟩ := answers'.redone answered
    (Store.Sound.empty.edited edits) free (fun _ => List.mem_append_left _) ⟨sound₁, idle₁, along'⟩ none' holds
    fun i hi => List.mem_append_right _ (sub' i hi)
  refine ⟨root, order, builds, found, fun p => Projects.mem_compilationOrder_iff linked distinct ordered found,
    redone.rebuilds sound₂ answered.once given, ?_⟩
  rintro rfl
  obtain ⟨nothing, kept⟩ := redone.of_unaffected fun p => by simp [Projects.Affected]
  have same : n' = n := by
    rw [last', ← names, last] at given
    exact (List.cons.inj given).1
  have mem := kept (n', s') (by rw [last']; exact List.mem_cons_self)
  rw [same] at mem
  exact ⟨nothing, answered.unique mem (by rw [last]; exact List.mem_cons_self)⟩

/-- A caller of the pair at an engine that has done nothing yet. -/
def pairFirst : Engine × Call :=
  alone {} ⟨⟨[Solution.lib, Solution.app]⟩, "App", Store.edited {} [.put ⟨"lib"⟩ "x", .put ⟨"app"⟩ "y"]⟩
    [.lookup, .finish .blank 1, .wake, .lookup, .finish .blank 2, .wake]

def pairAgain : Engine × Call :=
  alone pairFirst.1 ⟨⟨[Solution.lib, Solution.app]⟩, "App",
      (Store.edited {} [.put ⟨"lib"⟩ "x", .put ⟨"app"⟩ "y"]).putAll [(⟨"app"⟩, "z")]⟩
    [.lookup, .lookup, .finish .blank 3, .wake]

theorem rebuilds_affected_app :
    Projects.ofSolution .pair = .ok ⟨[Solution.lib, Solution.app]⟩ ∧
      (Desk.run []).engine.cache.inFlight = [] ∧
      Job.Inputs.CollisionFree (pairFirst.2.asked ++ pairAgain.2.asked) ∧
      ∃ old new s s', pairFirst.2.stage = .returned old (.ok s) ∧ pairAgain.2.stage = .returned new (.ok s') ∧
        ∃ root order builds, Projects.find? ⟨[Solution.lib, Solution.app]⟩ "App" = some root ∧
          (∀ p, p ∈ order ↔ Projects.Reaches ⟨[Solution.lib, Solution.app]⟩ root p) ∧
          Engine.Rebuilds (Projects.Affected ⟨[Solution.lib, Solution.app]⟩ [⟨"app"⟩]) order old pairFirst.1
            pairAgain.1 new builds := by
  have free : Job.Inputs.CollisionFree (pairFirst.2.asked ++ pairAgain.2.asked) := by
    simp only [pairAgain, pairFirst, alone, Stage.begin, Request.ofStore, Solution.compilationOrder_pair]
    decide +kernel
  have told : (pairFirst.2.answer?.any (·.isOk)) = true ∧ (pairAgain.2.answer?.any (·.isOk)) = true := by
    simp only [pairAgain, pairFirst, alone, Stage.begin, Request.ofStore, Solution.compilationOrder_pair]
    decide +kernel
  obtain ⟨s, answer⟩ := exists_of_isOk told.1
  obtain ⟨s', answer'⟩ := exists_of_isOk told.2
  obtain ⟨old, returned⟩ := answer?_eq_some.mp answer
  obtain ⟨new, returned'⟩ := answer?_eq_some.mp answer'
  have came : pairFirst = alone .. := rfl
  have back : pairAgain = alone .. := rfl
  obtain ⟨root, order, builds, found, closure, rebuilds, -⟩ := rebuilds_affected [] .pair
    [.put ⟨"lib"⟩ "x", .put ⟨"app"⟩ "y"] [(⟨"app"⟩, "z")] "App" _ _ Solution.ofSolution_pair rfl came back returned
    returned' free
  exact ⟨Solution.ofSolution_pair, rfl, free, old, new, s, s', returned, returned', root, order, builds, found,
    closure, rebuilds⟩

end Call
end CodeWorkspace
