import CodeWorkspace.Proofs.Session.Transparency
import CodeWorkspace.Proofs.Snapshot.Transitive
import CodeWorkspace.Proofs.Solution.Search
import CodeWorkspace.Toolchain.Outline
import Mathlib.Data.List.Induction

/-! One cache beside any number of stores. It knows documents by path and version alone: what a caller is given has the
versions that its own store holds, but the texts may be those of another store. -/
namespace CodeWorkspace

variable {tools : Toolchain → Prop}

/-! ## Many stores -/

/-- One cache, the stores by number, and whoever has come, with any of the stores. -/
structure SharedCache where
  stores : Nat → Store := fun _ => {}
  engine : Engine := {}
  calls : List Call := []

namespace SharedCache

/-- The cache beside one of the stores. -/
def session (w : SharedCache) (k : Nat) : Session := ⟨w.stores k, w.engine, w.calls⟩

/-- Something happens at the cache, or at the store of this number. -/
def after (w : SharedCache) (event : Nat × Session.Event) : SharedCache :=
  let next := (w.session event.1).after event.2
  ⟨Function.update w.stores event.1 next.store, next.engine, next.calls⟩

def run (events : List (Nat × Session.Event)) : SharedCache := events.foldl after {}

theorem stores_after_self (w : SharedCache) (event : Nat × Session.Event) :
    (w.after event).stores event.1 = ((w.session event.1).after event.2).store := Function.update_self ..

theorem stores_after_of_ne (w : SharedCache) {k : Nat} {event : Nat × Session.Event} (other : k ≠ event.1) :
    (w.after event).stores k = w.stores k := Function.update_of_ne other ..

theorem run_concat (events : List (Nat × Session.Event)) (event : Nat × Session.Event) :
    run (events ++ [event]) = (run events).after event := List.foldl_append ..

def hashed (w : SharedCache) : List Job.Inputs := w.calls.flatMap (·.asked)

variable {w : SharedCache} {events : List (Nat × Session.Event)}

def Sound (tools : Toolchain → Prop) (w : SharedCache) : Prop := ∀ k, (w.session k).Fit tools

theorem Sound.after {event : Nat × Session.Event} (h : w.Sound tools) (uses : event.2.Uses tools)
    (free : Job.Inputs.CollisionFree (w.after event).hashed) : (w.after event).Sound tools := by
  have here : ((w.session event.1).after event.2).Fit tools := (h event.1).after uses free
  intro k
  refine here.withStore (s := (w.after event).stores k) ?_
  by_cases same : k = event.1
  · rw [same, stores_after_self]
    exact here.store
  · rw [stores_after_of_ne w same]
    exact (h k).store

theorem hashed_after (w : SharedCache) (event : Nat × Session.Event) : ∀ i ∈ w.hashed, i ∈ (w.after event).hashed :=
  Session.hashed_after (w.session event.1) event.2

theorem sound_run (uses : ∀ event ∈ events, event.2.Uses tools) (free : Job.Inputs.CollisionFree (run events).hashed) :
    (run events).Sound tools := by
  induction events using List.reverseRecOn with
  | nil => exact fun _ => .empty
  | append_singleton events event ih =>
    rw [run_concat] at free ⊢
    have before := ih (fun e he => uses e (List.mem_append_left _ he)) (free.mono (hashed_after _ event))
    exact before.after (uses event (by simp)) free

/-! ## What a store has been -/

/-- The store of this number was once this one. -/
def Held (events : List (Nat × Session.Event)) (k : Nat) (s : Store) : Prop :=
  ∃ before, before <+: events ∧ (run before).stores k = s

theorem Held.mono {k : Nat} {s : Store} (h : Held events k s) (event : Nat × Session.Event) :
    Held (events ++ [event]) k s := by
  obtain ⟨before, first, rfl⟩ := h
  exact ⟨before, first.trans (List.prefix_append ..), rfl⟩

theorem stores_leadsTo (w : SharedCache) (events : List (Nat × Session.Event)) (k : Nat) :
    (w.stores k).LeadsTo ((events.foldl after w).stores k) := by
  induction events generalizing w with
  | nil => exact .refl _
  | cons event rest ih =>
    refine .trans ?_ (ih (w.after event))
    by_cases same : k = event.1
    · rw [same, stores_after_self]
      exact Session.leadsTo_after (w.session event.1) event.2
    · rw [stores_after_of_ne w same]

theorem stores_leadsTo_later {before after : List (Nat × Session.Event)} (h : before <+: after) (k : Nat) :
    ((run before).stores k).LeadsTo ((run after).stores k) := by
  obtain ⟨rest, rfl⟩ := h
  rw [run, run, List.foldl_append]
  exact stores_leadsTo _ rest k

/-- Of one store one state always leads to the other. -/
theorem Held.comparable {k : Nat} {s t : Store} (hs : Held events k s) (ht : Held events k t) :
    s.LeadsTo t ∨ t.LeadsTo s := by
  obtain ⟨before, first, rfl⟩ := hs
  obtain ⟨before', first', rfl⟩ := ht
  exact (List.prefix_or_prefix_of_prefix first first').imp (stores_leadsTo_later · k) (stores_leadsTo_later · k)

theorem held_captured (events : List (Nat × Session.Event)) :
    ∀ c ∈ (run events).calls, ∃ k, Held events k c.captured := by
  induction events using List.reverseRecOn with
  | nil => simp [run]
  | append_singleton events event ih =>
    intro c hc
    rw [run_concat] at hc
    rcases Session.mem_captures_after _ event.2 c hc with here | ⟨old, hold, same⟩
    · exact ⟨event.1, events, List.prefix_append .., here.symm⟩
    · obtain ⟨k, held⟩ := ih old hold
      exact ⟨k, same ▸ held.mono event⟩

/-- All that any store holds came under a path that was written. -/
theorem stocked_run (events : List (Nat × Session.Event)) (k : Nat) :
    ((run events).session k).Stocked (Session.written (events.map (·.2))) := by
  induction events using List.reverseRecOn generalizing k with
  | nil => exact .empty _
  | append_singleton events event ih =>
    have split : Session.written ((events ++ [event]).map (·.2)) =
        Session.written (events.map (·.2)) ++ Session.written [event.2] := by
      rw [List.map_append, Session.written, List.filterMap_append]
      rfl
    rw [split]
    have before (m : Nat) := (ih m).mono fun path mem =>
      List.mem_append_left (Session.written [event.2]) mem
    have here := (before event.1).after fun path (put : event.2.path? = some path) =>
      List.mem_append_right _ (List.mem_filterMap.mpr ⟨event.2, List.mem_singleton_self _, put⟩)
    rw [run_concat]
    refine ⟨?_, here.captured⟩
    by_cases same : k = event.1
    · rw [same, session, stores_after_self]
      exact here.store
    · rw [session, stores_after_of_ne _ same]
      exact (before k).store

end SharedCache

/-! ## Texts -/

/-- A compiled document is what this toolchain makes of the document. -/
def CompiledDocument.IsParseOf (tc : Toolchain) (d : Document) (compiled : CompiledDocument) : Prop :=
  ∃ parsed, tc.parse d.path d.text = .ok parsed ∧ compiled = Job.compiled d parsed

theorem CompiledDocument.IsParseOf.stamp {tc : Toolchain} {d : Document} {compiled : CompiledDocument}
    (h : compiled.IsParseOf tc d) : compiled.stamp = d.stamp := by
  obtain ⟨parsed, -, rfl⟩ := h
  rfl

namespace Job

variable {tc : Toolchain}

theorem isParseOf_of_parseAll {documents : List Document} {p : Parse} (h : parseAll tc documents = .ok p) :
    ∀ compiled ∈ p.documents, ∃ d ∈ documents, compiled.IsParseOf tc d := by
  induction documents generalizing p with
  | nil => cases h; simp
  | cons d rest ih =>
    rw [parseAll] at h
    split at h
    · cases h
    · next parsed here =>
      split at h
      · cases h
      · next more behind =>
        cases h
        refine List.forall_mem_cons.mpr ⟨⟨d, List.mem_cons_self, parsed, here, rfl⟩, fun compiled hc => ?_⟩
        obtain ⟨d', hd', parse⟩ := ih behind compiled hc
        exact ⟨d', List.mem_cons_of_mem _ hd', parse⟩

theorem isParseOf_of_run {j : Job} {s : Snapshot} (h : j.run tc = .ok s) :
    ∀ compiled ∈ s.documents, ∃ d ∈ j.inputs.documents, compiled.IsParseOf tc d := by
  obtain ⟨y, made, -, rfl⟩ := run_eq_ok_iff.mp h
  unfold Inputs.yield at made
  split at made
  · cases made
  · next parsed =>
    split at made
    · cases made
    · cases made
      exact isParseOf_of_parseAll parsed

end Job

/-- A caller looked a project up with this document, as it had captured it. -/
def Call.Used (c : Call) (d : Document) : Prop := ∃ i ∈ c.asked, d ∈ i.documents

namespace SharedCache

variable {events : List (Nat × Session.Event)} {tc : Toolchain}

/-- Nobody with another store used another text under this path and version. -/
def Unrivalled (events : List (Nat × Session.Event)) (k : Nat) (own : Document) : Prop :=
  ∀ c ∈ (run events).calls, ∀ m ≠ k, Held events m c.captured →
    ∀ other, c.Used other → other.stamp = own.stamp → other.text = own.text

theorem held_of_used (sound : (run events).Sound tools) {c : Call} (hc : c ∈ (run events).calls) {d : Document}
    (used : c.Used d) : c.captured.get? d.path = some d := by
  obtain ⟨i, looked, mem⟩ := used
  have call := (sound 0).calls c hc
  obtain ⟨place, held⟩ := (call.asked i looked).held d mem
  rw [c.captured.get?_congr (call.store.place held), held]

theorem eq_of_unrivalled {k : Nat} {own other : Document} {c c' : Call} (sound : (run events).Sound tools)
    (hc : c ∈ (run events).calls) (hc' : c' ∈ (run events).calls) (held : Held events k c.captured)
    (here : c.captured.get? own.path = some own) (used : c'.Used other)
    (same : other.stamp = own.stamp) (unrivalled : Unrivalled events k own) : other = own := by
  obtain ⟨m, held'⟩ := held_captured events c' hc'
  have fit := (sound 0).calls
  have there := held_of_used sound hc' used
  by_cases home : m = k
  · subst home
    -- In the history of one store a stamp tells the document.
    rcases held.comparable held' with earlier | later
    · exact (earlier.eq_of_stamp (fit c hc).store (fit c' hc').store here there same.symm).symm
    · exact later.eq_of_stamp (fit c' hc').store (fit c hc).store there here same
  · have text := unrivalled c' hc' m home held' other used same
    obtain ⟨path, version⟩ := Prod.mk.inj same
    cases own
    cases other
    simp_all

/-- A store holds the document of each stamp that it describes. -/
theorem own_of_described {ps : Projects} {store : Store} {t : Snapshot} (sound : store.Sound)
    (described : t.origin.Describes ps store) {d : CompiledDocument} (hd : d ∈ t.documents) :
    ∃ own, store.get? d.path = some own ∧ own.stamp = d.stamp := by
  have inside : d.stamp ∈ t.origin.closure := by
    rw [Origin.mem_closure, Snapshot.origin_eq]
    exact .inl (List.mem_map_of_mem hd)
  obtain ⟨path, own, held, same⟩ := described.held d.stamp inside
  refine ⟨own, ?_, same.symm⟩
  rw [show d.path = own.path from (Prod.mk.inj same).1, store.get?_congr (sound.place held), held]

/-- Whatever was built, was built from what a caller had captured. -/
theorem used_of_genuine {t : Snapshot} (genuine : t.Genuine (· = tc) (run events).hashed) {d : CompiledDocument}
    (hd : d ∈ t.documents) : ∃ c ∈ (run events).calls, ∃ other, c.Used other ∧ d.IsParseOf tc other := by
  obtain ⟨tool, asked, made, -⟩ := genuine
  obtain ⟨other, listed, parse⟩ := Job.isParseOf_of_run made d hd
  obtain ⟨c, hc, looked⟩ := List.mem_flatMap.mp asked
  exact ⟨c, hc, other, ⟨_, looked, listed⟩, tool ▸ parse⟩

/-- As long as no two paths are written that read alike, what a caller is given has the closure of the store it came
with, in the versions held there. Each tree is that of a text which some caller had captured under the very path and
version: so of this store's own text, unless somebody with another store used another one there. -/
theorem documents_of_answer (tc : Toolchain) (events : List (Nat × Session.Event))
    (one : ∀ event ∈ events, event.2.Uses (· = tc)) (apart : Path.Apart (Session.written (events.map (·.2))))
    (free : Job.Inputs.CollisionFree (run events).hashed) :
    ∀ c ∈ (run events).calls, (∃ k, Held events k c.captured) ∧ ∀ s, c.answer? = some (.ok s) →
      s.origin.Describes c.projects c.captured ∧
      ∀ t, s.Reaches t → ∀ d ∈ t.documents, ∃ own,
        c.captured.get? d.path = some own ∧ own.stamp = d.stamp ∧
        (∃ c' ∈ (run events).calls, ∃ other, c'.Used other ∧ c'.captured.get? d.path = some other ∧
          d.IsParseOf tc other) ∧
        ∀ k, Held events k c.captured → Unrivalled events k own → d.IsParseOf tc own := by
  intro c hc
  refine ⟨held_captured events c hc, fun s answer => ?_⟩
  have sound := sound_run one free
  have tell : Job.Inputs.PathsTell (run events).hashed := (stocked_run events 0).pathsTell (sound 0) apart free
  obtain ⟨built, returned⟩ := Call.answer?_eq_some.mp answer
  have call := (sound 0).calls c hc
  obtain ⟨order, given⟩ := call.given returned
  have whole := call.describes_of_known free tell given.holds.genuine given.holds.known
  refine ⟨whole, fun t way d hd => ?_⟩
  obtain ⟨own, here, own_stamp⟩ := own_of_described call.store (Snapshot.described_of_reaches whole way) hd
  obtain ⟨c', hc', other, used, parse⟩ := used_of_genuine (Snapshot.genuine_of_reaches given.holds.genuine way) hd
  have path : own.path = d.path := (Prod.mk.inj own_stamp).1
  have there : c'.captured.get? d.path = some other := by
    rw [show d.path = other.path from (Prod.mk.inj parse.stamp).1]
    exact held_of_used sound hc' used
  refine ⟨own, here, own_stamp, ⟨c', hc', other, used, there, parse⟩, fun k held unrivalled => ?_⟩
  rw [← path] at here
  rwa [← eq_of_unrivalled sound hc hc' held here used (parse.stamp.symm.trans own_stamp.symm) unrivalled]

/-! ## Two stores -/

theorem compilationOrder_lib : Projects.compilationOrder ⟨[Solution.lib, Solution.app]⟩ "Lib" = .ok [Solution.lib] :=
  Option.some.inj ((Projects.orderWithin_length ..).symm.trans (by decide +kernel))

/-- A store of one document. -/
def holding (d : Document) : Store := ⟨[⟨d.path, d.version, some d⟩]⟩

theorem eq_of_holding {d own : Document} {path : Path} (held : (holding d).get? path = some own) : own = d := by
  obtain ⟨r, found, here⟩ := Option.bind_eq_some_iff.mp held
  rw [List.mem_singleton.mp (List.mem_of_find?_eq_some found)] at here
  exact (Option.some.inj here).symm

/-- Another store held the library at its first version, this one holds it at its second. -/
def parted : List (Nat × Session.Event) :=
  [(1, .put ⟨"lib"⟩ "class A;"), (1, .call .pair "Lib"), (1, .lookup 0), (1, .finish .outline 1), (1, .wake 0),
    (0, .put ⟨"lib"⟩ "class B"), (0, .put ⟨"lib"⟩ "class B;"), (0, .call .pair "Lib"), (0, .lookup 1),
    (0, .finish .outline 2), (0, .wake 1)]

theorem documents_of_answer_parted :
    (∀ event ∈ parted, event.2.Uses (· = .outline)) ∧ Path.Apart (Session.written (parted.map (·.2))) ∧
      Job.Inputs.CollisionFree (run parted).hashed ∧
      ∃ c ∈ (run parted).calls, c.captured = holding ⟨⟨"lib"⟩, "class B;", 2⟩ ∧ ∃ s, c.answer? = some (.ok s) ∧
        ∀ t, s.Reaches t → ∀ d ∈ t.documents, d.IsParseOf .outline ⟨⟨"lib"⟩, "class B;", 2⟩ := by
  have one : ∀ event ∈ parted, event.2.Uses (· = .outline) := by simp [parted, Session.Event.Uses]
  have apart : Path.Apart (Session.written (parted.map (·.2))) := by decide +kernel
  have free : Job.Inputs.CollisionFree (run parted).hashed := by
    simp only [run, parted, List.foldl, after, session,
      Session.after_call Solution.ofSolution_pair compilationOrder_lib]
    decide +kernel
  have stores : (run parted).calls.map (·.captured) =
      [holding ⟨⟨"lib"⟩, "class A;", 1⟩, holding ⟨⟨"lib"⟩, "class B;", 2⟩] := by
    simp only [run, parted, List.foldl, after, session,
      Session.after_call Solution.ofSolution_pair compilationOrder_lib]
    decide +kernel
  have told : ∃ c ∈ (run parted).calls, c.captured = holding ⟨⟨"lib"⟩, "class B;", 2⟩ ∧
      (c.answer?.any (·.isOk)) = true := by
    simp only [run, parted, List.foldl, after, session,
      Session.after_call Solution.ofSolution_pair compilationOrder_lib]
    decide +kernel
  have once : Held parted 0 (holding ⟨⟨"lib"⟩, "class B;", 2⟩) := by
    refine ⟨parted.take 7, List.take_prefix .., ?_⟩
    simp only [run, parted, List.take, List.foldl, after, session,
      Session.after_call Solution.ofSolution_pair compilationOrder_lib]
    decide +kernel
  obtain ⟨c, hc, captured, isOk⟩ := told
  obtain ⟨s, answer⟩ := Call.exists_of_isOk isOk
  refine ⟨one, apart, free, c, hc, captured, s, answer, fun t way d hd => ?_⟩
  have answered := ((documents_of_answer .outline parted one apart free c hc).2 s answer).2
  obtain ⟨own, here, -, -, parse⟩ := answered t way d hd
  rw [captured] at here parse
  obtain rfl := eq_of_holding here
  refine parse 0 once fun c' hc' m _ _ other used same => ?_
  have there := held_of_used (sound_run one free) hc' used
  have captured' := List.mem_map_of_mem (f := (·.captured)) hc'
  rw [stores, List.mem_cons, List.mem_singleton] at captured'
  rcases captured' with first | second
  · rw [first] at there
    rw [eq_of_holding there] at same
    cases same
  · rw [second] at there
    rw [eq_of_holding there]

/-- Documents are put and evicted and callers come in turn, each with its answer before anything else begins. -/
def InTurn (w : SharedCache) : List (Nat × Session.Event) → Prop
  | [] => ∀ c ∈ w.calls, c.answer?.isSome = true
  | event :: rest =>
    (match event.2 with
      | .put .. | .evict _ | .call .. => ∀ c ∈ w.calls, c.answer?.isSome = true
      | .invalidate _ | .clear => False
      | .lookup _ | .finish .. | .wake _ | .giveUp .. => True) ∧ InTurn (w.after event) rest

/-- Both stores hold the library at its first version. -/
def meeting : List (Nat × Session.Event) :=
  [(1, .put ⟨"lib"⟩ "class A;"), (1, .call .pair "Lib"), (1, .lookup 0), (1, .finish .outline 1), (1, .wake 0),
    (0, .put ⟨"lib"⟩ "class B;"), (0, .call .pair "Lib"), (0, .lookup 1)]

/-- The second caller, to whom its own store says `class B;`, is given the tree of the other store's text. -/
theorem meeting_mixes_texts :
    (∀ event ∈ meeting, event.2.Uses (· = .outline)) ∧ InTurn {} meeting ∧
      Path.Apart (Session.written (meeting.map (·.2))) ∧ Job.Inputs.CollisionFree (run meeting).hashed ∧
      ∃ c ∈ (run meeting).calls, Held meeting 0 c.captured ∧ ∃ s, c.answer? = some (.ok s) ∧
        ∃ d ∈ s.documents, ∃ own, c.captured.get? d.path = some own ∧ ¬ d.IsParseOf .outline own := by
  have one : ∀ event ∈ meeting, event.2.Uses (· = .outline) := by simp [meeting, Session.Event.Uses]
  have inTurn : InTurn {} meeting := by
    simp only [meeting, InTurn, after, session,
      Session.after_call Solution.ofSolution_pair compilationOrder_lib]
    decide +kernel
  have free : Job.Inputs.CollisionFree (run meeting).hashed := by
    simp only [run, meeting, List.foldl, after, session,
      Session.after_call Solution.ofSolution_pair compilationOrder_lib]
    decide +kernel
  have told : ∃ c ∈ (run meeting).calls, c.captured = holding ⟨⟨"lib"⟩, "class B;", 1⟩ ∧
      (c.answer?.any (·.isOk)) = true ∧ ∀ s ∈ c.answer?.bind (·.toOption),
        ∃ d ∈ s.documents, d.path = ⟨"lib"⟩ ∧ d.tree.items.map (·.name) = [some "A"] := by
    simp only [run, meeting, List.foldl, after, session,
      Session.after_call Solution.ofSolution_pair compilationOrder_lib]
    decide +kernel
  have once : Held meeting 0 (holding ⟨⟨"lib"⟩, "class B;", 1⟩) := by
    refine ⟨meeting.take 6, List.take_prefix .., ?_⟩
    simp only [run, meeting, List.take, List.foldl, after, session,
      Session.after_call Solution.ofSolution_pair compilationOrder_lib]
    decide +kernel
  obtain ⟨c, hc, captured, isOk, mixed⟩ := told
  obtain ⟨s, answer⟩ := Call.exists_of_isOk isOk
  rw [answer] at mixed
  obtain ⟨d, hd, path, names⟩ := mixed s rfl
  refine ⟨one, inTurn, by decide +kernel, free, c, hc, captured ▸ once, s, answer, d, hd,
    ⟨⟨"lib"⟩, "class B;", 1⟩, ?_, ?_⟩
  · rw [captured, path]
    decide +kernel
  · rintro ⟨parsed, made, rfl⟩
    obtain rfl := Except.ok.inj made
    exact absurd names (by decide +kernel)

end SharedCache
end CodeWorkspace
