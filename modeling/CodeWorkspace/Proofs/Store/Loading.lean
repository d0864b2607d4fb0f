import CodeWorkspace.Proofs.Path.Order
import CodeWorkspace.Proofs.Store.Puts

/-! Loading a solution. All of it is read before anything is stored, so that it is stored as a whole or not at all; and
every place is read and stored once, however often and in whatever spelling projects list it. -/
namespace CodeWorkspace

/-- The documents of all projects, as they are spelled there. -/
def Solution.listed (s : Solution) : List Path := s.projects.flatMap (·.documents)

namespace Disk

/-- A disk knows places and no spellings. -/
def ByPlace (disk : Disk) : Prop := ∀ p q : Path, p.same q = true → disk.read p = disk.read q

def fails (disk : Disk) (p : Path) : Bool := !(disk.read p).isOk

/-- The report that is due for a file: an error at its path that says why it cannot be read, and nothing else. -/
structure Reports (disk : Disk) (p : Path) (d : Diagnostic) : Prop where
  severity : d.severity = .error
  path : d.path = some p
  message : ∃ f, disk.read p = .error f ∧ d.message = "failed to read " ++ p.text ++ ": " ++ f.message
  code : d.code = none
  span : d.span = none

/-- A file with its text. -/
def Reads (disk : Disk) (p : Path) (w : Path × String) : Prop := w.1 = p ∧ disk.read p = .ok w.2

variable {disk : Disk} {paths : List Path} {p q : Path}

theorem fails_of_error {f : ReadFailure} (h : disk.read p = .error f) : disk.fails p = true := by
  rw [fails, h]
  rfl

theorem fails_of_ok {text : String} (h : disk.read p = .ok text) : disk.fails p = false := by
  rw [fails, h]
  rfl

theorem ByPlace.fails_eq (place : disk.ByPlace) (same : p.same q = true) : disk.fails p = disk.fails q := by
  rw [fails, fails, place p q same]

theorem paths_of_reads {texts : List (Path × String)} (read : List.Forall₂ disk.Reads paths texts) :
    texts.map (·.1) = paths := by
  induction read with
  | nil => rfl
  | cons here _ ih => rw [List.map_cons, here.1, ih]

theorem mem_of_reads {texts : List (Path × String)} (read : List.Forall₂ disk.Reads paths texts) (mem : p ∈ paths) :
    ∃ text, (p, text) ∈ texts ∧ disk.read p = .ok text := by
  induction read with
  | nil => cases mem
  | @cons q w _ _ here _ ih =>
    obtain ⟨rfl, text⟩ := here
    rcases List.mem_cons.mp mem with rfl | mem
    · exact ⟨w.2, List.mem_cons_self, text⟩
    · obtain ⟨other, there, read⟩ := ih mem
      exact ⟨other, List.mem_cons_of_mem _ there, read⟩

theorem mem_of_mem_reads {texts : List (Path × String)} (read : List.Forall₂ disk.Reads paths texts)
    {w : Path × String} (mem : w ∈ texts) : w.1 ∈ paths := by
  rw [← paths_of_reads read]
  exact List.mem_map_of_mem mem

theorem apart_of_reads {texts : List (Path × String)}
    (read : List.Forall₂ disk.Reads (Path.dedup (Path.sort paths)) texts) :
    texts.Pairwise fun v w => v.1.same w.1 = false := by
  have distinct := Path.pairwise_dedup_sort paths
  rw [← paths_of_reads read, List.pairwise_map] at distinct
  exact distinct.imp fun before => before.same_eq_false

theorem reports_unreadable {f : ReadFailure} (failed : disk.read p = .error f) : disk.Reports p (unreadable p f) where
  severity := rfl
  path := rfl
  message := ⟨f, failed, rfl⟩
  code := rfl
  span := rfl

/-- Whatever else is read, each failing file is reported, and the others are read. -/
theorem readAll_eq (disk : Disk) (paths : List Path) :
    List.Forall₂ disk.Reads (paths.filter (!disk.fails ·)) (disk.readAll paths).1 ∧
      List.Forall₂ disk.Reports (paths.filter (disk.fails ·)) (disk.readAll paths).2 := by
  induction paths with
  | nil => exact ⟨.nil, .nil⟩
  | cons p rest ih =>
    rw [readAll]
    cases read : disk.read p with
    | ok text =>
      have fine := fails_of_ok read
      rw [List.filter_cons_of_pos (by simp [fine]), List.filter_cons_of_neg (by simp [fine])]
      exact ⟨.cons ⟨rfl, read⟩ ih.1, ih.2⟩
    | error f =>
      have failed := fails_of_error read
      rw [List.filter_cons_of_neg (by simp [failed]), List.filter_cons_of_pos (by simp [failed])]
      exact ⟨ih.1, .cons (reports_unreadable read) ih.2⟩

end Disk

namespace Storing

variable {α β : Type} {x : Storing α} {s t : Store} {a : α} {e : WorkspaceError}

theorem run_bind_ok (first : x.run s = .ok a t) (f : α → Storing β) : (x >>= f).run s = (f a).run t := by
  show EStateM.bind x f s = _
  rw [EStateM.bind, show x s = .ok a t from first]
  rfl

theorem run_bind_error (first : x.run s = .error e t) (f : α → Storing β) : (x >>= f).run s = .error e t := by
  show EStateM.bind x f s = _
  rw [EStateM.bind, show x s = .error e t from first]

end Storing

namespace Store

variable {disk : Disk} {paths : List Path}

theorem run_storing (s : Store) (texts : List (Path × String)) : (storing texts).run s = .ok () (s.putAll texts) := by
  induction texts generalizing s with
  | nil => rfl
  | cons w rest ih => exact ih (s.put w.1 w.2)

/-- Nothing is stored before all is read. -/
theorem run_loading_of_fails (s : Store) (failing : ∃ p ∈ paths, disk.fails p = true) :
    ∃ reports, (loading disk paths).run s = .error (.workspaceLoad reports) s ∧
      List.Forall₂ disk.Reports (paths.filter (disk.fails ·)) reports := by
  have reported := (disk.readAll_eq paths).2
  unfold loading
  generalize disk.readAll paths = r at reported ⊢
  obtain ⟨texts, reports⟩ := r
  cases reports with
  | nil =>
    obtain ⟨p, mem, failed⟩ := failing
    have none := List.forall₂_nil_right_iff.mp reported
    exact absurd failed (by simpa using List.filter_eq_nil_iff.mp none p mem)
  | cons d rest => exact ⟨_, rfl, reported⟩

theorem run_loading_of_reads (s : Store) (fine : ∀ p ∈ paths, disk.fails p = false) :
    ∃ texts, (loading disk paths).run s = .ok paths.length (s.putAll texts) ∧
      List.Forall₂ disk.Reads paths texts := by
  obtain ⟨read, reported⟩ := disk.readAll_eq paths
  have all : paths.filter (!disk.fails ·) = paths := List.filter_eq_self.mpr fun p mem => by rw [fine p mem]; rfl
  have none : paths.filter (disk.fails ·) = [] := List.filter_eq_nil_iff.mpr fun p mem => by rw [fine p mem]; simp
  rw [all] at read
  rw [none] at reported
  unfold loading
  generalize disk.readAll paths = r at read reported ⊢
  obtain ⟨texts, reports⟩ := r
  obtain rfl : reports = [] := List.forall₂_nil_left_iff.mp reported
  refine ⟨texts, ?_, read⟩
  rw [read.length_eq]
  exact Storing.run_bind_ok (run_storing s texts) fun _ => pure texts.length

/-! ## Solutions -/

/-- What a load is refused with: one report for each place that cannot be read, in the order of paths. -/
def Refuses (disk : Disk) (listed : List Path) (e : WorkspaceError) : Prop :=
  ∃ failing reports, e = .workspaceLoad reports ∧ List.Forall₂ disk.Reports failing reports ∧
    failing.Pairwise Path.Before ∧ (∀ p ∈ failing, p ∈ listed ∧ disk.fails p = true) ∧
    ∀ p ∈ listed, disk.fails p = true → ∃ q ∈ failing, q.same p = true

/-- What a load comes to: one more version of each place, with the text on the disk. -/
structure Loaded (disk : Disk) (listed : List Path) (s t : Store) (count : Nat) : Prop where
  count : count = (listed.map (·.components)).dedup.length
  documents : ∀ p ∈ listed, ∃ text, disk.read p = .ok text ∧ t.lastVersion p = s.lastVersion p + 1 ∧
    ∃ q ∈ listed, q.same p = true ∧ t.get? p = some ⟨q, text, s.lastVersion p + 1⟩
  others : ∀ p, (∀ q ∈ listed, q.same p = false) → t.record? p = s.record? p

section Solution

variable {solution : Solution}

theorem run_loadSolution_of_fails (s : Store) (place : disk.ByPlace)
    (failing : ∃ p ∈ solution.listed, disk.fails p = true) :
    ∃ e, (loadSolution disk solution).run s = .error e s ∧ Refuses disk solution.listed e := by
  have left {p : Path} (mem : p ∈ solution.listed) (failed : disk.fails p = true) :
      ∃ q ∈ solution.documents.filter (disk.fails ·), q.same p = true := by
    obtain ⟨q, there, same⟩ := Path.exists_mem_dedup_sort mem
    exact ⟨q, List.mem_filter.mpr ⟨there, by rw [place.fails_eq same, failed]⟩, same⟩
  have failing' : ∃ q ∈ solution.documents, disk.fails q = true := by
    obtain ⟨p, mem, failed⟩ := failing
    obtain ⟨q, there, -⟩ := left mem failed
    exact ⟨q, List.mem_filter.mp there⟩
  obtain ⟨reports, refused, reported⟩ := run_loading_of_fails s failing'
  refine ⟨.workspaceLoad reports, refused, _, reports, rfl, reported, ?_, ?_, fun p => left⟩
  · exact (Path.pairwise_dedup_sort solution.listed).sublist List.filter_sublist
  · intro p mem
    obtain ⟨there, failed⟩ := List.mem_filter.mp mem
    exact ⟨Path.mem_of_mem_dedup_sort there, failed⟩

theorem run_loadSolution_of_reads (s : Store) (place : disk.ByPlace)
    (fine : ∀ p ∈ solution.listed, disk.fails p = false) :
    ∃ t count, (loadSolution disk solution).run s = .ok count t ∧ Loaded disk solution.listed s t count := by
  have fine' : ∀ p ∈ solution.documents, disk.fails p = false := fun p mem => fine p (Path.mem_of_mem_dedup_sort mem)
  obtain ⟨texts, loaded, read⟩ := run_loading_of_reads s fine'
  refine ⟨_, _, loaded, ?_, fun p mem => ?_, fun p others => ?_⟩
  · exact Path.length_dedup_sort solution.listed
  · obtain ⟨q, there, same⟩ := Path.exists_mem_dedup_sort mem
    obtain ⟨text, put, here⟩ := Disk.mem_of_reads read there
    obtain ⟨held, version⟩ := putAll_of_mem s (Disk.apart_of_reads read) put
    rw [lastVersion_congr _ same, lastVersion_congr s same] at version
    rw [get?_congr _ same, lastVersion_congr s same] at held
    exact ⟨text, by rw [← place q p same, here], version, q, Path.mem_of_mem_dedup_sort there, same, held⟩
  · refine record?_putAll fun w mem => others w.1 (Path.mem_of_mem_dedup_sort ?_)
    exact Disk.mem_of_mem_reads read mem

end Solution

/-- Loading fails just if some document cannot be read, and then every such place is reported once and the store is as
it was; otherwise every place that is listed gets one version, and no other place is touched. -/
theorem loadSolution_whole (disk : Disk) (place : disk.ByPlace) (s : Store) (solution : Solution) :
    ((∃ e t, (loadSolution disk solution).run s = .error e t) ↔ ∃ p ∈ solution.listed, disk.fails p = true) ∧
    (∀ e t, (loadSolution disk solution).run s = .error e t → t = s ∧ Refuses disk solution.listed e) ∧
    ∀ n t, (loadSolution disk solution).run s = .ok n t → Loaded disk solution.listed s t n := by
  by_cases failing : ∃ p ∈ solution.listed, disk.fails p = true
  · obtain ⟨e, refused, refuses⟩ := run_loadSolution_of_fails s place failing
    rw [refused]
    refine ⟨⟨fun _ => failing, fun _ => ⟨e, s, rfl⟩⟩, ?_, nofun⟩
    rintro _ _ ⟨⟩
    exact ⟨rfl, refuses⟩
  · have fine : ∀ p ∈ solution.listed, disk.fails p = false := fun p mem =>
      Bool.eq_false_iff.mpr fun failed => failing ⟨p, mem, failed⟩
    obtain ⟨t, count, accepted, loaded⟩ := run_loadSolution_of_reads s place fine
    rw [accepted]
    refine ⟨⟨nofun, fun failed => absurd failed failing⟩, nofun, ?_⟩
    rintro _ _ ⟨⟩
    exact loaded

/-- Two files, and nothing else. -/
def shelf : Disk where
  read p := if p.same ⟨"src/a.cs"⟩ then .ok "class A;" else if p.same ⟨"b.cs"⟩ then .ok "class B;" else .error .notFound
  scan _ := .noDirectory

theorem byPlace_shelf : shelf.ByPlace := by
  intro p q same
  have places (r : Path) : p.same r = q.same r := by rw [Path.same, Path.same, Path.same_iff.mp same]
  simp only [shelf, places]

/-- One of the two was there before. -/
def begun : Store := (Store.put {} ⟨"src/a.cs"⟩ "class O;").evict ⟨"src/a.cs"⟩

def shelved : Solution :=
  ⟨none, [⟨"App", [⟨"b.cs"⟩], []⟩, ⟨"Lib", [⟨"b.cs/"⟩, ⟨"src/./a.cs"⟩], []⟩, ⟨"Tests", [⟨"src//a.cs"⟩], []⟩]⟩

def lacking : Solution := ⟨none, [⟨"App", [⟨"b.cs"⟩, ⟨"c.cs"⟩], []⟩, ⟨"Lib", [⟨"x//d.cs"⟩, ⟨"x/d.cs"⟩], []⟩]⟩

theorem documents_of_sorted {s : Solution} (sorted : s.listed.Pairwise fun p q => p.le q = true) :
    s.documents = Path.dedup s.listed := congrArg Path.dedup (Path.sort_of_sorted sorted)

theorem documents_shelved : shelved.documents = [⟨"b.cs"⟩, ⟨"src/./a.cs"⟩] := by
  have sorted : shelved.listed.Pairwise fun p q => p.le q = true := by decide +kernel
  have listed : shelved.listed = [⟨"b.cs"⟩, ⟨"b.cs/"⟩, ⟨"src/./a.cs"⟩, ⟨"src//a.cs"⟩] := rfl
  rw [documents_of_sorted sorted, listed, Path.dedup_same (by decide +kernel), Path.dedup_other (by decide +kernel),
    Path.dedup_same (by decide +kernel), Path.dedup_singleton]

theorem documents_lacking : lacking.documents = [⟨"b.cs"⟩, ⟨"c.cs"⟩, ⟨"x//d.cs"⟩] := by
  have sorted : lacking.listed.Pairwise fun p q => p.le q = true := by decide +kernel
  have listed : lacking.listed = [⟨"b.cs"⟩, ⟨"c.cs"⟩, ⟨"x//d.cs"⟩, ⟨"x/d.cs"⟩] := rfl
  rw [documents_of_sorted sorted, listed, Path.dedup_other (by decide +kernel), Path.dedup_other (by decide +kernel),
    Path.dedup_same (by decide +kernel), Path.dedup_singleton]

theorem loadSolution_whole_shelf :
    shelf.ByPlace ∧
    (∃ t, (loadSolution shelf shelved).run begun = .ok 2 t ∧ Loaded shelf shelved.listed begun t 2) ∧
    (loadSolution shelf lacking).run begun =
      .error (.workspaceLoad [unreadable ⟨"c.cs"⟩ .notFound, unreadable ⟨"x//d.cs"⟩ .notFound]) begun ∧
    Refuses shelf lacking.listed
      (.workspaceLoad [unreadable ⟨"c.cs"⟩ .notFound, unreadable ⟨"x//d.cs"⟩ .notFound]) := by
  have stored : (loadSolution shelf shelved).run begun =
      .ok 2 (begun.putAll [(⟨"b.cs"⟩, "class B;"), (⟨"src/./a.cs"⟩, "class A;")]) := by
    rw [loadSolution, documents_shelved]
    rfl
  have refused : (loadSolution shelf lacking).run begun =
      .error (.workspaceLoad [unreadable ⟨"c.cs"⟩ .notFound, unreadable ⟨"x//d.cs"⟩ .notFound]) begun := by
    rw [loadSolution, documents_lacking]
    rfl
  obtain ⟨-, -, loaded⟩ := loadSolution_whole shelf byPlace_shelf begun shelved
  obtain ⟨-, refuses, -⟩ := loadSolution_whole shelf byPlace_shelf begun lacking
  exact ⟨byPlace_shelf, ⟨_, stored, loaded _ _ stored⟩, refused, (refuses _ _ refused).2⟩

end Store
end CodeWorkspace
