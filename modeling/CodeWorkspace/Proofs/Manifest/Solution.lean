import CodeWorkspace.Proofs.Manifest.Value
import CodeWorkspace.Proofs.Text.Lossy

/-! Manifests read back. A solution comes out of its manifest as it went in, with every name and path in it, and so do
the parts that a manifest is put together from. Paths that are no text have no manifest. -/
namespace CodeWorkspace

namespace Manifest

/-- The text is that of a value from which `read` takes `a`. -/
def Carries {α : Type} (text : List Char) (read : Reader α) (a : α) : Prop := ∃ v, Shows text v ∧ read v = .ok a

theorem carries_text (s : String) : Carries (printText s) readText s := ⟨_, shows_printText s, rfl⟩

theorem carries_path {p : Path} (plain : p.isText = true) : Carries (printText p.text) readPath p :=
  ⟨_, shows_printText p.text, congrArg Except.ok (Path.isText_iff.mp plain).symm⟩

theorem carries_path? {path : Option Path} (plain : ∀ p ∈ path, p.isText = true) :
    Carries (printPath? path) readPath? path := by
  cases path with
  | none => exact ⟨_, shows_null, rfl⟩
  | some p =>
    have whole := (Path.isText_iff.mp (plain p rfl)).symm
    exact ⟨_, shows_printText p.text, congrArg (Except.ok ∘ some) whole⟩

section Lists

variable {α : Type} {print : α → List Char} {read : Reader α} {as : List α}

theorem readItems_eq_ok {vs : List Value} (items : List.Forall₂ (fun a v => read v = .ok a) as vs) :
    readItems read vs = .ok as := by
  induction items with
  | nil => rfl
  | cons here _ ih =>
    rw [readItems, here, ih]
    rfl

theorem carries_list (depth : Nat) (each : ∀ a ∈ as, Carries (print a) read a) :
    Carries (printList depth print as) (readList read) as := by
  have items : ∃ vs, List.Forall₂ (fun a v => Shows (print a) v ∧ read v = .ok a) as vs := by
    induction as with
    | nil => exact ⟨[], .nil⟩
    | cons a as ih =>
      rw [List.forall_mem_cons] at each
      obtain ⟨v, carries⟩ := each.1
      obtain ⟨vs, rest⟩ := ih each.2
      exact ⟨v :: vs, .cons carries rest⟩
  obtain ⟨vs, items⟩ := items
  refine ⟨.array vs true, shows_printList (items.imp fun _ _ h => h.1), ?_⟩
  rw [readList, readItems_eq_ok (items.imp fun _ _ h => h.2)]
  rfl

end Lists

theorem readProject_object {p : Project} {documents references : Value}
    (read : readList readPath documents = .ok p.documents)
    (read' : readList readText references = .ok p.references) :
    readProject (.object [(some "name", .text (some p.name)), (some "documents", documents),
      (some "references", references)] true) = .ok p := by
  have members : readMembers readProjectMember {} [(some "name", .text (some p.name)), (some "documents", documents),
      (some "references", references)] = .ok ⟨some p.name, some p.documents, some p.references⟩ := by
    simp [readMembers, readProjectMember, readOnce, readText, read, read', Except.map, bind, Except.bind, pure,
      Except.pure]
  rw [readProject, members]
  rfl

theorem carries_project (depth : Nat) {p : Project} (plain : ∀ d ∈ p.documents, d.isText = true) :
    Carries (printProject depth p) readProject p := by
  obtain ⟨documents, shows, read⟩ := carries_list (depth + 1) fun d mem => carries_path (plain d mem)
  obtain ⟨references, shows', read'⟩ := carries_list (depth + 1) fun r (_ : r ∈ p.references) => carries_text r
  have shown := shows_object depth (showsMember_printMember (depth + 1) "name" (shows_printText p.name))
    (.cons (showsMember_printMember (depth + 1) "documents" shows)
      (.cons (showsMember_printMember (depth + 1) "references" shows') .nil))
  refine ⟨_, ?_, readProject_object read read'⟩
  simpa [printProject] using shown

theorem readSolution_object {s : Solution} {path projects : Value} (read : readPath? path = .ok s.path)
    (read' : readList readProject projects = .ok s.projects) :
    readSolution (.object [(some "path", path), (some "projects", projects)] true) = .ok s := by
  have members : readMembers readSolutionMember {} [(some "path", path), (some "projects", projects)] =
      .ok ⟨some s.path, some s.projects⟩ := by
    simp [readMembers, readSolutionMember, readOnce, read, read', Except.map, bind, Except.bind, pure, Except.pure]
  rw [readSolution, members]
  rfl

section Texts

variable {s : Solution} (plain : ∀ p ∈ s.paths, p.isText = true)
include plain

theorem carries_solution : Carries (printSolution s) readSolution s := by
  have documents {p : Project} (mem : p ∈ s.projects) : ∀ d ∈ p.documents, d.isText = true := fun d listed =>
    plain d (List.mem_append_right _ (List.mem_flatMap.mpr ⟨p, mem, listed⟩))
  have source : ∀ p ∈ s.path, p.isText = true := fun p mem =>
    plain p (List.mem_append_left _ (Option.mem_toList.mpr mem))
  obtain ⟨path, shows, read⟩ := carries_path? source
  obtain ⟨projects, shows', read'⟩ := carries_list 1 fun p mem => carries_project 2 (documents mem)
  have shown := shows_object 0 (showsMember_printMember 1 "path" shows)
    (.cons (showsMember_printMember 1 "projects" shows') .nil)
  refine ⟨_, ?_, readSolution_object read read'⟩
  simpa [printSolution] using shown

/-- Nothing stands behind a manifest that was printed. -/
theorem read_printSolution : read (String.ofList (printSolution s)) = .ok s := by
  obtain ⟨v, shows, taken⟩ := carries_solution plain
  have value : ofText (String.ofList (printSolution s)) = (v, false) := by
    have := shows [] .value [] rfl (.inl rfl)
    rw [List.append_nil] at this
    rw [ofText, String.toList_ofList, this, tokens]
    rfl
  rw [read, value]
  dsimp only
  rw [taken]
  rfl

end Texts

end Manifest

namespace Solution

/-- A solution whose paths are texts has a manifest, and what is read from it is that solution, whatever characters its
names and paths are made of. -/
theorem ofJson_toJson (s : Solution) (plain : ∀ p ∈ s.paths, p.isText = true) :
    s.serialize = .ok s.toJson ∧ ofJson s.toJson = .ok s := by
  refine ⟨if_pos (List.all_eq_true.mpr plain), ?_⟩
  rw [ofJson, toJson, Manifest.read_printSolution plain]

/-- Quotes, a line break and letters of more than one byte. -/
def quoted : Solution := ⟨some ⟨"é/\"s\""⟩, [⟨"A\n\\", [⟨"ü.cs"⟩], ["B"]⟩, ⟨"B", [], []⟩]⟩

theorem ofJson_toJson_quoted :
    (∀ p ∈ quoted.paths, p.isText = true) ∧ quoted.serialize = .ok quoted.toJson ∧
      ofJson quoted.toJson = .ok quoted := by
  have plain : ∀ p ∈ quoted.paths, p.isText = true :=
    List.forall_mem_cons.mpr ⟨Path.isText_ofText _, List.forall_mem_singleton.mpr (Path.isText_ofText _)⟩
  exact ⟨plain, ofJson_toJson quoted plain⟩

/-- Without such paths it has none. -/
theorem serialize_of_not_isText {s : Solution} {p : Path} (mem : p ∈ s.paths) (other : p.isText = false) :
    ∃ e, s.serialize = .error e := by
  refine ⟨_, if_neg fun all => ?_⟩
  rw [List.all_eq_true.mp all p mem] at other
  cases other

end Solution
end CodeWorkspace
