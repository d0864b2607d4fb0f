import CodeWorkspace.Job

/-! The threads that carry out builds. Builds are taken up in the order of their start. A thread may halve the
documents it has to parse: it goes on with the first half and puts the second aside, for itself to come back to
or for a free thread to take over. A document may hold its thread; then all that the thread has put aside is
left to the others, and once every thread is held nothing moves. -/
namespace CodeWorkspace

/-- What becomes of a document that is given to the parser. -/
inductive Fate where
  | parsed
  | crashed
  /-- It keeps its thread waiting. -/
  | held
  deriving DecidableEq, Repr, Inhabited

/-- Documents of one build that stand side by side, for a thread to parse. -/
structure Share where
  documents : List Document
  /-- For how many threads the share is meant. Each half is meant for half as many, and a share that is meant
  for none is not halved any more. -/
  width : Nat
  deriving Repr, Inhabited

namespace Share

def isHalved (s : Share) : Bool := 2 ≤ s.documents.length && 0 < s.width

def firstHalf (s : Share) : Share := ⟨s.documents.take (s.documents.length / 2), s.width / 2⟩

def secondHalf (s : Share) : Share := ⟨s.documents.drop (s.documents.length / 2), s.width / 2⟩

theorem length_firstHalf_lt {s : Share} (h : s.isHalved = true) :
    s.firstHalf.documents.length < s.documents.length := by
  simp only [isHalved, Bool.and_eq_true, decide_eq_true_eq] at h
  simp only [firstHalf, List.length_take]
  omega

theorem length_secondHalf_lt {s : Share} (h : s.isHalved = true) :
    s.secondHalf.documents.length < s.documents.length := by
  simp only [isHalved, Bool.and_eq_true, decide_eq_true_eq] at h
  simp only [secondHalf, List.length_drop]
  omega

/-- A share that a free thread takes over is halved for all `threads` again. -/
def takenOver (threads : Nat) (s : Share) : Share := { s with width := 2 * max threads (s.width / 2) }

@[simp] theorem documents_takenOver (threads : Nat) (s : Share) :
    (s.takenOver threads).documents = s.documents := rfl

/-- How far a thread got with a share. -/
structure Progress where
  /-- How many documents the parser was given. -/
  begun : Nat := 0
  crashed : Bool := false
  held : Bool := false
  /-- What a held thread has put aside, in that order. -/
  aside : List Share := []
  deriving Repr, Inhabited

/-- One document after another, up to the first that does not get through. -/
def inTurn (fate : Document → Fate) : List Document → Progress
  | [] => {}
  | d :: rest =>
    match fate d with
    | .held => { begun := 1, held := true }
    | .crashed => { begun := 1, crashed := true }
    | .parsed =>
      let later := inTurn fate rest
      { later with begun := later.begun + 1 }

/-- A breakdown in the first half does not keep the thread from the second, which it then takes over from
itself. -/
def parse (fate : Document → Fate) (threads : Nat) (s : Share) : Progress :=
  if _h : s.isHalved then
    let first := s.firstHalf.parse fate threads
    if first.held then { first with aside := s.secondHalf :: first.aside }
    else
      let second :=
        if first.crashed then (s.secondHalf.takenOver threads).parse fate threads
        else s.secondHalf.parse fate threads
      { second with begun := first.begun + second.begun, crashed := first.crashed || second.crashed }
  else inTurn fate s.documents
termination_by s.documents.length
decreasing_by
  · exact length_firstHalf_lt _h
  · exact length_secondHalf_lt _h
  · exact length_secondHalf_lt _h

end Share

structure Crew where
  threads : Nat
  /-- For how many threads a build is meant at its start. -/
  width : Nat
  fate : Document → Fate

namespace Crew

/-- How many documents are begun, and how many threads are free afterwards, when `free` threads see to shares
of one build. -/
def carry (c : Crew) : (free : Nat) → List Share → Nat × Nat
  | 0, _ => (0, 0)
  | free, [] => (0, free)
  | free + 1, s :: rest =>
    let progress := s.parse c.fate c.threads
    let (begun, left) :=
      if progress.held then carry c free (rest ++ progress.aside.map (·.takenOver c.threads))
      else carry c (free + 1) rest
    (progress.begun + begun, left)
termination_by free shares => (free, shares.length)

/-- Where a build stands once nothing moves. -/
structure Standing where
  begun : Nat
  /-- No document holds a thread, and no share waits for one. -/
  isThrough : Bool
  deriving DecidableEq, Repr, Inhabited

def standingsFrom (c : Crew) : (free : Nat) → List Job → List (Job × Standing)
  | _, [] => []
  | free, j :: rest =>
    let (begun, left) := c.carry free [⟨j.inputs.documents, c.width⟩]
    (j, ⟨begun, 0 < free && left = free⟩) :: c.standingsFrom left rest

/-- Where builds stand that were started in this order. -/
def standings (c : Crew) (jobs : List Job) : List (Job × Standing) := c.standingsFrom c.threads jobs

end Crew
end CodeWorkspace
