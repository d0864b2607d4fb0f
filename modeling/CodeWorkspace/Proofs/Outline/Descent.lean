import CodeWorkspace.Outline.Descent
import CodeWorkspace.Proofs.Outline.Braces
import CodeWorkspace.Proofs.Outline.Ownership

/-! What is still to be read of a document, and lists of items that a reader takes in as a whole. What a descent comes
to is what a reader gathers on its way over the same tokens. -/
namespace CodeWorkspace.Outline

namespace Reader

variable {r r' r'' : Reader} {last stop : Nat} {t : Token} {tokens rest rest' : List Token}

/-! ## What is still to be read -/

/-- The items and problems of a document of which a reader has these tokens left. -/
def outcome (last : Nat) (r : Reader) (tokens : List Token) : List Node × List Problem :=
  (((r.run tokens).ended last).result last, ((r.run tokens).ended last).problems)

/-- Reading these tokens comes to reading what is left of them from another state. -/
structure ReadsOn (last : Nat) (r : Reader) (tokens : List Token) (r' : Reader) (rest : List Token) : Prop where
  outcome : r.outcome last tokens = r'.outcome last rest
  owner : (r'.run rest).owner? ≠ none → (r.run tokens).owner? ≠ none

namespace ReadsOn

theorem refl : ReadsOn last r tokens r tokens := ⟨rfl, id⟩

theorem trans (h : ReadsOn last r tokens r' rest) (h' : ReadsOn last r' rest r'' rest') :
    ReadsOn last r tokens r'' rest' :=
  ⟨h.outcome.trans h'.outcome, fun owner => h.owner (h'.owner owner)⟩

/-- One token may be read ahead. -/
theorem step (step : r.step t rest = r') (h : ReadsOn last r' rest r'' rest') :
    ReadsOn last r (t :: rest) r'' rest' := by
  subst step
  exact ⟨h.outcome, h.owner⟩

theorem of_step_eq (same : r.step t rest = r'.step t rest) : ReadsOn last r (t :: rest) r' (t :: rest) where
  outcome := by rw [Reader.outcome, run, same]; rfl
  owner := by rw [run, run, same]; exact id

theorem of_ended_eq (ended : r.ended last = r'.ended last) (owner : r.owner? = r'.owner?) :
    ReadsOn last r [] r' [] where
  outcome := by rw [Reader.outcome, run, ended]; rfl
  owner := by rw [run, run, owner]; exact id

end ReadsOn

/-! ## Lists taken in -/

def told (r : Reader) (problems : List Problem) : Reader := { r with problems := problems.reverse ++ r.problems }

/-- The reader with a list of items added to its own. -/
def take (r : Reader) (l : Listing tokens) : Reader := (r.told l.problems).add l.nodes.reverse

/-- The innermost block, if there is one, closed. -/
def leave (r : Reader) (stop : Nat) : Reader :=
  match r.blocks with
  | [] => r
  | b :: outer => { r with blocks := outer }.finish b.owner b.items stop

@[simp] theorem add_nil (r : Reader) : r.add [] = r := by
  obtain ⟨_, scope, blocks, _, _⟩ := r
  cases blocks with
  | nil => cases scope <;> rfl
  | cons b outer => rfl

theorem add_add (r : Reader) (nodes more : List Node) : (r.add nodes).add more = r.add (more ++ nodes) := by
  obtain ⟨_, scope, blocks, _, _⟩ := r
  cases blocks with
  | nil => cases scope <;> simp [add]
  | cons b outer => simp [add]

theorem told_add (r : Reader) (nodes : List Node) (problems : List Problem) :
    (r.add nodes).told problems = (r.told problems).add nodes := by
  obtain ⟨_, scope, blocks, _, _⟩ := r
  cases blocks with
  | nil => cases scope <;> rfl
  | cons b outer => rfl

@[simp] theorem told_nil (r : Reader) : r.told [] = r := rfl

theorem told_told (r : Reader) (problems more : List Problem) :
    (r.told problems).told more = r.told (problems ++ more) := by
  simp [told]

theorem take_andThen (r : Reader) (l : Listing tokens) (more : Listing l.rest) :
    r.take (l.andThen more) = (r.take l).take more := by
  simp only [take, Listing.andThen, told_add, told_told, add_add, List.reverse_append]

theorem take_telling (r : Reader) (problems : List Problem) (l : Listing tokens) :
    r.take (l.telling problems) = (r.told problems).take l := by
  simp only [take, Listing.telling, told_told]

@[simp] theorem owner?_leave (r : Reader) (stop : Nat) : (r.leave stop).owner? = r.owner? := by
  unfold leave
  split
  · rfl
  · rw [owner?_finish]
    rfl

theorem take_leaf (r : Reader) (h : Header) (owned : Bool) (tokens : List Token) :
    { r with mode := .items }.take (.leaf h owned tokens) = r.close h := rfl

theorem take_within (r : Reader) (h : Header) (stop : Nat) (l : Listing tokens) :
    r.take (l.within h stop) = (r.told l.problems).finish (some h) l.nodes.reverse stop := by
  simp [take, Listing.within, finish, contents]

@[simp] theorem mode_take (r : Reader) (l : Listing tokens) : (r.take l).mode = r.mode := mode_add _ _

@[simp] theorem owner?_take (r : Reader) (l : Listing tokens) : (r.take l).owner? = r.owner? := owner?_add _

@[simp] theorem map_brace_take (r : Reader) (l : Listing tokens) :
    (r.take l).blocks.map (·.brace) = r.blocks.map (·.brace) := map_brace_add _ _

@[simp] theorem length_blocks_take (r : Reader) (l : Listing tokens) : (r.take l).blocks.length = r.blocks.length :=
  length_blocks_add _ _

/-- A block that is opened, filled and left. -/
theorem leave_take_opened (r : Reader) (owner : Option Header) (brace : ByteRange) (l : Listing tokens) :
    ({ r with blocks := ⟨owner, brace, []⟩ :: r.blocks, mode := .items }.take l).leave stop =
      ({ r with mode := .items }.told l.problems).finish owner l.nodes.reverse stop := by
  simp [take, told, add, leave]

/-! ## The end of a document -/

theorem leave_of_outside (outside : r.blocks = []) : r.leave stop = r := by
  rw [leave, outside]

/-- At the end the innermost block is reported and closed. -/
theorem ended_leave {b : Block} {outer : List Block} (mode : r.mode = .items) (inside : r.blocks = b :: outer) :
    r.ended last = ((r.told [.unclosed b.brace]).leave last).ended last := by
  obtain ⟨items, scope, blocks, mode', problems⟩ := r
  subst mode inside
  cases outer with
  | nil => cases scope <;> simp [ended, leave, told, finish, add, unwind]
  | cons c outer => simp [ended, leave, told, finish, add, unwind]

theorem ended_header {h : Header} (mode : r.mode = .header h) : r.ended last = (r.close h).ended last := by
  unfold ended
  rw [mode, mode_close]

theorem ended_skipping {owner : Option Header} {brace : ByteRange} {inner : Nat}
    (mode : r.mode = .skipping owner brace inner) :
    r.ended last = ({ r.report (.unclosed brace) with mode := .items }.finish owner [] last).ended last := by
  unfold ended
  rw [mode, mode_finish]

end Reader

end CodeWorkspace.Outline
