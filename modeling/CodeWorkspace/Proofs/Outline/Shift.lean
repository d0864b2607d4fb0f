import CodeWorkspace.Outline.Parse
import CodeWorkspace.Proofs.Text.Lines
import CodeWorkspace.Proofs.Token.Concat

/-! Readers further on in a document. One that starts behind something already read, and meets the same tokens further
on, does as it would from the beginning: it adds the same items and problems, further on, to those already there. -/
namespace CodeWorkspace

namespace Node

mutual

def shift (offset : Nat) : Node → Node
  | ⟨kind, name, range, children⟩ => ⟨kind, name, range.shift offset, shiftAll offset children⟩

def shiftAll (offset : Nat) : List Node → List Node
  | [] => []
  | n :: rest => n.shift offset :: shiftAll offset rest

end

theorem shiftAll_eq (offset : Nat) (ns : List Node) : shiftAll offset ns = ns.map (shift offset) := by
  induction ns with
  | nil => rw [shiftAll, List.map_nil]
  | cons n rest ih => rw [shiftAll, ih, List.map_cons]

theorem shift_eq (offset : Nat) (n : Node) :
    n.shift offset = ⟨n.kind, n.name, n.range.shift offset, n.children.map (shift offset)⟩ := by
  cases n
  rw [shift, shiftAll_eq]

end Node

namespace Outline

def Header.shift (offset : Nat) (h : Header) : Header :=
  { h with start := offset + h.start, stop := offset + h.stop }

def Block.shift (offset : Nat) (b : Block) : Block :=
  ⟨b.owner.map (·.shift offset), b.brace.shift offset, b.items.map (·.shift offset)⟩

def Mode.shift (offset : Nat) : Mode → Mode
  | .items => .items
  | .header h => .header (h.shift offset)
  | .skipping owner brace inner => .skipping (owner.map (·.shift offset)) (brace.shift offset) inner

def Problem.shift (offset : Nat) : Problem → Problem
  | .unbalanced brace => .unbalanced (brace.shift offset)
  | .unclosed brace => .unclosed (brace.shift offset)
  | .tooDeep brace => .tooDeep (brace.shift offset)
  | .unnamed keyword => .unnamed (keyword.shift offset)
  | .unknown token => .unknown (token.shift offset)

variable {offset stop : Nat} {t : Token} {rest : List Token}

theorem range_shift (p : Problem) : (p.shift offset).range = p.range.shift offset := by cases p <;> rfl

/-- A report says the same of what is further on. -/
theorem diagnostic_shift {a : String} (newline : a.toList.getLast? = some '\n') (path : Path) (b : String)
    (p : Problem) :
    (p.shift (byteLength a.toList)).diagnostic path (.unbounded (a ++ b).toList) =
      (p.diagnostic path (.unbounded b.toList)).down (a.toList.count '\n') := by
  have place : (LineTable.unbounded (a ++ b).toList).span (p.range.shift (byteLength a.toList)) =
      ((LineTable.unbounded b.toList).span p.range).down (a.toList.count '\n') := by
    rw [String.toList_append, LineTable.span_right newline]
  rw [Problem.diagnostic, range_shift, place]
  cases p <;> rfl

theorem node_shift (h : Header) (children : List Node) :
    (h.node stop children).shift offset =
      (h.shift offset).node (offset + stop) (children.map (·.shift offset)) := by
  rw [Node.shift_eq]
  rfl

theorem map_shift_contents (owner : Option Header) (items : List Node) :
    (contents owner items stop).map (·.shift offset) =
      contents (owner.map (·.shift offset)) (items.map (·.shift offset)) (offset + stop) := by
  cases owner with
  | none => rfl
  | some h => simp [contents, node_shift]

theorem startsWithKeyword_shift (tokens : List Token) :
    startsWithKeyword (tokens.map (·.shift offset)) = startsWithKeyword tokens := by
  cases tokens <;> rfl

theorem startsWithIdent_shift (tokens : List Token) :
    startsWithIdent (tokens.map (·.shift offset)) = startsWithIdent tokens := by
  cases tokens <;> rfl

theorem tailOf_shift (tokens : List Token) :
    nameOf?.tailOf (tokens.map (·.shift offset)) = nameOf?.tailOf tokens := by
  fun_induction nameOf?.tailOf tokens with
  | case1 d t rest both ih => simp [nameOf?.tailOf, both, ih]
  | case2 d t rest other => simp [nameOf?.tailOf, other]
  | case3 tokens short =>
    cases tokens with
    | nil => rfl
    | cons d rest =>
      cases rest with
      | nil => rfl
      | cons t rest => exact absurd rfl (short d t rest)

theorem nameOf?_shift (tokens : List Token) : nameOf? (tokens.map (·.shift offset)) = nameOf? tokens := by
  cases tokens with
  | nil => rfl
  | cons t rest => simp [nameOf?, tailOf_shift]

namespace Reader

/-- The reader as it stands that many bytes further on, behind these items and problems, each with the last first. -/
def after (offset : Nat) (items : List Node) (problems : List Problem) (r : Reader) : Reader where
  items := r.items.map (·.shift offset) ++ items
  scope := r.scope.map fun (h, nodes) => (h.shift offset, nodes.map (·.shift offset))
  blocks := r.blocks.map (·.shift offset)
  mode := r.mode.shift offset
  problems := r.problems.map (·.shift offset) ++ problems

variable {items : List Node} {problems : List Problem} (r : Reader)

theorem after_add (nodes : List Node) :
    (r.add nodes).after offset items problems =
      (r.after offset items problems).add (nodes.map (·.shift offset)) := by
  obtain ⟨_, scope, blocks, _, _⟩ := r
  cases blocks with
  | nil => cases scope <;> simp [add, after]
  | cons b outer => simp [add, after, Block.shift]

theorem after_finish (owner : Option Header) (nodes : List Node) :
    (r.finish owner nodes stop).after offset items problems =
      (r.after offset items problems).finish (owner.map (·.shift offset)) (nodes.map (·.shift offset))
        (offset + stop) := by
  rw [finish, after_add, map_shift_contents, finish]

theorem after_close (h : Header) :
    (r.close h).after offset items problems = (r.after offset items problems).close (h.shift offset) :=
  after_finish { r with mode := .items } (some h) []

theorem after_opened (owner : Option Header) (brace : ByteRange) :
    (r.opened owner brace).after offset items problems =
      (r.after offset items problems).opened (owner.map (·.shift offset)) (brace.shift offset) := by
  have levels : (r.after offset items problems).blocks.length = r.blocks.length := List.length_map _
  rw [opened, opened, levels]
  split <;> rfl

theorem after_item (t : Token) (rest : List Token) :
    (r.item t rest).after offset items problems =
      (r.after offset items problems).item (t.shift offset) (rest.map (·.shift offset)) := by
  rw [item, item, startsWithKeyword_shift, startsWithIdent_shift, nameOf?_shift, Token.shift_kind]
  cases t.kind with
  | openBrace => exact after_opened ..
  | closeBrace =>
    obtain ⟨_, _, blocks, _, _⟩ := r
    cases blocks with
    | nil => rfl
    | cons b outer => exact after_finish ..
  | keyword =>
    simp only
    split
    · rfl
    · split <;> rfl
  | _ => rfl

theorem after_headerToken (h : Header) (t : Token) (rest : List Token) :
    (r.headerToken h t rest).after offset items problems =
      (r.after offset items problems).headerToken (h.shift offset) (t.shift offset)
        (rest.map (·.shift offset)) := by
  rw [headerToken, headerToken, startsWithIdent_shift, Token.shift_kind]
  cases t.kind with
  | openBrace => exact after_opened ..
  | closeBrace =>
    simp only
    rw [after_item, after_close]
  | semicolon =>
    have first : ((h.shift offset).kind = .namespaceDecl ∧ (r.after offset items problems).blocks.isEmpty ∧
        (r.after offset items problems).scope.isNone) ↔
          (h.kind = .namespaceDecl ∧ r.blocks.isEmpty ∧ r.scope.isNone) := by
      simp [Header.shift, after]
    by_cases owns : h.kind = .namespaceDecl ∧ r.blocks.isEmpty ∧ r.scope.isNone
    · simp only [if_pos owns]
      rw [if_pos (first.mpr owns)]
      rfl
    · simp only [if_neg owns]
      rw [if_neg (mt first.mp owns), after_close]
      rfl
  | keyword =>
    simp only
    split
    · rw [after_item, after_close]
    · rfl
  | _ => rfl

theorem after_skippedToken (owner : Option Header) (brace : ByteRange) (inner : Nat) (t : Token) :
    (r.skippedToken owner brace inner t).after offset items problems =
      (r.after offset items problems).skippedToken (owner.map (·.shift offset)) (brace.shift offset) inner
        (t.shift offset) := by
  unfold skippedToken
  rw [Token.shift_kind]
  cases t.kind with
  | closeBrace =>
    cases inner with
    | zero => exact after_finish ..
    | succ inner => rfl
  | _ => rfl

/-- Step by step both do the same. -/
theorem after_step (t : Token) (rest : List Token) :
    (r.step t rest).after offset items problems =
      (r.after offset items problems).step (t.shift offset) (rest.map (·.shift offset)) := by
  have mode : (r.after offset items problems).mode = r.mode.shift offset := rfl
  rw [step, step, mode]
  cases r.mode with
  | items => exact after_item ..
  | header h => exact after_headerToken ..
  | skipping owner brace inner => exact after_skippedToken ..

theorem after_run (tokens : List Token) :
    (r.run tokens).after offset items problems =
      (r.after offset items problems).run (tokens.map (·.shift offset)) := by
  induction tokens generalizing r with
  | nil => rfl
  | cons t rest ih => rw [run, ih, after_step, List.map_cons, run]

theorem map_shift_unwind (stop : Nat) (blocks : List Block) (inside : List Node) :
    (unwind stop blocks inside).map (·.shift offset) =
      unwind (offset + stop) (blocks.map (·.shift offset)) (inside.map (·.shift offset)) := by
  induction blocks generalizing inside with
  | nil => rfl
  | cons b outer ih =>
    rw [unwind, ih, map_shift_contents, List.map_append, List.map_cons, unwind]
    rfl

theorem after_ended (stop : Nat) :
    (r.ended stop).after offset items problems = (r.after offset items problems).ended (offset + stop) := by
  -- What the end does once the list that the mode is about has ended.
  have done (r : Reader) : (Reader.add { r with
        blocks := []
        problems := (r.blocks.map fun b => .unclosed b.brace).reverse ++ r.problems }
        (unwind stop r.blocks [])).after offset items problems =
      Reader.add { r.after offset items problems with
        blocks := []
        problems := ((r.after offset items problems).blocks.map fun b => .unclosed b.brace).reverse ++
          (r.after offset items problems).problems }
        (unwind (offset + stop) (r.after offset items problems).blocks []) := by
    have blocks : (r.after offset items problems).blocks = r.blocks.map (·.shift offset) := rfl
    rw [after_add, map_shift_unwind, blocks]
    congr 1
    simp [after, Problem.shift, Block.shift, Function.comp_def]
  have mode : (r.after offset items problems).mode = r.mode.shift offset := rfl
  rw [ended, ended, mode]
  cases r.mode with
  | items => exact done r
  | header h => rw [done, after_close]; rfl
  | skipping owner brace inner =>
    rw [done, after_finish]
    rfl

theorem result_after (stop : Nat) :
    (r.after offset items problems).result (offset + stop) =
      items.reverse ++ (r.result stop).map (·.shift offset) := by
  obtain ⟨_, scope, _, _, _⟩ := r
  cases scope with
  | none => simp [result, after]
  | some owned =>
    obtain ⟨h, nodes⟩ := owned
    simp [result, after, node_shift, Header.shift, Nat.add_max_add_left]

end Reader
end Outline
end CodeWorkspace
