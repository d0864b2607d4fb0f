import CodeWorkspace.Proofs.Outline.Moves

/-! How deep a reader is in blocks. However declarations stand around them, and though blocks below the limit are
skipped and not opened, a reader's depth is the number of braces that a plain count has left open. -/
namespace CodeWorkspace.Outline

/-- A closing brace with nothing to close does not count. -/
def depthAfter (depth : Nat) (t : Token) : Nat :=
  match t.kind with
  | .openBrace => depth + 1
  | .closeBrace => depth - 1
  | _ => depth

/-- The number of braces that are open behind these tokens. -/
def openBraces (tokens : List Token) : Nat := tokens.foldl depthAfter 0

section DepthAfter

variable {t : Token} (depth : Nat)

theorem depthAfter_open (kind : t.kind = .openBrace) : depthAfter depth t = depth + 1 := by
  simp [depthAfter, kind]

theorem depthAfter_close (kind : t.kind = .closeBrace) : depthAfter depth t = depth - 1 := by
  simp [depthAfter, kind]

theorem depthAfter_other (notOpen : t.kind ≠ .openBrace) (notClose : t.kind ≠ .closeBrace) :
    depthAfter depth t = depth := by
  unfold depthAfter
  split
  · next kind => exact absurd kind notOpen
  · next kind => exact absurd kind notClose
  · rfl

end DepthAfter

/-- The blocks that are open but not read. -/
def Mode.skipped : Mode → Nat
  | .items | .header _ => 0
  | .skipping _ _ inner => inner + 1

namespace Reader

/-! ## Parts of a step -/

section Parts

variable (r : Reader) (nodes : List Node) (owner : Option Header) (stop : Nat)

@[simp] theorem mode_add : (r.add nodes).mode = r.mode := by
  unfold add
  split <;> rfl

@[simp] theorem length_blocks_add : (r.add nodes).blocks.length = r.blocks.length := by
  unfold add
  split <;> simp_all

@[simp] theorem problems_add : (r.add nodes).problems = r.problems := by
  unfold add
  split <;> rfl

@[simp] theorem mode_finish : (r.finish owner nodes stop).mode = r.mode := mode_add ..

@[simp] theorem length_blocks_finish : (r.finish owner nodes stop).blocks.length = r.blocks.length :=
  length_blocks_add ..

@[simp] theorem problems_finish : (r.finish owner nodes stop).problems = r.problems := problems_add ..

variable (h : Header)

@[simp] theorem mode_close : (r.close h).mode = .items := mode_finish ..

@[simp] theorem length_blocks_close : (r.close h).blocks.length = r.blocks.length :=
  length_blocks_finish ..

@[simp] theorem problems_close : (r.close h).problems = r.problems := problems_finish ..

end Parts

/-! ## Depth -/

def depth (r : Reader) : Nat := r.blocks.length + r.mode.skipped

/-- At this depth, with blocks skipped if the limit is reached and no earlier. -/
structure AtDepth (r : Reader) (depth : Nat) : Prop where
  depth_eq : r.depth = depth
  blocks : r.blocks.length ≤ nestingLimit
  full : 0 < r.mode.skipped → r.blocks.length = nestingLimit

namespace AtDepth

variable {r r' : Reader} {t : Token} {rest : List Token} {depth : Nat}

theorem start : AtDepth {} 0 := ⟨rfl, by simp, by simp [Mode.skipped]⟩

theorem reading (mode : r.mode.skipped = 0) (blocks : r.blocks.length = depth)
    (le : depth ≤ nestingLimit) : r.AtDepth depth where
  depth_eq := by simp [Reader.depth, mode, blocks]
  blocks := by omega
  full := by omega

theorem le_limit_iff (h : r.AtDepth depth) : depth ≤ nestingLimit ↔ r.mode.skipped = 0 := by
  have := h.depth_eq
  have := h.blocks
  have := h.full
  simp only [Reader.depth] at *
  omega

theorem opened (le : r.blocks.length ≤ nestingLimit) (owner : Option Header) (brace : ByteRange) :
    (r.opened owner brace).AtDepth (r.blocks.length + 1) := by
  unfold Reader.opened
  split
  · next lt => exact reading rfl rfl lt
  · next full => exact ⟨rfl, le, fun _ => Nat.le_antisymm le (Nat.not_lt.mp full)⟩

theorem item (h : ItemMoves r t rest r') (mode : r.mode = .items) (le : r.blocks.length ≤ nestingLimit) :
    r'.AtDepth (depthAfter r.blocks.length t) := by
  cases h with
  | opens kind =>
    rw [depthAfter_open _ kind]
    exact opened le none t.range
  | unbalanced kind outside =>
    rw [depthAfter_close _ kind]
    exact reading (by simp [report, mode, Mode.skipped]) (by simp [report, outside]) (by omega)
  | closes kind inside =>
    rw [depthAfter_close _ kind]
    simp only [inside, List.length_cons] at le ⊢
    exact reading (by simp [mode, Mode.skipped]) (by simp) (by omega)
  | named kind =>
    rw [depthAfter_other _ (by simp [kind]) (by simp [kind])]
    exact reading rfl rfl le
  | unnamed kind =>
    rw [depthAfter_other _ (by simp [kind]) (by simp [kind])]
    exact reading rfl rfl le
  | passes notOpen notClose =>
    rw [depthAfter_other _ notOpen notClose]
    exact reading (by simp [mode, Mode.skipped]) rfl le

theorem header {h : Header} (move : HeaderMoves r h t rest r') (le : r.blocks.length ≤ nestingLimit) :
    r'.AtDepth (depthAfter r.blocks.length t) := by
  cases move with
  | opens kind =>
    rw [depthAfter_open _ kind]
    exact opened le (some h) t.range
  | owns kind =>
    rw [depthAfter_other _ (by simp [kind]) (by simp [kind])]
    exact reading rfl rfl le
  | ends kind =>
    rw [depthAfter_other _ (by simp [kind]) (by simp [kind])]
    exact reading (by simp [Mode.skipped]) (by simp) le
  | leaves move =>
    have closed := item move (by simp) (by simpa using le)
    simpa using closed
  | goesOn notOpen notClose =>
    rw [depthAfter_other _ notOpen notClose]
    exact reading rfl rfl le

theorem skipping {owner : Option Header} {brace : ByteRange} {inner : Nat}
    (move : SkipMoves r owner brace t inner r') (mode : r.mode = .skipping owner brace inner)
    (full : r.blocks.length = nestingLimit) :
    r'.AtDepth (depthAfter (r.blocks.length + (inner + 1)) t) := by
  cases move with
  | opens kind =>
    rw [depthAfter_open _ kind]
    exact ⟨rfl, Nat.le_of_eq full, fun _ => full⟩
  | closes kind =>
    rw [depthAfter_close _ kind]
    exact ⟨rfl, Nat.le_of_eq full, fun _ => full⟩
  | ends kind =>
    rw [depthAfter_close _ kind]
    exact reading (by simp [Mode.skipped]) (by simp) (Nat.le_of_eq full)
  | passes notOpen notClose =>
    rw [depthAfter_other _ notOpen notClose]
    exact ⟨by simp [Reader.depth, mode, Mode.skipped], Nat.le_of_eq full, fun _ => full⟩

/-- Every token brings a reader to the depth that a plain count comes to. -/
theorem step (h : r.AtDepth depth) (t : Token) (rest : List Token) :
    (r.step t rest).AtDepth (depthAfter depth t) := by
  rw [← h.depth_eq, Reader.depth]
  cases moves_step r t rest with
  | item mode move =>
    rw [mode]
    exact item move mode h.blocks
  | header mode move =>
    rw [mode]
    exact header move h.blocks
  | skipping mode move =>
    rw [mode]
    exact skipping move mode (h.full (by simp [mode, Mode.skipped]))

end AtDepth
end Reader
end CodeWorkspace.Outline
