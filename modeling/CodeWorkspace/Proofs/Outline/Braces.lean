import CodeWorkspace.Proofs.Outline.Matching
import CodeWorkspace.Proofs.Outline.Sizes
import Mathlib.Data.List.DropRight

/-! What a document is told of its braces. A reader meets them at bodies of declarations, at transparent blocks, in
blocks that it skips and where nothing is open; its reports are still those of a plain matching of all braces. -/
namespace CodeWorkspace.Outline

/-! ## What a reader holds -/

/-- The brace of a block that is skipped. -/
def Mode.braces : Mode → List ByteRange
  | .items | .header _ => []
  | .skipping _ brace _ => [brace]

/-- The blocks that are open inside a skipped one. -/
def Mode.inner : Mode → Nat
  | .items | .header _ => 0
  | .skipping _ _ inner => inner

namespace Reader

/-- The braces that a reader keeps in mind, the innermost first. -/
def braces (r : Reader) : List ByteRange := r.mode.braces ++ r.blocks.map (·.brace)

section Parts

variable (r : Reader) (nodes : List Node) (owner : Option Header) (stop : Nat) (h : Header)

@[simp] theorem map_brace_add : (r.add nodes).blocks.map (·.brace) = r.blocks.map (·.brace) := by
  unfold add
  split <;> simp_all

@[simp] theorem map_brace_finish :
    (r.finish owner nodes stop).blocks.map (·.brace) = r.blocks.map (·.brace) := map_brace_add ..

@[simp] theorem map_brace_close : (r.close h).blocks.map (·.brace) = r.blocks.map (·.brace) :=
  map_brace_finish ..

theorem braces_opened (brace : ByteRange) :
    (r.opened owner brace).braces = brace :: r.blocks.map (·.brace) ∧
      (r.opened owner brace).mode.inner = 0 := by
  unfold opened
  split <;> exact ⟨rfl, rfl⟩

end Parts

variable {r r' : Reader} {t : Token} {rest : List Token} {pending : List Token}

/-- The braces that a reader keeps in mind are the outermost ones of those that are pending. -/
def Holds (r : Reader) (pending : List Token) : Prop :=
  r.braces = (pending.map (·.range)).drop r.mode.inner

theorem holds_reading (mode : r.mode = .items)
    (same : r.blocks.map (·.brace) = pending.map (·.range)) : r.Holds pending := by
  simp [Holds, braces, mode, Mode.braces, Mode.inner, same]

theorem holds_opened (same : r.blocks.map (·.brace) = pending.map (·.range)) (owner : Option Header)
    (kind : t.kind = .openBrace) : (r.opened owner t.range).Holds (pendingAfter pending t) := by
  obtain ⟨braces, inner⟩ := braces_opened r owner t.range
  rw [Holds, braces, inner, pendingAfter_open pending kind, same]
  rfl

theorem holds_item (move : ItemMoves r t rest r') (mode : r.mode = .items)
    (same : r.blocks.map (·.brace) = pending.map (·.range)) : r'.Holds (pendingAfter pending t) := by
  cases move with
  | opens kind => exact holds_opened same none kind
  | unbalanced kind outside =>
    rw [outside] at same
    apply holds_reading mode
    rw [pendingAfter_close pending kind, List.map_tail, ← same]
    simp [outside]
  | closes kind inside =>
    apply holds_reading (by simp [mode])
    rw [pendingAfter_close pending kind, List.map_tail, ← same, inside]
    simp
  | named kind =>
    rw [pendingAfter_other pending (by simp [kind]) (by simp [kind])]
    exact same
  | unnamed kind =>
    rw [pendingAfter_other pending (by simp [kind]) (by simp [kind])]
    exact same
  | passes notOpen notClose =>
    rw [pendingAfter_other pending notOpen notClose]
    exact holds_reading mode same

theorem holds_header {h : Header} (move : HeaderMoves r h t rest r')
    (same : r.blocks.map (·.brace) = pending.map (·.range)) : r'.Holds (pendingAfter pending t) := by
  cases move with
  | opens kind => exact holds_opened same (some h) kind
  | owns kind =>
    rw [pendingAfter_other pending (by simp [kind]) (by simp [kind])]
    exact same
  | ends kind =>
    rw [pendingAfter_other pending (by simp [kind]) (by simp [kind])]
    exact holds_reading (mode_close ..) (by rw [map_brace_close, same])
  | leaves move => exact holds_item move (mode_close ..) (by rw [map_brace_close, same])
  | goesOn notOpen notClose =>
    rw [pendingAfter_other pending notOpen notClose]
    exact same

theorem holds_skipping {owner : Option Header} {brace : ByteRange} {inner : Nat}
    (move : SkipMoves r owner brace t inner r') (mode : r.mode = .skipping owner brace inner)
    (same : brace :: r.blocks.map (·.brace) = (pending.map (·.range)).drop inner) :
    r'.Holds (pendingAfter pending t) := by
  cases move with
  | opens kind =>
    rw [pendingAfter_open pending kind]
    exact same
  | closes kind =>
    rw [pendingAfter_close pending kind]
    simpa [Holds, braces, Mode.braces, Mode.inner, List.drop_tail] using same
  | ends kind =>
    rw [pendingAfter_close pending kind]
    apply holds_reading (mode_finish ..)
    rw [List.drop_zero] at same
    rw [map_brace_finish, List.map_tail, ← same]
    rfl
  | passes notOpen notClose =>
    rw [pendingAfter_other pending notOpen notClose, Holds, braces, mode]
    exact same

theorem Holds.step (holds : r.Holds pending) (t : Token) (rest : List Token) :
    (r.step t rest).Holds (pendingAfter pending t) := by
  unfold Holds braces at holds
  cases moves_step r t rest with
  | item mode move =>
    rw [mode] at holds
    exact holds_item move mode holds
  | header mode move =>
    rw [mode] at holds
    exact holds_header move holds
  | skipping mode move =>
    rw [mode] at holds
    exact holds_skipping move mode holds

end Reader

/-! ## What a reader reports -/

/-- Whether a report is about a brace. -/
def Problem.isBrace : Problem → Bool
  | .unbalanced _ | .unclosed _ | .tooDeep _ => true
  | .unnamed _ | .unknown _ => false

theorem Problem.isBrace_of_code {p : Problem} (h : p.code = "Q0001" ∨ p.code = "Q0002" ∨ p.code = "Q0005") :
    p.isBrace = true := by
  cases p <;> simp_all [Problem.code, Problem.isBrace]

/-- What is to be reported of a token with so many braces open in front of it. -/
def braceProblem? : Nat × Token → Option Problem
  | (depth, t) =>
    match t.kind with
    | .closeBrace => if depth = 0 then some (.unbalanced t.range) else none
    | .openBrace => if depth = nestingLimit then some (.tooDeep t.range) else none
    | _ => none

section BraceProblem

variable {t : Token} {depth : Nat}

theorem braceProblem?_open (kind : t.kind = .openBrace) :
    braceProblem? (depth, t) = if depth = nestingLimit then some (.tooDeep t.range) else none := by
  simp [braceProblem?, kind]

theorem braceProblem?_close (kind : t.kind = .closeBrace) :
    braceProblem? (depth, t) = if depth = 0 then some (.unbalanced t.range) else none := by
  simp [braceProblem?, kind]

theorem braceProblem?_other (notOpen : t.kind ≠ .openBrace) (notClose : t.kind ≠ .closeBrace) :
    braceProblem? (depth, t) = none := by
  dsimp only [braceProblem?]
  split
  · next kind => exact absurd kind notClose
  · next kind => exact absurd kind notOpen
  · rfl

/-- A token is never stray and too deep at once. -/
theorem braceProblem?_eq (x : Nat × Token) :
    braceProblem? x =
      if x.2.kind = .closeBrace ∧ x.1 = 0 then some (.unbalanced x.2.range)
      else if x.2.kind = .openBrace ∧ x.1 = nestingLimit then some (.tooDeep x.2.range) else none := by
  obtain ⟨depth, t⟩ := x
  by_cases closes : t.kind = .closeBrace
  · simp [braceProblem?_close closes, closes]
  · by_cases opens : t.kind = .openBrace
    · simp [braceProblem?_open opens, opens]
    · simp [braceProblem?_other opens closes, opens, closes]

end BraceProblem

namespace Reader

def braceProblems (r : Reader) : List Problem := r.problems.filter (·.isBrace)

variable {r r' : Reader} {t : Token} {rest tokens : List Token} {depth : Nat}

theorem braceProblems_opened (le : r.blocks.length ≤ nestingLimit) (owner : Option Header)
    (kind : t.kind = .openBrace) : (r.opened owner t.range).braceProblems =
      (braceProblem? (r.blocks.length, t)).toList ++ r.braceProblems := by
  unfold opened
  rw [braceProblem?_open kind]
  split
  · next lt =>
    rw [if_neg (Nat.ne_of_lt lt)]
    rfl
  · next full =>
    rw [if_pos (Nat.le_antisymm le (Nat.not_lt.mp full))]
    rfl

theorem braceProblems_item (move : ItemMoves r t rest r') (le : r.blocks.length ≤ nestingLimit) :
    r'.braceProblems = (braceProblem? (r.blocks.length, t)).toList ++ r.braceProblems := by
  cases move with
  | opens kind => exact braceProblems_opened le none kind
  | unbalanced kind outside =>
    rw [braceProblem?_close kind, outside]
    rfl
  | closes kind inside =>
    rw [braceProblem?_close kind, inside]
    simp [braceProblems]
  | named kind =>
    rw [braceProblem?_other (by simp [kind]) (by simp [kind])]
    rfl
  | unnamed kind =>
    rw [braceProblem?_other (by simp [kind]) (by simp [kind])]
    rfl
  | passes notOpen notClose =>
    rw [braceProblem?_other notOpen notClose]
    rfl

theorem braceProblems_header {h : Header} (move : HeaderMoves r h t rest r')
    (le : r.blocks.length ≤ nestingLimit) :
    r'.braceProblems = (braceProblem? (r.blocks.length, t)).toList ++ r.braceProblems := by
  cases move with
  | opens kind => exact braceProblems_opened le (some h) kind
  | owns kind =>
    rw [braceProblem?_other (by simp [kind]) (by simp [kind])]
    rfl
  | ends kind =>
    rw [braceProblem?_other (by simp [kind]) (by simp [kind])]
    simp [braceProblems]
  | leaves move =>
    have closed := braceProblems_item move (by simpa using le)
    simpa [braceProblems] using closed
  | goesOn notOpen notClose =>
    rw [braceProblem?_other notOpen notClose]
    rfl

/-- Below the limit nothing is reported. -/
theorem braceProblems_skipping {owner : Option Header} {brace : ByteRange} {inner : Nat}
    (move : SkipMoves r owner brace t inner r') (deep : nestingLimit < depth) :
    r'.braceProblems = (braceProblem? (depth, t)).toList ++ r.braceProblems := by
  cases move with
  | opens kind =>
    rw [braceProblem?_open kind, if_neg (by omega)]
    rfl
  | closes kind =>
    rw [braceProblem?_close kind, if_neg (by omega)]
    rfl
  | ends kind =>
    rw [braceProblem?_close kind, if_neg (by omega)]
    simp [braceProblems]
  | passes notOpen notClose =>
    rw [braceProblem?_other notOpen notClose]
    rfl

theorem braceProblems_step (at_ : r.AtDepth depth) (t : Token) (rest : List Token) :
    (r.step t rest).braceProblems = (braceProblem? (depth, t)).toList ++ r.braceProblems := by
  have depth_eq := at_.depth_eq
  unfold Reader.depth at depth_eq
  cases moves_step r t rest with
  | item mode move =>
    obtain rfl : r.blocks.length = depth := by simpa [mode, Mode.skipped] using depth_eq
    exact braceProblems_item move at_.blocks
  | header mode move =>
    obtain rfl : r.blocks.length = depth := by simpa [mode, Mode.skipped] using depth_eq
    exact braceProblems_header move at_.blocks
  | skipping mode move =>
    have := at_.full (by simp [mode, Mode.skipped])
    apply braceProblems_skipping move
    simp only [mode, Mode.skipped] at depth_eq
    omega

/-! ## Whole runs -/

theorem braceProblems_run (at_ : r.AtDepth depth) (tokens : List Token) :
    (r.run tokens).braceProblems =
      ((withDepth depth tokens).filterMap braceProblem?).reverse ++ r.braceProblems := by
  induction tokens generalizing r depth with
  | nil => rfl
  | cons t rest ih =>
    rw [run, ih (at_.step t rest), braceProblems_step at_, withDepth, List.filterMap_cons]
    cases braceProblem? (depth, t) <;> simp

theorem atDepth_run (at_ : r.AtDepth depth) (tokens : List Token) :
    (r.run tokens).AtDepth (tokens.foldl depthAfter depth) := by
  induction tokens generalizing r depth with
  | nil => exact at_
  | cons t rest ih => exact ih (at_.step t rest)

theorem holds_run {pending : List Token} (holds : r.Holds pending) (tokens : List Token) :
    (r.run tokens).Holds (tokens.foldl pendingAfter pending) := by
  induction tokens generalizing r pending with
  | nil => exact holds
  | cons t rest ih => exact ih (holds.step t rest)

/-- Whatever is pending beyond the limit, a reader only keeps the outermost braces in mind. -/
theorem braces_run (tokens : List Token) :
    (Reader.run {} tokens).braces = ((pendingBraces tokens).rtake (nestingLimit + 1)).map (·.range) := by
  have at_ : (Reader.run {} tokens).AtDepth (pendingBraces tokens).length := by
    rw [pendingBraces, length_foldl_pendingAfter]
    exact atDepth_run .start tokens
  have start : Reader.Holds {} [] := rfl
  have holds : (Reader.run {} tokens).Holds (pendingBraces tokens) := holds_run start tokens
  have inner : (Reader.run {} tokens).mode.inner = (pendingBraces tokens).length - (nestingLimit + 1) := by
    have depth_eq := at_.depth_eq
    have blocks := at_.blocks
    have full := at_.full
    unfold Reader.depth at depth_eq
    cases mode : (Reader.run {} tokens).mode with
    | items | header =>
      simp only [mode, Mode.skipped] at depth_eq
      simp only [Mode.inner]
      omega
    | skipping owner brace inner =>
      simp only [mode, Mode.skipped] at depth_eq full
      simp only [Mode.inner]
      omega
  rw [holds, inner, List.rtake, List.map_drop]

theorem problems_ended (r : Reader) (stop : Nat) :
    (r.ended stop).problems = (r.braces.map .unclosed).reverse ++ r.problems := by
  have blocks (r : Reader) : r.blocks.map (fun b => Problem.unclosed b.brace) =
      (r.blocks.map (·.brace)).map .unclosed := by
    rw [List.map_map]
    rfl
  unfold ended braces
  cases r.mode with
  | items => rw [problems_add, blocks, Mode.braces, List.nil_append]
  | header h => rw [problems_add, blocks, map_brace_close, problems_close, Mode.braces, List.nil_append]
  | skipping owner brace inner =>
    rw [problems_add, blocks, map_brace_finish, problems_finish, Mode.braces]
    simp [report]

end Reader

/-! ## Documents -/

theorem braceProblems_read (tokens : List Token) :
    (read tokens).2.filter (·.isBrace) =
      (withDepth 0 tokens).filterMap braceProblem? ++
        ((pendingBraces tokens).rtake (nestingLimit + 1)).map (.unclosed ·.range) := by
  have run := Reader.braceProblems_run .start tokens
  have unclosed : ((Reader.run {} tokens).braces.map Problem.unclosed).filter (·.isBrace) =
      (Reader.run {} tokens).braces.map .unclosed := by
    rw [List.filter_eq_self]
    simp [Problem.isBrace]
  unfold Reader.braceProblems at run
  rw [read, Reader.problems_ended, List.filter_reverse, List.filter_append, run, List.filter_reverse, unclosed,
    Reader.braces_run]
  simp

theorem filter_filterMap_braceProblem? {code : String} {kind : TokenKind} {depth : Nat}
    {problem : ByteRange → Problem}
    (picks : ∀ x, (braceProblem? x).filter (·.code = code) =
      if x.2.kind = kind ∧ x.1 = depth then some (problem x.2.range) else none) (tokens : List Token) :
    ((withDepth 0 tokens).filterMap braceProblem?).filter (·.code = code) =
      (tokensAt kind depth tokens).map (problem ·.range) := by
  rw [tokensAt, List.map_map, List.filter_filterMap, ← List.filterMap_eq_map, List.filterMap_filter]
  apply List.filterMap_congr
  intro x _
  rw [picks x]
  simp only [decide_eq_true_eq]
  rfl

theorem filter_braceProblem?_stray (x : Nat × Token) :
    (braceProblem? x).filter (·.code = "Q0001") =
      if x.2.kind = .closeBrace ∧ x.1 = 0 then some (.unbalanced x.2.range) else none := by
  rw [braceProblem?_eq]
  split
  · rfl
  · split <;> rfl

theorem filter_braceProblem?_deep (x : Nat × Token) :
    (braceProblem? x).filter (·.code = "Q0005") =
      if x.2.kind = .openBrace ∧ x.1 = nestingLimit then some (.tooDeep x.2.range) else none := by
  rw [braceProblem?_eq]
  split
  · next stray => simp [stray.1, Problem.code]
  · split <;> rfl

theorem filter_braceProblem?_unclosed (x : Nat × Token) : (braceProblem? x).filter (·.code = "Q0002") = none := by
  rw [braceProblem?_eq]
  split
  · rfl
  · split <;> rfl

section Documents

variable (path : Path) {text : String} (small : text.utf8ByteSize < UInt32.size)
include small

/-- The reports of one code, if that is a code for braces. -/
theorem filter_code_parse {code : String} (brace : ∀ p : Problem, p.code = code → p.isBrace = true) :
    let tokens := (Token.scan text).filter isSignificant
    (parse path text).diagnostics.filter (·.code = some code) =
      ((((withDepth 0 tokens).filterMap braceProblem?).filter (·.code = code)) ++
        (((pendingBraces tokens).rtake (nestingLimit + 1)).map (Problem.unclosed ·.range)).filter
          (·.code = code)).map (·.diagnostic path (LineTable.ofText text)) := by
  intro tokens
  have ofCode (ps : List Problem) : (ps.map (·.diagnostic path (LineTable.ofText text))).filter
      (·.code = some code) = (ps.filter (·.code = code)).map (·.diagnostic path (LineTable.ofText text)) := by
    rw [List.filter_map]
    congr 2
    funext p
    simp [Problem.diagnostic]
  have others : (unknowns (Token.scan text)).filter (·.code = code) = [] := by
    rw [List.filter_eq_nil_iff]
    intro p mem same
    obtain ⟨t, -, rfl⟩ := List.mem_map.mp mem
    cases brace _ (of_decide_eq_true same)
  have braces : (read tokens).2.filter (·.code = code) =
      ((read tokens).2.filter (·.isBrace)).filter (·.code = code) := by
    rw [List.filter_filter]
    apply List.filter_congr
    intro p _
    by_cases same : p.code = code
    · simp [same, brace p same]
    · simp [same]
  rw [parse_of_lt path small, ofCode, List.filter_append, others, List.nil_append, braces, braceProblems_read,
    List.filter_append]

/-- The reports of a code that belongs to one kind of brace at one depth. -/
theorem filter_code_parse_tokensAt {code : String} {kind : TokenKind} {depth : Nat} {problem : ByteRange → Problem}
    (brace : ∀ p : Problem, p.code = code → p.isBrace = true) (other : "Q0002" ≠ code)
    (picks : ∀ x, (braceProblem? x).filter (·.code = code) =
      if x.2.kind = kind ∧ x.1 = depth then some (problem x.2.range) else none) :
    (parse path text).diagnostics.filter (·.code = some code) =
      (tokensAt kind depth ((Token.scan text).filter isSignificant)).map
        fun t => (problem t.range).diagnostic path (LineTable.ofText text) := by
  have unclosed (tokens : List Token) :
      (tokens.map (Problem.unclosed ·.range)).filter (·.code = code) = [] := by
    rw [List.filter_eq_nil_iff]
    simp [Problem.code, other]
  rw [filter_code_parse path small brace, filter_filterMap_braceProblem? picks, unclosed, List.append_nil, List.map_map]
  rfl

theorem filter_unclosed_parse :
    (parse path text).diagnostics.filter (·.code = some "Q0002") =
      ((pendingBraces ((Token.scan text).filter isSignificant)).rtake (nestingLimit + 1)).map
        fun t => (Problem.unclosed t.range).diagnostic path (LineTable.ofText text) := by
  have none (marked : List (Nat × Token)) :
      (marked.filterMap braceProblem?).filter (·.code = "Q0002") = [] := by
    rw [List.filter_filterMap]
    simp [filter_braceProblem?_unclosed]
  have all (tokens : List Token) : (tokens.map (Problem.unclosed ·.range)).filter (·.code = "Q0002") =
      tokens.map (Problem.unclosed ·.range) := by
    rw [List.filter_eq_self]
    simp [Problem.code]
  rw [filter_code_parse path small fun _ same => Problem.isBrace_of_code (.inr (.inl same)), none, all,
    List.nil_append, List.map_map]
  rfl

end Documents

/-- An error at a token of a document. -/
def errorAt (path : Path) (text : String) (code message : String) (t : Token) : Diagnostic where
  severity := .error
  message := message
  code := some code
  path := some path
  span := some ⟨(LineTable.ofText text).position t.range.start, (LineTable.ofText text).position t.range.stop⟩

/-- The reports on braces are those of a plain matching: one for each closing brace that closes nothing, one for
each opening brace at the limit, and one for each of the outermost braces that stay open, the innermost of these
first. There are none just if braces come in pairs that do not go below the limit. -/
theorem brace_reports_eq_matching (path : Path) (text : String) (small : text.utf8ByteSize < UInt32.size) :
    let tokens := (Token.scan text).filter isSignificant
    let pending := pendingBraces tokens
    let reported (code : String) := (parse path text).diagnostics.filter (·.code = some code)
    reported "Q0001" = (tokensAt .closeBrace 0 tokens).map (errorAt path text "Q0001" "unexpected `\x7d`") ∧
      reported "Q0002" =
        (pending.rtake (nestingLimit + 1)).map (errorAt path text "Q0002" "block is never closed") ∧
      (reported "Q0002").length = min pending.length (nestingLimit + 1) ∧
      reported "Q0005" = (tokensAt .openBrace nestingLimit tokens).map
        (errorAt path text "Q0005" "blocks nested more than 128 deep are not parsed") ∧
      (reported "Q0001" = [] ∧ reported "Q0002" = [] ∧ reported "Q0005" = [] ↔ Nested nestingLimit tokens) := by
  intro tokens pending reported
  have stray : reported "Q0001" = (tokensAt .closeBrace 0 tokens).map (errorAt path text "Q0001" "unexpected `\x7d`") :=
    filter_code_parse_tokensAt path small (fun _ same => Problem.isBrace_of_code (.inl same)) (by decide)
      filter_braceProblem?_stray
  have deep : reported "Q0005" = (tokensAt .openBrace nestingLimit tokens).map
      (errorAt path text "Q0005" "blocks nested more than 128 deep are not parsed") :=
    filter_code_parse_tokensAt path small (fun _ same => Problem.isBrace_of_code (.inr (.inr same))) (by decide)
      filter_braceProblem?_deep
  have unclosed : reported "Q0002" =
      (pending.rtake (nestingLimit + 1)).map (errorAt path text "Q0002" "block is never closed") :=
    filter_unclosed_parse path small
  have count : (pending.rtake (nestingLimit + 1)).length = min pending.length (nestingLimit + 1) := by
    rw [List.rtake, List.length_drop]
    omega
  have outermost : pending.rtake (nestingLimit + 1) = [] ↔ pending = [] := by
    rw [← List.length_eq_zero_iff, count, ← List.length_eq_zero_iff]
    omega
  refine ⟨stray, unclosed, ?_, deep, ?_⟩
  · rw [unclosed, List.length_map, count]
  · rw [stray, unclosed, deep, nested_iff]
    simp only [List.map_eq_nil_iff, outermost]
    rfl

/-- One closing brace too many in the second line, and one block that stays open. -/
theorem brace_reports_eq_matching_stray :
    "\n\x7d \x7b".utf8ByteSize < UInt32.size ∧
      (parse ⟨"a"⟩ "\n\x7d \x7b").diagnostics.filter (·.code = some "Q0001") =
        [⟨.error, "unexpected `\x7d`", some "Q0001", some ⟨"a"⟩, some ⟨⟨1, 0⟩, ⟨1, 1⟩⟩⟩] ∧
      (parse ⟨"a"⟩ "\n\x7d \x7b").diagnostics.filter (·.code = some "Q0002") =
        [⟨.error, "block is never closed", some "Q0002", some ⟨"a"⟩, some ⟨⟨1, 2⟩, ⟨1, 3⟩⟩⟩] := by
  have small : "\n\x7d \x7b".utf8ByteSize < UInt32.size := by decide +kernel
  obtain ⟨stray, unclosed, -⟩ := brace_reports_eq_matching ⟨"a"⟩ _ small
  exact ⟨small, stray.trans (by decide +kernel), unclosed.trans (by decide +kernel)⟩

/-- The braces of a large document are not matched. -/
theorem brace_reports_ne_matching :
    (parse ⟨"a"⟩ (overlong "\x7d")).diagnostics.filter (·.code = some "Q0001") ≠
      (tokensAt .closeBrace 0 ((Token.scan (overlong "\x7d")).filter isSignificant)).map
        (errorAt ⟨"a"⟩ (overlong "\x7d") "Q0001" "unexpected `\x7d`") := by
  have stray : tokensAt .closeBrace 0 ((Token.scan ("\x7d" ++ "\n")).filter isSignificant) ≠ [] := by decide +kernel
  rw [parse_overlong, significant_overlong (by decide +kernel)]
  exact fun same => stray (List.map_eq_nil_iff.mp same.symm)

end CodeWorkspace.Outline
