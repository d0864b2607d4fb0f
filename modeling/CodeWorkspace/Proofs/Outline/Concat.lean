import CodeWorkspace.Proofs.Outline.Braces
import CodeWorkspace.Proofs.Outline.Comments
import CodeWorkspace.Proofs.Outline.Ownership
import CodeWorkspace.Proofs.Outline.Shift

/-! Documents put together from two. Where a text leaves nothing open, the reader stands at its end as at a beginning:
the outline of the whole is that of the text in front, and then that of the other one further on. -/
namespace CodeWorkspace.Outline

/-- If there is a last token, it ends a declaration or a block. -/
def EndsItem (tokens : List Token) : Prop :=
  ∀ t ∈ tokens.getLast?, t.kind = .closeBrace ∨ t.kind = .semicolon

/-! ## Tokens behind an end -/

section Ahead

variable {front : List Token}

theorem EndsItem.tail {t : Token} (ends : EndsItem (t :: front)) : EndsItem front := by
  intro u last
  apply ends
  rw [List.getLast?_cons, last]
  rfl

theorem EndsItem.single {t : Token} (ends : EndsItem [t]) : t.kind = .closeBrace ∨ t.kind = .semicolon :=
  ends t rfl

theorem tailOf_append (ends : EndsItem front) (some : front ≠ []) (behind : List Token) :
    nameOf?.tailOf (front ++ behind) = nameOf?.tailOf front := by
  fun_induction nameOf?.tailOf front with
  | case1 d t rest both ih =>
    have more : rest ≠ [] := by
      rintro rfl
      have := ends.tail.single
      simp [both.2] at this
    rw [List.cons_append, List.cons_append, nameOf?.tailOf, if_pos both, ih ends.tail.tail more]
  | case2 d t rest other => rw [List.cons_append, List.cons_append, nameOf?.tailOf, if_neg other]
  | case3 tokens short =>
    cases tokens with
    | nil => exact absurd rfl some
    | cons d rest =>
      cases rest with
      | nil =>
        have no_dot : d.kind ≠ .dot := by rcases ends.single with kind | kind <;> simp [kind]
        cases behind with
        | nil => rfl
        | cons t behind => simp [nameOf?.tailOf, no_dot]
      | cons t rest => exact absurd rfl (short d t rest)

theorem nameOf?_append (ends : EndsItem front) (some : front ≠ []) (behind : List Token) :
    nameOf? (front ++ behind) = nameOf? front := by
  cases front with
  | nil => exact absurd rfl some
  | cons t rest =>
    by_cases ident : t.kind = .ident
    · have more : rest ≠ [] := by
        rintro rfl
        have := ends.single
        simp [ident] at this
      rw [List.cons_append, nameOf?, if_pos ident, tailOf_append ends.tail more, nameOf?, if_pos ident]
    · rw [List.cons_append, nameOf?, if_neg ident, nameOf?, if_neg ident]

end Ahead

/-- The problem is one of this token. -/
def Problem.IsOf (p : Problem) (t : Token) : Prop :=
  match p with
  | .unbalanced brace | .unclosed brace | .tooDeep brace => brace = t.range
  | .unnamed token | .unknown token => token = t

theorem Problem.IsOf.range_eq {p : Problem} {t : Token} (h : p.IsOf t) : p.range = t.range := by
  cases p with
  | unbalanced | unclosed | tooDeep => exact h
  | unnamed | unknown => exact congrArg Token.range h

namespace Reader

variable {r : Reader} {t : Token} {front tokens : List Token}

theorem step_congr {rest rest' : List Token} (keyword : startsWithKeyword rest = startsWithKeyword rest')
    (ident : startsWithIdent rest = startsWithIdent rest') (name : nameOf? rest = nameOf? rest') (r : Reader)
    (t : Token) : r.step t rest = r.step t rest' := by
  simp only [step, headerToken, item, keyword, ident, name]

/-- What ends a declaration or a block does not look ahead. -/
theorem step_of_end (ends : t.kind = .closeBrace ∨ t.kind = .semicolon) (r : Reader) (rest rest' : List Token) :
    r.step t rest = r.step t rest' := by
  rcases ends with kind | kind <;> simp only [step, headerToken, item, kind]

theorem run_append (ends : EndsItem front) (r : Reader) (behind : List Token) :
    r.run (front ++ behind) = (r.run front).run behind := by
  induction front generalizing r with
  | nil => rfl
  | cons t rest ih =>
    have step_eq : r.step t (rest ++ behind) = r.step t rest := by
      cases rest with
      | nil => exact step_of_end ends.single ..
      | cons u rest =>
        exact step_congr (by rfl) (by rfl) (nameOf?_append ends.tail (List.cons_ne_nil u rest) behind) ..
    rw [List.cons_append, run, step_eq, ih ends.tail, run]

/-! ## At the end of what is complete -/

theorem Beside.run {depth : Nat} {inHeader : Bool} (beside : r.Beside depth inHeader) (ends : EndsItem tokens)
    (start : tokens = [] → inHeader = false) :
    (r.run tokens).Beside (tokens.foldl depthAfter depth) false := by
  induction tokens generalizing r depth inHeader with
  | nil =>
    rw [start rfl] at beside
    exact beside
  | cons t rest ih =>
    apply ih (beside.step t rest).1 ends.tail
    rintro rfl
    rcases ends.single with kind | kind <;> simp [inHeaderAfter, kind]

/-- With all braces closed, no header open and no owner, only items and problems are left. -/
theorem run_eq_after (ends : EndsItem tokens) (closed : pendingBraces tokens = [])
    (ordinary : ∀ o ∈ openings tokens, o.isFileScoped = false) (offset : Nat) :
    Reader.run {} tokens =
      Reader.after offset (Reader.run {} tokens).items (Reader.run {} tokens).problems {} := by
  have beside := Beside.run .start ends fun _ => rfl
  have outside : tokens.foldl depthAfter 0 = 0 := by
    have length := length_foldl_pendingAfter [] tokens
    rw [show tokens.foldl pendingAfter [] = [] from closed] at length
    exact length.symm
  rw [outside] at beside
  have depth_eq := beside.at_.depth_eq
  have header := beside.header (Nat.zero_le _)
  have owner : (Reader.run {} tokens).owner? = none := by
    by_contra owner
    rcases (owned_run .start tokens).mp owner with owned | ⟨o, mem, fileScoped⟩
    · simp [Owned, owner?] at owned
    · rw [ordinary o mem] at fileScoped
      cases fileScoped
  generalize Reader.run {} tokens = r at *
  obtain ⟨items, scope, blocks, mode, problems⟩ := r
  simp only [Reader.depth, Nat.add_eq_zero_iff, List.length_eq_zero_iff] at depth_eq
  obtain ⟨rfl, skipped⟩ := depth_eq
  obtain rfl : scope = none := by simpa [owner?] using owner
  cases mode with
  | items => rfl
  | header h => cases header
  | skipping owner brace inner => cases skipped

/-! ## What is told of tokens -/

variable {r' : Reader} {rest : List Token} {p : Problem}

theorem mem_problems_opened {owner : Option Header} {brace : ByteRange}
    (mem : p ∈ (r.opened owner brace).problems) : p ∈ r.problems ∨ p = .tooDeep brace := by
  unfold opened at mem
  split at mem
  · exact .inl mem
  · exact (List.mem_cons.mp mem).symm

theorem mem_problems_item (move : ItemMoves r t rest r') (mem : p ∈ r'.problems) :
    p ∈ r.problems ∨ p.IsOf t := by
  cases move with
  | opens =>
    rcases mem_problems_opened mem with mem | rfl
    · exact .inl mem
    · exact .inr rfl
  | unbalanced =>
    rcases List.mem_cons.mp mem with rfl | mem
    · exact .inr rfl
    · exact .inl mem
  | closes =>
    rw [problems_finish] at mem
    exact .inl mem
  | unnamed =>
    rcases List.mem_cons.mp mem with rfl | mem
    · exact .inr rfl
    · exact .inl mem
  | named => exact .inl mem
  | passes => exact .inl mem

theorem mem_problems_header {h : Header} (move : HeaderMoves r h t rest r') (mem : p ∈ r'.problems) :
    p ∈ r.problems ∨ p.IsOf t := by
  cases move with
  | opens =>
    rcases mem_problems_opened mem with mem | rfl
    · exact .inl mem
    · exact .inr rfl
  | ends =>
    rw [problems_close] at mem
    exact .inl mem
  | leaves move =>
    have told := mem_problems_item move mem
    rwa [problems_close] at told
  | owns => exact .inl mem
  | goesOn => exact .inl mem

theorem mem_problems_skipping {owner : Option Header} {brace : ByteRange} {inner : Nat}
    (move : SkipMoves r owner brace t inner r') (mem : p ∈ r'.problems) : p ∈ r.problems := by
  cases move with
  | ends =>
    rw [problems_finish] at mem
    exact mem
  | _ => exact mem

/-- Every problem on the way is that of some token. -/
theorem mem_problems_run (mem : p ∈ (r.run tokens).problems) :
    p ∈ r.problems ∨ ∃ t ∈ tokens, p.IsOf t := by
  induction tokens generalizing r with
  | nil => exact .inl mem
  | cons t rest ih =>
    rcases ih mem with mem | ⟨u, u_mem, of⟩
    · have told : p ∈ r.problems ∨ p.IsOf t := by
        cases moves_step r t rest with
        | item mode move => exact mem_problems_item move mem
        | header mode move => exact mem_problems_header move mem
        | skipping mode move => exact .inl (mem_problems_skipping move mem)
      exact told.imp_right fun of => ⟨t, List.mem_cons_self, of⟩
    · exact .inr ⟨u, List.mem_cons_of_mem t u_mem, of⟩

end Reader

/-! ## Token lists -/

section Read

variable {front : List Token}

theorem lastStop_append_shift {behind : List Token} (some : behind ≠ []) (front : List Token) (offset : Nat) :
    lastStop (front ++ behind.map (·.shift offset)) = offset + lastStop behind := by
  have last := List.getLast?_eq_some_getLast some
  rw [lastStop, List.getLast?_append_of_ne_nil _ (by simpa using some), List.getLast?_map, last, lastStop, last]
  rfl

/-- Tokens that leave nothing open are read on their own. -/
theorem read_eq_of_closed (ends : EndsItem front) (closed : pendingBraces front = [])
    (ordinary : ∀ o ∈ openings front, o.isFileScoped = false) :
    read front = ((Reader.run {} front).items.reverse, (Reader.run {} front).problems.reverse) := by
  have here := Reader.run_eq_after ends closed ordinary 0
  rw [read, here]
  rfl

theorem read_append (ends : EndsItem front) (closed : pendingBraces front = [])
    (ordinary : ∀ o ∈ openings front, o.isFileScoped = false) (offset : Nat) (behind : List Token) :
    read (front ++ behind.map (·.shift offset)) =
      ((read front).1 ++ (read behind).1.map (·.shift offset),
        (read front).2 ++ (read behind).2.map (·.shift offset)) := by
  by_cases none : behind = []
  · subst none
    have empty : read [] = ([], []) := rfl
    simp [empty]
  · have here := Reader.run_eq_after ends closed ordinary offset
    rw [read_eq_of_closed ends closed ordinary, read, Reader.run_append ends, here, lastStop_append_shift none,
      ← Reader.after_run, ← Reader.after_ended, Reader.result_after]
    simp [Reader.after, read]

end Read

/-! ## Documents -/

/-- A text that another one may stand behind: its last line is over and all of it is known, what it declares ends in it,
and no namespace of it owns the rest. -/
structure Complete (path : Path) (text : String) : Prop where
  newline : text.toList.getLast? = some '\n'
  known : ∀ t ∈ Token.scan text, t.kind ≠ .unknown
  ends : EndsItem (Token.solid (Token.scan text))
  closed : ∀ d ∈ (parse path text).diagnostics, d.code ≠ some "Q0002"
  ordinary : ∀ o ∈ openings ((Token.scan text).filter isSignificant), o.isFileScoped = false

theorem unknowns_shift (offset : Nat) (tokens : List Token) :
    unknowns (tokens.map (·.shift offset)) = (unknowns tokens).map (·.shift offset) := by
  rw [unknowns, Token.filter_map_shift fun _ _ => rfl, List.map_map, unknowns, List.map_map]
  rfl

namespace Complete

variable {path : Path} {a b : String}

theorem unknowns_eq (complete : Complete path a) : unknowns (Token.scan a) = [] := by
  rw [unknowns, List.map_eq_nil_iff, List.filter_eq_nil_iff]
  simpa using complete.known

theorem significant_eq (complete : Complete path a) :
    (Token.scan a).filter isSignificant = Token.solid (Token.scan a) := by
  apply List.filter_congr
  intro t mem
  simp [isSignificant, complete.known t mem]

theorem pendingBraces_eq (complete : Complete path a) (small : a.utf8ByteSize < UInt32.size) :
    pendingBraces ((Token.scan a).filter isSignificant) = [] := by
  have none : (parse path a).diagnostics.filter (·.code = some "Q0002") = [] := by
    rw [List.filter_eq_nil_iff]
    simpa using complete.closed
  have count := congrArg List.length (filter_unclosed_parse path small)
  rw [none, List.length_nil, List.length_map, List.rtake, List.length_drop] at count
  exact List.eq_nil_of_length_eq_zero (by omega)

theorem endsItem (complete : Complete path a) : EndsItem ((Token.scan a).filter isSignificant) := by
  rw [complete.significant_eq]
  exact complete.ends

/-- But for trivia, the tokens of the text behind are its own, further on. -/
theorem solid_append (complete : Complete path a) (small : (a ++ b).utf8ByteSize < UInt32.size) :
    Token.solid (Token.scan (a ++ b)) =
      Token.solid (Token.scan a) ++ (Token.solid (Token.scan b)).map (·.shift (byteLength a.toList)) := by
  have known := complete.known
  have sizes := String.utf8ByteSize_append (s := a) (t := b)
  have left : Token.scan a = Token.lex a := Token.scan_eq_lex (by omega)
  have right : Token.scan b = Token.lex b := Token.scan_eq_lex (by omega)
  rw [left] at known
  rw [Token.scan_eq_lex small, left, right]
  exact Token.solid_lex_append complete.newline known

theorem significant_append (complete : Complete path a) (small : (a ++ b).utf8ByteSize < UInt32.size) :
    (Token.scan (a ++ b)).filter isSignificant = (Token.scan a).filter isSignificant ++
      ((Token.scan b).filter isSignificant).map (·.shift (byteLength a.toList)) := by
  rw [← filter_isSignificant_solid, complete.solid_append small, List.filter_append,
    Token.filter_map_shift fun _ _ => rfl, filter_isSignificant_solid, filter_isSignificant_solid]

theorem unknowns_append (complete : Complete path a) (small : (a ++ b).utf8ByteSize < UInt32.size) :
    unknowns (Token.scan (a ++ b)) = (unknowns (Token.scan b)).map (·.shift (byteLength a.toList)) := by
  rw [← unknowns_solid, complete.solid_append small, Outline.unknowns_append, unknowns_solid, complete.unknowns_eq,
    List.nil_append, unknowns_shift, unknowns_solid]

/-- What is told of a complete text stays where it is told. -/
theorem diagnostic_eq (complete : Complete path a) (small : a.utf8ByteSize < UInt32.size) {p : Problem}
    (mem : p ∈ (read ((Token.scan a).filter isSignificant)).2) (b : String) :
    p.diagnostic path (.unbounded (a ++ b).toList) = p.diagnostic path (.unbounded a.toList) := by
  rw [read_eq_of_closed complete.endsItem (complete.pendingBraces_eq small) complete.ordinary,
    List.mem_reverse] at mem
  obtain ⟨t, t_mem, of⟩ := (Reader.mem_problems_run mem).resolve_left List.not_mem_nil
  have t_mem := List.mem_of_mem_filter t_mem
  have stop := Token.stop_le_of_scan a t t_mem
  have nonempty := (Token.ordered_scan small).nonempty t t_mem
  have place : (LineTable.unbounded (a ++ b).toList).span p.range = (LineTable.unbounded a.toList).span p.range := by
    rw [String.toList_append, of.range_eq, LineTable.span_left (by omega) stop]
  rw [Problem.diagnostic, place, Problem.diagnostic]

end Complete

/-- A complete text in front of any other, both together of less than four gigabytes: the items of the one, and then
those of the other further on; and the reports of both, those of the other further down. -/
theorem parse_append {path : Path} {a b : String} (complete : Complete path a)
    (small : (a ++ b).utf8ByteSize < UInt32.size) :
    (parse path (a ++ b)).tree.items =
        (parse path a).tree.items ++ (parse path b).tree.items.map (·.shift (byteLength a.toList)) ∧
      (parse path (a ++ b)).diagnostics.Perm
        ((parse path a).diagnostics ++ (parse path b).diagnostics.map (·.down (a.toList.count '\n'))) := by
  have sizes := String.utf8ByteSize_append (s := a) (t := b)
  have left : a.utf8ByteSize < UInt32.size := by omega
  have right : b.utf8ByteSize < UInt32.size := by omega
  have whole := read_append complete.endsItem (complete.pendingBraces_eq left) complete.ordinary (byteLength a.toList)
    ((Token.scan b).filter isSignificant)
  rw [← complete.significant_append small] at whole
  rw [parse_of_lt path small, parse_of_lt path left, parse_of_lt path right]
  refine ⟨congrArg Prod.fst whole, ?_⟩
  have told_left : (unknowns (Token.scan a) ++ (read ((Token.scan a).filter isSignificant)).2).map
        (·.diagnostic path (.unbounded a.toList)) =
      (read ((Token.scan a).filter isSignificant)).2.map (·.diagnostic path (.unbounded (a ++ b).toList)) := by
    rw [complete.unknowns_eq, List.nil_append]
    exact List.map_congr_left fun p mem => (complete.diagnostic_eq left mem b).symm
  have told_right : ((unknowns (Token.scan b) ++ (read ((Token.scan b).filter isSignificant)).2).map
        (·.diagnostic path (.unbounded b.toList))).map (·.down (a.toList.count '\n')) =
      ((unknowns (Token.scan b) ++ (read ((Token.scan b).filter isSignificant)).2).map
        (·.shift (byteLength a.toList))).map (·.diagnostic path (.unbounded (a ++ b).toList)) := by
    rw [List.map_map, List.map_map]
    exact List.map_congr_left fun p _ => (diagnostic_shift complete.newline path b p).symm
  rw [ofText_eq_unbounded small, ofText_eq_unbounded left, ofText_eq_unbounded right, told_left, told_right, whole,
    complete.unknowns_append small, ← List.map_append]
  apply List.Perm.map
  -- Only the unknown tokens of the text behind come before what is told of the one in front.
  rw [List.map_append]
  exact List.perm_append_comm_assoc ..

/-- A class with a function, and one closing brace more than there are blocks. -/
def stray : String := "class A \x7b fn f(); \x7d\n\x7d\n"

theorem parse_append_stray :
    Complete ⟨"a"⟩ stray ∧ (stray ++ "class B \x7b x \"").utf8ByteSize < UInt32.size ∧
      (parse ⟨"a"⟩ (stray ++ "class B \x7b x \"")).tree.items = (parse ⟨"a"⟩ stray).tree.items ++
        (parse ⟨"a"⟩ "class B \x7b x \"").tree.items.map (·.shift 22) ∧
      (parse ⟨"a"⟩ (stray ++ "class B \x7b x \"")).diagnostics.Perm ((parse ⟨"a"⟩ stray).diagnostics ++
        (parse ⟨"a"⟩ "class B \x7b x \"").diagnostics.map (·.down 2)) := by
  have complete : Complete ⟨"a"⟩ stray := by
    constructor
    · decide +kernel
    · decide +kernel
    · rw [EndsItem]
      decide +kernel
    · decide +kernel
    · decide +kernel
  have size : byteLength stray.toList = 22 ∧ stray.toList.count '\n' = 2 := by decide +kernel
  have small : (stray ++ "class B \x7b x \"").utf8ByteSize < UInt32.size := by decide +kernel
  have whole := parse_append complete small
  rw [size.1, size.2] at whole
  exact ⟨complete, small, whole⟩

/-- Neither text is large, but both together are, and then the one in front is not read. -/
theorem parse_append_ne :
    let a := "class A;\n"
    let b := spaces (UInt32.size - 1)
    Complete ⟨"a"⟩ a ∧ a.utf8ByteSize < UInt32.size ∧ b.utf8ByteSize < UInt32.size ∧
      (parse ⟨"a"⟩ (a ++ b)).tree.items ≠ (parse ⟨"a"⟩ a).tree.items ++
        (parse ⟨"a"⟩ b).tree.items.map (·.shift (byteLength a.toList)) := by
  intro a b
  have complete : Complete ⟨"a"⟩ a := by
    constructor
    · decide +kernel
    · decide +kernel
    · rw [EndsItem]
      decide +kernel
    · decide +kernel
    · decide +kernel
  have size : a.utf8ByteSize = 9 := by decide +kernel
  have size' : b.utf8ByteSize = UInt32.size - 1 := utf8ByteSize_spaces (UInt32.size - 1)
  have large : UInt32.size ≤ (a ++ b).utf8ByteSize := by
    rw [String.utf8ByteSize_append, size, size']
    decide
  have declared : (parse ⟨"a"⟩ a).tree.items ≠ [] := by decide +kernel
  refine ⟨complete, by rw [size]; decide, by rw [size']; decide, fun same => ?_⟩
  rw [parse_of_le ⟨"a"⟩ large] at same
  exact declared (List.append_eq_nil_iff.mp same.symm).1

end CodeWorkspace.Outline
