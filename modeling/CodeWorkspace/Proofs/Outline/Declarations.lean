import CodeWorkspace.Proofs.Outline.Depth
import CodeWorkspace.Proofs.Outline.Sizes
import CodeWorkspace.Proofs.Tree.Preorder
import Mathlib.Data.List.Basic

/-! Which declarations a reader finds. It loses none, makes up none and keeps their order, wherever the blocks
around them begin and end: the named ones are those that a look at each token in turn announces. -/
namespace CodeWorkspace.Outline

/-- What is said of a declaration at its keyword. -/
structure Declared where
  kind : DeclKind
  name : Option String
  start : Nat
  deriving DecidableEq, Repr

def Header.declared (h : Header) : Declared := ⟨h.kind, h.name, h.start⟩

def declaredBy (n : Node) : Declared := ⟨n.kind, n.name, n.range.start⟩

def declaredIn (nodes : List Node) : List Declared := (Node.preorderAll nodes).map declaredBy

@[simp] theorem declaredIn_nil : declaredIn [] = [] := by simp [declaredIn]

@[simp] theorem declaredIn_append (ns ms : List Node) :
    declaredIn (ns ++ ms) = declaredIn ns ++ declaredIn ms := by simp [declaredIn]

@[simp] theorem declaredIn_node (h : Header) (stop : Nat) (children : List Node) :
    declaredIn [h.node stop children] = h.declared :: declaredIn children := by
  simp [declaredIn, declaredBy, Header.node, Header.declared]

/-! ## Looking at each token in turn -/

/-- The identifiers that follow, each behind a dot. -/
def dotted : List Token → List String
  | d :: i :: rest => if d.kind = .dot ∧ i.kind = .ident then i.text :: dotted rest else []
  | _ => []

/-- The named declaration that begins with the first of these tokens, given how many braces are open there. -/
def announcement? (depth : Nat) : List Token → Option Declared
  | t :: i :: rest =>
    match t.kind with
    | .keyword declares =>
      if depth ≤ nestingLimit ∧ i.kind = .ident then
        some ⟨declares, some (".".intercalate (i.text :: dotted rest)), t.range.start⟩
      else none
    | _ => none
  | _ => none

/-- All named declarations among the tokens, place by place. -/
def announcements (tokens : List Token) : List Declared :=
  (List.range tokens.length).filterMap fun i => announcement? (openBraces (tokens.take i)) (tokens.drop i)

theorem intercalate_dotted (first : String) (rest : List Token) :
    ".".intercalate (first :: dotted rest) = first ++ nameOf?.tailOf rest := by
  fun_induction dotted rest generalizing first with
  | case1 d i rest both ih => simp [nameOf?.tailOf, both, ih, String.append_assoc]
  | case2 d i rest other => simp [nameOf?.tailOf, other]
  | case3 tokens short => simp [nameOf?.tailOf]

section Announcement

variable {t : Token} {rest : List Token} {depth : Nat}

theorem announcement?_named {declares : DeclKind} (kind : t.kind = .keyword declares)
    (next : startsWithIdent rest = true) (le : depth ≤ nestingLimit) :
    announcement? depth (t :: rest) = some ⟨declares, nameOf? rest, t.range.start⟩ := by
  cases rest with
  | nil => cases next
  | cons i rest =>
    have ident : i.kind = .ident := by simpa [startsWithIdent] using next
    simp [announcement?, kind, ident, le, nameOf?, intercalate_dotted]

theorem announcement?_unnamed (unnamed : t.kind.isKeyword = true → startsWithIdent rest = false) :
    announcement? depth (t :: rest) = none := by
  cases rest with
  | nil => rfl
  | cons i rest =>
    dsimp only [announcement?]
    split
    · next kind =>
      have other : i.kind ≠ .ident := by simpa [startsWithIdent, kind, TokenKind.isKeyword] using unnamed
      exact if_neg fun both => other both.2
    · rfl

theorem announcement?_tooDeep (deep : ¬ depth ≤ nestingLimit) : announcement? depth (t :: rest) = none := by
  cases rest with
  | nil => rfl
  | cons i rest =>
    dsimp only [announcement?]
    split
    · exact if_neg fun both => deep both.1
    · rfl

end Announcement

def announcementsFrom (depth : Nat) (tokens : List Token) : List Declared :=
  (List.range tokens.length).filterMap fun i =>
    announcement? ((tokens.take i).foldl depthAfter depth) (tokens.drop i)

theorem announcementsFrom_cons (depth : Nat) (t : Token) (rest : List Token) :
    announcementsFrom depth (t :: rest) =
      (announcement? depth (t :: rest)).toList ++ announcementsFrom (depthAfter depth t) rest := by
  unfold announcementsFrom
  rw [List.length_cons, List.range_succ_eq_map, List.filterMap_cons, List.filterMap_map]
  cases found : announcement? depth (t :: rest) <;> simp [found, Function.comp_def]

theorem name_of_mem_announcements {tokens : List Token} (filled : ∀ t ∈ tokens, t.text ≠ "") {d : Declared}
    (mem : d ∈ announcements tokens) : d.name ≠ some "" := by
  obtain ⟨i, -, announced⟩ := List.mem_filterMap.mp mem
  have behind : ∀ t ∈ tokens.drop i, t.text ≠ "" := fun t mem => filled t (List.mem_of_mem_drop mem)
  unfold announcement? at announced
  split at announced
  · next t name rest tokens_eq =>
    have name_filled : name.text ≠ "" := behind name (by simp [tokens_eq])
    split at announced
    · split at announced
      · cases announced
        simp [intercalate_dotted, name_filled]
      · cases announced
    · cases announced
  · cases announced

/-! ## What a reader has found -/

/-- Whether a keyword is reported to have no name. -/
def Problem.isUnnamed : Problem → Bool
  | .unnamed _ => true
  | _ => false

def declaredOwner (owner : Option Header) : List Declared := owner.toList.map (·.declared)

@[simp] theorem declaredIn_contents (owner : Option Header) (items : List Node) (stop : Nat) :
    declaredIn (contents owner items stop).reverse = declaredOwner owner ++ declaredIn items.reverse := by
  cases owner <;> simp [contents, declaredOwner]

def declaredScope : Option (Header × List Node) → List Declared
  | none => []
  | some (h, items) => h.declared :: declaredIn items.reverse

def declaredBlocks : List Block → List Declared
  | [] => []
  | b :: outer => declaredBlocks outer ++ declaredOwner b.owner ++ declaredIn b.items.reverse

def Mode.declared : Mode → List Declared
  | .items => []
  | .header h => [h.declared]
  | .skipping owner _ _ => declaredOwner owner

namespace Reader

/-- The declarations so far whose keyword is not the last one. -/
def settled (r : Reader) : List Declared :=
  declaredIn r.items.reverse ++ declaredScope r.scope ++ declaredBlocks r.blocks

/-- The declarations so far, those that are not finished included. -/
def declared (r : Reader) : List Declared := r.settled ++ r.mode.declared

def unnamed (r : Reader) : Nat := r.problems.countP Problem.isUnnamed

variable {r r' : Reader} {t : Token} {rest : List Token} {depth : Nat}

@[simp] theorem settled_add (nodes : List Node) :
    (r.add nodes).settled = r.settled ++ declaredIn nodes.reverse := by
  unfold add
  split <;> simp_all [settled, declaredBlocks, declaredScope]

@[simp] theorem settled_finish (owner : Option Header) (items : List Node) (stop : Nat) :
    (r.finish owner items stop).settled = r.settled ++ (declaredOwner owner ++ declaredIn items.reverse) := by
  rw [finish, settled_add, declaredIn_contents]

@[simp] theorem settled_close (h : Header) : (r.close h).settled = r.settled ++ [h.declared] := by
  rw [close, settled_finish]
  simp [settled, declaredOwner]

theorem declared_opened (owner : Option Header) (brace : ByteRange) :
    (r.opened owner brace).declared = r.settled ++ declaredOwner owner := by
  unfold opened
  split <;> simp [declared, settled, declaredBlocks, Mode.declared, report]

theorem unnamed_opened (owner : Option Header) (brace : ByteRange) :
    (r.opened owner brace).unnamed = r.unnamed := by
  unfold opened
  split <;> simp [unnamed, report, Problem.isUnnamed]

/-! ## One step -/

/-- One reader comes out of the other and has found these declarations; as many as have no name are reported. -/
structure Finds (r r' : Reader) (new : List Declared) : Prop where
  declared : r'.declared = r.declared ++ new
  unnamed : r'.unnamed = r.unnamed + new.countP (·.name.isNone)

namespace Finds

theorem nothing (same : r'.declared = r.declared) (reported : r'.unnamed = r.unnamed) : Finds r r' [] :=
  ⟨by simp [same], by simp [reported]⟩

theorem trans {r'' : Reader} {new more : List Declared} (h : Finds r r' new) (h' : Finds r' r'' more) :
    Finds r r'' (new ++ more) where
  declared := by rw [h'.declared, h.declared, List.append_assoc]
  unnamed := by rw [h'.unnamed, h.unnamed, List.countP_append, Nat.add_assoc]

end Finds

/-- What one step finds is what a look at its token announces, unless it has no name. -/
def FindsAt (r r' : Reader) (depth : Nat) (tokens : List Token) : Prop :=
  ∃ new, Finds r r' new ∧ new.filter (·.name.isSome) = (announcement? depth tokens).toList

theorem findsAt_nothing (same : r'.declared = r.declared) (reported : r'.unnamed = r.unnamed)
    (none : announcement? depth (t :: rest) = none) : FindsAt r r' depth (t :: rest) :=
  ⟨[], .nothing same reported, by simp [none]⟩

theorem findsAt_item (move : ItemMoves r t rest r') (mode : r.mode = .items) (le : depth ≤ nestingLimit) :
    FindsAt r r' depth (t :: rest) := by
  have whole : r.declared = r.settled := by simp [Reader.declared, mode, Mode.declared]
  cases move with
  | opens kind =>
    apply findsAt_nothing
    · rw [declared_opened, whole]
      simp [declaredOwner]
    · exact unnamed_opened ..
    · exact announcement?_unnamed (by simp [kind, TokenKind.isKeyword])
  | unbalanced kind =>
    refine findsAt_nothing rfl ?_ (announcement?_unnamed (by simp [kind, TokenKind.isKeyword]))
    simp [unnamed, report, Problem.isUnnamed]
  | @closes b outer kind inside =>
    refine findsAt_nothing ?_ ?_ (announcement?_unnamed (by simp [kind, TokenKind.isKeyword]))
    · rw [whole, Reader.declared, settled_finish]
      simp [mode, Mode.declared, settled, inside, declaredBlocks]
    · simp [unnamed]
  | @named declares kind next =>
    refine ⟨[⟨declares, nameOf? rest, t.range.start⟩], ⟨?_, ?_⟩, ?_⟩
    · rw [whole]
      rfl
    · have : (nameOf? rest).isSome = true := by rw [isSome_nameOf?, next]
      simp [unnamed, Option.isSome_iff_ne_none.mp this]
    · have : (nameOf? rest).isSome = true := by rw [isSome_nameOf?, next]
      rw [announcement?_named kind next le]
      simp [this]
  | @unnamed declares kind next =>
    have none : nameOf? rest = none := by simpa [next] using isSome_nameOf? rest
    refine ⟨[⟨declares, nameOf? rest, t.range.start⟩], ⟨?_, ?_⟩, ?_⟩
    · rw [whole]
      rfl
    · simp [Reader.unnamed, report, List.countP_cons, Problem.isUnnamed, none]
    · rw [announcement?_unnamed fun _ => next]
      simp [none]
  | passes notOpen notClose modifier => exact findsAt_nothing rfl rfl (announcement?_unnamed modifier)

theorem findsAt_header {h : Header} (move : HeaderMoves r h t rest r') (mode : r.mode = .header h)
    (le : depth ≤ nestingLimit) : FindsAt r r' depth (t :: rest) := by
  have whole : r.declared = r.settled ++ [h.declared] := by simp [Reader.declared, mode, Mode.declared]
  cases move with
  | opens kind =>
    refine findsAt_nothing ?_ (unnamed_opened ..) (announcement?_unnamed (by simp [kind, TokenKind.isKeyword]))
    rw [declared_opened, whole]
    simp [declaredOwner]
  | owns kind outside first =>
    refine findsAt_nothing ?_ rfl (announcement?_unnamed (by simp [kind, TokenKind.isKeyword]))
    rw [whole]
    simp [Reader.declared, settled, outside, first, declaredBlocks, declaredScope, Mode.declared, Header.declared]
  | ends kind =>
    refine findsAt_nothing ?_ (by simp [unnamed]) (announcement?_unnamed (by simp [kind, TokenKind.isKeyword]))
    rw [whole, Reader.declared, settled_close]
    simp [Mode.declared, Header.declared]
  | leaves move =>
    -- The declaration is closed first; that alone finds nothing.
    have found : FindsAt (r.close h) r' depth (t :: rest) := findsAt_item move (by simp) le
    obtain ⟨new, finds, named⟩ := found
    have closed : Finds r (r.close h) [] := by
      refine .nothing ?_ (by simp [unnamed])
      rw [whole, Reader.declared, settled_close]
      simp [Mode.declared]
    exact ⟨new, closed.trans finds, named⟩
  | goesOn notOpen notClose unnamed =>
    refine findsAt_nothing ?_ rfl (announcement?_unnamed unnamed)
    rw [whole]
    rfl

theorem findsAt_skipping {owner : Option Header} {brace : ByteRange} {inner : Nat}
    (move : SkipMoves r owner brace t inner r') (mode : r.mode = .skipping owner brace inner)
    (deep : ¬ depth ≤ nestingLimit) : FindsAt r r' depth (t :: rest) := by
  have whole : r.declared = r.settled ++ declaredOwner owner := by
    simp [Reader.declared, mode, Mode.declared]
  have none : announcement? depth (t :: rest) = none := announcement?_tooDeep deep
  cases move with
  | opens => exact findsAt_nothing whole.symm rfl none
  | closes => exact findsAt_nothing whole.symm rfl none
  | ends =>
    refine findsAt_nothing ?_ (by simp [unnamed]) none
    rw [whole, Reader.declared, settled_finish]
    simp [settled, Mode.declared]
  | passes => exact findsAt_nothing rfl rfl none

theorem findsAt_step (at_ : r.AtDepth depth) (t : Token) (rest : List Token) :
    FindsAt r (r.step t rest) depth (t :: rest) := by
  have le := at_.le_limit_iff
  cases moves_step r t rest with
  | item mode move => exact findsAt_item move mode (le.mpr (by simp [mode, Mode.skipped]))
  | header mode move => exact findsAt_header move mode (le.mpr (by simp [mode, Mode.skipped]))
  | skipping mode move =>
    exact findsAt_skipping move mode fun small => by simp [mode, Mode.skipped] at le; omega

/-! ## Whole runs -/

theorem finds_run (at_ : r.AtDepth depth) (tokens : List Token) :
    ∃ new, Finds r (r.run tokens) new ∧ new.filter (·.name.isSome) = announcementsFrom depth tokens := by
  induction tokens generalizing r depth with
  | nil => exact ⟨[], .nothing rfl rfl, rfl⟩
  | cons t rest ih =>
    obtain ⟨new, finds, named⟩ := findsAt_step at_ t rest
    obtain ⟨more, finds', named'⟩ := ih (at_.step t rest)
    refine ⟨new ++ more, finds.trans finds', ?_⟩
    rw [List.filter_append, named, named', announcementsFrom_cons]

theorem declaredIn_unwind (stop : Nat) (blocks : List Block) (inside : List Node) :
    declaredIn (unwind stop blocks inside).reverse = declaredBlocks blocks ++ declaredIn inside.reverse := by
  induction blocks generalizing inside with
  | nil => simp [unwind, declaredBlocks]
  | cons b outer ih =>
    rw [unwind, ih, declaredIn_contents]
    simp [declaredBlocks]

theorem declaredIn_result (outside : r.blocks = []) (stop : Nat) :
    declaredIn (r.result stop) = r.settled := by
  unfold result
  split
  · next none => simp [settled, outside, none, declaredScope, declaredBlocks]
  · next h items owned =>
    rw [List.reverse_cons, declaredIn_append, declaredIn_node]
    simp [settled, outside, owned, declaredScope, declaredBlocks]

/-- The end of a document leaves a reader between declarations, with nothing lost. -/
private theorem settled_atEnd (r : Reader) (stop : Nat) :
    ∃ r' : Reader, r'.settled = r.declared ∧ r'.unnamed = r.unnamed ∧
      r.ended stop = Reader.add
        { r' with
          blocks := []
          problems := (r'.blocks.map fun b => .unclosed b.brace).reverse ++ r'.problems }
        (unwind stop r'.blocks []) := by
  unfold ended
  cases mode : r.mode with
  | items => exact ⟨r, by simp [Reader.declared, mode, Mode.declared], rfl, rfl⟩
  | header h =>
    exact ⟨r.close h, by simp [Reader.declared, mode, Mode.declared], by simp [unnamed], rfl⟩
  | skipping owner brace inner =>
    refine ⟨_, ?_, ?_, rfl⟩
    · rw [settled_finish, Reader.declared, mode]
      simp [settled, Mode.declared, report]
    · simp [unnamed, report, Problem.isUnnamed]

theorem declaredIn_ended (r : Reader) (stop : Nat) :
    declaredIn ((r.ended stop).result stop) = r.declared ∧ (r.ended stop).unnamed = r.unnamed := by
  obtain ⟨r', settled_eq, unnamed_eq, ended_eq⟩ := settled_atEnd r stop
  rw [ended_eq]
  constructor
  · rw [declaredIn_result, settled_add, declaredIn_unwind, ← settled_eq]
    · simp [settled, declaredBlocks]
    · exact List.eq_nil_of_length_eq_zero (by simp)
  · rw [← unnamed_eq]
    simp [unnamed, List.countP_eq_zero, Problem.isUnnamed]

end Reader

/-! ## Documents -/

theorem declaredIn_read (tokens : List Token) :
    (declaredIn (read tokens).1).filter (·.name.isSome) = announcements tokens ∧
      (declaredIn (read tokens).1).countP (·.name.isNone) = (read tokens).2.countP Problem.isUnnamed := by
  obtain ⟨new, finds, named⟩ := Reader.finds_run .start tokens
  obtain ⟨declared_eq, unnamed_eq⟩ := Reader.declaredIn_ended (Reader.run {} tokens) (lastStop tokens)
  have found : declaredIn (read tokens).1 = new := by
    rw [read, declared_eq, finds.declared]
    simp [Reader.declared, Reader.settled, declaredScope, declaredBlocks, Mode.declared]
  constructor
  · rw [found, named]
    rfl
  · have reported := finds.unnamed
    rw [← unnamed_eq] at reported
    rw [found]
    simpa [read, Reader.unnamed] using reported.symm

/-- A declaration either has no name or one of at least one character. -/
theorem name_ne_empty_of_parse (path : Path) (text : String) :
    ∀ n ∈ (parse path text).tree.nodes, n.name ≠ some "" := by
  rcases Nat.lt_or_ge text.utf8ByteSize UInt32.size with small | large
  · rw [parse_of_lt path small]
    intro n mem empty
    rw [Tree.nodes_eq] at mem
    have declared : declaredBy n ∈ announcements ((Token.scan text).filter isSignificant) := by
      rw [← (declaredIn_read _).1, List.mem_filter]
      exact ⟨List.mem_map_of_mem mem, by simp [declaredBy, empty]⟩
    have filled : ∀ t ∈ (Token.scan text).filter isSignificant, t.text ≠ "" := fun t mem =>
      Token.text_ne_empty_of_scan text t (List.mem_of_mem_filter mem)
    exact name_of_mem_announcements filled declared empty
  · rw [parse_of_le path large]
    exact nofun

theorem code_eq_unnamed (p : Problem) : (p.code = "Q0003") = (p.isUnnamed = true) := by
  cases p <;> simp [Problem.code, Problem.isUnnamed]

/-- The named nodes of a document are what its tokens announce, in their order and each as its own tokens say;
the nodes without a name are as many as the reports of one. -/
theorem named_nodes_eq_announcements (path : Path) (text : String) (small : text.utf8ByteSize < UInt32.size) :
    ((parse path text).tree.nodes.map declaredBy).filter (·.name.isSome) =
        announcements ((Token.scan text).filter isSignificant) ∧
      (parse path text).tree.nodes.countP (·.name.isNone) =
        (parse path text).diagnostics.countP (·.code = some "Q0003") := by
  rw [parse_of_lt path small]
  obtain ⟨named, unnamed⟩ := declaredIn_read ((Token.scan text).filter isSignificant)
  refine ⟨by rw [Tree.nodes_eq]; exact named, ?_⟩
  have nodes : (Node.preorderAll (read ((Token.scan text).filter isSignificant)).1).countP (·.name.isNone) =
      (declaredIn (read ((Token.scan text).filter isSignificant)).1).countP (·.name.isNone) := by
    rw [declaredIn, List.countP_map]
    rfl
  have codes (ps : List Problem) : (ps.map (·.diagnostic path (LineTable.ofText text))).countP
      (·.code = some "Q0003") = ps.countP Problem.isUnnamed := by
    rw [List.countP_map]
    congr 1
    funext p
    simp [Problem.diagnostic, code_eq_unnamed]
  have others : (unknowns (Token.scan text)).countP Problem.isUnnamed = 0 := by
    simp [unknowns, List.countP_eq_zero, Problem.isUnnamed]
  rw [Tree.nodes_eq, nodes, unnamed, codes, List.countP_append, others, Nat.zero_add]

/-- Two items, the first one without a body. -/
theorem named_nodes_eq_announcements_twice :
    "class A class B \x7b \x7d".utf8ByteSize < UInt32.size ∧
      ((parse ⟨"a"⟩ "class A class B \x7b \x7d").tree.nodes.map declaredBy).filter (·.name.isSome) =
        [⟨.classDecl, some "A", 0⟩, ⟨.classDecl, some "B", 8⟩] := by
  have small : "class A class B \x7b \x7d".utf8ByteSize < UInt32.size := by decide +kernel
  refine ⟨small, (named_nodes_eq_announcements ⟨"a"⟩ _ small).1.trans ?_⟩
  decide +kernel

/-- What a large document declares is not read. -/
theorem named_nodes_ne_announcements :
    ((parse ⟨"a"⟩ (overlong "class A")).tree.nodes.map declaredBy).filter (·.name.isSome) ≠
      announcements ((Token.scan (overlong "class A")).filter isSignificant) := by
  have announced : announcements ((Token.scan ("class A" ++ "\n")).filter isSignificant) ≠ [] := by decide +kernel
  rw [parse_overlong, significant_overlong (by decide +kernel)]
  exact announced.symm

end CodeWorkspace.Outline
