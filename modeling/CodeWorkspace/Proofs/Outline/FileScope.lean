import CodeWorkspace.Proofs.Outline.Ownership
import CodeWorkspace.Proofs.Outline.Ranges
import CodeWorkspace.Proofs.Token.Boundary
import Mathlib.Data.List.Nodup

/-! Which namespace owns the rest of a document. It is the first that ends in a semicolon outside all braces, and all
that comes behind it stands below it; every other namespace that ends in a semicolon has nothing below it. -/
namespace CodeWorkspace.Outline
namespace Reader

variable {r r' : Reader} {t : Token} {rest : List Token} {depth : Nat} {inHeader : Bool} {h : Header}

/-! ## Nodes that are finished -/

def nodesIn (levels : List Level) : List Node := levels.flatMap fun level => Node.preorderAll level.2

/-- The nodes that a reader has finished. -/
def finished (r : Reader) : List Node := nodesIn r.levels

theorem mem_preorderAll_reverse {n : Node} {ns : List Node} :
    n ∈ Node.preorderAll ns.reverse ↔ n ∈ Node.preorderAll ns := by
  induction ns with
  | nil => simp
  | cons m rest ih =>
    simp only [List.reverse_cons, Node.preorderAll_append, Node.preorderAll_cons, Node.preorderAll_nil, List.append_nil,
      List.mem_append, List.mem_cons, ih]
    tauto

theorem mem_preorderAll_contents {n : Node} {items : List Node} (mem : n ∈ Node.preorderAll items)
    (owner : Option Header) (stop : Nat) : n ∈ Node.preorderAll (contents owner items stop) := by
  cases owner with
  | none => exact mem
  | some h => simp [contents, Header.node, mem_preorderAll_reverse, mem]

theorem levels_ne_nil (r : Reader) : r.levels ≠ [] := by simp [levels]

theorem mem_receive {n : Node} {levels : List Level} (some : levels ≠ []) (nodes : List Node) :
    n ∈ nodesIn (receive nodes levels) ↔ n ∈ Node.preorderAll nodes ∨ n ∈ nodesIn levels := by
  cases levels with
  | nil => exact absurd rfl some
  | cons level outer => simp [nodesIn, receive]

theorem mem_finished_finish {n : Node} (owner : Option Header) (items : List Node) (stop : Nat) :
    n ∈ (r.finish owner items stop).finished ↔
      n ∈ Node.preorderAll (contents owner items stop) ∨ n ∈ r.finished := by
  rw [finished, levels_finish, mem_receive r.levels_ne_nil]
  rfl

theorem mem_finished_close {n : Node} (h : Header) :
    n ∈ (r.close h).finished ↔ n = h.node h.stop [] ∨ n ∈ r.finished := by
  rw [close, mem_finished_finish]
  simp [contents, Header.node, finished, levels]

theorem finished_opened (owner : Option Header) (brace : ByteRange) : (r.opened owner brace).finished = r.finished := by
  unfold opened
  split <;> simp [finished, nodesIn, levels, report]

theorem mem_finished_item {n : Node} (mem : n ∈ r.finished) (move : ItemMoves r t rest r') : n ∈ r'.finished := by
  cases move with
  | opens => rwa [finished_opened]
  | @closes b outer kind inside =>
    have levels : r.levels = (b.owner, b.items) :: { r with blocks := outer }.levels := by
      simp [Reader.levels, inside]
    rw [finished, levels, nodesIn, List.flatMap_cons, List.mem_append] at mem
    rw [mem_finished_finish]
    rcases mem with mem | mem
    · exact .inl (mem_preorderAll_contents mem ..)
    · exact .inr mem
  | _ => exact mem

theorem mem_finished_header {n : Node} (mem : n ∈ r.finished) (move : HeaderMoves r h t rest r') :
    n ∈ r'.finished := by
  cases move with
  | opens => rwa [finished_opened]
  | owns kind outside first => simpa [finished, nodesIn, levels, outside, first] using mem
  | ends => exact (mem_finished_close _).mpr (.inr mem)
  | leaves move => exact mem_finished_item ((mem_finished_close _).mpr (.inr mem)) move
  | goesOn => exact mem

theorem mem_finished_skipping {n : Node} {owner : Option Header} {brace : ByteRange} {inner : Nat}
    (mem : n ∈ r.finished) (move : SkipMoves r owner brace t inner r') : n ∈ r'.finished := by
  cases move with
  | ends => exact (mem_finished_finish ..).mpr (.inr mem)
  | _ => exact mem

/-- What is finished stays. -/
theorem mem_finished_run {n : Node} (mem : n ∈ r.finished) (tokens : List Token) : n ∈ (r.run tokens).finished := by
  induction tokens generalizing r with
  | nil => exact mem
  | cons t rest ih =>
    apply ih
    cases moves_step r t rest with
    | item mode move => exact mem_finished_item mem move
    | header mode move => exact mem_finished_header mem move
    | skipping mode move => exact mem_finished_skipping mem move

theorem mem_nodesIn_unwind {n : Node} {stop : Nat} {blocks : List Block} {outer : List Level} {inside : List Node}
    (some : outer ≠ [])
    (mem : n ∈ Node.preorderAll inside ∨ n ∈ nodesIn (blocks.map (fun b => (b.owner, b.items)) ++ outer)) :
    n ∈ nodesIn (receive (unwind stop blocks inside) outer) := by
  induction blocks generalizing inside with
  | nil => exact (mem_receive some _).mpr mem
  | cons b blocks ih =>
    apply ih
    simp only [List.map_cons, List.cons_append, nodesIn, List.flatMap_cons, List.mem_append] at mem ⊢
    rcases mem with mem | mem | mem
    · exact .inl (mem_preorderAll_contents (by simp [mem]) ..)
    · exact .inl (mem_preorderAll_contents (by simp [mem]) ..)
    · exact .inr (by simpa using mem)

theorem mem_preorderAll_result {n : Node} (outside : r.blocks = []) (mem : n ∈ r.finished) (stop : Nat) :
    n ∈ Node.preorderAll (r.result stop) := by
  unfold result
  split
  · next none => simpa [finished, nodesIn, levels, outside, none, mem_preorderAll_reverse] using mem
  · next h items owned =>
    have mem : n ∈ Node.preorderAll items ∨ n ∈ Node.preorderAll r.items := by
      simpa [finished, nodesIn, levels, outside, owned] using mem
    rw [mem_preorderAll_reverse, Node.preorderAll_cons, List.mem_cons, List.mem_append, Header.node,
      mem_preorderAll_reverse]
    exact .inr mem

theorem mem_preorderAll_ended {n : Node} (mem : n ∈ r.finished) (stop : Nat) :
    n ∈ Node.preorderAll ((r.ended stop).result stop) := by
  -- The list that the mode is about ends first, then the blocks do.
  have done (r : Reader) (mem : n ∈ r.finished) : n ∈ Node.preorderAll ((Reader.add { r with
      blocks := []
      problems := (r.blocks.map fun b => .unclosed b.brace).reverse ++ r.problems }
      (unwind stop r.blocks [])).result stop) := by
    apply mem_preorderAll_result (List.eq_nil_of_length_eq_zero (by simp))
    rw [finished, levels_add]
    apply mem_nodesIn_unwind (levels_ne_nil _)
    exact .inr (by simpa [finished, levels] using mem)
  unfold ended
  cases r.mode with
  | items => exact done r mem
  | header h => exact done _ ((mem_finished_close h).mpr (.inr mem))
  | skipping owner brace inner => exact done _ ((mem_finished_finish ..).mpr (.inr mem))

/-! ## Namespaces that end in a semicolon -/

variable {o : Opening} {tokens : List Token}

/-- Behind a keyword that begins a declaration, the reader is in that declaration's header. -/
theorem header_of_opening (beside : r.Beside depth inHeader) (opens : opening? depth inHeader t rest = some o)
    (le : depth ≤ nestingLimit) :
    ∃ h, (r.step t rest).mode = .header h ∧ h.declared = o.declared ∧
      (r.step t rest).owner? = r.owner? ∧ ((r.step t rest).blocks = [] ↔ depth = 0) := by
  obtain ⟨beside', declared⟩ := beside.step t rest
  obtain ⟨o_eq, kind, -⟩ := of_opening? opens
  have depth_eq := beside'.at_.depth_eq
  rw [depthAfter_other depth (by simp [kind]) (by simp [kind])] at beside' depth_eq
  have open_ : (r.step t rest).mode.isHeader = true := by
    rw [beside'.header le]
    have single : inHeader = true ∨ startsWithKeyword rest = false := by
      by_contra other
      simp only [not_or, Bool.not_eq_true, Bool.not_eq_false] at other
      rw [opening?_modifier (fun _ => not_startsWithIdent_of_keyword other.2) fun _ => .inr other.2] at opens
      cases opens
    rcases single with header | single
    · simp [inHeaderAfter, kind, header]
    · simp [inHeaderAfter, kind, single]
  rw [opened?, if_pos le, opens] at declared
  cases mode : (r.step t rest).mode with
  | header h =>
    refine ⟨h, rfl, ?_, owner?_step (.inr (by simp [kind])) rest, ?_⟩
    · rw [Reader.declared, mode] at declared
      exact (List.append_inj' declared rfl).2 |> List.singleton_inj.mp
    · rw [Reader.depth, mode] at depth_eq
      rw [← List.length_eq_zero_iff, show (r.step t rest).blocks.length = depth from depth_eq]
  | _ => simp [mode, Mode.isHeader] at open_

/-- A namespace that ends in a semicolon becomes the owner of the document if it is outside all braces and there is no
owner yet, and else a node with nothing below it. -/
theorem run_statement (beside : r.Beside depth inHeader) (opens : opening? depth inHeader t rest = some o)
    (le : depth ≤ nestingLimit) (statement : o.isNamespaceStatement = true) :
    (depth = 0 ∧ r.owner? = none → ∃ h, (r.run (t :: rest)).owner? = some h ∧ h.declared = o.declared) ∧
      (¬ (depth = 0 ∧ r.owner? = none) →
        ∃ n ∈ (r.run (t :: rest)).finished, declaredBy n = o.declared ∧ n.children = []) := by
  obtain ⟨h, mode, declared, owner_eq, outside⟩ := header_of_opening beside opens le
  simp only [Opening.isNamespaceStatement, Bool.and_eq_true, decide_eq_true_eq] at statement
  have declares : h.kind = .namespaceDecl := by
    have kinds : h.kind = o.declares := congrArg Declared.kind declared
    rw [kinds, statement.1]
  have reaches : reachesSemicolon rest = true := by
    have ends := statement.2
    rwa [(of_opening? opens).1] at ends
  obtain ⟨stop, behind, run_eq⟩ := run_header mode reaches
  rw [run, run_eq, settle]
  constructor
  · intro first
    rw [if_pos ⟨declares, outside.mpr first.1, owner_eq.trans first.2⟩]
    refine ⟨{ h with stop := stop }, ?_, declared⟩
    apply owner?_run
    rfl
  · intro other
    rw [if_neg fun first => other ⟨outside.mp first.2.1, owner_eq.symm.trans first.2.2⟩]
    exact ⟨_, mem_finished_run ((mem_finished_close _).mpr (.inl rfl)) behind, declared, rfl⟩

theorem owner?_run_of_find? (beside : r.Beside depth inHeader) (free : ¬ r.Owned tokens)
    (first : (openingsFrom depth inHeader tokens).find? (·.isFileScoped) = some o) :
    ∃ h, (r.run tokens).owner? = some h ∧ h.declared = o.declared := by
  induction tokens generalizing r depth inHeader with
  | nil => cases first
  | cons t rest ih =>
    have owned := owned_step beside t rest
    have none : r.owner? = none := by
      by_contra owner
      exact free (.inl owner)
    cases opens : opening? depth inHeader t rest with
    | none =>
      rw [openingsFrom, opens] at first
      exact ih (beside.step t rest).1 (by rw [owned]; simp [free, opens]) first
    | some o' =>
      rw [openingsFrom, opens, Option.toList_some, List.singleton_append, List.find?_cons] at first
      cases fileScoped : o'.isFileScoped with
      | false =>
        simp only [fileScoped] at first
        exact ih (beside.step t rest).1 (by rw [owned]; simp [free, opens, fileScoped]) first
      | true =>
        simp only [fileScoped, Option.some.injEq] at first
        subst first
        simp only [Opening.isFileScoped, Bool.and_eq_true, decide_eq_true_eq] at fileScoped
        have outside : depth = 0 := by rw [← fileScoped.2, (of_opening? opens).1]
        exact (run_statement beside opens (by omega) fileScoped.1).1 ⟨outside, none⟩

theorem exists_finished_of_other (beside : r.Beside depth inHeader) (mem : o ∈ openingsFrom depth inHeader tokens)
    (statement : o.isNamespaceStatement = true) (le : o.depth ≤ nestingLimit)
    (other : ¬ r.Owned tokens → (openingsFrom depth inHeader tokens).find? (·.isFileScoped) ≠ some o) :
    ∃ n ∈ (r.run tokens).finished, declaredBy n = o.declared ∧ n.children = [] := by
  induction tokens generalizing r depth inHeader with
  | nil => cases mem
  | cons t rest ih =>
    have owned := owned_step beside t rest
    rw [openingsFrom] at mem other
    rcases List.mem_append.mp mem with here | later
    · have opens : opening? depth inHeader t rest = some o := by simpa using here
      obtain ⟨o_eq, kind, named⟩ := of_opening? opens
      have depth_eq : o.depth = depth := by rw [o_eq]
      apply (run_statement beside opens (by omega) statement).2
      rintro ⟨outside, none⟩
      -- With a header open, a keyword that begins a declaration is no way to a semicolon.
      have free : ¬ r.Owned (t :: rest) := by
        rintro (owner | ⟨h, mode, -, -, reaches⟩)
        · exact owner none
        · have header : true = inHeader := by simpa [mode, Mode.isHeader] using beside.header (by omega)
          rw [reachesSemicolon_named (by simp [kind, TokenKind.isKeyword]) (named header.symm)] at reaches
          cases reaches
      have fileScoped : o.isFileScoped = true := by simp [Opening.isFileScoped, statement, depth_eq, outside]
      apply other free
      rw [opens, Option.toList_some, List.singleton_append]
      exact List.find?_cons_of_pos fileScoped
    · apply ih (beside.step t rest).1 later
      intro free
      rw [owned, not_or] at free
      have first := other free.1
      rw [List.find?_append] at first
      cases opens : opening? depth inHeader t rest with
      | none => simpa [opens] using first
      | some o' =>
        have ordinary : o'.isFileScoped = false := by simpa [opens] using free.2
        simpa [opens, ordinary] using first

end Reader

/-! ## Documents -/

theorem keywords_sublist (depth : Nat) (inHeader : Bool) (tokens : List Token) :
    ((openingsFrom depth inHeader tokens).map (·.keyword)).Sublist tokens := by
  induction tokens generalizing depth inHeader with
  | nil => exact .slnil
  | cons t rest ih =>
    rw [openingsFrom]
    cases opens : opening? depth inHeader t rest with
    | none => exact (ih ..).cons t
    | some o =>
      have keyword : o.keyword = t := by rw [(of_opening? opens).1]
      rw [Option.toList_some, List.singleton_append, List.map_cons, keyword]
      exact (ih ..).cons_cons t

theorem pairwise_start {start : Nat} {tokens : List Token} (ordered : Token.Ordered start tokens) :
    tokens.Pairwise fun t later => t.range.start < later.range.start := by
  induction tokens generalizing start with
  | nil => exact .nil
  | cons t rest ih =>
    obtain ⟨-, nonempty, ordered⟩ := ordered
    exact .cons (fun u mem => Nat.lt_of_lt_of_le nonempty (ordered.start_le u mem)) (ih ordered)

/-- No two declarations begin at the same place. -/
theorem nodup_start_openings {tokens : List Token} (ordered : Token.Ordered 0 tokens) :
    ((openings tokens).map (·.keyword.range.start)).Nodup := by
  have keywords := (pairwise_start ordered).sublist (keywords_sublist 0 false tokens)
  rw [List.pairwise_map] at keywords
  rw [List.Nodup, List.pairwise_map]
  exact keywords.imp Nat.ne_of_lt

theorem Laid.nodup_start {tokens : List Token} {start stop : Nat} {ns : List Node}
    (laid : Laid tokens start ns stop) : ((Node.preorderAll ns).map (·.range.start)).Nodup := by
  rw [List.Nodup, List.pairwise_map]
  exact laid.pairwise_start.imp Nat.ne_of_lt

theorem find?_statements (tokens : List Token) :
    ((openings tokens).filter (·.isNamespaceStatement)).find? (·.depth = 0) =
      (openings tokens).find? (·.isFileScoped) := by
  rw [List.find?_filter]
  congr 1
  funext o
  simp [Opening.isFileScoped]

/-- The owner of a document is its last item, and all nodes behind it are below it. -/
theorem items_read_of_owner {tokens : List Token} {h : Header}
    (owner : (Reader.run {} tokens).owner? = some h) :
    ∃ n front, (read tokens).1 = front ++ [n] ∧ declaredBy n = h.declared := by
  have same : ((Reader.run {} tokens).ended (lastStop tokens)).owner? = some h := by
    rw [← owner, Reader.ended, Reader.owner?_add]
    cases (Reader.run {} tokens).mode with
    | items => rfl
    | header h' => exact Reader.owner?_close h'
    | skipping owner brace inner => exact Reader.owner?_finish ..
  obtain ⟨⟨h', items⟩, owned, rfl⟩ := Option.map_eq_some_iff.mp same
  refine ⟨h'.node (max h'.stop (lastStop tokens)) items.reverse,
    ((Reader.run {} tokens).ended (lastStop tokens)).items.reverse, ?_, rfl⟩
  simp only [read, Reader.result, owned, List.reverse_cons]

/-- The nodes of a document are its declarations, each where its keyword is. The first namespace that ends in a semicolon
outside all braces is the last item of the document, and all nodes behind it are below it; no other namespace that
ends in a semicolon, wherever it is, has anything below it. -/
theorem first_file_scoped_owns_rest (path : Path) (text : String) (small : text.utf8ByteSize < UInt32.size) :
    let tokens := (Token.scan text).filter isSignificant
    let tree := (parse path text).tree
    let statements := (openings tokens).filter (·.isNamespaceStatement)
    let owner? := statements.find? (·.depth = 0)
    tree.nodes.map declaredBy = ((openings tokens).filter (·.depth ≤ nestingLimit)).map (·.declared) ∧
      (∀ o, owner? = some o → ∃ n, tree.items.getLast? = some n ∧ declaredBy n = o.declared ∧
        ∃ front behind, tree.nodes = front ++ n :: behind ∧ ∀ m ∈ behind, n.IsAbove m) ∧
      ∀ o ∈ statements, owner? ≠ some o →
        ∀ n ∈ tree.nodes, n.range.start = o.keyword.range.start → n.children = [] := by
  intro tokens tree statements owner?
  have items : tree.items = (read tokens).1 := items_parse path small
  have nodes : tree.nodes = Node.preorderAll (read tokens).1 := by rw [Tree.nodes_eq, items]
  have ordered : Token.Ordered 0 tokens := (Token.ordered_scan small).filter isSignificant
  have declared : tree.nodes.map declaredBy =
      ((openings tokens).filter (·.depth ≤ nestingLimit)).map (·.declared) := by
    rw [nodes, ← declaredIn_read_eq]
    rfl
  have start : ¬ Reader.Owned {} tokens := by simp [Reader.Owned, Reader.owner?]
  refine ⟨declared, fun o first => ?_, fun o mem other n n_mem same => ?_⟩
  · have first : (openings tokens).find? (·.isFileScoped) = some o := (find?_statements tokens).symm.trans first
    obtain ⟨h, owner, header⟩ := Reader.owner?_run_of_find? .start start first
    obtain ⟨n, front, read, node⟩ := items_read_of_owner owner
    refine ⟨n, ?_, node.trans header, Node.preorderAll front, Node.preorderAll n.children, ?_,
      fun m mem => Node.isAbove_iff.mpr mem⟩
    · rw [items, read, List.getLast?_concat]
    · rw [nodes, read, Node.preorderAll_append, Node.preorderAll_cons, Node.preorderAll_nil, List.append_nil]
  · obtain ⟨mem, statement⟩ := List.mem_filter.mp mem
    have le : o.depth ≤ nestingLimit := by
      have there : declaredBy n ∈ tree.nodes.map declaredBy := List.mem_map_of_mem n_mem
      rw [declared] at there
      obtain ⟨o', mem', declared'⟩ := List.mem_map.mp there
      obtain ⟨mem', le⟩ := List.mem_filter.mp mem'
      have starts : o'.keyword.range.start = n.range.start := congrArg Declared.start declared'
      obtain rfl : o' = o :=
        List.inj_on_of_nodup_map (nodup_start_openings ordered) mem' mem (starts.trans same)
      exact of_decide_eq_true le
    have first : (openings tokens).find? (·.isFileScoped) ≠ some o := (find?_statements tokens).symm ▸ other
    obtain ⟨n', finished, declared', leaf⟩ :=
      Reader.exists_finished_of_other .start mem statement le fun _ => first
    have n'_mem : n' ∈ Node.preorderAll (read tokens).1 :=
      Reader.mem_preorderAll_ended finished (lastStop tokens)
    have starts : n'.range.start = o.keyword.range.start := congrArg Declared.start declared'
    rw [nodes] at n_mem
    obtain rfl : n = n' :=
      List.inj_on_of_nodup_map (laid_read ordered).nodup_start n_mem n'_mem (same.trans starts.symm)
    exact leaf

/-- Four namespaces end in semicolons: one in a block, two outside all braces, one in a class. -/
def layered : String := "\x7b namespace T; \x7d namespace Core; namespace Sub; class C \x7b namespace In; \x7d"

theorem first_file_scoped_owns_rest_layered :
    let tokens := (Token.scan layered).filter isSignificant
    let tree := (parse ⟨"a"⟩ layered).tree
    let statements := (openings tokens).filter (·.isNamespaceStatement)
    layered.utf8ByteSize < UInt32.size ∧
    statements.map (·.declared.name) = [some "T", some "Core", some "Sub", some "In"] ∧
      ∃ o, statements.find? (·.depth = 0) = some o ∧ o.declared.name = some "Core" ∧
        (∃ n, tree.items.getLast? = some n ∧ declaredBy n = o.declared ∧
          ∃ front behind, tree.nodes = front ++ n :: behind ∧ ∀ m ∈ behind, n.IsAbove m) ∧
        ∀ other ∈ statements, some o ≠ some other →
          ∀ n ∈ tree.nodes, n.range.start = other.keyword.range.start → n.children = [] := by
  intro tokens tree statements
  have small : layered.utf8ByteSize < UInt32.size := by decide +kernel
  obtain ⟨-, owns, others⟩ := first_file_scoped_owns_rest ⟨"a"⟩ layered small
  have names : statements.map (·.declared.name) = [some "T", some "Core", some "Sub", some "In"] ∧
      (statements.find? (·.depth = 0)).map (·.declared.name) = some (some "Core") := by
    decide +kernel
  obtain ⟨o, first, name⟩ := Option.map_eq_some_iff.mp names.2
  exact ⟨small, names.1, o, first, name, owns o first, fun other mem differ => others other mem (first ▸ differ)⟩

/-- A large document has no items, and so none that owns the rest. -/
theorem first_file_scoped_unread :
    let statements :=
      (openings ((Token.scan (overlong "namespace N;")).filter isSignificant)).filter (·.isNamespaceStatement)
    (∃ o, statements.find? (·.depth = 0) = some o ∧ o.declared.name = some "N") ∧
      (parse ⟨"a"⟩ (overlong "namespace N;")).tree.items.getLast? = none := by
  intro statements
  have first : (statements.find? (·.depth = 0)).map (·.declared.name) = some (some "N") := by
    have tokens : (Token.scan (overlong "namespace N;")).filter isSignificant =
        (Token.scan ("namespace N;" ++ "\n")).filter isSignificant := significant_overlong (by decide +kernel)
    rw [show statements = ((openings _).filter (·.isNamespaceStatement)) from rfl, tokens]
    decide +kernel
  rw [parse_overlong]
  exact ⟨Option.map_eq_some_iff.mp first, rfl⟩

end CodeWorkspace.Outline
