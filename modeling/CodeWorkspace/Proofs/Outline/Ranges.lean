import CodeWorkspace.Proofs.Outline.Depth
import CodeWorkspace.Proofs.Outline.Sizes
import CodeWorkspace.Proofs.Tree.Preorder
import Mathlib.Data.List.Basic

/-! Where declarations stand in the text: each within the one around it, behind that one's keyword, and clear of
the ones beside it. So the ranges alone tell the tree. -/
namespace CodeWorkspace

/-- More than the other range, and all of it. -/
def ByteRange.StrictlyContains (outer inner : ByteRange) : Prop :=
  outer.start ≤ inner.start ∧ inner.stop ≤ outer.stop ∧ outer ≠ inner

namespace Outline

def BeginsAt (tokens : List Token) (offset : Nat) : Prop :=
  ∃ t ∈ tokens, t.kind.isKeyword = true ∧ t.range.start = offset

def EndsAt (tokens : List Token) (offset : Nat) : Prop := ∃ t ∈ tokens, t.range.stop = offset

/-- Siblings between two offsets, one behind another, and so on below them. -/
inductive Laid (tokens : List Token) : Nat → List Node → Nat → Prop where
  | nil {start stop : Nat} (le : start ≤ stop) : Laid tokens start [] stop
  | cons {start stop : Nat} {n : Node} {rest : List Node} (behind : start ≤ n.range.start)
      (begins : BeginsAt tokens n.range.start) (ends : EndsAt tokens n.range.stop)
      (below : Laid tokens (n.range.start + 1) n.children n.range.stop)
      (beside : Laid tokens n.range.stop rest stop) : Laid tokens start (n :: rest) stop

namespace Laid

variable {tokens : List Token} {start stop : Nat} {ns : List Node}

theorem le (h : Laid tokens start ns stop) : start ≤ stop := by
  induction h with
  | nil le => exact le
  | cons behind _ _ _ _ below beside => omega

theorem mono {start' stop' : Nat} (h : Laid tokens start ns stop) (before : start' ≤ start)
    (after : stop ≤ stop') : Laid tokens start' ns stop' := by
  induction h generalizing start' with
  | nil le => exact .nil (by omega)
  | cons behind begins ends below _ _ ih =>
    exact .cons (Nat.le_trans before behind) begins ends below (ih (Nat.le_refl _) after)

theorem append {mid : Nat} {ms : List Node} (h : Laid tokens start ns mid) (h' : Laid tokens mid ms stop) :
    Laid tokens start (ns ++ ms) stop := by
  induction h with
  | nil le => exact h'.mono le (Nat.le_refl _)
  | cons behind begins ends below _ _ ih => exact .cons behind begins ends below (ih h')

end Laid

/-! ## What a reader holds -/

/-- An unfinished declaration between two offsets. -/
structure Header.Fits (h : Header) (tokens : List Token) (start stop : Nat) : Prop where
  behind : start ≤ h.start
  begins : BeginsAt tokens h.start
  ends : EndsAt tokens h.stop
  nonempty : h.start < h.stop
  within : h.stop ≤ stop

/-- An open list of items, the last first, and the declaration that is to receive it, if any. -/
abbrev Level := Option Header × List Node

def Level.Fits (tokens : List Token) (start stop : Nat) : Level → Prop
  | (none, items) => Laid tokens start items.reverse stop
  | (some h, items) => h.Fits tokens start stop ∧ Laid tokens (h.start + 1) items.reverse stop

def Standing (tokens : List Token) : List Level → Nat → Prop
  | [], _ => True
  -- The innermost level comes first. It begins where the outer ones have come to.
  | level :: outer, stop => ∃ start, Standing tokens outer start ∧ level.Fits tokens start stop

/-- Gives nodes, the last first, to the innermost level. -/
def receive (nodes : List Node) : List Level → List Level
  | [] => []
  | (owner, items) :: outer => (owner, nodes ++ items) :: outer

section Levels

variable {tokens : List Token} {start stop stop' : Nat} {h : Header} {owner : Option Header}
  {items nodes : List Node} {levels : List Level}

theorem Header.Fits.mono (fits : h.Fits tokens start stop) (le : stop ≤ stop') :
    h.Fits tokens start stop' :=
  { fits with within := Nat.le_trans fits.within le }

theorem Level.Fits.mono {level : Level} (fits : level.Fits tokens start stop) (le : stop ≤ stop') :
    level.Fits tokens start stop' := by
  obtain ⟨_ | h, items⟩ := level
  · exact Laid.mono fits (Nat.le_refl _) le
  · exact ⟨fits.1.mono le, fits.2.mono (Nat.le_refl _) le⟩

theorem Header.Fits.level (fits : h.Fits tokens start stop) : Level.Fits tokens start stop (some h, []) := by
  have := fits.nonempty
  have := fits.within
  exact ⟨fits, .nil (by omega)⟩

/-- A list that ends leaves to the one around it only what stands behind the items already there. -/
theorem Level.Fits.contents (fits : Level.Fits tokens start stop (owner, items)) (ends : EndsAt tokens stop) :
    Laid tokens start (contents owner items stop).reverse stop := by
  cases owner with
  | none => exact fits
  | some h => exact .cons fits.1.behind fits.1.begins ends fits.2 (.nil (Nat.le_refl _))

theorem Standing.mono (standing : Standing tokens levels stop) (le : stop ≤ stop') :
    Standing tokens levels stop' := by
  cases levels with
  | nil => trivial
  | cons level outer =>
    obtain ⟨start, outer, fits⟩ := standing
    exact ⟨start, outer, fits.mono le⟩

theorem Standing.receive (standing : Standing tokens levels start)
    (laid : Laid tokens start nodes.reverse stop) : Standing tokens (receive nodes levels) stop := by
  cases levels with
  | nil => trivial
  | cons level outer =>
    obtain ⟨owner, items⟩ := level
    obtain ⟨first, outer, fits⟩ := standing
    refine ⟨first, outer, ?_⟩
    cases owner with
    | none =>
      simp only [Level.Fits, List.reverse_append] at fits ⊢
      exact fits.append laid
    | some h =>
      simp only [Level.Fits, List.reverse_append] at fits ⊢
      exact ⟨fits.1.mono laid.le, fits.2.append laid⟩

theorem Standing.finish (standing : Standing tokens ((owner, items) :: levels) stop)
    (ends : EndsAt tokens stop) :
    Standing tokens (Outline.receive (contents owner items stop) levels) stop := by
  obtain ⟨start, outer, fits⟩ := standing
  exact outer.receive (fits.contents ends)

theorem Standing.close (standing : Standing tokens ((some h, []) :: levels) stop) :
    Standing tokens (Outline.receive (contents (some h) [] h.stop) levels) stop := by
  obtain ⟨start, outer, fits, -⟩ := standing
  have alone : h.Fits tokens start h.stop := { fits with within := Nat.le_refl _ }
  exact (outer.receive (alone.level.contents fits.ends)).mono fits.within

theorem Standing.goOn (standing : Standing tokens ((some h, []) :: levels) stop) (le : stop ≤ stop')
    (ends : EndsAt tokens stop') : Standing tokens ((some { h with stop := stop' }, []) :: levels) stop' := by
  obtain ⟨start, outer, fits, -⟩ := standing
  have := fits.nonempty
  have := fits.within
  exact ⟨start, outer, Header.Fits.level ⟨fits.behind, fits.begins, ends, by simp only; omega, Nat.le_refl _⟩⟩

end Levels

namespace Reader

/-- The lists that are open, the innermost first. -/
def levels (r : Reader) : List Level :=
  r.blocks.map (fun b => (b.owner, b.items)) ++
    r.scope.toList.map (fun (h, items) => (some h, items)) ++ [(none, r.items)]

/-- The list that the mode is about, if it is one of its own. -/
def awaited : Mode → List Level
  | .items => []
  | .header h => [(some h, [])]
  | .skipping owner _ _ => [(owner, [])]

variable {tokens : List Token} {r r' : Reader} {t : Token} {rest : List Token} {start stop : Nat}

@[simp] theorem levels_add (nodes : List Node) : (r.add nodes).levels = receive nodes r.levels := by
  unfold add
  split <;> simp_all [levels, receive]

theorem levels_finish (owner : Option Header) (items : List Node) (stop : Nat) :
    (r.finish owner items stop).levels = receive (contents owner items stop) r.levels := levels_add _

theorem levels_close (h : Header) : (r.close h).levels = receive (contents (some h) [] h.stop) r.levels :=
  levels_finish ..

theorem levels_opened (owner : Option Header) (brace : ByteRange) :
    awaited (r.opened owner brace).mode ++ (r.opened owner brace).levels = (owner, []) :: r.levels := by
  unfold opened
  split <;> rfl

/-- What a reader holds reaches up to this offset. -/
def Stands (tokens : List Token) (r : Reader) (stop : Nat) : Prop :=
  Standing tokens (awaited r.mode ++ r.levels) stop

/-! ## One step -/

theorem stands_opened {owner : Option Header} {brace : ByteRange}
    (standing : Standing tokens ((owner, []) :: r.levels) stop) :
    (r.opened owner brace).Stands tokens stop := by
  rw [Stands, levels_opened]
  exact standing

theorem stands_items (mode : r.mode = .items) (standing : Standing tokens r.levels stop) :
    r.Stands tokens stop := by
  rw [Stands, mode]
  exact standing

theorem stands_closed {h : Header} (standing : Standing tokens ((some h, []) :: r.levels) stop) :
    (r.close h).Stands tokens stop := by
  apply stands_items (mode_close ..)
  rw [levels_close]
  exact standing.close

/-- A token behind all that the reader holds. -/
structure Behind (tokens : List Token) (start : Nat) (t : Token) : Prop where
  mem : t ∈ tokens
  le : start ≤ t.range.start
  nonempty : t.range.start < t.range.stop

namespace Behind

theorem le_stop (at_ : Behind tokens start t) : start ≤ t.range.stop :=
  Nat.le_trans at_.le (Nat.le_of_lt at_.nonempty)

theorem ends (at_ : Behind tokens start t) : EndsAt tokens t.range.stop := ⟨t, at_.mem, rfl⟩

theorem header (at_ : Behind tokens start t) (keyword : t.kind.isKeyword = true) (kind : DeclKind)
    (name : Option String) :
    Header.Fits ⟨kind, name, t.range.start, t.range.stop⟩ tokens start t.range.stop where
  behind := at_.le
  begins := ⟨t, at_.mem, keyword, rfl⟩
  ends := at_.ends
  nonempty := at_.nonempty
  within := Nat.le_refl _

end Behind

theorem stands_item (at_ : Behind tokens start t) (move : ItemMoves r t rest r') (mode : r.mode = .items)
    (standing : Standing tokens r.levels start) : r'.Stands tokens t.range.stop := by
  cases move with
  | opens => exact stands_opened ⟨start, standing, .nil at_.le_stop⟩
  | unbalanced => exact stands_items mode (standing.mono at_.le_stop)
  | @closes b outer kind inside =>
    apply stands_items (by simp [mode])
    have levels : r.levels = (b.owner, b.items) :: { r with blocks := outer }.levels := by
      simp [Reader.levels, inside]
    rw [levels_finish]
    rw [levels] at standing
    exact (standing.mono at_.le_stop).finish at_.ends
  | named kind => exact ⟨start, standing, (at_.header (by simp [kind, TokenKind.isKeyword]) ..).level⟩
  | unnamed kind => exact ⟨start, standing, (at_.header (by simp [kind, TokenKind.isKeyword]) ..).level⟩
  | passes => exact stands_items mode (standing.mono at_.le_stop)

theorem stands_header {h : Header} (at_ : Behind tokens start t) (move : HeaderMoves r h t rest r')
    (standing : Standing tokens ((some h, []) :: r.levels) start) : r'.Stands tokens t.range.stop := by
  have longer := standing.goOn at_.le_stop at_.ends
  cases move with
  | opens => exact stands_opened (standing.mono at_.le_stop)
  | owns kind outside first =>
    apply stands_items rfl
    simpa [levels, outside, first] using longer
  | ends => exact stands_closed longer
  | leaves move =>
    apply stands_item at_ move (mode_close ..)
    rw [levels_close]
    exact standing.close
  | goesOn => exact longer

theorem stands_skipping {owner : Option Header} {brace : ByteRange} {inner : Nat}
    (at_ : Behind tokens start t) (move : SkipMoves r owner brace t inner r')
    (mode : r.mode = .skipping owner brace inner)
    (standing : Standing tokens ((owner, []) :: r.levels) start) : r'.Stands tokens t.range.stop := by
  have longer := standing.mono at_.le_stop
  cases move with
  | opens => exact longer
  | closes => exact longer
  | ends =>
    apply stands_items (mode_finish ..)
    rw [levels_finish]
    exact longer.finish at_.ends
  | passes =>
    rw [Stands, mode]
    exact longer

theorem stands_step (at_ : Behind tokens start t) (stands : r.Stands tokens start) (rest : List Token) :
    (r.step t rest).Stands tokens t.range.stop := by
  unfold Stands at stands
  cases moves_step r t rest with
  | item mode move =>
    rw [mode] at stands
    exact stands_item at_ move mode stands
  | header mode move =>
    rw [mode] at stands
    exact stands_header at_ move stands
  | skipping mode move =>
    rw [mode] at stands
    exact stands_skipping at_ move mode stands

/-! ## Whole runs -/

theorem stands_run (stands : r.Stands tokens start) (mem : ∀ t ∈ rest, t ∈ tokens)
    (ordered : Token.Ordered start rest) (before : start ≤ stop) (within : ∀ t ∈ rest, t.range.stop ≤ stop) :
    (r.run rest).Stands tokens stop := by
  induction rest generalizing r start with
  | nil => exact stands.mono before
  | cons t rest ih =>
    obtain ⟨behind, nonempty, ordered⟩ := ordered
    have at_ : Behind tokens start t := ⟨mem t List.mem_cons_self, behind, nonempty⟩
    exact ih (stands_step at_ stands rest) (fun u hu => mem u (List.mem_cons_of_mem _ hu)) ordered
      (within t List.mem_cons_self) fun u hu => within u (List.mem_cons_of_mem _ hu)

theorem standing_unwind (ends : EndsAt tokens stop) {blocks : List Block} {outer : List Level}
    {inside : List Node} (standing : Standing tokens (blocks.map (fun b => (b.owner, b.items)) ++ outer) start)
    (laid : Laid tokens start inside.reverse stop) :
    Standing tokens (receive (unwind stop blocks inside) outer) stop := by
  induction blocks generalizing inside start with
  | nil => exact standing.receive laid
  | cons b blocks ih =>
    obtain ⟨first, standing, fits⟩ := standing.receive laid
    exact ih standing (fits.contents ends)

theorem laid_result (ends : EndsAt tokens stop) (outside : r.blocks = [])
    (standing : Standing tokens r.levels stop) : Laid tokens 0 (r.result stop) stop := by
  unfold result
  split
  · next none =>
    simp only [levels, outside, none] at standing
    obtain ⟨start, -, fits⟩ := standing
    have laid : Laid tokens start r.items.reverse stop := fits
    exact laid.mono (Nat.zero_le _) (Nat.le_refl _)
  · next h items owned =>
    simp only [levels, outside, owned] at standing
    obtain ⟨mid, ⟨start, -, before⟩, fits⟩ := standing
    have laid : Laid tokens start r.items.reverse mid := before
    have owner := fits.contents ends
    rw [Nat.max_eq_right fits.1.within, List.reverse_cons]
    exact (laid.append owner).mono (Nat.zero_le _) (Nat.le_refl _)

theorem laid_ended (ends : EndsAt tokens stop) (stands : r.Stands tokens stop) :
    Laid tokens 0 ((r.ended stop).result stop) stop := by
  -- The list that the mode is about ends first, then the blocks do.
  have done (r : Reader) (standing : Standing tokens r.levels stop) :
      Laid tokens 0 ((Reader.add { r with
        blocks := []
        problems := (r.blocks.map fun b => .unclosed b.brace).reverse ++ r.problems }
        (unwind stop r.blocks [])).result stop) stop := by
    apply laid_result ends (List.eq_nil_of_length_eq_zero (by simp))
    rw [levels_add]
    refine standing_unwind ends ?_ (.nil (Nat.le_refl stop))
    simpa [levels] using standing
  unfold Stands at stands
  unfold ended
  cases mode : r.mode with
  | items =>
    rw [mode] at stands
    exact done r stands
  | header h =>
    rw [mode] at stands
    apply done
    rw [levels_close]
    exact stands.close
  | skipping owner brace inner =>
    rw [mode] at stands
    apply done
    rw [levels_finish]
    exact stands.finish ends

end Reader

/-! ## What the ranges tell -/

/-- Each sibling ends before the next one begins. -/
def InOrder (ns : List Node) : Prop := ns.IsChain fun n next => n.range.stop ≤ next.range.start

/-- A node between two offsets, with its descendants. -/
structure Placed (tokens : List Token) (start stop : Nat) (n : Node) : Prop where
  behind : start ≤ n.range.start
  within : n.range.stop ≤ stop
  begins : BeginsAt tokens n.range.start
  ends : EndsAt tokens n.range.stop
  below : Laid tokens (n.range.start + 1) n.children n.range.stop

namespace Laid

variable {tokens : List Token} {start stop : Nat} {ns : List Node} {a n : Node}

theorem placed (h : Laid tokens start ns stop) (mem : n ∈ Node.preorderAll ns) :
    Placed tokens start stop n := by
  induction h with
  | nil => simp at mem
  | cons behind begins ends below beside inner outer =>
    have := below.le
    have := beside.le
    simp only [Node.preorderAll_cons, List.mem_cons, List.mem_append] at mem
    rcases mem with rfl | mem | mem
    · exact ⟨behind, beside.le, begins, ends, below⟩
    · have := inner mem
      exact { this with
        behind := by have := this.behind; omega
        within := by have := this.within; omega }
    · have := outer mem
      exact { this with behind := by have := this.behind; omega }

theorem inOrder (h : Laid tokens start ns stop) : InOrder ns := by
  induction h with
  | nil => exact .nil
  | @cons _ _ n rest _ _ _ _ beside _ ih =>
    cases beside with
    | nil => exact .singleton n
    | cons behind => exact .cons_cons behind ih

theorem pairwise_start (h : Laid tokens start ns stop) :
    (Node.preorderAll ns).Pairwise fun n later => n.range.start < later.range.start := by
  induction h with
  | nil => simp
  | @cons _ _ n rest behind begins ends below beside inner outer =>
    have := below.le
    rw [Node.preorderAll_cons, List.pairwise_cons, List.pairwise_append]
    refine ⟨fun m mem => ?_, inner, outer, fun m mem later later_mem => ?_⟩
    · rcases List.mem_append.mp mem with mem | mem
      · exact (below.placed mem).behind
      · have := (beside.placed mem).behind
        omega
    · have := (below.placed mem).below.le
      have := (below.placed mem).within
      have := (beside.placed later_mem).behind
      omega

/-- Of two nodes one is in the other, or one ends before the other begins. -/
theorem compare (h : Laid tokens start ns stop) (a_mem : a ∈ Node.preorderAll ns)
    (n_mem : n ∈ Node.preorderAll ns) :
    a = n ∨ a.IsAbove n ∨ n.IsAbove a ∨ a.range.stop ≤ n.range.start ∨ n.range.stop ≤ a.range.start := by
  simp only [Node.isAbove_iff]
  induction h with
  | nil => simp at a_mem
  | cons behind begins ends below beside inner outer =>
    simp only [Node.preorderAll_cons, List.mem_cons, List.mem_append] at a_mem n_mem
    rcases a_mem with rfl | a_mem | a_mem <;> rcases n_mem with rfl | n_mem | n_mem
    · exact .inl rfl
    · exact .inr (.inl n_mem)
    · exact .inr (.inr (.inr (.inl (beside.placed n_mem).behind)))
    · exact .inr (.inr (.inl a_mem))
    · exact inner a_mem n_mem
    · have := (below.placed a_mem).within
      have := (beside.placed n_mem).behind
      exact .inr (.inr (.inr (.inl (by omega))))
    · exact .inr (.inr (.inr (.inr (beside.placed a_mem).behind)))
    · have := (below.placed n_mem).within
      have := (beside.placed a_mem).behind
      exact .inr (.inr (.inr (.inr (by omega))))
    · exact outer a_mem n_mem

theorem isAbove_range (h : Laid tokens start ns stop) (a_mem : a ∈ Node.preorderAll ns) (above : a.IsAbove n) :
    a.range.start < n.range.start ∧ n.range.stop ≤ a.range.stop := by
  have := (h.placed a_mem).below.placed (Node.isAbove_iff.mp above)
  exact ⟨this.behind, this.within⟩

theorem isAbove_iff (h : Laid tokens start ns stop) (a_mem : a ∈ Node.preorderAll ns)
    (n_mem : n ∈ Node.preorderAll ns) : a.IsAbove n ↔ a.range.StrictlyContains n.range := by
  constructor
  · intro above
    obtain ⟨behind, within⟩ := h.isAbove_range a_mem above
    refine ⟨Nat.le_of_lt behind, within, fun same => ?_⟩
    rw [same] at behind
    omega
  · rintro ⟨behind, within, differ⟩
    have a_nonempty := (h.placed a_mem).below.le
    have n_nonempty := (h.placed n_mem).below.le
    rcases h.compare a_mem n_mem with rfl | above | below | clear | clear
    · exact absurd rfl differ
    · exact above
    · have := (h.isAbove_range n_mem below).1
      omega
    · omega
    · omega

end Laid

/-! ## Documents -/

theorem stop_le_lastStop {start : Nat} {tokens : List Token} (ordered : Token.Ordered start tokens) :
    ∀ t ∈ tokens, t.range.stop ≤ lastStop tokens := by
  induction tokens generalizing start with
  | nil => simp
  | cons t rest ih =>
    obtain ⟨-, -, ordered⟩ := ordered
    have later := ih ordered
    cases rest with
    | nil => simp [lastStop]
    | cons u rest =>
      have last : lastStop (t :: u :: rest) = lastStop (u :: rest) := by simp [lastStop]
      rw [last, List.forall_mem_cons]
      have := later u List.mem_cons_self
      exact ⟨by have := ordered.1; have := ordered.2.1; omega, later⟩

theorem endsAt_lastStop {tokens : List Token} (some : tokens ≠ []) : EndsAt tokens (lastStop tokens) :=
  ⟨tokens.getLast some, List.getLast_mem some, by simp [lastStop, List.getLast?_eq_some_getLast some]⟩

theorem laid_read {tokens : List Token} (ordered : Token.Ordered 0 tokens) :
    Laid tokens 0 (read tokens).1 (lastStop tokens) := by
  by_cases none : tokens = []
  · subst none
    exact .nil (Nat.le_refl _)
  · have start : Reader.Stands tokens {} 0 := ⟨0, trivial, .nil (Nat.le_refl _)⟩
    have stands := Reader.stands_run start (fun _ => id) ordered (Nat.zero_le _) (stop_le_lastStop ordered)
    exact Reader.laid_ended (endsAt_lastStop none) stands

/-- No range of a document ends before it begins. Its nodes begin at keywords, end with tokens within the text, lie
behind their parents' beginnings and within them, clear of their siblings; so a node is above another just if its range is
larger and holds the other's. -/
theorem ranges_mirror_tree (path : Path) (text : String) :
    let tokens := (Token.scan text).filter isSignificant
    let tree := (parse path text).tree
    (∀ t ∈ Token.scan text, t.range.start ≤ t.range.stop ∧
        (text.utf8ByteSize < UInt32.size → t.range.start < t.range.stop)) ∧
      (∀ n ∈ tree.nodes,
        n.range.start < n.range.stop ∧
        BeginsAt tokens n.range.start ∧
        EndsAt tokens n.range.stop ∧
        n.range.stop ≤ byteLength text.toList ∧
        (∀ child ∈ n.children, n.range.start < child.range.start ∧ child.range.stop ≤ n.range.stop) ∧
        InOrder n.children) ∧
      InOrder tree.items ∧
      (tree.nodes.Pairwise fun n later => n.range.start < later.range.start) ∧
      ∀ a ∈ tree.nodes, ∀ n ∈ tree.nodes, a.IsAbove n ↔ a.range.StrictlyContains n.range := by
  intro tokens tree
  have forward : ∀ t ∈ Token.scan text, t.range.start ≤ t.range.stop ∧
      (text.utf8ByteSize < UInt32.size → t.range.start < t.range.stop) := fun t mem =>
    ⟨Token.start_le_stop_of_scan text t mem, fun small => (Token.ordered_scan small).nonempty t mem⟩
  rcases Nat.lt_or_ge text.utf8ByteSize UInt32.size with small | large
  · have items : tree.items = (read tokens).1 := items_parse path small
    have laid : Laid tokens 0 tree.items (lastStop tokens) := by
      rw [items]
      exact laid_read ((Token.ordered_scan small).filter isSignificant)
    have nodes : tree.nodes = Node.preorderAll tree.items := Tree.nodes_eq tree
    refine ⟨forward, fun n mem => ?_, laid.inOrder, ?_, fun a a_mem n n_mem => ?_⟩
    · rw [nodes] at mem
      have placed := laid.placed mem
      refine ⟨placed.below.le, placed.begins, placed.ends, ?_, fun child child_mem => ?_, placed.below.inOrder⟩
      · obtain ⟨t, t_mem, stop⟩ := placed.ends
        rw [← stop]
        exact Token.stop_le_of_scan text t (List.mem_of_mem_filter t_mem)
      · exact laid.isAbove_range mem (.single child_mem)
    · rw [nodes]
      exact laid.pairwise_start
    · rw [nodes] at a_mem n_mem
      exact laid.isAbove_iff a_mem n_mem
  · -- A large document has no nodes at all.
    have none : tree = ⟨[], 0⟩ := by rw [show tree = (parse path text).tree from rfl, parse_of_le path large]
    rw [none]
    exact ⟨forward, nofun, .nil, .nil, nofun⟩

end Outline
end CodeWorkspace
