import CodeWorkspace.Proofs.Outline.Descent
import CodeWorkspace.Proofs.Tree.Height

/-! How deep an outline nests. A descent that may open two lists more than there are levels of blocks never runs out of
them, and finds what a reader finds; where no namespace owns the rest of the document it needs one less. -/
namespace CodeWorkspace.Outline
namespace Descent

open Reader (ReadsOn)

variable {last fuel depth open_ : Nat} {inner : Lists} {r r' : Reader} {h : Header} {owner : Option Header}
  {brace : ByteRange} {owned : Bool} {t : Token} {tokens rest : List Token}

/-! ## Blocks that are skipped -/

theorem nodes_skip (last : Nat) (brace : ByteRange) (owned : Bool) (open_ : Nat) (tokens : List Token) :
    (skip last brace owned open_ tokens).nodes = [] ∧ (skip last brace owned open_ tokens).owned = owned := by
  fun_induction skip last brace owned open_ tokens with
  | case3 => exact ⟨rfl, rfl⟩
  | case1 => exact ⟨rfl, rfl⟩
  | _ => assumption

theorem readsOn_skip (last : Nat) (r : Reader) (owner : Option Header) (brace : ByteRange) (owned : Bool)
    (open_ : Nat) (tokens : List Token) :
    let l := skip last brace owned open_ tokens
    ReadsOn last { r with mode := .skipping owner brace open_ } tokens
      (({ r with mode := .items }.told l.problems).finish owner [] l.stop) l.rest := by
  have step (open_ : Nat) (t : Token) (rest : List Token) :
      ({ r with mode := .skipping owner brace open_ } : Reader).step t rest =
        { r with mode := .skipping owner brace open_ }.skippedToken owner brace open_ t := rfl
  fun_induction skip last brace owned open_ tokens with
  | case1 open_ =>
    apply ReadsOn.of_ended_eq
    · rw [Reader.ended_skipping rfl]
      rfl
    · rw [Reader.owner?_finish]
      rfl
  | case2 open_ t rest kind ih =>
    apply ReadsOn.step (step ..)
    simp only [Reader.skippedToken, kind]
    exact ih
  | case3 t rest kind =>
    apply ReadsOn.step (step ..)
    simp only [Reader.skippedToken, kind]
    exact .refl
  | case4 t rest open_ kind ih =>
    apply ReadsOn.step (step ..)
    simp only [Reader.skippedToken, kind]
    exact ih
  | case5 open_ t rest notOpen notEnd notClose ih =>
    have passes (r : Reader) : r.skippedToken owner brace open_ t = r := by
      unfold Reader.skippedToken
      split
      · next kind => exact absurd kind notOpen
      · next kind => exact (notEnd kind rfl).elim
      · next kind => exact (notClose _ kind rfl).elim
      · rfl
    apply ReadsOn.step (step ..)
    rw [passes]
    exact ih

/-! ## Lists that agree with a reader -/

/-- A list holds what the reader finds until it comes to another state. -/
structure Agrees (last : Nat) (r : Reader) (owned : Bool) (height : Nat) (l : Listing tokens) (r' : Reader) :
    Prop where
  on : ReadsOn last r tokens r' l.rest
  owned : l.rest ≠ [] → l.owned = owned
  height : Node.heightAll l.nodes ≤ height

namespace Agrees

variable {height : Nat} {r'' : Reader}

theorem mono {more : Nat} {l : Listing tokens} (agrees : Agrees last r owned height l r') (le : height ≤ more) :
    Agrees last r owned more l r' :=
  { agrees with height := Nat.le_trans agrees.height le }

theorem behind {l : Listing rest} (step : r.step t rest = r') (agrees : Agrees last r' owned height l r'') :
    Agrees last r owned height (l.behind t) r'' :=
  ⟨.step step agrees.on, agrees.owned, agrees.height⟩

theorem telling {l : Listing tokens} (agrees : Agrees last r owned height l r') (problems : List Problem) :
    Agrees last r owned height (l.telling problems) r' := ⟨agrees.on, agrees.owned, agrees.height⟩

theorem within {l : Listing tokens} (agrees : Agrees last r owned height l r') (h : Header) (stop : Nat) :
    Agrees last r owned (height + 1) (l.within h stop) r' where
  on := agrees.on
  owned := agrees.owned
  height := by simpa [Listing.within, Header.node] using agrees.height

theorem leaf {h : Header} (on : ReadsOn last r tokens r' tokens) :
    Agrees last r owned (height + 1) (.leaf h owned tokens) r' :=
  ⟨on, fun _ => rfl, by simp [Listing.leaf, Header.node]⟩

/-- A token that changes nothing but what is told. -/
theorem single {problems : List Problem} (step : r.step t rest = r.told problems) :
    Agrees last r owned height (.single t problems owned rest) (r.take (.single t problems owned rest)) := by
  have taken : r.take (.single t problems owned rest) = r.told problems := Reader.add_nil _
  rw [taken]
  exact ⟨.step step .refl, fun _ => rfl, Nat.zero_le _⟩

theorem andThen {l : Listing tokens} {more : Listing l.rest} (agrees : Agrees last r owned height l r')
    (further : Agrees last r' l.owned height more r'') : Agrees last r owned height (l.andThen more) r'' where
  on := agrees.on.trans further.on
  owned some := by
    have left : l.rest ≠ [] := by
      intro none
      exact some (List.eq_nil_of_length_eq_zero (Nat.le_zero.mp (more.le.trans_eq (congrArg List.length none))))
    rw [← agrees.owned left]
    exact further.owned some
  height := by
    have := agrees.height
    have := further.height
    simp only [Listing.andThen, Node.heightAll_append]
    omega

end Agrees

/-- The list around a reader is read to its end, and outside all blocks that is the end of the document. -/
def Completes (last height : Nat) (r : Reader) (owned : Bool) (found : Option (Listing tokens)) : Prop :=
  ∃ l, found = some l ∧ Agrees last r owned height l ((r.take l).leave l.stop) ∧
    (r.blocks = [] → l.rest = [] ∧ l.stop = last)

theorem Completes.andThen {height : Nat} {l : Listing tokens} {found : Option (Listing l.rest)}
    (agrees : Agrees last r owned height l (r.take l)) (further : Completes last height (r.take l) l.owned found) :
    Completes last height r owned (found.map l.andThen) := by
  obtain ⟨more, rfl, agrees', whole⟩ := further
  rw [← Reader.take_andThen] at agrees'
  refine ⟨l.andThen more, rfl, agrees.andThen agrees', fun outside => whole ?_⟩
  exact List.eq_nil_of_length_eq_zero (by simp [outside])

/-- Enough fuel to read the items around a reader, with one more list for a namespace that is still to own the rest. -/
structure Ready (fuel : Nat) (r : Reader) (owned : Bool) (tokens : List Token) : Prop where
  mode : r.mode = .items
  blocks : r.blocks.length ≤ nestingLimit
  owned : tokens ≠ [] → owned = r.owner?.isSome
  enough : nestingLimit < fuel + r.blocks.length
  spare : r.blocks = [] → r.owner? = none → (r.run tokens).owner? ≠ none → nestingLimit + 1 < fuel

namespace Ready

theorem owned_eq (ready : Ready fuel r owned (t :: rest)) : owned = r.owner?.isSome :=
  ready.owned (List.cons_ne_nil t rest)

theorem step_eq (ready : Ready fuel r owned tokens) (t : Token) (rest : List Token) :
    r.step t rest = r.item t rest := by
  rw [Reader.step, ready.mode]

theorem reading_eq (ready : Ready fuel r owned tokens) : { r with mode := .items } = r := by rw [← ready.mode]

theorem further {height : Nat} {l : Listing (t :: rest)} (ready : Ready fuel r owned (t :: rest))
    (agrees : Agrees last r owned height l (r.take l)) : Ready fuel (r.take l) l.owned l.rest where
  mode := by simp [ready.mode]
  blocks := by simp [ready.blocks]
  owned some := by
    rw [agrees.owned some, Reader.owner?_take]
    exact ready.owned_eq
  enough := by simp [ready.enough]
  spare outside free owner := by
    rw [← List.length_eq_zero_iff, Reader.length_blocks_take, List.length_eq_zero_iff] at outside
    rw [Reader.owner?_take] at free
    exact ready.spare outside free (agrees.on.owner owner)

end Ready

/-- So much fuel is enough for these lists. -/
def Works (last fuel : Nat) (lists : Lists) : Prop :=
  ∀ {r : Reader} {owned : Bool} {tokens : List Token}, Ready fuel r owned tokens →
    Completes last fuel r owned (lists r.blocks.length (r.blocks.map (·.brace)).head? owned tokens)

/-! ## Blocks and declarations -/

theorem block_agrees (works : Works last fuel inner) (owned_eq : owned = r.owner?.isSome)
    (enough : nestingLimit ≤ fuel + r.blocks.length) (owner : Option Header) (brace : ByteRange)
    (tokens : List Token) :
    ∃ l, block last inner r.blocks.length brace owned tokens = some l ∧
      Agrees last (r.opened owner brace) owned fuel l
        (({ r with mode := .items }.told l.problems).finish owner l.nodes.reverse l.stop) := by
  unfold block Reader.opened
  split
  · next lt =>
    have ready : Ready fuel { r with blocks := ⟨owner, brace, []⟩ :: r.blocks, mode := .items } owned tokens :=
      ⟨rfl, lt, fun _ => owned_eq, by simp only [List.length_cons]; omega, fun outside => by cases outside⟩
    obtain ⟨l, found, agrees, -⟩ := works ready
    rw [Reader.leave_take_opened] at agrees
    exact ⟨l, found, agrees⟩
  · obtain ⟨nodes, owned_eq⟩ := nodes_skip last brace owned 0 tokens
    have on := readsOn_skip last (r.report (.tooDeep brace)) owner brace owned 0 tokens
    have told (problems : List Problem) : Reader.told { r with mode := .items } ([.tooDeep brace] ++ problems) =
        Reader.told { r.report (.tooDeep brace) with mode := .items } problems :=
      (Reader.told_told ..).symm
    refine ⟨_, rfl, ?_, fun _ => owned_eq, ?_⟩
    · simp only [Listing.telling, told, nodes, List.reverse_nil]
      exact on
    · simp [Listing.telling, nodes]

/-- Behind the semicolon of a namespace that comes to own the document, one more list is read to the end. -/
theorem owner_agrees (works : Works last fuel inner) (mode : r.mode = .header h) (kind : t.kind = .semicolon)
    (owns : h.kind = .namespaceDecl ∧ r.blocks = [] ∧ r.owner? = none)
    (spare : (r.run (t :: rest)).owner? ≠ none → nestingLimit < fuel) :
    ∃ l, inner 0 none true rest = some l ∧
      Agrees last r owned (fuel + 1)
        ((l.within { h with stop := t.range.stop } (max t.range.stop l.stop)).behind t)
        ({ r with mode := .items }.take
          ((l.within { h with stop := t.range.stop } (max t.range.stop l.stop)).behind t)) := by
  obtain ⟨items, scope, blocks, mode', problems⟩ := r
  obtain ⟨declares, rfl, free⟩ := owns
  obtain rfl : scope = none := by simpa [Reader.owner?] using free
  subst mode
  have step : Reader.step ⟨items, none, [], .header h, problems⟩ t rest =
      ⟨items, some ({ h with stop := t.range.stop }, []), [], .items, problems⟩ := by
    simp [Reader.step, Reader.headerToken, kind, declares]
  rw [Reader.run, step] at spare
  have enough : nestingLimit < fuel := spare (by rw [Reader.owner?_run rfl]; exact Option.some_ne_none _)
  have ready : Ready fuel ⟨items, some ({ h with stop := t.range.stop }, []), [], .items, problems⟩ true rest :=
    ⟨rfl, Nat.zero_le _, fun _ => rfl, enough, fun _ none => by cases none⟩
  obtain ⟨l, found, agrees, whole⟩ := works ready
  obtain ⟨read, stop⟩ := whole rfl
  have height := ((agrees.within { h with stop := t.range.stop } (max t.range.stop l.stop)).behind step).height
  refine ⟨l, found, .step step (agrees.on.trans ?_), fun more => absurd read more, height⟩
  simp only [Listing.behind, Listing.within, read, stop]
  constructor
  · simp [Reader.outcome, Reader.run, Reader.take, Reader.told, Reader.add, Reader.leave, Reader.ended, Reader.result,
      Reader.unwind]
  · intro owner
    rw [Reader.run, Reader.owner?_take] at owner
    exact absurd rfl owner

theorem header_agrees (works : Works last fuel inner) (mode : r.mode = .header h)
    (le : r.blocks.length ≤ nestingLimit) (owned_eq : owned = r.owner?.isSome)
    (enough : nestingLimit ≤ fuel + r.blocks.length)
    (spare : r.blocks = [] → r.owner? = none → (r.run tokens).owner? ≠ none → nestingLimit < fuel) :
    ∃ l, header last inner r.blocks.length h owned tokens = some l ∧
      Agrees last r owned (fuel + 1) l ({ r with mode := .items }.take l) := by
  induction tokens generalizing r h with
  | nil =>
    exact ⟨_, rfl, .leaf (.of_ended_eq (Reader.ended_header mode) (Reader.owner?_close h).symm)⟩
  | cons t rest ih =>
    have step : r.step t rest = r.headerToken h t rest := by rw [Reader.step, mode]
    -- The declaration is closed, and the token still to be read.
    have leaves (same : r.headerToken h t rest = (r.close h).item t rest) :
        Agrees last r owned (fuel + 1) (.leaf h owned (t :: rest))
          ({ r with mode := .items }.take (.leaf h owned (t :: rest))) := by
      apply Agrees.leaf
      apply ReadsOn.of_step_eq
      rw [Reader.take_leaf, step, same, Reader.step, Reader.mode_close]
    have goesOn (same : r.headerToken h t rest = { r with mode := .header { h with stop := t.range.stop } }) :
        ∃ l, header last inner r.blocks.length { h with stop := t.range.stop } owned rest = some l ∧
          Agrees last r owned (fuel + 1) (l.behind t) ({ r with mode := .items }.take (l.behind t)) := by
      rw [same] at step
      rw [Reader.run, step] at spare
      obtain ⟨l, found, agrees⟩ := ih (r := { r with mode := .header { h with stop := t.range.stop } }) rfl le
        owned_eq enough spare
      exact ⟨l, found, agrees.behind step⟩
    cases kind : t.kind with
    | openBrace =>
      simp only [header, kind]
      obtain ⟨l, found, agrees⟩ := block_agrees works owned_eq enough (some h) t.range rest
      have opens : r.step t rest = r.opened (some h) t.range := by simp only [step, Reader.headerToken, kind]
      rw [← Reader.take_within] at agrees
      exact ⟨_, by rw [found]; rfl, (agrees.within h l.stop).behind opens⟩
    | semicolon =>
      simp only [header, kind]
      split
      · next owns =>
        have owns : h.kind = .namespaceDecl ∧ r.blocks = [] ∧ r.owner? = none := by simpa [owned_eq] using owns
        obtain ⟨l, found, agrees⟩ := owner_agrees works mode kind owns (spare owns.2.1 owns.2.2)
        exact ⟨_, by rw [found]; rfl, agrees⟩
      · next other =>
        have ends : r.step t rest = r.close { h with stop := t.range.stop } := by
          have other : ¬ (h.kind = .namespaceDecl ∧ r.blocks.isEmpty ∧ r.scope.isNone) := by
            simpa [owned_eq, Reader.owner?] using other
          simp only [step, Reader.headerToken, kind]
          exact if_neg other
        exact ⟨_, rfl, (Agrees.leaf .refl).behind ends⟩
    | closeBrace =>
      simp only [header, kind]
      exact ⟨_, rfl, leaves (by simp only [Reader.headerToken, kind])⟩
    | keyword declares =>
      simp only [header, kind]
      split
      · next named =>
        exact ⟨_, rfl, leaves (by simp only [Reader.headerToken, kind, if_pos named])⟩
      · next other =>
        obtain ⟨l, found, agrees⟩ := goesOn (by simp only [Reader.headerToken, kind, if_neg other])
        exact ⟨_, by rw [found]; rfl, agrees⟩
    | _ =>
      simp only [header, kind]
      obtain ⟨l, found, agrees⟩ := goesOn (by simp only [Reader.headerToken, kind])
      exact ⟨_, by rw [found]; rfl, agrees⟩

/-! ## Lists -/

theorem list_nil_completes (mode : r.mode = .items) :
    Completes last (fuel + 1) r owned (list last inner r.blocks.length (r.blocks.map (·.brace)).head? owned []) := by
  rw [list]
  cases blocks : r.blocks with
  | nil =>
    refine ⟨_, rfl, ⟨?_, fun none => absurd rfl none, Nat.zero_le _⟩, fun _ => ⟨rfl, rfl⟩⟩
    change ReadsOn last r [] (((r.told []).add []).leave last) []
    rw [Reader.told_nil, Reader.add_nil, Reader.leave_of_outside blocks]
    exact .refl
  | cons b outer =>
    refine ⟨_, rfl, ⟨?_, fun none => absurd rfl none, Nat.zero_le _⟩, fun outside => by simp [blocks] at outside⟩
    change ReadsOn last r [] (((r.told [.unclosed b.brace]).add []).leave last) []
    rw [Reader.add_nil]
    exact .of_ended_eq (Reader.ended_leave mode blocks) (by rw [Reader.owner?_leave]; rfl)

/-- A closing brace ends the list, if it is that of a block. -/
theorem single_completes {b : Block} {outer : List Block} (ready : Ready fuel r owned (t :: rest))
    (kind : t.kind = .closeBrace) (inside : r.blocks = b :: outer) :
    Completes last fuel r owned (some (.single t [] owned rest)) := by
  have closes : r.step t rest = r.leave t.range.stop := by
    simp only [ready.step_eq, Reader.item, Reader.leave, kind, inside]
  refine ⟨_, rfl, ⟨.step closes ?_, fun _ => rfl, Nat.zero_le _⟩, fun outside => by simp [inside] at outside⟩
  change ReadsOn last (r.leave t.range.stop) rest (((r.told []).add []).leave t.range.stop) rest
  rw [Reader.told_nil, Reader.add_nil]
  exact .refl

/-- What is declared in a transparent block counts as declared around it. -/
theorem transparent_agrees (works : Works last fuel inner) (ready : Ready (fuel + 1) r owned (t :: rest))
    (kind : t.kind = .openBrace) :
    ∃ l, block last inner r.blocks.length t.range owned rest = some l ∧
      Agrees last r owned (fuel + 1) (l.behind t) (r.take (l.behind t)) := by
  have opens : r.step t rest = r.opened none t.range := by simp only [ready.step_eq, Reader.item, kind]
  obtain ⟨l, found, agrees⟩ :=
    block_agrees works ready.owned_eq (by have := ready.enough; omega) none t.range rest
  have taken : ({ r with mode := .items }.told l.problems).finish none l.nodes.reverse l.stop =
      r.take (l.behind t) := by
    rw [ready.reading_eq]
    rfl
  rw [taken] at agrees
  exact ⟨l, found, (agrees.mono (Nat.le_succ fuel)).behind opens⟩

theorem declaration_agrees (works : Works last fuel inner) (ready : Ready (fuel + 1) r owned (t :: rest))
    {declares : DeclKind} (kind : t.kind = .keyword declares) (single : ¬ startsWithKeyword rest = true) :
    let unnamed := if startsWithIdent rest then [] else [.unnamed t]
    ∃ l, header last inner r.blocks.length ⟨declares, nameOf? rest, t.range.start, t.range.stop⟩ owned rest = some l ∧
      Agrees last r owned (fuel + 1) ((l.telling unnamed).behind t) (r.take ((l.telling unnamed).behind t)) := by
  intro unnamed
  let r' : Reader := { r.told unnamed with mode := .header ⟨declares, nameOf? rest, t.range.start, t.range.stop⟩ }
  have announces : r.step t rest = r' := by
    simp only [ready.step_eq, Reader.item, kind, if_neg single, r', unnamed]
    split <;> rfl
  have spare := ready.spare
  rw [Reader.run, announces] at spare
  obtain ⟨l, found, agrees⟩ := header_agrees (r := r') works rfl ready.blocks ready.owned_eq
    (show nestingLimit ≤ fuel + r.blocks.length by have := ready.enough; omega)
    fun outside free owner => Nat.lt_of_succ_lt_succ (spare outside free owner)
  have reading : { r' with mode := .items } = r.told unnamed := congrArg (·.told unnamed) ready.reading_eq
  have taken : (r.told unnamed).take l = r.take ((l.telling unnamed).behind t) := (Reader.take_telling ..).symm
  rw [reading, taken] at agrees
  exact ⟨l, found, (agrees.telling unnamed).behind announces⟩

theorem list_cons_completes (works : Works last fuel inner) (ready : Ready (fuel + 1) r owned (t :: rest))
    (further : ∀ l : Listing (t :: rest), l.rest.length ≤ rest.length → Agrees last r owned (fuel + 1) l (r.take l) →
      Completes last (fuel + 1) r owned
        ((list last inner r.blocks.length (r.blocks.map (·.brace)).head? l.owned l.rest).map l.andThen)) :
    Completes last (fuel + 1) r owned
      (list last inner r.blocks.length (r.blocks.map (·.brace)).head? owned (t :: rest)) := by
  rw [list]
  cases kind : t.kind with
  | closeBrace =>
    cases blocks : r.blocks with
    | nil =>
      rw [blocks] at further
      exact further _ (Nat.le_refl _) (.single (by simp only [ready.step_eq, Reader.item, kind, blocks]; rfl))
    | cons b outer => exact single_completes ready kind blocks
  | openBrace =>
    obtain ⟨l, found, agrees⟩ := transparent_agrees works ready kind
    simp only [found, Option.bind_some]
    exact further (l.behind t) l.le agrees
  | keyword declares =>
    by_cases double : startsWithKeyword rest = true
    · simp only [if_pos double]
      exact further _ (Nat.le_refl _) (.single (by simp only [ready.step_eq, Reader.item, kind, if_pos double]; rfl))
    · obtain ⟨l, found, agrees⟩ := declaration_agrees works ready kind double
      simp only [if_neg double, found, Option.bind_some]
      exact further _ l.le agrees
  | _ => exact further _ (Nat.le_refl _) (.single (by simp only [ready.step_eq, Reader.item, kind]; rfl))

theorem list_works (works : Works last fuel inner) : Works last (fuel + 1) (list last inner) := by
  intro r owned tokens ready
  induction n : tokens.length using Nat.strongRecOn generalizing r owned tokens with
  | ind n ih =>
    subst n
    cases tokens with
    | nil => exact list_nil_completes ready.mode
    | cons t rest =>
      apply list_cons_completes works ready
      intro l shorter agrees
      have completes := ih _ (Nat.lt_succ_of_le shorter) (ready.further agrees) rfl
      rw [Reader.length_blocks_take, Reader.map_brace_take] at completes
      exact completes.andThen agrees

theorem items_works (last fuel : Nat) : Works last fuel (items last fuel) := by
  induction fuel with
  | zero =>
    intro r owned tokens ready
    have := ready.enough
    have := ready.blocks
    omega
  | succ fuel ih => exact list_works ih

theorem outline_eq_read {tokens : List Token} (enough : nestingLimit < fuel)
    (spare : (Reader.run {} tokens).owner? ≠ none → nestingLimit + 1 < fuel) :
    ∃ l, outline fuel tokens = some l ∧ l.rest = [] ∧ read tokens = (l.nodes, l.problems) ∧
      Node.heightAll l.nodes ≤ fuel := by
  have ready : Ready fuel {} false tokens := ⟨rfl, Nat.zero_le _, fun _ => rfl, enough, fun _ _ => spare⟩
  obtain ⟨l, found, agrees, whole⟩ := items_works (lastStop tokens) fuel ready
  obtain ⟨done, stop⟩ := whole rfl
  refine ⟨l, found, done, ?_, agrees.height⟩
  have finished : Reader.outcome (lastStop tokens) ((Reader.take {} l).leave l.stop) [] =
      (l.nodes, l.problems.reverse) := by
    simp [Reader.outcome, Reader.run, Reader.take, Reader.told, Reader.add, Reader.leave, Reader.ended, Reader.result,
      Reader.unwind]
  have whole : read tokens = ((Reader.outcome (lastStop tokens) {} tokens).1,
      (Reader.outcome (lastStop tokens) {} tokens).2.reverse) := rfl
  rw [whole, agrees.on.outcome, done, finished, List.reverse_reverse]

end Descent

/-- A descent with so much fuel comes to the end of a document and to its outline. -/
def DescentSuffices (fuel : Nat) (path : Path) (text : String) : Prop :=
  ∃ l, Descent.outline fuel ((Token.scan text).filter isSignificant) = some l ∧ l.rest = [] ∧
    l.nodes = (parse path text).tree.items ∧
    (unknowns (Token.scan text) ++ l.problems).map (·.diagnostic path (LineTable.ofText text)) =
      (parse path text).diagnostics

theorem descent_suffices (path : Path) {text : String} (small : text.utf8ByteSize < UInt32.size) {fuel : Nat}
    (enough : nestingLimit < fuel)
    (spare : (∃ o ∈ openings ((Token.scan text).filter isSignificant), o.isFileScoped = true) →
      nestingLimit + 1 < fuel) :
    DescentSuffices fuel path text ∧ ∀ v ∈ (parse path text).tree.visits, v.depth < fuel := by
  have owner : (Reader.run {} ((Token.scan text).filter isSignificant)).owner? ≠ none →
      nestingLimit + 1 < fuel := by
    rw [Reader.owned_run .start]
    rintro (owned | fileScoped)
    · simp [Reader.Owned, Reader.owner?] at owned
    · exact spare fileScoped
  obtain ⟨l, found, done, whole, height⟩ := Descent.outline_eq_read enough owner
  have items : l.nodes = (parse path text).tree.items := by
    rw [items_parse path small]
    exact (congrArg Prod.fst whole).symm
  have problems : l.problems = (read ((Token.scan text).filter isSignificant)).2 := (congrArg Prod.snd whole).symm
  refine ⟨⟨l, found, done, items, by rw [problems, parse_of_lt path small]⟩, fun v mem => ?_⟩
  have below := Node.depth_lt_of_mem_visitsAll (s := .top) mem
  rw [← items] at below
  simp only [Surroundings.top] at below
  omega

/-- No more lists of items are open around one another than blocks may nest and two, and no node is more than one level
deeper than blocks may nest; where no namespace owns the rest of the document, both by one less. A document that is too
large has no nodes; of any other every token is read. -/
theorem nesting_bounded (path : Path) (text : String) :
    ((text.utf8ByteSize < UInt32.size → DescentSuffices (nestingLimit + 2) path text) ∧
      ∀ v ∈ (parse path text).tree.visits, v.depth ≤ nestingLimit + 1) ∧
    ((∀ o ∈ openings ((Token.scan text).filter isSignificant), o.isFileScoped = false) →
      (text.utf8ByteSize < UInt32.size → DescentSuffices (nestingLimit + 1) path text) ∧
        ∀ v ∈ (parse path text).tree.visits, v.depth ≤ nestingLimit) := by
  rcases Nat.lt_or_ge text.utf8ByteSize UInt32.size with small | large
  · constructor
    · obtain ⟨reads, depth⟩ := descent_suffices path small (show nestingLimit < nestingLimit + 2 by omega)
        fun _ => Nat.lt_succ_self _
      exact ⟨fun _ => reads, fun v mem => Nat.le_of_lt_succ (depth v mem)⟩
    · intro ordinary
      obtain ⟨reads, depth⟩ := descent_suffices path small (Nat.lt_succ_self nestingLimit) fun ⟨o, mem, owns⟩ => by
        rw [ordinary o mem] at owns
        cases owns
      exact ⟨fun _ => reads, fun v mem => Nat.le_of_lt_succ (depth v mem)⟩
  · rw [parse_of_le path large]
    exact ⟨⟨fun small => absurd small (Nat.not_lt_of_le large), nofun⟩,
      fun _ => ⟨fun small => absurd small (Nat.not_lt_of_le large), nofun⟩⟩

/-- A namespace that ends in a semicolon, but in a block. -/
def enclosed : String := "\x7b namespace T; \x7d class C \x7b class D \x7b \x7d \x7d"

theorem nesting_bounded_enclosed :
    enclosed.utf8ByteSize < UInt32.size ∧
      (∀ o ∈ openings ((Token.scan enclosed).filter isSignificant), o.isFileScoped = false) ∧
      DescentSuffices (nestingLimit + 1) ⟨"a"⟩ enclosed ∧
        ∀ v ∈ (parse ⟨"a"⟩ enclosed).tree.visits, v.depth ≤ nestingLimit := by
  have small : enclosed.utf8ByteSize < UInt32.size := by decide +kernel
  have ordinary : ∀ o ∈ openings ((Token.scan enclosed).filter isSignificant), o.isFileScoped = false := by
    decide +kernel
  obtain ⟨reads, depth⟩ := (nesting_bounded ⟨"a"⟩ enclosed).2 ordinary
  exact ⟨small, ordinary, reads small, depth⟩

/-- A descent would find what is declared in a large document; it is not read. -/
theorem not_descentSuffices_overlong : ¬DescentSuffices (nestingLimit + 2) ⟨"a"⟩ (overlong "class A") := by
  have tokens : (Token.scan (overlong "class A")).filter isSignificant =
      (Token.scan ("class A" ++ "\n")).filter isSignificant := significant_overlong (by decide +kernel)
  have declared : (read ((Token.scan ("class A" ++ "\n")).filter isSignificant)).1 ≠ [] := by decide +kernel
  rintro ⟨l, found, -, nodes, -⟩
  have enough : nestingLimit < nestingLimit + 2 := by decide
  have spare : (Reader.run {} ((Token.scan (overlong "class A")).filter isSignificant)).owner? ≠ none →
      nestingLimit + 1 < nestingLimit + 2 := fun _ => by decide
  obtain ⟨l', found', -, whole, -⟩ := Descent.outline_eq_read enough spare
  cases Option.some.inj (found.symm.trans found')
  rw [parse_overlong] at nodes
  rw [← tokens, whole] at declared
  exact declared nodes

end CodeWorkspace.Outline
