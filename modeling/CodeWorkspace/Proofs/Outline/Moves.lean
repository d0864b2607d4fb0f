import CodeWorkspace.Outline.Reader

/-! All that a reader can do at a token. What readers keep to is shown move by move; nothing else looks into their
steps. -/
namespace CodeWorkspace.Outline

theorem isSome_nameOf? (rest : List Token) : (nameOf? rest).isSome = startsWithIdent rest := by
  cases rest with
  | nil => rfl
  | cons t rest => by_cases h : t.kind = .ident <;> simp [nameOf?, startsWithIdent, h]

theorem not_startsWithIdent_of_keyword {rest : List Token} (h : startsWithKeyword rest = true) :
    startsWithIdent rest = false := by
  cases rest with
  | nil => rfl
  | cons t rest =>
    cases kind : t.kind with
    | ident => simp [startsWithKeyword, kind, TokenKind.isKeyword] at h
    | _ => simp [startsWithIdent, kind]

namespace Reader

/-- Between declarations. A keyword passes as a modifier of the one behind it. -/
inductive ItemMoves (r : Reader) (t : Token) (rest : List Token) : Reader → Prop where
  | opens (kind : t.kind = .openBrace) : ItemMoves r t rest (r.opened none t.range)
  | unbalanced (kind : t.kind = .closeBrace) (outside : r.blocks = []) :
      ItemMoves r t rest (r.report (.unbalanced t.range))
  | closes {b : Block} {outer : List Block} (kind : t.kind = .closeBrace) (inside : r.blocks = b :: outer) :
      ItemMoves r t rest ({ r with blocks := outer }.finish b.owner b.items t.range.stop)
  | named {declares : DeclKind} (kind : t.kind = .keyword declares) (next : startsWithIdent rest = true) :
      ItemMoves r t rest
        { r with mode := .header ⟨declares, nameOf? rest, t.range.start, t.range.stop⟩ }
  | unnamed {declares : DeclKind} (kind : t.kind = .keyword declares) (next : startsWithIdent rest = false)
      (single : startsWithKeyword rest = false) :
      ItemMoves r t rest
        { r.report (.unnamed t) with
          mode := .header ⟨declares, nameOf? rest, t.range.start, t.range.stop⟩ }
  | passes (notOpen : t.kind ≠ .openBrace) (notClose : t.kind ≠ .closeBrace)
      (modifier : t.kind.isKeyword = true → startsWithIdent rest = false)
      (double : t.kind.isKeyword = true → startsWithKeyword rest = true) : ItemMoves r t rest r

/-- Behind the keyword of a declaration. -/
inductive HeaderMoves (r : Reader) (h : Header) (t : Token) (rest : List Token) : Reader → Prop where
  | opens (kind : t.kind = .openBrace) : HeaderMoves r h t rest (r.opened (some h) t.range)
  | owns (kind : t.kind = .semicolon) (outside : r.blocks = []) (first : r.scope = none)
      (declares : h.kind = .namespaceDecl) :
      HeaderMoves r h t rest
        { r with mode := .items, scope := some ({ h with stop := t.range.stop }, []) }
  | ends (kind : t.kind = .semicolon)
      (other : ¬ (h.kind = .namespaceDecl ∧ r.blocks = [] ∧ r.scope = none)) :
      HeaderMoves r h t rest (r.close { h with stop := t.range.stop })
  | leaves {r' : Reader} (move : ItemMoves (r.close h) t rest r')
      (next : t.kind = .closeBrace ∨ t.kind.isKeyword = true ∧ startsWithIdent rest = true) :
      HeaderMoves r h t rest r'
  | goesOn (notOpen : t.kind ≠ .openBrace) (notClose : t.kind ≠ .closeBrace)
      (unnamed : t.kind.isKeyword = true → startsWithIdent rest = false) (notEnd : t.kind ≠ .semicolon) :
      HeaderMoves r h t rest { r with mode := .header { h with stop := t.range.stop } }

/-- In a block below the limit. -/
inductive SkipMoves (r : Reader) (owner : Option Header) (brace : ByteRange) (t : Token) :
    Nat → Reader → Prop where
  | opens {inner : Nat} (kind : t.kind = .openBrace) :
      SkipMoves r owner brace t inner { r with mode := .skipping owner brace (inner + 1) }
  | closes {inner : Nat} (kind : t.kind = .closeBrace) :
      SkipMoves r owner brace t (inner + 1) { r with mode := .skipping owner brace inner }
  | ends (kind : t.kind = .closeBrace) :
      SkipMoves r owner brace t 0 ({ r with mode := .items }.finish owner [] t.range.stop)
  | passes {inner : Nat} (notOpen : t.kind ≠ .openBrace) (notClose : t.kind ≠ .closeBrace) :
      SkipMoves r owner brace t inner r

inductive Moves (r : Reader) (t : Token) (rest : List Token) (r' : Reader) : Prop where
  | item (mode : r.mode = .items) (move : ItemMoves r t rest r')
  | header {h : Header} (mode : r.mode = .header h) (move : HeaderMoves r h t rest r')
  | skipping {owner : Option Header} {brace : ByteRange} {inner : Nat}
      (mode : r.mode = .skipping owner brace inner) (move : SkipMoves r owner brace t inner r')

theorem moves_item (r : Reader) (t : Token) (rest : List Token) : ItemMoves r t rest (r.item t rest) := by
  unfold item
  split
  · next kind => exact .opens kind
  · next kind =>
    split
    · next outside => exact .unbalanced kind outside
    · next inside => exact .closes kind inside
  · next declares kind =>
    split
    · next modifier =>
      exact .passes (by simp [kind]) (by simp [kind]) (fun _ => not_startsWithIdent_of_keyword modifier)
        fun _ => modifier
    · next single =>
      dsimp only
      split
      · next ident => exact .named kind ident
      · next other => exact .unnamed kind (by simpa using other) (by simpa using single)
  · next notOpen notClose notKeyword =>
    have other : ¬ t.kind.isKeyword = true := by
      intro keyword
      cases kind : t.kind with
      | keyword declares => exact notKeyword declares kind
      | _ => simp [kind, TokenKind.isKeyword] at keyword
    exact .passes notOpen notClose (fun keyword => absurd keyword other) fun keyword => absurd keyword other

theorem moves_headerToken (r : Reader) (h : Header) (t : Token) (rest : List Token) :
    HeaderMoves r h t rest (r.headerToken h t rest) := by
  unfold headerToken
  split
  · next kind => exact .opens kind
  · next kind =>
    dsimp only
    split
    · next first => exact .owns kind (by simpa using first.2.1) (by simpa using first.2.2) first.1
    · next other => exact .ends kind (by simpa using other)
  · next kind => exact .leaves (moves_item ..) (.inl kind)
  · next kind =>
    split
    · next ident => exact .leaves (moves_item ..) (.inr ⟨by simp [kind, TokenKind.isKeyword], ident⟩)
    · next other => exact .goesOn (by simp [kind]) (by simp [kind]) (fun _ => by simpa using other) (by simp [kind])
  · next notOpen notEnd notClose notKeyword =>
    refine .goesOn notOpen notClose (fun keyword => ?_) notEnd
    cases kind : t.kind with
    | keyword declares => exact absurd kind (notKeyword declares)
    | _ => simp [kind, TokenKind.isKeyword] at keyword

theorem moves_skippedToken (r : Reader) (owner : Option Header) (brace : ByteRange) (inner : Nat)
    (t : Token) : SkipMoves r owner brace t inner (r.skippedToken owner brace inner t) := by
  unfold skippedToken
  split
  · next kind => exact .opens kind
  · next kind => exact .ends kind
  · next kind => exact .closes kind
  · next count _ _ notOpen notEnd notClose =>
    refine .passes notOpen fun kind => ?_
    cases count with
    | zero => exact notEnd kind rfl
    | succ below => exact notClose below kind rfl

theorem moves_step (r : Reader) (t : Token) (rest : List Token) : Moves r t rest (r.step t rest) := by
  unfold step
  split
  · next mode => exact .item mode (moves_item ..)
  · next mode => exact .header mode (moves_headerToken ..)
  · next mode => exact .skipping mode (moves_skippedToken ..)

end Reader
end CodeWorkspace.Outline
