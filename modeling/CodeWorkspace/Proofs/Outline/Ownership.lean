import CodeWorkspace.Proofs.Outline.Openings

/-! Whether a declaration owns the rest of a document. A reader gives a document its owner at a semicolon outside all
braces, and never another; from the tokens that is to be seen already where the declaration begins. -/
namespace CodeWorkspace.Outline
namespace Reader

variable {r r' : Reader} {t : Token} {rest : List Token} {depth : Nat} {inHeader : Bool} {h : Header}

/-! ## The owner of the document -/

/-- The declaration that owns what is still to come, once there is one. -/
def owner? (r : Reader) : Option Header := r.scope.map (·.1)

@[simp] theorem owner?_add (nodes : List Node) : (r.add nodes).owner? = r.owner? := by
  unfold add
  split <;> simp_all [owner?]

@[simp] theorem owner?_finish (owner : Option Header) (items : List Node) (stop : Nat) :
    (r.finish owner items stop).owner? = r.owner? := owner?_add _

@[simp] theorem owner?_close (h : Header) : (r.close h).owner? = r.owner? := owner?_finish ..

@[simp] theorem owner?_opened (owner : Option Header) (brace : ByteRange) :
    (r.opened owner brace).owner? = r.owner? := by
  unfold opened
  split <;> rfl

theorem owner?_item (move : ItemMoves r t rest r') : r'.owner? = r.owner? := by
  cases move with
  | opens => simp
  | unbalanced => rfl
  | closes =>
    rw [owner?_finish]
    rfl
  | named => rfl
  | unnamed => rfl
  | passes => rfl

theorem owner?_skipping {owner : Option Header} {brace : ByteRange} {inner : Nat}
    (move : SkipMoves r owner brace t inner r') : r'.owner? = r.owner? := by
  cases move with
  | ends =>
    rw [owner?_finish]
    rfl
  | _ => rfl

theorem owner?_header (move : HeaderMoves r h t rest r') (other : r.owner? ≠ none ∨ t.kind ≠ .semicolon) :
    r'.owner? = r.owner? := by
  cases move with
  | opens => simp
  | owns kind outside first => simp [owner?, first, kind] at other
  | ends => simp
  | leaves move => simp [owner?_item move]
  | goesOn => rfl

/-- Only a semicolon gives a document its owner. -/
theorem owner?_step (other : r.owner? ≠ none ∨ t.kind ≠ .semicolon) (rest : List Token) :
    (r.step t rest).owner? = r.owner? := by
  cases moves_step r t rest with
  | item mode move => exact owner?_item move
  | header mode move => exact owner?_header move other
  | skipping mode move => exact owner?_skipping move

theorem owner?_run (owned : r.owner? = some h) (tokens : List Token) : (r.run tokens).owner? = some h := by
  induction tokens generalizing r with
  | nil => exact owned
  | cons t rest ih =>
    apply ih
    rw [owner?_step (.inl (by simp [owned])), owned]

/-! ## A header that ends in a semicolon -/

/-- What the semicolon at the end of a header does. -/
def settle (r : Reader) (h : Header) : Reader :=
  if h.kind = .namespaceDecl ∧ r.blocks = [] ∧ r.owner? = none then
    { r with mode := .items, scope := some (h, []) }
  else r.close h

theorem run_header {tokens : List Token} (mode : r.mode = .header h) (ends : reachesSemicolon tokens = true) :
    ∃ stop behind, r.run tokens = (r.settle { h with stop := stop }).run behind := by
  induction tokens generalizing r h with
  | nil => cases ends
  | cons t rest ih =>
    rw [run]
    have moves := moves_step r t rest
    generalize r.step t rest = r' at moves
    cases moves with
    | item mode' => simp [mode] at mode'
    | skipping mode' => simp [mode] at mode'
    | header mode' move =>
      obtain rfl : h = _ := by simpa [mode] using mode'
      cases move with
      | opens kind => simp [reachesSemicolon_brace (.inl kind)] at ends
      | owns kind outside first declares =>
        refine ⟨t.range.stop, rest, ?_⟩
        rw [settle, if_pos ⟨declares, outside, by simp [owner?, first]⟩]
      | ends kind other =>
        refine ⟨t.range.stop, rest, ?_⟩
        rw [settle, if_neg (by simpa [owner?] using other)]
      | leaves move next =>
        rcases next with kind | ⟨keyword, next⟩
        · simp [reachesSemicolon_brace (.inr kind)] at ends
        · simp [reachesSemicolon_named keyword next] at ends
      | goesOn notOpen notClose unnamed notEnd =>
        rw [reachesSemicolon_other notOpen notClose notEnd unnamed] at ends
        have header : ({ r with mode := .header { h with stop := t.range.stop } } : Reader).mode =
            .header { h with stop := t.range.stop } := rfl
        obtain ⟨stop, behind, run_eq⟩ := ih header ends
        exact ⟨stop, behind, run_eq⟩

/-! ## Who is to own the document -/

/-- There is an owner, or the open header is to become one at its semicolon. -/
def Owned (r : Reader) (ahead : List Token) : Prop :=
  r.owner? ≠ none ∨ ∃ h, r.mode = .header h ∧ h.kind = .namespaceDecl ∧ r.blocks = [] ∧ reachesSemicolon ahead = true

theorem owned_of_no_header (mode : r.mode.isHeader = false) {ahead : List Token} :
    r.Owned ahead ↔ r.owner? ≠ none := by
  constructor
  · rintro (owned | ⟨h, header, -⟩)
    · exact owned
    · simp [header, Mode.isHeader] at mode
  · exact .inl

theorem owned_header (mode : r.mode = .header h) {ahead : List Token} :
    r.Owned ahead ↔
      r.owner? ≠ none ∨ h.kind = .namespaceDecl ∧ r.blocks = [] ∧ reachesSemicolon ahead = true := by
  simp [Owned, mode]

theorem owned_nil : r.Owned [] ↔ r.owner? ≠ none := by simp [Owned, reachesSemicolon]

theorem owned_item (move : ItemMoves r t rest r') (mode : r.mode = .items) :
    r'.Owned rest ↔ r.owner? ≠ none ∨
      ∃ o ∈ opening? r.blocks.length false t rest, o.isFileScoped = true := by
  have same := owner?_item move
  cases move with
  | opens kind =>
    rw [owned_of_no_header (isHeader_opened ..), same, opening?_other (by simp [kind, TokenKind.isKeyword])]
    simp
  | unbalanced kind =>
    rw [owned_of_no_header (by simp [report, mode, Mode.isHeader]), same,
      opening?_other (by simp [kind, TokenKind.isKeyword])]
    simp
  | closes kind =>
    rw [owned_of_no_header (by simp [mode, Mode.isHeader]), same,
      opening?_other (by simp [kind, TokenKind.isKeyword])]
    simp
  | named kind next =>
    rw [owned_header rfl, same, opening?_named kind next]
    simp [Opening.isFileScoped, Opening.isNamespaceStatement, and_comm, and_left_comm]
  | unnamed kind next single =>
    rw [owned_header rfl, same, opening?_single kind single]
    simp [Opening.isFileScoped, Opening.isNamespaceStatement, report, and_comm, and_left_comm]
  | passes notOpen notClose modifier double =>
    rw [owned_of_no_header (by simp [mode, Mode.isHeader]),
      opening?_modifier modifier fun keyword => .inr (double keyword)]
    simp

theorem owned_ofHeader (move : HeaderMoves r h t rest r') (mode : r.mode = .header h) :
    r'.Owned rest ↔ r.Owned (t :: rest) ∨
      ∃ o ∈ opening? r.blocks.length true t rest, o.isFileScoped = true := by
  rw [owned_header mode]
  cases move with
  | opens kind =>
    rw [owned_of_no_header (isHeader_opened ..), owner?_opened, reachesSemicolon_brace (.inl kind),
      opening?_other (by simp [kind, TokenKind.isKeyword])]
    simp
  | owns kind outside first declares =>
    rw [owned_of_no_header rfl, reachesSemicolon_semicolon kind]
    simp [owner?, declares, outside]
  | ends kind other =>
    have owned : h.kind = .namespaceDecl → r.blocks = [] → r.owner? ≠ none := by
      intro declares outside none
      exact other ⟨declares, outside, by simpa [owner?] using none⟩
    rw [owned_of_no_header (by simp [Mode.isHeader]), owner?_close,
      opening?_other (by simp [kind, TokenKind.isKeyword])]
    constructor
    · exact fun owner => .inl (.inl owner)
    · rintro ((owner | ⟨declares, outside, -⟩) | ⟨o, none, -⟩)
      · exact owner
      · exact owned declares outside
      · cases none
  | leaves move next =>
    rw [owned_item move (by simp), owner?_close, length_blocks_close]
    rcases next with kind | ⟨keyword, next⟩
    · have other : ¬ t.kind.isKeyword = true := by simp [kind, TokenKind.isKeyword]
      rw [reachesSemicolon_brace (.inr kind), opening?_other other, opening?_other other]
      simp
    · cases kind : t.kind with
      | keyword declares =>
        rw [reachesSemicolon_named keyword next, opening?_named kind next, opening?_named kind next]
        simp
      | _ => simp [kind, TokenKind.isKeyword] at keyword
  | goesOn notOpen notClose unnamed notEnd =>
    rw [owned_header rfl, reachesSemicolon_other notOpen notClose notEnd unnamed,
      opening?_modifier unnamed fun _ => .inl rfl]
    simp [owner?]

/-- A step gives a document an owner just if a file-scoped namespace begins there. -/
theorem owned_step (beside : r.Beside depth inHeader) (t : Token) (rest : List Token) :
    (r.step t rest).Owned rest ↔
      r.Owned (t :: rest) ∨ ∃ o ∈ opening? depth inHeader t rest, o.isFileScoped = true := by
  have limit := beside.at_.le_limit_iff
  have depth_eq := beside.at_.depth_eq
  unfold Reader.depth at depth_eq
  cases moves_step r t rest with
  | item mode move =>
    obtain rfl : r.blocks.length = depth := by simpa [mode, Mode.skipped] using depth_eq
    obtain rfl : false = inHeader := by
      simpa [mode, Mode.isHeader] using beside.header (limit.mpr (by simp [mode, Mode.skipped]))
    rw [owned_item move mode, owned_of_no_header (by simp [mode, Mode.isHeader])]
  | header mode move =>
    obtain rfl : r.blocks.length = depth := by simpa [mode, Mode.skipped] using depth_eq
    obtain rfl : true = inHeader := by
      simpa [mode, Mode.isHeader] using beside.header (limit.mpr (by simp [mode, Mode.skipped]))
    exact owned_ofHeader move mode
  | skipping mode move =>
    have inside : depth ≠ 0 := by simp [mode, Mode.skipped] at depth_eq; omega
    have header := (opens_skipping move mode).header
    rw [owned_of_no_header header, owned_of_no_header (by simp [mode, Mode.isHeader]), owner?_skipping move]
    constructor
    · exact .inl
    · rintro (owner | ⟨o, opens, fileScoped⟩)
      · exact owner
      · have here : o.depth = depth := by rw [(of_opening? opens).1]
        simp [Opening.isFileScoped, here, inside] at fileScoped

theorem owned_run (beside : r.Beside depth inHeader) (tokens : List Token) :
    (r.run tokens).owner? ≠ none ↔
      r.Owned tokens ∨ ∃ o ∈ openingsFrom depth inHeader tokens, o.isFileScoped = true := by
  induction tokens generalizing r depth inHeader with
  | nil => simp [run, openingsFrom, owned_nil]
  | cons t rest ih =>
    rw [run, ih (beside.step t rest).1, owned_step beside, openingsFrom, or_assoc]
    simp [or_and_right, exists_or]

end Reader
end CodeWorkspace.Outline
