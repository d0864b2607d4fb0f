import CodeWorkspace.Proofs.Outline.Declarations

/-! Where declarations begin, told from the tokens with a count of braces and a note of whether a header is open. These
are the nodes of an outline, named or not; and the first namespace among them that ends in a semicolon outside all
braces is the one that owns the rest of the document. -/
namespace CodeWorkspace.Outline

/-- The keyword that begins a declaration, with the number of braces open in front of it and the tokens behind it. -/
structure Opening where
  depth : Nat
  declares : DeclKind
  keyword : Token
  behind : List Token
  deriving DecidableEq

/-- Behind the keyword of an open declaration only one that has a name begins another. Elsewhere each does, but for a
modifier right before another one. -/
def opening? (depth : Nat) (inHeader : Bool) (t : Token) (rest : List Token) : Option Opening :=
  match t.kind with
  | .keyword declares =>
    if startsWithIdent rest ∨ ¬ inHeader ∧ ¬ startsWithKeyword rest then some ⟨depth, declares, t, rest⟩ else none
  | _ => none

/-- Whether a header is open behind a token. -/
def inHeaderAfter (inHeader : Bool) (t : Token) (rest : List Token) : Bool :=
  match t.kind with
  | .openBrace | .closeBrace | .semicolon => false
  | .keyword _ => inHeader || !startsWithKeyword rest
  | _ => inHeader

def openingsFrom (depth : Nat) (inHeader : Bool) : List Token → List Opening
  | [] => []
  | t :: rest =>
    (opening? depth inHeader t rest).toList ++ openingsFrom (depthAfter depth t) (inHeaderAfter inHeader t rest) rest

/-- All declarations that begin among the tokens, in order. -/
def openings (tokens : List Token) : List Opening := openingsFrom 0 false tokens

/-- Whether a semicolon comes before any brace and before a declaration with a name. -/
def reachesSemicolon : List Token → Bool
  | [] => false
  | t :: rest =>
    match t.kind with
    | .semicolon => true
    | .openBrace | .closeBrace => false
    | .keyword _ => !startsWithIdent rest && reachesSemicolon rest
    | _ => reachesSemicolon rest

namespace Opening

def declared (o : Opening) : Declared := ⟨o.declares, nameOf? o.behind, o.keyword.range.start⟩

/-- Whether this is a namespace that ends in a semicolon. -/
def isNamespaceStatement (o : Opening) : Bool := o.declares = .namespaceDecl && reachesSemicolon o.behind

/-- Whether it is one outside all braces. -/
def isFileScoped (o : Opening) : Bool := o.isNamespaceStatement && o.depth = 0

end Opening

section Token

variable {t : Token} {rest : List Token} {depth : Nat} {inHeader : Bool} {o : Opening}

theorem not_startsWithKeyword_of_ident (next : startsWithIdent rest = true) : startsWithKeyword rest = false := by
  rw [← Bool.not_eq_true]
  intro double
  rw [not_startsWithIdent_of_keyword double] at next
  cases next

theorem opening?_other (other : ¬ t.kind.isKeyword = true) : opening? depth inHeader t rest = none := by
  unfold opening?
  split
  · next kind => simp [kind, TokenKind.isKeyword] at other
  · rfl

theorem opening?_named {declares : DeclKind} (kind : t.kind = .keyword declares)
    (next : startsWithIdent rest = true) : opening? depth inHeader t rest = some ⟨depth, declares, t, rest⟩ := by
  simp [opening?, kind, next]

theorem opening?_single {declares : DeclKind} (kind : t.kind = .keyword declares)
    (single : startsWithKeyword rest = false) :
    opening? depth false t rest = some ⟨depth, declares, t, rest⟩ := by
  simp [opening?, kind, single]

theorem opening?_modifier (next : t.kind.isKeyword = true → startsWithIdent rest = false)
    (double : t.kind.isKeyword = true → inHeader = true ∨ startsWithKeyword rest = true) :
    opening? depth inHeader t rest = none := by
  unfold opening?
  split
  · next kind =>
    simp only [kind, TokenKind.isKeyword, forall_const] at next double
    rcases double with header | double
    · simp [next, header]
    · simp [next, double]
  · rfl

theorem of_opening? (some : opening? depth inHeader t rest = some o) :
    o = ⟨depth, o.declares, t, rest⟩ ∧ t.kind = .keyword o.declares ∧
      (inHeader = true → startsWithIdent rest = true) := by
  unfold opening? at some
  split at some
  · next kind =>
    split at some
    · next begins =>
      cases some
      refine ⟨rfl, kind, fun header => ?_⟩
      simpa [header] using begins
    · cases some
  · cases some

theorem reachesSemicolon_brace (brace : t.kind = .openBrace ∨ t.kind = .closeBrace) :
    reachesSemicolon (t :: rest) = false := by
  rcases brace with kind | kind <;> simp [reachesSemicolon, kind]

theorem reachesSemicolon_semicolon (kind : t.kind = .semicolon) : reachesSemicolon (t :: rest) = true := by
  simp [reachesSemicolon, kind]

theorem reachesSemicolon_named (keyword : t.kind.isKeyword = true) (next : startsWithIdent rest = true) :
    reachesSemicolon (t :: rest) = false := by
  cases kind : t.kind with
  | keyword => simp [reachesSemicolon, kind, next]
  | _ => simp [kind, TokenKind.isKeyword] at keyword

theorem reachesSemicolon_other (notOpen : t.kind ≠ .openBrace) (notClose : t.kind ≠ .closeBrace)
    (notEnd : t.kind ≠ .semicolon) (unnamed : t.kind.isKeyword = true → startsWithIdent rest = false) :
    reachesSemicolon (t :: rest) = reachesSemicolon rest := by
  cases kind : t.kind with
  | openBrace => exact absurd kind notOpen
  | closeBrace => exact absurd kind notClose
  | semicolon => exact absurd kind notEnd
  | keyword => simp [reachesSemicolon, kind, unnamed (by simp [kind, TokenKind.isKeyword])]
  | _ => simp [reachesSemicolon, kind]

end Token

/-! ## A reader beside the scan -/

def Mode.isHeader : Mode → Bool
  | .header _ => true
  | .items | .skipping _ _ _ => false

namespace Reader

variable {r r' : Reader} {t : Token} {rest : List Token} {depth : Nat} {inHeader : Bool} {o : Opening}

/-- Whatever the scan has counted and noted, the reader stands there too. Below the limit it reads no headers. -/
structure Beside (r : Reader) (depth : Nat) (inHeader : Bool) : Prop where
  at_ : r.AtDepth depth
  header : depth ≤ nestingLimit → r.mode.isHeader = inHeader

theorem Beside.start : Beside {} 0 false := ⟨.start, fun _ => rfl⟩

/-- One step of a reader beside one of the scan. -/
structure Opens (r r' : Reader) (opening : Option Opening) (inHeader : Bool) : Prop where
  declared : r'.declared = r.declared ++ opening.toList.map (·.declared)
  header : r'.mode.isHeader = inHeader

theorem isHeader_opened (owner : Option Header) (brace : ByteRange) :
    (r.opened owner brace).mode.isHeader = false := by
  unfold opened
  split <;> rfl

theorem opens_none (same : r'.declared = r.declared) (header : r'.mode.isHeader = inHeader) :
    Opens r r' none inHeader := ⟨by simp [same], header⟩

theorem opens_item (depth : Nat) (move : ItemMoves r t rest r') (mode : r.mode = .items) :
    Opens r r' (opening? depth false t rest) (inHeaderAfter false t rest) := by
  have whole : r.declared = r.settled := by simp [Reader.declared, mode, Mode.declared]
  cases move with
  | opens kind =>
    rw [opening?_other (by simp [kind, TokenKind.isKeyword])]
    apply opens_none
    · simp [declared_opened, whole, declaredOwner]
    · simp [isHeader_opened, inHeaderAfter, kind]
  | unbalanced kind =>
    rw [opening?_other (by simp [kind, TokenKind.isKeyword])]
    exact opens_none rfl (by simp [report, mode, Mode.isHeader, inHeaderAfter, kind])
  | @closes b outer kind inside =>
    rw [opening?_other (by simp [kind, TokenKind.isKeyword])]
    apply opens_none
    · rw [whole, Reader.declared, settled_finish]
      simp [mode, Mode.declared, settled, inside, declaredBlocks]
    · simp [mode, Mode.isHeader, inHeaderAfter, kind]
  | @named declares kind next =>
    rw [opening?_named kind next]
    refine ⟨?_, by simp [Mode.isHeader, inHeaderAfter, kind, not_startsWithKeyword_of_ident next]⟩
    rw [whole]
    rfl
  | @unnamed declares kind next single =>
    rw [opening?_single kind single]
    refine ⟨?_, by simp [Mode.isHeader, inHeaderAfter, kind, single]⟩
    rw [whole]
    rfl
  | passes notOpen notClose modifier double =>
    rw [opening?_modifier modifier fun keyword => .inr (double keyword)]
    apply opens_none rfl
    rw [mode]
    cases kind : t.kind with
    | keyword => simp [Mode.isHeader, inHeaderAfter, kind, double (by simp [kind, TokenKind.isKeyword])]
    | _ => simp [Mode.isHeader, inHeaderAfter, kind]

theorem opens_header {h : Header} (depth : Nat) (move : HeaderMoves r h t rest r') (mode : r.mode = .header h) :
    Opens r r' (opening? depth true t rest) (inHeaderAfter true t rest) := by
  have whole : r.declared = r.settled ++ [h.declared] := by simp [Reader.declared, mode, Mode.declared]
  cases move with
  | opens kind =>
    rw [opening?_other (by simp [kind, TokenKind.isKeyword])]
    apply opens_none
    · simp [declared_opened, whole, declaredOwner]
    · simp [isHeader_opened, inHeaderAfter, kind]
  | owns kind outside first =>
    rw [opening?_other (by simp [kind, TokenKind.isKeyword])]
    apply opens_none
    · rw [whole]
      simp [Reader.declared, settled, outside, first, declaredBlocks, declaredScope, Mode.declared, Header.declared]
    · simp [Mode.isHeader, inHeaderAfter, kind]
  | ends kind =>
    rw [opening?_other (by simp [kind, TokenKind.isKeyword])]
    apply opens_none
    · rw [whole, Reader.declared, settled_close]
      simp [Mode.declared, Header.declared]
    · simp [Mode.isHeader, inHeaderAfter, kind]
  | leaves move next =>
    -- Once the declaration is closed, the token is met as between declarations.
    have closed : (r.close h).declared = r.declared := by
      rw [whole, Reader.declared, settled_close]
      simp [Mode.declared]
    obtain ⟨declared, header⟩ := opens_item depth move (by simp)
    rw [closed] at declared
    rcases next with kind | ⟨keyword, next⟩
    · have other : ¬ t.kind.isKeyword = true := by simp [kind, TokenKind.isKeyword]
      rw [opening?_other other] at declared ⊢
      refine ⟨declared, header.trans ?_⟩
      simp [inHeaderAfter, kind]
    · cases kind : t.kind with
      | keyword declares =>
        rw [opening?_named kind next] at declared ⊢
        refine ⟨declared, header.trans ?_⟩
        simp [inHeaderAfter, kind, not_startsWithKeyword_of_ident next]
      | _ => simp [kind, TokenKind.isKeyword] at keyword
  | goesOn notOpen notClose unnamed notEnd =>
    rw [opening?_modifier unnamed fun _ => .inl rfl]
    apply opens_none
    · rw [whole]
      rfl
    · cases kind : t.kind with
      | openBrace => exact absurd kind notOpen
      | closeBrace => exact absurd kind notClose
      | semicolon => exact absurd kind notEnd
      | _ => simp [Mode.isHeader, inHeaderAfter, kind]

theorem opens_skipping {owner : Option Header} {brace : ByteRange} {inner : Nat}
    (move : SkipMoves r owner brace t inner r') (mode : r.mode = .skipping owner brace inner) :
    Opens r r' none false := by
  have whole : r.declared = r.settled ++ declaredOwner owner := by
    simp [Reader.declared, mode, Mode.declared]
  cases move with
  | opens => exact opens_none whole.symm rfl
  | closes => exact opens_none whole.symm rfl
  | ends =>
    apply opens_none
    · rw [whole, Reader.declared, settled_finish]
      simp [settled, Mode.declared]
    · simp [Mode.isHeader]
  | passes => exact opens_none rfl (by simp [mode, Mode.isHeader])

/-- What a token opens as far as blocks are read. -/
def opened? (depth : Nat) (inHeader : Bool) (t : Token) (rest : List Token) : Option Opening :=
  if depth ≤ nestingLimit then opening? depth inHeader t rest else none

theorem Beside.step (beside : r.Beside depth inHeader) (t : Token) (rest : List Token) :
    (r.step t rest).Beside (depthAfter depth t) (inHeaderAfter inHeader t rest) ∧
      (r.step t rest).declared = r.declared ++ (opened? depth inHeader t rest).toList.map (·.declared) := by
  have limit := beside.at_.le_limit_iff
  have at_ := beside.at_.step t rest
  cases moves_step r t rest with
  | item mode move =>
    have le : depth ≤ nestingLimit := limit.mpr (by simp [mode, Mode.skipped])
    obtain rfl : false = inHeader := by simpa [mode, Mode.isHeader] using beside.header le
    obtain ⟨declared, header⟩ := opens_item depth move mode
    exact ⟨⟨at_, fun _ => header⟩, by rw [declared, opened?, if_pos le]⟩
  | header mode move =>
    have le : depth ≤ nestingLimit := limit.mpr (by simp [mode, Mode.skipped])
    obtain rfl : true = inHeader := by simpa [mode, Mode.isHeader] using beside.header le
    obtain ⟨declared, header⟩ := opens_header depth move mode
    exact ⟨⟨at_, fun _ => header⟩, by rw [declared, opened?, if_pos le]⟩
  | skipping mode move =>
    have deep : ¬ depth ≤ nestingLimit := fun le => by simp [mode, Mode.skipped] at limit; omega
    obtain ⟨declared, header⟩ := opens_skipping move mode
    refine ⟨⟨at_, fun le => ?_⟩, by rw [declared, opened?, if_neg deep]⟩
    -- Only a closing brace leads out of what is skipped.
    have closes : t.kind = .closeBrace := by
      by_contra other
      by_cases kind : t.kind = .openBrace
      · rw [depthAfter_open depth kind] at le
        omega
      · rw [depthAfter_other depth kind other] at le
        omega
    rw [header]
    simp [inHeaderAfter, closes]

theorem declared_run (beside : r.Beside depth inHeader) (tokens : List Token) :
    (r.run tokens).declared = r.declared ++
      ((openingsFrom depth inHeader tokens).filter (·.depth ≤ nestingLimit)).map (·.declared) := by
  induction tokens generalizing r depth inHeader with
  | nil => simp [run, openingsFrom]
  | cons t rest ih =>
    obtain ⟨beside', declared⟩ := beside.step t rest
    rw [run, ih beside', declared, openingsFrom, List.filter_append, List.map_append, ← List.append_assoc]
    congr 2
    unfold opened?
    cases opens : opening? depth inHeader t rest with
    | none => simp
    | some o =>
      have here : o.depth = depth := by rw [(of_opening? opens).1]
      by_cases le : depth ≤ nestingLimit <;> simp [le, here]

end Reader

/-- The nodes of an outline, named or not, are the declarations that begin where blocks are read. -/
theorem declaredIn_read_eq (tokens : List Token) :
    declaredIn (read tokens).1 = ((openings tokens).filter (·.depth ≤ nestingLimit)).map (·.declared) := by
  obtain ⟨declared_eq, -⟩ := Reader.declaredIn_ended (Reader.run {} tokens) (lastStop tokens)
  rw [read, declared_eq, Reader.declared_run .start]
  simp [Reader.declared, Reader.settled, declaredScope, declaredBlocks, Mode.declared, openings]

end CodeWorkspace.Outline
