import CodeWorkspace.Outline.Problem
import CodeWorkspace.Tree.Node

/-! Reading declarations off a list of tokens, one token at a time. A reader holds the blocks that are open;
a declaration is finished, and joins the items around it, when its body closes, its semicolon comes, or
something else shows that it has no body. Blocks that belong to no declaration are transparent: what they
declare counts as declared around them. -/
namespace CodeWorkspace.Outline

/-- A declaration whose end is not yet known; `stop` is as far as it reaches by now. -/
structure Header where
  kind : DeclKind
  name : Option String
  start : Nat
  stop : Nat
  deriving DecidableEq, Repr

def Header.node (h : Header) (stop : Nat) (children : List Node) : Node :=
  ⟨h.kind, h.name, ⟨h.start, stop⟩, children⟩

/-- An open block: the declaration it is the body of, unless it is transparent, and its items so far,
the last first. -/
structure Block where
  owner : Option Header
  brace : ByteRange
  items : List Node
  deriving Repr

/-- What a block that ends at `stop` leaves to the list around it, the last first as in `items`. -/
def contents (owner : Option Header) (items : List Node) (stop : Nat) : List Node :=
  match owner with
  | none => items
  | some h => [h.node stop items.reverse]

inductive Mode where
  /-- Between declarations. -/
  | items
  /-- Behind a keyword, before the body. -/
  | header (h : Header)
  /-- In a block below the nesting limit, with `inner` blocks open inside it. -/
  | skipping (owner : Option Header) (brace : ByteRange) (inner : Nat)
  deriving Repr

structure Reader where
  /-- Top-level items so far, the last first. -/
  items : List Node := []
  /-- The namespace that owns the rest of the document, once there is one, with its items, the last first. -/
  scope : Option (Header × List Node) := none
  /-- Open blocks, the innermost first. -/
  blocks : List Block := []
  mode : Mode := .items
  /-- The last first. -/
  problems : List Problem := []
  deriving Repr

/-- The name at the head of the tokens: identifiers joined by dots. -/
def nameOf? : List Token → Option String
  | [] => none
  | t :: rest => if t.kind = .ident then some (t.text ++ tailOf rest) else none
where
  tailOf : List Token → String
  | d :: t :: rest =>
    if d.kind = .dot ∧ t.kind = .ident then "." ++ t.text ++ tailOf rest else ""
  | _ => ""

def startsWithKeyword : List Token → Bool
  | t :: _ => t.kind.isKeyword
  | [] => false

def startsWithIdent : List Token → Bool
  | t :: _ => t.kind = .ident
  | [] => false

namespace Reader

def report (r : Reader) (p : Problem) : Reader := { r with problems := p :: r.problems }

/-- Adds items, the last first, to the innermost list that is open. -/
def add (r : Reader) (nodes : List Node) : Reader :=
  match r.blocks, r.scope with
  | b :: outer, _ => { r with blocks := { b with items := nodes ++ b.items } :: outer }
  | [], some (h, items) => { r with scope := some (h, nodes ++ items) }
  | [], none => { r with items := nodes ++ r.items }

/-- Ends the block of `owner` at `stop`; `items` are those inside it, the last first. -/
def finish (r : Reader) (owner : Option Header) (items : List Node) (stop : Nat) : Reader :=
  r.add (contents owner items stop)

def opened (r : Reader) (owner : Option Header) (brace : ByteRange) : Reader :=
  if r.blocks.length < nestingLimit then
    { r with blocks := ⟨owner, brace, []⟩ :: r.blocks, mode := .items }
  else { r.report (.tooDeep brace) with mode := .skipping owner brace 0 }

/-- A token between declarations, `rest` behind it. A keyword right before another one is a modifier. -/
def item (r : Reader) (t : Token) (rest : List Token) : Reader :=
  match t.kind with
  | .openBrace => r.opened none t.range
  | .closeBrace =>
    match r.blocks with
    | [] => r.report (.unbalanced t.range)
    | b :: outer => { r with blocks := outer }.finish b.owner b.items t.range.stop
  | .keyword kind =>
    if startsWithKeyword rest then r
    else
      let r := if startsWithIdent rest then r else r.report (.unnamed t)
      { r with mode := .header ⟨kind, nameOf? rest, t.range.start, t.range.stop⟩ }
  | _ => r

/-- A declaration without a body ends where its header does. -/
def close (r : Reader) (h : Header) : Reader :=
  { r with mode := .items }.finish (some h) [] h.stop

/-- A token behind a keyword. A namespace that ends in a semicolon outside all blocks owns the rest of the
document, if it is the first to do so. -/
def headerToken (r : Reader) (h : Header) (t : Token) (rest : List Token) : Reader :=
  match t.kind with
  | .openBrace => r.opened (some h) t.range
  | .semicolon =>
    let h := { h with stop := t.range.stop }
    if h.kind = .namespaceDecl ∧ r.blocks.isEmpty ∧ r.scope.isNone then
      { r with mode := .items, scope := some (h, []) }
    else r.close h
  | .closeBrace => (r.close h).item t rest
  | .keyword _ =>
    if startsWithIdent rest then (r.close h).item t rest
    else { r with mode := .header { h with stop := t.range.stop } }
  | _ => { r with mode := .header { h with stop := t.range.stop } }

def skippedToken (r : Reader) (owner : Option Header) (brace : ByteRange) (inner : Nat) (t : Token) :
    Reader :=
  match t.kind, inner with
  | .openBrace, _ => { r with mode := .skipping owner brace (inner + 1) }
  | .closeBrace, 0 => { r with mode := .items }.finish owner [] t.range.stop
  | .closeBrace, inner + 1 => { r with mode := .skipping owner brace inner }
  | _, _ => r

def step (r : Reader) (t : Token) (rest : List Token) : Reader :=
  match r.mode with
  | .items => r.item t rest
  | .header h => r.headerToken h t rest
  | .skipping owner brace inner => r.skippedToken owner brace inner t

def run (r : Reader) : List Token → Reader
  | [] => r
  | t :: rest => (r.step t rest).run rest

/-- What blocks that all end at `stop`, the innermost first, leave to the list around them; `inside` is what
the innermost one is still to receive. -/
def unwind (stop : Nat) : List Block → List Node → List Node
  | [], inside => inside
  | b :: outer, inside => unwind stop outer (contents b.owner (inside ++ b.items) stop)

/-- The end of the document, `stop` being the end of its last token. Blocks still open end there. -/
def ended (r : Reader) (stop : Nat) : Reader :=
  let r : Reader := match r.mode with
    | .items => r
    | .header h => r.close h
    | .skipping owner brace _ =>
      { r.report (.unclosed brace) with mode := .items }.finish owner [] stop
  let outside : Reader := { r with
    blocks := []
    problems := (r.blocks.map fun b => .unclosed b.brace).reverse ++ r.problems }
  outside.add (unwind stop r.blocks [])

/-- The top-level items once the document has ended. -/
def result (r : Reader) (stop : Nat) : List Node :=
  match r.scope with
  | none => r.items.reverse
  | some (h, items) => (h.node (max h.stop stop) items.reverse :: r.items).reverse

end Reader
end CodeWorkspace.Outline
