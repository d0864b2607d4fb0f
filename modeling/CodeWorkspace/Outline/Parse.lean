import CodeWorkspace.Outline.Reader
import CodeWorkspace.Token.Scan
import CodeWorkspace.Toolchain.Basic

/-! The outline of a document: its declarations and their nesting, with reports on what could not be read. -/
namespace CodeWorkspace.Outline

/-- The tokens that declarations are read from. -/
def isSignificant (t : Token) : Bool := !t.kind.isTrivia && t.kind ≠ .unknown

/-- The end of the last token, 0 if there is none. -/
def lastStop (tokens : List Token) : Nat :=
  match tokens.getLast? with
  | none => 0
  | some t => t.range.stop

/-- The top-level items of a token list, and the problems met on the way in their order. -/
def read (tokens : List Token) : List Node × List Problem :=
  let stop := lastStop tokens
  let r := (Reader.run {} tokens).ended stop
  (r.result stop, r.problems.reverse)

def unknowns (tokens : List Token) : List Problem := (tokens.filter (·.kind = .unknown)).map .unknown

/-- Unknown tokens are reported first, whatever stands around them. A document whose size is no word is not read. -/
def parse (path : Path) (text : String) : Parsed :=
  if text.utf8ByteSize < UInt32.size then
    let tokens := Token.scan text
    let lines := LineTable.ofText text
    let (items, problems) := read (tokens.filter isSignificant)
    { tree := ⟨items, byteLength text.toList⟩
      diagnostics := (unknowns tokens ++ problems).map (·.diagnostic path lines) }
  else { tree := ⟨[], 0⟩, diagnostics := [tooLarge path text.utf8ByteSize] }

end CodeWorkspace.Outline
