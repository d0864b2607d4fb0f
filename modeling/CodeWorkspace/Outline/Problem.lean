import CodeWorkspace.Diagnostic
import CodeWorkspace.Text.Blank
import CodeWorkspace.Text.LineTable
import CodeWorkspace.Token.Basic

/-! What can be wrong with the outline of a document, and how it is reported. -/
namespace CodeWorkspace.Outline

/-- Blocks are read up to this many levels deep. -/
def nestingLimit : Nat := 128

inductive Problem where
  /-- A closing brace with no block to close. -/
  | unbalanced (brace : ByteRange)
  /-- A block that the document ends in. -/
  | unclosed (brace : ByteRange)
  /-- A block below the nesting limit, which is skipped. -/
  | tooDeep (brace : ByteRange)
  | unnamed (keyword : Token)
  | unknown (token : Token)
  deriving DecidableEq, Repr

namespace Problem

def range : Problem → ByteRange
  | unbalanced brace | unclosed brace | tooDeep brace => brace
  | unnamed keyword => keyword.range
  | unknown token => token.range

def code : Problem → String
  | unbalanced _ => "Q0001"
  | unclosed _ => "Q0002"
  | unnamed _ => "Q0003"
  | unknown _ => "Q0004"
  | tooDeep _ => "Q0005"

/-- Text that is no token does not stop a document from being used. -/
def severity : Problem → Severity
  | unknown _ => .warning
  | _ => .error

def message : Problem → String
  | unbalanced _ => "unexpected `\x7d`"
  | unclosed _ => "block is never closed"
  | tooDeep _ => s!"blocks nested more than {nestingLimit} deep are not parsed"
  | unnamed keyword => "`" ++ keyword.text ++ "` declaration has no name"
  | unknown token => "unrecognized input `" ++ Text.trim token.text ++ "`"

def diagnostic (path : Path) (lines : LineTable) (p : Problem) : Diagnostic where
  severity := p.severity
  message := p.message
  code := some p.code
  path := some path
  span := some (lines.span p.range)

end Problem

/-- The one report on a document of so many bytes that offsets into it are no words. It has no place in the text. -/
def tooLarge (path : Path) (size : Nat) : Diagnostic where
  severity := .error
  message := s!"document is {size} bytes; at most {UInt32.size - 1} are supported"
  code := some "Q0006"
  path := some path

end CodeWorkspace.Outline
