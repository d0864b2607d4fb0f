import CodeWorkspace.Path.Basic
import CodeWorkspace.Text.Position

/-! Messages about documents: what tools report to their hosts, and how a report is printed. -/
namespace CodeWorkspace

/-- Only errors fail a compilation. From the gravest down. -/
inductive Severity where
  | error
  | warning
  | info
  | hint
  deriving DecidableEq, Ord, Repr, Inhabited

namespace Severity

/-- The number that language servers use. -/
def number : Severity → Nat
  | error => 1
  | warning => 2
  | info => 3
  | hint => 4

def label : Severity → String
  | error => "error"
  | warning => "warning"
  | info => "info"
  | hint => "hint"

end Severity

structure Diagnostic where
  severity : Severity
  message : String
  code : Option String := none
  path : Option Path := none
  span : Option Span := none
  deriving DecidableEq, Repr, Inhabited

namespace Diagnostic

def isError (d : Diagnostic) : Bool := d.severity = .error

/-- A report belongs to its document; one without a document is given this one. -/
def within (path : Path) (d : Diagnostic) : Diagnostic :=
  match d.path with
  | some _ => d
  | none => { d with path := some path }

def place (d : Diagnostic) : String :=
  match d.path, d.span with
  | none, _ => ""
  | some path, none => path.text ++ ": "
  | some path, some span => path.text ++ ":" ++ span.start.render ++ ": "

/-- Path, line and column, severity, code and message, less what is unknown. A place without a
document is not printed. -/
def render (d : Diagnostic) : String :=
  d.place ++ d.severity.label ++
    (match d.code with
      | none => ""
      | some code => "[" ++ code ++ "]") ++
    ": " ++ d.message

/-- Every report begins on a line of its own. -/
def renderAll (ds : List Diagnostic) : String := "\n".intercalate (ds.map render)

def sortBySeverity (ds : List Diagnostic) : List Diagnostic :=
  ds.mergeSort fun a b => (compare a.severity b.severity).isLE

end Diagnostic
end CodeWorkspace
