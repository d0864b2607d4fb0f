import CodeWorkspace.Manifest.Token

/-! JSON texts as trees, as far as a text can be read. Where it breaks off the tree holds `broken`, and the
arrays and objects around that place are not closed. -/
namespace CodeWorkspace.Manifest

inductive Value where
  | null
  | boolean
  | number
  | text (value : Option String)
  | array (items : List Value) (closed : Bool)
  | object (members : List (Option String × Value)) (closed : Bool)
  | broken
  deriving Repr, Inhabited

/-- Whether a value was read to its end. -/
def Value.isWhole : Value → Bool
  | .array _ closed | .object _ closed => closed
  | .broken => false
  | _ => true

/-- An array or object that is being read; its parts so far, the last first. -/
inductive Frame where
  | array (items : List Value)
  | object (members : List (Option String × Value))
  /-- An object behind the key of its next member. -/
  | member (members : List (Option String × Value)) (key : Option String)
  deriving Repr

inductive Expected where
  | value
  | firstItem
  | firstKey
  | key
  | colon
  /-- A comma or the end of what is open. -/
  | next
  deriving DecidableEq, Repr

inductive Progress where
  | more (stack : List Frame) (expected : Expected)
  | finished (value : Value)
  | failed
  deriving Repr

def complete (v : Value) : List Frame → Progress
  | [] => .finished v
  | .array items :: outer => .more (.array (v :: items) :: outer) .next
  | .member members key :: outer => .more (.object ((key, v) :: members) :: outer) .next
  | .object _ :: _ => .failed

def valueToken (stack : List Frame) : Token → Progress
  | .null => complete .null stack
  | .boolean => complete .boolean stack
  | .number => complete .number stack
  | .text value => complete (.text value) stack
  | .openBracket => .more (.array [] :: stack) .firstItem
  | .openBrace => .more (.object [] :: stack) .firstKey
  | _ => .failed

def keyToken : List Frame → Token → Progress
  | .object members :: outer, .text key => .more (.member members key :: outer) .colon
  | _, _ => .failed

def advance (stack : List Frame) : Expected → Token → Progress
  | .value, t => valueToken stack t
  | .firstItem, .closeBracket => complete (.array [] true) stack.tail
  | .firstItem, t => valueToken stack t
  | .firstKey, .closeBrace => complete (.object [] true) stack.tail
  | .firstKey, t => keyToken stack t
  | .key, t => keyToken stack t
  | .colon, .colon => .more stack .value
  | .colon, _ => .failed
  | .next, t =>
    match stack, t with
    | .array _ :: _, .comma => .more stack .value
    | .object _ :: _, .comma => .more stack .key
    | .array items :: outer, .closeBracket => complete (.array items.reverse true) outer
    | .object members :: outer, .closeBrace => complete (.object members.reverse true) outer
    | _, _ => .failed

/-- What was read when the text breaks off, `v` standing at the place of the break. -/
def abandon (v : Value) : List Frame → Value
  | [] => v
  | .array items :: outer => abandon (.array (v :: items).reverse false) outer
  | .member members key :: outer => abandon (.object ((key, v) :: members).reverse false) outer
  | .object members :: outer => abandon (.object members.reverse false) outer

/-- Reads one value; also tells whether the text goes on behind it. -/
def build (stack : List Frame) (expected : Expected) : List Token → Value × Bool
  | [] => (abandon .broken stack, false)
  | t :: rest =>
    match advance stack expected t with
    | .more stack expected => build stack expected rest
    | .finished v => (v, !rest.isEmpty)
    | .failed => (abandon .broken stack, true)

def ofText (text : String) : Value × Bool := build [] .value (tokens text.toList)

end CodeWorkspace.Manifest
