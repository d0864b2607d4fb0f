/-! Half-open ranges of byte offsets into the UTF-8 form of a text. -/
namespace CodeWorkspace

structure ByteRange where
  start : Nat
  stop : Nat
  deriving DecidableEq, Repr, Inhabited

/-- Offsets are 32-bit words; one that does not fit becomes the last that does. -/
def saturateOffset (offset : Nat) : Nat := min offset (UInt32.size - 1)

theorem saturateOffset_of_lt {n : Nat} (h : n < UInt32.size) : saturateOffset n = n := by
  simp only [saturateOffset]; omega

/-- The number of bytes of a character list in UTF-8. -/
def byteLength : List Char → Nat
  | [] => 0
  | c :: rest => c.utf8Size + byteLength rest

@[simp] theorem byteLength_nil : byteLength [] = 0 := rfl

@[simp] theorem byteLength_cons (c : Char) (cs : List Char) :
    byteLength (c :: cs) = c.utf8Size + byteLength cs := rfl

@[simp] theorem byteLength_append (a b : List Char) :
    byteLength (a ++ b) = byteLength a + byteLength b := by
  induction a with
  | nil => simp
  | cons c a ih => simp [ih, Nat.add_assoc]

end CodeWorkspace
