import CodeWorkspace.Text.UnseenTable

/-! Texts in quotes, as logs show them: everything that would not be seen is spelled out. -/
namespace CodeWorkspace.Text

/-- Lowercase hexadecimal digits, as many as needed. -/
def hexDigits (n : Nat) : List Char := Nat.toDigits 16 n

def quoteChar (c : Char) : List Char :=
  if c = '"' then ['\\', '"']
  else if c = '\\' then ['\\', '\\']
  else if c = '\n' then ['\\', 'n']
  else if c = '\r' then ['\\', 'r']
  else if c = '\t' then ['\\', 't']
  else if c.toNat = 0 then ['\\', '0']
  else if isUnseen c then ['\\', 'u', '{'] ++ hexDigits c.toNat ++ ['}']
  else [c]

def quote (s : String) : String :=
  String.ofList ('"' :: s.toList.flatMap quoteChar ++ ['"'])

end CodeWorkspace.Text
