import CodeWorkspace.Text.ByteRange
import CodeWorkspace.Tree.Kind

/-! Tokens of a brace-delimited language: enough of it to find declarations. -/
namespace CodeWorkspace

inductive TokenKind where
  | whitespace
  | comment
  | literal
  /-- A word that announces a declaration of this kind. -/
  | keyword (declares : DeclKind)
  | ident
  | openBrace
  | closeBrace
  | semicolon
  | dot
  | punctuation
  | unknown
  deriving DecidableEq, Repr, Inhabited

structure Token where
  kind : TokenKind
  text : String
  range : ByteRange
  deriving DecidableEq, Repr, Inhabited

namespace TokenKind

def isTrivia : TokenKind → Bool
  | whitespace | comment => true
  | _ => false

def isKeyword : TokenKind → Bool
  | keyword _ => true
  | _ => false

/-- The words that announce declarations, several of them synonyms. -/
def ofWord (word : String) : TokenKind :=
  if word = "namespace" ∨ word = "package" ∨ word = "module" then keyword .namespaceDecl
  else if word = "class" then keyword .classDecl
  else if word = "struct" then keyword .structDecl
  else if word = "interface" ∨ word = "trait" then keyword .interfaceDecl
  else if word = "enum" then keyword .enumDecl
  else if word = "record" then keyword .recordDecl
  else if word = "fn" ∨ word = "func" ∨ word = "function" then keyword .functionDecl
  else ident

end TokenKind
end CodeWorkspace
