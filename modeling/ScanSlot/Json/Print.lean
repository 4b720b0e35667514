import ScanSlot.Json.Token
import ScanSlot.Json.Value

/-! Writing a document: compactly, or with one item a line. -/
namespace ScanSlot.Json.Value

mutual

def tokens : Value → List Token
  | null => [.null]
  | bool b => [.bool b]
  | number n => [.number n]
  | text t => [.text t]
  | array items => .openArray :: itemTokens items ++ [.closeArray]
  | object members => .openObject :: memberTokens members ++ [.closeObject]

def itemTokens : List Value → List Token
  | [] => []
  | [v] => v.tokens
  | v :: rest => v.tokens ++ .comma :: itemTokens rest

def memberTokens : List (Option String × Value) → List Token
  | [] => []
  | [(name, v)] => .text name :: .colon :: v.tokens
  | (name, v) :: rest => .text name :: .colon :: v.tokens ++ .comma :: memberTokens rest

end

/-- Writes the tokens with nothing between them. -/
def compact (v : Value) : List Char :=
  v.tokens.flatMap Token.written

/-- A new line, indented by two blanks for each level. -/
def newLine (level : Nat) : List Char :=
  '\n' :: List.replicate (2 * level) ' '

mutual

def prettyAt (level : Nat) : Value → List Char
  | null => Token.null.written
  | bool b => (Token.bool b).written
  | number n => n.written
  | text t => textWritten t
  | array [] => ['[', ']']
  | array items => '[' :: prettyItems (level + 1) items ++ newLine level ++ [']']
  | object [] => ['\x7b', '\x7d']
  | object members => '\x7b' :: prettyMembers (level + 1) members ++ newLine level ++ ['\x7d']

def prettyItems (level : Nat) : List Value → List Char
  | [] => []
  | [v] => newLine level ++ v.prettyAt level
  | v :: rest => newLine level ++ v.prettyAt level ++ ',' :: prettyItems level rest

def prettyMembers (level : Nat) : List (Option String × Value) → List Char
  | [] => []
  | [(name, v)] => newLine level ++ textWritten name ++ [':', ' '] ++ v.prettyAt level
  | (name, v) :: rest =>
      newLine level ++ textWritten name ++ [':', ' '] ++ v.prettyAt level
        ++ ',' :: prettyMembers level rest

end

/-- Writes each item and member on a line of its own; an empty array or object stays on one. -/
def pretty (v : Value) : List Char :=
  v.prettyAt 0

end ScanSlot.Json.Value
