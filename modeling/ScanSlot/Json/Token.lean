import ScanSlot.Json.Numeral
import ScanSlot.Json.Quoted

/-! The tokens of JSON text: how each is written, and how text is cut into them. -/
namespace ScanSlot.Json

inductive Token where
  | openArray
  | closeArray
  | openObject
  | closeObject
  | comma
  | colon
  | null
  | bool (value : Bool)
  | number (value : Numeral)
  | text (value : Option String)
  deriving DecidableEq, Repr

def Token.written : Token → List Char
  | openArray => ['[']
  | closeArray => [']']
  | openObject => ['\x7b']
  | closeObject => ['\x7d']
  | comma => [',']
  | colon => [':']
  | null => ['n', 'u', 'l', 'l']
  | bool true => ['t', 'r', 'u', 'e']
  | bool false => ['f', 'a', 'l', 's', 'e']
  | number n => n.written
  | text t => textWritten t

def isBlank (c : Char) : Bool :=
  c = ' ' || c = '\t' || c = '\n' || c = '\r'

/-- The token at the front of the text. -/
def token? : List Char → Option (Token × List Char)
  | '[' :: rest => some (.openArray, rest)
  | ']' :: rest => some (.closeArray, rest)
  | '\x7b' :: rest => some (.openObject, rest)
  | '\x7d' :: rest => some (.closeObject, rest)
  | ',' :: rest => some (.comma, rest)
  | ':' :: rest => some (.colon, rest)
  | '"' :: rest => (pieces? rest).map fun (pieces, rest) =>
      (.text ((joinPieces pieces).map String.ofList), rest)
  | 'n' :: 'u' :: 'l' :: 'l' :: rest => some (.null, rest)
  | 't' :: 'r' :: 'u' :: 'e' :: rest => some (.bool true, rest)
  | 'f' :: 'a' :: 'l' :: 's' :: 'e' :: rest => some (.bool false, rest)
  | cs => (number? cs).map fun (n, rest) => (.number n, rest)

theorem token?_rest_lt {cs rest : List Char} {t : Token}
    (read : token? cs = some (t, rest)) : rest.length < cs.length := by
  unfold token? at read
  split at read
  case h_7 r =>
    simp only [Option.map_eq_some_iff] at read
    obtain ⟨⟨ps, rest'⟩, readPieces, same⟩ := read
    have shorter := pieces?_rest_lt readPieces
    grind
  case h_11 =>
    simp only [Option.map_eq_some_iff] at read
    obtain ⟨⟨n, rest'⟩, readNumber, same⟩ := read
    have shorter := number?_rest_lt readNumber
    grind
  all_goals grind

/-- Cuts a whole text into tokens, blanks left out. -/
def tokens? (cs : List Char) : Option (List Token) :=
  match cs with
  | [] => some []
  | c :: rest =>
      if isBlank c then tokens? rest
      else
        match read : token? (c :: rest) with
        | none => none
        | some (t, rest') =>
            have := token?_rest_lt read
            (tokens? rest').map (t :: ·)
termination_by cs.length
decreasing_by
  · exact Nat.lt_succ_self rest.length
  · exact this

end ScanSlot.Json
