/-! The notation of diagnostic texts: quoted strings, sequences, sets and records. -/
namespace ScanSlot.Report

/-- Control characters, U+007F among them. -/
def isControl (c : Char) : Bool :=
  c.toNat < 0x20 || (0x7F ≤ c.toNat && c.toNat < 0xA0)

def escape (c : Char) : List Char :=
  match c with
  | '"' => ['\\', '"']
  | '\\' => ['\\', '\\']
  | '\n' => ['\\', 'n']
  | '\r' => ['\\', 'r']
  | '\t' => ['\\', 't']
  | '\x00' => ['\\', '0']
  | c =>
      if isControl c then
        ['\\', 'u', '\x7b'] ++ Nat.toDigits 16 c.toNat ++ ['\x7d']
      else [c]

/-- Only what acts on the notation and control characters are escaped. A text is meant to hold no other
characters that do not print, such as format characters or marks that extend the one before. -/
def quote (text : String) : String :=
  String.ofList ('"' :: text.toList.flatMap escape ++ ['"'])

def commaSeparated (items : List String) : String :=
  String.intercalate ", " items

def sequence (items : List String) : String :=
  "[" ++ commaSeparated items ++ "]"

def set (items : List String) : String :=
  "\x7b" ++ commaSeparated items ++ "\x7d"

def record (name : String) (fields : List (String × String)) : String :=
  name ++ " \x7b " ++ commaSeparated (fields.map fun (field, value) => field ++ ": " ++ value)
    ++ " \x7d"

end ScanSlot.Report
