import ScanSlot.Text.Hex

/-! JSON strings: how a text is quoted, and how a quoted text is read back. -/
namespace ScanSlot.Json

def escape (c : Char) : List Char :=
  match c with
  | '"' => ['\\', '"']
  | '\\' => ['\\', '\\']
  | '\x08' => ['\\', 'b']
  | '\x0c' => ['\\', 'f']
  | '\n' => ['\\', 'n']
  | '\r' => ['\\', 'r']
  | '\t' => ['\\', 't']
  | c =>
      if c.toNat < 0x20 then
        ['\\', 'u', '0', '0', Hex.digit (c.toNat / 16), Hex.digit (c.toNat % 16)]
      else [c]

/-- A string that is no text is written as one unpaired surrogate. -/
def textWritten : Option String → List Char
  | some t => '"' :: t.toList.flatMap escape ++ ['"']
  | none => ['"', '\\', 'u', 'd', '8', '0', '0', '"']

/-- A string's content before surrogate escapes are joined. -/
inductive Piece where
  | char (value : Char)
  /-- Holds what a four-digit escape names. -/
  | unit (value : Nat)

def unescape? : Char → Option Char
  | '"' => some '"'
  | '\\' => some '\\'
  | '/' => some '/'
  | 'b' => some '\x08'
  | 'f' => some '\x0c'
  | 'n' => some '\n'
  | 'r' => some '\r'
  | 't' => some '\t'
  | _ => none

def unit? (a b c d : Char) : Option Nat := do
  let a ← Hex.digit? a
  let b ← Hex.digit? b
  let c ← Hex.digit? c
  let d ← Hex.digit? d
  some (((a * 16 + b) * 16 + c) * 16 + d)

/-- Reads a string's content up to the closing quote. -/
def pieces? : List Char → Option (List Piece × List Char)
  | '"' :: rest => some ([], rest)
  | '\\' :: 'u' :: a :: b :: c :: d :: rest =>
      (unit? a b c d).bind fun unit => (pieces? rest).map (Prod.map (.unit unit :: ·) id)
  | '\\' :: c :: rest =>
      (unescape? c).bind fun char => (pieces? rest).map (Prod.map (.char char :: ·) id)
  | c :: rest =>
      if c.toNat < 0x20 ∨ c = '\\' then none
      else (pieces? rest).map (Prod.map (.char c :: ·) id)
  | [] => none

def isHigh (unit : Nat) : Bool := 0xD800 ≤ unit && unit < 0xDC00

def isLow (unit : Nat) : Bool := 0xDC00 ≤ unit && unit < 0xE000

/-- A high surrogate must be followed at once by a low one; any other surrogate is unpaired. -/
def joinPieces : List Piece → Option (List Char)
  | [] => some []
  | .char c :: rest => (joinPieces rest).map (c :: ·)
  | .unit u :: .unit l :: rest =>
      if isHigh u && isLow l then
        (joinPieces rest).map (Char.ofNat (0x10000 + (u - 0xD800) * 0x400 + (l - 0xDC00)) :: ·)
      else if isHigh u || isLow u then none
      else (joinPieces (.unit l :: rest)).map (Char.ofNat u :: ·)
  | .unit u :: rest =>
      if isHigh u || isLow u then none else (joinPieces rest).map (Char.ofNat u :: ·)

theorem pieces?_rest_lt {cs rest : List Char} {ps : List Piece}
    (read : pieces? cs = some (ps, rest)) : rest.length < cs.length := by
  fun_induction pieces? cs generalizing ps rest with
  | case1 r =>
      simp only [Option.some.injEq, Prod.mk.injEq] at read
      simp [← read.2]
  | case2 a b c d r ih =>
      simp only [Option.bind_eq_some_iff, Option.map_eq_some_iff, Prod.map, Prod.mk.injEq] at read
      obtain ⟨_, _, ⟨ps', r'⟩, readRest, _, rfl⟩ := read
      have shorter := ih readRest
      simp only [List.length_cons, id]
      omega
  | case3 c r _ ih =>
      simp only [Option.bind_eq_some_iff, Option.map_eq_some_iff, Prod.map, Prod.mk.injEq] at read
      obtain ⟨_, _, ⟨ps', r'⟩, readRest, _, rfl⟩ := read
      have shorter := ih readRest
      simp only [List.length_cons, id]
      omega
  | case4 => simp at read
  | case5 c r _ _ _ _ ih =>
      simp only [Option.map_eq_some_iff, Prod.map, Prod.mk.injEq] at read
      obtain ⟨⟨ps', r'⟩, readRest, _, rfl⟩ := read
      have shorter := ih readRest
      simp only [List.length_cons, id]
      omega
  | case6 => simp at read

end ScanSlot.Json
