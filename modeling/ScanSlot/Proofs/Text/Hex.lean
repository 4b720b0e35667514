import ScanSlot.Text.Hex

/-! Hexadecimal read back: two digits give their byte, so what is written for some bytes stands for
them and no others, and nothing that begins with a quote is read. -/
namespace ScanSlot.Hex

theorem digit?_digit {n : Nat} (small : n < 16) : digit? (digit n) = some n := by
  revert n
  decide

def IsLower (c : Char) : Prop :=
  ('0' ≤ c ∧ c ≤ '9') ∨ ('a' ≤ c ∧ c ≤ 'f')

theorem isLower_digit {n : Nat} (small : n < 16) : IsLower (digit n) := by
  revert n
  unfold IsLower
  decide

/-- Two digits make a byte, the first of them its high half. -/
def decode : List Char → Option (List UInt8)
  | [] => some []
  | [_] => none
  | high :: low :: rest =>
      match digit? high, digit? low with
      | some h, some l => (decode rest).map (UInt8.ofNat (16 * h + l) :: ·)
      | _, _ => none

theorem encode_cons (b : UInt8) (bs : List UInt8) :
    encode (b :: bs) = digit (b.toNat / 16) :: digit (b.toNat % 16) :: encode bs := rfl

@[simp] theorem decode_encode (bs : List UInt8) : decode (encode bs) = some bs := by
  induction bs with
  | nil => rfl
  | cons b bs ih =>
    have small := b.toNat_lt
    have byte : UInt8.ofNat (16 * (b.toNat / 16) + b.toNat % 16) = b := by
      rw [Nat.div_add_mod, UInt8.ofNat_toNat]
    rw [encode_cons, decode, digit?_digit (by omega), digit?_digit (by omega)]
    simp only [ih, byte, Option.map_some]

theorem encode_injective {as bs : List UInt8} (same : encode as = encode bs) : as = bs := by
  have decoded := congrArg decode same
  simpa only [decode_encode, Option.some.injEq] using decoded

theorem length_encode (bs : List UInt8) : (encode bs).length = 2 * bs.length := by
  induction bs with
  | nil => rfl
  | cons b bs ih =>
    simp only [encode_cons, List.length_cons, ih]
    omega

theorem isLower_of_mem_encode {bs : List UInt8} {c : Char} (here : c ∈ encode bs) :
    IsLower c := by
  obtain ⟨b, _, here⟩ := List.mem_flatMap.mp here
  have small := b.toNat_lt
  simp only [List.mem_cons, List.not_mem_nil, or_false] at here
  rcases here with rfl | rfl
  · exact isLower_digit (by omega)
  · exact isLower_digit (by omega)

theorem decode_quote (cs : List Char) : decode ('"' :: cs) = none := by
  cases cs with
  | nil => rfl
  | cons c cs =>
    have unread : digit? '"' = none := by decide
    rw [decode, unread]

theorem quote_cons_ne_encode (cs : List Char) (bs : List UInt8) : '"' :: cs ≠ encode bs := by
  intro same
  have decoded := congrArg decode same
  rw [decode_quote, decode_encode] at decoded
  contradiction

end ScanSlot.Hex
