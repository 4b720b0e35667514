import ScanSlot.Proofs.Text.Utf8

/-! Well-formed UTF-8, said by what is ruled out: sequences that are cut short, overlong forms,
surrogates and values above U+10FFFF. The bytes that are well formed in this sense are exactly those
that decode to a text. -/
namespace ScanSlot.Utf8

/-- A first byte with as many bytes behind it as its leading bits announce, and the value that the
remaining bits make up. -/
inductive Sequence : List UInt8 → Nat → Prop where
  | one {a : UInt8} (first : a.toNat < 0x80) : Sequence [a] a.toNat
  | two {a b : UInt8} (first : 0xC0 ≤ a.toNat ∧ a.toNat < 0xE0) (second : Tail b) :
      Sequence [a, b] ((a.toNat - 0xC0) * 64 + b.toNat % 64)
  | three {a b c : UInt8} (first : 0xE0 ≤ a.toNat ∧ a.toNat < 0xF0) (second : Tail b)
      (third : Tail c) :
      Sequence [a, b, c] (((a.toNat - 0xE0) * 64 + b.toNat % 64) * 64 + c.toNat % 64)
  | four {a b c d : UInt8} (first : 0xF0 ≤ a.toNat ∧ a.toNat < 0xF8) (second : Tail b)
      (third : Tail c) (last : Tail d) :
      Sequence [a, b, c, d]
        ((((a.toNat - 0xF0) * 64 + b.toNat % 64) * 64 + c.toNat % 64) * 64 + d.toNat % 64)

/-- The least value for which fewer bytes do not suffice. -/
def leastOfWidth : Nat → Nat
  | 0 | 1 => 0
  | 2 => 0x80
  | 3 => 0x800
  | _ => 0x10000

structure Proper (unit : List UInt8) (v : Nat) : Prop where
  whole : Sequence unit v
  shortest : leastOfWidth unit.length ≤ v
  no_surrogate : ¬ (0xD800 ≤ v ∧ v ≤ 0xDFFF)
  le_max : v ≤ 0x10FFFF

inductive WellFormed : List UInt8 → Prop where
  | nil : WellFormed []
  | cons {unit rest : List UInt8} {v : Nat} (proper : Proper unit v) (more : WellFormed rest) :
      WellFormed (unit ++ rest)

/-- The bounds on the first two bytes of a spelling leave out what may not occur. -/
theorem proper_of_spells {unit : List UInt8} {v : Nat} (spelled : Spells unit v) :
    Proper unit v := by
  have valid := isValidChar_of_spells spelled
  unfold Nat.isValidChar at valid
  refine ⟨?whole, ?shortest, by omega, by omega⟩
  case whole =>
    cases spelled with
    | one first => exact .one first
    | two first second => exact .two (by omega) second
    | three first second long scalar third => exact .three first second third
    | four first second long small third last => exact .four (by omega) second third last
  case shortest =>
    cases spelled with
    | one first => exact Nat.zero_le _
    | @two a b first second =>
      have bound : 0x80 ≤ (a.toNat - 0xC0) * 64 + b.toNat % 64 := by omega
      exact bound
    | @three a b c first second long scalar third =>
      obtain ⟨low, high⟩ := second
      have bound : 0x800 ≤ ((a.toNat - 0xE0) * 64 + b.toNat % 64) * 64 + c.toNat % 64 := by omega
      exact bound
    | @four a b c d first second long small third last =>
      obtain ⟨low, high⟩ := second
      have bound : 0x10000 ≤
          (((a.toNat - 0xF0) * 64 + b.toNat % 64) * 64 + c.toNat % 64) * 64 + d.toNat % 64 := by
        omega
      exact bound

theorem spells_of_proper {unit : List UInt8} {v : Nat} (proper : Proper unit v) :
    Spells unit v := by
  obtain ⟨whole, shortest, scalar, max⟩ := proper
  cases whole with
  | one first => exact .one first
  | @two a b first second =>
    replace shortest : 0x80 ≤ (a.toNat - 0xC0) * 64 + b.toNat % 64 := shortest
    exact .two (by omega) second
  | @three a b c first second third =>
    replace shortest : 0x800 ≤ ((a.toNat - 0xE0) * 64 + b.toNat % 64) * 64 + c.toNat % 64 :=
      shortest
    have low := second.1
    have high := second.2
    exact .three first second (by omega) (by omega) third
  | @four a b c d first second third last =>
    replace shortest : 0x10000 ≤
        (((a.toNat - 0xF0) * 64 + b.toNat % 64) * 64 + c.toNat % 64) * 64 + d.toNat % 64 := shortest
    have low := second.1
    have high := second.2
    exact .four (by omega) second (by omega) (by omega) third last

/-- What encoding writes for a character is proper. -/
theorem exists_proper_encodeChar (c : Char) : ∃ v, Proper (String.utf8EncodeChar c) v := by
  obtain ⟨unit, v, whole, spelled, _⟩ := spells_of_front (front_encodeChar c [])
  rw [List.append_nil, List.append_nil] at whole
  rw [whole]
  exact ⟨v, proper_of_spells spelled⟩

theorem wellFormed_iff_decode {bs : List UInt8} :
    WellFormed bs ↔ ∃ text, decode bs = some text := by
  constructor
  · intro wellFormed
    induction wellFormed with
    | nil => exact ⟨[], decode_encode []⟩
    | cons proper _ ih =>
      obtain ⟨text, decoded⟩ := ih
      have spelled := encodeChar_of_spells (spells_of_proper proper)
      rw [← spelled, decode_of_front (front_encodeChar _ _), decoded]
      exact ⟨_, rfl⟩
  · rintro ⟨text, decoded⟩
    rw [← decode_eq_some.mp decoded]
    clear decoded
    induction text with
    | nil => exact .nil
    | cons c text ih =>
      obtain ⟨v, proper⟩ := exists_proper_encodeChar c
      exact .cons proper ih

instance (bs : List UInt8) : Decidable (WellFormed bs) :=
  decidable_of_iff ((decode bs).isSome = true)
    (Option.isSome_iff_exists.trans wellFormed_iff_decode.symm)

/-- Cut short, overlong, a surrogate, too large. -/
example : ∀ bs ∈ [[0xE2, 0x82], [0xC0, 0x80], [0xED, 0xA0, 0x80], [0xF4, 0x90, 0x80, 0x80]],
    ¬ WellFormed bs := by
  decide +kernel

end ScanSlot.Utf8
