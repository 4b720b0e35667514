import ScanSlot.Text.Utf8

/-! Decoding accepts only what encoding writes: the bytes that it reads as a text are the bytes of
that text. A scalar is spelled in one of four widths, and the bounds on its first two bytes leave
one spelling to each value, so reading and writing a scalar are inverse to each other. -/
namespace ScanSlot.Utf8

/-- A byte inside a spelling, after the first one. -/
def Tail (byte : UInt8) : Prop :=
  0x80 ≤ byte.toNat ∧ byte.toNat ≤ 0xBF

/-- The spellings of a value, by their width. The second byte has tighter bounds behind a first
byte that would else start an overlong form, a surrogate or a value above U+10FFFF. -/
inductive Spells : List UInt8 → Nat → Prop where
  | one {a : UInt8} (first : a.toNat < 0x80) : Spells [a] a.toNat
  | two {a b : UInt8} (first : 0xC2 ≤ a.toNat ∧ a.toNat < 0xE0) (second : Tail b) :
      Spells [a, b] ((a.toNat - 0xC0) * 64 + b.toNat % 64)
  | three {a b c : UInt8} (first : 0xE0 ≤ a.toNat ∧ a.toNat < 0xF0) (second : Tail b)
      (long : a.toNat = 0xE0 → 0xA0 ≤ b.toNat) (scalar : a.toNat = 0xED → b.toNat ≤ 0x9F)
      (third : Tail c) :
      Spells [a, b, c] (((a.toNat - 0xE0) * 64 + b.toNat % 64) * 64 + c.toNat % 64)
  | four {a b c d : UInt8} (first : 0xF0 ≤ a.toNat ∧ a.toNat ≤ 0xF4) (second : Tail b)
      (long : a.toNat = 0xF0 → 0x90 ≤ b.toNat) (small : a.toNat = 0xF4 → b.toNat ≤ 0x8F)
      (third : Tail c) (last : Tail d) :
      Spells [a, b, c, d]
        ((((a.toNat - 0xF0) * 64 + b.toNat % 64) * 64 + c.toNat % 64) * 64 + d.toNat % 64)

/-- What a first byte announces, by the width of the spelling it starts. -/
inductive Announced (n : Nat) : Lead → Prop where
  | one (first : n < 0x80) : Announced n ⟨0, 0x80, 0xBF, n⟩
  | two (first : 0xC2 ≤ n ∧ n < 0xE0) : Announced n ⟨1, 0x80, 0xBF, n - 0xC0⟩
  | three {low high : Nat} (first : 0xE0 ≤ n ∧ n < 0xF0) (inside : 0x80 ≤ low ∧ high ≤ 0xBF)
      (long : n = 0xE0 → 0xA0 ≤ low) (scalar : n = 0xED → high ≤ 0x9F) :
      Announced n ⟨2, low, high, n - 0xE0⟩
  | four {low high : Nat} (first : 0xF0 ≤ n ∧ n ≤ 0xF4) (inside : 0x80 ≤ low ∧ high ≤ 0xBF)
      (long : n = 0xF0 → 0x90 ≤ low) (small : n = 0xF4 → high ≤ 0x8F) :
      Announced n ⟨3, low, high, n - 0xF0⟩

theorem announced_of_lead {a : UInt8} {lead : Lead} (announced : lead? a = some lead) :
    Announced a.toNat lead := by
  simp only [lead?] at announced
  generalize a.toNat = n at announced ⊢
  split at announced
  · obtain rfl := Option.some.inj announced
    exact .one (by omega)
  split at announced
  · contradiction
  split at announced
  · obtain rfl := Option.some.inj announced
    exact .two (by omega)
  split at announced
  · rename_i same
    subst same
    obtain rfl := Option.some.inj announced
    exact .three (by omega) (by omega) (by omega) (by omega)
  split at announced
  · rename_i same
    subst same
    obtain rfl := Option.some.inj announced
    exact .three (by omega) (by omega) (by omega) (by omega)
  split at announced
  · obtain rfl := Option.some.inj announced
    exact .three (by omega) (by omega) (by omega) (by omega)
  split at announced
  · rename_i same
    subst same
    obtain rfl := Option.some.inj announced
    exact .four (by omega) (by omega) (by omega) (by omega)
  split at announced
  · obtain rfl := Option.some.inj announced
    exact .four (by omega) (by omega) (by omega) (by omega)
  split at announced
  · rename_i same
    subst same
    obtain rfl := Option.some.inj announced
    exact .four (by omega) (by omega) (by omega) (by omega)
  · contradiction

theorem scalar_of_follow_zero {bits low high : Nat} {bs rest : List UInt8} {c : Char}
    (read : follow bits 0 low high bs = .scalar c rest) : c = Char.ofNat bits ∧ bs = rest := by
  simp only [follow, Front.scalar.injEq] at read
  exact ⟨read.1.symm, read.2⟩

theorem cons_of_follow_succ {bits n low high : Nat} {bs rest : List UInt8} {c : Char}
    (read : follow bits (n + 1) low high bs = .scalar c rest) :
    ∃ b bs', bs = b :: bs' ∧ (low ≤ b.toNat ∧ b.toNat ≤ high) ∧
      follow (bits * 64 + b.toNat % 64) n 0x80 0xBF bs' = .scalar c rest := by
  cases bs with
  | nil => simp [follow] at read
  | cons b bs =>
    simp only [follow] at read
    split at read
    · rename_i inside
      exact ⟨b, bs, rfl, inside, read⟩
    · contradiction

theorem spells_of_front {bs rest : List UInt8} {c : Char} (read : front bs = .scalar c rest) :
    ∃ unit v, bs = unit ++ rest ∧ Spells unit v ∧ c = Char.ofNat v := by
  cases bs with
  | nil => simp [front] at read
  | cons a bs =>
    simp only [front] at read
    split at read
    · rename_i lead announced
      cases announced_of_lead announced with
      | one first =>
        obtain ⟨rfl, rfl⟩ := scalar_of_follow_zero read
        exact ⟨_, _, rfl, .one first, rfl⟩
      | two first =>
        obtain ⟨b, bs, rfl, second, read⟩ := cons_of_follow_succ read
        obtain ⟨rfl, rfl⟩ := scalar_of_follow_zero read
        exact ⟨_, _, rfl, .two first second, rfl⟩
      | three first inside long scalar =>
        obtain ⟨b, bs, rfl, second, read⟩ := cons_of_follow_succ read
        obtain ⟨c, bs, rfl, third, read⟩ := cons_of_follow_succ read
        obtain ⟨rfl, rfl⟩ := scalar_of_follow_zero read
        have tail : Tail b := ⟨Nat.le_trans inside.1 second.1, Nat.le_trans second.2 inside.2⟩
        exact ⟨_, _, rfl, .three first tail (fun same => Nat.le_trans (long same) second.1)
          (fun same => Nat.le_trans second.2 (scalar same)) third, rfl⟩
      | four first inside long small =>
        obtain ⟨b, bs, rfl, second, read⟩ := cons_of_follow_succ read
        obtain ⟨c, bs, rfl, third, read⟩ := cons_of_follow_succ read
        obtain ⟨d, bs, rfl, last, read⟩ := cons_of_follow_succ read
        obtain ⟨rfl, rfl⟩ := scalar_of_follow_zero read
        have tail : Tail b := ⟨Nat.le_trans inside.1 second.1, Nat.le_trans second.2 inside.2⟩
        exact ⟨_, _, rfl, .four first tail (fun same => Nat.le_trans (long same) second.1)
          (fun same => Nat.le_trans second.2 (small same)) third last, rfl⟩
    · contradiction

theorem isValidChar_of_spells {unit : List UInt8} {v : Nat} (spelled : Spells unit v) :
    v.isValidChar := by
  unfold Nat.isValidChar
  cases spelled with
  | one first => omega
  | two first second => omega
  | three first second long scalar third =>
    unfold Tail at second
    omega
  | four first second long small third last =>
    unfold Tail at second
    omega

theorem ofNat_eq_byte {n : Nat} {b : UInt8} (same : n = b.toNat) : UInt8.ofNat n = b := by
  rw [same, UInt8.ofNat_toNat]

/-- A value has one spelling, which is the one that encoding writes. -/
theorem encodeChar_of_spells {unit : List UInt8} {v : Nat} (spelled : Spells unit v) :
    String.utf8EncodeChar (Char.ofNat v) = unit := by
  have scalar : Char.ofNat v = Char.ofNatAux v (isValidChar_of_spells spelled) :=
    dif_pos (isValidChar_of_spells spelled)
  have value : (Char.ofNat v).val.toNat = v := by
    rw [scalar]
    rfl
  simp only [String.utf8EncodeChar, value]
  cases spelled with
  | @one a first =>
    rw [if_pos (by omega), ofNat_eq_byte rfl]
  | @two a b first second =>
    unfold Tail at second
    rw [if_neg (by omega), if_pos (by omega), ofNat_eq_byte (b := a) (by omega),
      ofNat_eq_byte (b := b) (by omega)]
  | @three a b c first second long scalar third =>
    unfold Tail at second third
    rw [if_neg (by omega), if_neg (by omega), if_pos (by omega),
      ofNat_eq_byte (b := a) (by omega), ofNat_eq_byte (b := b) (by omega),
      ofNat_eq_byte (b := c) (by omega)]
  | @four a b c d first second long small third last =>
    unfold Tail at second third last
    rw [if_neg (by omega), if_neg (by omega), if_neg (by omega),
      ofNat_eq_byte (b := a) (by omega), ofNat_eq_byte (b := b) (by omega),
      ofNat_eq_byte (b := c) (by omega), ofNat_eq_byte (b := d) (by omega)]

theorem front_eq_scalar {bs rest : List UInt8} {c : Char} :
    front bs = .scalar c rest ↔ bs = String.utf8EncodeChar c ++ rest := by
  constructor
  · intro read
    obtain ⟨unit, v, rfl, spelled, rfl⟩ := spells_of_front read
    rw [encodeChar_of_spells spelled]
  · rintro rfl
    exact front_encodeChar c rest

theorem follow_ne_empty (bits n low high : Nat) (bs : List UInt8) :
    follow bits n low high bs ≠ .empty := by
  induction n generalizing bits low high bs with
  | zero => simp [follow]
  | succ n ih =>
    cases bs with
    | nil => simp [follow]
    | cons b bs =>
      simp only [follow]
      split
      · exact ih _ _ _ _
      · simp

theorem front_eq_empty {bs : List UInt8} : front bs = .empty ↔ bs = [] := by
  cases bs with
  | nil => simp [front]
  | cons b bs =>
    simp only [front, reduceCtorEq, iff_false]
    split
    · exact follow_ne_empty _ _ _ _ _
    · simp

/-- Bytes are read as a text where they are what encoding writes for it. -/
theorem decode_eq_some {bs : List UInt8} {text : List Char} :
    decode bs = some text ↔ encode text = bs := by
  constructor
  · intro decoded
    induction text generalizing bs with
    | nil =>
      rw [decode] at decoded
      split at decoded
      · rename_i read
        exact (front_eq_empty.mp read).symm
      · simp at decoded
      · contradiction
    | cons c text ih =>
      rw [decode] at decoded
      split at decoded
      · simp at decoded
      · rename_i head rest read
        obtain ⟨tail, read', same⟩ := Option.map_eq_some_iff.mp decoded
        obtain ⟨rfl, rfl⟩ := List.cons.inj same
        rw [front_eq_scalar.mp read, encode, List.flatMap_cons, ← encode, ih read']
      · contradiction
  · rintro rfl
    exact decode_encode text

/-- The bytes are those that a string is stored as. -/
theorem bytes_eq_toByteArray (text : String) : bytes text = text.toByteArray.data.toList := by
  have stored := String.toByteArray_ofList (l := text.toList)
  rw [String.ofList_toList] at stored
  rw [stored, List.utf8Encode, bytes, encode]
  simp

end ScanSlot.Utf8
