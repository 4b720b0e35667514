/-! UTF-8 over byte lists: the encoding of a text, strict decoding, and a lossy decoding that
writes U+FFFD where the bytes stop making sense. Decoding gives back what was encoded, so
distinct texts have distinct bytes. -/
namespace ScanSlot.Utf8

def encode (text : List Char) : List UInt8 :=
  text.flatMap String.utf8EncodeChar

/-- The bytes of a string, which is also the key by which texts are ordered. -/
def bytes (text : String) : List UInt8 :=
  encode text.toList

theorem bytes_append (s t : String) : bytes (s ++ t) = bytes s ++ bytes t := by
  rw [bytes, String.toList_append, encode, List.flatMap_append]
  rfl

/-- What a first byte announces: how many bytes follow, the range of the second byte, and the
bits that the first byte itself carries. -/
structure Lead where
  following : Nat
  low : Nat
  high : Nat
  bits : Nat

/-- The range of the second byte leaves out overlong forms, surrogates and values above U+10FFFF. -/
def lead? (byte : UInt8) : Option Lead :=
  let n := byte.toNat
  if n < 0x80 then some ⟨0, 0x80, 0xBF, n⟩
  else if n < 0xC2 then none
  else if n < 0xE0 then some ⟨1, 0x80, 0xBF, n - 0xC0⟩
  else if n = 0xE0 then some ⟨2, 0xA0, 0xBF, 0⟩
  else if n = 0xED then some ⟨2, 0x80, 0x9F, 0xD⟩
  else if n < 0xF0 then some ⟨2, 0x80, 0xBF, n - 0xE0⟩
  else if n = 0xF0 then some ⟨3, 0x90, 0xBF, 0⟩
  else if n < 0xF4 then some ⟨3, 0x80, 0xBF, n - 0xF0⟩
  else if n = 0xF4 then some ⟨3, 0x80, 0x8F, 4⟩
  else none

/-- What stands at the front of a byte string. A broken front ends before the first byte that
cannot belong to it. -/
inductive Front where
  | empty
  | scalar (char : Char) (rest : List UInt8)
  | broken (rest : List UInt8)

/-- Adds the announced bytes to the bits collected so far. -/
def follow (bits : Nat) : (following low high : Nat) → List UInt8 → Front
  | 0, _, _, rest => .scalar (Char.ofNat bits) rest
  | _ + 1, _, _, [] => .broken []
  | n + 1, low, high, b :: rest =>
      if low ≤ b.toNat ∧ b.toNat ≤ high then
        follow (bits * 64 + b.toNat % 64) n 0x80 0xBF rest
      else .broken (b :: rest)

def front : List UInt8 → Front
  | [] => .empty
  | b :: rest =>
      match lead? b with
      | some lead => follow lead.bits lead.following lead.low lead.high rest
      | none => .broken rest

def Front.rest : Front → List UInt8
  | .empty => []
  | .scalar _ rest => rest
  | .broken rest => rest

theorem follow_rest_le (bits n low high : Nat) (rest : List UInt8) :
    (follow bits n low high rest).rest.length ≤ rest.length := by
  induction n generalizing bits low high rest with
  | zero => simp [follow, Front.rest]
  | succ n ih =>
      cases rest with
      | nil => simp [follow, Front.rest]
      | cons b rest =>
          simp only [follow]
          split
          · have shorter := ih (bits * 64 + b.toNat % 64) 0x80 0xBF rest
            simp only [List.length_cons]
            omega
          · simp [Front.rest]

theorem front_rest_lt (b : UInt8) (rest : List UInt8) :
    (front (b :: rest)).rest.length < (b :: rest).length := by
  simp only [front]
  split
  · rename_i lead _
    have shorter := follow_rest_le lead.bits lead.following lead.low lead.high rest
    simp only [List.length_cons]
    omega
  · simp [Front.rest]

theorem rest_lt_of_front_scalar {bs rest : List UInt8} {c : Char}
    (read : front bs = .scalar c rest) : rest.length < bs.length := by
  cases bs with
  | nil => simp [front] at read
  | cons b bs => simpa only [read, Front.rest] using front_rest_lt b bs

theorem rest_lt_of_front_broken {bs rest : List UInt8}
    (read : front bs = .broken rest) : rest.length < bs.length := by
  cases bs with
  | nil => simp [front] at read
  | cons b bs => simpa only [read, Front.rest] using front_rest_lt b bs

/-- The text that the bytes encode, if they are well formed. -/
def decode (bs : List UInt8) : Option (List Char) :=
  match read : front bs with
  | .empty => some []
  | .scalar c rest =>
      have := rest_lt_of_front_scalar read
      (decode rest).map (c :: ·)
  | .broken _ => none
termination_by bs.length

/-- Writes one U+FFFD for each broken piece. -/
def decodeLossy (bs : List UInt8) : List Char :=
  match read : front bs with
  | .empty => []
  | .scalar c rest =>
      have := rest_lt_of_front_scalar read
      c :: decodeLossy rest
  | .broken rest =>
      have := rest_lt_of_front_broken read
      '\uFFFD' :: decodeLossy rest
termination_by bs.length

theorem follow_cons {low high : Nat} {b : UInt8} (inside : low ≤ b.toNat ∧ b.toNat ≤ high)
    (bits n : Nat) (rest : List UInt8) :
    follow bits (n + 1) low high (b :: rest) =
      follow (bits * 64 + b.toNat % 64) n 0x80 0xBF rest := by
  simp only [follow, inside, and_self, if_true]

theorem some_lead {following low high m n : Nat} (same : m = n) :
    some (Lead.mk following low high m) = some (Lead.mk following low high n) := by
  rw [same]

theorem front_encodeChar (c : Char) (rest : List UInt8) :
    front (String.utf8EncodeChar c ++ rest) = .scalar c rest := by
  have same : Char.ofNat c.val.toNat = c := Char.ofNat_toNat c
  have valid : c.val.toNat < 0xD800 ∨ 0xDFFF < c.val.toNat ∧ c.val.toNat < 0x110000 := c.valid
  unfold String.utf8EncodeChar
  generalize c.val.toNat = v at same valid
  simp only
  have byte (n : Nat) (small : n < 256) : (UInt8.ofNat n).toNat = n := by
    simp [UInt8.toNat_ofNat', Nat.mod_eq_of_lt small]
  split
  · have lead : lead? (UInt8.ofNat v) = some ⟨0, 0x80, 0xBF, v⟩ := by
      simp only [lead?, byte v (by omega)]
      rw [if_pos (by omega)]
    simp only [List.cons_append, List.nil_append, front, lead, follow, same]
  split
  · have lead : lead? (UInt8.ofNat (v / 64 % 32 + 192)) = some ⟨1, 0x80, 0xBF, v / 64⟩ := by
      simp only [lead?, byte (v / 64 % 32 + 192) (by omega)]
      rw [if_neg (by omega), if_neg (by omega), if_pos (by omega)]
      exact some_lead (by omega)
    have last := byte (v % 64 + 128) (by omega)
    simp only [List.cons_append, List.nil_append, front, lead]
    rw [follow_cons (by omega), last, follow, show v / 64 * 64 + (v % 64 + 128) % 64 = v by omega,
      same]
  split
  · obtain ⟨low, high, lead, inside⟩ : ∃ low high, lead? (UInt8.ofNat (v / 4096 % 16 + 224)) =
        some ⟨2, low, high, v / 4096⟩ ∧ low ≤ v / 64 % 64 + 128 ∧ v / 64 % 64 + 128 ≤ high := by
      simp only [lead?, byte (v / 4096 % 16 + 224) (by omega)]
      rw [if_neg (by omega), if_neg (by omega), if_neg (by omega)]
      split
      · exact ⟨0xA0, 0xBF, some_lead (by omega), by omega⟩
      split
      · exact ⟨0x80, 0x9F, some_lead (by omega), by omega⟩
      · rw [if_pos (by omega)]
        exact ⟨0x80, 0xBF, some_lead (by omega), by omega⟩
    have second := byte (v / 64 % 64 + 128) (by omega)
    have last := byte (v % 64 + 128) (by omega)
    simp only [List.cons_append, List.nil_append, front, lead]
    rw [follow_cons (by omega), second, follow_cons (by omega), last, follow,
      show (v / 4096 * 64 + (v / 64 % 64 + 128) % 64) * 64 + (v % 64 + 128) % 64 = v by omega, same]
  · obtain ⟨low, high, lead, inside⟩ : ∃ low high, lead? (UInt8.ofNat (v / 262144 % 8 + 240)) =
        some ⟨3, low, high, v / 262144⟩ ∧ low ≤ v / 4096 % 64 + 128 ∧
          v / 4096 % 64 + 128 ≤ high := by
      simp only [lead?, byte (v / 262144 % 8 + 240) (by omega)]
      rw [if_neg (by omega), if_neg (by omega), if_neg (by omega), if_neg (by omega),
        if_neg (by omega), if_neg (by omega)]
      split
      · exact ⟨0x90, 0xBF, some_lead (by omega), by omega⟩
      split
      · exact ⟨0x80, 0xBF, some_lead (by omega), by omega⟩
      · rw [if_pos (by omega)]
        exact ⟨0x80, 0x8F, some_lead (by omega), by omega⟩
    have second := byte (v / 4096 % 64 + 128) (by omega)
    have third := byte (v / 64 % 64 + 128) (by omega)
    have last := byte (v % 64 + 128) (by omega)
    simp only [List.cons_append, List.nil_append, front, lead]
    rw [follow_cons (by omega), second, follow_cons (by omega), third, follow_cons (by omega), last,
      follow, show ((v / 262144 * 64 + (v / 4096 % 64 + 128) % 64) * 64 +
        (v / 64 % 64 + 128) % 64) * 64 + (v % 64 + 128) % 64 = v by omega, same]

theorem decode_of_front {bs rest : List UInt8} {c : Char} (read : front bs = .scalar c rest) :
    decode bs = (decode rest).map (c :: ·) := by
  rw [decode]
  split <;> simp_all

@[simp] theorem decode_encode (text : List Char) : decode (encode text) = some text := by
  induction text with
  | nil => simp [encode, decode, front]
  | cons c text ih =>
      have read := front_encodeChar c (encode text)
      rw [encode, List.flatMap_cons, ← encode, decode_of_front read, ih, Option.map_some]

theorem encode_injective {s t : List Char} (same : encode s = encode t) : s = t := by
  have decoded := congrArg decode same
  simpa only [decode_encode, Option.some.injEq] using decoded

theorem bytes_injective {s t : String} (same : bytes s = bytes t) : s = t :=
  String.toList_inj.mp (encode_injective same)

end ScanSlot.Utf8
