import ScanSlot.Ssid
import ScanSlot.Proofs.Text.Hex
import ScanSlot.Proofs.Text.WellFormed

/-! The canonical text of a network name stands for its bytes: a text in quotes gives back the text
and with it the bytes, hexadecimal gives back the bytes, and no hexadecimal begins with a quote. So
comparing canonical texts is comparing bytes, whether or not they are UTF-8. -/
namespace ScanSlot

namespace Ssid

/-- A text in quotes, with nothing escaped. -/
def quoted (text : List Char) : String :=
  String.ofList ('"' :: text ++ ['"'])

theorem quoted_injective {s t : List Char} (same : quoted s = quoted t) : s = t := by
  simpa [quoted, String.ofList_inj] using same

theorem quoted_ne_hex (text : List Char) (bytes : List UInt8) :
    quoted text ≠ String.ofList (Hex.encode bytes) := by
  intro same
  exact Hex.quote_cons_ne_encode _ _ (String.ofList_inj.mp same)

theorem canonical_of_text {ssid : Ssid} {text : List Char}
    (spelled : Utf8.encode text = ssid.bytes) : ssid.canonical = quoted text := by
  rw [canonical, ← spelled, Utf8.decode_encode]
  rfl

theorem canonical_of_illFormed {ssid : Ssid} (illFormed : Utf8.decode ssid.bytes = none) :
    ssid.canonical = String.ofList (Hex.encode ssid.bytes) := by
  rw [canonical, illFormed]

theorem canonical_eq_canonical {a b : Ssid} : a.canonical = b.canonical ↔ a.bytes = b.bytes := by
  constructor
  · intro same
    cases readA : Utf8.decode a.bytes with
    | some s =>
      have spelledA := Utf8.decode_eq_some.mp readA
      cases readB : Utf8.decode b.bytes with
      | some t =>
        have spelledB := Utf8.decode_eq_some.mp readB
        rw [canonical_of_text spelledA, canonical_of_text spelledB] at same
        rw [← spelledA, ← spelledB, quoted_injective same]
      | none =>
        rw [canonical_of_text spelledA, canonical_of_illFormed readB] at same
        exact absurd same (quoted_ne_hex _ _)
    | none =>
      cases readB : Utf8.decode b.bytes with
      | some t =>
        have spelledB := Utf8.decode_eq_some.mp readB
        rw [canonical_of_illFormed readA, canonical_of_text spelledB] at same
        exact absurd same.symm (quoted_ne_hex _ _)
      | none =>
        rw [canonical_of_illFormed readA, canonical_of_illFormed readB, String.ofList_inj] at same
        exact Hex.encode_injective same
  · intro same
    simp only [canonical, same]

theorem bytes_injective {a b : Ssid} (same : a.bytes = b.bytes) : a = b := by
  cases a
  cases b
  cases same
  rfl

theorem canonical_injective {a b : Ssid} (same : a.canonical = b.canonical) : a = b :=
  bytes_injective (canonical_eq_canonical.mp same)

/-- The canonical text of bytes that are no UTF-8. -/
structure Hexadecimal (ssid : Ssid) : Prop where
  spelled : ssid.canonical = String.ofList (Hex.encode ssid.bytes)
  length : ssid.canonical.length = 2 * ssid.bytes.length
  lower : ∀ c ∈ ssid.canonical.toList, Hex.IsLower c
  nonempty : ssid.canonical ≠ ""
  decoded : Hex.decode ssid.canonical.toList = some ssid.bytes

theorem hexadecimal_of_illFormed {ssid : Ssid} (illFormed : ¬ Utf8.WellFormed ssid.bytes) :
    Hexadecimal ssid := by
  have unread : Utf8.decode ssid.bytes = none := by
    apply Option.eq_none_iff_forall_ne_some.mpr
    intro text decoded
    exact illFormed (Utf8.wellFormed_iff_decode.mpr ⟨text, decoded⟩)
  have spelled := canonical_of_illFormed unread
  have digits : ssid.canonical.toList = Hex.encode ssid.bytes := by
    rw [spelled, String.toList_ofList]
  refine ⟨spelled, ?length, ?lower, ?nonempty, ?decoded⟩
  case length => rw [← String.length_toList, digits, Hex.length_encode]
  case lower =>
    rw [digits]
    intro c here
    exact Hex.isLower_of_mem_encode here
  case nonempty =>
    intro empty
    rw [empty] at digits
    have nothing : ssid.bytes = [] := Hex.encode_injective digits.symm
    exact illFormed (nothing ▸ .nil)
  case decoded => rw [digits, Hex.decode_encode]

theorem wellFormed_iff_quoted (ssid : Ssid) :
    Utf8.WellFormed ssid.bytes ↔ ∃ text, ssid.canonical = quoted text := by
  constructor
  · intro wellFormed
    obtain ⟨text, decoded⟩ := Utf8.wellFormed_iff_decode.mp wellFormed
    exact ⟨text, canonical_of_text (Utf8.decode_eq_some.mp decoded)⟩
  · rintro ⟨text, inQuotes⟩
    apply Decidable.byContradiction
    intro illFormed
    exact quoted_ne_hex _ _ (inQuotes.symm.trans (hexadecimal_of_illFormed illFormed).spelled)

theorem decoded_of_quoted {ssid : Ssid} {text : List Char}
    (inQuotes : ssid.canonical = quoted text) :
    Utf8.decode ssid.bytes = some text ∧ Utf8.encode text = ssid.bytes := by
  obtain ⟨text', decoded⟩ :=
    Utf8.wellFormed_iff_decode.mp ((wellFormed_iff_quoted ssid).mpr ⟨text, inQuotes⟩)
  have spelled := Utf8.decode_eq_some.mp decoded
  obtain rfl := quoted_injective (inQuotes.symm.trans (canonical_of_text spelled))
  exact ⟨decoded, spelled⟩

/-- The canonical text is a code for the bytes. It is in quotes exactly for well-formed UTF-8, and
what is in quotes is then the text of these bytes; else it is their hexadecimal. The two kinds have
nothing in common, whatever a name may spell. -/
theorem canonical_faithful (a b : Ssid) :
    (a.canonical = b.canonical ↔ a = b) ∧
      (Utf8.WellFormed a.bytes ↔ ∃ text, a.canonical = quoted text) ∧
      (∀ text, a.canonical = quoted text →
        Utf8.decode a.bytes = some text ∧ Utf8.encode text = a.bytes) ∧
      (¬ Utf8.WellFormed a.bytes → Hexadecimal a) ∧
      ∀ text bytes, quoted text ≠ String.ofList (Hex.encode bytes) := by
  refine ⟨?_, wellFormed_iff_quoted a, fun _ => decoded_of_quoted, hexadecimal_of_illFormed,
    quoted_ne_hex⟩
  rw [canonical_eq_canonical]
  obtain ⟨as, _⟩ := a
  obtain ⟨bs, _⟩ := b
  rw [mk.injEq]

/-- A name may spell the hexadecimal digits of another one. -/
example : (canonical ⟨[0xC3, 0x28], by decide⟩).toList = ['c', '3', '2', '8'] ∧
    (canonical ⟨Utf8.encode ['c', '3', '2', '8'], by decide⟩).toList =
      ['"', 'c', '3', '2', '8', '"'] := by
  decide +kernel

end Ssid
end ScanSlot
