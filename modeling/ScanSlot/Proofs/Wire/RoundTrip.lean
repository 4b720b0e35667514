import ScanSlot.Wire.Event
import ScanSlot.Wire.Snapshot
import ScanSlot.Proofs.Json.Parse
import ScanSlot.Proofs.Json.Tame

/-! Whatever has a JSON form is read back from its text, compact or pretty, exactly as it was. -/
namespace ScanSlot

open Json (Value)

/-- A form that gives back what was encoded and whose documents are tame to a depth. -/
class Faithful (α : Type) (depth : outParam Nat) [Wire α] : Prop where
  decode_encode (a : α) : Wire.decode (Wire.encode a) = .ok a
  tame (a : α) : (Wire.encode a).Tame depth

namespace Wire

theorem decodeInteger_integer {low high n : Int} (inside : low ≤ n ∧ n < high) :
    decodeInteger low high (integer n) = .ok n :=
  if_pos inside

theorem decode_natural {α : Type} (ofNat : Nat → α) {high n : Nat} (small : n < high) :
    (decodeInteger 0 high (integer n)).map (fun i => ofNat i.toNat) = .ok (ofNat n) := by
  rw [decodeInteger_integer ⟨Int.natCast_nonneg n, Int.ofNat_lt.mpr small⟩]
  rfl

theorem tame_natural {high n : Nat} (small : n < high) (width : high ≤ 18446744073709551616) :
    (integer n).Tame 0 :=
  .integer (Nat.lt_of_lt_of_le small width)

instance : Faithful UInt8 0 where
  decode_encode n := by
    have decoded := decode_natural UInt8.ofNat n.toNat_lt
    rwa [UInt8.ofNat_toNat] at decoded
  tame n := tame_natural n.toNat_lt (by decide)

instance : Faithful UInt32 0 where
  decode_encode n := by
    have decoded := decode_natural UInt32.ofNat n.toNat_lt
    rwa [UInt32.ofNat_toNat] at decoded
  tame n := tame_natural n.toNat_lt (by decide)

instance : Faithful UInt64 0 where
  decode_encode n := by
    have decoded := decode_natural UInt64.ofNat n.toNat_lt
    rwa [UInt64.ofNat_toNat] at decoded
  tame n := tame_natural n.toNat_lt (by decide)

instance : Faithful Int32 0 where
  decode_encode n := by
    have inside := decodeInteger_integer ⟨n.le_toInt, n.toInt_lt⟩
    change (decodeInteger (-0x80000000) 0x80000000 (integer n.toInt)).map Int32.ofInt = _
    rw [show decodeInteger (-0x80000000) 0x80000000 (integer n.toInt) = .ok n.toInt from inside]
    exact congrArg Except.ok n.ofInt_toInt
  tame n := by
    have low := n.le_toInt
    have high := n.toInt_lt
    refine .integer ?_
    omega

instance : Faithful String 0 where
  decode_encode _ := rfl
  tame s := .text s

instance {α : Type} {depth : Nat} [Wire α] [Faithful α depth] :
    Faithful (List α) (depth + 1) where
  decode_encode items := by
    change (items.map encode).mapM decode = _
    induction items with
    | nil => rfl
    | cons a items ih =>
      rw [List.map_cons, List.mapM_cons, Faithful.decode_encode, ih]
      rfl
  tame items := by
    refine .array ?_
    intro v among
    obtain ⟨a, _, rfl⟩ := List.mem_map.mp among
    exact Faithful.tame a

theorem fill_encode {α : Type} {depth : Nat} [Wire α] [Faithful α depth] (a : α) :
    fill none (encode a) = pure (some a) := by
  rw [fill, Faithful.decode_encode]
  rfl

end Wire

instance : Faithful Ssid 1 where
  decode_encode ssid := by
    have decoded := Faithful.decode_encode ssid.bytes
    change (Wire.decode (Wire.encode ssid.bytes) >>= _) = _
    rw [decoded]
    exact dif_pos ssid.length_le
  tame ssid := Faithful.tame ssid.bytes

instance : Faithful Owner 0 where
  decode_encode owner := by
    change (Wire.decode (Wire.encode owner.id)).map Owner.mk = _
    rw [Faithful.decode_encode]
    rfl
  tame owner := Faithful.tame owner.id

instance : Faithful Frequency 0 where
  decode_encode frequency := by
    change (Wire.decode (Wire.encode frequency.mhz)).map Frequency.mk = _
    rw [Faithful.decode_encode]
    rfl
  tame frequency := Faithful.tame frequency.mhz

instance : Faithful Rejection 0 where
  decode_encode reason := by cases reason <;> rfl
  tame reason := .text reason.key

instance : Faithful Removal 0 where
  decode_encode reason := by cases reason <;> rfl
  tame reason := .text reason.key

instance : Faithful ScanResult 2 where
  decode_encode result := by
    change (do
      let draft ← [Wire.member "ssid" result.ssid, Wire.member "bssid" result.bssid,
        Wire.member "frequency" result.frequency, Wire.member "rssi" result.rssi].foldlM
          ScanResult.Draft.add {}
      draft.finish) = _
    simp only [List.foldlM_cons, List.foldlM_nil, Wire.member, ScanResult.Draft.add,
      Wire.fill_encode, pure_bind]
    rfl
  tame result := by
    refine .object (by simp [Wire.member]) ?_
    simp only [Wire.member, List.forall_mem_cons]
    exact ⟨Faithful.tame result.ssid, (Faithful.tame result.bssid).mono (Nat.zero_le 1),
      (Faithful.tame result.frequency).mono (Nat.zero_le 1),
      (Faithful.tame result.rssi).mono (Nat.zero_le 1), nofun⟩

instance : Faithful Snapshot 2 where
  decode_encode s := by
    change (do
      let draft ← [Wire.member "owner" s.owner, Wire.member "peer" s.peer,
        Wire.member "callback" s.callback, Wire.member "target_names" s.names,
        Wire.member "target_frequencies" s.frequencies,
        Wire.member "delivery_cycles" s.cycles].foldlM Snapshot.Draft.add {}
      draft.finish) = _
    simp only [List.foldlM_cons, List.foldlM_nil, Wire.member, Snapshot.Draft.add,
      Wire.fill_encode, pure_bind]
    rfl
  tame s := by
    refine .object (by simp [Wire.member]) ?_
    simp only [Wire.member, List.forall_mem_cons]
    exact ⟨(Faithful.tame s.owner).mono (Nat.zero_le 1), (Faithful.tame s.peer).mono (Nat.zero_le 1),
      (Faithful.tame s.callback).mono (Nat.zero_le 1), Faithful.tame s.names,
      Faithful.tame s.frequencies, (Faithful.tame s.cycles).mono (Nat.zero_le 1), nofun⟩

namespace Event

theorem tame_encode (event : Event) : (Wire.encode event).Tame 4 := by
  refine .object (by cases event <;> simp [members, Wire.member]) ?_
  have typed := (Faithful.tame event.kind.key).mono (Nat.zero_le 3)
  cases event with
  | registerSuccess =>
    simp only [members, Wire.member, List.forall_mem_cons]
    exact ⟨typed, nofun⟩
  | registerFailed reason =>
    simp only [members, Wire.member, List.forall_mem_cons]
    exact ⟨typed, (Faithful.tame reason).mono (Nat.zero_le 3), nofun⟩
  | scanResultsAvailable results =>
    simp only [members, Wire.member, List.forall_mem_cons]
    exact ⟨typed, Faithful.tame results, nofun⟩
  | removed reason =>
    simp only [members, Wire.member, List.forall_mem_cons]
    exact ⟨typed, (Faithful.tame reason).mono (Nat.zero_le 3), nofun⟩

theorem ofMembers_members (event : Event) : ofMembers event.members = .ok event := by
  cases event with
  | registerSuccess => rfl
  | registerFailed reason => cases reason <;> rfl
  | removed reason => cases reason <;> rfl
  | scanResultsAvailable results =>
    change ofFields .scanResultsAvailable [Wire.encode results] = _
    rw [ofFields, Faithful.decode_encode]
    rfl

end Event

/-- The limit on depth is never met by what is written. -/
instance : Faithful Event 4 where
  decode_encode event := by
    have tame := event.tame_encode
    have shallow : (Wire.encode event).depth ≤ Event.maxDepth :=
      Nat.le_trans tame.depth_le (by decide)
    have fits : ((Wire.encode event).isSound && decide ((Wire.encode event).depth ≤ Event.maxDepth)) =
        true := by
      simp [tame.isSound, shallow]
    exact (if_pos fits).trans event.ofMembers_members
  tame := Event.tame_encode

namespace Wire

/-- A text in the form in which it would be written again. -/
def normalize (α : Type) [Wire α] (text : String) : Except DecodeError String :=
  (read text : Except DecodeError α).map write

end Wire

/-- Nothing is lost in writing, and what has been read once is written in one way. -/
structure RoundTrips (α : Type) [Wire α] : Prop where
  read_write (a : α) : Wire.read (Wire.write a) = .ok a
  read_writePretty (a : α) : Wire.read (Wire.writePretty a) = .ok a
  injective {a b : α} (same : Wire.write a = Wire.write b) : a = b
  fixed {text normal : String} (read : Wire.normalize α text = .ok normal) :
    Wire.normalize α normal = .ok normal

namespace Faithful
variable {α : Type} {depth : Nat} [Wire α] [faithful : Faithful α depth]
include faithful

theorem encode_injective {a b : α} (same : Wire.encode a = Wire.encode b) : a = b := by
  have decoded := faithful.decode_encode a
  rw [same, faithful.decode_encode b] at decoded
  exact (Except.ok.inj decoded).symm

/-- A value is read back from any layout of its tokens. -/
theorem read_layout (a : α) {cs : List Char} (layout : Json.Layout (Wire.encode a).tokens cs) :
    Wire.read (String.ofList cs) = .ok a := by
  have parsed := Value.parse?_of_layout layout (Faithful.tame a).isPlain
  rw [Wire.read, String.toList_ofList, parsed]
  exact Faithful.decode_encode a

theorem read_write (a : α) : Wire.read (Wire.write a) = .ok a :=
  read_layout a (Value.layout_compact _)

theorem read_writePretty (a : α) : Wire.read (Wire.writePretty a) = .ok a := by
  have layout := Value.layout_prettyAt 0 (Wire.encode a) .nil
  rw [List.append_nil, List.append_nil] at layout
  exact read_layout a layout

theorem roundTrips : RoundTrips α where
  read_write := read_write
  read_writePretty := read_writePretty
  injective {a b} same := by
    have first := read_write a
    rw [same, read_write b] at first
    exact (Except.ok.inj first).symm
  fixed {text normal} read := by
    obtain ⟨a, rfl⟩ : ∃ a : α, Wire.write a = normal := by
      unfold Wire.normalize at read
      cases decoded : (Wire.read text : Except DecodeError α) with
      | error => simp [decoded, Except.map] at read
      | ok a => exact ⟨a, by simpa [decoded, Except.map] using read⟩
    rw [Wire.normalize, read_write a]
    rfl

end Faithful

/-- Every public type round-trips through JSON. -/
theorem json_round_trip :
    RoundTrips Ssid ∧ RoundTrips Owner ∧ RoundTrips Frequency ∧ RoundTrips ScanResult ∧
      RoundTrips Rejection ∧ RoundTrips Removal ∧ RoundTrips Event ∧ RoundTrips Snapshot :=
  ⟨Faithful.roundTrips, Faithful.roundTrips, Faithful.roundTrips, Faithful.roundTrips,
    Faithful.roundTrips, Faithful.roundTrips, Faithful.roundTrips, Faithful.roundTrips⟩

end ScanSlot
