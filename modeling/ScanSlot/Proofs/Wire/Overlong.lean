import ScanSlot.Session.Input
import ScanSlot.Proofs.Text.Utf8
import ScanSlot.Proofs.Wire.Arrangement

/-! No text brings an overlong name in. What is read as a name is the array of its bytes in the
text, and there are at most 32; a document that is right but for overlong names is refused with the
length of the first. Names are made of bytes and of texts under the same condition. -/
namespace ScanSlot

open Json (Value)
open Event (valuesOf)

namespace Wire

/-! ### Bytes stand in a document as they are -/

theorem decodeInteger_eq_ok {low high n : Int} {v : Value} :
    decodeInteger low high v = .ok n ↔ v = integer n ∧ low ≤ n ∧ n < high := by
  constructor
  · intro decoded
    unfold decodeInteger at decoded
    split at decoded
    · split at decoded
      · rename_i inside
        obtain rfl := Except.ok.inj decoded
        exact ⟨rfl, inside⟩
      · contradiction
    · contradiction
  · rintro ⟨rfl, inside⟩
    exact decodeInteger_integer inside

theorem decode_byte {v : Value} {b : UInt8} : decode v = .ok b ↔ v = encode b := by
  constructor
  · intro decoded
    obtain ⟨n, read, rfl⟩ := map_eq_ok.mp decoded
    obtain ⟨rfl, low, high⟩ := decodeInteger_eq_ok.mp read
    obtain ⟨n, rfl⟩ := Int.eq_ofNat_of_zero_le low
    have small : n < 2 ^ 8 := Int.ofNat_lt.mp high
    change integer n = integer (UInt8.ofNat n).toNat
    rw [UInt8.toNat_ofNat', Nat.mod_eq_of_lt small]
  · rintro rfl
    exact Faithful.decode_encode b

theorem decode_bytes {v : Value} {bytes : List UInt8} :
    decode v = .ok bytes ↔ v = encode bytes := by
  constructor
  · intro decoded
    cases v with
    | array items =>
      have all := mapM_decode.mp decoded
      simp only [decode_byte] at all
      have same : items = bytes.map encode := by
        rwa [← List.forall₂_eq_eq_eq, List.forall₂_map_right_iff]
      exact congrArg Value.array same
    | _ => contradiction
  · rintro rfl
    exact Faithful.decode_encode bytes

/-- What fills a place in the end fills it or leaves it empty at first. -/
theorem exists_fills {α : Type} [Wire α] {name : String} {v : Value} {a : α}
    {members more : List (Option String × Value)} (once : valuesOf name (members ++ more) = [v])
    (decoded : decode v = .ok a) : ∃ place : Option α, Fills name members none place := by
  rw [valuesOf_append] at once
  rcases List.append_eq_singleton_iff.mp once with ⟨later, _⟩ | ⟨here, _⟩
  · refine ⟨none, ?_⟩
    rw [Fills, later]
    rfl
  · exact ⟨some a, fills_none.mpr ⟨v, here, decoded⟩⟩

/-- The value of a field: the only member of its name in an object, an item of an array. -/
inductive FieldAt (name : String) (index : Nat) : Value → Value → Prop where
  | member {members : List (Option String × Value)} {v : Value}
      (only : valuesOf name members = [v]) : FieldAt name index (.object members) v
  | item {items : List Value} {v : Value} (here : items[index]? = some v) :
      FieldAt name index (.array items) v

end Wire

namespace Ssid

/-- The value is the array of the bytes of the name, which are not too many. -/
def Written (ssid : Ssid) (v : Value) : Prop :=
  v = .array (ssid.bytes.map fun b => Wire.integer b.toNat) ∧ ssid.bytes.length ≤ 32

/-- The value is an array of too many bytes. -/
def Overlong (n : Nat) (v : Value) : Prop :=
  ∃ bytes : List UInt8, bytes.length = n ∧ 32 < n ∧ v = Wire.encode bytes

theorem decode_eq_ok {v : Value} {ssid : Ssid} :
    Wire.decode v = .ok ssid ↔ v = Wire.encode ssid.bytes := by
  constructor
  · intro decoded
    obtain ⟨bytes, read, fits⟩ := bind_eq_ok.mp decoded
    obtain rfl := Wire.decode_bytes.mp read
    split at fits
    · obtain rfl := Except.ok.inj fits
      rfl
    · contradiction
  · rintro rfl
    exact Faithful.decode_encode ssid

theorem written_of_decode {v : Value} {ssid : Ssid} (decoded : Wire.decode v = .ok ssid) :
    ssid.Written v :=
  ⟨decode_eq_ok.mp decoded, ssid.length_le⟩

theorem decode_overlong {n : Nat} {v : Value} (overlong : Overlong n v) :
    (Wire.decode v : Except DecodeError Ssid) = .error (.ssidTooLong n) := by
  obtain ⟨bytes, rfl, long, rfl⟩ := overlong
  change (Wire.decode (Wire.encode bytes) >>= _) = _
  rw [Faithful.decode_encode]
  exact dif_neg (Nat.not_le.mpr long)

end Ssid

/-- The bytes that a name is to be made of. -/
def RawSsid.content : RawSsid → List UInt8
  | text t => Utf8.bytes t
  | bytes bs => bs

/-- The fields of a result whose name has not been checked. -/
def RawResult.fields (raw : RawResult) : List (String × Value) :=
  [("ssid", Wire.encode raw.ssid.content), ("bssid", Wire.encode raw.bssid),
    ("frequency", Wire.encode raw.frequency), ("rssi", Wire.encode raw.rssi)]

theorem RawResult.tame_fields (raw : RawResult) : ∀ field ∈ raw.fields, field.2.Tame 100 := by
  simp only [fields, List.forall_mem_cons]
  exact ⟨(Faithful.tame raw.ssid.content).mono (by decide),
    (Faithful.tame raw.bssid).mono (by decide), (Faithful.tame raw.frequency).mono (by decide),
    (Faithful.tame raw.rssi).mono (by decide), List.forall_mem_nil _⟩

theorem RawResult.distinct_fields (raw : RawResult) : (raw.fields.map (·.1)).Nodup := by
  simp [fields]

namespace ScanResult

/-- The name of the result stands at its place in the document. -/
def Written (result : ScanResult) (doc : Value) : Prop :=
  ∃ v, Wire.FieldAt "ssid" 0 doc v ∧ result.ssid.Written v

/-- The documents of a result with an overlong name. -/
def Overlong (n : Nat) (doc : Value) : Prop :=
  ∃ raw : RawResult, raw.ssid.content.length = n ∧ 32 < n ∧ Wire.Arranged raw.fields doc

theorem written_of_decode {doc : Value} {result : ScanResult}
    (decoded : Wire.decode doc = .ok result) : result.Written doc := by
  cases doc with
  | object members =>
    obtain ⟨_, ⟨v, only, read⟩, _⟩ := decode_object.mp decoded
    exact ⟨v, .member only, Ssid.written_of_decode read⟩
  | array items =>
    obtain ⟨v, _, _, _, rfl, read, _⟩ := decode_array.mp decoded
    exact ⟨v, .item rfl, Ssid.written_of_decode read⟩
  | _ => contradiction

theorem add_refused {d : Draft} {v : Value} {error : DecodeError} (empty : d.ssid = none)
    (refused : (Wire.decode v : Except DecodeError Ssid) = .error error) :
    d.add (some "ssid", v) = .error error := by
  simp only [Draft.add, empty, Wire.fill, refused]
  rfl

theorem decode_overlong {n : Nat} {doc : Value} (overlong : Overlong n doc) :
    (Wire.decode doc : Except DecodeError ScanResult) = .error (.ssidTooLong n) := by
  obtain ⟨raw, length, long, arranged⟩ := overlong
  have refused : (Wire.decode (Wire.encode raw.ssid.content) : Except DecodeError Ssid) =
      .error (.ssidTooLong n) := Ssid.decode_overlong ⟨_, length, long, rfl⟩
  cases arranged with
  | array =>
    change ((Wire.decode (Wire.encode raw.ssid.content) : Except DecodeError Ssid) >>= _) = _
    rw [refused]
    rfl
  | @object members _ foreign order =>
    have named := Wire.named_isSome foreign order
    have once : ∀ field ∈ raw.fields, valuesOf field.1 members = [field.2] :=
      fun _ => Wire.valuesOf_arranged raw.distinct_fields foreign order
    simp only [RawResult.fields, List.forall_mem_cons] at once
    obtain ⟨ssid, bssid, frequency, rssi, _⟩ := once
    have here : (some "ssid", Wire.encode raw.ssid.content) ∈ members := by
      rw [← mem_valuesOf, ssid]
      exact List.mem_cons_self
    -- What stands before the name is read without harm and leaves its place empty.
    obtain ⟨before, after, rfl⟩ := List.append_of_mem here
    obtain ⟨bssid', bssid⟩ := Wire.exists_fills bssid (Faithful.decode_encode raw.bssid)
    obtain ⟨frequency', frequency⟩ :=
      Wire.exists_fills frequency (Faithful.decode_encode raw.frequency)
    obtain ⟨rssi', rssi⟩ := Wire.exists_fills rssi (Faithful.decode_encode raw.rssi)
    have unread : Wire.Fills "ssid" before none (none : Option Ssid) := by
      rw [valuesOf_append, valuesOf_cons_same] at ssid
      have nothing : valuesOf "ssid" before = [] ∧ valuesOf "ssid" after = [] := by
        simpa using List.append_eq_singleton_iff.mp ssid
      rw [Wire.Fills, nothing.1]
      rfl
    have start : before.foldlM Draft.add {} = .ok ⟨none, bssid', frequency', rssi'⟩ :=
      foldlM_add_eq_ok.mpr ⟨fun m inside => named m (List.mem_append_left _ inside), unread,
        bssid, frequency, rssi⟩
    have stop : (before ++ (some "ssid", Wire.encode raw.ssid.content) :: after).foldlM
        Draft.add {} = .error (.ssidTooLong n) := by
      rw [List.foldlM_append, start]
      change (Draft.add _ _ >>= _) = _
      rw [add_refused rfl refused]
      rfl
    exact congrArg (· >>= Draft.finish) stop

end ScanResult

namespace Event

/-- The names of the results stand at their places in the document. -/
def Written : Event → Value → Prop
  | scanResultsAvailable results, doc =>
      ∃ docs, Wire.FieldAt "results" 1 doc (.array docs) ∧
        List.Forall₂ ScanResult.Written results docs
  | _, _ => True

/-- The documents of an event with overlong names; `n` is the length of the first of them. -/
inductive Overlong : Nat → Value → Prop where
  | intro {before after : List RawResult} {first : RawResult} {docs : List Value} {doc : Value}
      (short : ∀ raw ∈ before, raw.ssid.content.length ≤ 32) (long : 32 < first.ssid.content.length)
      (results : List.Forall₂ (fun raw => Wire.Arranged raw.fields) (before ++ first :: after) docs)
      (arranged : Wire.Arranged [typeField .scanResultsAvailable, ("results", .array docs)] doc) :
      Overlong first.ssid.content.length doc

theorem Overlong.tame {n : Nat} {doc : Value} (overlong : Overlong n doc) : doc.Tame 103 := by
  obtain ⟨_, _, results, arranged⟩ := overlong
  refine arranged.tame (by decide) ?_
  simp only [List.forall_mem_cons]
  exact ⟨.text _, Wire.tame_arranged RawResult.tame_fields results, List.forall_mem_nil _⟩

theorem written_results {v : Value} {results : List ScanResult}
    (decoded : Wire.decode v = .ok results) :
    ∃ docs, v = .array docs ∧ List.Forall₂ ScanResult.Written results docs := by
  cases v with
  | array docs =>
    have all := Wire.mapM_decode.mp decoded
    exact ⟨docs, rfl, (all.imp fun _ _ => ScanResult.written_of_decode).flip⟩
  | _ => contradiction

theorem written_of_decode {doc : Value} {event : Event} (decoded : Wire.decode doc = .ok event) :
    event.Written doc := by
  cases event with
  | scanResultsAvailable results =>
    cases doc with
    | object members =>
      obtain ⟨_, _, v, only, read⟩ := decode_object.mp decoded
      obtain ⟨docs, rfl, written⟩ := written_results read
      exact ⟨docs, .member only, written⟩
    | array items =>
      obtain ⟨_, _, rfl, v, rfl, read⟩ := decode_array.mp decoded
      obtain ⟨docs, rfl, written⟩ := written_results read
      exact ⟨docs, .item rfl, written⟩
    | _ =>
      obtain ⟨_, refused⟩ := guarded_eq_ok.mp decoded
      contradiction
  | _ => trivial

theorem ofMembers_of_typed {kind : Kind} {members : List (Option String × Value)}
    (typed : valuesOf "type" members = [.text (some kind.key)]) :
    ofMembers members = ofFields kind (fieldValues kind members) := by
  have known : decodeKind (.text (some kind.key)) = .ok kind := decodeKind_eq_ok.mpr rfl
  unfold ofMembers
  rw [typed]
  change (decodeKind _ >>= _) = _
  rw [known]
  rfl

/-- The results before the first overlong name are read without harm. -/
theorem mapM_overlong {before after : List RawResult} {first : RawResult} {docs : List Value}
    (short : ∀ raw ∈ before, raw.ssid.content.length ≤ 32) (long : 32 < first.ssid.content.length)
    (results : List.Forall₂ (fun raw => Wire.Arranged raw.fields) (before ++ first :: after) docs) :
    (docs.mapM Wire.decode : Except DecodeError (List ScanResult)) =
      .error (.ssidTooLong first.ssid.content.length) := by
  induction before generalizing docs with
  | nil =>
    obtain ⟨doc, docs, arranged, _, rfl⟩ := List.forall₂_cons_left_iff.mp results
    rw [List.mapM_cons, ScanResult.decode_overlong ⟨first, rfl, long, arranged⟩]
    rfl
  | cons raw before ih =>
    obtain ⟨doc, docs, arranged, rest, rfl⟩ := List.forall₂_cons_left_iff.mp results
    rw [List.forall_mem_cons] at short
    have sound : Wire.decode doc =
        .ok (⟨⟨raw.ssid.content, short.1⟩, raw.bssid, raw.frequency, raw.rssi⟩ : ScanResult) :=
      ScanResult.decode_arranged arranged
    rw [List.mapM_cons, sound, ih short.2 rest]
    rfl

theorem decode_overlong {n : Nat} {doc : Value} (overlong : Overlong n doc) :
    (Wire.decode doc : Except DecodeError Event) = .error (.ssidTooLong n) := by
  have tame := overlong.tame
  obtain ⟨short, long, results, arranged⟩ := overlong
  rename_i before after first docs
  have refused : (Wire.decode (.array docs) : Except DecodeError (List ScanResult)) = _ :=
    mapM_overlong short long results
  have stop : ofFields .scanResultsAvailable [.array docs] =
      .error (.ssidTooLong first.ssid.content.length) := by
    rw [ofFields, refused]
    rfl
  have looked : (doc.isSound && decide (doc.depth ≤ maxDepth)) = true := by
    simpa [Fits] using fits_of_tame tame
  cases arranged with
  | array => exact (if_pos looked).trans stop
  | @object members _ foreign order =>
    have once : ∀ field ∈ [typeField .scanResultsAvailable, ("results", .array docs)],
        valuesOf field.1 members = [field.2] :=
      fun _ => Wire.valuesOf_arranged (by simp [typeField]) foreign order
    rw [List.forall_mem_cons, List.forall_mem_singleton] at once
    have field : fieldValues .scanResultsAvailable members = [.array docs] := once.2
    refine (if_pos looked).trans ((ofMembers_of_typed once.1).trans ?_)
    rw [field, stop]

end Event

theorem Ssid.overlong_eq (n : Nat) :
    overlong n = .invalidSsid (toString n ++ " bytes exceeds maximum of 32") := by
  have limit : " bytes exceeds maximum of " ++ toString maxBytes = " bytes exceeds maximum of 32" :=
    rfl
  simp only [overlong, String.append_assoc, limit]

theorem DecodeError.fault_ssidTooLong (n : Nat) : (ssidTooLong n).fault =
    .serialization ("Invalid SSID: " ++ toString n ++ " bytes exceeds maximum of 32") := by
  have message : (Ssid.overlong n).message =
      "Invalid SSID: " ++ (toString n ++ " bytes exceeds maximum of 32") :=
    congrArg Fault.message (Ssid.overlong_eq n)
  rw [← String.append_assoc] at message
  exact congrArg Fault.serialization message

namespace Ssid

theorem ofBytes_eq_ok {bytes : List UInt8} {ssid : Ssid} :
    ofBytes bytes = .ok ssid ↔ ssid.bytes = bytes := by
  constructor
  · intro made
    unfold ofBytes at made
    split at made
    · obtain rfl := Except.ok.inj made
      rfl
    · contradiction
  · rintro rfl
    exact dif_pos ssid.length_le

/-- Names are made of the same bytes in every way, and keep them. -/
structure Agreement : Prop where
  made_iff (bytes : List UInt8) : (∃ ssid : Ssid, ssid.bytes = bytes) ↔ bytes.length ≤ 32
  ofBytes (bytes : List UInt8) (ssid : Ssid) : ofBytes bytes = .ok ssid ↔ ssid.bytes = bytes
  ofText (text : String) (ssid : Ssid) :
    ofText text = .ok ssid ↔ ssid.bytes = text.toByteArray.data.toList
  read {bytes : List UInt8} {text : String}
    (rendered : Json.Rendered (Wire.encode bytes).tokens text.toList) (ssid : Ssid) :
    Wire.read text = .ok ssid ↔ ssid.bytes = bytes
  refused {bytes : List UInt8} (long : 32 < bytes.length) :
    Ssid.ofBytes bytes =
      .error (.invalidSsid (toString bytes.length ++ " bytes exceeds maximum of 32"))

theorem agreement : Agreement where
  made_iff bytes := ⟨fun ⟨ssid, same⟩ => same ▸ ssid.length_le, fun fits => ⟨⟨bytes, fits⟩, rfl⟩⟩
  ofBytes _ _ := ofBytes_eq_ok
  ofText text ssid := by
    rw [← Utf8.bytes_eq_toByteArray]
    exact ofBytes_eq_ok
  read rendered ssid := by
    rw [read_of_rendered rendered, decode_eq_ok]
    exact ⟨fun same => (Faithful.encode_injective same).symm, fun same => same ▸ rfl⟩
  refused {bytes} long := by
    rw [← overlong_eq]
    exact dif_neg (Nat.not_le.mpr long)

end Ssid

/-- A decoder that lets no overlong name in. Whatever it reads, the names stand in the one document
that the text holds; and a document that is right but for overlong names is refused with the length
of the first. -/
structure KeepsOut (α : Type) [Wire α] (Written : α → Value → Prop)
    (Overlong : Nat → Value → Prop) : Prop where
  written {a : α} {text : String} (read : Wire.read text = .ok a) :
    ∃ doc, (∀ other : Value, Json.Rendered other.tokens text.toList ↔ other = doc) ∧ Written a doc
  refused {n : Nat} {doc : Value} {text : String} (overlong : Overlong n doc)
    (rendered : Json.Rendered doc.tokens text.toList) :
    (Wire.read text : Except DecodeError α) = .error (.ssidTooLong n)

theorem KeepsOut.of_decode {α : Type} [Wire α] {Written : α → Value → Prop}
    {Overlong : Nat → Value → Prop}
    (written : ∀ {a : α} {doc : Value}, Wire.decode doc = .ok a → Written a doc)
    (refused : ∀ {n : Nat} {doc : Value}, Overlong n doc →
      (Wire.decode doc : Except DecodeError α) = .error (.ssidTooLong n)) :
    KeepsOut α Written Overlong where
  written {a text} read := by
    unfold Wire.read at read
    split at read
    · rename_i doc parsed
      refine ⟨doc, fun other => ?_, written read⟩
      rw [← Value.parse?_eq_some, parsed, Option.some_inj, eq_comm]
    · contradiction
  refused overlong rendered := (read_of_rendered rendered).trans (refused overlong)

/-- No text brings an overlong name in, and what comes in by another way can be written and read. -/
theorem overlong_kept_out :
    KeepsOut Ssid Ssid.Written Ssid.Overlong ∧
      KeepsOut ScanResult ScanResult.Written ScanResult.Overlong ∧
      KeepsOut Event Event.Written Event.Overlong ∧
      (∀ n, (DecodeError.ssidTooLong n).fault =
        .serialization ("Invalid SSID: " ++ toString n ++ " bytes exceeds maximum of 32")) ∧
      Ssid.Agreement ∧
      (∀ ssid : Ssid, Wire.read (Wire.write ssid) = .ok ssid) ∧
      (∀ result : ScanResult, Wire.read (Wire.write result) = .ok result) ∧
      ∀ event : Event, Wire.read (Wire.write event) = .ok event :=
  ⟨.of_decode Ssid.written_of_decode Ssid.decode_overlong,
    .of_decode ScanResult.written_of_decode ScanResult.decode_overlong,
    .of_decode Event.written_of_decode Event.decode_overlong, DecodeError.fault_ssidTooLong,
    Ssid.agreement, Faithful.read_write, Faithful.read_write, Faithful.read_write⟩

/-- Two of three names are too long, and the first of these is reported. -/
theorem overlong_kept_out_second :
    let raw (length : Nat) : RawResult := ⟨.bytes (.replicate length 7), "aa:bb", ⟨2412⟩, -40⟩
    let doc : Value := .object (Wire.named [Event.typeField .scanResultsAvailable,
      ("results", .array ([raw 32, raw 33, raw 40].map fun r => .object (Wire.named r.fields)))])
    (Wire.read (String.ofList doc.compact) : Except DecodeError Event) =
      .error (.ssidTooLong 33) := by
  intro raw doc
  obtain ⟨_, _, events, _⟩ := overlong_kept_out
  have results : List.Forall₂ (fun r : RawResult => Wire.Arranged r.fields) [raw 32, raw 33, raw 40]
      ([raw 32, raw 33, raw 40].map fun r => .object (Wire.named r.fields)) := by
    rw [List.forall₂_map_right_iff, List.forall₂_same]
    exact fun _ _ => Wire.arranged_object
  have short : ∀ r ∈ [raw 32], r.ssid.content.length ≤ 32 := by decide
  have overlong : Event.Overlong 33 doc :=
    .intro short (by decide) results Wire.arranged_object
  refine events.refused overlong ?_
  rw [String.toList_ofList]
  exact (Value.layout_compact _).rendered overlong.tame.isPlain

end ScanSlot
