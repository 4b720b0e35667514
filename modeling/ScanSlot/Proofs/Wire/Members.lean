import ScanSlot.Proofs.Wire.RoundTrip
import Mathlib.Data.List.Forall2

/-! What a document must be like for its decoder to accept it. An object must hold each of its
fields just once, wherever; an array must be the fields in order. -/
namespace ScanSlot

open Json (Value)
open Event (valuesOf)

/-! ### Outcomes -/

theorem bind_eq_ok {ε α β : Type} {x : Except ε α} {f : α → Except ε β} {b : β} :
    x >>= f = .ok b ↔ ∃ a, x = .ok a ∧ f a = .ok b := by
  cases x with
  | ok a => exact ⟨fun done => ⟨a, rfl, done⟩, fun ⟨_, same, done⟩ => Except.ok.inj same ▸ done⟩
  | error => exact ⟨nofun, nofun⟩

theorem map_eq_ok {ε α β : Type} {x : Except ε α} {f : α → β} {b : β} :
    f <$> x = .ok b ↔ ∃ a, x = .ok a ∧ f a = b := by
  cases x with
  | ok a => simp
  | error => simp

theorem pure_eq_ok {ε α : Type} {a b : α} : (pure a : Except ε α) = .ok b ↔ a = b :=
  Except.ok.injEq a b ▸ .rfl

/-- In two lists that are related item by item each item has a partner. -/
theorem exists_of_forall₂ {α β : Type} {R : α → β → Prop} {as : List α} {bs : List β}
    (all : List.Forall₂ R as bs) : ∀ a ∈ as, ∃ b, R a b :=
  (List.forall₂_and_left as bs |>.mp (all.imp fun _ b related => ⟨⟨b, related⟩, related⟩)).1

/-! ### Values by name -/

section
variable {name : String} {v : Value} {members more : List (Option String × Value)}

theorem valuesOf_cons_same :
    valuesOf name ((some name, v) :: members) = v :: valuesOf name members := by
  simp [valuesOf]

theorem valuesOf_cons_other {m : Option String × Value} (different : m.1 ≠ some name) :
    valuesOf name (m :: members) = valuesOf name members := by
  simp [valuesOf, different]

theorem valuesOf_append :
    valuesOf name (members ++ more) = valuesOf name members ++ valuesOf name more := by
  simp [valuesOf]

theorem valuesOf_eq_nil : valuesOf name members = [] ↔ ∀ m ∈ members, m.1 ≠ some name := by
  simp [valuesOf]

theorem mem_valuesOf : v ∈ valuesOf name members ↔ (some name, v) ∈ members := by
  simp [valuesOf]

theorem valuesOf_perm (name : String) (order : members.Perm more) :
    (valuesOf name members).Perm (valuesOf name more) :=
  (order.filter _).map _

end

namespace Wire
variable {α : Type} [Wire α] {a : α} {members more : List (Option String × Value)}

/-- The only value of a name decodes to `a`. -/
def Holds (members : List (Option String × Value)) (name : String) (a : α) : Prop :=
  ∃ v, valuesOf name members = [v] ∧ decode v = .ok a

theorem fill_eq_ok {place place' : Option α} {v : Value} :
    fill place v = .ok place' ↔ place = none ∧ ∃ a, decode v = .ok a ∧ some a = place' := by
  cases place with
  | none => exact map_eq_ok.trans (by simp)
  | some => simp [fill]

/-- A place is filled once or not at all. -/
theorem foldlM_fill {values : List Value} :
    values.foldlM fill none = .ok (some a) ↔ ∃ v, values = [v] ∧ decode v = .ok a := by
  rcases values with _ | ⟨v, _ | ⟨w, values⟩⟩
  · simp [pure_eq_ok]
  · simp [fill_eq_ok]
  · simp [fill_eq_ok, bind_eq_ok]

/-- A list is decoded item by item. -/
theorem mapM_decode {items : List Value} {as : List α} :
    items.mapM decode = .ok as ↔ List.Forall₂ (fun v a => decode v = .ok a) items as := by
  induction items generalizing as with
  | nil => rw [List.mapM_nil, pure_eq_ok, List.forall₂_nil_left_iff, eq_comm]
  | cons v items ih =>
    simp only [List.mapM_cons, bind_eq_ok, ih, List.forall₂_cons_left_iff]
    constructor
    · rintro ⟨a, first, as', rest, same⟩
      exact ⟨a, as', first, rest, (Except.ok.inj same).symm⟩
    · rintro ⟨a, as', first, rest, rfl⟩
      exact ⟨a, first, as', rest, rfl⟩

/-- Reading the members of a name, one after another, turns one place into another. -/
def Fills (name : String) (members : List (Option String × Value)) (place place' : Option α) :
    Prop :=
  (valuesOf name members).foldlM fill place = .ok place'

theorem fills_nil {name : String} {place place' : Option α} :
    Fills name [] place place' ↔ place = place' := by
  simp [Fills, valuesOf, pure_eq_ok]

theorem fills_cons {name : String} {m : Option String × Value} {place place' : Option α} :
    Fills name (m :: members) place place' ↔
      ∃ between, Fills name [m] place between ∧ Fills name members between place' := by
  rw [Fills, ← List.singleton_append, valuesOf_append, List.foldlM_append, bind_eq_ok]
  rfl

theorem fills_same {name : String} {v : Value} {place place' : Option α} :
    Fills name [(some name, v)] place place' ↔ fill place v = .ok place' := by
  simp [Fills, valuesOf]

theorem fills_other {name : String} {m : Option String × Value} {place place' : Option α}
    (different : m.1 ≠ some name) : Fills name [m] place place' ↔ place = place' := by
  simp [Fills, valuesOf, different, pure_eq_ok]

theorem fills_none {name : String} :
    Fills name members none (some a) ↔ Holds members name a :=
  foldlM_fill

end Wire

open Wire (Fills Holds)

namespace ScanResult

theorem Draft.add_eq_ok {d e : Draft} {m : Option String × Value} :
    d.add m = .ok e ↔ m.1.isSome = true ∧ Fills "ssid" [m] d.ssid e.ssid ∧
      Fills "bssid" [m] d.bssid e.bssid ∧ Fills "frequency" [m] d.frequency e.frequency ∧
      Fills "rssi" [m] d.rssi e.rssi := by
  obtain ⟨ssid, bssid, frequency, rssi⟩ := d
  obtain ⟨ssid', bssid', frequency', rssi'⟩ := e
  unfold Draft.add
  split
  case h_5 => simp_all [Wire.fills_other]
  case h_6 => simp
  all_goals simp [map_eq_ok, Wire.fills_same, Wire.fills_other, and_left_comm]

theorem foldlM_add_eq_ok {d e : Draft} {members : List (Option String × Value)} :
    members.foldlM Draft.add d = .ok e ↔ (∀ m ∈ members, m.1.isSome = true) ∧
      Fills "ssid" members d.ssid e.ssid ∧ Fills "bssid" members d.bssid e.bssid ∧
      Fills "frequency" members d.frequency e.frequency ∧ Fills "rssi" members d.rssi e.rssi := by
  induction members generalizing d with
  | nil =>
    obtain ⟨ssid, bssid, frequency, rssi⟩ := d
    obtain ⟨ssid', bssid', frequency', rssi'⟩ := e
    simp [Wire.fills_nil, pure_eq_ok]
  | cons m members ih =>
    rw [List.foldlM_cons, bind_eq_ok, List.forall_mem_cons, Wire.fills_cons, Wire.fills_cons,
      Wire.fills_cons, Wire.fills_cons]
    simp only [Draft.add_eq_ok, ih]
    constructor
    · rintro ⟨between, ⟨named, a, b, c, d⟩, all, a', b', c', d'⟩
      exact ⟨⟨named, all⟩, ⟨_, a, a'⟩, ⟨_, b, b'⟩, ⟨_, c, c'⟩, _, d, d'⟩
    · rintro ⟨⟨named, all⟩, ⟨ssid, a, a'⟩, ⟨bssid, b, b'⟩, ⟨frequency, c, c'⟩, rssi, d, d'⟩
      exact ⟨⟨ssid, bssid, frequency, rssi⟩, ⟨named, a, b, c, d⟩, all, a', b', c', d'⟩

/-- An object is a result if it has each field once and no name that is no text. -/
theorem decode_object {members : List (Option String × Value)} {result : ScanResult} :
    Wire.decode (.object members) = .ok result ↔ (∀ m ∈ members, m.1.isSome = true) ∧
      Holds members "ssid" result.ssid ∧ Holds members "bssid" result.bssid ∧
      Holds members "frequency" result.frequency ∧ Holds members "rssi" result.rssi := by
  change members.foldlM Draft.add {} >>= Draft.finish = _ ↔ _
  rw [bind_eq_ok]
  simp only [foldlM_add_eq_ok, ← Wire.fills_none]
  constructor
  · rintro ⟨⟨_ | ssid, _ | bssid, _ | frequency, _ | rssi⟩, read, finished⟩ <;> try contradiction
    obtain rfl := Except.ok.inj finished
    exact read
  · intro read
    exact ⟨⟨some _, some _, some _, some _⟩, read, rfl⟩

/-- An array is a result if it holds just the fields in order. -/
theorem decode_array {items : List Value} {result : ScanResult} :
    Wire.decode (.array items) = .ok result ↔ ∃ ssid bssid frequency rssi,
      items = [ssid, bssid, frequency, rssi] ∧ Wire.decode ssid = .ok result.ssid ∧
      Wire.decode bssid = .ok result.bssid ∧ Wire.decode frequency = .ok result.frequency ∧
      Wire.decode rssi = .ok result.rssi := by
  change ofItems items = _ ↔ _
  match items with
  | [ssid, bssid, frequency, rssi] =>
    obtain ⟨_, _, _, _⟩ := result
    simp [ofItems, bind_eq_ok, map_eq_ok]
  | [] | [_] | [_, _] | [_, _, _] | _ :: _ :: _ :: _ :: _ :: _ => simp [ofItems, bind_eq_ok]

end ScanResult

namespace Snapshot

theorem Draft.add_eq_ok {d e : Draft} {m : Option String × Value} :
    d.add m = .ok e ↔ m.1.isSome = true ∧ Fills "owner" [m] d.owner e.owner ∧
      Fills "peer" [m] d.peer e.peer ∧ Fills "callback" [m] d.callback e.callback ∧
      Fills "target_names" [m] d.names e.names ∧
      Fills "target_frequencies" [m] d.frequencies e.frequencies ∧
      Fills "delivery_cycles" [m] d.cycles e.cycles := by
  obtain ⟨owner, peer, callback, names, frequencies, cycles⟩ := d
  obtain ⟨owner', peer', callback', names', frequencies', cycles'⟩ := e
  unfold Draft.add
  split
  case h_7 => simp_all [Wire.fills_other]
  case h_8 => simp
  all_goals simp [map_eq_ok, Wire.fills_same, Wire.fills_other, and_left_comm]

theorem foldlM_add_eq_ok {d e : Draft} {members : List (Option String × Value)} :
    members.foldlM Draft.add d = .ok e ↔ (∀ m ∈ members, m.1.isSome = true) ∧
      Fills "owner" members d.owner e.owner ∧ Fills "peer" members d.peer e.peer ∧
      Fills "callback" members d.callback e.callback ∧
      Fills "target_names" members d.names e.names ∧
      Fills "target_frequencies" members d.frequencies e.frequencies ∧
      Fills "delivery_cycles" members d.cycles e.cycles := by
  induction members generalizing d with
  | nil =>
    obtain ⟨owner, peer, callback, names, frequencies, cycles⟩ := d
    obtain ⟨owner', peer', callback', names', frequencies', cycles'⟩ := e
    simp [Wire.fills_nil, pure_eq_ok]
  | cons m members ih =>
    rw [List.foldlM_cons, bind_eq_ok, List.forall_mem_cons, Wire.fills_cons, Wire.fills_cons,
      Wire.fills_cons, Wire.fills_cons, Wire.fills_cons, Wire.fills_cons]
    simp only [Draft.add_eq_ok, ih]
    constructor
    · rintro ⟨between, ⟨named, a, b, c, d, e, f⟩, all, a', b', c', d', e', f'⟩
      exact ⟨⟨named, all⟩, ⟨_, a, a'⟩, ⟨_, b, b'⟩, ⟨_, c, c'⟩, ⟨_, d, d'⟩, ⟨_, e, e'⟩, _, f, f'⟩
    · rintro ⟨⟨named, all⟩, ⟨owner, a, a'⟩, ⟨peer, b, b'⟩, ⟨callback, c, c'⟩, ⟨names, d, d'⟩,
        ⟨frequencies, e, e'⟩, cycles, f, f'⟩
      exact ⟨⟨owner, peer, callback, names, frequencies, cycles⟩, ⟨named, a, b, c, d, e, f⟩, all,
        a', b', c', d', e', f'⟩

/-- An object is a snapshot if it has each field once and no name that is no text. -/
theorem decode_object {members : List (Option String × Value)} {s : Snapshot} :
    Wire.decode (.object members) = .ok s ↔ (∀ m ∈ members, m.1.isSome = true) ∧
      Holds members "owner" s.owner ∧ Holds members "peer" s.peer ∧
      Holds members "callback" s.callback ∧ Holds members "target_names" s.names ∧
      Holds members "target_frequencies" s.frequencies ∧
      Holds members "delivery_cycles" s.cycles := by
  change members.foldlM Draft.add {} >>= Draft.finish = _ ↔ _
  rw [bind_eq_ok]
  simp only [foldlM_add_eq_ok, ← Wire.fills_none]
  constructor
  · rintro ⟨⟨_ | owner, _ | peer, _ | callback, _ | names, _ | frequencies, _ | cycles⟩, read,
      finished⟩ <;> try contradiction
    obtain rfl := Except.ok.inj finished
    exact read
  · intro read
    exact ⟨⟨some _, some _, some _, some _, some _, some _⟩, read, rfl⟩

end Snapshot

namespace Event

theorem decodeKind_eq_ok {v : Value} {kind : Kind} :
    decodeKind v = .ok kind ↔ v = .text (some kind.key) := by
  constructor
  · intro decoded
    unfold decodeKind Wire.lookup at decoded
    split at decoded
    · split at decoded
      · rename_i found
        obtain rfl := Except.ok.inj decoded
        have named := List.find?_some found
        rw [of_decide_eq_true named]
      · contradiction
    · contradiction
  · rintro rfl
    cases kind <;> rfl

/-- The values of an event's field: none, or one that decodes to what the event holds. -/
def Carries : Event → List Value → Prop
  | registerSuccess, values => values = []
  | registerFailed reason, values => ∃ v, values = [v] ∧ decodeFailure v = .ok reason
  | scanResultsAvailable results, values => ∃ v, values = [v] ∧ Wire.decode v = .ok results
  | removed reason, values => ∃ v, values = [v] ∧ decodeReason v = .ok reason

theorem ofFields_eq_ok {kind : Kind} {values : List Value} {event : Event} :
    ofFields kind values = .ok event ↔ event.kind = kind ∧ event.Carries values := by
  rcases values with _ | ⟨v, _ | ⟨w, values⟩⟩
  all_goals cases kind <;> cases event <;> simp [ofFields, Event.kind, Carries, bind_eq_ok]

/-- What the text of an event is looked through for before any part is decoded. -/
def Fits (v : Value) : Prop :=
  v.isSound = true ∧ v.depth ≤ maxDepth

/-- The values of the field that events of a kind have. -/
def fieldValues (kind : Kind) (members : List (Option String × Value)) : List Value :=
  (kind.field.map (valuesOf · members)).getD []

theorem guarded_eq_ok {v : Value} {x : Except DecodeError Event} {event : Event} :
    (if v.isSound && v.depth ≤ maxDepth then x else .error .malformed) = .ok event ↔
      Fits v ∧ x = .ok event := by
  have looked : (v.isSound && decide (v.depth ≤ maxDepth)) = true ↔ Fits v := by simp [Fits]
  by_cases fits : Fits v
  · rw [if_pos (looked.mpr fits)]
    exact ⟨fun decoded => ⟨fits, decoded⟩, And.right⟩
  · rw [if_neg (mt looked.mp fits)]
    exact ⟨nofun, fun ⟨fits', _⟩ => absurd fits' fits⟩

theorem ofMembers_eq_ok {members : List (Option String × Value)} {event : Event} :
    ofMembers members = .ok event ↔ valuesOf "type" members = [.text (some event.kind.key)] ∧
      event.Carries (fieldValues event.kind members) := by
  unfold ofMembers
  split
  · rename_i type only
    simp only [bind_eq_ok, decodeKind_eq_ok, ofFields_eq_ok, only]
    constructor
    · rintro ⟨kind, rfl, rfl, carried⟩
      exact ⟨rfl, carried⟩
    · rintro ⟨same, carried⟩
      exact ⟨_, List.singleton_injective same, rfl, carried⟩
  · rename_i several
    refine ⟨nofun, fun ⟨only, _⟩ => ?_⟩
    exact absurd only (several _)

theorem ofItems_eq_ok {items : List Value} {event : Event} :
    ofItems items = .ok event ↔
      ∃ values, items = .text (some event.kind.key) :: values ∧ event.Carries values := by
  cases items with
  | nil => simp [ofItems]
  | cons type values =>
    simp only [ofItems, bind_eq_ok, decodeKind_eq_ok, ofFields_eq_ok]
    constructor
    · rintro ⟨kind, rfl, rfl, carried⟩
      exact ⟨values, rfl, carried⟩
    · rintro ⟨values', same, carried⟩
      obtain ⟨rfl, rfl⟩ := List.cons.inj same
      exact ⟨_, rfl, rfl, carried⟩

/-- An object is an event if it has the type and the field of that type once. -/
theorem decode_object {members : List (Option String × Value)} {event : Event} :
    Wire.decode (.object members) = .ok event ↔ Fits (.object members) ∧
      valuesOf "type" members = [.text (some event.kind.key)] ∧
      event.Carries (fieldValues event.kind members) :=
  guarded_eq_ok.trans (and_congr_right fun _ => ofMembers_eq_ok)

/-- An array is an event if it holds the type and just its field. -/
theorem decode_array {items : List Value} {event : Event} :
    Wire.decode (.array items) = .ok event ↔ Fits (.array items) ∧
      ∃ values, items = .text (some event.kind.key) :: values ∧ event.Carries values :=
  guarded_eq_ok.trans (and_congr_right fun _ => ofItems_eq_ok)

end Event

end ScanSlot
