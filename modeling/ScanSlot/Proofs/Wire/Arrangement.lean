import ScanSlot.Proofs.Wire.Members

/-! The arrangement of a document means nothing and its fields everything. An object may list its
fields in any order and anything else between them, or be the array of the fields; blanks and
escapes are as one likes. A field that is missing or comes again is never overlooked. -/
namespace ScanSlot

open Json (Value)
open Event (valuesOf)

namespace Wire

/-- Fields as the members of an object. -/
def named (fields : List (String × Value)) : List (Option String × Value) :=
  fields.map fun field => (some field.1, field.2)

/-- Members of other names than the fields. Their values are tame to a depth of a hundred. -/
def Foreign (fields : List (String × Value)) (extras : List (Option String × Value)) : Prop :=
  ∀ m ∈ extras, (∃ name, m.1 = some name ∧ name ∉ fields.map (·.1)) ∧ m.2.Tame 100

/-- The documents that are made of some fields. -/
inductive Arranged (fields : List (String × Value)) : Value → Prop where
  | object {members extras : List (Option String × Value)} (foreign : Foreign fields extras)
      (order : members.Perm (named fields ++ extras)) : Arranged fields (.object members)
  | array : Arranged fields (.array (fields.map (·.2)))

/-- The objects that are made of some fields, but that one of them is missing or comes again. -/
inductive Botched (fields : List (String × Value)) : Value → Prop where
  | missing {before after : List (String × Value)} {lost : String × Value}
      {members extras : List (Option String × Value)} (all : fields = before ++ lost :: after)
      (foreign : Foreign fields extras) (order : members.Perm (named (before ++ after) ++ extras)) :
      Botched fields (.object members)
  | repeated {field : String × Value} {again : Value}
      {members extras : List (Option String × Value)} (known : field ∈ fields) (foreign : Foreign fields extras)
      (order : members.Perm ((some field.1, again) :: (named fields ++ extras))) :
      Botched fields (.object members)

section
variable {fields kept : List (String × Value)} {members extras : List (Option String × Value)}
  {field : String × Value} {name : String}

theorem valuesOf_named_of_unknown (unknown : name ∉ fields.map (·.1)) :
    valuesOf name (named fields) = [] := by
  rw [valuesOf_eq_nil, named, List.forall_mem_map]
  intro field here same
  exact unknown (Option.some.inj same ▸ List.mem_map_of_mem here)

theorem distinct_middle {before after : List (String × Value)}
    (distinct : ((before ++ field :: after).map (·.1)).Nodup) :
    field.1 ∉ (before ++ after).map (·.1) ∧ ((before ++ after).map (·.1)).Nodup :=
  List.nodup_cons.mp ((List.perm_middle.map _).nodup_iff.mp distinct)

theorem valuesOf_named (distinct : (fields.map (·.1)).Nodup) (here : field ∈ fields) :
    valuesOf field.1 (named fields) = [field.2] := by
  obtain ⟨before, after, rfl⟩ := List.append_of_mem here
  have front : (named (before ++ field :: after)).Perm
      ((some field.1, field.2) :: named (before ++ after)) := List.perm_middle.map _
  have same := valuesOf_perm field.1 front
  rw [valuesOf_cons_same, valuesOf_named_of_unknown (distinct_middle distinct).1] at same
  exact List.perm_singleton.mp same

theorem Foreign.of_subset (foreign : Foreign fields extras) (subset : kept ⊆ fields) :
    Foreign kept extras := by
  intro m here
  obtain ⟨⟨name, named, unknown⟩, tame⟩ := foreign m here
  exact ⟨⟨name, named, fun known => unknown (List.map_subset _ subset known)⟩, tame⟩

theorem Foreign.valuesOf_eq_nil (foreign : Foreign fields extras) (here : field ∈ fields) :
    valuesOf field.1 extras = [] := by
  rw [ScanSlot.valuesOf_eq_nil]
  intro m among same
  obtain ⟨⟨name, named, unknown⟩, _⟩ := foreign m among
  rw [same] at named
  exact unknown (Option.some.inj named ▸ List.mem_map_of_mem here)

/-- Wherever it stands, a field is the only member of its name. -/
theorem valuesOf_arranged (distinct : (fields.map (·.1)).Nodup) (foreign : Foreign fields extras)
    (order : members.Perm (named fields ++ extras)) (here : field ∈ fields) :
    valuesOf field.1 members = [field.2] := by
  have same := valuesOf_perm field.1 order
  rw [valuesOf_append, valuesOf_named distinct here, foreign.valuesOf_eq_nil here] at same
  exact List.perm_singleton.mp same

theorem Botched.object {doc : Value} (botched : Botched fields doc) :
    ∃ members, doc = .object members := by
  cases botched <;> exact ⟨_, rfl⟩

/-- One of the fields is not there just once, and only that one. -/
theorem Botched.not_once (distinct : (fields.map (·.1)).Nodup)
    (botched : Botched fields (.object members)) :
    ∃ field ∈ fields, (∀ v, valuesOf field.1 members ≠ [v]) ∧
      ∀ other ∈ fields, other.1 ≠ field.1 → valuesOf other.1 members = [other.2] := by
  cases botched with
  | @missing before after lost _ _ all foreign order =>
    subst all
    obtain ⟨unknown, distinct'⟩ := distinct_middle distinct
    have subset : before ++ after ⊆ before ++ lost :: after := by simp
    refine ⟨lost, by simp, ?_, ?_⟩
    · intro v only
      have same := valuesOf_perm lost.1 order
      rw [valuesOf_append, valuesOf_named_of_unknown unknown,
        foreign.valuesOf_eq_nil (by simp), only] at same
      exact List.cons_ne_nil _ _ same.eq_nil
    · intro other here different
      have left : other ∈ before ++ after := by
        rcases List.mem_cons.mp (List.perm_middle.mem_iff.mp here) with rfl | left
        · contradiction
        · exact left
      exact valuesOf_arranged distinct' (foreign.of_subset subset) order left
  | @repeated field again _ _ known foreign order =>
    refine ⟨field, known, ?_, ?_⟩
    · intro v only
      have same := valuesOf_perm field.1 order
      rw [only, valuesOf_cons_same, valuesOf_append, valuesOf_named distinct known] at same
      have lengths := same.length_eq
      simp at lengths
    · intro other here different
      have same := valuesOf_perm other.1 order
      rw [valuesOf_cons_other (by simpa using different.symm), valuesOf_append,
        valuesOf_named distinct here, foreign.valuesOf_eq_nil here] at same
      exact List.perm_singleton.mp same

/-- Whatever accepts only objects with each field once accepts no botched one. -/
theorem Botched.refused {α : Type} [Wire α] {doc : Value} {a : α}
    (distinct : (fields.map (·.1)).Nodup) (botched : Botched fields doc)
    (once : ∀ members, decode (.object members) = .ok a →
      ∀ field ∈ fields, ∃ v, valuesOf field.1 members = [v]) : decode doc ≠ .ok a := by
  intro decoded
  obtain ⟨members, rfl⟩ := botched.object
  obtain ⟨field, known, several, _⟩ := botched.not_once distinct
  obtain ⟨v, only⟩ := once members decoded field known
  exact several v only

theorem named_isSome (foreign : Foreign fields extras)
    (order : members.Perm (named fields ++ extras)) : ∀ m ∈ members, m.1.isSome = true := by
  intro m here
  rcases List.mem_append.mp (order.mem_iff.mp here) with own | extra
  · obtain ⟨field, _, rfl⟩ := List.mem_map.mp own
    rfl
  · obtain ⟨⟨name, named, _⟩, _⟩ := foreign m extra
    rw [named]
    rfl

theorem Arranged.tame {d : Nat} {doc : Value} (arranged : Arranged fields doc) (deep : 100 ≤ d)
    (tame : ∀ field ∈ fields, field.2.Tame d) : doc.Tame (d + 1) := by
  cases arranged with
  | object foreign order =>
    refine .object (named_isSome foreign order) ?_
    intro m here
    rcases List.mem_append.mp (order.mem_iff.mp here) with own | extra
    · obtain ⟨field, among, rfl⟩ := List.mem_map.mp own
      exact tame field among
    · exact (foreign m extra).2.mono deep
  | array =>
    refine .array ?_
    intro v here
    obtain ⟨field, among, rfl⟩ := List.mem_map.mp here
    exact tame field among

theorem tame_arranged {α : Type} {fields : α → List (String × Value)} {as : List α}
    {docs : List Value} (tame : ∀ a, ∀ field ∈ fields a, field.2.Tame 100)
    (arranged : List.Forall₂ (fun a => Arranged (fields a)) as docs) :
    (Value.array docs).Tame 102 := by
  refine .array ?_
  intro doc here
  obtain ⟨a, arranged⟩ := exists_of_forall₂ arranged.flip doc here
  exact Arranged.tame arranged (Nat.le_refl 100) (tame a)

end

end Wire

open Wire (Arranged Botched Holds)

namespace ScanResult

def fields (result : ScanResult) : List (String × Value) :=
  [("ssid", Wire.encode result.ssid), ("bssid", Wire.encode result.bssid),
    ("frequency", Wire.encode result.frequency), ("rssi", Wire.encode result.rssi)]

theorem distinct_fields (result : ScanResult) : (result.fields.map (·.1)).Nodup := by
  simp [fields]

theorem tame_fields (result : ScanResult) : ∀ field ∈ result.fields, field.2.Tame 100 := by
  simp only [fields, List.forall_mem_cons]
  exact ⟨(Faithful.tame result.ssid).mono (by decide),
    (Faithful.tame result.bssid).mono (by decide),
    (Faithful.tame result.frequency).mono (by decide),
    (Faithful.tame result.rssi).mono (by decide), List.forall_mem_nil _⟩

theorem decode_arranged {result : ScanResult} {doc : Value}
    (arranged : Arranged result.fields doc) : Wire.decode doc = .ok result := by
  cases arranged with
  | array =>
    exact decode_array.mpr ⟨_, _, _, _, rfl, Faithful.decode_encode _, Faithful.decode_encode _,
      Faithful.decode_encode _, Faithful.decode_encode _⟩
  | @object members _ foreign order =>
    have once : ∀ field ∈ result.fields, valuesOf field.1 members = [field.2] :=
      fun _ => Wire.valuesOf_arranged result.distinct_fields foreign order
    simp only [fields, List.forall_mem_cons] at once
    obtain ⟨ssid, bssid, frequency, rssi, _⟩ := once
    exact decode_object.mpr ⟨Wire.named_isSome foreign order,
      ⟨_, ssid, Faithful.decode_encode _⟩, ⟨_, bssid, Faithful.decode_encode _⟩,
      ⟨_, frequency, Faithful.decode_encode _⟩, ⟨_, rssi, Faithful.decode_encode _⟩⟩

theorem decode_botched {result other : ScanResult} {doc : Value}
    (botched : Botched result.fields doc) : Wire.decode doc ≠ .ok other := by
  refine botched.refused result.distinct_fields fun members decoded => ?_
  obtain ⟨_, ⟨_, ssid, _⟩, ⟨_, bssid, _⟩, ⟨_, frequency, _⟩, ⟨_, rssi, _⟩⟩ :=
    decode_object.mp decoded
  simp only [fields, List.forall_mem_cons]
  exact ⟨⟨_, ssid⟩, ⟨_, bssid⟩, ⟨_, frequency⟩, ⟨_, rssi⟩, List.forall_mem_nil _⟩

end ScanResult

namespace Snapshot

def fields (s : Snapshot) : List (String × Value) :=
  [("owner", Wire.encode s.owner), ("peer", Wire.encode s.peer),
    ("callback", Wire.encode s.callback), ("target_names", Wire.encode s.names),
    ("target_frequencies", Wire.encode s.frequencies), ("delivery_cycles", Wire.encode s.cycles)]

theorem distinct_fields (s : Snapshot) : (s.fields.map (·.1)).Nodup := by
  simp [fields]

theorem decode_arranged {s : Snapshot} {doc : Value} (arranged : Arranged s.fields doc) :
    Wire.decode doc = .ok s := by
  cases arranged with
  | array =>
    change ofItems (s.fields.map (·.2)) = _
    simp only [fields, List.map_cons, List.map_nil, ofItems, Faithful.decode_encode]
    rfl
  | @object members _ foreign order =>
    have once : ∀ field ∈ s.fields, valuesOf field.1 members = [field.2] :=
      fun _ => Wire.valuesOf_arranged s.distinct_fields foreign order
    simp only [fields, List.forall_mem_cons] at once
    obtain ⟨owner, peer, callback, names, frequencies, cycles, _⟩ := once
    exact decode_object.mpr ⟨Wire.named_isSome foreign order,
      ⟨_, owner, Faithful.decode_encode _⟩, ⟨_, peer, Faithful.decode_encode _⟩,
      ⟨_, callback, Faithful.decode_encode _⟩, ⟨_, names, Faithful.decode_encode _⟩,
      ⟨_, frequencies, Faithful.decode_encode _⟩, ⟨_, cycles, Faithful.decode_encode _⟩⟩

theorem decode_botched {s other : Snapshot} {doc : Value} (botched : Botched s.fields doc) :
    Wire.decode doc ≠ .ok other := by
  refine botched.refused s.distinct_fields fun members decoded => ?_
  obtain ⟨_, ⟨_, owner, _⟩, ⟨_, peer, _⟩, ⟨_, callback, _⟩, ⟨_, names, _⟩, ⟨_, frequencies, _⟩,
    ⟨_, cycles, _⟩⟩ := decode_object.mp decoded
  simp only [fields, List.forall_mem_cons]
  exact ⟨⟨_, owner⟩, ⟨_, peer⟩, ⟨_, callback⟩, ⟨_, names⟩, ⟨_, frequencies⟩, ⟨_, cycles⟩,
    List.forall_mem_nil _⟩

end Snapshot

namespace Event

def typeField (kind : Kind) : String × Value :=
  ("type", Wire.encode kind.key)

/-- The fields of an event, the type first. Its results may each be arranged as one likes. -/
inductive Fields : Event → List (String × Value) → Prop where
  | registerSuccess : Fields registerSuccess [typeField .registerSuccess]
  | registerFailed (reason : Rejection) :
      Fields (registerFailed reason) [typeField .registerFailed, ("reason", Wire.encode reason)]
  | scanResultsAvailable {results : List ScanResult} {docs : List Value}
      (arranged : List.Forall₂ (fun result => Wire.Arranged result.fields) results docs) :
      Fields (scanResultsAvailable results)
        [typeField .scanResultsAvailable, ("results", .array docs)]
  | removed (reason : Removal) :
      Fields (removed reason) [typeField .removed, ("reason", Wire.encode reason)]

/-- The documents of an event. -/
def Arranged (event : Event) (doc : Value) : Prop :=
  ∃ fields, event.Fields fields ∧ Wire.Arranged fields doc

/-- An event's documents with a field of the event, or of some of its results, missing or
repeated. -/
inductive Botched : Event → Value → Prop where
  | fields {event : Event} {fields : List (String × Value)} {doc : Value}
      (complete : event.Fields fields) (botched : Wire.Botched fields doc) : Botched event doc
  | results {results : List ScanResult} {docs : List Value} {result : ScanResult} {bad doc : Value}
      (mixed : List.Forall₂ (fun result doc =>
        Wire.Arranged result.fields doc ∨ Wire.Botched result.fields doc) results docs)
      (inside : bad ∈ docs) (botched : Wire.Botched result.fields bad)
      (arranged : Wire.Arranged [typeField .scanResultsAvailable, ("results", .array docs)] doc) :
      Botched (scanResultsAvailable results) doc

theorem eq_of_typeField {kind kind' : Kind} (same : (typeField kind).2 = (typeField kind').2) :
    kind = kind' := by
  cases kind <;> cases kind' <;> first | rfl | (simp [typeField, Wire.encode, Kind.key] at same)

theorem decode_reason (reason : Removal) : decodeReason (Wire.encode reason) = .ok reason := by
  cases reason <;> rfl

theorem decode_failure (reason : Rejection) : decodeFailure (Wire.encode reason) = .ok reason := by
  cases reason <;> rfl

theorem decode_results {results : List ScanResult} {docs : List Value}
    (arranged : List.Forall₂ (fun result => Wire.Arranged result.fields) results docs) :
    Wire.decode (.array docs) = .ok results :=
  Wire.mapM_decode.mpr (arranged.flip.imp fun _ _ => ScanResult.decode_arranged)

theorem fits_of_tame {doc : Value} (tame : doc.Tame 103) : Fits doc :=
  ⟨tame.isSound, Nat.le_trans tame.depth_le (by decide)⟩

namespace Fields
variable {event : Event} {fields : List (String × Value)}

theorem shape (complete : event.Fields fields) :
    ∃ own, fields = typeField event.kind :: own ∧ own.map (·.1) = event.kind.field.toList ∧
      event.Carries (own.map (·.2)) := by
  cases complete with
  | registerSuccess => exact ⟨[], rfl, rfl, rfl⟩
  | registerFailed reason => exact ⟨_, rfl, rfl, _, rfl, decode_failure reason⟩
  | scanResultsAvailable arranged => exact ⟨_, rfl, rfl, _, rfl, decode_results arranged⟩
  | removed reason => exact ⟨_, rfl, rfl, _, rfl, decode_reason reason⟩

theorem distinct (complete : event.Fields fields) : (fields.map (·.1)).Nodup := by
  cases complete <;> simp [typeField]

theorem tame (complete : event.Fields fields) : ∀ field ∈ fields, field.2.Tame 102 := by
  have typed (kind : Kind) : (typeField kind).2.Tame 102 := .text kind.key
  cases complete with
  | registerSuccess => simp [typed]
  | registerFailed reason => simpa [typed] using (Faithful.tame reason).mono (Nat.zero_le 102)
  | scanResultsAvailable arranged =>
    simpa [typed] using Wire.tame_arranged ScanResult.tame_fields arranged
  | removed reason => simpa [typed] using (Faithful.tame reason).mono (Nat.zero_le 102)

end Fields

theorem fieldValues_eq {kind : Kind} {own : List (String × Value)}
    {members : List (Option String × Value)} (names : own.map (·.1) = kind.field.toList)
    (once : ∀ field ∈ own, valuesOf field.1 members = [field.2]) :
    fieldValues kind members = own.map (·.2) := by
  unfold fieldValues
  cases field : kind.field with
  | none =>
    rw [field] at names
    rw [List.map_eq_nil_iff.mp names]
    rfl
  | some name =>
    rw [field] at names
    obtain ⟨entry, rfl, rfl⟩ := List.map_eq_singleton_iff.mp names
    simpa using once entry

theorem decode_arranged {event : Event} {doc : Value} (arranged : event.Arranged doc) :
    Wire.decode doc = .ok event := by
  obtain ⟨fields, complete, arranged⟩ := arranged
  have fits := fits_of_tame (arranged.tame (by decide) complete.tame)
  have distinct := complete.distinct
  obtain ⟨own, rfl, names, carries⟩ := complete.shape
  cases arranged with
  | array => exact decode_array.mpr ⟨fits, _, rfl, carries⟩
  | @object members _ foreign order =>
    have once : ∀ field ∈ typeField event.kind :: own, valuesOf field.1 members = [field.2] :=
      fun _ => Wire.valuesOf_arranged distinct foreign order
    rw [List.forall_mem_cons] at once
    rw [decode_object, fieldValues_eq names once.2]
    exact ⟨fits, once.1, carries⟩

theorem Carries.single {event : Event} {values : List Value} {name : String}
    (carries : event.Carries values) (field : event.kind.field = some name) :
    ∃ v, values = [v] := by
  cases event with
  | registerSuccess => contradiction
  | registerFailed | scanResultsAvailable | removed =>
    obtain ⟨v, only, _⟩ := carries
    exact ⟨v, only⟩

theorem carries_of_arranged {kind : Kind} {own : List (String × Value)} {doc : Value}
    {event : Event} (names : own.map (·.1) = kind.field.toList)
    (distinct : ((typeField kind :: own).map (·.1)).Nodup)
    (arranged : Wire.Arranged (typeField kind :: own) doc) (decoded : Wire.decode doc = .ok event) :
    event.kind = kind ∧ event.Carries (own.map (·.2)) := by
  cases arranged with
  | array =>
    obtain ⟨_, values, same, carries⟩ := decode_array.mp decoded
    obtain ⟨typed, rfl⟩ := List.cons.inj same
    exact ⟨(eq_of_typeField typed).symm, carries⟩
  | @object members _ foreign order =>
    have once : ∀ field ∈ typeField kind :: own, valuesOf field.1 members = [field.2] :=
      fun _ => Wire.valuesOf_arranged distinct foreign order
    rw [List.forall_mem_cons] at once
    obtain ⟨_, typed, carries⟩ := decode_object.mp decoded
    obtain rfl := eq_of_typeField (List.singleton_injective (once.1.symm.trans typed))
    rw [fieldValues_eq names once.2] at carries
    exact ⟨rfl, carries⟩

theorem decode_botched {event other : Event} {doc : Value} (botched : event.Botched doc) :
    Wire.decode doc ≠ .ok other := by
  intro decoded
  cases botched with
  | fields complete botched =>
    obtain ⟨members, rfl⟩ := botched.object
    obtain ⟨_, typed, carries⟩ := decode_object.mp decoded
    obtain ⟨field, known, several, others⟩ := botched.not_once complete.distinct
    have distinct := complete.distinct
    obtain ⟨own, rfl, names, _⟩ := complete.shape
    rcases List.mem_cons.mp known with rfl | known
    · exact several _ typed
    · have among : field.1 ∈ own.map (·.1) := List.mem_map_of_mem known
      have untyped : (typeField event.kind).1 ≠ field.1 := by
        intro same
        rw [← same] at among
        exact (List.nodup_cons.mp distinct).1 among
      have typed' := others _ List.mem_cons_self untyped
      have same := eq_of_typeField (List.singleton_injective (typed'.symm.trans typed))
      rw [names, Option.mem_toList, same] at among
      obtain ⟨v, only⟩ := carries.single among
      rw [fieldValues, among] at only
      exact several v only
  | results mixed inside botched arranged =>
    obtain ⟨kind, carries⟩ := carries_of_arranged rfl (by simp [typeField]) arranged decoded
    cases other with
    | scanResultsAvailable results =>
      obtain ⟨_, ⟨⟩, decoded⟩ := carries
      obtain ⟨result, decoded⟩ := exists_of_forall₂ (Wire.mapM_decode.mp decoded) _ inside
      exact ScanResult.decode_botched botched decoded
    | _ => contradiction

end Event

/-- A decoder to which the arrangement of a document means nothing and its fields everything. -/
structure ReadsFields (α : Type) [Wire α] (Arranged Botched : α → Value → Prop) : Prop where
  written (a : α) : Arranged a (Wire.encode a)
  accepts {a : α} {doc : Value} {text : String} (arranged : Arranged a doc)
    (rendered : Json.Rendered doc.tokens text.toList) : Wire.read text = .ok a
  refuses {a : α} {doc : Value} {text : String} (botched : Botched a doc)
    (rendered : Json.Rendered doc.tokens text.toList) :
    ∃ error, (Wire.read text : Except DecodeError α) = .error error

section
variable {α : Type} [Wire α] {doc : Value} {text : String}

/-- A text is read as the one document that it holds. -/
theorem read_of_rendered (rendered : Json.Rendered doc.tokens text.toList) :
    (Wire.read text : Except DecodeError α) = Wire.decode doc := by
  rw [Wire.read, Value.parse?_eq_some.mpr rendered]

theorem ReadsFields.of_decode {Arranged Botched : α → Value → Prop}
    (written : ∀ a : α, Arranged a (Wire.encode a))
    (accepts : ∀ {a : α} {doc : Value}, Arranged a doc → Wire.decode doc = .ok a)
    (refuses : ∀ {a b : α} {doc : Value}, Botched a doc → Wire.decode doc ≠ .ok b) :
    ReadsFields α Arranged Botched where
  written := written
  accepts arranged rendered := (read_of_rendered rendered).trans (accepts arranged)
  refuses {a doc text} botched rendered := by
    rw [read_of_rendered rendered]
    cases decoded : (Wire.decode doc : Except DecodeError α) with
    | ok b => exact absurd decoded (refuses botched)
    | error error => exact ⟨error, rfl⟩

end

theorem Wire.arranged_object {fields : List (String × Value)} :
    Arranged fields (.object (named fields)) := by
  have nothing : Foreign fields [] := List.forall_mem_nil _
  exact .object nothing (by rw [List.append_nil])

theorem Event.arranged_encode (event : Event) : event.Arranged (Wire.encode event) := by
  cases event with
  | registerSuccess => exact ⟨_, .registerSuccess, Wire.arranged_object⟩
  | registerFailed reason => exact ⟨_, .registerFailed reason, Wire.arranged_object⟩
  | removed reason => exact ⟨_, .removed reason, Wire.arranged_object⟩
  | scanResultsAvailable results =>
    have arranged : List.Forall₂ (fun result => Wire.Arranged result.fields) results
        (results.map Wire.encode) := by
      rw [List.forall₂_map_right_iff, List.forall₂_same]
      exact fun _ _ => Wire.arranged_object
    exact ⟨_, .scanResultsAvailable arranged, Wire.arranged_object⟩

/-- Results, snapshots and events are read from any arrangement of their fields, and from none of
which a field is missing or repeated. -/
theorem json_arrangement :
    ReadsFields ScanResult (fun result => Wire.Arranged result.fields)
        (fun result => Wire.Botched result.fields) ∧
      ReadsFields Snapshot (fun s => Wire.Arranged s.fields) (fun s => Wire.Botched s.fields) ∧
      ReadsFields Event Event.Arranged Event.Botched :=
  ⟨.of_decode (fun _ => Wire.arranged_object) ScanResult.decode_arranged ScanResult.decode_botched,
    .of_decode (fun _ => Wire.arranged_object) Snapshot.decode_arranged Snapshot.decode_botched,
    .of_decode Event.arranged_encode Event.decode_arranged Event.decode_botched⟩

/-- Results of a scan the other way round: the type comes last, after a member that means nothing
and comes twice; one result is an array. With another type in front nothing is read. -/
theorem json_arrangement_reversed :
    let first : ScanResult := ⟨⟨[97, 98], by decide⟩, "aa:bb", ⟨2412⟩, -40⟩
    let second : ScanResult := ⟨⟨[], by decide⟩, "", ⟨5180⟩, -70⟩
    let docs : List Value :=
      [.array (first.fields.map (·.2)),
        .object ((some "note", .null) :: (Wire.named second.fields).reverse)]
    let members : List (Option String × Value) :=
      [(some "note", .null), (some "note", .array [.bool true]), (some "results", .array docs),
        (some "type", .text (some "scan_results_available"))]
    let type : Option String × Value := (some "type", .text (some "removed"))
    Wire.read (String.ofList (Value.object members).compact) =
        .ok (Event.scanResultsAvailable [first, second]) ∧
      ∃ error, (Wire.read (String.ofList (Value.object (type :: members)).compact) :
        Except DecodeError Event) = .error error := by
  intro first second docs members type
  obtain ⟨_, _, events⟩ := json_arrangement
  let own : List (String × Value) :=
    [Event.typeField .scanResultsAvailable, ("results", .array docs)]
  let extras : List (Option String × Value) :=
    [(some "note", .array [.bool true]), (some "note", .null)]
  have nested : Wire.Foreign second.fields [(some "note", .null)] := by
    simp [Wire.Foreign, ScanResult.fields, Value.Tame.null]
  have around : Wire.Foreign own extras := by
    simp [Wire.Foreign, own, extras, Event.typeField, Value.Tame.null, Value.Tame.array,
      Value.Tame.bool]
  have inner : (Wire.named second.fields ++ [(some "note", Value.null)]).reverse.Perm _ :=
    List.reverse_perm _
  have outer : members.Perm (Wire.named own ++ extras) :=
    List.reverse_perm (Wire.named own ++ extras)
  have complete : (Event.scanResultsAvailable [first, second]).Fields own :=
    .scanResultsAvailable (.cons .array (.cons (.object nested inner) .nil))
  have shown {members : List (Option String × Value)}
      (plain : ∀ t ∈ (Value.object members).tokens, t.isPlain = true) :
      Json.Rendered (Value.object members).tokens
        (String.ofList (Value.object members).compact).toList := by
    rw [String.toList_ofList]
    exact (Value.layout_compact _).rendered plain
  constructor
  · exact events.accepts ⟨own, complete, .object around outer⟩ (shown (by decide))
  · have again : Wire.Botched own (.object (type :: members)) :=
      .repeated List.mem_cons_self around (outer.cons _)
    exact events.refuses (.fields complete again) (shown (by decide))

end ScanSlot
