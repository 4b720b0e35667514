import ScanSlot.Registry.Dump

/-! What reaches a device when a text is written to it piece by piece. A device may take less than it
is handed, and then it is handed the rest. However the text is divided into pieces and however little
is taken at a time, a device with room for some bytes ends up with that many first bytes of the text,
and the failure is told exactly if some are missing. -/
namespace ScanSlot

/-- What takes bytes: of those it is handed it takes the first few, and it tells how many. -/
structure Device (σ : Type) where
  write : List UInt8 → σ → Nat × σ

namespace Device
variable {σ : Type}

/-- Hands over the rest again and again until none is left or none of it is taken. -/
def writeAll (d : Device σ) (bytes : List UInt8) (s : σ) : Except Fault Unit × σ :=
  if bytes = [] then (.ok (), s)
  else if (d.write bytes s).1 = 0 then
    (.error (.io "failed to write whole buffer"), (d.write bytes s).2)
  else d.writeAll (bytes.drop (d.write bytes s).1) (d.write bytes s).2
  termination_by bytes.length
  decreasing_by
    have nonempty : 0 < bytes.length := List.length_pos_iff.mpr ‹_›
    rw [List.length_drop]
    omega

/-- No piece is handed over after the first failure. -/
def writePieces (d : Device σ) : List String → σ → Except Fault Unit × σ
  | [], s => (.ok (), s)
  | piece :: rest, s =>
      match d.writeAll (Utf8.bytes piece) s with
      | (.ok (), s) => d.writePieces rest s
      | (.error fault, s) => (.error fault, s)

/-- A device that holds what it has taken, and takes something as long as it has room. -/
structure Limited (d : Device σ) (held : σ → List UInt8) (room : σ → Nat) : Prop where
  holds : ∀ bytes s, held (d.write bytes s).2 = held s ++ bytes.take (d.write bytes s).1
  given : ∀ bytes s, (d.write bytes s).1 ≤ bytes.length
  fits : ∀ bytes s, (d.write bytes s).1 ≤ room s
  leaves : ∀ bytes s, room (d.write bytes s).2 = room s - (d.write bytes s).1
  accepts : ∀ bytes s, bytes ≠ [] → 0 < room s → 0 < (d.write bytes s).1

/-- How it ends when bytes are written to a device that has only so much room for them. -/
structure Fills (held : σ → List UInt8) (room : σ → Nat) (s : σ) (bytes : List UInt8)
    (result : Except Fault Unit × σ) : Prop where
  holds : held result.2 = held s ++ bytes.take (room s)
  leaves : room result.2 = room s - bytes.length
  answer : result.1 =
    if bytes.length ≤ room s then .ok () else .error (.io "failed to write whole buffer")

section
variable {d : Device σ} {held : σ → List UInt8} {room : σ → Nat} {s : σ}

namespace Fills
variable {before after : List UInt8} {t : σ} {fault : Fault} {result : Except Fault Unit × σ}

theorem ok_iff (fills : Fills held room s before result) :
    result.1 = .ok () ↔ before.length ≤ room s := by
  rw [fills.answer]
  split <;> simp [*]

theorem append (first : Fills held room s before (.ok (), t))
    (last : Fills held room t after result) : Fills held room s (before ++ after) result := by
  have fits : before.length ≤ room s := first.ok_iff.mp rfl
  have left : room t = room s - before.length := first.leaves
  refine ⟨?_, ?_, ?_⟩
  · have holds : held t = held s ++ before.take (room s) := first.holds
    rw [last.holds, holds, left, List.take_append, List.append_assoc]
  · rw [last.leaves, left, List.length_append]
    omega
  · have same : after.length ≤ room s - before.length ↔ before.length + after.length ≤ room s := by
      omega
    rw [last.answer, left, List.length_append]
    simp only [same]

/-- A device that did not take all is full, so more bytes would have made no difference. -/
theorem append_of_error (first : Fills held room s before (.error fault, t))
    (after : List UInt8) : Fills held room s (before ++ after) (.error fault, t) := by
  have tight : room s < before.length := by
    apply Nat.lt_of_not_le
    intro fits
    have taken := first.ok_iff.mpr fits
    contradiction
  have left : room t = room s - before.length := first.leaves
  have full : room t = 0 := by omega
  refine ⟨?_, ?_, ?_⟩
  · rw [first.holds, List.take_append_of_le_length (Nat.le_of_lt tight)]
  · rw [List.length_append]
    change room t = _
    omega
  · rw [first.answer, List.length_append, if_neg (by omega), if_neg (by omega)]

end Fills

theorem fills_nil (s : σ) : Fills held room s [] (.ok (), s) where
  holds := by rw [List.take_nil, List.append_nil]
  leaves := rfl
  answer := (if_pos (Nat.zero_le _)).symm

theorem writeAll_fills (limited : d.Limited held room) (bytes : List UInt8) (s : σ) :
    Fills held room s bytes (d.writeAll bytes s) := by
  fun_induction d.writeAll bytes s with
  | case1 s => exact fills_nil s
  | case2 bytes s nonempty none_taken =>
    have full : room s = 0 := by
      apply Nat.eq_zero_of_not_pos
      intro some_room
      have accepted := limited.accepts bytes s nonempty some_room
      omega
    have left := limited.leaves bytes s
    have tight : ¬ bytes.length ≤ 0 := by simpa using nonempty
    refine ⟨?_, ?_, ?_⟩
    · rw [limited.holds, none_taken, full]
    · rw [left, none_taken, full, Nat.zero_sub, Nat.zero_sub]
    · rw [full, if_neg tight]
  | case3 bytes s nonempty some_taken ih =>
    -- What was taken at once and what is taken later are two stretches of the same bytes.
    generalize taken : (d.write bytes s).1 = count at *
    have given := limited.given bytes s
    have fits := limited.fits bytes s
    have left := limited.leaves bytes s
    have holds := limited.holds bytes s
    rw [taken] at given fits left holds
    refine ⟨?_, ?_, ?_⟩
    · have parted : room s = count + (room s - count) := by omega
      rw [ih.holds, holds, left, List.append_assoc, ← List.take_add, ← parted]
    · rw [ih.leaves, left, List.length_drop]
      omega
    · have same : bytes.length - count ≤ room s - count ↔ bytes.length ≤ room s := by omega
      rw [ih.answer, left, List.length_drop]
      simp only [same]

theorem writePieces_fills (limited : d.Limited held room) (pieces : List String) (s : σ) :
    Fills held room s (Utf8.bytes (String.join pieces)) (d.writePieces pieces s) := by
  induction pieces generalizing s with
  | nil => exact fills_nil s
  | cons piece rest ih =>
    have bytes : Utf8.bytes (String.join (piece :: rest)) =
        Utf8.bytes piece ++ Utf8.bytes (String.join rest) := by
      rw [String.join_cons, Utf8.bytes_append]
    have first := writeAll_fills limited (Utf8.bytes piece) s
    rw [bytes, writePieces]
    split
    · rename_i t written
      rw [written] at first
      exact first.append (ih t)
    · rename_i fault t failed
      rw [failed] at first
      exact first.append_of_error _

/-- Whatever a device is like, and whatever comes behind the piece that it fails on. -/
theorem writePieces_of_error {before : List String} {piece : String} {t u : σ} {fault : Fault}
    (written : d.writePieces before s = (.ok (), t))
    (failed : d.writeAll (Utf8.bytes piece) t = (.error fault, u)) (after : List String) :
    d.writePieces (before ++ piece :: after) s = (.error fault, u) := by
  induction before generalizing s with
  | nil =>
    obtain ⟨_, rfl⟩ := Prod.mk.inj written
    rw [List.nil_append, writePieces, failed]
  | cons first before ih =>
    rw [writePieces] at written
    rw [List.cons_append, writePieces]
    split at written
    · exact ih written
    · exact absurd (Prod.mk.inj written).1 nofun

end

end Device

namespace Writer

def device : Device Writer where
  write bytes w := w.write bytes

/-- How many bytes still fit. -/
def left (w : Writer) : Nat :=
  w.room - w.written.length

theorem limited : device.Limited written left where
  holds bytes w := by
    have taken : bytes.take (bytes.take w.left).length = bytes.take w.left := by
      rw [List.length_take, ← List.take_take, List.take_length]
    exact congrArg (w.written ++ ·) taken.symm
  given bytes w := by
    change (bytes.take w.left).length ≤ bytes.length
    rw [List.length_take]
    exact Nat.min_le_right _ _
  fits bytes w := by
    change (bytes.take w.left).length ≤ w.left
    rw [List.length_take]
    exact Nat.min_le_left _ _
  leaves bytes w := by
    change w.room - (w.written ++ bytes.take w.left).length = w.left - (bytes.take w.left).length
    rw [List.length_append, Nat.sub_add_eq]
    rfl
  accepts bytes w nonempty room := by
    change 0 < (bytes.take w.left).length
    rw [List.length_take]
    exact Nat.lt_min.mpr ⟨room, List.length_pos_iff.mpr nonempty⟩

theorem write_eq (w : Writer) (bytes : List UInt8) :
    device.write bytes w =
      ((bytes.take w.left).length, { w with written := w.written ++ bytes.take w.left }) := rfl

theorem writeAll_full {w : Writer} {bytes : List UInt8} (full : w.left = 0)
    (nonempty : bytes ≠ []) :
    device.writeAll bytes w = (.error (.io "failed to write whole buffer"), w) := by
  have nothing : device.write bytes w = (0, w) := by
    rw [write_eq, full, List.take_zero, List.append_nil]
    rfl
  rw [Device.writeAll, if_neg nonempty, nothing, if_pos rfl]

/-- Handing over the rest once more is in vain, for the writer takes all it can at once. -/
theorem writeAll_device (w : Writer) (bytes : List UInt8) :
    w.writeAll bytes = device.writeAll bytes w := by
  have once : w.writeAll bytes = (if (bytes.take w.left).length = bytes.length then .ok ()
      else .error (.io "failed to write whole buffer"),
      { w with written := w.written ++ bytes.take w.left }) := rfl
  by_cases nothing : bytes = []
  · rw [once, nothing, Device.writeAll, if_pos rfl, List.take_nil, List.append_nil, if_pos rfl]
  by_cases full : w.left = 0
  · have short : ¬ (bytes.take w.left).length = bytes.length := by
      rw [full, List.take_zero, List.length_nil]
      exact fun same => nothing (List.length_eq_zero_iff.mp same.symm)
    rw [once, writeAll_full full nothing, if_neg short, full, List.take_zero, List.append_nil]
  have some_taken : ¬ (bytes.take w.left).length = 0 := by
    rw [List.length_take]
    have some_bytes := List.length_pos_iff.mpr nothing
    omega
  rw [once, Device.writeAll, if_neg nothing, write_eq, if_neg some_taken]
  by_cases fits : bytes.length ≤ w.left
  · rw [List.take_of_length_le fits, List.drop_length, if_pos rfl, Device.writeAll, if_pos rfl]
  · have taken : (bytes.take w.left).length = w.left := by
      rw [List.length_take]
      omega
    have rest : bytes.drop w.left ≠ [] := by
      rw [ne_eq, List.drop_eq_nil_iff]
      exact fits
    have spent : left { w with written := w.written ++ bytes.take w.left } = 0 := by
      change w.room - (w.written ++ bytes.take w.left).length = 0
      rw [List.length_append, taken, Nat.sub_add_eq]
      exact Nat.sub_self _
    rw [taken, writeAll_full spent rest, if_neg (by omega)]

theorem writePieces_device (w : Writer) (pieces : List String) :
    w.writePieces pieces = device.writePieces pieces w := by
  induction pieces generalizing w with
  | nil => rfl
  | cons piece rest ih =>
    rw [writePieces, Device.writePieces, writeAll_device]
    obtain ⟨answer, after⟩ := device.writeAll (Utf8.bytes piece) w
    cases answer with
    | ok => exact ih after
    | error => rfl

end Writer

/-- How it ends when a text is written to an empty device that has room for `n` bytes. -/
structure Cut (text : String) (n : Nat) (answer : Except Fault Unit) (taken : List UInt8) :
    Prop where
  first : taken = (Utf8.bytes text).take n
  count : taken.length = min n (Utf8.bytes text).length
  ok_iff : answer = .ok () ↔ (Utf8.bytes text).length ≤ n
  refused : n < (Utf8.bytes text).length →
    answer = .error (.io "failed to write whole buffer")
  readable : (Utf8.bytes text).length ≤ n → Utf8.decode taken = some text.toList

theorem cut_of_fills {σ : Type} {held : σ → List UInt8} {room : σ → Nat} {s : σ} {text : String}
    {result : Except Fault Unit × σ} (empty : held s = [])
    (fills : Device.Fills held room s (Utf8.bytes text) result) :
    Cut text (room s) result.1 (held result.2) where
  first := by rw [fills.holds, empty, List.nil_append]
  count := by rw [fills.holds, empty, List.nil_append, List.length_take]
  ok_iff := fills.ok_iff
  refused tight := by rw [fills.answer, if_neg (Nat.not_le_of_lt tight)]
  readable fits := by
    rw [fills.holds, empty, List.nil_append, List.take_of_length_le fits, Utf8.bytes,
      Utf8.decode_encode]

/-- A dump that does not fit is cut off at exactly the byte where the room ends, be it in the middle
of a piece or of a character, and only then it is said to have failed. This holds of every device
with that much room, however little it takes at a time, and for all pieces in which the text may be
written, those of a nested formatter included; and on no device at all is anything handed over behind
the piece that failed. -/
theorem dump_cut_off (r : Registry) (n : Nat) :
    Cut r.dump n (r.dumpTo { room := n }).1 (r.dumpTo { room := n }).2.written ∧
      (∀ {σ : Type} {d : Device σ} {held : σ → List UInt8} {room : σ → Nat},
        d.Limited held room → ∀ s, held s = [] → room s = n →
          ∀ pieces, String.join pieces = r.dump →
            Cut r.dump n (d.writePieces pieces s).1 (held (d.writePieces pieces s).2)) ∧
      ∀ {σ : Type} (d : Device σ) (s t u : σ) (before after : List String) (piece : String)
        (fault : Fault), d.writePieces before s = (.ok (), t) →
          d.writeAll (Utf8.bytes piece) t = (.error fault, u) →
            d.writePieces (before ++ piece :: after) s = (.error fault, u) := by
  have cut {σ : Type} {d : Device σ} {held : σ → List UInt8} {room : σ → Nat}
      (limited : d.Limited held room) (s : σ) (empty : held s = []) (pieces : List String)
      (whole : String.join pieces = r.dump) :
      Cut r.dump (room s) (d.writePieces pieces s).1 (held (d.writePieces pieces s).2) := by
    have fills := Device.writePieces_fills limited pieces s
    rw [whole] at fills
    exact cut_of_fills empty fills
  refine ⟨?_, ?_, ?_⟩
  · rw [Registry.dumpTo, Writer.writePieces_device]
    exact cut Writer.limited { room := n } rfl r.dumpPieces rfl
  · rintro σ d held room limited s empty rfl pieces whole
    exact cut limited s empty pieces whole
  · intro σ d s t u before after piece fault written failed
    exact Device.writePieces_of_error written failed after

/-- The device takes three bytes at a time, the pieces are those of a nested formatter, and the room
ends within a character. -/
theorem dump_cut_off_within_character :
    let r : Registry :=
      { current := some {
          owner := ⟨1⟩, peer := ⟨0, "é"⟩, link := 7, generation := 1, callback := ⟨0, "sink"⟩
          names := .ofList ["\"b\"", "\"a\""], frequencies := .ofList [⟨2412⟩] } }
    let slow : Device (List UInt8 × Nat) :=
      { write := fun bytes (held, room) =>
          let count := min (min 3 room) bytes.length
          (count, held ++ bytes.take count, room - count) }
    let pieces := ["Dump of SubscriptionRegistry\n", "SubscriptionRegistry - Log Begin ----\n",
      "Current external scan subscription:\n", "owner=", "1", ", peer=", "é", ", callback=", "sink",
      ", target_names=[", "\"a\", \"b\"", "], frequencies=[", "2412", "]", "\n",
      "delivery_cycles: ", "0", "\n", "SubscriptionRegistry - Log End ----\n"]
    let written := slow.writePieces pieces ([], 118)
    slow.Limited Prod.fst Prod.snd ∧ String.join pieces = r.dump ∧
      Cut r.dump 118 (r.dumpTo { room := 118 }).1 (r.dumpTo { room := 118 }).2.written ∧
      Cut r.dump 118 written.1 written.2.1 ∧
      written.1 = .error (.io "failed to write whole buffer") ∧
      written.2.1.getLast? = some 0xC3 ∧
      Writer.device.writePieces (["ab"] ++ "cd" :: ["e"]) { room := 3 } =
        (.error (.io "failed to write whole buffer"),
          { room := 3, written := [0x61, 0x62, 0x63] }) := by
  intro r slow pieces written
  have limited : slow.Limited Prod.fst Prod.snd := by
    refine ⟨fun _ _ => rfl, ?_, ?_, fun _ _ => rfl, ?_⟩
    · exact fun bytes _ => Nat.min_le_right _ _
    · exact fun bytes _ => Nat.le_trans (Nat.min_le_left _ _) (Nat.min_le_right _ _)
    · intro bytes s nonempty some_room
      have some_bytes := List.length_pos_iff.mpr nonempty
      change 0 < min (min 3 s.2) bytes.length
      omega
  have whole : String.join pieces = r.dump := by decide +kernel
  obtain ⟨front, back, parted, ahead⟩ : ∃ front back, String.join pieces = front ++ ("é" ++ back) ∧
      (Utf8.bytes front).length = 117 :=
    ⟨String.join (pieces.take 6), String.join (pieces.drop 7), by decide +kernel,
      by decide +kernel⟩
  have bytes : Utf8.bytes r.dump = Utf8.bytes front ++ (0xC3 :: 0xA9 :: Utf8.bytes back) := by
    rw [← whole, parted, Utf8.bytes_append, Utf8.bytes_append]
    rfl
  obtain ⟨device, any, behind⟩ := dump_cut_off r 118
  have cut : Cut r.dump 118 written.1 written.2.1 :=
    any limited ([], 118) rfl rfl pieces whole
  refine ⟨limited, whole, device, cut, cut.refused ?_, ?_, ?_⟩
  · rw [bytes, List.length_append, ahead, List.length_cons, List.length_cons]
    omega
  · rw [cut.first, bytes, List.take_append, ahead, List.getLast?_append]
    rfl
  · refine behind Writer.device _ { room := 3, written := [0x61, 0x62] } _ ["ab"] ["e"] "cd" _ ?_ ?_
    · rw [← Writer.writePieces_device]
      rfl
    · rw [← Writer.writeAll_device]
      rfl

end ScanSlot
