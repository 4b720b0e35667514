import ScanSlot.Proofs.Station.Cycles
import ScanSlot.Proofs.Wire.RoundTrip

/-! Whatever is asked of a registry, the answers are about one and the same subscription. A snapshot,
or that there is none, decides all of them and the dump with them, and the JSON text of a snapshot
decides the snapshot. The count of batches is kept beside the slot, so this needs that nothing is
counted on an empty one. -/
namespace ScanSlot

def unlines (lines : List String) : String :=
  String.join (lines.map (· ++ "\n"))

theorem join_flatMap_line (lines : List String) :
    String.join (lines.flatMap fun line => [line, "\n"]) = unlines lines := by
  induction lines with
  | nil => rfl
  | cons line rest ih =>
    rw [List.flatMap_cons, String.join_append, ih, unlines, unlines, List.map_cons,
      String.join_cons, String.join_cons, String.join_cons, String.join_nil, String.append_empty]

namespace Snapshot

/-- The dump as it follows from a snapshot alone, or from there being none. -/
def rendering : Option Snapshot → String
  | none => unlines [
      "Dump of SubscriptionRegistry",
      "SubscriptionRegistry - Log Begin ----",
      "No external scan subscription set.",
      "delivery_cycles: 0",
      "SubscriptionRegistry - Log End ----"]
  | some s => unlines [
      "Dump of SubscriptionRegistry",
      "SubscriptionRegistry - Log Begin ----",
      "Current external scan subscription:",
      "owner=" ++ toString s.owner.id.toNat ++ ", peer=" ++ s.peer ++ ", callback=" ++ s.callback ++
        ", target_names=" ++ ("[" ++ String.intercalate ", " s.names ++ "]") ++
        ", frequencies=" ++
          ("[" ++ String.intercalate ", " (s.frequencies.map fun f => toString f.mhz.toInt) ++ "]"),
      "delivery_cycles: " ++ toString s.cycles.toNat,
      "SubscriptionRegistry - Log End ----"]

end Snapshot

/-- What a registry answers to everybody who asks. -/
structure Answers where
  occupied : Bool
  holder : Option Owner
  names : SortedSet String
  frequencies : SortedSet Frequency
  cycles : UInt64
  dump : String

namespace Answers

/-- The answers that go with a snapshot, or with there being none. -/
def expected : Option Snapshot → Answers
  | none => ⟨false, none, .empty, .empty, 0, Snapshot.rendering none⟩
  | some s => ⟨true, some s.owner, .ofList s.names, .ofList s.frequencies, s.cycles,
      Snapshot.rendering (some s)⟩

end Answers

namespace Registry

def answers (r : Registry) : Answers where
  occupied := r.isOccupied
  holder := r.holder
  names := r.names
  frequencies := r.frequencies
  cycles := r.cycles
  dump := r.dump

/-- The text of the snapshot, if there is one. -/
def json (r : Registry) : Option String :=
  r.snapshot.map Wire.writePretty

variable {r t : Registry}

theorem dump_eq_rendering (cleared : r.Cleared) : r.dump = Snapshot.rendering r.snapshot := by
  rw [dump, dumpPieces, join_flatMap_line, dumpLines, snapshot]
  cases occupied : r.current with
  | none =>
    rw [cleared occupied]
    rfl
  | some active => rfl

theorem answers_eq_expected (cleared : r.Cleared) : r.answers = .expected r.snapshot := by
  rw [answers, dump_eq_rendering cleared, isOccupied, holder, names, frequencies, snapshot]
  cases occupied : r.current with
  | none =>
    rw [cleared occupied]
    rfl
  | some active =>
    simp only [Option.isSome_some, Option.map_some, Option.getD_some, Answers.expected,
      Subscription.snapshot, SortedSet.ofList_toList]

theorem read_json (r : Registry) : r.json.mapM Wire.read = .ok r.snapshot := by
  rw [json]
  cases r.snapshot with
  | none => rfl
  | some s =>
    rw [Option.map_some, Option.mapM_some, Faithful.read_writePretty]
    rfl

theorem snapshot_eq_of_json (same : r.json = t.json) : r.snapshot = t.snapshot := by
  have read := r.read_json
  rw [same, t.read_json] at read
  exact (Except.ok.inj read).symm

theorem answers_eq_of_json (cleared : r.Cleared) (cleared' : t.Cleared) (same : r.json = t.json) :
    r.answers = t.answers := by
  rw [answers_eq_expected cleared, answers_eq_expected cleared', snapshot_eq_of_json same]

/-- The answers of a registry, its snapshot and the text of the snapshot agree. -/
structure Agreeing (r : Registry) : Prop where
  answers : r.answers = .expected r.snapshot
  names : r.names.toList = (r.snapshot.map (·.names)).getD []
  frequencies : r.frequencies.toList = (r.snapshot.map (·.frequencies)).getD []
  ascending : ∀ s, r.snapshot = some s →
    s.names.Pairwise Ordered.Before ∧ s.frequencies.Pairwise Ordered.Before
  decoded : r.json.mapM Wire.read = .ok r.snapshot

theorem agreeing (cleared : r.Cleared) : r.Agreeing where
  answers := answers_eq_expected cleared
  names := by
    rw [Registry.names, snapshot]
    cases r.current <;> rfl
  frequencies := by
    rw [Registry.frequencies, snapshot]
    cases r.current <;> rfl
  ascending s shown := by
    obtain ⟨active, _, rfl⟩ := Option.map_eq_some_iff.mp shown
    exact ⟨active.names.ascending, active.frequencies.ascending⟩
  decoded := r.read_json

end Registry

namespace Station

/-- In every state that is reached, whatever was answered on the way: all answers follow from the
snapshot or from its absence, and so does the dump; the number of batches is also that of a count of
one's own kept beside the slot, which an admission does not clear; and the text of the snapshot tells
all of it, so registries with the same text cannot be told apart by asking. -/
theorem views_agree {turns : List Turn} {s : Station} (runs : Runs {} turns s) :
    s.registry.Agreeing ∧ s.registry.answers.cycles = turns.foldl Turn.meter 0 ∧
      ∀ {others : List Turn} {t : Station}, Runs {} others t →
        s.registry.json = t.registry.json → s.registry.answers = t.registry.answers := by
  have cleared := cleared_of_runs runs
  refine ⟨Registry.agreeing cleared, (meter_runs runs fun _ => rfl).symm, ?_⟩
  intro others t reached same
  exact Registry.answers_eq_of_json cleared (cleared_of_runs reached) same

/-- A subscription that has seen one batch in vain, in the place of an earlier one that had seen one
too; and the earlier one, which had another link and another generation and looked the same. -/
theorem views_agree_waiting :
    let q : Request :=
      { owner := ⟨1⟩, peer := ⟨0, "peer"⟩, callback := ⟨0, "sink"⟩
        names := .ofList ["c328", "\"é\"", "\"b\""], frequencies := .ofList [⟨5180⟩, ⟨-1⟩]
        names_ne := SortedSet.toList_ofList_ne_nil (List.cons_ne_nil _ _) }
    ∃ turns s others t, Runs {} turns s ∧
      turns.map Turn.operation =
        [.subscribe q, .deliver [], .unsubscribe ⟨1⟩, .subscribe q, .deliver []] ∧
      s.registry.Agreeing ∧ turns.foldl Turn.meter 0 = 1 ∧
      s.registry.answers.occupied = true ∧ s.registry.answers.cycles = 1 ∧
      s.registry.dump = "Dump of SubscriptionRegistry\nSubscriptionRegistry - Log Begin ----\n" ++
        "Current external scan subscription:\nowner=1, peer=peer, callback=sink, " ++
        "target_names=[\"b\", \"é\", c328], frequencies=[-1, 5180]\ndelivery_cycles: 1\n" ++
        "SubscriptionRegistry - Log End ----\n" ∧
      Runs {} others t ∧ others = turns.take 2 ∧ s.registry ≠ t.registry ∧
      s.registry.json = t.registry.json ∧ s.registry.answers = t.registry.answers := by
  intro q
  have enters : Takes {} _ ⟨⟨some (q.admitted 7 1), 0, 2⟩, [], true⟩ :=
    .of_course (.subscribe q) (.subscribe (.admitted 7 rfl)) rfl []
  have waits : Takes ⟨⟨some (q.admitted 7 1), 0, 2⟩, [], true⟩ _
      ⟨⟨some (q.admitted 7 1), 1, 2⟩, [], true⟩ :=
    .of_course (.deliver []) (.deliver (.unmatched rfl rfl)) rfl []
  have leaves : Takes ⟨⟨some (q.admitted 7 1), 1, 2⟩, [], true⟩ _ ⟨⟨none, 0, 2⟩, [], true⟩ :=
    .of_course (.unsubscribe ⟨1⟩) (.unsubscribe (.removed (.ok ()) (.ok ()) rfl rfl)) rfl []
  have returns : Takes ⟨⟨none, 0, 2⟩, [], true⟩ _ ⟨⟨some (q.admitted 8 2), 0, 3⟩, [], true⟩ :=
    .of_course (.subscribe q) (.subscribe (.admitted 8 rfl)) rfl []
  have again : Takes ⟨⟨some (q.admitted 8 2), 0, 3⟩, [], true⟩ _
      ⟨⟨some (q.admitted 8 2), 1, 3⟩, [], true⟩ :=
    .of_course (.deliver []) (.deliver (.unmatched rfl rfl)) rfl []
  have runs := Runs.cons enters (.cons waits (.cons leaves (.cons returns (.cons again (.nil _)))))
  have earlier := Runs.cons enters (.cons waits (.nil _))
  obtain ⟨agreeing, counted, alike⟩ := views_agree runs
  have apart : (⟨some (q.admitted 8 2), 1, 3⟩ : Registry) ≠ ⟨some (q.admitted 7 1), 1, 2⟩ := by
    intro same
    simp at same
  exact ⟨_, _, _, _, runs, rfl, agreeing, counted.symm.trans rfl, rfl, rfl, by decide +kernel,
    earlier, rfl, apart, rfl, alike earlier rfl⟩

end Station
end ScanSlot
