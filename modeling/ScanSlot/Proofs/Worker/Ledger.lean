import ScanSlot.Proofs.Worker.Service
import Mathlib.Data.List.Nodup

/-! Where the messages of a service are. Each is taken by the worker, or still in the queue, or lost
with the queue, or came too late for it, and in this order they are the calls in the order of
arrival. So the worker handles exactly what came before the first shutdown, and nothing behind it. -/
namespace ScanSlot

/-- The commands that arrived before the first shutdown, with their tickets. -/
def ahead (calls : List Message) : List (Message × Nat) :=
  calls.zipIdx.takeWhile (·.1.isCommand)

/-- The first shutdown and everything that arrived later. -/
def behind (calls : List Message) : List (Message × Nat) :=
  calls.zipIdx.dropWhile (·.1.isCommand)

namespace Service
variable {σ : Type}

/-- The messages that the worker has not taken. -/
def untaken (t : Service σ) : List (Message × Nat) :=
  t.queue ++ (t.discarded ++ t.refused)

/-- Why the worker has stopped taking messages, if it has. -/
def Halts (t : Service σ) (stop : List (Message × Nat)) : Prop :=
  if t.phase = .serving then stop = []
  else (∃ ticket, stop = [(.shutdown, ticket)]) ∨
    stop = [] ∧ t.deserted = true ∧ t.untaken = []

/-- Every message is somewhere, and they stay in the order of arrival. -/
structure Ledger (t : Service σ) : Prop where
  custody : t.calls.zipIdx = t.taken ++ t.untaken
  halts : ∃ commands stop, t.taken = commands ++ stop ∧
    (∀ entry ∈ commands, entry.1.isCommand = true) ∧ t.Halts stop
  kept : t.isOpen = true → t.discarded = [] ∧ t.refused = []
  emptied : t.isOpen = false → t.queue = []
  dropped : t.dropped = (t.discarded ++ t.refused).filterMap (·.1.callback?)

theorem ledger_start (r : Registry) (site : Site σ) : Ledger (start r site) where
  custody := rfl
  halts := ⟨[], [], rfl, by simp, rfl⟩
  kept _ := ⟨rfl, rfl⟩
  emptied _ := rfl
  dropped := rfl

theorem isOpen_of_serving {t : Service σ} (serving : t.phase = .serving) : t.isOpen = true := by
  rw [isOpen, serving]

theorem zipIdx_snoc (calls : List Message) (m : Message) :
    (calls ++ [m]).zipIdx = calls.zipIdx ++ [(m, calls.length)] := by
  simp [List.zipIdx_append]

/-- While the worker serves it has taken nothing but commands. -/
theorem Ledger.commands {t : Service σ} (ledger : Ledger t) (serving : t.phase = .serving) :
    ∀ entry ∈ t.taken, entry.1.isCommand = true := by
  obtain ⟨commands, stop, taken, allCommands, halts⟩ := ledger.halts
  obtain rfl : stop = [] := by simpa [Halts, serving] using halts
  rwa [taken, List.append_nil]

theorem acts_ledger {e : Environment σ} {t t' : Service σ} (acts : Acts e t t')
    (ledger : Ledger t) : Ledger t' := by
  obtain ⟨commands, stop, taken, allCommands, halts⟩ := ledger.halts
  cases acts with
  | accepted m present accepting =>
    obtain ⟨kept, heeded⟩ := ledger.kept accepting
    refine ⟨?_, ⟨commands, stop, taken, allCommands, ?_⟩, ledger.kept, ?_, ledger.dropped⟩
    · have custody := ledger.custody
      simp only [untaken, kept, heeded, List.append_nil] at custody
      simp only [accept, untaken, zipIdx_snoc, custody, kept, heeded, List.append_nil,
        List.append_assoc]
      rfl
    · simpa [Halts, accept, present] using halts
    · intro closed
      exact absurd (accepting.symm.trans closed) (by decide)
  | refused m present closed =>
    refine ⟨?_, ⟨commands, stop, taken, allCommands, ?_⟩, ?_, ledger.emptied, ?_⟩
    · have custody := ledger.custody
      simp only [refuse, untaken, zipIdx_snoc] at custody ⊢
      rw [custody]
      simp only [List.append_assoc]
      rfl
    · simpa [Halts, refuse, present] using halts
    · intro accepting
      exact absurd (accepting.symm.trans closed) (by decide)
    · simp only [refuse, ledger.dropped, List.filterMap_append, List.append_assoc]
  | deserted =>
    refine ⟨ledger.custody, ⟨commands, stop, taken, allCommands, ?_⟩, ledger.kept,
      ledger.emptied, ledger.dropped⟩
    unfold Halts at halts ⊢
    split at halts
    · rwa [if_pos ‹_›]
    · rw [if_neg ‹_›]
      exact halts.imp_right fun ⟨bare, _, nothing⟩ => ⟨bare, rfl, nothing⟩
  | joined | posted | changed =>
    exact ⟨ledger.custody, ledger.halts, ledger.kept, ledger.emptied, ledger.dropped⟩

/-- A worker that serves takes messages from the front of the queue, commands first. -/
theorem Ledger.took {t t' : Service σ} (ledger : Ledger t) (serving : t.phase = .serving)
    (commands stop : List (Message × Nat)) (next : t.queue = commands ++ stop ++ t'.queue)
    (taken : t'.taken = t.taken ++ (commands ++ stop))
    (allCommands : ∀ entry ∈ commands, entry.1.isCommand = true) (halts : t'.Halts stop)
    (accepting : t'.isOpen = true) (calls : t'.calls = t.calls)
    (discarded : t'.discarded = t.discarded) (refused : t'.refused = t.refused)
    (dropped : t'.dropped = t.dropped) : Ledger t' where
  custody := by
    rw [calls, ledger.custody, taken, untaken, untaken, discarded, refused, next]
    simp only [List.append_assoc]
  halts := by
    refine ⟨t.taken ++ commands, stop, ?_, fun entry member => ?_, halts⟩
    · rw [taken, List.append_assoc]
    · exact (List.mem_append.mp member).elim (ledger.commands serving entry) (allCommands entry)
  kept _ := by
    rw [discarded, refused]
    exact ledger.kept (isOpen_of_serving serving)
  emptied closed := by
    rw [accepting] at closed
    contradiction
  dropped := by rw [dropped, discarded, refused, ledger.dropped]

theorem works_ledger {e : Environment σ} {t t' : Service σ} (works : Works e t t')
    (ledger : Ledger t) : Ledger t' := by
  cases works with
  | @notice generation rest serving posted =>
    have taken := taken_act e (.notice generation) rest .serving t
    exact ledger.took serving [] [] rfl taken (by simp) rfl rfl rfl rfl rfl rfl
  | @handle command ticket rest serving next =>
    have taken := taken_act e (.command t.site.inbox ticket command) [] .serving t
    exact ledger.took serving [(.command command, ticket)] [] next taken
      (by simp [Message.isCommand]) rfl rfl rfl rfl rfl rfl
  | @stop ticket rest serving next =>
    have taken := taken_act e (.stop t.site.inbox (some ticket)) [] .leaving t
    exact ledger.took serving [] [(.shutdown, ticket)] next taken (by simp) (.inl ⟨ticket, rfl⟩)
      rfl rfl rfl rfl rfl
  | abandon serving alone served =>
    obtain ⟨kept, heeded⟩ := ledger.kept (isOpen_of_serving serving)
    have taken := taken_act e (.stop t.site.inbox none) [] .leaving t
    have nothing : (t.stop e none []).untaken = [] := by
      simp [untaken, Service.stop, act, kept, heeded]
    exact ledger.took serving [] [] served taken (by simp) (.inr ⟨rfl, alone, nothing⟩)
      rfl rfl rfl rfl rfl
  | discard leaving =>
    obtain ⟨commands, stop, taken, allCommands, halts⟩ := ledger.halts
    obtain ⟨kept, heeded⟩ := ledger.kept (by rw [isOpen, leaving])
    have same : (t.discard e).untaken = t.untaken := by
      simp [untaken, Service.discard, kept, heeded]
    refine ⟨?_, ⟨commands, stop, taken, allCommands, ?_⟩, ?_, fun _ => rfl, ?_⟩
    · rw [same]
      exact ledger.custody
    · unfold Halts at halts ⊢
      rw [same]
      simpa [Service.discard, leaving] using halts
    · intro accepting
      contradiction
    · simp [Service.discard, ledger.dropped, kept, heeded]
  | exit closing =>
    obtain ⟨commands, stop, taken, allCommands, halts⟩ := ledger.halts
    have same : (t.exit e).taken = t.taken :=
      (taken_act e .retire t.site.inbox .gone t).trans (List.append_nil _)
    refine ⟨?_, ⟨commands, stop, same.trans taken, allCommands, ?_⟩, ?_,
      fun _ => ledger.emptied (by rw [isOpen, closing]), ledger.dropped⟩
    · rw [same]
      exact ledger.custody
    · unfold Halts at halts ⊢
      simpa [closing, Service.exit, act, untaken] using halts
    · intro accepting
      contradiction

/-! ### What is done and what is not -/

theorem Ledger.handled_eq {t : Service σ} {commands stop : List (Message × Nat)}
    (taken : t.taken = commands ++ stop)
    (allCommands : ∀ entry ∈ commands, entry.1.isCommand = true) (halts : t.Halts stop) :
    t.handled = commands := by
  have kept : commands.filter (·.1.isCommand) = commands := List.filter_eq_self.mpr allCommands
  unfold Halts at halts
  split at halts
  · rw [handled, taken, halts, List.append_nil, kept]
  · obtain ⟨ticket, rfl⟩ | ⟨rfl, _⟩ := halts
    · rw [handled, taken, List.filter_append, kept]
      exact List.append_nil _
    · rw [handled, taken, List.append_nil, kept]

theorem Ledger.handled_prefix {t : Service σ} (ledger : Ledger t) :
    t.handled <+: ahead t.calls := by
  obtain ⟨commands, stop, taken, allCommands, halts⟩ := ledger.halts
  rw [Ledger.handled_eq taken allCommands halts, ahead, ledger.custody, taken, List.append_assoc,
    List.takeWhile_append_of_pos allCommands]
  exact List.prefix_append _ _

/-- Behind the commands that were handled come the shutdown and the messages that were not taken,
or there is nothing there. -/
theorem Ledger.split {t : Service σ} (ledger : Ledger t) (left : t.phase ≠ .serving) :
    t.handled = ahead t.calls ∧
      ((∃ ticket, behind t.calls = (.shutdown, ticket) :: t.untaken) ∨
        behind t.calls = [] ∧ t.untaken = []) := by
  obtain ⟨commands, stop, taken, allCommands, halts⟩ := ledger.halts
  have handled := Ledger.handled_eq taken allCommands halts
  rw [handled, ahead, behind, ledger.custody, taken, List.append_assoc,
    List.takeWhile_append_of_pos allCommands, List.dropWhile_append_of_pos allCommands]
  simp only [Halts, if_neg left] at halts
  obtain ⟨ticket, rfl⟩ | ⟨rfl, _, nothing⟩ := halts
  · exact ⟨(List.append_nil _).symm, .inl ⟨ticket, rfl⟩⟩
  · rw [nothing]
    exact ⟨(List.append_nil _).symm, .inr ⟨rfl, rfl⟩⟩

theorem Ledger.dropped_behind {t : Service σ} (ledger : Ledger t) (closed : t.isOpen = false) :
    t.dropped = (behind t.calls).filterMap (·.1.callback?) := by
  have left : t.phase ≠ .serving := by
    intro serving
    rw [isOpen_of_serving serving] at closed
    contradiction
  have untaken : t.untaken = t.discarded ++ t.refused := by
    rw [Service.untaken, ledger.emptied closed, List.nil_append]
  rw [ledger.dropped, ← untaken]
  obtain ⟨ticket, later⟩ | ⟨later, nothing⟩ := (ledger.split left).2
  · rw [later]
    rfl
  · rw [later, nothing]

theorem Ledger.dropped_open {t : Service σ} (ledger : Ledger t) (accepting : t.isOpen = true) :
    t.dropped = [] := by
  obtain ⟨kept, heeded⟩ := ledger.kept accepting
  rw [ledger.dropped, kept, heeded]
  rfl

/-! ### Tickets -/

theorem Ledger.distinct {t : Service σ} (ledger : Ledger t) :
    ((t.taken ++ t.untaken).map Prod.snd).Nodup := by
  rw [← ledger.custody, List.zipIdx_map_snd]
  exact List.nodup_range'

theorem Ledger.called {t : Service σ} (ledger : Ledger t) {m : Message} {ticket : Nat}
    (member : (m, ticket) ∈ t.taken ++ t.untaken) : t.calls[ticket]? = some m := by
  rw [← ledger.custody] at member
  exact List.mem_zipIdx_iff_getElem?.mp member

theorem entry_mem_taken {t : Service σ} {deed : Deed} (done : deed ∈ t.journal)
    {entry : Message × Nat} (job : deed.job.entry? = some entry) : entry ∈ t.taken :=
  List.mem_filterMap.mpr ⟨deed, done, job⟩

theorem Ledger.not_handled {t : Service σ} (ledger : Ledger t) {entry : Message × Nat}
    (later : entry ∈ behind t.calls) : entry ∉ t.handled := by
  intro done
  have distinct : (ahead t.calls ++ behind t.calls).Nodup := by
    rw [ahead, behind, List.takeWhile_append_dropWhile, ledger.custody]
    exact ledger.distinct.of_map
  exact List.disjoint_of_nodup_append distinct (ledger.handled_prefix.subset done) later

/-- A shutdown that has not been taken is still in the queue. -/
theorem Ledger.works {t : Service σ} (ledger : Ledger t) (e : Environment σ)
    (bound : .shutdown ∈ t.calls ∨ t.deserted = true) (present : t.phase ≠ .gone) :
    ∃ t', Works e t t' := by
  obtain works | gone | ⟨serving, queue, present'⟩ := works_or_rests e t
  · exact works
  · exact absurd gone present
  · exfalso
    obtain ⟨kept, heeded⟩ := ledger.kept (isOpen_of_serving serving)
    obtain asked | alone := bound
    · obtain ⟨ticket, called⟩ := List.mem_iff_getElem?.mp asked
      have entry : (.shutdown, ticket) ∈ t.calls.zipIdx := List.mem_zipIdx_iff_getElem?.mpr called
      rw [ledger.custody, untaken, queue, kept, heeded] at entry
      exact Bool.false_ne_true (ledger.commands serving (.shutdown, ticket) (by simpa using entry))
    · rw [present'] at alone
      contradiction

end Service
end ScanSlot
