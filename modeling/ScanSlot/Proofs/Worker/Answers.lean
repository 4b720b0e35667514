import ScanSlot.Proofs.Worker.Ledger

/-! What the callers of a service hear. A call hears once of its own command, and what it hears is
decided by where its message ends up. -/
namespace ScanSlot

open Dialogue (Path path_bind path_bind_pure)

namespace Service
variable {σ : Type}

theorem heardIn_append (answers more : List (Nat × Except Fault Reply)) (ticket : Nat) :
    heardIn (answers ++ more) ticket = heardIn answers ticket ++ heardIn more ticket :=
  List.filterMap_append

theorem heardIn_answersTo_of_absent (answer : Message → Option (Except Fault Reply))
    {entries : List (Message × Nat)} {ticket : Nat} (absent : ticket ∉ entries.map Prod.snd) :
    heardIn (answersTo answer entries) ticket = [] := by
  induction entries with
  | nil => rfl
  | cons entry rest ih =>
    obtain ⟨m, other⟩ := entry
    simp only [List.map_cons, List.mem_cons, not_or] at absent
    have nothing := ih absent.2
    unfold answersTo at nothing ⊢
    rw [List.filterMap_cons]
    cases answer m with
    | none => exact nothing
    | some told => simpa [heardIn, Ne.symm absent.1] using nothing

theorem heardIn_answersTo (answer : Message → Option (Except Fault Reply))
    {entries : List (Message × Nat)} (distinct : (entries.map Prod.snd).Nodup) {m : Message}
    {ticket : Nat} (member : (m, ticket) ∈ entries) :
    heardIn (answersTo answer entries) ticket = (answer m).toList := by
  obtain ⟨before, after, rfl⟩ := List.append_of_mem member
  have split : answersTo answer (before ++ (m, ticket) :: after) =
      answersTo answer before ++ (answersTo answer [(m, ticket)] ++ answersTo answer after) := by
    simp only [answersTo, ← List.filterMap_append, List.cons_append, List.nil_append]
  simp only [List.map_append, List.map_cons, List.nodup_append, List.nodup_cons,
    List.mem_cons] at distinct
  obtain ⟨_, ⟨later, _⟩, apart⟩ := distinct
  have earlier : ticket ∉ before.map Prod.snd := fun found => apart ticket found ticket (.inl rfl) rfl
  rw [split, heardIn_append, heardIn_append, heardIn_answersTo_of_absent answer earlier,
    heardIn_answersTo_of_absent answer later, List.append_nil, List.nil_append]
  cases told : answer m <;> simp [answersTo, heardIn, told]

/-- Where a message is, and what its caller has heard by then. -/
inductive Place (t : Service σ) : Message → Nat → List (Except Fault Reply) → Prop where
  | handled {deed : Deed} {generations : List Nat} {ticket : Nat} {command : Command}
      (done : deed ∈ t.journal) (job : deed.job = .command generations ticket command) :
      Place t (.command command) ticket [.ok deed.reply]
  | queued {m : Message} {ticket : Nat} (member : (m, ticket) ∈ t.queue) :
      Place t m ticket m.receipt.toList
  | discarded {command : Command} {ticket : Nat}
      (member : (.command command, ticket) ∈ t.discarded) :
      Place t (.command command) ticket
        ((Message.command command).receipt.toList ++ (Message.command command).verdict.toList)
  | refused {command : Command} {ticket : Nat} (member : (.command command, ticket) ∈ t.refused) :
      Place t (.command command) ticket [.error .serviceStopped]

theorem Place.called {t : Service σ} {m : Message} {ticket : Nat}
    {told : List (Except Fault Reply)} (place : t.Place m ticket told) :
    (m, ticket) ∈ t.taken ++ t.untaken := by
  simp only [untaken, List.mem_append]
  cases place with
  | handled done job => exact .inl (entry_mem_taken done (by rw [job]; rfl))
  | queued member => exact .inr (.inl member)
  | discarded member => exact .inr (.inr (.inl member))
  | refused member => exact .inr (.inr (.inr member))

/-- All callers have heard what belongs to the places of their messages, a caller of a shutdown
hears of it when the worker is gone, and nothing is heard before a call. -/
structure Tells (t : Service σ) : Prop where
  placed : ∀ {m : Message} {ticket : Nat} {told : List (Except Fault Reply)},
    t.Place m ticket told → t.heard ticket = told
  shutdown : ∀ {ticket : Nat}, t.calls[ticket]? = some .shutdown →
    t.heard ticket = [] ∨ t.phase = .gone ∧ t.heard ticket = [.ok .done]
  coming : ∀ {ticket : Nat}, t.calls.length ≤ ticket → t.heard ticket = []

theorem tells_start (r : Registry) (site : Site σ) : Tells (start r site) where
  placed place := by cases place <;> contradiction
  shutdown asked := by simp [start] at asked
  coming _ := rfl

/-- Results are taken without a reply, and everything else is replied to when it is done. -/
theorem told_of_command {command : Command} {generations : List Nat} {ticket : Nat}
    {r r' : Registry} {xs : List Exchange} {reply : Reply}
    (path : Path ((Job.command generations ticket command).program r) xs (reply, r')) :
    (Message.command command).receipt.toList ++
      ((Message.command command).returned reply).toList = [.ok reply] := by
  cases command with
  | deliver batch =>
    obtain ⟨_, _, _, _, _, path⟩ := path_bind.mp path
    obtain ⟨_, _, same⟩ := path_bind_pure.mp path
    obtain ⟨rfl, _⟩ := Prod.mk.inj same
    rfl
  | subscribe | unsubscribe | dump | snapshot | names | frequencies => rfl

section Answering
variable {t t' : Service σ} {answer : Message → Option (Except Fault Reply)}
  {entries : List (Message × Nat)} (added : t'.answers = t.answers ++ answersTo answer entries)
include added

theorem heard_elsewhere {ticket : Nat} (absent : ticket ∉ entries.map Prod.snd) :
    t'.heard ticket = t.heard ticket := by
  rw [heard, added, heardIn_append, heardIn_answersTo_of_absent answer absent, List.append_nil]
  rfl

theorem heard_here (distinct : (entries.map Prod.snd).Nodup) {m : Message} {ticket : Nat}
    (member : (m, ticket) ∈ entries) :
    t'.heard ticket = t.heard ticket ++ (answer m).toList := by
  rw [heard, added, heardIn_append, heardIn_answersTo answer distinct member]
  rfl

end Answering

section OneAnswer
variable {t t' : Service σ} {answer : Message → Option (Except Fault Reply)} {m : Message}
  {ticket : Nat} (added : t'.answers = t.answers ++ answersTo answer [(m, ticket)])
include added

theorem heard_others {other : Nat} (apart : other ≠ ticket) : t'.heard other = t.heard other :=
  heard_elsewhere added (by simpa using apart)

theorem heard_own : t'.heard ticket = t.heard ticket ++ (answer m).toList :=
  heard_here added (List.nodup_singleton _) (List.mem_singleton_self _)

end OneAnswer

/-- Nobody hears anything, and no command is handled. -/
theorem tells_quiet {t t' : Service σ} (tells : Tells t) (calls : t'.calls = t.calls)
    (answers : t'.answers = t.answers) (phase : t.phase = .gone → t'.phase = .gone)
    (journal : ∀ deed ∈ t'.journal, deed ∈ t.journal ∨
      ∀ generations ticket command, deed.job ≠ .command generations ticket command)
    (queue : t'.queue ⊆ t.queue) (discarded : t'.discarded = t.discarded)
    (refused : t'.refused = t.refused) : Tells t' := by
  have same (ticket : Nat) : t'.heard ticket = t.heard ticket := by rw [heard, answers, heard]
  refine ⟨fun {m ticket told} place => ?_, fun {ticket} asked => ?_, fun {ticket} beyond => ?_⟩
  · rw [same]
    cases place with
    | handled done job =>
      obtain earlier | other := journal _ done
      · exact tells.placed (.handled earlier job)
      · exact absurd job (other _ _ _)
    | queued member => exact tells.placed (.queued (queue member))
    | discarded member => exact tells.placed (.discarded (discarded ▸ member))
    | refused member => exact tells.placed (.refused (refused ▸ member))
  · rw [same]
    exact (tells.shutdown (calls ▸ asked)).imp_right fun ⟨exited, told⟩ => ⟨phase exited, told⟩
  · rw [same]
    exact tells.coming (calls ▸ beyond)

/-- A call that arrives has a ticket of its own, so nobody else hears anything. -/
theorem tells_arrival {t t' : Service σ} (ledger : Ledger t) (tells : Tells t) (m : Message)
    (answer : Message → Option (Except Fault Reply)) (silent : answer .shutdown = none)
    (calls : t'.calls = t.calls ++ [m]) (phase : t'.phase = t.phase)
    (added : t'.answers = t.answers ++ answersTo answer [(m, t.calls.length)])
    (places : ∀ {other : Message} {ticket : Nat} {told : List (Except Fault Reply)},
      t'.Place other ticket told → t.Place other ticket told ∨
        (other, ticket) = (m, t.calls.length) ∧ told = (answer m).toList) : Tells t' := by
  have here : t'.heard t.calls.length = (answer m).toList := by
    rw [heard_own added, tells.coming (Nat.le_refl _), List.nil_append]
  refine ⟨fun {other ticket told} place => ?_, fun {ticket} asked => ?_, fun {ticket} beyond => ?_⟩
  · obtain earlier | ⟨new, same⟩ := places place
    · have inside := (List.getElem?_eq_some_iff.mp (ledger.called earlier.called)).1
      rw [heard_others added (Nat.ne_of_lt inside), tells.placed earlier]
    · obtain ⟨rfl, rfl⟩ := Prod.mk.inj new
      rw [here, same]
  · rw [phase]
    by_cases other : ticket = t.calls.length
    · subst other
      rw [calls, List.getElem?_concat_length] at asked
      obtain rfl := Option.some.inj asked
      exact .inl (by rw [here, silent]; rfl)
    · rw [heard_others added other]
      refine tells.shutdown ?_
      have inside := (List.getElem?_eq_some_iff.mp asked).1
      rw [calls, List.length_append, List.length_singleton] at inside
      rwa [calls, List.getElem?_append_left (by omega)] at asked
  · rw [calls, List.length_append, List.length_singleton] at beyond
    rw [heard_others added (by omega)]
    exact tells.coming (by omega)

/-- A caller of a shutdown hears of it when there is nothing in the queue any more. -/
theorem tells_join {t : Service σ} {ticket : Nat} (ledger : Ledger t) (tells : Tells t)
    (asked : t.calls[ticket]? = some .shutdown) (waiting : t.heard ticket = [])
    (exited : t.phase = .gone) : Tells (t.join ticket) := by
  have added : (t.join ticket).answers =
      t.answers ++ answersTo (fun _ => some (.ok .done)) [(.shutdown, ticket)] := rfl
  have here : (t.join ticket).heard ticket = [.ok .done] := by
    rw [heard_own added, waiting]
    rfl
  refine ⟨fun {m other told} place => ?_, fun {other} again => ?_, fun {other} beyond => ?_⟩
  · -- only commands have a place when the queue is gone, and a shutdown is none
    have settled : t.Place m other told ∧ m ≠ .shutdown := by
      cases place with
      | handled done job => exact ⟨.handled done job, by simp⟩
      | queued member =>
        rw [join, ledger.emptied (by rw [isOpen, exited])] at member
        contradiction
      | discarded member => exact ⟨.discarded member, by simp⟩
      | refused member => exact ⟨.refused member, by simp⟩
    obtain ⟨place, command⟩ := settled
    rw [heard_others added, tells.placed place]
    rintro rfl
    have called := ledger.called place.called
    rw [asked] at called
    exact command (Option.some.inj called).symm
  · by_cases same : other = ticket
    · exact .inr ⟨exited, same ▸ here⟩
    · rw [heard_others added same]
      exact tells.shutdown again
  · have inside := (List.getElem?_eq_some_iff.mp asked).1
    rw [heard_others added (Nat.ne_of_gt (Nat.lt_of_lt_of_le inside beyond))]
    exact tells.coming beyond

theorem acts_tells {e : Environment σ} {t t' : Service σ} (acts : Acts e t t')
    (ledger : Ledger t) (tells : Tells t) : Tells t' := by
  cases acts with
  | accepted m present accepting =>
    refine tells_arrival ledger tells m Message.receipt rfl rfl rfl rfl
      fun {other ticket told} place => ?_
    cases place with
    | handled done job => exact .inl (.handled done job)
    | queued member =>
      rcases List.mem_append.mp member with earlier | new
      · exact .inl (.queued earlier)
      · obtain ⟨rfl, rfl⟩ := Prod.mk.inj (List.mem_singleton.mp new)
        exact .inr ⟨rfl, rfl⟩
    | discarded member => exact .inl (.discarded member)
    | refused member => exact .inl (.refused member)
  | refused m present closed =>
    refine tells_arrival ledger tells m Message.refusal rfl rfl rfl rfl
      fun {other ticket told} place => ?_
    cases place with
    | handled done job => exact .inl (.handled done job)
    | queued member => exact .inl (.queued member)
    | discarded member => exact .inl (.discarded member)
    | refused member =>
      rcases List.mem_append.mp member with earlier | new
      · exact .inl (.refused earlier)
      · obtain ⟨rfl, rfl⟩ := Prod.mk.inj (List.mem_singleton.mp new)
        exact .inr ⟨rfl, rfl⟩
  | joined ticket asked waiting exited => exact tells_join ledger tells asked waiting exited
  | deserted | posted | changed =>
    exact tells_quiet tells rfl rfl id (fun _ => .inl) (List.Subset.refl _) rfl rfl

theorem no_command_done {e : Environment σ} {job : Job} {inbox : List Nat} {t : Service σ}
    (other : ∀ generations ticket command, job ≠ .command generations ticket command)
    (deed : Deed) (done : deed ∈ t.journal ++ [t.deed e job inbox]) : deed ∈ t.journal ∨
      ∀ generations ticket command, deed.job ≠ .command generations ticket command := by
  rcases List.mem_append.mp done with earlier | last
  · exact .inl earlier
  · obtain rfl := List.mem_singleton.mp last
    exact .inr other

/-- A message that is handled is answered to its own caller. -/
theorem tells_handle {e : Environment σ} {t : Service σ} {command : Command} {ticket : Nat}
    {rest : List (Message × Nat)} (ledger : Ledger t) (tells : Tells t)
    (serving : t.phase = .serving) (next : t.queue = (.command command, ticket) :: rest) :
    Tells (t.handle e ticket command rest) := by
  obtain ⟨kept, heeded⟩ := ledger.kept (isOpen_of_serving serving)
  let deed := t.deed e (.command t.site.inbox ticket command) []
  have added : (t.handle e ticket command rest).answers = t.answers ++
      answersTo (Message.returned deed.reply) [(.command command, ticket)] := rfl
  have apart : ticket ∉ (t.taken ++ rest).map Prod.snd := by
    have distinct := ledger.distinct
    rw [untaken, next, kept, heeded, List.append_nil, List.append_nil, List.map_append,
      List.map_cons, List.nodup_middle, List.nodup_cons, ← List.map_append] at distinct
    exact distinct.1
  have queued : t.Place (.command command) ticket (Message.command command).receipt.toList :=
    .queued (by rw [next]; exact List.mem_cons_self)
  have called := ledger.called queued.called
  have here : (t.handle e ticket command rest).heard ticket = [.ok deed.reply] := by
    rw [heard_own added, tells.placed queued]
    exact told_of_command (deed_lawful e (.command t.site.inbox ticket command) [] t)
  have old {m : Message} {other : Nat} {told : List (Except Fault Reply)}
      (place : t.Place m other told) (among : (m, other) ∈ t.taken ++ rest) :
      (t.handle e ticket command rest).heard other = told := by
    rw [heard_others added, tells.placed place]
    rintro rfl
    exact apart (List.mem_map.mpr ⟨_, among, rfl⟩)
  refine ⟨fun {m other told} place => ?_, fun {other} asked => ?_, fun {other} beyond => ?_⟩
  · cases place with
    | @handled _ _ _ _ done job =>
      rcases List.mem_append.mp done with earlier | last
      · exact old (.handled earlier job)
          (List.mem_append_left _ (entry_mem_taken earlier (by rw [job]; rfl)))
      · obtain rfl := List.mem_singleton.mp last
        obtain ⟨_, rfl, rfl⟩ := Job.command.inj job
        exact here
    | queued member =>
      exact old (.queued (by rw [next]; exact List.mem_cons_of_mem _ member))
        (List.mem_append_right _ member)
    | discarded member =>
      rw [Service.handle, act, kept] at member
      contradiction
    | refused member =>
      rw [Service.handle, act, heeded] at member
      contradiction
  · have different : other ≠ ticket := by
      rintro rfl
      rw [show (t.handle e other command rest).calls = t.calls from rfl, called] at asked
      cases Option.some.inj asked
    rw [heard_others added different]
    exact .inl ((tells.shutdown asked).resolve_right fun told => by simp [serving] at told)
  · have inside := (List.getElem?_eq_some_iff.mp called).1
    rw [heard_others added (Nat.ne_of_gt (Nat.lt_of_lt_of_le inside beyond))]
    exact tells.coming beyond

/-- Those who wait for a message in the queue hear that the service has stopped. -/
theorem tells_discard {e : Environment σ} {t : Service σ} (ledger : Ledger t) (tells : Tells t)
    (leaving : t.phase = .leaving) : Tells (t.discard e) := by
  obtain ⟨kept, heeded⟩ := ledger.kept (by rw [isOpen, leaving])
  have added : (t.discard e).answers = t.answers ++ answersTo Message.verdict t.queue := rfl
  have distinct : (t.taken.map Prod.snd ++ t.queue.map Prod.snd).Nodup := by
    have distinct := ledger.distinct
    rwa [untaken, kept, heeded, List.append_nil, List.append_nil, List.map_append] at distinct
  obtain ⟨_, queue, disjoint⟩ := List.nodup_append.mp distinct
  have unheard (ticket : Nat) (called : t.calls[ticket]? = some .shutdown) :
      (t.discard e).heard ticket = t.heard ticket := by
    by_cases absent : ticket ∈ t.queue.map Prod.snd
    · obtain ⟨⟨m, _⟩, member, rfl⟩ := List.mem_map.mp absent
      have same := ledger.called (Place.queued member).called
      obtain rfl := Option.some.inj (same.symm.trans called)
      rw [heard_here added queue member]
      exact List.append_nil _
    · exact heard_elsewhere added absent
  refine ⟨fun {m ticket told} place => ?_, fun {ticket} asked => ?_, fun {ticket} beyond => ?_⟩
  · cases place with
    | @handled _ _ _ _ done job =>
      have earlier : t.Place _ ticket _ := .handled done job
      rw [← tells.placed earlier]
      refine heard_elsewhere added fun later => ?_
      have entry := List.mem_map_of_mem (f := Prod.snd) (entry_mem_taken done (by rw [job]; rfl))
      exact disjoint _ entry _ later rfl
    | queued member => contradiction
    | discarded member =>
      rw [heard_here added queue member, tells.placed (.queued member)]
    | refused member =>
      rw [Service.discard, heeded] at member
      contradiction
  · rw [unheard ticket asked]
    exact .inl ((tells.shutdown asked).resolve_right fun told => by simp [leaving] at told)
  · rw [heard_elsewhere added fun found => ?_]
    · exact tells.coming beyond
    · obtain ⟨⟨m, _⟩, member, rfl⟩ := List.mem_map.mp found
      have inside := (List.getElem?_eq_some_iff.mp (ledger.called (Place.queued member).called)).1
      exact absurd inside (Nat.not_lt.mpr beyond)

theorem works_tells {e : Environment σ} {t t' : Service σ} (works : Works e t t')
    (ledger : Ledger t) (tells : Tells t) : Tells t' := by
  cases works with
  | notice serving =>
    exact tells_quiet tells rfl rfl (fun gone => by simp [serving] at gone)
      (no_command_done (by simp)) (List.Subset.refl _) rfl rfl
  | stop serving next =>
    exact tells_quiet tells rfl rfl (fun gone => by simp [serving] at gone)
      (no_command_done (by simp)) (by rw [next]; exact List.subset_cons_self _ _) rfl rfl
  | abandon serving =>
    exact tells_quiet tells rfl rfl (fun gone => by simp [serving] at gone)
      (no_command_done (by simp)) (List.nil_subset _) rfl rfl
  | exit =>
    exact tells_quiet tells rfl rfl (fun _ => rfl) (no_command_done (by simp)) (List.Subset.refl _)
      rfl rfl
  | handle serving next => exact tells_handle ledger tells serving next
  | discard leaving => exact tells_discard ledger tells leaving

theorem verdict_of_discarded (command : Command) :
    (Message.command command).receipt.toList ++ (Message.command command).verdict.toList =
        [.error .serviceStopped] ∨
      (∃ batch, command = .deliver batch) ∧
        (Message.command command).receipt.toList ++ (Message.command command).verdict.toList =
          [.ok .done] := by
  cases command with
  | deliver batch => exact .inr ⟨⟨batch, rfl⟩, rfl⟩
  | subscribe | unsubscribe | dump | snapshot | names | frequencies => exact .inl rfl

theorem exists_deed {t : Service σ} {command : Command} {ticket : Nat}
    (taken : (.command command, ticket) ∈ t.taken) :
    ∃ deed ∈ t.journal, ∃ generations, deed.job = .command generations ticket command := by
  obtain ⟨deed, done, entry⟩ := List.mem_filterMap.mp taken
  refine ⟨deed, done, ?_⟩
  cases job : deed.job with
  | command generations other c =>
    rw [job] at entry
    obtain ⟨same, rfl⟩ := Prod.mk.inj (Option.some.inj entry)
    obtain rfl := Message.command.inj same
    exact ⟨generations, rfl⟩
  | notice | retire => simp [job, Job.entry?] at entry
  | stop _ other => cases other <;> simp [job, Job.entry?] at entry

/-- A command that has arrived is somewhere, and when the queue is gone its fate is settled. -/
theorem Ledger.place {t : Service σ} (ledger : Ledger t) {command : Command} {ticket : Nat}
    (called : t.calls[ticket]? = some (.command command)) :
    ∃ told, t.Place (.command command) ticket told ∧ told.length ≤ 1 ∧
      (t.isOpen = false → told.length = 1) := by
  have entry : (.command command, ticket) ∈ t.calls.zipIdx :=
    List.mem_zipIdx_iff_getElem?.mpr called
  simp only [ledger.custody, untaken, List.mem_append] at entry
  rcases entry with taken | queued | discarded | refused
  · obtain ⟨deed, done, _, job⟩ := exists_deed taken
    exact ⟨_, .handled done job, Nat.le_refl _, fun _ => rfl⟩
  · refine ⟨_, .queued queued, Option.length_toList_le, fun closed => ?_⟩
    rw [ledger.emptied closed] at queued
    contradiction
  · refine ⟨_, .discarded discarded, ?_⟩
    obtain told | ⟨_, told⟩ := verdict_of_discarded command
    all_goals
      rw [told]
      exact ⟨Nat.le_refl _, fun _ => rfl⟩
  · exact ⟨_, .refused refused, Nat.le_refl _, fun _ => rfl⟩

end Service
end ScanSlot
