import ScanSlot.Peer.InProcess

/-! What linking and unlinking leave of a peer of the same process. -/
namespace ScanSlot.InProcessPeer
variable {Hook : Type} {p : InProcessPeer Hook}

@[simp] theorem alive_link (p : InProcessPeer Hook) (hook : Hook) :
    (p.link hook).2.alive = p.alive := by
  unfold link
  split <;> rfl

@[simp] theorem alive_unlink (p : InProcessPeer Hook) (l : Nat) :
    (p.unlink l).2.alive = p.alive := by
  unfold unlink
  split <;> rfl

@[simp] theorem nextLink_unlink (p : InProcessPeer Hook) (l : Nat) :
    (p.unlink l).2.nextLink = p.nextLink := by
  unfold unlink
  split <;> rfl

theorem hooks_unlink (p : InProcessPeer Hook) (l : Nat) :
    (p.unlink l).2.hooks = p.hooks.filter (·.1 != l) := by
  unfold unlink
  by_cases linked : p.hooks.any (·.1 == l) = true
  · rw [if_pos linked]
  · rw [if_neg linked]
    refine (List.filter_eq_self.mpr fun entry here => ?_).symm
    rw [List.any_eq_true, not_exists] at linked
    simpa using fun same => linked entry ⟨here, by simpa using same⟩

theorem hooks_link (alive : p.alive = true) (hook : Hook) :
    (p.link hook).2.hooks = p.hooks ++ [(p.nextLink, hook)] := by
  rw [link, if_pos alive]

theorem nextLink_link (alive : p.alive = true) (hook : Hook) :
    (p.link hook).2.nextLink = p.nextLink + 1 := by
  rw [link, if_pos alive]

/-- Of a hook that is taken away again there remains a link number that is used up. -/
theorem unlink_link (alive : p.alive = true)
    (below : ∀ entry ∈ p.hooks, entry.1 < p.nextLink) (hook : Hook) :
    ((p.link hook).2.unlink p.nextLink).2 = { p with nextLink := p.nextLink + 1 } := by
  have others : p.hooks.filter (·.1 != p.nextLink) = p.hooks := by
    apply List.filter_eq_self.mpr
    intro entry here
    simpa using Nat.ne_of_lt (below entry here)
  simp [link, unlink, alive, List.filter_append, others]

end ScanSlot.InProcessPeer
