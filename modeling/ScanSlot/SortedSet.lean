import ScanSlot.Text.Utf8

/-! Finite sets kept as their ascending enumerations. Texts are ordered by their UTF-8 bytes.
Insertion adds one member, and two sets with the same members are equal. -/
namespace ScanSlot

/-- A decidable strict total order. -/
class Ordered (α : Type) where
  Before : α → α → Prop
  decidable : DecidableRel Before
  irrefl : ∀ a, ¬ Before a a
  trans : ∀ {a b c}, Before a b → Before b c → Before a c
  total : ∀ a b, Before a b ∨ a = b ∨ Before b a

instance (α : Type) [Ordered α] : DecidableRel (Ordered.Before (α := α)) :=
  Ordered.decidable

instance : Ordered String where
  Before s t := Utf8.bytes s < Utf8.bytes t
  decidable s t := inferInstanceAs (Decidable (Utf8.bytes s < Utf8.bytes t))
  irrefl s := List.lt_irrefl (Utf8.bytes s)
  trans := List.lt_trans
  total s t := by
    by_cases less : Utf8.bytes s < Utf8.bytes t
    · exact .inl less
    by_cases more : Utf8.bytes t < Utf8.bytes s
    · exact .inr (.inr more)
    · exact .inr (.inl (Utf8.bytes_injective
        (List.le_antisymm (List.not_lt.mp more) (List.not_lt.mp less))))

structure SortedSet (α : Type) [Ordered α] where
  toList : List α
  ascending : toList.Pairwise Ordered.Before

namespace SortedSet
variable {α : Type} [Ordered α]

instance : Membership α (SortedSet α) where
  mem s a := a ∈ s.toList

instance [DecidableEq α] (a : α) (s : SortedSet α) : Decidable (a ∈ s) :=
  inferInstanceAs (Decidable (a ∈ s.toList))

theorem mem_toList {a : α} {s : SortedSet α} : a ∈ s.toList ↔ a ∈ s :=
  Iff.rfl

def empty : SortedSet α :=
  ⟨[], .nil⟩

/-- Places a value in an ascending list, unless it is already there. -/
def place [DecidableEq α] (a : α) : List α → List α
  | [] => [a]
  | b :: bs =>
      if Ordered.Before a b then a :: b :: bs
      else if a = b then b :: bs
      else b :: place a bs

theorem mem_place [DecidableEq α] {a b : α} {bs : List α} :
    b ∈ place a bs ↔ b = a ∨ b ∈ bs := by
  induction bs with
  | nil => simp [place]
  | cons c cs ih =>
      simp only [place]
      split
      · simp
      split
      · rename_i same
        subst same
        simp
      · simp only [List.mem_cons, ih, or_left_comm]

theorem pairwise_place [DecidableEq α] {a : α} {bs : List α}
    (ascending : bs.Pairwise Ordered.Before) : (place a bs).Pairwise Ordered.Before := by
  induction bs with
  | nil => simp [place]
  | cons b bs ih =>
      obtain ⟨least, ascending'⟩ := List.pairwise_cons.mp ascending
      simp only [place]
      split
      · rename_i less
        refine List.pairwise_cons.mpr ⟨fun c member => ?_, ascending⟩
        rcases List.mem_cons.mp member with rfl | member
        · exact less
        · exact Ordered.trans less (least c member)
      split
      · exact ascending
      · rename_i notLess different
        refine List.pairwise_cons.mpr ⟨fun c member => ?_, ih ascending'⟩
        rcases mem_place.mp member with rfl | member
        · rcases Ordered.total c b with less | same | more
          · exact absurd less notLess
          · exact absurd same different
          · exact more
        · exact least c member

def insert [DecidableEq α] (a : α) (s : SortedSet α) : SortedSet α :=
  ⟨place a s.toList, pairwise_place s.ascending⟩

theorem mem_insert [DecidableEq α] {a b : α} {s : SortedSet α} :
    b ∈ s.insert a ↔ b = a ∨ b ∈ s :=
  mem_place

def ofList [DecidableEq α] (as : List α) : SortedSet α :=
  as.foldr insert empty

@[simp] theorem mem_ofList [DecidableEq α] {a : α} {as : List α} : a ∈ ofList as ↔ a ∈ as := by
  induction as with
  | nil => simp only [ofList, List.foldr_nil, ← mem_toList, empty]
  | cons b bs ih =>
      have same : a ∈ bs.foldr insert empty ↔ a ∈ bs := ih
      simp only [ofList, List.foldr_cons, mem_insert, same, List.mem_cons]

theorem toList_ofList_ne_nil [DecidableEq α] {as : List α} (ne : as ≠ []) :
    (ofList as).toList ≠ [] := by
  obtain ⟨a, member⟩ := List.exists_mem_of_ne_nil as ne
  exact List.ne_nil_of_mem (mem_toList.mpr (mem_ofList.mpr member))

theorem toList_eq_of_members {as bs : List α} (ascendingA : as.Pairwise Ordered.Before)
    (ascendingB : bs.Pairwise Ordered.Before) (same : ∀ a, a ∈ as ↔ a ∈ bs) : as = bs := by
  induction as generalizing bs with
  | nil =>
      exact (List.eq_nil_iff_forall_not_mem.mpr fun a member => by
        simpa using (same a).mpr member).symm
  | cons a as ih =>
      cases bs with
      | nil => simpa using (same a).mp List.mem_cons_self
      | cons b bs =>
          obtain ⟨leastA, restA⟩ := List.pairwise_cons.mp ascendingA
          obtain ⟨leastB, restB⟩ := List.pairwise_cons.mp ascendingB
          have heads : a = b := by
            rcases List.mem_cons.mp ((same a).mp List.mem_cons_self) with equal | inB
            · exact equal
            rcases List.mem_cons.mp ((same b).mpr List.mem_cons_self) with equal | inA
            · exact equal.symm
            · exact absurd (Ordered.trans (leastA b inA) (leastB a inB)) (Ordered.irrefl a)
          subst heads
          congr 1
          refine ih restA restB fun c => ⟨fun member => ?_, fun member => ?_⟩
          · rcases List.mem_cons.mp ((same c).mp (List.mem_cons_of_mem a member)) with rfl | found
            · exact absurd (leastA c member) (Ordered.irrefl c)
            · exact found
          · rcases List.mem_cons.mp ((same c).mpr (List.mem_cons_of_mem a member)) with rfl | found
            · exact absurd (leastB c member) (Ordered.irrefl c)
            · exact found

theorem ext_members {s t : SortedSet α} (same : ∀ a, a ∈ s ↔ a ∈ t) : s = t := by
  cases s
  cases t
  congr
  exact toList_eq_of_members ‹_› ‹_› same

theorem nodup_toList (s : SortedSet α) : s.toList.Nodup := by
  refine s.ascending.imp ?_
  rintro a _ less rfl
  exact Ordered.irrefl a less

theorem ofList_eq_ofList [DecidableEq α] {as bs : List α} :
    ofList as = ofList bs ↔ ∀ a, a ∈ as ↔ a ∈ bs := by
  constructor
  · intro same a
    rw [← mem_ofList, same, mem_ofList]
  · intro same
    exact ext_members fun a => by rw [mem_ofList, mem_ofList, same]

theorem ofList_toList [DecidableEq α] (s : SortedSet α) : ofList s.toList = s :=
  ext_members fun _ => mem_ofList

end SortedSet
end ScanSlot
