import ScanSlot.Json.Value
import ScanSlot.Proofs.Json.Layout

/-! Documents whose numbers are integers of at most 64 bits and whose strings are texts, nested to a
bounded depth. They are sound, and all their tokens can be read back. -/
namespace ScanSlot.Json

theorem leading_of_lt {n : Nat} (short : n < 18446744073709551616) : leading n = (n, 0) := by
  rw [leading, if_pos short]

theorem round_lt {n : Nat} (short : n < 18446744073709551616) :
    Double.round n < 36893488147419103232 := by
  have positive : 0 < Nat.pow 2 (Nat.log2 n + 1 - 53) := Nat.pow_pos (by decide)
  have near : 2 * Double.round n ≤ 2 * n + Nat.pow 2 (Nat.log2 n + 1 - 53) :=
    (Double.nearestMultiple_near positive n).2
  have bits : Nat.log2 n < 64 := by
    rcases Nat.eq_zero_or_pos n with rfl | nonzero
    · decide
    · exact (Nat.log2_lt (Nat.ne_of_gt nonzero)).mpr short
  have step : Nat.pow 2 (Nat.log2 n + 1 - 53) ≤ Nat.pow 2 12 :=
    Nat.pow_le_pow_right (by decide) (by omega)
  simp only [Nat.pow_eq, Nat.reducePow] at near step
  omega

/-- No integer of 64 bits is too large for a double. -/
theorem isFinite_integer {n : Int} (short : n.natAbs < 18446744073709551616) :
    (Numeral.integer n).isFinite = true := by
  have one : Double.round 1 = 1 := Double.nearest_of_lt (by decide)
  have small := round_lt short
  have bounded : 36893488147419103232 < Double.overflow := by decide +kernel
  have finite : Double.round n.natAbs < Double.overflow := Nat.lt_trans small bounded
  simp [Numeral.isFinite, leading_of_lt short, Double.isFiniteScaled, one, finite]

namespace Value

/-- Tame to a depth. -/
inductive Tame : Nat → Value → Prop where
  | null {d : Nat} : Tame d .null
  | bool {d : Nat} (b : Bool) : Tame d (.bool b)
  | integer {d : Nat} {n : Int} (short : n.natAbs < 18446744073709551616) :
      Tame d (.number (.integer n))
  | text {d : Nat} (t : String) : Tame d (.text (some t))
  | array {d : Nat} {items : List Value} (tame : ∀ v ∈ items, Tame d v) :
      Tame (d + 1) (.array items)
  | object {d : Nat} {members : List (Option String × Value)}
      (named : ∀ m ∈ members, m.1.isSome = true) (tame : ∀ m ∈ members, Tame d m.2) :
      Tame (d + 1) (.object members)

theorem itemsDepth_le {d : Nat} {items : List Value} (all : ∀ v ∈ items, v.depth ≤ d) :
    itemsDepth items ≤ d := by
  induction items with
  | nil => exact Nat.zero_le d
  | cons v items ih =>
    rw [List.forall_mem_cons] at all
    exact Nat.max_le.mpr ⟨all.1, ih all.2⟩

theorem membersDepth_le {d : Nat} {members : List (Option String × Value)}
    (all : ∀ m ∈ members, m.2.depth ≤ d) : membersDepth members ≤ d := by
  induction members with
  | nil => exact Nat.zero_le d
  | cons m members ih =>
    rw [List.forall_mem_cons] at all
    exact Nat.max_le.mpr ⟨all.1, ih all.2⟩

theorem itemsSound_of_all {items : List Value} (all : ∀ v ∈ items, v.isSound = true) :
    itemsSound items = true := by
  induction items with
  | nil => rfl
  | cons v items ih =>
    rw [List.forall_mem_cons] at all
    rw [itemsSound, all.1, ih all.2]
    rfl

theorem membersSound_of_all {members : List (Option String × Value)}
    (named : ∀ m ∈ members, m.1.isSome = true) (all : ∀ m ∈ members, m.2.isSound = true) :
    membersSound members = true := by
  induction members with
  | nil => rfl
  | cons m members ih =>
    rw [List.forall_mem_cons] at named all
    rw [membersSound, named.1, all.1, ih named.2 all.2]
    rfl

theorem mem_itemTokens {t : Token} {items : List Value} (here : t ∈ itemTokens items) :
    t = .comma ∨ ∃ v ∈ items, t ∈ v.tokens := by
  match items with
  | [v] => exact .inr ⟨v, List.mem_cons_self, here⟩
  | v :: w :: items =>
    rw [itemTokens] at here
    · rcases List.mem_append.mp here with first | later
      · exact .inr ⟨v, List.mem_cons_self, first⟩
      · rcases List.mem_cons.mp later with comma | later
        · exact .inl comma
        · obtain comma | ⟨v, among, inside⟩ := mem_itemTokens later
          · exact .inl comma
          · exact .inr ⟨v, List.mem_cons_of_mem _ among, inside⟩
    · exact List.cons_ne_nil w items

theorem mem_memberTokens {t : Token} {members : List (Option String × Value)}
    (here : t ∈ memberTokens members) :
    t = .comma ∨ t = .colon ∨ ∃ m ∈ members, t = .text m.1 ∨ t ∈ m.2.tokens := by
  match members with
  | [m] =>
    rw [memberTokens, List.mem_cons, List.mem_cons] at here
    obtain own | colon | inside := here
    · exact .inr (.inr ⟨m, List.mem_cons_self, .inl own⟩)
    · exact .inr (.inl colon)
    · exact .inr (.inr ⟨m, List.mem_cons_self, .inr inside⟩)
  | m :: w :: members =>
    rw [memberTokens, List.cons_append, List.cons_append, List.mem_cons, List.mem_cons,
      List.mem_append, List.mem_cons] at here
    · obtain own | colon | inside | comma | later := here
      · exact .inr (.inr ⟨m, List.mem_cons_self, .inl own⟩)
      · exact .inr (.inl colon)
      · exact .inr (.inr ⟨m, List.mem_cons_self, .inr inside⟩)
      · exact .inl comma
      · obtain comma | colon | ⟨v, among, inside⟩ := mem_memberTokens later
        · exact .inl comma
        · exact .inr (.inl colon)
        · exact .inr (.inr ⟨v, List.mem_cons_of_mem _ among, inside⟩)
    · exact List.cons_ne_nil w members

namespace Tame
variable {d : Nat} {v : Value}

theorem depth_le (tame : v.Tame d) : v.depth ≤ d := by
  induction tame with
  | null | bool | integer | text => exact Nat.zero_le _
  | array _ ih => exact Nat.succ_le_succ (itemsDepth_le ih)
  | object _ _ ih => exact Nat.succ_le_succ (membersDepth_le ih)

theorem isSound (tame : v.Tame d) : v.isSound = true := by
  induction tame with
  | null | bool | text => rfl
  | integer short => exact isFinite_integer short
  | array _ ih => exact itemsSound_of_all ih
  | object named _ ih => exact membersSound_of_all named ih

theorem isPlain (tame : v.Tame d) : ∀ t ∈ v.tokens, t.isPlain = true := by
  induction tame with
  | null | bool | text | integer =>
    rintro _ (_ | ⟨_, ⟨⟩⟩)
    rfl
  | array _ ih =>
    simp only [tokens, List.mem_append, List.mem_cons, List.not_mem_nil, or_false]
    rintro t ((rfl | inside) | rfl)
    · rfl
    · obtain rfl | ⟨v, among, inside⟩ := mem_itemTokens inside
      · rfl
      · exact ih v among t inside
    · rfl
  | object _ _ ih =>
    simp only [tokens, List.mem_append, List.mem_cons, List.not_mem_nil, or_false]
    rintro t ((rfl | inside) | rfl)
    · rfl
    · obtain rfl | rfl | ⟨m, among, rfl | inside⟩ := mem_memberTokens inside
      · rfl
      · rfl
      · rfl
      · exact ih m among t inside
    · rfl

/-- Nothing is lost by nesting deeper. -/
theorem mono {e : Nat} (tame : v.Tame d) (le : d ≤ e) : v.Tame e := by
  induction tame generalizing e with
  | null => exact .null
  | bool b => exact .bool b
  | integer short => exact .integer short
  | text t => exact .text t
  | array _ ih =>
    obtain ⟨e, rfl⟩ := Nat.exists_eq_add_of_le' (Nat.le_trans (Nat.le_add_left 1 _) le)
    exact .array fun v among => ih v among (Nat.le_of_succ_le_succ le)
  | object named _ ih =>
    obtain ⟨e, rfl⟩ := Nat.exists_eq_add_of_le' (Nat.le_trans (Nat.le_add_left 1 _) le)
    exact .object named fun m among => ih m among (Nat.le_of_succ_le_succ le)

end Tame

end Value

end ScanSlot.Json
