import ScanSlot.Json.Print
import ScanSlot.Proofs.Json.Numeral
import ScanSlot.Proofs.Json.Quoted

/-! Which texts hold given tokens, with blanks wherever one likes, and that a text is cut into just
the tokens it holds. Two numbers need something between them, and in a document always have it. -/
namespace ScanSlot.Json

namespace Token

def isNumber : Token → Bool
  | number _ => true
  | _ => false

/-- Every token but numbers and texts; it is written in one way only. -/
def isFixed : Token → Bool
  | number _ | text _ => false
  | _ => true

/-- A token, and how it is written. -/
inductive Spelled : Token → List Char → Prop where
  | fixed {t : Token} (fixed : t.isFixed = true) : Spelled t t.written
  | number {n : Numeral} {w : List Char} (spelled : n.Spelled w) : Spelled (.number n) w
  | text {ps : List Piece} {w : List Char} (spells : Spells ps w) :
      Spelled (.text ((joinPieces ps).map String.ofList)) ('"' :: (w ++ ['"']))

theorem Spelled.front {t : Token} {w : List Char} (spelled : t.Spelled w) :
    ∃ c cs, w = c :: cs ∧ isBlank c = false ∧
      (t.isNumber = false → c.isDigit = false ∧ c ≠ '.' ∧ c ≠ 'e' ∧ c ≠ 'E') := by
  cases spelled with
  | number spelled =>
    obtain ⟨c, cs, rfl, digit | rfl⟩ := spelled.front
    · refine ⟨c, cs, rfl, ?_, nofun⟩
      cases blank : isBlank c with
      | false => rfl
      | true =>
        simp only [isBlank, Bool.or_eq_true, decide_eq_true_eq] at blank
        obtain ((rfl | rfl) | rfl) | rfl := blank <;> contradiction
    · exact ⟨_, _, rfl, rfl, nofun⟩
  | text => exact ⟨_, _, rfl, rfl, fun _ => by decide⟩
  | fixed fixed =>
    cases t with
    | number | text => contradiction
    | bool b => cases b <;> exact ⟨_, _, rfl, rfl, fun _ => by decide⟩
    | _ => exact ⟨_, _, rfl, rfl, fun _ => by decide⟩

theorem spelled_textWritten (t : Option String) : (text t).Spelled (textWritten t) := by
  cases t with
  | none =>
    have unpaired : Spells [.unit 0xD800] ['\\', 'u', 'd', '8', '0', '0'] :=
      .cons (.unit rfl) .nil
    exact .text unpaired
  | some t =>
    obtain ⟨ps, spells, joined⟩ := spells_escaped t.toList
    have spelled := Spelled.text spells
    rwa [joined, Option.map_some, String.ofList_toList] at spelled

end Token

/-- Tokens one after another, with any blanks before, between and after them. -/
inductive Rendered : List Token → List Char → Prop where
  | nil : Rendered [] []
  | blank {c : Char} {ts : List Token} {cs : List Char} (blank : isBlank c = true)
      (rest : Rendered ts cs) : Rendered ts (c :: cs)
  | token {t : Token} {w : List Char} {ts : List Token} {cs : List Char} (spelled : t.Spelled w)
      (rest : Rendered ts cs) : Rendered (t :: ts) (w ++ cs)

/-- No number at the front. -/
def Unnumbered (ts : List Token) : Prop :=
  ∀ t ∈ ts.head?, t.isNumber = false

/-- No number right behind another. -/
def Separate : List Token → Prop
  | [] => True
  | t :: ts => (t.isNumber = true → Unnumbered ts) ∧ Separate ts

theorem unnumbered_cons {t : Token} {ts : List Token} (other : t.isNumber = false) :
    Unnumbered (t :: ts) := by
  rintro _ ⟨⟩
  exact other

/-! ### What is written is read -/

theorem Rendered.detached {ts : List Token} {cs : List Char} (rendered : Rendered ts cs)
    (front : Unnumbered ts) : Detached cs := by
  cases rendered with
  | nil => exact detached_nil
  | blank blank =>
    simp only [isBlank, Bool.or_eq_true, decide_eq_true_eq] at blank
    obtain ((rfl | rfl) | rfl) | rfl := blank <;> exact detached_cons (by decide)
  | @token t _ _ _ spelled =>
    obtain ⟨c, _, rfl, _, other⟩ := spelled.front
    exact detached_cons (other (front t rfl))

/-- A token is read where it ends. -/
theorem token?_append {t : Token} {w rest : List Char} (spelled : t.Spelled w)
    (ends : t.isNumber = true → Detached rest) : token? (w ++ rest) = some (t, rest) := by
  cases spelled with
  | fixed fixed =>
    cases t with
    | number | text => contradiction
    | bool b => cases b <;> rfl
    | _ => rfl
  | number spelled =>
    have read := number?_append spelled (ends rfl)
    obtain ⟨c, cs, rfl, front⟩ := spelled.front
    rw [List.cons_append] at read ⊢
    rw [token?, read]
    · rfl
    all_goals
      intros
      rename_i front'
      obtain ⟨rfl, _⟩ := List.cons.inj front'
      rcases front with digit | minus <;> contradiction
  | text spells =>
    have read := pieces?_append spells rest
    rw [List.cons_append, List.append_assoc, List.singleton_append, token?, read]
    rfl

/-- A text is cut into the tokens it holds. -/
theorem tokens?_of_rendered {ts : List Token} {cs : List Char} (rendered : Rendered ts cs)
    (separate : Separate ts) : tokens? cs = some ts := by
  induction rendered with
  | nil => rw [tokens?]
  | blank blank _ ih =>
    rw [tokens?, if_pos blank]
    exact ih separate
  | token spelled rendered ih =>
    have read := token?_append spelled fun number => rendered.detached (separate.1 number)
    have later := ih separate.2
    obtain ⟨c, _, rfl, solid, _⟩ := spelled.front
    rw [List.cons_append] at read ⊢
    rw [tokens?, if_neg (by simp [solid])]
    split
    · simp_all
    · simp_all

/-! ### What is read is written -/

theorem exists_of_token? {t : Token} {cs rest : List Char} (read : token? cs = some (t, rest)) :
    ∃ w, t.Spelled w ∧ cs = w ++ rest := by
  unfold token? at read
  split at read
  case h_7 =>
    obtain ⟨⟨ps, rest⟩, readPieces, same⟩ := Option.map_eq_some_iff.mp read
    obtain ⟨rfl, rfl⟩ := Prod.mk.inj same
    obtain ⟨w, spells, rfl⟩ := exists_of_pieces? readPieces
    exact ⟨_, .text spells, by simp⟩
  case h_11 =>
    obtain ⟨⟨n, rest⟩, readNumber, same⟩ := Option.map_eq_some_iff.mp read
    obtain ⟨rfl, rfl⟩ := Prod.mk.inj same
    obtain ⟨w, spelled, rfl⟩ := exists_of_number? readNumber
    exact ⟨w, .number spelled, rfl⟩
  all_goals
    obtain ⟨rfl, rfl⟩ := Prod.mk.inj (Option.some.inj read)
    exact ⟨_, .fixed rfl, rfl⟩

/-- A text holds the tokens it is cut into. -/
theorem rendered_of_tokens? {ts : List Token} {cs : List Char} (read : tokens? cs = some ts) :
    Rendered ts cs := by
  fun_induction tokens? cs generalizing ts with
  | case1 =>
    obtain rfl := Option.some.inj read
    exact .nil
  | case2 c rest blank ih => exact .blank blank (ih read)
  | case3 => contradiction
  | case4 c rest solid t rest' front _ ih =>
    obtain ⟨ts, later, rfl⟩ := Option.map_eq_some_iff.mp read
    obtain ⟨w, spelled, same⟩ := exists_of_token? front
    rw [same]
    exact .token spelled (ih later)

namespace Value

mutual

theorem separate_tokens (v : Value) {ts : List Token} (front : Unnumbered ts)
    (rest : Separate ts) : Separate (v.tokens ++ ts) := by
  cases v with
  | null | bool | number | text => exact ⟨fun _ => front, rest⟩
  | array items =>
    have closing : Separate (.closeArray :: ts) := ⟨nofun, rest⟩
    have inner := separate_itemTokens items (unnumbered_cons rfl) closing
    rw [tokens, List.append_assoc, List.cons_append]
    exact ⟨nofun, inner⟩
  | object members =>
    have closing : Separate (.closeObject :: ts) := ⟨nofun, rest⟩
    have inner := separate_memberTokens members (unnumbered_cons rfl) closing
    rw [tokens, List.append_assoc, List.cons_append]
    exact ⟨nofun, inner⟩

theorem separate_itemTokens (items : List Value) {ts : List Token} (front : Unnumbered ts)
    (rest : Separate ts) : Separate (itemTokens items ++ ts) := by
  match items with
  | [] => exact rest
  | [v] => exact separate_tokens v front rest
  | v :: w :: items =>
    have later := separate_itemTokens (w :: items) front rest
    rw [itemTokens, List.append_assoc]
    · exact separate_tokens v (unnumbered_cons rfl) ⟨nofun, later⟩
    · exact List.cons_ne_nil w items

theorem separate_memberTokens (members : List (Option String × Value)) {ts : List Token}
    (front : Unnumbered ts) (rest : Separate ts) : Separate (memberTokens members ++ ts) := by
  match members with
  | [] => exact rest
  | [(name, v)] => exact ⟨nofun, nofun, separate_tokens v front rest⟩
  | (name, v) :: w :: members =>
    have later := separate_memberTokens (w :: members) front rest
    have comma : Separate (.comma :: (memberTokens (w :: members) ++ ts)) := ⟨nofun, later⟩
    have own := separate_tokens v (unnumbered_cons rfl) comma
    rw [memberTokens, List.cons_append, List.cons_append, List.append_assoc]
    · exact ⟨nofun, nofun, own⟩
    · exact List.cons_ne_nil w members

end

end Value

/-- A text is cut into a document's tokens just if it holds them. -/
theorem tokens?_eq_tokens {v : Value} {cs : List Char} :
    tokens? cs = some v.tokens ↔ Rendered v.tokens cs := by
  have separate : Separate (v.tokens ++ []) := v.separate_tokens nofun trivial
  rw [List.append_nil] at separate
  exact ⟨rendered_of_tokens?, fun rendered => tokens?_of_rendered rendered separate⟩

end ScanSlot.Json
