import ScanSlot.Json.Quoted
import ScanSlot.Proofs.Text.Hex

/-! Which texts may stand in quotes, said piece by piece and apart from the reader, and that the
reader reads just these. Every escape is one piece that stands for its character, whatever pieces
follow. -/
namespace ScanSlot.Json

/-! ### The grammar -/

/-- A piece, and how it is written. -/
inductive Piece.Spelled : Piece → List Char → Prop where
  | plain {c : Char} (quote : c ≠ '"') (backslash : c ≠ '\\') (printed : ¬ c.toNat < 0x20) :
      Spelled (.char c) [c]
  | short {c char : Char} (named : unescape? c = some char) : Spelled (.char char) ['\\', c]
  | unit {a b c d : Char} {u : Nat} (named : unit? a b c d = some u) :
      Spelled (.unit u) ['\\', 'u', a, b, c, d]

/-- Pieces one after another. -/
inductive Spells : List Piece → List Char → Prop where
  | nil : Spells [] []
  | cons {p : Piece} {w : List Char} {ps : List Piece} {cs : List Char} (first : p.Spelled w)
      (rest : Spells ps cs) : Spells (p :: ps) (w ++ cs)

/-! ### What is written is read -/

theorem pieces?_piece {p : Piece} {w : List Char} (spelled : p.Spelled w) (more : List Char) :
    pieces? (w ++ more) = (pieces? more).map (Prod.map (p :: ·) id) := by
  cases spelled with
  | plain quote backslash printed =>
    rw [List.singleton_append, pieces?]
    · exact if_neg (by simp [backslash, printed])
    all_goals
      intros
      simp_all
  | short named =>
    rw [List.cons_append, List.singleton_append, pieces?, named]
    · rfl
    · rintro _ _ _ _ _ rfl
      contradiction
  | unit named =>
    change pieces? ('\\' :: 'u' :: _ :: _ :: _ :: _ :: more) = _
    rw [pieces?, named]
    rfl

/-- A content is read up to its closing quote. -/
theorem pieces?_append {ps : List Piece} {cs : List Char} (spells : Spells ps cs)
    (rest : List Char) : pieces? (cs ++ '"' :: rest) = some (ps, rest) := by
  induction spells with
  | nil => rfl
  | cons first _ ih =>
    rw [List.append_assoc, pieces?_piece first, ih]
    rfl

/-! ### What is read is written -/

/-- Whatever is read as a content is one, and a quote closes it. -/
theorem exists_of_pieces? {cs rest : List Char} {ps : List Piece}
    (read : pieces? cs = some (ps, rest)) : ∃ w, Spells ps w ∧ cs = w ++ '"' :: rest := by
  fun_induction pieces? cs generalizing ps rest with
  | case1 more =>
    obtain ⟨rfl, rfl⟩ := Prod.mk.inj (Option.some.inj read)
    exact ⟨[], .nil, rfl⟩
  | case2 a b c d more ih =>
    simp only [Option.bind_eq_some_iff, Option.map_eq_some_iff, Prod.map, Prod.mk.injEq] at read
    obtain ⟨u, named, ⟨ps, _⟩, readMore, rfl, rfl⟩ := read
    obtain ⟨w, spells, rfl⟩ := ih readMore
    exact ⟨_, .cons (.unit named) spells, rfl⟩
  | case3 c more _ ih =>
    simp only [Option.bind_eq_some_iff, Option.map_eq_some_iff, Prod.map, Prod.mk.injEq] at read
    obtain ⟨char, named, ⟨ps, _⟩, readMore, rfl, rfl⟩ := read
    obtain ⟨w, spells, rfl⟩ := ih readMore
    exact ⟨_, .cons (.short named) spells, rfl⟩
  | case4 => contradiction
  | case5 c more quote _ _ other ih =>
    simp only [Option.map_eq_some_iff, Prod.map, Prod.mk.injEq] at read
    obtain ⟨⟨ps, _⟩, readMore, rfl, rfl⟩ := read
    obtain ⟨w, spells, rfl⟩ := ih readMore
    obtain ⟨printed, backslash⟩ := not_or.mp other
    exact ⟨_, .cons (.plain quote backslash printed) spells, rfl⟩
  | case6 => contradiction

/-! ### Escaped characters -/

/-- The piece stands for the character and joins with nothing. -/
def Piece.Means (p : Piece) (c : Char) : Prop :=
  ∀ ps, joinPieces (p :: ps) = (joinPieces ps).map (c :: ·)

theorem char_means (c : Char) : (Piece.char c).Means c :=
  fun _ => rfl

/-- A unit that is no surrogate stands for itself. -/
theorem unit_means {u : Nat} (high : isHigh u = false) (low : isLow u = false) :
    (Piece.unit u).Means (Char.ofNat u) := by
  intro ps
  cases ps with
  | nil => simp [joinPieces, high, low]
  | cons p ps => cases p <;> simp [joinPieces, high, low]

/-- A character below the blank is named by its number. -/
theorem unit?_control {n : Nat} (control : n < 0x20) :
    unit? '0' '0' (Hex.digit (n / 16)) (Hex.digit (n % 16)) = some n := by
  have high := Hex.digit?_digit (n := n / 16) (by omega)
  have low := Hex.digit?_digit (n := n % 16) (by omega)
  have zero : Hex.digit? '0' = some 0 := rfl
  simp only [unit?, zero, high, low, Option.bind_eq_bind, Option.bind_some]
  exact congrArg some (by omega)

theorem spelled_escape (c : Char) : ∃ p : Piece, p.Means c ∧ p.Spelled (escape c) := by
  unfold escape
  split
  -- The seven short escapes name their characters.
  iterate 7 exact ⟨.char _, char_means _, .short rfl⟩
  rename_i quote backslash _ _ _ _ _
  split
  · rename_i control
    have plain := unit_means (u := c.toNat) (by simp [isHigh]; omega) (by simp [isLow]; omega)
    rw [Char.ofNat_toNat] at plain
    exact ⟨_, plain, .unit (unit?_control control)⟩
  · rename_i printed
    exact ⟨_, char_means c, .plain quote backslash printed⟩

/-- An escaped text spells the text. -/
theorem spells_escaped (cs : List Char) :
    ∃ ps, Spells ps (cs.flatMap escape) ∧ joinPieces ps = some cs := by
  induction cs with
  | nil => exact ⟨[], .nil, rfl⟩
  | cons c cs ih =>
    obtain ⟨ps, spells, joined⟩ := ih
    obtain ⟨p, means, spelled⟩ := spelled_escape c
    refine ⟨p :: ps, .cons spelled spells, ?_⟩
    rw [means ps, joined]
    rfl

end ScanSlot.Json
