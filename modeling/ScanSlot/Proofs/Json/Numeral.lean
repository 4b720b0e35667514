import ScanSlot.Json.Numeral

/-! Which texts are numbers, said apart from the reader, and that the reader reads just these: a
number is read where it ends, as long as nothing follows that it could go on with. An integer has
one spelling. -/
namespace ScanSlot.Json

/-- Nothing at the front that could go on with a number. -/
def Detached (rest : List Char) : Prop :=
  ∀ c ∈ rest.head?, c.isDigit = false ∧ c ≠ '.' ∧ c ≠ 'e' ∧ c ≠ 'E'

/-- No digit at the front. -/
def Undigited (rest : List Char) : Prop :=
  ∀ c ∈ rest.head?, c.isDigit = false

theorem detached_nil : Detached [] := nofun

theorem detached_cons {c : Char} {rest : List Char}
    (other : c.isDigit = false ∧ c ≠ '.' ∧ c ≠ 'e' ∧ c ≠ 'E') : Detached (c :: rest) := by
  rintro _ ⟨⟩
  exact other

theorem undigited_cons {c : Char} {rest : List Char} (other : c.isDigit = false) :
    Undigited (c :: rest) := by
  rintro _ ⟨⟩
  exact other

theorem Detached.undigited {rest : List Char} (detached : Detached rest) : Undigited rest :=
  fun c front => (detached c front).1

/-! ### The grammar -/

/-- Whole digits: a zero in front stands alone. -/
inductive Whole : List Char → Prop where
  | zero : Whole ['0']
  | digits {c : Char} {cs : List Char} (front : c ≠ '0') (all : ∀ d ∈ c :: cs, d.isDigit = true) :
      Whole (c :: cs)

/-- The digits of a fraction, and how it is written. -/
inductive Fraction : List Char → List Char → Prop where
  | none : Fraction [] []
  | some {ds : List Char} (nonempty : ds ≠ []) (all : ∀ d ∈ ds, d.isDigit = true) :
      Fraction ds ('.' :: ds)

inductive Sign : Bool → List Char → Prop where
  | none : Sign false []
  | plus : Sign false ['+']
  | minus : Sign true ['-']

/-- An exponent, and how it is written. -/
inductive Exponent : Option Int → List Char → Prop where
  | none : Exponent none []
  | some {mark : Char} {negative : Bool} {sign ds : List Char} (marked : mark = 'e' ∨ mark = 'E')
      (signed : Sign negative sign) (nonempty : ds ≠ []) (all : ∀ d ∈ ds, d.isDigit = true) :
      Exponent (some (applySign negative (natOfDigits ds))) (mark :: (sign ++ ds))

/-- The number with given parts. -/
def Numeral.ofParts (negative : Bool) (whole fraction : List Char) (exponent : Option Int) :
    Numeral :=
  if fraction.isEmpty && exponent.isNone && !(negative && natOfDigits whole == 0) then
    .integer (applySign negative (natOfDigits whole))
  else
    .real (applySign negative (reading whole fraction (exponent.getD 0)).1)
      (reading whole fraction (exponent.getD 0)).2

/-- A number without its sign. -/
inductive Magnitude (negative : Bool) : Numeral → List Char → Prop where
  | intro {whole ds fraction es : List Char} {exponent : Option Int} (first : Whole whole)
      (second : Fraction ds fraction) (third : Exponent exponent es) :
      Magnitude negative (.ofParts negative whole ds exponent) (whole ++ (fraction ++ es))

/-- A number, and how it is written. -/
inductive Numeral.Spelled : Numeral → List Char → Prop where
  | positive {n : Numeral} {cs : List Char} (magnitude : Magnitude false n cs) : Spelled n cs
  | negative {n : Numeral} {cs : List Char} (magnitude : Magnitude true n cs) :
      Spelled n ('-' :: cs)

/-! ### What is written is read -/

section
variable {rest : List Char}

theorem digits_append {ds : List Char} (all : ∀ c ∈ ds, c.isDigit = true)
    (undigited : Undigited rest) : digits (ds ++ rest) = (ds, rest) := by
  have taken : rest.takeWhile Char.isDigit = [] := by
    cases rest with
    | nil => rfl
    | cons c rest => exact List.takeWhile_cons_of_neg (by simp [undigited c rfl])
  have left : rest.dropWhile Char.isDigit = rest := by
    cases rest with
    | nil => rfl
    | cons c rest => exact List.dropWhile_cons_of_neg (by simp [undigited c rfl])
  rw [digits, List.takeWhile_append_of_pos all, List.dropWhile_append_of_pos all, taken, left,
    List.append_nil]

theorem whole?_append {whole : List Char} (first : Whole whole) (undigited : Undigited rest) :
    whole? (whole ++ rest) = some (whole, rest) := by
  cases first with
  | zero => rfl
  | @digits c cs front all =>
    have read := digits_append all undigited
    rw [List.cons_append] at read ⊢
    rw [whole?]
    · simp [read]
    · rintro _ ⟨⟩
      exact front rfl

theorem sign_append {negative : Bool} {sign ds : List Char} (signed : Sign negative sign)
    (nonempty : ds ≠ []) (all : ∀ d ∈ ds, d.isDigit = true) :
    Json.sign (sign ++ (ds ++ rest)) = (negative, ds ++ rest) := by
  cases signed with
  | plus | minus => rfl
  | none =>
    obtain ⟨d, ds, rfl⟩ := List.exists_cons_of_ne_nil nonempty
    have digit := all d List.mem_cons_self
    rw [List.nil_append, List.cons_append, Json.sign]
    all_goals
      rintro _ ⟨⟩
      contradiction

theorem fraction?_append {ds fraction : List Char} (second : Fraction ds fraction)
    (undigited : Undigited rest) (undotted : rest.head? ≠ some '.') :
    fraction? (fraction ++ rest) = some (ds, rest) := by
  cases second with
  | none =>
    rw [List.nil_append, fraction?]
    rintro cs rfl
    exact undotted rfl
  | some nonempty all =>
    rw [List.cons_append, fraction?, digits_append all undigited]
    exact if_neg (by simpa using nonempty)

theorem exponent?_append {exponent : Option Int} {es : List Char} (third : Exponent exponent es)
    (detached : Detached rest) : exponent? (es ++ rest) = some (exponent, rest) := by
  cases third with
  | none =>
    cases rest with
    | nil => rfl
    | cons c rest =>
      obtain ⟨_, _, small, large⟩ := detached c rfl
      rw [List.nil_append, exponent?, if_neg (by simp [small, large])]
  | some marked signed nonempty all =>
    rw [List.cons_append, List.append_assoc, exponent?, if_pos marked,
      sign_append signed nonempty all]
    dsimp only
    rw [digits_append all detached.undigited]
    exact if_neg (by simpa using nonempty)

/-- Neither a digit nor a point stands where an exponent may. -/
theorem exponent_front {exponent : Option Int} {es : List Char} (third : Exponent exponent es)
    (detached : Detached rest) : Undigited (es ++ rest) ∧ (es ++ rest).head? ≠ some '.' := by
  cases third with
  | none => exact ⟨detached.undigited, fun dot => (detached '.' dot).2.1 rfl⟩
  | some marked => rcases marked with rfl | rfl <;> exact ⟨undigited_cons rfl, nofun⟩

theorem fraction_undigited {ds fraction : List Char} (second : Fraction ds fraction)
    (undigited : Undigited rest) : Undigited (fraction ++ rest) := by
  cases second with
  | none => exact undigited
  | some => exact undigited_cons rfl

theorem magnitude?_append {negative : Bool} {n : Numeral} {cs : List Char}
    (magnitude : Magnitude negative n cs) (detached : Detached rest) :
    magnitude? negative (cs ++ rest) = some (n, rest) := by
  obtain ⟨first, second, third⟩ := magnitude
  obtain ⟨undigited, undotted⟩ := exponent_front third detached
  have whole := whole?_append first (fraction_undigited second undigited)
  have fraction := fraction?_append second undigited undotted
  simp only [magnitude?, List.append_assoc, whole, fraction, exponent?_append third detached,
    Option.bind_eq_bind, Option.bind_some, Numeral.ofParts]
  split <;> rfl

theorem Whole.front {whole : List Char} (first : Whole whole) :
    ∃ c cs, whole = c :: cs ∧ c.isDigit = true := by
  cases first with
  | zero => exact ⟨_, _, rfl, rfl⟩
  | digits _ all => exact ⟨_, _, rfl, all _ List.mem_cons_self⟩

theorem Magnitude.front {negative : Bool} {n : Numeral} {cs : List Char}
    (magnitude : Magnitude negative n cs) : ∃ c ds, cs = c :: ds ∧ c.isDigit = true := by
  obtain ⟨first, _, _⟩ := magnitude
  obtain ⟨c, cs, rfl, digit⟩ := first.front
  exact ⟨c, _, List.cons_append, digit⟩

/-- A number starts with a digit or a minus. -/
theorem Numeral.Spelled.front {n : Numeral} {cs : List Char} (spelled : n.Spelled cs) :
    ∃ c ds, cs = c :: ds ∧ (c.isDigit = true ∨ c = '-') := by
  cases spelled with
  | positive magnitude =>
    obtain ⟨c, ds, same, digit⟩ := magnitude.front
    exact ⟨c, ds, same, .inl digit⟩
  | negative => exact ⟨_, _, rfl, .inr rfl⟩

/-- A number is read where it ends. -/
theorem number?_append {n : Numeral} {cs : List Char} (spelled : n.Spelled cs)
    (detached : Detached rest) : number? (cs ++ rest) = some (n, rest) := by
  cases spelled with
  | negative magnitude => exact magnitude?_append magnitude detached
  | positive magnitude =>
    obtain ⟨c, ds, rfl, digit⟩ := magnitude.front
    have read := magnitude?_append magnitude detached
    rw [number?]
    · exact read
    · rintro _ ⟨⟩
      contradiction

end

/-! ### What is read is written -/

section
variable {cs rest : List Char}

theorem digits_split (cs : List Char) : cs = (digits cs).1 ++ (digits cs).2 :=
  List.takeWhile_append_dropWhile.symm

theorem isDigit_digits (cs : List Char) : ∀ d ∈ (digits cs).1, d.isDigit = true :=
  List.all_eq_true.mp List.all_takeWhile

theorem exists_of_whole? {whole : List Char} (read : whole? cs = some (whole, rest)) :
    Whole whole ∧ cs = whole ++ rest := by
  unfold whole? at read
  split at read
  · obtain ⟨rfl, rfl⟩ := Prod.mk.inj (Option.some.inj read)
    exact ⟨.zero, rfl⟩
  · rename_i unled
    split at read
    · contradiction
    · rename_i full
      have parts := digits_split cs
      have all := isDigit_digits cs
      rw [Option.some.inj read] at full parts all
      obtain ⟨c, ds, rfl⟩ := List.exists_cons_of_ne_nil (by simpa using full)
      refine ⟨.digits ?_ all, parts⟩
      rintro rfl
      exact unled _ parts

theorem exists_of_fraction? {ds : List Char} (read : fraction? cs = some (ds, rest)) :
    ∃ fraction, Fraction ds fraction ∧ cs = fraction ++ rest := by
  unfold fraction? at read
  split at read
  · rename_i cs
    dsimp only at read
    split at read
    · contradiction
    · rename_i full
      obtain ⟨rfl, rfl⟩ := Prod.mk.inj (Option.some.inj read)
      exact ⟨_, .some (by simpa using full) (isDigit_digits cs),
        congrArg ('.' :: ·) (digits_split cs)⟩
  · obtain ⟨rfl, rfl⟩ := Prod.mk.inj (Option.some.inj read)
    exact ⟨[], .none, rfl⟩

theorem exists_sign (cs : List Char) :
    ∃ s, Sign (sign cs).1 s ∧ cs = s ++ (sign cs).2 := by
  unfold Json.sign
  split
  · exact ⟨_, .minus, rfl⟩
  · exact ⟨_, .plus, rfl⟩
  · exact ⟨_, .none, rfl⟩

theorem exists_of_exponent? {exponent : Option Int}
    (read : exponent? cs = some (exponent, rest)) :
    ∃ es, Exponent exponent es ∧ cs = es ++ rest := by
  unfold exponent? at read
  split at read
  · rename_i c cs
    split at read
    · rename_i marked
      obtain ⟨s, signed, start⟩ := exists_sign cs
      dsimp only at read
      split at read
      · contradiction
      · rename_i full
        obtain ⟨rfl, rfl⟩ := Prod.mk.inj (Option.some.inj read)
        have all := isDigit_digits (sign cs).2
        refine ⟨_, .some marked signed (by simpa using full) all, ?_⟩
        rw [List.cons_append, List.append_assoc, ← digits_split, ← start]
    · obtain ⟨rfl, rfl⟩ := Prod.mk.inj (Option.some.inj read)
      exact ⟨[], .none, rfl⟩
  · obtain ⟨rfl, rfl⟩ := Prod.mk.inj (Option.some.inj read)
    exact ⟨[], .none, rfl⟩

theorem exists_of_magnitude? {negative : Bool} {n : Numeral}
    (read : magnitude? negative cs = some (n, rest)) :
    ∃ w, Magnitude negative n w ∧ cs = w ++ rest := by
  simp only [magnitude?, bind, Option.bind_eq_some_iff] at read
  obtain ⟨⟨whole, _⟩, readWhole, ⟨ds, _⟩, readFraction, ⟨exponent, rest'⟩, readExponent, read⟩ :=
    read
  obtain ⟨first, rfl⟩ := exists_of_whole? readWhole
  obtain ⟨fraction, second, rfl⟩ := exists_of_fraction? readFraction
  obtain ⟨es, third, rfl⟩ := exists_of_exponent? readExponent
  have parts : n = .ofParts negative whole ds exponent ∧ rest' = rest := by
    unfold Numeral.ofParts
    dsimp only at read
    split at read <;> rename_i form <;> obtain ⟨rfl, rfl⟩ := Prod.mk.inj (Option.some.inj read)
    · exact ⟨(if_pos form).symm, rfl⟩
    · exact ⟨(if_neg form).symm, rfl⟩
  obtain ⟨rfl, rfl⟩ := parts
  exact ⟨_, .intro first second third, by simp only [List.append_assoc]⟩

/-- Whatever is read as a number is one. -/
theorem exists_of_number? {n : Numeral} (read : number? cs = some (n, rest)) :
    ∃ w, n.Spelled w ∧ cs = w ++ rest := by
  unfold number? at read
  split at read
  · obtain ⟨w, magnitude, same⟩ := exists_of_magnitude? read
    exact ⟨_, .negative magnitude, congrArg ('-' :: ·) same⟩
  · obtain ⟨w, magnitude, same⟩ := exists_of_magnitude? read
    exact ⟨w, .positive magnitude, same⟩

end

/-! ### Integers -/

theorem natOfDigits_toDigits (n : Nat) : natOfDigits (Nat.toDigits 10 n) = n := by
  have same : natOfDigits (Nat.toDigits 10 n) = Nat.ofDigitChars 10 (Nat.toDigits 10 n) 0 := by
    simp only [natOfDigits, Nat.ofDigitChars_eq_foldl, Nat.mul_comm]
    rfl
  rw [same, Nat.ofDigitChars_ten_toDigits]

/-- Only zero is written with a leading zero. -/
theorem toDigits_front {n : Nat} (positive : 0 < n) :
    ∃ c cs, Nat.toDigits 10 n = c :: cs ∧ c ≠ '0' := by
  induction n using Nat.base_induction 10 (by decide) with
  | single m small =>
    refine ⟨m.digitChar, [], Nat.toDigits_of_lt_base small, ?_⟩
    rw [Ne, Nat.digitChar_eq_zero]
    exact Nat.ne_of_gt positive
  | digit m d small front ih =>
    obtain ⟨c, cs, same, other⟩ := ih front
    rw [← Nat.toDigits_append_toDigits (by decide) front small, same]
    exact ⟨c, _, rfl, other⟩

theorem isDigit_toDigits (n : Nat) : ∀ c ∈ Nat.toDigits 10 n, c.isDigit = true :=
  fun _ => Nat.isDigit_of_mem_toDigits (by decide) (by decide)

theorem whole_toDigits (n : Nat) : Whole (Nat.toDigits 10 n) := by
  rcases Nat.eq_zero_or_pos n with rfl | positive
  · exact .zero
  · obtain ⟨c, cs, same, other⟩ := toDigits_front positive
    have all := isDigit_toDigits n
    rw [same] at all ⊢
    exact .digits other all

theorem magnitude_toDigits {negative : Bool} {n : Nat} (nonzero : negative = true → n ≠ 0) :
    Magnitude negative (.integer (applySign negative n)) (Nat.toDigits 10 n) := by
  have whole : Magnitude negative _ _ := .intro (whole_toDigits n) .none .none
  have integral : Numeral.ofParts negative (Nat.toDigits 10 n) [] none =
      .integer (applySign negative n) := by
    simpa [Numeral.ofParts, natOfDigits_toDigits] using nonzero
  rwa [integral, List.nil_append, List.append_nil] at whole

theorem spelled_integerText (n : Int) : (Numeral.integer n).Spelled (integerText n) := by
  cases n with
  | ofNat n => exact .positive (magnitude_toDigits nofun)
  | negSucc n => exact .negative (magnitude_toDigits fun _ => Nat.succ_ne_zero n)

end ScanSlot.Json
