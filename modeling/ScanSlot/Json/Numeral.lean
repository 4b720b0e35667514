import ScanSlot.Json.Double

/-! JSON numbers. A number keeps how it was written where that decides what may read it: written
without fraction and exponent it is an integer, except minus zero. -/
namespace ScanSlot.Json

/-- The leading decimal digits of `n` that fit in 64 bits, and how many digits follow them. -/
def leading (n : Nat) : Nat × Nat :=
  if n < 18446744073709551616 then (n, 0)
  else
    let (digits, dropped) := leading (n / 10)
    (digits, dropped + 1)
termination_by n

inductive Numeral where
  | integer (value : Int)
  /-- Stands for `mantissa * 10 ^ exponent`; the mantissa fits in 64 bits beside its sign. -/
  | real (mantissa exponent : Int)
  deriving DecidableEq, Repr

/-- Whether the number is finite as a double. -/
def Numeral.isFinite : Numeral → Bool
  | .integer value =>
      let (n, dropped) := leading value.natAbs
      Double.isFiniteScaled n dropped
  | .real mantissa exponent => Double.isFiniteScaled mantissa.natAbs exponent

def integerText : Int → List Char
  | .ofNat n => Nat.toDigits 10 n
  | .negSucc n => '-' :: Nat.toDigits 10 (n + 1)

def Numeral.written : Numeral → List Char
  | .integer value => integerText value
  | .real mantissa exponent => integerText mantissa ++ 'e' :: integerText exponent

def natOfDigits (digits : List Char) : Nat :=
  digits.foldl (fun n c => n * 10 + (c.toNat - 48)) 0

/-- The leading digits and what follows them. -/
def digits (cs : List Char) : List Char × List Char :=
  (cs.takeWhile Char.isDigit, cs.dropWhile Char.isDigit)

/-- Digits after a point; no point means no digits. -/
def fraction? : List Char → Option (List Char × List Char)
  | '.' :: rest =>
      let (ds, rest) := digits rest
      if ds.isEmpty then none else some (ds, rest)
  | rest => some ([], rest)

def sign : List Char → Bool × List Char
  | '-' :: rest => (true, rest)
  | '+' :: rest => (false, rest)
  | rest => (false, rest)

def applySign (negative : Bool) (n : Nat) : Int :=
  if negative then -(n : Int) else n

/-- The outer answer is missing if a marker has no digits, the inner one if there is no marker. -/
def exponent? : List Char → Option (Option Int × List Char)
  | c :: rest =>
      if c = 'e' ∨ c = 'E' then
        let (negative, rest) := sign rest
        let (ds, rest) := digits rest
        if ds.isEmpty then none else some (some (applySign negative (natOfDigits ds)), rest)
      else some (none, c :: rest)
  | [] => some (none, [])

/-- A leading zero stands alone. -/
def whole? (cs : List Char) : Option (List Char × List Char) :=
  match cs with
  | '0' :: rest => some (['0'], rest)
  | cs => if (digits cs).1.isEmpty then none else some (digits cs)

/-- The mantissa and exponent of a number. Whole digits that no longer fit raise the exponent.
Fraction digits go on from the whole ones that were kept; each that still fits lowers it. -/
def reading (whole fraction : List Char) (exponent : Int) : Nat × Int :=
  let (n, dropped) := leading (natOfDigits whole)
  let (mantissa, ignored) := leading (n * Nat.pow 10 fraction.length + natOfDigits fraction)
  (mantissa, exponent + dropped + ignored - fraction.length)

def magnitude? (negative : Bool) (cs : List Char) : Option (Numeral × List Char) := do
  let (whole, cs) ← whole? cs
  let (fraction, cs) ← fraction? cs
  let (exponent, cs) ← exponent? cs
  let n := natOfDigits whole
  if fraction.isEmpty && exponent.isNone && !(negative && n == 0) then
    some (.integer (applySign negative n), cs)
  else
    let (mantissa, exponent) := reading whole fraction (exponent.getD 0)
    some (.real (applySign negative mantissa) exponent, cs)

def number? : List Char → Option (Numeral × List Char)
  | '-' :: rest => magnitude? true rest
  | cs => magnitude? false cs

theorem digits_rest_le (cs : List Char) : (digits cs).2.length ≤ cs.length :=
  (List.dropWhile_suffix _).length_le

theorem digits_rest_lt {cs : List Char} (some_digit : (digits cs).1.isEmpty = false) :
    (digits cs).2.length < cs.length := by
  have split : (digits cs).1 ++ (digits cs).2 = cs := List.takeWhile_append_dropWhile
  have lengths := congrArg List.length split
  rw [List.length_append] at lengths
  have positive : 0 < (digits cs).1.length := by
    cases h : (digits cs).1 with
    | nil => simp [h] at some_digit
    | cons => simp
  omega

theorem whole?_rest_lt {cs rest ds : List Char} (read : whole? cs = some (ds, rest)) :
    rest.length < cs.length := by
  unfold whole? at read
  split at read
  · simp only [Option.some.injEq, Prod.mk.injEq] at read
    simp [← read.2]
  · split at read
    · contradiction
    · rename_i full
      simp only [Option.some.injEq] at read
      have shorter := digits_rest_lt (by simpa using full)
      rwa [read] at shorter

theorem fraction?_rest_le {cs rest ds : List Char} (read : fraction? cs = some (ds, rest)) :
    rest.length ≤ cs.length := by
  unfold fraction? at read
  split at read
  · rename_i r
    have shorter := digits_rest_le r
    grind
  · grind

theorem sign_rest_le (cs : List Char) : (sign cs).2.length ≤ cs.length := by
  unfold sign
  split <;> simp

theorem exponent?_rest_le {cs rest : List Char} {e : Option Int}
    (read : exponent? cs = some (e, rest)) : rest.length ≤ cs.length := by
  unfold exponent? at read
  split at read
  · rename_i c r
    have first := sign_rest_le r
    have second := digits_rest_le (sign r).2
    grind
  · grind

theorem magnitude?_rest_lt {negative : Bool} {cs rest : List Char} {n : Numeral}
    (read : magnitude? negative cs = some (n, rest)) : rest.length < cs.length := by
  simp only [magnitude?, bind, Option.bind_eq_some_iff] at read
  obtain ⟨⟨whole, cs'⟩, readWhole, ⟨fraction, cs''⟩, readFraction, ⟨exponent, cs'''⟩,
    readExponent, read⟩ := read
  have a := whole?_rest_lt readWhole
  have b := fraction?_rest_le readFraction
  have c := exponent?_rest_le readExponent
  have last : cs''' = rest := by
    dsimp only at read
    split at read <;> simp_all
  subst last
  dsimp only at b c
  omega

theorem number?_rest_lt {cs rest : List Char} {n : Numeral}
    (read : number? cs = some (n, rest)) : rest.length < cs.length := by
  unfold number? at read
  split at read
  · have shorter := magnitude?_rest_lt read
    simp only [List.length_cons]
    omega
  · exact magnitude?_rest_lt read

end ScanSlot.Json
