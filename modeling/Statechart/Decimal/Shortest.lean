/-!
# Shortest decimals

A finite double `m · 2 ^ q` stands for every real number that rounds to it.
Its shortest decimal is the one with the fewest digits among those numbers,
and of several with equally few digits the nearest to the double.  The search
is in exact natural arithmetic: for one, two, … seventeen digits it tests the
two neighbours of the double on that decimal grid.
-/

namespace Statechart

/-- The number `digits · 10 ^ exponent`. -/
structure Decimal where
  digits : Nat
  exponent : Int
deriving DecidableEq, Repr

namespace Decimal

/-- The magnitude `mantissa · 2 ^ exponent` of a finite double. -/
structure Binary where
  mantissa : Nat
  exponent : Int
deriving DecidableEq, Repr

/-- Reads mantissa and exponent off the bits of a finite double. -/
def Binary.ofFloat (x : Float) : Binary :=
  let bits := x.toBits.toNat
  let fraction : Nat := bits % Nat.pow 2 52
  let biased : Nat := bits / Nat.pow 2 52 % Nat.pow 2 11
  if biased = 0 then
    ⟨fraction, -1074⟩
  else
    ⟨Nat.pow 2 52 + fraction, Int.subNatNat biased 1075⟩

/-- Whether the sign bit of a double is set, as it is for `-0.0`. -/
def isNegative (x : Float) : Bool :=
  decide (Nat.pow 2 63 ≤ x.toBits.toNat)

/-- Compares `a · 10 ^ s` with `b · 2 ^ t`. -/
def compareScaled (a : Nat) (s : Int) (b : Nat) (t : Int) : Ordering :=
  compare (a * Nat.pow 10 s.toNat * Nat.pow 2 (-t).toNat)
    (b * Nat.pow 2 t.toNat * Nat.pow 10 (-s).toNat)

/-- The greatest `n` with `n · 10 ^ s ≤ b · 2 ^ t`. -/
def floorScaled (s : Int) (b : Nat) (t : Int) : Nat :=
  (b * Nat.pow 2 t.toNat * Nat.pow 10 (-s).toNat) /
    (Nat.pow 10 s.toNat * Nat.pow 2 (-t).toNat)

/-- The ends of the interval of numbers that round to a double, in units of a
quarter of its last place.  Below a power of two the doubles lie twice as dense. -/
def Binary.interval (x : Binary) : Nat × Nat :=
  if x.mantissa = Nat.pow 2 52 ∧ -1074 < x.exponent then
    (4 * x.mantissa - 1, 4 * x.mantissa + 2)
  else
    (4 * x.mantissa - 2, 4 * x.mantissa + 2)

/-- Whether `digits · 10 ^ s` rounds to the double: it lies between the ends of
the interval, which belong to it when the mantissa is even. -/
def Binary.accepts (x : Binary) (digits : Nat) (s : Int) : Bool :=
  let ends := x.interval
  let low := compareScaled digits s ends.1 (x.exponent - 2)
  let high := compareScaled digits s ends.2 (x.exponent - 2)
  if x.mantissa % 2 = 0 then
    low != .lt && high != .gt
  else
    low == .gt && high == .lt

/-- The exponent of the first decimal digit of a positive magnitude: an
estimate from its length in binary, put right by a comparison. -/
def Binary.magnitude (x : Binary) : Int :=
  let estimate := ((Nat.log2 x.mantissa : Int) + x.exponent) * 30103 / 100000
  if compareScaled 1 (estimate + 1) x.mantissa x.exponent != .gt then
    estimate + 1
  else if compareScaled 1 estimate x.mantissa x.exponent != .gt then
    estimate
  else
    estimate - 1

/-- The nearer of the double's neighbours on the grid of `10 ^ s` that rounds
to it, if one does; of two equally near ones the even one. -/
def Binary.onGrid (x : Binary) (s : Int) : Option Decimal :=
  let below := floorScaled s x.mantissa x.exponent
  match x.accepts below s, x.accepts (below + 1) s with
  | false, false => none
  | true, false => some ⟨below, s⟩
  | false, true => some ⟨below + 1, s⟩
  | true, true =>
    match compareScaled (2 * below + 1) s (2 * x.mantissa) x.exponent with
    | .gt => some ⟨below, s⟩
    | .lt => some ⟨below + 1, s⟩
    | .eq => if below % 2 = 0 then some ⟨below, s⟩ else some ⟨below + 1, s⟩

/-- Moves trailing zeros of the digits into the exponent. -/
def normalize (x : Decimal) : Decimal :=
  if x.digits = 0 then
    ⟨0, 0⟩
  else if x.digits % 10 = 0 then
    normalize ⟨x.digits / 10, x.exponent + 1⟩
  else
    x
termination_by x.digits
decreasing_by omega

/-- The shortest decimal that rounds to the magnitude of a finite double. -/
def shortest (x : Float) : Decimal :=
  let binary := Binary.ofFloat x
  if binary.mantissa = 0 then
    ⟨0, 0⟩
  else
    let top := binary.magnitude
    match (List.range 17).findSome? (fun (n : Nat) => binary.onGrid (top - (n : Int))) with
    | some found => found.normalize
    | none => (Decimal.mk (floorScaled (top - 16) binary.mantissa binary.exponent)
        (top - 16)).normalize

end Decimal

end Statechart
