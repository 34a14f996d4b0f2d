import PolyBook.Types

/-!
# Exact decimal and timestamp parsing

Venue messages carry prices, sizes and timestamps as text.  Prices and sizes
are parsed with integer arithmetic only; timestamps are normalized to
microseconds by magnitude.
-/

namespace PolyBook

/-- Why a price or a size is refused. -/
inductive TypesError where
  | invalidPriceValue (value : String)
  | priceParse (input : String)
  | sizeParse (input : String)
  deriving DecidableEq, Repr

/-- `TypesError`'s `Display` text. -/
def TypesError.display : TypesError → String
  | .invalidPriceValue value =>
      "invalid price: " ++ value ++ " is not a finite non-negative number"
  | .priceParse input =>
      "price parse failed: '" ++ input ++ "' is not a valid decimal in [0.0, 1.0]"
  | .sizeParse input =>
      "size parse failed: '" ++ input ++ "' is not a valid non-negative decimal"

/-- `str::split_once` at the first occurrence of `c`. -/
def splitOnce (c : Char) : List Char → Option (List Char × List Char)
  | [] => none
  | x :: xs =>
      if x = c then some ([], xs)
      else (splitOnce c xs).map fun parts => (x :: parts.1, parts.2)

theorem splitOnce_append {c : Char} {xs : List Char} (h : c ∉ xs) (rest : List Char) :
    splitOnce c (xs ++ c :: rest) = some (xs, rest) := by
  induction xs with
  | nil => simp [splitOnce]
  | cons x xs ih =>
      rw [List.mem_cons, not_or] at h
      simp [splitOnce, ih h.2, Ne.symm h.1]

/-- Value of a run of ASCII digits. -/
def digitsVal (digits : List Char) : Nat :=
  digits.foldl (fun n c => 10 * n + (c.toNat - '0'.toNat)) 0

/-- The result of a checked `u128` operation. -/
def checkedU128 (n : Nat) : Option Nat :=
  if n < 2 ^ 128 then some n else none

/-- Parse a non-negative decimal into an integer scaled by `10 ^ decimals`. -/
def parseScaledDecimal (s : String) (decimals : Nat) : Option Nat :=
  if s.isEmpty then none
  else
    let parts := (splitOnce '.' s.toList).getD (s.toList, [])
    let intStr := parts.1
    let fracStr := parts.2
    if intStr.isEmpty && fracStr.isEmpty then none
    else if !intStr.all Char.isDigit || !fracStr.all Char.isDigit then none
    else if fracStr.length > decimals then none
    else do
      let intVal ← checkedU128 (digitsVal intStr)
      let fracDigits ← checkedU128 (digitsVal fracStr)
      let fracVal ← checkedU128 (fracDigits * 10 ^ (decimals - fracStr.length))
      let scaled ← checkedU128 (intVal * 10 ^ decimals)
      checkedU128 (scaled + fracVal)

/-- `FixedPrice::try_from(&str)`. -/
def FixedPrice.tryFrom (s : String) : Except TypesError FixedPrice :=
  match parseScaledDecimal s 4 with
  | none => .error (.priceParse s)
  | some raw =>
      if h : raw ≤ 10000 then .ok ⟨raw, h⟩ else .error (.invalidPriceValue s)

/-- `FixedSize::try_from(&str)`. -/
def FixedSize.tryFrom (s : String) : Except TypesError FixedSize :=
  match parseScaledDecimal s 6 with
  | none => .error (.sizeParse s)
  | some raw =>
      if h : raw ≤ u64Max then .ok ⟨raw, h⟩ else .error (.sizeParse s)

/-- Left-pad a fraction with zeros to `width` digits. -/
def padFraction (width n : Nat) : String :=
  let digits := Nat.toDigits 10 n
  String.ofList (List.replicate (width - digits.length) '0' ++ digits)

/-- `FixedPrice`'s `Display` text: exactly four fraction digits. -/
def FixedPrice.display (p : FixedPrice) : String :=
  toString (p.raw / 10000) ++ "." ++ padFraction 4 (p.raw % 10000)

/-- `FixedSize`'s `Display` text: exactly six fraction digits. -/
def FixedSize.display (s : FixedSize) : String :=
  toString (s.raw / 1000000) ++ "." ++ padFraction 6 (s.raw % 1000000)

theorem digitsVal_zeros (k : Nat) (digits : List Char) :
    digitsVal (List.replicate k '0' ++ digits) = digitsVal digits := by
  induction k with
  | zero => rfl
  | succ k ih =>
      rw [List.replicate_succ, List.cons_append]
      exact ih

theorem digitsVal_toDigits (n : Nat) : digitsVal (Nat.toDigits 10 n) = n :=
  Nat.ofDigitChars_ten_toDigits

theorem isDigit_toDigits (n : Nat) : ∀ c ∈ Nat.toDigits 10 n, c.isDigit = true :=
  fun _ hc => Nat.isDigit_of_mem_toDigits (by decide) (by decide) hc

/-- A number is read back from its decimals. -/
theorem parseScaledDecimal_display {n decimals : Nat} (hdecimals : 0 < decimals)
    (hn : n < 2 ^ 128) :
    parseScaledDecimal
      (toString (n / 10 ^ decimals) ++ "." ++ padFraction decimals (n % 10 ^ decimals)) decimals =
      some n := by
  have hpow : 0 < 10 ^ decimals := Nat.pow_pos (by decide)
  generalize hq : n / 10 ^ decimals = q
  generalize hr : n % 10 ^ decimals = r
  have hsum : q * 10 ^ decimals + r = n := by
    rw [← hq, ← hr]
    exact Nat.div_add_mod' n (10 ^ decimals)
  have hlen : (Nat.toDigits 10 r).length ≤ decimals := by
    rw [Nat.length_toDigits_le_iff (by decide) hdecimals, ← hr]
    exact Nat.mod_lt _ hpow
  have hparts : splitOnce '.'
      (toString q ++ "." ++ padFraction decimals r).toList =
      some (Nat.toDigits 10 q,
        List.replicate (decimals - (Nat.toDigits 10 r).length) '0' ++ Nat.toDigits 10 r) := by
    have hdot : '.' ∉ Nat.toDigits 10 q := fun h => absurd (isDigit_toDigits q _ h) (by decide)
    rw [← splitOnce_append hdot]
    simp [padFraction]
  generalize hfrac : List.replicate (decimals - (Nat.toDigits 10 r).length) '0' ++
    Nat.toDigits 10 r = frac at hparts
  have hfrac_len : frac.length = decimals := by
    rw [← hfrac, List.length_append, List.length_replicate]
    omega
  have hfrac_val : digitsVal frac = r := by
    rw [← hfrac, digitsVal_zeros, digitsVal_toDigits]
  have hfrac_digits : frac.all Char.isDigit = true := by
    rw [← hfrac, List.all_append, List.all_replicate, List.all_eq_true.mpr (isDigit_toDigits r)]
    simp
  have hint_digits : (Nat.toDigits 10 q).all Char.isDigit = true :=
    List.all_eq_true.mpr (isDigit_toDigits q)
  have hle : q ≤ q * 10 ^ decimals := Nat.le_mul_of_pos_right q hpow
  have hempty : (toString q ++ "." ++ padFraction decimals r).isEmpty = false := by
    simp
  have hint_empty : (Nat.toDigits 10 q).isEmpty = false := by
    simp [Nat.toDigits_ne_nil]
  unfold parseScaledDecimal
  rw [hparts, hempty]
  simp only [Option.getD_some, hint_empty, hint_digits, hfrac_digits, hfrac_len, hfrac_val,
    digitsVal_toDigits]
  have hq_fits : checkedU128 q = some q := if_pos (by omega)
  have hr_fits : checkedU128 r = some r := if_pos (by omega)
  have hscaled_fits : checkedU128 (q * 10 ^ decimals) = some (q * 10 ^ decimals) :=
    if_pos (by omega)
  have hsum_fits : checkedU128 (q * 10 ^ decimals + r) = some n := by
    rw [hsum]
    exact if_pos hn
  simp [hq_fits, hr_fits, hscaled_fits, hsum_fits]

theorem FixedPrice.tryFrom_display (p : FixedPrice) : FixedPrice.tryFrom p.display = .ok p := by
  have hdisplay : p.display =
      toString (p.raw / 10 ^ 4) ++ "." ++ padFraction 4 (p.raw % 10 ^ 4) := rfl
  have hparse : parseScaledDecimal p.display 4 = some p.raw := by
    rw [hdisplay]
    exact parseScaledDecimal_display (by decide) (Nat.lt_of_le_of_lt p.le_scale (by decide))
  rw [tryFrom, hparse]
  exact dif_pos p.le_scale

theorem FixedSize.tryFrom_display (s : FixedSize) : FixedSize.tryFrom s.display = .ok s := by
  have hdisplay : s.display =
      toString (s.raw / 10 ^ 6) ++ "." ++ padFraction 6 (s.raw % 10 ^ 6) := rfl
  have hparse : parseScaledDecimal s.display 6 = some s.raw := by
    rw [hdisplay]
    exact parseScaledDecimal_display (by decide) (Nat.lt_of_le_of_lt s.le_max (by decide))
  rw [tryFrom, hparse]
  exact dif_pos s.le_max

/-- `str::parse::<u64>`: an optional `+`, then digits, within range. -/
def parseU64 (digits : List Char) : Option Nat :=
  let digits := match digits with
    | '+' :: rest => rest
    | all => all
  if digits.isEmpty || !digits.all Char.isDigit then none
  else if digitsVal digits ≤ u64Max then some (digitsVal digits) else none

/-- A number reads back from its decimal digits. -/
theorem parseU64_toDigits {n : Nat} (h : n ≤ u64Max) : parseU64 (Nat.toDigits 10 n) = some n := by
  have hall : (Nat.toDigits 10 n).all Char.isDigit = true :=
    List.all_eq_true.mpr (isDigit_toDigits n)
  unfold parseU64
  split
  · rename_i rest hplus
    have := isDigit_toDigits n '+' (by rw [hplus]; exact List.mem_cons_self)
    cases this
  · simp [hall, digitsVal_toDigits, h, Nat.toDigits_ne_nil]

/-- Normalize a raw timestamp to microseconds, taking its unit from its
magnitude.  Zero stays the "unknown" sentinel. -/
def normalizeToMicros (raw : Nat) : Nat :=
  if raw = 0 then 0
  else if raw < 1000000000000 then min (raw * 1000000) u64Max
  else if raw < 1000000000000000 then min (raw * 1000) u64Max
  else if raw < 1000000000000000000 then raw
  else raw / 1000

/-- `parse_to_micros`. -/
def parseToMicros (ts : Option String) : Option Nat := do
  let text ← ts
  let raw ← parseU64 text.toList
  return normalizeToMicros raw

example : FixedPrice.tryFrom "0.505" = .ok ⟨5050, by decide⟩ := by decide
example : parseToMicros (some "1750000000") = some 1750000000000000 := by decide

/-! Prices in hundredths and sizes in units, for runs on fixed inputs. -/
namespace Sample

instance neZero_cents : NeZero (100 + 1) := ⟨Nat.succ_ne_zero 100⟩

instance neZero_units : NeZero (999 + 1) := ⟨Nat.succ_ne_zero 999⟩

/-- A price in cents, for samples. -/
def price (cents : Fin 101) : FixedPrice := ⟨cents * 100, by omega⟩

/-- A size in whole units, for samples. -/
def size (units : Fin 1000) : FixedSize := ⟨units * 1000000, by unfold u64Max; omega⟩

end Sample

end PolyBook
