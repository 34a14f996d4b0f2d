import Mathlib.Data.Rat.Cast.Order
import PolyBook.FixedPoint
import PolyBook.Library.PlaceValue

/-!
# Exactness of the decimal parser

What a decimal text is and which rational number it denotes, said without the parser;
then, for prices and sizes, that the parser accepts exactly the decimal texts whose
scaled value is within bounds, and returns that value.  The checked `u128` steps of
the parser never decide anything else: each intermediate result is at most the final
one.
-/

namespace PolyBook

/-- The text before the first point. -/
def wholeText (s : String) : List Char := s.toList.takeWhile fun c => decide (c ≠ '.')

/-- The text after the first point. -/
def fractionText (s : String) : List Char :=
  (s.toList.dropWhile fun c => decide (c ≠ '.')).drop 1

/-- Digits with at most one point among them, at least one digit, and not too many
after the point. -/
structure DecimalText (places : Nat) (s : String) : Prop where
  chars : ∀ c ∈ s.toList, c.isDigit = true ∨ c = '.'
  onePoint : s.toList.count '.' ≤ 1
  someDigit : ∃ c ∈ s.toList, c.isDigit = true
  fits : (fractionText s).length ≤ places

/-- The value of an ASCII digit. -/
def digitValue (c : Char) : Nat := c.toNat - '0'.toNat

/-- The rational number a decimal text denotes. -/
def decimalValue (s : String) : ℚ :=
  PlaceValue.whole 10 ((wholeText s).map digitValue) +
    PlaceValue.fraction 10 ((fractionText s).map digitValue)

theorem digitsVal_eq_number (digits : List Char) :
    digitsVal digits = PlaceValue.number 10 (digits.map digitValue) := by
  rw [digitsVal, PlaceValue.number, List.foldl_map]
  rfl

/-! ## The two parts -/

/-- `split_once` at the point, with its default. -/
theorem splitOnce_getD (c : Char) (xs : List Char) :
    (splitOnce c xs).getD (xs, []) =
      (xs.takeWhile fun x => decide (x ≠ c), (xs.dropWhile fun x => decide (x ≠ c)).drop 1) := by
  induction xs with
  | nil => rfl
  | cons x xs ih =>
      by_cases hx : x = c
      · simp [splitOnce, hx]
      · rw [splitOnce, if_neg hx, List.takeWhile_cons_of_pos (by simpa using hx),
          List.dropWhile_cons_of_pos (by simpa using hx)]
        cases hsplit : splitOnce c xs with
        | none =>
            rw [hsplit, Option.getD_none, Prod.mk.injEq] at ih
            rw [Option.map_none, Option.getD_none, ← ih.1, ← ih.2]
        | some parts =>
            rw [hsplit, Option.getD_some] at ih
            rw [Option.map_some, Option.getD_some, ih]

/-- The text is its two parts, with the point between them if there is one. -/
theorem text_cases (s : String) :
    ('.' ∉ wholeText s) ∧ (s.toList = wholeText s ∧ fractionText s = [] ∨
      s.toList = wholeText s ++ '.' :: fractionText s) := by
  unfold wholeText fractionText
  generalize s.toList = xs
  induction xs with
  | nil => simp
  | cons x xs ih =>
      by_cases hx : x = '.'
      · simp [hx]
      · rw [List.takeWhile_cons_of_pos (by simpa using hx),
          List.dropWhile_cons_of_pos (by simpa using hx)]
        obtain ⟨hpoint, hparts⟩ := ih
        refine ⟨List.not_mem_cons_of_ne_of_not_mem (Ne.symm hx) hpoint, ?_⟩
        rcases hparts with ⟨heq, hnil⟩ | heq
        · exact Or.inl ⟨by rw [← heq], hnil⟩
        · exact Or.inr (by rw [List.cons_append, ← heq])

theorem point_notMem_of_digits {xs : List Char} (h : ∀ c ∈ xs, c.isDigit = true) :
    xs.count '.' = 0 :=
  List.count_eq_zero_of_not_mem fun hmem => absurd (h '.' hmem) (by decide)

/-- What the parser checks of the two parts is what makes a decimal text. -/
theorem decimalText_iff (places : Nat) (s : String) :
    DecimalText places s ↔
      ((∀ c ∈ wholeText s, c.isDigit = true) ∧ ∀ c ∈ fractionText s, c.isDigit = true) ∧
        (wholeText s ≠ [] ∨ fractionText s ≠ []) ∧ (fractionText s).length ≤ places := by
  obtain ⟨hpoint, hparts⟩ := text_cases s
  have hwholeMem : ∀ c ∈ wholeText s, c ∈ s.toList := by
    intro c hc
    rcases hparts with ⟨heq, -⟩ | heq
    · rwa [heq]
    · rw [heq]
      exact List.mem_append_left _ hc
  have hfractionMem : ∀ c ∈ fractionText s, c ∈ s.toList := by
    intro c hc
    rcases hparts with ⟨-, hnil⟩ | heq
    · rw [hnil] at hc
      cases hc
    · rw [heq]
      exact List.mem_append_right _ (List.mem_cons_of_mem _ hc)
  constructor
  · intro h
    refine ⟨⟨fun c hc => ?_, fun c hc => ?_⟩, ?_, h.fits⟩
    · rcases h.chars c (hwholeMem c hc) with hdigit | hdot
      · exact hdigit
      · exact absurd (hdot ▸ hc) hpoint
    · rcases h.chars c (hfractionMem c hc) with hdigit | hdot
      · exact hdigit
      · rcases hparts with ⟨-, hnil⟩ | heq
        · rw [hnil] at hc
          cases hc
        · -- A second point would stand behind the first.
          have hcount := h.onePoint
          have hsecond : 0 < (fractionText s).count '.' := List.count_pos_iff.mpr (hdot ▸ hc)
          rw [heq, List.count_append, List.count_cons_self] at hcount
          omega
    · obtain ⟨c, hc, hdigit⟩ := h.someDigit
      rcases hparts with ⟨heq, -⟩ | heq
      · rw [heq] at hc
        exact Or.inl (List.ne_nil_of_mem hc)
      · rw [heq, List.mem_append, List.mem_cons] at hc
        rcases hc with hc | rfl | hc
        · exact Or.inl (List.ne_nil_of_mem hc)
        · exact absurd hdigit (by decide)
        · exact Or.inr (List.ne_nil_of_mem hc)
  · rintro ⟨⟨hwhole, hfraction⟩, hsome, hfits⟩
    refine ⟨fun c hc => ?_, ?_, ?_, hfits⟩
    · rcases hparts with ⟨heq, -⟩ | heq
      · exact Or.inl (hwhole c (heq ▸ hc))
      · rw [heq, List.mem_append, List.mem_cons] at hc
        rcases hc with hc | rfl | hc
        · exact Or.inl (hwhole c hc)
        · exact Or.inr rfl
        · exact Or.inl (hfraction c hc)
    · rcases hparts with ⟨heq, -⟩ | heq
      · rw [heq, point_notMem_of_digits hwhole]
        exact Nat.zero_le 1
      · rw [heq, List.count_append, List.count_cons_self, point_notMem_of_digits hwhole,
          point_notMem_of_digits hfraction]
    · rcases hsome with hne | hne
      · obtain ⟨c, hc⟩ := List.exists_mem_of_ne_nil _ hne
        exact ⟨c, hwholeMem c hc, hwhole c hc⟩
      · obtain ⟨c, hc⟩ := List.exists_mem_of_ne_nil _ hne
        exact ⟨c, hfractionMem c hc, hfraction c hc⟩

/-! ## The parser -/

/-- The scaled number as the parser computes it, without its range checks. -/
def scaledNumber (s : String) (decimals : Nat) : Nat :=
  digitsVal (wholeText s) * 10 ^ decimals +
    digitsVal (fractionText s) * 10 ^ (decimals - (fractionText s).length)

theorem decimalValue_scaled {decimals : Nat} {s : String} (h : DecimalText decimals s) :
    decimalValue s * 10 ^ decimals = scaledNumber s decimals := by
  have hfits : ((fractionText s).map digitValue).length ≤ decimals := by
    rw [List.length_map]
    exact h.fits
  have hten : ((10 : ℕ) : ℚ) ≠ 0 := by norm_num
  have hscaled := PlaceValue.scaled_value hten ((wholeText s).map digitValue) hfits
  rw [List.length_map, ← digitsVal_eq_number, ← digitsVal_eq_number] at hscaled
  exact_mod_cast hscaled

theorem checkedU128_eq_some {n m : Nat} : checkedU128 n = some m ↔ n < 2 ^ 128 ∧ n = m := by
  simp [checkedU128]

/-- The checks along the way decide nothing: each result is at most the sum. -/
theorem checked_steps (a b : Nat) {p q : Nat} (hp : 0 < p) (hq : 0 < q) :
    (do
      let intVal ← checkedU128 a
      let fracDigits ← checkedU128 b
      let fracVal ← checkedU128 (fracDigits * p)
      let scaled ← checkedU128 (intVal * q)
      checkedU128 (scaled + fracVal)) = checkedU128 (a * q + b * p) := by
  have ha : a ≤ a * q := Nat.le_mul_of_pos_right a hq
  have hb : b ≤ b * p := Nat.le_mul_of_pos_right b hp
  by_cases hsum : a * q + b * p < 2 ^ 128
  · have ha_fits : checkedU128 a = some a := if_pos (by omega)
    have hb_fits : checkedU128 b = some b := if_pos (by omega)
    have hfrac_fits : checkedU128 (b * p) = some (b * p) := if_pos (by omega)
    have hscaled_fits : checkedU128 (a * q) = some (a * q) := if_pos (by omega)
    simp [ha_fits, hb_fits, hfrac_fits, hscaled_fits]
  · have hnone : checkedU128 (a * q + b * p) = none := if_neg hsum
    rw [hnone]
    unfold checkedU128 at hnone ⊢
    grind

/-- **The parser accepts the decimal texts whose scaled value fits `u128`**, and gives
that value. -/
theorem parseScaledDecimal_eq_some (s : String) (decimals n : Nat) :
    parseScaledDecimal s decimals = some n ↔
      DecimalText decimals s ∧ scaledNumber s decimals < 2 ^ 128 ∧
        scaledNumber s decimals = n := by
  have hparts : (splitOnce '.' s.toList).getD (s.toList, []) = (wholeText s, fractionText s) :=
    splitOnce_getD '.' s.toList
  have hempty : s.isEmpty = true → wholeText s = [] ∧ fractionText s = [] := by
    intro h
    rw [String.isEmpty_iff.mp h]
    exact ⟨rfl, rfl⟩
  have hpow : ∀ k, 0 < 10 ^ k := fun k => Nat.pow_pos (by decide)
  unfold parseScaledDecimal
  rw [hparts, decimalText_iff, scaledNumber]
  dsimp only
  rw [checked_steps _ _ (hpow _) (hpow _)]
  generalize wholeText s = whole at *
  generalize fractionText s = frac at *
  by_cases hs : s.isEmpty = true
  · simp [hs, hempty hs]
  by_cases hnil : whole = [] ∧ frac = []
  · simp [hs, hnil]
  have hsome : whole ≠ [] ∨ frac ≠ [] := not_and_or.mp hnil
  have hnil' : (whole.isEmpty && frac.isEmpty) = false := by
    simpa [List.isEmpty_iff] using hnil
  by_cases hdigits : (∀ c ∈ whole, c.isDigit = true) ∧ ∀ c ∈ frac, c.isDigit = true
  · have hall : (!whole.all Char.isDigit || !frac.all Char.isDigit) = false := by
      rw [List.all_eq_true.mpr hdigits.1, List.all_eq_true.mpr hdigits.2]
      rfl
    rw [if_neg hs, hnil', hall]
    by_cases hlength : frac.length ≤ decimals
    · rw [if_neg Bool.false_ne_true, if_neg Bool.false_ne_true,
        if_neg (Nat.not_lt.mpr hlength), checkedU128_eq_some]
      exact ⟨fun h => ⟨⟨hdigits, hsome, hlength⟩, h⟩, fun h => h.2⟩
    · rw [if_pos (Nat.lt_of_not_le hlength)]
      simp [hlength]
  · have hall : (!whole.all Char.isDigit || !frac.all Char.isDigit) = true := by
      rw [← Bool.not_and, Bool.not_eq_true', Bool.and_eq_false_iff]
      rw [not_and_or] at hdigits
      simpa [List.all_eq_true] using hdigits
    rw [if_neg hs, hnil', hall]
    simp [hdigits]

/-! ## Prices and sizes -/

/-- What it means for a parser into a bounded number type to be exact. -/
structure ExactParser {Fixed Error : Type} (tryFrom : String → Except Error Fixed)
    (raw : Fixed → Nat) (display : Fixed → String) (places bound : Nat) : Prop where
  accepts : ∀ s, (∃ value, tryFrom s = .ok value) ↔
    DecimalText places s ∧ decimalValue s * 10 ^ places ≤ bound
  exact : ∀ s value, tryFrom s = .ok value → (raw value : ℚ) = decimalValue s * 10 ^ places
  displayed : ∀ value, tryFrom (display value) = .ok value

/-- A parser that checks the scaled number against a bound within `u128` is exact. -/
theorem ExactParser.of_parse {Fixed Error : Type} {tryFrom : String → Except Error Fixed}
    {raw : Fixed → Nat} {display : Fixed → String} {places bound : Nat} (hbound : bound < 2 ^ 128)
    (hraw : ∀ n, n ≤ bound ↔ ∃ value, raw value = n)
    (hparse : ∀ s value, tryFrom s = .ok value ↔ parseScaledDecimal s places = some (raw value))
    (hdisplay : ∀ value, tryFrom (display value) = .ok value) :
    ExactParser tryFrom raw display places bound where
  accepts := by
    intro s
    constructor
    · rintro ⟨value, hvalue⟩
      obtain ⟨htext, -, hnumber⟩ :=
        (parseScaledDecimal_eq_some s places _).mp ((hparse s value).mp hvalue)
      refine ⟨htext, ?_⟩
      rw [decimalValue_scaled htext, hnumber]
      exact_mod_cast (hraw (raw value)).mpr ⟨value, rfl⟩
    · rintro ⟨htext, hle⟩
      rw [decimalValue_scaled htext] at hle
      have hnumber : scaledNumber s places ≤ bound := by exact_mod_cast hle
      obtain ⟨value, hvalue⟩ := (hraw _).mp hnumber
      refine ⟨value, (hparse s value).mpr ?_⟩
      rw [parseScaledDecimal_eq_some]
      exact ⟨htext, Nat.lt_of_le_of_lt hnumber hbound, hvalue.symm⟩
  exact := by
    intro s value hvalue
    obtain ⟨htext, -, hnumber⟩ :=
      (parseScaledDecimal_eq_some s places _).mp ((hparse s value).mp hvalue)
    rw [decimalValue_scaled htext, hnumber]
  displayed := hdisplay

theorem FixedPrice.tryFrom_eq_ok (s : String) (p : FixedPrice) :
    FixedPrice.tryFrom s = .ok p ↔ parseScaledDecimal s 4 = some p.raw := by
  unfold FixedPrice.tryFrom
  cases parseScaledDecimal s 4 with
  | none => simp
  | some raw =>
      by_cases hraw : raw ≤ 10000
      · simp only [dif_pos hraw, Except.ok.injEq, Option.some.injEq]
        exact ⟨fun h => h ▸ rfl, fun h => FixedPrice.eq_of_raw h⟩
      · have hne : raw ≠ p.raw := fun h => hraw (h ▸ p.le_scale)
        simp [hraw, hne]

theorem FixedSize.tryFrom_eq_ok (s : String) (size : FixedSize) :
    FixedSize.tryFrom s = .ok size ↔ parseScaledDecimal s 6 = some size.raw := by
  unfold FixedSize.tryFrom
  cases parseScaledDecimal s 6 with
  | none => simp
  | some raw =>
      by_cases hraw : raw ≤ u64Max
      · simp only [dif_pos hraw, Except.ok.injEq, Option.some.injEq]
        exact ⟨fun h => h ▸ rfl, fun h => FixedSize.eq_of_raw h⟩
      · have hne : raw ≠ size.raw := fun h => hraw (h ▸ size.le_max)
        simp [hraw, hne]

/-- **Prices and sizes are parsed exactly.**  A text is accepted when it is a decimal
text whose value times the scale is within the bound, and then gives that integer;
every `Display` text reads back. -/
theorem fixed_point_exact :
    ExactParser FixedPrice.tryFrom FixedPrice.raw FixedPrice.display 4 10000 ∧
      ExactParser FixedSize.tryFrom FixedSize.raw FixedSize.display 6 u64Max := by
  constructor
  · exact ExactParser.of_parse (by decide)
      (fun n => ⟨fun h => ⟨⟨n, h⟩, rfl⟩, fun ⟨p, hp⟩ => hp ▸ p.le_scale⟩)
      FixedPrice.tryFrom_eq_ok FixedPrice.tryFrom_display
  · exact ExactParser.of_parse (by decide)
      (fun n => ⟨fun h => ⟨⟨n, h⟩, rfl⟩, fun ⟨size, hsize⟩ => hsize ▸ size.le_max⟩)
      FixedSize.tryFrom_eq_ok FixedSize.tryFrom_display

end PolyBook
