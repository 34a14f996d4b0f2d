import Mathlib.Data.String.Basic
import PolyBook.Library.FixedWidth
import PolyBook.Library.Separated
import PolyBook.PartitionHours

/-!
# The order of the hours as texts

A reader that walks the directories of hours from the newest to the oldest compares
their texts.  Up to the end of the year 9999 all fields have a fixed width, and the
texts stand in the order of the hours.
-/

namespace PolyBook

/-- The hours up to the end of the year 9999. -/
def fourDigitHours : Nat := 70389528

theorem toList_padFraction {width n : Nat} (hwidth : 0 < width) (h : n < 10 ^ width) :
    (padFraction width n).toList = FixedWidth.digits width n := by
  rw [padFraction, FixedWidth.digits_eq hwidth h, String.toList_ofList]

/-- A text of one-byte characters. -/
theorem utf8ByteSize_ofList {cs : List Char} (h : ∀ c ∈ cs, c.utf8Size = 1) :
    (String.ofList cs).utf8ByteSize = cs.length := by
  induction cs with
  | nil => rfl
  | cons c cs ih =>
      have hcons : String.ofList (c :: cs) = String.singleton c ++ String.ofList cs := by
        rw [← String.toList_inj]
        simp
      rw [hcons, String.utf8ByteSize_append, String.utf8ByteSize_singleton,
        h c List.mem_cons_self, ih fun d hd => h d (List.mem_cons_of_mem _ hd), List.length_cons,
        Nat.add_comm]

section Texts

variable [Chrono]

/-- The fields of an hour, written one after the other. -/
def hourDigits (year month day hour : Nat) : List Char :=
  FixedWidth.digits 4 year ++ '/' :: (FixedWidth.digits 2 month ++ '/' ::
    (FixedWidth.digits 2 day ++ '/' :: FixedWidth.digits 2 hour))

/-- The text of an hour up to the end of the year 9999. -/
theorem toList_hourText {hour : Nat} (h : hour < fourDigitHours) :
    ∃ year month day : Nat,
      Chrono.date ((hour / 24 : Nat) : Int) = ⟨year, month, day⟩ ∧
        year < 10 ^ 4 ∧ month < 10 ^ 2 ∧ day < 10 ^ 2 ∧
        (hourText ((hour : Int) * 3600)).toList = hourDigits year month day (hour % 24) := by
  unfold fourDigitHours at h
  have hday : (hour : Int) * 3600 / 86400 = ((hour / 24 : Nat) : Int) := by omega
  have hrest : ((hour : Int) * 3600 % 86400 / 3600).toNat = hour % 24 := by omega
  obtain ⟨hyear, hmonth, hdate⟩ := Chrono.date_fields ((hour / 24 : Nat) : Int) (by omega)
    (by unfold Gregorian.lastFourDigitDay; omega)
  unfold hourText
  rw [hday, hrest]
  generalize Chrono.date ((hour / 24 : Nat) : Int) = date at *
  obtain ⟨year, month, day⟩ := date
  dsimp only at hyear hmonth hdate ⊢
  obtain ⟨year, rfl⟩ := Int.eq_ofNat_of_zero_le hyear.1
  have hyearText : yearText (year : Int) = padFraction 4 year := rfl
  refine ⟨year, month, day, rfl, by omega, by omega, by omega, ?_⟩
  rw [hyearText]
  simp only [String.toList_append,
    toList_padFraction (by decide : 0 < 4) (by omega : year < 10 ^ 4),
    toList_padFraction (by decide : 0 < 2) (by omega : month < 10 ^ 2),
    toList_padFraction (by decide : 0 < 2) (by omega : day < 10 ^ 2),
    toList_padFraction (by decide : 0 < 2) (by omega : hour % 24 < 10 ^ 2)]
  simp [hourDigits]

omit [Chrono] in
/-- The texts of two fields of one width, where the first number is the smaller one. -/
theorem field_lt {width m n : Nat} (h : m < n) (hn : n < 10 ^ width) (xs ys : List Char) :
    FixedWidth.digits width m ++ xs < FixedWidth.digits width n ++ ys :=
  FixedWidth.append_lt_append (FixedWidth.digits_lt h hn) (by simp) xs ys

/-- **Earlier hours have smaller texts.** -/
theorem hourText_lt {hour later : Nat} (h : hour < later) (hlater : later < fourDigitHours) :
    hourText ((hour : Int) * 3600) < hourText ((later : Int) * 3600) := by
  obtain ⟨year, month, day, hdate, -, -, -, htext⟩ := toList_hourText (Nat.lt_trans h hlater)
  obtain ⟨year', month', day', hdate', hyear', hmonth', hday', htext'⟩ := toList_hourText hlater
  rw [String.lt_iff_toList_lt, htext, htext']
  unfold fourDigitHours at hlater
  unfold hourDigits
  by_cases hsame : hour / 24 = later / 24
  · rw [hsame, hdate'] at hdate
    obtain ⟨hyears, rfl, rfl⟩ := CivilDate.mk.inj hdate
    obtain rfl : year = year' := by omega
    refine List.append_left_lt (List.cons_lt_cons_self.mpr (List.append_left_lt ?_))
    refine List.cons_lt_cons_self.mpr (List.append_left_lt (List.cons_lt_cons_self.mpr ?_))
    exact FixedWidth.digits_lt (by omega) (by omega)
  · have hbefore := Chrono.date_before ((hour / 24 : Nat) : Int) ((later / 24 : Nat) : Int)
      (by omega) (by omega) (by unfold Gregorian.lastFourDigitDay; omega)
    rw [hdate, hdate'] at hbefore
    rcases hbefore with hyears | ⟨hyears, hmonths | ⟨rfl, hdays⟩⟩
    · exact field_lt (by simpa using hyears) hyear' _ _
    · obtain rfl : year = year' := by simpa using hyears
      refine List.append_left_lt (List.cons_lt_cons_self.mpr ?_)
      exact field_lt hmonths hmonth' _ _
    · obtain rfl : year = year' := by simpa using hyears
      refine List.append_left_lt (List.cons_lt_cons_self.mpr (List.append_left_lt ?_))
      exact List.cons_lt_cons_self.mpr (field_lt hdays hday' _ _)

theorem hourText_injective {hour hour' : Nat} (h : hour < fourDigitHours)
    (h' : hour' < fourDigitHours)
    (heq : hourText ((hour : Int) * 3600) = hourText ((hour' : Int) * 3600)) : hour = hour' := by
  rcases Nat.lt_trichotomy hour hour' with hlt | rfl | hlt
  · exact absurd heq (ne_of_lt (hourText_lt hlt h'))
  · rfl
  · exact absurd heq.symm (ne_of_lt (hourText_lt hlt h))

/-- The text of an hour has the length of `YYYY/MM/DD/HH`. -/
theorem length_hourText {hour : Nat} (h : hour < fourDigitHours) :
    (hourText ((hour : Int) * 3600)).toList.length = 13 := by
  obtain ⟨year, month, day, -, -, -, -, htext⟩ := toList_hourText h
  rw [htext]
  simp [hourDigits]

/-- The length in bytes of `YYYY/MM/DD/HH`. -/
theorem utf8ByteSize_hourText {hour : Nat} (h : hour < fourDigitHours) :
    (hourText ((hour : Int) * 3600)).utf8ByteSize = 13 := by
  obtain ⟨year, month, day, -, -, -, -, htext⟩ := toList_hourText h
  have hascii : ∀ c ∈ hourDigits year month day (hour % 24), c.utf8Size = 1 := by
    intro c hc
    have hslash : '/'.utf8Size = 1 := by decide
    simp only [hourDigits, List.mem_append, List.mem_cons] at hc
    rcases hc with hc | rfl | hc | rfl | hc | rfl | hc
    · exact FixedWidth.utf8Size_of_mem hc
    · exact hslash
    · exact FixedWidth.utf8Size_of_mem hc
    · exact hslash
    · exact FixedWidth.utf8Size_of_mem hc
    · exact hslash
    · exact FixedWidth.utf8Size_of_mem hc
  rw [← String.ofList_toList (s := hourText _), htext, utf8ByteSize_ofList hascii]
  simp [hourDigits]

end Texts

end PolyBook
