import PolyBook.Library.Calendar
import PolyBook.Library.Loop
import PolyBook.RecoveryWriter

/-!
# The directories of hours

A record lies in the directory of the UTC hour of its timestamp.  The writer takes the
hour from the microseconds; a reader starts at the hour of the first timestamp it is
asked for and goes on hour by hour while it is not past the last one.
-/

namespace PolyBook

/-- The `chrono` crate in UTC: the numbers of seconds that are date times, and the dates
of the days counted from 1970-01-01. -/
class Chrono where
  representable : Int → Bool
  date : Int → CivilDate
  representable_of_lt : ∀ secs, 0 ≤ secs → secs < (Gregorian.lastFourDigitDay + 1) * 86400 →
    representable secs = true
  date_before : ∀ d d', 0 ≤ d → d < d' → d' ≤ Gregorian.lastFourDigitDay →
    (date d).Before (date d')
  date_fields : ∀ d, 0 ≤ d → d ≤ Gregorian.lastFourDigitDay →
    (0 ≤ (date d).year ∧ (date d).year ≤ 9999) ∧ (date d).month ≤ 12 ∧ (date d).day ≤ 31

/-- The seconds from the beginning of -262143 to the end of 262142. -/
def inCalendar (secs : Int) : Bool :=
  decide (-8334601228800 ≤ secs) && decide (secs ≤ 8210266876799)

theorem inCalendar_of_lt (secs : Int) (hsecs : 0 ≤ secs)
    (hlast : secs < (Gregorian.lastFourDigitDay + 1) * 86400) : inCalendar secs = true := by
  unfold Gregorian.lastFourDigitDay at hlast
  simp only [inCalendar, Bool.and_eq_true, decide_eq_true_eq]
  omega

theorem gregorian_before (d d' : Int) (hd : 0 ≤ d) (h : d < d')
    (_ : d' ≤ Gregorian.lastFourDigitDay) :
    (Gregorian.dateOfDay d).Before (Gregorian.dateOfDay d') := Gregorian.dateOfDay_before hd h

/-- The Gregorian calendar. -/
abbrev gregorian : Chrono where
  representable := inCalendar
  date := Gregorian.dateOfDay
  representable_of_lt := inCalendar_of_lt
  date_before := gregorian_before
  date_fields := Gregorian.dateOfDay_fields

/-- `as i64`. -/
def asI64 (n : Nat) : Int := if n < 2 ^ 63 then n else (n : Int) - 2 ^ 64

/-- `{:04}` of a year. -/
def yearText : Int → String
  | .ofNat year => padFraction 4 year
  | .negSucc year => "-" ++ padFraction 3 (year + 1)

section Hours

variable [Chrono]

/-- `{:04}/{:02}/{:02}/{:02}` of a date time. -/
def hourText (secs : Int) : String :=
  let date := Chrono.date (secs / 86400)
  yearText date.year ++ "/" ++ padFraction 2 date.month ++ "/" ++ padFraction 2 date.day ++ "/" ++
    padFraction 2 (secs % 86400 / 3600).toNat

/-- The text of `partition_hour_key`. -/
def partitionHourKeyText (partitionTsUs : Nat) : String :=
  if minPlausiblePartitionUs ≤ partitionTsUs ∧ partitionTsUs ≤ maxPlausiblePartitionUs then
    -- `from_timestamp_micros`
    if Chrono.representable (asI64 partitionTsUs / 1000000) then
      hourText (asI64 partitionTsUs / 1000000)
    else "invalid_timestamp"
  else "invalid_timestamp"

/-- `timestamp_opt` of whole seconds, or the beginning of 1970. -/
def timestampOrDefault (timestampUs : Nat) : Int :=
  let secs := (asI64 timestampUs).tdiv 1000000
  if Chrono.representable secs then secs else 0

/-- `and_hms_opt` of the hour. -/
def truncateToHour (secs : Int) : Int := secs / 86400 * 86400 + secs % 86400 / 3600 * 3600

/-- One turn of the loop of `hour_paths`. -/
def hourStep (endNaive : Int) (s : Int × List String) : List String ⊕ (Int × List String) :=
  if s.1 ≤ endNaive then .inr (s.1 + 3600, s.2 ++ [hourText s.1]) else .inl s.2

theorem hourStep_decreases (endNaive : Int) :
    Loop.Decreases (hourStep endNaive) fun s => (endNaive + 3600 - s.1).toNat := by
  intro s s' h
  unfold hourStep at h
  split at h
  · rename_i hle
    rw [← Sum.inr.inj h]
    dsimp only
    omega
  · cases h

/-- The hours that `hour_paths` goes through. -/
def hourKeys (startUs endUs : Nat) : List String :=
  Loop.iterate (hourStep_decreases (timestampOrDefault endUs))
    (truncateToHour (timestampOrDefault startUs), [])

/-- `child_path`. -/
def childPath (basePath suffix : String) : String :=
  if basePath.isEmpty then suffix else basePath ++ "/" ++ suffix

/-- `hour_paths`. -/
def hourPaths (basePath dataset : String) (startUs endUs : Nat) : List String :=
  (hourKeys startUs endUs).map fun hourKey => childPath basePath (dataset ++ "/" ++ hourKey)

/-! ## The hours of a span -/

omit [Chrono] in
theorem truncateToHour_eq (secs : Int) : truncateToHour secs = secs / 3600 * 3600 := by
  unfold truncateToHour
  omega

/-- The loop goes through all hours up to the last one. -/
theorem iterate_hourStep (endNaive hour : Int) (paths : List String) :
    Loop.iterate (hourStep_decreases endNaive) (hour * 3600, paths) =
      paths ++ (List.range (endNaive / 3600 + 1 - hour).toNat).map
        fun i : Nat => hourText ((hour + i) * 3600) := by
  induction hn : (endNaive / 3600 + 1 - hour).toNat generalizing hour paths with
  | zero =>
      have hpast : ¬ hour * 3600 ≤ endNaive := by omega
      rw [Loop.iterate_of_inl _ (show hourStep endNaive (hour * 3600, paths) = .inl paths from
        if_neg hpast), List.range_zero, List.map_nil, List.append_nil]
  | succ n ih =>
      have hin : hour * 3600 ≤ endNaive := by omega
      have hstep : hourStep endNaive (hour * 3600, paths) =
          .inr ((hour + 1) * 3600, paths ++ [hourText (hour * 3600)]) := by
        rw [hourStep, if_pos hin, Int.add_mul, Int.one_mul]
      rw [Loop.iterate_of_inr _ hstep, ih _ _ (by omega), List.append_assoc,
        List.range_succ_eq_map, List.map_cons, List.map_map, List.singleton_append]
      have hfirst : hour + ((0 : Nat) : Int) = hour := by omega
      rw [hfirst]
      congr 2
      apply List.map_congr_left
      intro i _
      dsimp only [Function.comp_apply]
      congr 2
      omega

/-- A plausible timestamp is a date time. -/
theorem timestampOrDefault_eq {timestampUs : Nat} (h : timestampUs ≤ maxPlausiblePartitionUs) :
    timestampOrDefault timestampUs = ((timestampUs / 1000000 : Nat) : Int) := by
  unfold maxPlausiblePartitionUs at h
  have hsigned : asI64 timestampUs = timestampUs := if_pos (by omega)
  have hsecs : (asI64 timestampUs).tdiv 1000000 = ((timestampUs / 1000000 : Nat) : Int) := by
    rw [hsigned]
    rfl
  unfold timestampOrDefault
  rw [hsecs]
  dsimp only
  rw [if_pos]
  exact Chrono.representable_of_lt _ (by omega) (by unfold Gregorian.lastFourDigitDay; omega)

/-- **The hours of a span**: from the hour of its start to the hour of its end. -/
theorem hourKeys_eq {startUs endUs : Nat} (hstart : startUs ≤ maxPlausiblePartitionUs)
    (hend : endUs ≤ maxPlausiblePartitionUs) :
    hourKeys startUs endUs =
      (List.range (endUs / hourUs + 1 - startUs / hourUs)).map
        fun i => hourText (((startUs / hourUs + i : Nat) : Int) * 3600) := by
  simp only [hourKeys, timestampOrDefault_eq hstart, timestampOrDefault_eq hend, truncateToHour_eq,
    iterate_hourStep, List.nil_append]
  unfold hourUs
  have hcount : (((endUs / 1000000 : Nat) : Int) / 3600 + 1 -
      ((startUs / 1000000 : Nat) : Int) / 3600).toNat =
        endUs / 3600000000 + 1 - startUs / 3600000000 := by omega
  rw [hcount]
  apply List.map_congr_left
  intro i _
  have hfirst : ((startUs / 1000000 : Nat) : Int) / 3600 + i =
      ((startUs / 3600000000 + i : Nat) : Int) := by omega
  rw [hfirst]

/-- The text of a plausible timestamp's hour does not depend on where it lies in it. -/
theorem partitionHourKeyText_eq {t : Nat}
    (h : minPlausiblePartitionUs ≤ t ∧ t ≤ maxPlausiblePartitionUs) :
    partitionHourKeyText t = hourText (((t / hourUs : Nat) : Int) * 3600) := by
  have hmax := h.2
  unfold maxPlausiblePartitionUs at hmax
  have hsigned : asI64 t = t := if_pos (by omega)
  have hsecs : asI64 t / 1000000 = ((t / 1000000 : Nat) : Int) := by
    rw [hsigned]
    rfl
  have hrepresentable : Chrono.representable (asI64 t / 1000000) = true :=
    Chrono.representable_of_lt _ (by omega) (by unfold Gregorian.lastFourDigitDay; omega)
  rw [partitionHourKeyText, if_pos h, if_pos hrepresentable, hsecs]
  unfold hourText hourUs
  have hday : ((t / 1000000 : Nat) : Int) / 86400 =
      ((t / 3600000000 : Nat) : Int) * 3600 / 86400 := by omega
  have hhour : ((t / 1000000 : Nat) : Int) % 86400 / 3600 =
      ((t / 3600000000 : Nat) : Int) * 3600 % 86400 / 3600 := by omega
  rw [hday, hhour]

/-- The text of a partition. -/
def HourKey.text : HourKey → String
  | .hour number => hourText ((number : Int) * 3600)
  | .invalidTimestamp => "invalid_timestamp"

theorem partitionHourKeyText_eq_text (t : Nat) :
    partitionHourKeyText t = (partitionHourKey t).text := by
  by_cases h : minPlausiblePartitionUs ≤ t ∧ t ≤ maxPlausiblePartitionUs
  · rw [partitionHourKeyText_eq h, partitionHourKey, if_pos h, HourKey.text]
  · rw [partitionHourKeyText, partitionHourKey, if_neg h, if_neg h, HourKey.text]

/-- **Every written partition is searched.** -/
theorem every_partition_searched (basePath dataset : String) {startUs endUs t : Nat}
    (hend : endUs ≤ maxPlausiblePartitionUs) (hstart : startUs ≤ t) (ht : t ≤ endUs)
    (hmin : minPlausiblePartitionUs ≤ t) :
    childPath basePath (dataset ++ "/" ++ partitionHourKeyText t) ∈
      hourPaths basePath dataset startUs endUs := by
  have hfirst : startUs / hourUs ≤ t / hourUs := Nat.div_le_div_right hstart
  have hlast : t / hourUs ≤ endUs / hourUs := Nat.div_le_div_right ht
  refine List.mem_map.mpr ⟨_, ?_, rfl⟩
  rw [partitionHourKeyText_eq ⟨hmin, by omega⟩, hourKeys_eq (by omega) hend, List.mem_map]
  refine ⟨t / hourUs - startUs / hourUs, List.mem_range.mpr (by omega), ?_⟩
  rw [Nat.add_sub_cancel' hfirst]

end Hours

/-- The last hour of a year, searched from the middle of it to the next year. -/
theorem every_partition_searched_at_new_year :
    @partitionHourKeyText gregorian 1767225599999999 = "2025/12/31/23" ∧
      "data/book_events/2025/12/31/23" ∈
        @hourPaths gregorian "data" "book_events" 1767225000000000 1767225600000000 := by
  have hkey : @partitionHourKeyText gregorian 1767225599999999 = "2025/12/31/23" := by
    decide +kernel
  refine ⟨hkey, ?_⟩
  have hsearched := @every_partition_searched gregorian "data" "book_events" 1767225000000000
    1767225600000000 1767225599999999 (by decide) (by decide) (by decide) (by decide)
  rw [hkey] at hsearched
  exact hsearched

end PolyBook
