import Mathlib.Data.List.Sort
import PolyBook.Wal.CommittedPosition

/-!
# What pruning keeps

`prune` deletes the sealed segments every consumer is past;
`prune_with_backpressure` keeps a window of them besides, bounded by a byte budget
and by a count of segments.  `retentionCutoff_le_iff` says which sealed segments
are in the window, each by its own size and by what is sealed after it.

The window ends before the segment that takes it past the budget, so it holds less
than the budget unless the sizes add up to it: `keepsWindow_iff`.
-/

namespace PolyBook.Wal

theorem Dir.keys_sorted (dir : Dir) : dir.keys.Pairwise (· < ·) :=
  Std.ExtTreeMap.ordered_keys.imp Nat.compare_eq_lt.mp

/-- The segments that a deletion by id leaves. -/
theorem Dir.keys_of_cut {dir kept : Dir} {cut : Nat}
    (h : ∀ id, kept[id]? = if id < cut then none else dir[id]?) :
    kept.keys = dir.keys.filter fun id => cut ≤ id := by
  have hfiltered : (dir.keys.filter fun id => cut ≤ id).Pairwise (· < ·) :=
    dir.keys_sorted.filter _
  apply kept.keys_sorted.eq_of_mem_iff hfiltered
  intro id
  rw [List.mem_filter, TreeMapLookup.mem_keys_iff, TreeMapLookup.mem_keys_iff, h]
  by_cases hid : id < cut
  · simp [hid]
  · simp [hid, Nat.le_of_not_lt hid]

namespace WalWriter

variable (w : WalWriter) (dir : Dir)

/-- The sealed segments on disk that are newer than a segment. -/
def sealedAfter (id : Nat) : List Nat :=
  dir.keys.filter fun other => id < other && other < w.active.id

/-- The length of some segment files together. -/
def bytesOf (ids : List Nat) : Nat := (ids.map fun id => (dir.contents id).length).sum

@[simp] theorem bytesOf_nil : bytesOf dir [] = 0 := rfl

@[simp] theorem bytesOf_cons (id : Nat) (ids : List Nat) :
    bytesOf dir (id :: ids) = (dir.contents id).length + bytesOf dir ids := by
  simp [bytesOf]

theorem bytesOf_le_of_sublist {ids ids' : List Nat} (h : ids.Sublist ids') :
    bytesOf dir ids ≤ bytesOf dir ids' := by
  induction h with
  | slnil => exact Nat.le_refl _
  | cons id h ih =>
      rw [bytesOf_cons]
      omega
  | cons_cons id h ih =>
      rw [bytesOf_cons, bytesOf_cons]
      omega

/-- The byte budget holds the segment and all that is sealed after it, and the
count cap leaves room for it. -/
def InWindow (id : Nat) : Prop :=
  (dir.contents id).length + bytesOf dir (w.sealedAfter dir id) ≤ w.config.maxConsumerLagBytes ∧
    (w.sealedAfter dir id).length + 1 < w.config.maxSegments

/-! ## The retention window -/

theorem retentionLoop_le {ids : List Nat} {bytes count cutoff : Nat}
    (h : ∀ id ∈ ids, id < w.active.id → id ≤ cutoff) (hsorted : ids.Pairwise (· > ·)) :
    w.retentionLoop dir ids bytes count cutoff ≤ cutoff := by
  induction ids generalizing bytes count cutoff with
  | nil => exact Nat.le_refl _
  | cons id ids ih =>
      obtain ⟨hhead, htail⟩ := List.pairwise_cons.mp hsorted
      have hrest : ∀ other ∈ ids, other < w.active.id → other ≤ cutoff :=
        fun other hmem => h other (List.mem_cons_of_mem id hmem)
      unfold retentionLoop
      by_cases hactive : w.active.id ≤ id
      · rw [if_pos hactive]
        exact ih hrest htail
      · rw [if_neg hactive]
        have hid : id ≤ cutoff := h id List.mem_cons_self (Nat.lt_of_not_le hactive)
        by_cases hcap : w.config.maxSegments ≤ count
        · rw [if_pos hcap]
        · rw [if_neg hcap]
          by_cases hbytes : bytes + (dir.contents id).length ≤ w.config.maxConsumerLagBytes
          · simp only [if_pos hbytes]
            have hloop : w.retentionLoop dir ids (bytes + (dir.contents id).length) (count + 1) id ≤
                id := ih (fun other hmem _ => Nat.le_of_lt (hhead other hmem)) htail
            omega
          · simp only [if_neg hbytes]
            exact Nat.le_refl _

/-- The loop goes on as long as both bounds hold, so it reaches a segment exactly
when they hold for all segments on the way to it. -/
theorem retentionLoop_le_iff {ids : List Nat} (hsorted : ids.Pairwise (· > ·))
    {bytes count cutoff : Nat} (hcutoff : ∀ id ∈ ids, id < w.active.id → id < cutoff) {x : Nat}
    (hx : x ∈ ids) (hsealed : x < w.active.id) :
    w.retentionLoop dir ids bytes count cutoff ≤ x ↔
      bytes + ((dir.contents x).length +
          bytesOf dir (ids.filter fun other => x < other && other < w.active.id)) ≤
        w.config.maxConsumerLagBytes ∧
      count + (ids.filter fun other => x < other && other < w.active.id).length <
        w.config.maxSegments := by
  induction ids generalizing bytes count cutoff with
  | nil => cases hx
  | cons id ids ih =>
      obtain ⟨hhead, htail⟩ := List.pairwise_cons.mp hsorted
      unfold retentionLoop
      by_cases hactive : w.active.id ≤ id
      · have hne : x ≠ id := by omega
        have hmem : x ∈ ids := (List.mem_cons.mp hx).resolve_left hne
        rw [if_pos hactive, List.filter_cons_of_neg (by simp; omega)]
        exact ih htail (fun other ho => hcutoff other (List.mem_cons_of_mem id ho)) hmem
      · rw [if_neg hactive]
        have hbelow : x < cutoff := hcutoff x hx hsealed
        by_cases hcap : w.config.maxSegments ≤ count
        · rw [if_pos hcap]
          omega
        · rw [if_neg hcap]
          rcases List.mem_cons.mp hx with rfl | hmem
          · have hnewer : ((x :: ids).filter fun other => x < other && other < w.active.id) =
                [] := by
              apply List.filter_eq_nil_iff.mpr
              intro other hother
              rcases List.mem_cons.mp hother with rfl | hother
              · simp
              · have := hhead other hother
                simp
                omega
            rw [hnewer]
            by_cases hbytes : bytes + (dir.contents x).length ≤ w.config.maxConsumerLagBytes
            · simp only [if_pos hbytes, bytesOf_nil, List.length_nil]
              have hloop : w.retentionLoop dir ids (bytes + (dir.contents x).length) (count + 1) x ≤
                  x :=
                w.retentionLoop_le dir (fun other ho _ => Nat.le_of_lt (hhead other ho)) htail
              omega
            · simp only [if_neg hbytes, bytesOf_nil, List.length_nil]
              omega
          · have hlt : x < id := hhead x hmem
            rw [List.filter_cons_of_pos (by simp; omega), bytesOf_cons, List.length_cons]
            by_cases hbytes : bytes + (dir.contents id).length ≤ w.config.maxConsumerLagBytes
            · simp only [if_pos hbytes]
              rw [ih htail (fun other ho _ => hhead other ho) hmem]
              omega
            · simp only [if_neg hbytes]
              omega

theorem retentionCutoff_le : w.retentionCutoff dir ≤ w.active.id := by
  apply retentionLoop_le
  · exact fun id _ hid => Nat.le_of_lt hid
  · exact List.pairwise_reverse.mpr dir.keys_sorted

/-- **The sealed segments from the cutoff on are those in the window.** -/
theorem retentionCutoff_le_iff {id : Nat} (hid : id ∈ dir.keys) (hsealed : id < w.active.id) :
    w.retentionCutoff dir ≤ id ↔ w.InWindow dir id := by
  have hsorted : dir.keys.reverse.Pairwise (· > ·) :=
    List.pairwise_reverse.mpr dir.keys_sorted
  have hloop := @retentionLoop_le_iff w dir dir.keys.reverse hsorted 0 1 w.active.id
    (fun other _ hother => hother) id (List.mem_reverse.mpr hid) hsealed
  have hbytes :
      bytesOf dir (w.sealedAfter dir id).reverse = bytesOf dir (w.sealedAfter dir id) := by
    rw [bytesOf, List.map_reverse, List.sum_reverse, bytesOf]
  rw [List.filter_reverse] at hloop
  change _ ↔ 0 + (_ + bytesOf dir (w.sealedAfter dir id).reverse) ≤ _ ∧
    1 + (w.sealedAfter dir id).reverse.length < _ at hloop
  rw [hbytes, List.length_reverse] at hloop
  unfold retentionCutoff InWindow
  rw [hloop]
  omega

/-! ## What the consumers hold back -/

/-- The position files, from the position of each consumer; `none` is a consumer
that has not committed one. -/
def positionFiles (consumers : List (Option WalPosition)) : List (Option String) :=
  consumers.map (·.map WalPosition.content)

theorem minConsumerSegment_positionFiles (consumers : List (Option WalPosition)) :
    w.minConsumerSegment (positionFiles consumers) =
      w.minConsumerLoop (positionFiles consumers) u64Max := by
  cases consumers with
  | nil => simp [positionFiles, minConsumerSegment, minConsumerLoop]
  | cons consumer consumers => simp [positionFiles, minConsumerSegment]

/-- A consumer without a position file holds back everything. -/
theorem minConsumerLoop_of_missing {files : List (Option String)} (h : none ∈ files)
    (minSeg : Nat) : w.minConsumerLoop files minSeg = 0 := by
  induction files generalizing minSeg with
  | nil => cases h
  | cons file files ih =>
      cases file with
      | none => rfl
      | some content =>
          have hrest : none ∈ files := by simpa using h
          unfold minConsumerLoop
          split
          · exact ih hrest _
          · rfl

/-- Below the active segment the minimum is that of the segments read so far. -/
theorem min_minConsumerLoop_le (hactive : w.active.id ≤ u64Max) (files : List (Option String))
    (minSeg : Nat) : min w.active.id (w.minConsumerLoop files minSeg) ≤ minSeg := by
  induction files generalizing minSeg with
  | nil =>
      unfold minConsumerLoop
      split
      · omega
      · omega
  | cons file files ih =>
      cases file with
      | none => exact Nat.le_trans (Nat.min_le_right _ _) (Nat.zero_le _)
      | some content =>
          unfold minConsumerLoop
          split
          · exact Nat.le_trans (ih _) (Nat.min_le_left _ _)
          · exact Nat.le_trans (Nat.min_le_right _ _) (Nat.zero_le _)

theorem min_minConsumerLoop_le_of_mem (hactive : w.active.id ≤ u64Max)
    {files : List (Option String)} {content : String} (hmem : some content ∈ files) {segId : Nat}
    (hparse : parsePositionSegment content = some segId) (minSeg : Nat) :
    min w.active.id (w.minConsumerLoop files minSeg) ≤ segId := by
  induction files generalizing minSeg with
  | nil => cases hmem
  | cons file files ih =>
      rcases List.mem_cons.mp hmem with rfl | hrest
      · simp only [minConsumerLoop, hparse]
        exact Nat.le_trans (w.min_minConsumerLoop_le hactive files _) (Nat.min_le_right _ _)
      · cases file with
        | none => exact Nat.le_trans (Nat.min_le_right _ _) (Nat.zero_le _)
        | some other =>
            unfold minConsumerLoop
            split
            · exact ih hrest _
            · exact Nat.le_trans (Nat.min_le_right _ _) (Nat.zero_le _)

/-- Consumers that have all reached the active segment hold nothing back. -/
theorem minConsumerLoop_of_reached {files : List (Option String)}
    (h : ∀ file ∈ files, file.bind parsePositionSegment = some w.active.id) {minSeg : Nat}
    (hmin : minSeg = u64Max ∨ minSeg = w.active.id) (hactive : w.active.id ≤ u64Max) :
    w.minConsumerLoop files minSeg = w.active.id := by
  induction files generalizing minSeg with
  | nil =>
      unfold minConsumerLoop
      split
      · rfl
      · omega
  | cons file files ih =>
      have hfile := h file List.mem_cons_self
      cases file with
      | none => cases hfile
      | some content =>
          have hparse : parsePositionSegment content = some w.active.id := hfile
          simp only [minConsumerLoop, hparse]
          apply ih fun other hother => h other (List.mem_cons_of_mem _ hother)
          omega

end WalWriter

/-- The segment of a committed position reads back. -/
theorem parsePositionSegment_content {position : WalPosition}
    (h : position.segmentId ≤ u64Max) :
    parsePositionSegment position.content = some position.segmentId := by
  obtain ⟨htrim, hcolon⟩ := position.trim_content
  simp only [parsePositionSegment, Option.bind_eq_bind, htrim, splitOnce_append hcolon,
    Option.bind_some, parseU64_toDigits h]

/-- What a prune may delete: the first segments, and of these none that is active
or that a consumer still needs. -/
structure PrunedSafely (w : WalWriter) (consumers : List (Option WalPosition))
    (dir kept : Dir) : Prop where
  first : ∃ cut : Nat, ∀ id, kept[id]? = if id < cut then none else dir[id]?
  active : ∀ id, w.active.id ≤ id → kept[id]? = dir[id]?
  committed : ∀ position, some position ∈ consumers →
    ∀ id, position.segmentId ≤ id → kept[id]? = dir[id]?
  missing : none ∈ consumers → ∀ id : Nat, kept[id]? = dir[id]?

namespace PrunedSafely

variable {w : WalWriter} {consumers : List (Option WalPosition)} {dir kept : Dir}

/-- A prune up to the minimum of the consumers. -/
theorem of_cut {cut : Nat} (hactive : w.active.id ≤ u64Max)
    (hcommitted : ∀ position, some position ∈ consumers → position.segmentId ≤ u64Max)
    (hcut : cut ≤ min w.active.id (w.minConsumerSegment (WalWriter.positionFiles consumers)))
    (hkept : ∀ id, kept[id]? = if id < cut then none else dir[id]?) :
    PrunedSafely w consumers dir kept := by
  rw [w.minConsumerSegment_positionFiles] at hcut
  refine ⟨⟨cut, hkept⟩, fun id hid => ?_, fun position hmem id hid => ?_, fun hmem id => ?_⟩
  · rw [hkept, if_neg (by omega)]
  · have hfile : some position.content ∈ WalWriter.positionFiles consumers :=
      List.mem_map.mpr ⟨some position, hmem, rfl⟩
    have hle := w.min_minConsumerLoop_le_of_mem hactive hfile
      (parsePositionSegment_content (hcommitted position hmem)) u64Max
    rw [hkept, if_neg (by omega)]
  · have hfile : none ∈ WalWriter.positionFiles consumers := List.mem_map.mpr ⟨none, hmem, rfl⟩
    rw [w.minConsumerLoop_of_missing hfile] at hcut
    rw [hkept, if_neg (by omega)]

end PrunedSafely

/-- The segments that a window of at most `maxSegments` leaves, the active one
included. -/
theorem WalWriter.length_kept_le (w : WalWriter) (dir : Dir) {kept : Dir}
    (hkept : ∀ id, kept[id]? = if id < w.retentionCutoff dir then none else dir[id]?) :
    (kept.keys.filter (· ≤ w.active.id)).length ≤ max 1 w.config.maxSegments := by
  have hkeys := Dir.keys_of_cut hkept
  have hsorted : (kept.keys.filter (· ≤ w.active.id)).Pairwise (· < ·) := kept.keys_sorted.filter _
  have hmem : ∀ id ∈ kept.keys.filter (· ≤ w.active.id),
      id ∈ dir.keys ∧ w.retentionCutoff dir ≤ id ∧ id ≤ w.active.id := by
    intro id hid
    rw [hkeys, List.filter_filter, List.mem_filter] at hid
    simpa [and_comm] using hid
  generalize kept.keys.filter (· ≤ w.active.id) = ids at hsorted hmem
  cases ids with
  | nil => simp
  | cons first rest =>
      obtain ⟨hlater, hrest⟩ := List.pairwise_cons.mp hsorted
      obtain ⟨hfirst, hcutoff, hle⟩ := hmem first List.mem_cons_self
      by_cases hsealed : first < w.active.id
      · obtain ⟨-, hcount⟩ := (w.retentionCutoff_le_iff dir hfirst hsealed).mp hcutoff
        have hsub : rest ⊆ w.active.id :: w.sealedAfter dir first := by
          intro id hid
          obtain ⟨hdir, -, hbound⟩ := hmem id (List.mem_cons_of_mem first hid)
          rcases Nat.lt_or_eq_of_le hbound with hlt | rfl
          · apply List.mem_cons_of_mem
            exact List.mem_filter.mpr ⟨hdir, by simp [hlater id hid, hlt]⟩
          · exact List.mem_cons_self
        have hlength := (List.subperm_of_subset (hrest.imp Nat.ne_of_lt) hsub).length_le
        rw [List.length_cons] at hlength ⊢
        omega
      · have hnil : rest = [] := by
          cases rest with
          | nil => rfl
          | cons id rest =>
              have := hlater id List.mem_cons_self
              obtain ⟨-, -, hbound⟩ := hmem id (by simp)
              omega
        rw [hnil, List.length_singleton]
        exact Nat.le_max_left _ _

/-- **Pruning is safe and bounded.**  Both policies delete a prefix of the segments,
never the active one or one a consumer has committed to or not reached; with all
consumers at the active segment the count cap holds. -/
theorem pruning_safe_and_bounded (w : WalWriter) (dir : Dir)
    (consumers : List (Option WalPosition)) (hactive : w.active.id ≤ u64Max)
    (hcommitted : ∀ position, some position ∈ consumers → position.segmentId ≤ u64Max) :
    PrunedSafely w consumers dir (w.prune (WalWriter.positionFiles consumers) dir) ∧
      PrunedSafely w consumers dir
        (w.pruneWithBackpressure (WalWriter.positionFiles consumers) dir) ∧
      ((∀ consumer ∈ consumers, consumer.map WalPosition.segmentId = some w.active.id) →
        (((w.pruneWithBackpressure (WalWriter.positionFiles consumers) dir).keys.filter
          (· ≤ w.active.id)).length ≤ max 1 w.config.maxSegments)) := by
  refine ⟨?_, ?_, fun hreached => ?_⟩
  · exact .of_cut hactive hcommitted (Nat.le_refl _) (w.getElem?_prune dir _)
  · refine .of_cut hactive hcommitted ?_ (w.getElem?_pruneWithBackpressure dir _)
    omega
  · have hmin : w.minConsumerSegment (WalWriter.positionFiles consumers) = w.active.id := by
      rw [w.minConsumerSegment_positionFiles]
      refine w.minConsumerLoop_of_reached (fun file hfile => ?_) (Or.inl rfl) hactive
      obtain ⟨consumer, hmem, rfl⟩ := List.mem_map.mp hfile
      obtain ⟨position, rfl, hsegment⟩ := Option.map_eq_some_iff.mp (hreached consumer hmem)
      rw [Option.map_some, Option.bind_some,
        parsePositionSegment_content (hcommitted position hmem), hsegment]
    have hcutoff := w.retentionCutoff_le dir
    refine w.length_kept_le dir fun id => ?_
    rw [w.getElem?_pruneWithBackpressure, hmin, Nat.min_eq_left hcutoff, Nat.min_eq_right hcutoff]

namespace RetentionSample

/-- A writer in segment 2, a byte budget of 15 and at most 16 segments. -/
def writer : WalWriter := ⟨⟨100, 16, 15⟩, ⟨2, 0, []⟩, 3⟩

/-- Two sealed segments of ten bytes and the active one. -/
def dir : Dir :=
  ((∅ : Dir).insert 0 (List.replicate 10 0)).insert 1 (List.replicate 10 0) |>.insert 2 []

/-- Two consumers in the active segment. -/
def consumers : List (Option WalPosition) := [some ⟨2, 0⟩, some ⟨2, 8⟩]

end RetentionSample

open RetentionSample in
theorem pruning_safe_and_bounded_sample :
    PrunedSafely writer consumers dir
        (writer.pruneWithBackpressure (WalWriter.positionFiles consumers) dir) ∧
      ((writer.pruneWithBackpressure (WalWriter.positionFiles consumers) dir).keys.filter
        (· ≤ 2)).length ≤ 16 :=
  have hall := pruning_safe_and_bounded writer dir consumers (by decide)
    (by simp [consumers]; decide)
  ⟨hall.2.1, hall.2.2 (by decide)⟩

/-! ## The hydration window -/

namespace WalWriter

variable (w : WalWriter) (files : List (Option String)) (dir : Dir)

/-- The newer segments that remain fill the byte budget or the count cap, for every
sealed segment that is deleted. -/
def KeepsWindow : Prop :=
  ∀ id ∈ dir.keys, id < w.active.id → id ∉ (w.pruneWithBackpressure files dir).keys →
    w.config.maxConsumerLagBytes ≤
        bytesOf (w.pruneWithBackpressure files dir)
          (w.sealedAfter (w.pruneWithBackpressure files dir) id) ∨
      w.config.maxSegments ≤
        (w.sealedAfter (w.pruneWithBackpressure files dir) id).length + 1

/-- The segment takes the window past the byte budget, from below it, while the
count cap leaves room. -/
def Crosses (id : Nat) : Prop :=
  bytesOf dir (w.sealedAfter dir id) < w.config.maxConsumerLagBytes ∧
    w.config.maxConsumerLagBytes <
      (dir.contents id).length + bytesOf dir (w.sealedAfter dir id) ∧
    (w.sealedAfter dir id).length + 1 < w.config.maxSegments

/-- What is deleted is not in the window. -/
theorem mem_pruned_iff (id : Nat) :
    id ∈ (w.pruneWithBackpressure files dir).keys ↔
      id ∈ dir.keys ∧
        (id < w.active.id → w.InWindow dir id ∨ w.minConsumerSegment files ≤ id) := by
  rw [Dir.keys_of_cut (w.getElem?_pruneWithBackpressure dir files), List.mem_filter,
    decide_eq_true_eq]
  by_cases hid : id ∈ dir.keys
  · by_cases hsealed : id < w.active.id
    · have hwindow := w.retentionCutoff_le_iff dir hid hsealed
      simp only [hid, hsealed, true_and, true_imp_iff, ← hwindow]
      omega
    · simp only [hid, hsealed, true_and, false_imp_iff, iff_true]
      omega
  · simp [hid]

/-- Pruning changes no file it keeps. -/
theorem contents_pruned {id : Nat} (h : id ∈ (w.pruneWithBackpressure files dir).keys) :
    (w.pruneWithBackpressure files dir).contents id = dir.contents id := by
  rw [Dir.keys_of_cut (w.getElem?_pruneWithBackpressure dir files), List.mem_filter,
    decide_eq_true_eq] at h
  rw [Dir.contents, w.getElem?_pruneWithBackpressure, if_neg (by omega), Dir.contents]

theorem bytesOf_congr {dir dir' : Dir} {ids : List Nat}
    (h : ∀ id ∈ ids, dir.contents id = dir'.contents id) : bytesOf dir ids = bytesOf dir' ids := by
  have hmap : (ids.map fun id => (dir.contents id).length) =
      ids.map fun id => (dir'.contents id).length :=
    List.map_congr_left fun id hid => congrArg List.length (h id hid)
  rw [bytesOf, bytesOf, hmap]

/-- What is left of the sealed segments after one. -/
theorem sealedAfter_pruned_sublist (id : Nat) :
    (w.sealedAfter (w.pruneWithBackpressure files dir) id).Sublist (w.sealedAfter dir id) := by
  have hkeys := Dir.keys_of_cut (w.getElem?_pruneWithBackpressure dir files)
  unfold sealedAfter
  rw [hkeys]
  exact List.Sublist.filter _ List.filter_sublist

theorem bytesOf_sealedAfter_pruned (id : Nat) :
    bytesOf (w.pruneWithBackpressure files dir)
        (w.sealedAfter (w.pruneWithBackpressure files dir) id) =
      bytesOf dir (w.sealedAfter (w.pruneWithBackpressure files dir) id) :=
  bytesOf_congr fun _ hid => w.contents_pruned files dir (List.mem_of_mem_filter hid)

/-- The newest of the deleted segments: all that is sealed after it remains. -/
theorem exists_newest_deleted {id : Nat} (hid : id ∈ dir.keys)
    (hdeleted : id ∉ (w.pruneWithBackpressure files dir).keys) :
    ∃ newest ∈ dir.keys, newest < w.active.id ∧
      newest ∉ (w.pruneWithBackpressure files dir).keys ∧
      (w.sealedAfter dir newest).Sublist
        (w.sealedAfter (w.pruneWithBackpressure files dir) id) := by
  have hmem : id ∈ dir.keys.filter fun other =>
      other ∉ (w.pruneWithBackpressure files dir).keys :=
    List.mem_filter.mpr ⟨hid, by simpa using hdeleted⟩
  have hsorted : (dir.keys.filter fun other =>
      other ∉ (w.pruneWithBackpressure files dir).keys).Pairwise (· < ·) :=
    dir.keys_sorted.filter _
  rcases List.eq_nil_or_concat (dir.keys.filter fun other =>
      other ∉ (w.pruneWithBackpressure files dir).keys) with hnil | ⟨front, newest, hdeletions⟩
  · rw [hnil] at hmem
    cases hmem
  · rw [List.concat_eq_append] at hdeletions
    have hnewest : newest ∈ dir.keys.filter fun other =>
        other ∉ (w.pruneWithBackpressure files dir).keys := by
      rw [hdeletions]
      exact List.mem_append_right front List.mem_cons_self
    obtain ⟨hdir, hgone⟩ := List.mem_filter.mp hnewest
    rw [decide_eq_true_eq] at hgone
    -- no deleted segment is later
    have hlast : ∀ other ∈ dir.keys, newest < other →
        other ∈ (w.pruneWithBackpressure files dir).keys := by
      intro other hother hlater
      by_contra hdel
      have hin : other ∈ dir.keys.filter fun other =>
          other ∉ (w.pruneWithBackpressure files dir).keys :=
        List.mem_filter.mpr ⟨hother, by simpa using hdel⟩
      rw [hdeletions] at hin hsorted
      rcases List.mem_append.mp hin with hin | hin
      · have := (List.pairwise_append.mp hsorted).2.2 other hin newest List.mem_cons_self
        omega
      · have := List.mem_singleton.mp hin
        omega
    have hle : id ≤ newest := by
      by_contra hlt
      exact hdeleted (hlast id hid (Nat.lt_of_not_le hlt))
    have hbelow : newest < w.active.id := by
      by_contra hactive
      exact hgone ((w.mem_pruned_iff files dir newest).mpr ⟨hdir, fun h => absurd h hactive⟩)
    refine ⟨newest, hdir, hbelow, hgone, ?_⟩
    have hascending : ∀ (d : Dir) (x : Nat), (w.sealedAfter d x).Pairwise (· < ·) :=
      fun d x => d.keys_sorted.filter _
    apply List.sublist_of_subperm_of_pairwise _ (hascending dir newest) (hascending _ id)
    apply List.subperm_of_subset ((hascending dir newest).imp Nat.ne_of_lt)
    intro other hother
    obtain ⟨hother, hrange⟩ := List.mem_filter.mp hother
    simp only [Bool.and_eq_true, decide_eq_true_eq] at hrange
    apply List.mem_filter.mpr
    refine ⟨hlast other hother hrange.1, ?_⟩
    simp only [Bool.and_eq_true, decide_eq_true_eq]
    omega

/-- **The hydration window is kept unless a crossing segment is deleted.**  What
remains is at least the byte budget, or as many segments as the count cap allows,
exactly when the consumers still hold back every sealed segment that takes the
window from below the budget past it. -/
theorem keepsWindow_iff :
    w.KeepsWindow files dir ↔
      ∀ id ∈ dir.keys, id < w.active.id → w.Crosses dir id → w.minConsumerSegment files ≤ id := by
  constructor
  · intro hkeeps id hid hsealed hcrosses
    obtain ⟨hbelow, hpast, hroom⟩ := hcrosses
    by_contra hconsumed
    have hdeleted : id ∉ (w.pruneWithBackpressure files dir).keys := by
      intro hmem
      rcases ((w.mem_pruned_iff files dir id).mp hmem).2 hsealed with hwindow | hneeded
      · have := hwindow.1
        omega
      · exact hconsumed hneeded
    have hsub := w.sealedAfter_pruned_sublist files dir id
    have hbytes := bytesOf_le_of_sublist dir hsub
    have hlength := hsub.length_le
    have hkept := hkeeps id hid hsealed hdeleted
    rw [w.bytesOf_sealedAfter_pruned files dir id] at hkept
    omega
  · intro hneeded id hid _ hdeleted
    obtain ⟨newest, hnewest, hsealed, hgone, hsub⟩ := w.exists_newest_deleted files dir hid hdeleted
    have hbytes := bytesOf_le_of_sublist dir hsub
    have hlength := hsub.length_le
    have hconsumed : ¬ w.minConsumerSegment files ≤ newest := fun hle =>
      hgone ((w.mem_pruned_iff files dir newest).mpr ⟨hnewest, fun _ => Or.inr hle⟩)
    have hout : ¬ w.InWindow dir newest := fun hwindow =>
      hgone ((w.mem_pruned_iff files dir newest).mpr ⟨hnewest, fun _ => Or.inl hwindow⟩)
    have hstays : ¬ w.Crosses dir newest := fun hcrosses =>
      hconsumed (hneeded newest hnewest hsealed hcrosses)
    rw [w.bytesOf_sealedAfter_pruned files dir id]
    unfold InWindow at hout
    unfold Crosses at hstays
    omega

end WalWriter

open RetentionSample in
/-- With a budget of 15 the older of two sealed segments of ten bytes is deleted
although only ten bytes remain. -/
theorem crossing_segment_deleted :
    ¬ writer.KeepsWindow (WalWriter.positionFiles consumers) dir := by
  intro hkeeps
  have hwindow := hkeeps 0 (by decide) (by decide) (by decide)
  revert hwindow
  decide

/-! ## Position files the reader cannot use -/

/-- With this content among the position files no segment is deleted. -/
def BlocksPruning (content : String) : Prop :=
  ∀ (w : WalWriter) (files : List (Option String)) (dir : Dir), some content ∈ files →
    w.minConsumerSegment files = 0 ∧ (∀ id : Nat, (w.prune files dir)[id]? = dir[id]?) ∧
      ∀ id : Nat, (w.pruneWithBackpressure files dir)[id]? = dir[id]?

/-- The reader and the writer take the content the same way: what the reader cannot
use blocks pruning, and what both use is one segment. -/
def TakenAlike (content : String) : Prop :=
  (loadPosition (some content) = none → BlocksPruning content) ∧
    ∀ position segId, loadPosition (some content) = some position →
      parsePositionSegment content = some segId → position.segmentId = segId

/-- A segment id other than 0, a colon, and then no offset. -/
def HalfWritten (content : String) : Prop :=
  ∃ segStr offStr segId, splitOnce ':' (trim content.toList) = some (segStr, offStr) ∧
    parseU64 segStr = some segId ∧ segId ≠ 0 ∧ parseU64 offStr = none

/-- A file that pruning takes for segment 0 or for nothing holds back everything. -/
theorem WalWriter.minConsumerLoop_of_zero (w : WalWriter) {files : List (Option String)}
    {content : String} (hmem : some content ∈ files)
    (hparse : ∀ segId, parsePositionSegment content = some segId → segId = 0) (minSeg : Nat) :
    w.minConsumerLoop files minSeg = 0 := by
  have hzero : ∀ rest : List (Option String), w.minConsumerLoop rest 0 = 0 := by
    intro rest
    induction rest with
    | nil => rfl
    | cons file rest ih =>
        cases file with
        | none => rfl
        | some other =>
            unfold minConsumerLoop
            split
            · rw [Nat.zero_min]
              exact ih
            · rfl
  induction files generalizing minSeg with
  | nil => cases hmem
  | cons file files ih =>
      rcases List.mem_cons.mp hmem with rfl | hrest
      · unfold minConsumerLoop
        split
        · rename_i segId hseg
          rw [hparse segId hseg, Nat.min_zero]
          exact hzero files
        · rfl
      · cases file with
        | none => rfl
        | some other =>
            unfold minConsumerLoop
            split
            · exact ih hrest _
            · rfl

theorem blocksPruning_of_zero {content : String}
    (hparse : ∀ segId, parsePositionSegment content = some segId → segId = 0) :
    BlocksPruning content := by
  intro w files dir hmem
  have hmin : w.minConsumerSegment files = 0 := by
    cases files with
    | nil => cases hmem
    | cons file files => exact w.minConsumerLoop_of_zero hmem hparse u64Max
  refine ⟨hmin, fun id => ?_, fun id => ?_⟩
  · rw [w.getElem?_prune, hmin, if_neg (by omega)]
  · rw [w.getElem?_pruneWithBackpressure, hmin, if_neg (by omega)]

/-- **What the reader cannot use blocks pruning**, unless the content stops after the
colon of a segment id or has something other than an offset there. -/
theorem takenAlike_iff (content : String) : TakenAlike content ↔ ¬ HalfWritten content := by
  constructor
  · rintro ⟨hblocks, -⟩ ⟨segStr, offStr, segId, hsplit, hseg, hne, hoff⟩
    have hload : loadPosition (some content) = none := by
      simp [loadPosition, hsplit, hseg, hoff]
    have hparse : parsePositionSegment content = some segId := by
      simp [parsePositionSegment, hsplit, hseg]
    let w : WalWriter := ⟨⟨0, 0, 0⟩, ⟨1, 0, []⟩, 2⟩
    obtain ⟨hmin, -⟩ := hblocks hload w [some content] ∅ List.mem_cons_self
    have hloop : w.minConsumerSegment [some content] = w.minConsumerLoop [] (min u64Max segId) := by
      simp only [WalWriter.minConsumerSegment, List.isEmpty_cons, Bool.false_eq_true, if_false,
        WalWriter.minConsumerLoop, hparse]
    rw [hloop, WalWriter.minConsumerLoop] at hmin
    have hmax : 0 < u64Max := by decide
    split at hmin
    · cases hmin
    · omega
  · intro hwhole
    refine ⟨fun hload => blocksPruning_of_zero fun segId hparse => ?_, fun position segId => ?_⟩
    · by_contra hne
      apply hwhole
      simp only [parsePositionSegment, Option.bind_eq_bind, Option.bind_eq_some_iff] at hparse
      obtain ⟨⟨segStr, offStr⟩, hsplit, hseg⟩ := hparse
      refine ⟨segStr, offStr, segId, hsplit, hseg, hne, ?_⟩
      cases hoff : parseU64 offStr with
      | none => rfl
      | some off => simp [loadPosition, hsplit, hseg, hoff] at hload
    · intro hload hparse
      simp only [parsePositionSegment, Option.bind_eq_bind, Option.bind_eq_some_iff] at hparse
      obtain ⟨⟨segStr, offStr⟩, hsplit, hseg⟩ := hparse
      simp only [loadPosition, Option.bind_eq_bind, Option.bind_some, hsplit, hseg] at hload
      obtain ⟨off, -, hposition⟩ := Option.bind_eq_some_iff.mp hload
      cases hposition
      rfl

/-- The reader restarts at the oldest segment, the writer takes the consumer to be in
segment 5. -/
theorem missing_offset_taken_for_segment : ¬ TakenAlike "5:" := by
  rintro ⟨hblocks, -⟩
  obtain ⟨hmin, -⟩ := hblocks (by decide) RetentionSample.writer [some "5:"] ∅ List.mem_cons_self
  revert hmin
  decide

end PolyBook.Wal
