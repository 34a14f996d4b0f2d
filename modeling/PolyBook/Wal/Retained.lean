import Mathlib.Data.List.Flatten
import Mathlib.Data.List.Sort
import PolyBook.Library.Sorting
import PolyBook.Wal.Retention
import PolyBook.Wal.StrictScan

/-!
# What the log retains

Pruning takes segments away and a crash or an unflushed buffer the end of the last one, so
the whole frames of the segment files are some of the records that were appended, in their
order: `Disk.Inv.payloads_sublist`.

`Disk.retained` has the records of the segments that are there, and once the writer has
synced them it is what a scan of the files finds: `Disk.Inv.payloads_sync`.
-/

namespace PolyBook.Wal

variable [Crc32c]

/-- The whole frames of a segment file are the first records of the segment. -/
def HoldsRecords (dir : Dir) (records : Nat → List Bytes) : Prop :=
  ∀ (id : Nat) (file : Bytes), dir[id]? = some file →
    ∃ recs, Reads file 0 [] recs ∧ recs <+: records id

theorem Layout.holdsRecords {dir : Dir} {w : WalWriter} {records : Nat → List Bytes}
    (h : Layout dir w records) : HoldsRecords dir records := by
  intro id file hfile
  have hreads : Reads file (Framing.frames frame ([] : List Bytes)).length [] _ :=
    Reads.of_prefix (h.recordable id) (h.stored_prefix hfile) rfl
  exact ⟨_, hreads, Framing.fitting_isPrefix _ _⟩

theorem Disk.Crashed.holdsRecords {dir : Dir} {last : Nat} {records : Nat → List Bytes}
    (h : Crashed dir last records) : HoldsRecords dir records := by
  intro id file hfile
  refine ⟨records id, ⟨rfl, ?_, h.recordable id⟩, List.prefix_rfl⟩
  by_cases hid : id = last
  · obtain ⟨torn, htorn, hlast⟩ := h.torn
    rw [hid, hlast] at hfile
    cases hfile
    exact ⟨torn, htorn, by rw [hid, List.nil_append]⟩
  · have hlt := Nat.lt_of_le_of_ne (h.bound id file hfile) hid
    refine ⟨[], Framing.torn_nil, ?_⟩
    rw [List.append_nil, List.nil_append]
    exact h.sealed id file hlt hfile

/-- The payloads that are found in a file without damage. -/
theorem Reads.payloads_eq {file : Bytes} {recs : List Bytes} (h : Reads file 0 [] recs) (id : Nat) :
    (framesFrom file id 0).filterMap (·.payload) = recs := by
  rw [h.framesFrom_eq, List.filterMap_map]
  have hpayload : (fun s : Scanned => s.payload) ∘ (fun x : WalPosition × Bytes =>
      (⟨x.1, some x.2⟩ : Scanned)) = fun x => some x.2 := rfl
  rw [hpayload, List.filterMap_eq_map', map_snd_endings]

/-- **What is retained** is a sublist of the log. -/
theorem payloads_sublist {dir : Dir} {records : Nat → List Bytes} (h : HoldsRecords dir records)
    {last : Nat} (hbound : ∀ (id : Nat) (file : Bytes), dir[id]? = some file → id ≤ last) :
    dir.payloads.Sublist (earlier records (last + 1)) := by
  have hmem : ∀ e ∈ dir.toList, dir[e.1]? = some e.2 := by
    intro e he
    exact Std.ExtTreeMap.mem_toList_iff_getElem?_eq_some.mp he
  have hfiles : dir.payloads.Sublist (dir.toList.flatMap fun e => records e.1) := by
    rw [Dir.payloads, Dir.scan, Dir.framesOf, List.filterMap_flatMap]
    apply List.Sublist.flatMap_right
    intro e he
    obtain ⟨recs, hreads, hsub⟩ := h e.1 e.2 (hmem e he)
    rw [hreads.payloads_eq]
    exact hsub.sublist
  have hids : (dir.toList.map Prod.fst).Sublist (List.range (last + 1)) := by
    have hsorted : (dir.toList.map Prod.fst).Pairwise (· < ·) := by
      apply List.pairwise_map.mpr
      exact Std.ExtTreeMap.ordered_keys_toList.imp Nat.compare_eq_lt.mp
    apply List.sublist_of_subperm_of_pairwise _ hsorted List.pairwise_lt_range
    apply List.subperm_of_subset (hsorted.imp Nat.ne_of_lt)
    intro id hid
    obtain ⟨e, he, rfl⟩ := List.mem_map.mp hid
    exact List.mem_range.mpr (Nat.lt_succ_of_le (hbound e.1 e.2 (hmem e he)))
  have hsegments : (dir.toList.flatMap fun e => records e.1) =
      (dir.toList.map Prod.fst).flatMap records := by rw [List.flatMap_map]
  rw [hsegments] at hfiles
  exact hfiles.trans (hids.flatMap records)

/-! ## Segments that are there -/

namespace Dir

omit [Crc32c] in
/-- A directory with the same segments has the same ids. -/
theorem keys_congr {dir dir' : Dir} (h : ∀ id : Nat, dir'[id]?.isSome = dir[id]?.isSome) :
    dir'.keys = dir.keys := by
  apply dir'.keys_sorted.eq_of_mem_iff dir.keys_sorted
  intro id
  rw [TreeMapLookup.mem_keys_iff, TreeMapLookup.mem_keys_iff, h]

omit [Crc32c] in
/-- A segment after all others. -/
theorem keys_concat {dir dir' : Dir} {last : Nat}
    (h : ∀ id : Nat, dir'[id]?.isSome = (decide (id = last) || dir[id]?.isSome))
    (hlast : ∀ id ∈ dir.keys, id < last) : dir'.keys = dir.keys ++ [last] := by
  have hsorted : (dir.keys ++ [last]).Pairwise (· < ·) :=
    List.pairwise_append.mpr ⟨dir.keys_sorted, List.pairwise_singleton _ _, fun id hid other ho =>
      List.mem_singleton.mp ho ▸ hlast id hid⟩
  apply dir'.keys_sorted.eq_of_mem_iff hsorted
  intro id
  rw [TreeMapLookup.mem_keys_iff, h, List.mem_append, TreeMapLookup.mem_keys_iff,
    List.mem_singleton, Bool.or_eq_true, decide_eq_true_eq, or_comm]

/-- The records of the segment files that are missing from what is left. -/
def payloadsGone (dir left : Dir) : List Bytes :=
  (framesOf (dir.toList.filter fun e => left[e.1]?.isNone)).filterMap (·.payload)

end Dir

/-- Files that hold the frames of their records hold these records. -/
theorem payloads_framesOf {records : Nat → List Bytes}
    (hrecordable : ∀ id, ∀ r ∈ records id, Recordable r) {segments : List (Nat × Bytes)}
    (h : ∀ e ∈ segments, e.2 = Framing.frames frame (records e.1)) :
    (Dir.framesOf segments).filterMap (·.payload) = (segments.map Prod.fst).flatMap records := by
  rw [Dir.framesOf, List.filterMap_flatMap, List.flatMap_map]
  apply List.flatMap_congr
  intro e he
  rw [h e he]
  exact Reads.payloads_eq ⟨rfl, ⟨[], Framing.torn_nil, by rw [List.append_nil, List.nil_append]⟩,
    hrecordable e.1⟩ e.1

omit [Crc32c] in
theorem map_fst_filter_toList (dir : Dir) (p : Nat → Bool) :
    (dir.toList.filter fun e => p e.1).map Prod.fst = dir.keys.filter p := by
  rw [← Std.ExtTreeMap.map_fst_toList_eq_keys, List.filter_map]
  rfl

namespace Layout

variable {dir : Dir} {w : WalWriter} {records : Nat → List Bytes}

theorem keys_spill (h : Layout dir w records) (k : Nat) : (w.spill k dir).2.keys = dir.keys := by
  apply Dir.keys_congr
  intro id
  rw [WalWriter.getElem?_spill]
  split
  · rename_i hid
    obtain ⟨file, hfile⟩ := h.active
    rw [hid, hfile]
    rfl
  · rfl

/-- After a flush the files hold the records of the segments that are there. -/
theorem payloads_flush (h : Layout dir w records) :
    (w.flush dir).2.payloads = dir.keys.flatMap records := by
  have hsealed : ∀ e ∈ (w.flush dir).2.toList, e.2 = Framing.frames frame (records e.1) := by
    intro e he
    have hfile := Std.ExtTreeMap.mem_toList_iff_getElem?_eq_some.mp he
    have hstored := h.flush.stored e.1 e.2 hfile
    have hpending : (w.flush dir).1.pending e.1 = [] := by
      unfold WalWriter.pending
      split
      · exact List.drop_length
      · rfl
    rwa [hpending, List.append_nil] at hstored
  rw [Dir.payloads, Dir.scan, payloads_framesOf h.recordable hsealed,
    Std.ExtTreeMap.map_fst_toList_eq_keys]
  exact congrArg (List.flatMap records) (h.keys_spill w.active.buffer.length)

/-- The active segment is the last that is there. -/
theorem keys_eq (h : Layout dir w records) : ∃ front, dir.keys = front ++ [w.active.id] ∧
    ∀ id ∈ front, id ≠ w.active.id := by
  obtain ⟨front, hfront⟩ := List.getLast?_eq_some_iff.mp (Disk.getLast?_keys_of_layout h)
  refine ⟨front, hfront, fun id hid => Nat.ne_of_lt ?_⟩
  have hsorted := dir.keys_sorted
  rw [hfront, List.pairwise_append] at hsorted
  exact hsorted.2.2 id hid _ List.mem_cons_self

theorem keys_rotate (h : Layout dir w records) :
    (w.rotate dir).2.keys = dir.keys ++ [w.active.id + 1] := by
  rw [← h.keys_spill w.active.buffer.length]
  apply Dir.keys_concat
  · intro id
    rw [WalWriter.getElem?_rotate, h.next]
    by_cases hid : id = w.active.id + 1
    · simp [hid]
    · simp only [hid, decide_false, Bool.false_or]
      rfl
  · intro id hid
    obtain ⟨file, hfile⟩ := Dir.getElem?_of_mem_keys hid
    exact Nat.lt_succ_of_le (h.flush.bound id file hfile)

end Layout

namespace Disk

variable {d : Disk}

/-- The records of the segments that are there. -/
def retained (d : Disk) : List Bytes := d.dir.keys.flatMap d.records

section Steps

variable {w : WalWriter}

theorem retained_spill (h : Layout d.dir w d.records) (k : Nat) :
    retained { d with writer := some (w.spill k d.dir).1, dir := (w.spill k d.dir).2 } =
      d.retained :=
  congrArg (List.flatMap d.records) (h.keys_spill k)

/-- A new segment is empty. -/
theorem retained_roomMade (h : Layout d.dir w d.records) (payload : Bytes) :
    (d.roomMade w payload).retained = d.retained := by
  unfold roomMade WalWriter.makeRoom retained
  split
  · dsimp only
    rw [h.keys_rotate, List.flatMap_append, List.flatMap_singleton,
      h.unwritten _ (Nat.lt_succ_self _), List.append_nil]
  · rfl

theorem retained_buffered (h : Layout d.dir w d.records) (payload : Bytes) :
    (d.buffered w payload).retained = d.retained ++ [payload] := by
  obtain ⟨front, hkeys, hfront⟩ := h.keys_eq
  have hothers : front.flatMap (recordIn d.records w.active.id payload) =
      front.flatMap d.records := by
    apply List.flatMap_congr
    intro id hid
    exact recordIn_ne d.records (hfront id hid) payload
  unfold buffered retained
  dsimp only
  rw [hkeys, List.flatMap_append, List.flatMap_append, hothers, List.flatMap_singleton,
    List.flatMap_singleton, recordIn_same, List.append_assoc]

/-- **Pruning takes the records of the segments it deletes**, from the front. -/
theorem retained_prune (h : Layout d.dir w d.records) (files : List (Option String)) :
    d.dir.payloadsGone (w.pruneWithBackpressure files d.dir) ++
        retained { d with dir := w.pruneWithBackpressure files d.dir } = d.retained := by
  have hpruned := w.getElem?_pruneWithBackpressure d.dir files
  generalize w.pruneWithBackpressure files d.dir = left at hpruned ⊢
  generalize hcut : min w.active.id (min (w.retentionCutoff d.dir) (w.minConsumerSegment files)) =
    cut at hpruned
  have hle : cut ≤ w.active.id := hcut ▸ Nat.min_le_left _ _
  have hgone : (d.dir.toList.filter fun e => left[e.1]?.isNone) =
      d.dir.toList.filter fun e => !decide (cut ≤ e.1) := by
    apply List.filter_congr
    intro e he
    have hfile := Std.ExtTreeMap.mem_toList_iff_getElem?_eq_some.mp he
    rw [hpruned, hfile]
    by_cases hid : e.1 < cut
    · simp [hid]
    · simp [hid, Nat.not_lt.mp hid]
  have hsealed : ∀ e ∈ d.dir.toList.filter fun e => !decide (cut ≤ e.1),
      e.2 = Framing.frames frame (d.records e.1) := by
    intro e he
    obtain ⟨he, hid⟩ := List.mem_filter.mp he
    have hid : ¬ cut ≤ e.1 := by simpa using hid
    have hfile := Std.ExtTreeMap.mem_toList_iff_getElem?_eq_some.mp he
    exact h.sealed (by omega) hfile
  have hascending : d.dir.keys.Pairwise fun a b =>
      decide (cut ≤ a) = true → decide (cut ≤ b) = true :=
    d.dir.keys_sorted.imp fun hlt hle =>
      decide_eq_true ((of_decide_eq_true hle).trans (Nat.le_of_lt hlt))
  unfold Dir.payloadsGone retained
  rw [hgone, payloads_framesOf h.recordable hsealed,
    map_fst_filter_toList d.dir fun id => !decide (cut ≤ id), Dir.keys_of_cut hpruned,
    ← List.flatMap_append, Sorting.filter_not_append_filter hascending]

/-- Opening the log loses no segment. -/
theorem Inv.retained_openWriter (h : Inv d) (config : WalConfig) :
    (d.step config .openWriter).retained = d.retained := by
  have hnothing : ∀ {d : Disk}, (∀ id, d.records id = []) → d.retained = [] :=
    fun hrecords => List.flatMap_eq_nil_iff.mpr fun id _ => hrecords id
  cases h with
  | unopened hwriter hdir hrecords =>
      rw [step_openWriter config hwriter, hnothing hrecords]
      exact hnothing hrecords
  | opened hwriter hlayout hdurable => rw [step_openWriter_of_some config hwriter]
  | crashed hwriter hcrashed =>
      obtain ⟨-, hlookup⟩ := hcrashed.openDir_eq config
      rw [step_openWriter config hwriter]
      refine congrArg (List.flatMap d.records) (Dir.keys_congr fun id => ?_)
      rw [hlookup]
      split
      · rename_i hid
        obtain ⟨torn, -, hfile⟩ := hcrashed.torn
        rw [hid, hfile]
        rfl
      · rfl

/-- Handing bytes to the file changes no record. -/
theorem Inv.retained_spill (h : Inv d) (config : WalConfig) (k : Nat) :
    (d.step config (.spill k)).retained = d.retained := by
  cases hwriter : d.writer with
  | none => rw [step_of_closed config hwriter (by simp)]
  | some w =>
      rw [step_spill config hwriter]
      exact Disk.retained_spill (h.layout hwriter).1 k

theorem Inv.retained_flush (h : Inv d) (config : WalConfig) :
    (d.step config .flush).retained = d.retained := by
  cases hwriter : d.writer with
  | none => rw [step_of_closed config hwriter (by simp)]
  | some w =>
      rw [step_flush config hwriter]
      exact h.retained_spill config _

theorem Inv.retained_sync (h : Inv d) (config : WalConfig) :
    (d.step config .sync).retained = d.retained := by
  cases hwriter : d.writer with
  | none => rw [step_of_closed config hwriter (by simp)]
  | some w =>
      rw [step_sync config hwriter]
      exact h.retained_spill config _

/-- **A sync brings all that is retained to the files.** -/
theorem Inv.payloads_sync (h : Inv d) (config : WalConfig) (hwriter : d.writer = some w) :
    (d.step config .sync).dir.payloads = d.retained := by
  rw [step_sync config hwriter, step_spill config hwriter]
  exact (h.layout hwriter).1.payloads_flush

end Steps

/-- Whatever happened to the log, its files hold records of it only. -/
theorem Inv.payloads_sublist (h : Inv d) : d.dir.payloads.Sublist d.log := by
  cases h with
  | unopened hwriter hdir hrecords =>
      have hnone : d.dir.payloads = [] := by
        rw [hdir]
        rfl
      rw [hnone]
      exact List.nil_sublist _
  | opened hwriter hlayout hdurable =>
      rw [log_of_layout hlayout]
      exact Wal.payloads_sublist hlayout.holdsRecords hlayout.bound
  | crashed hwriter hcrashed =>
      rw [log_of_crashed hcrashed]
      exact Wal.payloads_sublist hcrashed.holdsRecords hcrashed.bound

/-- Pruning takes files away, and nothing from the log as it was written. -/
theorem Inv.log_prune (h : Inv d) {w : WalWriter} (hwriter : d.writer = some w)
    (files : List (Option String)) :
    log { d with dir := w.pruneWithBackpressure files d.dir } = d.log := by
  obtain ⟨hlayout, -⟩ := h.layout hwriter
  have hpruned := hlayout.prune (Nat.min_le_left _ _) (w.getElem?_pruneWithBackpressure d.dir files)
  rw [log_of_layout hlayout]
  exact log_of_layout hpruned

/-- Handing bytes to the file changes no record. -/
theorem Inv.log_spill (h : Inv d) (config : WalConfig) (k : Nat) :
    (d.step config (.spill k)).log = d.log := by
  cases hwriter : d.writer with
  | none => rw [step_of_closed config hwriter (by simp)]
  | some w =>
      rw [step_spill config hwriter]
      exact Disk.log_spill (h.layout hwriter).1 k

/-- Opening the log loses no record. -/
theorem Inv.log_openWriter (h : Inv d) (config : WalConfig) :
    (d.step config .openWriter).log = d.log := by
  cases h with
  | unopened hwriter hdir hrecords =>
      have hunwritten : ∀ id, (d.step config .openWriter).records id = [] := by
        intro id
        rw [step_openWriter config hwriter]
        exact hrecords id
      rw [log_of_unwritten hunwritten, log_of_unwritten hrecords]
  | opened hwriter hlayout hdurable => rw [step_openWriter_of_some config hwriter]
  | crashed hwriter hcrashed =>
      obtain ⟨hactive, -⟩ := hcrashed.openDir_eq config
      rw [step_openWriter config hwriter, log_of_crashed hcrashed]
      refine (log_of_layout (hcrashed.openDir config)).trans ?_
      rw [hactive]

/-- A crash loses the end of the log. -/
theorem Inv.log_crash (h : Inv d) (config : WalConfig) (kept : Nat) :
    (d.step config (.crash kept)).log <+: d.log := by
  cases hwriter : d.writer with
  | none => rw [step_of_closed config hwriter (by simp)]
  | some w =>
      obtain ⟨hlayout, -⟩ := h.layout hwriter
      let kept' := Framing.fitting frame (d.cutFile w kept).length (d.records w.active.id)
      have hlog : (d.step config (.crash kept)).log = earlier d.records w.active.id ++ kept' := by
        have hcrashed := Inv.crashed_of_layout hlayout kept
        have hsealed : earlier (fun id => if id = w.active.id then
            Framing.fitting frame (d.cutFile w kept).length (d.records id) else d.records id)
              w.active.id = earlier d.records w.active.id := by
          apply List.flatMap_congr
          intro id hid
          exact if_neg (Nat.ne_of_lt (List.mem_range.mp hid))
        rw [step_crash config hwriter]
        refine (log_of_crashed hcrashed).trans ?_
        rw [earlier_succ, hsealed]
        exact congrArg (earlier d.records w.active.id ++ ·) (if_pos rfl)
      rw [hlog, log_of_layout hlayout, earlier_succ]
      exact (List.prefix_append_right_inj _).mpr (Framing.fitting_isPrefix _ _)

/-- Only an append adds to the log. -/
theorem Inv.log_isPrefix (h : Inv d) (config : WalConfig) {e : DiskEvent}
    (he : ∀ payload, e ≠ .append payload) : (d.step config e).log <+: d.log := by
  cases e with
  | openWriter => rw [h.log_openWriter config]
  | append payload => exact absurd rfl (he payload)
  | spill k => rw [h.log_spill config k]
  | flush =>
      cases hwriter : d.writer with
      | none => rw [step_of_closed config hwriter (by simp)]
      | some w => rw [step_flush config hwriter, h.log_spill config _]
  | sync =>
      cases hwriter : d.writer with
      | none => rw [step_of_closed config hwriter (by simp)]
      | some w =>
          have hlog : (d.step config .sync).log = d.log := by
            rw [step_sync config hwriter]
            exact h.log_spill config _
          rw [hlog]
  | crash kept => exact h.log_crash config kept

end Disk

end PolyBook.Wal
