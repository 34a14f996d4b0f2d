import PolyBook.GapCheck

/-!
# Replay and the order of storage

The events of a window are sorted before they are replayed, so the order they are
stored in shows only where the comparator ties two records.  Two snapshot records it
ties carry the same level.  Two level changes it ties make the same change, but a
continuity event quotes the provenance of the record it is about.  A snapshot record
and a level change that it ties do different things.

`reconstructBook_storage_order`: while the records that a reconstruction replays are
tied in the first two ways only, and the tied level changes have one provenance, the
order of storage plays no part; and every tie of another kind shows in some window.
-/

namespace PolyBook

open Sorting

/-- Two records that replay cannot tell apart, one kind and one thing to quote. -/
structure Interchangeable (a b : BookEvent) : Prop where
  kind : a.kind = b.kind
  quoted : a.kind = .delta → a.provenance.quoted = b.provenance.quoted

instance (a b : BookEvent) : Decidable (Interchangeable a b) :=
  decidable_of_iff (a.kind = b.kind ∧ (a.kind = .delta → a.provenance.quoted = b.provenance.quoted))
    ⟨fun h => ⟨h.1, h.2⟩, fun h => ⟨h.kind, h.quoted⟩⟩

/-- Two records that carry the same level. -/
structure SameLevel (a b : BookEvent) : Prop where
  side : a.side = b.side
  price : a.price = b.price
  size : a.size = b.size
  sequence : a.provenance.sequence.getD 0 = b.provenance.sequence.getD 0

section Ties

variable {mode : ReplayMode} {a b : BookEvent}

/-- Records are tied if the replay order calls them equal. -/
theorem tied_iff : Tied (bookEventLe mode) a b ↔ compareBookEvents mode a b = .eq := by
  have hswap : compareBookEvents mode b a = (compareBookEvents mode a b).swap :=
    Std.OrientedCmp.eq_swap
  unfold Tied bookEventLe
  rw [hswap]
  cases compareBookEvents mode a b <;> simp

/-- The rank of a side tells the side. -/
theorem sideRank_injective {s t : Side} (h : sideRank s = sideRank t) : s = t := by
  cases s <;> cases t <;> first | rfl | cases h

/-- What the comparator reads of tied records. -/
theorem compareBookEvents_eq_iff : compareBookEvents mode a b = .eq ↔
    orderingKeys mode a = orderingKeys mode b ∧ ordinalKey a = ordinalKey b ∧ SameLevel a b ∧
      a.provenance.sourceEventId = b.provenance.sourceEventId := by
  simp only [compareBookEvents, compareLex, compareOn, Ordering.then_eq_eq,
    Std.LawfulEqOrd.compare_eq_iff_eq, ordinalKey, Prod.ext_iff]
  constructor
  · rintro ⟨hfirst, hsecond, hordinal, hsequence, hside, hprice, hsize, hid⟩
    exact ⟨⟨hfirst, hsecond⟩, hordinal, ⟨sideRank_injective hside, FixedPrice.eq_of_raw hprice,
      FixedSize.eq_of_raw hsize, hsequence⟩, hid⟩
  · rintro ⟨⟨hfirst, hsecond⟩, hordinal, hlevel, hid⟩
    exact ⟨hfirst, hsecond, hordinal, hlevel.sequence, congrArg sideRank hlevel.side,
      congrArg FixedPrice.raw hlevel.price, congrArg FixedSize.raw hlevel.size, hid⟩

/-- Tied records have one time and one receive time. -/
theorem times_of_tied (h : compareBookEvents mode a b = .eq) :
    eventOrderingTs mode a = eventOrderingTs mode b ∧
      a.provenance.recvTimestampUs = b.provenance.recvTimestampUs := by
  have hkeys := (compareBookEvents_eq_iff.mp h).1
  cases mode with
  | recvTime => exact ⟨congrArg Prod.fst hkeys, congrArg Prod.fst hkeys⟩
  | exchangeTime => exact ⟨congrArg Prod.fst hkeys, congrArg Prod.snd hkeys⟩

end Ties

section Congruence

variable {assetId : AssetId} {target : Nat} {mode : ReplayMode}

/-- Two records with which the loop does the same. -/
structure Alike (mode : ReplayMode) (a b : BookEvent) : Prop extends Interchangeable a b,
    SameLevel a b where
  time : eventOrderingTs mode a = eventOrderingTs mode b

/-- Records with the same levels list the same levels. -/
theorem eventLevels_congr (side : Side) {xs ys : List BookEvent}
    (h : List.Forall₂ SameLevel xs ys) : eventLevels side xs = eventLevels side ys := by
  unfold eventLevels
  induction h with
  | nil => rfl
  | cons hab _ ih =>
      simp only [List.filter_cons, hab.side]
      split
      · rw [List.map_cons, List.map_cons, ih, hab.price, hab.size]
      · exact ih

/-- Records with the same levels end with the same number. -/
theorem lastSequence_congr {xs ys : List BookEvent} (h : List.Forall₂ SameLevel xs ys) :
    (xs.getLast?.bind fun event => event.provenance.sequence).getD 0 =
      (ys.getLast?.bind fun event => event.provenance.sequence).getD 0 := by
  induction h with
  | nil => rfl
  | @cons a b xs ys hab hrest ih =>
      cases hrest with
      | nil => exact hab.sequence
      | cons hcd hrest =>
          rw [List.getLast?_cons_cons, List.getLast?_cons_cons]
          exact ih

/-- Records with the same levels make the same snapshot. -/
theorem applySnapshotEvents_congr (book : L2Book) (time : Nat) {xs ys : List BookEvent}
    (h : List.Forall₂ SameLevel xs ys) :
    book.applySnapshotEvents xs time = book.applySnapshotEvents ys time := by
  unfold L2Book.applySnapshotEvents
  rw [eventLevels_congr .bid h, eventLevels_congr .ask h, lastSequence_congr h]

/-- The snapshot run of records that are alike. -/
theorem snapshotRun_congr (time : Nat) {xs ys : List BookEvent}
    (h : List.Forall₂ (Alike mode) xs ys) :
    List.Forall₂ (Alike mode) (snapshotRun mode time xs) (snapshotRun mode time ys) := by
  unfold snapshotRun
  induction h with
  | nil => exact .nil
  | cons hab _ ih =>
      simp only [List.takeWhile_cons, hab.kind, hab.time]
      split
      · exact .cons hab ih
      · exact .nil

/-- **Alike records replay alike.** -/
theorem replayLoop_congr (fuel : Nat) {xs ys : List BookEvent}
    (h : List.Forall₂ (Alike mode) xs ys) (book : L2Book) (marks : List IngestEvent) :
    replayLoop assetId target mode fuel xs book marks =
      replayLoop assetId target mode fuel ys book marks := by
  induction fuel generalizing xs ys book marks with
  | zero => rfl
  | succ fuel ih =>
      cases h with
      | nil => rfl
      | @cons a b xs ys hab hrest =>
          simp only [replayLoop, hab.time]
          split
          · rfl
          · cases hk : b.kind with
            | snapshot =>
                have hrun := snapshotRun_congr (eventOrderingTs mode b)
                  (List.Forall₂.cons hab hrest)
                have happly := applySnapshotEvents_congr book (eventOrderingTs mode b)
                  (hrun.imp fun _ _ h => h.toSameLevel)
                simp only [hab.kind, hk, happly]
                split
                · rfl
                · rw [hrun.length_eq]
                  exact ih (List.forall₂_drop _ (List.Forall₂.cons hab hrest)) _ _
            | delta =>
                have hquoted := hab.quoted (hab.kind.trans hk)
                unfold EventProvenance.quoted at hquoted
                have hgap : ∀ error, sequenceGapEvent assetId a book error =
                    sequenceGapEvent assetId b book error := by
                  intro error
                  simp only [sequenceGapEvent, hquoted, hab.sequence]
                have hrejected : ∀ error, deltaRejectedEvent assetId a error =
                    deltaRejectedEvent assetId b error := by
                  intro error
                  simp only [deltaRejectedEvent, hquoted]
                simp only [hab.kind, hk, hab.side, hab.price, hab.size, hab.sequence, hgap,
                  hrejected]
                split
                · rfl
                · exact ih hrest _ _

end Congruence

section Window

variable (target : Nat) (mode : ReplayMode) (checkpoint : Option BookCheckpoint)
  (window : MarketDataWindow)

/-- The events a reconstruction replays on its seed: up to the target, those past the
checkpoint, or those not before the latest admitted snapshot. -/
def replays (event : BookEvent) : Bool :=
  let boundary := latestResetBoundaryUs window.ingestEvents target
  eventOrderingTs mode event ≤ target &&
    match survivingCheckpoint boundary checkpoint with
    | some checkpoint => decide (checkpointOrderingTs checkpoint mode < eventOrderingTs mode event)
    | none =>
        window.bookEvents.any (seedsAt target mode boundary) &&
          window.bookEvents.all fun s =>
            !seedsAt target mode boundary s || decide (bookEventLe mode s event)

/-- Among the events a reconstruction replays, the comparator ties interchangeable
ones only. -/
def TiesInterchange : Prop :=
  ∀ a ∈ window.bookEvents, ∀ b ∈ window.bookEvents, replays target mode checkpoint window a = true →
    replays target mode checkpoint window b = true → compareBookEvents mode a b = .eq →
    Interchangeable a b

instance : Decidable (TiesInterchange target mode checkpoint window) := by
  unfold TiesInterchange
  infer_instance

end Window

section Permutation

variable {assetId : AssetId} {target : Nat} {mode : ReplayMode} {boundary : Option Nat}
  {events window : List BookEvent}

/-- A choice of the sorted events whose ties do not matter. -/
theorem forall₂_filter_sort (hperm : events.Perm window) {R : BookEvent → BookEvent → Prop}
    (p : BookEvent → Bool) (hR : ∀ a ∈ window, ∀ b ∈ window, p a = true → p b = true →
      compareBookEvents mode a b = .eq → R a b) :
    List.Forall₂ R ((sortBookEvents mode events).filter p)
      ((sortBookEvents mode window).filter p) := by
  rw [← sortBookEvents_filter, ← sortBookEvents_filter]
  refine forall₂_of_perm (r := bookEventLe mode) ?_ (List.pairwise_insertionSort _ _)
    (List.pairwise_insertionSort _ _) ?_
  · exact (List.perm_insertionSort _ _).trans
      ((hperm.filter p).trans (List.perm_insertionSort _ _).symm)
  · intro a ha b hb htied
    obtain ⟨ha, hpa⟩ := List.mem_filter.mp ((mem_sortBookEvents mode).mp ha)
    obtain ⟨hb, hpb⟩ := List.mem_filter.mp ((mem_sortBookEvents mode).mp hb)
    exact hR a ha b hb hpa hpb (tied_iff.mp htied)

/-- The loop on a choice of the sorted events. -/
theorem replayLoop_perm (hperm : events.Perm window) (p : BookEvent → Bool)
    (hties : ∀ a ∈ window, ∀ b ∈ window, p a = true → p b = true →
      compareBookEvents mode a b = .eq → Interchangeable a b)
    (fuel : Nat) (book : L2Book) (marks : List IngestEvent) :
    replayLoop assetId target mode fuel ((sortBookEvents mode events).filter p) book marks =
      replayLoop assetId target mode fuel ((sortBookEvents mode window).filter p) book marks := by
  apply replayLoop_congr
  apply forall₂_filter_sort hperm
  intro a ha b hb hpa hpb htied
  exact ⟨hties a ha b hb hpa hpb htied, (compareBookEvents_eq_iff.mp htied).2.2.1,
    (times_of_tied htied).1⟩

/-- The group a book is seeded from does not depend on the order of storage. -/
theorem applySnapshotEvents_perm (hperm : events.Perm window) (time : Nat) (book : L2Book) :
    book.applySnapshotEvents (snapshotGroupAt mode boundary time (sortBookEvents mode events))
        time =
      book.applySnapshotEvents (snapshotGroupAt mode boundary time (sortBookEvents mode window))
        time := by
  apply applySnapshotEvents_congr
  apply forall₂_filter_sort hperm
  intro a _ b _ _ _ htied
  exact (compareBookEvents_eq_iff.mp htied).2.2.1

namespace SeedSplit

variable {before after : List BookEvent} {s : BookEvent}
  (h : SeedSplit target mode boundary (sortBookEvents mode events) before s after)

include h

/-- Where the seed is tied with snapshots only, the loop takes what lies strictly
behind it. -/
theorem later_eq_filter (hties : ∀ e ∈ events, eventOrderingTs mode e ≤ target →
      compareBookEvents mode s e = .eq → e.kind = .snapshot) :
    (after.filter fun e => eventOrderingTs mode e ≤ target) =
      (sortBookEvents mode events).filter fun e =>
        compareBookEvents mode s e = .lt && eventOrderingTs mode e ≤ target := by
  have hsorted := List.pairwise_insertionSort (bookEventLe mode) events
  change (sortBookEvents mode events).Pairwise _ at hsorted
  have hmem : ∀ e, e ∈ sortBookEvents mode events → e ∈ events :=
    fun e he => (mem_sortBookEvents mode).mp he
  rw [h.split] at hsorted hmem ⊢
  obtain ⟨-, hrest, hbefore⟩ := List.pairwise_append.mp hsorted
  have hnone : ∀ e ∈ before ++ [s], (compareBookEvents mode s e = .lt &&
      eventOrderingTs mode e ≤ target) = false := by
    intro e he
    have hle : bookEventLe mode e s := by
      rcases List.mem_append.mp he with he | he
      · exact hbefore e he s List.mem_cons_self
      · rw [List.mem_singleton] at he
        rw [he]
        exact h.le_last h.mem_last h.seeds
    have hswap : compareBookEvents mode e s = (compareBookEvents mode s e).swap :=
      Std.OrientedCmp.eq_swap
    unfold bookEventLe at hle
    rw [hswap] at hle
    cases hcompare : compareBookEvents mode s e with
    | lt =>
        rw [hcompare] at hle
        cases hle
    | eq => simp
    | gt => simp
  have hfront := List.filter_eq_nil_iff.mpr fun e he => Bool.not_eq_true _ ▸ hnone e he
  rw [List.append_cons, List.filter_append, hfront, List.nil_append]
  apply List.filter_congr
  intro e he
  by_cases hdue : eventOrderingTs mode e ≤ target
  · have hle : bookEventLe mode s e := (List.pairwise_cons.mp hrest).1 e he
    have hne : compareBookEvents mode s e ≠ .eq := by
      intro htied
      have hmem' := hmem e (List.mem_append_right _ (List.mem_cons_of_mem _ he))
      have hadmitted := (seedsAt_iff.mp h.seeds).2.2
      rw [(times_of_tied htied).2] at hadmitted
      have hseeds := seedsAt_iff.mpr ⟨hties e hmem' hdue htied, hdue, hadmitted⟩
      rw [h.last e he] at hseeds
      cases hseeds
    unfold bookEventLe at hle
    cases hcompare : compareBookEvents mode s e with
    | lt => simp
    | eq => exact absurd hcompare hne
    | gt =>
        rw [hcompare] at hle
        cases hle
  · simp [hdue]

/-- The loop behind the seed. -/
theorem replayLoop_later (hties : ∀ e ∈ events, eventOrderingTs mode e ≤ target →
      compareBookEvents mode s e = .eq → e.kind = .snapshot) (book : L2Book)
    (marks : List IngestEvent) :
    replayLoop assetId target mode (sortBookEvents mode events).length after book marks =
      replayLoop assetId target mode (sortBookEvents mode events).length
        ((sortBookEvents mode events).filter fun e =>
          compareBookEvents mode s e = .lt && eventOrderingTs mode e ≤ target) book marks := by
  have hsuffix : after <:+ sortBookEvents mode events :=
    ⟨before ++ [s], by rw [h.split, List.append_assoc, List.singleton_append]⟩
  rw [← h.later_eq_filter hties]
  exact replayLoop_filter assetId target mode
    ((sortBookEvents_sorted mode events).sublist hsuffix.sublist) hsuffix.length_le
    hsuffix.length_le book marks

end SeedSplit

variable (hperm : events.Perm window) (marks : List IngestEvent)

include hperm

/-- Two orders of a window have one length. -/
theorem length_sort_perm :
    (sortBookEvents mode events).length = (sortBookEvents mode window).length := by
  simp only [sortBookEvents, List.length_insertionSort, hperm.length_eq]

/-- On a checkpoint the loop takes what lies past its time. -/
theorem seededLoop_perm_of_checkpoint (c : BookCheckpoint)
    (hties : ∀ a ∈ window, ∀ b ∈ window,
      (eventOrderingTs mode a ≤ target ∧ checkpointOrderingTs c mode < eventOrderingTs mode a) →
      (eventOrderingTs mode b ≤ target ∧ checkpointOrderingTs c mode < eventOrderingTs mode b) →
      compareBookEvents mode a b = .eq → Interchangeable a b) :
    ((replaySeed assetId target mode boundary (some c) (sortBookEvents mode events)).bind
        fun seed =>
      replayLoop assetId target mode (sortBookEvents mode events).length
        ((sortBookEvents mode events).drop seed.2) seed.1 marks) =
      (replaySeed assetId target mode boundary (some c) (sortBookEvents mode window)).bind
        fun seed => replayLoop assetId target mode (sortBookEvents mode window).length
          ((sortBookEvents mode window).drop seed.2) seed.1 marks := by
  simp only [replaySeed, seedFromCheckpoint]
  cases (L2Book.new assetId).applyReplayCheckpoint c mode with
  | error err => rfl
  | ok book =>
      have hloop : ∀ stored : List BookEvent,
          replayLoop assetId target mode (sortBookEvents mode stored).length
            ((sortBookEvents mode stored).filter fun event =>
              checkpointOrderingTs c mode < eventOrderingTs mode event) book marks =
          replayLoop assetId target mode (sortBookEvents mode stored).length
            ((sortBookEvents mode stored).filter fun event =>
              decide (eventOrderingTs mode event ≤ target) &&
                decide (checkpointOrderingTs c mode < eventOrderingTs mode event)) book marks := by
        intro stored
        rw [replayLoop_filter assetId target mode
          ((sortBookEvents_sorted mode stored).filter _) (List.length_filter_le _ _)
          (List.length_filter_le _ _), List.filter_filter]
      simp only [Except.bind]
      rw [drop_checkpoint, drop_checkpoint, hloop, hloop, length_sort_perm hperm]
      apply replayLoop_perm hperm
      intro a ha b hb hpa hpb htied
      simp only [Bool.and_eq_true, decide_eq_true_eq] at hpa hpb
      exact hties a ha b hb hpa hpb htied

/-- Two orders of a window have a snapshot, or neither has. -/
theorem latestSnapshotIdx_none_perm
    (hnone : latestSnapshotIdx target mode boundary (sortBookEvents mode events) = none) :
    latestSnapshotIdx target mode boundary (sortBookEvents mode window) = none := by
  rw [latestSnapshotIdx, rposition_eq_none_iff] at hnone ⊢
  intro e he
  apply hnone e
  rw [mem_sortBookEvents] at he ⊢
  exact hperm.mem_iff.mpr he

/-- In the other order the replay is seeded too, from a snapshot tied with the first. -/
theorem SeedSplit.exists_perm {before after : List BookEvent} {s : BookEvent}
    (h : SeedSplit target mode boundary (sortBookEvents mode events) before s after) :
    ∃ before' s' after',
      SeedSplit target mode boundary (sortBookEvents mode window) before' s' after' ∧
        compareBookEvents mode s s' = .eq := by
  obtain ⟨n, hidx⟩ : ∃ n, latestSnapshotIdx target mode boundary
      (sortBookEvents mode window) = some n := by
    rw [← Option.isSome_iff_exists, ← Option.ne_none_iff_isSome]
    intro hnone
    rw [latestSnapshotIdx, rposition_eq_none_iff] at hnone
    have hs := hnone s ((mem_sortBookEvents mode).mpr (hperm.mem_iff.mp h.mem_last))
    have hseeds := h.seeds
    rw [seedsAt, hs] at hseeds
    cases hseeds
  obtain ⟨before', s', after', h', -⟩ := latestSnapshotIdx_eq_some_iff.mp hidx
  refine ⟨before', s', after', h', tied_iff.mp ⟨?_, ?_⟩⟩
  · exact h'.le_last (hperm.mem_iff.mp h.mem_last) h.seeds
  · exact h.le_last (hperm.mem_iff.mpr h'.mem_last) h'.seeds

omit hperm in
/-- What is no earlier than the last seed is no earlier than any. -/
theorem SeedSplit.seeds_le {before after : List BookEvent} {s e : BookEvent}
    (h : SeedSplit target mode boundary (sortBookEvents mode window) before s after)
    (hle : compareBookEvents mode s e ≠ .gt) :
    ∀ seed ∈ window, seedsAt target mode boundary seed = true → bookEventLe mode seed e := by
  intro seed hmem hseeds
  have hse : bookEventLe mode s e := by
    unfold bookEventLe
    cases hcompare : compareBookEvents mode s e with
    | lt => rfl
    | eq => rfl
    | gt => exact absurd hcompare hle
  exact IsTrans.trans seed s e (h.le_last hmem hseeds) hse

/-- On a snapshot the loop takes what lies strictly behind it. -/
theorem seededLoop_perm_of_snapshot
    (hties : ∀ a ∈ window, ∀ b ∈ window, eventOrderingTs mode a ≤ target →
      eventOrderingTs mode b ≤ target →
      (∀ s ∈ window, seedsAt target mode boundary s = true → bookEventLe mode s a) →
      (∀ s ∈ window, seedsAt target mode boundary s = true → bookEventLe mode s b) →
      (∃ s ∈ window, seedsAt target mode boundary s = true) →
      compareBookEvents mode a b = .eq → Interchangeable a b) :
    ((replaySeed assetId target mode boundary none (sortBookEvents mode events)).bind fun seed =>
      replayLoop assetId target mode (sortBookEvents mode events).length
        ((sortBookEvents mode events).drop seed.2) seed.1 marks) =
      (replaySeed assetId target mode boundary none (sortBookEvents mode window)).bind
        fun seed => replayLoop assetId target mode (sortBookEvents mode window).length
          ((sortBookEvents mode window).drop seed.2) seed.1 marks := by
  simp only [replaySeed]
  cases hidx : latestSnapshotIdx target mode boundary (sortBookEvents mode events) with
  | none =>
      have hnone := latestSnapshotIdx_none_perm hperm hidx
      simp only [seedFromSnapshot, hidx, hnone]
      rfl
  | some n =>
      obtain ⟨before, s, after, h, -⟩ := latestSnapshotIdx_eq_some_iff.mp hidx
      obtain ⟨before', s', after', h', htied⟩ := h.exists_perm hperm
      have hseed : ∃ s ∈ window, seedsAt target mode boundary s = true :=
        ⟨s', h'.mem_last, h'.seeds⟩
      -- The seeds are tied with snapshots only, in either order of storage.
      have hlevels : ∀ e ∈ window, eventOrderingTs mode e ≤ target →
          compareBookEvents mode s' e = .eq → e.kind = .snapshot := by
        intro e he hdue heq
        have hself : compareBookEvents mode s' s' = .eq := Std.ReflCmp.compare_self
        have hkind := (hties s' h'.mem_last e he (seedsAt_iff.mp h'.seeds).2.1 hdue
          (h'.seeds_le (by simp [hself])) (h'.seeds_le (by simp [heq])) hseed heq).kind
        rw [← hkind]
        exact (seedsAt_iff.mp h'.seeds).1
      have hlevels' : ∀ e ∈ events, eventOrderingTs mode e ≤ target →
          compareBookEvents mode s e = .eq → e.kind = .snapshot := by
        intro e he hdue heq
        rw [Std.TransCmp.congr_left htied] at heq
        exact hlevels e (hperm.mem_iff.mp he) hdue heq
      have hcongr : ∀ e, compareBookEvents mode s e = compareBookEvents mode s' e :=
        fun e => Std.TransCmp.congr_left htied
      rw [h.seedFromSnapshot_eq, h'.seedFromSnapshot_eq, (times_of_tied htied).1,
        applySnapshotEvents_perm hperm]
      cases (L2Book.new assetId).applySnapshotEvents (snapshotGroupAt mode boundary
          (eventOrderingTs mode s') (sortBookEvents mode window)) (eventOrderingTs mode s') with
      | error err => rfl
      | ok book =>
          simp only [Except.bind]
          rw [h.drop_eq, h'.drop_eq, h.replayLoop_later hlevels', h'.replayLoop_later hlevels,
            length_sort_perm hperm]
          simp only [hcongr]
          apply replayLoop_perm hperm
          intro a ha b hb hpa hpb heq
          simp only [Bool.and_eq_true, decide_eq_true_eq] at hpa hpb
          exact hties a ha b hb hpa.2 hpb.2 (h'.seeds_le (by simp [hpa.1]))
            (h'.seeds_le (by simp [hpb.1])) hseed heq

end Permutation

/-- **The order of storage plays no part** while the replayed events are tied with
interchangeable ones only. -/
theorem reconstructBook_perm (assetId : AssetId) {target : Nat} {mode : ReplayMode}
    {checkpoint : Option BookCheckpoint} {window : MarketDataWindow}
    (hties : TiesInterchange target mode checkpoint window) {events : List BookEvent}
    (hperm : events.Perm window.bookEvents) :
    reconstructBook assetId target mode checkpoint { window with bookEvents := events } =
      reconstructBook assetId target mode checkpoint window := by
  have hbind : ∀ (seeded : Except ReplayError (L2Book × Nat))
      (loop : L2Book × Nat → Except ReplayError (L2Book × List IngestEvent)) (used : Bool),
      (seeded.bind fun seed => (loop seed).map (loopResult assetId used)) =
        (seeded.bind loop).map (loopResult assetId used) := by
    intro seeded loop used
    cases seeded <;> rfl
  rw [reconstructBook_eq, reconstructBook_eq, hbind, hbind]
  congr 1
  unfold TiesInterchange replays at hties
  dsimp only at hties ⊢
  generalize latestResetBoundaryUs window.ingestEvents target = boundary at hties ⊢
  cases hsurviving : survivingCheckpoint boundary checkpoint with
  | some c =>
      rw [hsurviving] at hties
      apply seededLoop_perm_of_checkpoint hperm
      intro a ha b hb hpa hpb
      apply hties a ha b hb
      · simpa using hpa
      · simpa using hpb
  | none =>
      rw [hsurviving] at hties
      apply seededLoop_perm_of_snapshot hperm
      intro a ha b hb hda hdb hsa hsb hseed
      obtain ⟨s, hs, hseeds⟩ := hseed
      have hany : window.bookEvents.any (seedsAt target mode boundary) = true :=
        List.any_eq_true.mpr ⟨s, hs, hseeds⟩
      have hreplayed : ∀ e, eventOrderingTs mode e ≤ target →
          (∀ s ∈ window.bookEvents, seedsAt target mode boundary s = true →
            bookEventLe mode s e) →
          (decide (eventOrderingTs mode e ≤ target) &&
            (window.bookEvents.any (seedsAt target mode boundary) &&
              window.bookEvents.all fun s =>
                !seedsAt target mode boundary s || decide (bookEventLe mode s e))) = true := by
        intro e hdue hbehind
        rw [hany, Bool.true_and, decide_eq_true hdue, Bool.true_and, List.all_eq_true]
        intro s hs
        cases hseeds : seedsAt target mode boundary s with
        | false => rfl
        | true => simpa using hbehind s hs hseeds
      exact hties a ha b hb (hreplayed a hda hsa) (hreplayed b hdb hsb)

/-! ## Ties that show -/

/-- What a reconstruction is asked for. -/
def Reconstruction.answer (r : Reconstruction) :
    (BidLevels × AskLevels) × Sequence × List IngestEvent × Bool :=
  (r.book.levels, r.book.sequence, r.continuityEvents, r.usedCheckpoint)

/-- Room for one size at one price. -/
def Capacity.single (side : Side) (price : FixedPrice) (size : FixedSize) : Capacity where
  cap s raw := if s = side ∧ raw = price.raw then size.raw else 0
  fits s := by
    refine Nat.le_trans ?_ size.le_max
    by_cases hs : s = side
    · simp only [hs, true_and, Finset.sum_ite_eq']
      split
      · exact Nat.le_refl _
      · exact Nat.zero_le _
    · simp [hs]

/-- Records of one level stay within its capacity. -/
theorem Capacity.admits_single {a : BookEvent} {events : List BookEvent}
    (h : ∀ e ∈ events, SameLevel a e) :
    (Capacity.single a.side a.price a.size).AdmitsEvents events := by
  intro e he
  have hlevel := h e he
  simp [Capacity.single, hlevel.side, hlevel.price, hlevel.size]

section OneLevel

variable {assetId : AssetId} {mode : ReplayMode} {a : BookEvent}

/-- Every repeated number is a gap. -/
theorem replayLoop_one_level {events : List BookEvent} (hlevel : ∀ e ∈ events, SameLevel a e)
    (hkind : ∀ e ∈ events, e.kind = .delta)
    (htime : ∀ e ∈ events, eventOrderingTs mode e = eventOrderingTs mode a) {fuel : Nat}
    (hfuel : events.length ≤ fuel) {book : L2Book}
    (hbook : book.Within (Capacity.single a.side a.price a.size))
    (hinit : book.seqInitialized = true)
    (hsequence : book.sequence = a.provenance.sequence.getD 0) (marks : List IngestEvent) :
    ∃ next later, replayLoop assetId (eventOrderingTs mode a) mode fuel events book marks =
        .ok (next, marks ++ later) ∧
      reportedGaps later = events.map (·.provenance.quoted) := by
  induction events generalizing fuel book marks with
  | nil =>
      refine ⟨book, [], ?_, rfl⟩
      rw [List.append_nil]
      cases fuel <;> rfl
  | cons e rest ih =>
      cases fuel with
      | zero => simp at hfuel
      | succ fuel =>
          have he := hlevel e List.mem_cons_self
          have hcap := Capacity.admits_single hlevel e List.mem_cons_self
          obtain ⟨next, hnext, hwithin, -⟩ := hbook.tryApplyDelta_within hcap
            (e.provenance.sequence.getD 0) (eventOrderingTs mode a)
          obtain ⟨hsequence', hinit'⟩ := L2Book.tryApplyDelta_sequence hnext
          obtain ⟨error, herror⟩ : ∃ error, book.checkSequence (e.provenance.sequence.getD 0) =
              .error error := by
            cases hcheck : book.checkSequence (e.provenance.sequence.getD 0) with
            | error error => exact ⟨error, rfl⟩
            | ok value =>
                have hnumber := (L2Book.checkSequence_eq_ok_iff hinit).mp hcheck
                rw [hsequence, he.sequence] at hnumber
                exact absurd hnumber (Sequence.next_ne _)
          obtain ⟨last, later, hloop, hgaps⟩ := ih
            (fun d hd => hlevel d (List.mem_cons_of_mem _ hd))
            (fun d hd => hkind d (List.mem_cons_of_mem _ hd))
            (fun d hd => htime d (List.mem_cons_of_mem _ hd)) (by simpa using hfuel) hwithin hinit'
            (hsequence'.trans he.sequence.symm) (marks ++ [sequenceGapEvent assetId e book error])
          refine ⟨last, sequenceGapEvent assetId e book error :: later, ?_, ?_⟩
          · simp only [replayLoop, htime e List.mem_cons_self, Nat.lt_irrefl, if_false,
              hkind e List.mem_cons_self, herror, hnext]
            rw [hloop, List.append_assoc, List.singleton_append]
          · rw [← List.singleton_append, reportedGaps_append, hgaps]
            rfl

/-- Tied records in any order are in sorted order. -/
theorem sortBookEvents_tied {events : List BookEvent}
    (h : ∀ e ∈ events, compareBookEvents mode a e = .eq) : sortBookEvents mode events = events := by
  apply List.Pairwise.insertionSort_eq
  apply List.pairwise_of_forall_mem_list
  intro d hd e he
  have hda : Tied (bookEventLe mode) a d := tied_iff.mpr (h d hd)
  have hae : Tied (bookEventLe mode) a e := tied_iff.mpr (h e he)
  exact (hda.symm.trans hae).1

/-- The gaps reported of a snapshot record among level changes that it is tied with:
those behind it. -/
theorem reportedGaps_one_level (assetId : AssetId) {before after : List BookEvent} {s : BookEvent}
    (hs : s.kind = .snapshot) (hkind : ∀ e ∈ before ++ after, e.kind = .delta)
    (htied : ∀ e ∈ before ++ s :: after, compareBookEvents mode a e = .eq) :
    ∃ r, reconstructBook assetId (eventOrderingTs mode a) mode none
        ⟨before ++ s :: after, [], []⟩ = .ok r ∧
      reportedGaps r.continuityEvents = after.map (·.provenance.quoted) := by
  have hlevel : ∀ e ∈ before ++ s :: after, SameLevel a e :=
    fun e he => (compareBookEvents_eq_iff.mp (htied e he)).2.2.1
  have htime : ∀ e ∈ before ++ s :: after, eventOrderingTs mode e = eventOrderingTs mode a :=
    fun e he => (times_of_tied (htied e he)).1.symm
  have hs_mem : s ∈ before ++ s :: after := List.mem_append_right _ List.mem_cons_self
  have hafter_mem : ∀ e ∈ after, e ∈ before ++ s :: after :=
    fun e he => List.mem_append_right _ (List.mem_cons_of_mem _ he)
  have hsplit : SeedSplit (eventOrderingTs mode a) mode none
      (sortBookEvents mode (before ++ s :: after)) before s after := by
    refine ⟨sortBookEvents_tied htied, seedsAt_iff.mpr ⟨hs, (htime s hs_mem).le, rfl⟩, ?_⟩
    intro e he
    have hdelta := hkind e (List.mem_append_right _ he)
    simp [seedsAt, hdelta]
  have hgroup : snapshotGroupAt mode none (eventOrderingTs mode s)
      (sortBookEvents mode (before ++ s :: after)) = [s] := by
    have hnone : ∀ part : List BookEvent, (∀ e ∈ part, e.kind = .delta) →
        snapshotGroupAt mode none (eventOrderingTs mode s) part = [] := by
      intro part hpart
      apply List.filter_eq_nil_iff.mpr
      intro e he
      simp [hpart e he]
    have hbefore := hnone before fun e he => hkind e (List.mem_append_left _ he)
    have hafter := hnone after fun e he => hkind e (List.mem_append_right _ he)
    unfold snapshotGroupAt at hbefore hafter ⊢
    rw [sortBookEvents_tied htied, List.filter_append, List.filter_cons, hbefore, hafter]
    simp [hs, afterReset]
  have hadmits : (Capacity.single a.side a.price a.size).AdmitsEvents [s] := by
    apply Capacity.admits_single
    intro e he
    rw [List.mem_singleton] at he
    rw [he]
    exact hlevel s hs_mem
  obtain ⟨book, hbook, hwithin, -⟩ :=
    applySnapshotEvents_within hadmits (L2Book.new assetId) (eventOrderingTs mode s)
  obtain ⟨hsequence, hinit⟩ := L2Book.tryApplySnapshot_sequence hbook
  have hfuel : after.length ≤ (sortBookEvents mode (before ++ s :: after)).length := by
    rw [hsplit.split, List.length_append, List.length_cons]
    omega
  obtain ⟨next, later, hloop, hgaps⟩ : ∃ next later,
      replayLoop assetId (eventOrderingTs mode a) mode
        (sortBookEvents mode (before ++ s :: after)).length after book [] =
          .ok (next, [] ++ later) ∧
      reportedGaps later = after.map (·.provenance.quoted) :=
    replayLoop_one_level (fun e he => hlevel e (hafter_mem e he))
      (fun e he => hkind e (List.mem_append_right _ he)) (fun e he => htime e (hafter_mem e he))
      hfuel hwithin hinit (hsequence.trans (hlevel s hs_mem).sequence.symm) []
  refine ⟨loopResult assetId false (next, later), ?_, ?_⟩
  · rw [reconstructBook_eq]
    have hreset : latestResetBoundaryUs [] (eventOrderingTs mode a) = none := rfl
    simp only [hreset, survivingCheckpoint, Option.filter_none, replaySeed,
      hsplit.seedFromSnapshot_eq, hgroup, hbook, Except.bind, hsplit.drop_eq]
    rw [show sortByKey (fun event : IngestEvent => event.provenance.recvTimestampUs) [] = [] from
      rfl, hloop]
    rfl
  · rw [← hgaps]
    exact reportedGaps_loopResult assetId false (next, later)

end OneLevel

/-- Two orders that report different gaps. -/
theorem answer_ne_of_gaps {assetId : AssetId} {mode : ReplayMode} {a s : BookEvent}
    (before before' : List BookEvent) {after after' : List BookEvent} (hs : s.kind = .snapshot)
    (hkind : ∀ e ∈ before ++ after, e.kind = .delta)
    (hkind' : ∀ e ∈ before' ++ after', e.kind = .delta)
    (htied : ∀ e ∈ before ++ s :: after, compareBookEvents mode a e = .eq)
    (htied' : ∀ e ∈ before' ++ s :: after', compareBookEvents mode a e = .eq)
    (hgaps : after'.map (·.provenance.quoted) ≠ after.map (·.provenance.quoted)) :
    (reconstructBook assetId (eventOrderingTs mode a) mode none
        ⟨before' ++ s :: after', [], []⟩).map Reconstruction.answer ≠
      (reconstructBook assetId (eventOrderingTs mode a) mode none
        ⟨before ++ s :: after, [], []⟩).map Reconstruction.answer := by
  obtain ⟨r, hr, hreported⟩ := reportedGaps_one_level assetId hs hkind htied
  obtain ⟨r', hr', hreported'⟩ := reportedGaps_one_level assetId hs hkind' htied'
  rw [hr, hr']
  intro hsame
  apply hgaps
  have hanswer : r'.answer = r.answer := Except.ok.inj hsame
  have hevents : r'.continuityEvents = r.continuityEvents :=
    congrArg (fun answer => answer.2.2.1) hanswer
  rw [← hreported, ← hreported', hevents]

/-- Every tie of records that are not interchangeable shows in a window. -/
theorem tie_shows (assetId : AssetId) {mode : ReplayMode} {a b : BookEvent}
    (htied : compareBookEvents mode a b = .eq) (hnot : ¬ Interchangeable a b) :
    ∃ target events events', events.Nodup ∧ a ∈ events ∧ b ∈ events ∧ events'.Perm events ∧
      (reconstructBook assetId target mode none ⟨events', [], []⟩).map Reconstruction.answer ≠
        (reconstructBook assetId target mode none ⟨events, [], []⟩).map Reconstruction.answer := by
  have hself : ∀ e, compareBookEvents mode e e = .eq := fun e => Std.ReflCmp.compare_self
  have hboth : ∀ e ∈ [a, b], compareBookEvents mode a e = .eq := by
    simp [hself, htied]
  have hboth' : ∀ e ∈ [b, a], compareBookEvents mode a e = .eq := by
    simp [hself, htied]
  have hne : a ≠ b := by
    rintro rfl
    exact hnot ⟨rfl, fun _ => rfl⟩
  cases hka : a.kind with
  | snapshot =>
      cases hkb : b.kind with
      | snapshot => exact absurd ⟨hka.trans hkb.symm, by simp [hka]⟩ hnot
      | delta =>
          refine ⟨eventOrderingTs mode a, [a, b], [b, a], by simp [hne], by simp, by simp,
            .swap a b [], ?_⟩
          exact answer_ne_of_gaps [] [b] hka (by simp [hkb])
            (by simp [hkb]) hboth hboth' (by simp)
  | delta =>
      cases hkb : b.kind with
      | snapshot =>
          refine ⟨eventOrderingTs mode a, [a, b], [b, a], by simp [hne], by simp, by simp,
            .swap a b [], ?_⟩
          exact answer_ne_of_gaps [a] [] hkb (by simp [hka])
            (by simp [hka]) hboth hboth' (by simp)
      | delta =>
          have hquoted : a.provenance.quoted ≠ b.provenance.quoted :=
            fun hquoted => hnot ⟨hka.trans hkb.symm, fun _ => hquoted⟩
          have hlevel : compareBookEvents mode a { a with kind := .snapshot } = .eq := hself a
          have hfresh : ∀ e : BookEvent, e.kind = .delta → { a with kind := .snapshot } ≠ e := by
            rintro e he rfl
            cases he
          refine ⟨eventOrderingTs mode a, [{ a with kind := .snapshot }, a, b],
            [{ a with kind := .snapshot }, b, a], by simp [hne, hfresh a hka, hfresh b hkb],
            by simp, by simp, .cons _ (.swap a b []), ?_⟩
          exact answer_ne_of_gaps [] [] rfl (by simp [hka, hkb])
            (by simp [hka, hkb]) (by simp [hlevel, hself, htied]) (by simp [hlevel, hself, htied])
            (by simp [hquoted, hquoted.symm])

/-- **Storage order.**  The order of storage plays no part while the replayed events are
tied with interchangeable ones only, and a tie of any other kind shows in a window. -/
theorem reconstructBook_storage_order (assetId : AssetId) (mode : ReplayMode) :
    (∀ target checkpoint window, TiesInterchange target mode checkpoint window →
      ∀ events, events.Perm window.bookEvents →
        reconstructBook assetId target mode checkpoint { window with bookEvents := events } =
          reconstructBook assetId target mode checkpoint window) ∧
    ∀ a b, compareBookEvents mode a b = .eq → ¬ Interchangeable a b →
      ∃ target events events', events.Nodup ∧ a ∈ events ∧ b ∈ events ∧ events'.Perm events ∧
        (reconstructBook assetId target mode none ⟨events', [], []⟩).map Reconstruction.answer ≠
          (reconstructBook assetId target mode none ⟨events, [], []⟩).map Reconstruction.answer :=
  ⟨fun _ _ _ hties _ hperm => reconstructBook_perm assetId hties hperm,
    fun _ _ htied hnot => tie_shows assetId htied hnot⟩

/-! Legacy records, stored without ordinals. -/
namespace LegacyWindow

/-- The snapshot of the sample. -/
def snapshot : BookEvent := Sample.level .snapshot "tok1" .bid 40 1 1000 "message"

/-- The same level from another connection. -/
def resent : BookEvent :=
  { snapshot with provenance := { snapshot.provenance with sourceSessionId := some "other" } }

/-- A level change that ties with it. -/
def delta : BookEvent := { snapshot with kind := .delta }

/-- A window of legacy records. -/
def window (events : List BookEvent) : MarketDataWindow := ⟨events, [], []⟩

end LegacyWindow

/-- A snapshot that was sent twice may be stored in either order. -/
theorem reconstructBook_storage_order_resent :
    reconstructBook "tok1" 2000 .recvTime none
        (LegacyWindow.window [LegacyWindow.resent, LegacyWindow.snapshot]) =
      reconstructBook "tok1" 2000 .recvTime none
        (LegacyWindow.window [LegacyWindow.snapshot, LegacyWindow.resent]) :=
  (reconstructBook_storage_order "tok1" .recvTime).1 2000 none
    (LegacyWindow.window [LegacyWindow.snapshot, LegacyWindow.resent]) (by decide +kernel) _
    (.swap _ _ [])

/-- A level change with the key of a snapshot record: the gap it is reported as depends
on which of the two is stored first. -/
theorem storage_order_shows :
    ¬ ∀ (assetId : AssetId) (target : Nat) (mode : ReplayMode) (checkpoint : Option BookCheckpoint)
      (window : MarketDataWindow) (events : List BookEvent), window.bookEvents.Nodup →
        events.Perm window.bookEvents →
        (reconstructBook assetId target mode checkpoint { window with bookEvents := events }).map
            Reconstruction.answer =
          (reconstructBook assetId target mode checkpoint window).map Reconstruction.answer := by
  intro hall
  have hsame := hall "tok1" 1000 .recvTime none
    (LegacyWindow.window [LegacyWindow.snapshot, LegacyWindow.delta])
    [LegacyWindow.delta, LegacyWindow.snapshot] (by decide +kernel) (.swap _ _ [])
  have hgaps := congrArg
    (fun answer => answer.toOption.map fun shown => shown.2.2.1.length) hsame
  revert hgaps
  decide +kernel

end PolyBook
