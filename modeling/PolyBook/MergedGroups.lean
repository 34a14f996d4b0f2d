import PolyBook.BookTotals
import PolyBook.ReplayReset
import Mathlib.Data.List.DropRight

/-!
# Snapshot messages that share a timestamp

A stored snapshot message is a group of records, one per level.  Replay finds the
last snapshot record up to the target and takes for its group whatever snapshot
records carry the same time: all of them when it seeds the book, those next to it
in the loop.  The dispatcher accepts snapshot messages with equal venue times, so
the records taken may come from several messages.

`last_group_decides_iff` says when nothing of the other messages is left over: when
every level they list is listed at the same size by the last message, or written by
a level change after it.
-/

namespace PolyBook

open Overwrite

/-- The snapshot records of one `book` message, as they were logged. -/
structure IsGroup (group : List BookEvent) : Prop where
  nonempty : group ≠ []
  snapshots : ∀ e ∈ group, e.kind = .snapshot
  oneMessage : ∀ d ∈ group, ∀ e ∈ group, d.groupKey = e.groupKey
  numbered : group.map (fun e => e.provenance.sequence) = (List.range group.length).map some
  logged : group.Pairwise fun d e => ordinalKey d < ordinalKey e

/-- A window of snapshot groups and level changes, each record with its own ingest
ordinal, and the group whose record is the last snapshot record up to the target in
the order of replay. -/
structure LastGroup (target : Nat) (mode : ReplayMode) (checkpoint : Option BookCheckpoint)
    (window : MarketDataWindow) where
  groups : List (List BookEvent)
  deltas : List BookEvent
  parts : window.bookEvents.Perm (groups.flatten ++ deltas)
  isGroup : ∀ g ∈ groups, IsGroup g
  isDelta : ∀ e ∈ deltas, e.kind = .delta
  ordinals : ∀ e ∈ window.bookEvents, e.provenance.ingestOrdinal.isSome
  distinct : window.bookEvents.Pairwise fun d e => ordinalKey d ≠ ordinalKey e
  before : List BookEvent
  last : BookEvent
  after : List BookEvent
  sorted : sortBookEvents mode window.bookEvents = before ++ last :: after
  snapshot : last.kind = .snapshot
  due : eventOrderingTs mode last ≤ target
  latest : ∀ e ∈ after, eventOrderingTs mode e ≤ target → e.kind = .delta
  group : List BookEvent
  group_mem : group ∈ groups
  last_mem : last ∈ group
  sinceReset : afterReset (latestResetBoundaryUs window.ingestEvents target)
    last.provenance.recvTimestampUs = true
  sinceCheckpoint : ∀ cp ∈ survivingCheckpoint
    (latestResetBoundaryUs window.ingestEvents target) checkpoint,
      checkpointOrderingTs cp mode < eventOrderingTs mode last

/-- Level changes applied in turn. -/
def applyDeltas (mode : ReplayMode) (book : L2Book) (events : List BookEvent) :
    Except BookError L2Book :=
  events.foldlM (fun book event => book.tryApplyDelta event.side event.price event.size
    (event.provenance.sequence.getD 0) (eventOrderingTs mode event)) book

namespace LastGroup

variable {target : Nat} {mode : ReplayMode} {checkpoint : Option BookCheckpoint}
  {window : MarketDataWindow} (h : LastGroup target mode checkpoint window)

/-- The time the last group has in the active clock. -/
def time : Nat := eventOrderingTs mode h.last

/-- The level changes after the last group, up to the target. -/
def later : List BookEvent := h.after.filter fun e => eventOrderingTs mode e ≤ target

/-- The last group with the later level changes applied. -/
def rebuilt (assetId : AssetId) : Except BookError L2Book := do
  let book ← (L2Book.new assetId).applySnapshotEvents h.group h.time
  applyDeltas mode book h.later

/-- The reconstruction holds the levels of the last group with the later level changes
applied. -/
def Decides (assetId : AssetId) : Prop :=
  ∀ book, h.rebuilt assetId = .ok book →
    ∃ r, reconstructBook assetId target mode checkpoint window = .ok r ∧
      r.book.levels = book.levels

/-- The records that replay takes for the last group. -/
def shared : List BookEvent :=
  match survivingCheckpoint (latestResetBoundaryUs window.ingestEvents target) checkpoint with
  | none => snapshotGroupAt mode (latestResetBoundaryUs window.ingestEvents target) h.time
      (sortBookEvents mode window.bookEvents)
  | some _ => (h.before ++ [h.last]).rtakeWhile fun e =>
      e.kind = .snapshot && eventOrderingTs mode e = h.time

/-- No other message has a snapshot record with the time of the last group. -/
def Alone : Prop :=
  ∀ e ∈ window.bookEvents, e.kind = .snapshot → eventOrderingTs mode e = h.time → e ∈ h.group

/-- What the records taken for the group list at a price, the group lists too, or a
later level change writes it. -/
def NothingLeft : Prop :=
  ∀ (side : Side) (price : FixedPrice),
    lastListed (eventLevels side h.shared) price.raw =
        lastListed (eventLevels side h.group) price.raw ∨
      ∃ e ∈ h.later, e.side = side ∧ e.price = price

/-- The last group as the split that replay makes. -/
theorem seedSplit : SeedSplit target mode (latestResetBoundaryUs window.ingestEvents target)
    (sortBookEvents mode window.bookEvents) h.before h.last h.after where
  split := h.sorted
  seeds := seedsAt_iff.mpr ⟨h.snapshot, h.due, h.sinceReset⟩
  last e he := by
    by_contra hseeds
    rw [Bool.not_eq_false, seedsAt_iff] at hseeds
    rw [h.latest e he hseeds.2.1] at hseeds
    cases hseeds.1

/-- What comes behind the group are level changes. -/
theorem later_delta {e : BookEvent} (he : e ∈ h.later) : e.kind = .delta := by
  obtain ⟨hmem, hdue⟩ := List.mem_filter.mp he
  exact h.latest e hmem (by simpa using hdue)

/-- The group is of the window. -/
theorem mem_events_of_mem_group {e : BookEvent} (he : e ∈ h.group) : e ∈ window.bookEvents := by
  apply h.parts.mem_iff.mpr
  exact List.mem_append_left _ (List.mem_flatten.mpr ⟨h.group, h.group_mem, he⟩)

/-- What comes behind the group is of the window. -/
theorem later_subset {e : BookEvent} (he : e ∈ h.later) : e ∈ window.bookEvents := by
  apply (mem_sortBookEvents mode).mp
  rw [h.sorted]
  exact List.mem_append_right _ (List.mem_cons_of_mem _ (List.mem_filter.mp he).1)

/-- The records of a group have one time. -/
theorem ordering_of_mem_group {e : BookEvent} (he : e ∈ h.group) :
    eventOrderingTs mode e = h.time ∧
      e.provenance.recvTimestampUs = h.last.provenance.recvTimestampUs := by
  have hkey := (h.isGroup h.group h.group_mem).oneMessage e he h.last h.last_mem
  simp only [BookEvent.groupKey, SnapshotGroupKey.mk.injEq] at hkey
  refine ⟨?_, hkey.2.1⟩
  unfold time
  cases mode with
  | recvTime => exact hkey.2.1
  | exchangeTime => simp only [eventOrderingTs, normalizedExchangeTs, hkey.2.1, hkey.2.2.1]

/-- Alone at its time, the group is what replay takes for it. -/
theorem snapshotGroupAt_eq_of_alone (halone : h.Alone) :
    snapshotGroupAt mode (latestResetBoundaryUs window.ingestEvents target) h.time
      (sortBookEvents mode window.bookEvents) = h.group := by
  have hgroup := h.isGroup h.group h.group_mem
  rw [snapshotGroupAt, ← sortBookEvents_filter]
  apply sortBookEvents_eq_of_perm
  · refine hgroup.logged.imp_of_mem ?_
    intro d e hd he hlt
    have hd' := h.ordering_of_mem_group hd
    have he' := h.ordering_of_mem_group he
    exact compareBookEvents_lt mode (by rw [hd'.1, he'.1]) (by rw [hd'.2, he'.2]) hlt
  · have hnodup : window.bookEvents.Nodup :=
      h.distinct.imp fun hne heq => hne (congrArg ordinalKey heq)
    apply (List.perm_ext_iff_of_nodup (hnodup.filter _) ?_).mpr
    · intro e
      rw [List.mem_filter]
      constructor
      · rintro ⟨hmem, htaken⟩
        simp only [Bool.and_eq_true, decide_eq_true_eq] at htaken
        exact halone e hmem htaken.1.1 htaken.1.2
      · intro he
        obtain ⟨htime, hrecv⟩ := h.ordering_of_mem_group he
        refine ⟨h.mem_events_of_mem_group he, ?_⟩
        rw [hgroup.snapshots e he, htime, hrecv, h.sinceReset]
        simp
    · exact hgroup.logged.imp fun hlt heq => absurd hlt (by rw [heq]; exact lt_irrefl _)

end LastGroup

section Deltas

variable {target : Nat} {mode : ReplayMode}

/-- The first level change applies, and the others after it. -/
theorem applyDeltas_cons_eq_ok {book next : L2Book} {e : BookEvent} {rest : List BookEvent} :
    applyDeltas mode book (e :: rest) = .ok next ↔
      ∃ mid, book.tryApplyDelta e.side e.price e.size (e.provenance.sequence.getD 0)
        (eventOrderingTs mode e) = .ok mid ∧ applyDeltas mode mid rest = .ok next := by
  rw [applyDeltas, List.foldlM_cons]
  cases book.tryApplyDelta e.side e.price e.size (e.provenance.sequence.getD 0)
      (eventOrderingTs mode e) with
  | error err => simp [bind, Except.bind]
  | ok mid => simp [bind, Except.bind, applyDeltas]

/-- The loop carries out level changes that are taken one by one. -/
theorem replayLoop_applyDeltas (assetId : AssetId) {fuel : Nat} {events : List BookEvent}
    (hfuel : events.length ≤ fuel) (hkind : ∀ e ∈ events, e.kind = .delta)
    (hdue : ∀ e ∈ events, eventOrderingTs mode e ≤ target) {book next : L2Book}
    (hnext : applyDeltas mode book events = .ok next) (marks : List IngestEvent) :
    ∃ r, replayLoop assetId target mode fuel events book marks = .ok r ∧ r.1 = next := by
  induction events generalizing fuel book marks with
  | nil =>
      cases hnext
      cases fuel <;> exact ⟨_, rfl, rfl⟩
  | cons e rest ih =>
      cases fuel with
      | zero => simp at hfuel
      | succ fuel =>
          obtain ⟨mid, htake, hrest⟩ := applyDeltas_cons_eq_ok.mp hnext
          have htime := hdue e List.mem_cons_self
          simp only [replayLoop, Nat.not_lt.mpr htime, if_false, hkind e List.mem_cons_self, htake]
          exact ih (by simpa using hfuel) (fun d hd => hkind d (List.mem_cons_of_mem _ hd))
            (fun d hd => hdue d (List.mem_cons_of_mem _ hd)) hrest _

/-- Level changes within the capacity are taken. -/
theorem applyDeltas_within {c : Capacity} {events : List BookEvent}
    (hadmits : c.AdmitsEvents events) {book : L2Book} (hbook : book.Within c) :
    ∃ next, applyDeltas mode book events = .ok next ∧
      next.content = writes book.content (events.map BookEvent.write) := by
  induction events generalizing book with
  | nil => exact ⟨book, rfl, rfl⟩
  | cons e rest ih =>
      obtain ⟨mid, hmid, hwithin, hcontent⟩ := hbook.tryApplyDelta_within
        (hadmits e List.mem_cons_self) (e.provenance.sequence.getD 0) (eventOrderingTs mode e)
      obtain ⟨next, hnext, hwrites⟩ :=
        ih (fun d hd => hadmits d (List.mem_cons_of_mem _ hd)) hwithin
      refine ⟨next, ?_, ?_⟩
      · exact applyDeltas_cons_eq_ok.mpr ⟨mid, hmid, hnext⟩
      · rw [hwrites, hcontent, List.map_cons, writes_cons]

end Deltas

namespace SeedSplit

variable {target : Nat} {mode : ReplayMode} {checkpoint : Option BookCheckpoint}
  {window : MarketDataWindow} {before after : List BookEvent} {s : BookEvent}

/-- A book rebuilt without a checkpoint had a snapshot to start from. -/
theorem exists_of_ok {assetId : AssetId} {r : Reconstruction}
    (hcheckpoint : survivingCheckpoint (latestResetBoundaryUs window.ingestEvents target)
      checkpoint = none)
    (h : reconstructBook assetId target mode checkpoint window = .ok r) :
    ∃ before s after, SeedSplit target mode (latestResetBoundaryUs window.ingestEvents target)
      (sortBookEvents mode window.bookEvents) before s after := by
  cases hidx : latestSnapshotIdx target mode (latestResetBoundaryUs window.ingestEvents target)
      (sortBookEvents mode window.bookEvents) with
  | none =>
      rw [reconstructBook_eq, hcheckpoint] at h
      simp only [replaySeed, seedFromSnapshot, hidx, Except.bind] at h
      cases h
  | some n =>
      obtain ⟨before, s, after, hsplit, -⟩ := latestSnapshotIdx_eq_some_iff.mp hidx
      exact ⟨before, s, after, hsplit⟩

/-- Where level changes alone follow the seed, replay applies them to its group. -/
theorem reconstructBook_of_fold
    (h : SeedSplit target mode (latestResetBoundaryUs window.ingestEvents target)
      (sortBookEvents mode window.bookEvents) before s after) {assetId : AssetId}
    (hcheckpoint : survivingCheckpoint (latestResetBoundaryUs window.ingestEvents target)
      checkpoint = none)
    (hdeltas : ∀ e ∈ after.filter (fun e => eventOrderingTs mode e ≤ target), e.kind = .delta)
    {seeded book : L2Book}
    (hseeded : (L2Book.new assetId).applySnapshotEvents
      (snapshotGroupAt mode (latestResetBoundaryUs window.ingestEvents target)
        (eventOrderingTs mode s) (sortBookEvents mode window.bookEvents))
      (eventOrderingTs mode s) = .ok seeded)
    (hbook : applyDeltas mode seeded (after.filter fun e => eventOrderingTs mode e ≤ target) =
      .ok book) :
    ∃ r, reconstructBook assetId target mode checkpoint window = .ok r ∧ r.book = book := by
  have hafter : after <:+ sortBookEvents mode window.bookEvents :=
    ⟨before ++ [s], by rw [h.split, List.append_assoc, List.singleton_append]⟩
  have hdue : ∀ e ∈ after.filter (fun e => eventOrderingTs mode e ≤ target),
      eventOrderingTs mode e ≤ target := fun e he => by simpa using (List.mem_filter.mp he).2
  obtain ⟨r, hr, hrbook⟩ := replayLoop_applyDeltas assetId
    ((List.length_filter_le _ _).trans hafter.length_le) hdeltas hdue hbook []
  have hseed : replaySeed assetId target mode (latestResetBoundaryUs window.ingestEvents target)
      (survivingCheckpoint (latestResetBoundaryUs window.ingestEvents target) checkpoint)
      (sortBookEvents mode window.bookEvents) = .ok (seeded, before.length + 1) := by
    rw [hcheckpoint, replaySeed, h.seedFromSnapshot_eq, hseeded]
  obtain ⟨rec, hrec, hrecbook⟩ := reconstructBook_of_loop checkpoint window hseed (by
    rw [h.drop_eq, replayLoop_filter assetId target mode
      ((sortBookEvents_sorted mode window.bookEvents).sublist hafter.sublist) hafter.length_le
      hafter.length_le]
    exact hr)
  exact ⟨rec, hrec, by rw [hrecbook, hrbook]⟩

/-- What that leaves in the book. -/
theorem reconstructBook_content {c : Capacity}
    (h : SeedSplit target mode (latestResetBoundaryUs window.ingestEvents target)
      (sortBookEvents mode window.bookEvents) before s after) (assetId : AssetId)
    (hadmits : c.AdmitsEvents window.bookEvents)
    (hcheckpoint : survivingCheckpoint (latestResetBoundaryUs window.ingestEvents target)
      checkpoint = none)
    (hdeltas : ∀ e ∈ after.filter (fun e => eventOrderingTs mode e ≤ target), e.kind = .delta) :
    ∃ r, reconstructBook assetId target mode checkpoint window = .ok r ∧ r.book.content =
      writes (listedContent
        (eventLevels .bid (snapshotGroupAt mode (latestResetBoundaryUs window.ingestEvents target)
          (eventOrderingTs mode s) (sortBookEvents mode window.bookEvents)))
        (eventLevels .ask (snapshotGroupAt mode (latestResetBoundaryUs window.ingestEvents target)
          (eventOrderingTs mode s) (sortBookEvents mode window.bookEvents))))
        ((after.filter fun e => eventOrderingTs mode e ≤ target).map BookEvent.write) := by
  have hwindow : ∀ e ∈ sortBookEvents mode window.bookEvents, e ∈ window.bookEvents :=
    fun e he => (mem_sortBookEvents mode).mp he
  have hgroup : c.AdmitsEvents (snapshotGroupAt mode
      (latestResetBoundaryUs window.ingestEvents target) (eventOrderingTs mode s)
      (sortBookEvents mode window.bookEvents)) :=
    fun e he => hadmits e (hwindow e (List.mem_filter.mp he).1)
  have hlater : c.AdmitsEvents (after.filter fun e => eventOrderingTs mode e ≤ target) := by
    intro e he
    apply hadmits e (hwindow e _)
    rw [h.split]
    exact List.mem_append_right _ (List.mem_cons_of_mem _ (List.mem_filter.mp he).1)
  obtain ⟨seeded, hseeded, hwithin, hcontent⟩ := applySnapshotEvents_within hgroup
    (L2Book.new assetId) (eventOrderingTs mode s)
  obtain ⟨book, hbook, hwrites⟩ := applyDeltas_within hlater hwithin
  obtain ⟨r, hr, hrbook⟩ := h.reconstructBook_of_fold hcheckpoint hdeltas hseeded hbook
  exact ⟨r, hr, by rw [hrbook, hwrites, hcontent]⟩

end SeedSplit

section Contents

/-- Exact sides hold the same at a price when they hold the same size. -/
theorem ExactSide.getElem?_eq_iff {cmp : FixedPrice → FixedPrice → Ordering} [Std.TransCmp cmp]
    {side side' : SideLevels cmp × Nat} (h : ExactSide side) (h' : ExactSide side')
    (price : FixedPrice) :
    side.1[price]? = side'.1[price]? ↔ oldRaw side.1 price = oldRaw side'.1 price := by
  have hpos : ∀ {t : SideLevels cmp × Nat} {size : FixedSize}, ExactSide t →
      t.1[price]? = some size → size.raw ≠ 0 := by
    intro t size ht hsize hzero
    have hstored := (ht.stored hsize).1
    rw [FixedSize.isZero, hzero] at hstored
    cases hstored
  unfold oldRaw
  constructor
  · intro heq
    rw [heq]
  · intro hraw
    cases hsize : side.1[price]? with
    | none =>
        cases hsize' : side'.1[price]? with
        | none => rfl
        | some size' =>
            rw [hsize, hsize'] at hraw
            exact absurd hraw.symm (hpos h' hsize')
    | some size =>
        cases hsize' : side'.1[price]? with
        | none =>
            rw [hsize, hsize'] at hraw
            exact absurd hraw (hpos h hsize)
        | some size' =>
            rw [hsize, hsize'] at hraw
            cases size
            cases size'
            cases hraw
            rfl

/-- What two lists of a side hold at a price. -/
theorem listed_eq_iff {cmp : FixedPrice → FixedPrice → Ordering} [Std.TransCmp cmp]
    [Std.LawfulEqCmp cmp] {levels levels' : List (FixedPrice × FixedSize)}
    {side side' : SideLevels cmp × Nat} (h : snapshotSide levels = some side)
    (h' : snapshotSide levels' = some side') (price : FixedPrice) :
    side.1[price]? = side'.1[price]? ↔
      lastListed levels price.raw = lastListed levels' price.raw := by
  obtain ⟨hexact, hsizes⟩ := exactSide_of_snapshotSide h
  obtain ⟨hexact', hsizes'⟩ := exactSide_of_snapshotSide h'
  rw [hexact.getElem?_eq_iff hexact' price, ← sizeAt_raw, ← sizeAt_raw, hsizes, hsizes']

variable {c : Capacity} {events events' : List BookEvent}

/-- What two groups within the capacity hold. -/
theorem listedContent_eq_iff (h : c.AdmitsEvents events) (h' : c.AdmitsEvents events')
    (side : Side) (price : FixedPrice) :
    listedContent (eventLevels .bid events) (eventLevels .ask events) (side, price) =
        listedContent (eventLevels .bid events') (eventLevels .ask events') (side, price) ↔
      lastListed (eventLevels side events) price.raw =
        lastListed (eventLevels side events') price.raw := by
  cases side with
  | bid =>
      obtain ⟨bids, hbids, -⟩ := snapshotSide_within (fun a b => compare b a) (c.fits .bid)
        (h.admits .bid)
      obtain ⟨bids', hbids', -⟩ := snapshotSide_within (fun a b => compare b a) (c.fits .bid)
        (h'.admits .bid)
      simp only [listedContent, hbids, hbids', Option.bind_some]
      exact listed_eq_iff hbids hbids' price
  | ask =>
      obtain ⟨asks, hasks, -⟩ := snapshotSide_within compare (c.fits .ask) (h.admits .ask)
      obtain ⟨asks', hasks', -⟩ := snapshotSide_within compare (c.fits .ask) (h'.admits .ask)
      simp only [listedContent, hasks, hasks', Option.bind_some]
      exact listed_eq_iff hasks hasks' price

end Contents

namespace LastGroup

variable {target : Nat} {mode : ReplayMode} {checkpoint : Option BookCheckpoint}
  {window : MarketDataWindow} (h : LastGroup target mode checkpoint window)

/-- The window's events are in the order of their time. -/
theorem sorted_pairwise : (h.before ++ h.last :: h.after).Pairwise fun d e =>
    eventOrderingTs mode d ≤ eventOrderingTs mode e := by
  rw [← h.sorted]
  exact sortBookEvents_sorted mode window.bookEvents

/-- What comes behind the group is not earlier. -/
theorem time_le_of_mem_after {e : BookEvent} (he : e ∈ h.after) :
    h.time ≤ eventOrderingTs mode e :=
  List.rel_of_pairwise_cons (List.pairwise_append.mp h.sorted_pairwise).2.1 he

/-- What comes before the group is not later. -/
theorem le_time_of_mem_before {e : BookEvent} (he : e ∈ h.before) :
    eventOrderingTs mode e ≤ h.time :=
  (List.pairwise_append.mp h.sorted_pairwise).2.2 e he h.last List.mem_cons_self

variable {c : Capacity}

/-- The snapshots that share the group's time are of the window. -/
theorem shared_subset {e : BookEvent} (he : e ∈ h.shared) : e ∈ window.bookEvents := by
  apply (mem_sortBookEvents mode).mp
  unfold shared at he
  split at he
  · exact (List.mem_filter.mp he).1
  · rw [h.sorted]
    have hmem := (List.rtakeWhile_suffix _ _).subset he
    rw [List.append_cons]
    exact List.mem_append_left _ hmem

/-- The sorted events past a checkpoint and up to the target: the records taken for the
last group stand together, and what comes before does not end with one like them. -/
theorem filter_sorted_eq {boundary : Nat} (hboundary : boundary < h.time)
    {run : List BookEvent} (hrun : run = (h.before ++ [h.last]).rtakeWhile fun e =>
      e.kind = .snapshot && eventOrderingTs mode e = h.time) :
    ∃ before, (∀ e ∈ before.getLast?, ¬ (e.kind = .snapshot ∧ eventOrderingTs mode e = h.time)) ∧
      ((sortBookEvents mode window.bookEvents).filter fun e =>
          boundary < eventOrderingTs mode e).filter
        (fun e => eventOrderingTs mode e ≤ target) = before ++ (run ++ h.later) := by
  have hparts : (h.before ++ [h.last]).rdropWhile (fun e : BookEvent =>
      decide (e.kind = .snapshot) && decide (eventOrderingTs mode e = h.time)) ++ run =
        h.before ++ [h.last] := by
    rw [hrun]
    exact List.rdropWhile_append_rtakeWhile
  generalize hearlier : (h.before ++ [h.last]).rdropWhile (fun e : BookEvent =>
    decide (e.kind = .snapshot) && decide (eventOrderingTs mode e = h.time)) = earlier at hparts
  have hsorted : sortBookEvents mode window.bookEvents = (earlier ++ run) ++ h.after := by
    rw [hparts, h.sorted, List.append_cons]
  have hpairwise : earlier.Pairwise fun d e =>
      eventOrderingTs mode d ≤ eventOrderingTs mode e := by
    have hall := sortBookEvents_sorted mode window.bookEvents
    rw [hsorted] at hall
    exact (List.pairwise_append.mp (List.pairwise_append.mp hall).1).1
  have hrun_time : ∀ e ∈ run, eventOrderingTs mode e = h.time := by
    intro e he
    rw [hrun] at he
    have htaken := List.mem_rtakeWhile_imp he
    simp only [Bool.and_eq_true, decide_eq_true_eq] at htaken
    exact htaken.2
  have hearlier_time : ∀ e ∈ earlier, eventOrderingTs mode e ≤ h.time := by
    intro e he
    have hmem : e ∈ h.before ++ [h.last] := by
      rw [← hparts]
      exact List.mem_append_left _ he
    rcases List.mem_append.mp hmem with hbefore | hlast
    · exact h.le_time_of_mem_before hbefore
    · rw [List.mem_singleton.mp hlast]
      exact le_rfl
  refine ⟨earlier.filter fun e => boundary < eventOrderingTs mode e, ?_, ?_⟩
  · intro e he
    have hlast := Sorting.mem_getLast?_of_filter_lt boundary hpairwise he
    rw [← hearlier] at hlast
    obtain ⟨hne, rfl⟩ := List.mem_getLast?_eq_getLast hlast
    simpa using List.rdropWhile_last_not _ _ hne
  · rw [hsorted, List.filter_append, List.filter_append, List.filter_append, List.filter_append,
      List.append_assoc]
    congr 1
    · apply List.filter_eq_self.mpr
      intro e he
      have hle := hearlier_time e (List.mem_filter.mp he).1
      simp only [decide_eq_true_eq]
      exact hle.trans h.due
    · congr 1
      · rw [List.filter_filter]
        apply List.filter_eq_self.mpr
        intro e he
        rw [hrun_time e he]
        simp only [Bool.and_eq_true, decide_eq_true_eq]
        exact ⟨h.due, hboundary⟩
      · have hafter : h.after.filter (fun e => decide (boundary < eventOrderingTs mode e)) =
            h.after := by
          apply List.filter_eq_self.mpr
          intro e he
          simp only [decide_eq_true_eq]
          exact hboundary.trans_le (h.time_le_of_mem_after he)
        rw [hafter]
        rfl

/-- What replay rebuilds from the last group. -/
theorem reconstructBook_content_of_group (assetId : AssetId)
    (hadmits : c.AdmitsWindow checkpoint window)
    (hcheckpoint : survivingCheckpoint (latestResetBoundaryUs window.ingestEvents target)
      checkpoint = none) :
    ∃ r, reconstructBook assetId target mode checkpoint window = .ok r ∧ r.book.content =
      writes (listedContent (eventLevels .bid h.shared) (eventLevels .ask h.shared))
        (h.later.map BookEvent.write) := by
  have hgroup : h.shared = snapshotGroupAt mode
      (latestResetBoundaryUs window.ingestEvents target) h.time
      (sortBookEvents mode window.bookEvents) := by
    unfold shared
    rw [hcheckpoint]
  rw [hgroup]
  exact h.seedSplit.reconstructBook_content assetId hadmits.1 hcheckpoint
    fun e he => h.later_delta he

/-- What replay rebuilds from a checkpoint: the last group replaces it. -/
theorem reconstructBook_content_of_checkpoint (assetId : AssetId)
    (hadmits : c.AdmitsWindow checkpoint window) {cp : BookCheckpoint}
    (hcheckpoint : survivingCheckpoint (latestResetBoundaryUs window.ingestEvents target)
      checkpoint = some cp) :
    ∃ r, reconstructBook assetId target mode checkpoint window = .ok r ∧ r.book.content =
      writes (listedContent (eventLevels .bid h.shared) (eventLevels .ask h.shared))
        (h.later.map BookEvent.write) := by
  have hrun : h.shared = (h.before ++ [h.last]).rtakeWhile fun e =>
      e.kind = .snapshot && eventOrderingTs mode e = h.time := by
    unfold shared
    rw [hcheckpoint]
  have hboundary : checkpointOrderingTs cp mode < h.time :=
    h.sinceCheckpoint cp hcheckpoint
  obtain ⟨before, hbefore, hfilter⟩ := h.filter_sorted_eq hboundary hrun
  obtain ⟨hbids, hasks⟩ := hadmits.2 cp (Option.eq_some_of_filter_eq_some hcheckpoint)
  obtain ⟨book, hbook, hwithin, -⟩ := L2Book.tryApplySnapshot_within hbids hasks
    (L2Book.new assetId) 0 (checkpointOrderingTs cp mode)
  have hmem : ∀ e ∈ before ++ (h.shared ++ h.later),
      e ∈ window.bookEvents ∧ eventOrderingTs mode e ≤ target := by
    intro e he
    rw [← hfilter] at he
    obtain ⟨he, hdue⟩ := List.mem_filter.mp he
    exact ⟨(mem_sortBookEvents mode).mp (List.mem_filter.mp he).1, by simpa using hdue⟩
  have hne : h.shared ≠ [] := by
    rw [hrun, List.rtakeWhile_concat_pos _ _ _ (by simp [h.snapshot, time])]
    simp
  have hlength : ((sortBookEvents mode window.bookEvents).filter fun e =>
      checkpointOrderingTs cp mode < eventOrderingTs mode e).length ≤
        (sortBookEvents mode window.bookEvents).length := List.length_filter_le _ _
  have hsorted : ((sortBookEvents mode window.bookEvents).filter fun e =>
      checkpointOrderingTs cp mode < eventOrderingTs mode e).Pairwise fun d e =>
        eventOrderingTs mode d ≤ eventOrderingTs mode e :=
    (sortBookEvents_sorted mode window.bookEvents).filter _
  have hfuel : (before ++ (h.shared ++ h.later)).length ≤
      (sortBookEvents mode window.bookEvents).length := by
    rw [← hfilter]
    exact (List.length_filter_le _ _).trans hlength
  have hrun_mem : ∀ e ∈ h.shared, e.kind = .snapshot ∧ eventOrderingTs mode e = h.time := by
    intro e he
    rw [hrun] at he
    simpa using List.mem_rtakeWhile_imp he
  obtain ⟨r, hr, -, hwrites⟩ := replayLoop_run_within assetId target mode hfuel hne hrun_mem
    hbefore (fun e he => h.later_delta he) (fun e he => (hmem e he).2)
    (fun e he => hadmits.1 e (hmem e he).1) hwithin []
  have hseed : replaySeed assetId target mode (latestResetBoundaryUs window.ingestEvents target)
      (survivingCheckpoint (latestResetBoundaryUs window.ingestEvents target) checkpoint)
      (sortBookEvents mode window.bookEvents) =
        .ok (book, ((sortBookEvents mode window.bookEvents).findIdx? fun event =>
          decide (checkpointOrderingTs cp mode < eventOrderingTs mode event)).getD
            (sortBookEvents mode window.bookEvents).length) := by
    rw [hcheckpoint, replaySeed, seedFromCheckpoint, L2Book.applyReplayCheckpoint, hbook]
  obtain ⟨rec, hrec, hrecbook⟩ := reconstructBook_of_loop checkpoint window hseed (by
      rw [drop_checkpoint, replayLoop_filter assetId target mode hsorted hlength hlength, hfilter]
      exact hr)
  exact ⟨rec, hrec, by rw [hrecbook, hwrites]⟩

/-- **What replay rebuilds.** -/
theorem reconstructBook_content (assetId : AssetId) (hadmits : c.AdmitsWindow checkpoint window) :
    ∃ r, reconstructBook assetId target mode checkpoint window = .ok r ∧ r.book.content =
      writes (listedContent (eventLevels .bid h.shared) (eventLevels .ask h.shared))
        (h.later.map BookEvent.write) := by
  cases hcheckpoint : survivingCheckpoint (latestResetBoundaryUs window.ingestEvents target)
      checkpoint with
  | none => exact h.reconstructBook_content_of_group assetId hadmits hcheckpoint
  | some cp => exact h.reconstructBook_content_of_checkpoint assetId hadmits hcheckpoint

/-- The last group and the later level changes within the capacity. -/
theorem rebuilt_within (assetId : AssetId) (hadmits : c.AdmitsWindow checkpoint window) :
    ∃ book, h.rebuilt assetId = .ok book ∧ book.content =
      writes (listedContent (eventLevels .bid h.group) (eventLevels .ask h.group))
        (h.later.map BookEvent.write) := by
  have hgroup : c.AdmitsEvents h.group := fun e he => hadmits.1 e (h.mem_events_of_mem_group he)
  have hlater : c.AdmitsEvents h.later := fun e he => hadmits.1 e (h.later_subset he)
  obtain ⟨seeded, hseeded, hwithin, hcontent⟩ := applySnapshotEvents_within hgroup
    (L2Book.new assetId) h.time
  obtain ⟨book, hbook, hwrites⟩ := applyDeltas_within hlater hwithin
  rw [hcontent] at hwrites
  refine ⟨book, ?_, hwrites⟩
  rw [rebuilt, hseeded]
  exact hbook

/-- Alone at its time, the last group decides. -/
theorem decides_of_alone (assetId : AssetId) (hcheckpoint : survivingCheckpoint
      (latestResetBoundaryUs window.ingestEvents target) checkpoint = none)
    (halone : h.Alone) : h.Decides assetId := by
  intro book hbook
  cases hseeded : (L2Book.new assetId).applySnapshotEvents h.group h.time with
  | error err =>
      rw [rebuilt, hseeded] at hbook
      cases hbook
  | ok seeded =>
      rw [rebuilt, hseeded] at hbook
      have hgroup := h.snapshotGroupAt_eq_of_alone halone
      rw [time] at hgroup hseeded
      rw [← hgroup] at hseeded
      obtain ⟨r, hr, hrbook⟩ := h.seedSplit.reconstructBook_of_fold hcheckpoint
        (fun e he => h.later_delta he) hseeded hbook
      exact ⟨r, hr, by rw [hrbook]⟩

end LastGroup

/-- **The last snapshot message decides** when nothing is left of those that share its
time; while the totals fit, only then. -/
theorem last_group_decides_iff (assetId : AssetId) (target : Nat) (mode : ReplayMode)
    (checkpoint : Option BookCheckpoint) (window : MarketDataWindow)
    (h : LastGroup target mode checkpoint window) :
    (survivingCheckpoint (latestResetBoundaryUs window.ingestEvents target) checkpoint = none →
      h.Alone → h.Decides assetId) ∧
    ∀ c : Capacity, c.AdmitsWindow checkpoint window →
      (h.Decides assetId ↔ h.NothingLeft) := by
  refine ⟨h.decides_of_alone assetId, fun c hadmits => ?_⟩
  obtain ⟨r, hr, hcontent⟩ := h.reconstructBook_content assetId hadmits
  obtain ⟨book, hbook, hbook_content⟩ := h.rebuilt_within assetId hadmits
  have hset : ∀ w ∈ h.later.map BookEvent.write, ∃ key value, w = .set key value := by
    intro w hw
    obtain ⟨e, -, rfl⟩ := List.mem_map.mp hw
    exact ⟨_, _, rfl⟩
  have hshared : c.AdmitsEvents h.shared := fun e he => hadmits.1 e (h.shared_subset he)
  have hgroup : c.AdmitsEvents h.group := fun e he => hadmits.1 e (h.mem_events_of_mem_group he)
  have hsame : r.book.levels = book.levels ↔ h.NothingLeft := by
    have hlevels : r.book.levels = book.levels ↔ r.book.content = book.content :=
      ⟨L2Book.content_eq_of_levels_eq, L2Book.levels_eq_of_content_eq⟩
    rw [hlevels, hcontent, hbook_content, writes_eq_writes_iff hset]
    unfold LastGroup.NothingLeft
    constructor
    · intro hall side price
      rcases hall (side, price) with heq | ⟨value, hvalue⟩
      · exact Or.inl ((listedContent_eq_iff hshared hgroup side price).mp heq)
      · obtain ⟨e, he, hwrite⟩ := List.mem_map.mp hvalue
        simp only [BookEvent.write, Write.set.injEq, Prod.mk.injEq] at hwrite
        exact Or.inr ⟨e, he, hwrite.1.1, hwrite.1.2⟩
    · rintro hall ⟨side, price⟩
      rcases hall side price with heq | ⟨e, he, rfl, rfl⟩
      · exact Or.inl ((listedContent_eq_iff hshared hgroup side price).mpr heq)
      · exact Or.inr ⟨e.size.stored, List.mem_map.mpr ⟨e, he, rfl⟩⟩
  constructor
  · intro hdecides
    obtain ⟨r', hr', hlevels⟩ := hdecides book hbook
    rw [hr, Except.ok.injEq] at hr'
    rw [← hr'] at hlevels
    exact hsame.mp hlevels
  · intro hnothing book' hbook'
    rw [hbook, Except.ok.injEq] at hbook'
    rw [← hbook']
    exact ⟨r, hr, hsame.mpr hnothing⟩

namespace TwoMessages

open Sample

/-- One level of a snapshot message with its exchange time. -/
def record (ordinal recv exchangeTs : Nat) (cents : Fin 101) (units : Fin 1000)
    (eventId : String) : BookEvent :=
  let event := level .snapshot "yes" .bid cents units recv eventId
  { event with provenance := { event.provenance with
      exchangeTimestampUs := exchangeTs
      sequence := some 0
      ingestOrdinal := some ordinal } }

/-- The venue moves its only bid from 0.50 to 0.51. -/
def first (exchangeTs : Nat) : BookEvent := record 0 1900 exchangeTs 50 10 "first"

/-- The second snapshot of the sample. -/
def second : BookEvent := record 1 1950 1880 51 5 "second"

/-- The window of the sample. -/
def window (firstTs : Nat) : MarketDataWindow where
  bookEvents := [first firstTs, second]
  tradeEvents := []
  ingestEvents := []

/-- A single snapshot record is a group. -/
theorem isGroup (event : BookEvent) (hkind : event.kind = .snapshot)
    (hsequence : event.provenance.sequence = some 0) : IsGroup [event] where
  nonempty := List.cons_ne_nil _ _
  snapshots e he := by rw [List.mem_singleton.mp he, hkind]
  oneMessage d hd e he := by rw [List.mem_singleton.mp hd, List.mem_singleton.mp he]
  numbered := by simp [hsequence]
  logged := List.pairwise_singleton _ _

/-- The second message decides at 3000. -/
def lastGroup (firstTs : Nat) (hsorted : sortBookEvents .exchangeTime
    (window firstTs).bookEvents = [first firstTs, second]) :
    LastGroup 3000 .exchangeTime none (window firstTs) where
  groups := [[first firstTs], [second]]
  deltas := []
  parts := List.Perm.refl _
  isGroup g hg := by
    rcases List.mem_pair.mp hg with rfl | rfl
    · exact isGroup _ rfl rfl
    · exact isGroup _ rfl rfl
  isDelta e he := nomatch he
  ordinals e he := by
    rcases List.mem_pair.mp he with rfl | rfl
    · rfl
    · rfl
  distinct := by
    rw [window, List.pairwise_pair]
    exact Nat.zero_ne_one
  before := [first firstTs]
  last := second
  after := []
  sorted := hsorted
  snapshot := rfl
  due := by decide
  latest e he := nomatch he
  group := [second]
  group_mem := by simp
  last_mem := by simp
  sinceReset := rfl
  sinceCheckpoint cp hcp := nomatch hcp

/-- The two snapshots of the sample at two times. -/
def apart : LastGroup 3000 .exchangeTime none (window 1870) := lastGroup 1870 (by decide)

/-- The two snapshots of the sample at one time. -/
def shared : LastGroup 3000 .exchangeTime none (window 1880) := lastGroup 1880 (by decide)

/-- The capacity of the sample. -/
def capacity : Capacity := .uniform 1000000000 Capacity.thousand_fits

end TwoMessages

open TwoMessages in
/-- With a time of its own the second message decides. -/
theorem last_group_decides_iff_apart : apart.Decides "yes" :=
  ((last_group_decides_iff "yes" 3000 .exchangeTime none (TwoMessages.window 1870) apart).2
    TwoMessages.capacity ⟨by unfold Capacity.AdmitsEvents; decide, by simp⟩).mpr (by
      have hshared : apart.shared = apart.group := by decide
      intro side price
      rw [hshared]
      exact Or.inl rfl)

open TwoMessages in
/-- With one time for both, the bid at 0.50 is still there. -/
theorem shared_time_merges :
    ¬ ∀ (assetId : AssetId) (target : Nat) (mode : ReplayMode) (checkpoint : Option BookCheckpoint)
      (window : MarketDataWindow) (h : LastGroup target mode checkpoint window),
      h.Decides assetId := by
  intro hall
  have hrebuilt : ((shared.rebuilt "yes").toOption.map fun b =>
      b.bids.toList.map fun l => (l.1.raw, l.2.raw)) = some [(5100, 5000000)] := by decide +kernel
  have hmerged : ((reconstructBook "yes" 3000 .exchangeTime none
      (TwoMessages.window 1880)).toOption.map fun r =>
        r.book.bids.toList.map fun l => (l.1.raw, l.2.raw)) =
      some [(5100, 5000000), (5000, 10000000)] := by decide +kernel
  cases hbook : shared.rebuilt "yes" with
  | error err =>
      rw [hbook] at hrebuilt
      cases hrebuilt
  | ok book =>
      obtain ⟨r, hr, hlevels⟩ := hall "yes" 3000 .exchangeTime none (TwoMessages.window 1880)
        shared book hbook
      have hbids : r.book.bids = book.bids := congrArg Prod.fst hlevels
      rw [hr] at hmerged
      rw [hbook] at hrebuilt
      simp only [Except.toOption, Option.map_some, hbids] at hmerged hrebuilt
      rw [hrebuilt] at hmerged
      exact absurd hmerged (by decide)

end PolyBook
