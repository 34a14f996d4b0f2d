import PolyBook.ReplayLoop
import PolyBook.SnapshotGroups

/-!
# Live serving and historical replay

The live model and the replay engine implement one semantics twice: the live
model buffers snapshot records as they arrive, the engine sorts a window of
stored events, seeds from the last snapshot group and folds the rest.

`VenueStream` says what both are about, a sequence of venue messages, and
`VenueStream.book` what it means: every message applied in order.  The two
implementations are each shown to hold that book (`live_sides`,
`reconstructBook_sides`), hence to agree.
-/

namespace PolyBook

/-- The book records of one venue message about the asset: a snapshot's levels,
which share one group key, or level changes. -/
structure VenueMessage (a : AssetId) where
  kind : BookEventKind
  recvTimestampUs : Nat
  events : List BookEvent
  assetId : ∀ e ∈ events, e.assetId = a
  kinds : ∀ e ∈ events, e.kind = kind
  received : ∀ e ∈ events, e.provenance.recvTimestampUs = recvTimestampUs
  oneGroup : kind = .snapshot → ∀ d ∈ events, ∀ e ∈ events, d.groupKey = e.groupKey
  nonempty : kind = .snapshot → events ≠ []

/-- The book records of one asset over a feed session. -/
structure VenueStream (a : AssetId) where
  messages : List (VenueMessage a)
  increasing : messages.Pairwise fun m n => m.recvTimestampUs < n.recvTimestampUs
  ordinals : (messages.flatMap (·.events)).Pairwise fun d e => ordinalKey d < ordinalKey e

namespace L2Book

/-- Apply one level change, unless a total overflows. -/
def applyChange (book : L2Book) (event : BookEvent) : Except BookError L2Book :=
  book.tryApplyDelta event.side event.price event.size
    (event.provenance.sequence.getD 0) event.provenance.recvTimestampUs

/-- Apply one venue message, unless a total overflows. -/
def applyMessage {a : AssetId} (book : L2Book) (m : VenueMessage a) : Except BookError L2Book :=
  match m.kind with
  | .snapshot => book.applySnapshotEvents m.events m.recvTimestampUs
  | .delta => m.events.foldlM applyChange book

end L2Book

namespace VenueStream

variable {a : AssetId} (stream : VenueStream a)

/-- The book records of the stream, in order. -/
def events : List BookEvent := stream.messages.flatMap (·.events)

/-- What the stream means: its messages applied one by one. -/
def book : Except BookError L2Book :=
  stream.messages.foldlM L2Book.applyMessage (L2Book.new a)

/-- The receive timestamp of the last record. -/
def lastRecvTimestampUs : Nat :=
  (stream.events.getLast?.map fun e => e.provenance.recvTimestampUs).getD 0

end VenueStream

theorem levelsOn_bookRecords (side : Side) (events : List BookEvent) :
    levelsOn side (bookRecords events) = eventLevels side events := by
  induction events with
  | nil => rfl
  | cons e events ih =>
      by_cases h : e.side = side
      · simpa [levelsOn, bookRecords, eventLevels, h] using ih
      · simpa [levelsOn, bookRecords, eventLevels, h] using ih

theorem foldlM_ok_cons {β ε α : Type} {f : β → α → Except ε β} {b next : β} {x : α}
    {xs : List α} (h : (x :: xs).foldlM f b = .ok next) :
    ∃ mid, f b x = .ok mid ∧ xs.foldlM f mid = .ok next := by
  rw [List.foldlM_cons] at h
  cases hx : f b x with
  | error err =>
      rw [hx] at h
      cases h
  | ok mid =>
      rw [hx] at h
      exact ⟨mid, rfl, h⟩

theorem foldlM_ok_append {β ε α : Type} {f : β → α → Except ε β} {b next : β}
    {xs ys : List α} (h : (xs ++ ys).foldlM f b = .ok next) :
    ∃ mid, xs.foldlM f b = .ok mid ∧ ys.foldlM f mid = .ok next := by
  induction xs generalizing b with
  | nil => exact ⟨b, rfl, h⟩
  | cons x xs ih =>
      obtain ⟨first, hfirst, hrest⟩ := foldlM_ok_cons h
      obtain ⟨mid, hmid, hnext⟩ := ih hrest
      refine ⟨mid, ?_, hnext⟩
      rw [List.foldlM_cons, hfirst]
      exact hmid

section Live

variable {a : AssetId}

/-- The view stands for the book, and what it buffers was received before
`bound`. -/
def LiveHolds (v : AssetView) (b : L2Book) (bound : Nat) : Prop :=
  ((v.flush a).stateD a).book.sides = b.sides ∧
    ∀ p, v.pending = some p → p.key.recvTimestampUs < bound

theorem before_of_liveHolds {v : AssetView} {b : L2Book} {bound : Nat}
    (h : LiveHolds (a := a) v b bound) {e : BookEvent}
    (he : bound ≤ e.provenance.recvTimestampUs) :
    v.before a (.book e) = v.flush a := by
  cases hp : v.pending with
  | none => rw [AssetView.before_of_pending_none a hp, AssetView.flush_of_pending_none a hp]
  | some p =>
      have hbound := h.2 p hp
      have hends : AssetView.ends (.book e) p = true := by
        cases hk : e.kind with
        | delta => simp [AssetView.ends, hk]
        | snapshot =>
            have hkey : p.key ≠ e.groupKey := by
              intro heq
              rw [heq] at hbound
              exact absurd he (Nat.not_le.mpr hbound)
            simp [AssetView.ends, hk, hkey]
      simp [AssetView.before, hp, hends]

/-- Level changes reach the live book as they come. -/
theorem liveHolds_deltas {events : List BookEvent} {bound : Nat}
    (hasset : ∀ e ∈ events, e.assetId = a) (hkind : ∀ e ∈ events, e.kind = .delta)
    (hrecv : ∀ e ∈ events, bound ≤ e.provenance.recvTimestampUs)
    {v : AssetView} {b next : L2Book} (h : LiveHolds (a := a) v b bound)
    (hfold : events.foldlM L2Book.applyChange b = .ok next) :
    LiveHolds (a := a) (v.applyAll a (bookRecords events)) next bound := by
  induction events generalizing v b with
  | nil =>
      cases hfold
      exact h
  | cons e events ih =>
      obtain ⟨mid, hmid, hrest⟩ := foldlM_ok_cons hfold
      have happly : v.apply a (.book e) =
          (v.flush a).setState (((v.flush a).stateD a).recordDeltaEvent e) := by
        rw [AssetView.apply, before_of_liveHolds h (hrecv e List.mem_cons_self)]
        simp [AssetView.own, hasset e List.mem_cons_self, hkind e List.mem_cons_self]
      have hstep : LiveHolds (a := a) (v.apply a (.book e)) mid bound := by
        rw [happly]
        constructor
        · obtain ⟨other, hother, hsides⟩ := L2Book.tryApplyDelta_sides
            (s := e.provenance.sequence.getD 0) (t := e.provenance.recvTimestampUs) h.1 hmid
          rw [AssetView.flush_of_pending_none a (by simp [AssetView.setState])]
          exact (congrArg L2Book.sides (AssetState.recordDeltaEvent_book_of_ok hother)).trans hsides
        · simp [AssetView.setState]
      exact ih (fun d hd => hasset d (List.mem_cons_of_mem _ hd))
        (fun d hd => hkind d (List.mem_cons_of_mem _ hd))
        (fun d hd => hrecv d (List.mem_cons_of_mem _ hd)) hstep hrest

/-- A snapshot message waits in the buffer as one group. -/
theorem liveHolds_snapshot {events : List BookEvent} {bound recv : Nat}
    (hne : events ≠ []) (hasset : ∀ e ∈ events, e.assetId = a)
    (hkind : ∀ e ∈ events, e.kind = .snapshot)
    (hrecv : ∀ e ∈ events, e.provenance.recvTimestampUs = recv) (hbound : bound ≤ recv)
    (hgroup : ∀ d ∈ events, ∀ e ∈ events, d.groupKey = e.groupKey)
    {v : AssetView} {b next : L2Book} (h : LiveHolds (a := a) v b bound)
    (happly : b.applySnapshotEvents events recv = .ok next) :
    LiveHolds (a := a) (v.applyAll a (bookRecords events)) next (recv + 1) := by
  obtain ⟨e, rest, rfl⟩ := List.exists_cons_of_ne_nil hne
  have hfirst : v.before a (.book e) = v.flush a :=
    before_of_liveHolds h (by rw [hrecv e List.mem_cons_self]; exact hbound)
  obtain ⟨q, hq, hbids, hasks, hkey⟩ :=
    AssetView.applyAll_snapshots a hasset hkind hgroup hfirst
  constructor
  · rw [levelsOn_bookRecords] at hbids hasks
    obtain ⟨other, hother, hsides⟩ := L2Book.tryApplySnapshot_sides
      (c := ((v.applyAll a (bookRecords (e :: rest))).stateD a).book)
      (s := q.sequence) (t := q.lastRecvTimestampUs) happly
    rw [← hbids, ← hasks] at hother
    simp only [AssetView.flush, hq]
    exact (congrArg L2Book.sides (AssetState.materialize_book_of_ok hother)).trans hsides
  · intro p hp
    rw [hq, Option.some.injEq] at hp
    subst hp
    have hrecv_e := hrecv e List.mem_cons_self
    simp [hkey, BookEvent.groupKey, hrecv_e]

theorem liveHolds_message {m : VenueMessage a} {bound : Nat}
    (hbound : bound ≤ m.recvTimestampUs) {v : AssetView} {b next : L2Book}
    (h : LiveHolds (a := a) v b bound) (happly : b.applyMessage m = .ok next) :
    LiveHolds (a := a) (v.applyAll a (bookRecords m.events)) next (m.recvTimestampUs + 1) := by
  unfold L2Book.applyMessage at happly
  cases hk : m.kind with
  | snapshot =>
      rw [hk] at happly
      exact liveHolds_snapshot (m.nonempty hk) m.assetId (fun e he => (m.kinds e he).trans hk)
        m.received hbound (m.oneGroup hk) h happly
  | delta =>
      rw [hk] at happly
      have hstep := liveHolds_deltas m.assetId (fun e he => (m.kinds e he).trans hk)
        (fun e he => by rw [m.received e he]; exact hbound) h happly
      refine ⟨hstep.1, fun p hp => ?_⟩
      have := hstep.2 p hp
      omega

/-- Every message of a run reaches the live book. -/
theorem liveHolds_messages {messages : List (VenueMessage a)} {bound : Nat}
    (hincreasing : messages.Pairwise fun m n => m.recvTimestampUs < n.recvTimestampUs)
    (hbound : ∀ m ∈ messages, bound ≤ m.recvTimestampUs)
    {v : AssetView} {b next : L2Book} (h : LiveHolds (a := a) v b bound)
    (hfold : messages.foldlM L2Book.applyMessage b = .ok next) :
    ((((v.applyAll a (bookRecords (messages.flatMap (·.events)))).flush a).stateD a).book).sides =
      next.sides := by
  induction messages generalizing v b bound with
  | nil =>
      cases hfold
      exact h.1
  | cons m messages ih =>
      obtain ⟨mid, hmid, hrest⟩ := foldlM_ok_cons hfold
      have hstep := liveHolds_message (hbound m List.mem_cons_self) h hmid
      obtain ⟨hlater, htail⟩ := List.pairwise_cons.mp hincreasing
      have hall := ih htail (fun n hn => hlater n hn) hstep hrest
      rw [List.flatMap_cons, bookRecords, List.map_append, AssetView.applyAll_append]
      exact hall

/-- **The live model holds what the stream means.** -/
theorem VenueStream.live_sides (stream : VenueStream a) (mode : FeedMode) {b : L2Book}
    (hbook : stream.book = .ok b) :
    ((LiveState.replay mode (bookRecords stream.events)).book a).sides = b.sides := by
  rw [LiveState.book_eq, LiveState.view_replay]
  exact liveHolds_messages stream.increasing (fun _ _ => Nat.zero_le _)
    ⟨rfl, fun p hp => by cases hp⟩ hbook

end Live

section Batch

variable {a : AssetId}

namespace VenueStream

variable (stream : VenueStream a)

theorem pairwise_recv_le : stream.events.Pairwise fun d e =>
    d.provenance.recvTimestampUs ≤ e.provenance.recvTimestampUs := by
  refine List.pairwise_flatMap.mpr ⟨?_, ?_⟩
  · intro m _
    refine List.Pairwise.imp_of_mem ?_ (List.pairwise_of_forall fun _ _ => trivial)
    intro d e hd he _
    rw [m.received d hd, m.received e he]
  · refine stream.increasing.imp ?_
    intro m n hmn d hd e he
    rw [m.received d hd, n.received e he]
    exact hmn.le

/-- The stream is strictly sorted for the replay comparator. -/
theorem pairwise_lt :
    stream.events.Pairwise fun d e => compareBookEvents .recvTime d e = .lt :=
  (stream.pairwise_recv_le.and stream.ordinals).imp fun h =>
    compareBookEvents_lt .recvTime h.1 h.1 h.2

/-- **Sorting restores the stream.**  Whatever order the window lists the
records in, the engine sorts them back into the order they were sent. -/
theorem sortBookEvents_eq {window : List BookEvent} (hperm : window.Perm stream.events) :
    sortBookEvents .recvTime window = stream.events :=
  sortBookEvents_eq_of_perm .recvTime stream.pairwise_lt hperm

end VenueStream

/-- The loop folds level changes that lie before the target. -/
theorem replayLoop_deltas (a : AssetId) {target fuel : Nat} {events : List BookEvent}
    (hfuel : events.length ≤ fuel) (hkind : ∀ e ∈ events, e.kind = .delta)
    (htarget : ∀ e ∈ events, e.provenance.recvTimestampUs ≤ target)
    {b c next : L2Book} (hsides : c.sides = b.sides)
    (hfold : events.foldlM L2Book.applyChange b = .ok next) (marks : List IngestEvent) :
    ∃ r, replayLoop a target .recvTime fuel events c marks = .ok r ∧
      r.1.sides = next.sides := by
  induction events generalizing fuel b c marks with
  | nil =>
      cases hfold
      cases fuel <;> exact ⟨_, rfl, hsides⟩
  | cons e events ih =>
      cases fuel with
      | zero => simp at hfuel
      | succ fuel =>
          obtain ⟨mid, hmid, hrest⟩ := foldlM_ok_cons hfold
          obtain ⟨other, hother, hother_sides⟩ := L2Book.tryApplyDelta_sides
            (s := e.provenance.sequence.getD 0) (t := e.provenance.recvTimestampUs)
            hsides hmid
          have htime := htarget e List.mem_cons_self
          simp only [replayLoop, eventOrderingTs, Nat.not_lt.mpr htime, if_false,
            hkind e List.mem_cons_self, hother]
          exact ih (by simpa using hfuel) (fun d hd => hkind d (List.mem_cons_of_mem _ hd))
            (fun d hd => htarget d (List.mem_cons_of_mem _ hd)) hother_sides hrest _

theorem foldlM_changes_of_messages {messages : List (VenueMessage a)}
    (hkind : ∀ m ∈ messages, m.kind = .delta) {b next : L2Book}
    (hfold : messages.foldlM L2Book.applyMessage b = .ok next) :
    (messages.flatMap (·.events)).foldlM L2Book.applyChange b = .ok next := by
  induction messages generalizing b with
  | nil => exact hfold
  | cons m messages ih =>
      obtain ⟨mid, hmid, hrest⟩ := foldlM_ok_cons hfold
      rw [L2Book.applyMessage, hkind m List.mem_cons_self] at hmid
      have hchanges : m.events.foldlM L2Book.applyChange b = .ok mid := hmid
      rw [List.flatMap_cons, List.foldlM_append, hchanges]
      exact ih (fun n hn => hkind n (List.mem_cons_of_mem _ hn)) hrest

namespace VenueStream

section LastSnapshot

variable {stream : VenueStream a} {before after : List (VenueMessage a)} {m : VenueMessage a}
  (hsplit : stream.messages = before ++ m :: after) (hm : m.kind = .snapshot)
  (hafter : ∀ n ∈ after, n.kind = .delta)

include hsplit in
theorem events_of_split : stream.events =
    before.flatMap (·.events) ++ (m.events ++ after.flatMap (·.events)) := by
  rw [VenueStream.events, hsplit, List.flatMap_append, List.flatMap_cons]

include hsplit in
theorem received_before {e : BookEvent} (he : e ∈ before.flatMap (·.events)) :
    e.provenance.recvTimestampUs < m.recvTimestampUs := by
  obtain ⟨n, hn, hen⟩ := List.mem_flatMap.mp he
  have hpairs := stream.increasing
  rw [hsplit] at hpairs
  rw [n.received e hen]
  exact (List.pairwise_append.mp hpairs).2.2 n hn m List.mem_cons_self

include hafter in
theorem delta_after {e : BookEvent} (he : e ∈ after.flatMap (·.events)) : e.kind = .delta := by
  obtain ⟨n, hn, hen⟩ := List.mem_flatMap.mp he
  exact (n.kinds e hen).trans (hafter n hn)

include hsplit hm hafter

/-- The index the engine finds is that of the last snapshot's last record. -/
theorem latestSnapshotIdx_eq {target : Nat}
    (htarget : ∀ e ∈ stream.events, e.provenance.recvTimestampUs ≤ target) :
    latestSnapshotIdx target .recvTime none stream.events =
      some ((before.flatMap (·.events)).length + m.events.dropLast.length) := by
  have hlast := List.dropLast_append_getLast (m.nonempty hm)
  have hmem := List.getLast_mem (m.nonempty hm)
  have htime : m.recvTimestampUs ≤ target := by
    rw [← m.received _ hmem]
    refine htarget _ ?_
    rw [events_of_split hsplit]
    exact List.mem_append_right _ (List.mem_append_left _ hmem)
  rw [latestSnapshotIdx, events_of_split hsplit, ← List.append_assoc]
  conv_lhs => rw [← hlast]
  rw [← List.append_assoc, List.append_assoc, List.singleton_append, rposition_append_cons]
  · rw [List.length_append]
  · simp [m.kinds _ hmem, hm, eventOrderingTs, m.received _ hmem, htime, afterReset]
  · intro e he
    simp [delta_after hafter he]

omit hafter in
theorem getElem?_latestSnapshotIdx :
    stream.events[(before.flatMap (·.events)).length + m.events.dropLast.length]? =
      some (m.events.getLast (m.nonempty hm)) := by
  rw [events_of_split hsplit]
  conv_lhs => rw [← List.dropLast_append_getLast (m.nonempty hm)]
  simp

/-- The group the engine seeds from is the last snapshot message. -/
theorem snapshotGroupAt_eq :
    snapshotGroupAt .recvTime none m.recvTimestampUs stream.events = m.events := by
  rw [snapshotGroupAt, events_of_split hsplit, List.filter_append, List.filter_append,
    List.filter_eq_nil_iff.mpr, List.filter_eq_self.mpr, List.filter_eq_nil_iff.mpr]
  · simp
  · intro e he
    simp [delta_after hafter he]
  · intro e he
    simp [m.kinds e he, hm, eventOrderingTs, m.received e he, afterReset]
  · intro e he
    have hne := (received_before hsplit he).ne
    simp [eventOrderingTs, hne]

omit hafter in
theorem drop_latestSnapshotIdx :
    stream.events.drop ((before.flatMap (·.events)).length + m.events.dropLast.length + 1) =
      after.flatMap (·.events) := by
  have hlen : m.events.dropLast.length + 1 = m.events.length := by
    have := List.length_pos_iff.mpr (m.nonempty hm)
    rw [List.length_dropLast]
    omega
  rw [events_of_split hsplit, Nat.add_assoc, hlen, ← List.append_assoc, ← List.length_append,
    List.drop_left]

end LastSnapshot

/-- **The replay engine holds what the stream means.**  Nothing before the last
snapshot matters to the meaning, and the engine finds that snapshot whole. -/
theorem reconstructBook_sides (stream : VenueStream a) {b : L2Book}
    (hbook : stream.book = .ok b) (hsnapshot : ∃ m ∈ stream.messages, m.kind = .snapshot)
    {window : MarketDataWindow} (hperm : window.bookEvents.Perm stream.events)
    (hreset : ∀ e ∈ window.ingestEvents, e.kind.isContinuityReset = false)
    {target : Nat} (htarget : ∀ e ∈ stream.events, e.provenance.recvTimestampUs ≤ target) :
    ∃ r, reconstructBook a target .recvTime none window = .ok r ∧
      r.book.sides = b.sides := by
  obtain ⟨before, m, after, hsplit, hm, hlater⟩ := exists_last hsnapshot
  have hafter : ∀ n ∈ after, n.kind = .delta := by
    intro n hn
    cases hk : n.kind with
    | snapshot => exact absurd hk (hlater n hn)
    | delta => rfl
  rw [VenueStream.book, hsplit] at hbook
  obtain ⟨b₀, _, hfrom⟩ := foldlM_ok_append hbook
  obtain ⟨b₁, hseed, hrest⟩ := foldlM_ok_cons hfrom
  rw [L2Book.applyMessage, hm] at hseed
  have hboundary : latestResetBoundaryUs
      (sortByKey (fun event => event.provenance.recvTimestampUs) window.ingestEvents)
      target = none := by
    refine latestResetBoundaryUs_eq_none ?_ target
    intro e he
    exact hreset e ((List.mem_insertionSort _).mp he)
  obtain ⟨seeded, hseeded, hsides⟩ := L2Book.tryApplySnapshot_sides
    (c := L2Book.new a)
    (s := (m.events.getLast?.bind fun event => event.provenance.sequence).getD 0)
    (t := m.recvTimestampUs) hseed
  have hstart : seedFromSnapshot a target .recvTime none stream.events (L2Book.new a) =
      .ok (seeded, (before.flatMap (·.events)).length + m.events.dropLast.length + 1) := by
    rw [seedFromSnapshot, latestSnapshotIdx_eq hsplit hm hafter htarget]
    simp only [getElem?_latestSnapshotIdx hsplit hm, Option.map_some, Option.getD_some,
      eventOrderingTs, m.received _ (List.getLast_mem (m.nonempty hm)),
      snapshotGroupAt_eq hsplit hm hafter, L2Book.applySnapshotEvents, hseeded]
  have hsuffix : ∀ e ∈ after.flatMap (·.events), e ∈ stream.events := by
    intro e he
    rw [events_of_split hsplit]
    exact List.mem_append_right _ (List.mem_append_right _ he)
  have hfuel : (after.flatMap (·.events)).length ≤ stream.events.length := by
    rw [← drop_latestSnapshotIdx hsplit hm, List.length_drop]
    omega
  obtain ⟨r, hloop, hr⟩ := replayLoop_deltas a hfuel
    (fun e he => delta_after hafter he) (fun e he => htarget e (hsuffix e he)) hsides
    (foldlM_changes_of_messages hafter hrest)
    (sortByKey (fun event => event.provenance.recvTimestampUs) window.ingestEvents)
  have hresult : ∃ result, reconstructBook a target .recvTime none window = .ok result ∧
      result.book = r.1 := by
    simp only [reconstructBook, stream.sortBookEvents_eq hperm, hboundary, Option.filter_none,
      hstart, drop_latestSnapshotIdx hsplit hm, hloop]
    exact ⟨_, rfl, rfl⟩
  obtain ⟨result, hok, hresult_book⟩ := hresult
  exact ⟨result, hok, by rw [hresult_book, hr]⟩

theorem recv_le_last (stream : VenueStream a) {e : BookEvent} (he : e ∈ stream.events) :
    e.provenance.recvTimestampUs ≤ stream.lastRecvTimestampUs := by
  have hne : stream.events ≠ [] := List.ne_nil_of_mem he
  have hpairs := stream.pairwise_recv_le
  have hlast : stream.lastRecvTimestampUs =
      (stream.events.getLast hne).provenance.recvTimestampUs := by
    rw [lastRecvTimestampUs, List.getLast?_eq_some_getLast hne]
    rfl
  rw [hlast]
  rw [← List.dropLast_append_getLast hne] at he hpairs
  rcases List.mem_append.mp he with he | he
  · exact (List.pairwise_append.mp hpairs).2.2 e he _ List.mem_cons_self
  · rw [List.mem_singleton.mp he]

/-- **Live and replay agree.**  The book the live model holds after the whole
stream has the levels the replay engine reconstructs at the last receive
timestamp, in whatever order the window lists the records. -/
theorem live_levels_eq_reconstructBook (stream : VenueStream a) (mode : FeedMode)
    (hbook : stream.book.isOk = true) (hsnapshot : ∃ m ∈ stream.messages, m.kind = .snapshot)
    (window : MarketDataWindow) (hperm : window.bookEvents.Perm stream.events)
    (hreset : ∀ e ∈ window.ingestEvents, e.kind.isContinuityReset = false) :
    ∃ r, reconstructBook a stream.lastRecvTimestampUs .recvTime none window = .ok r ∧
      ((LiveState.replay mode (bookRecords stream.events)).book a).levels = r.book.levels := by
  cases hfold : stream.book with
  | error err =>
      rw [hfold] at hbook
      cases hbook
  | ok b =>
      obtain ⟨r, hr, hsides⟩ := stream.reconstructBook_sides hfold hsnapshot hperm hreset
        (fun e he => stream.recv_le_last he)
      refine ⟨r, hr, L2Book.levels_eq_of_sides_eq ?_⟩
      rw [stream.live_sides mode hfold, hsides]

/-- A level change, a two-level snapshot and another level change. -/
def sampleStream : VenueStream "yes" where
  messages := [
    { kind := .delta
      recvTimestampUs := 1
      events := [Sample.stamped 0 (Sample.level .delta "yes" .bid 40 7 1 "l")]
      assetId := by decide
      kinds := by decide
      received := by decide
      oneGroup := by decide
      nonempty := by decide },
    { kind := .snapshot
      recvTimestampUs := 2
      events := [Sample.stamped 1 (Sample.level .snapshot "yes" .bid 50 10 2 "m"),
        Sample.stamped 2 (Sample.level .snapshot "yes" .ask 60 5 2 "m")]
      assetId := by decide
      kinds := by decide
      received := by decide
      oneGroup := by decide
      nonempty := by decide },
    { kind := .delta
      recvTimestampUs := 4
      events := [Sample.stamped 3 (Sample.level .delta "yes" .bid 51 3 4 "n")]
      assetId := by decide
      kinds := by decide
      received := by decide
      oneGroup := by decide
      nonempty := by decide }]
  increasing := by decide
  ordinals := by decide

/-- The window lists the stream backwards. -/
theorem live_levels_eq_reconstructBook_sample :
    ∃ r, reconstructBook "yes" sampleStream.lastRecvTimestampUs .recvTime none
        ⟨sampleStream.events.reverse, [], []⟩ = .ok r ∧
      ((LiveState.replay .fixedTokens (bookRecords sampleStream.events)).book "yes").levels =
        r.book.levels :=
  sampleStream.live_levels_eq_reconstructBook .fixedTokens (by decide) (by decide)
    ⟨sampleStream.events.reverse, [], []⟩ (List.reverse_perm _) (by simp)

end VenueStream

end Batch

end PolyBook
