import PolyBook.Dispatcher
import PolyBook.SnapshotGroups

/-!
# The dispatcher's records and its shadow books

The dispatcher applies a `book` message to its shadow book at once and sends it
as a run of snapshot records; the live model rebuilds the book from the records.
For each asset the two stay in step (`InStep`) through every kind of message:
a snapshot re-establishes the agreement, a level change keeps it, everything
else leaves both sides' levels alone.

Two kinds of `book` message do not fit: one with no levels, which empties the
shadow book but sends nothing, and one whose records continue the group the last
records opened, which the live model cannot tell apart from it.
-/

namespace PolyBook

namespace AssetView

variable (a : AssetId)

/-- A record that changes no level of the asset. -/
def Quiet (x : PersistedRecord) : Prop :=
  (∀ e, x = .book e → e.assetId ≠ a) ∧ ∀ c, x = .checkpoint c → c.assetId ≠ a

/-- A record that does not concern the asset leaves its book and its buffer. -/
theorem own_book_of_quiet {x : PersistedRecord} (hx : Quiet a x) (v : AssetView) :
    ((v.own a x).stateD a).book = (v.stateD a).book ∧ (v.own a x).pending = v.pending := by
  cases x with
  | book e => simp [own, hx.1 e rfl]
  | trade e => exact ⟨rfl, rfl⟩
  | ingest e =>
      simp only [own]
      split <;> exact ⟨rfl, rfl⟩
  | checkpoint c => simp [own, hx.2 c rfl]
  | validation e => exact ⟨rfl, rfl⟩

/-- The book the asset will have once its buffered group is applied. -/
def settledBook (v : AssetView) : L2Book := ((v.flush a).stateD a).book

/-- A record that does not concern the asset leaves its settled book. -/
theorem settledBook_apply_of_quiet {last : Option PersistedRecord} {v : AssetView}
    (h : Tracks a last v) {x : PersistedRecord} (hx : Quiet a x) :
    (v.apply a x).settledBook a = v.settledBook a := by
  have hown := own_book_of_quiet a hx (v.flush a)
  rw [apply, before_of_foreign a h hx.1, settledBook,
    flush_of_pending_none a (hown.2.trans (flush_pending a v)), hown.1]
  rfl

/-- Records that do not concern the asset leave its settled book. -/
theorem settledBook_applyAll_of_quiet {last : Option PersistedRecord} {v : AssetView}
    (h : Tracks a last v) {records : List PersistedRecord} (hquiet : ∀ x ∈ records, Quiet a x) :
    (v.applyAll a records).settledBook a = v.settledBook a := by
  induction records generalizing last v with
  | nil => rfl
  | cons x records ih =>
      rw [applyAll_cons, ih (tracks_apply a h x)
        (fun y hy => hquiet y (List.mem_cons_of_mem _ hy)),
        settledBook_apply_of_quiet a h (hquiet x List.mem_cons_self)]

end AssetView

namespace Dispatcher

/-- One message of a run: the dispatcher it finds and what has been sent. -/
structure Step where
  dispatcher : Dispatcher
  log : List PersistedRecord
  message : FeedMessage

/-- The messages of a run, each with what it finds. -/
def steps (d : Dispatcher) (log : List PersistedRecord) : List FeedMessage → List Step
  | [] => []
  | message :: messages =>
      ⟨d, log, message⟩ ::
        (d.dispatch message).1.steps (log ++ (d.dispatch message).2) messages

/-- The snapshot records of a step that accepts a `book` message of the asset. -/
def Step.acceptedBook (a : AssetId) (s : Step) : Option (List PersistedRecord) :=
  match s.message with
  | .raw ⟨some (.book message), _⟩ =>
      match s.dispatcher.judgeBook message with
      | .accepted _ _ _ =>
          if message.assetId = a then some (s.dispatcher.dispatch s.message).2 else none
      | _ => none
  | _ => none

/-- An accepted snapshot continues the group of the last record sent. -/
def Step.repeatsGroup (a : AssetId) (s : Step) : Bool :=
  match s.acceptedBook a with
  | none => false
  | some records =>
      match s.log.getLast?, records.head? with
      | some x, some y => sameGroup a x y
      | _, _ => false

/-- The records of the last `book` message of the asset the run accepted. -/
def lastAcceptedBook (a : AssetId) (messages : List FeedMessage) :
    Option (List PersistedRecord) :=
  ((new.steps [] messages).filterMap (Step.acceptedBook a)).getLast?

section Emission

variable (d : Dispatcher)

@[simp] theorem nextSequenceFor_validationBooks (assetId : AssetId) :
    (d.nextSequenceFor assetId).1.validationBooks = d.validationBooks := by
  unfold nextSequenceFor
  split <;> rfl

@[simp] theorem emitLevels_validationBooks (assetId : AssetId) (recv exchangeTs : Nat)
    (sourceEventId : Option String) (levels : List (Side × FixedPrice × FixedSize)) :
    (d.emitLevels assetId recv exchangeTs sourceEventId levels).1.validationBooks =
      d.validationBooks := by
  induction levels generalizing d with
  | nil => rfl
  | cons level levels ih =>
      obtain ⟨side, price, size⟩ := level
      rw [emitLevels, ih, nextSequenceFor_validationBooks]

/-- `d'` differs from `d` at most in the counters and the shadow books. -/
structure Frame (d d' : Dispatcher) : Prop where
  lastSnapshotTs : d'.lastSnapshotTs = d.lastSnapshotTs
  lastSnapshotHash : d'.lastSnapshotHash = d.lastSnapshotHash
  currentSessionId : d'.currentSessionId = d.currentSessionId

/-- Nothing is touched. -/
theorem Frame.refl : Frame d d := ⟨rfl, rfl, rfl⟩

/-- What neither step touches is not touched. -/
theorem Frame.trans {d d' d'' : Dispatcher} (h : Frame d d') (h' : Frame d' d'') :
    Frame d d'' where
  lastSnapshotTs := h'.lastSnapshotTs.trans h.lastSnapshotTs
  lastSnapshotHash := h'.lastSnapshotHash.trans h.lastSnapshotHash
  currentSessionId := h'.currentSessionId.trans h.currentSessionId

/-- Numbering a record touches the sequence numbers only. -/
theorem nextSequenceFor_frame (assetId : AssetId) : Frame d (d.nextSequenceFor assetId).1 := by
  unfold nextSequenceFor
  split <;> exact ⟨rfl, rfl, rfl⟩

/-- Sending a snapshot takes numbers only. -/
theorem emitLevels_frame (assetId : AssetId) (recv exchangeTs : Nat)
    (sourceEventId : Option String) (levels : List (Side × FixedPrice × FixedSize)) :
    Frame d (d.emitLevels assetId recv exchangeTs sourceEventId levels).1 := by
  induction levels generalizing d with
  | nil => exact Frame.refl d
  | cons level levels ih =>
      obtain ⟨side, price, size⟩ := level
      rw [emitLevels]
      exact (nextSequenceFor_frame d assetId).trans (ih (d.nextSequenceFor assetId).1)

/-- A level change touches the asset's shadow book only. -/
theorem dispatchChange_frame (recv exchangeTs : Nat) (entry : PriceChangeEntry)
    (isLast : Bool) (side : Side) (price : FixedPrice) (size : FixedSize) :
    Frame d (d.dispatchChange recv exchangeTs entry isLast side price size).1 := by
  have hnumbered := nextSequenceFor_frame d entry.assetId
  unfold dispatchChange
  dsimp only
  split
  · exact hnumbered
  · split
    · exact hnumbered.trans ⟨rfl, rfl, rfl⟩
    · exact hnumbered.trans ⟨rfl, rfl, rfl⟩

/-- Level changes leave the staleness tracker and the recorded hashes alone. -/
theorem dispatchChanges_frame (recv exchangeTs : Nat) (entries : List PriceChangeEntry) :
    Frame d (d.dispatchChanges recv exchangeTs entries).1 := by
  induction entries generalizing d with
  | nil => exact Frame.refl d
  | cons entry later ih =>
      rw [dispatchChanges]
      split
      · exact (dispatchChange_frame d recv exchangeTs entry _ _ _ _).trans (ih _)
      · exact ih d

/-- Level changes seed no shadow book. -/
theorem shadow_none_dispatchChanges {a : AssetId} {d : Dispatcher} (recv exchangeTs : Nat)
    (entries : List PriceChangeEntry) (hnone : d.validationBooks[a]? = none) :
    (d.dispatchChanges recv exchangeTs entries).1.validationBooks[a]? = none := by
  have hchange : ∀ (d : Dispatcher) (entry : PriceChangeEntry) (isLast : Bool) (side : Side)
      (price : FixedPrice) (size : FixedSize), d.validationBooks[a]? = none →
      (d.dispatchChange recv exchangeTs entry isLast side price size).1.validationBooks[a]? =
        none := by
    intro d entry isLast side price size hnone
    unfold dispatchChange
    dsimp only
    split
    · rw [nextSequenceFor_validationBooks]
      exact hnone
    · rename_i book hbook
      rw [nextSequenceFor_validationBooks] at hbook
      have hother : ¬ a = entry.assetId := by
        rintro rfl
        rw [hnone] at hbook
        cases hbook
      split
      · rw [TreeMapLookup.getElem?_erase, if_neg hother, nextSequenceFor_validationBooks]
        exact hnone
      · rw [TreeMapLookup.getElem?_insert, if_neg hother, nextSequenceFor_validationBooks]
        exact hnone
  induction entries generalizing d with
  | nil => exact hnone
  | cons entry later ih =>
      rw [dispatchChanges]
      split
      · exact ih (hchange _ _ _ _ _ _ hnone)
      · exact ih hnone

/-- What `emitLevels` sends: one snapshot record a level, in order. -/
theorem emitLevels_levels (assetId : AssetId) (recv exchangeTs : Nat)
    (sourceEventId : Option String) (levels : List (Side × FixedPrice × FixedSize)) :
    ∃ events : List BookEvent,
      (d.emitLevels assetId recv exchangeTs sourceEventId levels).2 = bookRecords events ∧
      (∀ e ∈ events, e.kind = .snapshot ∧
        e.groupKey = ⟨assetId, recv, exchangeTs, sourceEventId⟩) ∧
      events.map (fun e => (e.side, e.price, e.size)) = levels := by
  induction levels generalizing d with
  | nil => exact ⟨[], rfl, List.forall_mem_nil _, rfl⟩
  | cons level levels ih =>
      obtain ⟨side, price, size⟩ := level
      obtain ⟨events, hrecords, hevents, hlevels⟩ := ih (d.nextSequenceFor assetId).1
      refine ⟨(d.nextSequenceFor assetId).1.bookEvent .snapshot assetId side price size recv
        exchangeTs sourceEventId (d.nextSequenceFor assetId).2 :: events, ?_, ?_, ?_⟩
      · rw [emitLevels, hrecords]
        rfl
      · intro e he
        rcases List.mem_cons.mp he with rfl | he
        · exact ⟨rfl, rfl⟩
        · exact hevents e he
      · rw [List.map_cons, hlevels]
        rfl

/-- The records of one snapshot, by side. -/
theorem emitLevels_records (assetId : AssetId) (recv exchangeTs : Nat)
    (sourceEventId : Option String) (levels : List (Side × FixedPrice × FixedSize)) :
    ∃ events : List BookEvent,
      (d.emitLevels assetId recv exchangeTs sourceEventId levels).2 = bookRecords events ∧
      (∀ e ∈ events, e.assetId = assetId ∧ e.kind = .snapshot ∧
        e.groupKey = ⟨assetId, recv, exchangeTs, sourceEventId⟩) ∧
      ∀ side, levelsOn side (bookRecords events) =
        levels.filterMap fun level => if level.1 = side then some level.2 else none := by
  obtain ⟨events, hrecords, hevents, hlevels⟩ :=
    emitLevels_levels d assetId recv exchangeTs sourceEventId levels
  refine ⟨events, hrecords, ?_, ?_⟩
  · intro e he
    obtain ⟨hkind, hkey⟩ := hevents e he
    have hasset : e.groupKey.assetId = assetId := by rw [hkey]
    exact ⟨hasset, hkind, hkey⟩
  · intro side
    rw [← hlevels, List.filterMap_map, levelsOn, bookRecords, List.filterMap_map]
    rfl

/-- The levels of one side, in the order they were given. -/
theorem filterMap_snapshotLevels (bids asks : List (FixedPrice × FixedSize)) (side : Side) :
    ((snapshotLevels bids asks).filterMap fun level =>
      if level.1 = side then some level.2 else none) =
      match side with
      | .bid => bids
      | .ask => asks := by
  cases side <;> simp [snapshotLevels, List.filterMap_append, List.filterMap_map]

end Emission

/-- The live view of the asset has the levels and totals of the shadow book. -/
def InStep (a : AssetId) (d : Dispatcher) (v : AssetView) : Prop :=
  ∀ book, d.validationBooks[a]? = some book → (v.settledBook a).sides = book.sides

variable {a : AssetId} {d : Dispatcher} {v : AssetView} {last : Option PersistedRecord}

/-- Records that are quiet for the asset, from a dispatcher whose shadow book of
the asset is unchanged or gone. -/
theorem inStep_of_quiet {d' : Dispatcher} (htracks : AssetView.Tracks a last v)
    (h : InStep a d v) {records : List PersistedRecord}
    (hquiet : ∀ x ∈ records, AssetView.Quiet a x)
    (hbooks : ∀ book, d'.validationBooks[a]? = some book →
      d.validationBooks[a]? = some book) :
    InStep a d' (v.applyAll a records) := by
  intro book hbook
  rw [AssetView.settledBook_applyAll_of_quiet a htracks hquiet]
  exact h book (hbooks book hbook)

/-- An ingest event does not concern the book. -/
theorem quiet_ingest (event : IngestEvent) : AssetView.Quiet a (.ingest event) :=
  ⟨fun _ h => (nomatch h), fun _ h => (nomatch h)⟩

/-- A trade does not concern the book. -/
theorem quiet_trade (event : TradeEvent) : AssetView.Quiet a (.trade event) :=
  ⟨fun _ h => (nomatch h), fun _ h => (nomatch h)⟩

/-- A book event of another asset does not concern the book. -/
theorem quiet_book {event : BookEvent} (h : event.assetId ≠ a) :
    AssetView.Quiet a (.book event) := by
  refine ⟨?_, fun _ h => (nomatch h)⟩
  intro e he
  cases he
  exact h

/-- A lifecycle event keeps the two books in step. -/
theorem inStep_lifecycle (htracks : AssetView.Tracks a last v) (h : InStep a d v)
    (event : WsLifecycleEvent) :
    InStep a (d.dispatchLifecycle event).1 (v.applyAll a (d.dispatchLifecycle event).2) := by
  refine inStep_of_quiet htracks h ?_ ?_
  · intro x hx
    unfold dispatchLifecycle at hx
    split at hx
    · rw [List.mem_singleton.mp hx]
      exact quiet_ingest _
    · simp only [List.mem_cons, List.not_mem_nil, or_false] at hx
      rcases hx with rfl | rfl <;> exact quiet_ingest _
  · intro book hbook
    unfold dispatchLifecycle at hbook
    split at hbook
    · exact hbook
    · simp [resetContinuityState] at hbook

/-- A level change of the asset reaches the live book as soon as it is sent. -/
theorem settledBook_apply_delta {event : BookEvent}
    (hasset : event.assetId = a) (hkind : event.kind = .delta) {shadow next : L2Book}
    (hsides : (v.settledBook a).sides = shadow.sides) {sequence timestampUs : Nat}
    (hdelta : shadow.tryApplyDelta event.side event.price event.size sequence timestampUs =
      .ok next) :
    ((v.apply a (.book event)).settledBook a).sides = next.sides := by
  have hbefore : v.before a (.book event) = v.flush a := by
    cases hp : v.pending with
    | none => rw [AssetView.before_of_pending_none a hp, AssetView.flush_of_pending_none a hp]
    | some p => simp [AssetView.before, hp, AssetView.ends, hkind]
  obtain ⟨other, hother, hother_sides⟩ := L2Book.tryApplyDelta_sides
    (s := event.provenance.sequence.getD 0) (t := event.provenance.recvTimestampUs)
    hsides hdelta
  have hown : (v.flush a).own a (.book event) =
      (v.flush a).setState (((v.flush a).stateD a).recordDeltaEvent event) := by
    simp [AssetView.own, hasset, hkind]
  rw [AssetView.apply, hbefore, hown, AssetView.settledBook,
    AssetView.flush_of_pending_none a (by simp [AssetView.setState])]
  exact (congrArg L2Book.sides (AssetState.recordDeltaEvent_book_of_ok hother)).trans hother_sides

/-- A `price_change` entry reaches both books alike. -/
theorem inStep_change (htracks : AssetView.Tracks a last v) (h : InStep a d v)
    (recv exchangeTs : Nat) (entry : PriceChangeEntry) (isLast : Bool) (side : Side)
    (price : FixedPrice) (size : FixedSize) :
    InStep a (d.dispatchChange recv exchangeTs entry isLast side price size).1
      (v.applyAll a (d.dispatchChange recv exchangeTs entry isLast side price size).2) := by
  unfold dispatchChange
  simp only [nextSequenceFor_validationBooks]
  by_cases hasset : entry.assetId = a
  · subst hasset
    split
    · rename_i hshadow
      intro book hbook
      simp [hshadow] at hbook
    · rename_i shadow hshadow
      split
      · intro book hbook
        simp at hbook
      · rename_i next hdelta
        intro book hbook
        simp only [TreeMapLookup.getElem?_insert, if_true, Option.some.injEq] at hbook
        subst hbook
        rw [AssetView.applyAll_cons, AssetView.settledBook_applyAll_of_quiet _
          (AssetView.tracks_apply _ htracks _)]
        · exact settledBook_apply_delta rfl rfl (h shadow hshadow) hdelta
        · intro x hx
          obtain ⟨details, _, rfl⟩ := List.mem_map.mp hx
          exact quiet_ingest _
  · have hquiet : ∀ kind side price size eventId sequence, AssetView.Quiet a (.book
        ((d.nextSequenceFor entry.assetId).1.bookEvent kind entry.assetId side price size recv
          exchangeTs eventId sequence)) := fun _ _ _ _ _ _ => quiet_book hasset
    have hne : ¬ a = entry.assetId := fun heq => hasset heq.symm
    split
    · refine inStep_of_quiet htracks h ?_ (by simp)
      simp [hquiet]
    · split
      · refine inStep_of_quiet htracks h ?_ ?_
        · simp [hquiet, assetRecord, quiet_ingest]
        · simp [TreeMapLookup.getElem?_erase, hne]
      · refine inStep_of_quiet htracks h ?_ ?_
        · intro x hx
          rcases List.mem_cons.mp hx with rfl | hx
          · exact hquiet _ _ _ _ _ _
          · obtain ⟨details, _, rfl⟩ := List.mem_map.mp hx
            exact quiet_ingest _
        · simp [TreeMapLookup.getElem?_insert, hne]

/-- Level changes keep the two books in step. -/
theorem inStep_changes (htracks : AssetView.Tracks a last v) (h : InStep a d v)
    (recv exchangeTs : Nat) (entries : List PriceChangeEntry) :
    InStep a (d.dispatchChanges recv exchangeTs entries).1
      (v.applyAll a (d.dispatchChanges recv exchangeTs entries).2) := by
  induction entries generalizing d v last with
  | nil => exact h
  | cons entry later ih =>
      unfold dispatchChanges
      split
      · rename_i side price size _ _ _
        simp only [AssetView.applyAll_append]
        have hlast : AssetView.Tracks a last.toList.getLast? v := by
          cases last <;> exact htracks
        exact ih (AssetView.tracks_applyAll a hlast _)
          (inStep_change htracks h recv exchangeTs entry _ side price size)
      · exact ih htracks h

/-- A `book` message that is not accepted for the asset. -/
theorem inStep_book_of_not_accepted (htracks : AssetView.Tracks a last v) (h : InStep a d v)
    (recv : Nat) (message : BookMessage)
    (hskip : message.assetId = a →
      ∀ bids asks book, d.judgeBook message ≠ .accepted bids asks book) :
    InStep a (d.dispatchBook recv message).1 (v.applyAll a (d.dispatchBook recv message).2) := by
  unfold dispatchBook
  split
  · exact inStep_of_quiet htracks h (by simp [assetRecord, quiet_ingest]) (fun _ => id)
  · exact inStep_of_quiet htracks h (by simp [assetRecord, quiet_ingest]) (fun _ => id)
  · exact h
  · exact inStep_of_quiet htracks h (by simp [assetRecord, quiet_ingest]) (fun _ => id)
  · refine inStep_of_quiet htracks h (by simp [assetRecord, quiet_ingest]) ?_
    intro book hbook
    rw [TreeMapLookup.getElem?_erase] at hbook
    split at hbook
    · cases hbook
    · exact hbook
  · rename_i bids asks book hverdict
    have hasset : message.assetId ≠ a := fun heq => hskip heq bids asks book hverdict
    have hne : ¬ a = message.assetId := fun heq => hasset heq.symm
    obtain ⟨events, hrecords, hevents, _⟩ := emitLevels_records (d.commitSnapshot message book)
      message.assetId recv (parseTimestampUs message.timestamp) message.hash
      (snapshotLevels bids asks)
    refine inStep_of_quiet htracks h ?_ ?_
    · rw [hrecords]
      intro x hx
      obtain ⟨e, he, rfl⟩ := List.mem_map.mp hx
      exact quiet_book (by rw [(hevents e he).1]; exact hasset)
    · simp [commitSnapshot, TreeMapLookup.getElem?_insert, hne]

/-- An accepted book message is what the shadow book has become. -/
theorem applied_of_accepted {message : BookMessage}
    {bids asks : List (FixedPrice × FixedSize)} {book : L2Book}
    (h : d.judgeBook message = .accepted bids asks book) :
    (d.validationBooks[message.assetId]?.getD (L2Book.new message.assetId)).tryApplySnapshot
      bids asks 0 (parseTimestampUs message.timestamp) = .ok book := by
  unfold judgeBook at h
  simp only at h
  split at h
  · cases h
  split at h
  · cases h
  split at h
  · cases h
  split at h
  · cases h
  split at h
  · cases h
  split at h
  · cases h
  · rename_i happly
    cases h
    exact happly

/-- An accepted `book` message with levels puts both books in step, if its
records start a group. -/
theorem inStep_book_of_accepted (htracks : AssetView.Tracks a last v) {recv : Nat}
    {message : BookMessage} (hasset : message.assetId = a)
    {bids asks : List (FixedPrice × FixedSize)} {book : L2Book}
    (hverdict : d.judgeBook message = .accepted bids asks book)
    (hlevels : (d.dispatchBook recv message).2 ≠ [])
    (hstarts : ∀ x y, last = some x → (d.dispatchBook recv message).2.head? = some y →
      sameGroup a x y = false) :
    InStep a (d.dispatchBook recv message).1 (v.applyAll a (d.dispatchBook recv message).2) := by
  obtain ⟨events, hrecords, hevents, hsent⟩ := emitLevels_records
    (d.commitSnapshot message book) message.assetId recv (parseTimestampUs message.timestamp)
    message.hash (snapshotLevels bids asks)
  have hdispatch : d.dispatchBook recv message =
      (d.commitSnapshot message book).emitLevels message.assetId recv
        (parseTimestampUs message.timestamp) message.hash (snapshotLevels bids asks) := by
    rw [dispatchBook, hverdict]
  rw [hdispatch] at hlevels hstarts ⊢
  rw [hrecords] at hlevels hstarts ⊢
  cases events with
  | nil => exact absurd rfl hlevels
  | cons e rest =>
      have hfirst : v.before a (.book e) = v.flush a := by
        cases hlast : last with
        | some x =>
            rw [hlast] at htracks
            exact AssetView.before_of_not_sameGroup a htracks (hstarts x _ hlast rfl)
        | none =>
            have hnone : v.pending = none := by
              cases hp : v.pending with
              | none => rfl
              | some p =>
                  obtain ⟨_, hsome, _⟩ := htracks p hp
                  rw [hlast] at hsome
                  cases hsome
            rw [AssetView.before_of_pending_none a hnone,
              AssetView.flush_of_pending_none a hnone]
      obtain ⟨q, hq, hbids, hasks, _⟩ := AssetView.applyAll_snapshots a
        (fun c hc => (hevents c hc).1.trans hasset) (fun c hc => (hevents c hc).2.1)
        (fun b hb c hc => (hevents b hb).2.2.trans (hevents c hc).2.2.symm) hfirst
      have hq_bids : q.bids = bids := by
        rw [hbids, hsent, filterMap_snapshotLevels]
      have hq_asks : q.asks = asks := by
        rw [hasks, hsent, filterMap_snapshotLevels]
      obtain ⟨other, hother, hsides⟩ := L2Book.tryApplySnapshot_sides
        (c := ((v.applyAll a (bookRecords (e :: rest))).stateD a).book)
        (s := q.sequence) (t := q.lastRecvTimestampUs) (applied_of_accepted hverdict)
      intro shadow hshadow
      simp only [emitLevels_validationBooks, commitSnapshot, hasset,
        TreeMapLookup.getElem?_insert, if_true, Option.some.injEq] at hshadow
      subst hshadow
      rw [← hq_bids, ← hq_asks] at hother
      simp only [AssetView.settledBook, AssetView.flush, hq]
      exact (congrArg L2Book.sides (AssetState.materialize_book_of_ok hother)).trans hsides

/-- A trade keeps the two books in step. -/
theorem inStep_trade (htracks : AssetView.Tracks a last v) (h : InStep a d v) (recv : Nat)
    (message : LastTradePriceMessage) :
    InStep a (d.dispatchTrade recv message).1 (v.applyAll a (d.dispatchTrade recv message).2) := by
  unfold dispatchTrade
  split
  · exact h
  · split
    · exact h
    · exact inStep_of_quiet htracks h (by simp [quiet_trade]) (fun _ => id)

/-- **One message.**  A message keeps the two books in step, unless it is an
accepted `book` message of the asset; that one brings them in step if it has
levels and starts a group. -/
theorem inStep_dispatch {s : Step} (htracks : AssetView.Tracks a s.log.getLast? v)
    (h : InStep a s.dispatcher v ∨ s.acceptedBook a ≠ none)
    (hlevels : s.acceptedBook a ≠ some []) (hstarts : s.repeatsGroup a = false) :
    InStep a (s.dispatcher.dispatch s.message).1
      (v.applyAll a (s.dispatcher.dispatch s.message).2) := by
  obtain ⟨d, log, message⟩ := s
  cases message with
  | lifecycle event => exact inStep_lifecycle htracks (h.resolve_right fun hne => hne rfl) event
  | raw raw =>
      obtain ⟨decoded, recv⟩ := raw
      cases decoded with
      | none => exact h.resolve_right fun hne => hne rfl
      | some decoded =>
          cases decoded with
          | priceChange message =>
              have h := h.resolve_right fun hne => hne rfl
              simp only [dispatch, dispatchRaw, dispatchPriceChange]
              split
              · exact h
              · exact inStep_changes htracks h recv _ _
          | lastTradePrice message =>
              exact inStep_trade htracks (h.resolve_right fun hne => hne rfl) recv message
          | tickSizeChange asset => exact h.resolve_right fun hne => hne rfl
          | book message =>
              by_cases haccepted : message.assetId = a ∧
                  ∃ bids asks book, d.judgeBook message = .accepted bids asks book
              · obtain ⟨hasset, bids, asks, book, hverdict⟩ := haccepted
                have hsent : Step.acceptedBook a ⟨d, log, .raw ⟨some (.book message), recv⟩⟩ =
                    some (d.dispatchBook recv message).2 := by
                  simp [Step.acceptedBook, hverdict, hasset, dispatch, dispatchRaw]
                rw [hsent] at hlevels
                refine inStep_book_of_accepted htracks hasset hverdict
                  (fun hnil => hlevels (congrArg some hnil)) ?_
                intro x y hx hy
                simpa [Step.repeatsGroup, hsent, hx, hy] using hstarts
              · have hnone : Step.acceptedBook a ⟨d, log, .raw ⟨some (.book message), recv⟩⟩ =
                    none := by
                  simp only [Step.acceptedBook]
                  split
                  · rename_i bids asks book hverdict
                    rw [if_neg]
                    exact fun hasset => haccepted ⟨hasset, bids, asks, book, hverdict⟩
                  · rfl
                refine inStep_book_of_not_accepted htracks
                  (h.resolve_right fun hne => hne hnone) recv message ?_
                exact fun hasset bids asks book hverdict =>
                  haccepted ⟨hasset, bids, asks, book, hverdict⟩

/-- **A whole run.**  `last` is the last accepted `book` message before it. -/
theorem inStep_run (messages : List FeedMessage) {log : List PersistedRecord}
    (last : Option (List PersistedRecord)) (htracks : AssetView.Tracks a log.getLast? v)
    (h : last ≠ some [] → InStep a d v)
    (hstarts : ∀ s ∈ d.steps log messages, s.repeatsGroup a = false)
    (hlevels : (last.toList ++ (d.steps log messages).filterMap (Step.acceptedBook a)).getLast? ≠
      some []) :
    InStep a (d.run messages).1 (v.applyAll a (d.run messages).2) := by
  induction messages generalizing d v log last with
  | nil =>
      refine h ?_
      intro hlast
      simp [hlast, steps] at hlevels
  | cons message messages ih =>
      rw [steps] at hstarts hlevels
      obtain ⟨hfirst, hrest⟩ := List.forall_mem_cons.mp hstarts
      simp only [run, AssetView.applyAll_append]
      have htracks' := AssetView.tracks_applyAll a htracks (d.dispatch message).2
      cases haccepted : Step.acceptedBook a ⟨d, log, message⟩ with
      | none =>
          rw [List.filterMap_cons_none haccepted] at hlevels
          refine ih last htracks' ?_ hrest hlevels
          intro hlast
          exact inStep_dispatch htracks (Or.inl (h hlast)) (by simp [haccepted]) hfirst
      | some records =>
          rw [List.filterMap_cons_some haccepted] at hlevels
          refine ih (some records) htracks' ?_ hrest ?_
          · intro hne
            refine inStep_dispatch htracks (Or.inr (by simp [haccepted])) ?_ hfirst
            rwa [haccepted]
          · cases last with
            | none => exact hlevels
            | some before =>
                rwa [Option.toList_some, List.singleton_append, List.getLast?_cons_cons]
                  at hlevels

/-- **The records are a log of the shadow books.**  Replaying what the
dispatcher sent gives every asset with a shadow book that book's levels, when
the last `book` message it accepted for the asset had levels and none of them
continued the group of the record sent just before it. -/
theorem live_levels_eq_shadow (mode : FeedMode) (messages : List FeedMessage) (a : AssetId)
    (hstarts : ∀ s ∈ new.steps [] messages, s.repeatsGroup a = false)
    (hlevels : lastAcceptedBook a messages ≠ some [])
    (book : L2Book) (hshadow : (new.run messages).1.validationBooks[a]? = some book) :
    ((LiveState.replay mode (new.run messages).2).book a).levels = book.levels := by
  have hstep : InStep a (new.run messages).1
      (AssetView.empty.applyAll a (new.run messages).2) := by
    refine inStep_run messages none (AssetView.tracks_of_pending_none a rfl [].getLast?) ?_
      hstarts ?_
    · intro _ shadow hnew
      simp [new] at hnew
    · simpa [lastAcceptedBook] using hlevels
  refine L2Book.levels_eq_of_sides_eq ?_
  rw [LiveState.book_eq, LiveState.view_replay]
  exact hstep book hshadow

/-- A snapshot of two levels, then a level change. -/
def sampleMessages : List FeedMessage := [
  .raw ⟨some (.book {
    assetId := "yes", timestamp := some "1750000000000", hash := some "m"
    bids := [⟨"0.50", "10"⟩], asks := [⟨"0.60", "5"⟩] }), 1750000000100000⟩,
  .raw ⟨some (.priceChange {
    timestamp := some "1750000001000"
    priceChanges := [⟨"yes", "0.51", "3", "BUY", some "n", some "0.51", some "0.60"⟩] }),
    1750000001100000⟩]

/-- The sample run, whose live book is the shadow book. -/
theorem live_levels_eq_shadow_sample :
    ∃ book, (new.run sampleMessages).1.validationBooks["yes"]? = some book ∧
      ((LiveState.replay .fixedTokens (new.run sampleMessages).2).book "yes").levels =
        book.levels := by
  have hsome : (new.run sampleMessages).1.validationBooks["yes"]?.isSome = true := by decide
  obtain ⟨book, hbook⟩ := Option.isSome_iff_exists.mp hsome
  exact ⟨book, hbook, live_levels_eq_shadow .fixedTokens sampleMessages "yes" (by decide)
    (by decide) book hbook⟩

/-- The same snapshot followed by one with no levels. -/
def emptiedMessages : List FeedMessage := [
  .raw ⟨some (.book {
    assetId := "yes", timestamp := some "1750000000000", hash := some "m"
    bids := [⟨"0.50", "10"⟩], asks := [⟨"0.60", "5"⟩] }), 1750000000100000⟩,
  .raw ⟨some (.book {
    assetId := "yes", timestamp := some "1750000001000", hash := some "n"
    bids := [], asks := [] }), 1750000001100000⟩]

/-- The empty `book` message empties the shadow book and sends nothing, so the
live book keeps the old levels. -/
theorem empty_book_leaves_live_levels :
    ¬ ∀ book, (new.run emptiedMessages).1.validationBooks["yes"]? = some book →
      ((LiveState.replay .fixedTokens (new.run emptiedMessages).2).book "yes").levels =
        book.levels := by
  intro hall
  have hsome : (new.run emptiedMessages).1.validationBooks["yes"]?.isSome = true := by decide
  obtain ⟨book, hbook⟩ := Option.isSome_iff_exists.mp hsome
  have hbids : ((LiveState.replay .fixedTokens (new.run emptiedMessages).2).book
      "yes").bids.toList.head? = ((new.run emptiedMessages).1.validationBooks["yes"]?.map
        fun book => book.bids.toList.head?).join := by
    rw [hbook]
    exact congrArg (fun levels => levels.1.toList.head?) (hall book hbook)
  exact absurd hbids (by decide)

end Dispatcher

end PolyBook
