import PolyBook.FeedPipeline
import PolyBook.GapCheck
import PolyBook.LiveReplay
import PolyBook.MergedGroups
import PolyBook.ShadowLog

/-!
# How the dispatcher numbers an asset's records

Every book record of an asset takes the asset's counter, and an accepted `book` message
sets the counter back to zero first.  `counts_of_not_accepted` and `seeds_of_accepted` say
for one message, as long as it reports no reset of the asset, which records of the asset
it sends, how they are numbered, and that the shadow book follows them.
-/

namespace PolyBook

/-- The book events of an asset among records. -/
def booksOf (a : AssetId) (records : List PersistedRecord) : List BookEvent :=
  records.filterMap (bookOf a)

/-- A continuity reset of the asset or of the whole feed. -/
def resetOf (a : AssetId) : PersistedRecord → Bool
  | .ingest e => e.kind.isContinuityReset && e.assetId.all fun row => row = a
  | _ => false

/-- No record is a continuity reset of the asset. -/
def Uninterrupted (a : AssetId) (records : List PersistedRecord) : Prop :=
  ∀ x ∈ records, resetOf a x = false

/-- The events take the numbers from `n` on. -/
def CountedFrom : Nat → List BookEvent → Prop
  | _, [] => True
  | n, e :: rest => e.number = n ∧ CountedFrom (Sequence.next n) rest

section Lists

variable {a : AssetId} {n : Nat}

@[simp] theorem booksOf_append (xs ys : List PersistedRecord) :
    booksOf a (xs ++ ys) = booksOf a xs ++ booksOf a ys := List.filterMap_append

theorem booksOf_bookRecords {events : List BookEvent} (h : ∀ e ∈ events, e.assetId = a) :
    booksOf a (bookRecords events) = events := by
  rw [booksOf, bookRecords, List.filterMap_map]
  refine (List.filterMap_congr ?_).trans (List.filterMap_some)
  intro e he
  simp [bookOf, h e he]

theorem booksOf_eq_nil {records : List PersistedRecord} :
    booksOf a records = [] ↔ ∀ e, PersistedRecord.book e ∈ records → e.assetId ≠ a := by
  rw [booksOf, List.filterMap_eq_nil_iff]
  constructor
  · intro h e he hasset
    have hnone := h _ he
    simp [bookOf, hasset] at hnone
  · intro h x hx
    cases x with
    | book e => simp [bookOf, h e hx]
    | _ => rfl

theorem booksOf_book_cons {event : BookEvent} {rest : List PersistedRecord}
    (hasset : event.assetId = a) (hrest : booksOf a rest = []) :
    booksOf a (.book event :: rest) = [event] := by
  rw [booksOf] at hrest ⊢
  rw [List.filterMap_cons, hrest]
  simp [bookOf, hasset]

theorem Uninterrupted.append {xs ys : List PersistedRecord} :
    Uninterrupted a (xs ++ ys) ↔ Uninterrupted a xs ∧ Uninterrupted a ys := by
  exact List.forall_mem_append

theorem countedFrom_append {xs ys : List BookEvent} :
    CountedFrom n (xs ++ ys) ↔
      CountedFrom n xs ∧ CountedFrom (Sequence.next^[xs.length] n) ys := by
  induction xs generalizing n with
  | nil => simp [CountedFrom]
  | cons x xs ih =>
      rw [List.cons_append, CountedFrom, CountedFrom, ih, List.length_cons,
        Function.iterate_succ_apply, and_assoc]

/-- Counting on from a number is numbering on from it. -/
theorem consecutive_of_countedFrom {events : List BookEvent} {m : Nat}
    (h : CountedFrom (Sequence.next m) events) : Consecutive m events := by
  induction events generalizing m with
  | nil => exact consecutive_nil m
  | cons e rest ih =>
      obtain ⟨hnumber, hrest⟩ := h
      refine consecutive_cons.mpr ⟨hnumber, ih ?_⟩
      rwa [hnumber]

theorem iterate_next {k : Nat} (h : n + k < 2 ^ 64) : Sequence.next^[k] n = n + k := by
  induction k generalizing n with
  | zero => rfl
  | succ k ih =>
      have hnext : Sequence.next n = n + 1 := Nat.mod_eq_of_lt (by omega)
      rw [Function.iterate_succ_apply, hnext, ih (by omega)]
      exact Nat.add_right_comm n 1 k

/-- While the counter does not wrap the numbers run upwards. -/
theorem numbers_of_countedFrom {events : List BookEvent} (h : CountedFrom n events)
    (hroom : n + events.length < 2 ^ 64) :
    events.Pairwise (fun d e => d.number < e.number) ∧
      ∀ e ∈ events, n ≤ e.number ∧ e.number < n + events.length := by
  induction events generalizing n with
  | nil => simp
  | cons e rest ih =>
      obtain ⟨hnumber, hrest⟩ := h
      rw [List.length_cons] at hroom ⊢
      have hnext : Sequence.next n = n + 1 := Nat.mod_eq_of_lt (by omega)
      rw [hnext] at hrest
      obtain ⟨hpairs, hbounds⟩ := ih hrest (by omega)
      refine ⟨List.pairwise_cons.mpr ⟨?_, hpairs⟩, ?_⟩
      · intro d hd
        have := (hbounds d hd).1
        omega
      · intro d hd
        rcases List.mem_cons.mp hd with rfl | hd
        · omega
        · have := hbounds d hd
          omega

end Lists

namespace Dispatcher

/-- The number the next book record of an asset takes. -/
def counter (d : Dispatcher) (a : AssetId) : Nat := d.assetSequences[a]?.getD 0

section Numbers

variable (d : Dispatcher) {a : AssetId}

@[simp] theorem nextSequenceFor_number (assetId : AssetId) :
    (d.nextSequenceFor assetId).2 = d.counter assetId := by
  unfold nextSequenceFor counter
  cases d.assetSequences[assetId]? <;> rfl

theorem nextSequenceFor_counter (assetId : AssetId) :
    (d.nextSequenceFor assetId).1.counter a =
      if a = assetId then Sequence.next (d.counter a) else d.counter a := by
  unfold nextSequenceFor counter
  cases hcount : d.assetSequences[assetId]? with
  | none =>
      simp only [TreeMapLookup.getElem?_insert]
      split
      · rename_i heq
        rw [heq, hcount]
        rfl
      · rfl
  | some current =>
      simp only [TreeMapLookup.getElem?_insert]
      split
      · rename_i heq
        rw [heq, hcount]
        rfl
      · rfl

theorem emitLevels_counter_of_ne {assetId : AssetId} (hne : assetId ≠ a) (recv exchangeTs : Nat)
    (sourceEventId : Option String) (levels : List (Side × FixedPrice × FixedSize)) :
    (d.emitLevels assetId recv exchangeTs sourceEventId levels).1.counter a = d.counter a := by
  induction levels generalizing d with
  | nil => rfl
  | cons level levels ih =>
      rw [emitLevels, ih, nextSequenceFor_counter, if_neg hne.symm]

/-- The records of a snapshot are counted. -/
theorem emitLevels_counted (recv exchangeTs : Nat) (sourceEventId : Option String)
    (levels : List (Side × FixedPrice × FixedSize)) :
    CountedFrom (d.counter a)
        (booksOf a (d.emitLevels a recv exchangeTs sourceEventId levels).2) ∧
      (d.emitLevels a recv exchangeTs sourceEventId levels).1.counter a = Sequence.next^[(booksOf a
        (d.emitLevels a recv exchangeTs sourceEventId levels).2).length] (d.counter a) ∧
      ∀ e ∈ booksOf a (d.emitLevels a recv exchangeTs sourceEventId levels).2,
        e.provenance.ingestOrdinal = none := by
  induction levels generalizing d with
  | nil => exact ⟨trivial, rfl, List.forall_mem_nil _⟩
  | cons level levels ih =>
      obtain ⟨side, price, size⟩ := level
      obtain ⟨hcounted, hcounter, hordinals⟩ := ih (d.nextSequenceFor a).1
      rw [nextSequenceFor_counter, if_pos rfl] at hcounted hcounter
      have hfirst : booksOf a [PersistedRecord.book ((d.nextSequenceFor a).1.bookEvent .snapshot a
          side price size recv exchangeTs sourceEventId (d.nextSequenceFor a).2)] =
          [(d.nextSequenceFor a).1.bookEvent .snapshot a side price size recv exchangeTs
            sourceEventId (d.nextSequenceFor a).2] := by
        simp [booksOf, bookOf, bookEvent]
      rw [emitLevels, ← List.singleton_append, booksOf_append, hfirst]
      exact ⟨⟨nextSequenceFor_number d a, hcounted⟩, hcounter,
        List.forall_mem_cons.mpr ⟨rfl, hordinals⟩⟩

end Numbers

/-- A dispatcher that sent level changes of the asset, all received at one time: they are
counted, and the shadow book has taken them. -/
structure Counts (a : AssetId) (recv : Nat) (d d' : Dispatcher) (events : List BookEvent) :
    Prop where
  changes : ∀ e ∈ events, e.kind = .delta ∧ e.provenance.recvTimestampUs = recv
  unstamped : ∀ e ∈ events, e.provenance.ingestOrdinal = none
  counted : CountedFrom (d.counter a) events
  counter : d'.counter a = Sequence.next^[events.length] (d.counter a)
  shadow : ∀ book, d.validationBooks[a]? = some book →
    ∃ next, d'.validationBooks[a]? = some next ∧ ∀ seeded : L2Book, seeded.sides = book.sides →
      ∃ taken, applyDeltas .recvTime seeded events = .ok taken ∧ taken.sides = next.sides

/-- A dispatcher that sent a snapshot of the asset, possibly an empty one: it starts to
count at zero, and the shadow book is the snapshot. -/
structure Seeds (a : AssetId) (recv : Nat) (d' : Dispatcher) (events : List BookEvent) :
    Prop where
  snapshots : ∀ e ∈ events, e.kind = .snapshot ∧ e.provenance.recvTimestampUs = recv
  unstamped : ∀ e ∈ events, e.provenance.ingestOrdinal = none
  counted : CountedFrom 0 events
  counter : d'.counter a = Sequence.next^[events.length] 0
  shadow : ∃ next, d'.validationBooks[a]? = some next ∧ ∀ book : L2Book,
    ∃ seeded, book.applySnapshotEvents events recv = .ok seeded ∧ seeded.sides = next.sides

namespace Counts

variable {a : AssetId} {recv : Nat} {d d' d'' : Dispatcher}

/-- Nothing was sent, and nothing about the asset changed. -/
theorem of_same (hcounter : d'.counter a = d.counter a)
    (hshadow : d'.validationBooks[a]? = d.validationBooks[a]?) : Counts a recv d d' [] where
  changes := List.forall_mem_nil _
  unstamped := List.forall_mem_nil _
  counted := trivial
  counter := hcounter
  shadow book hbook := ⟨book, hshadow.trans hbook, fun seeded hseeded => ⟨seeded, rfl, hseeded⟩⟩

/-- One level change was sent, and the shadow book took it. -/
theorem of_one {event : BookEvent} {rest : List PersistedRecord} (hasset : event.assetId = a)
    (hrest : booksOf a rest = []) (hk : event.kind = .delta)
    (hrecv : event.provenance.recvTimestampUs = recv)
    (hordinal : event.provenance.ingestOrdinal = none) (hnumber : event.number = d.counter a)
    (hcounter : d'.counter a = Sequence.next (d.counter a))
    (hshadow : ∀ book, d.validationBooks[a]? = some book → ∃ next sequence time,
      d'.validationBooks[a]? = some next ∧ book.tryApplyDelta event.side event.price event.size
        sequence time = .ok next) : Counts a recv d d' (booksOf a (.book event :: rest)) := by
  rw [booksOf_book_cons hasset hrest]
  refine ⟨?_, ?_, ⟨hnumber, trivial⟩, hcounter, ?_⟩
  · intro e he
    rw [List.mem_singleton.mp he]
    exact ⟨hk, hrecv⟩
  · intro e he
    rwa [List.mem_singleton.mp he]
  · intro book hbook
    obtain ⟨next, sequence, time, hnext, htake⟩ := hshadow book hbook
    refine ⟨next, hnext, ?_⟩
    intro seeded hseeded
    obtain ⟨taken, htaken, hsides⟩ := L2Book.tryApplyDelta_sides
      (s := event.provenance.sequence.getD 0) (t := eventOrderingTs .recvTime event) hseeded htake
    refine ⟨taken, ?_, hsides⟩
    rw [applyDeltas, List.foldlM_cons, htaken]
    rfl

theorem trans {events events' : List BookEvent} (h : Counts a recv d d' events)
    (h' : Counts a recv d' d'' events') : Counts a recv d d'' (events ++ events') where
  changes e he := (List.mem_append.mp he).elim (h.changes e) (h'.changes e)
  unstamped e he := (List.mem_append.mp he).elim (h.unstamped e) (h'.unstamped e)
  counted := countedFrom_append.mpr ⟨h.counted, h.counter ▸ h'.counted⟩
  counter := by
    rw [h'.counter, h.counter, ← Function.iterate_add_apply, List.length_append, Nat.add_comm]
  shadow book hbook := by
    obtain ⟨mid, hmid, htaken⟩ := h.shadow book hbook
    obtain ⟨next, hnext, htaken'⟩ := h'.shadow mid hmid
    refine ⟨next, hnext, ?_⟩
    intro seeded hseeded
    obtain ⟨between, hbetween, hsides⟩ := htaken seeded hseeded
    obtain ⟨taken, htaken, hsides'⟩ := htaken' between hsides
    refine ⟨taken, ?_, hsides'⟩
    rw [applyDeltas, List.foldlM_append]
    rw [applyDeltas] at hbetween htaken
    rw [hbetween]
    exact htaken

end Counts

section Messages

variable {a : AssetId} {d : Dispatcher} {recv : Nat}

/-- A message that reports on the asset only, and leaves it alone. -/
theorem counts_of_no_book {d' : Dispatcher} {records : List PersistedRecord}
    (hrecords : ∀ e, PersistedRecord.book e ∈ records → e.assetId ≠ a)
    (hcounter : d'.counter a = d.counter a)
    (hshadow : d'.validationBooks[a]? = d.validationBooks[a]?) :
    Counts a recv d d' (booksOf a records) := by
  rw [booksOf_eq_nil.mpr hrecords]
  exact Counts.of_same hcounter hshadow

/-- A level change of the asset. -/
theorem counts_own_change (exchangeTs : Nat) {entry : PriceChangeEntry} (hasset : entry.assetId = a)
    (isLast : Bool) (side : Side) (price : FixedPrice) (size : FixedSize)
    (hun : Uninterrupted a (d.dispatchChange recv exchangeTs entry isLast side price size).2) :
    Counts a recv d (d.dispatchChange recv exchangeTs entry isLast side price size).1
      (booksOf a (d.dispatchChange recv exchangeTs entry isLast side price size).2) := by
  subst hasset
  have hcounter : (d.nextSequenceFor entry.assetId).1.counter entry.assetId =
      Sequence.next (d.counter entry.assetId) := by
    rw [nextSequenceFor_counter, if_pos rfl]
  unfold dispatchChange at hun ⊢
  simp only [nextSequenceFor_validationBooks, nextSequenceFor_number] at hun ⊢
  split at hun
  · rename_i hnone
    refine Counts.of_one rfl rfl rfl rfl rfl rfl hcounter ?_
    intro book hbook
    rw [hnone] at hbook
    cases hbook
  · rename_i book hbook
    split at hun
    · -- the shadow book refused the change, which is a reset of the asset
      have hreset := hun _ (List.mem_cons_of_mem _ List.mem_cons_self)
      simp [resetOf, assetRecord, IngestEventKind.isContinuityReset] at hreset
    · rename_i next htake
      refine Counts.of_one rfl ?_ rfl rfl rfl rfl hcounter ?_
      · rw [booksOf_eq_nil]
        intro e he
        obtain ⟨details, -, hdetails⟩ := List.mem_map.mp he
        cases hdetails
      · intro shadow hshadow
        rw [hbook] at hshadow
        cases hshadow
        refine ⟨next, d.counter entry.assetId, exchangeTs, ?_, htake⟩
        rw [TreeMapLookup.getElem?_insert, if_pos rfl]

/-- A `price_change` entry. -/
theorem counts_change (exchangeTs : Nat) (entry : PriceChangeEntry) (isLast : Bool) (side : Side)
    (price : FixedPrice) (size : FixedSize) (hun : Uninterrupted a
      (d.dispatchChange recv exchangeTs entry isLast side price size).2) :
    Counts a recv d (d.dispatchChange recv exchangeTs entry isLast side price size).1
      (booksOf a (d.dispatchChange recv exchangeTs entry isLast side price size).2) := by
  by_cases hasset : entry.assetId = a
  · exact counts_own_change exchangeTs hasset isLast side price size hun
  · have hne : ¬ a = entry.assetId := fun heq => hasset heq.symm
    have hcounter : (d.nextSequenceFor entry.assetId).1.counter a = d.counter a := by
      rw [nextSequenceFor_counter, if_neg hne]
    clear hun
    unfold dispatchChange
    simp only [nextSequenceFor_validationBooks]
    split
    · refine counts_of_no_book ?_ hcounter ?_
      · intro e he
        cases List.mem_singleton.mp he
        exact hasset
      · rw [nextSequenceFor_validationBooks]
    · split
      · refine counts_of_no_book ?_ hcounter ?_
        · intro e he
          simp only [assetRecord, List.mem_cons, PersistedRecord.book.injEq, reduceCtorEq,
            List.not_mem_nil, or_false] at he
          rw [he]
          exact hasset
        · rw [TreeMapLookup.getElem?_erase, if_neg hne]
      · refine counts_of_no_book ?_ hcounter ?_
        · intro e he
          rcases List.mem_cons.mp he with he | he
          · cases he
            exact hasset
          · obtain ⟨details, -, hdetails⟩ := List.mem_map.mp he
            cases hdetails
        · rw [TreeMapLookup.getElem?_insert, if_neg hne]

theorem counts_changes (exchangeTs : Nat) (entries : List PriceChangeEntry)
    (hun : Uninterrupted a (d.dispatchChanges recv exchangeTs entries).2) :
    Counts a recv d (d.dispatchChanges recv exchangeTs entries).1
      (booksOf a (d.dispatchChanges recv exchangeTs entries).2) := by
  induction entries generalizing d with
  | nil => exact Counts.of_same rfl rfl
  | cons entry later ih =>
      unfold dispatchChanges at hun ⊢
      split at hun
      · obtain ⟨hfirst, hrest⟩ := Uninterrupted.append.mp hun
        rw [booksOf_append]
        exact (counts_change exchangeTs entry _ _ _ _ hfirst).trans (ih hrest)
      · exact ih hun

/-- An accepted `book` message. -/
theorem seeds_of_book {message : BookMessage} (hasset : message.assetId = a)
    {bids asks : List (FixedPrice × FixedSize)} {book : L2Book}
    (hverdict : d.judgeBook message = .accepted bids asks book) :
    Seeds a recv (d.dispatchBook recv message).1 (booksOf a (d.dispatchBook recv message).2) ∧
      (d.dispatchBook recv message).2 =
        bookRecords (booksOf a (d.dispatchBook recv message).2) := by
  subst hasset
  have hdispatch : d.dispatchBook recv message =
      (d.commitSnapshot message book).emitLevels message.assetId recv
        (parseTimestampUs message.timestamp) message.hash (snapshotLevels bids asks) := by
    rw [dispatchBook, hverdict]
  have hzero : (d.commitSnapshot message book).counter message.assetId = 0 := by
    simp [counter, commitSnapshot]
  rw [hdispatch]
  obtain ⟨hcounted, hcounter, hordinals⟩ := emitLevels_counted
    (a := message.assetId) (d.commitSnapshot message book) recv
    (parseTimestampUs message.timestamp) message.hash (snapshotLevels bids asks)
  obtain ⟨events, hrecords, hevents, hsent⟩ := emitLevels_records
    (d.commitSnapshot message book) message.assetId recv (parseTimestampUs message.timestamp)
    message.hash (snapshotLevels bids asks)
  have hown : booksOf message.assetId (bookRecords events) = events :=
    booksOf_bookRecords fun e he => (hevents e he).1
  rw [hrecords, hown] at hcounted hcounter hordinals
  rw [hzero] at hcounted hcounter
  rw [hrecords, hown]
  have hbids : eventLevels .bid events = bids := by
    rw [← levelsOn_bookRecords, hsent]
    exact filterMap_snapshotLevels bids asks .bid
  have hasks : eventLevels .ask events = asks := by
    rw [← levelsOn_bookRecords, hsent]
    exact filterMap_snapshotLevels bids asks .ask
  refine ⟨⟨?_, hordinals, hcounted, hcounter, ?_⟩, rfl⟩
  · intro e he
    obtain ⟨-, hk, hkey⟩ := hevents e he
    exact ⟨hk, congrArg SnapshotGroupKey.recvTimestampUs hkey⟩
  · refine ⟨book, ?_, ?_⟩
    · simp [commitSnapshot]
    · intro before
      obtain ⟨seeded, hseeded, hsides⟩ := L2Book.tryApplySnapshot_sides (c := before)
        (s := (events.getLast?.bind fun event => event.provenance.sequence).getD 0) (t := recv)
        (applied_of_accepted hverdict)
      refine ⟨seeded, ?_, hsides⟩
      rw [L2Book.applySnapshotEvents, hbids, hasks]
      exact hseeded

/-- A `book` message of another asset, or one that is not accepted. -/
theorem counts_of_book {message : BookMessage} (hskip : message.assetId = a → ∀ bids asks book,
      d.judgeBook message ≠ .accepted bids asks book)
    (hun : Uninterrupted a (d.dispatchBook recv message).2) :
    Counts a recv d (d.dispatchBook recv message).1
      (booksOf a (d.dispatchBook recv message).2) := by
  have hnotice : ∀ kind details, kind.isContinuityReset = true → Uninterrupted a
      [d.assetRecord message.assetId kind recv (parseTimestampUs message.timestamp) message.hash
        none details] → ¬ a = message.assetId := by
    rintro kind details hreset hquiet rfl
    have hkind := hquiet _ (List.mem_singleton.mpr rfl)
    simp [resetOf, assetRecord, hreset] at hkind
  unfold dispatchBook at hun ⊢
  split at hun
  · exact counts_of_no_book (by simp [assetRecord]) rfl rfl
  · exact counts_of_no_book (by simp [assetRecord]) rfl rfl
  · exact Counts.of_same rfl rfl
  · exact counts_of_no_book (by simp [assetRecord]) rfl rfl
  · refine counts_of_no_book (by simp [assetRecord]) rfl ?_
    have hne := hnotice _ _ rfl hun
    rw [TreeMapLookup.getElem?_erase, if_neg hne]
  · rename_i bids asks book hverdict
    have hasset : message.assetId ≠ a := fun heq => hskip heq bids asks book hverdict
    have hne : ¬ a = message.assetId := fun heq => hasset heq.symm
    obtain ⟨events, hrecords, hevents, -⟩ := emitLevels_records (d.commitSnapshot message book)
      message.assetId recv (parseTimestampUs message.timestamp) message.hash
      (snapshotLevels bids asks)
    refine counts_of_no_book ?_ ?_ ?_
    · rw [hrecords]
      intro e he
      obtain ⟨f, hf, hfe⟩ := List.mem_map.mp he
      cases hfe
      rw [(hevents _ hf).1]
      exact hasset
    · rw [emitLevels_counter_of_ne _ hasset]
      simp [counter, commitSnapshot, TreeMapLookup.getElem?_insert, hne]
    · simp [commitSnapshot, TreeMapLookup.getElem?_insert, hne]

end Messages

/-- What a message does to the numbering of an asset. -/
inductive StepKind where
  | silent
  | changes
  | snapshot
  | emptied
  deriving DecidableEq, Repr

namespace Step

variable (a : AssetId) (s : Step)

/-- The book events of the asset that a message sends. -/
def books : List BookEvent := booksOf a (s.dispatcher.dispatch s.message).2

/-- An accepted `book` message of the asset is a snapshot, or empties the book without a
record; of the others only those with a usable level change send anything. -/
def kind : StepKind :=
  match s.acceptedBook a with
  | some [] => .emptied
  | some (_ :: _) => .snapshot
  | none => if s.books a = [] then .silent else .changes

variable {a s}

/-- What an accepted `book` message sends and leaves behind. -/
theorem seeds_of_accepted {records : List PersistedRecord}
    (h : s.acceptedBook a = some records) :
    Seeds a (FeedPipeline.recvTimestampUs s.message) (s.dispatcher.dispatch s.message).1
      (s.books a) ∧ records = bookRecords (s.books a) := by
  obtain ⟨d, log, message⟩ := s
  unfold acceptedBook at h
  split at h
  · rename_i message recv hmessage
    split at h
    · rename_i bids asks book hverdict
      split at h
      · rename_i hasset
        dsimp only at hmessage hverdict h
        subst hmessage
        cases h
        exact seeds_of_book hasset hverdict
      · cases h
    · cases h
  · cases h

/-- What any other message does while nothing resets the asset. -/
theorem counts_of_not_accepted (h : s.acceptedBook a = none)
    (hun : Uninterrupted a (s.dispatcher.dispatch s.message).2) :
    Counts a (FeedPipeline.recvTimestampUs s.message) s.dispatcher
      (s.dispatcher.dispatch s.message).1 (s.books a) := by
  obtain ⟨d, log, message⟩ := s
  dsimp only at hun
  cases message with
  | lifecycle event =>
      cases hk : event.kind with
      | reconnectStart =>
          simp only [books, dispatch, dispatchLifecycle, hk]
          exact counts_of_no_book (by simp [lifecycleRecord]) rfl rfl
      | reconnectSuccess =>
          simp only [dispatch, dispatchLifecycle, hk] at hun
          have hreset := hun _ (List.mem_cons_of_mem _ List.mem_cons_self)
          cases hreset
  | raw raw =>
      obtain ⟨decoded, recv⟩ := raw
      cases decoded with
      | none => exact Counts.of_same rfl rfl
      | some decoded =>
          cases decoded with
          | tickSizeChange asset => exact Counts.of_same rfl rfl
          | lastTradePrice message =>
              simp only [books, dispatch, dispatchRaw, dispatchTrade]
              split
              · exact Counts.of_same rfl rfl
              · split
                · exact Counts.of_same rfl rfl
                · exact counts_of_no_book (by simp) rfl rfl
          | priceChange message =>
              simp only [books, dispatch, dispatchRaw, dispatchPriceChange] at hun ⊢
              by_cases hcap : message.priceChanges.length > maxPriceChangesPerMessage
              · rw [if_pos hcap]
                exact Counts.of_same rfl rfl
              · rw [if_neg hcap] at hun ⊢
                exact counts_changes _ _ hun
          | book message =>
              refine counts_of_book ?_ hun
              intro hasset bids asks book hverdict
              simp [acceptedBook, hverdict, hasset] at h

end Step

end Dispatcher

end PolyBook
