import PolyBook.BookRepair

/-!
# Snapshots older than the level changes

A fetched book may reach the dispatcher after level changes that are newer than
it.  The staleness check compares a `book` message with the last accepted snapshot
only; level changes carry a venue time too, but leave no mark in the tracker.

`level_kept_iff` says when a level survives an older `book` message: when the
message is kept out by something else, such as a snapshot that is newer than it,
or lists the level at the size it has anyway.
-/

namespace PolyBook

/-- The raw size a book holds at a price. -/
def L2Book.rawAt (book : L2Book) : Side → FixedPrice → Nat
  | .bid, price => oldRaw book.bids price
  | .ask, price => oldRaw book.asks price

/-- The raw size the lists give a price. -/
def listedAt (bids asks : List (FixedPrice × FixedSize)) : Side → FixedPrice → Nat
  | .bid, price => lastListed bids price.raw
  | .ask, price => lastListed asks price.raw

theorem rawAt_of_tryApplySnapshot {book next : L2Book} {bids asks : List (FixedPrice × FixedSize)}
    {sequence timestampUs : Nat}
    (h : book.tryApplySnapshot bids asks sequence timestampUs = .ok next) (side : Side)
    (price : FixedPrice) : next.rawAt side price = listedAt bids asks side price := by
  obtain ⟨nextBids, nextAsks, hbids, hasks, rfl⟩ := L2Book.tryApplySnapshot_eq_ok_iff.mp h
  cases side with
  | bid =>
      rw [L2Book.rawAt, listedAt, ← sizeAt_raw]
      exact (exactSide_of_snapshotSide hbids).2 price.raw
  | ask =>
      rw [L2Book.rawAt, listedAt, ← sizeAt_raw]
      exact (exactSide_of_snapshotSide hasks).2 price.raw

namespace Dispatcher

/-- A record that resets the asset: its own or feed-wide. -/
def Resets (a : AssetId) (record : PersistedRecord) : Prop :=
  ∃ event, record = .ingest event ∧ event.kind = .sourceReset ∧
    (event.assetId = none ∨ event.assetId = some a)

/-- The level change is applied to the asset's shadow book. -/
def AppliesChange (d : Dispatcher) (recv exchangeTs : Nat) (entries : List PriceChangeEntry)
    (a : AssetId) (side : Side) (price : FixedPrice) (size : FixedSize) : Prop :=
  ∃ earlier entry later book, entries = earlier ++ entry :: later ∧ entry.assetId = a ∧
    parseSide entry.side = some side ∧ FixedPrice.tryFrom entry.price = .ok price ∧
    FixedSize.tryFrom entry.size = .ok size ∧
    (d.dispatchChanges recv exchangeTs earlier).1.validationBooks[a]? = some book ∧
    (book.tryApplyDelta side price size
      ((d.dispatchChanges recv exchangeTs earlier).1.nextSequenceFor a).2 exchangeTs).isOk = true

/-- The timestamp that staleness compares with after a message. -/
def snapshotTsAfter (a : AssetId) (d : Dispatcher) (recorded : Option Nat) :
    FeedMessage → Option Nat
  | .lifecycle event =>
      match event.kind with
      | .reconnectStart => recorded
      | .reconnectSuccess => none
  | .raw ⟨some (.book message), _⟩ =>
      match d.judgeBook message with
      | .accepted _ _ _ =>
          if message.assetId = a ∧ 0 < parseTimestampUs message.timestamp then
            some (parseTimestampUs message.timestamp)
          else recorded
      | _ => recorded
  | .raw _ => recorded

/-- The timestamp of the last snapshot of the asset accepted in this connection. -/
def recordedSnapshotTs (a : AssetId) (d : Dispatcher) (recorded : Option Nat) :
    List FeedMessage → Option Nat
  | [] => recorded
  | message :: messages =>
      (d.dispatch message).1.recordedSnapshotTs a (snapshotTsAfter a d recorded message) messages

section Timestamps

variable (d : Dispatcher) (a : AssetId)

/-- What one message does to the recorded timestamp. -/
theorem lastSnapshotTs_dispatch (message : FeedMessage) :
    (d.dispatch message).1.lastSnapshotTs[a]? =
      snapshotTsAfter a d d.lastSnapshotTs[a]? message := by
  cases message with
  | lifecycle event =>
      rw [dispatch, dispatchLifecycle, snapshotTsAfter]
      cases event.kind with
      | reconnectStart => rfl
      | reconnectSuccess => simp [resetContinuityState]
  | raw raw =>
      obtain ⟨message, recv⟩ := raw
      cases message with
      | none => rfl
      | some message =>
          cases message with
          | book message =>
              simp only [dispatch, dispatchRaw, dispatchBook, snapshotTsAfter]
              cases d.judgeBook message with
              | accepted bids asks book =>
                  simp only [(emitLevels_frame _ _ _ _ _ _).lastSnapshotTs, commitSnapshot,
                    gt_iff_lt]
                  by_cases hts : 0 < parseTimestampUs message.timestamp
                  · simp only [hts, if_true, and_true, TreeMapLookup.getElem?_insert, eq_comm]
                  · simp only [hts, if_false, and_false]
              | _ => rfl
          | priceChange message =>
              simp only [dispatch, dispatchRaw, dispatchPriceChange, snapshotTsAfter]
              split
              · rfl
              · rw [(dispatchChanges_frame d _ _ _).lastSnapshotTs]
          | lastTradePrice message =>
              simp only [dispatch, dispatchRaw, dispatchTrade, snapshotTsAfter]
              split
              · rfl
              · split <;> rfl
          | tickSizeChange assetId => rfl

/-- **The recorded timestamp of a run.** -/
theorem lastSnapshotTs_run (messages : List FeedMessage) :
    (d.run messages).1.lastSnapshotTs[a]? =
      d.recordedSnapshotTs a d.lastSnapshotTs[a]? messages := by
  induction messages generalizing d with
  | nil => rfl
  | cons message messages ih =>
      rw [run, recordedSnapshotTs, ← lastSnapshotTs_dispatch]
      exact ih (d.dispatch message).1

end Timestamps

section Verdict

variable {d : Dispatcher} {message : BookMessage} {bids asks : List (FixedPrice × FixedSize)}

/-- An accepted message is usable and does not repeat the recorded hash. -/
theorem usable_of_accepted {book : L2Book} (h : d.judgeBook message = .accepted bids asks book) :
    Usable d message bids asks ∧
      (message.hash.isSome = true → d.lastSnapshotHash[message.assetId]? ≠ message.hash) := by
  have happly := applied_of_accepted h
  have hfits := (d.validationBooks[message.assetId]?.getD
    (L2Book.new message.assetId)).isOk_tryApplySnapshot bids asks 0
      (parseTimestampUs message.timestamp)
  rw [happly] at hfits
  unfold judgeBook at h
  simp only at h
  split at h
  · cases h
  rename_i hcap
  split at h
  · cases h
  rename_i hstale
  split at h
  · cases h
  rename_i hfresh
  split at h
  · cases h
  rename_i bids' hbids
  split at h
  · cases h
  rename_i asks' hasks
  split at h
  · cases h
  cases h
  refine ⟨⟨by simpa using hcap, ?_, hbids, hasks, hfits.symm⟩, by simpa using hfresh⟩
  intro lastTs hlast hpos
  rw [hlast, Option.filter_eq_none_iff] at hstale
  have hnot := hstale lastTs rfl
  simp only [gt_iff_lt, Bool.and_eq_true, decide_eq_true_eq, not_and, Nat.not_lt] at hnot
  exact hnot hpos

theorem judgeBook_eq_stale_iff {lastTs : Nat} : d.judgeBook message = .stale lastTs ↔
    (message.bids.length ≤ maxBookLevelsPerSide ∧ message.asks.length ≤ maxBookLevelsPerSide) ∧
      d.lastSnapshotTs[message.assetId]? = some lastTs ∧
        0 < parseTimestampUs message.timestamp ∧ parseTimestampUs message.timestamp < lastTs := by
  unfold judgeBook
  simp only
  split
  · rename_i hcap
    refine iff_of_false (by simp) fun h => ?_
    simp only [gt_iff_lt, Bool.or_eq_true, decide_eq_true_eq] at hcap
    rcases hcap with hcap | hcap
    · exact Nat.not_le.mpr hcap h.1.1
    · exact Nat.not_le.mpr hcap h.1.2
  · rename_i hcap
    have hincap : message.bids.length ≤ maxBookLevelsPerSide ∧
        message.asks.length ≤ maxBookLevelsPerSide := by simpa using hcap
    split
    · rename_i last hlast
      rw [Option.filter_eq_some_iff] at hlast
      obtain ⟨hlast, hold⟩ := hlast
      simp only [gt_iff_lt, Bool.and_eq_true, decide_eq_true_eq] at hold
      rw [hlast]
      constructor
      · rintro ⟨⟩
        exact ⟨hincap, rfl, hold⟩
      · rintro ⟨-, heq, -⟩
        cases heq
        rfl
    · rename_i hnone
      rw [Option.filter_eq_none_iff] at hnone
      constructor
      · intro h
        split at h
        · cases h
        split at h
        · cases h
        split at h
        · cases h
        split at h <;> cases h
      · rintro ⟨-, hlast, hold⟩
        refine absurd ?_ (hnone lastTs hlast)
        simpa using hold

end Verdict

/-- A run in which a level change is applied to the asset's shadow book and later,
with no reset of the asset in between, a `book` message with an earlier venue time
arrives. -/
structure OlderSnapshot (a : AssetId) where
  before : List FeedMessage
  change : PriceChangeMessage
  changeRecv : Nat
  side : Side
  price : FixedPrice
  size : FixedSize
  inCap : change.priceChanges.length ≤ maxPriceChangesPerMessage
  applied : AppliesChange (new.run before).1 changeRecv (parseTimestampUs change.timestamp)
    change.priceChanges a side price size
  between : List FeedMessage
  noReset : ∀ record ∈ ((new.run before).1.run
    (.raw ⟨some (.priceChange change), changeRecv⟩ :: between)).2, ¬ Resets a record
  message : BookMessage
  recv : Nat
  asset : message.assetId = a
  older : 0 < parseTimestampUs message.timestamp ∧
    parseTimestampUs message.timestamp < parseTimestampUs change.timestamp

namespace OlderSnapshot

variable {a : AssetId} (h : OlderSnapshot a)

/-- The messages up to the snapshot. -/
def messages : List FeedMessage :=
  h.before ++ .raw ⟨some (.priceChange h.change), h.changeRecv⟩ :: h.between

/-- The dispatcher that receives the older message. -/
def dispatcher : Dispatcher := (new.run h.messages).1

/-- The dispatcher after the older message. -/
def next : Dispatcher :=
  (h.dispatcher.dispatch (.raw ⟨some (.book h.message), h.recv⟩)).1

/-- The older message does not overwrite the level. -/
def LevelKept : Prop :=
  ∀ book next : L2Book, h.dispatcher.validationBooks[a]? = some book →
    h.next.validationBooks[a]? = some next →
    next.rawAt h.side h.price = book.rawAt h.side h.price

/-- The older message is rejected as stale. -/
def RejectedAsStale : Prop := ∃ lastTs, h.dispatcher.judgeBook h.message = .stale lastTs

/-- Nothing keeps the message out: it is a good message that neither repeats the
recorded hash nor is older than the last accepted snapshot. -/
structure Admits (bids asks : List (FixedPrice × FixedSize)) : Prop where
  inCap : h.message.bids.length ≤ maxBookLevelsPerSide ∧
    h.message.asks.length ≤ maxBookLevelsPerSide
  notOlder : ∀ lastTs, new.recordedSnapshotTs a none h.messages = some lastTs →
    lastTs ≤ parseTimestampUs h.message.timestamp
  newHash : h.message.hash.isSome = true →
    new.recordedHash a none h.messages ≠ h.message.hash
  bidsParse : h.message.bids.mapM OrderEntry.convert = .ok bids
  asksParse : h.message.asks.mapM OrderEntry.convert = .ok asks
  fits : fitsTotals bids asks = true

theorem lastSnapshotTs_eq :
    h.dispatcher.lastSnapshotTs[a]? = new.recordedSnapshotTs a none h.messages := by
  rw [dispatcher, lastSnapshotTs_run]
  simp [new]

theorem lastSnapshotHash_eq :
    h.dispatcher.lastSnapshotHash[a]? = new.recordedHash a none h.messages := by
  rw [dispatcher, lastSnapshotHash_run]
  simp [new]

/-- What the history lets in, the checks let in. -/
theorem admits_iff {bids asks : List (FixedPrice × FixedSize)} :
    h.Admits bids asks ↔ Usable h.dispatcher h.message bids asks ∧
      (h.message.hash.isSome = true →
        h.dispatcher.lastSnapshotHash[h.message.assetId]? ≠ h.message.hash) := by
  rw [h.asset, h.lastSnapshotHash_eq]
  constructor
  · intro had
    refine ⟨⟨had.inCap, ?_, had.bidsParse, had.asksParse, had.fits⟩, had.newHash⟩
    intro lastTs hlast _
    rw [h.asset, h.lastSnapshotTs_eq] at hlast
    exact had.notOlder lastTs hlast
  · rintro ⟨husable, hhash⟩
    refine ⟨husable.inCap, ?_, hhash, husable.bidsParse, husable.asksParse, husable.fits⟩
    intro lastTs hlast
    apply husable.notOlder lastTs ?_ h.older.1
    rw [h.asset, h.lastSnapshotTs_eq]
    exact hlast

end OlderSnapshot

/-- **When an older snapshot leaves a newer level alone.**  The level changes play no
part in it: the message is stale exactly when a snapshot accepted before is newer. -/
theorem level_kept_iff (a : AssetId) (h : OlderSnapshot a) :
    (h.LevelKept ↔ ∀ bids asks book, h.Admits bids asks →
      h.dispatcher.validationBooks[a]? = some book →
        listedAt bids asks h.side h.price = book.rawAt h.side h.price) ∧
    (h.RejectedAsStale ↔
      (h.message.bids.length ≤ maxBookLevelsPerSide ∧
        h.message.asks.length ≤ maxBookLevelsPerSide) ∧
      ∃ lastTs, new.recordedSnapshotTs a none h.messages = some lastTs ∧
        parseTimestampUs h.message.timestamp < lastTs) := by
  constructor
  · constructor
    · intro hkept bids asks book hadmits hbook
      obtain ⟨husable, hhash⟩ := h.admits_iff.mp hadmits
      have hverdict := husable.judgeBook
      rw [if_neg (fun hrepeat => hhash hrepeat.1 hrepeat.2)] at hverdict
      obtain ⟨next, hverdict⟩ := hverdict
      have hnext : h.next.validationBooks[a]? = some next := by
        rw [OlderSnapshot.next, dispatch_book, validationBooks_of_accepted hverdict,
          TreeMapLookup.getElem?_insert, if_pos h.asset.symm]
      rw [← hkept book next hbook hnext]
      exact (rawAt_of_tryApplySnapshot (applied_of_accepted hverdict) _ _).symm
    · intro hsame book next hbook hnext
      rw [OlderSnapshot.next, dispatch_book] at hnext
      cases hverdict : h.dispatcher.judgeBook h.message with
      | accepted bids asks book' =>
          rw [validationBooks_of_accepted hverdict, TreeMapLookup.getElem?_insert,
            if_pos h.asset.symm] at hnext
          obtain rfl : book' = next := Option.some.inj hnext
          have hadmits := h.admits_iff.mpr (usable_of_accepted hverdict)
          rw [rawAt_of_tryApplySnapshot (applied_of_accepted hverdict) h.side h.price]
          exact hsame bids asks book hadmits hbook
      | rejected err =>
          rw [dispatchBook, hverdict, TreeMapLookup.getElem?_erase, if_pos h.asset.symm] at hnext
          cases hnext
      | _ =>
          rw [dispatchBook, hverdict] at hnext
          obtain rfl : book = next := Option.some.inj (hbook.symm.trans hnext)
          rfl
  · unfold OlderSnapshot.RejectedAsStale
    simp only [judgeBook_eq_stale_iff, h.asset, h.lastSnapshotTs_eq, h.older.1, true_and,
      exists_and_left]

namespace SlowFetch

/-- A book message with one bid, at 0.50. -/
def message (timestamp hash : String) : BookMessage where
  assetId := "yes"
  timestamp := some timestamp
  bids := [⟨"0.50", "10"⟩]
  asks := []
  hash := some hash

/-- The level change of the sample. -/
def entry : PriceChangeEntry := ⟨"yes", "0.51", "5", "BUY", none, none, none⟩

/-- The message of the sample that carries it. -/
def change : PriceChangeMessage := ⟨[entry], some "1750000003000"⟩

/-- The message before it, which gives the asset its book. -/
def before : List FeedMessage :=
  [.raw ⟨some (.book (message "1750000001000" "m")), 1750000001100000⟩]

theorem seeded : ((new.run before).1.validationBooks["yes"]?).isSome = true := by decide +kernel

/-- The sample's book before the level change. -/
def seed : L2Book := ((new.run before).1.validationBooks["yes"]?).get seeded

theorem applied : AppliesChange (new.run before).1 1750000003100000
    (parseTimestampUs change.timestamp) change.priceChanges "yes" .bid ⟨5100, by decide⟩
    ⟨5000000, by decide⟩ := by
  refine ⟨[], entry, [], seed, rfl, rfl, by decide, by decide, by decide, ?_, by decide +kernel⟩
  exact (Option.some_get seeded).symm

theorem quiet : ∀ record ∈ ((new.run before).1.run
    [.raw ⟨some (.priceChange change), 1750000003100000⟩]).2, ¬ Resets "yes" record := by
  intro record hrecord hreset
  have hbooks : ∀ record ∈ ((new.run before).1.run
      [.raw ⟨some (.priceChange change), 1750000003100000⟩]).2,
      levelsOn .bid [record] ≠ [] := by decide +kernel
  obtain ⟨event, rfl, -⟩ := hreset
  exact hbooks _ hrecord rfl

/-- The fetched book is older than the change and newer than the last snapshot. -/
def run : OlderSnapshot "yes" where
  before := before
  change := change
  changeRecv := 1750000003100000
  side := .bid
  price := Sample.price 51
  size := Sample.size 5
  inCap := by decide
  applied := applied
  between := []
  noReset := quiet
  message := message "1750000002000" "n"
  recv := 1750000003200000
  asset := rfl
  older := by decide

end SlowFetch

/-- The slow fetch takes the newer level away. -/
theorem slow_fetch_overwrites : ¬ ∀ (a : AssetId) (h : OlderSnapshot a), h.LevelKept := by
  intro hall
  have hbefore : (SlowFetch.run.dispatcher.validationBooks["yes"]?).map
      (fun b => b.rawAt .bid ⟨5100, by decide⟩) = some 5000000 := by decide +kernel
  have hafter : (SlowFetch.run.next.validationBooks["yes"]?).map
      (fun b => b.rawAt .bid ⟨5100, by decide⟩) = some 0 := by decide +kernel
  obtain ⟨book, hbook, hraw⟩ := Option.map_eq_some_iff.mp hbefore
  obtain ⟨next, hnext, hgone⟩ := Option.map_eq_some_iff.mp hafter
  have hsame : next.rawAt .bid ⟨5100, by decide⟩ = book.rawAt .bid ⟨5100, by decide⟩ :=
    hall "yes" SlowFetch.run book next hbook hnext
  rw [hraw, hgone] at hsame
  exact absurd hsame (by decide)

end Dispatcher

end PolyBook
