import PolyBook.ShadowLog

/-!
# The snapshot after a reset

When the dispatcher cannot use a message it announces a source reset, and replay
then waits for a fresh snapshot of the asset.  The announcement leaves the hash
of the last accepted snapshot in place, and the next `book` message is compared
with it.

`emitted_iff_hash_new` shows that the hash is all that decides: a good `book`
message is sent in full unless the venue repeats the hash recorded last, in this
connection, before or after the announcement.  A venue whose book is again what
it was before the reset repeats it.
-/

namespace PolyBook

namespace Dispatcher

/-- The message makes the dispatcher announce a reset of the asset. -/
def Announces (a : AssetId) (d : Dispatcher) (message : FeedMessage) : Prop :=
  ∃ event, .ingest event ∈ (d.dispatch message).2 ∧ event.kind = .sourceReset ∧
    event.assetId = some a

/-- A well-formed `book` message within the level cap, whose sizes fit the totals, and
not older than the last accepted one. -/
structure Usable (d : Dispatcher) (message : BookMessage)
    (bids asks : List (FixedPrice × FixedSize)) : Prop where
  inCap : message.bids.length ≤ maxBookLevelsPerSide ∧ message.asks.length ≤ maxBookLevelsPerSide
  notOlder : ∀ lastTs, d.lastSnapshotTs[message.assetId]? = some lastTs →
    0 < parseTimestampUs message.timestamp → lastTs ≤ parseTimestampUs message.timestamp
  bidsParse : message.bids.mapM OrderEntry.convert = .ok bids
  asksParse : message.asks.mapM OrderEntry.convert = .ok asks
  fits : fitsTotals bids asks = true

/-- A usable message that has levels. -/
structure Good (d : Dispatcher) (message : BookMessage)
    (bids asks : List (FixedPrice × FixedSize)) : Prop extends Usable d message bids asks where
  nonempty : bids ++ asks ≠ []

/-- Every level of the message is sent, in order, as a snapshot record. -/
def Emitted (message : BookMessage) (recvTimestampUs : Nat)
    (bids asks : List (FixedPrice × FixedSize)) (records : List PersistedRecord) : Prop :=
  ∃ events : List BookEvent, records = bookRecords events ∧
    (∀ e ∈ events, e.kind = .snapshot ∧ e.groupKey =
      ⟨message.assetId, recvTimestampUs, parseTimestampUs message.timestamp, message.hash⟩) ∧
    events.map (fun e => (e.side, e.price, e.size)) = snapshotLevels bids asks

/-- The hash that dedupe compares with after a message. -/
def hashAfter (a : AssetId) (d : Dispatcher) (recorded : Option String) :
    FeedMessage → Option String
  | .lifecycle event =>
      match event.kind with
      | .reconnectStart => recorded
      | .reconnectSuccess => none
  | .raw ⟨some (.book message), _⟩ =>
      match d.judgeBook message with
      | .accepted _ _ _ => if message.assetId = a then message.hash.or recorded else recorded
      | _ => recorded
  | .raw _ => recorded

/-- The hash of the last snapshot of the asset accepted in this connection. -/
def recordedHash (a : AssetId) (d : Dispatcher) (recorded : Option String) :
    List FeedMessage → Option String
  | [] => recorded
  | message :: messages =>
      (d.dispatch message).1.recordedHash a (hashAfter a d recorded message) messages

section Hash

variable (d : Dispatcher) (a : AssetId)

/-- What one message does to the recorded hash. -/
theorem lastSnapshotHash_dispatch (message : FeedMessage) :
    (d.dispatch message).1.lastSnapshotHash[a]? =
      hashAfter a d d.lastSnapshotHash[a]? message := by
  cases message with
  | lifecycle event =>
      rw [dispatch, dispatchLifecycle, hashAfter]
      cases event.kind with
      | reconnectStart => rfl
      | reconnectSuccess => simp [resetContinuityState]
  | raw raw =>
      obtain ⟨message, recv⟩ := raw
      cases message with
      | none => rfl
      | some message =>
          cases message with
          | book message =>
              simp only [dispatch, dispatchRaw, dispatchBook, hashAfter]
              cases d.judgeBook message with
              | accepted bids asks book =>
                  simp only [(emitLevels_frame _ _ _ _ _ _).lastSnapshotHash, commitSnapshot]
                  cases message.hash with
                  | none => simp
                  | some hash =>
                      simp only [TreeMapLookup.getElem?_insert, Option.some_or, eq_comm]
              | _ => rfl
          | priceChange message =>
              simp only [dispatch, dispatchRaw, dispatchPriceChange, hashAfter]
              split
              · rfl
              · rw [(dispatchChanges_frame d _ _ _).lastSnapshotHash]
          | lastTradePrice message =>
              simp only [dispatch, dispatchRaw, dispatchTrade, hashAfter]
              split
              · rfl
              · split <;> rfl
          | tickSizeChange assetId => rfl

/-- **The recorded hash of a run.** -/
theorem lastSnapshotHash_run (messages : List FeedMessage) :
    (d.run messages).1.lastSnapshotHash[a]? =
      d.recordedHash a d.lastSnapshotHash[a]? messages := by
  induction messages generalizing d with
  | nil => rfl
  | cons message messages ih =>
      rw [run, recordedHash, ← lastSnapshotHash_dispatch]
      exact ih (d.dispatch message).1

end Hash

section Verdict

variable {d : Dispatcher} {message : BookMessage} {bids asks : List (FixedPrice × FixedSize)}

/-- A usable message is a duplicate or accepted. -/
theorem Usable.judgeBook (h : Usable d message bids asks) :
    if message.hash.isSome = true ∧ d.lastSnapshotHash[message.assetId]? = message.hash then
      d.judgeBook message = .duplicate
    else ∃ book, d.judgeBook message = .accepted bids asks book := by
  have hcap : (decide (message.bids.length > maxBookLevelsPerSide) ||
      decide (message.asks.length > maxBookLevelsPerSide)) = false := by
    simpa using h.inCap
  have hstale : (d.lastSnapshotTs[message.assetId]?).filter
      (fun lastTs => parseTimestampUs message.timestamp > 0 &&
        parseTimestampUs message.timestamp < lastTs) = none := by
    rw [Option.filter_eq_none_iff]
    intro lastTs hlast
    have := h.notOlder lastTs hlast
    simp only [gt_iff_lt, Bool.and_eq_true, decide_eq_true_eq, not_and, Nat.not_lt]
    exact this
  unfold Dispatcher.judgeBook
  simp only [hcap, hstale]
  split
  · rename_i hduplicate
    rw [if_neg Bool.false_ne_true, if_pos (by simpa using hduplicate)]
  · rename_i hfresh
    have hbook := (d.validationBooks[message.assetId]?.getD
      (L2Book.new message.assetId)).isOk_tryApplySnapshot bids asks 0
        (parseTimestampUs message.timestamp)
    rw [h.fits] at hbook
    cases happly : (d.validationBooks[message.assetId]?.getD
        (L2Book.new message.assetId)).tryApplySnapshot bids asks 0
          (parseTimestampUs message.timestamp) with
    | error err =>
        rw [happly] at hbook
        cases hbook
    | ok book =>
        refine ⟨book, ?_⟩
        rw [if_neg Bool.false_ne_true, if_neg (by simpa using hfresh)]
        simp only [h.bidsParse, h.asksParse, happly]

/-- **The hash decides.** -/
theorem Good.emitted_iff (h : Good d message bids asks) (recv : Nat) :
    Emitted message recv bids asks (d.dispatchBook recv message).2 ↔
      (message.hash.isSome = true → d.lastSnapshotHash[message.assetId]? ≠ message.hash) := by
  have hverdict := h.toUsable.judgeBook
  split at hverdict
  · rename_i hduplicate
    simp only [hduplicate, ne_eq, not_true_eq_false, imp_false, iff_false, Emitted]
    rintro ⟨events, hrecords, -, hlevels⟩
    rw [dispatchBook, hverdict] at hrecords
    obtain rfl : events = [] := List.map_eq_nil_iff.mp hrecords.symm
    refine h.nonempty ?_
    simpa [snapshotLevels] using hlevels.symm
  · rename_i hfresh
    obtain ⟨book, hverdict⟩ := hverdict
    refine iff_of_true ?_ fun hsome heq => hfresh ⟨hsome, heq⟩
    simp only [dispatchBook, hverdict]
    exact emitLevels_levels _ _ _ _ _ _

end Verdict

/-- A run in which a reset of the asset is announced, up to the next good `book`
message for the asset. -/
structure AfterReset (a : AssetId) where
  before : List FeedMessage
  reset : WsRawMessage
  between : List FeedMessage
  announced : Announces a (new.run before).1 (.raw reset)
  next : ∀ earlier message recv later bids asks,
    between = earlier ++ .raw ⟨some (.book message), recv⟩ :: later → message.assetId = a →
      ¬ Good (new.run (before ++ .raw reset :: earlier)).1 message bids asks

namespace AfterReset

variable {a : AssetId}

/-- The messages up to the good one. -/
def messages (h : AfterReset a) : List FeedMessage := h.before ++ .raw h.reset :: h.between

/-- The dispatcher that receives the good message. -/
def dispatcher (h : AfterReset a) : Dispatcher := (new.run h.messages).1

end AfterReset

/-- **After a reset the next good snapshot gets through, unless it repeats the hash
recorded before it.** -/
theorem emitted_iff_hash_new (a : AssetId) (h : AfterReset a) (message : BookMessage) (recv : Nat)
    (bids asks : List (FixedPrice × FixedSize)) (hasset : message.assetId = a)
    (hgood : Good h.dispatcher message bids asks) :
    Emitted message recv bids asks
        (h.dispatcher.dispatch (.raw ⟨some (.book message), recv⟩)).2 ↔
      (message.hash.isSome = true → new.recordedHash a none h.messages ≠ message.hash) := by
  have hrecorded : h.dispatcher.lastSnapshotHash[message.assetId]? =
      new.recordedHash a none h.messages := by
    rw [hasset, AfterReset.dispatcher, lastSnapshotHash_run]
    simp [new]
  rw [← hrecorded]
  exact hgood.emitted_iff recv

namespace SameBookAgain

/-- A book message with one bid. -/
def message (hash price : String) : BookMessage where
  assetId := "yes"
  timestamp := some "1750000000000"
  bids := [⟨price, "10"⟩]
  asks := []
  hash := some hash

/-- The book is accepted, the next message has a price that does not parse. -/
def afterReset : AfterReset "yes" where
  before := [.raw ⟨some (.book (message "m" "0.50")), 1750000000100000⟩]
  reset := ⟨some (.book (message "n" "half")), 1750000000200000⟩
  between := []
  announced := ⟨
    { assetId := some "yes"
      kind := .sourceReset
      provenance :=
        ⟨1750000000200000, 1750000000000000, .webSocket, some "n", none, none, none⟩
      expectedSequence := none
      observedSequence := none
      details := some ("book snapshot dropped (unparseable level): " ++
        typesErrorDisplay (.priceParse "half")) },
    by decide +kernel, rfl, rfl⟩
  next earlier message recv later bids asks h := by simp at h

theorem good (hash : String) : Good afterReset.dispatcher (message hash "0.50")
    [(⟨5000, by decide⟩, ⟨10000000, by decide⟩)] [] where
  inCap := by simp [message, maxBookLevelsPerSide]
  notOlder lastTs h _ := by
    have hlast : afterReset.dispatcher.lastSnapshotTs["yes"]? = some 1750000000000000 := by decide
    rw [show (message hash "0.50").assetId = "yes" from rfl, hlast, Option.some.injEq] at h
    have htimestamp : parseTimestampUs (some "1750000000000") = 1750000000000000 := by decide
    rw [← h, message, htimestamp]
  bidsParse := rfl
  asksParse := rfl
  fits := by decide
  nonempty := by decide

end SameBookAgain

open SameBookAgain in
/-- With another hash the snapshot gets through. -/
theorem emitted_iff_hash_new_fresh :
    Emitted (message "p" "0.50") 1750000000300000 [(⟨5000, by decide⟩, ⟨10000000, by decide⟩)] []
      (SameBookAgain.afterReset.dispatcher.dispatch
        (.raw ⟨some (.book (message "p" "0.50")), 1750000000300000⟩)).2 :=
  (emitted_iff_hash_new "yes" SameBookAgain.afterReset (message "p" "0.50") 1750000000300000 _ _ rfl
    (good "p")).mpr (by decide)

open SameBookAgain in
/-- The venue's book is what it was before the reset, and nothing is sent. -/
theorem same_book_suppressed_after_reset :
    ¬ ∀ (a : AssetId) (h : AfterReset a) (message : BookMessage) (recv : Nat)
      (bids asks : List (FixedPrice × FixedSize)), message.assetId = a →
      Good h.dispatcher message bids asks →
      Emitted message recv bids asks
        (h.dispatcher.dispatch (.raw ⟨some (.book message), recv⟩)).2 := by
  intro hall
  have hemitted := hall "yes" SameBookAgain.afterReset (message "m" "0.50") 1750000000300000 _ _ rfl
    (good "m")
  have hnew := ((good "m").emitted_iff 1750000000300000).mp hemitted rfl
  revert hnew
  decide

end Dispatcher

end PolyBook
