import PolyBook.BookTotals
import PolyBook.ResetDedupe

/-!
# Repairing a drifted shadow book

A level change that is lost or wrong leaves the shadow book apart from the venue's
book until a `book` message replaces it.  When the cross-check notices, a fresh
book is fetched and sent through the same branch as any other `book` message, and
there it meets the hash dedupe.

`repaired_iff` says what comes of it: the hash of the last accepted snapshot stays
recorded while level changes move the shadow book on, so a message that repeats it
is dropped as a retransmit, whatever the shadow book holds by then.
-/

namespace PolyBook

namespace Dispatcher

/-- After the message the shadow book is the message's book. -/
def Repaired (d : Dispatcher) (message : BookMessage) (recv : Nat)
    (bids asks : List (FixedPrice × FixedSize)) : Prop :=
  ∃ book : L2Book, (d.dispatch (.raw ⟨some (.book message), recv⟩)).1.validationBooks[
      message.assetId]? = some book ∧ book.Shows bids asks

section Verdict

variable {d : Dispatcher} {message : BookMessage} {bids asks : List (FixedPrice × FixedSize)}

theorem dispatch_book (d : Dispatcher) (message : BookMessage) (recv : Nat) :
    d.dispatch (.raw ⟨some (.book message), recv⟩) = d.dispatchBook recv message := rfl

theorem dispatchBook_of_duplicate (h : d.judgeBook message = .duplicate) (recv : Nat) :
    d.dispatchBook recv message = (d, []) := by
  rw [dispatchBook, h]

theorem validationBooks_of_accepted {book : L2Book}
    (h : d.judgeBook message = .accepted bids asks book) (recv : Nat) :
    (d.dispatchBook recv message).1.validationBooks =
      d.validationBooks.insert message.assetId book := by
  rw [dispatchBook, h]
  exact emitLevels_validationBooks _ _ _ _ _ _

/-- **The recorded hash decides, or the book has not drifted.** -/
theorem Usable.repaired_iff_shows (h : Usable d message bids asks) (recv : Nat) {book : L2Book}
    (hbook : d.validationBooks[message.assetId]? = some book) :
    Repaired d message recv bids asks ↔
      (message.hash.isSome = true → d.lastSnapshotHash[message.assetId]? ≠ message.hash) ∨
        book.Shows bids asks := by
  have hverdict := h.judgeBook
  unfold Repaired
  rw [dispatch_book]
  by_cases hrepeat :
      message.hash.isSome = true ∧ d.lastSnapshotHash[message.assetId]? = message.hash
  · rw [if_pos hrepeat] at hverdict
    rw [dispatchBook_of_duplicate hverdict]
    constructor
    · rintro ⟨after, hafter, hshows⟩
      obtain rfl : book = after := Option.some.inj (hbook.symm.trans hafter)
      exact Or.inr hshows
    · rintro (hnew | hshows)
      · exact absurd hrepeat.2 (hnew hrepeat.1)
      · exact ⟨book, hbook, hshows⟩
  · rw [if_neg hrepeat] at hverdict
    obtain ⟨next, hverdict⟩ := hverdict
    rw [validationBooks_of_accepted hverdict]
    constructor
    · intro _
      exact Or.inl fun hsome heq => hrepeat ⟨hsome, heq⟩
    · intro _
      refine ⟨next, ?_, L2Book.shows_of_tryApplySnapshot (applied_of_accepted hverdict)⟩
      rw [TreeMapLookup.getElem?_insert, if_pos rfl]

end Verdict

/-- **A usable `book` message repairs the shadow book, unless it repeats the hash
recorded in the run so far.** -/
theorem repaired_iff (messages : List FeedMessage) (message : BookMessage) (recv : Nat)
    (bids asks : List (FixedPrice × FixedSize)) (book : L2Book)
    (hbook : (new.run messages).1.validationBooks[message.assetId]? = some book)
    (husable : Usable (new.run messages).1 message bids asks) :
    Repaired (new.run messages).1 message recv bids asks ↔
      (message.hash.isSome = true →
        new.recordedHash message.assetId none messages ≠ message.hash) ∨
        book.Shows bids asks := by
  have hrecorded : (new.run messages).1.lastSnapshotHash[message.assetId]? =
      new.recordedHash message.assetId none messages := by
    rw [lastSnapshotHash_run]
    simp [new]
  rw [← hrecorded]
  exact husable.repaired_iff_shows recv hbook

namespace LostRemoval

/-- The venue's book: one bid, at 0.50. -/
def message (hash : String) : BookMessage where
  assetId := "yes"
  timestamp := some "1750000000000"
  bids := [⟨"0.50", "10"⟩]
  asks := []
  hash := some hash

/-- A level change that tells a best bid of 0.50. -/
def change (price size : String) : PriceChangeMessage where
  priceChanges := [⟨"yes", price, size, "BUY", none, some "0.50", none⟩]
  timestamp := some "1750000001000"

/-- A bid at 0.51 comes, its removal is lost, and the next change shows it. -/
def messages : List FeedMessage :=
  [.raw ⟨some (.book (message "m")), 1750000000100000⟩,
    .raw ⟨some (.priceChange (change "0.51" "5")), 1750000001100000⟩,
    .raw ⟨some (.priceChange (change "0.50" "10")), 1750000001200000⟩]

/-- The dispatcher of the sample. -/
def dispatcher : Dispatcher := (new.run messages).1

/-- The sample's shadow bids. -/
def bids : List (FixedPrice × FixedSize) := [(Sample.price 50, Sample.size 10)]

theorem usable (hash : String) : Usable dispatcher (message hash) bids [] where
  inCap := by simp [message, maxBookLevelsPerSide]
  notOlder lastTs h _ := by
    have hlast : dispatcher.lastSnapshotTs["yes"]? = some 1750000000000000 := by decide +kernel
    rw [show (message hash).assetId = "yes" from rfl, hlast, Option.some.injEq] at h
    have htimestamp : parseTimestampUs (some "1750000000000") = 1750000000000000 := by decide
    rw [← h, message, htimestamp]
  bidsParse := rfl
  asksParse := rfl
  fits := by decide

theorem seeded : (dispatcher.validationBooks["yes"]?).isSome = true := by decide +kernel

/-- The shadow book, with the bid the venue no longer has. -/
def book : L2Book := (dispatcher.validationBooks["yes"]?).get seeded

theorem book_eq : dispatcher.validationBooks["yes"]? = some book := (Option.some_get seeded).symm

theorem book_not_shows : ¬ book.Shows bids [] := by
  intro h
  have hgone := ((h.1 ⟨5100, by decide⟩ ⟨5000000, by decide⟩).mp (by decide +kernel)).2
  revert hgone
  decide

end LostRemoval

open LostRemoval in
/-- With another hash the book is repaired. -/
theorem repaired_iff_fresh : Repaired LostRemoval.dispatcher (LostRemoval.message "p")
    1750000002000000 LostRemoval.bids [] :=
  (repaired_iff LostRemoval.messages (LostRemoval.message "p") 1750000002000000 LostRemoval.bids []
    LostRemoval.book book_eq (usable "p")).mpr (Or.inl fun _ => by decide +kernel)

open LostRemoval in
/-- The venue's book is again what it was, and the fetched one is dropped. -/
theorem same_book_leaves_drift :
    ¬ ∀ (messages : List FeedMessage) (message : BookMessage) (recv : Nat)
      (bids asks : List (FixedPrice × FixedSize)) (book : L2Book),
      (new.run messages).1.validationBooks[message.assetId]? = some book →
      Usable (new.run messages).1 message bids asks →
      Repaired (new.run messages).1 message recv bids asks := by
  intro hall
  have hrepaired := hall LostRemoval.messages (LostRemoval.message "m") 1750000002000000
    LostRemoval.bids [] LostRemoval.book book_eq (usable "m")
  rcases ((usable "m").repaired_iff_shows 1750000002000000 book_eq).mp hrepaired with hnew | hshows
  · have hhash : LostRemoval.dispatcher.lastSnapshotHash["yes"]? = some "m" := by decide +kernel
    exact hnew rfl hhash
  · exact book_not_shows hshows

end Dispatcher

end PolyBook
