import PolyBook.FixedPoint

/-!
# The level-2 order book

`L2Book` keeps one map per side and a running total per side.  A snapshot
replaces both sides, a delta changes one level; either is refused, leaving the
book as it was, when a running total would leave the `u64` range.

The two sides run the same arithmetic, so each operation is stated once for a
side (`snapshotSide`, `deltaSide`) and the book's operations choose the side.
What a snapshot does is collected in `tryApplySnapshot_eq_ok_iff`; in particular its
outcome does not depend on the book it replaces (`tryApplySnapshot_congr`).
-/

namespace PolyBook

/-- Price levels of one side, iterated in the order `cmp`. -/
abbrev SideLevels (cmp : FixedPrice → FixedPrice → Ordering) :=
  Std.ExtTreeMap FixedPrice FixedSize cmp

instance transCmp_reversed : Std.TransCmp fun a b : FixedPrice => compare b a := inferInstance

/-- Bids are keyed by the reversed price: iteration starts at the highest. -/
abbrev BidLevels := SideLevels (fun a b => compare b a)

/-- Asks iterate from the lowest price. -/
abbrev AskLevels := SideLevels compare

/-- Why a book refuses an update. -/
inductive BookError where
  | sequenceGap (assetId : String) (expected got gapSize : Nat)
  | crossedBook (assetId bestBid bestAsk : String)
  | aggregateOverflow (assetId side : String)
  deriving DecidableEq, Repr

/-- `BookError`'s `Display` text. -/
def BookError.display : BookError → String
  | .sequenceGap assetId expected got gapSize =>
      "orderbook " ++ assetId ++ ": sequence gap " ++ toString expected ++ " -> " ++
        toString got ++ " (dropped " ++ toString gapSize ++ " updates)"
  | .crossedBook assetId bestBid bestAsk =>
      "orderbook " ++ assetId ++ ": crossed book detected, best_bid=" ++ bestBid ++
        " >= best_ask=" ++ bestAsk
  | .aggregateOverflow assetId side =>
      "orderbook " ++ assetId ++ ": aggregate size overflow on " ++ side ++ " side"

/-- Level-2 order book: price to aggregate size, with running totals. -/
structure L2Book where
  assetId : AssetId
  bids : BidLevels
  asks : AskLevels
  sequence : Sequence
  lastUpdateUs : Nat
  totalBidRaw : Nat
  totalAskRaw : Nat
  seqInitialized : Bool
  deriving DecidableEq

/-- `L2Book::new`. -/
def L2Book.new (assetId : AssetId) : L2Book where
  assetId := assetId
  bids := ∅
  asks := ∅
  sequence := 0
  lastUpdateUs := 0
  totalBidRaw := 0
  totalAskRaw := 0
  seqInitialized := false

section OneSide

variable {cmp : FixedPrice → FixedPrice → Ordering} [Std.TransCmp cmp]

/-- `total.checked_sub(old)`, then `checked_add(size)`. -/
def checkedReplace (total old size : Nat) : Option Nat :=
  if old ≤ total ∧ total - old + size ≤ u64Max then some (total - old + size) else none

/-- Size stored at a price, zero when the level is absent. -/
def oldRaw (levels : SideLevels cmp) (price : FixedPrice) : Nat :=
  levels[price]?.elim 0 FixedSize.raw

/-- One level of a snapshot side: a zero size is skipped. -/
def snapshotLevel (acc : SideLevels cmp × Nat) (level : FixedPrice × FixedSize) :
    Option (SideLevels cmp × Nat) :=
  if level.2.isZero then some acc
  else
    (checkedReplace acc.2 (oldRaw acc.1 level.1) level.2.raw).map fun total =>
      (acc.1.insert level.1 level.2, total)

/-- Rebuild one side and its total from a snapshot's levels. -/
def snapshotSide (levels : List (FixedPrice × FixedSize)) :
    Option (SideLevels cmp × Nat) :=
  levels.foldlM snapshotLevel (∅, 0)

/-- One level change: a zero size removes the level. -/
def deltaSide (levels : SideLevels cmp) (total : Nat) (price : FixedPrice)
    (size : FixedSize) : Option (SideLevels cmp × Nat) :=
  if size.isZero then
    some (levels.erase price, total - oldRaw levels price)
  else
    (checkedReplace total (oldRaw levels price) size.raw).map fun next =>
      (levels.insert price size, next)

end OneSide

namespace L2Book

/-- Checked snapshot application: replace the whole book. -/
def tryApplySnapshot (book : L2Book) (bids asks : List (FixedPrice × FixedSize))
    (sequence : Sequence) (timestampUs : Nat) : Except BookError L2Book :=
  match (snapshotSide bids : Option (BidLevels × Nat)) with
  | none => .error (.aggregateOverflow book.assetId "Bid")
  | some nextBids =>
      match (snapshotSide asks : Option (AskLevels × Nat)) with
      | none => .error (.aggregateOverflow book.assetId "Ask")
      | some nextAsks =>
          .ok { book with
            bids := nextBids.1
            asks := nextAsks.1
            totalBidRaw := nextBids.2
            totalAskRaw := nextAsks.2
            sequence := sequence
            seqInitialized := true
            lastUpdateUs := timestampUs }

/-- Checked level change. -/
def tryApplyDelta (book : L2Book) (side : Side) (price : FixedPrice)
    (size : FixedSize) (sequence : Sequence) (timestampUs : Nat) :
    Except BookError L2Book :=
  match side with
  | .bid =>
      match deltaSide book.bids book.totalBidRaw price size with
      | none => .error (.aggregateOverflow book.assetId "Bid")
      | some next =>
          .ok { book with
            bids := next.1, totalBidRaw := next.2
            sequence := sequence, seqInitialized := true, lastUpdateUs := timestampUs }
  | .ask =>
      match deltaSide book.asks book.totalAskRaw price size with
      | none => .error (.aggregateOverflow book.assetId "Ask")
      | some next =>
          .ok { book with
            asks := next.1, totalAskRaw := next.2
            sequence := sequence, seqInitialized := true, lastUpdateUs := timestampUs }

/-- Best (highest) bid. -/
def bestBid (book : L2Book) : Option (FixedPrice × FixedSize) :=
  book.bids.toList.head?

/-- Best (lowest) ask. -/
def bestAsk (book : L2Book) : Option (FixedPrice × FixedSize) :=
  book.asks.toList.head?

/-- Gap detection against the next expected sequence, once one is known. -/
def checkSequence (book : L2Book) (incoming : Sequence) : Except BookError Unit :=
  let expected := Sequence.next book.sequence
  if book.seqInitialized && incoming != expected then
    .error (.sequenceGap book.assetId expected incoming
      (max incoming expected - min incoming expected))
  else .ok ()

/-- No crossed or locked book. -/
def checkIntegrity (book : L2Book) : Except BookError Unit :=
  match book.bestBid, book.bestAsk with
  | some (bid, _), some (ask, _) =>
      if bid.raw ≥ ask.raw then
        .error (.crossedBook book.assetId bid.display ask.display)
      else .ok ()
  | _, _ => .ok ()

/-- The price levels of both sides. -/
def levels (book : L2Book) : BidLevels × AskLevels := (book.bids, book.asks)

/-- The levels and the totals the overflow checks read. -/
def sides (book : L2Book) : (BidLevels × Nat) × (AskLevels × Nat) :=
  ((book.bids, book.totalBidRaw), (book.asks, book.totalAskRaw))

theorem levels_eq_of_sides_eq {b c : L2Book} (h : b.sides = c.sides) :
    b.levels = c.levels := by
  simp only [sides, Prod.mk.injEq] at h
  simp [levels, h.1.1, h.2.1]

/-- A snapshot is accepted exactly when both sides can be rebuilt, and then
nothing of the old book but its asset survives. -/
theorem tryApplySnapshot_eq_ok_iff {book next : L2Book}
    {bids asks : List (FixedPrice × FixedSize)} {sequence timestampUs : Nat} :
    book.tryApplySnapshot bids asks sequence timestampUs = .ok next ↔
      ∃ nextBids nextAsks,
        snapshotSide bids = some nextBids ∧ snapshotSide asks = some nextAsks ∧
        next = ⟨book.assetId, nextBids.1, nextAsks.1, sequence, timestampUs,
          nextBids.2, nextAsks.2, true⟩ := by
  unfold tryApplySnapshot
  cases hbids : (snapshotSide bids : Option (BidLevels × Nat)) with
  | none => simp
  | some nextBids =>
      cases hasks : (snapshotSide asks : Option (AskLevels × Nat)) with
      | none => simp
      | some nextAsks => simp [eq_comm]

/-- **A snapshot forgets the book it replaces.** -/
theorem tryApplySnapshot_congr {b c : L2Book} (h : b.assetId = c.assetId)
    (bids asks : List (FixedPrice × FixedSize)) (sequence timestampUs : Nat) :
    b.tryApplySnapshot bids asks sequence timestampUs =
      c.tryApplySnapshot bids asks sequence timestampUs := by
  unfold tryApplySnapshot
  rw [h]

theorem tryApplySnapshot_sides {b c next : L2Book}
    {bids asks : List (FixedPrice × FixedSize)} {sequence timestampUs s t : Nat}
    (h : b.tryApplySnapshot bids asks sequence timestampUs = .ok next) :
    ∃ other, c.tryApplySnapshot bids asks s t = .ok other ∧
      other.sides = next.sides := by
  obtain ⟨nextBids, nextAsks, hbids, hasks, rfl⟩ := tryApplySnapshot_eq_ok_iff.mp h
  exact ⟨_, tryApplySnapshot_eq_ok_iff.mpr ⟨_, _, hbids, hasks, rfl⟩, rfl⟩

theorem tryApplySnapshot_assetId {book next : L2Book}
    {bids asks : List (FixedPrice × FixedSize)} {sequence timestampUs : Nat}
    (h : book.tryApplySnapshot bids asks sequence timestampUs = .ok next) :
    next.assetId = book.assetId := by
  obtain ⟨_, _, _, _, rfl⟩ := tryApplySnapshot_eq_ok_iff.mp h
  rfl

theorem tryApplyDelta_assetId {book next : L2Book} {side : Side}
    {price : FixedPrice} {size : FixedSize} {sequence timestampUs : Nat}
    (h : book.tryApplyDelta side price size sequence timestampUs = .ok next) :
    next.assetId = book.assetId := by
  unfold tryApplyDelta at h
  split at h <;> split at h <;> cases h <;> rfl

/-- The book has the number of the snapshot applied last. -/
theorem tryApplySnapshot_sequence {book next : L2Book}
    {bids asks : List (FixedPrice × FixedSize)} {sequence timestampUs : Nat}
    (h : book.tryApplySnapshot bids asks sequence timestampUs = .ok next) :
    next.sequence = sequence ∧ next.seqInitialized = true := by
  obtain ⟨_, _, _, _, rfl⟩ := tryApplySnapshot_eq_ok_iff.mp h
  exact ⟨rfl, rfl⟩

/-- The book has the number of the level change applied last. -/
theorem tryApplyDelta_sequence {book next : L2Book} {side : Side}
    {price : FixedPrice} {size : FixedSize} {sequence timestampUs : Nat}
    (h : book.tryApplyDelta side price size sequence timestampUs = .ok next) :
    next.sequence = sequence ∧ next.seqInitialized = true := by
  unfold tryApplyDelta at h
  split at h <;> split at h <;> cases h <;> exact ⟨rfl, rfl⟩

/-- On a book that has a number only the next one is no gap. -/
theorem checkSequence_eq_ok_iff {book : L2Book} (h : book.seqInitialized = true)
    {incoming : Sequence} :
    book.checkSequence incoming = .ok () ↔ incoming = Sequence.next book.sequence := by
  simp [checkSequence, h]

/-- Two books with the same levels and totals accept the same level changes
and stay the same. -/
theorem tryApplyDelta_sides {b c next : L2Book} {side : Side}
    {price : FixedPrice} {size : FixedSize} {sequence timestampUs s t : Nat}
    (hsides : c.sides = b.sides)
    (h : b.tryApplyDelta side price size sequence timestampUs = .ok next) :
    ∃ other, c.tryApplyDelta side price size s t = .ok other ∧
      other.sides = next.sides := by
  simp only [sides, Prod.mk.injEq] at hsides
  obtain ⟨⟨hb, hbt⟩, ha, hat⟩ := hsides
  unfold tryApplyDelta at h ⊢
  cases side <;> simp only at h ⊢ <;> split at h <;> cases h
  · rename_i next' hnext
    rw [hb, hbt, hnext]
    exact ⟨_, rfl, by simp [sides, ha, hat]⟩
  · rename_i next' hnext
    rw [ha, hat, hnext]
    exact ⟨_, rfl, by simp [sides, hb, hbt]⟩

end L2Book

end PolyBook
