import Mathlib.Algebra.BigOperators.Group.Finset.Piecewise
import Mathlib.Algebra.Order.BigOperators.Group.Finset
import Mathlib.Algebra.Ring.Nat
import PolyBook.Book
import PolyBook.Library.Overwrite
import PolyBook.Library.TreeMap

/-!
# Books that cannot overflow

A running total is the sum of the stored sizes over all prices.  When the sizes
listed at each price stay within a capacity whose sum over the prices fits `u64`,
no total overflows, so every snapshot and every level change is accepted
(`tryApplySnapshot_within`, `tryApplyDelta_within`).  What a book then holds is a
map from sides and prices to sizes, a level change writes it at one key, and a
snapshot replaces it.
-/

namespace PolyBook

open Overwrite

/-- The size that a level change stores. -/
def FixedSize.stored (size : FixedSize) : Option FixedSize :=
  if size.isZero then none else some size

theorem FixedSize.stored_of_zero {size : FixedSize} (h : size.isZero = true) :
    size.stored = none := if_pos h

theorem FixedSize.stored_of_pos {size : FixedSize} (h : size.isZero = false) :
    size.stored = some size := if_neg (by rw [h]; exact Bool.false_ne_true)

section OneSide

variable {cmp : FixedPrice → FixedPrice → Ordering} [Std.TransCmp cmp]

/-- The raw prices. -/
def rawPrices : Finset Nat := Finset.range (FixedPrice.scale + 1)

theorem mem_rawPrices (price : FixedPrice) : price.raw ∈ rawPrices :=
  Finset.mem_range.mpr (Nat.lt_succ_of_le price.le_scale)

/-- The raw size stored at a raw price. -/
def sizeAt (levels : SideLevels cmp) (raw : Nat) : Nat :=
  if h : raw ≤ 10000 then oldRaw levels ⟨raw, h⟩ else 0

theorem sizeAt_raw (levels : SideLevels cmp) (price : FixedPrice) :
    sizeAt levels price.raw = oldRaw levels price := dif_pos price.le_scale

theorem sizeAt_of_lookup {levels next : SideLevels cmp} {price : FixedPrice}
    {size : Option FixedSize}
    (h : ∀ q : FixedPrice, next[q]? = if q = price then size else levels[q]?) :
    sizeAt next = Function.update (sizeAt levels) price.raw (size.elim 0 FixedSize.raw) := by
  funext raw
  by_cases hraw : raw = price.raw
  · rw [hraw, Function.update_self, sizeAt_raw, oldRaw, h, if_pos rfl]
  · rw [Function.update_of_ne hraw]
    unfold sizeAt
    split
    · rename_i hle
      have hne : (⟨raw, hle⟩ : FixedPrice) ≠ price := fun heq => hraw (congrArg FixedPrice.raw heq)
      rw [oldRaw, h, if_neg hne, oldRaw]
    · rfl

/-- The total of one side is the sum of its sizes, and each of these is within the
capacity of its price. -/
structure SideWithin (cap : Nat → Nat) (side : SideLevels cmp × Nat) : Prop where
  total_eq : side.2 = ∑ raw ∈ rawPrices, sizeAt side.1 raw
  stored : ∀ (price : FixedPrice) (size : FixedSize), side.1[price]? = some size →
    size.isZero = false ∧ size.raw ≤ cap price.raw

theorem SideWithin.empty (cap : Nat → Nat) : SideWithin cap ((∅ : SideLevels cmp), 0) := by
  refine ⟨?_, fun price size h => ?_⟩
  · refine (Finset.sum_eq_zero fun raw _ => ?_).symm
    unfold sizeAt
    split
    · simp [oldRaw]
    · rfl
  · simp at h

variable {cap : Nat → Nat} {side : SideLevels cmp × Nat}

theorem SideWithin.oldRaw_le (h : SideWithin cap side) (price : FixedPrice) :
    oldRaw side.1 price ≤ side.2 := by
  rw [h.total_eq, ← sizeAt_raw]
  exact Finset.single_le_sum (fun _ _ => Nat.zero_le _) (mem_rawPrices price)

theorem SideWithin.sizeAt_le (h : SideWithin cap side) (raw : Nat) :
    sizeAt side.1 raw ≤ cap raw := by
  unfold sizeAt
  split
  · rename_i hraw
    unfold oldRaw
    cases hsize : side.1[(⟨raw, hraw⟩ : FixedPrice)]? with
    | none => exact Nat.zero_le _
    | some size => exact (h.stored _ _ hsize).2
  · exact Nat.zero_le _

theorem SideWithin.total_le (h : SideWithin cap side) : side.2 ≤ ∑ raw ∈ rawPrices, cap raw := by
  rw [h.total_eq]
  exact Finset.sum_le_sum fun raw _ => h.sizeAt_le raw

/-- One level is replaced, and the total with it. -/
theorem SideWithin.replace (h : SideWithin cap side) {price : FixedPrice}
    (size : Option FixedSize) {levels : SideLevels cmp}
    (hlookup : ∀ q : FixedPrice, levels[q]? = if q = price then size else side.1[q]?)
    (hsize : ∀ s, size = some s → s.isZero = false ∧ s.raw ≤ cap price.raw) :
    SideWithin cap (levels, side.2 - oldRaw side.1 price + size.elim 0 FixedSize.raw) := by
  refine ⟨?_, fun q s hq => ?_⟩
  · have hold := h.oldRaw_le price
    have hsum := Finset.sum_update_of_mem (mem_rawPrices price) (sizeAt side.1)
      (size.elim 0 FixedSize.raw)
    have hrest := Finset.sum_eq_add_sum_sdiff_singleton_of_mem (mem_rawPrices price)
      (sizeAt side.1)
    rw [← h.total_eq, sizeAt_raw] at hrest
    rw [sizeAt_of_lookup hlookup, hsum]
    dsimp only
    omega
  · rw [hlookup] at hq
    split at hq
    · rename_i heq
      rw [heq]
      exact hsize s hq
    · exact h.stored q s hq

variable [Std.LawfulEqCmp cmp]

/-- A level that is stored fits the total. -/
theorem SideWithin.insert (h : SideWithin cap side) (hfits : ∑ raw ∈ rawPrices, cap raw ≤ u64Max)
    {price : FixedPrice} {size : FixedSize} (hzero : size.isZero = false)
    (hcap : size.raw ≤ cap price.raw) :
    checkedReplace side.2 (oldRaw side.1 price) size.raw =
        some (side.2 - oldRaw side.1 price + size.raw) ∧
      SideWithin cap (side.1.insert price size, side.2 - oldRaw side.1 price + size.raw) := by
  have hnext : SideWithin cap
      (side.1.insert price size, side.2 - oldRaw side.1 price + size.raw) := by
    refine h.replace (some size) (fun q => TreeMapLookup.getElem?_insert _ _ _ _) ?_
    rintro s ⟨⟩
    exact ⟨hzero, hcap⟩
  refine ⟨if_pos ⟨h.oldRaw_le price, ?_⟩, hnext⟩
  exact Nat.le_trans hnext.total_le hfits

/-- **A level change within the capacity is accepted.** -/
theorem SideWithin.deltaSide (h : SideWithin cap side)
    (hfits : ∑ raw ∈ rawPrices, cap raw ≤ u64Max) {price : FixedPrice} {size : FixedSize}
    (hcap : size.raw ≤ cap price.raw) :
    ∃ next, deltaSide side.1 side.2 price size = some next ∧ SideWithin cap next ∧
      ∀ q : FixedPrice, next.1[q]? = if q = price then size.stored else side.1[q]? := by
  cases hzero : size.isZero with
  | true =>
      have hlookup : ∀ q : FixedPrice, (side.1.erase price)[q]? =
          if q = price then none else side.1[q]? := fun q => TreeMapLookup.getElem?_erase _ _ _
      have hnext := h.replace none hlookup (fun s hs => (nomatch hs))
      refine ⟨_, if_pos hzero, hnext, fun q => ?_⟩
      rw [FixedSize.stored_of_zero hzero]
      exact hlookup q
  | false =>
      obtain ⟨hreplace, hnext⟩ := h.insert hfits hzero hcap
      refine ⟨(side.1.insert price size, _), ?_, hnext, fun q => ?_⟩
      · rw [PolyBook.deltaSide, if_neg (by simp [hzero]), hreplace]
        rfl
      · rw [FixedSize.stored_of_pos hzero]
        exact TreeMapLookup.getElem?_insert _ _ _ _

/-- One level of a snapshot within the capacity. -/
theorem SideWithin.snapshotLevel (h : SideWithin cap side)
    (hfits : ∑ raw ∈ rawPrices, cap raw ≤ u64Max) {level : FixedPrice × FixedSize}
    (hcap : level.2.raw ≤ cap level.1.raw) :
    ∃ next, snapshotLevel side level = some next ∧ SideWithin cap next ∧
      ∀ q : FixedPrice, next.1[q]? =
        if q = level.1 ∧ level.2.isZero = false then some level.2 else side.1[q]? := by
  cases hzero : level.2.isZero with
  | true => exact ⟨side, if_pos hzero, h, fun q => by simp⟩
  | false =>
      obtain ⟨hreplace, hnext⟩ := h.insert hfits hzero hcap
      refine ⟨(side.1.insert level.1 level.2, _), ?_, hnext, fun q => ?_⟩
      · rw [PolyBook.snapshotLevel, if_neg (by simp [hzero]), hreplace]
        rfl
      · simpa using TreeMapLookup.getElem?_insert side.1 level.1 q level.2

/-- A price holds the last size listed for it that is not zero. -/
theorem SideWithin.foldlM_snapshotLevel (h : SideWithin cap side)
    (hfits : ∑ raw ∈ rawPrices, cap raw ≤ u64Max) {levels : List (FixedPrice × FixedSize)}
    (hcap : ∀ l ∈ levels, l.2.raw ≤ cap l.1.raw) :
    ∃ next, levels.foldlM PolyBook.snapshotLevel side = some next ∧ SideWithin cap next ∧
      ∀ q : FixedPrice,
        (next.1[q]? = side.1[q]? ∧ ∀ s, (q, s) ∈ levels → s.isZero = true) ∨
          ∃ s, (q, s) ∈ levels ∧ next.1[q]? = some s := by
  induction levels generalizing side with
  | nil => exact ⟨side, rfl, h, fun q => Or.inl ⟨rfl, fun s hs => (nomatch hs)⟩⟩
  | cons l levels ih =>
      obtain ⟨mid, hmid, hwithin, hlookup⟩ := h.snapshotLevel hfits (hcap l List.mem_cons_self)
      obtain ⟨next, hnext, hnext_within, hlist⟩ :=
        ih hwithin fun l' hl' => hcap l' (List.mem_cons_of_mem _ hl')
      refine ⟨next, ?_, hnext_within, fun q => ?_⟩
      · rw [List.foldlM_cons, hmid]
        exact hnext
      · obtain ⟨hkept, hzero⟩ | ⟨s, hmem, hs⟩ := hlist q
        · rw [hlookup] at hkept
          split at hkept
          · rename_i heq
            exact Or.inr ⟨l.2, by rw [heq.1]; exact List.mem_cons_self, hkept⟩
          · rename_i hne
            refine Or.inl ⟨hkept, fun s hs => ?_⟩
            obtain rfl | hs := List.mem_cons.mp hs
            · simpa using hne
            · exact hzero s hs
        · exact Or.inr ⟨s, List.mem_cons_of_mem _ hmem, hs⟩

/-- **A snapshot within the capacity is accepted.** -/
theorem snapshotSide_within (cmp : FixedPrice → FixedPrice → Ordering) [Std.TransCmp cmp]
    [Std.LawfulEqCmp cmp] (hfits : ∑ raw ∈ rawPrices, cap raw ≤ u64Max)
    {levels : List (FixedPrice × FixedSize)} (hcap : ∀ l ∈ levels, l.2.raw ≤ cap l.1.raw) :
    ∃ next : SideLevels cmp × Nat, snapshotSide levels = some next ∧ SideWithin cap next := by
  have hempty : SideWithin cap ((∅ : SideLevels cmp), 0) := .empty cap
  obtain ⟨next, hnext, hwithin, -⟩ := hempty.foldlM_snapshotLevel hfits hcap
  exact ⟨next, hnext, hwithin⟩

/-- A listing of a side rebuilds it. -/
theorem SideWithin.snapshotSide_toList (h : SideWithin cap side)
    (hfits : ∑ raw ∈ rawPrices, cap raw ≤ u64Max) :
    ∃ next : SideLevels cmp × Nat, snapshotSide side.1.toList = some next ∧
      next.1 = side.1 := by
  have hempty : SideWithin cap ((∅ : SideLevels cmp), 0) := .empty cap
  have hmem : ∀ (q : FixedPrice) (s : FixedSize),
      (q, s) ∈ side.1.toList ↔ side.1[q]? = some s :=
    fun q s => Std.ExtTreeMap.mem_toList_iff_getElem?_eq_some
  obtain ⟨next, hnext, -, hlist⟩ := hempty.foldlM_snapshotLevel hfits
    fun l hl => (h.stored l.1 l.2 ((hmem l.1 l.2).mp hl)).2
  refine ⟨next, hnext, Std.ExtTreeMap.ext_getElem? fun q => ?_⟩
  obtain ⟨hnone, hzero⟩ | ⟨s, hs, hsome⟩ := hlist q
  · cases hside : side.1[q]? with
    | none => simpa using hnone
    | some s =>
        have := hzero s ((hmem q s).mpr hside)
        rw [(h.stored q s hside).1] at this
        cases this
  · rw [hsome, (hmem q s).mp hs]

end OneSide

/-- What both sides of a book hold. -/
abbrev BookContent := Side × FixedPrice → Option FixedSize

/-- The write of a level change. -/
def BookEvent.write (event : BookEvent) : Write (Side × FixedPrice) (Option FixedSize) :=
  .set (event.side, event.price) event.size.stored

/-- What a snapshot of these levels holds. -/
def listedContent (bids asks : List (FixedPrice × FixedSize)) : BookContent
  | (.bid, price) => (snapshotSide bids : Option (BidLevels × Nat)).bind fun side => side.1[price]?
  | (.ask, price) => (snapshotSide asks : Option (AskLevels × Nat)).bind fun side => side.1[price]?

/-- A capacity for every price of both sides, with sums inside `u64`. -/
structure Capacity where
  cap : Side → Nat → Nat
  fits : ∀ side, ∑ raw ∈ rawPrices, cap side raw ≤ u64Max

/-- The same capacity at every price. -/
def Capacity.uniform (size : Nat) (h : (FixedPrice.scale + 1) * size ≤ u64Max) : Capacity where
  cap _ _ := size
  fits _ := by
    rwa [Finset.sum_const, rawPrices, Finset.card_range]

/-- A thousand units at every price. -/
theorem Capacity.thousand_fits : (FixedPrice.scale + 1) * 1000000000 ≤ u64Max := by decide

/-- The listed levels are within the capacity of their side. -/
def Capacity.Admits (c : Capacity) (side : Side) (levels : List (FixedPrice × FixedSize)) : Prop :=
  ∀ l ∈ levels, l.2.raw ≤ c.cap side l.1.raw

namespace L2Book

/-- What the book holds. -/
def content (book : L2Book) : BookContent
  | (.bid, price) => book.bids[price]?
  | (.ask, price) => book.asks[price]?

theorem levels_eq_of_content_eq {b b' : L2Book} (h : b.content = b'.content) :
    b.levels = b'.levels := by
  have hbids : b.bids = b'.bids :=
    Std.ExtTreeMap.ext_getElem? fun price => congrFun h (.bid, price)
  have hasks : b.asks = b'.asks :=
    Std.ExtTreeMap.ext_getElem? fun price => congrFun h (.ask, price)
  rw [levels, levels, hbids, hasks]

theorem content_eq_of_levels_eq {b b' : L2Book} (h : b.levels = b'.levels) :
    b.content = b'.content := by
  simp only [levels, Prod.mk.injEq] at h
  funext key
  obtain ⟨side, price⟩ := key
  cases side with
  | bid => rw [content, content, h.1]
  | ask => rw [content, content, h.2]

/-- The book's totals are exact, and its sizes within the capacity. -/
structure Within (c : Capacity) (book : L2Book) : Prop where
  bids : SideWithin (c.cap .bid) (book.bids, book.totalBidRaw)
  asks : SideWithin (c.cap .ask) (book.asks, book.totalAskRaw)

variable {c : Capacity}

theorem Within.new (c : Capacity) (assetId : AssetId) : Within c (L2Book.new assetId) :=
  ⟨.empty _, .empty _⟩

theorem tryApplySnapshot_within {bids asks : List (FixedPrice × FixedSize)}
    (hbids : c.Admits .bid bids) (hasks : c.Admits .ask asks) (book : L2Book)
    (sequence timestampUs : Nat) :
    ∃ next, book.tryApplySnapshot bids asks sequence timestampUs = .ok next ∧ next.Within c ∧
      next.content = listedContent bids asks := by
  obtain ⟨nextBids, hnextBids, hbids⟩ :=
    snapshotSide_within (fun a b => compare b a) (c.fits .bid) hbids
  obtain ⟨nextAsks, hnextAsks, hasks⟩ :=
    snapshotSide_within compare (c.fits .ask) hasks
  refine ⟨_, tryApplySnapshot_eq_ok_iff.mpr ⟨nextBids, nextAsks, hnextBids, hnextAsks, rfl⟩,
    ⟨hbids, hasks⟩, funext fun k => ?_⟩
  obtain ⟨side, price⟩ := k
  cases side with
  | bid => simp only [content, listedContent, hnextBids, Option.bind_some]
  | ask => simp only [content, listedContent, hnextAsks, Option.bind_some]

theorem Within.tryApplyDelta_within {book : L2Book} (h : book.Within c) {event : BookEvent}
    (hcap : event.size.raw ≤ c.cap event.side event.price.raw) (sequence timestampUs : Nat) :
    ∃ next, book.tryApplyDelta event.side event.price event.size sequence timestampUs = .ok next ∧
      next.Within c ∧ next.content = event.write.run book.content := by
  cases hside : event.side with
  | bid =>
      rw [hside] at hcap
      obtain ⟨next, hnext, hwithin, hlookup⟩ := h.bids.deltaSide (c.fits .bid) hcap
      dsimp only at hnext
      refine ⟨{ book with
          bids := next.1, totalBidRaw := next.2
          sequence := sequence, seqInitialized := true, lastUpdateUs := timestampUs },
        by simp only [tryApplyDelta, hnext], ⟨hwithin, h.asks⟩, funext fun k => ?_⟩
      obtain ⟨side, price⟩ := k
      cases side with
      | bid =>
          simp [content, BookEvent.write, Write.run, hside, Function.update_apply, hlookup price]
      | ask => simp [content, BookEvent.write, Write.run, hside]
  | ask =>
      rw [hside] at hcap
      obtain ⟨next, hnext, hwithin, hlookup⟩ := h.asks.deltaSide (c.fits .ask) hcap
      dsimp only at hnext
      refine ⟨{ book with
          asks := next.1, totalAskRaw := next.2
          sequence := sequence, seqInitialized := true, lastUpdateUs := timestampUs },
        by simp only [tryApplyDelta, hnext], ⟨h.bids, hwithin⟩, funext fun k => ?_⟩
      obtain ⟨side, price⟩ := k
      cases side with
      | bid => simp [content, BookEvent.write, Write.run, hside]
      | ask =>
          simp [content, BookEvent.write, Write.run, hside, Function.update_apply, hlookup price]

/-- A listing of the book is within the capacity, and holds what the book holds. -/
theorem Within.listed {book : L2Book} (h : book.Within c) :
    c.Admits .bid book.bids.toList ∧ c.Admits .ask book.asks.toList ∧
      listedContent book.bids.toList book.asks.toList = book.content := by
  refine ⟨fun l hl => ?_, fun l hl => ?_, funext fun k => ?_⟩
  · exact (h.bids.stored l.1 l.2 (Std.ExtTreeMap.mem_toList_iff_getElem?_eq_some.mp hl)).2
  · exact (h.asks.stored l.1 l.2 (Std.ExtTreeMap.mem_toList_iff_getElem?_eq_some.mp hl)).2
  · obtain ⟨nextBids, hnextBids, hbids⟩ := h.bids.snapshotSide_toList (c.fits .bid)
    obtain ⟨nextAsks, hnextAsks, hasks⟩ := h.asks.snapshotSide_toList (c.fits .ask)
    obtain ⟨side, price⟩ := k
    cases side with
    | bid => simp only [content, listedContent, hnextBids, Option.bind_some, hbids]
    | ask => simp only [content, listedContent, hnextAsks, Option.bind_some, hasks]

end L2Book

end PolyBook
