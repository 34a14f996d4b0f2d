import PolyBook.ShadowLog

/-!
# The cross-check of a `price_change` message

The venue's best prices on an entry describe the book after the whole message, so
the dispatcher compares them once per asset, at the entry that stands last for the
asset.  That entry is found before any entry is looked at, and the loop then skips
entries it cannot parse.

`applied` lists what the loop does for one asset: the entries it applies, the books
they leave and whether it compares.  `checked_once_iff` shows that the comparison
takes place exactly when the entry that stands last is not skipped.
-/

namespace PolyBook

/-- The entry has a side, a price and a size. -/
def PriceChangeEntry.parses (entry : PriceChangeEntry) : Bool :=
  (parseSide entry.side).isSome && (FixedPrice.tryFrom entry.price).isOk &&
    (FixedSize.tryFrom entry.size).isOk

theorem PriceChangeEntry.exists_of_parses {entry : PriceChangeEntry} (h : entry.parses = true) :
    ∃ side price size, parseSide entry.side = some side ∧
      FixedPrice.tryFrom entry.price = .ok price ∧ FixedSize.tryFrom entry.size = .ok size := by
  unfold PriceChangeEntry.parses at h
  cases hside : parseSide entry.side with
  | none => simp [hside] at h
  | some side =>
      cases hprice : FixedPrice.tryFrom entry.price with
      | error err => simp [hprice, Except.isOk, Except.toBool] at h
      | ok price =>
          cases hsize : FixedSize.tryFrom entry.size with
          | error err => simp [hsize, Except.isOk, Except.toBool] at h
          | ok size => exact ⟨side, price, size, rfl, rfl, rfl⟩

/-- One of the two best prices disagrees with the entry's. -/
def PriceChangeEntry.disagrees (entry : PriceChangeEntry) (book : L2Book) : Bool :=
  topPriceMismatch .bid (book.bestBid.map Prod.fst) entry.bestBid ||
    topPriceMismatch .ask (book.bestAsk.map Prod.fst) entry.bestAsk

theorem detectBookMismatch_isSome (book : L2Book) (entry : PriceChangeEntry) :
    (detectBookMismatch book entry.bestBid entry.bestAsk).isSome = entry.disagrees book := by
  unfold detectBookMismatch PriceChangeEntry.disagrees
  dsimp only
  generalize topPriceMismatch .bid (book.bestBid.map Prod.fst) entry.bestBid = bid
  generalize topPriceMismatch .ask (book.bestAsk.map Prod.fst) entry.bestAsk = ask
  cases bid <;> cases ask <;> rfl

namespace Dispatcher

/-- An entry that was applied, the book it leaves and whether the best prices are
compared there. -/
structure Applied where
  entry : PriceChangeEntry
  book : L2Book
  checked : Bool

/-- What `dispatchChange` applies. -/
def appliedChange (d : Dispatcher) (exchangeTs : Nat) (entry : PriceChangeEntry)
    (isLast : Bool) (side : Side) (price : FixedPrice) (size : FixedSize) : Option Applied :=
  let numbered := d.nextSequenceFor entry.assetId
  match numbered.1.validationBooks[entry.assetId]? with
  | none => none
  | some book =>
      match book.tryApplyDelta side price size numbered.2 exchangeTs with
      | .error _ => none
      | .ok book => some ⟨entry, book, isLast⟩

/-- The entries that `dispatchChanges` applies. -/
def appliedChanges (d : Dispatcher) (recv exchangeTs : Nat) :
    List PriceChangeEntry → List Applied
  | [] => []
  | entry :: later =>
      match parseSide entry.side, FixedPrice.tryFrom entry.price, FixedSize.tryFrom entry.size with
      | some side, .ok price, .ok size =>
          (d.appliedChange exchangeTs entry (isLastForAsset later entry) side price size).toList ++
            (d.dispatchChange recv exchangeTs entry (isLastForAsset later entry) side price
              size).1.appliedChanges recv exchangeTs later
      | _, _, _ => d.appliedChanges recv exchangeTs later

/-- The applied entries of one asset. -/
def appliedTo (d : Dispatcher) (recv exchangeTs : Nat) (a : AssetId)
    (entries : List PriceChangeEntry) : List Applied :=
  (d.appliedChanges recv exchangeTs entries).filter fun x => x.entry.assetId = a

/-- The `BookMismatch` events of an asset. -/
def mismatchesOf (a : AssetId) (records : List PersistedRecord) : List IngestEvent :=
  records.filterMap fun
    | .ingest event =>
        if event.kind = .bookMismatch ∧ event.assetId = some a then some event else none
    | _ => none

variable {a : AssetId}

section Entry

variable (d : Dispatcher) (recv exchangeTs : Nat) (entry : PriceChangeEntry) (isLast : Bool)
  (side : Side) (price : FixedPrice) (size : FixedSize)

/-- An entry of another asset. -/
theorem dispatchChange_foreign (h : entry.assetId ≠ a) :
    (d.dispatchChange recv exchangeTs entry isLast side price size).1.validationBooks[a]? =
        d.validationBooks[a]? ∧
      mismatchesOf a (d.dispatchChange recv exchangeTs entry isLast side price size).2 = [] := by
  have hne : ¬ a = entry.assetId := fun heq => h heq.symm
  unfold dispatchChange
  dsimp only
  split
  · exact ⟨by rw [nextSequenceFor_validationBooks], rfl⟩
  · split
    · refine ⟨?_, by simp [mismatchesOf, assetRecord]⟩
      rw [TreeMapLookup.getElem?_erase, if_neg hne, nextSequenceFor_validationBooks]
    · refine ⟨?_, ?_⟩
      · rw [TreeMapLookup.getElem?_insert, if_neg hne, nextSequenceFor_validationBooks]
      · unfold mismatchesOf
        rw [List.filterMap_eq_nil_iff]
        intro record hrecord
        rcases List.mem_cons.mp hrecord with rfl | hrecord
        · rfl
        · obtain ⟨details, -, rfl⟩ := List.mem_map.mp hrecord
          simp [assetRecord, h]

/-- An entry of the asset is applied, or the shadow book goes. -/
theorem dispatchChange_own {book : L2Book} (hbook : d.validationBooks[entry.assetId]? = some book) :
    (∃ next, d.appliedChange exchangeTs entry isLast side price size = some ⟨entry, next, isLast⟩ ∧
      (d.dispatchChange recv exchangeTs entry isLast side price size).1.validationBooks[
        entry.assetId]? = some next ∧
      (mismatchesOf entry.assetId
        (d.dispatchChange recv exchangeTs entry isLast side price size).2).length =
          if isLast && entry.disagrees next then 1 else 0) ∨
    (d.dispatchChange recv exchangeTs entry isLast side price size).1.validationBooks[
      entry.assetId]? = none := by
  unfold dispatchChange appliedChange
  dsimp only
  rw [nextSequenceFor_validationBooks, hbook]
  dsimp only
  cases book.tryApplyDelta side price size (d.nextSequenceFor entry.assetId).2 exchangeTs with
  | error err =>
      right
      dsimp only
      rw [TreeMapLookup.getElem?_erase, if_pos rfl]
  | ok next =>
      left
      refine ⟨next, rfl, ?_, ?_⟩
      · dsimp only
        rw [TreeMapLookup.getElem?_insert, if_pos rfl]
      · have hdetect := detectBookMismatch_isSome next entry
        cases isLast with
        | false => rfl
        | true =>
            simp only [if_true, Bool.true_and, ← hdetect]
            cases detectBookMismatch next entry.bestBid entry.bestAsk with
            | none => rfl
            | some details => simp [mismatchesOf, assetRecord]

end Entry

/-- The applied entry is the one given. -/
theorem entry_of_appliedChange {d : Dispatcher} {exchangeTs : Nat} {entry : PriceChangeEntry}
    {isLast : Bool} {side : Side} {price : FixedPrice} {size : FixedSize} {x : Applied}
    (h : d.appliedChange exchangeTs entry isLast side price size = some x) : x.entry = entry := by
  unfold appliedChange at h
  dsimp only at h
  split at h
  · cases h
  · split at h
    · cases h
    · cases h
      rfl

theorem dispatchChanges_skipped {later : List PriceChangeEntry} {d : Dispatcher}
    {recv exchangeTs : Nat} {entry : PriceChangeEntry} (h : entry.parses = false) :
    d.dispatchChanges recv exchangeTs (entry :: later) =
      d.dispatchChanges recv exchangeTs later := by
  rw [dispatchChanges]
  split
  · rename_i hside hprice hsize
    simp [PriceChangeEntry.parses, hside, hprice, hsize, Except.isOk, Except.toBool] at h
  · rfl

theorem appliedChanges_skipped {later : List PriceChangeEntry} {d : Dispatcher}
    {recv exchangeTs : Nat} {entry : PriceChangeEntry} (h : entry.parses = false) :
    d.appliedChanges recv exchangeTs (entry :: later) = d.appliedChanges recv exchangeTs later := by
  rw [appliedChanges]
  split
  · rename_i hside hprice hsize
    simp [PriceChangeEntry.parses, hside, hprice, hsize, Except.isOk, Except.toBool] at h
  · rfl

theorem mismatchesOf_append (xs ys : List PersistedRecord) :
    mismatchesOf a (xs ++ ys) = mismatchesOf a xs ++ mismatchesOf a ys :=
  List.filterMap_append

section Message

variable {d : Dispatcher} {recv exchangeTs : Nat} {entries : List PriceChangeEntry}
  {book after : L2Book}

/-- The entries of an asset, in order. -/
def entriesOf (a : AssetId) (entries : List PriceChangeEntry) : List PriceChangeEntry :=
  entries.filter fun entry => entry.assetId = a

theorem isLastForAsset_iff (later : List PriceChangeEntry) (entry : PriceChangeEntry) :
    isLastForAsset later entry = true ↔ entriesOf entry.assetId later = [] := by
  simp [isLastForAsset, entriesOf, List.filter_eq_nil_iff]

/-- What the loop does for one asset whose shadow book stays. -/
structure Covered (a : AssetId) (entries : List PriceChangeEntry) (book after : L2Book)
    (applied : List Applied) (mismatches : Nat) : Prop where
  entries_eq : applied.map Applied.entry = (entriesOf a entries).filter PriceChangeEntry.parses
  after_eq : after = (applied.getLast?.map Applied.book).getD book
  checked_eq : applied.filter Applied.checked =
    if (entriesOf a entries).getLast?.all PriceChangeEntry.parses then applied.getLast?.toList
    else []
  mismatches_eq : mismatches =
    ((applied.filter Applied.checked).filter fun x => x.entry.disagrees x.book).length

namespace Covered

variable {entry : PriceChangeEntry} {later : List PriceChangeEntry} {applied : List Applied}
  {mismatches : Nat}

theorem nil (a : AssetId) (book : L2Book) : Covered a [] book book [] 0 := ⟨rfl, rfl, rfl, rfl⟩

/-- An entry of another asset. -/
theorem foreign (h : Covered a later book after applied mismatches) (hasset : entry.assetId ≠ a) :
    Covered a (entry :: later) book after applied mismatches := by
  have hsame : entriesOf a (entry :: later) = entriesOf a later := by
    simp [entriesOf, hasset]
  refine ⟨?_, h.after_eq, ?_, h.mismatches_eq⟩
  · rw [hsame]
    exact h.entries_eq
  · rw [hsame]
    exact h.checked_eq

/-- A skipped entry of the asset. -/
theorem skipped (h : Covered a later book after applied mismatches) (hasset : entry.assetId = a)
    (hparses : entry.parses = false) :
    Covered a (entry :: later) book after applied mismatches := by
  have hcons : entriesOf a (entry :: later) = entry :: entriesOf a later := by
    simp [entriesOf, hasset]
  refine ⟨?_, h.after_eq, ?_, h.mismatches_eq⟩
  · rw [hcons, List.filter_cons, if_neg (by simp [hparses])]
    exact h.entries_eq
  · rw [hcons, h.checked_eq]
    cases hlater : entriesOf a later with
    | nil =>
        -- nothing of the asset follows, and nothing was applied
        have hnone : applied = [] := by
          have hentries := h.entries_eq
          rw [hlater] at hentries
          exact List.map_eq_nil_iff.mp hentries
        rw [hnone]
        simp [hparses]
    | cons other others =>
        rw [List.getLast?_cons_cons]

/-- An applied entry of the asset. -/
theorem cons {next : L2Book} (h : Covered a later next after applied mismatches)
    (hasset : entry.assetId = a) (hparses : entry.parses = true) :
    Covered a (entry :: later) book after
      (⟨entry, next, isLastForAsset later entry⟩ :: applied)
      ((if isLastForAsset later entry && entry.disagrees next then 1 else 0) + mismatches) := by
  have hcons : entriesOf a (entry :: later) = entry :: entriesOf a later := by
    simp [entriesOf, hasset]
  refine ⟨?_, ?_, ?_, ?_⟩
  · rw [hcons, List.filter_cons, if_pos hparses, List.map_cons, h.entries_eq]
  · rw [h.after_eq]
    cases happlied : applied with
    | nil => rfl
    | cons x xs =>
        rw [List.getLast?_cons_cons]
        cases hlast : (x :: xs).getLast? with
        | none => simp at hlast
        | some last => rfl
  · rw [hcons]
    by_cases hlast : isLastForAsset later entry = true
    · have hlater := (isLastForAsset_iff later entry).mp hlast
      rw [hasset] at hlater
      have hnone : applied = [] := by
        have hentries := h.entries_eq
        rw [hlater] at hentries
        exact List.map_eq_nil_iff.mp hentries
      rw [hlater, hnone, hlast]
      simp [hparses]
    · have hlater : entriesOf a later ≠ [] := by
        rw [← hasset]
        exact fun hnil => hlast ((isLastForAsset_iff later entry).mpr hnil)
      rw [List.filter_cons, if_neg (by simpa using hlast), h.checked_eq]
      obtain ⟨other, others, hothers⟩ := List.exists_cons_of_ne_nil hlater
      rw [hothers, List.getLast?_cons_cons]
      split
      · rename_i hall
        -- the entry that stands last was applied too
        have hne : applied ≠ [] := by
          intro hnil
          have hentries := h.entries_eq
          rw [hnil, hothers] at hentries
          have hmem := List.mem_of_getLast?
            (List.getLast?_eq_some_getLast (List.cons_ne_nil other others))
          rw [List.getLast?_eq_some_getLast (List.cons_ne_nil other others)] at hall
          have hkept := List.mem_filter.mpr ⟨hmem, by simpa using hall⟩
          rw [← hentries] at hkept
          cases hkept
        obtain ⟨x, xs, hxs⟩ := List.exists_cons_of_ne_nil hne
        rw [hxs, List.getLast?_cons_cons]
      · rfl
  · rw [List.filter_cons, h.mismatches_eq]
    cases isLastForAsset later entry with
    | false => simp
    | true =>
        rw [if_pos rfl, List.filter_cons]
        cases entry.disagrees next with
        | false => simp
        | true => simp [Nat.add_comm]

end Covered

/-- **The loop, for one asset.** -/
theorem covered_dispatchChanges (hbook : d.validationBooks[a]? = some book)
    (hafter : (d.dispatchChanges recv exchangeTs entries).1.validationBooks[a]? = some after) :
    Covered a entries book after (d.appliedTo recv exchangeTs a entries)
      (mismatchesOf a (d.dispatchChanges recv exchangeTs entries).2).length := by
  induction entries generalizing d book with
  | nil =>
      obtain rfl : book = after := Option.some.inj (hbook.symm.trans hafter)
      exact Covered.nil a book
  | cons entry later ih =>
      cases hparses : entry.parses with
      | false =>
          rw [dispatchChanges_skipped hparses] at hafter ⊢
          rw [appliedTo, appliedChanges_skipped hparses]
          by_cases hasset : entry.assetId = a
          · exact (ih hbook hafter).skipped hasset hparses
          · exact (ih hbook hafter).foreign hasset
      | true =>
          obtain ⟨side, price, size, hside, hprice, hsize⟩ := entry.exists_of_parses hparses
          rw [appliedTo, appliedChanges]
          rw [dispatchChanges] at hafter ⊢
          simp only [hside, hprice, hsize] at hafter ⊢
          rw [List.filter_append, mismatchesOf_append, List.length_append]
          by_cases hasset : entry.assetId = a
          · subst hasset
            rcases dispatchChange_own d recv exchangeTs entry (isLastForAsset later entry) side
              price size hbook with ⟨next, happlied, hnext, hmismatch⟩ | hnone
            · have hkept : ([⟨entry, next, isLastForAsset later entry⟩] : List Applied).filter
                  (fun x => x.entry.assetId = entry.assetId) =
                    [⟨entry, next, isLastForAsset later entry⟩] := by simp
              rw [happlied, hmismatch, Option.toList_some, hkept]
              exact (ih hnext hafter).cons rfl hparses
            · rw [shadow_none_dispatchChanges recv exchangeTs later hnone] at hafter
              cases hafter
          · obtain ⟨hsame, hmismatch⟩ := dispatchChange_foreign d recv exchangeTs entry
              (isLastForAsset later entry) side price size hasset
            have hdropped : (d.appliedChange exchangeTs entry (isLastForAsset later entry) side
                price size).toList.filter (fun x => x.entry.assetId = a) = [] := by
              rw [List.filter_eq_nil_iff]
              intro x hx
              rw [entry_of_appliedChange (Option.mem_toList.mp hx)]
              simpa using hasset
            rw [hmismatch, hdropped, List.nil_append, List.length_nil, Nat.zero_add]
            exact (ih (hsame.trans hbook) hafter).foreign hasset

end Message

/-- The entries of an asset that a `price_change` message applies. -/
def appliedIn (d : Dispatcher) (recv : Nat) (message : PriceChangeMessage) (a : AssetId) :
    List Applied :=
  if message.priceChanges.length > maxPriceChangesPerMessage then []
  else d.appliedTo recv (parseTimestampUs message.timestamp) a message.priceChanges

/-- The best prices are compared once, after the last applied entry and against its
values, and a disagreement is reported. -/
def CheckedOnce (d : Dispatcher) (recv : Nat) (message : PriceChangeMessage) (a : AssetId) :
    Prop :=
  ∃ last, (d.appliedIn recv message a).getLast? = some last ∧
    (d.appliedIn recv message a).filter Applied.checked = [last] ∧
    (d.dispatch (.raw ⟨some (.priceChange message), recv⟩)).1.validationBooks[a]? =
      some last.book ∧
    (mismatchesOf a (d.dispatch (.raw ⟨some (.priceChange message), recv⟩)).2).length =
      if last.entry.disagrees last.book then 1 else 0

/-- **The cross-check runs once exactly when the asset's last entry is not skipped.** -/
theorem checked_once_iff (d : Dispatcher) (recv : Nat) (message : PriceChangeMessage) (a : AssetId)
    (hbefore : (d.validationBooks[a]?).isSome = true)
    (hafter : ((d.dispatch (.raw ⟨some (.priceChange message), recv⟩)).1.validationBooks[
      a]?).isSome = true)
    (happlied : d.appliedIn recv message a ≠ []) :
    CheckedOnce d recv message a ↔ ∀ entry,
      (entriesOf a message.priceChanges).getLast? = some entry → entry.parses = true := by
  unfold CheckedOnce
  rw [appliedIn] at happlied ⊢
  simp only [dispatch, dispatchRaw, dispatchPriceChange] at hafter ⊢
  by_cases hcap : message.priceChanges.length > maxPriceChangesPerMessage
  · rw [if_pos hcap] at happlied
    exact absurd rfl happlied
  · rw [if_neg hcap] at happlied hafter ⊢
    rw [if_neg hcap]
    obtain ⟨book, hbook⟩ := Option.isSome_iff_exists.mp hbefore
    obtain ⟨after, hafter⟩ := Option.isSome_iff_exists.mp hafter
    have hcovered := covered_dispatchChanges hbook hafter
    obtain ⟨last, hlast⟩ := Option.isSome_iff_exists.mp (List.getLast?_isSome.mpr happlied)
    have hall : (entriesOf a message.priceChanges).getLast?.all PriceChangeEntry.parses = true ↔
        ∀ entry, (entriesOf a message.priceChanges).getLast? = some entry →
          entry.parses = true := by
      cases (entriesOf a message.priceChanges).getLast? <;> simp
    rw [← hall]
    have hchecked := hcovered.checked_eq
    constructor
    · rintro ⟨last', -, honce, -⟩
      by_contra hskipped
      rw [if_neg hskipped, honce] at hchecked
      cases hchecked
    · intro hparses
      rw [if_pos hparses, hlast] at hchecked
      refine ⟨last, hlast, hchecked, ?_, ?_⟩
      · rw [hafter, hcovered.after_eq, hlast]
        rfl
      · rw [hcovered.mismatches_eq, hchecked, Option.toList_some, List.filter_singleton]
        cases last.entry.disagrees last.book <;> rfl

namespace SkippedLast

/-- The shadow book holds one bid, at 0.50. -/
def dispatcher : Dispatcher := (new.run [.raw ⟨some (.book {
  assetId := "yes"
  timestamp := some "1750000000000"
  bids := [⟨"0.50", "10"⟩]
  asks := []
  hash := none }), 1750000000100000⟩]).1

/-- A usable entry and one with some price; both state 0.60 as the best bid. -/
def message (price : String) : PriceChangeMessage where
  priceChanges :=
    [⟨"yes", "0.51", "5", "BUY", none, some "0.60", none⟩,
      ⟨"yes", price, "7", "BUY", none, some "0.60", none⟩]
  timestamp := some "1750000001000"

end SkippedLast

open SkippedLast in
theorem checked_once_iff_parsed :
    CheckedOnce SkippedLast.dispatcher 1750000001100000 (SkippedLast.message "0.52") "yes" :=
  (checked_once_iff SkippedLast.dispatcher 1750000001100000 (SkippedLast.message "0.52") "yes"
    (by decide +kernel) (by decide +kernel) (by decide +kernel)).mpr (by
      rintro entry ⟨⟩
      decide)

open SkippedLast in
/-- The entry that stands last has no price, and nothing is compared. -/
theorem skipped_last_entry_unchecked :
    ¬ ∀ (d : Dispatcher) (recv : Nat) (message : PriceChangeMessage) (a : AssetId),
      (d.validationBooks[a]?).isSome = true →
      ((d.dispatch (.raw ⟨some (.priceChange message), recv⟩)).1.validationBooks[
        a]?).isSome = true →
      d.appliedIn recv message a ≠ [] → CheckedOnce d recv message a := by
  intro hall
  obtain ⟨last, -, honce, -⟩ := hall SkippedLast.dispatcher 1750000001100000
    (SkippedLast.message "half") "yes" (by decide +kernel) (by decide +kernel) (by decide +kernel)
  have hnone : ((SkippedLast.dispatcher.appliedIn 1750000001100000 (SkippedLast.message "half")
      "yes").filter Applied.checked).length = 0 := by decide +kernel
  rw [honce] at hnone
  cases hnone

end Dispatcher

end PolyBook
