import PolyBook.ServedLevels

/-!
# Assets that have become alike

Two live states that take the same checkpoints and the same records need not hold the
same book of an asset.  They do once a checkpoint or a whole group has replaced it, and
from then on nothing tells the two apart.
-/

namespace PolyBook

namespace AssetState

/-- A group the book takes leaves nothing of the book before. -/
theorem materialize_sides (s t : AssetState) {p : PendingSnapshot}
    (h : fitsTotals p.bids p.asks = true) :
    (s.materialize p).1.book.sides = (t.materialize p).1.book.sides := by
  rw [← s.book.isOk_tryApplySnapshot p.bids p.asks p.sequence p.lastRecvTimestampUs] at h
  cases hs : s.book.tryApplySnapshot p.bids p.asks p.sequence p.lastRecvTimestampUs with
  | error e => simp [hs, Except.isOk, Except.toBool] at h
  | ok next =>
      obtain ⟨other, ht, hsides⟩ := L2Book.tryApplySnapshot_sides (c := t.book)
        (s := p.sequence) (t := p.lastRecvTimestampUs) hs
      rw [materialize_book_of_ok hs, materialize_book_of_ok ht, hsides]

/-- A checkpoint the book takes becomes the book. -/
theorem applyCheckpoint_book_of_ok {s : AssetState} {c : BookCheckpoint} {book : L2Book}
    (h : s.book.tryApplySnapshot (c.bids.map fun l => (l.price, l.size))
      (c.asks.map fun l => (l.price, l.size)) 0 c.checkpointTimestampUs = .ok book) :
    (s.applyCheckpoint c).book = book := by
  simp [applyCheckpoint, h]

/-- A checkpoint the book takes leaves nothing of the book before. -/
theorem applyCheckpoint_sides (s t : AssetState) {c : BookCheckpoint} (h : c.fits = true) :
    (s.applyCheckpoint c).book.sides = (t.applyCheckpoint c).book.sides := by
  rw [BookCheckpoint.fits, ← s.book.isOk_tryApplySnapshot (c.bids.map fun l => (l.price, l.size))
    (c.asks.map fun l => (l.price, l.size)) 0 c.checkpointTimestampUs] at h
  cases hs : s.book.tryApplySnapshot (c.bids.map fun l => (l.price, l.size))
      (c.asks.map fun l => (l.price, l.size)) 0 c.checkpointTimestampUs with
  | error e => simp [hs, Except.isOk, Except.toBool] at h
  | ok next =>
      obtain ⟨other, ht, hsides⟩ := L2Book.tryApplySnapshot_sides (c := t.book)
        (s := 0) (t := c.checkpointTimestampUs) hs
      rw [applyCheckpoint_book_of_ok hs, applyCheckpoint_book_of_ok ht, hsides]

/-- Books with the same levels and totals take the same level changes. -/
theorem recordDeltaEvent_sides {s t : AssetState} (h : s.book.sides = t.book.sides)
    (event : BookEvent) :
    (s.recordDeltaEvent event).book.sides = (t.recordDeltaEvent event).book.sides := by
  cases hs : s.book.tryApplyDelta event.side event.price event.size
      (event.provenance.sequence.getD 0) event.provenance.recvTimestampUs with
  | ok next =>
      obtain ⟨other, ht, hsides⟩ := L2Book.tryApplyDelta_sides
        (s := event.provenance.sequence.getD 0) (t := event.provenance.recvTimestampUs) h.symm hs
      rw [recordDeltaEvent_book_of_ok hs, recordDeltaEvent_book_of_ok ht, hsides]
  | error e =>
      cases ht : t.book.tryApplyDelta event.side event.price event.size
          (event.provenance.sequence.getD 0) event.provenance.recvTimestampUs with
      | ok next =>
          obtain ⟨other, hs', -⟩ := L2Book.tryApplyDelta_sides
            (s := event.provenance.sequence.getD 0) (t := event.provenance.recvTimestampUs) h ht
          rw [hs] at hs'
          cases hs'
      | error e' => simpa [recordDeltaEvent, hs, ht] using h

end AssetState

namespace AssetView

variable {a : AssetId} {v w : AssetView}

/-- Readers cannot tell the two apart, and neither will later: the same group is
pending, and a book is there in both or in neither, the same one. -/
structure Alike (a : AssetId) (v w : AssetView) : Prop where
  pending : v.pending = w.pending
  initialized : (v.stateD a).initializedFromSnapshot = (w.stateD a).initializedFromSnapshot
  sides : (v.stateD a).initializedFromSnapshot = true →
    (v.stateD a).book.sides = (w.stateD a).book.sides

/-- A group the book takes makes two assets alike. -/
theorem alike_flush_of_fits {p : PendingSnapshot} (hv : v.pending = some p)
    (hw : w.pending = some p) (hfits : fitsTotals p.bids p.asks = true) :
    Alike a (v.flush a) (w.flush a) := by
  have hv' : v.flush a = ⟨some ((v.stateD a).materialize p).1, none⟩ := by rw [flush, hv]
  have hw' : w.flush a = ⟨some ((w.stateD a).materialize p).1, none⟩ := by rw [flush, hw]
  rw [hv', hw']
  refine ⟨rfl, ?_, fun _ => AssetState.materialize_sides _ _ hfits⟩
  simp only [stateD, Option.getD_some, AssetState.materialize_initialized, hfits, Bool.or_true]

/-- Materializing keeps assets alike. -/
theorem Alike.flush (h : Alike a v w) : Alike a (v.flush a) (w.flush a) := by
  cases hp : v.pending with
  | none =>
      rw [flush_of_pending_none a hp, flush_of_pending_none a (h.pending ▸ hp)]
      exact h
  | some p =>
      have hw : w.pending = some p := h.pending ▸ hp
      by_cases hfits : fitsTotals p.bids p.asks = true
      · exact alike_flush_of_fits hp hw hfits
      · rw [Bool.not_eq_true] at hfits
        obtain ⟨hinit, hbook⟩ := flush_of_refused a v fun q hq => by
          rw [hp] at hq
          cases hq
          exact hfits
        obtain ⟨hinit', hbook'⟩ := flush_of_refused a w fun q hq => by
          rw [hw] at hq
          cases hq
          exact hfits
        refine ⟨by rw [flush_pending, flush_pending], by rw [hinit, hinit', h.initialized], ?_⟩
        rw [hinit, hbook, hbook']
        exact h.sides

/-- What happens before a record keeps assets alike. -/
theorem Alike.before (h : Alike a v w) (record : PersistedRecord) :
    Alike a (v.before a record) (w.before a record) := by
  unfold AssetView.before
  rw [← h.pending]
  split
  · exact h.flush
  · exact h

/-- The same new state of two assets that are alike. -/
theorem Alike.setState (h : Alike a v w) {s t : AssetState}
    (hinit : s.initializedFromSnapshot = t.initializedFromSnapshot)
    (hsides : s.initializedFromSnapshot = true → s.book.sides = t.book.sides) :
    Alike a (v.setState s) (w.setState t) :=
  ⟨h.pending, hinit, hsides⟩

/-- A record keeps assets alike. -/
theorem Alike.own (h : Alike a v w) (record : PersistedRecord) :
    Alike a (v.own a record) (w.own a record) := by
  cases record with
  | book event =>
      unfold AssetView.own
      dsimp only
      split
      · split
        · refine ⟨?_, h.initialized, h.sides⟩
          simp only [recordSnapshotEvent, h.pending]
        · refine h.setState ?_ fun hinit => ?_
          · rw [AssetState.recordDeltaEvent_initialized, AssetState.recordDeltaEvent_initialized,
              h.initialized]
          · rw [AssetState.recordDeltaEvent_initialized] at hinit
            exact AssetState.recordDeltaEvent_sides (h.sides hinit) event
      · exact h
  | ingest event =>
      unfold AssetView.own
      dsimp only
      split
      · exact h.setState h.initialized h.sides
      · exact h
  | checkpoint c =>
      unfold AssetView.own
      dsimp only
      rw [← h.initialized]
      split
      · rename_i hown
        refine h.setState ?_ fun hinit => ?_
        · rw [AssetState.applyCheckpoint_initialized, AssetState.applyCheckpoint_initialized,
            h.initialized]
        · rw [AssetState.applyCheckpoint_initialized, hown.2, Bool.false_or] at hinit
          exact AssetState.applyCheckpoint_sides _ _ hinit
      · exact h
  | trade event => exact h
  | validation event => exact h

/-- **Assets that are alike stay alike.** -/
theorem Alike.applyAll (h : Alike a v w) (records : List PersistedRecord) :
    Alike a (v.applyAll a records) (w.applyAll a records) := by
  induction records generalizing v w with
  | nil => exact h
  | cons record records ih => exact ih ((h.before record).own record)

/-- Alike to the same asset. -/
theorem Alike.trans {u : AssetView} (h : Alike a u v) (h' : Alike a v w) : Alike a u w :=
  ⟨h.pending.trans h'.pending, h.initialized.trans h'.initialized,
    fun hinit => (h.sides hinit).trans (h'.sides (h.initialized ▸ hinit))⟩

/-! ## The buffered group -/

/-- Records that begin by closing the buffered group. -/
theorem applyAll_flush {record : PersistedRecord} (h : v.before a record = v.flush a)
    (records : List PersistedRecord) :
    v.applyAll a (record :: records) = (v.flush a).applyAll a (record :: records) := by
  rw [applyAll_cons, applyAll_cons, apply, apply, h,
    before_of_pending_none a (flush_pending a v)]

/-- A stream that has been cut into its groups. -/
structure IsGroups (a : AssetId) (gs : List (List PersistedRecord)) : Prop where
  nonempty : [] ∉ gs
  chain : ∀ g ∈ gs, g.IsChain fun x y => sameGroup a x y
  links : gs.IsChain fun g g' => ∃ hg hg', sameGroup a (g.getLast hg) (g'.head hg') = false

/-- The groups of a stream are groups, and make it up. -/
theorem isGroups_groups (a : AssetId) (records : List PersistedRecord) :
    IsGroups a (groups a records) ∧ (groups a records).flatten = records := by
  obtain ⟨hflatten, hnil, hchain, hlinks⟩ :=
    (List.splitBy_eq_iff (l := groups a records)).mp rfl
  exact ⟨⟨hnil, hchain, hlinks⟩, hflatten.symm⟩

/-- Without the first group, the others are still groups. -/
theorem IsGroups.tail {g : List PersistedRecord} {gs : List (List PersistedRecord)}
    (h : IsGroups a (g :: gs)) : IsGroups a gs :=
  ⟨fun hmem => h.nonempty (List.mem_cons_of_mem g hmem),
    fun m hm => h.chain m (List.mem_cons_of_mem g hm), h.links.tail⟩

/-- The record after a group closes it. -/
theorem IsGroups.applyAll_cons {g g' : List PersistedRecord} {gs : List (List PersistedRecord)}
    (h : IsGroups a (g :: g' :: gs)) (hne : g ≠ [])
    (htracks : Tracks a (some (g.getLast hne)) (v.applyAll a g)) :
    v.applyAll a (g :: g' :: gs).flatten =
      ((v.applyAll a g).flush a).applyAll a (g' :: gs).flatten := by
  rcases g' with - | ⟨y, rest⟩
  · exact absurd (List.mem_cons_of_mem g List.mem_cons_self) h.nonempty
  obtain ⟨_, _, hlink⟩ := (List.isChain_cons_cons.mp h.links).1
  have hbefore := before_of_not_sameGroup (y := y) a htracks hlink
  rw [List.flatten_cons, applyAll_append, List.flatten_cons, List.cons_append]
  exact applyAll_flush hbefore _

/-- **A whole group makes two assets alike**, if a later record closes it. -/
theorem IsGroups.alike {gs : List (List PersistedRecord)} (h : IsGroups a gs)
    (hv : v.pending = none) (hw : w.pending = none) {g : List PersistedRecord}
    (hmem : g ∈ gs.dropLast) (hrestores : restoresGroup a g = true) :
    Alike a (v.applyAll a gs.flatten) (w.applyAll a gs.flatten) := by
  induction gs generalizing v w with
  | nil => cases hmem
  | cons first gs ih =>
      rcases gs with - | ⟨second, gs⟩
      · cases hmem
      have hne : first ≠ [] := fun hnil => h.nonempty (hnil ▸ List.mem_cons_self)
      rw [h.applyAll_cons hne (tracks_applyAll_getLast a hv hne),
        h.applyAll_cons hne (tracks_applyAll_getLast a hw hne)]
      rw [List.dropLast_cons_cons] at hmem
      rcases List.mem_cons.mp hmem with rfl | hmem
      · obtain ⟨p, hp, hfits⟩ :=
          pending_of_restoresGroup a hv (h.chain g List.mem_cons_self) hrestores
        rw [← applyAll_group a hv (h.chain g List.mem_cons_self)] at hp
        have hp' : (w.applyAll a g).pending = some p := by
          rw [← hp]
          exact pending_applyAll_congr a (hw.trans hv.symm) g
        exact (alike_flush_of_fits hp hp' hfits).applyAll _
      · exact ih h.tail (flush_pending a _) (flush_pending a _) hmem

/-! ## Checkpoints -/

/-- A checkpoint that hydration applies. -/
def load (a : AssetId) (v : AssetView) (c : BookCheckpoint) : AssetView :=
  if c.assetId = a then v.setState ((v.stateD a).applyCheckpoint c) else v

/-- The checkpoints that hydration applies, in order. -/
def loadAll (a : AssetId) (v : AssetView) (cs : List BookCheckpoint) : AssetView :=
  cs.foldl (load a) v

@[simp] theorem loadAll_cons (v : AssetView) (c : BookCheckpoint) (cs : List BookCheckpoint) :
    v.loadAll a (c :: cs) = (v.load a c).loadAll a cs := rfl

@[simp] theorem load_pending (v : AssetView) (c : BookCheckpoint) :
    (v.load a c).pending = v.pending := by
  unfold load
  split
  · rfl
  · rfl

@[simp] theorem loadAll_pending (v : AssetView) (cs : List BookCheckpoint) :
    (v.loadAll a cs).pending = v.pending := by
  induction cs generalizing v with
  | nil => rfl
  | cons c cs ih => rw [loadAll_cons, ih, load_pending]

/-- The state that checkpoints leave does not depend on the buffer. -/
theorem loadAll_state (v : AssetView) (pending : Option PendingSnapshot)
    (cs : List BookCheckpoint) :
    (AssetView.mk v.state pending).loadAll a cs = ⟨(v.loadAll a cs).state, pending⟩ := by
  induction cs generalizing v with
  | nil => rfl
  | cons c cs ih =>
      have hload : (AssetView.mk v.state pending).load a c = ⟨(v.load a c).state, pending⟩ := by
        unfold load
        split
        · rfl
        · rfl
      rw [loadAll_cons, loadAll_cons, hload, ih]

/-- A checkpoint keeps assets alike. -/
theorem Alike.load (h : Alike a v w) (c : BookCheckpoint) :
    Alike a (v.load a c) (w.load a c) := by
  unfold AssetView.load
  split
  · refine h.setState ?_ fun hinit => ?_
    · rw [AssetState.applyCheckpoint_initialized, AssetState.applyCheckpoint_initialized,
        h.initialized]
    · by_cases hfits : c.fits = true
      · exact AssetState.applyCheckpoint_sides _ _ hfits
      · rw [Bool.not_eq_true] at hfits
        rw [AssetState.applyCheckpoint_initialized, hfits, Bool.or_false] at hinit
        rw [AssetState.applyCheckpoint_book_of_not_fits _ hfits,
          AssetState.applyCheckpoint_book_of_not_fits _ hfits]
        exact h.sides hinit
  · exact h

/-- Checkpoints keep assets alike. -/
theorem Alike.loadAll (h : Alike a v w) (cs : List BookCheckpoint) :
    Alike a (v.loadAll a cs) (w.loadAll a cs) := by
  induction cs generalizing v w with
  | nil => exact h
  | cons c cs ih => exact ih (h.load c)

/-- A checkpoint the book takes makes two assets alike. -/
theorem alike_loadAll_of_fits (h : v.pending = w.pending) {cs : List BookCheckpoint}
    {c : BookCheckpoint} (hc : c ∈ cs) (hasset : c.assetId = a) (hfits : c.fits = true) :
    Alike a (v.loadAll a cs) (w.loadAll a cs) := by
  induction cs generalizing v w with
  | nil => cases hc
  | cons d cs ih =>
      rw [loadAll_cons, loadAll_cons]
      rcases List.mem_cons.mp hc with rfl | hc
      · refine Alike.loadAll ?_ cs
        unfold AssetView.load
        rw [if_pos hasset, if_pos hasset]
        refine ⟨h, ?_, fun _ => AssetState.applyCheckpoint_sides _ _ hfits⟩
        simp only [setState, stateD, Option.getD_some, AssetState.applyCheckpoint_initialized,
          hfits, Bool.or_true]
      · exact ih (by rw [load_pending, load_pending, h]) hc

/-! ## One asset -/

/-- What is left of the asset's past is replaced, or was nothing to readers: no book
and no group, or a checkpoint and no group, where a group counts unless the first
record closes it and the book refuses it; or a whole group of the asset that does not
begin inside the one that is pending is closed and taken. -/
inductive Restored (a : AssetId) (v : AssetView) (cs : List BookCheckpoint)
    (records : List PersistedRecord) : Prop
  | quiet (hpending : ∀ p ∈ v.pending, records.head?.any (ends · p) = true ∧
        fitsTotals p.bids p.asks = false)
      (hseed : (v.stateD a).initializedFromSnapshot = false ∨
        ∃ c ∈ cs, c.assetId = a ∧ c.fits = true)
  | replaced {group : List PersistedRecord} (hmem : group ∈ (groups a records).dropLast)
      (hrestores : restoresGroup a group = true)
      (hpending : ∀ p ∈ v.pending, records.head?.any (ends · p) = true)
  | replacedLater {group : List PersistedRecord}
      (hmem : group ∈ (groups a records).tail.dropLast)
      (hrestores : restoresGroup a group = true)

/-- A group that the first record closes. -/
theorem applyAll_of_closed {records : List PersistedRecord} (hne : records ≠ [])
    (h : ∀ p ∈ v.pending, records.head?.any (ends · p) = true) :
    v.applyAll a records = (v.flush a).applyAll a records := by
  rcases records with - | ⟨record, records⟩
  · exact absurd rfl hne
  refine applyAll_flush ?_ records
  cases hp : v.pending with
  | none => rw [before_of_pending_none a hp, flush_of_pending_none a hp]
  | some p =>
      have hends : ends record p = true := h p hp
      simp only [AssetView.before, hp, Option.any_some, hends, if_true]

/-- An asset with nothing left of its past is like a fresh one. -/
theorem alike_of_quiet {cs : List BookCheckpoint} {records : List PersistedRecord}
    (hw : w.pending = none) (hinit : (w.stateD a).initializedFromSnapshot = false)
    (hpending : ∀ p ∈ v.pending, records.head?.any (ends · p) = true ∧
      fitsTotals p.bids p.asks = false)
    (hseed : (v.stateD a).initializedFromSnapshot = false ∨
      ∃ c ∈ cs, c.assetId = a ∧ c.fits = true) :
    Alike a ((v.loadAll a cs).applyAll a records) ((w.loadAll a cs).applyAll a records) := by
  have hloaded : Alike a ((AssetView.mk v.state none).loadAll a cs) (w.loadAll a cs) := by
    rcases hseed with huninit | ⟨c, hc, hasset, hfits⟩
    · have halike : Alike a (AssetView.mk v.state none) w := by
        refine ⟨hw.symm, huninit.trans hinit.symm, fun h => ?_⟩
        exact absurd (huninit.symm.trans h) Bool.false_ne_true
      exact halike.loadAll cs
    · exact alike_loadAll_of_fits hw.symm hc hasset hfits
  rw [loadAll_state] at hloaded
  cases hp : v.pending with
  | none =>
      have hsame : v.loadAll a cs = ⟨(v.loadAll a cs).state, none⟩ := by
        rw [← hp, ← loadAll_pending (a := a) v cs]
      rw [hsame]
      exact hloaded.applyAll records
  | some p =>
      have hloadedPending : (v.loadAll a cs).pending = some p := by rw [loadAll_pending, hp]
      have hne : records ≠ [] := by
        rintro rfl
        cases (hpending p hp).1
      rw [applyAll_of_closed hne fun q hq => by
        rw [hloadedPending] at hq
        cases hq
        exact (hpending p hp).1]
      obtain ⟨hsameInit, hsameBook⟩ := flush_of_refused a (v.loadAll a cs) fun q hq => by
        rw [hloadedPending] at hq
        cases hq
        exact (hpending p hp).2
      have hflush : Alike a ((v.loadAll a cs).flush a) ⟨(v.loadAll a cs).state, none⟩ :=
        ⟨flush_pending a _, hsameInit, fun _ => congrArg L2Book.sides hsameBook⟩
      exact (hflush.trans hloaded).applyAll records

/-- A group in the buffer that the first record goes on. -/
theorem tracks_of_continues {record : PersistedRecord} {p : PendingSnapshot}
    (hp : v.pending = some p) (hkey : p.key.assetId = a) (hends : ends record p = false) :
    Tracks a (some record) v := by
  intro q hq
  rw [hp] at hq
  cases hq
  cases record with
  | book e =>
      cases hkind : e.kind with
      | delta => simp [ends, hkind] at hends
      | snapshot =>
          have hsame : p.key = e.groupKey := by simpa [ends, hkind] using hends
          refine ⟨e, rfl, hkind, ?_, hsame⟩
          rw [← hkey, hsame]
          rfl
  | _ => cases hends

/-- **A restored asset has forgotten its past.** -/
theorem alike_of_restored {cs : List BookCheckpoint} {records : List PersistedRecord}
    (hkey : ∀ p ∈ v.pending, p.key.assetId = a) (h : Restored a v cs records)
    (hw : w.pending = none) (hinit : (w.stateD a).initializedFromSnapshot = false) :
    Alike a ((v.loadAll a cs).applyAll a records) ((w.loadAll a cs).applyAll a records) := by
  obtain ⟨hgroups, hflatten⟩ := isGroups_groups a records
  have hw' : (w.loadAll a cs).pending = none := by rw [loadAll_pending, hw]
  have hclosed : ∀ {group}, group ∈ (groups a records).dropLast →
      restoresGroup a group = true →
      (∀ p ∈ v.pending, records.head?.any (ends · p) = true) →
      Alike a ((v.loadAll a cs).applyAll a records) ((w.loadAll a cs).applyAll a records) := by
    intro group hmem hrestores hpending
    have hne : records ≠ [] := by
      rintro rfl
      cases hmem
    rw [applyAll_of_closed hne (by rwa [loadAll_pending])]
    have halike := hgroups.alike (flush_pending a (v.loadAll a cs)) hw' hmem hrestores
    rwa [hflatten] at halike
  cases h with
  | quiet hpending hseed => exact alike_of_quiet hw hinit hpending hseed
  | replaced hmem hrestores hpending => exact hclosed hmem hrestores hpending
  | replacedLater hmem hrestores =>
      by_cases hpending : ∀ p ∈ v.pending, records.head?.any (ends · p) = true
      · refine hclosed ?_ hrestores hpending
        rw [← List.tail_dropLast] at hmem
        exact List.mem_of_mem_tail hmem
      · push Not at hpending
        obtain ⟨p, hp, hcontinues⟩ := hpending
        rw [Option.mem_def] at hp
        rw [← hflatten]
        generalize groups a records = gs at hgroups hflatten hmem
        rcases gs with - | ⟨first, - | ⟨second, gs⟩⟩
        · cases hmem
        · cases hmem
        rcases first with - | ⟨record, first⟩
        · exact absurd List.mem_cons_self hgroups.nonempty
        have hloadedPending : (v.loadAll a cs).pending = some p := by rw [loadAll_pending, hp]
        have hends : ends record p = false := by
          rw [← hflatten] at hcontinues
          simpa using hcontinues
        have hstart : Tracks a [record].getLast? (v.loadAll a cs) :=
          tracks_of_continues hloadedPending (hkey p hp) hends
        have htracks := tracks_applyAll a hstart (record :: first)
        have hlast : ([record] ++ record :: first).getLast? =
            some ((record :: first).getLast (List.cons_ne_nil _ _)) := by
          rw [List.getLast?_append_of_ne_nil _ (List.cons_ne_nil _ _),
            List.getLast?_eq_some_getLast (List.cons_ne_nil _ _)]
        rw [hlast] at htracks
        rw [hgroups.applyAll_cons (List.cons_ne_nil _ _) htracks,
          hgroups.applyAll_cons (List.cons_ne_nil _ _)
            (tracks_applyAll_getLast a hw' (List.cons_ne_nil _ _))]
        exact hgroups.tail.alike (flush_pending a _) (flush_pending a _) hmem hrestores

/-! ## What is left when nothing is restored -/

/-- Checkpoints give the asset a book if one of them is its own and fits. -/
theorem loadAll_initialized (v : AssetView) (cs : List BookCheckpoint) :
    ((v.loadAll a cs).stateD a).initializedFromSnapshot =
      ((v.stateD a).initializedFromSnapshot ||
        cs.any fun c => decide (c.assetId = a) && c.fits) := by
  induction cs generalizing v with
  | nil => simp [loadAll]
  | cons c cs ih =>
      rw [loadAll_cons, ih, List.any_cons, ← Bool.or_assoc]
      congr 1
      unfold AssetView.load
      split
      · rename_i hasset
        simp [setState, stateD, AssetState.applyCheckpoint_initialized, hasset]
      · rename_i hother
        simp [hother]

/-- A checkpoint of the asset in the log that its book would take. -/
def SeedRecord (a : AssetId) (record : PersistedRecord) : Prop :=
  ∃ c, record = .checkpoint c ∧ c.assetId = a ∧ c.fits = true

/-- A record that seeds nothing leaves the asset without a book. -/
theorem own_uninitialized {record : PersistedRecord}
    (hv : (v.stateD a).initializedFromSnapshot = false) (h : ¬ SeedRecord a record) :
    ((v.own a record).stateD a).initializedFromSnapshot = false := by
  cases record with
  | book e =>
      simp only [AssetView.own]
      split
      · cases e.kind with
        | snapshot => exact hv
        | delta => exact (AssetState.recordDeltaEvent_initialized _ e).trans hv
      · exact hv
  | ingest e =>
      simp only [AssetView.own]
      split
      · exact hv
      · exact hv
  | checkpoint c =>
      simp only [AssetView.own]
      split
      · rename_i hown
        have hrefused : c.fits = false := by
          rw [← Bool.not_eq_true]
          exact fun hfits => h ⟨c, rfl, hown.1, hfits⟩
        simp [setState, stateD, AssetState.applyCheckpoint_initialized, hrefused]
        exact hv
      · exact hv
  | trade e => exact hv
  | validation e => exact hv

/-- **Without a whole group of its own** a fresh asset gets no book. -/
theorem IsGroups.uninitialized {gs : List (List PersistedRecord)} (h : IsGroups a gs)
    (hv : v.pending = none) (hinit : (v.stateD a).initializedFromSnapshot = false)
    (hgroups : ∀ g ∈ gs.dropLast, restoresGroup a g = false)
    (hrecords : ∀ record ∈ gs.flatten, ¬ SeedRecord a record) :
    ((v.applyAll a gs.flatten).stateD a).initializedFromSnapshot = false := by
  induction gs generalizing v with
  | nil => exact hinit
  | cons first gs ih =>
      have hchain := h.chain first List.mem_cons_self
      have hfirst : ((v.applyAll a first).stateD a).initializedFromSnapshot = false := by
        have hnone : ∀ record ∈ first, ¬ SeedRecord a record := fun record hmem =>
          hrecords record (List.mem_flatten_of_mem List.mem_cons_self hmem)
        rw [applyAll_group a hv hchain]
        clear h hgroups hrecords hchain hv
        induction first generalizing v with
        | nil => exact hinit
        | cons record first ih' =>
            exact ih' (own_uninitialized hinit (hnone record List.mem_cons_self))
              fun r hr => hnone r (List.mem_cons_of_mem _ hr)
      rcases gs with - | ⟨second, gs⟩
      · simpa using hfirst
      have hne : first ≠ [] := fun hnil => h.nonempty (hnil ▸ List.mem_cons_self)
      rw [h.applyAll_cons hne (tracks_applyAll_getLast a hv hne)]
      rw [List.dropLast_cons_cons] at hgroups
      refine ih h.tail (flush_pending a _) ?_
        (fun g hg => hgroups g (List.mem_cons_of_mem _ hg)) fun record hmem =>
          hrecords record (by
            rw [List.flatten_cons]
            exact List.mem_append_right _ hmem)
      have hseeds : seedsGroup a first = false := by
        rcases first with - | ⟨record, first⟩
        · exact absurd rfl hne
        have hclosed := hgroups _ List.mem_cons_self
        cases record with
        | book e => exact hclosed
        | checkpoint c =>
            have hnone := hrecords _ (List.mem_flatten_of_mem List.mem_cons_self
              List.mem_cons_self)
            rw [← Bool.not_eq_true]
            intro hfits
            simp only [seedsGroup, List.head?_cons, Bool.and_eq_true, beq_iff_eq] at hfits
            exact hnone ⟨c, rfl, hfits⟩
        | _ => rfl
      have happly := applyGroup_initialized a hv hne hchain
      rw [applyGroup, ← applyAll_group a hv hchain, hinit, hseeds] at happly
      exact happly

/-- The fresh asset may get a book of its own where the old one kept something: from a
checkpoint, with a group pending; from a checkpoint in the log; from records that go on
the group that is pending.  The two books may then hold the same levels. -/
inductive Rebuilt (a : AssetId) (v : AssetView) (cs : List BookCheckpoint)
    (records : List PersistedRecord) : Prop
  | seeded {c : BookCheckpoint} (hmem : c ∈ cs) (hasset : c.assetId = a) (hfits : c.fits = true)
      {p : PendingSnapshot} (hpending : v.pending = some p)
      (htaken : fitsTotals p.bids p.asks = true)
  | logged {record : PersistedRecord} (hmem : record ∈ records) (hseed : SeedRecord a record)
  | continued {p : PendingSnapshot} (hpending : v.pending = some p) {record : PersistedRecord}
      (hhead : records.head? = some record) (hends : ends record p = false)

/-- **An asset that is not restored shows it**, unless the fresh one is rebuilt too. -/
theorem restored_or_rebuilt {cs : List BookCheckpoint} {records : List PersistedRecord}
    (hw : w.pending = none) (hinit : (w.stateD a).initializedFromSnapshot = false)
    (hpending : ((v.loadAll a cs).applyAll a records).pending =
      ((w.loadAll a cs).applyAll a records).pending)
    (hready : (((v.loadAll a cs).applyAll a records).stateD a).initializedFromSnapshot =
      (((w.loadAll a cs).applyAll a records).stateD a).initializedFromSnapshot) :
    Restored a v cs records ∨ Rebuilt a v cs records := by
  by_contra hneither
  rw [not_or] at hneither
  obtain ⟨hrestored, hrebuilt⟩ := hneither
  have hw' : (w.loadAll a cs).pending = none := by rw [loadAll_pending, hw]
  -- where no checkpoint is taken, no group of the log's own gives the fresh asset a book
  have hfresh : (∀ c ∈ cs, c.assetId = a → c.fits = false) →
      (∀ p ∈ v.pending, records.head?.any (ends · p) = true) →
      (((w.loadAll a cs).applyAll a records).stateD a).initializedFromSnapshot = false := by
    intro hcs hclosed
    obtain ⟨hgroups, hflatten⟩ := isGroups_groups a records
    rw [← hflatten]
    refine hgroups.uninitialized hw' ?_ (fun g hg => ?_) fun record hmem hseed => ?_
    · rw [loadAll_initialized, hinit, Bool.false_or, ← Bool.not_eq_true, List.any_eq_true]
      rintro ⟨c, hc, hfits⟩
      rw [Bool.and_eq_true, decide_eq_true_iff] at hfits
      rw [hcs c hc hfits.1] at hfits
      exact Bool.false_ne_true hfits.2
    · rw [← Bool.not_eq_true]
      exact fun hrestores => hrestored (.replaced hg hrestores hclosed)
    · rw [hflatten] at hmem
      exact hrebuilt (.logged hmem hseed)
  -- what the old asset held keeps it ready
  have hstale : (v.stateD a).initializedFromSnapshot = true →
      (((v.loadAll a cs).applyAll a records).stateD a).initializedFromSnapshot = true := by
    intro h
    refine applyAll_initialized a records ?_
    rw [loadAll_initialized, h, Bool.true_or]
  have hquiet : (∀ p ∈ v.pending, records.head?.any (ends · p) = true ∧
      fitsTotals p.bids p.asks = false) → False := by
    intro h
    have hseed : ¬ ((v.stateD a).initializedFromSnapshot = false ∨
        ∃ c ∈ cs, c.assetId = a ∧ c.fits = true) := fun hseed => hrestored (.quiet h hseed)
    rw [not_or, Bool.not_eq_false] at hseed
    rw [hstale hseed.1, hfresh (fun c hc hasset => ?_) fun p hp => (h p hp).1] at hready
    · cases hready
    · rw [← Bool.not_eq_true]
      exact fun hfits => hseed.2 ⟨c, hc, hasset, hfits⟩
  cases hp : v.pending with
  | none =>
      refine hquiet fun p hmem => ?_
      rw [hp] at hmem
      cases hmem
  | some p =>
      rcases records with - | ⟨record, records⟩
      · rw [applyAll_nil, applyAll_nil, hw', loadAll_pending, hp] at hpending
        cases hpending
      have hends : ends record p = true := by
        rw [← Bool.not_eq_false]
        exact fun hopen => hrebuilt (.continued hp rfl hopen)
      have hclosed : ∀ q ∈ v.pending, (record :: records).head?.any (ends · q) = true := by
        intro q hq
        rw [hp] at hq
        cases hq
        exact hends
      by_cases htaken : fitsTotals p.bids p.asks = true
      · have hcs : ∀ c ∈ cs, c.assetId = a → c.fits = false := by
          intro c hc hasset
          rw [← Bool.not_eq_true]
          exact fun hfits => hrebuilt (.seeded hc hasset hfits hp htaken)
        have hv : (((v.loadAll a cs).applyAll a (record :: records)).stateD a
            ).initializedFromSnapshot = true := by
          rw [applyAll_of_closed (List.cons_ne_nil _ _) (by rwa [loadAll_pending])]
          refine applyAll_initialized a _ ?_
          have hloadedPending : (v.loadAll a cs).pending = some p := by rw [loadAll_pending, hp]
          rw [stateD_flush_initialized, hloadedPending, Option.any_some, htaken, Bool.or_true]
        rw [hv, hfresh hcs hclosed] at hready
        cases hready
      · refine hquiet fun q hq => ⟨hclosed q hq, ?_⟩
        rw [hp] at hq
        cases hq
        simpa using htaken

end AssetView

end PolyBook
