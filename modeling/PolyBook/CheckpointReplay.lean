import PolyBook.Ingest
import PolyBook.SnapshotGroups
import PolyBook.ReplayLoop

/-!
# Replays around a checkpoint

A checkpoint holds what the venue's book was when it was captured, but its cut
in the log is made when `wal_drain` comes to it.  Level changes that are older
than the capture and come after the cut do no harm: they write what the captured
book already holds, or what a later one overwrites.

`Follows` says of an asset's state that it is a replay of the venue's changes up
to some position, ahead of it or not.  When every checkpoint is delivered between
two changes and after none that it does not know (`Delivered`), the replay of
everything follows the venue (`Delivered.follows`), and so does the replay from
any of the checkpoints (`Delivered.split`).
-/

namespace PolyBook

open Overwrite

/-- What the change writes to a book. -/
def VenueChange.write {a : AssetId} (m : VenueChange a) :
    Write (Side × FixedPrice) (Option FixedSize) :=
  match m.kind with
  | .snapshot => .all (listedContent (eventLevels .bid m.events) (eventLevels .ask m.events))
  | .delta => m.first.write

/-- **The venue's book is the word of its changes.** -/
theorem VenueChange.apply_within {a : AssetId} {c : Capacity} (m : VenueChange a)
    (hadmits : c.AdmitsEvents m.events) {book : L2Book} (hbook : book.Within c) :
    ∃ next, m.apply book = .ok next ∧ next.Within c ∧ next.content = m.write.run book.content := by
  unfold apply write
  cases m.kind with
  | snapshot =>
      obtain ⟨next, hnext, hwithin, hcontent⟩ := L2Book.tryApplySnapshot_within
        (hadmits.admits .bid) (hadmits.admits .ask) book
        ((m.events.getLast?.bind fun event => event.provenance.sequence).getD 0)
        m.first.provenance.recvTimestampUs
      exact ⟨next, hnext, hwithin, hcontent⟩
  | delta => exact hbook.tryApplyDelta_within (hadmits m.first List.mem_cons_self) _ _

namespace Ingest

variable {a : AssetId} {c : Capacity} {changes : List (VenueChange a)} {v : AssetView} {n : Nat}

/-- The venue's book after some of its changes. -/
def contentAfter (changes : List (VenueChange a)) (version : Nat) : BookContent :=
  writes (fun _ => none) ((changes.map VenueChange.write).take version)

/-- The book of a replay at a position of the changes: it is within the capacity,
and behind or ahead of the position in a way that the later changes make up for. -/
def Held (c : Capacity) (changes : List (VenueChange a)) (n : Nat) (book : L2Book) : Prop :=
  book.Within c ∧ Ahead (fun _ => none) (changes.map VenueChange.write) n book.content

/-- A replay of the log stands after the first `n` changes and, in the next one, a
part of a book message. -/
inductive Follows (c : Capacity) (changes : List (VenueChange a)) (v : AssetView) :
    Nat → List BookEvent → Prop
  | between {n : Nat}
      (key : ∀ p, v.pending = some p → ∃ k m, n = k + 1 ∧ changes[k]? = some m ∧
        m.kind = .snapshot ∧ p.key = m.first.groupKey)
      (held : ((v.flush a).stateD a).initializedFromSnapshot = true →
        Held c changes n ((v.flush a).stateD a).book) : Follows c changes v n []
  | within {n : Nat} {e : BookEvent} {rest : List BookEvent} {q : PendingSnapshot}
      (pending : v.pending = some q) (bids : q.bids = eventLevels .bid (e :: rest))
      (asks : q.asks = eventLevels .ask (e :: rest)) (key : q.key = e.groupKey) :
      Follows c changes v n (e :: rest)

/-- What a change of the history writes. -/
theorem getElem?_write {m : VenueChange a} (hm : changes[n]? = some m) :
    (changes.map VenueChange.write)[n]? = some m.write := by
  rw [List.getElem?_map, hm]
  rfl

/-- A whole book message waits in the buffer. -/
theorem follows_of_pending {m : VenueChange a} (hm : changes[n]? = some m)
    (hkind : m.kind = .snapshot) (hadmits : c.AdmitsEvents m.events) {q : PendingSnapshot}
    (hpending : v.pending = some q) (hbids : q.bids = eventLevels .bid m.events)
    (hasks : q.asks = eventLevels .ask m.events) (hkey : q.key = m.first.groupKey) :
    Follows c changes v (n + 1) [] := by
  refine .between (fun p hp => ?_) fun _ => ?_
  · rw [hpending, Option.some.injEq] at hp
    subst hp
    exact ⟨n, m, rfl, hm, hkind, hkey⟩
  · obtain ⟨next, hnext, hwithin, hcontent⟩ := L2Book.tryApplySnapshot_within
      (hadmits.admits .bid) (hadmits.admits .ask) (v.stateD a).book q.sequence
      q.lastRecvTimestampUs
    rw [← hbids, ← hasks] at hnext
    have hbook : ((v.flush a).stateD a).book = next := by
      simp only [AssetView.flush, hpending]
      exact AssetState.materialize_book_of_ok hnext
    have hwrite : m.write =
        .all (listedContent (eventLevels .bid m.events) (eventLevels .ask m.events)) := by
      rw [VenueChange.write, hkind]
    rw [hbook]
    refine ⟨hwithin, ?_⟩
    rw [hcontent]
    exact Ahead.all (hwrite ▸ getElem?_write hm)

/-- The levels of one side, one event on. -/
theorem eventLevels_concat (side : Side) (events : List BookEvent) (e : BookEvent) :
    eventLevels side (events ++ [e]) =
      eventLevels side events ++ if e.side = side then [(e.price, e.size)] else [] := by
  by_cases h : e.side = side <;> simp [eventLevels, h]

/-- A pushed event joins the levels of its side. -/
theorem push_levels (p : PendingSnapshot) (e : BookEvent) (events : List BookEvent)
    (hbids : p.bids = eventLevels .bid events) (hasks : p.asks = eventLevels .ask events) :
    (p.push e).bids = eventLevels .bid (events ++ [e]) ∧
      (p.push e).asks = eventLevels .ask (events ++ [e]) := by
  rw [eventLevels_concat, eventLevels_concat]
  cases hside : e.side <;> simp [PendingSnapshot.push, hside, hbids, hasks]

/-- The next record of a book message joins those before it in the buffer. -/
theorem Follows.snapshot_pending {seen : List BookEvent} (h : Follows c changes v n seen)
    {m : VenueChange a} (hkind : m.kind = .snapshot) {e : BookEvent} {rest : List BookEvent}
    (hevents : m.events = seen ++ e :: rest)
    (hkeys : ∀ k last, n = k + 1 → changes[k]? = some last → last.kind = .snapshot →
      last.first.groupKey ≠ m.first.groupKey) :
    ∃ q, (v.apply a (.book e)).pending = some q ∧ q.bids = eventLevels .bid (seen ++ [e]) ∧
      q.asks = eventLevels .ask (seen ++ [e]) ∧ q.key = m.first.groupKey := by
  have hmem : e ∈ m.events := by
    rw [hevents]
    exact List.mem_append_right _ List.mem_cons_self
  have hgroup : ∀ d ∈ m.events, d.groupKey = m.first.groupKey := by
    intro d hd
    obtain rfl | hd := List.mem_cons.mp hd
    · rfl
    · exact m.oneGroup d hd
  have hsnapshot : e.kind = .snapshot := (m.kinds e hmem).trans hkind
  have hown : ∀ w : AssetView, (w.own a (.book e)).pending =
      some ((w.pending.getD (PendingSnapshot.start e)).push e) := by
    intro w
    simp [AssetView.own, m.assetId e hmem, hsnapshot, AssetView.recordSnapshotEvent]
  cases h with
  | between key held =>
      have hflush : v.before a (.book e) = v.flush a := by
        cases hp : v.pending with
        | none => rw [AssetView.before_of_pending_none a hp, AssetView.flush_of_pending_none a hp]
        | some p =>
            obtain ⟨k, last, hn, hlast, hlast_kind, hkey⟩ := key p hp
            have hne : p.key ≠ e.groupKey := by
              rw [hkey, hgroup e hmem]
              exact hkeys k last hn hlast hlast_kind
            simp [AssetView.before, hp, AssetView.ends, hsnapshot, hne]
      obtain ⟨hbids, hasks⟩ := push_levels (PendingSnapshot.start e) e [] rfl rfl
      refine ⟨_, ?_, hbids, hasks, hgroup e hmem⟩
      rw [AssetView.apply, hflush, hown, AssetView.flush_pending]
      rfl
  | @within first seen q pending bids asks key =>
      have hfirst : first = m.first := by
        have := congrArg List.head? hevents
        simpa [VenueChange.events] using this.symm
      have hkeep : v.before a (.book e) = v := by
        have hkey : q.key = e.groupKey := by rw [key, hfirst, hgroup e hmem]
        simp [AssetView.before, pending, AssetView.ends, hsnapshot, hkey]
      obtain ⟨hbids, hasks⟩ := push_levels q e _ bids asks
      refine ⟨_, ?_, hbids, hasks, ?_⟩
      · rw [AssetView.apply, hkeep, hown, pending]
        rfl
      · rw [← hfirst]
        exact key

/-- The book messages and level changes of the venue that replays can rely on. -/
structure Dispatched (c : Capacity) (changes : List (VenueChange a)) : Prop where
  admits : ∀ m ∈ changes, c.AdmitsEvents m.events
  keys : ∀ k last m, changes[k]? = some last → changes[k + 1]? = some m →
    last.kind = .snapshot → m.kind = .snapshot → last.first.groupKey ≠ m.first.groupKey

/-- Two snapshots in a row have different group keys. -/
theorem Dispatched.key_ne (h : Dispatched c changes) {m : VenueChange a}
    (hm : changes[n]? = some m) (hkind : m.kind = .snapshot) (k : Nat) (last : VenueChange a)
    (hn : n = k + 1) (hlast : changes[k]? = some last) (hlast_kind : last.kind = .snapshot) :
    last.first.groupKey ≠ m.first.groupKey := by
  subst hn
  exact h.keys k last m hlast hm hlast_kind hkind

/-- A record of a book message that is not its last. -/
theorem Follows.book_within {seen : List BookEvent} (h : Follows c changes v n seen)
    (hchanges : Dispatched c changes) {m : VenueChange a} (hm : changes[n]? = some m)
    {e next : BookEvent} {rest : List BookEvent} (hevents : m.events = seen ++ e :: next :: rest) :
    Follows c changes (v.apply a (.book e)) n (seen ++ [e]) := by
  have hkind : m.kind = .snapshot := by
    cases hkind : m.kind with
    | snapshot => rfl
    | delta =>
        have hlen := congrArg List.length hevents
        simp [VenueChange.events, m.single hkind] at hlen
        omega
  obtain ⟨q, hpending, hbids, hasks, hkey⟩ := h.snapshot_pending hkind hevents
    (hchanges.key_ne hm hkind)
  have hhead : ∃ tail, seen ++ [e] = m.first :: tail := by
    cases seen with
    | nil =>
        have hfirst : m.first = e := by simpa [VenueChange.events] using congrArg List.head? hevents
        exact ⟨[], by rw [hfirst]; rfl⟩
    | cons first tail =>
        have hfirst : m.first = first := by
          simpa [VenueChange.events] using congrArg List.head? hevents
        exact ⟨tail ++ [e], by rw [hfirst]; rfl⟩
  obtain ⟨tail, htail⟩ := hhead
  rw [htail] at hbids hasks ⊢
  exact .within hpending hbids hasks hkey

/-- The last record of a change. -/
theorem Follows.book_last {seen : List BookEvent} (h : Follows c changes v n seen)
    (hchanges : Dispatched c changes) {m : VenueChange a} (hm : changes[n]? = some m)
    {e : BookEvent} (hevents : m.events = seen ++ [e]) :
    Follows c changes (v.apply a (.book e)) (n + 1) [] := by
  have hadmits := hchanges.admits m (List.mem_of_getElem? hm)
  have hmem : e ∈ m.events := by simp [hevents]
  cases hkind : m.kind with
  | snapshot =>
      obtain ⟨q, hpending, hbids, hasks, hkey⟩ := h.snapshot_pending hkind hevents
        (hchanges.key_ne hm hkind)
      rw [← hevents] at hbids hasks
      exact follows_of_pending hm hkind hadmits hpending hbids hasks hkey
  | delta =>
      have hsingle : [m.first] = seen ++ [e] := by
        rw [← hevents, VenueChange.events, m.single hkind]
      obtain ⟨rfl, hfirst⟩ : seen = [] ∧ m.first = e := by
        cases seen with
        | nil => exact ⟨rfl, by simpa using hsingle⟩
        | cons x seen => simp at hsingle
      have hdelta : e.kind = .delta := (m.kinds e hmem).trans hkind
      have happly : v.apply a (.book e) =
          (v.flush a).setState (((v.flush a).stateD a).recordDeltaEvent e) := by
        have hbefore : v.before a (.book e) = v.flush a := by
          cases hp : v.pending with
          | none => rw [AssetView.before_of_pending_none a hp, AssetView.flush_of_pending_none a hp]
          | some p => simp [AssetView.before, hp, AssetView.ends, hdelta]
        rw [AssetView.apply, hbefore]
        simp [AssetView.own, m.assetId e hmem, hdelta]
      have hpending : (v.apply a (.book e)).pending = none := by
        rw [happly]
        exact AssetView.flush_pending a v
      refine .between (fun p hp => ?_) fun hinit => ?_
      · rw [hpending] at hp
        cases hp
      · rw [AssetView.flush_of_pending_none a hpending, happly] at hinit ⊢
        have hstate : (((v.flush a).setState (((v.flush a).stateD a).recordDeltaEvent e)).stateD a)
            = ((v.flush a).stateD a).recordDeltaEvent e := rfl
        rw [hstate] at hinit ⊢
        rw [AssetState.recordDeltaEvent_initialized] at hinit
        cases h with
        | between key held =>
            obtain ⟨hwithin, hahead⟩ := held hinit
            obtain ⟨next, hnext, hnext_within, hcontent⟩ :=
              hwithin.tryApplyDelta_within (hadmits e hmem)
                (e.provenance.sequence.getD 0) e.provenance.recvTimestampUs
            rw [AssetState.recordDeltaEvent_book_of_ok hnext]
            have hwrite : m.write = e.write := by
              simp [VenueChange.write, hkind, hfirst]
            refine ⟨hnext_within, ?_⟩
            rw [hcontent]
            exact hahead.write (hwrite ▸ getElem?_write hm)

/-! ## A checkpoint of the venue's book -/

/-- The checkpoint lists the venue's book after `version` changes. -/
structure Listed (c : Capacity) (changes : List (VenueChange a)) (checkpoint : BookCheckpoint)
    (version : Nat) : Prop where
  assetId : checkpoint.assetId = a
  le_length : version ≤ changes.length
  bids : c.Admits .bid (checkpoint.bids.map fun l => (l.price, l.size))
  asks : c.Admits .ask (checkpoint.asks.map fun l => (l.price, l.size))
  content : listedContent (checkpoint.bids.map fun l => (l.price, l.size))
    (checkpoint.asks.map fun l => (l.price, l.size)) = contentAfter changes version

/-- The REST book is listed. -/
theorem listed_checkpointFromRest {book : L2Book} (hbook : book.Within c) {version : Nat}
    (hversion : version ≤ changes.length) (hcontent : book.content = contentAfter changes version)
    (nowUs exchangeTs : Nat) (hash : Option String) :
    Listed c changes (checkpointFromRest a book nowUs exchangeTs hash) version := by
  obtain ⟨hbids, hasks, hlisted⟩ := hbook.listed
  have hmap : ∀ l : List (FixedPrice × FixedSize),
      (l.map fun x => (⟨x.1, x.2⟩ : PriceLevel)).map (fun x => (x.price, x.size)) = l := by
    intro l
    rw [List.map_map]
    exact List.map_id l
  refine ⟨rfl, hversion, ?_, ?_, ?_⟩
  · simpa only [checkpointFromRest, hmap] using hbids
  · simpa only [checkpointFromRest, hmap] using hasks
  · simpa only [checkpointFromRest, hmap] using hlisted.trans hcontent

/-- A checkpoint the asset takes leaves the venue's book of its version. -/
theorem Listed.applyCheckpoint {checkpoint : BookCheckpoint} {version : Nat}
    (h : Listed c changes checkpoint version) (hn : n ≤ version) (state : AssetState) :
    Held c changes n (state.applyCheckpoint checkpoint).book ∧
      (state.applyCheckpoint checkpoint).initializedFromSnapshot = true := by
  obtain ⟨next, hnext, hwithin, hcontent⟩ := L2Book.tryApplySnapshot_within h.bids h.asks
    state.book 0 checkpoint.checkpointTimestampUs
  simp only [AssetState.applyCheckpoint, hnext]
  rw [AssetState.checkBookIntegrity_book, AssetState.checkBookIntegrity_initialized]
  refine ⟨⟨hwithin, ?_⟩, rfl⟩
  rw [hcontent, h.content]
  refine Ahead.of_take hn ?_
  rw [List.length_map]
  exact h.le_length

/-- A checkpoint between two changes. -/
theorem Follows.checkpoint (h : Follows c changes v n []) {checkpoint : BookCheckpoint}
    {version : Nat} (hlisted : Listed c changes checkpoint version) (hn : n ≤ version) :
    Follows c changes (v.apply a (.checkpoint checkpoint)) n [] ∧
      ((v.apply a (.checkpoint checkpoint)).stateD a).initializedFromSnapshot = true := by
  have hbefore : v.before a (.checkpoint checkpoint) = v.flush a := by
    cases hp : v.pending with
    | none => rw [AssetView.before_of_pending_none a hp, AssetView.flush_of_pending_none a hp]
    | some p => simp [AssetView.before, hp, AssetView.ends]
  have hown : ∀ w : AssetView, w.pending = none →
      (w.own a (.checkpoint checkpoint)).pending = none := by
    intro w hw
    unfold AssetView.own
    dsimp only
    split <;> exact hw
  have hpending : (v.apply a (.checkpoint checkpoint)).pending = none := by
    rw [AssetView.apply, hbefore]
    exact hown _ (AssetView.flush_pending a v)
  have hstate : (((v.flush a).stateD a).initializedFromSnapshot = true ∧
        v.apply a (.checkpoint checkpoint) = v.flush a) ∨
      v.apply a (.checkpoint checkpoint) =
        (v.flush a).setState (((v.flush a).stateD a).applyCheckpoint checkpoint) := by
    rw [AssetView.apply, hbefore]
    simp only [AssetView.own]
    split
    · exact Or.inr rfl
    · rename_i hnot
      refine Or.inl ⟨?_, rfl⟩
      simpa [hlisted.assetId] using hnot
  cases h with
  | between key held =>
      obtain ⟨hinit, hself⟩ | hset := hstate
      · refine ⟨.between (fun p hp => ?_) fun _ => ?_, ?_⟩
        · rw [hpending] at hp
          cases hp
        · rw [hself, AssetView.flush_flush]
          exact held hinit
        · rw [hself]
          exact hinit
      · obtain ⟨happlied, hinit⟩ := hlisted.applyCheckpoint hn ((v.flush a).stateD a)
        refine ⟨.between (fun p hp => ?_) fun _ => ?_, ?_⟩
        · rw [hpending] at hp
          cases hp
        · rw [AssetView.flush_of_pending_none a hpending, hset]
          exact happlied
        · rw [hset]
          exact hinit

/-! ## What is delivered in order -/

/-- The book records among what is sent. -/
def books (xs : List Sent) : List Sent := xs.filter fun x => (bookRecord x.record).isSome

/-- The book records of two streams. -/
theorem books_append (xs ys : List Sent) : books (xs ++ ys) = books xs ++ books ys :=
  List.filter_append ..

/-- The records of the changes, the first of them change number `k + 1`. -/
def numbered : Nat → List (VenueChange a) → List Sent
  | _, [] => []
  | k, m :: changes => m.events.map (fun e => ⟨.book e, k + 1⟩) ++ numbered (k + 1) changes

/-- The records of two parts of the history, numbered on. -/
theorem numbered_append (k : Nat) (xs ys : List (VenueChange a)) :
    numbered k (xs ++ ys) = numbered k xs ++ numbered (k + xs.length) ys := by
  induction xs generalizing k with
  | nil => rfl
  | cons m xs ih =>
      rw [List.cons_append, numbered, numbered, ih, List.append_assoc, List.length_cons,
        Nat.add_right_comm, Nat.add_assoc]

/-- The records of the history, before a change, of it and after. -/
theorem numbered_split {m : VenueChange a} (hm : changes[n]? = some m) :
    numbered 0 changes = numbered 0 (changes.take n) ++
      (m.events.map (fun e => ⟨.book e, n + 1⟩) ++ numbered (n + 1) (changes.drop (n + 1))) := by
  obtain ⟨hlt, hget⟩ := List.getElem?_eq_some_iff.mp hm
  conv_lhs => rw [← List.take_append_drop n changes]
  rw [numbered_append, List.length_take, Nat.min_eq_left (Nat.le_of_lt hlt), Nat.zero_add,
    List.drop_eq_getElem_cons hlt, hget]
  rfl

/-- A record of a change carries the version that the change made. -/
theorem mem_numbered {k : Nat} {m : VenueChange a} (hm : changes[k]? = some m) {e : BookEvent}
    (he : e ∈ m.events) : (⟨.book e, k + 1⟩ : Sent) ∈ numbered 0 changes := by
  rw [numbered_split hm]
  exact List.mem_append_right _ (List.mem_append_left _ (List.mem_map_of_mem he))

/-- The records are those of the first `n` changes and a part of the next, in
order, and every checkpoint among them comes between two changes that it covers. -/
inductive Delivered (c : Capacity) (changes : List (VenueChange a)) :
    List Sent → Nat → List BookEvent → Prop
  | nil : Delivered c changes [] 0 []
  | within {xs : List Sent} {n : Nat} {seen : List BookEvent}
      (before : Delivered c changes xs n seen) {m : VenueChange a} {e next : BookEvent}
      {rest : List BookEvent}
      (change : changes[n]? = some m) (events : m.events = seen ++ e :: next :: rest) :
      Delivered c changes (xs ++ [⟨.book e, n + 1⟩]) n (seen ++ [e])
  | last {xs : List Sent} {n : Nat} {seen : List BookEvent} (before : Delivered c changes xs n seen)
      {m : VenueChange a} {e : BookEvent} (change : changes[n]? = some m)
      (events : m.events = seen ++ [e]) : Delivered c changes (xs ++ [⟨.book e, n + 1⟩]) (n + 1) []
  | checkpoint {xs : List Sent} {n : Nat} (before : Delivered c changes xs n [])
      {checkpoint : BookCheckpoint} {version : Nat} (covers : n ≤ version)
      (listed : Listed c changes checkpoint version) :
      Delivered c changes (xs ++ [⟨.checkpoint checkpoint, version⟩]) n []

variable {xs : List Sent} {seen : List BookEvent}

/-- A checkpoint still lists its version when the history goes on. -/
theorem Listed.mono {checkpoint : BookCheckpoint} {version : Nat}
    (h : Listed c changes checkpoint version) (more : List (VenueChange a)) :
    Listed c (changes ++ more) checkpoint version := by
  refine ⟨h.assetId, ?_, h.bids, h.asks, ?_⟩
  · rw [List.length_append]
    exact Nat.le_add_right_of_le h.le_length
  · rw [h.content, contentAfter, contentAfter, List.map_append, List.take_append_of_le_length]
    rw [List.length_map]
    exact h.le_length

/-- What was delivered is still so when the history goes on. -/
theorem Delivered.mono (h : Delivered c changes xs n seen) (more : List (VenueChange a)) :
    Delivered c (changes ++ more) xs n seen := by
  have hget : ∀ {k : Nat} {m : VenueChange a}, changes[k]? = some m →
      (changes ++ more)[k]? = some m := by
    intro k m hm
    rw [List.getElem?_append_left (List.getElem?_eq_some_iff.mp hm).1]
    exact hm
  induction h with
  | nil => exact .nil
  | within before change events ih => exact .within ih (hget change) events
  | last before change events ih => exact .last ih (hget change) events
  | checkpoint before covers listed ih => exact .checkpoint ih covers (listed.mono more)

/-- What is delivered in part is the front of one change. -/
theorem Delivered.seen_prefix (h : Delivered c changes xs n seen) (hseen : seen ≠ []) :
    ∃ m e rest, changes[n]? = some m ∧ m.events = seen ++ e :: rest := by
  cases h with
  | nil => exact (hseen rfl).elim
  | within before change events =>
      exact ⟨_, _, _, change, by rw [events, List.append_assoc]; rfl⟩
  | last before change events => exact (hseen rfl).elim
  | checkpoint before covers listed => exact (hseen rfl).elim

/-- No more changes are delivered than there are. -/
theorem Delivered.le_length (h : Delivered c changes xs n seen) : n ≤ changes.length := by
  induction h with
  | nil => exact Nat.zero_le _
  | within before change events ih => exact ih
  | last before change events ih => exact (List.getElem?_eq_some_iff.mp change).1
  | checkpoint before covers listed ih => exact ih

/-- The book records are those up to the position. -/
theorem Delivered.books_eq (h : Delivered c changes xs n seen) :
    books xs = numbered 0 (changes.take n) ++ seen.map fun e => ⟨.book e, n + 1⟩ := by
  induction h with
  | nil => rfl
  | within before change events ih =>
      rw [books_append, ih, List.map_append, List.append_assoc]
      rfl
  | @last xs n seen before m e change events ih =>
      have hlen : (changes.take n).length = n := by
        rw [List.length_take]
        exact Nat.min_eq_left before.le_length
      rw [books_append, ih, List.take_add_one, change, Option.toList_some, numbered_append, hlen,
        Nat.zero_add, numbered, numbered, events, List.map_append]
      simp [books, bookRecord]
  | checkpoint before covers listed ih =>
      rw [books_append, ih]
      simp [books, bookRecord]

/-- **The next book record** is the next of the change at the position. -/
theorem Delivered.next (h : Delivered c changes xs n seen) {x : Sent} {rest : List Sent}
    (hrest : books xs ++ x :: rest = numbered 0 changes) :
    ∃ m e tail, changes[n]? = some m ∧ m.events = seen ++ e :: tail ∧ x = ⟨.book e, n + 1⟩ := by
  have hchange : ∃ m e tail, changes[n]? = some m ∧ m.events = seen ++ e :: tail := by
    by_cases hseen : seen = []
    · subst hseen
      have hlt : n < changes.length := by
        refine Nat.lt_of_le_of_ne h.le_length fun hn => ?_
        rw [h.books_eq, hn, List.take_length, List.map_nil, List.append_nil] at hrest
        have hlen := congrArg List.length hrest
        rw [List.length_append, List.length_cons] at hlen
        omega
      exact ⟨changes[n], changes[n].first, changes[n].rest, List.getElem?_eq_getElem hlt, rfl⟩
    · exact h.seen_prefix hseen
  obtain ⟨m, e, tail, hm, hevents⟩ := hchange
  refine ⟨m, e, tail, hm, hevents, ?_⟩
  rw [h.books_eq, numbered_split hm, List.append_assoc, List.append_cancel_left_eq, hevents,
    List.map_append, List.append_assoc, List.append_cancel_left_eq] at hrest
  exact (List.cons.inj hrest).1

/-- Nothing is missing once all the records are there. -/
theorem Delivered.done (h : Delivered c changes xs n seen) (hall : books xs = numbered 0 changes) :
    n = changes.length ∧ seen = [] := by
  have hne : ∀ m, changes[n]? = some m → (∃ e rest, m.events = seen ++ e :: rest) → False := by
    rintro m hm ⟨e, rest, hevents⟩
    rw [h.books_eq, numbered_split hm, List.append_cancel_left_eq, hevents, List.map_append,
      List.append_assoc, List.self_eq_append_right] at hall
    simp at hall
  have hseen : seen = [] := by
    by_contra hseen
    obtain ⟨m, e, rest, hm, hevents⟩ := h.seen_prefix hseen
    exact hne m hm ⟨e, rest, hevents⟩
  refine ⟨Nat.le_antisymm h.le_length (Nat.le_of_not_lt fun hlt => ?_), hseen⟩
  exact hne _ (List.getElem?_eq_getElem hlt) ⟨_, _, by rw [hseen]; rfl⟩

/-- No record is of a later version than what was delivered. -/
theorem Delivered.version_le (h : Delivered c changes xs n []) {x : Sent} (hx : x ∈ books xs) :
    x.version ≤ n := by
  rw [h.books_eq, List.map_nil, List.append_nil] at hx
  have hle : ∀ (k : Nat) (ms : List (VenueChange a)), x ∈ numbered k ms →
      x.version ≤ k + ms.length := by
    intro k ms
    induction ms generalizing k with
    | nil => intro hmem; cases hmem
    | cons m ms ih =>
        intro hmem
        rw [List.length_cons]
        obtain hmem | hmem := List.mem_append.mp hmem
        · obtain ⟨e, -, rfl⟩ := List.mem_map.mp hmem
          dsimp only
          omega
        · have := ih (k + 1) hmem
          omega
  have := hle 0 _ hx
  rw [List.length_take] at this
  omega

/-- **The replay of everything follows the venue.** -/
theorem Delivered.follows (h : Delivered c changes xs n seen) (hchanges : Dispatched c changes) :
    Follows c changes (AssetView.empty.applyAll a (xs.map Sent.record)) n seen := by
  induction h with
  | nil =>
      refine .between (fun p hp => ?_) fun hinit => ?_
      · cases hp
      · cases hinit
  | within before change events ih =>
      rw [List.map_append, AssetView.applyAll_append]
      exact ih.book_within hchanges change events
  | last before change events ih =>
      rw [List.map_append, AssetView.applyAll_append]
      exact ih.book_last hchanges change events
  | checkpoint before covers listed ih =>
      rw [List.map_append, AssetView.applyAll_append]
      exact (ih.checkpoint listed covers).1

/-! ## The replay from a checkpoint -/

/-- The last element is the one looked for, or comes after it. -/
theorem concat_eq_append_cons {α : Type} {xs before after : List α} {x y : α}
    (h : xs ++ [y] = before ++ x :: after) :
    (after = [] ∧ xs = before ∧ y = x) ∨
      ∃ init, after = init ++ [y] ∧ xs = before ++ x :: init := by
  obtain rfl | ⟨init, z, rfl⟩ := List.eq_nil_or_concat after
  · obtain ⟨hxs, hy⟩ := List.append_inj' h rfl
    exact Or.inl ⟨rfl, hxs, by simpa using hy⟩
  · rw [List.concat_eq_append, ← List.cons_append, ← List.append_assoc] at h
    obtain ⟨hxs, hy⟩ := List.append_inj' h rfl
    obtain rfl : y = z := by simpa using hy
    exact Or.inr ⟨init, List.concat_eq_append, hxs⟩

/-- The asset after the first step of hydration. -/
def hydratedView (a : AssetId) (checkpoint : BookCheckpoint) : AssetView :=
  AssetView.empty.setState ((AssetState.new a).applyCheckpoint checkpoint)

/-- **The replay from a checkpoint follows the venue** as well, and it skips only
changes that the checkpoint covers. -/
theorem Delivered.split (h : Delivered c changes xs n seen) (hchanges : Dispatched c changes)
    {before after : List Sent} {checkpoint : BookCheckpoint} {version : Nat}
    (hxs : xs = before ++ ⟨.checkpoint checkpoint, version⟩ :: after) :
    ∃ k, Delivered c changes before k [] ∧ k ≤ version ∧ k ≤ n ∧
      Listed c changes checkpoint version ∧ (∀ x ∈ books after, k < x.version) ∧
      Follows c changes ((hydratedView a checkpoint).applyAll a
        (.checkpoint checkpoint :: after.map Sent.record)) n seen := by
  have hrecord : ∀ {k : Nat} {e : BookEvent} {n : Nat} {init : List Sent}, k ≤ n →
      (∀ x ∈ books init, k < x.version) →
      ∀ x ∈ books (init ++ [⟨.book e, n + 1⟩]), k < x.version := by
    intro k e n init hkn hinit x hx
    rw [books_append] at hx
    obtain hx | hx := List.mem_append.mp hx
    · exact hinit x hx
    · obtain rfl : x = ⟨.book e, n + 1⟩ := by simpa [books, bookRecord] using hx
      exact Nat.lt_succ_of_le hkn
  induction h generalizing after with
  | nil => simp at hxs
  | within start change events ih =>
      obtain ⟨-, -, heq⟩ | ⟨init, rfl, hinit⟩ := concat_eq_append_cons hxs
      · cases heq
      · obtain ⟨k, hbefore, hk, hkn, hlisted, hversions, hfollows⟩ := ih hinit
        refine ⟨k, hbefore, hk, hkn, hlisted, hrecord hkn hversions, ?_⟩
        rw [List.map_append, ← List.cons_append, AssetView.applyAll_append]
        exact hfollows.book_within hchanges change events
  | last start change events ih =>
      obtain ⟨-, -, heq⟩ | ⟨init, rfl, hinit⟩ := concat_eq_append_cons hxs
      · cases heq
      · obtain ⟨k, hbefore, hk, hkn, hlisted, hversions, hfollows⟩ := ih hinit
        refine ⟨k, hbefore, hk, Nat.le_succ_of_le hkn, hlisted, hrecord hkn hversions, ?_⟩
        rw [List.map_append, ← List.cons_append, AssetView.applyAll_append]
        exact hfollows.book_last hchanges change events
  | @checkpoint xs n start _ _ covers listed ih =>
      obtain ⟨rfl, rfl, heq⟩ | ⟨init, rfl, hinit⟩ := concat_eq_append_cons hxs
      · cases heq
        refine ⟨n, start, covers, Nat.le_refl n, listed, fun x hx => (nomatch hx), ?_⟩
        have hstart : Follows c changes (hydratedView a checkpoint) n [] :=
          .between (fun p hp => (nomatch hp)) fun _ => (listed.applyCheckpoint covers _).1
        exact (hstart.checkpoint listed covers).1
      · obtain ⟨k, hbefore, hk, hkn, hlisted, hversions, hfollows⟩ := ih hinit
        refine ⟨k, hbefore, hk, hkn, hlisted, fun x hx => ?_, ?_⟩
        · rw [books_append] at hx
          obtain hx | hx := List.mem_append.mp hx
          · exact hversions x hx
          · simp [books, bookRecord] at hx
        · rw [List.map_append, ← List.cons_append, AssetView.applyAll_append]
          exact (hfollows.checkpoint listed covers).1

/-- An asset that has followed the whole history holds the venue's book. -/
theorem Follows.content_eq (h : Follows c changes v changes.length [])
    (hinit : (v.stateD a).initializedFromSnapshot = true) :
    ((v.flush a).stateD a).book.content = contentAfter changes changes.length := by
  cases h with
  | between key held =>
      have hflush : ((v.flush a).stateD a).initializedFromSnapshot = true := by
        rw [AssetView.stateD_flush_initialized, hinit, Bool.true_or]
      obtain ⟨-, hahead⟩ := held hflush
      have hlen : changes.length = (changes.map VenueChange.write).length :=
        (List.length_map VenueChange.write).symm
      rw [contentAfter, hlen, List.take_length]
      rw [hlen] at hahead
      exact hahead.eq_of_length

/-- **Both replays end in the venue's book.** -/
theorem Delivered.same_levels (h : Delivered c changes xs changes.length [])
    (hchanges : Dispatched c changes) {before after : List Sent} {checkpoint : BookCheckpoint}
    {version : Nat} (hxs : xs = before ++ ⟨.checkpoint checkpoint, version⟩ :: after) :
    ((((hydratedView a checkpoint).applyAll a
        (.checkpoint checkpoint :: after.map Sent.record)).flush a).stateD a).book.levels =
      (((AssetView.empty.applyAll a (xs.map Sent.record)).flush a).stateD a).book.levels := by
  obtain ⟨k, hbefore, hk, -, hlisted, -, hfollows⟩ := h.split hchanges hxs
  have hhydrated : (((hydratedView a checkpoint).applyAll a
      (.checkpoint checkpoint :: after.map Sent.record)).stateD a).initializedFromSnapshot = true :=
    AssetView.applyAll_initialized a _ (hlisted.applyCheckpoint hk _).2
  have hreplayed : ((AssetView.empty.applyAll a
      (xs.map Sent.record)).stateD a).initializedFromSnapshot = true := by
    rw [hxs, List.map_append, AssetView.applyAll_append, List.map_cons, AssetView.applyAll_cons]
    exact AssetView.applyAll_initialized a _ ((hbefore.follows hchanges).checkpoint hlisted hk).2
  refine L2Book.levels_eq_of_content_eq ?_
  rw [hfollows.content_eq hhydrated, (h.follows hchanges).content_eq hreplayed]

end Ingest

end PolyBook
