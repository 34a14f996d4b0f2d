import PolyBook.CheckpointAcceleration

/-!
# The cuts of a checkpoint, exactly

Where the two cuts of a checkpoint disagree there is a feed with the same times
for which the reconstruction shows it: one of its changes writes a size to a
price that no other change touches, and is in one of the two books only.
`reconstructAt_checkpoint_iff` puts this together with what
`PolyBook.CheckpointAcceleration` shows where they agree.
-/

namespace PolyBook

open Overwrite Ingest

/-- The price the marked change writes to. -/
def markedPrice : FixedPrice := ⟨5000, by decide⟩

/-- The size it writes. -/
def markedSize : FixedSize := ⟨1, by decide⟩

/-- The price all others write a zero size to. -/
def blankPrice : FixedPrice := ⟨0, by decide⟩

/-- The size that removes a level. -/
def blankSize : FixedSize := ⟨0, by decide⟩

/-- The level that the recast feed shows where the marked state is in effect. -/
def markedKey : Side × FixedPrice := (.bid, markedPrice)

/-- The same record with the given level on the bid side. -/
def BookEvent.relevel (level : FixedPrice × FixedSize) (event : BookEvent) : BookEvent :=
  { event with side := .bid, price := level.1, size := level.2 }

namespace VenueChange

variable {a : AssetId}

/-- The place of a change in the order of arrival. -/
def key (m : VenueChange a) : Nat := ordinalKey m.first

/-- The same change with one level in it. -/
def relevel (level : VenueChange a → FixedPrice × FixedSize) (m : VenueChange a) :
    VenueChange a where
  kind := m.kind
  first := m.first.relevel (level m)
  rest := []
  assetId := by
    intro e he
    obtain rfl := List.mem_singleton.mp he
    exact m.assetId m.first List.mem_cons_self
  kinds := by
    intro e he
    obtain rfl := List.mem_singleton.mp he
    exact m.kinds m.first List.mem_cons_self
  oneGroup := fun _ he => absurd he List.not_mem_nil
  single := fun _ => rfl

variable (m : VenueChange a) (level : VenueChange a → FixedPrice × FixedSize)

@[simp] theorem relevel_kind : (m.relevel level).kind = m.kind := rfl

@[simp] theorem relevel_recvTs : (m.relevel level).recvTs = m.recvTs := rfl

@[simp] theorem relevel_exchangeTs : (m.relevel level).exchangeTs = m.exchangeTs := rfl

@[simp] theorem relevel_orderingTs (mode : ReplayMode) :
    (m.relevel level).orderingTs mode = m.orderingTs mode := by cases mode <;> rfl

@[simp] theorem relevel_snapshotAt (mode : ReplayMode) (time : Nat) :
    (m.relevel level).snapshotAt mode time = m.snapshotAt mode time := by cases mode <;> rfl

/-- A relevelled change carries one record. -/
theorem relevel_events : (m.relevel level).events = [m.first.relevel (level m)] := rfl

end VenueChange

/-- The level of a recast change: the marked one, or nothing. -/
def recastLevel {a : AssetId} (k : Nat) (m : VenueChange a) : FixedPrice × FixedSize :=
  if m.key = k then (markedPrice, markedSize) else (blankPrice, blankSize)

/-- The same change with nothing in it, or with the marked level. -/
def VenueChange.recast {a : AssetId} (k : Nat) (m : VenueChange a) : VenueChange a :=
  m.relevel (recastLevel k)

namespace VenueChange

variable {a : AssetId} (k : Nat) (m : VenueChange a)

@[simp] theorem recast_kind : (m.recast k).kind = m.kind := rfl

@[simp] theorem recast_recvTs : (m.recast k).recvTs = m.recvTs := rfl

@[simp] theorem recast_exchangeTs : (m.recast k).exchangeTs = m.exchangeTs := rfl

@[simp] theorem recast_orderingTs (mode : ReplayMode) :
    (m.recast k).orderingTs mode = m.orderingTs mode := by cases mode <;> rfl

@[simp] theorem recast_snapshotAt (mode : ReplayMode) (time : Nat) :
    (m.recast k).snapshotAt mode time = m.snapshotAt mode time := by cases mode <;> rfl

end VenueChange

section Groups

variable {a : AssetId} {k : Nat} {group : List (VenueChange a)}

/-- A snapshot level of zero size is skipped. -/
theorem foldlM_snapshotLevel_zeros {cmp : FixedPrice → FixedPrice → Ordering} [Std.TransCmp cmp]
    {levels : List (FixedPrice × FixedSize)} (h : ∀ l ∈ levels, l.2.isZero = true)
    (acc : SideLevels cmp × Nat) : levels.foldlM snapshotLevel acc = some acc := by
  induction levels with
  | nil => rfl
  | cons l rest ih =>
      have hl : snapshotLevel acc l = some acc := if_pos (h l List.mem_cons_self)
      rw [List.foldlM_cons, hl]
      exact ih fun l' hl' => h l' (List.mem_cons_of_mem _ hl')

variable (level : VenueChange a → FixedPrice × FixedSize)

/-- The records of a relevelled group, one a change. -/
theorem flatMap_relevel (group : List (VenueChange a)) :
    (group.map (·.relevel level)).flatMap (·.events) =
      group.map fun m => m.first.relevel (level m) := by
  induction group with
  | nil => rfl
  | cons m rest ih =>
      rw [List.map_cons, List.flatMap_cons, ih, VenueChange.relevel_events]
      rfl

/-- A relevelled group lists its levels on the bid side. -/
theorem eventLevels_relevel (group : List (VenueChange a)) :
    eventLevels .bid ((group.map (·.relevel level)).flatMap (·.events)) = group.map level ∧
      eventLevels .ask ((group.map (·.relevel level)).flatMap (·.events)) = [] := by
  rw [flatMap_relevel]
  constructor
  · rw [eventLevels, List.filter_eq_self.mpr, List.map_map]
    · rfl
    · intro e he
      obtain ⟨m, _, rfl⟩ := List.mem_map.mp he
      rfl
  · rw [eventLevels, List.filter_eq_nil_iff.mpr]
    · rfl
    · intro e he
      obtain ⟨m, _, rfl⟩ := List.mem_map.mp he
      simp [BookEvent.relevel]

/-- A recast group lists the marked level and blank ones. -/
theorem eventLevels_recast (group : List (VenueChange a)) :
    eventLevels .bid ((group.map (·.recast k)).flatMap (·.events)) = group.map (recastLevel k) ∧
      eventLevels .ask ((group.map (·.recast k)).flatMap (·.events)) = [] :=
  eventLevels_relevel (recastLevel k) group

/-- The levels of unmarked changes are skipped. -/
theorem foldlM_recastLevel {changes : List (VenueChange a)} (h : ∀ m ∈ changes, m.key ≠ k)
    (acc : BidLevels × Nat) :
    (changes.map (recastLevel k)).foldlM snapshotLevel acc = some acc := by
  refine foldlM_snapshotLevel_zeros (fun l hl => ?_) acc
  obtain ⟨m, hm, rfl⟩ := List.mem_map.mp hl
  rw [recastLevel, if_neg (h m hm)]
  rfl

/-- A group without the marked change has nothing at its price. -/
theorem groupContent_unmarked (h : ∀ m ∈ group, m.key ≠ k) :
    groupContent (group.map (·.recast k)) markedKey = none := by
  have hbids : (snapshotSide (group.map (recastLevel k)) : Option (BidLevels × Nat)) =
      some (∅, 0) := foldlM_recastLevel h _
  rw [groupContent, (eventLevels_recast group).1]
  simp [listedContent, markedKey, hbids]

/-- A group with the marked change has its size. -/
theorem groupContent_marked (before after : List (VenueChange a)) {m : VenueChange a}
    (hm : m.key = k) (hbefore : ∀ n ∈ before, n.key ≠ k) (hafter : ∀ n ∈ after, n.key ≠ k) :
    groupContent ((before ++ m :: after).map (·.recast k)) markedKey = some markedSize := by
  have hmarked : snapshotLevel ((∅, 0) : BidLevels × Nat) (recastLevel k m) =
      some ((∅ : BidLevels).insert markedPrice markedSize, 1) := by
    rw [recastLevel, if_pos hm]
    decide +kernel
  have hbids : (snapshotSide ((before ++ m :: after).map (recastLevel k)) :
      Option (BidLevels × Nat)) = some ((∅ : BidLevels).insert markedPrice markedSize, 1) := by
    rw [snapshotSide, List.map_append, List.map_cons, List.foldlM_append,
      foldlM_recastLevel hbefore]
    simp only [Option.bind_eq_bind, Option.bind_some, List.foldlM_cons, hmarked]
    exact foldlM_recastLevel hafter _
  rw [groupContent, (eventLevels_recast _).1]
  simp only [listedContent, markedKey, hbids, Option.bind_some]
  exact Std.ExtTreeMap.getElem?_insert_self

end Groups

section Words

variable {a : AssetId} {k : Nat}

/-- What the recast changes write, one after the other. -/
def recastWrites (k : Nat) (changes : List (VenueChange a)) (f : BookContent) : BookContent :=
  writes f ((changes.map (·.recast k)).map VenueChange.write)

/-- Recast changes written in two parts. -/
theorem recastWrites_append (before after : List (VenueChange a)) (f : BookContent) :
    recastWrites k (before ++ after) f = recastWrites k after (recastWrites k before f) := by
  simp only [recastWrites, List.map_append, writes_append]

/-- Recast changes written one by one. -/
theorem recastWrites_cons (m : VenueChange a) (rest : List (VenueChange a)) (f : BookContent) :
    recastWrites k (m :: rest) f = recastWrites k rest ((m.recast k).write.run f) := rfl

/-- A recast snapshot replaces everything by what it lists. -/
theorem write_snapshot {m : VenueChange a} (hk : m.kind = .snapshot) :
    (m.recast k).write = .all (groupContent ([m].map (·.recast k))) := by
  rw [VenueChange.write, VenueChange.recast_kind, hk]
  simp only [groupContent, List.map_cons, List.map_nil, List.flatMap_singleton]

/-- The marked change leaves its size. -/
theorem write_marked {m : VenueChange a} (hm : m.key = k) (f : BookContent) :
    (m.recast k).write.run f markedKey = some markedSize := by
  cases hk : m.kind with
  | snapshot =>
      rw [write_snapshot hk]
      exact groupContent_marked [] [] hm (List.forall_mem_nil _) (List.forall_mem_nil _)
  | delta =>
      rw [VenueChange.write, VenueChange.recast_kind, hk]
      simp only [VenueChange.recast, VenueChange.relevel, BookEvent.write, BookEvent.relevel,
        recastLevel, hm, if_true, Write.run, markedKey, Function.update_self]
      rfl

/-- Another level change leaves the marked price alone. -/
theorem write_unmarked_delta {m : VenueChange a} (hm : m.key ≠ k) (hk : m.kind = .delta)
    (f : BookContent) : (m.recast k).write.run f markedKey = f markedKey := by
  rw [VenueChange.write, VenueChange.recast_kind, hk]
  simp only [VenueChange.recast, VenueChange.relevel, BookEvent.write, BookEvent.relevel,
    recastLevel, hm, if_false, Write.run, markedKey]
  exact Function.update_of_ne (by decide) _ _

/-- Another book message clears it. -/
theorem write_unmarked_snapshot {m : VenueChange a} (hm : m.key ≠ k) (hk : m.kind = .snapshot)
    (f : BookContent) : (m.recast k).write.run f markedKey = none := by
  rw [write_snapshot hk]
  exact groupContent_unmarked fun n hn => List.mem_singleton.mp hn ▸ hm

/-- Level changes that are not marked leave the marked level alone. -/
theorem recastWrites_deltas {changes : List (VenueChange a)} (hunmarked : ∀ m ∈ changes, m.key ≠ k)
    (hdeltas : ∀ m ∈ changes, m.kind = .delta) (f : BookContent) :
    recastWrites k changes f markedKey = f markedKey := by
  induction changes generalizing f with
  | nil => rfl
  | cons m rest ih =>
      rw [recastWrites_cons, ih (fun n hn => hunmarked n (List.mem_cons_of_mem _ hn))
        (fun n hn => hdeltas n (List.mem_cons_of_mem _ hn)),
        write_unmarked_delta (hunmarked m List.mem_cons_self) (hdeltas m List.mem_cons_self)]

/-- Changes that are not marked do not bring the marked level about. -/
theorem recastWrites_unmarked {changes : List (VenueChange a)}
    (hunmarked : ∀ m ∈ changes, m.key ≠ k) {f : BookContent} (hf : f markedKey = none) :
    recastWrites k changes f markedKey = none := by
  induction changes generalizing f with
  | nil => exact hf
  | cons m rest ih =>
      rw [recastWrites_cons]
      refine ih (fun n hn => hunmarked n (List.mem_cons_of_mem _ hn)) ?_
      have hm := hunmarked m List.mem_cons_self
      cases hk : m.kind with
      | snapshot => exact write_unmarked_snapshot hm hk f
      | delta => rw [write_unmarked_delta hm hk, hf]

/-- A book message after the marked change clears it. -/
theorem recastWrites_cleared {before after : List (VenueChange a)} {s : VenueChange a}
    (hk : s.kind = .snapshot) (hs : s.key ≠ k) (hafter : ∀ m ∈ after, m.key ≠ k)
    (f : BookContent) : recastWrites k (before ++ s :: after) f markedKey = none := by
  rw [recastWrites_append, recastWrites_cons]
  exact recastWrites_unmarked hafter (write_unmarked_snapshot hs hk _)

/-- The marked change, with level changes after it only. -/
theorem recastWrites_marked {before after : List (VenueChange a)} {m : VenueChange a}
    (hm : m.key = k) (hafter : ∀ n ∈ after, n.key ≠ k) (hdeltas : ∀ n ∈ after, n.kind = .delta)
    (f : BookContent) : recastWrites k (before ++ m :: after) f markedKey = some markedSize := by
  rw [recastWrites_append, recastWrites_cons, recastWrites_deltas hafter hdeltas, write_marked hm]

end Words

/-- A book of what the venue has made at a time. -/
theorem exists_venueBook {a : AssetId} {feed : VenueFeed a} {c : Capacity} (h : feed.Within c)
    (exchange : Nat) : ∃ book : L2Book, book.Within c ∧
      book.content = contentAfter feed.changes (feed.version exchange) := by
  have hbook : ∀ changes : List (VenueChange a), (∀ m ∈ changes, c.AdmitsEvents m.events) →
      ∃ book : L2Book, book.Within c ∧
        book.content = writes (fun _ => none) (changes.map VenueChange.write) := by
    intro changes
    induction changes using List.reverseRecOn with
    | nil =>
        refine fun _ => ⟨L2Book.new a, .new c a, funext fun k => ?_⟩
        obtain ⟨side, price⟩ := k
        cases side <;> simp [L2Book.content, L2Book.new]
    | append_singleton changes m ih =>
        intro hchanges
        obtain ⟨book, hbook, hcontent⟩ := ih fun n hn => hchanges n (List.mem_append_left _ hn)
        obtain ⟨next, _, hnext, hwrite⟩ := m.apply_within
          (hchanges m (List.mem_append_right _ (List.mem_singleton_self m))) hbook
        refine ⟨next, hnext, ?_⟩
        rw [hwrite, hcontent, List.map_append, writes_append]
        rfl
  obtain ⟨book, hwithin, hcontent⟩ := hbook (feed.changes.take (feed.version exchange))
    fun m hm => h m (List.mem_of_mem_take hm)
  refine ⟨book, hwithin, ?_⟩
  rw [hcontent, contentAfter, List.map_take]

/-- The REST book of that time is a checkpoint of it. -/
theorem captured_checkpointFromRest {a : AssetId} {feed : VenueFeed a} {c : Capacity}
    (times : CheckpointTimes) {book : L2Book} (hwithin : book.Within c)
    (hcontent : book.content = contentAfter feed.changes (feed.version times.exchange)) :
    Captured c feed times (checkpointFromRest a book times.recv times.exchange none) :=
  ⟨rfl, rfl, rfl, listed_checkpointFromRest hwithin List.countP_le_length hcontent _ _ _⟩

/-- The venue's book can be captured at any time. -/
theorem exists_captured {a : AssetId} {feed : VenueFeed a} {c : Capacity} (h : feed.Within c)
    (times : CheckpointTimes) : ∃ checkpoint, Captured c feed times checkpoint := by
  obtain ⟨book, hwithin, hcontent⟩ := exists_venueBook h times.exchange
  exact ⟨_, captured_checkpointFromRest times hwithin hcontent⟩

namespace VenueFeed

variable {a : AssetId} (feed : VenueFeed a)

/-- The changes arrive in the order of their keys. -/
theorem key_pairwise : feed.changes.Pairwise fun m n => m.key < n.key := by
  refine (List.pairwise_flatMap.mp feed.ordinals).2.imp ?_
  intro m n h
  exact h m.first List.mem_cons_self n.first List.mem_cons_self

/-- A key belongs to one change. -/
theorem eq_of_key_eq {m n : VenueChange a} (hm : m ∈ feed.changes) (hn : n ∈ feed.changes)
    (h : m.key = n.key) : m = n := by
  by_contra hne
  have hdistinct := feed.key_pairwise.imp fun {x y} hlt =>
    (Or.inl hlt : x.key < y.key ∨ y.key < x.key)
  have : Std.Symm fun x y : VenueChange a => x.key < y.key ∨ y.key < x.key := ⟨fun _ _ h => h.symm⟩
  have := hdistinct.forall hm hn hne
  omega

/-- What the venue dates later arrives later. -/
theorem arrives_of_exchangeTs_lt {m n : VenueChange a} (hm : m ∈ feed.changes)
    (hn : n ∈ feed.changes) (h : m.exchangeTs < n.exchangeTs) :
    m.key < n.key ∧ m.recvTs ≤ n.recvTs := by
  have hne : m ≠ n := by
    rintro rfl
    omega
  have hpairs := (feed.key_pairwise.and (feed.received.and feed.dated)).imp fun {x y} h =>
    (Or.inl h : (x.key < y.key ∧ x.recvTs ≤ y.recvTs ∧ x.exchangeTs ≤ y.exchangeTs) ∨
      (y.key < x.key ∧ y.recvTs ≤ x.recvTs ∧ y.exchangeTs ≤ x.exchangeTs))
  have : Std.Symm fun x y : VenueChange a =>
      (x.key < y.key ∧ x.recvTs ≤ y.recvTs ∧ x.exchangeTs ≤ y.exchangeTs) ∨
        (y.key < x.key ∧ y.recvTs ≤ x.recvTs ∧ y.exchangeTs ≤ x.exchangeTs) :=
    ⟨fun _ _ h => h.symm⟩
  have := hpairs.forall hm hn hne
  omega

/-- The feed with one level in every change. -/
def relevel (level : VenueChange a → FixedPrice × FixedSize) : VenueFeed a where
  changes := feed.changes.map (·.relevel level)
  late := by
    intro m hm
    obtain ⟨n, hn, rfl⟩ := List.mem_map.mp hm
    exact feed.late n hn
  received := List.pairwise_map.mpr feed.received
  dated := List.pairwise_map.mpr feed.dated
  ordinals := by
    rw [flatMap_relevel]
    exact List.pairwise_map.mpr feed.key_pairwise

section Relevel

variable (level : VenueChange a → FixedPrice × FixedSize)

/-- Relevelling moves nothing in time. -/
theorem relevel_timing : (feed.relevel level).timing = feed.timing := by
  simp only [timing, relevel, List.map_map]
  rfl

/-- A relevelled feed stays within a capacity that its new levels respect. -/
theorem relevel_within {c : Capacity}
    (h : ∀ m ∈ feed.changes, (level m).2.raw ≤ c.cap .bid (level m).1.raw) :
    (feed.relevel level).Within c := by
  intro m hm e he
  obtain ⟨n, hn, rfl⟩ := List.mem_map.mp hm
  obtain rfl := List.mem_singleton.mp he
  exact h n hn

/-- The window of a relevelled feed is the relevelled window. -/
theorem relevel_seen (start target : Nat) :
    (feed.relevel level).seen start target =
      (feed.seen start target).map (·.relevel level) := by
  simp only [seen, relevel, List.filter_map]
  rfl

/-- The feed, stored. -/
theorem stored_events : Stored feed (feed.events.map .book) where
  books := by
    have hasset : ∀ e ∈ feed.events, bookOf a (.book e) = some e := by
      intro e he
      obtain ⟨m, _, hm⟩ := List.mem_flatMap.mp he
      exact if_pos (m.assetId e hm)
    have hread : feed.events.filterMap (bookOf a ∘ .book) = feed.events.filterMap some :=
      List.filterMap_congr hasset
    rw [List.filterMap_map, hread, List.filterMap_some]
  checkpoints c hc := by
    obtain ⟨e, _, he⟩ := List.mem_map.mp hc
    cases he
  resets e he := by
    obtain ⟨d, _, hd⟩ := List.mem_map.mp he
    cases hd

/-- Each change is one row of a read. -/
theorem relevel_windowFits {start target : Nat}
    (hrows : (feed.seen start target).length ≤ maxParquetDatasetRows) :
    WindowFits a start target ((feed.relevel level).events.map .book) := by
  have hnone : ∀ {T : Type} (take : PersistedRecord → Option T), (∀ e, take (.book e) = none) →
      (((feed.relevel level).events.map .book).filterMap take).length ≤
        maxParquetDatasetRows := by
    intro T take htake
    rw [List.filterMap_eq_nil_iff.mpr fun x hx => by
      obtain ⟨e, -, rfl⟩ := List.mem_map.mp hx
      exact htake e]
    exact Nat.zero_le _
  refine ⟨?_, hnone _ fun _ => rfl, hnone _ fun _ => rfl⟩
  rw [(feed.relevel level).stored_events.length_bookRows, feed.relevel_seen, flatMap_relevel,
    List.length_map]
  exact hrows

/-- The venue's book of a relevelled feed, by what its changes write. -/
theorem relevel_contentAfter (exchange : Nat) :
    contentAfter (feed.relevel level).changes ((feed.relevel level).version exchange) =
      writes (fun _ => none) (((feed.changes.filter fun m => m.exchangeTs ≤ exchange).map
        (·.relevel level)).map VenueChange.write) := by
  rw [contentAfter_version, relevel, List.filter_map]
  rfl

end Relevel

/-- The feed with one change marked, if one has the key. -/
def recast (k : Nat) : VenueFeed a := feed.relevel (recastLevel k)

variable (k : Nat)

/-- Recasting moves nothing in time. -/
theorem recast_timing : (feed.recast k).timing = feed.timing := feed.relevel_timing _

/-- One unit fits at every price. -/
def unit : Capacity := .uniform 1 (by decide)

/-- A recast feed stays within one unit a level. -/
theorem recast_within : (feed.recast k).Within unit := by
  refine feed.relevel_within _ fun m _ => ?_
  unfold recastLevel
  split <;> decide

/-- The window of a recast feed is the recast window. -/
theorem recast_seen (start target : Nat) :
    (feed.recast k).seen start target = (feed.seen start target).map (·.recast k) :=
  feed.relevel_seen _ start target

/-- The recast feed, stored. -/
def recastRecords : List PersistedRecord := (feed.recast k).events.map .book

/-- The recast records store the recast feed. -/
theorem recast_stored : Stored (feed.recast k) (feed.recastRecords k) :=
  (feed.recast k).stored_events

/-- The venue's book of a recast feed, by what its changes write. -/
theorem recast_contentAfter (exchange : Nat) :
    contentAfter (feed.recast k).changes ((feed.recast k).version exchange) =
      recastWrites k (feed.changes.filter fun m => m.exchangeTs ≤ exchange) fun _ => none :=
  feed.relevel_contentAfter _ exchange

end VenueFeed

/-! ## Kinds and times -/

/-- A book message of the given time, by its stamp. -/
def stampedAt (mode : ReplayMode) (time : Nat) (stamp : BookEventKind × Nat × Nat) : Bool :=
  stamp.1 = .snapshot && (match mode with
    | .recvTime => stamp.2.1
    | .exchangeTime => stamp.2.2) = time

namespace VenueChange

variable {a : AssetId} {m n : VenueChange a}

/-- What `timing` keeps of a change. -/
def stamp (m : VenueChange a) : BookEventKind × Nat × Nat := (m.kind, m.recvTs, m.exchangeTs)

/-- Changes with one stamp were received at one time. -/
theorem recvTs_eq (h : m.stamp = n.stamp) : m.recvTs = n.recvTs :=
  congrArg (fun stamp => stamp.2.1) h

/-- Changes with one stamp carry one exchange time. -/
theorem exchangeTs_eq (h : m.stamp = n.stamp) : m.exchangeTs = n.exchangeTs :=
  congrArg (fun stamp => stamp.2.2) h

/-- Changes with one stamp are ordered alike in either mode. -/
theorem orderingTs_eq (h : m.stamp = n.stamp) (mode : ReplayMode) :
    m.orderingTs mode = n.orderingTs mode := by
  cases mode
  · exact recvTs_eq h
  · exact exchangeTs_eq h

/-- Whether a change is a snapshot of a time is read off its stamp. -/
theorem snapshotAt_stamp (m : VenueChange a) (mode : ReplayMode) (time : Nat) :
    m.snapshotAt mode time = stampedAt mode time m.stamp := by
  cases mode <;> rfl

/-- Changes with one stamp are of one kind. -/
theorem kind_eq (h : m.stamp = n.stamp) : m.kind = n.kind :=
  congrArg Prod.fst h

/-- Changes with one stamp are snapshots of the same times. -/
theorem snapshotAt_eq (h : m.stamp = n.stamp)
    (mode : ReplayMode) (time : Nat) : m.snapshotAt mode time = n.snapshotAt mode time := by
  rw [snapshotAt_stamp, snapshotAt_stamp, h]

end VenueChange

section Stamps

variable {a : AssetId}

/-- Lists of the same kinds and times split alike. -/
theorem exists_split_of_stamp_eq {changes before' after' : List (VenueChange a)}
    {s' : VenueChange a}
    (h : changes.map VenueChange.stamp = (before' ++ s' :: after').map VenueChange.stamp) :
    ∃ before s after, changes = before ++ s :: after ∧
      before.map VenueChange.stamp = before'.map VenueChange.stamp ∧ s.stamp = s'.stamp ∧
        after.map VenueChange.stamp = after'.map VenueChange.stamp := by
  rw [List.map_append, List.map_cons] at h
  obtain ⟨before, rest, rfl, hbefore, hrest⟩ := List.map_eq_append_iff.mp h
  obtain ⟨s, after, rfl, hs, hafter⟩ := List.map_eq_cons_iff.mp hrest
  exact ⟨before, s, after, rfl, hbefore, hs, hafter⟩

/-- What holds of the stamps of one list holds of the other's. -/
theorem forall_of_stamp_eq {xs ys : List (VenueChange a)}
    (h : xs.map VenueChange.stamp = ys.map VenueChange.stamp) {P : VenueChange a → Prop}
    (hP : ∀ m n : VenueChange a, m.stamp = n.stamp → P m → P n) (hxs : ∀ m ∈ xs, P m) :
    ∀ n ∈ ys, P n := by
  intro n hn
  have hn' : n.stamp ∈ xs.map VenueChange.stamp := h ▸ List.mem_map_of_mem hn
  obtain ⟨m, hm, hstamp⟩ := List.mem_map.mp hn'
  exact hP m n hstamp (hxs m hm)

/-- Selecting by kind and times selects alike. -/
theorem map_stamp_filter {p : VenueChange a → Bool}
    (hp : ∀ m n : VenueChange a, m.stamp = n.stamp → p m = p n) {xs ys : List (VenueChange a)}
    (h : xs.map VenueChange.stamp = ys.map VenueChange.stamp) :
    (xs.filter p).map VenueChange.stamp = (ys.filter p).map VenueChange.stamp := by
  induction xs generalizing ys with
  | nil =>
      rw [List.map_nil, eq_comm, List.map_eq_nil_iff] at h
      rw [h]
  | cons x xs ih =>
      rw [List.map_cons, eq_comm, List.map_eq_cons_iff] at h
      obtain ⟨y, ys, rfl, hstamp, hrest⟩ := h
      rw [List.filter_cons, List.filter_cons, hp y x hstamp]
      split
      · rw [List.map_cons, List.map_cons, hstamp, ih hrest.symm]
      · exact ih hrest.symm

end Stamps

/-- Feeds with the same timing show the same stamps in every window. -/
theorem VenueFeed.map_stamp_seen {a : AssetId} {feed feed' : VenueFeed a}
    (htiming : feed'.timing = feed.timing) (start target : Nat) :
    (feed.seen start target).map VenueChange.stamp =
      (feed'.seen start target).map VenueChange.stamp := by
  refine map_stamp_filter (fun m n hstamp => ?_) htiming.symm
  rw [VenueChange.recvTs_eq hstamp]

section Recast

variable {a : AssetId} {feed : VenueFeed a} {start target : Nat}
  {before after : List (VenueChange a)} {s : VenueChange a}

/-- Relevelling keeps the last snapshot of a window. -/
theorem LastSnapshot.relevel (level : VenueChange a → FixedPrice × FixedSize)
    (h : LastSnapshot feed start target before s after) :
    LastSnapshot (feed.relevel level) start target (before.map (·.relevel level))
      (s.relevel level) (after.map (·.relevel level)) where
  split := by
    rw [feed.relevel_seen, h.split, List.map_append, List.map_cons]
  kind := h.kind
  deltas m hm := by
    obtain ⟨n, hn, rfl⟩ := List.mem_map.mp hm
    exact h.deltas n hn

/-- Recasting keeps the last snapshot of a window. -/
theorem LastSnapshot.recast (h : LastSnapshot feed start target before s after) (k : Nat) :
    LastSnapshot (feed.recast k) start target (before.map (·.recast k)) (s.recast k)
      (after.map (·.recast k)) := h.relevel (recastLevel k)

/-- The keys around the last snapshot. -/
theorem LastSnapshot.key_lt (h : LastSnapshot feed start target before s after) :
    (∀ m ∈ before, m.key < s.key) ∧ (∀ m ∈ after, s.key < m.key) ∧
      (before ++ s :: after).Pairwise fun m n => m.key < n.key := by
  have hpairs := feed.key_pairwise.sublist (feed.seen_sublist start target)
  rw [h.split] at hpairs
  refine ⟨fun m hm => (List.pairwise_append.mp hpairs).2.2 m hm s List.mem_cons_self, ?_, hpairs⟩
  exact (List.pairwise_cons.mp (List.pairwise_append.mp hpairs).2.1).1

/-- The reconstruction is the same with the checkpoint and without, for every
feed with these times, every size within a capacity and every way it is stored in
which the lookback window can be read. -/
def CheckpointTransparent (feed : VenueFeed a) (times : CheckpointTimes)
    (lookbackUs target : Nat) (mode : ReplayMode) : Prop :=
  ∀ feed' : VenueFeed a, feed'.timing = feed.timing → ∀ c, feed'.Within c →
    ∀ checkpoint, Captured c feed' times checkpoint → ∀ records, Stored feed' records →
    WindowFits a (target - lookbackUs) target records →
    (∃ m ∈ feed'.seen (target - lookbackUs) target, m.kind = .snapshot) →
    SameLevels lookbackUs a target mode checkpoint records

variable {times : CheckpointTimes} {lookbackUs : Nat} {mode : ReplayMode}

/-- What the recast feed shows with the checkpoint it shows without. -/
theorem CheckpointTransparent.content_eq
    (h : CheckpointTransparent feed times lookbackUs target mode)
    (hin : target - lookbackUs ≤ times.exchange ∧ times.exchange ≤ target)
    (hrows : (feed.seen (target - lookbackUs) target).length ≤ maxParquetDatasetRows)
    (hlast : LastSnapshot feed (target - lookbackUs) target before s after) (k : Nat) :
    ∃ checkpoint, Captured VenueFeed.unit (feed.recast k) times checkpoint ∧
      ∀ r, reconstructBook a target mode (some checkpoint.asStored)
          (marketDataWindow a times.exchange target (feed.recastRecords k)) = .ok r →
        r.book.content = recastWrites k after
          (groupContent ((before.filter (·.snapshotAt mode (s.orderingTs mode)) ++ [s]).map
            (·.recast k))) := by
  obtain ⟨checkpoint, hcaptured⟩ := exists_captured (feed.recast_within k) times
  have hstored := feed.recast_stored k
  have hfits : WindowFits a (target - lookbackUs) target (feed.recastRecords k) :=
    feed.relevel_windowFits (recastLevel k) hrows
  have hsame := h (feed.recast k) (feed.recast_timing k) _ (feed.recast_within k) checkpoint
    hcaptured _ hstored hfits ⟨s.recast k, (hlast.recast k).mem_seen
      (List.mem_append_right _ List.mem_cons_self), hlast.kind⟩
  obtain ⟨r', hr', hcontent'⟩ := (hlast.recast k).rebuilt hstored (feed.recast_within k) mode
  refine ⟨checkpoint, hcaptured, fun r hr => ?_⟩
  rw [SameLevels, hstored.reconstructAt_with hcaptured hin (hfits.mono hin.1),
    hstored.reconstructAt_without hfits, map_levels_eq_iff hr hr'] at hsame
  rw [hsame, hcontent', recastWrites]
  congr 2
  rw [List.map_append, List.filter_map, VenueChange.recast_orderingTs]
  simp only [Function.comp_def, VenueChange.recast_snapshotAt, List.map_cons, List.map_nil]

/-- With no book message past the checkpoint, the two books of a recast feed. -/
theorem CheckpointTransparent.deltas_eq
    (h : CheckpointTransparent feed times lookbackUs target mode)
    (hin : target - lookbackUs ≤ times.exchange ∧ times.exchange ≤ target)
    (hrows : (feed.seen (target - lookbackUs) target).length ≤ maxParquetDatasetRows)
    (hlast : LastSnapshot feed (target - lookbackUs) target before s after)
    (hpast : ¬ times.orderingTs mode < s.orderingTs mode) (k : Nat) :
    recastWrites k (after.filter fun m => times.orderingTs mode < m.orderingTs mode)
        (recastWrites k (feed.changes.filter fun m => m.exchangeTs ≤ times.exchange)
          fun _ => none) =
      recastWrites k after
        (groupContent ((before.filter (·.snapshotAt mode (s.orderingTs mode)) ++ [s]).map
          (·.recast k))) := by
  obtain ⟨checkpoint, hcaptured, hcontent⟩ := h.content_eq hin hrows hlast k
  have htail : ((feed.recast k).seen times.exchange target).filter
      (fun m => checkpointOrderingTs checkpoint.asStored mode < m.orderingTs mode) =
      (after.filter fun m => times.orderingTs mode < m.orderingTs mode).map (·.recast k) := by
    rw [hcaptured.orderingTs, VenueFeed.seen_filter hin.1, (hlast.recast k).filter_eq (by
      rwa [VenueChange.recast_orderingTs]), List.filter_map]
    simp only [Function.comp_def, VenueChange.recast_orderingTs]
  have hdeltas : ∀ m ∈ (after.filter fun m =>
      times.orderingTs mode < m.orderingTs mode).map (·.recast k), m.kind = .delta := by
    intro m hm
    obtain ⟨n, hn, rfl⟩ := List.mem_map.mp hm
    exact hlast.deltas n (List.mem_filter.mp hn).1
  obtain ⟨r, hr, hr_content⟩ := (feed.recast_stored k).rebuilt_checkpoint (feed.recast_within k)
    hcaptured.asStored htail hdeltas
  rw [← hcontent r hr, hr_content, feed.recast_contentAfter]
  rfl

section Deltas

variable (h : CheckpointTransparent feed times lookbackUs target mode)
  (hin : target - lookbackUs ≤ times.exchange ∧ times.exchange ≤ target)
  (hrows : (feed.seen (target - lookbackUs) target).length ≤ maxParquetDatasetRows)
  (hlast : LastSnapshot feed (target - lookbackUs) target before s after)
  (hpast : ¬ times.orderingTs mode < s.orderingTs mode)

include h hin hrows hlast hpast

/-- The last seen snapshot is in the checkpoint: else it could be marked. -/
theorem CheckpointTransparent.snapshot_held : s.exchangeTs ≤ times.exchange := by
  by_contra hlt
  obtain ⟨hbefore_key, hafter_key, _⟩ := hlast.key_lt
  have heq := congrFun (h.deltas_eq hin hrows hlast hpast s.key) markedKey
  have hafter : ∀ m ∈ after, m.key ≠ s.key := fun m hm => (hafter_key m hm).ne'
  have hheld : ∀ m ∈ feed.changes.filter (fun m => m.exchangeTs ≤ times.exchange),
      m.key ≠ s.key := by
    intro m hm hkey
    obtain ⟨hmem, hle⟩ := List.mem_filter.mp hm
    obtain rfl := feed.eq_of_key_eq hmem
      (hlast.mem_changes (List.mem_append_right _ List.mem_cons_self)) hkey
    rw [decide_eq_true_eq] at hle
    omega
  rw [recastWrites_deltas (fun m hm => hafter m (List.mem_filter.mp hm).1)
      (fun m hm => hlast.deltas m (List.mem_filter.mp hm).1),
    recastWrites_unmarked hheld rfl, recastWrites_deltas hafter hlast.deltas,
    groupContent_marked _ [] rfl
      (fun m hm => (hbefore_key m (List.mem_filter.mp hm).1).ne) (List.forall_mem_nil _)] at heq
  cases heq

/-- No other book message of its time has been seen. -/
theorem CheckpointTransparent.snapshot_alone :
    ∀ m ∈ before, m.snapshotAt mode (s.orderingTs mode) = false := by
  intro m hm
  by_contra hat
  have hat : m.snapshotAt mode (s.orderingTs mode) = true := by simpa using hat
  obtain ⟨hbefore_key, hafter_key, hkeys⟩ := hlast.key_lt
  have hms := hbefore_key m hm
  have heq := congrFun (h.deltas_eq hin hrows hlast hpast m.key) markedKey
  have hafter : ∀ n ∈ after, n.key ≠ m.key := fun n hn => by
    have := hafter_key n hn
    omega
  have hs_held : s ∈ feed.changes.filter (fun m => m.exchangeTs ≤ times.exchange) :=
    List.mem_filter.mpr ⟨hlast.mem_changes (List.mem_append_right _ List.mem_cons_self),
      by simpa using h.snapshot_held hin hrows hlast hpast⟩
  obtain ⟨held, later, hheld⟩ := List.append_of_mem hs_held
  have hlater : ∀ n ∈ later, n.key ≠ m.key := by
    intro n hn
    have hpairs := feed.key_pairwise.sublist
      (List.filter_sublist (p := fun m => decide (m.exchangeTs ≤ times.exchange)))
    rw [hheld] at hpairs
    have := (List.pairwise_cons.mp (List.pairwise_append.mp hpairs).2.1).1 n hn
    omega
  have hm_group : m ∈ before.filter (·.snapshotAt mode (s.orderingTs mode)) :=
    List.mem_filter.mpr ⟨hm, hat⟩
  obtain ⟨front, back, hgroup⟩ := List.append_of_mem hm_group
  have hgroup_keys := ((List.pairwise_append.mp hkeys).1).sublist
    (List.filter_sublist (p := fun m => m.snapshotAt mode (s.orderingTs mode)))
  rw [hgroup] at hgroup_keys
  obtain ⟨_, hback, hfront⟩ := List.pairwise_append.mp hgroup_keys
  rw [recastWrites_deltas (fun n hn => hafter n (List.mem_filter.mp hn).1)
      (fun n hn => hlast.deltas n (List.mem_filter.mp hn).1), hheld,
    recastWrites_cleared hlast.kind hms.ne' hlater, recastWrites_deltas hafter hlast.deltas,
    hgroup, List.append_assoc, List.cons_append, groupContent_marked front (back ++ [s]) rfl
      (fun n hn => (hfront n hn m List.mem_cons_self).ne) (fun n hn => by
        rcases List.mem_append.mp hn with hn | hn
        · exact ((List.pairwise_cons.mp hback).1 n hn).ne'
        · exact List.mem_singleton.mp hn ▸ hms.ne')] at heq
  cases heq

/-- What the checkpoint holds has been received. -/
theorem CheckpointTransparent.held_received :
    ∀ m ∈ feed.changes, m.exchangeTs ≤ times.exchange → m.recvTs ≤ target := by
  intro m hm hle
  by_contra hlate
  have hheld_ne : feed.changes.filter (fun m => m.exchangeTs ≤ times.exchange) ≠ [] :=
    List.ne_nil_of_mem (List.mem_filter.mpr ⟨hm, by simpa using hle⟩)
  -- the last change the checkpoint holds arrives no earlier
  obtain ⟨held, k, hheld⟩ : ∃ held k, feed.changes.filter
      (fun m => m.exchangeTs ≤ times.exchange) = held ++ [k] :=
    ⟨_, _, (List.dropLast_append_getLast hheld_ne).symm⟩
  have hk_held : k ∈ feed.changes.filter (fun m => m.exchangeTs ≤ times.exchange) := by
    rw [hheld]
    exact List.mem_append_right _ (List.mem_singleton_self k)
  have hk_mem : k ∈ feed.changes := (List.mem_filter.mp hk_held).1
  have hk_late : target < k.recvTs := by
    have hm_held : m ∈ held ++ [k] := by
      rw [← hheld]
      exact List.mem_filter.mpr ⟨hm, by simpa using hle⟩
    have hpairs := feed.received.sublist
      (List.filter_sublist (p := fun m => decide (m.exchangeTs ≤ times.exchange)))
    rw [hheld] at hpairs
    rcases List.mem_append.mp hm_held with hm_held | hm_held
    · have := (List.pairwise_append.mp hpairs).2.2 m hm_held k (List.mem_singleton_self k)
      omega
    · obtain rfl := List.mem_singleton.mp hm_held
      omega
  have hseen : ∀ n ∈ before ++ s :: after, n.key ≠ k.key := by
    intro n hn hkey
    obtain ⟨hmem, _, hdue⟩ := VenueFeed.mem_seen.mp (hlast.mem_seen hn)
    obtain rfl := feed.eq_of_key_eq hmem hk_mem hkey
    omega
  have hafter : ∀ n ∈ after, n.key ≠ k.key := fun n hn =>
    hseen n (List.mem_append_right _ (List.mem_cons_of_mem _ hn))
  have heq := congrFun (h.deltas_eq hin hrows hlast hpast k.key) markedKey
  rw [recastWrites_deltas (fun n hn => hafter n (List.mem_filter.mp hn).1)
      (fun n hn => hlast.deltas n (List.mem_filter.mp hn).1), hheld,
    recastWrites_marked rfl (List.forall_mem_nil _) (List.forall_mem_nil _),
    recastWrites_deltas hafter hlast.deltas, groupContent_unmarked fun n hn => by
      rcases List.mem_append.mp hn with hn | hn
      · exact hseen n (List.mem_append_left _ (List.mem_filter.mp hn).1)
      · exact hseen n (List.mem_append_right _ (List.mem_singleton.mp hn ▸ List.mem_cons_self))]
    at heq
  cases heq

/-- What it does not hold is past its time. -/
theorem CheckpointTransparent.rest_past :
    ∀ m ∈ feed.changes, times.exchange < m.exchangeTs → m.recvTs ≤ target →
      times.orderingTs mode < m.orderingTs mode := by
  intro m hm hlt hdue
  by_contra hnot
  have hs_held := h.snapshot_held hin hrows hlast hpast
  have hs_mem := hlast.mem_changes (List.mem_append_right before List.mem_cons_self)
  obtain ⟨hkey, hrecv⟩ := feed.arrives_of_exchangeTs_lt hs_mem hm (by omega)
  obtain ⟨hbefore_key, hafter_key, hkeys⟩ := hlast.key_lt
  have hm_after : m ∈ after := by
    obtain ⟨_, hfloor, _⟩ := VenueFeed.mem_seen.mp
      (hlast.mem_seen (List.mem_append_right before List.mem_cons_self))
    have hm_seen : m ∈ feed.seen (target - lookbackUs) target :=
      VenueFeed.mem_seen.mpr ⟨hm, by omega, hdue⟩
    rw [hlast.split] at hm_seen
    rcases List.mem_append.mp hm_seen with hm_seen | hm_seen
    · have := hbefore_key m hm_seen
      omega
    · rcases List.mem_cons.mp hm_seen with rfl | hm_seen
      · omega
      · exact hm_seen
  obtain ⟨front, back, rfl⟩ := List.append_of_mem hm_after
  have hback : ∀ n ∈ back, n.key ≠ m.key := by
    have hpairs := (List.pairwise_cons.mp (List.pairwise_append.mp hkeys).2.1).2
    intro n hn
    exact ((List.pairwise_cons.mp (List.pairwise_append.mp hpairs).2.1).1 n hn).ne'
  have hheld : ∀ n ∈ feed.changes.filter (fun m => m.exchangeTs ≤ times.exchange),
      n.key ≠ m.key := by
    intro n hn hkey
    obtain ⟨hmem, hle⟩ := List.mem_filter.mp hn
    obtain rfl := feed.eq_of_key_eq hmem hm hkey
    rw [decide_eq_true_eq] at hle
    omega
  have htail : ∀ n ∈ (front ++ m :: back).filter
      (fun m => times.orderingTs mode < m.orderingTs mode), n.key ≠ m.key := by
    intro n hn hkey
    obtain ⟨hmem, hpast_n⟩ := List.mem_filter.mp hn
    obtain rfl := feed.eq_of_key_eq (hlast.mem_changes
      (List.mem_append_right _ (List.mem_cons_of_mem _ hmem))) hm hkey
    rw [decide_eq_true_eq] at hpast_n
    exact hnot hpast_n
  have heq := congrFun (h.deltas_eq hin hrows hlast hpast m.key) markedKey
  rw [recastWrites_deltas htail (fun n hn => hlast.deltas n (List.mem_filter.mp hn).1),
    recastWrites_unmarked hheld rfl, recastWrites_marked rfl hback fun n hn =>
      hlast.deltas n (List.mem_append_right _ (List.mem_cons_of_mem _ hn))] at heq
  cases heq

end Deltas

/-- Book messages of one time that a level change parts: the run after it is all
the checkpoint's reconstruction starts from. -/
theorem CheckpointTransparent.together
    (h : CheckpointTransparent feed times lookbackUs target mode)
    (hin : target - lookbackUs ≤ times.exchange ∧ times.exchange ≤ target)
    (hrows : (feed.seen (target - lookbackUs) target).length ≤ maxParquetDatasetRows)
    (hlast : LastSnapshot feed (target - lookbackUs) target before s after)
    (hpast : times.orderingTs mode < s.orderingTs mode) :
    before.Pairwise fun m n =>
      m.snapshotAt mode (s.orderingTs mode) = true → n.kind = .snapshot := by
  apply pairwise_of_not_parted
  rintro front k run rfl hk hrun_kind m hm hat
  obtain ⟨hbefore_key, hafter_key, hkeys⟩ := hlast.key_lt
  have hkeys_before := (List.pairwise_append.mp hkeys).1
  have hmk := (List.pairwise_append.mp hkeys_before).2.2 m hm
  have hsorted := (feed.ordering_pairwise mode).sublist
    (feed.seen_sublist (target - lookbackUs) target)
  rw [hlast.split] at hsorted
  have hle := (hlast.ordering_le mode).1
  -- the level change and the run have the time of the marked book message
  have hmsorted := (List.pairwise_append.mp (List.pairwise_append.mp hsorted).1).2.2 m hm
  have htime : ∀ n ∈ k :: run, n.orderingTs mode = s.orderingTs mode := by
    intro n hn
    have := hmsorted n hn
    have := hle n (List.mem_append_right _ hn)
    simp only [VenueChange.snapshotAt, Bool.and_eq_true, decide_eq_true_eq] at hat
    omega
  obtain ⟨checkpoint, hcaptured, hcontent⟩ := h.content_eq hin hrows hlast m.key
  have hrun_past : ∀ n ∈ k :: run, times.orderingTs mode < n.orderingTs mode := by
    intro n hn
    rw [htime n hn]
    exact hpast
  have htail : ((feed.recast m.key).seen times.exchange target).filter
      (fun n => checkpointOrderingTs checkpoint.asStored mode < n.orderingTs mode) =
      (front.filter (fun n => times.orderingTs mode < n.orderingTs mode) ++ [k]).map
          (·.recast m.key) ++
        ((run ++ [s]).map (·.recast m.key) ++ after.map (·.recast m.key)) := by
    rw [hcaptured.orderingTs, feed.recast_seen, List.filter_map]
    simp only [Function.comp_def, VenueChange.recast_orderingTs]
    rw [hlast.filter_seen_eq hin.1 hrun_past hpast]
    simp
  have hrun_at : ∀ n ∈ (run ++ [s]).map (·.recast m.key),
      n.snapshotAt mode (s.orderingTs mode) = true := by
    intro n hn
    obtain ⟨q, hq, rfl⟩ := List.mem_map.mp hn
    rw [VenueChange.recast_snapshotAt, VenueChange.snapshotAt, Bool.and_eq_true,
      decide_eq_true_eq, decide_eq_true_eq]
    rcases List.mem_append.mp hq with hq | hq
    · exact ⟨hrun_kind q hq, htime q (List.mem_cons_of_mem _ hq)⟩
    · obtain rfl := List.mem_singleton.mp hq
      exact ⟨hlast.kind, rfl⟩
  have hparted : ∀ n ∈ ((front.filter (fun n => times.orderingTs mode < n.orderingTs mode) ++
      [k]).map (·.recast m.key)).getLast?, n.snapshotAt mode (s.orderingTs mode) = false := by
    intro n hn
    simp only [List.map_append, List.map_cons, List.map_nil, List.getLast?_concat,
      Option.mem_some_iff] at hn
    subst hn
    rw [VenueChange.recast_snapshotAt, VenueChange.snapshotAt, decide_eq_false hk,
      Bool.false_and]
  obtain ⟨r, hr, hr_content⟩ := (feed.recast_stored m.key).rebuilt_run
    (feed.recast_within m.key) hcaptured.asStored (s.orderingTs mode) htail (by simp) hrun_at
    hparted (hlast.recast m.key).deltas
  have hafter : ∀ n ∈ after, n.key ≠ m.key := fun n hn => by
    have := hafter_key n hn
    have := hbefore_key m (List.mem_append_left _ hm)
    omega
  have hlater : ∀ n ∈ run ++ [s], n.key ≠ m.key := by
    intro n hn
    rcases List.mem_append.mp hn with hn | hn
    · exact (hmk n (List.mem_cons_of_mem _ hn)).ne'
    · rw [List.mem_singleton.mp hn]
      exact (hbefore_key m (List.mem_append_left _ hm)).ne'
  have heq := congrFun (hr_content.symm.trans (hcontent r hr)) markedKey
  have hm_group : m ∈ (front ++ k :: run).filter (·.snapshotAt mode (s.orderingTs mode)) :=
    List.mem_filter.mpr ⟨List.mem_append_left _ hm, hat⟩
  obtain ⟨head, back, hgroup⟩ := List.append_of_mem hm_group
  have hgroup_keys := hkeys_before.sublist
    (List.filter_sublist (p := fun n => n.snapshotAt mode (s.orderingTs mode)))
  rw [hgroup] at hgroup_keys
  obtain ⟨_, hback, hhead⟩ := List.pairwise_append.mp hgroup_keys
  change recastWrites m.key after _ markedKey = _ at heq
  rw [recastWrites_deltas hafter hlast.deltas, recastWrites_deltas hafter hlast.deltas,
    groupContent_unmarked hlater, hgroup, List.append_assoc, List.cons_append,
    groupContent_marked head (back ++ [s]) rfl
      (fun n hn => (hhead n hn m List.mem_cons_self).ne) (fun n hn => by
        rcases List.mem_append.mp hn with hn | hn
        · exact ((List.pairwise_cons.mp hback).1 n hn).ne'
        · exact hlater n (List.mem_append_right _ hn))] at heq
  cases heq

/-- The feed with a snapshot in the window has a last one. -/
theorem LastSnapshot.exists
    (h : ∃ m ∈ feed.seen start target, m.kind = .snapshot) :
    ∃ before s after, LastSnapshot feed start target before s after := by
  obtain ⟨before, s, after, hsplit, hs, hafter⟩ := exists_last h
  refine ⟨before, s, after, hsplit, hs, fun m hm => ?_⟩
  have := hafter m hm
  cases hk : m.kind with
  | snapshot => exact absurd hk this
  | delta => rfl

/-- The last snapshot of a feed with these times stands where that of the other does. -/
theorem LastSnapshot.of_timing {feed' : VenueFeed a} (htiming : feed'.timing = feed.timing)
    {before' after' : List (VenueChange a)} {s' : VenueChange a}
    (h : LastSnapshot feed' start target before' s' after') :
    ∃ before s after, LastSnapshot feed start target before s after ∧
      before.map VenueChange.stamp = before'.map VenueChange.stamp ∧ s.stamp = s'.stamp := by
  have hseen := VenueFeed.map_stamp_seen htiming start target
  rw [h.split] at hseen
  obtain ⟨before, s, after, hsplit, hbefore, hs, hafter⟩ := exists_split_of_stamp_eq hseen
  refine ⟨before, s, after, ⟨hsplit, (VenueChange.kind_eq hs).trans h.kind, ?_⟩, hbefore, hs⟩
  exact forall_of_stamp_eq hafter.symm
    (fun m n hstamp hm => (VenueChange.kind_eq hstamp).symm.trans hm) h.deltas

/-- The cuts of a checkpoint depend on the times only. -/
theorem CutsAgree.of_timing {feed' : VenueFeed a} (h : CutsAgree feed times lookbackUs target mode)
    (htiming : feed'.timing = feed.timing) : CutsAgree feed' times lookbackUs target mode := by
  intro hfloor hle before' s' after' hlast'
  obtain ⟨before, s, after, hlast, hbefore, hs⟩ := hlast'.of_timing htiming
  have hcuts := h hfloor hle before s after hlast
  rw [← VenueChange.orderingTs_eq hs]
  split at hcuts
  case isTrue hpast =>
    rw [if_pos hpast]
    have hstamps : (before.map VenueChange.stamp).Pairwise fun x y =>
        stampedAt mode (s.orderingTs mode) x = true → y.1 = .snapshot := List.pairwise_map.mpr <|
      hcuts.imp fun hmn hat => hmn (by rwa [VenueChange.snapshotAt_stamp])
    rw [hbefore] at hstamps
    exact (List.pairwise_map.mp hstamps).imp fun hmn hat =>
      hmn (by rwa [← VenueChange.snapshotAt_stamp])
  case isFalse hpast =>
    rw [if_neg hpast]
    obtain ⟨halone, hheld, hnew⟩ := hcuts
    refine ⟨forall_of_stamp_eq hbefore (fun m n hstamp hm => ?_) halone,
      forall_of_stamp_eq htiming.symm (fun m n hstamp hm => ?_) hheld,
      forall_of_stamp_eq htiming.symm (fun m n hstamp hm => ?_) hnew⟩
    · rwa [← VenueChange.snapshotAt_eq hstamp]
    · rwa [← VenueChange.exchangeTs_eq hstamp, ← VenueChange.recvTs_eq hstamp]
    · rwa [← VenueChange.exchangeTs_eq hstamp, ← VenueChange.recvTs_eq hstamp,
        ← VenueChange.orderingTs_eq hstamp]

/-- Where the cuts agree the checkpoint changes nothing. -/
theorem CutsAgree.transparent (h : CutsAgree feed times lookbackUs target mode) :
    CheckpointTransparent feed times lookbackUs target mode := by
  intro feed' htiming c hwithin checkpoint hcaptured records hstored hfits hsnapshot
  by_cases hin : target - lookbackUs ≤ times.exchange ∧ times.exchange ≤ target
  swap
  · exact hstored.sameLevels_of_outside hcaptured hin
  obtain ⟨before, s, after, hlast⟩ := LastSnapshot.exists hsnapshot
  have hcuts := h.of_timing htiming hin.1 hin.2 before s after hlast
  split at hcuts
  case isTrue hpast =>
    exact hstored.sameLevels_of_run hwithin hcaptured hin hfits hlast hpast hcuts
  case isFalse hpast =>
    exact hstored.sameLevels_of_deltas hwithin hcaptured hin hfits hlast hpast hcuts.1 hcuts.2.1
      hcuts.2.2

/-- A feed of more changes than a read takes is in no store that can be read. -/
theorem transparent_of_rows_lt
    (hrows : maxParquetDatasetRows < (feed.seen (target - lookbackUs) target).length) :
    CheckpointTransparent feed times lookbackUs target mode := by
  intro feed' htiming c _ checkpoint _ records hstored hfits _
  have hlength := congrArg List.length (VenueFeed.map_stamp_seen htiming (target - lookbackUs)
    target)
  have hseen := hstored.length_seen_le hfits
  rw [List.length_map, List.length_map] at hlength
  omega

/-- **When a checkpoint changes nothing.**  Whatever the changes of a feed are,
its reconstruction is the same with a checkpoint and without exactly when the
two cuts of the checkpoint agree.  A store whose lookback window is too large to
be read is refused without the checkpoint, so the two are the same exactly when
the window from a chosen checkpoint on is too large as well. -/
theorem reconstructAt_checkpoint_iff (feed : VenueFeed a) (times : CheckpointTimes)
    (lookbackUs target : Nat) (mode : ReplayMode) :
    (CheckpointTransparent feed times lookbackUs target mode ↔
      maxParquetDatasetRows < (feed.seen (target - lookbackUs) target).length ∨
        CutsAgree feed times lookbackUs target mode) ∧
    ∀ (feed' : VenueFeed a) (c : Capacity) (checkpoint : BookCheckpoint)
      (records : List PersistedRecord), Captured c feed' times checkpoint →
      Stored feed' records → ¬WindowFits a (target - lookbackUs) target records →
      (SameLevels lookbackUs a target mode checkpoint records ↔
        (target - lookbackUs ≤ times.exchange ∧ times.exchange ≤ target →
          ¬WindowFits a times.exchange target records)) := by
  refine ⟨⟨fun h => ?_, ?_⟩, fun feed' c checkpoint records hcaptured hstored hrefused =>
    hstored.sameLevels_iff_of_refused hcaptured hrefused⟩
  · rw [or_iff_not_imp_left]
    intro hnot hfloor hle before s after hlast
    have hrows := Nat.not_lt.mp hnot
    have hin : target - lookbackUs ≤ times.exchange ∧ times.exchange ≤ target := ⟨hfloor, hle⟩
    split
    case isTrue hpast => exact h.together hin hrows hlast hpast
    case isFalse hpast =>
      exact ⟨h.snapshot_alone hin hrows hlast hpast, h.held_received hin hrows hlast hpast,
        h.rest_past hin hrows hlast hpast⟩
  · rintro (hrows | hcuts)
    · exact transparent_of_rows_lt hrows
    · exact hcuts.transparent

end Recast

namespace Straddling

open Sample StaleDelta

/-- A book of the venue, dated and received at 1000. -/
def book : BookEvent := stamped 0 (dated 1000 (level .snapshot "yes" .bid 50 10 1000 "book"))

/-- A level change the venue dates 1050; it is received at 1100. -/
def change : BookEvent := stamped 1 (dated 1050 (level .delta "yes" .bid 40 7 1100 "change"))

/-- The records of a sample change are of its asset. -/
theorem assetId_of_one {event : BookEvent} (h : event.assetId = "yes") :
    ∀ e ∈ [event], e.assetId = "yes" := List.forall_mem_singleton.mpr h

/-- The records of a sample change are of its kind. -/
theorem kind_of_one (event : BookEvent) : ∀ e ∈ [event], e.kind = event.kind :=
  List.forall_mem_singleton.mpr rfl

/-- A sample change has no further records. -/
theorem groupKey_of_none (event : BookEvent) :
    ∀ e ∈ ([] : List BookEvent), e.groupKey = event.groupKey := List.forall_mem_nil _

/-- A sample change of levels is a single record. -/
theorem rest_of_one (event : BookEvent) : event.kind = .delta → ([] : List BookEvent) = [] :=
  fun _ => rfl

/-- A message of one record. -/
def message (event : BookEvent) (h : event.assetId = "yes") : VenueChange "yes" where
  kind := event.kind
  first := event
  rest := []
  assetId := assetId_of_one h
  kinds := kind_of_one event
  oneGroup := groupKey_of_none event
  single := rest_of_one event

/-- The feed of the sample: a snapshot and a change that is dated before the checkpoint and
received after it. -/
def feed : VenueFeed "yes" where
  changes := [message book rfl, message change rfl]
  late := by decide
  received := by decide
  dated := by decide
  ordinals := by decide

/-- The stored records of the sample feed. -/
def stored : List PersistedRecord := [.book book, .book change]

/-- The venue dates the checkpoint 1020; it is received at 1150. -/
def times : CheckpointTimes := ⟨1020, 1150, by decide⟩

/-- The checkpoint of the sample, dated after the change and received before it. -/
def checkpoint : BookCheckpoint where
  assetId := "yes"
  checkpointTimestampUs := 1020
  provenance := {
    recvTimestampUs := 1150
    exchangeTimestampUs := 1020
    source := .restSnapshot
    sourceEventId := none
    sourceSessionId := none
    sequence := none
    ingestOrdinal := none }
  bids := [⟨book.price, book.size⟩]
  asks := []
  walOffset := none

/-- The bids rebuilt in receive time at 2000. -/
def bids (records : List PersistedRecord) : Except ReplayError (List (Nat × Nat)) :=
  (reconstructAt defaultLookbackUs "yes" 2000 .recvTime records).map fun r =>
    r.book.bids.toList.map fun l => (l.1.raw, l.2.raw)

end Straddling

open Straddling in
/-- The change between the two times of the checkpoint is in neither cut. -/
theorem straddling_change_lost :
    feed.Within StaleDelta.capacity ∧ Captured StaleDelta.capacity feed times checkpoint ∧
      Stored feed stored ∧ (∃ m ∈ feed.seen (2000 - defaultLookbackUs) 2000, m.kind = .snapshot) ∧
      bids stored = .ok [(5000, 10000000), (4000, 7000000)] ∧
      bids (.checkpoint checkpoint :: stored) = .ok [(5000, 10000000)] := by
  refine ⟨?_, ⟨rfl, rfl, rfl, rfl, ?_, ?_, ?_, ?_⟩, ⟨?_, ?_, ?_⟩, ?_, ?_, ?_⟩
  · unfold VenueFeed.Within Capacity.AdmitsEvents
    decide
  · decide
  · unfold Capacity.Admits
    decide
  · unfold Capacity.Admits
    decide
  · rfl
  · exact List.Perm.refl _
  · simp [stored]
  · simp [stored]
  · decide
  · decide +kernel
  · decide +kernel

end PolyBook
