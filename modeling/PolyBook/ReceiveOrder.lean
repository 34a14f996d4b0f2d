import Mathlib.Data.List.Induction
import Mathlib.Data.List.Pairwise
import PolyBook.FeedPipeline
import PolyBook.Library.Runs
import PolyBook.Reconcile
import PolyBook.Wal.LittleEndian
import PolyBook.Wal.Retained

/-!
# The order of receive timestamps in the log

`reconcile` refuses a log whose receive timestamps go backwards.  They are taken when a
message arrives, two queues before the log, so a message of one generation can be overtaken
by a later one of another, and in one generation the websocket client and the resnapshot
worker can overtake each other.

`log_ordered_of_unovertaken` is what remains: while no record enters the event channel
before the records of a message that was stamped earlier, the pipeline is a transport
without overtaking, what it appends is in order, and the first pass of `reconcile` goes
through whatever the log retains.
-/

namespace PolyBook

open Wal

namespace FeedPipeline

/-! ## The records of a message -/

/-- The record is partitioned by receive time and has this timestamp. -/
def ReceivedAt (recvUs : Nat) (record : PersistedRecord) : Prop :=
  record.isReceiveTimePartitioned = true ∧ record.partitionTimestampUs = recvUs

section Dispatch

variable (recvUs exchangeTs : Nat)

/-- Levels are sent with the message's receive time. -/
theorem receivedAt_emitLevels (assetId : AssetId) (sourceEventId : Option String)
    (levels : List (Side × FixedPrice × FixedSize)) (d : Dispatcher) :
    ∀ record ∈ (d.emitLevels assetId recvUs exchangeTs sourceEventId levels).2,
      ReceivedAt recvUs record := by
  induction levels generalizing d with
  | nil =>
      intro record hrecord
      cases hrecord
  | cons level levels ih =>
      intro record hrecord
      rw [Dispatcher.emitLevels] at hrecord
      rcases List.mem_cons.mp hrecord with rfl | hrecord
      · exact ⟨rfl, rfl⟩
      · exact ih _ record hrecord

/-- A book message is sent with its receive time. -/
theorem receivedAt_dispatchBook (d : Dispatcher) (message : BookMessage) :
    ∀ record ∈ (d.dispatchBook recvUs message).2, ReceivedAt recvUs record := by
  intro record hrecord
  unfold Dispatcher.dispatchBook at hrecord
  dsimp only at hrecord
  -- all but an accepted snapshot send one notice at most
  split at hrecord
  · rw [List.mem_singleton.mp hrecord]
    exact ⟨rfl, rfl⟩
  · rw [List.mem_singleton.mp hrecord]
    exact ⟨rfl, rfl⟩
  · cases hrecord
  · rw [List.mem_singleton.mp hrecord]
    exact ⟨rfl, rfl⟩
  · rw [List.mem_singleton.mp hrecord]
    exact ⟨rfl, rfl⟩
  · exact receivedAt_emitLevels recvUs _ _ _ _ _ record hrecord

/-- A level change is sent with the message's receive time. -/
theorem receivedAt_dispatchChange (d : Dispatcher) (entry : PriceChangeEntry) (isLast : Bool)
    (side : Side) (price : FixedPrice) (size : FixedSize) :
    ∀ record ∈ (d.dispatchChange recvUs exchangeTs entry isLast side price size).2,
      ReceivedAt recvUs record := by
  intro record hrecord
  unfold Dispatcher.dispatchChange at hrecord
  dsimp only at hrecord
  split at hrecord
  · rw [List.mem_singleton.mp hrecord]
    exact ⟨rfl, rfl⟩
  · split at hrecord
    · rcases List.mem_cons.mp hrecord with rfl | hrecord
      · exact ⟨rfl, rfl⟩
      · rw [List.mem_singleton.mp hrecord]
        exact ⟨rfl, rfl⟩
    · rcases List.mem_cons.mp hrecord with rfl | hrecord
      · exact ⟨rfl, rfl⟩
      · obtain ⟨details, -, rfl⟩ := List.mem_map.mp hrecord
        exact ⟨rfl, rfl⟩

/-- Level changes are sent with the message's receive time. -/
theorem receivedAt_dispatchChanges (entries : List PriceChangeEntry) (d : Dispatcher) :
    ∀ record ∈ (d.dispatchChanges recvUs exchangeTs entries).2, ReceivedAt recvUs record := by
  induction entries generalizing d with
  | nil =>
      intro record hrecord
      cases hrecord
  | cons entry later ih =>
      intro record hrecord
      rw [Dispatcher.dispatchChanges] at hrecord
      split at hrecord
      · rcases List.mem_append.mp hrecord with hrecord | hrecord
        · exact receivedAt_dispatchChange recvUs exchangeTs _ _ _ _ _ _ record hrecord
        · exact ih _ record hrecord
      · exact ih _ record hrecord

/-- Every record of a message carries the message's receive time. -/
theorem receivedAt_dispatchRaw (d : Dispatcher) (raw : WsRawMessage) :
    ∀ record ∈ (d.dispatchRaw raw).2, ReceivedAt raw.recvTimestampUs record := by
  intro record hrecord
  unfold Dispatcher.dispatchRaw at hrecord
  split at hrecord
  · cases hrecord
  · exact receivedAt_dispatchBook _ d _ record hrecord
  · unfold Dispatcher.dispatchPriceChange at hrecord
    split at hrecord
    · cases hrecord
    · exact receivedAt_dispatchChanges _ _ _ d record hrecord
  · unfold Dispatcher.dispatchTrade at hrecord
    split at hrecord
    · cases hrecord
    · split at hrecord
      · cases hrecord
      · rw [List.mem_singleton.mp hrecord]
        exact ⟨rfl, rfl⟩
  · cases hrecord

/-- **A message is dispatched to records with its own timestamp.** -/
theorem receivedAt_dispatch (d : Dispatcher) (message : FeedMessage) :
    ∀ record ∈ (d.dispatch message).2, ReceivedAt (recvTimestampUs message) record := by
  intro record hrecord
  cases message with
  | raw raw => exact receivedAt_dispatchRaw d raw record hrecord
  | lifecycle event =>
      change record ∈ (d.dispatchLifecycle event).2 at hrecord
      unfold Dispatcher.dispatchLifecycle at hrecord
      split at hrecord
      · rw [List.mem_singleton.mp hrecord]
        exact ⟨rfl, rfl⟩
      · rcases List.mem_cons.mp hrecord with rfl | hrecord
        · exact ⟨rfl, rfl⟩
        · rw [List.mem_singleton.mp hrecord]
          exact ⟨rfl, rfl⟩

end Dispatch

/-! ## What a generation has still to send -/

namespace Generation

variable {g : Generation} {t : Nat}

/-- The receive times of what has not been drained yet. -/
theorem mem_stamps : t ∈ g.stamps ↔
    (∃ sender message, g.held sender = some message ∧ recvTimestampUs message = t) ∨
      (∃ message ∈ g.raw, recvTimestampUs message = t) ∨
      ∃ record ∈ g.unsent, record.partitionTimestampUs = t := by
  simp only [stamps, waiting, List.map_append, List.mem_append, List.mem_map, Option.mem_toList,
    or_assoc]
  constructor
  · rintro (⟨m, hm, ht⟩ | ⟨m, hm, ht⟩ | h | h)
    · exact Or.inl ⟨.wsClient, m, hm, ht⟩
    · exact Or.inl ⟨.resnapshotWorker, m, hm, ht⟩
    · exact Or.inr (Or.inl h)
    · exact Or.inr (Or.inr h)
  · rintro (⟨sender, m, hm, ht⟩ | h | h)
    · cases sender with
      | wsClient => exact Or.inl ⟨m, hm, ht⟩
      | resnapshotWorker => exact Or.inr (Or.inl ⟨m, hm, ht⟩)
    · exact Or.inr (Or.inr (Or.inl h))
    · exact Or.inr (Or.inr (Or.inr h))

/-- Only stamping adds a timestamp. -/
theorem stamps_stamp {sender : RawSender} {message : FeedMessage}
    (ht : t ∈ (g.stamp sender message).stamps) :
    t = recvTimestampUs message ∨ t ∈ g.stamps := by
  unfold stamp at ht
  split at ht
  · exact Or.inr ht
  · rcases mem_stamps.mp ht with ⟨other, m, hm, rfl⟩ | h
    · dsimp only at hm
      by_cases hother : other = sender
      · subst hother
        rw [Function.update_self] at hm
        cases hm
        exact Or.inl rfl
      · rw [Function.update_of_ne hother] at hm
        exact Or.inr (mem_stamps.mpr (Or.inl ⟨other, m, hm, rfl⟩))
    · exact Or.inr (mem_stamps.mpr (Or.inr h))

/-- Queueing a message brings no receive time in. -/
theorem stamps_queue {sender : RawSender} (ht : t ∈ (g.queue sender).stamps) : t ∈ g.stamps := by
  unfold queue at ht
  split at ht
  · exact ht
  · rename_i message hheld
    split at ht
    · apply mem_stamps.mpr
      rcases mem_stamps.mp ht with ⟨other, m, hm, rfl⟩ | ⟨m, hm, rfl⟩ | h
      · dsimp only at hm
        by_cases hother : other = sender
        · subst hother
          rw [Function.update_self] at hm
          cases hm
        · rw [Function.update_of_ne hother] at hm
          exact Or.inl ⟨other, m, hm, rfl⟩
      · rcases List.mem_append.mp hm with hm | hm
        · exact Or.inr (Or.inl ⟨m, hm, rfl⟩)
        · rw [List.mem_singleton.mp hm]
          exact Or.inl ⟨sender, message, hheld, rfl⟩
      · exact Or.inr (Or.inr h)
    · exact ht

/-- Dispatching a message brings no receive time in. -/
theorem stamps_dispatchNext (ht : t ∈ g.dispatchNext.stamps) : t ∈ g.stamps := by
  unfold dispatchNext at ht
  split at ht
  · split at ht
    · exact ht
    · rename_i message raw hraw
      apply mem_stamps.mpr
      rcases mem_stamps.mp ht with h | ⟨m, hm, rfl⟩ | ⟨record, hrecord, rfl⟩
      · exact Or.inl h
      · exact Or.inr (Or.inl ⟨m, hraw ▸ List.mem_cons_of_mem message hm, rfl⟩)
      · have hstamp := (receivedAt_dispatch g.dispatcher message record hrecord).2
        exact Or.inr (Or.inl ⟨message, hraw ▸ List.mem_cons_self, hstamp.symm⟩)
  · exact ht

/-- Sending a record brings no receive time in. -/
theorem stamps_sent (ht : t ∈ g.sent.stamps) : t ∈ g.stamps := by
  apply mem_stamps.mpr
  rcases mem_stamps.mp ht with h | h | ⟨record, hrecord, rfl⟩
  · exact Or.inl h
  · exact Or.inr (Or.inl h)
  · exact Or.inr (Or.inr ⟨record, List.mem_of_mem_tail hrecord, rfl⟩)

/-- A closed generation holds nothing. -/
theorem stamps_close (g : Generation) : g.close.stamps = [] := rfl

/-- Retiring a generation brings no receive time in. -/
theorem stamps_retire (ht : t ∈ g.retire.stamps) : t ∈ g.stamps := by
  unfold retire at ht
  split at ht
  · rw [stamps_close] at ht
    cases ht
  · exact ht

end Generation

/-! ## The pipeline as a transport -/

/-- The receive timestamps of the records that are partitioned by them. -/
def timestamps (records : List PersistedRecord) : List Nat :=
  (records.filter (·.isReceiveTimePartitioned)).map (·.partitionTimestampUs)

/-- The receive times of two lists of records. -/
theorem timestamps_append (xs ys : List PersistedRecord) :
    timestamps (xs ++ ys) = timestamps xs ++ timestamps ys := by
  simp [timestamps]

/-- The receive time of one record, if it is partitioned by it. -/
theorem timestamps_singleton (record : PersistedRecord) : timestamps [record] =
    if record.isReceiveTimePartitioned then [record.partitionTimestampUs] else [] := by
  unfold timestamps
  by_cases h : record.isReceiveTimePartitioned = true
  · simp [h]
  · simp [h]

/-- `wal_drain` stamps neither. -/
theorem timestamps_stamp (ordinal globalOffset : Nat) (record : PersistedRecord) :
    timestamps [Ingest.stamp ordinal globalOffset record] = timestamps [record] := by
  cases record <;> rfl

/-- A record has arrived when it is on the event channel. -/
def State.transport (s : State) : InTransit.Transport Nat where
  now := s.nowUs
  pending := {t | ∃ g ∈ s.generations, t ∈ g.stamps}
  arrived := timestamps (s.appended ++ s.events)

/-- Nothing has overtaken anything. -/
def State.InOrder (s : State) : Prop := InTransit.InOrder s.transport

/-- Nothing has been received at the start. -/
theorem State.InOrder.init (nowUs : Nat) : (State.init nowUs).InOrder := by
  apply (InTransit.InOrder.empty nowUs).lose _ (List.Sublist.refl _)
  rintro t ⟨g, hg, -⟩
  cases hg

/-- The records that have been appended are in order. -/
theorem State.InOrder.appended {s : State} (h : s.InOrder) :
    Reconcile.Ordered (s.appended.filter (·.isReceiveTimePartitioned)) := by
  have hsublist : (timestamps s.appended).Sublist (timestamps (s.appended ++ s.events)) := by
    rw [timestamps_append]
    exact List.sublist_append_left _ _
  exact List.pairwise_map.mp (h.nondecreasing.sublist hsublist)

/-- What an observer does not see. -/
theorem refines_unseen (s : State) : InTransit.Step s.transport s.transport :=
  InTransit.Step.lose Set.Subset.rfl (List.Sublist.refl _)

/-- A generation of the modified list was there, or is the one modified. -/
theorem mem_modify {generations : List Generation} {i : Nat} {f : Generation → Generation}
    {g : Generation} (hg : g ∈ generations.modify i f) :
    g ∈ generations ∨ ∃ g' ∈ generations, g = f g' := by
  obtain ⟨j, hj⟩ := List.mem_iff_getElem?.mp hg
  rw [List.getElem?_modify] at hj
  obtain ⟨g', hg', rfl⟩ := Option.map_eq_some_iff.mp hj
  have hmem := List.mem_of_getElem? hg'
  by_cases hij : i = j
  · rw [if_pos hij]
    exact Or.inr ⟨g', hmem, rfl⟩
  · rw [if_neg hij]
    exact Or.inl hmem

/-- A task that stamps at most one message, now. -/
theorem refines_update (s : State) (i : Nat) {f : Generation → Generation}
    (h : ∀ g t, t ∈ (f g).stamps → t = s.nowUs ∨ t ∈ g.stamps) :
    InTransit.Step s.transport (s.update i f).transport := by
  apply InTransit.Step.depart
  rintro t ⟨g, hg, ht⟩
  rcases mem_modify hg with hg | ⟨g', hg', rfl⟩
  · exact Or.inr ⟨g, hg, ht⟩
  · rcases h g' t ht with rfl | ht
    · exact Or.inl rfl
    · exact Or.inr ⟨g', hg', ht⟩

/-- What a dispatcher can send is the first of its unsent records. -/
theorem State.nextSend_eq_some {s : State} {i : Nat} {record : PersistedRecord}
    (h : s.nextSend i = some record) : ∃ g ∈ s.generations, record ∈ g.unsent := by
  unfold State.nextSend at h
  split at h
  · obtain ⟨g, hg, hrecord⟩ := Option.bind_eq_some_iff.mp h
    exact ⟨g, List.mem_of_getElem? hg, List.mem_of_mem_head? hrecord⟩
  · cases h

/-- A record that overtakes nothing arrives. -/
theorem refines_send (s : State) (i : Nat) {record : PersistedRecord}
    (hnext : s.nextSend i = some record) (hok : Unovertaken s (.send i)) :
    InTransit.Step s.transport
      { s with
        generations := s.generations.modify i Generation.sent
        events := s.events ++ [record] : State }.transport := by
  have hpending : {t | ∃ g ∈ s.generations.modify i Generation.sent, t ∈ g.stamps} ⊆
      {t | ∃ g ∈ s.generations, t ∈ g.stamps} := by
    rintro t ⟨g, hg, ht⟩
    rcases mem_modify hg with hg | ⟨g', hg', rfl⟩
    · exact ⟨g, hg, ht⟩
    · exact ⟨g', hg', Generation.stamps_sent ht⟩
  unfold State.transport
  dsimp only
  rw [← List.append_assoc, timestamps_append _ [record], timestamps_singleton]
  split
  · apply InTransit.Step.arrive _ _ hpending
    · obtain ⟨g, hg, hrecord⟩ := State.nextSend_eq_some hnext
      exact ⟨g, hg, Generation.mem_stamps.mpr (Or.inr (Or.inr ⟨record, hrecord, rfl⟩))⟩
    · rintro t ⟨g, hg, ht⟩
      exact hok record hnext g hg t ht
  · rw [List.append_nil]
    exact InTransit.Step.lose hpending (List.Sublist.refl _)

section

variable [Crc32c] [Bincode]

/-- A record that `wal_drain` takes is dropped, appended, or too large to append. -/
theorem State.drain_cases (s : State) (w : WalWriter) (record : PersistedRecord)
    (fannedOut : Bool) :
    let stamped := Ingest.stamp s.ingestOrdinal w.globalOffset record
    let ordinal := Ingest.nextOrdinal s.ingestOrdinal record
    s.drain w record fannedOut = { s with ingestOrdinal := ordinal } ∨
      ∃ payload, Codec.encode stamped = .ok payload ∧
        (payload.length ≤ maxRecordSize ∧ s.drain w record fannedOut =
            { s with
              ingestOrdinal := ordinal
              disk := (s.disk.roomMade w payload).buffered (w.makeRoom payload s.disk.dir).1 payload
              appended := s.appended ++ [stamped]
              stopped := !fannedOut } ∨
          s.drain w record fannedOut =
            { s with
              ingestOrdinal := ordinal
              disk := s.disk.roomMade w payload
              stopped := true }) := by
  intro stamped ordinal
  unfold State.drain
  dsimp only
  split
  · exact Or.inl rfl
  · rename_i payload hencode
    refine Or.inr ⟨payload, hencode, ?_⟩
    rcases Disk.append_cases s.disk w payload with ⟨hmax, happend⟩ | happend
    · rw [happend]
      exact Or.inl ⟨hmax, rfl⟩
    · rw [happend]
      exact Or.inr rfl

/-- What `wal_drain` does with a record is no more than losing it. -/
theorem refines_drain (s : State) (w : WalWriter) {record : PersistedRecord}
    {events : List PersistedRecord} (hevents : s.events = record :: events) (fannedOut : Bool) :
    InTransit.Step s.transport
      (({ s with events := events } : State).drain w record fannedOut).transport := by
  have hlost : (timestamps (s.appended ++ events)).Sublist
      (timestamps (s.appended ++ s.events)) := by
    rw [hevents, ← List.singleton_append, timestamps_append, timestamps_append, timestamps_append]
    exact (List.Sublist.refl _).append (List.sublist_append_right _ _)
  rcases State.drain_cases { s with events := events } w record fannedOut with
    hdrain | ⟨payload, -, ⟨-, hdrain⟩ | hdrain⟩
  · rw [hdrain]
    exact InTransit.Step.lose Set.Subset.rfl hlost
  · have hsame : timestamps (s.appended ++
        [Ingest.stamp s.ingestOrdinal w.globalOffset record] ++ events) =
          timestamps (s.appended ++ s.events) := by
      rw [hevents, timestamps_append, timestamps_append _ [_], timestamps_stamp,
        ← timestamps_append, ← timestamps_append, List.append_assoc, List.singleton_append]
    rw [hdrain]
    exact InTransit.Step.lose Set.Subset.rfl (hsame ▸ List.Sublist.refl _)
  · rw [hdrain]
    exact InTransit.Step.lose Set.Subset.rfl hlost

/-- **The pipeline is a transport without overtaking**, step by step. -/
theorem step_refines (config : WalConfig) (s : State) (e : Event) (hok : Unovertaken s e) :
    InTransit.Step s.transport (step config s e).transport := by
  cases e with
  | tick elapsedUs => exact InTransit.Step.wait (Nat.le_add_right _ _)
  | openWriter =>
      simp only [step]
      split
      · exact refines_unseen s
      · exact refines_unseen s
  | spawn =>
      apply InTransit.Step.lose _ (List.Sublist.refl _)
      rintro t ⟨g, hg, ht⟩
      rcases List.mem_append.mp hg with hg | hg
      · exact ⟨g, hg, ht⟩
      · rw [List.mem_singleton.mp hg] at ht
        cases ht
  | frame i message => exact refines_update s i fun g t ht => Generation.stamps_stamp ht
  | connection i kind sessionId details =>
      exact refines_update s i fun g t ht => Generation.stamps_stamp ht
  | resnapshot i resp => exact refines_update s i fun g t ht => Generation.stamps_stamp ht
  | queue i sender => exact refines_update s i fun g t ht => Or.inr (Generation.stamps_queue ht)
  | dispatch i => exact refines_update s i fun g t ht => Or.inr (Generation.stamps_dispatchNext ht)
  | send i =>
      cases hnext : s.nextSend i with
      | some record =>
          simp only [step, hnext]
          exact refines_send s i hnext hok
      | none =>
          simp only [step, hnext]
          split
          · apply refines_update s i
            intro g t ht
            rw [Generation.stamps_close] at ht
            cases ht
          · exact refines_unseen s
  | retire i => exact refines_update s i fun g t ht => Or.inr (Generation.stamps_retire ht)
  | checkpoint c =>
      simp only [step]
      split
      · have hsame : timestamps (s.appended ++ (s.events ++ [.checkpoint c])) =
            timestamps (s.appended ++ s.events) := by
          rw [← List.append_assoc, timestamps_append _ [_], timestamps_singleton]
          exact List.append_nil _
        exact InTransit.Step.lose Set.Subset.rfl (hsame ▸ List.Sublist.refl _)
      · exact refines_unseen s
  | drain fannedOut =>
      simp only [step]
      split
      · rename_i w record events hwriter hevents
        split
        · exact refines_unseen s
        · exact refines_drain s w hevents fannedOut
      · exact refines_unseen s
  | spill k => exact refines_unseen s
  | flush => exact refines_unseen s
  | sync => exact refines_unseen s
  | prune files =>
      simp only [step]
      split
      · exact refines_unseen s
      · exact refines_unseen s
  | crash kept =>
      refine InTransit.Step.lose ?_ ?_
      · rintro t ⟨g, hg, ht⟩
        cases hg
      · rw [timestamps_append, timestamps_append]
        exact (List.Sublist.refl _).append (List.nil_sublist _)

/-- An event that overtakes nothing keeps the order. -/
theorem State.InOrder.step {s : State} (h : s.InOrder) (config : WalConfig) {e : Event}
    (hok : Unovertaken s e) : (step config s e).InOrder :=
  InTransit.InOrder.step (step_refines config s e hok) h

/-- While nothing overtakes, what is appended and what is on the event channel is in order. -/
theorem State.InOrder.of_unovertaken (config : WalConfig) (nowUs : Nat) {events : List Event}
    (h : Runs.Meets (FeedPipeline.step config) Unovertaken (.init nowUs) events) :
    (Runs.run (FeedPipeline.step config) (.init nowUs) events).InOrder :=
  Runs.Meets.induction (fun _ _ hinv hok => hinv.step config hok) (State.InOrder.init nowUs) h

/-! ## The log -/

/-- The records as they are encoded. -/
def payloads (records : List PersistedRecord) : List Bytes :=
  records.filterMap fun record => (Codec.encode record).toOption

/-- The log holds what has been appended and not been lost, in the same order. -/
structure State.Logged (s : State) : Prop where
  disk : s.disk.Inv
  log : s.disk.log.Sublist (payloads s.appended)

namespace State.Logged

variable {s : State}

/-- Nothing has been drained at the start. -/
theorem init (nowUs : Nat) : (State.init nowUs).Logged where
  disk := Disk.Inv.init
  log := by
    rw [Disk.log_of_unwritten fun _ => rfl]
    exact List.nil_sublist _

/-- The disk does what is no append. -/
theorem of_disk (config : WalConfig) {e : DiskEvent} (he : ∀ payload, e ≠ .append payload)
    (h : s.Logged) : ({ s with disk := s.disk.step config e } : State).Logged where
  disk := h.disk.step config e
  log := (h.disk.log_isPrefix config he).sublist.trans h.log

/-- Pruning forgets no payload. -/
theorem prune {w : WalWriter} (hwriter : s.disk.writer = some w) (files : List (Option String))
    (h : s.Logged) :
    State.Logged { s with
      disk := { s.disk with dir := w.pruneWithBackpressure files s.disk.dir } } where
  disk := h.disk.prune hwriter files
  log := by
    rw [h.disk.log_prune hwriter files]
    exact h.log

/-- Draining a record logs its payload. -/
theorem drain {w : WalWriter} (hwriter : s.disk.writer = some w) (record : PersistedRecord)
    (fannedOut : Bool) (h : s.Logged) : (s.drain w record fannedOut).Logged := by
  obtain ⟨hlayout, hdurable⟩ := h.disk.layout hwriter
  rcases State.drain_cases s w record fannedOut with
    hdrain | ⟨payload, hencode, ⟨hmax, hdrain⟩ | hdrain⟩
  · rw [hdrain]
    exact ⟨h.disk, h.log⟩
  · have hok : Recordable payload := ⟨Codec.encode_ne_nil hencode, hmax⟩
    have hroom := hlayout.makeRoom payload
    have hlog := Disk.log_buffered (d := s.disk.roomMade w payload) hroom hok
    rw [Disk.log_roomMade hlayout] at hlog
    rw [hdrain]
    refine ⟨(Disk.Inv.roomMade hlayout hdurable payload).buffered rfl hok, ?_⟩
    dsimp only
    rw [hlog, payloads, List.filterMap_append]
    apply h.log.append
    simp only [List.filterMap_cons, List.filterMap_nil, hencode, Except.toOption]
    exact List.Sublist.refl _
  · rw [hdrain]
    refine ⟨Disk.Inv.roomMade hlayout hdurable payload, ?_⟩
    dsimp only
    rw [Disk.log_roomMade hlayout]
    exact h.log

/-- **Every step keeps the log in the order of the appends.** -/
theorem step (config : WalConfig) (e : Event) (h : s.Logged) :
    (FeedPipeline.step config s e).Logged := by
  cases e with
  | tick elapsedUs => exact ⟨h.disk, h.log⟩
  | openWriter =>
      simp only [FeedPipeline.step]
      split
      · exact h
      · have hopen := h.of_disk config (e := .openWriter) (by simp)
        exact ⟨hopen.disk, hopen.log⟩
  | spawn => exact ⟨h.disk, h.log⟩
  | frame i message => exact ⟨h.disk, h.log⟩
  | connection i kind sessionId details => exact ⟨h.disk, h.log⟩
  | resnapshot i resp => exact ⟨h.disk, h.log⟩
  | queue i sender => exact ⟨h.disk, h.log⟩
  | dispatch i => exact ⟨h.disk, h.log⟩
  | send i =>
      simp only [FeedPipeline.step]
      split
      · exact ⟨h.disk, h.log⟩
      · split
        · exact ⟨h.disk, h.log⟩
        · exact h
  | retire i => exact ⟨h.disk, h.log⟩
  | checkpoint c =>
      simp only [FeedPipeline.step]
      split
      · exact ⟨h.disk, h.log⟩
      · exact h
  | drain fannedOut =>
      simp only [FeedPipeline.step]
      split
      · rename_i w record events hwriter hevents
        split
        · exact h
        · exact drain (s := { s with events := events }) hwriter record fannedOut ⟨h.disk, h.log⟩
      · exact h
  | spill k => exact h.of_disk config (by simp)
  | flush => exact h.of_disk config (by simp)
  | sync => exact h.of_disk config (by simp)
  | prune files =>
      simp only [FeedPipeline.step]
      split
      · exact h
      · rename_i w hwriter
        exact h.prune hwriter files
  | crash kept =>
      have hcrash := h.of_disk config (e := .crash kept) (by simp)
      exact ⟨hcrash.disk, hcrash.log⟩

/-- In every run what was drained has been logged. -/
theorem run (config : WalConfig) (nowUs : Nat) (events : List Event) :
    (Runs.run (FeedPipeline.step config) (.init nowUs) events).Logged :=
  Runs.run_induction (fun _ e h => h.step config e) (init nowUs) events

end State.Logged

end

end FeedPipeline

/-! ## What `reconcile` demands -/

namespace Reconcile

/-- A record that is not older than the last one extends an ordered history. -/
theorem ordered_concat_iff {xs : List PersistedRecord} {x : PersistedRecord} :
    Ordered (xs ++ [x]) ↔
      Ordered xs ∧ ∀ last ∈ xs.getLast?, last.partitionTimestampUs ≤ x.partitionTimestampUs := by
  unfold Ordered
  rw [List.pairwise_append]
  constructor
  · rintro ⟨hxs, -, hle⟩
    exact ⟨hxs, fun last hlast => hle last (List.mem_of_getLast? hlast) x List.mem_cons_self⟩
  · rintro ⟨hxs, hlast⟩
    refine ⟨hxs, List.pairwise_singleton _ _, ?_⟩
    intro y hy z hz
    rw [List.mem_singleton.mp hz]
    -- nothing is newer than the last record
    have hnewest := hxs.rel_getLast_of_rel_getLast_getLast hy (Nat.le_refl _)
    exact hnewest.trans (hlast _ (List.getLast_mem_getLast? _))

variable [Bincode]

/-- The first pass takes every record but one that is older than the last. -/
theorem Survey.Knows.observe_ok_iff {payloads : List Bytes} {s : Survey} (h : s.Knows payloads)
    {payload : Bytes} {record : PersistedRecord} (hdecode : Codec.decode payload = .ok record) :
    (∃ s', s.observe payload = .ok s') ↔ (record.isReceiveTimePartitioned = true →
      ∀ last ∈ (supported payloads).getLast?,
        last.partitionTimestampUs ≤ record.partitionTimestampUs) := by
  unfold Survey.observe
  dsimp only
  rw [hdecode]
  dsimp only
  by_cases hpartitioned : record.isReceiveTimePartitioned = true
  · rw [PersistedRecord.recvTimestampUs_of_partitioned hpartitioned, Option.getD_some, h.last,
      hpartitioned]
    cases (supported payloads).getLast? with
    | none => simp
    | some last =>
        by_cases hlt : record.partitionTimestampUs < last.partitionTimestampUs
        · simp [hlt]
        · simp [hlt, Nat.not_lt.mp hlt]
  · simp [hpartitioned]

/-- **The first pass goes through a log** that can be decoded if and only if its receive
timestamps do not go backwards. -/
theorem survey_ok_iff {payloads : List Bytes}
    (hdecodable : ∀ payload ∈ payloads, ∃ record, Codec.decode payload = .ok record) :
    (∃ survey, payloads.foldlM Survey.observe .init = .ok survey) ↔
      Ordered (supported payloads) := by
  induction payloads using List.reverseRecOn with
  | nil => exact ⟨fun _ => List.Pairwise.nil, fun _ => ⟨.init, rfl⟩⟩
  | append_singleton payloads payload ih =>
      have hih := ih fun p hp => hdecodable p (List.mem_append_left _ hp)
      obtain ⟨record, hdecode⟩ := hdecodable payload (by simp)
      have hordered : Ordered (supported (payloads ++ [payload])) ↔
          Ordered (supported payloads) ∧ (record.isReceiveTimePartitioned = true →
            ∀ last ∈ (supported payloads).getLast?,
              last.partitionTimestampUs ≤ record.partitionTimestampUs) := by
        rw [supported_append, supported_of_decode hdecode]
        by_cases hpartitioned : record.isReceiveTimePartitioned = true
        · rw [if_pos hpartitioned, ordered_concat_iff]
          simp [hpartitioned]
        · rw [if_neg hpartitioned, List.append_nil]
          simp [hpartitioned]
      rw [hordered, ← hih]
      constructor
      · rintro ⟨survey, hsurvey⟩
        obtain ⟨s, hs, hobserve⟩ := Folds.foldlM_concat_ok_iff.mp hsurvey
        exact ⟨⟨s, hs⟩, ((Survey.knows_of_fold hs).observe_ok_iff hdecode).mp ⟨survey, hobserve⟩⟩
      · rintro ⟨⟨s, hs⟩, hnext⟩
        obtain ⟨survey, hobserve⟩ := ((Survey.knows_of_fold hs).observe_ok_iff hdecode).mpr hnext
        exact ⟨survey, Folds.foldlM_concat_ok_iff.mpr ⟨s, hs, hobserve⟩⟩

end Reconcile

namespace FeedPipeline

section

variable [Bincode]

/-- The records that can be read back from their payloads. -/
def ReadBack (records : List PersistedRecord) : Prop :=
  ∀ record ∈ records, ∀ payload, Codec.encode record = .ok payload →
    Codec.decode payload = .ok record

/-- Payloads that are read back decode. -/
theorem ReadBack.decodable {records : List PersistedRecord} (h : ReadBack records) :
    ∀ payload ∈ payloads records, ∃ record, Codec.decode payload = .ok record := by
  intro payload hpayload
  obtain ⟨record, hrecord, hencode⟩ := List.mem_filterMap.mp hpayload
  cases hcase : Codec.encode record with
  | error e =>
      rw [hcase] at hencode
      cases hencode
  | ok encoded =>
      rw [hcase] at hencode
      cases hencode
      exact ⟨record, h record hrecord payload hcase⟩

/-- What `reconcile` decodes is what was appended. -/
theorem ReadBack.supported_sublist {records : List PersistedRecord} (h : ReadBack records) :
    (Reconcile.supported (payloads records)).Sublist
      (records.filter (·.isReceiveTimePartitioned)) := by
  apply List.Sublist.filter
  rw [payloads, List.filterMap_filterMap]
  induction records with
  | nil => exact List.Sublist.refl _
  | cons record records ih =>
      have hrest := ih fun x hx => h x (List.mem_cons_of_mem _ hx)
      rw [List.filterMap_cons]
      cases hencode : Codec.encode record with
      | error e => exact hrest.cons record
      | ok payload =>
          have hread := h record List.mem_cons_self payload hencode
          simp only [Except.toOption, Option.bind_some, hread]
          exact hrest.cons_cons record

variable [Crc32c]

/-- **The log is in receive order unless a message is overtaken.**  In a run in which no
record enters the event channel while a message that was stamped earlier has still to be
sent, the book, trade and ingest records that `wal_drain` appends have nondecreasing receive
timestamps, and the first pass of `reconcile` goes through what the log retains of them. -/
theorem log_ordered_of_unovertaken (config : WalConfig) (nowUs : Nat) (events : List Event)
    (h : Runs.Meets (step config) Unovertaken (.init nowUs) events) :
    let s := Runs.run (step config) (.init nowUs) events
    Reconcile.Ordered (s.appended.filter (·.isReceiveTimePartitioned)) ∧
      (ReadBack s.appended → s.disk.dir.Clean →
        ∃ survey : Reconcile.Survey, Reconcile.validate s.disk.dir = survey.plan) := by
  intro s
  have hordered := (State.InOrder.of_unovertaken config nowUs h).appended
  refine ⟨hordered, ?_⟩
  intro hread hclean
  have hlogged : s.Logged := State.Logged.run config nowUs events
  have hretained : s.disk.dir.payloads.Sublist (payloads s.appended) :=
    hlogged.disk.payloads_sublist.trans hlogged.log
  have hdecodable : ∀ payload ∈ s.disk.dir.payloads, ∃ record,
      Codec.decode payload = .ok record := by
    intro payload hpayload
    exact hread.decodable payload (hretained.subset hpayload)
  have hsupported : (Reconcile.supported s.disk.dir.payloads).Sublist
      (s.appended.filter (·.isReceiveTimePartitioned)) :=
    ((hretained.filterMap _).filter _).trans hread.supported_sublist
  obtain ⟨survey, hsurvey⟩ :=
    (Reconcile.survey_ok_iff hdecodable).mpr (hordered.sublist hsupported)
  refine ⟨survey, ?_⟩
  unfold Reconcile.validate
  rw [(WalReader.foldStrict_spec _ _ _ _ _).1 hclean, hsurvey]

end

/-- The values of the fields are those their types have in the source. -/
theorem ReadBack.of_representable [BincodeFormat] [LawfulBincodeFormat]
    {records : List PersistedRecord} (h : ∀ record ∈ records, record.Representable) :
    ReadBack records := by
  intro record hrecord payload hencode
  rw [encode_eq] at hencode
  cases hencode
  exact decode_payload (h record hrecord)

attribute [local instance] littleEndian

/-! Two generations during a rotation, each with one trade. -/
namespace TwoTrades

/-- The configuration of the sample run. -/
def config : WalConfig := ⟨4096, 64, 1048576⟩

/-- A trade of an asset, as a frame. -/
def trade (assetId : AssetId) : Option WsMessage :=
  some (.lastTradePrice ⟨assetId, "0.5", some "3", some "BUY", none, some "0x61"⟩)

/-- The old generation receives its trade 10 µs before the new one. -/
def received : List Event :=
  [.openWriter, .spawn, .spawn, .frame 0 (trade "old"), .tick 10, .frame 1 (trade "new")]

/-- A generation's message is queued, dispatched and sent. -/
def pass (i : Nat) : List Event := [.queue i .wsClient, .dispatch i, .send i]

/-- `wal_drain` appends both records. -/
def drained : List Event := [.drain true, .drain true, .flush]

/-- The process, started on a new log. -/
def run (events : List Event) : State :=
  Runs.run (step config) (.init 1700000000000000) events

end TwoTrades

open TwoTrades in
set_option maxRecDepth 4000 in
/-- The dispatchers send in receive order. -/
theorem log_ordered_of_unovertaken_rotation :
    Reconcile.Ordered ((run (received ++ pass 0 ++ pass 1 ++ drained)).appended.filter
        (·.isReceiveTimePartitioned)) ∧
      ∃ survey : Reconcile.Survey,
        Reconcile.validate (run (received ++ pass 0 ++ pass 1 ++ drained)).disk.dir =
          survey.plan := by
  have h := log_ordered_of_unovertaken config 1700000000000000
    (received ++ pass 0 ++ pass 1 ++ drained) (by decide +kernel)
  refine ⟨h.1, h.2 ?_ ?_⟩
  · exact ReadBack.of_representable (by decide +kernel)
  · have hfile : ∃ file, (run (received ++ pass 0 ++ pass 1 ++ drained)).disk.dir[0]? = some file :=
      Dir.getElem?_of_mem_keys (by decide +kernel)
    obtain ⟨file, hfile⟩ := hfile
    exact WalReader.clean_of_scanStrict "reconcile-validate" hfile (by decide +kernel)

open TwoTrades in
set_option maxRecDepth 4000 in
/-- The new generation's dispatcher sends first. -/
theorem overtaken_log_refused :
    ¬ Reconcile.Ordered ((run (received ++ pass 1 ++ pass 0 ++ drained)).appended.filter
        (·.isReceiveTimePartitioned)) ∧
      (Reconcile.run (fun _ => .ok 0)
          (run (received ++ pass 1 ++ pass 0 ++ drained)).disk.dir).result =
        .error (.refused ("unsafe recovery disabled: receive timestamps move backwards at " ++
          "1700000000000000; no Parquet data changed")) := by
  refine ⟨by decide +kernel, by decide +kernel⟩

end FeedPipeline

end PolyBook
