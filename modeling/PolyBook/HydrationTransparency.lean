import PolyBook.CheckpointReplay
import PolyBook.Library.Runs

/-!
# Hydration is transparent when the cut is clean

The cut of a checkpoint is made when `wal_drain` comes to it, some time after the
capture.  Changes newer than the capture that reach the log before the cut are
lost, and a book message that the cut falls into is replayed in part.

`hydration_transparent` shows that in every run in which neither happens,
hydrating gives the book that the whole log gives.
-/

namespace PolyBook

open Wal

namespace Ingest

/-! ## The writer's offsets -/

/-- The active segment is the newest and not over-full. -/
structure WriterOk (w : WalWriter) : Prop where
  next : w.nextSegmentId = w.active.id + 1
  le_size : w.active.writeOffset ≤ w.config.segmentSize

theorem WriterOk.flush {w : WalWriter} (h : WriterOk w) (dir : Dir) : WriterOk (w.flush dir).1 :=
  ⟨h.next, h.le_size⟩

/-- **Global offsets grow.** -/
theorem WriterOk.append [Crc32c] {w : WalWriter} (h : WriterOk w) {payload : Bytes}
    (hrecord : payload.length ≤ maxRecordSize)
    (hsegment : headerSize + payload.length ≤ w.config.segmentSize) (dir : Dir) :
    ∃ writer next offset, w.append payload dir = (writer, next, .ok offset) ∧ WriterOk writer ∧
      writer.config = w.config ∧ w.globalOffset < writer.globalOffset := by
  have hheader : 0 < headerSize := by decide
  have hlarge : ¬ maxRecordSize < payload.length := Nat.not_lt.mpr hrecord
  unfold WalWriter.append WalWriter.makeRoom
  by_cases hrotates : w.rotates payload = true
  · rw [if_pos hrotates]
    simp only [WalWriter.rotate, Segment.create, Segment.append, if_neg hlarge]
    refine ⟨_, _, _, rfl, ⟨rfl, ?_⟩, rfl, ?_⟩
    · dsimp only
      omega
    · unfold WalWriter.globalOffset
      dsimp only
      have hle := h.le_size
      rw [h.next, Nat.add_mul]
      omega
  · rw [if_neg hrotates]
    simp only [Segment.append, if_neg hlarge]
    have hroom : headerSize + payload.length ≤ w.config.segmentSize - w.active.writeOffset := by
      simp only [WalWriter.rotates, Segment.remaining] at hrotates
      exact Nat.not_lt.mp fun hlt => hrotates (decide_eq_true hlt)
    refine ⟨_, _, _, rfl, ⟨h.next, ?_⟩, rfl, ?_⟩
    · dsimp only
      omega
    · unfold WalWriter.globalOffset
      dsimp only
      omega

/-! ## The stamps -/

variable {a : AssetId}

/-- The entry of a record that was drained. -/
structure Logged (x : Sent) (entry : LogEntry) : Prop where
  version : entry.version = x.version
  record : ∃ ordinal offset, entry.record = stamp ordinal offset x.record

theorem apply_stamp (v : AssetView) (ordinal offset : Nat) (x : PersistedRecord) :
    v.apply a (stamp ordinal offset x) = v.apply a x := by
  cases x <;> rfl

theorem bookRecord_stamp (ordinal offset : Nat) (x : PersistedRecord) :
    (bookRecord (stamp ordinal offset x)).isSome = (bookRecord x).isSome := by
  cases x <;> rfl

theorem isSome_of_isSnapshot {x : PersistedRecord} (h : isSnapshot x = true) :
    (bookRecord x).isSome = true := by
  cases x with
  | book e => rfl
  | trade e => cases h
  | ingest e => cases h
  | checkpoint e => cases h
  | validation e => cases h

/-- What a stamped checkpoint was before. -/
theorem eq_checkpoint_of_stamp {ordinal offset : Nat} {x : PersistedRecord}
    {checkpoint : BookCheckpoint} (h : stamp ordinal offset x = .checkpoint checkpoint) :
    checkpoint.walOffset = some offset ∧ ∃ original, x = .checkpoint original ∧
      hydratedView a checkpoint = hydratedView a original := by
  cases x with
  | checkpoint original =>
      cases h
      exact ⟨rfl, original, rfl, rfl⟩
  | book e => cases h
  | trade e => cases h
  | ingest e => cases h
  | validation e => cases h

theorem exists_logged {xs : List Sent} {log : List LogEntry} (h : List.Forall₂ Logged xs log)
    {x : Sent} (hx : x ∈ xs) : ∃ entry ∈ log, Logged x entry := by
  induction h with
  | nil => cases hx
  | @cons y entry xs log hy _ ih =>
      obtain rfl | hx := List.mem_cons.mp hx
      · exact ⟨entry, List.mem_cons_self, hy⟩
      · obtain ⟨found, hfound, hlogged⟩ := ih hx
        exact ⟨found, List.mem_cons_of_mem _ hfound, hlogged⟩

theorem exists_sent {xs : List Sent} {log : List LogEntry} (h : List.Forall₂ Logged xs log)
    {entry : LogEntry} (hentry : entry ∈ log) : ∃ x ∈ xs, Logged x entry := by
  induction h with
  | nil => cases hentry
  | @cons x found xs log hx _ ih =>
      obtain rfl | hentry := List.mem_cons.mp hentry
      · exact ⟨x, List.mem_cons_self, hx⟩
      · obtain ⟨sent, hsent, hlogged⟩ := ih hentry
        exact ⟨sent, List.mem_cons_of_mem _ hsent, hlogged⟩

theorem exists_logged_split {xs : List Sent} {before after : List LogEntry} {entry : LogEntry}
    (h : List.Forall₂ Logged xs (before ++ entry :: after)) :
    ∃ xsBefore x xsAfter, xs = xsBefore ++ x :: xsAfter ∧ List.Forall₂ Logged xsBefore before ∧
      Logged x entry ∧ List.Forall₂ Logged xsAfter after := by
  obtain ⟨x, xsAfter, hx, hafter, hdrop⟩ :=
    List.forall₂_cons_right_iff.mp (List.forall₂_drop_append xs before (entry :: after) h)
  refine ⟨_, x, xsAfter, ?_, List.forall₂_take_append xs before (entry :: after) h, hx, hafter⟩
  rw [← hdrop, List.take_append_drop]

theorem applyAll_logged {xs : List Sent} {log : List LogEntry} (h : List.Forall₂ Logged xs log)
    (v : AssetView) : v.applyAll a (records log) = v.applyAll a (xs.map Sent.record) := by
  induction h generalizing v with
  | nil => rfl
  | @cons x entry xs log hx _ ih =>
      obtain ⟨ordinal, offset, hrecord⟩ := hx.record
      have happly : v.apply a entry.record = v.apply a x.record := by
        rw [hrecord]
        exact apply_stamp v ordinal offset x.record
      rw [records, List.map_cons, List.map_cons, AssetView.applyAll_cons, AssetView.applyAll_cons,
        happly]
      exact ih _

/-! ## The invariant -/

variable {c : Capacity}

/-- A checkpoint of what the venue's book was. -/
def Captured (c : Capacity) (changes : List (VenueChange a)) (x : Sent) : Prop :=
  ∃ checkpoint, x.record = .checkpoint checkpoint ∧ Listed c changes checkpoint x.version

/-- A checkpoint's cut lies before its own frame and after the frames before it. -/
def Cuts (log : List LogEntry) : Prop :=
  ∀ before entry after, log = before ++ entry :: after → ∀ checkpoint cut,
    entry.record = .checkpoint checkpoint → checkpoint.walOffset = some cut →
    (∀ y ∈ before, y.offset ≤ cut) ∧ ∀ y ∈ entry :: after, cut < y.offset

/-- What holds after every clean step. -/
structure Inv (c : Capacity) (s : State a) : Prop where
  running : s.stopped = false
  writer : WriterOk s.writer
  venue : s.venue.Within c
  content : s.venue.content = contentAfter s.changes s.changes.length
  dispatched : Dispatched c s.changes
  unsent : ∀ x ∈ s.unsent, (bookRecord x.record).isSome = true
  captured : ∀ x ∈ s.captured, Captured c s.changes x
  channel : ∀ x ∈ s.channel, (bookRecord x.record).isSome = true ∨ Captured c s.changes x
  delivered : ∃ xs n seen, Delivered c s.changes xs n seen ∧ List.Forall₂ Logged xs s.log ∧
    books xs ++ books (s.channel ++ s.unsent) = numbered 0 s.changes
  offsets : ∀ y ∈ s.log, y.offset ≤ s.writer.globalOffset
  cuts : Cuts s.log

theorem Captured.mono {changes : List (VenueChange a)} {x : Sent} (h : Captured c changes x)
    (more : List (VenueChange a)) : Captured c (changes ++ more) x := by
  obtain ⟨checkpoint, hx, hlisted⟩ := h
  exact ⟨checkpoint, hx, hlisted.mono more⟩

theorem Dispatched.concat {changes : List (VenueChange a)} (h : Dispatched c changes)
    {m : VenueChange a} (hadmits : c.AdmitsEvents m.events)
    (hkey : ∀ last ∈ changes.getLast?, last.kind = .snapshot → m.kind = .snapshot →
      last.first.groupKey ≠ m.first.groupKey) : Dispatched c (changes ++ [m]) := by
  refine ⟨fun x hx => ?_, fun k last x hlast hx => ?_⟩
  · obtain hx | hx := List.mem_append.mp hx
    · exact h.admits x hx
    · rw [List.mem_singleton.mp hx]
      exact hadmits
  · have hlt := (List.getElem?_eq_some_iff.mp hx).1
    rw [List.length_append, List.length_singleton] at hlt
    rw [List.getElem?_append_left (by omega)] at hlast
    by_cases hlast_change : k + 1 < changes.length
    · rw [List.getElem?_append_left hlast_change] at hx
      exact h.keys k last x hlast hx
    · have hk : k + 1 = changes.length := by omega
      rw [hk, List.getElem?_concat_length, Option.some.injEq] at hx
      subst hx
      refine hkey last ?_
      rw [List.getLast?_eq_getElem?, ← hk, Nat.add_sub_cancel]
      exact hlast

theorem inv_init [Crc32c] (c : Capacity) (a : AssetId) (config : WalConfig) :
    Inv c (State.init a config) := by
  refine
    { running := rfl
      writer := ⟨rfl, Nat.zero_le _⟩
      venue := .new c a
      content := ?_
      dispatched := ⟨fun m hm => (nomatch hm), fun k last m hm => (nomatch hm)⟩
      unsent := fun x hx => (nomatch hx)
      captured := fun x hx => (nomatch hx)
      channel := fun x hx => (nomatch hx)
      delivered := ⟨[], 0, [], .nil, .nil, rfl⟩
      offsets := fun y hy => (nomatch hy)
      cuts := ?_ }
  · funext k
    obtain ⟨side, price⟩ := k
    cases side <;> simp [State.init, L2Book.content, L2Book.new, contentAfter]
  · intro before entry after h
    simp [State.init] at h

theorem Cuts.concat {log : List LogEntry} (h : Cuts log) {offset : Nat}
    (hoffsets : ∀ y ∈ log, y.offset ≤ offset) {x : LogEntry} (hx : offset < x.offset)
    (hcut : ∀ checkpoint, x.record = .checkpoint checkpoint →
      checkpoint.walOffset = some offset) : Cuts (log ++ [x]) := by
  intro before entry after hlog checkpoint cut hentry hwal
  obtain ⟨rfl, rfl, rfl⟩ | ⟨init, rfl, rfl⟩ := concat_eq_append_cons hlog
  · obtain rfl : offset = cut := by
      have := hcut checkpoint hentry
      rw [hwal, Option.some.injEq] at this
      exact this.symm
    exact ⟨hoffsets, fun y hy => List.mem_singleton.mp hy ▸ hx⟩
  · obtain ⟨hbefore, hafter⟩ := h before entry init rfl checkpoint cut hentry hwal
    refine ⟨hbefore, fun y hy => ?_⟩
    rw [← List.cons_append] at hy
    obtain hy | hy := List.mem_append.mp hy
    · exact hafter y hy
    · rw [List.mem_singleton.mp hy]
      have hentry_lt := hafter entry List.mem_cons_self
      have hentry_le := hoffsets entry (List.mem_append_right _ List.mem_cons_self)
      omega

/-- **The cut of a clean run** comes between two changes, none of them newer than
the captured book. -/
theorem State.CutIsClean.position {s : State a} {x : Sent} (hclean : s.CutIsClean x)
    {xs : List Sent} {n : Nat} {seen : List BookEvent}
    (hdelivered : Delivered c s.changes xs n seen) (hlogged : List.Forall₂ Logged xs s.log)
    (hbooks : books xs ++ books (s.channel ++ s.unsent) = numbered 0 s.changes) :
    seen = [] ∧ n ≤ x.version := by
  have hlog : ∀ y ∈ books xs, ∃ entry ∈ s.log, (bookRecord entry.record).isSome = true ∧
      entry.version = y.version := by
    intro y hy
    obtain ⟨hmem, hbook⟩ := List.mem_filter.mp hy
    obtain ⟨entry, hentry, hversion, ordinal, offset, hrecord⟩ := exists_logged hlogged hmem
    exact ⟨entry, hentry, by rw [hrecord, bookRecord_stamp]; exact hbook, hversion⟩
  refine ⟨?_, ?_⟩
  · by_contra hseen
    obtain ⟨m, e, rest, hm, hevents⟩ := hdelivered.seen_prefix hseen
    obtain ⟨first, tail, rfl⟩ := List.exists_cons_of_ne_nil hseen
    have hfirst : (⟨.book first, n + 1⟩ : Sent) ∈ books xs := by
      rw [hdelivered.books_eq]
      exact List.mem_append_right _ List.mem_cons_self
    have hnext : (⟨.book e, n + 1⟩ : Sent) ∈ books (s.channel ++ s.unsent) := by
      rw [hdelivered.books_eq, numbered_split hm, List.append_assoc, List.append_cancel_left_eq,
        hevents, List.map_append, List.append_assoc, List.append_cancel_left_eq] at hbooks
      rw [hbooks]
      exact List.mem_append_left _ List.mem_cons_self
    obtain ⟨entry, hentry, hbook, hversion⟩ := hlog _ hfirst
    exact hclean.2 entry hentry _ (List.mem_filter.mp hnext).1 hbook rfl hversion
  · cases n with
    | zero => exact Nat.zero_le _
    | succ k =>
        have hlt : k < s.changes.length := hdelivered.le_length
        have hmem : (⟨.book s.changes[k].first, k + 1⟩ : Sent) ∈ books xs := by
          rw [hdelivered.books_eq]
          refine List.mem_append_left _ (mem_numbered (m := s.changes[k]) ?_ List.mem_cons_self)
          rw [List.getElem?_take_of_lt (Nat.lt_succ_self k), List.getElem?_eq_getElem hlt]
        obtain ⟨entry, hentry, hbook, hversion⟩ := hlog _ hmem
        have hle := hclean.1 entry hentry hbook
        rw [hversion] at hle
        exact hle

section

variable [Crc32c] [Bincode]

/-- A change of the venue's book. -/
theorem Inv.change {s : State a} (h : Inv c s) {m : VenueChange a} (hadmits : s.Admits c m) :
    Inv c (step s (.change m)) := by
  obtain ⟨next, hnext, hwithin, hcontent⟩ := m.apply_within hadmits.1 h.venue
  obtain ⟨xs, n, seen, hdelivered, hlogged, hbooks⟩ := h.delivered
  simp only [step, hnext]
  exact
    { running := h.running
      writer := h.writer
      venue := hwithin
      content := by
        have hlen : s.changes.length = (s.changes.map VenueChange.write).length :=
          (List.length_map VenueChange.write).symm
        have hlen' : (s.changes ++ [m]).length =
            ((s.changes ++ [m]).map VenueChange.write).length :=
          (List.length_map VenueChange.write).symm
        rw [contentAfter, hlen', List.take_length, List.map_append, Overwrite.writes_append]
        rw [hcontent, h.content, contentAfter, hlen, List.take_length]
        rfl
      dispatched := h.dispatched.concat hadmits.1 hadmits.2
      unsent := fun x hx => by
        obtain hx | hx := List.mem_append.mp hx
        · exact h.unsent x hx
        · obtain ⟨e, -, rfl⟩ := List.mem_map.mp hx
          rfl
      captured := fun x hx => (h.captured x hx).mono [m]
      channel := fun x hx => (h.channel x hx).imp_right fun hx => hx.mono [m]
      delivered := by
        refine ⟨xs, n, seen, hdelivered.mono [m], hlogged, ?_⟩
        have hsent : books (m.events.map fun e => (⟨.book e, s.changes.length + 1⟩ : Sent)) =
            m.events.map fun e => ⟨.book e, s.changes.length + 1⟩ := by
          refine List.filter_eq_self.mpr fun x hx => ?_
          obtain ⟨e, -, rfl⟩ := List.mem_map.mp hx
          rfl
        rw [← List.append_assoc s.channel, books_append, hsent, ← List.append_assoc, hbooks,
          numbered_append, Nat.zero_add, numbered, numbered, List.append_nil]
      offsets := h.offsets
      cuts := h.cuts }

/-- The dispatcher sends. -/
theorem Inv.send {s : State a} (h : Inv c s) : Inv c (step s .send) := by
  obtain ⟨xs, n, seen, hdelivered, hlogged, hbooks⟩ := h.delivered
  simp only [step]
  split
  · exact h
  · rename_i x unsent hunsent
    exact
      { h with
        unsent := fun y hy => h.unsent y (hunsent ▸ List.mem_cons_of_mem x hy)
        channel := fun y hy => by
          obtain hy | hy := List.mem_append.mp hy
          · exact h.channel y hy
          · rw [List.mem_singleton.mp hy]
            exact Or.inl (h.unsent x (hunsent ▸ List.mem_cons_self))
        delivered := by
          refine ⟨xs, n, seen, hdelivered, hlogged, ?_⟩
          rw [List.append_assoc, List.singleton_append, ← hunsent]
          exact hbooks }

/-- The checkpoint producer captures the venue's book. -/
theorem Inv.capture {s : State a} (h : Inv c s) (nowUs exchangeTs : Nat) (hash : Option String) :
    Inv c (step s (.capture nowUs exchangeTs hash)) := by
  simp only [step]
  split
  · exact h
  · refine { h with captured := fun x hx => ?_ }
    obtain rfl := Option.mem_some.mp hx
    exact ⟨_, rfl, listed_checkpointFromRest h.venue (Nat.le_refl _) h.content nowUs
      exchangeTs hash⟩

/-- It sends the checkpoint. -/
theorem Inv.sendCheckpoint {s : State a} (h : Inv c s) : Inv c (step s .sendCheckpoint) := by
  obtain ⟨xs, n, seen, hdelivered, hlogged, hbooks⟩ := h.delivered
  simp only [step]
  split
  · exact h
  · rename_i x hx
    have hcaptured := h.captured x hx
    exact
      { h with
        captured := fun y hy => (nomatch hy)
        channel := fun y hy => by
          obtain hy | hy := List.mem_append.mp hy
          · exact h.channel y hy
          · rw [List.mem_singleton.mp hy]
            exact Or.inr hcaptured
        delivered := by
          refine ⟨xs, n, seen, hdelivered, hlogged, ?_⟩
          obtain ⟨checkpoint, hrecord, -⟩ := hcaptured
          have hnone : books [x] = [] := by simp [books, hrecord, bookRecord]
          rw [books_append, books_append, hnone, List.append_nil, ← books_append]
          exact hbooks }

/-- The periodic flush. -/
theorem Inv.flush {s : State a} (h : Inv c s) : Inv c (step s .flush) :=
  { h with writer := h.writer.flush s.dir }

/-- The log entry of a drained record. -/
theorem State.drain_eq {s : State a} (hwriter : WriterOk s.writer) {x : Sent}
    (hfits : s.frameFits x = true) (channel : List Sent) :
    ∃ writer dir, s.drain x channel =
        { s with
          channel := channel
          ingestOrdinal := nextOrdinal s.ingestOrdinal x.record
          writer := writer
          dir := dir
          log := s.log ++
            [⟨stamp s.ingestOrdinal s.writer.globalOffset x.record, x.version,
              writer.globalOffset⟩] } ∧
      WriterOk writer ∧ s.writer.globalOffset < writer.globalOffset := by
  unfold State.frameFits at hfits
  unfold State.drain
  cases hencode : Codec.encode (stamp s.ingestOrdinal s.writer.globalOffset x.record) with
  | error e =>
      rw [hencode] at hfits
      cases hfits
  | ok payload =>
      simp only [hencode, decide_eq_true_eq, Bool.and_eq_true] at hfits
      obtain ⟨writer, dir, offset, happend, hok, -, hlt⟩ :=
        hwriter.append hfits.1 hfits.2 s.dir
      refine ⟨writer, dir, ?_, hok, hlt⟩
      simp only [hencode, happend]

/-- `wal_drain` takes a record off the channel. -/
theorem Inv.drain {s : State a} (h : Inv c s)
    (hclean : ∀ x ∈ s.channel.head?, s.frameFits x = true ∧
      ∀ checkpoint, x.record = .checkpoint checkpoint → s.CutIsClean x) :
    Inv c (step s .drain) := by
  obtain ⟨xs, n, seen, hdelivered, hlogged, hbooks⟩ := h.delivered
  simp only [step, h.running]
  split
  · exact h
  · rename_i x channel hchannel
    obtain ⟨hfits, hcut⟩ := hclean x (by rw [hchannel]; rfl)
    obtain ⟨writer, dir, hdrain, hwriter, hlt⟩ := s.drain_eq h.writer hfits channel
    rw [if_neg Bool.false_ne_true, hdrain]
    have hnext : ∃ n seen, Delivered c s.changes (xs ++ [x]) n seen ∧
        books (xs ++ [x]) ++ books (channel ++ s.unsent) = numbered 0 s.changes := by
      have hbooks' : books (xs ++ [x]) ++ books (channel ++ s.unsent) = numbered 0 s.changes := by
        rw [← books_append, List.append_assoc, List.singleton_append, ← List.cons_append,
          ← hchannel, books_append]
        exact hbooks
      obtain hbook | ⟨checkpoint, hrecord, hlisted⟩ := h.channel x (hchannel ▸ List.mem_cons_self)
      · have hhead : books [x] = [x] := List.filter_eq_self.mpr fun y hy => by
          rw [List.mem_singleton.mp hy]
          exact hbook
        rw [books_append, hhead, List.append_assoc] at hbooks'
        obtain ⟨m, e, tail, hm, hevents, rfl⟩ := hdelivered.next hbooks'
        rw [← List.append_assoc, ← hhead, ← books_append] at hbooks'
        cases tail with
        | nil => exact ⟨_, _, hdelivered.last hm hevents, hbooks'⟩
        | cons next rest => exact ⟨_, _, hdelivered.within hm hevents, hbooks'⟩
      · obtain ⟨rfl, hcovers⟩ :=
          (hcut checkpoint hrecord).position hdelivered hlogged hbooks
        obtain ⟨record, version⟩ := x
        obtain rfl : record = .checkpoint checkpoint := hrecord
        exact ⟨_, _, hdelivered.checkpoint hcovers hlisted, hbooks'⟩
    obtain ⟨n', seen', hdelivered', hbooks'⟩ := hnext
    exact
      { running := h.running
        writer := hwriter
        venue := h.venue
        content := h.content
        dispatched := h.dispatched
        unsent := h.unsent
        captured := h.captured
        channel := fun y hy => h.channel y (hchannel ▸ List.mem_cons_of_mem x hy)
        delivered := ⟨xs ++ [x], n', seen', hdelivered',
          List.rel_append hlogged (.cons ⟨rfl, _, _, rfl⟩ .nil), hbooks'⟩
        offsets := fun y hy => by
          obtain hy | hy := List.mem_append.mp hy
          · exact Nat.le_of_lt (Nat.lt_of_le_of_lt (h.offsets y hy) hlt)
          · rw [List.mem_singleton.mp hy]
        cuts := h.cuts.concat h.offsets hlt fun checkpoint hrecord =>
          (eq_checkpoint_of_stamp (a := a) hrecord).1 }

theorem Inv.step {s : State a} (h : Inv c s) (event : Event a) (hclean : Clean c s event) :
    Inv c (Ingest.step s event) := by
  cases event with
  | change m => exact h.change hclean
  | send => exact h.send
  | capture nowUs exchangeTs hash => exact h.capture nowUs exchangeTs hash
  | sendCheckpoint => exact h.sendCheckpoint
  | drain => exact h.drain hclean
  | flush => exact h.flush

end

/-! ## Transparency -/

/-- **In a state reached by clean steps, every checkpoint hydrates transparently.** -/
theorem Inv.transparent {s : State a} (h : Inv c s) (mode : FeedMode) {entry : LogEntry}
    (hentry : entry ∈ s.log) {checkpoint : BookCheckpoint} {cut : Nat}
    (hrecord : entry.record = .checkpoint checkpoint) (hcut : checkpoint.walOffset = some cut) :
    Transparent mode s entry.version cut checkpoint := by
  obtain ⟨xs, n, seen, hdelivered, hlogged, hbooks⟩ := h.delivered
  obtain ⟨logBefore, logAfter, hlog⟩ := List.append_of_mem hentry
  obtain ⟨hbefore_le, hafter_lt⟩ := h.cuts logBefore entry logAfter hlog checkpoint cut hrecord hcut
  obtain ⟨before, x, after, rfl, hlogged_before, hx, hlogged_after⟩ :=
    exists_logged_split (hlog ▸ hlogged)
  obtain ⟨ordinal, offset, hstamp⟩ := hx.record
  obtain ⟨-, original, horiginal, hview⟩ := eq_checkpoint_of_stamp (hstamp ▸ hrecord)
  obtain ⟨record, version⟩ := x
  obtain rfl : record = .checkpoint original := horiginal
  obtain ⟨k, hbefore, hk, -, hlisted, hafter, -⟩ := hdelivered.split h.dispatched rfl
  have hold : ∀ y ∈ logBefore, (bookRecord y.record).isSome = true → y.version ≤ k := by
    intro y hy hbook
    obtain ⟨z, hz, hlogged⟩ := exists_sent hlogged_before hy
    obtain ⟨ordinal, offset, hrecord⟩ := hlogged.record
    rw [hrecord, bookRecord_stamp] at hbook
    exact hlogged.version ▸ hbefore.version_le (List.mem_filter.mpr ⟨hz, hbook⟩)
  have hnew : ∀ y ∈ entry :: logAfter, (bookRecord y.record).isSome = true → k < y.version := by
    intro y hy hbook
    obtain rfl | hy := List.mem_cons.mp hy
    · rw [hrecord] at hbook
      cases hbook
    · obtain ⟨z, hz, hlogged⟩ := exists_sent hlogged_after hy
      obtain ⟨ordinal, offset, hrecord⟩ := hlogged.record
      rw [hrecord, bookRecord_stamp] at hbook
      exact hlogged.version ▸ hafter z (List.mem_filter.mpr ⟨hz, hbook⟩)
  have hsides : ∀ y ∈ s.log, y ∈ logBefore ∨ y ∈ entry :: logAfter := by
    intro y hy
    rw [hlog] at hy
    exact List.mem_append.mp hy
  refine ⟨fun hdrained => ?_, fun y hy hbook hlt => ?_, fun y hy z hz hybook hzbook hsame hlt => ?_⟩
  · have hempty : s.channel ++ s.unsent = [] := by
      simpa [State.drained, and_comm] using hdrained
    rw [hempty] at hbooks
    obtain ⟨rfl, rfl⟩ := hdelivered.done (by simpa [books] using hbooks)
    have hfilter : (s.log.filter fun y => cut < y.offset) = entry :: logAfter := by
      rw [hlog, List.filter_append, List.filter_eq_nil_iff.mpr, List.filter_eq_self.mpr]
      · rfl
      · intro y hy
        exact decide_eq_true (hafter_lt y hy)
      · intro y hy
        simpa using hbefore_le y hy
    have hasset : checkpoint.assetId = a := by
      rw [hrecord] at hstamp
      cases hstamp
      exact hlisted.assetId
    have hstart : ((LiveState.new mode).applyCheckpoint checkpoint).view a =
        hydratedView a original := by
      rw [LiveState.applyCheckpoint, hasset, LiveState.view_setAsset, if_pos rfl,
        LiveState.ensureAsset_eq, LiveState.view_new, ← hview]
      rfl
    rw [hydrated, hfilter, replayed, LiveState.book_eq, LiveState.book_eq, LiveState.view_settled,
      LiveState.view_applyRecords, LiveState.view_replay, hstart,
      applyAll_logged (List.Forall₂.cons hx hlogged_after), applyAll_logged hlogged]
    exact hdelivered.same_levels h.dispatched rfl
  · obtain hy | hy := hsides y hy
    · have hle := hold y hy hbook
      have hversion := hx.version
      dsimp only at hversion
      omega
    · exact hafter_lt y hy
  · obtain hz | hz := hsides z hz
    · obtain hy | hy := hsides y hy
      · exact (Nat.not_lt.mpr (hbefore_le y hy) hlt).elim
      · have hle := hold z hz (isSome_of_isSnapshot hzbook)
        have hgt := hnew y hy (isSome_of_isSnapshot hybook)
        omega
    · exact hafter_lt z hz

/-- **Hydration is transparent** in every run whose cuts are clean, whose frames
are encoded and fit a segment, and whose sizes stay within a capacity. -/
theorem hydration_transparent [Crc32c] [Bincode] (c : Capacity) (mode : FeedMode)
    (config : WalConfig) (events : List (Event a))
    (hclean : Runs.Meets step (Clean c) (State.init a config) events) :
    ∀ entry ∈ (Runs.run step (State.init a config) events).log, ∀ checkpoint cut,
      entry.record = .checkpoint checkpoint → checkpoint.walOffset = some cut →
      Transparent mode (Runs.run step (State.init a config) events) entry.version cut
        checkpoint := by
  intro entry hentry checkpoint cut hrecord hcut
  have hinv : Inv c (Runs.run step (State.init a config) events) :=
    hclean.induction (fun s event (hs : Inv c s) hok => hs.step event hok) (inv_init c a config)
  exact hinv.transparent mode hentry hrecord hcut

/-! ## A cut that is not clean -/

namespace DirtyCut

open PolyBook.Sample Wal.Sample

/-- The configuration of the sample run. -/
def config : WalConfig := ⟨4096, 64, 1048576⟩

/-- A book message with one bid. -/
def message : VenueChange "7" where
  kind := .snapshot
  first := level .snapshot "7" .bid 40 10 1700000000000000 "0x61"
  rest := []
  assetId := by decide
  kinds := by decide
  oneGroup := by decide
  single := by decide

/-- The bid is then raised. -/
def raise : VenueChange "7" where
  kind := .delta
  first := level .delta "7" .bid 40 25 1700000000200000 "0x62"
  rest := []
  assetId := by decide
  kinds := by decide
  oneGroup := by decide
  single := by decide

/-- The checkpoint is captured before the raise, and reaches the log before it. -/
def cleanRun : List (Event "7") :=
  [.change message, .send, .drain, .capture 1700000000100000 1700000000000000 (some "0x61"),
    .change raise, .sendCheckpoint, .drain, .send, .drain]

/-- The raise reaches the log first. -/
def dirtyRun : List (Event "7") :=
  [.change message, .send, .drain, .capture 1700000000100000 1700000000000000 (some "0x61"),
    .change raise, .send, .drain, .sendCheckpoint, .drain]

/-- A billion units at every price. -/
def capacity : Capacity where
  cap _ _ := 1000000000000000
  fits _ := by
    rw [Finset.sum_const, rawPrices, Finset.card_range]
    decide

/-- The state after a run. -/
def final (events : List (Event "7")) : State "7" :=
  Runs.run (@step castagnoli bincode "7") (State.init "7" config) events

/-- The entry of the checkpoint in the log of the dirty run. -/
def entry : LogEntry where
  record := .checkpoint
    { checkpointFromRest "7" (final [.change message]).venue 1700000000100000 1700000000000000
        (some "0x61") with
      provenance := ⟨1700000000100000, 1700000000000000, .restSnapshot, some "0x61", none, none,
        some 2⟩
      walOffset := some 218 }
  version := 1
  offset := 329

end DirtyCut

open DirtyCut in
/-- The level change after the checkpoint is replayed. -/
theorem hydration_transparent_cleanRun :
    (final cleanRun).log.map (·.version) = [1, 1, 2] ∧
      ∀ entry ∈ (final cleanRun).log, ∀ checkpoint cut,
        entry.record = .checkpoint checkpoint → checkpoint.walOffset = some cut →
        Transparent .fixedTokens (final cleanRun) entry.version cut checkpoint :=
  ⟨by decide +kernel,
    @hydration_transparent "7" castagnoli Wal.Sample.bincode capacity .fixedTokens config cleanRun
      (by decide +kernel)⟩

open DirtyCut in
/-- The raise is before the cut and newer than the checkpoint, so it is lost. -/
theorem newer_change_skipped :
    ¬ ∀ events : List (Event "7"), ∀ entry ∈ (final events).log, ∀ checkpoint cut,
      entry.record = .checkpoint checkpoint → checkpoint.walOffset = some cut →
      Transparent .fixedTokens (final events) entry.version cut checkpoint := by
  intro hall
  have hbook := (hall dirtyRun entry (by decide +kernel) _ 218 rfl rfl).book (by decide +kernel)
  revert hbook
  decide +kernel

end Ingest

end PolyBook
