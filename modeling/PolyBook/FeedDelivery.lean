import PolyBook.FeedPipeline
import PolyBook.Library.Interleaving
import PolyBook.Library.Runs
import PolyBook.LossExposure
import PolyBook.ReceiveOrder

/-!
# Delivery from the socket to the log

What is queued for a generation is dispatched to records, and these go through the event
channel into the log, next to those of the other generations and of the checkpoint
producer.

A run is watched by a journal, which starts anew with the process.
`delivered_exactly_once` says that a record is lost or sent twice at no point in between,
and that the records of a generation stay in the order of its dispatcher.  `InLog` ties the
journal to the disk: what pruning has left of it is in the segment files.
-/

namespace PolyBook.FeedDelivery

open Wal FeedPipeline Interleaving

/-- What has happened since the process started, for the statements only. -/
structure Journal where
  /-- What each generation has been queued. -/
  queued : Nat → List FeedMessage
  /-- The generations that were open when they were retired. -/
  retired : Nat → Bool
  /-- The records that `wal_drain` has taken, each with the generation it is of; a
  checkpoint is of none. -/
  drained : List (Option Nat × PersistedRecord)
  /-- The records on the event channel, likewise. -/
  channel : List (Option Nat × PersistedRecord)
  /-- The drained records with their stamps. -/
  stamped : List PersistedRecord
  /-- The records that have been appended. -/
  logged : List PersistedRecord
  /-- What was in the segment files that have been pruned. -/
  pruned : List Bytes

namespace Journal

/-- Nothing has gone through yet. -/
def empty : Journal := ⟨fun _ => [], fun _ => false, [], [], [], [], []⟩

/-- What of a generation has left its dispatcher. -/
def sent (j : Journal) (i : Nat) : List PersistedRecord := own (some i) (j.drained ++ j.channel)

end Journal

/-- The message that a sender can queue now. -/
def queueing (g : Generation) (sender : RawSender) : Option FeedMessage :=
  if g.raw.length < rawCapacity then g.held sender else none

/-- The generation leaves its loop when it is told to. -/
def retires (g : Generation) : Bool := !g.closed && g.unsent.isEmpty

/-- The record can be appended to a log. -/
def loggable [Bincode] (record : PersistedRecord) : Bool := (Codec.encode record).isOk

section

variable [Crc32c] [Bincode]

/-- What the journal takes down of a step. -/
def Journal.note (j : Journal) (s : State) : Event → Journal
  | .queue i sender =>
      let message := (s.generations[i]?).bind (queueing · sender)
      { j with queued := Function.update j.queued i (j.queued i ++ message.toList) }
  | .send i =>
      match s.nextSend i with
      | some record => { j with channel := j.channel ++ [(some i, record)] }
      | none => j
  | .retire i =>
      if (s.generations[i]?).any retires then
        { j with retired := Function.update j.retired i true }
      else j
  | .checkpoint c =>
      if s.accepts then { j with channel := j.channel ++ [(none, .checkpoint c)] } else j
  | .drain _ =>
      match s.disk.writer, j.channel with
      | some w, entry :: channel =>
          if s.stopped then j
          else
            let stamped := Ingest.stamp s.ingestOrdinal w.globalOffset entry.2
            let j := { j with
              drained := j.drained ++ [entry]
              channel := channel
              stamped := j.stamped ++ [stamped] }
            match Codec.encode stamped with
            | .error _ => j
            | .ok payload =>
                if (s.disk.append w payload).2 then { j with logged := j.logged ++ [stamped] }
                else j
      | _, _ => j
  | .prune files =>
      match s.disk.writer with
      | none => j
      | some w =>
          { j with
            pruned := j.pruned ++
              s.disk.dir.payloadsGone (w.pruneWithBackpressure files s.disk.dir) }
  | .crash _ => .empty
  | _ => j

/-- A step of the process under the eye of the journal. -/
def watchedStep (config : WalConfig) (s : State × Journal) (e : Event) : State × Journal :=
  (step config s.1 e, s.2.note s.1 e)

/-- A run, with what has gone through it. -/
def watched (config : WalConfig) (nowUs : Nat) (events : List Event) : State × Journal :=
  Runs.run (watchedStep config) (.init nowUs, .empty) events

/-- The journal does not interfere. -/
theorem watched_fst (config : WalConfig) (nowUs : Nat) (events : List Event) :
    (watched config nowUs events).1 = Runs.run (step config) (.init nowUs) events := by
  have hrun : ∀ s : State × Journal, (Runs.run (watchedStep config) s events).1 =
      Runs.run (step config) s.1 events := by
    induction events with
    | nil => exact fun _ => rfl
    | cons e events ih => exact fun s => ih (watchedStep config s e)
  exact hrun _

end

/-! ## One generation -/

/-- What a generation has been queued, what it has sent, and whether it was retired. -/
structure Served (g : Generation) (queued : List FeedMessage) (sent : List PersistedRecord)
    (retired : Bool) : Prop where
  /-- The dispatcher has taken what is not waiting any more, and has sent the records of
  that but for the unsent ones. -/
  opened : g.closed = false → ∃ taken, queued = taken ++ g.raw ∧
    Dispatcher.new.run taken = (g.dispatcher, sent ++ g.unsent)
  /-- Nothing is left of a closed generation. -/
  closed : g.closed = true → g.raw = [] ∧ g.unsent = [] ∧ ∀ sender, g.held sender = none
  /-- Whatever happens, nothing else is sent. -/
  sentPrefix : sent <+: (Dispatcher.new.run queued).2
  /-- A generation that was retired has sent all records of what it has taken. -/
  retired : retired = true → g.closed = true ∧
    ∃ taken, taken <+: queued ∧ sent = (Dispatcher.new.run taken).2

section Generation

variable {g : Generation} {queued : List FeedMessage} {sent : List PersistedRecord}
  {retired : Bool}

/-- A dispatcher's run, one message on. -/
theorem run_concat (d : Dispatcher) (messages : List FeedMessage) (message : FeedMessage) :
    d.run (messages ++ [message]) = (((d.run messages).1.dispatch message).1,
      (d.run messages).2 ++ ((d.run messages).1.dispatch message).2) := by
  rw [Dispatcher.run_append]
  simp only [Dispatcher.run, List.append_nil]

/-- More messages lead to more records. -/
theorem run_take {taken : List FeedMessage} (d : Dispatcher) (h : taken <+: queued) :
    (d.run taken).2 <+: (d.run queued).2 := by
  obtain ⟨rest, rfl⟩ := h
  rw [Dispatcher.run_append]
  exact List.prefix_append _ _

/-- A spawned generation has served nothing. -/
theorem Served.spawn : Served .spawn [] [] false where
  opened _ := ⟨[], rfl, rfl⟩
  closed h := by cases h
  sentPrefix := List.prefix_rfl
  retired h := by cases h

/-- A generation in which only what is held changes. -/
theorem Served.of_same {g' : Generation} (h : Served g queued sent retired)
    (hraw : g'.raw = g.raw) (hdispatcher : g'.dispatcher = g.dispatcher)
    (hunsent : g'.unsent = g.unsent) (hclosed : g'.closed = g.closed)
    (hheld : g.closed = true → ∀ sender, g'.held sender = none) :
    Served g' queued sent retired where
  opened hopen := by
    rw [hraw, hdispatcher, hunsent]
    exact h.opened (hclosed ▸ hopen)
  closed hshut := by
    rw [hclosed] at hshut
    rw [hraw, hunsent]
    exact ⟨(h.closed hshut).1, (h.closed hshut).2.1, hheld hshut⟩
  sentPrefix := h.sentPrefix
  retired hretired := by
    rw [hclosed]
    exact h.retired hretired

/-- An open generation goes on: its dispatcher has taken more, or has sent more. -/
theorem Served.of_opened {g' : Generation} {queued' : List FeedMessage}
    {sent' : List PersistedRecord} (h : Served g queued sent retired) (hopen : g.closed = false)
    (hopen' : g'.closed = false)
    (hserved : ∃ taken, queued' = taken ++ g'.raw ∧
      Dispatcher.new.run taken = (g'.dispatcher, sent' ++ g'.unsent)) :
    Served g' queued' sent' retired where
  opened _ := hserved
  closed hclosed := by
    rw [hopen'] at hclosed
    cases hclosed
  sentPrefix := by
    obtain ⟨taken, htaken, hrun⟩ := hserved
    refine List.IsPrefix.trans ?_ (run_take Dispatcher.new ⟨g'.raw, htaken.symm⟩)
    rw [hrun]
    exact List.prefix_append _ _
  retired hretired := by
    rw [(h.retired hretired).1] at hopen
    cases hopen

/-- Stamping a message serves what was served. -/
theorem Served.stamp (h : Served g queued sent retired) (sender : RawSender)
    (message : FeedMessage) : Served (g.stamp sender message) queued sent retired := by
  unfold Generation.stamp
  split
  · exact h
  · rename_i hfree
    refine h.of_same rfl rfl rfl rfl ?_
    intro hclosed
    rw [hclosed] at hfree
    simp at hfree

/-- Queueing a message serves it to the generation's channel. -/
theorem Served.queue (h : Served g queued sent retired) (sender : RawSender) :
    Served (g.queue sender) (queued ++ (queueing g sender).toList) sent retired := by
  unfold Generation.queue queueing
  cases hheld : g.held sender with
  | none => simpa using h
  | some message =>
      by_cases hroom : g.raw.length < rawCapacity
      · rw [if_pos hroom, Option.toList_some]
        dsimp only
        rw [if_pos hroom]
        have hopen : g.closed = false := by
          rw [← Bool.not_eq_true]
          intro hclosed
          rw [(h.closed hclosed).2.2 sender] at hheld
          cases hheld
        obtain ⟨taken, rfl, hrun⟩ := h.opened hopen
        exact h.of_opened hopen hopen ⟨taken, List.append_assoc _ _ _, hrun⟩
      · rw [if_neg hroom]
        dsimp only
        rw [if_neg hroom]
        simpa using h

/-- Dispatching a message serves its records. -/
theorem Served.dispatchNext (h : Served g queued sent retired) :
    Served g.dispatchNext queued sent retired := by
  unfold Generation.dispatchNext
  split
  · rename_i hempty
    split
    · exact h
    · rename_i message raw hraw
      have hopen : g.closed = false := by
        rw [← Bool.not_eq_true]
        intro hclosed
        rw [(h.closed hclosed).1] at hraw
        cases hraw
      obtain ⟨taken, htaken, hrun⟩ := h.opened hopen
      refine h.of_opened hopen hopen ⟨taken ++ [message], ?_, ?_⟩
      · rw [htaken, hraw, List.append_assoc]
        rfl
      · rw [run_concat, hrun, List.isEmpty_iff.mp hempty, List.append_nil]
  · exact h

/-- The next record is sent. -/
theorem Served.send (h : Served g queued sent retired) {record : PersistedRecord}
    (hnext : g.unsent.head? = some record) :
    Served g.sent queued (sent ++ [record]) retired := by
  obtain ⟨unsent, hunsent⟩ := List.head?_eq_some_iff.mp hnext
  have hopen : g.closed = false := by
    rw [← Bool.not_eq_true]
    intro hclosed
    rw [(h.closed hclosed).2.1] at hunsent
    cases hunsent
  obtain ⟨taken, htaken, hrun⟩ := h.opened hopen
  have hsent : sent ++ g.unsent = (sent ++ [record]) ++ unsent := by
    rw [hunsent, List.append_assoc]
    rfl
  refine h.of_opened hopen hopen ⟨taken, htaken, ?_⟩
  rw [hrun, hsent]
  simp [Generation.sent, hunsent]

/-- A closed generation has nothing open. -/
theorem Served.close (h : Served g queued sent retired) :
    Served g.close queued sent retired where
  opened hopen := by cases hopen
  closed _ := ⟨rfl, rfl, fun _ => rfl⟩
  sentPrefix := h.sentPrefix
  retired hretired := ⟨rfl, (h.retired hretired).2⟩

/-- A dispatcher that is told to stop does so between two messages. -/
theorem Served.retire (h : Served g queued sent retired) :
    Served g.retire queued sent (retires g || retired) := by
  unfold Generation.retire retires
  by_cases hempty : g.unsent.isEmpty = true
  · rw [if_pos hempty, hempty, Bool.and_true]
    cases hclosed : g.closed with
    | true => exact h.close
    | false =>
        refine ⟨h.close.opened, h.close.closed, h.sentPrefix, fun _ => ⟨rfl, ?_⟩⟩
        obtain ⟨taken, htaken, hrun⟩ := h.opened hclosed
        refine ⟨taken, ⟨g.raw, htaken.symm⟩, ?_⟩
        rw [hrun, List.isEmpty_iff.mp hempty, List.append_nil]
  · rw [if_neg hempty, Bool.eq_false_iff.mpr hempty, Bool.and_false, Bool.false_or]
    exact h

end Generation

/-! ## The process -/

/-- A generation that has been spawned is served; before that there is nothing. -/
def ServedAt (g : Option Generation) (queued : List FeedMessage) (sent : List PersistedRecord)
    (retired : Bool) : Prop :=
  match g with
  | some g => Served g queued sent retired
  | none => queued = [] ∧ sent = [] ∧ retired = false

/-- Every generation is served as the journal has it. -/
def Serves (generations : List Generation) (j : Journal) : Prop :=
  ∀ i, ServedAt generations[i]? (j.queued i) (j.sent i) (j.retired i)

/-- No generation has served anything. -/
theorem Serves.of_empty (generations : List Generation) (hempty : generations = []) :
    Serves generations .empty := by
  intro i
  rw [hempty]
  exact ⟨rfl, rfl, rfl⟩

/-- Only what has left the dispatchers counts. -/
theorem Serves.of_journal {generations : List Generation} {j j' : Journal}
    (h : Serves generations j) (hqueued : j'.queued = j.queued) (hretired : j'.retired = j.retired)
    (hsent : j'.drained ++ j'.channel = j.drained ++ j.channel) : Serves generations j' := by
  intro i
  rw [hqueued, hretired, Journal.sent, hsent]
  exact h i

/-- A spawned generation joins the others. -/
theorem Serves.spawn {generations : List Generation} {j : Journal} (h : Serves generations j) :
    Serves (generations ++ [.spawn]) j := by
  intro i
  have hi := h i
  rcases Nat.lt_trichotomy i generations.length with hlt | rfl | hgt
  · rw [List.getElem?_append_left hlt]
    exact hi
  · rw [List.getElem?_eq_none (Nat.le_refl _)] at hi
    obtain ⟨hqueued, hsent, hretired⟩ := hi
    rw [List.getElem?_concat_length, hqueued, hsent, hretired]
    exact Served.spawn
  · rw [List.getElem?_eq_none (Nat.le_of_lt hgt)] at hi
    rw [List.getElem?_eq_none (by rw [List.length_append]; exact hgt)]
    exact hi

/-- One generation goes on. -/
theorem Serves.modify {generations : List Generation} {j j' : Journal} (h : Serves generations j)
    (i : Nat) {f : Generation → Generation}
    (hself : ServedAt (generations[i]?.map f) (j'.queued i) (j'.sent i) (j'.retired i))
    (hothers : ∀ k, k ≠ i →
      j'.queued k = j.queued k ∧ j'.sent k = j.sent k ∧ j'.retired k = j.retired k) :
    Serves (generations.modify i f) j' := by
  intro k
  by_cases hk : k = i
  · rw [hk, List.getElem?_modify_eq]
    exact hself
  · obtain ⟨hqueued, hsent, hretired⟩ := hothers k hk
    rw [List.getElem?_modify_ne _ _ (Ne.symm hk), hqueued, hsent, hretired]
    exact h k

/-- A generation goes on and the journal takes nothing down. -/
theorem Serves.update {generations : List Generation} {j : Journal} (h : Serves generations j)
    (i : Nat) {f : Generation → Generation}
    (hf : ∀ g queued sent retired, Served g queued sent retired →
      Served (f g) queued sent retired) : Serves (generations.modify i f) j := by
  refine h.modify i ?_ fun _ _ => ⟨rfl, rfl, rfl⟩
  have hi := h i
  cases hg : generations[i]? with
  | none =>
      rw [hg] at hi
      exact hi
  | some g =>
      rw [hg] at hi
      exact hf g _ _ _ hi

section Delivery

variable [Bincode]

/-- **What is delivered.** -/
structure Delivered (s : State) (j : Journal) : Prop where
  /-- From the raw channels to the event channel. -/
  generations : Serves s.generations j
  /-- The event channel is a queue. -/
  channel : merged j.channel = s.events
  /-- Every record that is taken is stamped. -/
  stamped : List.Forall₂ (fun entry record => ∃ ordinal globalOffset,
    record = Ingest.stamp ordinal globalOffset entry.2) j.drained j.stamped
  /-- What can be logged is logged, in the order of the event channel, until `wal_drain`
  stops. -/
  logged : j.logged <+: j.stamped.filter loggable
  running : s.stopped = false → j.logged = j.stamped.filter loggable
  /-- The log ends with what has been logged. -/
  appended : j.logged <:+ s.appended
  /-- Nothing is taken before the log has been opened. -/
  unopened : s.disk.writer = none → s.stopped = true ∧ j.drained = []

variable {s : State} {j : Journal}

/-- At the start everything has been delivered. -/
theorem Delivered.init (nowUs : Nat) : Delivered (.init nowUs) .empty where
  generations := Serves.of_empty _ rfl
  channel := rfl
  stamped := .nil
  logged := List.prefix_rfl
  running h := by cases h
  appended := List.suffix_rfl
  unopened _ := ⟨rfl, rfl⟩

/-- Only the generations go on. -/
theorem Delivered.of_generations (h : Delivered s j) {generations : List Generation}
    {queued : Nat → List FeedMessage} {retired : Nat → Bool}
    (hserves : Serves generations { j with queued := queued, retired := retired }) :
    Delivered { s with generations := generations }
      { j with queued := queued, retired := retired } :=
  ⟨hserves, h.channel, h.stamped, h.logged, h.running, h.appended, h.unopened⟩

/-- Only the disk changes, and it keeps its writer. -/
theorem Delivered.of_disk (h : Delivered s j) {disk : Disk} {pruned : List Bytes}
    (hwriter : disk.writer = none → s.disk.writer = none) :
    Delivered { s with disk := disk } { j with pruned := pruned } :=
  ⟨h.generations, h.channel, h.stamped, h.logged, h.running, h.appended,
    fun hnone => h.unopened (hwriter hnone)⟩

/-- A record enters the event channel. -/
theorem Delivered.of_channel (h : Delivered s j) {generations : List Generation}
    {sender : Option Nat} {record : PersistedRecord}
    (hserves : Serves generations { j with channel := j.channel ++ [(sender, record)] }) :
    Delivered { s with generations := generations, events := s.events ++ [record] }
      { j with channel := j.channel ++ [(sender, record)] } := by
  refine ⟨hserves, ?_, h.stamped, h.logged, h.running, h.appended, h.unopened⟩
  dsimp only
  rw [merged, List.map_append, ← merged, h.channel]
  rfl

variable [Crc32c] {config : WalConfig}

omit [Bincode] in
/-- Without a power loss the writer stays. -/
theorem writer_of_diskStep {d : Disk} {e : DiskEvent} (hcrash : ∀ kept, e ≠ .crash kept)
    (h : (d.step config e).writer = none) : d.writer = none := by
  cases hwriter : d.writer with
  | none => rfl
  | some w =>
      cases e with
      | crash kept => exact absurd rfl (hcrash kept)
      | append payload =>
          simp only [Disk.step, hwriter, Disk.append] at h
          split at h <;> cases h
      | _ => simp [Disk.step, hwriter] at h

omit [Bincode] in
/-- The writer stays when it appends. -/
theorem writer_append (d : Disk) (w : WalWriter) (payload : Bytes) :
    (d.append w payload).1.writer ≠ none := by
  unfold Disk.append
  split <;> simp

/-- `wal_drain` takes the next record off the event channel. -/
theorem Delivered.drain (h : Delivered s j) (fannedOut : Bool) :
    Delivered (step config s (.drain fannedOut)) (j.note s (.drain fannedOut)) := by
  cases hwriter : s.disk.writer with
  | none => simpa only [FeedPipeline.step, Journal.note, hwriter] using h
  | some w =>
      cases hj : j.channel with
      | nil =>
          have hevents : s.events = [] := by rw [← h.channel, hj]; rfl
          simpa only [FeedPipeline.step, Journal.note, hwriter, hj, hevents] using h
      | cons entry channel =>
          have hevents : s.events = entry.2 :: merged channel := by rw [← h.channel, hj]; rfl
          by_cases hstopped : s.stopped = true
          · simpa only [FeedPipeline.step, Journal.note, hwriter, hj, hevents, if_pos hstopped]
              using h
          have hlog := h.running (Bool.eq_false_iff.mpr hstopped)
          have hserves : ∀ stamped logged,
              Serves s.generations ⟨j.queued, j.retired, j.drained ++ [entry], channel, stamped,
                logged, j.pruned⟩ := by
            intro stamped logged
            refine h.generations.of_journal rfl rfl ?_
            rw [hj, List.append_assoc, List.singleton_append]
          have hstamped : List.Forall₂ (fun (entry : Option Nat × PersistedRecord) record =>
              ∃ ordinal globalOffset, record = Ingest.stamp ordinal globalOffset entry.2)
              (j.drained ++ [entry])
              (j.stamped ++ [Ingest.stamp s.ingestOrdinal w.globalOffset entry.2]) :=
            List.rel_append h.stamped (.cons ⟨_, _, rfl⟩ .nil)
          simp only [FeedPipeline.step, Journal.note, hwriter, hj, hevents, if_neg hstopped,
            State.drain]
          generalize Ingest.stamp s.ingestOrdinal w.globalOffset entry.2 = record at hstamped ⊢
          cases hencode : Codec.encode record with
          | error e =>
              -- dropped
              have hfilter : (j.stamped ++ [record]).filter loggable =
                  j.stamped.filter loggable := by
                simp [loggable, hencode, Except.isOk, Except.toBool]
              refine ⟨hserves _ _, rfl, hstamped, ?_, fun _ => ?_, h.appended, fun hnone => ?_⟩
              · rw [hfilter]
                exact h.logged
              · rw [hfilter]
                exact hlog
              · simp [hwriter] at hnone
          | ok payload =>
              have hfilter : (j.stamped ++ [record]).filter loggable =
                  j.stamped.filter loggable ++ [record] := by
                simp [loggable, hencode, Except.isOk, Except.toBool]
              have hkept := writer_append s.disk w payload
              dsimp only
              generalize s.disk.append w payload = appended at hkept ⊢
              obtain ⟨disk, taken⟩ := appended
              cases taken with
              | true =>
                  simp only [if_true]
                  refine ⟨hserves _ _, rfl, hstamped, ?_, fun _ => ?_, ?_,
                    fun hnone => absurd hnone hkept⟩
                  · rw [hfilter, ← hlog]
                  · rw [hfilter, ← hlog]
                  · obtain ⟨earlier, hearlier⟩ := h.appended
                    exact ⟨earlier, by rw [← hearlier, List.append_assoc]⟩
              | false =>
                  simp only [Bool.false_eq_true, if_false]
                  refine ⟨hserves _ _, rfl, hstamped, ?_, fun hruns => ?_, h.appended,
                    fun hnone => absurd hnone hkept⟩
                  · rw [hfilter]
                    exact h.logged.trans (List.prefix_append _ _)
                  · cases hruns

omit [Bincode] [Crc32c] in
/-- What was sent to a generation, when its channel grows. -/
theorem sent_channel (j : Journal) (entry : Option Nat × PersistedRecord) (i : Nat) :
    Journal.sent { j with channel := j.channel ++ [entry] } i =
      j.sent i ++ own (some i) [entry] := by
  rw [Journal.sent, Journal.sent, ← own_append, List.append_assoc]

/-- Opening the log delivers nothing. -/
theorem Delivered.openWriter (h : Delivered s j) :
    Delivered (step config s .openWriter) (j.note s .openWriter) := by
  cases hwriter : s.disk.writer with
  | some w => simpa only [FeedPipeline.step, Journal.note, hwriter] using h
  | none =>
      simp only [FeedPipeline.step, Journal.note, hwriter]
      obtain ⟨-, hdrained⟩ := h.unopened hwriter
      have hstamped : j.stamped = [] := by
        have hstamped := h.stamped
        rw [hdrained] at hstamped
        exact List.forall₂_nil_left_iff.mp hstamped
      refine ⟨h.generations, h.channel, h.stamped, h.logged, fun _ => ?_, h.appended, ?_⟩
      · have hlogged := h.logged
        rw [hstamped] at hlogged ⊢
        exact List.prefix_nil.mp hlogged
      · intro hnone
        simp [Disk.step, hwriter] at hnone

/-- Queueing delivers to the dispatcher. -/
theorem Delivered.queue (h : Delivered s j) (i : Nat) (sender : RawSender) :
    Delivered (step config s (.queue i sender)) (j.note s (.queue i sender)) := by
  refine h.of_generations (h.generations.modify i ?_ ?_)
  · have hi := h.generations i
    dsimp only
    rw [Function.update_self]
    cases hg : s.generations[i]? with
    | none =>
        rw [hg] at hi
        simpa [ServedAt] using hi
    | some g =>
        rw [hg] at hi
        exact Served.queue hi sender
  · intro k hk
    exact ⟨Function.update_of_ne hk _ _, rfl, rfl⟩

/-- Sending delivers to the event channel. -/
theorem Delivered.send (h : Delivered s j) (i : Nat) :
    Delivered (step config s (.send i)) (j.note s (.send i)) := by
  cases hnext : s.nextSend i with
  | none =>
      simp only [FeedPipeline.step, Journal.note, hnext]
      split
      · exact h.of_generations (h.generations.update i fun _ _ _ _ hg => hg.close)
      · exact h
  | some record =>
      simp only [FeedPipeline.step, Journal.note, hnext]
      refine h.of_channel (h.generations.modify i ?_ ?_)
      · have hi := h.generations i
        unfold State.nextSend at hnext
        split at hnext
        · obtain ⟨g, hg, hhead⟩ := Option.bind_eq_some_iff.mp hnext
          rw [hg] at hi ⊢
          rw [sent_channel, own_cons_self]
          exact Served.send hi hhead
        · cases hnext
      · intro k hk
        refine ⟨rfl, ?_, rfl⟩
        rw [sent_channel, own_cons_of_ne _ (by simpa using Ne.symm hk)]
        exact List.append_nil _

/-- Retiring delivers the last records. -/
theorem Delivered.retire (h : Delivered s j) (i : Nat) :
    Delivered (step config s (.retire i)) (j.note s (.retire i)) := by
  simp only [FeedPipeline.step, Journal.note]
  have hi := h.generations i
  cases hg : s.generations[i]? with
  | none =>
      simp only [Option.any_none, Bool.false_eq_true, if_false]
      refine h.of_generations (h.generations.modify i ?_ fun _ _ => ⟨rfl, rfl, rfl⟩)
      rw [hg] at hi ⊢
      exact hi
  | some g =>
      rw [hg] at hi
      have hretire : Served g.retire (j.queued i) (j.sent i) (retires g || j.retired i) :=
        Served.retire hi
      rw [Option.any_some]
      cases hretires : retires g with
      | true =>
          rw [hretires, Bool.true_or] at hretire
          rw [if_pos rfl]
          refine h.of_generations (h.generations.modify i ?_ ?_)
          · dsimp only
            rw [hg, Function.update_self]
            exact hretire
          · intro k hk
            exact ⟨rfl, rfl, Function.update_of_ne hk _ _⟩
      | false =>
          rw [hretires, Bool.false_or] at hretire
          rw [if_neg (by decide)]
          refine h.of_generations (h.generations.modify i ?_ fun _ _ => ⟨rfl, rfl, rfl⟩)
          rw [hg]
          exact hretire

/-- **A step keeps the delivery.** -/
theorem Delivered.step (h : Delivered s j) (e : Event) :
    Delivered (step config s e) (j.note s e) := by
  cases e with
  | tick elapsedUs =>
      exact ⟨h.generations, h.channel, h.stamped, h.logged, h.running, h.appended, h.unopened⟩
  | openWriter => exact h.openWriter
  | spawn => exact h.of_generations h.generations.spawn
  | frame i message =>
      exact h.of_generations (h.generations.update i fun _ _ _ _ hg => hg.stamp _ _)
  | connection i kind sessionId details =>
      exact h.of_generations (h.generations.update i fun _ _ _ _ hg => hg.stamp _ _)
  | resnapshot i resp =>
      exact h.of_generations (h.generations.update i fun _ _ _ _ hg => hg.stamp _ _)
  | queue i sender => exact h.queue i sender
  | dispatch i =>
      exact h.of_generations (h.generations.update i fun _ _ _ _ hg => hg.dispatchNext)
  | send i => exact h.send i
  | retire i => exact h.retire i
  | checkpoint c =>
      simp only [FeedPipeline.step, Journal.note]
      split
      · refine h.of_channel ?_
        intro i
        rw [sent_channel, own_cons_of_ne _ (by simp)]
        simpa using h.generations i
      · exact h
  | drain fannedOut => exact h.drain fannedOut
  | spill k => exact h.of_disk (writer_of_diskStep (e := .spill k) (by simp))
  | flush => exact h.of_disk (writer_of_diskStep (e := .flush) (by simp))
  | sync => exact h.of_disk (writer_of_diskStep (e := .sync) (by simp))
  | prune files =>
      cases hwriter : s.disk.writer with
      | none => simpa only [FeedPipeline.step, Journal.note, hwriter] using h
      | some w =>
          simp only [FeedPipeline.step, Journal.note, hwriter]
          exact h.of_disk fun hnone => by cases hnone
  | crash kept =>
      refine ⟨Serves.of_empty _ rfl, rfl, .nil, List.prefix_rfl, ?_, List.nil_suffix, ?_⟩
      · intro hruns
        cases hruns
      · exact fun _ => ⟨rfl, rfl⟩

/-! ## The segment files -/

/-- The segments end with what has been logged, and what was pruned of it came before. -/
structure InLog (s : State) (j : Journal) : Prop where
  disk : s.disk.Inv
  logged : payloads j.logged <:+ j.pruned ++ s.disk.retained

namespace InLog

/-- At the start the log holds nothing. -/
theorem init (nowUs : Nat) : InLog (.init nowUs) .empty := ⟨Disk.Inv.init, List.nil_suffix⟩

/-- Neither the records nor the segments change. -/
theorem of_same {s' : State} {j' : Journal} (h : InLog s j) (hdisk : s'.disk.Inv)
    (hlogged : j'.logged = j.logged) (hpruned : j'.pruned = j.pruned)
    (hretained : s'.disk.retained = s.disk.retained) : InLog s' j' := by
  refine ⟨hdisk, ?_⟩
  rw [hlogged, hpruned, hretained]
  exact h.logged

/-- Pruning takes the oldest payloads from the segment files. -/
theorem prune (h : InLog s j) (files : List (Option String)) :
    InLog (FeedPipeline.step config s (.prune files)) (j.note s (.prune files)) := by
  cases hwriter : s.disk.writer with
  | none => simpa only [FeedPipeline.step, Journal.note, hwriter] using h
  | some w =>
      have hlogged := h.logged
      rw [← Disk.retained_prune (h.disk.layout hwriter).1 files, ← List.append_assoc] at hlogged
      simp only [FeedPipeline.step, Journal.note, hwriter]
      exact ⟨hwriter ▸ h.disk.prune hwriter files, hlogged⟩

/-- `wal_drain` takes the next record off the event channel. -/
theorem drain (h : InLog s j) (hdelivered : Delivered s j) (fannedOut : Bool) :
    InLog (FeedPipeline.step config s (.drain fannedOut)) (j.note s (.drain fannedOut)) := by
  cases hwriter : s.disk.writer with
  | none => simpa only [FeedPipeline.step, Journal.note, hwriter] using h
  | some w =>
      obtain ⟨hlayout, hdurable⟩ := h.disk.layout hwriter
      cases hj : j.channel with
      | nil =>
          have hevents : s.events = [] := by rw [← hdelivered.channel, hj]; rfl
          simpa only [FeedPipeline.step, Journal.note, hwriter, hj, hevents] using h
      | cons entry channel =>
          have hevents : s.events = entry.2 :: merged channel := by
            rw [← hdelivered.channel, hj]
            rfl
          by_cases hstopped : s.stopped = true
          · simpa only [FeedPipeline.step, Journal.note, hwriter, hj, hevents, if_pos hstopped]
              using h
          simp only [FeedPipeline.step, Journal.note, hwriter, hj, hevents, if_neg hstopped,
            State.drain]
          generalize Ingest.stamp s.ingestOrdinal w.globalOffset entry.2 = record
          cases hencode : Codec.encode record with
          | error e => exact ⟨h.disk, h.logged⟩
          | ok payload =>
              have hroom := Disk.Inv.roomMade hlayout hdurable payload
              have hmade := Disk.retained_roomMade hlayout payload
              dsimp only
              obtain ⟨hmax, happend⟩ | happend := Disk.append_cases s.disk w payload
              · have hok : Recordable payload := ⟨Codec.encode_ne_nil hencode, hmax⟩
                have hbuffered :=
                  Disk.retained_buffered (d := s.disk.roomMade w payload) (hroom.layout rfl).1
                    payload
                simp only [happend, if_true]
                refine ⟨hroom.buffered rfl hok, ?_⟩
                have hpayloads :
                    payloads (j.logged ++ [record]) = payloads j.logged ++ [payload] := by
                  simp [payloads, hencode, Except.toOption]
                dsimp only
                rw [hbuffered, hmade, hpayloads, ← List.append_assoc]
                exact List.suffix_append_self_iff.mpr h.logged
              · simp only [happend, Bool.false_eq_true, if_false]
                refine ⟨hroom, ?_⟩
                dsimp only
                rw [hmade]
                exact h.logged

/-- **A step keeps the log on the disk.** -/
theorem step (h : InLog s j) (hdelivered : Delivered s j) (e : Event) :
    InLog (FeedPipeline.step config s e) (j.note s e) := by
  cases e with
  | tick elapsedUs => exact ⟨h.disk, h.logged⟩
  | openWriter =>
      simp only [FeedPipeline.step, Journal.note]
      split
      · exact h
      · exact h.of_same (h.disk.openWriter config) rfl rfl (h.disk.retained_openWriter config)
  | spawn => exact ⟨h.disk, h.logged⟩
  | frame i message => exact ⟨h.disk, h.logged⟩
  | connection i kind sessionId details => exact ⟨h.disk, h.logged⟩
  | resnapshot i resp => exact ⟨h.disk, h.logged⟩
  | queue i sender => exact ⟨h.disk, h.logged⟩
  | dispatch i => exact ⟨h.disk, h.logged⟩
  | send i =>
      simp only [FeedPipeline.step, Journal.note]
      cases s.nextSend i with
      | some record => exact ⟨h.disk, h.logged⟩
      | none =>
          dsimp only
          split
          · exact ⟨h.disk, h.logged⟩
          · exact h
  | retire i =>
      simp only [FeedPipeline.step, Journal.note]
      split
      · exact ⟨h.disk, h.logged⟩
      · exact ⟨h.disk, h.logged⟩
  | checkpoint c =>
      simp only [FeedPipeline.step, Journal.note]
      split
      · exact ⟨h.disk, h.logged⟩
      · exact h
  | drain fannedOut => exact h.drain hdelivered fannedOut
  | spill k => exact h.of_same (h.disk.spill config k) rfl rfl (h.disk.retained_spill config k)
  | flush => exact h.of_same (h.disk.step config .flush) rfl rfl (h.disk.retained_flush config)
  | sync => exact h.of_same (h.disk.sync config) rfl rfl (h.disk.retained_sync config)
  | prune files => exact h.prune files
  | crash kept => exact ⟨h.disk.crash config kept, List.nil_suffix⟩

/-- What has been logged is in the segment files, once they are synced. -/
theorem payloads_sync (h : InLog s j) {w : WalWriter} (hwriter : s.disk.writer = some w) :
    payloads j.logged <:+ j.pruned ++ (s.disk.step config .sync).dir.payloads := by
  rw [h.disk.payloads_sync config hwriter]
  exact h.logged

end InLog

/-- **Exactly once, and in order.**  In every run of the process, whatever its tasks do in
between: each generation has sent the records its dispatcher makes of the first messages
that it has been queued, and nothing twice; they go through the event channel in this order;
`wal_drain`, until it stops, appends each that can be encoded, with its stamps; and a sync
brings what has been appended since the start to the end of the segment files. -/
theorem delivered_exactly_once (config : WalConfig) (nowUs : Nat) (events : List Event) :
    let s := watched config nowUs events
    s.1 = Runs.run (FeedPipeline.step config) (.init nowUs) events ∧ Delivered s.1 s.2 ∧
      ∀ w ∈ s.1.disk.writer,
        payloads s.2.logged <:+ s.2.pruned ++ (s.1.disk.step config .sync).dir.payloads := by
  intro s
  have h : Delivered s.1 s.2 ∧ InLog s.1 s.2 :=
    Runs.run_induction (fun (s : State × Journal) e (h : Delivered s.1 s.2 ∧ InLog s.1 s.2) =>
      ⟨h.1.step e, h.2.step h.1 e⟩) ⟨Delivered.init nowUs, InLog.init nowUs⟩ events
  exact ⟨watched_fst config nowUs events, h.1, fun w hwriter => h.2.payloads_sync hwriter⟩

end Delivery

end PolyBook.FeedDelivery
