import PolyBook.FeedDelivery
import PolyBook.SinkRun
import PolyBook.Wal.LittleEndian

/-!
# The ingest process

`ingest` drives the feed, and supervises the checkpoint producer, the Parquet sink and
`wal_drain`, which gives the sink what it has appended to the log.  It stops when the feed
ends or one of these tasks returns before; then it cancels the shutdown token, drops its
sender, joins the tasks and returns an exit status.

`clean_exit_loses_nothing`: whatever the tasks do in between, if the process exits with
status zero and the last sync of `wal_drain` has succeeded, every record that a dispatcher or
the checkpoint producer has sent is in the segment files and in the archive.  A last sync that
fails is not seen in the status.  No task panics here, and an append waits until the sink has
room for the record, as the fan-out after it does.
-/

namespace PolyBook.IngestProcess

open Wal FeedDelivery
open FeedPipeline (Generation)
open Publication (ParquetFormat)

/-- A task of the `Supervisor`. -/
inductive Task where
  | running
  | returned
  deriving DecidableEq

/-- Where `run` stands. -/
inductive Phase where
  /-- the `select!` over the feed and the supervised tasks -/
  | feeding
  /-- a supervised task has returned, and the feed is awaited -/
  | aborting (component : String)
  /-- `join_all` -/
  | joining (feed : Except String Unit) (component : Option String)
  | exited (status : Except String Unit)

/-- The feed has not returned, and `run` has its sender. -/
def Phase.feeds : Phase → Bool
  | .feeding | .aborting _ => true
  | .joining _ _ | .exited _ => false

/-- The state of `poly-book ingest`: its tasks, and how far the shutdown is. -/
structure State where
  /-- The market tasks, the event channel and the log. -/
  pipeline : FeedPipeline.State
  /-- What has gone through them, for the statements only. -/
  journal : Journal
  producer : Option Task
  sink : Option SinkRun.State
  shutdown : Bool
  walFailed : Bool
  /-- The sync after the loop of `wal_drain` has succeeded. -/
  synced : Bool
  /-- `join_all` has timed out. -/
  abandoned : Bool
  phase : Phase

/-- What happens to the process. -/
inductive Event where
  | interrupt
  /-- The market tasks go on, the checkpoint producer sends, a timer of `wal_drain` ticks. -/
  | pipeline (e : FeedPipeline.Event)
  | producerStops
  /-- `wal_drain` receives a record; whether a last sync succeeds. -/
  | drain (synced : Bool)
  /-- An append, a flush or a sync has failed. -/
  | logFails (synced : Bool)
  /-- `wal_drain` finds the event channel closed. -/
  | drainEnds (synced : Bool)
  | sinkReceives
  | sinkTicks
  /-- `next_exit`. -/
  | taskExits (component : String)
  | feedEnds (result : Except String Unit)
  | joined
  | joinTimesOut

/-- What becomes of the next record of the event channel. -/
inductive Draining where
  | idle
  | dropped
  | failed
  | appended (record : PersistedRecord)

section

variable [Crc32c] [Bincode]

/-- What the receiving branch of `wal_drain` does next, stamping included. -/
def draining (s : FeedPipeline.State) : Draining :=
  match s.disk.writer, s.events with
  | some w, record :: _ =>
      if s.stopped then .idle
      else
        let stamped := Ingest.stamp s.ingestOrdinal w.globalOffset record
        match Codec.encode stamped with
        | .error _ => .dropped
        | .ok payload => if (s.disk.append w payload).2 then .appended stamped else .failed
  | _, _ => .idle

variable [ParquetFormat] [Chrono] (config : WalConfig) (outcome : Nat → PutOutcome)
  (basePath : String)

namespace State

/-- Which steps of the pipeline can be taken now. -/
def admits (s : State) : FeedPipeline.Event → Bool
  | .spawn => s.phase.feeds
  | .checkpoint _ => s.producer = some .running
  | .spill _ | .flush | .sync | .prune _ => !s.pipeline.stopped
  | .openWriter | .drain _ | .crash _ => false
  | _ => true

/-- The market tasks or the log take one step, and the journal notes it. -/
def advance (s : State) (e : FeedPipeline.Event) : State :=
  { s with
    pipeline := FeedPipeline.step config s.pipeline e, journal := s.journal.note s.pipeline e }

/-- The sink makes a step. -/
def sinkStep (s : State) (e : SinkRun.Event) : State :=
  { s with sink := s.sink.map (SinkRun.step outcome basePath · e) }

/-- `wal_drain` leaves its loop: a last sync, and the sender to the sink is dropped. -/
def leaveLoop (s : State) (synced : Bool) : State :=
  let disk := if synced then s.pipeline.disk.step config .sync else s.pipeline.disk
  { s with
    pipeline := { s.pipeline with stopped := true, disk := disk }
    synced := synced }.sinkStep outcome basePath .close

/-- `fail`, and the end of the loop. -/
def failLog (s : State) (synced : Bool) : State :=
  { s.leaveLoop config outcome basePath synced with walFailed := true, shutdown := true }

/-- The record is appended and fanned out. -/
def drain (s : State) (synced : Bool) : State :=
  match draining s.pipeline with
  | .idle => s
  | .dropped => s.advance config (.drain true)
  | .failed => (s.advance config (.drain true)).failLog config outcome basePath synced
  | .appended record =>
      match s.sink with
      | none => s.advance config (.drain true)
      | some sink =>
          match sink.returned with
          -- the sink has dropped its receiver
          | some _ => (s.advance config (.drain false)).leaveLoop config outcome basePath synced
          | none =>
              if sink.channel.length < SinkRun.sinkCapacity then
                (s.advance config (.drain true)).sinkStep outcome basePath (.send record)
              else s

/-- Nobody can send on the event channel any more. -/
def sendersGone (s : State) : Bool :=
  !s.phase.feeds && s.producer ≠ some .running && s.pipeline.generations.all (·.closed)

/-- The supervised tasks that have returned. -/
def returnedTasks (s : State) : List String :=
  (if s.producer = some .returned then ["checkpoint-producer"] else []) ++
    (if (s.sink.bind (·.returned)).isSome then ["parquet-sink"] else []) ++
      (if s.pipeline.stopped then ["wal-drain"] else [])

/-- Everything that `shutdown` waits for has returned. -/
def allReturned (s : State) : Bool :=
  s.producer ≠ some .running && s.sink.all (·.returned.isSome) && s.pipeline.stopped

/-- What `run` returns after `join_all`. -/
def exit (s : State) (feed : Except String Unit) (component : Option String) : State :=
  let status := do
    feed
    if s.walFailed then throw "ingest aborted: WAL durability failure"
    match component with
    | some component =>
        throw ("ingest aborting: supervised task '" ++ component ++ "' exited unexpectedly")
    | none => pure ()
  { s with phase := .exited status }

/-- One event of a process that has not exited. -/
def go (s : State) : Event → State
  | .interrupt => { s with shutdown := true }
  | .pipeline e => if s.admits e then s.advance config e else s
  | .producerStops =>
      if s.producer = some .running && (s.shutdown || s.pipeline.stopped) then
        { s with producer := some .returned }
      else s
  | .drain synced => s.drain config outcome basePath synced
  | .logFails synced =>
      if s.pipeline.stopped then s else s.failLog config outcome basePath synced
  | .drainEnds synced =>
      if !s.pipeline.stopped && s.pipeline.events.isEmpty && s.sendersGone then
        s.leaveLoop config outcome basePath synced
      else s
  | .sinkReceives => s.sinkStep outcome basePath .recv
  | .sinkTicks => s.sinkStep outcome basePath .tick
  | .taskExits component =>
      match s.phase with
      | .feeding =>
          if component ∈ s.returnedTasks then
            { s with phase := .aborting component, shutdown := true }
          else s
      | _ => s
  | .feedEnds result =>
      match s.phase, result with
      -- the feed goes on until it fails or is shut down
      | .feeding, .ok () => if s.shutdown then { s with phase := .joining result none } else s
      | .feeding, .error _ => { s with phase := .joining result none, shutdown := true }
      | .aborting component, _ => { s with phase := .joining result (some component) }
      | _, _ => s
  | .joined =>
      match s.phase with
      | .joining feed component => if s.allReturned then s.exit feed component else s
      | _ => s
  | .joinTimesOut =>
      match s.phase with
      | .joining feed component => { s.exit feed component with abandoned := true }
      | _ => s

end State

/-- Nothing happens after the exit. -/
def step (s : State) (e : Event) : State :=
  match s.phase with
  | .exited _ => s
  | _ => s.go config outcome basePath e

/-- The process once its tasks are spawned, on a log that an earlier process has left. -/
def State.start (nowUs : Nat) (disk : Disk) (checkpoints : Bool) (archive : Option ObjectStore) :
    State where
  pipeline := ⟨nowUs, [], [], false, 0, disk.step config .openWriter, []⟩
  journal := .empty
  producer := if checkpoints then some .running else none
  sink := archive.map SinkRun.State.init
  shutdown := false
  walFailed := false
  synced := false
  abandoned := false
  phase := .feeding

end

/-! ## The pipeline -/

section

variable [Crc32c] [Bincode] {config : WalConfig} {p : FeedPipeline.State} {j : Journal}

/-- What `wal_drain` does to the pipeline and to the journal. -/
inductive Drained (config : WalConfig) (p : FeedPipeline.State) (j : Journal) : Draining → Prop
  | idle : Drained config p j .idle
  | dropped (hrunning : p.stopped = false) (hlogged : (j.note p (.drain true)).logged = j.logged)
      (hstopped : (FeedPipeline.step config p (.drain true)).stopped = false) :
      Drained config p j .dropped
  | failed (hrunning : p.stopped = false) (hlogged : (j.note p (.drain true)).logged = j.logged) :
      Drained config p j .failed
  | appended {record : PersistedRecord} (hrunning : p.stopped = false)
      (hlogged : ∀ fannedOut, (j.note p (.drain fannedOut)).logged = j.logged ++ [record])
      (hstopped : ∀ fannedOut,
        (FeedPipeline.step config p (.drain fannedOut)).stopped = !fannedOut) :
      Drained config p j (.appended record)

/-- What the branch records is what the journal says was drained. -/
theorem drained_draining (h : Delivered p j) : Drained config p j (draining p) := by
  unfold draining
  cases hwriter : p.disk.writer with
  | none => exact .idle
  | some w =>
      cases hj : j.channel with
      | nil =>
          have hevents : p.events = [] := by rw [← h.channel, hj]; rfl
          rw [hevents]
          exact .idle
      | cons entry channel =>
          have hevents : p.events = entry.2 :: Interleaving.merged channel := by
            rw [← h.channel, hj]
            rfl
          rw [hevents]
          dsimp only
          by_cases hstopped : p.stopped = true
          · rw [if_pos hstopped]
            exact .idle
          rw [if_neg hstopped]
          have hrunning := Bool.eq_false_iff.mpr hstopped
          cases hencode : Codec.encode (Ingest.stamp p.ingestOrdinal w.globalOffset entry.2) with
          | error e =>
              refine .dropped hrunning ?_ ?_
              · simp only [Journal.note, hwriter, hj, if_neg hstopped, hencode]
              · simp only [FeedPipeline.step, FeedPipeline.State.drain, hwriter, hevents,
                  hencode, hrunning, Bool.false_eq_true, if_false]
          | ok payload =>
              dsimp only
              cases happend : (p.disk.append w payload).2 with
              | false =>
                  refine .failed hrunning ?_
                  simp only [Journal.note, hwriter, hj, if_neg hstopped, hencode, happend,
                    Bool.false_eq_true, if_false]
              | true =>
                  refine .appended hrunning (fun fannedOut => ?_) fun fannedOut => ?_
                  · simp only [Journal.note, hwriter, hj, if_neg hstopped, hencode, happend,
                      if_true]
                  · have hpair : p.disk.append w payload =
                        ((p.disk.append w payload).1, true) := by rw [← happend]
                    simp only [FeedPipeline.step, FeedPipeline.State.drain, hwriter, hevents,
                      if_neg hstopped, hencode]
                    rw [hpair]

/-- The steps of the tasks other than `wal_drain`, and of its timers. -/
def Aside : FeedPipeline.Event → Prop
  | .openWriter | .drain _ | .crash _ => False
  | _ => True

omit [Crc32c] [Bincode] in
/-- The events admitted beside the drain take nothing from the event channel. -/
theorem aside_of_admits {s : State} {e : FeedPipeline.Event} (h : s.admits e = true) : Aside e := by
  cases e with
  | openWriter => cases h
  | drain fannedOut => cases h
  | crash kept => cases h
  | _ => trivial

/-- Only `wal_drain` stops the pipeline and takes from it. -/
structure Untaken (p p' : FeedPipeline.State) (j j' : Journal) : Prop where
  stopped : p'.stopped = p.stopped
  drained : j'.drained = j.drained
  stamped : j'.stamped = j.stamped
  logged : j'.logged = j.logged
  channel : p.stopped = true → j'.channel = j.channel
  queued : ∀ i, j.queued i <+: j'.queued i
  retired : ∀ i, j.retired i = true → j'.retired i = true

omit [Crc32c] [Bincode] in
/-- A step that leaves the channel and the log alone takes nothing from them. -/
theorem Untaken.of_same {p' : FeedPipeline.State} (hstopped : p'.stopped = p.stopped) :
    Untaken p p' j j :=
  ⟨hstopped, rfl, rfl, rfl, fun _ => rfl, fun _ => List.prefix_rfl, fun _ h => h⟩

/-- Steps beside the drain leave what was drained and stamped as it was. -/
theorem untaken {e : FeedPipeline.Event} (he : Aside e) :
    Untaken p (FeedPipeline.step config p e) j (j.note p e) := by
  have hrefuses : p.stopped = true → p.accepts = false := by
    intro hstopped
    simp [FeedPipeline.State.accepts, hstopped]
  cases e with
  | openWriter => cases he
  | drain fannedOut => cases he
  | crash kept => cases he
  | tick elapsedUs => exact .of_same rfl
  | spawn => exact .of_same rfl
  | frame i message => exact .of_same rfl
  | connection i kind sessionId details => exact .of_same rfl
  | resnapshot i resp => exact .of_same rfl
  | queue i sender =>
      refine ⟨rfl, rfl, rfl, rfl, fun _ => rfl, fun k => ?_, fun _ h => h⟩
      dsimp only [Journal.note]
      by_cases hk : k = i
      · subst hk
        rw [Function.update_self]
        exact List.prefix_append _ _
      · rw [Function.update_of_ne hk]
  | dispatch i => exact .of_same rfl
  | spill k => exact .of_same rfl
  | flush => exact .of_same rfl
  | sync => exact .of_same rfl
  | prune files =>
      simp only [FeedPipeline.step, Journal.note]
      cases p.disk.writer with
      | none => exact .of_same rfl
      | some w => exact ⟨rfl, rfl, rfl, rfl, fun _ => rfl, fun _ => List.prefix_rfl, fun _ h => h⟩
  | send i =>
      simp only [FeedPipeline.step, Journal.note]
      cases hnext : p.nextSend i with
      | some record =>
          refine ⟨rfl, rfl, rfl, rfl, fun hstopped => ?_, fun _ => List.prefix_rfl, fun _ h => h⟩
          simp [FeedPipeline.State.nextSend, hrefuses hstopped] at hnext
      | none =>
          dsimp only
          split
          · exact .of_same rfl
          · exact .of_same rfl
  | checkpoint c =>
      simp only [FeedPipeline.step, Journal.note]
      split
      · rename_i haccepts
        refine ⟨rfl, rfl, rfl, rfl, fun hstopped => ?_, fun _ => List.prefix_rfl, fun _ h => h⟩
        rw [hrefuses hstopped] at haccepts
        cases haccepts
      · exact .of_same rfl
  | retire i =>
      simp only [Journal.note]
      split
      · refine ⟨rfl, rfl, rfl, rfl, fun _ => rfl, fun _ => List.prefix_rfl, fun k h => ?_⟩
        by_cases hk : k = i
        · rw [hk]
          exact Function.update_self _ _ _
        · exact (Function.update_of_ne hk _ _).trans h
      · exact .of_same rfl

/-- After `wal_drain` nothing is written or deleted. -/
theorem disk_of_stopped {s : State} {e : FeedPipeline.Event} (hadmits : s.admits e = true)
    (hstopped : s.pipeline.stopped = true) :
    (FeedPipeline.step config s.pipeline e).disk = s.pipeline.disk := by
  cases e with
  | openWriter => cases hadmits
  | drain fannedOut => cases hadmits
  | crash kept => cases hadmits
  | spill k => simp [State.admits, hstopped] at hadmits
  | flush => simp [State.admits, hstopped] at hadmits
  | sync => simp [State.admits, hstopped] at hadmits
  | prune files => simp [State.admits, hstopped] at hadmits
  | tick elapsedUs => rfl
  | spawn => rfl
  | frame i message => rfl
  | connection i kind sessionId details => rfl
  | resnapshot i resp => rfl
  | queue i sender => rfl
  | dispatch i => rfl
  | retire i => rfl
  | send i =>
      simp only [FeedPipeline.step]
      split
      · rfl
      · split <;> rfl
  | checkpoint c =>
      simp only [FeedPipeline.step]
      split <;> rfl

/-- The log stays open until the process is gone. -/
theorem writer_of_step {e : FeedPipeline.Event} (he : ∀ kept, e ≠ .crash kept)
    (h : (FeedPipeline.step config p e).disk.writer = none) : p.disk.writer = none := by
  cases e with
  | crash kept => exact absurd rfl (he kept)
  | spill k =>
      have h : (p.disk.step config (.spill k)).writer = none := h
      exact writer_of_diskStep (by simp) h
  | flush =>
      have h : (p.disk.step config .flush).writer = none := h
      exact writer_of_diskStep (by simp) h
  | sync =>
      have h : (p.disk.step config .sync).writer = none := h
      exact writer_of_diskStep (by simp) h
  | openWriter =>
      cases hwriter : p.disk.writer with
      | none => rfl
      | some w => simp only [FeedPipeline.step, hwriter, reduceCtorEq] at h
  | prune files =>
      cases hwriter : p.disk.writer with
      | none => rfl
      | some w => simp only [FeedPipeline.step, hwriter, reduceCtorEq] at h
  | drain fannedOut =>
      cases hwriter : p.disk.writer with
      | none => rfl
      | some w =>
          cases hevents : p.events with
          | nil => simp [FeedPipeline.step, hwriter, hevents] at h
          | cons record events =>
              simp only [FeedPipeline.step, hwriter, hevents, FeedPipeline.State.drain] at h
              have hkept : ∀ payload, (p.disk.append w payload).1.writer ≠ none :=
                writer_append p.disk w
              split at h
              · cases hwriter.symm.trans h
              · split at h
                · cases hwriter.symm.trans h
                · rename_i payload _
                  have hne := hkept payload
                  split at h
                  · rename_i happend
                    rw [happend] at hne
                    exact absurd h hne
                  · rename_i happend
                    rw [happend] at hne
                    exact absurd h hne
  | send i =>
      simp only [FeedPipeline.step] at h
      split at h
      · exact h
      · split at h <;> exact h
  | checkpoint c =>
      simp only [FeedPipeline.step] at h
      split at h <;> exact h
  | tick elapsedUs => exact h
  | spawn => exact h
  | frame i message => exact h
  | connection i kind sessionId details => exact h
  | resnapshot i resp => exact h
  | queue i sender => exact h
  | dispatch i => exact h
  | retire i => exact h

/-! ## The generations -/

/-- A generation is closed only by its retirement, as long as the event channel is open. -/
def Retiring (p : FeedPipeline.State) (j : Journal) : Prop :=
  p.stopped = false → ∀ i g, p.generations[i]? = some g → g.closed = true → j.retired i = true

omit [Crc32c] [Bincode] in
/-- A generation may change in anything but whether it is closed. -/
theorem Retiring.modify (h : Retiring p j) (i : Nat) {f : Generation → Generation}
    (hf : ∀ g, (f g).closed = g.closed) {p' : FeedPipeline.State} {j' : Journal}
    (hgenerations : p'.generations = p.generations.modify i f) (hstopped : p'.stopped = p.stopped)
    (hretired : j'.retired = j.retired) : Retiring p' j' := by
  intro hopen k g hg hclosed
  rw [hstopped] at hopen
  rw [hretired]
  rw [hgenerations] at hg
  by_cases hk : k = i
  · subst hk
    rw [List.getElem?_modify_eq] at hg
    obtain ⟨g', hg', rfl⟩ := Option.map_eq_some_iff.mp hg
    exact h hopen k g' hg' (hf g' ▸ hclosed)
  · rw [List.getElem?_modify_ne _ _ (Ne.symm hk)] at hg
    exact h hopen k g hg hclosed

/-- `wal_drain` leaves the generations alone. -/
theorem Retiring.drain (h : Retiring p j) (hopen : p.stopped = false) (fannedOut : Bool) :
    Retiring (FeedPipeline.step config p (.drain fannedOut)) (j.note p (.drain fannedOut)) := by
  have hgenerations : (FeedPipeline.step config p (.drain fannedOut)).generations =
      p.generations := by
    simp only [FeedPipeline.step]
    split
    · split
      · rfl
      · unfold FeedPipeline.State.drain
        dsimp only
        split
        · rfl
        · split <;> rfl
    · rfl
  have hretired : (j.note p (.drain fannedOut)).retired = j.retired := by
    simp only [Journal.note]
    split
    · split
      · rfl
      · split
        · rfl
        · split <;> rfl
    · rfl
  intro _ i g hg hclosed
  rw [hretired]
  exact h hopen i g (hgenerations ▸ hg) hclosed

omit [Crc32c] [Bincode] in
/-- Stamping a message closes no generation. -/
theorem closed_stamp (g : Generation) (sender : FeedPipeline.RawSender) (message : FeedMessage) :
    (g.stamp sender message).closed = g.closed := by
  unfold Generation.stamp
  split <;> rfl

omit [Crc32c] [Bincode] in
/-- Queueing a message closes no generation. -/
theorem closed_queue (g : Generation) (sender : FeedPipeline.RawSender) :
    (g.queue sender).closed = g.closed := by
  unfold Generation.queue
  split
  · rfl
  · split <;> rfl

omit [Crc32c] [Bincode] in
/-- Dispatching a message closes no generation. -/
theorem closed_dispatchNext (g : Generation) : g.dispatchNext.closed = g.closed := by
  unfold Generation.dispatchNext
  split
  · split <;> rfl
  · rfl

omit [Crc32c] [Bincode] in
/-- Retiring a generation closes it if it had not sent its last message. -/
theorem closed_retire (g : Generation) : g.retire.closed = (retires g || g.closed) := by
  unfold Generation.retire retires
  cases g.unsent.isEmpty <;> cases hclosed : g.closed <;> simp [Generation.close, hclosed]

/-- Steps beside the drain keep the account of the generations that retired. -/
theorem Retiring.step (h : Retiring p j) {e : FeedPipeline.Event} (he : Aside e) :
    Retiring (FeedPipeline.step config p e) (j.note p e) := by
  cases e with
  | openWriter => cases he
  | drain fannedOut => cases he
  | crash kept => cases he
  | tick elapsedUs => exact h
  | spill k => exact h
  | flush => exact h
  | sync => exact h
  | prune files =>
      simp only [FeedPipeline.step, Journal.note]
      cases p.disk.writer with
      | none => exact h
      | some w => exact h
  | spawn =>
      intro hopen i g hg hclosed
      rcases Nat.lt_or_ge i p.generations.length with hlt | hge
      · refine h hopen i g ?_ hclosed
        rwa [FeedPipeline.step, List.getElem?_append_left hlt] at hg
      · rw [FeedPipeline.step, List.getElem?_append_right hge] at hg
        obtain rfl := List.mem_singleton.mp (List.mem_of_getElem? hg)
        cases hclosed
  | frame i message => exact h.modify i (closed_stamp · _ _) rfl rfl rfl
  | connection i kind sessionId details => exact h.modify i (closed_stamp · _ _) rfl rfl rfl
  | resnapshot i resp => exact h.modify i (closed_stamp · _ _) rfl rfl rfl
  | queue i sender => exact h.modify i (closed_queue · _) rfl rfl rfl
  | dispatch i => exact h.modify i closed_dispatchNext rfl rfl rfl
  | send i =>
      simp only [FeedPipeline.step, Journal.note]
      cases p.nextSend i with
      | some record => exact h.modify i (f := Generation.sent) (fun _ => rfl) rfl rfl rfl
      | none =>
          dsimp only
          split
          · rename_i hstopped
            intro hopen
            cases hstopped.symm.trans hopen
          · exact h
  | checkpoint c =>
      simp only [FeedPipeline.step, Journal.note]
      split
      · exact h
      · exact h
  | retire i =>
      have huntaken : Untaken p (FeedPipeline.step config p (.retire i)) j (j.note p (.retire i)) :=
        untaken trivial
      intro hopen k g hg hclosed
      change (p.generations.modify i Generation.retire)[k]? = some g at hg
      by_cases hk : k = i
      · subst hk
        rw [List.getElem?_modify_eq] at hg
        obtain ⟨g', hg', rfl⟩ := Option.map_eq_some_iff.mp hg
        rw [closed_retire, Bool.or_eq_true] at hclosed
        rcases hclosed with hretires | hclosed
        · simp only [Journal.note, hg', Option.any_some, hretires, if_true]
          exact Function.update_self _ _ _
        · exact huntaken.retired k (h hopen k g' hg' hclosed)
      · rw [List.getElem?_modify_ne _ _ (Ne.symm hk)] at hg
        exact huntaken.retired k (h hopen k g hg hclosed)

end

/-! ## The sink -/

section

variable [ParquetFormat] [Chrono] {outcome : Nat → PutOutcome} {basePath : String}
  {before : ObjectStore}

/-- A flush sends nothing to the sink and closes nothing. -/
theorem sent_of_flush (outcome : Nat → PutOutcome) (basePath : String) (k : SinkRun.State) :
    (k.flush outcome basePath).1.sent = k.sent ∧
      (k.flush outcome basePath).1.closed = k.closed := by
  have hcase := k.flush_cases outcome basePath
  generalize k.flush outcome basePath = flushed at hcase
  cases hcase with
  | empty _ => exact ⟨rfl, rfl⟩
  | written _ _ _ => exact ⟨rfl, rfl⟩
  | failed _ _ _ => exact ⟨rfl, rfl⟩

/-- The sink has been given what has been logged, unless a flush has failed. -/
structure Fed (basePath : String) (before : ObjectStore) (stopped : Bool)
    (logged : List PersistedRecord) (k : SinkRun.State) : Prop where
  account : SinkRun.Accounted basePath before k
  sent : (∀ e, k.returned ≠ some (.error e)) → k.sent = logged
  closed : k.returned = none → k.closed = stopped
  clean : k.returned = some (.ok ()) → stopped = true

variable {stopped : Bool} {logged : List PersistedRecord} {k : SinkRun.State}

/-- What the sink does by itself changes nothing between it and the upstream. -/
theorem sent_of_own (outcome : Nat → PutOutcome) (basePath : String) (hruns : k.returned = none)
    {e : SinkRun.Event} (he : e = .recv ∨ e = .tick) :
    (SinkRun.step outcome basePath k e).sent = k.sent ∧
      (SinkRun.step outcome basePath k e).closed = k.closed := by
  have hflush := sent_of_flush outcome basePath k
  have hfinish : ∀ result, (k.finish outcome basePath result).sent = k.sent ∧
      (k.finish outcome basePath result).closed = k.closed := by
    intro result
    unfold SinkRun.State.finish
    split
    · rename_i k' e hpair
      rwa [hpair] at hflush
    · rename_i k' hpair
      rwa [hpair] at hflush
  unfold SinkRun.step
  rw [hruns]
  rcases he with rfl | rfl
  · dsimp only [SinkRun.State.advance]
    split
    · exact ⟨rfl, rfl⟩
    · split
      · exact hfinish _
      · exact ⟨rfl, rfl⟩
  · dsimp only [SinkRun.State.advance]
    split
    · exact ⟨rfl, rfl⟩
    · split
      · rename_i k' e hpair
        rwa [hpair] at hflush
      · rename_i k' hpair
        rwa [hpair] at hflush

/-- A sink that has returned does nothing more. -/
theorem step_of_returned {result : Except SinkRun.SinkError Unit} (h : k.returned = some result)
    (e : SinkRun.Event) : SinkRun.step outcome basePath k e = k := by
  unfold SinkRun.step
  rw [h]

namespace Fed

/-- Receiving a record or a tick leaves what the sink was fed as it was. -/
theorem own (h : Fed basePath before stopped logged k) {e : SinkRun.Event}
    (he : e = .recv ∨ e = .tick) :
    Fed basePath before stopped logged (SinkRun.step outcome basePath k e) := by
  cases hreturned : k.returned with
  | some result =>
      rw [step_of_returned hreturned]
      exact h
  | none =>
      obtain ⟨hsent, hclosed⟩ := sent_of_own outcome basePath hreturned he
      have haccount : SinkRun.Accounted basePath before (SinkRun.step outcome basePath k e) :=
        h.account.step e
      have hsame := hclosed.trans (h.closed hreturned)
      refine ⟨haccount, fun _ => ?_, fun _ => hsame, fun hclean => ?_⟩
      · rw [hsent]
        exact h.sent fun e he => nomatch hreturned.symm.trans he
      · rw [← hsame]
        exact (haccount.returned hclean).1

/-- Closing the sink's channel is what the end of the drain feeds it. -/
theorem close (h : Fed basePath before stopped logged k) :
    Fed basePath before true logged (SinkRun.step outcome basePath k .close) := by
  have haccount : SinkRun.Accounted basePath before (SinkRun.step outcome basePath k .close) :=
    h.account.step .close
  cases hreturned : k.returned with
  | some result =>
      rw [step_of_returned hreturned] at haccount ⊢
      exact ⟨haccount, h.sent, fun hnone => (nomatch hreturned.symm.trans hnone), fun _ => rfl⟩
  | none =>
      refine ⟨haccount, fun _ => ?_, fun _ => ?_, fun _ => rfl⟩
      · simp only [SinkRun.step, hreturned, SinkRun.State.advance]
        exact h.sent fun e he => nomatch hreturned.symm.trans he
      · simp only [SinkRun.step, hreturned, SinkRun.State.advance]

/-- A record sent to the sink is the next one of the log. -/
theorem send (h : Fed basePath before false logged k) (hreturned : k.returned = none)
    (hroom : k.channel.length < SinkRun.sinkCapacity) (record : PersistedRecord) :
    Fed basePath before false (logged ++ [record])
      (SinkRun.step outcome basePath k (.send record)) := by
  have haccount : SinkRun.Accounted basePath before
      (SinkRun.step outcome basePath k (.send record)) := h.account.step _
  have hopen := h.closed hreturned
  have hstep : SinkRun.step outcome basePath k (.send record) =
      { k with channel := k.channel ++ [record], sent := k.sent ++ [record] } := by
    simp only [SinkRun.step, hreturned, SinkRun.State.advance, hopen, Bool.false_or,
      decide_eq_true_eq, if_neg (Nat.not_le.mpr hroom)]
  rw [hstep] at haccount ⊢
  refine ⟨haccount, fun _ => ?_, fun _ => hopen, fun hclean => ?_⟩
  · dsimp only
    rw [h.sent fun e he => nomatch hreturned.symm.trans he]
  · cases hreturned.symm.trans hclean

/-- After a failed flush nothing is asked of the sink. -/
theorem of_failed (h : Fed basePath before stopped logged k) {e : SinkRun.SinkError}
    (hreturned : k.returned = some (.error e)) (stopped' : Bool) (logged' : List PersistedRecord) :
    Fed basePath before stopped' logged' k := by
  refine ⟨h.account, fun hnot => absurd hreturned (hnot e), fun hnone => ?_, fun hclean => ?_⟩
  · cases hreturned.symm.trans hnone
  · cases hreturned.symm.trans hclean

end Fed

end

/-! ## What holds in every state -/

/-- A flush of the sink has failed. -/
def State.SinkFailed (s : State) : Prop := ∃ k ∈ s.sink, ∃ e, k.returned = some (.error e)

/-- Everything that was to be sent has been taken. -/
structure Emptied [Bincode] (s : State) : Prop where
  /-- The dispatchers have sent the records of all messages they have taken. -/
  sent : ∀ i, ∃ taken, taken <+: s.journal.queued i ∧
    s.journal.sent i = (Dispatcher.new.run taken).2
  channel : s.journal.channel = []
  logged : s.journal.logged = s.journal.stamped.filter loggable

/-- What the process has brought to the disk. -/
structure Recorded [Crc32c] [Bincode] (s : State) : Prop where
  inLog : InLog s.pipeline s.journal
  opened : s.pipeline.disk.writer ≠ none
  /-- Nothing is left in the buffer after the last sync. -/
  synced : s.synced = true → s.pipeline.stopped = true ∧
    s.pipeline.disk.dir.payloads = s.pipeline.disk.retained

/-- What holds in every state of the process: delivery, the log, the retirements and the
sink agree. -/
structure Inv [Crc32c] [Bincode] [ParquetFormat] [Chrono] (basePath : String)
    (archive : Option ObjectStore) (s : State) : Prop where
  delivered : Delivered s.pipeline s.journal
  recorded : Recorded s
  retiring : Retiring s.pipeline s.journal
  fed : ∀ k ∈ s.sink, ∃ before ∈ archive, Fed basePath before s.pipeline.stopped s.journal.logged k
  /-- Why `wal_drain` has left its loop. -/
  left : s.pipeline.stopped = true → s.walFailed = true ∨ s.SinkFailed ∨ Emptied s
  exited : s.phase = .exited (.ok ()) →
    s.walFailed = false ∧ (s.abandoned = false → s.allReturned = true)

section

variable [Crc32c] [Bincode] [ParquetFormat] [Chrono] {config : WalConfig}
  {outcome : Nat → PutOutcome} {basePath : String} {archive : Option ObjectStore} {s : State}

namespace Recorded

omit [ParquetFormat] [Chrono] in
/-- At the start the log holds what the disk had. -/
theorem start (config : WalConfig) (nowUs : Nat) {disk : Disk} (hdisk : disk.Inv)
    (checkpoints : Bool) : Recorded (.start config nowUs disk checkpoints archive) := by
  refine ⟨⟨hdisk.openWriter config, List.nil_suffix⟩, fun hnone => ?_, fun hsynced => ?_⟩
  · change (disk.step config .openWriter).writer = none at hnone
    cases hwriter : disk.writer with
    | none =>
        rw [Disk.step_openWriter config hwriter] at hnone
        cases hnone
    | some w =>
        rw [Disk.step_openWriter_of_some config hwriter] at hnone
        cases hwriter.symm.trans hnone
  · cases hsynced

omit [ParquetFormat] [Chrono] in
/-- The other tasks go on. -/
theorem advance (h : Recorded s) (hdelivered : Delivered s.pipeline s.journal)
    {e : FeedPipeline.Event} (hadmits : s.admits e = true) : Recorded (s.advance config e) := by
  have haside := aside_of_admits hadmits
  have hcrash : ∀ kept, e ≠ .crash kept := by
    rintro kept rfl
    cases haside
  refine ⟨h.inLog.step hdelivered e, fun hnone => h.opened (writer_of_step hcrash hnone),
    fun hsynced => ?_⟩
  obtain ⟨hstopped, hpayloads⟩ := h.synced hsynced
  have hdisk : (s.advance config e).pipeline.disk = s.pipeline.disk :=
    disk_of_stopped hadmits hstopped
  rw [hdisk]
  have huntaken : Untaken s.pipeline (FeedPipeline.step config s.pipeline e) s.journal
      (s.journal.note s.pipeline e) := untaken haside
  exact ⟨huntaken.stopped.trans hstopped, hpayloads⟩

omit [ParquetFormat] [Chrono] in
/-- `wal_drain` takes a record. -/
theorem drain (h : Recorded s) (hdelivered : Delivered s.pipeline s.journal)
    (hrunning : s.pipeline.stopped = false) (fannedOut : Bool) :
    Recorded (s.advance config (.drain fannedOut)) := by
  have hlog : InLog (FeedPipeline.step config s.pipeline (.drain fannedOut))
      (s.journal.note s.pipeline (.drain fannedOut)) := h.inLog.drain hdelivered fannedOut
  refine ⟨hlog, fun hnone => h.opened (writer_of_step (by simp) hnone), fun hsynced => ?_⟩
  cases hrunning.symm.trans (h.synced hsynced).1

/-- `wal_drain` leaves its loop and syncs the log. -/
theorem leave (h : Recorded s) (synced : Bool) :
    Recorded (s.leaveLoop config outcome basePath synced) := by
  obtain ⟨w, hwriter⟩ := Option.ne_none_iff_exists'.mp h.opened
  cases synced with
  | false => exact ⟨⟨h.inLog.disk, h.inLog.logged⟩, h.opened, fun hsynced => by cases hsynced⟩
  | true =>
      have hretained := h.inLog.disk.retained_sync config
      refine ⟨h.inLog.of_same (h.inLog.disk.sync config) rfl rfl hretained, fun hnone => ?_,
        fun _ => ⟨rfl, ?_⟩⟩
      · have hnone : (s.pipeline.disk.step config .sync).writer = none := hnone
        exact h.opened (writer_of_diskStep (by simp) hnone)
      · exact (h.inLog.disk.payloads_sync config hwriter).trans hretained.symm

end Recorded

namespace Inv

/-- The process starts in its invariant. -/
theorem start (config : WalConfig) (nowUs : Nat) {disk : Disk} (hdisk : disk.Inv)
    (checkpoints : Bool) : Inv basePath archive (.start config nowUs disk checkpoints archive) := by
  have hrecorded : Recorded (.start config nowUs disk checkpoints archive) :=
    .start config nowUs hdisk checkpoints
  refine ⟨⟨Serves.of_empty _ rfl, rfl, .nil, List.prefix_rfl, fun _ => rfl, List.suffix_rfl,
    fun hnone => absurd hnone hrecorded.opened⟩, hrecorded, ?_, ?_, fun hstopped => ?_,
    fun hexited => ?_⟩
  · intro _ i g hg
    simp [State.start] at hg
  · intro k hk
    obtain ⟨before, hbefore, rfl⟩ := Option.map_eq_some_iff.mp hk
    refine ⟨before, hbefore, SinkRun.Accounted.init basePath before, fun _ => rfl, fun _ => rfl,
      fun hclean => ?_⟩
    cases hclean
  · cases hstopped
  · cases hexited

/-- What does not concern the pipeline and the sink. -/
theorem of_same (h : Inv basePath archive s) {s' : State} (hpipeline : s'.pipeline = s.pipeline)
    (hjournal : s'.journal = s.journal) (hsink : s'.sink = s.sink)
    (hsynced : s'.synced = s.synced)
    (hfailed : s.walFailed = true → s'.walFailed = true)
    (hexited : s'.phase = .exited (.ok ()) →
      s'.walFailed = false ∧ (s'.abandoned = false → s'.allReturned = true)) :
    Inv basePath archive s' := by
  refine ⟨?_, ⟨?_, ?_, ?_⟩, ?_, ?_, fun hstopped => ?_, hexited⟩
  · rw [hpipeline, hjournal]
    exact h.delivered
  · rw [hpipeline, hjournal]
    exact h.recorded.inLog
  · rw [hpipeline]
    exact h.recorded.opened
  · rw [hpipeline, hsynced]
    exact h.recorded.synced
  · rw [hpipeline, hjournal]
    exact h.retiring
  · rw [hpipeline, hjournal, hsink]
    exact h.fed
  · rw [hpipeline] at hstopped
    rcases h.left hstopped with hwal | ⟨k, hk, he⟩ | hemptied
    · exact Or.inl (hfailed hwal)
    · exact Or.inr (Or.inl ⟨k, hsink ▸ hk, he⟩)
    · refine Or.inr (Or.inr ⟨?_, ?_, ?_⟩)
      · rw [hjournal]
        exact hemptied.sent
      · rw [hjournal]
        exact hemptied.channel
      · rw [hjournal]
        exact hemptied.logged

/-- The pipeline goes on beside `wal_drain`. -/
theorem advance (h : Inv basePath archive s) {e : FeedPipeline.Event} (hadmits : s.admits e = true)
    (hexited : ∀ status, s.phase ≠ .exited status) : Inv basePath archive (s.advance config e) := by
  have haside := aside_of_admits hadmits
  have huntaken : Untaken s.pipeline (FeedPipeline.step config s.pipeline e) s.journal
      (s.journal.note s.pipeline e) := untaken haside
  refine ⟨h.delivered.step e, h.recorded.advance h.delivered hadmits, h.retiring.step haside,
    fun k hk => ?_, fun hstopped => ?_, fun hexit => absurd hexit (hexited _)⟩
  · obtain ⟨before, hbefore, hfed⟩ := h.fed k hk
    refine ⟨before, hbefore, ?_⟩
    change Fed basePath before (FeedPipeline.step config s.pipeline e).stopped
      (s.journal.note s.pipeline e).logged k
    rwa [huntaken.stopped, huntaken.logged]
  · change (FeedPipeline.step config s.pipeline e).stopped = true at hstopped
    rw [huntaken.stopped] at hstopped
    rcases h.left hstopped with hfailed | hsink | hemptied
    · exact Or.inl hfailed
    · exact Or.inr (Or.inl hsink)
    · refine Or.inr (Or.inr ⟨fun i => ?_, (huntaken.channel hstopped).trans hemptied.channel, ?_⟩)
      · obtain ⟨taken, htaken, hsent⟩ := hemptied.sent i
        refine ⟨taken, htaken.trans (huntaken.queued i), ?_⟩
        rw [← hsent]
        change (s.journal.note s.pipeline e).sent i = s.journal.sent i
        rw [Journal.sent, huntaken.drained, huntaken.channel hstopped, Journal.sent]
      · change (s.journal.note s.pipeline e).logged =
          (s.journal.note s.pipeline e).stamped.filter loggable
        rw [huntaken.logged, huntaken.stamped]
        exact hemptied.logged

omit [Crc32c] [Bincode] in
/-- A failed sink stays failed. -/
theorem sinkFailed_step (h : s.SinkFailed) (e : SinkRun.Event) :
    (s.sinkStep outcome basePath e).SinkFailed := by
  obtain ⟨k, hk, error, hreturned⟩ := h
  refine ⟨k, ?_, error, hreturned⟩
  have hsink : s.sink = some k := hk
  simp only [State.sinkStep, hsink, Option.map_some, step_of_returned hreturned, Option.mem_def]

/-- The sink goes on by itself. -/
theorem own (h : Inv basePath archive s) (hexited : ∀ status, s.phase ≠ .exited status)
    {e : SinkRun.Event} (he : e = .recv ∨ e = .tick) :
    Inv basePath archive (s.sinkStep outcome basePath e) := by
  refine ⟨h.delivered, ⟨h.recorded.inLog, h.recorded.opened, h.recorded.synced⟩, h.retiring,
    fun k hk => ?_, fun hstopped => ?_,
    fun hexit => absurd hexit (hexited _)⟩
  · obtain ⟨k', hk', rfl⟩ := Option.map_eq_some_iff.mp hk
    obtain ⟨before, hbefore, hfed⟩ := h.fed k' hk'
    exact ⟨before, hbefore, hfed.own he⟩
  · rcases h.left hstopped with hwal | hsink | hemptied
    · exact Or.inl hwal
    · exact Or.inr (Or.inl (sinkFailed_step hsink e))
    · exact Or.inr (Or.inr ⟨hemptied.sent, hemptied.channel, hemptied.logged⟩)

/-- `wal_drain` leaves its loop for a reason. -/
theorem leave (hdelivered : Delivered s.pipeline s.journal) (hrecorded : Recorded s)
    (hfed : ∀ k ∈ s.sink, ∃ before ∈ archive, ∃ stopped,
      Fed basePath before stopped s.journal.logged k)
    (hwhy : s.walFailed = true ∨ s.SinkFailed ∨ Emptied s)
    (hexited : ∀ status, s.phase ≠ .exited status) (synced : Bool) :
    Inv basePath archive (s.leaveLoop config outcome basePath synced) := by
  refine ⟨?_, hrecorded.leave synced, ?_, fun k hk => ?_, fun _ => ?_,
    fun hexit => absurd hexit (hexited _)⟩
  · have hwriter : ∀ disk : Disk, (disk.writer = none → s.pipeline.disk.writer = none) →
        Delivered { s.pipeline with stopped := true, disk := disk } s.journal := by
      intro disk hnone
      obtain ⟨hgenerations, hchannel, hstamped, hlogged, -, happended, hunopened⟩ := hdelivered
      refine ⟨hgenerations, hchannel, hstamped, hlogged, fun hopen => ?_, happended,
        fun hclosed => ⟨rfl, (hunopened (hnone hclosed)).2⟩⟩
      cases hopen
    refine hwriter _ fun hnone => ?_
    cases synced with
    | true =>
        change (s.pipeline.disk.step config .sync).writer = none at hnone
        exact writer_of_diskStep (by simp) hnone
    | false => exact hnone
  · intro hopen
    cases hopen
  · obtain ⟨k', hk', rfl⟩ := Option.map_eq_some_iff.mp hk
    obtain ⟨before, hbefore, stopped, hk⟩ := hfed k' hk'
    exact ⟨before, hbefore, hk.close⟩
  · rcases hwhy with hwal | hsink | hemptied
    · exact Or.inl hwal
    · exact Or.inr (Or.inl (sinkFailed_step hsink .close))
    · exact Or.inr (Or.inr ⟨hemptied.sent, hemptied.channel, hemptied.logged⟩)

end Inv

/-- Nobody can send, and everything has been taken. -/
theorem emptied_of_gone (h : Inv basePath archive s) (hopen : s.pipeline.stopped = false)
    (hevents : s.pipeline.events = []) (hgone : s.sendersGone = true) : Emptied s := by
  simp only [State.sendersGone, Bool.and_eq_true, List.all_eq_true] at hgone
  refine ⟨fun i => ?_, ?_, h.delivered.running hopen⟩
  · have hi := h.delivered.generations i
    cases hg : s.pipeline.generations[i]? with
    | none =>
        rw [hg] at hi
        exact ⟨[], List.nil_prefix, hi.2.1⟩
    | some g =>
        rw [hg] at hi
        have hclosed := hgone.2 g (List.mem_of_getElem? hg)
        exact (Served.retired hi (h.retiring hopen i g hg hclosed)).2
  · have hchannel := h.delivered.channel
    rw [hevents] at hchannel
    exact List.map_eq_nil_iff.mp hchannel

omit [Bincode] [Chrono] [Crc32c] [ParquetFormat] in
/-- The process exits with success only if the log did not fail. -/
theorem exit_ok {feed : Except String Unit} {component : Option String}
    (h : (s.exit feed component).phase = .exited (.ok ())) : s.walFailed = false := by
  simp only [State.exit, Phase.exited.injEq] at h
  cases feed with
  | error e => cases h
  | ok done =>
      cases hfailed : s.walFailed with
      | false => rfl
      | true =>
          rw [hfailed] at h
          cases h

namespace Inv

/-- `wal_drain` has taken a record and goes on. -/
theorem goesOn (h : Inv basePath archive s) (hexited : ∀ status, s.phase ≠ .exited status)
    (hopen : s.pipeline.stopped = false) {sink : Option SinkRun.State}
    (hstopped : (FeedPipeline.step config s.pipeline (.drain true)).stopped = false)
    (hfed : ∀ k ∈ sink, ∃ before ∈ archive,
      Fed basePath before false (s.journal.note s.pipeline (.drain true)).logged k) :
    Inv basePath archive { s.advance config (.drain true) with sink := sink } := by
  have hdelivered : Delivered (FeedPipeline.step config s.pipeline (.drain true))
      (s.journal.note s.pipeline (.drain true)) := h.delivered.step _
  have hretiring : Retiring (FeedPipeline.step config s.pipeline (.drain true))
      (s.journal.note s.pipeline (.drain true)) := h.retiring.drain hopen true
  have hdrained : Recorded (s.advance config (.drain true)) :=
    h.recorded.drain h.delivered hopen true
  refine ⟨hdelivered, ⟨hdrained.inLog, hdrained.opened, hdrained.synced⟩, hretiring,
    fun k hk => ?_, fun hleft => ?_, fun hexit => absurd hexit (hexited _)⟩
  · change ∃ before ∈ archive, Fed basePath before
      (FeedPipeline.step config s.pipeline (.drain true)).stopped _ k
    rw [hstopped]
    exact hfed k hk
  · cases hstopped.symm.trans hleft

/-- A step of the receiving branch keeps the invariant. -/
theorem drain (h : Inv basePath archive s) (hexited : ∀ status, s.phase ≠ .exited status)
    (synced : Bool) : Inv basePath archive (s.drain config outcome basePath synced) := by
  have hcase : Drained config s.pipeline s.journal (draining s.pipeline) :=
    drained_draining h.delivered
  unfold State.drain
  generalize draining s.pipeline = next at hcase
  cases hcase with
  | idle => exact h
  | dropped hrunning hlogged hstopped =>
      refine h.goesOn hexited hrunning hstopped fun k hk => ?_
      obtain ⟨before, hbefore, hfed⟩ := h.fed k hk
      exact ⟨before, hbefore, by rwa [hlogged, ← hrunning]⟩
  | failed hrunning hlogged =>
      have hrecorded : Recorded (s.advance config (.drain true)) :=
        h.recorded.drain h.delivered hrunning true
      have hdelivered : Delivered (FeedPipeline.step config s.pipeline (.drain true))
          (s.journal.note s.pipeline (.drain true)) := h.delivered.step _
      refine Inv.leave (s := { s.advance config (.drain true) with
        walFailed := true, shutdown := true }) hdelivered
        ⟨hrecorded.inLog, hrecorded.opened, hrecorded.synced⟩ (fun k hk => ?_) (Or.inl rfl)
        hexited synced
      obtain ⟨before, hbefore, hfed⟩ := h.fed k hk
      refine ⟨before, hbefore, s.pipeline.stopped, ?_⟩
      change Fed basePath before s.pipeline.stopped
        (s.journal.note s.pipeline (.drain true)).logged k
      rwa [hlogged]
  | @appended record hrunning hlogged hstopped =>
      dsimp only
      split
      · rename_i hsink
        refine h.goesOn hexited hrunning (hstopped true) fun k hk => ?_
        rw [hsink] at hk
        cases hk
      · rename_i sink hsink
        obtain ⟨before, hbefore, hfed⟩ := h.fed sink hsink
        split
        · rename_i result hreturned
          cases result with
          | ok done => cases hrunning.symm.trans (hfed.clean hreturned)
          | error e =>
              have hdelivered : Delivered (FeedPipeline.step config s.pipeline (.drain false))
                  (s.journal.note s.pipeline (.drain false)) := h.delivered.step _
              refine Inv.leave (s := s.advance config (.drain false)) hdelivered
                (h.recorded.drain h.delivered hrunning false) (fun k hk => ?_)
                (Or.inr (Or.inl ⟨sink, hsink, e, hreturned⟩)) hexited synced
              obtain rfl := Option.some.inj (hsink.symm.trans hk)
              exact ⟨before, hbefore, true, hfed.of_failed hreturned _ _⟩
        · rename_i hreturned
          split
          · rename_i hroom
            refine h.goesOn hexited hrunning (hstopped true) fun k hk => ?_
            obtain ⟨k', hk', rfl⟩ := Option.map_eq_some_iff.mp hk
            obtain rfl := Option.some.inj (hsink.symm.trans hk')
            rw [hrunning] at hfed
            exact ⟨before, hbefore, by rw [hlogged]; exact hfed.send hreturned hroom record⟩
          · exact h

/-- Every step of a running process keeps the invariant. -/
theorem go (h : Inv basePath archive s) (hexited : ∀ status, s.phase ≠ .exited status)
    (e : Event) : Inv basePath archive (s.go config outcome basePath e) := by
  have hrunning : ∀ {s' : State}, s'.phase = s.phase → s'.phase = .exited (.ok ()) →
      s'.walFailed = false ∧ (s'.abandoned = false → s'.allReturned = true) :=
    fun hsame hexit => absurd (hsame.symm.trans hexit) (hexited _)
  cases e with
  | interrupt => exact h.of_same rfl rfl rfl rfl id (hrunning rfl)
  | pipeline e =>
      dsimp only [State.go]
      split
      · rename_i hadmits
        exact h.advance hadmits hexited
      · exact h
  | producerStops =>
      dsimp only [State.go]
      split
      · exact h.of_same rfl rfl rfl rfl id (hrunning rfl)
      · exact h
  | drain synced => exact h.drain hexited synced
  | logFails synced =>
      dsimp only [State.go]
      split
      · exact h
      · refine Inv.leave (s := { s with walFailed := true, shutdown := true }) h.delivered
          ⟨h.recorded.inLog, h.recorded.opened, h.recorded.synced⟩ (fun k hk => ?_) (Or.inl rfl)
          hexited synced
        obtain ⟨before, hbefore, hfed⟩ := h.fed k hk
        exact ⟨before, hbefore, _, hfed⟩
  | drainEnds synced =>
      dsimp only [State.go]
      split
      · rename_i hends
        simp only [Bool.and_eq_true, Bool.not_eq_true', List.isEmpty_iff] at hends
        obtain ⟨⟨hopen, hevents⟩, hgone⟩ := hends
        refine Inv.leave h.delivered h.recorded (fun k hk => ?_)
          (Or.inr (Or.inr (emptied_of_gone h hopen hevents hgone))) hexited synced
        obtain ⟨before, hbefore, hfed⟩ := h.fed k hk
        exact ⟨before, hbefore, _, hfed⟩
      · exact h
  | sinkReceives => exact h.own hexited (Or.inl rfl)
  | sinkTicks => exact h.own hexited (Or.inr rfl)
  | taskExits component =>
      dsimp only [State.go]
      split
      · split
        · exact h.of_same rfl rfl rfl rfl id fun hexit => by cases hexit
        · exact h
      · exact h
  | feedEnds result =>
      dsimp only [State.go]
      split
      · split
        · exact h.of_same rfl rfl rfl rfl id fun hexit => by cases hexit
        · exact h
      · exact h.of_same rfl rfl rfl rfl id fun hexit => by cases hexit
      · exact h.of_same rfl rfl rfl rfl id fun hexit => by cases hexit
      · exact h
  | joined =>
      dsimp only [State.go]
      split
      · rename_i feed component hphase
        split
        · rename_i hreturned
          exact h.of_same rfl rfl rfl rfl id fun hexit => ⟨exit_ok hexit, fun _ => hreturned⟩
        · exact h
      · exact h
  | joinTimesOut =>
      dsimp only [State.go]
      split
      · refine h.of_same rfl rfl rfl rfl id fun hexit => ⟨exit_ok hexit, fun hjoined => ?_⟩
        cases hjoined
      · exact h

/-- Every event keeps the invariant. -/
theorem step (h : Inv basePath archive s) (e : Event) :
    Inv basePath archive (step config outcome basePath s e) := by
  unfold IngestProcess.step
  split
  · exact h
  · rename_i hexited
    exact h.go hexited e

end Inv

/-- Nothing that was sent is missing from the log or from the archive. -/
structure Complete (basePath : String) (s : State) : Prop where
  /-- The dispatchers have sent the records of all messages they have taken. -/
  sent : ∀ i, ∃ taken, taken <+: s.journal.queued i ∧
    s.journal.sent i = (Dispatcher.new.run taken).2
  /-- `wal_drain` has taken all that was sent, by them and by the checkpoint producer. -/
  drained : s.journal.channel = []
  stamped : List.Forall₂ (fun entry record => ∃ ordinal globalOffset,
    record = Ingest.stamp ordinal globalOffset entry.2) s.journal.drained s.journal.stamped
  /-- The segment files end with what can be encoded, but for what was pruned. -/
  logged : FeedPipeline.payloads (s.journal.stamped.filter loggable) <:+
    s.journal.pruned ++ s.pipeline.disk.dir.payloads
  /-- It is in the archive, too. -/
  archived : ∀ k ∈ s.sink, k.flushed.flatten = s.journal.stamped.filter loggable ∧
    SinkRun.Present basePath k.flushed k.flushed k.store

/-- **A clean exit loses nothing.**  In every run of the process, whatever its tasks do and
whenever it is interrupted: if it exits with status zero after all supervised tasks have been
joined, the last sync has succeeded and the sink has returned without an error, then all records
that were sent are in the segment files and in the archive, in the order of the event channel. -/
theorem clean_exit_loses_nothing {nowUs : Nat} {disk : Disk} {checkpoints : Bool}
    {events : List Event} (hdisk : disk.Inv)
    (hexit : (Runs.run (step config outcome basePath)
      (.start config nowUs disk checkpoints archive) events).phase = .exited (.ok ()))
    (hjoined : (Runs.run (step config outcome basePath)
      (.start config nowUs disk checkpoints archive) events).abandoned = false)
    (hsynced : (Runs.run (step config outcome basePath)
      (.start config nowUs disk checkpoints archive) events).synced = true)
    (harchived : ∀ k ∈ (Runs.run (step config outcome basePath)
      (.start config nowUs disk checkpoints archive) events).sink, k.returned = some (.ok ())) :
    Complete basePath (Runs.run (step config outcome basePath)
      (.start config nowUs disk checkpoints archive) events) := by
  have h : Inv basePath archive (Runs.run (step config outcome basePath)
      (.start config nowUs disk checkpoints archive) events) :=
    Runs.run_induction (fun s e (h : Inv basePath archive s) => h.step e)
      (Inv.start config nowUs hdisk checkpoints) events
  generalize Runs.run (step config outcome basePath)
    (.start config nowUs disk checkpoints archive) events = s
    at hexit hjoined hsynced harchived h
  obtain ⟨hlog, hreturned⟩ := h.exited hexit
  have hall := hreturned hjoined
  simp only [State.allReturned, Bool.and_eq_true] at hall
  rcases h.left hall.2 with hfailed | ⟨k, hk, e, he⟩ | hemptied
  · cases hlog.symm.trans hfailed
  · cases (harchived k hk).symm.trans he
  · refine ⟨hemptied.sent, hemptied.channel, h.delivered.stamped, ?_, fun k hk => ?_⟩
    · rw [← hemptied.logged, (h.recorded.synced hsynced).2]
      exact h.recorded.inLog.logged
    · obtain ⟨before, -, hfed⟩ := h.fed k hk
      have hclean := harchived k hk
      obtain ⟨hsent, -, hpresent⟩ := hfed.account.clean hclean
      refine ⟨?_, hpresent⟩
      rw [← hsent, ← hemptied.logged]
      exact hfed.sent fun e he => by cases hclean.symm.trans he

end

attribute [local instance] littleEndian gregorian

/-! One trade, on a new log and a new archive. -/
namespace OneTrade

/-- The log's configuration in the sample run. -/
def config : WalConfig := ⟨4096, 64, 1048576⟩

/-- The trade that the venue sends in the sample run. -/
def received : WsMessage :=
  .lastTradePrice ⟨"a", "0.5", some "3", some "BUY", none, some "0x61"⟩

/-- What the log has of it. -/
def record : PersistedRecord := .trade {
  assetId := "a"
  price := Sample.price 50
  size := some (Sample.size 3)
  side := some .bid
  tradeId := some "0x61"
  fidelity := .full
  provenance := {
    recvTimestampUs := 1700000000000000
    exchangeTimestampUs := 0
    source := .webSocket
    sourceEventId := some "0x61"
    sourceSessionId := none
    sequence := none
    ingestOrdinal := some 0 } }

/-- The Parquet file that the sample run writes. -/
def bytes : Bytes := [0x50, 0x41, 0x52, 0x31]

/-- The encoding of a batch of it. -/
@[reducible] def format : ParquetFormat :=
  .ofTable [([record], bytes)] (fun _ => 0xa4e428564378c91c) (by decide)

attribute [local instance] format

/-- The process is interrupted after the trade. -/
def events (synced : Bool) : List Event :=
  [.pipeline .spawn, .pipeline (.frame 0 (some received)), .pipeline (.queue 0 .wsClient),
    .pipeline (.dispatch 0), .pipeline (.send 0), .drain true, .interrupt,
    .pipeline (.retire 0), .producerStops, .feedEnds (.ok ()), .sinkReceives, .drainEnds synced,
    .sinkReceives, .joined]

/-- The run of the sample, whose last sync succeeds or not. -/
def run (synced : Bool) : State :=
  Runs.run (step config (fun _ => .stored) "")
    (.start config 1700000000000000 .init true (some ⟨∅, 0⟩)) (events synced)

/-- Where the sample run ends when its last sync succeeds. -/
def final : State := run true

set_option maxRecDepth 4000 in
/-- The sample process exits with success. -/
theorem final_phase : final.phase = .exited (.ok ()) := by rfl

set_option maxRecDepth 4000 in
/-- The sink of the sample run returns without an error. -/
theorem final_returned : ∀ k ∈ final.sink, k.returned = some (.ok ()) := by
  intro k hk
  have hreturned : final.sink.map (·.returned) = some (some (.ok ())) := by rfl
  rw [Option.mem_def.mp hk, Option.map_some, Option.some.injEq] at hreturned
  exact hreturned

end OneTrade

attribute [local instance] OneTrade.format

open OneTrade in
/-- In the sample run the trade is in the log and in Parquet. -/
theorem clean_exit_loses_nothing_trade :
    Complete "" OneTrade.final ∧ OneTrade.final.journal.stamped = [record] := by
  exact ⟨clean_exit_loses_nothing Disk.Inv.init final_phase (by rfl) (by rfl) final_returned,
    by rfl⟩

set_option maxRecDepth 4000 in
/-- The status is the same when the last sync fails, but then the file is empty. -/
example : (OneTrade.run false).phase = .exited (.ok ()) ∧
    (OneTrade.run false).pipeline.disk.dir[0]? = some [] := ⟨by rfl, by rfl⟩

end PolyBook.IngestProcess
