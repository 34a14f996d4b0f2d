import PolyBook.LogEntries
import PolyBook.TailSession

/-!
# The serve process

`serve` hydrates a new live model from the checkpoints and the log, and `spawn_wal_tailer`
goes on from where the hydration ended: it opens a reader, with a back-off if that fails,
and gives the model what the reader returns.  A writer appends to the same log all the
while, and the two stop together when the power is lost.

`following_equals_restarting`: once the tailer has caught up, its model is the one that a
serve process started at that moment would hydrate.
-/

namespace PolyBook

open Wal

namespace ServeRuntime

open TailSession (Session Turn Returned)
open Committed (AtBoundary recordsBefore)

/-- Where `spawn_wal_tailer` stands. -/
inductive Phase where
  /-- before the reader is open -/
  | opening
  /-- the pause after a failed open, or after a new hydration -/
  | asleep
  | tailing (session : Session)
  | stopped

/-- The variables of `spawn_wal_tailer`, and the live model. -/
structure Tailer where
  live : LiveState
  startPosition : Option WalPosition
  openBackoffMs : Nat
  needsResync : Bool
  cancelled : Bool
  phase : Phase

/-- What happens to the tailer task of `poly-book serve`. -/
inductive TailerEvent where
  | cancel
  | openReader (failed : Bool) (positionFile : Option String) (nowMs : Nat)
  /-- a pause is over -/
  | wake
  /-- a turn of `tail_session`, and the checkpoints should it end in a new hydration -/
  | turn (t : Turn) (inventory : CheckpointInventory)

/-- What the projector has taken since. -/
def takenSince (old new : Session) [Bincode] : List PersistedRecord :=
  (new.returned.drop old.returned.length).filterMap fun x =>
    if x.accepted then (Codec.decode x.payload).toOption else none

section

variable [Bincode] [Crc32c] (config : WalConfig) (commitIntervalMs : Nat) (tokenIds : List AssetId)

namespace Tailer

/-- `serve`, up to the call of `spawn_wal_tailer`. -/
def start (inventory : CheckpointInventory) (dir : Dir) : Tailer :=
  let h := hydrateFrom config tokenIds (freshModel tokenIds) inventory dir
  { live := h.model
    startPosition := h.result.walEndPosition
    openBackoffMs := 100
    needsResync := !h.result.recoverySucceeded
    cancelled := false
    phase := .opening }

/-- `open_reader`: the reader at its committed position, or another wait. -/
def openReader (s : Tailer) (dir : Dir) (failed : Bool) (positionFile : Option String)
    (nowMs : Nat) : Tailer :=
  if s.cancelled then { s with phase := .stopped }
  else if failed then
    { s with
      needsResync := true, openBackoffMs := min (s.openBackoffMs * 2) 5000, phase := .asleep }
  else
    let reader := match s.startPosition with
      | some position => WalReader.openAt "serve-live" position dir
      | none => WalReader.openDir "serve-live" positionFile dir
    { s with needsResync := false, openBackoffMs := 100, phase := .tailing (.start reader nowMs) }

/-- A turn of the session, and what follows it. -/
def turn (s : Tailer) (session : Session) (dir : Dir) (t : Turn) (inventory : CheckpointInventory) :
    Tailer :=
  let next := TailSession.step commitIntervalMs session
    { t with shutdown := s.cancelled, dir := dir, failure := none }
  let s := { s with
    live := s.live.applyRecords (takenSince session next), cancelled := s.cancelled || t.cancelled }
  match next.outcome with
  | none => { s with phase := .tailing next }
  | some .shutdown => { s with phase := .stopped }
  | some .projectorDead => { s with needsResync := true, phase := .stopped }
  | some .resync =>
      let h := hydrateFrom config tokenIds s.live inventory dir
      { s with
        needsResync := true, live := h.model, startPosition := h.result.walEndPosition
        phase := .asleep }

/-- One event of the tailer. -/
def step (s : Tailer) (dir : Dir) : TailerEvent → Tailer
  | .cancel => { s with cancelled := true }
  | .openReader failed positionFile nowMs =>
      match s.phase with
      | .opening => s.openReader dir failed positionFile nowMs
      | _ => s
  | .wake =>
      match s.phase with
      | .asleep => { s with phase := if s.cancelled then .stopped else .opening }
      | _ => s
  | .turn t inventory =>
      match s.phase with
      | .tailing session => s.turn config commitIntervalMs tokenIds session dir t inventory
      | _ => s

end Tailer

/-- The log, and the serve process with the checkpoints that it found when it started. -/
structure State where
  disk : Disk
  inventory : CheckpointInventory
  serve : Option Tailer

/-- Nothing has run yet. -/
def State.init : State := ⟨.init, .ok [], none⟩

/-- What happens: to the writer's disk, or to the server. -/
inductive Event where
  | disk (e : DiskEvent)
  | start (inventory : CheckpointInventory)
  | serve (e : TailerEvent)

/-- One event; a power loss ends the server as well. -/
def step (s : State) : Event → State
  | .disk e =>
      let disk := s.disk.step config e
      match s.disk.writer, e with
      -- the power is lost for both
      | some _, .crash _ => { s with disk := disk, serve := none }
      | _, _ => { s with disk := disk }
  | .start inventory =>
      { s with inventory := inventory, serve := some (.start config tokenIds inventory s.disk.dir) }
  | .serve e =>
      { s with serve := s.serve.map fun t => t.step config commitIntervalMs tokenIds s.disk.dir e }

/-- The reader of the tailer. -/
def State.reader (s : State) : Option WalReader :=
  match s.serve.map Tailer.phase with
  | some (.tailing session) => some session.reader
  | _ => none

/-- A cached copy of the segment that an `append` closes is whole. -/
def State.KeepsUp (s : State) (payload : Bytes) : Prop :=
  ∀ w ∈ s.disk.writer, w.rotates payload = true →
    ∀ r ∈ s.reader, r.currentSegmentId = w.active.id →
      ∀ data ∈ r.currentData, data = s.disk.dir.contents w.active.id ++ w.active.buffer

/-- The checkpoints were stamped in the part of the log that is on disk. -/
def CutsBehind (inventory : CheckpointInventory) (dir : Dir) : Prop :=
  ∀ (asset : AssetId) cut,
    (checkpointOffsets tokenIds (inventoried (some inventory)))[asset]? = some cut →
      cut ≤ dir.scanEnd.globalOffset config

/-- What is appended decodes and fits a segment, and no rotation outruns the reader; serve
starts when the log has its writer, with checkpoints that the log is not behind. -/
def Allowed (s : State) : Event → Prop
  | .disk (.append payload) => (Codec.decode payload.bytes).isOk = true ∧
      headerSize + payload.bytes.length ≤ config.segmentSize ∧ s.KeepsUp payload.bytes
  | .start inventory =>
      s.disk.writer.isSome = true ∧ CutsBehind config tokenIds inventory s.disk.dir
  | _ => True

/-- Everything the writer took has reached the file. -/
def State.flushed (s : State) : Bool := s.disk.writer.all fun w => w.active.buffer.isEmpty

/-- What a serve process that is started now would hold. -/
def State.restarted (s : State) : LiveState :=
  (Tailer.start config tokenIds s.inventory s.disk.dir).live

end

/-! ## The listing of a reader -/

section

variable {dir : Dir} {r : WalReader}

/-- Loading a segment lists no segments. -/
theorem availableSegments_loadSegment (r : WalReader) (id : Nat) (dir : Dir) :
    (r.loadSegment id dir).2.availableSegments = r.availableSegments := by
  unfold WalReader.loadSegment
  split <;> rfl

/-- Topping a segment up lists no segments. -/
theorem availableSegments_topUpCurrentSegment (r : WalReader) (dir : Dir) :
    (r.topUpCurrentSegment dir).2.availableSegments = r.availableSegments := by
  have hreload := availableSegments_loadSegment r r.currentSegmentId dir
  unfold WalReader.topUpCurrentSegment
  split
  · rfl
  · split_ifs
    · dsimp only
      split_ifs
      · exact hreload
      · exact hreload
    · rfl
    · rfl

/-- The reader has listed the first segment of the log. -/
def ListsFirst (r : WalReader) : Prop := r.availableSegments.head? = some 0

/-- A reader whose list begins with segment 0 sees no gap. -/
theorem ListsFirst.needsResync (h : ListsFirst r) : r.needsResync = false := by
  unfold WalReader.needsResync
  rw [h]
  exact decide_eq_false (Nat.not_lt_zero _)

/-- Going on to the next segment keeps segment 0 listed. -/
theorem listsFirst_advanceSegment (hdir : dir.keys.head? = some 0) (r : WalReader) :
    ListsFirst (r.advanceSegment dir).2 := by
  unfold WalReader.advanceSegment
  dsimp only
  split
  · exact (congrArg List.head? (availableSegments_loadSegment _ _ dir)).trans hdir
  · exact (congrArg List.head? (availableSegments_topUpCurrentSegment _ dir)).trans hdir

/-- Loading the first time keeps segment 0 listed. -/
theorem listsFirst_reloadWhenUnloaded (hdir : dir.keys.head? = some 0) (r : WalReader) :
    ListsFirst (r.reloadWhenUnloaded dir).2 := by
  unfold WalReader.reloadWhenUnloaded
  dsimp only
  split_ifs
  · exact (congrArg List.head? (availableSegments_loadSegment _ _ dir)).trans hdir
  · split
    · split_ifs
      · exact (congrArg List.head? (availableSegments_loadSegment _ _ dir)).trans hdir
      · exact hdir
    · exact hdir

/-- The reader after a turn of `next`, or after the last. -/
def turnReader : (Except WalError (Option Bytes) × WalReader) ⊕ WalReader → WalReader
  | .inl answer => answer.2
  | .inr r => r

/-- What a turn of the reader ends with. -/
theorem turnReader_continueOrEnd (outcome : Bool × WalReader) :
    turnReader (WalReader.continueOrEnd outcome) = outcome.2 := by
  obtain ⟨went, r⟩ := outcome
  cases went <;> rfl

variable [Crc32c]

/-- One turn of the reader keeps segment 0 listed. -/
theorem ListsFirst.nextStep (hdir : dir.keys.head? = some 0) (h : ListsFirst r) :
    ListsFirst (turnReader (r.nextStep dir)) := by
  unfold WalReader.nextStep
  split
  · split
    · exact h
    · rw [turnReader_continueOrEnd]
      exact listsFirst_advanceSegment hdir r
    · exact h
    · rw [turnReader_continueOrEnd]
      exact listsFirst_advanceSegment hdir r
    · exact h
  · rw [turnReader_continueOrEnd]
    exact listsFirst_reloadWhenUnloaded hdir r

/-- Reading a record keeps segment 0 listed. -/
theorem ListsFirst.next (hdir : dir.keys.head? = some 0) (h : ListsFirst r) :
    ListsFirst (r.next dir).2 := by
  refine Loop.iterate_rule _ ListsFirst (fun answer : Except WalError (Option Bytes) × WalReader =>
    ListsFirst answer.2) ?_ ?_ h
  · intro r r' hr hstep
    have hturn := hr.nextStep hdir
    rwa [hstep] at hturn
  · intro r answer hr hstep
    have hturn := hr.nextStep hdir
    rwa [hstep] at hturn

end

/-! ## What holds in every state -/

section

variable [Bincode] [Crc32c] (config : WalConfig) (tokenIds : List AssetId)

/-- Where the tailer started to read, and what it has returned since. -/
structure Ledger where
  position : Option WalPosition
  recovered : Nat
  skipped : Nat
  returned : List Bytes

/-- The log and the reader that follows it. -/
def State.followed (s : State) (g : Ledger) : Committed.State :=
  ⟨s.disk, s.reader, g.position, g.recovered, g.skipped, g.returned⟩

/-- The tailer starts at a position that no cut lies past. -/
structure Based (inventory : CheckpointInventory) (g : Ledger) (t : Tailer) (p : WalPosition) :
    Prop where
  position : g.position = some p
  start : t.startPosition = some p
  cut : ∀ (asset : AssetId) cut, (cuts tokenIds inventory)[asset]? = some cut →
    cut ≤ p.globalOffset config

/-- The model has all entries up to where the tailer starts, or up to where it reads. -/
inductive Standing (d : Disk) (inventory : CheckpointInventory) (g : Ledger) (t : Tailer) : Prop
  | stopped (hphase : t.phase = .stopped)
  | waiting {p : WalPosition} (hphase : t.phase = .opening ∨ t.phase = .asleep)
      (hbased : Based config tokenIds inventory g t p)
      (hlive : t.live = hydratedFrom config tokenIds inventory
        ((entries d).take (recordsBefore d.records p)))
  | tailing {p : WalPosition} {session : Session} (hphase : t.phase = .tailing session)
      (hbased : Based config tokenIds inventory g t p) (houtcome : session.outcome = none)
      (hlists : ListsFirst session.reader) (hskipped : g.skipped = recordsBefore d.records p)
      (hlive : t.live = hydratedFrom config tokenIds inventory
        ((entries d).take (g.skipped + g.returned.length)))

/-- What holds in every state. -/
structure Inv (s : State) (g : Ledger) : Prop where
  followed : Committed.Inv (s.followed g)
  encoded : Encoded config s.disk
  alone : s.disk.writer = none → s.serve = none
  standing : ∀ t, s.serve = some t → Standing config tokenIds s.disk s.inventory g t

end

section

variable [Bincode] [Crc32c] {config : WalConfig} {commitIntervalMs : Nat} {tokenIds : List AssetId}
  {s : State} {g : Ledger} {w : WalWriter}

omit [Bincode] [Crc32c] in
/-- What a tailer starts from stays. -/
theorem Based.of_same {inventory : CheckpointInventory} {g' : Ledger} {t t' : Tailer}
    {p : WalPosition} (h : Based config tokenIds inventory g t p)
    (hposition : g'.position = g.position) (hstart : t'.startPosition = t.startPosition) :
    Based config tokenIds inventory g' t' p :=
  ⟨hposition.trans h.position, hstart.trans h.start, h.cut⟩

omit [Bincode] [Crc32c] in
/-- The reader of a session that tails. -/
theorem reader_of_tailing {t : Tailer} {session : Session} (hserve : s.serve = some t)
    (hphase : t.phase = .tailing session) : s.reader = some session.reader := by
  simp [State.reader, hserve, hphase]

omit [Bincode] [Crc32c] in
/-- Where there is a reader, there is a session that tails. -/
theorem tailing_of_reader (h : s.reader.isSome = true) :
    ∃ t session, s.serve = some t ∧ t.phase = .tailing session := by
  unfold State.reader at h
  cases hserve : s.serve with
  | none =>
      rw [hserve] at h
      cases h
  | some t =>
      rw [hserve, Option.map_some] at h
      cases hphase : t.phase with
      | tailing session => exact ⟨t, session, rfl, hphase⟩
      | opening | asleep | stopped =>
          rw [hphase] at h
          cases h

omit [Bincode] [Crc32c] in
/-- A tailer that does not tail has no reader. -/
theorem reader_of_idle {t : Tailer} (hserve : s.serve = some t)
    (hphase : ∀ session, t.phase ≠ .tailing session) : s.reader = none := by
  unfold State.reader
  rw [hserve, Option.map_some]
  cases hcase : t.phase with
  | tailing session => exact absurd hcase (hphase session)
  | opening => rfl
  | asleep => rfl
  | stopped => rfl

/-- A log with a writer. -/
structure Opened (s : State) (g : Ledger) (w : WalWriter) : Prop where
  layout : Layout s.disk.dir w s.disk.records
  complete : Disk.Complete s.disk.dir w.active.id
  boundary : ∀ p ∈ g.position, AtBoundary s.disk p
  first : s.disk.dir.keys.head? = some 0
  read : ∀ r, s.reader = some r → g.skipped + g.returned.length ≤ (entries s.disk).length
  unread : s.reader = none → g.returned = []

omit [Bincode] in
/-- The committed position and the records skipped fit the log. -/
theorem opened (h : Committed.Inv (s.followed g)) (hwriter : s.disk.writer = some w) :
    Opened s g w := by
  cases h with
  | closed hnone _ _ _ _ _ _ => cases hnone.symm.trans hwriter
  | @opened w' hsome hlayout hcomplete _ hposition hrecovered hskipped hunread hreader =>
      obtain rfl := Option.some.inj (hsome.symm.trans hwriter)
      refine ⟨hlayout, hcomplete, hposition, ?_, fun r hr => ?_, fun hnone => (hunread hnone).1⟩
      · obtain ⟨file, hfile⟩ := hcomplete 0 (Nat.zero_le _)
        obtain ⟨first, -, hfirst, -⟩ := Dir.head?_keys_of_getElem? hfile
        have hle := Dir.head_le_of_mem hfirst (Dir.mem_keys_of_getElem? hfile)
        exact hfirst.trans (congrArg some (Nat.le_zero.mp hle))
      · have hlog : earlier s.disk.records (w'.active.id + 1) = s.disk.log :=
          (Disk.log_of_layout hlayout).symm
        have hlen : (s.disk.log.take g.skipped ++ g.returned).length ≤ s.disk.log.length :=
          hlog ▸ (hreader r hr).returned_isPrefix.length_le
        have hbound : g.skipped ≤ s.disk.log.length := Nat.le_trans hskipped hrecovered
        rw [List.length_append, List.length_take, Nat.min_eq_left hbound] at hlen
        rwa [← List.length_map (f := Prod.snd), map_snd_entries]

/-- The log grows, and the tailer stands as before. -/
theorem Standing.grow {t : Tailer} {disk : Disk}
    (h : Standing config tokenIds s.disk s.inventory g t) (hserve : s.serve = some t)
    (hopened : Opened s g w) (hentries : entries s.disk <+: entries disk)
    (hbefore : ∀ p, AtBoundary s.disk p →
      recordsBefore disk.records p = recordsBefore s.disk.records p) :
    Standing config tokenIds disk s.inventory g t := by
  have htake : ∀ n, n ≤ (entries s.disk).length →
      (entries disk).take n = (entries s.disk).take n := by
    obtain ⟨more, hmore⟩ := hentries
    intro n hn
    rw [← hmore, List.take_append_of_le_length hn]
  cases h with
  | stopped hphase => exact .stopped hphase
  | @waiting p hphase hbased hlive =>
      have hboundary := hopened.boundary p hbased.position
      have hle : recordsBefore s.disk.records p ≤ (entries s.disk).length := by
        rw [← List.length_map (f := Prod.snd), map_snd_entries]
        exact hboundary.recordsBefore_le hopened.layout
      refine .waiting hphase hbased ?_
      rw [hlive, hbefore p hboundary, htake _ hle]
  | @tailing p session hphase hbased houtcome hlists hskipped hlive =>
      have hboundary := hopened.boundary p hbased.position
      refine .tailing hphase hbased houtcome hlists (hskipped.trans (hbefore p hboundary).symm) ?_
      rw [hlive, htake _ (hopened.read _ (reader_of_tailing hserve hphase))]

omit [Bincode] in
/-- Nothing is followed any more. -/
theorem followed_none (h : Committed.Inv (s.followed g)) {s' : State} (hdisk : s'.disk = s.disk)
    (hreader : s'.reader = none) : Committed.Inv (s'.followed ⟨none, g.recovered, 0, []⟩) := by
  unfold State.followed
  rw [hdisk, hreader]
  cases h with
  | closed hwriter hdisk hcomplete _ _ _ _ =>
      exact .closed hwriter hdisk hcomplete (fun _ hp => nomatch hp) rfl rfl rfl
  | opened hwriter hlayout hcomplete hdurable _ hrecovered _ _ _ =>
      exact .opened hwriter hlayout hcomplete hdurable (fun _ hp => nomatch hp) hrecovered
        (Nat.zero_le _) (fun _ => ⟨rfl, fun _ hp => nomatch hp⟩) fun _ hr => nomatch hr

/-! ## The steps of the writer -/

omit [Bincode] in
/-- Only a crash closes the log. -/
theorem writer_step (config : WalConfig) {d : Disk} (hwriter : d.writer = some w) {e : DiskEvent}
    (he : ∀ kept, e ≠ .crash kept) : (d.step config e).writer.isSome = true := by
  cases e with
  | openWriter =>
      rw [Disk.step_openWriter_of_some config hwriter, hwriter]
      rfl
  | append payload =>
      rw [Disk.step_append config hwriter]
      obtain ⟨-, happend⟩ | happend := Disk.append_cases d w payload.bytes
      · rw [happend]
        rfl
      · rw [happend]
        rfl
  | spill k =>
      rw [Disk.step_spill config hwriter]
      rfl
  | flush =>
      rw [Disk.step_flush config hwriter, Disk.step_spill config hwriter]
      rfl
  | sync =>
      rw [Disk.step_sync config hwriter, Disk.step_spill config hwriter]
      rfl
  | crash kept => exact absurd rfl (he kept)

omit [Bincode] in
/-- The reader loses nothing when the log grows under it. -/
theorem followed_grow (h : Committed.Inv (s.followed g)) (hwriter : s.disk.writer = some w)
    {e : DiskEvent} (he : ∀ kept, e ≠ .crash kept)
    (hkeeps : ∀ payload, e = .append payload → s.KeepsUp payload.bytes) :
    Committed.Inv (({ s with disk := s.disk.step config e } : State).followed g) := by
  have hstep : Committed.step config (s.followed g) (.disk e) =
      ({ s with disk := s.disk.step config e } : State).followed g := by
    cases e with
    | crash kept => exact absurd rfl (he kept)
    | openWriter => simp only [Committed.step, State.followed, hwriter]; rfl
    | append payload => simp only [Committed.step, State.followed, hwriter]; rfl
    | spill k => simp only [Committed.step, State.followed, hwriter]; rfl
    | flush => simp only [Committed.step, State.followed, hwriter]; rfl
    | sync => simp only [Committed.step, State.followed, hwriter]; rfl
  rw [← hstep]
  cases e with
  | crash kept => exact absurd rfl (he kept)
  | openWriter => exact h.openWriter config
  | append payload => exact h.append config payload (hkeeps payload rfl)
  | spill k => exact h.spill config k
  | flush => exact h.flush config
  | sync => exact h.sync config

/-- A crash of the host leaves neither a writer nor a tailer. -/
theorem Inv.crash (h : Inv config tokenIds s g) (hwriter : s.disk.writer = some w) (kept : Nat)
    (hencoded : Encoded config (s.disk.step config (.crash kept))) :
    ∃ g', Inv config tokenIds
      { s with disk := s.disk.step config (.crash kept), serve := none } g' := by
  let g' : Ledger := ⟨none, g.recovered, 0, []⟩
  have hnothing : Committed.Inv (({ s with serve := none } : State).followed g') :=
    followed_none h.followed rfl rfl
  have hstep : Committed.step config (({ s with serve := none } : State).followed g')
      (.disk (.crash kept)) =
        ({ s with disk := s.disk.step config (.crash kept), serve := none } : State).followed
          g' := by
    simp only [Committed.step, State.followed, hwriter]
    rfl
  have hfollowed := hnothing.crash config kept (by
    intro w _ p hp
    cases hp)
  refine ⟨g', hstep ▸ hfollowed, hencoded, fun _ => rfl, fun t ht => ?_⟩
  cases ht

/-- What happens to the disk keeps the invariant. -/
theorem Inv.disk (h : Inv config tokenIds s g) {e : DiskEvent}
    (hallowed : Allowed config tokenIds s (.disk e)) :
    ∃ g', Inv config tokenIds (step config commitIntervalMs tokenIds s (.disk e)) g' := by
  have hencoded : Encoded config (s.disk.step config e) := by
    refine h.encoded.step (fun w hw => (opened h.followed hw).layout) ?_
    rintro payload rfl
    exact ⟨hallowed.1, hallowed.2.1⟩
  cases hwriter : s.disk.writer with
  | none =>
      have hserve := h.alone hwriter
      have hstep : step config commitIntervalMs tokenIds s (.disk e) =
          { s with disk := s.disk.step config e } := by
        simp only [step, hwriter]
      rw [hstep]
      by_cases he : e = .openWriter
      · subst he
        let g' : Ledger := { g with recovered := (s.disk.step config .openWriter).log.length }
        have hstep' : Committed.step config (s.followed g) (.disk .openWriter) =
            ({ s with disk := s.disk.step config .openWriter } : State).followed g' := by
          simp only [Committed.step, State.followed, hwriter]
          rfl
        refine ⟨g', hstep' ▸ h.followed.openWriter config, hencoded, fun _ => hserve,
          fun t ht => ?_⟩
        cases hserve.symm.trans ht
      · rw [Disk.step_of_closed config hwriter he]
        exact ⟨g, h⟩
  | some w =>
      have hopened := opened h.followed hwriter
      by_cases hcrash : ∃ kept, e = .crash kept
      · obtain ⟨kept, rfl⟩ := hcrash
        simp only [step, hwriter]
        exact h.crash hwriter kept hencoded
      · have he : ∀ kept, e ≠ .crash kept := fun kept hkept => hcrash ⟨kept, hkept⟩
        have hstep : step config commitIntervalMs tokenIds s (.disk e) =
            { s with disk := s.disk.step config e } := by
          cases e with
          | crash kept => exact absurd rfl (he kept)
          | openWriter => simp only [step, hwriter]
          | append payload => simp only [step, hwriter]
          | spill k => simp only [step, hwriter]
          | flush => simp only [step, hwriter]
          | sync => simp only [step, hwriter]
        have hkeeps : ∀ payload, e = .append payload → s.KeepsUp payload.bytes := by
          rintro payload rfl
          exact hallowed.2.2
        obtain ⟨hentries, hbefore⟩ := entries_step config hwriter hopened.layout he
        rw [hstep]
        refine ⟨g, followed_grow h.followed hwriter he hkeeps, hencoded, fun hnone => ?_,
          fun t ht => ?_⟩
        · have hsome := writer_step config hwriter he
          rw [show (s.disk.step config e).writer = none from hnone] at hsome
          cases hsome
        · exact (h.standing t ht).grow ht hopened hentries hbefore

/-! ## A start -/

/-- Starting the server keeps the invariant. -/
theorem Inv.start (h : Inv config tokenIds s g) {inventory : CheckpointInventory}
    (hallowed : Allowed config tokenIds s (.start inventory)) :
    ∃ g', Inv config tokenIds (step config commitIntervalMs tokenIds s (.start inventory)) g' := by
  obtain ⟨hwriter, hcut⟩ := hallowed
  obtain ⟨w, hwriter⟩ := Option.isSome_iff_exists.mp hwriter
  have hopened := opened h.followed hwriter
  obtain ⟨hboundary, hintact⟩ := scan_of_layout hopened.layout hopened.complete
  obtain ⟨hframes, hfinish⟩ := frames_of_layout hopened.layout
  have hdecodes : Decodes (intact (WalDirectory.mk s.disk.dir none).frames) := by
    rw [hframes, hintact]
    exact fun x hx => h.encoded.entries x (List.mem_of_mem_take hx)
  obtain ⟨hlive, hstart⟩ := hydrateFrom_model config tokenIds inventory s.disk.dir hdecodes
  rw [hframes, hintact] at hlive
  rw [hfinish] at hstart
  refine ⟨⟨some s.disk.dir.scanEnd, s.disk.log.length, 0, []⟩, ?_, h.encoded,
    fun hnone => ?_, fun t ht => ?_⟩
  · have hfollowed := h.followed
    cases hfollowed with
    | closed hnone _ _ _ _ _ _ => cases hnone.symm.trans hwriter
    | opened hsome hlayout hcomplete hdurable _ _ _ _ _ =>
        refine .opened hsome hlayout hcomplete hdurable (fun p hp => ?_) (Nat.le_refl _)
          (Nat.zero_le _) (fun _ => ⟨rfl, fun p hp => ?_⟩) fun r hr => nomatch hr
        · obtain rfl := Option.some.inj hp
          exact hboundary
        · obtain rfl := Option.some.inj hp
          exact hboundary.recordsBefore_le hopened.layout
  · cases (show s.disk.writer = none from hnone).symm.trans hwriter
  · obtain rfl := Option.some.inj ht
    exact .waiting (Or.inl rfl) ⟨rfl, hstart, hcut⟩ hlive

/-! ## The steps of the tailer -/

omit [Bincode] in
/-- The name of a reader does not matter to what it reads. -/
theorem followed_named {c : Committed.State} {r : WalReader}
    (h : Committed.Inv { c with reader := some r }) (name : String) :
    Committed.Inv { c with reader := some { r with consumerName := name } } := by
  cases h with
  | closed _ _ _ _ hreader _ _ => cases hreader
  | opened hwriter hlayout hcomplete hdurable hposition hrecovered hskipped _ hreader =>
      refine .opened hwriter hlayout hcomplete hdurable hposition hrecovered hskipped
        (fun hnone => nomatch hnone) fun r' hr' => ?_
      obtain rfl := Option.some.inj hr'
      cases hreader r rfl with
      | waiting hdata hid hoffset hreturned => exact .waiting hdata hid hoffset hreturned
      | reading done rest hdata hid hcached hwhole hfit hoffset hreturned =>
          exact .reading done rest hdata hid hcached hwhole hfit hoffset hreturned

omit [Bincode] [Crc32c] in
/-- The consumer's name decides nothing but the file it commits to. -/
theorem openAt_named (name name' : String) (p : WalPosition) (dir : Dir) :
    { WalReader.openAt name p dir with consumerName := name' } = WalReader.openAt name' p dir := by
  cases hfile : dir[p.segmentId]? with
  | none => rw [WalReader.openAt_of_none _ _ hfile, WalReader.openAt_of_none _ _ hfile]
  | some file => rw [WalReader.openAt_of_some _ _ hfile, WalReader.openAt_of_some _ _ hfile]

omit [Bincode] [Crc32c] in
/-- A reader that is opened lists segment 0. -/
theorem listsFirst_openAt (name : String) (p : WalPosition) {dir : Dir}
    (hdir : dir.keys.head? = some 0) : ListsFirst (WalReader.openAt name p dir) := by
  cases hfile : dir[p.segmentId]? with
  | none =>
      rw [WalReader.openAt_of_none _ _ hfile]
      exact hdir
  | some file =>
      rw [WalReader.openAt_of_some _ _ hfile]
      exact hdir

/-- While the server runs, the writer does. -/
theorem Inv.exists_writer (h : Inv config tokenIds s g) {t : Tailer} (hserve : s.serve = some t) :
    ∃ w, s.disk.writer = some w := by
  cases hwriter : s.disk.writer with
  | none => cases (h.alone hwriter).symm.trans hserve
  | some w => exact ⟨w, rfl⟩

/-- The tailer stops. -/
theorem Inv.stopped (h : Inv config tokenIds s g) {t : Tailer} (hserve : s.serve.isSome = true)
    (hphase : t.phase = .stopped) : ∃ g', Inv config tokenIds { s with serve := some t } g' := by
  refine ⟨⟨none, g.recovered, 0, []⟩, followed_none h.followed rfl ?_, h.encoded,
    fun hnone => ?_, fun t' ht' => ?_⟩
  · exact reader_of_idle rfl fun session hsession => by cases hphase.symm.trans hsession
  · rw [h.alone hnone] at hserve
    cases hserve
  · obtain rfl := Option.some.inj ht'
    exact .stopped hphase

/-- The tailer goes on with the same reader, or without one as before. -/
theorem Inv.of_standing (h : Inv config tokenIds s g) {t t' : Tailer}
    (hserve : s.serve = some t) (hreader : State.reader { s with serve := some t' } = s.reader)
    (hstanding : Standing config tokenIds s.disk s.inventory g t') :
    Inv config tokenIds { s with serve := some t' } g := by
  refine ⟨?_, h.encoded, fun hnone => ?_, fun t'' ht'' => ?_⟩
  · have hfollowed := h.followed
    unfold State.followed at hfollowed ⊢
    rwa [hreader]
  · cases (h.alone hnone).symm.trans hserve
  · obtain rfl := Option.some.inj ht''
    exact hstanding

/-- Opening the reader keeps the invariant. -/
theorem Inv.openReader (h : Inv config tokenIds s g) {t : Tailer} (hserve : s.serve = some t)
    (hphase : t.phase = .opening) (failed : Bool) (positionFile : Option String) (nowMs : Nat) :
    ∃ g', Inv config tokenIds { s with
      serve := some (t.openReader s.disk.dir failed positionFile nowMs) } g' := by
  have hsome : s.serve.isSome = true := by rw [hserve]; rfl
  have hnone : s.reader = none :=
    reader_of_idle hserve fun session hsession => by cases hphase.symm.trans hsession
  cases h.standing t hserve with
  | stopped hstopped => cases hphase.symm.trans hstopped
  | tailing htailing _ _ _ _ _ => cases hphase.symm.trans htailing
  | @waiting p _ hbased hlive =>
      unfold Tailer.openReader
      split_ifs
      · exact h.stopped hsome rfl
      · refine ⟨g, h.of_standing hserve hnone.symm (.waiting (Or.inr rfl) ?_ hlive)⟩
        exact hbased.of_same rfl rfl
      · obtain ⟨w, hwriter⟩ := h.exists_writer hserve
        have hopened := opened h.followed hwriter
        have hfollowed := h.followed.openReader config
        have hstep : Committed.step config (s.followed g) .openReader = { s.followed g with
            reader := some (WalReader.openAt "tail" p s.disk.dir)
            skipped := recordsBefore s.disk.records p } := by
          simp only [Committed.step, State.followed, hwriter, hnone, hbased.position,
            Option.getD_some, Option.map_some]
        rw [hstep] at hfollowed
        have hnamed := followed_named
          (c := { s.followed g with skipped := recordsBefore s.disk.records p }) hfollowed
          "serve-live"
        rw [openAt_named] at hnamed
        have hreturned := hopened.unread hnone
        refine ⟨{ g with skipped := recordsBefore s.disk.records p }, ?_, h.encoded,
          fun hclosed => ?_, fun t' ht' => ?_⟩
        · rw [hbased.start]
          exact hnamed
        · cases hclosed.symm.trans hwriter
        · obtain rfl := Option.some.inj ht'
          rw [hbased.start]
          refine .tailing rfl ⟨hbased.position, rfl, hbased.cut⟩ rfl
            (listsFirst_openAt _ p hopened.first) rfl ?_
          dsimp only
          rw [hreturned]
          exact hlive

/-! ## A turn of the session -/

/-- Neither the token nor the projector ends the session in this turn. -/
def goesOn (cancelled : Bool) (turn : Turn) : Bool :=
  !cancelled && !turn.cancelled && turn.accepted

/-- What a turn of the session does when nothing fails but the projector. -/
inductive TurnEnds (dir : Dir) (session : Session) (goesOn : Bool) : Session → Prop
  | ended {next : Session} (houtcome : next.outcome = some .shutdown ∨
      next.outcome = some .projectorDead) (hends : goesOn = false) :
      TurnEnds dir session goesOn next
  | took {next : Session} {payload : Bytes} {reader : WalReader} {record : PersistedRecord}
      (hread : session.reader.next dir = (.ok (some payload), reader))
      (hdecode : Codec.decode payload = .ok record) (hreader : next.reader = reader)
      (houtcome : next.outcome = none) (htaken : takenSince session next = [record]) :
      TurnEnds dir session goesOn next
  | skipped {next : Session} {payload : Bytes} {reader : WalReader} {e : WalError}
      (hread : session.reader.next dir = (.ok (some payload), reader))
      (hdecode : Codec.decode payload = .error e) : TurnEnds dir session goesOn next
  | idle {next : Session} {reader : WalReader}
      (hread : session.reader.next dir = (.ok none, reader)) (hreader : next.reader = reader)
      (houtcome : next.outcome = none) (htaken : takenSince session next = []) :
      TurnEnds dir session goesOn next
  | failed {next : Session} {e : WalError} (hread : (session.reader.next dir).1 = .error e) :
      TurnEnds dir session goesOn next

omit [Bincode] [Crc32c] in
/-- A commit does not end the session. -/
theorem outcome_commitWhenDue (session : Session) (t : Turn) :
    (session.commitWhenDue commitIntervalMs t).outcome = session.outcome := by
  unfold TailSession.Session.commitWhenDue
  split
  · cases t.written <;> rfl
  · rfl

/-- What a turn of a session that needs no new hydration ends with. -/
theorem turn_ends {session : Session} (houtcome : session.outcome = none)
    (hresync : session.reader.needsResync = false) (cancelled : Bool) (dir : Dir) (turn : Turn) :
    TurnEnds dir session (goesOn cancelled turn) (TailSession.step commitIntervalMs session
      { turn with shutdown := cancelled, dir := dir, failure := none }) := by
  unfold TailSession.step
  rw [houtcome]
  dsimp only
  unfold TailSession.Session.turn TailSession.Turn.read
  dsimp only
  rw [hresync]
  cases cancelled with
  | true => exact .ended (Or.inl rfl) rfl
  | false =>
      rw [if_neg Bool.false_ne_true, if_neg Bool.false_ne_true]
      cases hread : session.reader.next dir with
      | mk answer reader =>
          cases answer with
          | error e => exact .failed (congrArg Prod.fst hread)
          | ok answer =>
              cases answer with
              | none =>
                  let t : Turn := { turn with shutdown := false, dir := dir, failure := none }
                  obtain ⟨-, hreturned, hreader⟩ := TailSession.commitWhenDue_cases
                    { session with reader := reader } commitIntervalMs t
                  dsimp only
                  unfold TailSession.Session.pause
                  by_cases hcancelled : turn.cancelled = true
                  · rw [if_pos hcancelled]
                    exact .ended (Or.inl rfl) (by simp [goesOn, hcancelled])
                  · rw [if_neg hcancelled]
                    refine .idle hread hreader ((outcome_commitWhenDue _ t).trans houtcome) ?_
                    unfold takenSince
                    rw [hreturned, List.drop_length]
                    rfl
              | some payload =>
                  dsimp only
                  cases hdecode : Codec.decode payload with
                  | error e => exact .skipped hread hdecode
                  | ok record =>
                      dsimp only
                      cases haccepted : turn.accepted with
                      | false => exact .ended (Or.inr rfl) (by simp [goesOn, haccepted])
                      | true =>
                          refine .took hread hdecode rfl houtcome ?_
                          simp [takenSince, TailSession.Session.receive, hdecode, Except.toOption]

omit [Bincode] in
/-- The record that the reader returns is the next entry of the log. -/
theorem next_entry {payload : Bytes} {reader : WalReader}
    (hfollowed : Committed.Inv { s.followed g with
      reader := some reader, returned := g.returned ++ [payload] }) :
    ∃ x, (entries s.disk)[g.skipped + g.returned.length]? = some x ∧ x.2 = payload := by
  have hwhole : g.returned ++ [payload] <+: s.disk.log.drop g.skipped :=
    (hfollowed.returned_isPrefix rfl).2
  obtain ⟨more, hmore⟩ := hwhole
  have hget : s.disk.log[g.skipped + g.returned.length]? = some payload := by
    rw [← List.getElem?_drop, ← hmore, List.append_assoc,
      List.getElem?_append_right (Nat.le_refl _), Nat.sub_self]
    rfl
  rw [← map_snd_entries, List.getElem?_map] at hget
  exact Option.map_eq_some_iff.mp hget

/-- How many records lie before the reader. -/
def Ledger.count (g : Ledger) : Nat := g.skipped + g.returned.length

/-- The tailer goes on after a turn, with one record more or with none left. -/
structure Advanced (s : State) (g g' : Ledger) (t : Tailer) : Prop where
  tailing : ∃ session, t.phase = .tailing session
  running : t.cancelled = false
  count : g'.count = g.count + 1 ∨
    g'.count = g.count ∧ (s.flushed = true → s.disk.log.length ≤ g.count)

omit [Bincode] in
/-- A reader that has answered `None` after a flush has returned the whole log. -/
theorem length_le_of_caughtUp {reader : WalReader} (hreader : s.reader = some reader)
    (hanswer : s.flushed = true → g.returned = s.disk.log.drop g.skipped) (hopened : Opened s g w)
    (hflushed : s.flushed = true) : s.disk.log.length ≤ g.count := by
  have hread := hopened.read reader hreader
  have hlen := congrArg List.length (hanswer hflushed)
  rw [List.length_drop] at hlen
  unfold Ledger.count
  omega

/-- Applying the next record makes the model that a restart makes of one entry more. -/
theorem Inv.model_concat (h : Inv config tokenIds s g) {t : Tailer} {p : WalPosition}
    (hopened : Opened s g w) (hbased : Based config tokenIds s.inventory g t p)
    (hskipped : g.skipped = recordsBefore s.disk.records p) {x : WalPosition × Bytes}
    (hx : (entries s.disk)[g.skipped + g.returned.length]? = some x) {record : PersistedRecord}
    (hdecode : Codec.decode x.2 = .ok record) (hlive : t.live = hydratedFrom config tokenIds
      s.inventory ((entries s.disk).take (g.skipped + g.returned.length))) :
    t.live.applyRecords [record] = hydratedFrom config tokenIds s.inventory
      ((entries s.disk).take (g.skipped + g.returned.length + 1)) := by
  have hpast : ∀ (asset : AssetId) cut, (cuts tokenIds s.inventory)[asset]? = some cut →
      cut < x.1.globalOffset config := by
    intro asset cut hcut
    have hmem : x ∈ (entries s.disk).drop (recordsBefore s.disk.records p) := by
      refine List.mem_of_getElem? (i := g.returned.length) ?_
      rw [List.getElem?_drop, ← hskipped]
      exact hx
    exact (hbased.cut asset cut hcut).trans_lt
      (past_of_boundary (hopened.boundary p hbased.position) (h.encoded.fits _) hmem)
  have hdecodes : Decodes ((entries s.disk).take (g.skipped + g.returned.length)) :=
    fun y hy => h.encoded.entries y (List.mem_of_mem_take hy)
  rw [List.take_add_one, hx, Option.toList_some,
    hydratedFrom_concat config tokenIds hdecodes hdecode hpast, hlive]

/-- A turn of the session keeps the invariant. -/
theorem Inv.turn (h : Inv config tokenIds s g) {t : Tailer} (hserve : s.serve = some t)
    {session : Session} (hphase : t.phase = .tailing session) (turn : Turn)
    (inventory : CheckpointInventory) :
    let t' := t.turn config commitIntervalMs tokenIds session s.disk.dir turn inventory
    ∃ g', Inv config tokenIds { s with serve := some t' } g' ∧
      (goesOn t.cancelled turn = true → Advanced s g g' t') := by
  have hsome : s.serve.isSome = true := by rw [hserve]; rfl
  obtain ⟨w, hwriter⟩ := h.exists_writer hserve
  have hopened := opened h.followed hwriter
  cases h.standing t hserve with
  | stopped hstopped => cases hphase.symm.trans hstopped
  | waiting hwaiting _ _ =>
      rcases hwaiting with hwaiting | hwaiting <;> cases hphase.symm.trans hwaiting
  | @tailing p session' hphase' hbased houtcome hlists hskipped hlive =>
      obtain rfl : session' = session := Phase.tailing.inj (hphase'.symm.trans hphase)
      have hreader := reader_of_tailing hserve hphase
      obtain ⟨hanswered, hanswer⟩ := h.followed.next hreader
      change Committed.Inv ((s.followed g).answered (session'.reader.next s.disk.dir)) at hanswered
      have hends : TurnEnds s.disk.dir session' (goesOn t.cancelled turn)
          (TailSession.step commitIntervalMs session'
            { turn with shutdown := t.cancelled, dir := s.disk.dir, failure := none }) :=
        turn_ends houtcome hlists.needsResync _ _ turn
      have hnext := hlists.next hopened.first
      have hrunning : goesOn t.cancelled turn = true → (t.cancelled || turn.cancelled) = false := by
        unfold goesOn
        cases t.cancelled <;> cases turn.cancelled <;> simp
      unfold Tailer.turn
      dsimp only
      generalize TailSession.step commitIntervalMs session'
        { turn with shutdown := t.cancelled, dir := s.disk.dir, failure := none } = next at hends
      cases hends with
      | ended houtcome hnotgoing =>
          have hnot : ∀ g' t', goesOn t.cancelled turn = true → Advanced s g g' t' :=
            fun _ _ hgoes => absurd (hgoes.symm.trans hnotgoing) nofun
          rcases houtcome with houtcome | houtcome
          · rw [houtcome]
            exact (h.stopped hsome rfl).imp fun g' hg' => ⟨hg', hnot g' _⟩
          · rw [houtcome]
            exact (h.stopped hsome rfl).imp fun g' hg' => ⟨hg', hnot g' _⟩
      | failed hread =>
          rcases hanswer with ⟨payload, hpayload⟩ | ⟨hnone, -⟩
          · cases hpayload.symm.trans hread
          · cases hnone.symm.trans hread
      | @skipped payload reader e hread hdecode =>
          rw [hread] at hanswered
          obtain ⟨x, hx, rfl⟩ := next_entry hanswered
          have hok := h.encoded.entries x (List.mem_of_getElem? hx)
          rw [hdecode] at hok
          cases hok
      | @idle reader hread hsame hrun htaken =>
          rw [hread] at hanswered hnext
          rw [hrun, htaken]
          have hcaught : s.flushed = true → g.returned = s.disk.log.drop g.skipped := by
            rcases hanswer with ⟨payload, hpayload⟩ | ⟨-, hall⟩
            · cases hpayload.symm.trans (congrArg Prod.fst hread)
            · exact hall
          refine ⟨g, ⟨?_, h.encoded, fun hnone => ?_, fun t' ht' => ?_⟩, fun hgoes =>
            ⟨⟨next, rfl⟩, hrunning hgoes,
              Or.inr ⟨rfl, length_le_of_caughtUp hreader hcaught hopened⟩⟩⟩
          · rw [← hsame] at hanswered
            exact hanswered
          · cases hnone.symm.trans hwriter
          · obtain rfl := Option.some.inj ht'
            exact .tailing rfl (hbased.of_same rfl rfl) hrun (hsame ▸ hnext) hskipped
              hlive
      | @took payload reader record hread hdecode hsame hrun htaken =>
          rw [hread] at hanswered hnext
          rw [hrun, htaken]
          obtain ⟨x, hx, rfl⟩ := next_entry hanswered
          refine ⟨{ g with returned := g.returned ++ [x.2] }, ⟨?_, h.encoded, fun hnone => ?_,
            fun t' ht' => ?_⟩, fun hgoes => ⟨⟨next, rfl⟩, hrunning hgoes, Or.inl ?_⟩⟩
          · rw [← hsame] at hanswered
            exact hanswered
          · cases hnone.symm.trans hwriter
          · obtain rfl := Option.some.inj ht'
            refine .tailing rfl (hbased.of_same rfl rfl) hrun (hsame ▸ hnext) hskipped ?_
            dsimp only
            rw [List.length_append, List.length_singleton, ← Nat.add_assoc]
            exact h.model_concat hopened hbased hskipped hx hdecode hlive
          · unfold Ledger.count
            dsimp only
            rw [List.length_append, List.length_singleton, Nat.add_assoc]

/-! ## Runs -/

/-- Every event of the server keeps the invariant. -/
theorem Inv.serve (h : Inv config tokenIds s g) (e : TailerEvent) :
    ∃ g', Inv config tokenIds (step config commitIntervalMs tokenIds s (.serve e)) g' := by
  cases hserve : s.serve with
  | none =>
      have hsame : step config commitIntervalMs tokenIds s (.serve e) = s := by
        cases s
        simp_all [step]
      rw [hsame]
      exact ⟨g, h⟩
  | some t =>
      have hstep : step config commitIntervalMs tokenIds s (.serve e) =
          { s with serve := some (t.step config commitIntervalMs tokenIds s.disk.dir e) } := by
        simp only [step, hserve, Option.map_some]
      have hsame : ∃ g', Inv config tokenIds { s with serve := some t } g' := by
        rw [← hserve]
        exact ⟨g, h⟩
      have hsome : s.serve.isSome = true := by rw [hserve]; rfl
      rw [hstep]
      cases e with
      | cancel =>
          refine ⟨g, h.of_standing hserve ?_ ?_⟩
          · simp only [State.reader, hserve, Tailer.step, Option.map_some]
          · cases h.standing t hserve with
            | stopped hphase => exact .stopped hphase
            | waiting hphase hbased hlive =>
                exact .waiting hphase (hbased.of_same rfl rfl) hlive
            | tailing hphase hbased houtcome hlists hskipped hlive =>
                exact .tailing hphase (hbased.of_same rfl rfl) houtcome hlists hskipped
                  hlive
      | openReader failed positionFile nowMs =>
          unfold Tailer.step
          dsimp only
          split
          · rename_i hphase
            exact h.openReader hserve hphase failed positionFile nowMs
          · exact hsame
      | wake =>
          unfold Tailer.step
          dsimp only
          split
          · rename_i hphase
            split_ifs
            · exact h.stopped hsome rfl
            · refine ⟨g, h.of_standing hserve ?_ ?_⟩
              · simp only [State.reader, hserve, hphase, Option.map_some]
              · cases h.standing t hserve with
                | stopped hstopped => cases hphase.symm.trans hstopped
                | tailing htailing _ _ _ _ _ => cases hphase.symm.trans htailing
                | waiting _ hbased hlive =>
                    exact .waiting (Or.inl rfl) (hbased.of_same rfl rfl) hlive
          · exact hsame
      | turn turn inventory =>
          unfold Tailer.step
          dsimp only
          split
          · rename_i session hphase
            obtain ⟨g', hg', -⟩ := h.turn hserve hphase turn inventory
            exact ⟨g', hg'⟩
          · exact hsame

/-- In every allowed run the invariant holds at the end. -/
theorem Inv.run {events : List Event}
    (hallowed : Runs.Meets (step config commitIntervalMs tokenIds) (Allowed config tokenIds) .init
      events) :
    ∃ g, Inv config tokenIds (Runs.run (step config commitIntervalMs tokenIds) .init events) g := by
  have hstep : ∀ s e, (∃ g, Inv config tokenIds s g) → Allowed config tokenIds s e →
      ∃ g, Inv config tokenIds (step config commitIntervalMs tokenIds s e) g := by
    rintro s e ⟨g, h⟩ hallowed
    cases e with
    | disk e => exact h.disk hallowed
    | start inventory => exact h.start hallowed
    | serve e => exact h.serve e
  have hinit : ∃ g, Inv config tokenIds .init g := by
    refine ⟨⟨none, 0, 0, []⟩, Committed.Inv.init, ⟨fun _ _ hr => (nomatch hr), fun _ => ?_,
      fun _ hw => nomatch hw⟩, fun _ => rfl, fun _ ht => nomatch ht⟩
    exact Nat.zero_le _
  exact Runs.Meets.induction hstep hinit hallowed

/-- What a serve process that is started now would hydrate. -/
theorem Inv.restarted_eq (h : Inv config tokenIds s g) (hwriter : s.disk.writer = some w)
    (hflushed : s.flushed = true) :
    s.restarted config tokenIds = hydratedFrom config tokenIds s.inventory (entries s.disk) := by
  have hopened := opened h.followed hwriter
  have hbuffer : w.active.buffer = [] := by
    simpa [State.flushed, hwriter] using hflushed
  obtain ⟨hframes, -⟩ := frames_of_layout hopened.layout
  have hintact : intact (WalDirectory.mk s.disk.dir none).frames = entries s.disk := by
    rw [hframes, OffsetOrder.scan_of_flushed hopened.layout hopened.complete hbuffer,
      entries_of_layout hopened.layout, intact, List.filterMap_map]
    exact List.filterMap_some
  obtain ⟨hlive, -⟩ := hydrateFrom_model config tokenIds s.inventory s.disk.dir
    (hintact ▸ h.encoded.entries)
  rw [hintact] at hlive
  exact hlive

/-- A model that has all records is the one that a restart would hydrate. -/
theorem Inv.live_eq (h : Inv config tokenIds s g) {t : Tailer} (hserve : s.serve = some t)
    {session : Session} (hphase : t.phase = .tailing session) (hflushed : s.flushed = true)
    (hcount : s.disk.log.length ≤ g.count) : t.live = s.restarted config tokenIds := by
  obtain ⟨w, hwriter⟩ := h.exists_writer hserve
  rw [h.restarted_eq hwriter hflushed]
  cases h.standing t hserve with
  | stopped hstopped => cases hphase.symm.trans hstopped
  | waiting hwaiting _ _ =>
      rcases hwaiting with hwaiting | hwaiting <;> cases hphase.symm.trans hwaiting
  | tailing _ _ _ _ _ hlive =>
      rw [← map_snd_entries, List.length_map] at hcount
      rw [hlive]
      exact congrArg _ (List.take_of_length_le hcount)

/-- A number of turns, in which the tailer goes on. -/
theorem Inv.turns (h : Inv config tokenIds s g) {t : Tailer} (hserve : s.serve = some t)
    {session : Session} (hphase : t.phase = .tailing session) (hrunning : t.cancelled = false)
    {turn : Turn} (hturn : goesOn false turn = true) (inventory : CheckpointInventory)
    (hflushed : s.flushed = true) {n : Nat} (hcount : s.disk.log.length ≤ g.count + n) :
    ∃ t', (Runs.run (step config commitIntervalMs tokenIds) s
      (List.replicate n (.serve (.turn turn inventory)))).serve = some t' ∧
        t'.live = s.restarted config tokenIds := by
  induction n generalizing s g t session with
  | zero => exact ⟨t, hserve, h.live_eq hserve hphase hflushed hcount⟩
  | succ n ih =>
      let next := t.turn config commitIntervalMs tokenIds session s.disk.dir turn inventory
      obtain ⟨g', h', hadvanced⟩ : ∃ g', Inv config tokenIds { s with serve := some next } g' ∧
          (goesOn t.cancelled turn = true → Advanced s g g' next) :=
        h.turn hserve hphase turn inventory
      rw [hrunning] at hadvanced
      obtain ⟨⟨session', hphase'⟩, hrunning', hcount'⟩ := hadvanced hturn
      have hstep : step config commitIntervalMs tokenIds s (.serve (.turn turn inventory)) =
          { s with serve := some next } := by
        simp only [step, hserve, Option.map_some, Tailer.step, hphase, next]
      rw [List.replicate_succ]
      change ∃ t', (Runs.run _ (step config commitIntervalMs tokenIds s _) _).serve = some t' ∧ _
      rw [hstep]
      have hleft : s.disk.log.length ≤ g'.count + n := by
        rcases hcount' with hone | ⟨hsame, hall⟩
        · omega
        · have := hall hflushed
          omega
      exact ih h' rfl hphase' hrunning' hflushed hleft

/-- The tailer serves what a serve process that is started now would serve. -/
structure UpToDate (config : WalConfig) (commitIntervalMs : Nat) (tokenIds : List AssetId)
    (s : State) (t : Tailer) (session : Session) : Prop where
  /-- It does so once it finds nothing more to read. -/
  caughtUp : (session.reader.next s.disk.dir).1 = .ok none → t.live = s.restarted config tokenIds
  /-- It has come to that after as many turns as the log has records. -/
  catchesUp : t.cancelled = false → ∀ turn inventory, goesOn false turn = true →
    ∃ t', (Runs.run (step config commitIntervalMs tokenIds) s
      (List.replicate s.disk.log.length (.serve (.turn turn inventory)))).serve = some t' ∧
        t'.live = s.restarted config tokenIds

/-- **Following the log equals restarting.**  In every run in which what is appended decodes
and fits a segment, no rotation outruns the reader and no cut lies past what was on disk at
the start: whenever the log is flushed, the tailer that has caught up holds the live model
that a serve process started at that moment would hydrate, and it does catch up. -/
theorem following_equals_restarting {events : List Event}
    (hallowed : Runs.Meets (step config commitIntervalMs tokenIds) (Allowed config tokenIds) .init
      events) :
    let s := Runs.run (step config commitIntervalMs tokenIds) .init events
    ∀ t, s.serve = some t → ∀ session, t.phase = .tailing session → s.flushed = true →
      UpToDate config commitIntervalMs tokenIds s t session := by
  intro s t hserve session hphase hflushed
  obtain ⟨g, h⟩ : ∃ g, Inv config tokenIds s g := Inv.run hallowed
  obtain ⟨w, hwriter⟩ := h.exists_writer hserve
  have hopened := opened h.followed hwriter
  have hreader := reader_of_tailing hserve hphase
  refine ⟨fun hnone => ?_, fun hrunning turn inventory hturn => ?_⟩
  · refine h.live_eq hserve hphase hflushed (length_le_of_caughtUp hreader ?_ hopened hflushed)
    rcases (h.followed.next hreader).2 with ⟨payload, hpayload⟩ | ⟨-, hall⟩
    · cases hpayload.symm.trans hnone
    · exact hall
  · exact h.turns hserve hphase hrunning hturn inventory hflushed (Nat.le_add_left _ _)

end

/-! A serve process is started between two records. -/

namespace Started

open DamagedLog (checkpoint config payload)

/-- The record of the sample run is appended. -/
def append : Event := .disk (.append ⟨payload, List.cons_ne_nil _ _⟩)

/-- A turn in which everything succeeds. -/
def turn : Turn := ⟨false, ∅, none, true, 0, true, true, true, false⟩

/-- The sample run: a record before the start and one after it. -/
def events : List Event :=
  [.disk .openWriter, append, .disk .flush, .start (.ok [some checkpoint]),
    .serve (.openReader false none 0), append, .disk .flush, .serve (.turn turn (.ok []))]

/-- The state after a number of the events. -/
def after (n : Nat) : State :=
  Runs.run (@step DamagedLog.bincode castagnoli config 1000 ["7"]) .init (events.take n)

end Started

open Started in
open DamagedLog (config payload checkpoint) in
/-- In the sample run the session is up to date after eight events. -/
theorem following_equals_restarting_started :
    ∃ t session, (after 8).serve = some t ∧ t.phase = .tailing session ∧
      @UpToDate DamagedLog.bincode castagnoli config 1000 ["7"] (after 8) t session := by
  let := DamagedLog.bincode
  have hkeeps : ∀ n, (∀ w ∈ (after n).disk.writer, w.rotates payload = false) →
      (after n).KeepsUp payload := by
    intro n hfits w hw hrotates
    rw [hfits w hw] at hrotates
    cases hrotates
  have hfirst : Allowed config ["7"] (after 1) append :=
    ⟨by decide +kernel, by decide +kernel, hkeeps 1 (by decide +kernel)⟩
  have hsecond : Allowed config ["7"] (after 5) append :=
    ⟨by decide +kernel, by decide +kernel, hkeeps 5 (by decide +kernel)⟩
  have hstart : Allowed config ["7"] (after 3) (.start (.ok [some checkpoint])) := by
    refine ⟨by decide +kernel, fun asset cut hcut => ?_⟩
    change ((∅ : CheckpointOffsets).insert "7" 0)[asset]? = some cut at hcut
    rw [TreeMapLookup.getElem?_insert] at hcut
    split at hcut
    · obtain rfl := Option.some.inj hcut
      exact Nat.zero_le _
    · simp at hcut
  have hallowed : Runs.Meets (step config 1000 ["7"]) (Allowed config ["7"]) .init events :=
    ⟨trivial, hfirst, trivial, hstart, trivial, hsecond, trivial, trivial, trivial⟩
  have hflushed : (after 8).flushed = true := by decide +kernel
  obtain ⟨t, session, hserve, hphase⟩ := tailing_of_reader (s := after 8) (by decide +kernel)
  exact ⟨t, session, hserve, hphase,
    following_equals_restarting hallowed t hserve session hphase hflushed⟩

end ServeRuntime

end PolyBook
