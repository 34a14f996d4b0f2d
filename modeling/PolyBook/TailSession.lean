import PolyBook.Recovery
import PolyBook.Wal.ReaderSafety

/-!
# The session of the tailer

`tail_session` takes records from the log, hands each to the projector and commits the
reader's position when it is idle, after a failed read and when it ends.  It ends at once
when the projector refuses a record, so that no position is committed past it; but the
commit after the loop takes no notice of why the loop ended, and the reader has moved
past the record by then.

The assets that the tailer follows and the metrics are not part of the model.
-/

namespace PolyBook

open Wal

/-- `TailOutcome`. -/
inductive TailOutcome where
  | shutdown
  | resync
  | projectorDead
  deriving DecidableEq, Repr

namespace TailSession

/-- What one turn of the loop meets. -/
structure Turn where
  /-- The token is cancelled at the head of the loop. -/
  shutdown : Bool
  /-- The segment files at the read. -/
  dir : Dir
  /-- A read that fails, and the reader it leaves. -/
  failure : Option (WalError × WalReader)
  /-- What `apply_record` answers. -/
  accepted : Bool
  /-- The clock, in milliseconds. -/
  now : Nat
  /-- Whether a commit reaches the disk: in the loop, and the two after it. -/
  written : Bool
  writtenDirty : Bool
  writtenLast : Bool
  /-- The token is cancelled during the pause. -/
  cancelled : Bool

/-- A payload that `next` has returned, with the reader's position after it. -/
structure Returned where
  position : WalPosition
  payload : Bytes
  accepted : Bool
  deriving DecidableEq

/-- A position that reached the disk, with all that had been returned by then. -/
structure Write where
  position : WalPosition
  returned : List Returned

/-- The variables of `tail_session`, with what `next` has returned and what has been
written to the position file. -/
structure Session where
  reader : WalReader
  lastCommit : Nat
  dirtyPosition : Bool
  returned : List Returned
  writes : List Write
  outcome : Option TailOutcome

/-- A session begins with its reader. -/
def Session.start (reader : WalReader) (now : Nat) : Session := ⟨reader, now, false, [], [], none⟩

namespace Session

/-- `commit_position` of the reader, if it reaches the disk. -/
def commitPosition (s : Session) (written : Bool) : Session :=
  if written then { s with writes := s.writes ++ [⟨s.reader.currentPosition, s.returned⟩] } else s

/-- `commit_reader_position`. -/
def commitReaderPosition (s : Session) (written : Bool) (now : Nat) : Session :=
  let s := s.commitPosition written
  if written then { s with dirtyPosition := false, lastCommit := now } else s

/-- The commit of a turn that took no record. -/
def commitWhenDue (s : Session) (commitInterval : Nat) (t : Turn) : Session :=
  if s.dirtyPosition && commitInterval ≤ t.now - s.lastCommit then
    s.commitReaderPosition t.written t.now
  else s

/-- The pause of such a turn. -/
def pause (s : Session) (t : Turn) : Session × Option TailOutcome :=
  (s, if t.cancelled then some .shutdown else none)

/-- What follows the loop. -/
def finish (s : Session) (t : Turn) (outcome : TailOutcome) : Session :=
  let s := if s.dirtyPosition then s.commitReaderPosition t.writtenDirty t.now else s
  { s.commitPosition t.writtenLast with outcome := some outcome }

/-- `next` has returned a payload. -/
def receive (s : Session) (reader : WalReader) (payload : Bytes) (accepted : Bool) : Session :=
  { s with
    reader := reader
    returned := s.returned ++ [⟨reader.currentPosition, payload, accepted⟩] }

end Session

section

variable [Bincode] [Crc32c]

/-- The read of a turn. -/
def Turn.read (t : Turn) (r : WalReader) : Except WalError (Option Bytes) × WalReader :=
  match t.failure with
  | some (e, left) => (.error e, left)
  | none => r.next t.dir

/-- One turn of the loop: the session after it, and whether it breaks. -/
def Session.turn (s : Session) (commitInterval : Nat) (t : Turn) : Session × Option TailOutcome :=
  if t.shutdown then (s, some .shutdown)
  else if s.reader.needsResync then (s, some .resync)
  else
    match t.read s.reader with
    | (.ok (some payload), reader) =>
        match Codec.decode payload with
        | .ok _ =>
            if t.accepted then
              ({ s.receive reader payload true with dirtyPosition := true }, none)
            else (s.receive reader payload false, some .projectorDead)
        -- loud, but skipped
        | .error _ => (s.receive reader payload false, none)
    | (.ok none, reader) => ({ s with reader := reader }.commitWhenDue commitInterval t).pause t
    | (.error _, reader) => ({ s with reader := reader }.commitWhenDue commitInterval t).pause t

/-- A turn of a session, and what follows the loop if the turn breaks. -/
def step (commitInterval : Nat) (s : Session) (t : Turn) : Session :=
  match s.outcome with
  | some _ => s
  | none =>
      match s.turn commitInterval t with
      | (s', some outcome) => s'.finish t outcome
      | (s', none) => s'

/-- `tail_session`. -/
def tailSession (commitInterval : Nat) (reader : WalReader) (now : Nat) (turns : List Turn) :
    Session :=
  Runs.run (step commitInterval) (.start reader now) turns

/-- Every decodable record before the position was accepted, and one that was not is
still ahead of it. -/
structure Write.Safe (w : Write) : Prop where
  applied : ∀ x ∈ w.returned, ∀ record, Codec.decode x.payload = .ok record →
    x.position.upTo w.position → x.accepted = true
  ahead : ∀ x ∈ w.returned, ∀ record, Codec.decode x.payload = .ok record →
    x.accepted = false → w.position.before x.position = true

/-- The projector accepts the record that a turn takes, or none of the writes that follow
reaches the disk. -/
def Accepts (s : Session) (t : Turn) : Prop :=
  s.outcome = none → t.shutdown = false → s.reader.needsResync = false →
    ∀ payload, (t.read s.reader).1 = .ok (some payload) → (Codec.decode payload).isOk = true →
      t.accepted = true ∨ t.writtenLast = false ∧ (s.dirtyPosition = true → t.writtenDirty = false)

end

/-! ## The commits -/

/-- What the session would write now. -/
def Session.current (s : Session) : Write := ⟨s.reader.currentPosition, s.returned⟩

section

variable {s : Session}

/-- A commit that is written is one more write. -/
theorem commitPosition_cases (s : Session) (written : Bool) :
    (written = true ∧ (s.commitPosition written).writes = s.writes ++ [s.current]) ∨
      written = false ∧ s.commitPosition written = s := by
  cases written with
  | true => exact Or.inl ⟨rfl, rfl⟩
  | false => exact Or.inr ⟨rfl, rfl⟩

/-- A commit in the loop writes the current position, or nothing. -/
theorem commitWhenDue_cases (s : Session) (commitInterval : Nat) (t : Turn) :
    ((s.commitWhenDue commitInterval t).writes = s.writes ∨
      (s.commitWhenDue commitInterval t).writes = s.writes ++ [s.current]) ∧
    (s.commitWhenDue commitInterval t).returned = s.returned ∧
    (s.commitWhenDue commitInterval t).reader = s.reader := by
  unfold Session.commitWhenDue
  split
  · cases t.written with
    | true => exact ⟨Or.inr rfl, rfl, rfl⟩
    | false => exact ⟨Or.inl rfl, rfl, rfl⟩
  · exact ⟨Or.inl rfl, rfl, rfl⟩

/-- What follows the loop writes the current position, as often as a write of it
reaches the disk. -/
theorem mem_writes_finish (s : Session) (t : Turn) (outcome : TailOutcome) (w : Write) :
    w ∈ (s.finish t outcome).writes ↔ w ∈ s.writes ∨
      w = s.current ∧ (t.writtenLast = true ∨ s.dirtyPosition = true ∧ t.writtenDirty = true) := by
  have hlast : ∀ s' : Session, s'.current = s.current →
      (w ∈ (s'.commitPosition t.writtenLast).writes ↔
        w ∈ s'.writes ∨ w = s.current ∧ t.writtenLast = true) := by
    intro s' hcurrent
    obtain ⟨hwritten, hwrites⟩ | ⟨hwritten, hsame⟩ := commitPosition_cases s' t.writtenLast
    · rw [hwrites, List.mem_append, List.mem_singleton, hcurrent, hwritten]
      simp
    · rw [hsame, hwritten]
      simp
  unfold Session.finish
  dsimp only
  cases hdirty : s.dirtyPosition with
  | false =>
      rw [if_neg Bool.false_ne_true, hlast s rfl]
      simp
  | true =>
      rw [if_pos rfl]
      cases hwritten : t.writtenDirty with
      | false =>
          refine (hlast s rfl).trans ?_
          simp
      | true =>
          have hdirtyWrites : (s.commitReaderPosition true t.now).writes =
              s.writes ++ [s.current] := rfl
          rw [hlast (s.commitReaderPosition true t.now) rfl, hdirtyWrites, List.mem_append,
            List.mem_singleton]
          tauto

end

/-! ## One turn -/

section

variable [Bincode]

/-- All that was returned and decodes has been accepted. -/
def AllApplied (returned : List Returned) : Prop :=
  ∀ x ∈ returned, ∀ record, Codec.decode x.payload = .ok record → x.accepted = true

/-- A position behind applied records only is safe. -/
theorem AllApplied.safe {w : Write} (h : AllApplied w.returned) : w.Safe := by
  refine ⟨fun x hx record hdecode _ => h x hx record hdecode, ?_⟩
  intro x hx record hdecode hrefused
  rw [h x hx record hdecode] at hrefused
  cases hrefused

/-- One more record that was applied, or could not be decoded. -/
theorem AllApplied.concat {returned : List Returned} (h : AllApplied returned) {x : Returned}
    (hx : ∀ record, Codec.decode x.payload = .ok record → x.accepted = true) :
    AllApplied (returned ++ [x]) := by
  intro y hy
  rcases List.mem_append.mp hy with hy | hy
  · exact h y hy
  · obtain rfl := List.mem_singleton.mp hy
    exact hx

variable [Crc32c]

/-- What a turn of the loop does. -/
inductive TurnCase (s : Session) (t : Turn) : Session × Option TailOutcome → Prop
  | quiet {s' : Session} {outcome : Option TailOutcome} (hreturned : s'.returned = s.returned)
      (hwrites : s'.writes = s.writes ∨ s'.writes = s.writes ++ [⟨s'.reader.currentPosition,
        s.returned⟩]) : TurnCase s t (s', outcome)
  | taken {s' : Session} {payload : Bytes} {reader : WalReader} {accepted : Bool}
      (hreturned : s'.returned = s.returned ++ [⟨reader.currentPosition, payload, accepted⟩])
      (hwrites : s'.writes = s.writes)
      (happlied : ∀ record, Codec.decode payload = .ok record → accepted = true) :
      TurnCase s t (s', none)
  | refused {payload : Bytes} {reader : WalReader} (hshutdown : t.shutdown = false)
      (hresync : s.reader.needsResync = false)
      (hread : t.read s.reader = (.ok (some payload), reader))
      {record : PersistedRecord} (hdecode : Codec.decode payload = .ok record)
      (haccepted : t.accepted = false) :
      TurnCase s t (s.receive reader payload false, some .projectorDead)

/-- What a turn does. -/
theorem turn_cases (s : Session) (commitInterval : Nat) (t : Turn) :
    TurnCase s t (s.turn commitInterval t) := by
  have hquiet : ∀ reader, TurnCase s t
      (({ s with reader := reader }.commitWhenDue commitInterval t).pause t) := by
    intro reader
    obtain ⟨hwrites, hreturned, hreader⟩ :=
      commitWhenDue_cases { s with reader := reader } commitInterval t
    refine .quiet hreturned ?_
    rw [hreader]
    exact hwrites
  unfold Session.turn
  split
  · exact .quiet rfl (Or.inl rfl)
  · rename_i hshutdown
    split
    · exact .quiet rfl (Or.inl rfl)
    · rename_i hresync
      split
      · rename_i payload reader hread
        split
        · rename_i record hdecode
          split
          · exact .taken rfl rfl fun _ _ => rfl
          · rename_i haccepted
            exact .refused (by simpa using hshutdown) (by simpa using hresync) hread hdecode
              (by simpa using haccepted)
        · rename_i e hdecode
          have hskipped : ∀ record, Codec.decode payload = .ok record → false = true := by
            intro record hok
            rw [hdecode] at hok
            cases hok
          exact .taken rfl rfl hskipped
      · exact hquiet _
      · exact hquiet _

/-- All that a session on its way has returned is applied, and every write is safe. -/
structure Sound (s : Session) : Prop where
  applied : s.outcome = none → AllApplied s.returned
  safe : ∀ w ∈ s.writes, w.Safe

omit [Crc32c] in
/-- A session that begins has committed nothing. -/
theorem sound_start (reader : WalReader) (now : Nat) : Sound (.start reader now) := by
  constructor
  · intro _ x hx
    cases hx
  · intro w hw
    cases hw

omit [Crc32c] in
/-- What leaves all applied writes what is safe. -/
theorem Sound.of_applied {s s' : Session} (hs : Sound s) (happlied : AllApplied s'.returned)
    (hwrites : ∀ w ∈ s'.writes, w ∈ s.writes ∨ w.returned = s'.returned) : Sound s' := by
  refine ⟨fun _ => happlied, fun w hw => ?_⟩
  rcases hwrites w hw with hw | hreturned
  · exact hs.safe w hw
  · exact AllApplied.safe (hreturned ▸ happlied)

omit [Bincode] [Crc32c] in
/-- The end of a session returns no record. -/
theorem finish_returned (s : Session) (t : Turn) (outcome : TailOutcome) :
    (s.finish t outcome).returned = s.returned := by
  unfold Session.finish
  cases s.dirtyPosition <;> cases t.writtenDirty <;> cases t.writtenLast <;> rfl

omit [Bincode] [Crc32c] in
/-- The end of a session is its outcome. -/
theorem finish_outcome (s : Session) (t : Turn) (outcome : TailOutcome) :
    (s.finish t outcome).outcome = some outcome := rfl

/-- What a turn does to a session on its way. -/
theorem step_of_running {s : Session} (commitInterval : Nat) (t : Turn) (hs : s.outcome = none) :
    step commitInterval s t = match s.turn commitInterval t with
      | (s', some outcome) => s'.finish t outcome
      | (s', none) => s' := by
  rw [step, hs]

/-- A session that the projector serves stays sound. -/
theorem Sound.step {s : Session} (hs : Sound s) (commitInterval : Nat) {t : Turn}
    (haccepts : Accepts s t) : Sound (step commitInterval s t) := by
  cases houtcome : s.outcome with
  | some outcome =>
      rw [TailSession.step, houtcome]
      exact hs
  | none =>
      have happlied := hs.applied houtcome
      have hturn := turn_cases s commitInterval t
      rw [step_of_running commitInterval t houtcome]
      generalize s.turn commitInterval t = result at hturn
      cases hturn with
      | @quiet s' outcome hreturned hwrites =>
          have hquiet : ∀ w ∈ s'.writes, w ∈ s.writes ∨ w.returned = s'.returned := by
            intro w hw
            rcases hwrites with hwrites | hwrites
            · exact Or.inl (hwrites ▸ hw)
            · rw [hwrites, List.mem_append, List.mem_singleton] at hw
              rcases hw with hw | rfl
              · exact Or.inl hw
              · exact Or.inr hreturned.symm
          rw [← hreturned] at happlied
          cases outcome with
          | none => exact hs.of_applied happlied hquiet
          | some outcome =>
              refine hs.of_applied (by rwa [finish_returned]) fun w hw => ?_
              rw [finish_returned]
              rcases (mem_writes_finish s' t outcome w).mp hw with hw | ⟨rfl, -⟩
              · exact hquiet w hw
              · exact Or.inr rfl
      | @taken s' payload reader accepted hreturned hwrites haccepted =>
          refine hs.of_applied ?_ fun w hw => Or.inl (hwrites ▸ hw)
          rw [hreturned]
          exact happlied.concat haccepted
      | @refused payload reader hshutdown hresync hread record hdecode hrefused =>
          have hlost := haccepts houtcome hshutdown hresync payload (by rw [hread])
            (by rw [hdecode]; rfl)
          rw [hrefused] at hlost
          rcases hlost with hlost | ⟨hlast, hdirty⟩
          · cases hlost
          · refine ⟨fun hnone => absurd hnone (by simp [finish_outcome]), fun w hw => ?_⟩
            rcases (mem_writes_finish _ t _ w).mp hw with hw | ⟨-, hwritten | hwritten⟩
            · exact hs.safe w hw
            · rw [hlast] at hwritten
              cases hwritten
            · rw [hdirty hwritten.1] at hwritten
              cases hwritten.2

/-- The position is committed past a record that the projector has refused. -/
theorem exists_unsafe {s : Session} (commitInterval : Nat) {t : Turn}
    (hrefuses : ¬ Accepts s t) : ∃ w ∈ (step commitInterval s t).writes, ¬ w.Safe := by
  unfold Accepts at hrefuses
  push Not at hrefuses
  obtain ⟨houtcome, hshutdown, hresync, payload, hread, hdecodes, haccepted, hwritten⟩ := hrefuses
  rw [ne_eq, Bool.not_eq_true] at haccepted
  obtain ⟨record, hdecode⟩ : ∃ record, Codec.decode payload = .ok record := by
    cases hdecode : Codec.decode payload with
    | ok record => exact ⟨record, rfl⟩
    | error e =>
        rw [hdecode] at hdecodes
        cases hdecodes
  obtain ⟨reader, hanswer⟩ : ∃ reader, t.read s.reader = (.ok (some payload), reader) :=
    ⟨(t.read s.reader).2, Prod.ext hread rfl⟩
  have hturn : s.turn commitInterval t =
      (s.receive reader payload false, some .projectorDead) := by
    simp only [Session.turn, hshutdown, hresync, hanswer, hdecode, haccepted, Bool.false_eq_true,
      if_false]
  rw [step_of_running commitInterval t houtcome, hturn]
  refine ⟨(s.receive reader payload false).current, ?_, fun hsafe => ?_⟩
  · refine (mem_writes_finish _ t _ _).mpr (Or.inr ⟨rfl, ?_⟩)
    cases hlast : t.writtenLast with
    | true => exact Or.inl rfl
    | false => exact Or.inr (by simpa [Session.receive] using hwritten hlast)
  · have hmem : (⟨reader.currentPosition, payload, false⟩ : Returned) ∈
        (s.receive reader payload false).current.returned :=
      List.mem_append_right _ (List.mem_singleton.mpr rfl)
    have happlied := hsafe.applied _ hmem record hdecode (by
      simp [WalPosition.upTo, WalPosition.before, Session.current, Session.receive])
    cases happlied

/-- A step takes no commit back. -/
theorem writes_subset_step (commitInterval : Nat) (s : Session) (t : Turn) :
    ∀ w ∈ s.writes, w ∈ (step commitInterval s t).writes := by
  intro w hw
  cases houtcome : s.outcome with
  | some outcome =>
      rw [step, houtcome]
      exact hw
  | none =>
      have hturn := turn_cases s commitInterval t
      rw [step_of_running commitInterval t houtcome]
      generalize s.turn commitInterval t = result at hturn
      cases hturn with
      | @quiet s' outcome hreturned hwrites =>
          have hkept : w ∈ s'.writes := by
            rcases hwrites with hwrites | hwrites
            · rwa [hwrites]
            · rw [hwrites]
              exact List.mem_append_left _ hw
          cases outcome with
          | none => exact hkept
          | some outcome => exact (mem_writes_finish _ t _ w).mpr (Or.inl hkept)
      | taken hreturned hwrites haccepted =>
          change w ∈ Session.writes _
          rwa [hwrites]
      | refused hshutdown hresync hread hdecode hrefused =>
          exact (mem_writes_finish _ t _ w).mpr (Or.inl hw)

/-- A run takes no commit back. -/
theorem writes_subset_run (commitInterval : Nat) (s : Session) (turns : List Turn) :
    ∀ w ∈ s.writes, w ∈ (Runs.run (step commitInterval) s turns).writes := by
  induction turns generalizing s with
  | nil => exact fun _ hw => hw
  | cons t turns ih => exact fun w hw => ih _ w (writes_subset_step commitInterval s t w hw)

/-- **Every write is safe exactly when the projector accepts every record that the
session takes**, or nothing is written after the one it does not. -/
theorem safe_iff {s : Session} (hs : Sound s) (commitInterval : Nat) (turns : List Turn) :
    (∀ w ∈ (Runs.run (TailSession.step commitInterval) s turns).writes, w.Safe) ↔
      Runs.Meets (TailSession.step commitInterval) Accepts s turns := by
  induction turns generalizing s with
  | nil => exact iff_of_true hs.safe trivial
  | cons t turns ih =>
      by_cases haccepts : Accepts s t
      · rw [Runs.Meets, and_iff_right haccepts]
        exact ih (hs.step commitInterval haccepts)
      · refine iff_of_false (fun hall => ?_) fun hmeets => haccepts hmeets.1
        obtain ⟨w, hw, hbad⟩ := exists_unsafe commitInterval haccepts
        exact hbad (hall w (writes_subset_run commitInterval _ turns w hw))

end

/-! ## A log that stays as it is -/

section

variable [Crc32c]

/-- What the reader has gone past has been returned. -/
structure Passed (dir : Dir) (start : WalReader) (s : Session) : Prop where
  fresh : s.reader.Fresh dir
  passed : ∀ x ∈ intact (start.ahead dir),
    x ∈ s.returned.map (fun y => (y.position, y.payload)) ∨ x ∈ intact (s.reader.ahead dir)
  writes : ∀ w ∈ s.writes, ∀ x ∈ intact (start.ahead dir), x.1.upTo w.position →
    x ∈ w.returned.map fun y => (y.position, y.payload)

variable {dir : Dir} {start : WalReader}

/-- A session that begins has passed nothing. -/
theorem passed_start (h : start.Fresh dir) (now : Nat) : Passed dir start (.start start now) := by
  refine ⟨h, fun x hx => Or.inr hx, fun w hw => ?_⟩
  cases hw

namespace Passed

variable {s : Session}

/-- What the session would write now is complete. -/
theorem current (h : Passed dir start s) :
    ∀ x ∈ intact (start.ahead dir), x.1.upTo s.current.position →
      x ∈ s.current.returned.map fun y => (y.position, y.payload) := by
  intro x hx hupTo
  rcases h.passed x hx with hreturned | hahead
  · exact hreturned
  · obtain ⟨position, payload⟩ := x
    have hbefore := WalReader.before_of_mem_ahead (mem_intact.mp hahead)
    rw [show s.reader.currentPosition.before position = false from hupTo] at hbefore
    cases hbefore

/-- Commits write what is complete. -/
theorem of_writes (h : Passed dir start s) {s' : Session} (hreader : s'.reader = s.reader)
    (hreturned : s'.returned = s.returned)
    (hwrites : ∀ w ∈ s'.writes, w ∈ s.writes ∨ w = s.current) : Passed dir start s' := by
  refine ⟨hreader ▸ h.fresh, ?_, fun w hw => ?_⟩
  · rw [hreader, hreturned]
    exact h.passed
  · rcases hwrites w hw with hw | rfl
    · exact h.writes w hw
    · exact h.current

/-- A commit passes nothing. -/
theorem commitWhenDue (h : Passed dir start s) (commitInterval : Nat) (t : Turn) :
    Passed dir start (s.commitWhenDue commitInterval t) := by
  obtain ⟨hwrites, hreturned, hreader⟩ := commitWhenDue_cases s commitInterval t
  refine h.of_writes hreader hreturned fun w hw => ?_
  rcases hwrites with hwrites | hwrites
  · exact Or.inl (hwrites ▸ hw)
  · rw [hwrites, List.mem_append, List.mem_singleton] at hw
    exact hw

/-- The end of a session passes nothing. -/
theorem finish (h : Passed dir start s) (t : Turn) (outcome : TailOutcome) :
    Passed dir start (s.finish t outcome) := by
  refine h.of_writes ?_ (finish_returned s t outcome) fun w hw => ?_
  · unfold Session.finish
    cases s.dirtyPosition <;> cases t.writtenDirty <;> cases t.writtenLast <;> rfl
  · exact ((mem_writes_finish s t outcome w).mp hw).imp_right And.left

/-- A record that is returned is no longer ahead. -/
theorem receive (h : Passed dir start s) {reader : WalReader} {payload : Bytes}
    (hnext : s.reader.next dir = (.ok (some payload), reader)) (accepted : Bool) :
    Passed dir start (s.receive reader payload accepted) := by
  have hfinds := WalReader.next_finds h.fresh
  rw [hnext] at hfinds
  obtain ⟨hfresh, -, skipped, hskipped, hahead⟩ := hfinds
  refine ⟨hfresh, fun x hx => ?_, h.writes⟩
  have hreturned : (s.receive reader payload accepted).returned =
      s.returned ++ [⟨reader.currentPosition, payload, accepted⟩] := rfl
  rw [hreturned, List.map_append, List.mem_append]
  rcases h.passed x hx with hold | hold
  · exact Or.inl (Or.inl hold)
  · rw [hahead, intact_skip hskipped] at hold
    rcases List.mem_cons.mp hold with rfl | hold
    · exact Or.inl (Or.inr List.mem_cons_self)
    · exact Or.inr hold

/-- A reader at the end has returned all. -/
theorem idle (h : Passed dir start s) {reader : WalReader}
    (hnext : s.reader.next dir = (.ok none, reader)) :
    Passed dir start { s with reader := reader } := by
  have hfinds := WalReader.next_finds h.fresh
  have hsound := WalReader.sound_answer h.fresh .next
  rw [WalReader.answer, hnext] at hsound
  rw [hnext] at hfinds
  refine ⟨hsound.onward.fresh, fun x hx => ?_, h.writes⟩
  rcases h.passed x hx with hold | hold
  · exact Or.inl hold
  · rw [intact_of_corrupt hfinds.2] at hold
    cases hold

variable [Bincode]

/-- A turn without a failure passes what it returns. -/
theorem step (h : Passed dir start s) (commitInterval : Nat) {t : Turn} (hdir : t.dir = dir)
    (hfailure : t.failure = none) : Passed dir start (step commitInterval s t) := by
  cases houtcome : s.outcome with
  | some outcome =>
      rw [TailSession.step, houtcome]
      exact h
  | none =>
      have hturn : Passed dir start (s.turn commitInterval t).1 := by
        unfold Session.turn Turn.read
        rw [hfailure, hdir]
        dsimp only
        split
        · exact h
        · split
          · exact h
          · split
            · rename_i payload reader hnext
              split
              · split
                · have hreceived := h.receive hnext true
                  exact ⟨hreceived.fresh, hreceived.passed, hreceived.writes⟩
                · exact h.receive hnext false
              · exact h.receive hnext false
            · rename_i reader hnext
              exact (h.idle hnext).commitWhenDue commitInterval t
            · rename_i e reader hnext
              have hfinds := WalReader.next_finds h.fresh
              rw [hnext] at hfinds
              exact hfinds.elim
      rw [step_of_running commitInterval t houtcome]
      generalize s.turn commitInterval t = result at hturn
      obtain ⟨s', none | outcome⟩ := result
      · exact hturn
      · exact hturn.finish t outcome

/-- Turns without a failure pass what they return. -/
theorem run (h : Passed dir start s) (commitInterval : Nat) {turns : List Turn}
    (hturns : ∀ t ∈ turns, t.dir = dir ∧ t.failure = none) :
    Passed dir start (Runs.run (TailSession.step commitInterval) s turns) := by
  induction turns generalizing s with
  | nil => exact h
  | cons t turns ih =>
      obtain ⟨hdir, hfailure⟩ := hturns t List.mem_cons_self
      exact ih (h.step commitInterval hdir hfailure)
        fun t' ht' => hturns t' (List.mem_cons_of_mem _ ht')

end Passed

variable [Bincode]

/-- **The committed position passes a record that was not applied exactly when the
projector refuses one** and a write that follows reaches the disk.  In a log that stays
as it is, all the intact frames between the start and a committed position have been
returned. -/
theorem committed_applied_iff (commitInterval : Nat) (reader : WalReader) (now : Nat)
    (turns : List Turn) :
    ((∀ w ∈ (tailSession commitInterval reader now turns).writes, w.Safe) ↔
      Runs.Meets (step commitInterval) Accepts (.start reader now) turns) ∧
    ∀ dir, reader.Fresh dir → (∀ t ∈ turns, t.dir = dir ∧ t.failure = none) →
      ∀ w ∈ (tailSession commitInterval reader now turns).writes,
        ∀ x ∈ intact (reader.ahead dir), x.1.upTo w.position →
          x ∈ w.returned.map fun y => (y.position, y.payload) :=
  ⟨safe_iff (sound_start reader now) commitInterval turns,
    fun _ hfresh hturns => ((passed_start hfresh now).run commitInterval hturns).writes⟩

end

/-! A record that the projector refuses. -/
namespace ProjectorDead

/-- The log has one record. -/
def reader : WalReader := WalReader.openAt "serve" ⟨0, 0⟩ DamagedLog.log

/-- The projector has stopped when it comes. -/
def turn : Turn where
  shutdown := false
  dir := DamagedLog.log
  failure := none
  accepted := false
  now := 0
  written := true
  writtenDirty := true
  writtenLast := true
  cancelled := false

end ProjectorDead

open ProjectorDead in
/-- The commit after the loop passes it. -/
theorem refused_record_is_passed :
    ¬ ∀ (commitInterval : Nat) (reader : WalReader) (now : Nat) (turns : List Turn),
      ∀ w ∈ (@tailSession DamagedLog.bincode castagnoli commitInterval reader now turns).writes,
        @Write.Safe DamagedLog.bincode w := by
  intro hall
  have hwrites : (@tailSession DamagedLog.bincode castagnoli 0 reader 0 [turn]).writes.map
      (fun w => (w.position, w.returned)) =
        [(⟨0, 62⟩, [⟨⟨0, 62⟩, DamagedLog.payload, false⟩])] := by decide +kernel
  obtain ⟨w, hw, hlast⟩ := List.mem_map.mp (hwrites ▸ List.mem_cons_self)
  obtain ⟨hposition, hreturned⟩ := Prod.mk.inj hlast
  have hmem : (⟨⟨0, 62⟩, DamagedLog.payload, false⟩ : Returned) ∈ w.returned := by
    rw [hreturned]
    exact List.mem_cons_self
  have hdecode : @Codec.decode DamagedLog.bincode DamagedLog.payload = .ok DamagedLog.record := by
    decide +kernel
  have happlied := @Write.Safe.applied DamagedLog.bincode w (hall 0 reader 0 [turn] w hw) _ hmem
    DamagedLog.record hdecode (by rw [hposition]; rfl)
  cases happlied

end TailSession

end PolyBook
