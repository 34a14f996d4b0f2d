import PolyBook.Wal.Tail

/-!
# Following a log that is being written

One writer and one reader work on a directory, step by step in any order.  The
reader follows from a cached copy of a segment and moves on as soon as a later
segment file exists, whether its copy is whole or not: records that reach a
segment after the copy was taken, and before the rotation, are never returned.

`tail_delivery_exact` shows that this is the only way to lose one.  `KeepsUp` asks
of each rotation that a cached copy of the segment it closes be whole.
-/

namespace PolyBook.Wal

namespace Tail

section

variable [Crc32c]

/-- A cached copy of the segment that an `append` closes is whole. -/
def KeepsUp (s : State) : Event → Prop
  | .append payload => ∀ w ∈ s.writer, w.rotates payload.bytes = true →
      ∀ r ∈ s.reader, r.currentSegmentId = w.active.id →
        ∀ data ∈ r.currentData, data = s.dir.contents w.active.id ++ w.active.buffer
  | _ => True

instance (s : State) : (e : Event) → Decidable (KeepsUp s e)
  | .append payload =>
      inferInstanceAs (Decidable (∀ w ∈ s.writer, w.rotates payload.bytes = true →
        ∀ r ∈ s.reader, r.currentSegmentId = w.active.id →
          ∀ data ∈ r.currentData, data = s.dir.contents w.active.id ++ w.active.buffer))
  | .openWriter | .spill _ | .flush | .openReader | .poll => isTrue trivial

/-! ## Where the reader stands -/

/-- The reader has returned the segments before its own and the first records of
its own; what it has cached is a part of the file, and all of it once the writer
has moved on. -/
inductive Follows (dir : Dir) (w : WalWriter) (records : Nat → List Bytes)
    (returned : List Bytes) (r : WalReader) : Prop
  | waiting (hdata : r.currentData = none) (hid : r.currentSegmentId = 0)
      (hoffset : r.currentOffset = 0) (hreturned : returned = [])
  | reading {data : Bytes} (done rest : List Bytes) (hdata : r.currentData = some data)
      (hid : r.currentSegmentId ≤ w.active.id)
      (hcached : data <+: dir.contents r.currentSegmentId)
      (hwhole : r.currentSegmentId < w.active.id → data = dir.contents r.currentSegmentId)
      (hfit : Framing.fitting frame data.length (records r.currentSegmentId) = done ++ rest)
      (hoffset : r.currentOffset = (Framing.frames frame done).length)
      (hreturned : returned = earlier records r.currentSegmentId ++ done)

/-- What a poll does for a reader that follows the log. -/
def Follows.Answered (dir : Dir) (w : WalWriter) (records : Nat → List Bytes)
    (returned : List Bytes) : Except WalError (Option Bytes) × WalReader → Prop
  | (.ok (some payload), r) => Follows dir w records (returned ++ [payload]) r
  | (.ok none, r) => Follows dir w records returned r ∧
      (w.active.buffer = [] → returned = earlier records (w.active.id + 1))
  | (.error _, _) => False

namespace Follows

variable {dir : Dir} {w : WalWriter} {records : Nat → List Bytes} {returned : List Bytes}
  {r : WalReader}

/-- What the reader has returned is a front of the log. -/
theorem returned_isPrefix (h : Follows dir w records returned r) :
    returned <+: earlier records (w.active.id + 1) := by
  cases h with
  | waiting hdata hid hoffset hreturned =>
      rw [hreturned]
      exact List.nil_prefix
  | @reading data done rest hdata hid hcached hwhole hfit hoffset hreturned =>
      have hdone : done <+: records r.currentSegmentId :=
        (List.prefix_append done rest).trans (hfit ▸ Framing.fitting_isPrefix _ _)
      rw [hreturned]
      exact earlier_append_isPrefix hdone hid

/-- A reader that starts on a segment file from its beginning. -/
theorem start {id : Nat} {file : Bytes} (hid : id ≤ w.active.id)
    (hfile : dir[id]? = some file) (hdata : r.currentData = some file)
    (hsegment : r.currentSegmentId = id) (hoffset : r.currentOffset = 0)
    (hreturned : returned = earlier records id) : Follows dir w records returned r := by
  subst hsegment
  have hcontents := Dir.contents_of_some hfile
  refine .reading [] _ hdata hid ?_ (fun _ => hcontents.symm)
    (List.nil_append _).symm hoffset ?_
  · rw [hcontents]
  · rw [hreturned, List.append_nil]

/-- What a reader does when its cache has nothing more. -/
theorem advance (hlayout : Layout dir w records)
    (hcomplete : ∀ id, id ≤ w.active.id → ∃ file, dir[id]? = some file)
    {data : Bytes} {done : List Bytes} (hdata : r.currentData = some data)
    (hid : r.currentSegmentId ≤ w.active.id)
    (hcached : data <+: dir.contents r.currentSegmentId)
    (hwhole : r.currentSegmentId < w.active.id → data = dir.contents r.currentSegmentId)
    (hfit : Framing.fitting frame data.length (records r.currentSegmentId) = done)
    (hoffset : r.currentOffset = (Framing.frames frame done).length)
    (hreturned : returned = earlier records r.currentSegmentId ++ done) :
    match WalReader.continueOrEnd (r.advanceSegment dir) with
    | .inl answer => Answered dir w records returned answer
    | .inr r' => Follows dir w records returned r' := by
  obtain ⟨file₀, hfile₀⟩ := hcomplete _ hid
  have hstream := hlayout.stored_prefix hfile₀
  rw [Dir.contents_of_some hfile₀] at hcached hwhole
  have hadvance := WalReader.advanceSegment_cases dir r hdata
  generalize r.advanceSegment dir = outcome at hadvance
  cases hadvance with
  | @moved nextId file hnext hfile =>
      -- every segment is there, so the next one is the successor
      have hle : nextId ≤ w.active.id := hlayout.bound _ _ hfile
      have hlt : r.currentSegmentId < w.active.id := Nat.lt_of_lt_of_le hnext.later hle
      obtain ⟨file₁, hfile₁⟩ := hcomplete (r.currentSegmentId + 1) hlt
      have hsucc : nextId = r.currentSegmentId + 1 := by
        have := hnext.nearest _ (Dir.mem_keys_of_getElem? hfile₁)
        have := hnext.later
        omega
      have hall : done = records r.currentSegmentId := by
        rw [← hfit, hwhole hlt, hlayout.sealed hlt hfile₀, Framing.fitting_frames]
      refine start hle hfile rfl rfl rfl ?_
      rw [hreturned, hsucc, earlier_succ, hall]
  | pruned hlast hgone =>
      rw [hfile₀] at hgone
      cases hgone
  | shrunk hlast hfile hlen =>
      rw [hfile₀] at hfile
      cases hfile
      have := hcached.length_le
      omega
  | unchanged hlast hfile hlen =>
      rw [hfile₀] at hfile
      cases hfile
      have hdata' : data = file₀ := hcached.eq_of_length hlen.symm
      refine ⟨.reading done [] hdata hid (by rw [Dir.contents_of_some hfile₀]; exact hcached)
        (by rw [Dir.contents_of_some hfile₀]; exact hwhole)
        (by rw [List.append_nil]; exact hfit) hoffset hreturned, fun hbuffer => ?_⟩
      obtain ⟨file₁, hfile₁⟩ := hlayout.active
      have hactive : r.currentSegmentId = w.active.id :=
        Nat.le_antisymm hid (hlast _ (Dir.mem_keys_of_getElem? hfile₁))
      have hstored := hlayout.stored _ _ hfile₀
      rw [hactive, w.pending_active, hbuffer, List.append_nil] at hstored
      rw [hreturned, ← hactive, earlier_succ, ← hfit, hdata', hstored, hactive,
        Framing.fitting_frames]
  | grown hlast hfile hlen =>
      rw [hfile₀] at hfile
      cases hfile
      have htop : data ++ file₀.drop data.length = file₀ := by
        obtain ⟨more, rfl⟩ := hcached
        rw [List.drop_left]
      have hdone : (Framing.frames frame done).length ≤ file₀.length := by
        have hreads := Reads.of_prefix_end (hlayout.recordable r.currentSegmentId)
          (hcached.trans hstream) hfit
        exact Nat.le_trans hreads.length_done_le (Nat.le_of_lt hlen)
      have hdone' : done <+: records r.currentSegmentId := hfit ▸ Framing.fitting_isPrefix _ _
      obtain ⟨rest, hrest⟩ := Framing.prefix_fitting hdone' hdone
      refine .reading done rest (congrArg some htop) hid ?_ ?_ hrest.symm
        hoffset hreturned
      · rw [Dir.contents_of_some hfile₀]
      · intro _
        exact (Dir.contents_of_some hfile₀).symm

/-- One turn of `next`. -/
theorem nextStep (hlayout : Layout dir w records)
    (hcomplete : ∀ id, id ≤ w.active.id → ∃ file, dir[id]? = some file)
    (h : Follows dir w records returned r) :
    match r.nextStep dir with
    | .inl answer => Answered dir w records returned answer
    | .inr r' => Follows dir w records returned r' := by
  cases h with
  | waiting hdata hid hoffset hreturned =>
      obtain ⟨file₀, hfile₀⟩ := hcomplete 0 (Nat.zero_le _)
      rw [WalReader.nextStep_of_unloaded hdata]
      have hreload := WalReader.reloadWhenUnloaded_cases dir r
      generalize r.reloadWhenUnloaded dir = outcome at hreload
      cases hreload with
      | appeared hfile =>
          rw [hid] at hfile
          exact start (Nat.zero_le _) hfile rfl hid hoffset hreturned
      | jumped hgone hearliest hlater hfile =>
          rw [hid, hfile₀] at hgone
          cases hgone
      | waiting hgone hfirst =>
          rw [hid, hfile₀] at hgone
          cases hgone
  | @reading data done rest hdata hid hcached hwhole hfit hoffset hreturned =>
      obtain ⟨file₀, hfile₀⟩ := hcomplete _ hid
      have hstream : data <+: Framing.frames frame (records r.currentSegmentId) := by
        rw [Dir.contents_of_some hfile₀] at hcached
        exact hcached.trans (hlayout.stored_prefix hfile₀)
      have hreads := Reads.of_prefix (hlayout.recordable _) hstream hfit
      rw [← hoffset] at hreads
      cases rest with
      | nil =>
          rw [WalReader.nextStep_of_stops hdata (hreads.stops _)]
          rw [List.append_nil] at hfit
          exact advance hlayout hcomplete hdata hid hcached hwhole hfit hoffset hreturned
      | cons payload rest =>
          rw [WalReader.nextStep_of_record hdata (hreads.next _)]
          refine .reading (done ++ [payload]) rest hdata hid hcached hwhole ?_
            hreads.take.offset_eq ?_
          · rw [hfit, List.append_assoc, List.singleton_append]
          · rw [hreturned, List.append_assoc]

/-- **A poll returns the next record, or nothing when there is none.** -/
theorem next (hlayout : Layout dir w records)
    (hcomplete : ∀ id, id ≤ w.active.id → ∃ file, dir[id]? = some file)
    (h : Follows dir w records returned r) : Answered dir w records returned (r.next dir) := by
  refine Loop.iterate_rule _ (Follows dir w records returned) _ ?_ ?_ h
  · intro r r' hr hstep
    have := nextStep hlayout hcomplete hr
    rwa [hstep] at this
  · intro r answer hr hstep
    have := nextStep hlayout hcomplete hr
    rwa [hstep] at this

/-! ## What the writer's steps change for the reader -/

/-- A partial write is followed on. -/
theorem spill (h : Follows dir w records returned r) (k : Nat) :
    Follows (w.spill k dir).2 (w.spill k dir).1 records returned r := by
  cases h with
  | waiting hdata hid hoffset hreturned => exact .waiting hdata hid hoffset hreturned
  | reading done rest hdata hid hcached hwhole hfit hoffset hreturned =>
      refine .reading done rest hdata hid ?_ (fun hlt => ?_) hfit hoffset hreturned
      · rw [WalWriter.contents_spill]
        split
        · exact hcached.trans (List.prefix_append _ _)
        · exact hcached
      · have hlt : r.currentSegmentId < w.active.id := hlt
        rw [WalWriter.contents_spill, if_neg (Nat.ne_of_lt hlt)]
        exact hwhole hlt

/-- A rotation is followed on, if the reader has seen the end of the segment. -/
theorem rotate (hlayout : Layout dir w records) (h : Follows dir w records returned r)
    (hkeeps : r.currentSegmentId = w.active.id →
      ∀ data ∈ r.currentData, data = dir.contents w.active.id ++ w.active.buffer) :
    Follows (w.rotate dir).2 (w.rotate dir).1 records returned r := by
  cases h with
  | waiting hdata hid hoffset hreturned => exact .waiting hdata hid hoffset hreturned
  | @reading data done rest hdata hid hcached hwhole hfit hoffset hreturned =>
      have hactive : (w.rotate dir).1.active.id = w.active.id + 1 := hlayout.next
      have hdata' : data = dir.contents r.currentSegmentId ++ w.pending r.currentSegmentId := by
        by_cases heq : r.currentSegmentId = w.active.id
        · rw [heq, w.pending_active]
          exact hkeeps heq data hdata
        · rw [w.pending_ne heq, List.append_nil]
          exact hwhole (by omega)
      rw [← WalWriter.contents_rotate hlayout.next hid] at hdata'
      refine .reading done rest hdata ?_ ?_ (fun _ => hdata') hfit hoffset hreturned
      · rw [hactive]
        exact Nat.le_succ_of_le hid
      · rw [← hdata']

/-- A record that is buffered is followed on. -/
theorem record (hlayout : Layout dir w records) (h : Follows dir w records returned r)
    (payload : Bytes) :
    Follows dir (w.buffered payload) (recordIn records w.active.id payload) returned r := by
  cases h with
  | waiting hdata hid hoffset hreturned => exact .waiting hdata hid hoffset hreturned
  | @reading data done rest hdata hid hcached hwhole hfit hoffset hreturned =>
      refine .reading done rest hdata hid hcached hwhole ?_ hoffset ?_
      · by_cases heq : r.currentSegmentId = w.active.id
        · obtain ⟨file, hfile⟩ := hlayout.active
          have hle : data.length ≤
              (Framing.frames frame (records r.currentSegmentId)).length := by
            rw [heq, Dir.contents_of_some hfile] at hcached
            rw [heq]
            exact (hcached.trans (hlayout.stored_prefix hfile)).length_le
          rw [← hfit, ← heq, recordIn_same]
          exact Framing.fitting_append_of_le frame_ne_nil hle _
        · rwa [recordIn_ne records heq]
      · rwa [earlier_recordIn_of_le records hid]

end Follows

/-! ## Runs -/

/-- What holds in every state: before the writer opened nothing is there, and
from then on the directory is laid out and the reader follows. -/
inductive Inv (s : State) : Prop
  | unopened (hwriter : s.writer = none) (hdir : s.dir = ∅) (happended : s.log = [])
      (hreturned : s.returned = [])
      (hreader : ∀ r ∈ s.reader, r.currentData = none ∧ r.currentSegmentId = 0 ∧
        r.currentOffset = 0)
  | opened {w : WalWriter} {records : Nat → List Bytes} (hwriter : s.writer = some w)
      (hlayout : Layout s.dir w records)
      (hcomplete : ∀ id, id ≤ w.active.id → ∃ file, s.dir[id]? = some file)
      (happended : s.log = earlier records (w.active.id + 1))
      (hunread : s.reader = none → s.returned = [])
      (hreader : ∀ r ∈ s.reader, Follows s.dir w records s.returned r)

namespace Inv

variable {s : State}

/-- The empty directory satisfies the invariant. -/
theorem init : Inv .init :=
  .unopened rfl rfl rfl rfl (fun _ hr => (nomatch hr))

/-- What the reader has returned is a front of the log. -/
theorem returned_isPrefix (h : Inv s) : s.returned <+: s.log := by
  cases h with
  | unopened hwriter hdir happended hreturned hreader =>
      rw [hreturned]
      exact List.nil_prefix
  | opened hwriter hlayout hcomplete happended hunread hreader =>
      rw [happended]
      cases hr : s.reader with
      | none =>
          rw [hunread hr]
          exact List.nil_prefix
      | some r => exact (hreader r hr).returned_isPrefix

/-- Opening a writer keeps the invariant. -/
theorem openWriter (config : WalConfig) (h : Inv s) : Inv (step config s .openWriter) := by
  cases h with
  | unopened hwriter hdir happended hreturned hreader =>
      have hlayout := Layout.openDir config
      rw [step_openWriter config hwriter, hdir]
      refine .opened rfl hlayout ?_ happended (fun _ => hreturned) ?_
      · intro id hid
        obtain rfl : id = 0 := Nat.le_zero.mp hid
        exact hlayout.active
      · intro r hr
        obtain ⟨hdata, hid, hoffset⟩ := hreader r hr
        exact .waiting hdata hid hoffset hreturned
  | opened hwriter hlayout hcomplete happended hunread hreader =>
      rw [step_openWriter_of_some config hwriter]
      exact .opened hwriter hlayout hcomplete happended hunread hreader

/-- A partial write keeps the invariant. -/
theorem spill (config : WalConfig) (k : Nat) (h : Inv s) : Inv (step config s (.spill k)) := by
  cases h with
  | unopened hwriter hdir happended hreturned hreader =>
      rw [step_of_closed config hwriter (by simp)]
      exact .unopened hwriter hdir happended hreturned hreader
  | @opened w records hwriter hlayout hcomplete happended hunread hreader =>
      rw [step_spill config hwriter]
      refine .opened rfl (hlayout.spill k) (fun id hid => ?_) happended hunread
        (fun r hr => (hreader r hr).spill k)
      change ∃ file, (w.spill k s.dir).2[id]? = some file
      rw [WalWriter.getElem?_spill]
      split
      · exact ⟨_, rfl⟩
      · exact hcomplete id hid

/-- A flush keeps the invariant. -/
theorem flush (config : WalConfig) (h : Inv s) : Inv (step config s .flush) := by
  cases hcase : s.writer with
  | none => rwa [step_of_closed config hcase (by simp)]
  | some w =>
      rw [step_flush config hcase]
      exact h.spill config _

/-- Making room keeps the invariant if the reader keeps up. -/
theorem makeRoom {w : WalWriter} {records : Nat → List Bytes}
    (hlayout : Layout s.dir w records)
    (hcomplete : ∀ id, id ≤ w.active.id → ∃ file, s.dir[id]? = some file)
    (happended : s.log = earlier records (w.active.id + 1))
    (hunread : s.reader = none → s.returned = [])
    (hreader : ∀ r ∈ s.reader, Follows s.dir w records s.returned r) {payload : Bytes}
    (hkeeps : w.rotates payload = true → ∀ r ∈ s.reader, r.currentSegmentId = w.active.id →
      ∀ data ∈ r.currentData, data = s.dir.contents w.active.id ++ w.active.buffer) :
    Inv { s with
      writer := some (w.makeRoom payload s.dir).1, dir := (w.makeRoom payload s.dir).2 } := by
  unfold WalWriter.makeRoom
  split
  · rename_i hrotates
    have hactive : (w.rotate s.dir).1.active.id = w.active.id + 1 := hlayout.next
    refine .opened rfl hlayout.rotate (fun id hid => ?_) ?_ hunread
      (fun r hr => (hreader r hr).rotate hlayout (hkeeps hrotates r hr))
    · change ∃ file, (w.rotate s.dir).2[id]? = some file
      rw [WalWriter.getElem?_rotate]
      split
      · exact ⟨_, rfl⟩
      · rename_i hne
        have hle : id ≤ w.active.id := by
          have : id ≤ (w.rotate s.dir).1.active.id := hid
          rw [hlayout.next] at hne
          omega
        obtain ⟨file, hfile⟩ := hcomplete id hle
        change ∃ file, (w.spill w.active.buffer.length s.dir).2[id]? = some file
        rw [WalWriter.getElem?_spill]
        split
        · exact ⟨_, rfl⟩
        · exact ⟨file, hfile⟩
    · rw [hactive, earlier_succ, hlayout.unwritten _ (Nat.lt_succ_self _), List.append_nil]
      exact happended
  · exact .opened rfl hlayout hcomplete happended hunread hreader

/-- The record goes into the buffer. -/
theorem record {w : WalWriter} (hwriter : s.writer = some w) {payload : Bytes}
    (hok : Recordable payload) (h : Inv s) :
    Inv { s with writer := some (w.buffered payload), log := s.log ++ [payload] } := by
  cases h with
  | unopened hnone hdir happended hreturned hreader =>
      rw [hwriter] at hnone
      cases hnone
  | opened hwriter' hlayout hcomplete happended hunread hreader =>
      rw [hwriter] at hwriter'
      cases hwriter'
      refine .opened rfl (hlayout.record hok) hcomplete ?_ hunread
        (fun r hr => (hreader r hr).record hlayout payload)
      change s.log ++ [payload] = earlier _ (w.active.id + 1)
      rw [earlier_recordIn, happended]

/-- An append keeps the invariant, if the reader keeps up. -/
theorem append (config : WalConfig) (payload : Payload) (h : Inv s)
    (hkeeps : KeepsUp s (.append payload)) : Inv (step config s (.append payload)) := by
  cases h with
  | unopened hwriter hdir happended hreturned hreader =>
      rw [step_of_closed config hwriter (by simp)]
      exact .unopened hwriter hdir happended hreturned hreader
  | opened hwriter hlayout hcomplete happended hunread hreader =>
      have hroom := makeRoom hlayout hcomplete happended hunread hreader (hkeeps _ hwriter)
      obtain ⟨hok, hstep⟩ | hstep := step_append_cases config hwriter payload
      · rw [hstep]
        exact record rfl hok hroom
      · rw [hstep]
        exact hroom

/-- Opening the reader keeps the invariant. -/
theorem openReader (config : WalConfig) (h : Inv s) : Inv (step config s .openReader) := by
  cases hcase : s.reader with
  | some r => rwa [step_openReader_of_some config hcase]
  | none =>
      rw [step_openReader config hcase]
      cases h with
      | unopened hwriter hdir happended hreturned hreader =>
          refine .unopened hwriter hdir happended hreturned fun r hr => ?_
          rw [hdir] at hr
          obtain rfl := Option.some.inj hr
          exact ⟨rfl, rfl, rfl⟩
      | opened hwriter hlayout hcomplete happended hunread hreader =>
          refine .opened hwriter hlayout hcomplete happended (fun hnone => nomatch hnone)
            fun r hr => ?_
          obtain rfl := Option.some.inj hr
          obtain ⟨file, hfile⟩ := hcomplete 0 (Nat.zero_le _)
          have hfirst := WalReader.openDir_of_zero "tail" hfile
          refine .start (Nat.zero_le _) hfile ?_ ?_ ?_ (hunread hcase)
          · rw [hfirst]
          · rw [hfirst]
          · rw [hfirst]

/-- What `next` answers in a state of a run. -/
theorem next (h : Inv s) {r : WalReader} (hr : s.reader = some r) :
    Inv (s.answered (r.next s.dir)) ∧
      ((∃ payload, (r.next s.dir).1 = .ok (some payload)) ∨
        (r.next s.dir).1 = .ok none ∧ (s.flushed = true → s.returned = s.log)) := by
  cases h with
  | unopened hwriter hdir happended hreturned hreader =>
      obtain ⟨hdata, hid, hoffset⟩ := hreader r hr
      have hnext : r.next s.dir = (.ok none, { r with availableSegments := s.dir.keys }) := by
        refine Loop.iterate_of_inl _ ?_
        rw [WalReader.nextStep_of_unloaded hdata, hdir]
        rfl
      rw [hnext]
      refine ⟨.unopened hwriter hdir happended hreturned fun r' hr' => ?_,
        Or.inr ⟨rfl, fun _ => by rw [hreturned, happended]⟩⟩
      obtain rfl := Option.some.inj hr'
      exact ⟨hdata, hid, hoffset⟩
  | @opened w records hwriter hlayout hcomplete happended hunread hreader =>
      have hnext := (hreader r hr).next hlayout hcomplete
      generalize r.next s.dir = answer at hnext ⊢
      obtain ⟨result, r'⟩ := answer
      cases result with
      | error e => exact hnext.elim
      | ok answer =>
          cases answer with
          | some payload =>
              refine ⟨.opened hwriter hlayout hcomplete happended (fun h => nomatch h) ?_,
                Or.inl ⟨payload, rfl⟩⟩
              intro r'' hr''
              obtain rfl := Option.some.inj hr''
              exact hnext
          | none =>
              obtain ⟨hfollows, hcaught⟩ := hnext
              refine ⟨.opened hwriter hlayout hcomplete happended (fun h => nomatch h) ?_,
                Or.inr ⟨rfl, fun hflushed => ?_⟩⟩
              · intro r'' hr''
                obtain rfl := Option.some.inj hr''
                exact hfollows
              · rw [happended]
                apply hcaught
                simpa [State.flushed, hwriter] using hflushed

/-- Polling keeps the invariant. -/
theorem poll (config : WalConfig) (h : Inv s) : Inv (step config s .poll) := by
  cases hcase : s.reader with
  | none => rwa [step_poll_of_none config hcase]
  | some r =>
      rw [step_poll config hcase]
      exact (h.next hcase).1

/-- Every event keeps the invariant, if the reader keeps up. -/
theorem step (config : WalConfig) (e : Event) (h : Inv s) (hkeeps : KeepsUp s e) :
    Inv (step config s e) := by
  cases e with
  | openWriter => exact h.openWriter config
  | append payload => exact h.append config payload hkeeps
  | spill k => exact h.spill config k
  | flush => exact h.flush config
  | openReader => exact h.openReader config
  | poll => exact h.poll config

/-- The invariant holds in every run in which the reader keeps up. -/
theorem run (config : WalConfig) {events : List Event}
    (hkeeps : Runs.Meets (Tail.step config) KeepsUp .init events) :
    Inv (Runs.run (Tail.step config) .init events) :=
  Runs.Meets.induction (fun _ e h => h.step config e) init hkeeps

end Inv

/-- Polls take the rest, one record each, and then find nothing. -/
theorem drain (config : WalConfig) (n : Nat) {s : State} (h : Inv s)
    (hflushed : s.flushed = true) {r : WalReader} (hr : s.reader = some r)
    (hn : s.log.length = s.returned.length + n) :
    (Runs.run (step config) s (List.replicate n .poll)).returned = s.log ∧
      (Runs.run (step config) s (List.replicate n .poll)).answer = some (.ok none) := by
  obtain ⟨hinv, hanswer⟩ := h.next hr
  have hstep := step_poll config hr
  induction n generalizing s r with
  | zero =>
      have hall : s.returned = s.log := h.returned_isPrefix.eq_of_length (by omega)
      refine ⟨hall, ?_⟩
      obtain ⟨payload, hpayload⟩ | ⟨hnone, -⟩ := hanswer
      · -- one more record would not be a prefix of what was appended
        have hmore := hinv.returned_isPrefix.length_le
        have hreturned : (s.answered (r.next s.dir)).returned = s.returned ++ [payload] ∧
            (s.answered (r.next s.dir)).log = s.log := by
          generalize r.next s.dir = answer at hpayload
          obtain ⟨result, r'⟩ := answer
          cases hpayload
          exact ⟨rfl, rfl⟩
        rw [hreturned.1, hreturned.2, List.length_append, List.length_singleton] at hmore
        omega
      · change s.reader.map _ = _
        rw [hr]
        exact congrArg some hnone
  | succ n ih =>
      rw [List.replicate_succ]
      change (Runs.run (step config) (step config s .poll) (List.replicate n .poll)).returned =
          _ ∧ (Runs.run (step config) (step config s .poll) (List.replicate n .poll)).answer = _
      obtain ⟨payload, hpayload⟩ | ⟨-, hcaught⟩ := hanswer
      · rw [hstep]
        generalize r.next s.dir = answer at hpayload hinv
        obtain ⟨result, r'⟩ := answer
        cases hpayload
        obtain ⟨hinv', hanswer'⟩ := hinv.next (r := r') rfl
        refine ih hinv hflushed rfl ?_ hinv' hanswer' rfl
        simp only [State.answered, List.length_append, List.length_singleton]
        omega
      · have := congrArg List.length (hcaught hflushed)
        omega

/-- **Nothing is lost if the reader keeps up with every rotation.**  What was
returned is a prefix of what was appended; and once everything is flushed, a poll
that finds nothing has been preceded by every record, and as many polls as there
are records left take them all. -/
theorem tail_delivery_exact (config : WalConfig) (events : List Event)
    (hkeeps : Runs.Meets (step config) KeepsUp .init events) :
    let s := Runs.run (step config) .init events
    s.returned <+: s.log ∧
      (s.flushed = true → s.answer = some (.ok none) → s.returned = s.log) ∧
      (s.flushed = true → s.reader.isSome = true →
        let polls := List.replicate (s.log.length - s.returned.length) Event.poll
        (Runs.run (step config) s polls).returned = s.log ∧
          (Runs.run (step config) s polls).answer = some (.ok none)) := by
  intro s
  have hinv : Inv s := Inv.run config hkeeps
  refine ⟨hinv.returned_isPrefix, fun hflushed hanswer => ?_, fun hflushed hreader => ?_⟩
  · cases hr : s.reader with
    | none => simp [State.answer, hr] at hanswer
    | some r =>
        obtain ⟨-, ⟨payload, hpayload⟩ | ⟨-, hcaught⟩⟩ := hinv.next hr
        · simp [State.answer, hr, hpayload] at hanswer
        · exact hcaught hflushed
  · obtain ⟨r, hr⟩ := Option.isSome_iff_exists.mp hreader
    have := hinv.returned_isPrefix.length_le
    exact drain config _ hinv hflushed hr (by omega)

end

namespace Sample

/-- Room for two one-byte records in a segment. -/
def twoRecords : WalConfig := ⟨20, 16, 1000⟩

/-- A payload of one byte. -/
def payload (b : UInt8) : Payload := .cons b []

/-- The reader polls before every rotation. -/
def promptRun : List Event :=
  [.openReader, .openWriter, .append (payload 1), .flush, .poll, .append (payload 2), .spill 4,
    .poll, .flush, .poll, .append (payload 3), .flush, .poll]

/-- The reader's copy is taken before the second record. -/
def lateRun : List Event :=
  [.openWriter, .append (payload 1), .flush, .openReader, .poll, .append (payload 2),
    .append (payload 3), .flush, .poll]

end Sample

/-- A run across a segment boundary in which the reader keeps up. -/
theorem tail_delivery_exact_promptRun :
    (Runs.run (step Sample.twoRecords) .init Sample.promptRun).returned <+:
      (Runs.run (step Sample.twoRecords) .init Sample.promptRun).log :=
  (tail_delivery_exact Sample.twoRecords Sample.promptRun (by decide +kernel)).1

/-- The second record is in a closed segment that the reader left too early. -/
theorem late_reader_loses_record :
    ¬ (Runs.run (step Sample.twoRecords) .init Sample.lateRun).returned <+:
      (Runs.run (step Sample.twoRecords) .init Sample.lateRun).log := by
  decide +kernel

end Tail

end PolyBook.Wal
