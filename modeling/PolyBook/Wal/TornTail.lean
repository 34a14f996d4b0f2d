import PolyBook.Wal.Tail

/-!
# Following a log across a crash of its writer

A crash drops what had not reached the file and may leave a torn frame at its
end; the next writer truncates the file there and appends to it.  A reader that
had cached the torn frame notices a truncation by the length of the file alone.
If the file has grown back to the cached length or beyond by the time of the next
poll that needs it, the reader keeps the torn bytes: it waits for a growth that
has already happened, or splices what follows onto them.

`crash_delivery_exact` shows that delivery is exact in every run in which this
does not happen.
-/

namespace PolyBook.Wal.TornTail

open Tail (State)

/-- The steps of the two parties, and a crash of the writer's process. -/
inductive Event where
  | run (e : Tail.Event)
  | crash

/-- The content of the one segment. -/
def file (s : State) : Bytes := s.dir.contents 0

section

variable [Crc32c]

/-- The records wholly in the file. -/
def stored (s : State) : List Bytes := Framing.fitting frame (file s).length s.log

/-- One event; a crash loses what is not wholly in the file. -/
def step (config : WalConfig) (s : State) : Event → State
  | .run e => Tail.step config s e
  | .crash => { s with writer := none, log := stored s }

/-- The segment has room for everything that is appended. -/
def NoRotation (s : State) : Event → Prop
  | .run (.append payload) => ∀ w ∈ s.writer, w.rotates payload.bytes = false
  | _ => True

/-- When a poll has come to the end of the cached copy, the file is shorter than
the copy, or continues it. -/
def CacheHolds (s : State) : Event → Prop
  | .run .poll => ∀ r ∈ s.reader, ∀ data ∈ r.currentData,
      Stops data r.currentOffset r.currentSegmentId →
        (file s).length < data.length ∨ data <+: file s
  | _ => True

instance (s : State) : (e : Event) → Decidable (NoRotation s e)
  | .run (.append payload) =>
      inferInstanceAs (Decidable (∀ w ∈ s.writer, w.rotates payload.bytes = false))
  | .run .openWriter | .run (.spill _) | .run .flush | .run .openReader | .run .poll
  | .crash => isTrue trivial

instance (data : Bytes) (offset segmentId : Nat) : Decidable (Stops data offset segmentId) :=
  inferInstanceAs (Decidable (_ ∨ _))

instance (s : State) : (e : Event) → Decidable (CacheHolds s e)
  | .run .poll =>
      inferInstanceAs (Decidable (∀ r ∈ s.reader, ∀ data ∈ r.currentData,
        Stops data r.currentOffset r.currentSegmentId →
          (file s).length < data.length ∨ data <+: file s))
  | .run .openWriter | .run (.append _) | .run (.spill _) | .run .flush | .run .openReader
  | .crash => isTrue trivial

/-! ## The file -/

/-- The segment at any time: not created yet, being written, or left by a crash
with a torn frame. -/
inductive OnDisk (s : State) : Prop
  | missing (hwriter : s.writer = none) (hdir : s.dir = ∅) (hlog : s.log = [])
  | written {w : WalWriter} (hwriter : s.writer = some w) (hid : w.active.id = 0)
      (hlayout : Layout s.dir w fun id => if id = 0 then s.log else [])
  | crashed {torn : Bytes} (hwriter : s.writer = none)
      (honly : ∀ id ∈ s.dir.keys, id = 0) (hok : ∀ r ∈ s.log, Recordable r)
      (htorn : Framing.Torn frame Recordable torn)
      (hfile : s.dir[0]? = some (Framing.frames frame s.log ++ torn))

namespace OnDisk

variable {s : State}

/-- Every record of the log could be recorded. -/
theorem recordable (h : OnDisk s) : ∀ r ∈ s.log, Recordable r := by
  cases h with
  | missing hwriter hdir hlog =>
      intro r hr
      rw [hlog] at hr
      cases hr
  | written hwriter hid hlayout => simpa using hlayout.recordable 0
  | crashed hwriter honly hok htorn hfile => exact hok

/-- Segment 0 is the only one. -/
theorem eq_zero_of_mem (h : OnDisk s) {id : Nat} (hmem : id ∈ s.dir.keys) : id = 0 := by
  cases h with
  | missing hwriter hdir hlog =>
      rw [hdir] at hmem
      simp at hmem
  | written hwriter hid hlayout =>
      obtain ⟨data, hdata⟩ := Dir.getElem?_of_mem_keys hmem
      have := hlayout.bound _ _ hdata
      omega
  | crashed hwriter honly hok htorn hfile =>
      exact honly id hmem

/-- What is stored is a front of the log. -/
theorem stored_prefix_log (s : State) : stored s <+: s.log := Framing.fitting_isPrefix _ _

/-- The file is the frames of the records wholly in it, and a torn one. -/
theorem file_eq (h : OnDisk s) : ∃ torn, Framing.Torn frame Recordable torn ∧
    file s = Framing.frames frame (stored s) ++ torn := by
  have hok := h.recordable
  cases h with
  | missing hwriter hdir hlog =>
      refine ⟨[], Framing.torn_nil, ?_⟩
      simp [file, stored, Dir.contents, hdir, hlog, Framing.fitting]
  | written hwriter hid hlayout =>
      obtain ⟨data, hdata⟩ := hlayout.active
      rw [hid] at hdata
      refine Framing.eq_frames_append_torn hok ?_
      have := hlayout.stored_prefix hdata
      rwa [if_pos rfl, ← Dir.contents_of_some hdata] at this
  | @crashed torn hwriter honly hok htorn hfile =>
      have hfile' : file s = Framing.frames frame s.log ++ torn := Dir.contents_of_some hfile
      have hstored : stored s = s.log := by
        refine Framing.fitting_eq_self ?_
        rw [hfile', List.length_append]
        omega
      exact ⟨torn, htorn, by rw [hstored]; exact hfile'⟩

/-- The stored records read back from the file. -/
theorem reads_file (h : OnDisk s) {returned : List Bytes} (hreturned : returned <+: stored s)
    {offset : Nat} (hoffset : offset = (Framing.frames frame returned).length) :
    ∃ rest, Reads (file s) offset returned rest ∧ returned ++ rest = stored s := by
  obtain ⟨rest, hrest⟩ := hreturned
  obtain ⟨torn, htorn, hfile⟩ := h.file_eq
  refine ⟨rest, ⟨hoffset, ⟨torn, htorn, by rw [hrest]; exact hfile⟩, fun p hp => ?_⟩, hrest⟩
  refine h.recordable p ((stored_prefix_log s).subset ?_)
  rw [← hrest]
  exact List.mem_append_right returned hp

/-- Without a file nothing is stored. -/
theorem stored_of_missing (h : OnDisk s) (hnone : s.dir[0]? = none) : stored s = [] := by
  cases h with
  | missing hwriter hdir hlog => simp [stored, hlog, Framing.fitting]
  | written hwriter hid hlayout =>
      obtain ⟨data, hdata⟩ := hlayout.active
      rw [hid, hnone] at hdata
      cases hdata
  | crashed hwriter honly hok htorn hfile =>
      rw [hnone] at hfile
      cases hfile

end OnDisk

/-! ## Where the reader stands -/

/-- The reader has returned the first of the stored records; the whole frames in
its cache are the next of them. -/
inductive Follows (stored returned : List Bytes) (r : WalReader) : Prop
  | waiting (hdata : r.currentData = none) (hid : r.currentSegmentId = 0)
      (hoffset : r.currentOffset = 0) (hreturned : returned = [])
  | reading {data : Bytes} {rest : List Bytes} (hdata : r.currentData = some data)
      (hid : r.currentSegmentId = 0) (hreads : Reads data r.currentOffset returned rest)
      (hstored : returned ++ rest <+: stored)

/-- `CacheHolds` for a reader. -/
def Holds (file : Bytes) (r : WalReader) : Prop :=
  ∀ data ∈ r.currentData, Stops data r.currentOffset r.currentSegmentId →
    file.length < data.length ∨ data <+: file

/-- What a poll does for a reader that follows the file. -/
def Answered (stored returned : List Bytes) : Except WalError (Option Bytes) × WalReader → Prop
  | (.ok (some payload), r) => Follows stored (returned ++ [payload]) r
  | (.ok none, r) => Follows stored returned r ∧ returned = stored
  | (.error _, _) => False

namespace Follows

variable {s : State} {returned : List Bytes} {r : WalReader}

/-- A reader follows what has grown. -/
theorem mono {stored stored' : List Bytes} (h : Follows stored returned r)
    (hle : stored <+: stored') : Follows stored' returned r := by
  cases h with
  | waiting hdata hid hoffset hreturned => exact .waiting hdata hid hoffset hreturned
  | reading hdata hid hreads hstored => exact .reading hdata hid hreads (hstored.trans hle)

/-- What the reader has returned is a front of what is stored. -/
theorem returned_isPrefix {stored : List Bytes} (h : Follows stored returned r) :
    returned <+: stored := by
  cases h with
  | waiting hdata hid hoffset hreturned =>
      rw [hreturned]
      exact List.nil_prefix
  | reading hdata hid hreads hstored => exact (List.prefix_append _ _).trans hstored

/-- A reader whose cache is the file. -/
theorem of_file (hdisk : OnDisk s) (hreturned : returned <+: stored s)
    (hdata : r.currentData = some (file s)) (hid : r.currentSegmentId = 0)
    (hoffset : r.currentOffset = (Framing.frames frame returned).length) :
    Follows (stored s) returned r ∧ Holds (file s) r := by
  obtain ⟨rest, hreads, hrest⟩ := hdisk.reads_file hreturned hoffset
  refine ⟨.reading hdata hid hreads ?_, fun data hdata' _ => ?_⟩
  · rw [hrest]
  · rw [hdata] at hdata'
    cases hdata'
    exact Or.inr List.prefix_rfl

/-- What a reader does when its cache has nothing more. -/
theorem advance (hdisk : OnDisk s) {data : Bytes} (hdata : r.currentData = some data)
    (hid : r.currentSegmentId = 0) (hreads : Reads data r.currentOffset returned [])
    (hstored : returned <+: stored s)
    (hcache : (file s).length < data.length ∨ data <+: file s) :
    match WalReader.continueOrEnd (r.advanceSegment s.dir) with
    | .inl answer => Answered (stored s) returned answer
    | .inr r' => Follows (stored s) returned r' ∧ Holds (file s) r' := by
  have hadvance := WalReader.advanceSegment_cases s.dir r hdata
  generalize r.advanceSegment s.dir = outcome at hadvance
  cases hadvance with
  | moved hnext hfile =>
      have := hdisk.eq_zero_of_mem (Dir.mem_keys_of_getElem? hfile)
      have := hnext.later
      omega
  | pruned hlast hgone =>
      rw [hid] at hgone
      have hnone := hdisk.stored_of_missing hgone
      refine ⟨.reading hdata hid hreads (by rwa [List.append_nil]), ?_⟩
      rw [hnone] at hstored ⊢
      exact List.prefix_nil.mp hstored
  | @shrunk data' hlast hfile hlen =>
      rw [hid] at hfile
      obtain rfl : data' = file s := (Dir.contents_of_some hfile).symm
      refine of_file hdisk hstored rfl hid ?_
      obtain ⟨torn, -, heq⟩ := hdisk.file_eq
      have hle := (Framing.frames_prefix (f := frame) hstored).length_le
      have hfit : (Framing.frames frame (stored s)).length ≤ (file s).length := by
        rw [heq, List.length_append]
        omega
      change min r.currentOffset (file s).length = _
      rw [hreads.offset_eq]
      omega
  | @unchanged data' hlast hfile hlen =>
      rw [hid] at hfile
      obtain rfl : data' = file s := (Dir.contents_of_some hfile).symm
      have hsame : data = file s :=
        (hcache.resolve_left (by omega)).eq_of_length hlen.symm
      obtain ⟨rest, hrest, hall⟩ := hdisk.reads_file hstored hreads.offset_eq
      rw [← hsame] at hrest
      rw [hrest.eq_nil_of_stops (hreads.stops 0), List.append_nil] at hall
      exact ⟨.reading hdata hid hreads (by rwa [List.append_nil]), hall⟩
  | @grown data' hlast hfile hlen =>
      rw [hid] at hfile
      obtain rfl : data' = file s := (Dir.contents_of_some hfile).symm
      have htop : data ++ (file s).drop data.length = file s := by
        obtain ⟨more, hmore⟩ := hcache.resolve_left (by omega)
        rw [← hmore, List.drop_left]
      exact of_file hdisk hstored (by simp only [htop]) hid hreads.offset_eq

/-- One turn of `next`. -/
theorem nextStep (hdisk : OnDisk s) (h : Follows (stored s) returned r)
    (hcache : Holds (file s) r) :
    match r.nextStep s.dir with
    | .inl answer => Answered (stored s) returned answer
    | .inr r' => Follows (stored s) returned r' ∧ Holds (file s) r' := by
  cases h with
  | waiting hdata hid hoffset hreturned =>
      have hpre : returned <+: stored s := by
        rw [hreturned]
        exact List.nil_prefix
      rw [WalReader.nextStep_of_unloaded hdata]
      have hreload := WalReader.reloadWhenUnloaded_cases s.dir r
      generalize r.reloadWhenUnloaded s.dir = outcome at hreload
      cases hreload with
      | appeared hfile =>
          rw [hid] at hfile
          refine of_file hdisk hpre (congrArg some (Dir.contents_of_some hfile).symm) hid ?_
          rw [hreturned]
          exact hoffset
      | jumped hgone hearliest hlater hfile =>
          have := hdisk.eq_zero_of_mem (Dir.mem_keys_of_getElem? hfile)
          omega
      | waiting hgone hfirst =>
          rw [hid] at hgone
          refine ⟨.waiting hdata hid hoffset hreturned, ?_⟩
          rw [hreturned, hdisk.stored_of_missing hgone]
  | @reading data rest hdata hid hreads hstored =>
      cases rest with
      | nil =>
          have hstop := hreads.stops r.currentSegmentId
          rw [WalReader.nextStep_of_stops hdata hstop]
          rw [List.append_nil] at hstored
          exact advance hdisk hdata hid hreads hstored (hcache data hdata hstop)
      | cons payload rest =>
          rw [WalReader.nextStep_of_record hdata (hreads.next _)]
          refine .reading hdata hid hreads.take ?_
          rwa [List.append_assoc, List.singleton_append]

/-- What the reader answers when it follows the file. -/
theorem next (hdisk : OnDisk s) (h : Follows (stored s) returned r)
    (hcache : Holds (file s) r) : Answered (stored s) returned (r.next s.dir) := by
  refine Loop.iterate_rule _ (fun r => Follows (stored s) returned r ∧ Holds (file s) r) _
    ?_ ?_ ⟨h, hcache⟩
  · intro r r' hr hstep
    have := nextStep hdisk hr.1 hr.2
    rwa [hstep] at this
  · intro r answer hr hstep
    have := nextStep hdisk hr.1 hr.2
    rwa [hstep] at this

end Follows

/-! ## Runs -/

/-- What holds in every state. -/
structure Inv (s : State) : Prop where
  disk : OnDisk s
  unread : s.reader = none → s.returned = []
  follows : ∀ r ∈ s.reader, Follows (stored s) s.returned r

namespace Inv

variable {s : State}

/-- The empty directory satisfies the invariant. -/
theorem init : Inv .init :=
  ⟨.missing rfl rfl rfl, fun _ => rfl, fun _ hr => (nomatch hr)⟩

/-- A step that does not touch the reader and loses no stored record. -/
theorem of_stored_prefix {s' : State} (h : Inv s) (hdisk : OnDisk s')
    (hreader : s'.reader = s.reader) (hreturned : s'.returned = s.returned)
    (hstored : stored s <+: stored s') : Inv s' := by
  refine ⟨hdisk, fun hnone => ?_, fun r hr => ?_⟩
  · rw [hreturned, h.unread (by rw [← hreader]; exact hnone)]
  · rw [hreader] at hr
    rw [hreturned]
    exact (h.follows r hr).mono hstored

/-- Recovery truncates the file to the whole frames. -/
theorem openDir_crashed (config : WalConfig) {dir : Dir} {log : List Bytes} {torn : Bytes}
    (honly : ∀ id ∈ dir.keys, id = 0) (hok : ∀ r ∈ log, Recordable r)
    (htorn : Framing.Torn frame Recordable torn)
    (hfile : dir[0]? = some (Framing.frames frame log ++ torn)) :
    (WalWriter.openDir config dir).1 =
        ⟨config, ⟨0, (Framing.frames frame log).length, []⟩, 1⟩ ∧
      ∀ id, (WalWriter.openDir config dir).2[id]? =
        if id = 0 then some (Framing.frames frame log) else none := by
  have hlast : dir.keys.getLast? = some 0 := by
    cases hkeys : dir.keys.getLast? with
    | none =>
        have hmem := Dir.mem_keys_of_getElem? hfile
        rw [List.getLast?_eq_none_iff.mp hkeys] at hmem
        cases hmem
    | some id => rw [honly id (List.mem_of_getLast? hkeys)]
  have hother : ∀ id, id ≠ 0 → dir[id]? = none := by
    intro id hid
    cases hget : dir[id]? with
    | none => rfl
    | some data => exact absurd (honly id (Dir.mem_keys_of_getElem? hget)) hid
  have hend := scanValidEnd_eq 0 hok htorn rfl
  rw [← Dir.contents_of_some hfile] at hend
  simp only [WalWriter.openDir, hlast, Segment.openAppend, hend, true_and]
  intro id
  split
  · rw [TreeMapLookup.getElem?_insert, Dir.contents_of_some hfile, List.take_left]
    split
    · rfl
    · rename_i hid
      exact hother id hid
  · rename_i hlen
    split
    · rename_i hid
      rw [Dir.contents_of_some hfile, List.length_append] at hlen
      have hnil : torn = [] := List.eq_nil_of_length_eq_zero (by omega)
      rw [hid, hfile, hnil, List.append_nil]
    · rename_i hid
      exact hother id hid

/-- Opening a writer keeps the invariant. -/
theorem openWriter (config : WalConfig) (h : Inv s) :
    Inv (Tail.step config s .openWriter) := by
  have hdisk := h.disk
  cases hdisk with
  | missing hwriter hdir hlog =>
      rw [Tail.step_openWriter config hwriter]
      refine h.of_stored_prefix (.written rfl ?_ ?_) rfl rfl ?_
      · rw [hdir]
        rfl
      · change Layout (WalWriter.openDir config s.dir).2 (WalWriter.openDir config s.dir).1 _
        simpa only [hdir, hlog, ite_self] using Layout.openDir config
      · simp [stored, hlog, Framing.fitting]
  | written hwriter hid hlayout =>
      rwa [Tail.step_openWriter_of_some config hwriter]
  | crashed hwriter honly hok htorn hfile =>
      obtain ⟨hopen, hlookup⟩ := openDir_crashed config honly hok htorn hfile
      rw [Tail.step_openWriter config hwriter]
      have hfile' : file { s with
          writer := some (WalWriter.openDir config s.dir).1
          dir := (WalWriter.openDir config s.dir).2 } = Framing.frames frame s.log :=
        Dir.contents_of_some (by rw [hlookup, if_pos rfl])
      refine h.of_stored_prefix (.written rfl ?_ ?_) rfl rfl ?_
      · rw [hopen]
      · rw [hopen]
        refine ⟨rfl, fun id data hid => ?_, ?_, fun id data hid => ?_, fun id r hr => ?_,
          fun id hid => ?_, rfl⟩
        · rw [hlookup] at hid
          split at hid
          · rename_i hzero
            exact Nat.le_of_eq hzero
          · cases hid
        · exact ⟨_, by rw [hlookup, if_pos rfl]⟩
        · rw [hlookup] at hid
          split at hid
          · rename_i hzero
            cases hid
            rw [if_pos hzero]
            simp [WalWriter.pending]
          · cases hid
        · split at hr
          · exact hok r hr
          · cases hr
        · exact if_neg (Nat.ne_of_gt hid)
      · refine (OnDisk.stored_prefix_log s).trans ?_
        change s.log <+: Framing.fitting frame (file _).length s.log
        rw [hfile', Framing.fitting_frames]

/-- A partial write keeps the invariant. -/
theorem spill (config : WalConfig) (k : Nat) (h : Inv s) :
    Inv (Tail.step config s (.spill k)) := by
  cases hcase : s.writer with
  | none => rwa [Tail.step_of_closed config hcase (by simp)]
  | some w =>
      have hdisk := h.disk
      cases hdisk with
      | missing hwriter hdir hlog => simp [hcase] at hwriter
      | written hwriter hid hlayout =>
          rw [hcase] at hwriter
          cases hwriter
          rw [Tail.step_spill config hcase]
          refine h.of_stored_prefix (.written rfl hid (hlayout.spill k)) rfl rfl ?_
          refine Framing.fitting_mono ?_ s.log
          change (s.dir.contents 0).length ≤ ((w.spill k s.dir).2.contents 0).length
          rw [WalWriter.contents_spill, if_pos hid.symm, List.length_append]
          omega
      | crashed hwriter honly hok htorn hfile => simp [hcase] at hwriter

/-- A flush keeps the invariant. -/
theorem flush (config : WalConfig) (h : Inv s) : Inv (Tail.step config s .flush) := by
  cases hcase : s.writer with
  | none => rwa [Tail.step_of_closed config hcase (by simp)]
  | some w =>
      rw [Tail.step_flush config hcase]
      exact h.spill config _

/-- An append keeps the invariant, if the segment has room. -/
theorem append (config : WalConfig) (payload : Payload) (h : Inv s)
    (hroom : ∀ w ∈ s.writer, w.rotates payload.bytes = false) :
    Inv (Tail.step config s (.append payload)) := by
  cases hcase : s.writer with
  | none => rwa [Tail.step_of_closed config hcase (by simp)]
  | some w =>
      have hdisk := h.disk
      cases hdisk with
      | missing hwriter hdir hlog => simp [hcase] at hwriter
      | written hwriter hid hlayout =>
          rw [hcase] at hwriter
          cases hwriter
          have hstay : w.makeRoom payload.bytes s.dir = (w, s.dir) := by
            rw [WalWriter.makeRoom, hroom w hcase]
            rfl
          obtain ⟨hok, hstep⟩ | hstep := Tail.step_append_cases config hcase payload
          · rw [hstep, hstay]
            refine h.of_stored_prefix (.written rfl hid ?_) rfl rfl ?_
            · have hlog : recordIn (fun id => if id = 0 then s.log else []) w.active.id
                  payload.bytes = fun id => if id = 0 then s.log ++ [payload.bytes] else [] := by
                funext id
                rw [recordIn, hid]
                split
                · rfl
                · rfl
              rw [← hlog]
              exact hlayout.record hok
            · obtain ⟨data, hdata⟩ := hlayout.active
              rw [hid] at hdata
              have hle : (file s).length ≤ (Framing.frames frame s.log).length := by
                rw [file, Dir.contents_of_some hdata]
                exact (hlayout.stored_prefix hdata).length_le
              change Framing.fitting frame (file s).length s.log <+:
                Framing.fitting frame (file s).length (s.log ++ [payload.bytes])
              rw [Framing.fitting_append_of_le frame_ne_nil hle]
          · have hsame : Tail.step config s (.append payload) = s := by
              rw [hstep, hstay, ← hcase]
            rwa [hsame]
      | crashed hwriter honly hok htorn hfile => simp [hcase] at hwriter

/-- A crash keeps the invariant. -/
theorem crash (config : WalConfig) (h : Inv s) : Inv (step config s .crash) := by
  have hfit : (Framing.frames frame (stored s)).length ≤ (file s).length := by
    obtain ⟨torn, -, hfile⟩ := h.disk.file_eq
    rw [hfile, List.length_append]
    omega
  refine h.of_stored_prefix ?_ rfl rfl ?_
  · obtain ⟨torn, htorn, hfile⟩ := h.disk.file_eq
    cases hnone : s.dir[0]? with
    | none =>
        have hlog := h.disk.stored_of_missing hnone
        cases h.disk with
        | missing hwriter hdir _ => exact .missing rfl hdir hlog
        | written hwriter hid hlayout =>
            obtain ⟨data, hdata⟩ := hlayout.active
            rw [hid, hnone] at hdata
            cases hdata
        | crashed hwriter honly hok htorn hfile =>
            rw [hnone] at hfile
            cases hfile
    | some data =>
        have hdata : data = file s := (Dir.contents_of_some hnone).symm
        refine .crashed rfl (fun id hid => h.disk.eq_zero_of_mem hid) (fun r hr => ?_) htorn ?_
        · exact h.disk.recordable r ((OnDisk.stored_prefix_log s).subset hr)
        · change s.dir[0]? = some (Framing.frames frame (stored s) ++ torn)
          rw [← hfile, ← hdata]
          exact hnone
  · change stored s <+: Framing.fitting frame (file s).length (stored s)
    rw [Framing.fitting_eq_self hfit]

/-- Opening the reader keeps the invariant. -/
theorem openReader (config : WalConfig) (h : Inv s) :
    Inv (Tail.step config s .openReader) := by
  cases hcase : s.reader with
  | some r => rwa [Tail.step_openReader_of_some config hcase]
  | none =>
      rw [Tail.step_openReader config hcase]
      refine ⟨?_, fun hnone => (nomatch hnone), fun r hr => ?_⟩
      · cases h.disk with
        | missing hwriter hdir hlog => exact .missing hwriter hdir hlog
        | written hwriter hid hlayout => exact .written hwriter hid hlayout
        | crashed hwriter honly hok htorn hfile => exact .crashed hwriter honly hok htorn hfile
      · obtain rfl := Option.some.inj hr
        have hreturned := h.unread hcase
        change Follows (stored s) s.returned _
        cases hget : s.dir[0]? with
        | none =>
            have hempty : s.dir.keys = [] := by
              refine List.eq_nil_iff_forall_not_mem.mpr fun id hid => ?_
              obtain ⟨data, hdata⟩ := Dir.getElem?_of_mem_keys hid
              rw [h.disk.eq_zero_of_mem hid, hget] at hdata
              cases hdata
            refine .waiting ?_ ?_ ?_ hreturned
            all_goals
              simp [WalReader.openDir, WalReader.openAt, WalReader.loadSegment, loadPosition,
                hempty, hget]
        | some data =>
            have hpre : s.returned <+: stored s := by
              rw [hreturned]
              exact List.nil_prefix
            rw [WalReader.openDir_of_zero "tail" hget]
            refine (Follows.of_file h.disk hpre ?_ rfl ?_).1
            · exact congrArg some (Dir.contents_of_some hget).symm
            · rw [hreturned]
              rfl

/-- What `next` answers in a state of a run. -/
theorem next (h : Inv s) {r : WalReader} (hr : s.reader = some r) (hcache : Holds (file s) r) :
    Inv (s.answered (r.next s.dir)) ∧
      ((∃ payload, (r.next s.dir).1 = .ok (some payload)) ∨
        (r.next s.dir).1 = .ok none ∧ s.returned = stored s) := by
  have hnext := (h.follows r hr).next h.disk hcache
  have hdisk : ∀ reader returned,
      OnDisk { s with reader := reader, returned := returned } := by
    intro reader returned
    cases h.disk with
    | missing hwriter hdir hlog => exact .missing hwriter hdir hlog
    | written hwriter hid hlayout => exact .written hwriter hid hlayout
    | crashed hwriter honly hok htorn hfile => exact .crashed hwriter honly hok htorn hfile
  generalize r.next s.dir = answer at hnext ⊢
  obtain ⟨result, r'⟩ := answer
  cases result with
  | error e => exact hnext.elim
  | ok answer =>
      cases answer with
      | some payload =>
          refine ⟨⟨hdisk _ _, fun hnone => (nomatch hnone), fun r'' hr'' => ?_⟩,
            Or.inl ⟨payload, rfl⟩⟩
          obtain rfl := Option.some.inj hr''
          exact hnext
      | none =>
          refine ⟨⟨hdisk _ s.returned, fun hnone => (nomatch hnone), fun r'' hr'' => ?_⟩,
            Or.inr ⟨rfl, hnext.2⟩⟩
          obtain rfl := Option.some.inj hr''
          exact hnext.1

/-- Every event that meets the two conditions keeps the invariant. -/
theorem step (config : WalConfig) (e : Event) (h : Inv s)
    (hok : NoRotation s e ∧ CacheHolds s e) : Inv (step config s e) := by
  cases e with
  | crash => exact h.crash config
  | run e =>
      cases e with
      | openWriter => exact h.openWriter config
      | append payload => exact h.append config payload hok.1
      | spill k => exact h.spill config k
      | flush => exact h.flush config
      | openReader => exact h.openReader config
      | poll =>
          cases hcase : s.reader with
          | none =>
              change Inv (Tail.step config s .poll)
              rwa [Tail.step_poll_of_none config hcase]
          | some r =>
              change Inv (Tail.step config s .poll)
              rw [Tail.step_poll config hcase]
              exact (h.next hcase (hok.2 r hcase)).1

/-- What the reader has returned is a front of the log. -/
theorem returned_isPrefix (h : Inv s) : s.returned <+: s.log := by
  cases hcase : s.reader with
  | none =>
      rw [h.unread hcase]
      exact List.nil_prefix
  | some r =>
      exact (h.follows r hcase).returned_isPrefix.trans (OnDisk.stored_prefix_log s)

/-- Once the writer has flushed, every record is in the file. -/
theorem stored_of_flushed (h : Inv s) (hflushed : s.flushed = true)
    (hwriter : s.writer.isSome = true) : stored s = s.log := by
  obtain ⟨w, hw⟩ := Option.isSome_iff_exists.mp hwriter
  cases h.disk with
  | missing hnone hdir hlog => simp [hw] at hnone
  | crashed hnone honly hok htorn hfile => simp [hw] at hnone
  | written hw' hid hlayout =>
      rw [hw] at hw'
      cases hw'
      have hbuffer : w.active.buffer = [] := by simpa [State.flushed, hw] using hflushed
      obtain ⟨data, hdata⟩ := hlayout.active
      have hstored := hlayout.stored _ _ hdata
      rw [w.pending_active, hbuffer, List.append_nil, hid, if_pos rfl] at hstored
      rw [hid] at hdata
      rw [stored, file, Dir.contents_of_some hdata, hstored, Framing.fitting_frames]

end Inv

/-- The invariant holds in every run whose steps meet the two conditions. -/
theorem Inv.run (config : WalConfig) {events : List Event}
    (hroom : Runs.Meets (TornTail.step config) NoRotation .init events)
    (hcache : Runs.Meets (TornTail.step config) CacheHolds .init events) :
    Inv (Runs.run (TornTail.step config) .init events) :=
  Runs.Meets.induction (fun _ e h => h.step config e) init (hroom.and hcache)

/-- A poll is a turn of the run. -/
theorem run_poll (config : WalConfig) (s : State) (events : List Event) :
    Runs.run (step config) s (.run .poll :: events) =
      Runs.run (step config) (Tail.step config s .poll) events := rfl

/-- Polls take the rest, one record each, and then find nothing. -/
theorem drain (config : WalConfig) (n : Nat) {s : State} (h : Inv s)
    (hflushed : s.flushed = true) (hwriter : s.writer.isSome = true) {r : WalReader}
    (hr : s.reader = some r) (hn : s.log.length = s.returned.length + n)
    (hcache : Runs.Meets (step config) CacheHolds s (List.replicate (n + 1) (.run .poll))) :
    (Runs.run (step config) s (List.replicate n (.run .poll))).returned = s.log ∧
      (Runs.run (step config) s (List.replicate n (.run .poll))).answer = some (.ok none) := by
  induction n generalizing s r with
  | zero =>
      have hall : s.returned = s.log := h.returned_isPrefix.eq_of_length (by omega)
      refine ⟨hall, ?_⟩
      obtain ⟨hinv, ⟨payload, hpayload⟩ | ⟨hnone, -⟩⟩ := h.next hr (hcache.1 r hr)
      · -- one more record would not be a prefix of the log
        have hmore := hinv.returned_isPrefix.length_le
        generalize r.next s.dir = answer at hpayload hmore
        obtain ⟨result, r'⟩ := answer
        cases hpayload
        simp only [State.answered, List.length_append, List.length_singleton] at hmore
        omega
      · change s.reader.map _ = _
        rw [hr]
        exact congrArg some hnone
  | succ n ih =>
      obtain ⟨hinv, hanswer⟩ := h.next hr (hcache.1 r hr)
      have hrest := hcache.2
      change Runs.Meets (step config) CacheHolds (Tail.step config s .poll) _ at hrest
      rw [Tail.step_poll config hr] at hrest
      rw [List.replicate_succ, run_poll, Tail.step_poll config hr]
      obtain ⟨payload, hpayload⟩ | ⟨-, hall⟩ := hanswer
      · generalize r.next s.dir = answer at hpayload hinv hrest
        obtain ⟨result, r'⟩ := answer
        cases hpayload
        refine ih hinv hflushed hwriter rfl ?_ hrest
        simp only [State.answered, List.length_append, List.length_singleton]
        omega
      · have := congrArg List.length (hall.trans (h.stored_of_flushed hflushed hwriter))
        omega

/-- **A crash loses only what had not reached the file.**  In a run on one segment
whose polls meet `CacheHolds`, what was returned is a prefix of the log; once the
writer has flushed, a poll that finds nothing has been preceded by every record of
the log, and as many polls as there are records left take them all. -/
theorem crash_delivery_exact (config : WalConfig) (events : List Event)
    (hroom : Runs.Meets (step config) NoRotation .init events)
    (hcache : Runs.Meets (step config) CacheHolds .init events) :
    let s := Runs.run (step config) .init events
    s.returned <+: s.log ∧
      (s.flushed = true → s.writer.isSome = true → CacheHolds s (.run .poll) →
        s.answer = some (.ok none) → s.returned = s.log) ∧
      (s.flushed = true → s.writer.isSome = true → s.reader.isSome = true →
        let left := s.log.length - s.returned.length
        Runs.Meets (step config) CacheHolds s (List.replicate (left + 1) (.run .poll)) →
          (Runs.run (step config) s (List.replicate left (.run .poll))).returned = s.log ∧
            (Runs.run (step config) s (List.replicate left (.run .poll))).answer =
              some (.ok none)) := by
  intro s
  have hinv : Inv s := Inv.run config hroom hcache
  refine ⟨hinv.returned_isPrefix, fun hflushed hwriter hpoll hanswer => ?_, ?_⟩
  · cases hr : s.reader with
    | none => simp [State.answer, hr] at hanswer
    | some r =>
        obtain ⟨-, ⟨payload, hpayload⟩ | ⟨-, hall⟩⟩ := hinv.next hr (hpoll r hr)
        · simp [State.answer, hr, hpayload] at hanswer
        · rw [hall, hinv.stored_of_flushed hflushed hwriter]
  · intro hflushed hwriter hreader left hpolls
    obtain ⟨r, hr⟩ := Option.isSome_iff_exists.mp hreader
    have := hinv.returned_isPrefix.length_le
    exact drain config _ hinv hflushed hwriter hr (by omega) hpolls

end

namespace Sample

/-- Room for everything below in one segment. -/
def roomy : WalConfig := ⟨1000, 16, 1000⟩

/-- A record is appended. -/
def append (payload : Payload) : Event := .run (.append payload)

/-- The reader caches a torn frame, and polls again when the file is shorter than
that. -/
def shorterRun : List Event :=
  [.run .openWriter, append (.cons 1 []), .run .flush,
    append (.cons 2 [2, 2]), .run (.spill 10), .run .openReader, .run .poll,
    .run .poll, .crash, .run .openWriter, append (.cons 3 []), .run .flush,
    .run .poll]

/-- The file has grown back to the length of the cached copy. -/
def regrownRun : List Event :=
  [.run .openWriter, append (.cons 1 []), .run .flush,
    append (.cons 2 [2]), .run (.spill 9), .run .openReader, .run .poll,
    .run .poll, .crash, .run .openWriter, append (.cons 3 []), .run .flush]

end Sample

/-- A recovery the reader notices. -/
theorem crash_delivery_exact_shorterRun :
    (Runs.run (step Sample.roomy) .init Sample.shorterRun).returned <+:
      (Runs.run (step Sample.roomy) .init Sample.shorterRun).log :=
  (crash_delivery_exact Sample.roomy Sample.shorterRun (by decide +kernel)
    (by decide +kernel)).1

/-- A recovery the reader does not notice: nothing is torn any more and everything
is flushed, but the reader finds nothing to read. -/
theorem regrown_file_stalls_reader :
    (Runs.run (step Sample.roomy) .init Sample.regrownRun).flushed = true ∧
      (Runs.run (step Sample.roomy) .init Sample.regrownRun).answer = some (.ok none) ∧
      (Runs.run (step Sample.roomy) .init Sample.regrownRun).returned ≠
        (Runs.run (step Sample.roomy) .init Sample.regrownRun).log := by
  decide +kernel

end PolyBook.Wal.TornTail
