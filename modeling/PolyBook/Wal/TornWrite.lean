import PolyBook.Wal.Scan
import PolyBook.Wal.Writer

/-!
# Recovery of a torn write

A crash may leave any prefix of what was written to a segment, and zeros after
whole frames.  `Segment::open_append` cuts the file back to its last whole frame,
and what is appended from there on is read after the records that survived.
-/

namespace PolyBook.Wal

namespace Segment

variable [Crc32c]

/-- `Segment::append` of one payload after another. -/
def appendAll (s : Segment) : List Bytes → Except WalError Segment
  | [] => .ok s
  | payload :: payloads =>
      match s.append payload with
      | .error e => .error e
      | .ok (s, _) => s.appendAll payloads

/-- The payloads are appended and flushed. -/
def write (s : Segment) (payloads : List Bytes) (dir : Dir) : Except WalError (Segment × Dir) :=
  match s.appendAll payloads with
  | .error e => .error e
  | .ok s => .ok (s.flush dir)

theorem append_of_recordable (s : Segment) {payload : Bytes} (h : Recordable payload) :
    s.append payload = .ok (⟨s.id, s.writeOffset + (frame payload).length,
      s.buffer ++ frame payload⟩, s.writeOffset) := by
  unfold append
  rw [if_neg (Nat.not_lt.mpr h.le_max), frame_length]

theorem appendAll_eq {payloads : List Bytes} (h : ∀ r ∈ payloads, Recordable r) (s : Segment) :
    s.appendAll payloads = .ok ⟨s.id, s.writeOffset + (Framing.frames frame payloads).length,
      s.buffer ++ Framing.frames frame payloads⟩ := by
  induction payloads generalizing s with
  | nil => simp [appendAll]
  | cons payload payloads ih =>
      have hrest : ∀ r ∈ payloads, Recordable r := fun r hr => h r (List.mem_cons_of_mem _ hr)
      simp only [appendAll, append_of_recordable s (h payload List.mem_cons_self), ih hrest,
        Framing.frames_cons, List.length_append, List.append_assoc, Nat.add_assoc]

/-- Accepted payloads are written, one frame after another. -/
theorem write_eq {payloads : List Bytes} (h : ∀ r ∈ payloads, Recordable r) {s : Segment}
    (hbuffer : s.buffer = []) (dir : Dir) :
    s.write payloads dir =
      .ok (⟨s.id, s.writeOffset + (Framing.frames frame payloads).length, []⟩,
        dir.insert s.id (dir.contents s.id ++ Framing.frames frame payloads)) := by
  simp only [write, appendAll_eq h, flush, spill, hbuffer, List.nil_append, List.drop_length,
    List.take_length]

end Segment

/-- What a crash leaves of the frames: a prefix, and zeros that the system has filled
in. -/
def tornFile [Crc32c] (payloads : List Bytes) (cut zeros : Nat) : Bytes :=
  (Framing.frames frame payloads).take cut ++ List.replicate zeros 0

/-- The cut falls between two frames. -/
def AtBoundary [Crc32c] (payloads : List Bytes) (cut : Nat) : Prop :=
  ∃ done, done <+: payloads ∧ (Framing.frames frame done).length = cut

section Recovery

variable [Crc32c] {payloads : List Bytes} {cut zeros : Nat}

/-- Zeros end the data. -/
theorem stops_of_zeros {data : Bytes} {offset n : Nat} (h : data.drop offset = List.replicate n 0)
    (segmentId : Nat) : Stops data offset segmentId := by
  have hlen : recordLen data offset = 0 := by
    rw [recordLen, h, List.take_replicate]
    by_cases hfour : 4 ≤ n
    · rw [Nat.min_eq_left hfour]
      decide
    · have hmin : min 4 n = 0 ∨ min 4 n = 1 ∨ min 4 n = 2 ∨ min 4 n = 3 := by omega
      rcases hmin with hmin | hmin | hmin | hmin
      all_goals
        rw [hmin]
        decide
  left
  unfold readRecordAt
  split
  · rfl
  · split
    · rfl
    · simp only [hlen, if_true]

/-- The records before a boundary are those that fit. -/
theorem fitting_of_boundary {done : List Bytes} (hdone : done <+: payloads) :
    Framing.fitting frame (Framing.frames frame done).length payloads = done := by
  obtain ⟨more, rfl⟩ := hdone
  rw [Framing.fitting_append_of_le frame_ne_nil (Nat.le_refl _), Framing.fitting_frames]

/-- The torn file is the frames that fit before the cut, and then nothing to read. -/
theorem tornFile_eq (hpayloads : ∀ r ∈ payloads, Recordable r)
    (hzeros : zeros = 0 ∨ AtBoundary payloads cut) (segmentId : Nat) :
    ∃ tail, tornFile payloads cut zeros =
        Framing.frames frame (Framing.fitting frame cut payloads) ++ tail ∧
      Stops (tornFile payloads cut zeros)
        (Framing.frames frame (Framing.fitting frame cut payloads)).length segmentId := by
  rcases hzeros with rfl | ⟨done, hdone, rfl⟩
  · have hfile : tornFile payloads cut 0 = (Framing.frames frame payloads).take cut := by
      rw [tornFile, List.replicate_zero, List.append_nil]
    obtain ⟨torn, htorn, heq⟩ :=
      Framing.eq_frames_append_torn hpayloads (List.take_prefix cut (Framing.frames frame payloads))
    have hfit : Framing.fitting frame ((Framing.frames frame payloads).take cut).length payloads =
        Framing.fitting frame cut payloads := by
      rw [List.length_take]
      by_cases hcut : cut ≤ (Framing.frames frame payloads).length
      · rw [Nat.min_eq_left hcut]
      · rw [Nat.min_eq_right (by omega), Framing.fitting_eq_self (Nat.le_refl _),
          Framing.fitting_eq_self (by omega)]
    rw [hfit] at heq
    refine ⟨torn, by rw [hfile, heq], ?_⟩
    apply stops_of_torn
    rw [hfile, heq, List.drop_left]
    exact htorn
  · have hfile : tornFile payloads (Framing.frames frame done).length zeros =
        Framing.frames frame done ++ List.replicate zeros 0 := by
      obtain ⟨more, rfl⟩ := hdone
      rw [tornFile, Framing.frames_append, List.take_left]
    rw [fitting_of_boundary hdone]
    refine ⟨_, hfile, ?_⟩
    apply stops_of_zeros (n := zeros)
    rw [hfile, List.drop_left]

/-- The scan of a file stops after its whole frames. -/
theorem scanValidEnd_of_stops {data tail : Bytes} {recs : List Bytes} {segmentId : Nat}
    (hrecs : ∀ r ∈ recs, Recordable r) (hdata : data = Framing.frames frame recs ++ tail)
    (hstops : Stops data (Framing.frames frame recs).length segmentId) :
    scanValidEnd data segmentId = (Framing.frames frame recs).length := by
  have hstep : scanStep data segmentId (Framing.frames frame recs).length =
      .inl (Framing.frames frame recs).length := by
    unfold scanStep
    rcases hstops with hread | hread
    · rw [hread]
    · rw [hread]
  have hdrop : data.drop 0 = Framing.frames frame recs ++ tail := by rw [List.drop_zero, hdata]
  rw [scanValidEnd, iterate_scanStep_of_frames segmentId hrecs hdrop, Nat.zero_add,
    Loop.iterate_of_inl _ hstep]

/-- A file of whole frames is opened as it is. -/
theorem openAppend_of_frames {recs : List Bytes} (hrecs : ∀ r ∈ recs, Recordable r) {dir : Dir}
    {id : Nat} (hfile : dir.contents id = Framing.frames frame recs) :
    Segment.openAppend id dir = (⟨id, (Framing.frames frame recs).length, []⟩, dir) := by
  have hend : scanValidEnd (dir.contents id) id = (Framing.frames frame recs).length :=
    scanValidEnd_eq id hrecs Framing.torn_nil (by rw [hfile, List.append_nil])
  rw [Segment.openAppend, hend, hfile, if_neg (Nat.lt_irrefl _)]

/-- A file that goes on after its whole frames is cut back to them. -/
theorem openAppend_of_stops {recs : List Bytes} (hrecs : ∀ r ∈ recs, Recordable r) {dir : Dir}
    {id : Nat} {tail : Bytes} (hfile : dir.contents id = Framing.frames frame recs ++ tail)
    (hstops : Stops (dir.contents id) (Framing.frames frame recs).length id) :
    (Segment.openAppend id dir).1 = ⟨id, (Framing.frames frame recs).length, []⟩ ∧
      (Segment.openAppend id dir).2.contents id = Framing.frames frame recs ∧
      ∀ other, other ≠ id → (Segment.openAppend id dir).2[other]? = dir[other]? := by
  have hend := scanValidEnd_of_stops hrecs hfile hstops
  have hopen : Segment.openAppend id dir = (⟨id, (Framing.frames frame recs).length, []⟩,
      if (Framing.frames frame recs).length < (dir.contents id).length then
        dir.insert id ((dir.contents id).take (Framing.frames frame recs).length) else dir) := by
    rw [Segment.openAppend, hend]
  rw [hopen]
  refine ⟨rfl, ?_, ?_⟩
  · dsimp only
    split
    · rw [Dir.contents, TreeMapLookup.getElem?_insert, if_pos rfl, Option.getD_some, hfile,
        List.take_left]
    · rename_i hlong
      have hnil : tail = [] := by
        rw [hfile, List.length_append] at hlong
        apply List.eq_nil_of_length_eq_zero
        omega
      rw [hfile, hnil, List.append_nil]
  · intro other hother
    dsimp only
    split
    · rw [TreeMapLookup.getElem?_insert, if_neg hother]
    · rfl

/-- `read_record_at` from the beginning, as long as there are frames. -/
def readSegment (id : Nat) (data : Bytes) : List (Option Bytes) :=
  (framesFrom data id 0).map (·.payload)

theorem readSegment_frames {recs : List Bytes} (hrecs : ∀ r ∈ recs, Recordable r) (id : Nat) :
    readSegment id (Framing.frames frame recs) = recs.map some := by
  have hreads : Reads (Framing.frames frame recs) 0 [] recs :=
    ⟨rfl, ⟨[], Framing.torn_nil, (List.append_nil _).symm⟩, hrecs⟩
  rw [readSegment, hreads.framesFrom_eq id, List.map_map]
  conv_rhs => rw [← map_snd_endings id 0 recs, List.map_map]
  rfl

/-- The records that lie wholly before the cut. -/
structure Surviving (payloads : List Bytes) (cut : Nat) (kept : List Bytes) : Prop where
  isPrefix : kept <+: payloads
  before : (Framing.frames frame kept).length ≤ cut
  largest : ∀ done, done <+: payloads → (Framing.frames frame done).length ≤ cut → done <+: kept

/-- **Torn-write recovery keeps exactly the surviving prefix.** -/
theorem torn_write_keeps_prefix (id : Nat) (dir : Dir) (hpayloads : ∀ r ∈ payloads, Recordable r)
    (hzeros : zeros = 0 ∨ AtBoundary payloads cut) :
    ∃ s written, (Segment.create id dir).1.write payloads (Segment.create id dir).2 =
        .ok (s, written) ∧
      ∀ torn : Dir, torn = written.insert id
          ((written.contents id).take cut ++ List.replicate zeros 0) →
        ∃ kept, Surviving payloads cut kept ∧
          (Segment.openAppend id torn).1 = ⟨id, (Framing.frames frame kept).length, []⟩ ∧
          (Segment.openAppend id torn).2.contents id = Framing.frames frame kept ∧
          Segment.openAppend id (Segment.openAppend id torn).2 = Segment.openAppend id torn ∧
          ∀ more, (∀ r ∈ more, Recordable r) → ∃ s' final,
            (Segment.openAppend id torn).1.write more (Segment.openAppend id torn).2 =
              .ok (s', final) ∧
            readSegment id (final.contents id) = (kept ++ more).map some ∧
            Segment.openAppend id final = (s', final) := by
  have hwritten : Dir.contents (dir.insert id []) id = [] := by
    rw [Dir.contents, TreeMapLookup.getElem?_insert, if_pos rfl, Option.getD_some]
  refine ⟨_, _, Segment.write_eq hpayloads rfl _, fun torn htorn => ?_⟩
  have hfile : torn.contents id = tornFile payloads cut zeros := by
    rw [htorn, Dir.contents, TreeMapLookup.getElem?_insert, if_pos rfl, Option.getD_some,
      Dir.contents, Segment.create, TreeMapLookup.getElem?_insert, if_pos rfl, Option.getD_some,
      hwritten, List.nil_append, tornFile]
  have hkept : ∀ r ∈ Framing.fitting frame cut payloads, Recordable r :=
    fun r hr => hpayloads r ((Framing.fitting_isPrefix cut payloads).subset hr)
  obtain ⟨tail, htail, hstops⟩ := tornFile_eq hpayloads hzeros id
  rw [← hfile] at htail hstops
  obtain ⟨hsegment, hrecovered, -⟩ := openAppend_of_stops hkept htail hstops
  refine ⟨Framing.fitting frame cut payloads,
    ⟨Framing.fitting_isPrefix cut payloads, Framing.length_frames_fitting_le cut payloads,
      fun done hdone hlen => Framing.prefix_fitting hdone hlen⟩,
    hsegment, hrecovered, ?_, fun more hmore => ?_⟩
  · rw [openAppend_of_frames hkept hrecovered]
    exact Prod.ext hsegment.symm rfl
  · have hall : ∀ r ∈ Framing.fitting frame cut payloads ++ more, Recordable r := by
      intro r hr
      rcases List.mem_append.mp hr with hr | hr
      · exact hkept r hr
      · exact hmore r hr
    have hfinal : Dir.contents ((Segment.openAppend id torn).2.insert id
        ((Segment.openAppend id torn).2.contents id ++ Framing.frames frame more)) id =
          Framing.frames frame (Framing.fitting frame cut payloads ++ more) := by
      rw [Dir.contents, TreeMapLookup.getElem?_insert, if_pos rfl, Option.getD_some, hrecovered,
        Framing.frames_append]
    rw [hsegment]
    refine ⟨_, _, Segment.write_eq hmore rfl _, ?_, ?_⟩
    · rw [hfinal, readSegment_frames hall]
    · rw [openAppend_of_frames hall hfinal, Framing.frames_append, List.length_append]

end Recovery

/-- A cut inside the second frame. -/
theorem torn_write_keeps_prefix_second : ∃ s written,
    (Segment.create 0 ∅).1.write [[1, 2], [3]] (Segment.create 0 ∅).2 = .ok (s, written) ∧
      ∃ kept, Surviving [[1, 2], [3]] 12 kept ∧
        (Segment.openAppend 0 (written.insert 0
          ((written.contents 0).take 12 ++ List.replicate 0 0))).2.contents 0 =
            Framing.frames frame kept := by
  have hpayloads : ∀ r ∈ [[1, 2], [3]], Recordable r := by decide
  have hzeros : 0 = 0 ∨ AtBoundary [[1, 2], [3]] 12 := Or.inl rfl
  obtain ⟨s, written, hwrite, hopen⟩ := torn_write_keeps_prefix 0 ∅ hpayloads hzeros
  obtain ⟨kept, hkept, -, hfile, -⟩ := hopen _ rfl
  exact ⟨s, written, hwrite, kept, hkept, hfile⟩

end PolyBook.Wal
