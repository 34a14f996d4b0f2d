import PolyBook.Library.Runs
import PolyBook.Wal.Layout

/-!
# A writer and a reader on one log

The two parties work on a directory step by step, in any order.
-/

namespace PolyBook.Wal

/-- A payload with at least one byte. -/
structure Payload where
  bytes : Bytes
  ne_nil : bytes ≠ []

/-- The payload of a first byte and more. -/
def Payload.cons (b : UInt8) (bytes : Bytes) : Payload := ⟨b :: bytes, List.cons_ne_nil b bytes⟩

namespace Tail

/-- The directory, its writer and its reader; `log` is what a reader has to
deliver, `returned` what it has delivered. -/
structure State where
  dir : Dir
  writer : Option WalWriter
  reader : Option WalReader
  log : List Bytes
  returned : List Bytes

/-- An empty directory. -/
def State.init : State := ⟨∅, none, none, [], []⟩

/-- The steps of the two parties.  A rotation happens inside `append`; its `sync`
and what it leaves in the buffer show at a poll in between like a `flush` before
it.  `spill` is the buffered writer handing over a part of its buffer. -/
inductive Event where
  | openWriter
  | append (payload : Payload)
  | spill (k : Nat)
  | flush
  | openReader
  | poll

section

variable [Crc32c]

/-- The state after a poll answered. -/
def State.answered (s : State) : Except WalError (Option Bytes) × WalReader → State
  | (.ok (some payload), r) => { s with reader := some r, returned := s.returned ++ [payload] }
  | (.ok none, r) => { s with reader := some r }
  | (.error _, r) => { s with reader := some r }

/-- One event of the log and its reader. -/
def step (config : WalConfig) (s : State) : Event → State
  | .openWriter =>
      match s.writer with
      | some _ => s
      | none =>
          let (w, dir) := WalWriter.openDir config s.dir
          { s with writer := some w, dir := dir }
  | .append payload =>
      match s.writer with
      | none => s
      | some w =>
          match w.append payload.bytes s.dir with
          | (w, dir, .ok _) =>
              { s with writer := some w, dir := dir, log := s.log ++ [payload.bytes] }
          | (w, dir, .error _) => { s with writer := some w, dir := dir }
  | .spill k =>
      match s.writer with
      | none => s
      | some w =>
          let (w, dir) := w.spill k s.dir
          { s with writer := some w, dir := dir }
  | .flush =>
      match s.writer with
      | none => s
      | some w =>
          let (w, dir) := w.flush s.dir
          { s with writer := some w, dir := dir }
  | .openReader =>
      match s.reader with
      | some _ => s
      | none => { s with reader := some (WalReader.openDir "tail" none s.dir) }
  | .poll =>
      match s.reader with
      | none => s
      | some r => s.answered (r.next s.dir)

/-- What `next` would answer now. -/
def State.answer (s : State) : Option (Except WalError (Option Bytes)) :=
  s.reader.map fun r => (r.next s.dir).1

/-- Everything the writer took has reached the file. -/
def State.flushed (s : State) : Bool := s.writer.all fun w => w.active.buffer.isEmpty

/-! ## The steps, by cases -/

section

variable {s : State} (config : WalConfig)

theorem step_of_closed (h : s.writer = none) {e : Event}
    (he : e ≠ .openWriter ∧ e ≠ .openReader ∧ e ≠ .poll) : step config s e = s := by
  cases e with
  | openWriter => exact absurd rfl he.1
  | append payload => simp only [step, h]
  | spill k => simp only [step, h]
  | flush => simp only [step, h]
  | openReader => exact absurd rfl he.2.1
  | poll => exact absurd rfl he.2.2

theorem step_openWriter (h : s.writer = none) :
    step config s .openWriter = { s with
      writer := some (WalWriter.openDir config s.dir).1
      dir := (WalWriter.openDir config s.dir).2 } := by
  simp only [step, h]

theorem step_openWriter_of_some {w : WalWriter} (h : s.writer = some w) :
    step config s .openWriter = s := by
  simp only [step, h]

theorem step_spill {w : WalWriter} (h : s.writer = some w) (k : Nat) :
    step config s (.spill k) =
      { s with writer := some (w.spill k s.dir).1, dir := (w.spill k s.dir).2 } := by
  simp only [step, h]

/-- A flush is a spill of the whole buffer. -/
theorem step_flush {w : WalWriter} (h : s.writer = some w) :
    step config s .flush = step config s (.spill w.active.buffer.length) := by
  simp only [step, h, WalWriter.flush, Segment.flush, WalWriter.spill]

theorem step_openReader (h : s.reader = none) :
    step config s .openReader =
      { s with reader := some (WalReader.openDir "tail" none s.dir) } := by
  simp only [step, h]

theorem step_openReader_of_some {r : WalReader} (h : s.reader = some r) :
    step config s .openReader = s := by
  simp only [step, h]

theorem step_poll {r : WalReader} (h : s.reader = some r) :
    step config s .poll = s.answered (r.next s.dir) := by
  simp only [step, h]

theorem step_poll_of_none (h : s.reader = none) : step config s .poll = s := by
  simp only [step, h]

/-- An append makes room, and then the record is buffered or too large. -/
theorem step_append_cases {w : WalWriter} (h : s.writer = some w) (payload : Payload) :
    Recordable payload.bytes ∧ step config s (.append payload) = { s with
        writer := some ((w.makeRoom payload.bytes s.dir).1.buffered payload.bytes)
        dir := (w.makeRoom payload.bytes s.dir).2
        log := s.log ++ [payload.bytes] } ∨
      step config s (.append payload) = { s with
        writer := some (w.makeRoom payload.bytes s.dir).1
        dir := (w.makeRoom payload.bytes s.dir).2 } := by
  obtain ⟨hmax, happend⟩ | happend := w.append_cases payload.bytes s.dir
  · exact Or.inl ⟨⟨payload.ne_nil, hmax⟩, by simp only [step, h, happend]⟩
  · exact Or.inr (by simp only [step, h, happend])

end

end

end Tail

end PolyBook.Wal
