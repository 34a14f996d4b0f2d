import Mathlib.Logic.Function.Basic
import PolyBook.Dispatcher
import PolyBook.Ingest
import PolyBook.Library.InTransit
import PolyBook.RecoveryWriter
import PolyBook.Wal.PowerLoss

/-!
# From the socket to the log

A market subscription is a generation: a websocket client and a resnapshot worker stamp
messages and queue them on one raw channel, and a dispatcher turns each message into
records, which it sends on the event channel that all generations share.  `run_rotation`
starts the next generation before it retires the old one.  `wal_drain` takes the records
off the event channel and appends them to the log.

A run is any interleaving of these tasks, of the passing of time, and of crashes and
restarts of the process; every step of a task ends at an `await`.  Whether a worker has been
asked for a snapshot is left open.
-/

namespace PolyBook

open Wal

namespace FeedPipeline

/-- `RestBookResponse`, as far as it is injected. -/
structure RestBookResponse where
  assetId : String
  bids : List OrderEntry
  asks : List OrderEntry
  hash : Option String
  timestamp : Option String

/-- `rest_book_to_raw_message`. -/
def restBookToRawMessage (resp : RestBookResponse) (recvUs : Nat) : WsRawMessage where
  message := some (.book ⟨resp.assetId, resp.timestamp, resp.bids, resp.asks, resp.hash⟩)
  recvTimestampUs := recvUs

/-- When a message was stamped. -/
def recvTimestampUs : FeedMessage → Nat
  | .raw message => message.recvTimestampUs
  | .lifecycle event => event.recvTimestampUs

/-- The capacity of `raw_tx`. -/
def rawCapacity : Nat := 2048

/-- The capacity of `event_tx`. -/
def eventCapacity : Nat := 2048

/-- The two senders of a raw channel. -/
inductive RawSender where
  | wsClient
  | resnapshotWorker
  deriving DecidableEq

/-- A generation, with the state of its three tasks and of its raw channel. -/
structure Generation where
  /-- The stamped message a sender is about to queue. -/
  held : RawSender → Option FeedMessage
  raw : List FeedMessage
  dispatcher : Dispatcher
  /-- The records of the dispatched message that are still to be sent. -/
  unsent : List PersistedRecord
  closed : Bool

namespace Generation

/-- `Generation::spawn`. -/
def spawn : Generation := ⟨fun _ => none, [], Dispatcher.new, [], false⟩

/-- A sender has a message and stamps it; it sends one message at a time. -/
def stamp (g : Generation) (sender : RawSender) (message : FeedMessage) : Generation :=
  if g.closed || (g.held sender).isSome then g
  else { g with held := Function.update g.held sender (some message) }

/-- `raw_tx.send`, once there is room. -/
def queue (g : Generation) (sender : RawSender) : Generation :=
  match g.held sender with
  | none => g
  | some message =>
      if g.raw.length < rawCapacity then
        { g with held := Function.update g.held sender none, raw := g.raw ++ [message] }
      else g

/-- The dispatcher takes the next message, when it has sent the records of the last. -/
def dispatchNext (g : Generation) : Generation :=
  if g.unsent.isEmpty then
    match g.raw with
    | [] => g
    | message :: raw =>
        let (dispatcher, records) := g.dispatcher.dispatch message
        { g with raw := raw, dispatcher := dispatcher, unsent := records }
  else g

/-- A record has been sent. -/
def sent (g : Generation) : Generation := { g with unsent := g.unsent.tail }

/-- The dispatcher has returned, and with it went the raw channel. -/
def close (g : Generation) : Generation :=
  { g with held := fun _ => none, raw := [], unsent := [], closed := true }

/-- The cancelled dispatcher leaves its loop between two messages. -/
def retire (g : Generation) : Generation := if g.unsent.isEmpty then g.close else g

/-- The messages that wait for the dispatcher. -/
def waiting (g : Generation) : List FeedMessage :=
  (g.held .wsClient).toList ++ (g.held .resnapshotWorker).toList ++ g.raw

/-- The receive timestamps of everything the generation has still to send. -/
def stamps (g : Generation) : List Nat :=
  g.waiting.map recvTimestampUs ++ g.unsent.map (·.partitionTimestampUs)

end Generation

/-- The process and its log. -/
structure State where
  /-- The clock that all tasks read. -/
  nowUs : Nat
  generations : List Generation
  /-- The event channel. -/
  events : List PersistedRecord
  /-- `wal_drain` has left its loop, and the event channel is closed. -/
  stopped : Bool
  ingestOrdinal : Nat
  disk : Disk
  /-- Every record that has been appended. -/
  appended : List PersistedRecord

/-- What happens in the ingest process up to the log. -/
inductive Event where
  | tick (elapsedUs : Nat)
  /-- `wal_drain` starts on the log. -/
  | openWriter
  | spawn
  /-- The websocket client of a generation receives a frame. -/
  | frame (i : Nat) (message : Option WsMessage)
  /-- `send_lifecycle`. -/
  | connection (i : Nat) (kind : WsLifecycleKind) (sessionId : String) (details : Option String)
  /-- The resnapshot worker has fetched a book. -/
  | resnapshot (i : Nat) (resp : RestBookResponse)
  | queue (i : Nat) (sender : RawSender)
  | dispatch (i : Nat)
  | send (i : Nat)
  | retire (i : Nat)
  /-- The checkpoint producer sends a checkpoint. -/
  | checkpoint (c : BookCheckpoint)
  /-- `wal_drain` receives a record; whether the sinks take it. -/
  | drain (fannedOut : Bool)
  | spill (k : Nat)
  | flush
  | sync
  | prune (files : List (Option String))
  | crash (kept : Nat)

/-- The log does not exist yet. -/
def State.init (nowUs : Nat) : State := ⟨nowUs, [], [], true, 0, .init, []⟩

/-- A task of a generation moves on. -/
def State.update (s : State) (i : Nat) (f : Generation → Generation) : State :=
  { s with generations := s.generations.modify i f }

/-- The event channel takes another record. -/
def State.accepts (s : State) : Bool := !s.stopped && s.events.length < eventCapacity

/-- The record that the dispatcher of a generation can send now. -/
def State.nextSend (s : State) (i : Nat) : Option PersistedRecord :=
  if s.accepts then s.generations[i]?.bind (·.unsent.head?) else none

section

variable [Crc32c] [Bincode]

/-- `wal_drain` takes a record off the event channel: stamp, append, fan out. -/
def State.drain (s : State) (w : WalWriter) (record : PersistedRecord) (fannedOut : Bool) :
    State :=
  let stamped := Ingest.stamp s.ingestOrdinal w.globalOffset record
  let s := { s with ingestOrdinal := Ingest.nextOrdinal s.ingestOrdinal record }
  match Codec.encode stamped with
  -- dropped from the log and from the sinks
  | .error _ => s
  | .ok payload =>
      match s.disk.append w payload with
      | (disk, true) =>
          { s with disk := disk, appended := s.appended ++ [stamped], stopped := !fannedOut }
      | (disk, false) => { s with disk := disk, stopped := true }

/-- One event of the ingest process up to the log. -/
def step (config : WalConfig) (s : State) : Event → State
  | .tick elapsedUs => { s with nowUs := s.nowUs + elapsedUs }
  | .openWriter =>
      match s.disk.writer with
      | some _ => s
      | none =>
          { s with disk := s.disk.step config .openWriter, stopped := false, ingestOrdinal := 0 }
  | .spawn => { s with generations := s.generations ++ [.spawn] }
  | .frame i message => s.update i (·.stamp .wsClient (.raw ⟨message, s.nowUs⟩))
  | .connection i kind sessionId details =>
      s.update i (·.stamp .wsClient (.lifecycle ⟨kind, s.nowUs, sessionId, details⟩))
  | .resnapshot i resp =>
      s.update i (·.stamp .resnapshotWorker (.raw (restBookToRawMessage resp s.nowUs)))
  | .queue i sender => s.update i (·.queue sender)
  | .dispatch i => s.update i Generation.dispatchNext
  | .send i =>
      match s.nextSend i with
      | some record =>
          { s with
            generations := s.generations.modify i Generation.sent
            events := s.events ++ [record] }
      -- on a closed channel the dispatcher gives up
      | none => if s.stopped then s.update i Generation.close else s
  | .retire i => s.update i Generation.retire
  | .checkpoint c => if s.accepts then { s with events := s.events ++ [.checkpoint c] } else s
  | .drain fannedOut =>
      match s.disk.writer, s.events with
      | some w, record :: events =>
          if s.stopped then s else { s with events := events }.drain w record fannedOut
      | _, _ => s
  | .spill k => { s with disk := s.disk.step config (.spill k) }
  | .flush => { s with disk := s.disk.step config .flush }
  | .sync => { s with disk := s.disk.step config .sync }
  | .prune files =>
      match s.disk.writer with
      | none => s
      | some w =>
          { s with disk := { s.disk with dir := w.pruneWithBackpressure files s.disk.dir } }
  -- the tasks and the channels go with the process
  | .crash kept =>
      { s with
        generations := [], events := [], stopped := true
        disk := s.disk.step config (.crash kept) }

end

/-- No record enters the event channel before a record of a message that was stamped
earlier and has still to be sent. -/
def Unovertaken (s : State) : Event → Prop
  | .send i => ∀ record ∈ s.nextSend i, ∀ g ∈ s.generations, ∀ t ∈ g.stamps,
      record.partitionTimestampUs ≤ t
  | _ => True

instance (s : State) : (e : Event) → Decidable (Unovertaken s e)
  | .send i => inferInstanceAs (Decidable (∀ record ∈ s.nextSend i, ∀ g ∈ s.generations,
      ∀ t ∈ g.stamps, record.partitionTimestampUs ≤ t))
  | .tick _ | .openWriter | .spawn | .frame _ _ | .connection _ _ _ _ | .resnapshot _ _
  | .queue _ _ | .dispatch _ | .retire _ | .checkpoint _ | .drain _ | .spill _ | .flush | .sync
  | .prune _ | .crash _ => isTrue trivial

end FeedPipeline

end PolyBook
