import PolyBook.Library.Runs
import PolyBook.LossExposure

/-!
# Connections

The WebSocket client connects, announces the connection, and passes on what it receives until
the connection ends; then it announces that, waits, and connects again.  The worker that
fetches books sends into the same channel.

`connections_do_not_mix`: what the dispatcher makes of the channel is what it would make of
each connection by itself.  `reconnects_back_off`: how long the client waits.
-/

namespace PolyBook

namespace Reconnection

/-- `WsConfig`. -/
structure WsConfig where
  pingIntervalSecs : Nat
  reconnectBaseDelayMs : Nat
  reconnectMaxDelayMs : Nat

/-- `STABLE_SESSION_MS`. -/
def stableSessionMs : Nat := 30000

/-- `MAX_WS_TEXT_BYTES`. -/
def maxWsTextBytes : Nat := 1024 * 1024

/-- The largest `u32`. -/
def u32Max : Nat := 2 ^ 32 - 1

/-- The largest `u64`. -/
def u64Max : Nat := 2 ^ 64 - 1

/-- `fastrand_jitter`, at the given nanoseconds of the clock. -/
def fastrandJitter (max nanos : Nat) : Nat :=
  if max = 0 then 0 else nanos * 2654435761 % 2 ^ 64 % max

/-- The exponential part of `backoff_ms`. -/
def cappedBackoffMs (config : WsConfig) (attempt : Nat) : Nat :=
  let maxMs := config.reconnectMaxDelayMs
  let exp := min (config.reconnectBaseDelayMs * 2 ^ min attempt 15) u64Max
  min exp (maxMs - maxMs / 4)

/-- `backoff_ms`. -/
def backoffMs (config : WsConfig) (attempt nanos : Nat) : Nat :=
  let capped := cappedBackoffMs config attempt
  let jitter := fastrandJitter (capped / 4 + 1) nanos
  min (min (capped + jitter) u64Max) config.reconnectMaxDelayMs

/-- A message in the raw channel; the worker's carry no number of a session. -/
structure Sent where
  session : Option Nat
  message : FeedMessage

/-- The message announces that a session is open. -/
def Sent.announces (m : Sent) : Bool :=
  match m.message with
  | .lifecycle event => event.kind = .reconnectSuccess
  | .raw _ => false

/-- The message is one the venue sent. -/
def Sent.isRaw (m : Sent) : Bool :=
  match m.message with
  | .raw _ => true
  | .lifecycle _ => false

/-- What the stream of a connection yields. -/
inductive Frame where
  | text (message : Option WsMessage) (len : Nat)
  | close
  /-- a pong, a ping or a binary message -/
  | other
  | failed
  | ended

/-- Where `run_with_token` stands. -/
inductive Phase where
  | top
  | connecting
  /-- connected, and about to send the subscription -/
  | subscribing
  | listening (lastActivityUs : Nat)
  /-- the session has ended -/
  | parting (stable : Bool)
  | backingOff (fromUs delayMs : Nat) (stable : Bool)
  | stopped

/-- A wait between two sessions. -/
structure Pause where
  attempt : Nat
  stable : Bool
  fromUs : Nat
  delayMs : Nat
  wokenUs : Nat

/-- The client: the session it is in, where its loop is, and what it has sent to the
channel. -/
structure Client where
  nowUs : Nat
  cancelled : Bool
  receiverDropped : Bool
  attempt : Nat
  /-- the number of the session, and when it was started -/
  session : Nat
  startedUs : Nat
  phase : Phase
  /-- the message that the client is sending -/
  held : Option Sent
  channel : List Sent
  pauses : List Pause

/-- What happens to the client. -/
inductive Event where
  | tick (us : Nat)
  | cancel
  | dropReceiver
  /-- there is room in the channel -/
  | queue
  | go (nanos : Nat)
  | connected (ok : Bool)
  | subscribed (ok : Bool)
  | ping (ok : Bool)
  | watchdog
  | frame (frame : Frame)
  | resnapshot (message : Option WsMessage)

namespace Client

/-- The client is started. -/
def start (nowUs : Nat) : Client :=
  ⟨nowUs, false, false, 0, 0, nowUs, .top, none, [], []⟩

/-- The session id it gives its messages. -/
def sessionId (s : Client) : String := "ws-session-" ++ toString (s.attempt + 1)

/-- `send_lifecycle`: the event is stamped and waits for room in the channel. -/
def sendLifecycle (s : Client) (kind : WsLifecycleKind) (details : Option String) : Client :=
  { s with held := some ⟨some s.session, .lifecycle ⟨kind, s.nowUs, s.sessionId, details⟩⟩ }

/-- `connect_and_listen_with_token` has returned, and not for want of a receiver. -/
def sessionOver (s : Client) : Client :=
  let sessionWasStable := decide (stableSessionMs * 1000 ≤ s.nowUs - s.startedUs)
  if s.cancelled then { s with phase := .stopped }
  else
    { s with phase := .parting sessionWasStable }.sendLifecycle .reconnectStart
      (some ("attempt=" ++ toString s.attempt))

/-- The arm of the stream. -/
def receive (s : Client) : Frame → Client
  | .text message len =>
      if maxWsTextBytes < len then s.sessionOver
      else
        { s with
          phase := .listening s.nowUs
          held := some ⟨some s.session, .raw ⟨message, s.nowUs⟩⟩ }
  | .other => { s with phase := .listening s.nowUs }
  | .close | .failed | .ended => s.sessionOver

/-- The client goes on, if what it awaits has come. -/
def go (config : WsConfig) (s : Client) (nanos : Nat) : Client :=
  match s.phase with
  | .top =>
      if s.cancelled then { s with phase := .stopped }
      else { s with session := s.session + 1, startedUs := s.nowUs, phase := .connecting }
  | .listening _ => if s.cancelled then s.sessionOver else s
  | .parting stable =>
      { s with phase := .backingOff s.nowUs (backoffMs config s.attempt nanos) stable }
  | .backingOff fromUs delayMs stable =>
      if s.cancelled then { s with phase := .stopped }
      else if fromUs + delayMs * 1000 ≤ s.nowUs then
        { s with
          attempt := if stable then 0 else min (s.attempt + 1) u32Max
          phase := .top
          pauses := s.pauses ++ [⟨s.attempt, stable, fromUs, delayMs, s.nowUs⟩] }
      else s
  | .connecting | .subscribing | .stopped => s

/-- A step of the client's own, while it is not sending. -/
def own (config : WsConfig) (s : Client) : Event → Client
  | .go nanos => s.go config nanos
  | .connected ok =>
      match s.phase with
      | .connecting =>
          if ok then { s with phase := .subscribing }.sendLifecycle .reconnectSuccess none
          else s.sessionOver
      | _ => s
  | .subscribed ok =>
      match s.phase with
      | .subscribing => if ok then { s with phase := .listening s.nowUs } else s.sessionOver
      | _ => s
  | .ping ok =>
      match s.phase with
      | .listening _ => if ok then s else s.sessionOver
      | _ => s
  | .watchdog =>
      match s.phase with
      | .listening lastActivityUs =>
          if max config.pingIntervalSecs 1 * 3 * 1000000 ≤ s.nowUs - lastActivityUs then
            s.sessionOver
          else s
      | _ => s
  | .frame frame =>
      match s.phase with
      | .listening _ => s.receive frame
      | _ => s
  | _ => s

/-- One event of the client. -/
def step (config : WsConfig) (s : Client) : Event → Client
  | .tick us => { s with nowUs := s.nowUs + us }
  | .cancel => { s with cancelled := true }
  | .dropReceiver => { s with receiverDropped := true }
  | .queue =>
      match s.held with
      | none => s
      | some m =>
          -- a failed send ends the client, whatever it was doing
          if s.receiverDropped then { s with held := none, phase := .stopped }
          else { s with held := none, channel := s.channel ++ [m] }
  | .resnapshot message =>
      if s.receiverDropped then s
      else { s with channel := s.channel ++ [⟨none, .raw ⟨message, s.nowUs⟩⟩] }
  | e => if s.held.isSome then s else s.own config e

end Client

/-! ## The messages of a connection -/

/-- The channel, cut before each announcement of a connection. -/
structure Pieces where
  done : List (List Sent)
  current : List Sent

namespace Pieces

/-- All pieces, the one that is being filled last. -/
def all (p : Pieces) : List (List Sent) := p.done ++ [p.current]

/-- A message goes into the current piece, or opens a new one. -/
def add (p : Pieces) (m : Sent) : Pieces :=
  if m.announces then ⟨p.done ++ [p.current], [m]⟩ else ⟨p.done, p.current ++ [m]⟩

end Pieces

/-- The channel, cut at the announcements. -/
def pieces (channel : List Sent) : Pieces := channel.foldl Pieces.add ⟨[], []⟩

/-- Pieces grow with the channel. -/
theorem pieces_concat (channel : List Sent) (m : Sent) :
    pieces (channel ++ [m]) = (pieces channel).add m := by
  rw [pieces, List.foldl_append]
  rfl

/-- Cutting loses nothing. -/
theorem flatten_pieces (channel : List Sent) : (pieces channel).all.flatten = channel := by
  induction channel using List.reverseRecOn with
  | nil => rfl
  | append_singleton channel m ih =>
      have hflat : (pieces channel).done.flatten ++ (pieces channel).current = channel := by
        simpa [Pieces.all] using ih
      rw [pieces_concat]
      unfold Pieces.add
      split
      · simp only [Pieces.all, List.flatten_append, List.flatten_cons, List.flatten_nil,
          List.append_nil]
        rw [hflat]
      · simp only [Pieces.all, List.flatten_append, List.flatten_cons, List.flatten_nil,
          List.append_nil]
        rw [← List.append_assoc, hflat]

/-- What a dispatcher makes of some messages. -/
def records (messages : List Sent) : List PersistedRecord :=
  (Dispatcher.new.run (messages.map (·.message))).2

/-- An announcement is dispatched alike in every state, and leaves the same state. -/
theorem dispatch_of_announces {m : Sent} (h : m.announces = true) (d : Dispatcher) :
    d.dispatch m.message = Dispatcher.new.dispatch m.message := by
  obtain ⟨session, message⟩ := m
  cases message with
  | raw raw => cases h
  | lifecycle event =>
      have hkind : event.kind = .reconnectSuccess := by simpa [Sent.announces] using h
      simp only [Dispatcher.dispatch, Dispatcher.dispatchLifecycle, hkind]
      rfl

/-- The dispatcher begins anew with each piece. -/
theorem run_pieces (channel : List Sent) :
    records channel = (pieces channel).all.flatMap records ∧
      (Dispatcher.new.run (channel.map (·.message))).1 =
        (Dispatcher.new.run ((pieces channel).current.map (·.message))).1 := by
  induction channel using List.reverseRecOn with
  | nil => exact ⟨rfl, rfl⟩
  | append_singleton channel m ih =>
      obtain ⟨hrecords, hstate⟩ := ih
      rw [pieces_concat, records, List.map_append, Dispatcher.run_append]
      rw [records] at hrecords
      rw [hrecords, hstate]
      unfold Pieces.add
      split
      · rename_i hannounces
        simp only [List.map_cons, List.map_nil, Dispatcher.run, dispatch_of_announces hannounces,
          Pieces.all, List.flatMap_append, List.flatMap_cons, List.flatMap_nil, List.append_nil,
          records, and_self]
      · simp only [Pieces.all, List.flatMap_append, List.flatMap_cons, List.flatMap_nil,
          List.append_nil, records, List.map_append, Dispatcher.run_append, List.append_assoc,
          and_self]

/-- What the client sends while connected comes from one session. -/
def OfSession (k : Nat) (piece : List Sent) : Prop :=
  ∀ m ∈ piece, m.isRaw = true ∨ m.announces = true → ∀ n ∈ m.session, n = k

/-- A message of the session joins its piece. -/
theorem OfSession.concat {k : Nat} {piece : List Sent} (h : OfSession k piece) {m : Sent}
    (hm : m.isRaw = true ∨ m.announces = true → ∀ n ∈ m.session, n = k) :
    OfSession k (piece ++ [m]) := by
  intro x hx
  rcases List.mem_append.mp hx with hold | hnew
  · exact h x hold
  · rw [List.mem_singleton.mp hnew]
    exact hm

namespace Client

/-- The connection has been announced. -/
def Opened (s : Client) : Prop :=
  (∃ lastActivityUs, s.phase = .listening lastActivityUs) ∨ (s.phase = .subscribing ∧ s.held = none)

/-- The pieces of the channel, and what is to be sent next. -/
structure Apart (s : Client) : Prop where
  done : ∀ piece ∈ (pieces s.channel).done, ∃ k, OfSession k piece
  current : ∃ k, OfSession k (pieces s.channel).current ∧ (s.Opened → k = s.session)
  held : ∀ m ∈ s.held, m.session = some s.session ∧ (m.isRaw = true → s.Opened) ∧
    (m.announces = true ↔ s.phase = .subscribing)

namespace Apart

variable {s s' : Client}

/-- A client that starts has sent nothing. -/
theorem start (nowUs : Nat) : (Client.start nowUs).Apart where
  done _ hpiece := nomatch hpiece
  current := ⟨0, fun _ hm => (nomatch hm), fun _ => rfl⟩
  held _ hm := nomatch hm

/-- Nothing has been sent, and no connection has been opened. -/
theorem of_channel (h : s.Apart) (hchannel : s'.channel = s.channel)
    (hopened : s'.Opened → s.Opened ∧ s'.session = s.session)
    (hheld : ∀ m ∈ s'.held, m.session = some s'.session ∧ (m.isRaw = true → s'.Opened) ∧
      (m.announces = true ↔ s'.phase = .subscribing)) : s'.Apart := by
  obtain ⟨k, hcurrent, hsession⟩ := h.current
  refine ⟨hchannel ▸ h.done, ⟨k, hchannel ▸ hcurrent, fun hopen => ?_⟩, hheld⟩
  obtain ⟨hopen, hsame⟩ := hopened hopen
  rw [hsame]
  exact hsession hopen

/-- A session begins or is over, with nothing to send. -/
theorem closed (h : s.Apart) (hchannel : s'.channel = s.channel) (hheld : s'.held = none)
    (hphase : s'.phase ≠ .subscribing ∧ ∀ t, s'.phase ≠ .listening t) : s'.Apart := by
  refine h.of_channel hchannel ?_ ?_
  · rintro (⟨t, hlistening⟩ | ⟨hsubscribing, -⟩)
    · exact absurd hlistening (hphase.2 t)
    · exact absurd hsubscribing hphase.1
  · intro m hm
    rw [hheld] at hm
    cases hm

/-- The end of a session mixes nothing. -/
theorem sessionOver (h : s.Apart) (hheld : s.held = none) : s.sessionOver.Apart := by
  unfold Client.sessionOver
  dsimp only
  split_ifs
  · exact h.closed rfl hheld ⟨nofun, nofun⟩
  · refine h.of_channel rfl ?_ ?_
    · rintro (⟨t, hlistening⟩ | ⟨hsubscribing, -⟩)
      · cases hlistening
      · cases hsubscribing
    · intro m hm
      obtain rfl := Option.some.inj hm
      exact ⟨rfl, fun hraw => (nomatch hraw), fun hstart => (nomatch hstart),
        fun hsubscribing => (nomatch hsubscribing)⟩

/-- The client listens on. -/
theorem listening (h : s.Apart) (hopened : s.Opened) (hheld : s.held = none) (t : Nat) :
    { s with phase := .listening t }.Apart := by
  refine h.of_channel rfl (fun _ => ⟨hopened, rfl⟩) ?_
  intro m hm
  rw [hheld] at hm
  cases hm

/-- A received frame mixes nothing. -/
theorem receive (h : s.Apart) (hopened : s.Opened) (hheld : s.held = none) (frame : Frame) :
    (s.receive frame).Apart := by
  cases frame with
  | text message len =>
      unfold Client.receive
      dsimp only
      split_ifs
      · exact h.sessionOver hheld
      · refine h.of_channel rfl (fun _ => ⟨hopened, rfl⟩) ?_
        intro m hm
        obtain rfl := Option.some.inj hm
        exact ⟨rfl, fun _ => Or.inl ⟨_, rfl⟩, fun hannounces => (nomatch hannounces),
          fun hsubscribing => (nomatch hsubscribing)⟩
  | other => exact h.listening hopened hheld _
  | close => exact h.sessionOver hheld
  | failed => exact h.sessionOver hheld
  | ended => exact h.sessionOver hheld

/-- The client going on mixes nothing. -/
theorem go (h : s.Apart) (hheld : s.held = none) (config : WsConfig) (nanos : Nat) :
    (s.go config nanos).Apart := by
  unfold Client.go
  split
  · split_ifs
    · exact h.closed rfl hheld ⟨nofun, nofun⟩
    · exact h.closed rfl hheld ⟨nofun, nofun⟩
  · split_ifs
    · exact h.sessionOver hheld
    · exact h
  · exact h.closed rfl hheld ⟨nofun, nofun⟩
  · split
    · exact h.closed rfl hheld ⟨nofun, nofun⟩
    · split
      · exact h.closed rfl hheld ⟨nofun, nofun⟩
      · exact h
  · exact h
  · exact h
  · exact h

/-- A step with nothing held mixes nothing. -/
theorem own (h : s.Apart) (hheld : s.held = none) (config : WsConfig) (e : Event) :
    (s.own config e).Apart := by
  unfold Client.own
  split
  · exact h.go hheld config _
  · split
    · split_ifs
      · refine h.of_channel rfl ?_ ?_
        · rintro (⟨t, hlistening⟩ | ⟨-, hnone⟩)
          · cases hlistening
          · cases hnone
        · intro m hm
          obtain rfl := Option.some.inj hm
          exact ⟨rfl, fun hraw => (nomatch hraw), fun _ => rfl, fun _ => rfl⟩
      · exact h.sessionOver hheld
    · exact h
  · split
    · rename_i hphase
      split_ifs
      · exact h.listening (Or.inr ⟨hphase, hheld⟩) hheld _
      · exact h.sessionOver hheld
    · exact h
  · split
    · split_ifs
      · exact h
      · exact h.sessionOver hheld
    · exact h
  · split
    · split_ifs
      · exact h.sessionOver hheld
      · exact h
    · exact h
  · split
    · rename_i hphase
      exact h.receive (Or.inl ⟨_, hphase⟩) hheld _
    · exact h
  · exact h

/-- What is held goes to the piece of its session. -/
theorem queue (h : s.Apart) {m : Sent} (hm : s.held = some m) :
    { s with held := none, channel := s.channel ++ [m] }.Apart := by
  obtain ⟨k, hcurrent, hsession⟩ := h.current
  obtain ⟨hfrom, hraw, hannounces⟩ := h.held m hm
  by_cases hnew : m.announces = true
  · have hpieces : pieces (s.channel ++ [m]) =
        ⟨(pieces s.channel).done ++ [(pieces s.channel).current], [m]⟩ := by
      rw [pieces_concat, Pieces.add, if_pos hnew]
    refine ⟨?_, ⟨s.session, ?_, fun _ => rfl⟩, fun _ hm => (nomatch hm)⟩
    · intro piece hpiece
      dsimp only at hpiece
      rw [hpieces] at hpiece
      rcases List.mem_append.mp hpiece with hold | hlast
      · exact h.done piece hold
      · rw [List.mem_singleton.mp hlast]
        exact ⟨k, hcurrent⟩
    · dsimp only
      rw [hpieces]
      intro x hx _ n hn
      rw [List.mem_singleton.mp hx, hfrom] at hn
      exact (Option.some.inj hn).symm
  · have hpieces : pieces (s.channel ++ [m]) =
        ⟨(pieces s.channel).done, (pieces s.channel).current ++ [m]⟩ := by
      rw [pieces_concat, Pieces.add, if_neg hnew]
    refine ⟨?_, ⟨k, ?_, ?_⟩, fun _ hm => (nomatch hm)⟩
    · dsimp only
      rw [hpieces]
      exact h.done
    · dsimp only
      rw [hpieces]
      refine hcurrent.concat ?_
      rintro (hisRaw | hisNew) n hn
      · rw [hfrom] at hn
        rw [hsession (hraw hisRaw), Option.some.inj hn]
      · exact absurd hisNew hnew
    · rintro (hlistening | ⟨hsubscribing, -⟩)
      · exact hsession (Or.inl hlistening)
      · exact absurd (hannounces.mpr hsubscribing) hnew

/-- The worker sends a message. -/
theorem resnapshot (h : s.Apart) (raw : WsRawMessage) :
    { s with channel := s.channel ++ [Sent.mk none (.raw raw)] }.Apart := by
  obtain ⟨k, hcurrent, hsession⟩ := h.current
  have hpieces : pieces (s.channel ++ [⟨none, .raw raw⟩]) =
      ⟨(pieces s.channel).done, (pieces s.channel).current ++ [⟨none, .raw raw⟩]⟩ := by
    rw [pieces_concat]
    rfl
  refine ⟨?_, ⟨k, ?_, hsession⟩, h.held⟩
  · dsimp only
    rw [hpieces]
    exact h.done
  · dsimp only
    rw [hpieces]
    exact hcurrent.concat fun _ n hn => (nomatch hn)

/-- Every event keeps the sessions apart. -/
theorem step (h : s.Apart) (config : WsConfig) (e : Event) : (s.step config e).Apart := by
  have hown : (if s.held.isSome then s else s.own config e).Apart := by
    split_ifs with hheld
    · exact h
    · exact h.own (by simpa using hheld) config e
  cases e with
  | tick us => exact h.of_channel rfl (fun hopen => ⟨hopen, rfl⟩) h.held
  | cancel => exact h.of_channel rfl (fun hopen => ⟨hopen, rfl⟩) h.held
  | dropReceiver => exact h.of_channel rfl (fun hopen => ⟨hopen, rfl⟩) h.held
  | queue =>
      unfold Client.step
      dsimp only
      split
      · exact h
      · rename_i m hm
        split_ifs
        · exact h.closed rfl rfl ⟨nofun, nofun⟩
        · exact h.queue hm
  | resnapshot message =>
      unfold Client.step
      dsimp only
      split_ifs
      · exact h
      · exact h.resnapshot _
  | go | connected | subscribed | ping | watchdog | frame => exact hown

end Apart

end Client

/-- How the dispatcher takes the messages of the channel. -/
structure Unmixed (channel : List Sent) : Prop where
  whole : (pieces channel).all.flatten = channel
  apart : ∀ piece ∈ (pieces channel).all, ∃ k, OfSession k piece
  records : records channel = (pieces channel).all.flatMap records

/-- **Connections do not mix.**  However often the client connects, fails, stalls and
reconnects, and wherever the worker's books come in between: cut before each announcement, the
channel falls into pieces with the messages of one session each, and the dispatcher makes of
the whole what fresh dispatchers make of the pieces. -/
theorem connections_do_not_mix (config : WsConfig) (nowUs : Nat) (events : List Event) :
    Unmixed (Runs.run (Client.step config) (.start nowUs) events).channel := by
  have hstep : ∀ s e, Client.Apart s → (s.step config e).Apart := fun s e h => h.step config e
  have h := Runs.run_induction hstep (.start nowUs) events
  refine ⟨flatten_pieces _, ?_, (run_pieces _).1⟩
  intro piece hpiece
  rcases List.mem_append.mp hpiece with hdone | hlast
  · exact h.done piece hdone
  · rw [List.mem_singleton.mp hlast]
    obtain ⟨k, hcurrent, -⟩ := h.current
    exact ⟨k, hcurrent⟩

/-! ## The waits -/

/-- The jitter is below its bound. -/
theorem fastrandJitter_le (k nanos : Nat) : fastrandJitter (k + 1) nanos ≤ k := by
  rw [fastrandJitter, if_neg (Nat.succ_ne_zero k)]
  exact Nat.le_of_lt_succ (Nat.mod_lt _ (Nat.succ_pos k))

/-- The jitter is a quarter of the exponential part at most, and leaves the bound alone. -/
theorem backoffMs_bounds (config : WsConfig) (attempt nanos : Nat) :
    cappedBackoffMs config attempt ≤ backoffMs config attempt nanos ∧
      backoffMs config attempt nanos ≤
        cappedBackoffMs config attempt + cappedBackoffMs config attempt / 4 ∧
      backoffMs config attempt nanos ≤ config.reconnectMaxDelayMs := by
  have hjitter := fastrandJitter_le (cappedBackoffMs config attempt / 4) nanos
  have hmax : cappedBackoffMs config attempt ≤ config.reconnectMaxDelayMs :=
    (Nat.min_le_right _ _).trans (Nat.sub_le _ _)
  have hword : cappedBackoffMs config attempt ≤ u64Max :=
    (Nat.min_le_left _ _).trans (Nat.min_le_right _ _)
  unfold backoffMs
  dsimp only
  omega

/-- The exponential part grows with the attempts. -/
theorem cappedBackoffMs_mono (config : WsConfig) {attempt attempt' : Nat}
    (h : attempt ≤ attempt') :
    cappedBackoffMs config attempt ≤ cappedBackoffMs config attempt' := by
  have hpow : 2 ^ min attempt 15 ≤ 2 ^ min attempt' 15 :=
    Nat.pow_le_pow_right (by decide) (by omega)
  have hexp := Nat.mul_le_mul_left config.reconnectBaseDelayMs hpow
  unfold cappedBackoffMs
  dsimp only
  omega

/-- The attempt that is counted after a wait. -/
def Pause.next (p : Pause) : Nat := if p.stable then 0 else min (p.attempt + 1) u32Max

/-- A wait is as long as its attempt demands, and was waited for. -/
structure Pause.Bounded (config : WsConfig) (p : Pause) : Prop where
  least : cappedBackoffMs config p.attempt ≤ p.delayMs
  jitter : p.delayMs ≤ cappedBackoffMs config p.attempt + cappedBackoffMs config p.attempt / 4
  most : p.delayMs ≤ config.reconnectMaxDelayMs
  waited : p.fromUs + p.delayMs * 1000 ≤ p.wokenUs

/-- The waits between the sessions.  The one after a stable session still counts the sessions
before it. -/
structure Patient (config : WsConfig) (pauses : List Pause) : Prop where
  bounded : ∀ p ∈ pauses, p.Bounded config
  first : ∀ p ∈ pauses.head?, p.attempt = 0
  counted : pauses.IsChain fun p q => q.attempt = p.next ∧ p.wokenUs ≤ q.fromUs
  /-- Waits do not get shorter while the sessions are unstable. -/
  grows : pauses.IsChain fun p q => p.stable = false → p.attempt < u32Max →
    cappedBackoffMs config p.attempt ≤ cappedBackoffMs config q.attempt

namespace Client

/-- What is known of the waits in each state. -/
structure Counting (config : WsConfig) (s : Client) : Prop where
  bounded : ∀ p ∈ s.pauses, p.Bounded config
  first : ∀ p ∈ s.pauses.head?, p.attempt = 0
  counted : s.pauses.IsChain fun p q => q.attempt = p.next ∧ p.wokenUs ≤ q.fromUs
  last : s.attempt = (s.pauses.getLast?.map Pause.next).getD 0
  woken : ∀ p ∈ s.pauses.getLast?, p.wokenUs ≤ s.nowUs ∧
    ∀ fromUs delayMs stable, s.phase = .backingOff fromUs delayMs stable → p.wokenUs ≤ fromUs
  delay : ∀ fromUs delayMs stable, s.phase = .backingOff fromUs delayMs stable →
    ∃ nanos, delayMs = backoffMs config s.attempt nanos

namespace Counting

variable {config : WsConfig} {s s' : Client}

/-- A client that starts has paused for nothing. -/
theorem start (config : WsConfig) (nowUs : Nat) : (Client.start nowUs).Counting config where
  bounded _ hp := nomatch hp
  first _ hp := nomatch hp
  counted := .nil
  last := rfl
  woken _ hp := nomatch hp
  delay _ _ _ hphase := nomatch hphase

/-- No wait begins or ends. -/
theorem of_same (h : s.Counting config) (hpauses : s'.pauses = s.pauses)
    (hattempt : s'.attempt = s.attempt) (hnow : s.nowUs ≤ s'.nowUs)
    (hphase : ∀ fromUs delayMs stable, s'.phase = .backingOff fromUs delayMs stable →
      s.phase = .backingOff fromUs delayMs stable) : s'.Counting config where
  bounded := hpauses ▸ h.bounded
  first := hpauses ▸ h.first
  counted := hpauses ▸ h.counted
  last := by rw [hpauses, hattempt, h.last]
  woken p hp := by
    rw [hpauses] at hp
    obtain ⟨hwoken, hafter⟩ := h.woken p hp
    exact ⟨hwoken.trans hnow, fun fromUs delayMs stable hback =>
      hafter fromUs delayMs stable (hphase _ _ _ hback)⟩
  delay fromUs delayMs stable hback := by
    rw [hattempt]
    exact h.delay fromUs delayMs stable (hphase _ _ _ hback)

/-- The end of a session keeps the count of attempts. -/
theorem sessionOver (h : s.Counting config) : s.sessionOver.Counting config := by
  unfold Client.sessionOver
  dsimp only
  split_ifs
  · exact h.of_same rfl rfl (Nat.le_refl _) nofun
  · exact h.of_same rfl rfl (Nat.le_refl _) nofun

/-- A received frame keeps the count of attempts. -/
theorem receive (h : s.Counting config) (frame : Frame) : (s.receive frame).Counting config := by
  unfold Client.receive
  split
  · split_ifs
    · exact h.sessionOver
    · exact h.of_same rfl rfl (Nat.le_refl _) nofun
  · exact h.of_same rfl rfl (Nat.le_refl _) nofun
  all_goals exact h.sessionOver

/-- The client wakes from a wait. -/
theorem wake (h : s.Counting config) {fromUs delayMs : Nat} {stable : Bool}
    (hphase : s.phase = .backingOff fromUs delayMs stable)
    (hdue : fromUs + delayMs * 1000 ≤ s.nowUs) :
    { s with
      attempt := if stable then 0 else min (s.attempt + 1) u32Max
      phase := .top
      pauses := s.pauses ++ [Pause.mk s.attempt stable fromUs delayMs s.nowUs] }.Counting
        config := by
  obtain ⟨nanos, rfl⟩ := h.delay _ _ _ hphase
  obtain ⟨hleast, hjitter, hmost⟩ := backoffMs_bounds config s.attempt nanos
  refine ⟨fun p hp => ?_, ?_, ?_, by simp [Pause.next], fun p hp => ?_, nofun⟩
  · rcases List.mem_append.mp hp with hold | hnew
    · exact h.bounded p hold
    · rw [List.mem_singleton.mp hnew]
      exact ⟨hleast, hjitter, hmost, hdue⟩
  · intro p hp
    cases hpauses : s.pauses with
    | nil =>
        have hzero : s.attempt = 0 := by rw [h.last, hpauses]; rfl
        rw [hpauses] at hp
        obtain rfl := Option.some.inj hp
        exact hzero
    | cons q pauses =>
        rw [hpauses] at hp
        exact h.first p (by rw [hpauses]; exact hp)
  · refine List.isChain_append.mpr ⟨h.counted, List.isChain_singleton _, ?_⟩
    intro p hp q hq
    obtain rfl := Option.some.inj hq
    refine ⟨?_, (h.woken p hp).2 _ _ _ hphase⟩
    rw [h.last, Option.mem_def.mp hp]
    rfl
  · dsimp only at hp
    rw [List.getLast?_concat] at hp
    obtain rfl := Option.some.inj hp
    exact ⟨Nat.le_refl _, nofun⟩

/-- The client going on keeps the count of attempts. -/
theorem go (h : s.Counting config) (nanos : Nat) : (s.go config nanos).Counting config := by
  unfold Client.go
  split
  · split_ifs
    · exact h.of_same rfl rfl (Nat.le_refl _) nofun
    · exact h.of_same rfl rfl (Nat.le_refl _) nofun
  · split_ifs
    · exact h.sessionOver
    · exact h
  · refine ⟨h.bounded, h.first, h.counted, h.last, fun p hp => ⟨(h.woken p hp).1, ?_⟩, ?_⟩
    · rintro _ _ _ ⟨⟩
      exact (h.woken p hp).1
    · rintro _ _ _ ⟨⟩
      exact ⟨nanos, rfl⟩
  · rename_i hphase
    split
    · exact h.of_same rfl rfl (Nat.le_refl _) nofun
    · split
      · rename_i hdue
        exact h.wake hphase hdue
      · exact h
  · exact h
  · exact h
  · exact h

/-- A step with nothing held keeps the count of attempts. -/
theorem own (h : s.Counting config) (e : Event) : (s.own config e).Counting config := by
  unfold Client.own
  split
  · exact h.go _
  · split
    · split_ifs
      · exact h.of_same rfl rfl (Nat.le_refl _) nofun
      · exact h.sessionOver
    · exact h
  · split
    · split_ifs
      · exact h.of_same rfl rfl (Nat.le_refl _) nofun
      · exact h.sessionOver
    · exact h
  · split
    · split_ifs
      · exact h
      · exact h.sessionOver
    · exact h
  · split
    · split_ifs
      · exact h.sessionOver
      · exact h
    · exact h
  · split
    · exact h.receive _
    · exact h
  · exact h

/-- Every event keeps the count of attempts. -/
theorem step (h : s.Counting config) (e : Event) : (s.step config e).Counting config := by
  have hown : (if s.held.isSome then s else s.own config e).Counting config := by
    split_ifs
    · exact h
    · exact h.own e
  cases e with
  | tick us => exact h.of_same rfl rfl (Nat.le_add_right _ _) fun _ _ _ hphase => hphase
  | cancel => exact h.of_same rfl rfl (Nat.le_refl _) fun _ _ _ hphase => hphase
  | dropReceiver => exact h.of_same rfl rfl (Nat.le_refl _) fun _ _ _ hphase => hphase
  | queue =>
      unfold Client.step
      dsimp only
      split
      · exact h
      · split_ifs
        · exact h.of_same rfl rfl (Nat.le_refl _) nofun
        · exact h.of_same rfl rfl (Nat.le_refl _) fun _ _ _ hphase => hphase
  | resnapshot message =>
      unfold Client.step
      dsimp only
      split_ifs
      · exact h
      · exact h.of_same rfl rfl (Nat.le_refl _) fun _ _ _ hphase => hphase
  | go | connected | subscribed | ping | watchdog | frame => exact hown

end Counting

end Client

/-- **The client backs off.**  In every run: a wait is at least the exponential part of its
attempt, exceeds it by a quarter at most and never the configured bound; the attempts count
the unstable sessions since the last stable one. -/
theorem reconnects_back_off (config : WsConfig) (nowUs : Nat) (events : List Event) :
    Patient config (Runs.run (Client.step config) (.start nowUs) events).pauses := by
  have hstep : ∀ s e, Client.Counting config s → (s.step config e).Counting config :=
    fun s e h => h.step e
  have h := Runs.run_induction hstep (.start config nowUs) events
  refine ⟨h.bounded, h.first, h.counted, h.counted.imp fun p q hnext hunstable hbelow => ?_⟩
  apply cappedBackoffMs_mono
  rw [hnext.1, Pause.next, hunstable]
  simp only [Bool.false_eq_true, if_false]
  omega

end Reconnection

end PolyBook
