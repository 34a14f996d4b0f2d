import PolyBook.Streaming

/-!
# The order of a stream

The updates a session receives come in the order of the steps, and the published
snapshot is of the latest step.  So a snapshot that is sent while older updates are
unread puts these behind it, and the book goes back; after a lag the buffer is full of
such updates.  Only when every snapshot is read with nothing older unread do the
messages keep the order (`stream_ordered_iff`).

The last message is not touched by this: when all has been received, it shows what was
broadcast last.
-/

namespace PolyBook

namespace Projector

variable {p : Projector} {a : AssetId} {depth staleAfterSecs nowUs : Nat}

/-- A snapshot shows the levels its asset serves. -/
theorem Serves.levels_of_snapshot (h : p.Serves) {snapshot : LiveOrderBookSnapshot}
    (hok : p.snapshot a depth staleAfterSecs nowUs = .ok snapshot) :
    a ∈ p.state.activeAssets ∧
      p.state.servedTop a depth = some (Streaming.updateOfSnapshot snapshot).levels := by
  have hactive : a ∈ p.state.activeAssets := by
    by_contra hnot
    have hnot' : a ∉ p.watch.activeAssets := by rwa [h.watch, h.active]
    rw [Projector.snapshot, snapshotFromPublished, if_pos hnot'] at hok
    cases hok
  have hanswer := h.answer_eq hactive depth staleAfterSecs nowUs
  rw [answer, hok] at hanswer
  refine ⟨hactive, ?_⟩
  unfold LiveState.servedTop
  split at hanswer
  · rename_i levels hlevels
    rw [hlevels, Option.map_some, ← Except.ok.inj hanswer]
    rfl
  · cases hanswer

/-- An asset whose snapshot is not ready serves nothing. -/
theorem Serves.of_snapshotNotReady (h : p.Serves)
    (herror : p.snapshot a depth staleAfterSecs nowUs = .error .snapshotNotReady) :
    a ∈ p.state.activeAssets ∧ p.state.servedTop a depth = none := by
  have hactive : a ∈ p.state.activeAssets := by
    by_contra hnot
    have hnot' : a ∉ p.watch.activeAssets := by rwa [h.watch, h.active]
    rw [Projector.snapshot, snapshotFromPublished, if_pos hnot'] at herror
    cases herror
  have hanswer := h.answer_eq hactive depth staleAfterSecs nowUs
  rw [answer, herror] at hanswer
  refine ⟨hactive, ?_⟩
  unfold LiveState.servedTop
  split at hanswer
  · cases hanswer
  · rename_i hnone
    rw [hnone, Option.map_none]

/-- An active asset that serves levels has a snapshot. -/
theorem Serves.exists_snapshot (h : p.Serves) (hactive : a ∈ p.state.activeAssets)
    (hserved : p.state.servedTop a depth ≠ none) (staleAfterSecs nowUs : Nat) :
    ∃ snapshot, p.snapshot a depth staleAfterSecs nowUs = .ok snapshot := by
  have hanswer := h.answer_eq hactive depth staleAfterSecs nowUs
  unfold answer at hanswer
  cases hsnapshot : p.snapshot a depth staleAfterSecs nowUs with
  | ok snapshot => exact ⟨snapshot, rfl⟩
  | error err =>
      rw [hsnapshot] at hanswer
      split at hanswer
      · cases hanswer
      · rename_i hnone
        rw [LiveState.servedTop, hnone] at hserved
        exact absurd rfl hserved

end Projector

namespace Streaming

variable {w : Session} {s : State}

/-- After a lag the buffer is full, and so has an update older than what is published. -/
theorem Queued.exists_old (h : Queued w s) (hlagged : s.phase = .lagged) :
    ∃ x ∈ s.receiver.unread, x.step < s.shown := by
  have hfull := h.full hlagged
  have hsorted := h.sorted.sublist (List.sublist_append_left _ _)
  have hpast := h.past
  rcases hunread : s.receiver.unread with _ | ⟨x, _ | ⟨y, rest⟩⟩
  · rw [hunread] at hfull
    cases hfull
  · rw [hunread] at hfull
    cases hfull
  · rw [hunread] at hsorted hpast
    refine ⟨x, List.mem_cons_self, ?_⟩
    calc x.step < y.step := (List.pairwise_cons.mp hsorted).1 y List.mem_cons_self
      _ ≤ s.shown := hpast y (List.mem_cons_of_mem _ List.mem_cons_self)

/-! ## What is shown -/

/-- A session that is open and not subscribed is idle. -/
theorem idle_of_not_subscribed (h : ¬ s.subscribed = true) (hopen : s.phase ≠ .closed) :
    s.phase = .idle := by
  simp only [State.subscribed, Bool.and_eq_true, decide_eq_true_eq, not_and, not_not] at h
  by_contra hne
  exact hopen (h hne)

/-- A session that streams is subscribed. -/
theorem subscribed_of_streaming (h : s.phase = .streaming) : s.subscribed = true := by
  simp [State.subscribed, h]

/-- What was broadcast last and what was sent last are what the asset serves. -/
structure Shows (w : Session) (s : State) : Prop where
  serves : s.projector.Serves
  suffix : s.receiver.unread <:+ s.delivered
  unsubscribed : s.phase = .idle → s.delivered = []
  active : s.sent ≠ [] ∨ s.delivered ++ s.toSend ≠ [] →
    w.assetId ∈ s.projector.state.activeAssets
  told : s.phase ≠ .closed → ∀ x ∈ (s.delivered ++ s.toSend).getLast?,
    s.projector.state.servedTop w.assetId w.depth = some x.update.levels
  last : s.phase ≠ .closed → s.receiver.unread ++ s.toSend = [] → ∀ m ∈ s.sent.getLast?,
    s.projector.state.servedTop w.assetId w.depth = some m.stamped.update.levels
  heard : s.delivered ≠ [] → s.receiver.unread ≠ [] ∨ s.sent ≠ []
  mute : s.phase = .streaming → s.sent = [] → s.delivered ++ s.toSend = [] →
    w.assetId ∈ s.projector.state.activeAssets ∧
      s.projector.state.servedTop w.assetId w.depth = none

/-- A record that tells nothing of the asset leaves what it serves. -/
theorem Shows.record_quiet (h : Shows w s) (hnil : s.toSend = []) {record : PersistedRecord}
    (hsame : w.assetId ∈ s.projector.state.activeAssets →
      (s.projector.applyAndBroadcast record).state.served w.assetId =
        s.projector.state.served w.assetId) (step shown : Nat) :
    Shows w { s with
      projector := s.projector.applyAndBroadcast record
      step := step
      shown := shown
      toSend := [] } := by
  have hassets : (s.projector.applyAndBroadcast record).state.activeAssets =
      s.projector.state.activeAssets := by
    rw [Projector.applyAndBroadcast_state, LiveState.activeAssets_applyRecord]
  have htop : w.assetId ∈ s.projector.state.activeAssets →
      (s.projector.applyAndBroadcast record).state.servedTop w.assetId w.depth =
        s.projector.state.servedTop w.assetId w.depth := by
    intro hmember
    rw [LiveState.servedTop, hsame hmember]
    rfl
  have hactive := h.active
  have htold := h.told
  have hlast := h.last
  have hmute := h.mute
  rw [hnil] at hactive htold hlast hmute
  refine
    { h with
      serves := h.serves.applyAndBroadcast record
      active := fun hany => ?_
      told := fun hopen x hx => ?_
      last := fun hopen hqueue m hm => ?_
      mute := fun hphase hsent hnone => ?_ }
  · dsimp only
    rw [hassets]
    exact hactive hany
  · dsimp only at hx ⊢
    have hne : s.delivered ++ [] ≠ [] := List.ne_nil_of_mem (List.mem_of_getLast? hx)
    rw [htop (hactive (Or.inr hne))]
    exact htold hopen x hx
  · dsimp only at hm ⊢
    rw [htop (hactive (Or.inl (List.ne_nil_of_mem (List.mem_of_getLast? hm))))]
    exact hlast hopen hqueue m hm
  · dsimp only
    obtain ⟨hmember, hserved⟩ := hmute hphase hsent hnone
    exact ⟨by rwa [hassets], by rw [htop hmember, hserved]⟩

/-- An update that is told shows what the asset serves from then on. -/
theorem Shows.record_told (h : Shows w s) (hqueued : Queued w s) {record : PersistedRecord}
    {m : BookUpdateMessage} (hmember : w.assetId ∈ s.projector.state.activeAssets)
    (hlevels : (s.projector.applyAndBroadcast record).state.servedTop w.assetId w.depth =
      some m.levels) (others : Bool) (step shown : Nat) :
    Shows w { s with
      projector := s.projector.applyAndBroadcast record
      step := step
      shown := shown
      toSend := if s.subscribed || others then [⟨step, m⟩] else [] } := by
  have hidle_of : s.phase ≠ .closed → ¬ (s.subscribed || others) = true → s.phase = .idle :=
    fun hopen hsent =>
      idle_of_not_subscribed (fun hsub => hsent (by rw [hsub, Bool.true_or])) hopen
  refine
    { h with
      serves := h.serves.applyAndBroadcast record
      active := fun _ => ?_
      told := fun hopen x hx => ?_
      last := fun hopen hqueue m' hm => ?_
      mute := fun hphase _ hnone => ?_ }
  · dsimp only
    rwa [Projector.applyAndBroadcast_state, LiveState.activeAssets_applyRecord]
  · dsimp only at hx ⊢
    by_cases hsent : (s.subscribed || others) = true
    · rw [if_pos hsent, List.getLast?_concat, Option.mem_some_iff] at hx
      rw [hlevels, ← hx]
    · -- nobody listens, so the session has not subscribed
      rw [if_neg hsent, h.unsubscribed (hidle_of hopen hsent)] at hx
      cases hx
  · dsimp only at hqueue ⊢
    by_cases hsent : (s.subscribed || others) = true
    · rw [if_pos hsent] at hqueue
      simp at hqueue
    · rw [hqueued.waiting (Or.inl (hidle_of hopen hsent))] at hm
      cases hm
  · have hsubscribed : s.subscribed = true := subscribed_of_streaming hphase
    dsimp only at hnone
    rw [hsubscribed, Bool.true_or, if_pos rfl] at hnone
    simp at hnone

/-- A record keeps what the session shows true. -/
theorem Shows.record (h : Shows w s) (hqueued : Queued w s) (record : PersistedRecord)
    (others : Bool) : Shows w (s.applyAndBroadcast w record others) := by
  unfold State.applyAndBroadcast
  split
  swap
  · exact h
  rename_i hempty
  rcases Projector.told_cases hqueued.configured record w.assetId with
    ⟨hnone, hsame⟩ | ⟨m, hone, -, hmember, hlevels⟩
  · have hquiet := h.record_quiet (List.isEmpty_iff.mp hempty) hsame
    rw [hnone, List.map_nil, ite_self]
    exact hquiet _ _
  · rw [hone]
    exact h.record_told hqueued hmember hlevels others _ _

/-- Sending the next update keeps what the session shows true. -/
theorem Shows.send (h : Shows w s) (hqueued : Queued w s) : Shows w s.sendNext := by
  unfold State.sendNext
  split
  · exact h
  · rename_i x rest hsend
    have hactive := h.active
    have htold := h.told
    rw [hsend] at hactive htold
    have hmember := hactive (Or.inr (by simp))
    split
    · rename_i hsubscribed
      have hall : s.delivered ++ [x] ++ rest = s.delivered ++ x :: rest := by simp
      have hkept := Broadcast.Receiver.getLast?_send broadcastCapacity s.receiver x
      have hne : (s.receiver.send broadcastCapacity x).unread ≠ [] :=
        List.ne_nil_of_mem (List.mem_of_getLast? hkept)
      obtain ⟨gone, hgone⟩ := h.suffix
      have hkeep := Broadcast.Receiver.unread_send_suffix broadcastCapacity s.receiver x
      have hsuffix : s.receiver.unread ++ [x] <:+ s.delivered ++ [x] :=
        ⟨gone, by rw [← hgone, List.append_assoc]⟩
      refine
        { h with
          suffix := hkeep.trans hsuffix
          unsubscribed := fun hidle => ?_
          active := fun _ => hmember
          told := fun hopen y hy => ?_
          last := fun _ hqueue => absurd (List.append_eq_nil_iff.mp hqueue).1 hne
          heard := fun _ => Or.inl hne
          mute := fun _ _ hnone => by simp at hnone }
      · simp [State.subscribed, show s.phase = .idle from hidle] at hsubscribed
      · dsimp only at hy
        rw [hall] at hy
        exact htold hopen y hy
    · rename_i hsubscribed
      refine
        { h with
          active := fun _ => hmember
          told := fun hopen y hy => htold hopen y ?_
          last := fun hopen _ m hm => ?_
          mute := fun hphase => absurd (subscribed_of_streaming hphase) hsubscribed }
      · have hidle := idle_of_not_subscribed hsubscribed hopen
        dsimp only at hy
        rw [h.unsubscribed hidle, List.nil_append] at hy ⊢
        rw [← List.singleton_append]
        exact List.mem_getLast?_append_of_mem_getLast? hy
      · dsimp only at hm
        rw [hqueued.waiting (Or.inl (idle_of_not_subscribed hsubscribed hopen))] at hm
        cases hm

/-- Subscribing keeps what the session shows true. -/
theorem Shows.subscribe (h : Shows w s) (hqueued : Queued w s) :
    Shows w (step w s .subscribe) := by
  unfold step
  dsimp only
  split
  · rename_i hidle
    have hopen : s.phase ≠ .closed := by
      rw [hidle]
      exact Phase.noConfusion
    refine
      { h with
        suffix := List.nil_suffix
        unsubscribed := fun _ => h.unsubscribed hidle
        told := fun _ => h.told hopen
        last := fun _ _ m hm => ?_
        heard := fun hne => absurd (h.unsubscribed hidle) hne
        mute := fun hphase => (nomatch hphase) }
    dsimp only at hm
    rw [hqueued.waiting (Or.inl hidle)] at hm
    cases hm
  · exact h

/-- The session goes on, or ends. -/
theorem Shows.proceed (h : Shows w s) (hopen : s.phase ≠ .closed) {phase : Phase}
    (hphase : phase ≠ .idle)
    (hmute : phase = .streaming → s.sent = [] → s.delivered ++ s.toSend = [] →
      w.assetId ∈ s.projector.state.activeAssets ∧
        s.projector.state.servedTop w.assetId w.depth = none) :
    Shows w { s with phase := phase } :=
  { h with
    unsubscribed := fun hidle => absurd hidle hphase
    told := fun _ => h.told hopen
    last := fun _ => h.last hopen
    mute := hmute }

/-- Sending a snapshot keeps what the session shows true. -/
theorem Shows.sendSnapshot (h : Shows w s) (hopen : s.phase ≠ .closed)
    {staleAfterSecs nowUs : Nat} {snapshot : LiveOrderBookSnapshot}
    (hok : s.projector.snapshot w.assetId w.depth staleAfterSecs nowUs = .ok snapshot) :
    Shows w (s.sendSnapshot w snapshot) := by
  obtain ⟨hmember, hlevels⟩ := h.serves.levels_of_snapshot hok
  refine
    { h with
      unsubscribed := fun hidle => (nomatch hidle)
      active := fun _ => hmember
      told := fun _ => h.told hopen
      last := fun _ _ m hm => ?_
      heard := fun _ => Or.inr (by simp [State.sendSnapshot])
      mute := fun _ hnone => by simp [State.sendSnapshot] at hnone }
  simp only [State.sendSnapshot, List.getLast?_concat, Option.mem_some_iff] at hm
  rw [← hm]
  exact hlevels

/-- The first snapshot keeps what the session shows true. -/
theorem Shows.snapshot (h : Shows w s) (hqueued : Queued w s) (nowUs : Nat) :
    Shows w (step w s (.snapshot nowUs)) := by
  unfold step
  dsimp only
  split
  · rename_i attempt hphase
    have hopen : s.phase ≠ .closed := by
      rw [hphase]
      exact Phase.noConfusion
    unfold State.sendInit
    split
    · rename_i snapshot hok
      exact h.sendSnapshot hopen hok
    · exact h.proceed hopen Phase.noConfusion (fun hnot => (nomatch hnot))
    · rename_i herror
      refine h.proceed hopen ?_ fun _ _ _ => h.serves.of_snapshotNotReady herror
      split <;> exact Phase.noConfusion
  · rename_i hphase
    have hopen : s.phase ≠ .closed := by
      rw [hphase]
      exact Phase.noConfusion
    unfold State.sendResync
    split
    · rename_i snapshot hok
      exact h.sendSnapshot hopen hok
    · obtain ⟨x, hx, -⟩ := hqueued.exists_old hphase
      refine h.proceed hopen Phase.noConfusion fun _ _ hnone => ?_
      have hdelivered := h.suffix.subset hx
      rw [(List.append_eq_nil_iff.mp hnone).1] at hdelivered
      exact absurd hdelivered List.not_mem_nil
  · exact h

/-- Receiving an update keeps what the session shows true. -/
theorem Shows.recv (h : Shows w s) : Shows w (step w s .recv) := by
  unfold step
  dsimp only
  split
  swap
  · exact h
  rename_i hphase
  have hopen : s.phase ≠ .closed := by
    rw [hphase]
    exact Phase.noConfusion
  unfold State.recvUpdate
  by_cases hmissed : s.receiver.missed = 0
  · cases hunread : s.receiver.unread with
    | nil =>
        rw [Broadcast.Receiver.recv_of_nil hmissed hunread]
        exact h
    | cons x rest =>
        rw [Broadcast.Receiver.recv_of_cons hmissed hunread]
        obtain ⟨gone, hgone⟩ := h.suffix
        rw [hunread] at hgone
        have hmember := h.active (Or.inr (by simp [← hgone]))
        refine
          { h with
            suffix := ⟨gone ++ [x], by rw [← hgone, List.append_assoc]; rfl⟩
            active := fun _ => hmember
            last := fun _ hqueue m hm => ?_
            heard := fun _ => Or.inr (by simp)
            mute := fun _ hnone => by simp at hnone }
        -- the last that was delivered is what is sent
        obtain ⟨hrest, hto⟩ := List.append_eq_nil_iff.mp hqueue
        dsimp only at hrest hto
        simp only [List.getLast?_concat, Option.mem_some_iff] at hm
        have htold := h.told hopen x
        rw [← hgone, hrest, hto, List.append_nil, List.getLast?_concat] at htold
        rw [← hm]
        exact htold rfl
  · rw [Broadcast.Receiver.recv_of_missed hmissed]
    have hstay : Shows w { s with phase := .lagged } :=
      h.proceed hopen Phase.noConfusion fun hnot => (nomatch hnot)
    exact { hstay with }

/-- **Every step shows what is served.** -/
theorem Shows.step (h : Shows w s) (hqueued : Queued w s) (e : Event) :
    Shows w (Streaming.step w s e) := by
  cases e with
  | record record others => exact h.record hqueued record others
  | send => exact h.send hqueued
  | subscribe => exact h.subscribe hqueued
  | snapshot nowUs => exact h.snapshot hqueued nowUs
  | recv => exact h.recv
  | close =>
      exact
        { h with
          unsubscribed := fun hidle => (nomatch hidle)
          told := fun hopen => absurd rfl hopen
          last := fun hopen => absurd rfl hopen
          mute := fun hphase => (nomatch hphase) }

/-- A new session shows nothing yet. -/
theorem shows_start {p : Projector} (h : p.Serves) : Shows w (start p) where
  serves := h
  suffix := List.suffix_rfl
  unsubscribed := fun _ => rfl
  active := fun hany => by simp [start] at hany
  told := fun _ x hx => (nomatch hx)
  last := fun _ _ m hm => (nomatch hm)
  heard := fun hne => absurd rfl hne
  mute := fun hphase => (nomatch hphase)

/-! ## What keeps the order -/

/-- What is on its way and what was sent, by the steps. -/
def State.transport (s : State) : InTransit.Transport Nat where
  now := s.shown
  pending := {n | ∃ x ∈ s.receiver.unread ++ s.toSend, x.step = n}
  arrived := s.sent.map (·.stamped.step)

/-- What is in transit in order has been sent in order. -/
theorem ordered_of_inOrder (h : InTransit.InOrder s.transport) : s.Ordered :=
  List.pairwise_map.mp h.nondecreasing

/-- A new session has nothing in transit. -/
theorem inOrder_start (p : Projector) : InTransit.InOrder (start p).transport where
  nondecreasing := List.Pairwise.nil
  behind := List.forall_mem_nil _
  pending_le := by
    rintro n ⟨x, hx, -⟩
    cases hx
  arrived_le := List.forall_mem_nil _

section InOrder

open InTransit

/-- A record joins what is in transit at its end. -/
theorem inOrder_record (h : InOrder s.transport) (record : PersistedRecord)
    (hqueued : Queued w s) (others : Bool) :
    InOrder (s.applyAndBroadcast w record others).transport := by
  have hafter := hqueued.record record others
  have hclock : s.shown ≤ (s.applyAndBroadcast w record others).shown := by
    have := hqueued.shown_le
    unfold State.applyAndBroadcast
    split
    · dsimp only
      split <;> omega
    · exact le_rfl
  have hwaited := h.wait hclock
  unfold State.transport at hwaited ⊢
  rw [sent_applyAndBroadcast, receiver_applyAndBroadcast]
  refine hwaited.depart ?_
  rintro n ⟨x, hx, rfl⟩
  rcases List.mem_append.mp hx with hx | hx
  · exact Or.inr ⟨x, List.mem_append_left _ hx, rfl⟩
  · exact Or.inl (hafter.current x hx)

/-- Sending takes from the front of what is in transit. -/
theorem inOrder_send (h : InOrder s.transport) : InOrder s.sendNext.transport := by
  unfold State.sendNext
  split
  · exact h
  · rename_i x rest hsend
    have hsuffix := Broadcast.Receiver.unread_send_suffix broadcastCapacity s.receiver x
    split
    · refine h.lose ?_ (List.Sublist.refl _)
      rintro n ⟨y, hy, rfl⟩
      refine ⟨y, ?_, rfl⟩
      rw [hsend]
      rcases List.mem_append.mp hy with hy | hy
      · rcases List.mem_append.mp (hsuffix.subset hy) with hy | hy
        · exact List.mem_append_left _ hy
        · rw [List.mem_singleton.mp hy]
          exact List.mem_append_right _ List.mem_cons_self
      · exact List.mem_append_right _ (List.mem_cons_of_mem _ hy)
    · refine h.lose ?_ (List.Sublist.refl _)
      rintro n ⟨y, hy, rfl⟩
      refine ⟨y, ?_, rfl⟩
      rw [hsend]
      rcases List.mem_append.mp hy with hy | hy
      · exact List.mem_append_left _ hy
      · exact List.mem_append_right _ (List.mem_cons_of_mem _ hy)

/-- Subscribing keeps what is in transit in order. -/
theorem inOrder_subscribe (h : InOrder s.transport) :
    InOrder (step w s .subscribe).transport := by
  unfold step
  dsimp only
  split
  · refine h.lose ?_ (List.Sublist.refl _)
    rintro n ⟨x, hx, rfl⟩
    exact ⟨x, List.mem_append_right _ hx, rfl⟩
  · exact h

/-- A snapshot departs now and arrives at once. -/
theorem inOrder_sendSnapshot (h : InOrder s.transport) (hqueued : Queued w s)
    (hfresh : ∀ x ∈ s.receiver.unread, s.shown ≤ x.step) (snapshot : LiveOrderBookSnapshot) :
    InOrder (s.sendSnapshot w snapshot).transport := by
  have hdeparted := h.depart (Set.Subset.refl _)
  have harrived := hdeparted.arrive (Set.mem_insert _ _)
    (by
      rintro n (rfl | ⟨x, hx, rfl⟩)
      · exact le_rfl
      · rcases List.mem_append.mp hx with hx | hx
        · exact hfresh x hx
        · exact (hqueued.current x hx).ge)
    (Set.subset_insert _ _)
  unfold State.transport State.sendSnapshot
  rw [List.map_append]
  exact harrived

/-- A fresh first snapshot keeps what is in transit in order. -/
theorem inOrder_snapshot (h : InOrder s.transport) (hqueued : Queued w s) {nowUs : Nat}
    (hfresh : Fresh s (.snapshot nowUs)) :
    InOrder (step w s (.snapshot nowUs)).transport := by
  unfold step
  dsimp only
  split
  · rename_i attempt hphase
    have hnone := hfresh (by rw [State.reads, hphase])
    unfold State.sendInit
    split
    · exact inOrder_sendSnapshot h hqueued hnone _
    · exact h
    · exact h
  · rename_i hphase
    have hnone := hfresh (by rw [State.reads, hphase])
    unfold State.sendResync
    split
    · exact inOrder_sendSnapshot h hqueued hnone _
    · exact h
  · exact h

/-- Receiving keeps what is in transit in order. -/
theorem inOrder_recv (h : InOrder s.transport) (hqueued : Queued w s) :
    InOrder (step w s .recv).transport := by
  unfold step
  dsimp only
  split
  swap
  · exact h
  unfold State.recvUpdate
  by_cases hmissed : s.receiver.missed = 0
  · cases hunread : s.receiver.unread with
    | nil =>
        rw [Broadcast.Receiver.recv_of_nil hmissed hunread]
        exact h
    | cons x rest =>
        rw [Broadcast.Receiver.recv_of_cons hmissed hunread]
        have hsorted := hqueued.sorted
        rw [hunread, List.cons_append, List.pairwise_cons] at hsorted
        unfold State.transport at h ⊢
        rw [hunread, List.cons_append] at h
        rw [List.map_append]
        refine h.arrive ⟨x, List.mem_cons_self, rfl⟩ ?_ ?_
        · rintro n ⟨y, hy, rfl⟩
          rcases List.mem_cons.mp hy with rfl | hy
          · exact le_rfl
          · exact (hsorted.1 y hy).le
        · rintro n ⟨y, hy, rfl⟩
          exact ⟨y, List.mem_cons_of_mem _ hy, rfl⟩
  · rw [Broadcast.Receiver.recv_of_missed hmissed]
    exact h

/-- **A step that reads no snapshot behind an unread update keeps the order.** -/
theorem inOrder_step (h : InOrder s.transport) (hqueued : Queued w s) {e : Event}
    (hfresh : Fresh s e) : InOrder (step w s e).transport := by
  cases e with
  | record record others => exact inOrder_record h record hqueued others
  | send => exact inOrder_send h
  | subscribe => exact inOrder_subscribe h
  | snapshot nowUs => exact inOrder_snapshot h hqueued hfresh
  | recv => exact inOrder_recv h hqueued
  | close => exact h

end InOrder

/-! ## What spoils it -/

/-- An update that is unread is of an earlier step than a message that was sent. -/
def State.Behind (s : State) : Prop :=
  ∃ m ∈ s.sent, ∃ x ∈ s.receiver.unread, x.step < m.stamped.step

/-- The order is lost, or will be when the session has received all. -/
def State.Doomed (s : State) : Prop :=
  ¬ s.Ordered ∨ s.Behind ∨ s.receiver.missed ≠ 0 ∨ s.phase = .lagged ∨ s.phase = .closed

/-- A session that has received all and whose messages are in order was never doomed. -/
theorem not_doomed (hqueued : Queued w s) (hdrained : s.Drained) (hordered : s.Ordered) :
    ¬ s.Doomed := by
  obtain ⟨hphase, hunread, -⟩ := hdrained
  rintro (hdisordered | ⟨m, -, x, hx, -⟩ | hmissed | hlagged | hclosed)
  · exact hdisordered hordered
  · rw [hunread] at hx
    cases hx
  · have hfull := hqueued.bounded.full hmissed
    rw [hunread] at hfull
    cases hfull
  · rw [hphase] at hlagged
    cases hlagged
  · rw [hphase] at hclosed
    cases hclosed

/-- Where updates are unread there is a snapshot to read. -/
theorem Shows.exists_snapshot (h : Shows w s) (hopen : s.phase ≠ .closed) {x : Stamped}
    (hx : x ∈ s.receiver.unread) (nowUs : Nat) : ∃ snapshot,
      s.projector.snapshot w.assetId w.depth w.staleAfterSecs nowUs = .ok snapshot := by
  have hne : s.delivered ++ s.toSend ≠ [] :=
    List.ne_nil_of_mem (List.mem_append_left _ (h.suffix.subset hx))
  have hserved := h.told hopen _ (List.getLast?_eq_some_getLast hne)
  refine h.serves.exists_snapshot (h.active (Or.inr hne)) ?_ _ _
  rw [hserved]
  exact Option.some_ne_none _

/-- A snapshot read while an older update is unread gets ahead of it. -/
theorem behind_of_read (h : Shows w s) (hreads : s.reads = true) {x : Stamped}
    (hx : x ∈ s.receiver.unread) (hold : x.step < s.shown) (nowUs : Nat) :
    (step w s (.snapshot nowUs)).Behind := by
  have hbehind : ∀ snapshot, (s.sendSnapshot w snapshot).Behind := fun snapshot =>
    ⟨⟨w.slug, ⟨s.shown, updateOfSnapshot snapshot⟩⟩,
      List.mem_append_right _ (List.mem_singleton_self _), x, hx, hold⟩
  cases hphase : s.phase with
  | connecting attempt =>
      obtain ⟨snapshot, hok⟩ := h.exists_snapshot (by rw [hphase]; exact Phase.noConfusion) hx nowUs
      unfold step State.sendInit
      simp only [hphase, hok]
      exact hbehind snapshot
  | lagged =>
      obtain ⟨snapshot, hok⟩ := h.exists_snapshot (by rw [hphase]; exact Phase.noConfusion) hx nowUs
      unfold step State.sendResync
      simp only [hphase, hok]
      exact hbehind snapshot
  | idle => simp [State.reads, hphase] at hreads
  | streaming => simp [State.reads, hphase] at hreads
  | closed => simp [State.reads, hphase] at hreads

/-- What was sent stays sent. -/
theorem sent_prefix_step (w : Session) (s : State) (e : Event) : s.sent <+: (step w s e).sent := by
  cases e with
  | record record others =>
      have hsent : (step w s (.record record others)).sent = s.sent := by
        rw [step, sent_applyAndBroadcast]
      exact hsent ▸ List.prefix_rfl
  | send =>
      have hsent : (step w s .send).sent = s.sent := by rw [step, sent_sendNext]
      exact hsent ▸ List.prefix_rfl
  | subscribe =>
      unfold step
      dsimp only
      split <;> exact List.prefix_rfl
  | snapshot nowUs =>
      unfold step State.sendInit State.sendResync
      dsimp only
      split
      · split
        · exact List.prefix_append _ _
        · exact List.prefix_rfl
        · exact List.prefix_rfl
      · split
        · exact List.prefix_append _ _
        · exact List.prefix_rfl
      · exact List.prefix_rfl
  | recv =>
      unfold step State.recvUpdate
      dsimp only
      split
      · split
        · exact List.prefix_append _ _
        · exact List.prefix_rfl
        · exact List.prefix_rfl
      · exact List.prefix_rfl
  | close => exact List.prefix_rfl

/-- A session that has gone out of order stays so. -/
theorem not_ordered_step (h : ¬ s.Ordered) (e : Event) : ¬ (step w s e).Ordered :=
  fun hordered => h (hordered.sublist (sent_prefix_step w s e).sublist)

/-- A closed session stays closed. -/
theorem closed_step (h : s.phase = .closed) (e : Event) : (step w s e).phase = .closed := by
  cases e with
  | record record others => rwa [step, phase_applyAndBroadcast]
  | send => rwa [step, phase_sendNext]
  | close => rfl
  | _ =>
      unfold step
      simp only [h]

/-- A snapshot that is not fresh dooms the order. -/
theorem doomed_of_not_fresh (h : Shows w s) {e : Event} (hstale : ¬ Fresh s e) :
    (step w s e).Doomed := by
  cases e with
  | snapshot nowUs =>
      rw [Fresh, Classical.not_imp] at hstale
      obtain ⟨hreads, hall⟩ := hstale
      simp only [not_forall, Nat.not_le, exists_prop] at hall
      obtain ⟨x, hx, hold⟩ := hall
      exact Or.inr (Or.inl (behind_of_read h hreads hx hold nowUs))
  | _ => exact absurd trivial hstale

/-- No snapshot is fresh after a lag. -/
theorem Queued.not_fresh_of_lagged (h : Queued w s) (hlagged : s.phase = .lagged) (nowUs : Nat) :
    ¬ Fresh s (.snapshot nowUs) := by
  intro hfresh
  obtain ⟨x, hx, hold⟩ := h.exists_old hlagged
  have hnone := hfresh (by rw [State.reads, hlagged]) x hx
  omega

/-- A session that lagged is doomed after every event. -/
theorem doomed_step_of_lagged (hqueued : Queued w s) (hshows : Shows w s)
    (h : s.phase = .lagged) (e : Event) : (step w s e).Doomed := by
  have hstays : ∀ t : State, t.phase = .lagged → t.Doomed :=
    fun t ht => Or.inr (Or.inr (Or.inr (Or.inl ht)))
  cases e with
  | record record others => exact hstays _ (by rwa [step, phase_applyAndBroadcast])
  | send => exact hstays _ (by rwa [step, phase_sendNext])
  | snapshot nowUs => exact doomed_of_not_fresh hshows (hqueued.not_fresh_of_lagged h nowUs)
  | close => exact Or.inr (Or.inr (Or.inr (Or.inr rfl)))
  | _ =>
      refine hstays _ ?_
      unfold step
      simp only [h]

/-- A session that has missed updates is doomed after every event. -/
theorem doomed_step_of_missed (hqueued : Queued w s) (h : s.receiver.missed ≠ 0) (e : Event) :
    (step w s e).Doomed := by
  have hstays : ∀ t : State, t.receiver.missed ≠ 0 → t.Doomed :=
    fun t ht => Or.inr (Or.inr (Or.inl ht))
  cases e with
  | record record others => exact hstays _ (by rwa [step, receiver_applyAndBroadcast])
  | send =>
      refine hstays _ ?_
      unfold step State.sendNext
      dsimp only
      split
      · exact h
      · split
        · exact Broadcast.Receiver.missed_send h _
        · exact h
  | subscribe =>
      unfold step
      dsimp only
      split
      · rename_i hidle
        exact absurd (hqueued.unsubscribed hidle).2 h
      · exact hstays _ h
  | snapshot nowUs => exact hstays _ (by rwa [receiver_snapshot])
  | recv =>
      unfold step State.recvUpdate
      dsimp only
      split
      · rw [Broadcast.Receiver.recv_of_missed h]
        exact Or.inr (Or.inr (Or.inr (Or.inl rfl)))
      · exact hstays _ h
  | close => exact hstays _ h

/-- A session whose snapshot is ahead of its updates is doomed after every event. -/
theorem doomed_step_of_behind (hqueued : Queued w s) (h : s.Behind) (e : Event) :
    (step w s e).Doomed := by
  obtain ⟨m, hm, x, hx, hold⟩ := h
  have hstays : ∀ t : State, s.sent <+: t.sent → x ∈ t.receiver.unread → t.Doomed :=
    fun t hsent hunread => Or.inr (Or.inl ⟨m, hsent.subset hm, x, hunread, hold⟩)
  cases e with
  | record record others =>
      exact hstays _ (sent_prefix_step w s _) (by rwa [step, receiver_applyAndBroadcast])
  | send =>
      unfold step State.sendNext
      dsimp only
      split
      · exact hstays _ List.prefix_rfl hx
      · rename_i y rest _
        split
        · rcases Broadcast.Receiver.mem_send_or_missed hx y with hkept | hmissed
          · exact hstays _ List.prefix_rfl hkept
          · exact Or.inr (Or.inr (Or.inl hmissed))
        · exact hstays _ List.prefix_rfl hx
  | subscribe =>
      unfold step
      dsimp only
      split
      · rename_i hidle
        rw [(hqueued.unsubscribed hidle).1] at hx
        cases hx
      · exact hstays _ List.prefix_rfl hx
  | snapshot nowUs => exact hstays _ (sent_prefix_step w s _) (by rwa [receiver_snapshot])
  | recv =>
      unfold step State.recvUpdate
      dsimp only
      split
      swap
      · exact hstays _ List.prefix_rfl hx
      by_cases hmissed : s.receiver.missed = 0
      · cases hunread : s.receiver.unread with
        | nil =>
            rw [hunread] at hx
            cases hx
        | cons y rest =>
            rw [hunread] at hx
            rw [Broadcast.Receiver.recv_of_cons hmissed hunread]
            rcases List.mem_cons.mp hx with rfl | hx
            · -- it is sent behind the later message
              refine Or.inl fun hordered => ?_
              have hlast := (List.pairwise_append.mp hordered).2.2 m hm _
                (List.mem_singleton_self _)
              dsimp only at hlast
              omega
            · exact hstays _ (List.prefix_append _ _) hx
      · rw [Broadcast.Receiver.recv_of_missed hmissed]
        exact Or.inr (Or.inr (Or.inr (Or.inl rfl)))
  | close => exact hstays _ List.prefix_rfl hx

/-- **What is doomed stays doomed.** -/
theorem doomed_step (hqueued : Queued w s) (hshows : Shows w s) (h : s.Doomed) (e : Event) :
    (step w s e).Doomed := by
  rcases h with hdisordered | hbehind | hmissed | hlagged | hclosed
  · exact Or.inl (not_ordered_step hdisordered e)
  · exact doomed_step_of_behind hqueued hbehind e
  · exact doomed_step_of_missed hqueued hmissed e
  · exact doomed_step_of_lagged hqueued hshows hlagged e
  · exact Or.inr (Or.inr (Or.inr (Or.inr (closed_step hclosed e))))

/-! ## Runs -/

/-- What every step keeps. -/
def Kept (w : Session) (s : State) : Prop := Queued w s ∧ Shows w s

/-- A new session satisfies the invariant. -/
theorem kept_start {p : Projector} (hserves : p.Serves) (hdepth : p.broadcast = some w.depth) :
    Kept w (start p) := ⟨queued_start hdepth, shows_start hserves⟩

/-- Every event keeps the invariant. -/
theorem kept_step (s : State) (e : Event) (h : Kept w s) : Kept w (step w s e) :=
  ⟨h.1.step e, h.2.step h.1 e⟩

/-- The invariant holds in every run. -/
theorem kept_run {p : Projector} (hserves : p.Serves) (hdepth : p.broadcast = some w.depth)
    (events : List Event) : Kept w (Runs.run (step w) (start p) events) :=
  Runs.run_induction kept_step (kept_start hserves hdepth) events

/-- With fresh snapshots only, the session is in order. -/
theorem ordered_of_meets {p : Projector} (hdepth : p.broadcast = some w.depth)
    {events : List Event} (h : Runs.Meets (step w) Fresh (start p) events) :
    (Runs.run (step w) (start p) events).Ordered := by
  have hstep : ∀ s e, Queued w s ∧ InTransit.InOrder s.transport → Fresh s e →
      Queued w (step w s e) ∧ InTransit.InOrder (step w s e).transport :=
    fun _ e hs hfresh => ⟨hs.1.step e, inOrder_step hs.2 hs.1 hfresh⟩
  have hrun := h.induction hstep ⟨queued_start hdepth, inOrder_start p⟩
  exact ordered_of_inOrder hrun.2

/-- A drained session in order has sent fresh snapshots only. -/
theorem meets_of_ordered {p : Projector} (hserves : p.Serves)
    (hdepth : p.broadcast = some w.depth) {events : List Event}
    (hdrained : (Runs.run (step w) (start p) events).Drained)
    (hordered : (Runs.run (step w) (start p) events).Ordered) :
    Runs.Meets (step w) Fresh (start p) events := by
  have hstays : ∀ s e, Kept w s → s.Doomed → (step w s e).Doomed :=
    fun _ e h hdoomed => doomed_step h.1 h.2 hdoomed e
  have hfails : ∀ s e, Kept w s → ¬ Fresh s e → (step w s e).Doomed :=
    fun _ _ h hstale => doomed_of_not_fresh h.2 hstale
  exact Runs.meets_of_not_spoilt kept_step hstays hfails (kept_start hserves hdepth) events
    (not_doomed (kept_run hserves hdepth events).1 hdrained hordered)

/-- The last message shows what the asset serves, which is what was broadcast last. -/
structure State.LastShown (w : Session) (s : State) : Prop where
  sent : s.sent.getLast?.map (·.stamped.update.levels) =
    s.projector.state.servedTop w.assetId w.depth
  broadcast : ∀ x ∈ s.delivered.getLast?,
    s.projector.state.servedTop w.assetId w.depth = some x.update.levels

/-- What a drained session showed last is the asset's book. -/
theorem Shows.lastShown (h : Shows w s) (hdrained : s.Drained) : s.LastShown w := by
  obtain ⟨hphase, hunread, hto⟩ := hdrained
  have hopen : s.phase ≠ .closed := by
    rw [hphase]
    exact Phase.noConfusion
  refine ⟨?_, fun x hx => h.told hopen x (by rwa [hto, List.append_nil])⟩
  rcases List.eq_nil_or_concat s.sent with hnone | ⟨before, m, hsent⟩
  · have hdelivered : s.delivered = [] := by
      by_contra hne
      rcases h.heard hne with hsome | hsome
      · exact hsome hunread
      · exact hsome hnone
    have hmute := h.mute hphase hnone (by rw [hdelivered, hto]; rfl)
    rw [hnone, hmute.2]
    rfl
  · have hlast : s.sent.getLast? = some m := by
      rw [hsent, List.concat_eq_append, List.getLast?_concat]
    rw [hlast, Option.map_some]
    exact (h.last hopen (by rw [hunread, hto]; rfl) m hlast).symm

/-- **When the book goes back.**  The messages keep the order in every run in which no
snapshot is read with an older update unread; a run that ends with all received has
kept it only so.  The last message then shows what the asset serves, and this is what was
broadcast last. -/
theorem stream_ordered_iff (mode : FeedMode) (commands : List ProjectorCommand) (w : Session)
    (hdepth : ((Projector.new mode).run commands).broadcast = some w.depth)
    (events : List Event) :
    (Runs.Meets (step w) Fresh (start ((Projector.new mode).run commands)) events →
      (Runs.run (step w) (start ((Projector.new mode).run commands)) events).Ordered) ∧
    ((Runs.run (step w) (start ((Projector.new mode).run commands)) events).Drained →
      ((Runs.run (step w) (start ((Projector.new mode).run commands)) events).Ordered ↔
        Runs.Meets (step w) Fresh (start ((Projector.new mode).run commands)) events) ∧
      (Runs.run (step w) (start ((Projector.new mode).run commands)) events).LastShown w) := by
  have hserves := Projector.serves_run mode commands
  refine ⟨ordered_of_meets hdepth, fun hdrained => ⟨⟨?_, ordered_of_meets hdepth⟩, ?_⟩⟩
  · exact meets_of_ordered hserves hdepth hdrained
  · exact (kept_run hserves hdepth events).2.lastShown hdrained

/-! A session that subscribes before two updates and reads the snapshot after them. -/
namespace ReadLate

/-- A level change of the sample. -/
def bid (cents : Fin 101) (recvUs : Nat) (id : String) : PersistedRecord :=
  .book (Sample.level .delta "tok1" .bid cents 1 recvUs id)

/-- The checkpoint that gives the sample asset its book. -/
def checkpoint : BookCheckpoint where
  assetId := "tok1"
  checkpointTimestampUs := 1
  provenance := Sample.provenance 1 "checkpoint"
  bids := [⟨Sample.price 40, Sample.size 1⟩]
  asks := [⟨Sample.price 60, Sample.size 1⟩]
  walOffset := none

/-- The commands before the sample session. -/
def commands : List ProjectorCommand :=
  [.setActiveAssets ["tok1"], .configureBroadcast 20, .hydrateCheckpoint checkpoint]

/-- The sample session, which follows one asset. -/
def session : Session where
  assetId := "tok1"
  slug := none
  depth := 20
  staleAfterSecs := 15

/-- Two updates are buffered before the session takes its snapshot. -/
def events : List Event :=
  [.subscribe, .record (bid 41 2 "first") false, .send, .record (bid 42 3 "second") false, .send,
    .snapshot 4, .recv, .recv]

/-- The session takes its snapshot before anything is sent. -/
def readAtOnce : List Event :=
  [.subscribe, .snapshot 2, .record (bid 41 2 "first") false, .send, .recv]

/-- Where the sample session ends. -/
def streamed : State :=
  Runs.run (step session) (start ((Projector.new .fixedTokens).run commands)) events

end ReadLate

/-- The session that takes its snapshot at once is in order. -/
theorem one_reader_in_order :
    (Runs.run (step ReadLate.session) (start ((Projector.new .fixedTokens).run ReadLate.commands))
      ReadLate.readAtOnce).Ordered ∧
    (Runs.run (step ReadLate.session) (start ((Projector.new .fixedTokens).run ReadLate.commands))
      ReadLate.readAtOnce).LastShown ReadLate.session := by
  have hall := stream_ordered_iff .fixedTokens ReadLate.commands ReadLate.session
    (by decide +kernel) ReadLate.readAtOnce
  have hdrained : (Runs.run (step ReadLate.session)
      (start ((Projector.new .fixedTokens).run ReadLate.commands)) ReadLate.readAtOnce).Drained :=
    ⟨by decide +kernel, List.isEmpty_iff.mp (by decide +kernel),
      List.isEmpty_iff.mp (by decide +kernel)⟩
  refine ⟨hall.1 ?_, (hall.2 hdrained).2⟩
  exact ⟨trivial, fun _ => List.forall_mem_nil _, trivial, trivial, trivial, trivial⟩

/-- The snapshot shows three bids, the update after it two. -/
theorem stream_goes_back :
    ReadLate.streamed.sent.map (·.stamped.step) = [2, 1, 2] ∧
      ReadLate.streamed.sent.map (fun m => m.stamped.update.levels.1.length) = [3, 2, 3] ∧
        ¬ ReadLate.streamed.Ordered := by
  have hsteps : ReadLate.streamed.sent.map (·.stamped.step) = [2, 1, 2] := by decide +kernel
  refine ⟨hsteps, by decide +kernel, fun hordered => ?_⟩
  have hsorted := List.pairwise_map.mpr hordered
  rw [hsteps] at hsorted
  revert hsorted
  decide

end Streaming

end PolyBook
