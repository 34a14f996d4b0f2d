import PolyBook.Library.Runs
import PolyBook.WriteBatch

/-!
# The task of the sink

The Parquet sink takes records off its channel into a buffer and flushes the buffer when
its timer ticks, when the channel has been closed and is empty, and when it is told to
stop.  In the last case it drains the channel first, and gives up on that at a deadline.

A run is any interleaving of these with the upstream, which sends records and closes the
channel.  `sink_accounts_for_every_record` says where every record is that was sent.
-/

namespace PolyBook.SinkRun

open Publication ParquetRecordWriter

/-- The capacity of the channel of the sink. -/
def sinkCapacity : Nat := 10000

/-- `StoreError`, with what a drain that hits its deadline returns. -/
inductive SinkError where
  | store (error : StoreError)
  | other (message : String)

/-- The sink's task: its channel, its batch and what it has stored. -/
structure State where
  channel : List PersistedRecord
  /-- The upstream has dropped its sender. -/
  closed : Bool
  /-- The token has been cancelled, and the sink drains the channel. -/
  draining : Bool
  buffer : List PersistedRecord
  store : ObjectStore
  /-- What `run_with_token` has returned. -/
  returned : Option (Except SinkError Unit)
  /-- Every record that has been sent, and every buffer that has been written. -/
  sent : List PersistedRecord
  flushed : List (List PersistedRecord)

/-- What happens to the sink. -/
inductive Event where
  | send (record : PersistedRecord)
  | close
  | recv
  | tick
  | cancelled
  | deadline

/-- The sink is started on a store. -/
def State.init (store : ObjectStore) : State := ⟨[], false, false, [], store, none, [], []⟩

section

variable [ParquetFormat] [Chrono] (outcome : Nat → PutOutcome) (basePath : String)

/-- `flush`, unless the buffer is empty. -/
def State.flush (s : State) : State × Except StoreError Unit :=
  if s.buffer.isEmpty then (s, .ok ())
  else
    match ParquetRecordWriter.flush outcome basePath s.buffer s.store with
    | (store, buffer, .ok ()) =>
        ({ s with store := store, buffer := buffer, flushed := s.flushed ++ [s.buffer] }, .ok ())
    | (store, buffer, .error e) => ({ s with store := store, buffer := buffer }, .error e)

/-- The last flush of a run, and what the run returns then. -/
def State.finish (s : State) (result : Except SinkError Unit) : State :=
  match s.flush outcome basePath with
  | (s, .error e) => { s with returned := some (.error (.store e)) }
  | (s, .ok ()) => { s with returned := some result }

/-- The error of a drain that has hit its deadline. -/
def drainTimedOut (remaining : Nat) : SinkError :=
  .other ("ParquetSink shutdown drain timed out with " ++ toString remaining ++
    " records still queued")

/-- A step of the sink, while it runs. -/
def State.advance (s : State) : Event → State
  | .send record =>
      if s.closed || sinkCapacity ≤ s.channel.length then s
      else { s with channel := s.channel ++ [record], sent := s.sent ++ [record] }
  | .close => { s with closed := true }
  | .recv =>
      match s.channel with
      | record :: channel => { s with channel := channel, buffer := s.buffer ++ [record] }
      | [] => if s.closed then s.finish outcome basePath (.ok ()) else s
  | .tick =>
      -- not polled while the channel is drained
      if s.draining then s
      else
        match s.flush outcome basePath with
        | (s, .error e) => { s with returned := some (.error (.store e)) }
        | (s, .ok ()) => s
  | .cancelled => { s with draining := true }
  | .deadline =>
      if s.draining then s.finish outcome basePath (.error (drainTimedOut s.channel.length))
      else s

/-- Once it has returned, the receiver is gone. -/
def step (s : State) (e : Event) : State :=
  match s.returned with
  | some _ => s
  | none => s.advance outcome basePath e

/-- A run of the sink. -/
def run (store : ObjectStore) (events : List Event) : State :=
  Runs.run (step outcome basePath) (.init store) events

end

/-! ## Where the records are -/

section Account

variable [ParquetFormat] [Chrono]

/-- The objects that are there now and were not before belong to these batches. -/
def Placed (basePath : String) (batches : List (List PersistedRecord))
    (before after : ObjectStore) : Prop :=
  ∀ path bytes, after.objects[path]? = some bytes → before.objects[path]? = some bytes ∨
    ∃ batch ∈ batches, ∃ key, GroupObject basePath batch key path bytes

/-- No object that was there before is gone. -/
def Kept (before after : ObjectStore) : Prop :=
  ∀ path : String, (before.objects[path]?).isSome = true → (after.objects[path]?).isSome = true

/-- The groups of these batches have their objects, unless another group that was written has
the same name; then it may be the bytes of that one which are there. -/
def Present (basePath : String) (batches written : List (List PersistedRecord))
    (store : ObjectStore) : Prop :=
  ∀ batch ∈ batches, ∀ record ∈ batch, ∃ path bytes,
    GroupObject basePath batch (groupKeyOf record) path bytes ∧
      ∃ other ∈ written, ∃ key bytes', GroupObject basePath other key path bytes' ∧
        store.objects[path]? = some bytes'

/-- Groups of one name have one content. -/
def DistinctNames (basePath : String) (written : List (List PersistedRecord)) : Prop :=
  ∀ batch ∈ written, ∀ key path bytes, GroupObject basePath batch key path bytes →
    ∀ other ∈ written, ∀ key' bytes', GroupObject basePath other key' path bytes' → bytes' = bytes

/-- The buffer of a flush that failed, some of which may be in the store. -/
def State.torn (s : State) : List (List PersistedRecord) :=
  match s.returned with
  | some (.error _) => [s.buffer]
  | _ => []

/-- Where the records are that were sent. -/
structure Accounted (basePath : String) (before : ObjectStore) (s : State) : Prop where
  /-- In the order of sending: what has been flushed, the buffer, and the channel. -/
  sent : s.sent = s.flushed.flatten ++ s.buffer ++ s.channel
  /-- After a clean return everything has been flushed. -/
  returned : s.returned = some (.ok ()) → s.closed = true ∧ s.buffer = [] ∧ s.channel = []
  present : Present basePath s.flushed (s.flushed ++ s.torn) s.store
  placed : Placed basePath (s.flushed ++ s.torn) before s.store
  kept : Kept before s.store

variable {outcome : Nat → PutOutcome} {basePath : String} {before store store' : ObjectStore}
  {batches written : List (List PersistedRecord)} {batch : List PersistedRecord} {s : State}

theorem Placed.mono {more : List (List PersistedRecord)} (h : Placed basePath batches before store)
    (hsub : batches ⊆ more) : Placed basePath more before store := by
  intro path bytes hpath
  rcases h path bytes hpath with hbefore | ⟨batch, hbatch, hobject⟩
  · exact Or.inl hbefore
  · exact Or.inr ⟨batch, hsub hbatch, hobject⟩

theorem Placed.writes (h : Placed basePath batches before store)
    (hwrites : Writes basePath batch store store') :
    Placed basePath (batches ++ [batch]) before store' := by
  intro path bytes hpath
  rcases hwrites path with hsame | ⟨key, bytes', hobject, hwritten⟩
  · rw [hsame] at hpath
    exact h.mono (List.subset_append_left _ _) path bytes hpath
  · rw [hpath] at hwritten
    obtain rfl := Option.some.inj hwritten
    exact Or.inr ⟨batch, List.mem_append_right _ (List.mem_singleton_self batch), key, hobject⟩

omit [Chrono] [ParquetFormat] in
theorem Kept.refl (store : ObjectStore) : Kept store store := fun _ h => h

theorem Kept.writes (h : Kept before store) (hwrites : Writes basePath batch store store') :
    Kept before store' := by
  intro path hbefore
  rcases hwrites path with hsame | ⟨key, bytes, -, hwritten⟩
  · rw [hsame]
    exact h path hbefore
  · rw [hwritten]
    rfl

theorem Present.mono {more : List (List PersistedRecord)}
    (h : Present basePath batches written store) (hsub : written ⊆ more) :
    Present basePath batches more store := by
  intro b hb record hrecord
  obtain ⟨path, bytes, hobject, other, hother, hstored⟩ := h b hb record hrecord
  exact ⟨path, bytes, hobject, other, hsub hother, hstored⟩

theorem Present.writes (h : Present basePath batches written store)
    (hwrites : Writes basePath batch store store') :
    Present basePath batches (written ++ [batch]) store' := by
  intro b hb record hrecord
  obtain ⟨path, bytes, hobject, other, hother, key, bytes', hobject', hstored⟩ :=
    h b hb record hrecord
  refine ⟨path, bytes, hobject, ?_⟩
  rcases hwrites path with hsame | ⟨key, bytes', hobject', hwritten⟩
  · exact ⟨other, List.mem_append_left _ hother, key, bytes', hobject', hsame.trans hstored⟩
  · exact ⟨batch, List.mem_append_right _ (List.mem_singleton_self batch), key, bytes', hobject',
      hwritten⟩

/-- **Where names are distinct** the objects of the groups are there as they were written. -/
theorem Present.stored (h : Present basePath batches written store) (hsub : batches ⊆ written)
    (hnames : DistinctNames basePath written) (hbatch : batch ∈ batches) {record : PersistedRecord}
    (hrecord : record ∈ batch) : ∃ path bytes,
      GroupObject basePath batch (groupKeyOf record) path bytes ∧
        store.objects[path]? = some bytes := by
  obtain ⟨path, bytes, hobject, other, hother, key, bytes', hobject', hstored⟩ :=
    h batch hbatch record hrecord
  obtain rfl := hnames batch (hsub hbatch) _ path bytes hobject other hother key bytes' hobject'
  exact ⟨path, bytes', hobject, hstored⟩

/-- What a flush does to the state: it writes the buffer as a batch, or fails and keeps
it. -/
inductive FlushCase (basePath : String) (s : State) : State × Except StoreError Unit → Prop where
  | empty (h : s.buffer = []) : FlushCase basePath s (s, .ok ())
  | written (store : ObjectStore) (hwrites : Writes basePath s.buffer s.store store)
      (hpresent : Present basePath [s.buffer] [s.buffer] store) :
      FlushCase basePath s ({ s with
        store := store, buffer := [], flushed := s.flushed ++ [s.buffer] }, .ok ())
  | failed (store : ObjectStore) (hwrites : Writes basePath s.buffer s.store store)
      (e : StoreError) : FlushCase basePath s ({ s with store := store }, .error e)

theorem State.flush_cases (outcome : Nat → PutOutcome) (basePath : String) (s : State) :
    FlushCase basePath s (s.flush outcome basePath) := by
  unfold State.flush
  split
  · rename_i hempty
    exact .empty (List.isEmpty_iff.mp hempty)
  · have hflushed := flushAttempts_flushed outcome basePath s.buffer maxFlushRetries s.store
    change Flushed basePath s.buffer s.store
      (ParquetRecordWriter.flush outcome basePath s.buffer s.store) at hflushed
    generalize ParquetRecordWriter.flush outcome basePath s.buffer s.store = flushed at hflushed
    obtain ⟨store, buffer, result⟩ := flushed
    cases result with
    | ok done =>
        obtain ⟨rfl, hobjects⟩ := hflushed.ok rfl
        refine .written store hflushed.writes ?_
        intro batch hbatch record hrecord
        rw [List.mem_singleton.mp hbatch] at hrecord ⊢
        obtain ⟨path, bytes, hobject, hstored⟩ := hobjects record hrecord
        exact ⟨path, bytes, hobject, s.buffer, List.mem_singleton_self _, _, bytes, hobject,
          hstored⟩
    | error e =>
        obtain rfl : buffer = s.buffer := hflushed.error e rfl
        exact .failed store hflushed.writes e

theorem Accounted.init (basePath : String) (store : ObjectStore) :
    Accounted basePath store (.init store) := by
  refine ⟨rfl, ?_, ?_, fun _ _ h => Or.inl h, Kept.refl store⟩
  · intro hreturned
    cases hreturned
  · intro batch hbatch
    cases hbatch

omit [ParquetFormat] [Chrono] in
theorem State.torn_eq_nil (h : ∀ e, s.returned ≠ some (.error e)) : s.torn = [] := by
  unfold State.torn
  split
  · rename_i e he
    exact absurd he (h e)
  · rfl

/-- While the sink runs there is no failed flush behind it. -/
theorem Accounted.placed_running (h : Accounted basePath before s) (hruns : s.returned = none) :
    Placed basePath s.flushed before s.store := by
  have hplaced := h.placed
  rw [State.torn_eq_nil (by simp [hruns]), List.append_nil] at hplaced
  exact hplaced

theorem Accounted.present_running (h : Accounted basePath before s) (hruns : s.returned = none) :
    Present basePath s.flushed s.flushed s.store := by
  have hpresent := h.present
  rw [State.torn_eq_nil (by simp [hruns]), List.append_nil] at hpresent
  exact hpresent

/-- A clean return leaves nothing in the buffer or the channel, and no half of a batch in the
store. -/
theorem Accounted.clean (h : Accounted basePath before s) (hclean : s.returned = some (.ok ())) :
    s.sent = s.flushed.flatten ∧ Placed basePath s.flushed before s.store ∧
      Present basePath s.flushed s.flushed s.store := by
  obtain ⟨-, hbuffer, hchannel⟩ := h.returned hclean
  have htorn : s.torn = [] := State.torn_eq_nil (by simp [hclean])
  have hplaced := h.placed
  have hpresent := h.present
  rw [htorn, List.append_nil] at hplaced hpresent
  refine ⟨?_, hplaced, hpresent⟩
  rw [h.sent, hbuffer, hchannel, List.append_nil, List.append_nil]

/-- What is left after a flush and before the sink goes on or returns. -/
theorem Accounted.flush (h : Accounted basePath before s) (hruns : s.returned = none)
    (outcome : Nat → PutOutcome) :
    (∃ s', s.flush outcome basePath = (s', .ok ()) ∧ Accounted basePath before s' ∧
        s'.returned = none ∧ s'.buffer = [] ∧ s'.channel = s.channel ∧ s'.closed = s.closed) ∨
      ∃ s' e, s.flush outcome basePath = (s', .error e) ∧
        Accounted basePath before { s' with returned := some (.error (.store e)) } := by
  have hplaced := h.placed_running hruns
  have hcase := State.flush_cases outcome basePath s
  generalize s.flush outcome basePath = flushed at hcase ⊢
  cases hcase with
  | empty hempty => exact Or.inl ⟨s, rfl, h, hruns, hempty, rfl, rfl⟩
  | written store hwrites hpresent =>
      refine Or.inl ⟨_, rfl, ⟨?_, ?_, ?_, ?_, h.kept.writes hwrites⟩, hruns, rfl, rfl, rfl⟩
      · rw [h.sent, List.flatten_append, List.flatten_singleton, List.append_nil]
      · intro hreturned
        rw [hruns] at hreturned
        cases hreturned
      · intro batch hbatch
        rcases List.mem_append.mp hbatch with hold | hnew
        · exact ((h.present_running hruns).writes hwrites).mono
            (List.subset_append_left _ _) batch hold
        · refine hpresent.mono ?_ batch hnew
          intro other hother
          exact List.mem_append_left _ (List.mem_append_right _ hother)
      · refine (hplaced.writes hwrites).mono ?_
        exact List.subset_append_left _ _
  | failed store hwrites e =>
      refine Or.inr ⟨_, e, rfl, h.sent, ?_, (h.present_running hruns).writes hwrites,
        hplaced.writes hwrites, h.kept.writes hwrites⟩
      intro hreturned
      cases hreturned

/-- How a run ends: the last flush has failed, or it returns what it was to return. -/
theorem Accounted.finish (h : Accounted basePath before s) (hruns : s.returned = none)
    {result : Except SinkError Unit}
    (hclean : result = .ok () → s.closed = true ∧ s.channel = []) :
    Accounted basePath before (s.finish outcome basePath result) := by
  unfold State.finish
  rcases h.flush hruns outcome with
    ⟨s', hflush, hafter, hruns', hbuffer, hchannel, hclosed⟩ | ⟨s', e, hflush, hafter⟩
  · rw [hflush]
    refine ⟨hafter.sent, ?_, ?_, ?_, hafter.kept⟩
    · intro hreturned
      obtain ⟨hclosed', hchannel'⟩ := hclean (Option.some.inj hreturned)
      exact ⟨hclosed.trans hclosed', hbuffer, hchannel.trans hchannel'⟩
    · exact (hafter.present_running hruns').mono (List.subset_append_left _ _)
    · exact (hafter.placed_running hruns').mono (List.subset_append_left _ _)
  · rw [hflush]
    exact hafter

/-- **A step keeps the account.** -/
theorem Accounted.step (h : Accounted basePath before s) (e : Event) :
    Accounted basePath before (step outcome basePath s e) := by
  unfold SinkRun.step
  cases hruns : s.returned with
  | some result => exact h
  | none =>
      have hplaced : ∀ torn, Placed basePath (s.flushed ++ torn) before s.store := fun torn =>
        (h.placed_running hruns).mono (List.subset_append_left _ _)
      have hpresent : ∀ torn, Present basePath s.flushed (s.flushed ++ torn) s.store := fun torn =>
        (h.present_running hruns).mono (List.subset_append_left _ _)
      have hnotReturned : ∀ {P : Prop}, s.returned = some (.ok ()) → P := by
        intro P hreturned
        rw [hruns] at hreturned
        cases hreturned
      cases e with
      | send record =>
          dsimp only [State.advance]
          split
          · exact h
          · refine ⟨?_, hnotReturned, hpresent _, hplaced _, h.kept⟩
            dsimp only
            rw [h.sent, List.append_assoc]
      | close => exact ⟨h.sent, hnotReturned, hpresent _, hplaced _, h.kept⟩
      | recv =>
          dsimp only [State.advance]
          split
          · rename_i record channel hchannel
            refine ⟨?_, hnotReturned, hpresent _, hplaced _, h.kept⟩
            rw [h.sent, hchannel]
            simp
          · rename_i hchannel
            split
            · rename_i hclosed
              exact h.finish hruns fun _ => ⟨hclosed, hchannel⟩
            · exact h
      | tick =>
          dsimp only [State.advance]
          split
          · exact h
          · rcases h.flush hruns outcome with
              ⟨s', hflush, hafter, -⟩ | ⟨s', e, hflush, hafter⟩
            · rw [hflush]
              exact hafter
            · rw [hflush]
              exact hafter
      | cancelled => exact ⟨h.sent, hnotReturned, hpresent _, hplaced _, h.kept⟩
      | deadline =>
          dsimp only [State.advance]
          split
          · refine h.finish hruns ?_
            intro hresult
            cases hresult
          · exact h

/-- **The sink accounts for every record.**  Whatever the upstream does, whatever puts
fail and whenever it is told to stop: the flushed batches, the buffer and the channel are
what was sent, in the order of sending.  A clean return leaves nothing unflushed, every
group of a flushed batch has its object with its bytes, or with those of another group of the
same name, and the store has lost no object and gained no other one, but for some of the buffer
that a failed flush has kept. -/
theorem sink_accounts_for_every_record (outcome : Nat → PutOutcome) (basePath : String)
    (before : ObjectStore) (events : List Event) :
    Accounted basePath before (run outcome basePath before events) := by
  exact Runs.run_induction (fun s e (h : Accounted basePath before s) => h.step e)
    (Accounted.init basePath before) events

end Account

end PolyBook.SinkRun
