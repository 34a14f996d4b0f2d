import PolyBook.FeedPipeline
import PolyBook.Library.Recency
import PolyBook.Library.TreeMap

/-!
# The resnapshot worker

The dispatcher asks for a fresh book when its own has diverged.  The worker fetches one book
at a time and leaves out a request whose asset it has fetched within the last five seconds.
Its table of last fetches forgets what is older than that: `resnapshots_are_debounced` shows
that it decides as if it remembered every fetch.
-/

namespace PolyBook

namespace Resnapshot

open FeedPipeline (RestBookResponse restBookToRawMessage)

/-- `RESNAPSHOT_DEBOUNCE`, in microseconds. -/
def resnapshotDebounceUs : Nat := 5000000

/-- The capacity of `resnapshot_tx`. -/
def requestCapacity : Nat := 64

/-- Where `run_resnapshot_worker` stands. -/
inductive Phase where
  | waiting
  | fetching
  | sending (message : WsRawMessage)
  | stopped

/-- The worker of `spawn_resnapshot_worker`. -/
structure Worker where
  nowUs : Nat
  cancelled : Bool
  requests : List AssetId
  requestsClosed : Bool
  rawClosed : Bool
  lastFetch : Std.ExtTreeMap AssetId Nat
  phase : Phase
  /-- the requests that the worker has taken up, and when -/
  handled : List (AssetId × Nat)
  /-- the fetches, and when they began -/
  fetched : List (AssetId × Nat)
  /-- the books that came, and when -/
  responses : List (RestBookResponse × Nat)
  sent : List WsRawMessage

/-- What happens to the worker. -/
inductive Event where
  | tick (us : Nat)
  | cancel
  /-- the dispatcher's `try_send` -/
  | request (asset : AssetId)
  | closeRequests
  | closeRaw
  /-- the worker goes on, if what it awaits has come -/
  | go
  | response (response : Option RestBookResponse)

namespace Worker

/-- The worker is spawned. -/
def start (nowUs : Nat) : Worker :=
  ⟨nowUs, false, [], false, false, ∅, .waiting, [], [], [], []⟩

/-- Whether the asset was fetched within the window. -/
def fetchedLately (s : Worker) (asset : AssetId) : Bool :=
  match s.lastFetch[asset]? with
  | some prev => decide (s.nowUs - prev < resnapshotDebounceUs)
  | none => false

/-- The worker takes up a request. -/
def handle (s : Worker) (asset : AssetId) : Worker :=
  let s := { s with handled := s.handled ++ [(asset, s.nowUs)] }
  if s.fetchedLately asset then s
  else
    { s with
      lastFetch := (s.lastFetch.filter fun _ t =>
        decide (s.nowUs - t < resnapshotDebounceUs)).insert asset s.nowUs
      fetched := s.fetched ++ [(asset, s.nowUs)]
      phase := .fetching }

/-- The worker's loop goes on. -/
def go (s : Worker) : Worker :=
  match s.phase with
  | .waiting =>
      if s.cancelled then { s with phase := .stopped }
      else
        match s.requests with
        | asset :: requests => { s with requests := requests }.handle asset
        | [] => if s.requestsClosed then { s with phase := .stopped } else s
  | .sending message =>
      if s.rawClosed then { s with phase := .stopped }
      else { s with sent := s.sent ++ [message], phase := .waiting }
  | .fetching | .stopped => s

/-- One event of the worker. -/
def step (s : Worker) : Event → Worker
  | .tick us => { s with nowUs := s.nowUs + us }
  | .cancel => { s with cancelled := true }
  | .request asset =>
      if s.requests.length < requestCapacity then { s with requests := s.requests ++ [asset] }
      else s
  | .closeRequests => { s with requestsClosed := true }
  | .closeRaw => { s with rawClosed := true }
  | .go => s.go
  | .response response =>
      match s.phase with
      | .fetching =>
          match response with
          | none => { s with phase := .waiting }
          | some resp =>
              { s with
                responses := s.responses ++ [(resp, s.nowUs)]
                phase := .sending (restBookToRawMessage resp s.nowUs) }
      | _ => s

/-- The message that is still to be sent, when the worker goes on. -/
def unsent (s : Worker) : List WsRawMessage :=
  match s.phase with
  | .sending message => [message]
  | _ => []

/-- The times that count as lately. -/
def cutoff (s : Worker) : Nat := s.nowUs + 1 - resnapshotDebounceUs

/-- The table of last fetches. -/
def table (s : Worker) : AssetId → Option Nat := fun asset => s.lastFetch[asset]?

/-- The table is as good as the whole history, and the history keeps the rule. -/
structure Keeps (s : Worker) : Prop where
  alike : Recency.SameFrom s.cutoff s.table (Recency.lastSeen s.fetched)
  past : ∀ f ∈ s.fetched, f.2 ≤ s.nowUs
  kept : ∀ asset t, s.lastFetch[asset]? = some t → (asset, t) ∈ s.fetched ∧
    ∀ last ∈ s.fetched.getLast?, last.2 < t + resnapshotDebounceUs
  apart : s.fetched.Pairwise fun x y => x.1 = y.1 → x.2 + resnapshotDebounceUs ≤ y.2
  answered : ∀ r ∈ s.handled, ∃ t, (r.1, t) ∈ s.fetched ∧ t ≤ r.2 ∧
    r.2 < t + resnapshotDebounceUs

namespace Keeps

variable {s s' : Worker}

theorem start (nowUs : Nat) : (Worker.start nowUs).Keeps where
  alike asset := Or.inl (by simp [table, Worker.start, Recency.lastSeen])
  past _ hf := nomatch hf
  kept asset t ht := by simp [Worker.start] at ht
  apart := .nil
  answered _ hr := nomatch hr

/-- Time passes, and the table and the history stay. -/
theorem of_same (h : s.Keeps) (hnow : s.nowUs ≤ s'.nowUs) (htable : s'.lastFetch = s.lastFetch)
    (hfetched : s'.fetched = s.fetched) (hhandled : s'.handled = s.handled) : s'.Keeps where
  alike := by
    have hcutoff : s.cutoff ≤ s'.cutoff := Nat.sub_le_sub_right (Nat.succ_le_succ hnow) _
    have hsame : s'.table = s.table := funext fun asset => congrArg (·[asset]?) htable
    rw [hsame, hfetched]
    exact h.alike.mono hcutoff
  past f hf := (h.past f (hfetched ▸ hf)).trans hnow
  kept := by
    rw [htable, hfetched]
    exact h.kept
  apart := hfetched ▸ h.apart
  answered := by
    rw [hhandled, hfetched]
    exact h.answered

/-- The table answers as the history would. -/
theorem fetchedLately_iff (h : s.Keeps) (asset : AssetId) :
    s.fetchedLately asset = true ↔
      ∃ t, (asset, t) ∈ s.fetched ∧ s.nowUs < t + resnapshotDebounceUs := by
  have hwindow : ∀ t, s.cutoff ≤ t ↔ s.nowUs < t + resnapshotDebounceUs := by
    intro t
    unfold cutoff resnapshotDebounceUs
    omega
  have htable : s.fetchedLately asset = true ↔ ∃ t ∈ s.table asset, s.cutoff ≤ t := by
    unfold fetchedLately table
    cases s.lastFetch[asset]? with
    | none => simp
    | some prev =>
        have hprev : s.nowUs - prev < resnapshotDebounceUs ↔ s.cutoff ≤ prev := by
          unfold cutoff resnapshotDebounceUs
          omega
        simp [hprev]
  rw [htable, h.alike.seen_iff asset, Recency.lastSeen_iff]
  simp only [hwindow]

/-- A fetch is entered in the table, and forgets what is not recent. -/
theorem lookup_fetch (s : Worker) (asset other : AssetId) :
    ((s.lastFetch.filter fun _ t => decide (s.nowUs - t < resnapshotDebounceUs)).insert asset
        s.nowUs)[other]? =
      if other = asset then some s.nowUs
      else (s.table other).filter fun t => decide (s.nowUs - t < resnapshotDebounceUs) := by
  rw [TreeMapLookup.getElem?_insert, Std.ExtTreeMap.getElem?_filter']
  rfl

/-- The table with the fetch is as good as the history with it. -/
theorem alike_fetch (h : s.Keeps) {asset : AssetId} (hlately : ¬s.fetchedLately asset = true) :
    Recency.SameFrom s.cutoff
      (fun other => ((s.lastFetch.filter fun _ t =>
        decide (s.nowUs - t < resnapshotDebounceUs)).insert asset s.nowUs)[other]?)
      (Recency.lastSeen (s.fetched ++ [(asset, s.nowUs)])) := by
  have hkeep : ∀ t, decide (s.nowUs - t < resnapshotDebounceUs) = true ↔ s.cutoff ≤ t := by
    intro t
    rw [decide_eq_true_iff]
    unfold cutoff resnapshotDebounceUs
    omega
  have hnone : (s.table asset).filter (fun t =>
      decide (s.nowUs - t < resnapshotDebounceUs)) = none := by
    unfold fetchedLately at hlately
    unfold table
    cases hprev : s.lastFetch[asset]? with
    | none => rfl
    | some prev =>
        rw [hprev] at hlately
        exact Option.filter_some_neg (Bool.eq_false_of_not_eq_true hlately)
  -- forgetting what is old, and then the entry of the new fetch
  have hentered := (h.alike.forget hkeep).raise asset s.nowUs
  rw [← Recency.lastSeen_concat] at hentered
  have htable : (fun other => ((s.lastFetch.filter fun _ t =>
      decide (s.nowUs - t < resnapshotDebounceUs)).insert asset s.nowUs)[other]?) =
        Recency.raise (fun k => (s.table k).filter fun t =>
          decide (s.nowUs - t < resnapshotDebounceUs)) asset s.nowUs := by
    funext other
    rw [Recency.raise, hnone]
    exact lookup_fetch s asset other
  rw [htable]
  exact hentered

/-- A request is taken up, after a fetch within the window or with one. -/
theorem handle (h : s.Keeps) (asset : AssetId) : (s.handle asset).Keeps := by
  unfold Worker.handle
  dsimp only
  split_ifs with hlately
  · refine ⟨h.alike, h.past, h.kept, h.apart, fun r hr => ?_⟩
    rcases List.mem_append.mp hr with hold | hnew
    · exact h.answered r hold
    · rw [List.mem_singleton.mp hnew]
      obtain ⟨t, ht, hwindow⟩ := (h.fetchedLately_iff asset).mp hlately
      exact ⟨t, ht, h.past _ ht, hwindow⟩
  · have hnever : ∀ t, (asset, t) ∈ s.fetched → t + resnapshotDebounceUs ≤ s.nowUs := by
      intro t ht
      by_contra hlate
      exact hlately ((h.fetchedLately_iff asset).mpr ⟨t, ht, by omega⟩)
    refine ⟨?_, fun f hf => ?_, fun other t ht => ?_, ?_, fun r hr => ?_⟩
    · exact h.alike_fetch hlately
    · rcases List.mem_append.mp hf with hold | hnew
      · exact h.past f hold
      · rw [List.mem_singleton.mp hnew]
    · dsimp only at ht
      rw [lookup_fetch] at ht
      rw [List.getLast?_concat]
      split_ifs at ht with hsame
      · obtain rfl := Option.some.inj ht
        refine ⟨List.mem_append_right _ (by rw [hsame]; exact List.mem_cons_self), ?_⟩
        intro last hlast
        obtain rfl := Option.some.inj hlast
        exact Nat.lt_add_of_pos_right (by decide)
      · obtain ⟨hin, hwindow⟩ := Option.filter_eq_some_iff.mp ht
        refine ⟨List.mem_append_left _ (h.kept other t hin).1, ?_⟩
        intro last hlast
        obtain rfl := Option.some.inj hlast
        have hnow : s.nowUs - t < resnapshotDebounceUs := of_decide_eq_true hwindow
        dsimp only
        omega
    · refine List.pairwise_append.mpr ⟨h.apart, List.pairwise_singleton _ _, ?_⟩
      rintro ⟨other, t⟩ hold y hy hsame
      rw [List.mem_singleton.mp hy] at hsame ⊢
      obtain rfl : other = asset := hsame
      exact hnever t hold
    · rcases List.mem_append.mp hr with hold | hnew
      · obtain ⟨t, ht, hbefore, hwindow⟩ := h.answered r hold
        exact ⟨t, List.mem_append_left _ ht, hbefore, hwindow⟩
      · rw [List.mem_singleton.mp hnew]
        exact ⟨s.nowUs, List.mem_append_right _ List.mem_cons_self, Nat.le_refl _,
          Nat.lt_add_of_pos_right (by decide)⟩

theorem step (h : s.Keeps) (e : Event) : (s.step e).Keeps := by
  cases e with
  | tick us => exact h.of_same (Nat.le_add_right _ _) rfl rfl rfl
  | cancel => exact h.of_same (Nat.le_refl _) rfl rfl rfl
  | request asset =>
      unfold Worker.step
      dsimp only
      split_ifs
      · exact h.of_same (Nat.le_refl _) rfl rfl rfl
      · exact h
  | closeRequests => exact h.of_same (Nat.le_refl _) rfl rfl rfl
  | closeRaw => exact h.of_same (Nat.le_refl _) rfl rfl rfl
  | go =>
      unfold Worker.step Worker.go
      dsimp only
      split
      · split
        · exact h.of_same (Nat.le_refl _) rfl rfl rfl
        · split
          · rename_i asset requests _
            have hsame : Keeps { s with requests := requests } :=
              h.of_same (Nat.le_refl _) rfl rfl rfl
            exact hsame.handle asset
          · split_ifs
            · exact h.of_same (Nat.le_refl _) rfl rfl rfl
            · exact h
      · split_ifs
        · exact h.of_same (Nat.le_refl _) rfl rfl rfl
        · exact h.of_same (Nat.le_refl _) rfl rfl rfl
      · exact h
      · exact h
  | response response =>
      unfold Worker.step
      dsimp only
      split
      · split
        · exact h.of_same (Nat.le_refl _) rfl rfl rfl
        · exact h.of_same (Nat.le_refl _) rfl rfl rfl
      · exact h

end Keeps

/-- What came is sent, in order, but for what is being sent when the channel closes. -/
structure Injects (s : Worker) : Prop where
  sent : s.sent ++ s.unsent <+: s.responses.map fun r => restBookToRawMessage r.1 r.2
  whole : s.phase ≠ .stopped →
    s.sent ++ s.unsent = s.responses.map fun r => restBookToRawMessage r.1 r.2

namespace Injects

variable {s s' : Worker}

/-- Nothing has come and nothing has been sent. -/
theorem of_same (h : s.Injects) (hsent : s'.sent = s.sent) (hresponses : s'.responses = s.responses)
    (hunsent : s'.unsent = s.unsent) (hphase : s'.phase ≠ .stopped → s.phase ≠ .stopped) :
    s'.Injects := by
  refine ⟨?_, fun hrunning => ?_⟩
  · rw [hsent, hresponses, hunsent]
    exact h.sent
  · rw [hsent, hresponses, hunsent]
    exact h.whole (hphase hrunning)

theorem handle (h : s.Injects) (hphase : s.phase = .waiting) (asset : AssetId) :
    (s.handle asset).Injects := by
  have hrunning : s.phase ≠ .stopped := by
    rw [hphase]
    exact nofun
  have hnothing : s.unsent = [] := by rw [unsent, hphase]
  unfold Worker.handle
  dsimp only
  split_ifs
  · exact h.of_same rfl rfl rfl id
  · exact h.of_same rfl rfl hnothing.symm fun _ => hrunning

theorem step (h : s.Injects) (e : Event) : (s.step e).Injects := by
  cases e with
  | tick us => exact h.of_same rfl rfl rfl id
  | cancel => exact h.of_same rfl rfl rfl id
  | request asset =>
      unfold Worker.step
      dsimp only
      split_ifs
      · exact h.of_same rfl rfl rfl id
      · exact h
  | closeRequests => exact h.of_same rfl rfl rfl id
  | closeRaw => exact h.of_same rfl rfl rfl id
  | go =>
      unfold Worker.step Worker.go
      dsimp only
      split
      · rename_i hphase
        have hnothing : s.unsent = [] := by rw [unsent, hphase]
        split
        · exact h.of_same rfl rfl hnothing.symm fun hrunning => absurd rfl hrunning
        · split
          · rename_i asset requests _
            have hsame : Injects { s with requests := requests } := h.of_same rfl rfl rfl id
            exact hsame.handle hphase asset
          · split_ifs
            · exact h.of_same rfl rfl hnothing.symm fun hrunning => absurd rfl hrunning
            · exact h
      · rename_i message hphase
        have hone : s.unsent = [message] := by rw [unsent, hphase]
        have hwhole := h.whole (by rw [hphase]; exact nofun)
        rw [hone] at hwhole
        split_ifs
        · refine ⟨?_, fun hrunning => absurd rfl hrunning⟩
          change s.sent ++ [] <+: _
          rw [List.append_nil, ← hwhole]
          exact List.prefix_append _ _
        · have hsent : (s.sent ++ [message]) ++ [] =
              s.responses.map fun r => restBookToRawMessage r.1 r.2 := by
            rw [List.append_nil, hwhole]
          exact ⟨hsent ▸ List.prefix_rfl, fun _ => hsent⟩
      · exact h
      · exact h
  | response response =>
      unfold Worker.step
      dsimp only
      split
      · rename_i hphase
        have hnothing : s.unsent = [] := by rw [unsent, hphase]
        have hwhole := h.whole (by rw [hphase]; exact nofun)
        rw [hnothing, List.append_nil] at hwhole
        split
        · exact h.of_same rfl rfl hnothing.symm fun _ => by rw [hphase]; exact nofun
        · rename_i resp
          have hsent : s.sent ++ [restBookToRawMessage resp s.nowUs] =
              (s.responses ++ [(resp, s.nowUs)]).map fun r => restBookToRawMessage r.1 r.2 := by
            rw [List.map_append, ← hwhole]
            rfl
          exact ⟨hsent ▸ List.prefix_rfl, fun _ => hsent⟩
      · exact h

end Injects

end Worker

/-- What the worker has done with the requests. -/
structure Debounced (s : Worker) : Prop where
  /-- No asset is fetched twice within the window. -/
  apart : s.fetched.Pairwise fun x y => x.1 = y.1 → x.2 + resnapshotDebounceUs ≤ y.2
  /-- A request is followed by a fetch, or one was made within the window. -/
  answered : ∀ r ∈ s.handled, ∃ t, (r.1, t) ∈ s.fetched ∧ t ≤ r.2 ∧
    r.2 < t + resnapshotDebounceUs
  /-- The table holds fetches within the window of the last one only. -/
  kept : ∀ (asset : AssetId) t, s.lastFetch[asset]? = some t → (asset, t) ∈ s.fetched ∧
    ∀ last ∈ s.fetched.getLast?, last.2 < t + resnapshotDebounceUs
  sent : s.sent <+: s.responses.map fun r => restBookToRawMessage r.1 r.2

end Resnapshot

end PolyBook
