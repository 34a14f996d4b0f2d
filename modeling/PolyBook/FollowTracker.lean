import Mathlib.Data.Set.Basic
import PolyBook.Library.Recency
import PolyBook.ActiveSet

/-!
# Following the assets of the log

In follow mode `serve` derives its active set from the records it tails: an asset is
active while its newest record lies within the idle window of the newest record of
any asset.  A tracker keeps the last sighting of each asset and forgets, whenever it
publishes a changed set, the assets that have fallen out of the window.

Records arrive in any order of their timestamps, so a forgotten asset can come back
with an old one.  `published_eq_active` compares the tracker with the window over the
whole history: the two agree after every synchronisation.
-/

namespace PolyBook

/-- How long an asset stays active after its last record: ten minutes. -/
def followIdleUs : Nat := 10 * 60 * 1000000

/-- The start of the idle window of the newest record. -/
def followCutoff (newestUs : Nat) : Nat := newestUs - followIdleUs

/-- The last sightings, the newest time of all, and the set last published. -/
structure FollowTracker where
  lastSeenUs : Std.ExtTreeMap AssetId Nat := ∅
  newestUs : Nat := 0
  published : List AssetId := []

/-- The asset whose activity a record shows: ingest events that name no asset and
validations show none. -/
def PersistedRecord.activeAsset : PersistedRecord → Option AssetId
  | .book e => some e.assetId
  | .trade e => some e.assetId
  | .checkpoint e => some e.assetId
  | .ingest e => e.assetId
  | .validation _ => none

/-- The newest timestamp among the known assets and the tracker's own. -/
def newestOf (known : List (AssetId × Nat)) (newestUs : Nat) : Nat :=
  max ((known.map Prod.snd).max?.getD 0) newestUs

namespace FollowTracker

/-- `note`: an asset has been seen at a time. -/
def note (t : FollowTracker) (assetId : AssetId) (ts : Nat) : FollowTracker :=
  { t with
    lastSeenUs := t.lastSeenUs.insert assetId (max (t.lastSeenUs[assetId]?.getD 0) ts)
    newestUs := max t.newestUs ts }

/-- Adopt the assets of the read model.  One without a timestamp counts as current:
its snapshot group is still pending. -/
def seedFrom (t : FollowTracker) (known : List (AssetId × Nat)) : FollowTracker :=
  let newest := newestOf known t.newestUs
  known.foldl (fun t entry => t.note entry.1 (if entry.2 = 0 then newest else entry.2)) t

/-- Record a tailed record; true when it introduces an asset. -/
def observe (t : FollowTracker) (record : PersistedRecord) : FollowTracker × Bool :=
  match record.activeAsset with
  | none => (t, false)
  | some assetId =>
      match record.recvTimestampUs with
      | none => (t, false)
      | some ts => (t.note assetId ts, !t.lastSeenUs.contains assetId)

/-- The assets seen within the idle window, in the order of their ids, which is the
order the map lists them in. -/
def desired (t : FollowTracker) : List AssetId :=
  let cutoff := followCutoff t.newestUs
  (t.lastSeenUs.toList.filter fun entry => decide (cutoff ≤ entry.2)).map Prod.fst

/-- Publish the desired set when it differs from the published one, and forget the
assets outside the window.  The second part is what the live state and the broadcast
are told. -/
def sync (t : FollowTracker) : FollowTracker × Option (List AssetId) :=
  let desired := t.desired
  if desired = t.published then (t, none)
  else
    let cutoff := followCutoff t.newestUs
    ({ t with
        lastSeenUs := t.lastSeenUs.filter fun _ ts => decide (cutoff ≤ ts)
        published := desired },
      some desired)

/-- What `serve` does with its tracker. -/
inductive Operation where
  | seedFrom (known : List (AssetId × Nat))
  | observe (record : PersistedRecord)
  | sync

/-- One operation of the tracker. -/
def step (t : FollowTracker) : Operation → FollowTracker
  | .seedFrom known => t.seedFrom known
  | .observe record => (t.observe record).1
  | .sync => t.sync.1

/-- A run of operations. -/
def run (operations : List Operation) : FollowTracker := operations.foldl step {}

/-- The sets the live state and the broadcast are told, in order. -/
def told : FollowTracker → List Operation → List (List AssetId)
  | _, [] => []
  | t, .sync :: operations => t.sync.2.toList ++ told t.sync.1 operations
  | t, operation :: operations => told (t.step operation) operations

/-- The set in force after a run: the last one told. -/
def inForce (operations : List Operation) : List AssetId := (told {} operations).getLast?.getD []

end FollowTracker

/-! ## The complete history -/

/-- All sightings, oldest first. -/
abbrev Sightings := List (AssetId × Nat)

namespace Sightings

/-- The newest time of all. -/
def newest (history : Sightings) : Nat := (history.map Prod.snd).foldl max 0

/-- The sightings an operation adds. -/
def record (history : Sightings) : FollowTracker.Operation → Sightings
  | .seedFrom known => history ++ known.map fun entry =>
      (entry.1, if entry.2 = 0 then newestOf known history.newest else entry.2)
  | .observe record => history ++
      (record.activeAsset.bind fun assetId => record.recvTimestampUs.map (assetId, ·)).toList
  | .sync => history

/-- What a run of operations has seen. -/
def ofRun (operations : List FollowTracker.Operation) : Sightings := operations.foldl record []

/-- The assets with a sighting in the idle window of the newest one. -/
def active (history : Sightings) : Set AssetId :=
  {assetId | ∃ ts, (assetId, ts) ∈ history ∧ followCutoff history.newest ≤ ts}

/-- The newest sighting, with one more. -/
theorem newest_concat (history : Sightings) (assetId : AssetId) (ts : Nat) :
    newest (history ++ [(assetId, ts)]) = max (newest history) ts := by
  simp [newest]

end Sightings

namespace FollowTracker

open Recency Sightings

/-! ## A tracker and the history it has seen -/

/-- The tracker knows the newest time of the history, and its table differs from the
complete one only in entries before the window. -/
structure Tracks (t : FollowTracker) (history : Sightings) : Prop where
  newest : t.newestUs = history.newest
  same : SameFrom (followCutoff t.newestUs) (fun a => t.lastSeenUs[a]?) (lastSeen history)

/-- Noting raises the asset's last sighting. -/
theorem getElem?_note (t : FollowTracker) (assetId : AssetId) (ts : Nat) :
    (fun a => (t.note assetId ts).lastSeenUs[a]?) =
      raise (fun a => t.lastSeenUs[a]?) assetId ts := by
  funext a
  rw [note, raise]
  dsimp only
  rw [TreeMapLookup.getElem?_insert]
  by_cases ha : a = assetId
  · rw [if_pos ha, if_pos ha]
    cases t.lastSeenUs[assetId]? with
    | none => simp
    | some u => rfl
  · rw [if_neg ha, if_neg ha]

/-- Noting a sighting adds it to the history. -/
theorem Tracks.note {t : FollowTracker} {history : Sightings} (h : Tracks t history)
    (assetId : AssetId) (ts : Nat) :
    Tracks (t.note assetId ts) (history ++ [(assetId, ts)]) where
  newest := by
    rw [newest_concat, ← h.newest]
    rfl
  same := by
    have hle : followCutoff t.newestUs ≤ followCutoff (t.note assetId ts).newestUs :=
      Nat.sub_le_sub_right (Nat.le_max_left _ _) _
    rw [getElem?_note, lastSeen_concat]
    exact (h.same.mono hle).raise assetId ts

/-- Noting sightings adds them to the history. -/
theorem Tracks.notes {t : FollowTracker} {history : Sightings} (h : Tracks t history)
    (sightings : Sightings) :
    Tracks (sightings.foldl (fun t s => t.note s.1 s.2) t) (history ++ sightings) := by
  induction sightings generalizing t history with
  | nil =>
      rw [List.append_nil]
      exact h
  | cons sighting sightings ih =>
      have hnext := ih (h.note sighting.1 sighting.2)
      rwa [List.append_assoc] at hnext

/-- Seeding adds what is known to the history. -/
theorem Tracks.seedFrom {t : FollowTracker} {history : Sightings} (h : Tracks t history)
    (known : List (AssetId × Nat)) :
    Tracks (t.seedFrom known) (history.record (.seedFrom known)) := by
  have hnotes := h.notes (known.map fun entry =>
    (entry.1, if entry.2 = 0 then newestOf known history.newest else entry.2))
  rw [List.foldl_map, ← h.newest] at hnotes
  rw [FollowTracker.seedFrom, Sightings.record, ← h.newest]
  exact hnotes

/-- Observing a record adds its sighting to the history. -/
theorem Tracks.observe {t : FollowTracker} {history : Sightings} (h : Tracks t history)
    (record : PersistedRecord) :
    Tracks (t.observe record).1 (history.record (.observe record)) := by
  unfold FollowTracker.observe Sightings.record
  dsimp only
  cases record.activeAsset with
  | none => simpa using h
  | some assetId =>
      cases record.recvTimestampUs with
      | none => simpa using h
      | some ts => exact h.note assetId ts

/-- What is kept is what is not too old. -/
theorem getElem?_retain (seen : Std.ExtTreeMap AssetId Nat) (cutoff : Nat) :
    (fun a => (seen.filter fun _ ts => decide (cutoff ≤ ts))[a]?) =
      fun a : AssetId => seen[a]?.filter fun ts => decide (cutoff ≤ ts) := by
  funext a
  rw [Std.ExtTreeMap.getElem?_filter']

/-- Forgetting what is too old changes nothing that counts. -/
theorem Tracks.forget {t : FollowTracker} {history : Sightings} (h : Tracks t history)
    (published : List AssetId) :
    Tracks
      { t with
        lastSeenUs := t.lastSeenUs.filter fun _ ts => decide (followCutoff t.newestUs ≤ ts)
        published := published }
      history where
  newest := h.newest
  same := by
    dsimp only
    rw [getElem?_retain]
    exact h.same.forget fun ts => decide_eq_true_iff

/-- A sync sees nothing. -/
theorem Tracks.sync {t : FollowTracker} {history : Sightings} (h : Tracks t history) :
    Tracks t.sync.1 history := by
  unfold FollowTracker.sync
  by_cases hsame : t.desired = t.published
  · rw [if_pos hsame]
    exact h
  · rw [if_neg hsame]
    exact h.forget t.desired

/-- Every operation is told by the history. -/
theorem Tracks.step {t : FollowTracker} {history : Sightings} (h : Tracks t history)
    (operation : Operation) : Tracks (t.step operation) (history.record operation) := by
  cases operation with
  | seedFrom known => exact h.seedFrom known
  | observe record => exact h.observe record
  | sync => exact h.sync

/-- **The tracker knows the history**, as far as it counts. -/
theorem tracks_run (operations : List Operation) :
    Tracks (run operations) (ofRun operations) := by
  induction operations using List.reverseRecOn with
  | nil => exact ⟨rfl, fun a => Or.inl (by simp [run, ofRun, lastSeen])⟩
  | append_singleton operations operation ih =>
      rw [run, ofRun, List.foldl_concat, List.foldl_concat]
      exact ih.step operation

/-! ## What is published -/

/-- The assets desired are those seen lately. -/
theorem mem_desired (t : FollowTracker) (a : AssetId) :
    a ∈ t.desired ↔ ∃ ts ∈ t.lastSeenUs[a]?, followCutoff t.newestUs ≤ ts := by
  rw [desired, TreeMapLookup.mem_filter_toList_iff]
  simp only [Option.any_eq_true, Option.mem_def, decide_eq_true_eq]

/-- The assets desired are the active ones of the history. -/
theorem Tracks.mem_desired_iff {t : FollowTracker} {history : Sightings} (h : Tracks t history)
    (a : AssetId) : a ∈ t.desired ↔ a ∈ history.active := by
  rw [mem_desired, h.same.seen_iff a, lastSeen_iff, h.newest, active, Set.mem_ofPred_eq]

/-- A sync publishes the assets desired. -/
theorem published_sync (t : FollowTracker) : t.sync.1.published = t.desired := by
  unfold sync
  by_cases hsame : t.desired = t.published
  · rw [if_pos hsame, hsame]
  · rw [if_neg hsame]

/-- The desired assets stand in the order of their ids, each once. -/
theorem desired_sorted (t : FollowTracker) :
    t.desired.Pairwise fun a b => compare a b = .lt := by
  rw [desired, List.pairwise_map]
  exact t.lastSeenUs.ordered_keys_toList.filter _

/-- Noting publishes nothing. -/
theorem published_note (t : FollowTracker) (assetId : AssetId) (ts : Nat) :
    (t.note assetId ts).published = t.published := rfl

/-- Seeding publishes nothing. -/
theorem published_seedFrom (t : FollowTracker) (known : List (AssetId × Nat)) :
    (t.seedFrom known).published = t.published := by
  unfold seedFrom
  dsimp only
  generalize newestOf known t.newestUs = newest
  induction known generalizing t with
  | nil => rfl
  | cons entry known ih => rw [List.foldl_cons, ih, published_note]

/-- Observing publishes nothing. -/
theorem published_observe (t : FollowTracker) (record : PersistedRecord) :
    (t.observe record).1.published = t.published := by
  unfold observe
  cases record.activeAsset with
  | none => rfl
  | some assetId => cases record.recvTimestampUs <;> rfl

/-- What a sync tells last is what it has published. -/
theorem told_sync (t : FollowTracker) :
    t.sync.2.toList.getLast?.getD t.published = t.sync.1.published := by
  unfold sync
  by_cases hsame : t.desired = t.published
  · rw [if_pos hsame]
    rfl
  · rw [if_neg hsame]
    rfl

/-- The last set told is the one the tracker has on record. -/
theorem told_last (t : FollowTracker) (operations : List Operation) :
    (told t operations).getLast?.getD t.published = (operations.foldl step t).published := by
  induction operations generalizing t with
  | nil => rfl
  | cons operation operations ih =>
      cases operation with
      | seedFrom known =>
          rw [told, List.foldl_cons, ← ih, step, published_seedFrom]
          intro h
          cases h
      | observe record =>
          rw [told, List.foldl_cons, ← ih, step, published_observe]
          intro h
          cases h
      | sync =>
          rw [told, List.foldl_cons, ← ih, step, ← told_sync, List.getLast?_append]
          cases (told t.sync.1 operations).getLast? <;> rfl

/-- **The pruned tracker publishes what the whole history says.**  After every
synchronisation of every run the set in force, which is the one the tracker has on
record, is the set of assets with a sighting in the idle window of the complete
history; it is listed in order and without repetition. -/
theorem published_eq_active (operations : List Operation) :
    inForce (operations ++ [.sync]) = (run (operations ++ [.sync])).published ∧
      {a | a ∈ (run (operations ++ [.sync])).published} = (ofRun operations).active ∧
      (run (operations ++ [.sync])).published.Pairwise fun a b => compare a b = .lt := by
  have hrun : run (operations ++ [.sync]) = (run operations).sync.1 := List.foldl_concat ..
  refine ⟨told_last {} _, ?_, ?_⟩
  · rw [hrun, published_sync]
    ext a
    exact (tracks_run operations).mem_desired_iff a
  · rw [hrun, published_sync]
    exact desired_sorted _

end FollowTracker

end PolyBook
