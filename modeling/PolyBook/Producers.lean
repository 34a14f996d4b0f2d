import PolyBook.Agreement
import PolyBook.Library.Interleaving

/-!
# Several producers on one event channel

Dispatchers that serve disjoint asset sets and the checkpoint producer send
their records one by one into one channel.  The live state sees the merged
sequence and ends an asset's snapshot group at the first record outside it, so a
foreign record between two records of one snapshot splits the group, and the
tail replaces what the head had built.

`live_book_eq_own_of_uncrossed` is the exact guarantee that remains: as long as
no foreign record falls inside a snapshot run of the asset, the merged run holds
the book of the asset's own dispatcher.
-/

namespace PolyBook

open Interleaving

/-- Who put a record on the event channel. -/
inductive Producer (ι : Type) where
  | dispatcher (feed : ι)
  | checkpointProducer
  deriving DecidableEq

/-- Book records of an asset come from the one dispatcher that serves it,
checkpoints from the checkpoint producer. -/
def Serves {ι : Type} (owner : AssetId → ι) (j : Producer ι) : PersistedRecord → Prop
  | .book e => j = .dispatcher (owner e.assetId)
  | .checkpoint _ => j = .checkpointProducer
  | _ => True

instance {ι : Type} [DecidableEq ι] (owner : AssetId → ι) (j : Producer ι)
    (x : PersistedRecord) : Decidable (Serves owner j x) :=
  match x with
  | .book e => inferInstanceAs (Decidable (j = .dispatcher (owner e.assetId)))
  | .checkpoint _ => inferInstanceAs (Decidable (j = .checkpointProducer))
  | .trade _ => isTrue trivial
  | .ingest _ => isTrue trivial
  | .validation _ => isTrue trivial

/-- A history of the event channel. -/
structure ChannelRun (ι : Type) where
  owner : AssetId → ι
  sent : List (Producer ι × PersistedRecord)
  served : ∀ s ∈ sent, Serves owner s.1 s.2

namespace ChannelRun

variable {ι : Type} (run : ChannelRun ι) (a : AssetId)

/-- The records of the asset's own dispatcher, in order. -/
def ownRecords [DecidableEq ι] : List PersistedRecord := own (.dispatcher (run.owner a)) run.sent

/-- A checkpoint of the asset is on the channel. -/
def checkpointed : Bool :=
  run.sent.any fun s => match s.2 with
    | .checkpoint c => c.assetId == a
    | _ => false

/-- A foreign record falls between two neighbouring records of one snapshot. -/
def splitsSnapshot [DecidableEq ι] : Bool :=
  (crossed (.dispatcher (run.owner a)) run.sent).any fun p => sameGroup a p.1 p.2

/-- What the run allows producer `j` to send. -/
def Allowed (j : Producer ι) (x : PersistedRecord) : Prop :=
  Serves run.owner j x ∧
    (run.checkpointed a = false → ∀ c, x = .checkpoint c → c.assetId ≠ a)

theorem allowed_of_mem {s : Producer ι × PersistedRecord} (hs : s ∈ run.sent) :
    run.Allowed a s.1 s.2 := by
  refine ⟨run.served s hs, ?_⟩
  intro hnone c hc hasset
  have hsome : run.checkpointed a = true := by
    refine List.any_eq_true.mpr ⟨s, hs, ?_⟩
    simp [hc, hasset]
  rw [hnone] at hsome
  cases hsome

/-- A dispatcher sends no checkpoint. -/
theorem ne_checkpoint_of_allowed {feed : ι} {x : PersistedRecord}
    (hx : run.Allowed a (.dispatcher feed) x) (c : BookCheckpoint) : x ≠ .checkpoint c := by
  rintro rfl
  cases hx.1

/-- Nothing foreign has arrived since the dispatcher's last record. -/
def Near (last : Option PersistedRecord) (v w : AssetView) : Prop :=
  AssetView.Agree a (run.checkpointed a = false) v w ∧ AssetView.Tracks a last v

/-- Foreign records have ended the group the dispatcher's stream still buffers. -/
def Far (last : Option PersistedRecord) (v w : AssetView) : Prop :=
  AssetView.Agree a (run.checkpointed a = false) (v.flush a) w ∧ AssetView.Tracks a last v

theorem near_step {last : Option PersistedRecord} {v w : AssetView} {x : PersistedRecord}
    (hx : run.Allowed a (.dispatcher (run.owner a)) x) (h : run.Near a last v w) :
    run.Near a (some x) (v.apply a x) (w.apply a x) := by
  refine ⟨h.1.apply a x ?_, AssetView.tracks_apply a h.2 x⟩
  intro c hc
  exact absurd hc (run.ne_checkpoint_of_allowed a hx c)

theorem far_step {last : Option PersistedRecord} {v w : AssetView} {x : PersistedRecord}
    (hx : run.Allowed a (.dispatcher (run.owner a)) x) (h : run.Far a last v w)
    (happart : ∀ y, last = some y → sameGroup a y x = false) :
    run.Near a (some x) (v.apply a x) (w.apply a x) := by
  refine ⟨?_, AssetView.tracks_apply a h.2 x⟩
  have hv : v.before a x = v.flush a := by
    cases last with
    | some y => exact AssetView.before_of_not_sameGroup a h.2 (happart y rfl)
    | none =>
        have hnone : v.pending = none := by
          cases hp : v.pending with
          | none => rfl
          | some p =>
              obtain ⟨e, he, _⟩ := h.2 p hp
              cases he
        rw [AssetView.before_of_pending_none a hnone,
          AssetView.flush_of_pending_none a hnone]
  have hw : w.before a x = w := by
    refine AssetView.before_of_pending_none a ?_
    rw [← h.1.pending, AssetView.flush_pending]
  rw [AssetView.apply, AssetView.apply, hv, hw]
  refine h.1.own a x ?_
  intro c hc
  exact absurd hc (run.ne_checkpoint_of_allowed a hx c)

/-- A foreign record changes neither the asset's book, unless it is a checkpoint
the dispatcher's own stream does not need, nor its place in the group. -/
theorem cross_step {last : Option PersistedRecord} {v w : AssetView} {j : Producer ι}
    {x : PersistedRecord} (hj : j ≠ .dispatcher (run.owner a)) (hx : run.Allowed a j x)
    (h : run.Near a last v w ∨ run.Far a last v w) :
    run.Far a last v (w.apply a x) := by
  have hbook : ∀ e, x = .book e → e.assetId ≠ a := by
    rintro e rfl rfl
    exact hj hx.1
  obtain ⟨hagree, htracks⟩ : AssetView.Agree a (run.checkpointed a = false)
      (v.flush a) (w.before a x) ∧ AssetView.Tracks a last v := by
    rcases h with ⟨hagree, htracks⟩ | ⟨hagree, htracks⟩
    · have hw : AssetView.Tracks a last w := by
        intro p hp
        exact htracks p (hagree.pending.trans hp)
      rw [AssetView.before_of_foreign a hw hbook]
      exact ⟨hagree.flush a, htracks⟩
    · have hw : w.pending = none := by
        rw [← hagree.pending, AssetView.flush_pending]
      rw [AssetView.before_of_pending_none a hw]
      exact ⟨hagree, htracks⟩
  refine ⟨?_, htracks⟩
  unfold AssetView.apply
  generalize w.before a x = u at hagree
  cases x with
  | book e =>
      have he := hbook e rfl
      simpa [AssetView.own, he] using hagree
  | trade e => exact hagree
  | ingest e =>
      simp only [AssetView.own]
      split
      · exact ⟨hagree.pending, hagree.state.congr rfl rfl rfl rfl⟩
      · exact hagree
  | checkpoint c =>
      simp only [AssetView.own]
      split
      · rename_i hc
        have hsame : ¬ run.checkpointed a = false :=
          fun hnone => hx.2 hnone c rfl hc.1
        exact ⟨hagree.pending, hagree.state.applyCheckpoint_right hsame hc.2 c⟩
      · exact hagree
  | validation e => exact hagree

/-- **Contiguous snapshots survive.**  When no foreign record falls inside a
snapshot run of the asset, the merged channel leaves the book that the asset's
own dispatcher describes.  A checkpoint may also be on the channel if one of the
dispatcher's snapshots fits the book's totals. -/
theorem live_book_eq_own_of_uncrossed [DecidableEq ι]
    (mode : FeedMode) (hsplit : run.splitsSnapshot a = false)
    (hseeds : run.checkpointed a = false ∨ seeds a (run.ownRecords a) = true) :
    (LiveState.replay mode (merged run.sent)).book a =
      (LiveState.replay mode (run.ownRecords a)).book a := by
  have hstart : run.Near a none AssetView.empty AssetView.empty :=
    ⟨.refl a _, AssetView.tracks_of_pending_none a rfl none⟩
  have hapart : ∀ p ∈ crossed (.dispatcher (run.owner a)) run.sent,
      sameGroup a p.1 p.2 = false := by
    intro p hp
    simpa using List.any_eq_false.mp hsplit p hp
  obtain ⟨last, hend⟩ := crossing_simulation (.dispatcher (run.owner a))
    (AssetView.apply a) (fun x y => sameGroup a x y = false) (run.Allowed a)
    (run.Near a) (run.Far a)
    (fun _ _ _ _ => run.near_step a) (fun _ _ _ _ => run.far_step a)
    (fun _ _ _ _ _ => run.cross_step a) run.sent
    (fun _ hs => run.allowed_of_mem a hs) hapart hstart
  have hagree : AssetView.Agree a (run.checkpointed a = false)
      ((AssetView.empty.applyAll a (run.ownRecords a)).flush a)
      ((AssetView.empty.applyAll a (merged run.sent)).flush a) := by
    rcases hend with ⟨hagree, _⟩ | ⟨hagree, _⟩
    · exact hagree.flush a
    · have hflush := hagree.flush a
      rwa [AssetView.flush_flush] at hflush
  rw [LiveState.book_eq, LiveState.book_eq, LiveState.view_replay, LiveState.view_replay]
  refine (hagree.state.book ?_).symm
  rcases hseeds with hnone | hseeds
  · exact Or.inl hnone
  · refine Or.inr ?_
    rw [AssetView.applyAll_flush_initialized a rfl, hseeds, Bool.or_true]

/-- A two-level snapshot and a level change of one market, with level changes of
another market around them. -/
def uncrossedRun : ChannelRun Nat where
  owner := fun asset => if asset = "yes" then 0 else 1
  sent := [
    (.dispatcher 1, .book (Sample.level .delta "no" .bid 40 7 1 "x")),
    (.dispatcher 0, .book (Sample.level .snapshot "yes" .bid 50 10 2 "m")),
    (.dispatcher 0, .book (Sample.level .snapshot "yes" .ask 60 5 2 "m")),
    (.dispatcher 1, .book (Sample.level .delta "no" .bid 41 7 3 "y")),
    (.dispatcher 0, .book (Sample.level .delta "yes" .bid 51 3 4 "n"))]
  served := by decide

theorem live_book_eq_own_of_uncrossed_run :
    uncrossedRun.splitsSnapshot "yes" = false ∧
      (LiveState.replay .fixedTokens (merged uncrossedRun.sent)).book "yes" =
        (LiveState.replay .fixedTokens (uncrossedRun.ownRecords "yes")).book "yes" :=
  ⟨by decide, uncrossedRun.live_book_eq_own_of_uncrossed "yes" .fixedTokens (by decide)
    (Or.inl (by decide))⟩

/-- The same snapshot with the other market's level change inside it. -/
def crossedRun : ChannelRun Nat where
  owner := fun asset => if asset = "yes" then 0 else 1
  sent := [
    (.dispatcher 0, .book (Sample.level .snapshot "yes" .bid 50 10 2 "m")),
    (.dispatcher 1, .book (Sample.level .delta "no" .bid 40 7 1 "x")),
    (.dispatcher 0, .book (Sample.level .snapshot "yes" .ask 60 5 2 "m"))]
  served := by decide

/-- The bid sent before the foreign record is gone from the live book. -/
theorem crossed_run_truncates_book :
    seeds "yes" (crossedRun.ownRecords "yes") = true ∧
      crossedRun.checkpointed "yes" = false ∧
      (LiveState.replay .fixedTokens (merged crossedRun.sent)).book "yes" ≠
        (LiveState.replay .fixedTokens (crossedRun.ownRecords "yes")).book "yes" := by
  refine ⟨by decide, by decide, ?_⟩
  intro h
  exact absurd (congrArg L2Book.bestBid h) (by decide)

end ChannelRun

end PolyBook
