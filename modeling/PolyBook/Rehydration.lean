import PolyBook.AlikeAssets
import PolyBook.Recovery

/-!
# Hydrating a model that is in use

After a gap in the log the tailer hydrates the model it has, and nothing empties the
model first.  What the model held is gone only where the checkpoints or the replayed
records replace it.
-/

namespace PolyBook

open Wal

/-! ## What hydration applies -/

/-- The checkpoints that phase 1 applies. -/
def usableCheckpoints (walConfigured : Bool) (tokenIds : List AssetId)
    (checkpoints : List (Option BookCheckpoint)) : List BookCheckpoint :=
  (tokenIds.zip checkpoints).filterMap fun e =>
    e.2.filter fun c => !(walConfigured && c.walOffset.isNone)

theorem loadCheckpoints_model (walConfigured : Bool) (tokenIds : List AssetId)
    (model : LiveState) (checkpoints : List (Option BookCheckpoint)) :
    (loadCheckpoints walConfigured tokenIds model checkpoints).model =
      (usableCheckpoints walConfigured tokenIds checkpoints).foldl LiveState.applyCheckpoint
        model := by
  unfold loadCheckpoints usableCheckpoints
  generalize tokenIds.zip checkpoints = entries
  suffices h : ∀ acc : Loaded, (entries.foldl (loadCheckpoint walConfigured) acc).model =
      (entries.filterMap fun e => e.2.filter fun c =>
        !(walConfigured && c.walOffset.isNone)).foldl LiveState.applyCheckpoint acc.model from
    h ⟨model, ∅, 0⟩
  induction entries with
  | nil => exact fun acc => rfl
  | cons e entries ih =>
      intro acc
      rw [List.foldl_cons, ih]
      obtain ⟨assetId, none | c⟩ := e
      · rfl
      · by_cases hskipped : (walConfigured && c.walOffset.isNone) = true
        · simp only [loadCheckpoint, List.filterMap_cons, Option.filter_some, hskipped, if_true,
            Bool.not_true, Bool.false_eq_true, if_false]
        · rw [Bool.not_eq_true] at hskipped
          simp only [loadCheckpoint, List.filterMap_cons, Option.filter_some, hskipped, if_true,
            Bool.not_false, Bool.false_eq_true, if_false, List.foldl_cons]

section

variable [Bincode]

/-- The records that the replay applies, of those that are read. -/
def tailRecords (config : WalConfig) (fromGlobalOffset : Option Nat)
    (offsets : CheckpointOffsets) : List (WalPosition × Bytes) → List PersistedRecord
  | [] => []
  | x :: rest =>
      if behind fromGlobalOffset (x.1.globalOffset config) then
        tailRecords config fromGlobalOffset offsets rest
      else
        match Codec.decode x.2 with
        | .ok record =>
            if behind offsets[record.assetPartition]? (x.1.globalOffset config) then
              tailRecords config fromGlobalOffset offsets rest
            else record :: tailRecords config fromGlobalOffset offsets rest
        | .error _ => []

variable [Crc32c]

/-- The records that a hydration replays. -/
def replayedRecords (inventory : Option CheckpointInventory)
    (wal : Option (WalConfig × Option WalDirectory)) (tokenIds : List AssetId) :
    List PersistedRecord :=
  match wal with
  | some (config, some dir) =>
      let offsets := checkpointOffsets tokenIds (inventoried inventory)
      tailRecords config (walResumeOffset tokenIds offsets) offsets (intact dir.frames)
  | _ => []

/-- What has been applied, and what the rest of the frames will add to it. -/
structure Adds (config : WalConfig) (dir : Dir) (fromGlobalOffset : Option Nat)
    (offsets : CheckpointOffsets) (all : List PersistedRecord) (t : TailReplay) : Prop where
  fresh : t.reader.Fresh dir
  records : all = t.applied.map Prod.snd ++
    tailRecords config fromGlobalOffset offsets (intact (t.reader.ahead dir))

/-- A turn that ends the replay has applied all, and one that goes round adds to it. -/
def AddsTurn (config : WalConfig) (dir : Dir) (fromGlobalOffset : Option Nat)
    (offsets : CheckpointOffsets) (all : List PersistedRecord) : TailReplay ⊕ TailReplay → Prop
  | .inl t => t.applied.map Prod.snd = all
  | .inr t => Adds config dir fromGlobalOffset offsets all t

theorem Adds.replayStep {config : WalConfig} {dir : Dir} {fromGlobalOffset : Option Nat}
    {offsets : CheckpointOffsets} {all : List PersistedRecord} {t : TailReplay}
    (h : Adds config dir fromGlobalOffset offsets all t) :
    AddsTurn config dir fromGlobalOffset offsets all
      (replayStep config dir fromGlobalOffset offsets t) := by
  have hfinds := WalReader.next_finds h.fresh
  have hrecords := h.records
  unfold PolyBook.replayStep
  split
  · rename_i payload reader hnext
    rw [hnext] at hfinds
    obtain ⟨hfresh, -, skipped, hskipped, hahead⟩ := hfinds
    have hintact : intact (t.reader.ahead dir) =
        (reader.currentPosition, payload) :: intact (reader.ahead dir) := by
      rw [hahead, intact_skip hskipped]
      rfl
    rw [hintact, tailRecords] at hrecords
    unfold handlePayload
    dsimp only at hrecords ⊢
    have hreader : (t.receive reader payload).reader = reader := rfl
    rw [hreader]
    split
    · rename_i hbehind
      rw [if_pos hbehind] at hrecords
      exact ⟨hfresh, hrecords⟩
    · rename_i hpast
      rw [if_neg hpast] at hrecords
      split
      · rename_i record hdecode
        rw [hdecode] at hrecords
        dsimp only at hrecords
        split
        · rename_i hcovered
          rw [if_pos hcovered] at hrecords
          exact ⟨hfresh, hrecords⟩
        · rename_i huncovered
          rw [if_neg huncovered] at hrecords
          refine ⟨hfresh, hrecords.trans ?_⟩
          simp [TailReplay.apply, TailReplay.receive]
      · rename_i e hdecode
        rw [hdecode] at hrecords
        simpa [AddsTurn, TailReplay.fail, TailReplay.receive] using hrecords.symm
  · rename_i reader hnext
    rw [hnext] at hfinds
    rw [intact_of_corrupt hfinds.2, tailRecords, List.append_nil] at hrecords
    exact hrecords.symm
  · rename_i hnext
    rw [hnext] at hfinds
    exact hfinds.elim

/-- **What the replay applies** depends on the log alone. -/
theorem replayWalTail_applied (model : LiveState) (config : WalConfig) (wal : WalDirectory)
    (fromGlobalOffset : Option Nat) (offsets : CheckpointOffsets) :
    (replayWalTail model config wal fromGlobalOffset offsets).applied.map Prod.snd =
      tailRecords config fromGlobalOffset offsets (intact wal.frames) := by
  refine Loop.iterate_rule (replayStep_decreases config wal.segments fromGlobalOffset offsets)
    (Adds config wal.segments fromGlobalOffset offsets
      (tailRecords config fromGlobalOffset offsets (intact wal.frames)))
    (fun t => t.applied.map Prod.snd =
      tailRecords config fromGlobalOffset offsets (intact wal.frames)) ?_ ?_
    ⟨hydrationReader_fresh wal, rfl⟩
  · intro t t' h hstep
    have hturn := h.replayStep
    rwa [hstep] at hturn
  · intro t t' h hstep
    have hturn := h.replayStep
    rwa [hstep] at hturn

/-- The records that a hydration applies are those of the log. -/
theorem hydrate_applied (model : LiveState) (inventory : Option CheckpointInventory)
    (wal : Option (WalConfig × Option WalDirectory)) (tokenIds : List AssetId) :
    (hydrate model inventory wal tokenIds).applied.map Prod.snd =
      replayedRecords inventory wal tokenIds := by
  rcases wal with - | ⟨config, - | dir⟩
  · rfl
  · rfl
  · simp only [hydrate, replayedRecords, loadCheckpoints_offsets]
    exact replayWalTail_applied _ _ _ _ _

/-- **What hydration makes of a model.** -/
theorem hydrate_model (model : LiveState) (inventory : Option CheckpointInventory)
    (wal : Option (WalConfig × Option WalDirectory)) (tokenIds : List AssetId) :
    let h := hydrate model inventory wal tokenIds
    let replayed := ((usableCheckpoints wal.isSome tokenIds (inventoried inventory)).foldl
      LiveState.applyCheckpoint
        (if wal.isSome then { model with hydrated := false } else model)).applyRecords
          (h.applied.map Prod.snd)
    h.model = if h.result.recoverySucceeded then { replayed with hydrated := true }
      else replayed := by
  rcases wal with - | ⟨config, - | dir⟩
  · simp only [hydrate, loadCheckpoints_model]
    rfl
  · simp only [hydrate, loadCheckpoints_model]
    rfl
  · have htracks := (replayWalTail_tracks
      (loadCheckpoints true tokenIds { model with hydrated := false } (inventoried inventory)).model
      config dir (walResumeOffset tokenIds (checkpointOffsets tokenIds (inventoried inventory)))
      (checkpointOffsets tokenIds (inventoried inventory))).model_eq
    simp only [loadCheckpoints_model] at htracks
    simp only [hydrate, loadCheckpoints_model, loadCheckpoints_offsets, Option.isSome_some, if_true,
      htracks]

end

/-! ## Hydration through the projector -/

theorem LiveState.view_applyCheckpoint (s : LiveState) (a : AssetId) (c : BookCheckpoint) :
    (s.applyCheckpoint c).view a = (s.view a).load a c := by
  rw [applyCheckpoint, view_setAsset]
  unfold AssetView.load
  by_cases hasset : c.assetId = a
  · rw [if_pos hasset, if_pos hasset.symm, hasset]
    rfl
  · rw [if_neg hasset, if_neg fun h => hasset h.symm]

theorem LiveState.view_applyCheckpoints (s : LiveState) (a : AssetId)
    (cs : List BookCheckpoint) :
    (cs.foldl applyCheckpoint s).view a = (s.view a).loadAll a cs := by
  induction cs generalizing s with
  | nil => rfl
  | cons c cs ih => rw [List.foldl_cons, ih, view_applyCheckpoint, AssetView.loadAll_cons]

section

variable [Bincode] [Crc32c] (inventory : CheckpointInventory) (config : WalConfig)
  (wal : Option WalDirectory) (tokenIds : List AssetId)

/-- What `hydrate` sends to the projector: the log is being read again, and the read
model is the one in use. -/
def hydrateCommands (model : LiveState) : List ProjectorCommand :=
  let h := hydrate model (some inventory) (some (config, wal)) tokenIds
  .setHydrated false ::
    ((usableCheckpoints true tokenIds (inventoried (some inventory))).map .hydrateCheckpoint ++
      h.applied.map (fun x => .recordAck x.2) ++
        if h.result.recoverySucceeded then [.setHydrated true] else [])

/-- The projector once the tailer has hydrated its model again. -/
def Projector.resync (p : Projector) : Projector :=
  p.run (hydrateCommands inventory config wal tokenIds p.state)

end

namespace Projector

theorem run_state_hydrateCheckpoints (p : Projector) (cs : List BookCheckpoint) :
    (p.run (cs.map .hydrateCheckpoint)).state = cs.foldl LiveState.applyCheckpoint p.state := by
  induction cs generalizing p with
  | nil => rfl
  | cons c cs ih => exact ih (p.handleCommand (.hydrateCheckpoint c))

theorem run_state_recordAcks (p : Projector) (applied : List (WalPosition × PersistedRecord)) :
    (p.run (applied.map fun x => .recordAck x.2)).state =
      p.state.applyRecords (applied.map Prod.snd) := by
  induction applied generalizing p with
  | nil => rfl
  | cons x applied ih =>
      refine (ih (p.handleCommand (.recordAck x.2))).trans ?_
      rw [handleCommand, applyAndBroadcast_state]
      rfl

section

variable [Bincode] [Crc32c] (inventory : CheckpointInventory) (config : WalConfig)
  (wal : Option WalDirectory) (tokenIds : List AssetId)

/-- **The projector's state is the hydrated model.** -/
theorem resync_state (p : Projector) :
    (p.resync inventory config wal tokenIds).state =
      (hydrate p.state (some inventory) (some (config, wal)) tokenIds).model := by
  have hmodel := hydrate_model p.state (some inventory) (some (config, wal)) tokenIds
  dsimp only at hmodel
  rw [hmodel, resync, hydrateCommands]
  simp only [Option.isSome_some, if_true]
  generalize hydrate p.state (some inventory) (some (config, wal)) tokenIds = h
  generalize usableCheckpoints true tokenIds (inventoried (some inventory)) = cs
  set start := p.handleCommand (.setHydrated false) with hstart
  have hrun : ∀ commands, p.run (.setHydrated false :: commands) = start.run commands :=
    fun _ => rfl
  have happend : ∀ (q : Projector) xs ys, q.run (xs ++ ys) = (q.run xs).run ys :=
    fun q xs ys => Runs.run_append q xs ys
  have hreplayed : ((start.run (cs.map .hydrateCheckpoint)).run
      (h.applied.map fun x => .recordAck x.2)).state =
        (cs.foldl LiveState.applyCheckpoint { p.state with hydrated := false }).applyRecords
          (h.applied.map Prod.snd) := by
    rw [run_state_recordAcks, run_state_hydrateCheckpoints]
    rfl
  rw [hrun, happend, happend, ← hreplayed]
  by_cases hsucceeded : h.result.recoverySucceeded = true
  · rw [if_pos hsucceeded, if_pos hsucceeded]
    rfl
  · rw [if_neg hsucceeded, if_neg hsucceeded]
    rfl

theorem view_resync (p : Projector) (a : AssetId) :
    (p.resync inventory config wal tokenIds).state.view a =
      ((p.state.view a).loadAll a
        (usableCheckpoints true tokenIds (inventoried (some inventory)))).applyAll a
          (replayedRecords (some inventory) (some (config, wal)) tokenIds) := by
  have hmodel := hydrate_model p.state (some inventory) (some (config, wal)) tokenIds
  dsimp only at hmodel
  rw [resync_state, hmodel, ← hydrate_applied p.state]
  simp only [Option.isSome_some, if_true]
  split
  · exact (LiveState.view_applyRecords a _ _).trans
      (by rw [LiveState.view_applyCheckpoints]; rfl)
  · exact (LiveState.view_applyRecords a _ _).trans
      (by rw [LiveState.view_applyCheckpoints]; rfl)

theorem activeAssets_resync (p : Projector) :
    (p.resync inventory config wal tokenIds).state.activeAssets = p.state.activeAssets := by
  have hcheckpoints : ∀ (cs : List BookCheckpoint) (s : LiveState),
      (cs.foldl LiveState.applyCheckpoint s).activeAssets = s.activeAssets := by
    intro cs
    induction cs with
    | nil => exact fun _ => rfl
    | cons c cs ih => exact fun s => ih (s.applyCheckpoint c)
  have hrecords : ∀ (records : List PersistedRecord) (s : LiveState),
      (s.applyRecords records).activeAssets = s.activeAssets := by
    intro records
    induction records with
    | nil => exact fun _ => rfl
    | cons record records ih =>
        exact fun s => (ih (s.applyRecord record).1).trans (s.activeAssets_applyRecord record)
  have hmodel := hydrate_model p.state (some inventory) (some (config, wal)) tokenIds
  dsimp only at hmodel
  rw [resync_state, hmodel]
  simp only [Option.isSome_some, if_true]
  split
  · exact (hrecords _ _).trans (hcheckpoints _ _)
  · exact (hrecords _ _).trans (hcheckpoints _ _)

theorem Serves.resync {p : Projector} (h : p.Serves) :
    (p.resync inventory config wal tokenIds).Serves :=
  Runs.run_induction (fun _ command h => h.handleCommand command) h _

end

/-- The one projector serves an asset as the other does, and no more is buffered. -/
structure Forgets (p fresh : Projector) (a : AssetId) : Prop where
  answer : ∀ depth staleAfterSecs nowUs,
    p.answer a depth staleAfterSecs nowUs = fresh.answer a depth staleAfterSecs nowUs
  pending : p.state.pendingSnapshots[a]? = fresh.state.pendingSnapshots[a]?

theorem Serves.forgets_of_alike {p fresh : Projector} {a : AssetId} (hp : p.Serves)
    (hfresh : fresh.Serves) (hactive : p.state.activeAssets = fresh.state.activeAssets)
    (hmem : a ∈ p.state.activeAssets)
    (h : AssetView.Alike a (p.state.view a) (fresh.state.view a)) : Forgets p fresh a := by
  refine ⟨fun depth staleAfterSecs nowUs => ?_, h.pending⟩
  rw [hp.answer_eq hmem, hfresh.answer_eq (hactive ▸ hmem),
    LiveState.served_congr h.initialized h.sides]

/-- Equal answers tell that both have a book, or neither. -/
theorem Forgets.initialized {p fresh : Projector} {a : AssetId} (h : Forgets p fresh a)
    (hp : p.Serves) (hfresh : fresh.Serves)
    (hactive : p.state.activeAssets = fresh.state.activeAssets)
    (hmem : a ∈ p.state.activeAssets) :
    ((p.state.view a).stateD a).initializedFromSnapshot =
      ((fresh.state.view a).stateD a).initializedFromSnapshot := by
  have hanswer := h.answer 0 0 0
  rw [hp.answer_eq hmem, hfresh.answer_eq (hactive ▸ hmem)] at hanswer
  unfold LiveState.served at hanswer
  cases hinit : ((p.state.view a).stateD a).initializedFromSnapshot <;>
    cases hinit' : ((fresh.state.view a).stateD a).initializedFromSnapshot <;>
    simp [hinit, hinit'] at hanswer ⊢

end Projector

section

variable [Bincode] [Crc32c]

open Projector in
/-- **Hydrating again forgets the past of a restored asset, and of no other** but one
that the fresh model rebuilds too. -/
theorem resync_forgets (mode : FeedMode) (commands : List ProjectorCommand)
    (inventory : CheckpointInventory) (config : WalConfig) (wal : Option WalDirectory)
    (tokenIds : List AssetId) {a : AssetId}
    (hactive : a ∈ ((Projector.new mode).run commands).state.activeAssets) :
    let prior := (Projector.new mode).run commands
    let fresh := (Projector.new mode).run [.setActiveAssets prior.state.activeAssets]
    let checkpoints := usableCheckpoints true tokenIds (inventoried (some inventory))
    let records := replayedRecords (some inventory) (some (config, wal)) tokenIds
    let forgets := Forgets (prior.resync inventory config wal tokenIds)
      (fresh.resync inventory config wal tokenIds) a
    (AssetView.Restored a (prior.state.view a) checkpoints records → forgets) ∧
      (forgets → AssetView.Restored a (prior.state.view a) checkpoints records ∨
        AssetView.Rebuilt a (prior.state.view a) checkpoints records) := by
  intro prior fresh checkpoints records forgets
  have hprior : prior.Serves := serves_run mode commands
  have hfresh : fresh.Serves := serves_run mode _
  have hactives : (prior.resync inventory config wal tokenIds).state.activeAssets =
      (fresh.resync inventory config wal tokenIds).state.activeAssets := by
    rw [activeAssets_resync, activeAssets_resync]
    rfl
  have hmem : a ∈ (prior.resync inventory config wal tokenIds).state.activeAssets := by
    rwa [activeAssets_resync]
  have hpending : (fresh.state.view a).pending = none := by
    have hlookup := LiveState.getElem?_pendingSnapshots_setActiveAssets (LiveState.new mode)
      prior.state.activeAssets a
    refine hlookup.trans ?_
    simp [LiveState.new]
  have hinit : ((fresh.state.view a).stateD a).initializedFromSnapshot = false := by
    have hlookup := getElem?_retainAssets (LiveState.new mode).assets prior.state.activeAssets a
    have hstate : (fresh.state.view a).state = some (AssetState.new a) := by
      refine hlookup.trans ?_
      simp [LiveState.new, show a ∈ prior.state.activeAssets from hactive]
    rw [AssetView.stateD, hstate]
    rfl
  have hview := view_resync inventory config wal tokenIds prior a
  have hview' := view_resync inventory config wal tokenIds fresh a
  constructor
  · intro hrestored
    refine hprior.resync inventory config wal tokenIds |>.forgets_of_alike
      (hfresh.resync inventory config wal tokenIds) hactives hmem ?_
    rw [hview, hview']
    exact AssetView.alike_of_restored (hprior.keyed a) hrestored hpending hinit
  · intro hforgets
    have hready := hforgets.initialized (hprior.resync inventory config wal tokenIds)
      (hfresh.resync inventory config wal tokenIds) hactives hmem
    have hsame : ((prior.resync inventory config wal tokenIds).state.view a).pending =
        ((fresh.resync inventory config wal tokenIds).state.view a).pending := hforgets.pending
    rw [hview, hview'] at hready hsame
    exact AssetView.restored_or_rebuilt hpending hinit hsame hready

end

/-! A book that no checkpoint and no record speaks of any more. -/
namespace LeftOver

open PolyBook.Sample Wal.Sample

/-- A checkpoint of the sample, with a log offset or without. -/
def checkpoint (walOffset : Option Nat) : BookCheckpoint where
  assetId := "tok1"
  checkpointTimestampUs := 1
  provenance := provenance 1 "checkpoint"
  bids := [⟨price 40, size 1⟩]
  asks := [⟨price 60, size 1⟩]
  walOffset := walOffset

/-- The commands before the sample's hydration. -/
def commands : List ProjectorCommand :=
  [.setActiveAssets ["tok1"], .hydrateCheckpoint (checkpoint (some 64))]

/-- The configuration of the sample. -/
def config : WalConfig := ⟨4096, 64, 1048576⟩

/-- A directory that a pruning has emptied. -/
def pruned : WalDirectory := ⟨∅, none⟩

/-- The projector after another hydration. -/
def again (commands : List ProjectorCommand) (inventory : CheckpointInventory) : Projector :=
  @Projector.resync bincode castagnoli inventory config (some pruned) ["tok1"]
    ((Projector.new .fixedTokens).run commands)

end LeftOver

open LeftOver in
/-- A checkpoint replaces the book. -/
theorem resync_forgets_checkpoint :
    Projector.Forgets (again commands (.ok [some (checkpoint (some 64))]))
      (again [.setActiveAssets ["tok1"]] (.ok [some (checkpoint (some 64))])) "tok1" := by
  have hforgets := (@resync_forgets Wal.Sample.bincode castagnoli .fixedTokens commands
    (.ok [some (checkpoint (some 64))]) config (some pruned) ["tok1"] "tok1" (by decide)).1
  refine hforgets (.quiet (fun p hp => ?_) (Or.inr ⟨checkpoint (some 64), ?_, rfl, ?_⟩))
  · have hnone : (((Projector.new .fixedTokens).run commands).state.view "tok1").pending.isNone =
        true := by decide +kernel
    rw [Option.isNone_iff_eq_none.mp hnone] at hp
    cases hp
  · exact List.mem_cons_self
  · decide +kernel

open LeftOver in
/-- Nothing replaces it. -/
theorem left_over_book_is_served :
    ¬ ∀ (mode : FeedMode) (commands : List ProjectorCommand) (inventory : CheckpointInventory)
      (config : WalConfig) (wal : Option WalDirectory) (tokenIds : List AssetId),
      ∀ a ∈ ((Projector.new mode).run commands).state.activeAssets,
        Projector.Forgets
          (@Projector.resync Wal.Sample.bincode castagnoli inventory config wal tokenIds
            ((Projector.new mode).run commands))
          (@Projector.resync Wal.Sample.bincode castagnoli inventory config wal tokenIds
            ((Projector.new mode).run [.setActiveAssets
              ((Projector.new mode).run commands).state.activeAssets])) a := by
  intro hall
  have hforgets := hall .fixedTokens commands (.ok [none]) config (some pruned) ["tok1"] "tok1"
    (by decide)
  have hanswer := hforgets.answer 1 0 0
  revert hanswer
  decide +kernel

end PolyBook
