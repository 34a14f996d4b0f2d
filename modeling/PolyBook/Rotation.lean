import Mathlib.Algebra.Order.Ring.Nat
import Mathlib.Data.List.Chain
import PolyBook.Library.Runs
import PolyBook.MarketDiscovery

/-!
# The rotation of markets

`--auto-rotate` follows a market that the venue opens anew every five minutes.  The loop
waits for the time shortly before the next bucket, asks the venue for its tokens, subscribes
to them, and stops the market it followed so far once that market's bucket has ended.
Whatever the loop awaits is a phase; time passes, the shutdown comes and the venue answers
between any two of its steps.

* `Scheduled` — which buckets are taken, when they are asked for, and when their markets
  start and stop;
* `Reported` — where every market is, what the callers and the registry were told of it.
-/

namespace PolyBook

/-- `BUCKET_SECS`. -/
def bucketSecs : Nat := 300

/-- `PRE_ROTATION_SECS`. -/
def preRotationSecs : Nat := 10

/-- A generation, by the market it is subscribed to. -/
structure Subscription where
  bucket : Nat
  tokenIds : List String
  sinceMs : Nat
deriving DecidableEq

/-- The end of a subscription.  The boundary is missing where the loop itself ended. -/
structure Retirement where
  market : Subscription
  boundary : Option Nat
  atMs : Nat
  cancelled : Bool
deriving DecidableEq

/-- A bucket that the loop turned to. -/
structure Target where
  bucket : Nat
  chosenMs : Nat
deriving DecidableEq

/-- Where `run_feed` stands. -/
inductive RotationPhase
  /-- at the head of the loop -/
  | choosing
  /-- the time to wake at is known, but not yet how long to sleep -/
  | timing (target wakeAt : Nat)
  | waiting (target untilMs : Nat)
  /-- `discover_by_slug` is on its way -/
  | asking (target attempt delayMs : Nat)
  | backingOff (target attempt delayMs untilMs : Nat)
  /-- the sleep of `retire_at_boundary` -/
  | retiring (target : Nat) (old : Subscription) (next : Option Subscription) (untilMs : Nat)
  /-- the outgoing market is being stopped -/
  | rotating (target : Nat) (next : Option Subscription)
  /-- `on_active` runs -/
  | rotated
  /-- the loop has ended, and the last market is being stopped -/
  | leaving
  | gone
  /-- `run_rotation` has returned an error -/
  | crashed

/-- What has happened so far. -/
structure RotationLog where
  targets : List Target
  /-- the buckets of the requests to the venue -/
  asked : List Nat
  failed : List Nat
  discoveries : List DiscoveryResult
  subscribed : List Subscription
  retired : List Retirement

/-- The rotation manager: where it is in its loop, the generation in front, and the log of
what it did. -/
structure Rotation where
  nowMs : Nat
  cancelled : Bool
  phase : RotationPhase
  front : Option Subscription
  activeBucket : Option Nat
  registry : SlugRegistry
  /-- the calls of `on_active` -/
  told : List (List String)
  log : RotationLog

/-- What happens to the manager: time passes, it is cancelled, discovery is answered, it
runs on. -/
inductive RotationEvent
  | tick (ms : Nat)
  | cancel
  /-- the venue answers; `Generation::spawn` then succeeds or not -/
  | answered (answer : Option (List GammaEvent)) (spawned : Bool)
  /-- the loop goes on, if what it awaits has come -/
  | go

/-- `next_target_bucket`. -/
def nextTargetBucket (activeBucket : Option Nat) (nowSecs : Nat) : Nat :=
  let currentBucket := nowSecs - nowSecs % bucketSecs
  match activeBucket with
  | none => currentBucket
  | some active => max (active + bucketSecs) currentBucket

namespace Rotation

/-- `run_rotation` is called: no generation is in front. -/
def start (nowMs : Nat) (registry : SlugRegistry) : Rotation :=
  ⟨nowMs, false, .choosing, none, none, registry, [], ⟨[], [], [], [], [], []⟩⟩

/-- `current_unix_secs`. -/
def nowSecs (s : Rotation) : Nat := s.nowMs / 1000

/-- The end of the loop: the last market is stopped. -/
def leave (s : Rotation) : Rotation :=
  { s with
    front := none
    phase := .leaving
    log.retired := s.log.retired ++
      s.front.toList.map fun old => Retirement.mk old none s.nowMs s.cancelled }

/-- An attempt of `discover_with_retry`. -/
def ask (s : Rotation) (target attempt delayMs : Nat) : Rotation :=
  if s.cancelled then s.leave
  else { s with phase := .asking target attempt delayMs, log.asked := s.log.asked ++ [target] }

/-- The head of the loop.  On the first pass there is nothing to wait for. -/
def choose (s : Rotation) : Rotation :=
  let target := nextTargetBucket s.activeBucket s.nowSecs
  let s := { s with log.targets := s.log.targets ++ [Target.mk target s.nowMs] }
  match s.activeBucket with
  | none => s.ask target 1 2000
  | some _ => { s with phase := .timing target (max (target - preRotationSecs) s.nowSecs) }

/-- The clock is read once more for the length of the sleep. -/
def sleep (s : Rotation) (target wakeAt : Nat) : Rotation :=
  let sleepSecs := wakeAt - s.nowSecs
  if 0 < sleepSecs then { s with phase := .waiting target (s.nowMs + sleepSecs * 1000) }
  else s.ask target 1 2000

/-- `Generation::stop`, in `retire_at_boundary`. -/
def retire (s : Rotation) (target : Nat) (old : Subscription) (next : Option Subscription) :
    Rotation :=
  { s with
    phase := .rotating target next
    log.retired := s.log.retired ++ [⟨old, some target, s.nowMs, s.cancelled⟩] }

/-- `retire_at_boundary`. -/
def retireAtBoundary (s : Rotation) (target : Nat) (next : Option Subscription) : Rotation :=
  match s.front with
  | none => { s with phase := .rotating target next }
  | some old =>
      let s := { s with front := none }
      let wait := target - s.nowSecs
      if 0 < wait then { s with phase := .retiring target old next (s.nowMs + wait * 1000) }
      else s.retire target old next

/-- An attempt without tokens. -/
def retry (s : Rotation) (target attempt delayMs : Nat) : Rotation :=
  if attempt < 5 then
    { s with phase := .backingOff target attempt delayMs (s.nowMs + delayMs) }
  else { s with log.failed := s.log.failed ++ [target] }.retireAtBoundary target none

/-- An attempt that names tokens. -/
def found (s : Rotation) (target : Nat) (result : DiscoveryResult) (spawned : Bool) : Rotation :=
  let s := { s with
    registry := s.registry.populate result
    log.discoveries := s.log.discoveries ++ [result] }
  if spawned then
    let next : Subscription := ⟨target, result.tokenIds, s.nowMs⟩
    { s with log.subscribed := s.log.subscribed ++ [next] }.retireAtBoundary target (some next)
  else { s with phase := .crashed }

/-- The outgoing market has been stopped. -/
def rotate (s : Rotation) (target : Nat) (next : Option Subscription) : Rotation :=
  match next with
  | none => { s with activeBucket := some target, phase := .choosing }
  | some market =>
      { s with
        front := some market
        activeBucket := some target
        told := s.told ++ [market.tokenIds]
        phase := .rotated }

variable [JsonStrings]

/-- What the venue's answer is to an attempt. -/
def answer (s : Rotation) (target attempt delayMs : Nat) (events : Option (List GammaEvent))
    (spawned : Bool) : Rotation :=
  match events.map extractDiscovery with
  | none => s.retry target attempt delayMs
  | some result =>
      if result.tokenIds.isEmpty then s.retry target attempt delayMs
      else s.found target result spawned

/-- The loop goes on, if what it awaits has come. -/
def go (s : Rotation) : Rotation :=
  match s.phase with
  | .choosing => s.choose
  | .timing target wakeAt => s.sleep target wakeAt
  | .waiting target untilMs =>
      if s.cancelled then s.leave
      else if untilMs ≤ s.nowMs then s.ask target 1 2000
      else s
  | .backingOff target attempt delayMs untilMs =>
      if s.cancelled then s.leave
      else if untilMs ≤ s.nowMs then s.ask target (attempt + 1) (min (delayMs * 2) 8000)
      else s
  | .retiring target old next untilMs =>
      if s.cancelled || untilMs ≤ s.nowMs then s.retire target old next else s
  | .rotating target next => s.rotate target next
  | .rotated => if s.cancelled then s.leave else { s with phase := .choosing }
  | .leaving => { s with told := s.told ++ [[]], phase := .gone }
  | .asking .. | .gone | .crashed => s

/-- One event of the manager. -/
def step (s : Rotation) : RotationEvent → Rotation
  | .tick ms => { s with nowMs := s.nowMs + ms }
  | .cancel => { s with cancelled := true }
  | .answered events spawned =>
      match s.phase with
      | .asking target attempt delayMs => s.answer target attempt delayMs events spawned
      | _ => s
  | .go => s.go

end Rotation

/-! ## The schedule -/

/-- A bucket that follows another is the next one, or everything before it has ended. -/
def Target.Follows (t u : Target) : Prop :=
  u.bucket = t.bucket + bucketSecs ∨
    t.bucket + bucketSecs < u.bucket ∧ u.bucket ≤ u.chosenMs / 1000

/-- The bucket had its chance before the given time: there is no market for it, or its market
is subscribed to. -/
def RotationLog.Decided (log : RotationLog) (bucket atMs : Nat) : Prop :=
  bucket ∈ log.failed ∨ ∃ m ∈ log.subscribed, m.bucket = bucket ∧ m.sinceMs ≤ atMs

/-- A market is stopped for the shutdown, or after its bucket has ended; and not before the
bucket that follows had its chance. -/
structure Retirement.InTime (log : RotationLog) (r : Retirement) : Prop where
  ended : r.cancelled = false → r.market.bucket + bucketSecs ≤ r.atMs / 1000
  decided : ∀ b ∈ r.boundary, r.market.bucket + bucketSecs ≤ b ∧ log.Decided b r.atMs
  left : r.boundary = none → r.cancelled = true

/-- The buckets of a run, and the times of their markets. -/
structure Scheduled (log : RotationLog) : Prop where
  aligned : ∀ t ∈ log.targets, bucketSecs ∣ t.bucket
  follows : log.targets.IsChain Target.Follows
  /-- No bucket is asked for without end. -/
  asked : ∀ b, log.asked.count b ≤ 5
  requests : ∀ b ∈ log.asked, ∃ t ∈ log.targets, t.bucket = b
  /-- No market is subscribed to twice, and none too early. -/
  once : (log.subscribed.map (·.bucket)).Pairwise (· < ·)
  targeted : ∀ m ∈ log.subscribed, ∃ t ∈ log.targets, t.bucket = m.bucket
  early : ∀ m ∈ log.subscribed, m.bucket ≤ m.sinceMs / 1000 + preRotationSecs
  retired : ∀ r ∈ log.retired, r.InTime log

/-- Between two buckets. -/
structure RotationLog.Settled (log : RotationLog) (front : Option Subscription)
    (activeBucket : Option Nat) : Prop where
  last : log.targets.getLast?.map (·.bucket) = activeBucket
  below : ∀ t ∈ log.targets, ∃ active ∈ activeBucket, t.bucket ≤ active
  front : ∀ m ∈ front, activeBucket = some m.bucket

/-- On the way to a bucket. -/
structure RotationLog.Aiming (log : RotationLog) (front : Option Subscription) (target : Nat) :
    Prop where
  last : log.targets.getLast?.map (·.bucket) = some target
  below : ∀ t ∈ log.targets, t.bucket ≤ target
  fresh : ∀ m ∈ log.subscribed, m.bucket < target
  front : ∀ m ∈ front, m.bucket + bucketSecs ≤ target

/-- At the end of the outgoing market. -/
structure RotationLog.Closing (log : RotationLog) (next : Option Subscription)
    (target nowMs : Nat) : Prop where
  last : log.targets.getLast?.map (·.bucket) = some target
  below : ∀ t ∈ log.targets, t.bucket ≤ target
  next : ∀ m ∈ next, m.bucket = target
  decided : log.Decided target nowMs

/-- A bucket that was due stays due. -/
theorem RotationLog.Decided.later {log : RotationLog} {bucket atMs laterMs : Nat}
    (h : log.Decided bucket atMs) (hlater : atMs ≤ laterMs) : log.Decided bucket laterMs := by
  rcases h with hfailed | ⟨m, hm, hbucket, hsince⟩
  · exact Or.inl hfailed
  · exact Or.inr ⟨m, hm, hbucket, hsince.trans hlater⟩

/-- What is decided stays decided. -/
theorem Retirement.InTime.mono {log log' : RotationLog} {r : Retirement} (h : r.InTime log)
    (hfailed : log.failed ⊆ log'.failed) (hsubscribed : log.subscribed ⊆ log'.subscribed) :
    r.InTime log' := by
  refine ⟨h.ended, fun b hb => ⟨(h.decided b hb).1, ?_⟩, h.left⟩
  rcases (h.decided b hb).2 with hin | ⟨m, hm, hrest⟩
  · exact Or.inl (hfailed hin)
  · exact Or.inr ⟨m, hsubscribed hm, hrest⟩

/-! ### The next bucket -/

/-- Every bucket that is aimed at is aligned. -/
theorem nextTargetBucket_aligned {activeBucket : Option Nat} {nowSecs : Nat}
    (h : ∀ active ∈ activeBucket, bucketSecs ∣ active) :
    bucketSecs ∣ nextTargetBucket activeBucket nowSecs := by
  have hcurrent : bucketSecs ∣ nowSecs - nowSecs % bucketSecs := Nat.dvd_sub_mod nowSecs
  cases activeBucket with
  | none => exact hcurrent
  | some active =>
      have hnext : bucketSecs ∣ active + bucketSecs := Nat.dvd_add (h active rfl) dvd_rfl
      unfold nextTargetBucket
      dsimp only
      rw [Nat.max_def]
      split_ifs
      · exact hcurrent
      · exact hnext

/-- The first bucket has begun. -/
theorem nextTargetBucket_none (nowMs : Nat) :
    nextTargetBucket none (nowMs / 1000) ≤ nowMs / 1000 := Nat.sub_le _ _

/-- The bucket chosen after an active one follows it by the clock. -/
theorem nextTargetBucket_follows (active chosenMs nowMs : Nat) :
    Target.Follows ⟨active, chosenMs⟩
      ⟨nextTargetBucket (some active) (nowMs / 1000), nowMs⟩ := by
  have hcurrent : nowMs / 1000 - nowMs / 1000 % bucketSecs ≤ nowMs / 1000 := Nat.sub_le _ _
  unfold Target.Follows nextTargetBucket
  dsimp only
  omega

/-- A later target lies at least one bucket later. -/
theorem Target.Follows.lt {t u : Target} (h : t.Follows u) : t.bucket + bucketSecs ≤ u.bucket := by
  unfold Target.Follows at h
  omega

namespace Scheduled

variable {log : RotationLog}

/-- The loop turns to a bucket. -/
theorem target (h : Scheduled log) {front : Option Subscription} {activeBucket : Option Nat}
    (hsettled : log.Settled front activeBucket) (nowMs : Nat) :
    Scheduled { log with
      targets := log.targets ++ [⟨nextTargetBucket activeBucket (nowMs / 1000), nowMs⟩] } where
  aligned t ht := by
    rcases List.mem_append.mp ht with hold | hnew
    · exact h.aligned t hold
    · rw [List.mem_singleton.mp hnew]
      apply nextTargetBucket_aligned
      intro active hactive
      obtain ⟨last, hlast, rfl⟩ := Option.map_eq_some_iff.mp (hsettled.last.trans hactive)
      exact h.aligned last (List.mem_of_getLast? hlast)
  follows := by
    refine List.isChain_append.mpr ⟨h.follows, List.isChain_singleton _, ?_⟩
    rintro ⟨active, chosenMs⟩ hlast u hu
    have hactive := hsettled.last
    rw [Option.mem_def.mp hlast] at hactive
    obtain rfl := Option.some.inj hu
    rw [← hactive]
    exact nextTargetBucket_follows active chosenMs nowMs
  asked := h.asked
  requests b hb := by
    obtain ⟨t, ht, hbucket⟩ := h.requests b hb
    exact ⟨t, List.mem_append_left _ ht, hbucket⟩
  once := h.once
  targeted m hm := by
    obtain ⟨t, ht, hbucket⟩ := h.targeted m hm
    exact ⟨t, List.mem_append_left _ ht, hbucket⟩
  early := h.early
  retired r hr := (h.retired r hr).mono (fun _ h => h) fun _ h => h

/-- Asking for the bucket that is aimed at keeps the schedule. -/
theorem request (h : Scheduled log) {front : Option Subscription} {target : Nat}
    (haiming : log.Aiming front target) (hcount : log.asked.count target < 5) :
    Scheduled { log with asked := log.asked ++ [target] } where
  aligned := h.aligned
  follows := h.follows
  asked b := by
    have hb := h.asked b
    simp only [List.count_append, List.count_singleton]
    by_cases heq : target = b
    · subst heq
      rw [if_pos (beq_self_eq_true _)]
      exact hcount
    · simpa [heq] using hb
  requests b hb := by
    rcases List.mem_append.mp hb with hold | hnew
    · exact h.requests b hold
    · rw [List.mem_singleton.mp hnew]
      obtain ⟨last, hlast, hbucket⟩ := Option.map_eq_some_iff.mp haiming.last
      exact ⟨last, List.mem_of_getLast? hlast, hbucket⟩
  once := h.once
  targeted := h.targeted
  early := h.early
  retired r hr := (h.retired r hr).mono (fun _ h => h) fun _ h => h

/-- Giving a bucket up keeps the schedule. -/
theorem fail (h : Scheduled log) (target : Nat) :
    Scheduled { log with failed := log.failed ++ [target] } where
  aligned := h.aligned
  follows := h.follows
  asked := h.asked
  requests := h.requests
  once := h.once
  targeted := h.targeted
  early := h.early
  retired r hr := (h.retired r hr).mono (List.subset_append_left _ _) fun _ h => h

/-- Subscribing to the bucket that is aimed at, not before its time, keeps the schedule. -/
theorem subscribe (h : Scheduled log) {front : Option Subscription} {m : Subscription}
    (haiming : log.Aiming front m.bucket)
    (hearly : m.bucket ≤ m.sinceMs / 1000 + preRotationSecs) :
    Scheduled { log with subscribed := log.subscribed ++ [m] } where
  aligned := h.aligned
  follows := h.follows
  asked := h.asked
  requests := h.requests
  once := by
    simp only [List.map_append, List.pairwise_append]
    refine ⟨h.once, by simp, ?_⟩
    intro a ha b hb
    obtain ⟨earlier, hin, rfl⟩ := List.mem_map.mp ha
    rw [List.mem_singleton.mp hb]
    exact haiming.fresh earlier hin
  targeted n hn := by
    rcases List.mem_append.mp hn with hold | hnew
    · exact h.targeted n hold
    · rw [List.mem_singleton.mp hnew]
      obtain ⟨last, hlast, hbucket⟩ := Option.map_eq_some_iff.mp haiming.last
      exact ⟨last, List.mem_of_getLast? hlast, hbucket⟩
  early n hn := by
    rcases List.mem_append.mp hn with hold | hnew
    · exact h.early n hold
    · rw [List.mem_singleton.mp hnew]
      exact hearly
  retired r hr := (h.retired r hr).mono (fun _ h => h) (List.subset_append_left _ _)

/-- Retirements in time keep the schedule. -/
theorem retire (h : Scheduled log) {ended : List Retirement} (hended : ∀ r ∈ ended, r.InTime log) :
    Scheduled { log with retired := log.retired ++ ended } where
  aligned := h.aligned
  follows := h.follows
  asked := h.asked
  requests := h.requests
  once := h.once
  targeted := h.targeted
  early := h.early
  retired r hr := by
    have hlog : r.InTime log := (List.mem_append.mp hr).elim (h.retired r) (hended r)
    exact hlog.mono (fun _ h => h) fun _ h => h

end Scheduled

namespace Rotation

/-- What is known of the buckets and the times in each phase. -/
def Stage (s : Rotation) : Prop :=
  match s.phase with
  | .choosing | .rotated => s.log.Settled s.front s.activeBucket
  | .timing target wakeAt =>
      s.log.Aiming s.front target ∧ target ∉ s.log.asked ∧ target ≤ wakeAt + preRotationSecs
  | .waiting target untilMs =>
      s.log.Aiming s.front target ∧ target ∉ s.log.asked ∧
        target ≤ untilMs / 1000 + preRotationSecs
  | .asking target attempt _ =>
      s.log.Aiming s.front target ∧ s.log.asked.count target ≤ attempt ∧
        target ≤ s.nowMs / 1000 + preRotationSecs
  | .backingOff target attempt _ _ =>
      s.log.Aiming s.front target ∧ s.log.asked.count target ≤ attempt ∧ attempt < 5 ∧
        target ≤ s.nowMs / 1000 + preRotationSecs
  | .retiring target old next untilMs =>
      s.log.Closing next target s.nowMs ∧ s.front = none ∧ old.bucket + bucketSecs ≤ target ∧
        target ≤ untilMs / 1000
  | .rotating target next => s.log.Closing next target s.nowMs ∧ s.front = none
  | .leaving | .gone | .crashed => True

/-- The log keeps to the schedule, and the loop knows where it stands. -/
structure OnSchedule (s : Rotation) : Prop where
  scheduled : Scheduled s.log
  stage : s.Stage

/-- Leaving the loop keeps the schedule. -/
theorem leave_onSchedule {s : Rotation} (h : Scheduled s.log) (hcancelled : s.cancelled = true) :
    s.leave.OnSchedule where
  scheduled := by
    refine h.retire ?_
    intro r hr
    obtain ⟨old, -, rfl⟩ := List.mem_map.mp hr
    refine ⟨fun hrunning => ?_, fun b hb => (nomatch hb), fun _ => hcancelled⟩
    rw [hcancelled] at hrunning
    cases hrunning
  stage := trivial

/-- Asking for an aligned bucket that is due keeps the schedule. -/
theorem ask_onSchedule {s : Rotation} {target attempt : Nat} (h : Scheduled s.log)
    (haiming : s.log.Aiming s.front target) (hasked : s.log.asked.count target < attempt)
    (hattempt : attempt ≤ 5)
    (hearly : target ≤ s.nowMs / 1000 + preRotationSecs) (delayMs : Nat) :
    (s.ask target attempt delayMs).OnSchedule := by
  unfold ask
  split_ifs with hcancelled
  · exact leave_onSchedule h hcancelled
  · refine ⟨h.request haiming (by omega), ⟨haiming.last, haiming.below, haiming.fresh,
      haiming.front⟩, ?_, hearly⟩
    rw [List.count_append, List.count_singleton_self]
    exact hasked

/-- The first attempt. -/
theorem ask_first {s : Rotation} {target : Nat} (h : Scheduled s.log)
    (haiming : s.log.Aiming s.front target) (hasked : target ∉ s.log.asked)
    (hearly : target ≤ s.nowMs / 1000 + preRotationSecs) (delayMs : Nat) :
    (s.ask target 1 delayMs).OnSchedule := by
  refine ask_onSchedule h haiming ?_ (by decide) hearly delayMs
  rw [List.count_eq_zero.mpr hasked]
  decide

/-- Choosing the next bucket keeps the schedule. -/
theorem choose_onSchedule {s : Rotation} (h : Scheduled s.log)
    (hsettled : s.log.Settled s.front s.activeBucket) : s.choose.OnSchedule := by
  have htargets := h.target hsettled s.nowMs
  have hbelow : ∀ t ∈ s.log.targets, t.bucket < nextTargetBucket s.activeBucket s.nowSecs := by
    intro t ht
    obtain ⟨active, hactive, hle⟩ := hsettled.below t ht
    rw [Option.mem_def.mp hactive]
    have hlt := (nextTargetBucket_follows active 0 s.nowMs).lt
    unfold nowSecs
    dsimp only [bucketSecs] at hlt
    omega
  have haiming : RotationLog.Aiming { s.log with
      targets := s.log.targets ++ [⟨nextTargetBucket s.activeBucket s.nowSecs, s.nowMs⟩] }
      s.front (nextTargetBucket s.activeBucket s.nowSecs) := by
    refine ⟨by simp, fun t ht => ?_, fun m hm => ?_, fun m hm => ?_⟩
    · rcases List.mem_append.mp ht with hold | hnew
      · exact (hbelow t hold).le
      · rw [List.mem_singleton.mp hnew]
    · obtain ⟨t, ht, hbucket⟩ := h.targeted m hm
      exact hbucket ▸ hbelow t ht
    · rw [hsettled.front m hm]
      exact (nextTargetBucket_follows m.bucket 0 s.nowMs).lt
  have hasked : nextTargetBucket s.activeBucket s.nowSecs ∉ s.log.asked := by
    intro hin
    obtain ⟨t, ht, hbucket⟩ := h.requests _ hin
    exact absurd hbucket (hbelow t ht).ne
  unfold choose
  dsimp only
  split
  · rename_i hactive
    refine ask_first (s := { s with log.targets := _ }) htargets haiming hasked ?_ 2000
    rw [hactive]
    exact (nextTargetBucket_none s.nowMs).trans (Nat.le_add_right _ _)
  · have hwake := le_max_left (nextTargetBucket s.activeBucket s.nowSecs - preRotationSecs)
      s.nowSecs
    exact ⟨htargets, haiming, hasked, by omega⟩

/-- Sleeping until a bucket is due keeps the schedule. -/
theorem sleep_onSchedule {s : Rotation} {target wakeAt : Nat} (h : Scheduled s.log)
    (haiming : s.log.Aiming s.front target) (hasked : target ∉ s.log.asked)
    (hwake : target ≤ wakeAt + preRotationSecs) : (s.sleep target wakeAt).OnSchedule := by
  unfold sleep
  dsimp only [nowSecs]
  split_ifs with hsleep
  · exact ⟨h, haiming, hasked, by omega⟩
  · exact ask_first h haiming hasked (by omega) 2000

/-- Retiring the generation in front at the boundary keeps the schedule. -/
theorem retire_onSchedule {s : Rotation} {target : Nat} {old : Subscription}
    {next : Option Subscription} (h : Scheduled s.log)
    (hclosing : s.log.Closing next target s.nowMs) (hfront : s.front = none)
    (hold : old.bucket + bucketSecs ≤ target)
    (hended : s.cancelled = false → target ≤ s.nowMs / 1000) :
    (s.retire target old next).OnSchedule where
  scheduled := by
    refine h.retire ?_
    intro r hr
    rw [List.mem_singleton.mp hr]
    refine ⟨fun hrunning => ?_, fun b hb => ?_, fun hnone => (nomatch hnone)⟩
    · exact hold.trans (hended hrunning)
    · obtain rfl := Option.some.inj hb
      exact ⟨hold, hclosing.decided⟩
  stage := ⟨⟨hclosing.last, hclosing.below, hclosing.next, hclosing.decided⟩, hfront⟩

/-- Reaching the boundary keeps the schedule, with a generation in front or without. -/
theorem retireAtBoundary_onSchedule {s : Rotation} {target : Nat} {next : Option Subscription}
    (h : Scheduled s.log) (hclosing : s.log.Closing next target s.nowMs)
    (hold : ∀ m ∈ s.front, m.bucket + bucketSecs ≤ target) :
    (s.retireAtBoundary target next).OnSchedule := by
  unfold retireAtBoundary
  split
  · rename_i hfront
    exact ⟨h, hclosing, hfront⟩
  · rename_i old hfront
    dsimp only [nowSecs]
    split_ifs with hwait
    · exact ⟨h, hclosing, rfl, hold old hfront, by omega⟩
    · have hended : target ≤ s.nowMs / 1000 := by omega
      exact retire_onSchedule h hclosing rfl (hold old hfront) fun _ => hended

/-- Another attempt keeps the schedule. -/
theorem retry_onSchedule {s : Rotation} {target attempt : Nat} (h : Scheduled s.log)
    (haiming : s.log.Aiming s.front target) (hasked : s.log.asked.count target ≤ attempt)
    (hearly : target ≤ s.nowMs / 1000 + preRotationSecs) (delayMs : Nat) :
    (s.retry target attempt delayMs).OnSchedule := by
  unfold retry
  split_ifs with hattempt
  · exact ⟨h, haiming, hasked, hattempt, hearly⟩
  · refine retireAtBoundary_onSchedule (h.fail target) ?_ haiming.front
    exact ⟨haiming.last, haiming.below, fun m hm => (nomatch hm),
      Or.inl (List.mem_append_right _ List.mem_cons_self)⟩

/-- An answer that names a market keeps the schedule. -/
theorem found_onSchedule {s : Rotation} {target : Nat} (h : Scheduled s.log)
    (haiming : s.log.Aiming s.front target)
    (hearly : target ≤ s.nowMs / 1000 + preRotationSecs) (result : DiscoveryResult)
    (spawned : Bool) : (s.found target result spawned).OnSchedule := by
  have hsame : Scheduled { s.log with discoveries := s.log.discoveries ++ [result] } :=
    ⟨h.aligned, h.follows, h.asked, h.requests, h.once, h.targeted, h.early,
      fun r hr => (h.retired r hr).mono (fun _ h => h) fun _ h => h⟩
  unfold found
  cases spawned with
  | false => exact ⟨hsame, trivial⟩
  | true =>
      have hnext : RotationLog.Aiming { s.log with discoveries := s.log.discoveries ++ [result] }
          s.front target := ⟨haiming.last, haiming.below, haiming.fresh, haiming.front⟩
      have hsubscribed := hsame.subscribe (m := ⟨target, result.tokenIds, s.nowMs⟩) hnext hearly
      refine retireAtBoundary_onSchedule hsubscribed ?_ haiming.front
      refine ⟨haiming.last, haiming.below, fun m hm => ?_, Or.inr ?_⟩
      · rw [← Option.some.inj hm]
      · exact ⟨_, List.mem_append_right _ List.mem_cons_self, rfl, le_rfl⟩

/-- Rotating to the next generation, or to none, keeps the schedule. -/
theorem rotate_onSchedule {s : Rotation} {target : Nat} {next : Option Subscription}
    (h : Scheduled s.log) (hclosing : s.log.Closing next target s.nowMs)
    (hfront : s.front = none) : (s.rotate target next).OnSchedule := by
  have hbelow : ∀ t ∈ s.log.targets, ∃ active ∈ some target, t.bucket ≤ active :=
    fun t ht => ⟨target, rfl, hclosing.below t ht⟩
  unfold rotate
  cases next with
  | none =>
      refine ⟨h, hclosing.last, hbelow, fun m hm => ?_⟩
      rw [Option.mem_def, hfront] at hm
      cases hm
  | some market =>
      refine ⟨h, hclosing.last, hbelow, fun m hm => ?_⟩
      obtain rfl := Option.some.inj hm
      exact congrArg some (hclosing.next market rfl).symm

variable [JsonStrings]

/-- Any answer keeps the schedule. -/
theorem answer_onSchedule {s : Rotation} {target attempt : Nat} (h : Scheduled s.log)
    (haiming : s.log.Aiming s.front target) (hasked : s.log.asked.count target ≤ attempt)
    (hearly : target ≤ s.nowMs / 1000 + preRotationSecs) (delayMs : Nat)
    (events : Option (List GammaEvent)) (spawned : Bool) :
    (s.answer target attempt delayMs events spawned).OnSchedule := by
  unfold answer
  cases events.map extractDiscovery with
  | none => exact retry_onSchedule h haiming hasked hearly delayMs
  | some result =>
      dsimp only
      split_ifs
      · exact retry_onSchedule h haiming hasked hearly delayMs
      · exact found_onSchedule h haiming hearly result spawned

omit [JsonStrings] in
/-- The loop going on keeps the schedule. -/
theorem go_onSchedule {s : Rotation} (h : s.OnSchedule) : s.go.OnSchedule := by
  have hlog := h.scheduled
  have hstage := h.stage
  unfold Stage at hstage
  unfold go
  cases hphase : s.phase with
  | choosing =>
      rw [hphase] at hstage
      exact choose_onSchedule hlog hstage
  | timing target wakeAt =>
      rw [hphase] at hstage
      exact sleep_onSchedule hlog hstage.1 hstage.2.1 hstage.2.2
  | waiting target untilMs =>
      rw [hphase] at hstage
      obtain ⟨haiming, hasked, hearly⟩ := hstage
      dsimp only
      split_ifs with hcancelled hdue
      · exact leave_onSchedule hlog hcancelled
      · exact ask_first hlog haiming hasked (by omega) 2000
      · exact h
  | backingOff target attempt delayMs untilMs =>
      rw [hphase] at hstage
      obtain ⟨haiming, hasked, hattempt, hearly⟩ := hstage
      dsimp only
      split_ifs with hcancelled hdue
      · exact leave_onSchedule hlog hcancelled
      · exact ask_onSchedule hlog haiming (by omega) hattempt hearly _
      · exact h
  | retiring target old next untilMs =>
      rw [hphase] at hstage
      obtain ⟨hclosing, hfront, hold, hboundary⟩ := hstage
      dsimp only
      split_ifs with hdue
      · refine retire_onSchedule hlog hclosing hfront hold ?_
        intro hrunning
        have huntil : untilMs ≤ s.nowMs := by simpa [hrunning] using hdue
        exact hboundary.trans (Nat.div_le_div_right huntil)
      · exact h
  | rotating target next =>
      rw [hphase] at hstage
      exact rotate_onSchedule hlog hstage.1 hstage.2
  | rotated =>
      rw [hphase] at hstage
      dsimp only
      split_ifs with hcancelled
      · exact leave_onSchedule hlog hcancelled
      · exact ⟨hlog, hstage⟩
  | leaving => exact ⟨hlog, trivial⟩
  | asking target attempt delayMs => exact h
  | gone => exact h
  | crashed => exact h

omit [JsonStrings] in
/-- Time passing keeps the schedule. -/
theorem tick_onSchedule {s : Rotation} (h : s.OnSchedule) (ms : Nat) :
    { s with nowMs := s.nowMs + ms }.OnSchedule := by
  obtain ⟨hlog, hstage⟩ := h
  refine ⟨hlog, ?_⟩
  unfold Stage at hstage ⊢
  dsimp only
  cases hphase : s.phase <;> rw [hphase] at hstage
  case asking =>
    obtain ⟨haiming, hasked, hearly⟩ := hstage
    exact ⟨haiming, hasked, by omega⟩
  case backingOff =>
    obtain ⟨haiming, hasked, hattempt, hearly⟩ := hstage
    exact ⟨haiming, hasked, hattempt, by omega⟩
  case retiring =>
    obtain ⟨hclosing, hrest⟩ := hstage
    exact ⟨⟨hclosing.last, hclosing.below, hclosing.next,
      hclosing.decided.later (Nat.le_add_right _ _)⟩, hrest⟩
  case rotating =>
    obtain ⟨hclosing, hrest⟩ := hstage
    exact ⟨⟨hclosing.last, hclosing.below, hclosing.next,
      hclosing.decided.later (Nat.le_add_right _ _)⟩, hrest⟩
  all_goals exact hstage

/-- Every event keeps the schedule. -/
theorem step_onSchedule (s : Rotation) (event : RotationEvent) (h : s.OnSchedule) :
    (s.step event).OnSchedule := by
  cases event with
  | tick ms => exact tick_onSchedule h ms
  | cancel => exact ⟨h.scheduled, h.stage⟩
  | answered events spawned =>
      unfold step
      cases hphase : s.phase with
      | asking target attempt delayMs =>
          have hstage := h.stage
          unfold Stage at hstage
          rw [hphase] at hstage
          exact answer_onSchedule h.scheduled hstage.1 hstage.2.1 hstage.2.2 delayMs events spawned
      | _ => exact h
  | go => exact go_onSchedule h

/-- **The rotation keeps its schedule.**  However the venue answers, however late the loop
wakes and whenever it is shut down: the buckets are the venue's, in order, and none is passed
over before it has ended; no market is subscribed to twice, none before its time, and none is
stopped before its bucket has ended and the following bucket had its chance. -/
theorem rotation_keeps_its_schedule (nowMs : Nat) (registry : SlugRegistry)
    (events : List RotationEvent) :
    Scheduled (Runs.run step (start nowMs registry) events).log := by
  have hstart : (start nowMs registry).OnSchedule := by
    refine ⟨?_, rfl, fun t ht => (nomatch ht), fun m hm => (nomatch hm)⟩
    constructor <;> simp [start]
  exact (Runs.run_induction step_onSchedule hstart events).scheduled

end Rotation

/-! ## The markets -/

namespace RotationPhase

/-- The market that is about to be stopped. -/
def outgoing : RotationPhase → Option Subscription
  | .retiring _ old _ _ => some old
  | _ => none

/-- The market that is about to take over. -/
def incoming : RotationPhase → Option Subscription
  | .retiring _ _ next _ => next
  | .rotating _ next => next
  | _ => none

/-- The last call of `on_active`. -/
def farewell : RotationPhase → List (List String)
  | .gone => [[]]
  | _ => []

end RotationPhase

namespace Rotation

/-- The markets in front, of which the callers know. -/
def announced (s : Rotation) : List Subscription := s.front.toList ++ s.phase.outgoing.toList

/-- The markets that are being followed. -/
def alive (s : Rotation) : List Subscription := s.announced ++ s.phase.incoming.toList

/-- Where the markets are, and what was told of them. -/
structure Reported (registry : SlugRegistry) (s : Rotation) : Prop where
  /-- A market that was ever subscribed to has been stopped once, or is being followed. -/
  conserved : s.log.subscribed = s.log.retired.map (·.market) ++ s.alive
  few : s.alive.length ≤ 2
  told : s.told = (s.log.retired.map (·.market) ++ s.announced).map (·.tokenIds) ++
    s.phase.farewell
  registry : s.registry = s.log.discoveries.foldl SlugRegistry.populate registry
  discovered : (s.log.subscribed.map (·.tokenIds)).Sublist (s.log.discoveries.map (·.tokenIds))
  /-- From the first market on there is always one, unless the venue did not name it. -/
  unbroken : s.log.subscribed ≠ [] → s.log.failed = [] → s.cancelled = false → s.alive ≠ []

/-- `Reported`, of a loop that knows which markets it follows. -/
structure Ledger (registry : SlugRegistry) (s : Rotation) (announced : List Subscription)
    (incoming : Option Subscription) (farewell : List (List String)) : Prop where
  conserved : s.log.subscribed = s.log.retired.map (·.market) ++ announced ++ incoming.toList
  told : s.told = (s.log.retired.map (·.market) ++ announced).map (·.tokenIds) ++ farewell
  registry : s.registry = s.log.discoveries.foldl SlugRegistry.populate registry
  discovered : (s.log.subscribed.map (·.tokenIds)).Sublist (s.log.discoveries.map (·.tokenIds))
  unbroken : announced = [] → incoming = none →
    s.log.subscribed = [] ∨ s.log.failed ≠ [] ∨ s.cancelled = true

/-- The ledger in each phase. -/
def Kept (registry : SlugRegistry) (s : Rotation) : Prop :=
  match s.phase with
  | .retiring _ old next _ =>
      s.front = none ∧ s.Ledger registry [old] next [] ∧ (next = none → s.log.failed ≠ [])
  | .rotating _ next => s.front = none ∧ s.Ledger registry [] next []
  | .leaving => s.front = none ∧ s.Ledger registry [] none []
  | .gone => s.front = none ∧ s.Ledger registry [] none [[]]
  | _ => s.Ledger registry s.front.toList none []

variable {registry : SlugRegistry} {s : Rotation}

/-- Leaving the loop accounts for every subscription. -/
theorem leave_kept (h : s.Ledger registry s.front.toList none [])
    (hcancelled : s.cancelled = true) : s.leave.Kept registry := by
  have hmarkets : (s.front.toList.map fun old =>
      Retirement.mk old none s.nowMs s.cancelled).map (·.market) = s.front.toList := by
    rw [List.map_map]
    exact List.map_id _
  refine ⟨rfl, ?_, ?_, h.registry, h.discovered, fun _ _ => Or.inr (Or.inr hcancelled)⟩
  · simpa only [leave, List.map_append, hmarkets, List.append_nil] using h.conserved
  · simpa only [leave, List.map_append, hmarkets, List.append_nil] using h.told

/-- Asking moves no subscription. -/
theorem ask_kept (h : s.Ledger registry s.front.toList none []) (target attempt delayMs : Nat) :
    (s.ask target attempt delayMs).Kept registry := by
  unfold ask
  split_ifs with hcancelled
  · exact leave_kept h hcancelled
  · exact ⟨h.conserved, h.told, h.registry, h.discovered, h.unbroken⟩

/-- Choosing moves no subscription. -/
theorem choose_kept (h : s.Ledger registry s.front.toList none []) : s.choose.Kept registry := by
  unfold choose
  dsimp only
  split
  · refine ask_kept (s := { s with log.targets := _ }) ?_ _ _ _
    exact ⟨h.conserved, h.told, h.registry, h.discovered, h.unbroken⟩
  · exact ⟨h.conserved, h.told, h.registry, h.discovered, h.unbroken⟩

/-- Sleeping moves no subscription. -/
theorem sleep_kept (h : s.Ledger registry s.front.toList none []) (target wakeAt : Nat) :
    (s.sleep target wakeAt).Kept registry := by
  unfold sleep
  dsimp only
  split_ifs
  · exact ⟨h.conserved, h.told, h.registry, h.discovered, h.unbroken⟩
  · exact ask_kept h _ _ _

/-- The generation that is being retired is still one that is followed. -/
theorem retire_kept {old : Subscription} {next : Option Subscription} (hfront : s.front = none)
    (h : s.Ledger registry [old] next []) (hfailed : next = none → s.log.failed ≠ [])
    (target : Nat) : (s.retire target old next).Kept registry := by
  refine ⟨hfront, ?_, ?_, h.registry, h.discovered, fun _ hnone => Or.inr (Or.inl (hfailed hnone))⟩
  · simpa [retire] using h.conserved
  · simpa [retire] using h.told

/-- At the boundary the generation in front is accounted for. -/
theorem retireAtBoundary_kept {next : Option Subscription}
    (h : s.Ledger registry s.front.toList next []) (hfailed : next = none → s.log.failed ≠ [])
    (target : Nat) : (s.retireAtBoundary target next).Kept registry := by
  unfold retireAtBoundary
  split
  · rename_i hfront
    rw [hfront] at h
    exact ⟨hfront, h.conserved, h.told, h.registry, h.discovered, h.unbroken⟩
  · rename_i old hfront
    rw [hfront] at h
    dsimp only
    split_ifs
    · exact ⟨rfl, ⟨h.conserved, h.told, h.registry, h.discovered, h.unbroken⟩, hfailed⟩
    · refine retire_kept (s := { s with front := none }) rfl ?_ hfailed target
      exact ⟨h.conserved, h.told, h.registry, h.discovered, h.unbroken⟩

/-- Another attempt moves no subscription. -/
theorem retry_kept (h : s.Ledger registry s.front.toList none []) (target attempt delayMs : Nat) :
    (s.retry target attempt delayMs).Kept registry := by
  unfold retry
  split_ifs
  · exact ⟨h.conserved, h.told, h.registry, h.discovered, h.unbroken⟩
  · refine retireAtBoundary_kept ?_ (fun _ => by simp) target
    exact ⟨h.conserved, h.told, h.registry, h.discovered, fun _ _ => Or.inr (Or.inl (by simp))⟩

/-- A generation that was spawned is accounted for, one that was not has its failure logged.
-/
theorem found_kept (h : s.Ledger registry s.front.toList none []) (target : Nat)
    (result : DiscoveryResult) (spawned : Bool) :
    (s.found target result spawned).Kept registry := by
  have hregistry : s.registry.populate result =
      (s.log.discoveries ++ [result]).foldl SlugRegistry.populate registry := by
    rw [List.foldl_append, ← h.registry]
    rfl
  unfold found
  cases spawned with
  | false =>
      refine ⟨h.conserved, h.told, hregistry, h.discovered.trans ?_, h.unbroken⟩
      exact (List.sublist_append_left _ _).map _
  | true =>
      dsimp only
      rw [if_pos rfl]
      refine retireAtBoundary_kept ?_ (by simp) target
      refine ⟨?_, h.told, hregistry, ?_, fun _ hnone => (nomatch hnone)⟩
      · simp [h.conserved]
      · simp only [List.map_append]
        exact h.discovered.append (List.Sublist.refl _)

/-- Rotating accounts for the next generation. -/
theorem rotate_kept {next : Option Subscription} (hfront : s.front = none)
    (h : s.Ledger registry [] next []) (target : Nat) : (s.rotate target next).Kept registry := by
  unfold rotate
  cases next with
  | none =>
      change Ledger registry _ s.front.toList none []
      rw [hfront]
      exact ⟨h.conserved, h.told, h.registry, h.discovered, h.unbroken⟩
  | some market =>
      refine ⟨?_, ?_, h.registry, h.discovered, fun hnil => (nomatch hnil)⟩
      · simpa using h.conserved
      · simpa using h.told

/-- The loop going on keeps the account. -/
theorem go_kept (h : s.Kept registry) : s.go.Kept registry := by
  have hkept := h
  unfold Kept at h
  unfold go
  cases hphase : s.phase with
  | choosing =>
      rw [hphase] at h
      exact choose_kept h
  | timing target wakeAt =>
      rw [hphase] at h
      exact sleep_kept h target wakeAt
  | waiting target untilMs =>
      rw [hphase] at h
      dsimp only
      split_ifs with hcancelled hdue
      · exact leave_kept h hcancelled
      · exact ask_kept h target 1 2000
      · exact hkept
  | backingOff target attempt delayMs untilMs =>
      rw [hphase] at h
      dsimp only
      split_ifs with hcancelled hdue
      · exact leave_kept h hcancelled
      · exact ask_kept h target _ _
      · exact hkept
  | retiring target old next untilMs =>
      rw [hphase] at h
      dsimp only
      split_ifs
      · exact retire_kept h.1 h.2.1 h.2.2 target
      · exact hkept
  | rotating target next =>
      rw [hphase] at h
      exact rotate_kept h.1 h.2 target
  | rotated =>
      rw [hphase] at h
      dsimp only
      split_ifs with hcancelled
      · exact leave_kept h hcancelled
      · exact ⟨h.conserved, h.told, h.registry, h.discovered, h.unbroken⟩
  | leaving =>
      rw [hphase] at h
      obtain ⟨hfront, hledger⟩ := h
      refine ⟨hfront, hledger.conserved, ?_, hledger.registry, hledger.discovered,
        hledger.unbroken⟩
      simp only [hledger.told, List.append_nil]
  | asking target attempt delayMs => exact hkept
  | gone => exact hkept
  | crashed => exact hkept

/-- Time passes, or the shutdown comes. -/
theorem kept_of_same (h : s.Kept registry) (nowMs : Nat) {cancelled : Bool}
    (hcancelled : s.cancelled = true → cancelled = true) :
    { s with nowMs := nowMs, cancelled := cancelled }.Kept registry := by
  have hledger : ∀ {announced incoming farewell},
      s.Ledger registry announced incoming farewell →
        { s with nowMs := nowMs, cancelled := cancelled }.Ledger registry announced incoming
          farewell := by
    intro announced incoming farewell h
    refine ⟨h.conserved, h.told, h.registry, h.discovered, fun hnil hnone => ?_⟩
    exact (h.unbroken hnil hnone).imp_right fun h => h.imp_right hcancelled
  obtain ⟨_, _, phase, _, _, _, _, _⟩ := s
  cases phase
  case retiring => exact ⟨h.1, hledger h.2.1, h.2.2⟩
  case rotating | leaving | gone => exact ⟨h.1, hledger h.2⟩
  all_goals exact hledger h

/-- In every phase the ledger says what is reported. -/
theorem Kept.reported (h : s.Kept registry) : s.Reported registry := by
  have hledger : s.Ledger registry s.announced s.phase.incoming s.phase.farewell ∧
      s.alive.length ≤ 2 := by
    obtain ⟨_, _, phase, front, _, _, _, _⟩ := s
    have hone : front.toList.length ≤ 1 := by cases front <;> simp
    cases phase
    case retiring target old next untilMs =>
      obtain ⟨rfl, hledger, -⟩ := h
      refine ⟨hledger, ?_⟩
      cases next <;> simp [alive, announced, RotationPhase.outgoing, RotationPhase.incoming]
    case rotating target next =>
      obtain ⟨rfl, hledger⟩ := h
      refine ⟨hledger, ?_⟩
      cases next <;> simp [alive, announced, RotationPhase.outgoing, RotationPhase.incoming]
    case leaving | gone =>
      obtain ⟨rfl, hledger⟩ := h
      exact ⟨hledger, Nat.zero_le _⟩
    all_goals
      change Ledger registry _ (front.toList ++ []) none [] ∧ (front.toList ++ [] ++ []).length ≤ 2
      rw [List.append_nil, List.append_nil]
      exact ⟨h, hone.trans (by decide)⟩
  obtain ⟨hledger, hfew⟩ := hledger
  refine ⟨?_, hfew, hledger.told, hledger.registry, hledger.discovered, ?_⟩
  · rw [hledger.conserved, alive, List.append_assoc]
  · intro hsubscribed hfailed hrunning halive
    obtain ⟨hannounced, hincoming⟩ := List.append_eq_nil_iff.mp halive
    rw [Option.toList_eq_nil_iff] at hincoming
    rcases hledger.unbroken hannounced hincoming with hnone | hbroken | hcancelled
    · exact hsubscribed hnone
    · exact hbroken hfailed
    · rw [hrunning] at hcancelled
      cases hcancelled

variable [JsonStrings]

/-- Every event keeps the account. -/
theorem step_kept (s : Rotation) (event : RotationEvent) (h : s.Kept registry) :
    (s.step event).Kept registry := by
  cases event with
  | tick ms => exact kept_of_same h _ id
  | cancel => exact kept_of_same h _ fun _ => rfl
  | answered events spawned =>
      unfold step
      cases hphase : s.phase with
      | asking target attempt delayMs =>
          unfold Kept at h
          rw [hphase] at h
          dsimp only
          unfold answer
          cases events.map extractDiscovery with
          | none => exact retry_kept h target attempt delayMs
          | some result =>
              dsimp only
              split_ifs
              · exact retry_kept h target attempt delayMs
              · exact found_kept h target result spawned
      | _ => exact h
  | go => exact go_kept h

/-- **No market is lost in a rotation.**  However the run goes, every market that was ever
subscribed to has been stopped once or is being followed, two at most; the callers were told
of each in turn, and at the end that there is none; the registry knows all that was
discovered; and unless the venue names no tokens for a bucket, some market is followed from
the first one to the shutdown. -/
theorem rotation_loses_no_market (nowMs : Nat) (registry : SlugRegistry)
    (events : List RotationEvent) :
    (Runs.run step (start nowMs registry) events).Reported registry := by
  have hstart : (start nowMs registry).Kept registry :=
    ⟨rfl, rfl, rfl, List.Sublist.refl _, fun _ _ => Or.inl rfl⟩
  exact (Runs.run_induction step_kept hstart events).reported

end Rotation

end PolyBook
