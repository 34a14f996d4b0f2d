import PolyBook.Numbering

/-!
# What the numbers of a run expose

Replay checks the numbers that the dispatcher gives an asset's records.  They go on
through level changes, and start again at zero with every accepted `book` message.  One
without levels starts them again too, but sends no record that says so: the next level
change has number zero, and replay takes it for a gap.

`loss_shows_iff` says that this is the only way in which the numbers go wrong: in every
other run replay reports no gap, and reports one as soon as a level change between two
others is missing.
-/

namespace PolyBook

namespace Dispatcher

/-! ## Phases of a run -/

/-- How the numbers of an asset stand to its records: no snapshot was sent; they go on
from the last record; they have started again unseen; a level change went out since. -/
inductive Phase where
  | unseeded
  | counting
  | emptied
  | broken
  deriving DecidableEq, Repr

/-- What a step does to the phase. -/
def Phase.after : Phase → StepKind → Phase
  | .broken, _ => .broken
  | phase, .silent => phase
  | .unseeded, .snapshot => .counting
  | .unseeded, _ => .unseeded
  | _, .snapshot => .counting
  | .counting, .changes => .counting
  | _, .emptied => .emptied
  | .emptied, .changes => .broken

/-- A snapshot without levels between a snapshot and a level change, with no other snapshot
in between. -/
def RestartHidden (kinds : List StepKind) : Prop :=
  ∃ front mid back, kinds = front ++ .emptied :: (mid ++ .changes :: back) ∧
    StepKind.snapshot ∈ front ∧ ∀ k ∈ mid, k = .silent ∨ k = .emptied

/-- What a phase tells of the messages so far. -/
def Phase.Tells (kinds : List StepKind) : Phase → Prop
  | .unseeded => StepKind.snapshot ∉ kinds
  | .counting => StepKind.snapshot ∈ kinds
  | .emptied => ∃ front mid, kinds = front ++ .emptied :: mid ∧ StepKind.snapshot ∈ front ∧
      ∀ k ∈ mid, k = .silent ∨ k = .emptied
  | .broken => RestartHidden kinds

/-- The phase after a step tells of the steps. -/
theorem Phase.tells_after {kinds : List StepKind} {phase : Phase} (h : phase.Tells kinds)
    (k : StepKind) : (phase.after k).Tells (kinds ++ [k]) := by
  cases phase with
  | unseeded =>
      cases k <;> simp_all [Phase.after, Phase.Tells]
  | counting =>
      cases k with
      | emptied => exact ⟨kinds, [], rfl, h, List.forall_mem_nil _⟩
      | _ => exact List.mem_append_left _ h
  | emptied =>
      obtain ⟨front, mid, rfl, hfront, hmid⟩ := h
      cases k with
      | snapshot => exact List.mem_append_right _ List.mem_cons_self
      | changes => exact ⟨front, mid, [], by simp, hfront, hmid⟩
      | silent =>
          refine ⟨front, mid ++ [.silent], by simp, hfront, ?_⟩
          exact List.forall_mem_append.mpr ⟨hmid, by simp⟩
      | emptied =>
          refine ⟨front, mid ++ [.emptied], by simp, hfront, ?_⟩
          exact List.forall_mem_append.mpr ⟨hmid, by simp⟩
  | broken =>
      obtain ⟨front, mid, back, rfl, hfront, hmid⟩ := h
      have hbroken : Phase.broken.after k = .broken := by cases k <;> rfl
      rw [hbroken]
      exact ⟨front, mid, back ++ [k], by simp, hfront, hmid⟩

/-- The phase after messages of these kinds. -/
def phaseOf (kinds : List StepKind) : Phase := kinds.foldl Phase.after .unseeded

/-- The phase tells of the steps that led to it. -/
theorem phaseOf_tells (kinds : List StepKind) : (phaseOf kinds).Tells kinds := by
  induction kinds using List.reverseRecOn with
  | nil => exact List.not_mem_nil
  | append_singleton kinds k ih =>
      rw [phaseOf, List.foldl_append]
      exact Phase.tells_after ih k

/-- Once broken, a run stays broken. -/
theorem foldl_after_broken (kinds : List StepKind) :
    kinds.foldl Phase.after .broken = .broken := by
  induction kinds with
  | nil => rfl
  | cons k kinds ih => cases k <;> exact ih

/-- The phase is broken where a restart was hidden. -/
theorem phaseOf_eq_broken_iff {kinds : List StepKind} :
    phaseOf kinds = .broken ↔ RestartHidden kinds := by
  constructor
  · intro h
    have htells := phaseOf_tells kinds
    rwa [h] at htells
  · rintro ⟨front, mid, back, rfl, hfront, hmid⟩
    have hstart : phaseOf front ≠ .unseeded := by
      intro h
      have htells := phaseOf_tells front
      rw [h] at htells
      exact htells hfront
    have hmiddle : ∀ mid : List StepKind, (∀ k ∈ mid, k = .silent ∨ k = .emptied) →
        mid.foldl Phase.after .emptied = .emptied := by
      intro mid
      induction mid with
      | nil => exact fun _ => rfl
      | cons k mid ih =>
          intro hkinds
          obtain ⟨hk, hrest⟩ := List.forall_mem_cons.mp hkinds
          rcases hk with rfl | rfl
          · exact ih hrest
          · exact ih hrest
    have hempty : (phaseOf front).after .emptied = .emptied ∨
        (phaseOf front).after .emptied = .broken := by
      cases hphase : phaseOf front with
      | unseeded => exact absurd hphase hstart
      | counting => exact .inl rfl
      | emptied => exact .inl rfl
      | broken => exact .inr rfl
    rw [phaseOf, List.foldl_append, List.foldl_cons, List.foldl_append, List.foldl_cons]
    change back.foldl Phase.after ((mid.foldl Phase.after ((phaseOf front).after .emptied)).after
      .changes) = .broken
    rcases hempty with h | h
    · rw [h, hmiddle mid hmid]
      exact foldl_after_broken back
    · rw [h, foldl_after_broken]
      exact foldl_after_broken back

/-- A run that is not broken was not broken before. -/
theorem phaseOf_ne_broken_of_append {xs ys : List StepKind} (h : phaseOf (xs ++ ys) ≠ .broken) :
    phaseOf xs ≠ .broken := by
  intro hbroken
  apply h
  rw [phaseOf, List.foldl_append]
  rw [phaseOf] at hbroken
  rw [hbroken]
  exact foldl_after_broken ys

end Dispatcher

/-! ## Replay of a run's records -/

/-- The gaps that replay reports at a time, from the book records of an asset alone. -/
def gapsAt (a : AssetId) (events : List BookEvent) (target : Nat) : List EventProvenance :=
  match reconstructBook a target .recvTime none ⟨events, [], []⟩ with
  | .error _ => []
  | .ok r => reportedGaps r.continuityEvents

/-- Records in the order of arrival: each message received later than the one before, and
the records of one message numbered upwards. -/
structure Arrived (events : List BookEvent) : Prop where
  ordered : events.Pairwise fun d e => d.provenance.recvTimestampUs < e.provenance.recvTimestampUs ∨
    d.provenance.recvTimestampUs = e.provenance.recvTimestampUs ∧ d.number < e.number
  unstamped : ∀ e ∈ events, e.provenance.ingestOrdinal = none

/-- Some of the events that arrived have arrived. -/
theorem Arrived.sublist {xs ys : List BookEvent} (h : Arrived ys) (hsub : xs.Sublist ys) :
    Arrived xs :=
  ⟨h.ordered.sublist hsub, fun e he => h.unstamped e (hsub.subset he)⟩

/-- Replay reads the records as they arrived. -/
theorem Arrived.sortBookEvents_eq {events : List BookEvent} (h : Arrived events) :
    sortBookEvents .recvTime events = events := by
  refine sortBookEvents_eq_of_perm .recvTime ?_ (List.Perm.refl events)
  refine h.ordered.imp_of_mem ?_
  intro d e hd he hlt
  have hordinal := (h.unstamped d hd).trans (h.unstamped e he).symm
  rw [BookEvent.number, BookEvent.number] at hlt
  simp only [compareBookEvents, compareLex, compareOn, orderingKeys, Ordering.then_eq_lt,
    Nat.compare_eq_lt, Nat.compare_eq_eq, hordinal]
  rcases hlt with hlt | ⟨hsame, hlt⟩
  · exact .inl hlt
  · exact .inr ⟨hsame, .inr ⟨trivial, .inr ⟨trivial, .inl hlt⟩⟩⟩

section Fitting

variable {mode : ReplayMode} {book next : L2Book} {xs : List BookEvent}

/-- Level changes that the book takes, and those after them. -/
theorem fitting_append (h : applyDeltas mode book xs = .ok next) (ys : List BookEvent) :
    fitting mode book (xs ++ ys) = xs ++ fitting mode next ys := by
  induction xs generalizing book with
  | nil =>
      cases h
      rfl
  | cons x xs ih =>
      obtain ⟨mid, htake, hrest⟩ := applyDeltas_cons_eq_ok.mp h
      rw [List.cons_append, fitting, BookEvent.number, htake]
      dsimp only
      rw [ih hrest, List.cons_append]

/-- What fits is a front of the events. -/
theorem fitting_isPrefix (mode : ReplayMode) (book : L2Book) (events : List BookEvent) :
    fitting mode book events <+: events := by
  induction events generalizing book with
  | nil => exact List.nil_prefix
  | cons e rest ih =>
      rw [fitting]
      split
      · exact (List.prefix_cons_inj e).mpr List.nil_prefix
      · exact (List.prefix_cons_inj e).mpr (ih _)

/-- Applying level changes in two parts. -/
theorem applyDeltas_append {mid : L2Book} (h : applyDeltas mode book xs = .ok mid)
    (ys : List BookEvent) :
    applyDeltas mode book (xs ++ ys) = applyDeltas mode mid ys := by
  rw [applyDeltas] at h
  rw [applyDeltas, List.foldlM_append, h]
  rfl

/-- Level changes apply if both parts do. -/
theorem applyDeltas_append_eq_ok {ys : List BookEvent} :
    applyDeltas mode book (xs ++ ys) = .ok next ↔
      ∃ mid, applyDeltas mode book xs = .ok mid ∧ applyDeltas mode mid ys = .ok next := by
  constructor
  · intro h
    cases hmid : applyDeltas mode book xs with
    | error err =>
        rw [applyDeltas] at h hmid
        rw [List.foldlM_append, hmid] at h
        cases h
    | ok mid =>
        rw [applyDeltas_append hmid] at h
        exact ⟨mid, rfl, h⟩
  · rintro ⟨mid, hmid, h⟩
    rwa [applyDeltas_append hmid]

/-- The book stands at the number of the last level change. -/
theorem applyDeltas_sequence (h : applyDeltas mode book xs = .ok next) :
    next.sequence = (xs.map BookEvent.number).getLastD book.sequence := by
  induction xs generalizing book with
  | nil =>
      cases h
      rfl
  | cons x xs ih =>
      obtain ⟨mid, htake, hrest⟩ := applyDeltas_cons_eq_ok.mp h
      rw [ih hrest, (L2Book.tryApplyDelta_sequence htake).1, List.map_cons, List.getLastD_cons]
      rfl

/-- A level change that does not number on shows, whatever comes after it. -/
theorem not_consecutive_fitting (h : applyDeltas mode book xs = .ok next) {e : BookEvent}
    (hnumber : e.number ≠ Sequence.next next.sequence) (rest : List BookEvent) :
    ¬ Consecutive book.sequence (fitting mode book (xs ++ e :: rest)) := by
  rw [fitting_append h, consecutive_append, fitting, consecutive_cons, ← applyDeltas_sequence h]
  exact fun hconsecutive => hnumber hconsecutive.2.1

/-- Counted level changes move the number by their length. -/
theorem applyDeltas_counted (h : applyDeltas mode book xs = .ok next)
    (hcounted : CountedFrom (Sequence.next book.sequence) xs) :
    Sequence.next next.sequence = Sequence.next^[xs.length] (Sequence.next book.sequence) := by
  induction xs generalizing book with
  | nil =>
      cases h
      rfl
  | cons x xs ih =>
      obtain ⟨mid, htake, hmid⟩ := applyDeltas_cons_eq_ok.mp h
      obtain ⟨hnumber, hrest⟩ := hcounted
      have hsequence : mid.sequence = Sequence.next book.sequence :=
        (L2Book.tryApplyDelta_sequence htake).1.trans hnumber
      rw [← hsequence] at hrest
      rw [ih hmid hrest, hsequence]
      rfl

/-- The number after that of a group. -/
theorem next_of_countedFrom {n time : Nat} {events : List BookEvent} (hne : events ≠ [])
    (hcounted : CountedFrom n events) (h : book.applySnapshotEvents events time = .ok next) :
    Sequence.next next.sequence = Sequence.next^[events.length] n := by
  obtain ⟨hsequence, -⟩ := L2Book.tryApplySnapshot_sequence h
  rw [hsequence]
  clear h hsequence
  induction events generalizing n with
  | nil => exact absurd rfl hne
  | cons e rest ih =>
      obtain ⟨hnumber, hrest⟩ := hcounted
      cases rest with
      | nil => exact congrArg Sequence.next hnumber
      | cons d rest => exact ih (List.cons_ne_nil d rest) hrest

end Fitting

/-- Records from a snapshot group on. -/
structure Stretch (a : AssetId) (before group deltas : List BookEvent) (time : Nat)
    (seeded : L2Book) : Prop where
  nonempty : group ≠ []
  earlier : ∀ e ∈ before, e.provenance.recvTimestampUs < time
  snapshots : ∀ e ∈ group, e.kind = .snapshot ∧ e.provenance.recvTimestampUs = time
  changes : ∀ e ∈ deltas, e.kind = .delta ∧ time < e.provenance.recvTimestampUs
  seeds : (L2Book.new a).applySnapshotEvents group time = .ok seeded

namespace Stretch

variable {a : AssetId} {before group deltas later : List BookEvent} {time target : Nat}
  {seeded : L2Book} (h : Stretch a before group deltas time seeded)

include h

/-- **What replay finds from the group on.** -/
theorem gapsAt_eq_nil_iff (harrived : Arrived (before ++ (group ++ (deltas ++ later))))
    (htarget : time ≤ target) (hdue : ∀ e ∈ deltas, e.provenance.recvTimestampUs ≤ target)
    (hlater : ∀ e ∈ later, target < e.provenance.recvTimestampUs) :
    gapsAt a (before ++ (group ++ (deltas ++ later))) target = [] ↔
      Consecutive seeded.sequence (fitting .recvTime seeded deltas) := by
  obtain ⟨front, s, hgroup⟩ := (List.eq_nil_or_concat' group).resolve_left h.nonempty
  have hsorted := harrived.sortBookEvents_eq
  have hs := h.snapshots s (by simp [hgroup])
  have hsplit : SeedSplit target .recvTime none
      (sortBookEvents .recvTime (before ++ (group ++ (deltas ++ later)))) (before ++ front) s
      (deltas ++ later) := by
    refine ⟨?_, ?_, ?_⟩
    · rw [hsorted, hgroup]
      simp
    · exact seedsAt_iff.mpr ⟨hs.1, hs.2.le.trans htarget, rfl⟩
    · intro e he
      by_contra hseeds
      obtain ⟨hk, htime, -⟩ := seedsAt_iff.mp (Bool.eq_true_of_not_eq_false hseeds)
      rcases List.mem_append.mp he with he | he
      · rw [(h.changes e he).1] at hk
        cases hk
      · exact absurd htime (Nat.not_le.mpr (hlater e he))
  have htaken : snapshotGroupAt .recvTime none (eventOrderingTs .recvTime s)
      (sortBookEvents .recvTime (before ++ (group ++ (deltas ++ later)))) = group := by
    have hother : ∀ part : List BookEvent, (∀ e ∈ part,
        e.kind ≠ .snapshot ∨ e.provenance.recvTimestampUs ≠ s.provenance.recvTimestampUs) →
        snapshotGroupAt .recvTime none (eventOrderingTs .recvTime s) part = [] := by
      intro part hpart
      refine List.filter_eq_nil_iff.mpr ?_
      intro e he
      rcases hpart e he with hk | htime
      · simp [hk]
      · simp [eventOrderingTs, htime]
    have hown : snapshotGroupAt .recvTime none (eventOrderingTs .recvTime s) group = group := by
      refine List.filter_eq_self.mpr ?_
      intro e he
      obtain ⟨hk, htime⟩ := h.snapshots e he
      simp [hk, eventOrderingTs, htime, hs.2, afterReset]
    have hbefore := hother before fun e he => .inr (by have := h.earlier e he; omega)
    have hafter := hother deltas fun e he => .inl (by simp [(h.changes e he).1])
    have hrest := hother later fun e he => .inr (by have := hlater e he; omega)
    unfold snapshotGroupAt at hown hbefore hafter hrest ⊢
    rw [hsorted, List.filter_append, List.filter_append, List.filter_append, hown, hbefore, hafter,
      hrest, List.nil_append, List.append_nil, List.append_nil]
  have hseeds : (L2Book.new a).applySnapshotEvents (snapshotGroupAt .recvTime none
      (eventOrderingTs .recvTime s)
      (sortBookEvents .recvTime (before ++ (group ++ (deltas ++ later)))))
      (eventOrderingTs .recvTime s) = .ok seeded := by
    have htime : eventOrderingTs .recvTime s = time := hs.2
    rw [htaken, htime]
    exact h.seeds
  have hfilter : (deltas ++ later).filter (fun e => eventOrderingTs .recvTime e ≤ target) =
      deltas := by
    rw [List.filter_append, List.filter_eq_self.mpr, List.filter_eq_nil_iff.mpr, List.append_nil]
    · intro e he hle
      exact absurd (of_decide_eq_true hle) (Nat.not_le.mpr (hlater e he))
    · intro e he
      exact decide_eq_true (hdue e he)
  have hdeltas : ∀ e ∈ deltas ++ later, eventOrderingTs .recvTime e ≤ target →
      e.kind = .delta := by
    intro e he htime
    rcases List.mem_append.mp he with he | he
    · exact (h.changes e he).1
    · exact absurd htime (Nat.not_le.mpr (hlater e he))
  obtain ⟨r, hr, hgaps⟩ := hsplit.gaps_iff hdeltas hseeds
  rw [gapsAt, hr, hgaps, hfilter]

end Stretch

/-- The records from the last snapshot group on, and the book that replay makes of them:
the numbers go on, and nothing is refused. -/
structure Epoch (a : AssetId) (events : List BookEvent) where
  before : List BookEvent
  group : List BookEvent
  deltas : List BookEvent
  time : Nat
  seeded : L2Book
  book : L2Book
  split : events = before ++ (group ++ deltas)
  stretch : Stretch a before group deltas time seeded
  numbered : Consecutive seeded.sequence deltas
  takes : applyDeltas .recvTime seeded deltas = .ok book

namespace Epoch

variable {a : AssetId} {events : List BookEvent}

/-- The group is among the records. -/
theorem time_lt (epoch : Epoch a events) {bound : Nat}
    (h : ∀ e ∈ events, e.provenance.recvTimestampUs < bound) : epoch.time < bound := by
  obtain ⟨front, s, hgroup⟩ := (List.eq_nil_or_concat' epoch.group).resolve_left
    epoch.stretch.nonempty
  have hs : s ∈ epoch.group := by simp [hgroup]
  rw [← (epoch.stretch.snapshots s hs).2]
  apply h s
  rw [epoch.split]
  exact List.mem_append_right _ (List.mem_append_left _ hs)

/-- The epoch, with more events. -/
theorem append_eq (epoch : Epoch a events) (more : List BookEvent) :
    events ++ more = epoch.before ++ (epoch.group ++ (epoch.deltas ++ more)) :=
  (congrArg (fun part => part ++ more) epoch.split).trans (by simp)

/-- Level changes that number on. -/
def extend (epoch : Epoch a events) (new : List BookEvent) (taken : L2Book) (recv : Nat)
    (hchanges : ∀ e ∈ new, e.kind = .delta ∧ e.provenance.recvTimestampUs = recv)
    (htime : epoch.time < recv) (hcounted : CountedFrom (Sequence.next epoch.book.sequence) new)
    (htaken : applyDeltas .recvTime epoch.book new = .ok taken) : Epoch a (events ++ new) where
  before := epoch.before
  group := epoch.group
  deltas := epoch.deltas ++ new
  time := epoch.time
  seeded := epoch.seeded
  book := taken
  split := epoch.append_eq new
  stretch := {
    nonempty := epoch.stretch.nonempty
    earlier := epoch.stretch.earlier
    snapshots := epoch.stretch.snapshots
    changes := fun e he => (List.mem_append.mp he).elim (epoch.stretch.changes e)
      fun he => ⟨(hchanges e he).1, by rw [(hchanges e he).2]; exact htime⟩
    seeds := epoch.stretch.seeds }
  numbered := by
    rw [consecutive_append, ← applyDeltas_sequence epoch.takes]
    exact ⟨epoch.numbered, consecutive_of_countedFrom hcounted⟩
  takes := by
    rw [applyDeltas_append epoch.takes]
    exact htaken

/-- A snapshot group. -/
def start (events : List BookEvent) {group : List BookEvent} {time : Nat} {seeded : L2Book}
    (hearlier : ∀ e ∈ events, e.provenance.recvTimestampUs < time) (hne : group ≠ [])
    (hsnapshots : ∀ e ∈ group, e.kind = .snapshot ∧ e.provenance.recvTimestampUs = time)
    (hseeds : (L2Book.new a).applySnapshotEvents group time = .ok seeded) :
    Epoch a (events ++ group) where
  before := events
  group := group
  deltas := []
  time := time
  seeded := seeded
  book := seeded
  split := by rw [List.append_nil]
  stretch := ⟨hne, hearlier, hsnapshots, List.forall_mem_nil _, hseeds⟩
  numbered := consecutive_nil _
  takes := rfl

/-- A level change with number zero shows as a gap. -/
theorem gap_of_restart (epoch : Epoch a events) (hpos : 0 < Sequence.next epoch.book.sequence)
    {recv : Nat}
    (hearlier : ∀ e ∈ events, e.provenance.recvTimestampUs < recv) {e : BookEvent}
    {rest later : List BookEvent} (hchanges : ∀ d ∈ e :: rest, d.kind = .delta ∧
      d.provenance.recvTimestampUs = recv) (hnumber : e.number = 0)
    (hlater : ∀ d ∈ later, recv < d.provenance.recvTimestampUs)
    (harrived : Arrived (events ++ (e :: rest) ++ later)) :
    gapsAt a (events ++ (e :: rest) ++ later) recv ≠ [] := by
  have htime := epoch.time_lt hearlier
  have hstretch : Stretch a epoch.before epoch.group (epoch.deltas ++ e :: rest) epoch.time
      epoch.seeded := by
    refine ⟨epoch.stretch.nonempty, epoch.stretch.earlier, epoch.stretch.snapshots, ?_,
      epoch.stretch.seeds⟩
    intro d hd
    rcases List.mem_append.mp hd with hd | hd
    · exact epoch.stretch.changes d hd
    · rw [(hchanges d hd).2]
      exact ⟨(hchanges d hd).1, htime⟩
  have hall : events ++ (e :: rest) ++ later =
      epoch.before ++ (epoch.group ++ ((epoch.deltas ++ e :: rest) ++ later)) := by
    rw [List.append_assoc, epoch.append_eq, List.append_assoc epoch.deltas]
  have hdue : ∀ d ∈ epoch.deltas ++ e :: rest, d.provenance.recvTimestampUs ≤ recv := by
    intro d hd
    rcases List.mem_append.mp hd with hd | hd
    · refine (hearlier d ?_).le
      rw [epoch.split]
      exact List.mem_append_right _ (List.mem_append_right _ hd)
    · exact (hchanges d hd).2.le
  rw [hall] at harrived ⊢
  rw [ne_eq, hstretch.gapsAt_eq_nil_iff harrived htime.le hdue hlater]
  refine not_consecutive_fitting epoch.takes ?_ rest
  rw [hnumber]
  exact hpos.ne

section Claim

variable (epoch : Epoch a events) {later : List BookEvent} {target : Nat}
  (hdue : ∀ e ∈ events, e.provenance.recvTimestampUs ≤ target)
  (hlater : ∀ e ∈ later, target < e.provenance.recvTimestampUs)

include epoch hdue hlater

/-- Numbers that go on are no gap. -/
theorem no_gap (harrived : Arrived (events ++ later)) : gapsAt a (events ++ later) target = [] := by
  have htime : epoch.time ≤ target :=
    Nat.lt_succ_iff.mp (epoch.time_lt fun e he => Nat.lt_succ_of_le (hdue e he))
  rw [epoch.append_eq] at harrived ⊢
  refine (epoch.stretch.gapsAt_eq_nil_iff harrived htime ?_ hlater).mpr ?_
  · intro e he
    apply hdue e
    rw [epoch.split]
    exact List.mem_append_right _ (List.mem_append_right _ he)
  · obtain ⟨rest, hrest⟩ := fitting_isPrefix .recvTime epoch.seeded epoch.deltas
    have hnumbered := epoch.numbered
    rw [← hrest] at hnumbered
    exact (consecutive_append.mp hnumbered).1

/-- Where a level change stands that comes after the last group and before another. -/
theorem exists_split {front back : List BookEvent} {d : BookEvent}
    (hsplit : events ++ later = front ++ d :: back) (hk : d.kind = .delta)
    (hback : ∀ e ∈ back, e.kind = .snapshot → target < e.provenance.recvTimestampUs)
    (hnext : ∃ e ∈ back, e.provenance.recvTimestampUs ≤ target) :
    ∃ xs y ys, epoch.deltas = xs ++ d :: y :: ys ∧
      front = epoch.before ++ (epoch.group ++ xs) ∧ back = y :: ys ++ later := by
  obtain ⟨n, hn, hntime⟩ := hnext
  have hnot : n ∉ later := fun hmem => Nat.not_lt.mpr hntime (hlater n hmem)
  obtain ⟨init, s, hgroup⟩ := (List.eq_nil_or_concat' epoch.group).resolve_left
    epoch.stretch.nonempty
  have hs := epoch.stretch.snapshots s (by simp [hgroup])
  have hstime : s.provenance.recvTimestampUs ≤ target := by
    apply hdue s
    rw [epoch.split, hgroup]
    simp
  have hfound : ∃ xs ys, epoch.deltas = xs ++ d :: ys ∧
      front = epoch.before ++ (epoch.group ++ xs) ∧ back = ys ++ later := by
    have hall : (epoch.before ++ epoch.group) ++ (epoch.deltas ++ later) = front ++ d :: back := by
      rw [← hsplit, epoch.append_eq, List.append_assoc]
    rcases List.append_eq_append_iff.mp hall with ⟨xs, hfront, hrest⟩ | ⟨rest, hgroups, hrest⟩
    · rcases List.append_eq_append_iff.mp hrest with ⟨zs, -, hzs⟩ | ⟨ys, hdeltas, hys⟩
      · refine absurd ?_ hnot
        rw [hzs]
        exact List.mem_append_right _ (List.mem_cons_of_mem _ hn)
      · cases ys with
        | nil =>
            refine absurd ?_ hnot
            rw [List.nil_append] at hys
            rw [← hys]
            exact List.mem_cons_of_mem _ hn
        | cons y ys =>
            obtain ⟨rfl, rfl⟩ := List.cons.inj hys
            exact ⟨xs, ys, hdeltas, by rw [hfront, List.append_assoc], rfl⟩
    · cases rest with
      | nil =>
          rw [List.append_nil] at hgroups
          rw [List.nil_append] at hrest
          cases hdeltas : epoch.deltas with
          | nil =>
              refine absurd ?_ hnot
              rw [hdeltas, List.nil_append] at hrest
              rw [← hrest]
              exact List.mem_cons_of_mem _ hn
          | cons y ys =>
              rw [hdeltas] at hrest
              obtain ⟨rfl, rfl⟩ := List.cons.inj hrest
              exact ⟨[], ys, rfl, by rw [← hgroups, List.append_nil], rfl⟩
      | cons w ws =>
          -- the last record of the group would be the level change or come after it
          obtain ⟨rfl, hback'⟩ := List.cons.inj hrest
          have hlast : s ∈ d :: ws := by
            have hend := congrArg List.getLast? hgroups
            rw [hgroup, ← List.append_assoc, List.getLast?_concat,
              List.getLast?_append_of_ne_nil _ (List.cons_ne_nil d ws)] at hend
            exact List.mem_of_getLast? hend.symm
          rcases List.mem_cons.mp hlast with rfl | hmem
          · rw [hs.1] at hk
            cases hk
          · have hsback : s ∈ back := by
              rw [hback']
              exact List.mem_append_left _ hmem
            exact absurd hstime (Nat.not_le.mpr (hback s hsback hs.1))
  obtain ⟨xs, ys, hdeltas, hfront, hback⟩ := hfound
  cases ys with
  | nil =>
      rw [List.nil_append] at hback
      exact absurd (hback ▸ hn) hnot
  | cons y ys => exact ⟨xs, y, ys, hdeltas, hfront, hback⟩

/-- The next level change shows that one is missing. -/
theorem loss_shows (harrived : Arrived (events ++ later)) {front back : List BookEvent}
    {d : BookEvent}
    (hsplit : events ++ later = front ++ d :: back) (hk : d.kind = .delta)
    (hback : ∀ e ∈ back, e.kind = .snapshot → target < e.provenance.recvTimestampUs)
    (hnext : ∃ e ∈ back, e.provenance.recvTimestampUs ≤ target) :
    gapsAt a (front ++ back) target ≠ [] := by
  obtain ⟨xs, y, ys, hdeltas, hfront, hrest⟩ :=
    epoch.exists_split hdue hlater hsplit hk hback hnext
  have hall : front ++ back =
      epoch.before ++ (epoch.group ++ ((xs ++ y :: ys) ++ later)) := by
    rw [hfront, hrest]
    simp
  have hmem : ∀ e ∈ xs ++ y :: ys, e ∈ epoch.deltas := by
    intro e he
    rw [hdeltas]
    exact (List.sublist_cons_self d (y :: ys)).append_left xs |>.subset he
  have hstretch : Stretch a epoch.before epoch.group (xs ++ y :: ys) epoch.time epoch.seeded :=
    ⟨epoch.stretch.nonempty, epoch.stretch.earlier, epoch.stretch.snapshots,
      fun e he => epoch.stretch.changes e (hmem e he), epoch.stretch.seeds⟩
  have htime : epoch.time ≤ target :=
    Nat.lt_succ_iff.mp (epoch.time_lt fun e he => Nat.lt_succ_of_le (hdue e he))
  have hkept : Arrived (front ++ back) := by
    apply harrived.sublist
    rw [hsplit]
    exact (List.sublist_cons_self d back).append_left front
  have hdue' : ∀ e ∈ xs ++ y :: ys, e.provenance.recvTimestampUs ≤ target := by
    intro e he
    apply hdue e
    rw [epoch.split]
    exact List.mem_append_right _ (List.mem_append_right _ (hmem e he))
  rw [hall] at hkept ⊢
  rw [ne_eq, hstretch.gapsAt_eq_nil_iff hkept htime hdue' hlater]
  have htakes := epoch.takes
  have hnumbered := epoch.numbered
  rw [hdeltas] at htakes hnumbered
  obtain ⟨mid, hmid, -⟩ := applyDeltas_append_eq_ok.mp htakes
  rw [consecutive_append, ← applyDeltas_sequence hmid, consecutive_cons, consecutive_cons]
    at hnumbered
  obtain ⟨-, hd, hy, -⟩ := hnumbered
  refine not_consecutive_fitting hmid ?_ ys
  intro hsame
  rw [← hd] at hsame
  exact Sequence.next_ne d.number (hsame.symm.trans hy)

end Claim

end Epoch

namespace Dispatcher

/-- What holds of the records of any run: they are in the order of arrival, received before
`bound`, and the counter is no further than their number. -/
structure Sent (a : AssetId) (d : Dispatcher) (events : List BookEvent) (bound : Nat) : Prop where
  arrived : Arrived events
  received : ∀ e ∈ events, e.provenance.recvTimestampUs < bound
  counted : d.counter a ≤ events.length

/-- What holds of the records in each phase of a run. -/
def Phase.Holds (a : AssetId) (d : Dispatcher) (events : List BookEvent) (bound : Nat) :
    Phase → Prop
  | .unseeded => ∀ e ∈ events, e.kind = .delta
  | .counting => ∃ epoch : Epoch a events, d.counter a = Sequence.next epoch.book.sequence ∧
      0 < d.counter a ∧
      ∃ shadow, d.validationBooks[a]? = some shadow ∧ epoch.book.sides = shadow.sides
  | .emptied => (∃ epoch : Epoch a events, 0 < Sequence.next epoch.book.sequence) ∧
      d.counter a = 0
  | .broken => ∃ target, target < bound ∧ ∀ later,
      (∀ e ∈ later, bound ≤ e.provenance.recvTimestampUs) → Arrived (events ++ later) →
        gapsAt a (events ++ later) target ≠ []

section Batch

variable {a : AssetId} {d d' : Dispatcher} {events new : List BookEvent} {bound recv n : Nat}

/-- Records of one later message. -/
theorem arrived_append (h : Arrived events)
    (hbefore : ∀ e ∈ events, e.provenance.recvTimestampUs < recv)
    (hrecv : ∀ e ∈ new, e.provenance.recvTimestampUs = recv)
    (hunstamped : ∀ e ∈ new, e.provenance.ingestOrdinal = none) (hcounted : CountedFrom n new)
    (hroom : n + new.length < 2 ^ 64) : Arrived (events ++ new) := by
  constructor
  · refine List.pairwise_append.mpr ⟨h.ordered, ?_, ?_⟩
    · refine (numbers_of_countedFrom hcounted hroom).1.imp_of_mem ?_
      intro d e hd he hlt
      exact .inr ⟨(hrecv d hd).trans (hrecv e he).symm, hlt⟩
    · intro d hd e he
      left
      rw [hrecv e he]
      exact hbefore d hd
  · exact List.forall_mem_append.mpr ⟨h.unstamped, hunstamped⟩

/-- A counted step leaves the asset with its number. -/
theorem Sent.of_counts (h : Sent a d events bound) (hnew : Counts a recv d d' new)
    (hbound : bound ≤ recv) (hroom : (events ++ new).length < 2 ^ 64) :
    Sent a d' (events ++ new) (recv + 1) := by
  have hcounter := h.counted
  rw [List.length_append] at hroom
  refine ⟨?_, ?_, ?_⟩
  · exact arrived_append h.arrived (fun e he => (h.received e he).trans_le hbound)
      (fun e he => (hnew.changes e he).2) hnew.unstamped hnew.counted (by omega)
  · intro e he
    rcases List.mem_append.mp he with he | he
    · have := h.received e he
      omega
    · rw [(hnew.changes e he).2]
      exact Nat.lt_succ_self recv
  · rw [hnew.counter, iterate_next (by omega), List.length_append]
    omega

/-- A seeding step leaves the asset with its number. -/
theorem Sent.of_seeds (h : Sent a d events bound) (hnew : Seeds a recv d' new)
    (hbound : bound ≤ recv) (hroom : (events ++ new).length < 2 ^ 64) :
    Sent a d' (events ++ new) (recv + 1) := by
  rw [List.length_append] at hroom
  refine ⟨?_, ?_, ?_⟩
  · exact arrived_append h.arrived (fun e he => (h.received e he).trans_le hbound)
      (fun e he => (hnew.snapshots e he).2) hnew.unstamped hnew.counted (by omega)
  · intro e he
    rcases List.mem_append.mp he with he | he
    · have := h.received e he
      omega
    · rw [(hnew.snapshots e he).2]
      exact Nat.lt_succ_self recv
  · rw [hnew.counter, iterate_next (by omega), List.length_append]
    omega

variable {phase : Phase}

/-- Whatever is sent next, a gap that shows stays. -/
theorem Phase.holds_broken (h : Phase.broken.Holds a d events bound)
    (hrecv : ∀ e ∈ new, e.provenance.recvTimestampUs = recv) (hbound : bound ≤ recv) :
    Phase.broken.Holds a d' (events ++ new) (recv + 1) := by
  obtain ⟨target, htarget, hgaps⟩ := h
  refine ⟨target, by omega, ?_⟩
  intro later hlater harrived
  rw [List.append_assoc] at harrived ⊢
  refine hgaps (new ++ later) ?_ harrived
  intro e he
  rcases List.mem_append.mp he with he | he
  · rw [hrecv e he]
    exact hbound
  · have := hlater e he
    omega

/-- Level changes, or nothing at all. -/
theorem Phase.holds_of_counts (hsent : Sent a d events bound) (h : phase.Holds a d events bound)
    (hnew : Counts a recv d d' new) (hbound : bound ≤ recv)
    (hroom : (events ++ new).length < 2 ^ 64) :
    (phase.after (if new = [] then .silent else .changes)).Holds a d' (events ++ new)
      (recv + 1) := by
  have hearlier : ∀ e ∈ events, e.provenance.recvTimestampUs < recv :=
    fun e he => (hsent.received e he).trans_le hbound
  have hcounter := hnew.counter
  have hcount := hsent.counted
  rw [List.length_append] at hroom
  rw [iterate_next (by omega)] at hcounter
  cases phase with
  | unseeded =>
      have hphase : Phase.unseeded.after (if new = [] then .silent else .changes) = .unseeded := by
        split <;> rfl
      rw [hphase]
      exact List.forall_mem_append.mpr ⟨h, fun e he => (hnew.changes e he).1⟩
  | counting =>
      have hphase : Phase.counting.after (if new = [] then .silent else .changes) = .counting := by
        split <;> rfl
      rw [hphase]
      obtain ⟨epoch, hnext, hpos, shadow, hshadow, hsides⟩ := h
      obtain ⟨shadow', hshadow', htakes⟩ := hnew.shadow shadow hshadow
      obtain ⟨taken, htaken, hsides'⟩ := htakes epoch.book hsides
      have hcounted := hnew.counted
      rw [hnext] at hcounted
      refine ⟨epoch.extend new taken recv hnew.changes (epoch.time_lt hearlier) hcounted htaken, ?_,
        by omega, shadow', hshadow', hsides'⟩
      rw [hnew.counter, hnext]
      exact (applyDeltas_counted htaken hcounted).symm
  | emptied =>
      obtain ⟨⟨epoch, hpos⟩, hzero⟩ := h
      cases new with
      | nil =>
          rw [List.append_nil]
          exact ⟨⟨epoch, hpos⟩, by rw [hcounter, hzero]; rfl⟩
      | cons e rest =>
          refine ⟨recv, Nat.lt_succ_self recv, ?_⟩
          intro later hlater harrived
          exact epoch.gap_of_restart hpos hearlier hnew.changes (hnew.counted.1.trans hzero) hlater
            harrived
  | broken =>
      have hphase : Phase.broken.after (if new = [] then .silent else .changes) = .broken := by
        split <;> rfl
      rw [hphase]
      exact holds_broken h (fun e he => (hnew.changes e he).2) hbound

/-- A snapshot, or one without levels. -/
theorem Phase.holds_of_seeds (hsent : Sent a d events bound) (h : phase.Holds a d events bound)
    (hnew : Seeds a recv d' new) (hbound : bound ≤ recv) (hroom : (events ++ new).length < 2 ^ 64) :
    (phase.after (if new = [] then .emptied else .snapshot)).Holds a d' (events ++ new)
      (recv + 1) := by
  have hearlier : ∀ e ∈ events, e.provenance.recvTimestampUs < recv :=
    fun e he => (hsent.received e he).trans_le hbound
  have hcounter := hnew.counter
  rw [List.length_append] at hroom
  rw [iterate_next (by omega), Nat.zero_add] at hcounter
  by_cases hbroken : phase = .broken
  · have hphase : phase.after (if new = [] then .emptied else .snapshot) = .broken := by
      rw [hbroken]
      split <;> rfl
    rw [hphase]
    rw [hbroken] at h
    exact holds_broken h (fun e he => (hnew.snapshots e he).2) hbound
  · by_cases hnil : new = []
    · subst hnil
      rw [if_pos rfl, List.append_nil]
      cases phase with
      | unseeded => exact h
      | counting =>
          obtain ⟨epoch, hnext, hpos, -⟩ := h
          exact ⟨⟨epoch, hnext ▸ hpos⟩, hcounter⟩
      | emptied => exact ⟨h.1, hcounter⟩
      | broken => exact absurd rfl hbroken
    · have hphase : phase.after (if new = [] then .emptied else .snapshot) = .counting := by
        rw [if_neg hnil]
        cases phase with
        | broken => exact absurd rfl hbroken
        | _ => rfl
      rw [hphase]
      obtain ⟨shadow, hshadow, hseeds⟩ := hnew.shadow
      obtain ⟨seeded, hseeded, hsides⟩ := hseeds (L2Book.new a)
      refine ⟨Epoch.start events hearlier hnil hnew.snapshots hseeded, ?_, ?_, shadow, hshadow,
        hsides⟩
      · rw [hnew.counter]
        exact (next_of_countedFrom hnil hnew.counted hseeded).symm
      · rw [hcounter]
        exact List.length_pos_of_ne_nil hnil

end Batch

section Run

variable {a : AssetId}

/-- The kinds of the messages of a run. -/
def kinds (a : AssetId) (d : Dispatcher) (messages : List FeedMessage) : List StepKind :=
  (d.steps [] messages).map (Step.kind a)

/-- What has been sent before plays no part in the kind of a message. -/
theorem kinds_eq (d : Dispatcher) (log : List PersistedRecord) (messages : List FeedMessage) :
    (d.steps log messages).map (Step.kind a) = kinds a d messages := by
  have hall : ∀ (d : Dispatcher) (log log' : List PersistedRecord),
      (d.steps log messages).map (Step.kind a) = (d.steps log' messages).map (Step.kind a) := by
    induction messages with
    | nil => exact fun _ _ _ => rfl
    | cons message messages ih =>
        intro d log log'
        rw [steps, steps, List.map_cons, List.map_cons, ih]
        rfl
  exact hall d log []

/-- The kinds of the steps, message by message. -/
theorem kinds_cons (d : Dispatcher) (message : FeedMessage) (messages : List FeedMessage) :
    kinds a d (message :: messages) =
      Step.kind a ⟨d, [], message⟩ :: kinds a (d.dispatch message).1 messages := by
  rw [kinds, steps, List.map_cons, kinds_eq]

/-- **One message.** -/
theorem holds_dispatch {d : Dispatcher} {message : FeedMessage} {events : List BookEvent}
    {bound : Nat} {phase : Phase} (hsent : Sent a d events bound)
    (h : phase.Holds a d events bound) (hun : Uninterrupted a (d.dispatch message).2)
    (hbound : bound ≤ FeedPipeline.recvTimestampUs message)
    (hroom : (events ++ booksOf a (d.dispatch message).2).length < 2 ^ 64) :
    Sent a (d.dispatch message).1 (events ++ booksOf a (d.dispatch message).2)
        (FeedPipeline.recvTimestampUs message + 1) ∧
      (phase.after (Step.kind a ⟨d, [], message⟩)).Holds a (d.dispatch message).1
        (events ++ booksOf a (d.dispatch message).2)
        (FeedPipeline.recvTimestampUs message + 1) := by
  cases haccepted : Step.acceptedBook a ⟨d, [], message⟩ with
  | none =>
      have hnew := Step.counts_of_not_accepted haccepted hun
      have hkind : Step.kind a ⟨d, [], message⟩ =
          if Step.books a ⟨d, [], message⟩ = [] then .silent else .changes := by
        rw [Step.kind, haccepted]
      rw [hkind]
      exact ⟨hsent.of_counts hnew hbound hroom, Phase.holds_of_counts hsent h hnew hbound hroom⟩
  | some records =>
      obtain ⟨hnew, hrecords⟩ := Step.seeds_of_accepted haccepted
      have hkind : Step.kind a ⟨d, [], message⟩ =
          if Step.books a ⟨d, [], message⟩ = [] then .emptied else .snapshot := by
        rw [Step.kind, haccepted, hrecords]
        cases Step.books a ⟨d, [], message⟩ with
        | nil => rfl
        | cons e rest => rfl
      rw [hkind]
      exact ⟨hsent.of_seeds hnew hbound hroom, Phase.holds_of_seeds hsent h hnew hbound hroom⟩

/-- **A whole run.** -/
theorem holds_run (messages : List FeedMessage) {d : Dispatcher} {events : List BookEvent}
    {bound : Nat} {phase : Phase} (hsent : Sent a d events bound)
    (h : phase.Holds a d events bound) (hun : Uninterrupted a (d.run messages).2)
    (hbound : ∀ m ∈ messages, bound ≤ FeedPipeline.recvTimestampUs m)
    (hincreasing : messages.Pairwise fun m n =>
      FeedPipeline.recvTimestampUs m < FeedPipeline.recvTimestampUs n)
    (hroom : (events ++ booksOf a (d.run messages).2).length < 2 ^ 64) :
    ∃ bound', Sent a (d.run messages).1 (events ++ booksOf a (d.run messages).2) bound' ∧
      ((kinds a d messages).foldl Phase.after phase).Holds a (d.run messages).1
        (events ++ booksOf a (d.run messages).2) bound' ∧
      ∀ limit, bound ≤ limit → (∀ m ∈ messages, FeedPipeline.recvTimestampUs m < limit) →
        bound' ≤ limit := by
  induction messages generalizing d events bound phase with
  | nil =>
      rw [run, booksOf, List.filterMap_nil, List.append_nil]
      exact ⟨bound, hsent, h, fun _ hlimit _ => hlimit⟩
  | cons message messages ih =>
      obtain ⟨hfirst, hrest⟩ := Uninterrupted.append.mp hun
      obtain ⟨hlater, hincreasing⟩ := List.pairwise_cons.mp hincreasing
      simp only [run, booksOf_append] at hroom ⊢
      rw [← List.append_assoc] at hroom ⊢
      have hroom' : (events ++ booksOf a (d.dispatch message).2).length < 2 ^ 64 := by
        rw [List.length_append] at hroom
        omega
      obtain ⟨hsent', h'⟩ :=
        holds_dispatch hsent h hfirst (hbound message List.mem_cons_self) hroom'
      obtain ⟨bound', hsent', h', hlimit⟩ :=
        ih hsent' h' hrest (fun m hm => hlater m hm) hincreasing hroom
      refine ⟨bound', hsent', ?_, ?_⟩
      · rw [kinds_cons, List.foldl_cons]
        exact h'
      · intro limit _ hall
        exact hlimit limit (hall message List.mem_cons_self)
          fun m hm => hall m (List.mem_cons_of_mem _ hm)

/-- A run in two parts. -/
theorem run_append (d : Dispatcher) (xs ys : List FeedMessage) :
    d.run (xs ++ ys) = (((d.run xs).1.run ys).1, (d.run xs).2 ++ ((d.run xs).1.run ys).2) := by
  induction xs generalizing d with
  | nil => rfl
  | cons x xs ih =>
      rw [List.cons_append]
      simp only [run]
      rw [ih, List.append_assoc]

/-- The kinds of a run in two parts. -/
theorem kinds_append (d : Dispatcher) (xs ys : List FeedMessage) :
    kinds a d (xs ++ ys) = kinds a d xs ++ kinds a (d.run xs).1 ys := by
  induction xs generalizing d with
  | nil => rfl
  | cons x xs ih => rw [List.cons_append, kinds_cons, ih, kinds_cons, List.cons_append, run]

/-- A record has the receive time of its message. -/
theorem received_of_run {d : Dispatcher} {messages : List FeedMessage}
    (hun : Uninterrupted a (d.run messages).2) {e : BookEvent}
    (he : e ∈ booksOf a (d.run messages).2) :
    ∃ m ∈ messages, e.provenance.recvTimestampUs = FeedPipeline.recvTimestampUs m := by
  induction messages generalizing d with
  | nil => cases he
  | cons message messages ih =>
      obtain ⟨hfirst, hrest⟩ := Uninterrupted.append.mp hun
      simp only [run, booksOf_append] at he
      rcases List.mem_append.mp he with he | he
      · refine ⟨message, List.mem_cons_self, ?_⟩
        cases haccepted : Step.acceptedBook a ⟨d, [], message⟩ with
        | none => exact ((Step.counts_of_not_accepted haccepted hfirst).changes e he).2
        | some records => exact ((Step.seeds_of_accepted haccepted).1.snapshots e he).2
      · obtain ⟨m, hm, htime⟩ := ih hrest he
        exact ⟨m, List.mem_cons_of_mem _ hm, htime⟩

/-- Before a snapshot there is nothing that replay could start from. -/
theorem gapsAt_eq_nil_of_unseeded {events : List BookEvent} {target : Nat}
    (h : ∀ e ∈ events, e.kind = .snapshot → target < e.provenance.recvTimestampUs) :
    gapsAt a events target = [] := by
  rw [gapsAt]
  cases hr : reconstructBook a target .recvTime none ⟨events, [], []⟩ with
  | error err => rfl
  | ok r =>
      obtain ⟨before, s, after, hsplit⟩ := SeedSplit.exists_of_ok rfl hr
      obtain ⟨hk, hdue, -⟩ := seedsAt_iff.mp hsplit.seeds
      exact absurd hdue (Nat.not_le.mpr (h s hsplit.mem_last hk))

end Run

section Claim

variable (a : AssetId) (events : List BookEvent)

/-- Replay reports no gap, at whatever time. -/
def NoFalseGap : Prop := ∀ target, gapsAt a events target = []

/-- Replay reports a gap, at whatever time, when a level change is missing that comes after
the last snapshot group and before another level change. -/
def LossShows : Prop :=
  ∀ target front d back, events = front ++ d :: back → d.kind = .delta →
    (∃ s ∈ front, s.kind = .snapshot) →
    (∀ e ∈ back, e.kind = .snapshot → target < e.provenance.recvTimestampUs) →
    (∃ e ∈ back, e.kind = .delta ∧ e.provenance.recvTimestampUs ≤ target) →
      gapsAt a (front ++ back) target ≠ []

end Claim

/-- A new dispatcher has sent nothing. -/
theorem sent_new (a : AssetId) : Sent a new [] 0 :=
  ⟨⟨List.Pairwise.nil, List.forall_mem_nil _⟩, List.forall_mem_nil _, Nat.zero_le _⟩

/-- A new dispatcher is in its first phase. -/
theorem holds_new (a : AssetId) : Phase.unseeded.Holds a new [] 0 := List.forall_mem_nil _

/-- A run that is not broken has numbers that go on from its last snapshot. -/
theorem Phase.Holds.epoch {a : AssetId} {d : Dispatcher} {events : List BookEvent} {bound : Nat}
    {phase : Phase} (h : phase.Holds a d events bound) (hphase : phase ≠ .broken) :
    (∀ e ∈ events, e.kind = .delta) ∨ Nonempty (Epoch a events) := by
  cases phase with
  | unseeded => exact .inl h
  | counting =>
      obtain ⟨epoch, -⟩ := h
      exact .inr ⟨epoch⟩
  | emptied =>
      obtain ⟨⟨epoch, -⟩, -⟩ := h
      exact .inr ⟨epoch⟩
  | broken => exact absurd rfl hphase

section Runs

variable {a : AssetId} {messages : List FeedMessage}
  (hincreasing : messages.Pairwise fun m n =>
    FeedPipeline.recvTimestampUs m < FeedPipeline.recvTimestampUs n)
  (hun : Uninterrupted a (new.run messages).2)
  (hroom : (booksOf a (new.run messages).2).length < 2 ^ 64)

include hincreasing hun hroom

/-- The records received up to a time, and those after it. -/
theorem exists_cut (hbroken : ¬ RestartHidden (kinds a new messages)) (target : Nat) :
    ∃ early late, booksOf a (new.run messages).2 = early ++ late ∧
      (∀ e ∈ early, e.provenance.recvTimestampUs ≤ target) ∧
      (∀ e ∈ late, target < e.provenance.recvTimestampUs) ∧
      ((∀ e ∈ early, e.kind = .delta) ∨ Nonempty (Epoch a early)) := by
  obtain ⟨first, last, hmessages, hfirst, hlast⟩ : ∃ first last, messages = first ++ last ∧
      (∀ m ∈ first, FeedPipeline.recvTimestampUs m ≤ target) ∧
      ∀ m ∈ last, target < FeedPipeline.recvTimestampUs m := by
    refine ⟨_, _, (Sorting.filter_le_append_filter_lt target
      (hincreasing.imp fun hlt => hlt.le)).symm, ?_, ?_⟩
    · intro m hm
      simpa using (List.mem_filter.mp hm).2
    · intro m hm
      simpa using (List.mem_filter.mp hm).2
  subst hmessages
  rw [run_append] at hun hroom ⊢
  obtain ⟨hearly, hlate⟩ := Uninterrupted.append.mp hun
  rw [booksOf_append] at hroom ⊢
  refine ⟨_, _, rfl, ?_, ?_, ?_⟩
  · intro e he
    obtain ⟨m, hm, htime⟩ := received_of_run hearly he
    rw [htime]
    exact hfirst m hm
  · intro e he
    obtain ⟨m, hm, htime⟩ := received_of_run hlate he
    rw [htime]
    exact hlast m hm
  · have hroom' : ([] ++ booksOf a (new.run first).2).length < 2 ^ 64 := by
      rw [List.length_append] at hroom
      rw [List.nil_append]
      omega
    obtain ⟨bound, -, hholds, -⟩ := holds_run first (sent_new a) (holds_new a) hearly
      (fun _ _ => Nat.zero_le _) (List.pairwise_append.mp hincreasing).1 hroom'
    refine hholds.epoch ?_
    have hall : phaseOf (kinds a new first ++ kinds a (new.run first).1 last) ≠ .broken := by
      rw [← kinds_append]
      exact fun h => hbroken (phaseOf_eq_broken_iff.mp h)
    exact phaseOf_ne_broken_of_append hall

/-- The records are in the order of arrival. -/
theorem arrived_run : Arrived (booksOf a (new.run messages).2) := by
  obtain ⟨bound, hsent, -⟩ := holds_run messages (sent_new a) (holds_new a) hun
    (fun _ _ => Nat.zero_le _) hincreasing hroom
  exact hsent.arrived

/-- Without a hidden restart no gap is reported falsely. -/
theorem noFalseGap_of_not_restartHidden (hbroken : ¬ RestartHidden (kinds a new messages)) :
    NoFalseGap a (booksOf a (new.run messages).2) := by
  intro target
  obtain ⟨early, late, hsplit, hearly, hlate, hepoch⟩ :=
    exists_cut hincreasing hun hroom hbroken target
  have harrived := arrived_run hincreasing hun hroom
  rw [hsplit] at harrived ⊢
  rcases hepoch with hdeltas | ⟨⟨epoch⟩⟩
  · apply gapsAt_eq_nil_of_unseeded
    intro e he hk
    rcases List.mem_append.mp he with he | he
    · rw [hdeltas e he] at hk
      cases hk
    · exact hlate e he
  · exact epoch.no_gap hearly hlate harrived

/-- Without a hidden restart every loss shows. -/
theorem lossShows_of_not_restartHidden (hbroken : ¬ RestartHidden (kinds a new messages)) :
    LossShows a (booksOf a (new.run messages).2) := by
  intro target front d back hlist hk hseeded hback hnext
  obtain ⟨early, late, hsplit, hearly, hlate, hepoch⟩ :=
    exists_cut hincreasing hun hroom hbroken target
  have harrived := arrived_run hincreasing hun hroom
  obtain ⟨n, hn, -, hntime⟩ := hnext
  rcases hepoch with hdeltas | ⟨⟨epoch⟩⟩
  · obtain ⟨s, hs, hsk⟩ := hseeded
    have hmem : s ∈ early ++ late := by
      rw [← hsplit, hlist]
      exact List.mem_append_left _ hs
    rcases List.mem_append.mp hmem with hmem | hmem
    · rw [hdeltas s hmem] at hsk
      cases hsk
    · -- the snapshot was received before the later level change
      have hordered := harrived.ordered
      rw [hlist, List.pairwise_append] at hordered
      have hbefore := hordered.2.2 s hs n (List.mem_cons_of_mem _ hn)
      have := hlate s hmem
      omega
  · rw [hsplit] at harrived hlist
    exact epoch.loss_shows hearly hlate harrived hlist hk hback ⟨n, hn, hntime⟩

/-- After a hidden restart a gap is reported falsely. -/
theorem not_noFalseGap_of_restartHidden (hbroken : RestartHidden (kinds a new messages)) :
    ¬ NoFalseGap a (booksOf a (new.run messages).2) := by
  intro hnone
  obtain ⟨bound, hsent, hholds, -⟩ := holds_run messages (sent_new a) (holds_new a) hun
    (fun _ _ => Nat.zero_le _) hincreasing hroom
  have hphase : (kinds a new messages).foldl Phase.after .unseeded = .broken :=
    phaseOf_eq_broken_iff.mpr hbroken
  rw [hphase] at hholds
  obtain ⟨target, -, hgaps⟩ := hholds
  have harrived := hsent.arrived
  rw [List.nil_append] at hgaps harrived
  refine hgaps [] (List.forall_mem_nil _) ?_ ?_
  · rwa [List.append_nil]
  · rw [List.append_nil]
    exact hnone target

end Runs

/-- **What the numbers expose.**  Replay reports no gap in the records of a run, and reports
one when a level change between two others is missing, exactly if the numbers never start
again unseen.  (A vector holds fewer than `2 ^ 64` records.) -/
theorem loss_shows_iff (a : AssetId) (messages : List FeedMessage)
    (hincreasing : messages.Pairwise fun m n =>
      FeedPipeline.recvTimestampUs m < FeedPipeline.recvTimestampUs n)
    (hun : Uninterrupted a (new.run messages).2)
    (hroom : (booksOf a (new.run messages).2).length < 2 ^ 64) :
    (NoFalseGap a (booksOf a (new.run messages).2) ∧
        LossShows a (booksOf a (new.run messages).2)) ↔
      ¬ RestartHidden (kinds a new messages) := by
  constructor
  · rintro ⟨hnone, -⟩ hbroken
    exact not_noFalseGap_of_restartHidden hincreasing hun hroom hbroken hnone
  · intro hbroken
    exact ⟨noFalseGap_of_not_restartHidden hincreasing hun hroom hbroken,
      lossShows_of_not_restartHidden hincreasing hun hroom hbroken⟩

/-- The sample run has no hidden restart. -/
theorem loss_shows_sample :
    (NoFalseGap "yes" (booksOf "yes" (new.run sampleMessages).2) ∧
        LossShows "yes" (booksOf "yes" (new.run sampleMessages).2)) ↔
      ¬ RestartHidden (kinds "yes" new sampleMessages) :=
  loss_shows_iff "yes" sampleMessages (by decide) (by unfold Uninterrupted; decide +kernel)
    (by decide +kernel)

/-- A snapshot, one without levels, then a level change. -/
def restartedMessages : List FeedMessage := emptiedMessages ++ [
  .raw ⟨some (.priceChange {
    timestamp := some "1750000002000"
    priceChanges := [⟨"yes", "0.51", "3", "BUY", some "p", some "0.51", none⟩] }),
    1750000002100000⟩]

/-- The level change has number zero, and replay reports a gap with nothing lost. -/
theorem emptied_book_reports_gap :
    restartedMessages.Pairwise (fun m n =>
      FeedPipeline.recvTimestampUs m < FeedPipeline.recvTimestampUs n) ∧
    Uninterrupted "yes" (new.run restartedMessages).2 ∧
    ¬ NoFalseGap "yes" (booksOf "yes" (new.run restartedMessages).2) := by
  refine ⟨by decide, by unfold Uninterrupted; decide +kernel, ?_⟩
  intro hnone
  have hgap := hnone 1750000002100000
  revert hgap
  decide +kernel

end Dispatcher

end PolyBook
