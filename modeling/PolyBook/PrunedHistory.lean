import PolyBook.Agreement

/-!
# Replaying what pruning left

Pruning removes whole segments from the front of the log, so hydration without a
checkpoint replays a suffix of the history.  The suffix need not be
self-contained: when the cut falls between two records of one snapshot, the tail
of the snapshot is taken for a whole one and the asset comes up ready with a
truncated book.  A retained checkpoint record has the same effect on an asset
whose book the pruned part had already established: the full replay ignores it,
the suffix starts from it.

`retained_book_eq_full` shows that these two are the only ways, and that neither
shows once a whole snapshot of the asset lies behind the cut.
-/

namespace PolyBook

/-- The cut falls between two records of one snapshot of the asset. -/
def cutsSnapshot (a : AssetId) (pruned retained : List PersistedRecord) : Bool :=
  match pruned.getLast?, retained.head? with
  | some x, some y => sameGroup a x y
  | _, _ => false

/-- A checkpoint of the asset that can replace its book. -/
def seedingCheckpoint (a : AssetId) : PersistedRecord → Bool
  | .checkpoint c => c.assetId == a && c.fits
  | _ => false

/-- A checkpoint of the asset comes before every retained run that seeds it. -/
def startsAtCheckpoint (a : AssetId) (retained : List PersistedRecord) : Bool :=
  (List.range retained.length).any fun n =>
    (retained[n]?.any (seedingCheckpoint a)) && !seeds a (retained.take n)

/-- A whole snapshot of the asset that its book takes lies behind the cut. -/
def wholeSnapshot (a : AssetId) (pruned retained : List PersistedRecord) : Bool :=
  if cutsSnapshot a pruned retained then (groups a retained).tail.any (AssetView.restoresGroup a)
  else (groups a retained).any (AssetView.restoresGroup a)

namespace AssetView

variable (a : AssetId)

/-- A cut outside the asset's snapshots is a group boundary. -/
theorem applyAll_retained_eq {pruned retained : List PersistedRecord}
    (hcut : cutsSnapshot a pruned retained = false) (hne : retained ≠ []) :
    (empty.applyAll a pruned).applyAll a retained =
      ((empty.applyAll a pruned).flush a).applyAll a retained := by
  obtain ⟨y, rest, rfl⟩ := List.exists_cons_of_ne_nil hne
  have hfirst : (empty.applyAll a pruned).before a y = (empty.applyAll a pruned).flush a := by
    by_cases hp : pruned = []
    · subst hp
      rfl
    · refine before_of_not_sameGroup a (tracks_applyAll_getLast a rfl hp) ?_
      simpa [cutsSnapshot, List.getLast?_eq_some_getLast hp] using hcut
  rw [applyAll_cons, applyAll_cons, apply, apply, hfirst,
    before_of_pending_none a (flush_pending a _)]

/-- The suffix replay and the full one stay in agreement. -/
theorem agree_retained {w : AssetView} (hasset : (w.stateD a).book.assetId = a)
    (hpending : w.pending = none) {retained : List PersistedRecord}
    (hcheckpoint : (w.stateD a).initializedFromSnapshot = false ∨
      startsAtCheckpoint a retained = false)
    (done rest : List PersistedRecord) (hdone : retained = done ++ rest) :
    Agree a False (empty.applyAll a done) (w.applyAll a done) := by
  induction done using List.reverseRecOn generalizing rest with
  | nil => exact ⟨hpending.symm, .of_uninitialized hasset.symm rfl⟩
  | append_singleton done x ih =>
      have hagree := ih (x :: rest) (by rw [hdone, List.append_assoc]; rfl)
      rw [applyAll_append, applyAll_append]
      refine hagree.apply a x ?_
      rintro c rfl hc hfits
      rw [applyAll_flush_initialized a rfl, applyAll_flush_initialized a hpending]
      cases hseeds : seeds a done with
      | true => simp
      | false =>
          refine Or.inr ?_
          have hstarts : startsAtCheckpoint a retained = true := by
            refine List.any_eq_true.mpr ⟨done.length, ?_, ?_⟩
            · simp [hdone]
            · simp [hdone, seedingCheckpoint, hc, hfits, hseeds]
          simpa [hstarts] using hcheckpoint

/-- A cut outside the asset's snapshots, and no checkpoint that would replace its book. -/
theorem agree_of_cut {pruned retained : List PersistedRecord}
    (hcut : cutsSnapshot a pruned retained = false)
    (hcheckpoint : seeds a pruned = false ∨ startsAtCheckpoint a retained = false)
    (hready : (((empty.applyAll a retained).flush a).stateD a).initializedFromSnapshot = true) :
    Agree a False ((empty.applyAll a retained).flush a)
      (((empty.applyAll a pruned).applyAll a retained).flush a) := by
  have hne : retained ≠ [] := by
    rintro rfl
    cases hready
  have hasset : (((empty.applyAll a pruned).flush a).stateD a).book.assetId = a := by
    rw [flush_assetId, applyAll_assetId]
    rfl
  have hstart : (((empty.applyAll a pruned).flush a).stateD a).initializedFromSnapshot = false ∨
      startsAtCheckpoint a retained = false := by
    rw [applyAll_flush_initialized a rfl]
    exact hcheckpoint
  rw [applyAll_retained_eq a hcut hne]
  exact (agree_retained a hasset (flush_pending a _) hstart retained []
    (List.append_nil _).symm).flush a

/-- Behind a cut at a group boundary, a whole snapshot decides the book. -/
theorem agree_of_boundary {pruned retained : List PersistedRecord}
    (hcut : cutsSnapshot a pruned retained = false)
    (hwhole : (groups a retained).any (restoresGroup a) = true) {v : AssetView}
    (hv : v.pending = none) (hasset : (v.stateD a).book.assetId = a) :
    Agree a False ((v.applyAll a retained).flush a)
      (((empty.applyAll a pruned).applyAll a retained).flush a) := by
  have hne : retained ≠ [] := by
    rintro rfl
    cases hwhole
  obtain ⟨-, -, hchain, -⟩ := (List.splitBy_eq_iff (l := groups a retained)).mp rfl
  rw [applyAll_retained_eq a hcut hne, applyAll_flush_eq_applyGroups a hv,
    applyAll_flush_eq_applyGroups a (flush_pending a _)]
  refine agree_applyGroups_of_restoresGroup a hv (flush_pending a _) ?_ hchain hwhole
  rw [hasset, flush_assetId, applyAll_assetId]
  rfl

/-- The boundary between two groups splits no snapshot. -/
theorem cutsSnapshot_of_link {first second : List PersistedRecord}
    {gs : List (List PersistedRecord)} (before : List PersistedRecord)
    (hlink : ∃ hg hg', sameGroup a (first.getLast hg) (second.head hg') = false) :
    cutsSnapshot a (before ++ first) (second :: gs).flatten = false := by
  obtain ⟨hfirst, hsecond, hlink⟩ := hlink
  obtain ⟨y, rest, rfl⟩ := List.exists_cons_of_ne_nil hsecond
  rw [cutsSnapshot, List.getLast?_append_of_ne_nil _ hfirst,
    List.getLast?_eq_some_getLast hfirst, List.flatten_cons, List.cons_append, List.head?_cons]
  exact hlink

/-- A whole snapshot behind the cut decides the book, wherever the cut falls. -/
theorem agree_of_wholeSnapshot {pruned retained : List PersistedRecord}
    (hwhole : wholeSnapshot a pruned retained = true) :
    Agree a False ((empty.applyAll a retained).flush a)
      (((empty.applyAll a pruned).applyAll a retained).flush a) := by
  cases hcut : cutsSnapshot a pruned retained with
  | false =>
      rw [wholeSnapshot, hcut] at hwhole
      exact agree_of_boundary a hcut hwhole rfl rfl
  | true =>
      rw [wholeSnapshot, hcut, if_pos rfl] at hwhole
      obtain ⟨hflatten, hnil, hchain, hlinks⟩ :=
        (List.splitBy_eq_iff (l := groups a retained)).mp rfl
      generalize groups a retained = gs at hflatten hnil hchain hlinks hwhole
      -- the group that the cut split goes to the pruned part: the next one is whole
      rcases gs with - | ⟨first, - | ⟨second, gs⟩⟩
      · cases hwhole
      · cases hwhole
      rw [List.tail_cons] at hwhole
      have hgroups : groups a (second :: gs).flatten = second :: gs := List.splitBy_eq_iff.mpr
        ⟨rfl, fun h => hnil (List.mem_cons_of_mem first h),
          fun g hg => hchain g (List.mem_cons_of_mem first hg), hlinks.tail⟩
      have hboundary : ∀ before,
          cutsSnapshot a (before ++ first) (second :: gs).flatten = false := fun before =>
        cutsSnapshot_of_link a before (List.isChain_cons_cons.mp hlinks).1
      have hne : (second :: gs).flatten ≠ [] := by
        intro h
        rw [h] at hgroups
        cases hgroups
      have hsuffix := applyAll_retained_eq a (hboundary []) hne
      have hagree := agree_of_boundary a (hboundary pruned) (by rw [hgroups, hwhole])
        (v := (empty.applyAll a first).flush a) (flush_pending a _)
        (by rw [flush_assetId, applyAll_assetId]; rfl)
      rw [List.nil_append] at hsuffix
      rw [← hsuffix, ← applyAll_append, applyAll_append a empty pruned first,
        ← applyAll_append] at hagree
      rwa [hflatten]

end AssetView

/-- **A cut at a group boundary loses nothing.**  If the cut does not split a
snapshot of the asset, and the pruned part had not given it a book that a
retained checkpoint would replace, then an asset the suffix brings up has the
book of the full history.  A whole snapshot behind the cut makes good either. -/
theorem retained_book_eq_full (mode : FeedMode) (a : AssetId)
    (pruned retained : List PersistedRecord)
    (hcut : (cutsSnapshot a pruned retained = false ∧
        (seeds a pruned = false ∨ startsAtCheckpoint a retained = false)) ∨
      wholeSnapshot a pruned retained = true)
    (hready : (LiveState.replay mode retained).initialized a = true) :
    (LiveState.replay mode retained).book a =
      (LiveState.replay mode (pruned ++ retained)).book a := by
  rw [LiveState.initialized_eq, LiveState.view_replay] at hready
  rw [LiveState.book_eq, LiveState.book_eq, LiveState.view_replay, LiveState.view_replay,
    AssetView.applyAll_append]
  have hagree : AssetView.Agree a False ((AssetView.empty.applyAll a retained).flush a)
      (((AssetView.empty.applyAll a pruned).applyAll a retained).flush a) := by
    rcases hcut with ⟨hcut, hcheckpoint⟩ | hwhole
    · exact AssetView.agree_of_cut a hcut hcheckpoint hready
    · exact AssetView.agree_of_wholeSnapshot a hwhole
  exact hagree.state.book (Or.inr hready)

/-- A history whose cut falls between two snapshots, and one whose cut splits a
snapshot before a whole one. -/
theorem retained_book_eq_full_between_snapshots :
    let first := [.book (Sample.level .snapshot "yes" .bid 50 10 2 "m"),
      .book (Sample.level .snapshot "yes" .ask 60 5 2 "m")]
    let second := [.book (Sample.level .snapshot "yes" .bid 51 4 3 "n"),
      .book (Sample.level .snapshot "yes" .ask 61 5 3 "n")]
    (LiveState.replay .fixedTokens second).book "yes" =
        (LiveState.replay .fixedTokens (first ++ second)).book "yes" ∧
      (LiveState.replay .fixedTokens (first.drop 1 ++ second)).book "yes" =
        (LiveState.replay .fixedTokens (first.take 1 ++ (first.drop 1 ++ second))).book "yes" :=
  ⟨retained_book_eq_full .fixedTokens "yes" _ _ (Or.inl ⟨by decide, Or.inr (by decide)⟩)
      (by decide),
    retained_book_eq_full .fixedTokens "yes" _ _ (Or.inr (by decide)) (by decide)⟩

/-- A cut inside a snapshot: the asset comes up ready without its bid. -/
theorem cut_snapshot_serves_truncated_book :
    (LiveState.replay .fixedTokens
        [.book (Sample.level .snapshot "yes" .ask 60 5 2 "m")]).initialized "yes" = true ∧
      ((LiveState.replay .fixedTokens
          [.book (Sample.level .snapshot "yes" .ask 60 5 2 "m")]).book "yes").levels ≠
        ((LiveState.replay .fixedTokens
          ([.book (Sample.level .snapshot "yes" .bid 50 10 2 "m")] ++
            [.book (Sample.level .snapshot "yes" .ask 60 5 2 "m")])).book "yes").levels := by
  refine ⟨by decide, ?_⟩
  intro h
  exact absurd (congrArg (fun levels => levels.1.toList.head?) h) (by decide)

end PolyBook
