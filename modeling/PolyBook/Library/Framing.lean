import Mathlib.Data.List.Infix

/-!
# Streams of frames

Records are written one after another as frames.  A file that holds a prefix of
such a stream holds a number of whole frames and a torn one; `fitting` computes
which records are whole from the length alone, and `eq_frames_append_torn` is the
decomposition.
-/

namespace Framing

variable {α β : Type*} (f : α → List β)

/-- The stream of a list of records. -/
def frames (rs : List α) : List β := rs.flatMap f

/-- What is left of a frame that was cut short: nothing, or a part of a frame of
an admissible record that is not the whole frame. -/
def Torn (ok : α → Prop) (t : List β) : Prop :=
  t = [] ∨ ∃ r rest, ok r ∧ rest ≠ [] ∧ f r = t ++ rest

/-- The records whose frames lie within the first `len` elements. -/
def fitting : (len : Nat) → List α → List α
  | _, [] => []
  | len, r :: rs =>
      if (f r).length ≤ len then r :: fitting (len - (f r).length) rs else []

variable {f} {ok : α → Prop}

@[simp] theorem frames_nil : frames f [] = [] := rfl

@[simp] theorem frames_cons (r : α) (rs : List α) :
    frames f (r :: rs) = f r ++ frames f rs := rfl

@[simp] theorem frames_append (rs rs' : List α) :
    frames f (rs ++ rs') = frames f rs ++ frames f rs' := by
  simp [frames]

theorem frames_prefix {rs rs' : List α} (h : rs <+: rs') :
    frames f rs <+: frames f rs' := by
  obtain ⟨more, rfl⟩ := h
  exact ⟨frames f more, (frames_append rs more).symm⟩

theorem torn_nil : Torn f ok [] := Or.inl rfl

theorem fitting_isPrefix (len : Nat) (rs : List α) : fitting f len rs <+: rs := by
  induction rs generalizing len with
  | nil => exact List.prefix_rfl
  | cons r rs ih =>
      unfold fitting
      split
      · exact (List.prefix_cons_inj r).mpr (ih _)
      · exact List.nil_prefix

theorem length_frames_fitting_le (len : Nat) (rs : List α) :
    (frames f (fitting f len rs)).length ≤ len := by
  induction rs generalizing len with
  | nil => exact Nat.zero_le len
  | cons r rs ih =>
      unfold fitting
      split
      · rw [frames_cons, List.length_append]
        have := ih (len - (f r).length)
        omega
      · exact Nat.zero_le len

theorem fitting_mono {len len' : Nat} (h : len ≤ len') (rs : List α) :
    fitting f len rs <+: fitting f len' rs := by
  induction rs generalizing len len' with
  | nil => exact List.prefix_rfl
  | cons r rs ih =>
      unfold fitting
      by_cases hr : (f r).length ≤ len
      · rw [if_pos hr, if_pos (Nat.le_trans hr h)]
        exact (List.prefix_cons_inj r).mpr (ih (by omega))
      · rw [if_neg hr]
        exact List.nil_prefix

/-- Frames that are there stay there. -/
theorem fitting_frames_append (rs rs' : List α) (k : Nat) :
    fitting f ((frames f rs).length + k) (rs ++ rs') = rs ++ fitting f k rs' := by
  induction rs with
  | nil => simp
  | cons r rs ih =>
      rw [List.cons_append, fitting, frames_cons, List.length_append, if_pos (by omega),
        List.cons_append, ← ih]
      congr 2
      omega

@[simp] theorem fitting_frames (rs : List α) :
    fitting f (frames f rs).length rs = rs := by
  simpa [fitting] using fitting_frames_append (f := f) rs [] 0

/-- A record that comes after the first `len` elements does not fit. -/
theorem fitting_append_of_le (hne : ∀ r : α, f r ≠ []) {len : Nat} {rs : List α}
    (h : len ≤ (frames f rs).length) (rs' : List α) :
    fitting f len (rs ++ rs') = fitting f len rs := by
  induction rs generalizing len with
  | nil =>
      obtain rfl : len = 0 := by simpa using h
      cases rs' with
      | nil => rfl
      | cons r rs' =>
          have := List.length_pos_of_ne_nil (hne r)
          rw [List.nil_append]
          unfold fitting
          rw [if_neg (by omega)]
  | cons r rs ih =>
      rw [frames_cons, List.length_append] at h
      rw [List.cons_append, fitting, fitting, ih (by omega)]

/-- Records whose frames lie within the first `len` elements fit. -/
theorem prefix_fitting {rs recs : List α} (hrs : rs <+: recs) {len : Nat}
    (h : (frames f rs).length ≤ len) : rs <+: fitting f len recs := by
  obtain ⟨more, rfl⟩ := hrs
  obtain ⟨k, rfl⟩ := Nat.exists_eq_add_of_le h
  rw [fitting_frames_append]
  exact List.prefix_append rs _

theorem fitting_eq_self {rs : List α} {len : Nat} (h : (frames f rs).length ≤ len) :
    fitting f len rs = rs :=
  (fitting_isPrefix len rs).eq_of_length_le (prefix_fitting List.prefix_rfl h).length_le

/-- The first records of a list are ordered by the length of their frames. -/
theorem prefix_of_frames_le (hne : ∀ r : α, f r ≠ []) {rs rs' recs : List α} (hrs : rs <+: recs)
    (hrs' : rs' <+: recs) (hle : (frames f rs).length ≤ (frames f rs').length) : rs <+: rs' := by
  rcases List.prefix_or_prefix_of_prefix hrs hrs' with h | ⟨more, rfl⟩
  · exact h
  · cases more with
    | nil => rw [List.append_nil]
    | cons r more =>
        have hpos := List.length_pos_of_ne_nil (hne r)
        rw [frames_append, frames_cons, List.length_append, List.length_append] at hle
        omega

/-- **A prefix of a stream is whole frames and a torn one.** -/
theorem eq_frames_append_torn {data : List β} {rs : List α} (hok : ∀ r ∈ rs, ok r)
    (h : data <+: frames f rs) :
    ∃ torn, Torn f ok torn ∧
      data = frames f (fitting f data.length rs) ++ torn := by
  induction rs generalizing data with
  | nil => exact ⟨data, Or.inl (List.prefix_nil.mp h), by simp [fitting]⟩
  | cons r rs ih =>
      rw [frames_cons] at h
      by_cases hr : (f r).length ≤ data.length
      · obtain ⟨rest, rfl⟩ := List.prefix_of_prefix_length_le (List.prefix_append _ _) h hr
        obtain ⟨torn, htorn, hrest⟩ :=
          ih (fun x hx => hok x (List.mem_cons_of_mem r hx))
            ((List.prefix_append_right_inj (f r)).mp h)
        refine ⟨torn, htorn, ?_⟩
        rw [fitting, List.length_append, if_pos (by omega), frames_cons, List.append_assoc,
          Nat.add_sub_cancel_left, ← hrest]
      · obtain ⟨rest, hrest⟩ :=
          List.prefix_of_prefix_length_le h (List.prefix_append _ _) (by omega)
        refine ⟨data, Or.inr ⟨r, rest, hok r List.mem_cons_self, ?_, hrest.symm⟩, ?_⟩
        · rintro rfl
          rw [← hrest] at hr
          simp at hr
        · rw [fitting, if_neg hr, frames_nil, List.nil_append]

end Framing
