import Mathlib.Data.List.Basic

/-!
# Lookups in extensional tree maps, by key equality

`Std.ExtTreeMap` states its lookup lemmas with the comparison; under a lawful
comparison the case split is on equality of keys.
-/

namespace TreeMapLookup

open Std

variable {α β : Type*} {cmp : α → α → Ordering} [TransCmp cmp] [LawfulEqCmp cmp]

theorem getElem?_insert [DecidableEq α] (m : ExtTreeMap α β cmp) (k a : α) (v : β) :
    (m.insert k v)[a]? = if a = k then some v else m[a]? := by
  rw [ExtTreeMap.getElem?_insert]
  by_cases h : a = k
  · simp [h]
  · rw [if_neg h, if_neg (fun heq => h (LawfulEqCmp.compare_eq_iff_eq.mp heq).symm)]

theorem getElem?_erase [DecidableEq α] (m : ExtTreeMap α β cmp) (k a : α) :
    (m.erase k)[a]? = if a = k then none else m[a]? := by
  rw [ExtTreeMap.getElem?_erase]
  by_cases h : a = k
  · simp [h]
  · rw [if_neg h, if_neg (fun heq => h (LawfulEqCmp.compare_eq_iff_eq.mp heq).symm)]

/-- The entries whose key passes a test. -/
theorem getElem?_filter_key (m : ExtTreeMap α β cmp) (p : α → Bool) (a : α) :
    (m.filter fun k _ => p k)[a]? = if p a then m[a]? else none := by
  rw [ExtTreeMap.getElem?_filter']
  cases m[a]? with
  | none => simp
  | some v => cases p a <;> simp

theorem mem_keys_iff (m : ExtTreeMap α β cmp) (a : α) :
    a ∈ m.keys ↔ m[a]?.isSome := by
  rw [ExtTreeMap.mem_keys, ExtTreeMap.mem_iff_isSome_getElem?]

/-- The keys whose value passes a test. -/
theorem mem_filter_toList_iff (m : ExtTreeMap α β cmp) (f : α × β → Bool) (a : α) :
    a ∈ (m.toList.filter f).map Prod.fst ↔ m[a]?.any fun v => f (a, v) := by
  simp only [List.mem_map, List.mem_filter, Prod.exists, exists_and_right, exists_eq_right,
    ExtTreeMap.mem_toList_iff_getElem?_eq_some]
  cases m[a]? <;> simp

/-- The entries around a key that is bound. -/
theorem toList_split {m : ExtTreeMap α β cmp} {k : α} {v : β} (h : m[k]? = some v) :
    ∃ earlier later, m.toList = earlier ++ (k, v) :: later ∧
      (∀ e ∈ earlier, cmp e.1 k = .lt) ∧ ∀ e ∈ later, cmp k e.1 = .lt := by
  obtain ⟨earlier, later, hsplit⟩ :=
    List.append_of_mem (ExtTreeMap.mem_toList_iff_getElem?_eq_some.mpr h)
  have hsorted := ExtTreeMap.ordered_keys_toList (t := m)
  rw [hsplit, List.pairwise_append, List.pairwise_cons] at hsorted
  exact ⟨earlier, later, hsplit, fun e he => hsorted.2.2 e he _ List.mem_cons_self,
    hsorted.2.1.1⟩

/-- **The last write of a key stays.** -/
theorem getElem?_foldl_insert [DecidableEq α] (entries : List (α × β)) (m : ExtTreeMap α β cmp)
    (a : α) : (entries.foldl (fun m entry => m.insert entry.1 entry.2) m)[a]? =
      (((entries.filter fun entry => entry.1 = a).getLast?).map Prod.snd).or m[a]? := by
  induction entries generalizing m with
  | nil => simp
  | cons entry entries ih =>
      obtain ⟨k, v⟩ := entry
      rw [List.foldl_cons, ih, getElem?_insert, List.filter_cons]
      by_cases h : k = a
      · rw [if_pos h.symm, if_pos (by simpa using h), List.getLast?_cons]
        cases (entries.filter fun entry => entry.1 = a).getLast? <;> rfl
      · rw [if_neg (Ne.symm h), if_neg (by simpa using h)]

end TreeMapLookup
