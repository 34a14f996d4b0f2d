import Mathlib.Tactic.Common

/-!
# Flat JSON

Arrays of objects whose members are strings, as text.  A quote or a backslash in a string
is escaped with a backslash; nothing else is.

`parse_render` is the round trip: first a string, then a list with separators over any
reader of its items, then members, objects and the array.
-/

namespace FlatJson

/-- The inside of a string and its closing quote. -/
def putChars : List Char → List Char
  | [] => ['"']
  | c :: cs => if c = '"' ∨ c = '\\' then '\\' :: c :: putChars cs else c :: putChars cs

/-- Read up to the closing quote. -/
def getChars : List Char → Option (List Char × List Char)
  | [] => none
  | c :: rest =>
      if c = '"' then some ([], rest)
      else if c = '\\' then
        match rest with
        | [] => none
        | d :: rest => (getChars rest).map fun p => (d :: p.1, p.2)
      else (getChars rest).map fun p => (c :: p.1, p.2)

theorem getChars_putChars (cs rest : List Char) :
    getChars (putChars cs ++ rest) = some (cs, rest) := by
  induction cs with
  | nil =>
      rw [putChars, List.singleton_append, getChars.eq_def]
      rfl
  | cons c cs ih =>
      rw [putChars]
      by_cases hescape : c = '"' ∨ c = '\\'
      · rw [if_pos hescape, List.cons_append, List.cons_append, getChars.eq_def]
        simp [ih]
      · rw [if_neg hescape, List.cons_append, getChars.eq_def]
        rw [not_or] at hescape
        simp [hescape.1, hescape.2, ih]

section Separated

variable {α : Type} (put : α → List Char) (get : List Char → Option (α × List Char))
  (close : Char)

/-- The items after the first one, and the closing character. -/
def putRest : List α → List Char
  | [] => [close]
  | a :: as => ',' :: (put a ++ putRest as)

/-- Items with commas between them, up to the closing character. -/
def putItems : List α → List Char
  | [] => [close]
  | a :: as => put a ++ putRest put close as

/-- Read the items after the first one; every turn reads an item, so the length of the
text is fuel enough. -/
def getRest : Nat → List Char → Option (List α × List Char)
  | 0, _ => none
  | _ + 1, [] => none
  | fuel + 1, c :: text =>
      if c = close then some ([], text)
      else if c = ',' then do
        let (a, text) ← get text
        let (as, text) ← getRest fuel text
        return (a :: as, text)
      else none

/-- Items up to the closing character. -/
def getItems (text : List Char) : Option (List α × List Char) :=
  match text with
  | [] => none
  | c :: rest =>
      if c = close then some ([], rest)
      else do
        let (a, text) ← get (c :: rest)
        let (as, text) ← getRest get close (text.length + 1) text
        return (a :: as, text)

variable {put get close}

theorem getRest_putRest (h : ∀ a rest, get (put a ++ rest) = some (a, rest))
    (hclose : close ≠ ',') (as : List α) (rest : List Char) {fuel : Nat}
    (hfuel : as.length < fuel) :
    getRest get close fuel (putRest put close as ++ rest) = some (as, rest) := by
  induction as generalizing fuel with
  | nil =>
      obtain ⟨fuel, rfl⟩ := Nat.exists_eq_succ_of_ne_zero (by omega : fuel ≠ 0)
      simp [putRest, getRest]
  | cons a as ih =>
      obtain ⟨fuel, rfl⟩ := Nat.exists_eq_succ_of_ne_zero (by omega : fuel ≠ 0)
      have hrest := ih (Nat.lt_of_succ_lt_succ hfuel)
      simp [putRest, getRest, hclose.symm, h, hrest]

theorem length_lt_putRest (as : List α) : as.length < (putRest put close as).length := by
  induction as with
  | nil => simp [putRest]
  | cons a as ih =>
      simp only [putRest, List.length_cons, List.length_append]
      omega

/-- A separated list is read back when its items are and none starts like its end. -/
theorem getItems_putItems (h : ∀ a rest, get (put a ++ rest) = some (a, rest))
    (hstart : ∀ a, ∃ c cs, put a = c :: cs ∧ c ≠ close) (hclose : close ≠ ',') (as : List α)
    (rest : List Char) : getItems get close (putItems put close as ++ rest) = some (as, rest) := by
  cases as with
  | nil => simp [putItems, getItems]
  | cons a as =>
      obtain ⟨c, cs, hput, hne⟩ := hstart a
      have hitem := h a (putRest put close as ++ rest)
      have hlt : as.length < (putRest put close as).length := length_lt_putRest as
      have hrest : getRest get close ((putRest put close as).length + rest.length + 1)
          (putRest put close as ++ rest) = some (as, rest) :=
        getRest_putRest h hclose as rest (by omega)
      rw [hput] at hitem
      rw [putItems, List.append_assoc, hput]
      simp only [List.cons_append] at hitem ⊢
      simp [getItems, hne, hitem, hrest]

end Separated

/-- A member: its name and its text. -/
def putMember (m : String × String) : List Char :=
  '"' :: (putChars m.1.toList ++ ':' :: '"' :: putChars m.2.toList)

/-- A member of an object: a name and a text. -/
def getMember : List Char → Option ((String × String) × List Char)
  | '"' :: text => do
      let (name, text) ← getChars text
      match text with
      | ':' :: '"' :: text => do
          let (value, text) ← getChars text
          return ((String.ofList name, String.ofList value), text)
      | _ => none
  | _ => none

theorem getMember_putMember (m : String × String) (rest : List Char) :
    getMember (putMember m ++ rest) = some (m, rest) := by
  simp [putMember, getMember, getChars_putChars]

/-- An object whose members are texts. -/
def putObject (members : List (String × String)) : List Char :=
  '{' :: putItems putMember '}' members

/-- An object whose members are texts, read back. -/
def getObject : List Char → Option (List (String × String) × List Char)
  | '{' :: text => getItems getMember '}' text
  | _ => none

theorem getObject_putObject (members : List (String × String)) (rest : List Char) :
    getObject (putObject members ++ rest) = some (members, rest) := by
  simp only [putObject, List.cons_append, getObject]
  apply getItems_putItems getMember_putMember
  · intro m
    exact ⟨'"', _, rfl, by decide⟩
  · decide

/-- The text of an array of objects. -/
def render (objects : List (List (String × String))) : String :=
  String.ofList ('[' :: putItems putObject ']' objects)

/-- Nothing may follow the array. -/
def parse (text : String) : Option (List (List (String × String))) :=
  match text.toList with
  | '[' :: text =>
      match getItems getObject ']' text with
      | some (objects, []) => some objects
      | _ => none
  | _ => none

theorem parse_render (objects : List (List (String × String))) :
    parse (render objects) = some objects := by
  have hstart : ∀ members, ∃ c cs, putObject members = c :: cs ∧ c ≠ ']' := fun members =>
    ⟨'{', _, rfl, by decide⟩
  have hitems := getItems_putItems getObject_putObject hstart (by decide) objects []
  rw [List.append_nil] at hitems
  simp [parse, render, hitems]

end FlatJson
