import Mathlib.Algebra.Group.Nat.Defs
import Mathlib.Tactic.Common

/-!
# Readers and writers of byte strings

A value is written as a list of bytes and read off the front of one.  A reader is a
program of `Get`: it takes what it needs from the input, may note what it has read,
and keeps its notes when it fails.

`Reads` says that a reader takes exactly the given bytes, whatever follows them, and
composes along a program.  `Keeps` is the invariant rule for the notes: what holds of
them along every run that succeeds.
-/

namespace ByteCodec

variable {ν ε α β : Type}

/-- What is left to read, and what has been noted so far. -/
structure Input (ν : Type) where
  bytes : List UInt8
  noted : List ν

/-- A reader of values from a byte string. -/
abbrev Get (ν ε α : Type) := EStateM ε (Input ν) α

/-- Add to the notes. -/
def note (x : ν) : Get ν ε Unit := modify fun s => { s with noted := s.noted ++ [x] }

/-- How a primitive value is written, and how it is read off the front of a byte string. -/
structure Prim (ε α : Type) where
  put : α → List UInt8
  get : List UInt8 → Except ε (α × List UInt8)

namespace Prim

/-- What is written is read back, whatever follows it. -/
def LawfulOn (p : Prim ε α) (valid : α → Prop) : Prop :=
  ∀ a, valid a → ∀ rest, p.get (p.put a ++ rest) = .ok (a, rest)

/-- Read a primitive value. -/
def read (p : Prim ε α) : Get ν ε α := fun s =>
  match p.get s.bytes with
  | .ok (a, rest) => .ok a { s with bytes := rest }
  | .error e => .error e s

end Prim

/-- An optional value: a tag, and the value where there is one. -/
def putOption (tag : Prim ε Bool) (put : α → List UInt8) : Option α → List UInt8
  | none => tag.put false
  | some a => tag.put true ++ put a

/-- An optional value, after its tag. -/
def getOption (tag : Prim ε Bool) (get : Get ν ε α) : Get ν ε (Option α) := do
  if ← tag.read then
    let a ← get
    pure (some a)
  else pure none

/-- The values of a list one after another. -/
def putAll (put : α → List UInt8) (as : List α) : List UInt8 := as.flatMap put

/-- Read a given number of values. -/
def getN (get : Get ν ε α) : Nat → Get ν ε (List α)
  | 0 => pure []
  | n + 1 => do
      let a ← get
      let as ← getN get n
      pure (a :: as)

/-- A list: its length and its values. -/
def putList (len : Prim ε UInt64) (put : α → List UInt8) (as : List α) : List UInt8 :=
  len.put (UInt64.ofNat as.length) ++ putAll put as

/-- A list, after its length. -/
def getList (len : Prim ε UInt64) (get : Get ν ε α) : Get ν ε (List α) := do
  let n ← len.read
  getN get n.toNat

/-- A constant of an enumeration: its place in the declaration. -/
def putVariant [BEq α] (index : Prim ε UInt32) (variants : List α) (a : α) : List UInt8 :=
  index.put (UInt32.ofNat (variants.idxOf a))

/-- A listed value, by its index; an index behind the last one is an error. -/
def getVariant (index : Prim ε UInt32) (unknown : Nat → Nat → ε) (variants : List α) :
    Get ν ε α := do
  let i ← index.read
  match variants[i.toNat]? with
  | some a => pure a
  | none => throw (unknown i.toNat variants.length)

/-- The reader takes exactly these bytes, gives the value and adds these notes. -/
def Reads (get : Get ν ε α) (bytes : List UInt8) (a : α) (notes : List ν) : Prop :=
  ∀ rest noted, get ⟨bytes ++ rest, noted⟩ = .ok a ⟨rest, noted ++ notes⟩

namespace Reads

/-- A value that is known takes no bytes. -/
theorem pure (a : α) : Reads (Pure.pure a : Get ν ε α) [] a [] := by
  intro rest noted
  rw [List.append_nil]
  rfl

/-- **Composition.**  What the second reader takes follows what the first one took. -/
theorem bind {get : Get ν ε α} {next : α → Get ν ε β} {bytes bytes' : List UInt8} {a : α} {b : β}
    {notes notes' : List ν} (h : Reads get bytes a notes) (h' : Reads (next a) bytes' b notes') :
    Reads (get >>= next) (bytes ++ bytes') b (notes ++ notes') := by
  intro rest noted
  have hfirst := h (bytes' ++ rest) noted
  have hsecond := h' rest (noted ++ notes)
  show EStateM.bind get next _ = _
  rw [EStateM.bind, List.append_assoc, hfirst]
  rw [List.append_assoc] at hsecond
  exact hsecond

/-- A lawful primitive is read back. -/
theorem read {p : Prim ε α} {valid : α → Prop} (h : p.LawfulOn valid) {a : α} (ha : valid a) :
    Reads (p.read : Get ν ε α) (p.put a) a [] := by
  intro rest noted
  rw [Prim.read, h a ha rest, List.append_nil]

/-- A note takes no bytes. -/
theorem note (x : ν) : Reads (ByteCodec.note x : Get ν ε Unit) [] () [x] := fun _ _ => rfl

/-- Reading nothing more. -/
theorem map {get : Get ν ε α} {bytes : List UInt8} {a : α} {notes : List ν}
    (h : Reads get bytes a notes) (f : α → β) :
    Reads (get >>= fun a => Pure.pure (f a)) bytes (f a) notes := by
  have hbind : Reads (get >>= fun a => Pure.pure (f a)) (bytes ++ []) (f a) (notes ++ []) :=
    h.bind (Reads.pure (f a))
  rwa [List.append_nil, List.append_nil] at hbind

/-- An optional value is read back. -/
theorem option {tag : Prim ε Bool} (htag : tag.LawfulOn fun _ => True) {put : α → List UInt8}
    {get : Get ν ε α} {notes : α → List ν} {a : Option α}
    (h : ∀ x ∈ a, Reads get (put x) x (notes x)) :
    Reads (getOption tag get) (putOption tag put a) a (a.toList.flatMap notes) := by
  cases a with
  | none =>
      rw [← List.append_nil (putOption tag put none)]
      apply (Reads.read htag trivial).bind
      exact Reads.pure none
  | some x =>
      rw [Option.toList_some, List.flatMap_singleton]
      apply (Reads.read htag trivial).bind
      exact (h x rfl).map some

/-- Values in a row are read back. -/
theorem getN {put : α → List UInt8} {get : Get ν ε α} {notes : α → List ν} {as : List α}
    (h : ∀ a ∈ as, Reads get (put a) a (notes a)) :
    Reads (ByteCodec.getN get as.length) (putAll put as) as (as.flatMap notes) := by
  induction as with
  | nil => exact Reads.pure []
  | cons a as ih =>
      have hrest := ih fun x hx => h x (List.mem_cons_of_mem _ hx)
      exact (h a List.mem_cons_self).bind (hrest.map (a :: ·))

/-- A list is read back. -/
theorem list {len : Prim ε UInt64} (hlen : len.LawfulOn fun _ => True) {put : α → List UInt8}
    {get : Get ν ε α} {notes : α → List ν} {as : List α} (hfits : as.length < 2 ^ 64)
    (h : ∀ a ∈ as, Reads get (put a) a (notes a)) :
    Reads (getList len get) (putList len put as) as (as.flatMap notes) := by
  have hcount : (UInt64.ofNat as.length).toNat = as.length := UInt64.toNat_ofNat_of_lt' hfits
  have hrest : Reads (ByteCodec.getN get (UInt64.ofNat as.length).toNat) (putAll put as) as
      (as.flatMap notes) := by
    rw [hcount]
    exact getN h
  exact (Reads.read hlen trivial).bind hrest

/-- A listed value is read back. -/
theorem variant [BEq α] [LawfulBEq α] {index : Prim ε UInt32}
    (hindex : index.LawfulOn fun _ => True) (unknown : Nat → Nat → ε) {variants : List α} {a : α}
    (hmem : a ∈ variants) (hfits : variants.length < 2 ^ 32) :
    Reads (getVariant index unknown variants : Get ν ε α) (putVariant index variants a) a [] := by
  have hlt : variants.idxOf a < variants.length := List.idxOf_lt_length_of_mem hmem
  have hplace : (UInt32.ofNat (variants.idxOf a)).toNat = variants.idxOf a :=
    UInt32.toNat_ofNat_of_lt' (by change _ < 2 ^ 32; omega)
  rw [← List.append_nil (putVariant index variants a)]
  apply (Reads.read hindex trivial).bind
  rw [hplace, List.getElem?_eq_getElem hlt, List.getElem_idxOf hlt]
  exact Reads.pure a

end Reads

/-- A run that succeeds keeps what holds of the notes. -/
def Keeps (inv : List ν → Prop) (get : Get ν ε α) : Prop :=
  ∀ s a s', get s = .ok a s' → inv s.noted → inv s'.noted

namespace Keeps

variable {inv : List ν → Prop}

/-- Returning notes nothing. -/
theorem pure (a : α) : Keeps inv (Pure.pure a : Get ν ε α) := by
  rintro s b s' ⟨⟩ hinv
  exact hinv

/-- A failure notes nothing that counts. -/
theorem throw (e : ε) : Keeps inv (MonadExcept.throw e : Get ν ε α) := by
  intro s b s' h
  cases h

/-- Two steps keep what each of them keeps. -/
theorem bind {get : Get ν ε α} {next : α → Get ν ε β} (h : Keeps inv get)
    (h' : ∀ a, Keeps inv (next a)) : Keeps inv (get >>= next) := by
  intro s b s' hrun hinv
  change EStateM.bind get next s = .ok b s' at hrun
  rw [EStateM.bind] at hrun
  split at hrun
  · rename_i a mid hget
    exact h' a mid b s' hrun (h s a mid hget hinv)
  · cases hrun

/-- Reading a primitive notes nothing. -/
theorem read (p : Prim ε α) : Keeps inv (p.read : Get ν ε α) := by
  intro s a s' hrun hinv
  rw [Prim.read] at hrun
  split at hrun
  · cases hrun
    exact hinv
  · cases hrun

/-- An optional value notes what its value does. -/
theorem option (tag : Prim ε Bool) {get : Get ν ε α} (h : Keeps inv get) :
    Keeps inv (getOption tag get) := by
  unfold getOption
  refine (read tag).bind ?_
  intro present
  cases present with
  | false => exact pure none
  | true => exact h.bind fun a => pure (some a)

/-- Values in a row note what each of them does. -/
theorem getN {get : Get ν ε α} (h : Keeps inv get) (n : Nat) :
    Keeps inv (ByteCodec.getN get n) := by
  induction n with
  | zero => exact pure []
  | succ n ih => exact h.bind fun a => ih.bind fun as => pure (a :: as)

/-- A list notes what its values do. -/
theorem list (len : Prim ε UInt64) {get : Get ν ε α} (h : Keeps inv get) :
    Keeps inv (getList len get) := (read len).bind fun n => h.getN n.toNat

/-- A listed value notes nothing. -/
theorem variant (index : Prim ε UInt32) (unknown : Nat → Nat → ε) (variants : List α) :
    Keeps inv (getVariant index unknown variants : Get ν ε α) := by
  unfold getVariant
  refine (read index).bind ?_
  intro i
  cases variants[i.toNat]? with
  | none => exact throw _
  | some a => exact pure a

end Keeps

/-! Fixed-width little-endian integers. -/

/-- The low `k` bytes of a number, the lowest first. -/
def leBytes : (k : Nat) → Nat → List UInt8
  | 0, _ => []
  | k + 1, n => UInt8.ofNat n :: leBytes k (n / 256)

/-- The number that little-endian bytes stand for. -/
def ofLeBytes : List UInt8 → Nat
  | [] => 0
  | b :: bs => b.toNat + 256 * ofLeBytes bs

@[simp] theorem length_leBytes (k n : Nat) : (leBytes k n).length = k := by
  induction k generalizing n with
  | zero => rfl
  | succ k ih => simp [leBytes, ih]

/-- The bytes of a number that fits them. -/
theorem ofLeBytes_leBytes {k n : Nat} (h : n < 256 ^ k) : ofLeBytes (leBytes k n) = n := by
  induction k generalizing n with
  | zero =>
      rw [Nat.pow_zero] at h
      simp only [leBytes, ofLeBytes]
      omega
  | succ k ih =>
      have hdiv : n / 256 < 256 ^ k := by
        rw [Nat.div_lt_iff_lt_mul (by decide), ← Nat.pow_succ]
        exact h
      rw [leBytes, ofLeBytes, ih hdiv, UInt8.toNat_ofNat']
      omega

/-- The next `k` bytes and what follows them. -/
def takeBytes (eof : ε) (k : Nat) (data : List UInt8) : Except ε (List UInt8 × List UInt8) :=
  if k ≤ data.length then .ok (data.take k, data.drop k) else .error eof

/-- Bytes are taken off the front. -/
theorem takeBytes_append (eof : ε) {k : Nat} {bytes : List UInt8} (h : bytes.length = k)
    (rest : List UInt8) : takeBytes eof k (bytes ++ rest) = .ok (bytes, rest) := by
  subst h
  rw [takeBytes, if_pos (by rw [List.length_append]; omega), List.take_left, List.drop_left]

end ByteCodec
