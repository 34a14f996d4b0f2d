import Mathlib.Tactic.Common

/-!
# Record batches

A record batch is a table kept by columns: every column has the type its field says, all
have one length, and only a nullable field has nulls.  `tryNew` checks this, so a batch
that does not fit its schema cannot be built.

Rows are read one at a time: `collectRows` runs a row reader over all row numbers and
keeps what it gives.
-/

namespace Columnar

/-- The types of columns. -/
inductive DataType where
  | uInt64
  | uInt32
  | uInt8
  | utf8
  | boolean
  deriving DecidableEq

/-- The values of a column in row order; `none` is null. -/
inductive Column where
  | uInt64 (values : List (Option UInt64))
  | uInt32 (values : List (Option UInt32))
  | uInt8 (values : List (Option UInt8))
  | utf8 (values : List (Option String))
  | boolean (values : List (Option Bool))

namespace Column

/-- The type of a column. -/
def dataType : Column → DataType
  | uInt64 _ => .uInt64
  | uInt32 _ => .uInt32
  | uInt8 _ => .uInt8
  | utf8 _ => .utf8
  | boolean _ => .boolean

/-- The number of cells. -/
def length : Column → Nat
  | uInt64 values => values.length
  | uInt32 values => values.length
  | uInt8 values => values.length
  | utf8 values => values.length
  | boolean values => values.length

/-- Some cell is empty. -/
def hasNull : Column → Bool
  | uInt64 values => values.any Option.isNone
  | uInt32 values => values.any Option.isNone
  | uInt8 values => values.any Option.isNone
  | utf8 values => values.any Option.isNone
  | boolean values => values.any Option.isNone

/-- The column as one of a given type. -/
def asUInt64 : Column → Option (List (Option UInt64))
  | uInt64 values => some values
  | _ => none

/-- The cells of a `u32` column. -/
def asUInt32 : Column → Option (List (Option UInt32))
  | uInt32 values => some values
  | _ => none

/-- The cells of a `u8` column. -/
def asUInt8 : Column → Option (List (Option UInt8))
  | uInt8 values => some values
  | _ => none

/-- The cells of a text column. -/
def asUtf8 : Column → Option (List (Option String))
  | utf8 values => some values
  | _ => none

/-- The cells of a boolean column. -/
def asBoolean : Column → Option (List (Option Bool))
  | boolean values => some values
  | _ => none

end Column

/-- A field of a schema. -/
structure SchemaField where
  name : String
  dataType : DataType
  nullable : Bool
  deriving DecidableEq

/-- The column is one that the field allows, with so many rows. -/
def SchemaField.Allows (field : SchemaField) (rows : Nat) (column : Column) : Prop :=
  column.dataType = field.dataType ∧ column.length = rows ∧
    (field.nullable = false → column.hasNull = false)

instance (field : SchemaField) (rows : Nat) (column : Column) :
    Decidable (field.Allows rows column) := by
  unfold SchemaField.Allows
  infer_instance

/-- Columns that fit their fields. -/
structure RecordBatch where
  numRows : Nat
  columns : List (SchemaField × Column)
  allowed : ∀ c ∈ columns, c.1.Allows numRows c.2

namespace RecordBatch

/-- Put columns under a schema, if they fit it. -/
def tryNew (fields : List SchemaField) : List Column → Option RecordBatch
  | [] => none
  | first :: rest =>
      if h : fields.length = (first :: rest).length ∧
          ∀ c ∈ fields.zip (first :: rest), c.1.Allows first.length c.2 then
        some ⟨first.length, fields.zip (first :: rest), h.2⟩
      else none

theorem tryNew_eq {fields : List SchemaField} {first : Column} {rest : List Column}
    (hlength : fields.length = rest.length + 1)
    (hallowed : ∀ c ∈ fields.zip (first :: rest), c.1.Allows first.length c.2) :
    tryNew fields (first :: rest) =
      some ⟨first.length, fields.zip (first :: rest), hallowed⟩ := dif_pos ⟨hlength, hallowed⟩

/-- The first column of a name. -/
def columnByName (batch : RecordBatch) (name : String) : Option Column :=
  (batch.columns.find? fun c => c.1.name == name).map Prod.snd

/-- A column is looked up under the names of the schema, first field first. -/
theorem columnByName_zip_cons {rows : Nat} {field : SchemaField} {fields : List SchemaField}
    {first : Column} {rest : List Column}
    (hallowed : ∀ c ∈ (field :: fields).zip (first :: rest), c.1.Allows rows c.2)
    (name : String) :
    columnByName ⟨rows, (field :: fields).zip (first :: rest), hallowed⟩ name =
      if field.name = name then some first
      else columnByName ⟨rows, fields.zip rest,
        fun c hc => hallowed c (List.mem_cons_of_mem _ hc)⟩ name := by
  by_cases hname : field.name = name
  · rw [if_pos hname]
    exact congrArg _ (List.find?_cons_of_pos (by simpa using hname))
  · rw [if_neg hname]
    exact congrArg _ (List.find?_cons_of_neg (by simpa using hname))

end RecordBatch

section Cells

variable {α : Type}

/-- A null has the type's default value. -/
def value [Inhabited α] (values : List (Option α)) (i : Nat) : α := values[i]?.join.getD default

/-- The cell is empty. -/
def isNull (values : List (Option α)) (i : Nat) : Bool := values[i]?.join.isNone

/-- A value that may be null. -/
def nullable [Inhabited α] (values : List (Option α)) (i : Nat) : Option α :=
  if isNull values i then none else some (value values i)

variable [Inhabited α] {ρ : Type} {rows : List ρ} {i : Nat} {row : ρ}

theorem value_map (h : rows[i]? = some row) (f : ρ → α) :
    value (rows.map fun r => some (f r)) i = f row := by
  simp [value, h]

theorem nullable_map (h : rows[i]? = some row) (f : ρ → Option α) :
    nullable (rows.map f) i = f row := by
  cases hrow : f row <;> simp [nullable, isNull, value, h, hrow]

end Cells

section Rows

variable {ε α ρ : Type}

/-- Read rows in order and keep what they give; the first error ends the read. -/
def collectRows (numRows : Nat) (row : Nat → Except ε (Option α)) : Except ε (List α) :=
  (List.range numRows).foldlM (fun rows i => do
    match ← row i with
    | some r => pure (rows ++ [r])
    | none => pure rows) []

/-- **Rows that can all be read**: those that pass the test are kept, in order. -/
theorem collectRows_eq {rows : List ρ} {row : Nat → Except ε (Option α)} (p : ρ → Bool)
    (f : ρ → α) (hskip : ∀ i r, rows[i]? = some r → p r = false → row i = .ok none)
    (hkeep : ∀ i r, rows[i]? = some r → p r = true → row i = .ok (some (f r))) :
    collectRows rows.length row = .ok ((rows.filter p).map f) := by
  suffices hfirst : ∀ k, k ≤ rows.length →
      collectRows k row = .ok (((rows.take k).filter p).map f) by
    have hall := hfirst rows.length (Nat.le_refl _)
    rwa [List.take_length] at hall
  intro k hk
  induction k with
  | zero => rfl
  | succ k ih =>
      have hlt : k < rows.length := hk
      have hcell : rows[k]? = some rows[k] := List.getElem?_eq_getElem hlt
      have hrun := ih (Nat.le_of_succ_le hk)
      rw [collectRows] at hrun ⊢
      rw [List.range_succ, List.foldlM_append, hrun, List.take_succ_eq_append_getElem hlt,
        List.filter_append, List.map_append]
      simp only [bind, Except.bind, List.foldlM_cons, List.foldlM_nil]
      by_cases hpass : p rows[k] = true
      · rw [hkeep k _ hcell hpass]
        simp [hpass, pure, Except.pure]
      · rw [Bool.not_eq_true] at hpass
        rw [hskip k _ hcell hpass]
        simp [hpass, pure, Except.pure]

end Rows

end Columnar
