import Mathlib.Data.String.Basic
import PolyBook.FixedPoint
import PolyBook.Library.Separated
import PolyBook.Library.TreeMap
import PolyBook.Wal.Frame

/-!
# Paths of objects

The object store knows an object by the text of its path, whose components are
separated by `/`.  A listing gives the objects below a directory, in the order of
their paths.
-/

namespace PolyBook

open Wal

/-- The objects of a store, by their paths. -/
abbrev Objects := Std.ExtTreeMap String Bytes

/-- `Path::filename`: the last component, which the path of the root has not. -/
def filename (path : String) : Option String :=
  if path.isEmpty then none else some (String.ofList (Separated.last '/' path.toList))

/-- The path has the directory as its first components, and at least one more. -/
def isBelow (dir path : String) : Bool := (dir.toList ++ ['/']).isPrefixOf path.toList

/-- `ObjectStore::list` of a directory. -/
def listBelow (objects : Objects) (dir : String) : List String := objects.keys.filter (isBelow dir)

/-- `str::strip_prefix`. -/
def stripPrefix (first text : List Char) : Option (List Char) :=
  if first.isPrefixOf text then some (text.drop first.length) else none

/-- `str::rsplit_once`. -/
def rsplitOnce (c : Char) (text : List Char) : Option (List Char × List Char) :=
  (splitOnce c text.reverse).map fun parts => (parts.2.reverse, parts.1.reverse)

/-! ## A path made of a directory and a name -/

theorem stripPrefix_append (first text : List Char) :
    stripPrefix first (first ++ text) = some text := by
  rw [stripPrefix, if_pos (List.isPrefixOf_iff_prefix.mpr (List.prefix_append first text)),
    List.drop_left]

theorem rsplitOnce_append {c : Char} {ys : List Char} (h : c ∉ ys) (xs : List Char) :
    rsplitOnce c (xs ++ c :: ys) = some (xs, ys) := by
  have hreverse : (xs ++ c :: ys).reverse = ys.reverse ++ c :: xs.reverse := by simp
  rw [rsplitOnce, hreverse, splitOnce_append (mt List.mem_reverse.mp h)]
  simp

theorem filename_append {dir name : String} (h : '/' ∉ name.toList) :
    filename (dir ++ "/" ++ name) = some name := by
  have htext : (dir ++ "/" ++ name).toList = dir.toList ++ '/' :: name.toList := by simp
  have hne : (dir ++ "/" ++ name).isEmpty = false := by simp
  rw [filename, hne, htext, Separated.last_append h, String.ofList_toList]
  rfl

theorem isBelow_iff (dir path : String) : isBelow dir path = true ↔
    ∃ rest, path.toList = dir.toList ++ '/' :: rest := by
  rw [isBelow, List.isPrefixOf_iff_prefix]
  constructor
  · rintro ⟨rest, hrest⟩
    exact ⟨rest, by rw [← hrest, List.append_assoc, List.singleton_append]⟩
  · rintro ⟨rest, hrest⟩
    exact ⟨rest, by rw [hrest, List.append_assoc, List.singleton_append]⟩

theorem mem_listBelow {objects : Objects} {dir path : String} :
    path ∈ listBelow objects dir ↔ (objects[path]?).isSome = true ∧ isBelow dir path = true := by
  rw [listBelow, List.mem_filter, TreeMapLookup.mem_keys_iff]

end PolyBook
