import PolyBook.ObjectPaths
import PolyBook.RecoveryManifest

/-!
# Recovery metadata as it is stored

A manifest is an object like any other: it names the objects of a partition by the
texts of their paths, and whatever its bytes say is checked before a text of it is
followed.  `InPartition.of_parse` says what a text that passes the check can lead to.
-/

namespace PolyBook.Metadata

open Wal Publication

/-! ## Paths -/

/-- Strip one leading and one trailing separator. -/
def trimSeparators (text : List Char) : List Char :=
  let text := if text.head? = some '/' then text.tail else text
  if text.getLast? = some '/' then text.dropLast else text

/-- What a component of a path cannot be. -/
def Proper (segment : List Char) : Prop :=
  segment ≠ [] ∧ segment ≠ ['.'] ∧ segment ≠ ['.', '.']

instance (segment : List Char) : Decidable (Proper segment) := inferInstanceAs (Decidable (_ ∧ _))

/-- `object_store::path::Path::parse`: the text of the path, or the error's text.  It
accepts proper components only; the empty text and a separator alone are the root. -/
class PathParser where
  parse : String → Except String String
  parse_ok : ∀ text path, parse text = .ok path → path.toList = trimSeparators text.toList ∧
    (text = "" ∨ text = "/" ∨ ∀ segment ∈ path.toList.splitOn '/', Proper segment)

section Trim

variable {text : List Char} {c : Char}

/-- Nothing is stripped behind a last character that is no separator. -/
theorem trimSeparators_eq (h : text.getLast? = some c) (hc : c ≠ '/') :
    trimSeparators text = if text.head? = some '/' then text.tail else text := by
  have hne : ∀ text : List Char, text.getLast? = some c → text.getLast? ≠ some '/' := by
    intro text htext
    rw [htext]
    exact fun heq => hc (Option.some.inj heq)
  unfold trimSeparators
  by_cases hhead : text.head? = some '/'
  · obtain ⟨rest, rfl⟩ := List.head?_eq_some_iff.mp hhead
    cases rest with
    | nil => exact absurd (Option.some.inj h).symm hc
    | cons d rest =>
        rw [if_pos hhead]
        exact if_neg (hne _ h)
  · rw [if_neg hhead]
    exact if_neg (hne _ h)

/-- The last character stays. -/
theorem getLast?_trimSeparators (h : text.getLast? = some c) (hc : c ≠ '/') :
    (trimSeparators text).getLast? = some c := by
  rw [trimSeparators_eq h hc]
  by_cases hhead : text.head? = some '/'
  · obtain ⟨rest, rfl⟩ := List.head?_eq_some_iff.mp hhead
    cases rest with
    | nil => exact absurd (Option.some.inj h).symm hc
    | cons d rest =>
        rw [if_pos hhead]
        exact h
  · rw [if_neg hhead]
    exact h

/-- The last component stays. -/
theorem last_trimSeparators (h : text.getLast? = some c) (hc : c ≠ '/') :
    Separated.last '/' (trimSeparators text) = Separated.last '/' text := by
  rw [trimSeparators_eq h hc]
  by_cases hhead : text.head? = some '/'
  · obtain ⟨rest, rfl⟩ := List.head?_eq_some_iff.mp hhead
    rw [if_pos hhead, Separated.last_cons_self]
    rfl
  · rw [if_neg hhead]

/-- At most one separator is stripped at each end. -/
theorem length_trimSeparators (text : List Char) :
    (trimSeparators text).length ≤ text.length ∧
      text.length ≤ (trimSeparators text).length + 2 := by
  have htail : text.tail.length = text.length - 1 := List.length_tail
  have hlast : text.dropLast.length = text.length - 1 := List.length_dropLast
  have hboth : text.tail.dropLast.length = text.tail.length - 1 := List.length_dropLast
  unfold trimSeparators
  dsimp only
  split_ifs <;> omega

end Trim

/-- A parser that accepts every text of proper components. -/
@[reducible] def properPaths : PathParser where
  parse text :=
    let path := String.ofList (trimSeparators text.toList)
    if text = "" ∨ text = "/" ∨ ∀ segment ∈ path.toList.splitOn '/', Proper segment then .ok path
    else .error "a segment is empty, `.` or `..`"
  parse_ok text path h := by
    dsimp only at h
    split at h
    · rename_i haccepted
      obtain rfl := Except.ok.inj h
      rw [String.toList_ofList] at haccepted ⊢
      exact ⟨rfl, haccepted⟩
    · cases h

example : properPaths.parse "/data/a%2Fb/" = .ok "data/a%2Fb" := by decide +kernel

/-! ## The manifest -/

/-- `serde_json` on a manifest; errors by their text. -/
class ManifestFormat where
  encode : ParquetRecoveryManifest String → Except String Bytes
  decode : Bytes → Except String (ParquetRecoveryManifest String)

/-- `under_prefix`. -/
def underPrefix (object dir : String) : Bool :=
  (stripPrefix dir.toList object.toList).any fun suffix =>
    suffix.head? == some '/' && ".parquet".toList.isSuffixOf suffix

/-- `matches_asset`: the last component is a name of the asset. -/
def matchesAsset (object asset : String) : Bool :=
  storageObjectFileMatchesAsset (String.ofList (Separated.last '/' object.toList)) asset

/-- The path ends in a name that the asset's key matches. -/
def NamedFor (asset path : String) : Prop :=
  ∃ name, filename path = some name ∧ storageObjectFileMatchesAsset name asset = true

theorem namedFor_of_matchesAsset {asset object : String} (h : matchesAsset object asset = true) :
    NamedFor asset object := by
  have hnonempty : object.isEmpty = false := by
    rw [Bool.eq_false_iff, ne_eq, String.isEmpty_iff]
    rintro rfl
    cases h
  exact ⟨_, by rw [filename, hnonempty]; rfl, h⟩

/-- The part of the scope check about the objects, active and superseded ones alike. -/
def objectsAreScoped (normalPrefix recoveryPrefix asset : String)
    (m : ParquetRecoveryManifest String) : Bool :=
  (m.activeObjects ++ m.supersededObjects).all fun object =>
    (underPrefix object normalPrefix || underPrefix object recoveryPrefix) &&
      matchesAsset object asset

/-- The stem of the manifest's own name is the key, or its legacy form. -/
def stemMatches (path asset : String) : Bool :=
  ((filename path).bind fun name => stripSuffix ".json".toList name.toList).any fun stem =>
    storageObjectComponentMatchesKey stem asset.toList

/-- `validate_recovery_manifest_scope`, of the writer. -/
def fitsScope (p : Partition) (path normalPrefix recoveryPrefix : String)
    (m : ParquetRecoveryManifest String) : Bool :=
  m.dataset = p.dataset && m.assetKey = p.asset && m.hourKey = p.hourKey &&
    stemMatches path p.asset && objectsAreScoped normalPrefix recoveryPrefix p.asset m

theorem scoped_of_mem {normalPrefix recoveryPrefix asset object : String}
    {m : ParquetRecoveryManifest String}
    (h : objectsAreScoped normalPrefix recoveryPrefix asset m = true)
    (hmem : object ∈ m.activeObjects ∨ object ∈ m.supersededObjects) :
    (underPrefix object normalPrefix = true ∨ underPrefix object recoveryPrefix = true) ∧
      matchesAsset object asset = true := by
  have hobject := List.all_eq_true.mp h object (List.mem_append.mpr hmem)
  rwa [Bool.and_eq_true, Bool.or_eq_true] at hobject

theorem below_of_underPrefix {object dir : String} (h : underPrefix object dir = true) :
    isBelow dir object = true ∧ object.toList.getLast? = some 't' := by
  unfold underPrefix stripPrefix at h
  split at h
  · rename_i hprefix
    obtain ⟨suffix, hsuffix⟩ := List.isPrefixOf_iff_prefix.mp hprefix
    rw [← hsuffix, List.drop_left, Option.any_some, Bool.and_eq_true, beq_iff_eq,
      List.head?_eq_some_iff, List.isSuffixOf_iff_suffix] at h
    obtain ⟨⟨rest, rfl⟩, ⟨before, hbefore⟩⟩ := h
    refine ⟨(isBelow_iff dir object).mpr ⟨rest, hsuffix.symm⟩, ?_⟩
    rw [← hsuffix, ← hbefore]
    simp
  · cases h

/-- The suffix of a directory is longer than a separator. -/
theorem two_le_length_childPath (p : Partition) {dataset : String} (hdataset : dataset ≠ "")
    (before hourKey : String) :
    2 ≤ (p.childPath (before ++ dataset ++ "/" ++ hourKey)).length := by
  have hlength : 2 ≤ (before ++ dataset ++ "/" ++ hourKey).length := by
    have hpos : 0 < dataset.length := by
      rw [← String.length_toList]
      exact List.length_pos_of_ne_nil (by simpa using hdataset)
    simp only [String.length_append]
    have hone : "/".length = 1 := by decide
    omega
  unfold Partition.childPath
  split
  · exact hlength
  · rw [String.length_append]
    omega

/-! ## The partition -/

section Partition

variable [PathParser] {p : Partition}

/-- The directories and the manifest of a partition whose base path makes paths of
them. -/
structure Place (p : Partition) where
  normalDir : String
  stagingDir : String
  manifestPath : String
  normalDir_eq : PathParser.parse (p.childPath (p.dataset ++ "/" ++ p.hourKey)) = .ok normalDir
  stagingDir_eq : PathParser.parse
    (p.childPath ("_recovery_objects/" ++ p.dataset ++ "/" ++ p.hourKey)) = .ok stagingDir
  manifestPath_eq : PathParser.parse p.manifestPath = .ok manifestPath

/-- An object of the partition: below one of its directories, through proper components,
and under a name of the asset. -/
structure InPartition (place : Place p) (path : String) : Prop where
  below : isBelow place.normalDir path = true ∨ isBelow place.stagingDir path = true
  proper : ∀ segment ∈ path.toList.splitOn '/', Proper segment
  named : NamedFor p.asset path

/-- A directory's text begins with no separator. -/
theorem head?_of_parse {text dir : String} (hparse : PathParser.parse text = .ok dir)
    (hlength : 2 ≤ text.length) : ∃ c rest, dir.toList = c :: rest ∧ c ≠ '/' := by
  obtain ⟨-, hroot⟩ := PathParser.parse_ok text dir hparse
  have hproper : ∀ segment ∈ dir.toList.splitOn '/', Proper segment := by
    rcases hroot with rfl | rfl | hproper
    · cases hlength
    · exact absurd hlength (by decide)
    · exact hproper
  cases hdir : dir.toList with
  | nil =>
      rw [hdir] at hproper
      exact absurd rfl (hproper [] (by simp)).1
  | cons c rest =>
      refine ⟨c, rest, rfl, ?_⟩
      rintro rfl
      rw [hdir, ← List.nil_append ('/' :: rest), List.splitOn_append_cons_self] at hproper
      exact absurd rfl (hproper [] (by simp)).1

/-- **A text that passes the check leads into the partition**, and nowhere else: parsing
it gives the path of that text. -/
theorem InPartition.of_parse (place : Place p) (hdataset : p.dataset ≠ "") {object path : String}
    (hunder : underPrefix object place.normalDir = true ∨
      underPrefix object place.stagingDir = true)
    (hmatches : matchesAsset object p.asset = true)
    (hparse : PathParser.parse object = .ok path) : path = object ∧ InPartition place path := by
  have hbelow : ∃ dir c rest, dir.toList = c :: rest ∧ c ≠ '/' ∧ isBelow dir object = true ∧
      object.toList.getLast? = some 't' := by
    rcases hunder with hunder | hunder
    · have hlength := two_le_length_childPath p hdataset "" p.hourKey
      rw [String.empty_append] at hlength
      obtain ⟨c, rest, hdir, hne⟩ := head?_of_parse place.normalDir_eq hlength
      exact ⟨_, c, rest, hdir, hne, below_of_underPrefix hunder⟩
    · obtain ⟨c, rest, hdir, hne⟩ := head?_of_parse place.stagingDir_eq
        (two_le_length_childPath p hdataset "_recovery_objects/" p.hourKey)
      exact ⟨_, c, rest, hdir, hne, below_of_underPrefix hunder⟩
  obtain ⟨dir, c, rest, hdir, hne, hbelow, hlast⟩ := hbelow
  obtain ⟨below, htext⟩ := (isBelow_iff dir object).mp hbelow
  rw [hdir, List.cons_append] at htext
  obtain ⟨htrim, hroot⟩ := PathParser.parse_ok object path hparse
  have hsame : trimSeparators object.toList = object.toList := by
    have hhead : object.toList.head? ≠ some '/' := by
      rw [htext, List.head?_cons]
      exact fun h => hne (Option.some.inj h)
    rw [trimSeparators_eq hlast (by decide), if_neg hhead]
  have hpath : path = object := String.toList_inj.mp (htrim.trans hsame)
  have hproper : ∀ segment ∈ path.toList.splitOn '/', Proper segment := by
    rcases hroot with rfl | rfl | hproper
    · cases htext
    · exact absurd (List.cons.inj htext).1.symm hne
    · exact hproper
  subst hpath
  refine ⟨rfl, ⟨?_, hproper, namedFor_of_matchesAsset hmatches⟩⟩
  exact hunder.imp (fun h => (below_of_underPrefix h).1) fun h => (below_of_underPrefix h).1

/-! ## Paths and their texts -/

/-- The text of a path, which the stored manifest has for it. -/
def Place.objectText (place : Place p) (path : ObjectPath) : String :=
  (match path.tree with | .recovery => place.stagingDir | .normal => place.normalDir) ++ "/" ++
    path.fileName

/-- The manifest as it is stored. -/
def Place.texts (place : Place p) (m : ParquetRecoveryManifest ObjectPath) :
    ParquetRecoveryManifest String where
  version := m.version
  dataset := m.dataset
  assetKey := m.assetKey
  hourKey := m.hourKey
  coveredStartUs := m.coveredStartUs
  coveredEndUs := m.coveredEndUs
  activeObjects := m.activeObjects.map place.objectText
  supersededObjects := m.supersededObjects.map place.objectText

/-- The names of the objects are single components. -/
def PlainNames (m : ParquetRecoveryManifest ObjectPath) : Prop :=
  ∀ path, path ∈ m.activeObjects ∨ path ∈ m.supersededObjects → '/' ∉ path.fileName.toList

/-- The staging directory is another one than that of the dataset. -/
theorem Place.normalDir_ne (place : Place p) : place.normalDir ≠ place.stagingDir := by
  intro heq
  have hnormal := (PathParser.parse_ok _ _ place.normalDir_eq).1
  have hstaging := (PathParser.parse_ok _ _ place.stagingDir_eq).1
  rw [heq] at hnormal
  have hlength := congrArg List.length (hnormal.symm.trans hstaging)
  have hfirst := length_trimSeparators (p.childPath (p.dataset ++ "/" ++ p.hourKey)).toList
  have hsecond := length_trimSeparators
    (p.childPath ("_recovery_objects/" ++ p.dataset ++ "/" ++ p.hourKey)).toList
  have hlonger : (p.childPath (p.dataset ++ "/" ++ p.hourKey)).toList.length + 18 =
      (p.childPath ("_recovery_objects/" ++ p.dataset ++ "/" ++ p.hourKey)).toList.length := by
    unfold Partition.childPath
    split <;> simp
    omega
  omega

theorem Place.objectText_injOn (place : Place p) :
    Set.InjOn place.objectText {path | '/' ∉ path.fileName.toList} := by
  rintro ⟨tree, name⟩ hname ⟨tree', name'⟩ hname' h
  have htext : ∀ dir name : String, (dir ++ "/" ++ name).toList =
      dir.toList ++ '/' :: name.toList := by simp
  have hcut := congrArg String.toList h
  simp only [Place.objectText, htext] at hcut
  obtain ⟨hdir, hsame⟩ := Separated.append_inj_right hname hname' hcut
  obtain rfl := String.toList_inj.mp hsame
  cases tree <;> cases tree'
  · rfl
  · exact absurd (String.toList_inj.mp hdir).symm place.normalDir_ne
  · exact absurd (String.toList_inj.mp hdir) place.normalDir_ne
  · rfl

section Texts

variable (place : Place p) {m : ParquetRecoveryManifest ObjectPath} {path : ObjectPath}

/-- **The check of a stored manifest** is that of the manifest. -/
theorem Place.validate_texts (hplain : PlainNames m) :
    (place.texts m).validate = .ok () ↔ m.validate = .ok () := by
  have hactive : (place.texts m).activeObjects ≠ [] ↔ m.activeObjects ≠ [] := by
    simp [Place.texts]
  have hhidden : (∀ active ∈ (place.texts m).activeObjects,
      active ∉ (place.texts m).supersededObjects) ↔
        ∀ active ∈ m.activeObjects, active ∉ m.supersededObjects := by
    constructor
    · intro h active hmem hsuperseded
      exact h _ (List.mem_map_of_mem hmem) (List.mem_map_of_mem hsuperseded)
    · intro h text htext hsuperseded
      obtain ⟨active, hmem, rfl⟩ := List.mem_map.mp htext
      obtain ⟨other, hother, heq⟩ := List.mem_map.mp hsuperseded
      have hsame := place.objectText_injOn (hplain other (Or.inr hother))
        (hplain active (Or.inl hmem)) heq
      exact h active hmem (hsame ▸ hother)
  rw [validate_eq_ok, validate_eq_ok, hactive, hhidden]
  rfl

/-- The text is a directory of the partition and the name, a slash between them. -/
theorem Place.toList_objectText (path : ObjectPath) :
    ∃ dir, (dir = place.normalDir ∨ dir = place.stagingDir) ∧
      (place.objectText path).toList = dir.toList ++ '/' :: path.fileName.toList := by
  obtain ⟨tree, name⟩ := path
  cases tree
  · exact ⟨_, Or.inr rfl, by simp [Place.objectText]⟩
  · exact ⟨_, Or.inl rfl, by simp [Place.objectText]⟩

/-- The text is below a directory of the partition, and its last component is the name. -/
theorem Place.scoped_objectText (hname : '/' ∉ path.fileName.toList) :
    ((underPrefix (place.objectText path) place.normalDir ||
        underPrefix (place.objectText path) place.stagingDir) &&
      matchesAsset (place.objectText path) p.asset) =
        storageObjectFileMatchesAsset path.fileName p.asset := by
  obtain ⟨dir, hdir, htext⟩ := place.toList_objectText path
  have hmatches : matchesAsset (place.objectText path) p.asset =
      storageObjectFileMatchesAsset path.fileName p.asset := by
    rw [matchesAsset, htext, Separated.last_append hname, String.ofList_toList]
  rw [hmatches]
  cases hnamed : storageObjectFileMatchesAsset path.fileName p.asset with
  | false => rw [Bool.and_false]
  | true =>
      have hunder : underPrefix (place.objectText path) dir = true := by
        rw [underPrefix, htext, stripPrefix_append, Option.any_some, List.head?_cons,
          beq_self_eq_true, Bool.true_and, List.isSuffixOf_iff_suffix]
        exact (parquet_suffix_of_matches hnamed).trans (List.suffix_cons _ _)
      rw [Bool.and_true, Bool.or_eq_true]
      rcases hdir with rfl | rfl
      · exact Or.inl hunder
      · exact Or.inr hunder

/-- A partition's own manifest bears the name of its asset. -/
theorem Place.stemMatches_manifestPath (hasset : '/' ∉ p.asset.toList) :
    stemMatches place.manifestPath p.asset = true := by
  have hslash : '/' ∉ (p.asset ++ ".json").toList := by
    rw [String.toList_append, List.mem_append]
    exact fun h => h.elim hasset (by decide)
  obtain ⟨start, hstart⟩ : ∃ start, p.manifestPath.toList =
      start ++ '/' :: (p.asset ++ ".json").toList := by
    unfold Partition.manifestPath Partition.childPath
    split
    · exact ⟨("_recovery_manifests/" ++ p.dataset ++ "/" ++ p.hourKey).toList, by simp⟩
    · exact ⟨(p.basePath ++ "/_recovery_manifests/" ++ p.dataset ++ "/" ++ p.hourKey).toList,
        by simp⟩
  have hlast : p.manifestPath.toList.getLast? = some 'n' := by
    have hend : p.manifestPath.toList =
        start ++ '/' :: p.asset.toList ++ ".jso".toList ++ ['n'] := by
      rw [hstart, String.toList_append]
      simp
    rw [hend, List.getLast?_concat]
  have htext := (PathParser.parse_ok _ _ place.manifestPath_eq).1
  have hnonempty : place.manifestPath.isEmpty = false := by
    rw [Bool.eq_false_iff, ne_eq, String.isEmpty_iff]
    intro hempty
    have hsame := getLast?_trimSeparators hlast (by decide)
    rw [← htext, hempty] at hsame
    cases hsame
  have hname : filename place.manifestPath = some (p.asset ++ ".json") := by
    rw [filename, hnonempty, htext, last_trimSeparators hlast (by decide), hstart,
      Separated.last_append hslash, String.ofList_toList]
    rfl
  rw [stemMatches, hname, Option.bind_some, String.toList_append, stripSuffix_append,
    Option.any_some, storageObjectComponentMatchesKey, beq_self_eq_true, Bool.true_or]

/-- **The scope check of a stored manifest** is that of the manifest. -/
theorem Place.fitsScope_texts (hasset : '/' ∉ p.asset.toList) (hplain : PlainNames m) :
    fitsScope p place.manifestPath place.normalDir place.stagingDir (place.texts m) = true ↔
      validateScope p m = .ok () := by
  have hobjects : objectsAreScoped place.normalDir place.stagingDir p.asset (place.texts m) =
      (m.activeObjects ++ m.supersededObjects).all fun path =>
        storageObjectFileMatchesAsset path.fileName p.asset := by
    rw [objectsAreScoped, Place.texts, ← List.map_append, List.all_map]
    rw [Bool.eq_iff_iff, List.all_eq_true, List.all_eq_true]
    refine forall₂_congr fun path hpath => ?_
    rw [Function.comp_apply, place.scoped_objectText (hplain path (List.mem_append.mp hpath))]
  rw [validateScope_eq_ok, fitsScope, hobjects, place.stemMatches_manifestPath hasset]
  simp only [Bool.and_eq_true, decide_eq_true_eq, List.all_append, List.all_eq_true, and_true,
    and_assoc]
  rfl

end Texts

end Partition

end PolyBook.Metadata
