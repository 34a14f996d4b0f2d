import PolyBook.FixedPoint
import PolyBook.Library.PrefixCode
import PolyBook.Library.Separated

/-!
# Names of Parquet objects

An object's name is the asset's storage key, the first timestamp, a hash of the
content and its length.  The asset is read back from the right, since a key may
contain `_`.
-/

namespace PolyBook

/-- The byte is kept by `storage_key_for`. -/
def isStorageKeyByte (b : UInt8) : Bool :=
  (65 ≤ b && b ≤ 90) || (97 ≤ b && b ≤ 122) || (48 ≤ b && b ≤ 57) || b == 45 || b == 95 || b == 46

/-- A byte as `storage_key_for` writes it: itself, or `%XX`. -/
def storageKeyByte (b : UInt8) : List Char :=
  if isStorageKeyByte b then [Char.ofNat b.toNat]
  else ['%', (Nat.digitChar (b.toNat / 16)).toUpper, (Nat.digitChar (b.toNat % 16)).toUpper]

/-- `storage_key_for`. -/
def storageKeyFor (raw : String) : String :=
  String.ofList (raw.toUTF8.data.toList.flatMap storageKeyByte)

/-- `strip_suffix`. -/
def stripSuffix (suffix text : List Char) : Option (List Char) :=
  if suffix.isSuffixOf text then some (text.take (text.length - suffix.length)) else none

/-- `is_ascii_hexdigit`. -/
def isHexDigit (c : Char) : Bool :=
  c.isDigit || ('a' ≤ c && c ≤ 'f') || ('A' ≤ c && c ≤ 'F')

/-- `storage_file_asset_key`; `rsplitn` takes the fields off the right end. -/
def storageFileAssetKey (fileName : String) : Option (List Char) := do
  let stem ← stripSuffix ".parquet".toList fileName.toList
  let (len, rest) ← splitOnce '_' stem.reverse
  let (hash, rest) ← splitOnce '_' rest
  let (firstTsUs, asset) ← splitOnce '_' rest
  if asset.isEmpty || firstTsUs.isEmpty || len.isEmpty || !firstTsUs.all Char.isDigit ||
      !len.all Char.isDigit || hash.length != 16 || !hash.all isHexDigit then none
  else some asset.reverse

/-- `storage_object_component_matches_key`: the key, or the key with its `%` encoded
once more. -/
def storageObjectComponentMatchesKey (component storageKey : List Char) : Bool :=
  component == storageKey ||
    component == storageKey.flatMap fun c => if c = '%' then ['%', '2', '5'] else [c]

/-- `storage_object_file_matches_asset`. -/
def storageObjectFileMatchesAsset (fileName assetKey : String) : Bool :=
  match storageFileAssetKey fileName with
  | none => false
  | some fileAsset => storageObjectComponentMatchesKey fileAsset assetKey.toList

/-- A name that belongs to an asset is that of a Parquet object. -/
theorem parquet_suffix_of_matches {fileName assetKey : String}
    (h : storageObjectFileMatchesAsset fileName assetKey = true) :
    ".parquet".toList <:+ fileName.toList := by
  unfold storageObjectFileMatchesAsset storageFileAssetKey stripSuffix at h
  by_cases hsuffix : ".parquet".toList.isSuffixOf fileName.toList = true
  · exact List.isSuffixOf_iff_suffix.mp hsuffix
  · rw [if_neg hsuffix] at h
    cases h

/-- `{:016x}` of a 64-bit hash. -/
def hashText (hash : UInt64) : List Char :=
  let digits := Nat.toDigits 16 hash.toNat
  List.replicate (16 - digits.length) '0' ++ digits

/-- The name that `encode_group` gives to an object. -/
def objectFileName (asset : String) (firstTsUs : Nat) (contentHash : UInt64) (len : Nat) : String :=
  String.ofList (asset.toList ++ '_' :: Nat.toDigits 10 firstTsUs ++ '_' :: hashText contentHash ++
    '_' :: Nat.toDigits 10 len ++ ".parquet".toList)

theorem stripSuffix_append (suffix text : List Char) :
    stripSuffix suffix (text ++ suffix) = some text := by
  rw [stripSuffix, if_pos (List.isSuffixOf_iff_suffix.mpr (List.suffix_append text suffix)),
    List.length_append, Nat.add_sub_cancel, List.take_left]

theorem isDigit_of_mem_decimal {n : Nat} {c : Char} (h : c ∈ Nat.toDigits 10 n) :
    c.isDigit = true := Nat.isDigit_of_mem_toDigits (by decide) (by decide) h

theorem isHexDigit_digitChar {n : Nat} (h : n < 16) : isHexDigit n.digitChar = true := by
  have hall : ∀ m < 16, isHexDigit (Nat.digitChar m) = true := by decide
  exact hall n h

theorem isHexDigit_of_mem_toDigits {n : Nat} {c : Char} (h : c ∈ Nat.toDigits 16 n) :
    isHexDigit c = true := by
  induction n using Nat.strongRecOn with
  | _ n ih =>
      rw [Nat.toDigits_eq_if (by decide)] at h
      split at h
      · rw [List.mem_singleton.mp h]
        exact isHexDigit_digitChar ‹_›
      · obtain h | h := List.mem_append.mp h
        · exact ih (n / 16) (by omega) h
        · rw [List.mem_singleton.mp h]
          exact isHexDigit_digitChar (Nat.mod_lt _ (by decide))

theorem isHexDigit_of_mem_hashText {hash : UInt64} {c : Char} (h : c ∈ hashText hash) :
    isHexDigit c = true := by
  obtain h | h := List.mem_append.mp h
  · rw [List.eq_of_mem_replicate h]
    decide
  · exact isHexDigit_of_mem_toDigits h

theorem length_hashText (hash : UInt64) : (hashText hash).length = 16 := by
  have hle : (Nat.toDigits 16 hash.toNat).length ≤ 16 :=
    (Nat.length_toDigits_le_iff (by decide) (by decide)).mpr hash.toNat_lt
  rw [hashText, List.length_append, List.length_replicate]
  omega

/-- A name without its ending. -/
theorem toList_objectFileName (asset : String) (firstTsUs : Nat) (contentHash : UInt64)
    (len : Nat) :
    (objectFileName asset firstTsUs contentHash len).toList =
      (((asset.toList ++ '_' :: Nat.toDigits 10 firstTsUs) ++ '_' :: hashText contentHash) ++
        '_' :: Nat.toDigits 10 len) ++ ".parquet".toList := by
  rw [objectFileName, String.toList_ofList]

theorem underscore_notMem_decimal (n : Nat) : '_' ∉ Nat.toDigits 10 n := by
  intro hmem
  have := isDigit_of_mem_decimal hmem
  cases this

theorem underscore_notMem_hashText (hash : UInt64) : '_' ∉ hashText hash := by
  intro hmem
  have := isHexDigit_of_mem_hashText hmem
  cases this

/-- What is read back from a name. -/
theorem storageFileAssetKey_eq (asset : String) (firstTsUs : Nat) (contentHash : UInt64)
    (len : Nat) : storageFileAssetKey (objectFileName asset firstTsUs contentHash len) =
      if asset.toList.isEmpty then none else some asset.toList := by
  have hdigit : ∀ n, '_' ∉ (Nat.toDigits 10 n).reverse := fun n =>
    mt List.mem_reverse.mp (underscore_notMem_decimal n)
  have hhex : '_' ∉ (hashText contentHash).reverse :=
    mt List.mem_reverse.mp (underscore_notMem_hashText contentHash)
  have hreverse : (((asset.toList ++ '_' :: Nat.toDigits 10 firstTsUs) ++
      '_' :: hashText contentHash) ++ '_' :: Nat.toDigits 10 len).reverse =
        (Nat.toDigits 10 len).reverse ++ '_' :: ((hashText contentHash).reverse ++ '_' ::
          ((Nat.toDigits 10 firstTsUs).reverse ++ '_' :: asset.toList.reverse)) := by
    simp
  have hdecimal : ∀ n, (Nat.toDigits 10 n).reverse.isEmpty = false ∧
      (Nat.toDigits 10 n).reverse.all Char.isDigit = true := by
    intro n
    simp only [List.isEmpty_eq_false_iff, List.all_eq_true, List.mem_reverse, ne_eq,
      List.reverse_eq_nil_iff, Nat.toDigits_ne_nil, not_false_eq_true, true_and]
    exact fun _ hc => isDigit_of_mem_decimal hc
  have hhash : ((hashText contentHash).reverse.length != 16) = false ∧
      (hashText contentHash).reverse.all isHexDigit = true := by
    simp only [bne_eq_false_iff_eq, List.length_reverse, length_hashText, List.all_eq_true,
      List.mem_reverse, true_and]
    exact fun _ hc => isHexDigit_of_mem_hashText hc
  simp only [storageFileAssetKey, toList_objectFileName, stripSuffix_append, Option.bind_eq_bind,
    Option.bind_some, hreverse, splitOnce_append (hdigit _), splitOnce_append hhex, hdecimal, hhash,
    Bool.not_true, Bool.or_false, List.isEmpty_reverse, List.reverse_reverse]

/-- **The asset of an object is read back from its name.** -/
theorem storageFileAssetKey_objectFileName {asset : String} (hasset : asset ≠ "")
    (firstTsUs : Nat) (contentHash : UInt64) (len : Nat) :
    storageFileAssetKey (objectFileName asset firstTsUs contentHash len) = some asset.toList := by
  have hne : asset.toList.isEmpty = false := by simpa using hasset
  rw [storageFileAssetKey_eq, hne]
  rfl

/-- An object belongs to the asset it was encoded for. -/
theorem objectFileName_matches {asset : String} (hasset : asset ≠ "") (firstTsUs : Nat)
    (contentHash : UInt64) (len : Nat) :
    storageObjectFileMatchesAsset (objectFileName asset firstTsUs contentHash len) asset =
      true := by
  simp [storageObjectFileMatchesAsset, storageFileAssetKey_objectFileName hasset,
    storageObjectComponentMatchesKey]

example : storageKeyFor "../a/b%" = "..%2Fa%2Fb%25" := by decide +kernel

/-! ## One key for one asset -/

theorem toNat_charOfByte (b : UInt8) : (Char.ofNat b.toNat).toNat = b.toNat := by
  have hlt := b.toNat_lt
  have hvalid : b.toNat.isValidChar := Or.inl (by omega)
  unfold Char.ofNat
  rw [dif_pos hvalid]
  rfl

theorem charOfByte_injective : Function.Injective fun b : UInt8 => Char.ofNat b.toNat := by
  intro b c h
  dsimp only at h
  rw [← UInt8.toNat_inj, ← toNat_charOfByte b, ← toNat_charOfByte c, h]

theorem hexChar_injective {m n : Nat} (hm : m < 16) (hn : n < 16)
    (h : m.digitChar.toUpper = n.digitChar.toUpper) : m = n := by
  have hall : ∀ i < 16, ∀ j < 16,
      (Nat.digitChar i).toUpper = (Nat.digitChar j).toUpper → i = j := by
    decide
  exact hall m hm n hn h

/-- `%` is not kept. -/
theorem ne_percent_of_kept {b : UInt8} (h : isStorageKeyByte b = true) :
    Char.ofNat b.toNat ≠ '%' := by
  intro heq
  have hbyte : b = 37 := charOfByte_injective heq
  rw [hbyte] at h
  cases h

/-- The first byte of a key is told from the characters that stand for it. -/
theorem splits_storageKeyByte : PrefixCode.Splits storageKeyByte where
  nonempty b := by
    unfold storageKeyByte
    split <;> exact List.cons_ne_nil _ _
  split b c xs ys h := by
    unfold storageKeyByte at h
    split at h
    · rename_i hb
      split at h
      · obtain ⟨hhead, htail⟩ := List.cons.inj h
        exact ⟨charOfByte_injective hhead, htail⟩
      · exact absurd (List.cons.inj h).1 (ne_percent_of_kept hb)
    · split at h
      · rename_i hc
        exact absurd (List.cons.inj h).1.symm (ne_percent_of_kept hc)
      · obtain ⟨-, hdigits⟩ := List.cons.inj h
        obtain ⟨hhigh, hrest⟩ := List.cons.inj hdigits
        obtain ⟨hlow, htail⟩ := List.cons.inj hrest
        have hb := b.toNat_lt
        have hc := c.toNat_lt
        have hquot := hexChar_injective (by omega) (by omega) hhigh
        have hrem := hexChar_injective (by omega) (by omega) hlow
        exact ⟨UInt8.toNat_inj.mp (by omega), htail⟩

/-- **Assets have keys of their own.** -/
theorem storageKeyFor_injective : Function.Injective storageKeyFor := by
  intro a b h
  have hbytes := splits_storageKeyByte.flatMap_injective (String.ofList_injective h)
  have harrays : a.toUTF8.data = b.toUTF8.data := Array.toList_inj.mp hbytes
  exact String.toByteArray_inj.mp (ByteArray.ext harrays)

/-- A key is made of kept bytes and `%`. -/
theorem kept_or_percent {raw : String} {c : Char} (h : c ∈ (storageKeyFor raw).toList) :
    c = '%' ∨ ∃ b, isStorageKeyByte b = true ∧ Char.ofNat b.toNat = c := by
  rw [storageKeyFor, String.toList_ofList] at h
  obtain ⟨b, -, hc⟩ := List.mem_flatMap.mp h
  have hdigit : ∀ n < 16, ∃ k, isStorageKeyByte k = true ∧
      Char.ofNat k.toNat = (Nat.digitChar n).toUpper := by
    intro n hn
    have hall : ∀ m < 16, isStorageKeyByte ((Nat.digitChar m).toUpper.toNat.toUInt8) = true ∧
        Char.ofNat ((Nat.digitChar m).toUpper.toNat.toUInt8).toNat = (Nat.digitChar m).toUpper := by
      decide
    exact ⟨_, hall n hn⟩
  have hb := b.toNat_lt
  unfold storageKeyByte at hc
  split at hc
  · rename_i hkept
    exact Or.inr ⟨b, hkept, (List.mem_singleton.mp hc).symm⟩
  · rcases List.mem_cons.mp hc with rfl | hc
    · exact Or.inl rfl
    · rcases List.mem_cons.mp hc with rfl | hc
      · exact Or.inr (hdigit _ (by omega))
      · rw [List.mem_singleton.mp hc]
        exact Or.inr (hdigit _ (by omega))

/-- How a character of a key is encoded when the key is encoded once more. -/
theorem encoded_again {c : Char} (h : c = '%' ∨ ∃ b, isStorageKeyByte b = true ∧
    Char.ofNat b.toNat = c) : (String.utf8EncodeChar c).flatMap storageKeyByte =
      if c = '%' then ['%', '2', '5'] else [c] := by
  rcases h with rfl | ⟨b, hkept, rfl⟩
  · decide
  · have hascii : ∀ n < 256, isStorageKeyByte (UInt8.ofNat n) = true →
        String.utf8EncodeChar (Char.ofNat n) = [UInt8.ofNat n] := by decide +kernel
    have hencoded := hascii b.toNat b.toNat_lt (by rwa [UInt8.ofNat_toNat])
    rw [hencoded, UInt8.ofNat_toNat, List.flatMap_singleton, storageKeyByte, if_pos hkept,
      if_neg (ne_percent_of_kept hkept)]

/-- **The legacy form of a key is the key of the key.** -/
theorem storageKeyFor_storageKeyFor (raw : String) :
    (storageKeyFor (storageKeyFor raw)).toList =
      (storageKeyFor raw).toList.flatMap fun c => if c = '%' then ['%', '2', '5'] else [c] := by
  have hbytes : (storageKeyFor raw).toUTF8.data.toList =
      (storageKeyFor raw).toList.flatMap String.utf8EncodeChar := by
    obtain ⟨text, htext⟩ := String.exists_eq_ofList (storageKeyFor raw)
    rw [htext]
    simp [List.utf8Encode]
  conv_lhs => rw [storageKeyFor, String.toList_ofList, hbytes, List.flatMap_assoc]
  exact List.flatMap_congr fun c hc => encoded_again (kept_or_percent hc)

theorem storageKeyFor_ne_empty {raw : String} (h : raw ≠ "") : storageKeyFor raw ≠ "" := by
  intro hempty
  have hkey : storageKeyFor "" = "" := by decide +kernel
  exact h (storageKeyFor_injective (hempty.trans hkey.symm))

/-- A component matches the key of an asset when it is the key of the asset or of the
asset's key. -/
theorem storageObjectComponentMatchesKey_iff (a b : String) :
    storageObjectComponentMatchesKey (storageKeyFor b).toList (storageKeyFor a).toList = true ↔
      b = a ∨ b = storageKeyFor a := by
  rw [storageObjectComponentMatchesKey, ← storageKeyFor_storageKeyFor, Bool.or_eq_true, beq_iff_eq,
    beq_iff_eq, String.toList_inj, String.toList_inj, storageKeyFor_injective.eq_iff,
    storageKeyFor_injective.eq_iff]

/-- **Whose objects an asset's key matches.** -/
theorem storageObjectFileMatchesAsset_iff (a : String) {b : String} (hb : b ≠ "")
    (firstTsUs : Nat) (contentHash : UInt64) (len : Nat) :
    storageObjectFileMatchesAsset (objectFileName (storageKeyFor b) firstTsUs contentHash len)
      (storageKeyFor a) = true ↔ b = a ∨ b = storageKeyFor a := by
  simp only [storageObjectFileMatchesAsset,
    storageFileAssetKey_objectFileName (storageKeyFor_ne_empty hb)]
  exact storageObjectComponentMatchesKey_iff a b

/-! ## Names as components of paths -/

/-- **The objects of different keys have different names**, whatever the keys are. -/
theorem objectFileName_asset {asset asset' : String} {firstTsUs firstTsUs' : Nat}
    {contentHash contentHash' : UInt64} {len len' : Nat}
    (h : objectFileName asset firstTsUs contentHash len =
      objectFileName asset' firstTsUs' contentHash' len') : asset = asset' := by
  have htext := congrArg String.toList h
  rw [toList_objectFileName, toList_objectFileName] at htext
  have hstem := List.append_cancel_right htext
  have hhash := (Separated.append_inj_right (underscore_notMem_decimal len)
    (underscore_notMem_decimal len') hstem).1
  have hts := (Separated.append_inj_right (underscore_notMem_hashText contentHash)
    (underscore_notMem_hashText contentHash') hhash).1
  have hasset := (Separated.append_inj_right (underscore_notMem_decimal firstTsUs)
    (underscore_notMem_decimal firstTsUs') hts).1
  exact String.toList_inj.mp hasset

/-- The contents behind one name have one length. -/
theorem objectFileName_length {asset asset' : String} {firstTsUs firstTsUs' : Nat}
    {contentHash contentHash' : UInt64} {len len' : Nat}
    (h : objectFileName asset firstTsUs contentHash len =
      objectFileName asset' firstTsUs' contentHash' len') : len = len' := by
  have htext := congrArg String.toList h
  rw [toList_objectFileName, toList_objectFileName] at htext
  have hdigits := (Separated.append_inj_right (underscore_notMem_decimal len)
    (underscore_notMem_decimal len') (List.append_cancel_right htext)).2
  rw [← digitsVal_toDigits len, hdigits, digitsVal_toDigits]

/-- A key has no separator of paths. -/
theorem slash_notMem_storageKeyFor (raw : String) : '/' ∉ (storageKeyFor raw).toList := by
  intro hmem
  rcases kept_or_percent hmem with heq | ⟨b, hkept, heq⟩
  · cases heq
  · have hbyte : b = 47 := charOfByte_injective heq
    rw [hbyte] at hkept
    cases hkept

/-- A name is one component of a path. -/
theorem slash_notMem_objectFileName (raw : String) (firstTsUs : Nat) (contentHash : UInt64)
    (len : Nat) :
    '/' ∉ (objectFileName (storageKeyFor raw) firstTsUs contentHash len).toList := by
  have hdecimal : ∀ n, '/' ∉ Nat.toDigits 10 n := fun n hmem => by
    have := isDigit_of_mem_decimal hmem
    cases this
  have hhash : '/' ∉ hashText contentHash := fun hmem => by
    have := isHexDigit_of_mem_hashText hmem
    cases this
  rw [toList_objectFileName]
  simp [slash_notMem_storageKeyFor, hdecimal, hhash]

/-- Whose objects a key matches, the empty id included: its objects match no key. -/
theorem storageObjectFileMatchesAsset_any_iff (a b : String) (firstTsUs : Nat)
    (contentHash : UInt64) (len : Nat) :
    storageObjectFileMatchesAsset (objectFileName (storageKeyFor b) firstTsUs contentHash len)
      (storageKeyFor a) = true ↔ b ≠ "" ∧ (b = a ∨ b = storageKeyFor a) := by
  by_cases hb : b = ""
  · have hkey : storageKeyFor "" = "" := by decide +kernel
    rw [storageObjectFileMatchesAsset, storageFileAssetKey_eq, hb, hkey]
    simp
  · rw [storageObjectFileMatchesAsset_iff a hb]
    simp [hb]

end PolyBook
