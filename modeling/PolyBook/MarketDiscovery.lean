import Mathlib.Data.List.Lattice
import Mathlib.Data.List.Nodup
import Mathlib.Data.List.Pairwise
import PolyBook.Library.TreeMap
import PolyBook.Types

/-!
# Discovered markets

A market is discovered by its slug: the venue's answer lists the tokens of its markets, and
the registry learns which slug stands for which token.  A market of two tokens gives its
slug to neither, but with `-yes` to the first and with `-no` to the second.
-/

namespace PolyBook

/-- `GammaMarket`, as far as discovery reads it. -/
structure GammaMarket where
  question : Option String
  slug : Option String
  clobTokenIds : Option String

/-- `GammaEvent`, as far as discovery reads it. -/
structure GammaEvent where
  slug : Option String
  markets : Option (List GammaMarket)

/-- A market's slug and the tokens of its outcomes. -/
structure SlugMapping where
  slug : String
  tokenIds : List String
  label : Option String

/-- What discovery gives for a market. -/
structure DiscoveryResult where
  tokenIds : List String
  slugMappings : List SlugMapping

/-- `serde_json::from_str::<Vec<String>>`. -/
class JsonStrings where
  parse : String → Option (List String)

/-- `char::is_whitespace`. -/
def isWhiteSpace (c : Char) : Bool :=
  let code := c.toNat
  (9 ≤ code && code ≤ 13) || (8192 ≤ code && code ≤ 8202) ||
    [32, 133, 160, 5760, 8232, 8233, 8239, 8287, 12288].contains code

/-- `str::trim`. -/
def trimText (text : List Char) : List Char :=
  ((text.dropWhile isWhiteSpace).reverse.dropWhile isWhiteSpace).reverse

section Discovery

variable [JsonStrings]

/-- The tokens of a market. -/
def marketTokenIds (raw : String) : List String :=
  match JsonStrings.parse raw with
  | some parsed => parsed
  | none => (raw.toList.splitOn ',').map fun part => String.ofList (trimText part)

/-- One turn of the inner loop of `extract_discovery`. -/
def extractMarket (eventSlug : Option String) (result : DiscoveryResult) (market : GammaMarket) :
    DiscoveryResult :=
  match market.clobTokenIds with
  | none => result
  | some raw =>
      let tokenIds := marketTokenIds raw
      { tokenIds := result.tokenIds ++ tokenIds
        slugMappings := result.slugMappings ++
          -- the slug of the event stands in for that of the market
          (market.slug.or eventSlug).toList.map fun slug => ⟨slug, tokenIds, market.question⟩ }

/-- `extract_discovery`. -/
def extractDiscovery (events : List GammaEvent) : DiscoveryResult :=
  events.foldl (fun result event =>
    match event.markets with
    | none => result
    | some markets => markets.foldl (extractMarket event.slug) result) ⟨[], []⟩

end Discovery

/-! ## The registry -/

/-- The registry of slugs, in both directions. -/
structure SlugRegistry where
  slugToToken : Std.ExtTreeMap String AssetId
  tokenToSlug : Std.ExtTreeMap AssetId String
  tokenToLabel : Std.ExtTreeMap AssetId String

/-- `is_raw_token_id`. -/
def isRawTokenId (input : String) : Bool :=
  decide (40 < input.utf8ByteSize) && input.toList.all fun c => '0' ≤ c && c ≤ '9'

namespace SlugRegistry

/-- An empty registry. -/
def new : SlugRegistry := ⟨∅, ∅, ∅⟩

/-- `register`. -/
def register (r : SlugRegistry) (slug : String) (assetId : AssetId) : SlugRegistry :=
  { r with
    slugToToken := r.slugToToken.insert slug assetId
    tokenToSlug := r.tokenToSlug.insert assetId slug }

/-- `register_market`. -/
def registerMarket (r : SlugRegistry) (baseSlug : String) : List String → SlugRegistry
  | [] => r
  | [tokenId] => r.register baseSlug tokenId
  | [yes, no] => (r.register (baseSlug ++ "-yes") yes).register (baseSlug ++ "-no") no
  | tokenIds => tokenIds.zipIdx.foldl
      (fun r entry => r.register (baseSlug ++ "-" ++ toString entry.2) entry.1) r

/-- `register_label`. -/
def registerLabel (r : SlugRegistry) (assetId : AssetId) (label : String) : SlugRegistry :=
  { r with tokenToLabel := r.tokenToLabel.insert assetId label }

/-- `resolve`: a raw token id stands for itself. -/
def resolve (r : SlugRegistry) (input : String) : Option AssetId :=
  if isRawTokenId input then some input else r.slugToToken[input]?

/-- `slug_for`. -/
def slugFor (r : SlugRegistry) (assetId : AssetId) : Option String := r.tokenToSlug[assetId]?

/-- `label_for`. -/
def labelFor (r : SlugRegistry) (assetId : AssetId) : Option String := r.tokenToLabel[assetId]?

/-- One turn of the loop of `populate_registry`. -/
def populateMapping (r : SlugRegistry) (mapping : SlugMapping) : SlugRegistry :=
  let r := r.registerMarket mapping.slug mapping.tokenIds
  match mapping.label with
  | none => r
  | some label => mapping.tokenIds.foldl (fun r tokenId => r.registerLabel tokenId label) r

/-- `populate_registry`. -/
def populate (r : SlugRegistry) (result : DiscoveryResult) : SlugRegistry :=
  result.slugMappings.foldl populateMapping r

end SlugRegistry

/-! ## What the registry answers -/

/-- The slugs that a mapping gives to its tokens. -/
def SlugMapping.entries (mapping : SlugMapping) : List (String × AssetId) :=
  match mapping.tokenIds with
  | [] => []
  | [tokenId] => [(mapping.slug, tokenId)]
  | [yes, no] => [(mapping.slug ++ "-yes", yes), (mapping.slug ++ "-no", no)]
  | tokenIds => tokenIds.zipIdx.map fun entry => (mapping.slug ++ "-" ++ toString entry.2, entry.1)

/-- The label that a mapping gives to its tokens. -/
def SlugMapping.labels (mapping : SlugMapping) : List (AssetId × String) :=
  mapping.label.toList.flatMap fun label => mapping.tokenIds.map (·, label)

/-- The value that is given last to a key. -/
def lastTold {α β : Type} [DecidableEq α] (entries : List (α × β)) (key : α) : Option β :=
  ((entries.filter fun entry => entry.1 = key).getLast?).map Prod.snd

namespace SlugRegistry

/-- Registering a market registers its entries in order. -/
theorem registerMarket_eq (r : SlugRegistry) (mapping : SlugMapping) :
    r.registerMarket mapping.slug mapping.tokenIds =
      mapping.entries.foldl (fun r entry => r.register entry.1 entry.2) r := by
  obtain ⟨slug, tokenIds, label⟩ := mapping
  rcases tokenIds with _ | ⟨yes, _ | ⟨no, _ | ⟨third, rest⟩⟩⟩
  · rfl
  · rfl
  · rfl
  · simp only [registerMarket, SlugMapping.entries, List.foldl_map]

/-- The maps after some registrations. -/
theorem foldl_register (entries : List (String × AssetId)) (r : SlugRegistry) :
    entries.foldl (fun r entry => r.register entry.1 entry.2) r =
      ⟨entries.foldl (fun m entry => m.insert entry.1 entry.2) r.slugToToken,
        (entries.map Prod.swap).foldl (fun m entry => m.insert entry.1 entry.2) r.tokenToSlug,
        r.tokenToLabel⟩ := by
  induction entries generalizing r with
  | nil => rfl
  | cons entry entries ih => exact ih _

/-- Labels are registered token by token. -/
theorem foldl_registerLabel (tokenIds : List AssetId) (label : String) (r : SlugRegistry) :
    tokenIds.foldl (fun r tokenId => r.registerLabel tokenId label) r =
      ⟨r.slugToToken, r.tokenToSlug,
        (tokenIds.map (·, label)).foldl (fun m entry => m.insert entry.1 entry.2)
          r.tokenToLabel⟩ := by
  induction tokenIds generalizing r with
  | nil => rfl
  | cons tokenId tokenIds ih => exact ih _

/-- Populating with a mapping inserts its entries. -/
theorem populateMapping_eq (r : SlugRegistry) (mapping : SlugMapping) :
    r.populateMapping mapping =
      ⟨mapping.entries.foldl (fun m entry => m.insert entry.1 entry.2) r.slugToToken,
        (mapping.entries.map Prod.swap).foldl (fun m entry => m.insert entry.1 entry.2)
          r.tokenToSlug,
        mapping.labels.foldl (fun m entry => m.insert entry.1 entry.2) r.tokenToLabel⟩ := by
  rw [populateMapping, registerMarket_eq, foldl_register, SlugMapping.labels]
  cases mapping.label with
  | none => rfl
  | some label =>
      dsimp only
      rw [foldl_registerLabel]
      simp

/-- The registry after some mappings. -/
theorem foldl_populateMapping (mappings : List SlugMapping) (r : SlugRegistry) :
    mappings.foldl populateMapping r =
      ⟨(mappings.flatMap (·.entries)).foldl (fun m entry => m.insert entry.1 entry.2)
          r.slugToToken,
        ((mappings.flatMap (·.entries)).map Prod.swap).foldl
          (fun m entry => m.insert entry.1 entry.2) r.tokenToSlug,
        (mappings.flatMap (·.labels)).foldl (fun m entry => m.insert entry.1 entry.2)
          r.tokenToLabel⟩ := by
  induction mappings generalizing r with
  | nil => rfl
  | cons mapping mappings ih =>
      rw [List.foldl_cons, ih, populateMapping_eq]
      simp only [List.flatMap_cons, List.map_append, List.foldl_append]

/-- The mappings of all discoveries, in order. -/
def mappingsOf (results : List DiscoveryResult) : List SlugMapping :=
  results.flatMap (·.slugMappings)

/-- Populating with results is populating with their mappings in order. -/
theorem foldl_populate (results : List DiscoveryResult) (r : SlugRegistry) :
    results.foldl populate r = (mappingsOf results).foldl populateMapping r := by
  induction results generalizing r with
  | nil => rfl
  | cons result results ih =>
      rw [List.foldl_cons, ih, populate, mappingsOf, mappingsOf, List.flatMap_cons,
        List.foldl_append]

/-- **What the registry answers**: the last thing it was told. -/
theorem answers (results : List DiscoveryResult) :
    (∀ slug, (results.foldl populate new).resolve slug =
      if isRawTokenId slug then some slug
      else lastTold ((mappingsOf results).flatMap (·.entries)) slug) ∧
    (∀ assetId, (results.foldl populate new).slugFor assetId =
      lastTold (((mappingsOf results).flatMap (·.entries)).map Prod.swap) assetId) ∧
    ∀ assetId, (results.foldl populate new).labelFor assetId =
      lastTold ((mappingsOf results).flatMap (·.labels)) assetId := by
  rw [foldl_populate, foldl_populateMapping]
  refine ⟨fun slug => ?_, fun assetId => ?_, fun assetId => ?_⟩
  · rw [resolve, TreeMapLookup.getElem?_foldl_insert]
    simp [new, lastTold]
  · rw [slugFor, TreeMapLookup.getElem?_foldl_insert]
    simp [new, lastTold]
  · rw [labelFor, TreeMapLookup.getElem?_foldl_insert]
    simp [new, lastTold]

end SlugRegistry

/-- A key that is given one value only. -/
theorem lastTold_eq_some {α β : Type} [DecidableEq α] {entries : List (α × β)} {key : α}
    {value : β} (hmem : (key, value) ∈ entries)
    (honly : ∀ entry ∈ entries, entry.1 = key → entry.2 = value) :
    lastTold entries key = some value := by
  unfold lastTold
  cases hlast : (entries.filter fun entry => entry.1 = key).getLast? with
  | none =>
      have hin : (key, value) ∈ entries.filter fun entry => entry.1 = key :=
        List.mem_filter.mpr ⟨hmem, by simp⟩
      rw [List.getLast?_eq_none_iff.mp hlast] at hin
      cases hin
  | some entry =>
      obtain ⟨hentry, hkey⟩ := List.mem_filter.mp (List.mem_of_getLast? hlast)
      rw [Option.map_some, honly entry hentry (by simpa using hkey)]

/-! ## Markets of two tokens -/

/-- A market whose discovery names two tokens. -/
structure BinaryMarket where
  slug : String
  yes : AssetId
  no : AssetId
  label : Option String

namespace BinaryMarket

/-- The market as discovery maps it. -/
def mapping (m : BinaryMarket) : SlugMapping := ⟨m.slug, [m.yes, m.no], m.label⟩

/-- The market's tokens. -/
def tokens (m : BinaryMarket) : List AssetId := [m.yes, m.no]

/-- What the rotation discovers of one market after the other. -/
def discovery (m : BinaryMarket) : DiscoveryResult := ⟨m.tokens, [m.mapping]⟩

/-- The entries of a binary market. -/
theorem entries_mapping (m : BinaryMarket) :
    m.mapping.entries = [(m.slug ++ "-yes", m.yes), (m.slug ++ "-no", m.no)] := rfl

end BinaryMarket

/-- The two suffixes cannot be taken for each other, nor hide a part of the slug. -/
theorem suffixed_inj {slug slug' : String} :
    (slug ++ "-yes" = slug' ++ "-yes" → slug = slug') ∧
    (slug ++ "-no" = slug' ++ "-no" → slug = slug') ∧ slug ++ "-yes" ≠ slug' ++ "-no" := by
  refine ⟨fun h => ?_, fun h => ?_, fun h => ?_⟩
  · have htext := congrArg String.toList h
    rw [String.toList_append, String.toList_append] at htext
    exact String.toList_inj.mp (List.append_cancel_right htext)
  · have htext := congrArg String.toList h
    rw [String.toList_append, String.toList_append] at htext
    exact String.toList_inj.mp (List.append_cancel_right htext)
  · have hlast := congrArg (fun text : String => text.toList.getLast?) h
    simp at hlast

/-- A suffixed slug is no token id. -/
theorem isRawTokenId_suffixed (slug : String) :
    isRawTokenId (slug ++ "-yes") = false ∧ isRawTokenId (slug ++ "-no") = false := by
  constructor <;> simp [isRawTokenId]

section Markets

variable {markets : List BinaryMarket}

/-- The entries of some markets. -/
theorem entries_of_markets :
    (SlugRegistry.mappingsOf (markets.map (·.discovery))).flatMap (·.entries) =
      markets.flatMap fun m => [(m.slug ++ "-yes", m.yes), (m.slug ++ "-no", m.no)] := by
  induction markets with
  | nil => rfl
  | cons m markets ih =>
      simp only [SlugRegistry.mappingsOf, List.map_cons, List.flatMap_cons] at ih ⊢
      rw [List.flatMap_append, ih]
      simp [BinaryMarket.discovery, BinaryMarket.entries_mapping]

/-- Which entries some markets have. -/
theorem mem_entries {slug : String} {token : AssetId} :
    (slug, token) ∈ markets.flatMap (fun m =>
      [(m.slug ++ "-yes", m.yes), (m.slug ++ "-no", m.no)]) ↔
    ∃ m ∈ markets, (slug = m.slug ++ "-yes" ∧ token = m.yes) ∨
      (slug = m.slug ++ "-no" ∧ token = m.no) := by
  simp [List.mem_flatMap]

/-- Slugs and tokens determine each other. -/
theorem entries_inj (hslugs : (markets.map (·.slug)).Nodup)
    (htokens : (markets.flatMap (·.tokens)).Nodup) {slug slug' : String} {token token' : AssetId}
    (h : (slug, token) ∈ markets.flatMap fun m =>
      [(m.slug ++ "-yes", m.yes), (m.slug ++ "-no", m.no)])
    (h' : (slug', token') ∈ markets.flatMap fun m =>
      [(m.slug ++ "-yes", m.yes), (m.slug ++ "-no", m.no)]) : slug = slug' ↔ token = token' := by
  obtain ⟨m, hm, hentry⟩ := mem_entries.mp h
  obtain ⟨m', hm', hentry'⟩ := mem_entries.mp h'
  obtain ⟨hown, hapart⟩ := List.nodup_flatMap.mp htokens
  have hsymm : Std.Symm (Function.onFun List.Disjoint BinaryMarket.tokens) :=
    ⟨fun _ _ h => List.Disjoint.symm h⟩
  have hsameSlug : m.slug = m'.slug → m = m' := fun h => List.inj_on_of_nodup_map hslugs hm hm' h
  have hsameToken : ∀ t, t ∈ m.tokens → t ∈ m'.tokens → m = m' := by
    intro t ht ht'
    by_contra hne
    exact hapart.forall hm hm' hne ht ht'
  have hsides : ∀ n ∈ markets, n.yes ≠ n.no := by
    intro n hn
    simpa [BinaryMarket.tokens] using hown n hn
  obtain ⟨rfl, rfl⟩ | ⟨rfl, rfl⟩ := hentry <;> obtain ⟨rfl, rfl⟩ | ⟨rfl, rfl⟩ := hentry'
  · constructor
    · intro heq
      rw [hsameSlug (suffixed_inj.1 heq)]
    · intro heq
      rw [hsameToken m.yes (by simp [BinaryMarket.tokens]) (by simp [BinaryMarket.tokens, heq])]
  · constructor
    · exact fun heq => absurd heq suffixed_inj.2.2
    · intro heq
      have hsame := hsameToken m.yes (by simp [BinaryMarket.tokens])
        (by simp [BinaryMarket.tokens, heq])
      rw [hsame] at heq
      exact absurd heq (hsides m' hm')
  · constructor
    · exact fun heq => absurd heq.symm suffixed_inj.2.2
    · intro heq
      have hsame := hsameToken m.no (by simp [BinaryMarket.tokens])
        (by simp [BinaryMarket.tokens, heq])
      rw [hsame] at heq
      exact absurd heq.symm (hsides m' hm')
  · constructor
    · intro heq
      rw [hsameSlug (suffixed_inj.2.1 heq)]
    · intro heq
      rw [hsameToken m.no (by simp [BinaryMarket.tokens]) (by simp [BinaryMarket.tokens, heq])]

/-- The slug leads to the token and back. -/
structure Known (r : SlugRegistry) (slug : String) (token : AssetId) : Prop where
  resolve : r.resolve slug = some token
  slugFor : r.slugFor token = some slug

/-- **Every market stays known.**  While the discovered markets have slugs of their own and
tokens of their own, each of their suffixed slugs leads to its token and back, however many
markets have been discovered since. -/
theorem every_market_resolves (hslugs : (markets.map (·.slug)).Nodup)
    (htokens : (markets.flatMap (·.tokens)).Nodup) :
    ∀ m ∈ markets,
      Known ((markets.map (·.discovery)).foldl SlugRegistry.populate .new)
        (m.slug ++ "-yes") m.yes ∧
      Known ((markets.map (·.discovery)).foldl SlugRegistry.populate .new)
        (m.slug ++ "-no") m.no := by
  obtain ⟨hresolve, hslugFor, -⟩ := SlugRegistry.answers (markets.map (·.discovery))
  rw [entries_of_markets] at hresolve hslugFor
  have hknown : ∀ slug token, (slug, token) ∈ markets.flatMap (fun m =>
      [(m.slug ++ "-yes", m.yes), (m.slug ++ "-no", m.no)]) → isRawTokenId slug = false →
        Known ((markets.map (·.discovery)).foldl SlugRegistry.populate .new) slug token := by
    intro slug token hmem hraw
    constructor
    · rw [hresolve, hraw]
      apply lastTold_eq_some hmem
      rintro ⟨slug', token'⟩ hmem' hsame
      exact ((entries_inj hslugs htokens hmem' hmem).mp hsame)
    · rw [hslugFor]
      have hswapped := List.mem_map_of_mem (f := Prod.swap) hmem
      apply lastTold_eq_some hswapped
      rintro ⟨token', slug'⟩ hmem' hsame
      obtain ⟨entry, hentry, hswap⟩ := List.mem_map.mp hmem'
      obtain ⟨rfl, rfl⟩ := Prod.mk.inj hswap
      exact (entries_inj hslugs htokens hentry hmem).mpr hsame
  intro m hm
  obtain ⟨hyes, hno⟩ := isRawTokenId_suffixed m.slug
  exact ⟨hknown _ _ (mem_entries.mpr ⟨m, hm, Or.inl ⟨rfl, rfl⟩⟩) hyes,
    hknown _ _ (mem_entries.mpr ⟨m, hm, Or.inr ⟨rfl, rfl⟩⟩) hno⟩

end Markets

/-- Two markets that follow each other. -/
theorem every_market_resolves_rotated :
    Known (([⟨"btc-updown-5m-1700000100", "11", "12", none⟩,
        ⟨"btc-updown-5m-1700000400", "21", "22", some "Up or down?"⟩] : List BinaryMarket).map
          (·.discovery) |>.foldl SlugRegistry.populate .new)
      ("btc-updown-5m-1700000100" ++ "-yes") "11" :=
  (every_market_resolves (by decide) (by decide)
    ⟨"btc-updown-5m-1700000100", "11", "12", none⟩ List.mem_cons_self).1

end PolyBook
