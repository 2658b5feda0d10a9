/-
# The versions of an identity

`universe/asset_metadata.py`: what an asset or a market was called, and when.  A version is added
unless its span overlaps that of an earlier one, and `datetime.max` stands for an end that is
missing.

* `step_unambiguous_iff`: what one call does to a registry without ambiguities;
* `identities_unambiguous_iff`: no run makes an identity ambiguous unless it adds a second version
  without an end, and one of the two begins at `datetime.max`.
-/
import Kripto.Effect.Outcome
import Kripto.Effect.Spans
import Kripto.Execution.PreTrade

namespace Kripto.Universe.AssetMetadata

open Effect
open Execution (DateTime)

/-! ## 1. Moments -/

inductive Exc
  | valueError (msg : String)
  | lookupError (msg : String)
  | overflowError
  deriving DecidableEq

/-- `datetime.min` in UTC, in microseconds since 1970. -/
def MIN_MICROS : ℤ := -62135596800000000

/-- `datetime.max` in UTC. -/
def MAX_MICROS : ℤ := 253402300799999999

/-- What a `datetime` in UTC can be. -/
@[ext] structure Moment where
  micros : ℤ
  least : MIN_MICROS ≤ micros
  greatest : micros ≤ MAX_MICROS
  deriving DecidableEq

instance : LinearOrder Moment :=
  @LinearOrder.lift' Moment ℤ Int.instLinearOrder Moment.micros fun _ _ => Moment.ext

instance : OrderTop Moment where
  top := ⟨MAX_MICROS, by decide, le_refl _⟩
  le_top t := t.greatest

/-- `_aware`; `astimezone` raises where the moment is none in UTC. -/
def aware (x : DateTime) : Except Exc Moment :=
  if ¬ x.aware then .error (.valueError "timezone-aware timestamp required")
  else if h : MIN_MICROS ≤ x.micros ∧ x.micros ≤ MAX_MICROS then .ok ⟨x.micros, h.1, h.2⟩
  else .error .overflowError

def aware? : Option DateTime → Except Exc (Option Moment)
  | none => .ok none
  | some x => (aware x).map some

/-! ## 2. Versions -/

def TRUSTED_CONTRACT_SOURCES : List String :=
  ["EXCHANGE_OFFICIAL", "PROJECT_OFFICIAL", "CHAIN_REGISTRY"]

/-- Whether a text that may be missing is there and not empty. -/
def given (s : Option String) : Bool := s.any (· ≠ "")

structure AssetIdentityVersion where
  assetId : String
  canonicalSymbol : String
  displayName : String
  activeFrom : Moment
  activeTo : Option Moment
  chainNetwork : Option String
  contractIdentifier : Option String
  contractSource : Option String
  required : assetId ≠ "" ∧ canonicalSymbol ≠ "" ∧ displayName ≠ ""
  range : ∀ t ∈ activeTo, activeFrom < t
  trusted : given contractIdentifier → ∃ source ∈ contractSource, source ∈ TRUSTED_CONTRACT_SOURCES
  network : given contractIdentifier → given chainNetwork

def AssetIdentityVersion.new (assetId canonicalSymbol displayName : String) (activeFrom : DateTime)
    (activeTo : Option DateTime) (chainNetwork contractIdentifier contractSource : Option String) :
    Except Exc AssetIdentityVersion := do
  let activeFrom ← aware activeFrom
  let activeTo ← aware? activeTo
  if required : assetId ≠ "" ∧ canonicalSymbol ≠ "" ∧ displayName ≠ "" then
    if range : ∀ t ∈ activeTo, activeFrom < t then
      if trusted : given contractIdentifier →
          ∃ source ∈ contractSource, source ∈ TRUSTED_CONTRACT_SOURCES then
        if network : given contractIdentifier → given chainNetwork then
          return { assetId, canonicalSymbol, displayName, activeFrom, activeTo, chainNetwork,
                   contractIdentifier, contractSource, required, range, trusted, network }
        else .error (.valueError "contract identifier requires chain/network")
      else .error (.valueError "contract identifier requires trusted source")
    else .error (.valueError "invalid asset validity range")
  else .error (.valueError "asset identity fields required")

structure MarketIdentityVersion where
  exchange : String
  marketType : String
  symbol : String
  baseAssetId : String
  quoteAssetId : String
  contractType : String
  status : String
  onboardOpenTime : Moment
  versionValidFrom : Moment
  expireDelistTime : Option Moment
  versionValidTo : Option Moment
  required : ∀ e ∈ [exchange, marketType, symbol, baseAssetId, quoteAssetId, contractType, status],
    e ≠ ""
  range : ∀ t ∈ versionValidTo, versionValidFrom < t
  delisted : ∀ t ∈ expireDelistTime, onboardOpenTime ≤ t

def MarketIdentityVersion.new (exchange marketType symbol baseAssetId quoteAssetId contractType
    status : String) (onboardOpenTime versionValidFrom : DateTime)
    (expireDelistTime versionValidTo : Option DateTime) : Except Exc MarketIdentityVersion :=
  if required : ∀ e ∈ [exchange, marketType, symbol, baseAssetId, quoteAssetId, contractType,
      status], e ≠ "" then do
    let onboardOpenTime ← aware onboardOpenTime
    let versionValidFrom ← aware versionValidFrom
    let expireDelistTime ← aware? expireDelistTime
    let versionValidTo ← aware? versionValidTo
    if range : ∀ t ∈ versionValidTo, versionValidFrom < t then
      if delisted : ∀ t ∈ expireDelistTime, onboardOpenTime ≤ t then
        return { exchange, marketType, symbol, baseAssetId, quoteAssetId, contractType, status,
                 onboardOpenTime, versionValidFrom, expireDelistTime, versionValidTo, required,
                 range, delisted }
      else .error (.valueError "delist before onboard")
    else .error (.valueError "invalid market validity range")
  else
    -- the first field that is empty is named
    let fields := [("exchange", exchange), ("market_type", marketType), ("symbol", symbol),
      ("base_asset_id", baseAssetId), ("quote_asset_id", quoteAssetId),
      ("contract_type", contractType), ("status", status)]
    .error (.valueError (((fields.find? (·.2 = "")).elim "" Prod.fst) ++ " required"))

/-! ## 3. The registry -/

def assetTimeline : Timeline AssetIdentityVersion String Moment where
  key v := v.assetId
  span v := ⟨v.activeFrom, v.activeTo, v.range⟩

def marketTimeline : Timeline MarketIdentityVersion (String × String × String) Moment where
  key v := (v.exchange, v.marketType, v.symbol)
  span v := ⟨v.versionValidFrom, v.versionValidTo, v.range⟩

section Versions

variable {ν κ : Type} [DecidableEq κ]

/-- The loop of `add_asset` and `add_market`. -/
def addVersion (T : Timeline ν κ Moment) (msg : String) (versions : List ν) (v : ν) :
    Except Exc (List ν) :=
  if ∃ e ∈ versions, T.key e = T.key v ∧ (T.span e).Overlaps (T.span v) then
    .error (.valueError msg)
  else .ok (versions ++ [v])

/-- `asset_as_of` and `market_as_of`. -/
def versionAsOf (T : Timeline ν κ Moment) (msg : String) (versions : List ν) (k : κ)
    (time : DateTime) : Except Exc ν := do
  let t ← aware time
  match T.covering versions k t with
  | [v] => .ok v
  | _ => .error (.lookupError msg)

end Versions

structure AssetMetadataRegistry where
  assets : List AssetIdentityVersion := []
  markets : List MarketIdentityVersion := []

namespace AssetMetadataRegistry

variable (self : AssetMetadataRegistry)

def addAsset (v : AssetIdentityVersion) : Except Exc AssetMetadataRegistry :=
  (addVersion assetTimeline "overlapping asset identity versions" self.assets v).map fun assets =>
    { self with assets }

def addMarket (v : MarketIdentityVersion) : Except Exc AssetMetadataRegistry :=
  (addVersion marketTimeline "overlapping market identity versions" self.markets v).map
    fun markets => { self with markets }

def assetAsOf (assetId : String) (time : DateTime) : Except Exc AssetIdentityVersion :=
  versionAsOf assetTimeline "asset identity unavailable or ambiguous as-of timestamp" self.assets
    assetId time

def marketAsOf (exchange marketType symbol : String) (time : DateTime) :
    Except Exc MarketIdentityVersion :=
  versionAsOf marketTimeline "market identity unavailable or ambiguous as-of timestamp"
    self.markets (exchange, marketType, symbol) time

end AssetMetadataRegistry

/-! ## 4. Runs -/

inductive Call
  | addAsset (v : AssetIdentityVersion)
  | addMarket (v : MarketIdentityVersion)

/-- A call that raises has changed nothing. -/
def step (self : AssetMetadataRegistry) : Call → AssetMetadataRegistry
  | .addAsset v => (self.addAsset v).toOption.getD self
  | .addMarket v => (self.addMarket v).toOption.getD self

def run (calls : List Call) : AssetMetadataRegistry := calls.foldl step {}

theorem run_concat (calls : List Call) (call : Call) :
    run (calls ++ [call]) = step (run calls) call := by
  rw [run, run, List.foldl_append, List.foldl_cons, List.foldl_nil]

/-! ## 5. One timeline -/

section Timelines

variable {ν κ : Type} [DecidableEq κ] {T : Timeline ν κ Moment} {msg : String} {versions : List ν}
  {v : ν} {k : κ} {time : DateTime}

theorem addVersion_of_admits (h : T.Admits versions v) :
    addVersion T msg versions v = .ok (versions ++ [v]) := by
  refine if_neg ?_
  rintro ⟨e, he, hkey, hoverlaps⟩
  exact h e he hkey hoverlaps

theorem addVersion_of_not_admits (h : ¬ T.Admits versions v) :
    addVersion T msg versions v = .error (.valueError msg) := by
  refine if_pos ?_
  simpa only [Timeline.Admits, not_forall, not_not, exists_prop] using h

/-- **One more version** keeps them apart just if the test is enough for it. -/
theorem apart_addVersion_iff (h : T.Apart versions) :
    T.Apart ((addVersion T msg versions v).toOption.getD versions) ↔
      (T.Admits versions v → ¬ T.MeetsLast versions v) := by
  by_cases hadmits : T.Admits versions v
  · rw [addVersion_of_admits hadmits]
    refine (Timeline.apart_append_iff h hadmits).trans ?_
    exact ⟨fun hlast _ => hlast, fun hfits => hfits hadmits⟩
  · rw [addVersion_of_not_admits hadmits]
    exact iff_of_true h fun hadmits' => absurd hadmits' hadmits

/-- **What is looked up** is the version that is valid then, if they are apart. -/
theorem versionAsOf_eq_ok_iff (h : T.Apart versions) :
    versionAsOf T msg versions k time = .ok v ↔
      ∃ t, aware time = .ok t ∧ v ∈ versions ∧ T.key v = k ∧ (T.span v).Contains t := by
  rw [versionAsOf, bind_eq_ok_iff]
  refine exists_congr fun t => and_congr_right fun _ => ?_
  rw [← h.covering_eq_singleton_iff]
  constructor
  · intro hok
    split at hok
    · next w hw =>
      obtain rfl := Except.ok.inj hok
      exact hw
    · cases hok
  · intro hcovering
    rw [hcovering]

end Timelines

/-! ## 6. What is ambiguous -/

/-- At most one version covers a moment, and it is what is found then; nothing is found if there is
none. -/
structure Unambiguous (registry : AssetMetadataRegistry) : Prop where
  assets : ∀ assetId t, (assetTimeline.covering registry.assets assetId t).length ≤ 1
  markets : ∀ k t, (marketTimeline.covering registry.markets k t).length ≤ 1
  assetAsOf : ∀ assetId time v, registry.assetAsOf assetId time = .ok v ↔
    ∃ t, aware time = .ok t ∧ v ∈ registry.assets ∧ v.assetId = assetId ∧
      (assetTimeline.span v).Contains t
  marketAsOf : ∀ exchange marketType symbol time v,
    registry.marketAsOf exchange marketType symbol time = .ok v ↔
      ∃ t, aware time = .ok t ∧ v ∈ registry.markets ∧
        (v.exchange, v.marketType, v.symbol) = (exchange, marketType, symbol) ∧
        (marketTimeline.span v).Contains t

/-- The call does not add a version that the test lets in although it has just `datetime.max` in
common with a version of the same identity: neither has an end, and the later one begins then. -/
def Fits (self : AssetMetadataRegistry) : Call → Prop
  | .addAsset v =>
    assetTimeline.Admits self.assets v → ¬ assetTimeline.MeetsLast self.assets v
  | .addMarket v =>
    marketTimeline.Admits self.markets v → ¬ marketTimeline.MeetsLast self.markets v

variable {self : AssetMetadataRegistry}

theorem unambiguous_iff : Unambiguous self ↔
    assetTimeline.Apart self.assets ∧ marketTimeline.Apart self.markets := by
  constructor
  · intro h
    exact ⟨Timeline.apart_iff.mpr h.assets, Timeline.apart_iff.mpr h.markets⟩
  · rintro ⟨hassets, hmarkets⟩
    exact
      { assets := Timeline.apart_iff.mp hassets
        markets := Timeline.apart_iff.mp hmarkets
        assetAsOf := fun _ _ _ => versionAsOf_eq_ok_iff hassets
        marketAsOf := fun _ _ _ _ _ => versionAsOf_eq_ok_iff hmarkets }

theorem unambiguous_empty : Unambiguous {} :=
  unambiguous_iff.mpr ⟨List.Pairwise.nil, List.Pairwise.nil⟩

theorem step_addAsset (self : AssetMetadataRegistry) (v : AssetIdentityVersion) :
    step self (.addAsset v) = { self with
      assets := (addVersion assetTimeline "overlapping asset identity versions" self.assets
        v).toOption.getD self.assets } := by
  rw [step, AssetMetadataRegistry.addAsset]
  cases addVersion assetTimeline "overlapping asset identity versions" self.assets v <;> rfl

theorem step_addMarket (self : AssetMetadataRegistry) (v : MarketIdentityVersion) :
    step self (.addMarket v) = { self with
      markets := (addVersion marketTimeline "overlapping market identity versions" self.markets
        v).toOption.getD self.markets } := by
  rw [step, AssetMetadataRegistry.addMarket]
  cases addVersion marketTimeline "overlapping market identity versions" self.markets v <;> rfl

/-- **One call** keeps the registry unambiguous just if it fits. -/
theorem step_unambiguous_iff (h : Unambiguous self) (call : Call) :
    Unambiguous (step self call) ↔ Fits self call := by
  obtain ⟨hassets, hmarkets⟩ := unambiguous_iff.mp h
  cases call with
  | addAsset v =>
    rw [step_addAsset, unambiguous_iff, apart_addVersion_iff hassets]
    exact and_iff_left hmarkets
  | addMarket v =>
    rw [step_addMarket, unambiguous_iff, apart_addVersion_iff hmarkets]
    exact and_iff_right hassets

/-- **Identities stay unambiguous** through a run just if each of its calls fits. -/
theorem identities_unambiguous_iff (calls : List Call) :
    (∀ before, before <+: calls → Unambiguous (run before)) ↔
      ∀ before call, before ++ [call] <+: calls → Fits (run before) call := by
  constructor
  · intro h before call hcalls
    have hbefore := h before ((List.prefix_append before [call]).trans hcalls)
    rw [← step_unambiguous_iff hbefore, ← run_concat]
    exact h _ hcalls
  · intro h before hcalls
    induction before using List.reverseRecOn with
    | nil => exact unambiguous_empty
    | append_singleton before call ih =>
      rw [run_concat, step_unambiguous_iff (ih ((List.prefix_append before [call]).trans hcalls))]
      exact h before call hcalls

/-- A version of one asset that goes on and on. -/
def openVersion (activeFrom : Moment) : AssetIdentityVersion where
  assetId := "bitcoin"
  canonicalSymbol := "BTC"
  displayName := "Bitcoin"
  activeFrom := activeFrom
  activeTo := none
  chainNetwork := none
  contractIdentifier := none
  contractSource := none
  required := by decide
  range := by
    intro t ht
    cases ht
  trusted := by decide
  network := by decide

/-- **At `datetime.max`** the registry has two versions of the asset, and finds none. -/
theorem identity_ambiguous : ∃ v w,
    AssetIdentityVersion.new "bitcoin" "BTC" "Bitcoin" ⟨0, true⟩ none none none none = .ok v ∧
    (AssetIdentityVersion.new "bitcoin" "BTC" "Bitcoin" ⟨MAX_MICROS, true⟩ none none none none =
      .ok w) ∧
    assetTimeline.covering (run [.addAsset v, .addAsset w]).assets "bitcoin" ⊤ = [v, w] ∧
    (run [.addAsset v, .addAsset w]).assetAsOf "bitcoin" ⟨MAX_MICROS, true⟩ =
      .error (.lookupError "asset identity unavailable or ambiguous as-of timestamp") := by
  refine ⟨openVersion ⟨0, by decide, by decide⟩, openVersion ⊤, rfl, rfl, rfl, ?_⟩
  have haware : aware ⟨MAX_MICROS, true⟩ = .ok ⊤ := rfl
  rw [AssetMetadataRegistry.assetAsOf, versionAsOf, haware]
  rfl

end Kripto.Universe.AssetMetadata
