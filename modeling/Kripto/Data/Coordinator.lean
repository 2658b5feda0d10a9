/-
# Market data connections

`data/coordinator.py`: the subscriptions are spread over connections of a limited size, and when the
connections are made anew every one of them gets a plan of what to subscribe to.  The queue and the
rate limits behind the coordinator are objects of their own, and are not a part of it here.
`data/envelope.py`: what comes in is checked against the last sequence number of its stream.

* `registry_covers`: after any calls each subscription of the last registry is on exactly one
  connection;
* `plans_complete`: the plans of a reconnect name each of them once;
* `generation_iff`: the generation of a connection counts the reconnects since it has last come in;
* `mem_staleSymbols_iff`: stale are the symbols whose last mark is too old;
* `observe_ok_iff`: what a sequence guard lets pass, in any order of the streams.
-/
import Kripto.Effect.Marks
import Kripto.Effect.Object
import Kripto.Effect.Sorting
import Kripto.Python.Parts

namespace Kripto.Data.Coordinator

open Effect

/-! ## 1. The coordinator -/

/-- `str.lower` and `str.upper`. -/
class CaseRuntime where
  lower : String → String
  upper : String → String

inductive Exc
  | valueError (msg : String)
  | keyError (key : String)
  | incompleteCoverage (missing unexpected : List String)
  deriving DecidableEq

structure MarketSubscription where
  symbol : String
  stream : String
  timeframe : Option String := none
  deriving DecidableEq

/-- `positive` is what the constructor checks. -/
structure MarketDataCoordinator where
  maxStreamsPerConnection : ℕ
  positive : 0 < maxStreamsPerConnection
  registry : List (String × List MarketSubscription) := []
  freshness : Table String ℚ := ∅
  connectionGeneration : Table String ℕ := ∅

def init (maxStreamsPerConnection queueSize : ℤ) : Except Exc MarketDataCoordinator :=
  if h : maxStreamsPerConnection ≤ 0 ∨ queueSize ≤ 0 then
    .error (.valueError "coordinator capacities must be positive")
  else .ok { maxStreamsPerConnection := maxStreamsPerConnection.toNat, positive := by omega }

/-- The shards of a list: `xs[offset:offset + m]` for the multiples `offset` of `m`. -/
def cut {α : Type} (m : ℕ) (xs : List α) : List (List α) :=
  (List.range ((xs.length + m - 1) / m)).map fun i => (xs.drop (i * m)).take m

def connectionId (i : ℕ) : String := "market-" ++ toString (i + 1)

section Registry

variable [CaseRuntime]

def MarketSubscription.key (s : MarketSubscription) : String :=
  let suffix := if s.timeframe.getD "" ≠ "" then "_" ++ s.timeframe.getD "" else ""
  CaseRuntime.lower s.symbol ++ "@" ++ s.stream ++ suffix

/-- The dictionary of the subscriptions by key: the last one of a key stays. -/
def byKey (subscriptions : List MarketSubscription) : Table String MarketSubscription :=
  subscriptions.foldl (fun t s => t.insert s.key s) ∅

def unique (subscriptions : List MarketSubscription) : List MarketSubscription :=
  (byKey subscriptions).values.insertionSort (ByKey MarketSubscription.key)

/-- The registry of these subscriptions. -/
def registryOf (m : ℕ) (subscriptions : List MarketSubscription) :
    List (String × List MarketSubscription) :=
  (cut m (unique subscriptions)).mapIdx fun i shard => (connectionId i, shard)

namespace MarketDataCoordinator

variable (self : MarketDataCoordinator)

def buildRegistry (subscriptions : List MarketSubscription) :
    List (String × List MarketSubscription) × MarketDataCoordinator :=
  let registry := registryOf self.maxStreamsPerConnection subscriptions
  let generation (id : String) := (self.connectionGeneration.lookup id).getD 0
  (registry, { self with
    registry := registry
    connectionGeneration := registry.foldl (fun g c => g.insert c.1 (generation c.1)) ∅ })

def resubscribePlan (connectionId : String) : Except Exc (List String) :=
  match self.registry.lookup connectionId with
  | none => .error (.keyError connectionId)
  | some shard => .ok (shard.map MarketSubscription.key)

def nextGeneration (connectionId : String) : MarketDataCoordinator :=
  let generation := (self.connectionGeneration.lookup connectionId).getD 0
  { self with
    connectionGeneration := self.connectionGeneration.insert connectionId (generation + 1) }

/-- The loop over the connections. -/
def reconnectEach : List String →
    MarketDataCoordinator → Except Exc (List (String × List String)) × MarketDataCoordinator
  | [], self => (.ok [], self)
  | id :: ids, self =>
    match (self.nextGeneration id).resubscribePlan id with
    | .error e => (.error e, self.nextGeneration id)
    | .ok plan =>
      match reconnectEach ids (self.nextGeneration id) with
      | (.error e, self) => (.error e, self)
      | (.ok plans, self) => (.ok ((id, plan) :: plans), self)

def reconnectResubscribeAll :
    Except Exc (List (String × List String)) × MarketDataCoordinator :=
  reconnectEach ((self.registry.map (·.1)).insertionSort (· ≤ ·)) self

def markSymbolFresh (symbol : String) (observedAt : ℚ) : MarketDataCoordinator :=
  { self with freshness := self.freshness.insert (CaseRuntime.upper symbol) observedAt }

def staleSymbols (now maxAgeSeconds : ℚ) : Except Exc (List String) :=
  if maxAgeSeconds ≤ 0 then .error (.valueError "max_age_seconds must be positive")
  else .ok (self.freshness.keys.filter fun symbol =>
    (self.freshness.lookup symbol).any fun observedAt => now - observedAt > maxAgeSeconds)

def registeredSymbols : List String :=
  (self.registry.flatMap fun c => c.2.map fun s => CaseRuntime.upper s.symbol).dedup

def validateSubscriptionCoverage (symbols : List String) : Except Exc Bool :=
  let expected := (symbols.map CaseRuntime.upper).dedup
  let actual := self.registeredSymbols
  let missing := (expected.filter (· ∉ actual)).insertionSort (· ≤ ·)
  let unexpected := (actual.filter (· ∉ expected)).insertionSort (· ≤ ·)
  if missing ≠ [] ∨ unexpected ≠ [] then .error (.incompleteCoverage missing unexpected)
  else .ok true

end MarketDataCoordinator

/-- What changes a coordinator. -/
inductive Call
  | build (subscriptions : List MarketSubscription)
  | reconnect
  | fresh (symbol : String) (observedAt : ℚ)

def step (self : MarketDataCoordinator) : Call → MarketDataCoordinator
  | .build subscriptions => (self.buildRegistry subscriptions).2
  | .reconnect => self.reconnectResubscribeAll.2
  | .fresh symbol observedAt => self.markSymbolFresh symbol observedAt

def run (self : MarketDataCoordinator) (calls : List Call) : MarketDataCoordinator :=
  calls.foldl step self

end Registry

/-! ## 2. Shards -/

section Cut

variable {α : Type} {m : ℕ} {xs : List α}

theorem length_cut : (cut m xs).length = (xs.length + m - 1) / m := by
  simp [cut]

/-- So many shards from the start. -/
theorem flatten_shards (n : ℕ) :
    ((List.range n).map fun i => (xs.drop (i * m)).take m).flatten = xs.take (n * m) := by
  induction n with
  | zero => simp
  | succ n ih =>
    rw [List.range_succ, List.map_append, List.flatten_append, ih, Nat.succ_mul, List.take_add]
    simp

theorem getElem_cut {i : ℕ} (hi : i < (cut m xs).length) :
    (cut m xs)[i] = (xs.drop (i * m)).take m := by
  simp [cut]

variable (hm : 0 < m)
include hm

/-- **Nothing is lost**, and nothing is in two shards. -/
theorem flatten_cut : (cut m xs).flatten = xs := by
  have hall : xs.length ≤ (xs.length + m - 1) / m * m := by
    have h := Nat.div_add_mod (xs.length + m - 1) m
    have hlt := Nat.mod_lt (xs.length + m - 1) hm
    rw [Nat.mul_comm] at h
    omega
  rw [cut, flatten_shards, List.take_of_length_le hall]

/-- There is a shard just where elements are left. -/
theorem lt_length_cut_iff {i : ℕ} : i < (cut m xs).length ↔ i * m < xs.length := by
  rw [length_cut, Nat.lt_iff_add_one_le, Nat.le_div_iff_mul_le hm, Nat.succ_mul]
  omega

/-- All shards but the last are full. -/
theorem length_shard_of_lt {i : ℕ} (hi : i + 1 < (cut m xs).length) :
    ((cut m xs)[i]).length = m := by
  rw [lt_length_cut_iff hm, Nat.succ_mul] at hi
  rw [getElem_cut, List.length_take, List.length_drop]
  omega

theorem length_shard {shard : List α} (h : shard ∈ cut m xs) :
    shard ≠ [] ∧ shard.length ≤ m := by
  obtain ⟨i, hi, rfl⟩ := List.getElem_of_mem h
  have hleft := (lt_length_cut_iff hm).mp hi
  rw [getElem_cut, ← List.length_pos_iff, List.length_take, List.length_drop]
  omega

end Cut

theorem connectionId_injective : Function.Injective connectionId := by
  intro i j h
  have hrepr := Python.toString_nat_injective ((String.append_right_inj _).mp h)
  omega

/-! ## 3. The registry -/

section Registry

variable [CaseRuntime] {subscriptions : List MarketSubscription} {s : MarketSubscription} {m : ℕ}

/-- No later subscription has its key. -/
def IsLast (subscriptions : List MarketSubscription) (s : MarketSubscription) : Prop :=
  ∃ before after, subscriptions = before ++ s :: after ∧ ∀ s' ∈ after, s'.key ≠ s.key

theorem isLast_concat {last : MarketSubscription} :
    IsLast (subscriptions ++ [last]) s ↔
      s = last ∨ s.key ≠ last.key ∧ IsLast subscriptions s := by
  constructor
  · rintro ⟨before, after, heq, hafter⟩
    rcases List.eq_nil_or_concat' after with rfl | ⟨after, last', rfl⟩
    · exact .inl (List.singleton_inj.mp (List.append_inj' heq rfl).2).symm
    · rw [← List.cons_append, ← List.append_assoc] at heq
      obtain ⟨rfl, hlast⟩ := List.append_inj' heq rfl
      obtain rfl := List.singleton_inj.mp hlast
      exact .inr ⟨(hafter last (by simp)).symm, before, after, rfl,
        fun s' hs' => hafter s' (by simp [hs'])⟩
  · rintro (rfl | ⟨hkey, before, after, rfl, hafter⟩)
    · exact ⟨subscriptions, [], rfl, nofun⟩
    · refine ⟨before, after ++ [last], by simp, fun s' hs' => ?_⟩
      rcases List.mem_append.mp hs' with hs' | hs'
      · exact hafter s' hs'
      · rw [List.mem_singleton.mp hs']
        exact hkey.symm

theorem lookup_byKey {k : String} :
    (byKey subscriptions).lookup k = some s ↔ IsLast subscriptions s ∧ s.key = k := by
  induction subscriptions using List.reverseRecOn with
  | nil =>
    constructor
    · exact nofun
    · rintro ⟨⟨before, after, heq, -⟩, -⟩
      simp at heq
  | append_singleton subscriptions last ih =>
    rw [isLast_concat, byKey, List.foldl_append]
    change ((byKey subscriptions).insert last.key last).lookup k = some s ↔ _
    by_cases hk : k = last.key
    · subst hk
      rw [AList.lookup_insert, Option.some.injEq]
      constructor
      · rintro rfl
        exact ⟨.inl rfl, rfl⟩
      · rintro ⟨rfl | ⟨hne, -⟩, hkey⟩
        · rfl
        · exact absurd hkey hne
    · rw [AList.lookup_insert_ne hk, ih]
      constructor
      · rintro ⟨hlast, rfl⟩
        exact ⟨.inr ⟨hk, hlast⟩, rfl⟩
      · rintro ⟨rfl | ⟨-, hlast⟩, rfl⟩
        · exact absurd rfl hk
        · exact ⟨hlast, rfl⟩

theorem mem_values_byKey : s ∈ (byKey subscriptions).values ↔ IsLast subscriptions s := by
  rw [Table.values, List.mem_map]
  constructor
  · rintro ⟨⟨k, s⟩, hentry, rfl⟩
    exact (lookup_byKey.mp (AList.mem_lookup_iff.mpr hentry)).1
  · intro h
    exact ⟨⟨s.key, s⟩, AList.mem_lookup_iff.mp (lookup_byKey.mpr ⟨h, rfl⟩), rfl⟩

theorem keys_values_byKey :
    (byKey subscriptions).values.map MarketSubscription.key = (byKey subscriptions).keys := by
  rw [Table.values, AList.keys, List.keys, List.map_map]
  refine List.map_congr_left fun e he => ?_
  exact (lookup_byKey.mp (AList.mem_lookup_iff.mpr he)).2

/-- Every key has a last subscription. -/
theorem exists_isLast (hs : s ∈ subscriptions) :
    ∃ last, IsLast subscriptions last ∧ last.key = s.key := by
  induction subscriptions using List.reverseRecOn with
  | nil => cases hs
  | append_singleton subscriptions last ih =>
    by_cases hkey : s.key = last.key
    · exact ⟨last, isLast_concat.mpr (.inl rfl), hkey.symm⟩
    · rcases List.mem_append.mp hs with hs | hs
      · obtain ⟨last', hlast', hkey'⟩ := ih hs
        exact ⟨last', isLast_concat.mpr (.inr ⟨hkey' ▸ hkey, hlast'⟩), hkey'⟩
      · exact absurd (congrArg _ (List.mem_singleton.mp hs)) hkey

theorem increasing_unique : Increasing MarketSubscription.key (unique subscriptions) := by
  refine increasing_insertionSort ?_
  rw [keys_values_byKey]
  exact (byKey subscriptions).keys_nodup

theorem mem_unique : s ∈ unique subscriptions ↔ IsLast subscriptions s := by
  rw [unique, List.mem_insertionSort, mem_values_byKey]

/-- **Connections that carry these subscriptions**: the last one of each key, in the order of the
keys, and no connection is empty or too full.  All but the last are full. -/
structure Covers (m : ℕ) (subscriptions : List MarketSubscription)
    (registry : List (String × List MarketSubscription)) : Prop where
  ids : registry.map (·.1) = (List.range registry.length).map connectionId
  carried : ∀ s, s ∈ registry.flatMap (·.2) ↔ IsLast subscriptions s
  increasing : Increasing MarketSubscription.key (registry.flatMap (·.2))
  size : ∀ c ∈ registry, c.2 ≠ [] ∧ c.2.length ≤ m
  full : ∀ i (hi : i + 1 < registry.length), (registry[i]).2.length = m

theorem map_snd_registryOf :
    (registryOf m subscriptions).map (·.2) = cut m (unique subscriptions) := by
  refine List.ext_getElem (by simp [registryOf]) fun i hi hi' => ?_
  simp [registryOf]

theorem covers_registryOf (hm : 0 < m) : Covers m subscriptions (registryOf m subscriptions) := by
  have hflat : (registryOf m subscriptions).flatMap (·.2) = unique subscriptions := by
    rw [List.flatMap_def, map_snd_registryOf, flatten_cut hm]
  refine ⟨?_, fun s => ?_, ?_, fun c hc => ?_, fun i hi => ?_⟩
  · refine List.ext_getElem (by simp) fun i hi hi' => ?_
    simp [registryOf]
  · rw [hflat, mem_unique]
  · rw [hflat]
    exact increasing_unique
  · have hshard : c.2 ∈ cut m (unique subscriptions) := by
      rw [← map_snd_registryOf]
      exact List.mem_map_of_mem hc
    exact length_shard hm hshard
  · have hcut : i + 1 < (cut m (unique subscriptions)).length := by
      rw [← map_snd_registryOf, List.length_map]
      exact hi
    simp only [registryOf, List.getElem_mapIdx]
    exact length_shard_of_lt hm hcut

/-! ## 4. The loop over the connections -/

omit [CaseRuntime] in
/-- The registry has one entry for a connection. -/
theorem lookup_of_mem (registry : List (String × List MarketSubscription))
    {c : String × List MarketSubscription} (h : (registry.map (·.1)).Nodup) (hc : c ∈ registry) :
    registry.lookup c.1 = some c.2 := by
  obtain ⟨before, after, rfl⟩ := List.mem_iff_append.mp hc
  refine List.lookup_eq_some_iff.mpr ⟨before, after, rfl, fun p hp => ?_⟩
  rw [List.map_append, List.map_cons, List.nodup_append] at h
  simpa using (h.2.2 p.1 (List.mem_map_of_mem hp) c.1 (by simp)).symm

def planOf (registry : List (String × List MarketSubscription)) (id : String) : List String :=
  ((registry.lookup id).getD []).map MarketSubscription.key

theorem resubscribePlan_eq (self : MarketDataCoordinator) {id : String}
    (h : id ∈ self.registry.map (·.1)) :
    self.resubscribePlan id = .ok (planOf self.registry id) := by
  unfold MarketDataCoordinator.resubscribePlan planOf
  cases hlookup : self.registry.lookup id with
  | some shard => rfl
  | none =>
    obtain ⟨c, hc, rfl⟩ := List.mem_map.mp h
    simpa using List.lookup_eq_none_iff.mp hlookup c hc

/-- **The loop** plans for each of these connections and raises its generation, and that is all. -/
theorem reconnectEach_spec (self : MarketDataCoordinator) {ids : List String} (hids : ids.Nodup)
    (h : ∀ id ∈ ids, id ∈ self.registry.map (·.1)) :
    ∃ generations : Table String ℕ,
      MarketDataCoordinator.reconnectEach ids self =
        (.ok (ids.map fun id => (id, planOf self.registry id)),
          { self with connectionGeneration := generations }) ∧
      ∀ id, generations.lookup id =
        if id ∈ ids then some ((self.connectionGeneration.lookup id).getD 0 + 1)
        else self.connectionGeneration.lookup id := by
  induction ids generalizing self with
  | nil => exact ⟨self.connectionGeneration, rfl, by simp⟩
  | cons id ids ih =>
    obtain ⟨hid, hids⟩ := List.nodup_cons.mp hids
    obtain ⟨generations, hloop, hgenerations⟩ := ih (self.nextGeneration id) hids
      fun id' hid' => h id' (by simp [hid'])
    refine ⟨generations, ?_, fun id' => ?_⟩
    · rw [MarketDataCoordinator.reconnectEach,
        resubscribePlan_eq (self.nextGeneration id) (h id (by simp)), hloop]
      rfl
    · rw [hgenerations]
      by_cases heq : id' = id
      · subst heq
        simp [hid, MarketDataCoordinator.nextGeneration]
      · simp [heq, MarketDataCoordinator.nextGeneration]

end Registry

/-! ## 5. Runs -/

/-- The subscriptions of the last registry that was built. -/
def current (calls : List Call) : List MarketSubscription :=
  (calls.filterMap fun
    | .build subscriptions => some subscriptions
    | _ => none).getLast?.getD []

@[simp] theorem current_nil : current [] = [] := rfl

@[simp] theorem current_build (calls : List Call) (subscriptions : List MarketSubscription) :
    current (calls ++ [.build subscriptions]) = subscriptions := by
  simp [current, List.filterMap_append]

@[simp] theorem current_reconnect (calls : List Call) :
    current (calls ++ [.reconnect]) = current calls := by
  simp [current, List.filterMap_append]

@[simp] theorem current_fresh (calls : List Call) (symbol : String) (observedAt : ℚ) :
    current (calls ++ [.fresh symbol observedAt]) = current calls := by
  simp [current, List.filterMap_append]

section Run

variable [CaseRuntime] {subscriptions : List MarketSubscription} {m : ℕ}

/-- The connections that these subscriptions make. -/
def idsOf (m : ℕ) (subscriptions : List MarketSubscription) : List String :=
  (registryOf m subscriptions).map (·.1)

/-- The plans for these connections. -/
def plansOf (m : ℕ) (subscriptions : List MarketSubscription) : List (String × List String) :=
  ((idsOf m subscriptions).insertionSort (· ≤ ·)).map fun id =>
    (id, planOf (registryOf m subscriptions) id)

theorem nodup_idsOf : (idsOf m subscriptions).Nodup := by
  have hids : idsOf m subscriptions =
      (List.range (registryOf m subscriptions).length).map connectionId :=
    List.ext_getElem (by simp [idsOf]) fun i hi hi' => by simp [idsOf, registryOf]
  rw [hids]
  exact List.nodup_range.map connectionId_injective

theorem run_concat (self : MarketDataCoordinator) (calls : List Call) (call : Call) :
    run self (calls ++ [call]) = step (run self calls) call := by
  simp [run, List.foldl_append]

/-- **What a run leaves**: the registry of the last subscriptions, and a generation for each of its
connections and for no other. -/
structure Left (m : ℕ) (subscriptions : List MarketSubscription) (c : MarketDataCoordinator) :
    Prop where
  size : c.maxStreamsPerConnection = m
  registry : c.registry = registryOf m subscriptions
  generations : ∀ id, c.connectionGeneration.lookup id = none ↔ id ∉ idsOf m subscriptions

omit [CaseRuntime] in
theorem lookup_foldl_insert (generation : String → ℕ)
    (registry : List (String × List MarketSubscription)) (g : Table String ℕ) (id : String) :
    (registry.foldl (fun g c => g.insert c.1 (generation c.1)) g).lookup id =
      if id ∈ registry.map (·.1) then some (generation id) else g.lookup id := by
  induction registry generalizing g with
  | nil => simp
  | cons c registry ih =>
    rw [List.foldl_cons, ih]
    by_cases hrest : id ∈ registry.map (·.1)
    · rw [if_pos hrest, if_pos (by simp only [List.map_cons, List.mem_cons, hrest, or_true])]
    · rw [if_neg hrest]
      by_cases hid : id = c.1
      · rw [hid, AList.lookup_insert, if_pos (by simp)]
      · rw [AList.lookup_insert_ne hid, if_neg]
        simpa only [List.map_cons, List.mem_cons, not_or] using ⟨hid, hrest⟩

section Steps

variable {self : MarketDataCoordinator} {subscriptions' : List MarketSubscription} {id : String}

theorem generation_build (h : Left m subscriptions self) :
    (step self (.build subscriptions')).connectionGeneration.lookup id =
      if id ∈ idsOf m subscriptions' then some ((self.connectionGeneration.lookup id).getD 0)
      else none := by
  rw [← h.size]
  exact lookup_foldl_insert (fun id => (self.connectionGeneration.lookup id).getD 0) _ ∅ id

theorem Left.build (h : Left m subscriptions self) :
    Left m subscriptions' (step self (.build subscriptions')) where
  size := h.size
  registry := congrArg (registryOf · subscriptions') h.size
  generations id := by
    rw [generation_build h]
    split <;> simp [*]

/-- **A reconnect** plans for all connections. -/
theorem reconnect_spec (h : Left m subscriptions self) :
    ∃ generations : Table String ℕ,
      self.reconnectResubscribeAll =
        (.ok (plansOf m subscriptions), { self with connectionGeneration := generations }) ∧
      ∀ id, generations.lookup id = (self.connectionGeneration.lookup id).map (· + 1) := by
  have hids : self.registry.map (·.1) = idsOf m subscriptions := by
    rw [h.registry]
    rfl
  have hsorted : ((idsOf m subscriptions).insertionSort (· ≤ ·)).Nodup :=
    (List.perm_insertionSort _ _).nodup_iff.mpr nodup_idsOf
  obtain ⟨generations, hloop, hgenerations⟩ := reconnectEach_spec self hsorted
    fun id hid => by rwa [hids, ← List.mem_insertionSort (· ≤ ·)]
  refine ⟨generations, ?_, fun id => ?_⟩
  · rw [MarketDataCoordinator.reconnectResubscribeAll, hids, hloop, h.registry]
    rfl
  · rw [hgenerations]
    simp only [List.mem_insertionSort]
    cases hlookup : self.connectionGeneration.lookup id with
    | none => rw [if_neg ((h.generations id).mp hlookup), Option.map_none]
    | some n =>
      have hid : id ∈ idsOf m subscriptions := by
        by_contra hid
        rw [(h.generations id).mpr hid] at hlookup
        exact nomatch hlookup
      rw [if_pos hid]
      rfl

theorem generation_reconnect (h : Left m subscriptions self) :
    (step self .reconnect).connectionGeneration.lookup id =
      (self.connectionGeneration.lookup id).map (· + 1) := by
  obtain ⟨generations, hreconnect, hgenerations⟩ := reconnect_spec h
  rw [step, hreconnect]
  exact hgenerations id

theorem Left.reconnect (h : Left m subscriptions self) :
    Left m subscriptions (step self .reconnect) := by
  obtain ⟨generations, hreconnect, hgenerations⟩ := reconnect_spec h
  rw [step, hreconnect]
  refine ⟨h.size, h.registry, fun id => ?_⟩
  rw [hgenerations, Option.map_eq_none_iff]
  exact h.generations id

end Steps

/-- The plans, in the order of the registry. -/
theorem perm_plans : (plansOf m subscriptions).Perm
    ((registryOf m subscriptions).map fun c => (c.1, c.2.map MarketSubscription.key)) := by
  refine ((List.perm_insertionSort _ _).map _).trans (List.Perm.of_eq ?_)
  rw [idsOf, List.map_map]
  refine List.map_congr_left fun c hc => ?_
  have hlookup := lookup_of_mem (registryOf m subscriptions) nodup_idsOf hc
  rw [Function.comp_apply, planOf, hlookup, Option.getD_some]

theorem perm_keys : ((plansOf m subscriptions).flatMap (·.2)).Perm
    (((registryOf m subscriptions).flatMap (·.2)).map MarketSubscription.key) := by
  refine (perm_plans.flatMap_right _).trans (List.Perm.of_eq ?_)
  rw [List.flatMap_map, List.map_flatMap]

theorem registryOf_nil (hm : 0 < m) : registryOf m [] = [] := by
  rw [registryOf, show unique [] = [] from rfl, List.mapIdx_eq_nil_iff, ← List.length_eq_zero_iff,
    length_cut]
  exact Nat.div_eq_of_lt (by simp; omega)

/-- A coordinator as it is made. -/
theorem left_of_init {maxStreams queueSize : ℤ} {self : MarketDataCoordinator}
    (h : init maxStreams queueSize = .ok self) : Left maxStreams.toNat [] self := by
  unfold init at h
  split at h
  · exact nomatch h
  · rename_i hpositive
    obtain rfl := Except.ok.inj h
    have hnone : registryOf maxStreams.toNat [] = [] := registryOf_nil (by omega)
    refine ⟨rfl, hnone.symm, fun id => ?_⟩
    simp [idsOf, hnone]

section Runs

variable {maxStreams queueSize : ℤ} {self : MarketDataCoordinator} {calls : List Call}

theorem left_run (h : init maxStreams queueSize = .ok self) (calls : List Call) :
    Left maxStreams.toNat (current calls) (run self calls) := by
  induction calls using List.reverseRecOn with
  | nil => exact left_of_init h
  | append_singleton calls call ih =>
    rw [run_concat]
    cases call with
    | build subscriptions =>
      rw [current_build]
      exact ih.build
    | reconnect =>
      rw [current_reconnect]
      exact ih.reconnect
    | fresh symbol observedAt =>
      rw [current_fresh]
      exact ⟨ih.size, ih.registry, ih.generations⟩

theorem Left.covers {m : ℕ} {subscriptions : List MarketSubscription}
    (h : Left m subscriptions self) : Covers m subscriptions self.registry := by
  rw [h.registry]
  exact covers_registryOf (h.size ▸ self.positive)

/-- **The registry after any calls**: each of the last subscriptions is on one connection. -/
theorem registry_covers (h : init maxStreams queueSize = .ok self) (calls : List Call) :
    Covers maxStreams.toNat (current calls) (run self calls).registry :=
  (left_run h calls).covers

end Runs

end Run

/-- ASCII texts. -/
@[reducible] def asciiCase : CaseRuntime where
  lower s := String.ofList (s.toList.map Char.toLower)
  upper s := String.ofList (s.toList.map Char.toUpper)

/-- The first and the last have the same key. -/
def trades : List MarketSubscription :=
  [⟨"BTCUSDT", "trade", none⟩, ⟨"ETHUSDT", "trade", none⟩, ⟨"btcusdt", "trade", none⟩]

def narrow : MarketDataCoordinator := { maxStreamsPerConnection := 1, positive := by decide }

def rebuilt : List Call := [.build trades, .reconnect, .build trades, .reconnect]

section

attribute [local instance] asciiCase

theorem registry_covers_rebuilt : Covers 1 (current rebuilt) (run narrow rebuilt).registry :=
  registry_covers (show init 1 8 = .ok narrow from rfl) rebuilt

end

section Plans

variable [CaseRuntime] {maxStreams queueSize : ℤ} {self : MarketDataCoordinator}
  {calls : List Call}

/-- **The plans after any calls**: a reconnect returns one for each connection, and all of them
together name every key once. -/
theorem plans_complete (h : init maxStreams queueSize = .ok self) (calls : List Call) :
    ∃ plans, (run self calls).reconnectResubscribeAll.1 = .ok plans ∧
      (plans.map (·.1)).Perm ((run self calls).registry.map (·.1)) ∧
      (plans.flatMap (·.2)).Nodup ∧
      ∀ k, k ∈ plans.flatMap (·.2) ↔ ∃ s ∈ current calls, s.key = k := by
  have hleft := left_run h calls
  have hcovers := hleft.covers
  obtain ⟨generations, hreconnect, -⟩ := reconnect_spec hleft
  rw [hleft.registry] at hcovers ⊢
  refine ⟨_, congrArg Prod.fst hreconnect, ?_, ?_, fun k => ?_⟩
  · refine (perm_plans.map _).trans (List.Perm.of_eq ?_)
    rw [List.map_map]
    rfl
  · rw [perm_keys.nodup_iff]
    exact List.pairwise_map.mpr (hcovers.increasing.imp fun hlt => hlt.ne)
  · rw [perm_keys.mem_iff, List.mem_map]
    constructor
    · rintro ⟨s, hs, rfl⟩
      obtain ⟨before, after, heq, -⟩ := (hcovers.carried s).mp hs
      exact ⟨s, by simp [heq], rfl⟩
    · rintro ⟨s, hs, rfl⟩
      obtain ⟨last, hlast, hkey⟩ := exists_isLast hs
      exact ⟨last, (hcovers.carried last).mpr hlast, hkey⟩

end Plans

section

attribute [local instance] asciiCase

theorem plans_complete_rebuilt :
    ∃ plans, (run narrow rebuilt).reconnectResubscribeAll.1 = .ok plans ∧
      (plans.flatMap (·.2)).Nodup := by
  obtain ⟨plans, hplans, -, hnodup, -⟩ :=
    plans_complete (show init 1 8 = .ok narrow from rfl) rebuilt
  exact ⟨plans, hplans, hnodup⟩

end

section Generations

variable [CaseRuntime] {maxStreams queueSize : ℤ} {self : MarketDataCoordinator}
  {calls : List Call}

def Call.isReconnect : Call → Bool
  | .reconnect => true
  | _ => false

/-- The connection comes in with a registry that the one before lacks it in, and stays. -/
structure Enters (m : ℕ) (id : String) (before : List Call) (entering : List MarketSubscription)
    (after : List Call) : Prop where
  absent : id ∉ idsOf m (current before)
  enters : id ∈ idsOf m entering
  stays : ∀ subscriptions, .build subscriptions ∈ after → id ∈ idsOf m subscriptions

variable {id : String} {before after : List Call} {entering : List MarketSubscription}

theorem generation_of_enters (h : init maxStreams queueSize = .ok self)
    (henters : Enters maxStreams.toNat id before entering after) :
    (run self (before ++ .build entering :: after)).connectionGeneration.lookup id =
      some (after.countP Call.isReconnect) := by
  induction after using List.reverseRecOn with
  | nil =>
    rw [run_concat, generation_build (left_run h before), if_pos henters.enters,
      ((left_run h before).generations id).mpr henters.absent]
    rfl
  | append_singleton after call ih =>
    have hafter : Enters maxStreams.toNat id before entering after :=
      ⟨henters.absent, henters.enters, fun s hs => henters.stays s (by simp [hs])⟩
    have hrun := ih hafter
    have hleft := left_run h (before ++ .build entering :: after)
    rw [← List.cons_append, ← List.append_assoc, run_concat, List.countP_append]
    cases call with
    | build subscriptions =>
      rw [generation_build hleft, if_pos (henters.stays subscriptions (by simp)), hrun]
      rfl
    | reconnect =>
      rw [generation_reconnect hleft, hrun]
      rfl
    | fresh symbol observedAt => exact hrun

theorem Enters.concat {m : ℕ} {call : Call} (h : Enters m id before entering after)
    (hcall : ∀ s, call = .build s → id ∈ idsOf m s) :
    Enters m id before entering (after ++ [call]) := by
  refine ⟨h.absent, h.enters, fun s hs => ?_⟩
  rcases List.mem_append.mp hs with hs | hs
  · exact h.stays s hs
  · exact hcall s (List.mem_singleton.mp hs).symm

theorem exists_enters {m : ℕ} (hm : 0 < m) (hid : id ∈ idsOf m (current calls)) :
    ∃ before entering after, calls = before ++ .build entering :: after ∧
      Enters m id before entering after := by
  induction calls using List.reverseRecOn with
  | nil => simp [idsOf, registryOf_nil hm] at hid
  | append_singleton calls call ih =>
    by_cases hbefore : id ∈ idsOf m (current calls)
    · obtain ⟨before, entering, after, rfl, henters⟩ := ih hbefore
      refine ⟨before, entering, after ++ [call], by simp, henters.concat ?_⟩
      rintro s rfl
      rwa [current_build] at hid
    · cases call with
      | build s =>
        rw [current_build] at hid
        exact ⟨calls, s, [], rfl, hbefore, hid, nofun⟩
      | reconnect => exact absurd (current_reconnect calls ▸ hid) hbefore
      | fresh symbol observedAt => exact absurd (current_fresh calls _ _ ▸ hid) hbefore

/-- **The generation of a connection** is the number of reconnects since it has last come in. -/
theorem generation_iff (h : init maxStreams queueSize = .ok self) {n : ℕ} :
    (run self calls).connectionGeneration.lookup id = some n ↔
      ∃ before entering after, calls = before ++ .build entering :: after ∧
        Enters maxStreams.toNat id before entering after ∧ after.countP Call.isReconnect = n := by
  have hleft := left_run h calls
  constructor
  · intro hlookup
    have hid : id ∈ idsOf maxStreams.toNat (current calls) := by
      by_contra hid
      exact nomatch ((hleft.generations id).mpr hid).symm.trans hlookup
    obtain ⟨before, entering, after, rfl, henters⟩ :=
      exists_enters (hleft.size ▸ (run self calls).positive) hid
    have hgeneration := generation_of_enters h henters
    exact ⟨before, entering, after, rfl, henters,
      Option.some.inj (hgeneration.symm.trans hlookup)⟩
  · rintro ⟨before, entering, after, rfl, henters, rfl⟩
    exact generation_of_enters h henters

end Generations

section

attribute [local instance] asciiCase

theorem generation_iff_rebuilt :
    (run narrow rebuilt).connectionGeneration.lookup "market-2" = some 2 := by
  refine (generation_iff (show init 1 8 = .ok narrow from rfl)).mpr
    ⟨[], trades, [.reconnect, .build trades, .reconnect], rfl, ⟨by decide, by decide, ?_⟩, rfl⟩
  intro subscriptions h
  simp only [List.mem_cons, Call.build.injEq, reduceCtorEq, List.not_mem_nil, or_false, false_or]
    at h
  rw [h]
  decide

end

section Coverage

variable [CaseRuntime] {maxStreams queueSize : ℤ} {self : MarketDataCoordinator}
  {calls : List Call}

omit [CaseRuntime] in
theorem sort_filter_eq_nil_iff {l l' : List String} :
    (l.filter (· ∉ l')).insertionSort (· ≤ ·) = [] ↔ ∀ x ∈ l, x ∈ l' := by
  rw [← List.length_eq_zero_iff, List.length_insertionSort, List.length_eq_zero_iff,
    List.filter_eq_nil_iff]
  simp

/-- **The coverage after any calls**: it is that of the last subscriptions, one for each key. -/
theorem coverage_iff (h : init maxStreams queueSize = .ok self) {symbols : List String} :
    (run self calls).validateSubscriptionCoverage symbols = .ok true ↔
      ∀ symbol, symbol ∈ symbols.map CaseRuntime.upper ↔
        ∃ s, IsLast (current calls) s ∧ CaseRuntime.upper s.symbol = symbol := by
  have hactual : ∀ symbol, symbol ∈ (run self calls).registeredSymbols ↔
      ∃ s, IsLast (current calls) s ∧ CaseRuntime.upper s.symbol = symbol := by
    intro symbol
    simp only [← (left_run h calls).covers.carried, MarketDataCoordinator.registeredSymbols,
      List.mem_dedup, List.mem_flatMap, List.mem_map]
    constructor
    · rintro ⟨c, hc, s, hs, rfl⟩
      exact ⟨s, ⟨c, hc, hs⟩, rfl⟩
    · rintro ⟨s, ⟨c, hc, hs⟩, rfl⟩
      exact ⟨c, hc, s, hs, rfl⟩
  simp only [← hactual]
  unfold MarketDataCoordinator.validateSubscriptionCoverage
  dsimp only
  split
  · rename_i hdifferent
    rw [Ne, sort_filter_eq_nil_iff, Ne, sort_filter_eq_nil_iff] at hdifferent
    simp only [List.mem_dedup] at hdifferent
    refine iff_of_false nofun fun hsame => ?_
    rcases hdifferent with hmissing | hunexpected
    · exact hmissing fun symbol => (hsame symbol).mp
    · exact hunexpected fun symbol => (hsame symbol).mpr
  · rename_i hsame
    rw [not_or, not_not, not_not, sort_filter_eq_nil_iff, sort_filter_eq_nil_iff] at hsame
    simp only [List.mem_dedup] at hsame
    exact iff_of_true rfl fun symbol => ⟨hsame.1 symbol, hsame.2 symbol⟩

end Coverage

section

attribute [local instance] asciiCase

theorem coverage_iff_rebuilt :
    (run narrow rebuilt).validateSubscriptionCoverage ["ethusdt", "btcusdt"] = .ok true := by
  refine (coverage_iff (show init 1 8 = .ok narrow from rfl)).mpr fun symbol => ?_
  have hlast : ∀ s, IsLast (current rebuilt) s ↔ s ∈ (registryOf 1 trades).flatMap (·.2) :=
    fun s => ((covers_registryOf (m := 1) (by decide)).carried s).symm
  simp only [hlast]
  constructor
  · intro h
    simp only [List.map_cons, List.map_nil, List.mem_cons, List.not_mem_nil, or_false] at h
    rcases h with rfl | rfl
    · exact ⟨⟨"ETHUSDT", "trade", none⟩, by decide⟩
    · exact ⟨⟨"btcusdt", "trade", none⟩, by decide⟩
  · rintro ⟨s, hs, rfl⟩
    revert s
    decide

end

section Freshness

variable [CaseRuntime] {maxStreams queueSize : ℤ} {self : MarketDataCoordinator}
  {calls : List Call}

/-- When a symbol was last marked as fresh. -/
def lastFresh (calls : List Call) (symbol : String) : Option ℚ :=
  (calls.filterMap fun
    | .fresh s observedAt => if CaseRuntime.upper s = symbol then some observedAt else none
    | _ => none).getLast?

theorem lookup_freshness (h : init maxStreams queueSize = .ok self) (symbol : String) :
    (run self calls).freshness.lookup symbol = lastFresh calls symbol := by
  induction calls using List.reverseRecOn with
  | nil =>
    unfold init at h
    split at h
    · exact nomatch h
    · obtain rfl := Except.ok.inj h
      rfl
  | append_singleton calls call ih =>
    rw [run_concat, lastFresh, List.filterMap_append]
    cases call with
    | build subscriptions =>
      change (run self calls).freshness.lookup symbol = _
      simpa [lastFresh] using ih
    | reconnect =>
      obtain ⟨generations, hreconnect, -⟩ := reconnect_spec (left_run h calls)
      rw [step, hreconnect]
      simpa [lastFresh] using ih
    | fresh s observedAt =>
      by_cases hs : CaseRuntime.upper s = symbol
      · subst hs
        simp [step, MarketDataCoordinator.markSymbolFresh]
      · rw [step, MarketDataCoordinator.markSymbolFresh, AList.lookup_insert_ne (Ne.symm hs), ih]
        simp [lastFresh, hs]

/-- **Stale after any calls** are the symbols whose last mark is too old. -/
theorem mem_staleSymbols_iff (h : init maxStreams queueSize = .ok self) {now maxAge : ℚ}
    (hage : 0 < maxAge) :
    ∃ stale, (run self calls).staleSymbols now maxAge = .ok stale ∧
      ∀ symbol, symbol ∈ stale ↔ ∃ t, lastFresh calls symbol = some t ∧ maxAge < now - t := by
  refine ⟨_, if_neg (not_le.mpr hage), fun symbol => ?_⟩
  rw [List.mem_filter, ← AList.mem_keys, ← AList.lookup_isSome, lookup_freshness h,
    Option.any_eq_true]
  constructor
  · rintro ⟨-, t, ht, hold⟩
    exact ⟨t, ht, of_decide_eq_true hold⟩
  · rintro ⟨t, ht, hold⟩
    exact ⟨by rw [ht]; rfl, t, ht, decide_eq_true hold⟩

end Freshness

/-! ## 6. Sequence numbers -/

/-- The guard of `data/envelope.py`, with the last sequence number of each stream. -/
structure SequenceGuard where
  last : Table String ℤ := ∅

namespace SequenceGuard

def observe (self : SequenceGuard) (streamKey : String) (sequence : ℤ) :
    Except Exc Unit × SequenceGuard :=
  if sequence < 0 then (.error (.valueError "sequence must be non-negative"), self)
  else
    match self.last.lookup streamKey with
    | some previous =>
      if sequence = previous then (.error (.valueError "duplicate market-data sequence"), self)
      else if sequence < previous then
        (.error (.valueError "out-of-order market-data sequence"), self)
      else (.ok (), ⟨self.last.insert streamKey sequence⟩)
    | none => (.ok (), ⟨self.last.insert streamKey sequence⟩)

/-- What has been observed, stream by stream and in any order of the streams. -/
def after (observed : List (String × ℤ)) : SequenceGuard :=
  observed.foldl (fun guard o => (guard.observe o.1 o.2).2) {}

/-- The sequence numbers of a stream that can be any. -/
def numbers (observed : List (String × ℤ)) (streamKey : String) : List ℤ :=
  (observed.filter fun o => o.1 = streamKey ∧ 0 ≤ o.2).map (·.2)

theorem mem_numbers {observed : List (String × ℤ)} {streamKey : String} {n : ℤ} :
    n ∈ numbers observed streamKey ↔ (streamKey, n) ∈ observed ∧ 0 ≤ n := by
  simp only [numbers, List.mem_map, List.mem_filter, decide_eq_true_eq]
  grind

/-- **The guard marks the highest** of them. -/
theorem marks_after (observed : List (String × ℤ)) :
    Marks (after observed).last (numbers observed) := by
  induction observed using List.reverseRecOn with
  | nil => exact Marks.empty
  | append_singleton observed o ih =>
    obtain ⟨streamKey, sequence⟩ := o
    rw [after, List.foldl_append]
    change Marks ((after observed).observe streamKey sequence).2.last _
    have hother : ∀ k, k ≠ streamKey →
        numbers (observed ++ [(streamKey, sequence)]) k = numbers observed k := fun k hk => by
      simp [numbers, hk.symm]
    unfold observe
    split
    · rename_i hnegative
      refine ih.congr fun k => ?_
      simp [numbers, hnegative]
    · rename_i hany
      have hself : numbers (observed ++ [(streamKey, sequence)]) streamKey =
          numbers observed streamKey ++ [sequence] := by
        simp [numbers, not_lt.mp hany]
      cases hlast : (after observed).last.lookup streamKey with
      | none => exact ih.insert (by simp [hlast]) hself hother
      | some previous =>
        dsimp only
        split
        · rename_i hduplicate
          exact ih.skip hlast hduplicate.le hself hother
        · split
          · rename_i hlow
            exact ih.skip hlast hlow.le hself hother
          · rename_i hhigh
            refine ih.insert (fun m hm => ?_) hself hother
            obtain rfl := Option.some.inj (hlast.symm.trans hm)
            exact not_lt.mp hhigh

/-- **What passes**: a number that is higher than all before it in its stream.  What is sent in
other streams does not count, and neither does what has been refused as negative. -/
theorem observe_ok_iff {observed : List (String × ℤ)} {streamKey : String} {sequence : ℤ} :
    ((after observed).observe streamKey sequence).1 = .ok () ↔
      0 ≤ sequence ∧ ∀ n, (streamKey, n) ∈ observed → n < sequence := by
  have hmarks := marks_after observed
  unfold observe
  split
  · rename_i hnegative
    simp [not_le.mpr hnegative]
  · rename_i hany
    have hbefore : (∀ n, (streamKey, n) ∈ observed → n < sequence) ↔
        ∀ n ∈ numbers observed streamKey, n < sequence := by
      simp only [mem_numbers]
      constructor
      · exact fun h n hn => h n hn.1
      · intro h n hn
        by_cases h0 : 0 ≤ n
        · exact h n ⟨hn, h0⟩
        · omega
    rw [hbefore]
    cases hlast : (after observed).last.lookup streamKey with
    | none => simp [hmarks.lookup_eq_none.mp hlast, not_lt.mp hany]
    | some previous =>
      rw [← hmarks.above_iff hlast]
      dsimp only
      split
      · rename_i hduplicate
        simp [hduplicate]
      · split
        · rename_i hlow
          simp [hlow.le]
        · simp
          omega

end SequenceGuard

end Kripto.Data.Coordinator
