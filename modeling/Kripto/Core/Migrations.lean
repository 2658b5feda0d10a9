/-
# Migrations of configurations and events

`core/config_compat.py` and `core/event_schema.py`.  A registry knows how to get from a version to
the next one; a configuration is brought to the version of the registry, an event to the first
version that nothing leads on from.

* `migrate_migrated`: what an older release has migrated, a newer one brings to the configuration
  that it makes of the original;
* `migrateToLatest_stored`: an event that has been migrated and stored is, whatever is registered
  afterwards, migrated as the original is.

A migration is a function: what it returns or raises depends on its argument alone.
-/
import Kripto.Effect.Totals
import Kripto.Effect.Upgrades
import Kripto.Python.Json

namespace Kripto.Core

open Effect Python

/-! ## 1. Configurations -/

namespace ConfigCompat

inductive Exc
  | valueError (msg : String)
  | dumpError (e : DumpError)
  | raised (what : String)

/-- `int(v)`. -/
class IntRuntime where
  int : PyValue → Except Exc ℤ
  int_int : ∀ n, int (.int n) = .ok n

def SCHEMA_VERSION : Key := .str (Text.of "schema_version")

/-- `d[key] = v`. -/
def setItem (key : Key) (v : PyValue) : Dict → Dict
  | [] => [(key, v)]
  | e :: d => if e.1 = key then (key, v) :: d else e :: setItem key v d

structure Migration where
  targetVersion : ℤ
  name : String
  migration : Dict → Except Exc Dict

/-- Every migration that is registered leads to the next version. -/
structure ConfigCompatibilityRegistry where
  currentVersion : ℤ
  migrations : Table ℤ Migration
  positive : 1 ≤ currentVersion
  sequential : ∀ v m, migrations.lookup v = some m → m.targetVersion = v + 1

structure ConfigMigrationResult where
  sourceVersion : ℤ
  targetVersion : ℤ
  config : Dict
  configHash : String
  appliedMigrations : List String

def init (currentVersion : ℤ) : Except Exc ConfigCompatibilityRegistry :=
  if h : currentVersion < 1 then .error (.valueError "current_version must be >= 1")
  else .ok { currentVersion, migrations := ∅, positive := not_lt.mp h, sequential := nofun }

namespace ConfigCompatibilityRegistry

variable (self : ConfigCompatibilityRegistry)

def register (sourceVersion : ℤ) (m : Migration) : Except Exc ConfigCompatibilityRegistry :=
  if htarget : m.targetVersion ≠ sourceVersion + 1 then
    .error (.valueError "config migrations must be sequential")
  else if (self.migrations.lookup sourceVersion).isSome then
    .error (.valueError "duplicate source version migration")
  else .ok {
    self with
    migrations := self.migrations.insert sourceVersion m
    sequential := by
      intro v m' h
      by_cases hv : v = sourceVersion
      · subst hv
        rw [AList.lookup_insert] at h
        obtain rfl := Option.some.inj h
        exact not_not.mp htarget
      · rw [AList.lookup_insert_ne hv] at h
        exact self.sequential v m' h }

/-- The loop. -/
def migrateLoop (version : ℤ) (config : Dict) (applied : List String) :
    Except Exc (ℤ × Dict × List String) :=
  if _hversion : version < self.currentVersion then
    match _hstep : self.migrations.lookup version with
    | none => .error (.valueError ("missing config migration from version " ++ toString version))
    | some step =>
      match step.migration config with
      | .error e => .error e
      | .ok config =>
        migrateLoop step.targetVersion
          (setItem SCHEMA_VERSION (.int step.targetVersion) config) (applied ++ [step.name])
  else .ok (version, config, applied)
termination_by (self.currentVersion - version).toNat
decreasing_by
  have hnext := self.sequential version step _hstep
  omega

variable [IntRuntime] [Hashlib]

def configHash (config : Dict) : Except Exc String :=
  match (PyValue.dict config).bytes { ensureAscii := false } with
  | .ok encoded => .ok (Hashlib.sha256 encoded)
  | .error e => .error (.dumpError e)

def migrate (raw : Dict) : Except Exc ConfigMigrationResult :=
  match raw.lookup SCHEMA_VERSION with
  | none => .error (.valueError "schema_version is required")
  | some schemaVersion => do
    let source ← IntRuntime.int schemaVersion
    if self.currentVersion < source then
      .error (.valueError "future config schema is not supported")
    else
      let (version, config, applied) ← self.migrateLoop source raw []
      return ⟨source, version, config, ← configHash config, applied⟩

end ConfigCompatibilityRegistry

/-! ## 2. Migrated twice -/

theorem lookup_setItem (key : Key) (v : PyValue) (d : Dict) :
    (setItem key v d).lookup key = some v := by
  induction d with
  | nil => simp [setItem]
  | cons e d ih =>
    by_cases hkey : e.1 = key
    · simp [setItem, hkey]
    · have hne : (key == e.1) = false := beq_eq_false_iff_ne.mpr (Ne.symm hkey)
      rw [setItem, if_neg hkey, List.lookup_cons, hne, ih]

variable {registry registry' : ConfigCompatibilityRegistry} {version : ℤ} {config : Dict}
  {applied applied' : List String}

namespace ConfigCompatibilityRegistry

/-- A turn of the loop, as a step; a missing migration raises. -/
def next (self : ConfigCompatibilityRegistry) (version : ℤ) :
    Option (Upgrade ℤ (Dict × List String) Exc) :=
  if version < self.currentVersion then
    match self.migrations.lookup version with
    | none => some ⟨version + 1, fun _ =>
        .error (.valueError ("missing config migration from version " ++ toString version))⟩
    | some step => some ⟨step.targetVersion, fun c => do
        let config ← step.migration c.1
        return (setItem SCHEMA_VERSION (.int step.targetVersion) config, c.2 ++ [step.name])⟩
  else none

theorem upgrades_migrateLoop (version : ℤ) (config : Dict) (applied : List String) :
    Upgrades registry.next version (config, applied)
      (registry.migrateLoop version config applied) := by
  fun_induction migrateLoop registry version config applied with
  | case1 version config applied hversion hlookup =>
    exact .raised (by rw [next, if_pos hversion, hlookup]) rfl
  | case2 version config applied hversion step hlookup e happly =>
    exact .raised (by rw [next, if_pos hversion, hlookup]) (by simp [happly])
  | case3 version config applied hversion step hlookup config' happly ih =>
    exact .step (by rw [next, if_pos hversion, hlookup]) (by simp [happly]; rfl) ih
  | case4 version config applied hversion =>
    exact .done (by rw [next, if_neg hversion])

/-- The names of what has been applied before are kept. -/
theorem migrateLoop_append (version : ℤ) (config : Dict) (before applied : List String) :
    registry.migrateLoop version config (before ++ applied) =
      (registry.migrateLoop version config applied).map
        fun c => (c.1, c.2.1, before ++ c.2.2) := by
  fun_induction migrateLoop registry version config applied with
  | case1 version config applied hversion hlookup =>
    rw [migrateLoop, dif_pos hversion]
    split
    · rfl
    · rename_i hstep
      exact nomatch hlookup.symm.trans hstep
  | case2 version config applied hversion step hlookup e happly =>
    rw [migrateLoop, dif_pos hversion]
    split
    · rename_i hnone
      exact nomatch hlookup.symm.trans hnone
    · rename_i step' hstep
      obtain rfl := Option.some.inj (hlookup.symm.trans hstep)
      rw [happly]
      rfl
  | case3 version config applied hversion step hlookup config' happly ih =>
    rw [migrateLoop, dif_pos hversion]
    split
    · rename_i hnone
      exact nomatch hlookup.symm.trans hnone
    · rename_i step' hstep
      obtain rfl := Option.some.inj (hlookup.symm.trans hstep)
      rw [happly]
      dsimp only
      rw [List.append_assoc, ih]
  | case4 version config applied hversion =>
    rw [migrateLoop, dif_neg hversion]
    rfl

/-- What a configuration is when the loop is left. -/
theorem migrateLoop_spec {c : ℤ × Dict × List String} (hversion : version ≤ registry.currentVersion)
    (h : registry.migrateLoop version config applied = .ok c) :
    c.1 = registry.currentVersion ∧
      (c = (version, config, applied) ∨ c.2.1.lookup SCHEMA_VERSION = some (.int c.1)) := by
  fun_induction migrateLoop registry version config applied with
  | case1 version config applied hversion hlookup => cases h
  | case2 version config applied hversion step hlookup e happly => cases h
  | case3 version config applied hversion' step hlookup config' happly ih =>
    have hnext := registry.sequential version step hlookup
    obtain ⟨hcurrent, rfl | hlast⟩ := ih (by omega) h
    · exact ⟨hcurrent, .inr (lookup_setItem _ _ _)⟩
    · exact ⟨hcurrent, .inr hlast⟩
  | case4 version config applied hversion' =>
    obtain rfl := Except.ok.inj h
    exact ⟨by omega, .inl rfl⟩

/-- `registry'` is of a later release. -/
structure Older (registry registry' : ConfigCompatibilityRegistry) : Prop where
  currentVersion : registry.currentVersion ≤ registry'.currentVersion
  migrations : ∀ v m, v < registry.currentVersion → registry.migrations.lookup v = some m →
    registry'.migrations.lookup v = some m

theorem Older.extends (h : Older registry registry') : Extends registry.next registry'.next := by
  intro v u a b hsome happly
  unfold next at hsome
  split at hsome
  · rename_i hversion
    have hversion' : v < registry'.currentVersion := by
      have := h.currentVersion
      omega
    cases hlookup : registry.migrations.lookup v with
    | none =>
      rw [hlookup] at hsome
      cases hsome
      cases happly
    | some step =>
      rw [hlookup] at hsome
      obtain rfl := Option.some.inj hsome
      refine ⟨_, ?_, happly, rfl⟩
      rw [next, if_pos hversion', h.migrations v step hversion hlookup]
  · cases hsome

/-- The loop of a later release goes on from where the loop of an older one has been left. -/
theorem Older.migrateLoop_eq (hold : Older registry registry') {version' : ℤ} {config' : Dict}
    (h : registry.migrateLoop version config applied = .ok (version', config', applied')) :
    registry'.migrateLoop version config applied =
      (registry'.migrateLoop version' config' []).map fun c => (c.1, c.2.1, applied' ++ c.2.2) := by
  have hreturned := h ▸ upgrades_migrateLoop version config applied
  have hlater := @upgrades_migrateLoop registry' version config applied
  rw [← upgrades_iff_of_returned hold.extends hreturned] at hlater
  rw [hlater.unique (upgrades_migrateLoop version' config' applied'), ← migrateLoop_append,
    List.append_nil]

variable [IntRuntime] [Hashlib]

omit [Hashlib] in
/-- The version that stands in a configuration when the loop is left. -/
theorem int_schemaVersion {raw : Dict} {schemaVersion : PyValue} {source : ℤ}
    (hraw : raw.lookup SCHEMA_VERSION = some schemaVersion)
    (hsource : IntRuntime.int schemaVersion = .ok source) (hpast : source ≤ registry.currentVersion)
    (h : registry.migrateLoop source raw applied = .ok (version, config, applied')) :
    version = registry.currentVersion ∧ ∃ v, config.lookup SCHEMA_VERSION = some v ∧
      IntRuntime.int v = .ok version := by
  obtain ⟨hcurrent, heq | hlast⟩ := migrateLoop_spec hpast h
  · cases heq
    exact ⟨hcurrent, schemaVersion, hraw, hsource⟩
  · exact ⟨hcurrent, _, hlast, IntRuntime.int_int _⟩

/-- What `migrate` does, once the version of the configuration is known. -/
theorem migrate_of_version {raw : Dict} {schemaVersion : PyValue} {source : ℤ}
    (hraw : raw.lookup SCHEMA_VERSION = some schemaVersion)
    (hsource : IntRuntime.int schemaVersion = .ok source)
    (hpast : source ≤ registry.currentVersion) :
    registry.migrate raw = registry.migrateLoop source raw [] >>= fun c => do
      return ⟨source, c.1, c.2.1, ← configHash c.2.1, c.2.2⟩ := by
  rw [migrate, hraw]
  dsimp only
  rw [hsource, ok_bind, if_neg (not_lt.mpr hpast)]

/-- **Migrated by an older release**, a configuration becomes what it would have become at once. -/
theorem migrate_migrated {raw : Dict} {result : ConfigMigrationResult}
    (hold : Older registry registry') (h : registry.migrate raw = .ok result) :
    registry'.migrate raw = (registry'.migrate result.config).map fun result' =>
      { result' with
        sourceVersion := result.sourceVersion
        appliedMigrations := result.appliedMigrations ++ result'.appliedMigrations } := by
  unfold migrate at h
  cases hlookup : raw.lookup SCHEMA_VERSION with
  | none => simp [hlookup] at h
  | some schemaVersion =>
    simp only [hlookup, bind_eq_ok_iff] at h
    obtain ⟨source, hsource, h⟩ := h
    split at h
    · cases h
    · rename_i hpast
      simp only [bind_eq_ok_iff, pure_eq_ok, Except.ok.injEq] at h
      obtain ⟨⟨version, config, applied⟩, hloop, hash, hhash, rfl⟩ := h
      have hpast := not_lt.mp hpast
      obtain ⟨hcurrent, schemaVersion', hschema, hversion⟩ :=
        int_schemaVersion hlookup hsource hpast hloop
      have hlater := hold.currentVersion
      dsimp only
      rw [migrate_of_version hlookup hsource (hpast.trans hlater),
        migrate_of_version hschema hversion (by omega), hold.migrateLoop_eq hloop]
      cases registry'.migrateLoop version config [] with
      | error e => rfl
      | ok c =>
        simp only [Except.map, ok_bind]
        cases configHash c.2.1 with
        | error e => rfl
        | ok hash => rfl

end ConfigCompatibilityRegistry

section Example

/-- Versions are integers. -/
@[reducible] def integers : IntRuntime where
  int
    | .int n => .ok n
    | _ => .error (.raised "TypeError")
  int_int _ := rfl

attribute [local instance] integers beginnings

def renameRisk : Migration := ⟨2, "rename-risk", fun _ => .ok [(.str (Text.of "risk"), .none)]⟩

def addMode : Migration :=
  ⟨3, "add-mode", fun config => .ok (config ++ [(.str (Text.of "mode"), .none)])⟩

def second : ConfigCompatibilityRegistry where
  currentVersion := 2
  migrations := AList.insert 1 renameRisk ∅
  positive := by decide
  sequential v m h := by
    by_cases hv : v = 1
    · subst hv
      cases h
      rfl
    · rw [AList.lookup_insert_ne hv] at h
      cases h

def third : ConfigCompatibilityRegistry where
  currentVersion := 3
  migrations := second.migrations.insert 2 addMode
  positive := by decide
  sequential v m h := by
    by_cases hv : v = 2
    · subst hv
      cases h
      rfl
    · rw [AList.lookup_insert_ne hv] at h
      exact second.sequential v m h

open ConfigCompatibilityRegistry

theorem older_third : Older second third where
  currentVersion := by decide
  migrations v m hv h := by
    have hne : v ≠ 2 := hv.ne
    rw [third, AList.lookup_insert_ne hne, h]

def raw : Dict := [(SCHEMA_VERSION, .int 1)]

theorem migrate_migrated_third : ∃ result, second.migrate raw = .ok result ∧
    (third.migrate raw).map (·.config) = (third.migrate result.config).map (·.config) := by
  have hloop : second.migrateLoop 1 raw [] =
      .ok (2, [(.str (Text.of "risk"), .none), (SCHEMA_VERSION, .int 2)], ["rename-risk"]) :=
    (upgrades_migrateLoop 1 raw []).unique (.step rfl rfl (.done rfl))
  have hhash : ∃ hash, configHash
      [(.str (Text.of "risk"), .none), (SCHEMA_VERSION, .int 2)] = .ok hash := ⟨_, rfl⟩
  obtain ⟨hash, hhash⟩ := hhash
  have hsecond : ∃ result, second.migrate raw = .ok result := by
    rw [@migrate_of_version second _ _ raw (.int 1) 1 rfl rfl (by decide), hloop, ok_bind, hhash]
    exact ⟨_, rfl⟩
  obtain ⟨result, hresult⟩ := hsecond
  refine ⟨result, hresult, ?_⟩
  rw [migrate_migrated older_third hresult]
  cases third.migrate result.config <;> rfl

end Example

end ConfigCompat

/-! ## 3. Events -/

namespace Schemas

/-- A payload, by its fields. -/
abbrev Payload : Type := List (String × PyValue)

inductive Exc
  | valueError (msg : String)
  | eventSchemaError (msg : String)
  | eventMigrationRequired (msg : String)
  /-- `missing required fields: {sorted(missing)}` -/
  | missingRequiredFields (missing : Finset String)
  | raised (what : String)

structure EventSchema where
  eventType : String
  version : ℤ
  requiredFields : Finset String
  optionalFields : Finset String := ∅
  deriving DecidableEq

structure EventSchemaRegistry where
  schemas : Table (String × ℤ) EventSchema := ∅
  upcasters : Table (String × ℤ) (Payload → Except Exc Payload) := ∅

namespace EventSchemaRegistry

variable (self : EventSchemaRegistry)

def register (schema : EventSchema) : Except Exc Unit × EventSchemaRegistry :=
  let key := (schema.eventType, schema.version)
  if schema.version < 1 ∨ ¬Disjoint schema.requiredFields schema.optionalFields then
    (.error (.valueError "invalid event schema"), self)
  else
    let registered := { self with schemas := self.schemas.insert key schema }
    match self.schemas.lookup key with
    | none => (.ok (), registered)
    | some old =>
      if old ≠ schema then
        (.error (.eventSchemaError "schema version already registered with different semantics"),
          self)
      else (.ok (), registered)

def registerUpcaster (eventType : String) (fromVersion : ℤ) (fn : Payload → Except Exc Payload) :
    Except Exc Unit × EventSchemaRegistry :=
  if (self.upcasters.lookup (eventType, fromVersion)).isSome then
    (.error (.eventSchemaError "duplicate upcaster"), self)
  else (.ok (), { self with upcasters := self.upcasters.insert (eventType, fromVersion) fn })

def validate (eventType : String) (version : ℤ) (payload : Payload) : Except Exc Payload :=
  match self.schemas.lookup (eventType, version) with
  | none => .error (.eventMigrationRequired
      ("unknown schema " ++ eventType ++ "@" ++ toString version))
  | some schema =>
    let missing := schema.requiredFields \ (payload.map (·.1)).toFinset
    if missing ≠ ∅ then .error (.missingRequiredFields missing)
    else .ok payload

/-- How many upcasters there are from this version on. -/
def remaining (eventType : String) (version : ℤ) : ℕ :=
  (self.upcasters.keys.toFinset.filter fun k => k.1 = eventType ∧ version ≤ k.2).card

theorem remaining_lt {eventType : String} {version : ℤ}
    (h : (eventType, version) ∈ self.upcasters.keys) :
    self.remaining eventType (version + 1) < self.remaining eventType version := by
  refine Finset.card_lt_card (Finset.ssubset_iff_of_subset ?_ |>.mpr ?_)
  · intro k hk
    rw [Finset.mem_filter] at hk ⊢
    exact ⟨hk.1, hk.2.1, by omega⟩
  · refine ⟨(eventType, version), ?_, ?_⟩
    · simpa using h
    · simp

/-- The loop. -/
def upcastLoop (eventType : String) (version : ℤ) (payload : Payload) :
    Except Exc (ℤ × Payload) :=
  match _hfn : self.upcasters.lookup (eventType, version) with
  | none => .ok (version, payload)
  | some fn =>
    match fn payload with
    | .error e => .error e
    | .ok payload => upcastLoop eventType (version + 1) payload
termination_by self.remaining eventType version
decreasing_by
  exact self.remaining_lt (AList.mem_keys.mp (AList.lookup_isSome.mp (by rw [_hfn]; rfl)))

def migrateToLatest (eventType : String) (version : ℤ) (payload : Payload) :
    Except Exc (ℤ × Payload) := do
  let (curV, cur) ← self.upcastLoop eventType version payload
  let _ ← self.validate eventType curV cur
  return (curV, cur)

end EventSchemaRegistry

/-! ## 4. Stored and migrated later -/

/-- A call that registers something. -/
inductive Call
  | register (schema : EventSchema)
  | registerUpcaster (eventType : String) (fromVersion : ℤ) (fn : Payload → Except Exc Payload)

namespace EventSchemaRegistry

/-- What a call leaves, returned or raised. -/
def step (self : EventSchemaRegistry) : Call → EventSchemaRegistry
  | .register schema => (self.register schema).2
  | .registerUpcaster eventType fromVersion fn => (self.registerUpcaster eventType fromVersion fn).2

def run (calls : List Call) : EventSchemaRegistry := calls.foldl step {}

variable {self self' : EventSchemaRegistry} {eventType : String} {version : ℤ}
  {k : String × ℤ} {fn : Payload → Except Exc Payload}

/-- What has been registered as an upcaster stays. -/
theorem lookup_step (call : Call) (h : self.upcasters.lookup k = some fn) :
    (self.step call).upcasters.lookup k = some fn := by
  cases call with
  | register schema =>
    rw [step, register]
    split_ifs
    · exact h
    · dsimp only
      split
      · exact h
      · split_ifs <;> exact h
  | registerUpcaster eventType fromVersion fn' =>
    rw [step, registerUpcaster]
    split_ifs with hdup
    · exact h
    · have hne : k ≠ (eventType, fromVersion) := by
        rintro rfl
        rw [h] at hdup
        exact hdup rfl
      exact (AList.lookup_insert_ne hne).trans h

theorem lookup_run {before after : List Call}
    (h : (run before).upcasters.lookup k = some fn) :
    (run (before ++ after)).upcasters.lookup k = some fn := by
  rw [run, List.foldl_append]
  change (List.foldl step (run before) after).upcasters.lookup k = some fn
  induction after using List.reverseRecOn with
  | nil => exact h
  | append_singleton after call ih =>
    rw [List.foldl_append]
    exact lookup_step call ih

/-- A turn of the loop, as a step. -/
def next (self : EventSchemaRegistry) (eventType : String) (version : ℤ) :
    Option (Upgrade ℤ Payload Exc) :=
  (self.upcasters.lookup (eventType, version)).map fun fn => ⟨version + 1, fn⟩

theorem upgrades_upcastLoop (eventType : String) (version : ℤ) (payload : Payload) :
    Upgrades (self.next eventType) version payload (self.upcastLoop eventType version payload) := by
  fun_induction upcastLoop self eventType version payload with
  | case1 version payload hlookup => exact .done (by rw [next, hlookup]; rfl)
  | case2 version payload fn hlookup e happly =>
    exact .raised (by rw [next, hlookup]; rfl) happly
  | case3 version payload fn hlookup payload' happly ih =>
    exact .step (by rw [next, hlookup]; rfl) happly ih

theorem extends_next (h : ∀ k fn, self.upcasters.lookup k = some fn →
    self'.upcasters.lookup k = some fn) : Extends (self.next eventType) (self'.next eventType) := by
  intro v u a b hsome happly
  obtain ⟨fn, hlookup, rfl⟩ := Option.map_eq_some_iff.mp hsome
  exact ⟨_, by rw [next, h _ _ hlookup]; rfl, happly, rfl⟩

/-- **An event that has been migrated and stored** is migrated to what the original is migrated to,
whatever has been registered in between. -/
theorem migrateToLatest_stored {before after : List Call} {payload stored : Payload}
    {version' : ℤ}
    (h : (run before).migrateToLatest eventType version payload = .ok (version', stored)) :
    (run (before ++ after)).migrateToLatest eventType version' stored =
      (run (before ++ after)).migrateToLatest eventType version payload := by
  unfold migrateToLatest at h ⊢
  simp only [bind_eq_ok_iff, pure_eq_ok, Except.ok.injEq] at h
  obtain ⟨⟨_, _⟩, hloop, _, -, heq⟩ := h
  obtain ⟨rfl, rfl⟩ := Prod.mk.inj heq
  have hreturned := hloop ▸ upgrades_upcastLoop eventType version payload
  have hlater := @upgrades_upcastLoop (run (before ++ after)) eventType version payload
  have hext := @extends_next _ (run (before ++ after)) eventType
    fun k fn hlookup => @lookup_run k fn before after hlookup
  rw [← upgrades_iff_of_returned hext hreturned] at hlater
  rw [hlater.unique (upgrades_upcastLoop eventType _ _)]

end EventSchemaRegistry

/-- An order gets a client order id, and later a venue. -/
def before : List Call :=
  [.register { eventType := "order", version := 2, requiredFields := {"client_order_id"} },
    .registerUpcaster "order" 1 fun payload => .ok (payload ++ [("client_order_id", .none)])]

def after : List Call :=
  [.register { eventType := "order", version := 3, requiredFields := {"venue"} },
    .registerUpcaster "order" 2 fun payload => .ok (payload ++ [("venue", .none)])]

open EventSchemaRegistry in
theorem migrateToLatest_stored_order : ∃ stored,
    (run before).migrateToLatest "order" 1 [] = .ok (2, stored) ∧
      (run (before ++ after)).migrateToLatest "order" 2 stored =
        (run (before ++ after)).migrateToLatest "order" 1 [] := by
  have hstored : (run before).migrateToLatest "order" 1 [] =
      .ok (2, [("client_order_id", .none)]) := by
    have hloop : (run before).upcastLoop "order" 1 [] = .ok (2, [("client_order_id", .none)]) :=
      (upgrades_upcastLoop "order" 1 []).unique (.step rfl rfl (.done rfl))
    rw [migrateToLatest, hloop]
    rfl
  exact ⟨_, hstored, migrateToLatest_stored hstored⟩

end Schemas

end Kripto.Core
