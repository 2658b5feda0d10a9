/-
# Changes of a risk configuration

`risk/config_safety.py` compares two configurations key by key, and a change is called risk
increasing if a listed key has a greater value in the new one, both taken as floats.

* `assessChange_flags_iff`: where it is called so, and some limit is raised or not;
* `losses_not_flagged`: more consecutive losses are allowed without a flag.
-/
import Kripto.Effect.Outcome
import Kripto.Effect.Totals
import Kripto.Python.Rounding
import Kripto.Python.Json
import Kripto.Risk.Portfolio
import Mathlib.Data.String.Basic

namespace Kripto.Risk.ConfigSafety

open Effect Python

/-! ## 1. Values of a configuration -/

/-- A value.  A `Decimal` and a float come with their texts. -/
inductive ConfigValue
  | int (n : ℤ)
  | decimal (q : ℚ) (shown : Text)
  | float (q : ℚ) (repr : String)
  | object (v : PyValue)

/-- A float that is not finite, too. -/
inductive PyFloat
  | finite (q : ℚ)
  | infinite (negative : Bool)
  | nan

/-- `>`, which a `NaN` never is. -/
def PyFloat.gt : PyFloat → PyFloat → Bool
  | .finite q, .finite q' => q' < q
  | .finite _, .infinite negative => negative
  | .infinite negative, .finite _ => !negative
  | .infinite negative, .infinite negative' => !negative && negative'
  | _, _ => false

namespace ConfigValue

def number? : ConfigValue → Option ℚ
  | .int n => some n
  | .decimal q _ => some q
  | .float q _ => some q
  | .object _ => none

/-- What `json.dumps(.., default=str)` sees. -/
def json : ConfigValue → PyValue
  | .int n => .int n
  | .decimal _ shown => .other shown
  | .float _ repr => .float repr
  | .object v => v

end ConfigValue

/-- What the interpreter makes of values that are no numbers: `!=`, and `float(v)`. -/
class PyOther where
  ne : ConfigValue → ConfigValue → Bool
  float : PyValue → Option PyFloat

/-- A configuration: keys, and their values. -/
abbrev Config : Type := Table String ConfigValue

inductive ConfigError
  | overflowError
  | other
  | dump (e : DumpError)
  deriving DecidableEq

section

variable [PyOther]

namespace ConfigValue

/-- `float(v)`: an integer that is too large for one raises, a `Decimal` becomes infinite. -/
def toFloat : ConfigValue → Except ConfigError PyFloat
  | .int n =>
    if 2 ^ 1024 ≤ |binary64 n| then .error .overflowError else .ok (.finite (binary64 n))
  | .decimal q _ =>
    if 2 ^ 1024 ≤ |binary64 q| then .ok (.infinite (q < 0)) else .ok (.finite (binary64 q))
  | .float q _ => .ok (.finite q)
  | .object v =>
    match PyOther.float v with
    | some x => .ok x
    | none => .error .other

/-- `v != v'`.  Numbers are compared exactly. -/
def ne (v v' : ConfigValue) : Bool :=
  match v.number?, v'.number? with
  | some q, some q' => q ≠ q'
  | _, _ => PyOther.ne v v'

end ConfigValue

/-! ## 2. `risk/config_safety.py` -/

def riskIncreasingKeys : List String :=
  ["risk_per_trade", "max_daily_loss", "max_weekly_loss", "max_drawdown", "max_portfolio_exposure",
    "max_single_asset_exposure", "max_open_positions"]

structure ConfigChangeAssessment where
  riskIncreasing : Bool
  changedKeys : List String
  oldHash : String
  newHash : String

/-- `old.get(k)!=new.get(k)`. -/
def changed (old new : Config) (k : String) : Bool :=
  ((old.lookup k).getD (.object .none)).ne ((new.lookup k).getD (.object .none))

/-- `tuple(sorted(k for k in set(old)|set(new) if ..))`. -/
def changedKeys (old new : Config) : List String :=
  ((old.keys ∪ new.keys).filter fun k => changed old new k).insertionSort (· ≤ ·)

/-- `float(new.get(k,0))>float(old.get(k,0))`, and `True` if it raises. -/
def rises (old new : Config) (k : String) : Bool :=
  match ((new.lookup k).getD (.int 0)).toFloat, ((old.lookup k).getD (.int 0)).toFloat with
  | .ok x, .ok y => x.gt y
  | _, _ => true

variable [Hashlib]

def configHash (config : Config) : Except ConfigError String :=
  match PyValue.bytes { defaultStr := true }
      (.dict (config.entries.map fun e => (.str (Text.of e.1), e.2.json))) with
  | .ok raw => .ok (Hashlib.sha256 raw)
  | .error e => .error (.dump e)

def assessChange (old new : Config) : Except ConfigError ConfigChangeAssessment := do
  let increasing := (changedKeys old new).foldl (fun increasing k =>
    if k ∈ riskIncreasingKeys then increasing || rises old new k else increasing) false
  let oldHash ← configHash old
  let newHash ← configHash new
  return ⟨increasing, changedKeys old new, oldHash, newHash⟩

end

/-! ## 3. What is flagged -/

/-- Every limit is there, as a number. -/
def Complete (config : Config) (limits : RiskLimits) : Prop :=
  ∀ k q, limits.asdict.lookup k = some q → (config.lookup k).bind ConfigValue.number? = some q

theorem Complete.lookup {config : Config} {limits : RiskLimits} (h : Complete config limits)
    {k : String} {q : ℚ} (hq : limits.asdict.lookup k = some q) :
    ∃ v, config.lookup k = some v ∧ v.number? = some q :=
  Option.bind_eq_some_iff.mp (h k q hq)

/-- Every listed key is that of a limit. -/
theorem exists_lookup_asdict (limits : RiskLimits) {k : String} (hk : k ∈ riskIncreasingKeys) :
    ∃ q, limits.asdict.lookup k = some q := by
  simp only [riskIncreasingKeys, List.mem_cons, List.not_mem_nil, or_false] at hk
  rcases hk with rfl | rfl | rfl | rfl | rfl | rfl | rfl <;> exact ⟨_, rfl⟩

section

variable [PyOther] {old new : Config} {lo ln : RiskLimits} {a : ConfigChangeAssessment} {k : String}

/-- A listed key is changed when its limit is. -/
theorem changed_iff (hold : Complete old lo) (hnew : Complete new ln)
    (hk : k ∈ riskIncreasingKeys) :
    changed old new k = true ↔ lo.asdict.lookup k ≠ ln.asdict.lookup k := by
  obtain ⟨q, hq⟩ := exists_lookup_asdict lo hk
  obtain ⟨q', hq'⟩ := exists_lookup_asdict ln hk
  obtain ⟨v, hv, hnumber⟩ := hold.lookup hq
  obtain ⟨v', hv', hnumber'⟩ := hnew.lookup hq'
  simp [changed, hv, hv', ConfigValue.ne, hnumber, hnumber', hq, hq']

theorem mem_changedKeys :
    k ∈ changedKeys old new ↔ (k ∈ old.keys ∨ k ∈ new.keys) ∧ changed old new k = true := by
  simp [changedKeys]

omit [PyOther] in
theorem foldl_increasing (r : String → Bool) (ks : List String) (b : Bool) :
    ks.foldl (fun increasing k =>
      if k ∈ riskIncreasingKeys then increasing || r k else increasing) b = true ↔
        b = true ∨ ∃ k ∈ ks, k ∈ riskIncreasingKeys ∧ r k = true := by
  induction ks generalizing b with
  | nil => simp
  | cons k ks ih =>
    rw [List.foldl_cons, ih, List.exists_mem_cons_iff]
    by_cases hk : k ∈ riskIncreasingKeys
    · simp [hk, or_assoc]
    · simp [hk]

/-- **A change is flagged** if a listed limit is changed and rises. -/
theorem riskIncreasing_iff [Hashlib] (hold : Complete old lo) (hnew : Complete new ln)
    (h : assessChange old new = .ok a) :
    a.riskIncreasing = true ↔ ∃ k ∈ riskIncreasingKeys,
      lo.asdict.lookup k ≠ ln.asdict.lookup k ∧ rises old new k = true := by
  obtain ⟨oldHash, -, h⟩ := bind_eq_ok_iff.mp h
  obtain ⟨newHash, -, h⟩ := bind_eq_ok_iff.mp h
  obtain rfl := Except.ok.inj h
  rw [foldl_increasing]
  constructor
  · rintro (h | ⟨k, hk, hlisted, hrises⟩)
    · cases h
    · have hchanged := (mem_changedKeys.mp hk).2
      exact ⟨k, hlisted, (changed_iff hold hnew hlisted).mp hchanged, hrises⟩
  · rintro ⟨k, hlisted, hne, hrises⟩
    obtain ⟨q, hq⟩ := exists_lookup_asdict lo hlisted
    obtain ⟨v, hv, -⟩ := hold.lookup hq
    have hkey : k ∈ old.keys := by
      rw [← AList.mem_keys, ← AList.lookup_isSome, hv]
      rfl
    have hchanged := (changed_iff hold hnew hlisted).mpr hne
    exact .inr ⟨k, mem_changedKeys.mpr ⟨.inl hkey, hchanged⟩, hlisted, hrises⟩

end

/-- **A change that lets an account through is flagged** exactly if a listed limit is changed and
rises, or none of the limits that are read is raised. -/
theorem assessChange_flags_iff [PyOther] [Hashlib] (old new : Config) (lo ln : RiskLimits)
    (a : ConfigChangeAssessment) (hold : Complete old lo) (hnew : Complete new ln)
    (h : assessChange old new = .ok a) :
    ((∃ snapshot, validatePortfolio snapshot lo ≠ [] ∧ validatePortfolio snapshot ln = []) →
        a.riskIncreasing = true) ↔
      (∃ k ∈ riskIncreasingKeys,
        lo.asdict.lookup k ≠ ln.asdict.lookup k ∧ rises old new k = true) ∨
        ∀ m : Measure, m.limit ln ≤ m.limit lo := by
  rw [rejected_then_accepted_iff, riskIncreasing_iff hold hnew h]
  constructor
  · intro hflag
    by_cases hraised : ∃ m : Measure, m.limit lo < m.limit ln
    · exact .inl (hflag hraised)
    · exact .inr fun m => not_lt.mp fun hlt => hraised ⟨m, hlt⟩
  · rintro (hflag | hnone) ⟨m, hlt⟩
    · exact hflag
    · exact absurd hlt (not_lt.mpr (hnone m))

/-- The defaults, with a number of consecutive losses. -/
def defaults (losses : ℤ) : Config where
  entries := [⟨"risk_per_trade", .decimal (25 / 10000) (Text.of "0.0025")⟩,
    ⟨"max_daily_loss", .decimal (2 / 100) (Text.of "0.02")⟩,
    ⟨"max_weekly_loss", .decimal (5 / 100) (Text.of "0.05")⟩,
    ⟨"max_drawdown", .decimal (10 / 100) (Text.of "0.10")⟩,
    ⟨"max_portfolio_exposure", .decimal (50 / 100) (Text.of "0.50")⟩,
    ⟨"max_single_asset_exposure", .decimal (15 / 100) (Text.of "0.15")⟩,
    ⟨"max_quote_asset_exposure", .decimal (85 / 100) (Text.of "0.85")⟩,
    ⟨"max_volatility_adjusted_exposure", .decimal (60 / 100) (Text.of "0.60")⟩,
    ⟨"max_open_positions", .int 6⟩, ⟨"max_consecutive_losses", .int losses⟩]
  nodupKeys := by simp [List.NodupKeys, List.keys]

theorem complete_defaults (losses : ℤ) :
    Complete (defaults losses) { maxConsecutiveLosses := losses } := by
  intro k q hq
  have hmem := mem_of_lookup hq
  simp only [RiskLimits.asdict, List.mem_cons, List.not_mem_nil, or_false, Prod.mk.injEq] at hmem
  rcases hmem with ⟨rfl, rfl⟩ | ⟨rfl, rfl⟩ | ⟨rfl, rfl⟩ | ⟨rfl, rfl⟩ | ⟨rfl, rfl⟩ | ⟨rfl, rfl⟩ |
    ⟨rfl, rfl⟩ | ⟨rfl, rfl⟩ | ⟨rfl, rfl⟩ | ⟨rfl, rfl⟩ <;> rfl

set_option maxRecDepth 10000 in
theorem configHash_defaults [Hashlib] :
    (∃ x, configHash (defaults 5) = .ok x) ∧ ∃ x, configHash (defaults 6) = .ok x :=
  ⟨⟨_, rfl⟩, ⟨_, rfl⟩⟩

/-- An interpreter that knows no other values. -/
@[reducible] def plainOther : PyOther := ⟨fun _ _ => true, fun _ => none⟩

/-- Raising the number of consecutive losses changes no listed limit. -/
theorem asdict_defaults_eq {k : String} (hk : k ∈ riskIncreasingKeys) :
    ({ maxConsecutiveLosses := 5 } : RiskLimits).asdict.lookup k =
      ({ maxConsecutiveLosses := 6 } : RiskLimits).asdict.lookup k := by
  simp only [riskIncreasingKeys, List.mem_cons, List.not_mem_nil, or_false] at hk
  rcases hk with rfl | rfl | rfl | rfl | rfl | rfl | rfl <;> rfl

theorem exists_assessChange [PyOther] [Hashlib] :
    ∃ a, assessChange (defaults 5) (defaults 6) = .ok a := by
  obtain ⟨⟨x, hx⟩, ⟨y, hy⟩⟩ := configHash_defaults
  rw [assessChange, hx, hy]
  exact ⟨_, rfl⟩

theorem assessChange_flags_iff_defaults :
    ∃ a, @assessChange plainOther beginnings (defaults 5) (defaults 6) = .ok a ∧
      (((∃ snapshot, validatePortfolio snapshot { maxConsecutiveLosses := 5 } ≠ [] ∧
          validatePortfolio snapshot { maxConsecutiveLosses := 6 } = []) →
            a.riskIncreasing = true) ↔
        (∃ k ∈ riskIncreasingKeys,
          ({ maxConsecutiveLosses := 5 } : RiskLimits).asdict.lookup k ≠
            ({ maxConsecutiveLosses := 6 } : RiskLimits).asdict.lookup k ∧
          @rises plainOther (defaults 5) (defaults 6) k = true) ∨
          ∀ m : Measure, m.limit { maxConsecutiveLosses := 6 } ≤
            m.limit { maxConsecutiveLosses := 5 }) := by
  let := plainOther
  let := beginnings
  obtain ⟨a, ha⟩ := exists_assessChange
  exact ⟨a, ha, assessChange_flags_iff _ _ _ _ a (complete_defaults 5) (complete_defaults 6) ha⟩

/-- **More consecutive losses are not flagged.** -/
theorem losses_not_flagged : ¬ ∀ [PyOther] [Hashlib] (old new : Config) (lo ln : RiskLimits)
    (a : ConfigChangeAssessment), Complete old lo → Complete new ln →
      assessChange old new = .ok a →
        (∃ snapshot, validatePortfolio snapshot lo ≠ [] ∧ validatePortfolio snapshot ln = []) →
          a.riskIncreasing = true := by
  intro h
  let := plainOther
  let := beginnings
  obtain ⟨a, ha⟩ := exists_assessChange
  have hflag := h _ _ _ _ a (complete_defaults 5) (complete_defaults 6) ha
    (rejected_then_accepted_iff.mpr ⟨.consecutiveLosses, by norm_num [Measure.limit]⟩)
  rw [riskIncreasing_iff (complete_defaults 5) (complete_defaults 6) ha] at hflag
  obtain ⟨k, hk, hne, -⟩ := hflag
  exact hne (asdict_defaults_eq hk)

end Kripto.Risk.ConfigSafety
