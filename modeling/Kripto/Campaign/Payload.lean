/-
# Payloads of campaign events

The event kinds and the payload checks of `release/campaign_evidence_recorder.py`, which the
collector shares.  A payload is a JSON object; what Python makes of texts and numbers is a
parameter (`PyRuntime`).
-/
import Mathlib.Data.List.Infix
import Mathlib.Data.Rat.Defs

namespace Kripto.Campaign

/-! ## 1. Values -/

/-- A JSON value.  The keys of an object are distinct; a float is its text. -/
inductive Json
  | null
  | bool (b : Bool)
  | int (n : ℤ)
  | float (repr : String)
  | str (s : String)
  | arr (items : List Json)
  | obj (fields : List (String × Json))

/-- A JSON object. -/
abbrev Payload : Type := List (String × Json)

/-- What `float` returns. -/
inductive PyFloat
  | finite (q : ℚ)
  | infinite
  | nan
  deriving DecidableEq

/-- `x` where `math.isfinite(x)`. -/
def PyFloat.toRat : PyFloat → Option ℚ
  | finite q => some q
  | infinite => none
  | nan => none

/-- The text functions of the Python runtime.  `str` is for values that are not texts; `float`
of a text raises where it is `none`. -/
class PyRuntime where
  upper : String → String
  lower : String → String
  strip : String → String
  str : Json → String
  float : String → Option PyFloat

inductive Exc
  | valueError (msg : String)
  | runtimeError (msg : String)
  | other (name : String)
  deriving DecidableEq

/-- `if c: raise e`. -/
def raiseIf (c : Prop) [Decidable c] (e : Exc) : Except Exc Unit := if c then .error e else .ok ()

@[simp] theorem raiseIf_eq_ok_iff {c : Prop} [Decidable c] {e : Exc} {u : Unit} :
    raiseIf c e = .ok u ↔ ¬ c := by
  by_cases h : c <;> simp [raiseIf, h]

theorem raiseIf_true {c : Prop} [Decidable c] {e : Exc} (h : c) :
    raiseIf c e = .error e := if_pos h

theorem raiseIf_false {c : Prop} [Decidable c] {e : Exc} (h : ¬ c) :
    raiseIf c e = .ok () := if_neg h

variable [PyRuntime]

/-- `str(v)`. -/
def Json.text : Json → String
  | .str s => s
  | v => PyRuntime.str v

/-- The number a JSON value is equal to. -/
def Json.number : Json → Option ℚ
  | .bool b => some (if b then 1 else 0)
  | .int n => some n
  | .float r => (PyRuntime.float r).bind PyFloat.toRat
  | _ => none

mutual

/-- `v == w`, numbers by value and objects with their keys in the same order. -/
def Json.eqv : Json → Json → Bool
  | .null, .null => true
  | .str s, .str t => s == t
  | .arr items, .arr items' => itemsEqv items items'
  | .obj fields, .obj fields' => fieldsEqv fields fields'
  | .float r, .float r' => r == r' || numbersEqv (.float r) (.float r')
  | v, w => numbersEqv v w
where
  numbersEqv (v w : Json) : Bool := v.number.any fun q => w.number == some q

def itemsEqv : List Json → List Json → Bool
  | [], [] => true
  | v :: items, w :: items' => v.eqv w && itemsEqv items items'
  | _, _ => false

def fieldsEqv : List (String × Json) → List (String × Json) → Bool
  | [], [] => true
  | (k, v) :: fields, (k', w) :: fields' => k == k' && v.eqv w && fieldsEqv fields fields'
  | _, _ => false

end

mutual

theorem Json.eqv_self : ∀ v : Json, v.eqv v = true
  | .null => by simp [Json.eqv]
  | .bool b => by simp [Json.eqv, Json.eqv.numbersEqv, Json.number]
  | .int n => by simp [Json.eqv, Json.eqv.numbersEqv, Json.number]
  | .float r => by simp [Json.eqv]
  | .str s => by simp [Json.eqv]
  | .arr items => by simp [Json.eqv, itemsEqv_self items]
  | .obj fields => by simp [Json.eqv, fieldsEqv_self fields]

theorem itemsEqv_self : ∀ items : List Json, itemsEqv items items = true
  | [] => by simp [itemsEqv]
  | v :: items => by simp [itemsEqv, v.eqv_self, itemsEqv_self items]

theorem fieldsEqv_self : ∀ fields : List (String × Json), fieldsEqv fields fields = true
  | [] => by simp [fieldsEqv]
  | (_, v) :: fields => by simp [fieldsEqv, v.eqv_self, fieldsEqv_self fields]

end

/-! ## 2. Kinds -/

def EVENT_KINDS : List String :=
  ["private_auth_lifecycle", "private_reconnect", "private_rest_reconciliation",
    "private_duplicate_idempotency", "private_out_of_order", "private_redaction",
    "private_event", "paper_sample", "paper_cost_stress_pass", "paper_latency_stress_pass",
    "paper_oos_pass", "live_shadow_observation", "live_shadow_kill_switch_pass",
    "live_shadow_reconciliation_pass", "live_shadow_order_submit_attempt",
    "live_shadow_exchange_submit_call", "profitability_sample", "profitability_oos_pass",
    "profitability_leakage_pass", "profitability_cost_stress_pass",
    "profitability_survivorship_pass"]

def FORBIDDEN_RAW_KINDS : List String :=
  ["live_shadow_order_submit_attempt", "live_shadow_exchange_submit_call"]

def FORBIDDEN_PAYLOAD_KEY_FRAGMENTS : List String :=
  ["api_key", "api_secret", "authorization", "signature", "password", "token"]

/-! ## 3. The checks -/

/-- `str(payload.get(name, default))`. -/
def field (payload : Payload) (name default : String) : String :=
  (payload.lookup name).elim default Json.text

/-- `fragment in text`. -/
def occursIn (fragment text : String) : Bool := decide (fragment.toList <:+: text.toList)

def isSensitiveKey (key : String) : Bool :=
  FORBIDDEN_PAYLOAD_KEY_FRAGMENTS.any
    fun fragment => occursIn fragment (PyRuntime.lower (PyRuntime.strip key))

mutual

/-- `_contains_sensitive_key`. -/
def containsSensitiveKey : Json → Bool
  | .obj fields => fieldsContainSensitiveKey fields
  | .arr items => itemsContainSensitiveKey items
  | _ => false

def fieldsContainSensitiveKey : List (String × Json) → Bool
  | [] => false
  | (key, nested) :: rest =>
    isSensitiveKey key || containsSensitiveKey nested || fieldsContainSensitiveKey rest

def itemsContainSensitiveKey : List Json → Bool
  | [] => false
  | item :: rest => containsSensitiveKey item || itemsContainSensitiveKey rest

end

/-- `float(str(payload.get(name)))`. -/
def floatField (payload : Payload) (name : String) : Except Exc PyFloat :=
  match PyRuntime.float (field payload name "None") with
  | some x => .ok x
  | none => .error (.valueError
      ("could not convert string to float: '" ++ field payload name "None" ++ "'"))

open PyRuntime in
def validatePaperSample (payload : Payload) : Except Exc Unit := do
  raiseIf (strip (field payload "sample_id" "") = "" ∨
      upper (strip (field payload "decision" "")) ∉ ["LONG", "EXIT", "HOLD", "SHORT"] ∨
      strip (field payload "market_regime" "") = "" ∨
      upper (strip (field payload "market_data_origin" "")) ≠ "REAL")
    (.valueError
      "paper_sample requires sample_id, decision, market_regime, and REAL market_data_origin")
  let divergence ← floatField payload "execution_divergence_bps"
  raiseIf (∀ q ∈ divergence.toRat, q < 0)
    (.valueError "paper_sample execution_divergence_bps must be finite and non-negative")

open PyRuntime in
def validateLiveShadowObservation (payload : Payload) : Except Exc Unit := do
  raiseIf (upper (strip (field payload "market_data_origin" "")) ≠ "REAL")
    (.valueError "live_shadow_observation requires REAL market_data_origin")
  raiseIf (strip (field payload "observation_id" "") = "")
    (.valueError "live_shadow_observation requires observation_id")

open PyRuntime in
def validateProfitabilitySample (payload : Payload) : Except Exc Unit := do
  raiseIf (upper (strip (field payload "data_origin" "")) ≠ "REAL_PIT")
    (.valueError "profitability_sample requires REAL_PIT data_origin")
  raiseIf (upper (strip (field payload "split" "")) ≠ "OOS")
    (.valueError "profitability_sample requires OOS split")
  raiseIf (strip (field payload "sample_id" "") = "")
    (.valueError "profitability_sample requires sample_id")
  let value ← floatField payload "net_return_bps"
  raiseIf (value.toRat = none)
    (.valueError "profitability_sample net_return_bps must be finite")

def validateEventPayload (kind : String) (payload : Payload) : Except Exc Unit := do
  raiseIf (kind ∉ EVENT_KINDS)
    (.valueError ("unsupported campaign journal event kind: " ++ kind))
  raiseIf (containsSensitiveKey (.obj payload) = true)
    (.valueError "campaign journal payload contains a secret-like key")
  if kind = "paper_sample" then validatePaperSample payload
  else if kind = "live_shadow_observation" then validateLiveShadowObservation payload
  else if kind = "profitability_sample" then validateProfitabilitySample payload
  else return ()

/-- A payload is validated for a kind that exists. -/
theorem kind_mem_of_validate {kind : String} {payload : Payload}
    (h : validateEventPayload kind payload = .ok ()) : kind ∈ EVENT_KINDS := by
  unfold validateEventPayload at h
  by_contra hnot
  rw [raiseIf_true hnot] at h
  cases h

end Kripto.Campaign
