/-
# The research trial ledger

`research/registry.py`: hypotheses are registered before they are tried, and every trial is written
down, also those that fail.  What has been registered is what a trial is held to.

* `preRegistered`: after any calls, trials have ids of their own; those of a hypothesis are
  numbered from 1, as many as its budget allows at most, with its metric and its test set, none
  earlier than its registration; and the chain of hashes verifies.

A `datetime` is anything that can be compared, and that either has a time zone or not.
-/
import Kripto.Effect.Object
import Kripto.Effect.Outcome
import Kripto.Effect.Totals
import Kripto.Python.Json

namespace Kripto.Research

open Effect Python

/-! ## 1. What comes from the runtime -/

inductive Exc
  | valueError (msg : String)
  | permissionError (msg : String)
  | typeError
  | overflowError
  | dump (e : DumpError)
  deriving DecidableEq

def raiseIf (c : Prop) [Decidable c] (e : Exc) : Except Exc Unit := if c then .error e else .ok ()

/-- `datetime`: whether `tzinfo` is set, how two compare (raising is `none`), and `str`. -/
class PyDatetime (D : Type) where
  hasTzinfo : D → Bool
  compare : D → D → Option Ordering
  str : D → Text

/-- `math.isfinite(float(value))`. -/
class PyFloat where
  isfinite : PyValue → Except Exc Bool

variable {D : Type} [PyDatetime D]

def compareDates (d d' : D) : Except Exc Ordering :=
  match PyDatetime.compare d d' with
  | some order => .ok order
  | none => .error .typeError

/-- `d < d'`. -/
def isBefore (d d' : D) : Except Exc Bool := return (← compareDates d d') == .lt

/-- `d <= d'`. -/
def isNotAfter (d d' : D) : Except Exc Bool := return (← compareDates d d') != .gt

def isSpace : CodePoint → Bool
  | .scalar c => Text.isSpace c
  | .surrogate _ => false

/-- `not text.strip()`. -/
def isBlank (text : Text) : Bool := text.all isSpace

def isHexDigit : CodePoint → Bool
  | .scalar c => ('0' ≤ c ∧ c ≤ '9') ∨ ('a' ≤ c ∧ c ≤ 'f')
  | .surrogate _ => false

/-- `_HASH_RE.fullmatch(text)`. -/
def isSha256 (text : Text) : Bool := text.length == 64 && text.all isHexDigit

/-! ## 2. Hypotheses, trials and entries -/

/-- The fields of a `ResearchHypothesis`. -/
structure HypothesisFields (D : Type) where
  hypothesisId : Text
  statement : Text
  primaryMetric : Text
  testSetHash : Text
  parameterSearchBudget : ℤ
  researcherAgent : Text
  registeredAt : D

def HypothesisFields.postInit (h : HypothesisFields D) : Except Exc Unit := do
  raiseIf (isBlank h.hypothesisId ∨ isBlank h.statement ∨ isBlank h.primaryMetric ∨
    isBlank h.researcherAgent) (.valueError "hypothesis pre-registration fields are required")
  raiseIf (isSha256 h.testSetHash = false) (.valueError "test_set_hash must be sha256")
  raiseIf (h.parameterSearchBudget < 1) (.valueError "parameter_search_budget must be positive")
  raiseIf (PyDatetime.hasTzinfo h.registeredAt = false)
    (.valueError "registered_at must be timezone-aware")

/-- A hypothesis that could be built. -/
structure ResearchHypothesis (D : Type) [PyDatetime D] extends HypothesisFields D where
  valid : toHypothesisFields.postInit = .ok ()

/-- The arguments of `append_trial`. -/
structure Trial (D : Type) where
  trialId : Text
  hypothesisId : Text
  strategyFamily : Text
  testedFeatures : List Text
  testedParameters : PyValue
  datasetHash : Text
  trainPeriod : D × D
  validationPeriod : D × D
  testPeriod : D × D
  metrics : Dict
  failureReason : Option Text
  selected : Bool
  researcherAgent : Text
  timestamp : D
  primaryMetric : Text
  testSetHash : Text

structure ResearchTrialLedgerEntry (D : Type) extends Trial D where
  parameterSearchBudget : ℤ
  searchOrdinal : ℕ
  previousHash : Text
  entryHash : Text

structure ResearchTrialLedger (D : Type) [PyDatetime D] where
  hypotheses : Table Text (ResearchHypothesis D)
  entries : List (ResearchTrialLedgerEntry D)

namespace ResearchTrialLedger

/-- A new ledger. -/
def new : ResearchTrialLedger D := ⟨∅, []⟩

def GENESIS_HASH : Text := List.replicate 64 (.scalar '0')

/-! ## 3. The methods -/

/-- `any(..)` over the periods: one without a time zone, or not ending after its start. -/
def anyEmptyPeriod : List (D × D) → Except Exc Bool
  | [] => .ok false
  | (start, stop) :: periods => do
    if PyDatetime.hasTzinfo start = false ∨ PyDatetime.hasTzinfo stop = false then return true
    else if (← compareDates start stop) != .lt then return true
    else anyEmptyPeriod periods

def periodsValid (train validation test : D × D) : Except Exc Bool := do
  if ← anyEmptyPeriod [train, validation, test] then return false
  else if ← isNotAfter train.2 validation.1 then isNotAfter validation.2 test.1
  else return false

def anyNotFinite [PyFloat] : List PyValue → Except Exc Bool
  | [] => .ok false
  | value :: values => do
    if ← PyFloat.isfinite value then anyNotFinite values else return true

def optional : Option Text → PyValue
  | none => .none
  | some text => .str text

def period (p : D × D) : PyValue :=
  .tuple [.other (PyDatetime.str p.1), .other (PyDatetime.str p.2)]

/-- All fields but the hash. -/
def payload (t : Trial D) (budget : ℤ) (ordinal : ℕ) (previousHash : Text) : PyValue :=
  .dict [(.str (Text.of "trial_id"), .str t.trialId),
    (.str (Text.of "hypothesis_id"), .str t.hypothesisId),
    (.str (Text.of "strategy_family"), .str t.strategyFamily),
    (.str (Text.of "tested_features"), .tuple (t.testedFeatures.map .str)),
    (.str (Text.of "tested_parameters"), t.testedParameters),
    (.str (Text.of "dataset_hash"), .str t.datasetHash),
    (.str (Text.of "train_period"), period t.trainPeriod),
    (.str (Text.of "validation_period"), period t.validationPeriod),
    (.str (Text.of "test_period"), period t.testPeriod),
    (.str (Text.of "metrics"), .dict t.metrics),
    (.str (Text.of "failure_reason"), optional t.failureReason),
    (.str (Text.of "selected"), .bool t.selected),
    (.str (Text.of "researcher_agent"), .str t.researcherAgent),
    (.str (Text.of "timestamp"), .other (PyDatetime.str t.timestamp)),
    (.str (Text.of "primary_metric"), .str t.primaryMetric),
    (.str (Text.of "test_set_hash"), .str t.testSetHash),
    (.str (Text.of "parameter_search_budget"), .int budget),
    (.str (Text.of "search_ordinal"), .int ordinal),
    (.str (Text.of "previous_hash"), .str previousHash)]

def hashPayload [Hashlib] (payload : PyValue) : Except Exc Text :=
  match payload.bytes { ensureAscii := false, defaultStr := true } with
  | .ok raw => .ok (Text.of (Hashlib.sha256 raw))
  | .error e => .error (.dump e)

/-- The trials of a hypothesis. -/
def trialsOf (self : ResearchTrialLedger D) (hypothesisId : Text) :
    List (ResearchTrialLedgerEntry D) :=
  self.entries.filter (·.hypothesisId = hypothesisId)

def previousHash (self : ResearchTrialLedger D) : Text :=
  match self.entries.getLast? with
  | some entry => entry.entryHash
  | none => GENESIS_HASH

/-- `timestamp.tzinfo is None or timestamp < registered_at`. -/
def isEarly (timestamp registeredAt : D) : Except Exc Bool :=
  if PyDatetime.hasTzinfo timestamp = false then .ok true else isBefore timestamp registeredAt

/-- What a trial is refused for: its hypothesis. -/
def checkHypothesis (self : ResearchTrialLedger D) (t : Trial D) :
    Except Exc (ResearchHypothesis D) := do
  raiseIf (∃ entry ∈ self.entries, entry.trialId = t.trialId)
    (.valueError "trial id immutable/duplicate")
  match self.hypotheses.lookup t.hypothesisId with
  | none => .error (.permissionError "hypothesis must be registered before trial result")
  | some hypothesis =>
    raiseIf (← isEarly t.timestamp hypothesis.registeredAt)
      (.permissionError "trial result cannot predate hypothesis registration")
    raiseIf (t.primaryMetric ≠ hypothesis.primaryMetric)
      (.permissionError "primary metric is locked by pre-registration")
    raiseIf (t.testSetHash ≠ hypothesis.testSetHash)
      (.permissionError "test set is locked by pre-registration")
    raiseIf (hypothesis.parameterSearchBudget < (1 + (self.trialsOf t.hypothesisId).length : ℕ))
      (.permissionError "parameter search budget exceeded")
    return hypothesis

def isEmptyDict : PyValue → Bool
  | .dict items => items.isEmpty
  | _ => true

/-- What a trial is refused for: its own fields. -/
def checkFields [PyFloat] (t : Trial D) : Except Exc Unit := do
  raiseIf (isBlank t.trialId ∨ isBlank t.strategyFamily ∨ isBlank t.researcherAgent)
    (.valueError "trial identity fields are required")
  raiseIf (t.testedFeatures = [] ∨ isEmptyDict t.testedParameters)
    (.valueError "tested features and parameters are required")
  raiseIf (isSha256 t.datasetHash = false ∨ isSha256 t.testSetHash = false)
    (.valueError "dataset/test hashes must be sha256")
  raiseIf ((← periodsValid t.trainPeriod t.validationPeriod t.testPeriod) = false)
    (.valueError "train/validation/test periods must be ordered and non-overlapping")
  raiseIf (t.metrics = []) (.valueError "trial metrics are required")
  raiseIf (← anyNotFinite (t.metrics.map Prod.snd)) (.valueError "trial metrics must be finite")
  raiseIf (t.selected = false ∧ isBlank (t.failureReason.getD []))
    (.valueError "rejected trial requires failure_reason")
  raiseIf (t.selected = true ∧ t.failureReason.getD [] ≠ [])
    (.valueError "selected trial cannot have failure_reason")

variable [Hashlib]

def registerHypothesis (self : ResearchTrialLedger D) (hypothesis : ResearchHypothesis D) :
    Except Exc (ResearchHypothesis D) × ResearchTrialLedger D :=
  if hypothesis.hypothesisId ∈ self.hypotheses then
    (.error (.valueError "hypothesis id immutable/duplicate"), self)
  else (.ok hypothesis, { self with
    hypotheses := self.hypotheses.insert hypothesis.hypothesisId hypothesis })

/-- The entry of a trial that is not refused. -/
def entryOf [PyFloat] (self : ResearchTrialLedger D) (t : Trial D) :
    Except Exc (ResearchTrialLedgerEntry D) := do
  let hypothesis ← self.checkHypothesis t
  checkFields t
  let ordinal := 1 + (self.trialsOf t.hypothesisId).length
  let entryHash ← hashPayload
    (payload t hypothesis.parameterSearchBudget ordinal self.previousHash)
  return { t with
    parameterSearchBudget := hypothesis.parameterSearchBudget
    searchOrdinal := ordinal
    previousHash := self.previousHash
    entryHash := entryHash }

def appendTrial [PyFloat] (self : ResearchTrialLedger D) (t : Trial D) :
    Except Exc (ResearchTrialLedgerEntry D) × ResearchTrialLedger D :=
  match self.entryOf t with
  | .error e => (.error e, self)
  | .ok entry => (.ok entry, { self with entries := self.entries ++ [entry] })

/-- The hash of an entry, recomputed. -/
def hashOf (entry : ResearchTrialLedgerEntry D) : Except Exc Text :=
  hashPayload (payload entry.toTrial entry.parameterSearchBudget entry.searchOrdinal
    entry.previousHash)

/-- The loop of `verify_integrity`. -/
def verifyFrom (previous : Text) : List (ResearchTrialLedgerEntry D) → Except Exc Bool
  | [] => .ok true
  | entry :: entries => do
    if entry.previousHash ≠ previous then return false
    else if (← hashOf entry) ≠ entry.entryHash then return false
    else verifyFrom entry.entryHash entries

def verifyIntegrity (self : ResearchTrialLedger D) : Except Exc Bool :=
  verifyFrom GENESIS_HASH self.entries

end ResearchTrialLedger

/-! ## 4. Runs -/

inductive Call (D : Type) [PyDatetime D]
  | registerHypothesis (hypothesis : ResearchHypothesis D)
  | appendTrial (t : Trial D)

inductive Answer (D : Type) [PyDatetime D]
  | hypothesis (h : ResearchHypothesis D)
  | entry (e : ResearchTrialLedgerEntry D)

open ResearchTrialLedger

section Runs

variable [Hashlib] [PyFloat]

def research : Object (ResearchTrialLedger D) (Call D) (Except Exc (Answer D)) := fun self call =>
  match call with
  | .registerHypothesis hypothesis =>
    let (outcome, self) := self.registerHypothesis hypothesis
    (outcome.map .hypothesis, self)
  | .appendTrial t =>
    let (outcome, self) := self.appendTrial t
    (outcome.map .entry, self)

/-- A trial is held to the hypothesis that has been registered. -/
structure HeldTo (hypothesis : ResearchHypothesis D) (entry : ResearchTrialLedgerEntry D) :
    Prop where
  primaryMetric : entry.primaryMetric = hypothesis.primaryMetric
  testSetHash : entry.testSetHash = hypothesis.testSetHash
  budget : entry.parameterSearchBudget = hypothesis.parameterSearchBudget
  registered : isBefore entry.timestamp hypothesis.registeredAt = .ok false

/-- The ledger is in order after the calls that have been made. -/
structure PreRegistered
    (log : Log (ResearchTrialLedger D) (Call D) (Except Exc (Answer D))) : Prop where
  uniqueIds : (log.now.entries.map (·.trialId)).Nodup
  ordinals : ∀ hypothesisId, (log.now.trialsOf hypothesisId).map (·.searchOrdinal) =
    (List.range (log.now.trialsOf hypothesisId).length).map (1 + ·)
  heldTo : ∀ entry ∈ log.now.entries, ∃ hypothesis,
    log.now.hypotheses.lookup entry.hypothesisId = some hypothesis ∧ HeldTo hypothesis entry
  budget : ∀ hypothesisId hypothesis, log.now.hypotheses.lookup hypothesisId = some hypothesis →
    (log.now.trialsOf hypothesisId).length ≤ hypothesis.parameterSearchBudget
  /-- The hypotheses are those that have been registered, and stay. -/
  registered : ∀ hypothesisId hypothesis,
    log.now.hypotheses.lookup hypothesisId = some hypothesis ↔
      hypothesis.hypothesisId = hypothesisId ∧
        (.registerHypothesis hypothesis, .ok (.hypothesis hypothesis)) ∈ log.past
  verified : log.now.verifyIntegrity = .ok true
  /-- A call that raises changes nothing. -/
  unchanged : ∀ call e, (research log.now call).1 = .error e → (research log.now call).2 = log.now

end Runs

/-! ## 5. What one call does -/

section Steps

variable {self : ResearchTrialLedger D}

theorem raiseIf_eq_ok_iff {c : Prop} [Decidable c] {e : Exc} {u : Unit} :
    raiseIf c e = .ok u ↔ ¬ c := by
  by_cases h : c <;> simp [raiseIf, h]

/-- A trial that its hypothesis does not refuse. -/
theorem checkHypothesis_eq_ok {t : Trial D} {hypothesis : ResearchHypothesis D}
    (h : self.checkHypothesis t = .ok hypothesis) :
    (∀ entry ∈ self.entries, entry.trialId ≠ t.trialId) ∧
      self.hypotheses.lookup t.hypothesisId = some hypothesis ∧
      isBefore t.timestamp hypothesis.registeredAt = .ok false ∧
      t.primaryMetric = hypothesis.primaryMetric ∧ t.testSetHash = hypothesis.testSetHash ∧
      ((1 + (self.trialsOf t.hypothesisId).length : ℕ) : ℤ) ≤
        hypothesis.parameterSearchBudget := by
  rw [checkHypothesis, bind_eq_ok_iff] at h
  obtain ⟨_, hid, h⟩ := h
  rw [raiseIf_eq_ok_iff, not_exists] at hid
  cases hlookup : self.hypotheses.lookup t.hypothesisId with
  | none =>
    rw [hlookup] at h
    cases h
  | some found =>
    simp only [hlookup, bind_eq_ok_iff, raiseIf_eq_ok_iff, pure_eq_ok, Except.ok.injEq] at h
    obtain ⟨early, hearly, _, hintime, _, hmetric, _, htestSet, _, hbudget, rfl⟩ := h
    refine ⟨fun entry hentry hsame => hid entry ⟨hentry, hsame⟩, rfl, ?_, not_not.mp hmetric,
      not_not.mp htestSet, not_lt.mp hbudget⟩
    obtain rfl : early = false := Bool.not_eq_true _ ▸ hintime
    unfold isEarly at hearly
    split at hearly
    · cases hearly
    · exact hearly

variable [Hashlib] [PyFloat]

/-- **The entry of a trial** that is not refused. -/
theorem entryOf_eq_ok {t : Trial D} {entry : ResearchTrialLedgerEntry D}
    (h : self.entryOf t = .ok entry) :
    ∃ hypothesis, self.checkHypothesis t = .ok hypothesis ∧ entry.toTrial = t ∧
      entry.parameterSearchBudget = hypothesis.parameterSearchBudget ∧
      entry.searchOrdinal = 1 + (self.trialsOf t.hypothesisId).length ∧
      entry.previousHash = self.previousHash ∧ hashOf entry = .ok entry.entryHash := by
  simp only [entryOf, bind_eq_ok_iff, pure_eq_ok, Except.ok.injEq] at h
  obtain ⟨hypothesis, hcheck, _, -, entryHash, hhash, rfl⟩ := h
  exact ⟨hypothesis, hcheck, rfl, rfl, rfl, rfl, hhash⟩

omit [PyFloat] in
/-- The chain goes on with an entry that names the last hash and has its own. -/
theorem verifyFrom_concat {previous : Text} {entries : List (ResearchTrialLedgerEntry D)}
    {entry : ResearchTrialLedgerEntry D} (h : verifyFrom previous entries = .ok true)
    (hprevious : entry.previousHash = ((entries.getLast?.map (·.entryHash)).getD previous))
    (hhash : hashOf entry = .ok entry.entryHash) :
    verifyFrom previous (entries ++ [entry]) = .ok true := by
  induction entries generalizing previous with
  | nil =>
    have hnil : entry.previousHash = previous := hprevious
    simp [verifyFrom, hnil, hhash]
  | cons e entries ih =>
    rw [List.cons_append, verifyFrom]
    rw [verifyFrom] at h
    by_cases hnamed : e.previousHash = previous
    · rw [if_neg (not_not.mpr hnamed)] at h ⊢
      obtain ⟨hash, hrecomputed, hrest⟩ := bind_eq_ok_iff.mp h
      rw [hrecomputed, ok_bind]
      by_cases hsame : hash = e.entryHash
      · rw [if_neg (not_not.mpr hsame)] at hrest ⊢
        refine ih hrest (hprevious.trans ?_)
        cases entries with
        | nil => rfl
        | cons e' entries =>
          rw [List.getLast?_cons_cons]
          cases hlast : (e' :: entries).getLast? with
          | none => simp at hlast
          | some last => rfl
      · rw [if_pos hsame] at hrest
        cases hrest
    · rw [if_pos hnamed] at h
      cases h

omit [Hashlib] [PyFloat] in
theorem previousHash_eq (self : ResearchTrialLedger D) :
    self.previousHash = (self.entries.getLast?.map (·.entryHash)).getD GENESIS_HASH := by
  unfold previousHash
  cases self.entries.getLast? <;> rfl

end Steps

/-! ## 6. Runs -/

section Runs

variable [Hashlib] [PyFloat] {log : Log (ResearchTrialLedger D) (Call D) (Except Exc (Answer D))}

/-- What is true of the ledger alone. -/
theorem raises_unchanged (self : ResearchTrialLedger D) (call : Call D) (e : Exc)
    (h : (research self call).1 = .error e) : (research self call).2 = self := by
  cases call with
  | registerHypothesis hypothesis =>
    by_cases hold : hypothesis.hypothesisId ∈ self.hypotheses
    · simp [research, ResearchTrialLedger.registerHypothesis, hold]
    · simp [research, ResearchTrialLedger.registerHypothesis, hold, Except.map] at h
  | appendTrial t =>
    cases hentry : self.entryOf t with
    | error e' => simp [research, ResearchTrialLedger.appendTrial, hentry]
    | ok entry => simp [research, ResearchTrialLedger.appendTrial, hentry, Except.map] at h

theorem preRegistered_new :
    PreRegistered (Log.start (ResearchTrialLedger.new (D := D)) :
      Log _ (Call D) (Except Exc (Answer D))) where
  uniqueIds := List.nodup_nil
  ordinals := fun _ => rfl
  heldTo := by simp [ResearchTrialLedger.new]
  budget := by simp [ResearchTrialLedger.new]
  registered := by simp [ResearchTrialLedger.new]
  verified := rfl
  unchanged := raises_unchanged _

/-- A call that raises. -/
theorem PreRegistered.raised (h : PreRegistered log) (call : Call D) (e : Exc) :
    PreRegistered ⟨log.past ++ [(call, .error e)], log.now⟩ := by
  refine ⟨h.uniqueIds, h.ordinals, h.heldTo, h.budget, ?_, h.verified, h.unchanged⟩
  intro hypothesisId hypothesis
  rw [h.registered]
  simp

omit [PyFloat] [Hashlib] in
theorem budget_pos (hypothesis : ResearchHypothesis D) : 1 ≤ hypothesis.parameterSearchBudget := by
  have hvalid := hypothesis.valid
  simp only [HypothesisFields.postInit, bind_eq_ok_iff, raiseIf_eq_ok_iff] at hvalid
  obtain ⟨_, -, _, -, _, hbudget, -⟩ := hvalid
  exact not_lt.mp hbudget

/-- A hypothesis is registered under an id of its own; it has no trials. -/
theorem PreRegistered.registerHypothesis (h : PreRegistered log) {new : ResearchHypothesis D}
    (hnew : new.hypothesisId ∉ log.now.hypotheses) :
    PreRegistered ⟨log.past ++ [(.registerHypothesis new, .ok (.hypothesis new))],
      { log.now with hypotheses := log.now.hypotheses.insert new.hypothesisId new }⟩ := by
  have hkept : ∀ hypothesisId hypothesis,
      log.now.hypotheses.lookup hypothesisId = some hypothesis →
      hypothesisId ≠ new.hypothesisId := by
    rintro _ hypothesis hlookup rfl
    rw [AList.lookup_eq_none.mpr hnew] at hlookup
    cases hlookup
  have htrials : log.now.trialsOf new.hypothesisId = [] := by
    rw [trialsOf, List.filter_eq_nil_iff]
    intro entry hentry hsame
    obtain ⟨hypothesis, hlookup, -⟩ := h.heldTo entry hentry
    exact hkept _ _ hlookup (of_decide_eq_true hsame)
  refine ⟨h.uniqueIds, h.ordinals, ?_, ?_, ?_, h.verified, raises_unchanged _⟩
  · intro entry hentry
    obtain ⟨hypothesis, hlookup, hheld⟩ := h.heldTo entry hentry
    exact ⟨hypothesis, (AList.lookup_insert_ne (hkept _ _ hlookup)).trans hlookup, hheld⟩
  · intro hypothesisId hypothesis hlookup
    change (log.now.trialsOf hypothesisId).length ≤ hypothesis.parameterSearchBudget
    by_cases hid : hypothesisId = new.hypothesisId
    · rw [hid, htrials]
      have hpos := budget_pos hypothesis
      simp only [List.length_nil, Nat.cast_zero]
      omega
    · rw [AList.lookup_insert_ne hid] at hlookup
      exact h.budget hypothesisId hypothesis hlookup
  · intro hypothesisId hypothesis
    rw [List.mem_append, List.mem_singleton]
    by_cases hid : hypothesisId = new.hypothesisId
    · rw [hid, AList.lookup_insert, Option.some.injEq]
      constructor
      · rintro rfl
        exact ⟨rfl, .inr rfl⟩
      · rintro ⟨hown, hold | hlast⟩
        · exact absurd rfl (hkept _ _ ((h.registered _ _).mpr ⟨hown, hold⟩))
        · exact (Call.registerHypothesis.inj (Prod.mk.inj hlast).1).symm
    · rw [AList.lookup_insert_ne hid, h.registered]
      refine and_congr_right fun hown => (or_iff_left ?_).symm
      intro hlast
      obtain rfl := Call.registerHypothesis.inj (Prod.mk.inj hlast).1
      exact hid hown.symm

/-- A trial is written down with the next number of its hypothesis. -/
theorem PreRegistered.appendTrial (h : PreRegistered log) {t : Trial D}
    {entry : ResearchTrialLedgerEntry D} (hentry : log.now.entryOf t = .ok entry) :
    PreRegistered ⟨log.past ++ [(.appendTrial t, .ok (.entry entry))],
      { log.now with entries := log.now.entries ++ [entry] }⟩ := by
  obtain ⟨hypothesis, hcheck, rfl, hbudget, hordinal, hprevious, hhash⟩ := entryOf_eq_ok hentry
  obtain ⟨hfresh, hlookup, hintime, hmetric, htestSet, hwithin⟩ := checkHypothesis_eq_ok hcheck
  have htrials : ∀ hypothesisId, ResearchTrialLedger.trialsOf
      { log.now with entries := log.now.entries ++ [entry] } hypothesisId =
      log.now.trialsOf hypothesisId ++
        if entry.hypothesisId = hypothesisId then [entry] else [] := by
    intro hypothesisId
    rw [trialsOf, List.filter_append]
    by_cases hid : entry.hypothesisId = hypothesisId
    · simp [hid, trialsOf]
    · simp [hid, trialsOf]
  refine ⟨?_, ?_, ?_, ?_, ?_, ?_, raises_unchanged _⟩
  · change ((log.now.entries ++ [entry]).map (·.trialId)).Nodup
    rw [List.map_append, List.nodup_append']
    refine ⟨h.uniqueIds, List.nodup_singleton _, ?_⟩
    intro trialId hold hlast
    obtain ⟨older, holder, rfl⟩ := List.mem_map.mp hold
    exact hfresh older holder (by simpa using hlast)
  · intro hypothesisId
    rw [htrials]
    by_cases hid : entry.hypothesisId = hypothesisId
    · subst hid
      rw [if_pos rfl, List.map_append, h.ordinals, List.length_append, List.length_singleton,
        List.range_succ, List.map_append, List.map_singleton, List.map_singleton, hordinal]
    · rw [if_neg hid, List.append_nil]
      exact h.ordinals hypothesisId
  · intro e he
    rcases List.mem_append.mp he with hold | hlast
    · exact h.heldTo e hold
    · rw [List.mem_singleton.mp hlast]
      exact ⟨hypothesis, hlookup, hmetric, htestSet, hbudget, hintime⟩
  · intro hypothesisId found hfound
    rw [htrials]
    by_cases hid : entry.hypothesisId = hypothesisId
    · subst hid
      obtain rfl : hypothesis = found := Option.some.inj (hlookup.symm.trans hfound)
      rw [if_pos rfl, List.length_append, List.length_singleton, Nat.add_comm]
      exact hwithin
    · rw [if_neg hid, List.append_nil]
      exact h.budget hypothesisId found hfound
  · intro hypothesisId found
    rw [h.registered]
    simp
  · exact verifyFrom_concat h.verified (hprevious.trans (previousHash_eq _)) hhash

/-- **Every call keeps the ledger in order.** -/
theorem PreRegistered.step (h : PreRegistered log) (call : Call D) :
    PreRegistered (log.call research call) := by
  cases call with
  | registerHypothesis hypothesis =>
    by_cases hold : hypothesis.hypothesisId ∈ log.now.hypotheses
    · rw [Log.call, research, ResearchTrialLedger.registerHypothesis, if_pos hold]
      exact h.raised _ _
    · rw [Log.call, research, ResearchTrialLedger.registerHypothesis, if_neg hold]
      exact h.registerHypothesis hold
  | appendTrial t =>
    cases hentry : log.now.entryOf t with
    | error e =>
      rw [Log.call, research, ResearchTrialLedger.appendTrial, hentry]
      exact h.raised _ _
    | ok entry =>
      rw [Log.call, research, ResearchTrialLedger.appendTrial, hentry]
      exact h.appendTrial hentry

end Runs

/-- **Pre-registration holds over every run.** -/
theorem preRegistered [Hashlib] [PyFloat] (calls : List (Call D)) :
    PreRegistered ((Log.start ResearchTrialLedger.new).calls research calls) :=
  Log.run_keeps (fun _ call h => h.step call) preRegistered_new calls

end Kripto.Research
