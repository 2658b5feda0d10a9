/-
# The setup wizard

`services/setup_wizard.py`, `SetupWizardService`: eight steps, each with a configuration that is
cleaned before it is kept.  A call works on the row in its session, and what it has changed there is
stored by `commit`; a session that is left by an exception stores nothing.  The database does not
fail, and a JSON column holds what `json.loads` makes of `json.dumps`.

* `close_completeRow`: what a session of `complete_step` stores and answers;
* `row_step`, `row_run`: what holds of each row that is stored, by one call and by a run;
* `wizard_integrity`: and with it what the cleaning does.
-/
import Kripto.Effect.Outcome
import Kripto.Effect.Totals
import Kripto.Python.Reload
import Kripto.Setup.Cleaning
import Mathlib.Data.Finset.Dedup
import Mathlib.Data.String.Basic

namespace Kripto.Setup

open Effect Python

/-! ## 1. What the interpreter does -/

inductive ZoneOutcome
  | found
  /-- `ZoneInfoNotFoundError` -/
  | notFound
  /-- Another exception: the name is no path of a file. -/
  | raises

/-- The value of a finite float, `str` of what is no text, and `ZoneInfo`. -/
class WizardRuntime extends PyCaseFolding where
  floatValue : String → ℚ
  str : JsonTree → Text
  zoneInfo : Text → ZoneOutcome

inductive Exc
  | valueError (msg : Text)
  | lookupError (msg : Text)
  | permissionError (msg : Text)
  | typeError
  | attributeError
  /-- `ValueError` of `dict`. -/
  | badSequence
  /-- What `ZoneInfo` raises. -/
  | zoneError

def raiseValueError {α : Type} (msg : String) : Except Exc α := .error (.valueError (Text.of msg))

section Interpreter

variable [WizardRuntime]

/-- `str(v)` -/
def pyStr : JsonTree → Text
  | .str s => s
  | v => WizardRuntime.str v

/-- `s.strip()` -/
def strip (s : Text) : Text :=
  let space (c : CodePoint) : Bool := c.char?.any Text.isSpace
  ((s.dropWhile space).reverse.dropWhile space).reverse

/-- `bool(v)` -/
def truthy : JsonTree → Bool
  | .null => false
  | .bool b => b
  | .int n => n ≠ 0
  | .float repr => WizardRuntime.floatValue repr ≠ 0
  | .str s => s ≠ []
  | .list items => !items.isEmpty
  | .dict fields => !fields.isEmpty

/-! ## 2. `dict(data)` -/

/-- A value as a key. -/
def hashable : JsonTree → Except Exc Key
  | .null => .ok .none
  | .bool b => .ok (.number (if b then 1 else 0) (if b then "true" else "false"))
  | .int n => .ok (.number n (toString n))
  | .float repr => .ok (.number (WizardRuntime.floatValue repr) repr)
  | .str s => .ok (.str s)
  | .list _ | .dict _ => .error .typeError

/-- `k == k'`; numbers are compared by their values. -/
def sameKey : Key → Key → Bool
  | .number q _, .number q' _ => q = q'
  | k, k' => k = k'

/-- `d[k] = v`; a key that is there stays. -/
def setItem (k : Key) (v : JsonTree) : List (Key × JsonTree) → List (Key × JsonTree)
  | [] => [(k, v)]
  | (k', v') :: d => if sameKey k' k then (k', v) :: d else (k', v') :: setItem k v d

/-- An element of a sequence that `dict` is given. -/
def pairOf : JsonTree → Except Exc (Key × JsonTree)
  | .list [k, v] => return (← hashable k, v)
  | .str [c, c'] => .ok (.str [c], .str [c'])
  | .dict [(k, _), (k', _)] => .ok (.str k, .str k')
  | .list _ | .str _ | .dict _ => .error .badSequence
  | _ => .error .typeError

/-- `dict(data)` -/
def dictFrom : JsonTree → Except Exc (List (Key × JsonTree))
  | .dict fields => .ok (fields.map fun e => (.str e.1, e.2))
  | .list items => items.foldlM (fun d item => (pairOf item).map fun e => setItem e.1 e.2 d) []
  | .str [] => .ok []
  | .str _ => .error .badSequence
  | _ => .error .typeError

/-- The text of a key in JSON. -/
def keyText : Key → Text
  | .none => Text.of "null"
  | .number _ text => Text.of text
  | .str s => s
  | .other => []

/-- What a JSON column holds of a dictionary. -/
def column (d : List (Key × JsonTree)) : JsonTree :=
  .dict (dictOf (d.map fun e => (keyText e.1, e.2)))

/-! ## 3. `_validate_preferences` -/

/-- `d.get(name, default)` -/
def getItem (d : List (Key × JsonTree)) (name : String) (default : JsonTree) : JsonTree :=
  (d.lookup (.str (Text.of name))).getD default

/-- `sorted(allowed)` -/
def ALLOWED : List Text := ["critical_only", "email", "telegram"].map Text.of

def isBool : JsonTree → Bool
  | .bool _ => true
  | _ => false

/-- `bool(notifications.get(k, False))` for the keys that are allowed. -/
def allowedNotifications (notifications : List (Text × JsonTree)) : List (Text × JsonTree) :=
  ALLOWED.map fun k => (k, .bool (truthy ((notifications.lookup k).getD (.bool false))))

def checkNotifications : JsonTree → Except Exc JsonTree
  | .dict notifications =>
    let unknown := ((notifications.map Prod.fst).dedup.filter (· ∉ ALLOWED)).insertionSort Text.le
    if unknown ≠ [] then
      .error (.valueError (Text.of "unknown notification preferences: " ++
        (Text.of ",").intercalate unknown))
    else if ∃ e ∈ notifications, isBool e.2 = false then
      raiseValueError "notification preferences must be boolean"
    else .ok (.dict (allowedNotifications notifications))
  | _ => raiseValueError "notifications must be an object"

def validatePreferences (data : JsonTree) : Except Exc (List (Key × JsonTree)) := do
  let out ← dictFrom data
  let timezoneName := strip (pyStr (getItem out "timezone" (.str (Text.of "UTC"))))
  match WizardRuntime.zoneInfo timezoneName with
  | .notFound => raiseValueError "invalid IANA timezone"
  | .raises => .error .zoneError
  | .found =>
    let out := setItem (.str (Text.of "timezone")) (.str timezoneName) out
    let notifications ← checkNotifications (getItem out "notifications" (.dict []))
    return setItem (.str (Text.of "notifications")) notifications out

end Interpreter

/-! ## 4. The service -/

def STEPS : List ℤ := [1, 2, 3, 4, 5, 6, 7, 8]

structure SetupState where
  userId : Option String
  currentStep : ℤ
  completedSteps : List ℤ
  nonSecretConfig : List (Text × JsonTree)
  completedAt : Option ℤ

structure WizardSnapshot where
  setupId : String
  currentStep : ℤ
  completedSteps : List ℤ
  nonSecretConfig : List (Text × JsonTree)
  completed : Bool
  startupMode : String

def snapshot (setupId : String) (row : SetupState) : WizardSnapshot :=
  ⟨setupId, row.currentStep, row.completedSteps, row.nonSecretConfig, row.completedAt.isSome,
    "PAPER"⟩

/-- The table of the rows, by their ids. -/
abbrev Store : Type := Table String SetupState

/-- What is stored, and the row that the session has changed. -/
structure Session where
  stored : Store
  setupId : String
  row : SetupState

abbrev InSession : Type → Type := EStateM Exc Session

def change (f : SetupState → SetupState) : InSession Unit :=
  modify fun s => { s with row := f s.row }

def commit : InSession Unit := modify fun s => { s with stored := s.stored.insert s.setupId s.row }

/-- The end of a session. -/
def close {α : Type} : EStateM.Result Exc Session α → Except Exc α × Store
  | .ok a s => (.ok a, s.stored)
  | .error e s => (.error e, s.stored)

def stepKey (step : ℤ) : Text := Text.of ("step_" ++ toString step)

/-- `min(set(STEPS) - set(completed), default=8)` -/
def expectedStep (completed : List ℤ) : ℤ := ((STEPS.filter (· ∉ completed)).min?).getD 8

section Service

variable [WizardRuntime]

/-- The data of a step as it is kept. -/
def cleaned (step : ℤ) (data : JsonTree) : Except Exc JsonTree :=
  if step = 7 then (validatePreferences (clean data)).map column else .ok (clean data)

/-- `config.get("step_8", {}).get("preflight_ok", False)` -/
def preflightOk (config : List (Text × JsonTree)) : Except Exc Bool :=
  match (config.lookup (stepKey 8)).getD (.dict []) with
  | .dict final => .ok (truthy ((final.lookup (Text.of "preflight_ok")).getD (.bool false)))
  | _ => .error .attributeError

def startOrResume (store : Store) (userId : Option String) (setupId : String) :
    WizardSnapshot × Store :=
  match store.lookup setupId with
  | some row => (snapshot setupId row, store)
  | none =>
    let row : SetupState := ⟨userId, 1, [], [], none⟩
    (snapshot setupId row, store.insert setupId row)

/-- `complete_step` once the row is there. -/
def completeRow (now step : ℤ) (data : JsonTree) : InSession WizardSnapshot := do
  let row := (← get).row
  let completed := row.completedSteps
  if step ≠ expectedStep completed ∧ step ∉ completed then
    throw (.valueError (Text.of "wizard steps must complete sequentially"))
  let kept ← MonadExcept.ofExcept (cleaned step data)
  let config := setKey (stepKey step) kept row.nonSecretConfig
  let completed := if step ∉ completed then completed ++ [step] else completed
  change fun row => { row with
    completedSteps := completed.insertionSort (· ≤ ·)
    nonSecretConfig := config
    currentStep := min 8 (step + 1) }
  if (← get).row.completedSteps.toFinset = STEPS.toFinset then
    if ¬ (← MonadExcept.ofExcept (preflightOk config)) then
      throw (.permissionError (Text.of "final preflight must pass"))
    change fun row => { row with completedAt := some now, currentStep := 8 }
  commit
  return snapshot (← get).setupId (← get).row

def completeStep (store : Store) (setupId : String) (now step : ℤ) (data : JsonTree) :
    Except Exc WizardSnapshot × Store :=
  if step ∉ STEPS then (raiseValueError "wizard step out of range", store)
  else match store.lookup setupId with
    | none => (.error (.lookupError (Text.of "setup state not found")), store)
    | some row => close ((completeRow now step data).run ⟨store, setupId, row⟩)

end Service

/-! ## 5. Calls -/

inductive Call
  | startOrResume (userId : Option String) (setupId : String)
  | completeStep (setupId : String) (now step : ℤ) (data : JsonTree)

section Calls

variable [WizardRuntime]

def perform (store : Store) : Call → Except Exc WizardSnapshot × Store
  | .startOrResume userId setupId =>
    ((.ok (startOrResume store userId setupId).1), (startOrResume store userId setupId).2)
  | .completeStep setupId now step data => completeStep store setupId now step data

def run (calls : List Call) : Store := calls.foldl (fun store call => (perform store call).2) ∅

end Calls

/-! ## 6. A session -/

section Sessions

variable [WizardRuntime] {now step : ℤ} {data : JsonTree} {row row' : SetupState}

/-- The row that is stored, if the call returns. -/
def nextRow (now step : ℤ) (data : JsonTree) (row : SetupState) : Except Exc SetupState :=
  let completed := row.completedSteps
  if step ≠ expectedStep completed ∧ step ∉ completed then
    raiseValueError "wizard steps must complete sequentially"
  else do
    let kept ← cleaned step data
    let config := setKey (stepKey step) kept row.nonSecretConfig
    let completed := (if step ∉ completed then completed ++ [step] else completed).insertionSort
      (· ≤ ·)
    if completed.toFinset = STEPS.toFinset then
      if ← preflightOk config then
        return { row with completedSteps := completed, nonSecretConfig := config, currentStep := 8,
                          completedAt := some now }
      else .error (.permissionError (Text.of "final preflight must pass"))
    else
      return { row with completedSteps := completed, nonSecretConfig := config,
                        currentStep := min 8 (step + 1) }

section Running

variable {α β : Type} (s : Session)

omit [WizardRuntime]

@[simp] theorem run_bind (x : InSession α) (f : α → InSession β) : (x >>= f) s =
    match x s with
    | .ok a s => f a s
    | .error e s => .error e s := by
  change EStateM.bind x f s = _
  rw [EStateM.bind]
  cases x s <;> rfl

@[simp] theorem run_get : (get : InSession Session) s = .ok s s := rfl

@[simp] theorem run_throw (e : Exc) : (throw e : InSession α) s = .error e s := rfl

@[simp] theorem run_change (f : SetupState → SetupState) :
    change f s = .ok () { s with row := f s.row } := rfl

@[simp] theorem run_ofExcept (x : Except Exc α) : (MonadExcept.ofExcept x : InSession α) s =
    match x with
    | .ok a => .ok a s
    | .error e => .error e s := by
  cases x <;> rfl

@[simp] theorem run_ite (c : Prop) [Decidable c] (x y : InSession α) :
    (if c then x else y) s = if c then x s else y s := by
  split_ifs <;> rfl

end Running

/-- **A session** stores the row of a call that returns, and nothing if the call does not. -/
theorem close_completeRow (s : Session) : close ((completeRow now step data).run s) =
    match nextRow now step data s.row with
    | .ok row => (.ok (snapshot s.setupId row), s.stored.insert s.setupId row)
    | .error e => (.error e, s.stored) := by
  unfold completeRow nextRow
  by_cases hstep : step ≠ expectedStep s.row.completedSteps ∧ step ∉ s.row.completedSteps
  · simp only [EStateM.run, run_bind, run_get, run_ite, if_pos hstep, run_throw]
    rfl
  · simp only [EStateM.run, run_bind, run_get, run_ite, if_neg hstep, run_ofExcept]
    cases cleaned step data with
    | error e => rfl
    | ok kept =>
      simp only [run_change, ok_bind]
      generalize (if step ∉ s.row.completedSteps then s.row.completedSteps ++ [step]
        else s.row.completedSteps).insertionSort (· ≤ ·) = completed
      split_ifs with hall
      · cases preflightOk (setKey (stepKey step) kept s.row.nonSecretConfig) with
        | error e => rfl
        | ok passed => cases passed <;> rfl
      · rfl

/-- **One call** leaves the store alone, or stores a new row, or the next one of a row. -/
theorem perform_cases (store : Store) (call : Call) : (perform store call).2 = store ∨
    ∃ setupId row, (perform store call).2 = store.insert setupId row ∧
      (∃ answer, (perform store call).1 = .ok answer) ∧
      ((∃ userId, row = ⟨userId, 1, [], [], none⟩) ∨
        ∃ now step data before, call = .completeStep setupId now step data ∧ step ∈ STEPS ∧
          store.lookup setupId = some before ∧ nextRow now step data before = .ok row) := by
  cases call with
  | startOrResume userId setupId =>
    rw [perform, startOrResume]
    cases store.lookup setupId with
    | some row => exact .inl rfl
    | none => exact .inr ⟨setupId, _, rfl, ⟨_, rfl⟩, .inl ⟨userId, rfl⟩⟩
  | completeStep setupId now step data =>
    rw [perform, completeStep]
    by_cases hstep : step ∉ STEPS
    · rw [if_pos hstep]
      exact .inl rfl
    rw [if_neg hstep]
    cases hlookup : store.lookup setupId with
    | none => exact .inl rfl
    | some before =>
      dsimp only
      rw [close_completeRow]
      dsimp only
      cases hnext : nextRow now step data before with
      | error e => exact .inl rfl
      | ok row =>
        exact .inr ⟨setupId, row, rfl, ⟨_, rfl⟩,
          .inr ⟨now, step, data, before, rfl, not_not.mp hstep, hlookup, hnext⟩⟩

/-- **A call that raises** leaves the store as it was. -/
theorem unchanged_of_error {store : Store} {call : Call} {e : Exc}
    (h : (perform store call).1 = .error e) : (perform store call).2 = store := by
  rcases perform_cases store call with hsame | ⟨setupId, row, -, ⟨answer, hanswer⟩, -⟩
  · exact hsame
  · rw [hanswer] at h
    cases h

/-- **A run**: what holds of a new row, and is kept by the calls that are made, holds of each row
that is stored. -/
theorem row_run {P : SetupState → Prop} {C : Call → Prop}
    (hnew : ∀ userId, P ⟨userId, 1, [], [], none⟩)
    (hnext : ∀ setupId now step data row row', C (.completeStep setupId now step data) →
      step ∈ STEPS → P row → nextRow now step data row = .ok row' → P row')
    {calls : List Call} (hcalls : ∀ call ∈ calls, C call) {setupId : String}
    (hrow : (run calls).lookup setupId = some row) : P row := by
  induction calls using List.reverseRecOn generalizing setupId row with
  | nil => cases hrow
  | append_singleton calls call ih =>
    rw [List.forall_mem_append, List.forall_mem_singleton] at hcalls
    rw [run, List.foldl_append, List.foldl_cons, List.foldl_nil, ← run] at hrow
    rcases perform_cases (run calls) call with hsame | ⟨setupId', stored, hstored, -, hcase⟩
    · rw [hsame] at hrow
      exact ih hcalls.1 hrow
    rw [hstored] at hrow
    by_cases hid : setupId = setupId'
    · subst hid
      rw [AList.lookup_insert] at hrow
      obtain rfl := Option.some.inj hrow
      rcases hcase with ⟨userId, rfl⟩ | ⟨now, step, data, before, rfl, hstep, hbefore, hrow'⟩
      · exact hnew userId
      · exact hnext _ now step data before _ hcalls.2 hstep (ih hcalls.1 hbefore) hrow'
    · rw [AList.lookup_insert_ne hid] at hrow
      exact ih hcalls.1 hrow

end Sessions

/-! ## 7. Steps -/

section Steps

variable [WizardRuntime] {now step : ℤ} {data : JsonTree} {row row' : SetupState}
  {config : List (Text × JsonTree)}

/-- Step 8 has been stored with a preflight that has passed. -/
def PreflightPassed (config : List (Text × JsonTree)) : Prop :=
  ∃ final v, config.lookup (stepKey 8) = some (.dict final) ∧
    final.lookup (Text.of "preflight_ok") = some v ∧ truthy v = true

theorem passed_of_preflightOk (h : preflightOk config = .ok true) : PreflightPassed config := by
  unfold preflightOk at h
  cases hfinal : config.lookup (stepKey 8) with
  | none =>
    rw [hfinal] at h
    cases h
  | some final =>
    rw [hfinal, Option.getD_some] at h
    cases final with
    | dict final =>
      cases hv : final.lookup (Text.of "preflight_ok") with
      | none =>
        simp only [hv] at h
        cases h
      | some v =>
        simp only [hv] at h
        exact ⟨final, v, hfinal, hv, Except.ok.inj h⟩
    | _ => cases h

/-- What holds of the steps of a row. -/
structure StepsInOrder (row : SetupState) : Prop where
  initial : ∃ k ≤ 8, row.completedSteps = STEPS.take k
  completed : row.completedAt.isSome = true →
    row.completedSteps = STEPS ∧ PreflightPassed row.nonSecretConfig

omit [WizardRuntime] in
/-- The next step goes behind those that are done. -/
theorem take_concat : ∀ k ≤ 8, ∀ step ∈ STEPS, step ∉ STEPS.take k →
    step = expectedStep (STEPS.take k) → k < 8 ∧ STEPS.take k ++ [step] = STEPS.take (k + 1) := by
  decide

omit [WizardRuntime] in
theorem sorted_take (k : ℕ) : (STEPS.take k).insertionSort (· ≤ ·) = STEPS.take k := by
  have hsorted : STEPS.Pairwise (· ≤ ·) := by decide
  exact (hsorted.sublist (List.take_sublist k STEPS)).insertionSort_eq

omit [WizardRuntime] in
theorem eq_of_toFinset : ∀ k ≤ 8, (STEPS.take k).toFinset = STEPS.toFinset →
    STEPS.take k = STEPS := by
  decide

/-- What a call that returns has made of the row. -/
theorem nextRow_cases (h : nextRow now step data row = .ok row') :
    (step = expectedStep row.completedSteps ∨ step ∈ row.completedSteps) ∧
    (row'.completedSteps = (if step ∉ row.completedSteps then row.completedSteps ++ [step]
      else row.completedSteps).insertionSort (· ≤ ·)) ∧
    (∃ kept, cleaned step data = .ok kept ∧
      row'.nonSecretConfig = setKey (stepKey step) kept row.nonSecretConfig) ∧
    (row'.completedSteps.toFinset = STEPS.toFinset ∧
        preflightOk row'.nonSecretConfig = .ok true ∨
      row'.completedSteps.toFinset ≠ STEPS.toFinset ∧ row'.completedAt = row.completedAt) := by
  unfold nextRow at h
  dsimp only at h
  by_cases hrefused : step ≠ expectedStep row.completedSteps ∧ step ∉ row.completedSteps
  · rw [if_pos hrefused] at h
    cases h
  rw [if_neg hrefused] at h
  rw [not_and_or, not_not, not_not] at hrefused
  obtain ⟨kept, hkept, h⟩ := bind_eq_ok_iff.mp h
  refine ⟨hrefused, ?_⟩
  generalize (if step ∉ row.completedSteps then row.completedSteps ++ [step]
    else row.completedSteps).insertionSort (· ≤ ·) = completed at h ⊢
  split at h
  · next hall =>
    obtain ⟨passed, hpassed, h⟩ := bind_eq_ok_iff.mp h
    split_ifs at h with htrue
    cases h
    exact ⟨rfl, ⟨kept, hkept, rfl⟩, .inl ⟨hall, htrue ▸ hpassed⟩⟩
  · next hall =>
    cases h
    exact ⟨rfl, ⟨kept, hkept, rfl⟩, .inr ⟨hall, rfl⟩⟩

/-- **One call** keeps the order of the steps. -/
theorem row_step (hstep : step ∈ STEPS) (h : StepsInOrder row)
    (hnext : nextRow now step data row = .ok row') : StepsInOrder row' := by
  obtain ⟨hexpected, hsteps, -, hdone⟩ := nextRow_cases hnext
  obtain ⟨k, hk, hrow⟩ := h.initial
  have hinitial : ∃ k ≤ 8, row'.completedSteps = STEPS.take k := by
    rw [hsteps]
    rw [hrow] at hexpected ⊢
    by_cases hnew : step ∉ STEPS.take k
    · obtain ⟨hlt, hconcat⟩ := take_concat k hk step hstep hnew (hexpected.resolve_right hnew)
      rw [if_pos hnew, hconcat, sorted_take]
      exact ⟨k + 1, hlt, rfl⟩
    · rw [if_neg hnew, sorted_take]
      exact ⟨k, hk, rfl⟩
  refine ⟨hinitial, fun hcompleted => ?_⟩
  obtain ⟨k', hk', hrow'⟩ := hinitial
  rcases hdone with ⟨hall, hpassed⟩ | ⟨hnot, hsame⟩
  · rw [hrow'] at hall ⊢
    exact ⟨eq_of_toFinset k' hk' hall, passed_of_preflightOk hpassed⟩
  · -- a row that is completed has all steps, and they stay
    rw [hsame] at hcompleted
    have hall := (h.completed hcompleted).1
    rw [hall] at hsteps
    refine absurd ?_ hnot
    rw [hsteps, if_neg (not_not.mpr hstep)]
    decide

end Steps

/-! ## 8. Keys -/

theorem mem_keysOfFields {k : Text} {fields : List (Text × JsonTree)} :
    k ∈ keysOfFields fields ↔ ∃ e ∈ fields, k = e.1 ∨ k ∈ keysOf e.2 := by
  induction fields with
  | nil => simp [keysOfFields]
  | cons e fields ih =>
    rw [keysOfFields, List.mem_cons, List.mem_append, ih, ← or_assoc]
    simp only [List.mem_cons, exists_eq_or_imp]

section Secrets

variable [WizardRuntime] {now step : ℤ} {data v : JsonTree} {row row' : SetupState} {k : Key}
  {d : List (Key × JsonTree)}

/-- No key of a secret in the value. -/
def Secretless (v : JsonTree) : Prop := ∀ k ∈ keysOf v, isSecretKey k = false

/-- No key of a secret in the dictionary, once it is stored. -/
def SecretlessItems (d : List (Key × JsonTree)) : Prop :=
  ∀ e ∈ d, isSecretKey (keyText e.1) = false ∧ Secretless e.2

theorem secretless_dict_iff {fields : List (Text × JsonTree)} : Secretless (.dict fields) ↔
    ∀ e ∈ fields, isSecretKey e.1 = false ∧ Secretless e.2 := by
  constructor
  · intro h e he
    exact ⟨h e.1 (mem_keysOfFields.mpr ⟨e, he, .inl rfl⟩),
      fun k hk => h k (mem_keysOfFields.mpr ⟨e, he, .inr hk⟩)⟩
  · intro h k hk
    obtain ⟨e, he, rfl | hk⟩ := mem_keysOfFields.mp hk
    · exact (h e he).1
    · exact (h e he).2 k hk

theorem SecretlessItems.setItem (h : SecretlessItems d) (hk : isSecretKey (keyText k) = false)
    (hv : Secretless v) : SecretlessItems (setItem k v d) := by
  induction d with
  | nil => exact List.forall_mem_singleton.mpr ⟨hk, hv⟩
  | cons e d ih =>
    obtain ⟨he, hd⟩ := List.forall_mem_cons.mp h
    rw [Setup.setItem]
    split_ifs with hsame
    · exact List.forall_mem_cons.mpr ⟨⟨he.1, hv⟩, hd⟩
    · exact List.forall_mem_cons.mpr ⟨he, ih hd⟩

theorem SecretlessItems.column (h : SecretlessItems d) : Secretless (column d) := by
  refine secretless_dict_iff.mpr fun e he => ?_
  obtain ⟨e, hmem, rfl⟩ := List.mem_map.mp (dictOf_subset _ he)
  exact h e hmem

theorem secretless_setKey {key : Text} {config : List (Text × JsonTree)}
    (h : Secretless (.dict config)) (hkey : isSecretKey key = false) (hv : Secretless v) :
    Secretless (.dict (setKey key v config)) := by
  refine secretless_dict_iff.mpr fun e he => ?_
  rcases mem_setKey he with rfl | he
  · exact ⟨hkey, hv⟩
  · exact secretless_dict_iff.mp h e he

/-- A JSON array. -/
def isArray : JsonTree → Bool
  | .list _ => true
  | _ => false

/-- **What `dict` makes of a value** that is no array has no other keys. -/
theorem secretless_dictFrom (hdata : isArray data = false) (h : Secretless data)
    (hd : dictFrom data = .ok d) : SecretlessItems d := by
  cases data with
  | dict fields =>
    cases hd
    intro e he
    obtain ⟨e, hmem, rfl⟩ := List.mem_map.mp he
    exact secretless_dict_iff.mp h e hmem
  | str s =>
    cases s with
    | nil =>
      cases hd
      exact List.forall_mem_nil _
    | cons c s => cases hd
  | list items => cases hdata
  | _ => cases hd

theorem secretless_checkNotifications {notifications : JsonTree}
    (h : checkNotifications v = .ok notifications) : Secretless notifications := by
  cases v with
  | dict items =>
    rw [checkNotifications] at h
    split_ifs at h
    · cases h
    · cases h
      refine secretless_dict_iff.mpr fun e he => ?_
      obtain ⟨k, hk, rfl⟩ := List.mem_map.mp he
      refine ⟨?_, fun k hk => by cases hk⟩
      simp only [ALLOWED, List.map_cons, List.map_nil, List.mem_cons, List.not_mem_nil,
        or_false] at hk
      rcases hk with rfl | rfl | rfl <;> rfl
  | _ => cases h

theorem secretless_validatePreferences (hdata : isArray data = false) (h : Secretless data)
    (hd : validatePreferences data = .ok d) : SecretlessItems d := by
  obtain ⟨out, hout, hd⟩ := bind_eq_ok_iff.mp hd
  dsimp only at hd
  split at hd
  · cases hd
  · cases hd
  · obtain ⟨notifications, hnotifications, hd⟩ := bind_eq_ok_iff.mp hd
    cases hd
    have hitems := secretless_dictFrom hdata h hout
    refine (hitems.setItem rfl ?_).setItem rfl (secretless_checkNotifications hnotifications)
    exact fun k hk => by cases hk

theorem isArray_clean : isArray (clean data) = isArray data := by
  cases data <;> rfl

theorem secretless_cleaned (hdata : step = 7 → isArray data = false)
    (h : cleaned step data = .ok v) : Secretless v := by
  have hclean : Secretless (clean data) := not_secret_of_mem_keys_clean data
  rw [cleaned] at h
  split_ifs at h with hseven
  · obtain ⟨d, hd, rfl⟩ := map_eq_ok_iff.mp h
    exact (secretless_validatePreferences (isArray_clean.trans (hdata hseven)) hclean hd).column
  · cases h
    exact hclean

theorem not_secret_stepKey : ∀ step ∈ STEPS, isSecretKey (stepKey step) = false := by
  intro step hstep
  simp only [STEPS, List.mem_cons, List.not_mem_nil, or_false] at hstep
  rcases hstep with rfl | rfl | rfl | rfl | rfl | rfl | rfl | rfl <;> rfl

/-- **One call** stores no key of a secret. -/
theorem row_secretless (hdata : step = 7 → isArray data = false) (hstep : step ∈ STEPS)
    (h : Secretless (.dict row.nonSecretConfig)) (hnext : nextRow now step data row = .ok row') :
    Secretless (.dict row'.nonSecretConfig) := by
  obtain ⟨-, -, ⟨kept, hkept, hconfig⟩, -⟩ := nextRow_cases hnext
  rw [hconfig]
  exact secretless_setKey h (not_secret_stepKey step hstep) (secretless_cleaned hdata hkept)

end Secrets

/-! ## 9. The wizard -/

/-- An array is given for the preferences, where `dict` makes keys of texts. -/
def Call.GivesArray : Call → Prop
  | .startOrResume _ _ => False
  | .completeStep _ _ step data => step = 7 ∧ isArray data = true

/-- **The wizard is sound**: after every run the steps that are stored as completed are the first
ones, a setup is completed only with all steps and a preflight that has passed, no key of a secret
is stored if no array has been given for the preferences, and a call that raises changes nothing.
The cleaning is idempotent and keeps every other key. -/
theorem wizard_integrity [WizardRuntime] (calls : List Call) :
    (∀ setupId row, (run calls).lookup setupId = some row →
      (∃ k ≤ 8, row.completedSteps = STEPS.take k) ∧
      (row.completedAt.isSome = true → row.completedSteps = STEPS ∧
        PreflightPassed row.nonSecretConfig) ∧
      ((∀ call ∈ calls, ¬ call.GivesArray) → ∀ k ∈ keysOf (.dict row.nonSecretConfig),
        ∀ word ∈ SECRET_WORDS, ¬ Text.of word <:+: casefold k)) ∧
    (∀ call e, (perform (run calls) call).1 = .error e → (perform (run calls) call).2 = run calls) ∧
    (∀ v, clean (clean v) = clean v) ∧
    ∀ path v, valueAt (clean v) path =
      if path.any Place.isSecret then none else (valueAt v path).map clean := by
  refine ⟨fun setupId row hrow => ?_, fun call e => unchanged_of_error, clean_clean, at_clean⟩
  have horder : StepsInOrder row := by
    refine row_run (C := fun _ => True) (fun userId => ⟨⟨0, by decide, rfl⟩, ?_⟩)
      (fun _ _ _ _ _ _ _ hstep h hnext => row_step hstep h hnext) (fun _ _ => trivial) hrow
    intro hcompleted
    cases hcompleted
  refine ⟨horder.initial, horder.completed, fun harray k hk word hword hinfix => ?_⟩
  have hsecretless : Secretless (.dict row.nonSecretConfig) := by
    refine row_run (P := fun row => Secretless (.dict row.nonSecretConfig))
      (C := fun call => ¬ call.GivesArray) (fun userId k hk => ?_) ?_ harray hrow
    · cases hk
    · intro _ now step data row row' hcall hstep h hnext
      refine row_secretless (fun hseven => ?_) hstep h hnext
      exact Bool.eq_false_of_not_eq_true fun hdata => hcall ⟨hseven, hdata⟩
  have hsecret := isSecretKey_iff.mpr ⟨word, hword, hinfix⟩
  rw [hsecretless k hk] at hsecret
  cases hsecret

/-- An interpreter that knows one timezone; beyond ASCII it folds nothing. -/
@[reducible] def plainRuntime : WizardRuntime where
  fold c := [c]
  floatValue _ := 1
  str _ := []
  zoneInfo name := if name = Text.of "UTC" then .found else .notFound

/-- Steps 1 to 6, and an array of a pair for the preferences. -/
def arrayCalls : List Call :=
  .startOrResume none "default" ::
    ([1, 2, 3, 4, 5, 6].map fun step => .completeStep "default" 0 step (.dict [])) ++
    [.completeStep "default" 0 7 (.list [.list [.str (Text.of "api_key"), .str (Text.of "k")]])]

/-- **The first text of a pair** becomes a key after the cleaning. -/
theorem secret_key_stored : ∃ row, (@run plainRuntime arrayCalls).lookup "default" = some row ∧
    ∃ k ∈ keysOf (.dict row.nonSecretConfig), ∃ word ∈ SECRET_WORDS,
      Text.of word <:+: @casefold plainRuntime.toPyCaseFolding k := by
  have hstored : ((@run plainRuntime arrayCalls).lookup "default").any (fun row =>
      (keysOf (.dict row.nonSecretConfig)).contains (Text.of "api_key")) = true := by
    decide +kernel
  obtain ⟨row, hrow, hk⟩ := (Option.any_eq_true _ _).mp hstored
  exact ⟨row, hrow, _, List.contains_iff_mem.mp hk, "api_key", by decide, by decide⟩

end Kripto.Setup
