/-
# Budgets for requests

`data/rate_limit.py`: a key has a weight that may be spent in a window of time, and a call that asks
for more than is left is refused.  A window that is over starts again with the next call, also with
one that is refused then.  Numbers are exact; a call that is given no time reads the clock itself,
`allow_with_fallback` once for each budget that it asks.

* `rate_limits_hold`: what is allowed on a key is at most its limit in a window and at most twice
  its limit in any time that is shorter than a window, and what a call spends is what it answers.
-/
import Kripto.Effect.Outcome
import Kripto.Effect.Windows
import Mathlib.Algebra.BigOperators.Group.Finset.Pi
import Mathlib.Data.Rat.Defs
import Mathlib.Tactic.Linarith

namespace Kripto.Data.RateLimit

open Effect

/-! ## 1. `data/rate_limit.py` -/

structure Budget where
  limit : ℚ
  intervalSeconds : ℚ
  used : ℚ := 0
  windowStarted : ℚ := 0

inductive Exc
  | keyError
  | valueError (msg : String)
  deriving DecidableEq

/-- The budget at a time: its window starts again if it is over. -/
def Budget.current (b : Budget) (now : ℚ) : Budget :=
  if b.intervalSeconds ≤ now - b.windowStarted then { b with used := 0, windowStarted := now }
  else b

/-- What is kept back from a call of this priority. -/
def Budget.reserve (b : Budget) (priority : String) : ℚ :=
  if priority = "low" then b.limit * (15 / 100) else 0

def Budget.spend (b : Budget) (weight : ℚ) : Budget := { b with used := b.used + weight }

structure RateLimitBudget (K : Type) where
  budgets : K → Option Budget := fun _ => none

/-- Which budget a call was served from. -/
inductive Source
  | PRIMARY | FALLBACK
  deriving DecidableEq

namespace RateLimitBudget

variable {K : Type} [DecidableEq K] (self : RateLimitBudget K)

/-- `self.budgets[key] = b`. -/
def set (key : K) (b : Budget) : RateLimitBudget K := ⟨Function.update self.budgets key (some b)⟩

def configure (key : K) (limit intervalSeconds now : ℚ) : Except Exc (RateLimitBudget K) :=
  if limit ≤ 0 ∨ intervalSeconds ≤ 0 then .error (.valueError "rate limit budget must be positive")
  else .ok (self.set key ⟨limit, intervalSeconds, 0, now⟩)

def allow (key : K) (weight : ℚ) (priority : String) (now : ℚ) :
    Except Exc Bool × RateLimitBudget K :=
  match self.budgets key with
  | none => (.error .keyError, self)
  | some b =>
    if weight ≤ 0 then (.error (.valueError "weight must be positive"), self)
    else if now < b.windowStarted then
      (.error (.valueError "rate-limit clock moved backwards"), self)
    else
      let b := b.current now
      if b.limit - b.reserve priority < b.used + weight then (.ok false, self.set key b)
      else (.ok true, self.set key (b.spend weight))

def allowWithFallback (primaryKey fallbackKey : K) (weight now fallbackNow : ℚ) :
    Except Exc (Option Source) × RateLimitBudget K :=
  match self.allow primaryKey weight "normal" now with
  | (.error e, s) => (.error e, s)
  | (.ok true, s) => (.ok (some .PRIMARY), s)
  | (.ok false, s) =>
    if s.budgets fallbackKey = none then (.ok none, s)
    else match s.allow fallbackKey weight "normal" fallbackNow with
      | (.error e, s) => (.error e, s)
      | (.ok true, s) => (.ok (some .FALLBACK), s)
      | (.ok false, s) => (.ok none, s)

end RateLimitBudget

/-! ## 2. Calls -/

section Calls

variable {K : Type} [DecidableEq K]

inductive Call (K : Type)
  | allow (key : K) (weight : ℚ) (priority : String) (now : ℚ)
  | allowWithFallback (primaryKey fallbackKey : K) (weight now fallbackNow : ℚ)

namespace Call

def weight : Call K → ℚ
  | allow _ weight _ _ => weight
  | allowWithFallback _ _ weight _ _ => weight

def priority : Call K → String
  | allow _ _ priority _ => priority
  | allowWithFallback .. => "normal"

def next (self : RateLimitBudget K) : Call K → RateLimitBudget K
  | allow key weight priority now => (self.allow key weight priority now).2
  | allowWithFallback primaryKey fallbackKey weight now fallbackNow =>
    (self.allowWithFallback primaryKey fallbackKey weight now fallbackNow).2

/-- The key that the call is served from, as it answers, and when. -/
def served (self : RateLimitBudget K) : Call K → Option (K × ℚ)
  | allow key weight priority now =>
    match (self.allow key weight priority now).1 with
    | .ok true => some (key, now)
    | _ => none
  | allowWithFallback primaryKey fallbackKey weight now fallbackNow =>
    match (self.allowWithFallback primaryKey fallbackKey weight now fallbackNow).1 with
    | .ok (some .PRIMARY) => some (primaryKey, now)
    | .ok (some .FALLBACK) => some (fallbackKey, fallbackNow)
    | _ => none

end Call

/-- What has been allowed on a key. -/
structure Grant (K : Type) where
  key : K
  priority : String
  entry : Entry ℚ ℚ

/-- Where the window of a key began. -/
def RateLimitBudget.window (self : RateLimitBudget K) (key : K) : ℚ :=
  (self.budgets key).elim 0 Budget.windowStarted

def Call.grants (self : RateLimitBudget K) (c : Call K) : List (Grant K) :=
  (c.served self).toList.map fun e =>
    ⟨e.1, c.priority, (c.next self).window e.1, e.2, c.weight⟩

/-- What the call spends on a key. -/
def Call.spent (self : RateLimitBudget K) (c : Call K) (key : K) : ℚ :=
  match c.served self with
  | some e => if e.1 = key then c.weight else 0
  | none => 0

def run (self : RateLimitBudget K) (calls : List (Call K)) : RateLimitBudget K :=
  calls.foldl (fun s c => c.next s) self

/-- All that the calls have been allowed. -/
def history : RateLimitBudget K → List (Call K) → List (Grant K)
  | _, [] => []
  | self, c :: calls => c.grants self ++ history (c.next self) calls

def onKey (key : K) (grants : List (Grant K)) : List (Grant K) :=
  grants.filter fun g => g.key = key

def entriesOn (key : K) (grants : List (Grant K)) : List (Entry ℚ ℚ) :=
  (onKey key grants).map Grant.entry

/-- From one budget to the other this weight has been spent, in the same window or in a new one. -/
inductive Spends : Option Budget → Option Budget → ℚ → Prop
  | unknown : Spends none none 0
  | same {b b' : Budget} {weight : ℚ} (window : b'.windowStarted = b.windowStarted)
      (used : b'.used = b.used + weight) : Spends (some b) (some b') weight
  | restarted {b b' : Budget} {weight : ℚ} (window : b.windowStarted < b'.windowStarted)
      (used : b'.used = weight) : Spends (some b) (some b') weight

/-- The budgets that `configure` has set up. -/
inductive SetUp : RateLimitBudget K → Prop
  | empty : SetUp {}
  | configure {s s' : RateLimitBudget K} (h : SetUp s) (key : K) (limit intervalSeconds now : ℚ)
      (hconfigure : s.configure key limit intervalSeconds now = .ok s') : SetUp s'

end Calls

/-! ## 3. One budget -/

section Budget

variable {b b' : Budget} {now weight : ℚ} {priority : String}

theorem Spends.refl (b : Option Budget) : Spends b b 0 := by
  cases b with
  | none => exact .unknown
  | some b => exact .same rfl (add_zero _).symm

/-- First nothing is spent, then something. -/
theorem Spends.trans {o o' o'' : Option Budget} (h : Spends o o' 0) (h' : Spends o' o'' weight) :
    Spends o o'' weight := by
  cases h with
  | unknown => exact h'
  | same window used =>
    cases h' with
    | same window' used' => exact .same (window'.trans window) (by rw [used', used, add_zero])
    | restarted window' used' => exact .restarted (window ▸ window') used'
  | restarted window used =>
    cases h' with
    | same window' used' => exact .restarted (window' ▸ window) (by rw [used', used, zero_add])
    | restarted window' used' => exact .restarted (window.trans window') used'

theorem spends_current (hinterval : 0 < b.intervalSeconds) :
    Spends (some b) (some (b.current now)) 0 := by
  unfold Budget.current
  split_ifs with hover
  · exact .restarted (by dsimp only; linarith) rfl
  · exact .refl _

theorem spends_spend : Spends (some b) (some (b.spend weight)) weight := .same rfl rfl

/-- What is kept back is 15% of the limit or nothing. -/
theorem reserve_nonneg (hlimit : 0 < b.limit) : 0 ≤ b.reserve priority := by
  unfold Budget.reserve
  split_ifs
  · linarith
  · exact le_rfl

theorem limit_sub_reserve_low : b.limit - b.reserve "low" = 85 / 100 * b.limit := by
  rw [Budget.reserve, if_pos rfl]
  linarith

end Budget

/-! ## 4. A budget and what has been allowed on it -/

section Tracks

variable {K : Type}

/-- The budget is the one it was set up as, and has counted what has been allowed. -/
structure Tracks (b₀ b : Budget) (grants : List (Grant K)) : Prop where
  limit : b.limit = b₀.limit
  interval : b.intervalSeconds = b₀.intervalSeconds
  limit_pos : 0 < b.limit
  interval_pos : 0 < b.intervalSeconds
  counter : Counter b.intervalSeconds b.windowStarted b.used (grants.map Grant.entry)
  positive : ∀ g ∈ grants, 0 < g.entry.weight
  within : ∀ w, weightIn (fun e => e.window = w) (grants.map Grant.entry) ≤ b.limit
  low : ∀ before g, before ++ [g] <+: grants → g.priority = "low" →
    weightIn (fun e => e.window = g.entry.window) ((before ++ [g]).map Grant.entry) ≤
      85 / 100 * b.limit

variable {b₀ b : Budget} {grants : List (Grant K)} {now weight : ℚ} {priority : String} {key : K}

theorem tracks_start (hlimit : 0 < b.limit) (hinterval : 0 < b.intervalSeconds)
    (hused : b.used = 0) : Tracks b b ([] : List (Grant K)) where
  limit := rfl
  interval := rfl
  limit_pos := hlimit
  interval_pos := hinterval
  counter := hused ▸ counter_start _ _
  positive := List.forall_mem_nil _
  within w := hlimit.le
  low before g hpre := absurd (List.prefix_nil.mp hpre) (by simp)

/-- A call looks at the budget when its window is up to date. -/
theorem Tracks.current (h : Tracks b₀ b grants) (hnow : b.windowStarted ≤ now) :
    Tracks b₀ (b.current now) grants ∧ (b.current now).windowStarted ≤ now ∧
      now < (b.current now).windowStarted + (b.current now).intervalSeconds := by
  unfold Budget.current
  split_ifs with hover
  · refine ⟨?_, le_rfl, lt_add_of_pos_right now h.interval_pos⟩
    have hend : b.windowStarted + b.intervalSeconds ≤ now := by linarith
    have hcounter := h.counter.restart h.interval_pos hend
    exact ⟨h.limit, h.interval, h.limit_pos, h.interval_pos, hcounter, h.positive, h.within, h.low⟩
  · exact ⟨h, hnow, by linarith⟩

/-- What fits is spent. -/
theorem Tracks.spend (h : Tracks b₀ b grants) (hweight : 0 < weight)
    (hstart : b.windowStarted ≤ now) (hnow : now < b.windowStarted + b.intervalSeconds)
    (hfits : b.used + weight ≤ b.limit - b.reserve priority) :
    Tracks b₀ (b.spend weight)
      (grants ++ [⟨key, priority, b.windowStarted, now, weight⟩]) := by
  have hcounter : Counter b.intervalSeconds b.windowStarted (b.used + weight)
      (grants.map Grant.entry ++ [⟨b.windowStarted, now, weight⟩]) := h.counter.count hstart hnow
  rw [← List.map_singleton (f := Grant.entry) (a := ⟨key, priority, b.windowStarted, now, weight⟩),
    ← List.map_append] at hcounter
  refine ⟨h.limit, h.interval, h.limit_pos, h.interval_pos, hcounter, ?_, ?_, ?_⟩
  · intro g hg
    rcases List.mem_append.mp hg with hg | hg
    · exact h.positive g hg
    · rw [List.mem_singleton.mp hg]
      exact hweight
  · intro w
    have hreserve : 0 ≤ b.reserve priority := reserve_nonneg h.limit_pos
    by_cases hw : b.windowStarted = w
    · subst hw
      rw [← hcounter.used]
      exact hfits.trans (sub_le_self _ hreserve)
    · rw [List.map_append, List.map_singleton, weightIn_concat_of_neg hw]
      exact h.within w
  · intro before g hpre hlow
    rcases List.prefix_concat_iff.mp hpre with heq | hpre
    · obtain ⟨rfl, hg⟩ := List.append_inj' heq rfl
      obtain rfl := List.cons.inj hg |>.1
      have hpriority : priority = "low" := hlow
      rw [hpriority, limit_sub_reserve_low] at hfits
      rw [← hcounter.used]
      exact hfits
    · exact h.low before g hpre hlow

end Tracks

/-! ## 5. Runs -/

section Runs

variable {K : Type} [DecidableEq K] {s₀ s : RateLimitBudget K} {grants : List (Grant K)}

theorem onKey_append (key : K) (grants grants' : List (Grant K)) :
    onKey key (grants ++ grants') = onKey key grants ++ onKey key grants' := List.filter_append ..

theorem onKey_self {key : K} {priority : String} {e : Entry ℚ ℚ} :
    onKey key [⟨key, priority, e⟩] = [⟨key, priority, e⟩] := by
  rw [onKey, List.filter_cons_of_pos (by simp), List.filter_nil]

theorem onKey_of_ne {key key' : K} (h : key' ≠ key) {priority : String} {e : Entry ℚ ℚ} :
    onKey key' [⟨key, priority, e⟩] = [] := by
  rw [onKey, List.filter_cons_of_neg (by simpa using h.symm), List.filter_nil]

@[simp] theorem budgets_set_self (self : RateLimitBudget K) (key : K) (b : Budget) :
    (self.set key b).budgets key = some b := Function.update_self ..

theorem budgets_set_of_ne (self : RateLimitBudget K) {key key' : K} (h : key' ≠ key) (b : Budget) :
    (self.set key b).budgets key' = self.budgets key' := Function.update_of_ne h ..

/-- **What `allow` can do**: raise, refuse, or spend what fits. -/
theorem allow_cases (self : RateLimitBudget K) (key : K) (weight : ℚ) (priority : String)
    (now : ℚ) :
    (∃ e, self.allow key weight priority now = (.error e, self)) ∨
      ∃ b, self.budgets key = some b ∧ b.windowStarted ≤ now ∧
        (self.allow key weight priority now = (.ok false, self.set key (b.current now)) ∨
          0 < weight ∧ (b.current now).used + weight ≤
              (b.current now).limit - (b.current now).reserve priority ∧
            self.allow key weight priority now =
              (.ok true, self.set key ((b.current now).spend weight))) := by
  unfold RateLimitBudget.allow
  cases hkey : self.budgets key with
  | none => exact .inl ⟨_, rfl⟩
  | some b =>
    dsimp only
    by_cases hweight : weight ≤ 0
    · exact .inl ⟨_, if_pos hweight⟩
    rw [if_neg hweight]
    by_cases hnow : now < b.windowStarted
    · exact .inl ⟨_, if_pos hnow⟩
    rw [if_neg hnow]
    refine .inr ⟨b, rfl, not_lt.mp hnow, ?_⟩
    by_cases hfits : (b.current now).limit - (b.current now).reserve priority <
        (b.current now).used + weight
    · exact .inl (if_pos hfits)
    · exact .inr ⟨not_le.mp hweight, not_lt.mp hfits, if_neg hfits⟩

/-- Every budget tracks what has been allowed on its key. -/
structure Sound (s₀ s : RateLimitBudget K) (grants : List (Grant K)) : Prop where
  tracks : ∀ key b, s.budgets key = some b →
    ∃ b₀, s₀.budgets key = some b₀ ∧ Tracks b₀ b (onKey key grants)
  known : ∀ key, s.budgets key = none → s₀.budgets key = none

/-- One budget changes. -/
theorem Sound.set {key : K} {b' : Budget} {new : List (Grant K)} (h : Sound s₀ s grants)
    (hnew : ∀ key', key' ≠ key → onKey key' new = [])
    (htracks : ∃ b₀, s₀.budgets key = some b₀ ∧ Tracks b₀ b' (onKey key grants ++ onKey key new)) :
    Sound s₀ (s.set key b') (grants ++ new) where
  tracks key' b hb := by
    rw [onKey_append]
    by_cases hkey : key' = key
    · subst hkey
      rw [budgets_set_self] at hb
      obtain rfl := Option.some.inj hb
      exact htracks
    · rw [budgets_set_of_ne s hkey] at hb
      rw [hnew key' hkey, List.append_nil]
      exact h.tracks key' b hb
  known key' hnone := by
    by_cases hkey : key' = key
    · subst hkey
      simp at hnone
    · rw [budgets_set_of_ne s hkey] at hnone
      exact h.known key' hnone

theorem served_of_allowed {key : K} {weight : ℚ} {priority : String} {now : ℚ}
    (h : (s.allow key weight priority now).1 = .ok true) :
    (Call.allow key weight priority now).served s = some (key, now) := by
  rw [Call.served, h]

theorem served_of_refused {key : K} {weight : ℚ} {priority : String} {now : ℚ}
    (h : (s.allow key weight priority now).1 ≠ .ok true) :
    (Call.allow key weight priority now).served s = none := by
  rw [Call.served]
  split
  · next hok => exact absurd hok h
  · rfl

theorem spent_of_refused {key : K} {weight : ℚ} {priority : String} {now : ℚ}
    (h : (s.allow key weight priority now).1 ≠ .ok true) (key' : K) :
    (Call.allow key weight priority now).spent s key' = 0 := by
  rw [Call.spent, served_of_refused h]

theorem grants_of_refused {key : K} {weight : ℚ} {priority : String} {now : ℚ}
    (h : (s.allow key weight priority now).1 ≠ .ok true) :
    (Call.allow key weight priority now).grants s = [] := by
  rw [Call.grants, served_of_refused h]
  rfl

/-- The budgets are sound after the call, and have spent what it spends. -/
def Keeps (s₀ s : RateLimitBudget K) (grants : List (Grant K)) (c : Call K) : Prop :=
  Sound s₀ (c.next s) (grants ++ c.grants s) ∧
    ∀ key, Spends (s.budgets key) ((c.next s).budgets key) (c.spent s key)

/-- One budget changes, and spends an amount. -/
theorem spends_set {key : K} {b b' : Budget} {amount : ℚ} (hb : s.budgets key = some b)
    (hspends : Spends (some b) (some b') amount) (key' : K) :
    Spends (s.budgets key') ((s.set key b').budgets key') (if key = key' then amount else 0) := by
  by_cases hkey : key = key'
  · subst hkey
    rw [budgets_set_self, hb, if_pos rfl]
    exact hspends
  · rw [budgets_set_of_ne s (Ne.symm hkey), if_neg hkey]
    exact .refl _

/-- What a call grants that spends what it asks for. -/
theorem grants_of_allowed {key : K} {b : Budget} {weight : ℚ} {priority : String} {now : ℚ}
    (hallow : s.allow key weight priority now =
      (.ok true, s.set key ((b.current now).spend weight))) :
    (Call.allow key weight priority now).grants s =
      [⟨key, priority, (b.current now).windowStarted, now, weight⟩] := by
  have hwindow : (s.set key ((b.current now).spend weight)).window key =
      (b.current now).windowStarted := by
    rw [RateLimitBudget.window, budgets_set_self]
    rfl
  rw [Call.grants, served_of_allowed (by rw [hallow]), Call.next, hallow]
  simp only [Option.toList_some, List.map_cons, List.map_nil, hwindow]
  rfl

theorem Sound.allow (h : Sound s₀ s grants) (key : K) (weight : ℚ) (priority : String) (now : ℚ) :
    Keeps s₀ s grants (.allow key weight priority now) := by
  rcases allow_cases s key weight priority now with ⟨e, hallow⟩ | ⟨b, hb, hnow, hallow | hallow⟩
  · have hrefused : (s.allow key weight priority now).1 ≠ .ok true := by
      rw [hallow]
      exact nofun
    rw [Keeps, grants_of_refused hrefused, Call.next, hallow, List.append_nil]
    refine ⟨h, fun key' => ?_⟩
    rw [spent_of_refused hrefused]
    exact .refl _
  · have hrefused : (s.allow key weight priority now).1 ≠ .ok true := by
      rw [hallow]
      exact nofun
    obtain ⟨b₀, hb₀, htracks⟩ := h.tracks key b hb
    rw [Keeps, grants_of_refused hrefused, Call.next, hallow]
    refine ⟨h.set (fun _ _ => rfl) ⟨b₀, hb₀, ?_⟩, fun key' => ?_⟩
    · change Tracks b₀ (b.current now) (onKey key grants ++ [])
      rw [List.append_nil]
      exact (htracks.current hnow).1
    · have hnothing : Spends (some b) (some (b.current now)) 0 := spends_current htracks.interval_pos
      have hspends := spends_set hb hnothing key'
      rw [ite_self] at hspends
      rw [spent_of_refused hrefused]
      exact hspends
  · obtain ⟨hweight, hfits, hallow⟩ := hallow
    obtain ⟨b₀, hb₀, htracks⟩ := h.tracks key b hb
    obtain ⟨hcurrent, hstart, hend⟩ := htracks.current hnow
    rw [Keeps, grants_of_allowed hallow, Call.next, hallow]
    refine ⟨h.set (fun key' hkey => onKey_of_ne hkey) ⟨b₀, hb₀, ?_⟩, fun key' => ?_⟩
    · rw [onKey_self]
      exact hcurrent.spend hweight hstart hend hfits
    · rw [Call.spent, served_of_allowed (by rw [hallow])]
      exact spends_set hb ((spends_current htracks.interval_pos).trans spends_spend) key'

/-- **`allow_with_fallback`** is one call of `allow`, or two of which the first is refused. -/
theorem allowWithFallback_cases (s : RateLimitBudget K) (primaryKey fallbackKey : K)
    (weight now fallbackNow : ℚ) :
    let c := Call.allowWithFallback primaryKey fallbackKey weight now fallbackNow
    let first := Call.allow primaryKey weight "normal" now
    let second := Call.allow fallbackKey weight "normal" fallbackNow
    c.next s = first.next s ∧ c.served s = first.served s ∨
      first.served s = none ∧ c.next s = second.next (first.next s) ∧
        c.served s = second.served (first.next s) := by
  simp only [Call.next, Call.served]
  unfold RateLimitBudget.allowWithFallback
  cases s.allow primaryKey weight "normal" now with
  | mk answer s₁ =>
    cases answer with
    | error e => exact .inl ⟨rfl, rfl⟩
    | ok allowed =>
      cases allowed with
      | true => exact .inl ⟨rfl, rfl⟩
      | false =>
        dsimp only
        by_cases hfallback : s₁.budgets fallbackKey = none
        · rw [if_pos hfallback]
          exact .inl ⟨rfl, rfl⟩
        · rw [if_neg hfallback]
          refine .inr ⟨rfl, ?_⟩
          cases s₁.allow fallbackKey weight "normal" fallbackNow with
          | mk answer s₂ =>
            cases answer with
            | error e => exact ⟨rfl, rfl⟩
            | ok allowed => cases allowed <;> exact ⟨rfl, rfl⟩

/-- **A call** keeps the budgets sound, and spends from the budget that it answers with. -/
theorem Sound.next (h : Sound s₀ s grants) (c : Call K) : Keeps s₀ s grants c := by
  cases c with
  | allow key weight priority now => exact h.allow key weight priority now
  | allowWithFallback primaryKey fallbackKey weight now fallbackNow =>
    obtain ⟨hsound, hspends⟩ := h.allow primaryKey weight "normal" now
    rcases allowWithFallback_cases s primaryKey fallbackKey weight now fallbackNow with
      ⟨hnext, hserved⟩ | ⟨hrefused, hnext, hserved⟩
    · rw [Keeps, Call.grants, hserved, hnext]
      refine ⟨hsound, fun key => ?_⟩
      rw [Call.spent, hserved]
      exact hspends key
    · have hgrants : (Call.allow primaryKey weight "normal" now).grants s = [] := by
        rw [Call.grants, hrefused]
        rfl
      rw [hgrants, List.append_nil] at hsound
      obtain ⟨hsound', hspends'⟩ := hsound.allow fallbackKey weight "normal" fallbackNow
      rw [Keeps, Call.grants, hserved, hnext]
      refine ⟨hsound', fun key => ?_⟩
      have hfirst := hspends key
      rw [Call.spent, hrefused] at hfirst
      rw [Call.spent, hserved]
      exact hfirst.trans (hspends' key)

theorem Sound.run (h : Sound s₀ s grants) (calls : List (Call K)) :
    Sound s₀ (run s calls) (grants ++ history s calls) := by
  induction calls generalizing s grants with
  | nil =>
    rw [history, List.append_nil]
    exact h
  | cons c calls ih =>
    rw [history, ← List.append_assoc]
    exact ih (h.next c).1

theorem SetUp.sound (h : SetUp s₀) : Sound s₀ s₀ [] := by
  have hfresh : ∀ key b, s₀.budgets key = some b →
      0 < b.limit ∧ 0 < b.intervalSeconds ∧ b.used = 0 := by
    induction h with
    | empty => exact fun key b hb => nomatch hb
    | @configure s s' hs key limit intervalSeconds now hconfigure ih =>
      intro key' b hb
      unfold RateLimitBudget.configure at hconfigure
      split_ifs at hconfigure with hpositive
      obtain rfl := Except.ok.inj hconfigure
      rw [not_or, not_le, not_le] at hpositive
      by_cases hkey : key' = key
      · subst hkey
        rw [budgets_set_self] at hb
        obtain rfl := Option.some.inj hb
        exact ⟨hpositive.1, hpositive.2, rfl⟩
      · rw [budgets_set_of_ne s hkey] at hb
        exact ih key' b hb
  refine ⟨fun key b hb => ?_, fun key hnone => hnone⟩
  obtain ⟨hlimit, hinterval, hused⟩ := hfresh key b hb
  exact ⟨b, hb, tracks_start hlimit hinterval hused⟩

/-- **The limits of a budget** hold for what is allowed on its key. -/
structure LimitsHold (b : Budget) (key : K) (grants : List (Grant K)) : Prop where
  within : ∀ w, weightIn (fun e => e.window = w) (entriesOn key grants) ≤ b.limit
  between : ∀ start finish, finish < start + b.intervalSeconds →
    weightIn (fun e => start ≤ e.time ∧ e.time ≤ finish) (entriesOn key grants) ≤ 2 * b.limit
  low : ∀ before g, before ++ [g] <+: grants → g.key = key → g.priority = "low" →
    weightIn (fun e => e.window = g.entry.window) (entriesOn key (before ++ [g])) ≤
      85 / 100 * b.limit

theorem Tracks.limitsHold {b₀ b : Budget} {key : K} (h : Tracks b₀ b (onKey key grants)) :
    LimitsHold b₀ key grants where
  within w := h.limit ▸ h.within w
  between start finish hshort := by
    have hpositive : ∀ e ∈ entriesOn key grants, 0 ≤ e.weight := by
      intro e he
      obtain ⟨g, hg, rfl⟩ := List.mem_map.mp he
      exact (h.positive g hg).le
    have htwice := weightIn_between_le h.counter.windowed hpositive h.within
      (h.interval.symm ▸ hshort)
    rw [two_mul, ← h.limit]
    exact htwice
  low before g hpre hkey hlow := by
    have hon : onKey key (before ++ [g]) = onKey key before ++ [g] := by
      rw [onKey_append]
      congr 1
      rw [onKey, List.filter_cons_of_pos (by simpa using hkey), List.filter_nil]
    have hpre' := hpre.filter fun g => decide (g.key = key)
    change onKey key (before ++ [g]) <+: onKey key grants at hpre'
    rw [hon] at hpre'
    rw [entriesOn, hon, ← h.limit]
    exact h.low _ g hpre' hlow

end Runs

/-- **Rate limits hold**, whatever calls are made, and each call spends what it answers. -/
theorem rate_limits_hold {K : Type} [DecidableEq K] (s₀ : RateLimitBudget K) (h : SetUp s₀)
    (calls : List (Call K)) :
    (∀ key b, s₀.budgets key = some b → LimitsHold b key (history s₀ calls)) ∧
      ∀ (c : Call K) key, Spends ((run s₀ calls).budgets key) ((c.next (run s₀ calls)).budgets key)
        (c.spent (run s₀ calls) key) := by
  have hsound := h.sound.run calls
  rw [List.nil_append] at hsound
  refine ⟨fun key b hb => ?_, fun c => (hsound.next c).2⟩
  cases hkey : (run s₀ calls).budgets key with
  | none => exact nomatch hb.symm.trans (hsound.known key hkey)
  | some b' =>
    obtain ⟨b₀, hb₀, htracks⟩ := hsound.tracks key b' hkey
    obtain rfl := Option.some.inj (hb.symm.trans hb₀)
    exact htracks.limitsHold

/-- A budget and one to fall back on. -/
def twoBudgets : RateLimitBudget String :=
  (({} : RateLimitBudget String).set "PRIMARY" ⟨2, 60, 0, 0⟩).set "REST_FALLBACK" ⟨1, 60, 0, 0⟩

theorem setUp_twoBudgets : SetUp twoBudgets := by
  have hprimary : SetUp (({} : RateLimitBudget String).set "PRIMARY" ⟨2, 60, 0, 0⟩) :=
    .configure .empty "PRIMARY" 2 60 0 rfl
  exact .configure hprimary "REST_FALLBACK" 1 60 0 rfl

def threeCalls : List (Call String) :=
  [.allowWithFallback "PRIMARY" "REST_FALLBACK" 1 1 1, .allow "PRIMARY" 1 "low" 2,
    .allow "PRIMARY" 1 "normal" 3]

def fourthCall : Call String := .allowWithFallback "PRIMARY" "REST_FALLBACK" 1 4 4

/-- The fourth call is served by the fallback. -/
theorem rate_limits_hold_twoBudgets :
    LimitsHold ⟨2, 60, 0, 0⟩ "PRIMARY" (history twoBudgets threeCalls) ∧
      fourthCall.spent (run twoBudgets threeCalls) "PRIMARY" = 0 ∧
      fourthCall.spent (run twoBudgets threeCalls) "REST_FALLBACK" = 1 ∧
      ∀ key, Spends ((run twoBudgets threeCalls).budgets key)
        ((fourthCall.next (run twoBudgets threeCalls)).budgets key)
        (fourthCall.spent (run twoBudgets threeCalls) key) := by
  obtain ⟨hlimits, hspends⟩ := rate_limits_hold twoBudgets setUp_twoBudgets threeCalls
  exact ⟨hlimits "PRIMARY" _ rfl, by decide +kernel, by decide +kernel, hspends fourthCall⟩

/-- The fallback serves once the budget is spent, and then nothing does. -/
example : ([1, 2, 3, 4].map fun n =>
      let calls := (List.range (n - 1)).map fun i =>
        Call.allowWithFallback "PRIMARY" "REST_FALLBACK" 1 (i + 1) (i + 1)
      ((run twoBudgets calls).allowWithFallback "PRIMARY" "REST_FALLBACK" 1 n n).1.toOption) =
    [some (some .PRIMARY), some (some .PRIMARY), some (some .FALLBACK), some none] := by
  decide +kernel

end Kripto.Data.RateLimit
