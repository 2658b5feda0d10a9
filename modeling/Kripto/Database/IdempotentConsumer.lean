/-
# Idempotent consumption

`database/idempotent_consumer.py`.  A delivery claims its event, runs the handler, and releases
the claim if the handler fails; a delivery that finds the event claimed is answered as a
duplicate.  Any number of deliveries run over one store, in any interleaving of these steps.

The answer `duplicate` says that the event is taken care of, and it is given as soon as the event
is claimed.  When the claiming delivery then fails, everybody has been answered and nothing has
been handled (`duplicate_of_failed`).  In the runs in which this does not happen (`Backed`), the
handler has completed exactly once when a delivery has returned and none is running
(`exactly_once`).
-/
import Kripto.Effect.Object
import Kripto.Effect.Prog
import Kripto.Python.Json
import Mathlib.Data.Finset.Erase
import Mathlib.Data.Finset.Insert

namespace Kripto.Database.IdempotentConsumer

open Effect Python

/-! ## 1. `consume` -/

inductive Exc
  | valueError (msg : String)
  | exception (name : String)
  | baseException (name : String)

/-- `except Exception` catches it. -/
def Exc.isException : Exc → Bool
  | .baseException _ => false
  | _ => true

inductive Op
  | claim (consumerId eventId : String)
  | release (consumerId eventId : String)
  | handle (payload : Dict)

/-- The receipt store and the handler. -/
def ConsumerSig : Sig where
  Op := Op
  Val
    | .claim _ _ => Bool
    | .release _ _ => Unit
    | .handle _ => Unit
  Exc := Exc

structure ConsumeResult where
  applied : Bool
  duplicate : Bool

def claim (consumerId eventId : String) : Prog ConsumerSig Bool :=
  .perform (S := ConsumerSig) (.claim consumerId eventId)

def release (consumerId eventId : String) : Prog ConsumerSig Unit :=
  .perform (S := ConsumerSig) (.release consumerId eventId)

def handler (payload : Dict) : Prog ConsumerSig Unit :=
  .perform (S := ConsumerSig) (.handle payload)

def consume (consumerId eventId : String) (payload : Dict) : Prog ConsumerSig ConsumeResult :=
  if Text.isBlank eventId then .raise (Exc.valueError "event_id is required")
  else do
    if !(← claim consumerId eventId) then return ⟨false, true⟩
    else do
      let _ ← (handler payload).tryCatch fun e =>
        if e.isException then do
          release consumerId eventId
          .raise e
        else .raise e
      return ⟨true, false⟩

/-! ## 2. Deliveries over one store -/

/-- A consumer and an event: what a receipt is for. -/
abbrev Key : Type := String × String

/-- A delivery, and what it has left to do. -/
structure Delivery where
  key : Key
  payload : Dict
  left : Prog ConsumerSig ConsumeResult

/-- `InMemoryReceiptStore._seen`, and the deliveries so far. -/
structure Site (ι : Type) where
  seen : Finset Key
  deliveries : ι → Option Delivery

variable {ι : Type}

def Site.empty : Site ι := ⟨∅, fun _ => none⟩

/-- What can happen next: an event is delivered, or a delivery performs its next operation; what
the handler does then, if it is the handler's turn, is `outcome`. -/
inductive Action (ι : Type)
  | deliver (t : ι) (key : Key) (payload : Dict)
  | advance (t : ι) (outcome : Except Exc Unit)

/-- `InMemoryReceiptStore.claim` and `release`, each under the lock, and the handler. -/
def perform (seen : Finset Key) (outcome : Except Exc Unit) :
    (o : Op) → ConsumerSig.Ans o × Finset Key
  | .claim consumerId eventId =>
    if (consumerId, eventId) ∈ seen then (.ok false, seen)
    else (.ok true, insert (consumerId, eventId) seen)
  | .release consumerId eventId => (.ok (), seen.erase (consumerId, eventId))
  | .handle _ => (outcome, seen)

/-- Whether the handler completes. -/
def completes (outcome : Except Exc Unit) : Op → Bool
  | .handle _ => outcome.isOk
  | _ => false

variable [DecidableEq ι]

/-- Deliveries over one store.  The answer is the event that the handler has completed for. -/
def consumers : Object (Site ι) (Action ι) (Option Key) := fun s action =>
  match action with
  | .deliver t key payload =>
    match s.deliveries t with
    | some _ => (none, s)
    | none => (none, ⟨s.seen, Function.update s.deliveries t
        (some ⟨key, payload, consume key.1 key.2 payload⟩)⟩)
  | .advance t outcome =>
    match s.deliveries t with
    | some ⟨key, payload, .op o k⟩ =>
      (if completes outcome o then some key else none,
        ⟨(perform s.seen outcome o).2, Function.update s.deliveries t
          (some ⟨key, payload, k (perform s.seen outcome o).1⟩)⟩)
    | _ => (none, s)

/-! ## 3. What is to hold -/

/-- The operation a delivery performs next; a delivery without one is not running. -/
def Delivery.next (d : Delivery) : Option Op :=
  match d.left with
  | .op o _ => some o
  | _ => none

/-- The delivery has returned, as applied or as a duplicate. -/
def Delivery.Returned (d : Delivery) : Prop := ∃ r, d.left = .ret r

/-- A delivery of `key`. -/
def Site.Delivers (s : Site ι) (key : Key) (d : Delivery) : Prop :=
  ∃ t, s.deliveries t = some d ∧ d.key = key

/-- How often the handler has completed for an event. -/
def completions (l : Log (Site ι) (Action ι) (Option Key)) (key : Key) : ℕ :=
  l.past.countP fun e => e.2 = some key

/-- When a delivery has returned and none is running, the handler has completed once. -/
def ExactlyOnce (l : Log (Site ι) (Action ι) (Option Key)) (key : Key) : Prop :=
  (∃ d, l.now.Delivers key d ∧ d.Returned) → (∀ d, l.now.Delivers key d → d.next = none) →
    completions l key = 1

/-- Nobody is answered in vain.  A delivery finds its event claimed only when the event has been
handled or another delivery is about to; and the handler fails only when no delivery of the event
has been answered. -/
structure Backed (l : Log (Site ι) (Action ι) (Option Key)) (action : Action ι) : Prop where
  duplicate : ∀ t outcome d, action = .advance t outcome → l.now.deliveries t = some d →
    d.next = some (.claim d.key.1 d.key.2) → d.key ∈ l.now.seen →
    completions l d.key = 1 ∨ ∃ d', l.now.Delivers d.key d' ∧ d'.next = some (.handle d'.payload)
  failure : ∀ t outcome d, action = .advance t outcome → l.now.deliveries t = some d →
    d.next = some (.handle d.payload) → outcome.isOk = false →
    ∀ d', l.now.Delivers d.key d' → ¬ d'.Returned

/-! ## 4. The turns of a delivery -/

/-- The handler has failed. -/
def releasing (key : Key) (e : Exc) : Prog ConsumerSig ConsumeResult :=
  .op (S := ConsumerSig) (.release key.1 key.2) fun
    | .ok _ => .raise e
    | .error e' => .raise e'

/-- The event has been claimed. -/
def handling (key : Key) (payload : Dict) : Prog ConsumerSig ConsumeResult :=
  .op (S := ConsumerSig) (.handle payload) fun
    | .ok _ => .ret ⟨true, false⟩
    | .error e => if Exc.isException e then releasing key e else .raise e

def claiming (key : Key) (payload : Dict) : Prog ConsumerSig ConsumeResult :=
  .op (S := ConsumerSig) (.claim key.1 key.2) fun
    | .ok true => handling key payload
    | .ok false => .ret ⟨false, true⟩
    | .error e => .raise e

omit [DecidableEq ι] in
theorem consume_eq (key : Key) (payload : Dict) :
    consume key.1 key.2 payload = if Text.isBlank key.2
      then .raise (Exc.valueError "event_id is required") else claiming key payload := by
  unfold consume
  split
  · rfl
  · refine congrArg (Prog.op (S := ConsumerSig) (.claim key.1 key.2)) (funext fun r => ?_)
    rcases r with e | _ | _
    · rfl
    · rfl
    · refine congrArg (Prog.op (S := ConsumerSig) (.handle payload)) (funext fun r => ?_)
      rcases r with e | _
      · cases e with
        | baseException name => rfl
        | _ =>
          refine congrArg (Prog.op (S := ConsumerSig) (.release key.1 key.2)) (funext fun r => ?_)
          cases r <;> rfl
      · rfl

/-- What a delivery can have left. -/
inductive Stage (key : Key) (payload : Dict) : Prog ConsumerSig ConsumeResult → Prop
  | claims : Stage key payload (claiming key payload)
  | handles : Stage key payload (handling key payload)
  | releases (e : Exc) : Stage key payload (releasing key e)
  | returned (r : ConsumeResult) : Stage key payload (.ret r)
  | raised (e : Exc) : Stage key payload (.raise e)

/-- A turn of a delivery: the store and what is left before it, the event the handler has
completed for, and the store and what is left behind it. -/
inductive Turn (outcome : Except Exc Unit) (key : Key) (payload : Dict) :
    Finset Key → Prog ConsumerSig ConsumeResult → Option Key →
    Finset Key → Prog ConsumerSig ConsumeResult → Prop
  | claimed {seen : Finset Key} (h : key ∉ seen) : Turn outcome key payload
      seen (claiming key payload) none (insert key seen) (handling key payload)
  | duplicate {seen : Finset Key} (h : key ∈ seen) : Turn outcome key payload
      seen (claiming key payload) none seen (.ret ⟨false, true⟩)
  | applied {seen : Finset Key} (h : outcome.isOk = true) : Turn outcome key payload
      seen (handling key payload) (some key) seen (.ret ⟨true, false⟩)
  | failed {seen : Finset Key} (e : Exc) (h : outcome.isOk = false) : Turn outcome key payload
      seen (handling key payload) none seen (releasing key e)
  | interrupted {seen : Finset Key} (e : Exc) (h : outcome.isOk = false) :
      Turn outcome key payload seen (handling key payload) none seen (.raise e)
  | released {seen : Finset Key} (e : Exc) : Turn outcome key payload
      seen (releasing key e) none (seen.erase key) (.raise e)

variable {s : Site ι} {key : Key} {payload : Dict} {t : ι} {outcome : Except Exc Unit}
  {left : Prog ConsumerSig ConsumeResult}

/-- **A delivery takes a turn**, or it is not running and nothing happens. -/
theorem advance_turn (outcome : Except Exc Unit) (hstage : Stage key payload left)
    (ht : s.deliveries t = some ⟨key, payload, left⟩) :
    consumers s (.advance t outcome) = (none, s) ∨
      ∃ done seen' left', Turn outcome key payload s.seen left done seen' left' ∧
        consumers s (.advance t outcome) = (done,
          ⟨seen', Function.update s.deliveries t (some ⟨key, payload, left'⟩)⟩) := by
  cases hstage with
  | claims =>
    by_cases hseen : key ∈ s.seen
    · refine .inr ⟨none, _, _, .duplicate hseen, ?_⟩
      simp [consumers, ht, claiming, perform, completes, hseen]
    · refine .inr ⟨none, _, _, .claimed hseen, ?_⟩
      simp [consumers, ht, claiming, perform, completes, hseen]
  | handles =>
    rcases outcome with e | _
    · by_cases he : e.isException
      · refine .inr ⟨none, _, _, .failed e rfl, ?_⟩
        simp [consumers, ht, handling, perform, completes, he, Except.isOk, Except.toBool]
      · refine .inr ⟨none, _, _, .interrupted e rfl, ?_⟩
        simp [consumers, ht, handling, perform, completes, he, Except.isOk, Except.toBool]
    · refine .inr ⟨some key, _, _, .applied rfl, ?_⟩
      simp [consumers, ht, handling, perform, completes, Except.isOk, Except.toBool]
  | releases e =>
    refine .inr ⟨none, _, _, .released e, ?_⟩
    simp [consumers, ht, releasing, perform, completes]
  | returned r => exact .inl (by simp [consumers, ht])
  | raised e => exact .inl (by simp [consumers, ht])

/-! ## 5. The invariant -/

/-- The claim of the event is this delivery's. -/
def Delivery.Holds (d : Delivery) : Prop :=
  d.next = some (.handle d.payload) ∨ d.next = some (.release d.key.1 d.key.2)

@[simp] theorem next_claiming :
    Delivery.next ⟨key, payload, claiming key payload⟩ = some (.claim key.1 key.2) := rfl

@[simp] theorem next_releasing (e : Exc) :
    Delivery.next ⟨key, payload, releasing key e⟩ = some (.release key.1 key.2) := rfl

@[simp] theorem next_ret (r : ConsumeResult) : Delivery.next ⟨key, payload, .ret r⟩ = none := rfl

@[simp] theorem next_raise (e : Exc) : Delivery.next ⟨key, payload, .raise e⟩ = none := rfl

/-- What a run keeps of an event, whose handler has completed `n` times. -/
structure Kept (key : Key) (n : ℕ) (s : Site ι) : Prop where
  alone : ∀ t t' d d', s.deliveries t = some d → s.deliveries t' = some d' → d.key = key →
    d'.key = key → d.Holds → d'.Holds → t = t'
  claimed : ∀ d, s.Delivers key d → d.Holds → key ∈ s.seen ∧ n = 0
  once : n = 0 ∨ n = 1 ∧ key ∈ s.seen
  settled : ∀ d, s.Delivers key d → d.Returned →
    n = 1 ∨ ∃ d', s.Delivers key d' ∧ d'.next = some (.handle d'.payload)

variable {n : ℕ} {seen' : Finset Key} {d d' : Delivery}

theorem update_eq_some_iff {u : ι} : Function.update s.deliveries t (some d') u = some d ↔
    u = t ∧ d = d' ∨ u ≠ t ∧ s.deliveries u = some d := by
  by_cases hut : u = t
  · subst hut
    simp [eq_comm]
  · simp [hut]

/-- A delivery of the event, at the place of the turn or at another. -/
theorem delivers_update_iff :
    Site.Delivers ⟨seen', Function.update s.deliveries t (some d')⟩ key d ↔
    d = d' ∧ d'.key = key ∨ ∃ u, u ≠ t ∧ s.deliveries u = some d ∧ d.key = key := by
  simp only [Site.Delivers, update_eq_some_iff]
  constructor
  · rintro ⟨u, ⟨-, rfl⟩ | ⟨hut, hu⟩, hkey⟩
    · exact .inl ⟨rfl, hkey⟩
    · exact .inr ⟨u, hut, hu, hkey⟩
  · rintro (⟨rfl, hkey⟩ | ⟨u, hut, hu, hkey⟩)
    · exact ⟨t, .inl ⟨rfl, rfl⟩, hkey⟩
    · exact ⟨u, .inr ⟨hut, hu⟩, hkey⟩

/-- The rule for a step that changes the delivery at `t`: what is to be shown of the new delivery
and of those at other places. -/
theorem Kept.update {n' : ℕ} (h : Kept key n s)
    (halone : d'.key = key → d'.Holds →
      ∀ u d₂, u ≠ t → s.deliveries u = some d₂ → d₂.key = key → ¬ d₂.Holds)
    (hnew : d'.key = key → d'.Holds → key ∈ seen' ∧ n' = 0)
    (hothers : ∀ u d₂, u ≠ t → s.deliveries u = some d₂ → d₂.key = key → d₂.Holds →
      key ∈ seen' ∧ n' = 0)
    (honce : n' = 0 ∨ n' = 1 ∧ key ∈ seen')
    (hsettled : ∀ d, Site.Delivers ⟨seen', Function.update s.deliveries t (some d')⟩ key d →
      d.Returned → n' = 1 ∨
        ∃ d₂, Site.Delivers ⟨seen', Function.update s.deliveries t (some d')⟩ key d₂ ∧
          d₂.next = some (.handle d₂.payload)) :
    Kept key n' ⟨seen', Function.update s.deliveries t (some d')⟩ := by
  refine ⟨?_, ?_, honce, hsettled⟩
  · intro u u' d₁ d₂ hu hu' hkey hkey' hholds hholds'
    rcases update_eq_some_iff.mp hu with ⟨rfl, rfl⟩ | ⟨hut, hold⟩ <;>
      rcases update_eq_some_iff.mp hu' with ⟨rfl, rfl⟩ | ⟨hut', hold'⟩
    · rfl
    · exact absurd hholds' (halone hkey hholds u' d₂ hut' hold' hkey')
    · exact absurd hholds (halone hkey' hholds' u d₁ hut hold hkey)
    · exact h.alone u u' d₁ d₂ hold hold' hkey hkey' hholds hholds'
  · intro d hd hholds
    rcases delivers_update_iff.mp hd with ⟨rfl, hkey⟩ | ⟨u, hut, hu, hkey⟩
    · exact hnew hkey hholds
    · exact hothers u d hut hu hkey hholds

/-- A step about another event, or the start of a delivery. -/
theorem Kept.frame (h : Kept key n s) (hseen : key ∈ seen' ↔ key ∈ s.seen)
    (hold : ∀ d, s.deliveries t = some d → d.key ≠ key)
    (hnew : d'.key = key → ¬ d'.Holds ∧ ¬ d'.Returned) :
    Kept key n ⟨seen', Function.update s.deliveries t (some d')⟩ := by
  have hothers : ∀ {d}, s.Delivers key d →
      Site.Delivers ⟨seen', Function.update s.deliveries t (some d')⟩ key d := by
    rintro d ⟨u, hu, hkey⟩
    exact delivers_update_iff.mpr (.inr ⟨u, fun hut => hold d (hut ▸ hu) hkey, hu, hkey⟩)
  refine h.update (fun hkey hholds => absurd hholds (hnew hkey).1)
    (fun hkey hholds => absurd hholds (hnew hkey).1) ?_ ?_ ?_
  · intro u d₂ hut hu hkey hholds
    rw [hseen]
    exact h.claimed d₂ ⟨u, hu, hkey⟩ hholds
  · rw [hseen]
    exact h.once
  · intro d hd hreturned
    rcases delivers_update_iff.mp hd with ⟨rfl, hkey⟩ | ⟨u, hut, hu, hkey⟩
    · exact absurd hreturned (hnew hkey).2
    · rcases h.settled d ⟨u, hu, hkey⟩ hreturned with hn | ⟨d₂, hd₂, hnext⟩
      · exact .inl hn
      · exact .inr ⟨d₂, hothers hd₂, hnext⟩

omit [DecidableEq ι] in
/-- Once the holder is gone, there is none. -/
theorem Kept.others (h : Kept key n s) (ht : s.deliveries t = some d) (hkey : d.key = key)
    (hholds : d.Holds) {u : ι} {d₂ : Delivery} (hut : u ≠ t) (hu : s.deliveries u = some d₂)
    (hkey₂ : d₂.key = key) : ¬ d₂.Holds :=
  fun hholds₂ => hut (h.alone u t d₂ d hu ht hkey₂ hkey hholds₂ hholds)

/-- **A turn of a delivery** keeps its event. -/
theorem Kept.turn {done : Option Key} {left' : Prog ConsumerSig ConsumeResult} (h : Kept key n s)
    (ht : s.deliveries t = some ⟨key, payload, left⟩)
    (hduplicate : left = claiming key payload → key ∈ s.seen →
      n = 1 ∨ ∃ d', s.Delivers key d' ∧ d'.next = some (.handle d'.payload))
    (hfailure : left = handling key payload → outcome.isOk = false →
      ∀ d', s.Delivers key d' → ¬ d'.Returned)
    (hturn : Turn outcome key payload s.seen left done seen' left') :
    Kept key (n + if done = some key then 1 else 0)
      ⟨seen', Function.update s.deliveries t (some ⟨key, payload, left'⟩)⟩ := by
  have hself : s.Delivers key ⟨key, payload, left⟩ := ⟨t, ht, rfl⟩
  have hcases : ∀ {d₂}, Site.Delivers ⟨seen', Function.update s.deliveries t
      (some ⟨key, payload, left'⟩)⟩ key d₂ → d₂ = ⟨key, payload, left'⟩ ∨ s.Delivers key d₂ := by
    intro d₂ hd₂
    rcases delivers_update_iff.mp hd₂ with ⟨rfl, -⟩ | ⟨u, -, hu⟩
    · exact .inl rfl
    · exact .inr ⟨u, hu⟩
  have hlift : Delivery.next ⟨key, payload, left⟩ ≠ some (.handle payload) →
      (∃ d₂, s.Delivers key d₂ ∧ d₂.next = some (.handle d₂.payload)) →
      ∃ d₂, Site.Delivers ⟨seen', Function.update s.deliveries t
        (some ⟨key, payload, left'⟩)⟩ key d₂ ∧ d₂.next = some (.handle d₂.payload) := by
    rintro hnext ⟨d₂, ⟨u, hu, hkey⟩, hd₂⟩
    refine ⟨d₂, delivers_update_iff.mpr (.inr ⟨u, ?_, hu, hkey⟩), hd₂⟩
    rintro rfl
    rw [ht, Option.some.injEq] at hu
    subst hu
    exact hnext hd₂
  have hothers : Delivery.Holds ⟨key, payload, left⟩ → ∀ u d₂, u ≠ t →
      s.deliveries u = some d₂ → d₂.key = key → ¬ d₂.Holds :=
    fun hholds u d₂ hut hu hkey => h.others ht rfl hholds hut hu hkey
  cases hturn with
  | claimed hnew =>
    have hnone : ∀ d₂, s.Delivers key d₂ → ¬ d₂.Holds :=
      fun d₂ hd₂ hholds => hnew (h.claimed d₂ hd₂ hholds).1
    obtain rfl : n = 0 := h.once.resolve_right fun hone => hnew hone.2
    refine h.update ?_ ?_ ?_ (.inl rfl) ?_
    · exact fun _ _ u d₂ hut hu hkey => hnone d₂ ⟨u, hu, hkey⟩
    · exact fun _ _ => ⟨by simp, rfl⟩
    · exact fun u d₂ hut hu hkey hholds => absurd hholds (hnone d₂ ⟨u, hu, hkey⟩)
    · intro d₂ hd₂ hreturned
      rcases hcases hd₂ with rfl | hd₂
      · obtain ⟨r, hr⟩ := hreturned
        cases hr
      · rcases h.settled d₂ hd₂ hreturned with hone | ⟨d₃, hd₃, hnext⟩
        · cases hone
        · exact absurd (.inl hnext) (hnone d₃ hd₃)
  | duplicate hseen =>
    refine h.update ?_ ?_ ?_ h.once ?_
    · exact fun _ hholds => absurd hholds (by simp [Delivery.Holds])
    · exact fun _ hholds => absurd hholds (by simp [Delivery.Holds])
    · exact fun u d₂ hut hu hkey hholds => h.claimed d₂ ⟨u, hu, hkey⟩ hholds
    · intro d₂ hd₂ hreturned
      exact (hduplicate rfl hseen).imp_right (hlift (by simp))
  | applied hok =>
    obtain ⟨hseen, rfl⟩ := h.claimed _ hself (.inl rfl)
    refine h.update ?_ ?_ ?_ (.inr ⟨by simp, hseen⟩) ?_
    · exact fun _ hholds => absurd hholds (by simp [Delivery.Holds])
    · exact fun _ hholds => absurd hholds (by simp [Delivery.Holds])
    · exact fun u d₂ hut hu hkey hholds => absurd hholds (hothers (.inl rfl) u d₂ hut hu hkey)
    · exact fun d₂ hd₂ hreturned => .inl (by simp)
  | failed e hfails =>
    have hclaimed := h.claimed _ hself (.inl rfl)
    refine h.update ?_ ?_ ?_ h.once ?_
    · exact fun _ _ => hothers (.inl rfl)
    · exact fun _ _ => hclaimed
    · exact fun u d₂ hut hu hkey hholds => absurd hholds (hothers (.inl rfl) u d₂ hut hu hkey)
    · intro d₂ hd₂ hreturned
      rcases hcases hd₂ with rfl | hd₂
      · obtain ⟨r, hr⟩ := hreturned
        cases hr
      · exact absurd hreturned (hfailure rfl hfails d₂ hd₂)
  | interrupted e hfails =>
    refine h.update ?_ ?_ ?_ h.once ?_
    · exact fun _ hholds => absurd hholds (by simp [Delivery.Holds])
    · exact fun _ hholds => absurd hholds (by simp [Delivery.Holds])
    · exact fun u d₂ hut hu hkey hholds => absurd hholds (hothers (.inl rfl) u d₂ hut hu hkey)
    · intro d₂ hd₂ hreturned
      rcases hcases hd₂ with rfl | hd₂
      · obtain ⟨r, hr⟩ := hreturned
        cases hr
      · exact absurd hreturned (hfailure rfl hfails d₂ hd₂)
  | released e =>
    obtain ⟨-, rfl⟩ := h.claimed _ hself (.inr rfl)
    refine h.update ?_ ?_ ?_ (.inl rfl) ?_
    · exact fun _ hholds => absurd hholds (by simp [Delivery.Holds])
    · exact fun _ hholds => absurd hholds (by simp [Delivery.Holds])
    · exact fun u d₂ hut hu hkey hholds => absurd hholds (hothers (.inr rfl) u d₂ hut hu hkey)
    · intro d₂ hd₂ hreturned
      rcases hcases hd₂ with rfl | hd₂
      · obtain ⟨r, hr⟩ := hreturned
        cases hr
      · rcases h.settled d₂ hd₂ hreturned with hone | hhandles
        · cases hone
        · exact .inr (hlift (by simp) hhandles)

/-! ## 6. Runs -/

/-- What every delivery has left is one of its stages. -/
def Site.Staged (s : Site ι) : Prop :=
  ∀ t d, s.deliveries t = some d → Stage d.key d.payload d.left

theorem Turn.stage {seen : Finset Key} {done : Option Key}
    {left' : Prog ConsumerSig ConsumeResult}
    (h : Turn outcome key payload seen left done seen' left') : Stage key payload left' := by
  cases h with
  | claimed => exact .handles
  | duplicate => exact .returned _
  | applied => exact .returned _
  | failed e => exact .releases e
  | interrupted e => exact .raised e
  | released e => exact .raised e

theorem Turn.frame {seen : Finset Key} {done : Option Key} {other : Key}
    {left' : Prog ConsumerSig ConsumeResult}
    (h : Turn outcome key payload seen left done seen' left') (hne : other ≠ key) :
    (other ∈ seen' ↔ other ∈ seen) ∧ done ≠ some other := by
  cases h <;> simp [hne, hne.symm]

omit [DecidableEq ι] in
theorem stage_consume (key : Key) (payload : Dict) :
    Stage key payload (consume key.1 key.2 payload) := by
  rw [consume_eq]
  split
  · exact .raised _
  · exact .claims

theorem Site.Staged.call (h : s.Staged) (action : Action ι) : (consumers s action).2.Staged := by
  have hupdate : ∀ {t key payload left' seen'}, Stage key payload left' →
      Site.Staged ⟨seen', Function.update s.deliveries t (some ⟨key, payload, left'⟩)⟩ := by
    intro t key payload left' seen' hstage u d hu
    rcases update_eq_some_iff.mp hu with ⟨-, rfl⟩ | ⟨-, hold⟩
    · exact hstage
    · exact h u d hold
  cases action with
  | deliver t key payload =>
    simp only [consumers]
    split
    · exact h
    · exact hupdate (stage_consume key payload)
  | advance t outcome =>
    cases ht : s.deliveries t with
    | none => simpa [consumers, ht] using h
    | some d =>
      rcases advance_turn outcome (h t d ht) ht with hsame |
        ⟨done, seen', left', hturn, heq⟩
      · rw [hsame]
        exact h
      · rw [heq]
        exact hupdate hturn.stage

theorem completions_call (l : Log (Site ι) (Action ι) (Option Key)) (action : Action ι)
    (key : Key) : completions (l.call consumers action) key =
      completions l key + if (consumers l.now action).1 = some key then 1 else 0 := by
  simp [completions, List.countP_cons]

/-- **A step of the system** keeps every event. -/
theorem Kept.call {l : Log (Site ι) (Action ι) (Option Key)} {action : Action ι}
    (hstaged : l.now.Staged) (h : Kept key (completions l key) l.now) (hbacked : Backed l action) :
    Kept key (completions (l.call consumers action) key) (l.call consumers action).now := by
  rw [completions_call, Log.call_now]
  cases action with
  | deliver t key' payload =>
    cases ht : l.now.deliveries t with
    | some d => simpa [consumers, ht] using h
    | none =>
      simp only [consumers, ht]
      refine h.frame .rfl (by simp [ht]) fun _ => ?_
      have hconsume := consume_eq key' payload
      split at hconsume <;> rw [hconsume] <;>
        exact ⟨by simp [Delivery.Holds], by rintro ⟨r, hr⟩; cases hr⟩
  | advance t outcome =>
    cases ht : l.now.deliveries t with
    | none => simpa [consumers, ht] using h
    | some d =>
      rcases advance_turn outcome (hstaged t d ht) ht with hsame |
        ⟨done, seen', left', hturn, heq⟩
      · simpa [hsame] using h
      · rw [heq]
        by_cases hkey : key = d.key
        · subst hkey
          refine h.turn ht (fun hleft hseen => ?_) (fun hleft hfails => ?_) hturn
          · exact hbacked.duplicate t outcome d rfl ht (by rw [Delivery.next, hleft]; rfl) hseen
          · exact hbacked.failure t outcome d rfl ht (by rw [Delivery.next, hleft]; rfl) hfails
        · obtain ⟨hseen, hdone⟩ := hturn.frame hkey
          simp only [if_neg hdone]
          refine h.frame hseen (fun d₂ hd₂ => ?_) fun hkey' => absurd hkey'.symm hkey
          rw [ht, Option.some.injEq] at hd₂
          exact hd₂ ▸ Ne.symm hkey

theorem kept_of_run {actions : List (Action ι)}
    (h : Log.Meeting consumers Backed (Log.start .empty) actions) (key : Key) :
    Kept key (completions ((Log.start .empty).calls consumers actions) key)
      ((Log.start .empty).calls consumers actions).now := by
  have hrun : ((Log.start .empty).calls consumers actions).now.Staged ∧
      Kept key (completions ((Log.start .empty).calls consumers actions) key)
        ((Log.start .empty).calls consumers actions).now := by
    refine Log.keeps (I := fun l => l.now.Staged ∧ Kept key (completions l key) l.now) ?_ ?_ h
    · exact fun l action hl hbacked => ⟨hl.1.call action, hl.2.call hl.1 hbacked⟩
    · refine ⟨fun t d ht => by simp [Site.empty] at ht, ?_, ?_, .inl rfl, ?_⟩
      · exact fun t t' d d' ht => by simp [Site.empty] at ht
      · exact fun d ⟨t, ht, _⟩ => by simp [Site.empty] at ht
      · exact fun d ⟨t, ht, _⟩ => by simp [Site.empty] at ht
  exact hrun.2

/-- **Exactly once.**  After any run in which nobody is answered in vain, an event of which a
delivery has returned and none is running has been handled once. -/
theorem exactly_once (actions : List (Action ι))
    (h : Log.Meeting consumers Backed (Log.start .empty) actions) (key : Key) :
    ExactlyOnce ((Log.start .empty).calls consumers actions) key := by
  rintro ⟨d, hd, hreturned⟩ hidle
  rcases (kept_of_run h key).settled d hd hreturned with hone | ⟨d', hd', hnext⟩
  · exact hone
  · rw [hidle d' hd'] at hnext
    cases hnext

/-! ## 7. Two deliveries of one event -/

def eventKey : Key := ("risk", "e2")

/-- The second delivery finds the event claimed by the first, for which the handler then does
this. -/
def overlapping (outcome : Except Exc Unit) : List (Action Bool) :=
  [.deliver false eventKey [], .deliver true eventKey [], .advance false (.ok ()),
    .advance true (.ok ()), .advance false outcome, .advance false (.ok ())]

theorem overlapping_backed :
    Log.Meeting consumers Backed (Log.start .empty) (overlapping (.ok ())) := by
  have hnever : ∀ {l : Log (Site Bool) (Action Bool) (Option Key)} {t : Bool}, (∀ t' outcome d,
      Action.advance t (.ok ()) = .advance t' outcome → l.now.deliveries t' = some d →
      d.next = some (.claim d.key.1 d.key.2) → d.key ∈ l.now.seen →
      completions l d.key = 1 ∨
        ∃ d', l.now.Delivers d.key d' ∧ d'.next = some (.handle d'.payload)) →
      Backed l (.advance t (.ok ())) :=
    fun h => ⟨h, by rintro t outcome d ⟨⟩ - - ⟨⟩⟩
  refine ⟨⟨?_, ?_⟩, ⟨?_, ?_⟩, hnever ?_, hnever ?_, hnever ?_, hnever ?_, trivial⟩
  · rintro t outcome d ⟨⟩
  · rintro t outcome d ⟨⟩
  · rintro t outcome d ⟨⟩
  · rintro t outcome d ⟨⟩
  · rintro t outcome d ⟨⟩ ⟨⟩ - hseen
    exact absurd hseen (by decide)
  · rintro t outcome d ⟨⟩ ⟨⟩ - -
    exact .inr ⟨_, ⟨false, rfl, rfl⟩, rfl⟩
  · rintro t outcome d ⟨⟩ ⟨⟩ ⟨⟩
  · rintro t outcome d ⟨⟩ ⟨⟩ ⟨⟩

theorem exactly_once_overlapping :
    completions ((Log.start .empty).calls consumers (overlapping (.ok ()))) eventKey = 1 := by
  refine exactly_once (overlapping (.ok ())) overlapping_backed eventKey ?_ ?_
  · exact ⟨_, ⟨false, rfl, rfl⟩, _, rfl⟩
  · rintro d ⟨t, ht, -⟩
    cases t <;> cases ht <;> rfl

/-- **A duplicate of a failed delivery**: it has been answered, and the event is never handled. -/
theorem duplicate_of_failed : ¬ ExactlyOnce ((Log.start .empty).calls consumers
    (overlapping (.error (.exception "temporary")))) eventKey := by
  intro h
  have hzero : completions ((Log.start .empty).calls consumers
      (overlapping (.error (.exception "temporary")))) eventKey = 0 := by
    decide
  have hone := h ⟨_, ⟨true, rfl, rfl⟩, _, rfl⟩ ?_
  · rw [hzero] at hone
    cases hone
  · rintro d ⟨t, ht, -⟩
    cases t <;> cases ht <;> rfl

end Kripto.Database.IdempotentConsumer
