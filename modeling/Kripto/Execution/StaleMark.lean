/-
# Terminal rows under concurrent marks

`mark` overwrites the status of a row with whatever its caller read earlier.  The exchange moves
an order along the table of `execution/state.py` only, so the newest reading is never behind a
terminal row -- but an older one can be, and nothing in `mark` notices.

Workers run `submit` over one ledger in any interleaving.  As an auxiliary fact the proof keeps,
for each worker and intent, whether its last reading is stale: whether somebody else marked the
row since.  Two results:

* a run in which a stale mark takes a FILLED row back to ACKNOWLEDGED;
* in every run in which no stale mark hits a terminal row, a terminal row stays as it is.
-/
import Kripto.Execution.Script

namespace Kripto.Execution

open Effect PersistentIntentLedger
open ExecutionService hiding id

/-! ## 1. An exchange that only advances -/

/-- The book of an exchange: the state of the order of an intent, once there is one. -/
abbrev Book : Type := String → Option OrderState

/-- Every order moves along the table; new ones may appear in any state. -/
def Book.Moves (b b' : Book) : Prop :=
  ∀ id st, b id = some st → ∃ st', b' id = some st' ∧ Advances st st'

theorem Book.Moves.refl (b : Book) : b.Moves b := fun _ st h => ⟨st, h, .refl⟩

theorem Book.Moves.trans {b b' b'' : Book} (h : b.Moves b') (h' : b'.Moves b'') :
    b.Moves b'' := by
  intro id st hst
  obtain ⟨st', hst', hadv⟩ := h id st hst
  obtain ⟨st'', hst'', hadv'⟩ := h' id st' hst'
  exact ⟨st'', hst'', hadv.trans hadv'⟩

/-- A terminal order stays where it is. -/
theorem Book.Moves.terminal {b b' : Book} (h : b.Moves b') {id : String} {st : OrderState}
    (hst : b id = some st) (ht : st.Terminal) : b' id = some st := by
  obtain ⟨st', hst', hadv⟩ := h id st hst
  rw [hst', hadv.eq_of_terminal ht]

/-- **An exchange that only advances**, and reports the state an order is in.  Calls may fail
or find nothing. -/
def advancing : Exchange Book where
  submit := fun n b r b' => b.Moves b' ∧ ∀ record, r = .ok record →
    b' n.intentId = some record.state
  get := fun id _ b r b' => b.Moves b' ∧ ∀ record, r = .ok (some record) →
    b' id = some record.state

section Workers

variable {ι : Type} [PyStr] [NumericColumn]

/-- Workers that run `submit` over one ledger against that exchange, which also moves between
their calls.  Caches, locks and isolations may be changed from outside; the table may not. -/
def tracked : Pool.System ι execSig (World Book) OrderRecord where
  handler := fun _ => handler advancing
  start := fun _ p => ∃ (self : ExecutionService) (a : SubmitArgs),
    self.persistentIntents = true ∧ p = self.submit a
  env := fun w w' => w'.orders = w.orders ∧ w.venue.Moves w'.venue

/-- **A terminal row never changes its status**, in any run from `s`. -/
def TerminalKept [DecidableEq ι] {σ : Type} (Y : Pool.System ι execSig σ OrderRecord)
    (world : σ → World Book) (s : σ) : Prop :=
  ∀ c c', Pool.Reaches Y (Pool.idle s) c → Pool.Reaches Y c c' →
    ∀ id row, (world c.shared).orders id = some row → row.status.Terminal →
      ∃ row', (world c'.shared).orders id = some row' ∧ row'.status = row.status

/-! ## 2. Readings -/

/-- Whose reading of which intent is stale. -/
abbrev Stale (ι : Type) : Type := ι → String → Bool

variable [DecidableEq ι]

def Stale.refresh (g : Stale ι) (t : ι) (id : String) : Stale ι :=
  fun u id' => if u = t ∧ id' = id then false else g u id'

def Stale.outdate (g : Stale ι) (t : ι) (id : String) : Stale ι :=
  fun u id' => if u ≠ t ∧ id' = id then true else g u id'

/-- A worker reads an intent when it looks its row up, inserts it, or gets a record from the
exchange.  A committed mark outdates the readings of all others. -/
def reading (t : ι) : (o : Op) → execSig.Ans o → Stale ι → Stale ι
  | .selectOrder id, .ok _, g => g.refresh t id
  | .insertOrder row, .ok _, g => g.refresh t row.intentId
  | .submitOrder n, .ok _, g => g.refresh t n.intentId
  | .getOrder id _, .ok (some _), g => g.refresh t id
  | .updateOrder id _, .ok true, g => g.outdate t id
  | _, _, g => g

/-- **The condition**: a mark does not hit a terminal row on a stale reading. -/
def MarksFresh (t : ι) : (o : Op) → World Book × Stale ι → execSig.Ans o → Prop
  | .updateOrder id _, s, _ =>
      ∀ row, s.1.orders id = some row → row.status.Terminal → s.2 t id = false
  | _, _, _ => True

/-- The runs all of whose marks meet the condition. -/
def fresh : Pool.System ι execSig (World Book × Stale ι) OrderRecord :=
  (tracked.withGhost reading).meeting MarksFresh

/-! ## 3. The protocol -/

/-- A terminal row shows what the exchange has. -/
def Agrees (w : World Book) : Prop :=
  ∀ id row, w.orders id = some row → row.status.Terminal → w.venue id = some row.status

/-- What one step may do to terminal rows. -/
def Keeps (w w' : World Book) : Prop :=
  ∀ id row, w.orders id = some row → row.status.Terminal →
    ∃ row', w'.orders id = some row' ∧ row'.status = row.status

/-- What the others may do: rows stay, orders advance, and a reading that is still fresh was
fresh before and the status it saw is still there. -/
structure Others (t : ι) (s s' : World Book × Stale ι) : Prop where
  rows : ∀ id row, s.1.orders id = some row → ∃ row', s'.1.orders id = some row' ∧
    (s'.2 t id = false → s.2 t id = false ∧ row'.status = row.status)
  venue : s.1.venue.Moves s'.1.venue

omit [PyStr] [NumericColumn] [DecidableEq ι] in
theorem Others.refl (t : ι) (s : World Book × Stale ι) : Others t s s :=
  ⟨fun _ row h => ⟨row, h, fun hfresh => ⟨hfresh, rfl⟩⟩, .refl _⟩

omit [PyStr] [NumericColumn] [DecidableEq ι] in
theorem Others.trans {t : ι} {a b c : World Book × Stale ι} (h : Others t a b)
    (h' : Others t b c) : Others t a c := by
  refine ⟨fun id row hrow => ?_, h.venue.trans h'.venue⟩
  obtain ⟨row', hrow', hstatus⟩ := h.rows id row hrow
  obtain ⟨row'', hrow'', hstatus'⟩ := h'.rows id row' hrow'
  refine ⟨row'', hrow'', fun hfresh => ?_⟩
  obtain ⟨hfresh', heq'⟩ := hstatus' hfresh
  obtain ⟨hfresh'', heq⟩ := hstatus hfresh'
  exact ⟨hfresh'', heq'.trans heq⟩

/-- **The protocol of the workers.** -/
def freshMarks : Protocol ι (World Book × Stale ι) where
  inv := fun s => Agrees s.1
  rely := Others
  guar := fun t s s' => (∀ u, u ≠ t → Others u s s') ∧ Keeps s.1 s'.1
  rely_refl := Others.refl
  rely_trans := fun _ {_ _ _} => Others.trans
  compat := fun htu _ _ hg => hg.1 _ (Ne.symm htu)

/-- **What makes a mark with `st` safe**: there is a row; if the reading is fresh and the row
terminal, the mark repeats its status; and if `st` is terminal, the exchange has it. -/
structure Markable (t : ι) (id : String) (st : OrderState) (s : World Book × Stale ι) :
    Prop where
  row : ∃ row, s.1.orders id = some row ∧
    (s.2 t id = false → row.status.Terminal → row.status = st)
  reported : st.Terminal → s.1.venue id = some st

omit [PyStr] [NumericColumn] [DecidableEq ι] in
theorem stable_markable (t : ι) (id : String) (st : OrderState) :
    freshMarks.Stable t (Markable t id st) := by
  rintro s s' ⟨⟨row, hrow, hsafe⟩, hrep⟩ hothers _
  obtain ⟨row', hrow', hstatus⟩ := hothers.rows id row hrow
  refine ⟨⟨row', hrow', fun hfresh ht => ?_⟩, fun ht => hothers.venue.terminal (hrep ht) ht⟩
  obtain ⟨hfresh', heq⟩ := hstatus hfresh
  rw [heq] at ht ⊢
  exact hsafe hfresh' ht

omit [PyStr] [NumericColumn] [DecidableEq ι] in
theorem Markable.of_nonterminal {t : ι} {id : String} {row : OrderRow}
    {s : World Book × Stale ι} (hrow : s.1.orders id = some row)
    (hnot : ¬row.status.Terminal) : Markable t id .UNKNOWN s :=
  ⟨⟨row, hrow, fun _ ht => absurd ht hnot⟩, fun ht => absurd ht (by decide)⟩

/-! ## 4. One operation -/

/-- The handler the proof works with. -/
abbrev freshHandler (t : ι) : Handler execSig (World Book × Stale ι) := fresh.handler t

/-- The operations that do not write the table. -/
def Op.Unwritten : Op → Prop
  | insertOrder _ | updateOrder .. => False
  | _ => True

/-- Those of them that are no reading either. -/
def Op.Passive : Op → Prop
  | insertOrder _ | updateOrder .. | selectOrder _ | submitOrder _ | getOrder .. => False
  | _ => True

omit [PyStr] [NumericColumn] in
theorem Op.Passive.unwritten {o : Op} (h : o.Passive) : o.Unwritten := by
  cases o <;> first | exact h.elim | trivial

omit [PyStr] [NumericColumn] in
theorem Op.Reads.unwritten {o : Op} (h : o.Reads) : o.Unwritten := by
  cases o <;> first | exact h.elim | trivial

theorem unwritten_world {o : Op} (ho : o.Unwritten) {w w' : World Book}
    (h : Change advancing o w w') : w'.orders = w.orders ∧ w.venue.Moves w'.venue := by
  cases h with
  | inserted => exact ho.elim
  | marked => exact ho.elim
  | sent _ n r v h => exact ⟨rfl, h.1⟩
  | asked _ id q r v h => exact ⟨rfl, h.1⟩
  | _ => exact ⟨rfl, .refl _⟩

omit [PyStr] [NumericColumn] in
/-- A worker's operation leaves the readings of the others alone, unless it is a mark. -/
theorem reading_of_ne {o : Op} (ho : o.Unwritten) {t u : ι} (hu : u ≠ t) (r : execSig.Ans o)
    (g : Stale ι) : reading t o r g u = g u := by
  have hrefresh : ∀ id, (g.refresh t id) u = g u := fun id => by
    funext id'
    simp [Stale.refresh, hu]
  cases o with
  | insertOrder row => exact ho.elim
  | updateOrder id record => exact ho.elim
  | selectOrder id => cases r <;> simp [reading, hrefresh]
  | submitOrder n => cases r <;> simp [reading, hrefresh]
  | getOrder id q =>
    rcases r with e | (_ | record)
    · rfl
    · rfl
    · simp [reading, hrefresh]
  | _ => rfl

omit [PyStr] [NumericColumn] in
theorem reading_passive {o : Op} (ho : o.Passive) (t : ι) (r : execSig.Ans o) (g : Stale ι) :
    reading t o r g = g := by
  cases o <;> first | exact ho.elim | rfl

variable {t : ι} {s s' : World Book × Stale ι}

omit [PyStr] [NumericColumn] [DecidableEq ι] in
/-- Unchanged rows and readings, and orders that only advance: nobody is disturbed. -/
theorem Others.of_same (horders : s'.1.orders = s.1.orders) (hvenue : s.1.venue.Moves s'.1.venue)
    {u : ι} (hg : s'.2 u = s.2 u) : Others u s s' := by
  refine ⟨fun id row hrow => ⟨row, by rw [horders, hrow], fun hfresh => ⟨?_, rfl⟩⟩, hvenue⟩
  rw [← hfresh, hg]

omit [PyStr] [NumericColumn] in
theorem Agrees.of_same {w w' : World Book} (h : Agrees w) (horders : w'.orders = w.orders)
    (hvenue : w.venue.Moves w'.venue) : Agrees w' := by
  intro id row hrow ht
  rw [horders] at hrow
  exact hvenue.terminal (h id row hrow ht) ht

omit [PyStr] [NumericColumn] in
theorem Keeps.of_same {w w' : World Book} (horders : w'.orders = w.orders) : Keeps w w' :=
  fun id row hrow _ => ⟨row, by rw [horders, hrow], rfl⟩

/-- **An operation that does not write the table** respects the protocol. -/
theorem unwritten_step {o : Op} (ho : o.Unwritten) {r : execSig.Ans o}
    (hi : freshMarks.inv s) (h : freshHandler t o s r s') :
    freshMarks.guar t s s' ∧ freshMarks.inv s' := by
  obtain ⟨⟨hw, hg⟩, -⟩ := h
  obtain ⟨horders, hvenue⟩ := unwritten_world ho (handler_change hw)
  refine ⟨⟨fun u hu => .of_same horders hvenue ?_, .of_same horders⟩, hi.of_same horders hvenue⟩
  rw [hg, reading_of_ne ho hu]

theorem wp_unwritten {α : Type} {p : Program α} (hp : p.Within Op.Unwritten) :
    wp (freshHandler t) freshMarks t p (fun _ _ => True) s := by
  refine wp_within (fun _ _ _ _ _ => trivial) (fun o s₁ r s₂ ho _ hi h => ?_) hp trivial
  obtain ⟨hg, hi₂⟩ := unwritten_step ho hi h
  exact ⟨hg, hi₂, trivial⟩

theorem wp_passive {α : Type} {p : Program α} {id : String} {st : OrderState}
    (hp : p.Within Op.Passive) (hs : Markable t id st s) :
    wp (freshHandler t) freshMarks t p (fun _ => Markable t id st) s := by
  refine wp_within (stable_markable t id st) (fun o s₁ r s₂ ho hm hi h => ?_) hp hs
  obtain ⟨hg, hi₂⟩ := unwritten_step ho.unwritten hi h
  obtain ⟨⟨hw, hr⟩, -⟩ := h
  obtain ⟨horders, hvenue⟩ := unwritten_world ho.unwritten (handler_change hw)
  refine ⟨hg, hi₂, stable_markable t id st _ _ hm (.of_same horders hvenue ?_) hi₂⟩
  rw [hr, reading_passive ho]

/-- A committed insert is a reading of a SUBMITTED row. -/
theorem wp_insertOrder (row : OrderRow) (hrow : ¬row.status.Terminal) :
    wp (freshHandler t) freshMarks t (perform (.insertOrder row))
      (fun r s => r = .ok () → Markable t row.intentId .UNKNOWN s) s := by
  refine wp_perform (P := fun _ => True) (fun _ _ _ _ _ => trivial) trivial ?_
  rintro s₁ r s₂ - hi ⟨⟨hw, hg⟩, -⟩
  rcases hw with ⟨free, rfl, hw⟩ | ⟨hr, hw⟩
  · have hself : s₂.1.orders row.intentId = some row.stored := by
      rw [hw, World.setOrder_self]
    have hne : ∀ id, id ≠ row.intentId → s₂.1.orders id = s₁.1.orders id := fun id hid => by
      rw [hw, World.setOrder_of_ne _ _ hid]
    have hvenue : s₂.1.venue = s₁.1.venue := by rw [hw]; rfl
    -- Every row there was before has another intent, so nothing about it changed.
    have hold : ∀ id row', s₁.1.orders id = some row' → s₂.1.orders id = some row' := by
      intro id row' hrow'
      rw [hne id, hrow']
      rintro rfl
      rw [free] at hrow'
      exact absurd hrow' (by simp)
    refine ⟨⟨fun u hu => ⟨fun id row' hrow' => ⟨row', hold id row' hrow', fun hfresh => ?_⟩, ?_⟩,
      fun id row' hrow' _ => ⟨row', hold id row' hrow', rfl⟩⟩, ?_,
      fun _ => .of_nonterminal hself hrow⟩
    · refine ⟨?_, rfl⟩
      rw [hg] at hfresh
      simpa [reading, Stale.refresh, hu] using hfresh
    · rw [hvenue]
      exact .refl _
    · intro id row' hrow' ht
      rw [hvenue]
      by_cases hid : id = row.intentId
      · subst hid
        rw [hself] at hrow'
        obtain rfl := Option.some.inj hrow'
        exact absurd ht hrow
      · rw [hne id hid] at hrow'
        exact hi id row' hrow' ht
  · have hg' : s₂.2 = s₁.2 := by rcases hr with rfl | rfl <;> exact hg
    obtain rfl : s₂ = s₁ := Prod.ext hw hg'
    refine ⟨⟨fun u _ => .refl u _, .of_same rfl⟩, hi, ?_⟩
    rintro rfl
    rcases hr with hr | hr <;> exact absurd hr (by simp)

/-- A look-up that finds a row in no terminal state. -/
theorem wp_selectOrder (id : String) :
    wp (freshHandler t) freshMarks t (perform (.selectOrder id))
      (fun r s => ∀ row, r = .ok (some row) → ¬row.status.Terminal → Markable t id .UNKNOWN s)
      s := by
  refine wp_perform (P := fun _ => True) (fun _ _ _ _ _ => trivial) trivial ?_
  intro s₁ r s₂ _ hi h
  obtain ⟨hg, hi₂⟩ := unwritten_step (o := .selectOrder id) trivial hi h
  obtain ⟨⟨⟨hr, hw⟩, -⟩, -⟩ := h
  refine ⟨hg, hi₂, ?_⟩
  rintro row rfl hnot
  rcases hr with hr | hr
  · have hrow : s₂.1.orders id = some row := by
      rw [hw]
      exact (Except.ok.inj hr).symm
    exact .of_nonterminal hrow hnot
  · cases hr

omit [PyStr] [NumericColumn] [DecidableEq ι] in
/-- **A reading of the exchange.**  What it reports can be marked: a terminal row agrees with
the exchange, and so with the report. -/
theorem Markable.of_report {id : String} {st st' : OrderState} {s₁ s₂ : World Book × Stale ι}
    (h : Markable t id st s₁) (horders : s₂.1.orders = s₁.1.orders) (hi : Agrees s₂.1)
    (hrep : s₂.1.venue id = some st') : Markable t id st' s₂ := by
  obtain ⟨row, hrow, -⟩ := h.row
  rw [← horders] at hrow
  refine ⟨⟨row, hrow, fun _ ht => ?_⟩, fun _ => hrep⟩
  have hagree := hi id row hrow ht
  rw [hrep] at hagree
  exact (Option.some.inj hagree).symm

theorem wp_submitOrder {n : OrderIntent} (h : Markable t n.intentId .UNKNOWN s) :
    wp (freshHandler t) freshMarks t (perform (.submitOrder n))
      (fun r s => match r with
        | .ok record => Markable t n.intentId record.state s
        | .error _ => Markable t n.intentId .UNKNOWN s) s := by
  refine wp_perform (stable_markable t _ _) h ?_
  intro s₁ r s₂ hm hi hh
  obtain ⟨hg, hi₂⟩ := unwritten_step (o := .submitOrder n) trivial hi hh
  obtain ⟨⟨⟨v, ⟨hmoves, hrep⟩, hw⟩, hr⟩, -⟩ := hh
  have horders : s₂.1.orders = s₁.1.orders := by rw [hw]; rfl
  have hvenue : s₂.1.venue = v := by rw [hw]; rfl
  refine ⟨hg, hi₂, ?_⟩
  cases r with
  | ok record => exact hm.of_report horders hi₂ (by rw [hvenue]; exact hrep record rfl)
  | error e =>
    have hmoves' : s₁.1.venue.Moves s₂.1.venue := by rw [hvenue]; exact hmoves
    exact stable_markable t _ _ _ _ hm (.of_same horders hmoves' (congrFun hr t)) hi₂

theorem wp_getOrder {id : String} {q : OrderQuery} (h : Markable t id .UNKNOWN s) :
    wp (freshHandler t) freshMarks t (perform (.getOrder id q))
      (fun r s => match r with
        | .ok (some record) => Markable t id record.state s
        | _ => Markable t id .UNKNOWN s) s := by
  refine wp_perform (stable_markable t _ _) h ?_
  intro s₁ r s₂ hm hi hh
  obtain ⟨hg, hi₂⟩ := unwritten_step (o := .getOrder id q) trivial hi hh
  obtain ⟨⟨⟨v, ⟨hmoves, hrep⟩, hw⟩, hr⟩, -⟩ := hh
  have horders : s₂.1.orders = s₁.1.orders := by rw [hw]; rfl
  have hvenue : s₂.1.venue = v := by rw [hw]; rfl
  have hmoves' : s₁.1.venue.Moves s₂.1.venue := by rw [hvenue]; exact hmoves
  refine ⟨hg, hi₂, ?_⟩
  rcases r with e | (_ | record)
  · exact stable_markable t _ _ _ _ hm (.of_same horders hmoves' (congrFun hr t)) hi₂
  · exact stable_markable t _ _ _ _ hm (.of_same horders hmoves' (congrFun hr t)) hi₂
  · exact hm.of_report horders hi₂ (by rw [hvenue]; exact hrep record rfl)

/-- **A mark.**  On a terminal row it is fresh, so it repeats the status; on any other row it
may write a terminal status only when the exchange has it. -/
theorem wp_updateOrder {id : String} {record : OrderRecord}
    (h : Markable t id record.state s) :
    wp (freshHandler t) freshMarks t (perform (.updateOrder id record))
      (fun r _ => Unambiguous r) s := by
  refine wp_perform (stable_markable t _ _) h ?_
  rintro s₁ r s₂ ⟨⟨row, hrow, hsafe⟩, hrep⟩ hi ⟨⟨hw, hg⟩, hfresh⟩
  rcases hw with ⟨found, hfound, rfl, hw⟩ | ⟨hnone, -, -⟩ | ⟨rfl, hw⟩
  · obtain rfl : row = found := Option.some.inj (hrow.symm.trans hfound)
    have hself : s₂.1.orders id = some (row.marked record) := by
      rw [hw, World.setOrder_self]
    have hne : ∀ id', id' ≠ id → s₂.1.orders id' = s₁.1.orders id' := fun id' hid => by
      rw [hw, World.setOrder_of_ne _ _ hid]
    have hvenue : s₂.1.venue = s₁.1.venue := by rw [hw]; rfl
    have hkeep : row.status.Terminal → (row.marked record).status = row.status := fun ht =>
      (hsafe (hfresh row hrow ht) ht).symm
    refine ⟨⟨fun u hu => ⟨fun id' row' hrow' => ?_, ?_⟩, fun id' row' hrow' ht => ?_⟩, ?_, ?_⟩
    · by_cases hid : id' = id
      · subst hid
        refine ⟨row.marked record, hself, fun hfresh' => ?_⟩
        rw [hg] at hfresh'
        simp [reading, Stale.outdate, hu] at hfresh'
      · refine ⟨row', by rw [hne id' hid, hrow'], fun hfresh' => ⟨?_, rfl⟩⟩
        rw [hg] at hfresh'
        simpa [reading, Stale.outdate, hid] using hfresh'
    · rw [hvenue]
      exact .refl _
    · by_cases hid : id' = id
      · subst hid
        rw [hrow] at hrow'
        obtain rfl := Option.some.inj hrow'
        exact ⟨row.marked record, hself, hkeep ht⟩
      · exact ⟨row', by rw [hne id' hid, hrow'], rfl⟩
    · intro id' row' hrow' ht
      rw [hvenue]
      by_cases hid : id' = id
      · subst hid
        rw [hself] at hrow'
        obtain rfl := Option.some.inj hrow'
        exact hrep ht
      · rw [hne id' hid] at hrow'
        exact hi id' row' hrow' ht
    · trivial
  · rw [hrow] at hnone
    exact absurd hnone (by simp)
  · obtain rfl : s₂ = s₁ := Prod.ext hw hg
    refine ⟨⟨fun u _ => .refl u _, .of_same rfl⟩, hi, ?_⟩
    change ¬Ambiguous .databaseError
    decide

/-- Writing the cache never raises and never disturbs. -/
theorem wp_setRecord {svc : ℕ} {id key : String} {record : OrderRecord} {st : OrderState}
    (h : Markable t id st s) :
    wp (freshHandler t) freshMarks t (perform (.setRecord svc key record))
      (fun r s => r = .ok () ∧ Markable t id st s) s := by
  refine wp_perform (stable_markable t id st) h ?_
  intro s₁ r s₂ hm hi hh
  obtain ⟨hg, hi₂⟩ := unwritten_step (o := .setRecord svc key record) trivial hi hh
  obtain ⟨⟨⟨hr, hw⟩, hstale⟩, -⟩ := hh
  have horders : s₂.1.orders = s₁.1.orders := by rw [hw]; rfl
  have hvenue : s₁.1.venue.Moves s₂.1.venue := by rw [hw]; exact .refl _
  have hothers := Others.of_same horders hvenue (congrFun hstale t)
  exact ⟨hg, hi₂, hr, stable_markable t id st _ _ hm hothers hi₂⟩

/-! ## 5. The program -/

variable {self : ExecutionService} {a : SubmitArgs} {n : OrderIntent} {record : OrderRecord}

theorem wp_mark {id : String} (record : OrderRecord) (h : Markable t id record.state s) :
    wp (freshHandler t) freshMarks t (mark id record) (fun r _ => Unambiguous r) s := by
  refine wp_mark_of (wp_mono ?_ (wp_updateOrder h))
  rintro (e | (_ | _)) s₁ hun
  · exact hun
  · rintro (h | h) <;> cases h
  · trivial

theorem wp_markDurable (record : OrderRecord) (hid : n.intentId = a.intent.intentId)
    (h : Markable t n.intentId record.state s) :
    wp (freshHandler t) freshMarks t (markDurable self a record) (fun r _ => Unambiguous r) s := by
  rw [hid] at h
  unfold markDurable
  split
  · exact wp_mark record h
  · trivial

/-- **Reconciliation.**  Only rows in SUBMITTED and UNKNOWN are asked about, so the look-up is a
reading of a row in no terminal state, and so is the query that finds nothing. -/
theorem wp_reconcileFresh (id : String) (expected : Option OrderIntent) :
    wp (freshHandler t) freshMarks t (reconcileExisting id expected) (fun _ _ => True) s := by
  refine wp_reconcile_of
    (F := fun row s => ¬row.status.Terminal → Markable t id .UNKNOWN s) ?_ ?_ ?_ ?_
  · refine wp_mono ?_ (wp_selectOrder id)
    rintro (e | (_ | row)) s₁ hselect
    · trivial
    · trivial
    · exact hselect row rfl
  · intros
    trivial
  · intros
    trivial
  · intro row s₁ hm _ hopen
    have hnot : ¬row.status.Terminal := by
      rcases hopen with h | h <;> rw [h] <;> decide
    refine wp_resolve_of (wp_mono ?_ (wp_getOrder (hm hnot)))
    rintro (e | (_ | remote)) s₂ hm₂
    · trivial
    · refine wp_mono ?_ (wp_mark { toRecord row with state := .UNKNOWN } hm₂)
      rintro (e | u) s₃ - <;> trivial
    · refine wp_mono ?_ (wp_mark remote hm₂)
      rintro (e | u) s₃ - <;> trivial

theorem wp_lostInsertFresh :
    wp (freshHandler t) freshMarks t (lostInsert self a n) (fun _ _ => True) s := by
  refine wp_bind.mpr (wp_mono ?_ (wp_reconcileFresh _ _))
  rintro (e | (_ | resolved)) s₁ -
  · trivial
  · trivial
  · exact wp_unwritten (within_adopt trivial)

/-- **The side effect.**  The answer is marked straight after it was read; when there is none
the reading is still the insert. -/
theorem wp_sideEffectFresh (hid : n.intentId = a.intent.intentId)
    (h : Markable t n.intentId .UNKNOWN s) :
    wp (freshHandler t) freshMarks t (sideEffect self a n record) (fun _ _ => True) s := by
  refine wp_sideEffect_of (P := Markable t n.intentId .UNKNOWN)
    (R := fun actual => Markable t n.intentId actual.state)
    (E := fun e s => Ambiguous e → Markable t n.intentId .UNKNOWN s) ?_ ?_ ?_ ?_ ?_ ?_
  · refine wp_mono ?_ (wp_setRecord h)
    rintro (e | u) s₁ ⟨-, hm⟩
    · trivial
    · exact hm
  · intro s₁ hm
    refine wp_mono ?_ (wp_passive (within_checkFence trivial) hm)
    rintro (e | u) s₂ hm₂
    · exact fun _ => hm₂
    · exact hm₂
  · intro s₁ hm
    refine wp_mono ?_ (wp_submitOrder hm)
    rintro (e | actual) s₂ hm₂
    · exact fun _ => hm₂
    · exact hm₂
  · intro actual s₁ hm
    refine wp_mono ?_ (wp_setRecord hm)
    rintro (e | u) s₂ ⟨hok, hm₂⟩
    · cases hok
    · refine wp_mono ?_ (wp_markDurable actual hid hm₂)
      rintro (e | u) s₃ hun
      · exact fun hamb => absurd hamb hun
      · trivial
  · intro e s₁ hm hamb
    refine wp_handleAmbiguous_of (wp_mono ?_ (wp_setRecord (hm hamb)))
    rintro (e | u) s₂ ⟨-, hm₂⟩
    · trivial
    refine wp_mono ?_ (wp_markDurable { record with state := .UNKNOWN } hid hm₂)
    rintro (e | u) s₃ -
    · trivial
    refine wp_mono ?_ (wp_unwritten (within_isolate (fun _ => trivial) trivial))
    rintro (e | u) s₄ - <;> trivial
  · intros
    trivial

/-- **`submit` keeps the protocol.** -/
theorem wp_submitFresh (hself : self.persistentIntents = true) :
    wp (freshHandler t) freshMarks t (self.submit a) (fun _ _ => True) s := by
  refine wp_submit_of (P := fun _ => True) ?_ ?_ ?_ ?_ ?_ ?_ ?_
  · exact fun s hp _ => wp_unwritten (hp.mono fun _ => Op.Reads.unwritten)
  · exact wp_unwritten (Prog.within_perform.mpr trivial)
  · intro r s₁ _
    refine wp_mono ?_ (wp_unwritten (Prog.within_perform.mpr trivial))
    rintro (e | u) s₂ - <;> trivial
  · intros
    trivial
  · intro s₁ _
    refine wp_mono ?_ (wp_unwritten (Prog.within_perform.mpr trivial))
    exact fun r s₂ _ => ⟨trivial, fun _ _ => trivial⟩
  · intro s₁ _ _
    refine wp_mono ?_ (wp_reconcileFresh _ _)
    rintro (e | (_ | existing)) s₂ -
    · trivial
    · trivial
    · exact wp_unwritten (within_adopt trivial)
  · rintro n s₁ - ⟨filters, cap, hn⟩
    obtain ⟨qty, price, -, -, heq⟩ := normalizeAndValidate_eq_ok hn
    have hid : n.intentId = a.intent.intentId := by rw [heq]
    have hnew : ¬(newRow n).status.Terminal := by
      change ¬OrderState.SUBMITTED.Terminal
      decide
    rw [if_pos hself]
    refine wp_reserveAndSend_of (P := fun _ => True) (O := Markable t n.intentId .UNKNOWN)
      (wp_reserve_of ?_ ?_ ?_ trivial) ?_ ?_ ?_
    · exact fun s _ => wp_unwritten (Prog.within_perform.mpr trivial)
    · intro s _
      refine wp_mono ?_ (wp_insertOrder (newRow n) hnew)
      rintro (e | u) s₂ hm
      · trivial
      · exact hm rfl
    · exact fun s hm => wp_passive (Prog.within_perform.mpr trivial) hm
    · intros
      trivial
    · exact fun record s hm => wp_sideEffectFresh hid hm
    · exact fun s _ => wp_lostInsertFresh

/-! ## 6. The result -/

theorem fresh_obeys : Pool.Obeys (fresh (ι := ι)) freshMarks where
  start := by
    rintro t p s ⟨self, a, hself, rfl⟩ -
    exact wp_submitFresh hself
  env := by
    rintro s s' ⟨⟨horders, hvenue⟩, hg⟩ hi
    exact ⟨hi.of_same horders hvenue, fun t => .of_same horders hvenue (by rw [hg])⟩

/-- One step of a safe pool keeps every terminal row. -/
theorem keeps_step {c c' : Pool ι execSig (World Book × Stale ι) OrderRecord}
    (hc : Pool.Safe fresh freshMarks c) (h : Pool.Step fresh c c') :
    Keeps c.shared.1 c'.shared.1 := by
  rcases hc.shared h with heq | ⟨t, hg⟩ | henv
  · rw [heq]
    exact .of_same rfl
  · exact hg.2
  · exact .of_same henv.1.1

/-- **Without stale marks on terminal rows, terminal rows stay.**  The start may hold rows of
its own, if the exchange agrees with the terminal ones. -/
theorem terminal_kept_of_fresh {w : World Book} (hw : Agrees w) :
    TerminalKept (fresh (ι := ι)) Prod.fst (w, fun _ _ => false) := by
  intro c c' hc h id row hrow ht
  have hstart : freshMarks.inv ((w, fun _ _ => false) : World Book × Stale ι) := hw
  have hsafe : Pool.Safe fresh freshMarks c := Pool.sound fresh_obeys (Pool.safe_idle hstart) hc
  induction h with
  | refl => exact ⟨row, hrow, rfl⟩
  | tail hreach hstep ih =>
    obtain ⟨row₁, hrow₁, hstatus₁⟩ := ih
    have hsafe₁ := Pool.sound fresh_obeys hsafe hreach
    have ht₁ : row₁.status.Terminal := by rwa [hstatus₁]
    obtain ⟨row₂, hrow₂, hstatus₂⟩ := keeps_step hsafe₁ hstep id row₁ hrow₁ ht₁
    exact ⟨row₂, hrow₂, hstatus₂.trans hstatus₁⟩

end Workers

/-! ## 7. A stale mark -/

section LostFill

attribute [local instance] asciiStr exactColumn

/-- A filled order, agreed on by table and exchange. -/
def filledWorld : World Book :=
  (World.empty (Function.update (fun _ => none) "i-1" (some .FILLED))).setOrder "i-1"
    { newRow (SubmitArgs.limitBuy "i-1").intent with status := .FILLED }

theorem terminal_kept_of_fresh_filledWorld :
    TerminalKept (fresh (ι := Bool)) Prod.fst (filledWorld, fun _ _ => false) := by
  refine terminal_kept_of_fresh fun id row hrow _ => ?_
  by_cases hid : id = "i-1"
  · subst hid
    obtain rfl := Option.some.inj ((World.setOrder_self _ _ _).symm.trans hrow)
    rfl
  · rw [filledWorld, World.setOrder_of_ne _ _ hid] at hrow
    exact absurd hrow (by simp [World.empty])

/-- An exchange that acknowledges an order and has filled it by the next query. -/
def Venue.fillsLater : Venue Book where
  submit := fun n b => match b n.intentId with
    | none => (.ok (n.taken .ACKNOWLEDGED "x-1"),
        Function.update b n.intentId (some .ACKNOWLEDGED))
    | some st => (.ok (n.taken st "x-1"), b)
  get := fun id _ b => match b id with
    | none => (.ok none, b)
    | some .ACKNOWLEDGED =>
        (.ok (some ((SubmitArgs.limitBuy id).intent.taken .FILLED "x-1")),
          Function.update b id (some .FILLED))
    | some st => (.ok (some ((SubmitArgs.limitBuy id).intent.taken st "x-1")), b)

theorem moves_update {b : Book} {id : String} {st : OrderState}
    (h : ∀ st', b id = some st' → st ∈ ALLOWED st') :
    b.Moves (Function.update b id (some st)) := by
  intro id' st' hst'
  by_cases hid : id' = id
  · subst hid
    exact ⟨st, Function.update_self .., .single (h st' hst')⟩
  · exact ⟨st', by rw [Function.update_of_ne hid, hst'], .refl⟩

theorem fillsLater_picks : Venue.fillsLater.Picks advancing where
  submit := by
    intro n b
    simp only [Venue.fillsLater]
    cases h : b n.intentId with
    | none =>
      refine ⟨moves_update fun st' hst' => ?_, ?_⟩
      · rw [h] at hst'
        cases hst'
      · rintro record ⟨rfl⟩
        exact Function.update_self ..
    | some st =>
      refine ⟨.refl b, ?_⟩
      rintro record ⟨rfl⟩
      exact h
  get := by
    intro id q b
    simp only [Venue.fillsLater]
    have hsame : ∀ st, b id = some st → Book.Moves b b ∧ ∀ record,
        (Except.ok (some ((SubmitArgs.limitBuy id).intent.taken st "x-1")) : Except Exc _) =
          .ok (some record) → b id = some record.state := by
      intro st hst
      refine ⟨.refl b, ?_⟩
      rintro record ⟨rfl⟩
      exact hst
    rcases h : b id with _ | st
    · refine ⟨.refl b, ?_⟩
      rintro record ⟨⟩
    · cases st with
      | ACKNOWLEDGED =>
        refine ⟨moves_update fun st' hst' => ?_, ?_⟩
        · obtain rfl := Option.some.inj (h.symm.trans hst')
          decide
        · rintro record ⟨rfl⟩
          exact Function.update_self ..
      | _ => exact hsame _ h

/-- The first worker has its acknowledgement and has not marked it; the second has found the
order filled and marked that. -/
def beforeMark : Pool Bool execSig (World Book) OrderRecord :=
  Pool.play (fun _ => cooperate .plain .fillsLater)
    (fun i => (ExecutionService.process i).submit (.limitBuy "i-1"))
    (Pool.idle (World.empty fun _ => none))
    (.spawn false false :: List.replicate 14 (.act false) ++
      .spawn true true :: List.replicate 8 (.act true))

/-- Then the first worker marks. -/
def afterMark : Pool Bool execSig (World Book) OrderRecord :=
  Pool.play (fun _ => cooperate .plain .fillsLater)
    (fun i => (ExecutionService.process i).submit (.limitBuy "i-1")) beforeMark [.act false]

/-- **A filled order goes back to acknowledged.** -/
theorem terminal_not_kept :
    ¬TerminalKept (tracked (ι := Bool)) (fun w => w) (World.empty fun _ => none) := by
  intro h
  have hplay : ∀ (c : Pool Bool execSig (World Book) OrderRecord) ms,
      Pool.Reaches tracked c (Pool.play (fun _ => cooperate .plain .fillsLater)
        (fun i => (ExecutionService.process i).submit (.limitBuy "i-1")) c ms) := by
    refine Pool.reaches_play (fun _ => cooperate_picks fillsLater_picks .plain) ?_
    exact fun _ i => ⟨.process i, .limitBuy "i-1", rfl, rfl⟩
  have hbefore : Pool.Reaches tracked (Pool.idle (World.empty fun _ => none)) beforeMark :=
    hplay _ _
  have hafter : Pool.Reaches tracked beforeMark afterMark := hplay _ _
  have hfilled : (beforeMark.shared.orders "i-1").map (·.status) = some .FILLED := by
    decide +kernel
  have hacked : (afterMark.shared.orders "i-1").map (·.status) = some .ACKNOWLEDGED := by
    decide +kernel
  obtain ⟨row, hrow, hstatus⟩ := Option.map_eq_some_iff.mp hfilled
  have hterm : row.status.Terminal := by
    rw [hstatus]
    decide
  obtain ⟨row', hrow', hstatus'⟩ := h beforeMark afterMark hbefore hafter "i-1" row hrow hterm
  rw [hrow', Option.map_some, hstatus', hstatus] at hacked
  exact absurd hacked (by decide)

end LostFill

end Kripto.Execution
