/-
# Whose record `submit` returns

The record a call returns is made in four places: from the cache, from a row of the ledger, from
the response to the order, from the response to a query.  The ledger compares a row with the
intent, and its record carries the intent's id.  A record made from a response does not: the
client id the exchange names becomes the intent id, and a query has no intent at hand at all.

* `submit_identifies_iff`: what a call over the adapter and a ledger returns is of its intent
  exactly when what it was made from names the intent.
* `other_identity`: an exchange that echoes the client id of the intent.
-/
import Kripto.Execution.Binance
import Kripto.Execution.Resubmit

namespace Kripto.Execution

open Effect PersistentIntentLedger
open ExecutionService hiding id

/-! ## 1. Naming an intent -/

/-- The record is of the intent. -/
structure Identifies (intent : OrderIntent) (record : OrderRecord) : Prop where
  intentId : record.intentId = intent.intentId
  accountId : record.accountId = intent.accountId
  symbol : record.symbol = intent.symbol
  side : record.side = intent.side

/-- What a returned record can be made from, besides the ledger. -/
inductive Source
  | cached (record : OrderRecord)
  | placed (x : OrderResponse)
  | found (x : OrderResponse)

/-- **The condition.**  The response to an order may leave everything to the intent, but must not
contradict it; the response to a query has to spell it out. -/
def Source.Names (intent : OrderIntent) : Source → Prop
  | cached record => Identifies intent record
  | placed x =>
      orText x.clientOrderId intent.intentId = intent.intentId ∧
        orText x.symbol intent.symbol = intent.symbol ∧ orText x.side intent.side = intent.side
  | found x =>
      orText x.clientOrderId "" = intent.intentId ∧ intent.accountId = "binance" ∧
        x.symbol = some intent.symbol ∧ x.side = some intent.side

section

variable [PyDecimal] {intent n : OrderIntent} {x : OrderResponse} {record : OrderRecord}

/-- A record made from the response to an order. -/
theorem identifies_placed_iff (hn : Identifies intent (recordOf n))
    (h : mapOrder x (some n) = .ok record) :
    Identifies intent record ↔ (Source.placed x).Names intent := by
  obtain ⟨hid, haccount, hsymbol, hside⟩ := hn
  change n.intentId = intent.intentId at hid
  change n.symbol = intent.symbol at hsymbol
  change n.side = intent.side at hside
  obtain ⟨hrecord, haccount', hsymbol', hside'⟩ := mapOrder_eq_ok h
  have hrecordSymbol : orText x.symbol n.symbol = record.symbol := Except.ok.inj hsymbol'
  have hrecordSide : orText x.side n.side = record.side := Except.ok.inj hside'
  change record.intentId = orText x.clientOrderId n.intentId at hrecord
  rw [hid] at hrecord
  rw [hsymbol] at hrecordSymbol
  rw [hside] at hrecordSide
  constructor
  · rintro ⟨h₁, -, h₃, h₄⟩
    exact ⟨hrecord.symm.trans h₁, hrecordSymbol.trans h₃, hrecordSide.trans h₄⟩
  · rintro ⟨h₁, h₃, h₄⟩
    exact ⟨hrecord.trans h₁, haccount'.trans haccount, hrecordSymbol.symm.trans h₃,
      hrecordSide.symm.trans h₄⟩

omit [PyDecimal] in
/-- A field that has nothing to fall back on. -/
theorem orField_none_eq_ok {value : Option String} {text : String}
    (h : orField value none = .ok text) : value = some text := by
  unfold orField at h
  cases value with
  | none => simp [orText] at h
  | some value =>
    by_cases hempty : value = ""
    · simp [orText, hempty] at h
    · simp only [orText, if_neg hempty, Except.ok.injEq] at h
      rw [h]

/-- A record made from the response to a query. -/
theorem identifies_found_iff (h : mapOrder x none = .ok record) :
    Identifies intent record ↔ (Source.found x).Names intent := by
  obtain ⟨hrecord, haccount, hsymbol, hside⟩ := mapOrder_eq_ok h
  have hsymbol' : x.symbol = some record.symbol := orField_none_eq_ok hsymbol
  have hside' : x.side = some record.side := orField_none_eq_ok hside
  change record.intentId = orText x.clientOrderId "" at hrecord
  change record.accountId = "binance" at haccount
  constructor
  · rintro ⟨h₁, h₂, h₃, h₄⟩
    exact ⟨hrecord.symm.trans h₁, h₂.symm.trans haccount, by rw [hsymbol', h₃],
      by rw [hside', h₄]⟩
  · rintro ⟨h₁, h₂, h₃, h₄⟩
    exact ⟨hrecord.trans h₁, haccount.trans h₂.symm, Option.some.inj (hsymbol'.symm.trans h₃),
      Option.some.inj (hside'.symm.trans h₄)⟩

end

/-- A row that is filed under the intent and has the identity of its order. -/
theorem identifies_row {intent n : OrderIntent} {row : OrderRow}
    (hn : Identifies intent (recordOf n)) (hid : row.intentId = intent.intentId)
    (haccount : row.accountId = n.accountId) (hsymbol : row.symbol = n.symbol)
    (hside : row.side = n.side) : Identifies intent (toRecord row) :=
  ⟨hid, haccount.trans hn.accountId, hsymbol.trans hn.symbol, hside.trans hn.side⟩

/-- A row the ledger has compared with the order. -/
theorem identifies_of_assert {intent n : OrderIntent} {row : OrderRow}
    (hn : Identifies intent (recordOf n)) (hid : row.intentId = intent.intentId)
    (h : assertSameIntent (toRecord row) n = .ok ()) : Identifies intent (toRecord row) := by
  have hsame : row.identity = n.identity := by
    by_contra hne
    rw [assertSameIntent_of_ne hne] at h
    cases h
  simp only [OrderRow.identity, OrderIntent.identity, Prod.mk.injEq] at hsame
  exact identifies_row hn hid hsame.1 hsame.2.1 hsame.2.2.1

/-! ## 2. What the adapter raises of its own -/

section

theorem ExecutionService.Unambiguous.bind {α β : Type} {x : Except Exc α} {f : α → Except Exc β}
    (hx : Unambiguous x) (hf : ∀ a, Unambiguous (f a)) : Unambiguous (x >>= f) := by
  cases x with
  | ok a => exact hf a
  | error e => exact hx

theorem unambiguous_raiseIf {c : Prop} [Decidable c] {e : Exc} (he : ¬Ambiguous e) :
    Unambiguous (raiseIf c e) := by
  unfold raiseIf
  split
  · exact he
  · trivial

theorem not_ambiguous_other (name : String) : ¬Ambiguous (.other name) := by
  rintro (h | h) <;> cases h

theorem unambiguous_orField (value field : Option String) : Unambiguous (orField value field) := by
  unfold orField
  split
  · trivial
  · split
    · exact not_ambiguous_other _
    · trivial

variable [PyDecimal]

theorem unambiguous_decimal (text : String) : Unambiguous (decimal text) := by
  unfold decimal
  split
  · trivial
  · exact not_ambiguous_other _

theorem unambiguous_orQuantity (value : Option String) (quantity : Option ℚ) :
    Unambiguous (orQuantity value quantity) := by
  unfold orQuantity
  split
  · split
    · trivial
    · exact not_ambiguous_other _
  · exact unambiguous_decimal _

theorem unambiguous_orPrice (value : Option String) (field : Option ℚ) :
    Unambiguous (orPrice value field) := by
  unfold orPrice
  split
  · trivial
  · exact (unambiguous_decimal _).bind fun _ => trivial

theorem unambiguous_executed (value : Option (Option String)) : Unambiguous (executed value) := by
  unfold executed
  split
  · trivial
  · exact not_ambiguous_other _
  · exact unambiguous_decimal _

/-- **A response that cannot be mapped** is an error like any other: the order is not taken for
one whose fate is unknown. -/
theorem unambiguous_mapOrder (x : OrderResponse) (fallback : Option OrderIntent) :
    Unambiguous (mapOrder x fallback) := by
  have hmissing : ¬Ambiguous (.valueError
      ("required order field missing: " ++ ",".intercalate x.missing)) := by
    rintro (h | h) <;> cases h
  exact (unambiguous_raiseIf hmissing).bind fun _ =>
    (unambiguous_orField _ _).bind fun _ => (unambiguous_orField _ _).bind fun _ =>
    (unambiguous_orField _ _).bind fun _ => (unambiguous_orQuantity _ _).bind fun _ =>
    (unambiguous_orPrice _ _).bind fun _ => (unambiguous_orPrice _ _).bind fun _ =>
    (unambiguous_executed _).bind fun _ => trivial

end

/-! ## 3. A call among others -/

section

variable {ε : Type}

/-- Rows are filed under their `intent_id`. -/
def World.Keyed (w : World ε) : Prop := ∀ id row, w.orders id = some row → row.intentId = id

/-- What everybody does to the world: rows stay, as the orders they are, filed as they are. -/
structure World.Kept (w w' : World ε) : Prop where
  keyed : w.Keyed → w'.Keyed
  rows : ∀ id i, HasRow id i w → HasRow id i w'

theorem World.Kept.refl (w : World ε) : w.Kept w := ⟨fun h => h, fun _ _ h => h⟩

theorem World.Kept.trans {w w' w'' : World ε} (h : w.Kept w') (h' : w'.Kept w'') : w.Kept w'' :=
  ⟨fun hw => h'.keyed (h.keyed hw), fun id i hrow => h'.rows id i (h.rows id i hrow)⟩

theorem World.Keyed.setOrder {w : World ε} (hw : w.Keyed) {id : String} {row : OrderRow}
    (hid : row.intentId = id) : (w.setOrder id row).Keyed := by
  intro id' row' hrow'
  by_cases hne : id' = id
  · subst hne
    rw [World.setOrder_self] at hrow'
    rw [← Option.some.inj hrow', hid]
  · rw [World.setOrder_of_ne _ _ hne] at hrow'
    exact hw id' row' hrow'

variable [PyStr] [NumericColumn]

/-- **Every operation of every call** is of this kind. -/
theorem kept_change {Ex : Exchange ε} {o : Op} {w w' : World ε} (h : Change Ex o w w') :
    w.Kept w' := by
  refine ⟨fun hw => ?_, fun id i hrow => hrow.change h⟩
  cases h with
  | inserted _ row free => exact hw.setOrder rfl
  | marked _ id record row found => exact hw.setOrder (hw id row found)
  | _ => exact hw

variable [PyDecimal] (api : BinanceApi ε)

/-- What was found in the cache. -/
def cachedSources : Except Exc (Option OrderRecord) → List Source
  | .ok (some record) => [.cached record]
  | _ => []

/-- What was received. -/
def receivedSources (source : OrderResponse → Source) : Except Exc OrderResponse → List Source
  | .ok x => [source x]
  | .error _ => []

/-- The operations over the adapter, with a list of the sources the call has come by. -/
def watched : Handler execSig (World ε × List Source)
  | .getRecord svc id, s, r, s' =>
      handler (binance api) (.getRecord svc id) s.1 r s'.1 ∧ s'.2 = cachedSources r ++ s.2
  | .submitOrder n, s, r, s' => ∃ reply v, api.Places n s.1.venue reply v ∧
      r = submitted n reply ∧
      s' = (s.1.sent n v r, receivedSources .placed reply ++ s.2)
  | .getOrder id query, s, r, s' => ∃ reply v, api.LooksUp query s.1.venue reply v ∧
      r = found reply ∧ s' = (s.1.asked id v r, receivedSources .found reply ++ s.2)
  | o, s, r, s' => handler (binance api) o s.1 r s'.1 ∧ s'.2 = s.2

variable {api}

theorem watched_handler {o : Op} {s s' : World ε × List Source} {r : execSig.Ans o}
    (h : watched api o s r s') : handler (binance api) o s.1 r s'.1 := by
  cases o with
  | submitOrder n =>
    obtain ⟨reply, v, hplaces, rfl, rfl⟩ := h
    exact ⟨v, ⟨reply, hplaces, rfl⟩, rfl⟩
  | getOrder id query =>
    obtain ⟨reply, v, hlooks, rfl, rfl⟩ := h
    exact ⟨v, ⟨reply, hlooks, rfl⟩, rfl⟩
  | _ => exact h.1

/-- **Watching excludes nothing.** -/
theorem exists_watched {o : Op} {w w' : World ε} {r : execSig.Ans o}
    (h : handler (binance api) o w r w') (sources : List Source) :
    ∃ sources', watched api o (w, sources) r (w', sources') := by
  cases o with
  | submitOrder n =>
    obtain ⟨v, ⟨reply, hplaces, rfl⟩, rfl⟩ := h
    exact ⟨_, reply, v, hplaces, rfl, rfl⟩
  | getOrder id query =>
    obtain ⟨v, ⟨reply, hlooks, rfl⟩, rfl⟩ := h
    exact ⟨_, reply, v, hlooks, rfl, rfl⟩
  | _ => exact ⟨_, h, rfl⟩

omit [PyStr] [NumericColumn] [PyDecimal] in
/-- What the others do: anything of this kind, but to what the call itself has come by. -/
def others (s s' : World ε × List Source) : Prop := s.1.Kept s'.1 ∧ s'.2 = s.2

omit [PyStr] [NumericColumn] [PyDecimal] in
/-- The operations that bring no source. -/
def Op.Silent : Op → Prop
  | getRecord .. | submitOrder _ | getOrder .. => False
  | _ => True

omit [PyStr] [NumericColumn] [PyDecimal] in
theorem Op.Asks.silent {o : Op} (h : o.Asks) : o.Silent := by
  cases o <;> first | exact h.elim | trivial

variable (api) in
/-- A call over the adapter, the others at work. -/
abbrev amidst : Handler execSig (World ε × List Source) := (watched api).amid others

theorem amidst_kept {o : Op} {s s' : World ε × List Source} {r : execSig.Ans o}
    (h : amidst api o s r s') : s.1.Kept s'.1 := by
  obtain ⟨s₁, hothers, hop⟩ := h
  exact hothers.1.trans (kept_change (handler_change (watched_handler hop)))

theorem amidst_silent {o : Op} (ho : o.Silent) {s s' : World ε × List Source} {r : execSig.Ans o}
    (h : amidst api o s r s') : s'.2 = s.2 := by
  obtain ⟨s₁, hothers, hop⟩ := h
  cases o <;> first | exact ho.elim | exact hop.2.trans hothers.2

variable {s : World ε × List Source}

/-- A part of the program that brings no source keeps what the call knows. -/
theorem wp_silent {α : Type} {p : Program α} {P : World ε → Prop} {G : List Source → Prop}
    (hP : ∀ w w', w.Kept w' → P w → P w') (hp : p.Within Op.Silent) (hs : P s.1 ∧ G s.2) :
    wp (amidst api) .free () p (fun _ s => P s.1 ∧ G s.2) s := by
  refine wp_within (Protocol.stable_alone fun s : World ε × List Source => P s.1 ∧ G s.2) ?_ hp hs
  rintro o s₁ r s₂ ho ⟨hP₁, hG₁⟩ - hop
  rw [← amidst_silent ho hop] at hG₁
  exact ⟨trivial, trivial, hP _ _ (amidst_kept hop) hP₁, hG₁⟩

/-- The same about the sources alone. -/
theorem wp_silent_sources {α : Type} {p : Program α} {G : List Source → Prop}
    (hp : p.Within Op.Silent) (hs : G s.2) :
    wp (amidst api) .free () p (fun _ s => G s.2) s :=
  wp_mono (fun _ _ h => h.2)
    (wp_silent (P := fun _ => True) (fun _ _ _ h => h) hp ⟨trivial, hs⟩)

/-! ## 4. The program -/

omit [PyStr] [NumericColumn] [PyDecimal] in
/-- What is claimed of an outcome and the sources behind it. -/
def Decided (intent : OrderIntent) (r : Except Exc OrderRecord) (sources : List Source) : Prop :=
  ∀ record, r = .ok record →
    (Identifies intent record ↔ ∀ source ∈ sources, source.Names intent)

section

omit [PyStr] [NumericColumn] [PyDecimal]

variable {intent : OrderIntent} {record : OrderRecord}

theorem Decided.error (e : Exc) (sources : List Source) : Decided intent (.error e) sources :=
  fun _ h => by cases h

/-- A record of the call's own making, or of the ledger's. -/
theorem Decided.own (h : Identifies intent record) : Decided intent (.ok record) [] := by
  rintro _ ⟨rfl⟩
  simp [h]

theorem Decided.source {source : Source} (h : Identifies intent record ↔ source.Names intent) :
    Decided intent (.ok record) [source] := by
  rintro _ ⟨rfl⟩
  simp [h]

end

/-- The call has come by nothing yet. -/
def Fresh (s : World ε × List Source) : Prop := s.1.Keyed ∧ s.2 = []

variable {intent n : OrderIntent}

theorem wp_fresh {α : Type} {p : Program α} (hp : p.Within Op.Silent) (hs : Fresh s) :
    wp (amidst api) .free () p (fun _ => Fresh) s :=
  wp_silent (P := World.Keyed) (G := fun sources => sources = []) (fun _ _ h => h.keyed) hp hs

omit [PyStr] [NumericColumn] [PyDecimal] in
theorem silent_mark (id : String) (record : OrderRecord) : (mark id record).Within Op.Silent :=
  Prog.Within.bind (Prog.within_perform.mpr trivial) fun found => by split <;> trivial

/-- **Reconciliation**: a row is compared, a response is not. -/
theorem wp_reconcileIdentity (hn : Identifies intent (recordOf n)) (hs : Fresh s) :
    wp (amidst api) .free () (reconcileExisting intent.intentId (some n))
      (fun r s => match r with
        | .ok (some record) => Decided intent (.ok record) s.2
        | .ok none => Fresh s
        | .error _ => True) s := by
  refine wp_reconcile_of (F := fun row s => row.intentId = intent.intentId ∧ s.2 = []) ?_ ?_ ?_ ?_
  · refine wp_free_perform.mpr ?_
    rintro r s' ⟨s₁, ⟨hkept, hsources⟩, ⟨hr, hw⟩, hsources'⟩
    have hs' : Fresh s' :=
      ⟨by rw [hw]; exact hkept.keyed hs.1, by rw [hsources', hsources, hs.2]⟩
    rcases r with e | (_ | row)
    · trivial
    · exact hs'
    · rcases hr with hr | hr
      · refine ⟨?_, hs'.2⟩
        have hrow : s₁.1.orders intent.intentId = some row := (Except.ok.inj hr).symm
        exact hkept.keyed hs.1 _ _ hrow
      · cases hr
  · intros
    trivial
  · rintro row s' ⟨hid, hsources⟩ hassert - -
    change Decided intent (.ok (toRecord row)) s'.2
    rw [hsources]
    exact .own (identifies_of_assert hn hid hassert)
  · rintro row s' ⟨-, hsources⟩ - -
    refine wp_resolve_of (wp_free_perform.mpr ?_)
    rintro r s₂ ⟨s₁, ⟨-, hsources₁⟩, reply, v, -, rfl, rfl⟩
    rcases reply with e | x
    · trivial
    · cases hmap : mapOrder x none with
      | error e =>
        have hfound : found (.ok x) = .error e := by
          change (mapOrder x none).map some = .error e
          rw [hmap]
          rfl
        rw [hfound]
        trivial
      | ok record =>
        have hfound : found (.ok x) = .ok (some record) := by
          change (mapOrder x none).map some = .ok (some record)
          rw [hmap]
          rfl
        rw [hfound]
        have hdecided : Decided intent (.ok record) [.found x] :=
          .source (identifies_found_iff hmap)
        have hreceived : receivedSources Source.found (.ok x) ++ s₁.2 = [.found x] := by
          rw [hsources₁, hsources]
          rfl
        rw [hreceived]
        refine wp_mono ?_ (wp_silent_sources (G := Decided intent (.ok record))
          (silent_mark intent.intentId record) hdecided)
        rintro (e | u) s₃ h
        · trivial
        · exact h

variable {self : ExecutionService} {a : SubmitArgs} {record : OrderRecord}

/-- Marking fails unambiguously. -/
theorem wp_markDurableIdentity {G : List Source → Prop} (hs : G s.2) :
    wp (amidst api) .free () (markDurable self a record)
      (fun r s => Unambiguous r ∧ G s.2) s := by
  refine wp_and ?_ (wp_silent_sources (within_markDurable trivial) hs)
  unfold markDurable
  split
  · refine wp_mark_of (wp_free_perform.mpr ?_)
    rintro (e | _ | _) s' ⟨s₁, -, hop, -⟩
    · rcases hop with ⟨row, -, hr, -⟩ | ⟨-, hr, -⟩ | ⟨hr, -⟩
      · cases hr
      · cases hr
      · obtain rfl := Except.error.inj hr
        change ¬Ambiguous .databaseError
        decide
    · rintro (h | h) <;> cases h
    · trivial
  · trivial

omit [PyStr] [NumericColumn] [PyDecimal] in
theorem returns_handleAmbiguous : (handleAmbiguous self a record).Returns
    (· = { record with state := .UNKNOWN }) := by
  refine Prog.Returns.bind (Prog.returns_any _) fun _ _ => ?_
  refine Prog.Returns.bind (Prog.returns_any _) fun _ _ => ?_
  exact Prog.Returns.bind (Prog.returns_any _) fun _ _ => rfl

/-- **The response to the order.** -/
theorem wp_submitOrderIdentity (hn : Identifies intent (recordOf n)) (hs : s.2 = []) :
    wp (amidst api) .free () (perform (.submitOrder n)) (fun r s => match r with
      | .ok actual => Decided intent (.ok actual) s.2
      | .error e => Ambiguous e → s.2 = []) s := by
  refine wp_free_perform.mpr ?_
  rintro r s' ⟨s₁, ⟨-, hsources⟩, reply, v, -, rfl, rfl⟩
  rw [hs] at hsources
  rcases reply with e | x
  · intro _
    exact hsources
  · have hunambiguous := unambiguous_mapOrder x (some n)
    have hsubmitted : submitted n (.ok x) = mapOrder x (some n) := rfl
    cases hmap : mapOrder x (some n) with
    | error e =>
      rw [hmap] at hunambiguous
      rw [hsubmitted, hmap]
      intro hambiguous
      exact absurd hambiguous hunambiguous
    | ok actual =>
      rw [hsubmitted, hmap]
      change Decided intent (.ok actual) (Source.placed x :: s₁.2)
      rw [hsources]
      exact .source (identifies_placed_iff hn hmap)

/-- **The side effect** returns the response, or the record it was given. -/
theorem wp_sideEffectIdentity (hn : Identifies intent (recordOf n))
    (hrecord : Identifies intent record) (hs : s.2 = []) :
    wp (amidst api) .free () (sideEffect self a n record)
      (fun r s => Decided intent r s.2) s := by
  have hkeep : ∀ {α : Type} {p : Program α} (s : World ε × List Source), p.Within Op.Silent →
      s.2 = [] → wp (amidst api) .free () p (fun _ s => s.2 = []) s :=
    fun s hp hs => wp_silent_sources (G := fun sources => sources = []) hp hs
  refine wp_sideEffect_of (P := fun s => s.2 = [])
    (R := fun actual s => Decided intent (.ok actual) s.2)
    (E := fun e s => Ambiguous e → s.2 = []) ?_ ?_ ?_ ?_ ?_ ?_
  · refine wp_mono ?_ (hkeep s (Prog.within_perform.mpr trivial) hs)
    rintro (e | u) s₁ h
    · exact .error _ _
    · exact h
  · intro s₁ h
    refine wp_mono ?_ (hkeep s₁ (within_checkFence trivial) h)
    rintro (e | u) s₂ h₂
    · exact fun _ => h₂
    · exact h₂
  · exact fun s₁ h => wp_submitOrderIdentity hn h
  · intro actual s₁ hdecided
    refine wp_free_perform.mpr ?_
    rintro r s₂ ⟨s', ⟨-, hsources⟩, ⟨rfl, -⟩, hsources₂⟩
    rw [← hsources, ← hsources₂] at hdecided
    refine wp_mono ?_ (wp_markDurableIdentity (G := Decided intent (.ok actual)) hdecided)
    rintro (e | u) s₃ ⟨hunambiguous, h⟩
    · exact fun hambiguous => absurd hambiguous hunambiguous
    · exact h
  · intro e s₁ h hambiguous
    have hwithin : (onAmbiguous self a record e).Within Op.Silent :=
      within_onAmbiguous trivial trivial (fun _ => trivial) trivial
    rw [onAmbiguous_of_ambiguous self a hambiguous] at hwithin
    refine wp_mono ?_ (wp_returns returns_handleAmbiguous (hkeep s₁ hwithin (h hambiguous)))
    rintro (e | returned) s₂ ⟨h₂, hreturned⟩
    · exact .error _ _
    · obtain rfl := hreturned returned rfl
      rw [h₂]
      exact .own ⟨hrecord.intentId, hrecord.accountId, hrecord.symbol, hrecord.side⟩
  · exact fun e s₁ _ _ => .error _ _

/-- What this call's own insert has left. -/
def Reserved (n : OrderIntent) (w : World ε) : Prop :=
  w.Keyed ∧ HasRow n.intentId (newRow n).stored.identity w

omit [PyStr] [PyDecimal] in
theorem Reserved.kept {w w' : World ε} (h : w.Kept w') (hw : Reserved n w) : Reserved n w' :=
  ⟨h.keyed hw.1, h.rows _ _ hw.2⟩

/-- **The reservation** returns a row of the order. -/
theorem wp_reserveIdentity (hn : Identifies intent (recordOf n)) (hs : Fresh s) :
    wp (amidst api) .free () (reserveBeforeSideEffect n) (fun r s => match r with
      | .ok (record, true) => Identifies intent record ∧ s.2 = []
      | .ok (_, false) => Fresh s
      | .error _ => True) s := by
  refine wp_mono ?_ (wp_reserve_row_of (P := Fresh)
    (O := fun s => Reserved n s.1 ∧ s.2 = [])
    (R := fun row s => Identifies intent (toRecord row) ∧ s.2 = []) ?_ ?_ ?_ hs)
  · rintro (e | ⟨record, _ | _⟩) s₁ h
    · trivial
    · exact h
    · obtain ⟨row, rfl, h⟩ := h
      exact h
  · exact fun s hs => wp_fresh (Prog.within_perform.mpr trivial) hs
  · intro s hs
    refine wp_free_perform.mpr ?_
    rintro r s' ⟨s₁, ⟨hkept, hsources⟩, hop, hsources'⟩
    have hkeyed : s₁.1.Keyed := hkept.keyed hs.1
    have hempty : s'.2 = [] := by rw [hsources', hsources, hs.2]
    rcases hop with ⟨-, rfl, hw⟩ | ⟨hr, hw⟩
    · refine ⟨?_, hempty⟩
      rw [hw]
      exact ⟨hkeyed.setOrder rfl, _, World.setOrder_self .., rfl⟩
    · have hs' : Fresh s' := ⟨by rw [hw]; exact hkeyed, hempty⟩
      rcases hr with rfl | rfl <;> exact hs'
  · intro s hs
    refine wp_free_perform.mpr ?_
    rintro r s' ⟨s₁, ⟨hkept, hsources⟩, ⟨hr, hw⟩, hsources'⟩
    have hempty : s'.2 = [] := by rw [hsources', hsources, hs.2]
    have hreserved : Reserved n s₁.1 := hs.1.kept hkept
    refine ⟨⟨by rw [hw]; exact hreserved, hempty⟩, ?_⟩
    rintro row rfl
    refine ⟨?_, hempty⟩
    obtain ⟨hkeyed, row', hrow', hidentity⟩ := hreserved
    rcases hr with hr | hr
    · have hrow : s₁.1.orders n.intentId = some row := (Except.ok.inj hr).symm
      obtain rfl : row' = row := Option.some.inj (hrow'.symm.trans hrow)
      simp only [OrderRow.identity, Prod.mk.injEq] at hidentity
      exact identifies_row hn ((hkeyed _ _ hrow).trans hn.intentId) hidentity.1 hidentity.2.1
        hidentity.2.2.1
    · cases hr

/-- **A call over the adapter and a ledger**, from any world and among any others. -/
theorem wp_submitIdentity (hself : self.persistentIntents = true) (hs : Fresh s) :
    wp (amidst api) .free () (self.submit a) (fun r s => Decided a.intent r s.2) s := by
  have hadopt : ∀ (record : OrderRecord) (s : World ε × List Source),
      Decided a.intent (.ok record) s.2 →
      wp (amidst api) .free () (adopt self a record) (fun r s => Decided a.intent r s.2) s := by
    intro record s hdecided
    refine wp_bind.mpr (wp_mono ?_ (wp_silent_sources (G := Decided a.intent (.ok record))
      (Prog.within_perform.mpr trivial) hdecided))
    rintro (e | u) s₁ h
    · exact .error _ _
    · exact h
  refine wp_submit_around (P := Fresh) ?_ ?_ ?_ ?_ ?_
  · exact fun s hs => wp_fresh ((within_guards self a).mono fun _ => Op.Asks.silent) hs
  · exact wp_fresh (Prog.within_perform.mpr trivial) hs
  · intro r s₁ hdecided
    refine wp_mono ?_ (wp_silent_sources (G := Decided a.intent r)
      (Prog.within_perform.mpr trivial) hdecided)
    rintro (e | u) s₂ h
    · exact .error _ _
    · exact h
  · exact fun e s₁ _ => .error _ _
  · intro s₁ hs₁
    refine wp_submitAdmitted_of (P := Fresh) (N := fun n => Identifies a.intent (recordOf n))
      ?_ ?_ ?_ ?_ ?_ hs₁
    · exact fun e s₂ _ => .error _ _
    · intro s₂ hs₂
      refine wp_free_perform.mpr ?_
      rintro r s₄ ⟨s₃, ⟨hkept, hsources⟩, ⟨rfl, hw⟩, hsources'⟩
      rw [hsources, hs₂.2, List.append_nil] at hsources'
      cases hcached : s₃.1.records self.id a.intent.intentId with
      | none =>
        rw [hcached] at hsources'
        exact ⟨by rw [hw]; exact hkept.keyed hs₂.1, hsources'⟩
      | some record =>
        rw [hcached] at hsources'
        change Decided a.intent (.ok record) s₄.2
        rw [hsources']
        exact .source Iff.rfl
    · intro s₂ hs₂ _
      have hown : Identifies a.intent (recordOf a.intent) := ⟨rfl, rfl, rfl, rfl⟩
      refine wp_mono ?_ (wp_reconcileIdentity hown hs₂)
      rintro (e | (_ | existing)) s₃ h
      · exact .error _ _
      · exact h
      · exact hadopt existing s₃ h
    · intro s₂ hs₂
      refine wp_mono ?_ (wp_returns (returns_normalizeRevalidated a)
        (wp_fresh (within_normalizeRevalidated a trivial trivial trivial) hs₂))
      rintro r s₃ ⟨hs₃, hr⟩
      refine ⟨hs₃, fun n hn => ?_⟩
      obtain ⟨filters, cap, hnorm⟩ := hr n hn
      obtain ⟨qty, price, -, -, rfl⟩ := normalizeAndValidate_eq_ok hnorm
      exact ⟨rfl, rfl, rfl, rfl⟩
    · intro n s₂ hs₂ hn
      rw [if_pos hself]
      refine wp_bind.mpr (wp_mono ?_ (wp_reserveIdentity hn hs₂))
      rintro (e | ⟨record, _ | _⟩) s₃ h
      · exact .error _ _
      · refine wp_bind.mpr (wp_mono ?_ (wp_reconcileIdentity hn h))
        rintro (e | (_ | resolved)) s₄ h₄
        · exact .error _ _
        · exact .error _ _
        · exact hadopt resolved s₄ h₄
      · exact wp_sideEffectIdentity hn h.1 h.2

/-- Watched or not, among others or alone: the runs of a call alone are runs among others. -/
theorem Exec.watched_amid {α : Type} {p p' : Program α} {w w' : World ε}
    (h : Exec (handler (binance api)) p w p' w') (sources : List Source) :
    ∃ sources', Exec (amidst api) p (w, sources) p' (w', sources') := by
  induction h generalizing sources with
  | refl p w => exact ⟨sources, .refl _ _⟩
  | step hop _ ih =>
    obtain ⟨sources₁, hop₁⟩ := exists_watched hop sources
    obtain ⟨sources', h'⟩ := ih sources₁
    exact ⟨sources', .step ⟨_, ⟨.refl _, rfl⟩, hop₁⟩ h'⟩

/-! ## 5. The result -/

/-- **A returned record is of the intent exactly when what it was made from names the intent**:
for every API, every response, every ledger and cache to start from, and whatever others do between
any two operations of the call. -/
theorem submit_identifies_iff (api : BinanceApi ε) {self : ExecutionService}
    (hself : self.persistentIntents = true) (a : SubmitArgs) {w : World ε} (hw : w.Keyed)
    {record : OrderRecord} {s' : World ε × List Source}
    (h : Runs ((watched api).amid others) (self.submit a) (w, []) (.ok record) s') :
    Identifies a.intent record ↔ ∀ source ∈ s'.2, source.Names a.intent :=
  h.of_wp (wp_submitIdentity hself ⟨hw, rfl⟩) record rfl

end

/-! ## 6. An echo -/

section Echo

attribute [local instance] asciiStr exactColumn

/-- The numbers of the order below are enough here. -/
abbrev fewNumbers : PyDecimal :=
  ⟨fun text => [("0", 0), ("1", 1), ("100", 100)].lookup text⟩

attribute [local instance] fewNumbers

/-- A new order as the exchange reports it: with the client id it was sent. -/
def echo (params : OrderParams) : OrderResponse where
  symbol := some params.symbol
  status := some "NEW"
  type := some params.type
  side := some params.side
  origQty := some "1"
  price := some "100"
  orderId := some 7
  clientOrderId := some params.newClientOrderId
  executedQty := some (some "0")

/-- An exchange that takes every order and finds none. -/
def echoing : BinanceApi Unit where
  capabilities _ _ cap _ := cap = .ok {}
  post params _ reply _ := reply = .ok (echo params)
  get _ _ reply _ := reply = .error (.other "HTTPStatusError")

def Venue.echoing : Venue Unit where
  submit n e := (submitted n (submitParams n {} >>= fun params => .ok (echo params)), e)
  get _ query e := (queryParams query >>= fun _ => .error (.other "HTTPStatusError"), e)

theorem picks_echoing : Venue.echoing.Picks (binance echoing) where
  submit n e := by
    refine ⟨_, ⟨.ok {}, e, rfl, ?_⟩, rfl⟩
    have hparams : (.ok {} >>= submitParams n) = submitParams n {} := rfl
    rw [hparams]
    cases submitParams n {} with
    | ok params => rfl
    | error exc => exact ⟨rfl, rfl⟩
  get id query e := by
    cases hquery : queryParams query with
    | ok params =>
      refine ⟨.error (.other "HTTPStatusError"), ?_, ?_⟩
      · unfold BinanceApi.LooksUp
        rw [hquery]
        rfl
      · change (queryParams query >>= _) = _
        rw [hquery]
        rfl
    | error exc =>
      refine ⟨.error exc, ?_, ?_⟩
      · unfold BinanceApi.LooksUp
        rw [hquery]
        exact ⟨rfl, rfl⟩
      · change (queryParams query >>= _) = _
        rw [hquery]
        rfl

/-- The outcome of a call over this exchange. -/
def echoed (a : SubmitArgs) : Except Exc OrderRecord × World Unit :=
  ((ExecutionService.process false).submit a).play (cooperate .plain .echoing) (World.empty ())

theorem runs_echoed (a : SubmitArgs) :
    Runs (handler (binance echoing)) ((ExecutionService.process false).submit a) (World.empty ())
      (echoed a).1 (echoed a).2 :=
  runs_play (cooperate_picks picks_echoing .plain) _ _

theorem keyed_empty : (World.empty () : World Unit).Keyed := fun _ _ h => by cases h

/-- An order without a client id of its own. -/
theorem submit_identifies_iff_echoed : ∃ record s',
    Runs ((watched echoing).amid others)
      ((ExecutionService.process false).submit (.limitBuy "i-1")) (World.empty (), [])
      (.ok record) s' ∧
    (Identifies (SubmitArgs.limitBuy "i-1").intent record ↔
      ∀ source ∈ s'.2, source.Names (SubmitArgs.limitBuy "i-1").intent) := by
  have hok : returnedState (echoed (.limitBuy "i-1")).1 = some .ACKNOWLEDGED := by decide +kernel
  obtain ⟨record, hrecord, -⟩ := returnedState_eq_some hok
  have hrun := runs_echoed (.limitBuy "i-1")
  rw [hrecord] at hrun
  obtain ⟨sources, hrun'⟩ := Exec.watched_amid hrun []
  exact ⟨record, _, hrun', submit_identifies_iff echoing rfl _ keyed_empty hrun'⟩

/-- The same order with a client id. -/
def SubmitArgs.withClientId (a : SubmitArgs) (clientId : String) : SubmitArgs :=
  { a with intent := { a.intent with clientOrderId := some clientId } }

/-- **The client id in the place of the intent id.** -/
theorem other_identity : ¬ ∀ [PyStr] [NumericColumn] [PyDecimal] (api : BinanceApi Unit)
    (self : ExecutionService) (a : SubmitArgs) (w w' : World Unit) (record : OrderRecord),
    self.persistentIntents = true → w.Keyed →
      Runs (handler (binance api)) (self.submit a) w (.ok record) w' →
      Identifies a.intent record := by
  intro h
  have hid : (echoed ((SubmitArgs.limitBuy "i-1").withClientId "c-1")).1.toOption.map
      (·.intentId) = some "c-1" := by decide +kernel
  have hrun := runs_echoed ((SubmitArgs.limitBuy "i-1").withClientId "c-1")
  cases hrecord : (echoed ((SubmitArgs.limitBuy "i-1").withClientId "c-1")).1 with
  | error e =>
    rw [hrecord] at hid
    cases hid
  | ok record =>
    rw [hrecord] at hid hrun
    have hnamed : record.intentId = "i-1" :=
      (h echoing _ _ _ _ record rfl keyed_empty hrun).intentId
    have hother : record.intentId = "c-1" := Option.some.inj hid
    rw [hnamed] at hother
    exact absurd hother (by decide)

end Echo

end Kripto.Execution
