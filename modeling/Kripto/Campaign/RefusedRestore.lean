/-
# A restore that is refused

`restore_runtime_state` verifies before it assigns, but it reads and assigns a section field by
field.  What it leaves when it raises is what the fields ahead of the fault were read to.

* `refused_restore_unchanged_iff`: a refused restore leaves the adapter as it was just when every
  field it reads ahead of the fault holds what the adapter has already.
* `refused_restore_changes`: a signed file whose fills are missing leaves its fee in the broker.
-/
import Kripto.Campaign.Operations
import Kripto.Effect.Outcome

namespace Kripto.Campaign.RuntimeState

open Effect Paper Kripto.Stream AdapterRuntime

/-! ## 1. What is read ahead of a fault

Each field is `none` where the fault comes before it. -/

section Reads

variable [PyRuntime] [AdapterRuntime]

def feeRead (paper : Payload) : Option ℚ := (decimalOf (get paper "fee_bps")).toOption

def slippageRead (paper : Payload) : Option ℚ :=
  (feeRead paper).bind fun _ => (decimalOf (get paper "slippage_bps")).toOption

def listsRead (paper : Payload) : Option (List Json × Payload) :=
  (slippageRead paper).bind fun _ => paperLists paper

variable [StateRuntime]

def fillsRead (paper : Payload) : Option (List PaperFill) :=
  (listsRead paper).bind fun s => (readFills s.1).toOption

/-- The positions, if every fill is an object. -/
def positionRows (paper : Payload) : Option Payload :=
  (listsRead paper).bind fun s => (fillsRead paper).bind fun made =>
    if made.length = s.1.length then some s.2 else none

/-- The positions up to the first that cannot be read. -/
def readUntilFault : Table String PaperPosition → Payload → Table String PaperPosition
  | t, [] => t
  | t, (symbol, raw) :: rest =>
    match readPosition raw with
    | .error _ => t
    | .ok position => readUntilFault (t.insert symbol position) rest

def positionsRead (paper : Payload) : Option (Table String PaperPosition) :=
  (positionRows paper).map (readUntilFault ∅)

/-- There is no fault in the section. -/
def PaperReadable (paper : Payload) : Prop :=
  ∃ rows ∈ positionRows paper, ∀ e ∈ rows, ∃ position, readPosition e.2 = .ok position

def sectionsRead (saved : Payload) : Option PrivateSections := (privateSections saved).toOption

def seenTradesRead (saved : Payload) : Option (Finset String) :=
  (sectionsRead saved).map fun s => (s.seenTrades.map Json.text).toFinset

def orderStatesRead (saved : Payload) : Option (Table String String) :=
  (sectionsRead saved).map fun s => tableOf (s.orderStates.map fun e => (e.1, e.2.text))

def orderProgressRead (saved : Payload) : Option (Table String Progress) :=
  (sectionsRead saved).bind fun s => (readTable readProgress s.orderProgress).toOption

/-- The sections, if every item of the order progress has the right shape. -/
def progressWhole (saved : Payload) : Option PrivateSections :=
  (sectionsRead saved).bind fun s => (orderProgressRead saved).bind fun read =>
    if read.keys.length = s.orderProgress.length then some s else none

def balancesRead (saved : Payload) : Option (Table String (ℚ × ℚ)) :=
  (progressWhole saved).bind fun s => (readTable readBalance s.balances).toOption

/-- The sections, if every balance has the right shape as well. -/
def balancesWhole (saved : Payload) : Option PrivateSections :=
  (progressWhole saved).bind fun s => (balancesRead saved).bind fun read =>
    if read.keys.length = s.balances.length then some s else none

def privatePositionsRead (saved : Payload) : Option (Table String ℚ) :=
  (balancesWhole saved).bind fun s => (readTable readQty s.positions).toOption

/-- There is no fault in the section. -/
def PrivateReadable (saved : Payload) : Prop := (privatePositionsRead saved).isSome

end Reads

/-! ## 2. What a restore leaves -/

@[simp] theorem toOption_ok {ε α : Type} (x : α) : (.ok x : Except ε α).toOption = some x := rfl

@[simp] theorem toOption_error {ε α : Type} (e : ε) : (.error e : Except ε α).toOption = none := rfl

section Leaves

variable [PyRuntime] [AdapterRuntime] [StateRuntime]

theorem restorePositions_eq (self : PaperBroker) (rows : Payload) :
    ((restorePositions self rows).1 = .ok () ↔
        ∀ e ∈ rows, ∃ position, readPosition e.2 = .ok position) ∧
      (restorePositions self rows).2 =
        { self with positions := readUntilFault self.positions rows } := by
  induction rows generalizing self with
  | nil => exact ⟨⟨fun _ e he => absurd he List.not_mem_nil, fun _ => rfl⟩, rfl⟩
  | cons entry rest ih =>
    obtain ⟨symbol, raw⟩ := entry
    rw [restorePositions, readUntilFault, List.forall_mem_cons]
    cases hraw : readPosition raw with
    | error e => simp
    | ok position =>
      obtain ⟨hanswer, hleft⟩ :=
        ih { self with positions := self.positions.insert symbol position }
      exact ⟨by simpa using hanswer, hleft⟩

theorem restoreFills_eq (self : PaperBroker) (fills : List Json) (rows : Payload) :
    ((restoreFills self fills rows).1 = .ok () ↔ ∃ made, readFills fills = .ok made ∧
        made.length = fills.length ∧ ∀ e ∈ rows, ∃ position, readPosition e.2 = .ok position) ∧
      (restoreFills self fills rows).2 = { self with
        fills := (readFills fills).toOption.getD self.fills
        positions := ((readFills fills).toOption.bind fun made =>
          if made.length = fills.length then some (readUntilFault ∅ rows) else none).getD
            self.positions } := by
  unfold restoreFills
  cases readFills fills with
  | error e => simp
  | ok made =>
    by_cases hlength : made.length = fills.length
    · obtain ⟨hanswer, hleft⟩ :=
        restorePositions_eq { self with fills := made, positions := ∅ } rows
      simp [hlength, hanswer, hleft]
    · simp [hlength]

theorem restorePaper_eq (self : PaperBroker) (paper : Payload) :
    ((restorePaper self paper).1 = .ok () ↔ PaperReadable paper) ∧
      (restorePaper self paper).2 = { self with
        feeBps := (feeRead paper).getD self.feeBps
        slippageBps := (slippageRead paper).getD self.slippageBps
        fills := (fillsRead paper).getD self.fills
        positions := (positionsRead paper).getD self.positions } := by
  unfold restorePaper PaperReadable positionsRead positionRows fillsRead listsRead slippageRead
    feeRead
  cases decimalOf (get paper "fee_bps") with
  | error e => simp
  | ok feeBps =>
    cases decimalOf (get paper "slippage_bps") with
    | error e => simp
    | ok slippageBps =>
      cases paperLists paper with
      | none => simp
      | some lists =>
        obtain ⟨hanswer, hleft⟩ :=
          restoreFills_eq { self with feeBps, slippageBps } lists.1 lists.2
        simp only [toOption_ok, Option.bind_some]
        refine ⟨hanswer.trans ?_, hleft.trans ?_⟩
        · cases readFills lists.1 with
          | error e => simp
          | ok made => by_cases hlength : made.length = lists.1.length <;> simp [hlength]
        · cases readFills lists.1 with
          | error e => simp
          | ok made => by_cases hlength : made.length = lists.1.length <;> simp [hlength]

omit [StateRuntime] in
theorem restoreBalances_eq (self : PrivateStreamProjector) (balances positions : Payload)
    (terminated : Json) :
    let whole := (readTable readBalance balances).toOption.bind fun read =>
      if read.keys.length = balances.length then (readTable readQty positions).toOption else none
    ((restoreBalances self balances positions terminated).1 = .ok () ↔ whole.isSome) ∧
      (restoreBalances self balances positions terminated).2 = { self with
        balances := (readTable readBalance balances).toOption.getD self.balances
        positions := whole.getD self.positions
        terminated := (whole.map fun _ => truthy terminated).getD self.terminated } := by
  unfold restoreBalances restoreRest
  cases readTable readBalance balances with
  | error e => simp
  | ok read =>
    by_cases hlength : read.keys.length = balances.length
    · cases readTable readQty positions <;> simp [hlength]
    · simp [hlength]

theorem restorePrivate_eq (self : PrivateStreamProjector) (saved : Payload) :
    ((restorePrivate self saved).1 = .ok () ↔ PrivateReadable saved) ∧
      (restorePrivate self saved).2 = { self with
        seenTrades := (seenTradesRead saved).getD self.seenTrades
        orderStates := (orderStatesRead saved).getD self.orderStates
        orderProgress := (orderProgressRead saved).getD self.orderProgress
        balances := (balancesRead saved).getD self.balances
        positions := (privatePositionsRead saved).getD self.positions
        terminated := ((privatePositionsRead saved).map fun _ =>
          truthy (get saved "terminated")).getD self.terminated } := by
  unfold restorePrivate restoreProgress PrivateReadable privatePositionsRead balancesWhole
    balancesRead progressWhole orderProgressRead orderStatesRead seenTradesRead sectionsRead
  cases privateSections saved with
  | error e => simp
  | ok s =>
    simp only [toOption_ok, Option.bind_some, Option.map_some, Option.getD_some]
    cases readTable readProgress s.orderProgress with
    | error e => simp
    | ok read =>
      by_cases hlength : read.keys.length = s.orderProgress.length
      · obtain ⟨hanswer, hleft⟩ := restoreBalances_eq { self with
          seenTrades := (s.seenTrades.map Json.text).toFinset
          orderStates := tableOf (s.orderStates.map fun e => (e.1, e.2.text))
          orderProgress := read } s.balances s.positions (get saved "terminated")
        simp only [hlength, ne_eq, not_true_eq_false, if_true, if_false, toOption_ok,
          Option.bind_some, Option.getD_some]
        refine ⟨hanswer.trans ?_, hleft.trans ?_⟩
        · cases readTable readBalance s.balances with
          | error e => simp
          | ok balances =>
            by_cases hlength : balances.keys.length = s.balances.length <;> simp [hlength]
        · cases readTable readBalance s.balances with
          | error e => simp
          | ok balances =>
            by_cases hlength : balances.keys.length = s.balances.length <;> simp [hlength]
      · simp [hlength]

end Leaves

/-! ## 3. When a refused restore changes nothing -/

section Kept

variable [PyRuntime] [AdapterRuntime] [StateRuntime]

omit [PyRuntime] [AdapterRuntime] [StateRuntime] in
theorem getD_kept {α : Type} {R : α → α → Prop} {old : α} (hrefl : R old old)
    (read : Option α) : R old (read.getD old) ↔ ∀ new ∈ read, R old new := by
  cases read with
  | none => simpa using hrefl
  | some new => simp

/-- What is read of the paper section ahead of a fault is what the broker has. -/
structure PaperKept (broker : PaperBroker) (paper : Payload) : Prop where
  feeBps : ∀ new ∈ feeRead paper, broker.feeBps = new
  slippageBps : ∀ new ∈ slippageRead paper, broker.slippageBps = new
  fills : ∀ new ∈ fillsRead paper, broker.fills = new
  positions : ∀ new ∈ positionsRead paper, broker.positions.Same new

/-- What is read of the private section ahead of a fault is what the projector has. -/
structure PrivateKept (projector : PrivateStreamProjector) (saved : Payload) : Prop where
  seenTrades : ∀ new ∈ seenTradesRead saved, projector.seenTrades = new
  orderStates : ∀ new ∈ orderStatesRead saved, projector.orderStates.Same new
  orderProgress : ∀ new ∈ orderProgressRead saved, projector.orderProgress.Same new
  balances : ∀ new ∈ balancesRead saved, projector.balances.Same new

theorem sameBroker_restorePaper (self : PaperBroker) (paper : Payload) :
    SameBroker self (restorePaper self paper).2 ↔ PaperKept self paper := by
  rw [(restorePaper_eq self paper).2]
  constructor
  · intro h
    exact ⟨(getD_kept rfl _).mp h.feeBps, (getD_kept rfl _).mp h.slippageBps,
      (getD_kept rfl _).mp h.fills, (getD_kept (.refl _) _).mp h.positions⟩
  · intro h
    exact ⟨(getD_kept rfl _).mpr h.feeBps, (getD_kept rfl _).mpr h.slippageBps,
      (getD_kept rfl _).mpr h.fills, (getD_kept (.refl _) _).mpr h.positions⟩

theorem sameProjector_restorePrivate (self : PrivateStreamProjector) (saved : Payload)
    (hfault : ¬ PrivateReadable saved) :
    SameProjector self (restorePrivate self saved).2 ↔ PrivateKept self saved := by
  have hnone : privatePositionsRead saved = none := by
    simpa [PrivateReadable] using hfault
  rw [(restorePrivate_eq self saved).2, hnone]
  constructor
  · intro h
    exact ⟨(getD_kept rfl _).mp h.seenTrades, (getD_kept (.refl _) _).mp h.orderStates,
      (getD_kept (.refl _) _).mp h.orderProgress, (getD_kept (.refl _) _).mp h.balances⟩
  · intro h
    exact ⟨rfl, (getD_kept rfl _).mpr h.seenTrades, (getD_kept (.refl _) _).mpr h.orderStates,
      (getD_kept (.refl _) _).mpr h.orderProgress, (getD_kept (.refl _) _).mpr h.balances,
      .refl _, rfl⟩

/-- There is no fault in either section. -/
def Readable (opened : Opened) : Prop :=
  PaperReadable opened.paper ∧ PrivateReadable opened.privateSection

/-- What is read ahead of the fault is what the adapter has. -/
structure Kept (adapter : ProtectedCampaignRuntimeAdapter) (opened : Opened) : Prop where
  paper : PaperKept adapter.paper opened.paper
  privateSection : PaperReadable opened.paper →
    PrivateKept adapter.projector opened.privateSection

theorem restoreSections_eq (self : ProtectedCampaignRuntimeAdapter) (opened : Opened) :
    ((restoreSections self opened).1 = .ok () ↔ Readable opened) ∧
      (¬ Readable opened →
        (SameAdapter self (restoreSections self opened).2 ↔ Kept self opened)) := by
  obtain ⟨hpaper, -⟩ := restorePaper_eq self.paper opened.paper
  have hbroker := sameBroker_restorePaper self.paper opened.paper
  unfold restoreSections Readable
  generalize restorePaper self.paper opened.paper = restored at hpaper hbroker ⊢
  obtain ⟨answer, paper⟩ := restored
  cases answer with
  | error e =>
    -- a fault of the paper section: the private one is not read
    have hfault : ¬ PaperReadable opened.paper := by simpa using hpaper
    refine ⟨by simp [hfault], fun _ => ⟨fun h => ⟨hbroker.mp h.paper, fun hread => ?_⟩,
      fun h => ⟨rfl, (SameAdapter.refl self).projector, hbroker.mpr h.paper, rfl⟩⟩⟩
    exact absurd hread hfault
  | ok =>
    have hread : PaperReadable opened.paper := hpaper.mp rfl
    obtain ⟨hprivate, -⟩ := restorePrivate_eq self.projector opened.privateSection
    have hprojector := sameProjector_restorePrivate self.projector opened.privateSection
    generalize restorePrivate self.projector opened.privateSection = restored
      at hprivate hprojector ⊢
    obtain ⟨answer, projector⟩ := restored
    cases answer with
    | error e =>
      have hfault : ¬ PrivateReadable opened.privateSection := by simpa using hprivate
      refine ⟨by simp [hfault], fun _ => ⟨fun h => ⟨hbroker.mp h.paper, fun _ => ?_⟩, fun h => ?_⟩⟩
      · exact (hprojector hfault).mp h.projector
      · exact ⟨rfl, (hprojector hfault).mpr (h.privateSection hread), hbroker.mpr h.paper, rfl⟩
    | ok =>
      have hwhole : PrivateReadable opened.privateSection := hprivate.mp rfl
      exact ⟨by simp [hread, hwhole], fun hfault => absurd ⟨hread, hwhole⟩ hfault⟩

variable [CollectionEncoding]

/-- The state in a file, if it is verified. -/
def openFile (file : StateFile) (b : Bindings) (current : Option String) : Option Opened :=
  match file with
  | .json loaded => (openState loaded b current).toOption
  | _ => none

theorem restoreRuntimeState_eq (self : ProtectedCampaignRuntimeAdapter) {file : StateFile}
    {b : Bindings} {current : Option String} {opened : Opened}
    (h : openFile file b current = some opened) :
    restoreRuntimeState self file b current =
      ((restoreSections self opened).1.map fun _ => some opened.payload,
        (restoreSections self opened).2) := by
  cases file with
  | json loaded =>
    unfold openFile at h
    unfold restoreRuntimeState
    dsimp only at h ⊢
    cases hopened : openState loaded b current with
    | error e => simp [hopened] at h
    | ok read =>
      rw [hopened, toOption_ok, Option.some.injEq] at h
      rw [h]
  | _ => simp [openFile] at h

theorem restoreRuntimeState_left (self : ProtectedCampaignRuntimeAdapter) {file : StateFile}
    {b : Bindings} {current : Option String} (h : openFile file b current = none) :
    (restoreRuntimeState self file b current).2 = self := by
  cases file with
  | json loaded =>
    unfold openFile at h
    unfold restoreRuntimeState
    dsimp only at h ⊢
    cases hopened : openState loaded b current with
    | error e => rfl
    | ok read => simp [hopened] at h
  | _ => rfl

/-- **A refused restore changes nothing** just when all it reads ahead of the fault is there
already. -/
theorem refused_restore_unchanged_iff (self : ProtectedCampaignRuntimeAdapter) (file : StateFile)
    (b : Bindings) (current : Option String) :
    (∀ e, (restoreRuntimeState self file b current).1 = .error e →
        SameAdapter self (restoreRuntimeState self file b current).2) ↔
      ∀ opened ∈ openFile file b current, ¬ Readable opened → Kept self opened := by
  cases hopened : openFile file b current with
  | none =>
    rw [restoreRuntimeState_left self hopened]
    simp [SameAdapter.refl]
  | some opened =>
    rw [restoreRuntimeState_eq self hopened]
    obtain ⟨hanswer, hleft⟩ := restoreSections_eq self opened
    generalize restoreSections self opened = restored at hanswer hleft ⊢
    obtain ⟨answer, left⟩ := restored
    cases answer with
    | error e =>
      have hfault : ¬ Readable opened := by simpa using hanswer
      simp [hfault, hleft hfault, Except.map]
    | ok =>
      have hread : Readable opened := hanswer.mp rfl
      simp [hread, Except.map]

end Kept

/-! ## 4. A restore that does not -/

section Example

attribute [local instance] plainRuntime strokeEncoding fractionRuntime plainStatistics
  plainStateRuntime

/-- A new adapter. -/
def newAdapter : ProtectedCampaignRuntimeAdapter where
  telemetryKey := campaignBindings.telemetryKey

/-- Its state with another paper section, signed. -/
def signedState (paper : Payload) : Payload :=
  let payload := (unsignedState newAdapter campaignBindings campaignBindings.topologyHash 0).map
    fun e => if e.1 = "paper" then ("paper", Json.obj paper) else e
  payload ++ [("attestation", .obj (attestation campaignBindings.telemetryKey payload))]

/-- A paper section without its fills. -/
def noFills : Payload :=
  [("fee_bps", .str "0"), ("slippage_bps", .str "0"), ("positions", .obj [])]

/-- **A refused restore can change the fee**: it is assigned before the fills are looked for. -/
theorem refused_restore_changes :
    (restoreRuntimeState newAdapter (writtenState (signedState noFills)) campaignBindings none).1 =
        .error (.valueError "Phase266 paper runtime-state is invalid") ∧
      ¬ SameAdapter newAdapter (restoreRuntimeState newAdapter (writtenState (signedState noFills))
        campaignBindings none).2 := by
  refine ⟨rfl, fun h => ?_⟩
  have hfee : (restoreRuntimeState newAdapter (writtenState (signedState noFills))
      campaignBindings none).2.paper.feeBps = 0 := by decide
  have hbefore := h.paper.feeBps
  rw [hfee] at hbefore
  exact absurd hbefore (by decide)

end Example

end Kripto.Campaign.RuntimeState
