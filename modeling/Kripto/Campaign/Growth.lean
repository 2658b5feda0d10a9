/-
# Two collections that differ by audit records

`Alike K ys file file'`: both files grew from one by the same appends, except that `file` also got
records for the audit-only entries `ys`.  To a reader whose clock is not behind those entries

* both load or both fail, with the same exception (`loadCollection_alike`), and what it reads of
  the rows is the same unless it reads a record of one of `ys` (`RowsAlike.filterMap_eq`);
* an append to both succeeds or fails alike and keeps them alike (`append_alike`).

`K` holds the keys in use; their digests tell them apart.
-/
import Kripto.Campaign.Entry
import Mathlib.Data.List.Basic

namespace Kripto.Campaign

open Effect CollectionEncoding Entry

variable [PyRuntime] [CollectionEncoding]

/-! ## 1. Growing -/

/-- `r` is what appending `e` to the file writes. -/
def Extends (file : File) (e : Entry) (r : Payload) : Prop :=
  e.Sound ∧ ∃ telemetryKey rows,
    loadCollection file telemetryKey e.recordedAt = .ok rows ∧ e.Follows rows r

inductive Alike (K : Set String) : List Entry → File → File → Prop
  | same (file : File) : Alike K [] file file
  | shared {ys : List Entry} {file file' : File} {e : Entry} {r r' : Payload}
      (h : Alike K ys file file') (hkey : ∀ key ∈ e.key, key ∈ K) (hr : Extends file e r)
      (hr' : Extends file' e r') : Alike K ys (file ++ [.record r]) (file' ++ [.record r'])
  | audit {ys : List Entry} {file file' : File} {e : Entry} {r : Payload}
      (h : Alike K ys file file') (hnone : e.key = none) (hr : Extends file e r) :
      Alike K (ys ++ [e]) (file ++ [.record r]) file'

/-- The rows two such files are loaded to. -/
inductive RowsAlike : List Entry → List LoadedRow → List LoadedRow → Prop
  | same (rows : List LoadedRow) : RowsAlike [] rows rows
  | shared {ys : List Entry} {rows rows' : List LoadedRow} {e : Entry} {r r' : Payload}
      (h : RowsAlike ys rows rows') (hr : e.Describes r) (hr' : e.Describes r')
      (verified : Bool) : RowsAlike ys (rows ++ [⟨r, verified⟩]) (rows' ++ [⟨r', verified⟩])
  | audit {ys : List Entry} {rows rows' : List LoadedRow} {e : Entry} {r : Payload}
      (h : RowsAlike ys rows rows') (hnone : e.key = none) (hr : e.Describes r) :
      RowsAlike (ys ++ [e]) (rows ++ [⟨r, false⟩]) rows'

variable {K : Set String} {ys : List Entry} {file file' : File} {rows rows' : List LoadedRow}
  {e : Entry} {r record : Payload} {telemetryKey : Option String} {now : ℤ}

/-- What is read of a row is about its entry, and nothing is read of those of `ys`. -/
structure Blind {α : Type} (ys : List Entry) (view : LoadedRow → Option α) : Prop where
  entry : ∀ {e : Entry} {r r' : Payload} (verified : Bool), e.Describes r → e.Describes r' →
    view ⟨r, verified⟩ = view ⟨r', verified⟩
  audit : ∀ e ∈ ys, ∀ r, e.key = none → e.Describes r → view ⟨r, false⟩ = none

omit [PyRuntime] in
theorem RowsAlike.filterMap_eq {α : Type} {view : LoadedRow → Option α}
    (h : RowsAlike ys rows rows') (hview : Blind ys view) :
    rows.filterMap view = rows'.filterMap view := by
  induction h with
  | same rows => rfl
  | shared h hr hr' verified ih =>
    simp only [List.filterMap_append, List.filterMap_cons, List.filterMap_nil, ih hview,
      hview.entry verified hr hr']
  | @audit ys rows rows' e r h hnone hr ih =>
    have hold : Blind ys view :=
      ⟨hview.entry, fun e he => hview.audit e (List.mem_append_left _ he)⟩
    have hnothing := hview.audit e (by simp) r hnone hr
    simp [ih hold, hnothing]

/-! ## 2. Loading -/

theorem loadCollection_eq_ok {expected : Expected}
    (h : loadCollection file telemetryKey now expected = .ok rows) :
    ∃ st, loadRows telemetryKey now file = .ok st ∧ st.rows = rows := by
  simp only [loadCollection, bind_eq_ok_iff, pure_eq_ok, Except.ok.injEq] at h
  obtain ⟨st, hst, _, -, rfl⟩ := h
  exact ⟨st, hst, rfl⟩

theorem loadRows_append (line : Line) :
    loadRows telemetryKey now (file ++ [line]) =
      loadRows telemetryKey now file >>= fun st => loadRow telemetryKey now st line := by
  simp [loadRows, List.foldlM_append]

/-- A file is loaded to its records. -/
theorem Loading.Of.records_eq {st st' : Loading} (h : st.Of file) (h' : st'.Of file) :
    st.rows.map LoadedRow.record = st'.rows.map LoadedRow.record := by
  have hinj : Function.Injective Line.record := fun r r' heq => by simpa using heq
  exact List.map_injective_iff.mpr hinj (h.file.symm.trans h'.file)

/-- The loop's clock is not ahead of an entry that was appended to the file. -/
theorem Loading.Of.clock_le {st : Loading} (hst : st.Of file) (hr : Extends file e r) :
    ∀ t ∈ st.previousRecordedAt, t ≤ e.recordedAt := by
  obtain ⟨-, telemetryKey, rows, hload, hfollows⟩ := hr
  obtain ⟨st', hst', rfl⟩ := loadCollection_eq_ok hload
  obtain ⟨header, last, t, hends, -, -, ht, hle⟩ := hfollows.place
  rw [endsOf_congr ((loading_of_loadRows hst').records_eq hst)] at hends
  obtain ⟨-, -, -, t', ht', hlast⟩ := hst.ends hends
  obtain rfl : t = t' := by simpa [ht] using ht'
  simpa [hlast] using hle

/-- Loading the record of an entry, wherever it was appended. -/
theorem loadRow_extends {st : Loading} (hst : st.Of file) (hr : Extends file e r)
    (hdistinct : e.Distinct telemetryKey) :
    loadRow telemetryKey now st (.record r) = e.admitted telemetryKey now >>= fun verified =>
      .ok ⟨st.rows ++ [⟨r, verified⟩], recordHash r, some e.recordedAt, st.headerBinding⟩ := by
  obtain ⟨hsound, telemetryKey', rows, hload, hfollows⟩ := hr
  obtain ⟨st', hst', rfl⟩ := loadCollection_eq_ok hload
  exact loadRow_follows hst ((loading_of_loadRows hst').records_eq hst) hfollows hsound hdistinct

omit [PyRuntime] [CollectionEncoding] in
theorem skew_nonneg : 0 ≤ MAX_FUTURE_SKEW := by decide

omit [CollectionEncoding] in
/-- An audit record is taken by every loader whose clock is not behind it. -/
theorem admitted_audit (hs : e.Sound) (hnone : e.key = none) (hnow : e.recordedAt ≤ now) :
    e.admitted telemetryKey now = .ok false := by
  have hskew := skew_nonneg
  have hobserved := hs.observedAt
  have hrecorded : ¬ now + MAX_FUTURE_SKEW < e.recordedAt := by omega
  have hseen : ¬ now + MAX_FUTURE_SKEW < e.observedAt := by omega
  simp [admitted, provenance, hnone, raiseIf_false hrecorded, raiseIf_false hseen]

/-- The loops have been through two such files. -/
structure Loading.Alike (ys : List Entry) (now : ℤ) (st st' : Loading) : Prop where
  headerBinding : st.headerBinding = st'.headerBinding
  clock : (∀ t ∈ st.previousRecordedAt, t ≤ now) ↔ ∀ t ∈ st'.previousRecordedAt, t ≤ now
  rows : RowsAlike ys st.rows st'.rows

/-- **Both files load, or neither does.** -/
theorem loadRows_alike (hK : K.InjOn keyDigest) (h : Alike K ys file file')
    (hkey : ∀ key ∈ telemetryKey, key ∈ K) (hnow : ∀ e ∈ ys, e.recordedAt ≤ now) :
    Agree (Loading.Alike ys now) (loadRows telemetryKey now file)
      (loadRows telemetryKey now file') := by
  induction h with
  | same file => exact Agree.refl _ fun st _ => ⟨rfl, Iff.rfl, .same _⟩
  | @shared ys file file' e r r' h hkeys hr hr' ih =>
    have hdistinct : e.Distinct telemetryKey :=
      fun key he key' hl heq => hK (hkeys key he) (hkey key' hl) heq
    rw [loadRows_append, loadRows_append]
    refine (ih hnow).bind fun st st' hst hst' halike => ?_
    rw [loadRow_extends (loading_of_loadRows hst) hr hdistinct,
      loadRow_extends (loading_of_loadRows hst') hr' hdistinct]
    refine Agree.bind_same fun verified _ => .ok ⟨halike.headerBinding, by simp, ?_⟩
    obtain ⟨-, _, _, -, hfollows⟩ := hr
    obtain ⟨-, _, _, -, hfollows'⟩ := hr'
    exact halike.rows.shared hfollows.toDescribes hfollows'.toDescribes verified
  | @audit ys file file' e r h hnone hr ih =>
    have hdistinct : e.Distinct telemetryKey := by simp [Distinct, hnone]
    have hrecorded : e.recordedAt ≤ now := hnow e (by simp)
    have hold : ∀ y ∈ ys, y.recordedAt ≤ now := fun y hy => hnow y (by simp [hy])
    rw [loadRows_append, ← bind_ok (loadRows telemetryKey now file')]
    refine (ih hold).bind fun st st' hst hst' halike => ?_
    rw [loadRow_extends (loading_of_loadRows hst) hr hdistinct,
      admitted_audit hr.1 hnone hrecorded]
    have hclock := (loading_of_loadRows hst).clock_le hr
    obtain ⟨-, _, _, -, hfollows⟩ := hr
    refine .ok ⟨halike.headerBinding, ?_, halike.rows.audit hnone hfollows.toDescribes⟩
    have hbefore : ∀ t ∈ st.previousRecordedAt, t ≤ now :=
      fun t ht => (hclock t ht).trans hrecorded
    exact ⟨fun _ => halike.clock.mp hbefore, fun _ => by simp [hrecorded]⟩

/-- What loading both files returns. -/
def LoadedAlike (ys : List Entry) (now : ℤ) (file file' : File) (rows rows' : List LoadedRow) :
    Prop :=
  ∃ st st' : Loading, st.Of file ∧ st'.Of file' ∧ Loading.Alike ys now st st' ∧
    st.headerBinding.isSome = true ∧ st.rows = rows ∧ st'.rows = rows'

theorem LoadedAlike.rowsAlike (h : LoadedAlike ys now file file' rows rows') :
    RowsAlike ys rows rows' := by
  obtain ⟨st, st', -, -, halike, -, rfl, rfl⟩ := h
  exact halike.rows

theorem loadCollection_alike (expected : Expected) (hK : K.InjOn keyDigest)
    (h : Alike K ys file file') (hkey : ∀ key ∈ telemetryKey, key ∈ K)
    (hnow : ∀ e ∈ ys, e.recordedAt ≤ now) :
    Agree (LoadedAlike ys now file file') (loadCollection file telemetryKey now expected)
      (loadCollection file' telemetryKey now expected) := by
  unfold loadCollection
  refine (loadRows_alike hK h hkey hnow).bind fun st st' hst hst' halike => ?_
  rw [← halike.headerBinding]
  refine Agree.bind_same fun _ hbinding => .ok ⟨st, st', loading_of_loadRows hst,
    loading_of_loadRows hst', halike, ?_, rfl, rfl⟩
  cases hheader : st.headerBinding with
  | none => simp [hheader, checkBinding] at hbinding
  | some binding => rfl

/-! ## 3. Appending -/

omit [PyRuntime] [CollectionEncoding] in
theorem item_congr {row row' : Payload} {name : String} (h : row.lookup name = row'.lookup name) :
    item row name = item row' name := by simp [item, h]

omit [PyRuntime] in
theorem finish_agree (record record' : Payload) :
    Agree (fun _ _ => True) (e.finish record) (e.finish record') := by
  unfold finish
  cases e.key with
  | none => exact .ok trivial
  | some key =>
    simp only [attest, bind_assoc, pure_eq_ok, ok_bind]
    exact Agree.bind_same fun _ _ => .ok trivial

/-- **An entry can be recorded after both, or after neither.** -/
theorem recordAfter_agree (h : LoadedAlike ys e.recordedAt file file' rows rows') :
    Agree (fun _ _ => True) (e.recordAfter rows) (e.recordAfter rows') := by
  obtain ⟨st, st', hst, hst', halike, hsome, rfl, rfl⟩ := h
  obtain ⟨binding, hbinding⟩ := Option.isSome_iff_exists.mp hsome
  obtain ⟨header, last, hends⟩ := hst.endsOf_eq_ok hbinding
  obtain ⟨header', last', hends'⟩ := hst'.endsOf_eq_ok (halike.headerBinding ▸ hbinding)
  obtain ⟨-, hheader, hhash, t, ht, htime⟩ := hst.ends hends
  obtain ⟨-, hheader', hhash', t', ht', htime'⟩ := hst'.ends hends'
  obtain ⟨v, hv⟩ := exists_of_parseTime ht
  obtain ⟨v', hv'⟩ := exists_of_parseTime ht'
  have hsame : bindingOf header = bindingOf header' := by
    have := halike.headerBinding
    rw [hheader, hheader', Option.some.injEq] at this
    exact this
  have hclock : e.recordedAt < t ↔ e.recordedAt < t' := by
    have := halike.clock
    simp only [htime, htime', Option.mem_def, Option.some.injEq, forall_eq'] at this
    omega
  rw [hv] at ht
  rw [hv'] at ht'
  have hcandidate := item_congr (congrArg Binding.candidateSha hsame)
  have henvironment := item_congr (congrArg Binding.acceptanceEnvironmentIdHash hsame)
  have htopology := item_congr (congrArg Binding.topologyHash hsame)
  simp only [recordAfter, baseEventRecord, bind_assoc, hends, hends', item_eq_ok_iff.mpr hv,
    item_eq_ok_iff.mpr hv', item_eq_ok_iff.mpr hhash, item_eq_ok_iff.mpr hhash', ht, ht', ok_bind,
    hcandidate, henvironment, htopology, pure_eq_ok]
  refine Agree.bind_same fun _ _ => Agree.bind_same fun _ _ => Agree.bind_same fun _ _ => ?_
  by_cases hbehind : e.recordedAt < t
  · rw [raiseIf_true hbehind, raiseIf_true (hclock.mp hbehind)]
    exact .error _
  · rw [raiseIf_false hbehind, raiseIf_false fun h => hbehind (hclock.mpr h)]
    exact Agree.bind_same fun _ _ => Agree.bind_same fun _ _ => Agree.bind_same fun _ _ =>
      Agree.bind_same fun _ _ => finish_agree _ _

theorem append_extends {file₂ : File} (hproducer : e.key = none → e.producer = UNATTESTED_PRODUCER)
    (h : e.append file telemetryKey = (.ok r, file₂)) :
    Extends file e r ∧ file₂ = file ++ [.record r] := by
  unfold append persistEvent at h
  split at h
  · rename_i record hrecord
    cases h
    simp only [bind_eq_ok_iff] at hrecord
    obtain ⟨_, hpre, rows, hload, hafter⟩ := hrecord
    obtain ⟨hfollows, hsound⟩ := follows_of_recordAfter hafter hpre hproducer
    exact ⟨⟨hsound, telemetryKey, rows, hload, hfollows⟩, rfl⟩
  · cases h

theorem append_error {file₂ : File} {exc : Exc}
    (h : e.append file telemetryKey = (.error exc, file₂)) : file₂ = file := by
  unfold append persistEvent at h
  split at h
  · cases h
  · cases h
    rfl

omit [PyRuntime] in
theorem persistEvent_agree {x x' : Except Exc Payload} (h : Agree (fun _ _ => True) x x') :
    Agree (fun _ _ => True) (persistEvent file x).1 (persistEvent file' x').1 := by
  cases h with
  | ok => exact .ok trivial
  | error e => exact .error e

/-- **Appending to both** succeeds or fails alike, and they stay alike. -/
theorem append_alike (hK : K.InjOn keyDigest) (h : Alike K ys file file')
    (hkey : ∀ key ∈ telemetryKey, key ∈ K) (hkeys : ∀ key ∈ e.key, key ∈ K)
    (hproducer : e.key = none → e.producer = UNATTESTED_PRODUCER)
    (hnow : ∀ y ∈ ys, y.recordedAt ≤ e.recordedAt) :
    Agree (fun _ _ => True) (e.append file telemetryKey).1 (e.append file' telemetryKey).1 ∧
      Alike K ys (e.append file telemetryKey).2 (e.append file' telemetryKey).2 := by
  have hagree : Agree (fun _ _ => True)
      (e.precheck >>= fun _ => loadCollection file telemetryKey e.recordedAt >>= e.recordAfter)
      (e.precheck >>= fun _ => loadCollection file' telemetryKey e.recordedAt >>= e.recordAfter) :=
    Agree.bind_same fun _ _ =>
      (loadCollection_alike {} hK h hkey hnow).bind fun _ _ _ _ => recordAfter_agree
  have hsame : Agree (fun _ _ => True) (e.append file telemetryKey).1
      (e.append file' telemetryKey).1 := persistEvent_agree hagree
  refine ⟨hsame, ?_⟩
  rcases happ : e.append file telemetryKey with ⟨exc | r, left⟩ <;>
    rcases happ' : e.append file' telemetryKey with ⟨exc' | r', left'⟩ <;>
    rw [happ, happ'] at hsame <;> cases hsame
  · rw [append_error happ, append_error happ']
    exact h
  · obtain ⟨hr, rfl⟩ := append_extends hproducer happ
    obtain ⟨hr', rfl⟩ := append_extends hproducer happ'
    exact h.shared hkeys hr hr'

/-- An append to the one file only, for an audit. -/
theorem append_audit (telemetryKey : Option String) (h : Alike K ys file file')
    (hnone : e.key = none) (hproducer : e.producer = UNATTESTED_PRODUCER) :
    (∃ exc, e.append file telemetryKey = (.error exc, file)) ∨
      ∃ r left, e.append file telemetryKey = (.ok r, left) ∧ Alike K (ys ++ [e]) left file' := by
  rcases happ : e.append file telemetryKey with ⟨exc | r, left⟩
  · exact .inl ⟨exc, by rw [append_error happ]⟩
  · obtain ⟨hr, rfl⟩ := append_extends (fun _ => hproducer) happ
    exact .inr ⟨r, _, rfl, h.audit hnone hr⟩

end Kripto.Campaign
