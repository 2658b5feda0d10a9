/-
# Attested appends in a row

Once an entry has been recorded, the next one is recorded just when it is sound and the clock has
not gone back (`recorded_next_iff`): the file still loads, and the record just written is in its
place.  So of several emissions with one key and one observation, those after the first depend on
the clock and on themselves only (`play_emitAll`).
-/
import Kripto.Campaign.Growth
import Kripto.Campaign.Adapter

namespace Kripto.Campaign

open Effect CollectionEncoding Entry

variable [PyRuntime] [CollectionEncoding]

/-! ## 1. A later load -/

section Later

variable {telemetryKey : Option String} {now now' : ℤ} {st st' : Loading} {row : Payload}
  {line : Line} {file : File} {rows : List LoadedRow} {t : ℤ}

omit [PyRuntime] [CollectionEncoding] in
theorem raiseIf_mono {c c' : Prop} [Decidable c] [Decidable c'] {e : Exc} (himp : c' → c)
    (h : raiseIf c e = .ok ()) : raiseIf c' e = .ok () := by
  rw [raiseIf_eq_ok_iff] at h ⊢
  exact fun hc' => h (himp hc')

theorem checkChain_later (hle : now ≤ now') (h : checkChain now st row = .ok t) :
    checkChain now' st row = .ok t := by
  simp only [checkChain, bind_eq_ok_iff] at h ⊢
  obtain ⟨_, hschema, _, hchain, _, hhash, t', ht', _, hfuture, hrest⟩ := h
  exact ⟨_, hschema, _, hchain, _, hhash, t', ht', _, raiseIf_mono (by omega) hfuture, hrest⟩

theorem checkEvent_later {binding : Option Binding} {verified : Bool} (hle : now ≤ now')
    (h : checkEvent telemetryKey now binding t row = .ok verified) :
    checkEvent telemetryKey now' binding t row = .ok verified := by
  simp only [checkEvent, bind_eq_ok_iff] at h ⊢
  obtain ⟨_, hbinding, _, hkind, payload, hpayload, _, hvalid, observedAt, hobserved, _, hfuture,
    hrest⟩ := h
  exact ⟨_, hbinding, _, hkind, payload, hpayload, _, hvalid, observedAt, hobserved, _,
    raiseIf_mono (by omega) hfuture, hrest⟩

theorem loadRow_later (hle : now ≤ now') (h : loadRow telemetryKey now st line = .ok st') :
    loadRow telemetryKey now' st line = .ok st' := by
  simp only [loadRow, bind_eq_ok_iff] at h ⊢
  obtain ⟨row, hrow, t, hchain, hnext⟩ := h
  refine ⟨row, hrow, t, checkChain_later hle hchain, ?_⟩
  by_cases hempty : st.rows = []
  · rwa [if_pos hempty] at hnext ⊢
  · rw [if_neg hempty, bind_eq_ok_iff] at hnext ⊢
    obtain ⟨verified, hevent, hst⟩ := hnext
    exact ⟨verified, checkEvent_later hle hevent, hst⟩

/-- **A file that loads** loads to the same at a later time. -/
theorem loadCollection_later {expected : Expected} (hle : now ≤ now')
    (h : loadCollection file telemetryKey now expected = .ok rows) :
    loadCollection file telemetryKey now' expected = .ok rows := by
  have hrows : ∀ {st st' : Loading}, file.foldlM (loadRow telemetryKey now) st = .ok st' →
      file.foldlM (loadRow telemetryKey now') st = .ok st' := by
    clear h
    induction file with
    | nil => exact fun h => h
    | cons line rest ih =>
      intro st st' h
      simp only [List.foldlM_cons, bind_eq_ok_iff] at h ⊢
      obtain ⟨mid, hline, hrest⟩ := h
      exact ⟨mid, loadRow_later hle hline, ih hrest⟩
  simp only [loadCollection, bind_eq_ok_iff] at h ⊢
  obtain ⟨st, hst, hbinding⟩ := h
  exact ⟨st, hrows hst, hbinding⟩

end Later

/-! ## 2. One entry after another -/

/-- The entry is recorded: the file loads with its key, and takes it. -/
def Recorded (file : File) (e : Entry) : Prop := ∃ r left, e.append file e.key = (.ok r, left)

/-- The entry can be recorded right after this one. -/
def Succeeds (e next : Entry) : Prop := next.Sound ∧ e.recordedAt ≤ next.recordedAt

variable {file left : File} {e next : Entry} {r record : Payload} {rows : List LoadedRow}
  {telemetryKey : Option String} {key : String}

theorem append_eq_ok_iff :
    e.append file telemetryKey = (.ok r, left) ↔ ∃ rows record, e.precheck = .ok () ∧
      loadCollection file telemetryKey e.recordedAt = .ok rows ∧
      e.recordAfter rows = .ok record ∧ hashed record = r ∧ file ++ [.record r] = left := by
  constructor
  · intro h
    unfold append persistEvent at h
    split at h
    · rename_i record hrecord
      cases h
      simp only [bind_eq_ok_iff] at hrecord
      obtain ⟨_, hpre, rows, hload, hafter⟩ := hrecord
      exact ⟨rows, record, hpre, hload, hafter, rfl, rfl⟩
    · cases h
  · rintro ⟨rows, record, hpre, hload, hafter, rfl, rfl⟩
    simp only [append, hpre, hload, hafter, ok_bind]
    rfl

/-- **What an append needs** of the rows: they can be read from, and the entry is sound and not
before the last. -/
theorem recordAfter_of_sound {header last : Payload} {t : ℤ}
    {v hash candidate environment topology : Json}
    (hs : e.Sound) (hends : endsOf rows = .ok (header, last))
    (hv : last.lookup "recorded_at" = some v) (ht : parseTime (some v) = .ok t)
    (hle : t ≤ e.recordedAt) (hhash : last.lookup "record_sha256" = some hash)
    (hcandidate : header.lookup "candidate_sha" = some candidate)
    (henvironment : header.lookup "acceptance_environment_id_hash" = some environment)
    (htopology : header.lookup "topology_hash" = some topology) :
    ∃ record, e.recordAfter rows = .ok record := by
  have hclock : ¬ e.recordedAt < t := not_lt.mpr hle
  have hobserved : ¬ e.recordedAt + MAX_FUTURE_SKEW < e.observedAt := not_lt.mpr hs.observedAt
  simp only [recordAfter, baseEventRecord, raiseIf_false hs.kind, hs.payload,
    raiseIf_false hobserved, hends, item_eq_ok_iff.mpr hv, ht, raiseIf_false hclock,
    item_eq_ok_iff.mpr hhash, item_eq_ok_iff.mpr hcandidate, item_eq_ok_iff.mpr henvironment,
    item_eq_ok_iff.mpr htopology, ok_bind, pure_eq_ok]
  unfold finish
  cases hkey : e.key with
  | none => exact ⟨_, rfl⟩
  | some key =>
    have hsize : ¬ key.utf8ByteSize < 32 := not_lt.mpr (hs.keySize key hkey)
    simp only [attest, checkAttestationKey, raiseIf_false hsize, ok_bind, pure_eq_ok]
    exact ⟨_, rfl⟩

omit [CollectionEncoding] in
/-- A loader with its key takes an entry once its time has come. -/
theorem admitted_attested {now : ℤ} (hs : e.Sound) (hkey : e.key = some key)
    (hle : e.recordedAt ≤ now) : e.admitted (some key) now = .ok true := by
  have hskew := skew_nonneg
  have hobserved := hs.observedAt
  have hrecorded : ¬ now + MAX_FUTURE_SKEW < e.recordedAt := by omega
  have hseen : ¬ now + MAX_FUTURE_SKEW < e.observedAt := by omega
  have hsize : ¬ key.utf8ByteSize < 32 := not_lt.mpr (hs.keySize key hkey)
  have hsame : ¬ key ≠ key := not_not.mpr rfl
  simp only [admitted, provenance, hkey, checkAttestationKey, raiseIf_false hrecorded,
    raiseIf_false hseen, raiseIf_false hsize, raiseIf_false hsame, ok_bind, pure_eq_ok]

/-- What an attested append leaves loads, from then on. -/
theorem load_appended {now : ℤ} (hkey : e.key = some key)
    (h : e.append file (some key) = (.ok r, left)) (hle : e.recordedAt ≤ now) :
    ∃ rows record, e.recordAfter rows = .ok record ∧ hashed record = r ∧
      loadCollection left (some key) now = .ok (rows ++ [⟨r, true⟩]) := by
  obtain ⟨hextends, -⟩ := append_extends (by simp [hkey]) h
  obtain ⟨rows, record, -, hload, hafter, rfl, rfl⟩ := append_eq_ok_iff.mp h
  have hlater := loadCollection_later hle hload
  simp only [loadCollection, bind_eq_ok_iff, pure_eq_ok, Except.ok.injEq] at hlater
  obtain ⟨st, hst, _, hbinding, rfl⟩ := hlater
  have hdistinct : e.Distinct (some key) := by simp [Distinct, hkey]
  refine ⟨st.rows, record, hafter, rfl, ?_⟩
  simp only [loadCollection, loadRows_append, hst, ok_bind,
    loadRow_extends (loading_of_loadRows hst) hextends hdistinct,
    admitted_attested hextends.1 hkey hle, hbinding, pure_eq_ok]

omit [PyRuntime] [CollectionEncoding] in
theorem endsOf_append {header last : Payload} (row : LoadedRow)
    (h : endsOf rows = .ok (header, last)) :
    endsOf (rows ++ [row]) = .ok (header, row.record) := by
  unfold endsOf at h
  split at h
  · rename_i first final hfirst hfinal
    cases h
    simp [endsOf, List.head?_append, hfirst]
  · cases h

/-- **The next entry** is recorded just when it is sound and the clock has not gone back. -/
theorem recorded_next_iff (hkey : e.key = some key) (hnext : next.key = some key)
    (h : e.append file (some key) = (.ok r, left)) : Recorded left next ↔ Succeeds e next := by
  constructor
  · rintro ⟨r', left', happend⟩
    rw [hnext] at happend
    obtain ⟨rows, record, hpre, hload, hafter, -, -⟩ := append_eq_ok_iff.mp happend
    obtain ⟨hfollows, hsound⟩ := follows_of_recordAfter hafter hpre (by simp [hnext])
    obtain ⟨header, last, t, hends, -, -, ht, hle⟩ := hfollows.place
    obtain ⟨st, hst, rfl⟩ := loadCollection_eq_ok hload
    obtain ⟨-, -, -, t', ht', hlast⟩ := (loading_of_loadRows hst).ends hends
    -- the loop's clock is that of the record just written
    obtain ⟨hextends, rfl⟩ := append_extends (by simp [hkey]) h
    have hdistinct : e.Distinct (some key) := by simp [Distinct, hkey]
    rw [loadRows_append, bind_eq_ok_iff] at hst
    obtain ⟨before, hbefore, hrow⟩ := hst
    rw [loadRow_extends (loading_of_loadRows hbefore) hextends hdistinct, bind_eq_ok_iff] at hrow
    obtain ⟨verified, -, hst⟩ := hrow
    rw [Except.ok.injEq] at hst
    rw [← hst, Option.some.injEq] at hlast
    rw [ht, Except.ok.injEq] at ht'
    exact ⟨hsound, hlast.trans (ht'.symm) ▸ hle⟩
  · rintro ⟨hsound, hle⟩
    obtain ⟨⟨hsound', _, _, _, hfollows⟩, -⟩ := append_extends (by simp [hkey]) h
    obtain ⟨rows, record, hafter, rfl, hload⟩ := load_appended hkey h hle
    simp only [recordAfter, baseEventRecord, bind_assoc, bind_eq_ok_iff, raiseIf_eq_ok_iff,
      item_eq_ok_iff, pure_eq_ok, Except.ok.injEq] at hafter
    obtain ⟨_, -, _, -, _, -, ⟨header, last⟩, hends, v, hv, t, ht, _, -, previous, hprevious,
      candidate, hcandidate, environment, henvironment, topology, htopology, _, rfl, hfinish⟩ :=
      hafter
    have hparse : parseTime (some (.str (iso e.recordedAt))) = .ok e.recordedAt := by
      simp [parseTime, Json.text, fromisoformat_iso]
    obtain ⟨record', hafter'⟩ := recordAfter_of_sound hsound
      (endsOf_append ⟨hashed record, true⟩ hends) hfollows.recordedAt hparse hle hfollows.hash
      hcandidate henvironment htopology
    have happend : next.append left (some key) =
        (.ok (hashed record'), left ++ [.record (hashed record')]) :=
      append_eq_ok_iff.mpr ⟨_, record', hsound.precheck, hload, hafter', rfl, rfl⟩
    exact ⟨_, _, hnext ▸ happend⟩

/-! ## 3. Emissions -/

section Emissions

open ProtectedCampaignRuntimeAdapter

variable {observedAt : Moment} {producer : String} {kind : String} {payload : Payload}
  {events : List (String × Payload)} {site : Site}

/-- Emit these events, one after another. -/
def emitAll (observedAt : Moment) (producer : String) :
    List (String × Payload) → Prog CollectionSig Unit
  | [] => .ret ()
  | event :: rest => do
    emit event.1 event.2 observedAt producer
    emitAll observedAt producer rest

/-- The entries of these events. -/
def entriesOf (key : String) (observedAt : Moment) (producer : String) :
    (ℕ → ℤ) → List (String × Payload) → List Entry
  | _, [] => []
  | clock, event :: rest =>
    Entry.attested event.1 event.2 observedAt.instant producer key (clock 0) ::
      entriesOf key observedAt producer (fun n => clock (n + 1)) rest

/-- An emission is one append, of a timestamp that is aware. -/
theorem play_emit (site : Site) (haware : observedAt.aware = true)
    (he : e = Entry.attested kind payload observedAt.instant producer key (site.clock 0)) :
    (emit kind payload observedAt producer).play (collectionScript key) site =
      ((e.append site.file (some key)).1.map fun _ => (),
        site.tick (e.append site.file (some key)).2) := by
  have hutc : utc observedAt = .ok observedAt.instant := by simp [utc, haware, raiseIf_false]
  have hscript : collectionScript key (.emit kind payload observedAt.instant producer) site =
      (((e.append site.file (some key)).1.map fun _ => () : Except Exc Unit),
        site.tick (e.append site.file (some key)).2) := by
    simp only [collectionScript, appendAttestedRuntimeEvent_eq, he]
    rfl
  rw [emit, hutc]
  change (Prog.ofExcept (S := CollectionSig) (collectionScript key
    (.emit kind payload observedAt.instant producer) site).1).play (collectionScript key)
    (collectionScript key (.emit kind payload observedAt.instant producer) site).2 = _
  rw [hscript]
  cases (e.append site.file (some key)).1 <;> rfl

theorem play_emit_naive (kind : String) (payload : Payload) (producer key : String) (site : Site)
    (hnaive : observedAt.aware = false) :
    ∃ exc, (emit kind payload observedAt producer).play (collectionScript key) site =
      (.error exc, site) := by
  have hutc : utc observedAt = .error
      (.valueError "runtime observation timestamps must be timezone-aware") := by
    simp [utc, hnaive, raiseIf_true]
  rw [emit, hutc]
  exact ⟨_, rfl⟩

/-- An entry that is not recorded leaves the file alone. -/
theorem append_of_not_recorded (hkey : e.key = some key) (h : ¬ Recorded file e) :
    ∃ exc, e.append file (some key) = (.error exc, file) := by
  rcases happ : e.append file (some key) with ⟨exc | r, left⟩
  · exact ⟨exc, by rw [append_error happ]⟩
  · exact absurd ⟨r, left, hkey ▸ happ⟩ h

/-- The emission is not refused. -/
def Begins (file : File) (observedAt : Moment) (e : Entry) : Prop :=
  observedAt.aware = true ∧ Recorded file e

/-- **What an emission can do**: record its entry, or leave the file as it was. -/
theorem play_emit_cases (site : Site)
    (he : e = Entry.attested kind payload observedAt.instant producer key (site.clock 0)) :
    (Begins site.file observedAt e ∧ ∃ r left, e.append site.file (some key) = (.ok r, left) ∧
      (emit kind payload observedAt producer).play (collectionScript key) site =
        (.ok (), site.tick left)) ∨
    (¬ Begins site.file observedAt e ∧ ∃ exc left, left.file = site.file ∧
      (emit kind payload observedAt producer).play (collectionScript key) site =
        (.error exc, left)) := by
  have hkey : e.key = some key := by rw [he]; rfl
  cases haware : observedAt.aware with
  | false =>
    obtain ⟨exc, hrefused⟩ := play_emit_naive kind payload producer key site haware
    exact .inr ⟨by simp [Begins, haware], exc, site, rfl, hrefused⟩
  | true =>
    have hplay := play_emit site haware he
    by_cases hrecorded : Recorded site.file e
    · obtain ⟨r, left, happend⟩ := id hrecorded
      rw [hkey] at happend
      rw [happend] at hplay
      exact .inl ⟨⟨haware, hrecorded⟩, r, left, happend, hplay⟩
    · obtain ⟨exc, happend⟩ := append_of_not_recorded hkey hrecorded
      rw [happend] at hplay
      exact .inr ⟨fun h => hrecorded h.2, exc, site.tick site.file, rfl, hplay⟩

/-- Emissions after one that was recorded. -/
theorem play_emitAll_after (site : Site) (events : List (String × Payload))
    (haware : observedAt.aware = true) (hkey : e.key = some key)
    (h : e.append file (some key) = (.ok r, site.file)) :
    let out := (emitAll observedAt producer events).play (collectionScript key) site
    (out.1 = .ok () ↔
        (e :: entriesOf key observedAt producer site.clock events).IsChain Succeeds) ∧
      ∃ more, out.2.file = site.file ++ more := by
  induction events generalizing e file r site with
  | nil => exact ⟨iff_of_true rfl (List.isChain_singleton _), [], (List.append_nil _).symm⟩
  | cons event rest ih =>
    intro out
    obtain ⟨next, hnext⟩ : ∃ next, next =
      Entry.attested event.1 event.2 observedAt.instant producer key (site.clock 0) := ⟨_, rfl⟩
    have hkey' : next.key = some key := by rw [hnext]; rfl
    have hout : out = (emit event.1 event.2 observedAt producer >>= fun _ =>
        emitAll observedAt producer rest).play (collectionScript key) site := rfl
    rw [play_bind, play_emit site haware hnext] at hout
    rw [entriesOf, ← hnext, List.isChain_cons_cons, ← recorded_next_iff hkey hkey' h]
    by_cases hrecorded : Recorded site.file next
    · obtain ⟨r', left, happend⟩ := id hrecorded
      rw [hkey'] at happend
      obtain ⟨-, hgrown⟩ := append_extends (by simp [hkey']) happend
      obtain ⟨hok, more, hmore⟩ := ih (site.tick left) hkey' happend
      rw [happend] at hout
      rw [hout]
      refine ⟨hok.trans (and_iff_right hrecorded).symm, .record r' :: more, hmore.trans ?_⟩
      rw [Site.tick, hgrown, List.append_assoc, List.singleton_append]
    · obtain ⟨exc, hrefused⟩ := append_of_not_recorded hkey' hrecorded
      rw [hrefused] at hout
      rw [hout]
      exact ⟨by simp [hrecorded, Except.map], [], (List.append_nil _).symm⟩

/-- **Emissions with one observation.**  Where the first is refused nothing is recorded; where it
is not, the others go through just when each succeeds the one before, and the file has grown. -/
theorem play_emitAll (observedAt : Moment) (producer key : String) (event : String × Payload)
    (events : List (String × Payload)) (site : Site)
    (he : e = Entry.attested event.1 event.2 observedAt.instant producer key (site.clock 0)) :
    let out := (emitAll observedAt producer (event :: events)).play (collectionScript key) site
    (¬ Begins site.file observedAt e → (∃ exc, out.1 = .error exc) ∧ out.2.file = site.file) ∧
    (Begins site.file observedAt e →
      (out.1 = .ok () ↔
        (entriesOf key observedAt producer site.clock (event :: events)).IsChain Succeeds) ∧
      out.2.file ≠ site.file) := by
  intro out
  have hkey : e.key = some key := by rw [he]; rfl
  have hout : out = (emit event.1 event.2 observedAt producer >>= fun _ =>
      emitAll observedAt producer events).play (collectionScript key) site := rfl
  rw [play_bind] at hout
  rcases play_emit_cases site he with ⟨hbegins, r, left, happend, hplay⟩ |
    ⟨hnot, exc, left, hfile, hplay⟩
  · obtain ⟨-, hgrown⟩ := append_extends (by simp [hkey]) happend
    obtain ⟨hok, more, hmore⟩ :=
      play_emitAll_after (site.tick left) events hbegins.1 hkey happend
    rw [hplay] at hout
    refine ⟨fun hnot => absurd hbegins hnot, fun _ => ?_⟩
    rw [hout, entriesOf, ← he]
    refine ⟨hok, ?_⟩
    change ((emitAll observedAt producer events).play (collectionScript key)
      (site.tick left)).2.file ≠ site.file
    rw [hmore, Site.tick, hgrown]
    simp
  · rw [hplay] at hout
    rw [hout]
    exact ⟨fun _ => ⟨⟨exc, rfl⟩, hfile⟩, fun hyes => absurd hyes hnot⟩

end Emissions

end Kripto.Campaign
