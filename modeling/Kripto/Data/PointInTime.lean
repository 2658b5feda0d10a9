/-
# Questions about a point in time

`data/point_in_time.py` keeps records with the time from which on they were available, and
`universe/manager.py` the metadata of symbols with the time from which on they were in force.
Both are asked what was known at a time.

* `point_in_time`: what was not known at that time does not change the answer, nor does the order
  in which it was all recorded, so far as the name of a version tells apart what it names.
-/
import Kripto.Universe.MetadataHistory

namespace Kripto.Data

open Effect Python Universe
open Execution (DateTime)

/-! ## 1. `PointInTimeStore` -/

/-- The times carry a zone (`__post_init__` asks for it), and are instants. -/
structure AvailabilityRecord (V : Type) where
  recordId : Text
  dataType : Text
  key : Text
  value : V
  eventTime : ℤ
  publishedAt : ℤ
  availableAt : ℤ
  persistedAt : ℤ
  source : Text
  vintageId : Option Text

structure PointInTimeStore (V : Type) where
  records : List (AvailabilityRecord V)

/-- `(row.event_time, row.available_at, row.record_id)` is compared from left to right. -/
def rowLe {V : Type} (row row' : AvailabilityRecord V) : Prop :=
  row.eventTime < row'.eventTime ∨ row.eventTime = row'.eventTime ∧
    (row.availableAt < row'.availableAt ∨ row.availableAt = row'.availableAt ∧
      row.recordId.le row'.recordId)

namespace PointInTimeStore

variable {V : Type}

instance rowLe.decidable : DecidableRel (rowLe (V := V)) := fun row row' =>
  inferInstanceAs (Decidable (row.eventTime < row'.eventTime ∨ row.eventTime = row'.eventTime ∧
    (row.availableAt < row'.availableAt ∨ row.availableAt = row'.availableAt ∧
      row.recordId.le row'.recordId)))

def new : PointInTimeStore V := ⟨[]⟩

def append (self : PointInTimeStore V) (record : AvailabilityRecord V) :
    Except Universe.Exc (AvailabilityRecord V × PointInTimeStore V) :=
  if ∃ existing ∈ self.records, existing.recordId = record.recordId then
    .error (.valueError "record id duplicate")
  else .ok (record, ⟨self.records ++ [record]⟩)

/-- Whether a row was available, and is of the kind and the key that are asked for. -/
def isAvailable (asOf : ℤ) (dataType key : Option Text) (row : AvailabilityRecord V) : Bool :=
  row.availableAt ≤ asOf ∧ (dataType = none ∨ dataType = some row.dataType) ∧
    (key = none ∨ key = some row.key)

def availableAsOf (self : PointInTimeStore V) (asOf : DateTime) (dataType key : Option Text) :
    Except Universe.Exc (List (AvailabilityRecord V)) :=
  if asOf.aware = false then .error (.valueError "as_of must be timezone-aware")
  else .ok ((self.records.filter (isAvailable asOf.micros dataType key)).insertionSort rowLe)

def latestAvailable (self : PointInTimeStore V) (asOf : DateTime) (dataType key : Text) :
    Except Universe.Exc (Option (AvailabilityRecord V)) := do
  let rows ← self.availableAsOf asOf (some dataType) (some key)
  return rows.getLast?

/-- The store that successful calls make. -/
def appendAll (records : List (AvailabilityRecord V)) : Except Universe.Exc (PointInTimeStore V) :=
  records.foldlM (fun self record => return (← self.append record).2) new

/-! ## 2. What a store holds -/

variable {self self' : PointInTimeStore V} {records records' more : List (AvailabilityRecord V)}

/-- **All calls succeed** exactly if no two records have one id, and the store holds them all. -/
theorem appendAll_eq_ok_iff :
    appendAll records = .ok self ↔ self = ⟨records⟩ ∧ (records.map (·.recordId)).Nodup := by
  induction records using List.reverseRecOn generalizing self with
  | nil =>
    change Except.ok new = Except.ok self ↔ _
    simp [new, eq_comm]
  | append_singleton older record ih =>
    rw [appendAll, List.foldlM_append, bind_eq_ok_iff]
    constructor
    · rintro ⟨t, ht, hrecord⟩
      obtain ⟨rfl, hnodup⟩ := ih.mp ht
      simp only [List.foldlM_cons, List.foldlM_nil, bind_pure, append] at hrecord
      split_ifs at hrecord with hold
      · cases hrecord
      · obtain rfl := Except.ok.inj hrecord
        refine ⟨rfl, ?_⟩
        rw [List.map_append, List.nodup_append']
        refine ⟨hnodup, List.nodup_singleton _, fun id hid hlast => hold ?_⟩
        obtain ⟨existing, hexisting, rfl⟩ := List.mem_map.mp hid
        exact ⟨existing, hexisting, by simpa using hlast⟩
    · rintro ⟨rfl, hnodup⟩
      rw [List.map_append, List.nodup_append'] at hnodup
      refine ⟨⟨older⟩, ih.mpr ⟨rfl, hnodup.1⟩, ?_⟩
      have hnew : ¬ ∃ existing ∈ older, existing.recordId = record.recordId := by
        rintro ⟨existing, hexisting, hid⟩
        exact hnodup.2.2 (List.mem_map_of_mem hexisting) (by simp [hid])
      simp [append, hnew]

instance rowLe.total : Std.Total (rowLe (V := V)) := by
  refine ⟨fun row row' => ?_⟩
  rcases lt_trichotomy row.eventTime row'.eventTime with h | h | h
  · exact .inl (.inl h)
  · rcases lt_trichotomy row.availableAt row'.availableAt with h' | h' | h'
    · exact .inl (.inr ⟨h, .inl h'⟩)
    · rcases row.recordId.le_total row'.recordId with hid | hid
      · exact .inl (.inr ⟨h, .inr ⟨h', hid⟩⟩)
      · exact .inr (.inr ⟨h.symm, .inr ⟨h'.symm, hid⟩⟩)
    · exact .inr (.inr ⟨h.symm, .inl h'⟩)
  · exact .inr (.inl h)

instance rowLe.isTrans : IsTrans (AvailabilityRecord V) rowLe := by
  refine ⟨fun a b c hab hbc => ?_⟩
  rcases hab with hab | ⟨hab, hab' | ⟨hab', hid⟩⟩ <;>
    rcases hbc with hbc | ⟨hbc, hbc' | ⟨hbc', hid'⟩⟩
  · exact .inl (hab.trans hbc)
  · exact .inl (hbc ▸ hab)
  · exact .inl (hbc ▸ hab)
  · exact .inl (hab ▸ hbc)
  · exact .inr ⟨hab.trans hbc, .inl (hab'.trans hbc')⟩
  · exact .inr ⟨hab.trans hbc, .inl (hbc' ▸ hab')⟩
  · exact .inl (hab ▸ hbc)
  · exact .inr ⟨hab.trans hbc, .inl (hab' ▸ hbc')⟩
  · exact .inr ⟨hab.trans hbc, .inr ⟨hab'.trans hbc', Text.le_trans hid hid'⟩⟩

/-- Rows that are in order both ways have one id. -/
theorem antisymmOn_rowLe (h : (records.map (·.recordId)).Nodup) : AntisymmOn rowLe records := by
  intro row hrow row' hrow' hle hle'
  have hid : row.recordId = row'.recordId := by
    rcases hle with hlt | ⟨heq, hlt | ⟨heq', hid⟩⟩
    · rcases hle' with hlt' | ⟨heq', -⟩ <;> omega
    · rcases hle' with hlt' | ⟨-, hlt' | ⟨heq', -⟩⟩ <;> omega
    · rcases hle' with hlt' | ⟨-, hlt' | ⟨-, hid'⟩⟩
      · omega
      · omega
      · exact Text.le_antisymm hid hid'
  exact List.inj_on_of_nodup_map h hrow hrow' hid

/-- **No look-ahead.** -/
theorem availableAsOf_append {asOf : DateTime} (h : appendAll records = .ok self)
    (h' : appendAll (records ++ more) = .ok self')
    (hlater : ∀ row ∈ more, asOf.micros < row.availableAt)
    (dataType key : Option Text) :
    self'.availableAsOf asOf dataType key = self.availableAsOf asOf dataType key := by
  obtain ⟨rfl, -⟩ := appendAll_eq_ok_iff.mp h
  obtain ⟨rfl, -⟩ := appendAll_eq_ok_iff.mp h'
  have hnone : more.filter (isAvailable asOf.micros dataType key) = [] := by
    rw [List.filter_eq_nil_iff]
    intro row hrow havailable
    exact absurd (of_decide_eq_true havailable).1 (hlater row hrow).not_ge
  rw [availableAsOf, availableAsOf, List.filter_append, hnone, List.append_nil]

/-- **The order of the calls** does not matter. -/
theorem availableAsOf_perm (h : appendAll records = .ok self) (h' : appendAll records' = .ok self')
    (hperm : records.Perm records') (asOf : DateTime) (dataType key : Option Text) :
    self'.availableAsOf asOf dataType key = self.availableAsOf asOf dataType key := by
  obtain ⟨rfl, hnodup⟩ := appendAll_eq_ok_iff.mp h
  obtain ⟨rfl, -⟩ := appendAll_eq_ok_iff.mp h'
  have hsorted := insertionSort_congr (hperm.filter (isAvailable asOf.micros dataType key))
    ((antisymmOn_rowLe hnodup).subset (List.filter_subset_self _))
  rw [availableAsOf, availableAsOf, hsorted]

end PointInTimeStore

/-! ## 3. No look-ahead, and no order -/

section Statement

variable (V O : Type) [PyUpper] [PyObject O] [Hashlib]

/-- What is recorded with a later time does not change the answer. -/
structure NoLookAhead (asOf : DateTime) : Prop where
  available : ∀ (records more : List (AvailabilityRecord V)) (self self' : PointInTimeStore V),
    PointInTimeStore.appendAll records = .ok self →
    PointInTimeStore.appendAll (records ++ more) = .ok self' →
    (∀ row ∈ more, asOf.micros < row.availableAt) →
      (∀ dataType key,
        self'.availableAsOf asOf dataType key = self.availableAsOf asOf dataType key) ∧
      ∀ dataType key,
        self'.latestAvailable asOf dataType key = self.latestAvailable asOf dataType key
  version : ∀ (calls more : List (RecordArgs O)) (self self' : SymbolMetadataHistory),
    SymbolMetadataHistory.recordAll calls = .ok self →
    SymbolMetadataHistory.recordAll (calls ++ more) = .ok self' →
    (∀ a ∈ more, aware asOf < aware a.effectiveAt) →
      ∀ symbol, self'.versionAt symbol asOf = self.versionAt symbol asOf

/-- The calls may come in any order: all succeed again, and the answers are the same. -/
structure OrderFree (asOf : DateTime) : Prop where
  available : ∀ (records records' : List (AvailabilityRecord V)) (self : PointInTimeStore V),
    records.Perm records' → PointInTimeStore.appendAll records = .ok self →
      ∃ self', PointInTimeStore.appendAll records' = .ok self' ∧
        (∀ dataType key,
          self'.availableAsOf asOf dataType key = self.availableAsOf asOf dataType key) ∧
        ∀ dataType key,
          self'.latestAvailable asOf dataType key = self.latestAvailable asOf dataType key
  /-- So far as versions tell apart what they name, and up to surrogate pairs. -/
  version : ∀ (calls calls' : List (RecordArgs O)) (self : SymbolMetadataHistory),
    calls.Perm calls' → SymbolMetadataHistory.recordAll calls = .ok self →
      ∃ self', SymbolMetadataHistory.recordAll calls' = .ok self' ∧
        (SymbolMetadataHistory.TellsApart calls → ∀ symbol,
          Agree SymbolMetadataHistory.SameVersion (self.versionAt symbol asOf)
            (self'.versionAt symbol asOf) ∧
          ((∀ a ∈ calls, (SymbolMetadataHistory.content a).NoPair) →
            self'.versionAt symbol asOf = self.versionAt symbol asOf))

end Statement

/-- **Point-in-time questions** do not look ahead, and do not depend on the order of the calls. -/
theorem point_in_time (V O : Type) [PyUpper] [PyObject O] [Hashlib] (asOf : DateTime) :
    NoLookAhead V O asOf ∧ OrderFree V O asOf := by
  refine ⟨⟨?_, ?_⟩, ⟨?_, ?_⟩⟩
  · intro records more self self' h h' hlater
    have hrows := PointInTimeStore.availableAsOf_append h h' hlater
    refine ⟨hrows, fun dataType key => ?_⟩
    rw [PointInTimeStore.latestAvailable, PointInTimeStore.latestAvailable, hrows]
  · intro calls more self self' h h' hlater symbol
    exact SymbolMetadataHistory.versionAt_append h h' hlater symbol
  · intro records records' self hperm h
    obtain ⟨-, hnodup⟩ := PointInTimeStore.appendAll_eq_ok_iff.mp h
    have h' : PointInTimeStore.appendAll records' = .ok ⟨records'⟩ :=
      PointInTimeStore.appendAll_eq_ok_iff.mpr ⟨rfl, (hperm.map _).nodup_iff.mp hnodup⟩
    have hrows := PointInTimeStore.availableAsOf_perm h h' hperm asOf
    refine ⟨⟨records'⟩, h', hrows, fun dataType key => ?_⟩
    rw [PointInTimeStore.latestAvailable, PointInTimeStore.latestAvailable, hrows]
  · intro calls calls' self hperm h
    have hcompatible := SymbolMetadataHistory.recordAll_isOk_iff.mp ⟨self, h⟩
    obtain ⟨self', h'⟩ := SymbolMetadataHistory.recordAll_isOk_iff.mpr
      fun a ha a' ha' => hcompatible a (hperm.mem_iff.mpr ha) a' (hperm.mem_iff.mpr ha')
    refine ⟨self', h', fun hhash symbol => ?_⟩
    rcases SymbolMetadataHistory.eligible_perm (SymbolMetadataHistory.recordedFrom h)
      (SymbolMetadataHistory.recordedFrom h') (fun a => hperm.mem_iff) hhash
      (PyUpper.upper symbol) (aware asOf) with
      ⟨hnone, hnone'⟩ | ⟨e, e', hsome, hsome', hsame, ⟨a, ha, rfl⟩, a', ha', rfl⟩
    · rw [SymbolMetadataHistory.versionAt, SymbolMetadataHistory.versionAt, hnone, hnone']
      exact ⟨.error _, fun _ => rfl⟩
    · rw [SymbolMetadataHistory.versionAt, SymbolMetadataHistory.versionAt, hsome, hsome']
      refine ⟨.ok hsame, fun hpairs => congrArg Except.ok ?_⟩
      have hcontent : SymbolMetadataHistory.content a = SymbolMetadataHistory.content a' :=
        hsame.content.eq (hpairs a ha) (hpairs a' ha')
      rw [SymbolMetadataHistory.entryOf, SymbolMetadataHistory.entryOf, hcontent,
        show aware a.effectiveAt = aware a'.effectiveAt from hsame.effectiveAt]

/-! ### A source in two spellings -/

section Spellings

/-- A character beyond the 16-bit ones. -/
def character : Text := [.scalar (Char.ofNat 0x1f600)]

/-- The two surrogates of it. -/
def twoSurrogates : Text :=
  [.surrogate (Fin.ofNat 2048 0x3d), .surrogate (Fin.ofNat 2048 0x600)]

/-- What a source says at time 0. -/
def saidBy (O : Type) (source : Text) : RecordArgs O :=
  ⟨Text.of "BTCUSDT", ⟨0, true⟩, source, .dict [], none, none⟩

variable {O : Type} [PyUpper] [PyObject O] [Hashlib]

omit [Hashlib] in
theorem json_saidBy {source source' : Text} (h : source.units = source'.units) :
    (SymbolMetadataHistory.content (saidBy O source)).json =
      (SymbolMetadataHistory.content (saidBy O source')).json := by
  simp only [Content.json, Content.text, SymbolMetadataHistory.content, saidBy, quote_congr h]

open SymbolMetadataHistory in
/-- What is said twice, in two spellings, is answered in the first one. -/
theorem versionAt_saidBy {source source' : Text} (h : source.units = source'.units) :
    ∃ self, recordAll [saidBy O source, saidBy O source'] = .ok self ∧
      self.versionAt (Text.of "BTCUSDT") ⟨0, true⟩ = .ok (entryOf (saidBy O source)) := by
  have hversion : (entryOf (saidBy O source)).version = (entryOf (saidBy O source')).version := by
    simp only [entryOf, digest16, json_saidBy (O := O) h]
  have hfirst : place [] (entryOf (saidBy O source)) = .ok [entryOf (saidBy O source)] := by
    simp [place]
  have hsecond : place [entryOf (saidBy O source)] (entryOf (saidBy O source')) =
      .ok [entryOf (saidBy O source)] := by
    have htime : (entryOf (saidBy O source)).effectiveAt =
        (entryOf (saidBy O source')).effectiveAt := rfl
    simp [place, htime, hversion]
  set key := PyUpper.upper (Text.of "BTCUSDT") with hkey
  have hinsert : ∀ versions, SymbolMetadataHistory.bucket
      ⟨AList.insert key [entryOf (saidBy O source)] versions⟩ key =
        [entryOf (saidBy O source)] := by
    intro versions
    rw [bucket_insert, if_pos rfl]
  have hone : (do return (← new.record (saidBy O source)).2) =
      .ok ⟨new.versions.insert key [entryOf (saidBy O source)]⟩ :=
    turn_eq_ok_iff.mpr ⟨_, hfirst, rfl⟩
  have htwo : (do return (← SymbolMetadataHistory.record
        ⟨new.versions.insert key [entryOf (saidBy O source)]⟩ (saidBy O source')).2) =
      .ok ⟨(new.versions.insert key [entryOf (saidBy O source)]).insert key
        [entryOf (saidBy O source)]⟩ := by
    refine turn_eq_ok_iff.mpr ⟨_, ?_, rfl⟩
    change place (SymbolMetadataHistory.bucket _ key) _ = _
    rw [hinsert, hsecond]
  refine ⟨⟨(new.versions.insert key [entryOf (saidBy O source)]).insert key
    [entryOf (saidBy O source)]⟩, ?_, ?_⟩
  · rw [recordAll, List.foldlM_cons, hone, ok_bind, List.foldlM_cons, htwo, ok_bind,
      List.foldlM_nil]
    rfl
  · rw [versionAt, ← hkey, eligible, hinsert]
    simp [entryOf, saidBy, aware]

end Spellings

/-- Whatever the digest, **the answer depends on the order** in which one source was recorded in two
spellings. -/
theorem spellings_in_order : character ≠ twoSurrogates ∧
    ∀ (O : Type) [PyUpper] [PyObject O] [Hashlib], ∃ self self' : SymbolMetadataHistory,
      SymbolMetadataHistory.recordAll [saidBy O character, saidBy O twoSurrogates] = .ok self ∧
      SymbolMetadataHistory.recordAll [saidBy O twoSurrogates, saidBy O character] = .ok self' ∧
      self.versionAt (Text.of "BTCUSDT") ⟨0, true⟩ ≠
        self'.versionAt (Text.of "BTCUSDT") ⟨0, true⟩ := by
  have hunits : character.units = twoSurrogates.units := by decide
  refine ⟨by decide, ?_⟩
  intro O _ _ _
  obtain ⟨self, hself, hanswer⟩ := versionAt_saidBy (O := O) hunits
  obtain ⟨self', hself', hanswer'⟩ := versionAt_saidBy (O := O) hunits.symm
  refine ⟨self, self', hself, hself', fun h => ?_⟩
  rw [hanswer, hanswer'] at h
  have hsource : character = twoSurrogates :=
    congrArg (fun e => e.metadataSource) (Except.ok.inj h)
  exact absurd hsource (by decide)

end Kripto.Data
