/-
# Append-only logs that a crash has torn

The chain file of the deployments and the campaign collection grow by a line at a time, and a crash
can cut the last one.  Neither reader passes over a line that it cannot read, and neither writer
adds one to a file that its reader refuses.

* `torn_append_fails_closed`: so a beginning of a line is noticed wherever the cut is, and the file
  stays as it is;
* `torn_append_bricks`: for good.
-/
import Kripto.Audit.Worm
import Kripto.Campaign.CollectionText
import Kripto.Deploy.AuditText

namespace Kripto.Audit

open Effect Python Deploy Campaign
open AuditText (newEvent appendEvent newEvent_eq_ok failsClosed_of_newEvent)
open CollectionText (fileOf hashedText hashedText_eq_ok failsClosed_of_record rowTree Simple
  lineOf_rowTree fileOf_line floatsRead_rowTree)

/-- **A torn append fails closed** in both logs, if less than the whole text of the line was
written. -/
theorem torn_append_fails_closed [Hashlib] [Loads.PyFloatRepr] [AuditText.PyEq]
    [PyRuntime] [CollectionEncoding] [PythonEncoding] :
    (∀ found eventType createdAt subjects event p,
      newEvent found eventType createdAt subjects = .ok event →
        (PyValue.dict event.body).FloatsRead → p <+: event.text → p ≠ event.text →
          AuditText.FailsClosed found p) ∧
    ∀ (a : OnDisk.Append) text now hashed line p,
      a.record (fileOf text) now >>= hashedText = .ok (hashed, line) →
        hashed.toValue.FloatsRead → p <+: line → p ≠ line →
          CollectionText.FailsClosed text p := by
  constructor
  · intro found eventType createdAt subjects event p hevent hfloats hpre hcut
    exact failsClosed_of_newEvent hevent hfloats hpre hcut
  · intro a text now hashed line p hrecord hfloats hpre hcut
    exact failsClosed_of_record hrecord hfloats hpre hcut

/-! ## The first byte of a line -/

/-- Numbers and truth values are compared. -/
@[reducible] def plainEq : AuditText.PyEq where
  eq
    | .int m, .int n => m = n
    | .bool b, .bool c => b = c
    | _, _ => false

section

attribute [local instance] beginnings Worm.sameRepr plainEq OnDisk.bytesEncoding OnDisk.plainPython
  plainRuntime

/-- The first event of a chain. -/
theorem newEvent_missing (eventType createdAt : Text) :
    ∃ event, newEvent .missing eventType createdAt [] = .ok event ∧
      (PyValue.dict event.body).FloatsRead := by
  let body : Dict := AuditText.eventBody .none eventType createdAt []
  have hcanonical : ∃ digest, AuditText.canonical body = .ok digest := by
    rw [AuditText.canonical, bytes_eq]
    exact ⟨_, rfl⟩
  obtain ⟨digest, hdigest⟩ := hcanonical
  have htext : ∃ text, (PyValue.dict (AuditText.hashed body digest)).dumpsSpaced = .ok text :=
    ⟨_, rfl⟩
  obtain ⟨text, htext⟩ := htext
  refine ⟨⟨AuditText.hashed body digest, digest, text⟩, ?_, ?_⟩
  · unfold newEvent
    rw [if_neg Bool.false_ne_true, AuditText.verify, ok_bind, if_neg (not_not.mpr rfl)]
    dsimp only
    rw [hdigest, ok_bind, htext]
    rfl
  · intro _ hj repr hrepr
    obtain rfl := Except.ok.inj hj
    cases hrepr

/-- The file of a new collection. -/
def headerText : Text := (rowTree OnDisk.header).write true ++ [newline]

theorem isAscii_recordHash (row : Payload) : isAscii (recordHash row) :=
  OnDisk.isAscii_objectDigest _

theorem fileOf_headerText : fileOf headerText = [.record OnDisk.header] := by
  have hsimple : ∀ e ∈ OnDisk.header, isAscii e.1 ∧ Simple e.2 := by
    rw [OnDisk.header, headerRecord, hashed, List.forall_mem_append, List.forall_mem_singleton]
    exact ⟨by decide +kernel, by decide, isAscii_recordHash _⟩
  have hline := lineOf_rowTree hsimple (by decide) (by decide)
  rw [headerText, fileOf_line (printable_write (floatsRead_rowTree _)), hline]

/-- The event that is appended to it. -/
def reconnect : Payload :=
  eventRecord 1 1 1 (.str (recordHash OnDisk.header)) (.str OnDisk.candidate)
      (.str OnDisk.topology) (.str OnDisk.topology) "private_reconnect" UNATTESTED_PRODUCER [] ++
    [("acceptance_eligible", .bool false)]

theorem record_reconnect :
    (OnDisk.audit "private_reconnect").record (fileOf headerText) 1 =
      .ok (OnDisk.ofJson reconnect) := by
  rw [fileOf_headerText, OnDisk.audit, OnDisk.Append.record, OnDisk.collectionRecord,
    OnDisk.load_header]
  rfl

theorem floats_reconnect : (OnDisk.ofJson (hashed reconnect)).toValue.FloatsRead := by
  intro _ hj repr hrepr
  obtain rfl := Except.ok.inj hj
  exact nomatch hrepr

theorem hashedText_reconnect : ∃ line,
    hashedText (OnDisk.ofJson reconnect) = .ok (OnDisk.ofJson (hashed reconnect), line) := by
  obtain ⟨line, hline, -⟩ := dumps_toValue {} (.obj (hashed reconnect))
  rw [← OnDisk.toValue_ofJson] at hline
  have hhashed : OnDisk.ofJson reconnect ++
      [("record_sha256", .str (Text.of (recordHash reconnect)))] =
        OnDisk.ofJson (hashed reconnect) := by
    simp [hashed, OnDisk.ofJson, Json.toValue]
  refine ⟨line, ?_⟩
  rw [hashedText, OnDisk.recordHash_ofJson, ok_bind, hhashed]
  dsimp only
  rw [hline]
  rfl

/-- An object is more than its first brace. -/
theorem opening_brace {w : Text} (h : Loads.Braced w) :
    Text.of "\x7b" <+: w ∧ Text.of "\x7b" ≠ w := by
  obtain ⟨t, rfl⟩ := h
  refine ⟨⟨t ++ [.scalar '\x7d'], rfl⟩, fun heq => ?_⟩
  exact List.append_ne_nil_of_right_ne_nil t (List.cons_ne_nil _ _) (List.cons.inj heq).2.symm

/-- The first byte of the first event of a chain, and of the first event of a collection. -/
theorem torn_append_fails_closed_brace :
    AuditText.FailsClosed .missing (Text.of "\x7b") ∧
      CollectionText.FailsClosed headerText (Text.of "\x7b") := by
  constructor
  · obtain ⟨event, hevent, hfloats⟩ := newEvent_missing (Text.of "RELEASE_UPDATE_ACCEPTED")
      (Text.of "2026-01-01T00:00:00+00:00")
    have hobject := Loads.objectText_dumpsSpaced (newEvent_eq_ok hevent).2 hfloats
    obtain ⟨hpre, hcut⟩ := opening_brace hobject.braced
    exact torn_append_fails_closed.1 _ _ _ _ event _ hevent hfloats hpre hcut
  · obtain ⟨line, hline⟩ := hashedText_reconnect
    have hobject := Loads.objectText_dumps (hashedText_eq_ok hline) floats_reconnect
    obtain ⟨hpre, hcut⟩ := opening_brace hobject.braced
    have hrecord : (OnDisk.audit "private_reconnect").record (fileOf headerText) 1 >>= hashedText =
        .ok (OnDisk.ofJson (hashed reconnect), line) := by
      rw [record_reconnect, ok_bind, hline]
    exact torn_append_fails_closed.2 _ _ _ _ line _ hrecord floats_reconnect hpre hcut

/-- **A chain of no events**, of whose first event a brace is left, takes no event any more. -/
theorem torn_append_bricks :
    AuditText.verify .missing = .ok ⟨true, 0, .none, []⟩ ∧
      (∃ event, newEvent .missing (Text.of "RELEASE_UPDATE_ACCEPTED")
          (Text.of "2026-01-01T00:00:00+00:00") [] = .ok event ∧
        Text.of "\x7b" <+: event.text ++ [newline] ∧
        Text.of "\x7b" ≠ event.text ++ [newline]) ∧
      ∀ eventType createdAt subjects,
        (appendEvent (.file (Text.of "\x7b")) eventType createdAt subjects).1.isOk = false := by
  obtain ⟨event, hevent, hfloats⟩ := newEvent_missing (Text.of "RELEASE_UPDATE_ACCEPTED")
    (Text.of "2026-01-01T00:00:00+00:00")
  have hobject := Loads.objectText_dumpsSpaced (newEvent_eq_ok hevent).2 hfloats
  obtain ⟨hpre, hcut⟩ := opening_brace hobject.braced
  have hclosed := failsClosed_of_newEvent hevent hfloats hpre hcut
  refine ⟨rfl, ⟨event, hevent, hpre.trans (List.prefix_append _ _), fun heq => ?_⟩, ?_⟩
  · rw [heq] at hpre
    have hlength := hpre.length_le
    rw [List.length_append, List.length_singleton] at hlength
    omega
  · intro eventType createdAt subjects
    obtain ⟨problems, hrefused⟩ :=
      hclosed.refused (List.cons_ne_nil _ _) eventType createdAt subjects
    have hrun : appendEvent (.file (Text.of "\x7b")) eventType createdAt subjects = _ := hrefused
    rw [hrun]
    rfl

end

end Kripto.Audit
