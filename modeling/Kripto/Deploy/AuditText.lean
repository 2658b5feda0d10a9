/-
# The chain file as text

`scripts/deployment_audit_chain.py` over the text of the file.  `verify` splits it into lines and
reads each; `append_event` writes one line behind what is there, and a crash can leave any beginning
of it.

* `verify_torn`: a beginning of the line is reported, wherever the cut is;
* `failsClosed_of_newEvent`: and no event is added behind it.
-/
import Kripto.Effect.Outcome
import Kripto.Python.Cut
import Kripto.Python.Reload
import Kripto.Python.Spaced

namespace Kripto.Deploy.AuditText

open Effect Python

/-! ## 1. `scripts/deployment_audit_chain.py` -/

inductive Exc
  | runtimeError (msg : String)
  | attributeError
  | unicodeDecodeError
  | dumpError (e : DumpError)

/-- What is at the path of the chain.  A link to nothing does not exist, and is a link. -/
inductive Found
  | missing
  | danglingLink
  | unsafePath
  | undecodable
  | file (text : Text)

/-- `==` of JSON values of which the second is neither `None` nor a text. -/
class PyEq where
  eq : PyValue → PyValue → Bool

/-- `v == w`. -/
def equal [PyEq] (v : PyValue) : PyValue → Bool
  | .none => match v with
    | .none => true
    | _ => false
  | .str s => v.isText s
  | w => PyEq.eq v w

structure Report where
  verified : Bool
  eventCount : ℕ
  headSha256 : PyValue
  problems : List String

/-- The variables of the loop. -/
structure Scan where
  prev : PyValue := .none
  count : ℕ := 0
  problems : List String := []

def lineProblem (i : ℕ) (problem : String) : String := "LINE_" ++ toString i ++ "_" ++ problem

section Chain

variable [Hashlib]

/-- `_canonical`. -/
def canonical (x : Dict) : Except Exc Text :=
  match (PyValue.dict x).bytes {} with
  | .ok raw => .ok (Text.of (Hashlib.sha256 raw))
  | .error e => .error (.dumpError e)

variable [Loads.PyFloatRepr] [PyEq]

/-- A turn of the loop. -/
def scanLine (scan : Scan) (i : ℕ) (line : Text) : Except Exc Scan :=
  if Loads.blank line then .ok scan
  else match Loads.read line with
    | none => .ok { scan with problems := scan.problems ++ [lineProblem i "INVALID_JSON"] }
    | some j => match j.value with
      | .dict e => do
        let digest := dictGet e "event_sha256"
        let body := e.filter fun entry => entry.1 ≠ .str (Text.of "event_sha256")
        let expected ← canonical body
        let mismatch := if equal digest (.str expected) then []
          else [lineProblem i "DIGEST_MISMATCH"]
        let broken := if equal (dictGet body "previous_event_sha256") scan.prev then []
          else [lineProblem i "PREVIOUS_HASH_MISMATCH"]
        return ⟨digest, scan.count + 1, scan.problems ++ mismatch ++ broken⟩
      | _ => .error .attributeError

def scanLines (scan : Scan) (i : ℕ) : List Text → Except Exc Scan
  | [] => .ok scan
  | line :: lines => do scanLines (← scanLine scan i line) (i + 1) lines

def Scan.report (scan : Scan) : Report :=
  ⟨scan.problems.isEmpty, scan.count, scan.prev, scan.problems⟩

def verify : Found → Except Exc Report
  | .missing | .danglingLink => .ok ⟨true, 0, .none, []⟩
  | .unsafePath => .ok ⟨false, 0, .none, ["AUDIT_PATH_UNSAFE"]⟩
  | .undecodable => .error .unicodeDecodeError
  | .file text => return (← scanLines {} 1 (text.linesAt lineBoundaries)).report

/-- `str(problems)`. -/
def shownProblems (problems : List String) : String :=
  "[" ++ ", ".intercalate (problems.map fun problem => "'" ++ problem ++ "'") ++ "]"

def eventBody (head : PyValue) (eventType createdAt : Text) (subjects : Dict) : Dict :=
  [(.str (Text.of "schema_version"), .str (Text.of "1.1")),
    (.str (Text.of "classification"), .str (Text.of "TAMPER_EVIDENT_DEPLOYMENT_AUDIT_EVENT")),
    (.str (Text.of "event_type"), .str eventType),
    (.str (Text.of "created_at"), .str createdAt),
    (.str (Text.of "previous_event_sha256"), head),
    (.str (Text.of "subjects"), .dict subjects)]

/-- `body["event_sha256"] = digest`. -/
def hashed (body : Dict) (digest : Text) : Dict :=
  body ++ [(.str (Text.of "event_sha256"), .str digest)]

/-- An event, its digest, and its text on the line. -/
structure NewEvent where
  body : Dict
  digest : Text
  text : Text

/-- What `append_event` is about to write. -/
def newEvent (found : Found) (eventType createdAt : Text) (subjects : Dict) :
    Except Exc NewEvent := do
  if found matches .unsafePath | .danglingLink then
    .error (.runtimeError "DEPLOYMENT_AUDIT_PATH_UNSAFE")
  else
    let current ← verify found
    if ¬ current.verified then
      .error (.runtimeError
        ("DEPLOYMENT_AUDIT_CHAIN_TAMPERED:" ++ shownProblems current.problems))
    else
      let body := eventBody current.headSha256 eventType createdAt subjects
      let digest ← canonical body
      let event := hashed body digest
      match (PyValue.dict event).dumpsSpaced with
      | .ok text => return ⟨event, digest, text⟩
      | .error e => .error (.dumpError e)

/-- The text of the file, empty if it is not there. -/
def Found.contents : Found → Text
  | .file text => text
  | _ => []

/-- `append_event`: the event, and the file it leaves. -/
def appendEvent (found : Found) (eventType createdAt : Text) (subjects : Dict) :
    Except Exc Dict × Found :=
  match newEvent found eventType createdAt subjects with
  | .error e => (.error e, found)
  | .ok event =>
    let written := Found.file (found.contents ++ (event.text ++ [newline]))
    match verify written with
    | .error e => (.error e, written)
    | .ok after =>
      if ¬ after.verified ∨ ¬ equal after.headSha256 (.str event.digest) then
        (.error (.runtimeError
          ("DEPLOYMENT_AUDIT_APPEND_VERIFY_FAILED:" ++ shownProblems after.problems)), written)
      else (.ok event.body, written)

/-! ## 2. One line -/

variable {scan scan' : Scan} {i : ℕ} {line : Text} {lines : List Text}

theorem scanLine_invalid (hblank : Loads.blank line = false) (hread : Loads.read line = none) :
    scanLine scan i line =
      .ok { scan with problems := scan.problems ++ [lineProblem i "INVALID_JSON"] } := by
  rw [scanLine, hblank, if_neg Bool.false_ne_true, hread]

/-- **A line without a problem** is blank, or an object. -/
theorem scanLine_ok (h : scanLine scan i line = .ok scan') (hproblems : scan'.problems = []) :
    scan.problems = [] ∧
      (Loads.blank line = true ∨ ∃ fields, Loads.read line = some (.dict fields)) := by
  unfold scanLine at h
  split_ifs at h with hblank
  · obtain rfl := Except.ok.inj h
    exact ⟨hproblems, .inl hblank⟩
  · cases hread : Loads.read line with
    | none =>
      rw [hread] at h
      obtain rfl := Except.ok.inj h
      exact absurd (List.append_eq_nil_iff.mp hproblems).2 (List.cons_ne_nil _ _)
    | some j =>
      rw [hread] at h
      cases j with
      | dict fields =>
        obtain ⟨expected, -, h⟩ := bind_eq_ok_iff.mp h
        obtain rfl := Except.ok.inj h
        have hbefore := (List.append_eq_nil_iff.mp hproblems).1
        exact ⟨(List.append_eq_nil_iff.mp hbefore).1, .inr ⟨fields, rfl⟩⟩
      | _ => exact nomatch h

theorem scanLines_append (scan : Scan) (i : ℕ) (lines more : List Text) :
    scanLines scan i (lines ++ more) =
      scanLines scan i lines >>= fun scan => scanLines scan (i + lines.length) more := by
  induction lines generalizing scan i with
  | nil => rfl
  | cons line lines ih =>
    rw [List.cons_append, scanLines, scanLines, bind_assoc]
    refine bind_congr fun scan => ?_
    rw [ih, List.length_cons, Nat.add_assoc, Nat.add_comm 1]

theorem scanLines_concat_iff : scanLines scan i (lines ++ [line]) = .ok scan' ↔
    ∃ before, scanLines scan i lines = .ok before ∧
      scanLine before (i + lines.length) line = .ok scan' := by
  rw [scanLines_append, bind_eq_ok_iff]
  refine exists_congr fun before => and_congr_right fun _ => ?_
  rw [scanLines, bind_eq_ok_iff]
  exact ⟨fun ⟨_, h, heq⟩ => heq ▸ h, fun h => ⟨_, h, rfl⟩⟩

/-! ## 3. The new line -/

variable {found : Found} {event : NewEvent} {eventType createdAt : Text} {subjects : Dict}
  {report : Report} {p : Text}

/-- What is about to be written is added to a chain that is in order. -/
theorem newEvent_eq_ok (h : newEvent found eventType createdAt subjects = .ok event) :
    (∃ report, verify found = .ok report ∧ report.verified = true) ∧
      (PyValue.dict event.body).dumpsSpaced = .ok event.text := by
  unfold newEvent at h
  split_ifs at h with hpath
  obtain ⟨report, hreport, h⟩ := bind_eq_ok_iff.mp h
  split_ifs at h with hverified
  obtain ⟨digest, -, h⟩ := bind_eq_ok_iff.mp h
  refine ⟨⟨report, hreport, hverified⟩, ?_⟩
  dsimp only at h
  split at h
  · next text htext =>
    obtain rfl := Except.ok.inj h
    exact htext
  · exact nomatch h

/-- The loop over a chain that is in order. -/
theorem scan_contents (h : verify found = .ok report) (hverified : report.verified = true) :
    ∃ scan, scanLines {} 1 (found.contents.linesAt lineBoundaries) = .ok scan ∧
      scan.problems = [] ∧ report.eventCount = scan.count ∧ report.headSha256 = scan.prev := by
  cases found with
  | missing =>
    obtain rfl := Except.ok.inj h
    exact ⟨{}, rfl, rfl, rfl, rfl⟩
  | danglingLink =>
    obtain rfl := Except.ok.inj h
    exact ⟨{}, rfl, rfl, rfl, rfl⟩
  | unsafePath =>
    obtain rfl := Except.ok.inj h
    exact nomatch hverified
  | undecodable => exact nomatch h
  | file text =>
    obtain ⟨scan, hscan, h⟩ := bind_eq_ok_iff.mp h
    obtain rfl := Except.ok.inj h
    exact ⟨scan, hscan, List.isEmpty_iff.mp hverified, rfl, rfl⟩

/-! ## 4. A torn line -/

/-- The last line cannot be read. -/
theorem verify_of_invalid {text : Text} (hlines : text.linesAt lineBoundaries = lines ++ [line])
    (hscan : scanLines {} 1 lines = .ok scan) (hproblems : scan.problems = [])
    (hblank : Loads.blank line = false) (hread : Loads.read line = none) :
    verify (.file text) = .ok ⟨false, scan.count, scan.prev,
      [lineProblem (1 + lines.length) "INVALID_JSON"]⟩ := by
  have hall : scanLines {} 1 (text.linesAt lineBoundaries) =
      .ok { scan with problems := [lineProblem (1 + lines.length) "INVALID_JSON"] } := by
    rw [hlines]
    refine scanLines_concat_iff.mpr ⟨scan, hscan, ?_⟩
    rw [scanLine_invalid hblank hread, hproblems]
    rfl
  rw [verify, hall]
  rfl

/-- **A beginning of the line is reported**, wherever the cut is, and the events before it still
count if the file was ended. -/
theorem verify_torn (h : newEvent found eventType createdAt subjects = .ok event)
    (hfloats : (PyValue.dict event.body).FloatsRead) (hpre : p <+: event.text) (hne : p ≠ [])
    (hcut : p ≠ event.text) :
    ∃ count head i, verify (.file (found.contents ++ p)) =
        .ok ⟨false, count, head, [lineProblem i "INVALID_JSON"]⟩ ∧
      (found.contents.Ended lineBoundaries → ∃ report, verify found = .ok report ∧
        report.eventCount = count ∧ report.headSha256 = head) := by
  obtain ⟨⟨report, hreport, hverified⟩, htext⟩ := newEvent_eq_ok h
  have hobject := Loads.objectText_dumpsSpaced htext hfloats
  obtain ⟨scan, hscan, hproblems, hcount, hhead⟩ := scan_contents hreport hverified
  have hunended := (hobject.printable.beginning hpre).unended_lineBoundaries
  rcases linesAt_append rfl hunended hne found.contents with ⟨-, hlines⟩ |
    ⟨hended, lines, line, hlines, happend⟩
  · have hinvalid : Loads.read ([] ++ p) = none := hobject.torn hpre hne hcut (.inl rfl)
    have hblank := hobject.braced.not_blank hpre hne []
    have htorn := verify_of_invalid hlines hscan hproblems hblank hinvalid
    exact ⟨_, _, _, htorn, fun _ => ⟨report, hreport, hcount, hhead⟩⟩
  · rw [hlines] at hscan
    obtain ⟨before, hbefore, hline⟩ := scanLines_concat_iff.mp hscan
    obtain ⟨hnone, hlast⟩ := scanLine_ok hline hproblems
    have hinvalid := hobject.torn hpre hne hcut hlast
    have hblank := hobject.braced.not_blank hpre hne line
    have htorn := verify_of_invalid happend hbefore hnone hblank hinvalid
    exact ⟨_, _, _, htorn, fun h => absurd h hended⟩

/-! ## 5. An append after a crash -/

/-- **No event is added** to a file that is reported. -/
theorem appendEvent_of_not_verified {text : Text} (h : verify (.file text) = .ok report)
    (hverified : report.verified = false) :
    appendEvent (.file text) eventType createdAt subjects =
      (.error (.runtimeError
        ("DEPLOYMENT_AUDIT_CHAIN_TAMPERED:" ++ shownProblems report.problems)), .file text) := by
  have hnew : newEvent (.file text) eventType createdAt subjects = .error (.runtimeError
      ("DEPLOYMENT_AUDIT_CHAIN_TAMPERED:" ++ shownProblems report.problems)) := by
    unfold newEvent
    rw [if_neg Bool.false_ne_true, h, ok_bind, hverified, if_pos Bool.false_ne_true]
  rw [appendEvent, hnew]

/-- Where an event can be added, the file is what counts: an empty one is none. -/
theorem verify_contents (h : newEvent found eventType createdAt subjects = .ok event) :
    verify (.file found.contents) = verify found := by
  cases found with
  | missing => rfl
  | danglingLink => exact nomatch h
  | unsafePath => exact nomatch h
  | undecodable => exact nomatch h
  | file text => rfl

theorem newEvent_contents {eventType' createdAt' : Text} {subjects' : Dict}
    (h : newEvent found eventType createdAt subjects = .ok event) :
    newEvent (.file found.contents) eventType' createdAt' subjects' =
      newEvent found eventType' createdAt' subjects' := by
  cases found with
  | missing => rfl
  | danglingLink => exact nomatch h
  | unsafePath => exact nomatch h
  | undecodable => exact nomatch h
  | file text => rfl

/-- An append to the file that a crash has only opened. -/
theorem appendEvent_contents {eventType' createdAt' : Text} {subjects' : Dict}
    (h : newEvent found eventType createdAt subjects = .ok event) :
    (appendEvent (.file found.contents) eventType' createdAt' subjects').1 =
        (appendEvent found eventType' createdAt' subjects').1 ∧
      (appendEvent (.file found.contents) eventType' createdAt' subjects').2.contents =
        (appendEvent found eventType' createdAt' subjects').2.contents := by
  rw [appendEvent, appendEvent, newEvent_contents h]
  cases newEvent found eventType' createdAt' subjects' with
  | error e => exact ⟨rfl, rfl⟩
  | ok event => exact ⟨rfl, rfl⟩

/-! ## 6. What a crash leaves -/

/-- What the beginning of an event does to a chain. -/
structure FailsClosed (found : Found) (p : Text) : Prop where
  untouched : p = [] → verify (.file (found.contents ++ p)) = verify found ∧
    ∀ eventType createdAt subjects,
      (appendEvent (.file (found.contents ++ p)) eventType createdAt subjects).1 =
          (appendEvent found eventType createdAt subjects).1 ∧
        (appendEvent (.file (found.contents ++ p)) eventType createdAt subjects).2.contents =
          (appendEvent found eventType createdAt subjects).2.contents
  reported : p ≠ [] → ∃ count head i, verify (.file (found.contents ++ p)) =
      .ok ⟨false, count, head, [lineProblem i "INVALID_JSON"]⟩ ∧
    (found.contents.Ended lineBoundaries → ∃ report, verify found = .ok report ∧
      report.eventCount = count ∧ report.headSha256 = head)
  refused : p ≠ [] → ∀ eventType createdAt subjects, ∃ problems,
    appendEvent (.file (found.contents ++ p)) eventType createdAt subjects =
      (.error (.runtimeError ("DEPLOYMENT_AUDIT_CHAIN_TAMPERED:" ++ shownProblems problems)),
        .file (found.contents ++ p))

/-- **A torn event** is not passed over, and the events before it still count. -/
theorem failsClosed_of_newEvent (h : newEvent found eventType createdAt subjects = .ok event)
    (hfloats : (PyValue.dict event.body).FloatsRead) (hpre : p <+: event.text)
    (hcut : p ≠ event.text) : FailsClosed found p := by
  refine ⟨?_, fun hne => verify_torn h hfloats hpre hne hcut, ?_⟩
  · rintro rfl
    rw [List.append_nil, verify_contents h]
    exact ⟨rfl, fun _ _ _ => appendEvent_contents h⟩
  · intro hne eventType createdAt subjects
    obtain ⟨_, _, _, htorn, -⟩ := verify_torn h hfloats hpre hne hcut
    exact ⟨_, appendEvent_of_not_verified htorn rfl⟩

end Chain

end Kripto.Deploy.AuditText
