/-
# Two writers of one collection

An append loads the file and then writes one line, and nothing keeps another process from
writing in between.  Here two processes append to one file, each by these two steps, in any
order.

* `step_step`: a writer whose steps follow each other is an append of `OnDisk.lean`;
* `both_kept_iff`: when both have returned, the file loads with both events just when one writer
  was through before the other loaded, and the payloads are plain.

Writers that overlap give their records one sequence number, and the second one breaks the chain.
-/
import Kripto.Campaign.AppendOnly
import Kripto.Campaign.OnDisk

namespace Kripto.Campaign.OnDisk

open Effect CollectionEncoding

/-! ## 1. The system -/

inductive Writer
  | one
  | other
  deriving DecidableEq

/-- The writer besides this one. -/
def Writer.peer : Writer → Writer
  | one => other
  | other => one

/-- What a writer is to append, and its clock. -/
structure Job where
  append : Append
  now : ℤ

/-- How far a writer is. -/
inductive Phase
  | start
  | loaded (record : Record) (line : Line)
  | returned (record : Record)
  | raised (e : Exc)

structure World where
  file : TextFile
  phase : Writer → Phase

def World.start (file : TextFile) : World := ⟨file, fun _ => .start⟩

/-- The order of the steps: two of each writer. -/
def Interleaving (schedule : List Writer) : Prop :=
  schedule.Perm [.one, .one, .other, .other]

instance (schedule : List Writer) : Decidable (Interleaving schedule) :=
  inferInstanceAs (Decidable (List.Perm _ _))

/-- One writer is through before the other begins. -/
def Serial (schedule : List Writer) : Prop :=
  ∃ i : Writer, schedule = [i, i, i.peer, i.peer]

theorem peer_ne (i : Writer) : i.peer ≠ i := by cases i <;> decide

theorem writer_cases (i k : Writer) : i = k ∨ i = k.peer := by
  cases i <;> cases k <;> decide

/-- Of the six orders there are three, up to which writer begins. -/
theorem interleaving_cases {schedule : List Writer} (h : Interleaving schedule) :
    ∃ i : Writer, schedule = [i, i, i.peer, i.peer] ∨ schedule = [i, i.peer, i, i.peer] ∨
      schedule = [i, i.peer, i.peer, i] := by
  have hlength := h.length_eq
  match schedule, hlength with
  | [a, b, c, d], _ =>
    refine ⟨a, ?_⟩
    unfold Interleaving at h
    revert h
    cases a <;> cases b <;> cases c <;> cases d <;> decide

section Steps

variable [PyRuntime] [CollectionEncoding] [PythonEncoding]

/-- What comes of loading: the record and its line, or an exception. -/
def Job.load (job : Job) (file : TextFile) : Except Exc (Record × Line) :=
  job.append.record file.view job.now >>= hashedLine

/-- One step of a writer: it loads the file, or it writes its line. -/
def World.step (jobs : Writer → Job) (w : World) (i : Writer) : World :=
  match w.phase i with
  | .start =>
    match (jobs i).load w.file with
    | .ok (record, line) => ⟨w.file, Function.update w.phase i (.loaded record line)⟩
    | .error e => ⟨w.file, Function.update w.phase i (.raised e)⟩
  | .loaded record line => ⟨w.file.write line, Function.update w.phase i (.returned record)⟩
  | .returned _ => w
  | .raised _ => w

def World.run (jobs : Writer → Job) (w : World) (schedule : List Writer) : World :=
  schedule.foldl (World.step jobs) w

def World.Returned (w : World) : Prop := ∀ i, ∃ record, w.phase i = .returned record

/-- There is a key with which the file loads at every later time, and its last two rows are of
the two events. -/
def KeepsBoth (jobs : Writer → Job) (file : TextFile) : Prop :=
  ∃ telemetryKey, ∀ later, (∀ i, (jobs i).now ≤ later) → ∃ rows row row' i,
    loadCollection file.view telemetryKey later = .ok (rows ++ [row, row']) ∧
      (jobs i).append.IsEventOf row ∧ (jobs i.peer).append.IsEventOf row'

/-! ## 2. Steps -/

variable {jobs : Writer → Job} {w : World} {i : Writer} {record record' : Record}
  {line line' : Line} {file : TextFile}

theorem step_load (hphase : w.phase i = .start) (h : (jobs i).load w.file = .ok (record, line)) :
    w.step jobs i = ⟨w.file, Function.update w.phase i (.loaded record line)⟩ := by
  simp only [World.step, hphase, h]

theorem step_refused {e : Exc} (hphase : w.phase i = .start)
    (h : (jobs i).load w.file = .error e) :
    w.step jobs i = ⟨w.file, Function.update w.phase i (.raised e)⟩ := by
  simp only [World.step, hphase, h]

theorem step_write (hphase : w.phase i = .loaded record line) :
    w.step jobs i = ⟨w.file.write line, Function.update w.phase i (.returned record)⟩ := by
  simp only [World.step, hphase]

theorem step_raised {e : Exc} (hphase : w.phase i = .raised e) : w.step jobs i = w := by
  simp only [World.step, hphase]

theorem step_frame {j : Writer} (h : j ≠ i) : (w.step jobs i).phase j = w.phase j := by
  unfold World.step
  split
  · split <;> simp [h]
  · simp [h]
  · rfl
  · rfl

/-- Whoever has raised does not return. -/
theorem run_raised {e : Exc} (jobs : Writer → Job) (hphase : w.phase i = .raised e)
    (schedule : List Writer) : (w.run jobs schedule).phase i = .raised e := by
  induction schedule generalizing w with
  | nil => exact hphase
  | cons j schedule ih =>
    refine ih ?_
    by_cases hij : i = j
    · subst hij
      rwa [step_raised hphase]
    · rwa [step_frame hij]

/-- Whoever returns has loaded the file. -/
theorem exists_load (hphase : w.phase i = .start) {schedule : List Writer}
    (h : (w.run jobs (i :: schedule)).Returned) :
    ∃ record line, (jobs i).load w.file = .ok (record, line) ∧
      w.step jobs i = ⟨w.file, Function.update w.phase i (.loaded record line)⟩ := by
  cases hload : (jobs i).load w.file with
  | error e =>
    obtain ⟨record, hrecord⟩ := h i
    have hraised : (w.step jobs i).phase i = .raised e := by
      rw [step_refused hphase hload]
      exact Function.update_self ..
    rw [World.run, List.foldl_cons] at hrecord
    have hstays := run_raised jobs hraised schedule
    rw [World.run, hrecord] at hstays
    cases hstays
  | ok out => exact ⟨out.1, out.2, rfl, step_load hphase hload⟩

/-- What is left when one writer was through before the other began. -/
theorem run_serial (h : ((World.start file).run jobs [i, i, i.peer, i.peer]).Returned) :
    ∃ record line record' line', (jobs i).load file = .ok (record, line) ∧
      (jobs i.peer).load (file.write line) = .ok (record', line') ∧
      ((World.start file).run jobs [i, i, i.peer, i.peer]).file =
        (file.write line).write line' := by
  obtain ⟨record, line, hload, hstep⟩ := exists_load rfl h
  have hrun : (World.start file).run jobs [i, i, i.peer, i.peer] =
      World.run jobs ⟨file.write line, Function.update (Function.update (fun _ => .start) i
        (.loaded record line)) i (.returned record)⟩ [i.peer, i.peer] := by
    rw [World.run, List.foldl_cons, hstep, List.foldl_cons, step_write (Function.update_self ..)]
    rfl
  rw [hrun] at h ⊢
  have hstart : Function.update (Function.update (fun _ => Phase.start) i (.loaded record line)) i
      (.returned record) i.peer = .start := by
    simp [peer_ne]
  obtain ⟨record', line', hload', hstep'⟩ := exists_load hstart h
  refine ⟨record, line, record', line', hload, hload', ?_⟩
  rw [World.run, List.foldl_cons, hstep', List.foldl_cons, step_write (Function.update_self ..)]
  rfl

/-- Both have loaded the same file. -/
theorem run_loads {schedule : List Writer}
    (h : ((World.start file).run jobs (i :: i.peer :: schedule)).Returned) :
    ∃ record line record' line', (jobs i).load file = .ok (record, line) ∧
      (jobs i.peer).load file = .ok (record', line') ∧
      (World.start file).run jobs (i :: i.peer :: schedule) =
        World.run jobs ⟨file, Function.update (Function.update (fun _ => .start) i
          (.loaded record line)) i.peer (.loaded record' line')⟩ schedule := by
  obtain ⟨record, line, hload, hstep⟩ := exists_load rfl h
  have hrun : (World.start file).run jobs (i :: i.peer :: schedule) =
      World.run jobs ⟨file, Function.update (fun _ => .start) i (.loaded record line)⟩
        (i.peer :: schedule) := by
    rw [World.run, List.foldl_cons, hstep]
    rfl
  rw [hrun] at h ⊢
  have hstart : Function.update (fun _ => Phase.start) i (.loaded record line) i.peer = .start := by
    simp [peer_ne]
  obtain ⟨record', line', hload', hstep'⟩ := exists_load hstart h
  refine ⟨record, line, record', line', hload, hload', ?_⟩
  rw [World.run, List.foldl_cons, hstep']
  rfl

/-- What is left when both loaded before either wrote: the lines of two records for one file. -/
theorem run_overlapping {schedule : List Writer}
    (hschedule : schedule = [i, i.peer, i, i.peer] ∨ schedule = [i, i.peer, i.peer, i])
    (h : ((World.start file).run jobs schedule).Returned) :
    ∃ k record line record' line', (jobs k).load file = .ok (record, line) ∧
      (jobs k.peer).load file = .ok (record', line') ∧
      ((World.start file).run jobs schedule).file = (file.write line).write line' := by
  have hpeer : i.peer.peer = i := by cases i <;> rfl
  rcases hschedule with rfl | rfl
  · obtain ⟨record, line, record', line', hload, hload', hrun⟩ := run_loads h
    refine ⟨i, record, line, record', line', hload, hload', ?_⟩
    have hfirst : Function.update (Function.update (fun _ => Phase.start) i (.loaded record line))
        i.peer (.loaded record' line') i = .loaded record line := by
      simp [(peer_ne i).symm]
    have hsecond : Function.update (Function.update (Function.update (fun _ => Phase.start) i
        (.loaded record line)) i.peer (.loaded record' line')) i (.returned record) i.peer =
        .loaded record' line' := by
      simp [peer_ne]
    rw [hrun, World.run, List.foldl_cons, step_write hfirst, List.foldl_cons, step_write hsecond]
    rfl
  · obtain ⟨record, line, record', line', hload, hload', hrun⟩ := run_loads h
    refine ⟨i.peer, record', line', record, line, hload', by rw [hpeer]; exact hload, ?_⟩
    have hsecond : Function.update (Function.update (Function.update (fun _ => Phase.start) i
        (.loaded record line)) i.peer (.loaded record' line')) i.peer (.returned record') i =
        .loaded record line := by
      simp [(peer_ne i).symm]
    rw [hrun, World.run, List.foldl_cons, step_write (Function.update_self ..), List.foldl_cons,
      step_write hsecond]
    rfl

/-- Writers that could both append to the file return when they overlap. -/
theorem returned_overlapping (hload : (jobs i).load file = .ok (record, line))
    (hload' : (jobs i.peer).load file = .ok (record', line')) :
    ((World.start file).run jobs [i, i.peer, i, i.peer]).Returned := by
  have hne := peer_ne i
  have hstart : Function.update (fun _ => Phase.start) i (.loaded record line) i.peer = .start := by
    simp [hne]
  have hfirst : Function.update (Function.update (fun _ => Phase.start) i (.loaded record line))
      i.peer (.loaded record' line') i = .loaded record line := by
    simp [hne.symm]
  have hsecond : Function.update (Function.update (Function.update (fun _ => Phase.start) i
      (.loaded record line)) i.peer (.loaded record' line')) i (.returned record) i.peer =
      .loaded record' line' := by
    simp [hne]
  rw [World.run, List.foldl_cons, World.start, step_load rfl hload, List.foldl_cons,
    step_load hstart hload', List.foldl_cons, step_write hfirst, List.foldl_cons,
    step_write hsecond]
  intro k
  rcases writer_cases k i with rfl | rfl
  · exact ⟨record, by simp [hne.symm]⟩
  · exact ⟨record', by simp⟩

/-! ## 3. What loads -/

variable {lines : File} {a : Append} {p row r : Payload} {now : ℤ} {hashed : Record}
  {telemetryKey : Option String} {st st' : Loading} {rows : List LoadedRow} {n : ℕ}

/-- A plain append that gets as far as its write writes the record of its entry. -/
theorem append_of_load (hp : fieldsToValue p = a.payload)
    (h : a.record lines now >>= hashedLine = .ok (hashed, line)) :
    ∃ r, line = .record r ∧
      (a.entry p now).append lines a.loadKey = (.ok r, lines ++ [.record r]) := by
  rw [record_plain lines hp] at h
  rw [Entry.append, Append.entry_recordedAt]
  cases hentry : (a.entry p now).precheck >>= fun _ =>
      loadCollection lines a.loadKey now >>= (a.entry p now).recordAfter with
  | error e =>
    rw [hentry] at h
    cases h
  | ok record =>
    rw [hentry] at h
    have hline : hashedLine (ofJson record) = .ok (hashed, line) := h
    rw [hashedLine_ofJson] at hline
    cases hline
    exact ⟨Campaign.hashed record, rfl, rfl⟩

omit [PythonEncoding] in
theorem not_load_of_invalid (h : Line.invalid ∈ lines) :
    loadCollection lines telemetryKey now ≠ .ok rows := by
  intro hload
  obtain ⟨st, hst, -⟩ := loadCollection_eq_ok hload
  rw [(loading_of_loadRows hst).file, List.mem_map] at h
  obtain ⟨row, -, hrow⟩ := h
  cases hrow

omit [PythonEncoding] in
/-- Each record of a file that loads is numbered by its place. -/
theorem sequence_at (h : loadRows telemetryKey now lines = .ok st)
    (hn : lines[n]? = some (.record row)) :
    sameValue (row.lookup "sequence") (some (.int n)) = true := by
  obtain ⟨before, after, hlength, hrow⟩ := loadRow_at h hn
  obtain ⟨row', t, verified, hline, hchain, -⟩ := loadRow_eq_ok hrow
  obtain rfl : row = row' := by simpa using hline
  simp only [checkChain, bind_eq_ok_iff, raiseIf_eq_ok_iff, not_or, not_not] at hchain
  obtain ⟨_, -, _, ⟨hsequence, -⟩, -⟩ := hchain
  rwa [hlength] at hsequence

omit [CollectionEncoding] [PythonEncoding] in
theorem sameValue_int_iff {m n : ℤ} :
    sameValue (some (.int m)) (some (.int n)) = true ↔ n = m := by
  have heqv : (Json.int m).eqv (.int n) = Json.eqv.numbersEqv (.int m) (.int n) := by
    rw [Json.eqv] <;> simp
  rw [sameValue, heqv, Json.eqv.numbersEqv, Json.number, Json.number]
  simp

omit [PythonEncoding] in
/-- An event is loaded as attested just if it is acceptance-eligible. -/
theorem loadRow_verified (hrows : st.rows ≠ [])
    (h : loadRow telemetryKey now st (.record row) = .ok st') :
    st'.rows = st.rows ++ [⟨row, isBool (row.lookup "acceptance_eligible") true⟩] := by
  simp only [loadRow, bind_eq_ok_iff] at h
  obtain ⟨row', hrow, t, -, hnext⟩ := h
  obtain rfl : row = row' := by simpa [objectOf] using hrow
  rw [if_neg hrows, bind_eq_ok_iff] at hnext
  obtain ⟨verified, hevent, hst⟩ := hnext
  simp only [checkEvent, bind_eq_ok_iff] at hevent
  obtain ⟨_, -, _, -, payload, -, _, -, observedAt, -, _, -, hprovenance⟩ := hevent
  have hverified : verified = isBool (row.lookup "acceptance_eligible") true := by
    unfold checkProvenance at hprovenance
    split at hprovenance
    · rename_i heligible
      rw [bind_eq_ok_iff] at hprovenance
      obtain ⟨_, -, hkey⟩ := hprovenance
      split at hkey
      · cases hkey
      · simp only [bind_eq_ok_iff, pure_eq_ok, Except.ok.injEq] at hkey
        obtain ⟨_, -, _, -, _, -, rfl⟩ := hkey
        exact heligible.symm
    · rename_i heligible
      simp only [bind_eq_ok_iff, pure_eq_ok, Except.ok.injEq] at hprovenance
      obtain ⟨_, -, rfl⟩ := hprovenance
      exact (Bool.eq_false_iff.mpr heligible).symm
  rw [pure_eq_ok, Except.ok.injEq] at hst
  rw [← hst, hverified]

/-! ## 4. When both events are kept -/

/-- A plain writer's line, and what its record says. -/
theorem line_of_load {rest : Option Line} (hp : fieldsToValue p = a.payload)
    (h : a.record (TextFile.view ⟨lines, rest⟩) now >>= hashedLine = .ok (hashed, line)) :
    ∃ r rows, line = .record r ∧
      loadCollection (TextFile.view ⟨lines, rest⟩) a.loadKey now = .ok rows ∧
      (a.entry p now).Follows rows r := by
  obtain ⟨r, hline, happend⟩ := append_of_load hp h
  have hproducer :
      (a.entry p now).key = none → (a.entry p now).producer = UNATTESTED_PRODUCER := by
    rw [Append.entry_key, Append.entry_producer]
    exact a.producer_of_key
  obtain ⟨rows, record, hpre, hload, hafter, rfl, -⟩ := append_eq_ok_iff.mp happend
  rw [Append.entry_recordedAt] at hload
  exact ⟨_, rows, hline, hload, (Entry.follows_of_recordAfter hafter hpre hproducer).1⟩

omit [PythonEncoding] in
/-- The last row of a file is of its last record. -/
theorem rows_of_load_append {b : Bool} (hrow : row.lookup "acceptance_eligible" = some (.bool b))
    (hlines : lines ≠ [])
    (h : loadCollection (lines ++ [.record row]) telemetryKey now = .ok rows) :
    ∃ old, rows = old ++ [⟨row, b⟩] := by
  obtain ⟨st', hst', rfl⟩ := loadCollection_eq_ok h
  rw [loadRows_append, bind_eq_ok_iff] at hst'
  obtain ⟨st, hst, hlast⟩ := hst'
  have hrows : st.rows ≠ [] := by
    intro hempty
    apply hlines
    rw [(loading_of_loadRows hst).file, hempty]
    rfl
  refine ⟨st.rows, ?_⟩
  rw [loadRow_verified hrows hlast, hrow]
  cases b <;> rfl

/-- **Writers one after the other** keep both events. -/
theorem keepsBoth_serial (h : ((World.start file).run jobs [i, i, i.peer, i.peer]).Returned)
    (hplain : ∀ i, Plain (jobs i).append.payload) :
    KeepsBoth jobs ((World.start file).run jobs [i, i, i.peer, i.peer]).file := by
  obtain ⟨record, line, record', line', hload, hload', hfile⟩ := run_serial h
  have hready : (jobs i).append.Ready file (jobs i).now := ⟨record, line, hload⟩
  have hready' : (jobs i.peer).append.Ready (file.write line) (jobs i.peer).now :=
    ⟨record', line', hload'⟩
  obtain ⟨rows₀, hrows₀⟩ := hready.load
  obtain ⟨rows₁, hrows₁⟩ := hready'.load
  obtain ⟨lines, rest⟩ := file
  rcases rest_of_load hrows₀ with hnone | ⟨row₀, hrow₀⟩
  · obtain rfl : rest = none := hnone
    have hwrite (line : Line) (lines : File) :
        TextFile.write ⟨lines, none⟩ line = ⟨lines ++ [line], none⟩ := rfl
    have hview (lines : File) : TextFile.view ⟨lines, none⟩ = lines := List.append_nil lines
    rw [hwrite] at hfile hload' hready' hrows₁
    obtain ⟨p, hp⟩ := hplain i
    obtain ⟨p', hp'⟩ := hplain i.peer
    obtain ⟨r, rows, rfl, hrows, hfollows⟩ := line_of_load hp hload
    rw [Job.load, hview] at hload'
    obtain ⟨r', rfl, happend'⟩ := append_of_load hp' hload'
    rw [hview] at hrows₁ hrows
    -- the second writer has loaded the first one's record
    have hlines : lines ≠ [] := by
      rintro rfl
      cases hrows
    obtain ⟨old, rfl⟩ := rows_of_load_append hfollows.eligible hlines hrows₁
    refine ⟨(jobs i.peer).append.loadKey, fun later hlater => ?_⟩
    obtain ⟨row', hrow', hleft⟩ := closed_of_entry hp' happend' _ {} _
      (Append.verifiable_loadKey _) (by rwa [hview]) later (hlater i.peer)
    have hrow : (jobs i).append.IsEventOf ⟨r, _⟩ :=
      isEventOf_of_describes hp hfollows.toDescribes rfl
    rw [Append.entry_key] at hleft
    refine ⟨old, _, row', i, ?_, hrow, hrow'⟩
    rw [hfile, hwrite]
    simpa using hleft
  · obtain rfl : rest = some (.record row₀) := hrow₀
    refine absurd hrows₁ (not_load_of_invalid ?_)
    simp [TextFile.view, TextFile.write, TextFile.glue]

/-- **Writers that overlap** keep at most one event. -/
theorem not_keepsBoth_overlapping {schedule : List Writer}
    (hschedule : schedule = [i, i.peer, i, i.peer] ∨ schedule = [i, i.peer, i.peer, i])
    (h : ((World.start file).run jobs schedule).Returned)
    (hplain : ∀ i, Plain (jobs i).append.payload) :
    ¬ KeepsBoth jobs ((World.start file).run jobs schedule).file := by
  obtain ⟨k, record, line, record', line', hload, hload', hfile⟩ := run_overlapping hschedule h
  rintro ⟨telemetryKey, hkeeps⟩
  obtain ⟨rows, row, row', -, hleft, -, -⟩ :=
    hkeeps (max (jobs .one).now (jobs .other).now) (by intro i; cases i <;> simp)
  rw [hfile] at hleft
  obtain ⟨lines, rest⟩ := file
  cases rest with
  | some last =>
    have hready : (jobs k).append.Ready ⟨lines, some last⟩ (jobs k).now :=
      ⟨record, line, hload⟩
    obtain ⟨rows₀, hrows₀⟩ := hready.load
    rcases rest_of_load hrows₀ with hnone | ⟨row₀, hrow₀⟩
    · cases hnone
    · obtain rfl : last = .record row₀ := by simpa using hrow₀
      refine not_load_of_invalid ?_ hleft
      simp [TextFile.view, TextFile.write, TextFile.glue]
  | none =>
    obtain ⟨p, hp⟩ := hplain k.peer
    obtain ⟨r, rows₀, rfl, hrows₀, hfollows⟩ := line_of_load hp hload'
    have hview : ((TextFile.mk lines none).write line).write (.record r) =
        ⟨lines ++ [line, .record r], none⟩ := by
      simp [TextFile.write, TextFile.glue]
    obtain ⟨st, hst, -⟩ := loadCollection_eq_ok hleft
    have hlast : (TextFile.view ⟨lines ++ [line, .record r], none⟩)[lines.length + 1]? =
        some (.record r) := by
      simp [TextFile.view]
    rw [hview] at hst
    have hsequence := sequence_at hst hlast
    have hlength : rows₀.length = lines.length := by
      obtain ⟨st₀, hst₀, rfl⟩ := loadCollection_eq_ok hrows₀
      simpa [TextFile.view] using (congrArg List.length (loading_of_loadRows hst₀).file).symm
    rw [hfollows.sequence, sameValue_int_iff] at hsequence
    omega

/-- **When both writers have returned**, both events are kept just when one writer was through
before the other loaded, and the payloads are plain. -/
theorem both_kept_iff (jobs : Writer → Job) (file : TextFile) (schedule : List Writer)
    (horder : Interleaving schedule) (h : ((World.start file).run jobs schedule).Returned) :
    KeepsBoth jobs ((World.start file).run jobs schedule).file ↔
      Serial schedule ∧ ∀ i, Plain (jobs i).append.payload := by
  constructor
  · intro hkeeps
    have hplain : ∀ i, Plain (jobs i).append.payload := by
      obtain ⟨telemetryKey, hkeys⟩ := hkeeps
      obtain ⟨-, row, row', k, -, hrow, hrow'⟩ :=
        hkeys (max (jobs .one).now (jobs .other).now) (by intro i; cases i <;> simp)
      obtain ⟨p, -, hp⟩ := hrow.payload
      obtain ⟨p', -, hp'⟩ := hrow'.payload
      intro i
      rcases writer_cases i k with rfl | rfl
      · exact ⟨p, hp⟩
      · exact ⟨p', hp'⟩
    refine ⟨?_, hplain⟩
    obtain ⟨i, hserial | hoverlap⟩ := interleaving_cases horder
    · exact ⟨i, hserial⟩
    · exact absurd hkeeps (not_keepsBoth_overlapping hoverlap h hplain)
  · rintro ⟨⟨i, rfl⟩, hplain⟩
    exact keepsBoth_serial h hplain

end Steps

/-! ## 5. Two writers at once -/

attribute [local instance] plainRuntime bytesEncoding plainPython

/-- Two events to be appended. -/
def twoEvents : Writer → Job
  | .one => ⟨audit "private_reconnect", 1⟩
  | .other => ⟨audit "private_event", 1⟩

theorem privateEvent_sound : ((audit "private_event").entry [] 1).Sound := by
  constructor <;> decide

theorem twoEvents_returned :
    ((World.start ⟨[.record header], none⟩).run twoEvents
      [.one, .other, .one, .other]).Returned := by
  have hready : (audit "private_reconnect").Ready ⟨[.record header], none⟩ 1 :=
    audit_ready reconnect_sound rfl
  have hready' : (audit "private_event").Ready ⟨[.record header], none⟩ 1 :=
    audit_ready privateEvent_sound rfl
  obtain ⟨record, line, hload⟩ := hready
  obtain ⟨record', line', hload'⟩ := hready'
  exact returned_overlapping (i := .one) hload hload'

theorem both_kept_iff_twoEvents :
    KeepsBoth twoEvents ((World.start ⟨[.record header], none⟩).run twoEvents
        [.one, .other, .one, .other]).file ↔
      Serial [.one, .other, .one, .other] ∧ ∀ i, Plain (twoEvents i).append.payload :=
  both_kept_iff twoEvents ⟨[.record header], none⟩ [.one, .other, .one, .other] (by decide)
    twoEvents_returned

/-- **Two writers that both load before they write** return, and the file does not load with
both events. -/
theorem overlapping_not_kept :
    ((World.start ⟨[.record header], none⟩).run twoEvents
        [.one, .other, .one, .other]).Returned ∧
      ¬ KeepsBoth twoEvents ((World.start ⟨[.record header], none⟩).run twoEvents
        [.one, .other, .one, .other]).file := by
  have hplain : ∀ i, Plain (twoEvents i).append.payload := by
    rintro (i | i) <;> exact ⟨[], rfl⟩
  exact ⟨twoEvents_returned,
    not_keepsBoth_overlapping (i := .one) (.inl rfl) twoEvents_returned hplain⟩

end Kripto.Campaign.OnDisk
