/-
# The operation lock of a deployment directory

`scripts/operation_lock.py`.  A process that wants to change a deployment creates one lock file,
exclusively, refreshes it from a second thread while it works, and removes it.  A lock whose owner
is gone may be removed by somebody else, who reads it, finds out about its owner, reads it again
and unlinks whatever is there.

The programs come first, then what the operating system and the other processes do with their
operations.  Seconds are rational numbers.  A field of a lock file that is missing or not of its
type is an empty text, or zero: the checks treat these alike.
-/
import Kripto.Effect.Pool
import Mathlib.Algebra.Order.Ring.Rat

namespace Kripto.Deploy.OperationLock

open Effect

/-! ## 1. Lock files and operations -/

/-- A field that `float` is applied to. -/
inductive Epoch
  | missing
  | unreadable
  | nonfinite
  | at_ (seconds : ℚ)
  deriving DecidableEq

/-- What is in a lock file. -/
structure Payload where
  schemaVersion : String
  classification : String
  token : String
  operation : String
  pid : ℤ
  hostname : String
  bootIdentity : String
  processStartIdentity : String
  createdEpoch : Epoch
  heartbeatEpoch : Epoch
  deriving DecidableEq

inductive Raised
  | runtimeError (code : String)
  | fileExistsError
  | fileNotFoundError
  | processLookupError
  | osError
  | exception (type : String)
  | interrupt
  deriving DecidableEq

namespace Raised

/-- `except OSError`. -/
def isOSError : Raised → Bool
  | fileExistsError | fileNotFoundError | processLookupError | osError => true
  | _ => false

/-- `except Exception`. -/
def isException (e : Raised) : Bool := e ≠ interrupt

/-- `type(exc).__name__`. -/
def typeName : Raised → String
  | runtimeError _ => "RuntimeError"
  | fileExistsError => "FileExistsError"
  | fileNotFoundError => "FileNotFoundError"
  | processLookupError => "ProcessLookupError"
  | osError => "OSError"
  | exception type => type
  | interrupt => "KeyboardInterrupt"

end Raised

/-- What is asked of the system around, and of files nobody else looks at: is the directory safe;
the own pid; the host name; the boot id file, stripped; the boot time and the creation time of a
process by psutil, as text; the fields of `/proc/<pid>/stat` behind the command; the instance id of
the interpreter; a signal 0; the time, if it is finite; the next floating point number, if there is
one; the directory of the lock; the temporary file of a replacement. -/
inductive Ask
  | directorySafe
  | getpid
  | hostname
  | bootIdFile
  | bootTime
  | createTime (pid : ℤ)
  | statFields (pid : ℤ)
  | instanceId
  | kill (pid : ℤ)
  | time
  | nextafter (epoch : ℚ)
  | mkdir
  | openTemp
  | writeTemp
  | unlinkTemp

abbrev Ask.Answer : Ask → Type
  | .directorySafe => Bool
  | .getpid => ℤ
  | .hostname => String
  | .bootIdFile => String
  | .bootTime => String
  | .createTime _ => String
  | .statFields _ => List String
  | .instanceId => String
  | .kill _ => Unit
  | .time => Option ℚ
  | .nextafter _ => Option ℚ
  | .mkdir => Unit
  | .openTemp => Unit
  | .writeTemp => Unit
  | .unlinkTemp => Unit

/-- The identity an answer comes to. -/
def Ask.identity : (q : Ask) → q.Answer → Option String
  | .bootIdFile, value => if value = "" then none else some ("linux-boot-id:" ++ value)
  | .bootTime, seconds => some ("psutil-boot-time:" ++ seconds)
  | .createTime _, seconds => some ("psutil-create-time:" ++ seconds)
  | .statFields _, fields => fields[19]?.map ("proc-start-ticks:" ++ ·)
  | .instanceId, nonce => some ("process-instance:" ++ nonce)
  | _, _ => none

/-- Why the lock file is unlinked: it was found stale, with this token; it is one's own; it could
not be written. -/
inductive Removal
  | stale (token : String)
  | own
  | unwritten
  deriving DecidableEq

/-- The heartbeat thread of a lock: not there, between two refreshes, or in one. -/
inductive Beat
  | off
  | resting
  | refreshing
  deriving DecidableEq

/-- What is known of the heartbeat thread after `join`. -/
structure Joined where
  running : Bool
  error : Option String

/-- `readText` parses what it reads; `none` is a text that does not parse.  `stop` stops and joins
a heartbeat thread, `wake` and `settle` are its moves.  `enter` and `leave` are the two ends of the
with-body. -/
inductive Op
  | ask (q : Ask)
  | present
  | readText
  | openExcl
  | write (p : Payload)
  | replace (p : Payload)
  | unlink (why : Removal)
  | uuid4
  | wake (token : String)
  | settle (token : String) (b : Beat)
  | stop (token : String)
  | enter (token : String)
  | leave

abbrev lockSig : Sig where
  Op := Op
  Val o := match o with
    | .ask q => q.Answer
    | .present => Bool
    | .readText => Option Payload
    | .uuid4 => String
    | .stop _ => Joined
    | _ => Unit
  Exc := Raised

abbrev Program (α : Type) : Type := Prog lockSig α

def perform (o : Op) : Program (lockSig.Val o) := Prog.perform (S := lockSig) o

def ask (q : Ask) : Program q.Answer := perform (.ask q)

def raiseError {α : Type} (code : String) : Program α := .raise (.runtimeError code)

/-- `try: p` / `except FileNotFoundError: pass`. -/
def tolerate (p : Program Unit) : Program Unit :=
  p.tryCatch fun e => if e = .fileNotFoundError then pure () else .raise e

/-! ## 2. Who is it? -/

/-- One way to an identity, and the exceptions that mean it is not open. -/
def probe (closed : Raised → Bool) (q : Ask) : Program (Option String) :=
  (do let a ← ask q; pure (q.identity a)).tryCatch fun e =>
    if closed e then pure none else .raise e

def bootIdentity : Program (Option String) := do
  let linux ← probe Raised.isOSError .bootIdFile
  if linux.isSome then pure linux else probe Raised.isException .bootTime

def processStartIdentity (pid : ℤ) : Program (Option String) := do
  let created ← probe Raised.isException (.createTime pid)
  if created.isSome then pure created
  else do
    let ticks ← probe Raised.isOSError (.statFields pid)
    if ticks.isSome then pure ticks
    else do
      let own : ℤ ← ask .getpid
      if pid = own then do
        let nonce : String ← ask .instanceId
        pure (Ask.identity .instanceId nonce)
      else pure none

def pidAlive (pid : ℤ) : Program Bool := do
  let own : ℤ ← ask .getpid
  if pid = own then pure true
  else (do ask (.kill pid); pure true).tryCatch fun e =>
    if e = Raised.processLookupError then pure false
    else if Raised.isOSError e then pure true
    else .raise e

inductive OwnerState
  | alive
  | deadLegacy
  | remoteUnverifiable
  | bootIdentityUnverifiable
  | priorBoot
  | dead
  | processIdentityUnverifiable
  | pidReused
  deriving DecidableEq

/-- The owner of a lock that is not of an older schema and of this host. -/
def localOwnerState (p : Payload) : Program OwnerState := do
  let boot ← bootIdentity
  match boot with
  | none => pure .bootIdentityUnverifiable
  | some boot =>
    if p.bootIdentity ≠ boot then pure .priorBoot
    else do
      let alive ← pidAlive p.pid
      if alive then do
        let start ← processStartIdentity p.pid
        match start with
        | none => pure .processIdentityUnverifiable
        | some start => pure (if start ≠ p.processStartIdentity then .pidReused else .alive)
      else pure .dead

def ownerState (p : Payload) : Program OwnerState :=
  if p.schemaVersion = "1.0" then do
    let alive ← pidAlive p.pid
    pure (if alive then .alive else .deadLegacy)
  else do
    let host : String ← ask .hostname
    if p.hostname ≠ host then pure .remoteUnverifiable else localOwnerState p

/-! ## 3. Reading and writing the lock -/

/-- The first check of `_read_lock` that a file fails. -/
def contractError (p : Payload) : Option String :=
  if p.schemaVersion ≠ "1.0" ∧ p.schemaVersion ≠ "1.1" ∨
      p.classification ≠ "PLATFORM_OPERATION_LOCK" then
    some "OPERATION_LOCK_CONTRACT_INVALID"
  else if p.token = "" then some "OPERATION_LOCK_TOKEN_INVALID"
  else if p.pid ≤ 0 then some "OPERATION_LOCK_PID_INVALID"
  else if p.schemaVersion = "1.1" then
    if p.hostname = "" then some "OPERATION_LOCK_HOSTNAME_INVALID"
    else if p.bootIdentity = "" then some "OPERATION_LOCK_BOOT_IDENTITY_INVALID"
    else if p.processStartIdentity = "" then some "OPERATION_LOCK_PROCESS_START_IDENTITY_INVALID"
    else none
  else none

def checked (found : Option Payload) : Program Payload :=
  match found with
  | none => raiseError "OPERATION_LOCK_INVALID:JSONDecodeError"
  | some p => match contractError p with
    | some code => raiseError code
    | none => pure p

def readLock : Program Payload := do
  let there : Bool ← perform .present
  if there then do
    let found : Option Payload ← (perform .readText).tryCatch fun e =>
      if e.isException then raiseError ("OPERATION_LOCK_INVALID:" ++ e.typeName) else .raise e
    checked found
  else raiseError "OPERATION_LOCK_UNSAFE"

def atomicCreateJson (p : Payload) : Program Unit := do
  ask .mkdir
  perform .openExcl
  (perform (.write p)).tryCatch fun e => do
    tolerate (perform (.unlink .unwritten))
    .raise e

def atomicReplaceJson (p : Payload) : Program Unit := do
  let there : Bool ← perform .present
  if there then do
    ask .openTemp
    (do ask .writeTemp; perform (.replace p)).tryCatch fun e => do
      tolerate (ask .unlinkTemp)
      .raise e
  else raiseError "OPERATION_LOCK_UNSAFE"

def wallClockEpoch : Program ℚ := do
  let now : Option ℚ ← ask .time
  match now with
  | some seconds => pure seconds
  | none => raiseError "OPERATION_LOCK_CLOCK_INVALID"

/-- The latest heartbeat, which is the creation where there is none; `code` if `float` raises. -/
def leaseEpoch (code : String) (p : Payload) : Program ℚ :=
  let heartbeat := if p.heartbeatEpoch = .missing then p.createdEpoch else p.heartbeatEpoch
  match p.createdEpoch, heartbeat with
  | .at_ created, .at_ lease =>
    if lease < created then raiseError "OPERATION_LOCK_HEARTBEAT_EPOCH_INVALID" else pure lease
  | .missing, _ | .unreadable, _ | _, .unreadable => raiseError code
  | _, _ => raiseError "OPERATION_LOCK_HEARTBEAT_EPOCH_INVALID"

/-! ## 4. Recovery -/

inductive Recovery
  | noLock
  | staleLockRemoved (token : String) (age : ℚ) (state : OwnerState)

/-- The error of an owner state that is not to be recovered from. -/
def OwnerState.kept : OwnerState → Option String
  | .alive => some "OPERATION_LOCK_OWNER_STILL_ALIVE"
  | .remoteUnverifiable => some "OPERATION_LOCK_OWNER_REMOTE_UNVERIFIABLE"
  | .bootIdentityUnverifiable => some "OPERATION_LOCK_OWNER_BOOT_IDENTITY_UNVERIFIABLE"
  | .processIdentityUnverifiable => some "OPERATION_LOCK_OWNER_PROCESS_IDENTITY_UNVERIFIABLE"
  | _ => none

/-- The lock is read again, and what is there is unlinked. -/
def removeStale (p : Payload) (age : ℚ) (state : OwnerState) : Program Recovery := do
  let current ← readLock
  if current.token ≠ p.token then raiseError "OPERATION_LOCK_STALE_RECOVERY_OWNERSHIP_CHANGED"
  else do
    perform (.unlink (.stale p.token))
    pure (.staleLockRemoved p.token age state)

/-- A lock that has been read, and whose owner is being looked for. -/
def recoverFrom (minimumAge : ℚ) (p : Payload) : Program Recovery := do
  let state ← ownerState p
  match state.kept with
  | some code => raiseError code
  | none => do
    let lease ← leaseEpoch "OPERATION_LOCK_CREATED_EPOCH_INVALID" p
    let now ← wallClockEpoch
    if now - lease < minimumAge then raiseError "OPERATION_LOCK_STALE_AGE_NOT_REACHED"
    else removeStale p (now - lease) state

def recoverStaleLock (minimumAge : ℚ) : Program Recovery := do
  let there : Bool ← perform .present
  if there then do
    let p ← readLock
    recoverFrom minimumAge p
  else pure .noLock

/-! ## 5. The heartbeat -/

def nextHeartbeatEpoch (p : Payload) : Program ℚ := do
  let previous ← leaseEpoch "OPERATION_LOCK_HEARTBEAT_EPOCH_INVALID" p
  let now ← wallClockEpoch
  let after : Option ℚ ← ask (.nextafter previous)
  match after with
  | some after => pure (max now after)
  | none => raiseError "OPERATION_LOCK_HEARTBEAT_EPOCH_EXHAUSTED"

/-- Is the lock still the one that was created? -/
def stillOwn (p : Payload) (token boot start : String) : Program Unit :=
  if p.token ≠ token then raiseError "OPERATION_LOCK_OWNERSHIP_LOST"
  else if p.bootIdentity ≠ boot ∨ p.processStartIdentity ≠ start then
    raiseError "OPERATION_LOCK_OWNER_IDENTITY_CHANGED"
  else pure ()

def refreshHeartbeat (token boot start : String) : Program Unit := do
  let current ← readLock
  stillOwn current token boot start
  let now ← nextHeartbeatEpoch current
  atomicReplaceJson { current with heartbeatEpoch := .at_ now }

/-- One turn of `_heartbeat_worker`, or a call of `heartbeat` by the body. -/
def heartbeatTurn (token boot start : String) : Program Unit := do
  perform (.wake token)
  let outcome ← (refreshHeartbeat token boot start).attempt
  match outcome with
  | .ok _ => perform (.settle token .resting)
  | .error _ => perform (.settle token .off)

/-! ## 6. The lock -/

structure LockArgs where
  operation : String
  recoverStale : Bool
  minimumStaleAge : ℚ
  heartbeatInterval : ℚ

/-- The `finally` of a body that returned. -/
def releaseReturned (token boot start : String) (beat : Joined) : Program Unit :=
  if beat.running then raiseError "OPERATION_LOCK_HEARTBEAT_THREAD_DID_NOT_STOP"
  else match beat.error with
    | some error => raiseError ("OPERATION_LOCK_HEARTBEAT_FAILED:" ++ error)
    | none => do
      let current ← readLock.tryCatch fun e =>
        if e = .fileNotFoundError then raiseError "OPERATION_LOCK_DISAPPEARED" else .raise e
      stillOwn current token boot start
      perform (.unlink .own)

/-- The `finally` of a body that raised: a lock that is not one's own any more stays. -/
def releaseRaised (token boot start : String) (e : Raised) : Program Unit := do
  let current ← (do let p ← readLock; pure (some p)).tryCatch fun e =>
    match e with
    | .fileNotFoundError | .runtimeError _ => pure none
    | e => .raise e
  match current with
  | none => .raise e
  | some p =>
    if p.token = token ∧ p.processStartIdentity = start ∧ p.bootIdentity = boot then do
      perform (.unlink .own)
      .raise e
    else .raise e

/-- The with-body, and what follows it. -/
def body (token boot start : String) : Program Unit := do
  perform (.enter token)
  let outcome ← (perform .leave).attempt
  let beat : Joined ← perform (.stop token)
  match outcome with
  | .ok _ => releaseReturned token boot start beat
  | .error e => releaseRaised token boot start e

/-- The lock file of an operation. -/
def newPayload (operation token host boot start : String) (pid : ℤ) (now : ℚ) : Payload where
  schemaVersion := "1.1"
  classification := "PLATFORM_OPERATION_LOCK"
  token := token
  operation := operation
  pid := pid
  hostname := host
  bootIdentity := boot
  processStartIdentity := start
  createdEpoch := .at_ now
  heartbeatEpoch := .at_ now

/-- The lock is created, or somebody has it. -/
def createLock (p : Payload) : Program Unit :=
  (atomicCreateJson p).tryCatch fun e =>
    if e = .fileExistsError then do
      let existing ← readLock
      raiseError ("OPERATION_LOCK_BUSY:" ++ existing.operation ++ ":" ++ toString existing.pid)
    else .raise e

/-- The part of `operation_lock` behind the checks and the recovery. -/
def acquire (operation : String) (pid : ℤ) (boot start : String) : Program Unit := do
  let token : String ← perform .uuid4
  let now ← wallClockEpoch
  let host : String ← ask .hostname
  createLock (newPayload operation token host boot start pid now)
  perform (.settle token .resting)
  body token boot start

def recoverIfAsked (args : LockArgs) : Program Unit :=
  if args.recoverStale then do
    let there : Bool ← perform .present
    if there then do
      let _ ← recoverStaleLock args.minimumStaleAge
      pure ()
    else pure ()
  else pure ()

def operationLock (args : LockArgs) : Program Unit := do
  let safe : Bool ← ask .directorySafe
  if safe then
    if args.heartbeatInterval ≤ 0 ∨ 300 < args.heartbeatInterval then
      raiseError "OPERATION_LOCK_HEARTBEAT_INTERVAL_INVALID"
    else do
      let boot ← bootIdentity
      let pid : ℤ ← ask .getpid
      let start ← processStartIdentity pid
      match boot, start with
      | some boot, some start => do
        recoverIfAsked args
        acquire args.operation pid boot start
      | _, _ => raiseError "OPERATION_LOCK_OWNER_IDENTITY_UNAVAILABLE"
  else raiseError "OPERATION_LOCK_DIRECTORY_UNSAFE"

/-! ## 7. Processes over one directory -/

section World

variable {ι : Type}

/-- What is at the path: a file that has been created and not written yet, or a text. -/
inductive Content (ι : Type)
  | unfinished (by_ : ι)
  | text (p : Payload)
  deriving DecidableEq

/-- What a reader gets of it. -/
def Content.payload : Content ι → Option Payload
  | .unfinished _ => none
  | .text p => some p

def Content.token (c : Content ι) : Option String := c.payload.map Payload.token

/-- The lock file, the processes that live, their heartbeat threads, and two records: who has drawn
which token, and who is in the with-body, under which token. -/
structure World (ι : Type) where
  file : Option (Content ι)
  alive : ι → Bool
  beat : String → Beat
  issued : String → Option ι
  inside : ι → Option String

/-- A process: its host, its pid there, and the identities of its boot and of its start. -/
structure Machine (ι : Type) where
  host : ι → String
  pid : ι → ℤ
  boot : ι → String
  start : ι → String

/-- The threads of the processes: the one that takes the lock, and heartbeats. -/
inductive Thread (ι : Type)
  | main (t : ι)
  | heart (t : ι) (k : ℕ)
  deriving DecidableEq

def Thread.process : Thread ι → ι
  | main t => t
  | heart t _ => t

/-- The lock file has this token. -/
def World.Has (s : World ι) (token : String) : Prop := s.file.bind Content.token = some token

instance (s : World ι) (token : String) : Decidable (s.Has token) :=
  inferInstanceAs (Decidable (_ = _))

/-- What the operating system says of the processes that live: a process knows its host and its
own pid, which nobody else has there, and there is somebody to take a signal sent to one of
them. -/
def Truthful (m : Machine ι) (t : ι) :
    (q : Ask) → World ι → Except Raised q.Answer → Prop
  | .getpid, s, r => r = .ok (m.pid t) ∧
      ∀ u, s.alive u = true → m.host u = m.host t → m.pid u = m.pid t → u = t
  | .hostname, _, r => r = .ok (m.host t)
  | .kill pid, s, r => r = .error .processLookupError →
      ∀ u, s.alive u = true → m.host u = m.host t → m.pid u ≠ pid
  | _, _, _ => True

/-- Operations that can also raise and do nothing. -/
def Op.Fallible : Op → Prop
  | .ask _ | .enter _ | .leave => False
  | _ => True

variable [DecidableEq ι]

/-- The text goes into the file that was created, wherever that is by now. -/
def World.written (s : World ι) (t : ι) (p : Payload) : World ι :=
  if s.file = some (.unfinished t) then { s with file := some (.text p) } else s

/-- What an operation of `t` does. -/
def does (m : Machine ι) (t : ι) : (o : Op) → World ι → lockSig.Ans o → World ι → Prop
  | .ask q, s, r, s' => Truthful m t q s r ∧ s' = s
  | .present, s, r, s' => r = .ok s.file.isSome ∧ s' = s
  | .readText, s, r, s' => (∃ c, s.file = some c ∧ r = .ok c.payload) ∧ s' = s
  | .openExcl, s, r, s' =>
      r = .ok () ∧ s.file = none ∧ s' = { s with file := some (.unfinished t) }
  | .write p, s, _, s' => s' = s.written t p
  | .replace p, s, r, s' => r = .ok () ∧ s' = { s with file := some (.text p) }
  | .unlink _, s, r, s' => r = .ok () ∧ s.file ≠ none ∧ s' = { s with file := none }
  | .uuid4, s, r, s' => ∃ token, r = .ok token ∧ s.issued token = none ∧
      s' = { s with issued := Function.update s.issued token (some t) }
  | .wake token, s, r, s' => r = .ok () ∧ s.beat token = .resting ∧
      s' = { s with beat := Function.update s.beat token .refreshing }
  | .settle token b, s, r, s' => r = .ok () ∧
      s' = { s with beat := Function.update s.beat token b }
  | .stop token, s, r, s' => ∃ j, r = .ok j ∧
      (j.running = true ∧ s' = s ∨ j.running = false ∧ s.beat token ≠ .refreshing ∧
        s' = { s with beat := Function.update s.beat token .off })
  | .enter token, s, r, s' => r = .ok () ∧
      s' = { s with inside := Function.update s.inside t (some token) }
  | .leave, s, _, s' => s' = { s with inside := Function.update s.inside t none }

def handler (m : Machine ι) (t : ι) : Handler lockSig (World ι) :=
  fun o s r s' => does m t o s r s' ∨ o.Fallible ∧ (∃ e, r = .error e) ∧ s' = s

/-- A process dies. -/
def Dies (s s' : World ι) : Prop := ∃ t, s' = { s with alive := Function.update s.alive t false }

/-- **The processes that enter `operation_lock`**, as often as they like, and their heartbeats. -/
def entrants (m : Machine ι) : Pool.System (Thread ι) lockSig (World ι) Unit where
  handler := fun x => handler m x.process
  start := fun x p => match x with
    | .main _ => ∃ args, p = operationLock args
    | .heart .. => ∃ token boot start, p = heartbeatTurn token boot start
  env := Dies

end World

end Kripto.Deploy.OperationLock
