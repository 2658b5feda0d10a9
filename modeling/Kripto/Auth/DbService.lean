/-
# Logins, second factors and password resets

`auth/db_service.py`, the calls that concern MFA and password resets, with what they use of
`auth/mfa.py`.  A call reads rows one by one and writes what it changes in one commit; there is
no lock, and what it has read may have changed by then.

Hashes, ciphers and what the operating system draws at random are parameters (`AuthRuntime` and
`Ask`).  Times are rational numbers of seconds.
-/
import Kripto.Effect.Prog
import Kripto.Effect.Totals
import Kripto.Effect.Outcome
import Kripto.Python.Text
import Mathlib.Data.Rat.Floor

namespace Kripto.Auth

open Effect Python

/-! ## 1. Exceptions and codes -/

inductive Exc
  | permissionError (msg : String)
  | valueError (msg : String)
  | typeError
  | other (name : String)
  deriving DecidableEq

/-- `str.casefold`, `verify_password`, `password_hash_needs_upgrade`, `SecretBox.decrypt`, the
hexdigest of SHA-256, and the HMAC-SHA1 of a counter under a base-32 secret.  What can raise is
`none` where it does. -/
class AuthRuntime where
  casefold : String → String
  verifyPassword : String → String → Bool
  needsUpgrade : String → Bool
  decrypt : String → Option String
  sha256 : String → String
  hmacSha1 : String → ℤ → Option Bytes

section Totp

variable [AuthRuntime]

/-- A big-endian number. -/
def bigEndian (bytes : Bytes) : ℕ := bytes.foldl (fun acc b => 256 * acc + b) 0

/-- `f'{code:06d}'`. -/
def sixDigits (code : ℕ) : String := String.ofList (List.leftpad 6 '0' (Nat.toDigits 10 code))

def totp (secret : String) (at_ : ℤ) : Except Exc String :=
  match AuthRuntime.hmacSha1 secret (at_ / 30) with
  | none => .error (.other "Error")
  | some digest =>
    let offset := (digest.getLast?.map Fin.val).getD 0 % 16
    .ok (sixDigits (bigEndian ((digest.drop offset).take 4) % 2 ^ 31 % 10 ^ 6))

/-- `hmac.compare_digest` of texts. -/
def compareDigest (a b : String) : Except Exc Bool :=
  if (a ++ b).toList.all (·.toNat < 128) then .ok (a == b) else .error .typeError

def verifyTotpAt (secret code : String) : List ℤ → Except Exc Bool
  | [] => .ok false
  | t :: ts => do
    let expected ← totp secret t
    if ← compareDigest expected code then return true else verifyTotpAt secret code ts

def verifyTotp (secret code : String) (at_ : ℤ) : Except Exc Bool :=
  verifyTotpAt secret code [at_ - 30, at_, at_ + 30]

end Totp

/-! ## 2. The tables -/

structure UserRow where
  username : String
  passwordHash : String
  role : String
  mfaEnabled : Bool
  mfaSecretEncrypted : Option String
  deriving DecidableEq

structure ResetRow where
  userId : String
  expiresAt : ℚ
  usedAt : Option ℚ
  deriving DecidableEq

structure CodeRow where
  userId : String
  usedAt : Option ℚ
  deriving DecidableEq

structure SessionRow where
  userId : String
  csrfHash : String
  expiresAt : ℚ
  lastSeenAt : ℚ
  revokedAt : Option ℚ
  deriving DecidableEq

structure SystemEvent where
  eventType : String
  severity : String
  userId : Option String
  deriving DecidableEq

/-- The database and the memory of the throttle.  Users are keyed by their id; tokens, codes and
sessions by their hash, which is unique. -/
structure World where
  users : Table String UserRow
  resets : Table String ResetRow
  codes : Table String CodeRow
  sessions : Table String SessionRow
  events : List SystemEvent
  attempts : String → List ℚ

/-- What a commit can write. -/
inductive Change
  | setPassword (userId hash : String)
  | setSecret (userId : String) (encrypted : Option String)
  | setMfa (userId : String) (enabled : Bool)
  | useReset (hash : String) (at_ : ℚ)
  | useCode (hash : String) (at_ : ℚ)
  | addCode (hash userId : String)
  | revoke (hash : String) (at_ : ℚ)
  | addSession (hash : String) (row : SessionRow)
  | addEvent (e : SystemEvent)

namespace World

def applyOne (s : World) : Change → World
  | .setPassword userId hash =>
    { s with users := Table.update s.users userId fun u => { u with passwordHash := hash } }
  | .setSecret userId encrypted =>
    { s with
      users := Table.update s.users userId fun u => { u with mfaSecretEncrypted := encrypted } }
  | .setMfa userId enabled =>
    { s with users := Table.update s.users userId fun u => { u with mfaEnabled := enabled } }
  | .useReset hash at_ =>
    { s with resets := Table.update s.resets hash fun row => { row with usedAt := some at_ } }
  | .useCode hash at_ =>
    { s with codes := Table.update s.codes hash fun row => { row with usedAt := some at_ } }
  | .addCode hash userId => { s with codes := s.codes.insert hash ⟨userId, none⟩ }
  | .revoke hash at_ =>
    { s with
      sessions := Table.update s.sessions hash fun row => { row with revokedAt := some at_ } }
  | .addSession hash row => { s with sessions := s.sessions.insert hash row }
  | .addEvent e => { s with events := e :: s.events }

def apply (s : World) (changes : List Change) : World := changes.foldl applyOne s

/-- A unique column is in the way. -/
def clashes (s : World) : Change → Bool
  | .addCode hash _ => (s.codes.lookup hash).isSome
  | .addSession hash _ => (s.sessions.lookup hash).isSome
  | _ => false

/-- One change after the other, and none clashes. -/
def admits (s : World) : List Change → Bool
  | [] => true
  | change :: changes => !s.clashes change && (s.applyOne change).admits changes

/-- `select(User).where(User.username == ...)`: the row with its id. -/
def userByName (s : World) (username : String) : Option (String × UserRow) :=
  (s.users.entries.find? fun e => e.2.username = username).map fun e => (e.1, e.2)

def unusedReset (s : World) (hash : String) : Option ResetRow :=
  (s.resets.lookup hash).filter fun row => row.usedAt.isNone

def unusedCode (s : World) (userId hash : String) : Option CodeRow :=
  (s.codes.lookup hash).filter fun row => row.userId = userId ∧ row.usedAt.isNone

def unusedCodes (s : World) (userId : String) : List String :=
  (s.codes.entries.filter fun e => e.2.userId = userId ∧ e.2.usedAt.isNone).map (·.1)

def liveSessions (s : World) (userId : String) : List String :=
  (s.sessions.entries.filter fun e => e.2.userId = userId ∧ e.2.revokedAt.isNone).map (·.1)

end World

/-! ## 3. Operations -/

/-- What is asked of the system around: the clock, as `time.time()` and as `datetime.now()`; a new
TOTP secret; a text encrypted; a password hashed; a random token of so many bytes. -/
inductive Ask
  | time
  | now
  | secret
  | encrypt (text : String)
  | hash (password : String)
  | token (bytes : ℕ)

abbrev Ask.Answer : Ask → Type
  | .time | .now => ℚ
  | _ => String

/-- `attempts` and `setAttempts` are the dictionary of the throttle. -/
inductive Op
  | ask (q : Ask)
  | userByName (username : String)
  | userById (userId : String)
  | unusedReset (hash : String)
  | unusedCode (userId hash : String)
  | unusedCodes (userId : String)
  | liveSessions (userId : String)
  | attempts (key : String)
  | setAttempts (key : String) (xs : List ℚ)
  | commit (changes : List Change)

abbrev authSig : Sig where
  Op := Op
  Val o := match o with
    | .ask q => q.Answer
    | .userByName _ => Option (String × UserRow)
    | .userById _ => Option UserRow
    | .unusedReset _ => Option ResetRow
    | .unusedCode _ _ => Option CodeRow
    | .unusedCodes _ => List String
    | .liveSessions _ => List String
    | .attempts _ => List ℚ
    | .setAttempts _ _ => Unit
    | .commit _ => Unit
  Exc := Exc

abbrev Program (α : Type) : Type := Prog authSig α

def perform (o : Op) : Program (authSig.Val o) := Prog.perform (S := authSig) o

def ask (q : Ask) : Program q.Answer := perform (.ask q)

def commit (changes : List Change) : Program Unit := perform (.commit changes)

def deny {α : Type} (msg : String) : Program α := .raise (.permissionError msg)

def event (eventType severity : String) (userId : Option String) : Change :=
  .addEvent ⟨eventType, severity, userId⟩

section Service

variable [AuthRuntime]

open AuthRuntime

def hashPassword (password : String) : Program String :=
  if password.length < 12 then .raise (.valueError "password too short") else ask (.hash password)

/-- A value that may have raised. -/
def lift {α : Type} (x : Except Exc α) : Program α := .ofExcept x

def decryptSecret (encrypted : String) : Program String :=
  match decrypt encrypted with
  | some secret => pure secret
  | none => .raise (.other "InvalidToken")

/-! ## 4. The throttle -/

namespace LoginThrottle

def check (key : String) : Program Unit := do
  let now : ℚ ← ask .time
  let xs : List ℚ ← perform (.attempts key)
  let recent := xs.filter fun x => now - x < 300
  perform (.setAttempts key recent)
  if 5 ≤ recent.length then deny "login throttled" else pure ()

def fail (key : String) : Program Unit := do
  let now : ℚ ← ask .time
  let xs : List ℚ ← perform (.attempts key)
  perform (.setAttempts key (xs ++ [now]))

def success (key : String) : Program Unit := perform (.setAttempts key [])

end LoginThrottle

/-! ## 5. Enrollment -/

/-- The user, if the password is right. -/
def reauthenticated (user : Option UserRow) (password : String) : Option UserRow :=
  user.filter fun u => verifyPassword u.passwordHash password

def beginMfaEnrollment (userId password : String) : Program String := do
  let user : Option UserRow ← perform (.userById userId)
  match reauthenticated user password with
  | none => do
    commit [event "MFA_ENROLLMENT_REAUTH_FAILED" "WARN" userId]
    deny "re-authentication failed"
  | some _ => do
    let secret : String ← ask .secret
    let encrypted : String ← ask (.encrypt secret)
    commit [.setSecret userId (some encrypted), event "MFA_ENROLLMENT_STARTED" "INFO" userId]
    pure secret

/-- `u.mfa_secret_encrypted`, if it counts as true. -/
def UserRow.secret? (u : UserRow) : Option String := u.mfaSecretEncrypted.filter (· ≠ "")

/-- `at`, or the clock. -/
def atOrNow : Option ℤ → Program ℤ
  | some at_ => pure at_
  | none => do
    let now : ℚ ← ask .time
    pure ⌊now⌋

def generateRecoveryCodes : ℕ → Program (List String)
  | 0 => pure []
  | n + 1 => do
    let raw : String ← ask (.token 9)
    let codes ← generateRecoveryCodes n
    let code := raw.map fun c => if c = '-' then 'A' else if c = '_' then 'B' else c
    pure (code :: codes)

def recoveryHash (code : String) : String := sha256 code

def confirmMfaEnrollment (userId code : String) (at_ : Option ℤ) : Program (List String) := do
  let user : Option UserRow ← perform (.userById userId)
  match user.bind UserRow.secret? with
  | none => deny "no pending MFA enrollment"
  | some encrypted => do
    let secret ← decryptSecret encrypted
    let at_ ← atOrNow at_
    let verified ← lift (verifyTotp secret code at_)
    if verified then do
      let codes ← generateRecoveryCodes 10
      commit (codes.map (fun c => .addCode (recoveryHash c) userId) ++
        [.setMfa userId true, event "MFA_ENABLED" "INFO" userId])
      pure codes
    else do
      commit [event "MFA_ENROLLMENT_FAILED" "WARN" userId]
      deny "invalid MFA code"

def resetMfa (userId actorUserId actorPassword : String) : Program Unit := do
  let now : ℚ ← ask .now
  let actor : Option UserRow ← perform (.userById actorUserId)
  let target : Option UserRow ← perform (.userById userId)
  match reauthenticated (actor.filter (·.role = "admin")) actorPassword, target with
  | none, _ => do
    commit [event "MFA_RESET_DENIED" "WARN" userId]
    deny "admin re-authentication required"
  | some _, none => .raise (.valueError "user not found")
  | some _, some _ => do
    let unused : List String ← perform (.unusedCodes userId)
    commit (.setMfa userId false :: .setSecret userId none ::
      (unused.map (.useCode · now) ++ [event "MFA_RESET" "WARN" userId]))

/-! ## 6. Password resets -/

/-- A row that has been found and has not expired. -/
def consumeRow (digest newPassword : String) (now : ℚ) (row : ResetRow) : Program String := do
  let user : Option UserRow ← perform (.userById row.userId)
  match user with
  | none => deny "invalid password reset token"
  | some _ => do
    let hash ← hashPassword newPassword
    let sessions : List String ← perform (.liveSessions row.userId)
    commit (.setPassword row.userId hash :: .useReset digest now ::
      (sessions.map (.revoke · now) ++
        [event "PASSWORD_RESET_COMPLETED" "WARN" row.userId]))
    pure row.userId

/-- `now or datetime.now(timezone.utc)`. -/
def clockOr : Option ℚ → Program ℚ
  | some now => pure now
  | none => ask .now

def consumePasswordReset (rawToken newPassword : String) (now : Option ℚ) : Program String := do
  let now ← clockOr now
  let row : Option ResetRow ← perform (.unusedReset (sha256 rawToken))
  match row.filter fun row => now < row.expiresAt with
  | none => deny "invalid or expired password reset token"
  | some row => consumeRow (sha256 rawToken) newPassword now row

/-! ## 7. Login -/

structure LoginArgs where
  username : String
  password : String
  mfaCode : Option String
  recoveryCode : Option String
  at_ : Option ℤ

structure LoginResult where
  sessionToken : String
  csrfToken : String
  userId : String
  role : String

/-- How the second factor was given. -/
inductive Method
  | totp
  | recoveryCode (hash : String) (at_ : ℚ)

/-- An argument that counts as true. -/
def given (text : Option String) : Option String := text.filter (· ≠ "")

def totpAccepted (u : UserRow) (mfaCode : Option String) (at_ : Option ℤ) : Program Bool :=
  match given mfaCode, u.secret? with
  | some code, some encrypted => do
    let secret ← decryptSecret encrypted
    let at_ ← atOrNow at_
    lift (verifyTotp secret code at_)
  | _, _ => pure false

def recoveryAccepted (userId : String) (recoveryCode : Option String) :
    Program (Option Method) :=
  match given recoveryCode with
  | none => pure none
  | some code => do
    let row : Option CodeRow ← perform (.unusedCode userId (recoveryHash code))
    match row with
    | none => pure none
    | some _ => do
      let now : ℚ ← ask .now
      pure (some (.recoveryCode (recoveryHash code) now))

def secondFactor (userId : String) (u : UserRow) (a : LoginArgs) : Program (Option Method) := do
  let ok ← totpAccepted u a.mfaCode a.at_
  if ok then pure (some .totp) else recoveryAccepted userId a.recoveryCode

/-- What the second factor changes. -/
def Method.changes (userId : String) : Method → List Change
  | .totp => []
  | .recoveryCode hash at_ =>
    [.useCode hash at_, event "MFA_RECOVERY_CODE_USED" "WARN" userId]

/-- The service, as it was constructed. -/
structure DatabaseAuthService where
  ttl : ℚ

variable (auth : DatabaseAuthService)

def openSession (key userId : String) (u : UserRow) (changes : List Change) :
    Program LoginResult := do
  let raw : String ← ask (.token 32)
  let csrf : String ← ask (.token 24)
  let now : ℚ ← ask .now
  commit (changes ++ [.addSession (sha256 raw) ⟨userId, sha256 csrf, now + auth.ttl, now, none⟩,
    event "LOGIN_SUCCEEDED" "INFO" userId])
  LoginThrottle.success key
  pure ⟨raw, csrf, userId, u.role⟩

/-- An outdated hash is replaced. -/
def upgradePassword (userId : String) (u : UserRow) (password : String) :
    Program (List Change) :=
  if needsUpgrade u.passwordHash then do
    let hash ← hashPassword password
    pure [.setPassword userId hash]
  else pure []

/-- A login whose password is right. -/
def loginVerified (key userId : String) (u : UserRow) (a : LoginArgs) : Program LoginResult := do
  let upgrade ← upgradePassword userId u a.password
  if u.mfaEnabled then do
    let method ← secondFactor userId u a
    match method with
    | some method => openSession auth key userId u (upgrade ++ method.changes userId)
    | none => do
      LoginThrottle.fail key
      commit (upgrade ++ [event "SUSPICIOUS_LOGIN_MFA_FAILED" "WARN" userId])
      deny "MFA required"
  else openSession auth key userId u upgrade

def login (a : LoginArgs) : Program LoginResult := do
  LoginThrottle.check (casefold a.username)
  let found : Option (String × UserRow) ← perform (.userByName a.username)
  match found.filter fun e => verifyPassword e.2.passwordHash a.password with
  | some (userId, u) => loginVerified auth (casefold a.username) userId u a
  | none => do
    LoginThrottle.fail (casefold a.username)
    commit [event "SUSPICIOUS_LOGIN_FAILED" "WARN" (found.map (·.1))]
    deny "invalid credentials"

end Service

/-! ## 8. The database under the operations -/

section Database

variable [AuthRuntime]

/-- What is assumed of the answers: what has been encrypted can be decrypted. -/
def Truthful : (q : Ask) → Except Exc q.Answer → Prop
  | .encrypt text, .ok encrypted => encrypted ≠ "" ∧ AuthRuntime.decrypt encrypted = some text
  | _, _ => True

/-- What an operation that works answers and leaves.  A statement sees what is committed. -/
def does : (o : Op) → World → authSig.Ans o → World → Prop
  | .ask q, s, r, s' => Truthful q r ∧ s' = s
  | .userByName username, s, r, s' => r = .ok (s.userByName username) ∧ s' = s
  | .userById userId, s, r, s' => r = .ok (s.users.lookup userId) ∧ s' = s
  | .unusedReset hash, s, r, s' => r = .ok (s.unusedReset hash) ∧ s' = s
  | .unusedCode userId hash, s, r, s' => r = .ok (s.unusedCode userId hash) ∧ s' = s
  | .unusedCodes userId, s, r, s' => r = .ok (s.unusedCodes userId) ∧ s' = s
  | .liveSessions userId, s, r, s' => r = .ok (s.liveSessions userId) ∧ s' = s
  | .attempts key, s, r, s' => r = .ok (s.attempts key) ∧ s' = s
  | .setAttempts key xs, s, r, s' => r = .ok () ∧
      s' = { s with attempts := Function.update s.attempts key xs }
  | .commit changes, s, r, s' => r = .ok () ∧ s.admits changes = true ∧ s' = s.apply changes

/-- Every operation can also raise, and leave everything as it was. -/
def handler : Handler authSig World := fun o s r s' =>
  does o s r s' ∨ (∃ e, r = .error e) ∧ s' = s

end Database

/-! ## 9. A database that answers -/

/-- Two secrets. -/
def digitsSecret : String := "GEZDGNBVGY3TQOJQGEZDGNBVGY3TQOJQ"

def helloSecret : String := "JBSWY3DPEHPK3PXPJBSWY3DPEHPK3PXP"

/-- The digests of the first counters under them. -/
def firstDigests : List ((String × ℤ) × Bytes) :=
  [((digitsSecret, 0), [204, 147, 207, 24, 80, 141, 148, 147, 76, 100, 182, 93, 139, 167, 102, 127,
      183, 205, 228, 176]),
    ((digitsSecret, 1), [117, 164, 138, 25, 212, 203, 225, 0, 100, 78, 138, 193, 57, 126, 234, 116,
      122, 45, 51, 171]),
    ((digitsSecret, 2), [11, 172, 183, 250, 8, 47, 239, 48, 120, 34, 17, 147, 139, 193, 197, 231, 4,
      22, 255, 68]),
    ((helloSecret, 0), [146, 32, 79, 35, 88, 111, 127, 202, 255, 46, 35, 47, 97, 153, 118, 177, 2,
      169, 171, 244]),
    ((helloSecret, 1), [2, 27, 191, 4, 115, 223, 113, 60, 11, 130, 36, 183, 238, 4, 124, 195, 43,
      210, 254, 193]),
    ((helloSecret, 2), [50, 11, 65, 99, 45, 205, 54, 200, 195, 28, 138, 200, 0, 76, 251, 147, 182,
      17, 17, 227])]

/-- Hashes and ciphertexts that carry a mark before their text, and the digests of those counters;
what is not under one of the two secrets raises. -/
@[reducible] def marked : AuthRuntime where
  casefold := id
  verifyPassword hash password := hash.toList == '$' :: password.toList
  needsUpgrade _ := false
  decrypt encrypted := some (String.ofList encrypted.toList.tail)
  sha256 text := text
  hmacSha1 secret counter := firstDigests.lookup (secret, counter)

attribute [local instance] marked

/-- At one instant, with one new secret, and with tokens that are all alike. -/
def serveAsk (secret : String) : (q : Ask) → Except Exc q.Answer
  | .time => .ok 0
  | .now => .ok 0
  | .secret => .ok secret
  | .encrypt text => .ok (String.ofList ('*' :: text.toList))
  | .hash password => .ok (String.ofList ('$' :: password.toList))
  | .token _ => .ok "token"

theorem decrypt_mark (secret : String) :
    AuthRuntime.decrypt (String.ofList ('*' :: secret.toList)) = some secret := by
  simp only [AuthRuntime.decrypt, String.toList_ofList, List.tail_cons, String.ofList_toList]

theorem mark_ne_empty (secret : String) : String.ofList ('*' :: secret.toList) ≠ "" := by
  intro hempty
  have hlist : '*' :: secret.toList = [] := by
    simpa using congrArg String.toList hempty
  cases hlist

def serve (secret : String) : (o : Op) → World → authSig.Ans o × World
  | .ask q, s => (serveAsk secret q, s)
  | .userByName username, s => (.ok (s.userByName username), s)
  | .userById userId, s => (.ok (s.users.lookup userId), s)
  | .unusedReset hash, s => (.ok (s.unusedReset hash), s)
  | .unusedCode userId hash, s => (.ok (s.unusedCode userId hash), s)
  | .unusedCodes userId, s => (.ok (s.unusedCodes userId), s)
  | .liveSessions userId, s => (.ok (s.liveSessions userId), s)
  | .attempts key, s => (.ok (s.attempts key), s)
  | .setAttempts key xs, s =>
    (.ok (), { s with attempts := Function.update s.attempts key xs })
  | .commit changes, s =>
    if s.admits changes then (.ok (), s.apply changes) else (.error (.other "IntegrityError"), s)

theorem serve_picks (secret : String) (o : Op) (s : World) :
    handler o s (serve secret o s).1 (serve secret o s).2 := by
  cases o with
  | ask q =>
    refine Or.inl ⟨?_, rfl⟩
    cases q with
    | encrypt text => exact ⟨mark_ne_empty text, decrypt_mark text⟩
    | _ => trivial
  | commit changes =>
    simp only [serve]
    split
    · rename_i hadmits
      exact Or.inl ⟨rfl, hadmits, rfl⟩
    · exact Or.inr ⟨⟨_, rfl⟩, rfl⟩
  | _ => exact Or.inl ⟨rfl, rfl⟩

end Kripto.Auth
