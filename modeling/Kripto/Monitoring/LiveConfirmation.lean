/-
# Live confirmations

`monitoring/telegram_security.py`: a command that trades is confirmed in two calls.
`issue_live_confirmation` answers a confirmation with a nonce and a digest of what is confirmed,
and `consume_live_confirmation` accepts it once.

* `confirmed_once`: however the calls of any principals follow each other, a confirmation is
  returned at most once, to the chat and the user it was issued to, until it expires and with its
  digest; and until then nobody but its principal can use it up.
-/
import Kripto.Effect.Object
import Kripto.Effect.Totals
import Kripto.Python.Text

namespace Kripto.Monitoring.Telegram

open Effect Python

/-! ## 1. Texts, contexts, confirmations -/

/-- Every character is an ASCII character. -/
def isAscii (text : Text) : Bool := text.all (·.ord < 128)

/-- `str.upper`, and `hmac`; a hexdigest is ASCII. -/
class TelegramRuntime where
  upper : Text → Text
  /-- `hmac.new(key, message.encode("utf-8"), hashlib.sha256).hexdigest()` -/
  hmac : Bytes → String → Text
  isAscii_hmac : ∀ key message, isAscii (hmac key message) = true

inductive Exc
  | telegramSecurityError (msg : String)
  | unicodeEncodeError
  | typeError
  deriving DecidableEq

/-- `hmac.compare_digest` of texts. -/
def compareDigest (a b : Text) : Except Exc Bool :=
  if isAscii a && isAscii b then .ok (a == b) else .error .typeError

structure TelegramCommandContext where
  chatId : Text
  userId : Text
  nowEpoch : ℤ

structure LiveConfirmation where
  nonce : Text
  chatId : Text
  userId : Text
  symbol : Text
  side : Text
  maxNotional : Text
  mode : Text
  expiresAtEpoch : ℤ
  digest : Text
  deriving DecidableEq

/-- What is to be confirmed. -/
structure LiveOrder where
  symbol : Text
  side : Text
  maxNotional : Text
  mode : Text

/-- What `__init__` sets once and for all.  The `n`-th call of the nonce factory, from 0, answers
`nonceFactory n`. -/
structure TelegramCommandSecurity where
  allowedChats : List Text
  allowedUsers : List Text
  key : Bytes
  stateEnabled : Bool
  ttl : ℤ
  nonceFactory : ℕ → Text

/-- The two tables, and how many nonces have been drawn. -/
structure Tables where
  issued : Table Text LiveConfirmation
  consumed : List Text
  drawn : ℕ

/-- The tables of a new object. -/
def Tables.new : Tables := ⟨∅, [], 0⟩

/-! ## 2. The three methods -/

namespace TelegramCommandSecurity

def authorize (self : TelegramCommandSecurity) (context : TelegramCommandContext)
    (stateChanging : Bool) : Except Exc Unit :=
  if context.chatId ∉ self.allowedChats then
    .error (.telegramSecurityError "TELEGRAM_CHAT_NOT_ALLOWED")
  else if context.userId ∉ self.allowedUsers then
    .error (.telegramSecurityError "TELEGRAM_USER_NOT_ALLOWED")
  else if stateChanging && !self.stateEnabled then
    .error (.telegramSecurityError "TELEGRAM_STATE_CHANGING_COMMANDS_DISABLED")
  else .ok ()

section Methods

variable [TelegramRuntime] (self : TelegramCommandSecurity) (tables : Tables)
  (context : TelegramCommandContext)

/-- `str(n)` of an integer. -/
def str (n : ℤ) : Text := Text.of (toString n)

/-- The text that is signed. -/
def material (nonce : Text) (order : LiveOrder) (expires : ℤ) : Text :=
  [.scalar '|'].intercalate [nonce, context.chatId, context.userId,
    TelegramRuntime.upper order.symbol, TelegramRuntime.upper order.side, order.maxNotional,
    Text.of "LIVE", str expires]

/-- The confirmation, with the digest of `message`. -/
def confirmation (nonce : Text) (order : LiveOrder) (message : String) : LiveConfirmation where
  nonce := nonce
  chatId := context.chatId
  userId := context.userId
  symbol := TelegramRuntime.upper order.symbol
  side := TelegramRuntime.upper order.side
  maxNotional := order.maxNotional
  mode := .of "LIVE"
  expiresAtEpoch := context.nowEpoch + self.ttl
  digest := TelegramRuntime.hmac self.key message

def issueLiveConfirmation (order : LiveOrder) : Except Exc LiveConfirmation × Tables :=
  match self.authorize context true with
  | .error e => (.error e, tables)
  | .ok _ =>
    if TelegramRuntime.upper order.mode ≠ .of "LIVE" then
      (.error (.telegramSecurityError "LIVE_CONFIRMATION_REQUIRES_LIVE_MODE"), tables)
    else if TelegramRuntime.upper order.side ∉ [Text.of "BUY", Text.of "SELL"] then
      (.error (.telegramSecurityError "INVALID_SIDE"), tables)
    else
      let nonce := self.nonceFactory tables.drawn
      let drawn := { tables with drawn := tables.drawn + 1 }
      if nonce = [] ∨ nonce ∈ tables.issued ∨ nonce ∈ tables.consumed then
        (.error (.telegramSecurityError "NONCE_COLLISION"), drawn)
      else match (material context nonce order (context.nowEpoch + self.ttl)).encode with
        | none => (.error .unicodeEncodeError, drawn)
        | some message =>
          let confirmation := self.confirmation context nonce order message
          (.ok confirmation, { drawn with issued := tables.issued.insert nonce confirmation })

def consumeLiveConfirmation (nonce digest : Text) : Except Exc LiveConfirmation × Tables :=
  match self.authorize context true with
  | .error e => (.error e, tables)
  | .ok _ =>
    if nonce ∈ tables.consumed then
      (.error (.telegramSecurityError "LIVE_CONFIRMATION_REPLAY"), tables)
    else match tables.issued.lookup nonce with
      | none => (.error (.telegramSecurityError "LIVE_CONFIRMATION_UNKNOWN"), tables)
      | some confirmation =>
        if confirmation.chatId ≠ context.chatId ∨ confirmation.userId ≠ context.userId then
          (.error (.telegramSecurityError "LIVE_CONFIRMATION_PRINCIPAL_MISMATCH"), tables)
        else if confirmation.expiresAtEpoch < context.nowEpoch then
          (.error (.telegramSecurityError "LIVE_CONFIRMATION_EXPIRED"),
            { tables with issued := tables.issued.erase nonce })
        else match compareDigest confirmation.digest digest with
          | .error e => (.error e, tables)
          | .ok false =>
            (.error (.telegramSecurityError "LIVE_CONFIRMATION_DIGEST_INVALID"), tables)
          | .ok true => (.ok confirmation, { tables with
              issued := tables.issued.erase nonce, consumed := nonce :: tables.consumed })

end Methods

end TelegramCommandSecurity

/-! ## 3. Runs -/

inductive Call
  | issue (context : TelegramCommandContext) (order : LiveOrder)
  | consume (context : TelegramCommandContext) (nonce digest : Text)

/-- The clock of a call. -/
def Call.now : Call → ℤ
  | .issue context _ => context.nowEpoch
  | .consume context _ _ => context.nowEpoch

section Runs

variable [TelegramRuntime] (self : TelegramCommandSecurity)

/-- The object, as its callers see it. -/
def telegram : Object Tables Call (Except Exc LiveConfirmation) := fun tables call =>
  match call with
  | .issue context order => self.issueLiveConfirmation tables context order
  | .consume context nonce digest => self.consumeLiveConfirmation tables context nonce digest

/-- The log of calls of a new object. -/
abbrev logOf (calls : List Call) : Log Tables Call (Except Exc LiveConfirmation) :=
  (Log.start Tables.new).calls (telegram self) calls

end Runs

/-- What `consume_live_confirmation` has returned. -/
def returned? : Call × Except Exc LiveConfirmation → Option LiveConfirmation
  | (.consume _ _ _, .ok confirmation) => some confirmation
  | _ => none

section Statement

variable [TelegramRuntime] (security : TelegramCommandSecurity)
  (log : Log Tables Call (Except Exc LiveConfirmation))

/-- `confirmation` is returned as it was issued: earlier, to the same chat and user, and not longer
than `ttl` ago. -/
def AsIssued (context : TelegramCommandContext) (nonce digest : Text)
    (confirmation : LiveConfirmation) : Prop :=
  ∃ issuer order,
    [(Call.issue issuer order, Except.ok confirmation),
      (.consume context nonce digest, .ok confirmation)].Sublist log.past ∧
    context.chatId = issuer.chatId ∧ context.userId = issuer.userId ∧
    confirmation.expiresAtEpoch = issuer.nowEpoch + security.ttl ∧
    context.nowEpoch ≤ confirmation.expiresAtEpoch ∧
    nonce = confirmation.nonce ∧ digest = confirmation.digest

/-- Confirmations are used once, as they were issued, and by nobody else. -/
structure ConfirmedOnce : Prop where
  once : ((log.past.filterMap returned?).map (·.nonce)).Nodup
  asIssued : ∀ context nonce digest confirmation,
    (.consume context nonce digest, .ok confirmation) ∈ log.past →
      AsIssued security log context nonce digest confirmation
  /-- A call to consume that fails leaves both tables alone, if it does not report the expiry. -/
  undisturbed : ∀ context nonce digest e,
    (telegram security log.now (.consume context nonce digest)).1 = .error e →
    e ≠ .telegramSecurityError "LIVE_CONFIRMATION_EXPIRED" →
      (telegram security log.now (.consume context nonce digest)).2 = log.now
  /-- Until it expires, a confirmation that was not returned is returned to its principal. -/
  available : ∀ issuer order confirmation, (.issue issuer order, .ok confirmation) ∈ log.past →
    confirmation ∉ log.past.filterMap returned? → ∀ context : TelegramCommandContext,
    (∀ entry ∈ log.past, entry.1.now ≤ context.nowEpoch) →
    context.chatId = issuer.chatId → context.userId = issuer.userId →
    context.nowEpoch ≤ confirmation.expiresAtEpoch →
      (telegram security log.now
        (.consume context confirmation.nonce confirmation.digest)).1 = .ok confirmation

end Statement

/-! ## 4. What one call does -/

section Steps

variable [TelegramRuntime] {self : TelegramCommandSecurity} {tables : Tables}
  {context : TelegramCommandContext}

variable (self tables context) in
/-- What issuing does: nothing but draw a nonce, or a new row. -/
theorem issue_cases (order : LiveOrder) :
    (∃ e drawn, tables.drawn ≤ drawn ∧ self.issueLiveConfirmation tables context order =
      (.error e, { tables with drawn := drawn })) ∨
    ∃ message, self.authorize context true = .ok () ∧
      self.nonceFactory tables.drawn ∉ tables.consumed ∧
      self.issueLiveConfirmation tables context order =
        (.ok (self.confirmation context (self.nonceFactory tables.drawn) order message),
          { issued := tables.issued.insert (self.nonceFactory tables.drawn)
              (self.confirmation context (self.nonceFactory tables.drawn) order message)
            consumed := tables.consumed
            drawn := tables.drawn + 1 }) := by
  unfold TelegramCommandSecurity.issueLiveConfirmation
  cases hauthorize : self.authorize context true with
  | error e => exact .inl ⟨e, tables.drawn, le_rfl, rfl⟩
  | ok u =>
    by_cases hmode : TelegramRuntime.upper order.mode ≠ .of "LIVE"
    · exact .inl ⟨_, tables.drawn, le_rfl, if_pos hmode⟩
    by_cases hside : TelegramRuntime.upper order.side ∉ [Text.of "BUY", Text.of "SELL"]
    · refine .inl ⟨.telegramSecurityError "INVALID_SIDE", tables.drawn, le_rfl, ?_⟩
      simp only [if_neg hmode, if_pos hside]
    by_cases hnonce : self.nonceFactory tables.drawn = [] ∨
        self.nonceFactory tables.drawn ∈ tables.issued ∨
        self.nonceFactory tables.drawn ∈ tables.consumed
    · refine .inl ⟨.telegramSecurityError "NONCE_COLLISION", tables.drawn + 1, Nat.le_succ _, ?_⟩
      simp only [if_neg hmode, if_neg hside, if_pos hnonce]
    cases hencode : (TelegramCommandSecurity.material context (self.nonceFactory tables.drawn)
        order (context.nowEpoch + self.ttl)).encode with
    | none =>
      refine .inl ⟨.unicodeEncodeError, tables.drawn + 1, Nat.le_succ _, ?_⟩
      simp only [if_neg hmode, if_neg hside, if_neg hnonce, hencode]
    | some message =>
      refine .inr ⟨message, rfl, fun hmem => hnonce (.inr (.inr hmem)), ?_⟩
      simp only [if_neg hmode, if_neg hside, if_neg hnonce, hencode]

omit [TelegramRuntime] in
variable (self tables context) in
/-- What consuming does: nothing, or it drops a row that has expired, or it returns the row. -/
theorem consume_cases (nonce digest : Text) :
    (∃ e, self.consumeLiveConfirmation tables context nonce digest = (.error e, tables)) ∨
    (∃ confirmation, tables.issued.lookup nonce = some confirmation ∧
      confirmation.expiresAtEpoch < context.nowEpoch ∧
      self.consumeLiveConfirmation tables context nonce digest =
        (.error (.telegramSecurityError "LIVE_CONFIRMATION_EXPIRED"),
          { tables with issued := tables.issued.erase nonce })) ∨
    ∃ confirmation, tables.issued.lookup nonce = some confirmation ∧ nonce ∉ tables.consumed ∧
      confirmation.chatId = context.chatId ∧ confirmation.userId = context.userId ∧
      context.nowEpoch ≤ confirmation.expiresAtEpoch ∧ digest = confirmation.digest ∧
      self.consumeLiveConfirmation tables context nonce digest =
        (.ok confirmation, { tables with
          issued := tables.issued.erase nonce, consumed := nonce :: tables.consumed }) := by
  unfold TelegramCommandSecurity.consumeLiveConfirmation
  cases hauthorize : self.authorize context true with
  | error e => exact .inl ⟨e, rfl⟩
  | ok u =>
    by_cases hconsumed : nonce ∈ tables.consumed
    · exact .inl ⟨_, if_pos hconsumed⟩
    cases hlookup : tables.issued.lookup nonce with
    | none =>
      refine .inl ⟨.telegramSecurityError "LIVE_CONFIRMATION_UNKNOWN", ?_⟩
      simp only [if_neg hconsumed]
    | some confirmation =>
      by_cases hprincipal : confirmation.chatId ≠ context.chatId ∨
          confirmation.userId ≠ context.userId
      · refine .inl ⟨.telegramSecurityError "LIVE_CONFIRMATION_PRINCIPAL_MISMATCH", ?_⟩
        simp only [if_neg hconsumed, if_pos hprincipal]
      by_cases hexpired : confirmation.expiresAtEpoch < context.nowEpoch
      · refine .inr (.inl ⟨confirmation, rfl, hexpired, ?_⟩)
        simp only [if_neg hconsumed, if_neg hprincipal, if_pos hexpired]
      cases hcompare : compareDigest confirmation.digest digest with
      | error e =>
        refine .inl ⟨e, ?_⟩
        simp only [if_neg hconsumed, if_neg hprincipal, if_neg hexpired, hcompare]
      | ok same =>
        cases same with
        | false =>
          refine .inl ⟨.telegramSecurityError "LIVE_CONFIRMATION_DIGEST_INVALID", ?_⟩
          simp only [if_neg hconsumed, if_neg hprincipal, if_neg hexpired, hcompare]
        | true =>
          have hdigest : confirmation.digest = digest := by
            unfold compareDigest at hcompare
            split at hcompare
            · exact beq_iff_eq.mp (Except.ok.inj hcompare)
            · cases hcompare
          obtain ⟨hchat, huser⟩ := not_or.mp hprincipal
          refine .inr (.inr ⟨confirmation, rfl, hconsumed, not_not.mp hchat, not_not.mp huser,
            not_lt.mp hexpired, hdigest.symm, ?_⟩)
          simp only [if_neg hconsumed, if_neg hprincipal, if_neg hexpired, hcompare]

omit [TelegramRuntime] in
/-- Consuming succeeds where nothing stands against it. -/
theorem consume_ok {confirmation : LiveConfirmation}
    (hauthorize : self.authorize context true = .ok ())
    (hlookup : tables.issued.lookup confirmation.nonce = some confirmation)
    (hconsumed : confirmation.nonce ∉ tables.consumed)
    (hchat : confirmation.chatId = context.chatId) (huser : confirmation.userId = context.userId)
    (hexpires : context.nowEpoch ≤ confirmation.expiresAtEpoch)
    (hascii : isAscii confirmation.digest = true) :
    (self.consumeLiveConfirmation tables context confirmation.nonce confirmation.digest).1 =
      .ok confirmation := by
  simp [TelegramCommandSecurity.consumeLiveConfirmation, hauthorize, hlookup, hconsumed, hchat,
    huser, not_lt.mpr hexpires, compareDigest, hascii]

omit [TelegramRuntime] in
/-- Who may call depends on the chat and the user alone. -/
theorem authorize_congr {context context' : TelegramCommandContext}
    (hchat : context.chatId = context'.chatId) (huser : context.userId = context'.userId)
    (stateChanging : Bool) :
    self.authorize context stateChanging = self.authorize context' stateChanging := by
  rw [TelegramCommandSecurity.authorize, TelegramCommandSecurity.authorize, hchat, huser]

end Steps

/-! ## 5. The invariant -/

section Invariant

variable [TelegramRuntime] {self : TelegramCommandSecurity}
  {log : Log Tables Call (Except Exc LiveConfirmation)}

/-- How a confirmation was issued. -/
structure IssuedBy (security : TelegramCommandSecurity) (drawn : ℕ)
    (issuer : TelegramCommandContext) (confirmation : LiveConfirmation) : Prop where
  authorized : security.authorize issuer true = .ok ()
  chatId : confirmation.chatId = issuer.chatId
  userId : confirmation.userId = issuer.userId
  expires : confirmation.expiresAtEpoch = issuer.nowEpoch + security.ttl
  ascii : isAscii confirmation.digest = true
  nonce : ∃ n < drawn, confirmation.nonce = security.nonceFactory n

/-- What the tables say about the calls so far.  A confirmation leaves the table when it is
returned, or when a call has come after its expiry. -/
structure Recorded (security : TelegramCommandSecurity)
    (log : Log Tables Call (Except Exc LiveConfirmation)) : Prop where
  once : ((log.past.filterMap returned?).map (·.nonce)).Nodup
  consumed : ∀ confirmation ∈ log.past.filterMap returned?,
    confirmation.nonce ∈ log.now.consumed
  table : ∀ nonce confirmation, log.now.issued.lookup nonce = some confirmation →
    confirmation.nonce = nonce ∧ nonce ∉ log.now.consumed ∧
      ∃ issuer order, (.issue issuer order, .ok confirmation) ∈ log.past
  issued : ∀ issuer order confirmation, (.issue issuer order, .ok confirmation) ∈ log.past →
    IssuedBy security log.now.drawn issuer confirmation
  present : ∀ issuer order confirmation, (.issue issuer order, .ok confirmation) ∈ log.past →
    log.now.issued.lookup confirmation.nonce = some confirmation ∨
      confirmation ∈ log.past.filterMap returned? ∨
      ∃ entry ∈ log.past, confirmation.expiresAtEpoch < entry.1.now
  asIssued : ∀ context nonce digest confirmation,
    (.consume context nonce digest, .ok confirmation) ∈ log.past →
      AsIssued security log context nonce digest confirmation

omit [TelegramRuntime] in
theorem IssuedBy.mono {drawn drawn' : ℕ} {issuer : TelegramCommandContext}
    {confirmation : LiveConfirmation} (h : IssuedBy self drawn issuer confirmation)
    (hle : drawn ≤ drawn') : IssuedBy self drawn' issuer confirmation := by
  obtain ⟨n, hn, hnonce⟩ := h.nonce
  exact ⟨h.authorized, h.chatId, h.userId, h.expires, h.ascii, n, by omega, hnonce⟩

omit [TelegramRuntime] in
theorem AsIssued.mono {log' : Log Tables Call (Except Exc LiveConfirmation)}
    {context : TelegramCommandContext} {nonce digest : Text} {confirmation : LiveConfirmation}
    (h : AsIssued self log context nonce digest confirmation) (hpast : log.past.Sublist log'.past) :
    AsIssued self log' context nonce digest confirmation := by
  obtain ⟨issuer, order, hsub, hrest⟩ := h
  exact ⟨issuer, order, hsub.trans hpast, hrest⟩

omit [TelegramRuntime] in
theorem recorded_new : Recorded self (Log.start Tables.new) := by
  refine ⟨List.nodup_nil, ?_, ?_, ?_, ?_, ?_⟩
  all_goals simp [Tables.new]

variable {call : Call} {tables : Tables}

omit [TelegramRuntime] in
/-- A call that raises keeps the invariant, if it drops nothing but what has expired. -/
theorem Recorded.raised (h : Recorded self log) (e : Exc)
    (hdrawn : log.now.drawn ≤ tables.drawn) (hconsumed : tables.consumed = log.now.consumed)
    (hold : ∀ nonce confirmation, tables.issued.lookup nonce = some confirmation →
      log.now.issued.lookup nonce = some confirmation)
    (hkept : ∀ nonce confirmation, log.now.issued.lookup nonce = some confirmation →
      tables.issued.lookup nonce = some confirmation ∨ confirmation.expiresAtEpoch < call.now) :
    Recorded self ⟨log.past ++ [(call, .error e)], tables⟩ := by
  have hreturned : (log.past ++ [(call, Except.error e)]).filterMap returned? =
      log.past.filterMap returned? := by
    cases call <;> simp [List.filterMap_append, returned?]
  have hmem : ∀ call' confirmation,
      (call', Except.ok confirmation) ∈ log.past ++ [(call, Except.error e)] →
        (call', Except.ok confirmation) ∈ log.past := by
    intro call' confirmation hentry
    simpa using hentry
  constructor
  · rw [hreturned]
    exact h.once
  · rw [hreturned, hconsumed]
    exact h.consumed
  · intro nonce confirmation hlookup
    obtain ⟨hnonce, hunused, issuer, order, hissued⟩ :=
      h.table nonce confirmation (hold _ _ hlookup)
    rw [hconsumed]
    exact ⟨hnonce, hunused, issuer, order, List.mem_append_left _ hissued⟩
  · intro issuer order confirmation hissued
    exact (h.issued issuer order confirmation (hmem _ _ hissued)).mono hdrawn
  · intro issuer order confirmation hissued
    rw [hreturned]
    rcases h.present issuer order confirmation (hmem _ _ hissued) with hlookup | hreturn | hexpired
    · rcases hkept _ _ hlookup with hsame | hexpired
      · exact .inl hsame
      · exact .inr (.inr ⟨_, List.mem_append_right _ (List.mem_singleton_self _), hexpired⟩)
    · exact .inr (.inl hreturn)
    · obtain ⟨entry, hentry, hlate⟩ := hexpired
      exact .inr (.inr ⟨entry, List.mem_append_left _ hentry, hlate⟩)
  · intro context nonce digest confirmation hentry
    exact (h.asIssued context nonce digest confirmation (hmem _ _ hentry)).mono
      (List.sublist_append_left _ _)

/-- A new confirmation has a nonce that no other has had. -/
theorem Recorded.issue (h : Recorded self log) (hinj : self.nonceFactory.Injective)
    {context : TelegramCommandContext} (order : LiveOrder) {message : String}
    (hauthorize : self.authorize context true = .ok ())
    (hunused : self.nonceFactory log.now.drawn ∉ log.now.consumed) :
    Recorded self ⟨log.past ++ [(.issue context order, .ok
        (self.confirmation context (self.nonceFactory log.now.drawn) order message))],
      { issued := log.now.issued.insert (self.nonceFactory log.now.drawn)
          (self.confirmation context (self.nonceFactory log.now.drawn) order message)
        consumed := log.now.consumed
        drawn := log.now.drawn + 1 }⟩ := by
  set new := self.confirmation context (self.nonceFactory log.now.drawn) order message with hnew
  have hreturned : (log.past ++ [(Call.issue context order, Except.ok new)]).filterMap returned? =
      log.past.filterMap returned? := by
    simp [List.filterMap_append, returned?]
  have hfresh : ∀ issuer order confirmation, (.issue issuer order, .ok confirmation) ∈ log.past →
      confirmation.nonce ≠ self.nonceFactory log.now.drawn := by
    intro issuer order confirmation hissued heq
    obtain ⟨n, hn, hnonce⟩ := (h.issued issuer order confirmation hissued).nonce
    have hsame : n = log.now.drawn := hinj (hnonce.symm.trans heq)
    omega
  have hmem : ∀ issuer order' confirmation, (Call.issue issuer order', Except.ok confirmation) ∈
      log.past ++ [(.issue context order, .ok new)] →
      (.issue issuer order', .ok confirmation) ∈ log.past ∨
        issuer = context ∧ confirmation = new := by
    intro issuer order' confirmation hentry
    rcases List.mem_append.mp hentry with hold | hlast
    · exact .inl hold
    · simp only [List.mem_singleton, Prod.mk.injEq, Call.issue.injEq, Except.ok.injEq] at hlast
      exact .inr ⟨hlast.1.1, hlast.2⟩
  constructor
  · rw [hreturned]
    exact h.once
  · rw [hreturned]
    exact h.consumed
  · intro nonce confirmation hlookup
    by_cases hnonce : nonce = self.nonceFactory log.now.drawn
    · subst hnonce
      rw [AList.lookup_insert, Option.some.injEq] at hlookup
      subst hlookup
      exact ⟨rfl, hunused, context, order, by simp⟩
    · rw [AList.lookup_insert_ne hnonce] at hlookup
      obtain ⟨hown, hnot, issuer, order', hissued⟩ := h.table nonce confirmation hlookup
      exact ⟨hown, hnot, issuer, order', List.mem_append_left _ hissued⟩
  · intro issuer order' confirmation hissued
    rcases hmem _ _ _ hissued with hold | ⟨rfl, rfl⟩
    · exact (h.issued issuer order' confirmation hold).mono (Nat.le_succ _)
    · exact ⟨hauthorize, rfl, rfl, rfl, TelegramRuntime.isAscii_hmac _ _, log.now.drawn,
        Nat.lt_succ_self _, rfl⟩
  · intro issuer order' confirmation hissued
    rw [hreturned]
    rcases hmem _ _ _ hissued with hold | ⟨rfl, rfl⟩
    · rcases h.present issuer order' confirmation hold with hlookup | hreturn | hexpired
      · rw [AList.lookup_insert_ne (hfresh _ _ _ hold)]
        exact .inl hlookup
      · exact .inr (.inl hreturn)
      · obtain ⟨entry, hentry, hlate⟩ := hexpired
        exact .inr (.inr ⟨entry, List.mem_append_left _ hentry, hlate⟩)
    · exact .inl (AList.lookup_insert _)
  · intro context' nonce digest confirmation hentry
    have hold : (Call.consume context' nonce digest, Except.ok confirmation) ∈ log.past := by
      simpa using hentry
    exact (h.asIssued context' nonce digest confirmation hold).mono (List.sublist_append_left _ _)

omit [TelegramRuntime] in
/-- A confirmation that is returned has not been returned before. -/
theorem Recorded.consume (h : Recorded self log) {context : TelegramCommandContext} {nonce : Text}
    {confirmation : LiveConfirmation}
    (hlookup : log.now.issued.lookup nonce = some confirmation)
    (hunused : nonce ∉ log.now.consumed) (hchat : confirmation.chatId = context.chatId)
    (huser : confirmation.userId = context.userId)
    (hexpires : context.nowEpoch ≤ confirmation.expiresAtEpoch) :
    Recorded self
      ⟨log.past ++ [(.consume context nonce confirmation.digest, .ok confirmation)],
        { log.now with
          issued := log.now.issued.erase nonce, consumed := nonce :: log.now.consumed }⟩ := by
  obtain ⟨rfl, -, issuer, order, hissued⟩ := h.table nonce confirmation hlookup
  set entry : Call × Except Exc LiveConfirmation :=
    (.consume context confirmation.nonce confirmation.digest, .ok confirmation) with hentry
  have hreturned : (log.past ++ [entry]).filterMap returned? =
      log.past.filterMap returned? ++ [confirmation] := by
    simp [List.filterMap_append, returned?, hentry]
  have hmem : ∀ issuer order confirmation',
      (Call.issue issuer order, Except.ok confirmation') ∈ log.past ++ [entry] →
      (.issue issuer order, .ok confirmation') ∈ log.past := by
    intro issuer order confirmation' hmem
    simpa [hentry] using hmem
  constructor
  · rw [hreturned, List.map_append, List.nodup_append']
    refine ⟨h.once, List.nodup_singleton _, ?_⟩
    intro nonce hold hlast
    obtain ⟨earlier, hearlier, rfl⟩ := List.mem_map.mp hold
    rw [List.map_singleton, List.mem_singleton] at hlast
    exact hunused (hlast ▸ h.consumed earlier hearlier)
  · intro confirmation' hmem'
    rw [hreturned] at hmem'
    rcases List.mem_append.mp hmem' with hold | hlast
    · exact List.mem_cons_of_mem _ (h.consumed confirmation' hold)
    · rw [List.mem_singleton.mp hlast]
      exact List.mem_cons_self
  · intro nonce' confirmation' hlookup'
    by_cases hnonce : nonce' = confirmation.nonce
    · rw [hnonce, AList.lookup_erase] at hlookup'
      cases hlookup'
    · rw [AList.lookup_erase_ne hnonce] at hlookup'
      obtain ⟨hown, hnot, issuer', order', hissued'⟩ := h.table nonce' confirmation' hlookup'
      refine ⟨hown, ?_, issuer', order', List.mem_append_left _ hissued'⟩
      rw [List.mem_cons, not_or]
      exact ⟨hnonce, hnot⟩
  · intro issuer' order' confirmation' hissued'
    exact h.issued issuer' order' confirmation' (hmem _ _ _ hissued')
  · intro issuer' order' confirmation' hissued'
    rw [hreturned]
    rcases h.present issuer' order' confirmation' (hmem _ _ _ hissued') with
      hlookup' | hreturn | hexpired
    · by_cases hnonce : confirmation'.nonce = confirmation.nonce
      · rw [hnonce, hlookup, Option.some.injEq] at hlookup'
        exact .inr (.inl (by simp [hlookup']))
      · rw [AList.lookup_erase_ne hnonce]
        exact .inl hlookup'
    · exact .inr (.inl (List.mem_append_left _ hreturn))
    · obtain ⟨entry', hentry', hlate⟩ := hexpired
      exact .inr (.inr ⟨entry', List.mem_append_left _ hentry', hlate⟩)
  · intro context' nonce' digest' confirmation' hmem'
    rcases List.mem_append.mp hmem' with hold | hlast
    · exact (h.asIssued context' nonce' digest' confirmation' hold).mono
        (List.sublist_append_left _ _)
    · rw [List.mem_singleton, hentry] at hlast
      obtain ⟨hcall, hok⟩ := Prod.mk.inj hlast
      obtain ⟨rfl, rfl, rfl⟩ := Call.consume.inj hcall
      obtain rfl := Except.ok.inj hok
      have hissuedBy := h.issued issuer order confirmation' hissued
      refine ⟨issuer, order, ?_, hchat.symm.trans hissuedBy.chatId,
        huser.symm.trans hissuedBy.userId, hissuedBy.expires, hexpires, rfl, rfl⟩
      exact (List.singleton_sublist.mpr hissued).append (List.Sublist.refl [entry])

/-- **Every call keeps the invariant.** -/
theorem Recorded.step (h : Recorded self log) (hinj : self.nonceFactory.Injective) (call : Call) :
    Recorded self (log.call (telegram self) call) := by
  cases call with
  | issue context order =>
    rcases issue_cases self log.now context order with
      ⟨e, drawn, hdrawn, heq⟩ | ⟨message, hauthorize, hunused, heq⟩
    · rw [Log.call, telegram, heq]
      exact h.raised e hdrawn rfl (fun _ _ => id) fun _ _ => .inl
    · rw [Log.call, telegram, heq]
      exact h.issue hinj order hauthorize hunused
  | consume context nonce digest =>
    rcases consume_cases self log.now context nonce digest with
      ⟨e, heq⟩ | ⟨confirmation, hlookup, hexpired, heq⟩ |
      ⟨confirmation, hlookup, hunused, hchat, huser, hexpires, rfl, heq⟩
    · rw [Log.call, telegram, heq]
      exact h.raised e le_rfl rfl (fun _ _ => id) fun _ _ => .inl
    · rw [Log.call, telegram, heq]
      refine h.raised _ le_rfl rfl ?_ ?_
      · intro nonce' confirmation' hlookup'
        by_cases hnonce : nonce' = nonce
        · rw [hnonce, AList.lookup_erase] at hlookup'
          cases hlookup'
        · rwa [AList.lookup_erase_ne hnonce] at hlookup'
      · intro nonce' confirmation' hlookup'
        by_cases hnonce : nonce' = nonce
        · rw [hnonce, hlookup, Option.some.injEq] at hlookup'
          exact .inr (hlookup' ▸ hexpired)
        · rw [AList.lookup_erase_ne hnonce]
          exact .inl hlookup'
    · rw [Log.call, telegram, heq]
      exact h.consume hlookup hunused hchat huser hexpires

/-- What the invariant is for. -/
theorem Recorded.confirmedOnce (h : Recorded self log) : ConfirmedOnce self log := by
  refine ⟨h.once, h.asIssued, ?_, ?_⟩
  · intro context nonce digest e herror hreason
    rcases consume_cases self log.now context nonce digest with
      ⟨e', heq⟩ | ⟨confirmation, -, -, heq⟩ | ⟨confirmation, -, -, -, -, -, -, heq⟩
    · rw [telegram, heq]
    · rw [telegram, heq] at herror
      exact absurd (Except.error.inj herror).symm hreason
    · rw [telegram, heq] at herror
      cases herror
  · intro issuer order confirmation hissued hnot context hclock hchat huser hexpires
    have hissuedBy := h.issued issuer order confirmation hissued
    rcases h.present issuer order confirmation hissued with
      hlookup | hreturn | ⟨entry, hentry, hlate⟩
    · obtain ⟨-, hunused, -⟩ := h.table _ _ hlookup
      refine consume_ok ?_ hlookup hunused (hissuedBy.chatId.trans hchat.symm)
        (hissuedBy.userId.trans huser.symm) hexpires hissuedBy.ascii
      rw [authorize_congr hchat huser]
      exact hissuedBy.authorized
    · exact absurd hreturn hnot
    · have hearlier := hclock entry hentry
      omega

end Invariant

/-! ## 6. Confirmations are used once -/

/-- **A live confirmation is used once**, by its principal, in time, and by nobody else: with a
nonce factory that does not repeat itself, after any calls by anyone. -/
theorem confirmed_once [TelegramRuntime] (self : TelegramCommandSecurity)
    (hnonces : self.nonceFactory.Injective) (calls : List Call) :
    ConfirmedOnce self (logOf self calls) := by
  have hrecorded : Recorded self (logOf self calls) :=
    Log.run_keeps (fun _ call h => h.step hnonces call) recorded_new calls
  exact hrecorded.confirmedOnce

section Example

/-- The digest of the one message that is signed below. -/
def digest₀ : Text :=
  .of "ea23f2410bc87706c93e2079f8cff75f226efa85338464f738cfe170d2d4528a"

/-- The runtime on texts in capitals. -/
@[reducible] def runtime₀ : TelegramRuntime where
  upper := id
  hmac := fun _ _ => digest₀
  isAscii_hmac := fun _ _ => by decide

/-- The nonces `n`, `nn`, .. -/
def security₀ : TelegramCommandSecurity where
  allowedChats := [.of "100"]
  allowedUsers := [.of "200"]
  key := List.replicate 16 ⟨0x30, by decide⟩
  stateEnabled := true
  ttl := 60
  nonceFactory := fun n => List.replicate (n + 1) (.scalar 'n')

def context₀ : TelegramCommandContext := ⟨.of "100", .of "200", 1000⟩

def order₀ : LiveOrder := ⟨.of "BTCUSDT", .of "BUY", .of "250", .of "LIVE"⟩

/-- A confirmation is issued, returned, and not returned again. -/
theorem confirmed_once_order₀ :
    ((@logOf runtime₀ security₀ [.issue context₀ order₀, .consume context₀ (.of "n") digest₀,
      .consume context₀ (.of "n") digest₀]).past.filterMap returned?).length = 1 ∧
    @ConfirmedOnce runtime₀ security₀ (@logOf runtime₀ security₀ [.issue context₀ order₀,
      .consume context₀ (.of "n") digest₀, .consume context₀ (.of "n") digest₀]) := by
  refine ⟨by decide, @confirmed_once runtime₀ security₀ ?_ _⟩
  intro n n' h
  have hlength := congrArg List.length h
  simpa [security₀] using hlength

end Example

end Kripto.Monitoring.Telegram
