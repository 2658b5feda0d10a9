/-
# Signed checkpoints of the audit log

`audit/checkpoint.py`: a checkpoint names the Merkle root of the hashes of records and is signed;
it is checked against a list of hashes.

The root does not bind the list.  A last hash that the tree repeats can stand in the list twice
(`repeated_last_accepted`), and a row of the tree can stand in place of the hashes below it.  A
checkpoint is accepted for just the lists that, with all the repetitions, are a row of the same tree
(`checkpoint_binds_iff`).
-/
import Kripto.Effect.Merkle
import Kripto.Effect.Outcome
import Kripto.Python.Text
import Kripto.Python.Json

namespace Kripto.Audit

open Effect Python

namespace Checkpoint

/-! ## 1. Roots -/

inductive Exc
  | valueError (msg : String)
  | dumpError (e : DumpError)

section Hashes

variable [HashBytes]

/-- `hashlib.sha256(x + y).digest()`. -/
def nodeBytes (x y : Bytes) : Bytes := (HashBytes.sha256 (x ++ y)).bytes

/-- The list of bytes that the texts are read as. -/
def readLevel (recordHashes : List Text) : Except Exc (List Bytes) :=
  recordHashes.mapM fun x =>
    match fromhex x with
    | some level => .ok level
    | none => .error (.valueError "non-hexadecimal number found in fromhex() arg")

def merkleRoot (recordHashes : List Text) : Except Exc Text :=
  if recordHashes = [] then .ok (HashBytes.sha256 []).hex
  else do
    let level ← readLevel recordHashes
    -- `level[0]`: a single one is left
    return hex ((climb nodeBytes level).headD [])

/-- A node of digests. -/
def node (d d' : Digest) : Digest := HashBytes.sha256 (d.bytes ++ d'.bytes)

/-- The empty list counts as the digest of nothing. -/
def leavesOf (hashes : List Digest) : List Digest :=
  if hashes = [] then [HashBytes.sha256 []] else hashes

theorem leavesOf_ne_nil (hashes : List Digest) : leavesOf hashes ≠ [] := by
  unfold leavesOf
  split_ifs with hnil
  · exact List.cons_ne_nil _ _
  · exact hnil

omit [HashBytes] in
theorem readLevel_hex (hashes : List Digest) :
    readLevel (hashes.map Digest.hex) = .ok (hashes.map Digest.bytes) := by
  induction hashes with
  | nil => rfl
  | cons d hashes ih =>
    rw [readLevel] at ih ⊢
    rw [List.map_cons, List.mapM_cons, Digest.fromhex_hex, ih]
    rfl

/-- The loop on digests is the one on their bytes. -/
theorem climb_bytes (hashes : List Digest) :
    climb nodeBytes (hashes.map Digest.bytes) = (climb node hashes).map Digest.bytes :=
  climb_map (fun _ _ => rfl) hashes

/-- **The root** of a list of digests. -/
theorem merkleRoot_hex (hashes : List Digest) : ∃ root, climb node (leavesOf hashes) = [root] ∧
    merkleRoot (hashes.map Digest.hex) = .ok root.hex := by
  obtain ⟨root, hroot⟩ := List.length_eq_one_iff.mp (length_climb node (leavesOf_ne_nil hashes))
  refine ⟨root, hroot, ?_⟩
  unfold leavesOf at hroot
  split_ifs at hroot with hnil
  · rw [climb, if_neg (by simp), List.singleton_inj] at hroot
    rw [← hroot, hnil]
    rfl
  · have hbytes : climb nodeBytes (hashes.map Digest.bytes) = [root.bytes] := by
      rw [climb_bytes, hroot, List.map_singleton]
    rw [merkleRoot, if_neg (by simpa using hnil), readLevel_hex, ok_bind, hbytes]
    rfl

theorem merkleRoot_eq_iff_climb {hashes hashes' : List Digest} :
    merkleRoot (hashes.map Digest.hex) = merkleRoot (hashes'.map Digest.hex) ↔
      climb node (leavesOf hashes) = climb node (leavesOf hashes') := by
  obtain ⟨root, hclimb, hroot⟩ := merkleRoot_hex hashes
  obtain ⟨root', hclimb', hroot'⟩ := merkleRoot_hex hashes'
  rw [hroot, hroot', hclimb, hclimb', Except.ok.injEq, Digest.hex_injective.eq_iff,
    List.singleton_inj]

/-- What is hashed for the root. -/
def HashedBytes (hashes : List Digest) : Set Bytes :=
  {data | ∃ d d', Hashed node hashes (d, d') ∧ data = d.bytes ++ d'.bytes}

/-- One of the lists, with all the repetitions, is a row of the tree over the other. -/
def SameTree (hashes hashes' : List Digest) : Prop :=
  RowOver node (leavesOf hashes) (leavesOf hashes') ∨
    RowOver node (leavesOf hashes') (leavesOf hashes)

theorem hashed_leavesOf {hashes : List Digest} {p : Digest × Digest}
    (h : Hashed node (leavesOf hashes) p) : Hashed node hashes p := by
  unfold leavesOf at h
  split_ifs at h
  · cases h with
    | here hlong => simp at hlong
    | above hlong => simp at hlong
  · exact h

/-- **Equal roots**, if no two byte strings that are hashed for them collide. -/
theorem merkleRoot_eq_iff {hashes hashes' : List Digest}
    (hinjective : Set.InjOn HashBytes.sha256 (HashedBytes hashes ∪ HashedBytes hashes')) :
    merkleRoot (hashes.map Digest.hex) = merkleRoot (hashes'.map Digest.hex) ↔
      SameTree hashes hashes' := by
  have hnodes : Set.InjOn (Function.uncurry node)
      {p | Hashed node (leavesOf hashes) p ∨ Hashed node (leavesOf hashes') p} := by
    rintro ⟨c, d⟩ hp ⟨c', d'⟩ hp' heq
    have hmem : ∀ {c d : Digest}, Hashed node (leavesOf hashes) (c, d) ∨
        Hashed node (leavesOf hashes') (c, d) →
          c.bytes ++ d.bytes ∈ HashedBytes hashes ∪ HashedBytes hashes' :=
      fun h => h.imp (fun h => ⟨_, _, hashed_leavesOf h, rfl⟩)
        fun h => ⟨_, _, hashed_leavesOf h, rfl⟩
    obtain ⟨rfl, rfl⟩ := Digest.append_inj (hinjective (hmem hp) (hmem hp') heq)
    rfl
  rw [merkleRoot_eq_iff_climb, SameTree,
    climb_eq_iff (leavesOf_ne_nil _) (leavesOf_ne_nil _) hnodes]

/-! ## 2. Checkpoints -/

/-- What is signed. -/
structure Unsigned where
  sequence : ℤ
  rootHash : Text
  previousCheckpointHash : Option Text
  actor : Text
  action : Text
  objectRef : Text
  correlationId : Text
  reason : Text
  releaseVersion : Text
  createdAt : Text

structure AuditCheckpoint extends Unsigned where
  signature : String

def orNone : Option Text → PyValue
  | some s => .str s
  | none => .none

/-- What is written for it. -/
def orNull : Option Text → Text
  | some s => quote true s
  | none => Text.of "null"

def Unsigned.payload (u : Unsigned) : Dict :=
  [(.str (Text.of "sequence"), .int u.sequence), (.str (Text.of "root_hash"), .str u.rootHash),
    (.str (Text.of "previous_checkpoint_hash"), orNone u.previousCheckpointHash),
    (.str (Text.of "actor"), .str u.actor), (.str (Text.of "action"), .str u.action),
    (.str (Text.of "object_ref"), .str u.objectRef),
    (.str (Text.of "correlation_id"), .str u.correlationId),
    (.str (Text.of "reason"), .str u.reason),
    (.str (Text.of "release_version"), .str u.releaseVersion),
    (.str (Text.of "created_at"), .str u.createdAt)]

/-- `hmac.new(secret, json.dumps(unsigned, ..).encode(), hashlib.sha256).hexdigest()`. -/
def sign (secret : Bytes) (u : Unsigned) : Except Exc String := do
  return HashBytes.hmac secret (← ((PyValue.dict u.payload).bytes {}).mapError .dumpError)

/-- The arguments of `create_checkpoint`, the record hashes aside. -/
structure CreateArgs where
  sequence : ℤ
  secret : Bytes
  previousCheckpointHash : Option Text := none
  actor : Text
  action : Text
  objectRef : Text
  correlationId : Text
  reason : Text
  releaseVersion : Text
  createdAt : Option Text := none

/-- `now` is what the clock reads. -/
def createCheckpoint (now : Text) (recordHashes : List Text) (a : CreateArgs) :
    Except Exc AuditCheckpoint :=
  if a.secret = [] then .error (.valueError "checkpoint signing secret required")
  else do
    let ts :=
      match a.createdAt with
      | some t => if t = [] then now else t
      | none => now
    let rootHash ← merkleRoot recordHashes
    let unsigned : Unsigned :=
      { sequence := a.sequence, rootHash, previousCheckpointHash := a.previousCheckpointHash
        actor := a.actor, action := a.action, objectRef := a.objectRef
        correlationId := a.correlationId, reason := a.reason, releaseVersion := a.releaseVersion
        createdAt := ts }
    let signature ← sign a.secret unsigned
    return { unsigned with signature }

def verifyCheckpoint (checkpoint : AuditCheckpoint) (recordHashes : List Text) (secret : Bytes)
    (expectedPreviousHash : Option Text) : Except Exc Bool := do
  if checkpoint.rootHash ≠ (← merkleRoot recordHashes) then return false
  else if checkpoint.previousCheckpointHash ≠ expectedPreviousHash then return false
  else
    let expected ← sign secret checkpoint.toUnsigned
    return expected = checkpoint.signature

/-- The fields in the order of their keys, as they are written. -/
def Unsigned.sorted (u : Unsigned) : List (Text × Text) :=
  [(Text.of "action", quote true u.action), (Text.of "actor", quote true u.actor),
    (Text.of "correlation_id", quote true u.correlationId),
    (Text.of "created_at", quote true u.createdAt), (Text.of "object_ref", quote true u.objectRef),
    (Text.of "previous_checkpoint_hash", orNull u.previousCheckpointHash),
    (Text.of "reason", quote true u.reason),
    (Text.of "release_version", quote true u.releaseVersion),
    (Text.of "root_hash", quote true u.rootHash),
    (Text.of "sequence", Text.of (toString u.sequence))]

omit [HashBytes] in
theorem dumps_unsigned (u : Unsigned) :
    (PyValue.dict u.payload).dumps {} = .ok (writeDict true u.sorted) := by
  have hnull : (orNone u.previousCheckpointHash).dumps {} =
      .ok (orNull u.previousCheckpointHash) := by
    cases u.previousCheckpointHash <;> rfl
  simp only [Unsigned.payload, PyValue.dumps, dumpsFields, hnull]
  rfl

omit [HashBytes] in
theorem encodable_unsigned (u : Unsigned) : (writeDict true u.sorted).Encodable := by
  have hnull : (orNull u.previousCheckpointHash).Encodable := by
    cases u.previousCheckpointHash with
    | none => exact Text.encodable_of _
    | some s => exact encodable_quote_ascii s
  refine encodable_writeDict fun e he => ?_
  simp only [Unsigned.sorted, List.mem_cons, List.not_mem_nil, or_false] at he
  rcases he with rfl | rfl | rfl | rfl | rfl | rfl | rfl | rfl | rfl | rfl <;>
    refine ⟨Text.encodable_of _, ?_⟩
  all_goals first
    | exact encodable_quote_ascii _
    | exact Text.encodable_of _
    | exact hnull

/-- What is signed can be written as JSON. -/
theorem sign_eq (secret : Bytes) (u : Unsigned) :
    sign secret u = .ok (HashBytes.hmac secret (writeDict true u.sorted).chars) := by
  rw [sign, PyValue.bytes, dumps_unsigned, ok_bind, (encodable_unsigned u).encode]
  rfl

/-- A checkpoint that was created names the root and the previous checkpoint, and its signature is
the right one. -/
theorem createCheckpoint_eq_ok {now : Text} {recordHashes : List Text} {a : CreateArgs}
    {checkpoint : AuditCheckpoint} (h : createCheckpoint now recordHashes a = .ok checkpoint) :
    merkleRoot recordHashes = .ok checkpoint.rootHash ∧
      checkpoint.previousCheckpointHash = a.previousCheckpointHash ∧
        sign a.secret checkpoint.toUnsigned = .ok checkpoint.signature := by
  unfold createCheckpoint at h
  split_ifs at h
  simp only [bind_eq_ok_iff, pure_eq_ok, Except.ok.injEq] at h
  obtain ⟨rootHash, hroot, signature, hsign, rfl⟩ := h
  exact ⟨hroot, rfl, hsign⟩

/-- **A checkpoint** can be created for every list of digests. -/
theorem exists_checkpoint (now : Text) (hashes : List Digest) {a : CreateArgs}
    (hsecret : a.secret ≠ []) :
    ∃ checkpoint, createCheckpoint now (hashes.map Digest.hex) a = .ok checkpoint := by
  obtain ⟨root, -, hroot⟩ := merkleRoot_hex hashes
  rw [createCheckpoint, if_neg hsecret, hroot, ok_bind]
  simp only [sign_eq, ok_bind]
  exact ⟨_, rfl⟩

/-- **A checkpoint that was created** is accepted, under the same secret and previous hash, for the
lists with the same root. -/
theorem verify_created {now : Text} {hashes : List Digest} {a : CreateArgs}
    {checkpoint : AuditCheckpoint}
    (h : createCheckpoint now (hashes.map Digest.hex) a = .ok checkpoint) (hashes' : List Digest) :
    verifyCheckpoint checkpoint (hashes'.map Digest.hex) a.secret a.previousCheckpointHash =
      .ok true ↔ merkleRoot (hashes.map Digest.hex) = merkleRoot (hashes'.map Digest.hex) := by
  obtain ⟨hroot, hprevious, hsign⟩ := createCheckpoint_eq_ok h
  obtain ⟨root', -, hroot'⟩ := merkleRoot_hex hashes'
  rw [hroot, hroot', Except.ok.injEq, verifyCheckpoint, hroot', ok_bind]
  split_ifs with hne hold
  · exact iff_of_false nofun hne
  · exact absurd hprevious hold
  · rw [hsign, ok_bind]
    exact iff_of_true (by simp [pure_eq_ok]) (not_not.mp hne)

/-- **What a checkpoint binds.**  The root tells two lists apart, and a checkpoint of the one is
refused for the other, unless one of the lists, with all the repetitions, is a row of the tree over
the other. -/
theorem checkpoint_binds_iff (hashes hashes' : List Digest)
    (hinjective : Set.InjOn HashBytes.sha256 (HashedBytes hashes ∪ HashedBytes hashes'))
    (now : Text) (a : CreateArgs) (checkpoint : AuditCheckpoint)
    (hcreate : createCheckpoint now (hashes.map Digest.hex) a = .ok checkpoint) :
    ((merkleRoot (hashes.map Digest.hex) = merkleRoot (hashes'.map Digest.hex) →
        hashes' = hashes) ∧
      (verifyCheckpoint checkpoint (hashes'.map Digest.hex) a.secret a.previousCheckpointHash =
        .ok true → hashes' = hashes)) ↔
      (SameTree hashes hashes' → hashes' = hashes) := by
  rw [verify_created hcreate, merkleRoot_eq_iff hinjective, and_self_iff]

/-- What the loop repeats may stand in the list. -/
theorem merkleRoot_evened {hashes : List Digest} (hlong : 1 < hashes.length) :
    merkleRoot ((evened hashes).map Digest.hex) = merkleRoot (hashes.map Digest.hex) := by
  have hne : hashes ≠ [] := List.length_pos_iff.mp (by omega)
  have hevened : evened hashes ≠ [] := by
    refine List.length_pos_iff.mp ?_
    rw [length_evened]
    omega
  rw [merkleRoot_eq_iff_climb, leavesOf, leavesOf, if_neg hne, if_neg hevened,
    climb_evened _ hlong]

end Hashes

/-! ## 3. A hash that stands in the list twice -/

def riskLimitChange : CreateArgs where
  sequence := 3
  secret := "secret".toList.map fun c => Fin.ofNat 256 c.toNat
  actor := Text.of "admin"
  action := Text.of "RISK_LIMIT_CHANGE"
  objectRef := Text.of "risk/max_drawdown"
  correlationId := Text.of "corr-1"
  reason := Text.of "approved change"
  releaseVersion := Text.of "0.3.0"

def digestOf (b : Fin 256) : Digest := ⟨List.replicate 32 b, rfl⟩

/-- Whatever the hash function, **a checkpoint over three hashes** is accepted for the four that one
gets by repeating the last of them. -/
theorem repeated_last_accepted :
    [digestOf 0x11, digestOf 0x22, digestOf 0x33, digestOf 0x33] ≠
        [digestOf 0x11, digestOf 0x22, digestOf 0x33] ∧
      ∀ [HashBytes], ∃ checkpoint,
        createCheckpoint [] ([digestOf 0x11, digestOf 0x22, digestOf 0x33].map Digest.hex)
            riskLimitChange = .ok checkpoint ∧
          verifyCheckpoint checkpoint
            ([digestOf 0x11, digestOf 0x22, digestOf 0x33, digestOf 0x33].map Digest.hex)
            riskLimitChange.secret none = .ok true := by
  refine ⟨by decide, ?_⟩
  intro _
  obtain ⟨checkpoint, hcreate⟩ := exists_checkpoint [] [digestOf 0x11, digestOf 0x22, digestOf 0x33]
    (by decide : riskLimitChange.secret ≠ [])
  have hlong : 1 < [digestOf 0x11, digestOf 0x22, digestOf 0x33].length := by decide
  exact ⟨checkpoint, hcreate, (verify_created hcreate _).mpr (merkleRoot_evened hlong).symm⟩

/-- A digest that tells apart byte strings with different beginnings. -/
@[reducible] def firstBytes : HashBytes :=
  ⟨fun data => ⟨(data ++ List.replicate 32 (Fin.ofNat 256 0)).take 32, by simp⟩,
    fun _ message => message⟩

/-- Two hashes are hashed together, and nothing else. -/
theorem hashedBytes_pair [HashBytes] {c d : Digest} {data : Bytes}
    (h : data ∈ HashedBytes [c, d]) : data = c.bytes ++ d.bytes := by
  obtain ⟨x, y, hashed, rfl⟩ := h
  have hevened : evened [c, d] = [c, d] := by simp [evened]
  cases hashed with
  | @here _ before after _ _ _ heven hrow =>
    rw [hevened] at hrow
    rcases before with _ | ⟨_, _ | ⟨_, before⟩⟩
    · obtain ⟨rfl, rfl, -⟩ : c = x ∧ d = y ∧ [] = after := by simpa using hrow
      rfl
    · simp at heven
    · simp at hrow
  | above _ hp =>
    cases hp with
    | here hlong => simp [hevened, paired] at hlong
    | above hlong => simp [hevened, paired] at hlong

theorem checkpoint_binds_iff_swapped : ∃ checkpoint,
    @createCheckpoint firstBytes [] ([digestOf 0x11, digestOf 0x22].map Digest.hex)
        riskLimitChange = .ok checkpoint ∧
      (((@merkleRoot firstBytes ([digestOf 0x11, digestOf 0x22].map Digest.hex) =
            @merkleRoot firstBytes ([digestOf 0x22, digestOf 0x11].map Digest.hex) →
          [digestOf 0x22, digestOf 0x11] = [digestOf 0x11, digestOf 0x22]) ∧
        (@verifyCheckpoint firstBytes checkpoint
            ([digestOf 0x22, digestOf 0x11].map Digest.hex) riskLimitChange.secret none = .ok true →
          [digestOf 0x22, digestOf 0x11] = [digestOf 0x11, digestOf 0x22])) ↔
        (@SameTree firstBytes [digestOf 0x11, digestOf 0x22] [digestOf 0x22, digestOf 0x11] →
          [digestOf 0x22, digestOf 0x11] = [digestOf 0x11, digestOf 0x22])) := by
  obtain ⟨checkpoint, hcreate⟩ := @exists_checkpoint firstBytes [] [digestOf 0x11, digestOf 0x22]
    riskLimitChange (by decide)
  have hinjective : Set.InjOn firstBytes.sha256
      (@HashedBytes firstBytes [digestOf 0x11, digestOf 0x22] ∪
        @HashedBytes firstBytes [digestOf 0x22, digestOf 0x11]) := by
    rintro data (h | h) data' (h' | h') heq <;>
      rw [@hashedBytes_pair firstBytes _ _ _ h, @hashedBytes_pair firstBytes _ _ _ h'] at heq ⊢
    · exact absurd heq (by decide)
    · exact absurd heq (by decide)
  exact ⟨checkpoint, hcreate, @checkpoint_binds_iff firstBytes _ _ hinjective [] riskLimitChange
    checkpoint hcreate⟩

end Checkpoint

end Kripto.Audit
