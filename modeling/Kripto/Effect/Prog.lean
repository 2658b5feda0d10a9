/-
# Programs as trees of operations, and what can be proved of them

The services modelled in this development are sequential code that talks to shared stores: a
database, a remote system, a directory tree.  What matters about such code is the ORDER of its
operations, what it does with each answer, and where it can be interrupted.  So a program here
is a finite tree: a node asks for one operation and branches on the answer, which is a value
or an exception.  Nothing about the stores is fixed until a `Handler` says which answers an
operation can have in a state and what it leaves behind.

Three readings of one tree are used:

* `Exec`: a prefix of a run, stopped anywhere.  A crash is a prefix; a complete run (`Runs`) is
  a prefix that ends at a leaf.
* `wp`: the weakest precondition under a `Protocol` -- what other parties may do between two
  operations (`rely`), what each operation of this party has to respect (`guar`), and an
  invariant that holds after every operation (`inv`).  With no other parties this is plain
  Hoare logic; with the invariant read as a crash condition it is crash Hoare logic.
* `may`: the angelic counterpart, some run ends as wanted.

`wp_exec` and `may_iff` tie the two calculi to `Exec`.
-/
import Mathlib.Logic.Relation

namespace Effect

/-! ## 1. Signatures and programs -/

/-- The operations of a store or service, the value each of them returns, and the exceptions
it can raise instead. -/
structure Sig where
  Op : Type
  Val : Op → Type
  Exc : Type

/-- What an operation answers: an exception, or its value. -/
abbrev Sig.Ans (S : Sig) (o : S.Op) : Type := Except S.Exc (S.Val o)

/-- A program over a signature.  `op o k` performs `o` and goes on with `k` at the answer. -/
inductive Prog (S : Sig) (α : Type) : Type
  | ret (a : α)
  | raise (e : S.Exc)
  | op (o : S.Op) (k : S.Ans o → Prog S α)

namespace Prog

variable {S : Sig} {α β γ : Type}

/-- Sequencing.  An exception skips what follows. -/
def bind : Prog S α → (α → Prog S β) → Prog S β
  | ret a, f => f a
  | raise e, _ => raise e
  | op o k, f => op o fun r => (k r).bind f

/-- A program whose outcome is already known. -/
def ofExcept : Except S.Exc α → Prog S α
  | .ok a => ret a
  | .error e => raise e

/-- Perform one operation; its exception, if any, is this program's. -/
def perform (o : S.Op) : Prog S (S.Val o) := op o ofExcept

/-- Run a program and hand over its outcome, exception included. -/
def attempt : Prog S α → Prog S (Except S.Exc α)
  | ret a => ret (.ok a)
  | raise e => ret (.error e)
  | op o k => op o fun r => (k r).attempt

instance : Monad (Prog S) where
  pure := ret
  bind := bind

instance : LawfulMonad (Prog S) := LawfulMonad.mk' (Prog S)
  (fun p => by
    change p.bind ret = p
    induction p with
    | op o k ih => exact congrArg (op o) (funext ih)
    | _ => rfl)
  (fun _ _ => rfl)
  (fun p f g => by
    change (p.bind f).bind g = p.bind fun a => (f a).bind g
    induction p with
    | op o k ih => exact congrArg (op o) (funext ih)
    | _ => rfl)

/-- `try p except h`. -/
def tryCatch (p : Prog S α) (h : S.Exc → Prog S α) : Prog S α :=
  p.attempt >>= fun
    | .ok a => ret a
    | .error e => h e

/-- `with` / `finally`: `fin` runs after `p` whether `p` returned or raised. -/
def finally_ (p : Prog S α) (fin : Prog S Unit) : Prog S α :=
  p.attempt >>= fun r => fin >>= fun _ => ofExcept r

/-- Every operation the program can ever ask for satisfies `A`. -/
def Within (A : S.Op → Prop) : Prog S α → Prop
  | ret _ => True
  | raise _ => True
  | op o k => A o ∧ ∀ r, (k r).Within A

/-- Every value the program can return satisfies `P`, whatever the operations answer. -/
def Returns (P : α → Prop) : Prog S α → Prop
  | ret a => P a
  | raise _ => True
  | op _ k => ∀ r, (k r).Returns P

theorem returns_ofExcept {P : α → Prop} {r : Except S.Exc α} (h : ∀ a, r = .ok a → P a) :
    (ofExcept r).Returns P := by
  cases r with
  | ok a => exact h a rfl
  | error e => trivial

theorem returns_any (p : Prog S α) : p.Returns fun _ => True := by
  induction p with
  | op o k ih => exact ih
  | _ => trivial

theorem Returns.mono {P P' : α → Prop} {p : Prog S α} (h : p.Returns P) (hP : ∀ a, P a → P' a) :
    p.Returns P' := by
  induction p with
  | ret a => exact hP a h
  | raise e => trivial
  | op o k ih => exact fun r => ih r (h r)

theorem Returns.bind {P : α → Prop} {P' : β → Prop} {p : Prog S α} {f : α → Prog S β}
    (hp : p.Returns P) (hf : ∀ a, P a → (f a).Returns P') : (p >>= f).Returns P' := by
  induction p with
  | ret a => exact hf a hp
  | raise e => trivial
  | op o k ih => exact fun r => ih r (hp r)

theorem returns_perform {o : S.Op} : (perform o).Returns fun _ => True :=
  fun _ => returns_ofExcept fun _ _ => trivial

/-- Every exception of the program satisfies `P`, if those of its operations do. -/
def Raises (P : S.Exc → Prop) : Prog S α → Prop
  | ret _ => True
  | raise e => P e
  | op _ k => ∀ r, (∀ e, r = .error e → P e) → (k r).Raises P

section Raises

variable {P : S.Exc → Prop}

theorem raises_pure (a : α) : (pure a : Prog S α).Raises P := trivial

theorem raises_ofExcept {r : Except S.Exc α} (h : ∀ e, r = .error e → P e) :
    (ofExcept r).Raises P := by
  cases r with
  | ok a => trivial
  | error e => exact h e rfl

theorem raises_perform {o : S.Op} : (perform o).Raises P := fun _ h => raises_ofExcept h

theorem Raises.bind {p : Prog S α} {f : α → Prog S β} (hp : p.Raises P)
    (hf : ∀ a, (f a).Raises P) : (p >>= f).Raises P := by
  induction p with
  | ret a => exact hf a
  | raise e => exact hp
  | op o k ih => exact fun r hr => ih r (hp r hr)

/-- What follows an attempt has to deal with the exceptions of `P` only. -/
theorem Raises.attempt_bind {p : Prog S α} {f : Except S.Exc α → Prog S β} (hp : p.Raises P)
    (hf : ∀ r, (∀ e, r = .error e → P e) → (f r).Raises P) : (p.attempt >>= f).Raises P := by
  induction p with
  | ret a => exact hf (.ok a) fun e he => nomatch he
  | raise e =>
    refine hf (.error e) ?_
    rintro e' ⟨⟩
    exact hp
  | op o k ih => exact fun r hr => ih r (hp r hr)

theorem Raises.tryCatch {p : Prog S α} {h : S.Exc → Prog S α} (hp : p.Raises P)
    (hh : ∀ e, P e → (h e).Raises P) : (p.tryCatch h).Raises P := by
  refine hp.attempt_bind fun r hr => ?_
  cases r with
  | ok a => trivial
  | error e => exact hh e (hr e rfl)

end Raises

section Within

variable {A B : S.Op → Prop}

@[simp] theorem within_ret (a : α) : (ret a : Prog S α).Within A := trivial

@[simp] theorem within_pure (a : α) : (pure a : Prog S α).Within A := trivial

@[simp] theorem within_raise (e : S.Exc) : (raise e : Prog S α).Within A := trivial

@[simp] theorem within_ofExcept (r : Except S.Exc α) : (ofExcept r).Within A := by
  cases r <;> trivial

@[simp] theorem within_perform {o : S.Op} : (perform o).Within A ↔ A o :=
  ⟨fun h => h.1, fun h => ⟨h, fun r => by cases r <;> trivial⟩⟩

theorem Within.mono {p : Prog S α} (h : p.Within A) (hAB : ∀ o, A o → B o) : p.Within B := by
  induction p with
  | ret a => trivial
  | raise e => trivial
  | op o k ih => exact ⟨hAB o h.1, fun r => ih r (h.2 r)⟩

theorem Within.bind {p : Prog S α} {f : α → Prog S β} (hp : p.Within A)
    (hf : ∀ a, (f a).Within A) : (p >>= f).Within A := by
  induction p with
  | ret a => exact hf a
  | raise e => trivial
  | op o k ih => exact ⟨hp.1, fun r => ih r (hp.2 r)⟩

theorem Within.bind_returns {P : α → Prop} {p : Prog S α} {f : α → Prog S β} (hp : p.Within A)
    (hreturns : p.Returns P) (hf : ∀ a, P a → (f a).Within A) : (p >>= f).Within A := by
  induction p with
  | ret a => exact hf a hreturns
  | raise e => trivial
  | op o k ih => exact ⟨hp.1, fun r => ih r (hp.2 r) (hreturns r)⟩

theorem Within.attempt {p : Prog S α} (hp : p.Within A) : p.attempt.Within A := by
  induction p with
  | ret a => trivial
  | raise e => trivial
  | op o k ih => exact ⟨hp.1, fun r => ih r (hp.2 r)⟩

theorem Within.tryCatch {p : Prog S α} {h : S.Exc → Prog S α} (hp : p.Within A)
    (hh : ∀ e, (h e).Within A) : (p.tryCatch h).Within A := by
  refine hp.attempt.bind fun r => ?_
  cases r with
  | ok a => trivial
  | error e => exact hh e

end Within

end Prog

/-! ## 2. Handlers, prefixes of runs, complete runs -/

variable {S : Sig} {σ α β : Type}

/-- `H o s r s'`: in state `s` the operation `o` can answer `r` and leave `s'`. -/
abbrev Handler (S : Sig) (σ : Type) : Type := (o : S.Op) → σ → S.Ans o → σ → Prop

/-- The runs of `H` all of whose steps meet `cond`. -/
def Handler.meeting (H : Handler S σ) (cond : (o : S.Op) → σ → S.Ans o → Prop) : Handler S σ :=
  fun o s r s' => H o s r s' ∧ cond o s r

/-- The handler with an observer beside it.  The observer sees every operation, the state it found
and its answer, and influences nothing. -/
def Handler.noting {γ : Type} (H : Handler S σ) (note : (o : S.Op) → σ → S.Ans o → γ → γ) :
    Handler S (σ × γ) :=
  fun o s r s' => H o s.1 r s'.1 ∧ s'.2 = note o s.1 r s.2

/-- The handler with others at work: before each operation they change the state as they may. -/
def Handler.amid (H : Handler S σ) (others : σ → σ → Prop) : Handler S σ :=
  fun o s r s' => ∃ s₁, others s s₁ ∧ H o s₁ r s'

/-- `Exec H p s p' s'`: started on `p` in `s`, a run can have got to `s'` with `p'` left to do. -/
inductive Exec (H : Handler S σ) : Prog S α → σ → Prog S α → σ → Prop
  | refl (p : Prog S α) (s : σ) : Exec H p s p s
  | step {o : S.Op} {k : S.Ans o → Prog S α} {s s' s'' : σ} {r : S.Ans o} {p : Prog S α}
      (h : H o s r s') (rest : Exec H (k r) s' p s'') : Exec H (.op o k) s p s''

/-- A complete run with its outcome. -/
def Runs (H : Handler S σ) (p : Prog S α) (s : σ) (r : Except S.Exc α) (s' : σ) : Prop :=
  Exec H p s (Prog.ofExcept r) s'

theorem Exec.mono {H H' : Handler S σ} (hH : ∀ o s r s', H o s r s' → H' o s r s')
    {p p' : Prog S α} {s s' : σ} (h : Exec H p s p' s') : Exec H' p s p' s' := by
  induction h with
  | refl p s => exact .refl p s
  | step h _ ih => exact .step (hH _ _ _ _ h) ih

/-- What is left to do keeps to the same operations. -/
theorem Exec.within {H : Handler S σ} {A : S.Op → Prop} {p p' : Prog S α} {s s' : σ}
    (h : Exec H p s p' s') (hp : p.Within A) : p'.Within A := by
  induction h with
  | refl => exact hp
  | step _ _ ih => exact ih (hp.2 _)

/-- What every operation keeps, every prefix of a run keeps. -/
theorem Exec.keeps {H : Handler S σ} {P : σ → Prop} {p p' : Prog S α} {s s' : σ}
    (h : Exec H p s p' s') (hop : ∀ o s r s', P s → H o s r s' → P s') (hs : P s) : P s' := by
  induction h with
  | refl => exact hs
  | step h _ ih => exact ih (hop _ _ _ _ hs h)

theorem Runs.keeps {H : Handler S σ} {P : σ → Prop} {p : Prog S α} {s s' : σ}
    {r : Except S.Exc α} (h : Runs H p s r s') (hop : ∀ o s r s', P s → H o s r s' → P s')
    (hs : P s) : P s' :=
  Exec.keeps h hop hs

theorem Exec.of_meeting {H : Handler S σ} {cond : (o : S.Op) → σ → S.Ans o → Prop}
    {p p' : Prog S α} {s s' : σ} (h : Exec (H.meeting cond) p s p' s') : Exec H p s p' s' :=
  h.mono fun _ _ _ _ => And.left

theorem Runs.of_meeting {H : Handler S σ} {cond : (o : S.Op) → σ → S.Ans o → Prop}
    {p : Prog S α} {s s' : σ} {r : Except S.Exc α} (h : Runs (H.meeting cond) p s r s') :
    Runs H p s r s' :=
  Exec.of_meeting h

/-! ## 3. Protocols and the weakest precondition -/

/-- What a party `t` may assume of the others between two of its operations (`rely`), and what
each operation of `t` has to respect (`guar`), around an invariant of the shared state.  The
last field is what makes the assumptions of the parties fit: a step that respects one party's
guarantee is a step every other party reckons with. -/
structure Protocol (ι σ : Type) where
  inv : σ → Prop
  rely : ι → σ → σ → Prop
  guar : ι → σ → σ → Prop
  rely_refl : ∀ t s, rely t s s
  rely_trans : ∀ t {a b c}, rely t a b → rely t b c → rely t a c
  compat : ∀ {t u s s'}, t ≠ u → inv s → inv s' → guar t s s' → rely u s s'

/-- The protocol of a party that runs alone: nobody interferes, `inv` holds after every
operation (also when the run is cut short there), and every operation respects `guar`. -/
def Protocol.alone (inv : σ → Prop) (guar : σ → σ → Prop) : Protocol Unit σ where
  inv := inv
  rely := fun _ => Eq
  guar := fun _ => guar
  rely_refl := fun _ _ => rfl
  rely_trans := fun _ {_ _ _} => Eq.trans
  compat := fun h => absurd rfl h

/-- No other parties and no obligations: plain Hoare logic. -/
def Protocol.free : Protocol Unit σ := .alone (fun _ => True) fun _ _ => True

/-- A party that runs alone and has to keep `inv` true after every operation: crash Hoare logic. -/
abbrev Protocol.keeping (inv : σ → Prop) : Protocol Unit σ := .alone inv fun _ _ => True

/-- An assertion the other parties cannot falsify. -/
def Protocol.Stable {ι : Type} (D : Protocol ι σ) (t : ι) (P : σ → Prop) : Prop :=
  ∀ s s', P s → D.rely t s s' → D.inv s' → P s'

theorem Protocol.stable_alone {inv : σ → Prop} {guar : σ → σ → Prop} (P : σ → Prop) :
    (Protocol.alone inv guar).Stable () P := by
  rintro s s' h rfl _
  exact h

section Wp

variable {ι : Type} (H : Handler S σ) (D : Protocol ι σ) (t : ι)

/-- The weakest precondition of a program run by party `t`: whatever the others do in between
and whatever the handler answers, every operation respects `D` and the outcome satisfies `Q`. -/
def wp : Prog S α → (Except S.Exc α → σ → Prop) → σ → Prop
  | .ret a, Q, s => Q (.ok a) s
  | .raise e, Q, s => Q (.error e) s
  | .op o k, Q, s => ∀ s₁, D.rely t s s₁ → D.inv s₁ → ∀ r s₂, H o s₁ r s₂ →
      D.guar t s₁ s₂ ∧ D.inv s₂ ∧ wp (k r) Q s₂

/-- What a sequence asks of its first part: a value goes on, an exception is the outcome. -/
def onOk (f : α → σ → Prop) (Q : Except S.Exc β → σ → Prop) : Except S.Exc α → σ → Prop
  | .ok a, s => f a s
  | .error e, s => Q (.error e) s

/-- What `try` asks of its body: an exception goes to the handler, a value is the outcome. -/
def onError (f : S.Exc → σ → Prop) (Q : Except S.Exc α → σ → Prop) : Except S.Exc α → σ → Prop
  | .ok a, s => Q (.ok a) s
  | .error e, s => f e s

@[simp] theorem onError_ok (f : S.Exc → σ → Prop) (Q : Except S.Exc α → σ → Prop) (a : α)
    (s : σ) : onError f Q (.ok a) s = Q (.ok a) s := rfl

@[simp] theorem onError_error (f : S.Exc → σ → Prop) (Q : Except S.Exc α → σ → Prop)
    (e : S.Exc) (s : σ) : onError f Q (.error e) s = f e s := rfl

@[simp] theorem onOk_ok (f : α → σ → Prop) (Q : Except S.Exc β → σ → Prop) (a : α) (s : σ) :
    onOk f Q (.ok a) s = f a s := rfl

@[simp] theorem onOk_error (f : α → σ → Prop) (Q : Except S.Exc β → σ → Prop) (e : S.Exc)
    (s : σ) : onOk (α := α) f Q (.error e) s = Q (.error e) s := rfl

variable {H D t}

@[simp] theorem wp_ret {a : α} {Q : Except S.Exc α → σ → Prop} {s : σ} :
    wp H D t (.ret a) Q s ↔ Q (.ok a) s := Iff.rfl

@[simp] theorem wp_pure {a : α} {Q : Except S.Exc α → σ → Prop} {s : σ} :
    wp H D t (pure a) Q s ↔ Q (.ok a) s := Iff.rfl

@[simp] theorem wp_raise {e : S.Exc} {Q : Except S.Exc α → σ → Prop} {s : σ} :
    wp H D t (.raise e) Q s ↔ Q (.error e) s := Iff.rfl

@[simp] theorem wp_ofExcept {r : Except S.Exc α} {Q : Except S.Exc α → σ → Prop} {s : σ} :
    wp H D t (.ofExcept r) Q s ↔ Q r s := by
  cases r <;> rfl

theorem wp_mono {p : Prog S α} {Q Q' : Except S.Exc α → σ → Prop}
    (hQ : ∀ r s, Q r s → Q' r s) {s : σ} (h : wp H D t p Q s) : wp H D t p Q' s := by
  induction p generalizing s with
  | ret a => exact hQ _ _ h
  | raise e => exact hQ _ _ h
  | op o k ih =>
    intro s₁ hr hi r s₂ hs
    obtain ⟨hg, hi₂, hk⟩ := h s₁ hr hi r s₂ hs
    exact ⟨hg, hi₂, ih r hk⟩

/-- Two programs that go on alike after an operation. -/
theorem wp_op_congr {o : S.Op} {k : S.Ans o → Prog S α} {k' : S.Ans o → Prog S β}
    {Q : Except S.Exc α → σ → Prop} {Q' : Except S.Exc β → σ → Prop}
    (h : ∀ r s, wp H D t (k r) Q s ↔ wp H D t (k' r) Q' s) {s : σ} :
    wp H D t (.op o k) Q s ↔ wp H D t (.op o k') Q' s :=
  forall₄_congr fun s₁ _ _ r => forall₂_congr fun s₂ _ => by rw [h r s₂]

/-- **The rule of sequencing.** -/
theorem wp_bind {p : Prog S α} {f : α → Prog S β} {Q : Except S.Exc β → σ → Prop} {s : σ} :
    wp H D t (p >>= f) Q s ↔ wp H D t p (onOk (fun a => wp H D t (f a) Q) Q) s := by
  induction p generalizing s with
  | ret a => exact Iff.rfl
  | raise e => exact Iff.rfl
  | op o k ih => exact wp_op_congr fun r _ => ih r

/-- A result is turned into another one, and nothing else is said about it. -/
theorem wp_bind_pure {β : Type} {p : Prog S α} {f : α → β} {P : σ → Prop} {s : σ}
    (h : wp H D t p (fun _ => P) s) :
    wp H D t (p >>= fun a => pure (f a)) (fun _ => P) s := by
  refine wp_bind.mpr (wp_mono ?_ h)
  rintro (e | a) s' hs'
  · exact hs'
  · exact hs'

theorem wp_attempt {p : Prog S α} {Q : Except S.Exc (Except S.Exc α) → σ → Prop} {s : σ} :
    wp H D t p.attempt Q s ↔ wp H D t p (fun r => Q (.ok r)) s := by
  induction p generalizing s with
  | ret a => exact Iff.rfl
  | raise e => exact Iff.rfl
  | op o k ih => exact wp_op_congr fun r _ => ih r

theorem wp_tryCatch {p : Prog S α} {h : S.Exc → Prog S α} {Q : Except S.Exc α → σ → Prop}
    {s : σ} : wp H D t (p.tryCatch h) Q s ↔
      wp H D t p (onError (fun e => wp H D t (h e) Q) Q) s := by
  rw [Prog.tryCatch, wp_bind, wp_attempt]
  constructor <;> refine wp_mono ?_ <;> intro r s' hr <;> cases r <;> exact hr

theorem wp_finally {p : Prog S α} {fin : Prog S Unit} {Q : Except S.Exc α → σ → Prop} {s : σ} :
    wp H D t (p.finally_ fin) Q s ↔
      wp H D t p (fun r => wp H D t fin (onOk (fun _ => Q r) Q)) s := by
  rw [Prog.finally_, wp_bind, wp_attempt]
  constructor <;> refine wp_mono ?_ <;> intro r s' hr
  · refine wp_mono ?_ (wp_bind.mp hr)
    rintro (e | u) s'' h
    · exact h
    · exact (wp_ofExcept : wp H D t (.ofExcept r) Q s'' ↔ Q r s'').mp h
  · refine wp_bind.mpr (wp_mono ?_ hr)
    rintro (e | u) s'' h
    · exact h
    · exact (wp_ofExcept : wp H D t (.ofExcept r) Q s'' ↔ Q r s'').mpr h

/-- What a program and its handler keep, they keep together. -/
theorem wp_tryCatch_kept {p : Prog S α} {h : S.Exc → Prog S α} {P : σ → Prop} {s : σ}
    (hp : wp H D t p (fun _ => P) s) (hh : ∀ e s, P s → wp H D t (h e) (fun _ => P) s) :
    wp H D t (p.tryCatch h) (fun _ => P) s := by
  refine wp_tryCatch.mpr (wp_mono ?_ hp)
  rintro (e | a) s' hs'
  · exact hh e s' hs'
  · exact hs'

theorem wp_finally_kept {p : Prog S α} {fin : Prog S Unit} {P : σ → Prop} {s : σ}
    (hp : wp H D t p (fun _ => P) s) (hfin : ∀ s, P s → wp H D t fin (fun _ => P) s) :
    wp H D t (p.finally_ fin) (fun _ => P) s := by
  refine wp_finally.mpr (wp_mono ?_ hp)
  intro r s' hs'
  refine wp_mono ?_ (hfin s' hs')
  rintro (e | u) s'' hs''
  · exact hs''
  · exact hs''

/-- One operation, raw. -/
theorem wp_perform_iff {o : S.Op} {Q : Except S.Exc (S.Val o) → σ → Prop} {s : σ} :
    wp H D t (.perform o) Q s ↔ ∀ s₁, D.rely t s s₁ → D.inv s₁ → ∀ r s₂, H o s₁ r s₂ →
      D.guar t s₁ s₂ ∧ D.inv s₂ ∧ Q r s₂ := by
  constructor
  · intro h s₁ hr hi r s₂ hs
    obtain ⟨hg, hi₂, hk⟩ := h s₁ hr hi r s₂ hs
    exact ⟨hg, hi₂, wp_ofExcept.mp hk⟩
  · intro h s₁ hr hi r s₂ hs
    obtain ⟨hg, hi₂, hk⟩ := h s₁ hr hi r s₂ hs
    exact ⟨hg, hi₂, wp_ofExcept.mpr hk⟩

/-- **One operation, from a stable assertion.**  `P` survives the others, so the operation is
judged in a state where `P` holds. -/
theorem wp_perform {o : S.Op} {P : σ → Prop} {Q : Except S.Exc (S.Val o) → σ → Prop} {s : σ}
    (hst : D.Stable t P) (hP : P s)
    (h : ∀ s₁ r s₂, P s₁ → D.inv s₁ → H o s₁ r s₂ → D.guar t s₁ s₂ ∧ D.inv s₂ ∧ Q r s₂) :
    wp H D t (.perform o) Q s :=
  wp_perform_iff.mpr fun s₁ hr hi r s₂ hs => h s₁ r s₂ (hst _ _ hP hr hi) hi hs

/-- **A program that only uses operations which keep `P`.**  This is how the parts of a program
that do not matter to a property are passed over. -/
theorem wp_within {A : S.Op → Prop} {P : σ → Prop} {p : Prog S α} {s : σ}
    (hst : D.Stable t P)
    (hA : ∀ o s₁ r s₂, A o → P s₁ → D.inv s₁ → H o s₁ r s₂ →
      D.guar t s₁ s₂ ∧ D.inv s₂ ∧ P s₂)
    (hp : p.Within A) (hP : P s) : wp H D t p (fun _ => P) s := by
  induction p generalizing s with
  | ret a => exact hP
  | raise e => exact hP
  | op o k ih =>
    intro s₁ hr hi r s₂ hs
    obtain ⟨hg, hi₂, hP₂⟩ := hA o s₁ r s₂ hp.1 (hst _ _ hP hr hi) hi hs
    exact ⟨hg, hi₂, ih r (hp.2 r) hP₂⟩

theorem wp_and {p : Prog S α} {Q Q' : Except S.Exc α → σ → Prop} {s : σ}
    (h : wp H D t p Q s) (h' : wp H D t p Q' s) : wp H D t p (fun r s => Q r s ∧ Q' r s) s := by
  induction p generalizing s with
  | ret a => exact ⟨h, h'⟩
  | raise e => exact ⟨h, h'⟩
  | op o k ih =>
    intro s₁ hr hi r s₂ hs
    obtain ⟨hg, hi₂, hk⟩ := h s₁ hr hi r s₂ hs
    exact ⟨hg, hi₂, ih r hk (h' s₁ hr hi r s₂ hs).2.2⟩

/-- What a program can only return, it returns. -/
theorem wp_returns {P : α → Prop} {p : Prog S α} {Q : Except S.Exc α → σ → Prop} {s : σ}
    (hp : p.Returns P) (h : wp H D t p Q s) :
    wp H D t p (fun r s => Q r s ∧ ∀ a, r = .ok a → P a) s := by
  induction p generalizing s with
  | ret a =>
    refine ⟨h, ?_⟩
    rintro b ⟨rfl⟩
    exact hp
  | raise e => exact ⟨h, fun a ha => by cases ha⟩
  | op o k ih =>
    intro s₁ hr hi r s₂ hs
    obtain ⟨hg, hi₂, hk⟩ := h s₁ hr hi r s₂ hs
    exact ⟨hg, hi₂, ih r (hp r) hk⟩

/-- Runs that meet a condition are runs. -/
theorem wp_meeting {cond : (o : S.Op) → σ → S.Ans o → Prop} {p : Prog S α}
    {Q : Except S.Exc α → σ → Prop} {s : σ} (h : wp H D t p Q s) :
    wp (H.meeting cond) D t p Q s := by
  induction p generalizing s with
  | ret a => exact h
  | raise e => exact h
  | op o k ih =>
    intro s₁ hr hi r s₂ hs
    obtain ⟨hg, hi₂, hk⟩ := h s₁ hr hi r s₂ hs.1
    exact ⟨hg, hi₂, ih r hk⟩

/-- **Soundness.**  Whatever prefix of the program has run, the invariant holds there, every
step so far respected the guarantee, and what is left is still safe. -/
theorem wp_exec {p p' : Prog S α} {Q : Except S.Exc α → σ → Prop} {s s' : σ}
    (he : Exec H p s p' s') (h : wp H D t p Q s) (hi : D.inv s) :
    D.inv s' ∧ Relation.ReflTransGen (D.guar t) s s' ∧ wp H D t p' Q s' := by
  induction he with
  | refl p s => exact ⟨hi, .refl, h⟩
  | step hs _ ih =>
    obtain ⟨hg, hi₂, hk⟩ := h _ (D.rely_refl t _) hi _ _ hs
    obtain ⟨hi', hg', hk'⟩ := ih hk hi₂
    exact ⟨hi', .head hg hg', hk'⟩

/-- Soundness for complete runs. -/
theorem wp_runs {p : Prog S α} {Q : Except S.Exc α → σ → Prop} {s s' : σ} {r : Except S.Exc α}
    (hr : Runs H p s r s') (h : wp H D t p Q s) (hi : D.inv s) :
    D.inv s' ∧ Relation.ReflTransGen (D.guar t) s s' ∧ Q r s' := by
  obtain ⟨hi', hg, hk⟩ := wp_exec hr h hi
  exact ⟨hi', hg, wp_ofExcept.mp hk⟩

end Wp

section Keeping

variable {H : Handler S σ} {inv : σ → Prop}

/-- One operation of a party that runs alone. -/
theorem wp_keeping_perform {o : S.Op} {Q : Except S.Exc (S.Val o) → σ → Prop} {s : σ}
    (h : ∀ r s', H o s r s' → inv s' ∧ Q r s') : wp H (.keeping inv) () (.perform o) Q s := by
  refine wp_perform_iff.mpr ?_
  rintro s₁ rfl - r s₂ hs
  exact ⟨trivial, h r s₂ hs⟩

end Keeping

section Free

variable {H : Handler S σ}

theorem wp_free_perform {o : S.Op} {Q : Except S.Exc (S.Val o) → σ → Prop} {s : σ} :
    wp H .free () (.perform o) Q s ↔ ∀ r s', H o s r s' → Q r s' := by
  constructor
  · intro h r s' hs
    exact (wp_perform_iff.mp h s rfl trivial r s' hs).2.2
  · intro h
    refine wp_perform_iff.mpr ?_
    rintro s₁ rfl - r s₂ hs
    exact ⟨trivial, trivial, h r s₂ hs⟩

/-- What every operation keeps holds at the end of every program. -/
theorem wp_free_keeps {P : σ → Prop} (hop : ∀ o s r s', P s → H o s r s' → P s')
    {p : Prog S α} {s : σ} (hs : P s) : wp H .free () p (fun _ => P) s := by
  induction p generalizing s with
  | ret a => exact hs
  | raise e => exact hs
  | op o k ih =>
    rintro s₁ rfl - r s₂ hop'
    exact ⟨trivial, trivial, ih r (hop o s r s₂ hs hop')⟩

theorem wp_free_raises {P : S.Exc → Prop} (hH : ∀ o s r s', H o s r s' → ∀ e, r = .error e → P e)
    {p : Prog S α} {s : σ} (hp : p.Raises P) :
    wp H .free () p (fun r _ => ∀ e, r = .error e → P e) s := by
  induction p generalizing s with
  | ret a => exact fun e he => nomatch he
  | raise e =>
    rintro e' ⟨⟩
    exact hp
  | op o k ih =>
    rintro s₁ rfl - r s₂ hop
    exact ⟨trivial, trivial, ih r (hp r (hH o s r s₂ hop))⟩

theorem wp_free_returns {P : α → Prop} {p : Prog S α} {s : σ} (hp : p.Returns P) :
    wp H .free () p (fun r _ => ∀ a, r = .ok a → P a) s :=
  wp_mono (fun _ _ h => h.2)
    (wp_returns hp (wp_free_keeps (P := fun _ => True) (fun _ _ _ _ _ _ => trivial) trivial))

theorem Runs.of_wp {p : Prog S α} {Q : Except S.Exc α → σ → Prop} {s s' : σ}
    {r : Except S.Exc α} (h : Runs H p s r s') (hwp : wp H .free () p Q s) : Q r s' :=
  (wp_runs h hwp trivial).2.2

end Free

/-! ## 4. The angelic reading -/

section May

variable (H : Handler S σ)

/-- Some complete run ends as `Q` asks. -/
def may : Prog S α → (Except S.Exc α → σ → Prop) → σ → Prop
  | .ret a, Q, s => Q (.ok a) s
  | .raise e, Q, s => Q (.error e) s
  | .op o k, Q, s => ∃ r s', H o s r s' ∧ may (k r) Q s'

variable {H}

theorem may_bind {p : Prog S α} {f : α → Prog S β} {Q : Except S.Exc β → σ → Prop} {s : σ} :
    may H (p >>= f) Q s ↔ may H p (onOk (fun a => may H (f a) Q) Q) s := by
  induction p generalizing s with
  | ret a => exact Iff.rfl
  | raise e => exact Iff.rfl
  | op o k ih => exact exists_congr fun r => exists_congr fun s' => and_congr_right fun _ => ih r

theorem may_attempt {p : Prog S α} {Q : Except S.Exc (Except S.Exc α) → σ → Prop} {s : σ} :
    may H p.attempt Q s ↔ may H p (fun r => Q (.ok r)) s := by
  induction p generalizing s with
  | ret a => exact Iff.rfl
  | raise e => exact Iff.rfl
  | op o k ih => exact exists_congr fun r => exists_congr fun s' => and_congr_right fun _ => ih r

@[simp] theorem may_ofExcept {r : Except S.Exc α} {Q : Except S.Exc α → σ → Prop} {s : σ} :
    may H (.ofExcept r) Q s ↔ Q r s := by
  cases r <;> rfl

@[simp] theorem may_perform {o : S.Op} {Q : Except S.Exc (S.Val o) → σ → Prop} {s : σ} :
    may H (.perform o) Q s ↔ ∃ r s', H o s r s' ∧ Q r s' :=
  exists_congr fun _ => exists_congr fun _ => and_congr_right fun _ => may_ofExcept

theorem may_mono {p : Prog S α} {Q Q' : Except S.Exc α → σ → Prop}
    (hQ : ∀ r s, Q r s → Q' r s) {s : σ} (h : may H p Q s) : may H p Q' s := by
  induction p generalizing s with
  | ret a => exact hQ _ _ h
  | raise e => exact hQ _ _ h
  | op o k ih =>
    obtain ⟨r, s', hs, hk⟩ := h
    exact ⟨r, s', hs, ih r hk⟩

theorem may_finally {p : Prog S α} {fin : Prog S Unit} {Q : Except S.Exc α → σ → Prop} {s : σ} :
    may H (p.finally_ fin) Q s ↔ may H p (fun r => may H fin (onOk (fun _ => Q r) Q)) s := by
  rw [Prog.finally_, may_bind, may_attempt]
  constructor <;> refine may_mono ?_ <;> intro r s' hr
  · refine may_mono ?_ (may_bind.mp hr)
    rintro (e | u) s'' h
    · exact h
    · exact (may_ofExcept : may H (.ofExcept r) Q s'' ↔ Q r s'').mp h
  · refine may_bind.mpr (may_mono ?_ hr)
    rintro (e | u) s'' h
    · exact h
    · exact (may_ofExcept : may H (.ofExcept r) Q s'' ↔ Q r s'').mpr h

/-- **`may` is the existence of a run.** -/
theorem may_iff {p : Prog S α} {Q : Except S.Exc α → σ → Prop} {s : σ} :
    may H p Q s ↔ ∃ r s', Runs H p s r s' ∧ Q r s' := by
  constructor
  · intro h
    induction p generalizing s with
    | ret a => exact ⟨.ok a, s, .refl _ _, h⟩
    | raise e => exact ⟨.error e, s, .refl _ _, h⟩
    | op o k ih =>
      obtain ⟨r, s₁, hs, hk⟩ := h
      obtain ⟨r', s', hr, hQ⟩ := ih r hk
      exact ⟨r', s', .step hs hr, hQ⟩
  · rintro ⟨r, s', hr, hQ⟩
    have key : ∀ {p p' : Prog S α} {s s' : σ}, Exec H p s p' s' → may H p' Q s' → may H p Q s := by
      intro p p' s s' h
      induction h with
      | refl => exact id
      | step hs _ ih => exact fun hm => ⟨_, _, hs, ih hm⟩
    exact key hr (may_ofExcept.mpr hQ)

end May

end Effect
