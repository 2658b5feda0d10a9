/-
# One program after the other over one store

A `Session` is a sequential history: calls that ran to their end, calls that were cut short by
a crash, and changes made between calls.  It is recorded as a list of events, oldest first, so
that a property can speak of what happened earlier and later in one history.
-/
import Kripto.Effect.Prog

namespace Effect

variable {S : Sig} {σ α κ ℓ : Type}

/-! ## 1. Histories -/

/-- One entry of a history. -/
inductive Event (S : Sig) (α κ ℓ : Type) : Type
  | done (k : κ) (r : Except S.Exc α)
  | crashed (k : κ)
  | idle (l : ℓ)

/-- What a sequential history is made of: the program of each call and the semantics of the
operations in it, what a crash in the middle of a call takes with it, and the changes between
calls. -/
structure Session.System (S : Sig) (σ α κ ℓ : Type) where
  body : κ → Prog S α
  handler : κ → Handler S σ
  lose : κ → σ → σ
  idle : ℓ → σ → σ → Prop

/-- The histories all of whose steps meet `cond`. -/
def Session.System.meeting (Y : Session.System S σ α κ ℓ)
    (cond : κ → (o : S.Op) → σ → S.Ans o → Prop) : Session.System S σ α κ ℓ where
  body := Y.body
  handler := fun k => (Y.handler k).meeting (cond k)
  lose := Y.lose
  idle := Y.idle

/-- `Session Y s tr s'`: the history `tr` leads from `s` to `s'`. -/
inductive Session (Y : Session.System S σ α κ ℓ) : σ → List (Event S α κ ℓ) → σ → Prop
  | nil (s : σ) : Session Y s [] s
  | done {s s' s'' : σ} {tr : List (Event S α κ ℓ)} (k : κ) (r : Except S.Exc α)
      (h : Runs (Y.handler k) (Y.body k) s r s') (rest : Session Y s' tr s'') :
      Session Y s (.done k r :: tr) s''
  | crashed {s s' s'' : σ} {tr : List (Event S α κ ℓ)} (k : κ) (p : Prog S α)
      (h : Exec (Y.handler k) (Y.body k) s p s') (rest : Session Y (Y.lose k s') tr s'') :
      Session Y s (.crashed k :: tr) s''
  | idle {s s' s'' : σ} {tr : List (Event S α κ ℓ)} (l : ℓ) (h : Y.idle l s s')
      (rest : Session Y s' tr s'') : Session Y s (.idle l :: tr) s''

namespace Session

variable {Y : Session.System S σ α κ ℓ}

theorem of_meeting {cond : κ → (o : S.Op) → σ → S.Ans o → Prop} {s s' : σ}
    {tr : List (Event S α κ ℓ)} (h : Session (Y.meeting cond) s tr s') : Session Y s tr s' := by
  induction h with
  | nil => exact .nil _
  | done k r hr _ ih => exact .done k r hr.of_meeting ih
  | crashed k p he _ ih => exact .crashed k p he.of_meeting ih
  | idle l hl _ ih => exact .idle l hl ih

/-! ## 2. Preservation -/

/-- **Preservation along a history.**  What every complete call, every crashed call and every
change in between keeps, the whole history keeps. -/
theorem preserves {P : σ → Prop}
    (hdone : ∀ k s r s', P s → Runs (Y.handler k) (Y.body k) s r s' → P s')
    (hcrash : ∀ k s p s', P s → Exec (Y.handler k) (Y.body k) s p s' → P (Y.lose k s'))
    (hidle : ∀ l s s', P s → Y.idle l s s' → P s')
    {s s' : σ} {tr : List (Event S α κ ℓ)} (h : Session Y s tr s') (hP : P s) : P s' := by
  induction h with
  | nil => exact hP
  | done k r hr _ ih => exact ih (hdone k _ r _ hP hr)
  | crashed k p he _ ih => exact ih (hcrash k _ p _ hP he)
  | idle l hl _ ih => exact ih (hidle l _ _ hP hl)

/-- The same for calls that keep it operation by operation. -/
theorem keeping {P : σ → Prop} {Q : κ → Except S.Exc α → σ → Prop}
    (hcall : ∀ k s, P s → wp (Y.handler k) (.keeping P) () (Y.body k) (Q k) s)
    (hlose : ∀ k s, P s → P (Y.lose k s)) (hidle : ∀ l s s', P s → Y.idle l s s' → P s')
    {s s' : σ} {tr : List (Event S α κ ℓ)} (h : Session Y s tr s') (hP : P s) : P s' :=
  h.preserves (fun k s _ _ hs hr => (wp_runs hr (hcall k s hs) hs).1)
    (fun k s _ _ hs he => hlose k _ (wp_exec he (hcall k s hs) hs).1) hidle hP

/-- The same for a property every single operation keeps. -/
theorem keeps {P : σ → Prop}
    (hop : ∀ k o s r s', P s → Y.handler k o s r s' → P s')
    (hlose : ∀ k s, P s → P (Y.lose k s))
    {s s' : σ} {tr : List (Event S α κ ℓ)} (h : Session Y s tr s')
    (hidle : ∀ l, .idle l ∈ tr → ∀ s s', P s → Y.idle l s s' → P s') (hP : P s) : P s' := by
  induction h with
  | nil => exact hP
  | done k r hr _ ih =>
    exact ih (fun l hl => hidle l (.tail _ hl)) (hr.keeps (hop k) hP)
  | crashed k p he _ ih =>
    exact ih (fun l hl => hidle l (.tail _ hl)) (hlose k _ (he.keeps (hop k) hP))
  | idle l hl _ ih =>
    exact ih (fun l' hl' => hidle l' (.tail _ hl')) (hidle l (.head _) _ _ hP hl)

/-! ## 3. Single operations -/

/-- Somewhere in a history from `s`, the operation `o` is performed in `s₁` and leaves `s₂`. -/
def Performs (Y : Session.System S σ α κ ℓ) (s : σ) (o : S.Op) (s₁ s₂ : σ) : Prop :=
  ∃ tr s' k cont r, Session Y s tr s' ∧ Exec (Y.handler k) (Y.body k) s' (.op o cont) s₁ ∧
    Y.handler k o s₁ r s₂

/-- What all operations, crashes and changes keep holds where an operation is performed. -/
theorem Performs.keeps {P : σ → Prop}
    (hop : ∀ k o s r s', P s → Y.handler k o s r s' → P s')
    (hlose : ∀ k s, P s → P (Y.lose k s)) (hidle : ∀ l s s', P s → Y.idle l s s' → P s')
    {s s₁ s₂ : σ} {o : S.Op} (h : Performs Y s o s₁ s₂) (hP : P s) : P s₁ := by
  obtain ⟨tr, s', k, cont, r, hsession, hexec, -⟩ := h
  exact hexec.keeps (hop k) (hsession.keeps hop hlose (fun l _ => hidle l) hP)

/-- **Single operations from programs.**  If every call is safe from every state, every
operation performed in a history respects the guarantee. -/
theorem Performs.guar {guar : σ → σ → Prop}
    (hwp : ∀ k s, wp (Y.handler k) (.alone (fun _ => True) guar) () (Y.body k)
      (fun _ _ => True) s)
    {s s₁ s₂ : σ} {o : S.Op} (h : Performs Y s o s₁ s₂) : guar s₁ s₂ := by
  obtain ⟨tr, s', k, cont, r, -, hexec, hop⟩ := h
  obtain ⟨-, -, hnext⟩ := wp_exec hexec (hwp k s') trivial
  exact (hnext s₁ rfl trivial r s₂ hop).1

end Session

end Effect
