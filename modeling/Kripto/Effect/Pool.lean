/-
# Many programs over one store, in any interleaving

A `Pool` is a shared state and a table of running programs.  One step of the pool is one
operation of one of them, or the start of a new one, or the end of one -- finished or killed
wherever it is -- or a change made by somebody else.  Restricting what a scheduler may do can
only remove steps, so what is proved here holds for every scheduler.

Two general facts carry the concurrent results of this development:

* `Pool.sound`: if every program is started from its weakest precondition under one
  `Protocol`, then in every reachable pool the invariant holds, every running program is still
  safe, and the next operation of each of them respects its guarantee.
* `Pool.withGhost`: auxiliary variables are sound.  A pool whose handler also records who did
  what takes exactly the steps of the plain pool, so a proof may use the record and still
  conclude about the plain one.
-/
import Kripto.Effect.Prog
import Mathlib.Logic.Function.Basic

namespace Effect

variable {ι : Type} [DecidableEq ι] {S : Sig} {σ γ α : Type}

/-! ## 1. Pools -/

/-- The shared state, and what each thread has left to do (`none`: no such thread now). -/
structure Pool (ι : Type) (S : Sig) (σ α : Type) where
  shared : σ
  threads : ι → Option (Prog S α)

namespace Pool

/-- What a pool of threads can do: the semantics of the operations (per thread, so that a
handler can record who acted), the programs a thread may be started on, and the changes the
surroundings may make to the shared state. -/
structure System (ι : Type) (S : Sig) (σ α : Type) where
  handler : ι → Handler S σ
  start : ι → Prog S α → Prop
  env : σ → σ → Prop

/-- The system restricted to steps that meet `cond`. -/
def System.meeting (Y : System ι S σ α)
    (cond : ι → (o : S.Op) → σ → S.Ans o → Prop) : System ι S σ α where
  handler := fun t => (Y.handler t).meeting (cond t)
  start := Y.start
  env := Y.env

/-- One step of a pool. -/
inductive Step (Y : System ι S σ α) : Pool ι S σ α → Pool ι S σ α → Prop
  | spawn {c : Pool ι S σ α} (t : ι) (p : Prog S α) (idle : c.threads t = none)
      (hp : Y.start t p) : Step Y c ⟨c.shared, Function.update c.threads t (some p)⟩
  | act {c : Pool ι S σ α} (t : ι) (o : S.Op) (k : S.Ans o → Prog S α) (r : S.Ans o) (s' : σ)
      (running : c.threads t = some (.op o k)) (h : Y.handler t o c.shared r s') :
      Step Y c ⟨s', Function.update c.threads t (some (k r))⟩
  | stop {c : Pool ι S σ α} (t : ι) : Step Y c ⟨c.shared, Function.update c.threads t none⟩
  | env {c : Pool ι S σ α} (s' : σ) (h : Y.env c.shared s') : Step Y c ⟨s', c.threads⟩

/-- The pools a run can reach. -/
def Reaches (Y : System ι S σ α) : Pool ι S σ α → Pool ι S σ α → Prop :=
  Relation.ReflTransGen (Step Y)

/-- What every operation and the surroundings keep, every reachable pool keeps. -/
theorem Reaches.keeps {Y : System ι S σ α} {c c' : Pool ι S σ α}
    (h : Reaches Y c c') {P : σ → Prop}
    (hop : ∀ t o s r s', P s → Y.handler t o s r s' → P s')
    (henv : ∀ s s', P s → Y.env s s' → P s') (hP : P c.shared) : P c'.shared := by
  induction h with
  | refl => exact hP
  | tail _ hs ih =>
    cases hs with
    | spawn => exact ih
    | act t o k r s' _ h => exact hop t o _ r s' ih h
    | stop => exact ih
    | env s' h => exact henv _ s' ih h

/-- A pool in which nothing runs yet. -/
def idle (s : σ) : Pool ι S σ α := ⟨s, fun _ => none⟩

/-! ## 2. Rely and guarantee -/

/-- Every running program is safe: it was safe at some earlier state, and what happened since
is what its protocol reckons with. -/
structure Safe (Y : System ι S σ α) (D : Protocol ι σ) (c : Pool ι S σ α) : Prop where
  inv : D.inv c.shared
  running : ∀ t p, c.threads t = some p →
    ∃ s₀, D.rely t s₀ c.shared ∧ wp (Y.handler t) D t p (fun _ _ => True) s₀

/-- The system plays by the protocol: threads start safe, the surroundings only do what every
thread reckons with. -/
structure Obeys (Y : System ι S σ α) (D : Protocol ι σ) : Prop where
  start : ∀ t p s, Y.start t p → D.inv s → wp (Y.handler t) D t p (fun _ _ => True) s
  env : ∀ s s', Y.env s s' → D.inv s → D.inv s' ∧ ∀ t, D.rely t s s'

omit [DecidableEq ι] in
theorem safe_idle {Y : System ι S σ α} {D : Protocol ι σ} {s : σ} (hi : D.inv s) :
    Safe Y D (idle s) :=
  ⟨hi, fun _ _ h => absurd h (by simp [idle])⟩

omit [DecidableEq ι] in
/-- **The next operation of a safe thread** keeps the invariant and respects its guarantee. -/
theorem Safe.act {Y : System ι S σ α} {D : Protocol ι σ} {c : Pool ι S σ α} (hc : Safe Y D c)
    {t : ι} {o : S.Op} {k : S.Ans o → Prog S α} {r : S.Ans o} {s' : σ}
    (running : c.threads t = some (.op o k)) (h : Y.handler t o c.shared r s') :
    D.guar t c.shared s' ∧ D.inv s' ∧ wp (Y.handler t) D t (k r) (fun _ _ => True) s' := by
  obtain ⟨s₀, hrely, hwp⟩ := hc.running t _ running
  exact hwp c.shared hrely hc.inv r s' h

theorem Safe.step {Y : System ι S σ α} {D : Protocol ι σ} (hY : Obeys Y D)
    {c c' : Pool ι S σ α} (hc : Safe Y D c) (h : Step Y c c') : Safe Y D c' := by
  cases h with
  | spawn t p idle hp =>
    refine ⟨hc.inv, fun u q hq => ?_⟩
    by_cases hu : u = t
    · subst hu
      obtain rfl : p = q := by simpa using hq
      exact ⟨c.shared, D.rely_refl u _, hY.start u p _ hp hc.inv⟩
    · exact hc.running u q (by simpa [Function.update_of_ne hu] using hq)
  | act t o k r s' running h =>
    obtain ⟨hg, hi, hk⟩ := hc.act running h
    refine ⟨hi, fun u q hq => ?_⟩
    by_cases hu : u = t
    · subst hu
      obtain rfl : k r = q := by simpa using hq
      exact ⟨s', D.rely_refl u _, hk⟩
    · obtain ⟨s₀, hrely, hwp⟩ := hc.running u q (by simpa [Function.update_of_ne hu] using hq)
      exact ⟨s₀, D.rely_trans u hrely (D.compat (Ne.symm hu) hc.inv hi hg), hwp⟩
  | stop t =>
    refine ⟨hc.inv, fun u q hq => hc.running u q ?_⟩
    by_cases hu : u = t
    · subst hu; simp at hq
    · simpa [Function.update_of_ne hu] using hq
  | env s' h =>
    obtain ⟨hi, hrely'⟩ := hY.env _ _ h hc.inv
    refine ⟨hi, fun u q hq => ?_⟩
    obtain ⟨s₀, hrely, hwp⟩ := hc.running u q hq
    exact ⟨s₀, D.rely_trans u hrely (hrely' u), hwp⟩

/-- **Soundness of the rely/guarantee reasoning.**  Safety holds along every run. -/
theorem sound {Y : System ι S σ α} {D : Protocol ι σ} (hY : Obeys Y D) {c c' : Pool ι S σ α}
    (hc : Safe Y D c) (h : Reaches Y c c') : Safe Y D c' := by
  induction h with
  | refl => exact hc
  | tail _ hs ih => exact ih.step hY hs

/-- What every step of a safe pool does to the shared state, in one relation: a thread's step
respects its guarantee, the surroundings do what they may, starting and stopping do nothing. -/
theorem Safe.shared {Y : System ι S σ α} {D : Protocol ι σ} {c c' : Pool ι S σ α}
    (hc : Safe Y D c) (h : Step Y c c') :
    c'.shared = c.shared ∨ (∃ t, D.guar t c.shared c'.shared) ∨ Y.env c.shared c'.shared := by
  cases h with
  | spawn => exact Or.inl rfl
  | act t o k r s' running h => exact Or.inr (Or.inl ⟨t, (hc.act running h).1⟩)
  | stop => exact Or.inl rfl
  | env s' h => exact Or.inr (Or.inr h)

/-! ## 3. Auxiliary variables -/

/-- The system with a record `γ` beside the shared state.  The record follows the operations
and influences none of them. -/
def System.withGhost (Y : System ι S σ α)
    (note : ι → (o : S.Op) → S.Ans o → γ → γ) : System ι S (σ × γ) α where
  handler := fun t o s r s' => Y.handler t o s.1 r s'.1 ∧ s'.2 = note t o r s.2
  start := Y.start
  env := fun s s' => Y.env s.1 s'.1 ∧ s'.2 = s.2

/-- The pool with a record attached. -/
def attach (c : Pool ι S σ α) (g : γ) : Pool ι S (σ × γ) α := ⟨(c.shared, g), c.threads⟩

theorem step_attach {Y : System ι S σ α} {note : ι → (o : S.Op) → S.Ans o → γ → γ}
    {c c' : Pool ι S σ α} (h : Step Y c c') (g : γ) :
    ∃ g', Step (Y.withGhost note) (c.attach g) (c'.attach g') := by
  cases h with
  | spawn t p idle hp => exact ⟨g, .spawn t p idle hp⟩
  | act t o k r s' running h =>
    exact ⟨note t o r g, .act t o k r (s', note t o r g) running ⟨h, rfl⟩⟩
  | stop t => exact ⟨g, .stop t⟩
  | env s' h => exact ⟨g, .env (s', g) ⟨h, rfl⟩⟩

/-- **Auxiliary variables are sound.**  Every run of the plain system is a run of the recording
one, with some record at its end. -/
theorem reaches_attach {Y : System ι S σ α} (note : ι → (o : S.Op) → S.Ans o → γ → γ)
    {c c' : Pool ι S σ α} (h : Reaches Y c c') (g : γ) :
    ∃ g', Reaches (Y.withGhost note) (c.attach g) (c'.attach g') := by
  induction h with
  | refl => exact ⟨g, .refl⟩
  | tail _ hs ih =>
    obtain ⟨g₁, h₁⟩ := ih
    obtain ⟨g₂, h₂⟩ := step_attach hs g₁
    exact ⟨g₂, h₁.tail h₂⟩

end Pool

end Effect
