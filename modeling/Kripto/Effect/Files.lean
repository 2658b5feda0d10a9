/-
# Programs that work on files

A maintenance script moves files and directories about, keeps a journal beside them, and may be
interrupted anywhere.  What matters of its file system is little: at each place there is
something or nothing, a rename and the write of a whole file are atomic, and copying and the
removal of a tree are not.

Besides the files there is the outside: a clock, a command to run, a probe of a database.  It is
asked questions and may answer anything.

`Files.handler` lets every operation fail, if it is told to; a failed operation has no effect.
An observer can be put beside the files, to speak of what a run has done so far.
-/
import Kripto.Effect.Play
import Mathlib.Logic.Function.Basic

namespace Effect

/-- What a script works on: the places it uses and what can be at one, the questions it asks and
their answers, and its exceptions.  A `solid` thing is not replaced by a rename.  An exception
that `interrupts` is not caught by `except Exception`. -/
structure Files where
  Place : Type
  Node : Type
  Ask : Type
  Answer : Ask → Type
  Exc : Type
  solid : Node → Bool
  osError : Exc
  interrupts : Exc → Bool

namespace Files

/-- The exceptions of a script, as far as it tells them apart. -/
inductive Raised
  | runtimeError (msg : String)
  | osError
  | other (name : String)
  | interrupt
  deriving DecidableEq

variable {F : Files}

/-! ## 1. Operations -/

/-- What is at each place. -/
abbrev Store (F : Files) : Type := F.Place → Option F.Node

inductive Op (F : Files)
  | look (p : F.Place)
  | present (p : F.Place)
  | create (p : F.Place) (n : F.Node)
  | put (p : F.Place) (n : F.Node)
  | move (src dst : F.Place)
  | remove (p : F.Place) (missingOk : Bool)
  | spoil (part : F.Place → Bool)
  | clear (part : F.Place → Bool)
  | ask (q : F.Ask)

def Op.Val : Op F → Type
  | .look _ => Option F.Node
  | .present _ => Bool
  | .ask q => F.Answer q
  | _ => Unit

abbrev sig (F : Files) : Sig := ⟨Op F, Op.Val, F.Exc⟩

/-- One operation of a script. -/
abbrev perform (o : Op F) : Prog (sig F) o.Val := Prog.perform (S := sig F) o

section Update

variable [DecidableEq F.Place]

def Store.set (s : Store F) (p : F.Place) (n : Option F.Node) : Store F := Function.update s p n

@[simp] theorem Store.set_self (s : Store F) (p : F.Place) (n : Option F.Node) :
    s.set p n p = n := Function.update_self ..

@[simp] theorem Store.set_set (s : Store F) (p : F.Place) (m n : Option F.Node) :
    (s.set p m).set p n = s.set p n := Function.update_idem ..

@[simp] theorem Store.set_of_ne (s : Store F) {p q : F.Place} (n : Option F.Node) (h : q ≠ p) :
    s.set p n q = s q := Function.update_of_ne h ..

/-- `src` can be renamed to `dst`. -/
def Store.CanMove (s : Store F) (src dst : F.Place) : Prop :=
  (s src).isSome = true ∧ ∀ n ∈ s dst, F.solid n = false

instance (s : Store F) (src dst : F.Place) : Decidable (s.CanMove src dst) :=
  inferInstanceAs (Decidable (_ ∧ _))

def Store.moved (s : Store F) (src dst : F.Place) : Store F := (s.set src none).set dst (s src)

@[simp] theorem Store.moved_dst (s : Store F) (src dst : F.Place) :
    s.moved src dst dst = s src := Store.set_self ..

theorem Store.moved_src (s : Store F) {src dst : F.Place} (h : src ≠ dst) :
    s.moved src dst src = none := by
  rw [Store.moved, Store.set_of_ne _ _ h, Store.set_self]

theorem Store.moved_of_ne (s : Store F) {src dst p : F.Place} (hsrc : p ≠ src) (hdst : p ≠ dst) :
    s.moved src dst p = s p := by
  rw [Store.moved, Store.set_of_ne _ _ hdst, Store.set_of_ne _ _ hsrc]

/-- **What an operation does**, when it does not fail.  `spoil` is the beginning of a change that
is not atomic: anything may be left in that part. -/
def Does : (o : Op F) → Store F → (sig F).Ans o → Store F → Prop
  | .look p, s, r, s' => r = .ok (s p) ∧ s' = s
  | .present p, s, r, s' => r = .ok (s p).isSome ∧ s' = s
  | .create p n, s, r, s' =>
      s p = none ∧ r = .ok () ∧ s' = s.set p (some n) ∨
        (s p).isSome = true ∧ r = .error F.osError ∧ s' = s
  | .put p n, s, r, s' => r = .ok () ∧ s' = s.set p (some n)
  | .move src dst, s, r, s' =>
      s.CanMove src dst ∧ r = .ok () ∧ s' = s.moved src dst ∨
        ¬s.CanMove src dst ∧ r = .error F.osError ∧ s' = s
  | .remove p missingOk, s, r, s' =>
      (missingOk = true ∨ (s p).isSome = true) ∧ r = .ok () ∧ s' = s.set p none ∨
        missingOk = false ∧ s p = none ∧ r = .error F.osError ∧ s' = s
  | .spoil part, s, r, s' => r = .ok () ∧ ∀ p, part p = false → s' p = s p
  | .clear part, s, r, s' => r = .ok () ∧ s' = fun p => if part p then none else s p
  | .ask _, s, r, s' => (∃ a, r = .ok a) ∧ s' = s

end Update

/-! ## 2. Compound operations -/

/-- `shutil.copy2`. -/
def copy [DecidableEq F.Place] (src dst : F.Place) : Prog (sig F) Unit := do
  perform (.spoil fun p => decide (p = dst))
  let found : Option F.Node ← perform (.look src)
  match found with
  | some n => perform (.put dst n)
  | none => .raise F.osError

/-- `try: p except Exception: h`. -/
def exceptException {α : Type} (p : Prog (sig F) α) (h : F.Exc → Prog (sig F) α) :
    Prog (sig F) α :=
  p.tryCatch fun e => if F.interrupts e then .raise e else h e

/-- `shutil.rmtree(part, ignore_errors=True)`. -/
def rmtree (part : F.Place → Bool) : Prog (sig F) Unit :=
  exceptException (do perform (.spoil part); perform (.clear part)) fun _ => pure ()

theorem within_rmtree {A : Op F → Prop} {part : F.Place → Bool} (hspoil : A (.spoil part))
    (hclear : A (.clear part)) : (rmtree part).Within A := by
  refine Prog.Within.bind (Prog.Within.attempt (Prog.Within.bind (Prog.within_perform.mpr hspoil)
    fun _ => Prog.within_perform.mpr hclear)) fun r => ?_
  cases r with
  | ok u => exact Prog.within_ret _
  | error e =>
    change (if F.interrupts e then Prog.raise e else pure () : Prog (sig F) Unit).Within A
    split
    · exact Prog.within_raise _
    · exact Prog.within_pure _

/-! ## 3. Runs -/

variable {γ : Type}

/-- Something kept beside the files: it sees every operation that does not fail. -/
structure Observer (F : Files) (γ : Type) where
  note : (o : Op F) → Store F → (sig F).Ans o → γ → γ
  note_error : ∀ o s e g, note o s (.error e) g = g

/-- The observer does not care for this operation. -/
def Observer.Ignores (O : Observer F γ) (o : Op F) : Prop := ∀ s r g, O.note o s r g = g

/-- An observer of nothing. -/
def Observer.blind : Observer F γ := ⟨fun _ _ _ g => g, fun _ _ _ _ => rfl⟩

theorem Observer.blind_ignores (o : Op F) : (Observer.blind : Observer F γ).Ignores o :=
  fun _ _ _ => rfl

/-- It returns as `ok` says, and it raises only where operations may fail; then `bad` holds. -/
def ends {α : Type} (mayFail : Bool) (ok : α → Store F × γ → Prop) (bad : Store F × γ → Prop) :
    Except F.Exc α → Store F × γ → Prop
  | .ok a, s => ok a s
  | .error _, s => mayFail = true ∧ bad s

section Ends

variable {H : Handler (sig F) (Store F × γ)} {α β : Type} {ok : α → Store F × γ → Prop}
  {bad : Store F × γ → Prop} {mayFail : Bool} {inv : Store F × γ → Prop} {s : Store F × γ}

/-- **Sequencing**: what follows goes on from where the first part returns. -/
theorem wp_then {p : Prog (sig F) α} {f : α → Prog (sig F) β} {ok' : β → Store F × γ → Prop}
    (hp : wp H (.keeping inv) () p (ends mayFail ok bad) s)
    (hf : ∀ a s, ok a s →
      wp H (.keeping inv) () (f a) (ends mayFail ok' bad) s) :
    wp H (.keeping inv) () (p >>= f) (ends mayFail ok' bad) s := by
  refine wp_bind.mpr (wp_mono (fun r s' hr => ?_) hp)
  cases r with
  | ok a => exact hf a s' hr
  | error e => exact hr

/-- `finally` runs after both outcomes, and keeps the outcome if it does not fail itself. -/
theorem wp_finally_ends {p : Prog (sig F) α} {fin : Prog (sig F) Unit}
    {ok' : α → Store F × γ → Prop} {bad' : Store F × γ → Prop}
    (hp : wp H (.keeping inv) () p (ends mayFail ok bad) s)
    (hok : ∀ a s, ok a s →
      wp H (.keeping inv) () fin (ends mayFail (fun _ => ok' a) bad') s)
    (hbad : ∀ s, mayFail = true → bad s →
      wp H (.keeping inv) () fin (ends mayFail (fun _ => bad') bad') s) :
    wp H (.keeping inv) () (p.finally_ fin) (ends mayFail ok' bad') s := by
  refine wp_finally.mpr (wp_mono (fun r s' hr => ?_) hp)
  cases r with
  | ok a =>
    refine wp_mono (fun r' s'' hr' => ?_) (hok a s' hr)
    cases r' with
    | ok u => exact hr'
    | error e => exact hr'
  | error e =>
    refine wp_mono (fun r' s'' hr' => ?_) (hbad s' hr.1 hr.2)
    cases r' with
    | ok u => exact ⟨hr.1, hr'⟩
    | error e' => exact hr'

/-- A caught exception goes on in the handler, an interruption does not. -/
theorem wp_exceptException {p : Prog (sig F) α} {h : F.Exc → Prog (sig F) α}
    {Q : Except F.Exc α → Store F × γ → Prop}
    (hp : wp H (.keeping inv) () p
      (fun r s => (∀ a, r = .ok a → Q r s) ∧ ∀ e, r = .error e → Q r s ∧
        wp H (.keeping inv) () (h e) Q s) s) :
    wp H (.keeping inv) () (exceptException p h) Q s := by
  refine wp_tryCatch.mpr (wp_mono (fun r s' hr => ?_) hp)
  cases r with
  | ok a => exact hr.1 a rfl
  | error e =>
    rw [onError_error]
    split
    · exact (hr.2 e rfl).1
    · exact (hr.2 e rfl).2

end Ends

section Handler

variable [DecidableEq F.Place]

/-- The operations, which may fail if `mayFail` says so. -/
def effects (mayFail : Bool) : Handler (sig F) (Store F) :=
  fun o s r s' => Does o s r s' ∨ mayFail = true ∧ (∃ e, r = .error e) ∧ s' = s

def handler (O : Observer F γ) (mayFail : Bool) : Handler (sig F) (Store F × γ) :=
  (effects mayFail).noting O.note

variable {O : Observer F γ} {mayFail : Bool} {inv : Store F × γ → Prop} {s : Store F × γ}

/-- **One operation.**  It has its effect, or it fails and leaves everything as it was. -/
theorem wp_op {o : Op F} {Q : Except F.Exc o.Val → Store F × γ → Prop} (hs : inv s)
    (heffect : ∀ r s', Does o s.1 r s' → inv (s', O.note o s.1 r s.2) ∧
      Q r (s', O.note o s.1 r s.2))
    (hfail : mayFail = true → ∀ e, Q (.error e) s) :
    wp (handler O mayFail) (.keeping inv) () (perform o) Q s := by
  refine wp_keeping_perform ?_
  rintro r ⟨s', g⟩ ⟨h, hg⟩
  obtain rfl : g = O.note o s.1 r s.2 := hg
  rcases h with h | ⟨hmay, ⟨e, rfl⟩, hs'⟩
  · exact heffect r s' h
  · obtain rfl : s' = s.1 := hs'
    rw [O.note_error]
    exact ⟨hs, hfail hmay e⟩

/-- Nothing changes what an observer of nothing has seen. -/
theorem seen_of_blind {α : Type} {p p' : Prog (sig F) α} {s s' : Store F × γ}
    (h : Exec (handler .blind mayFail) p s p' s') : s'.2 = s.2 :=
  Exec.keeps (P := fun s' => s'.2 = s.2) h (fun _ _ _ _ hs hop => hop.2.trans hs) rfl

/-- One operation of a run that meets a condition. -/
theorem wp_op_meeting {cond : (o : Op F) → Store F × γ → (sig F).Ans o → Prop} {o : Op F}
    {Q : Except F.Exc o.Val → Store F × γ → Prop} (hs : inv s)
    (heffect : ∀ r s', Does o s.1 r s' → cond o s r → inv (s', O.note o s.1 r s.2) ∧
      Q r (s', O.note o s.1 r s.2))
    (hfail : mayFail = true → ∀ e, cond o s (.error e) → Q (.error e) s) :
    wp ((handler O mayFail).meeting cond) (.keeping inv) () (perform o) Q s := by
  refine wp_keeping_perform ?_
  rintro r ⟨s', g⟩ ⟨⟨h, hg⟩, hcond⟩
  obtain rfl : g = O.note o s.1 r s.2 := hg
  rcases h with h | ⟨hmay, ⟨e, rfl⟩, hs'⟩
  · exact heffect r s' h hcond
  · obtain rfl : s' = s.1 := hs'
    rw [O.note_error]
    exact ⟨hs, hfail hmay e hcond⟩

theorem wp_look_meeting {cond : (o : Op F) → Store F × γ → (sig F).Ans o → Prop} {p : F.Place}
    {Q : Except F.Exc (Option F.Node) → Store F × γ → Prop} {s : Store F} {g : γ} (hs : inv (s, g))
    (hQ : cond (.look p) (s, g) (.ok (s p)) → inv (s, O.note (.look p) s (.ok (s p)) g) ∧
      Q (.ok (s p)) (s, O.note (.look p) s (.ok (s p)) g))
    (hfail : mayFail = true → ∀ e, Q (.error e) (s, g)) :
    wp ((handler O mayFail).meeting cond) (.keeping inv) () (perform (.look p)) Q (s, g) := by
  refine wp_op_meeting hs ?_ fun hmay e _ => hfail hmay e
  rintro r s' ⟨rfl, rfl⟩ hcond
  exact hQ hcond

theorem wp_move_meeting {cond : (o : Op F) → Store F × γ → (sig F).Ans o → Prop}
    {src dst : F.Place} {Q : Except F.Exc Unit → Store F × γ → Prop} {s : Store F} {g : γ}
    (hs : inv (s, g))
    (hok : s.CanMove src dst → inv (s.moved src dst, O.note (.move src dst) s (.ok ()) g) ∧
      Q (.ok ()) (s.moved src dst, O.note (.move src dst) s (.ok ()) g))
    (hbad : mayFail = true ∨ ¬s.CanMove src dst → ∀ e, cond (.move src dst) (s, g) (.error e) →
      Q (.error e) (s, g)) :
    wp ((handler O mayFail).meeting cond) (.keeping inv) () (perform (.move src dst)) Q (s, g) := by
  refine wp_op_meeting hs ?_ fun hmay e => hbad (.inl hmay) e
  rintro r s' (⟨hcan, rfl, rfl⟩ | ⟨hcannot, rfl, rfl⟩) hcond
  · exact hok hcan
  · rw [O.note_error]
    exact ⟨hs, hbad (.inr hcannot) _ hcond⟩

/-- **Where a condition rules failures out**, a program runs as if nothing could fail.  `P` is what
the condition goes by. -/
theorem wp_unfailing {cond : (o : Op F) → Store F × γ → (sig F).Ans o → Prop} {A : Op F → Prop}
    {P : Store F × γ → Prop} (hcond : ∀ o s e, A o → P s → ¬cond o s (.error e)) {α : Type}
    {p : Prog (sig F) α} {Q : Except F.Exc α → Store F × γ → Prop} (hp : p.Within A) (hP : P s)
    (h : wp ((handler O false).meeting cond) (.keeping P) () p Q s) :
    wp ((handler O mayFail).meeting cond) (.keeping fun _ => True) () p Q s := by
  induction p generalizing s with
  | ret a => exact h
  | raise e => exact h
  | op o k ih =>
    rintro s₁ rfl - r s₂ ⟨⟨heffect, hnote⟩, hmet⟩
    rcases heffect with hdoes | ⟨-, ⟨e, rfl⟩, -⟩
    · obtain ⟨-, hP₂, hk⟩ := h s rfl hP r s₂ ⟨⟨.inl hdoes, hnote⟩, hmet⟩
      exact ⟨trivial, trivial, ih r (hp.2 r) hP₂ hk⟩
    · exact absurd hmet (hcond o s e hp.1 hP)

/-! ### Places that are left alone -/

/-- No place of this part is changed. -/
def Op.Avoids (part : F.Place → Prop) : Op F → Prop
  | .create p _ | .put p _ | .remove p _ => ¬part p
  | .move src dst => ¬part src ∧ ¬part dst
  | .spoil touched | .clear touched => ∀ p, part p → touched p = false
  | .look _ | .present _ | .ask _ => True

theorem does_avoids {part : F.Place → Prop} {o : Op F} (ho : o.Avoids part) {s s' : Store F}
    {r : (sig F).Ans o} (h : Does o s r s') {p : F.Place} (hp : part p) : s' p = s p := by
  have hset : ∀ {q : F.Place} {n : Option F.Node}, ¬part q → s.set q n p = s p := fun hq => by
    refine Store.set_of_ne _ _ ?_
    rintro rfl
    exact hq hp
  cases o with
  | look q => exact congrFun h.2 p
  | present q => exact congrFun h.2 p
  | ask q => exact congrFun h.2 p
  | put q n =>
    obtain ⟨-, rfl⟩ := h
    exact hset ho
  | create q n =>
    rcases h with ⟨-, -, rfl⟩ | ⟨-, -, rfl⟩
    · exact hset ho
    · rfl
  | remove q missingOk =>
    rcases h with ⟨-, -, rfl⟩ | ⟨-, -, -, rfl⟩
    · exact hset ho
    · rfl
  | move src dst =>
    rcases h with ⟨-, -, rfl⟩ | ⟨-, -, rfl⟩
    · refine Store.moved_of_ne _ ?_ ?_
      · rintro rfl
        exact ho.1 hp
      · rintro rfl
        exact ho.2 hp
    · rfl
  | spoil touched => exact h.2 p (ho p hp)
  | clear touched =>
    obtain ⟨-, rfl⟩ := h
    exact if_neg (ne_true_of_eq_false (ho p hp))

/-- The operation changes nothing in this part, and is not observed. -/
def Observer.Spares (O : Observer F γ) (part : F.Place → Prop) (o : Op F) : Prop :=
  o.Avoids part ∧ O.Ignores o

/-- **What a program does not touch**, it leaves as it is, wherever it stops. -/
theorem wp_avoiding {part : F.Place → Prop} {α : Type} {p : Prog (sig F) α}
    {Q : Except F.Exc α → Store F × γ → Prop}
    (hp : p.Within (O.Spares part))
    (hinv : ∀ s', (∀ q, part q → s' q = s.1 q) → inv (s', s.2))
    (hQ : ∀ r s', (∀ q, part q → s' q = s.1 q) → Q r (s', s.2)) :
    wp (handler O mayFail) (.keeping inv) () p Q s := by
  have hrun : wp (handler O mayFail) (.keeping inv) () p
      (fun _ s' => (∀ q, part q → s'.1 q = s.1 q) ∧ s'.2 = s.2) s := by
    refine wp_within (Protocol.stable_alone _) ?_ hp ⟨fun _ _ => rfl, rfl⟩
    rintro o ⟨s₁, g₁⟩ r ⟨s₂, g₂⟩ ⟨havoids, hignores⟩ ⟨hsame, hg₁⟩ - ⟨heffect, hnote⟩
    obtain rfl : g₁ = s.2 := hg₁
    obtain rfl : g₂ = s.2 := hnote.trans (hignores _ _ _)
    have hkept : ∀ q, part q → s₂ q = s.1 q := by
      intro q hq
      rcases heffect with hdoes | ⟨-, -, hs₂⟩
      · exact (does_avoids havoids hdoes hq).trans (hsame q hq)
      · exact (congrFun hs₂ q).trans (hsame q hq)
    exact ⟨trivial, hinv s₂ hkept, hkept, rfl⟩
  refine wp_mono ?_ hrun
  rintro r ⟨s', g'⟩ ⟨hsame, hg'⟩
  obtain rfl : g' = s.2 := hg'
  exact hQ r s' hsame

/-- A program that only looks and asks. -/
theorem wp_reading {α : Type} {p : Prog (sig F) α} {Q : Except F.Exc α → Store F × γ → Prop}
    (hp : p.Within (O.Spares fun _ => True)) (hs : inv s)
    (hQ : ∀ r, Q r s) : wp (handler O mayFail) (.keeping inv) () p Q s := by
  refine wp_avoiding hp (fun s' hs' => ?_) fun r s' hs' => ?_
  · obtain rfl : s' = s.1 := funext fun q => hs' q trivial
    exact hs
  · obtain rfl : s' = s.1 := funext fun q => hs' q trivial
    exact hQ r

section Ignored

variable {s : Store F} {g : γ}

/-- An operation that is not observed. -/
theorem wp_ignored {o : Op F} (ho : O.Ignores o) {Q : Except F.Exc o.Val → Store F × γ → Prop}
    (hs : inv (s, g)) (heffect : ∀ r s', Does o s r s' → inv (s', g) ∧ Q r (s', g))
    (hfail : mayFail = true → ∀ e, Q (.error e) (s, g)) :
    wp (handler O mayFail) (.keeping inv) () (perform o) Q (s, g) := by
  refine wp_op hs (fun r s' h => ?_) hfail
  rw [ho]
  exact heffect r s' h

theorem wp_present {p : F.Place} (ho : O.Ignores (.present p))
    {Q : Except F.Exc Bool → Store F × γ → Prop} (hs : inv (s, g))
    (hQ : Q (.ok (s p).isSome) (s, g)) (hfail : mayFail = true → ∀ e, Q (.error e) (s, g)) :
    wp (handler O mayFail) (.keeping inv) () (perform (.present p)) Q (s, g) := by
  refine wp_ignored ho hs ?_ hfail
  rintro r s' ⟨rfl, rfl⟩
  exact ⟨hs, hQ⟩

/-- A question may have any answer. -/
theorem wp_ask {q : F.Ask} (ho : O.Ignores (.ask q))
    {Q : Except F.Exc (F.Answer q) → Store F × γ → Prop} (hs : inv (s, g))
    (hQ : ∀ a, Q (.ok a) (s, g)) (hfail : mayFail = true → ∀ e, Q (.error e) (s, g)) :
    wp (handler O mayFail) (.keeping inv) () (perform (.ask q)) Q (s, g) := by
  refine wp_ignored ho hs ?_ hfail
  rintro r s' ⟨⟨a, rfl⟩, rfl⟩
  exact ⟨hs, hQ a⟩

theorem wp_look {p : F.Place} (ho : O.Ignores (.look p))
    {Q : Except F.Exc (Option F.Node) → Store F × γ → Prop} (hs : inv (s, g))
    (hQ : Q (.ok (s p)) (s, g)) (hfail : mayFail = true → ∀ e, Q (.error e) (s, g)) :
    wp (handler O mayFail) (.keeping inv) () (perform (.look p)) Q (s, g) := by
  refine wp_ignored ho hs ?_ hfail
  rintro r s' ⟨rfl, rfl⟩
  exact ⟨hs, hQ⟩

theorem wp_put {p : F.Place} {n : F.Node} (ho : O.Ignores (.put p n))
    {Q : Except F.Exc Unit → Store F × γ → Prop} (hs : inv (s, g))
    (hok : inv (s.set p (some n), g) ∧ Q (.ok ()) (s.set p (some n), g))
    (hfail : mayFail = true → ∀ e, Q (.error e) (s, g)) :
    wp (handler O mayFail) (.keeping inv) () (perform (.put p n)) Q (s, g) := by
  refine wp_ignored ho hs ?_ hfail
  rintro r s' ⟨rfl, rfl⟩
  exact hok

/-- A rename is made, or it cannot be made. -/
theorem wp_move {src dst : F.Place} (ho : O.Ignores (.move src dst))
    {Q : Except F.Exc Unit → Store F × γ → Prop} (hs : inv (s, g))
    (hok : s.CanMove src dst → inv (s.moved src dst, g) ∧ Q (.ok ()) (s.moved src dst, g))
    (hbad : mayFail = true ∨ ¬s.CanMove src dst → ∀ e, Q (.error e) (s, g)) :
    wp (handler O mayFail) (.keeping inv) () (perform (.move src dst)) Q (s, g) := by
  refine wp_ignored ho hs ?_ fun hmay e => hbad (.inl hmay) e
  rintro r s' (⟨hcan, rfl, rfl⟩ | ⟨hcannot, rfl, rfl⟩)
  · exact hok hcan
  · exact ⟨hs, hbad (.inr hcannot) _⟩

/-- `unlink(missing_ok=True)`. -/
theorem wp_removeOk {p : F.Place} (ho : O.Ignores (.remove p true))
    {Q : Except F.Exc Unit → Store F × γ → Prop} (hs : inv (s, g))
    (hok : inv (s.set p none, g) ∧ Q (.ok ()) (s.set p none, g))
    (hfail : mayFail = true → ∀ e, Q (.error e) (s, g)) :
    wp (handler O mayFail) (.keeping inv) () (perform (.remove p true)) Q (s, g) := by
  refine wp_ignored ho hs ?_ hfail
  rintro r s' (⟨-, rfl, rfl⟩ | ⟨hfalse, -⟩)
  · exact hok
  · exact nomatch hfalse

/-- **Copying** ends with the copy, or somewhere before that; no other place is touched. -/
theorem wp_copy {src dst : F.Place} (hne : src ≠ dst) (hspoil : ∀ part, O.Ignores (.spoil part))
    (hlook : O.Ignores (.look src)) (hput : ∀ n, O.Ignores (.put dst n))
    {Q : Except F.Exc Unit → Store F × γ → Prop}
    (hinv : ∀ s', (∀ p, p ≠ dst → s' p = s p) → inv (s', g))
    (hQ : ∀ s', (∀ p, p ≠ dst → s' p = s p) → s' dst = s src → (s src).isSome = true →
      Q (.ok ()) (s', g))
    (hfail : ∀ e s', mayFail = true ∨ s src = none → (∀ p, p ≠ dst → s' p = s p) →
      Q (.error e) (s', g)) :
    wp (handler O mayFail) (.keeping inv) () (copy src dst) Q (s, g) := by
  have hsame : ∀ p, p ≠ dst → s p = s p := fun _ _ => rfl
  refine wp_bind.mpr (wp_ignored (hspoil _) (hinv s hsame) ?_
    fun hmay e => hfail e s (.inl hmay) hsame)
  rintro r s₁ ⟨rfl, hpart⟩
  have hs₁ : ∀ p, p ≠ dst → s₁ p = s p := fun p hp => hpart p (decide_eq_false hp)
  refine ⟨hinv s₁ hs₁, wp_bind.mpr (wp_look hlook (hinv s₁ hs₁) ?_
    fun hmay e => hfail e s₁ (.inl hmay) hs₁)⟩
  rw [onOk_ok, hs₁ src hne]
  cases hsrc : s src with
  | none => exact hfail _ s₁ (.inr hsrc) hs₁
  | some n =>
    refine wp_ignored (hput n) (hinv s₁ hs₁) ?_
      fun hmay e => hfail e s₁ (.inl hmay) hs₁
    rintro r s₂ ⟨rfl, rfl⟩
    have hs₂ : ∀ p, p ≠ dst → s₁.set dst (some n) p = s p := fun p hp => by
      rw [Store.set_of_ne _ _ hp, hs₁ p hp]
    exact ⟨hinv _ hs₂, hQ _ hs₂ (by rw [Store.set_self, hsrc]) (by rw [hsrc]; rfl)⟩

/-- Removing a tree touches nothing else, and never fails of itself. -/
theorem wp_rmtree {part : F.Place → Bool} (hspoil : O.Ignores (.spoil part))
    (hclear : O.Ignores (.clear part)) {Q : Except F.Exc Unit → Store F × γ → Prop}
    (hinv : ∀ s', (∀ p, part p = false → s' p = s p) → inv (s', g))
    (hQ : ∀ s', (∀ p, part p = false → s' p = s p) → Q (.ok ()) (s', g) ∧
      (mayFail = true → ∀ e, Q (.error e) (s', g))) :
    wp (handler O mayFail) (.keeping inv) () (rmtree part) Q (s, g) := by
  have hsame : ∀ p, part p = false → s p = s p := fun _ _ => rfl
  refine wp_exceptException (wp_bind.mpr (wp_ignored hspoil (hinv s hsame) ?_ ?_))
  · rintro r s₁ ⟨rfl, hs₁⟩
    refine ⟨hinv s₁ hs₁, wp_ignored hclear (hinv s₁ hs₁) ?_ ?_⟩
    · rintro r s₂ ⟨rfl, rfl⟩
      have hs₂ : ∀ p, part p = false → (if part p = true then none else s₁ p) = s p := by
        intro p hp
        rw [hp]
        exact hs₁ p hp
      exact ⟨hinv _ hs₂, fun _ _ => (hQ _ hs₂).1, nofun⟩
    · exact fun hmay e => ⟨nofun, fun _ _ => ⟨(hQ s₁ hs₁).2 hmay e, (hQ s₁ hs₁).1⟩⟩
  · exact fun hmay e => ⟨nofun, fun _ _ => ⟨(hQ s hsame).2 hmay e, (hQ s hsame).1⟩⟩

/-- The failures that `rmtree` does not let through, where the condition rules out the others. -/
theorem wp_rmtree_meeting {cond : (o : Op F) → Store F × γ → (sig F).Ans o → Prop}
    {part : F.Place → Bool} (hspoil : O.Ignores (.spoil part)) (hclear : O.Ignores (.clear part))
    {Q : Except F.Exc Unit → Store F × γ → Prop}
    (hcond : ∀ s' e, (∀ p, part p = false → s' p = s p) → cond (.spoil part) (s', g) (.error e) ∨
      cond (.clear part) (s', g) (.error e) → F.interrupts e = false)
    (hinv : ∀ s', (∀ p, part p = false → s' p = s p) → inv (s', g))
    (hQ : ∀ s', (∀ p, part p = false → s' p = s p) → Q (.ok ()) (s', g)) :
    wp ((handler O mayFail).meeting cond) (.keeping inv) () (rmtree part) Q (s, g) := by
  have hsame : ∀ p, part p = false → s p = s p := fun _ _ => rfl
  have hcaught : ∀ {s' e}, (∀ p, part p = false → s' p = s p) → F.interrupts e = false →
      wp ((handler O mayFail).meeting cond) (.keeping inv) ()
        (if F.interrupts e then .raise e else pure () : Prog (sig F) Unit) Q (s', g) := by
    intro s' e hs' he
    rw [he]
    exact hQ s' hs'
  refine wp_tryCatch.mpr (wp_bind.mpr (wp_op_meeting (hinv s hsame) ?_ fun _ e he =>
    hcaught hsame (hcond s e hsame (.inl he))))
  rintro r s₁ ⟨rfl, hs₁⟩ -
  rw [hspoil]
  refine ⟨hinv s₁ hs₁, wp_op_meeting (hinv s₁ hs₁) ?_ fun _ e he =>
    hcaught hs₁ (hcond s₁ e hs₁ (.inr he))⟩
  rintro r s₂ ⟨rfl, rfl⟩ -
  have hs₂ : ∀ p, part p = false → (if part p = true then none else s₁ p) = s p := by
    intro p hp
    rw [hp]
    exact hs₁ p hp
  rw [hclear]
  exact ⟨hinv _ hs₂, hQ _ hs₂⟩

end Ignored

end Handler

/-! ## 4. Playing -/

/-- What the surroundings of a script do: they answer, they leave something behind where a change
is not atomic, and they let operations fail. -/
structure Outside (F : Files) where
  answer : (q : F.Ask) → Store F → F.Answer q
  leaves : F.Place → Option F.Node
  fails : Op F → Store F → Option F.Exc

section Play

variable [DecidableEq F.Place]

/-- One effect of each operation. -/
def Outside.act (e : Outside F) : (o : Op F) → Store F → (sig F).Ans o × Store F
  | .look p, s => (.ok (s p), s)
  | .present p, s => (.ok (s p).isSome, s)
  | .create p n, s => if (s p).isSome then (.error F.osError, s) else (.ok (), s.set p (some n))
  | .put p n, s => (.ok (), s.set p (some n))
  | .move src dst, s =>
    if s.CanMove src dst then (.ok (), s.moved src dst) else (.error F.osError, s)
  | .remove p missingOk, s =>
    if missingOk = true ∨ (s p).isSome = true then (.ok (), s.set p none)
    else (.error F.osError, s)
  | .spoil part, s => (.ok (), fun p => if part p then e.leaves p else s p)
  | .clear part, s => (.ok (), fun p => if part p then none else s p)
  | .ask q, s => (.ok (e.answer q s), s)

theorem does_act (e : Outside F) (o : Op F) (s : Store F) :
    Does o s (e.act o s).1 (e.act o s).2 := by
  cases o with
  | look p => exact ⟨rfl, rfl⟩
  | present p => exact ⟨rfl, rfl⟩
  | create p n =>
    by_cases h : (s p).isSome = true
    · simp only [Outside.act, if_pos h]
      exact .inr ⟨h, rfl, rfl⟩
    · simp only [Outside.act, if_neg h]
      exact .inl ⟨Option.not_isSome_iff_eq_none.mp h, rfl, rfl⟩
  | put p n => exact ⟨rfl, rfl⟩
  | move src dst =>
    by_cases h : s.CanMove src dst
    · simp only [Outside.act, if_pos h]
      exact .inl ⟨h, rfl, rfl⟩
    · simp only [Outside.act, if_neg h]
      exact .inr ⟨h, rfl, rfl⟩
  | remove p missingOk =>
    by_cases h : missingOk = true ∨ (s p).isSome = true
    · simp only [Outside.act, if_pos h]
      exact .inl ⟨h, rfl, rfl⟩
    · simp only [Outside.act, if_neg h]
      obtain ⟨hmissing, hnone⟩ := not_or.mp h
      exact .inr ⟨eq_false_of_ne_true hmissing,
        Option.not_isSome_iff_eq_none.mp hnone, rfl, rfl⟩
  | spoil part =>
    refine ⟨rfl, fun p hp => ?_⟩
    simp [Outside.act, hp]
  | clear part => exact ⟨rfl, rfl⟩
  | ask q => exact ⟨⟨_, rfl⟩, rfl⟩

/-- The script of an outside, observed. -/
def Outside.script (e : Outside F) (O : Observer F γ) : Script (sig F) (Store F × γ) := fun o s =>
  match e.fails o s.1 with
  | some exc => (.error exc, s)
  | none => ((e.act o s.1).1, (e.act o s.1).2, O.note o s.1 (e.act o s.1).1 s.2)

theorem script_picks {e : Outside F} {O : Observer F γ} {mayFail : Bool}
    (h : mayFail = true ∨ ∀ o s, e.fails o s = none) :
    (e.script O).Picks (handler O mayFail) := by
  intro o s
  unfold Outside.script
  split
  · rename_i exc hexc
    rcases h with hmay | hnever
    · exact ⟨.inr ⟨hmay, ⟨exc, rfl⟩, rfl⟩, (O.note_error o s.1 exc s.2).symm⟩
    · exact nomatch (hnever o s.1).symm.trans hexc
  · exact ⟨.inl (does_act e o s.1), rfl⟩

/-- **A script can always go on**: from every state there is a complete run. -/
theorem exists_runs {O : Observer F γ} {mayFail : Bool}
    (hanswer : ∀ q : F.Ask, Nonempty (F.Answer q)) {α : Type}
    (p : Prog (sig F) α) (s : Store F × γ) : ∃ r s', Runs (handler O mayFail) p s r s' :=
  let e : Outside F := ⟨fun q _ => (hanswer q).some, fun _ => none, fun _ _ => none⟩
  ⟨_, _, runs_play (script_picks (e := e) (.inr fun _ _ => rfl)) p s⟩

end Play

end Files

end Effect
