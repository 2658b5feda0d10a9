/-
# Playing programs: concrete runs by computation

A `Handler` says which answers an operation can have.  A `Script` picks one, so that a program
becomes a function that can be evaluated.  What a script plays is a run of every handler that
allows the script's choices; concrete histories of a system are exhibited this way.

A program may use two services that know nothing of each other; their exceptions are the same.
A program that uses one of them is one of the pair, and does there what it does alone:

* `wp_inLeft`, `wp_inRight`: what has been proved of it for the one service holds for the pair,
  and the other service is left as it is;
* `picks_beside`: the pair is played by playing each.
-/
import Kripto.Effect.Pool
import Kripto.Effect.Session

namespace Effect

variable {S : Sig} {σ α κ ℓ ι : Type}

/-! ## 1. One program -/

/-- One answer and one state for every operation in every state. -/
abbrev Script (S : Sig) (σ : Type) : Type := (o : S.Op) → σ → S.Ans o × σ

/-- The choices of the script are among those the handler allows. -/
def Script.Picks (f : Script S σ) (H : Handler S σ) : Prop :=
  ∀ o s, H o s (f o s).1 (f o s).2

/-- The outcome of a program under a script. -/
def Prog.play (f : Script S σ) : Prog S α → σ → Except S.Exc α × σ
  | .ret a, s => (.ok a, s)
  | .raise e, s => (.error e, s)
  | .op o k, s => (k (f o s).1).play f (f o s).2

@[simp] theorem play_pure {f : Script S σ} (a : α) (s : σ) :
    (pure a : Prog S α).play f s = (.ok a, s) := rfl

@[simp] theorem play_raise {f : Script S σ} (e : S.Exc) (s : σ) :
    (Prog.raise e : Prog S α).play f s = (.error e, s) := rfl

@[simp] theorem play_perform {f : Script S σ} (o : S.Op) (s : σ) :
    (Prog.perform o).play f s = f o s := by
  cases h : (f o s).1 <;> simp [Prog.perform, Prog.play, Prog.ofExcept, h] <;>
    exact Prod.ext h.symm rfl

/-- A sequence plays its first part, and its second unless the first raised. -/
theorem play_bind {β : Type} {f : Script S σ} (p : Prog S α) (k : α → Prog S β) (s : σ) :
    (p >>= k).play f s = match p.play f s with
      | (.ok a, s') => (k a).play f s'
      | (.error e, s') => (.error e, s') := by
  induction p generalizing s with
  | ret a => rfl
  | raise e => rfl
  | op o j ih => exact ih _ _

/-- A program that goes on to return a value made of its own. -/
theorem play_map {β : Type} {f : Script S σ} (p : Prog S α) (g : α → β) (s : σ) :
    (p >>= fun a => .ret (g a)).play f s = ((p.play f s).1.map g, (p.play f s).2) := by
  rw [play_bind]
  rcases p.play f s with ⟨e | a, s'⟩ <;> rfl

theorem play_attempt {f : Script S σ} (p : Prog S α) (s : σ) :
    p.attempt.play f s = (.ok (p.play f s).1, (p.play f s).2) := by
  induction p generalizing s with
  | ret a => rfl
  | raise e => rfl
  | op o k ih => exact ih _ _

theorem runs_play {f : Script S σ} {H : Handler S σ} (hf : f.Picks H) (p : Prog S α) (s : σ) :
    Runs H p s (p.play f s).1 (p.play f s).2 := by
  induction p generalizing s with
  | ret a => exact .refl _ _
  | raise e => exact .refl _ _
  | op o k ih => exact .step (hf o s) (ih _ _)

/-- The operations of a program under a script all meet `cond`. -/
def Prog.Meets (f : Script S σ) (cond : (o : S.Op) → σ → S.Ans o → Prop) : Prog S α → σ → Prop
  | .ret _, _ => True
  | .raise _, _ => True
  | .op o k, s => cond o s (f o s).1 ∧ (k (f o s).1).Meets f cond (f o s).2

instance Prog.Meets.decidable {f : Script S σ} {cond : (o : S.Op) → σ → S.Ans o → Prop}
    [∀ o s r, Decidable (cond o s r)] : ∀ (p : Prog S α) (s : σ), Decidable (p.Meets f cond s)
  | .ret _, _ => isTrue trivial
  | .raise _, _ => isTrue trivial
  | .op o k, s =>
    have : Decidable ((k (f o s).1).Meets f cond (f o s).2) :=
      Prog.Meets.decidable (k (f o s).1) (f o s).2
    inferInstanceAs (Decidable (cond o s (f o s).1 ∧ (k (f o s).1).Meets f cond (f o s).2))

theorem runs_play_meeting {f : Script S σ} {H : Handler S σ}
    {cond : (o : S.Op) → σ → S.Ans o → Prop} (hf : f.Picks H) {p : Prog S α} {s : σ}
    (h : p.Meets f cond s) : Runs (H.meeting cond) p s (p.play f s).1 (p.play f s).2 := by
  induction p generalizing s with
  | ret a => exact .refl _ _
  | raise e => exact .refl _ _
  | op o k ih => exact .step ⟨hf o s, h.1⟩ (ih _ h.2)

/-- Played in related states, the program ends alike and leaves related states. -/
def Prog.Unaffected (f : Script S σ) (R : σ → σ → Prop) (p : Prog S α) : Prop :=
  ∀ s s', R s s' → (p.play f s).1 = (p.play f s').1 ∧ R (p.play f s).2 (p.play f s').2

namespace Prog.Unaffected

variable {f : Script S σ} {R : σ → σ → Prop} {β : Type}

theorem ret (a : α) : (Prog.ret a : Prog S α).Unaffected f R := fun _ _ h => ⟨rfl, h⟩

theorem raise (e : S.Exc) : (Prog.raise e : Prog S α).Unaffected f R := fun _ _ h => ⟨rfl, h⟩

theorem ofExcept (x : Except S.Exc α) : (Prog.ofExcept x).Unaffected f R := by
  cases x with
  | ok a => exact ret a
  | error e => exact raise e

theorem perform {o : S.Op}
    (ho : ∀ s s', R s s' → (f o s).1 = (f o s').1 ∧ R (f o s).2 (f o s').2) :
    (Prog.perform o).Unaffected f R := by
  intro s s' h
  rw [play_perform, play_perform]
  exact ho s s' h

theorem bind {p : Prog S α} {k : α → Prog S β} (hp : p.Unaffected f R)
    (hk : ∀ a, (k a).Unaffected f R) : (p >>= k).Unaffected f R := by
  intro s s' h
  obtain ⟨hsame, hleft⟩ := hp s s' h
  rw [play_bind, play_bind]
  rcases hplay : p.play f s with ⟨e | a, t⟩ <;> rcases hplay' : p.play f s' with ⟨e' | a', t'⟩ <;>
    rw [hplay, hplay'] at hsame hleft <;> cases hsame
  · exact ⟨rfl, hleft⟩
  · exact hk a t t' hleft

theorem attempt {p : Prog S α} (hp : p.Unaffected f R) : p.attempt.Unaffected f R := by
  intro s s' h
  rw [play_attempt, play_attempt]
  exact ⟨congrArg Except.ok (hp s s' h).1, (hp s s' h).2⟩

end Prog.Unaffected

/-- The first operations of a program under a script: what is left to do, and the state. -/
def Prog.playFor (f : Script S σ) : Nat → Prog S α → σ → Prog S α × σ
  | n + 1, .op o k, s => (k (f o s).1).playFor f n (f o s).2
  | _, p, s => (p, s)

theorem exec_playFor {f : Script S σ} {H : Handler S σ} (hf : f.Picks H) (n : Nat)
    (p : Prog S α) (s : σ) : Exec H p s (p.playFor f n s).1 (p.playFor f n s).2 := by
  induction n generalizing p s with
  | zero => cases p <;> exact .refl _ _
  | succ n ih =>
    cases p with
    | ret a => exact .refl _ _
    | raise e => exact .refl _ _
    | op o k => exact .step (hf o s) (ih _ _)

theorem exec_playFor_meeting {f : Script S σ} {H : Handler S σ}
    {cond : (o : S.Op) → σ → S.Ans o → Prop} (hf : f.Picks H) (n : Nat) {p : Prog S α} {s : σ}
    (h : p.Meets f cond s) :
    Exec (H.meeting cond) p s (p.playFor f n s).1 (p.playFor f n s).2 := by
  induction n generalizing p s with
  | zero => cases p <;> exact .refl _ _
  | succ n ih =>
    cases p with
    | ret a => exact .refl _ _
    | raise e => exact .refl _ _
    | op o k => exact .step ⟨hf o s, h.1⟩ (ih h.2)

theorem playFor_succ {f : Script S σ} {n : Nat} {p : Prog S α} {s : σ} {o : S.Op}
    {k : S.Ans o → Prog S α} (h : (p.playFor f n s).1 = .op o k) :
    (p.playFor f (n + 1) s).2 = (f o (p.playFor f n s).2).2 := by
  induction n generalizing p s with
  | zero =>
    cases p with
    | op o' k' => cases h; rfl
    | ret a => cases h
    | raise e => cases h
  | succ n ih =>
    cases p with
    | op o' k' => exact ih h
    | ret a => cases h
    | raise e => cases h

/-- Is there an operation left to perform? -/
def Prog.running : Prog S α → Bool
  | .op .. => true
  | _ => false

/-- The operation a played call performs next, in the history that consists of that call. -/
theorem performs_playFor {Y : Session.System S σ α κ ℓ} {f : Script S σ} {k : κ}
    (hf : f.Picks (Y.handler k)) (n : Nat) (s : σ)
    (h : ((Y.body k).playFor f n s).1.running = true) :
    ∃ o, Session.Performs Y s o ((Y.body k).playFor f n s).2
      ((Y.body k).playFor f (n + 1) s).2 := by
  have hexec := exec_playFor hf n (Y.body k) s
  cases hp : ((Y.body k).playFor f n s).1 with
  | ret a => rw [hp] at h; cases h
  | raise e => rw [hp] at h; cases h
  | op o cont =>
    rw [playFor_succ hp]
    rw [hp] at hexec
    exact ⟨o, [], s, k, cont, _, .nil s, hexec, hf o _⟩

/-! ## 2. A pool under a schedule -/

/-- What a scheduler can ask for: start the program of `k` in thread `t`, let `t` perform its
next operation, kill `t`. -/
inductive Move (ι κ : Type) : Type
  | spawn (t : ι) (k : κ)
  | act (t : ι)
  | stop (t : ι)

namespace Pool

variable [DecidableEq ι] {γ : Type}

/-- One move.  A move that does not fit (a start in a busy thread, a step of a finished one)
leaves the pool as it is. -/
def move (f : ι → Script S σ) (body : κ → Prog S α) (c : Pool ι S σ α) :
    Move ι κ → Pool ι S σ α
  | .spawn t k => match c.threads t with
    | none => ⟨c.shared, Function.update c.threads t (some (body k))⟩
    | some _ => c
  | .act t => match c.threads t with
    | some (.op o k) =>
        ⟨(f t o c.shared).2, Function.update c.threads t (some (k (f t o c.shared).1))⟩
    | _ => c
  | .stop t => ⟨c.shared, Function.update c.threads t none⟩

/-- A whole schedule. -/
def play (f : ι → Script S σ) (body : κ → Prog S α) :
    Pool ι S σ α → List (Move ι κ) → Pool ι S σ α :=
  List.foldl (move f body)

theorem reaches_move {f : ι → Script S σ} {body : κ → Prog S α} {Y : System ι S σ α}
    (hf : ∀ t, (f t).Picks (Y.handler t)) (hbody : ∀ t k, Y.start t (body k))
    (c : Pool ι S σ α) (m : Move ι κ) : Reaches Y c (c.move f body m) := by
  cases m with
  | spawn t k =>
    simp only [move]
    split
    · rename_i idle
      exact .single (.spawn t (body k) idle (hbody t k))
    · exact .refl
  | act t =>
    simp only [move]
    split
    · rename_i o k running
      exact .single (.act t o k _ _ running (hf t o c.shared))
    · exact .refl
  | stop t => exact .single (.stop t)

/-- The script with a record beside the state. -/
def noting (f : Script S σ) (note : (o : S.Op) → S.Ans o → γ → γ) : Script S (σ × γ) :=
  fun o s => ((f o s.1).1, ((f o s.1).2, note o (f o s.1).1 s.2))

omit [DecidableEq ι] in
theorem picks_noting {Y : System ι S σ α} {f : ι → Script S σ}
    (hf : ∀ t, (f t).Picks (Y.handler t)) (note : ι → (o : S.Op) → S.Ans o → γ → γ) (t : ι) :
    (noting (f t) (note t)).Picks ((Y.withGhost note).handler t) :=
  fun o s => ⟨hf t o s.1, rfl⟩

/-- **A played schedule is a run.** -/
theorem reaches_play {f : ι → Script S σ} {body : κ → Prog S α} {Y : System ι S σ α}
    (hf : ∀ t, (f t).Picks (Y.handler t)) (hbody : ∀ t k, Y.start t (body k))
    (c : Pool ι S σ α) (ms : List (Move ι κ)) : Reaches Y c (c.play f body ms) := by
  induction ms generalizing c with
  | nil => exact .refl
  | cons m ms ih => exact (reaches_move hf hbody c m).trans (ih _)

/-- The next operation of a thread, if it has one, satisfies `P`. -/
def Next (P : S.Op → Prop) : Option (Prog S α) → Prop
  | some (.op o _) => P o
  | _ => True

instance Next.decidable {P : S.Op → Prop} [DecidablePred P] :
    ∀ p : Option (Prog S α), Decidable (Next P p)
  | some (.op o _) => inferInstanceAs (Decidable (P o))
  | some (.ret _) => isTrue trivial
  | some (.raise _) => isTrue trivial
  | none => isTrue trivial

/-- The operation a move performs, if it performs one, meets `cond`. -/
def Meets (f : ι → Script S σ) (cond : ι → (o : S.Op) → σ → S.Ans o → Prop) (c : Pool ι S σ α) :
    Move ι κ → Prop
  | .act t => Next (fun o => cond t o c.shared (f t o c.shared).1) (c.threads t)
  | _ => True

/-- Every operation of the schedule does. -/
def AllMeet (f : ι → Script S σ) (body : κ → Prog S α)
    (cond : ι → (o : S.Op) → σ → S.Ans o → Prop) : Pool ι S σ α → List (Move ι κ) → Prop
  | _, [] => True
  | c, m :: ms => c.Meets f cond m ∧ AllMeet f body cond (c.move f body m) ms

section Meeting

variable {f : ι → Script S σ} {body : κ → Prog S α} {Y : System ι S σ α}
  {cond : ι → (o : S.Op) → σ → S.Ans o → Prop}

instance Meets.decidable [∀ t o s r, Decidable (cond t o s r)] (c : Pool ι S σ α) :
    ∀ m : Move ι κ, Decidable (c.Meets f cond m)
  | .act t => inferInstanceAs (Decidable (Next _ (c.threads t)))
  | .spawn .. => isTrue trivial
  | .stop _ => isTrue trivial

instance AllMeet.decidable [∀ t o s r, Decidable (cond t o s r)] :
    ∀ (c : Pool ι S σ α) (ms : List (Move ι κ)), Decidable (AllMeet f body cond c ms)
  | _, [] => isTrue trivial
  | c, m :: ms =>
    have := AllMeet.decidable (c.move f body m) ms
    inferInstanceAs (Decidable (c.Meets f cond m ∧ AllMeet f body cond (c.move f body m) ms))

theorem reaches_move_meeting (hf : ∀ t, (f t).Picks (Y.handler t)) (c : Pool ι S σ α)
    (m : Move ι κ) (hbody : ∀ t k, m = .spawn t k → Y.start t (body k))
    (h : c.Meets f cond m) : Reaches (Y.meeting cond) c (c.move f body m) := by
  cases m with
  | spawn t k =>
    simp only [move]
    split
    · rename_i idle
      exact .single (.spawn t (body k) idle (hbody t k rfl))
    · exact .refl
  | act t =>
    simp only [Meets] at h
    simp only [move]
    split
    · rename_i o k running
      rw [running] at h
      exact .single (.act t o k _ _ running ⟨hf t o c.shared, h⟩)
    · exact .refl
  | stop t => exact .single (.stop t)

/-- **A played schedule whose operations meet a condition** is a run of the restricted system. -/
theorem reaches_play_meeting (hf : ∀ t, (f t).Picks (Y.handler t)) (c : Pool ι S σ α)
    (ms : List (Move ι κ)) (hbody : ∀ t k, .spawn t k ∈ ms → Y.start t (body k))
    (h : AllMeet f body cond c ms) : Reaches (Y.meeting cond) c (c.play f body ms) := by
  induction ms generalizing c with
  | nil => exact .refl
  | cons m ms ih =>
    have hfirst : Reaches (Y.meeting cond) c (c.move f body m) :=
      reaches_move_meeting hf c m (fun t k hm => hbody t k (by simp [hm])) h.1
    exact hfirst.trans (ih _ (fun t k hm => hbody t k (List.mem_cons_of_mem m hm)) h.2)

end Meeting

end Pool

end Effect

namespace Effect

/-! ## 3. Programs of a pair -/

/-- The operations of two services. -/
abbrev Sig.beside (S : Sig) (Op : Type) (Val : Op → Type) : Sig :=
  ⟨S.Op ⊕ Op, Sum.elim S.Val Val, S.Exc⟩

variable {S : Sig} {Op : Type} {Val : Op → Type} {α σ τ : Type}

namespace Prog

def inLeft : Prog S α → Prog (S.beside Op Val) α
  | .ret a => .ret a
  | .raise e => .raise e
  | .op o k => .op (.inl o) fun r => (k r).inLeft

def inRight : Prog ⟨Op, Val, S.Exc⟩ α → Prog (S.beside Op Val) α
  | .ret a => .ret a
  | .raise e => .raise e
  | .op o k => .op (.inr o) fun r => (k r).inRight

end Prog

/-- Each operation works on the state of its own service. -/
def Handler.beside (H : Handler S σ) (H' : Handler ⟨Op, Val, S.Exc⟩ τ) :
    Handler (S.beside Op Val) (σ × τ)
  | .inl o, s, r, s' => H o s.1 r s'.1 ∧ s'.2 = s.2
  | .inr o, s, r, s' => H' o s.2 r s'.2 ∧ s'.1 = s.1

/-! ## 4. What is proved of one -/

variable {H : Handler S σ} {H' : Handler ⟨Op, Val, S.Exc⟩ τ} {both : σ × τ → Prop}
  {s : σ} {t : τ}

/-- **The left service**, beside another one. -/
theorem wp_inLeft {I : σ → Prop} {p : Prog S α} {Q : Except S.Exc α → σ → Prop}
    (hboth : ∀ s', I s' → both (s', t)) (hs : I s) (h : wp H (.keeping I) () p Q s) :
    wp (H.beside H') (.keeping both) () p.inLeft (fun r st => Q r st.1 ∧ st.2 = t) (s, t) := by
  induction p generalizing s with
  | ret a => exact ⟨h, rfl⟩
  | raise e => exact ⟨h, rfl⟩
  | op o k ih =>
    rintro _ rfl - r ⟨s', t'⟩ ⟨hs', rfl⟩
    obtain ⟨-, hinv, hk⟩ := h s rfl hs r s' hs'
    exact ⟨trivial, hboth s' hinv, ih r hinv hk⟩

/-- **The right service**, beside another one. -/
theorem wp_inRight {I : τ → Prop} {p : Prog ⟨Op, Val, S.Exc⟩ α}
    {Q : Except S.Exc α → τ → Prop} (hboth : ∀ t', I t' → both (s, t')) (ht : I t)
    (h : wp H' (.keeping I) () p Q t) :
    wp (H.beside H') (.keeping both) () (p.inRight (S := S)) (fun r st => Q r st.2 ∧ st.1 = s)
      (s, t) := by
  induction p generalizing t with
  | ret a => exact ⟨h, rfl⟩
  | raise e => exact ⟨h, rfl⟩
  | op o k ih =>
    rintro _ rfl - r ⟨s', t'⟩ ⟨ht', rfl⟩
    obtain ⟨-, hinv, hk⟩ := h t rfl ht r t' ht'
    exact ⟨trivial, hboth t' hinv, ih r hinv hk⟩

/-! ## 5. Playing both -/

def Script.beside (f : Script S σ) (f' : Script ⟨Op, Val, S.Exc⟩ τ) :
    Script (S.beside Op Val) (σ × τ)
  | .inl o, s => ((f o s.1).1, (f o s.1).2, s.2)
  | .inr o, s => ((f' o s.2).1, s.1, (f' o s.2).2)

theorem picks_beside {f : Script S σ} {f' : Script ⟨Op, Val, S.Exc⟩ τ} (h : f.Picks H)
    (h' : f'.Picks H') : (f.beside f').Picks (H.beside H') := by
  rintro (o | o) s
  · exact ⟨h o s.1, rfl⟩
  · exact ⟨h' o s.2, rfl⟩

end Effect
