/-
# Leases with fencing tokens

A cell that at most one party holds at a time, and that party only for a limited time.  A holder
may extend its lease while it lasts.  Once a lease is over the cell is free, and whoever takes it
next -- the former holder included -- gets a token above every earlier one.

What makes such a cell useful is stated about a pair of holder and token that was valid at some
time (`Held`): as long as the cell shows no higher token, it shows this pair; and if it does show
a higher one, time has moved on.  From `Held.step` follow exclusion at any one time, the order of
the tokens, and, with `Over.step`, that a pair is not valid again once it has stopped being so.
-/
import Mathlib.Algebra.Order.Group.Int

namespace Effect

/-- A lease: who holds it, under which token, and until when. -/
structure FencedLease (ι τ : Type) where
  holder : ι
  token : ℤ
  expires : τ

namespace FencedLease

variable {ι τ : Type} [LinearOrder τ] {c c' : Option (FencedLease ι τ)} {i i' : ι}
  {token token' : ℤ} {now now₀ now' : τ}

/-! ## 1. Cells -/

/-- The pair is the one the cell recognises at `now`. -/
def Valid (c : Option (FencedLease ι τ)) (i : ι) (token : ℤ) (now : τ) : Prop :=
  ∃ l, c = some l ∧ l.holder = i ∧ l.token = token ∧ now < l.expires

/-- What can happen to a cell at `now`. -/
inductive Step (now : τ) : Option (FencedLease ι τ) → Option (FencedLease ι τ) → Prop
  | keep (c : Option (FencedLease ι τ)) : Step now c c
  | first (l : FencedLease ι τ) : Step now none (some l)
  | extend (l l' : FencedLease ι τ) (live : now < l.expires) (lasts : now < l'.expires)
      (holder : l'.holder = l.holder) (token : l'.token = l.token) : Step now (some l) (some l')
  | takeOver (l l' : FencedLease ι τ) (ended : l.expires ≤ now) (fresh : l.token < l'.token) :
      Step now (some l) (some l')

/-! ## 2. Pairs that have been valid -/

/-- What a cell shows at `now` of a pair that was valid at `now₀`: the pair itself, with a lease
that outlasted `now₀`, or a higher token -- and then it is later than `now₀`. -/
def Held (c : Option (FencedLease ι τ)) (i : ι) (token : ℤ) (now₀ now : τ) : Prop :=
  ∃ l, c = some l ∧ (token = l.token ∧ l.holder = i ∧ now₀ < l.expires ∨
    token < l.token ∧ now₀ < now)

/-- The cell has seen the last of a token: it shows a higher one, or this one run out. -/
def Over (c : Option (FencedLease ι τ)) (token : ℤ) (now : τ) : Prop :=
  ∃ l, c = some l ∧ (token < l.token ∨ token = l.token ∧ l.expires ≤ now)

theorem Valid.held (h : Valid c i token now₀) (now : τ) : Held c i token now₀ now := by
  obtain ⟨l, rfl, rfl, rfl, hlive⟩ := h
  exact ⟨l, rfl, Or.inl ⟨rfl, rfl, hlive⟩⟩

theorem Held.mono (h : Held c i token now₀ now) (hle : now ≤ now') :
    Held c i token now₀ now' := by
  obtain ⟨l, rfl, hshows | ⟨hhigher, hlater⟩⟩ := h
  · exact ⟨l, rfl, Or.inl hshows⟩
  · exact ⟨l, rfl, Or.inr ⟨hhigher, hlater.trans_le hle⟩⟩

/-- **A step keeps track of the pairs of the past.** -/
theorem Held.step (h : Held c i token now₀ now) (hle : now₀ ≤ now) (hs : Step now c c') :
    Held c' i token now₀ now := by
  obtain ⟨l, hl, hshows⟩ := h
  cases hs with
  | keep => exact ⟨l, hl, hshows⟩
  | first l' => cases hl
  | extend l₁ l' live lasts holder htoken =>
    cases hl
    refine ⟨l', rfl, ?_⟩
    rcases hshows with ⟨rfl, rfl, -⟩ | ⟨hhigher, hlater⟩
    · exact Or.inl ⟨htoken.symm, holder, hle.trans_lt lasts⟩
    · exact Or.inr ⟨by omega, hlater⟩
  | takeOver l₁ l' ended fresh =>
    cases hl
    refine ⟨l', rfl, Or.inr ?_⟩
    rcases hshows with ⟨rfl, -, hlive⟩ | ⟨hhigher, hlater⟩
    · exact ⟨fresh, hlive.trans_le ended⟩
    · exact ⟨hhigher.trans fresh, hlater⟩

/-- **Exclusion.**  A pair that is valid now is the one that was valid at the same time before. -/
theorem Held.exclusive (h : Held c i token now now) (hv : Valid c i' token' now) :
    i = i' ∧ token = token' := by
  obtain ⟨l, hl, rfl, rfl, -⟩ := hv
  obtain ⟨l', hl', ⟨htoken, hholder, -⟩ | ⟨-, hlater⟩⟩ := h
  · rw [hl] at hl'
    cases hl'
    exact ⟨hholder.symm, htoken⟩
  · exact absurd hlater (lt_irrefl now)

/-- **Order of the tokens.**  The token shown is not below any earlier one, and above that of
every other holder. -/
theorem Held.token_le {l : FencedLease ι τ} (h : Held (some l) i token now₀ now) :
    token ≤ l.token ∧ (i ≠ l.holder → token < l.token) := by
  obtain ⟨l', hl', ⟨rfl, rfl, -⟩ | ⟨hhigher, -⟩⟩ := h
  · cases hl'
    exact ⟨le_rfl, fun hne => absurd rfl hne⟩
  · cases hl'
    exact ⟨by omega, fun _ => hhigher⟩

/-! ## 3. Pairs that are no longer valid -/

/-- A pair that has been valid and is not any more is over. -/
theorem Held.ended (h : Held c i token now₀ now) (hv : ¬Valid c i token now) :
    Over c token now := by
  obtain ⟨l, rfl, ⟨rfl, rfl, -⟩ | ⟨hhigher, -⟩⟩ := h
  · refine ⟨l, rfl, Or.inr ⟨rfl, ?_⟩⟩
    by_contra hlive
    exact hv ⟨l, rfl, rfl, rfl, not_le.mp hlive⟩
  · exact ⟨l, rfl, Or.inl hhigher⟩

theorem Over.not_valid (h : Over c token now) : ¬Valid c i token now := by
  rintro ⟨l, rfl, -, rfl, hlive⟩
  obtain ⟨l', hl', hhigher | ⟨-, hended⟩⟩ := h
  · cases hl'
    exact absurd hhigher (lt_irrefl _)
  · cases hl'
    exact absurd hlive (not_lt.mpr hended)

theorem Over.mono (h : Over c token now) (hle : now ≤ now') : Over c token now' := by
  obtain ⟨l, rfl, hhigher | ⟨hsame, hended⟩⟩ := h
  · exact ⟨l, rfl, Or.inl hhigher⟩
  · exact ⟨l, rfl, Or.inr ⟨hsame, hended.trans hle⟩⟩

/-- **What is over stays over.** -/
theorem Over.step (h : Over c token now) (hs : Step now c c') : Over c' token now := by
  obtain ⟨l, hl, hover⟩ := h
  cases hs with
  | keep => exact ⟨l, hl, hover⟩
  | first l' => cases hl
  | extend l₁ l' live lasts holder htoken =>
    cases hl
    rcases hover with hhigher | ⟨-, hended⟩
    · exact ⟨l', rfl, Or.inl (by omega)⟩
    · exact absurd live (not_lt.mpr hended)
  | takeOver l₁ l' ended fresh =>
    cases hl
    exact ⟨l', rfl, Or.inl (by omega)⟩

end FencedLease

end Effect
