/-
# Loops in the order of time

A loop goes through items in the order of time, and its turns append outputs of their own time.
What is put out up to a time `t` is then known as soon as the items up to `t` have been gone
through, whatever comes later.

* `out_cutAt`: the outputs up to `t` of a loop that returned are those of the loop cut at `t`.
-/
import Kripto.Effect.Outcome
import Mathlib.Data.List.Basic
import Mathlib.Data.List.TakeWhile
import Mathlib.Order.Lattice

namespace Effect

variable {T ε σ α β O : Type}

/-! ## 1. Loops -/

theorem foldlM_congr {f g : σ → α → Except ε σ} {s : σ} {xs : List α}
    (h : ∀ s, ∀ x ∈ xs, f s x = g s x) : xs.foldlM f s = xs.foldlM g s := by
  induction xs generalizing s with
  | nil => rfl
  | cons x xs ih =>
    rw [List.foldlM_cons, List.foldlM_cons, h s x List.mem_cons_self]
    refine bind_congr fun t => ?_
    exact ih fun s y hy => h s y (List.mem_cons_of_mem x hy)

/-- A loop in a loop is one loop. -/
theorem foldlM_flatMap {f : σ → β → Except ε σ} {g : α → List β} {s : σ} {xs : List α} :
    (xs.flatMap g).foldlM f s = xs.foldlM (fun s x => (g x).foldlM f s) s := by
  induction xs generalizing s with
  | nil => rfl
  | cons x xs ih =>
    rw [List.flatMap_cons, List.foldlM_append, List.foldlM_cons]
    exact bind_congr fun t => ih

/-! ## 2. Items and their times -/

variable [LinearOrder T]

section Items

variable {key : α → T} {t : T} {xs : List α}

/-- The items come in the order of their times. -/
def InOrder (key : α → T) (xs : List α) : Prop := xs.Pairwise fun x y => key x ≤ key y

/-- The loop cut at `t`. -/
def cutAt (key : α → T) (t : T) (xs : List α) : List α := xs.takeWhile fun x => key x ≤ t

theorem key_le_of_mem_cutAt {x : α} (h : x ∈ cutAt key t xs) : key x ≤ t := by
  simpa using List.mem_takeWhile_imp h

theorem lt_of_mem_rest (h : InOrder key xs) {x : α}
    (hx : x ∈ xs.dropWhile fun x => key x ≤ t) : t < key x := by
  induction xs with
  | nil => cases hx
  | cons y ys ih =>
    obtain ⟨hy, hys⟩ := List.pairwise_cons.mp h
    by_cases hle : key y ≤ t
    · rw [List.dropWhile_cons_of_pos (by simpa using hle)] at hx
      exact ih hys hx
    · rw [List.dropWhile_cons_of_neg (by simpa using hle)] at hx
      rcases List.mem_cons.mp hx with rfl | hrest
      · exact not_le.mp hle
      · exact (not_le.mp hle).trans_le (hy x hrest)

/-- The cut is at `t`: before it the items up to `t`, after it those later than `t`. -/
theorem exists_cutAt_append (h : InOrder key xs) (t : T) :
    ∃ rest, xs = cutAt key t xs ++ rest ∧ ∀ x ∈ rest, t < key x :=
  ⟨xs.dropWhile fun x => key x ≤ t, List.takeWhile_append_dropWhile.symm,
    fun _ => lt_of_mem_rest h⟩

theorem cutAt_append {pre rest : List α} (hpre : ∀ x ∈ pre, key x ≤ t)
    (hrest : ∀ x ∈ rest, t < key x) : cutAt key t (pre ++ rest) = pre := by
  rw [cutAt, List.takeWhile_append_of_pos (by simpa using hpre)]
  cases rest with
  | nil => simp
  | cons x rest =>
    have hx : ¬ key x ≤ t := not_le.mpr (hrest x List.mem_cons_self)
    rw [List.takeWhile_cons_of_neg (by simpa using hx), List.append_nil]

theorem cutAt_eq_filter (h : InOrder key xs) :
    cutAt key t xs = xs.filter fun x => key x ≤ t := by
  obtain ⟨rest, heq, hrest⟩ := exists_cutAt_append h t
  have hcutAt : (cutAt key t xs).filter (fun x => key x ≤ t) = cutAt key t xs :=
    List.filter_eq_self.mpr fun x hx => by simpa using key_le_of_mem_cutAt hx
  have hnone : rest.filter (fun x => key x ≤ t) = [] :=
    List.filter_eq_nil_iff.mpr fun x hx => by simpa using hrest x hx
  conv_rhs => rw [heq, List.filter_append, hcutAt, hnone, List.append_nil]

end Items

/-! ## 3. Outputs -/

section Outputs

variable {key : α → T} {time : O → T} {out : σ → List O} {f : σ → α → Except ε σ} {t : T}
  {s s' : σ} {xs : List α}

/-- A turn with an item of `xs` appends outputs of its time. -/
def Appends (out : σ → List O) (time : O → T) (key : α → T) (f : σ → α → Except ε σ)
    (xs : List α) : Prop :=
  ∀ s, ∀ x ∈ xs, ∀ s', f s x = .ok s' → ∃ new, out s' = out s ++ new ∧ ∀ o ∈ new, time o = key x

omit [LinearOrder T] in
theorem Appends.foldlM (happ : Appends out time key f xs) (h : xs.foldlM f s = .ok s') :
    ∃ new, out s' = out s ++ new ∧ ∀ o ∈ new, ∃ x ∈ xs, time o = key x := by
  induction xs generalizing s with
  | nil =>
    cases h
    exact ⟨[], by simp, fun o ho => by cases ho⟩
  | cons x xs ih =>
    rw [List.foldlM_cons, bind_eq_ok_iff] at h
    obtain ⟨mid, hmid, hrest⟩ := h
    obtain ⟨new, hnew, htime⟩ := happ s x List.mem_cons_self mid hmid
    obtain ⟨more, hmore, htimes⟩ := ih (fun s y hy => happ s y (List.mem_cons_of_mem x hy)) hrest
    refine ⟨new ++ more, by rw [hmore, hnew, List.append_assoc], fun o ho => ?_⟩
    rcases List.mem_append.mp ho with hfirst | hlater
    · exact ⟨x, List.mem_cons_self, htime o hfirst⟩
    · obtain ⟨y, hy, hkey⟩ := htimes o hlater
      exact ⟨y, List.mem_cons_of_mem x hy, hkey⟩

/-- **What is put out up to `t`** is what the loop cut at `t` has put out. -/
theorem out_cutAt (happ : Appends out time key f xs) (hxs : InOrder key xs)
    (h : xs.foldlM f s = .ok s') :
    ∃ mid, (cutAt key t xs).foldlM f s = .ok mid ∧
      (out s').filter (fun o => time o ≤ t) = (out mid).filter fun o => time o ≤ t := by
  obtain ⟨rest, heq, hrest⟩ := exists_cutAt_append hxs t
  rw [heq, List.foldlM_append, bind_eq_ok_iff] at h
  obtain ⟨mid, hmid, hlater⟩ := h
  have hlast : Appends out time key f rest := fun s x hx =>
    happ s x (heq ▸ List.mem_append_right _ hx)
  obtain ⟨new, hnew, htimes⟩ := hlast.foldlM hlater
  refine ⟨mid, hmid, ?_⟩
  have hnone : new.filter (fun o => time o ≤ t) = [] := by
    refine List.filter_eq_nil_iff.mpr fun o ho => ?_
    obtain ⟨x, hx, htime⟩ := htimes o ho
    simpa [htime] using hrest x hx
  rw [hnew, List.filter_append, hnone, List.append_nil]

/-- Two loops that are the same up to `t` put out the same up to `t`. -/
theorem out_cutAt_eq {key' : β → T} {f' : σ → β → Except ε σ} {u' : σ} {ys : List β}
    (happ : Appends out time key f xs) (happ' : Appends out time key' f' ys) (hxs : InOrder key xs)
    (hys : InOrder key' ys) (hsame : (cutAt key t xs).foldlM f s = (cutAt key' t ys).foldlM f' s)
    (h : xs.foldlM f s = .ok s') (h' : ys.foldlM f' s = .ok u') :
    (out s').filter (fun o => time o ≤ t) = (out u').filter fun o => time o ≤ t := by
  obtain ⟨mid, hmid, hout⟩ := out_cutAt (t := t) happ hxs h
  obtain ⟨mid', hmid', hout'⟩ := out_cutAt (t := t) happ' hys h'
  rw [hmid, hmid'] at hsame
  rw [hout, hout', Except.ok.inj hsame]

end Outputs

end Effect
