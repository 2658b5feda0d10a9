/-
# The chain file of a deployment

`scripts/deployment_audit_chain.py`, as the scripts use it that append to it: what matters to
them is which events are in the file, and where an append can stop.  A line stands for the event
it holds; that its digest and its link are those of the event is the writer's business, and a
line for which they are not is one that `verify` has a problem with.

`append_event` opens the file for appending and writes one line, which a crash can cut anywhere.
-/
import Kripto.Effect.Files

namespace Kripto.Deploy

open Effect Effect.Files

/-- The chain file.  `none` is a line `verify` has a problem with.  `last` is what stands behind
the last newline, if anything does. -/
structure ChainFile (E : Type) where
  lines : List (Option E)
  last : Option (Option E)

namespace ChainFile

variable {E : Type}

def empty : ChainFile E := ⟨[], none⟩

/-- `read_text().splitlines()`: the last line may lack its newline. -/
def allLines (a : ChainFile E) : List (Option E) := a.lines ++ a.last.toList

/-- `verify(root)['verified']`. -/
def verified (a : ChainFile E) : Bool := a.allLines.all Option.isSome

/-- The events in the file. -/
def events (a : ChainFile E) : List E := a.allLines.filterMap id

/-- The line written behind what the file ends with. -/
def joined (a : ChainFile E) (e : E) : Option E := if a.last.isNone then some e else none

/-- Some of the line has been written. -/
def torn (a : ChainFile E) : ChainFile E := ⟨a.lines, some none⟩

/-- The line has been written up to its newline. -/
def unended (a : ChainFile E) (e : E) : ChainFile E := ⟨a.lines, some (a.joined e)⟩

def ended (a : ChainFile E) (e : E) : ChainFile E := ⟨a.lines ++ [a.joined e], none⟩

/-- Where an append can stop. -/
inductive Stage (a : ChainFile E) (e : E) : ChainFile E → Prop
  | opened : Stage a e a
  | torn : Stage a e a.torn
  | unended : Stage a e (a.unended e)
  | ended : Stage a e (a.ended e)

theorem events_torn (a : ChainFile E) : a.torn.events = a.lines.filterMap id := by
  simp [events, allLines, ChainFile.torn]

theorem events_of_last {a : ChainFile E} (h : a.last = none) :
    a.events = a.lines.filterMap id := by
  simp [events, allLines, h]

theorem events_unended {a : ChainFile E} (h : a.last = none) (e : E) :
    (a.unended e).events = a.events ++ [e] := by
  simp [events, allLines, ChainFile.unended, joined, h]

theorem events_ended {a : ChainFile E} (h : a.last = none) (e : E) :
    (a.ended e).events = a.events ++ [e] := by
  simp [events, allLines, ChainFile.ended, joined, h]

theorem verified_ended {a : ChainFile E} (h : a.verified = true) (hlast : a.last = none) (e : E) :
    (a.ended e).verified = true := by
  simpa [verified, allLines, ChainFile.ended, joined, hlast] using h

/-- Behind a line that has no newline nothing can be added. -/
theorem not_verified_ended {a : ChainFile E} (h : a.last ≠ none) (e : E) :
    (a.ended e).verified = false := by
  have hjoined : a.joined e = none := if_neg fun hnone => h (Option.isNone_iff_eq_none.mp hnone)
  simp [verified, allLines, ChainFile.ended, hjoined]

end ChainFile

/-- Where the chain file of a script is. -/
structure ChainPlace (F : Files) (E : Type) where
  place : F.Place
  wrap : ChainFile E → F.Node
  unwrap : F.Node → Option (ChainFile E)
  unwrap_wrap : ∀ a, unwrap (wrap a) = some a
  error : String → F.Exc

namespace ChainPlace

variable {F : Files} {E : Type} (c : ChainPlace F E)

/-- A file that is not there is an empty one; what is there has to be a chain file. -/
def ofNode : Option F.Node → Option (ChainFile E)
  | none => some .empty
  | some n => c.unwrap n

def chain (s : Store F) : Option (ChainFile E) := c.ofNode (s c.place)

def read : Prog (sig F) (ChainFile E) := do
  let found : Option F.Node ← perform (.look c.place)
  match c.ofNode found with
  | some a => pure a
  | none => .raise (c.error "DEPLOYMENT_AUDIT_PATH_UNSAFE")

def write (a : ChainFile E) : Prog (sig F) Unit := perform (.put c.place (c.wrap a))

variable [DecidableEq E]

/-- `append_event`. -/
def appendEvent (e : E) : Prog (sig F) Unit := do
  let current ← c.read
  if current.verified then do
    c.write current
    c.write current.torn
    c.write (current.unended e)
    c.write (current.ended e)
    let after ← c.read
    if after.verified ∧ after.events.getLast? = some e then pure ()
    else .raise (c.error "DEPLOYMENT_AUDIT_APPEND_VERIFY_FAILED")
  else .raise (c.error "DEPLOYMENT_AUDIT_CHAIN_TAMPERED")

end ChainPlace

/-! ## Running an append -/

namespace ChainPlace

section Append

variable {F : Files} {E γ : Type} (c : ChainPlace F E) [DecidableEq F.Place] {O : Observer F γ}
  {mayFail : Bool} {inv : Store F × γ → Prop} {s : Store F} {g : γ}

omit [DecidableEq F.Place] in
theorem within_read {A : Op F → Prop} (hlook : A (.look c.place)) : c.read.Within A := by
  refine Prog.Within.bind (Prog.within_perform.mpr hlook) fun found => ?_
  split
  · exact Prog.within_pure _
  · exact Prog.within_raise _

omit [DecidableEq F.Place] in
theorem within_appendEvent [DecidableEq E] {A : Op F → Prop} (hlook : A (.look c.place))
    (hput : ∀ n, A (.put c.place n)) (e : E) : (c.appendEvent e).Within A := by
  refine Prog.Within.bind (c.within_read hlook) fun a => ?_
  split
  · refine Prog.Within.bind (Prog.within_perform.mpr (hput _)) fun _ =>
      Prog.Within.bind (Prog.within_perform.mpr (hput _)) fun _ =>
      Prog.Within.bind (Prog.within_perform.mpr (hput _)) fun _ =>
      Prog.Within.bind (Prog.within_perform.mpr (hput _)) fun _ =>
      Prog.Within.bind (c.within_read hlook) fun b => ?_
    split
    · exact Prog.within_pure _
    · exact Prog.within_raise _
  · exact Prog.within_raise _

@[simp] theorem chain_set (a : ChainFile E) :
    c.chain (s.set c.place (some (c.wrap a))) = some a := by
  simp [chain, ofNode, c.unwrap_wrap]

/-- The chain is in order, and a line can be added to it. -/
def Ready (s : Store F) : Prop := ∃ a, c.chain s = some a ∧ a.verified = true ∧ a.last = none

theorem wp_read (hlook : O.Ignores (.look c.place))
    {Q : Except F.Exc (ChainFile E) → Store F × γ → Prop} (hs : inv (s, g))
    (hok : ∀ a, c.chain s = some a → Q (.ok a) (s, g))
    (hbad : mayFail = true ∨ c.chain s = none → ∀ e, Q (.error e) (s, g)) :
    wp (handler O mayFail) (.keeping inv) () c.read Q (s, g) := by
  refine wp_bind.mpr (wp_look hlook hs ?_ fun hmay e => hbad (.inl hmay) e)
  rw [onOk_ok]
  cases hchain : c.ofNode (s c.place) with
  | none => exact hbad (.inr hchain) _
  | some a => exact hok a hchain

variable [DecidableEq E]

/-- **An append** adds its event behind a chain that is in order, or it stops somewhere before
the end.  It does so for a reason: something fails, or nothing can be added to the chain. -/
theorem wp_appendEvent (hlook : O.Ignores (.look c.place))
    (hput : ∀ n, O.Ignores (.put c.place n)) (e : E)
    {Q : Except F.Exc Unit → Store F × γ → Prop} (hs : inv (s, g))
    (hinv : ∀ a a', c.chain s = some a → a.Stage e a' →
      inv (s.set c.place (some (c.wrap a')), g))
    (hok : ∀ a, c.chain s = some a → a.last = none →
      Q (.ok ()) (s.set c.place (some (c.wrap (a.ended e))), g))
    (hbad : ∀ exc, mayFail = true ∨ ¬c.Ready s → Q (.error exc) (s, g))
    (hstop : ∀ exc a a', mayFail = true ∨ ¬c.Ready s → c.chain s = some a → a.Stage e a' →
      Q (.error exc) (s.set c.place (some (c.wrap a')), g)) :
    wp (handler O mayFail) (.keeping inv) () (c.appendEvent e) Q (s, g) := by
  refine wp_bind.mpr (c.wp_read hlook hs (fun a ha => ?_) fun hwhy exc => hbad exc ?_)
  case refine_2 =>
    refine hwhy.imp_right ?_
    rintro hnone ⟨a, ha, -⟩
    exact nomatch hnone.symm.trans ha
  rw [onOk_ok]
  by_cases hverified : a.verified = true
  case neg =>
    rw [if_neg hverified]
    refine hbad _ (.inr ?_)
    rintro ⟨b, hb, hb', -⟩
    obtain rfl : a = b := Option.some.inj (ha.symm.trans hb)
    exact hverified hb'
  rw [if_pos hverified]
  -- each piece of the line replaces the file by a longer one
  have hwrite : ∀ {a' : ChainFile E} {s' : Store F} {Q' : Except F.Exc Unit → Store F × γ → Prop},
      a.Stage e a' → (s' = s ∨ ∃ b, a.Stage e b ∧ s' = s.set c.place (some (c.wrap b))) →
      Q' (.ok ()) (s.set c.place (some (c.wrap a')), g) →
      (∀ exc, mayFail = true → Q' (.error exc) (s', g)) →
      wp (handler O mayFail) (.keeping inv) () (c.write a') Q' (s', g) := by
    intro a' s' Q' ha' hs' hQ' hbad'
    have hinv' : inv (s', g) := by
      rcases hs' with rfl | ⟨b, hb, rfl⟩
      · exact hs
      · exact hinv a b ha hb
    refine wp_ignored (hput _) hinv' ?_ fun hmay exc => hbad' exc hmay
    rintro r s'' ⟨rfl, rfl⟩
    have hset : s'.set c.place (some (c.wrap a')) = s.set c.place (some (c.wrap a')) := by
      rcases hs' with rfl | ⟨b, -, rfl⟩
      · rfl
      · exact Store.set_set ..
    rw [hset]
    exact ⟨hinv a a' ha ha', hQ'⟩
  have hfail : ∀ {b : ChainFile E}, a.Stage e b → ∀ exc, mayFail = true →
      Q (.error exc) (s.set c.place (some (c.wrap b)), g) :=
    fun hb exc hmay => hstop exc a _ (.inl hmay) ha hb
  refine wp_bind.mpr (hwrite .opened (.inl rfl) ?_ fun exc hmay => hbad exc (.inl hmay))
  refine wp_bind.mpr (hwrite .torn (.inr ⟨_, .opened, rfl⟩) ?_ (hfail .opened))
  refine wp_bind.mpr (hwrite .unended (.inr ⟨_, .torn, rfl⟩) ?_ (hfail .torn))
  refine wp_bind.mpr (hwrite .ended (.inr ⟨_, .unended, rfl⟩) ?_ (hfail .unended))
  refine wp_bind.mpr (c.wp_read hlook (hinv a _ ha .ended) (fun b hb => ?_) fun hwhy exc => ?_)
  case refine_2 =>
    rcases hwhy with hmay | hnone
    · exact hfail .ended exc hmay
    · exact nomatch hnone.symm.trans (c.chain_set _)
  obtain rfl : a.ended e = b := Option.some.inj ((c.chain_set _).symm.trans hb)
  rw [onOk_ok]
  by_cases hlast : a.last = none
  · have hadded : (a.ended e).events.getLast? = some e := by
      rw [ChainFile.events_ended hlast, List.getLast?_concat]
    rw [if_pos ⟨ChainFile.verified_ended hverified hlast e, hadded⟩]
    exact hok a ha hlast
  · have hbroken : ¬(a.ended e).verified = true := by
      rw [ChainFile.not_verified_ended hlast e]
      exact nofun
    rw [if_neg fun hafter => hbroken hafter.1]
    refine hstop _ a _ (.inr ?_) ha .ended
    rintro ⟨b, hb', -, hb''⟩
    obtain rfl : a = b := Option.some.inj (ha.symm.trans hb')
    exact hlast hb''

end Append

end ChainPlace

end Kripto.Deploy
