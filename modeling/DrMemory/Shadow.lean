import Mathlib.Tactic

/-!
# Shadow memory and options

The narrow surface of the shadow-memory module that the event handlers of
`alloc_drmem.c` write through. `shadow.c` is not among the sources, so the
tag store follows the specification: one tag per application byte,
`shadow_set_range` overwrites a half-open range, and `shadow_copy_range`
moves tags with `memmove` semantics (every destination tag is read from the
shadow as it was before the call, also when source and destination overlap).

Addresses are `Nat`: the theorems about these handlers assume that no range
wraps around the top of the address space.

The module also holds the part of the `options` record that the modelled
routines read, and the model of `ASSERT`: a debug build stops at a failed
assertion and a release build compiles it out, so the model runs on and
appends the message to a log. "No assertion fires" is then a statement that
the log did not grow.
-/

namespace DrMemory

/-- The per-byte shadow tags. -/
inductive ShadowVal where
  | defined
  | unaddressable
  | undefined
  | unknown
deriving Repr, DecidableEq

/-- The shadow of the whole address space. -/
abbrev Shadow := Nat → ShadowVal

/-- Modelled from the spec: `shadow_set_range(start, end, val)` tags every byte
of `[start, end)` with `val`; an empty or reversed range changes nothing. -/
def shadowSetRange (sh : Shadow) (start stop : Nat) (val : ShadowVal) : Shadow :=
  fun a => if start ≤ a ∧ a < stop then val else sh a

/-- Modelled from the spec: `shadow_copy_range(old_start, new_start, size)`
moves the tags of `[old_start, old_start + size)` onto
`[new_start, new_start + size)`, reading the old shadow throughout. -/
def shadowCopyRange (sh : Shadow) (oldStart newStart size : Nat) : Shadow :=
  fun a => if newStart ≤ a ∧ a < newStart + size then sh (oldStart + (a - newStart)) else sh a

theorem shadowSetRange_apply (sh : Shadow) (start stop a : Nat) (val : ShadowVal) :
    shadowSetRange sh start stop val a = if start ≤ a ∧ a < stop then val else sh a := rfl

theorem shadowCopyRange_apply (sh : Shadow) (oldStart newStart size a : Nat) :
    shadowCopyRange sh oldStart newStart size a =
      if newStart ≤ a ∧ a < newStart + size then sh (oldStart + (a - newStart)) else sh a := rfl

@[simp] theorem shadowSetRange_in {sh : Shadow} {start stop a : Nat} (val : ShadowVal)
    (h1 : start ≤ a) (h2 : a < stop) : shadowSetRange sh start stop val a = val := by
  simp [shadowSetRange_apply, h1, h2]

theorem shadowSetRange_out {sh : Shadow} {start stop a : Nat} (val : ShadowVal)
    (h : a < start ∨ stop ≤ a) : shadowSetRange sh start stop val a = sh a := by
  rw [shadowSetRange_apply, if_neg (by omega)]

/-- An empty or reversed range changes nothing. -/
theorem shadowSetRange_empty {sh : Shadow} {start stop : Nat} (val : ShadowVal)
    (h : stop ≤ start) : shadowSetRange sh start stop val = sh :=
  funext fun _ => shadowSetRange_out val (by omega)

/-- Tagging one byte below a range extends the range down by that byte. -/
theorem shadowSetRange_update {sh : Shadow} {sp stop : Nat} (val : ShadowVal)
    (h : sp < stop ∨ sp + 1 = stop) :
    shadowSetRange (Function.update sh sp val) (sp + 1) stop val = shadowSetRange sh sp stop val := by
  funext a
  by_cases ha : a = sp
  · subst ha
    rw [shadowSetRange_out val (by omega), Function.update_same,
      shadowSetRange_in val le_rfl (by omega)]
  · rw [shadowSetRange_apply, shadowSetRange_apply, Function.update_noteq ha]
    split_ifs <;> first | rfl | omega

/-- A one-byte range is a single update. -/
theorem shadowSetRange_succ {sh : Shadow} {sp : Nat} (val : ShadowVal) :
    shadowSetRange sh sp (sp + 1) val = Function.update sh sp val := by
  rw [← shadowSetRange_update val (.inr rfl), shadowSetRange_empty _ le_rfl]

theorem shadowCopyRange_in {sh : Shadow} {oldStart newStart size : Nat} (i : Nat)
    (h : i < size) :
    shadowCopyRange sh oldStart newStart size (newStart + i) = sh (oldStart + i) := by
  simp [shadowCopyRange_apply, h]

theorem shadowCopyRange_out {sh : Shadow} {oldStart newStart size a : Nat}
    (h : a < newStart ∨ newStart + size ≤ a) : shadowCopyRange sh oldStart newStart size a = sh a := by
  rw [shadowCopyRange_apply, if_neg (by omega)]

/-- The fields of the `options` record that the modelled routines read. -/
structure Options where
  leaksOnly : Bool
  shadowing : Bool
  delayFrees : Nat
  redzoneSize : Nat
  stackSwapThreshold : Nat
deriving Repr, DecidableEq

/-- `ASSERT(cond, msg)` on the assertion log. -/
def assert (log : List String) (cond : Prop) [Decidable cond] (msg : String) : List String :=
  if cond then log else log ++ [msg]

@[simp] theorem assert_of_true {log : List String} {cond : Prop} [Decidable cond] (msg : String)
    (h : cond) : assert log cond msg = log := if_pos h

theorem assert_of_false {log : List String} {cond : Prop} [Decidable cond] (msg : String)
    (h : ¬ cond) : assert log cond msg = log ++ [msg] := if_neg h

/-- A checked assertion appends its message exactly when it fails. -/
theorem assert_eq_append (log : List String) (cond : Prop) [Decidable cond] (msg : String) :
    assert log cond msg = log ++ if cond then [] else [msg] := by
  unfold assert
  split_ifs <;> simp

/-- An assertion with another message leaves the count of `msg'` in the log. -/
theorem count_assert_of_ne {log : List String} {cond : Prop} [Decidable cond] {msg msg' : String}
    (h : msg ≠ msg') : (assert log cond msg).count msg' = log.count msg' := by
  unfold assert
  split_ifs <;> simp [List.count_append, List.count_cons, h]

end DrMemory
