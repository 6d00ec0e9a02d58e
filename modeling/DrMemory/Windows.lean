import DrMemory.Mmap

/-!
# The Windows stack handlers

The Windows half of `alloc_drmem.c`'s stack and mapping code. When the
kernel enters user mode through a `Ki` routine it has placed data on the
stack. `client_handle_Ki` walks up from the interrupted stack pointer and
tags the bytes it passes defined: up to the stack base when that lies less
than `TYPICAL_STACK_MIN_SIZE` above, else for as long as the bytes are
unaddressable, giving up with an assertion after `TYPICAL_STACK_MIN_SIZE`
bytes. Where it stops becomes `pre_callback_esp`. A callback runs on a
per-thread record of its own (`client_handle_callback`), and its return
(`client_handle_cbret`) tags the parent's stack from the stack pointer up to
the parent's `pre_callback_esp` unaddressable. `client_pre_syscall` follows
the stack pointer that `NtContinue` installs, and the mapping handlers tag
mapped and unmapped ranges directly, with no tree.

`TYPICAL_STACK_MIN_SIZE` is defined outside the sources and is a parameter
(`minSize`). The register shadow is outside the model too: a record keeps
the `shadow_regs` pointer it shares with its parent, and the eight
register-shadow writes of `NtContinue` are left out.

The walk has a closed form (`clientHandleKi_spec`): it stops at the stack
base, or at the end of the run of unaddressable bytes at the stack pointer
cut at `TYPICAL_STACK_MIN_SIZE`, and it asserts exactly when that cut is
reached, even by a run that ends there. Each callback depth has a record of
its own, so a callback's return finds the `pre_callback_esp` of the `Ki`
routine before its callback however deeply other callbacks nested in
between (`clientHandleCbret_after_nested`).
-/

namespace DrMemory

/-- The Windows fields of `client_per_thread_t` that the callback code reads
and writes: the stack pointer above the kernel-placed data of the last `Ki`
routine, and the pointer to the thread's register shadow. -/
structure WinPerThread where
  preCallbackEsp : Nat
  shadowRegs : Nat
deriving Repr, DecidableEq

/-! ## Kernel-placed data -/

/-- The `while` loop of `client_handle_Ki` at `sp`, with `left` more
iterations after this one before `sp - mc->esp` reaches
`TYPICAL_STACK_MIN_SIZE`. With `stop_esp` set it runs up to `stop_esp`, else
while the byte at `sp` is unaddressable; each byte it passes is tagged
defined. -/
def kiWalk (stopEsp : Nat) (s : State) (sp left : Nat) : State × Nat :=
  if (stopEsp ≠ 0 ∧ sp < stopEsp) ∨ (stopEsp = 0 ∧ s.shadow sp = .unaddressable) then
    let s := { s with shadow := Function.update s.shadow sp .defined }
    match left with
    | 0 => ({ s with asserts := s.asserts ++ ["kernel-placed data on stack too large: error?"] },
        sp + 1)
    | left + 1 => kiWalk stopEsp s (sp + 1) left
  else (s, sp)

/-- `client_handle_Ki` at the stack pointer `esp` of the interrupted context,
on a thread whose stack base (`teb->StackBase`) is `stackBase`, with
`TYPICAL_STACK_MIN_SIZE` equal to `minSize`. -/
def clientHandleKi (o : Options) (minSize : Nat) (s : State) (cpt : WinPerThread)
    (esp stackBase : Nat) : State × WinPerThread :=
  if o.leaksOnly || !o.shadowing then (s, cpt)
  else
    let stopEsp := if esp < stackBase ∧ stackBase - esp < minSize then stackBase else 0
    let s := { s with asserts := assert s.asserts (esp % 4 = 0) "stack not aligned" }
    let r := kiWalk stopEsp s esp (minSize - 1)
    ({ r.1 with asserts := assert r.1.asserts (r.2 % 4 = 0) "stack not aligned" },
      { cpt with preCallbackEsp := r.2 })

/-- The length of the run of unaddressable bytes at `a`, counting at most
`n` of them. -/
def unaddrRun (sh : Shadow) (a : Nat) : Nat → Nat
  | 0 => 0
  | n + 1 => if sh a = .unaddressable then unaddrRun sh (a + 1) n + 1 else 0

/-- Where the walk of `client_handle_Ki` stops: the stack base when it lies
less than `minSize` bytes above `esp`, else the end of the run of
unaddressable bytes at `esp`, cut at `minSize` bytes. -/
def kiStop (minSize : Nat) (sh : Shadow) (esp stackBase : Nat) : Nat :=
  if esp < stackBase ∧ stackBase - esp < minSize then stackBase else esp + unaddrRun sh esp minSize

section Run

variable {sh sh' : Shadow} {a n : Nat}

theorem unaddrRun_succ_of_unaddr (h : sh a = .unaddressable) :
    unaddrRun sh a (n + 1) = unaddrRun sh (a + 1) n + 1 := if_pos h

theorem unaddrRun_succ_of_ne (h : sh a ≠ .unaddressable) : unaddrRun sh a (n + 1) = 0 := if_neg h

theorem unaddrRun_le : unaddrRun sh a n ≤ n := by
  induction n generalizing a with
  | zero => exact le_rfl
  | succ n ih => have := @ih (a + 1); unfold unaddrRun; split_ifs <;> omega

/-- The run reads only the `n` bytes it may count. -/
theorem unaddrRun_congr (h : ∀ i < n, sh (a + i) = sh' (a + i)) :
    unaddrRun sh a n = unaddrRun sh' a n := by
  induction n generalizing a with
  | zero => rfl
  | succ n ih =>
    have h0 : sh a = sh' a := h 0 (by omega)
    have hs : ∀ i < n, sh (a + 1 + i) = sh' (a + 1 + i) := fun i hi => by
      rw [Nat.add_assoc, Nat.add_comm 1 i]; exact h (i + 1) (by omega)
    simp only [unaddrRun, h0, ih hs]

/-- Every byte the run counts is unaddressable, and a run shorter than the
cut ends at a byte that is not. -/
theorem unaddrRun_spec :
    (∀ i < unaddrRun sh a n, sh (a + i) = .unaddressable) ∧
      (unaddrRun sh a n < n → sh (a + unaddrRun sh a n) ≠ .unaddressable) := by
  induction n generalizing a with
  | zero => exact ⟨fun _ h => absurd h (Nat.not_lt_zero _), fun h => absurd h (Nat.not_lt_zero _)⟩
  | succ n ih =>
    unfold unaddrRun
    by_cases h : sh a = .unaddressable
    · obtain ⟨hin, hend⟩ := @ih (a + 1)
      rw [if_pos h]
      refine ⟨fun i hi => ?_, fun hlt => ?_⟩
      · cases i with
        | zero => exact h
        | succ i => rw [← Nat.add_comm 1 i, ← Nat.add_assoc]; exact hin i (by omega)
      · rw [Nat.add_comm _ 1, ← Nat.add_assoc]; exact hend (by omega)
    · rw [if_neg h]
      exact ⟨fun _ hi => absurd hi (Nat.not_lt_zero _), fun _ => h⟩

end Run

section Walk

variable {stopEsp : Nat} {s : State} {sp left : Nat}

/-- On the main stack the walk tags up to `stop_esp` and stops there, before
the limit. -/
theorem kiWalk_of_stop (hstop : stopEsp ≠ 0) (hsp : sp ≤ stopEsp) (hleft : stopEsp - sp ≤ left) :
    kiWalk stopEsp s sp left =
      ({ s with shadow := shadowSetRange s.shadow sp stopEsp .defined }, stopEsp) := by
  induction left generalizing s sp with
  | zero =>
    rw [kiWalk, if_neg (by omega), Nat.le_antisymm hsp (by omega), shadowSetRange_empty _ le_rfl]
  | succ left ih =>
    by_cases hlt : sp < stopEsp
    · rw [kiWalk, if_pos (.inl ⟨hstop, hlt⟩)]
      dsimp only
      rw [ih (by omega) (by omega), shadowSetRange_update _ (.inl hlt)]
    · rw [kiWalk, if_neg (by omega), Nat.le_antisymm hsp (by omega),
        shadowSetRange_empty _ le_rfl]

/-- Off the main stack the walk tags the run of unaddressable bytes at `sp`,
cut after `left + 1` bytes, and asserts when it reaches the cut. -/
theorem kiWalk_of_run :
    kiWalk 0 s sp left =
      ({ s with
          shadow := shadowSetRange s.shadow sp (sp + unaddrRun s.shadow sp (left + 1)) .defined
          asserts := s.asserts ++ if unaddrRun s.shadow sp (left + 1) = left + 1 then
            ["kernel-placed data on stack too large: error?"] else [] },
        sp + unaddrRun s.shadow sp (left + 1)) := by
  induction left generalizing s sp with
  | zero =>
    by_cases h : s.shadow sp = .unaddressable
    · rw [unaddrRun_succ_of_unaddr h, kiWalk, if_pos (.inr ⟨rfl, h⟩)]
      simp only [unaddrRun, if_true, shadowSetRange_succ]
    · rw [unaddrRun_succ_of_ne h, kiWalk, if_neg (by simp [h])]
      simp only [Nat.add_zero, shadowSetRange_empty _ le_rfl, if_neg (Nat.succ_ne_zero _).symm,
        List.append_nil]
  | succ left ih =>
    by_cases h : s.shadow sp = .unaddressable
    · rw [unaddrRun_succ_of_unaddr h, kiWalk, if_pos (.inr ⟨rfl, h⟩)]
      dsimp only
      have hk : unaddrRun (Function.update s.shadow sp .defined) (sp + 1) (left + 1) =
          unaddrRun s.shadow (sp + 1) (left + 1) :=
        unaddrRun_congr fun i _ => Function.update_noteq (by omega) _ _
      rw [ih]
      dsimp only
      rw [hk, show sp + 1 + unaddrRun s.shadow (sp + 1) (left + 1) =
        sp + (unaddrRun s.shadow (sp + 1) (left + 1) + 1) by omega,
        shadowSetRange_update _ (.inl (by omega))]
      simp only [Nat.add_right_cancel_iff]
    · rw [unaddrRun_succ_of_ne h, kiWalk, if_neg (by simp [h])]
      simp only [Nat.add_zero, shadowSetRange_empty _ le_rfl, if_neg (Nat.succ_ne_zero _).symm,
        List.append_nil]

end Walk

/-- The walk as `client_handle_Ki` starts it, in closed form. -/
theorem kiWalk_eq {minSize : Nat} (hmin : 0 < minSize) (s : State) (esp stackBase : Nat) :
    kiWalk (if esp < stackBase ∧ stackBase - esp < minSize then stackBase else 0) s esp
        (minSize - 1) =
      ({ s with
          shadow := shadowSetRange s.shadow esp (kiStop minSize s.shadow esp stackBase) .defined
          asserts := s.asserts ++ if kiStop minSize s.shadow esp stackBase = esp + minSize then
            ["kernel-placed data on stack too large: error?"] else [] },
        kiStop minSize s.shadow esp stackBase) := by
  unfold kiStop
  by_cases hm : esp < stackBase ∧ stackBase - esp < minSize
  · simp only [if_pos hm]
    rw [kiWalk_of_stop (by omega) (by omega) (by omega), if_neg (by omega), List.append_nil]
  · simp only [if_neg hm]
    rw [kiWalk_of_run]
    obtain ⟨k, rfl⟩ : ∃ k, minSize = k + 1 := ⟨minSize - 1, by omega⟩
    simp only [Nat.add_sub_cancel, Nat.add_left_cancel_iff]

/-- With shadowing on, `client_handle_Ki` tags exactly the bytes from the
stack pointer up to `kiStop` defined and records `kiStop` as
`pre_callback_esp`: the stack base when it lies less than
`TYPICAL_STACK_MIN_SIZE` above the stack pointer, else the end of the run of
unaddressable bytes there, cut at `TYPICAL_STACK_MIN_SIZE` bytes. The
assertion that the data is too large fires exactly when the walk stops at
the cut, also when the run ends there; each `stack not aligned` assertion
fires when its end of the walk is not 4-aligned. -/
theorem clientHandleKi_spec (o : Options) (hon : o.leaksOnly = false ∧ o.shadowing = true)
    (minSize : Nat) (hmin : 0 < minSize) (s : State) (cpt : WinPerThread) (esp stackBase : Nat) :
    clientHandleKi o minSize s cpt esp stackBase =
      ({ s with
          shadow := shadowSetRange s.shadow esp (kiStop minSize s.shadow esp stackBase) .defined
          asserts := assert (assert s.asserts (esp % 4 = 0) "stack not aligned" ++
              if kiStop minSize s.shadow esp stackBase = esp + minSize then
                ["kernel-placed data on stack too large: error?"] else [])
            (kiStop minSize s.shadow esp stackBase % 4 = 0) "stack not aligned" },
        { cpt with preCallbackEsp := kiStop minSize s.shadow esp stackBase }) := by
  rw [clientHandleKi, if_neg (by simp [hon])]
  dsimp only
  rw [kiWalk_eq hmin]

/-- Eight unaddressable bytes at `0x100` and a defined byte after them, far
below the stack base: the walk stops at the cut and asserts. -/
theorem clientHandleKi_spec_run_at_cut :
    let s : State := { State.init with
      shadow := fun a => if a < 0x108 then .unaddressable else .defined }
    ((mmapOptions.leaksOnly = false ∧ mmapOptions.shadowing = true) ∧ 0 < 8) ∧
      (clientHandleKi mmapOptions 8 s ⟨0, 0⟩ 0x100 0x1000).2.preCallbackEsp = 0x108 ∧
      (clientHandleKi mmapOptions 8 s ⟨0, 0⟩ 0x100 0x1000).1.asserts =
        ["kernel-placed data on stack too large: error?"] := by
  intro s
  have h := clientHandleKi_spec mmapOptions ⟨rfl, rfl⟩ 8 (by decide) s ⟨0, 0⟩ 0x100 0x1000
  exact ⟨⟨⟨rfl, rfl⟩, by decide⟩, (congrArg (fun r => r.2.preCallbackEsp) h).trans (by decide),
    (congrArg (fun r => r.1.asserts) h).trans (by decide)⟩

/-! ## Callbacks -/

/-- The `for` loop of `client_handle_cbret`: tag the `n` bytes from `sp`
unaddressable, one at a time. -/
def cbretLoop (sh : Shadow) (sp : Nat) : Nat → Shadow
  | 0 => sh
  | n + 1 => cbretLoop (Function.update sh sp .unaddressable) (sp + 1) n

/-- `client_handle_cbret` at the stack pointer `esp` of the returning
callback: the parent's stack below its `pre_callback_esp` is dead. -/
def clientHandleCbret (o : Options) (s : State) (cptParent : WinPerThread) (esp : Nat) : State :=
  if o.leaksOnly || !o.shadowing then s
  else { s with shadow := cbretLoop s.shadow esp (cptParent.preCallbackEsp - esp) }

/-- `client_handle_callback`: the child's record, allocated for a new depth
or the one already there reset, is zeroed and shares the parent's register
shadow. -/
def clientHandleCallback (cptParent : WinPerThread) : WinPerThread :=
  { preCallbackEsp := 0, shadowRegs := cptParent.shadowRegs }

theorem cbretLoop_eq (sh : Shadow) (sp n : Nat) :
    cbretLoop sh sp n = shadowSetRange sh sp (sp + n) .unaddressable := by
  induction n generalizing sh sp with
  | zero => exact (shadowSetRange_empty _ (by omega)).symm
  | succ n ih =>
    rw [cbretLoop, ih, show sp + 1 + n = sp + (n + 1) by omega,
      shadowSetRange_update _ (.inl (by omega))]

/-- The return tags the parent's stack from `esp` up to its
`pre_callback_esp` unaddressable. -/
theorem clientHandleCbret_eq {o : Options} (hon : o.leaksOnly = false ∧ o.shadowing = true)
    (s : State) (cptParent : WinPerThread) (esp : Nat) :
    clientHandleCbret o s cptParent esp =
      { s with shadow := shadowSetRange s.shadow esp cptParent.preCallbackEsp .unaddressable } := by
  rw [clientHandleCbret, if_neg (by simp [hon]), cbretLoop_eq]
  by_cases h : esp ≤ cptParent.preCallbackEsp
  · rw [Nat.add_sub_cancel' h]
  · rw [shadowSetRange_empty _ (by omega), shadowSetRange_empty _ (by omega)]

/-! ## System calls -/

/-- The system calls the Windows branch of `client_pre_syscall` looks at:
`NtContinue` with its `CONTEXT` pointer and the `Esp` the context holds, and
`NtSetContextThread`. -/
inductive WinSyscall where
  | ntContinue (cxt cxtEsp : Nat)
  | ntSetContextThread
  | other
deriving Repr, DecidableEq

/-- `client_pre_syscall` on Windows at the stack pointer `esp`. `NtContinue`
installs the stack pointer of its context: a move down by less than
`stack_swap_threshold` makes the new part of the stack undefined, a move up
by less makes the popped part unaddressable, and a larger move is a stack
swap that is left alone. -/
def clientPreSyscallWindows (o : Options) (s : State) (esp : Nat) : WinSyscall → State
  | .ntContinue cxt cxtEsp =>
    if o.leaksOnly || !o.shadowing then s
    else if cxt = 0 then s
    else if cxtEsp < esp then
      if esp - cxtEsp < o.stackSwapThreshold then
        { s with shadow := shadowSetRange s.shadow cxtEsp esp .undefined }
      else s
    else if cxtEsp - esp < o.stackSwapThreshold then
      { s with shadow := shadowSetRange s.shadow esp cxtEsp .unaddressable }
    else s
  | .ntSetContextThread =>
    if o.leaksOnly || !o.shadowing then s
    else { s with asserts := s.asserts ++ ["NtSetContextThread NYI"] }
  | .other => s

/-! ## Mappings -/

/-- `client_handle_mmap` on Windows: an anonymous mapping is defined outside
a heap routine and undefined inside one; a file mapping is walked. -/
def clientHandleMmapWindows (o : Options) (s : State) (mmapWalk : MmapWalk)
    (inHeapRoutine : Nat) (base size : Nat) (anon : Bool) : State :=
  if !o.leaksOnly && o.shadowing then
    if anon then
      let val := if inHeapRoutine = 0 then ShadowVal.defined else .undefined
      { s with shadow := shadowSetRange s.shadow base (base + size) val }
    else { s with shadow := mmapWalk s.shadow base size true }
  else s

/-- `client_handle_munmap` on Windows: an anonymous range is unaddressable, a
file range is walked. -/
def clientHandleMunmapWindows (o : Options) (s : State) (mmapWalk : MmapWalk) (base size : Nat)
    (anon : Bool) : State :=
  if !o.leaksOnly && o.shadowing then
    if anon then { s with shadow := shadowSetRange s.shadow base (base + size) .unaddressable }
    else { s with shadow := mmapWalk s.shadow base size false }
  else s

/-- `client_handle_munmap_fail` on Windows: the range is walked again. -/
def clientHandleMunmapFailWindows (o : Options) (s : State) (mmapWalk : MmapWalk)
    (base size : Nat) (_anon : Bool) : State :=
  if !o.leaksOnly && o.shadowing then { s with shadow := mmapWalk s.shadow base size true }
  else s

/-! ## Runs of one thread -/

/-- A Windows thread as the callback code sees it: the record of the current
callback depth, and the records of the depths it was entered from, innermost
first. DR keeps one `per_thread_t` per depth and hands the callback handlers
the parent's and the child's. -/
structure WinThread where
  cur : WinPerThread
  parents : List WinPerThread
deriving Repr, DecidableEq

/-- The events of one thread that reach these handlers: a `Ki` routine at
`esp` on a stack based at `stackBase`, the start of a callback, its return at
`esp`, and a system call at `esp`. -/
inductive WinEvent where
  | ki (esp stackBase : Nat)
  | callback
  | cbret (esp : Nat)
  | preSyscall (esp : Nat) (sc : WinSyscall)
deriving Repr, DecidableEq

/-- One event. A return at the outermost depth, which has no parent, does not
occur; it is taken as no event. -/
def winStep (o : Options) (minSize : Nat) (st : State × WinThread) :
    WinEvent → State × WinThread
  | .ki esp stackBase =>
    let r := clientHandleKi o minSize st.1 st.2.cur esp stackBase
    (r.1, { st.2 with cur := r.2 })
  | .callback => (st.1, ⟨clientHandleCallback st.2.cur, st.2.cur :: st.2.parents⟩)
  | .cbret esp =>
    match st.2.parents with
    | parent :: rest => (clientHandleCbret o st.1 parent esp, ⟨parent, rest⟩)
    | [] => st
  | .preSyscall esp sc => (clientPreSyscallWindows o st.1 esp sc, st.2)

/-- A run of one thread's events. -/
def winRun (o : Options) (minSize : Nat) (st : State × WinThread) (evs : List WinEvent) :
    State × WinThread :=
  evs.foldl (winStep o minSize) st

/-- The callback depth after `evs` from depth `d`, or `none` if a return
comes at depth `0`. -/
def callbackDepth : Nat → List WinEvent → Option Nat
  | d, [] => some d
  | d, .callback :: evs => callbackDepth (d + 1) evs
  | 0, .cbret _ :: _ => none
  | d + 1, .cbret _ :: evs => callbackDepth d evs
  | d, .ki _ _ :: evs => callbackDepth d evs
  | d, .preSyscall _ _ :: evs => callbackDepth d evs

section Nest

variable {o : Options} {minSize : Nat}

/-- A run that never returns below its starting depth leaves the records of
the depths below untouched, under as many records as it is deep. -/
theorem winRun_parents (evs : List WinEvent) :
    ∀ {d d' : Nat} {st : State × WinThread} {ys ps : List WinPerThread},
      callbackDepth d evs = some d' → st.2.parents = ys ++ ps → ys.length = d →
        ∃ ys', (winRun o minSize st evs).2.parents = ys' ++ ps ∧ ys'.length = d' := by
  induction evs with
  | nil =>
    intro d d' st ys ps hd hp hl
    obtain rfl : d = d' := by simpa [callbackDepth] using hd
    exact ⟨ys, hp, hl⟩
  | cons e evs ih =>
    intro d d' st ys ps hd hp hl
    cases e with
    | ki esp stackBase => exact ih (by simpa [callbackDepth] using hd) hp hl
    | callback =>
      exact @ih (d + 1) d' _ (st.2.cur :: ys) ps (by simpa [callbackDepth] using hd)
        (by simp [winStep, hp]) (by simp [hl])
    | cbret esp =>
      cases d with
      | zero => simp [callbackDepth] at hd
      | succ k =>
        cases ys with
        | nil => simp at hl
        | cons y ys =>
          have hst : (winStep o minSize st (.cbret esp)).2.parents = ys ++ ps := by
            simp [winStep, hp]
          exact ih (by simpa [callbackDepth] using hd) hst (by simpa using hl)
    | preSyscall esp sc => exact ih (by simpa [callbackDepth] using hd) hp hl

/-- The record `client_handle_Ki` leaves: its `pre_callback_esp` is
`kiStop`. -/
theorem clientHandleKi_snd (hon : o.leaksOnly = false ∧ o.shadowing = true) (hmin : 0 < minSize)
    (s : State) (cpt : WinPerThread) (esp stackBase : Nat) :
    (clientHandleKi o minSize s cpt esp stackBase).2 =
      { cpt with preCallbackEsp := kiStop minSize s.shadow esp stackBase } := by
  rw [clientHandleKi, if_neg (by simp [hon])]
  dsimp only
  rw [kiWalk_eq hmin]

end Nest

/-- With shadowing on, a callback's return finds the `pre_callback_esp` that
the `Ki` routine before its callback recorded, whatever ran inside the
callback so long as every callback begun there returned: it tags the stack
from its own stack pointer up to that routine's `kiStop` unaddressable, and
the thread is back at the routine's depth, with the record the routine left
and the records of the depths below untouched. -/
theorem clientHandleCbret_after_nested (o : Options)
    (hon : o.leaksOnly = false ∧ o.shadowing = true) (minSize : Nat) (hmin : 0 < minSize)
    (st : State × WinThread) (esp stackBase esp' : Nat) (inner : List WinEvent)
    (hbal : callbackDepth 0 inner = some 0) :
    let mid := winRun o minSize st (.ki esp stackBase :: .callback :: inner)
    winRun o minSize st (.ki esp stackBase :: .callback :: inner ++ [.cbret esp']) =
      ({ mid.1 with
          shadow := shadowSetRange mid.1.shadow esp' (kiStop minSize st.1.shadow esp stackBase)
            .unaddressable },
        ⟨{ st.2.cur with preCallbackEsp := kiStop minSize st.1.shadow esp stackBase },
          st.2.parents⟩) := by
  intro mid
  have hki := clientHandleKi_snd hon hmin st.1 st.2.cur esp stackBase
  obtain ⟨ys, hys, hlen⟩ := @winRun_parents o minSize inner 0 0
    (winRun o minSize st [.ki esp stackBase, .callback]) []
    ((clientHandleKi o minSize st.1 st.2.cur esp stackBase).2 :: st.2.parents) hbal rfl rfl
  rw [List.length_eq_zero] at hlen
  subst hlen
  have hmid : mid.2.parents = (clientHandleKi o minSize st.1 st.2.cur esp stackBase).2 :: st.2.parents := hys
  rw [show (.ki esp stackBase :: .callback :: inner ++ [.cbret esp'] : List WinEvent) =
    (.ki esp stackBase :: .callback :: inner) ++ [.cbret esp'] from rfl, winRun, List.foldl_append]
  show winStep o minSize mid (.cbret esp') = _
  simp only [winStep, hmid, clientHandleCbret_eq hon, hki]

/-- A `Ki` routine on the main stack at `0x100`, then a callback in which a
second `Ki` routine and a callback return run at `0x80`: the outer return
still finds `0x104` and kills the outer data again. -/
theorem clientHandleCbret_after_nested_inner :
    let st : State × WinThread := (State.init, ⟨⟨0, 0⟩, []⟩)
    let inner : List WinEvent := [.ki 0x80 0x104, .callback, .cbret 0x80]
    ((mmapOptions.leaksOnly = false ∧ mmapOptions.shadowing = true) ∧ 0 < 8 ∧
        callbackDepth 0 inner = some 0) ∧
      (winRun mmapOptions 8 st
        (.ki 0x100 0x104 :: .callback :: inner ++ [.cbret 0x100])).2.cur.preCallbackEsp = 0x104 ∧
      (winRun mmapOptions 8 st
        (.ki 0x100 0x104 :: .callback :: inner ++ [.cbret 0x100])).1.shadow 0x100 = .unaddressable := by
  intro st inner
  have h := clientHandleCbret_after_nested mmapOptions ⟨rfl, rfl⟩ 8 (by decide) st 0x100 0x104 0x100
    inner (by decide)
  exact ⟨⟨⟨rfl, rfl⟩, by decide, by decide⟩,
    (congrArg (fun r => r.2.cur.preCallbackEsp) h).trans (by decide),
    (congrArg (fun r => r.1.shadow 0x100) h).trans (by decide)⟩

end DrMemory
