import DrMemory.State

/-!
# Signal delivery on Linux

The per-thread signal bookkeeping of `alloc_drmem.c`: `event_signal_alloc`
records the stack pointer a signal interrupted, `at_signal_handler` marks the
signal frame defined and records its top in `sigframe_top`, and
`client_pre_syscall` / `client_post_syscall` watch handler registration,
`sigreturn` and `sigaltstack`. A thread's run is a list of `ThreadEvent`s
folded with `threadStep` over the global state and the thread's
`client_per_thread_t`.

`sigframe_top` is one slot. Each `sigreturn` therefore clears up to the
frame top that the most recent handler entry computed
(`sigreturn_uses_latest_frame`), which is its own entry's exactly when no
handler entry came between them. The comments of `client_pre_syscall` and
`at_signal_handler` mean each `sigreturn` to clear its own frame and handle
nested signals, but after a nested signal the outer `sigreturn` reuses the
inner frame's top and the outer frame stays defined
(`sigreturn_uses_latest_frame_nested`). On the alternate stack, the test
for a nested signal compares the interrupted stack pointer with the wrong
side of `xsp`, so a signal nested on the altstack gets the whole altstack as
its frame (`atSignalHandler_nested_altstack`).

Addresses are unbounded naturals; the three pointer-width differences that
the code takes unsigned are `ptrDiff`, modulo `2 ^ 64`.
-/

namespace DrMemory

/-- The fields of `client_per_thread_t` that the signal code reads and
writes (`NULL` is `0`). -/
structure ClientPerThread where
  signalXsp : Nat
  sigframeTop : Nat
  sigaltstack : Nat
  sigaltsize : Nat
  prevSigaltstack : Nat
  prevSigaltsize : Nat
deriving Repr, DecidableEq

/-- A thread's fields as `client_thread_init` leaves them: all zero. -/
def ClientPerThread.init : ClientPerThread := ⟨0, 0, 0, 0, 0, 0⟩

/-- `PAGE_SIZE`. -/
def pageSize : Nat := 4096

/-- `SS_DISABLE`. -/
def ssDisable : Nat := 2

/-- `SIG_DFL`. -/
def sigDfl : Nat := 0

/-- `SIG_IGN`. -/
def sigIgn : Nat := 1

/-- The unsigned pointer-width difference `(size_t)(a - b)`. -/
def ptrDiff (a b : Nat) : Nat := (((a : Int) - b) % 2 ^ 64).toNat

/-- `stack_t` as `SYS_sigaltstack` reads it from its first argument. -/
structure StackT where
  ssSp : Nat
  ssFlags : Nat
  ssSize : Nat
deriving Repr, DecidableEq

/-- The system calls the signal code looks at, with the application memory
it reads for them: the handler field of a `sigaction` structure and the new
`stack_t` (`none` when `safe_read` fails), or the handler argument of
`SYS_signal`. -/
inductive Syscall where
  | rtSigaction (handler : Option Nat)
  | sigaction (handler : Option Nat)
  | signal (handler : Nat)
  | rtSigreturn
  | sigreturn
  | sigaltstack (stk : Option StackT)
  | other
deriving Repr, DecidableEq

/-! ## The handlers -/

/-- `event_signal_alloc`: record where the signal interrupted the thread. -/
def eventSignalAlloc (cpt : ClientPerThread) (xsp : Nat) : ClientPerThread :=
  { cpt with signalXsp := xsp }

/-- The handler runs on the alternate stack: one is configured and `xsp`
lies inside it. -/
def ClientPerThread.OnAltstack (cpt : ClientPerThread) (xsp : Nat) : Prop :=
  cpt.sigaltstack ≠ 0 ∧ cpt.sigaltstack > xsp ∧ cpt.sigaltstack - xsp < cpt.sigaltsize

instance (cpt : ClientPerThread) (xsp : Nat) : Decidable (cpt.OnAltstack xsp) :=
  inferInstanceAs (Decidable (_ ∧ _ ∧ _))

/-- The `frame_top` of `at_signal_handler`: on the altstack, the interrupted
stack pointer when the code takes the signal for a nested one, else the
altstack's top; off it, the interrupted stack pointer. -/
def signalFrameTop (cpt : ClientPerThread) (xsp : Nat) : Nat :=
  if cpt.OnAltstack xsp then
    if cpt.sigaltstack > cpt.signalXsp ∧ cpt.signalXsp < xsp then cpt.signalXsp
    else cpt.sigaltstack
  else cpt.signalXsp

/-- `at_signal_handler` at the handler's stack pointer `xsp`. -/
def atSignalHandler (o : Options) (s : State) (cpt : ClientPerThread) (xsp : Nat) :
    State × ClientPerThread :=
  let asserts := assert s.asserts ((!o.leaksOnly && o.shadowing) = true) "shadowing disabled"
  if cpt.signalXsp = 0 then
    ({ s with asserts := asserts ++ ["in signal handler but not for signal?"] }, cpt)
  else
    let asserts := if cpt.OnAltstack xsp then asserts
      else assert asserts (cpt.signalXsp > xsp ∧ cpt.signalXsp - xsp < 10 * o.stackSwapThreshold)
        "on unknown signal stack"
    let frameTop := signalFrameTop cpt xsp
    let asserts := assert asserts (ptrDiff frameTop xsp < pageSize) "signal frame way too big"
    ({ s with shadow := shadowSetRange s.shadow xsp frameTop .defined, asserts := asserts },
      { cpt with sigframeTop := frameTop, signalXsp := 0 })

/-- The `hashtable_add` of a new handler to `sighand_table`, which keeps an
entry already there. -/
def sighandAdd (table : List Nat) (handler : Nat) : List Nat :=
  if handler ∈ table then table else handler :: table

/-- The handler-registration branch of `client_pre_syscall`: a readable
handler other than `SIG_IGN` and `SIG_DFL` joins `sighand_table`. -/
def registerHandler (s : State) (handler : Nat) : State :=
  if handler ≠ 0 ∧ handler ≠ sigIgn ∧ handler ≠ sigDfl then
    { s with sighandTable := sighandAdd s.sighandTable handler }
  else s

/-- The `SYS_sigaltstack` branch of `client_pre_syscall`: snapshot the old
altstack, then disable it or record the new one's top and size, check it
against the stack pointer and mark it unaddressable. -/
def sigaltstackPre (o : Options) (s : State) (cpt : ClientPerThread) (xsp : Nat)
    (stk : Option StackT) : State × ClientPerThread :=
  let cpt := { cpt with prevSigaltstack := cpt.sigaltstack, prevSigaltsize := cpt.sigaltsize }
  match stk with
  | none => (s, cpt)
  | some stk =>
    if stk.ssFlags = ssDisable then (s, { cpt with sigaltstack := 0, sigaltsize := 0 })
    else
      let top := stk.ssSp + stk.ssSize
      let ok := (top < xsp ∨ ptrDiff (ptrDiff top stk.ssSize) xsp > o.stackSwapThreshold) ∧
        (top > xsp ∨ ptrDiff xsp (top + stk.ssSize) > o.stackSwapThreshold)
      ({ s with
          shadow := shadowSetRange s.shadow stk.ssSp top .unaddressable
          asserts := assert s.asserts ok "sigaltstack within swap threshold of esp" },
        { cpt with sigaltstack := top, sigaltsize := stk.ssSize })

/-- `client_pre_syscall` on Linux, at the stack pointer `xsp`. -/
def clientPreSyscall (o : Options) (s : State) (cpt : ClientPerThread) (xsp : Nat) :
    Syscall → State × ClientPerThread
  | .rtSigaction handler | .sigaction handler =>
    if o.leaksOnly || !o.shadowing then (s, cpt) else (registerHandler s (handler.getD 0), cpt)
  | .signal handler =>
    if o.leaksOnly || !o.shadowing then (s, cpt) else (registerHandler s handler, cpt)
  | .rtSigreturn | .sigreturn =>
    if o.leaksOnly || !o.shadowing then (s, cpt)
    else ({ s with
        shadow := shadowSetRange s.shadow xsp cpt.sigframeTop .unaddressable
        asserts := assert s.asserts (cpt.sigframeTop ≠ 0) "sigreturn with no prior signal" },
      cpt)
  | .sigaltstack stk =>
    if o.leaksOnly || !o.shadowing then (s, cpt) else sigaltstackPre o s cpt xsp stk
  | .other => (s, cpt)

/-- `client_post_syscall` on Linux: a failed `sigaltstack` restores the
snapshot. -/
def clientPostSyscall (o : Options) (cpt : ClientPerThread) (sc : Syscall) (result : Int) :
    ClientPerThread :=
  if o.leaksOnly || !o.shadowing then cpt
  else match sc with
    | .sigaltstack _ =>
      if result ≠ 0 then
        { cpt with sigaltstack := cpt.prevSigaltstack, sigaltsize := cpt.prevSigaltsize }
      else cpt
    | _ => cpt

/-! ## Runs of one thread -/

/-- The events of one thread that reach the signal code: a signal delivered
at `xsp`, the entry of a registered handler at `xsp`, and a system call
before (at `xsp`) and after (with its result). -/
inductive ThreadEvent where
  | signal (xsp : Nat)
  | handler (xsp : Nat)
  | preSyscall (xsp : Nat) (sc : Syscall)
  | postSyscall (sc : Syscall) (result : Int)
deriving Repr, DecidableEq

/-- The event is a handler entry. -/
def ThreadEvent.isHandler : ThreadEvent → Bool
  | .handler _ => true
  | _ => false

/-- One event on the global state and the thread's fields. -/
def threadStep (o : Options) (st : State × ClientPerThread) : ThreadEvent → State × ClientPerThread
  | .signal xsp => (st.1, eventSignalAlloc st.2 xsp)
  | .handler xsp => atSignalHandler o st.1 st.2 xsp
  | .preSyscall xsp sc => clientPreSyscall o st.1 st.2 xsp sc
  | .postSyscall sc result => (st.1, clientPostSyscall o st.2 sc result)

/-- A run of one thread. -/
def threadRun (o : Options) (st : State × ClientPerThread) (evs : List ThreadEvent) :
    State × ClientPerThread :=
  evs.foldl (threadStep o) st

@[simp] theorem threadRun_nil (o : Options) (st : State × ClientPerThread) :
    threadRun o st [] = st := rfl

@[simp] theorem threadRun_append (o : Options) (st : State × ClientPerThread)
    (evs evs' : List ThreadEvent) :
    threadRun o st (evs ++ evs') = threadRun o (threadRun o st evs) evs' :=
  List.foldl_append _ _ _ _

@[simp] theorem threadRun_cons (o : Options) (st : State × ClientPerThread) (e : ThreadEvent)
    (evs : List ThreadEvent) :
    threadRun o st (e :: evs) = threadRun o (threadStep o st e) evs := rfl

/-! ## What each handler does to the frame slot and the shadow -/

section Spec

variable {o : Options} {s : State} {cpt : ClientPerThread} {xsp : Nat}

/-- A handler entry for a delivered signal marks `[xsp, frame_top)` defined
and records `frame_top` for the `sigreturn`. -/
theorem atSignalHandler_of_signal (h : cpt.signalXsp ≠ 0) :
    (atSignalHandler o s cpt xsp).1.shadow =
        shadowSetRange s.shadow xsp (signalFrameTop cpt xsp) .defined ∧
      (atSignalHandler o s cpt xsp).2 =
        { cpt with sigframeTop := signalFrameTop cpt xsp, signalXsp := 0 } := by
  simp only [atSignalHandler, if_neg h, and_self]

/-- `sigaltstack` writes only the altstack fields of the thread. -/
theorem sigaltstackPre_frame (stk : Option StackT) :
    (sigaltstackPre o s cpt xsp stk).2.sigframeTop = cpt.sigframeTop ∧
      (sigaltstackPre o s cpt xsp stk).2.signalXsp = cpt.signalXsp := by
  unfold sigaltstackPre
  rcases stk with _ | stk
  · exact ⟨rfl, rfl⟩
  · dsimp only
    split <;> exact ⟨rfl, rfl⟩

/-- The system-call hooks leave the frame slot and the pending signal. -/
theorem clientPreSyscall_frame (sc : Syscall) :
    (clientPreSyscall o s cpt xsp sc).2.sigframeTop = cpt.sigframeTop ∧
      (clientPreSyscall o s cpt xsp sc).2.signalXsp = cpt.signalXsp := by
  cases sc <;> simp only [clientPreSyscall, and_self] <;> split <;>
    first | exact ⟨rfl, rfl⟩ | exact sigaltstackPre_frame _

theorem clientPostSyscall_frame (sc : Syscall) (result : Int) :
    (clientPostSyscall o cpt sc result).sigframeTop = cpt.sigframeTop ∧
      (clientPostSyscall o cpt sc result).signalXsp = cpt.signalXsp := by
  unfold clientPostSyscall
  split
  · exact ⟨rfl, rfl⟩
  · split
    · split <;> exact ⟨rfl, rfl⟩
    · exact ⟨rfl, rfl⟩

/-- Only a handler entry writes `sigframe_top`. -/
theorem threadStep_sigframeTop (st : State × ClientPerThread) {e : ThreadEvent}
    (he : e.isHandler = false) : (threadStep o st e).2.sigframeTop = st.2.sigframeTop := by
  cases e with
  | signal _ => rfl
  | handler _ => cases he
  | preSyscall _ sc => exact (clientPreSyscall_frame sc).1
  | postSyscall sc r => exact (clientPostSyscall_frame sc r).1

theorem threadRun_sigframeTop (st : State × ClientPerThread) (evs : List ThreadEvent)
    (h : ∀ e ∈ evs, e.isHandler = false) :
    (threadRun o st evs).2.sigframeTop = st.2.sigframeTop := by
  induction evs generalizing st with
  | nil => rfl
  | cons e evs ih =>
    rw [threadRun_cons, ih _ fun e' he' => h e' (List.mem_cons_of_mem _ he'),
      threadStep_sigframeTop _ (h e (List.mem_cons_self _ _))]

/-- With shadowing on, a `sigreturn` marks `[xsp, sigframe_top)`
unaddressable. -/
theorem clientPreSyscall_sigreturn (hon : o.leaksOnly = false ∧ o.shadowing = true)
    {sc : Syscall} (hsc : sc = .rtSigreturn ∨ sc = .sigreturn) :
    (clientPreSyscall o s cpt xsp sc).1.shadow =
      shadowSetRange s.shadow xsp cpt.sigframeTop .unaddressable := by
  rcases hsc with rfl | rfl <;> simp [clientPreSyscall, hon]

end Spec

/-! ## The frame of a signal nested on the altstack -/

/-- The options of the runs below: shadowing on, the default stack-swap
threshold. -/
def signalOptions : Options := ⟨false, true, 0, 0, 0x9000⟩

/-- A signal nested on the alternate stack (the handler's `xsp` inside the
altstack, the interrupted stack pointer between `xsp` and the altstack's
top) gets the altstack's top as its frame top: its entry marks the
interrupted handler's frame `[signal_xsp, sigaltstack)` defined, and with
shadowing on the matching `sigreturn`, from any `xsp` up to `signal_xsp`,
marks that frame unaddressable. -/
theorem atSignalHandler_nested_altstack (o : Options)
    (hon : o.leaksOnly = false ∧ o.shadowing = true) (s : State) (cpt : ClientPerThread)
    (xsp xsp' : Nat) (halt : cpt.OnAltstack xsp)
    (hnest : xsp < cpt.signalXsp ∧ cpt.signalXsp < cpt.sigaltstack) (hret : xsp' ≤ cpt.signalXsp) :
    (atSignalHandler o s cpt xsp).2.sigframeTop = cpt.sigaltstack ∧
    (∀ a, cpt.signalXsp ≤ a → a < cpt.sigaltstack →
      (atSignalHandler o s cpt xsp).1.shadow a = .defined) ∧
    (∀ a, cpt.signalXsp ≤ a → a < cpt.sigaltstack →
      (clientPreSyscall o (atSignalHandler o s cpt xsp).1 (atSignalHandler o s cpt xsp).2 xsp'
        .rtSigreturn).1.shadow a = .unaddressable) := by
  have hsig : cpt.signalXsp ≠ 0 := by omega
  have htop : signalFrameTop cpt xsp = cpt.sigaltstack := by
    rw [signalFrameTop, if_pos halt, if_neg (by omega)]
  refine ⟨?_, fun a h1 h2 => ?_, fun a h1 h2 => ?_⟩
  · rw [(atSignalHandler_of_signal hsig).2, htop]
  · rw [(atSignalHandler_of_signal hsig).1, htop]
    exact shadowSetRange_in _ (by omega) h2
  · rw [clientPreSyscall_sigreturn hon (.inl rfl), (atSignalHandler_of_signal hsig).2, htop]
    exact shadowSetRange_in _ (by omega) h2

/-- A thread that installs the altstack `[0x1e000, 0x20000)` from its main
stack at `0x7fff0000`, takes a signal there, whose handler runs on the
altstack at `0x1fc00` and is interrupted at `0x1f800` by a second signal. -/
def altstackNested : List ThreadEvent :=
  [.preSyscall 0x7fff0000 (.sigaltstack (some ⟨0x1e000, 0, 0x2000⟩)),
    .postSyscall (.sigaltstack (some ⟨0x1e000, 0, 0x2000⟩)) 0,
    .signal 0x7fff0000, .handler 0x1fc00, .signal 0x1f800]

/-- The second handler, entered at `0x1f400`, records the frame top
`0x20000` instead of `0x1f800`, and its `sigreturn` at `0x1f400` makes the
first handler's frame unaddressable. -/
theorem atSignalHandler_nested_altstack_run :
    (signalOptions.leaksOnly = false ∧ signalOptions.shadowing = true) ∧
    (threadRun signalOptions (State.init, ClientPerThread.init) altstackNested).2.OnAltstack
      0x1f400 ∧
    (0x1f400 < (threadRun signalOptions (State.init, ClientPerThread.init) altstackNested).2.signalXsp ∧
      (threadRun signalOptions (State.init, ClientPerThread.init) altstackNested).2.signalXsp <
        (threadRun signalOptions (State.init, ClientPerThread.init) altstackNested).2.sigaltstack) ∧
    0x1f400 ≤ (threadRun signalOptions (State.init, ClientPerThread.init) altstackNested).2.signalXsp ∧
    (atSignalHandler signalOptions
        (threadRun signalOptions (State.init, ClientPerThread.init) altstackNested).1
        (threadRun signalOptions (State.init, ClientPerThread.init) altstackNested).2
        0x1f400).2.sigframeTop =
      (threadRun signalOptions (State.init, ClientPerThread.init) altstackNested).2.sigaltstack ∧
    (∀ a,
      (threadRun signalOptions (State.init, ClientPerThread.init) altstackNested).2.signalXsp ≤ a →
      a < (threadRun signalOptions (State.init, ClientPerThread.init) altstackNested).2.sigaltstack →
      (atSignalHandler signalOptions
        (threadRun signalOptions (State.init, ClientPerThread.init) altstackNested).1
        (threadRun signalOptions (State.init, ClientPerThread.init) altstackNested).2
        0x1f400).1.shadow a = .defined) ∧
    (∀ a,
      (threadRun signalOptions (State.init, ClientPerThread.init) altstackNested).2.signalXsp ≤ a →
      a < (threadRun signalOptions (State.init, ClientPerThread.init) altstackNested).2.sigaltstack →
      (clientPreSyscall signalOptions
        (atSignalHandler signalOptions
          (threadRun signalOptions (State.init, ClientPerThread.init) altstackNested).1
          (threadRun signalOptions (State.init, ClientPerThread.init) altstackNested).2 0x1f400).1
        (atSignalHandler signalOptions
          (threadRun signalOptions (State.init, ClientPerThread.init) altstackNested).1
          (threadRun signalOptions (State.init, ClientPerThread.init) altstackNested).2 0x1f400).2
        0x1f400 .rtSigreturn).1.shadow a = .unaddressable) :=
  ⟨⟨rfl, rfl⟩, by decide, by decide, by decide,
    atSignalHandler_nested_altstack _ ⟨rfl, rfl⟩ _ _ _ _ (by decide) (by decide) (by decide)⟩

/-! ## `sigreturn` and the frame slot -/

/-- With shadowing on, every `sigreturn` marks `[xsp, top)` unaddressable,
where `top` is the frame top that the most recent handler entry computed:
`signalFrameTop` of the thread's record at that entry, which found its
signal delivered. Whatever came between them, other than another handler
entry, does not matter: `sigframe_top` is one slot, written by every entry
and by nothing else. -/
theorem sigreturn_uses_latest_frame (o : Options) (hon : o.leaksOnly = false ∧ o.shadowing = true)
    (st : State × ClientPerThread) (pre mid : List ThreadEvent) (hxsp xsp : Nat) (sc : Syscall)
    (hsc : sc = .rtSigreturn ∨ sc = .sigreturn) (hpend : (threadRun o st pre).2.signalXsp ≠ 0)
    (hmid : ∀ e ∈ mid, e.isHandler = false) :
    (threadRun o st (pre ++ .handler hxsp :: mid ++ [.preSyscall xsp sc])).1.shadow =
        shadowSetRange (threadRun o st (pre ++ .handler hxsp :: mid)).1.shadow xsp
          (signalFrameTop (threadRun o st pre).2 hxsp) .unaddressable ∧
    ∀ a, xsp ≤ a → a < signalFrameTop (threadRun o st pre).2 hxsp →
      (threadRun o st (pre ++ .handler hxsp :: mid ++ [.preSyscall xsp sc])).1.shadow a =
        .unaddressable := by
  /- the slot after `mid` is the one the entry wrote -/
  have hslot : (threadRun o st (pre ++ .handler hxsp :: mid)).2.sigframeTop =
      signalFrameTop (threadRun o st pre).2 hxsp := by
    rw [threadRun_append, threadRun_cons, threadRun_sigframeTop _ mid hmid]
    exact congrArg ClientPerThread.sigframeTop (atSignalHandler_of_signal hpend).2
  have hrun : (threadRun o st (pre ++ .handler hxsp :: mid ++ [.preSyscall xsp sc])).1.shadow =
      shadowSetRange (threadRun o st (pre ++ .handler hxsp :: mid)).1.shadow xsp
        (signalFrameTop (threadRun o st pre).2 hxsp) .unaddressable := by
    rw [threadRun_append, ← hslot]
    exact clientPreSyscall_sigreturn hon hsc
  exact ⟨hrun, fun a h1 h2 => by rw [hrun]; exact shadowSetRange_in _ h1 h2⟩

/-- A signal at `0x8000` whose handler (entered at `0x7f00`) is interrupted by
a second signal at `0x7e00`, whose handler is entered at `0x7d00`; then the
two `sigreturn`s, inner first. -/
def nestedSignals : List ThreadEvent :=
  [.signal 0x8000, .handler 0x7f00, .signal 0x7e00, .handler 0x7d00,
    .preSyscall 0x7d00 .rtSigreturn, .preSyscall 0x7f00 .rtSigreturn]

/-- The failing run: the outer entry computes the frame top `0x8000` and
marks `[0x7f00, 0x8000)` defined, but the outer `sigreturn` uses the inner
entry's top `0x7e00`, below its own `xsp`, so it changes nothing and, with
no failed assertion, the outer frame stays defined. -/
theorem sigreturn_uses_latest_frame_nested :
    ((signalOptions.leaksOnly = false ∧ signalOptions.shadowing = true) ∧
      (Syscall.rtSigreturn = .rtSigreturn ∨ Syscall.rtSigreturn = .sigreturn) ∧
      (threadRun signalOptions (State.init, ClientPerThread.init)
        [.signal 0x8000, .handler 0x7f00, .signal 0x7e00]).2.signalXsp ≠ 0 ∧
      ∀ e ∈ [ThreadEvent.preSyscall 0x7d00 .rtSigreturn], e.isHandler = false) ∧
    signalFrameTop (threadRun signalOptions (State.init, ClientPerThread.init)
      [.signal 0x8000, .handler 0x7f00, .signal 0x7e00]).2 0x7d00 = 0x7e00 ∧
    signalFrameTop (threadRun signalOptions (State.init, ClientPerThread.init)
      [.signal 0x8000]).2 0x7f00 = 0x8000 ∧
    (threadRun signalOptions (State.init, ClientPerThread.init) nestedSignals).1.shadow =
      (threadRun signalOptions (State.init, ClientPerThread.init) (nestedSignals.take 5)).1.shadow ∧
    (∀ a, 0x7f00 ≤ a → a < 0x8000 →
      (threadRun signalOptions (State.init, ClientPerThread.init) nestedSignals).1.shadow a =
        .defined) ∧
    (threadRun signalOptions (State.init, ClientPerThread.init) nestedSignals).1.asserts = [] := by
  have hp : (threadRun signalOptions (State.init, ClientPerThread.init)
      [.signal 0x8000, .handler 0x7f00, .signal 0x7e00]).2.signalXsp ≠ 0 := by decide
  have htop : signalFrameTop (threadRun signalOptions (State.init, ClientPerThread.init)
      [.signal 0x8000, .handler 0x7f00, .signal 0x7e00]).2 0x7d00 = 0x7e00 := by decide
  have h := sigreturn_uses_latest_frame signalOptions ⟨rfl, rfl⟩ (State.init, ClientPerThread.init)
    [.signal 0x8000, .handler 0x7f00, .signal 0x7e00] [.preSyscall 0x7d00 .rtSigreturn] 0x7d00
    0x7f00 .rtSigreturn (.inl rfl) hp (by decide)
  rw [htop, shadowSetRange_empty _ (by decide)] at h
  have hlast : (threadRun signalOptions (State.init, ClientPerThread.init) nestedSignals).1.shadow =
      (threadRun signalOptions (State.init, ClientPerThread.init) (nestedSignals.take 5)).1.shadow :=
    h.1
  refine ⟨⟨⟨rfl, rfl⟩, .inl rfl, hp, by decide⟩, htop, by decide, hlast, fun a h1 h2 => ?_, by decide⟩
  rw [hlast]
  simp only [nestedSignals, List.take, threadRun_cons, threadRun_nil, threadStep, clientPreSyscall,
    signalOptions]
  simp [atSignalHandler, eventSignalAlloc, signalFrameTop, ClientPerThread.OnAltstack,
    ClientPerThread.init, shadowSetRange_apply]
  rw [if_neg (by omega), if_neg (by omega), if_pos ⟨h1, h2⟩]

/-! ## A failed `sigaltstack` -/

/-- A `sigaltstack` call whose system call fails (any non-zero result): the
post-syscall hook puts back the altstack and its size that the pre-syscall
hook snapshotted, but not the shadow. The pre-syscall hook marks a new stack
before the kernel has accepted it, on the design's assumption that nothing
else uses the region, and the rollback restores values only: with shadowing
on, a call that installs a new stack leaves `[ss_sp, ss_sp + ss_size)`
unaddressable, whatever its tags were; a disabling call, an unreadable
argument, or shadowing off leave the shadow as it was. -/
theorem sigaltstack_failed_keeps_mark (o : Options) (s : State) (cpt : ClientPerThread)
    (xsp : Nat) (stk : Option StackT) (result : Int) (hr : result ≠ 0) :
    (threadRun o (s, cpt)
        [.preSyscall xsp (.sigaltstack stk), .postSyscall (.sigaltstack stk) result]).2.sigaltstack =
      cpt.sigaltstack ∧
    (threadRun o (s, cpt)
        [.preSyscall xsp (.sigaltstack stk), .postSyscall (.sigaltstack stk) result]).2.sigaltsize =
      cpt.sigaltsize ∧
    (threadRun o (s, cpt)
        [.preSyscall xsp (.sigaltstack stk), .postSyscall (.sigaltstack stk) result]).1.shadow =
      match stk with
      | some k =>
        if (!o.leaksOnly && o.shadowing) = true ∧ k.ssFlags ≠ ssDisable then
          shadowSetRange s.shadow k.ssSp (k.ssSp + k.ssSize) .unaddressable
        else s.shadow
      | none => s.shadow := by
  simp only [threadRun_cons, threadRun_nil, threadStep, clientPreSyscall, clientPostSyscall]
  by_cases hoff : (o.leaksOnly || !o.shadowing) = true
  · have hon : (!o.leaksOnly && o.shadowing) = false := by
      revert hoff; cases o.leaksOnly <;> cases o.shadowing <;> decide
    rcases stk with _ | k <;> simp [hoff, hon]
  · have hon : (!o.leaksOnly && o.shadowing) = true := by
      revert hoff; cases o.leaksOnly <;> cases o.shadowing <;> decide
    rcases stk with _ | k
    · simp [hoff, sigaltstackPre, hr]
    · by_cases hd : k.ssFlags = ssDisable <;> simp [hoff, hon, sigaltstackPre, hr, hd]

/-- A buffer whose tags are all `DEFINED`, handed to a `sigaltstack` that
fails with `-EFAULT`. -/
theorem sigaltstack_failed_keeps_mark_defined :
    (-14 : Int) ≠ 0 ∧
    (threadRun signalOptions ({ State.init with shadow := fun _ => .defined }, ClientPerThread.init)
        [.preSyscall 0x7fff0000 (.sigaltstack (some ⟨0x1e000, 0, 0x2000⟩)),
          .postSyscall (.sigaltstack (some ⟨0x1e000, 0, 0x2000⟩)) (-14)]).2.sigaltstack =
      ClientPerThread.init.sigaltstack ∧
    (threadRun signalOptions ({ State.init with shadow := fun _ => .defined }, ClientPerThread.init)
        [.preSyscall 0x7fff0000 (.sigaltstack (some ⟨0x1e000, 0, 0x2000⟩)),
          .postSyscall (.sigaltstack (some ⟨0x1e000, 0, 0x2000⟩)) (-14)]).2.sigaltsize =
      ClientPerThread.init.sigaltsize ∧
    (threadRun signalOptions ({ State.init with shadow := fun _ => .defined }, ClientPerThread.init)
        [.preSyscall 0x7fff0000 (.sigaltstack (some ⟨0x1e000, 0, 0x2000⟩)),
          .postSyscall (.sigaltstack (some ⟨0x1e000, 0, 0x2000⟩)) (-14)]).1.shadow =
      shadowSetRange (fun _ => .defined) 0x1e000 (0x1e000 + 0x2000) .unaddressable ∧
    (threadRun signalOptions ({ State.init with shadow := fun _ => .defined }, ClientPerThread.init)
        [.preSyscall 0x7fff0000 (.sigaltstack (some ⟨0x1e000, 0, 0x2000⟩)),
          .postSyscall (.sigaltstack (some ⟨0x1e000, 0, 0x2000⟩)) (-14)]).1.shadow 0x1e000 =
      .unaddressable := by
  obtain ⟨h1, h2, h3⟩ := sigaltstack_failed_keeps_mark signalOptions
    { State.init with shadow := fun _ => .defined } ClientPerThread.init 0x7fff0000
    (some ⟨0x1e000, 0, 0x2000⟩) (-14) (by decide)
  have h4 : (threadRun signalOptions
      ({ State.init with shadow := fun _ => .defined }, ClientPerThread.init)
      [.preSyscall 0x7fff0000 (.sigaltstack (some ⟨0x1e000, 0, 0x2000⟩)),
        .postSyscall (.sigaltstack (some ⟨0x1e000, 0, 0x2000⟩)) (-14)]).1.shadow =
      shadowSetRange (fun _ => .defined) 0x1e000 (0x1e000 + 0x2000) .unaddressable :=
    h3.trans (if_pos ⟨rfl, by decide⟩)
  exact ⟨by decide, h1, h2, h4, by rw [h4]; exact shadowSetRange_in _ le_rfl (by decide)⟩

/-- A live buffer handed to a `sigaltstack` that fails: its tags do not come
back, so the pair of hooks does not leave the shadow as it was. -/
theorem sigaltstack_failed_shadow_changed :
    (threadRun signalOptions ({ State.init with shadow := fun _ => .defined }, ClientPerThread.init)
        [.preSyscall 0x7fff0000 (.sigaltstack (some ⟨0x1e000, 0, 0x2000⟩)),
          .postSyscall (.sigaltstack (some ⟨0x1e000, 0, 0x2000⟩)) (-14)]).1.shadow ≠
      fun _ => .defined :=
  fun h => absurd (congrFun h 0x1e000) (by decide)

/-! ## The handler table -/

/-- The handler a registration call hands `client_pre_syscall`: the first
field of the `sigaction` structure, `NULL` when it cannot be read, or the
argument of `SYS_signal`. -/
def Syscall.handlerArg : Syscall → Option Nat
  | .rtSigaction handler | .sigaction handler => some (handler.getD 0)
  | .signal handler => some handler
  | .rtSigreturn | .sigreturn | .sigaltstack _ | .other => none

/-- The handler an event adds to `sighand_table`: a registered one other than
`NULL`, `SIG_IGN` and `SIG_DFL`. -/
def ThreadEvent.registers : ThreadEvent → Option Nat
  | .preSyscall _ sc => sc.handlerArg.filter fun h => h ≠ 0 ∧ h ≠ sigIgn ∧ h ≠ sigDfl
  | .signal _ | .handler _ | .postSyscall .. => none

section Table

variable {o : Options} {s : State} {cpt : ClientPerThread} {xsp : Nat}

theorem sighandAdd_nodup {table : List Nat} (h : table.Nodup) (handler : Nat) :
    (sighandAdd table handler).Nodup := by
  unfold sighandAdd
  split_ifs with hm
  · exact h
  · exact List.nodup_cons.2 ⟨hm, h⟩

@[simp] theorem mem_sighandAdd {table : List Nat} {handler h : Nat} :
    h ∈ sighandAdd table handler ↔ h ∈ table ∨ h = handler := by
  unfold sighandAdd
  split_ifs with hm
  · exact ⟨.inl, fun h' => h'.elim id fun he => he ▸ hm⟩
  · simp [or_comm]

theorem atSignalHandler_sighandTable :
    (atSignalHandler o s cpt xsp).1.sighandTable = s.sighandTable := by
  unfold atSignalHandler
  split <;> rfl

theorem sigaltstackPre_sighandTable (stk : Option StackT) :
    (sigaltstackPre o s cpt xsp stk).1.sighandTable = s.sighandTable := by
  unfold sigaltstackPre
  rcases stk with _ | stk
  · rfl
  · dsimp only
    split <;> rfl

theorem registerHandler_sighandTable (handler : Nat) :
    (registerHandler s handler).sighandTable =
      match (some handler).filter fun h => h ≠ 0 ∧ h ≠ sigIgn ∧ h ≠ sigDfl with
      | some h => sighandAdd s.sighandTable h
      | none => s.sighandTable := by
  unfold registerHandler
  split_ifs with hv <;> simp [Option.filter, hv]

/-- With shadowing on, `client_pre_syscall` adds to `sighand_table` the
handler the call registers, if any, and nothing else. -/
theorem clientPreSyscall_sighandTable (hon : o.leaksOnly = false ∧ o.shadowing = true)
    (sc : Syscall) :
    (clientPreSyscall o s cpt xsp sc).1.sighandTable =
      match (ThreadEvent.preSyscall xsp sc).registers with
      | some h => sighandAdd s.sighandTable h
      | none => s.sighandTable := by
  have hoff : (o.leaksOnly || !o.shadowing) = false := by simp [hon]
  cases sc with
  | sigaltstack stk =>
    simp only [clientPreSyscall, hoff, Bool.false_eq_true, if_false]
    exact sigaltstackPre_sighandTable stk
  | rtSigreturn | sigreturn | other =>
    simp only [clientPreSyscall, hoff, Bool.false_eq_true, if_false]; rfl
  | rtSigaction handler | sigaction handler | signal handler =>
    simp only [clientPreSyscall, hoff, Bool.false_eq_true, if_false]
    exact registerHandler_sighandTable _

/-- One step keeps the table free of duplicates and adds the handler the
event registers. -/
theorem threadStep_sighandTable (hon : o.leaksOnly = false ∧ o.shadowing = true)
    (st : State × ClientPerThread) (e : ThreadEvent) (hn : st.1.sighandTable.Nodup) :
    (threadStep o st e).1.sighandTable.Nodup ∧
      ∀ h, h ∈ (threadStep o st e).1.sighandTable ↔
        h ∈ st.1.sighandTable ∨ e.registers = some h := by
  cases e with
  | preSyscall x sc =>
    rw [threadStep, clientPreSyscall_sighandTable hon]
    cases (ThreadEvent.preSyscall x sc).registers with
    | none => exact ⟨hn, fun h => by simp⟩
    | some r => exact ⟨sighandAdd_nodup hn r, fun h => by simp [eq_comm]⟩
  | handler x =>
    rw [threadStep, atSignalHandler_sighandTable]
    exact ⟨hn, fun h => by simp [ThreadEvent.registers]⟩
  | signal x => exact ⟨hn, fun h => by simp [threadStep, ThreadEvent.registers]⟩
  | postSyscall sc r => exact ⟨hn, fun h => by simp [threadStep, ThreadEvent.registers]⟩

end Table

/-- With shadowing on, over every run of a thread, `sighand_table` stays free
of duplicates and holds exactly the handlers it held and those the run
registers: every readable handler other than `NULL`, `SIG_IGN` and `SIG_DFL`
stays in it, whatever the thread does later. -/
theorem sighandTable_registered (o : Options) (hon : o.leaksOnly = false ∧ o.shadowing = true)
    (st : State × ClientPerThread) (evs : List ThreadEvent) (hn : st.1.sighandTable.Nodup) :
    (threadRun o st evs).1.sighandTable.Nodup ∧
      ∀ h, h ∈ (threadRun o st evs).1.sighandTable ↔
        h ∈ st.1.sighandTable ∨ h ∈ evs.filterMap ThreadEvent.registers := by
  induction evs generalizing st with
  | nil => exact ⟨hn, fun h => by simp⟩
  | cons e evs ih =>
    obtain ⟨hn1, hm1⟩ := threadStep_sighandTable hon st e hn
    obtain ⟨hn2, hm2⟩ := ih (threadStep o st e) hn1
    refine ⟨hn2, fun h => ?_⟩
    rw [threadRun_cons, hm2, hm1, List.filterMap_cons]
    cases e.registers <;> simp [or_assoc, eq_comm]

/-- Two registrations of one handler, one of `SIG_IGN`, and an unreadable
`sigaction` structure. -/
def registrations : List ThreadEvent :=
  [.preSyscall 0x7ff0 (.rtSigaction (some 0x401000)), .preSyscall 0x7ff0 (.signal 1),
    .preSyscall 0x7ff0 (.rtSigaction none), .preSyscall 0x7ff0 (.sigaction (some 0x401000))]

theorem sighandTable_registered_registrations :
    (signalOptions.leaksOnly = false ∧ signalOptions.shadowing = true) ∧
    State.init.sighandTable.Nodup ∧
    (threadRun signalOptions (State.init, ClientPerThread.init) registrations).1.sighandTable.Nodup ∧
    ∀ h, h ∈ (threadRun signalOptions (State.init, ClientPerThread.init) registrations).1.sighandTable ↔
      h ∈ State.init.sighandTable ∨ h ∈ registrations.filterMap ThreadEvent.registers :=
  have hn : State.init.sighandTable.Nodup := List.nodup_nil
  ⟨⟨rfl, rfl⟩, hn,
    sighandTable_registered signalOptions ⟨rfl, rfl⟩ (State.init, ClientPerThread.init) registrations hn⟩

example : registrations.filterMap ThreadEvent.registers = [0x401000, 0x401000] := by decide

/-! ## Handler entries without a delivery

`sighand_table` is only ever added to, so handler code that the application
also runs outside signal delivery is instrumented too; the code relies on
`signal_xsp` to tell the two apart. A delivery sets it and the handler entry
that takes the delivery clears it, so an entry with no delivery waiting is
exactly one that reaches `"in signal handler but not for signal?"`. -/

/-- A delivery is waiting for its handler: `signal_xsp` is set. -/
def ClientPerThread.signalPending (cpt : ClientPerThread) : Bool := cpt.signalXsp != 0

/-- The specification's view of deliveries: a delivery waits for the next
handler entry, which takes it. -/
def deliveryStep (pending : Bool) : ThreadEvent → Bool
  | .signal _ => true
  | .handler _ => false
  | .preSyscall .. | .postSyscall .. => pending

/-- The handler entries of a run that find no delivery waiting. -/
def unmatchedEntries (pending : Bool) : List ThreadEvent → Nat
  | [] => 0
  | e :: evs =>
    (if e.isHandler && !pending then 1 else 0) + unmatchedEntries (deliveryStep pending e) evs

section Deliveries

variable {o : Options} {s : State} {cpt : ClientPerThread} {xsp : Nat}

@[simp] theorem registerHandler_asserts (handler : Nat) :
    (registerHandler s handler).asserts = s.asserts := by
  unfold registerHandler
  split <;> rfl

theorem sigaltstackPre_count_notForSignal (stk : Option StackT) :
    (sigaltstackPre o s cpt xsp stk).1.asserts.count "in signal handler but not for signal?" =
      s.asserts.count "in signal handler but not for signal?" := by
  rcases stk with _ | stk
  · rfl
  · simp only [sigaltstackPre]
    split <;> simp [count_assert_of_ne]

/-- The system-call hooks never reach `"in signal handler but not for
signal?"`. -/
theorem clientPreSyscall_count_notForSignal (sc : Syscall) :
    (clientPreSyscall o s cpt xsp sc).1.asserts.count "in signal handler but not for signal?" =
      s.asserts.count "in signal handler but not for signal?" := by
  cases sc <;> simp only [clientPreSyscall] <;> split <;>
    simp [sigaltstackPre_count_notForSignal, count_assert_of_ne]

/-- A handler entry with no delivery waiting reaches the assertion and
changes nothing else; one with a delivery waiting takes it. -/
theorem atSignalHandler_delivery :
    (atSignalHandler o s cpt xsp).2.signalPending = false ∧
      (atSignalHandler o s cpt xsp).1.asserts.count "in signal handler but not for signal?" =
        s.asserts.count "in signal handler but not for signal?" +
          if cpt.signalPending then 0 else 1 := by
  by_cases h : cpt.signalXsp = 0
  · simp [atSignalHandler, ClientPerThread.signalPending, h, count_assert_of_ne,
      List.count_append]
  · have hp : cpt.signalPending = true := by simp [ClientPerThread.signalPending, h]
    refine ⟨by simp [(atSignalHandler_of_signal h).2, ClientPerThread.signalPending], ?_⟩
    simp only [atSignalHandler, if_neg h, hp, if_true, Nat.add_zero]
    split_ifs <;> simp [count_assert_of_ne]

/-- One step keeps `signal_xsp` set exactly when the specification has a
delivery waiting, and reaches the assertion at an entry with none. -/
theorem threadStep_delivery (st : State × ClientPerThread) {e : ThreadEvent}
    (hx : e ≠ .signal 0) :
    (threadStep o st e).2.signalPending = deliveryStep st.2.signalPending e ∧
      (threadStep o st e).1.asserts.count "in signal handler but not for signal?" =
        st.1.asserts.count "in signal handler but not for signal?" +
          if e.isHandler && !st.2.signalPending then 1 else 0 := by
  cases e with
  | signal x =>
    have hx0 : x ≠ 0 := fun h => hx (h ▸ rfl)
    simp [threadStep, eventSignalAlloc, ClientPerThread.signalPending, deliveryStep, hx0,
      ThreadEvent.isHandler]
  | handler x =>
    obtain ⟨hp, hc⟩ := @atSignalHandler_delivery o st.1 st.2 x
    refine ⟨hp, ?_⟩
    rw [threadStep, hc]
    cases st.2.signalPending <;> rfl
  | preSyscall x sc =>
    refine ⟨?_, by simp [threadStep, clientPreSyscall_count_notForSignal, ThreadEvent.isHandler]⟩
    simp [threadStep, deliveryStep, ClientPerThread.signalPending, (clientPreSyscall_frame sc).2]
  | postSyscall sc r =>
    simp [threadStep, deliveryStep, ClientPerThread.signalPending, (clientPostSyscall_frame sc r).2,
      ThreadEvent.isHandler]

end Deliveries

/-- Over every run of a thread in which no signal interrupts at a `NULL`
stack pointer, `at_signal_handler` reaches `"in signal handler but not for
signal?"` exactly once per handler entry that finds no delivery waiting, the
deliveries and entries paired as the specification pairs them. -/
theorem handlerEntry_without_delivery (o : Options) (st : State × ClientPerThread)
    (evs : List ThreadEvent) (hx : ThreadEvent.signal 0 ∉ evs) :
    (threadRun o st evs).1.asserts.count "in signal handler but not for signal?" =
      st.1.asserts.count "in signal handler but not for signal?" +
        unmatchedEntries st.2.signalPending evs := by
  induction evs generalizing st with
  | nil => rfl
  | cons e evs ih =>
    obtain ⟨hp, hc⟩ := threadStep_delivery st (Ne.symm (List.ne_of_not_mem_cons hx))
    rw [threadRun_cons, ih _ (List.not_mem_of_not_mem_cons hx), hc, hp, unmatchedEntries]
    omega

/-- A handler entered with no signal, a signal and its handler, and the
handler entered once more. -/
def strayEntries : List ThreadEvent :=
  [.handler 0x7000, .signal 0x7ff0, .handler 0x7fa0, .preSyscall 0x7fa0 .rtSigreturn,
    .handler 0x7f00]

theorem handlerEntry_without_delivery_stray :
    ThreadEvent.signal 0 ∉ strayEntries ∧
    (threadRun signalOptions (State.init, ClientPerThread.init) strayEntries).1.asserts.count
        "in signal handler but not for signal?" =
      State.init.asserts.count "in signal handler but not for signal?" +
        unmatchedEntries ClientPerThread.init.signalPending strayEntries :=
  have hx : ThreadEvent.signal 0 ∉ strayEntries := by decide
  ⟨hx, handlerEntry_without_delivery signalOptions (State.init, ClientPerThread.init) strayEntries hx⟩

example : unmatchedEntries ClientPerThread.init.signalPending strayEntries = 2 := by decide

end DrMemory
