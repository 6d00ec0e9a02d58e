import DrMemory.DelayFreeTree
import DrMemory.MmapTracker
import DrMemory.Signal

/-!
# The process: every interleaving of the handlers

The handlers of `alloc_drmem.c` run on every thread of the application.
Each one takes the lock of what it updates (`delay_free_lock`,
`mmap_tree_lock`, the synchronized `sighand_table`) or works on its own
thread's `client_per_thread_t`, so a run of the process is one serial order
of the calls of every thread (`procRun`): allocator events, mapping events,
and the signal events of each thread. They share the shadow and the
assertion log.

Two parts of that picture are assumptions of the model. First,
`client_handle_mremap` takes `mmap_tree_lock` twice, in `mmap_tree_remove`
and again in `mmap_tree_add`, and the model takes the call as one step: it
assumes that no mapping call of another thread runs between the two
sections. Allocator and signal calls that run there neither read nor write
`mmap_tree` (`heapStep_frame`, `threadStep_keeps`), so only the mapping
calls are concerned. Second, the shadow is written outside every lock; each
step writes its bytes at once, and what racing writes to the same bytes
leave is outside the model. No theorem below is about the shadow.

Each component reads only its own part of the globals and writes nothing
of the others' (the frame and congruence lemmas below, one per handler). So
every interleaving leaves each component as its own calls alone would
(`procRun_isolation`): the quarantine globals and the allocator's assertions
as the allocator events alone, `mmap_tree` and the mapping handlers'
assertions as the mapping events alone,
`sighand_table` as the signal events of all threads in their order, and each
thread's record as its own events. The invariants proved of each component's
own runs then hold over every interleaving: the quarantine is the FIFO and
`delay_free_tree` mirrors it (`procRun_quarantine_consistent`), `mmap_tree`
tracks the anonymous addresses (`procRun_tracksAnon`), and `sighand_table`
holds exactly the handlers some thread registered (`procRun_registered`).
-/

namespace DrMemory

/-- Two states agree on the globals under `delay_free_lock`. -/
structure State.SameQuarantine (s s' : State) : Prop where
  list : s.delayFreeList = s'.delayFreeList
  head : s.delayFreeHead = s'.delayFreeHead
  fill : s.delayFreeFill = s'.delayFreeFill
  tree : s.delayFreeTree = s'.delayFreeTree
  bytes : s.delayedFreeBytes = s'.delayedFreeBytes

theorem State.SameQuarantine.refl (s : State) : s.SameQuarantine s := ⟨rfl, rfl, rfl, rfl, rfl⟩

theorem State.SameQuarantine.symm {s s' : State} (h : s.SameQuarantine s') : s'.SameQuarantine s :=
  ⟨h.list.symm, h.head.symm, h.fill.symm, h.tree.symm, h.bytes.symm⟩

theorem State.SameQuarantine.trans {s s' s'' : State} (h : s.SameQuarantine s')
    (h' : s'.SameQuarantine s'') : s.SameQuarantine s'' :=
  ⟨h.list.trans h'.list, h.head.trans h'.head, h.fill.trans h'.fill, h.tree.trans h'.tree,
    h.bytes.trans h'.bytes⟩

/-- Two logs that grow by the same messages, twice, grow by the same
messages. -/
theorem append_same_trans {l l' m m' n n' : List String}
    (h1 : ∃ δ, m = l ++ δ ∧ m' = l' ++ δ) (h2 : ∃ δ, n = m ++ δ ∧ n' = m' ++ δ) :
    ∃ δ, n = l ++ δ ∧ n' = l' ++ δ :=
  let ⟨δ, h1, h1'⟩ := h1
  let ⟨δ', h2, h2'⟩ := h2
  ⟨δ ++ δ', by rw [h2, h1, List.append_assoc], by rw [h2', h1', List.append_assoc]⟩

variable {o : Options}

/-! ## What each component leaves alone -/

section Frames

theorem delayFreeEnqueue_keeps (s : State) (base size realBase heap : Nat) :
    (delayFreeEnqueue o s base size realBase heap).1.mmapTree = s.mmapTree ∧
      (delayFreeEnqueue o s base size realBase heap).1.sighandTable = s.sighandTable := by
  simp only [delayFreeEnqueue, delayFreeTreeRemove]
  split_ifs <;> (try split) <;> exact ⟨rfl, rfl⟩

theorem heapStep_frame (s : State) (e : HeapEvent) :
    (heapStep o s e).mmapTree = s.mmapTree ∧ (heapStep o s e).sighandTable = s.sighandTable := by
  cases e with
  | malloc => rw [heapStep, clientHandleMalloc_eq]; exact ⟨rfl, rfl⟩
  | realloc => rw [heapStep, clientHandleRealloc_eq]; exact ⟨rfl, rfl⟩
  | free base size realBase heap =>
    simp only [heapStep, clientHandleFree]
    split_ifs <;> first | exact ⟨rfl, rfl⟩ | exact delayFreeEnqueue_keeps _ _ _ _ _
  | heapDestroy heap =>
    obtain ⟨l, t, a, h⟩ := @foldl_heapDestroySlot_frame s heap (List.range s.delayFreeFill)
    simp [heapStep, clientHandleHeapDestroy, h]

theorem mmapTreeAdd_keeps (s : State) (base size : Nat) :
    (mmapTreeAdd s base size).SameQuarantine s ∧
      (mmapTreeAdd s base size).sighandTable = s.sighandTable := by
  unfold mmapTreeAdd
  split <;> exact ⟨⟨rfl, rfl, rfl, rfl, rfl⟩, rfl⟩

theorem mmapTreeRemoveLoop_keeps (base size : Nat) (s : State) (res : Bool) :
    (mmapTreeRemoveLoop base size s res).1.SameQuarantine s ∧
      (mmapTreeRemoveLoop base size s res).1.sighandTable = s.sighandTable := by
  induction s, res using mmapTreeRemoveLoop.induct base size with
  | case1 s res hnone => rw [mmapTreeRemoveLoop_of_none hnone]; exact ⟨⟨rfl, rfl, rfl, rfl, rfl⟩, rfl⟩
  | case2 s res node hsome ih =>
    rw [mmapTreeRemoveLoop_of_some hsome]
    have hnode : (mmapTreeRemoveNode s base size node).SameQuarantine s ∧
        (mmapTreeRemoveNode s base size node).sighandTable = s.sighandTable := by
      unfold mmapTreeRemoveNode mmapTreeInsertChecked
      split_ifs <;> exact ⟨⟨rfl, rfl, rfl, rfl, rfl⟩, rfl⟩
    exact ⟨ih.1.trans hnode.1, ih.2.trans hnode.2⟩

/-- A mapping event leaves the quarantine and `sighand_table` alone. -/
theorem mmapStep_keeps (mmapWalk : MmapWalk) (s : State) (e : MmapEvent) :
    (mmapStep o mmapWalk s e).SameQuarantine s ∧
      (mmapStep o mmapWalk s e).sighandTable = s.sighandTable := by
  cases e with
  | mmap inHeapRoutine base size anon =>
    simp only [mmapStep, clientHandleMmap]
    split_ifs <;> first
      | exact ⟨⟨rfl, rfl, rfl, rfl, rfl⟩, rfl⟩
      | exact mmapTreeAdd_keeps _ _ _
      | exact ⟨(mmapTreeAdd_keeps _ _ _).1.trans ⟨rfl, rfl, rfl, rfl, rfl⟩, (mmapTreeAdd_keeps _ _ _).2⟩
  | munmap base size anon =>
    simp only [mmapStep, clientHandleMunmap, mmapTreeRemove]
    have h := mmapTreeRemoveLoop_keeps base size s false
    split_ifs <;> exact ⟨⟨h.1.1, h.1.2, h.1.3, h.1.4, h.1.5⟩, h.2⟩
  | mremap oldBase oldSize newBase newSize image =>
    have key : ∀ (s₀ : State) (a : List String),
        (mmapTreeAdd { (mmapTreeRemoveLoop oldBase oldSize s₀ false).1 with asserts := a }
          newBase newSize).SameQuarantine s₀ ∧
        (mmapTreeAdd { (mmapTreeRemoveLoop oldBase oldSize s₀ false).1 with asserts := a }
          newBase newSize).sighandTable = s₀.sighandTable := fun s₀ a => by
      have h1 := mmapTreeRemoveLoop_keeps oldBase oldSize s₀ false
      have h2 := mmapTreeAdd_keeps
        { (mmapTreeRemoveLoop oldBase oldSize s₀ false).1 with asserts := a } newBase newSize
      exact ⟨h2.1.trans ⟨h1.1.1, h1.1.2, h1.1.3, h1.1.4, h1.1.5⟩, h2.2.trans h1.2⟩
    simp only [mmapStep, clientHandleMremap, mmapTreeRemove]
    split_ifs <;> first
      | exact key _ _
      | exact ⟨(key _ _).1.trans ⟨rfl, rfl, rfl, rfl, rfl⟩, (key _ _).2⟩

/-- A signal event leaves the quarantine and `mmap_tree` alone. -/
theorem threadStep_keeps (s : State) (c : ClientPerThread) (e : ThreadEvent) :
    (threadStep o (s, c) e).1.SameQuarantine s ∧ (threadStep o (s, c) e).1.mmapTree = s.mmapTree := by
  cases e with
  | signal => exact ⟨⟨rfl, rfl, rfl, rfl, rfl⟩, rfl⟩
  | handler xsp =>
    simp only [threadStep, atSignalHandler]
    split_ifs <;> exact ⟨⟨rfl, rfl, rfl, rfl, rfl⟩, rfl⟩
  | preSyscall xsp sc =>
    cases sc <;> simp only [threadStep, clientPreSyscall, registerHandler, sigaltstackPre] <;>
      (repeat' split) <;> exact ⟨⟨rfl, rfl, rfl, rfl, rfl⟩, by trivial⟩
  | postSyscall => exact ⟨⟨rfl, rfl, rfl, rfl, rfl⟩, rfl⟩

/-- The messages of the assertions in the allocator handlers. -/
def heapMessages : List String :=
  ["redzone mismatch", "internal error", "delay_free_tree inconsistent"]

/-- The messages of the assertions in the mapping handlers. -/
def mmapMessages : List String :=
  ["mmap tree error", "for now assuming mremap is of anon regions only"]

/-- The messages of the assertions in the signal code. -/
def signalMessages : List String :=
  ["shadowing disabled", "in signal handler but not for signal?", "on unknown signal stack",
    "signal frame way too big", "sigreturn with no prior signal",
    "sigaltstack within swap threshold of esp"]

section Count

variable {m : String}

theorem mmapTreeAdd_count (hne : "mmap tree error" ≠ m) (s : State) (base size : Nat) :
    (mmapTreeAdd s base size).asserts.count m = s.asserts.count m := by
  unfold mmapTreeAdd
  split
  · rfl
  · exact count_assert_of_ne hne

theorem mmapTreeRemoveLoop_count (hne : "mmap tree error" ≠ m) (base size : Nat) (s : State)
    (res : Bool) : (mmapTreeRemoveLoop base size s res).1.asserts.count m = s.asserts.count m := by
  induction s, res using mmapTreeRemoveLoop.induct base size with
  | case1 s res hnone => rw [mmapTreeRemoveLoop_of_none hnone]
  | case2 s res node hsome ih =>
    rw [mmapTreeRemoveLoop_of_some hsome, ih]
    unfold mmapTreeRemoveNode mmapTreeInsertChecked
    split_ifs <;> simp only [count_assert_of_ne hne]

theorem delayFreeTreeRemove_count (hne : "delay_free_tree inconsistent" ≠ m) (s : State)
    (addr : Nat) : (delayFreeTreeRemove s addr).asserts.count m = s.asserts.count m := by
  unfold delayFreeTreeRemove
  split
  · rfl
  · simp [List.count_cons, hne]

theorem delayFreeEnqueue_count (hm : m ∉ heapMessages) (s : State) (base size realBase heap : Nat) :
    (delayFreeEnqueue o s base size realBase heap).1.asserts.count m = s.asserts.count m := by
  have hne : ∀ x ∈ heapMessages, x ≠ m := fun x hx h => hm (h ▸ hx)
  have h0 := hne "delay_free_tree inconsistent" (by simp [heapMessages])
  simp only [delayFreeEnqueue]
  split_ifs <;> simp [delayFreeTreeRemove_count h0, count_assert_of_ne, hne, heapMessages]

theorem foldl_heapDestroySlot_count (hne : "delay_free_tree inconsistent" ≠ m) (heap : Nat)
    (l : List Nat) (s : State) :
    (l.foldl (heapDestroySlot heap) s).asserts.count m = s.asserts.count m := by
  induction l generalizing s with
  | nil => rfl
  | cons i l ih =>
    rw [List.foldl_cons, ih, heapDestroySlot]
    split_ifs
    · exact delayFreeTreeRemove_count hne _ _
    · rfl

/-- An allocator event raises none of the other components' assertions. -/
theorem heapStep_count (hm : m ∉ heapMessages) (s : State) (e : HeapEvent) :
    (heapStep o s e).asserts.count m = s.asserts.count m := by
  cases e with
  | malloc => rw [heapStep, clientHandleMalloc_eq]
  | realloc => rw [heapStep, clientHandleRealloc_eq]
  | free base size realBase heap =>
    simp only [heapStep, clientHandleFree]
    split_ifs <;> first | rfl | exact delayFreeEnqueue_count hm _ _ _ _ _
  | heapDestroy heap =>
    exact foldl_heapDestroySlot_count (fun h => hm (by simp [heapMessages, h])) heap _ s

/-- A mapping event raises none of the other components' assertions. -/
theorem mmapStep_count (hm : m ∉ mmapMessages) (mmapWalk : MmapWalk) (s : State) (e : MmapEvent) :
    (mmapStep o mmapWalk s e).asserts.count m = s.asserts.count m := by
  have h1 : "mmap tree error" ≠ m := fun h => hm (by simp [mmapMessages, ← h])
  have h2 : "for now assuming mremap is of anon regions only" ≠ m :=
    fun h => hm (by simp [mmapMessages, ← h])
  cases e with
  | mmap inHeapRoutine base size anon =>
    simp only [mmapStep, clientHandleMmap]
    split_ifs <;> first | rfl | exact mmapTreeAdd_count h1 _ _ _
  | munmap base size anon =>
    simp only [mmapStep, clientHandleMunmap, mmapTreeRemove]
    split_ifs <;> exact mmapTreeRemoveLoop_count h1 _ _ _ _
  | mremap oldBase oldSize newBase newSize image =>
    simp only [mmapStep, clientHandleMremap, mmapTreeRemove]
    split_ifs <;>
      rw [mmapTreeAdd_count h1, count_assert_of_ne h2, mmapTreeRemoveLoop_count h1]

/-- A signal event raises none of the other components' assertions. -/
theorem threadStep_count (hm : m ∉ signalMessages) (s : State) (c : ClientPerThread)
    (e : ThreadEvent) : (threadStep o (s, c) e).1.asserts.count m = s.asserts.count m := by
  have hne : ∀ x ∈ signalMessages, x ≠ m := fun x hx h => hm (h ▸ hx)
  cases e with
  | signal => rfl
  | handler xsp =>
    have h0 := hne "in signal handler but not for signal?" (by simp [signalMessages])
    simp only [threadStep, atSignalHandler]
    split_ifs <;> simp [List.count_append, List.count_cons, count_assert_of_ne, hne, signalMessages, h0]
  | preSyscall xsp sc =>
    cases sc <;> simp only [threadStep, clientPreSyscall, registerHandler, sigaltstackPre] <;>
      (repeat' split) <;> simp [count_assert_of_ne, hne, signalMessages]
  | postSyscall => rfl

end Count

end Frames

/-! ## What each component reads -/

section Reads

theorem mmapTreeAdd_congr {s s' : State} (h : s.mmapTree = s'.mmapTree) (base size : Nat) :
    (mmapTreeAdd s base size).mmapTree = (mmapTreeAdd s' base size).mmapTree := by
  unfold mmapTreeAdd
  rw [← h]
  split <;> rfl

theorem mmapTreeRemoveLoop_congr (base size : Nat) (s : State) (res : Bool) :
    ∀ {s' : State}, s.mmapTree = s'.mmapTree →
      (mmapTreeRemoveLoop base size s res).1.mmapTree =
          (mmapTreeRemoveLoop base size s' res).1.mmapTree ∧
        (mmapTreeRemoveLoop base size s res).2 = (mmapTreeRemoveLoop base size s' res).2 := by
  induction s, res using mmapTreeRemoveLoop.induct base size with
  | case1 s res hnone =>
    intro s' h
    rw [mmapTreeRemoveLoop_of_none hnone, @mmapTreeRemoveLoop_of_none s' base size res (h ▸ hnone)]
    exact ⟨h, rfl⟩
  | case2 s res node hsome ih =>
    intro s' h
    rw [mmapTreeRemoveLoop_of_some hsome,
      @mmapTreeRemoveLoop_of_some s' base size res node (h ▸ hsome)]
    apply ih
    unfold mmapTreeRemoveNode mmapTreeInsertChecked
    rw [← h]
    split_ifs <;> rfl

/-- The tree a mapping event leaves depends on the tree alone. -/
theorem mmapStep_congr (mmapWalk : MmapWalk) {s s' : State} (h : s.mmapTree = s'.mmapTree)
    (e : MmapEvent) :
    (mmapStep o mmapWalk s e).mmapTree = (mmapStep o mmapWalk s' e).mmapTree := by
  cases e with
  | mmap inHeapRoutine base size anon =>
    simp only [mmapStep, clientHandleMmap]
    split_ifs <;> first | exact h | exact mmapTreeAdd_congr (by exact h) _ _
  | munmap base size anon =>
    obtain ⟨ht, hr⟩ := mmapTreeRemoveLoop_congr base size s false h
    simp only [mmapStep, clientHandleMunmap, mmapTreeRemove, hr]
    split_ifs <;> exact ht
  | mremap oldBase oldSize newBase newSize image =>
    simp only [mmapStep, clientHandleMremap, mmapTreeRemove]
    split_ifs <;> apply mmapTreeAdd_congr <;>
      exact (mmapTreeRemoveLoop_congr _ _ _ _ (by exact h)).1

theorem mmapTreeAdd_asserts {s s' : State} (h : s.mmapTree = s'.mmapTree) (base size : Nat) :
    ∃ δ, (mmapTreeAdd s base size).asserts = s.asserts ++ δ ∧
      (mmapTreeAdd s' base size).asserts = s'.asserts ++ δ := by
  unfold mmapTreeAdd
  rw [← h]
  split
  · exact ⟨[], (List.append_nil _).symm, (List.append_nil _).symm⟩
  · simp only [assert_eq_append]
    exact ⟨_, rfl, rfl⟩

theorem mmapTreeRemoveNode_asserts {s s' : State} (h : s.mmapTree = s'.mmapTree) (base size : Nat)
    (node : RbNode Unit) :
    (mmapTreeRemoveNode s base size node).mmapTree = (mmapTreeRemoveNode s' base size node).mmapTree ∧
      ∃ δ, (mmapTreeRemoveNode s base size node).asserts = s.asserts ++ δ ∧
        (mmapTreeRemoveNode s' base size node).asserts = s'.asserts ++ δ := by
  unfold mmapTreeRemoveNode mmapTreeInsertChecked
  rw [← h]
  refine ⟨by split_ifs <;> rfl, ?_⟩
  split_ifs <;> simp only [assert_eq_append, List.append_assoc] <;>
    first
      | exact ⟨_, rfl, rfl⟩
      | exact ⟨[], (List.append_nil _).symm, (List.append_nil _).symm⟩

theorem mmapTreeRemoveLoop_asserts (base size : Nat) (s : State) (res : Bool) :
    ∀ {s' : State}, s.mmapTree = s'.mmapTree →
      ∃ δ, (mmapTreeRemoveLoop base size s res).1.asserts = s.asserts ++ δ ∧
        (mmapTreeRemoveLoop base size s' res).1.asserts = s'.asserts ++ δ := by
  induction s, res using mmapTreeRemoveLoop.induct base size with
  | case1 s res hnone =>
    intro s' h
    rw [mmapTreeRemoveLoop_of_none hnone, @mmapTreeRemoveLoop_of_none s' base size res (h ▸ hnone)]
    exact ⟨[], (List.append_nil _).symm, (List.append_nil _).symm⟩
  | case2 s res node hsome ih =>
    intro s' h
    rw [mmapTreeRemoveLoop_of_some hsome,
      @mmapTreeRemoveLoop_of_some s' base size res node (h ▸ hsome)]
    have hnode := mmapTreeRemoveNode_asserts h base size node
    exact append_same_trans hnode.2 (ih hnode.1)

/-- A mapping event appends to the log what `mmap_tree` alone decides. -/
theorem mmapStep_asserts (mmapWalk : MmapWalk) {s s' : State} (h : s.mmapTree = s'.mmapTree)
    (e : MmapEvent) :
    ∃ δ, (mmapStep o mmapWalk s e).asserts = s.asserts ++ δ ∧
      (mmapStep o mmapWalk s' e).asserts = s'.asserts ++ δ := by
  cases e with
  | mmap inHeapRoutine base size anon =>
    simp only [mmapStep, clientHandleMmap]
    split_ifs <;> first
      | exact ⟨[], (List.append_nil _).symm, (List.append_nil _).symm⟩
      | exact mmapTreeAdd_asserts (by exact h) _ _
  | munmap base size anon =>
    obtain ⟨δ, h1, h2⟩ := mmapTreeRemoveLoop_asserts base size s false h
    simp only [mmapStep, clientHandleMunmap, mmapTreeRemove,
      (mmapTreeRemoveLoop_congr base size s false h).2]
    split_ifs <;> exact ⟨δ, h1, h2⟩
  | mremap oldBase oldSize newBase newSize image =>
    have key : ∀ {t t' : State}, t.mmapTree = t'.mmapTree → ∃ δ,
        (mmapTreeAdd { (mmapTreeRemoveLoop oldBase oldSize t false).1 with
            asserts := assert (mmapTreeRemoveLoop oldBase oldSize t false).1.asserts
              ((mmapTreeRemoveLoop oldBase oldSize t false).2 = true)
              "for now assuming mremap is of anon regions only" } newBase newSize).asserts =
          t.asserts ++ δ ∧
        (mmapTreeAdd { (mmapTreeRemoveLoop oldBase oldSize t' false).1 with
            asserts := assert (mmapTreeRemoveLoop oldBase oldSize t' false).1.asserts
              ((mmapTreeRemoveLoop oldBase oldSize t' false).2 = true)
              "for now assuming mremap is of anon regions only" } newBase newSize).asserts =
          t'.asserts ++ δ := fun {t t'} ht => by
      obtain ⟨hr1, hr2⟩ := mmapTreeRemoveLoop_congr oldBase oldSize t false ht
      refine append_same_trans ?_ (mmapTreeAdd_asserts (by exact hr1) newBase newSize)
      simp only [assert_eq_append, hr2]
      exact append_same_trans (mmapTreeRemoveLoop_asserts oldBase oldSize t false ht) ⟨_, rfl, rfl⟩
    simp only [mmapStep, clientHandleMremap, mmapTreeRemove]
    split_ifs <;> (apply key; exact h)

/-- The record a signal event leaves depends on the record alone. -/
theorem threadStep_cpt (s s' : State) (c : ClientPerThread) (e : ThreadEvent) :
    (threadStep o (s, c) e).2 = (threadStep o (s', c) e).2 := by
  cases e with
  | signal => rfl
  | handler xsp => simp only [threadStep, atSignalHandler]; split_ifs <;> rfl
  | preSyscall xsp sc =>
    cases sc <;> simp only [threadStep, clientPreSyscall, registerHandler, sigaltstackPre] <;>
      (repeat' split) <;> rfl
  | postSyscall => rfl

/-- The table a signal event leaves depends on the table alone. -/
theorem threadStep_sighand {s s' : State} (h : s.sighandTable = s'.sighandTable)
    (c c' : ClientPerThread) (e : ThreadEvent) :
    (threadStep o (s, c) e).1.sighandTable = (threadStep o (s', c') e).1.sighandTable := by
  cases e with
  | signal => exact h
  | handler xsp => simp only [threadStep, atSignalHandler]; split_ifs <;> exact h
  | preSyscall xsp sc =>
    cases sc <;> simp only [threadStep, clientPreSyscall, registerHandler, sigaltstackPre, h] <;>
      (repeat' split) <;> first | rfl | exact h
  | postSyscall => exact h

end Reads

section Quarantine

variable {s s' : State}

theorem delayFreeTreeRemove_sameQuarantine (h : s.SameQuarantine s') (addr : Nat) :
    (delayFreeTreeRemove s addr).SameQuarantine (delayFreeTreeRemove s' addr) := by
  unfold delayFreeTreeRemove
  rw [← h.tree]
  split <;> exact ⟨h.list, h.head, h.fill, rfl, h.bytes⟩

theorem heapDestroySlot_sameQuarantine (h : s.SameQuarantine s') (heap i : Nat) :
    (heapDestroySlot heap s i).SameQuarantine (heapDestroySlot heap s' i) := by
  unfold heapDestroySlot
  rw [← h.list]
  split_ifs
  · have hr := delayFreeTreeRemove_sameQuarantine h (s.delayFreeList i).addr
    exact ⟨by simp only [delayFreeTreeRemove_delayFreeList, h.list], hr.head, hr.fill, hr.tree,
      hr.bytes⟩
  · exact h

theorem foldl_heapDestroySlot_sameQuarantine (h : s.SameQuarantine s') (heap : Nat) (l : List Nat) :
    (l.foldl (heapDestroySlot heap) s).SameQuarantine (l.foldl (heapDestroySlot heap) s') := by
  induction l generalizing s s' with
  | nil => exact h
  | cons i l ih => exact ih (heapDestroySlot_sameQuarantine h heap i)

theorem delayFreeTreeRemove_asserts (s : State) (addr : Nat) :
    (delayFreeTreeRemove s addr).asserts = s.asserts ++
      if (rbFind s.delayFreeTree addr).isSome then [] else ["delay_free_tree inconsistent"] := by
  unfold delayFreeTreeRemove
  split <;> simp_all

theorem heapDestroySlot_asserts (h : s.SameQuarantine s') (heap i : Nat) :
    ∃ δ, (heapDestroySlot heap s i).asserts = s.asserts ++ δ ∧
      (heapDestroySlot heap s' i).asserts = s'.asserts ++ δ := by
  unfold heapDestroySlot
  rw [← h.list]
  split_ifs
  · exact ⟨_, delayFreeTreeRemove_asserts _ _, by rw [delayFreeTreeRemove_asserts, h.tree]⟩
  · exact ⟨[], (List.append_nil _).symm, (List.append_nil _).symm⟩

theorem foldl_heapDestroySlot_asserts (h : s.SameQuarantine s') (heap : Nat) (l : List Nat) :
    ∃ δ, (l.foldl (heapDestroySlot heap) s).asserts = s.asserts ++ δ ∧
      (l.foldl (heapDestroySlot heap) s').asserts = s'.asserts ++ δ := by
  induction l generalizing s s' with
  | nil => exact ⟨[], (List.append_nil _).symm, (List.append_nil _).symm⟩
  | cons i l ih =>
    exact append_same_trans (heapDestroySlot_asserts h heap i) (ih (heapDestroySlot_sameQuarantine h heap i))

theorem delayFreeEnqueue_sameQuarantine (h : s.SameQuarantine s') (base size realBase heap : Nat) :
    (delayFreeEnqueue o s base size realBase heap).1.SameQuarantine
      (delayFreeEnqueue o s' base size realBase heap).1 := by
  simp only [delayFreeEnqueue, h.list, h.head, h.fill, h.tree, h.bytes]
  split_ifs <;> first
    | exact ⟨rfl, rfl, rfl, rfl, rfl⟩
    | (apply delayFreeTreeRemove_sameQuarantine; exact ⟨rfl, rfl, rfl, rfl, rfl⟩)

theorem delayFreeEnqueue_asserts (h : s.SameQuarantine s') (base size realBase heap : Nat) :
    ∃ δ, (delayFreeEnqueue o s base size realBase heap).1.asserts = s.asserts ++ δ ∧
      (delayFreeEnqueue o s' base size realBase heap).1.asserts = s'.asserts ++ δ := by
  simp only [delayFreeEnqueue, h.list, h.head, h.fill, h.tree, h.bytes]
  split_ifs <;>
    simp only [delayFreeTreeRemove_asserts, assert_eq_append, List.append_assoc] <;>
    first
      | exact ⟨_, rfl, rfl⟩
      | exact ⟨[], (List.append_nil _).symm, (List.append_nil _).symm⟩

/-- An allocator event appends to the log what the quarantine globals alone
decide. -/
theorem heapStep_asserts (h : s.SameQuarantine s') (e : HeapEvent) :
    ∃ δ, (heapStep o s e).asserts = s.asserts ++ δ ∧ (heapStep o s' e).asserts = s'.asserts ++ δ := by
  have hnil : ∃ δ, s.asserts = s.asserts ++ δ ∧ s'.asserts = s'.asserts ++ δ :=
    ⟨[], (List.append_nil _).symm, (List.append_nil _).symm⟩
  cases e with
  | malloc base size zeroed => rw [heapStep, heapStep, clientHandleMalloc_eq o s, clientHandleMalloc_eq o s']; exact hnil
  | realloc => rw [heapStep, heapStep, clientHandleRealloc_eq o s, clientHandleRealloc_eq o s']; exact hnil
  | free base size realBase heap =>
    simp only [heapStep, clientHandleFree]
    split_ifs <;> first
      | exact hnil
      | (apply delayFreeEnqueue_asserts; exact ⟨h.list, h.head, h.fill, h.tree, h.bytes⟩)
  | heapDestroy heap =>
    simp only [heapStep, clientHandleHeapDestroy, ← h.fill]
    exact foldl_heapDestroySlot_asserts h heap _

theorem heapStep_sameQuarantine (h : s.SameQuarantine s') (e : HeapEvent) :
    (heapStep o s e).SameQuarantine (heapStep o s' e) := by
  cases e with
  | malloc base size zeroed =>
    rw [heapStep, heapStep, clientHandleMalloc_eq o s, clientHandleMalloc_eq o s']
    exact ⟨h.list, h.head, h.fill, h.tree, h.bytes⟩
  | realloc =>
    rw [heapStep, heapStep, clientHandleRealloc_eq o s, clientHandleRealloc_eq o s']
    exact ⟨h.list, h.head, h.fill, h.tree, h.bytes⟩
  | free base size realBase heap =>
    simp only [heapStep, clientHandleFree]
    split_ifs <;> first
      | exact ⟨h.list, h.head, h.fill, h.tree, h.bytes⟩
      | (apply delayFreeEnqueue_sameQuarantine; exact ⟨h.list, h.head, h.fill, h.tree, h.bytes⟩)
  | heapDestroy heap =>
    simp only [heapStep, clientHandleHeapDestroy, ← h.fill]
    exact foldl_heapDestroySlot_sameQuarantine h heap _

end Quarantine

/-! ## The process -/

/-- One handler call of the process: an allocator event, a mapping event, or
an event of the signal code of thread `tid`. -/
inductive ProcEvent where
  | heap (e : HeapEvent)
  | mmap (e : MmapEvent)
  | thread (tid : Nat) (e : ThreadEvent)
deriving Repr, DecidableEq

/-- The process: the globals and the `client_per_thread_t` of every thread. -/
structure Proc where
  g : State
  cpts : Nat → ClientPerThread

/-- One handler call as one step: under the lock of what it updates, with
the two `mmap_tree_lock` sections of `client_handle_mremap` taken together. -/
def procStep (o : Options) (mmapWalk : MmapWalk) (p : Proc) : ProcEvent → Proc
  | .heap e => { p with g := heapStep o p.g e }
  | .mmap e => { p with g := mmapStep o mmapWalk p.g e }
  | .thread tid e =>
    let r := threadStep o (p.g, p.cpts tid) e
    { g := r.1, cpts := Function.update p.cpts tid r.2 }

/-- A run of the process: one serial order of the handler calls of every
thread. -/
def procRun (o : Options) (mmapWalk : MmapWalk) (p : Proc) (evs : List ProcEvent) : Proc :=
  evs.foldl (procStep o mmapWalk) p

/-- The allocator event of a call. -/
def ProcEvent.heapEvent : ProcEvent → Option HeapEvent
  | .heap e => some e
  | _ => none

/-- The mapping event of a call. -/
def ProcEvent.mmapEvent : ProcEvent → Option MmapEvent
  | .mmap e => some e
  | _ => none

/-- The signal event of a call, whichever thread made it. -/
def ProcEvent.signalEvent : ProcEvent → Option ThreadEvent
  | .thread _ e => some e
  | _ => none

/-- The signal event of a call of thread `tid`. -/
def ProcEvent.threadEvent (tid : Nat) : ProcEvent → Option ThreadEvent
  | .thread t e => if t = tid then some e else none
  | _ => none

section Run

variable (o : Options) (mmapWalk : MmapWalk)

theorem procRun_quarantine (evs : List ProcEvent) :
    ∀ (p : Proc) (s : State), p.g.SameQuarantine s →
      (procRun o mmapWalk p evs).g.SameQuarantine
        (heapRun o s (evs.filterMap ProcEvent.heapEvent)) := by
  induction evs with
  | nil => exact fun _ _ h => h
  | cons e evs ih =>
    intro p s h
    cases e with
    | heap e => exact ih _ _ (heapStep_sameQuarantine h e)
    | mmap e => exact ih _ _ ((mmapStep_keeps mmapWalk p.g e).1.trans h)
    | thread tid e => exact ih _ _ ((threadStep_keeps p.g (p.cpts tid) e).1.trans h)

theorem procRun_mmapTree (evs : List ProcEvent) :
    ∀ (p : Proc) (s : State), p.g.mmapTree = s.mmapTree →
      (procRun o mmapWalk p evs).g.mmapTree =
        (mmapRun o mmapWalk s (evs.filterMap ProcEvent.mmapEvent)).mmapTree := by
  induction evs with
  | nil => exact fun _ _ h => h
  | cons e evs ih =>
    intro p s h
    cases e with
    | heap e => exact ih _ _ ((heapStep_frame p.g e).1.trans h)
    | mmap e => exact ih _ _ (mmapStep_congr mmapWalk h e)
    | thread tid e => exact ih _ _ ((threadStep_keeps p.g (p.cpts tid) e).2.trans h)

theorem procRun_sighandTable (evs : List ProcEvent) :
    ∀ (p : Proc) (st : State × ClientPerThread), p.g.sighandTable = st.1.sighandTable →
      (procRun o mmapWalk p evs).g.sighandTable =
        (threadRun o st (evs.filterMap ProcEvent.signalEvent)).1.sighandTable := by
  induction evs with
  | nil => exact fun _ _ h => h
  | cons e evs ih =>
    intro p st h
    cases e with
    | heap e => exact ih _ _ ((heapStep_frame p.g e).2.trans h)
    | mmap e => exact ih _ _ ((mmapStep_keeps mmapWalk p.g e).2.trans h)
    | thread tid e => exact ih _ _ (threadStep_sighand h (p.cpts tid) st.2 e)

theorem procRun_cpt (tid : Nat) (evs : List ProcEvent) :
    ∀ (p : Proc) (st : State × ClientPerThread), p.cpts tid = st.2 →
      (procRun o mmapWalk p evs).cpts tid =
        (threadRun o st (evs.filterMap (ProcEvent.threadEvent tid))).2 := by
  induction evs with
  | nil => exact fun _ _ h => h
  | cons e evs ih =>
    intro p st h
    cases e with
    | heap e => exact ih _ _ h
    | mmap e => exact ih _ _ h
    | thread t e =>
      by_cases ht : t = tid
      · subst ht
        refine (ih _ (threadStep o st e) ?_).trans ?_
        · dsimp only [procStep]
          rw [Function.update_same, h, threadStep_cpt p.g st.1]
        · simp [ProcEvent.threadEvent]
      · refine (ih _ st ?_).trans ?_
        · dsimp only [procStep]
          rw [Function.update_noteq (Ne.symm ht), h]
        · simp [ProcEvent.threadEvent, ht]

theorem procRun_count {m : String} (hm : m ∉ mmapMessages) (ht : m ∉ signalMessages)
    (evs : List ProcEvent) : ∀ (p : Proc) (s : State), p.g.SameQuarantine s →
      (procRun o mmapWalk p evs).g.asserts.count m + s.asserts.count m =
        (heapRun o s (evs.filterMap ProcEvent.heapEvent)).asserts.count m + p.g.asserts.count m := by
  induction evs with
  | nil => exact fun _ _ _ => Nat.add_comm _ _
  | cons e evs ih =>
    intro p s h
    cases e with
    | heap e =>
      obtain ⟨δ, h1, h2⟩ := heapStep_asserts h e
      have := ih (procStep o mmapWalk p (.heap e)) _ (heapStep_sameQuarantine h e)
      have h1' : (procStep o mmapWalk p (.heap e)).g.asserts.count m =
          p.g.asserts.count m + δ.count m := by rw [← List.count_append, ← h1]; rfl
      rw [h1', h2, List.count_append] at this
      show (procRun o mmapWalk (procStep o mmapWalk p (.heap e)) evs).g.asserts.count m + _ =
        (heapRun o (heapStep o s e) (evs.filterMap ProcEvent.heapEvent)).asserts.count m + _
      omega
    | mmap e =>
      have := ih (procStep o mmapWalk p (.mmap e)) _ ((mmapStep_keeps mmapWalk p.g e).1.trans h)
      rwa [procStep, mmapStep_count hm] at this
    | thread tid e =>
      have := ih (procStep o mmapWalk p (.thread tid e)) _
        ((threadStep_keeps p.g (p.cpts tid) e).1.trans h)
      rwa [procStep, threadStep_count ht] at this

theorem procRun_mmapCount {m : String} (hh : m ∉ heapMessages) (ht : m ∉ signalMessages)
    (evs : List ProcEvent) : ∀ (p : Proc) (s : State), p.g.mmapTree = s.mmapTree →
      (procRun o mmapWalk p evs).g.asserts.count m + s.asserts.count m =
        (mmapRun o mmapWalk s (evs.filterMap ProcEvent.mmapEvent)).asserts.count m +
          p.g.asserts.count m := by
  induction evs with
  | nil => exact fun _ _ _ => Nat.add_comm _ _
  | cons e evs ih =>
    intro p s h
    cases e with
    | heap e =>
      have := ih (procStep o mmapWalk p (.heap e)) _ ((heapStep_frame p.g e).1.trans h)
      rwa [procStep, heapStep_count hh] at this
    | mmap e =>
      obtain ⟨δ, h1, h2⟩ := mmapStep_asserts mmapWalk h e
      have := ih (procStep o mmapWalk p (.mmap e)) _ (mmapStep_congr mmapWalk h e)
      have h1' : (procStep o mmapWalk p (.mmap e)).g.asserts.count m =
          p.g.asserts.count m + δ.count m := by rw [← List.count_append, ← h1]; rfl
      rw [h1', h2, List.count_append] at this
      show (procRun o mmapWalk (procStep o mmapWalk p (.mmap e)) evs).g.asserts.count m + _ =
        (mmapRun o mmapWalk (mmapStep o mmapWalk s e) (evs.filterMap ProcEvent.mmapEvent)).asserts.count m + _
      omega
    | thread tid e =>
      have := ih (procStep o mmapWalk p (.thread tid e)) _
        ((threadStep_keeps p.g (p.cpts tid) e).2.trans h)
      rwa [procStep, threadStep_count ht] at this

end Run

/-- Every interleaving of the handler calls of every thread leaves each
component as its own calls alone would: the quarantine globals and the
allocator's assertions as the allocator events alone, `mmap_tree` and the
mapping handlers' assertions as the mapping events alone, `sighand_table` as the signal events of all threads in
their order, and each thread's `client_per_thread_t` as that thread's own
signal events. -/
theorem procRun_isolation (o : Options) (mmapWalk : MmapWalk) (p : Proc) (evs : List ProcEvent) :
    (procRun o mmapWalk p evs).g.SameQuarantine (heapRun o p.g (evs.filterMap ProcEvent.heapEvent)) ∧
      (∀ m, m ∉ mmapMessages → m ∉ signalMessages →
        (procRun o mmapWalk p evs).g.asserts.count m =
          (heapRun o p.g (evs.filterMap ProcEvent.heapEvent)).asserts.count m) ∧
      (∀ m, m ∉ heapMessages → m ∉ signalMessages →
        (procRun o mmapWalk p evs).g.asserts.count m =
          (mmapRun o mmapWalk p.g (evs.filterMap ProcEvent.mmapEvent)).asserts.count m) ∧
      (procRun o mmapWalk p evs).g.mmapTree =
        (mmapRun o mmapWalk p.g (evs.filterMap ProcEvent.mmapEvent)).mmapTree ∧
      (∀ c, (procRun o mmapWalk p evs).g.sighandTable =
        (threadRun o (p.g, c) (evs.filterMap ProcEvent.signalEvent)).1.sighandTable) ∧
      ∀ tid, (procRun o mmapWalk p evs).cpts tid =
        (threadRun o (p.g, p.cpts tid) (evs.filterMap (ProcEvent.threadEvent tid))).2 :=
  ⟨procRun_quarantine o mmapWalk evs p p.g (.refl _),
    fun _ hm ht => Nat.add_right_cancel (procRun_count o mmapWalk hm ht evs p p.g (.refl _)),
    fun _ hh ht => Nat.add_right_cancel (procRun_mmapCount o mmapWalk hh ht evs p p.g rfl),
    procRun_mmapTree o mmapWalk evs p p.g rfl,
    fun c => procRun_sighandTable o mmapWalk evs p (p.g, c) rfl,
    fun tid => procRun_cpt o mmapWalk tid evs p _ rfl⟩

/-! ## The components' invariants over every interleaving -/

section Lift

variable {s s' : State}

theorem State.SameQuarantine.delayFreeQueue_eq (h : s.SameQuarantine s') :
    s.delayFreeQueue = s'.delayFreeQueue := by
  rw [State.delayFreeQueue, State.delayFreeQueue, h.list, h.head, h.fill]

theorem State.SameQuarantine.treeMirrors_iff (h : s.SameQuarantine s') :
    s.TreeMirrors ↔ s'.TreeMirrors := by
  rw [State.TreeMirrors, State.TreeMirrors, State.quarantineAddrs, State.quarantineAddrs, h.list,
    h.fill, h.tree]

end Lift

/-- With shadowing and delayed frees on, from the initial state, over every
interleaving of the allocator, mapping and signal calls of every thread, the
quarantine is the bounded FIFO of the allocator events alone; and when those
events respect the quarantine's guarantee and destroy no heap twice,
`delay_free_tree` mirrors `delay_free_list` and
`"delay_free_tree inconsistent"` is never reached. -/
theorem procRun_quarantine_consistent (o : Options)
    (hon : o.leaksOnly = false ∧ o.shadowing = true) (hc : 0 < o.delayFrees)
    (mmapWalk : MmapWalk) (cpts : Nat → ClientPerThread) (evs : List ProcEvent) :
    (procRun o mmapWalk ⟨State.init, cpts⟩ evs).g.delayFreeQueue =
        fifoRun o.delayFrees [] (evs.filterMap ProcEvent.heapEvent) ∧
      (QuarantineContract o State.init (evs.filterMap ProcEvent.heapEvent) →
        ((evs.filterMap ProcEvent.heapEvent).filterMap HeapEvent.destroyedHeap).Nodup →
        (procRun o mmapWalk ⟨State.init, cpts⟩ evs).g.TreeMirrors ∧
          "delay_free_tree inconsistent" ∉ (procRun o mmapWalk ⟨State.init, cpts⟩ evs).g.asserts) := by
  have hsame := procRun_quarantine o mmapWalk evs ⟨State.init, cpts⟩ State.init (.refl _)
  have hw : State.init.DelayFreeWf o.delayFrees := ⟨Nat.zero_le _, hc, fun _ => rfl⟩
  refine ⟨?_, fun hq hd => ?_⟩
  · rw [hsame.delayFreeQueue_eq, (heapRun_refines hon hc _ hw).2]
    rfl
  · obtain ⟨hm, hcount⟩ := heapRun_mirrors hon hc _ hw
      (show State.init.TreeMirrors from List.Perm.nil) (fun _ h => absurd h (Nat.not_lt_zero _)) hq
      (by rwa [List.append_nil])
    have hlog := procRun_count o mmapWalk (m := "delay_free_tree inconsistent")
      (by simp [mmapMessages]) (by simp [signalMessages]) evs ⟨State.init, cpts⟩ State.init (.refl _)
    refine ⟨hsame.treeMirrors_iff.2 hm, List.count_eq_zero.1 ?_⟩
    rw [hcount] at hlog
    simpa [State.init] using hlog

/-- Three frees into a quarantine of two, interleaved with an anonymous
mapping, a signal of thread 1 and a stray handler entry of thread 2: the
first block has left the queue, and only the signal code asserted. -/
theorem procRun_quarantine_consistent_interleaved :
    let o : Options := ⟨false, true, 2, 0, 0⟩
    let evs : List ProcEvent :=
      [.heap (.free 0x1000 0x10 0x1000 7), .mmap (.mmap 0 0x5000 0x1000 true),
        .thread 1 (.signal 0x7000), .heap (.free 0x2000 0x10 0x2000 7),
        .thread 2 (.handler 0x6000), .heap (.free 0x3000 0x10 0x3000 8)]
    ((o.leaksOnly = false ∧ o.shadowing = true) ∧ 0 < o.delayFrees) ∧
      (procRun o noWalk ⟨State.init, fun _ => ClientPerThread.init⟩ evs).g.delayFreeQueue =
        [(0x2000, 7), (0x3000, 8)] ∧
      (procRun o noWalk ⟨State.init, fun _ => ClientPerThread.init⟩ evs).g.TreeMirrors ∧
      "delay_free_tree inconsistent" ∉
        (procRun o noWalk ⟨State.init, fun _ => ClientPerThread.init⟩ evs).g.asserts := by
  intro o evs
  have h := procRun_quarantine_consistent o ⟨rfl, rfl⟩ (by decide) noWalk
    (fun _ => ClientPerThread.init) evs
  exact ⟨⟨⟨rfl, rfl⟩, by decide⟩, h.1.trans (by decide), h.2 (by decide) (by decide)⟩

/-- On Linux, from the initial state, over every interleaving whose mapping
events alone respect the kernel's contract, whatever allocator and signal
calls of any thread come between: the mapping handlers reach none of their
assertions, `mmap_tree` keeps its nodes apart and covers exactly the
anonymous addresses of those events, and `mmap_anon_lookup` finds a mapping
exactly at them. -/
theorem procRun_tracksAnon (o : Options) (mmapWalk : MmapWalk) (cpts : Nat → ClientPerThread)
    (evs : List ProcEvent) (hq : MmapContract (fun _ => false) (evs.filterMap ProcEvent.mmapEvent)) :
    (∀ m ∈ mmapMessages, m ∉ (procRun o mmapWalk ⟨State.init, cpts⟩ evs).g.asserts) ∧
    (procRun o mmapWalk ⟨State.init, cpts⟩ evs).g.TracksAnon
        (anonRun (fun _ => false) (evs.filterMap ProcEvent.mmapEvent)) ∧
      ∀ a, (mmapAnonLookup (procRun o mmapWalk ⟨State.init, cpts⟩ evs).g a).isSome =
        anonRun (fun _ => false) (evs.filterMap ProcEvent.mmapEvent) a := by
  have htree := procRun_mmapTree o mmapWalk evs ⟨State.init, cpts⟩ State.init rfl
  have ht0 : State.init.TracksAnon (fun _ => false) :=
    ⟨List.Pairwise.nil, fun a => by simp [State.init]⟩
  obtain ⟨ha, ht⟩ := mmapRun_tracksAnon o mmapWalk _ ht0 hq
  have ht' : (procRun o mmapWalk ⟨State.init, cpts⟩ evs).g.TracksAnon
      (anonRun (fun _ => false) (evs.filterMap ProcEvent.mmapEvent)) :=
    ⟨by rw [htree]; exact ht.apart, fun a => by rw [htree]; exact ht.covers a⟩
  refine ⟨fun m hm => ?_, ht', fun a => (ht'.lookup a).1⟩
  have hother : m ∉ heapMessages ∧ m ∉ signalMessages := by
    simp only [mmapMessages, List.mem_cons, List.mem_singleton, List.not_mem_nil, or_false] at hm
    rcases hm with rfl | rfl <;> simp [heapMessages, signalMessages]
  have hlog := procRun_mmapCount o mmapWalk hother.1 hother.2 evs ⟨State.init, cpts⟩ State.init rfl
  rw [ha] at hlog
  exact List.count_eq_zero.1 (by simpa using hlog)

/-- An anonymous mapping grown and moved, then half unmapped, with a malloc
and a signal between: no `"mmap tree error"`, and `mmap_anon_lookup` still
finds the moved half. -/
theorem procRun_tracksAnon_interleaved :
    let evs : List ProcEvent :=
      [.mmap (.mmap 0 0x10 0x10 true), .heap (.malloc 0x100 8 false),
        .mmap (.mremap 0x10 0x10 0x20 0x18 false), .thread 0 (.signal 0x7000),
        .mmap (.munmap 0x20 0x8 true)]
    MmapContract (fun _ => false) (evs.filterMap ProcEvent.mmapEvent) ∧
      "mmap tree error" ∉ (procRun mmapOptions noWalk ⟨State.init, fun _ => ClientPerThread.init⟩
        evs).g.asserts ∧
      (mmapAnonLookup (procRun mmapOptions noWalk ⟨State.init, fun _ => ClientPerThread.init⟩
        evs).g 0x30).isSome = true := by
  intro evs
  have hq : MmapContract (fun _ => false) (evs.filterMap ProcEvent.mmapEvent) := by decide
  have h := procRun_tracksAnon mmapOptions noWalk (fun _ => ClientPerThread.init) evs hq
  exact ⟨hq, h.1 _ (by simp [mmapMessages]), (h.2.2 0x30).trans (by decide)⟩

/-- With shadowing on, over every interleaving of the calls of every thread,
`sighand_table` stays free of duplicates and holds exactly the handlers it
held and those that some thread's system call registered. -/
theorem procRun_registered (o : Options) (hon : o.leaksOnly = false ∧ o.shadowing = true)
    (mmapWalk : MmapWalk) (evs : List ProcEvent) :
    ∀ p : Proc, p.g.sighandTable.Nodup →
      (procRun o mmapWalk p evs).g.sighandTable.Nodup ∧
        ∀ h, h ∈ (procRun o mmapWalk p evs).g.sighandTable ↔
          h ∈ p.g.sighandTable ∨
            h ∈ (evs.filterMap ProcEvent.signalEvent).filterMap ThreadEvent.registers := by
  induction evs with
  | nil => exact fun p hn => ⟨hn, fun h => by simp [procRun]⟩
  | cons e evs ih =>
    intro p hn
    cases e with
    | heap e =>
      have hkeep := (heapStep_frame (o := o) p.g e).2
      obtain ⟨hn', hm'⟩ := ih (procStep o mmapWalk p (.heap e)) (hkeep ▸ hn)
      exact ⟨hn', fun h => (hm' h).trans (by rw [procStep, hkeep]; rfl)⟩
    | mmap e =>
      have hkeep := (mmapStep_keeps (o := o) mmapWalk p.g e).2
      obtain ⟨hn', hm'⟩ := ih (procStep o mmapWalk p (.mmap e)) (hkeep ▸ hn)
      exact ⟨hn', fun h => (hm' h).trans (by rw [procStep, hkeep]; rfl)⟩
    | thread tid e =>
      obtain ⟨hn1, hm1⟩ := threadStep_sighandTable hon (p.g, p.cpts tid) e hn
      obtain ⟨hn2, hm2⟩ := ih (procStep o mmapWalk p (.thread tid e)) hn1
      refine ⟨hn2, fun h => (hm2 h).trans ?_⟩
      rw [show (procStep o mmapWalk p (.thread tid e)).g = (threadStep o (p.g, p.cpts tid) e).1
        from rfl, hm1]
      simp only [List.filterMap_cons, ProcEvent.signalEvent]
      cases e.registers <;> simp [or_assoc, eq_comm]

/-- Thread 1 registers a handler twice, thread 2 another between, with a
malloc among them. -/
theorem procRun_registered_two_threads :
    let evs : List ProcEvent :=
      [.thread 1 (.preSyscall 0x7ff0 (.rtSigaction (some 0x401000))),
        .heap (.malloc 0x100 8 false), .thread 2 (.preSyscall 0x6ff0 (.signal 0x402000)),
        .thread 1 (.preSyscall 0x7ff0 (.sigaction (some 0x401000)))]
    (signalOptions.leaksOnly = false ∧ signalOptions.shadowing = true) ∧
      (procRun signalOptions noWalk ⟨State.init, fun _ => ClientPerThread.init⟩
        evs).g.sighandTable.Nodup ∧
      0x402000 ∈ (procRun signalOptions noWalk ⟨State.init, fun _ => ClientPerThread.init⟩
        evs).g.sighandTable := by
  intro evs
  have h := procRun_registered signalOptions ⟨rfl, rfl⟩ noWalk evs
    ⟨State.init, fun _ => ClientPerThread.init⟩ List.nodup_nil
  exact ⟨⟨rfl, rfl⟩, h.1, (h.2 0x402000).2 (.inr (by decide))⟩

end DrMemory
