import DrMemory.State

/-!
# Allocator events

The heap half of `alloc_drmem.c`: `client_handle_malloc`,
`client_handle_realloc`, `client_handle_free` with its delayed-free FIFO,
`client_handle_heap_destroy` and `overlaps_delayed_free`.

Reports, leak bookkeeping and logging leave the modelled state alone and
are dropped; so are the parameters only they read (the machine context, the
`realloc` flag of a malloc, the new real base of a realloc). A run of the
allocation layer is a list of `HeapEvent`s folded with `heapStep`.

The delayed-free branch of `client_handle_free` is its own definition,
`delayFreeEnqueue`, and the tree lookup that it shares with the heap-destroy
sweep is `delayFreeTreeRemove`; the field lemmas after each definition say
which globals it leaves alone, so the later modules never unfold them.
-/

namespace DrMemory

/-- `client_handle_malloc`: a new block is defined if zeroed, else undefined. -/
def clientHandleMalloc (o : Options) (s : State) (base size : Nat) (zeroed : Bool) : State :=
  if !o.leaksOnly && o.shadowing then
    let val := if zeroed then ShadowVal.defined else .undefined
    { s with shadow := shadowSetRange s.shadow base (base + size) val }
  else s

/-- `client_handle_realloc`: copy the old block's shadow to the new block,
mark a grown tail undefined, then the parts of the old block before and
after the new one unaddressable (two independent tests). -/
def clientHandleRealloc (o : Options) (s : State) (oldBase oldSize newBase newSize : Nat) :
    State :=
  if !o.leaksOnly && o.shadowing then
    let sh := if newSize > oldSize then
        shadowSetRange (shadowCopyRange s.shadow oldBase newBase oldSize)
          (newBase + oldSize) (newBase + newSize) .undefined
      else shadowCopyRange s.shadow oldBase newBase newSize
    let sh := if newBase > oldBase then
        shadowSetRange sh oldBase
          (if newBase < oldBase + oldSize then newBase else oldBase + oldSize) .unaddressable
      else sh
    let sh := if newBase + newSize < oldBase + oldSize then
        shadowSetRange sh (if newBase + newSize < oldBase then oldBase else newBase + newSize)
          (oldBase + oldSize) .unaddressable
      else sh
    { s with shadow := sh }
  else s

/-- The lookup-and-delete of a passed-on address in `delay_free_tree`, with
its `ASSERT(false, "delay_free_tree inconsistent")` when the node is missing. -/
def delayFreeTreeRemove (s : State) (addr : Nat) : State :=
  match rbFind s.delayFreeTree addr with
  | some node => { s with delayFreeTree := rbDelete s.delayFreeTree node }
  | none => { s with asserts := s.asserts ++ ["delay_free_tree inconsistent"] }

/-- The delayed-free branch of `client_handle_free`: insert the real range
in `delay_free_tree`, then either fill the next slot and pass `NULL` on, or
overwrite the oldest slot and pass its address and heap on. -/
def delayFreeEnqueue (o : Options) (s : State) (base size realBase heap : Nat) :
    State × Nat × Nat :=
  let asserts := if base ≠ realBase then
      assert s.asserts ((base : Int) - realBase = o.redzoneSize) "redzone mismatch"
    else s.asserts
  let realSize := if base ≠ realBase then size + 2 * o.redzoneSize else size
  let s := { s with
    asserts := asserts
    delayFreeTree := (rbInsert s.delayFreeTree realBase realSize (decide (base = realBase))).1 }
  if s.delayFreeFill = o.delayFrees then
    let old := s.delayFreeList s.delayFreeHead
    let s := { s with
      delayFreeList := Function.update s.delayFreeList s.delayFreeHead ⟨realBase, heap, size⟩
      delayedFreeBytes := statsAdd (statsAdd s.delayedFreeBytes (-(old.size : Int))) size
      delayFreeHead := if s.delayFreeHead + 1 ≥ o.delayFrees then 0 else s.delayFreeHead + 1 }
    (if old.addr ≠ 0 then delayFreeTreeRemove s old.addr else s, old.addr, old.heap)
  else
    ({ s with
      asserts := assert s.asserts (s.delayFreeFill ≤ o.delayFrees - 1) "internal error"
      delayFreeList := Function.update s.delayFreeList s.delayFreeFill ⟨realBase, heap, size⟩
      delayedFreeBytes := statsAdd (statsAdd s.delayedFreeBytes size) size
      delayFreeFill := s.delayFreeFill + 1 }, 0, heap)

/-- `client_handle_free`: the state, the value to pass to `free()` and the
heap to pass with it (the Windows `INOUT` parameter). -/
def clientHandleFree (o : Options) (s : State) (base size realBase heap : Nat) :
    State × Nat × Nat :=
  let s := if !o.leaksOnly && o.shadowing then
      { s with shadow := shadowSetRange s.shadow base (base + size) .unaddressable }
    else s
  if !o.leaksOnly && o.shadowing && decide (0 < o.delayFrees) then
    delayFreeEnqueue o s base size realBase heap
  else (s, realBase, heap)

/-- One iteration of the sweep of `client_handle_heap_destroy`. -/
def heapDestroySlot (heap : Nat) (s : State) (i : Nat) : State :=
  if (s.delayFreeList i).heap = heap then
    let s := delayFreeTreeRemove s (s.delayFreeList i).addr
    let entry := { s.delayFreeList i with addr := 0 }
    { s with delayFreeList := Function.update s.delayFreeList i entry }
  else s

/-- `client_handle_heap_destroy`: invalidate in place every delayed free of
the destroyed heap among the filled slots. -/
def clientHandleHeapDestroy (s : State) (heap : Nat) : State :=
  (List.range s.delayFreeFill).foldl (heapDestroySlot heap) s

/-- `overlaps_delayed_free(start, end, &free_start, &free_end)`: the first
node of `delay_free_tree` that meets `[start, end)`, reported with its
redzones cut off unless the node's payload, read as `has_redzone`, is false
or the access misses the body. -/
def overlapsDelayedFree (o : Options) (s : State) (start stop : Nat) : Option (Nat × Nat) :=
  match rbOverlapsNode s.delayFreeTree start stop with
  | none => none
  | some node =>
    if node.client = false ∨
        (start < node.base + node.size - o.redzoneSize ∧ stop ≥ node.base + o.redzoneSize) then
      some (node.base + o.redzoneSize, node.base + node.size - o.redzoneSize)
    else none

/-! ## Runs of the allocation layer -/

/-- The heap events the allocation layer delivers to the handlers above. -/
inductive HeapEvent where
  | malloc (base size : Nat) (zeroed : Bool)
  | realloc (oldBase oldSize newBase newSize : Nat)
  | free (base size realBase heap : Nat)
  | heapDestroy (heap : Nat)
deriving Repr, DecidableEq

/-- One heap event on the state. -/
def heapStep (o : Options) (s : State) : HeapEvent → State
  | .malloc base size zeroed => clientHandleMalloc o s base size zeroed
  | .realloc oldBase oldSize newBase newSize => clientHandleRealloc o s oldBase oldSize newBase newSize
  | .free base size realBase heap => (clientHandleFree o s base size realBase heap).1
  | .heapDestroy heap => clientHandleHeapDestroy s heap

/-- A run of heap events. -/
def heapRun (o : Options) (s : State) (evs : List HeapEvent) : State :=
  evs.foldl (heapStep o) s

@[simp] theorem heapRun_nil (o : Options) (s : State) : heapRun o s [] = s := rfl

@[simp] theorem heapRun_append (o : Options) (s : State) (evs evs' : List HeapEvent) :
    heapRun o s (evs ++ evs') = heapRun o (heapRun o s evs) evs' :=
  List.foldl_append _ _ _ _

@[simp] theorem heapRun_cons (o : Options) (s : State) (e : HeapEvent) (evs : List HeapEvent) :
    heapRun o s (e :: evs) = heapRun o (heapStep o s e) evs := rfl

/-! ## What each handler leaves alone -/

section Frame

variable (s : State) (addr : Nat)

@[simp] theorem delayFreeTreeRemove_delayFreeList :
    (delayFreeTreeRemove s addr).delayFreeList = s.delayFreeList := by
  unfold delayFreeTreeRemove; split <;> rfl

@[simp] theorem delayFreeTreeRemove_delayFreeHead :
    (delayFreeTreeRemove s addr).delayFreeHead = s.delayFreeHead := by
  unfold delayFreeTreeRemove; split <;> rfl

@[simp] theorem delayFreeTreeRemove_delayFreeFill :
    (delayFreeTreeRemove s addr).delayFreeFill = s.delayFreeFill := by
  unfold delayFreeTreeRemove; split <;> rfl

@[simp] theorem delayFreeTreeRemove_delayedFreeBytes :
    (delayFreeTreeRemove s addr).delayedFreeBytes = s.delayedFreeBytes := by
  unfold delayFreeTreeRemove; split <;> rfl

@[simp] theorem delayFreeTreeRemove_shadow :
    (delayFreeTreeRemove s addr).shadow = s.shadow := by
  unfold delayFreeTreeRemove; split <;> rfl

end Frame

theorem clientHandleMalloc_eq (o : Options) (s : State) (base size : Nat) (zeroed : Bool) :
    clientHandleMalloc o s base size zeroed =
      { s with shadow := (clientHandleMalloc o s base size zeroed).shadow } := by
  unfold clientHandleMalloc; split <;> rfl

theorem clientHandleRealloc_eq (o : Options) (s : State) (oldBase oldSize newBase newSize : Nat) :
    clientHandleRealloc o s oldBase oldSize newBase newSize =
      { s with shadow := (clientHandleRealloc o s oldBase oldSize newBase newSize).shadow } := by
  unfold clientHandleRealloc; split <;> rfl

variable {o : Options} {s : State} {base size realBase heap : Nat}

/-- The full branch of the delayed free: the oldest slot is overwritten and
handed back, `head` advances and wraps. -/
theorem delayFreeEnqueue_of_full (base size realBase heap : Nat)
    (h : s.delayFreeFill = o.delayFrees) :
    let r := delayFreeEnqueue o s base size realBase heap
    r.1.delayFreeList = Function.update s.delayFreeList s.delayFreeHead ⟨realBase, heap, size⟩ ∧
    r.1.delayFreeHead =
      (if s.delayFreeHead + 1 ≥ o.delayFrees then 0 else s.delayFreeHead + 1) ∧
    r.1.delayFreeFill = s.delayFreeFill ∧
    r.2 = ((s.delayFreeList s.delayFreeHead).addr, (s.delayFreeList s.delayFreeHead).heap) := by
  simp only [delayFreeEnqueue, h, if_true]
  split <;> simp

/-- The filling branch of the delayed free: the next slot is written and
`NULL` goes back with the caller's heap. -/
theorem delayFreeEnqueue_of_not_full (base size realBase heap : Nat)
    (h : s.delayFreeFill ≠ o.delayFrees) :
    let r := delayFreeEnqueue o s base size realBase heap
    r.1.delayFreeList = Function.update s.delayFreeList s.delayFreeFill ⟨realBase, heap, size⟩ ∧
    r.1.delayFreeHead = s.delayFreeHead ∧
    r.1.delayFreeFill = s.delayFreeFill + 1 ∧
    r.2 = (0, heap) := by
  simp [delayFreeEnqueue, h]

/-- With shadowing and delayed frees on, `client_handle_free` is the shadow
write followed by the delayed free. -/
theorem clientHandleFree_of_delay (hon : o.leaksOnly = false ∧ o.shadowing = true)
    (hc : 0 < o.delayFrees) :
    clientHandleFree o s base size realBase heap =
      delayFreeEnqueue o { s with shadow := shadowSetRange s.shadow base (base + size) .unaddressable }
        base size realBase heap := by
  simp [clientHandleFree, hon, hc]

theorem clientHandleMalloc_shadow (hon : o.leaksOnly = false ∧ o.shadowing = true)
    (zeroed : Bool) :
    (clientHandleMalloc o s base size zeroed).shadow =
      shadowSetRange s.shadow base (base + size) (if zeroed then .defined else .undefined) := by
  simp [clientHandleMalloc, hon]

theorem delayFreeEnqueue_shadow :
    (delayFreeEnqueue o s base size realBase heap).1.shadow = s.shadow := by
  simp only [delayFreeEnqueue]
  split_ifs <;> simp

/-- With shadowing on, a free makes the block unaddressable and touches no
other byte of the shadow. -/
theorem clientHandleFree_shadow (hon : o.leaksOnly = false ∧ o.shadowing = true) :
    (clientHandleFree o s base size realBase heap).1.shadow =
      shadowSetRange s.shadow base (base + size) .unaddressable := by
  simp only [clientHandleFree, hon, Bool.not_false, Bool.true_and, if_true]
  split_ifs <;> simp [delayFreeEnqueue_shadow]

/-- A sweep writes only the list, the tree and the assertion log. -/
theorem foldl_heapDestroySlot_frame (l : List Nat) :
    ∃ list tree asserts, l.foldl (heapDestroySlot heap) s =
      { s with delayFreeList := list, delayFreeTree := tree, asserts := asserts } := by
  induction l generalizing s with
  | nil => exact ⟨_, _, _, rfl⟩
  | cons i l ih =>
    have hstep : ∃ list tree asserts, heapDestroySlot heap s i =
        { s with delayFreeList := list, delayFreeTree := tree, asserts := asserts } := by
      unfold heapDestroySlot delayFreeTreeRemove
      split
      · split <;> exact ⟨_, _, _, rfl⟩
      · exact ⟨_, _, _, rfl⟩
    obtain ⟨_, _, _, h1⟩ := hstep
    obtain ⟨_, _, _, h2⟩ := @ih (heapDestroySlot heap s i)
    rw [List.foldl_cons, h2, h1]
    exact ⟨_, _, _, rfl⟩

theorem foldl_heapDestroySlot_shadow (l : List Nat) :
    (l.foldl (heapDestroySlot heap) s).shadow = s.shadow := by
  obtain ⟨_, _, _, h⟩ := @foldl_heapDestroySlot_frame s heap l
  rw [h]

theorem heapDestroySlot_delayFreeList (i j : Nat) :
    (heapDestroySlot heap s i).delayFreeList j =
      if j = i ∧ (s.delayFreeList i).heap = heap then { s.delayFreeList i with addr := 0 }
      else s.delayFreeList j := by
  unfold heapDestroySlot
  by_cases hh : (s.delayFreeList i).heap = heap <;> by_cases hj : j = i <;>
    simp [hh, hj, Function.update_noteq]

/-- The sweep over the first `n` slots invalidates exactly those of the heap. -/
theorem foldl_heapDestroySlot_delayFreeList (n j : Nat) :
    ((List.range n).foldl (heapDestroySlot heap) s).delayFreeList j =
      if j < n ∧ (s.delayFreeList j).heap = heap then { s.delayFreeList j with addr := 0 }
      else s.delayFreeList j := by
  induction n generalizing j with
  | zero => simp
  | succ n ih =>
    rw [List.range_succ, List.foldl_append, List.foldl_cons, List.foldl_nil,
      heapDestroySlot_delayFreeList, ih, ih]
    by_cases hj : j = n
    · subst hj; simp
    · have hlt : j < n ↔ j < n + 1 := by omega
      simp only [hj, false_and, if_false, hlt]

theorem foldl_heapDestroySlot_head_fill (l : List Nat) :
    (l.foldl (heapDestroySlot heap) s).delayFreeHead = s.delayFreeHead ∧
    (l.foldl (heapDestroySlot heap) s).delayFreeFill = s.delayFreeFill := by
  obtain ⟨_, _, _, h⟩ := @foldl_heapDestroySlot_frame s heap l
  rw [h]
  exact ⟨rfl, rfl⟩

/-- `client_handle_heap_destroy` invalidates the filled slots of the heap and
leaves `head` and `fill`. -/
theorem clientHandleHeapDestroy_spec (s : State) (heap j : Nat) :
    (clientHandleHeapDestroy s heap).delayFreeList j =
      (if j < s.delayFreeFill ∧ (s.delayFreeList j).heap = heap then
        { s.delayFreeList j with addr := 0 } else s.delayFreeList j) ∧
    (clientHandleHeapDestroy s heap).delayFreeHead = s.delayFreeHead ∧
    (clientHandleHeapDestroy s heap).delayFreeFill = s.delayFreeFill :=
  ⟨foldl_heapDestroySlot_delayFreeList _ _, foldl_heapDestroySlot_head_fill _⟩

end DrMemory
