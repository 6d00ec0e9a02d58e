import DrMemory.Alloc

/-!
# The delayed-free list is a bounded FIFO

`delay_free_list` with `delay_free_head` and `delay_free_fill` encodes a
FIFO of capacity `c = options.delay_frees` of `(real_base, heap)` pairs: the
live slots are `head..fill` followed by `0..head`, oldest first
(`State.delayFreeQueue`). The specification's FIFO is `fifoFree` and
`fifoSweep`; this module proves that the C code refines it, step by step
and then over every run of heap events (`heapRun_refines`), and reads off
what every free returns: `NULL` for the first `c` frees, afterwards the
block freed `c` frees earlier, with a `NULL` address if a heap-destroy
sweep of its heap came in between.
-/

namespace DrMemory

/-! ## The specification's FIFO -/

/-- A free on the FIFO of capacity `c`: the new queue, and the address and
heap to pass to the real `free()`. -/
def fifoFree (c : Nat) (q : List (Nat × Nat)) (e : Nat × Nat) : List (Nat × Nat) × Nat × Nat :=
  if q.length < c then (q ++ [e], 0, e.2) else (q.tail ++ [e], q.headD (0, e.2))

/-- A heap-destroy sweep: the entries of the heap stay in place with a `NULL`
address. -/
def fifoSweep (heap : Nat) (q : List (Nat × Nat)) : List (Nat × Nat) :=
  q.map fun e => if e.2 = heap then (0, e.2) else e

/-- A heap event on the FIFO. -/
def fifoStep (c : Nat) (q : List (Nat × Nat)) : HeapEvent → List (Nat × Nat)
  | .free _ _ realBase heap => (fifoFree c q (realBase, heap)).1
  | .heapDestroy heap => fifoSweep heap q
  | _ => q

/-- A run of heap events on the FIFO. -/
def fifoRun (c : Nat) (q : List (Nat × Nat)) (evs : List HeapEvent) : List (Nat × Nat) :=
  evs.foldl (fifoStep c) q

/-- The event is a free. -/
def HeapEvent.isFree : HeapEvent → Bool
  | .free .. => true
  | _ => false

/-- The number of frees of a run. -/
def countFrees (evs : List HeapEvent) : Nat := evs.countP HeapEvent.isFree

@[simp] theorem countFrees_nil : countFrees [] = 0 := rfl

theorem countFrees_cons (e : HeapEvent) (evs : List HeapEvent) :
    countFrees (e :: evs) = countFrees evs + if e.isFree then 1 else 0 := by
  simp [countFrees, List.countP_cons]

@[simp] theorem countFrees_cons_free (base size realBase heap : Nat) (evs : List HeapEvent) :
    countFrees (.free base size realBase heap :: evs) = countFrees evs + 1 := by
  simp [countFrees_cons, HeapEvent.isFree]

@[simp] theorem countFrees_cons_heapDestroy (heap : Nat) (evs : List HeapEvent) :
    countFrees (.heapDestroy heap :: evs) = countFrees evs := by
  simp [countFrees_cons, HeapEvent.isFree]

@[simp] theorem countFrees_cons_malloc (base size : Nat) (zeroed : Bool) (evs : List HeapEvent) :
    countFrees (.malloc base size zeroed :: evs) = countFrees evs := by
  simp [countFrees_cons, HeapEvent.isFree]

@[simp] theorem countFrees_cons_realloc (oldBase oldSize newBase newSize : Nat)
    (evs : List HeapEvent) :
    countFrees (.realloc oldBase oldSize newBase newSize :: evs) = countFrees evs := by
  simp [countFrees_cons, HeapEvent.isFree]

/-! ## The array encodes the FIFO -/

/-- What slot `i` holds, as the FIFO sees it. -/
def slotView (list : Nat → DelayFree) (i : Nat) : Nat × Nat := ((list i).addr, (list i).heap)

/-- The FIFO that the array encodes, oldest first: slots `head..fill`, then
slots `0..head`. -/
def State.delayFreeQueue (s : State) : List (Nat × Nat) :=
  (List.range' s.delayFreeHead (s.delayFreeFill - s.delayFreeHead) ++
      List.range s.delayFreeHead).map (slotView s.delayFreeList)

/-- The indices stay in range for a FIFO of capacity `c`: `fill ≤ c`,
`head < c`, and `head = 0` until the FIFO is full. -/
structure State.DelayFreeWf (c : Nat) (s : State) : Prop where
  fill_le : s.delayFreeFill ≤ c
  head_lt : s.delayFreeHead < c
  head_eq_zero : s.delayFreeFill < c → s.delayFreeHead = 0

theorem map_slotView_update {list : Nat → DelayFree} {j : Nat} (v : DelayFree) {l : List Nat}
    (h : j ∉ l) : l.map (slotView (Function.update list j v)) = l.map (slotView list) :=
  List.map_congr_left fun i hi => by
    simp [slotView, Function.update_noteq (ne_of_mem_of_not_mem hi h)]

section Refinement

variable {o : Options} {s : State} {base size realBase heap : Nat}

theorem State.DelayFreeWf.head_le_fill {c : Nat} (hw : s.DelayFreeWf c) :
    s.delayFreeHead ≤ s.delayFreeFill := by
  by_cases h : s.delayFreeFill < c
  · simp [hw.head_eq_zero h]
  · have := hw.head_lt; omega

theorem State.DelayFreeWf.of_indices {c : Nat} {s' : State} (hw : s.DelayFreeWf c)
    (hh : s'.delayFreeHead = s.delayFreeHead) (hf : s'.delayFreeFill = s.delayFreeFill) :
    s'.DelayFreeWf c :=
  ⟨hf ▸ hw.fill_le, hh ▸ hw.head_lt, by rw [hh, hf]; exact hw.head_eq_zero⟩

theorem delayFreeQueue_length {c : Nat} (hw : s.DelayFreeWf c) :
    s.delayFreeQueue.length = s.delayFreeFill := by
  have := hw.head_le_fill
  simp [State.delayFreeQueue]; omega

/-- In a full FIFO the oldest entry is slot `head`, followed by
`head + 1..c` and `0..head`. -/
theorem delayFreeQueue_of_full {c : Nat} (hw : s.DelayFreeWf c) (hfull : s.delayFreeFill = c) :
    s.delayFreeQueue = slotView s.delayFreeList s.delayFreeHead ::
      (List.range' (s.delayFreeHead + 1) (c - (s.delayFreeHead + 1)) ++
        List.range s.delayFreeHead).map (slotView s.delayFreeList) := by
  have : c - s.delayFreeHead = c - (s.delayFreeHead + 1) + 1 := by have := hw.head_lt; omega
  simp [State.delayFreeQueue, hfull, this, List.range'_succ]

/-- Overwriting slot `head` of a full FIFO and advancing `head` with wrap
moves that slot to the back: both results of the wrap test give these
indices. -/
theorem range_after_advance {c head : Nat} (h : head < c) :
    List.range' (if head + 1 ≥ c then 0 else head + 1) (c - if head + 1 ≥ c then 0 else head + 1) ++
        List.range (if head + 1 ≥ c then 0 else head + 1) =
      List.range' (head + 1) (c - (head + 1)) ++ List.range head ++ [head] := by
  split_ifs with hw
  · obtain rfl : c = head + 1 := by omega
    simp [← List.range_eq_range', List.range_succ]
  · simp [List.range_succ]

/-- Both branches of the delayed free refine `fifoFree`. -/
theorem delayFreeEnqueue_refines (hw : s.DelayFreeWf o.delayFrees) :
    (delayFreeEnqueue o s base size realBase heap).1.DelayFreeWf o.delayFrees ∧
      ((delayFreeEnqueue o s base size realBase heap).1.delayFreeQueue,
        (delayFreeEnqueue o s base size realBase heap).2) =
        fifoFree o.delayFrees s.delayFreeQueue (realBase, heap) := by
  have hlen := delayFreeQueue_length hw
  have hlt := hw.head_lt
  by_cases hfull : s.delayFreeFill = o.delayFrees
  · obtain ⟨hl, hh, hf, hr⟩ := delayFreeEnqueue_of_full base size realBase heap hfull
    generalize delayFreeEnqueue o s base size realBase heap = r at hl hh hf hr ⊢
    refine ⟨⟨by omega, by split_ifs at hh <;> omega, fun _ => by omega⟩, ?_⟩
    rw [fifoFree, if_neg (by omega), delayFreeQueue_of_full hw hfull, State.delayFreeQueue, hf,
      hh, hfull, range_after_advance hlt, hl, hr]
    have h1 : s.delayFreeHead ∉ List.range' (s.delayFreeHead + 1)
        (o.delayFrees - (s.delayFreeHead + 1)) := by simp
    have h2 : s.delayFreeHead ∉ List.range s.delayFreeHead := by simp
    simp [map_slotView_update _ h1, map_slotView_update _ h2, slotView]
  · obtain ⟨hl, hh, hf, hr⟩ := delayFreeEnqueue_of_not_full base size realBase heap hfull
    generalize delayFreeEnqueue o s base size realBase heap = r at hl hh hf hr ⊢
    have hlt' : s.delayFreeFill < o.delayFrees := lt_of_le_of_ne hw.fill_le hfull
    have h0 := hw.head_eq_zero hlt'
    refine ⟨⟨by omega, by omega, fun _ => by omega⟩, ?_⟩
    rw [fifoFree, if_pos (by omega), State.delayFreeQueue, State.delayFreeQueue, hl, hh, hf, hr,
      h0]
    have hnot : s.delayFreeFill ∉ List.range' 0 s.delayFreeFill := by simp
    simp [List.range'_concat, map_slotView_update _ hnot, slotView]

/-- The heap-destroy sweep refines `fifoSweep`. -/
theorem clientHandleHeapDestroy_refines {c : Nat} (hw : s.DelayFreeWf c) :
    (clientHandleHeapDestroy s heap).DelayFreeWf c ∧
      (clientHandleHeapDestroy s heap).delayFreeQueue = fifoSweep heap s.delayFreeQueue := by
  have hspec := clientHandleHeapDestroy_spec s heap
  have hle := hw.head_le_fill
  refine ⟨⟨by rw [(hspec 0).2.2]; exact hw.fill_le, by rw [(hspec 0).2.1]; exact hw.head_lt,
    by rw [(hspec 0).2.1, (hspec 0).2.2]; exact hw.head_eq_zero⟩, ?_⟩
  simp only [State.delayFreeQueue, fifoSweep, (hspec 0).2.1, (hspec 0).2.2, List.map_map]
  refine List.map_congr_left fun i hi => ?_
  have hi' : i < s.delayFreeFill := by simp at hi; omega
  by_cases hh : (s.delayFreeList i).heap = heap <;> simp [slotView, (hspec i).1, hi', hh]

/-- With shadowing and delayed frees on, a free refines `fifoFree`. -/
theorem clientHandleFree_refines (base size realBase heap : Nat)
    (hon : o.leaksOnly = false ∧ o.shadowing = true) (hc : 0 < o.delayFrees)
    (hw : s.DelayFreeWf o.delayFrees) :
    (clientHandleFree o s base size realBase heap).1.DelayFreeWf o.delayFrees ∧
      ((clientHandleFree o s base size realBase heap).1.delayFreeQueue,
        (clientHandleFree o s base size realBase heap).2) =
        fifoFree o.delayFrees s.delayFreeQueue (realBase, heap) := by
  rw [clientHandleFree_of_delay hon hc]
  exact delayFreeEnqueue_refines (hw.of_indices rfl rfl)

/-- Every heap event refines the FIFO step. -/
theorem heapStep_refines (hon : o.leaksOnly = false ∧ o.shadowing = true)
    (hc : 0 < o.delayFrees) (hw : s.DelayFreeWf o.delayFrees) (e : HeapEvent) :
    (heapStep o s e).DelayFreeWf o.delayFrees ∧
      (heapStep o s e).delayFreeQueue = fifoStep o.delayFrees s.delayFreeQueue e := by
  cases e with
  | malloc base size zeroed =>
    rw [heapStep, clientHandleMalloc_eq]; exact ⟨hw.of_indices rfl rfl, rfl⟩
  | realloc oldBase oldSize newBase newSize =>
    rw [heapStep, clientHandleRealloc_eq]; exact ⟨hw.of_indices rfl rfl, rfl⟩
  | free base size realBase heap =>
    obtain ⟨hw', hq⟩ := clientHandleFree_refines base size realBase heap hon hc hw
    exact ⟨hw', congrArg Prod.fst hq⟩
  | heapDestroy heap => exact clientHandleHeapDestroy_refines hw

/-- Over every run of heap events the array stays a valid encoding of the
FIFO that the specification's run computes. -/
theorem heapRun_refines (hon : o.leaksOnly = false ∧ o.shadowing = true)
    (hc : 0 < o.delayFrees) (evs : List HeapEvent) (hw : s.DelayFreeWf o.delayFrees) :
    (heapRun o s evs).DelayFreeWf o.delayFrees ∧
      (heapRun o s evs).delayFreeQueue = fifoRun o.delayFrees s.delayFreeQueue evs := by
  induction evs generalizing s with
  | nil => exact ⟨hw, rfl⟩
  | cons e evs ih =>
    obtain ⟨hw', hq⟩ := heapStep_refines hon hc hw e
    rw [heapRun_cons, fifoRun, List.foldl_cons, ← hq]
    exact ih hw'

end Refinement

/-! ## What the specification's FIFO hands back -/

section Fifo

variable {c : Nat}

/-- An entry after the sweeps of `evs`: its address is `NULL` once a sweep
of its heap has passed. -/
def sweptBy (evs : List HeapEvent) (e : Nat × Nat) : Nat × Nat :=
  if HeapEvent.heapDestroy e.2 ∈ evs then (0, e.2) else e

theorem fifoStep_length (hc : 0 < c) {q : List (Nat × Nat)} (hq : q.length ≤ c)
    (e : HeapEvent) : (fifoStep c q e).length = min (q.length + if e.isFree then 1 else 0) c := by
  cases e with
  | free b sz rb h =>
    simp only [fifoStep, fifoFree, HeapEvent.isFree, if_true]
    split_ifs with h1
    · rw [List.length_append, List.length_singleton]; omega
    · rw [List.length_append, List.length_tail, List.length_singleton]; omega
  | heapDestroy h =>
    simp only [fifoStep, fifoSweep, HeapEvent.isFree, List.length_map, Bool.false_eq_true,
      if_false]; omega
  | malloc => simp only [fifoStep, HeapEvent.isFree, Bool.false_eq_true, if_false]; omega
  | realloc => simp only [fifoStep, HeapEvent.isFree, Bool.false_eq_true, if_false]; omega

/-- A FIFO of at most `c` entries holds `min (length + frees) c` after a run. -/
theorem fifoRun_length (hc : 0 < c) (evs : List HeapEvent) (q : List (Nat × Nat))
    (hq : q.length ≤ c) : (fifoRun c q evs).length = min (q.length + countFrees evs) c := by
  induction evs generalizing q with
  | nil => simp [fifoRun]; omega
  | cons e evs ih =>
    have h1 := fifoStep_length hc hq e
    rw [fifoRun, List.foldl_cons, ← fifoRun, ih _ (by omega), h1, countFrees_cons]
    omega

/-- The sweeps of `evs` after those of one event: an entry is swept once
either sweeps its heap. -/
theorem sweptBy_cons (ev : HeapEvent) (evs : List HeapEvent) (e : Nat × Nat) :
    sweptBy evs (sweptBy [ev] e) = sweptBy (ev :: evs) e := by
  by_cases h1 : HeapEvent.heapDestroy e.2 ∈ evs <;> by_cases h2 : ev = .heapDestroy e.2 <;>
    simp [sweptBy, h1, h2, eq_comm]

/-- One event on a FIFO with room for its free keeps an entry in place: a
free puts one more entry behind it, a sweep of its heap clears its
address. -/
theorem fifoStep_tracks (ev : HeapEvent) {front back : List (Nat × Nat)} {e : Nat × Nat}
    (hlen : (front ++ e :: back).length ≤ c)
    (hroom : back.length + (if ev.isFree then 1 else 0) < c) :
    ∃ front' back', fifoStep c (front ++ e :: back) ev = front' ++ sweptBy [ev] e :: back' ∧
      back'.length = back.length + if ev.isFree then 1 else 0 := by
  cases ev with
  | free b sz rb h =>
    have hsw : sweptBy [.free b sz rb h] e = e := by simp [sweptBy]
    simp only [fifoStep, fifoFree, hsw, HeapEvent.isFree, if_true] at hroom ⊢
    split_ifs with hfull
    · exact ⟨front, back ++ [(rb, h)], by simp, by simp⟩
    · obtain _ | ⟨f, front⟩ := front
      · simp at hlen hfull; omega
      · exact ⟨front, back ++ [(rb, h)], by simp, by simp⟩
  | heapDestroy h =>
    refine ⟨fifoSweep h front, fifoSweep h back, ?_, by simp [fifoSweep, HeapEvent.isFree]⟩
    by_cases he : e.2 = h <;> simp [fifoStep, fifoSweep, sweptBy, he, Ne.symm]
  | malloc => exact ⟨front, back, by simp [fifoStep, sweptBy], by simp [HeapEvent.isFree]⟩
  | realloc => exact ⟨front, back, by simp [fifoStep, sweptBy], by simp [HeapEvent.isFree]⟩

/-- An entry with `back` younger entries behind it survives a run with fewer
than `c - back` frees, gains one younger entry per free, and takes every
sweep of its heap. -/
theorem fifoRun_tracks (evs : List HeapEvent) :
    ∀ (front back : List (Nat × Nat)) (e : Nat × Nat), (front ++ e :: back).length ≤ c →
      back.length + countFrees evs < c →
      ∃ front' back', fifoRun c (front ++ e :: back) evs = front' ++ sweptBy evs e :: back' ∧
        back'.length = back.length + countFrees evs := by
  induction evs with
  | nil => exact fun front back e _ _ => ⟨front, back, by simp [fifoRun, sweptBy]⟩
  | cons ev evs ih =>
    intro front back e hlen hfree
    rw [countFrees_cons] at hfree
    obtain ⟨f1, b1, h1, l1⟩ := fifoStep_tracks ev hlen (by omega)
    have hlen1 : (f1 ++ sweptBy [ev] e :: b1).length ≤ c := by
      rw [← h1, fifoStep_length (by omega) hlen]
      exact min_le_right _ _
    obtain ⟨f2, b2, h2, l2⟩ := ih f1 b1 _ hlen1 (by omega)
    refine ⟨f2, b2, ?_, by rw [l2, l1, countFrees_cons]; omega⟩
    rw [fifoRun, List.foldl_cons, ← fifoRun, h1, h2, sweptBy_cons]

/-- After a free and `c - 1` further frees, the block of that free is at the
head of a full FIFO, swept as the run in between demands. -/
theorem fifoRun_head_after (hc : 0 < c) (pre mid : List HeapEvent) (b sz rb h : Nat)
    (hmid : countFrees mid + 1 = c) :
    ∃ rest, fifoRun c [] (pre ++ .free b sz rb h :: mid) = sweptBy mid (rb, h) :: rest ∧
      rest.length + 1 = c := by
  have hpre := fifoRun_length hc pre [] (by simp)
  obtain ⟨front, hstep, hfront⟩ : ∃ front, fifoStep c (fifoRun c [] pre) (.free b sz rb h) =
      front ++ [(rb, h)] ∧ front.length + 1 ≤ c := by
    simp only [fifoStep, fifoFree]
    split_ifs with hq
    · exact ⟨_, rfl, by omega⟩
    · exact ⟨_, rfl, by rw [List.length_tail]; simp at hpre; omega⟩
  have hrun : fifoRun c [] (pre ++ .free b sz rb h :: mid) =
      fifoRun c (front ++ [(rb, h)]) mid := by
    simp only [fifoRun, List.foldl_append, List.foldl_cons] at hstep ⊢
    rw [hstep]
  obtain ⟨f', b', h1, h2⟩ := fifoRun_tracks mid front [] (rb, h) (by simpa using hfront)
    (by simp; omega)
  have hall := fifoRun_length hc mid (front ++ [(rb, h)]) (by simpa using hfront)
  rw [h1] at hall
  have hf' : f' = [] := List.eq_nil_of_length_eq_zero (by simp at hall h2; omega)
  exact ⟨b', by rw [hrun, h1, hf']; rfl, by simp at h2; omega⟩

end Fifo

/-- With shadowing on and `delay_frees = c > 0`, from an empty delayed-free
list, over every run of heap events the array stays a valid encoding of the
specification's FIFO; a free with fewer than `c` frees before it passes
`NULL` to `free()` with the caller's heap; and a free with exactly `c - 1`
frees between it and an earlier free passes that earlier block's real base
and heap on, with a `NULL` base if a sweep of its heap came in between. -/
theorem delayFree_fifo (o : Options) (hon : o.leaksOnly = false ∧ o.shadowing = true)
    (hc : 0 < o.delayFrees) (s : State) (hs : s.delayFreeHead = 0 ∧ s.delayFreeFill = 0) :
    (∀ evs, (heapRun o s evs).DelayFreeWf o.delayFrees ∧
      (heapRun o s evs).delayFreeQueue = fifoRun o.delayFrees [] evs) ∧
    (∀ evs base size realBase heap, countFrees evs < o.delayFrees →
      (clientHandleFree o (heapRun o s evs) base size realBase heap).2 = (0, heap)) ∧
    (∀ pre mid b sz rb h base size realBase heap, countFrees mid + 1 = o.delayFrees →
      (clientHandleFree o (heapRun o s (pre ++ .free b sz rb h :: mid))
        base size realBase heap).2 = (if HeapEvent.heapDestroy h ∈ mid then 0 else rb, h)) := by
  have hw : s.DelayFreeWf o.delayFrees := ⟨by omega, by omega, fun _ => hs.1⟩
  have hq : s.delayFreeQueue = [] := by simp [State.delayFreeQueue, hs]
  have hrun : ∀ evs, (heapRun o s evs).DelayFreeWf o.delayFrees ∧
      (heapRun o s evs).delayFreeQueue = fifoRun o.delayFrees [] evs := fun evs => by
    rw [← hq]; exact heapRun_refines hon hc evs hw
  have hout : ∀ evs base size realBase heap,
      (clientHandleFree o (heapRun o s evs) base size realBase heap).2 =
        (fifoFree o.delayFrees (fifoRun o.delayFrees [] evs) (realBase, heap)).2 :=
      fun evs base size realBase heap => by
    rw [← (hrun evs).2]
    exact congrArg Prod.snd (clientHandleFree_refines base size realBase heap hon hc (hrun evs).1).2
  refine ⟨hrun, fun evs base size realBase heap hlt => ?_, fun pre mid b sz rb h base size realBase
    heap hmid => ?_⟩
  · have hlen := fifoRun_length hc evs [] (by simp)
    rw [hout, fifoFree, if_pos (by simp at hlen; omega)]
  · obtain ⟨rest, hq', hlen⟩ := fifoRun_head_after hc pre mid b sz rb h hmid
    rw [hout, hq', fifoFree, if_neg (by simp; omega)]
    by_cases hd : HeapEvent.heapDestroy h ∈ mid <;> simp [sweptBy, hd]

/-- The law with `delay_frees = 2` from the globals `alloc_drmem_init` sets up. -/
theorem delayFree_fifo_init :
    let o : Options := ⟨false, true, 2, 0, 0⟩
    ((o.leaksOnly = false ∧ o.shadowing = true) ∧ 0 < o.delayFrees ∧
      (State.init.delayFreeHead = 0 ∧ State.init.delayFreeFill = 0)) ∧
    (∀ evs, (heapRun o State.init evs).DelayFreeWf o.delayFrees ∧
      (heapRun o State.init evs).delayFreeQueue = fifoRun o.delayFrees [] evs) ∧
    (∀ evs base size realBase heap, countFrees evs < o.delayFrees →
      (clientHandleFree o (heapRun o State.init evs) base size realBase heap).2 = (0, heap)) ∧
    (∀ pre mid b sz rb h base size realBase heap, countFrees mid + 1 = o.delayFrees →
      (clientHandleFree o (heapRun o State.init (pre ++ .free b sz rb h :: mid))
        base size realBase heap).2 = (if HeapEvent.heapDestroy h ∈ mid then 0 else rb, h)) :=
  ⟨⟨⟨rfl, rfl⟩, by decide, ⟨rfl, rfl⟩⟩,
    delayFree_fifo ⟨false, true, 2, 0, 0⟩ ⟨rfl, rfl⟩ (by decide) State.init ⟨rfl, rfl⟩⟩

/-! ## The `delayed_free_bytes` statistic

Under `STATISTICS` each slot records the application size of its block, and
`delayed_free_bytes` is moved by `STATS_ADD` at each delayed free. The bytes
the quarantine holds back are the recorded sizes of the filled slots
(`State.quarantineBytes`); a heap-destroy sweep sets a slot's address to
`NULL` and keeps its size. The filling branch of `client_handle_free` moves
the counter by `size` twice, so over every run the counter is that total
plus the sizes of the first `delay_frees` frees (`firstFreedBytes`). -/

/-- The bytes the quarantine holds back: the sizes recorded in the filled
slots. -/
def State.quarantineBytes (s : State) : Nat :=
  ((List.range s.delayFreeFill).map fun i => (s.delayFreeList i).size).sum

/-- The sizes of the first `n` frees of a run. -/
def firstFreedBytes : Nat → List HeapEvent → Nat
  | _, [] => 0
  | n, .free _ size _ _ :: evs => (if n = 0 then 0 else size) + firstFreedBytes (n - 1) evs
  | n, .malloc .. :: evs | n, .realloc .. :: evs | n, .heapDestroy _ :: evs =>
    firstFreedBytes n evs

section Statistics

variable {o : Options} {s : State} {base size realBase heap : Nat}

/-- Replacing the slot at index `i < n` replaces one recorded size. -/
theorem sizes_update (list : Nat → DelayFree) {i n : Nat} (hi : i < n) (v : DelayFree) :
    ((List.range n).map fun j => (Function.update list i v j).size).sum + (list i).size =
      ((List.range n).map fun j => (list j).size).sum + v.size := by
  obtain ⟨k, rfl⟩ : ∃ k, n = i + 1 + k := ⟨n - (i + 1), by omega⟩
  have hl : ∀ l : List Nat, i ∉ l →
      l.map (fun j => (Function.update list i v j).size) = l.map fun j => (list j).size :=
    fun l hl => List.map_congr_left fun j hj => by
      rw [Function.update_noteq (ne_of_mem_of_not_mem hj hl)]
  rw [List.range_add, List.range_succ, List.map_append, List.map_append, List.map_append,
    List.map_append, hl _ (by simp), hl (List.map _ _) (by simp; omega)]
  simp only [List.map_singleton, Function.update_same, List.sum_append, List.sum_singleton]
  omega

/-- Filling slot `n` adds its size. -/
theorem sizes_push (list : Nat → DelayFree) (n : Nat) (v : DelayFree) :
    ((List.range (n + 1)).map fun j => (Function.update list n v j).size).sum =
      ((List.range n).map fun j => (list j).size).sum + v.size := by
  rw [List.range_succ, List.map_append, List.sum_append, List.map_singleton,
    Function.update_same, List.sum_singleton]
  congr 2
  exact List.map_congr_left fun j hj => by
    rw [Function.update_noteq (List.mem_range.1 hj).ne]

/-- The delayed free as the statistic sees it: while the queue fills, the
counter moves by the recorded size and once more by `size`; once it is full,
the evicted slot's size leaves both. -/
theorem delayFreeEnqueue_bytes (hw : s.DelayFreeWf o.delayFrees) {e : Nat}
    (hb : s.delayedFreeBytes = (s.quarantineBytes + e) % 2 ^ 32) :
    (delayFreeEnqueue o s base size realBase heap).1.delayedFreeBytes =
      ((delayFreeEnqueue o s base size realBase heap).1.quarantineBytes + e +
        if s.delayFreeFill = o.delayFrees then 0 else size) % 2 ^ 32 := by
  rw [State.quarantineBytes] at hb
  by_cases hfull : s.delayFreeFill = o.delayFrees
  · obtain ⟨hl, -, hf, -⟩ := delayFreeEnqueue_of_full base size realBase heap hfull
    have hsum := sizes_update s.delayFreeList
      (show s.delayFreeHead < s.delayFreeFill from hfull ▸ hw.head_lt) ⟨realBase, heap, size⟩
    have hb1 : (delayFreeEnqueue o s base size realBase heap).1.delayedFreeBytes =
        statsAdd (statsAdd s.delayedFreeBytes (-((s.delayFreeList s.delayFreeHead).size : Int)))
          size := by
      simp only [delayFreeEnqueue, if_pos hfull]; split <;> simp
    rw [hb1, State.quarantineBytes, hl, hf, statsAdd_statsAdd, hb, if_pos hfull]
    apply statsAdd_of_mod
    dsimp only at hsum ⊢
    omega
  · obtain ⟨hl, -, hf, -⟩ := delayFreeEnqueue_of_not_full base size realBase heap hfull
    have hb1 : (delayFreeEnqueue o s base size realBase heap).1.delayedFreeBytes =
        statsAdd (statsAdd s.delayedFreeBytes size) size := by
      simp [delayFreeEnqueue, hfull]
    rw [hb1, State.quarantineBytes, hl, hf, sizes_push, statsAdd_statsAdd, hb, if_neg hfull]
    apply statsAdd_of_mod
    dsimp only
    omega

theorem delayFreeEnqueue_fill :
    (delayFreeEnqueue o s base size realBase heap).1.delayFreeFill =
      if s.delayFreeFill = o.delayFrees then s.delayFreeFill else s.delayFreeFill + 1 := by
  split_ifs with hfull
  · exact (delayFreeEnqueue_of_full base size realBase heap hfull).2.2.1
  · exact (delayFreeEnqueue_of_not_full base size realBase heap hfull).2.2.1

/-- With shadowing and delayed frees on, a free moves the counter as the
delayed free does, and fills one more slot until the queue is full. -/
theorem clientHandleFree_bytes (base size realBase heap : Nat)
    (hon : o.leaksOnly = false ∧ o.shadowing = true) (hc : 0 < o.delayFrees)
    (hw : s.DelayFreeWf o.delayFrees) {e : Nat}
    (hb : s.delayedFreeBytes = (s.quarantineBytes + e) % 2 ^ 32) :
    (clientHandleFree o s base size realBase heap).1.delayedFreeBytes =
      ((clientHandleFree o s base size realBase heap).1.quarantineBytes + e +
        if s.delayFreeFill = o.delayFrees then 0 else size) % 2 ^ 32 ∧
    (clientHandleFree o s base size realBase heap).1.delayFreeFill =
      if s.delayFreeFill = o.delayFrees then s.delayFreeFill else s.delayFreeFill + 1 := by
  rw [clientHandleFree_of_delay hon hc]
  exact ⟨@delayFreeEnqueue_bytes o
    { s with shadow := shadowSetRange s.shadow base (base + size) .unaddressable }
    base size realBase heap (hw.of_indices rfl rfl) e hb, delayFreeEnqueue_fill⟩

/-- A heap-destroy sweep keeps the counter and the recorded sizes. -/
theorem clientHandleHeapDestroy_bytes (s : State) (heap : Nat) :
    (clientHandleHeapDestroy s heap).delayedFreeBytes = s.delayedFreeBytes ∧
      (clientHandleHeapDestroy s heap).quarantineBytes = s.quarantineBytes := by
  have hspec := clientHandleHeapDestroy_spec s heap
  obtain ⟨_, _, _, h⟩ := @foldl_heapDestroySlot_frame s heap (List.range s.delayFreeFill)
  refine ⟨by rw [clientHandleHeapDestroy, h], ?_⟩
  rw [State.quarantineBytes, State.quarantineBytes, (hspec 0).2.2]
  congr 1
  exact List.map_congr_left fun j _ => by rw [(hspec j).1]; split <;> rfl

/-- One heap event moves the counter by the change of the recorded sizes,
plus the size of a free that finds the queue still filling; the frees still
to be counted twice are those that find it filling. -/
theorem heapStep_bytes (hon : o.leaksOnly = false ∧ o.shadowing = true)
    (hc : 0 < o.delayFrees) (hw : s.DelayFreeWf o.delayFrees) {e : Nat}
    (hb : s.delayedFreeBytes = (s.quarantineBytes + e) % 2 ^ 32) (ev : HeapEvent) :
    (heapStep o s ev).delayedFreeBytes = ((heapStep o s ev).quarantineBytes + e +
        firstFreedBytes (o.delayFrees - s.delayFreeFill) [ev]) % 2 ^ 32 ∧
      ∀ evs, firstFreedBytes (o.delayFrees - s.delayFreeFill) (ev :: evs) =
        firstFreedBytes (o.delayFrees - s.delayFreeFill) [ev] +
          firstFreedBytes (o.delayFrees - (heapStep o s ev).delayFreeFill) evs := by
  cases ev with
  | malloc base size zeroed =>
    rw [heapStep, clientHandleMalloc_eq]; exact ⟨hb, fun _ => (Nat.zero_add _).symm⟩
  | realloc oldBase oldSize newBase newSize =>
    rw [heapStep, clientHandleRealloc_eq]; exact ⟨hb, fun _ => (Nat.zero_add _).symm⟩
  | heapDestroy heap =>
    obtain ⟨hb', hq⟩ := clientHandleHeapDestroy_bytes s heap
    rw [heapStep, hb', hq, (clientHandleHeapDestroy_spec s heap 0).2.2]
    exact ⟨hb, fun _ => (Nat.zero_add _).symm⟩
  | free base size realBase heap =>
    obtain ⟨hb', hf⟩ := clientHandleFree_bytes base size realBase heap hon hc hw hb
    have hle := hw.fill_le
    have hleft : o.delayFrees - (if s.delayFreeFill = o.delayFrees then s.delayFreeFill
        else s.delayFreeFill + 1) = o.delayFrees - s.delayFreeFill - 1 := by split_ifs <;> omega
    have hsize : (if s.delayFreeFill = o.delayFrees then 0 else size) =
        if o.delayFrees - s.delayFreeFill = 0 then 0 else size := by split_ifs <;> omega
    rw [heapStep, hb', hf, hleft, hsize]
    simp only [firstFreedBytes, add_zero, implies_true, and_self]

/-- Over every run, the counter is the recorded sizes plus the sizes of the
frees that found the queue still filling. -/
theorem heapRun_bytes (hon : o.leaksOnly = false ∧ o.shadowing = true)
    (hc : 0 < o.delayFrees) (evs : List HeapEvent) (hw : s.DelayFreeWf o.delayFrees) (e : Nat)
    (hb : s.delayedFreeBytes = (s.quarantineBytes + e) % 2 ^ 32) :
    (heapRun o s evs).delayedFreeBytes = ((heapRun o s evs).quarantineBytes + e +
      firstFreedBytes (o.delayFrees - s.delayFreeFill) evs) % 2 ^ 32 := by
  induction evs generalizing s e with
  | nil => exact hb
  | cons ev evs ih =>
    obtain ⟨hb', hsplit⟩ := heapStep_bytes hon hc hw hb ev
    rw [Nat.add_assoc] at hb'
    rw [heapRun_cons, ih (heapStep_refines hon hc hw ev).1 _ hb', hsplit evs]
    omega

end Statistics

/-- With shadowing on and `delay_frees > 0`, over every run of heap events
from the globals `alloc_drmem_init` sets up, `delayed_free_bytes` is the sum
of the sizes recorded in the filled slots plus, a second time, the sizes of
the first `delay_frees` frees, modulo `2 ^ 32`. -/
theorem delayedFreeBytes_of_run (o : Options) (hon : o.leaksOnly = false ∧ o.shadowing = true)
    (hc : 0 < o.delayFrees) (evs : List HeapEvent) :
    (heapRun o State.init evs).delayedFreeBytes =
      ((heapRun o State.init evs).quarantineBytes + firstFreedBytes o.delayFrees evs) % 2 ^ 32 :=
  heapRun_bytes hon hc evs ⟨Nat.zero_le _, hc, fun _ => rfl⟩ 0 rfl

/-- One free of `0x10` bytes from the start: the quarantine holds `0x10`
bytes and the counter reads `0x20`. -/
theorem delayedFreeBytes_one_free :
    let o : Options := ⟨false, true, 2, 0, 0⟩
    let evs := [HeapEvent.free 0x1000 0x10 0x1000 7]
    ((o.leaksOnly = false ∧ o.shadowing = true) ∧ 0 < o.delayFrees) ∧
      (heapRun o State.init evs).delayedFreeBytes =
        ((heapRun o State.init evs).quarantineBytes + firstFreedBytes o.delayFrees evs) % 2 ^ 32 ∧
      (heapRun o State.init evs).quarantineBytes = 0x10 ∧
      (heapRun o State.init evs).delayedFreeBytes = 0x20 :=
  ⟨⟨⟨rfl, rfl⟩, by decide⟩, delayedFreeBytes_of_run ⟨false, true, 2, 0, 0⟩ ⟨rfl, rfl⟩ (by decide)
    [HeapEvent.free 0x1000 0x10 0x1000 7], by decide, by decide⟩

end DrMemory
