import DrMemory.DelayFreeFifo

/-!
# The delayed-free interval tree

`delay_free_tree` mirrors the live slots of the delayed-free FIFO: each
free inserts its real range (redzones included) with the payload
`base == real_base`, each eviction and each heap-destroy sweep deletes the
node of the slot's address, and `overlaps_delayed_free` reads the payload
back as `has_redzone` to cut the redzones off a hit.

Two runs below show where the code parts from that design. The payload is
true for a block *without* a redzone, so a block with redzones is reported
whole, redzones included, and a block without one is cut short; and a sweep
of a heap whose handle comes back after a first sweep revisits the slot the
first sweep set to `NULL` and finds no node for it.
-/

namespace DrMemory

/-- The options of the runs below: shadowing on, two delayed frees, 8-byte
redzones. -/
def redzoneOptions : Options := ⟨false, true, 2, 8, 0⟩

/-- A block with redzones (real range `0x4000..0x4030`, body
`0x4008..0x4028`) is reported for an access to its leading redzone alone,
and a block without redzone (`0x5000..0x5020`) is not reported for an
access to its first byte. -/
theorem overlapsDelayedFree_payload_inverted :
    overlapsDelayedFree redzoneOptions
        (clientHandleFree redzoneOptions State.init 0x4008 0x20 0x4000 0).1 0x4000 0x4008 =
      some (0x4008, 0x4028) ∧
    overlapsDelayedFree redzoneOptions
        (clientHandleFree redzoneOptions State.init 0x5000 0x20 0x5000 0).1 0x5000 0x5001 = none := by
  decide

/-- Freeing a block of heap `7`, destroying heap `7`, and destroying a heap
that got the same handle: the first sweep is clean, the second reaches
`ASSERT(false, "delay_free_tree inconsistent")` on the slot the first one
invalidated. -/
theorem heapDestroy_revisits_invalidated_slot :
    (heapRun redzoneOptions State.init [.free 0x1000 0x10 0x1000 7, .heapDestroy 7]).asserts = [] ∧
      (heapRun redzoneOptions State.init
        [.free 0x1000 0x10 0x1000 7, .heapDestroy 7, .heapDestroy 7]).asserts =
        ["delay_free_tree inconsistent"] := by
  decide

/-! ## The tree mirrors the list -/

/-- The addresses held by the filled slots of `delay_free_list`, the `NULL`
addresses of swept slots left out. -/
def State.quarantineAddrs (s : State) : List Nat :=
  ((List.range s.delayFreeFill).map fun i => (s.delayFreeList i).addr).filter (· ≠ 0)

/-- `delay_free_tree` mirrors `delay_free_list`: its nodes start exactly at
the addresses the filled slots hold, as often as they hold them. -/
def State.TreeMirrors (s : State) : Prop :=
  (s.delayFreeTree.map RbNode.base).Perm s.quarantineAddrs

/-- The real size that `client_handle_free` records for a block: the block
and its two redzones, or the block alone when it has none. -/
def delayFreeRealSize (o : Options) (base size realBase : Nat) : Nat :=
  if base ≠ realBase then size + 2 * o.redzoneSize else size

/-- What the allocation layer guarantees to the quarantine at a free: a
non-`NULL` real base, and a real range that meets no block the quarantine
still holds (it has not been handed back, so it cannot have been reused). -/
def QuarantineAllowed (o : Options) (s : State) : HeapEvent → Prop
  | .free base size realBase _ =>
    realBase ≠ 0 ∧
      ∀ n ∈ s.delayFreeTree, ¬ n.Meets realBase (realBase + delayFreeRealSize o base size realBase)
  | _ => True

/-- A run of heap events respects the quarantine's guarantee at every free. -/
def QuarantineContract (o : Options) : State → List HeapEvent → Prop
  | _, [] => True
  | s, e :: evs => QuarantineAllowed o s e ∧ QuarantineContract o (heapStep o s e) evs

instance (o : Options) (s : State) (e : HeapEvent) : Decidable (QuarantineAllowed o s e) :=
  match e with
  | .free base size realBase _ => inferInstanceAs (Decidable (realBase ≠ 0 ∧
      ∀ n ∈ s.delayFreeTree, ¬ n.Meets realBase (realBase + delayFreeRealSize o base size realBase)))
  | .malloc .. | .realloc .. | .heapDestroy _ => instDecidableTrue

instance decQuarantineContract (o : Options) :
    (s : State) → (evs : List HeapEvent) → Decidable (QuarantineContract o s evs)
  | _, [] => instDecidableTrue
  | s, e :: evs =>
    have := decQuarantineContract o (heapStep o s e) evs
    inferInstanceAs (Decidable (QuarantineAllowed o s e ∧ QuarantineContract o (heapStep o s e) evs))

/-- The heap a `heap_destroy` event names. -/
def HeapEvent.destroyedHeap : HeapEvent → Option Nat
  | .heapDestroy heap => some heap
  | _ => none

/-- The filled slots of `heap` that a sweep has already set to `NULL`. -/
def State.sweptSlots (s : State) (heap : Nat) : Nat :=
  (List.range s.delayFreeFill).countP fun i =>
    (s.delayFreeList i).heap = heap ∧ (s.delayFreeList i).addr = 0

/-- Every filled slot whose address is `NULL` belongs to one of the heaps
`D`: with non-`NULL` real bases, only a sweep empties a slot. -/
def State.NullSlotsIn (s : State) (D : List Nat) : Prop :=
  ∀ i < s.delayFreeFill, (s.delayFreeList i).addr = 0 → (s.delayFreeList i).heap ∈ D

section Mirror

/-- Replacing the slot at index `i < n` replaces one address of the
multiset. -/
theorem addrs_update (list : Nat → DelayFree) {i n : Nat} (hi : i < n) (v : DelayFree) :
    (((List.range n).map fun j => (Function.update list i v j).addr).filter (· ≠ 0) ++
        [(list i).addr].filter (· ≠ 0)).Perm
      (((List.range n).map fun j => (list j).addr).filter (· ≠ 0) ++ [v.addr].filter (· ≠ 0)) := by
  obtain ⟨k, rfl⟩ : ∃ k, n = i + 1 + k := ⟨n - (i + 1), by omega⟩
  have hl : ∀ l : List Nat, i ∉ l →
      l.map (fun j => (Function.update list i v j).addr) = l.map fun j => (list j).addr :=
    fun l hl => List.map_congr_left fun j hj => by
      rw [Function.update_noteq (ne_of_mem_of_not_mem hj hl)]
  rw [List.range_add, List.range_succ, List.map_append, List.map_append, List.map_append,
    List.map_append, hl _ (by simp), hl (List.map _ _) (by simp; omega), List.map_singleton,
    List.map_singleton, Function.update_same]
  refine List.perm_iff_count.2 fun a => ?_
  simp only [List.filter_append, List.filter_cons, List.filter_nil, List.count_append]
  split_ifs <;> simp only [List.count_cons, List.count_nil] <;> omega

/-- A successful insertion adds one node at its base. -/
theorem rbInsert_bases {α : Type} {t : RbTree α} {base size : Nat} (client : α)
    (h : ∀ n ∈ t, ¬ n.Meets base (base + size)) :
    ((rbInsert t base size client).1.map RbNode.base).Perm (base :: t.map RbNode.base) := by
  obtain ⟨t', heq, hperm⟩ := rbInsert_of_apart client h
  rw [heq]
  exact hperm.map _

variable {o : Options} {s : State} {addr : Nat}

/-- The lookup-and-delete of an address that a node starts at removes one
such node and asserts nothing. -/
theorem delayFreeTreeRemove_of_mem (h : addr ∈ s.delayFreeTree.map RbNode.base) :
    ((delayFreeTreeRemove s addr).delayFreeTree.map RbNode.base).Perm
        ((s.delayFreeTree.map RbNode.base).erase addr) ∧
      (delayFreeTreeRemove s addr).asserts = s.asserts := by
  obtain ⟨n, hn, rfl⟩ := List.mem_map.1 h
  obtain ⟨m, hm⟩ := rbFind_of_mem hn
  obtain ⟨hmem, hbase⟩ := rbFind_some hm
  have hperm := ((rbDelete_perm hmem).map RbNode.base).erase m.base
  rw [List.map_cons, List.erase_cons_head] at hperm
  simp only [delayFreeTreeRemove, hm, and_true]
  exact hbase ▸ hperm.symm

/-- The lookup of an address no node starts at finds nothing and reaches
`ASSERT(false, "delay_free_tree inconsistent")`. -/
theorem delayFreeTreeRemove_of_not_mem (h : addr ∉ s.delayFreeTree.map RbNode.base) :
    (delayFreeTreeRemove s addr).delayFreeTree = s.delayFreeTree ∧
      (delayFreeTreeRemove s addr).asserts = s.asserts ++ ["delay_free_tree inconsistent"] := by
  have hnone : rbFind s.delayFreeTree addr = none := by
    cases hf : rbFind s.delayFreeTree addr with
    | none => rfl
    | some m => exact absurd (List.mem_map.2 ⟨m, (rbFind_some hf).1, (rbFind_some hf).2⟩) h
  simp [delayFreeTreeRemove, hnone]

@[simp] theorem delayFreeTreeRemove_quarantineAddrs :
    (delayFreeTreeRemove s addr).quarantineAddrs = s.quarantineAddrs := by
  simp [State.quarantineAddrs]

/-- When the tree holds one node more than the multiset `q`, at `addr`, the
lookup-and-delete of `addr` leaves a tree that mirrors `q`. -/
theorem delayFreeTreeRemove_erases {q : List Nat}
    (h : (s.delayFreeTree.map RbNode.base).Perm (q ++ [addr])) :
    ((delayFreeTreeRemove s addr).delayFreeTree.map RbNode.base).Perm q ∧
      (delayFreeTreeRemove s addr).asserts = s.asserts := by
  obtain ⟨hp, ha⟩ :=
    delayFreeTreeRemove_of_mem (h.symm.subset (List.mem_append_right _ (List.mem_singleton_self _)))
  have herase := (h.trans (List.perm_append_singleton _ _)).erase addr
  rw [List.erase_cons_head] at herase
  exact ⟨hp.trans herase, ha⟩

/-- Filling slot `n` appends one address. -/
theorem addrs_push (list : Nat → DelayFree) (n : Nat) (v : DelayFree) :
    ((List.range (n + 1)).map fun j => (Function.update list n v j).addr).filter (· ≠ 0) =
      ((List.range n).map fun j => (list j).addr).filter (· ≠ 0) ++ [v.addr].filter (· ≠ 0) := by
  rw [List.range_succ, List.map_append, List.filter_append, List.map_singleton,
    Function.update_same]
  congr 2
  exact List.map_congr_left fun j hj => by
    rw [Function.update_noteq (List.mem_range.1 hj).ne]

/-- The filling branch of the delayed free, as the tree and the assertion log
see it. -/
theorem delayFreeEnqueue_not_full_eq (base size realBase heap : Nat)
    (h : s.delayFreeFill ≠ o.delayFrees) :
    ∃ s1 : State, s1.delayFreeList =
        Function.update s.delayFreeList s.delayFreeFill ⟨realBase, heap, size⟩ ∧
      s1.delayFreeFill = s.delayFreeFill + 1 ∧
      s1.delayFreeTree = (rbInsert s.delayFreeTree realBase
        (delayFreeRealSize o base size realBase) (decide (base = realBase))).1 ∧
      s1.asserts.count "delay_free_tree inconsistent" =
        s.asserts.count "delay_free_tree inconsistent" ∧
      (delayFreeEnqueue o s base size realBase heap).1 = s1 := by
  refine ⟨_, rfl, rfl, rfl, ?_, by simp only [delayFreeEnqueue, if_neg h]; rfl⟩
  split_ifs <;> simp (disch := decide) only [count_assert_of_ne]

/-- The full branch of the delayed free, as the tree and the assertion log
see it: the oldest slot is overwritten and, unless it was swept, its node
is looked up and deleted. -/
theorem delayFreeEnqueue_full_eq (base size realBase heap : Nat)
    (h : s.delayFreeFill = o.delayFrees) :
    ∃ s1 : State, s1.delayFreeList =
        Function.update s.delayFreeList s.delayFreeHead ⟨realBase, heap, size⟩ ∧
      s1.delayFreeFill = s.delayFreeFill ∧
      s1.delayFreeTree = (rbInsert s.delayFreeTree realBase
        (delayFreeRealSize o base size realBase) (decide (base = realBase))).1 ∧
      s1.asserts.count "delay_free_tree inconsistent" =
        s.asserts.count "delay_free_tree inconsistent" ∧
      (delayFreeEnqueue o s base size realBase heap).1 =
        if (s.delayFreeList s.delayFreeHead).addr ≠ 0 then
          delayFreeTreeRemove s1 (s.delayFreeList s.delayFreeHead).addr
        else s1 := by
  refine ⟨{ s with
      delayFreeList := Function.update s.delayFreeList s.delayFreeHead ⟨realBase, heap, size⟩
      delayFreeHead := if s.delayFreeHead + 1 ≥ o.delayFrees then 0 else s.delayFreeHead + 1
      delayFreeTree := (rbInsert s.delayFreeTree realBase (delayFreeRealSize o base size realBase)
        (decide (base = realBase))).1
      delayedFreeBytes :=
        statsAdd (statsAdd s.delayedFreeBytes (-((s.delayFreeList s.delayFreeHead).size : Int))) size
      asserts := if base ≠ realBase then
          assert s.asserts ((base : Int) - realBase = o.redzoneSize) "redzone mismatch"
        else s.asserts }, rfl, rfl, rfl, ?_, by simp only [delayFreeEnqueue, if_pos h]; rfl⟩
  dsimp only
  split_ifs <;> simp (disch := decide) only [count_assert_of_ne]

/-- A filled slot's non-`NULL` address is among the quarantined ones. -/
theorem mem_quarantineAddrs {i : Nat} (hi : i < s.delayFreeFill)
    (h : (s.delayFreeList i).addr ≠ 0) : (s.delayFreeList i).addr ∈ s.quarantineAddrs := by
  simp only [State.quarantineAddrs, List.mem_filter, List.mem_map, List.mem_range]
  exact ⟨⟨i, hi, rfl⟩, by simpa using h⟩

/-- A delayed free that the contract allows keeps the tree a mirror of the
list, and never reaches `"delay_free_tree inconsistent"`: the evicted slot's
node is always there. -/
theorem delayFreeEnqueue_mirrors (hw : s.DelayFreeWf o.delayFrees) (hm : s.TreeMirrors)
    {base size realBase heap : Nat} (h0 : realBase ≠ 0)
    (hfree : ∀ n ∈ s.delayFreeTree,
      ¬ n.Meets realBase (realBase + delayFreeRealSize o base size realBase)) :
    (delayFreeEnqueue o s base size realBase heap).1.TreeMirrors ∧
      (delayFreeEnqueue o s base size realBase heap).1.asserts.count
          "delay_free_tree inconsistent" =
        s.asserts.count "delay_free_tree inconsistent" := by
  have hins := rbInsert_bases (decide (base = realBase)) hfree
  have hnew : [realBase].filter (· ≠ 0) = [realBase] := by simp [h0]
  have hm' : (s.delayFreeTree.map RbNode.base).Perm s.quarantineAddrs := hm
  by_cases hfull : s.delayFreeFill = o.delayFrees
  · obtain ⟨s1, hl, hf, ht, ha, heq⟩ := delayFreeEnqueue_full_eq base size realBase heap hfull
    have hhead : s.delayFreeHead < s.delayFreeFill := hfull ▸ hw.head_lt
    /- slot `head` trades the evicted address for the new one, and the tree
    gained the new node -/
    have hq : (s1.quarantineAddrs ++ [(s.delayFreeList s.delayFreeHead).addr].filter (· ≠ 0)).Perm
        (s.quarantineAddrs ++ [realBase]) := by
      unfold State.quarantineAddrs
      rw [hl, hf, ← hnew]
      exact addrs_update _ hhead _
    have hbase : (s1.delayFreeTree.map RbNode.base).Perm
        (s1.quarantineAddrs ++ [(s.delayFreeList s.delayFreeHead).addr].filter (· ≠ 0)) :=
      (ht ▸ hins).trans ((hm'.cons realBase).trans
        ((List.perm_append_singleton _ _).symm.trans hq.symm))
    rw [heq]
    by_cases hold : (s.delayFreeList s.delayFreeHead).addr = 0
    · rw [if_neg (not_not.2 hold)]
      exact ⟨by simpa [hold] using hbase, ha⟩
    · rw [if_pos hold]
      rw [show [(s.delayFreeList s.delayFreeHead).addr].filter (· ≠ 0) =
        [(s.delayFreeList s.delayFreeHead).addr] by simp [hold]] at hbase
      obtain ⟨hp, ha'⟩ := delayFreeTreeRemove_erases hbase
      refine ⟨?_, by rw [ha', ha]⟩
      rwa [State.TreeMirrors, delayFreeTreeRemove_quarantineAddrs]
  · obtain ⟨s1, hl, hf, ht, ha, heq⟩ :=
      delayFreeEnqueue_not_full_eq base size realBase heap hfull
    rw [heq]
    refine ⟨?_, ha⟩
    unfold State.TreeMirrors State.quarantineAddrs
    rw [hl, hf, ht, addrs_push, hnew]
    exact hins.trans ((hm'.cons realBase).trans (List.perm_append_singleton _ _).symm)

/-- One slot of a heap-destroy sweep keeps the tree a mirror of the list; it
reaches `"delay_free_tree inconsistent"` exactly when the slot belongs to the
heap and its address is already `NULL`. -/
theorem heapDestroySlot_mirrors (hm : s.TreeMirrors) (heap : Nat) {i : Nat}
    (hi : i < s.delayFreeFill) :
    (heapDestroySlot heap s i).TreeMirrors ∧
      (heapDestroySlot heap s i).delayFreeFill = s.delayFreeFill ∧
      (heapDestroySlot heap s i).asserts.count "delay_free_tree inconsistent" =
        s.asserts.count "delay_free_tree inconsistent" +
          if (s.delayFreeList i).heap = heap ∧ (s.delayFreeList i).addr = 0 then 1 else 0 := by
  have hm' : (s.delayFreeTree.map RbNode.base).Perm s.quarantineAddrs := hm
  unfold heapDestroySlot
  by_cases hh : (s.delayFreeList i).heap = heap
  · rw [if_pos hh]
    dsimp only
    /- the slot's address leaves the multiset -/
    have hq := addrs_update s.delayFreeList hi { s.delayFreeList i with addr := 0 }
    simp only [List.filter_singleton, ne_eq, not_true_eq_false, decide_False, cond_false,
      List.append_nil] at hq
    unfold State.TreeMirrors State.quarantineAddrs
    simp only [delayFreeTreeRemove_delayFreeList, delayFreeTreeRemove_delayFreeFill]
    by_cases ha : (s.delayFreeList i).addr = 0
    · have hnot : (s.delayFreeList i).addr ∉ s.delayFreeTree.map RbNode.base := fun h => by
        simpa [State.quarantineAddrs, ha] using hm'.subset h
      obtain ⟨ht, ha'⟩ := delayFreeTreeRemove_of_not_mem hnot
      rw [ht, ha', if_pos ⟨hh, ha⟩, List.count_append]
      simp only [ha, ne_eq, not_true_eq_false, decide_False, cond_false, List.append_nil] at hq
      exact ⟨hm'.trans hq.symm, trivial, by simp⟩
    · simp only [ha, ne_eq, not_false_eq_true, decide_True, cond_true] at hq
      obtain ⟨hp, ha'⟩ := delayFreeTreeRemove_erases (hm'.trans hq.symm)
      rw [ha', if_neg fun h => ha h.2]
      exact ⟨hp, trivial, rfl⟩
  · rw [if_neg hh]
    exact ⟨hm, rfl, by simp [hh]⟩

/-- A sweep over distinct filled slots keeps the tree a mirror of the list and
reaches `"delay_free_tree inconsistent"` once per visited slot of the heap
whose address is already `NULL`. -/
theorem foldl_heapDestroySlot_mirrors (heap : Nat) {l : List Nat} (hnd : l.Nodup)
    (hm : s.TreeMirrors) (hl : ∀ i ∈ l, i < s.delayFreeFill) :
    (l.foldl (heapDestroySlot heap) s).TreeMirrors ∧
      (l.foldl (heapDestroySlot heap) s).asserts.count "delay_free_tree inconsistent" =
        s.asserts.count "delay_free_tree inconsistent" +
          l.countP fun i => (s.delayFreeList i).heap = heap ∧ (s.delayFreeList i).addr = 0 := by
  induction l generalizing s with
  | nil => exact ⟨hm, rfl⟩
  | cons i l ih =>
    obtain ⟨hi, hnd⟩ := List.nodup_cons.1 hnd
    obtain ⟨hm1, hf1, hc1⟩ := heapDestroySlot_mirrors hm heap (hl i (List.mem_cons_self _ _))
    obtain ⟨hm2, hc2⟩ := ih hnd hm1 fun j hj => hf1 ▸ hl j (List.mem_cons_of_mem _ hj)
    /- the later slots are read as the sweep found them -/
    have hrest : (l.countP fun j => ((heapDestroySlot heap s i).delayFreeList j).heap = heap ∧
        ((heapDestroySlot heap s i).delayFreeList j).addr = 0) =
        l.countP fun j => (s.delayFreeList j).heap = heap ∧ (s.delayFreeList j).addr = 0 :=
      List.countP_congr fun j hj => by
        rw [heapDestroySlot_delayFreeList, if_neg fun h : j = i ∧ _ => hi (h.1 ▸ hj)]
    refine ⟨hm2, ?_⟩
    rw [List.foldl_cons, hc2, hc1, hrest, List.countP_cons]
    simp only [decide_eq_true_eq]
    omega

/-- `client_handle_heap_destroy` keeps the tree a mirror of the list and
reaches `"delay_free_tree inconsistent"` once per filled slot of the heap that
an earlier sweep already set to `NULL`. -/
theorem clientHandleHeapDestroy_mirrors (hm : s.TreeMirrors) (heap : Nat) :
    (clientHandleHeapDestroy s heap).TreeMirrors ∧
      (clientHandleHeapDestroy s heap).asserts.count "delay_free_tree inconsistent" =
        s.asserts.count "delay_free_tree inconsistent" + s.sweptSlots heap :=
  foldl_heapDestroySlot_mirrors heap (List.nodup_range _) hm fun _ => List.mem_range.1

end Mirror

/-! ## Only a handle destroyed twice trips the sweep -/

section Sweeps

variable {o : Options} {s : State} {D : List Nat}

theorem sweptSlots_eq_zero (hn : s.NullSlotsIn D) {heap : Nat} (h : heap ∉ D) :
    s.sweptSlots heap = 0 :=
  List.countP_eq_zero.2 fun i hi hp => by
    simp only [decide_eq_true_eq] at hp
    exact h (hp.1 ▸ hn i (List.mem_range.1 hi) hp.2)

/-- Overwriting one slot with a non-`NULL` address, and filling at most that
slot, keeps the `NULL` slots where they were. -/
theorem State.NullSlotsIn.update (hn : s.NullSlotsIn D) {s' : State} {k : Nat} {v : DelayFree}
    (hv : v.addr ≠ 0) (hl : s'.delayFreeList = Function.update s.delayFreeList k v)
    (hf : ∀ i < s'.delayFreeFill, i ≠ k → i < s.delayFreeFill) : s'.NullSlotsIn D := by
  intro i hi h0
  rw [hl] at h0 ⊢
  by_cases hik : i = k
  · subst hik
    rw [Function.update_same] at h0
    exact absurd h0 hv
  · rw [Function.update_noteq hik] at h0 ⊢
    exact hn i (hf i hi hik) h0

theorem delayFreeEnqueue_nullSlotsIn (hn : s.NullSlotsIn D) {base size realBase heap : Nat}
    (h0 : realBase ≠ 0) : (delayFreeEnqueue o s base size realBase heap).1.NullSlotsIn D := by
  by_cases hfull : s.delayFreeFill = o.delayFrees
  · obtain ⟨hl, -, hf, -⟩ := delayFreeEnqueue_of_full base size realBase heap hfull
    exact hn.update h0 hl fun i hi _ => hf ▸ hi
  · obtain ⟨hl, -, hf, -⟩ := delayFreeEnqueue_of_not_full base size realBase heap hfull
    exact hn.update h0 hl fun i hi hik => by omega

theorem clientHandleHeapDestroy_nullSlotsIn (hn : s.NullSlotsIn D) (heap : Nat) :
    (clientHandleHeapDestroy s heap).NullSlotsIn (heap :: D) := by
  intro i hi h0
  obtain ⟨hl, -, hf⟩ := clientHandleHeapDestroy_spec s heap i
  rw [hf] at hi
  rw [hl] at h0 ⊢
  split_ifs at h0 ⊢ with hh
  · exact hh.2 ▸ List.mem_cons_self _ _
  · exact List.mem_cons_of_mem _ (hn i hi h0)

/-- One heap event that the contract allows, whose destroyed heap (if any)
was not destroyed before, keeps the tree a mirror of the list and reaches no
`"delay_free_tree inconsistent"`. -/
theorem heapStep_mirrors (hon : o.leaksOnly = false ∧ o.shadowing = true) (hc : 0 < o.delayFrees)
    (hw : s.DelayFreeWf o.delayFrees) (hm : s.TreeMirrors) (hn : s.NullSlotsIn D)
    {e : HeapEvent} (he : QuarantineAllowed o s e) (hd : (e.destroyedHeap.toList ++ D).Nodup) :
    (heapStep o s e).TreeMirrors ∧ (heapStep o s e).NullSlotsIn (e.destroyedHeap.toList ++ D) ∧
      (heapStep o s e).asserts.count "delay_free_tree inconsistent" =
        s.asserts.count "delay_free_tree inconsistent" := by
  cases e with
  | malloc base size zeroed =>
    rw [heapStep, clientHandleMalloc_eq]; exact ⟨hm, hn, rfl⟩
  | realloc oldBase oldSize newBase newSize =>
    rw [heapStep, clientHandleRealloc_eq]; exact ⟨hm, hn, rfl⟩
  | free base size realBase heap =>
    obtain ⟨h0, hfree⟩ := he
    rw [heapStep, clientHandleFree_of_delay hon hc]
    /- the shadow write leaves the quarantine as it was -/
    let s' : State := { s with shadow := shadowSetRange s.shadow base (base + size) .unaddressable }
    obtain ⟨hm', hc'⟩ := delayFreeEnqueue_mirrors
      (show s'.DelayFreeWf o.delayFrees from hw.of_indices rfl rfl) (show s'.TreeMirrors from hm)
      h0 hfree
    exact ⟨hm', delayFreeEnqueue_nullSlotsIn (show s'.NullSlotsIn D from hn) h0, hc'⟩
  | heapDestroy heap =>
    obtain ⟨hm', hc'⟩ := clientHandleHeapDestroy_mirrors hm heap
    have hnew : heap ∉ D := (List.nodup_cons.1 hd).1
    exact ⟨hm', clientHandleHeapDestroy_nullSlotsIn hn heap, by
      rw [heapStep, hc', sweptSlots_eq_zero hn hnew, Nat.add_zero]⟩

theorem filterMap_destroyedHeap_cons (e : HeapEvent) (evs : List HeapEvent) :
    (e :: evs).filterMap HeapEvent.destroyedHeap =
      e.destroyedHeap.toList ++ evs.filterMap HeapEvent.destroyedHeap := by
  cases e <;> rfl

/-- Over every run that the contract allows and that destroys each heap once,
none of them destroyed before, the tree stays a mirror of the list and
`"delay_free_tree inconsistent"` is never reached. -/
theorem heapRun_mirrors (hon : o.leaksOnly = false ∧ o.shadowing = true) (hc : 0 < o.delayFrees)
    (evs : List HeapEvent) (hw : s.DelayFreeWf o.delayFrees) (hm : s.TreeMirrors)
    (hn : s.NullSlotsIn D) (hq : QuarantineContract o s evs)
    (hd : (evs.filterMap HeapEvent.destroyedHeap ++ D).Nodup) :
    (heapRun o s evs).TreeMirrors ∧
      (heapRun o s evs).asserts.count "delay_free_tree inconsistent" =
        s.asserts.count "delay_free_tree inconsistent" := by
  induction evs generalizing s D with
  | nil => exact ⟨hm, rfl⟩
  | cons e evs ih =>
    obtain ⟨he, hq⟩ := hq
    rw [filterMap_destroyedHeap_cons, List.append_assoc] at hd
    have hd' := hd.perm (List.perm_append_comm_assoc _ _ _)
    obtain ⟨hm', hn', hc'⟩ := heapStep_mirrors hon hc hw hm hn he hd'.of_append_right
    rw [heapRun_cons, ← hc']
    exact ih (heapStep_refines hon hc hw e).1 hm' hn' hq hd'

end Sweeps

/-- From the initial state, over every run that the contract allows and that
destroys no heap handle twice, `delay_free_tree` mirrors `delay_free_list`
and `"delay_free_tree inconsistent"` is never reached. -/
theorem delayFreeTree_consistent (o : Options) (hon : o.leaksOnly = false ∧ o.shadowing = true)
    (hc : 0 < o.delayFrees) (evs : List HeapEvent) (hq : QuarantineContract o State.init evs)
    (hd : (evs.filterMap HeapEvent.destroyedHeap).Nodup) :
    (heapRun o State.init evs).TreeMirrors ∧
      "delay_free_tree inconsistent" ∉ (heapRun o State.init evs).asserts := by
  obtain ⟨hm, hcount⟩ := heapRun_mirrors hon hc evs ⟨Nat.zero_le _, hc, fun _ => rfl⟩
    (show State.init.TreeMirrors from List.Perm.nil) (fun _ h => absurd h (Nat.not_lt_zero _)) hq
    (by rwa [List.append_nil] : (evs.filterMap HeapEvent.destroyedHeap ++ []).Nodup)
  exact ⟨hm, List.count_eq_zero.1 hcount⟩

/-- Two frees of heap `7` with one of heap `8` between them, so that the
second evicts the first, a malloc, and the destroy of heap `7`. -/
def freeEvictDestroy : List HeapEvent :=
  [.free 0x1008 0x10 0x1000 7, .free 0x2000 0x10 0x2000 8, .malloc 0x3000 0x10 false,
    .free 0x4008 0x10 0x4000 7, .heapDestroy 7]

theorem delayFreeTree_consistent_freeEvictDestroy :
    (redzoneOptions.leaksOnly = false ∧ redzoneOptions.shadowing = true) ∧
    0 < redzoneOptions.delayFrees ∧
    QuarantineContract redzoneOptions State.init freeEvictDestroy ∧
    (freeEvictDestroy.filterMap HeapEvent.destroyedHeap).Nodup ∧
    (heapRun redzoneOptions State.init freeEvictDestroy).TreeMirrors ∧
      "delay_free_tree inconsistent" ∉ (heapRun redzoneOptions State.init freeEvictDestroy).asserts :=
  have hon : redzoneOptions.leaksOnly = false ∧ redzoneOptions.shadowing = true := ⟨rfl, rfl⟩
  have hq : QuarantineContract redzoneOptions State.init freeEvictDestroy := by decide
  have hd : (freeEvictDestroy.filterMap HeapEvent.destroyedHeap).Nodup := by decide
  ⟨hon, by decide, hq, hd,
    delayFreeTree_consistent redzoneOptions hon (by decide) freeEvictDestroy hq hd⟩

end DrMemory
