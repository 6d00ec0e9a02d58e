import DrMemory.Alloc

/-!
# The shadow of heap blocks

What `client_handle_malloc`, `client_handle_realloc` and `client_handle_free`
leave in the shadow. A realloc is one byte-by-byte formula
(`clientHandleRealloc_shadow_apply`): the new block takes the old block's
tags up to the smaller size and is undefined beyond, the rest of the old
block becomes unaddressable, and nothing else moves. Over whole runs that
respect the allocator's contract, the shadow never calls a byte of a live
block unaddressable, and every byte of a freed or abandoned block that no
live block has taken back is unaddressable (`heapShadow_inv`).
-/

namespace DrMemory

section Realloc

variable {sh : Shadow} {oldBase oldSize newBase newSize a : Nat}

/-- The copy step of a realloc, with the undefined tail of a grown block. -/
theorem realloc_copy_apply :
    (if newSize > oldSize then
        shadowSetRange (shadowCopyRange sh oldBase newBase oldSize)
          (newBase + oldSize) (newBase + newSize) .undefined
      else shadowCopyRange sh oldBase newBase newSize) a =
      if newBase ≤ a ∧ a < newBase + newSize then
        (if a < newBase + oldSize then sh (oldBase + (a - newBase)) else .undefined)
      else sh a := by
  by_cases hgrow : newSize > oldSize
  · rw [if_pos hgrow, shadowSetRange_apply, shadowCopyRange_apply]
    by_cases htail : newBase + oldSize ≤ a ∧ a < newBase + newSize
    · rw [if_pos htail, if_pos (by omega), if_neg (by omega)]
    · rw [if_neg htail]
      by_cases hcopy : newBase ≤ a ∧ a < newBase + oldSize
      · rw [if_pos hcopy, if_pos (by omega), if_pos (by omega)]
      · rw [if_neg hcopy, if_neg (by omega)]
  · rw [if_neg hgrow, shadowCopyRange_apply]
    by_cases hnew : newBase ≤ a ∧ a < newBase + newSize
    · rw [if_pos hnew, if_pos hnew, if_pos (by omega)]
    · rw [if_neg hnew, if_neg hnew]

/-- The two unaddressable markings of a realloc cover exactly the part of the
old block outside the new one. -/
theorem realloc_mark_apply :
    (if newBase + newSize < oldBase + oldSize then
        shadowSetRange
          (if newBase > oldBase then
            shadowSetRange sh oldBase
              (if newBase < oldBase + oldSize then newBase else oldBase + oldSize) .unaddressable
          else sh)
          (if newBase + newSize < oldBase then oldBase else newBase + newSize)
          (oldBase + oldSize) .unaddressable
      else if newBase > oldBase then
        shadowSetRange sh oldBase
          (if newBase < oldBase + oldSize then newBase else oldBase + oldSize) .unaddressable
      else sh) a =
      if ¬ (newBase ≤ a ∧ a < newBase + newSize) ∧ oldBase ≤ a ∧ a < oldBase + oldSize then
        .unaddressable
      else sh a := by
  have hmin : (if newBase < oldBase + oldSize then newBase else oldBase + oldSize) =
      min newBase (oldBase + oldSize) := by split_ifs <;> omega
  have hmax : (if newBase + newSize < oldBase then oldBase else newBase + newSize) =
      max oldBase (newBase + newSize) := by split_ifs <;> omega
  /- the part of the old block below the new one -/
  have below : (if newBase > oldBase then
      shadowSetRange sh oldBase (min newBase (oldBase + oldSize)) .unaddressable else sh) a =
      if newBase > a ∧ oldBase ≤ a ∧ a < oldBase + oldSize then .unaddressable else sh a := by
    by_cases hb : newBase > a ∧ oldBase ≤ a ∧ a < oldBase + oldSize
    · rw [if_pos (by omega : newBase > oldBase), shadowSetRange_in _ (by omega) (by omega),
        if_pos hb]
    · rw [if_neg hb]
      split_ifs
      · exact shadowSetRange_out _ (by omega)
      · rfl
  rw [hmin, hmax]
  by_cases habove : newBase + newSize < oldBase + oldSize
  · rw [if_pos habove, shadowSetRange_apply, below]
    split_ifs <;> first | rfl | omega
  · rw [if_neg habove, below]
    split_ifs <;> first | rfl | omega

variable {o : Options} {s : State}

/-- The shadow after a realloc, byte by byte: new block first, then the
abandoned rest of the old block, then everything else untouched. -/
theorem clientHandleRealloc_shadow_apply (hon : o.leaksOnly = false ∧ o.shadowing = true) :
    (clientHandleRealloc o s oldBase oldSize newBase newSize).shadow a =
      if newBase ≤ a ∧ a < newBase + newSize then
        (if a < newBase + oldSize then s.shadow (oldBase + (a - newBase)) else .undefined)
      else if oldBase ≤ a ∧ a < oldBase + oldSize then .unaddressable
      else s.shadow a := by
  simp only [clientHandleRealloc, hon, Bool.not_false, Bool.true_and, if_true]
  rw [realloc_mark_apply, realloc_copy_apply]
  by_cases hnew : newBase ≤ a ∧ a < newBase + newSize <;> simp [hnew]

/-- With shadowing on, a realloc gives the new block the old block's tags up
to the smaller size and undefined tags beyond the old size, makes every byte
of the old block outside the new one unaddressable, and leaves every other
byte alone, whatever the relative placement of the two blocks. -/
theorem clientHandleRealloc_exact (o : Options) (hon : o.leaksOnly = false ∧ o.shadowing = true)
    (s : State) (oldBase oldSize newBase newSize : Nat) :
    (∀ i < min oldSize newSize,
      (clientHandleRealloc o s oldBase oldSize newBase newSize).shadow (newBase + i) =
        s.shadow (oldBase + i)) ∧
    (∀ i, oldSize ≤ i → i < newSize →
      (clientHandleRealloc o s oldBase oldSize newBase newSize).shadow (newBase + i) =
        .undefined) ∧
    (∀ a, oldBase ≤ a → a < oldBase + oldSize → (a < newBase ∨ newBase + newSize ≤ a) →
      (clientHandleRealloc o s oldBase oldSize newBase newSize).shadow a = .unaddressable) ∧
    (∀ a, (a < oldBase ∨ oldBase + oldSize ≤ a) → (a < newBase ∨ newBase + newSize ≤ a) →
      (clientHandleRealloc o s oldBase oldSize newBase newSize).shadow a = s.shadow a) := by
  refine ⟨fun i hi => ?_, fun i h1 h2 => ?_, fun a h1 h2 h3 => ?_, fun a h1 h2 => ?_⟩ <;>
    rw [clientHandleRealloc_shadow_apply hon]
  · rw [if_pos (by omega), if_pos (by omega), Nat.add_sub_cancel_left]
  · rw [if_pos (by omega), if_neg (by omega)]
  · rw [if_neg (by omega), if_pos (by omega)]
  · rw [if_neg (by omega), if_neg (by omega)]

/-- A realloc moving a 16-byte block up by 8 bytes and growing it to 24. -/
theorem clientHandleRealloc_exact_overlap :
    ((⟨false, true, 0, 0, 0⟩ : Options).leaksOnly = false ∧
      (⟨false, true, 0, 0, 0⟩ : Options).shadowing = true) ∧
    (∀ i < min 16 24,
      (clientHandleRealloc ⟨false, true, 0, 0, 0⟩ State.init 0x100 16 0x108 24).shadow (0x108 + i) =
        State.init.shadow (0x100 + i)) ∧
    (∀ i, 16 ≤ i → i < 24 →
      (clientHandleRealloc ⟨false, true, 0, 0, 0⟩ State.init 0x100 16 0x108 24).shadow (0x108 + i) =
        .undefined) ∧
    (∀ a, 0x100 ≤ a → a < 0x100 + 16 → (a < 0x108 ∨ 0x108 + 24 ≤ a) →
      (clientHandleRealloc ⟨false, true, 0, 0, 0⟩ State.init 0x100 16 0x108 24).shadow a =
        .unaddressable) ∧
    (∀ a, (a < 0x100 ∨ 0x100 + 16 ≤ a) → (a < 0x108 ∨ 0x108 + 24 ≤ a) →
      (clientHandleRealloc ⟨false, true, 0, 0, 0⟩ State.init 0x100 16 0x108 24).shadow a =
        State.init.shadow a) :=
  ⟨⟨rfl, rfl⟩, clientHandleRealloc_exact _ ⟨rfl, rfl⟩ _ _ _ _ _⟩

end Realloc

/-! ## Runs that respect the allocator's contract -/

/-- A heap block as the allocation layer reports it: app base and app size. -/
structure Block where
  base : Nat
  size : Nat
deriving Repr, DecidableEq

/-- The app body `[base, base + size)` of a block contains `a`. -/
def InBody (b : Block) (a : Nat) : Prop := b.base ≤ a ∧ a < b.base + b.size

/-- Two blocks share no byte. -/
def Apart (b c : Block) : Prop := ∀ a, InBody b a → ¬ InBody c a

theorem Apart.symm {b c : Block} (h : Apart b c) : Apart c b := fun a hc hb => h a hb hc

/-- The allocator's contract for one event, given the live blocks: a new
block (of a malloc or a realloc) shares no byte with any other live block,
and a realloc or a free acts on a live block. -/
def HeapEvent.Allowed (live : List Block) : HeapEvent → Prop
  | .malloc base size _ => ∀ b ∈ live, Apart b ⟨base, size⟩
  | .realloc oldBase oldSize newBase newSize =>
      ⟨oldBase, oldSize⟩ ∈ live ∧
        ∀ b ∈ live.erase ⟨oldBase, oldSize⟩, Apart b ⟨newBase, newSize⟩
  | .free base size _ _ => ⟨base, size⟩ ∈ live
  | .heapDestroy _ => True

/-- The live blocks after an event. -/
def HeapEvent.live (live : List Block) : HeapEvent → List Block
  | .malloc base size _ => ⟨base, size⟩ :: live
  | .realloc oldBase oldSize newBase newSize =>
      ⟨newBase, newSize⟩ :: live.erase ⟨oldBase, oldSize⟩
  | .free base size _ _ => live.erase ⟨base, size⟩
  | .heapDestroy _ => live

/-- The blocks freed, or abandoned by a realloc, after an event. -/
def HeapEvent.dead (dead : List Block) : HeapEvent → List Block
  | .realloc oldBase oldSize _ _ => ⟨oldBase, oldSize⟩ :: dead
  | .free base size _ _ => ⟨base, size⟩ :: dead
  | _ => dead

/-- A run respects the allocator's contract from the live blocks `live`. -/
def Contract (live : List Block) : List HeapEvent → Prop
  | [] => True
  | e :: evs => e.Allowed live ∧ Contract (e.live live) evs

/-- The shadow against the live and the dead blocks: live blocks are apart,
no byte of a live block is unaddressable, and every byte of a dead block
that no live block holds is unaddressable. -/
structure ShadowInv (sh : Shadow) (live dead : List Block) : Prop where
  apart : live.Pairwise Apart
  live_addressable : ∀ b ∈ live, ∀ a, InBody b a → sh a ≠ .unaddressable
  dead_unaddressable :
    ∀ a, (∃ b ∈ dead, InBody b a) → (∀ b ∈ live, ¬ InBody b a) → sh a = .unaddressable

/-- A byte outside the erased block is in a block of `live` only if it is in
one of `live.erase x`. -/
theorem not_inBody_of_erase {live : List Block} {x : Block} {a : Nat}
    (hx : ¬ InBody x a) (h : ∀ b ∈ live.erase x, ¬ InBody b a) : ∀ b ∈ live, ¬ InBody b a := by
  intro b hb
  by_cases hbx : b = x
  · exact hbx ▸ hx
  · exact h b (List.mem_erase_of_ne hbx |>.2 hb)

theorem shadowSetRange_of_not_inBody {sh : Shadow} {b : Block} {a : Nat} (val : ShadowVal)
    (h : ¬ InBody b a) : shadowSetRange sh b.base (b.base + b.size) val a = sh a :=
  shadowSetRange_out _ (by unfold InBody at h; omega)

section Step

variable {o : Options} {s : State} {live dead : List Block}
  (hon : o.leaksOnly = false ∧ o.shadowing = true)
include hon

theorem ShadowInv.malloc (hi : ShadowInv s.shadow live dead) {base size : Nat} (zeroed : Bool)
    (he : ∀ b ∈ live, Apart b ⟨base, size⟩) :
    ShadowInv (clientHandleMalloc o s base size zeroed).shadow (⟨base, size⟩ :: live) dead := by
  rw [clientHandleMalloc_shadow hon]
  refine ⟨List.pairwise_cons.2 ⟨fun b hb => (he b hb).symm, hi.apart⟩, fun b hb a ha => ?_,
    fun a hd hl => ?_⟩
  · by_cases hin : InBody ⟨base, size⟩ a
    · rw [shadowSetRange_in _ hin.1 hin.2]
      cases zeroed <;> simp
    · rw [shadowSetRange_of_not_inBody _ hin]
      rcases List.mem_cons.1 hb with rfl | hb
      · exact absurd ha hin
      · exact hi.live_addressable b hb a ha
  · rw [shadowSetRange_of_not_inBody _ (hl _ (List.mem_cons_self _ _))]
    exact hi.dead_unaddressable a hd fun b hb => hl b (List.mem_cons_of_mem _ hb)

theorem ShadowInv.realloc (hi : ShadowInv s.shadow live dead) {oldBase oldSize newBase newSize : Nat}
    (hold : ⟨oldBase, oldSize⟩ ∈ live)
    (he : ∀ b ∈ live.erase ⟨oldBase, oldSize⟩, Apart b ⟨newBase, newSize⟩) :
    ShadowInv (clientHandleRealloc o s oldBase oldSize newBase newSize).shadow
      (⟨newBase, newSize⟩ :: live.erase ⟨oldBase, oldSize⟩) (⟨oldBase, oldSize⟩ :: dead) := by
  refine ⟨List.pairwise_cons.2 ⟨fun b hb => (he b hb).symm,
    hi.apart.sublist (List.erase_sublist _ _)⟩, fun b hb a ha => ?_, fun a hd hl => ?_⟩
  all_goals rw [clientHandleRealloc_shadow_apply hon]
  · by_cases hn : newBase ≤ a ∧ a < newBase + newSize
    · rw [if_pos hn]
      by_cases hcopy : a < newBase + oldSize
      · rw [if_pos hcopy]
        exact hi.live_addressable _ hold _ (show oldBase ≤ _ ∧ _ < oldBase + oldSize by omega)
      · rw [if_neg hcopy]
        simp
    · rcases List.mem_cons.1 hb with rfl | hb
      · exact absurd ha hn
      have ho : ¬ (oldBase ≤ a ∧ a < oldBase + oldSize) :=
        fun h => pairwise_of_mem_erase Apart.symm hi.apart hold b hb a h ha
      rw [if_neg hn, if_neg ho]
      exact hi.live_addressable b (List.mem_of_mem_erase hb) a ha
  · have hn : ¬ (newBase ≤ a ∧ a < newBase + newSize) := hl _ (List.mem_cons_self _ _)
    rw [if_neg hn]
    by_cases ho : oldBase ≤ a ∧ a < oldBase + oldSize
    · rw [if_pos ho]
    · rw [if_neg ho]
      obtain ⟨b, hb, hba⟩ := hd
      rcases List.mem_cons.1 hb with rfl | hb
      · exact absurd hba ho
      exact hi.dead_unaddressable a ⟨b, hb, hba⟩
        (not_inBody_of_erase (show ¬ InBody ⟨oldBase, oldSize⟩ a from ho) fun c hc =>
          hl c (List.mem_cons_of_mem _ hc))

theorem ShadowInv.free (hi : ShadowInv s.shadow live dead) {base size realBase heap : Nat}
    (hx : ⟨base, size⟩ ∈ live) :
    ShadowInv (clientHandleFree o s base size realBase heap).1.shadow
      (live.erase ⟨base, size⟩) (⟨base, size⟩ :: dead) := by
  rw [clientHandleFree_shadow hon]
  refine ⟨hi.apart.sublist (List.erase_sublist _ _), fun b hb a ha => ?_, fun a hd hl => ?_⟩
  · rw [shadowSetRange_of_not_inBody _ fun h =>
      pairwise_of_mem_erase Apart.symm hi.apart hx b hb a h ha]
    exact hi.live_addressable b (List.mem_of_mem_erase hb) a ha
  · by_cases hin : InBody ⟨base, size⟩ a
    · exact shadowSetRange_in _ hin.1 hin.2
    · rw [shadowSetRange_of_not_inBody _ hin]
      obtain ⟨b, hb, hba⟩ := hd
      rcases List.mem_cons.1 hb with rfl | hb
      · exact absurd hba hin
      exact hi.dead_unaddressable a ⟨b, hb, hba⟩ (not_inBody_of_erase hin hl)

/-- One event that respects the contract keeps the invariant. -/
theorem ShadowInv.step (hi : ShadowInv s.shadow live dead) {e : HeapEvent}
    (he : e.Allowed live) : ShadowInv (heapStep o s e).shadow (e.live live) (e.dead dead) := by
  cases e with
  | malloc base size zeroed => exact hi.malloc hon zeroed he
  | realloc oldBase oldSize newBase newSize => exact hi.realloc hon he.1 he.2
  | free base size realBase heap => exact hi.free hon he
  | heapDestroy heap =>
    show ShadowInv (clientHandleHeapDestroy s heap).shadow live dead
    rwa [clientHandleHeapDestroy, foldl_heapDestroySlot_shadow]

/-- A run that respects the contract keeps the invariant. -/
theorem ShadowInv.run (evs : List HeapEvent) :
    ∀ {s live dead}, ShadowInv s.shadow live dead → Contract live evs →
      ShadowInv (heapRun o s evs).shadow (evs.foldl HeapEvent.live live)
        (evs.foldl HeapEvent.dead dead) := by
  induction evs with
  | nil => exact fun hi _ => hi
  | cons e evs ih => exact fun hi hc => ih (hi.step hon hc.1) hc.2

end Step

/-- With shadowing on, along every run of heap events that respects the
allocator's contract, from any state: no byte of a live block is
unaddressable; every byte of a freed or abandoned block that no live block
holds is unaddressable; and so every byte of a freed block that the contract
keeps apart from the live blocks, as it does for the blocks still in the
delayed-free quarantine, is unaddressable. -/
theorem heapShadow_inv (o : Options) (hon : o.leaksOnly = false ∧ o.shadowing = true)
    (s : State) (evs : List HeapEvent) (hc : Contract [] evs) :
    (∀ b ∈ evs.foldl HeapEvent.live [], ∀ a, InBody b a →
      (heapRun o s evs).shadow a ≠ .unaddressable) ∧
    (∀ a, (∃ b ∈ evs.foldl HeapEvent.dead [], InBody b a) →
      (∀ b ∈ evs.foldl HeapEvent.live [], ¬ InBody b a) →
      (heapRun o s evs).shadow a = .unaddressable) ∧
    (∀ b ∈ evs.foldl HeapEvent.dead [], (∀ c ∈ evs.foldl HeapEvent.live [], Apart c b) →
      ∀ a, InBody b a → (heapRun o s evs).shadow a = .unaddressable) := by
  have hi : ShadowInv (heapRun o s evs).shadow (evs.foldl HeapEvent.live [])
      (evs.foldl HeapEvent.dead []) := ShadowInv.run hon evs ⟨.nil, by simp, by simp⟩ hc
  exact ⟨hi.live_addressable, hi.dead_unaddressable, fun b hb hap a ha =>
    hi.dead_unaddressable a ⟨b, hb, ha⟩ fun c hc hca => hap c hc a hca ha⟩

/-- A malloc, its free into the quarantine, and a zeroed malloc elsewhere. -/
def mallocFreeMalloc : List HeapEvent :=
  [.malloc 0x100 16 false, .free 0x100 16 0xf8 0, .malloc 0x200 8 true]

theorem heapShadow_inv_mallocFreeMalloc :
    ((⟨false, true, 2, 8, 0⟩ : Options).leaksOnly = false ∧
      (⟨false, true, 2, 8, 0⟩ : Options).shadowing = true) ∧
    Contract [] mallocFreeMalloc ∧
    (∀ b ∈ mallocFreeMalloc.foldl HeapEvent.live [], ∀ a, InBody b a →
      (heapRun ⟨false, true, 2, 8, 0⟩ State.init mallocFreeMalloc).shadow a ≠ .unaddressable) ∧
    (∀ a, (∃ b ∈ mallocFreeMalloc.foldl HeapEvent.dead [], InBody b a) →
      (∀ b ∈ mallocFreeMalloc.foldl HeapEvent.live [], ¬ InBody b a) →
      (heapRun ⟨false, true, 2, 8, 0⟩ State.init mallocFreeMalloc).shadow a = .unaddressable) ∧
    (∀ b ∈ mallocFreeMalloc.foldl HeapEvent.dead [],
      (∀ c ∈ mallocFreeMalloc.foldl HeapEvent.live [], Apart c b) →
      ∀ a, InBody b a →
        (heapRun ⟨false, true, 2, 8, 0⟩ State.init mallocFreeMalloc).shadow a = .unaddressable) :=
  have hc : Contract [] mallocFreeMalloc := by
    simp [mallocFreeMalloc, Contract, HeapEvent.Allowed, HeapEvent.live]
  ⟨⟨rfl, rfl⟩, hc, heapShadow_inv _ ⟨rfl, rfl⟩ _ _ hc⟩

end DrMemory
