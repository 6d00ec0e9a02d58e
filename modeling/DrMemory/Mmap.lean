import DrMemory.State

/-!
# Anonymous mappings on Linux

`mmap_tree` records the anonymous mappings so that stack bounds can be
told apart from them. `mmap_tree_add` merges a new range into the one
stored node it overlaps; `mmap_tree_remove` cuts a range out of every node
it meets, putting back the parts below and above; `mmap_anon_lookup` returns
the node holding an address. `client_handle_mmap`, `client_handle_munmap`,
`client_handle_munmap_fail` and `client_handle_mremap` drive them and mark the
shadow; file mappings go to `mmap_walk`, which is not among the sources and
is a parameter here.

Over a tree of pairwise-apart nodes, the removal loop terminates (each pass
removes one node that meets the range and puts back none), keeps the nodes
apart and uncovers exactly the range (`mmapTreeRemove_spec`); an addition
that meets no node covers exactly the old addresses and the range
(`mmapTreeAdd_of_apart`). An addition that meets a node goes wrong either
way (`mmapTreeAdd_overlap`): the merged node goes in and the inverted
`ASSERT(node != NULL, "mmap tree error")` fires, or a second stored node
blocks the merged one and the first node's range is lost. A failed munmap
is undone by trusting the `anon` flag (`munmap_fail_covers`): the range is
re-added whole when it is set, and not at all when it is not. The munmap
itself does not trust the flag (`anon` is "not known to common/alloc.c") and
removes whatever the tree held, so a tracked range with `anon` clear is lost
(`munmap_fail_covers_not_anon`), and an untracked one with `anon` set is
added.
-/

namespace DrMemory

/-- The walk of a file mapping's sub-regions, `mmap_walk(base, size, add)`:
it only marks the shadow. -/
abbrev MmapWalk := Shadow → Nat → Nat → Bool → Shadow

/-! ## The tree -/

/-- `mmap_tree_add`: insert the range, or on overlap delete the overlapping
node and insert the union of the two in its place. -/
def mmapTreeAdd (s : State) (base size : Nat) : State :=
  match rbInsert s.mmapTree base size () with
  | (t, none) => { s with mmapTree := t }
  | (t, some node) =>
    let t := rbDelete t node
    let mergeEnd :=
      if base + size > node.base + node.size then base + size else node.base + node.size
    let mergeBase := if base < node.base then base else node.base
    let r := rbInsert t mergeBase (mergeEnd - mergeBase) ()
    { s with mmapTree := r.1, asserts := assert s.asserts (r.2 ≠ none) "mmap tree error" }

/-- `node = rb_insert(mmap_tree, base, size, NULL)` followed by
`ASSERT(node == NULL, "mmap tree error")`. -/
def mmapTreeInsertChecked (s : State) (base size : Nat) : State :=
  let r := rbInsert s.mmapTree base size ()
  { s with mmapTree := r.1, asserts := assert s.asserts (r.2 = none) "mmap tree error" }

/-- One pass of the loop of `mmap_tree_remove` on the node it found: delete
it, then put back its parts below and above `[base, base + size)`. -/
def mmapTreeRemoveNode (s : State) (base size : Nat) (node : RbNode Unit) : State :=
  let s := { s with mmapTree := rbDelete s.mmapTree node }
  let s := if node.base < base then mmapTreeInsertChecked s node.base (base - node.base) else s
  if node.base + node.size > base + size then
    mmapTreeInsertChecked s (base + size) (node.base + node.size - (base + size))
  else s

/-- The number of stored nodes that meet `[base, base + size)`. -/
def mmapMeetCount (t : RbTree Unit) (base size : Nat) : Nat :=
  t.countP fun n => decide (n.Meets base (base + size))

/-- Putting back a node that ends at or before `base`, or starts at or after
`base + size`, leaves the count. -/
theorem mmapMeetCount_insertChecked {c : Prop} [Decidable c] (s : State) {base size : Nat}
    (b sz : Nat) (h : c → b + sz ≤ base ∨ base + size ≤ b) :
    mmapMeetCount (if c then mmapTreeInsertChecked s b sz else s).mmapTree base size =
      mmapMeetCount s.mmapTree base size := by
  split_ifs with hc
  · exact rbInsert_countP _ _ _ _ _
      (by simp only [RbNode.Meets, decide_eq_false_iff_not]; have := h hc; omega)
  · rfl

/-- A pass removes the node it found and puts back no node that meets the
range. -/
theorem mmapTreeRemoveNode_count_lt {s : State} {base size : Nat} {node : RbNode Unit}
    (h : rbOverlapsNode s.mmapTree base (base + size) = some node) :
    mmapMeetCount (mmapTreeRemoveNode s base size node).mmapTree base size <
      mmapMeetCount s.mmapTree base size := by
  obtain ⟨hmem, hmeets⟩ := rbOverlapsNode_some h
  have hdel : mmapMeetCount (rbDelete s.mmapTree node) base size + 1 =
      mmapMeetCount s.mmapTree base size := rbDelete_countP _ hmem (decide_eq_true hmeets)
  unfold mmapTreeRemoveNode
  rw [mmapMeetCount_insertChecked _ _ _ fun _ => .inr le_rfl,
    mmapMeetCount_insertChecked _ _ _ fun _ => .inl (by omega)]
  exact Nat.lt_of_succ_le hdel.le

set_option linter.unusedVariables false in
/-- The loop of `mmap_tree_remove`: while a stored node meets the range,
cut the range out of it; `res` records that some node was found. -/
def mmapTreeRemoveLoop (base size : Nat) (s : State) (res : Bool) : State × Bool :=
  match hov : rbOverlapsNode s.mmapTree base (base + size) with
  | none => (s, res)
  | some node => mmapTreeRemoveLoop base size (mmapTreeRemoveNode s base size node) true
termination_by mmapMeetCount s.mmapTree base size
decreasing_by exact mmapTreeRemoveNode_count_lt hov

/-- `mmap_tree_remove`: whether some anonymous mapping met the range. -/
def mmapTreeRemove (s : State) (base size : Nat) : State × Bool :=
  mmapTreeRemoveLoop base size s false

/-- `mmap_anon_lookup`: the stored mapping that holds `addr`. -/
def mmapAnonLookup (s : State) (addr : Nat) : Option (Nat × Nat) :=
  (rbInNode s.mmapTree addr).map fun n => (n.base, n.size)

/-! ## The events -/

/-- `client_handle_mmap` on Linux: an anonymous mapping made outside a heap
routine is defined, and every anonymous mapping is recorded; a file mapping
is walked. -/
def clientHandleMmap (o : Options) (s : State) (mmapWalk : MmapWalk) (inHeapRoutine : Nat)
    (base size : Nat) (anon : Bool) : State :=
  if anon then
    let s := if inHeapRoutine = 0 ∧ (!o.leaksOnly && o.shadowing) = true then
        { s with shadow := shadowSetRange s.shadow base (base + size) .defined }
      else s
    mmapTreeAdd s base size
  else if !o.leaksOnly && o.shadowing then
    { s with shadow := mmapWalk s.shadow base size true }
  else s

/-- `client_handle_munmap` on Linux: a range that met a recorded mapping is
unaddressable, any other is walked. -/
def clientHandleMunmap (o : Options) (s : State) (mmapWalk : MmapWalk) (base size : Nat)
    (_anon : Bool) : State :=
  let r := mmapTreeRemove s base size
  let s := r.1
  if r.2 then
    if !o.leaksOnly && o.shadowing then
      { s with shadow := shadowSetRange s.shadow base (base + size) .unaddressable }
    else s
  else if !o.leaksOnly && o.shadowing then
    { s with shadow := mmapWalk s.shadow base size false }
  else s

/-- `client_handle_munmap_fail` on Linux: an anonymous range is defined and
recorded again, a file range is walked again. -/
def clientHandleMunmapFail (o : Options) (s : State) (mmapWalk : MmapWalk) (base size : Nat)
    (anon : Bool) : State :=
  if anon then
    let s := if !o.leaksOnly && o.shadowing then
        { s with shadow := shadowSetRange s.shadow base (base + size) .defined }
      else s
    mmapTreeAdd s base size
  else if !o.leaksOnly && o.shadowing then
    { s with shadow := mmapWalk s.shadow base size true }
  else s

/-- `client_handle_mremap`: move the shadow of the kept part, mark a cut
tail unaddressable or a grown tail undefined (defined for an image), then
move the range in the tree, asserting that the old one was anonymous. -/
def clientHandleMremap (o : Options) (s : State) (oldBase oldSize newBase newSize : Nat)
    (image : Bool) : State :=
  let shrink := decide (newSize < oldSize)
  let s := if !o.leaksOnly && o.shadowing then
      let sh := shadowCopyRange s.shadow oldBase newBase (if shrink then newSize else oldSize)
      let sh := if shrink then shadowSetRange sh (oldBase + newSize) (oldBase + oldSize) .unaddressable
        else shadowSetRange sh (newBase + oldSize) (newBase + newSize)
          (if image then .defined else .undefined)
      { s with shadow := sh }
    else s
  let r := mmapTreeRemove s oldBase oldSize
  let s := { r.1 with
    asserts := assert r.1.asserts (r.2 = true) "for now assuming mremap is of anon regions only" }
  mmapTreeAdd s newBase newSize

/-! ## What the tree operations leave -/

section Tree

variable {s : State} {base size : Nat}

@[simp] theorem mmapTreeAdd_shadow : (mmapTreeAdd s base size).shadow = s.shadow := by
  unfold mmapTreeAdd
  split <;> rfl

/-- `mmap_tree_add` reads only the tree and the assertion log. -/
theorem mmapTreeAdd_with_shadow (sh : Shadow) :
    mmapTreeAdd { s with shadow := sh } base size = { mmapTreeAdd s base size with shadow := sh } := by
  unfold mmapTreeAdd
  dsimp only
  rcases rbInsert s.mmapTree base size () with ⟨t, _ | n⟩ <;> rfl

/-- An addition that meets no stored node inserts the range as it is. -/
theorem mmapTreeAdd_of_apart (hd : s.mmapTree.Pairwise RbNode.Apart)
    (h : ∀ n ∈ s.mmapTree, ¬ n.Meets base (base + size)) :
    (mmapTreeAdd s base size).asserts = s.asserts ∧
      (mmapTreeAdd s base size).mmapTree.Pairwise RbNode.Apart ∧
      ∀ a, rbCovers (mmapTreeAdd s base size).mmapTree a ↔
        (base ≤ a ∧ a < base + size) ∨ rbCovers s.mmapTree a := by
  obtain ⟨hnone, hp, hc⟩ := rbInsert_apart () hd h
  unfold mmapTreeAdd
  split
  · next t heq => rw [heq] at hp hc; exact ⟨rfl, hp, hc⟩
  · next t n heq => rw [heq] at hnone; cases hnone

/-- A checked insertion of a range none of whose addresses is covered
reaches no assertion and covers the range too. -/
theorem mmapTreeInsertChecked_ite_spec (c : Prop) [Decidable c] (s : State) (b sz : Nat)
    (hd : s.mmapTree.Pairwise RbNode.Apart)
    (h : c → ∀ a, b ≤ a → a < b + sz → ¬ rbCovers s.mmapTree a) :
    (if c then mmapTreeInsertChecked s b sz else s).asserts = s.asserts ∧
      (if c then mmapTreeInsertChecked s b sz else s).mmapTree.Pairwise RbNode.Apart ∧
      ∀ a, rbCovers (if c then mmapTreeInsertChecked s b sz else s).mmapTree a ↔
        (c ∧ b ≤ a ∧ a < b + sz) ∨ rbCovers s.mmapTree a := by
  by_cases hc : c
  · obtain ⟨hnone, hp, hcov⟩ := rbInsert_apart () hd fun n hn hm =>
      let ⟨a, h1, h2, hna⟩ := RbNode.meets_iff.1 hm
      h hc a h1 h2 ⟨n, hn, hna⟩
    rw [if_pos hc]
    exact ⟨by simp [mmapTreeInsertChecked, hnone], hp,
      fun a => by simp only [hc, true_and]; exact hcov a⟩
  · rw [if_neg hc]
    exact ⟨rfl, hd, fun a => by simp [hc]⟩

/-- A pass of the removal loop on a stored node that meets the range keeps a
disjoint tree disjoint, reaches no assertion, and uncovers exactly the node's
part of the range. -/
theorem mmapTreeRemoveNode_spec (hd : s.mmapTree.Pairwise RbNode.Apart) {node : RbNode Unit}
    (hn : node ∈ s.mmapTree) (hm : node.Meets base (base + size)) :
    (mmapTreeRemoveNode s base size node).asserts = s.asserts ∧
      (mmapTreeRemoveNode s base size node).mmapTree.Pairwise RbNode.Apart ∧
      ∀ a, rbCovers (mmapTreeRemoveNode s base size node).mmapTree a ↔
        rbCovers s.mmapTree a ∧ ¬ (node.Covers a ∧ base ≤ a ∧ a < base + size) := by
  have hdel := rbDelete_covers hd hn
  obtain ⟨-, -, hlt, hgt⟩ := hm
  /- the part below the range, then the part above it -/
  obtain ⟨a1, d1, c1⟩ := mmapTreeInsertChecked_ite_spec (node.base < base)
    { s with mmapTree := rbDelete s.mmapTree node } node.base (base - node.base)
    (rbDelete_pairwise node hd) fun _ a h1 h2 hc => ((hdel a).1 hc).2 ⟨h1, by omega⟩
  obtain ⟨a2, d2, c2⟩ := mmapTreeInsertChecked_ite_spec (node.base + node.size > base + size)
    _ (base + size) (node.base + node.size - (base + size)) d1 fun _ a h1 h2 hc => by
      rcases (c1 a).1 hc with ⟨_, _, _⟩ | hc
      · omega
      · exact ((hdel a).1 hc).2 ⟨by omega, by omega⟩
  refine ⟨a2.trans a1, d2, fun a => (c2 a).trans ?_⟩
  rw [c1, hdel]
  unfold RbNode.Covers
  constructor
  · rintro (⟨_, h1, h2⟩ | ⟨_, h1, h2⟩ | ⟨hc, hnc⟩)
    · exact ⟨⟨node, hn, by omega, by omega⟩, by omega⟩
    · exact ⟨⟨node, hn, by omega, by omega⟩, by omega⟩
    · exact ⟨hc, fun h => hnc h.1⟩
  · rintro ⟨hc, hno⟩
    by_cases hnc : node.base ≤ a ∧ a < node.base + node.size
    · by_cases hlo : a < base
      · exact .inr (.inl ⟨by omega, by omega, by omega⟩)
      · exact .inl ⟨by omega, by omega, by omega⟩
    · exact .inr (.inr ⟨hc, hnc⟩)

theorem mmapTreeRemoveLoop_of_none {res : Bool}
    (h : rbOverlapsNode s.mmapTree base (base + size) = none) :
    mmapTreeRemoveLoop base size s res = (s, res) := by
  rw [mmapTreeRemoveLoop]
  split
  · rfl
  · next node h' => rw [h] at h'; cases h'

theorem mmapTreeRemoveLoop_of_some {res : Bool} {node : RbNode Unit}
    (h : rbOverlapsNode s.mmapTree base (base + size) = some node) :
    mmapTreeRemoveLoop base size s res =
      mmapTreeRemoveLoop base size (mmapTreeRemoveNode s base size node) true := by
  rw [mmapTreeRemoveLoop]
  split
  · next h' => rw [h] at h'; cases h'
  · next node' h' => rw [h] at h'; cases h'; rfl

/-- On a disjoint tree the removal loop reaches no assertion, keeps the tree
disjoint and uncovers exactly the range; it reports whether a stored node met
the range. -/
theorem mmapTreeRemoveLoop_spec (res : Bool) (hd : s.mmapTree.Pairwise RbNode.Apart) :
    (mmapTreeRemoveLoop base size s res).1.asserts = s.asserts ∧
      (mmapTreeRemoveLoop base size s res).1.mmapTree.Pairwise RbNode.Apart ∧
      (∀ a, rbCovers (mmapTreeRemoveLoop base size s res).1.mmapTree a ↔
        rbCovers s.mmapTree a ∧ ¬ (base ≤ a ∧ a < base + size)) ∧
      (mmapTreeRemoveLoop base size s res).2 =
        (res || (rbOverlapsNode s.mmapTree base (base + size)).isSome) := by
  induction s, res using mmapTreeRemoveLoop.induct base size with
  | case1 s res hnone =>
    rw [mmapTreeRemoveLoop_of_none hnone]
    refine ⟨rfl, hd, fun a => ⟨fun hc => ⟨hc, fun hin => ?_⟩, And.left⟩, by simp [hnone]⟩
    obtain ⟨n, hn, hna⟩ := hc
    exact rbOverlapsNode_none hnone n hn (RbNode.meets_iff.2 ⟨a, hin.1, hin.2, hna⟩)
  | case2 s res node hsome ih =>
    obtain ⟨hn, hm⟩ := rbOverlapsNode_some hsome
    obtain ⟨a1, d1, c1⟩ := mmapTreeRemoveNode_spec hd hn hm
    obtain ⟨a2, d2, c2, r2⟩ := ih d1
    rw [mmapTreeRemoveLoop_of_some hsome]
    /- the node's part that goes lies inside the range -/
    exact ⟨a2.trans a1, d2, fun a => by
      rw [c2, c1]
      exact ⟨fun h => ⟨h.1.1, h.2⟩, fun h => ⟨⟨h.1, fun hc => h.2 hc.2⟩, h.2⟩⟩, by simp [r2, hsome]⟩

/-- `mmap_tree_remove` on a disjoint tree. -/
theorem mmapTreeRemove_spec (base size : Nat) (hd : s.mmapTree.Pairwise RbNode.Apart) :
    (mmapTreeRemove s base size).1.asserts = s.asserts ∧
      (mmapTreeRemove s base size).1.mmapTree.Pairwise RbNode.Apart ∧
      (∀ a, rbCovers (mmapTreeRemove s base size).1.mmapTree a ↔
        rbCovers s.mmapTree a ∧ ¬ (base ≤ a ∧ a < base + size)) ∧
      (mmapTreeRemove s base size).2 = (rbOverlapsNode s.mmapTree base (base + size)).isSome := by
  simpa using mmapTreeRemoveLoop_spec false hd

/-- An addition whose range meets a stored node `n` replaces `n` by the
union of the two ranges, if it can. -/
theorem mmapTreeAdd_of_overlaps {n : RbNode Unit}
    (hn : rbOverlapsNode s.mmapTree base (base + size) = some n) :
    mmapTreeAdd s base size =
      { s with
        mmapTree := (rbInsert (rbDelete s.mmapTree n) (min base n.base)
          (max (base + size) (n.base + n.size) - min base n.base) ()).1
        asserts := assert s.asserts ((rbInsert (rbDelete s.mmapTree n) (min base n.base)
          (max (base + size) (n.base + n.size) - min base n.base) ()).2 ≠ none)
          "mmap tree error" } := by
  have hmin : (if base < n.base then base else n.base) = min base n.base := by
    split_ifs <;> omega
  have hmax : (if base + size > n.base + n.size then base + size else n.base + n.size) =
      max (base + size) (n.base + n.size) := by
    split_ifs <;> omega
  simp only [mmapTreeAdd, rbInsert_of_overlaps () hn, hmin, hmax]

@[simp] theorem mmapTreeRemoveLoop_shadow (res : Bool) :
    (mmapTreeRemoveLoop base size s res).1.shadow = s.shadow := by
  induction s, res using mmapTreeRemoveLoop.induct base size with
  | case1 s res hnone => rw [mmapTreeRemoveLoop_of_none hnone]
  | case2 s res node hsome ih =>
    rw [mmapTreeRemoveLoop_of_some hsome, ih]
    unfold mmapTreeRemoveNode mmapTreeInsertChecked
    split_ifs <;> rfl

end Tree

/-- `mmap_tree_remove` on a tree of pairwise-apart nodes: each pass of its
loop lowers the number of stored nodes that meet the range, so the loop ends;
it reaches no `"mmap tree error"`, keeps the nodes apart, leaves covered
exactly the old addresses outside the range, and reports whether an old
address of the range was covered. -/
theorem mmapTreeRemove_cuts_range (s : State) (base size : Nat)
    (hd : s.mmapTree.Pairwise RbNode.Apart) :
    (∀ (t : State) (node : RbNode Unit), rbOverlapsNode t.mmapTree base (base + size) = some node →
      mmapMeetCount (mmapTreeRemoveNode t base size node).mmapTree base size <
        mmapMeetCount t.mmapTree base size) ∧
    (mmapTreeRemove s base size).1.asserts = s.asserts ∧
    (mmapTreeRemove s base size).1.mmapTree.Pairwise RbNode.Apart ∧
    (∀ a, rbCovers (mmapTreeRemove s base size).1.mmapTree a ↔
      rbCovers s.mmapTree a ∧ ¬ (base ≤ a ∧ a < base + size)) ∧
    ((mmapTreeRemove s base size).2 = true ↔
      ∃ a, base ≤ a ∧ a < base + size ∧ rbCovers s.mmapTree a) := by
  obtain ⟨ha, hp, hc, hr⟩ := mmapTreeRemove_spec base size hd
  exact ⟨fun _ _ => mmapTreeRemoveNode_count_lt, ha, hp, hc, hr ▸ rbOverlapsNode_isSome⟩

/-! ## An addition that overlaps -/

/-- An addition whose range meets a stored node of a disjoint tree, `n` the
first one. When no other stored node meets the union of the two ranges, the
union goes in and `ASSERT(node != NULL, "mmap tree error")` fires; when one
does, the union is refused and no assertion fires, but `n` is gone and its
addresses are no longer covered. -/
theorem mmapTreeAdd_overlap (s : State) (base size : Nat) (n : RbNode Unit)
    (hd : s.mmapTree.Pairwise RbNode.Apart)
    (hn : rbOverlapsNode s.mmapTree base (base + size) = some n) :
    ((∀ m ∈ s.mmapTree.erase n,
        ¬ m.Meets (min base n.base) (max (base + size) (n.base + n.size))) →
      (mmapTreeAdd s base size).asserts = s.asserts ++ ["mmap tree error"] ∧
      (mmapTreeAdd s base size).mmapTree.Pairwise RbNode.Apart ∧
      ∀ a, rbCovers (mmapTreeAdd s base size).mmapTree a ↔
        (base ≤ a ∧ a < base + size) ∨ rbCovers s.mmapTree a) ∧
    ((∃ m ∈ s.mmapTree.erase n,
        m.Meets (min base n.base) (max (base + size) (n.base + n.size))) →
      (mmapTreeAdd s base size).asserts = s.asserts ∧
      (mmapTreeAdd s base size).mmapTree = s.mmapTree.erase n ∧
      ∃ a, rbCovers s.mmapTree a ∧ ¬ rbCovers (mmapTreeAdd s base size).mmapTree a) := by
  obtain ⟨hmem, hm⟩ := rbOverlapsNode_some hn
  have hdel := rbDelete_covers hd hmem
  have hend : min base n.base + (max (base + size) (n.base + n.size) - min base n.base) =
      max (base + size) (n.base + n.size) := by omega
  rw [mmapTreeAdd_of_overlaps hn]
  constructor
  · intro hfree
    obtain ⟨hnone, hp, hcov⟩ := rbInsert_apart () (rbDelete_pairwise n hd) (by rwa [hend])
    refine ⟨by simp [hnone, assert], hp, fun a => (hcov a).trans ?_⟩
    rw [hdel, hend]
    unfold RbNode.Meets at hm
    constructor
    · rintro (⟨h1, h2⟩ | ⟨hc, -⟩)
      · by_cases hin : base ≤ a ∧ a < base + size
        · exact .inl hin
        · exact .inr ⟨n, hmem, by omega, by omega⟩
      · exact .inr hc
    · rintro (⟨h1, h2⟩ | hc)
      · exact .inl ⟨by omega, by omega⟩
      · by_cases hna : n.Covers a
        · unfold RbNode.Covers at hna
          exact .inl ⟨by omega, by omega⟩
        · exact .inr ⟨hc, hna⟩
  · rintro ⟨m, hm', hmm⟩
    rcases rbInsert_spec (rbDelete s.mmapTree n) (min base n.base)
        (max (base + size) (n.base + n.size) - min base n.base) () with
      ⟨n', heq, -⟩ | ⟨hno, -⟩
    · rw [heq]
      refine ⟨by simp, rfl, n.base, ⟨n, hmem, le_rfl, by unfold RbNode.Meets at hm; omega⟩,
        fun hc => ((hdel _).1 hc).2 ⟨le_rfl, by unfold RbNode.Meets at hm; omega⟩⟩
    · exact absurd (by rwa [hend]) (hno m hm')

/-- Two anonymous mappings, `[0x1000, 0x2000)` and `[0x3000, 0x4000)`. -/
def twoMappings : State :=
  { State.init with mmapTree := [⟨0x1000, 0x1000, ()⟩, ⟨0x3000, 0x1000, ()⟩] }

/-- Adding `[0x1800, 0x3800)`, which meets both: the union with the first is
blocked by the second, and `[0x1000, 0x1800)` is lost. -/
theorem mmapTreeAdd_overlap_two :
    twoMappings.mmapTree.Pairwise RbNode.Apart ∧
    rbOverlapsNode twoMappings.mmapTree 0x1800 (0x1800 + 0x2000) = some ⟨0x1000, 0x1000, ()⟩ ∧
    ((∀ m ∈ twoMappings.mmapTree.erase ⟨0x1000, 0x1000, ()⟩,
        ¬ m.Meets (min 0x1800 0x1000) (max (0x1800 + 0x2000) (0x1000 + 0x1000))) →
      (mmapTreeAdd twoMappings 0x1800 0x2000).asserts = twoMappings.asserts ++ ["mmap tree error"] ∧
      (mmapTreeAdd twoMappings 0x1800 0x2000).mmapTree.Pairwise RbNode.Apart ∧
      ∀ a, rbCovers (mmapTreeAdd twoMappings 0x1800 0x2000).mmapTree a ↔
        (0x1800 ≤ a ∧ a < 0x1800 + 0x2000) ∨ rbCovers twoMappings.mmapTree a) ∧
    ((∃ m ∈ twoMappings.mmapTree.erase ⟨0x1000, 0x1000, ()⟩,
        m.Meets (min 0x1800 0x1000) (max (0x1800 + 0x2000) (0x1000 + 0x1000))) →
      (mmapTreeAdd twoMappings 0x1800 0x2000).asserts = twoMappings.asserts ∧
      (mmapTreeAdd twoMappings 0x1800 0x2000).mmapTree =
        twoMappings.mmapTree.erase ⟨0x1000, 0x1000, ()⟩ ∧
      ∃ a, rbCovers twoMappings.mmapTree a ∧
        ¬ rbCovers (mmapTreeAdd twoMappings 0x1800 0x2000).mmapTree a) :=
  ⟨by decide, by decide, mmapTreeAdd_overlap _ _ _ _ (by decide) (by decide)⟩

/-- Removing `[0x1800, 0x3800)` from `twoMappings` cuts through both stored
mappings. -/
theorem mmapTreeRemove_cuts_range_two :
    twoMappings.mmapTree.Pairwise RbNode.Apart ∧
    (∀ (t : State) (node : RbNode Unit), rbOverlapsNode t.mmapTree 0x1800 (0x1800 + 0x2000) = some node →
      mmapMeetCount (mmapTreeRemoveNode t 0x1800 0x2000 node).mmapTree 0x1800 0x2000 <
        mmapMeetCount t.mmapTree 0x1800 0x2000) ∧
    (mmapTreeRemove twoMappings 0x1800 0x2000).1.asserts = twoMappings.asserts ∧
    (mmapTreeRemove twoMappings 0x1800 0x2000).1.mmapTree.Pairwise RbNode.Apart ∧
    (∀ a, rbCovers (mmapTreeRemove twoMappings 0x1800 0x2000).1.mmapTree a ↔
      rbCovers twoMappings.mmapTree a ∧ ¬ (0x1800 ≤ a ∧ a < 0x1800 + 0x2000)) ∧
    ((mmapTreeRemove twoMappings 0x1800 0x2000).2 = true ↔
      ∃ a, 0x1800 ≤ a ∧ a < 0x1800 + 0x2000 ∧ rbCovers twoMappings.mmapTree a) :=
  ⟨by decide, mmapTreeRemove_cuts_range twoMappings 0x1800 0x2000 (by decide)⟩

/-! ## munmap and its failure -/

section Events

variable (o : Options) (mmapWalk : MmapWalk) (s : State) (base size : Nat)

/-- `client_handle_munmap` changes the tree only through `mmap_tree_remove`. -/
theorem clientHandleMunmap_tree (anon : Bool) :
    (clientHandleMunmap o s mmapWalk base size anon).mmapTree =
        (mmapTreeRemove s base size).1.mmapTree ∧
      (clientHandleMunmap o s mmapWalk base size anon).asserts =
        (mmapTreeRemove s base size).1.asserts := by
  unfold clientHandleMunmap
  dsimp only
  split_ifs <;> exact ⟨rfl, rfl⟩

/-- `client_handle_munmap_fail` changes the tree only through
`mmap_tree_add`, and only for an anonymous range. -/
theorem clientHandleMunmapFail_tree (anon : Bool) :
    (clientHandleMunmapFail o s mmapWalk base size anon).mmapTree =
        (if anon then (mmapTreeAdd s base size).mmapTree else s.mmapTree) ∧
      (clientHandleMunmapFail o s mmapWalk base size anon).asserts =
        (if anon then (mmapTreeAdd s base size).asserts else s.asserts) := by
  unfold clientHandleMunmapFail
  cases anon <;> simp only [if_true, Bool.false_eq_true, if_false] <;> split_ifs <;>
    simp [mmapTreeAdd_with_shadow]

end Events

/-- With any options and any walker, from a disjoint tree, an munmap whose
system call fails and is rolled back reaches no assertion and keeps the tree
disjoint; the covered addresses gain the whole range when `anon` is set and
lose it when it is not, whatever the tree held before, so they come back as
they were exactly when every address of the range was covered before if
`anon` is set, and none was if it is not. -/
theorem munmap_fail_covers (o : Options) (mmapWalk : MmapWalk) (s : State) (base size : Nat)
    (anon : Bool) (hd : s.mmapTree.Pairwise RbNode.Apart) :
    (clientHandleMunmapFail o (clientHandleMunmap o s mmapWalk base size anon) mmapWalk
        base size anon).asserts = s.asserts ∧
    (clientHandleMunmapFail o (clientHandleMunmap o s mmapWalk base size anon) mmapWalk
        base size anon).mmapTree.Pairwise RbNode.Apart ∧
    (∀ a, rbCovers (clientHandleMunmapFail o (clientHandleMunmap o s mmapWalk base size anon)
        mmapWalk base size anon).mmapTree a ↔
      if anon then rbCovers s.mmapTree a ∨ (base ≤ a ∧ a < base + size)
      else rbCovers s.mmapTree a ∧ ¬ (base ≤ a ∧ a < base + size)) ∧
    ((∀ a, rbCovers (clientHandleMunmapFail o (clientHandleMunmap o s mmapWalk base size anon)
        mmapWalk base size anon).mmapTree a ↔ rbCovers s.mmapTree a) ↔
      ∀ a, base ≤ a → a < base + size → (rbCovers s.mmapTree a ↔ anon = true)) := by
  /- the munmap cuts the range out -/
  obtain ⟨t1, a1⟩ := clientHandleMunmap_tree o mmapWalk s base size anon
  obtain ⟨a2, d2, c2, -⟩ := mmapTreeRemove_spec base size hd
  generalize clientHandleMunmap o s mmapWalk base size anon = s1 at t1 a1 ⊢
  rw [← t1] at d2 c2
  /- the rollback adds it back if `anon` is set -/
  have hF : (clientHandleMunmapFail o s1 mmapWalk base size anon).asserts = s.asserts ∧
      (clientHandleMunmapFail o s1 mmapWalk base size anon).mmapTree.Pairwise RbNode.Apart ∧
      ∀ a, rbCovers (clientHandleMunmapFail o s1 mmapWalk base size anon).mmapTree a ↔
        if anon then rbCovers s.mmapTree a ∨ (base ≤ a ∧ a < base + size)
        else rbCovers s.mmapTree a ∧ ¬ (base ≤ a ∧ a < base + size) := by
    obtain ⟨t3, a3⟩ := clientHandleMunmapFail_tree o mmapWalk s1 base size anon
    rw [t3, a3]
    cases anon <;> simp only [eq_self_iff_true, if_true, Bool.false_eq_true, if_false]
    · exact ⟨a1.trans a2, d2, c2⟩
    · obtain ⟨a4, d4, c4⟩ := mmapTreeAdd_of_apart d2 fun n hn hm =>
        let ⟨a, h1, h2, hna⟩ := RbNode.meets_iff.1 hm
        ((c2 a).1 ⟨n, hn, hna⟩).2 ⟨h1, h2⟩
      refine ⟨a4.trans (a1.trans a2), d4, fun a => (c4 a).trans ?_⟩
      rw [c2]
      by_cases hr : base ≤ a ∧ a < base + size <;> simp [hr]
  refine ⟨hF.1, hF.2.1, hF.2.2, ?_⟩
  simp only [hF.2.2]
  cases anon <;> simp only [eq_self_iff_true, if_true, Bool.false_eq_true, if_false] <;>
    exact forall_congr' fun a => by
      by_cases h1 : base ≤ a <;> by_cases h2 : a < base + size <;> simp [h1, h2]

/-- The options of the runs below: shadowing on. -/
def mmapOptions : Options := ⟨false, true, 0, 0, 0⟩

/-- A walker that leaves the shadow alone. -/
def noWalk : MmapWalk := fun sh _ _ _ => sh

/-- The failing run: a failed munmap of the whole first mapping of
`twoMappings` with `anon` clear. The munmap finds the range in the tree and
removes it; the rollback trusts `anon` and puts nothing back, so the tracker
loses `[0x1000, 0x2000)` and `mmap_anon_lookup` no longer finds it. -/
theorem munmap_fail_covers_not_anon :
    twoMappings.mmapTree.Pairwise RbNode.Apart ∧
    rbCovers twoMappings.mmapTree 0x1800 ∧
    ¬ rbCovers (clientHandleMunmapFail mmapOptions (clientHandleMunmap mmapOptions twoMappings
      noWalk 0x1000 0x1000 false) noWalk 0x1000 0x1000 false).mmapTree 0x1800 ∧
    mmapAnonLookup twoMappings 0x1800 = some (0x1000, 0x1000) ∧
    mmapAnonLookup (clientHandleMunmapFail mmapOptions (clientHandleMunmap mmapOptions twoMappings
      noWalk 0x1000 0x1000 false) noWalk 0x1000 0x1000 false) 0x1800 = none := by
  have hd : twoMappings.mmapTree.Pairwise RbNode.Apart := by decide
  have h := (munmap_fail_covers mmapOptions noWalk twoMappings 0x1000 0x1000 false hd).2.2.1 0x1800
  simp only [Bool.false_eq_true, if_false] at h
  have hlost : ¬ rbCovers (clientHandleMunmapFail mmapOptions (clientHandleMunmap mmapOptions
      twoMappings noWalk 0x1000 0x1000 false) noWalk 0x1000 0x1000 false).mmapTree 0x1800 :=
    fun hc => (h.1 hc).2 (by decide)
  refine ⟨hd, by decide, hlost, rfl, ?_⟩
  rw [mmapAnonLookup, Option.map_eq_none', rbInNode, List.find?_eq_none]
  exact fun n hn hcov => hlost ⟨n, hn, by simpa using hcov⟩

/-! ## The shadow of an mremap -/

/-- With shadowing on, for a resize in place or a move to a range apart from
the old one, `client_handle_mremap` leaves each byte of the shadow as
follows: the first `min old_size new_size` bytes of the new range take the
tags of the old range's first bytes, a grown tail of the new range is
`UNDEFINED` (`DEFINED` for an image), a cut tail
`[old_base + new_size, old_base + old_size)` is `UNADDRESSABLE`, and every
other byte keeps its tag, the bytes a move leaves behind in
`[old_base, old_base + min old_size new_size)` included. -/
theorem clientHandleMremap_shadow (o : Options) (hon : o.leaksOnly = false ∧ o.shadowing = true)
    (s : State) (oldBase oldSize newBase newSize : Nat) (image : Bool)
    (hplace : newBase = oldBase ∨
      ∀ b, oldBase ≤ b → b < oldBase + oldSize → b < newBase ∨ newBase + newSize ≤ b)
    (a : Nat) :
    (clientHandleMremap o s oldBase oldSize newBase newSize image).shadow a =
      if newBase ≤ a ∧ a < newBase + min oldSize newSize then s.shadow (oldBase + (a - newBase))
      else if newBase + oldSize ≤ a ∧ a < newBase + newSize then
        (if image then .defined else .undefined)
      else if oldBase + newSize ≤ a ∧ a < oldBase + oldSize then .unaddressable
      else s.shadow a := by
  have hb : newBase = oldBase ∨
      (oldBase ≤ a → a < oldBase + oldSize → a < newBase ∨ newBase + newSize ≤ a) :=
    hplace.imp_right fun h => h a
  simp only [clientHandleMremap, hon, Bool.not_false, Bool.true_and, if_true, mmapTreeAdd_shadow,
    mmapTreeRemove, mmapTreeRemoveLoop_shadow]
  by_cases hs : newSize < oldSize
  · simp only [hs, decide_True, if_true, shadowSetRange_apply, shadowCopyRange_apply,
      Nat.min_eq_right hs.le]
    split_ifs <;> first | rfl | omega
  · simp only [hs, decide_False, Bool.false_eq_true, if_false, shadowSetRange_apply,
      shadowCopyRange_apply, Nat.min_eq_left (Nat.le_of_not_lt hs)]
    split_ifs <;> first | rfl | omega

/-- A move of `[0x1000, 0x2000)`, every byte `DEFINED`, to `[0x5000, 0x7000)`:
the byte at `0x1000` that the move leaves behind stays `DEFINED`. -/
theorem clientHandleMremap_shadow_moved :
    let s : State := { State.init with shadow := fun _ => .defined }
    (mmapOptions.leaksOnly = false ∧ mmapOptions.shadowing = true) ∧
    (0x5000 = 0x1000 ∨
      ∀ b, 0x1000 ≤ b → b < 0x1000 + 0x1000 → b < 0x5000 ∨ 0x5000 + 0x2000 ≤ b) ∧
    (clientHandleMremap mmapOptions s 0x1000 0x1000 0x5000 0x2000 false).shadow 0x1000 =
      .defined := by
  intro s
  have hplace : 0x5000 = 0x1000 ∨
      ∀ b, 0x1000 ≤ b → b < 0x1000 + 0x1000 → b < 0x5000 ∨ 0x5000 + 0x2000 ≤ b :=
    .inr fun b _ _ => by omega
  exact ⟨⟨rfl, rfl⟩, hplace, (clientHandleMremap_shadow mmapOptions ⟨rfl, rfl⟩ s 0x1000 0x1000
    0x5000 0x2000 false hplace 0x1000).trans (by decide)⟩

end DrMemory
