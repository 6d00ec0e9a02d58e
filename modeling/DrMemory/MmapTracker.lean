import DrMemory.Mmap

/-!
# The anonymous-mapping tracker over runs

What `mmap_tree` is for: at every point of a run it should hold exactly the
addresses that lie in an anonymous mapping. The specification's view is a
set of addresses (`anonRun`): an anonymous `mmap` adds its range, an
`munmap` of any kind takes its range out, and an `mremap` moves the old range
to the new one.

The handlers assume two things of the kernel: a mapping is made in a range
that holds no anonymous address, and `mremap` moves an anonymous region and
no other ("for now assuming mremap is of anon regions only"). Under that
contract (`MmapContract`) every run of `client_handle_mmap`,
`client_handle_munmap` and `client_handle_mremap` keeps the nodes of the tree
pairwise apart, reaches no assertion, and covers exactly the specification's
set (`mmapRun_refines`): a fresh range meets no stored node, so the merging
branch of `mmap_tree_add` is never taken.
-/

namespace DrMemory

/-! ## The events -/

/-- The memory-mapping system calls that the allocation layer hands to the
Linux handlers. -/
inductive MmapEvent where
  | mmap (inHeapRoutine base size : Nat) (anon : Bool)
  | munmap (base size : Nat) (anon : Bool)
  | mremap (oldBase oldSize newBase newSize : Nat) (image : Bool)
deriving Repr, DecidableEq

/-- One event on the state. -/
def mmapStep (o : Options) (mmapWalk : MmapWalk) (s : State) : MmapEvent → State
  | .mmap inHeapRoutine base size anon =>
    clientHandleMmap o s mmapWalk inHeapRoutine base size anon
  | .munmap base size anon => clientHandleMunmap o s mmapWalk base size anon
  | .mremap oldBase oldSize newBase newSize image =>
    clientHandleMremap o s oldBase oldSize newBase newSize image

/-- A run of mapping events. -/
def mmapRun (o : Options) (mmapWalk : MmapWalk) (s : State) (evs : List MmapEvent) : State :=
  evs.foldl (mmapStep o mmapWalk) s

@[simp] theorem mmapRun_cons (o : Options) (mmapWalk : MmapWalk) (s : State) (e : MmapEvent)
    (evs : List MmapEvent) :
    mmapRun o mmapWalk s (e :: evs) = mmapRun o mmapWalk (mmapStep o mmapWalk s e) evs := rfl

/-! ## The specification -/

/-- Whether `a` lies in `[base, base + size)`. -/
def inRange (base size a : Nat) : Bool := decide (base ≤ a ∧ a < base + size)

@[simp] theorem inRange_eq_true {base size a : Nat} :
    inRange base size a = true ↔ base ≤ a ∧ a < base + size := by
  simp [inRange]

@[simp] theorem inRange_eq_false {base size a : Nat} :
    inRange base size a = false ↔ ¬ (base ≤ a ∧ a < base + size) := by
  simp [inRange]

/-- The anonymous addresses after one event. -/
def anonStep (m : Nat → Bool) : MmapEvent → Nat → Bool
  | .mmap _ base size anon => fun a => m a || (anon && inRange base size a)
  | .munmap base size _ => fun a => m a && !inRange base size a
  | .mremap oldBase oldSize newBase newSize _ => fun a =>
    (m a && !inRange oldBase oldSize a) || inRange newBase newSize a

/-- The anonymous addresses after a run. -/
def anonRun (m : Nat → Bool) (evs : List MmapEvent) : Nat → Bool :=
  evs.foldl anonStep m

/-- No address of `[base, base + size)` is anonymous. -/
def RangeFree (m : Nat → Bool) (base size : Nat) : Prop :=
  ∀ a, base ≤ a → a < base + size → m a = false

instance (m : Nat → Bool) (base size : Nat) : Decidable (RangeFree m base size) :=
  inferInstanceAs (Decidable (∀ a, base ≤ a → a < base + size → m a = false))

/-- What the handlers assume of the kernel at one event: a new mapping lies
in a range with no anonymous address, and a remap moves an anonymous region
to a range that is free once the old one is gone. -/
def MmapAllowed (m : Nat → Bool) : MmapEvent → Prop
  | .mmap _ base size _ => RangeFree m base size
  | .munmap .. => True
  | .mremap oldBase oldSize newBase newSize _ =>
    ¬ RangeFree m oldBase oldSize ∧
      RangeFree (fun a => m a && !inRange oldBase oldSize a) newBase newSize

instance (m : Nat → Bool) (e : MmapEvent) : Decidable (MmapAllowed m e) :=
  match e with
  | .mmap _ base size _ => inferInstanceAs (Decidable (RangeFree m base size))
  | .munmap .. => instDecidableTrue
  | .mremap oldBase oldSize newBase newSize _ =>
    inferInstanceAs (Decidable (¬ RangeFree m oldBase oldSize ∧
      RangeFree (fun a => m a && !inRange oldBase oldSize a) newBase newSize))

/-- A run respects the contract at every event. -/
def MmapContract : (Nat → Bool) → List MmapEvent → Prop
  | _, [] => True
  | m, e :: evs => MmapAllowed m e ∧ MmapContract (anonStep m e) evs

instance decMmapContract : (m : Nat → Bool) → (evs : List MmapEvent) →
    Decidable (MmapContract m evs)
  | _, [] => instDecidableTrue
  | m, e :: evs =>
    have := decMmapContract (anonStep m e) evs
    inferInstanceAs (Decidable (MmapAllowed m e ∧ MmapContract (anonStep m e) evs))

/-! ## The tree tracks the set -/

/-- The tree tracks the anonymous addresses `m`: its nodes are pairwise
apart and cover exactly `m`. -/
structure State.TracksAnon (s : State) (m : Nat → Bool) : Prop where
  apart : s.mmapTree.Pairwise RbNode.Apart
  covers : ∀ a, rbCovers s.mmapTree a ↔ m a = true

section Handlers

variable (o : Options) (mmapWalk : MmapWalk) (s : State)

/-- `client_handle_mmap` changes the tree only through `mmap_tree_add`, and
only for an anonymous mapping. -/
theorem clientHandleMmap_tree (inHeapRoutine base size : Nat) (anon : Bool) :
    (clientHandleMmap o s mmapWalk inHeapRoutine base size anon).mmapTree =
        (if anon then (mmapTreeAdd s base size).mmapTree else s.mmapTree) ∧
      (clientHandleMmap o s mmapWalk inHeapRoutine base size anon).asserts =
        (if anon then (mmapTreeAdd s base size).asserts else s.asserts) := by
  unfold clientHandleMmap
  cases anon <;> simp only [if_true, Bool.false_eq_true, if_false] <;> split_ifs <;>
    simp [mmapTreeAdd_with_shadow]

/-- `client_handle_mremap` is the removal of the old range from a state with
the same tree and log, the check of its result, and the addition of the new
range. -/
theorem clientHandleMremap_eq (oldBase oldSize newBase newSize : Nat) (image : Bool) :
    ∃ s1 : State, s1.mmapTree = s.mmapTree ∧ s1.asserts = s.asserts ∧
      clientHandleMremap o s oldBase oldSize newBase newSize image =
        mmapTreeAdd { (mmapTreeRemove s1 oldBase oldSize).1 with
          asserts := assert (mmapTreeRemove s1 oldBase oldSize).1.asserts
            ((mmapTreeRemove s1 oldBase oldSize).2 = true)
            "for now assuming mremap is of anon regions only" } newBase newSize := by
  refine ⟨_, ?_, ?_, rfl⟩ <;> split <;> rfl

end Handlers

section Refinement

variable {o : Options} {mmapWalk : MmapWalk} {s : State} {m : Nat → Bool}

/-- A range with no tracked address meets no stored node. -/
theorem State.TracksAnon.not_meets (ht : s.TracksAnon m) {base size : Nat}
    (h : RangeFree m base size) : ∀ n ∈ s.mmapTree, ¬ n.Meets base (base + size) :=
  fun n hn hm =>
    let ⟨a, h1, h2, hna⟩ := RbNode.meets_iff.1 hm
    absurd ((ht.covers a).1 ⟨n, hn, hna⟩) (by simp [h a h1 h2])

/-- A range with a tracked address meets a stored node. -/
theorem State.TracksAnon.overlaps (ht : s.TracksAnon m) {base size : Nat}
    (h : ¬ RangeFree m base size) : (rbOverlapsNode s.mmapTree base (base + size)).isSome = true := by
  cases hov : rbOverlapsNode s.mmapTree base (base + size) with
  | some _ => rfl
  | none =>
    refine absurd (fun a h1 h2 => Bool.eq_false_iff.2 fun hma => ?_) h
    obtain ⟨n, hn, hna⟩ := (ht.covers a).2 hma
    exact rbOverlapsNode_none hov n hn (RbNode.meets_iff.2 ⟨a, h1, h2, hna⟩)

/-- On a tracking tree, `mmap_anon_lookup` finds a mapping exactly at the
tracked addresses, and the mapping it finds holds the address. -/
theorem State.TracksAnon.lookup (ht : s.TracksAnon m) (a : Nat) :
    (mmapAnonLookup s a).isSome = m a ∧
      ∀ b sz, mmapAnonLookup s a = some (b, sz) → b ≤ a ∧ a < b + sz := by
  unfold mmapAnonLookup
  cases hn : rbInNode s.mmapTree a with
  | none =>
    refine ⟨(Bool.eq_false_iff.2 fun hma => ?_).symm, by simp⟩
    obtain ⟨n, hmem, hna⟩ := (ht.covers a).2 hma
    exact rbInNode_none hn n hmem hna
  | some n =>
    obtain ⟨hmem, hna⟩ := rbInNode_some hn
    refine ⟨((ht.covers a).1 ⟨n, hmem, hna⟩).symm, ?_⟩
    rintro b sz ⟨⟩
    exact hna

/-- One event the contract allows reaches no assertion and keeps the tree
tracking the specification's set. -/
theorem mmapStep_refines (ht : s.TracksAnon m) (e : MmapEvent) (he : MmapAllowed m e) :
    (mmapStep o mmapWalk s e).asserts = s.asserts ∧
      (mmapStep o mmapWalk s e).TracksAnon (anonStep m e) := by
  cases e with
  | mmap inHeapRoutine base size anon =>
    obtain ⟨t, a⟩ := clientHandleMmap_tree o mmapWalk s inHeapRoutine base size anon
    rw [mmapStep]
    cases anon
    · simp only [Bool.false_eq_true, if_false] at t a
      exact ⟨a, t ▸ ht.apart, fun x => by rw [t, ht.covers]; simp [anonStep]⟩
    · simp only [if_true] at t a
      obtain ⟨a1, d1, c1⟩ := mmapTreeAdd_of_apart ht.apart (ht.not_meets he)
      exact ⟨a.trans a1, t ▸ d1, fun x => by rw [t, c1, ht.covers]; simp [anonStep, or_comm]⟩
  | munmap base size anon =>
    obtain ⟨t, a⟩ := clientHandleMunmap_tree o mmapWalk s base size anon
    obtain ⟨a1, d1, c1, -⟩ := mmapTreeRemove_spec base size ht.apart
    exact ⟨a.trans a1, t ▸ d1, fun x => by rw [mmapStep, t, c1, ht.covers]; simp [anonStep]⟩
  | mremap oldBase oldSize newBase newSize image =>
    obtain ⟨hold, hnew⟩ := he
    obtain ⟨s1, t1, a1, heq⟩ := clientHandleMremap_eq o s oldBase oldSize newBase newSize image
    have ht1 : s1.TracksAnon m := ⟨t1 ▸ ht.apart, t1 ▸ ht.covers⟩
    obtain ⟨a2, d2, c2, r2⟩ := mmapTreeRemove_spec oldBase oldSize ht1.apart
    /- the old range is cut out, and it was anonymous -/
    have hmid : State.TracksAnon { (mmapTreeRemove s1 oldBase oldSize).1 with
        asserts := assert (mmapTreeRemove s1 oldBase oldSize).1.asserts
          ((mmapTreeRemove s1 oldBase oldSize).2 = true)
          "for now assuming mremap is of anon regions only" }
        (fun a => m a && !inRange oldBase oldSize a) :=
      ⟨d2, fun x => by rw [c2, ht1.covers]; simp⟩
    have hfound : (mmapTreeRemove s1 oldBase oldSize).2 = true := r2.trans (ht1.overlaps hold)
    /- the new range goes in whole -/
    obtain ⟨a3, d3, c3⟩ := mmapTreeAdd_of_apart hmid.apart (hmid.not_meets hnew)
    rw [mmapStep, heq]
    exact ⟨by rw [a3, assert_of_true _ hfound, a2, a1], d3,
      fun x => by rw [c3, hmid.covers]; simp [anonStep, or_comm]⟩

/-- The run lemma: each allowed event keeps the tree tracking the
specification's set and the log as it was. -/
theorem mmapRun_tracksAnon (o : Options) (mmapWalk : MmapWalk) (evs : List MmapEvent)
    (ht : s.TracksAnon m) (hq : MmapContract m evs) :
    (mmapRun o mmapWalk s evs).asserts = s.asserts ∧
      (mmapRun o mmapWalk s evs).TracksAnon (anonRun m evs) := by
  induction evs generalizing s m with
  | nil => exact ⟨rfl, ht⟩
  | cons e evs ih =>
    obtain ⟨he, hq⟩ := hq
    obtain ⟨a1, ht1⟩ := mmapStep_refines ht e he
    obtain ⟨a2, ht2⟩ := ih ht1 hq
    exact ⟨a2.trans a1, ht2⟩

/-- Over every run that the contract allows, from a tree that tracks `m`,
the handlers reach no assertion, the tree tracks the specification's set at
the end, and `mmap_anon_lookup` finds a mapping exactly at its addresses. -/
theorem mmapRun_refines (o : Options) (mmapWalk : MmapWalk) (evs : List MmapEvent)
    (ht : s.TracksAnon m) (hq : MmapContract m evs) :
    (mmapRun o mmapWalk s evs).asserts = s.asserts ∧
      (mmapRun o mmapWalk s evs).TracksAnon (anonRun m evs) ∧
      ∀ a, (mmapAnonLookup (mmapRun o mmapWalk s evs) a).isSome = anonRun m evs a :=
  let ⟨ha, ht'⟩ := mmapRun_tracksAnon o mmapWalk evs ht hq
  ⟨ha, ht', fun a => (ht'.lookup a).1⟩

end Refinement

/-- An anonymous mapping, a file mapping, the anonymous one grown and moved,
and the lower half of the moved one unmapped. -/
def mapGrowUnmap : List MmapEvent :=
  [.mmap 0 0x10 0x10 true, .mmap 0 0x40 0x10 false, .mremap 0x10 0x10 0x20 0x18 false,
    .munmap 0x20 0x8 true]

theorem mmapRun_refines_mapGrowUnmap :
    State.init.TracksAnon (fun _ => false) ∧ MmapContract (fun _ => false) mapGrowUnmap ∧
    (mmapRun mmapOptions noWalk State.init mapGrowUnmap).asserts = State.init.asserts ∧
    (mmapRun mmapOptions noWalk State.init mapGrowUnmap).TracksAnon
      (anonRun (fun _ => false) mapGrowUnmap) ∧
    ∀ a, (mmapAnonLookup (mmapRun mmapOptions noWalk State.init mapGrowUnmap) a).isSome =
      anonRun (fun _ => false) mapGrowUnmap a :=
  have ht : State.init.TracksAnon (fun _ => false) := ⟨List.Pairwise.nil, fun a => by simp [State.init]⟩
  have hq : MmapContract (fun _ => false) mapGrowUnmap := by decide
  ⟨ht, hq, mmapRun_refines mmapOptions noWalk mapGrowUnmap ht hq⟩

end DrMemory
