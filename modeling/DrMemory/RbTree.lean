import DrMemory.Shadow

/-!
# Interval trees

`alloc_drmem.c` keeps two address sets in the red-black interval trees of
`redblack.c`: `mmap_tree` (anonymous mappings) and `delay_free_tree` (the
real ranges of delayed frees). `redblack.c` is not among the sources, so the
tree is modelled from the specification: its nodes `(base, size, client)`
in the order of their base, where

* `rb_insert` fails, and returns a stored node, exactly when the new
  interval shares an address with a stored one; otherwise it inserts;
* `rb_overlaps_node` and `rb_in_node` return the first stored node that
  meets a range, resp. contains an address;
* `rb_find` returns the first stored node whose base is the address;
* `rb_delete` removes the node it is given.

Every routine of `alloc_drmem.c` goes through these five, so the facts below
are all that later modules use of the tree: each operation has its lemma
saying which nodes it leaves.
-/

namespace DrMemory

/-- A node of an interval tree: the range `[base, base + size)` and the
client payload. -/
structure RbNode (α : Type) where
  base : Nat
  size : Nat
  client : α
deriving Repr, DecidableEq

/-- A tree as the list of its nodes in base order. -/
abbrev RbTree (α : Type) := List (RbNode α)

variable {α : Type}

namespace RbNode

/-- The node's range contains `a`. -/
def Covers (n : RbNode α) (a : Nat) : Prop := n.base ≤ a ∧ a < n.base + n.size

instance (n : RbNode α) (a : Nat) : Decidable (n.Covers a) :=
  inferInstanceAs (Decidable (_ ∧ _))

/-- The node's range and `[lo, hi)` share an address. -/
def Meets (n : RbNode α) (lo hi : Nat) : Prop :=
  lo < hi ∧ 0 < n.size ∧ n.base < hi ∧ lo < n.base + n.size

instance (n : RbNode α) (lo hi : Nat) : Decidable (n.Meets lo hi) :=
  inferInstanceAs (Decidable (_ ∧ _))

theorem meets_iff {n : RbNode α} {lo hi : Nat} :
    n.Meets lo hi ↔ ∃ a, lo ≤ a ∧ a < hi ∧ n.Covers a := by
  unfold Meets Covers
  constructor
  · rintro ⟨hlt, hs, h1, h2⟩
    rcases le_total lo n.base with h | h
    · exact ⟨n.base, h, h1, le_rfl, by omega⟩
    · exact ⟨lo, le_rfl, hlt, h, h2⟩
  · rintro ⟨a, h1, h2, h3, h4⟩
    omega

end RbNode

/-- `rb_overlaps_node(tree, lo, hi)`. -/
def rbOverlapsNode (t : RbTree α) (lo hi : Nat) : Option (RbNode α) :=
  t.find? fun n => decide (n.Meets lo hi)

/-- `rb_in_node(tree, addr)`. -/
def rbInNode (t : RbTree α) (addr : Nat) : Option (RbNode α) :=
  t.find? fun n => decide (n.Covers addr)

/-- `rb_find(tree, addr)`. -/
def rbFind (t : RbTree α) (addr : Nat) : Option (RbNode α) :=
  t.find? fun n => n.base == addr

/-- `rb_insert(tree, base, size, client)`: the new tree and the node that
blocked the insertion, `none` on success. -/
def rbInsert (t : RbTree α) (base size : Nat) (client : α) : RbTree α × Option (RbNode α) :=
  match rbOverlapsNode t base (base + size) with
  | some n => (t, some n)
  | none => (t.orderedInsert (fun m n => m.base ≤ n.base) ⟨base, size, client⟩, none)

/-- `rb_delete(tree, node)`. -/
def rbDelete [DecidableEq α] (t : RbTree α) (n : RbNode α) : RbTree α := t.erase n

/-! ## What each operation returns and leaves -/

theorem rbOverlapsNode_some {t : RbTree α} {lo hi : Nat} {n : RbNode α}
    (h : rbOverlapsNode t lo hi = some n) : n ∈ t ∧ n.Meets lo hi := by
  have := List.find?_some h
  exact ⟨List.mem_of_find?_eq_some h, by simpa using this⟩

theorem rbOverlapsNode_none {t : RbTree α} {lo hi : Nat}
    (h : rbOverlapsNode t lo hi = none) : ∀ n ∈ t, ¬ n.Meets lo hi := by
  intro n hn
  simpa using List.find?_eq_none.mp h n hn

theorem rbFind_some {t : RbTree α} {addr : Nat} {n : RbNode α}
    (h : rbFind t addr = some n) : n ∈ t ∧ n.base = addr := by
  have := List.find?_some h
  exact ⟨List.mem_of_find?_eq_some h, by simpa using this⟩

theorem rbFind_none {t : RbTree α} {addr : Nat}
    (h : rbFind t addr = none) : ∀ n ∈ t, n.base ≠ addr := by
  intro n hn
  simpa using List.find?_eq_none.mp h n hn

theorem rbFind_of_mem {t : RbTree α} {n : RbNode α} (h : n ∈ t) :
    ∃ m, rbFind t n.base = some m := by
  cases hf : rbFind t n.base with
  | none => exact absurd rfl (rbFind_none hf n h)
  | some m => exact ⟨m, rfl⟩

theorem rbInNode_some {t : RbTree α} {addr : Nat} {n : RbNode α}
    (h : rbInNode t addr = some n) : n ∈ t ∧ n.Covers addr := by
  have := List.find?_some h
  exact ⟨List.mem_of_find?_eq_some h, by simpa using this⟩

theorem rbInNode_none {t : RbTree α} {addr : Nat}
    (h : rbInNode t addr = none) : ∀ n ∈ t, ¬ n.Covers addr := by
  intro n hn
  simpa using List.find?_eq_none.mp h n hn

/-- A failed `rb_insert` leaves the tree and names a stored node that meets
the new range; a successful one adds exactly the new node. -/
theorem rbInsert_spec (t : RbTree α) (base size : Nat) (client : α) :
    (∃ n, rbInsert t base size client = (t, some n) ∧ n ∈ t ∧ n.Meets base (base + size)) ∨
    ((∀ n ∈ t, ¬ n.Meets base (base + size)) ∧
      ∃ t', rbInsert t base size client = (t', none) ∧ t'.Perm (⟨base, size, client⟩ :: t)) := by
  unfold rbInsert
  cases h : rbOverlapsNode t base (base + size) with
  | some n => exact .inl ⟨n, rfl, rbOverlapsNode_some h⟩
  | none => exact .inr ⟨rbOverlapsNode_none h, _, rfl, List.perm_orderedInsert _ _ _⟩

theorem rbInsert_of_apart {t : RbTree α} {base size : Nat} (client : α)
    (h : ∀ n ∈ t, ¬ n.Meets base (base + size)) :
    ∃ t', rbInsert t base size client = (t', none) ∧ t'.Perm (⟨base, size, client⟩ :: t) := by
  rcases rbInsert_spec t base size client with ⟨n, -, hn, hm⟩ | ⟨-, h'⟩
  · exact absurd hm (h n hn)
  · exact h'

theorem rbDelete_perm [DecidableEq α] {t : RbTree α} {n : RbNode α} (h : n ∈ t) :
    t.Perm (n :: rbDelete t n) :=
  List.perm_cons_erase h

/-- An insertion that a stored node blocks leaves the tree and returns the
first such node. -/
theorem rbInsert_of_overlaps {t : RbTree α} {base size : Nat} (client : α) {n : RbNode α}
    (h : rbOverlapsNode t base (base + size) = some n) :
    rbInsert t base size client = (t, some n) := by
  simp [rbInsert, h]

/-- An insertion or a deletion moves the count of nodes with a property only
by the node inserted or deleted. -/
theorem rbInsert_countP (t : RbTree α) (base size : Nat) (client : α) (p : RbNode α → Bool)
    (hp : p ⟨base, size, client⟩ = false) :
    (rbInsert t base size client).1.countP p = t.countP p := by
  rcases rbInsert_spec t base size client with ⟨_, heq, _⟩ | ⟨_, _, heq, hperm⟩ <;> rw [heq]
  rw [hperm.countP_eq, List.countP_cons_of_neg p _ (by simp [hp])]

theorem rbDelete_countP [DecidableEq α] {t : RbTree α} {n : RbNode α} (p : RbNode α → Bool)
    (h : n ∈ t) (hp : p n = true) : (rbDelete t n).countP p + 1 = t.countP p := by
  rw [(rbDelete_perm h).countP_eq, List.countP_cons_of_pos p _ hp]

/-! ## Disjoint trees and the addresses they cover -/

/-- In a list whose elements are pairwise related by a symmetric relation,
an element is related to every element left after erasing it. -/
theorem pairwise_of_mem_erase {β : Type} [DecidableEq β] {R : β → β → Prop}
    (hs : ∀ {x y}, R x y → R y x) {l : List β} {x : β} (hp : l.Pairwise R) (hx : x ∈ l) :
    ∀ y ∈ l.erase x, R x y :=
  (List.pairwise_cons.1 (((List.perm_cons_erase hx).pairwise_iff hs).1 hp)).1

namespace RbNode

/-- Two nodes share no address. -/
def Apart (m n : RbNode α) : Prop := ∀ a, m.Covers a → ¬ n.Covers a

theorem apart_iff {m n : RbNode α} :
    m.Apart n ↔
      m.size = 0 ∨ n.size = 0 ∨ m.base + m.size ≤ n.base ∨ n.base + n.size ≤ m.base := by
  unfold Apart Covers
  constructor
  · intro h
    by_contra hc
    rcases le_total m.base n.base with hle | hle
    · exact h n.base ⟨hle, by omega⟩ ⟨le_rfl, by omega⟩
    · exact h m.base ⟨le_rfl, by omega⟩ ⟨hle, by omega⟩
  · intro h a hm hn
    omega

instance (m n : RbNode α) : Decidable (m.Apart n) := decidable_of_iff _ apart_iff.symm

theorem Apart.symm {m n : RbNode α} (h : m.Apart n) : n.Apart m := fun a hn hm => h a hm hn

/-- A node that does not meet `[base, base + size)` is apart from the node of
that range. -/
theorem apart_of_not_meets {m : RbNode α} {base size : Nat} (client : α)
    (h : ¬ m.Meets base (base + size)) : m.Apart ⟨base, size, client⟩ :=
  fun a hm hn => h (meets_iff.2 ⟨a, hn.1, hn.2, hm⟩)

end RbNode

/-- Some node of the tree contains `a`. -/
def rbCovers (t : RbTree α) (a : Nat) : Prop := ∃ n ∈ t, n.Covers a

instance (t : RbTree α) (a : Nat) : Decidable (rbCovers t a) :=
  decidable_of_iff (∃ n ∈ t, n.Covers a) Iff.rfl

@[simp] theorem rbCovers_nil (a : Nat) : ¬ rbCovers ([] : RbTree α) a := by
  simp [rbCovers]

@[simp] theorem rbCovers_cons (n : RbNode α) (t : RbTree α) (a : Nat) :
    rbCovers (n :: t) a ↔ n.Covers a ∨ rbCovers t a := by
  simp [rbCovers]

theorem rbCovers_of_perm {t t' : RbTree α} (h : t.Perm t') (a : Nat) :
    rbCovers t a ↔ rbCovers t' a := by
  simp only [rbCovers, h.mem_iff]

/-- `rb_overlaps_node` finds a node exactly when an address of `[lo, hi)` is
covered. -/
theorem rbOverlapsNode_isSome {t : RbTree α} {lo hi : Nat} :
    (rbOverlapsNode t lo hi).isSome ↔ ∃ a, lo ≤ a ∧ a < hi ∧ rbCovers t a := by
  constructor
  · intro h
    obtain ⟨n, hn⟩ := Option.isSome_iff_exists.1 h
    obtain ⟨hmem, hm⟩ := rbOverlapsNode_some hn
    obtain ⟨a, h1, h2, ha⟩ := RbNode.meets_iff.1 hm
    exact ⟨a, h1, h2, n, hmem, ha⟩
  · rintro ⟨a, h1, h2, n, hmem, ha⟩
    cases hov : rbOverlapsNode t lo hi with
    | some _ => rfl
    | none => exact absurd (RbNode.meets_iff.2 ⟨a, h1, h2, ha⟩) (rbOverlapsNode_none hov n hmem)

/-- A node that meets no stored node goes in: the nodes stay apart and the
covered addresses gain the node's range. -/
theorem rbInsert_apart {t : RbTree α} {base size : Nat} (client : α)
    (hd : t.Pairwise RbNode.Apart) (h : ∀ n ∈ t, ¬ n.Meets base (base + size)) :
    (rbInsert t base size client).2 = none ∧
      (rbInsert t base size client).1.Pairwise RbNode.Apart ∧
      ∀ a, rbCovers (rbInsert t base size client).1 a ↔
        (base ≤ a ∧ a < base + size) ∨ rbCovers t a := by
  obtain ⟨t', heq, hperm⟩ := rbInsert_of_apart client h
  rw [heq]
  refine ⟨rfl, (hperm.pairwise_iff RbNode.Apart.symm).2 (List.pairwise_cons.2
    ⟨fun m hm => (RbNode.apart_of_not_meets client (h m hm)).symm, hd⟩), fun a => ?_⟩
  rw [rbCovers_of_perm hperm, rbCovers_cons]
  rfl

/-- Deleting a stored node of a disjoint tree uncovers exactly its range. -/
theorem rbDelete_covers [DecidableEq α] {t : RbTree α} {n : RbNode α}
    (hd : t.Pairwise RbNode.Apart) (hn : n ∈ t) (a : Nat) :
    rbCovers (rbDelete t n) a ↔ rbCovers t a ∧ ¬ n.Covers a := by
  constructor
  · rintro ⟨m, hm, hma⟩
    exact ⟨⟨m, List.mem_of_mem_erase hm, hma⟩,
      fun hna => pairwise_of_mem_erase RbNode.Apart.symm hd hn m hm a hna hma⟩
  · rintro ⟨⟨m, hm, hma⟩, hna⟩
    exact ⟨m, (List.mem_erase_of_ne (by rintro rfl; exact hna hma)).2 hm, hma⟩

theorem rbDelete_pairwise [DecidableEq α] {t : RbTree α} (n : RbNode α)
    (hd : t.Pairwise RbNode.Apart) : (rbDelete t n).Pairwise RbNode.Apart :=
  hd.erase n

end DrMemory
