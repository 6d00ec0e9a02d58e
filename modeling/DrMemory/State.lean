import DrMemory.RbTree

/-!
# The global state of `alloc_drmem.c`

The static and global variables that the allocator, mapping and signal
handlers update, gathered in one record: the shadow, `mmap_tree`,
`sighand_table`, the delayed-free FIFO (`delay_free_list`,
`delay_free_head`, `delay_free_fill`, `delay_free_tree`), the
`delayed_free_bytes` statistic, and the log of failed assertions.

Where the builds differ the record carries every field: a delayed free
records the Windows heap handle and, under `STATISTICS`, the freed size.
`NULL` is the address `0`.
-/

namespace DrMemory

/-- An entry of `delay_free_list`: the address to pass to `free()` (redzone
included), the Windows heap it came from, and (under `STATISTICS`) the
application size. -/
structure DelayFree where
  addr : Nat
  heap : Nat
  size : Nat
deriving Repr, DecidableEq, Inhabited

/-- The process-wide state of `alloc_drmem.c`. -/
structure State where
  shadow : Shadow
  mmapTree : RbTree Unit
  sighandTable : List Nat
  delayFreeList : Nat → DelayFree
  delayFreeHead : Nat
  delayFreeFill : Nat
  delayFreeTree : RbTree Bool
  delayedFreeBytes : Nat
  asserts : List String

/-- The globals as `alloc_drmem_init` leaves them, over a shadow with every
byte unaddressable; the slots of `delay_free_list`, which the C code leaves
uninitialized, read as zero. -/
def State.init : State where
  shadow := fun _ => .unaddressable
  mmapTree := []
  sighandTable := []
  delayFreeList := fun _ => default
  delayFreeHead := 0
  delayFreeFill := 0
  delayFreeTree := []
  delayedFreeBytes := 0
  asserts := []

/-- `STATS_ADD` on a 32-bit unsigned counter. -/
def statsAdd (stat : Nat) (val : Int) : Nat :=
  (((stat : Int) + val) % 2 ^ 32).toNat

/-- Two updates of the counter are one update by their sum. -/
theorem statsAdd_statsAdd (stat : Nat) (v w : Int) :
    statsAdd (statsAdd stat v) w = statsAdd stat (v + w) := by
  unfold statsAdd
  rw [Int.toNat_of_nonneg (Int.emod_nonneg _ (by norm_num)), Int.emod_add_emod, add_assoc]

/-- A counter that holds `n` modulo `2 ^ 32`, moved by `v`, holds `n + v`. -/
theorem statsAdd_of_mod {n m : Nat} {v : Int} (h : (n : Int) + v = m) :
    statsAdd (n % 2 ^ 32) v = m % 2 ^ 32 := by
  unfold statsAdd
  omega

end DrMemory
