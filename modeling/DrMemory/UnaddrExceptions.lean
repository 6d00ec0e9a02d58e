import DrMemory.Recognizer

/-!
# The exceptions to unaddressable-access reports

`check_unaddressable_exceptions` decides, on Windows, whether an access to
an unaddressable byte goes unreported. A heap routine may touch a heap
region (its headers); an access to a TLS slot is fine when the process TLS
bitmap marks the slot allocated; anything else is up to the recognizer of
benign code sequences (`isOkUnaddressablePattern`). A thread's first 64 TLS
slots are the `TlsSlots` of its TEB; once it uses more, `TlsExpansionSlots`
points at `TLS_EXPANSION_BITMAP_SLOTS` more, whose bits are in the PEB's
`TlsExpansionBitmap`.

The slot and the bit are computed as the bitmaps lay them out
(`bitmapTest_eq_getLsbD`), and the 64 `TlsSlots` are handled exactly. The
range test of the expansion slots, though, counts
`TLS_EXPANSION_BITMAP_SLOTS * sizeof(byte)` bytes where the array has that
many pointer-sized slots: an address in a slot at or past a quarter of the
array goes to the recognizer instead of the bitmap
(`checkUnaddressableExceptions_tls`).

On Linux the TLS test is replaced by `is_loader_exception`: the loader, or a
library of DR or of the tool itself, may read those libraries. Neither
platform's check ever changes the shadow: the one shadow write on its path,
the recognizer's `now_addressable` update, is never reached
(`checkUnaddressableExceptions_shadow`).
-/

namespace DrMemory

/-- `TLS_EXPANSION_BITMAP_SLOTS`, from the Windows headers the build
includes: the number of expansion slots and of bits of their bitmap. -/
def tlsExpansionBitmapSlots : Nat := 1024

/-- The TEB and PEB fields the check reads: the address of the TEB's
`TlsSlots[0]`, its `TlsExpansionSlots` pointer (`NULL` until the thread
uses more than 64 slots), and the `Buffer`s of the PEB's `TlsBitmap` and
`TlsExpansionBitmap` (`none` for a `NULL` bitmap). Windows keeps both slot
arrays inside the address space (their one-past-the-end pointers do not
wrap) and apart, and sets up the expansion bitmap
before any thread has expansion slots. -/
structure Tls where
  tlsSlots : Addr
  tlsExpansionSlots : Addr
  tlsBitmap : Nat → BitVec 32
  tlsExpansionBitmap : Option (Nat → BitVec 32)
  slots_fit : tlsSlots.toNat + 64 * ptrSize < 2 ^ 32
  expansion_fit : tlsExpansionSlots ≠ 0 →
    tlsExpansionSlots.toNat + tlsExpansionBitmapSlots * ptrSize < 2 ^ 32
  apart : tlsExpansionSlots ≠ 0 →
    tlsSlots.toNat + 64 * ptrSize ≤ tlsExpansionSlots.toNat ∨
      tlsExpansionSlots.toNat + tlsExpansionBitmapSlots * ptrSize ≤ tlsSlots.toNat
  bitmap_present : tlsExpansionSlots ≠ 0 → tlsExpansionBitmap.isSome

/-- `Buffer[slot/32] & (1 << (slot % 32))`, as a truth value. -/
def bitmapTest (buffer : Nat → BitVec 32) (slot : Nat) : Bool :=
  (buffer (slot / 32) &&& ((1 : BitVec 32) <<< (slot % 32))) != 0

/-- `check_unaddressable_exceptions` on Windows: the state (the `ASSERT` on
the expansion bitmap, and what the recognizer does to it), whether the
access goes unreported, and the recognizer's accesses. `is_in_heap_region`
and the thread's `in_heap_routine` count come from the heap tracking. -/
def checkUnaddressableExceptions (c : Code) (rd : Readable) (inHeapRegion : Addr → Bool)
    (inHeapRoutine : Nat) (tls : Tls) (s : State) (loc : AppLoc) (addr : Addr) :
    State × Bool × List Access :=
  if inHeapRegion addr && decide (inHeapRoutine > 0) then (s, true, [])
  else
    let inSlots := decide (tls.tlsSlots ≤ addr) &&
      decide (addr < tls.tlsSlots + BitVec.ofNat 32 (64 * ptrSize))
    if inSlots || (tls.tlsExpansionSlots != 0 && decide (tls.tlsExpansionSlots ≤ addr) &&
        decide (addr < tls.tlsExpansionSlots + BitVec.ofNat 32 (tlsExpansionBitmapSlots * 1))) then
      if inSlots then (s, bitmapTest tls.tlsBitmap ((addr - tls.tlsSlots).toNat / ptrSize), [])
      else
        let s := { s with
          asserts := assert s.asserts (tls.tlsExpansionBitmap.isSome = true) "TLS mismatch" }
        (s, bitmapTest (tls.tlsExpansionBitmap.getD fun _ => 0)
          ((addr - tls.tlsExpansionSlots).toNat / ptrSize), [])
    else isOkUnaddressablePattern c rd s loc addr

/-- The test reads bit `slot % 32` of word `slot / 32`. -/
theorem bitmapTest_eq_getLsbD (buffer : Nat → BitVec 32) (slot : Nat) :
    bitmapTest buffer slot = (buffer (slot / 32)).getLsbD (slot % 32) := by
  have hi : slot % 32 < 32 := Nat.mod_lt _ (by norm_num)
  unfold bitmapTest
  by_cases h : (buffer (slot / 32)).getLsbD (slot % 32)
  · simp only [h, bne_iff_ne, ne_eq]
    intro h0
    have := congrArg (fun y => y.getLsbD (slot % 32)) h0
    simp [BitVec.getLsbD_and, BitVec.getLsbD_shiftLeft, h, hi] at this
  · simp only [h, bne_eq_false_iff_eq]
    refine BitVec.eq_of_getLsbD_eq fun j => ?_
    simp [BitVec.getLsbD_and, BitVec.getLsbD_shiftLeft]
    intro hx hij hji
    have hj : (j : Nat) = slot % 32 := by omega
    exact h (hj ▸ hx)

/-- The slot of the byte `j < sizeof(void*)` of slot `k`. -/
theorem slot_of_offset (base : Addr) {k j : Nat} (hj : j < ptrSize)
    (hn : k * ptrSize + j < 2 ^ 32) :
    ((base + BitVec.ofNat 32 (k * ptrSize + j)) - base).toNat / ptrSize = k := by
  have h : ((base + BitVec.ofNat 32 (k * ptrSize + j)) - base).toNat = k * ptrSize + j := by
    bv_omega
  rw [h]
  simp only [ptrSize] at *
  omega

/-- With no heap routine running, the check tests the `TlsSlots`, then the
expansion slots, and leaves anything else to the recognizer. -/
theorem checkUnaddressableExceptions_zero (c : Code) (rd : Readable) (inHeapRegion : Addr → Bool)
    (tls : Tls) (s : State) (loc : AppLoc) (addr : Addr) :
    checkUnaddressableExceptions c rd inHeapRegion 0 tls s loc addr =
      if tls.tlsSlots ≤ addr ∧ addr < tls.tlsSlots + BitVec.ofNat 32 (64 * ptrSize) then
        (s, bitmapTest tls.tlsBitmap ((addr - tls.tlsSlots).toNat / ptrSize), [])
      else if tls.tlsExpansionSlots ≠ 0 ∧ tls.tlsExpansionSlots ≤ addr ∧
          addr < tls.tlsExpansionSlots + BitVec.ofNat 32 (tlsExpansionBitmapSlots * 1) then
        ({ s with asserts := assert s.asserts (tls.tlsExpansionBitmap.isSome = true) "TLS mismatch" },
          bitmapTest (tls.tlsExpansionBitmap.getD fun _ => 0)
            ((addr - tls.tlsExpansionSlots).toNat / ptrSize), [])
      else isOkUnaddressablePattern c rd s loc addr := by
  unfold checkUnaddressableExceptions
  by_cases h1 : tls.tlsSlots ≤ addr ∧ addr < tls.tlsSlots + BitVec.ofNat 32 (64 * ptrSize)
  · simp [h1]
  · simp [h1, and_assoc]

/-- With no heap routine running, an address in one of the 64 `TlsSlots`
is exempt exactly when its bit in `TlsBitmap` is set, and the recognizer is
not consulted. An address in expansion slot `k < TLS_EXPANSION_BITMAP_SLOTS`
is decided by its bit in `TlsExpansionBitmap` only while its byte offset is
below `TLS_EXPANSION_BITMAP_SLOTS`; from slot
`TLS_EXPANSION_BITMAP_SLOTS / sizeof(void*)` on, the recognizer decides. -/
theorem checkUnaddressableExceptions_tls (c : Code) (rd : Readable) (inHeapRegion : Addr → Bool)
    (tls : Tls) (s : State) (loc : AppLoc) :
    (∀ k < 64, ∀ j < ptrSize,
      checkUnaddressableExceptions c rd inHeapRegion 0 tls s loc
          (tls.tlsSlots + BitVec.ofNat 32 (k * ptrSize + j)) =
        (s, (tls.tlsBitmap (k / 32)).getLsbD (k % 32), [])) ∧
    (tls.tlsExpansionSlots ≠ 0 → ∀ k < tlsExpansionBitmapSlots, ∀ j < ptrSize,
      checkUnaddressableExceptions c rd inHeapRegion 0 tls s loc
          (tls.tlsExpansionSlots + BitVec.ofNat 32 (k * ptrSize + j)) =
        if k * ptrSize + j < tlsExpansionBitmapSlots then
          (s, ((tls.tlsExpansionBitmap.getD fun _ => 0) (k / 32)).getLsbD (k % 32), [])
        else
          isOkUnaddressablePattern c rd s loc
            (tls.tlsExpansionSlots + BitVec.ofNat 32 (k * ptrSize + j))) := by
  have hfit := tls.slots_fit
  refine ⟨fun k hk j hj => ?_, fun hne k hk j hj => ?_⟩
  · have hn : k * ptrSize + j < 64 * ptrSize := by simp only [ptrSize] at *; omega
    rw [checkUnaddressableExceptions_zero, if_pos (by simp only [ptrSize] at *; bv_omega),
      bitmapTest_eq_getLsbD, slot_of_offset _ hj (by omega)]
  · have hefit := tls.expansion_fit hne
    have hapart := tls.apart hne
    have hn : k * ptrSize + j < tlsExpansionBitmapSlots * ptrSize := by
      simp only [ptrSize] at *; omega
    /- the address lies outside the `TlsSlots`, and inside the range the
    code tests exactly when its offset is below `TLS_EXPANSION_BITMAP_SLOTS` -/
    have hslots : ¬ (tls.tlsSlots ≤ tls.tlsExpansionSlots + BitVec.ofNat 32 (k * ptrSize + j) ∧
        tls.tlsExpansionSlots + BitVec.ofNat 32 (k * ptrSize + j) <
          tls.tlsSlots + BitVec.ofNat 32 (64 * ptrSize)) := by
      simp only [ptrSize, tlsExpansionBitmapSlots] at *; bv_omega
    have hexp : (tls.tlsExpansionSlots ≤ tls.tlsExpansionSlots + BitVec.ofNat 32 (k * ptrSize + j) ∧
        tls.tlsExpansionSlots + BitVec.ofNat 32 (k * ptrSize + j) <
          tls.tlsExpansionSlots + BitVec.ofNat 32 (tlsExpansionBitmapSlots * 1)) ↔
        k * ptrSize + j < tlsExpansionBitmapSlots := by
      simp only [ptrSize, tlsExpansionBitmapSlots] at *
      constructor <;> intro h <;> bv_omega
    rw [checkUnaddressableExceptions_zero, if_neg hslots]
    by_cases hlt : k * ptrSize + j < tlsExpansionBitmapSlots
    · rw [if_pos ⟨hne, hexp.2 hlt⟩, if_pos hlt, assert_of_true _ (tls.bitmap_present hne),
        bitmapTest_eq_getLsbD, slot_of_offset _ hj (by omega)]
    · rw [if_neg fun h => hlt (hexp.1 h.2), if_neg hlt]

/-! ## Linux -/

/-- What `is_loader_exception` asks DR: `is_in_client_or_DR_lib`, the
preferred name of the module `dr_lookup_module` finds at a pc (`none` when
it finds none), and the pc `loc_to_pc` translates a location to. -/
structure Modules where
  inClientOrDRLib : Addr → Bool
  preferredName : Addr → Option String
  locToPc : AppLoc → Addr

/-- `is_loader_exception`: an access to a DR or tool library from a module
whose name starts with `ld-linux.so.` (the `strncmp` of 12 bytes) or that is
itself such a library. -/
def isLoaderException (m : Modules) (loc : AppLoc) (addr : Addr) : Bool :=
  m.inClientOrDRLib addr &&
    match m.preferredName (m.locToPc loc) with
    | some modname =>
      modname.toList.take 12 == "ld-linux.so.".toList || m.inClientOrDRLib (m.locToPc loc)
    | none => false

/-- `check_unaddressable_exceptions` on Linux. -/
def checkUnaddressableExceptionsLinux (c : Code) (rd : Readable) (inHeapRegion : Addr → Bool)
    (inHeapRoutine : Nat) (m : Modules) (s : State) (loc : AppLoc) (addr : Addr) :
    State × Bool × List Access :=
  if inHeapRegion addr && decide (inHeapRoutine > 0) then (s, true, [])
  else if isLoaderException m loc addr then (s, true, [])
  else isOkUnaddressablePattern c rd s loc addr

/-- On either platform, for every access, the exception check leaves every
shadow byte as it was; so an unaddressable byte it lets through stays
unaddressable, and the next access to it is checked again. -/
theorem checkUnaddressableExceptions_shadow (c : Code) (rd : Readable) (inHeapRegion : Addr → Bool)
    (inHeapRoutine : Nat) (tls : Tls) (m : Modules) (s : State) (loc : AppLoc) (addr : Addr) :
    (checkUnaddressableExceptions c rd inHeapRegion inHeapRoutine tls s loc addr).1.shadow =
        s.shadow ∧
      (checkUnaddressableExceptionsLinux c rd inHeapRegion inHeapRoutine m s loc addr).1.shadow =
        s.shadow := by
  have hrec := isOkUnaddressablePattern_shadow c rd s loc addr
  constructor
  · simp only [checkUnaddressableExceptions]
    split_ifs <;> first | rfl | exact hrec
  · unfold checkUnaddressableExceptionsLinux
    split_ifs <;> first | rfl | exact hrec

/-! ## An expansion slot past the tested bytes -/

/-- A process whose TLS bitmaps mark every slot allocated; the thread's
`TlsSlots` lie in its TEB at `0x7ffdee10` and its expansion slots at
`0x00150000`. -/
def allSlotsTls : Tls where
  tlsSlots := 0x7ffdee10
  tlsExpansionSlots := 0x00150000
  tlsBitmap _ := BitVec.allOnes 32
  tlsExpansionBitmap := some fun _ => BitVec.allOnes 32
  slots_fit := by decide
  expansion_fit _ := by decide
  apart _ := by decide
  bitmap_present _ := rfl

/-- The load `mov eax, [ecx]` (`8b 01`) at `0x401000`. -/
def tlsCode : Code where
  mem a := if a = 0x401000 then 0x8b else if a = 0x401001 then 0x01 else 0
  decode a := if a = 0x401000 then ⟨.movLd, [.baseDisp .ecx .null 0 0], [.reg .eax 4], 2⟩
    else ⟨.invalid, [], [], 1⟩
  length_le a := by dsimp only; split_ifs <;> decide

/-- A load at `0x401000` from expansion slot 300, whose bit is set: its
byte offset 1200 is past the 1024 bytes the code tests, so the recognizer
decides, probes and decodes, finds no benign pattern, and the access is
reported. -/
theorem checkUnaddressableExceptions_tls_slot300 :
    allSlotsTls.tlsExpansionSlots ≠ 0 ∧ 300 < tlsExpansionBitmapSlots ∧ 0 < ptrSize ∧
      ((allSlotsTls.tlsExpansionBitmap.getD fun _ => 0) (300 / 32)).getLsbD (300 % 32) = true ∧
      checkUnaddressableExceptions tlsCode (fun _ _ => true) (fun _ => false) 0 allSlotsTls
          State.init (.pc 0x401000) (allSlotsTls.tlsExpansionSlots + BitVec.ofNat 32 (300 * ptrSize + 0)) =
        isOkUnaddressablePattern tlsCode (fun _ _ => true) State.init (.pc 0x401000)
          (allSlotsTls.tlsExpansionSlots + BitVec.ofNat 32 (300 * ptrSize + 0)) ∧
      (checkUnaddressableExceptions tlsCode (fun _ _ => true) (fun _ => false) 0 allSlotsTls
          State.init (.pc 0x401000)
          (allSlotsTls.tlsExpansionSlots + BitVec.ofNat 32 (300 * ptrSize + 0))).2.1 = false ∧
      (checkUnaddressableExceptions tlsCode (fun _ _ => true) (fun _ => false) 0 allSlotsTls
          State.init (.pc 0x401000)
          (allSlotsTls.tlsExpansionSlots + BitVec.ofNat 32 (300 * ptrSize + 0))).2.2 ≠ [] := by
  have h := (checkUnaddressableExceptions_tls tlsCode (fun _ _ => true) (fun _ => false) allSlotsTls
    State.init (.pc 0x401000)).2 (by decide) 300 (by decide) 0 (by decide)
  rw [if_neg (by decide)] at h
  exact ⟨by decide, by decide, by decide, by decide, h, by rw [h]; decide, by rw [h]; decide⟩

end DrMemory
