import DrMemory.State

/-!
# The recognizer of benign unaddressable accesses

When an access hits an unaddressable byte, `is_ok_unaddressable_pattern`
decodes the faulting instruction and asks four matchers whether it belongs
to a known benign code sequence: the page probes of `_alloca`, the word
loads of `strlen` and `strcpy`, and the bit tricks of `rawmemchr`. To look
at the code around the faulting pc they decode further instructions and
load raw bytes, guarding the loads with `dr_memory_is_readable` probes.

The model records every probe and every load in a trace (`Access`). DR's
decoder is not among the sources: `Code.decode` is a parameter that takes
the instruction at a pc from the bytes `[pc, pc + length)`, at most
`MAX_INSTR_SIZE` of them, and `dr_memory_is_readable` is an arbitrary
predicate on ranges (`Readable`). The matchers are written for x86-32, so
an address is 32 bits wide (`Addr`) and wraps as the C pointer arithmetic
does, and `OPSZ_PTR` is 4 bytes.

A byte is *unprobed* when it is read and no probe before the read found a
range holding it readable (`unprobedReads`). The matchers for `_alloca`,
`strlen` and `rawmemchr` read only probed bytes; over every code layout,
readability map, pc and address, the recognizer's unprobed bytes are those
of the instruction at pc past its first byte, and those of the second
instruction `is_strcpy_pattern` decodes that lie `MAX_INSTR_SIZE` bytes or
more past `next_pc` (`isOkUnaddressablePattern_unprobed`).
-/

namespace DrMemory

/-- An application address, `app_pc` on the 32-bit build the matchers are
written for. -/
abbrev Addr := BitVec 32

/-- `MAX_INSTR_SIZE` (readwrite.h): the most bytes one instruction takes. -/
def maxInstrSize : Nat := 17

/-- `OPSZ_PTR` and `sizeof(void*)`: a pointer takes 4 bytes. -/
def ptrSize : Nat := 4

/-- `ALIGNED(x, alignment)` for a power-of-two alignment. -/
def aligned (x : Addr) (alignment : Nat) : Bool :=
  (x &&& BitVec.ofNat 32 (alignment - 1)) == 0

/-! ## Decoded instructions -/

/-- The registers the matchers name; `null` is `REG_NULL`. -/
inductive Reg where
  | null | eax | ecx | edx | ebx | esp | esi | other
deriving DecidableEq, Repr

/-- The opcodes the matchers test; `invalid` is `OP_INVALID`, what `decode`
gives for bytes that are no instruction. -/
inductive Opcode where
  | invalid | test | cmp | movLd | movSt | movImm | xchg | jmp | jmpShort | or | xor | lea | other
deriving DecidableEq, Repr

/-- An operand as the matchers inspect it: a register with its size in
bytes, a base-displacement memory reference, an immediate integer, or the
null operand. -/
inductive Opnd where
  | null
  | reg (r : Reg) (size : Nat)
  | baseDisp (base index : Reg) (scale : Nat) (disp : BitVec 32)
  | immedInt (v : BitVec 32)
  | other
deriving DecidableEq, Repr

/-- `opnd_is_reg`. -/
def Opnd.isReg : Opnd → Bool
  | .reg .. => true
  | _ => false

/-- `opnd_get_reg`, `REG_NULL` for an operand of another kind. -/
def Opnd.getReg : Opnd → Reg
  | .reg r _ => r
  | _ => .null

/-- `opnd_get_size` of a register operand. -/
def Opnd.getSize : Opnd → Nat
  | .reg _ size => size
  | _ => 0

/-- `opnd_is_base_disp`. -/
def Opnd.isBaseDisp : Opnd → Bool
  | .baseDisp .. => true
  | _ => false

/-- `opnd_get_base`, `REG_NULL` for an operand of another kind. -/
def Opnd.getBase : Opnd → Reg
  | .baseDisp base .. => base
  | _ => .null

/-- `opnd_get_index`, `REG_NULL` for an operand of another kind. -/
def Opnd.getIndex : Opnd → Reg
  | .baseDisp _ index .. => index
  | _ => .null

/-- `opnd_get_scale`, `0` for an operand of another kind. -/
def Opnd.getScale : Opnd → Nat
  | .baseDisp _ _ scale _ => scale
  | _ => 0

/-- `opnd_get_disp`, `0` for an operand of another kind. -/
def Opnd.getDisp : Opnd → BitVec 32
  | .baseDisp _ _ _ disp => disp
  | _ => 0

/-- `opnd_is_immed_int`. -/
def Opnd.isImmedInt : Opnd → Bool
  | .immedInt _ => true
  | _ => false

/-- `opnd_get_immed_int`, `0` for an operand of another kind. -/
def Opnd.getImmedInt : Opnd → BitVec 32
  | .immedInt v => v
  | _ => 0

/-- A decoded instruction: its opcode, its source and destination operands,
and the bytes it takes. -/
structure Instr where
  opcode : Opcode
  srcs : List Opnd
  dsts : List Opnd
  length : Nat
deriving DecidableEq, Repr

/-- `instr_valid`. -/
def Instr.valid (i : Instr) : Bool := i.opcode != .invalid

/-- `instr_get_src(i, n)`, the null operand past the last. -/
def Instr.src (i : Instr) (n : Nat) : Opnd := i.srcs.getD n .null

/-- `instr_get_dst(i, n)`, the null operand past the last. -/
def Instr.dst (i : Instr) (n : Nat) : Opnd := i.dsts.getD n .null

/-- The application's code as the recognizer sees it: the bytes of memory,
and DR's `decode`, which takes the instruction at a pc from the bytes
`[pc, pc + length)`, at most `MAX_INSTR_SIZE` of them. -/
structure Code where
  mem : Addr → BitVec 8
  decode : Addr → Instr
  length_le : ∀ pc, (decode pc).length ≤ maxInstrSize

/-- The pc that `decode` returns: that of the next instruction, or `NULL`
for bytes that are no instruction. -/
def Code.nextPc (c : Code) (pc : Addr) : Addr :=
  if (c.decode pc).valid then pc + BitVec.ofNat 32 (c.decode pc).length else 0

/-- `*(int *)a`: four bytes, little-endian. -/
def Code.readInt (c : Code) (a : Addr) : BitVec 32 :=
  c.mem (a + 3) ++ c.mem (a + 2) ++ c.mem (a + 1) ++ c.mem a

/-- `dr_memory_is_readable(base, size)`. -/
abbrev Readable := Addr → Nat → Bool

/-! ## Probes and reads -/

/-- What the recognizer does to application memory: a `dr_memory_is_readable`
probe of `[start, start + size)` with its answer, or a read of
`[start, start + size)`. -/
inductive Access where
  | probe (start : Addr) (size : Nat) (ok : Bool)
  | read (start : Addr) (size : Nat)
deriving DecidableEq, Repr

/-- The access is a probe that found a range holding `b` readable; the range
wraps around the address space as the pointer arithmetic does. -/
def Access.covers : Access → Addr → Bool
  | .probe start size ok, b => ok && decide ((b - start).toNat < size)
  | .read .., _ => false

/-- The bytes `[start, start + size)`. -/
def byteRange (start : Addr) (size : Nat) : List Addr :=
  (List.range size).map fun i => start + BitVec.ofNat 32 i

/-- The bytes that the accesses `tr` read outside every range that a probe
before them, in `tr` or in `seen`, found readable. -/
def unprobedReads (seen : List Access) : List Access → List Addr
  | [] => []
  | .probe start size ok :: tr => unprobedReads (.probe start size ok :: seen) tr
  | .read start size :: tr =>
    (byteRange start size).filter (fun b => !seen.any (·.covers b)) ++ unprobedReads seen tr

/-- The probes of `seen`, followed by those of `tr` as the reads after `tr`
see them. -/
def seenAfter (seen : List Access) : List Access → List Access
  | [] => seen
  | .probe start size ok :: tr => seenAfter (.probe start size ok :: seen) tr
  | .read .. :: tr => seenAfter seen tr

/-! ## The matchers -/

/-- What a matcher returns: whether it matched, the `now_addressable` flag it
leaves, and its accesses. -/
structure Outcome where
  matched : Bool
  nowAddressable : Bool
  trace : List Access

/-- `if (!match) match = matcher(..., &now_addressable)`: the next matcher
runs, with the current `now_addressable`, only while nothing has matched. -/
def Outcome.orElse (o : Outcome) (next : Bool → Outcome) : Outcome :=
  if o.matched then o
  else
    let r := next o.nowAddressable
    ⟨r.matched, r.nowAddressable, o.trace ++ r.trace⟩

/-- `is_alloca_pattern`: the page probe `test [ecx], eax` or `test [eax], eax`
of `_alloca` followed by a compare, a stack-pointer move, an exchange with
`esp` or a jump; the return-address shift `mov eax, [eax]` of `_chkstk` after
an `xchg esp, eax` (the byte `0x94` at `pc - 1`); and cygwin's
`or [ecx], 0`. -/
def isAllocaPattern (c : Code) (rd : Readable) (pc nextPc : Addr) (inst : Instr)
    (nowAddressable : Bool) : Outcome :=
  let size := (nextPc - (pc - 1) + BitVec.ofNat 32 maxInstrSize).toNat
  if !rd (pc - 1) size then ⟨false, nowAddressable, [.probe (pc - 1) size false]⟩
  else
    let probe := Access.probe (pc - 1) size true
    let src0 := inst.src 0
    let dst0 := inst.dst 0
    if inst.opcode == .test && src0.isBaseDisp && (src0.getBase == .ecx || src0.getBase == .eax) &&
        src0.getIndex == .null && src0.getScale == 0 && src0.getDisp == 0 &&
        (inst.src 1).isReg && (inst.src 1).getReg == .eax then
      let next := c.decode nextPc
      let m := next.valid &&
        ((next.opcode == .cmp && (next.src 0).isReg && (next.src 0).getReg == .eax &&
            (next.src 1).isImmedInt) ||
          ((next.opcode == .movLd || next.opcode == .movSt) && (next.src 0).isReg &&
            (next.src 0).getReg == .ecx && (next.dst 0).isReg && (next.dst 0).getReg == .esp) ||
          (next.opcode == .xchg && (next.src 0).isReg && (next.src 0).getReg == .esp) ||
          (next.opcode == .jmp || next.opcode == .jmpShort))
      ⟨m, nowAddressable && !m, [probe, .read nextPc next.length]⟩
    else
      let chkstk := inst.opcode == .movLd && src0.isBaseDisp && src0.getBase == .eax &&
        src0.getIndex == .null && src0.getScale == 0 && src0.getDisp == 0 &&
        dst0.isReg && dst0.getReg == .eax
      let cygwin := inst.opcode == .or && dst0.isBaseDisp && dst0.getBase == .ecx &&
        dst0.getIndex == .null && dst0.getScale == 0 && dst0.getDisp == 0 &&
        src0.isImmedInt && src0.getImmedInt == 0
      let m := (chkstk && c.mem (pc - 1) == 0x94) || cygwin
      ⟨m, nowAddressable && !m, if chkstk then [probe, .read (pc - 1) 1] else [probe]⟩

/-- `is_strlen_pattern`: an unaligned `mov eax, [ecx]` or `mov eax, [ecx-4]`
of the word loop of `strlen`, followed by `test al, al; jz` (the raw word
`0x3274c084`) or by `mov edx, 0x7efefeff`; or the variant `mov eax, [esi]`
or `mov edx, [esi]` after the constant `0x7efefeff` or the bytes
`f0 ff 33 c2`. -/
def isStrlenPattern (c : Code) (rd : Readable) (pc nextPc addr : Addr) (inst : Instr)
    (nowAddressable : Bool) : Outcome :=
  let size := (nextPc - (pc - 4) + BitVec.ofNat 32 maxInstrSize).toNat
  if !rd (pc - 4) size then ⟨false, nowAddressable, [.probe (pc - 4) size false]⟩
  else
    let probe := Access.probe (pc - 4) size true
    let src0 := inst.src 0
    let dst0 := inst.dst 0
    if !aligned addr 4 && inst.opcode == .movLd && src0.isBaseDisp && src0.getBase == .ecx &&
        src0.getIndex == .null && src0.getScale == 0 &&
        (src0.getDisp == 0 || src0.getDisp == -4) && dst0.isReg && dst0.getReg == .eax then
      let raw := c.readInt nextPc
      let next := c.decode nextPc
      let m := next.valid && (raw == 0x3274c084 ||
        (next.opcode == .movImm && (next.src 0).isImmedInt &&
          (next.src 0).getImmedInt == 0x7efefeff && (next.dst 0).isReg &&
          (next.dst 0).getReg == .edx))
      ⟨m, nowAddressable && !m, [probe, .read nextPc 4, .read nextPc next.length]⟩
    else if !aligned addr 4 && inst.opcode == .movLd && src0.isBaseDisp && src0.getBase == .esi &&
        src0.getIndex == .null && src0.getScale == 0 && src0.getDisp == 0 && dst0.isReg &&
        (dst0.getReg == .eax || dst0.getReg == .edx) then
      let raw := c.readInt (pc - 4)
      let m := raw == 0x7efefeff || raw == 0xc233fff0
      ⟨m, nowAddressable && !m, [probe, .read (pc - 4) 4]⟩
    else ⟨false, nowAddressable, [probe]⟩

/-- `is_strcpy_pattern`: an unaligned `mov ecx, [ebx]` of cygwin's `strcpy`
whose second following instruction is `lea eax, [ecx+0xfefefeff]`. -/
def isStrcpyPattern (c : Code) (rd : Readable) (nextPc addr : Addr) (inst : Instr)
    (nowAddressable : Bool) : Outcome :=
  if !rd nextPc maxInstrSize then ⟨false, nowAddressable, [.probe nextPc maxInstrSize false]⟩
  else
    let probe := Access.probe nextPc maxInstrSize true
    let src0 := inst.src 0
    if !aligned addr 4 && inst.opcode == .movLd && src0.isBaseDisp && src0.getBase == .ebx &&
        src0.getIndex == .null && src0.getScale == 0 && src0.getDisp == 0 &&
        (inst.dst 0).isReg && (inst.dst 0).getReg == .ecx then
      let next := c.decode nextPc
      if next.valid then
        let dpc := c.nextPc nextPc
        let next2 := c.decode dpc
        let m := next2.valid && next2.opcode == .lea && (next2.src 0).getBase == .ecx &&
          (next2.src 0).getIndex == .null && (next2.src 0).getScale == 0 &&
          (next2.src 0).getDisp == 0xfefefeff && (next2.dst 0).isReg &&
          (next2.dst 0).getReg == .eax
        ⟨m, nowAddressable && !m, [probe, .read nextPc next.length, .read dpc next2.length]⟩
      else ⟨false, nowAddressable, [probe, .read nextPc next.length]⟩
    else ⟨false, nowAddressable, [probe]⟩

/-- `is_rawmemchr_pattern`: an unaligned pointer-sized load followed, after
an optional register `xor` of `strchr`, by a move of the magic constant
`0xfefefeff` or `0x7efefeff` into a register. -/
def isRawmemchrPattern (c : Code) (rd : Readable) (nextPc addr : Addr) (inst : Instr)
    (nowAddressable : Bool) : Outcome :=
  if !rd nextPc maxInstrSize then ⟨false, nowAddressable, [.probe nextPc maxInstrSize false]⟩
  else
    let next := c.decode nextPc
    let dpc := c.nextPc nextPc
    let pre := [Access.probe nextPc maxInstrSize true, .read nextPc next.length]
    let magic := fun i : Instr => i.valid && i.opcode == .movImm &&
      ((i.src 0).getImmedInt == 0xfefefeff || (i.src 0).getImmedInt == 0x7efefeff) &&
      (i.dst 0).isReg
    if !aligned addr 4 && inst.opcode == .movLd && (inst.dst 0).isReg &&
        (inst.dst 0).getSize == ptrSize then
      if next.valid && next.opcode == .xor && (next.src 0).isReg && (next.dst 0).isReg &&
          (next.dst 0).getSize == ptrSize then
        if !rd dpc maxInstrSize then
          ⟨false, nowAddressable, pre ++ [.probe dpc maxInstrSize false]⟩
        else
          let next2 := c.decode dpc
          ⟨magic next2, nowAddressable && !magic next2,
            pre ++ [.probe dpc maxInstrSize true, .read dpc next2.length]⟩
      else ⟨magic next, nowAddressable && !magic next, pre⟩
    else ⟨false, nowAddressable, pre⟩

/-- Where an access came from: an application pc, or a system call. -/
inductive AppLoc where
  | pc (pc : Addr)
  | syscall (num : Nat)
deriving DecidableEq, Repr

/-- `is_ok_unaddressable_pattern`: the state (an `ASSERT` on the decoded
instruction, and the shadow byte of `addr` if a matcher left
`now_addressable` set), whether a matcher matched, and the accesses. -/
def isOkUnaddressablePattern (c : Code) (rd : Readable) (s : State) (loc : AppLoc) (addr : Addr) :
    State × Bool × List Access :=
  match loc with
  | .syscall _ => (s, false, [])
  | .pc pc =>
    if !rd addr 1 then (s, false, [.probe addr 1 false])
    else if !rd pc 1 then (s, false, [.probe addr 1 true, .probe pc 1 false])
    else
      let inst := c.decode pc
      let dpc := c.nextPc pc
      let s := { s with asserts := assert s.asserts (inst.valid = true) "unknown suspect instr" }
      let r := (((isAllocaPattern c rd pc dpc inst false).orElse
        (isStrlenPattern c rd pc dpc addr inst)).orElse
        (isStrcpyPattern c rd dpc addr inst)).orElse
        (isRawmemchrPattern c rd dpc addr inst)
      let s := if r.nowAddressable then
          { s with shadow := Function.update s.shadow addr.toNat .undefined }
        else s
      (s, r.matched, [.probe addr 1 true, .probe pc 1 true, .read pc inst.length] ++ r.trace)

/-! ## Unprobed reads -/

/-- Every byte that `tr` reads unprobed, after any probes before it,
satisfies `P`. -/
def UnprobedWithin (P : Addr → Prop) (tr : List Access) : Prop :=
  ∀ seen b, b ∈ unprobedReads seen tr → P b

section Unprobed

variable {P Q : Addr → Prop} {seen tr tr' : List Access} {b : Addr}

theorem unprobedReads_append :
    unprobedReads seen (tr ++ tr') = unprobedReads seen tr ++ unprobedReads (seenAfter seen tr) tr' := by
  induction tr generalizing seen with
  | nil => rfl
  | cons a tr ih => cases a <;> simp [unprobedReads, seenAfter, ih]

theorem mem_unprobedReads_read {start : Addr} {size : Nat} :
    b ∈ unprobedReads seen (.read start size :: tr) ↔
      ((∃ i < size, start + BitVec.ofNat 32 i = b) ∧ ∀ p ∈ seen, p.covers b = false) ∨
        b ∈ unprobedReads seen tr := by
  simp [unprobedReads, byteRange]

theorem UnprobedWithin.mono (h : UnprobedWithin P tr) (hPQ : ∀ b, P b → Q b) :
    UnprobedWithin Q tr :=
  fun seen b hb => hPQ b (h seen b hb)

theorem UnprobedWithin.append (h : UnprobedWithin P tr) (h' : UnprobedWithin P tr') :
    UnprobedWithin P (tr ++ tr') := fun seen b hb => by
  rw [unprobedReads_append, List.mem_append] at hb
  exact hb.elim (h _ _) (h' _ _)

/-- A trace of probes reads nothing. -/
theorem UnprobedWithin.probe {start : Addr} {size : Nat} {ok : Bool} (h : UnprobedWithin P tr) :
    UnprobedWithin P (.probe start size ok :: tr) :=
  fun seen => h (.probe start size ok :: seen)

theorem UnprobedWithin.nil : UnprobedWithin P [] := fun _ _ hb => absurd hb (List.not_mem_nil _)

/-- A true probe followed by a read: the bytes of the read outside the probed
range satisfy `P`. -/
theorem UnprobedWithin.probe_read {start r : Addr} {size n : Nat}
    (h : ∀ i < n, size ≤ (r + BitVec.ofNat 32 i - start).toNat → P (r + BitVec.ofNat 32 i))
    (ht : UnprobedWithin P (.probe start size true :: tr)) :
    UnprobedWithin P (.probe start size true :: .read r n :: tr) := fun seen b hb => by
  rcases mem_unprobedReads_read.1 hb with ⟨⟨i, hi, rfl⟩, hc⟩ | hb
  · have hcov := hc _ (List.mem_cons_self _ _)
    simp only [Access.covers, Bool.true_and, decide_eq_false_iff_not, Nat.not_lt] at hcov
    exact h i hi hcov
  · exact ht seen b hb

end Unprobed

/-! ## What each matcher reads -/

section Matchers

variable (c : Code) (rd : Readable)

theorem Code.nextPc_of_valid {pc : Addr} (h : (c.decode pc).valid = true) :
    c.nextPc pc = pc + BitVec.ofNat 32 (c.decode pc).length := if_pos h

theorem Instr.opcode_of_not_valid {i : Instr} (h : i.valid = false) : i.opcode = .invalid := by
  simpa [Instr.valid] using h

/-- `is_alloca_pattern` reads only inside its probe of
`[pc - 1, next_pc + MAX_INSTR_SIZE)`. -/
theorem isAllocaPattern_probed (pc : Addr) (na : Bool) :
    UnprobedWithin (fun _ => False)
      (isAllocaPattern c rd pc (c.nextPc pc) (c.decode pc) na).trace := by
  have h0 := c.length_le pc
  cases hv : (c.decode pc).valid
  /- bytes that are no instruction pass none of the opcode tests: nothing is
  read past the probe -/
  · have hop := Instr.opcode_of_not_valid hv
    unfold isAllocaPattern
    dsimp only
    split_ifs with h1 h2 h3
    · exact UnprobedWithin.nil.probe
    · simp [hop] at h2
    · simp [hop] at h3
    · exact UnprobedWithin.nil.probe
  /- `next_pc` is `pc + length`, so the probe reaches `MAX_INSTR_SIZE` bytes
  past it -/
  · rw [c.nextPc_of_valid hv]
    unfold isAllocaPattern
    dsimp only
    split_ifs
    · exact UnprobedWithin.nil.probe
    · have h1 := c.length_le (pc + BitVec.ofNat 32 (c.decode pc).length)
      exact UnprobedWithin.nil.probe.probe_read fun i hi hout => by
        simp only [maxInstrSize] at *; bv_omega
    · exact UnprobedWithin.nil.probe.probe_read fun i hi hout => by
        simp only [maxInstrSize] at *; bv_omega
    · exact UnprobedWithin.nil.probe

/-- `is_strlen_pattern` reads only inside its probe of
`[pc - 4, next_pc + MAX_INSTR_SIZE)`. -/
theorem isStrlenPattern_probed (pc addr : Addr) (na : Bool) :
    UnprobedWithin (fun _ => False)
      (isStrlenPattern c rd pc (c.nextPc pc) addr (c.decode pc) na).trace := by
  have h0 := c.length_le pc
  cases hv : (c.decode pc).valid
  /- bytes that are no instruction pass none of the opcode tests: nothing is
  read past the probe -/
  · have hop := Instr.opcode_of_not_valid hv
    unfold isStrlenPattern
    dsimp only
    split_ifs with h1 h2 h3
    · exact UnprobedWithin.nil.probe
    · simp [hop] at h2
    · simp [hop] at h3
    · exact UnprobedWithin.nil.probe
  /- `next_pc` is `pc + length`, so the probe reaches `MAX_INSTR_SIZE` bytes
  past it -/
  · rw [c.nextPc_of_valid hv]
    unfold isStrlenPattern
    dsimp only
    split_ifs
    · exact UnprobedWithin.nil.probe
    · have h1 := c.length_le (pc + BitVec.ofNat 32 (c.decode pc).length)
      refine UnprobedWithin.probe_read (fun i hi hout => ?_) (UnprobedWithin.probe_read
        (fun i hi hout => ?_) UnprobedWithin.nil.probe) <;>
      · simp only [maxInstrSize] at *; bv_omega
    · exact UnprobedWithin.nil.probe.probe_read fun i hi hout => by
        simp only [maxInstrSize] at *; bv_omega
    · exact UnprobedWithin.nil.probe

/-- `is_rawmemchr_pattern` reads only inside its probes of `MAX_INSTR_SIZE`
bytes at each instruction it decodes. -/
theorem isRawmemchrPattern_probed (nextPc addr : Addr) (inst : Instr) (na : Bool) :
    UnprobedWithin (fun _ => False) (isRawmemchrPattern c rd nextPc addr inst na).trace := by
  have h1 := c.length_le nextPc
  have h2 := c.length_le (c.nextPc nextPc)
  have hpre : UnprobedWithin (fun _ => False)
      [.probe nextPc maxInstrSize true, .read nextPc (c.decode nextPc).length] :=
    UnprobedWithin.nil.probe.probe_read fun i hi hout => by simp only [maxInstrSize] at *; bv_omega
  unfold isRawmemchrPattern
  dsimp only
  split_ifs
  · exact UnprobedWithin.nil.probe
  · exact hpre.append UnprobedWithin.nil.probe
  · exact hpre.append <| UnprobedWithin.nil.probe.probe_read fun i hi hout => by
      simp only [maxInstrSize] at *; bv_omega
  · exact hpre
  · exact hpre

/-- `is_strcpy_pattern` probes `MAX_INSTR_SIZE` bytes at `next_pc` and then
decodes two instructions from there: the bytes it reads unprobed lie
`MAX_INSTR_SIZE` bytes or more past `next_pc`. -/
theorem isStrcpyPattern_unprobed (nextPc addr : Addr) (inst : Instr) (na : Bool) :
    UnprobedWithin
      (fun b => ∃ i, maxInstrSize ≤ i ∧ i < 2 * maxInstrSize ∧ b = nextPc + BitVec.ofNat 32 i)
      (isStrcpyPattern c rd nextPc addr inst na).trace := by
  have h1 := c.length_le nextPc
  have h2 := c.length_le (c.nextPc nextPc)
  unfold isStrcpyPattern
  dsimp only
  split_ifs with hr hc hv
  · exact UnprobedWithin.nil.probe
  · rw [c.nextPc_of_valid hv] at h2 ⊢
    refine UnprobedWithin.probe_read (fun i hi hout => ?_)
      (UnprobedWithin.probe_read (fun i hi hout => ?_) UnprobedWithin.nil.probe)
    · exfalso; simp only [maxInstrSize] at *; bv_omega
    · refine ⟨(c.decode nextPc).length + i, ?_, ?_, ?_⟩ <;> simp only [maxInstrSize] at * <;>
        bv_omega
  · exact UnprobedWithin.nil.probe.probe_read fun i hi hout => by
      simp only [maxInstrSize] at *; bv_omega
  · exact UnprobedWithin.nil.probe

theorem Outcome.orElse_unprobedWithin {P : Addr → Prop} {o : Outcome} {next : Bool → Outcome}
    (ho : UnprobedWithin P o.trace) (hn : ∀ na, UnprobedWithin P (next na).trace) :
    UnprobedWithin P (o.orElse next).trace := by
  unfold Outcome.orElse
  split
  · exact ho
  · exact ho.append (hn _)

end Matchers

/-- Over every code layout, readability map, faulting pc and address, the
bytes that `is_ok_unaddressable_pattern` and its matchers read where no
earlier probe found them readable are bytes of the faulting instruction past
its first, which it decodes after probing one byte, and bytes
`MAX_INSTR_SIZE` or more past `next_pc`, which only the second instruction
that `is_strcpy_pattern` decodes reaches. -/
theorem isOkUnaddressablePattern_unprobed (c : Code) (rd : Readable) (s : State) (pc addr : Addr) :
    ∀ b ∈ unprobedReads [] (isOkUnaddressablePattern c rd s (.pc pc) addr).2.2,
      (∃ i, 0 < i ∧ i < (c.decode pc).length ∧ b = pc + BitVec.ofNat 32 i) ∨
        (∃ i, maxInstrSize ≤ i ∧ i < 2 * maxInstrSize ∧ b = c.nextPc pc + BitVec.ofNat 32 i) := by
  have hno : ∀ b, False → ∃ i, maxInstrSize ≤ i ∧ i < 2 * maxInstrSize ∧
      b = c.nextPc pc + BitVec.ofNat 32 i := fun _ h => h.elim
  have hchain := Outcome.orElse_unprobedWithin
    (Outcome.orElse_unprobedWithin
      (Outcome.orElse_unprobedWithin ((isAllocaPattern_probed c rd pc false).mono hno)
        fun na => (isStrlenPattern_probed c rd pc addr na).mono hno)
      fun na => isStrcpyPattern_unprobed c rd (c.nextPc pc) addr (c.decode pc) na)
    fun na => (isRawmemchrPattern_probed c rd (c.nextPc pc) addr (c.decode pc) na).mono hno
  intro b hb
  unfold isOkUnaddressablePattern at hb
  dsimp only at hb
  split_ifs at hb
  · exact absurd hb (List.not_mem_nil _)
  · exact absurd hb (List.not_mem_nil _)
  /- whether or not a matcher left `now_addressable` set, the accesses are
  the probes, the decode at `pc` and the matchers' -/
  all_goals
    rw [unprobedReads_append, List.mem_append] at hb
    rcases hb with hb | hb
    · rcases mem_unprobedReads_read.1 hb with ⟨⟨i, hi, rfl⟩, hc⟩ | hb
      · have hcov := hc (.probe pc 1 true) (List.mem_cons_self _ _)
        simp only [Access.covers, Bool.true_and, decide_eq_false_iff_not, Nat.not_lt] at hcov
        exact .inl ⟨i, by bv_omega, hi, rfl⟩
      · exact absurd hb (List.not_mem_nil _)
    · exact .inr (hchain _ _ hb)

/-! ## The shadow write -/

/-- A matcher leaves `now_addressable` set only if it was set. -/
def KeepsClear (f : Bool → Outcome) : Prop := ∀ na, (f na).nowAddressable = true → na = true

theorem Outcome.orElse_nowAddressable {o : Outcome} {f : Bool → Outcome} (hf : KeepsClear f)
    (h : (o.orElse f).nowAddressable = true) : o.nowAddressable = true := by
  unfold Outcome.orElse at h
  split at h
  · exact h
  · exact hf _ h

section Clear

variable (c : Code) (rd : Readable) (pc nextPc addr : Addr) (inst : Instr)

theorem isStrlenPattern_keepsClear : KeepsClear (isStrlenPattern c rd pc nextPc addr inst) :=
  fun na h => by
    unfold isStrlenPattern at h
    dsimp only at h
    split_ifs at h <;> first | exact h | exact (Bool.and_eq_true_iff.1 h).1

theorem isStrcpyPattern_keepsClear : KeepsClear (isStrcpyPattern c rd nextPc addr inst) :=
  fun na h => by
    unfold isStrcpyPattern at h
    dsimp only at h
    split_ifs at h <;> first | exact h | exact (Bool.and_eq_true_iff.1 h).1

theorem isRawmemchrPattern_keepsClear : KeepsClear (isRawmemchrPattern c rd nextPc addr inst) :=
  fun na h => by
    unfold isRawmemchrPattern at h
    dsimp only at h
    split_ifs at h <;> first | exact h | exact (Bool.and_eq_true_iff.1 h).1

theorem isAllocaPattern_keepsClear : KeepsClear (isAllocaPattern c rd pc nextPc inst) :=
  fun na h => by
    unfold isAllocaPattern at h
    dsimp only at h
    split_ifs at h <;> first | exact h | exact (Bool.and_eq_true_iff.1 h).1

end Clear

/-- Every matcher clears `now_addressable` on a match and leaves it
otherwise, so it stays clear, and `is_ok_unaddressable_pattern` never marks
the shadow byte of `addr`. -/
theorem isOkUnaddressablePattern_shadow (c : Code) (rd : Readable) (s : State) (loc : AppLoc)
    (addr : Addr) : (isOkUnaddressablePattern c rd s loc addr).1.shadow = s.shadow := by
  unfold isOkUnaddressablePattern
  split
  · rfl
  · next pc =>
    dsimp only
    split_ifs with h1 h2 h3
    · rfl
    · rfl
    · exact absurd (isAllocaPattern_keepsClear c rd pc _ _ false
        (Outcome.orElse_nowAddressable (isStrlenPattern_keepsClear c rd pc _ addr _)
          (Outcome.orElse_nowAddressable (isStrcpyPattern_keepsClear c rd _ addr _)
            (Outcome.orElse_nowAddressable (isRawmemchrPattern_keepsClear c rd _ addr _) h3))))
        Bool.false_ne_true
    · rfl

/-! ## A read past the probed range -/

/-- `mov ecx, [ebx]` (`8b 0b`), the word load of cygwin's `strcpy`. -/
def movEcxEbx : Instr := ⟨.movLd, [.baseDisp .ebx .null 0 0], [.reg .ecx 4], 2⟩

/-- `mov dword [eax+ebx*4+0x12345678], 0x12345678`
(`c7 84 98 78 56 34 12 78 56 34 12`), eleven bytes. -/
def movStImm : Instr := ⟨.movSt, [.immedInt 0x12345678], [.baseDisp .eax .ebx 4 0x12345678], 11⟩

/-- The bytes from `0x1fed`: the load, then two of the stores. -/
def strcpyBytes : List (BitVec 8) :=
  [0x8b, 0x0b] ++ [0xc7, 0x84, 0x98, 0x78, 0x56, 0x34, 0x12, 0x78, 0x56, 0x34, 0x12] ++
    [0xc7, 0x84, 0x98, 0x78, 0x56, 0x34, 0x12, 0x78, 0x56, 0x34, 0x12]

/-- The load at `0x1fed` followed by the two stores at `0x1fef` and `0x1ffa`,
the second running into the page at `0x2000`. -/
def strcpyCode : Code where
  mem a := strcpyBytes.getD (a - 0x1fed).toNat 0
  decode a := if a = 0x1fed then movEcxEbx
    else if a = 0x1fef ∨ a = 0x1ffa then movStImm else ⟨.invalid, [], [], 1⟩
  length_le a := by dsimp only; split_ifs <;> decide

/-- Only the page `[0x1000, 0x2000)` is readable. -/
def onePage : Readable := fun start size =>
  decide (0x1000 ≤ start.toNat ∧ start.toNat + size ≤ 0x2000)

/-- With `mov ecx, [ebx]` at `0x1fed` faulting on the unaligned address
`0x1801`, the matchers for `_alloca` and `strlen` find no match, and
`is_strcpy_pattern` probes `[0x1fef, 0x2000)` and then decodes the store at
`0x1ffa`, reading the byte at `0x2000` that no probe covered and that is not
readable. -/
theorem isOkUnaddressablePattern_unprobed_strcpy :
    (0x2000 : Addr) ∈
        unprobedReads [] (isOkUnaddressablePattern strcpyCode onePage State.init (.pc 0x1fed) 0x1801).2.2 ∧
      onePage 0x2000 1 = false ∧
      ((∃ i, 0 < i ∧ i < (strcpyCode.decode 0x1fed).length ∧
          (0x2000 : Addr) = 0x1fed + BitVec.ofNat 32 i) ∨
        (∃ i, maxInstrSize ≤ i ∧ i < 2 * maxInstrSize ∧
          (0x2000 : Addr) = strcpyCode.nextPc 0x1fed + BitVec.ofNat 32 i)) := by
  have h : (0x2000 : Addr) ∈
      unprobedReads [] (isOkUnaddressablePattern strcpyCode onePage State.init (.pc 0x1fed) 0x1801).2.2 := by
    decide
  exact ⟨h, by decide, isOkUnaddressablePattern_unprobed strcpyCode onePage State.init 0x1fed 0x1801 _ h⟩

/- The store at `0x1ffa` itself, faulting: `is_ok_unaddressable_pattern`
probes one byte of it and decodes all eleven. -/
example : (0x2000 : Addr) ∈
    unprobedReads [] (isOkUnaddressablePattern strcpyCode onePage State.init (.pc 0x1ffa) 0x1801).2.2 := by
  decide

end DrMemory
