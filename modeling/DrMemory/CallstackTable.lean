import DrMemory.Shadow

/-!
# The shared allocation-callstack table

`alloc_stack_table` interns the packed callstacks of allocation sites
(PR 465174): a hash table keyed by callstack content whose key and payload
are the same `packed_callstack_t *`, with `alloc_callstack_free` as the
payload free routine. `client_add_malloc_pre` interns a new callstack (or
takes the caller's existing one) and hands back a counted reference;
`client_malloc_data_free` drops one and removes the entry when only the
table's own reference is left.

`callstack.c` and `hashtable.c` are not among the sources, so the packed
callstacks (a store of reference-counted objects behind pointers) and the
content-keyed table are modelled from the specification.

The invariant `StackTable.Inv` relates a state to the multiset of handles
held by live allocation records; every call preserves it, and the theorems
read their facts off it at every state reachable from the empty table.
-/

namespace DrMemory

/-- A `packed_callstack_t`: its frames and its reference count. -/
structure PackedCallstack where
  frames : List Nat
  refcount : Nat
deriving Repr, DecidableEq

/-- The callstack store and `alloc_stack_table`. -/
structure StackTable where
  objs : Nat → Option PackedCallstack
  next : Nat
  table : List Nat
  asserts : List String

namespace StackTable

/-- No callstack recorded yet: the table `alloc_drmem_init` creates. -/
def empty : StackTable := ⟨fun _ => none, 1, [], []⟩

/-- The content of the callstack at `p`, as `packed_callstack_cmp` compares. -/
def framesOf (t : StackTable) (p : Nat) : Option (List Nat) := (t.objs p).map (·.frames)

/-- Modelled from the spec: `packed_callstack_record` allocates a callstack
with one reference. -/
def packedCallstackRecord (t : StackTable) (frames : List Nat) : StackTable × Nat :=
  ({ t with objs := Function.update t.objs t.next (some ⟨frames, 1⟩), next := t.next + 1 }, t.next)

/-- Modelled from the spec: `packed_callstack_add_ref`. -/
def packedCallstackAddRef (t : StackTable) (p : Nat) : StackTable :=
  match t.objs p with
  | none => t
  | some pcs =>
    let obj := some { pcs with refcount := pcs.refcount + 1 }
    { t with objs := Function.update t.objs p obj }

/-- Modelled from the spec: `packed_callstack_free` drops a reference, frees
the storage when none is left, and returns the count left. -/
def packedCallstackFree (t : StackTable) (p : Nat) : StackTable × Nat :=
  match t.objs p with
  | none => (t, 0)
  | some pcs =>
    let count := pcs.refcount - 1
    let obj := if count = 0 then none else some { pcs with refcount := count }
    ({ t with objs := Function.update t.objs p obj }, count)

/-- Modelled from the spec: `hashtable_lookup(&alloc_stack_table, pcs)`, the
entry whose callstack has the content of `pcs`. -/
def hashtableLookup (t : StackTable) (p : Nat) : Option Nat :=
  t.table.find? fun e => t.framesOf e == t.framesOf p

/-- Modelled from the spec: `hashtable_add`, false if the content is there. -/
def hashtableAdd (t : StackTable) (p : Nat) : StackTable × Bool :=
  match hashtableLookup t p with
  | some _ => (t, false)
  | none => ({ t with table := p :: t.table }, true)

/-- Modelled from the spec: `hashtable_remove`, which hands the payload to
`alloc_callstack_free`. -/
def hashtableRemove (t : StackTable) (p : Nat) : StackTable × Bool :=
  match hashtableLookup t p with
  | none => (t, false)
  | some e => ((packedCallstackFree { t with table := t.table.erase e } e).1, true)

end StackTable

open StackTable

/-- `client_add_malloc_pre`: intern the recorded callstack (or the caller's
`existing_data`, `NULL` = `0`) and return it with one more reference. -/
def clientAddMallocPre (t : StackTable) (existingData : Nat) (frames : List Nat) :
    StackTable × Nat :=
  let (t, pcs) := if existingData ≠ 0 then (t, existingData) else packedCallstackRecord t frames
  let (t, added) := hashtableAdd t pcs
  let (t, pcs) := if added then (t, pcs) else
    let existing := hashtableLookup t pcs
    let t := { t with asserts := assert t.asserts existing.isSome "callstack must exist" }
    let existing := existing.getD 0
    let t := if existingData = 0 then
        let (t, count) := packedCallstackFree t pcs
        { t with asserts := assert t.asserts (count = 0) "refcount should be 0" }
      else { t with asserts := assert t.asserts (pcs = existing) "invalid params" }
    (t, existing)
  (packedCallstackAddRef t pcs, pcs)

/-- `client_malloc_data_free`: drop the record's reference; at one left the
only reference is the table's, so remove the entry. -/
def clientMallocDataFree (t : StackTable) (data : Nat) : StackTable :=
  let t := { t with asserts := assert t.asserts (data ≠ 0) "malloc data must exist" }
  let (t, count) := packedCallstackFree t data
  let t := { t with
    asserts := assert t.asserts (count ≠ 0) "refcount should not hit 0 in malloc_table" }
  if count = 1 then (hashtableRemove t data).1 else t

/-! ## Content lookup -/

namespace StackTable

variable {t : StackTable} {p e : Nat}

/-- No two entries of the table have equal content. -/
def Distinct (t : StackTable) : Prop := t.table.Pairwise fun a b => t.framesOf a ≠ t.framesOf b

theorem Distinct.eq_of_frames (hd : t.Distinct) {a b : Nat} (ha : a ∈ t.table) (hb : b ∈ t.table)
    (hab : t.framesOf a = t.framesOf b) : a = b := by
  by_contra hne
  exact List.Pairwise.forall (by intro _ _ h; exact Ne.symm h) hd ha hb hne hab

theorem hashtableLookup_some (h : hashtableLookup t p = some e) :
    e ∈ t.table ∧ t.framesOf e = t.framesOf p := by
  have := List.find?_some h
  exact ⟨List.mem_of_find?_eq_some h, by simpa using this⟩

/-- With distinct contents the lookup finds the one entry of that content. -/
theorem hashtableLookup_of_mem (hd : t.Distinct) (he : e ∈ t.table)
    (hfe : t.framesOf e = t.framesOf p) : hashtableLookup t p = some e := by
  cases hf : hashtableLookup t p with
  | none => exact absurd (by simpa using hfe) (by simpa using List.find?_eq_none.mp hf e he)
  | some x =>
    obtain ⟨hx, hfx⟩ := hashtableLookup_some hf
    rw [hd.eq_of_frames hx he (hfx.trans hfe.symm)]

theorem hashtableLookup_of_not_mem (h : ∀ e ∈ t.table, t.framesOf e ≠ t.framesOf p) :
    hashtableLookup t p = none :=
  List.find?_eq_none.2 fun e he => by simpa using h e he

/-! ## The invariant -/

/-- The table against the multiset `live` of handles held by live
allocation records: contents are distinct, the entries are exactly the
live handles, storage is allocated exactly for the entries, each entry
counts one reference for the table and one per live handle, fresh pointers
are unallocated, `NULL` is never allocated, and no assertion has fired. -/
structure Inv (t : StackTable) (live : List Nat) : Prop where
  distinct : t.Distinct
  mem_table : ∀ p, p ∈ t.table ↔ p ∈ live
  alloc : ∀ p, (t.objs p).isSome ↔ p ∈ t.table
  refcount : ∀ e ∈ t.table, (t.objs e).map (·.refcount) = some (1 + live.count e)
  fresh : ∀ p, t.next ≤ p → t.objs p = none
  null : t.objs 0 = none
  next_pos : 0 < t.next
  asserts : t.asserts = []

variable {live : List Nat}

theorem Inv.empty : Inv StackTable.empty [] :=
  ⟨List.Pairwise.nil, fun _ => by simp [StackTable.empty], fun _ => by simp [StackTable.empty],
    fun _ h => by simp [StackTable.empty] at h, fun _ _ => rfl, rfl, Nat.one_pos, rfl⟩

theorem Inv.obj_of_mem (hi : Inv t live) (he : e ∈ t.table) :
    ∃ pcs, t.objs e = some pcs ∧ pcs.refcount = 1 + live.count e := by
  obtain ⟨pcs, hp⟩ := Option.isSome_iff_exists.mp ((hi.alloc e).2 he)
  exact ⟨pcs, hp, by simpa [hp] using hi.refcount e he⟩

theorem Inv.lt_next (hi : Inv t live) (he : e ∈ t.table) : e < t.next := by
  by_contra h
  have := (hi.alloc e).2 he
  simp [hi.fresh e (by omega)] at this

theorem Inv.ne_zero (hi : Inv t live) (he : e ∈ t.table) : e ≠ 0 := by
  rintro rfl
  have := (hi.alloc 0).2 he
  simp [hi.null] at this

theorem Inv.nodup (hi : Inv t live) : t.table.Nodup :=
  hi.distinct.imp fun h hab => h (congrArg _ hab)

theorem with_asserts_self {l : List String} (h : t.asserts = l) :
    ({ t with asserts := l } : StackTable) = t := by
  cases t; cases h; rfl

/-- Changing a reference count leaves every content as it was. -/
theorem framesOf_setRefcount {pcs : PackedCallstack} (hp : t.objs p = some pcs) (r : Nat) :
    ({ t with objs := Function.update t.objs p (some { pcs with refcount := r }) } :
      StackTable).framesOf = t.framesOf := by
  funext q
  by_cases hq : q = p
  · subst hq; simp [framesOf, hp]
  · simp [framesOf, Function.update_noteq hq]

theorem packedCallstackAddRef_of_some {pcs : PackedCallstack} (hp : t.objs p = some pcs) :
    packedCallstackAddRef t p =
      { t with objs := Function.update t.objs p (some { pcs with refcount := pcs.refcount + 1 }) } := by
  simp [packedCallstackAddRef, hp]

/-- Setting an entry's count to one more than its number of live handles,
when only that entry's number of live handles changed and it stays live,
keeps the invariant. -/
theorem Inv.setRefcount (hi : Inv t live) {pcs : PackedCallstack} (hp : t.objs e = some pcs)
    {live' : List Nat} (hmem : e ∈ live') (hcount : ∀ q, q ≠ e → live'.count q = live.count q) :
    Inv { t with objs := Function.update t.objs e (some { pcs with refcount := 1 + live'.count e }) }
      live' := by
  have he : e ∈ t.table := (hi.alloc e).1 (by simp [hp])
  refine ⟨by rw [Distinct, framesOf_setRefcount hp]; exact hi.distinct, fun q => ?_, fun q => ?_,
    fun q hq => ?_, fun q hq => ?_, ?_, hi.next_pos, hi.asserts⟩
  · by_cases hq : q = e
    · subst hq; simp [he, hmem]
    · rw [hi.mem_table q, ← List.count_pos_iff, ← List.count_pos_iff, hcount q hq]
  · by_cases hq : q = e
    · subst hq; simp [he]
    · simp [Function.update_noteq hq, hi.alloc q]
  · by_cases hqe : q = e
    · subst hqe; simp
    · simp [Function.update_noteq hqe, hcount q hqe, hi.refcount q hq]
  · dsimp only at hq ⊢
    rw [Function.update_noteq (by have := hi.lt_next he; omega), hi.fresh q hq]
  · simp [Function.update_noteq (hi.ne_zero he).symm, hi.null]

/-- One more live handle on an entry: its count goes up by one. -/
theorem Inv.addRef (hi : Inv t live) (he : e ∈ t.table) :
    Inv (packedCallstackAddRef t e) (e :: live) := by
  obtain ⟨pcs, hp, hr⟩ := hi.obj_of_mem he
  rw [packedCallstackAddRef_of_some hp, show pcs.refcount + 1 = 1 + (e :: live).count e by
    simp [hr]; omega]
  exact hi.setRefcount hp (List.mem_cons_self _ _) fun q hq => List.count_cons_of_ne hq _

end StackTable

/-! ## What each call does on a state of the invariant -/

section Calls

open StackTable

variable {t : StackTable} {live : List Nat} {h e : Nat}

/-- Re-adding a live handle only adds a reference to it. -/
theorem clientAddMallocPre_existing (hi : Inv t live) (hh : h ∈ live) (frames : List Nat) :
    clientAddMallocPre t h frames = (packedCallstackAddRef t h, h) := by
  have hmem := (hi.mem_table h).2 hh
  have hl : hashtableLookup t h = some h := hashtableLookup_of_mem hi.distinct hmem rfl
  simp [clientAddMallocPre, hi.ne_zero hmem, hashtableAdd, hl, hi.asserts, assert,
    with_asserts_self hi.asserts]

/-- A recorded callstack of new content becomes an entry of its own. -/
theorem clientAddMallocPre_new (hi : Inv t live) {frames : List Nat}
    (hnew : ∀ e ∈ t.table, t.framesOf e ≠ some frames) :
    clientAddMallocPre t 0 frames =
      ({ t with
          objs := Function.update t.objs t.next (some ⟨frames, 2⟩)
          next := t.next + 1
          table := t.next :: t.table }, t.next) := by
  have hl : hashtableLookup
      { t with
        objs := Function.update t.objs t.next (some ⟨frames, 1⟩)
        next := t.next + 1 } t.next = none := by
    refine hashtableLookup_of_not_mem fun q hq => ?_
    simpa [framesOf, Function.update_noteq (hi.lt_next hq).ne] using hnew q hq
  simp [clientAddMallocPre, packedCallstackRecord, hashtableAdd, hl, packedCallstackAddRef]

/-- A recorded callstack whose content is already an entry is freed at once,
and the entry gets the reference. -/
theorem clientAddMallocPre_dup (hi : Inv t live) {frames : List Nat} (he : e ∈ t.table)
    (hf : t.framesOf e = some frames) :
    clientAddMallocPre t 0 frames = (packedCallstackAddRef { t with next := t.next + 1 } e, e) := by
  set t1 : StackTable :=
    { t with
      objs := Function.update t.objs t.next (some ⟨frames, 1⟩)
      next := t.next + 1 }
  have hframes : ∀ q ∈ t.table, t1.framesOf q = t.framesOf q := fun q hq => by
    simp [t1, framesOf, Function.update_noteq (hi.lt_next hq).ne]
  have hd : t1.Distinct := hi.distinct.imp_of_mem fun ha hb h => by
    rwa [hframes _ ha, hframes _ hb]
  have hl : hashtableLookup t1 t.next = some e :=
    hashtableLookup_of_mem hd he (by rw [hframes e he, hf]; simp [t1, framesOf])
  have hobj : Function.update (Function.update t.objs t.next (some ⟨frames, 1⟩)) t.next none =
      t.objs := by
    rw [Function.update_idem, ← hi.fresh t.next le_rfl, Function.update_eq_self]
  simp only [t1] at hl
  simp [clientAddMallocPre, packedCallstackRecord, hashtableAdd, hl, packedCallstackFree,
    assert, hobj]

/-- Releasing a live handle drops its reference; the last one removes the
entry and frees the storage. -/
theorem clientMallocDataFree_spec (hi : Inv t live) (hh : h ∈ live) {pcs : PackedCallstack}
    (hp : t.objs h = some pcs) :
    clientMallocDataFree t h =
      if live.count h = 1 then
        { t with objs := Function.update t.objs h none, table := t.table.erase h }
      else
        { t with objs := Function.update t.objs h (some { pcs with refcount := live.count h }) } := by
  have hmem := (hi.mem_table h).2 hh
  have hr : pcs.refcount = 1 + live.count h := by simpa [hp] using hi.refcount h hmem
  have hpos : 0 < live.count h := List.count_pos_iff.2 hh
  have hcount : pcs.refcount - 1 = live.count h := by omega
  have hl : hashtableLookup
      { t with objs := Function.update t.objs h (some { pcs with refcount := live.count h }) } h =
        some h :=
    hashtableLookup_of_mem (by rw [Distinct, framesOf_setRefcount hp]; exact hi.distinct) hmem rfl
  by_cases hc : live.count h = 1
  · rw [hc] at hl
    simp [clientMallocDataFree, packedCallstackFree, hp, hcount, hc, hi.ne_zero hmem, assert,
      hashtableRemove, hl, with_asserts_self hi.asserts]
  · simp [clientMallocDataFree, packedCallstackFree, hp, hcount, hc, hi.ne_zero hmem, assert,
      with_asserts_self hi.asserts, Nat.pos_iff_ne_zero.1 hpos]

/-! ## Every call keeps the invariant -/

theorem StackTable.Inv.existing (hi : Inv t live) (hh : h ∈ live) (frames : List Nat) :
    Inv (clientAddMallocPre t h frames).1 ((clientAddMallocPre t h frames).2 :: live) := by
  rw [clientAddMallocPre_existing hi hh]
  exact hi.addRef ((hi.mem_table h).2 hh)

theorem StackTable.Inv.record (hi : Inv t live) (frames : List Nat) :
    Inv (clientAddMallocPre t 0 frames).1 ((clientAddMallocPre t 0 frames).2 :: live) := by
  by_cases hdup : ∃ e ∈ t.table, t.framesOf e = some frames
  · obtain ⟨e, he, hf⟩ := hdup
    rw [clientAddMallocPre_dup hi he hf]
    have hi' : Inv { t with next := t.next + 1 } live :=
      { hi with fresh := fun q hq => hi.fresh q (by simp at hq; omega)
                next_pos := Nat.succ_pos _ }
    exact hi'.addRef he
  · push_neg at hdup
    rw [clientAddMallocPre_new hi hdup]
    have hfresh : t.objs t.next = none := hi.fresh _ le_rfl
    have hnt : t.next ∉ t.table := fun h => by simpa [hfresh] using (hi.alloc _).2 h
    have hnl : t.next ∉ live := fun h => hnt ((hi.mem_table _).2 h)
    have hframes : ∀ q ∈ t.table, ({ t with
        objs := Function.update t.objs t.next (some ⟨frames, 2⟩)
        next := t.next + 1
        table := t.next :: t.table } : StackTable).framesOf q = t.framesOf q := fun q hq => by
      simp [framesOf, Function.update_noteq (hi.lt_next hq).ne]
    refine ⟨?_, fun q => ?_, fun q => ?_, fun q hq => ?_, fun q hq => ?_, ?_, Nat.succ_pos _,
      hi.asserts⟩
    · refine List.pairwise_cons.2 ⟨fun q hq => ?_, hi.distinct.imp_of_mem fun ha hb h => ?_⟩
      · rw [hframes q hq]; simpa [framesOf] using (hdup q hq).symm
      · rwa [hframes _ ha, hframes _ hb]
    · simp [hi.mem_table q]
    · by_cases hq : q = t.next
      · subst hq; simp
      · simp [Function.update_noteq hq, hi.alloc q, hq]
    · by_cases hq' : q = t.next
      · subst hq'; simp [List.count_eq_zero_of_not_mem hnl]
      · have hq'' : q ∈ t.table := by simpa [hq'] using hq
        simp [Function.update_noteq hq', List.count_cons, hq', hi.refcount q hq'']
    · dsimp only at hq ⊢
      rw [Function.update_noteq (by omega), hi.fresh q (by omega)]
    · simp [Function.update_noteq hi.next_pos.ne, hi.null]

theorem StackTable.Inv.release (hi : Inv t live) (hh : h ∈ live) :
    Inv (clientMallocDataFree t h) (live.erase h) := by
  have hmem := (hi.mem_table h).2 hh
  obtain ⟨pcs, hp, hr⟩ := hi.obj_of_mem hmem
  have hpos : 0 < live.count h := List.count_pos_iff.2 hh
  have herase : (live.erase h).count h = live.count h - 1 := List.count_erase_self h live
  rw [clientMallocDataFree_spec hi hh hp]
  split_ifs with hc
  · have hgone : h ∉ live.erase h := List.not_mem_of_count_eq_zero (by omega)
    have hne : ∀ q ∈ t.table.erase h, q ≠ h := fun q hq hqh => by
      subst hqh; exact (hi.nodup.mem_erase_iff.1 hq).1 rfl
    refine ⟨hi.distinct.erase h |>.imp_of_mem fun ha hb hab => ?_, fun q => ?_, fun q => ?_,
      fun q hq => ?_, fun q hq => ?_, ?_, hi.next_pos, hi.asserts⟩
    · simpa [framesOf, Function.update_noteq (hne _ ha), Function.update_noteq (hne _ hb)] using hab
    · by_cases hq : q = h
      · subst hq; simp [hi.nodup.mem_erase_iff, hgone]
      · simp [List.mem_erase_of_ne hq, hi.mem_table q]
    · by_cases hq : q = h
      · subst hq; simp [hi.nodup.mem_erase_iff]
      · simp [Function.update_noteq hq, List.mem_erase_of_ne hq, hi.alloc q]
    · have hq' := hne q hq
      simp [Function.update_noteq hq', List.count_erase_of_ne hq',
        hi.refcount q (List.mem_of_mem_erase hq)]
    · by_cases hq' : q = h
      · subst hq'; simp
      · simp [Function.update_noteq hq', hi.fresh q hq]
    · simp [Function.update_noteq (hi.ne_zero hmem).symm, hi.null]
  · rw [show live.count h = 1 + (live.erase h).count h by omega]
    exact hi.setRefcount hp (List.count_pos_iff.1 (by omega)) fun q hq => List.count_erase_of_ne hq _

end Calls

/-! ## Runs from the empty table -/

/-- The table states and live-handle multisets reachable from the empty
table: a `client_add_malloc_pre` with a freshly recorded callstack or with a
live handle as `existing_data` adds the handle it returns, and a
`client_malloc_data_free` consumes a live handle. -/
inductive Reachable : StackTable → List Nat → Prop
  | empty : Reachable StackTable.empty []
  | record {t : StackTable} {live : List Nat} (frames : List Nat) : Reachable t live →
      Reachable (clientAddMallocPre t 0 frames).1 ((clientAddMallocPre t 0 frames).2 :: live)
  | existing {t : StackTable} {live : List Nat} {h : Nat} (frames : List Nat) :
      Reachable t live → h ∈ live →
      Reachable (clientAddMallocPre t h frames).1 ((clientAddMallocPre t h frames).2 :: live)
  | release {t : StackTable} {live : List Nat} {h : Nat} : Reachable t live → h ∈ live →
      Reachable (clientMallocDataFree t h) (live.erase h)

theorem Reachable.inv {t : StackTable} {live : List Nat} (h : Reachable t live) :
    StackTable.Inv t live := by
  induction h with
  | empty => exact StackTable.Inv.empty
  | record frames _ ih => exact ih.record frames
  | existing frames _ hh ih => exact ih.existing hh frames
  | release _ hh ih => exact ih.release hh

theorem packedCallstackAddRef_objs_ne {t : StackTable} {p q : Nat} (h : q ≠ p) :
    (StackTable.packedCallstackAddRef t p).objs q = t.objs q := by
  unfold StackTable.packedCallstackAddRef
  split
  · rfl
  · exact Function.update_noteq h _ _

/-- At every state reachable from the empty table: contents are distinct;
the entries are exactly the callstacks some live handle points to; each
entry's count is one plus its live handles; no assertion has fired; the
storage of a callstack is allocated exactly while a live handle points to
it; and a freshly recorded callstack whose content is an entry is freed at
once, the caller getting the entry. -/
theorem allocStackTable_refcount {t : StackTable} {live : List Nat} (hr : Reachable t live) :
    t.table.Pairwise (fun a b => t.framesOf a ≠ t.framesOf b) ∧
    (∀ p, p ∈ t.table ↔ p ∈ live) ∧
    (∀ e ∈ t.table, (t.objs e).map (·.refcount) = some (1 + live.count e)) ∧
    t.asserts = [] ∧
    (∀ p, (t.objs p).isSome ↔ p ∈ live) ∧
    (∀ frames, ∀ e ∈ t.table, t.framesOf e = some frames →
      (clientAddMallocPre t 0 frames).2 = e ∧ (clientAddMallocPre t 0 frames).1.objs t.next = none) := by
  have hi := hr.inv
  refine ⟨hi.distinct, hi.mem_table, hi.refcount, hi.asserts, fun p => (hi.alloc p).trans
    (hi.mem_table p), fun frames e he hf => ?_⟩
  rw [clientAddMallocPre_dup hi he hf]
  exact ⟨rfl, by rw [packedCallstackAddRef_objs_ne (hi.lt_next he).ne']; exact hi.fresh _ le_rfl⟩

/-- Two callstacks recorded, the first recorded again (a duplicate, freed at
once), the second passed again as `existing_data`, and both handles of the
first released, the last one removing its entry. -/
def internRun : StackTable :=
  let t1 := (clientAddMallocPre StackTable.empty 0 [1]).1
  let t2 := (clientAddMallocPre t1 0 [2]).1
  let t3 := (clientAddMallocPre t2 0 [1]).1
  let t4 := (clientAddMallocPre t3 2 [2]).1
  clientMallocDataFree (clientMallocDataFree t4 1) 1

/-- After `internRun` only the second callstack is an entry, with count
three (the table's reference and two live handles), the first callstack and
the duplicate are freed, no assertion has fired, and recording the second
content again hands back its entry. -/
theorem allocStackTable_refcount_internRun :
    Reachable internRun [2, 2] ∧ (∀ p, p ∈ internRun.table ↔ p = 2) ∧
      (internRun.objs 2).map (·.refcount) = some 3 ∧
      (internRun.objs 1).isSome = false ∧ (internRun.objs 3).isSome = false ∧
      internRun.asserts = [] ∧ (clientAddMallocPre internRun 0 [2]).2 = 2 := by
  have hr : Reachable internRun [2, 2] :=
    have r3 := Reachable.record [1] (.record [2] (.record [1] .empty))
    have r4 := @Reachable.existing _ _ 2 [2] r3 (by decide)
    @Reachable.release _ _ 1 (@Reachable.release _ _ 1 r4 (by decide)) (by decide)
  have h := allocStackTable_refcount hr
  have hfree : ∀ p, p ≠ 2 → (internRun.objs p).isSome = false := fun p hp =>
    Bool.eq_false_iff.2 fun hs => hp (by simpa using (h.2.2.2.2.1 p).1 hs)
  exact ⟨hr, fun p => (h.2.1 p).trans (by simp), (h.2.2.1 2 (by decide)).trans (by decide),
    hfree 1 (by decide), hfree 3 (by decide), h.2.2.2.1,
    (h.2.2.2.2.2 [2] 2 (by decide) (by decide)).1⟩

end DrMemory
