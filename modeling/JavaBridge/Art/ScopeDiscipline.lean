import JavaBridge.Art.HandleScope
import Mathlib.Data.List.Find

/-!
# What a query leaves of its handle scope

The scope has a `Drop`, and comes out of the thread on every way out. The vector has none: its
storage is freed at the end of the query, and stays where the query returns between the vector's
being filled and that.

Main results:

* `wp_new`, `wp_fillVector`, `wp_takeInstances`: the three parts of the query.
* `wp_chooseInstancesWithGetInstances`: what is left on each way out.
* `chooseInstances_disciplined_iff`: when everything has been freed once.
-/

namespace JavaBridge.Art.HandleScope

open Fallible

variable {θ R : Type}

/-! ## What is claimed of a query -/

section

variable (rt : ScopeRuntime θ R)

/-- What `Heap::GetInstances` is handed: a scope with nothing chained to it and an empty vector. -/
structure Handed (m : ByteMemory) : Prop where
  self : m.word (field rt.scope VSHS_OFFSET_SELF) = rt.thread
  current : m.word (field rt.scope VSHS_OFFSET_CURRENT_SCOPE) = rt.firstScope
  empty : vectorAt rt.vector m = ⟨0, 0, 0⟩

/-- What it leaves: the scopes that it has made are chained to the first one, and what it has
allocated is new. -/
structure Fills (filled : ByteMemory × List (BitVec 64)) : Prop where
  self : filled.1.word (field rt.scope VSHS_OFFSET_SELF) = rt.thread
  chain : filled.1.Chain (filled.1.word (field rt.scope VSHS_OFFSET_CURRENT_SCOPE)) filled.2
    rt.firstScope
  allocated : Allocated rt (allocatedBy rt filled)

/-- The query's own objects are apart, and `Heap::GetInstances` does what it should, with no more
scopes than the bound. -/
structure Serves (bound : Nat) : Prop where
  placed : Placed rt
  fills : ∀ classHandle m, Handed rt m →
    Fills rt (rt.getInstances rt.scope classHandle rt.vector m)
  bounded : ∀ classHandle m, (rt.getInstances rt.scope classHandle rt.vector m).2.length ≤ bound

/-- The slot of the thread, as the query finds it. -/
def topHandleScope (s : Process R) : Except (Error θ) (BitVec 64) :=
  rt.memory.bind fun memory ↦ threadTopHandleScope rt.thread rt.env memory s.contents

/-- Each block that was allocated has been freed once, and nothing else has been. -/
def FreedOnce (t : Process R) : Prop := ∀ a, t.freed.count a = if a ∈ t.allocated then 1 else 0

/-- What the thread, the blocks of the runtime and the fixed scope look like after a query. -/
structure Disciplined (s t : Process R) : Prop where
  restored : ∀ top, topHandleScope rt s = .ok top → t.word top = s.word top
  untouched : ∀ error, topHandleScope rt s = .error error → Set.EqOn t.contents s.contents
    (ByteMemory.block rt.thread (256 + 10 * POINTER_SIZE))
  freedOnce : FreedOnce t
  handles : ∀ (scope : FakeVariableSizedHandleScope) (objects : List (BitVec 32)) (u : Process R),
    (∀ handle, .ok handle ∈ (scope.newHandles (θ := θ) objects u).1 →
      ∃ index < FIXED_HANDLE_SCOPE_REFS, handle = scope.slot index) ∧
    scope.OnlySlots u (scope.newHandles (θ := θ) objects u).2

/-- A thread is attached, and every handle of the vector gets its reference. -/
def Granted (m : ByteMemory) : Prop :=
  rt.attachCurrentThread = .ok () ∧ ∀ index handle,
    ((vectorAt rt.vector m).handles m)[index]? = some handle →
      ∃ raw, rt.newGlobalRefRaw index handle = .ok raw

/-- Where the vector is filled and has storage, nothing fails from there on. -/
def StorageGoesOn (needleClassReference : BitVec 32) (s : Process R) : Prop :=
  ∀ memory scope t u, rt.memory = .ok memory →
    FakeVariableSizedHandleScope.new rt memory s = .ok scope t →
    fillVector rt scope needleClassReference t = .ok () u →
    u.word rt.vector = 0 ∨ Granted rt u.contents

end

variable {rt : ScopeRuntime θ R} {overflow : List (BitVec 64)} {s t : Process R}
  {top previous : BitVec 64} {bound : Nat}

/-! ## The slot -/

theorem mem_jniEnvOffsets {offset : Nat} (h : offset ∈ jniEnvOffsets) :
    offset + POINTER_SIZE ≤ 256 := by
  obtain ⟨i, hi, rfl⟩ := List.mem_range'.1 h
  rw [POINTER_SIZE]
  omega

/-- The slot is looked for in the thread only. -/
theorem threadTopHandleScope_congr (env : BitVec 64) (memory : MemoryRanges) {thread : BitVec 64}
    {m m' : ByteMemory}
    (h : Set.EqOn m m' (ByteMemory.block thread (256 + 10 * POINTER_SIZE))) :
    (threadTopHandleScope thread env memory m : Except (Error θ) _) =
      threadTopHandleScope thread env memory m' := by
  have hfind : findArtThreadJniEnvOffset thread env (some memory) m =
      findArtThreadJniEnvOffset thread env (some memory) m' := by
    rw [findArtThreadJniEnvOffset, findArtThreadJniEnvOffset]
    apply ite_congr rfl fun _ ↦ rfl
    intro _
    apply List.find?_congr
    intro offset hoffset
    have hword : m.word (field thread offset) = m'.word (field thread offset) := by
      apply ByteMemory.word_congr_of_eqOn
      apply h.mono
      exact field_subset (Nat.le_add_right_of_le (mem_jniEnvOffsets hoffset)) (by decide)
    rw [hword]
  rw [threadTopHandleScope, threadTopHandleScope, hfind]

theorem threadTopHandleScope_eq_ok {thread env : BitVec 64} {memory : MemoryRanges}
    {m : ByteMemory}
    (h : (threadTopHandleScope thread env memory m : Except (Error θ) _) = .ok top) :
    thread ≠ 0 ∧
      ByteMemory.block top 8 ⊆ ByteMemory.block thread (256 + 10 * POINTER_SIZE) := by
  rw [threadTopHandleScope] at h
  split at h
  · cases h
  · next hnull =>
    refine ⟨(not_or.1 hnull).1, ?_⟩
    split at h
    · next offset hfind =>
      dsimp only at h
      split at h
      · obtain rfl := Except.ok.inj h
        have hmem : offset ∈ jniEnvOffsets := by
          rw [findArtThreadJniEnvOffset, if_neg hnull] at hfind
          exact List.mem_of_find?_eq_some hfind
        have hle := mem_jniEnvOffsets hmem
        rw [POINTER_SIZE] at hle
        exact field_subset (by rw [POINTER_SIZE]; omega) (by decide)
      · cases h
    · cases h

/-! ## The scope is made -/

/-- What is recorded has not changed. -/
structure SameRecord (s t : Process R) : Prop where
  allocated : t.allocated = s.allocated
  freed : t.freed = s.freed

/-- The scope is linked into the thread with nothing chained to it, or the thread is as it was. -/
theorem wp_new {memory : MemoryRanges} (hplaced : Placed rt) :
    wp (FakeVariableSizedHandleScope.new rt memory)
      (fun scope t ↦ ∃ top, (threadTopHandleScope rt.thread rt.env memory s.contents :
          Except (Error θ) _) = .ok top ∧ scope = fakeScope rt top (s.word top) ∧
        Armed rt [] t ∧ SameRecord s t)
      (fun error t ↦ threadTopHandleScope rt.thread rt.env memory s.contents = .error error ∧
        Set.EqOn t.contents s.contents (ByteMemory.block rt.thread (256 + 10 * POINTER_SIZE)) ∧
        SameRecord s t) s := by
  rw [FakeVariableSizedHandleScope.new]
  simp only [wp_bind, wp_modify, wp_get, wp_ofExcept, wp_pure]
  generalize hzeroed : (s.write rt.scope 32 0).write rt.firstScope FIXED_HANDLE_SCOPE_SIZE 0 =
    zeroed
  have hthread : Set.EqOn zeroed.contents s.contents
      (ByteMemory.block rt.thread (256 + 10 * POINTER_SIZE)) := by
    rw [← hzeroed]
    apply Set.EqOn.trans
    · exact ByteMemory.store_eqOn_of_disjoint _ _ hplaced.thread_firstScope.symm
    · exact ByteMemory.store_eqOn_of_disjoint _ _ hplaced.thread_scope.symm
  have hrecord : SameRecord s zeroed := by
    rw [← hzeroed]
    exact ⟨rfl, rfl⟩
  have hfind := threadTopHandleScope_congr (θ := θ) rt.env memory hthread
  constructor
  · intro top htop
    rw [hfind] at htop
    obtain ⟨-, hsubset⟩ := threadTopHandleScope_eq_ok htop
    have hprevious : zeroed.word top = s.word top :=
      ByteMemory.word_congr_of_eqOn (hthread.mono hsubset)
    refine ⟨top, htop, ?_, ?_, hrecord.allocated, hrecord.freed⟩
    · rw [hprevious, fakeScope]
    · have hscope : Disjoint (ByteMemory.block top POINTER_SIZE) (ByteMemory.block rt.scope 32) :=
        hplaced.thread_scope.mono_left hsubset
      constructor
      case self =>
        have hfields : Disjoint
            (ByteMemory.block (field rt.scope VSHS_OFFSET_CURRENT_SCOPE) POINTER_SIZE)
            (ByteMemory.block (field rt.scope VSHS_OFFSET_SELF) 8) :=
          (disjoint_field (by decide) (by decide)).symm
        rw [word_write_of_disjoint (hscope.mono_right self_subset),
          word_write_of_disjoint hfields]
        exact word_write_self _
      case chain =>
        rw [word_write_of_disjoint (hscope.mono_right current_subset)]
        exact word_write_self _
  · intro error herror
    rw [hfind] at herror
    exact ⟨herror, hthread, hrecord⟩

/-! ## The vector is filled -/

theorem vectorAt_write (s : Process R) (vector : BitVec 64) :
    vectorAt vector (s.write vector (3 * POINTER_SIZE) 0).contents = ⟨0, 0, 0⟩ := by
  have hword : ∀ offset, offset + 8 ≤ 3 * POINTER_SIZE →
      (s.write vector (3 * POINTER_SIZE) 0).word (field vector offset) = 0 := by
    intro offset hoffset
    apply BitVec.eq_of_toNat_eq
    rw [Process.word, ByteMemory.word_toNat]
    refine (ByteMemory.load_store_segment s.contents vector 0 (by decide) hoffset).trans ?_
    rw [Nat.zero_div, Nat.zero_mod]
    rfl
  have hfirst := hword 0 (by decide)
  rw [field, BitVec.add_zero] at hfirst
  rw [vectorAt, ArtHandleVector.mk.injEq]
  exact ⟨hfirst, hword POINTER_SIZE (by decide), hword (2 * POINTER_SIZE) (by decide)⟩

/-- The scope stays linked, and what the runtime has allocated is recorded. -/
theorem wp_fillVector (top previous : BitVec 64) (needle : BitVec 32) (hserves : Serves rt bound)
    (h : Armed rt [] s) :
    wp (fillVector rt (fakeScope rt top previous) needle : EStateM (Error θ) (Process R) Unit)
      (fun _ t ↦ ∃ overflow, Armed rt overflow t ∧ overflow.length ≤ bound ∧
        Allocated rt (overflow ++ storage rt t.contents) ∧
        t.allocated = s.allocated ++ (overflow ++ storage rt t.contents) ∧ t.freed = s.freed)
      (fun _ t ↦ t = s) s := by
  rw [fillVector, wp_bind]
  apply wp_mono ((fakeScope rt top previous).newHandle_spec needle s)
  · rintro classHandle t ⟨-, honly⟩
    rw [wp_bind, wp_modify, wp_modify]
    have hscope : Set.EqOn t.contents s.contents (ByteMemory.block rt.scope 32) := by
      apply honly.contents.mono
      intro a ha hslot
      exact Set.disjoint_left.1 hserves.placed.scope_firstScope ha
        ((fakeScope rt top previous).slots_subset hslot)
    have harmed : Armed rt [] (t.write rt.vector (3 * POINTER_SIZE) 0) := by
      apply h.of_eqOn .nil
      · apply Set.EqOn.trans _ hscope
        exact ByteMemory.store_eqOn_of_disjoint _ _ hserves.placed.scope_vector.symm
      · intro a ha
        cases ha
    have hallocated : (t.write rt.vector (3 * POINTER_SIZE) 0).allocated = s.allocated :=
      honly.allocated
    have hfreed : (t.write rt.vector (3 * POINTER_SIZE) 0).freed = s.freed := honly.freed
    have hvector := vectorAt_write t rt.vector
    generalize t.write rt.vector (3 * POINTER_SIZE) 0 = handed at *
    have hfills := hserves.fills classHandle handed.contents ⟨harmed.self, harmed.chain, hvector⟩
    have hbounded := hserves.bounded classHandle handed.contents
    rw [callGetInstances, hallocated, hfreed]
    exact ⟨_, ⟨hfills.self, hfills.chain⟩, hbounded, hfills.allocated, rfl, rfl⟩
  · rintro error t rfl
    rfl

/-! ## The references are made -/

/-- The loop goes through where each request from its index on is granted, and leaves the memory. -/
theorem wp_promoteHandles (rt : ScopeRuntime θ R) (index : Nat) (handles : List (BitVec 64))
    (s : Process R) :
    wp (promoteHandles rt index handles)
      (fun _ t ↦ (∀ (i : Nat) (handle : BitVec 64), handles[i]? = some handle →
        ∃ raw, rt.newGlobalRefRaw (index + i) handle = .ok raw) ∧
        t.contents = s.contents ∧ SameRecord s t)
      (fun _ t ↦ (¬∀ (i : Nat) (handle : BitVec 64), handles[i]? = some handle →
        ∃ raw, rt.newGlobalRefRaw (index + i) handle = .ok raw) ∧
        t.contents = s.contents ∧ SameRecord s t) s := by
  induction handles generalizing index s with
  | nil =>
    refine ⟨?_, rfl, rfl, rfl⟩
    intro i handle hhandle
    cases hhandle
  | cons handle handles ih =>
    rw [promoteHandles, wp_bind, wp_ofExcept]
    constructor
    · intro raw hraw
      rw [wp_bind, wp_modify]
      apply wp_mono (ih (index + 1) (s.push raw))
      · rintro _ t ⟨hall, hcontents, hrecord⟩
        refine ⟨?_, hcontents, hrecord.allocated, hrecord.freed⟩
        intro i handle' hhandle
        cases i with
        | zero =>
          obtain rfl := Option.some.inj hhandle
          exact ⟨raw, hraw⟩
        | succ i =>
          rw [Nat.add_comm i, ← Nat.add_assoc]
          exact hall i handle' hhandle
      · rintro error t ⟨hnot, hcontents, hrecord⟩
        refine ⟨?_, hcontents, hrecord.allocated, hrecord.freed⟩
        intro hall
        apply hnot
        intro i handle' hhandle
        rw [Nat.add_assoc, Nat.add_comm 1]
        exact hall (i + 1) handle' hhandle
    · intro error herror
      refine ⟨?_, rfl, rfl, rfl⟩
      intro hall
      obtain ⟨raw, hraw⟩ := hall 0 handle rfl
      rw [Nat.add_zero, herror] at hraw
      cases hraw

/-- The rest of the query goes through where everything is granted, and has disposed of the vector
and the scope. Else it leaves both. -/
theorem wp_takeInstances (hserves : Serves rt bound) (hthread : rt.thread ≠ 0)
    (htop : ByteMemory.block top 8 ⊆ ByteMemory.block rt.thread (256 + 10 * POINTER_SIZE))
    (halloc : Allocated rt (overflow ++ storage rt s.contents))
    (hbound : overflow.length ≤ bound) (h : Armed rt overflow s) :
    wp (takeInstances rt (fakeScope rt top previous) bound)
      (fun _ t ↦ Granted rt s.contents ∧ t.word top = previous ∧
        t.word (field rt.scope VSHS_OFFSET_SELF) = 0 ∧
        t.freed = s.freed ++ storage rt s.contents ++ overflow ∧ t.allocated = s.allocated)
      (fun _ t ↦ ¬Granted rt s.contents ∧ Armed rt overflow t ∧ SameRecord s t) s := by
  rw [takeInstances, wp_bind, wp_ofExcept]
  constructor
  · rintro ⟨⟩ hattached
    rw [wp_bind, wp_get, wp_bind]
    unfold Granted
    generalize (vectorAt rt.vector s.contents).handles s.contents = handles
    refine wp_mono (wp_promoteHandles rt 0 handles s) ?_ ?_
    · rintro _ t ⟨hall, hcontents, hrecord⟩
      rw [wp_bind, wp_modify, wp_modify]
      have harmed := h.congr hcontents
      rw [← hcontents] at halloc
      obtain ⟨hleft, hfreed, hallocated⟩ := disposeVector_spec hserves.placed halloc harmed
      have hdisposed := dispose_spec previous hserves.placed
        (halloc.sublist (List.sublist_append_left overflow _)) hbound hthread htop hleft
      refine ⟨⟨hattached, ?_⟩, hdisposed.restored, hdisposed.cleared, ?_, ?_⟩
      · intro index handle hhandle
        have hgranted := hall index handle hhandle
        rw [Nat.zero_add] at hgranted
        exact hgranted
      · rw [hdisposed.freed, hfreed, hrecord.freed, hcontents]
      · rw [hdisposed.allocated, hallocated, hrecord.allocated]
    · rintro error t ⟨hnot, hcontents, hrecord⟩
      refine ⟨?_, ?_, hrecord⟩
      · intro hgranted
        apply hnot
        intro index handle hhandle
        rw [Nat.zero_add]
        exact hgranted.2 index handle hhandle
      · exact h.congr hcontents
  · intro error herror
    refine ⟨?_, h, rfl, rfl⟩
    intro hgranted
    rw [hgranted.1] at herror
    cases herror

/-! ## The query -/

theorem freedOnce_of_perm (hnodup : t.allocated.Nodup) (hperm : t.freed.Perm t.allocated) :
    FreedOnce t := by
  intro a
  rw [hperm.count_eq, hnodup.count]

/-- What is missing from the freed blocks has not been freed. -/
theorem freedOnce_iff_of_append {blocks : List (BitVec 64)}
    (hallocated : t.allocated = overflow ++ blocks) (hfreed : t.freed = overflow)
    (hnodup : t.allocated.Nodup) : FreedOnce t ↔ blocks = [] := by
  constructor
  · intro hfreedOnce
    apply List.eq_nil_iff_forall_not_mem.2
    intro a ha
    have hmem : a ∈ t.allocated := by
      rw [hallocated]
      exact List.mem_append_right _ ha
    have hcount := hfreedOnce a
    rw [if_pos hmem, hfreed, List.count_eq_zero_of_not_mem] at hcount
    · cases hcount
    · rw [hallocated] at hnodup
      intro hoverflow
      exact (List.nodup_append.1 hnodup).2.2 a hoverflow a ha rfl
  · intro hblocks
    apply freedOnce_of_perm hnodup
    rw [hfreed, hallocated, hblocks, List.append_nil]

theorem storage_eq_nil {m : ByteMemory} : storage rt m = [] ↔ m.word rt.vector = 0 := by
  rw [storage]
  constructor
  · intro h
    by_contra hne
    rw [if_neg hne] at h
    cases h
  · intro h
    exact if_pos h

/-- With its slot restored and no blocks allocated or freed, a query is disciplined. -/
theorem disciplined_iff
    (hrestored : ∀ top, topHandleScope rt s = .ok top → t.word top = s.word top)
    (huntouched : ∀ error, topHandleScope rt s = .error error → Set.EqOn t.contents s.contents
      (ByteMemory.block rt.thread (256 + 10 * POINTER_SIZE))) :
    Disciplined rt s t ↔ FreedOnce t := by
  constructor
  · exact Disciplined.freedOnce
  · intro hfreed
    refine ⟨hrestored, huntouched, hfreed, ?_⟩
    intro scope objects u
    exact scope.newHandles_inside objects u

theorem freedOnce_of_nil (hallocated : t.allocated = []) (hfreed : t.freed = []) :
    FreedOnce t := by
  apply freedOnce_of_perm
  · rw [hallocated]
    exact List.nodup_nil
  · rw [hallocated, hfreed]

/-- The query from where the scope is made on, with the scope dropped in the end. -/
theorem wp_afterNew {needle : BitVec 32} (hserves : Serves rt bound) (hthread : rt.thread ≠ 0)
    (htop : ByteMemory.block top 8 ⊆ ByteMemory.block rt.thread (256 + 10 * POINTER_SIZE))
    (hallocated : s.allocated = []) (hfreed : s.freed = []) (h : Armed rt [] s) {C : Prop}
    (herror : ∀ e t, fillVector rt (fakeScope rt top previous) needle s = .error e t → C)
    (hok : ∀ t, fillVector rt (fakeScope rt top previous) needle s = .ok () t →
      (C ↔ t.word rt.vector = 0 ∨ Granted rt t.contents)) :
    wp (defer ((fakeScope rt top previous).drop rt.allocator bound) do
        fillVector rt (fakeScope rt top previous) needle
        takeInstances rt (fakeScope rt top previous) bound)
      (fun _ t ↦ t.word top = previous ∧ (FreedOnce t ↔ C))
      (fun _ t ↦ t.word top = previous ∧ (FreedOnce t ↔ C)) s := by
  rw [wp_defer, wp_bind]
  have hfill := wp_fillVector (θ := θ) top previous needle hserves h
  rw [wp] at hfill ⊢
  cases hrun : fillVector rt (fakeScope rt top previous) needle s with
  | error e t =>
    rw [hrun] at hfill
    obtain rfl : t = s := hfill
    have hdisposed := dispose_spec previous hserves.placed .nil (Nat.zero_le bound)
      hthread htop h
    dsimp only
    rw [drop_of_armed hthread h]
    refine ⟨hdisposed.restored, iff_of_true ?_ (herror e t hrun)⟩
    apply freedOnce_of_nil
    · rw [hdisposed.allocated, hallocated]
    · rw [hdisposed.freed, hfreed, List.append_nil]
  | ok _ t =>
    rw [hrun] at hfill
    obtain ⟨overflow, harmed, hbound, halloc, hblocks, hnone⟩ := hfill
    rw [hallocated, List.nil_append] at hblocks
    rw [hfreed] at hnone
    have hnodup := halloc.nodup
    dsimp only
    refine wp_mono (wp_takeInstances hserves hthread htop halloc hbound harmed) ?_ ?_
    · rintro _ u ⟨hgranted, hrestored, hcleared, hfreed', hallocated'⟩
      rw [drop_of_cleared hcleared]
      refine ⟨hrestored, iff_of_true ?_ ((hok t hrun).2 (.inr hgranted))⟩
      apply freedOnce_of_perm
      · rw [hallocated', hblocks]
        exact hnodup
      · rw [hallocated', hblocks, hfreed', hnone, List.nil_append]
        exact List.perm_append_comm
    · rintro e u ⟨hnot, harmed', hrecord⟩
      have hdisposed := dispose_spec previous hserves.placed
        (halloc.sublist (List.sublist_append_left overflow _)) hbound hthread htop harmed'
      rw [drop_of_armed hthread harmed']
      refine ⟨hdisposed.restored, ?_⟩
      rw [hok t hrun, or_iff_left hnot]
      have hall := (hdisposed.allocated.trans hrecord.allocated).trans hblocks
      refine (freedOnce_iff_of_append hall ?_ ?_).trans storage_eq_nil
      · rw [hdisposed.freed, hrecord.freed, hnone, List.nil_append]
      · rw [hall]
        exact hnodup

/-- What is left on each way out. -/
theorem wp_chooseInstancesWithGetInstances {needle : BitVec 32} (hserves : Serves rt bound)
    (hallocated : s.allocated = []) (hfreed : s.freed = []) :
    wp (chooseInstancesWithGetInstances rt bound needle)
      (fun _ t ↦ Disciplined rt s t ↔ StorageGoesOn rt needle s)
      (fun _ t ↦ Disciplined rt s t ↔ StorageGoesOn rt needle s) s := by
  rw [chooseInstancesWithGetInstances, wp_bind, wp_ofExcept]
  constructor
  · intro memory hmemory
    have hslot : topHandleScope rt s =
        threadTopHandleScope rt.thread rt.env memory s.contents := by
      rw [topHandleScope, hmemory]
      rfl
    have hnew : wp (FakeVariableSizedHandleScope.new rt memory) _ _ s := wp_new hserves.placed
    rw [wp_bind]
    rw [wp] at hnew ⊢
    cases hrun : FakeVariableSizedHandleScope.new rt memory s with
    | error e t =>
      rw [hrun] at hnew
      obtain ⟨herror, huntouched, hrecord⟩ := hnew
      dsimp only
      rw [disciplined_iff (by rw [hslot, herror]; rintro _ ⟨⟩) fun _ _ ↦ huntouched]
      refine iff_of_true (freedOnce_of_nil ?_ ?_) ?_
      · rw [hrecord.allocated, hallocated]
      · rw [hrecord.freed, hfreed]
      · intro memory' scope u v hmemory' hnew'
        obtain rfl := Except.ok.inj (hmemory.symm.trans hmemory')
        rw [hrun] at hnew'
        cases hnew'
    | ok scope t =>
      rw [hrun] at hnew
      obtain ⟨top, htop, rfl, harmed, hrecord⟩ := hnew
      obtain ⟨hthread, hsubset⟩ := threadTopHandleScope_eq_ok htop
      have hiff : ∀ u, u.word top = s.word top ∧ (FreedOnce u ↔ StorageGoesOn rt needle s) →
          (Disciplined rt s u ↔ StorageGoesOn rt needle s) := by
        intro u hu
        rw [disciplined_iff, hu.2]
        · rw [hslot, htop]
          rintro _ ⟨⟩
          exact hu.1
        · rw [hslot, htop]
          rintro _ ⟨⟩
      dsimp only
      refine wp_mono (wp_afterNew (C := StorageGoesOn rt needle s) hserves hthread hsubset
        (hrecord.allocated.trans hallocated) (hrecord.freed.trans hfreed) harmed ?_ ?_)
        (fun _ ↦ hiff) fun _ ↦ hiff
      · intro e u hfill memory' scope t' u' hmemory' hnew' hfill'
        obtain rfl := Except.ok.inj (hmemory.symm.trans hmemory')
        obtain ⟨rfl, rfl⟩ := EStateM.Result.ok.inj (hrun.symm.trans hnew')
        rw [hfill] at hfill'
        cases hfill'
      · intro u hfill
        constructor
        · intro h
          exact h memory _ t u hmemory hrun hfill
        · intro h memory' scope t' u' hmemory' hnew' hfill'
          obtain rfl := Except.ok.inj (hmemory.symm.trans hmemory')
          obtain ⟨rfl, rfl⟩ := EStateM.Result.ok.inj (hrun.symm.trans hnew')
          obtain ⟨-, rfl⟩ := EStateM.Result.ok.inj (hfill.symm.trans hfill')
          exact h
  · intro e herror
    have hslot : topHandleScope rt s = .error e := by
      rw [topHandleScope, herror]
      rfl
    rw [disciplined_iff (by rw [hslot]; rintro _ ⟨⟩) fun _ _ ↦ Set.eqOn_refl _ _]
    refine iff_of_true (freedOnce_of_nil hallocated hfreed) ?_
    intro memory scope t u hmemory
    rw [herror] at hmemory
    cases hmemory

/-! ## The law of a query -/

/-- What a runtime with one instance does: it chains a scope at `0x40000` to the first one, and
gives the vector storage at `0x50000`. -/
def fillOne (classHandle : BitVec 64) (m : ByteMemory) : ByteMemory :=
  let m := m.store 0x40000 8 (0x31000 : BitVec 64).toNat
  let m := m.store 0x30018 8 (0x40000 : BitVec 64).toNat
  let m := m.store 0x50000 8 classHandle.toNat
  let m := m.store 0x32008 8 0x50008
  let m := m.store 0x32010 8 0x50008
  m.store 0x32000 8 (0x50000 : BitVec 64).toNat

/-- A thread, and a query whose reference is refused or granted. A freed block is overwritten. -/
def oneInstance (refused : Bool) : ScopeRuntime Unit Unit where
  thread := 0x10000
  env := 0x5000
  memory := .ok ⟨[⟨0x10000, 0x20000, true, false⟩]⟩
  allocator :=
    { size := fun _ ↦ 8
      free := fun a m ↦ m.store a 8 0xdddddddddddddddd
      frame := fun _ m _ hb ↦ m.store_of_not_mem _ hb }
  scope := 0x30000
  firstScope := 0x31000
  vector := 0x32000
  getInstances _ classHandle _ m := (fillOne classHandle m, [0x40000])
  attachCurrentThread := .ok ()
  newGlobalRefRaw _ _ :=
    if refused then .error (.nullReturn "JNIEnv::NewGlobalRef") else .ok (some ())

/-- The memory before the query: the thread knows its `JNIEnv`, and has a scope already. -/
def threadMemory : ByteMemory :=
  (ByteMemory.store (fun _ ↦ 0) 0x100a0 8 0x5000).store 0x100f0 8 0x6000

theorem placed_oneInstance (refused : Bool) : Placed (oneInstance refused) := by
  have hbelow : (inUse (oneInstance refused)).Pairwise fun used used' ↦
      used.1.toNat + used.2 ≤ used'.1.toNat ∧ used'.1.toNat + used'.2 ≤ 2 ^ 64 := by
    cases refused <;> decide +kernel
  apply hbelow.imp
  rintro used used' ⟨hle, hend⟩
  exact ByteMemory.disjoint_block_of_le hle hend

theorem inUse_oneInstance_le (refused : Bool) :
    ∀ used ∈ inUse (oneInstance refused), used.1.toNat + used.2 ≤ 0x40000 := by
  cases refused <;> decide +kernel

theorem allocated_oneInstance (refused : Bool) :
    Allocated (oneInstance refused) [0x40000, 0x50000] where
  ne_null := List.forall_mem_cons.2 ⟨by decide, List.forall_mem_singleton.2 (by decide)⟩
  size _ _ := Nat.le_refl 8
  fresh := by
    intro a ha used hused
    have hle := inUse_oneInstance_le refused used hused
    apply Disjoint.symm
    rcases List.mem_pair.1 ha with rfl | rfl
    · change Disjoint _ (ByteMemory.block 0x40000 8)
      exact ByteMemory.disjoint_block_of_le hle (by decide)
    · change Disjoint _ (ByteMemory.block 0x50000 8)
      exact ByteMemory.disjoint_block_of_le (hle.trans (by decide)) (by decide)
  apart := by
    apply List.pairwise_pair.2
    change Disjoint (ByteMemory.block 0x40000 8) (ByteMemory.block 0x50000 8)
    exact ByteMemory.disjoint_block_of_le (by decide) (by decide)

section

variable (m : ByteMemory) (classHandle : BitVec 64)

/-- A word that a store leaves alone. -/
theorem word_store_of_le_or (a b : BitVec 64) (v : Nat) (ha : a.toNat + 8 ≤ 2 ^ 64)
    (hb : b.toNat + 8 ≤ 2 ^ 64) (h : a.toNat + 8 ≤ b.toNat ∨ b.toNat + 8 ≤ a.toNat) :
    (m.store a 8 v).word b = m.word b :=
  m.word_store_of_disjoint v (ByteMemory.disjoint_block_of_le_or ha hb h)

theorem word_fillOne_self : (fillOne classHandle m).word 0x30010 = m.word 0x30010 := by
  rw [fillOne]
  simp (disch := decide) only [word_store_of_le_or]

theorem word_fillOne_current : (fillOne classHandle m).word 0x30018 = 0x40000 := by
  rw [fillOne]
  simp (disch := decide) only [word_store_of_le_or, ByteMemory.word_store]

theorem word_fillOne_link : (fillOne classHandle m).word 0x40000 = 0x31000 := by
  rw [fillOne]
  simp (disch := decide) only [word_store_of_le_or, ByteMemory.word_store]

theorem word_fillOne_vector : (fillOne classHandle m).word 0x32000 = 0x50000 :=
  ByteMemory.word_store _ 0x32000 0x50000

end

theorem serves_oneInstance (refused : Bool) : Serves (oneInstance refused) 1 where
  placed := placed_oneInstance refused
  fills := by
    intro classHandle m hhanded
    constructor
    case self => exact (word_fillOne_self m classHandle).trans hhanded.self
    case chain => exact ⟨word_fillOne_current m classHandle, word_fillOne_link m classHandle⟩
    case allocated =>
      have hstorage : storage (oneInstance refused) (fillOne classHandle m) = [0x50000] := by
        have hvector : (fillOne classHandle m).word (oneInstance refused).vector = 0x50000 :=
          word_fillOne_vector m classHandle
        rw [storage, hvector]
        rfl
      change Allocated (oneInstance refused) ([0x40000] ++ storage _ (fillOne classHandle m))
      rw [hstorage]
      exact allocated_oneInstance refused
  bounded _ _ := Nat.le_refl 1


/-- **Everything has been freed once just if nothing fails after a vector that has storage was
filled.** -/
theorem chooseInstances_disciplined_iff (rt : ScopeRuntime θ R) (bound : Nat)
    (needle : BitVec 32) (contents : ByteMemory) (instances : List (ArtHeapInstanceHandle R))
    (h : Serves rt bound) :
    Disciplined rt (.start contents instances)
        (outcome (chooseInstancesWithGetInstances rt bound needle) (.start contents instances)).2 ↔
      StorageGoesOn rt needle (.start contents instances) :=
  wp_iff_outcome (P := fun _ t ↦ Disciplined rt (.start contents instances) t ↔
    StorageGoesOn rt needle (.start contents instances)) |>.1
    (wp_chooseInstancesWithGetInstances h rfl rfl)

theorem chooseInstances_disciplined_granted :
    Disciplined (oneInstance false) (.start threadMemory [])
      (outcome (chooseInstancesWithGetInstances (oneInstance false) 1 7)
        (.start threadMemory [])).2 := by
  apply (chooseInstances_disciplined_iff (oneInstance false) 1 7 threadMemory []
    (serves_oneInstance false)).2
  intro memory scope t u _ _ _
  right
  refine ⟨rfl, ?_⟩
  intro index handle _
  exact ⟨some (), rfl⟩

theorem chooseInstances_refused_not_disciplined :
    Serves (oneInstance true) 1 ∧
      ¬Disciplined (oneInstance true) (.start threadMemory [])
        (outcome (chooseInstancesWithGetInstances (oneInstance true) 1 7)
          (.start threadMemory [])).2 := by
  refine ⟨serves_oneInstance true, ?_⟩
  intro h
  have hfreed : (outcome (chooseInstancesWithGetInstances (oneInstance true) 1 7)
      (.start threadMemory [])).2.freed = [0x40000] := by decide +kernel
  have hallocated : (outcome (chooseInstancesWithGetInstances (oneInstance true) 1 7)
      (.start threadMemory [])).2.allocated = [0x40000, 0x50000] := by decide +kernel
  have hcount := h.freedOnce 0x50000
  rw [hfreed, hallocated] at hcount
  revert hcount
  decide

end JavaBridge.Art.HandleScope
