import JavaBridge.Art.HookTable

/-!
# Replacements and reversals in a table

A replacement adds a hook to the table, at places that nothing else has, and a reversal takes one
out. Both leave the other hooks alone, and so do those that fail.

Main results:

* `HookTable.Inv.replaced`, `HookTable.Inv.untouched`: replacements.
* `HookTable.Inv.restored`, `HookTable.Inv.unregistered`: the two steps of a reversal.
* `HookTable.Inv.step`: what every operation keeps.
-/

namespace JavaBridge.Art

open ByteMemory (block)

namespace HookTable

variable {ι θ : Type} [DecidableEq ι] {K : Set (BitVec 64)} {s t : HookTable ι} {i j : ι}
  {hook hook' : Hook}

/-! ### Replacements -/

/-- What a call of `replace_method` can rely on: what is mapped stays mapped while it is in use, no
two methods overlap, and the two mappings of a call are apart. -/
structure ReplaceAdmissible (K : Set (BitVec 64)) (s : HookTable ι) (call : ReplaceCall θ) :
    Prop where
  mapped : ∀ b ∈ K, call.memory.Covers b
  own_mapped : ∀ i hook, s.Live i hook → ∀ b ∈ hook.own, call.memory.Covers b
  layout : call.layout.method.BehindClass
  candidates : ∀ method ∈ call.env.candidates,
    call.memory.contains method call.layout.method.methodSize.toNat = true →
    call.layout.method.fieldBytes method ⊆ K
  methods_apart : ∀ method ∈ call.env.candidates, ∀ i hook, s.Live i hook →
    method ≠ hook.guard.method → Disjoint (call.layout.method.fieldBytes method) hook.fields
  mappings_apart : ∀ place page, call.env.cloneMapping = some place →
    call.env.thunkPage = .ok page →
    Disjoint (block place.start call.layout.method.methodSize.toNat)
      (block page.mapping.start thunkLength)

namespace Inv

omit [DecidableEq ι] in
/-- A replacement that fails changes nothing of the table. -/
theorem untouched (h : Inv K s) {call : ReplaceCall θ} (hcall : ReplaceAdmissible K s call)
    {world : World} (hworld : Untouched call.memory s.world world) :
    Inv K { s with world := world } := by
  have hframe := h.frame (m := world.memory) ?_
  · obtain ⟨memory, mappings⟩ := world
    obtain rfl := hworld.mappings
    exact hframe
  · rintro b (hb | ⟨i, hook, hlive, hb⟩)
    · exact hworld.memory b (hcall.mapped b hb)
    · apply hworld.memory b
      apply hcall.own_mapped i hook hlive
      rcases hb with hb | hb
      · exact Hook.clone_subset_own ((h.placed i hook hlive).cloneFields_subset hb).1
      · exact Hook.page_subset_own hb

end Inv

end HookTable

/-! ### A new hook -/

/-- A fresh mapping is apart from what is mapped. -/
theorem Mapping.disjoint_of_covers {memory : MemoryRanges} {length : Nat}
    (mapping : Mapping memory length) {S : Set (BitVec 64)} (hS : ∀ b ∈ S, memory.Covers b) :
    Disjoint S (block mapping.start length) :=
  Set.disjoint_left.mpr fun b hb ↦ Nat.not_lt.mpr (mapping.not_covers b (hS b hb))

section

variable {ι θ : Type} {K : Set (BitVec 64)} {s : HookTable ι} {call : ReplaceCall θ} {world : World}
  {guard : ArtMethodReplacementGuard}

namespace Replaced

variable (hr : Replaced call.env call.replacement s.world world guard)
  (hcall : s.ReplaceAdmissible K call)

include hr hcall

theorem fields_subset : (call.hook guard).fields ⊆ K := by
  show guard.layout.fieldBytes guard.method ⊆ K
  rw [hr.guard_layout]
  exact hcall.candidates _ hr.candidate hr.original.contains

omit hcall in
/-- The mappings of a new hook are apart from all that was mapped. -/
theorem disjoint_own {S : Set (BitVec 64)} (hS : ∀ b ∈ S, call.memory.Covers b) :
    Disjoint S (call.hook guard).own := by
  obtain ⟨place, page, m, -, hclone, -, hthunk, -⟩ := hr.memory
  show Disjoint S (block guard.clonedMethod.method guard.clonedMethod.length.toNat ∪
    block guard.dispatchThunk thunkLength)
  rw [hclone, hthunk]
  exact Set.disjoint_union_right.mpr
    ⟨place.disjoint_of_covers hS, page.mapping.disjoint_of_covers hS⟩

theorem placed : (call.hook guard).Placed K := by
  obtain ⟨place, page, m, hplace, hclone, hpage, hthunk, -⟩ := hr.memory
  refine ⟨hr.guard_layout, hr.fields_subset hcall, hr.disjoint_own hcall.mapped, ?_, ?_, ?_, ?_, ?_,
    hr.thunk⟩
  · show Disjoint (block guard.clonedMethod.method guard.clonedMethod.length.toNat)
      (block guard.dispatchThunk thunkLength)
    rw [hclone, hthunk]
    exact hcall.mappings_apart place page hplace hpage
  · show block guard.clonedMethod.method 4 ⊆
      block guard.clonedMethod.method guard.clonedMethod.length.toNat
    rw [hclone]
    exact ByteMemory.block_subset_block _ (Nat.le_trans (by decide) hcall.layout.eight_le)
  · show guard.layout.fieldBytes guard.clonedMethod.method ⊆
      block guard.clonedMethod.method guard.clonedMethod.length.toNat \
        block guard.clonedMethod.method 4
    rw [hr.guard_layout, hclone]
    exact hcall.layout.fieldBytes_subset place
  · show normalizeAddress (guard.clonedMethod.method + guard.layout.quickCodeOffset) =
      guard.clonedMethod.method + guard.layout.quickCodeOffset
    rw [hr.guard_layout, hclone]
    exact hcall.layout.normalizeAddress_eq place call.layout.method.quickCode_mem_offsets (by decide)
  · show normalizeAddress (guard.clonedMethod.method + guard.layout.jniCodeOffset) =
      guard.clonedMethod.method + guard.layout.jniCodeOffset
    rw [hr.guard_layout, hclone]
    exact hcall.layout.normalizeAddress_eq place call.layout.method.jniCode_mem_offsets (by decide)

omit hcall in
/-- The memory before the clones are synchronised. -/
theorem exists_memory : ∃ m : ByteMemory,
    Set.EqOn m s.world.memory ((call.hook guard).fields ∪ (call.hook guard).own)ᶜ ∧
    IsSnapshot guard.method guard.layout call.memory m
      (originalPatched call.layout guard.original guard.dispatchThunk) ∧
    (Disjoint (call.hook guard).fields (call.hook guard).own →
      Disjoint (call.hook guard).cloneFields (call.hook guard).page →
      (call.hook guard).cloneFields ⊆ (call.hook guard).own →
      IsSnapshot guard.clonedMethod.method guard.layout guard.clonedMethod.memoryRanges m
          (clonePatched call.layout guard.original call.replacement) ∧
        ∀ i < thunkLength, m (guard.dispatchThunk + BitVec.ofNat 64 i) = call.code i) ∧
    world.memory = world.mappings.synchronizeReplacementMethods call.env.order m := by
  obtain ⟨place, page, m, -, hclone, hpage, hthunk, heq, hcloned, hpatched, hsync⟩ := hr.memory
  simp only [← hr.guard_layout] at hcloned hpatched hsync
  have hpatch : Set.EqOn (patchArtMethod guard.method guard.layout
      (originalPatched call.layout guard.original guard.dispatchThunk) (page.write m))
      (page.write m) (call.hook guard).fieldsᶜ := patchArtMethod_eqOn_compl
  have hwrite : Set.EqOn (page.write m) m (call.hook guard).pageᶜ := by
    intro b hb
    apply if_neg
    rw [← hthunk]
    exact hb
  have hclone' : (call.hook guard).clone = block place.start call.layout.method.methodSize.toNat := by
    show block guard.clonedMethod.method guard.clonedMethod.length.toNat = _
    rw [hclone]
  rw [← hclone'] at heq
  refine ⟨_, ?_, hpatched, ?_, hsync⟩
  · intro b hb
    rw [Set.mem_compl_iff, Set.mem_union, not_or] at hb
    rw [hpatch hb.1, hwrite fun hpage ↦ hb.2 (Hook.page_subset_own hpage),
      heq fun hclone ↦ hb.2 (Hook.clone_subset_own hclone)]
  · intro hown hpages hsubset
    constructor
    · have hmethod : guard.clonedMethod.method = place.start := by rw [hclone]
      rw [← hmethod] at hcloned
      apply hcloned.of_eqOn
      intro b hb
      rw [hpatch fun hfields ↦ Set.disjoint_left.mp hown hfields (hsubset hb),
        hwrite (Set.disjoint_left.mp hpages hb)]
    · intro i hi
      have hmem : guard.dispatchThunk + BitVec.ofNat 64 i ∈ (call.hook guard).page :=
        Hook.mem_page hi
      rw [hpatch fun hfields ↦ Set.disjoint_left.mp hown hfields (Hook.page_subset_own hmem),
        ThunkPage.write, hthunk, if_pos, ReplaceCall.code, hpage,
        ByteMemory.add_ofNat_sub_toNat _ (Nat.lt_trans hi (by decide))]
      rw [ByteMemory.add_ofNat_sub_toNat _ (Nat.lt_trans hi (by decide))]
      exact hi

end Replaced

end

namespace HookTable

variable {ι θ : Type} [DecidableEq ι] {K : Set (BitVec 64)} {s t : HookTable ι} {i j : ι}
  {hook hook' : Hook}

namespace Inv

omit [DecidableEq ι] in
/-- A new hook is apart from the hooks that are there. -/
theorem apart_of_replaced (h : Inv K s) {call : ReplaceCall θ} {world : World}
    {guard : ArtMethodReplacementGuard} (hcall : s.ReplaceAdmissible K call)
    (hr : Replaced call.env call.replacement s.world world guard) (hlive : s.Live j hook) :
    (call.hook guard).Apart hook := by
  have hmethod : guard.method ≠ hook.guard.method := by
    intro heq
    have hrecord := (h.methods guard.method hook.record).mpr ⟨j, hook, hlive, heq.symm, rfl⟩
    cases hr.registrable.methods_eq.symm.trans hrecord
  constructor
  case method => exact hmethod
  case clone =>
    intro heq
    have horiginal := (h.replacements guard.clonedMethod.method hook.guard.method).mpr
      ⟨j, hook, hlive, heq.symm, rfl⟩
    cases hr.registrable.replacements_eq.symm.trans horiginal
  case fields =>
    show Disjoint (guard.layout.fieldBytes guard.method) hook.fields
    rw [hr.guard_layout]
    exact hcall.methods_apart _ hr.candidate j hook hlive hmethod
  case own => exact (hr.disjoint_own (hcall.own_mapped j hook hlive)).symm

/-- A replacement adds its hook to the table. -/
theorem replaced (h : Inv K s) {call : ReplaceCall θ} {world : World}
    {guard : ArtMethodReplacementGuard} (hcall : s.ReplaceAdmissible K call)
    (hr : Replaced call.env call.replacement s.world world guard) (hi : s.hooks i = none) :
    Inv K (s.setHook i (call.hook guard) world) := by
  have hplaced := hr.placed hcall
  have hown : Disjoint (call.hook guard).fields (call.hook guard).own :=
    hplaced.own_disjoint.mono_left hplaced.fields_subset
  have hsubset : (call.hook guard).cloneFields ⊆ (call.hook guard).own := fun b hb ↦
    Hook.clone_subset_own (hplaced.cloneFields_subset hb).1
  have hpages : Disjoint (call.hook guard).cloneFields (call.hook guard).page :=
    hplaced.clone_page.mono_left fun b hb ↦ (hplaced.cloneFields_subset hb).1
  obtain ⟨m, heq, hpatched, hnew, hsync⟩ := hr.exists_memory
  obtain ⟨hclone, hcode⟩ := hnew hown hpages hsubset
  have hfresh (j : ι) (hook : Hook) (hlive : s.Live j hook) : j ≠ i := by
    rintro rfl
    cases hi.symm.trans hlive.1
  -- before the clones are synchronised
  suffices hbefore : Inv K (s.setHook i (call.hook guard) ⟨m, world.mappings⟩) by
    have hworld : world =
        ⟨world.mappings.synchronizeReplacementMethods call.env.order m, world.mappings⟩ := by
      rw [← hsync]
    rw [hworld]
    exact hbefore.synchronize call.env.order
  have hlives {P : ι → Hook → Prop} : (∀ j hook,
      (s.setHook i (call.hook guard) ⟨m, world.mappings⟩).Live j hook → P j hook) ↔
        P i (call.hook guard) ∧ ∀ j hook, s.Live j hook → P j hook := by
    constructor
    · intro hP
      refine ⟨hP i _ (live_setHook.mpr (.inl ⟨rfl, rfl, hr.not_reverted⟩)), ?_⟩
      intro j hook hlive
      exact hP j hook (live_setHook.mpr (.inr ⟨hfresh j hook hlive, hlive⟩))
    · rintro ⟨hnew, hold⟩ j hook hlive
      rcases live_setHook.mp hlive with ⟨rfl, rfl, -⟩ | ⟨-, hlive⟩
      · exact hnew
      · exact hold j hook hlive
  constructor
  case placed => exact hlives.mpr ⟨hplaced, h.placed⟩
  case apart =>
    intro j k hook hook' hlive hlive' hjk
    rcases live_setHook.mp hlive with ⟨rfl, rfl, -⟩ | ⟨-, hold⟩
    · rcases live_setHook.mp hlive' with ⟨rfl, -⟩ | ⟨-, hold'⟩
      · exact absurd rfl hjk
      · exact h.apart_of_replaced hcall hr hold'
    · rcases live_setHook.mp hlive' with ⟨rfl, rfl, -⟩ | ⟨-, hold'⟩
      · exact (h.apart_of_replaced hcall hr hold).symm
      · exact h.apart j k hook hook' hold hold' hjk
  case holds =>
    refine hlives.mpr ⟨?_, ?_⟩
    · refine ⟨⟨call.memory, s.world.memory, ?_, ?_⟩, fun _ ↦ hpatched, hclone, hcode⟩
      · show IsSnapshot guard.method guard.layout _ _ _
        rw [hr.guard_layout]
        exact hr.original
      · intro b hb
        apply h.memory b (hplaced.fields_subset hb)
        intro j hook hlive _
        exact Set.disjoint_left.mp (h.apart_of_replaced hcall hr hlive).fields hb
    · intro j hook hlive
      have hplaced' := h.placed j hook hlive
      have hapart := h.apart_of_replaced hcall hr hlive
      have hspared {b : BitVec 64} (hb : b ∈ hook.fields ∨ b ∈ hook.own) :
          m b = s.world.memory b := by
        apply heq
        rintro (hfields | hownNew)
        · rcases hb with hb | hb
          · exact Set.disjoint_left.mp hapart.fields hfields hb
          · exact Set.disjoint_left.mp hplaced'.own_disjoint (hplaced.fields_subset hfields) hb
        · rcases hb with hb | hb
          · exact Set.disjoint_left.mp hplaced.own_disjoint (hplaced'.fields_subset hb) hownNew
          · exact Set.disjoint_left.mp hapart.own hownNew hb
      exact (h.holds j hook hlive).frame (fun _ _ ↦ rfl) (fun b hb ↦ hspared (.inl hb))
        (fun b hb ↦ hspared (.inr (Hook.clone_subset_own (hplaced'.cloneFields_subset hb).1)))
        fun b hb ↦ hspared (.inr (Hook.page_subset_own hb))
  case methods =>
    have hmethods := h.methods.insert ⟨m, world.mappings⟩ hi hr.not_reverted
      fun j hook hlive ↦ (h.apart_of_replaced hcall hr hlive).method
    show Indexes world.mappings.methods _ _ _
    rw [hr.mappings]
    exact hmethods
  case replacements =>
    have hreplacements := h.replacements.insert ⟨m, world.mappings⟩ hi hr.not_reverted
      fun j hook hlive ↦ (h.apart_of_replaced hcall hr hlive).clone
    show Indexes world.mappings.replacements _ _ _
    rw [hr.mappings]
    exact hreplacements
  case memory =>
    intro b hb hfree
    obtain ⟨hnew, hold⟩ := hlives.mp hfree
    refine (heq ?_).trans (h.memory b hb hold)
    rintro (hfields | hownNew)
    · exact hnew rfl hfields
    · exact Set.disjoint_left.mp hplaced.own_disjoint hb hownNew

/-! ### Reversals -/

/-- The restoration of the fields, after which the hook is no longer in place. -/
theorem restored (h : Inv K s) (hlive : s.Live i hook) :
    Inv K (s.setHook i { hook with inPlace := false } (hook.guard.restore s.world)) := by
  have hplaced := h.placed i hook hlive
  obtain ⟨memory, m₀, hsnapshot, hsaved⟩ := (h.holds i hook hlive).saved
  have hrestored : Set.EqOn (hook.guard.restore s.world).memory s.underlying hook.fields :=
    (patchArtMethod_eqOn_fieldBytes hsnapshot).trans hsaved
  have hspared : Set.EqOn (hook.guard.restore s.world).memory s.world.memory hook.fieldsᶜ :=
    patchArtMethod_eqOn_compl
  have hown {j : ι} {hook' : Hook} (hlive' : s.Live j hook') {b : BitVec 64} (hb : b ∈ hook'.own) :
      b ∉ hook.fields := fun hfields ↦
    Set.disjoint_left.mp (h.placed j hook' hlive').own_disjoint (hplaced.fields_subset hfields) hb
  have hframe {j : ι} {hook' : Hook} (hlive' : s.Live j hook') :
      Set.EqOn (hook.guard.restore s.world).memory s.world.memory hook'.cloneFields ∧
        Set.EqOn (hook.guard.restore s.world).memory s.world.memory hook'.page := by
    constructor
    · intro b hb
      apply hspared
      apply hown hlive'
      exact Hook.clone_subset_own ((h.placed j hook' hlive').cloneFields_subset hb).1
    · exact fun b hb ↦ hspared (hown hlive' (Hook.page_subset_own hb))
  constructor
  case placed =>
    refine forall_live_setHook.mpr ⟨fun _ ↦ ⟨hplaced.guard_layout, hplaced.fields_subset,
      hplaced.own_disjoint, hplaced.clone_page, hplaced.class_subset,
      hplaced.cloneFields_subset, hplaced.quickCode_untagged, hplaced.jniCode_untagged,
      hplaced.thunk⟩, fun j hook' _ ↦ h.placed j hook'⟩
  case apart =>
    intro j k hook' hook'' hlive' hlive'' hjk
    rcases live_setHook.mp hlive' with ⟨rfl, rfl, -⟩ | ⟨-, hold⟩
    · rcases live_setHook.mp hlive'' with ⟨rfl, -⟩ | ⟨-, hold'⟩
      · exact absurd rfl hjk
      · obtain ⟨hmethod, hclone, hfields, hown⟩ := h.apart j k hook hook'' hlive hold' hjk
        exact ⟨hmethod, hclone, hfields, hown⟩
    · rcases live_setHook.mp hlive'' with ⟨rfl, rfl, -⟩ | ⟨-, hold'⟩
      · obtain ⟨hmethod, hclone, hfields, hown⟩ := h.apart j k hook' hook hold hlive hjk
        exact ⟨hmethod, hclone, hfields, hown⟩
      · exact h.apart j k hook' hook'' hold hold' hjk
  case holds =>
    refine forall_live_setHook.mpr ⟨fun _ ↦ ?_, ?_⟩
    · have hholds := h.holds i hook hlive
      refine ⟨hholds.saved, ?_, hholds.clone.of_eqOn (hframe hlive).1, ?_⟩
      · intro hinPlace
        cases hinPlace
      · exact fun i hi ↦ ((hframe hlive).2 (Hook.mem_page hi)).trans (hholds.code i hi)
    · intro j hook' hj hlive'
      refine (h.holds j hook' hlive').frame (fun _ _ ↦ rfl) ?_ (hframe hlive').1 (hframe hlive').2
      intro b hb
      exact hspared fun hfields ↦ Set.disjoint_left.mp
        (h.apart i j hook hook' hlive hlive' (Ne.symm hj)).fields hfields hb
  case methods => exact h.methods.replace _ hlive hlive.2 rfl rfl
  case replacements => exact h.replacements.replace _ hlive hlive.2 rfl rfl
  case memory =>
    intro b hb hfree
    by_cases hfields : b ∈ hook.fields
    · exact hrestored hfields
    · refine (hspared hfields).trans (h.memory b hb ?_)
      intro j hook' hlive' hinPlace
      by_cases hj : j = i
      · subst hj
        rw [← hlive.unique hlive']
        exact hfields
      · exact hfree j hook' (live_setHook.mpr (.inr ⟨hj, hlive'⟩)) hinPlace

/-- The pair of a hook whose fields are restored is taken out of the registry. -/
theorem unregistered (h : Inv K s) (hlive : s.Live i hook) (hinPlace : hook.inPlace = false) :
    Inv K (s.setHook i { hook with guard := { hook.guard with reverted := true } }
      { s.world with mappings := s.world.mappings.unregister hook.guard.method }) := by
  have hlives {j : ι} {hook' : Hook} :
      (s.setHook i { hook with guard := { hook.guard with reverted := true } }
        { s.world with mappings := s.world.mappings.unregister hook.guard.method }).Live j hook' ↔
        j ≠ i ∧ s.Live j hook' := by
    rw [live_setHook]
    constructor
    · rintro (⟨-, -, hreverted⟩ | hold)
      · cases hreverted
      · exact hold
    · exact .inr
  have hrecord := (h.methods hook.guard.method hook.record).mpr ⟨i, hook, hlive, rfl, rfl⟩
  constructor
  case placed => exact fun j hook' hlive' ↦ h.placed j hook' (hlives.mp hlive').2
  case apart =>
    intro j k hook' hook'' hlive' hlive''
    exact h.apart j k hook' hook'' (hlives.mp hlive').2 (hlives.mp hlive'').2
  case holds => exact fun j hook' hlive' ↦ h.holds j hook' (hlives.mp hlive').2
  case methods =>
    show Indexes (s.world.mappings.unregister hook.guard.method).methods _ _ _
    rw [ArtReplacementMappings.unregister_of_eq_some hrecord]
    exact h.methods.erase _ hlive rfl fun j hook' hj hlive' ↦
      (h.apart i j hook hook' hlive hlive' (Ne.symm hj)).method
  case replacements =>
    show Indexes (s.world.mappings.unregister hook.guard.method).replacements _ _ _
    rw [ArtReplacementMappings.unregister_of_eq_some hrecord]
    exact h.replacements.erase _ hlive rfl fun j hook' hj hlive' ↦
      (h.apart i j hook hook' hlive hlive' (Ne.symm hj)).clone
  case memory =>
    intro b hb hfree
    apply h.memory b hb
    intro j hook' hlive' hinPlace'
    by_cases hj : j = i
    · subst hj
      rw [hlive.unique hlive', hinPlace'] at hinPlace
      cases hinPlace
    · exact hfree j hook' (hlives.mpr ⟨hj, hlive'⟩) hinPlace'

omit [DecidableEq ι] in
/-- Only the live hooks matter. -/
theorem congr_live (h : Inv K s) (hworld : t.world = s.world)
    (hunderlying : t.underlying = s.underlying)
    (hlive : ∀ i hook, t.Live i hook ↔ s.Live i hook) : Inv K t := by
  obtain ⟨world, underlying, hooks⟩ := t
  obtain rfl := hworld
  obtain rfl := hunderlying
  constructor
  case placed => exact fun i hook h' ↦ h.placed i hook ((hlive i hook).mp h')
  case apart =>
    intro i j hook hook' h' h''
    exact h.apart i j hook hook' ((hlive i hook).mp h') ((hlive j hook').mp h'')
  case holds => exact fun i hook h' ↦ h.holds i hook ((hlive i hook).mp h')
  case methods =>
    intro method record
    simp only [hlive]
    exact h.methods method record
  case replacements =>
    intro clone method
    simp only [hlive]
    exact h.replacements clone method
  case memory =>
    intro b hb hfree
    exact h.memory b hb fun i hook h' ↦ hfree i hook ((hlive i hook).mpr h')

/-- A reversal, whether it fails or not. -/
theorem revert (h : Inv K s) (hhook : s.hooks i = some hook)
    (memory : Except (Error θ) MemoryRanges) (hstep : s.step (.revert i memory) = some t) :
    Inv K t := by
  rw [step, hhook] at hstep
  dsimp only at hstep
  have hrevert := wp_revert_restores hook.guard s.world memory
  rw [Fallible.wp] at hrevert
  split at hstep
  case h_1 guard world hrun =>
    rw [hrun] at hrevert
    obtain rfl := Option.some.inj hstep
    rcases hrevert with ⟨hreverted, hr⟩ | ⟨hreverted, hok, hr⟩
    · -- the guard was reverted before
      obtain ⟨rfl, rfl⟩ := Prod.mk.inj hr
      refine h.congr_live ?_ ?_ ?_
      · rfl
      · rfl
      intro j hook'
      rw [live_setHook]
      constructor
      · rintro (⟨-, -, hnot⟩ | ⟨-, hlive⟩)
        · cases hreverted.symm.trans hnot
        · exact hlive
      · intro hlive
        refine .inr ⟨?_, hlive⟩
        rintro rfl
        obtain rfl := Option.some.inj (hhook.symm.trans hlive.1)
        cases hreverted.symm.trans hlive.2
    · obtain ⟨rfl, rfl⟩ := Prod.mk.inj hr
      have hrestored := h.restored ⟨hhook, hreverted⟩
      have hunregistered := hrestored.unregistered
        (live_setHook.mpr (.inl ⟨rfl, rfl, hreverted⟩)) rfl
      rw [setHook_setHook] at hunregistered
      rw [Hook.restored, hok, Bool.not_true, Bool.and_false]
      exact hunregistered
  case h_2 error guard world hrun =>
    rw [hrun] at hrevert
    obtain rfl := Option.some.inj hstep
    obtain ⟨hreverted, hr⟩ := hrevert
    obtain ⟨rfl, rfl⟩ := Prod.mk.inj hr
    rw [Hook.restored]
    cases hok : memory.isOk with
    | true =>
      rw [Bool.not_true, Bool.and_false]
      exact h.restored ⟨hhook, hreverted⟩
    | false =>
      rw [Bool.not_false, Bool.and_true]
      refine h.congr_live ?_ ?_ ?_
      · rfl
      · rfl
      intro j hook'
      rw [Live, hooks_setHook, ← hhook, Function.update_eq_self]
      rfl

end Inv

/-- What an operation can rely on. -/
def Admissible (K : Set (BitVec 64)) (s : HookTable ι) : HookOp ι θ → Prop
  | .replace _ call => s.ReplaceAdmissible K call
  -- ART leaves the fields of the replaced methods alone
  | .write bytes =>
    ∀ byte ∈ bytes, ∀ i hook, s.Live i hook → byte.1 ∉ hook.fields ∧ byte.1 ∉ hook.own
  | .revert .. | .synchronize _ => True

/-- **Every operation keeps the table**, whether it fails or not. -/
theorem Inv.step (h : Inv K s) {op : HookOp ι θ} (hop : s.Admissible K op)
    (hstep : s.step op = some t) : Inv K t := by
  cases op with
  | replace i call =>
    rw [HookTable.step] at hstep
    cases hi : s.hooks i with
    | some hook =>
      rw [hi] at hstep
      cases hstep
    | none =>
      rw [hi] at hstep
      dsimp only at hstep
      split at hstep
      case h_1 guard world hrun =>
        obtain rfl := Option.some.inj hstep
        have hreplaced := wp_replaceMethod_replaced call.env call.kind call.replacement s.world
        rw [Fallible.wp, hrun] at hreplaced
        exact h.replaced hop hreplaced hi
      case h_2 error world hrun =>
        obtain rfl := Option.some.inj hstep
        have huntouched := wp_replaceMethod call.env call.kind call.replacement s.world
        rw [Fallible.wp, hrun] at huntouched
        exact h.untouched hop huntouched
  | revert i memory =>
    cases hi : s.hooks i with
    | none =>
      rw [HookTable.step, hi] at hstep
      cases hstep
    | some hook => exact h.revert hi memory hstep
  | synchronize order =>
    obtain rfl := Option.some.inj hstep
    exact h.synchronize order
  | write bytes =>
    obtain rfl := Option.some.inj hstep
    exact h.write hop

theorem inv_of_reachable (h : (hookTable ι θ).ReachableVia (Admissible K) s) : Inv K s := by
  refine h.invariant ?_ fun s op t hs hop ↦ hs.step hop
  rintro s ⟨m, rfl⟩
  exact .start K m

end HookTable

end JavaBridge.Art
