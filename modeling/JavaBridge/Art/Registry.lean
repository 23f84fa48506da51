import JavaBridge.Art.Dispatch
import JavaBridge.Library.Fallible
import JavaBridge.Library.Machine
import JavaBridge.Library.PartialBijection

/-!
# The replacement registry

The controller's mappings between replaced methods and the clones that stand in for them. Both maps
are one partial bijection: `register` adds a pair between two free ends, `unregister` takes one out.
The mutex makes every operation one step, so that a run is a list of operations.

Main results:

* `ArtReplacementMappings.wp_register`: a registration adds a pair or changes nothing.
* `ArtReplacementMappings.Represents.insert`, `ArtReplacementMappings.Represents.unregister`: what
  the operations do to the bijection.
* `ArtReplacementMappings.registry_lawful`: the law of the registry, after any operations.
-/

namespace JavaBridge.Art

structure ArtReplacementSynchronization where
  quickCodeOffset : BitVec 64
  threadManagedStackOffset : BitVec 64
  nterpEntrypoint : Option (BitVec 64)
  quickToInterpreterBridge : BitVec 64
  deriving DecidableEq

structure ArtReplacementRecord where
  replacement : BitVec 64
  dispatchThunkStart : BitVec 64
  dispatchThunkEnd : BitVec 64
  synchronization : ArtReplacementSynchronization
  deriving DecidableEq

namespace ArtReplacementRecord

/-- The record of a registration, whose thunk ends where its length says. -/
def ofThunk (replacement dispatchThunk dispatchThunkLen : BitVec 64)
    (synchronization : ArtReplacementSynchronization) : ArtReplacementRecord where
  replacement := replacement
  dispatchThunkStart := dispatchThunk
  dispatchThunkEnd := dispatchThunk + dispatchThunkLen
  synchronization := synchronization

variable (record : ArtReplacementRecord)

/-- The clone of the record has the top managed frame of `thread`. -/
def frameIsActive (mem : ByteMemory) (thread : BitVec 64) : Bool :=
  replacementFrameIsActive mem record.replacement thread
    record.synchronization.threadManagedStackOffset.toNat

/-- The clone gets the declaring class of its original, and an original that fell back to nterp the
interpreter bridge. -/
def synchronize (original : BitVec 64) (m : ByteMemory) : ByteMemory :=
  let m := m.store record.replacement 4 (m.load original 4)
  match record.synchronization.nterpEntrypoint with
  | none => m
  | some nterpEntrypoint =>
    let originalQuickCode := original + record.synchronization.quickCodeOffset
    if m.word originalQuickCode = nterpEntrypoint then
      m.store originalQuickCode 8 record.synchronization.quickToInterpreterBridge.toNat
    else m

end ArtReplacementRecord

/-- The methods replaced now, and the clones that replace them. -/
@[ext] structure ArtReplacementMappings where
  methods : BitVec 64 → Option ArtReplacementRecord
  replacements : BitVec 64 → Option (BitVec 64)

namespace ArtReplacementMappings

variable {θ : Type}

/-- `ArtReplacementMappings::default`. -/
def empty : ArtReplacementMappings := ⟨fun _ ↦ none, fun _ ↦ none⟩

/-! ## Operations -/

def register (original replacement dispatchThunk dispatchThunkLen : BitVec 64)
    (synchronization : ArtReplacementSynchronization) :
    EStateM (Error θ) ArtReplacementMappings Unit := do
  if original = 0 ∨ replacement = 0 ∨ dispatchThunk = 0 then
    throw (.nullReturn "ART replacement mapping")
  if 2 ^ 64 ≤ dispatchThunk.toNat + dispatchThunkLen.toNat then
    throw (.invalidReplacementState "ART replacement registration"
      "dispatch thunk address range overflowed")
  let mappings ← get
  if (mappings.methods original).isSome then
    throw (.invalidReplacementState "ART replacement registration"
      "target ArtMethod already has an active replacement")
  if (mappings.replacements replacement).isSome then
    throw (.invalidReplacementState "ART replacement registration"
      "replacement ArtMethod is already registered")
  set {
    methods := Function.update mappings.methods original
      (some (.ofThunk replacement dispatchThunk dispatchThunkLen synchronization))
    replacements := Function.update mappings.replacements replacement (some original)
    : ArtReplacementMappings }

def unregister (original : BitVec 64) (mappings : ArtReplacementMappings) :
    ArtReplacementMappings :=
  match mappings.methods original with
  | none => mappings
  | some record => {
      methods := Function.update mappings.methods original none
      replacements := Function.update mappings.replacements record.replacement none }

variable (mappings : ArtReplacementMappings)

def replacementFor (original : BitVec 64) : Option (BitVec 64) :=
  (mappings.methods original).map (·.replacement)

def isReplacementMethod (method : BitVec 64) : Bool := (mappings.replacements method).isSome

def hasDispatchThunkPc (method pc : BitVec 64) : Bool :=
  (mappings.methods method).any fun record ↦
    record.dispatchThunkStart ≤ pc && pc < record.dispatchThunkEnd

/-- The method that an entrypoint hook on `thread` goes on with. -/
def translateMethodArgumentForThread (mem : ByteMemory) (method thread : BitVec 64) : BitVec 64 :=
  match mappings.methods method with
  | none => method
  | some record => if record.frameIsActive mem thread then method else record.replacement

/-- `order` is the order in which the map gives its methods. -/
def synchronizeReplacementMethods (order : List (BitVec 64)) (m : ByteMemory) : ByteMemory :=
  order.foldl
    (fun m original ↦ (mappings.methods original).elim m fun record ↦ record.synchronize original m) m

/-- Of a record, a translation reads the clone and the offset of the managed stack. -/
theorem translateMethodArgumentForThread_eq (mem : ByteMemory) (method thread : BitVec 64) :
    mappings.translateMethodArgumentForThread mem method thread =
      Art.translateMethodArgumentForThread mem
        (fun m ↦ (mappings.methods m).map fun record ↦
          ⟨record.replacement, record.synchronization.threadManagedStackOffset.toNat⟩)
        method thread := by
  rw [translateMethodArgumentForThread, Art.translateMethodArgumentForThread]
  cases mappings.methods method <;> rfl

/-! ## What an operation does -/

/-- What a registration is refused for does not hold of it. -/
structure Registrable (original replacement dispatchThunk dispatchThunkLen : BitVec 64) : Prop where
  original_ne : original ≠ 0
  replacement_ne : replacement ≠ 0
  dispatchThunk_ne : dispatchThunk ≠ 0
  no_overflow : dispatchThunk.toNat + dispatchThunkLen.toNat < 2 ^ 64
  methods_eq : mappings.methods original = none
  replacements_eq : mappings.replacements replacement = none

/-- The mappings with one more pair. -/
def insert (original : BitVec 64) (record : ArtReplacementRecord) : ArtReplacementMappings where
  methods := Function.update mappings.methods original (some record)
  replacements := Function.update mappings.replacements record.replacement (some original)

variable {mappings} {mappings' : ArtReplacementMappings}
  {original replacement dispatchThunk dispatchThunkLen : BitVec 64}
  {synchronization : ArtReplacementSynchronization}

/-- A registration adds a pair between two free ends, and where it is refused it changes nothing. -/
theorem wp_register :
    Fallible.wp
      (register (θ := θ) original replacement dispatchThunk dispatchThunkLen synchronization)
      (fun _ mappings' ↦
        mappings.Registrable original replacement dispatchThunk dispatchThunkLen ∧
        mappings' = mappings.insert original
          (.ofThunk replacement dispatchThunk dispatchThunkLen synchronization))
      (fun _ mappings' ↦
        ¬mappings.Registrable original replacement dispatchThunk dispatchThunkLen ∧
        mappings' = mappings)
      mappings := by
  rw [register]
  simp only [Fallible.wp_bind, Fallible.wp_ite, Fallible.wp_throw,
    Fallible.wp_get]
  refine ⟨fun h ↦ ⟨fun hr ↦ ?_, trivial⟩, fun hnull ↦ ⟨fun h ↦ ⟨fun hr ↦ ?_, trivial⟩, fun hle ↦
    ⟨fun h ↦ ⟨fun hr ↦ ?_, trivial⟩, fun hmethods ↦ ⟨fun h ↦ ⟨fun hr ↦ ?_, trivial⟩, fun hrepl ↦
      ⟨?_, rfl⟩⟩⟩⟩⟩
  · rcases h with h | h | h
    · exact hr.original_ne h
    · exact hr.replacement_ne h
    · exact hr.dispatchThunk_ne h
  · exact Nat.not_le.2 hr.no_overflow h
  · rw [hr.methods_eq] at h
    cases h
  · rw [hr.replacements_eq] at h
    cases h
  · push Not at hnull
    exact ⟨hnull.1, hnull.2.1, hnull.2.2, Nat.not_le.1 hle, Option.not_isSome_iff_eq_none.1 hmethods,
      Option.not_isSome_iff_eq_none.1 hrepl⟩

/-- What a registration did. -/
theorem of_register_eq_ok
    (h : register (θ := θ) original replacement dispatchThunk dispatchThunkLen synchronization
      mappings = .ok ⟨⟩ mappings') :
    mappings.Registrable original replacement dispatchThunk dispatchThunkLen ∧
      mappings' = mappings.insert original
        (.ofThunk replacement dispatchThunk dispatchThunkLen synchronization) := by
  have hwp : Fallible.wp (register (θ := θ) original replacement dispatchThunk dispatchThunkLen
    synchronization) _ _ mappings := wp_register
  unfold Fallible.wp at hwp
  rw [h] at hwp
  exact hwp

theorem register_cases (mappings : ArtReplacementMappings)
    (original replacement dispatchThunk dispatchThunkLen : BitVec 64)
    (synchronization : ArtReplacementSynchronization) :
    mappings.Registrable original replacement dispatchThunk dispatchThunkLen ∧
        register (θ := θ) original replacement dispatchThunk dispatchThunkLen synchronization
          mappings = .ok ⟨⟩ (mappings.insert original
            (.ofThunk replacement dispatchThunk dispatchThunkLen synchronization)) ∨
      ¬mappings.Registrable original replacement dispatchThunk dispatchThunkLen ∧
        ∃ e, register (θ := θ) original replacement dispatchThunk dispatchThunkLen synchronization
          mappings = .error e mappings := by
  have h : Fallible.wp (register (θ := θ) original replacement dispatchThunk dispatchThunkLen
    synchronization) _ _ mappings := wp_register
  unfold Fallible.wp at h
  split at h
  · next hx =>
    rw [hx, h.2]
    exact .inl ⟨h.1, rfl⟩
  · next hx =>
    rw [hx, h.2]
    exact .inr ⟨h.1, _, rfl⟩

theorem unregister_of_eq_none (h : mappings.methods original = none) :
    unregister original mappings = mappings := by
  rw [unregister, h]

theorem unregister_of_eq_some {record : ArtReplacementRecord}
    (h : mappings.methods original = some record) :
    unregister original mappings = {
      methods := Function.update mappings.methods original none
      replacements := Function.update mappings.replacements record.replacement none } := by
  rw [unregister, h]

/-- Taking out the pair that was added. -/
theorem unregister_insert {record : ArtReplacementRecord} (h : mappings.methods original = none)
    (h' : mappings.replacements record.replacement = none) :
    unregister original (mappings.insert original record) = mappings := by
  have hmethods : (mappings.insert original record).methods original = some record :=
    Function.update_self ..
  rw [unregister_of_eq_some hmethods]
  ext1
  · show Function.update (Function.update _ _ _) _ _ = _
    rw [Function.update_idem, Function.update_eq_self_iff.2 h.symm]
  · show Function.update (Function.update _ _ _) _ _ = _
    rw [Function.update_idem, Function.update_eq_self_iff.2 h'.symm]

/-! ## The bijection -/

/-- Both maps are the two directions of one bijection. -/
structure Represents (mappings : ArtReplacementMappings) (e : BitVec 64 ≃. BitVec 64) : Prop where
  replacementFor : mappings.replacementFor = e
  replacements : mappings.replacements = e.symm

variable {e : BitVec 64 ≃. BitVec 64} {record : ArtReplacementRecord}

theorem represents_empty : empty.Represents ⊥ := ⟨rfl, rfl⟩

/-- A pair between two free ends joins the bijection. -/
theorem Represents.insert (h : mappings.Represents e) (he : e original = none)
    (he' : e.symm record.replacement = none) :
    (mappings.insert original record).Represents (e.insert original record.replacement he he') := by
  constructor
  · rw [PEquiv.coe_insert, ← h.replacementFor]
    exact Function.comp_update ..
  · rw [PEquiv.coe_symm_insert, ← h.replacements]
    rfl

theorem Represents.eq_none_iff (h : mappings.Represents e) :
    e original = none ↔ mappings.methods original = none := by
  rw [← h.replacementFor, ArtReplacementMappings.replacementFor, Option.map_eq_none_iff]

theorem Represents.eq_some (h : mappings.Represents e)
    (hrecord : mappings.methods original = some record) : e original = some record.replacement := by
  rw [← h.replacementFor, ArtReplacementMappings.replacementFor, hrecord]
  rfl

/-- `unregister` takes the pair of its method out of the bijection. -/
theorem Represents.unregister (h : mappings.Represents e) (original : BitVec 64) :
    (unregister original mappings).Represents (e.erase original) := by
  cases hrecord : mappings.methods original with
  | none =>
    rw [unregister_of_eq_none hrecord, PEquiv.erase_of_eq_none (h.eq_none_iff.2 hrecord)]
    exact h
  | some record =>
    rw [unregister_of_eq_some hrecord]
    constructor
    · rw [PEquiv.coe_erase, ← h.replacementFor]
      exact Function.comp_update ..
    · rw [PEquiv.symm_erase_of_eq_some (h.eq_some hrecord), ← h.replacements]

/-! ## Runs -/

/-- What a thread does to the registry while it holds the mutex. -/
inductive Op
  | register (original replacement dispatchThunk dispatchThunkLen : BitVec 64)
    (synchronization : ArtReplacementSynchronization)
  | unregister (original : BitVec 64)

namespace Op

def apply : Op → ArtReplacementMappings → ArtReplacementMappings
  | register original replacement dispatchThunk dispatchThunkLen synchronization, mappings =>
    (Fallible.outcome (ArtReplacementMappings.register (θ := Empty) original replacement
      dispatchThunk dispatchThunkLen synchronization) mappings).2
  | unregister original, mappings => mappings.unregister original

/-- The operation names neither end of the pair. -/
def Spares (original replacement : BitVec 64) : Op → Prop
  | register original' replacement' _ _ _ => original' ≠ original ∧ replacement' ≠ replacement
  | unregister original' => original' ≠ original

end Op

/-- The registry under any operations, from empty on. -/
def machine : Machine ArtReplacementMappings Op where
  Init mappings := mappings = empty
  step mappings op := some (op.apply mappings)

/-- What one operation does: `register` where nothing stands against it, and `unregister`. -/
theorem apply_cases (op : Op) (mappings : ArtReplacementMappings) :
    op.apply mappings = mappings ∨
      (∃ original record, mappings.methods original = none ∧
        mappings.replacements record.replacement = none ∧
        op.apply mappings = mappings.insert original record) ∨
      ∃ original, op = .unregister original ∧ op.apply mappings = unregister original mappings := by
  cases op with
  | register original replacement dispatchThunk dispatchThunkLen synchronization =>
    rcases register_cases (θ := Empty) mappings original replacement dispatchThunk dispatchThunkLen
      synchronization with ⟨hr, h⟩ | ⟨-, _, h⟩
    · refine .inr (.inl ⟨original,
        .ofThunk replacement dispatchThunk dispatchThunkLen synchronization, hr.methods_eq,
        hr.replacements_eq, ?_⟩)
      rw [Op.apply, Fallible.outcome, h]
    · refine .inl ?_
      rw [Op.apply, Fallible.outcome, h]
  | unregister original => exact .inr (.inr ⟨original, rfl, rfl⟩)

theorem represents_apply (op : Op) (he : ∃ e, mappings.Represents e) :
    ∃ e, (op.apply mappings).Represents e := by
  obtain ⟨e, he⟩ := he
  rcases apply_cases op mappings with h | ⟨original, record, hm, hr, h⟩ | ⟨original, -, h⟩
  · exact ⟨e, h.symm ▸ he⟩
  · exact ⟨_, h.symm ▸ he.insert (he.eq_none_iff.2 hm) (he.replacements ▸ hr)⟩
  · exact ⟨_, h.symm ▸ he.unregister original⟩

/-- Any operations leave a bijection. -/
theorem represents_of_reachable (h : machine.Reachable mappings) :
    ∃ e, mappings.Represents e := by
  refine h.invariant (I := fun mappings ↦ ∃ e, mappings.Represents e) ?_ ?_
  · rintro _ rfl
    exact ⟨⊥, represents_empty⟩
  · intro mappings op _ he hstep
    exact Option.some.inj hstep ▸ represents_apply op he

/-- Only its own `unregister` takes the record of a method away. -/
theorem methods_of_run {ops : List Op} (hops : .unregister original ∉ ops)
    (hrecord : mappings.methods original = some record)
    (h : machine.run mappings ops = some mappings') : mappings'.methods original = some record := by
  induction ops generalizing mappings with
  | nil => exact Option.some.inj h ▸ hrecord
  | cons op ops ih =>
    refine ih (fun hmem ↦ hops (List.mem_cons_of_mem op hmem)) ?_ h
    rcases apply_cases op mappings with h | ⟨original', record', hm, -, h⟩ | ⟨original', rfl, h⟩
    · rw [h, hrecord]
    · have hne : original ≠ original' := by
        rintro rfl
        rw [hm] at hrecord
        cases hrecord
      rw [h]
      exact (Function.update_of_ne hne ..).trans hrecord
    · have hne : original ≠ original' := by
        rintro rfl
        exact hops List.mem_cons_self
      rw [h, unregister]
      split
      · exact hrecord
      · exact (Function.update_of_ne hne ..).trans hrecord

theorem registrable_insert_iff {original' replacement' : BitVec 64} (ho : original' ≠ original)
    (hr : replacement' ≠ record.replacement) :
    (mappings.insert original record).Registrable original' replacement' dispatchThunk
        dispatchThunkLen ↔
      mappings.Registrable original' replacement' dispatchThunk dispatchThunkLen := by
  have hmethods : (mappings.insert original record).methods original' = mappings.methods original' :=
    Function.update_of_ne ho ..
  have hreplacements : (mappings.insert original record).replacements replacement' =
      mappings.replacements replacement' := Function.update_of_ne hr ..
  constructor
  · rintro ⟨h₁, h₂, h₃, h₄, h₅, h₆⟩
    exact ⟨h₁, h₂, h₃, h₄, hmethods ▸ h₅, hreplacements ▸ h₆⟩
  · rintro ⟨h₁, h₂, h₃, h₄, h₅, h₆⟩
    exact ⟨h₁, h₂, h₃, h₄, hmethods.trans h₅, hreplacements.trans h₆⟩

theorem insert_comm {original' : BitVec 64} {record' : ArtReplacementRecord}
    (ho : original' ≠ original) (hr : record'.replacement ≠ record.replacement) :
    (mappings.insert original record).insert original' record' =
      (mappings.insert original' record').insert original record := by
  ext1
  · exact Function.update_comm ho.symm ..
  · exact Function.update_comm hr.symm ..

/-- An operation that spares a pair does the same with the pair in place. -/
theorem apply_insert {op : Op} (hop : op.Spares original record.replacement)
    (he : mappings.Represents e) (hr : mappings.replacements record.replacement = none) :
    op.apply (mappings.insert original record) = (op.apply mappings).insert original record := by
  cases op with
  | register original' replacement' dispatchThunk dispatchThunkLen synchronization =>
    obtain ⟨ho, hr⟩ := hop
    rw [Op.apply, Op.apply, Fallible.outcome, Fallible.outcome]
    rcases register_cases (θ := Empty) mappings original' replacement' dispatchThunk
      dispatchThunkLen synchronization with ⟨hreg, h⟩ | ⟨hreg, _, h⟩
    · rcases register_cases (θ := Empty) (mappings.insert original record) original' replacement'
        dispatchThunk dispatchThunkLen synchronization with ⟨-, h'⟩ | ⟨hreg', -⟩
      · rw [h, h']
        exact insert_comm ho hr
      · exact absurd ((registrable_insert_iff ho hr).2 hreg) hreg'
    · rcases register_cases (θ := Empty) (mappings.insert original record) original' replacement'
        dispatchThunk dispatchThunkLen synchronization with ⟨hreg', -⟩ | ⟨-, _, h'⟩
      · exact absurd ((registrable_insert_iff ho hr).1 hreg') hreg
      · rw [h, h']
  | unregister original' =>
    have hmethods : (mappings.insert original record).methods original' =
        mappings.methods original' := Function.update_of_ne hop ..
    cases hrecord : mappings.methods original' with
    | none =>
      rw [Op.apply, Op.apply, unregister_of_eq_none hrecord,
        unregister_of_eq_none (hmethods.trans hrecord)]
    | some record' =>
      have hne : record'.replacement ≠ record.replacement := by
        intro heq
        have := e.eq_some_iff.2 (he.eq_some hrecord)
        rw [← he.replacements, heq, hr] at this
        cases this
      rw [Op.apply, Op.apply, unregister_of_eq_some hrecord,
        unregister_of_eq_some (hmethods.trans hrecord)]
      ext1
      · exact Function.update_comm (Ne.symm hop) ..
      · exact Function.update_comm hne.symm ..

/-- The ends of a pair stay free under operations that spare it. -/
theorem apply_free {op : Op} (hop : op.Spares original replacement)
    (hm : mappings.methods original = none) (hr : mappings.replacements replacement = none) :
    (op.apply mappings).methods original = none ∧
      (op.apply mappings).replacements replacement = none := by
  cases op with
  | register original' replacement' dispatchThunk dispatchThunkLen synchronization =>
    rw [Op.apply, Fallible.outcome]
    rcases register_cases (θ := Empty) mappings original' replacement' dispatchThunk
      dispatchThunkLen synchronization with ⟨-, h⟩ | ⟨-, _, h⟩
    · rw [h]
      exact ⟨(Function.update_of_ne hop.1.symm ..).trans hm,
        (Function.update_of_ne hop.2.symm ..).trans hr⟩
    · rw [h]
      exact ⟨hm, hr⟩
  | unregister original' =>
    rw [Op.apply, unregister]
    split
    · exact ⟨hm, hr⟩
    · refine ⟨(Function.update_of_ne (Ne.symm hop) ..).trans hm, ?_⟩
      show Function.update _ _ _ _ = _
      rw [Function.update_apply]
      split
      · rfl
      · exact hr

theorem run_insert {ops : List Op} (hops : ∀ op ∈ ops, op.Spares original record.replacement)
    (he : ∃ e, mappings.Represents e) (hm : mappings.methods original = none)
    (hr : mappings.replacements record.replacement = none)
    (h : machine.run (mappings.insert original record) ops = some mappings') :
    machine.run mappings ops = some (unregister original mappings') := by
  induction ops generalizing mappings with
  | nil =>
    obtain rfl := Option.some.inj h
    rw [unregister_insert hm hr]
    rfl
  | cons op ops ih =>
    obtain ⟨hop, hops⟩ := List.forall_mem_cons.1 hops
    obtain ⟨e, he⟩ := he
    have hfree := apply_free hop hm hr
    refine ih hops (represents_apply op ⟨e, he⟩) hfree.1 hfree.2 ?_
    rw [← apply_insert hop he hr]
    exact h

/-! ## The law -/

/-- The law of the registry. -/
structure Lawful (mappings : ArtReplacementMappings) : Prop where
  /-- The two maps are inverse to each other. -/
  bijection : ∃ e, mappings.Represents e
  /-- A registration succeeds exactly where nothing stands against it, and adds its pair to both maps
  and nothing else. -/
  register_ok_iff : ∀ {θ : Type} {original replacement dispatchThunk dispatchThunkLen : BitVec 64}
    {synchronization : ArtReplacementSynchronization} {mappings₁},
    register (θ := θ) original replacement dispatchThunk dispatchThunkLen synchronization mappings =
        .ok ⟨⟩ mappings₁ ↔
      mappings.Registrable original replacement dispatchThunk dispatchThunkLen ∧
        mappings₁ = {
          methods := Function.update mappings.methods original
            (some (.ofThunk replacement dispatchThunk dispatchThunkLen synchronization))
          replacements := Function.update mappings.replacements replacement (some original) }
  register_error : ∀ {θ : Type} {original replacement dispatchThunk dispatchThunkLen : BitVec 64}
    {synchronization : ArtReplacementSynchronization} {e : Error θ} {mappings'},
    register original replacement dispatchThunk dispatchThunkLen synchronization mappings =
      .error e mappings' → mappings' = mappings
  /-- After a registration and any operations that do not undo it, `unregister` clears the two ends of
  the pair, which were free before, and nothing else. -/
  unregister_register : ∀ {θ : Type}
    {original replacement dispatchThunk dispatchThunkLen : BitVec 64}
    {synchronization : ArtReplacementSynchronization} {mappings₁ mappings₂} {ops : List Op},
    register (θ := θ) original replacement dispatchThunk dispatchThunkLen synchronization mappings =
      .ok ⟨⟩ mappings₁ →
    .unregister original ∉ ops → machine.run mappings₁ ops = some mappings₂ →
      mappings.methods original = none ∧ mappings.replacements replacement = none ∧
      unregister original mappings₂ = {
        methods := Function.update mappings₂.methods original none
        replacements := Function.update mappings₂.replacements replacement none }
  /-- Where these operations concern other pairs, that is what they lead to without the pair. -/
  run_unregister : ∀ {θ : Type}
    {original replacement dispatchThunk dispatchThunkLen : BitVec 64}
    {synchronization : ArtReplacementSynchronization} {mappings₁ mappings₂} {ops : List Op},
    register (θ := θ) original replacement dispatchThunk dispatchThunkLen synchronization mappings =
      .ok ⟨⟩ mappings₁ →
    (∀ op ∈ ops, op.Spares original replacement) → machine.run mappings₁ ops = some mappings₂ →
      machine.run mappings ops = some (unregister original mappings₂)
  isReplacementMethod_iff : ∀ r, mappings.isReplacementMethod r = true ↔
    ∃ original, mappings.replacementFor original = some r
  translate_unregistered : ∀ mem method thread, mappings.methods method = none →
    mappings.translateMethodArgumentForThread mem method thread = method
  translate_registered : ∀ mem method thread record, mappings.methods method = some record →
    mappings.translateMethodArgumentForThread mem method thread =
      if record.frameIsActive mem thread then method else record.replacement

/-- After any registrations and removals, the registry is lawful. -/
theorem registry_lawful (h : machine.Reachable mappings) : mappings.Lawful where
  bijection := represents_of_reachable h
  register_ok_iff := by
    intro θ original replacement dispatchThunk dispatchThunkLen synchronization mappings₁
    constructor
    · exact of_register_eq_ok
    · rintro ⟨hr, rfl⟩
      rcases register_cases (θ := θ) mappings original replacement dispatchThunk dispatchThunkLen
        synchronization with ⟨-, hok⟩ | ⟨hnot, -⟩
      · exact hok
      · exact absurd hr hnot
  register_error := by
    intro θ original replacement dispatchThunk dispatchThunkLen synchronization e mappings' herror
    rcases register_cases (θ := θ) mappings original replacement dispatchThunk dispatchThunkLen
      synchronization with ⟨-, hok⟩ | ⟨-, _, herror'⟩
    · rw [hok] at herror
      cases herror
    · rw [herror'] at herror
      cases herror
      rfl
  unregister_register := by
    intro θ original replacement dispatchThunk dispatchThunkLen synchronization mappings₁ mappings₂
      ops hok hops hrun
    obtain ⟨hr, rfl⟩ := of_register_eq_ok hok
    have hrecord := methods_of_run hops (Function.update_self ..) hrun
    exact ⟨hr.methods_eq, hr.replacements_eq, unregister_of_eq_some hrecord⟩
  run_unregister := by
    intro θ original replacement dispatchThunk dispatchThunkLen synchronization mappings₁ mappings₂
      ops hok hops hrun
    obtain ⟨hr, rfl⟩ := of_register_eq_ok hok
    exact run_insert hops (represents_of_reachable h) hr.methods_eq hr.replacements_eq hrun
  isReplacementMethod_iff := by
    intro r
    obtain ⟨e, he⟩ := represents_of_reachable h
    rw [isReplacementMethod, he.replacements, he.replacementFor, Option.isSome_iff_exists]
    exact exists_congr fun _ ↦ e.eq_some_iff
  translate_unregistered := by
    intro mem method thread hmethod
    rw [translateMethodArgumentForThread, hmethod]
  translate_registered := by
    intro mem method thread record hmethod
    rw [translateMethodArgumentForThread, hmethod]

/-- Two pairs, one of them gone again. -/
def twoPairs : List Op := [
  .register 0x1000 0x2000 0x3000 0x40 ⟨0x20, 0x98, none, 0x7000⟩,
  .register 0x1100 0x2100 0x3100 0x40 ⟨0x20, 0x98, none, 0x7000⟩,
  .unregister 0x1000]

theorem registry_lawful_twoPairs : ∃ mappings, machine.run empty twoPairs = some mappings ∧
    mappings.replacementFor 0x1100 = some 0x2100 ∧ mappings.Lawful := by
  refine ⟨_, rfl, by decide +kernel, registry_lawful ⟨empty, twoPairs, rfl, rfl⟩⟩

end ArtReplacementMappings

end JavaBridge.Art
