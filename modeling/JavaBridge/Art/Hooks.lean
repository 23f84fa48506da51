import JavaBridge.Art.Replace
import Mathlib.Data.List.Infix
import Mathlib.Data.List.Nodup

/-!
# Installation of the hooks

`ensure_hooks` and `ensure_quick_entrypoint_hooks` attach listeners to functions of the runtime. The
interceptor may refuse each attachment. What it has attached stays attached, since no listener is
detached, until the last handle to the interceptor goes. Both calls hold a mutex, so that a run is a
list of calls.

Main results:

* `wp_ensureHooks`, `wp_ensureQuickEntrypoints`: what each call leaves of the attachments and of
  the bookkeeping.
* `retryLaw_iff`: a run keeps the law of retries exactly when the refusals of its calls come in
  place.
-/

namespace JavaBridge.Art

/-! ## The functions of the runtime -/

inductive GcSynchronizationTiming
  | onEnter
  | onLeave
  deriving DecidableEq

structure GcSynchronizationEntry where
  address : BitVec 64
  timing : GcSynchronizationTiming
  deriving DecidableEq

/-- What `libart.so` exports and names. -/
structure Module where
  exports : List (String × BitVec 64)
  symbols : List (String × BitVec 64)
  findExportByName : String → Option (BitVec 64)
  findSymbolByName : String → Option (BitVec 64)

def resolvePointer (module : Module) (symbol : String) : Option (BitVec 64) :=
  module.findExportByName symbol <|> module.findSymbolByName symbol

def resolvePointerAny (module : Module) (symbols : List String) : Option (BitVec 64) :=
  symbols.findSome? (resolvePointer module)

def isInterpreterDoCallSymbol (name : String) : Bool :=
  "_ZN3art11interpreter6DoCall".toList <+: name.toList ∧ "ArtMethod".toList <:+: name.toList ∧
    "ShadowFrame".toList <:+: name.toList ∧ "JValue".toList <:+: name.toList

/-- The body of the loops over exports and symbols. -/
def pushDoCallEntry (entries : List (BitVec 64)) (symbol : String × BitVec 64) :
    List (BitVec 64) :=
  if isInterpreterDoCallSymbol symbol.1 ∧ symbol.2 ∉ entries then entries ++ [symbol.2] else entries

def findInterpreterDoCallEntries (module : Module) : List (BitVec 64) :=
  module.symbols.foldl pushDoCallEntry (module.exports.foldl pushDoCallEntry [])

def pushGcSynchronizationEntry (timing : GcSynchronizationTiming) (address : Option (BitVec 64))
    (entries : List GcSynchronizationEntry) : List GcSynchronizationEntry :=
  match address with
  | none => entries
  | some address =>
    if address ∈ entries.map (·.address) then entries else entries ++ [⟨address, timing⟩]

def findGcSynchronizationEntries (module : Module) : List GcSynchronizationEntry :=
  let entries := pushGcSynchronizationEntry .onLeave (resolvePointer module
    "_ZN3art2gc4Heap22CollectGarbageInternalENS0_9collector6GcTypeENS0_7GcCauseEbj") []
  let entries := pushGcSynchronizationEntry .onLeave (resolvePointerAny module
    ["_ZN3art2gc9collector17ConcurrentCopying12CopyingPhaseEv",
      "_ZN3art2gc9collector17ConcurrentCopying12MarkingPhaseEv"]) entries
  pushGcSynchronizationEntry .onEnter (resolvePointerAny module
    ["_ZN3art6Thread15RunFlipFunctionEPS0_", "_ZN3art6Thread15RunFlipFunctionEPS0_b"]) entries

theorem nodup_foldl_pushDoCallEntry {entries : List (BitVec 64)} (h : entries.Nodup)
    (symbols : List (String × BitVec 64)) : (symbols.foldl pushDoCallEntry entries).Nodup := by
  induction symbols generalizing entries with
  | nil => exact h
  | cons symbol symbols ih =>
    apply ih
    rw [pushDoCallEntry]
    split
    · next hnew => exact h.append (List.nodup_singleton _) (List.disjoint_singleton.2 hnew.2)
    · exact h

theorem nodup_pushGcSynchronizationEntry {entries : List GcSynchronizationEntry}
    (h : (entries.map (·.address)).Nodup) (timing : GcSynchronizationTiming)
    (address : Option (BitVec 64)) :
    ((pushGcSynchronizationEntry timing address entries).map (·.address)).Nodup := by
  cases address with
  | none => exact h
  | some address =>
    rw [pushGcSynchronizationEntry]
    split
    · exact h
    · next hnew =>
      rw [List.map_append]
      exact h.append (List.nodup_singleton _) (List.disjoint_singleton.2 hnew)

/-- The functions that a controller was made with. No address is listed twice. -/
structure ArtReplacementController where
  doCallEntries : List (BitVec 64)
  getOatQuickMethodHeader : Option (BitVec 64)
  gcSynchronizationEntries : List GcSynchronizationEntry
  doCallEntries_nodup : doCallEntries.Nodup
  gcSynchronizationEntries_nodup : (gcSynchronizationEntries.map (·.address)).Nodup

namespace ArtReplacementController

def new (module : Module) : ArtReplacementController where
  doCallEntries := findInterpreterDoCallEntries module
  getOatQuickMethodHeader := resolvePointerAny module
    ["_ZN3art9ArtMethod23GetOatQuickMethodHeaderEm", "_ZN3art9ArtMethod23GetOatQuickMethodHeaderEj"]
  gcSynchronizationEntries := findGcSynchronizationEntries module
  doCallEntries_nodup := nodup_foldl_pushDoCallEntry
    (nodup_foldl_pushDoCallEntry List.nodup_nil module.exports) module.symbols
  gcSynchronizationEntries_nodup := by
    iterate 3 apply nodup_pushGcSynchronizationEntry
    exact List.nodup_nil

end ArtReplacementController

/-! ## Hooks -/

/-- A function that is hooked, by the listener it gets. -/
inductive Entrypoint
  | doCall (address : BitVec 64)
  | gcSynchronization (entry : GcSynchronizationEntry)
  | getOatQuickMethodHeader (function : BitVec 64)
  | quick (address : BitVec 64)
  deriving DecidableEq

structure ArtQuickEntrypointHooks where
  addresses : List (BitVec 64)
  hooks : List (BitVec 64)
  deriving DecidableEq

/-- The address is seen. -/
def ArtQuickEntrypointHooks.insert (address : BitVec 64) (quickHooks : ArtQuickEntrypointHooks) :
    ArtQuickEntrypointHooks where
  addresses := quickHooks.addresses ++ [address]
  hooks := quickHooks.hooks

/-- The hook is kept. -/
def ArtQuickEntrypointHooks.push (hook : BitVec 64) (quickHooks : ArtQuickEntrypointHooks) :
    ArtQuickEntrypointHooks where
  addresses := quickHooks.addresses
  hooks := quickHooks.hooks ++ [hook]

structure ArtReplacementHooks where
  listeners : List (BitVec 64)
  gcListeners : List GcSynchronizationEntry
  getOatQuickMethodHeader : Option (BitVec 64)
  deriving DecidableEq

/-- The hooks that the interceptor has put in, and what the controller knows of them. -/
structure HookState where
  attachments : List Entrypoint
  quickEntrypointHooks : ArtQuickEntrypointHooks
  hooks : Option ArtReplacementHooks
  deriving DecidableEq

/-- What the interceptor answers in one call, which asks it once for an entrypoint. -/
structure InterceptorAnswer where
  /-- Nothing where it attaches the hook, or the text of its error. -/
  refusal : Entrypoint → Option String
  /-- No other part of the process has a handle to it. -/
  alone : Bool

/-- The drop of a handle that a failed call obtained. The hooks that are kept have handles of their
own, and the last handle takes everything that is attached with it. -/
def HookState.dropInterceptor (alone : Bool) (s : HookState) : HookState :=
  if alone ∧ s.hooks = none ∧ s.quickEntrypointHooks.hooks = [] then { s with attachments := [] }
  else s

section

variable {θ : Type}

/-- `Interceptor::attach`, and `Interceptor::replace` for the one function that is replaced. -/
def attach (answer : InterceptorAnswer) (reason : String) (entrypoint : Entrypoint) :
    EStateM (Error θ) HookState Unit :=
  match answer.refusal entrypoint with
  | none => modify fun s ↦ { s with attachments := s.attachments ++ [entrypoint] }
  | some error => throw (.unsupportedFeature FEATURE_METHOD_REPLACEMENT (reason ++ error))

def attachEach (answer : InterceptorAnswer) (reason : String) :
    List Entrypoint → EStateM (Error θ) HookState Unit
  | [] => pure ()
  | entrypoint :: entrypoints => do
    attach answer reason entrypoint
    attachEach answer reason entrypoints

def ArtReplacementHooks.install (controller : ArtReplacementController)
    (answer : InterceptorAnswer) : EStateM (Error θ) HookState ArtReplacementHooks := do
  attachEach answer "unable to hook ART interpreter DoCall: "
    (controller.doCallEntries.map .doCall)
  attachEach answer "unable to hook ART replacement GC synchronization: "
    (controller.gcSynchronizationEntries.map .gcSynchronization)
  attachEach answer "unable to hook ArtMethod::GetOatQuickMethodHeader: "
    (controller.getOatQuickMethodHeader.toList.map .getOatQuickMethodHeader)
  pure {
    listeners := controller.doCallEntries
    gcListeners := controller.gcSynchronizationEntries
    getOatQuickMethodHeader := controller.getOatQuickMethodHeader }

namespace ArtReplacementController

variable (controller : ArtReplacementController)

def ensureDispatchSupported : Except (Error θ) Unit :=
  if controller.doCallEntries.isEmpty then
    .error (.unsupportedFeature FEATURE_METHOD_REPLACEMENT
      "ART interpreter DoCall entrypoint is unavailable for cloned replacement dispatch")
  else .ok ()

def ensureHooks (answer : InterceptorAnswer) : EStateM (Error θ) HookState Unit := do
  MonadExcept.ofExcept controller.ensureDispatchSupported
  if (← get).hooks.isSome then pure ()
  else
    let hooks ← Fallible.onError (HookState.dropInterceptor answer.alone)
      (ArtReplacementHooks.install controller answer)
    modify fun s ↦ { s with hooks := some hooks }

end ArtReplacementController

/-- The address is taken down before the attachment that may fail. -/
def ensureQuickEntrypoints (answer : InterceptorAnswer) :
    List (BitVec 64) → EStateM (Error θ) HookState Unit
  | [] => pure ()
  | address :: entrypoints => do
    if address = 0 ∨ address ∈ (← get).quickEntrypointHooks.addresses then
      ensureQuickEntrypoints answer entrypoints
    else
      modify fun s ↦ { s with quickEntrypointHooks := s.quickEntrypointHooks.insert address }
      Fallible.onError (HookState.dropInterceptor answer.alone)
        (attach answer "unable to hook ART quick entrypoint: " (.quick address))
      modify fun s ↦ { s with quickEntrypointHooks := s.quickEntrypointHooks.push address }
      ensureQuickEntrypoints answer entrypoints

/-- In the order of the source's array. -/
def ArtClassLinkerTrampolines.entrypoints (trampolines : ArtClassLinkerTrampolines) :
    List (BitVec 64) :=
  [trampolines.quickGenericJniTrampoline, trampolines.quickResolutionTrampoline,
    trampolines.quickToInterpreterBridgeTrampoline]

def ensureQuickEntrypointHooks (trampolines : ArtClassLinkerTrampolines)
    (answer : InterceptorAnswer) : EStateM (Error θ) HookState Unit :=
  ensureQuickEntrypoints answer trampolines.entrypoints

end

/-! ## What the calls leave -/

section

variable {θ : Type} {controller : ArtReplacementController} {answer : InterceptorAnswer}
  {s t : HookState}

/-- The interceptor has attached these as well. -/
def HookState.attached (s : HookState) (entrypoints : List Entrypoint) : HookState :=
  { s with attachments := s.attachments ++ entrypoints }

/-- Every entrypoint that `ensure_hooks` hooks. -/
def ArtReplacementController.required (controller : ArtReplacementController) :
    List Entrypoint :=
  controller.doCallEntries.map .doCall ++
    (controller.gcSynchronizationEntries.map .gcSynchronization ++
      controller.getOatQuickMethodHeader.toList.map .getOatQuickMethodHeader)

theorem ArtReplacementController.nodup_required (controller : ArtReplacementController) :
    controller.required.Nodup := by
  have hdoCall := controller.doCallEntries_nodup.map (f := Entrypoint.doCall)
    fun _ _ h ↦ Entrypoint.doCall.inj h
  have hgc := controller.gcSynchronizationEntries_nodup.of_map.map
    (f := Entrypoint.gcSynchronization) fun _ _ h ↦ Entrypoint.gcSynchronization.inj h
  have hgetOat : (controller.getOatQuickMethodHeader.toList.map
      Entrypoint.getOatQuickMethodHeader).Nodup := by
    cases controller.getOatQuickMethodHeader <;> simp
  refine hdoCall.append (hgc.append hgetOat ?_) ?_
  · simp [List.disjoint_left]
  · simp [List.disjoint_left]

theorem ArtReplacementController.not_quick_of_mem_required {address : BitVec 64} :
    .quick address ∉ controller.required := by
  simp [required]

/-- One of the entrypoints is refused, and those before it are attached. -/
def Refused (answer : InterceptorAnswer) (entrypoints : List Entrypoint) (s t : HookState) :
    Prop :=
  ∃ done e rest, entrypoints = done ++ e :: rest ∧ (∀ d ∈ done, answer.refusal d = none) ∧
    answer.refusal e ≠ none ∧ t = s.attached done

theorem wp_attachEach {reason : String} (entrypoints : List Entrypoint) :
    Fallible.wp (attachEach (θ := θ) answer reason entrypoints)
      (fun _ t ↦ (∀ e ∈ entrypoints, answer.refusal e = none) ∧ t = s.attached entrypoints)
      (fun _ t ↦ Refused answer entrypoints s t) s := by
  induction entrypoints generalizing s with
  | nil =>
    refine ⟨fun _ h ↦ absurd h List.not_mem_nil, ?_⟩
    rw [HookState.attached, List.append_nil]
  | cons entrypoint entrypoints ih =>
    rw [attachEach, Fallible.wp_bind, attach]
    cases hanswer : answer.refusal entrypoint with
    | none =>
      rw [Fallible.wp_modify]
      refine Fallible.wp_mono ih ?_ ?_
      · rintro _ t ⟨hall, rfl⟩
        refine ⟨List.forall_mem_cons.2 ⟨hanswer, hall⟩, ?_⟩
        simp [HookState.attached]
      · rintro _ t ⟨done, e, rest, rfl, hdone, he, rfl⟩
        refine ⟨entrypoint :: done, e, rest, rfl, List.forall_mem_cons.2 ⟨hanswer, hdone⟩, he, ?_⟩
        simp [HookState.attached]
    | some error =>
      refine ⟨[], entrypoint, entrypoints, rfl, fun _ h ↦ absurd h List.not_mem_nil, ?_, ?_⟩
      · rw [hanswer]
        exact nofun
      · rw [HookState.attached, List.append_nil]

theorem Refused.append_right {entrypoints : List Entrypoint}
    (h : Refused answer entrypoints s t) (more : List Entrypoint) :
    Refused answer (entrypoints ++ more) s t := by
  obtain ⟨done, e, rest, rfl, hdone, he, rfl⟩ := h
  exact ⟨done, e, rest ++ more, by simp, hdone, he, rfl⟩

theorem Refused.append_left {entrypoints more : List Entrypoint}
    (hall : ∀ e ∈ more, answer.refusal e = none) (h : Refused answer entrypoints (s.attached more) t) :
    Refused answer (more ++ entrypoints) s t := by
  obtain ⟨done, e, rest, rfl, hdone, he, rfl⟩ := h
  refine ⟨more ++ done, e, rest, by simp, ?_, he, by simp [HookState.attached]⟩
  intro d hd
  exact (List.mem_append.1 hd).elim (hall d) (hdone d)

theorem wp_install :
    Fallible.wp (ArtReplacementHooks.install (θ := θ) controller answer)
      (fun _ t ↦ (∀ e ∈ controller.required, answer.refusal e = none) ∧ t = s.attached controller.required)
      (fun _ t ↦ Refused answer controller.required s t) s := by
  rw [ArtReplacementHooks.install, ArtReplacementController.required]
  rw [Fallible.wp_bind]
  refine Fallible.wp_mono (wp_attachEach _) ?_ fun _ _ h ↦ h.append_right _
  rintro _ _ ⟨hdoCall, rfl⟩
  rw [Fallible.wp_bind]
  refine Fallible.wp_mono (wp_attachEach _) ?_
    fun _ _ h ↦ (h.append_right _).append_left hdoCall
  rintro _ _ ⟨hgc, rfl⟩
  rw [Fallible.wp_bind]
  refine Fallible.wp_mono (wp_attachEach _) ?_ fun _ _ h ↦ (h.append_left hgc).append_left hdoCall
  rintro _ _ ⟨hgetOat, rfl⟩
  rw [Fallible.wp_pure]
  refine ⟨?_, by simp [HookState.attached]⟩
  intro e he
  rcases List.mem_append.1 he with he | he
  · exact hdoCall e he
  · exact (List.mem_append.1 he).elim (hgc e) (hgetOat e)

/-- The hooks are in already, or the call puts them in, or it is refused and forgets those that it
has put in. -/
theorem wp_ensureHooks :
    Fallible.wp (controller.ensureHooks (θ := θ) answer)
      (fun _ t ↦ controller.doCallEntries ≠ [] ∧ (s.hooks.isSome ∧ t = s ∨
        s.hooks = none ∧ (∀ e ∈ controller.required, answer.refusal e = none) ∧
          ∃ hooks, t = { s.attached controller.required with hooks := some hooks }))
      (fun _ t ↦ controller.doCallEntries = [] ∧ t = s ∨
        controller.doCallEntries ≠ [] ∧ s.hooks = none ∧
          ∃ u, Refused answer controller.required s u ∧ t = u.dropInterceptor answer.alone) s := by
  rw [ArtReplacementController.ensureHooks, Fallible.wp_bind,
    ArtReplacementController.ensureDispatchSupported]
  cases hdoCall : controller.doCallEntries with
  | nil => exact .inl ⟨rfl, rfl⟩
  | cons entry entries =>
    rw [← hdoCall]
    have hne : controller.doCallEntries ≠ [] := hdoCall ▸ List.cons_ne_nil entry entries
    have hsupported : controller.doCallEntries.isEmpty = false := by rw [hdoCall]; rfl
    rw [hsupported]
    simp only [Bool.false_eq_true, if_false, Fallible.wp_ofExcept, Fallible.wp_bind,
      Fallible.wp_get, Fallible.wp_ite, Fallible.wp_pure, Fallible.wp_modify, Fallible.wp_onError]
    refine ⟨fun _ _ ↦ ⟨fun h ↦ ⟨hne, .inl ⟨h, trivial⟩⟩, fun h ↦ ?_⟩, fun e he ↦ by cases he⟩
    have hnone : s.hooks = none := by simpa using h
    refine Fallible.wp_mono wp_install ?_ fun _ u h ↦ .inr ⟨hne, hnone, u, h, rfl⟩
    rintro hooks _ ⟨hall, rfl⟩
    exact ⟨hne, .inr ⟨hnone, hall, hooks, rfl⟩⟩

/-- The addresses that are seen are those that are attached, once each, and there is a handle to
the interceptor for what is attached. -/
structure QuickHooked (s : HookState) : Prop where
  nodup : s.attachments.Nodup
  held : s.hooks = none → s.quickEntrypointHooks.hooks = [] → s.attachments = []
  quick_mem : ∀ address, .quick address ∈ s.attachments ↔
    address ∈ s.quickEntrypointHooks.addresses

theorem dropInterceptor_of_held {alone : Bool}
    (hs : s.hooks = none → s.quickEntrypointHooks.hooks = [] → s.attachments = []) :
    s.dropInterceptor alone = s := by
  rw [HookState.dropInterceptor]
  split
  · next h =>
    obtain ⟨attachments, quickHooks, hooks⟩ := s
    obtain rfl : attachments = [] := hs h.2.1 h.2.2
    rfl
  · rfl

/-- A failed installation leaves no trace where its handle was the only one. -/
theorem QuickHooked.dropInterceptor_attached (hs : QuickHooked s) (hnone : s.hooks = none)
    (done : List Entrypoint) (alone : Bool) :
    (s.attached done).dropInterceptor alone =
      if alone ∧ s.quickEntrypointHooks.hooks = [] then s else s.attached done := by
  rw [HookState.dropInterceptor]
  obtain ⟨attachments, quickHooks, hooks⟩ := s
  obtain rfl : hooks = none := hnone
  split
  · next h =>
    obtain rfl : attachments = [] := hs.held rfl h.2.2
    rw [if_pos ⟨h.1, h.2.2⟩]
    rfl
  · next h =>
    rw [if_neg]
    exact fun h' ↦ h ⟨h'.1, rfl, h'.2⟩

/-- An address that is seen but not attached. -/
def Skipped (s : HookState) : Prop :=
  ∃ address, address ≠ 0 ∧ address ∈ s.quickEntrypointHooks.addresses ∧
    .quick address ∉ s.attachments

/-- The call has attached quick entrypoints and nothing else. -/
def QuickExtends (s t : HookState) : Prop :=
  t.hooks = s.hooks ∧ ∃ addresses : List (BitVec 64),
    t.attachments = s.attachments ++ addresses.map .quick

theorem QuickHooked.insert {address : BitVec 64} (hs : QuickHooked s)
    (hnew : address ∉ s.quickEntrypointHooks.addresses) :
    QuickHooked { s.attached [.quick address] with
      quickEntrypointHooks := (s.quickEntrypointHooks.insert address).push address } where
  nodup := hs.nodup.append (List.nodup_singleton _)
    (List.disjoint_singleton.2 (mt (hs.quick_mem address).1 hnew))
  held _ hnil := absurd hnil (List.append_ne_nil_of_right_ne_nil _ (List.cons_ne_nil _ _))
  quick_mem := by
    intro address'
    show _ ∈ s.attachments ++ [_] ↔ _ ∈ s.quickEntrypointHooks.addresses ++ [address]
    rw [List.mem_append, List.mem_append, hs.quick_mem, List.mem_singleton, List.mem_singleton,
      Entrypoint.quick.injEq]

/-- No attachment is refused: every address is seen. One is refused: it is seen all the same. -/
theorem wp_ensureQuickEntrypoints (hs : QuickHooked s) (entrypoints : List (BitVec 64)) :
    Fallible.wp (ensureQuickEntrypoints (θ := θ) answer entrypoints)
      (fun _ t ↦ (∀ address ∈ entrypoints, address ≠ 0 →
          address ∉ s.quickEntrypointHooks.addresses → answer.refusal (.quick address) = none) ∧
        QuickHooked t ∧ QuickExtends s t ∧
        ∀ address, (address ∈ entrypoints ∧ address ≠ 0) ∨
          address ∈ s.quickEntrypointHooks.addresses → address ∈ t.quickEntrypointHooks.addresses)
      (fun _ t ↦ (∃ address ∈ entrypoints, address ≠ 0 ∧
          address ∉ s.quickEntrypointHooks.addresses ∧ answer.refusal (.quick address) ≠ none) ∧
        t.attachments.Nodup ∧ QuickExtends s t ∧ Skipped t) s := by
  induction entrypoints generalizing s with
  | nil =>
    refine ⟨fun _ h ↦ absurd h List.not_mem_nil, hs, ⟨rfl, [], by simp⟩, ?_⟩
    exact fun _ h ↦ h.resolve_left fun h ↦ absurd h.1 List.not_mem_nil
  | cons address entrypoints ih =>
    rw [ensureQuickEntrypoints]
    simp only [Fallible.wp_bind, Fallible.wp_get, Fallible.wp_ite, Fallible.wp_modify]
    refine ⟨fun hskip ↦ ?_, fun hnew ↦ ?_⟩
    · -- the address is null or has been seen
      refine Fallible.wp_mono (ih hs) ?_ ?_
      · rintro _ t ⟨hall, ht, hextends, hseen⟩
        refine ⟨List.forall_mem_cons.2 ⟨?_, hall⟩, ht, hextends, ?_⟩
        · intro hne hnew
          exact absurd hskip (not_or.2 ⟨hne, hnew⟩)
        · rintro address' (⟨hmem, hne⟩ | hold)
          · rcases List.mem_cons.1 hmem with rfl | hmem
            · exact hseen _ (.inr (hskip.resolve_left hne))
            · exact hseen _ (.inl ⟨hmem, hne⟩)
          · exact hseen _ (.inr hold)
      · rintro _ t ⟨⟨address', hmem, h⟩, ht⟩
        exact ⟨⟨address', List.mem_cons_of_mem _ hmem, h⟩, ht⟩
    · obtain ⟨hne, hnew⟩ := not_or.1 hnew
      rw [Fallible.wp_onError, attach]
      cases hanswer : answer.refusal (.quick address) with
      | none =>
        rw [Fallible.wp_modify]
        refine Fallible.wp_mono (ih (hs.insert hnew)) ?_ ?_
        · rintro _ t ⟨hall, ht, ⟨hhooks, new, hextends⟩, hseen⟩
          refine ⟨List.forall_mem_cons.2 ⟨fun _ _ ↦ hanswer, ?_⟩, ht, ⟨hhooks, address :: new, ?_⟩,
            ?_⟩
          · intro address' hmem hne' hnew'
            by_cases heq : address' = address
            · exact heq ▸ hanswer
            · refine hall address' hmem hne' fun h ↦ ?_
              rcases List.mem_append.1 h with h | h
              · exact hnew' h
              · exact heq (List.mem_singleton.1 h)
          · rw [hextends]
            simp
          · rintro address' (⟨hmem, hne'⟩ | hold)
            · rcases List.mem_cons.1 hmem with rfl | hmem
              · exact hseen _ (.inr (List.mem_append_right _ List.mem_cons_self))
              · exact hseen _ (.inl ⟨hmem, hne'⟩)
            · exact hseen _ (.inr (List.mem_append_left _ hold))
        · rintro _ t ⟨⟨address', hmem, hne', hnew', h⟩, hnodup, ⟨hhooks, new, hextends⟩, hskipped⟩
          refine ⟨⟨address', List.mem_cons_of_mem _ hmem, hne', ?_, h⟩, hnodup,
            ⟨hhooks, address :: new, ?_⟩, hskipped⟩
          · exact fun hold ↦ hnew' (List.mem_append_left _ hold)
          · rw [hextends]
            simp
      | some error =>
        have hheld : { s with quickEntrypointHooks :=
            s.quickEntrypointHooks.insert address }.dropInterceptor answer.alone = _ :=
          dropInterceptor_of_held hs.held
        rw [Fallible.wp_throw, hheld]
        refine ⟨⟨address, List.mem_cons_self, hne, hnew, ?_⟩, hs.nodup, ⟨rfl, [], by simp⟩,
          address, hne, List.mem_append_right _ List.mem_cons_self, mt (hs.quick_mem address).1 hnew⟩
        rw [hanswer]
        exact Option.some_ne_none error

end

/-! ## Runs -/

/-- A call, with the answers that the interceptor gives in it. -/
inductive HookCall
  | ensureHooks (answer : InterceptorAnswer)
  | ensureQuickEntrypointHooks (trampolines : ArtClassLinkerTrampolines)
      (answer : InterceptorAnswer)

namespace HookCall

variable (controller : ArtReplacementController)

/-- The entrypoints that a call is to hook. -/
def required : HookCall → List Entrypoint
  | ensureHooks _ => controller.required
  | ensureQuickEntrypointHooks trampolines _ =>
    (trampolines.entrypoints.filter (· ≠ 0)).map .quick

def run {θ : Type} : HookCall → EStateM (Error θ) HookState Unit
  | ensureHooks answer => controller.ensureHooks answer
  | ensureQuickEntrypointHooks trampolines answer =>
    Art.ensureQuickEntrypointHooks trampolines answer

end HookCall

/-- The hooks, and the entrypoints of the calls that returned without an error. -/
structure HookRun where
  state : HookState
  ensured : List Entrypoint
  deriving DecidableEq

def hookMachine (controller : ArtReplacementController) : Machine HookRun HookCall where
  Init s := s = ⟨⟨[], ⟨[], []⟩, none⟩, []⟩
  step s call :=
    match Fallible.outcome (call.run (θ := Empty) controller) s.state with
    | (.ok _, state) => some ⟨state, s.ensured ++ call.required controller⟩
    | (.error _, state) => some ⟨state, s.ensured⟩

/-- What was ensured is attached once, and nothing is attached twice. -/
def HookedOnce (s : HookRun) : Prop :=
  (∀ e ∈ s.ensured, s.state.attachments.count e = 1) ∧ ∀ e, s.state.attachments.count e ≤ 1

/-- Everything is hooked once, now and after any further call. -/
def RetryLaw (controller : ArtReplacementController) (s : HookRun) : Prop :=
  HookedOnce s ∧ ∀ call t, (hookMachine controller).step s call = some t → HookedOnce t

/-- No attachment to a quick entrypoint is refused. Of those of `ensure_hooks` the first one may be,
and any of them where the call has the only handle to the interceptor. -/
def RefusedInPlace (controller : ArtReplacementController) (s : HookRun) : HookCall → Prop
  | .ensureHooks answer =>
    controller.doCallEntries = [] ∨ s.state.hooks.isSome ∨
      (∀ e ∈ controller.required, answer.refusal e = none) ∨
        (∃ e, controller.required.head? = some e ∧ answer.refusal e ≠ none) ∨
          answer.alone ∧ s.state.quickEntrypointHooks.hooks = []
  | .ensureQuickEntrypointHooks trampolines answer =>
    ∀ address ∈ trampolines.entrypoints, address ≠ 0 →
      address ∉ s.state.quickEntrypointHooks.addresses → answer.refusal (.quick address) = none

section

variable {controller : ArtReplacementController} {s t : HookRun} {call : HookCall}

theorem step_eq_some (h : (hookMachine controller).step s call = some t) :
    ∃ r, Fallible.outcome (call.run (θ := Empty) controller) s.state = (r, t.state) ∧
      (r = .ok () ∧ t.ensured = s.ensured ++ call.required controller ∨
        (∃ e, r = .error e) ∧ t.ensured = s.ensured) := by
  simp only [hookMachine] at h
  split at h
  · next state hrun =>
    cases h
    exact ⟨_, hrun, .inl ⟨rfl, rfl⟩⟩
  · next error state hrun =>
    cases h
    exact ⟨_, hrun, .inr ⟨⟨error, rfl⟩, rfl⟩⟩

/-- The hooks are all attached or none of them is, and the bookkeeping says which. -/
structure Hooked (controller : ArtReplacementController) (s : HookRun) : Prop
    extends QuickHooked s.state where
  installed : s.state.hooks.isSome → controller.required ⊆ s.state.attachments
  fresh : s.state.hooks = none → ∀ e ∈ s.state.attachments, ∃ address, e = .quick address
  ensured : s.ensured ⊆ s.state.attachments

theorem HookedOnce.of_nodup (hnodup : s.state.attachments.Nodup)
    (hensured : s.ensured ⊆ s.state.attachments) : HookedOnce s :=
  ⟨fun _ he ↦ List.count_eq_one_of_mem hnodup (hensured he), List.nodup_iff_count_le_one.1 hnodup⟩

theorem Hooked.disjoint_required (hs : Hooked controller s) (hnone : s.state.hooks = none) :
    s.state.attachments.Disjoint controller.required := by
  intro e he hrequired
  obtain ⟨address, rfl⟩ := hs.fresh hnone e he
  exact controller.not_quick_of_mem_required hrequired

theorem QuickHooked.attached {s : HookState} (hs : QuickHooked s) {entrypoints : List Entrypoint}
    (hnodup : entrypoints.Nodup) (hdisjoint : s.attachments.Disjoint entrypoints)
    (hquick : ∀ address, .quick address ∉ entrypoints) (hooks : ArtReplacementHooks) :
    QuickHooked { s.attached entrypoints with hooks := some hooks } where
  nodup := hs.nodup.append hnodup hdisjoint
  held := nofun
  quick_mem address := by
    show _ ∈ s.attachments ++ entrypoints ↔ address ∈ s.quickEntrypointHooks.addresses
    rw [List.mem_append, or_iff_left (hquick address), hs.quick_mem]

/-! ### What a step can do -/

theorem step_ensureHooks {answer : InterceptorAnswer}
    (h : (hookMachine controller).step s (.ensureHooks answer) = some t) :
    controller.doCallEntries = [] ∧ t = s ∨
    controller.doCallEntries ≠ [] ∧
      (s.state.hooks.isSome ∧ t = ⟨s.state, s.ensured ++ controller.required⟩ ∨
        s.state.hooks = none ∧ (∀ e ∈ controller.required, answer.refusal e = none) ∧
          (∃ hooks, t = ⟨{ s.state.attached controller.required with hooks := some hooks },
            s.ensured ++ controller.required⟩) ∨
        s.state.hooks = none ∧
          (∃ u, Refused answer controller.required s.state u ∧
            t.state = u.dropInterceptor answer.alone) ∧ t.ensured = s.ensured) := by
  obtain ⟨t, ensured⟩ := t
  obtain ⟨r, hrun, hensured⟩ := step_eq_some h
  have hwp := (Fallible.wp_of_outcome hrun).1 wp_ensureHooks
  cases r with
  | ok =>
    obtain rfl : ensured = s.ensured ++ controller.required :=
      hensured.elim (·.2) fun h ↦ absurd h.1 nofun
    rcases hwp with ⟨hne, ⟨hsome, rfl⟩ | ⟨hnone, hall, hooks, rfl⟩⟩
    · exact .inr ⟨hne, .inl ⟨hsome, rfl⟩⟩
    · exact .inr ⟨hne, .inr (.inl ⟨hnone, hall, hooks, rfl⟩)⟩
  | error =>
    obtain rfl : ensured = s.ensured := hensured.elim (fun h ↦ absurd h.1 nofun) (·.2)
    rcases hwp with ⟨hnil, rfl⟩ | ⟨hne, hnone, hrefused⟩
    · exact .inl ⟨hnil, rfl⟩
    · exact .inr ⟨hne, .inr (.inr ⟨hnone, hrefused, rfl⟩)⟩

theorem step_ensureQuickEntrypointHooks {trampolines : ArtClassLinkerTrampolines}
    {answer : InterceptorAnswer} (hs : QuickHooked s.state)
    (h : (hookMachine controller).step s (.ensureQuickEntrypointHooks trampolines answer) =
      some t) :
    QuickExtends s.state t.state ∧
      (RefusedInPlace controller s (.ensureQuickEntrypointHooks trampolines answer) ∧
        QuickHooked t.state ∧
        t.ensured = s.ensured ++ (trampolines.entrypoints.filter (· ≠ 0)).map .quick ∧
        (∀ address, (address ∈ trampolines.entrypoints ∧ address ≠ 0) ∨
          address ∈ s.state.quickEntrypointHooks.addresses →
          address ∈ t.state.quickEntrypointHooks.addresses) ∨
      ¬RefusedInPlace controller s (.ensureQuickEntrypointHooks trampolines answer) ∧
        t.state.attachments.Nodup ∧ t.ensured = s.ensured ∧ Skipped t.state) := by
  obtain ⟨r, hrun, hensured⟩ := step_eq_some h
  have hwp := (Fallible.wp_of_outcome hrun).1 (wp_ensureQuickEntrypoints hs trampolines.entrypoints)
  cases r with
  | ok =>
    obtain ⟨hall, ht, hextends, hseen⟩ := hwp
    refine ⟨hextends, .inl ⟨hall, ht, ?_, hseen⟩⟩
    exact hensured.elim (·.2) fun h ↦ absurd h.1 nofun
  | error =>
    obtain ⟨⟨address, hmem, hne, hnew, hrefused⟩, hnodup, hextends, hskipped⟩ := hwp
    refine ⟨hextends, .inr ⟨fun hall ↦ hrefused (hall address hmem hne hnew), hnodup, ?_, hskipped⟩⟩
    exact hensured.elim (fun h ↦ absurd h.1 nofun) (·.2)

/-- A call whose refusals come in place keeps the hooks whole. -/
theorem Hooked.step (hs : Hooked controller s) (hcall : RefusedInPlace controller s call)
    (h : (hookMachine controller).step s call = some t) : Hooked controller t := by
  cases call with
  | ensureHooks answer =>
    rcases step_ensureHooks h with ⟨-, rfl⟩ | ⟨hne, ⟨hsome, rfl⟩ | ⟨hnone, hall, hooks, rfl⟩ |
      ⟨hnone, ⟨_, ⟨done, e, rest, hrequired, hdone, he, rfl⟩, ht⟩, hensured⟩⟩
    · exact hs
    · refine ⟨hs.toQuickHooked, hs.installed, hs.fresh, ?_⟩
      exact List.append_subset.2 ⟨hs.ensured, hs.installed hsome⟩
    · refine ⟨hs.toQuickHooked.attached controller.nodup_required (hs.disjoint_required hnone)
        (fun _ ↦ controller.not_quick_of_mem_required) _, ?_, nofun, ?_⟩
      · exact fun _ ↦ List.subset_append_right _ _
      · exact List.append_subset.2 ⟨List.subset_append_of_subset_left _ hs.ensured,
          List.subset_append_right _ _⟩
    · -- the call has attached nothing, or it took its attachments with it
      have hsame : t.state = s.state := by
        rw [ht, hs.dropInterceptor_attached hnone]
        rcases hcall with hnil | hsome | hall | ⟨first, hfirst, hrefused⟩ | halone
        · exact absurd hnil hne
        · rw [hnone] at hsome
          cases hsome
        · exact absurd (hall e (hrequired ▸ List.mem_append_right _ List.mem_cons_self)) he
        · rw [hrequired] at hfirst
          cases done with
          | nil => rw [HookState.attached, List.append_nil, ite_self]
          | cons d done =>
            cases hfirst
            exact absurd (hdone _ List.mem_cons_self) hrefused
        · rw [if_pos halone]
      refine ⟨hsame ▸ hs.toQuickHooked, ?_, ?_, ?_⟩
      · rw [hsame]
        exact hs.installed
      · rw [hsame]
        exact hs.fresh
      · rw [hsame, hensured]
        exact hs.ensured
  | ensureQuickEntrypointHooks trampolines answer =>
    obtain ⟨⟨hhooks, new, hnew⟩, ⟨-, ht, hensured, hseen⟩ | ⟨hnot, -⟩⟩ :=
      step_ensureQuickEntrypointHooks hs.toQuickHooked h
    · have hsubset : s.state.attachments ⊆ t.state.attachments :=
        hnew ▸ List.subset_append_left _ _
      refine ⟨ht, ?_, ?_, ?_⟩
      · intro hsome e he
        rw [hhooks] at hsome
        exact hsubset (hs.installed hsome he)
      · intro hnone e he
        rw [hhooks] at hnone
        rw [hnew] at he
        rcases List.mem_append.1 he with he | he
        · exact hs.fresh hnone e he
        · obtain ⟨address, -, rfl⟩ := List.mem_map.1 he
          exact ⟨address, rfl⟩
      · rw [hensured]
        refine List.append_subset.2 ⟨fun e he ↦ hsubset (hs.ensured he), ?_⟩
        intro e he
        obtain ⟨address, haddress, rfl⟩ := List.mem_map.1 he
        rw [List.mem_filter, decide_eq_true_eq] at haddress
        exact (ht.quick_mem address).2 (hseen address (.inl haddress))
    · exact absurd hcall hnot

/-- Whole hooks stay hooked once through any call. -/
theorem Hooked.hookedOnce_step (hs : Hooked controller s)
    (h : (hookMachine controller).step s call = some t) : HookedOnce t := by
  by_cases hcall : RefusedInPlace controller s call
  · have ht := hs.step hcall h
    exact .of_nodup ht.nodup ht.ensured
  · cases call with
    | ensureHooks answer =>
      rcases step_ensureHooks h with ⟨hnil, -⟩ | ⟨-, ⟨hsome, -⟩ | ⟨-, hall, -⟩ |
        ⟨hnone, ⟨_, ⟨done, e, rest, hrequired, -, -, rfl⟩, ht⟩, hensured⟩⟩
      · exact absurd (.inl hnil) hcall
      · exact absurd (.inr (.inl hsome)) hcall
      · exact absurd (.inr (.inr (.inl hall))) hcall
      · rw [hs.dropInterceptor_attached hnone,
          if_neg fun halone ↦ hcall (.inr (.inr (.inr (.inr halone))))] at ht
        have hsublist : done.Sublist controller.required := by
          rw [hrequired]
          exact List.sublist_append_left _ _
        refine .of_nodup ?_ ?_
        · rw [ht]
          exact hs.nodup.append (controller.nodup_required.sublist hsublist)
            (List.disjoint_of_subset_right hsublist.subset (hs.disjoint_required hnone))
        · rw [ht, hensured]
          exact List.subset_append_of_subset_left _ hs.ensured
    | ensureQuickEntrypointHooks trampolines answer =>
      obtain ⟨⟨-, new, hnew⟩, ⟨hin, -⟩ | ⟨-, hnodup, hensured, -⟩⟩ :=
        step_ensureQuickEntrypointHooks hs.toQuickHooked h
      · exact absurd hin hcall
      · refine .of_nodup hnodup ?_
        rw [hnew, hensured]
        exact List.subset_append_of_subset_left _ hs.ensured

theorem Hooked.retryLaw (hs : Hooked controller s) : RetryLaw controller s :=
  ⟨.of_nodup hs.nodup hs.ensured, fun _ _ h ↦ hs.hookedOnce_step h⟩

/-! ### Refusals that are not in place -/

def accepting : InterceptorAnswer where
  refusal _ := none
  alone := false

theorem ensureQuickEntrypoints_of_seen {answer : InterceptorAnswer} {s : HookState}
    {entrypoints : List (BitVec 64)}
    (hseen : ∀ address ∈ entrypoints, address ∈ s.quickEntrypointHooks.addresses) :
    ensureQuickEntrypoints (θ := Empty) answer entrypoints s = .ok () s := by
  induction entrypoints with
  | nil => rfl
  | cons address entrypoints ih =>
    obtain ⟨haddress, hseen⟩ := List.forall_mem_cons.1 hseen
    rw [ensureQuickEntrypoints]
    show (if _ then _ else _ : EStateM _ _ _) s = _
    rw [if_pos (.inr haddress)]
    exact ih hseen

/-- An address that is seen but not attached is promised by the next call that asks for it. -/
theorem not_retryLaw_of_skipped (hs : Skipped s.state) : ¬RetryLaw controller s := by
  obtain ⟨address, hne, hseen, hnot⟩ := hs
  rintro ⟨-, hretry⟩
  let trampolines : ArtClassLinkerTrampolines := ⟨address, address, address⟩
  have hrun : ensureQuickEntrypointHooks (θ := Empty) trampolines accepting s.state =
      .ok () s.state := by
    apply ensureQuickEntrypoints_of_seen
    simpa [ArtClassLinkerTrampolines.entrypoints, trampolines] using hseen
  have hstep : (hookMachine controller).step s
      (.ensureQuickEntrypointHooks trampolines accepting) =
      some ⟨s.state, s.ensured ++ (trampolines.entrypoints.filter (· ≠ 0)).map .quick⟩ := by
    simp only [hookMachine, HookCall.run, Fallible.outcome, hrun]
    rfl
  have hpromised : .quick address ∈
      s.ensured ++ (trampolines.entrypoints.filter (· ≠ 0)).map .quick := by
    refine List.mem_append_right _ (List.mem_map_of_mem (List.mem_filter.2 ⟨?_, ?_⟩))
    · exact List.mem_cons_self
    · exact decide_eq_true hne
  have hcount := (hretry _ _ hstep).1 _ hpromised
  rw [List.count_eq_zero_of_not_mem hnot] at hcount
  cases hcount

/-- An entrypoint that a failed installation has attached is attached again by the next one. -/
theorem not_retryLaw_of_attached (hne : controller.doCallEntries ≠ [])
    (hnone : s.state.hooks = none) {e : Entrypoint} (he : e ∈ s.state.attachments)
    (hrequired : e ∈ controller.required) : ¬RetryLaw controller s := by
  rintro ⟨-, hretry⟩
  obtain ⟨t, hstep⟩ : ∃ t, (hookMachine controller).step s (.ensureHooks accepting) = some t := by
    simp only [hookMachine]
    split
    · exact ⟨_, rfl⟩
    · exact ⟨_, rfl⟩
  have hcount := (hretry _ _ hstep).2 e
  rcases step_ensureHooks hstep with ⟨hnil, -⟩ | ⟨-, ⟨hsome, -⟩ | ⟨-, -, hooks, rfl⟩ |
    ⟨-, ⟨-, ⟨done, e, rest, -, -, hrefused, -⟩, -⟩, -⟩⟩
  · exact hne hnil
  · rw [hnone] at hsome
    cases hsome
  · have hold : 0 < s.state.attachments.count e := List.count_pos_iff.2 he
    have hnew : 0 < controller.required.count e := List.count_pos_iff.2 hrequired
    rw [HookState.attached, List.count_append] at hcount
    omega
  · exact hrefused rfl

theorem Hooked.not_retryLaw_step (hs : Hooked controller s)
    (hcall : ¬RefusedInPlace controller s call) (h : (hookMachine controller).step s call = some t) :
    ¬RetryLaw controller t := by
  cases call with
  | ensureHooks answer =>
    rcases step_ensureHooks h with ⟨hnil, -⟩ | ⟨hne, ⟨hsome, -⟩ | ⟨-, hall, -⟩ |
      ⟨hnone, ⟨_, ⟨done, e, rest, hrequired, -, he, rfl⟩, ht⟩, -⟩⟩
    · exact absurd (.inl hnil) hcall
    · exact absurd (.inr (.inl hsome)) hcall
    · exact absurd (.inr (.inr (.inl hall))) hcall
    · rw [hs.dropInterceptor_attached hnone,
        if_neg fun halone ↦ hcall (.inr (.inr (.inr (.inr halone))))] at ht
      cases done with
      | nil =>
        refine absurd (.inr (.inr (.inr (.inl ⟨e, ?_, he⟩)))) hcall
        rw [hrequired]
        rfl
      | cons d done =>
        refine not_retryLaw_of_attached hne (e := d) ?_ ?_ ?_
        · rw [ht]
          exact hnone
        · rw [ht]
          exact List.mem_append_right _ List.mem_cons_self
        · rw [hrequired]
          exact List.mem_append_left _ List.mem_cons_self
  | ensureQuickEntrypointHooks trampolines answer =>
    obtain ⟨-, ⟨hin, -⟩ | ⟨-, -, -, hskipped⟩⟩ := step_ensureQuickEntrypointHooks hs.toQuickHooked h
    · exact absurd hin hcall
    · exact not_retryLaw_of_skipped hskipped

end

/-! ## The law -/

/-- A run keeps the law of retries exactly when the refusals of its calls come in place. -/
theorem retryLaw_iff (controller : ArtReplacementController) {s₀ t : HookRun}
    {calls : List HookCall} (h₀ : (hookMachine controller).Init s₀)
    (h : (hookMachine controller).run s₀ calls = some t) :
    (hookMachine controller).Throughout (RetryLaw controller) s₀ calls ↔
      (hookMachine controller).Along (RefusedInPlace controller) s₀ calls := by
  refine Machine.throughout_iff_along (I := Hooked controller) (fun _ hs ↦ hs.retryLaw)
    (fun _ _ _ hs hcall ↦ hs.step hcall) (fun _ _ _ hs hcall ↦ hs.not_retryLaw_step hcall) ?_ h
  obtain rfl : s₀ = ⟨⟨[], ⟨[], []⟩, none⟩, []⟩ := h₀
  exact ⟨⟨List.nodup_nil, fun _ _ ↦ rfl, by simp⟩, nofun, by simp, by simp⟩

/-- A controller that found two `DoCall` functions. -/
def twoDoCalls : ArtReplacementController :=
  ⟨[0x1000, 0x2000], none, [], by decide, by decide⟩

def unhooked : HookRun := ⟨⟨[], ⟨[], []⟩, none⟩, []⟩

def threeTrampolines : ArtClassLinkerTrampolines := ⟨0x3000, 0x4000, 0x3000⟩

/-- The interceptor refuses one function. -/
def refusing (e : Entrypoint) : InterceptorAnswer where
  refusal e' := if e' = e then some "PolicyViolation" else none
  alone := false

theorem retryLaw_repeatedAddress :
    (hookMachine twoDoCalls).Throughout (RetryLaw twoDoCalls) unhooked
      [.ensureHooks (refusing (.doCall 0x1000)), .ensureHooks accepting,
        .ensureQuickEntrypointHooks threeTrampolines accepting] := by
  have hinit : (hookMachine twoDoCalls).Init unhooked := rfl
  have hrun : (hookMachine twoDoCalls).run unhooked
      [.ensureHooks (refusing (.doCall 0x1000)), .ensureHooks accepting,
        .ensureQuickEntrypointHooks threeTrampolines accepting] =
      some ⟨⟨[.doCall 0x1000, .doCall 0x2000, .quick 0x4000, .quick 0x3000],
          ⟨[0x4000, 0x3000], [0x4000, 0x3000]⟩, some ⟨[0x1000, 0x2000], [], none⟩⟩,
        [.doCall 0x1000, .doCall 0x2000, .quick 0x4000, .quick 0x3000, .quick 0x3000]⟩ := by
    decide +kernel
  refine (retryLaw_iff twoDoCalls hinit hrun).2 ?_
  refine ⟨.inr (.inr (.inr (.inl ⟨_, rfl, by decide⟩))), fun t ht ↦ ?_⟩
  refine ⟨.inr (.inr (.inl fun _ _ ↦ rfl)), fun t ht ↦ ?_⟩
  exact ⟨fun _ _ _ _ ↦ rfl, fun _ _ ↦ trivial⟩

/-- A refusal and a retry: a quick entrypoint that was promised and is not attached, and a `DoCall`
function that is attached twice. -/
theorem not_hookedOnce_after_retry :
    (∃ t, (hookMachine twoDoCalls).run unhooked
      [.ensureQuickEntrypointHooks threeTrampolines (refusing (.quick 0x3000)),
        .ensureQuickEntrypointHooks threeTrampolines accepting] = some t ∧
      .quick 0x3000 ∈ t.ensured ∧ t.state.attachments.count (.quick 0x3000) = 0) ∧
    ∃ t, (hookMachine twoDoCalls).run unhooked
      [.ensureHooks (refusing (.doCall 0x2000)), .ensureHooks accepting] = some t ∧
      .doCall 0x1000 ∈ t.ensured ∧ t.state.attachments.count (.doCall 0x1000) = 2 := by
  refine ⟨⟨_, rfl, ?_⟩, _, rfl, ?_⟩
  · decide +kernel
  · decide +kernel

end JavaBridge.Art
