import JavaBridge.Library.Once
import JavaBridge.Vm.Attachment
import Mathlib.Data.List.Infix

/-!
# The runtime of the process

The first call that finds no runtime discovers one, under a lock: ART among the modules of the
process, and in it the function that knows the VM. A discovery that fails leaves it to later calls
to try again.

Main results:

* `discoverRuntime_eq_ok_iff`: what is discovered.
* `obtainProcessRuntime_lawful`: all calls that succeed have the runtime of one discovery, in any
  order of their steps.
-/

namespace JavaBridge.Vm

open Hook (JNI_OK)

/-! ## Discovery -/

def JNI_GET_CREATED_JAVA_VMS : String := "JNI_GetCreatedJavaVMs"

/-- A module of the process. -/
structure Module where
  name : String
  path : String
  base : Nat
  size : Nat
  findExportByName : String → Option Nat
  findSymbolByName : String → Option Nat

structure ArtModuleRange where
  start : Nat
  stop : Nat
  deriving DecidableEq

/-- The end of the range saturates. -/
def ArtModuleRange.fromModule (module : Module) : ArtModuleRange where
  start := module.base
  stop := min (module.base + module.size) (2 ^ 64 - 1)

/-- What a call of `JNI_GetCreatedJavaVMs` has written. -/
structure CreatedJavaVms where
  result : Int
  vm : BitVec 64
  count : Int

/-- What a discovery sees of the process. -/
structure Process where
  modules : List Module
  /-- By the address of the function. -/
  getCreatedJavaVms : Nat → CreatedJavaVms

/-- How a discovery can fail. -/
inductive DiscoveryError (θ : Type)
  | artRuntimeNotFound
  | symbolNotFound (module symbol : String)
  | noCreatedJavaVm
  | other (error : Error θ)

/-- A pointer to the VM, and where the backend takes its symbols from. -/
structure RuntimeInner where
  vm : { vm : BitVec 64 // vm ≠ 0 }
  art : Module
  androidRuntime : Option ArtModuleRange

section

variable {θ : Type}

def isArt (module : Module) : Bool :=
  module.name = "libart.so" && !decide ("/system/fake-libs".toList <:+: module.path.toList)

def resolveJniGetCreatedJavaVms (module : Module) : Except (DiscoveryError θ) Nat :=
  match (module.findExportByName JNI_GET_CREATED_JAVA_VMS).or
      (module.findSymbolByName JNI_GET_CREATED_JAVA_VMS) with
  | some pointer => .ok pointer
  | none => .error (.symbolNotFound module.name JNI_GET_CREATED_JAVA_VMS)

def getCreatedJavaVm (created : CreatedJavaVms) :
    Except (DiscoveryError θ) { vm : BitVec 64 // vm ≠ 0 } :=
  if created.result ≠ JNI_OK then
    .error (.other (.jniCallFailed JNI_GET_CREATED_JAVA_VMS created.result))
  else if created.count = 0 then .error .noCreatedJavaVm
  else if h : created.vm ≠ 0 then .ok ⟨created.vm, h⟩
  else .error .noCreatedJavaVm

def discoverRuntime (process : Process) : Except (DiscoveryError θ) RuntimeInner := do
  match process.modules.find? isArt with
  | none => .error .artRuntimeNotFound
  | some art =>
    let androidRuntime := (process.modules.find? (·.name = "libandroid_runtime.so")).map
      ArtModuleRange.fromModule
    let function ← resolveJniGetCreatedJavaVms art
    let vm ← getCreatedJavaVm (process.getCreatedJavaVms function)
    .ok ⟨vm, art, androidRuntime⟩

/-- The runtime is what the first ART of the process says of its VM. -/
structure Discovered (process : Process) (runtime : RuntimeInner) : Prop where
  art : process.modules.find? isArt = some runtime.art
  androidRuntime : runtime.androidRuntime =
    (process.modules.find? (·.name = "libandroid_runtime.so")).map ArtModuleRange.fromModule
  /-- The VM is one that the function of ART has found. -/
  vm : ∃ function, (runtime.art.findExportByName JNI_GET_CREATED_JAVA_VMS).or
      (runtime.art.findSymbolByName JNI_GET_CREATED_JAVA_VMS) = some function ∧
    (process.getCreatedJavaVms function).result = JNI_OK ∧
    (process.getCreatedJavaVms function).count ≠ 0 ∧
    (process.getCreatedJavaVms function).vm = runtime.vm

theorem getCreatedJavaVm_eq_ok_iff {created : CreatedJavaVms} {vm : { vm : BitVec 64 // vm ≠ 0 }} :
    (getCreatedJavaVm created : Except (DiscoveryError θ) _) = .ok vm ↔
      created.result = JNI_OK ∧ created.count ≠ 0 ∧ created.vm = vm := by
  rw [getCreatedJavaVm]
  split
  case isTrue hresult =>
    constructor
    · intro h
      cases h
    · intro h
      exact absurd h.1 hresult
  case isFalse hresult =>
    rw [not_not] at hresult
    split
    case isTrue hcount =>
      constructor
      · intro h
        cases h
      · intro h
        exact absurd hcount h.2.1
    case isFalse hcount =>
      split
      case isTrue hvm =>
        constructor
        · intro h
          rw [← Except.ok.inj h]
          exact ⟨hresult, hcount, rfl⟩
        · intro h
          exact congrArg Except.ok (Subtype.ext h.2.2)
      case isFalse hvm =>
        constructor
        · intro h
          cases h
        · intro h
          rw [h.2.2] at hvm
          exact absurd vm.2 hvm

theorem resolveJniGetCreatedJavaVms_eq_ok_iff {module : Module} {function : Nat} :
    (resolveJniGetCreatedJavaVms module : Except (DiscoveryError θ) _) = .ok function ↔
      (module.findExportByName JNI_GET_CREATED_JAVA_VMS).or
        (module.findSymbolByName JNI_GET_CREATED_JAVA_VMS) = some function := by
  rw [resolveJniGetCreatedJavaVms]
  cases (module.findExportByName JNI_GET_CREATED_JAVA_VMS).or
    (module.findSymbolByName JNI_GET_CREATED_JAVA_VMS) with
  | none =>
    constructor
    · intro h
      cases h
    · intro h
      cases h
  | some pointer =>
    constructor
    · intro h
      rw [Except.ok.inj h]
    · intro h
      rw [Option.some.inj h]

theorem discoverRuntime_eq_ok_iff {process : Process} {runtime : RuntimeInner} :
    (discoverRuntime process : Except (DiscoveryError θ) _) = .ok runtime ↔
      Discovered process runtime := by
  rw [discoverRuntime]
  cases hart : process.modules.find? isArt with
  | none =>
    constructor
    · intro h
      cases h
    · intro h
      cases hart.symm.trans h.art
  | some art =>
    constructor
    · intro h
      obtain ⟨function, hfunction, h⟩ := Fallible.bind_eq_ok.mp h
      obtain ⟨vm, hvm, h⟩ := Fallible.bind_eq_ok.mp h
      obtain rfl := Except.ok.inj h
      exact ⟨hart, rfl, function, resolveJniGetCreatedJavaVms_eq_ok_iff.mp hfunction,
        getCreatedJavaVm_eq_ok_iff.mp hvm⟩
    · intro h
      obtain ⟨vm, art', androidRuntime⟩ := runtime
      obtain rfl := Option.some.inj (hart.symm.trans h.art)
      obtain rfl := h.androidRuntime
      obtain ⟨function, hfunction, hvm⟩ := h.vm
      apply Fallible.bind_eq_ok.mpr
      refine ⟨function, resolveJniGetCreatedJavaVms_eq_ok_iff.mpr hfunction, ?_⟩
      apply Fallible.bind_eq_ok.mpr
      exact ⟨vm, getCreatedJavaVm_eq_ok_iff.mpr hvm, rfl⟩

end

/-! ## One runtime for all calls -/

section

variable {ι θ : Type} [DecidableEq ι]

/-- `obtain_process_runtime`: what comes of the attempt of a call is what it discovers. Each call sees
the process as it is by then. -/
def Discovers (process : ι → Process) (_s : Once.Locked ι RuntimeInner (DiscoveryError θ))
    (l : Once.Label ι RuntimeInner (DiscoveryError θ)) : Prop :=
  ∀ i outcome, l = .made i outcome → outcome = discoverRuntime (process i)

/-- The calls share the runtime of one discovery. -/
structure Shared (process : ι → Process) (s : Once.Locked ι RuntimeInner (DiscoveryError θ)) :
    Prop where
  same : ∀ i j runtime runtime', s.phase i = .done (.ok runtime) →
    s.phase j = .done (.ok runtime') → runtime = runtime'
  /-- One of the calls has discovered it. -/
  discovered : ∀ i runtime, s.phase i = .done (.ok runtime) →
    ∃ j, (discoverRuntime (process j) : Except (DiscoveryError θ) _) = .ok runtime
  /-- Of all discoveries, one at most succeeds, and it is the last. -/
  once : ∃ errors : List (DiscoveryError θ), ∃ runtime : Option RuntimeInner,
    s.outcomes = errors.map .error ++ runtime.toList.map .ok
  /-- None is under way after it. -/
  last : ∀ runtime, .ok runtime ∈ s.outcomes → ∀ i, s.phase i ≠ .make
  /-- A call fails as its own discovery has failed. -/
  failed : ∀ i error, s.phase i = .done (.error error) → discoverRuntime (process i) = .error error
  progress : ∀ i, (∀ result, s.phase i ≠ .done result) → ∃ j, (j = i ∨ s.holder = some j) ∧
    (s.phase j = .make ∨ (s.step (.go j)).isSome)

theorem shared_of_reachable {process : ι → Process}
    {s : Once.Locked ι RuntimeInner (DiscoveryError θ)}
    (h : (Once.locked ι RuntimeInner (DiscoveryError θ)).ReachableVia (Discovers process) s) :
    Shared process s := by
  have hinv := Once.Locked.inv_of_reachable h
  have hlawful := hinv.lawful
  have houtcomes : ∀ outcome ∈ s.outcomes, ∃ j, outcome = discoverRuntime (process j) :=
    Once.Locked.forall_outcomes (fun s i outcome hC ↦ ⟨i, hC i outcome rfl⟩) h
  constructor
  case same =>
    intro i j runtime runtime' hi hj
    exact Option.some.inj ((hlawful.returned i runtime hi).symm.trans
      (hlawful.returned j runtime' hj))
  case discovered =>
    intro i runtime hi
    have hcell := hlawful.returned i runtime hi
    obtain ⟨value, ⟨errors, hmade⟩, hvalue⟩ := hlawful.once
    rw [hcell] at hvalue
    rcases hvalue with hnone | rfl
    · cases hnone
    · obtain ⟨j, hj⟩ := houtcomes (.ok runtime) (by rw [hmade]; simp)
      exact ⟨j, hj.symm⟩
  case once =>
    obtain ⟨value, ⟨errors, hmade⟩, -⟩ := hlawful.once
    exact ⟨errors, value, hmade⟩
  case last => exact fun runtime hruntime ↦ hinv.not_make hruntime
  case failed =>
    exact Once.Locked.forall_failed (P := fun i error ↦ discoverRuntime (process i) = .error error)
      (fun s i error hC ↦ (hC i _ rfl).symm) h
  case progress => exact hlawful.progress

/-- **All calls that succeed have one runtime**, which one of them has discovered, in any order of
their steps. What is discovered is what the first ART of the process says of its VM. -/
theorem obtainProcessRuntime_lawful (process : ι → Process)
    (s : Once.Locked ι RuntimeInner (DiscoveryError θ))
    (h : (Once.locked ι RuntimeInner (DiscoveryError θ)).ReachableVia (Discovers process) s) :
    Shared process s ∧ ∀ j runtime,
      (discoverRuntime (process j) : Except (DiscoveryError θ) _) = .ok runtime ↔
        Discovered (process j) runtime :=
  ⟨shared_of_reachable h, fun _ _ ↦ discoverRuntime_eq_ok_iff⟩

end

/-! ### Two calls -/

def artProcess : Process where
  modules := [⟨"libart.so", "/apex/com.android.art/lib64/libart.so", 0x7000, 0x1000,
    fun name ↦ if name = JNI_GET_CREATED_JAVA_VMS then some 0x7100 else none, fun _ ↦ none⟩]
  getCreatedJavaVms _ := ⟨JNI_OK, 0x1234, 1⟩

/-- Both calls find no runtime, and the second one gets the lock late. -/
def twoCalls : List (Once.Label Bool RuntimeInner (DiscoveryError Unit)) :=
  [.go false, .go true, .go false, .go false, .made false (discoverRuntime artProcess), .go false,
    .go true, .go true]

theorem along_twoCalls : (Once.locked Bool RuntimeInner (DiscoveryError Unit)).Along
    (Discovers fun _ ↦ artProcess) ⟨none, none, fun _ ↦ .look, []⟩ twoCalls := by
  apply Machine.along_of_forall
  intro l hl s i outcome hmade
  simp only [twoCalls, List.mem_cons, List.not_mem_nil, or_false] at hl
  rcases hl with rfl | rfl | rfl | rfl | rfl | rfl | rfl | rfl
  case inr.inr.inr.inr.inl => exact (Once.Label.made.inj hmade).2.symm
  all_goals cases hmade

theorem obtainProcessRuntime_twoCalls :
    ∃ s runtime, s.phase false = .done (.ok runtime) ∧ s.phase true = .done (.ok runtime) ∧
      Shared (fun _ ↦ artProcess) (s : Once.Locked Bool RuntimeInner (DiscoveryError Unit)) ∧
        Discovered artProcess runtime := by
  let s := ((Once.locked Bool RuntimeInner (DiscoveryError Unit)).run
    ⟨none, none, fun _ ↦ .look, []⟩ twoCalls).get rfl
  have h := obtainProcessRuntime_lawful (fun _ ↦ artProcess) s
    ⟨_, _, rfl, along_twoCalls, (Option.some_get _).symm⟩
  exact ⟨s, ⟨⟨0x1234, by decide⟩, _, none⟩, rfl, rfl, h.1, (h.2 false _).mp rfl⟩

end JavaBridge.Vm
