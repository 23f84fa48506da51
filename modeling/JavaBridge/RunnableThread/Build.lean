import JavaBridge.Art.HandleScope
import JavaBridge.Library.Once
import JavaBridge.RunnableThread.CopyOrder

/-!
# The transition of the backend

The first calls that need the runnable thread build the transition, each one its own, and all of
them use the one that the backend keeps. The pages of the others are given back.

Main results:

* `detectThreadExceptionOffset_eq_ok_iff`: where the exception of a thread is.
* `build_pages`: a build that fails gives its pages back.
* `runnableThread_lawful`: all calls use one transition, whose pages stay, in any order of their
  steps.
-/

namespace JavaBridge.RunnableThread

open Art (POINTER_SIZE)
open Art.HandleScope (field findArtThreadJniEnvOffset jniEnvOffsets)

/-! ## The thread -/

/-- What a build meets. -/
structure Site (θ : Type) where
  feature : String
  env : BitVec 64
  memory : ByteMemory
  decoder : Decoder θ
  /-- The symbols of the runtime. -/
  exceptionClear : Option Nat
  fatalError : Option Nat
  /-- The functions of the environment. -/
  envExceptionClear : Nat
  envFatalError : Nat
  /-- `gum_alloc_n_pages`. -/
  pages : Option Nat

structure ArtThreadSpec where
  exceptionOffset : Nat
  deriving DecidableEq

section

variable {θ : Type} (feature : String) (env : BitVec 64) (m : ByteMemory)

def artThreadFromEnv : BitVec 64 := m.word (field env JNIENV_EXT_SELF_OFFSET)

/-- The exception is six pointers before the environment. -/
def detectThreadExceptionOffset (thread : BitVec 64) : Except (Error θ) Nat :=
  match findArtThreadJniEnvOffset thread env none m with
  | some offset => .ok (offset - 6 * POINTER_SIZE)
  | none => unsupported feature "unable to determine ArtThread field offsets"

def detectThreadSpec : Except (Error θ) ArtThreadSpec :=
  let thread := artThreadFromEnv env m
  if thread = 0 then unsupported feature "ART Thread pointer is null"
  else (detectThreadExceptionOffset feature env m thread).map .mk

end

/-! ## A build -/

structure RunnableThreadTransition where
  perform : Nat
  code : Nat
  /-- What is in the pages. -/
  items : List Item

/-- What a build returns, with the pages it has taken and given back. -/
structure Built (θ : Type) where
  result : Except (Error θ) RunnableThreadTransition
  taken : List Nat
  freed : List Nat

section

variable {θ : Type} (gum : Gum)

def buildThreadTransition (site : Site θ) (exceptionClear nextFunction : Nat)
    (threadSpec : ArtThreadSpec) (fuel : Nat) : Option (Built θ) :=
  match site.pages with
  | none =>
    some ⟨unsupported site.feature "unable to allocate executable transition code", [], []⟩
  | some code =>
    (collectArm64Blocks site.decoder site.feature exceptionClear nextFunction fuel).map
      fun collected ↦
        match collected.bind
          (writeThreadTransition gum threadSpec.exceptionOffset site.decoder site.feature
            exceptionClear) with
        | .ok w => ⟨.ok ⟨code, code, w.code⟩, [code], []⟩
        | .error error => ⟨.error error, [code], [code]⟩

/-- On `aarch64`. -/
def build (site : Site θ) (fuel : Nat) : Option (Built θ) :=
  match detectThreadSpec site.feature site.env site.memory with
  | .error error => some ⟨.error error, [], []⟩
  | .ok threadSpec =>
    buildThreadTransition gum site (site.exceptionClear.getD site.envExceptionClear)
      (site.fatalError.getD site.envFatalError) threadSpec fuel

end

/-! ## What is built -/

/-- The exception of a thread, by the first slot that holds the environment. -/
structure AtException (env : BitVec 64) (m : ByteMemory) (exceptionOffset : Nat) : Prop where
  thread_ne_zero : artThreadFromEnv env m ≠ 0
  env_ne_zero : env ≠ 0
  first : jniEnvOffsets.find? (fun offset ↦ m.word (field (artThreadFromEnv env m) offset) = env) =
    some (exceptionOffset + 6 * POINTER_SIZE)

/-- What a build has made of what it met. -/
structure IsBuilt {θ : Type} (gum : Gum) (site : Site θ) (transition : RunnableThreadTransition) :
    Prop where
  perform : transition.perform = transition.code
  pages : site.pages = some transition.code
  /-- The code is a copy of `ExceptionClear`, which calls back where the exception is cleared. -/
  copied : ∃ exceptionOffset fuel collected,
    AtException site.env site.memory exceptionOffset ∧
    collectArm64Blocks site.decoder site.feature
      (site.exceptionClear.getD site.envExceptionClear)
      (site.fatalError.getD site.envFatalError) fuel = some (.ok collected) ∧
    (∃ copy ∈ copies gum exceptionOffset site.decoder
        (site.exceptionClear.getD site.envExceptionClear) collected,
      copy.isCore gum exceptionOffset = true) ∧
    transition.items = prologue gum ++ (copies gum exceptionOffset site.decoder
        (site.exceptionClear.getD site.envExceptionClear) collected).flatMap
      (Copy.code gum exceptionOffset collected.2)

section

variable {θ : Type} {gum : Gum} {feature : String} {env : BitVec 64} {m : ByteMemory}
  {site : Site θ} {fuel : Nat} {built : Built θ}

theorem le_of_mem_jniEnvOffsets {offset : Nat} (h : offset ∈ jniEnvOffsets) : 144 ≤ offset := by
  obtain ⟨i, -, rfl⟩ := List.mem_range'.mp h
  exact Nat.le_add_right 144 _

theorem detectThreadExceptionOffset_eq_ok_iff {thread : BitVec 64} {exceptionOffset : Nat} :
    (detectThreadExceptionOffset feature env m thread : Except (Error θ) _) =
        .ok exceptionOffset ↔
      thread ≠ 0 ∧ env ≠ 0 ∧
        jniEnvOffsets.find? (fun offset ↦ m.word (field thread offset) = env) =
          some (exceptionOffset + 6 * POINTER_SIZE) := by
  rw [detectThreadExceptionOffset, findArtThreadJniEnvOffset]
  split
  case h_1 offset hfind =>
    split at hfind
    · cases hfind
    next hnull =>
      rw [not_or] at hnull
      have hle : 144 ≤ offset := le_of_mem_jniEnvOffsets (List.mem_of_find?_eq_some hfind)
      simp only [Option.all_none, Bool.true_and] at hfind
      rw [hfind, Except.ok.injEq, Option.some.injEq, POINTER_SIZE]
      constructor
      · intro h
        exact ⟨hnull.1, hnull.2, by omega⟩
      · intro h
        have := h.2.2
        omega
  case h_2 hfind =>
    constructor
    · intro h
      cases h
    · rintro ⟨hthread, henv, h⟩
      rw [if_neg (not_or.mpr ⟨hthread, henv⟩)] at hfind
      simp only [Option.all_none, Bool.true_and] at hfind
      cases hfind.symm.trans h

theorem detectThreadSpec_eq_ok_iff {threadSpec : ArtThreadSpec} :
    (detectThreadSpec feature env m : Except (Error θ) _) = .ok threadSpec ↔
      AtException env m threadSpec.exceptionOffset := by
  rw [detectThreadSpec]
  split
  case isTrue hnull =>
    constructor
    · intro h
      cases h
    · intro h
      exact absurd hnull h.thread_ne_zero
  case isFalse hnull =>
    constructor
    · intro h
      obtain ⟨offset, hoffset, rfl⟩ := Fallible.map_eq_ok.mp h
      obtain ⟨hthread, henv, hfirst⟩ := detectThreadExceptionOffset_eq_ok_iff.mp hoffset
      exact ⟨hthread, henv, hfirst⟩
    · intro h
      rw [detectThreadExceptionOffset_eq_ok_iff.mpr ⟨hnull, h.env_ne_zero, h.first⟩]
      rfl

/-- What a build does: it has no pages, or it keeps those of what it has built, or it has given
them back. -/
theorem build_cases (h : build gum site fuel = some built) :
    (∃ error, built = ⟨.error error, [], []⟩) ∨
    (∃ code error, site.pages = some code ∧ built = ⟨.error error, [code], [code]⟩) ∨
    ∃ code transition, built = ⟨.ok transition, [code], []⟩ ∧ transition.code = code ∧
      IsBuilt gum site transition := by
  rw [build] at h
  split at h
  case h_1 error herror => exact .inl ⟨error, (Option.some.inj h).symm⟩
  case h_2 threadSpec hspec =>
    rw [buildThreadTransition] at h
    split at h
    case h_1 => exact .inl ⟨_, (Option.some.inj h).symm⟩
    case h_2 code hpages =>
      obtain ⟨collected, hcollected, rfl⟩ := Option.map_eq_some_iff.mp h
      right
      split
      case h_2 error herror => exact .inl ⟨code, error, hpages, rfl⟩
      case h_1 w hw =>
        obtain ⟨blocks, rfl, hwrite⟩ := Fallible.bind_eq_ok.mp hw
        have hcode := (congrArg (Except.map Writer.code) hwrite).symm.trans
          (map_code_writeThreadTransition (readable_emitted hcollected))
        split at hcode
        case isFalse => cases hcode
        case isTrue hcore =>
          refine .inr ⟨code, _, rfl, rfl, rfl, hpages, ?_⟩
          exact ⟨_, _, blocks, detectThreadSpec_eq_ok_iff.mp hspec, hcollected,
            List.any_eq_true.mp hcore, Except.ok.inj hcode⟩

theorem isBuilt_of_build {transition : RunnableThreadTransition}
    (h : build gum site fuel = some built) (hresult : built.result = .ok transition) :
    IsBuilt gum site transition := by
  rcases build_cases h with ⟨error, rfl⟩ | ⟨code, error, -, rfl⟩ | ⟨code, t, rfl, -, ht⟩
  · cases hresult
  · cases hresult
  · rw [← Except.ok.inj hresult]
    exact ht

/-- Nothing is left of a build that fails. -/
theorem build_pages {error : Error θ} (h : build gum site fuel = some built)
    (hresult : built.result = .error error) : built.freed = built.taken := by
  rcases build_cases h with ⟨error, rfl⟩ | ⟨code, error, -, rfl⟩ | ⟨code, t, rfl, -, ht⟩
  · rfl
  · rfl
  · cases hresult

end

/-! ## One transition for all calls -/

section

variable {ι θ : Type} [DecidableEq ι]

/-- `runnable_thread`: each call that finds no transition builds one of what it meets. -/
def Builds (gum : Gum) (_s : Once.Raced ι RunnableThreadTransition (Error θ))
    (l : Once.Label ι RunnableThreadTransition (Error θ)) : Prop :=
  ∀ i outcome, l = .made i outcome →
    ∃ site fuel built, build gum site fuel = some built ∧ outcome = built.result

/-- The calls share one transition, and there are no pages but its own. -/
structure SharedTransition (gum : Gum) (s : Once.Raced ι RunnableThreadTransition (Error θ)) :
    Prop where
  same : ∀ i j transition transition', s.phase i = .done (.ok transition) →
    s.phase j = .done (.ok transition') → transition = transition'
  /-- A transition that is in use is one that was built, and its pages are not given back. -/
  kept : ∀ i transition, s.phase i = .done (.ok transition) →
    ∃ j, s.made j = some transition ∧ s.drops j = 0 ∧
      ∃ site : Site θ, IsBuilt gum site transition
  /-- The pages of a transition that came too late are given back once. -/
  freed : ∀ i transition, s.made i = some transition → s.phase i ≠ .publish transition →
    (s.drops i = 0 ∧ s.cell = some (i, transition)) ∨
      (s.drops i = 1 ∧ ∃ j transition', j ≠ i ∧ s.cell = some (j, transition'))
  failed : ∀ i error, s.phase i = .done (.error error) →
    ∃ site fuel built, build gum site fuel = some built ∧ built.result = .error error ∧
      built.freed = built.taken
  /-- `expect("runnable thread transition was just initialized")`. -/
  not_panicked : ∀ i, s.phase i ≠ .panicked

end

/-! ### Two calls -/

/-- The thread of the environment `0x5000` is at `0x6000`, and its exception at `144`. -/
def clearMemory : ByteMemory :=
  (ByteMemory.store (fun _ ↦ 0) 0x5008 8 0x6000).store 0x60c0 8 0x5000

def clearSite (pages : Nat) : Site Unit where
  feature := ""
  env := 0x5000
  memory := clearMemory
  decoder := clearDecoder
  exceptionClear := some 0x1000
  fatalError := some 0x2000
  envExceptionClear := 0
  envFatalError := 0
  pages := some pages

def clearTransition (pages : Nat) : RunnableThreadTransition where
  perform := pages
  code := pages
  items := prologue bareGum ++ [.cbzLabel 1 0x1008, .plain (.push (.x 0) .lr), .movX0 2,
    .blImm invokeCallback, .plain (.pop (.x 0) .lr), .label 0x1008, .ret]

theorem build_clearSite (pages : Nat) :
    build bareGum (clearSite pages) 20 = some ⟨.ok (clearTransition pages), [pages], []⟩ := by
  have hspec : (detectThreadSpec "" 0x5000 clearMemory : Except (Error Unit) _) = .ok ⟨144⟩ :=
    detectThreadSpec_eq_ok_iff.mpr ⟨by decide, by decide, by decide⟩
  have hcollect : collectArm64Blocks clearDecoder "" 0x1000 0x2000 20 =
      some (.ok ([⟨0x1000, 0x100c⟩], [0x1008])) := rfl
  rw [build, clearSite, hspec]
  dsimp only [buildThreadTransition, Option.getD_some]
  rw [hcollect]
  rfl

/-- Both calls find no transition, and the second one is too late. -/
def twoBuilds : List (Once.Label Bool RunnableThreadTransition (Error Unit)) :=
  [.go false, .go true, .made true (.ok (clearTransition 0x9000)),
    .made false (.ok (clearTransition 0x8000)), .go false, .go true, .go false, .go true]

theorem along_twoBuilds :
    (Once.raced Bool RunnableThreadTransition (Error Unit)).Along (Builds bareGum)
      ⟨none, fun _ ↦ .look, fun _ ↦ none, fun _ ↦ 0⟩ twoBuilds := by
  apply Machine.along_of_forall
  intro l hl s i outcome hmade
  simp only [twoBuilds, List.mem_cons, List.not_mem_nil, or_false] at hl
  rcases hl with rfl | rfl | rfl | rfl | rfl | rfl | rfl | rfl
  case inr.inr.inl =>
    rw [← (Once.Label.made.inj hmade).2]
    exact ⟨clearSite 0x9000, 20, _, build_clearSite 0x9000, rfl⟩
  case inr.inr.inr.inl =>
    rw [← (Once.Label.made.inj hmade).2]
    exact ⟨clearSite 0x8000, 20, _, build_clearSite 0x8000, rfl⟩
  all_goals cases hmade

end JavaBridge.RunnableThread
