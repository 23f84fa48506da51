import JavaBridge.Art.MethodQuery
import Mathlib.Algebra.Order.BigOperators.Group.List
import Mathlib.Algebra.Order.Ring.Nat

/-!
# References that an enumeration leaves

Each entry point hands out references, or fails. The two that keep theirs in the state of the walk
delete them when they fail; the class loaders and the loaded classes drop the vector, whose elements
are plain pointers. A check that finds a pending exception makes a reference to it, which the error
carries, and forgets the one that has just been granted.

Main results:

* `wp_enumerateClassLoaderHandles`, `wp_enumerateLoadedClassHandles`: what a walk that is cut short
  leaves.
* `conserves_iff`: when an entry point leaves the references that it hands out, and no others.
-/

namespace JavaBridge.Art

variable {θ R : Type}

/-! ## Entry points -/

/-- A call of an entry point, with what the runtime answers to it. -/
inductive EntryPoint (θ : Type)
  | classLoaders (prepared : Prepared θ) (visited : List (BitVec 64))
  | loadedClasses (prepared : Prepared θ) (visited : List (BitVec 64))
  | methods (formats : Formats θ) (query : MethodQuery) (answers : QueryAnswers θ)
  | heapInstances (answers : HeapAnswers θ)

/-- The call, and the references that it hands out. -/
def EntryPoint.call [DecidableEq R] (art : ArtRuntime θ R) :
    EntryPoint θ → EStateM (Error θ) (GlobalRefs R) (List R)
  | .classLoaders prepared visited => do
    let handles ← enumerateClassLoaderHandles art prepared visited
    pure (handles.map (·.raw))
  | .loadedClasses prepared visited => do
    let handles ← enumerateLoadedClassHandles art prepared visited
    pure (handles.map (·.raw))
  | .methods formats query answers => do
    let groups ← enumerateMethods formats art query answers
    pure (groups.filterMap (·.loader))
  | .heapInstances answers => do
    let instances ← enumerateHeapInstanceHandles art answers
    pure (instances.filterMap (·.raw))

/-- The references that were made and are alive are those that were handed out. -/
def Conserves (x : EStateM (Error θ) (GlobalRefs R) (List R)) (s : GlobalRefs R) : Prop :=
  Fallible.wp x (fun handed t ↦ t.live.map Prod.fst = s.live.map Prod.fst ++ handed)
    (fun _ t ↦ t.live = s.live) s

/-- Every object can be promoted, or else the first cannot. -/
def AllOrNone (P : Nat → BitVec 64 → Prop) (start : Nat) (objects : List (BitVec 64)) : Prop :=
  AllFrom P start objects ∨ ∃ object, objects.head? = some object ∧ ¬P start object

/-- When the call leaves nothing that it does not hand out; `calls` is how often a reference has
been asked for before. -/
def EntryPoint.IsClean (art : ArtRuntime θ R) (calls : Nat) : EntryPoint θ → Prop
  | .classLoaders prepared visited =>
    prepared = .ok () → AllOrNone (Granted art) calls (visited.filter (· ≠ 0))
  | .loadedClasses prepared visited =>
    prepared = .ok () → AllOrNone (Promotable art) calls (newClasses [] visited)
  | .methods _ _ answers => answers.PreparesCleanly art calls
  | .heapInstances answers => answers.prepared = .ok () → answers.PromotesCleanly art calls

/-! ## What a walk leaves -/

section

variable {art : ArtRuntime θ R} {s t : GlobalRefs R} {created : List (R × BitVec 64)}
  {P : Nat → BitVec 64 → Prop} {objects : List (BitVec 64)}

/-- A walk is cut short only at an object that cannot be promoted. -/
theorem CutShort.not_allFrom (h : CutShort P objects s t created) : ¬AllFrom P s.calls objects := by
  obtain ⟨object, rest, rfl, -, hcut, -⟩ := h
  generalize s.calls = start at hcut
  induction created generalizing start with
  | nil => exact fun h ↦ hcut h.1
  | cons ref created ih =>
    intro h
    refine ih (start + 1) ?_ h.2
    rwa [Nat.add_assoc, Nat.add_comm 1]

/-- A walk that is cut short is clean only where it had made nothing. -/
theorem CutShort.allOrNone_iff (h : CutShort P objects s t created) :
    AllOrNone P s.calls objects ↔ created = [] := by
  have hnot := h.not_allFrom
  obtain ⟨object, rest, rfl, hall, hcut, -⟩ := h
  constructor
  · rintro (h | ⟨first, hfirst, hP⟩)
    · exact absurd h hnot
    · cases created with
      | nil => rfl
      | cons ref made =>
        obtain rfl := Option.some.inj hfirst
        exact absurd hall.1 hP
  · rintro rfl
    exact .inr ⟨object, rfl, hcut⟩

theorem Extends.live_eq_iff (h : Extends s t created) : t.live = s.live ↔ created = [] := by
  rw [h.live, List.append_right_eq_self]

/-- What a walk leaves, with the references of `handed` where it goes through. -/
theorem wp_of_walk {α : Type} {x : EStateM (Error θ) (GlobalRefs R) α} {handed : α → List R}
    (h : Fallible.wp x
      (fun a t ↦ ∃ created, WentThrough P objects s t created ∧ handed a = created.map Prod.fst)
      (fun _ t ↦ ∃ created, CutShort P objects s t created) s) :
    Conserves (do let a ← x; pure (handed a)) s ↔ AllOrNone P s.calls objects := by
  rw [Conserves, Fallible.wp_bind]
  rw [Fallible.wp] at h ⊢
  split at h
  · next a t _ =>
    obtain ⟨created, ⟨hall, hextends, -⟩, hhanded⟩ := h
    refine iff_of_true ?_ (.inl hall)
    show t.live.map Prod.fst = s.live.map Prod.fst ++ handed a
    rw [hextends.live, List.map_append, hhanded]
  · next e t _ =>
    obtain ⟨created, hcut⟩ := h
    rw [hcut.allOrNone_iff]
    obtain ⟨-, -, -, -, -, hextends⟩ := hcut
    exact hextends.live_eq_iff

/-- A call that leaves nothing where `C` holds, with the references of `handed` where it succeeds. -/
theorem wp_of_leaves {α : Type} {C : Prop} {x : EStateM (Error θ) (GlobalRefs R) α}
    {handed : α → List R}
    (h : Fallible.wp x (fun a t ↦ C ∧ t.live.map Prod.fst = s.live.map Prod.fst ++ handed a)
      (fun _ t ↦ Leaves C s t) s) :
    Conserves (do let a ← x; pure (handed a)) s ↔ C := by
  rw [Conserves, Fallible.wp_bind]
  rw [Fallible.wp] at h ⊢
  split at h
  · exact iff_of_true h.2 h.1
  · obtain ⟨created, hextends, hC⟩ := h
    exact hextends.live_eq_iff.trans hC

/-! ## The entry points -/

theorem wp_enumerateClassLoaderHandles (visited : List (BitVec 64)) :
    Fallible.wp (enumerateClassLoaderHandles art (.ok ()) visited)
      (fun handles t ↦ ∃ created,
        WentThrough (Granted art) (visited.filter (· ≠ 0)) s t created ∧
          handles.map (·.raw) = created.map Prod.fst)
      (fun _ t ↦ ∃ created, CutShort (Granted art) (visited.filter (· ≠ 0)) s t created) s := by
  rw [enumerateClassLoaderHandles, Fallible.wp_bind]
  show Fallible.wp (do let globals ← promoteLoaders art [] _; pure (globals.map _)) _ _ s
  rw [Fallible.wp_bind]
  refine Fallible.wp_mono (wp_promoteLoaders [] _) ?_ fun _ _ h ↦ h
  rintro globals t ⟨created, hthrough, rfl⟩
  refine ⟨created, hthrough, ?_⟩
  rw [List.map_map, List.nil_append]
  exact List.map_id _

theorem wp_enumerateLoadedClassHandles (art : ArtRuntime θ R) (visited : List (BitVec 64))
    (s : GlobalRefs R) :
    Fallible.wp (enumerateLoadedClassHandles art (.ok ()) visited)
      (fun handles t ↦ ∃ created, WentThrough (Promotable art) (newClasses [] visited) s t created ∧
        handles.map (·.raw) = created.map Prod.fst)
      (fun _ t ↦ ∃ created, CutShort (Promotable art) (newClasses [] visited) s t created) s := by
  have hwalk := visitUntil_class art visited [] [] s
  rw [enumerateLoadedClassHandles, Fallible.wp_bind]
  show Fallible.wp (do
    set (visitUntil (ArtClassProcessor.visit art) visited (⟨[], [], none⟩, s)).2
    _) _ _ s
  generalize visitUntil (ArtClassProcessor.visit art) visited (⟨[], [], none⟩, s) = r at hwalk ⊢
  obtain ⟨⟨seen, classes, error⟩, t⟩ := r
  rw [Fallible.wp_bind]
  show Fallible.wp _ _ _ t
  obtain ⟨created, ⟨hthrough, rfl, hclasses⟩ | ⟨hcut, herror⟩⟩ := hwalk
  · exact ⟨created, hthrough, hclasses⟩
  · cases error with
    | none => exact absurd rfl herror
    | some error => exact ⟨created, hcut⟩

theorem conserves_of_error [DecidableEq R] {e : Error θ} {visited : List (BitVec 64)} :
    Conserves ((EntryPoint.classLoaders (.error e) visited).call art) s ∧
      Conserves ((EntryPoint.loadedClasses (.error e) visited).call art) s :=
  ⟨rfl, rfl⟩

/-- A call leaves the references that it hands out and no others exactly where it is clean. -/
theorem conserves_iff [DecidableEq R] (art : ArtRuntime θ R) (entry : EntryPoint θ)
    (s : GlobalRefs R) : Conserves (entry.call art) s ↔ entry.IsClean art s.calls := by
  cases entry with
  | classLoaders prepared visited =>
    cases prepared with
    | error e => exact iff_of_true conserves_of_error.1 nofun
    | ok =>
      rw [EntryPoint.IsClean, forall_prop_of_true rfl]
      exact wp_of_walk (wp_enumerateClassLoaderHandles visited)
  | loadedClasses prepared visited =>
    cases prepared with
    | error e => exact iff_of_true conserves_of_error.2 nofun
    | ok =>
      rw [EntryPoint.IsClean, forall_prop_of_true rfl]
      exact wp_of_walk (wp_enumerateLoadedClassHandles art visited s)
  | methods formats query answers =>
    exact wp_of_leaves (wp_enumerateMethods answers s)
  | heapInstances answers =>
    refine wp_of_leaves (Fallible.wp_mono (wp_enumerateHeapInstanceHandles answers s) ?_ fun _ _ h ↦ h)
    exact fun _ _ h ↦ ⟨fun _ ↦ h.1, h.2⟩

end

/-! ## Calls that are not clean -/

/-- References are numbers, and so are throwables; the second request is refused. -/
def secondRefused : ArtRuntime Nat Nat where
  memory := ⟨[]⟩
  contents := fun _ ↦ 0
  references := {
    refused := fun request ↦ request = 1
    pending := fun _ ↦ none
    fresh := fun live ↦ ⟨(live.map Prod.fst).sum + 1, fun hmem ↦
      absurd (List.le_sum_of_mem hmem) (Nat.not_le.2 (Nat.lt_succ_self _))⟩
    throwable := id }
  getClassDescriptor := fun _ ↦ none
  prettyMethod := fun _ _ ↦ ⟨0, 0, 0⟩
  chars := fun _ ↦ []

def plainFormats : Formats Nat := ⟨fun _ ↦ "", id⟩

/-- Two classes of the loader `0x6000`: the class at `0x1000` declares the method `0x3008`, and the
class at `0x2000` the method `0x4008`. -/
def twoHolders : ArtRuntime Nat Nat :=
  { secondRefused with
    memory := ⟨[⟨0x1000, 0x5000, true, false⟩]⟩
    contents := fun address ↦
      match address.toNat with
      -- the loader of a class, its array of methods and how many of these are not copied
      | 0x1009 => 0x60
      | 0x1011 => 0x30
      | 0x1018 => 1
      | 0x2009 => 0x60
      | 0x2011 => 0x40
      | 0x2018 => 1
      -- the lengths of the arrays
      | 0x3000 => 1
      | 0x4000 => 1
      | _ => 0
    references := { secondRefused.references with refused := fun _ ↦ false } }

/-- An exception is pending when the first reference is asked for. -/
def firstPending : ArtRuntime Nat Nat :=
  { secondRefused with
    contents := fun address ↦ if address = 0x1000 then 0x20 else 0
    references := { secondRefused.references with
      refused := fun _ ↦ false
      pending := fun request ↦ if request = 0 then some ⟨0x5000, "java.lang.Error"⟩ else none } }

/-- The heap has one instance, `0x20`, and its handle is at `0x1000`. -/
def oneHandle : HeapAnswers Nat where
  prepared := .ok ()
  decodeGlobal := some 16
  visitObjects := none
  getInstances := some [0x1000]
  scope := .ok ()
  attached := .ok ()

/-- The reference to the first loader is left. So is one to the instance, and one to the exception that
was pending. -/
theorem not_conserves :
    ¬Conserves ((EntryPoint.classLoaders (.ok ()) [0x1000, 0x2000]).call secondRefused) ⟨[], 0⟩ ∧
      ¬Conserves ((EntryPoint.heapInstances oneHandle).call firstPending) ⟨[], 0⟩ := by
  constructor
  · intro h
    have hrun : (EntryPoint.classLoaders (.ok ()) [0x1000, 0x2000]).call secondRefused ⟨[], 0⟩ =
        .error (.nullReturn "JavaVMExt::AddGlobalRef") ⟨[(1, 0x1000)], 2⟩ := rfl
    rw [Conserves, Fallible.wp, hrun] at h
    cases h
  · intro h
    have hrun : (EntryPoint.heapInstances oneHandle).call firstPending ⟨[], 0⟩ =
        .error (.javaException "JNIEnv::NewGlobalRef" "java.lang.Error" (some 2))
          ⟨[(1, 0x20), (2, 0x5000)], 2⟩ := rfl
    rw [Conserves, Fallible.wp, hrun] at h
    cases h

end JavaBridge.Art
