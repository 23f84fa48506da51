import JavaBridge.Art.Dispatch
import JavaBridge.Art.References

/-!
# Completeness of the enumeration of instances

The instances of a class are found by a visitor of the heap, which has no way to fail, or else in a
vector of handles that the runtime fills. Both are compared with the live objects of the heap.

Main results:

* `collected_visitHeapObjects`: the visitor collects the objects whose reference was granted.
* `collected_promoteHandles`: the loop over the handles collects all objects, or fails.
* `enumeratesInstances_iff`: when an enumeration that succeeds has a reference for every instance.
-/

namespace JavaBridge.Art

open Fallible

variable {θ R : Type}

/-! ## The heap -/

/-- The live objects. -/
structure Heap where
  objects : List (BitVec 64)
  nodup : objects.Nodup
  ne_null : 0 ∉ objects

/-- The live objects whose class reference is the given one. -/
def Heap.instancesOf (heap : Heap) (art : ArtRuntime θ R) (needle : BitVec 32) :
    List (BitVec 64) :=
  heap.objects.filter fun object ↦ objectClassReference art object = needle

/-- The place of a reference to the object. -/
def HandleOf (art : ArtRuntime θ R) (handle object : BitVec 64) : Prop :=
  handle ≠ 0 ∧ BitVec.ofNat 64 (art.contents.load handle 4) = object

/-- The begin and the end of a `std::vector`, and the end of its storage. -/
structure ArtHandleVector where
  first : BitVec 64
  last : BitVec 64
  limit : BitVec 64

namespace ArtHandleVector

variable (vector : ArtHandleVector) (contents : ByteMemory)

def handles : List (BitVec 64) :=
  if vector.first = 0 ∨ vector.last = 0 ∨ vector.last.toNat < vector.first.toNat then []
  else
    let count := (vector.last.toNat - vector.first.toNat) / POINTER_SIZE
    (List.range count).map fun index ↦
      contents.word (vector.first + BitVec.ofNat 64 (POINTER_SIZE * index))

/-- The vector has these elements. -/
structure Holds (elements : List (BitVec 64)) : Prop where
  allocated : elements ≠ [] → vector.first ≠ 0
  last_eq : vector.last.toNat = vector.first.toNat + POINTER_SIZE * elements.length
  word_eq : ∀ (index : Nat) (h : index < elements.length),
    contents.word (vector.first + BitVec.ofNat 64 (POINTER_SIZE * index)) = elements[index]

variable {vector contents}

/-- What the runtime has filled in is read back. -/
theorem Holds.handles_eq {elements : List (BitVec 64)} (h : vector.Holds contents elements) :
    vector.handles contents = elements := by
  have hpointer : 0 < POINTER_SIZE := Nat.succ_pos 7
  rw [handles]
  split
  · next hempty =>
    by_contra hne
    have hfirst := h.allocated fun hnil ↦ hne hnil.symm
    have hlast := h.last_eq
    rcases hempty with hnull | hnull | hlt
    · exact hfirst hnull
    · rw [hnull] at hlast
      exact hfirst (BitVec.eq_of_toNat_eq (Nat.eq_zero_of_add_eq_zero_right hlast.symm))
    · rw [hlast] at hlt
      exact absurd hlt (Nat.not_lt.2 (Nat.le_add_right _ _))
  · have hcount : (vector.last.toNat - vector.first.toNat) / POINTER_SIZE = elements.length := by
      rw [h.last_eq, Nat.add_sub_cancel_left, Nat.mul_div_cancel_left _ hpointer]
    rw [hcount]
    apply List.ext_getElem
    · rw [List.length_map, List.length_range]
    · intro index _ hindex
      rw [List.getElem_map, List.getElem_range]
      exact h.word_eq index hindex

end ArtHandleVector

/-- The walks of the runtime are walks over the heap. -/
structure WalksHeap (art : ArtRuntime θ R) (heap : Heap) (answers : HeapAnswers θ) : Prop where
  /-- `Heap::VisitObjects` visits every live object once. -/
  visitObjects : ∀ objects, answers.visitObjects = some objects → objects.Perm heap.objects
  /-- `Heap::GetInstances` fills its vector with one handle for every object of the class. -/
  getInstances : ∀ handles needle, answers.getInstances = some handles →
    decodeGlobalObjectReference answers = .ok needle →
    ∃ (vector : ArtHandleVector) (filled objects : List (BitVec 64)),
      handles = vector.handles art.contents ∧ vector.Holds art.contents filled ∧
        List.Forall₂ (HandleOf art) filled objects ∧
        objects.Perm (heap.instancesOf art needle)

/-! ## What is claimed of an enumeration -/

/-- The instances are new references to the objects, one for each. -/
def OnePerObject (objects : List (BitVec 64)) (instances : List (ArtHeapInstanceHandle R))
    (s t : GlobalRefs R) : Prop :=
  ∃ created, Extends s t created ∧ (created.map Prod.fst).Nodup ∧
    instances = created.map (fun ref ↦ ⟨some ref.1⟩) ∧ (created.map Prod.snd).Perm objects

/-- The next `count` requests are granted. -/
def NextGranted (art : ArtRuntime θ R) (calls count : Nat) : Prop :=
  ∀ request < count, art.references.refused (calls + request) = false

/-- An enumeration that succeeds has one reference for each instance, and none was refused. -/
def EnumeratesInstances [DecidableEq R] (art : ArtRuntime θ R) (heap : Heap)
    (answers : HeapAnswers θ) (s : GlobalRefs R) : Prop :=
  wp (enumerateHeapInstanceHandles art answers)
    (fun instances t ↦ ∃ needle, decodeGlobalObjectReference answers = .ok needle ∧
      OnePerObject (heap.instancesOf art needle) instances s t ∧
      NextGranted art s.calls (heap.instancesOf art needle).length)
    (fun _ _ ↦ True) s

/-! ## Collecting -/

section

variable {art : ArtRuntime θ R} {s t u : HeapQuery R} {objects : List (BitVec 64)}

/-- The references to these objects, made since `s`, have been collected. -/
def Collected (objects : List (BitVec 64)) (s t : HeapQuery R) : Prop :=
  ∃ created, Extends s.refs t.refs created ∧ (created.map Prod.fst).Nodup ∧
    t.instances = s.instances ++ created.map (fun ref ↦ ⟨some ref.1⟩) ∧
    created.map Prod.snd = objects

theorem Collected.of_live (hlive : t.refs.live = s.refs.live) (h : t.instances = s.instances) :
    Collected [] s t :=
  ⟨[], ⟨by rw [hlive, List.append_nil], nofun⟩, .nil, by rw [h, List.map_nil, List.append_nil],
    rfl⟩

/-- Nothing is collected from a request that is refused. -/
theorem Collected.refused (hlive : t.refs.live = s.refs.live) (h : t.instances = s.instances)
    (hrest : Collected objects t u) : Collected objects s u := by
  obtain ⟨created, hextends, hnodup, hinstances, hobjects⟩ := hrest
  refine ⟨created, ⟨?_, ?_⟩, hnodup, ?_, hobjects⟩
  · rw [hextends.live, hlive]
  · rw [← hlive]
    exact hextends.fresh
  · rw [hinstances, h]

/-- A new reference is collected, and then others. -/
theorem Collected.cons {raw : R} {object : BitVec 64} {refs : GlobalRefs R}
    (hnew : Extends s.refs refs [(raw, object)])
    (hrest : Collected objects (HeapQuery.push (some raw) { s with refs := refs }) t) :
    Collected (object :: objects) s t := by
  obtain ⟨created, hextends, hnodup, hinstances, rfl⟩ := hrest
  refine ⟨(raw, object) :: created, hnew.trans hextends, ?_, ?_, rfl⟩
  · rw [List.map_cons, List.nodup_cons]
    refine ⟨fun hmem ↦ hextends.fresh raw hmem ?_, hnodup⟩
    show raw ∈ refs.live.map Prod.fst
    rw [hnew.live, List.map_append]
    exact List.mem_append_right _ List.mem_cons_self
  · rw [hinstances, List.map_cons]
    exact List.append_assoc s.instances [⟨some raw⟩] _

/-- What is collected from nothing. -/
theorem Collected.onePerObject {refs : GlobalRefs R} (h : Collected objects ⟨[], refs⟩ t)
    {instances : List (BitVec 64)} (hperm : objects.Perm instances) :
    OnePerObject instances t.instances refs t.refs := by
  obtain ⟨created, hextends, hnodup, hinstances, rfl⟩ := h
  exact ⟨created, hextends, hnodup, hinstances, hperm⟩

/-- As many references as instances were collected. -/
theorem Collected.length_eq {refs : GlobalRefs R} (h : Collected objects ⟨[], refs⟩ t) :
    t.instances.length = objects.length := by
  obtain ⟨created, -, -, hinstances, rfl⟩ := h
  rw [hinstances, List.nil_append, List.length_map, List.length_map]

theorem OnePerObject.length_eq {instances : List (ArtHeapInstanceHandle R)} {s t : GlobalRefs R}
    (h : OnePerObject objects instances s t) : instances.length = objects.length := by
  obtain ⟨created, -, -, rfl, hperm⟩ := h
  rw [List.length_map, ← hperm.length_eq, List.length_map]

/-! ### Requests -/

/-- The objects whose requests are granted, where `request` is the number of the first. -/
def grantedFrom (art : ArtRuntime θ R) : Nat → List (BitVec 64) → List (BitVec 64)
  | _, [] => []
  | request, object :: objects =>
    if art.references.refused request = true then grantedFrom art (request + 1) objects
    else object :: grantedFrom art (request + 1) objects

theorem nextGranted_zero (art : ArtRuntime θ R) (calls : Nat) : NextGranted art calls 0 := nofun

theorem nextGranted_succ {calls count : Nat} :
    NextGranted art calls (count + 1) ↔
      art.references.refused calls = false ∧ NextGranted art (calls + 1) count := by
  constructor
  · intro h
    refine ⟨h 0 (Nat.succ_pos count), ?_⟩
    intro request hrequest
    rw [Nat.add_assoc, Nat.add_comm 1]
    exact h (request + 1) (Nat.succ_lt_succ hrequest)
  · rintro ⟨hfirst, hrest⟩ request hrequest
    cases request with
    | zero => exact hfirst
    | succ request =>
      rw [← Nat.add_assoc, Nat.add_right_comm]
      exact hrest request (Nat.lt_of_succ_lt_succ hrequest)

theorem length_grantedFrom_le (request : Nat) (objects : List (BitVec 64)) :
    (grantedFrom art request objects).length ≤ objects.length := by
  induction objects generalizing request with
  | nil => exact Nat.le_refl 0
  | cons object objects ih =>
    rw [grantedFrom]
    split
    · exact Nat.le_succ_of_le (ih (request + 1))
    · exact Nat.succ_le_succ (ih (request + 1))

/-- Nothing is missing exactly where every request is granted. -/
theorem length_grantedFrom_eq_iff (request : Nat) (objects : List (BitVec 64)) :
    (grantedFrom art request objects).length = objects.length ↔
      NextGranted art request objects.length := by
  induction objects generalizing request with
  | nil => exact iff_of_true rfl (nextGranted_zero art request)
  | cons object objects ih =>
    rw [grantedFrom, List.length_cons, nextGranted_succ]
    split
    · next hrefused =>
      refine iff_of_false ?_ fun h ↦ absurd (hrefused.symm.trans h.1) Bool.noConfusion
      exact Nat.ne_of_lt (Nat.lt_succ_of_le (length_grantedFrom_le (request + 1) objects))
    · next hgranted =>
      rw [List.length_cons, Nat.add_right_cancel_iff, ih, eq_false_of_ne_true hgranted]
      exact (and_iff_right rfl).symm

theorem grantedFrom_eq_self {request : Nat} {objects : List (BitVec 64)}
    (h : NextGranted art request objects.length) : grantedFrom art request objects = objects := by
  induction objects generalizing request with
  | nil => rfl
  | cons object objects ih =>
    obtain ⟨hgranted, hrest⟩ := nextGranted_succ.1 h
    rw [grantedFrom, if_neg (ne_true_of_eq_false hgranted), ih hrest]

/-! ### The visitor -/

/-- The instances among the objects that a walk visits. -/
def matching (art : ArtRuntime θ R) (needle : BitVec 32) (objects : List (BitVec 64)) :
    List (BitVec 64) :=
  objects.filter fun object ↦ object ≠ 0 ∧ objectClassReference art object = needle

/-- The visitor collects the instances whose requests are granted, and does not fail. -/
theorem collected_visitHeapObjects (needle : BitVec 32) (objects : List (BitVec 64)) :
    wp (visitHeapObjects art needle objects)
      (fun _ t ↦ Collected (grantedFrom art s.refs.calls (matching art needle objects)) s t)
      (fun _ _ ↦ False) s := by
  induction objects generalizing s with
  | nil => exact .of_live rfl rfl
  | cons object objects ih =>
    rw [visitHeapObjects, matching, List.filter_cons]
    simp only [wp_bind, wp_ite, HeapQuery.onRefs, wp_zoom]
    constructor
    · intro hskip
      rw [if_neg ?_]
      · exact ih
      · intro hwanted
        rw [decide_eq_true_eq] at hwanted
        rcases hskip with hnull | hother
        · exact hwanted.1 hnull
        · exact hother hwanted.2
    · intro hwanted
      rw [not_or, not_not] at hwanted
      rw [if_pos (decide_eq_true hwanted), grantedFrom]
      refine wp_mono (wp_addGlobalRef (E := fun _ _ ↦ False)) ?_ fun _ _ h ↦ h
      rintro (_ | raw) t ⟨hcalls, hanswer⟩
      · rw [if_pos hanswer.1, ← hcalls]
        have hrest : ∀ u, Collected (grantedFrom art t.calls (matching art needle objects))
            ⟨s.instances, t⟩ u → Collected _ s u := fun _ ↦ .refused hanswer.2 rfl
        exact wp_mono ih (fun _ u h ↦ hrest u h) fun _ _ h ↦ h
      · rw [if_neg (ne_true_of_eq_false hanswer.1), ← hcalls]
        exact wp_mono ih (fun _ _ h ↦ h.cons hanswer.2) fun _ _ h ↦ h

/-- The instances that a walk over the whole heap comes across. -/
theorem matching_perm {heap : Heap} {objects : List (BitVec 64)} (needle : BitVec 32)
    (h : objects.Perm heap.objects) :
    (matching art needle objects).Perm (heap.instancesOf art needle) := by
  have hmatching : matching art needle heap.objects = heap.instancesOf art needle := by
    apply List.filter_congr
    intro object hobject
    have hnull : object ≠ 0 := fun h ↦ heap.ne_null (h ▸ hobject)
    rw [decide_eq_decide]
    exact and_iff_right hnull
  rw [← hmatching]
  exact h.filter _

/-! ### The vector of handles -/

/-- The loop collects the objects of all the handles, where it does not fail. -/
theorem collected_promoteHandles {handles : List (BitVec 64)}
    (h : List.Forall₂ (HandleOf art) handles objects) :
    wp (promoteHandles art handles)
      (fun _ t ↦ Collected objects s t ∧ NextGranted art s.refs.calls objects.length)
      (fun _ _ ↦ True) s := by
  induction h generalizing s with
  | nil => exact ⟨.of_live rfl rfl, nextGranted_zero art _⟩
  | @cons handle object handles objects hhandle _ ih =>
    obtain ⟨hnull, rfl⟩ := hhandle
    rw [promoteHandles, handleObject, if_neg hnull, List.length_cons]
    simp only [wp_bind, HeapQuery.onRefs, wp_zoom, wp_modify]
    refine wp_mono wp_newGlobalRefRaw ?_ fun _ _ _ ↦ trivial
    rintro (_ | raw) t ⟨⟨-, hgranted⟩, hcalls, hsome, hextends⟩
    · cases hsome
    · rw [nextGranted_succ, ← hcalls]
      refine wp_mono ih ?_ fun _ _ h ↦ h
      intro _ u hu
      exact ⟨hu.1.cons hextends, hgranted rfl, hu.2⟩

end

/-! ## The enumeration -/

/-- The heap is walked by the visitor. -/
structure VisitsObjects (answers : HeapAnswers θ) (needle : BitVec 32) : Prop where
  prepared : answers.prepared = .ok ()
  needle_eq : decodeGlobalObjectReference answers = .ok needle
  available : answers.visitObjects.isSome = true

section

variable [DecidableEq R] {art : ArtRuntime θ R} {heap : Heap} {answers : HeapAnswers θ}
  {s : GlobalRefs R}

/-- Where the visitor is not used, what succeeds is complete. -/
theorem enumeratesInstances_of_getInstances (h : WalksHeap art heap answers)
    (hvisit : answers.visitObjects = none) : EnumeratesInstances art heap answers s := by
  rw [EnumeratesInstances, enumerateHeapInstanceHandles]
  simp only [wp_bind, wp_ofExcept, wp_deletingOnError_iff, chooseInstances]
  refine ⟨fun _ _ ↦ ⟨fun needle hneedle ↦ ?_, fun _ _ ↦ trivial⟩, fun _ _ ↦ trivial⟩
  rw [hvisit]
  cases hget : answers.getInstances with
  | none => trivial
  | some handles =>
    obtain ⟨vector, filled, objects, rfl, hfilled, hhandles, hperm⟩ :=
      h.getInstances handles needle hget hneedle
    rw [hfilled.handles_eq]
    simp only [wp_bind, wp_ofExcept]
    refine ⟨fun _ _ ↦ ⟨fun _ _ ↦ ?_, fun _ _ ↦ trivial⟩, fun _ _ ↦ trivial⟩
    refine wp_mono (collected_promoteHandles hhandles) ?_ fun _ _ h ↦ h
    intro _ t ht
    refine ⟨needle, hneedle, ht.1.onePerObject hperm, ?_⟩
    rw [← hperm.length_eq]
    exact ht.2

/-- What a walk of the visitor collects is complete exactly where no request is refused. -/
theorem enumeratesInstances_of_visitObjects (h : WalksHeap art heap answers) {needle : BitVec 32}
    (hvisits : VisitsObjects answers needle) :
    EnumeratesInstances art heap answers s ↔
      NextGranted art s.calls (heap.instancesOf art needle).length := by
  obtain ⟨objects, hobjects⟩ := Option.isSome_iff_exists.1 hvisits.available
  have hperm : (matching art needle objects).Perm (heap.instancesOf art needle) :=
    matching_perm needle (h.visitObjects objects hobjects)
  have hwalk : wp (visitHeapObjects art needle objects) _ _ ⟨[], s⟩ :=
    collected_visitHeapObjects needle objects
  obtain ⟨_, t, hrun, hcollected⟩ := wp_false_iff.1 hwalk
  have hchoose : chooseInstances art answers ⟨[], s⟩ = .ok () t := by
    rw [chooseInstances, hvisits.needle_eq, hobjects]
    exact hrun
  have hrun : enumerateHeapInstanceHandles art answers s = .ok t.instances t.refs := by
    rw [enumerateHeapInstanceHandles, hvisits.prepared]
    show deletingOnError _ _ _ _ _ s = _
    rw [deletingOnError, hchoose]
  rw [EnumeratesInstances, wp, hrun, ← hperm.length_eq, ← length_grantedFrom_eq_iff]
  constructor
  · rintro ⟨needle', hneedle, hone, -⟩
    obtain rfl := Except.ok.inj (hvisits.needle_eq.symm.trans hneedle)
    rw [← hcollected.length_eq, hone.length_eq, hperm.length_eq]
  · intro hlength
    have hgranted := (length_grantedFrom_eq_iff s.calls _).1 hlength
    rw [grantedFrom_eq_self hgranted] at hcollected
    rw [hperm.length_eq] at hgranted
    exact ⟨needle, hvisits.needle_eq, hcollected.onePerObject hperm, hgranted⟩

/-- An enumeration that succeeds is complete, except for a visitor that is refused a reference. -/
theorem enumeratesInstances_iff (h : WalksHeap art heap answers) :
    EnumeratesInstances art heap answers s ↔
      ∀ needle, VisitsObjects answers needle →
        NextGranted art s.calls (heap.instancesOf art needle).length := by
  constructor
  · intro hcomplete needle hvisits
    exact (enumeratesInstances_of_visitObjects h hvisits).1 hcomplete
  · intro hgranted
    cases hvisit : answers.visitObjects with
    | none => exact enumeratesInstances_of_getInstances h hvisit
    | some objects =>
      cases hprepared : answers.prepared with
      | error error =>
        rw [EnumeratesInstances, enumerateHeapInstanceHandles, hprepared]
        trivial
      | ok =>
        cases hneedle : decodeGlobalObjectReference answers with
        | error error =>
          rw [EnumeratesInstances, enumerateHeapInstanceHandles, hprepared]
          show wp (deletingOnError _ _ _ _ _) _ _ s
          rw [wp_deletingOnError_iff, chooseInstances, hneedle]
          trivial
        | ok needle =>
          have hvisits : VisitsObjects answers needle :=
            ⟨hprepared, hneedle, Option.isSome_of_eq_some hvisit⟩
          exact (enumeratesInstances_of_visitObjects h hvisits).2 (hgranted needle hvisits)

end

/-! ### A visitor that is refused a reference -/

/-- There is one object, of class 16. The first request is refused. -/
def firstRefused : ArtRuntime Nat Nat :=
  { secondRefused with
    contents := fun address ↦ if address = 0x1000 then 16 else 0
    references := { secondRefused.references with refused := fun request ↦ request = 0 } }

def oneObject : Heap where
  objects := [0x1000]
  nodup := List.nodup_singleton _
  ne_null := by decide

def visitorAnswers : HeapAnswers Nat where
  prepared := .ok ()
  decodeGlobal := some 16
  visitObjects := some [0x1000]
  getInstances := none
  scope := .ok ()
  attached := .ok ()

theorem walksHeap_visitorAnswers : WalksHeap firstRefused oneObject visitorAnswers where
  visitObjects := by
    rintro _ ⟨⟩
    exact .refl _
  getInstances := by
    rintro _ _ ⟨⟩

/-- The enumeration succeeds without the object. -/
theorem not_enumeratesInstances :
    ¬EnumeratesInstances firstRefused oneObject visitorAnswers ⟨[], 0⟩ := by
  have hrun : enumerateHeapInstanceHandles firstRefused visitorAnswers ⟨[], 0⟩ =
      .ok [] ⟨[], 1⟩ := rfl
  rw [EnumeratesInstances, wp, hrun]
  rintro ⟨needle, ⟨⟩, hone, -⟩
  exact absurd hone.length_eq (by decide)

/-- The second request is granted. -/
theorem enumeratesInstances_oneObject :
    EnumeratesInstances firstRefused oneObject visitorAnswers ⟨[], 1⟩ := by
  refine (enumeratesInstances_iff walksHeap_visitorAnswers).2 ?_
  rintro needle ⟨-, ⟨⟩, -⟩ request hrequest
  exact decide_eq_false (Nat.ne_of_gt (Nat.add_pos_left Nat.one_pos request))

end JavaBridge.Art
