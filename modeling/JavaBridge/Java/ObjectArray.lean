import JavaBridge.Java.Hierarchy

/-!
# Arrays of objects

Arrays that are made of a class and of elements, and the elements that are read from them.

Main results:

* `wp_newObjectArray`, `newObjectArray_fails`: an array is made of the elements, unless they are
  too many for the JNI.
* `newObjectArray_roundTrips_iff`: when an array gives back what it was made of.
-/

namespace JavaBridge.Java

open Fallible

structure JavaObject (R : Type) where
  jclass : RawClass R
  reference : R

structure JavaArray (R : Type) where
  object : JavaObject R
  elementType : JavaType

section

variable {θ ω R M : Type} (jvm : ObjectJvm θ ω R M)

def objectFromRefWithClass (jclass : RawClass R) (object : R) : LookupM θ ω (JavaObject R) := do
  let reference ← (jvm.newGlobalRef object).run
  pure ⟨jclass, reference⟩

def arrayFromRefWithClass (jclass : RawClass R) (array : R) (elementType : JavaType) :
    LookupM θ ω (JavaArray R) := do
  let reference ← (jvm.newGlobalRef array).run
  pure ⟨⟨jclass, reference⟩, elementType⟩

/-- The loop over the elements, from an index on. -/
def setElements (array : R) : Nat → List (Option (JavaObject R)) → LookupM θ ω Unit
  | _, [] => pure ()
  | index, element :: elements => do
    (jvm.setObjectArrayElement array (Int32.ofNat index) (element.map JavaObject.reference)).run
    setElements array (index + 1) elements

/-- `Java::new_object_array`. -/
def newObjectArray (elementClass : RawClass R) (elements : List (Option (JavaObject R))) :
    LookupM θ ω (JavaArray R) := do
  jvm.attachCurrentThread.run
  let array ← (jvm.newObjectArray (Int32.ofNat elements.length) elementClass.global none).run
  setElements jvm array 0 elements
  let elementType := JavaType.object (slashed elementClass.name)
  let arrayType := JavaType.array elementType
  let arrayClass ← (jvm.getObjectClass array).run
  let arrayClass ← (jvm.newGlobalRef arrayClass).run
  arrayFromRefWithClass jvm ⟨arrayType.descriptor, arrayClass⟩ array elementType

def ensureReferenceArray (elementType : JavaType) (operation : String) : LookupM θ ω Unit :=
  if elementType.isReference then pure ()
  else throw (.invalidObjectType operation "object array" (elementType.descriptor ++ " array"))

def getArrayObject (array : JavaArray R) (index : Int32) (operation : String) :
    LookupM θ ω (Option (JavaObject R)) := do
  ensureReferenceArray array.elementType operation
  jvm.attachCurrentThread.run
  let declared ← jvm.declaredClass array.object.jclass array.elementType
  let element ← (jvm.getObjectArrayElement array.object.reference index).run
  match element with
  | none => pure none
  | some object =>
    jvm.attachCurrentThread.run
    if ← (jvm.isInstanceOf object declared.global).run then
      some <$> objectFromRefWithClass jvm declared object
    else
      let actual ← (jvm.getObjectClass object).run
      throw (.invalidObjectType operation "array element type"
        (jvm.address actual ++ " is not " ++ array.elementType.descriptor))

def JavaArray.getObject (array : JavaArray R) (index : Int32) :
    LookupM θ ω (Option (JavaObject R)) :=
  getArrayObject jvm array index "JavaArray::get_object"

end

/-! ## Filling an array -/

namespace Hierarchy

variable {θ K L : Type} (h : Hierarchy K L) {E : Error θ → Heap K L → Prop} {heap : Heap K L}

/-- What an element is in the array. -/
def stored (elements : List (Option (JavaObject (Object K L)))) : List (Option (Object K L)) :=
  elements.map (Option.map JavaObject.reference)

/-- The elements are instances of the class. -/
def AreInstances (heap : Heap K L) (k : K) (elements : List (Option (JavaObject (Object K L)))) :
    Prop :=
  ∀ element ∈ stored elements, h.isInstance heap k element = true

/-- The heap after an array has been allocated in it. -/
def withArray (heap : Heap K L) (k : K) (elements : List (Option (Object K L))) : Heap K L :=
  heap ++ [.array k elements]

theorem isInstance_withArray {k component : K} {element : Option (Object K L)}
    (elements : List (Option (Object K L))) (hinstance : h.isInstance heap k element = true) :
    h.isInstance (withArray heap component elements) k element = true := by
  cases element with
  | none => rfl
  | some object =>
    have hclass {actual : K} (hactual : h.classOf heap object = some actual) :
        h.classOf (withArray heap component elements) object = some actual := by
      cases object with
      | allocated address =>
        rw [classOf] at hactual ⊢
        have hlt : address < heap.length := by
          by_contra hge
          rw [List.getElem?_eq_none (Nat.le_of_not_lt hge)] at hactual
          cases hactual
        rwa [withArray, List.getElem?_append_left hlt]
      | _ => exact hactual
    rw [isInstance, Option.any_eq_true] at hinstance ⊢
    obtain ⟨actual, hactual, hsub⟩ := hinstance
    exact ⟨actual, hclass hactual, hsub⟩

theorem getElem?_withArray (k : K) (elements : List (Option (Object K L))) :
    (withArray heap k elements)[heap.length]? = some (.array k elements) :=
  List.getElem?_concat_length

theorem storeElement_withArray {k : K} {elements : List (Option (Object K L))} {index : Nat}
    {value : Option (Object K L)} (hindex : index < elements.length)
    (hvalue : h.isInstance heap k value = true) :
    h.storeElement (θ := θ) (withArray heap k elements) (.allocated heap.length) index value =
      (.ok (), withArray heap k (elements.set index value)) := by
  have hbounds : ¬((index : Int) < 0 ∨ (elements.length : Int) ≤ index) := by omega
  rw [storeElement, getElem?_withArray]
  dsimp only
  rw [if_neg hbounds, if_pos (h.isInstance_withArray _ hvalue), withArray, withArray,
    List.set_append_right _ _ (Nat.le_refl _), Nat.sub_self, Int.toNat_natCast]
  rfl

theorem storeElement_of_le {k : K} {elements : List (Option (Object K L))} {index : Nat}
    {value : Option (Object K L)} (hindex : elements.length ≤ index) :
    h.storeElement (θ := θ) (withArray heap k elements) (.allocated heap.length) index value =
      (thrown "JNIEnv::SetObjectArrayElement" "java.lang.ArrayIndexOutOfBoundsException",
        withArray heap k elements) := by
  have hbounds : (index : Int) < 0 ∨ (elements.length : Int) ≤ index := by omega
  rw [storeElement, getElem?_withArray]
  dsimp only
  rw [if_pos hbounds]

/-- The loop fills the array. -/
theorem wp_setElements {k : K} (elements : List (Option (JavaObject (Object K L))))
    (written : List (Option (Object K L))) (hinstances : h.AreInstances heap k elements)
    (hlength : written.length + elements.length < 2 ^ 31) {Q : Unit → Heap K L → Prop} :
    wp (setElements h.jvm (.allocated heap.length) written.length elements) Q E
        (withArray heap k (written ++ List.replicate elements.length none)) ↔
      Q () (withArray heap k (written ++ stored elements)) := by
  induction elements generalizing written with
  | nil => exact Iff.rfl
  | cons element elements ih =>
    have hindex : (Int32.ofNat written.length).toInt = written.length :=
      Int32.toInt_ofNat_of_lt (Nat.lt_of_le_of_lt (Nat.le_add_right _ _) hlength)
    have hlt : written.length <
        (written ++ List.replicate (element :: elements).length none).length := by simp
    have hstore := h.storeElement_withArray (θ := θ) hlt (hinstances _ List.mem_cons_self)
    have hset : (written ++ List.replicate (element :: elements).length none).set written.length
        (element.map JavaObject.reference) =
          written ++ [element.map JavaObject.reference] ++
            List.replicate elements.length none := by
      rw [List.set_append_right _ _ (Nat.le_refl _), Nat.sub_self, List.append_assoc]
      rfl
    rw [hset, ← hindex] at hstore
    have hlength' : (written ++ [element.map JavaObject.reference]).length + elements.length <
        2 ^ 31 := by
      rw [List.length_cons] at hlength
      rw [List.length_append, List.length_singleton]
      omega
    have hrest := ih (written ++ [element.map JavaObject.reference])
      (fun element' h' ↦ hinstances element' (List.mem_cons_of_mem _ h')) hlength'
    have hstored : written ++ stored (element :: elements) =
        written ++ [element.map JavaObject.reference] ++ stored elements := List.append_cons ..
    rw [List.length_append, List.length_singleton] at hrest
    rw [hstored, setElements, wp_bind, wp_run_of_ok hstore]
    exact hrest

/-- The loop fails where it passes the end of the array. -/
theorem setElements_fails {k : K} (elements : List (Option (JavaObject (Object K L))))
    (contents : List (Option (Object K L))) {index : Nat}
    (hinstances : h.AreInstances heap k elements) (hindex : index ≤ contents.length)
    (hshort : contents.length < index + elements.length) (hlength : contents.length < 2 ^ 31) :
    wp (setElements h.jvm (.allocated heap.length) index elements) (fun _ _ ↦ False)
      (fun (_ : Error θ) _ ↦ True) (withArray heap k contents) := by
  induction elements generalizing contents index with
  | nil => exact absurd (Nat.lt_of_lt_of_le hshort hindex) (Nat.lt_irrefl _)
  | cons element elements ih =>
    have htoInt : (Int32.ofNat index).toInt = index :=
      Int32.toInt_ofNat_of_lt (Nat.lt_of_le_of_lt hindex hlength)
    rw [setElements, wp_bind]
    rcases Nat.lt_or_eq_of_le hindex with hlt | heq
    · have hstore := h.storeElement_withArray (θ := θ) hlt (hinstances _ List.mem_cons_self)
      rw [← htoInt] at hstore
      rw [wp_run_of_ok hstore]
      refine ih _ (fun element' h' ↦ hinstances element' (List.mem_cons_of_mem _ h')) ?_ ?_ ?_
        <;> rw [List.length_set]
      · exact hlt
      · rw [List.length_cons] at hshort
        omega
      · exact hlength
    · have hstore := @storeElement_of_le θ K L h heap k contents index
        (element.map JavaObject.reference) (Nat.le_of_eq heq.symm)
      rw [← htoInt] at hstore
      rw [wp_run_of_error hstore]
      trivial

theorem wp_getObjectClass {k : K} {contents : List (Option (Object K L))}
    {Q : Object K L → Heap K L → Prop} :
    wp (h.jvm.getObjectClass (.allocated heap.length)).run Q E (withArray heap k contents) ↔
      Q (.holder (h.arrayOf k)) (withArray heap k contents) := by
  have hclass : h.classOf (withArray heap k contents) (.allocated heap.length) =
      some (h.arrayOf k) := by
    rw [classOf, getElem?_withArray]
  refine wp_run_of_ok (congrArg (·, withArray heap k contents) ?_)
  rw [hclass, classOrThrown]

/-- What is made of a class and of elements. -/
def made (heap : Heap K L) (k : K) (name : String) : JavaArray (Object K L) :=
  ⟨⟨⟨(JavaType.array (.object (slashed name))).descriptor, .holder (h.arrayOf k)⟩,
    .allocated heap.length⟩, .object (slashed name)⟩

/-- An array is made of the elements. -/
theorem wp_newObjectArray {k : K} {name : String}
    (elements : List (Option (JavaObject (Object K L))))
    (hinstances : h.AreInstances heap k elements) (hlength : elements.length < 2 ^ 31)
    {Q : JavaArray (Object K L) → Heap K L → Prop} :
    wp (newObjectArray h.jvm ⟨name, .holder k⟩ elements) Q E heap ↔
      Q (h.made heap k name) (withArray heap k (stored elements)) := by
  have hlen : (Int32.ofNat elements.length).toInt = elements.length :=
    Int32.toInt_ofNat_of_lt hlength
  have hallocate : allocateArray heap (Int32.ofNat elements.length).toInt (.holder k) none =
      ((.ok (.allocated heap.length) : Except (Error θ) _),
        withArray heap k ([] ++ List.replicate elements.length none)) := by
    rw [allocateArray, hlen, if_neg (Int.not_lt.2 (Int.natCast_nonneg _))]
    rfl
  have hclass : (h.jvm.newObjectArray (Int32.ofNat elements.length) (.holder k) none heap) =
      ((.ok (.allocated heap.length) : Except (Error θ) _),
        withArray heap k ([] ++ List.replicate elements.length none)) := hallocate
  rw [newObjectArray, wp_bind, h.wp_attachCurrentThread, wp_bind, wp_run_of_ok hclass, wp_bind]
  refine (h.wp_setElements elements [] hinstances ?_).trans ?_
  · rwa [List.length_nil, Nat.zero_add]
  · rw [wp_bind, List.nil_append, h.wp_getObjectClass, wp_bind, h.wp_newGlobalRef,
      arrayFromRefWithClass, wp_bind, h.wp_newGlobalRef, wp_pure, made]

/-- Too many elements make no array. -/
theorem newObjectArray_fails {k : K} {name : String}
    (elements : List (Option (JavaObject (Object K L))))
    (hinstances : h.AreInstances heap k elements) (hlength : 2 ^ 31 ≤ elements.length) :
    wp (newObjectArray h.jvm ⟨name, .holder k⟩ elements) (fun _ _ ↦ False)
      (fun (_ : Error θ) _ ↦ True) heap := by
  have hlt := (Int32.ofNat elements.length).toInt_lt
  rw [newObjectArray, wp_bind, h.wp_attachCurrentThread, wp_bind]
  by_cases hneg : (Int32.ofNat elements.length).toInt < 0
  · have hallocate : (h.jvm.newObjectArray (Int32.ofNat elements.length) (.holder k) none heap) =
        ((thrown "JNIEnv::NewObjectArray" "java.lang.NegativeArraySizeException" :
          Except (Error θ) (Object K L)), heap) := if_pos hneg
    rw [wp_run_of_error hallocate]
    trivial
  · have hallocate : (h.jvm.newObjectArray (Int32.ofNat elements.length) (.holder k) none heap) =
        ((.ok (.allocated heap.length) : Except (Error θ) _), withArray heap k
          (List.replicate (Int32.ofNat elements.length).toInt.toNat none)) :=
      if_neg hneg
    rw [wp_run_of_ok hallocate, wp_bind]
    refine wp_mono (h.setElements_fails elements _ hinstances (Nat.zero_le _) ?_ ?_)
      (fun _ _ hfalse ↦ hfalse.elim) fun _ _ _ ↦ trivial
    · rw [List.length_replicate]
      omega
    · rw [List.length_replicate]
      omega

/-! ## Reading an array -/

/-- An element of the class that the array names is read. -/
theorem wp_getObject {k : K} {name : String} {contents : List (Option (Object K L))} {i : Nat}
    (hname : .object (slashed name) = h.type k) (hi : i < contents.length)
    (hlength : contents.length < 2 ^ 31)
    (hinstance : h.isInstance heap k contents[i] = true)
    {Q : Option (JavaObject (Object K L)) → Heap K L → Prop}
    (hQ : Q (contents[i].map (JavaObject.mk ⟨(h.type k).className, .holder k⟩))
      (withArray heap k contents)) :
    wp ((h.made heap k name).getObject h.jvm (Int32.ofNat i)) Q E (withArray heap k contents) := by
  have htoInt : (Int32.ofNat i).toInt = i := Int32.toInt_ofNat_of_lt (Nat.lt_trans hi hlength)
  have hload : h.jvm.getObjectArrayElement (.allocated heap.length) (Int32.ofNat i)
      (withArray heap k contents) =
        ((.ok contents[i] : Except (Error θ) _), withArray heap k contents) := by
    refine congrArg (·, withArray heap k contents) ?_
    have hbounds : ¬((i : Int) < 0 ∨ (contents.length : Int) ≤ i) := by omega
    rw [loadElement, getElem?_withArray, htoInt]
    dsimp only
    rw [if_neg hbounds, Int.toNat_natCast, List.getElem?_eq_getElem hi, Option.join_some]
  have href : (h.made heap k name).elementType.isReference = true := rfl
  have htype : (h.made heap k name).elementType = h.type k := hname
  rw [JavaArray.getObject, getArrayObject, wp_bind, ensureReferenceArray, if_pos href, wp_pure,
    wp_bind, h.wp_attachCurrentThread, wp_bind, htype]
  refine h.wp_declaredClass (h.loader_arrayOf k) _ ?_
  rw [wp_bind]
  refine (wp_run_of_ok hload).2 ?_
  cases helement : contents[i] with
  | none =>
    rw [helement] at hQ
    exact hQ
  | some object =>
    rw [helement] at hQ hinstance
    dsimp only
    rw [wp_bind, h.wp_attachCurrentThread, wp_bind, h.wp_isInstanceOf,
      if_pos (h.isInstance_withArray contents hinstance), map_eq_pure_bind, wp_bind,
      objectFromRefWithClass, wp_bind, h.wp_newGlobalRef, wp_pure, wp_pure]
    exact hQ

/-! ## Round trips -/

/-- The names of a raw class. -/
inductive RawName : JavaType → String → Prop
  | className (ty : JavaType) : RawName ty ty.className
  | descriptor (element : JavaType) :
    RawName (.array element) (JavaType.array element).descriptor

/-- An array is made that names its own class and gives back the elements. -/
def RoundTrips (θ : Type) (heap : Heap K L) (elementClass : RawClass (Object K L))
    (elements : List (Option (JavaObject (Object K L)))) : Prop :=
  wp (newObjectArray h.jvm elementClass elements)
    (fun array heap' ↦
      (∃ k, h.classOf heap' array.object.reference = some k ∧
        array.object.jclass.global = .holder k ∧
        h.type k = .array array.elementType ∧
        array.object.jclass.name = (h.type k).descriptor) ∧
      ∀ i (hi : i < elements.length),
        wp (array.getObject h.jvm (Int32.ofNat i))
          (fun element _ ↦
            element.map JavaObject.reference = elements[i].map JavaObject.reference)
          (fun (_ : Error θ) _ ↦ False) heap')
    (fun (_ : Error θ) _ ↦ False) heap

theorem classOf_made (k : K) (name : String) (contents : List (Option (Object K L))) :
    h.classOf (withArray heap k contents) (h.made heap k name).object.reference =
      some (h.arrayOf k) := by
  rw [made, classOf, getElem?_withArray]

theorem not_isArray_of_roundTrips {k : K} {name : String}
    {elements : List (Option (JavaObject (Object K L)))}
    (hinstances : h.AreInstances heap k elements) (hlength : elements.length < 2 ^ 31)
    (hround : h.RoundTrips θ heap ⟨name, .holder k⟩ elements) (element : JavaType) :
    h.type k ≠ .array element := by
  rw [RoundTrips, h.wp_newObjectArray elements hinstances hlength] at hround
  obtain ⟨⟨k', hclass, -, htype, -⟩, -⟩ := hround
  rw [h.classOf_made] at hclass
  cases hclass
  rw [h.type_arrayOf] at htype
  intro harray
  rw [harray] at htype
  cases htype

/-- An array gives back what it was made of exactly where its elements are no arrays and are not too
many. -/
theorem newObjectArray_roundTrips_iff (k : K) {name : String} (hname : RawName (h.type k) name)
    (elements : List (Option (JavaObject (Object K L))))
    (hinstances : h.AreInstances heap k elements) :
    h.RoundTrips θ heap ⟨name, .holder k⟩ elements ↔
      (∀ element, h.type k ≠ .array element) ∧ elements.length < 2 ^ 31 := by
  constructor
  · intro hround
    have hlength : elements.length < 2 ^ 31 := by
      by_contra hge
      exact false_of_wp hround (h.newObjectArray_fails elements hinstances (Nat.le_of_not_lt hge))
    exact ⟨h.not_isArray_of_roundTrips hinstances hlength hround, hlength⟩
  · rintro ⟨harray, hlength⟩
    have htype : JavaType.object (slashed name) = h.type k := by
      have hclass := h.isClass k
      have href := h.isReference k
      cases hty : h.type k <;> rw [hty] at hname hclass href
      case object plain =>
        cases hname
        rw [JavaType.className, JavaType.slashed_dotted (IsInternalName.not_mem hclass (.inl rfl))]
      case array element => exact absurd hty (harray element)
      all_goals exact absurd href Bool.false_ne_true
    rw [RoundTrips, h.wp_newObjectArray elements hinstances hlength]
    refine ⟨⟨h.arrayOf k, h.classOf_made k name _, rfl, ?_, ?_⟩, ?_⟩
    · rw [h.type_arrayOf, made, htype]
    · rw [h.type_arrayOf, made, htype]
    · intro i hi
      have hlen : (stored elements).length = elements.length := List.length_map _
      refine h.wp_getObject htype (hlen ▸ hi) (hlen ▸ hlength)
        (hinstances _ (List.getElem_mem _)) ?_
      rw [Option.map_map]
      have hid : JavaObject.reference ∘
          JavaObject.mk (⟨(h.type k).className, .holder k⟩ : RawClass (Object K L)) = id := rfl
      rw [hid, Option.map_id, id]
      exact List.getElem_map _

end Hierarchy

/-! ## A hierarchy of types -/

/-- A class for each reference type. -/
abbrev ClassType : Type := { ty : JavaType // ty.IsClass ∧ ty.isReference = true }

namespace ClassType

def ofName (name : String) : Option ClassType :=
  let ty : Option JavaType :=
    if name.toList.head? = some '[' then (JavaType.parse (θ := Empty) (slashed name)).toOption
    else some (.object (slashed name))
  ty.bind fun ty ↦
    if h : (ty.IsClass ∧ ty.isReference = true) ∧ ty.className = name then some ⟨ty, h.1⟩ else none

theorem ofName_className (k : ClassType) : ofName k.1.className = some k := by
  obtain ⟨ty, hclass, href⟩ := k
  cases ty with
  | object name =>
    have hhead : (dotted name).toList.head? ≠ some '[' := by
      intro hhead
      exact not_mem_dotted hclass (.inr rfl) (List.mem_of_head? hhead)
    have hslashed := JavaType.slashed_dotted (IsInternalName.not_mem hclass (.inl rfl))
    simp only [ofName, JavaType.className, if_neg hhead, hslashed, Option.bind_some]
    exact dif_pos ⟨⟨hclass, href⟩, rfl⟩
  | array element =>
    have hhead : (dotted (JavaType.array element).descriptor).toList.head? = some '[' := by
      simp [dotted, JavaType.descriptor, Text.replace]
    have hslashed := JavaType.slashed_dotted (JavaType.not_mem_descriptor hclass)
    have hvoid : JavaType.array element ≠ .void := fun h ↦ by cases h
    have hparse := JavaType.parse_descriptor_iff (θ := Empty).2
      (JavaType.isField_of_isClass hclass hvoid)
    simp only [ofName, JavaType.className, if_pos hhead, hslashed, hparse, Except.toOption,
      Option.bind_some]
    exact dif_pos ⟨⟨hclass, href⟩, rfl⟩
  | _ => exact absurd href Bool.false_ne_true

theorem className_of_ofName {name : String} {k : ClassType} (h : ofName name = some k) :
    k.1.className = name := by
  obtain ⟨ty, -, hty⟩ := Option.bind_eq_some_iff.1 h
  split at hty
  · next hname =>
    cases hty
    exact hname.2
  · cases hty

/-- The class of the default loader, or of the app's. -/
def loader : JavaType → Option Unit
  | .array element => loader element
  | ty => if ty = .object "com/example/App" then some () else none

def instanceOf : JavaType → JavaType → Bool
  | .array element, .array element' => instanceOf element element'
  | ty, ty' => ty = ty' ∨ ty' = .object "java/lang/Object" ∨
    ty = .object "dalvik/system/PathClassLoader" ∧ ty' = .object "java/lang/ClassLoader"

theorem ne_void (k : ClassType) : k.1 ≠ .void := by
  intro hvoid
  have href := k.2.2
  rw [hvoid] at href
  cases href

def plain (name : String) (h : IsInternalName name) : ClassType := ⟨.object name, h, rfl⟩

def arrayOf (k : ClassType) : ClassType := ⟨.array k.1, ⟨k.ne_void, k.2.1⟩, rfl⟩

theorem isInternalName_class : IsInternalName "java/lang/Class" := by decide +kernel

theorem isInternalName_classLoader : IsInternalName "java/lang/ClassLoader" := by decide +kernel

theorem isInternalName_string : IsInternalName "java/lang/String" := by decide +kernel

theorem isInternalName_pathClassLoader : IsInternalName "dalvik/system/PathClassLoader" := by
  decide +kernel

theorem isInternalName_app : IsInternalName "com/example/App" := by decide +kernel

/-- Both loaders find every class. -/
def hierarchy : Hierarchy ClassType Unit where
  type := Subtype.val
  isClass := fun k ↦ k.2.1
  isReference := fun k ↦ k.2.2
  loader := fun k ↦ loader k.1
  arrayOf := arrayOf
  type_arrayOf := fun _ ↦ rfl
  loader_arrayOf := fun _ ↦ rfl
  instanceOf := fun k k' ↦ instanceOf k.1 k'.1
  found := fun _ name ↦ ofName name
  found_self := ofName_className
  className_of_found := className_of_ofName
  classClass := plain "java/lang/Class" isInternalName_class
  type_classClass := rfl
  loader_classClass := rfl
  classLoaderClass := plain "java/lang/ClassLoader" isInternalName_classLoader
  type_classLoaderClass := rfl
  loader_classLoaderClass := rfl
  stringClass := plain "java/lang/String" isInternalName_string
  loaderClass := fun _ ↦ plain "dalvik/system/PathClassLoader" isInternalName_pathClassLoader
  instanceOf_loaderClass := fun _ ↦ rfl

def app : ClassType := plain "com/example/App" isInternalName_app

end ClassType

open ClassType

/-- An app's object and null. -/
def appElements : List (Option (JavaObject (Object ClassType Unit))) :=
  [some ⟨⟨"com.example.App", .holder app⟩, .allocated 0⟩, none]

theorem newObjectArray_roundTrips_iff_app :
    hierarchy.RoundTrips Empty [.plain app] ⟨"com.example.App", .holder app⟩ appElements := by
  have hinstances : hierarchy.AreInstances [.plain app] app appElements := by
    have hall : (Hierarchy.stored appElements).all
        (hierarchy.isInstance [.plain app] app) = true := by decide +kernel
    exact List.all_eq_true.1 hall
  refine (hierarchy.newObjectArray_roundTrips_iff app (.className app.1) appElements
    hinstances).2 ⟨?_, ?_⟩
  · intro element harray
    cases harray
  · decide

/-- An array of arrays names its elements as objects. -/
theorem not_newObjectArray_roundTrips :
    ¬hierarchy.RoundTrips Empty [] ⟨"[Lcom.example.App;", .holder app.arrayOf⟩ [none] := by
  intro hround
  have hinstances : hierarchy.AreInstances [] app.arrayOf [none] := by
    intro element helement
    cases List.mem_singleton.1 helement
    rfl
  exact hierarchy.not_isArray_of_roundTrips hinstances (by decide) hround app.1 rfl

end JavaBridge.Java
