import JavaBridge.Java.Lookup

/-!
# Class hierarchies

The calls on objects and arrays, and a VM that answers them: its classes are those of a hierarchy,
where every loader finds a class under the name of the class only. A reference is the object that it
refers to.

Main results:

* `Hierarchy.wp_declaredClass`: the type of a class leads back to the class, from every class of
  the same loader.
-/

namespace JavaBridge.Java

open Fallible

/-- The calls on objects, besides those of a lookup. -/
structure ObjectJvm (θ ω R M : Type) extends ClassJvm θ ω R M where
  getObjectClass (object : R) : Answer θ ω R
  isInstanceOf (object holder : R) : Answer θ ω Bool
  newObjectArray (length : Int32) (elementClass : R) (initialElement : Option R) : Answer θ ω R
  getObjectArrayElement (array : R) (index : Int32) : Answer θ ω (Option R)
  setObjectArrayElement (array : R) (index : Int32) (value : Option R) : Answer θ ω Unit
  address : R → String

/-! ## Declared classes -/

namespace ObjectJvm

variable {θ ω R M : Type} (jvm : ObjectJvm θ ω R M)

def validateClassLoader (loader : R) (operation : String) : LookupM θ ω Unit := do
  let classLoaderClass ← (jvm.findClass "java/lang/ClassLoader").run
  if ← (jvm.isInstanceOf loader classLoaderClass).run then pure ()
  else
    let actual ← (jvm.getObjectClass loader).run
    throw (.invalidObjectType operation "java.lang.ClassLoader" (jvm.address actual))

/-- `ClassLoaderRef::from_object_ref`. -/
def fromObjectRef (object : R) : LookupM θ ω R := do
  let loader ← (jvm.newGlobalRef object).run
  jvm.validateClassLoader loader "Java::class_loader_from_object"
  pure loader

/-- `getClassLoader` of a class. -/
def classLoader (holder : R) : LookupM θ ω (Option R) := do
  let classClass ← (jvm.findClass "java/lang/Class").run
  let getClassLoader ← (jvm.lookupInstanceMethod classClass "getClassLoader"
    "()Ljava/lang/ClassLoader;").run
  let loader ← (jvm.callInstanceObjectMethod holder getClassLoader []).run
  match loader with
  | none => pure none
  | some loader => some <$> jvm.fromObjectRef loader

def declaredClass (holder : RawClass R) (ty : JavaType) : LookupM θ ω (RawClass R) := do
  let loader ← jvm.classLoader holder.global
  let (found, _) ← Java.findClass jvm.toClassJvm ⟨loader, fun _ ↦ none⟩ ty.descriptor
  pure found

end ObjectJvm

/-! ## Hierarchies -/

/-- The reference types `K` that are loaded, by loaders `L` or by the VM. -/
structure Hierarchy (K L : Type) where
  type : K → JavaType
  isClass (k : K) : (type k).IsClass
  isReference (k : K) : (type k).isReference = true
  /-- `getClassLoader`. -/
  loader : K → Option L
  arrayOf : K → K
  type_arrayOf (k : K) : type (arrayOf k) = .array (type k)
  loader_arrayOf (k : K) : loader (arrayOf k) = loader k
  instanceOf : K → K → Bool
  /-- What a loader, or the native context, finds by a name. -/
  found : Option L → String → Option K
  found_self (k : K) : found (loader k) (type k).className = some k
  className_of_found {l : Option L} {name : String} {k : K} :
    found l name = some k → (type k).className = name
  classClass : K
  type_classClass : type classClass = .object "java/lang/Class"
  loader_classClass : loader classClass = none
  classLoaderClass : K
  type_classLoaderClass : type classLoaderClass = .object "java/lang/ClassLoader"
  loader_classLoaderClass : loader classLoaderClass = none
  stringClass : K
  /-- The class of a loader. -/
  loaderClass : L → K
  instanceOf_loaderClass (l : L) : instanceOf (loaderClass l) classLoaderClass = true

variable {θ K L : Type}

inductive Object (K L : Type)
  | holder (k : K)
  | loader (l : L)
  | string (text : String)
  | allocated (address : Nat)

inductive HeapObject (K L : Type)
  | plain (holder : K)
  | array (component : K) (elements : List (Option (Object K L)))

abbrev Heap (K L : Type) := List (HeapObject K L)

inductive Method
  | getName
  | getClassLoader
  | loadClass
  | forName

/-- The exception of a class is thrown. -/
def thrown {α : Type} (operation exception : String) : Except (Error θ) α :=
  .error (.javaException operation exception none)

namespace Hierarchy

variable (h : Hierarchy K L)

def classOf (heap : Heap K L) : Object K L → Option K
  | .holder _ => some h.classClass
  | .loader l => some (h.loaderClass l)
  | .string _ => some h.stringClass
  | .allocated address =>
    match heap[address]? with
    | some (.plain k) => some k
    | some (.array component _) => some (h.arrayOf component)
    | none => none

/-- Null is an instance of every class. -/
def isInstance (heap : Heap K L) (k : K) : Option (Object K L) → Bool
  | none => true
  | some object => (h.classOf heap object).any fun actual ↦ h.instanceOf actual k

/-! ### The VM -/

def classOrThrown (operation exception : String) :
    Option K → Except (Error θ) (Object K L)
  | some k => .ok (.holder k)
  | none => thrown operation exception

/-- Names have slashes here. -/
def jniFindClass (name : String) : Except (Error θ) (Object K L) :=
  if '.' ∈ name.toList then thrown "JNIEnv::FindClass" "java.lang.NoClassDefFoundError"
  else classOrThrown "JNIEnv::FindClass" "java.lang.NoClassDefFoundError"
    (h.found none (dotted name))

def method (holder : Object K L) (name signature : String) : Except (Error θ) Method :=
  match holder with
  | .holder k =>
    if h.type k = .object "java/lang/Class" ∧ name = "getName" ∧
        signature = "()Ljava/lang/String;" then .ok .getName
    else if h.type k = .object "java/lang/Class" ∧ name = "getClassLoader" ∧
        signature = "()Ljava/lang/ClassLoader;" then .ok .getClassLoader
    else if h.type k = .object "java/lang/Class" ∧ name = "forName" ∧
        signature = "(Ljava/lang/String;ZLjava/lang/ClassLoader;)Ljava/lang/Class;" then
      .ok .forName
    else if h.type k = .object "java/lang/ClassLoader" ∧ name = "loadClass" ∧
        signature = "(Ljava/lang/String;)Ljava/lang/Class;" then .ok .loadClass
    else thrown "JNIEnv::GetMethodID" "java.lang.NoSuchMethodError"
  | _ => thrown "JNIEnv::GetMethodID" "java.lang.NoSuchMethodError"

/-- `loadClass` finds no arrays, and `forName` does. -/
def callMethod (receiver : Object K L) (method : Method) (args : List (JavaValue (Object K L))) :
    Except (Error θ) (Option (Object K L)) :=
  match method, receiver, args with
  | .getName, .holder k, [] => .ok (some (.string (h.type k).className))
  | .getClassLoader, .holder k, [] => .ok ((h.loader k).map .loader)
  | .loadClass, .loader l, [.object (some (.string name))] =>
    if name.toList.head? = some '[' then
      thrown "ClassLoader.loadClass" "java.lang.ClassNotFoundException"
    else (classOrThrown "ClassLoader.loadClass" "java.lang.ClassNotFoundException"
      (h.found (some l) name)).map some
  | .forName, _, [.object (some (.string name)), _, .object (some (.loader l))] =>
    (classOrThrown "Class.forName" "java.lang.ClassNotFoundException"
      (h.found (some l) name)).map some
  | _, _, _ => thrown "JNIEnv::CallObjectMethod" "java.lang.Error"

def allocateArray (heap : Heap K L) (length : Int) (elementClass : Object K L)
    (initial : Option (Object K L)) : Except (Error θ) (Object K L) × Heap K L :=
  match elementClass with
  | .holder k =>
    if length < 0 then
      (thrown "JNIEnv::NewObjectArray" "java.lang.NegativeArraySizeException", heap)
    else
      (.ok (.allocated heap.length), heap ++ [.array k (List.replicate length.toNat initial)])
  | _ => (thrown "JNIEnv::NewObjectArray" "java.lang.Error", heap)

def loadElement (heap : Heap K L) (array : Object K L) (index : Int) :
    Except (Error θ) (Option (Object K L)) :=
  match array with
  | .allocated address =>
    match heap[address]? with
    | some (.array _ elements) =>
      if index < 0 ∨ elements.length ≤ index then
        thrown "JNIEnv::GetObjectArrayElement" "java.lang.ArrayIndexOutOfBoundsException"
      else .ok elements[index.toNat]?.join
    | _ => thrown "JNIEnv::GetObjectArrayElement" "java.lang.Error"
  | _ => thrown "JNIEnv::GetObjectArrayElement" "java.lang.Error"

def storeElement (heap : Heap K L) (array : Object K L) (index : Int)
    (value : Option (Object K L)) : Except (Error θ) Unit × Heap K L :=
  match array with
  | .allocated address =>
    match heap[address]? with
    | some (.array component elements) =>
      if index < 0 ∨ elements.length ≤ index then
        (thrown "JNIEnv::SetObjectArrayElement" "java.lang.ArrayIndexOutOfBoundsException", heap)
      else if h.isInstance heap component value then
        (.ok (), heap.set address (.array component (elements.set index.toNat value)))
      else (thrown "JNIEnv::SetObjectArrayElement" "java.lang.ArrayStoreException", heap)
    | _ => (thrown "JNIEnv::SetObjectArrayElement" "java.lang.Error", heap)
  | _ => (thrown "JNIEnv::SetObjectArrayElement" "java.lang.Error", heap)

/-- The VM of the hierarchy. -/
def jvm (h : Hierarchy K L) : ObjectJvm θ (Heap K L) (Object K L) Method where
  attachCurrentThread := fun heap ↦ (.ok (), heap)
  findClass := fun name heap ↦ (h.jniFindClass name, heap)
  lookupStaticMethod := fun holder name signature heap ↦ (h.method holder name signature, heap)
  lookupInstanceMethod := fun holder name signature heap ↦ (h.method holder name signature, heap)
  newStringUtf := fun text heap ↦ (.ok (.string text), heap)
  callStaticObjectMethod := fun holder method args heap ↦ (h.callMethod holder method args, heap)
  callInstanceObjectMethod := fun receiver method args heap ↦
    (h.callMethod receiver method args, heap)
  getString := fun string heap ↦
    match string with
    | .string text => (.ok text, heap)
    | _ => (thrown "JNIEnv::GetStringChars" "java.lang.Error", heap)
  newGlobalRef := fun object heap ↦ (.ok object, heap)
  getObjectClass := fun object heap ↦
    (classOrThrown "JNIEnv::GetObjectClass" "java.lang.Error" (h.classOf heap object), heap)
  isInstanceOf := fun object holder heap ↦
    match holder with
    | .holder k => (.ok (h.isInstance heap k (some object)), heap)
    | _ => (thrown "JNIEnv::IsInstanceOf" "java.lang.Error", heap)
  newObjectArray := fun length elementClass initial heap ↦
    allocateArray heap length.toInt elementClass initial
  getObjectArrayElement := fun array index heap ↦ (loadElement heap array index.toInt, heap)
  setObjectArrayElement := fun array index value heap ↦
    h.storeElement heap array index.toInt value
  address := fun _ ↦ "0x1"

/-! ### Lookups -/

section

variable {θ ω α : Type} {Q : α → ω → Prop} {E : Error θ → ω → Prop} {s t : ω}

theorem wp_run_of_ok {answer : Answer θ ω α} {a : α} (hanswer : answer s = (.ok a, t)) :
    wp answer.run Q E s ↔ Q a t := by
  rw [wp, Answer.run, hanswer]

theorem wp_run_of_error {answer : Answer θ ω α} {e : Error θ} (hanswer : answer s = (.error e, t)) :
    wp answer.run Q E s ↔ E e t := by
  rw [wp, Answer.run, hanswer]

end

variable {α : Type} {Q : α → Heap K L → Prop} {E : Error θ → Heap K L → Prop} {heap : Heap K L}

section

variable {Q : Object K L → Heap K L → Prop}

/-- The native context finds the classes that the VM has defined. -/
theorem wp_findClass {k : K} (hk : h.loader k = none) :
    wp (h.jvm.findClass (lookupName (h.type k)).findClassName).run Q E heap ↔
      Q (.holder k) heap := by
  have hfind : h.jniFindClass (lookupName (h.type k)).findClassName =
      (.ok (.holder k) : Except (Error θ) _) := by
    rw [jniFindClass, if_neg (not_mem_findClassName (h.isClass k) (h.isReference k)),
      dotted_findClassName (h.isReference k), ← hk, h.found_self, classOrThrown]
  exact wp_run_of_ok (congrArg (·, heap) hfind)

theorem wp_findClass_classClass :
    wp (h.jvm.findClass "java/lang/Class").run Q E heap ↔ Q (.holder h.classClass) heap := by
  have hfind := @wp_findClass θ K L h E heap Q _ h.loader_classClass
  rwa [h.type_classClass] at hfind

theorem wp_findClass_classLoaderClass :
    wp (h.jvm.findClass "java/lang/ClassLoader").run Q E heap ↔
      Q (.holder h.classLoaderClass) heap := by
  have hfind := @wp_findClass θ K L h E heap Q _ h.loader_classLoaderClass
  rwa [h.type_classLoaderClass] at hfind

end

theorem wp_lookupInstanceMethod {k : K} {name signature : String} {found : Method}
    {Q : Method → Heap K L → Prop}
    (hfound : h.method (.holder k) name signature = (.ok found : Except (Error θ) _)) :
    wp (h.jvm.lookupInstanceMethod (.holder k) name signature).run Q E heap ↔ Q found heap :=
  wp_run_of_ok (congrArg (·, heap) hfound)

theorem wp_lookupStaticMethod {k : K} {name signature : String} {found : Method}
    {Q : Method → Heap K L → Prop}
    (hfound : h.method (.holder k) name signature = (.ok found : Except (Error θ) _)) :
    wp (h.jvm.lookupStaticMethod (.holder k) name signature).run Q E heap ↔ Q found heap :=
  wp_run_of_ok (congrArg (·, heap) hfound)

theorem wp_callInstanceObjectMethod {receiver : Object K L} {method : Method}
    {args : List (JavaValue (Object K L))} {result : Option (Object K L)}
    {Q : Option (Object K L) → Heap K L → Prop}
    (hcall : h.callMethod receiver method args = (.ok result : Except (Error θ) _)) :
    wp (h.jvm.callInstanceObjectMethod receiver method args).run Q E heap ↔ Q result heap :=
  wp_run_of_ok (congrArg (·, heap) hcall)

theorem wp_callStaticObjectMethod {holder : Object K L} {method : Method}
    {args : List (JavaValue (Object K L))} {result : Option (Object K L)}
    {Q : Option (Object K L) → Heap K L → Prop}
    (hcall : h.callMethod holder method args = (.ok result : Except (Error θ) _)) :
    wp (h.jvm.callStaticObjectMethod holder method args).run Q E heap ↔ Q result heap :=
  wp_run_of_ok (congrArg (·, heap) hcall)

theorem wp_newStringUtf {text : String} {Q : Object K L → Heap K L → Prop} :
    wp (h.jvm.newStringUtf text).run Q E heap ↔ Q (.string text) heap := wp_run_of_ok rfl

theorem wp_getString {text : String} {Q : String → Heap K L → Prop} :
    wp (h.jvm.getString (.string text)).run Q E heap ↔ Q text heap := wp_run_of_ok rfl

theorem wp_newGlobalRef {object : Object K L} {Q : Object K L → Heap K L → Prop} :
    wp (h.jvm.newGlobalRef object).run Q E heap ↔ Q object heap := wp_run_of_ok rfl

theorem wp_attachCurrentThread {Q : Unit → Heap K L → Prop} :
    wp h.jvm.attachCurrentThread.run Q E heap ↔ Q () heap := wp_run_of_ok rfl

theorem wp_validateLoadedClassName {k : K} {Q : Unit → Heap K L → Prop} :
    wp (validateLoadedClassName h.jvm.toClassJvm (.holder h.classClass) (.holder k)
      (lookupName (h.type k))) Q E heap ↔ Q () heap := by
  have hmethod : h.method (.holder h.classClass) "getName" "()Ljava/lang/String;" =
      (.ok .getName : Except (Error θ) _) := by
    rw [method, h.type_classClass, if_pos ⟨rfl, rfl, rfl⟩]
  have hcall : h.callMethod (.holder k) .getName [] =
      (.ok (some (.string (h.type k).className)) : Except (Error θ) _) := rfl
  rw [validateLoadedClassName, wp_bind, h.wp_lookupInstanceMethod hmethod, wp_bind,
    h.wp_callInstanceObjectMethod hcall, wp_bind, okOrNull, wp_pure, wp_bind, h.wp_getString,
    if_pos (loaderName_lookupName (h.isReference k)).symm, wp_pure]

/-- A loader finds the classes that it has defined. -/
theorem wp_findClassWithLoader {k : K} {l : L} (hk : h.loader k = some l)
    {Q : Object K L → Heap K L → Prop} :
    wp (findClassWithLoader h.jvm.toClassJvm (.loader l) (lookupName (h.type k))) Q E heap ↔
      Q (.holder k) heap := by
  have hfound : h.found (some l) (lookupName (h.type k)).loaderName = some k := by
    rw [loaderName_lookupName (h.isReference k), ← hk, h.found_self]
  rw [findClassWithLoader, wp_bind, h.wp_findClass_classClass]
  split
  · have hmethod : h.method (.holder h.classClass) "forName"
        "(Ljava/lang/String;ZLjava/lang/ClassLoader;)Ljava/lang/Class;" =
          (.ok .forName : Except (Error θ) _) := by
      rw [method, h.type_classClass, if_neg (by decide), if_neg (by decide), if_pos ⟨rfl, rfl, rfl⟩]
    have hcall : h.callMethod (.holder h.classClass) .forName
        [.object (some (.string (lookupName (h.type k)).loaderName)), .boolean false,
          .object (some (.loader l))] = (.ok (some (.holder k)) : Except (Error θ) _) := by
      rw [callMethod, hfound]
      rfl
    rw [wp_bind, h.wp_lookupStaticMethod hmethod, wp_bind, h.wp_newStringUtf, wp_bind,
      h.wp_callStaticObjectMethod hcall, wp_bind, okOrNull, wp_pure, wp_bind,
      h.wp_validateLoadedClassName, wp_pure]
  · next harray =>
    have hmethod : h.method (.holder h.classLoaderClass) "loadClass"
        "(Ljava/lang/String;)Ljava/lang/Class;" = (.ok .loadClass : Except (Error θ) _) := by
      rw [method, h.type_classLoaderClass, if_neg (by decide), if_neg (by decide),
        if_neg (by decide), if_pos ⟨rfl, rfl, rfl⟩]
    have hcall : h.callMethod (.loader l) .loadClass
        [.object (some (.string (lookupName (h.type k)).loaderName))] =
          (.ok (some (.holder k)) : Except (Error θ) _) := by
      rw [callMethod, if_neg (head?_loaderName (h.isClass k) (h.isReference k) harray), hfound]
      rfl
    rw [wp_bind, h.wp_findClass_classLoaderClass, wp_bind, h.wp_lookupInstanceMethod hmethod,
      wp_bind, h.wp_newStringUtf, wp_bind, h.wp_callInstanceObjectMethod hcall, wp_bind, okOrNull,
      wp_pure, wp_bind, h.wp_validateLoadedClassName, wp_pure]

/-- A handle of the class's loader finds the class. -/
theorem wp_findClass_type (k : K)
    {Q : RawClass (Object K L) × Handle (Object K L) → Heap K L → Prop}
    (hQ : ∀ java, Q (⟨(h.type k).className, .holder k⟩, java) heap) :
    wp (Java.findClass h.jvm.toClassJvm ⟨(h.loader k).map .loader, fun _ ↦ none⟩
      (h.type k).descriptor) Q E heap := by
  have hspelling := spelling_descriptor (h.isReference k)
  rw [← loaderName_lookupName (h.isReference k)] at hQ
  rw [Java.findClass, wp_bind, h.wp_attachCurrentThread,
    normalizeClassLookupName_spelling (h.isClass k) hspelling]
  dsimp only
  rw [wp_bind]
  cases hk : h.loader k with
  | none =>
    rw [Option.map_none, findLocalClass, h.wp_findClass hk, wp_bind, h.wp_newGlobalRef, wp_pure]
    exact hQ _
  | some l =>
    rw [Option.map_some, findLocalClass, h.wp_findClassWithLoader hk, wp_bind, h.wp_newGlobalRef,
      wp_pure]
    exact hQ _

theorem wp_isInstanceOf {object : Object K L} {k : K} {Q : Bool → Heap K L → Prop} :
    wp (h.jvm.isInstanceOf object (.holder k)).run Q E heap ↔
      Q (h.isInstance heap k (some object)) heap := wp_run_of_ok rfl

theorem wp_fromObjectRef {l : L} {Q : Object K L → Heap K L → Prop} :
    wp (h.jvm.fromObjectRef (.loader l)) Q E heap ↔ Q (.loader l) heap := by
  have hinstance : h.isInstance heap h.classLoaderClass (some (.loader l)) = true :=
    h.instanceOf_loaderClass l
  rw [ObjectJvm.fromObjectRef, wp_bind, h.wp_newGlobalRef, wp_bind, ObjectJvm.validateClassLoader,
    wp_bind, h.wp_findClass_classLoaderClass, wp_bind, h.wp_isInstanceOf, if_pos hinstance, wp_pure,
    wp_pure]

theorem wp_classLoader (k : K) {Q : Option (Object K L) → Heap K L → Prop} :
    wp (h.jvm.classLoader (.holder k)) Q E heap ↔ Q ((h.loader k).map .loader) heap := by
  have hmethod : h.method (.holder h.classClass) "getClassLoader" "()Ljava/lang/ClassLoader;" =
      (.ok .getClassLoader : Except (Error θ) _) := by
    rw [method, h.type_classClass, if_neg (by decide), if_pos ⟨rfl, rfl, rfl⟩]
  have hcall : h.callMethod (.holder k) .getClassLoader [] =
      (.ok ((h.loader k).map .loader) : Except (Error θ) _) := rfl
  rw [ObjectJvm.classLoader, wp_bind, h.wp_findClass_classClass, wp_bind,
    h.wp_lookupInstanceMethod hmethod, wp_bind, h.wp_callInstanceObjectMethod hcall]
  cases h.loader k with
  | none => exact Iff.rfl
  | some l =>
    rw [Option.map_some]
    dsimp only
    rw [map_eq_pure_bind, wp_bind, h.wp_fromObjectRef, wp_pure]

theorem wp_declaredClass {k k' : K} (hloader : h.loader k' = h.loader k) (name : String)
    {Q : RawClass (Object K L) → Heap K L → Prop}
    (hQ : Q ⟨(h.type k).className, .holder k⟩ heap) :
    wp (h.jvm.declaredClass ⟨name, .holder k'⟩ (h.type k)) Q E heap := by
  rw [ObjectJvm.declaredClass, wp_bind, h.wp_classLoader, hloader, wp_bind]
  exact h.wp_findClass_type k fun _ ↦ hQ

end Hierarchy

end JavaBridge.Java
