import JavaBridge.Descriptor.ClassName
import JavaBridge.Java.Handle

/-!
# Class lookup

The names that a class is looked up by, and the lookup through a handle, which keeps the classes
that it has found by their normalized names. The JNI stands outside: a `ClassJvm` answers the calls,
over an arbitrary state `ω`.

Main results:

* `normalizeClassLookupName_spelling`: every spelling of a class is normalized to the same names.
* `lookupNames_canonical`: the names are canonical, and so are the keys of the classes found.
* `wp_findClass`: a class that has been found is found again, by every spelling, without a lookup.
-/

namespace JavaBridge.Java

open Fallible

/-! ## Names -/

structure ClassLookupName where
  findClassName : String
  loaderName : String
  isArrayDescriptor : Bool
  deriving DecidableEq

/-- The loop over the characters, where `inObject` says whether they are of a class name. -/
def normalizeArrayDescriptorForLoader : Bool → List Char → List Char
  | _, [] => []
  | inObject, ch :: rest =>
    if ch = 'L' ∧ inObject = false then ch :: normalizeArrayDescriptorForLoader true rest
    else if ch = ';' ∧ inObject = true then ch :: normalizeArrayDescriptorForLoader false rest
    else if ch = '/' ∧ inObject = true then '.' :: normalizeArrayDescriptorForLoader inObject rest
    else ch :: normalizeArrayDescriptorForLoader inObject rest

def normalizeClassLookupName (name : String) : ClassLookupName :=
  let cs := name.toList
  let isArrayDescriptor := cs.head? = some '['
  let stripped :=
    if ¬isArrayDescriptor ∧ cs.head? = some 'L' ∧ cs.getLast? = some ';' then (cs.drop 1).dropLast
    else cs
  { findClassName := String.ofList (Text.replace '.' '/' stripped)
    loaderName :=
      if isArrayDescriptor then String.ofList (normalizeArrayDescriptorForLoader false cs)
      else String.ofList (Text.replace '/' '.' stripped)
    isArrayDescriptor }

example : normalizeClassLookupName "[[Ljava/lang/String;" =
    ⟨"[[Ljava/lang/String;", "[[Ljava.lang.String;", true⟩ := by decide +kernel

/-! ## Lookup -/

/-- What the VM answers to a call. -/
abbrev Answer (θ ω α : Type) := ω → Except (Error θ) α × ω

/-- The calls that a lookup makes. -/
structure ClassJvm (θ ω R M : Type) where
  attachCurrentThread : Answer θ ω Unit
  findClass (name : String) : Answer θ ω R
  lookupStaticMethod (holder : R) (name signature : String) : Answer θ ω M
  lookupInstanceMethod (holder : R) (name signature : String) : Answer θ ω M
  newStringUtf (text : String) : Answer θ ω R
  callStaticObjectMethod (holder : R) (method : M) (args : List (JavaValue R)) :
    Answer θ ω (Option R)
  callInstanceObjectMethod (receiver : R) (method : M) (args : List (JavaValue R)) :
    Answer θ ω (Option R)
  getString (string : R) : Answer θ ω String
  newGlobalRef (object : R) : Answer θ ω R

variable {θ ω R M α : Type}

abbrev LookupM (θ ω α : Type) := EStateM (Error θ) ω α

def Answer.run (answer : Answer θ ω α) : LookupM θ ω α := fun s ↦
  match answer s with
  | (.ok a, t) => .ok a t
  | (.error e, t) => .error e t

def okOrNull (operation : String) : Option R → LookupM θ ω R
  | none => throw (.nullReturn operation)
  | some object => pure object

section

variable (jvm : ClassJvm θ ω R M)

def validateLoadedClassName (classClass jclass : R) (lookup : ClassLookupName) :
    LookupM θ ω Unit := do
  let getName ← (jvm.lookupInstanceMethod classClass "getName" "()Ljava/lang/String;").run
  let actual ← (jvm.callInstanceObjectMethod jclass getName []).run
  let actual ← okOrNull "Class.getName" actual
  let actual ← (jvm.getString actual).run
  if actual = lookup.loaderName then pure ()
  else throw (.classLookupMismatch lookup.loaderName actual)

def findClassWithLoader (loader : R) (lookup : ClassLookupName) : LookupM θ ω R := do
  let classClass ← (jvm.findClass "java/lang/Class").run
  if lookup.isArrayDescriptor then
    let forName ← (jvm.lookupStaticMethod classClass "forName"
      "(Ljava/lang/String;ZLjava/lang/ClassLoader;)Ljava/lang/Class;").run
    let name ← (jvm.newStringUtf lookup.loaderName).run
    let jclass ← (jvm.callStaticObjectMethod classClass forName
      [.object (some name), .boolean false, .object (some loader)]).run
    let jclass ← okOrNull "Class.forName" jclass
    validateLoadedClassName jvm classClass jclass lookup
    pure jclass
  else
    let classLoaderClass ← (jvm.findClass "java/lang/ClassLoader").run
    let loadClass ← (jvm.lookupInstanceMethod classLoaderClass "loadClass"
      "(Ljava/lang/String;)Ljava/lang/Class;").run
    let name ← (jvm.newStringUtf lookup.loaderName).run
    let jclass ← (jvm.callInstanceObjectMethod loader loadClass [.object (some name)]).run
    let jclass ← okOrNull "ClassLoader.loadClass" jclass
    validateLoadedClassName jvm classClass jclass lookup
    pure jclass

/-- A `Java` handle: its loader, and the classes that it has found. -/
structure Handle (R : Type) where
  loader : Option R
  classes : String → Option (RawClass R)

/-- The lookup in the handle's loader scope. -/
def findLocalClass (lookup : ClassLookupName) : Option R → LookupM θ ω R
  | some loader => findClassWithLoader jvm loader lookup
  | none => (jvm.findClass lookup.findClassName).run

/-- `Java::find_class`, with the handle after it. -/
def findClass (java : Handle R) (name : String) : LookupM θ ω (RawClass R × Handle R) := do
  jvm.attachCurrentThread.run
  let lookup := normalizeClassLookupName name
  match java.classes lookup.findClassName with
  | some found => pure (found, java)
  | none =>
    let jclass ← findLocalClass jvm lookup java.loader
    let jclass ← (jvm.newGlobalRef jclass).run
    let found : RawClass R := ⟨lookup.loaderName, jclass⟩
    pure (found, { java with classes := fun key ↦
      if key = lookup.findClassName then some found else java.classes key })

end

/-! ## Spellings -/

/-- The names that a class is accepted by. -/
inductive Spelling : JavaType → String → Prop
  | binaryName (name : String) : Spelling (.object name) (dotted name)
  | internalName (name : String) : Spelling (.object name) name
  | descriptor (name : String) : Spelling (.object name) ("L" ++ name ++ ";")
  | dottedDescriptor (name : String) : Spelling (.object name) ("L" ++ dotted name ++ ";")
  | array (element : JavaType) : Spelling (.array element) (JavaType.array element).descriptor
  | dottedArray (element : JavaType) :
    Spelling (.array element) (dotted (JavaType.array element).descriptor)

/-- The names that the spellings of a class are normalized to. -/
def lookupName : JavaType → ClassLookupName
  | .object name => ⟨name, dotted name, false⟩
  | ty => ⟨ty.descriptor, dotted ty.descriptor, true⟩

theorem normalize_of_plain {name : String} (hhead : name.toList.head? ≠ some '[')
    (hlast : ';' ∉ name.toList) :
    normalizeClassLookupName name = ⟨slashed name, dotted name, false⟩ := by
  have hnot : ¬(¬name.toList.head? = some '[' ∧ name.toList.head? = some 'L' ∧
      name.toList.getLast? = some ';') := fun h ↦ hlast (List.mem_of_getLast? h.2.2)
  simp only [normalizeClassLookupName, if_neg hnot, if_neg hhead, decide_eq_false hhead]
  rfl

theorem normalize_of_descriptor (name : String) :
    normalizeClassLookupName ("L" ++ name ++ ";") = ⟨slashed name, dotted name, false⟩ := by
  have hlist : ("L" ++ name ++ ";").toList = ('L' :: name.toList) ++ [';'] := by simp
  have hhead : (('L' :: name.toList) ++ [';']).head? ≠ some '[' := by
    intro h
    cases h
  have hboth : ¬(('L' :: name.toList) ++ [';']).head? = some '[' ∧
      (('L' :: name.toList) ++ [';']).head? = some 'L' ∧
        (('L' :: name.toList) ++ [';']).getLast? = some ';' :=
    ⟨hhead, rfl, List.getLast?_concat⟩
  have hbody : ((('L' :: name.toList) ++ [';']).drop 1).dropLast = name.toList := by simp
  simp only [normalizeClassLookupName, hlist, if_pos hboth, if_neg hhead, decide_eq_false hhead,
    hbody]
  rfl

theorem dotted_dotted (name : String) : dotted (dotted name) = dotted name := by
  rw [dotted, dotted, String.toList_ofList, Text.replace_eq_self (Text.not_mem_replace (by decide))]

theorem slashed_eq_self {name : String} (h : '.' ∉ name.toList) : slashed name = name := by
  rw [slashed, Text.replace_eq_self h, String.ofList_toList]

/-! ### Arrays -/

/-- Writes a slash one way or the other. -/
structure Separator where
  write : Char → Char
  slash : write '/' = '/' ∨ write '/' = '.'
  other : ∀ c, c ≠ '/' → write c = c

namespace Separator

variable (f : Separator)

/-- Inside a class name, either separator becomes a dot. -/
theorem normalize_body {body : List Char} (h : ';' ∉ body) (rest : List Char) :
    normalizeArrayDescriptorForLoader true (body.map f.write ++ ';' :: rest) =
      Text.replace '/' '.' body ++ ';' :: normalizeArrayDescriptorForLoader false rest := by
  induction body with
  | nil => rfl
  | cons c body ih =>
    obtain ⟨hc, hbody⟩ := not_or.1 (List.mem_cons.not.1 h)
    rw [List.map_cons, List.cons_append, normalizeArrayDescriptorForLoader, ih hbody]
    by_cases hslash : c = '/'
    · subst hslash
      rcases f.slash with h | h <;> rw [h] <;> rfl
    · simp [f.other c hslash, hslash, Ne.symm hc, Text.replace]

/-- Either form of a descriptor becomes its dotted form. -/
theorem normalize_descriptor {ty : JavaType} (h : ty.IsClass) :
    normalizeArrayDescriptorForLoader false (ty.descriptor.toList.map f.write) =
      Text.replace '/' '.' ty.descriptor.toList := by
  induction ty with
  | object name =>
    have hlist : (JavaType.object name).descriptor.toList = 'L' :: (name.toList ++ [';']) := by
      simp [JavaType.descriptor]
    have hbody := f.normalize_body (IsInternalName.not_mem h (.inr (.inl rfl))) []
    rw [hlist, List.map_cons, f.other 'L' (by decide), List.map_append, List.map_singleton,
      f.other ';' (by decide), normalizeArrayDescriptorForLoader, if_pos ⟨rfl, rfl⟩, hbody]
    simp [Text.replace, normalizeArrayDescriptorForLoader]
  | array element ih =>
    have hlist : (JavaType.array element).descriptor.toList = '[' :: element.descriptor.toList := by
      simp [JavaType.descriptor]
    rw [hlist, List.map_cons, f.other '[' (by decide), normalizeArrayDescriptorForLoader, ih h.2]
    simp [Text.replace]
  | _ =>
    rw [JavaType.descriptor, List.map_congr_left (g := id), List.map_id]
    · rfl
    · intro c hc
      refine f.other c ?_
      rintro rfl
      revert hc
      decide

end Separator

/-- Leaves slashes as they are. -/
def slashes : Separator := ⟨id, .inl rfl, fun _ _ ↦ rfl⟩

/-- Turns slashes into dots. -/
def dots : Separator :=
  ⟨fun c ↦ if c = '/' then '.' else c, .inr (if_pos rfl), fun _ h ↦ if_neg h⟩

theorem normalize_of_array {element : JavaType} (h : (JavaType.array element).IsClass)
    (f : Separator) : normalizeClassLookupName
      (String.ofList ((JavaType.array element).descriptor.toList.map f.write)) =
        ⟨slashed (String.ofList ((JavaType.array element).descriptor.toList.map f.write)),
          dotted (JavaType.array element).descriptor, true⟩ := by
  have hhead : ((JavaType.array element).descriptor.toList.map f.write).head? = some '[' := by
    simp [JavaType.descriptor, f.other '[' (by decide)]
  simp only [normalizeClassLookupName, String.toList_ofList, hhead, not_true_eq_false, false_and,
    if_false, if_true, f.normalize_descriptor h, slashed, dotted, decide_true]

theorem normalize_of_internalName {name : String} (h : IsInternalName name) :
    normalizeClassLookupName name = lookupName (.object name) := by
  have hhead : name.toList.head? ≠ some '[' := by
    intro hhead
    exact h.not_mem (.inr (.inr rfl)) (List.mem_of_head? hhead)
  rw [normalize_of_plain hhead (h.not_mem (.inr (.inl rfl))),
    slashed_eq_self (h.not_mem (.inl rfl)), lookupName]

theorem not_mem_dotted {name : String} (h : IsInternalName name) {c : Char}
    (hc : c = ';' ∨ c = '[') : c ∉ (dotted name).toList := by
  have hslash : c ≠ '/' := by rcases hc with rfl | rfl <;> decide
  have hdot : c ≠ '.' := by rcases hc with rfl | rfl <;> decide
  rw [dotted, String.toList_ofList, Text.mem_replace hslash hdot]
  exact h.not_mem (.inr hc)

theorem normalize_of_binaryName {name : String} (h : IsInternalName name) :
    normalizeClassLookupName (dotted name) = lookupName (.object name) := by
  have hhead : (dotted name).toList.head? ≠ some '[' := by
    intro hhead
    exact not_mem_dotted h (.inr rfl) (List.mem_of_head? hhead)
  rw [normalize_of_plain hhead (not_mem_dotted h (.inl rfl)),
    JavaType.slashed_dotted (h.not_mem (.inl rfl)),
    dotted_dotted, lookupName]

/-- **Every spelling** of a class gives the same names. -/
theorem normalizeClassLookupName_spelling {ty : JavaType} {name : String} (h : ty.IsClass)
    (hname : Spelling ty name) : normalizeClassLookupName name = lookupName ty := by
  cases hname with
  | binaryName name => exact normalize_of_binaryName h
  | internalName name => exact normalize_of_internalName h
  | descriptor name =>
    rw [normalize_of_descriptor, slashed_eq_self (IsInternalName.not_mem h (.inl rfl)), lookupName]
  | dottedDescriptor name =>
    rw [normalize_of_descriptor, JavaType.slashed_dotted (IsInternalName.not_mem h (.inl rfl)),
      dotted_dotted, lookupName]
  | array element =>
    have hslashes := normalize_of_array h slashes
    have hwrite : (JavaType.array element).descriptor.toList.map slashes.write =
        (JavaType.array element).descriptor.toList := List.map_id _
    rw [hwrite, String.ofList_toList, slashed_eq_self (JavaType.not_mem_descriptor h)] at hslashes
    exact hslashes
  | dottedArray element =>
    have hdots := normalize_of_array h dots
    have hwrite : String.ofList ((JavaType.array element).descriptor.toList.map dots.write) =
        dotted (JavaType.array element).descriptor := rfl
    rw [hwrite, JavaType.slashed_dotted (JavaType.not_mem_descriptor h)] at hdots
    exact hdots

/-! ## Canonical names -/

theorem isReference_of_spelling {ty : JavaType} {name : String} (h : Spelling ty name) :
    ty.isReference = true := by
  cases h <;> rfl

theorem lookupName_findClassName_inj {ty ty' : JavaType} (h : ty.IsClass) (h' : ty'.IsClass)
    (href : ty.isReference = true) (href' : ty'.isReference = true)
    (heq : (lookupName ty).findClassName = (lookupName ty').findClassName) : ty = ty' := by
  have hbracket {name : String} {element : JavaType} (h : IsInternalName name) :
      name ≠ (JavaType.array element).descriptor := by
    rintro rfl
    exact h.not_mem (.inr (.inr rfl)) (by simp [JavaType.descriptor])
  cases ty with
  | object name =>
    cases ty' with
    | object name' => exact congrArg JavaType.object heq
    | array element => exact absurd heq (hbracket h)
    | _ => exact absurd href' Bool.false_ne_true
  | array element =>
    cases ty' with
    | object name => exact absurd heq.symm (hbracket h')
    | array element' =>
      refine JavaType.descriptor_inj h h' ?_ ?_ heq
      · intro hvoid
        cases hvoid
      · intro hvoid
        cases hvoid
    | _ => exact absurd href' Bool.false_ne_true
  | _ => exact absurd href Bool.false_ne_true

theorem loaderName_lookupName {ty : JavaType} (href : ty.isReference = true) :
    (lookupName ty).loaderName = ty.className := by
  cases ty with
  | object name => rfl
  | array element => rfl
  | _ => exact absurd href Bool.false_ne_true

theorem dotted_findClassName {ty : JavaType} (href : ty.isReference = true) :
    dotted (lookupName ty).findClassName = ty.className := by
  cases ty with
  | object name => rfl
  | array element => rfl
  | _ => exact absurd href Bool.false_ne_true

theorem not_mem_findClassName {ty : JavaType} (h : ty.IsClass) (href : ty.isReference = true) :
    '.' ∉ (lookupName ty).findClassName.toList := by
  cases ty with
  | object name => exact h.not_mem (.inl rfl)
  | array element => exact JavaType.not_mem_descriptor h
  | _ => exact absurd href Bool.false_ne_true

/-- A dotted name does not start like an array. -/
theorem head?_loaderName {ty : JavaType} (h : ty.IsClass) (href : ty.isReference = true)
    (harray : ¬(lookupName ty).isArrayDescriptor = true) :
    (lookupName ty).loaderName.toList.head? ≠ some '[' := by
  cases ty with
  | object name =>
    intro hhead
    exact not_mem_dotted h (.inr rfl) (List.mem_of_head? hhead)
  | array element => exact absurd rfl harray
  | _ => exact absurd href Bool.false_ne_true

theorem spelling_descriptor {ty : JavaType} (href : ty.isReference = true) :
    Spelling ty ty.descriptor := by
  cases ty with
  | object name => exact .descriptor name
  | array element => exact .array element
  | _ => exact absurd href Bool.false_ne_true

theorem spelling_findClassName {ty : JavaType} (href : ty.isReference = true) :
    Spelling ty (lookupName ty).findClassName := by
  cases ty with
  | object name => exact .internalName name
  | array element => exact .array element
  | _ => exact absurd href Bool.false_ne_true

theorem spelling_loaderName {ty : JavaType} (href : ty.isReference = true) :
    Spelling ty (lookupName ty).loaderName := by
  cases ty with
  | object name => exact .binaryName name
  | array element => exact .dottedArray element
  | _ => exact absurd href Bool.false_ne_true

theorem findClass_congr (jvm : ClassJvm θ ω R M) (java : Handle R) {name name' : String}
    (h : normalizeClassLookupName name = normalizeClassLookupName name') :
    findClass jvm java name = findClass jvm java name' := by
  rw [findClass, findClass, h]

theorem findClass_of_classes (jvm : ClassJvm θ ω R M) {java : Handle R} {name : String}
    {found : RawClass R}
    (h : java.classes (normalizeClassLookupName name).findClassName = some found) :
    findClass jvm java name = (do jvm.attachCurrentThread.run; pure (found, java)) := by
  simp only [findClass, h]

/-- A class that has been found is kept, and every spelling of it finds it. -/
theorem wp_findClass (jvm : ClassJvm θ ω R M) (java : Handle R) {ty : JavaType} {name : String}
    (h : ty.IsClass) (hname : Spelling ty name) (s : ω) :
    wp (findClass jvm java name)
      (fun found _ ↦ ∀ other, Spelling ty other →
        findClass jvm found.2 other = (do jvm.attachCurrentThread.run; pure (found.1, found.2)))
      (fun _ _ ↦ True) s := by
  have hkept {found : RawClass R} {java' : Handle R}
      (hfound : java'.classes (normalizeClassLookupName name).findClassName = some found) :
      ∀ other, Spelling ty other →
        findClass jvm java' other = (do jvm.attachCurrentThread.run; pure (found, java')) := by
    intro other hother
    refine findClass_of_classes jvm ?_
    rw [normalizeClassLookupName_spelling h hother, ← normalizeClassLookupName_spelling h hname]
    exact hfound
  rw [findClass, wp_bind]
  refine wp_mono wp_true ?_ fun _ _ _ ↦ trivial
  intro _ t _
  dsimp only
  split
  · next found hfound => exact hkept hfound
  · rw [wp_bind]
    refine wp_mono wp_true ?_ fun _ _ _ ↦ trivial
    intro jclass t _
    rw [wp_bind]
    refine wp_mono wp_true ?_ fun _ _ _ ↦ trivial
    intro jclass t _
    exact hkept (if_pos rfl)

/-- The spellings of a class are normalized to the same names, which are its own and are normalized
to themselves. -/
theorem lookupNames_canonical (jvm : ClassJvm θ ω R M) (java : Handle R) {ty : JavaType}
    {name : String} (h : ty.IsClass) (hname : Spelling ty name) :
    (∀ other, Spelling ty other →
      normalizeClassLookupName other = normalizeClassLookupName name ∧
        findClass jvm java other = findClass jvm java name) ∧
    (∀ ty' other, ty'.IsClass → Spelling ty' other → ty' ≠ ty →
      (normalizeClassLookupName other).findClassName ≠
        (normalizeClassLookupName name).findClassName) ∧
    normalizeClassLookupName (normalizeClassLookupName name).findClassName =
      normalizeClassLookupName name ∧
    normalizeClassLookupName (normalizeClassLookupName name).loaderName =
      normalizeClassLookupName name := by
  have href := isReference_of_spelling hname
  have hnormalize {other : String} (hother : Spelling ty other) :
      normalizeClassLookupName other = normalizeClassLookupName name := by
    rw [normalizeClassLookupName_spelling h hother, normalizeClassLookupName_spelling h hname]
  refine ⟨?_, ?_, ?_, ?_⟩
  · intro other hother
    exact ⟨hnormalize hother, findClass_congr jvm java (hnormalize hother)⟩
  · intro ty' other h' hother hne heq
    rw [normalizeClassLookupName_spelling h hname,
      normalizeClassLookupName_spelling h' hother] at heq
    exact hne (lookupName_findClassName_inj h' h (isReference_of_spelling hother) href heq)
  · refine hnormalize ?_
    rw [normalizeClassLookupName_spelling h hname]
    exact spelling_findClassName href
  · refine hnormalize ?_
    rw [normalizeClassLookupName_spelling h hname]
    exact spelling_loaderName href

/-- A VM that finds nothing. -/
def emptyJvm : ClassJvm Empty Unit Nat Nat where
  attachCurrentThread := fun s ↦ (.ok (), s)
  findClass := fun name s ↦ (.error (.nullReturn name), s)
  lookupStaticMethod := fun _ name _ s ↦ (.error (.nullReturn name), s)
  lookupInstanceMethod := fun _ name _ s ↦ (.error (.nullReturn name), s)
  newStringUtf := fun text s ↦ (.error (.nullReturn text), s)
  callStaticObjectMethod := fun _ _ _ s ↦ (.ok none, s)
  callInstanceObjectMethod := fun _ _ _ s ↦ (.ok none, s)
  getString := fun _ s ↦ (.ok "", s)
  newGlobalRef := fun object s ↦ (.ok object, s)

/-- An array of arrays of a class of the default package whose name begins with the letter of a
descriptor. -/
theorem lookupNames_canonical_lock :
    normalizeClassLookupName (dotted "[[LLock;") = normalizeClassLookupName "[[LLock;" ∧
      (normalizeClassLookupName "LLock;").findClassName ≠
        (normalizeClassLookupName "[[LLock;").findClassName := by
  have hclass : (JavaType.array (.array (.object "Lock"))).IsClass := by decide +kernel
  obtain ⟨hsame, hother, -⟩ := lookupNames_canonical emptyJvm ⟨none, fun _ ↦ none⟩ hclass
    (.array (.array (.object "Lock")))
  refine ⟨(hsame _ (.dottedArray (.array (.object "Lock")))).1, ?_⟩
  refine hother (.object "Lock") _ (by decide +kernel) (.descriptor "Lock") ?_
  intro h
  cases h

end JavaBridge.Java
