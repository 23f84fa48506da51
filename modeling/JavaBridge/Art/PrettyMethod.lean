import JavaBridge.Art.References
import JavaBridge.Art.MethodQuery
import JavaBridge.Descriptor.PrettyName

/-!
# Printed methods

The text that `ArtMethod::PrettyMethod` gives for a method, and the metadata that is read from it.

Main results:

* `artMethodMetadata_pretty`: what is read of a printed method, where there is no space in its return
  type.
-/

namespace JavaBridge.Art

variable {θ R : Type}

/-- A return type, a class, a name and arguments. -/
def prettyMethodText (className name : String) (signature : MethodSignature) : String :=
  String.ofList (signature.returnType.prettyName.toList ++ ' ' :: ((className ++ ".").toList ++
    (name.toList ++ '(' :: (prettyArguments signature.arguments ++ [')']))))

/-- The kind that the access flags give. -/
def methodKind (accessFlags : BitVec 32) : MethodKind :=
  if accessFlags &&& K_ACC_CONSTRUCTOR ≠ 0 then .constructor
  else if accessFlags &&& K_ACC_STATIC ≠ 0 then .staticMethod
  else .instanceMethod

theorem splitArguments_pretty (formats : Formats θ) (pretty : String) {name : List Char}
    (hname : '(' ∉ name) (arguments : List Char) :
    splitArguments formats pretty (name ++ '(' :: (arguments ++ [')'])) =
      .ok (name, arguments) := by
  have hsplit : Text.splitOnce '(' (name ++ '(' :: (arguments ++ [')'])) =
      some (name, arguments ++ [')']) := Text.splitOnce_eq_some_iff.2 ⟨rfl, hname⟩
  have hlist : name ++ '(' :: (arguments ++ [')']) = (name ++ '(' :: arguments) ++ [')'] := by simp
  rw [splitArguments, hsplit]
  dsimp only
  rw [hlist, Text.stripSuffix_append]
  simp

/-- The method is read back, with its name and the kind of its flags. -/
def ReadsBack (formats : Formats θ) (art : ArtRuntime θ R) (className : String)
    (method : BitVec 64) (accessFlags : BitVec 32) (name : String) (signature : MethodSignature) :
    Prop :=
  ∃ modifiers id, artMethodMetadata formats art className method accessFlags =
    .ok (some ⟨name, methodKind accessFlags, signature, modifiers, id⟩)

/-- A printed method is read back. A class initialiser is left out, and a constructor has the name
of constructors. -/
theorem artMethodMetadata_pretty (formats : Formats θ) (art : ArtRuntime θ R)
    (className : String) (method : BitVec 64) (accessFlags : BitVec 32) {name : String}
    {signature : MethodSignature}
    (hpretty : callPrettyMethod art method true = .ok (prettyMethodText className name signature))
    (hname : '(' ∉ name.toList) (harguments : ∀ ty ∈ signature.arguments, ty.IsNamed)
    (hreturn : signature.returnType.IsNamed)
    (hspace : ' ' ∉ signature.returnType.prettyName.toList) :
    artMethodMetadata formats art className method accessFlags =
      .ok (if name = "<clinit>" then none
        else some ⟨if methodKind accessFlags = .constructor then "<init>" else name,
          methodKind accessFlags, signature, accessFlags &&& 0xffff, method⟩) := by
  have hsplit : Text.splitOnce ' ' (prettyMethodText className name signature).toList =
      some (signature.returnType.prettyName.toList, (className ++ ".").toList ++
        (name.toList ++ '(' :: (prettyArguments signature.arguments ++ [')']))) := by
    rw [prettyMethodText, String.toList_ofList]
    exact Text.splitOnce_eq_some_iff.2 ⟨rfl, hspace⟩
  have hsignature := MethodSignature.fromPrettyTypes_pretty (θ := θ) harguments hreturn
  have hread : artMethodMetadata formats art className method accessFlags =
      prettyMetadata formats className method accessFlags
        (prettyMethodText className name signature) := by
    rw [artMethodMetadata, hpretty]
    exact pure_bind (prettyMethodText className name signature)
      (prettyMetadata formats className method accessFlags)
  rw [hread, prettyMetadata, hsplit]
  dsimp only
  rw [Text.stripPrefix_append]
  dsimp only
  rw [splitArguments_pretty formats _ hname]
  show (if String.ofList name.toList = "<clinit>" then _ else _) = _
  rw [String.ofList_toList]
  split
  · rfl
  · rw [String.ofList_toList, hsignature]
    rfl

/-- Every method prints the text. -/
def printing (text : String) : ArtRuntime Nat Nat :=
  { secondRefused with
    prettyMethod := fun _ _ ↦ ⟨1, 0, 8⟩
    chars := fun _ ↦ Utf8.encode text.toList ++ [0] }

/-- A name with a space in the class and in an argument, and an array. -/
def spacedSignature : MethodSignature :=
  ⟨[.object "com/example/An Argument", .array (.array .int)], .array (.object "java/lang/String")⟩

theorem artMethodMetadata_pretty_spaced :
    artMethodMetadata plainFormats
        (printing (prettyMethodText "com.example.A Class" "f" spacedSignature))
        "com.example.A Class" 0x1000 K_ACC_STATIC =
      .ok (some ⟨"f", .staticMethod, spacedSignature, 8, 0x1000⟩) := by
  have hpretty : callPrettyMethod
      (printing (prettyMethodText "com.example.A Class" "f" spacedSignature)) 0x1000 true =
        .ok (prettyMethodText "com.example.A Class" "f" spacedSignature) := by decide +kernel
  have harguments : ∀ ty ∈ spacedSignature.arguments, ty.IsNamed := by
    have hall : spacedSignature.arguments.all (fun ty ↦ ty.IsNamed) = true := by decide +kernel
    exact fun ty hty ↦ of_decide_eq_true (List.all_eq_true.1 hall ty hty)
  have hname : '(' ∉ "f".toList := by decide
  have hreturn : spacedSignature.returnType.IsNamed := by decide +kernel
  have hspace : ' ' ∉ spacedSignature.returnType.prettyName.toList := by decide +kernel
  rw [artMethodMetadata_pretty plainFormats _ "com.example.A Class" 0x1000 K_ACC_STATIC hpretty
    hname harguments hreturn hspace]
  rfl

/-- A class initialiser is left out, the flag of constructors takes the name, and the text is cut at
a space in its return type. -/
theorem not_readsBack :
    ¬ReadsBack plainFormats (printing (prettyMethodText "A" "<clinit>" ⟨[], .void⟩)) "A" 0x1000
        (K_ACC_STATIC ||| K_ACC_CONSTRUCTOR) "<clinit>" ⟨[], .void⟩ ∧
      ¬ReadsBack plainFormats (printing (prettyMethodText "A" "f" ⟨[], .void⟩)) "A" 0x1000
        K_ACC_CONSTRUCTOR "f" ⟨[], .void⟩ ∧
      ¬ReadsBack plainFormats (printing (prettyMethodText "A" "f" ⟨[], .object "A Result"⟩)) "A"
        0x1000 0 "f" ⟨[], .object "A Result"⟩ := by
  refine ⟨?_, ?_, ?_⟩
  · have hrun : artMethodMetadata plainFormats
        (printing (prettyMethodText "A" "<clinit>" ⟨[], .void⟩)) "A" 0x1000
        (K_ACC_STATIC ||| K_ACC_CONSTRUCTOR) = .ok none := by decide +kernel
    rintro ⟨modifiers, id, h⟩
    cases hrun.symm.trans h
  · have hrun : artMethodMetadata plainFormats
        (printing (prettyMethodText "A" "f" ⟨[], .void⟩)) "A" 0x1000 K_ACC_CONSTRUCTOR =
          .ok (some ⟨"<init>", .constructor, ⟨[], .void⟩, 0, 0x1000⟩) := by decide +kernel
    rintro ⟨modifiers, id, h⟩
    have hname := hrun.symm.trans h
    simp at hname
  · have hrun : artMethodMetadata plainFormats
        (printing (prettyMethodText "A" "f" ⟨[], .object "A Result"⟩)) "A" 0x1000 0 =
          unsupportedMethodQuery ("PrettyMethod output A Result A.f() does not start with class A")
        := by decide +kernel
    rintro ⟨modifiers, id, h⟩
    cases hrun.symm.trans h

end JavaBridge.Art
