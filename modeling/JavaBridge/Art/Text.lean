import JavaBridge.Art.References

/-!
# Texts in modified UTF-8

What the accessors of a string, the descriptor of a class and the text of a method make of modified
UTF-8, and what becomes of a whole enumeration where one name is not decoded.

Main results:

* `matchClass_eq_ok_iff`: the texts that a query has to read of a class.
* `decoded_iff`: each place decodes the texts without supplementary characters, and the accessor those
  without `U+0000` besides.
-/

namespace JavaBridge.Art

open ModifiedUtf8 (IsPlain IsSupplementary encodeUtf16)

variable {θ R : Type}

/-! ## Names -/

/-- A text that a class or a method may have. -/
structure Name where
  text : List Char
  noNul : ∀ c ∈ text, c.toNat ≠ 0

namespace Name

variable (name : Name)

/-- What the runtime stores. -/
def bytes : List UInt8 := ModifiedUtf8.encode (encodeUtf16 name.text)

def toString : String := String.ofList name.text

/-- Every character has one unit. -/
def IsBasic : Prop := ∀ c ∈ name.text, ¬IsSupplementary c

instance : Decidable name.IsBasic := List.decidableBAll (fun c ↦ ¬IsSupplementary c) name.text

theorem isBasic_iff : name.IsBasic ↔ ∀ c ∈ name.text, IsPlain c :=
  ⟨fun h c hc ↦ ⟨name.noNul c hc, h c hc⟩, fun h c hc ↦ (h c hc).2⟩

theorem cstrToStr_eq_ok_iff (rest : List UInt8) {text : String} :
    cstrToStr (θ := θ) (name.bytes ++ 0 :: rest) = .ok text ↔
      name.IsBasic ∧ name.toString = text := by
  rw [bytes, cstrToStr_modifiedUtf8, isBasic_iff]
  rfl

end Name

/-! ## Texts of a class -/

section

variable {formats : Formats θ} {art : ArtRuntime θ R} {query : MethodQuery}
  {layout : ArtMethodQueryLayout} {holder : BitVec 64}

/-- A method that a query reads. -/
structure ReadMethod where
  className : String
  method : BitVec 64
  accessFlags : BitVec 32
  deriving DecidableEq

/-- The methods that a query reads of a class with a descriptor. -/
def readMethods (art : ArtRuntime θ R) (query : MethodQuery) (layout : ArtMethodQueryLayout)
    (holder : BitVec 64) (descriptor : String) : List ReadMethod :=
  match queriedClass query descriptor, declaredMethods art layout holder with
  | some className, some declared =>
    (List.range declared.length).map fun index ↦
      ⟨className, (methodAt art layout declared.data index).1,
        (methodAt art layout declared.data index).2⟩
  | _, _ => []

/-- The loop goes through where every method is read; what was seen and found does not matter. -/
theorem collectMethods_eq_ok_iff (formats : Formats θ) (art : ArtRuntime θ R) (query : MethodQuery)
    (layout : ArtMethodQueryLayout) (className : String) (data : BitVec 64) (count index : Nat)
    (seen : List String) (methods : List MethodMetadata) :
    (∃ found, collectMethods formats art query layout className data count index seen methods =
      .ok found) ↔
      ∀ i < count, ∃ metadata, artMethodMetadata formats art className
        (methodAt art layout data (index + i)).1 (methodAt art layout data (index + i)).2 =
          .ok metadata := by
  induction count generalizing index seen methods with
  | zero => exact iff_of_true ⟨methods, rfl⟩ nofun
  | succ count ih =>
    rw [collectMethods]
    dsimp only
    cases hread : artMethodMetadata formats art className (methodAt art layout data index).1
        (methodAt art layout data index).2 with
    | error e =>
      refine iff_of_false (fun h ↦ ?_) fun h ↦ ?_
      · obtain ⟨found, hfound⟩ := h
        cases hfound
      · obtain ⟨metadata, hmetadata⟩ := h 0 (Nat.succ_pos _)
        rw [Nat.add_zero, hread] at hmetadata
        cases hmetadata
    | ok metadata =>
      have hsplit : (∀ i < count + 1, ∃ metadata, artMethodMetadata formats art className
          (methodAt art layout data (index + i)).1 (methodAt art layout data (index + i)).2 =
            .ok metadata) ↔
          ∀ i < count, ∃ metadata, artMethodMetadata formats art className
            (methodAt art layout data (index + 1 + i)).1
            (methodAt art layout data (index + 1 + i)).2 = .ok metadata := by
        constructor
        · intro h i hi
          rw [Nat.add_assoc, Nat.add_comm 1]
          exact h (i + 1) (Nat.succ_lt_succ hi)
        · intro h i hi
          cases i with
          | zero => exact ⟨metadata, hread⟩
          | succ i =>
            rw [Nat.add_comm i, ← Nat.add_assoc]
            exact h i (Nat.lt_of_succ_lt_succ hi)
      rw [hsplit]
      cases metadata with
      | none => exact ih _ _ _
      | some metadata =>
        dsimp only [bind, Except.bind]
        split
        · exact ih _ _ _
        · exact ih _ _ _

/-- A class is read where the query passes over it for its loader, or where its descriptor is read
and so are all the methods that it then asks for. -/
theorem matchClass_eq_ok_iff :
    (∃ found, matchClass formats art query layout holder = .ok found) ↔
      (¬(query.skipSystemClasses ∧ classLoaderKey holder art.contents = 0) →
        ∃ descriptor, classDescriptorFromArt (θ := θ) (art.getClassDescriptor holder) =
            .ok descriptor ∧
          ∀ read ∈ readMethods art query layout holder descriptor, ∃ metadata,
            artMethodMetadata formats art read.className read.method read.accessFlags =
              .ok metadata) := by
  rw [matchClass]
  by_cases hskip : query.skipSystemClasses ∧ classLoaderKey holder art.contents = 0
  · rw [if_pos hskip]
    exact iff_of_true ⟨_, rfl⟩ fun h ↦ absurd hskip h
  · rw [if_neg hskip, forall_prop_of_true hskip]
    cases hdescriptor : classDescriptorFromArt (θ := θ) (art.getClassDescriptor holder) with
    | error e =>
      refine iff_of_false (fun h ↦ ?_) fun h ↦ ?_
      · obtain ⟨found, hfound⟩ := h
        cases hfound
      · obtain ⟨descriptor, hread, -⟩ := h
        cases hread
    | ok descriptor =>
      have hsame {P : String → Prop} : (∃ found, (.ok descriptor : Except (Error θ) String) =
          .ok found ∧ P found) ↔ P descriptor := by
        simp
      rw [hsame, readMethods]
      dsimp only [bind, Except.bind]
      cases queriedClass query descriptor with
      | none => exact iff_of_true ⟨_, rfl⟩ (List.forall_mem_nil _)
      | some className =>
        cases declaredMethods art layout holder with
        | none => exact iff_of_true ⟨_, rfl⟩ (List.forall_mem_nil _)
        | some declared =>
          have hcollect := collectMethods_eq_ok_iff formats art query layout className declared.data
            declared.length 0 [] []
          simp only [Nat.zero_add] at hcollect
          simp only [List.forall_mem_map, List.mem_range]
          rw [← hcollect]
          constructor
          · rintro ⟨found, hfound⟩
            cases hmethods : collectMethods formats art query layout className declared.data
                declared.length 0 [] [] with
            | error e =>
              rw [hmethods] at hfound
              cases hfound
            | ok methods => exact ⟨methods, rfl⟩
          · rintro ⟨methods, hmethods⟩
            rw [hmethods]
            dsimp only
            split
            · exact ⟨_, rfl⟩
            · exact ⟨_, rfl⟩

end

/-! ## Runs -/

/-- The classes of a walk, each with a name. -/
structure NamedClasses (art : ArtRuntime θ R) (visited : List (BitVec 64)) where
  name : BitVec 64 → Name
  descriptor : ∀ holder ∈ newClasses [] visited, ∃ rest,
    art.getClassDescriptor holder = some ((name holder).bytes ++ 0 :: rest)

/-- The methods that a query reads of these classes, each with a text that can be parsed. -/
structure NamedMethods (formats : Formats θ) (art : ArtRuntime θ R) (query : MethodQuery)
    (layout : ArtMethodQueryLayout) {visited : List (BitVec 64)}
    (classes : NamedClasses art visited) where
  pretty : BitVec 64 → Name
  holds : ∀ holder ∈ newClasses [] visited,
    ∀ read ∈ readMethods art query layout holder (classes.name holder).toString,
      (art.prettyMethod read.method true).Holds art.chars (pretty read.method).bytes
  parsed : ∀ holder ∈ newClasses [] visited,
    ∀ read ∈ readMethods art query layout holder (classes.name holder).toString,
      ∃ metadata, prettyMetadata formats read.className read.method read.accessFlags
        (pretty read.method).toString = .ok metadata

section

variable {formats : Formats θ} {art : ArtRuntime θ R} {query : MethodQuery}
  {layout : ArtMethodQueryLayout} {visited : List (BitVec 64)} {name : Name}

theorem toString_eq_ok_iff {string : ArtStdString} {deref : BitVec 64 → List UInt8} {text : String}
    (h : string.Holds deref name.bytes) :
    string.toString (θ := θ) deref = .ok text ↔ name.IsBasic ∧ name.toString = text := by
  obtain ⟨rest, hdata⟩ := h
  rw [ArtStdString.toString, hdata]
  exact name.cstrToStr_eq_ok_iff rest

theorem NamedClasses.descriptor_eq_ok_iff (classes : NamedClasses art visited) {holder : BitVec 64}
    (hholder : holder ∈ newClasses [] visited) {descriptor : String} :
    classDescriptorFromArt (θ := θ) (art.getClassDescriptor holder) = .ok descriptor ↔
      (classes.name holder).IsBasic ∧ (classes.name holder).toString = descriptor := by
  obtain ⟨rest, hdescriptor⟩ := classes.descriptor holder hholder
  rw [hdescriptor]
  exact (classes.name holder).cstrToStr_eq_ok_iff rest

/-- A method is read exactly where its text is decoded. -/
theorem artMethodMetadata_eq_ok_iff {className : String} {method : BitVec 64}
    {accessFlags : BitVec 32} (hholds : (art.prettyMethod method true).Holds art.chars name.bytes)
    (hparsed : ∃ metadata,
      prettyMetadata formats className method accessFlags name.toString = .ok metadata) :
    (∃ metadata, artMethodMetadata formats art className method accessFlags = .ok metadata) ↔
      name.IsBasic := by
  have htext (text : String) : callPrettyMethod (θ := θ) art method true = .ok text ↔
      name.IsBasic ∧ name.toString = text := toString_eq_ok_iff hholds
  rw [artMethodMetadata]
  constructor
  · rintro ⟨metadata, hmetadata⟩
    obtain ⟨text, hcall, -⟩ := Fallible.bind_eq_ok.1 hmetadata
    exact ((htext text).1 (Fallible.mapError_eq_ok.1 hcall)).1
  · intro hbasic
    obtain ⟨metadata, hmetadata⟩ := hparsed
    exact ⟨metadata, Fallible.bind_eq_ok.2
      ⟨_, Fallible.mapError_eq_ok.2 ((htext _).2 ⟨hbasic, rfl⟩), hmetadata⟩⟩

/-- The loaded classes are enumerated exactly where every name is decoded. -/
theorem enumerateLoadedClassHandles_eq_ok_iff (hart : AllGranted art)
    (classes : NamedClasses art visited) (s : GlobalRefs R) :
    (∃ handles t, enumerateLoadedClassHandles art (.ok ()) visited s = .ok handles t) ↔
      ∀ holder ∈ newClasses [] visited, (classes.name holder).IsBasic := by
  have hall (start : Nat) (objects : List (BitVec 64)) : AllFrom (Promotable art) start objects ↔
      ∀ holder ∈ objects, ∃ descriptor,
        classDescriptorFromArt (θ := θ) (art.getClassDescriptor holder) = .ok descriptor := by
    induction objects generalizing start with
    | nil => exact iff_of_true trivial nofun
    | cons object objects ih =>
      rw [AllFrom, ih, List.forall_mem_cons, Promotable, and_iff_left (b := Granted art _ _) (hart start)]
  have hbasic : (∀ holder ∈ newClasses [] visited, (classes.name holder).IsBasic) ↔
      AllFrom (Promotable art) s.calls (newClasses [] visited) := by
    rw [hall]
    refine forall₂_congr fun holder hholder ↦ ?_
    simp [classes.descriptor_eq_ok_iff hholder]
  have hwp := wp_enumerateLoadedClassHandles art visited s
  rw [Fallible.wp] at hwp
  rw [hbasic]
  split at hwp
  · next handles t hrun =>
    obtain ⟨created, hthrough, -⟩ := hwp
    exact iff_of_true ⟨handles, t, hrun⟩ hthrough.1
  · next e t hrun =>
    obtain ⟨created, hcut⟩ := hwp
    refine iff_of_false ?_ hcut.not_allFrom
    rintro ⟨handles, u, hok⟩
    rw [hrun] at hok
    cases hok

/-- A query goes through exactly where every text that it reads is decoded. -/
theorem enumerateMethods_eq_ok_iff [DecidableEq R] (hart : AllGranted art)
    (classes : NamedClasses art visited) (methods : NamedMethods formats art query layout classes)
    (s : GlobalRefs R) :
    (∃ groups t, enumerateMethods formats art query ⟨.ok (), .ok layout, visited⟩ s =
      .ok groups t) ↔
      ∀ holder ∈ newClasses [] visited,
        ¬(query.skipSystemClasses ∧ classLoaderKey holder art.contents = 0) →
          (classes.name holder).IsBasic ∧
            ∀ read ∈ readMethods art query layout holder (classes.name holder).toString,
              (methods.pretty read.method).IsBasic := by
  have hclass (holder : BitVec 64) (hholder : holder ∈ newClasses [] visited) :
      (∃ found, matchClass formats art query layout holder = .ok found) ↔
        (¬(query.skipSystemClasses ∧ classLoaderKey holder art.contents = 0) →
          (classes.name holder).IsBasic ∧
            ∀ read ∈ readMethods art query layout holder (classes.name holder).toString,
              (methods.pretty read.method).IsBasic) := by
    rw [matchClass_eq_ok_iff]
    refine imp_congr_right fun _ ↦ ?_
    simp only [classes.descriptor_eq_ok_iff hholder, and_assoc, exists_and_left, exists_eq_left']
    refine and_congr_right fun _ ↦ forall₂_congr fun read hread ↦ ?_
    exact artMethodMetadata_eq_ok_iff (methods.holds holder hholder read hread)
      (methods.parsed holder hholder read hread)
  have hwp := wp_enumerateMethods_of_granted formats hart query layout visited s
  rw [Fallible.wp] at hwp
  rw [← forall₂_congr hclass]
  split at hwp
  · next groups t hrun => exact iff_of_true ⟨groups, t, hrun⟩ hwp.1
  · next e t hrun =>
    obtain ⟨holder, hholder, error, herror⟩ := hwp
    refine iff_of_false ?_ fun h ↦ ?_
    · rintro ⟨groups, u, hok⟩
      rw [hrun] at hok
      cases hok
    · obtain ⟨found, hfound⟩ := h holder hholder
      rw [herror] at hfound
      cases hfound

end

/-! ## Places where a text is decoded -/

/-- A place where a text is decoded, with the text; or a run, with all the texts that it finds. -/
inductive Site (θ R : Type)
  | string (text : List Char)
  | classDescriptor (name : Name) (rest : List UInt8)
  | prettyMethod (name : Name) (stored : ArtStdString) (deref : BitVec 64 → List UInt8)
    (holds : stored.Holds deref name.bytes)
  | loadedClasses (art : ArtRuntime θ R) (granted : AllGranted art) (visited : List (BitVec 64))
    (classes : NamedClasses art visited) (refs : GlobalRefs R)
  | methods (formats : Formats θ) (art : ArtRuntime θ R) (granted : AllGranted art)
    (query : MethodQuery) (layout : ArtMethodQueryLayout) (visited : List (BitVec 64))
    (classes : NamedClasses art visited) (texts : NamedMethods formats art query layout classes)
    (refs : GlobalRefs R)

/-- The text is decoded; no name makes a run fail. -/
def Site.Decoded [DecidableEq R] : Site θ R → Prop
  | .string text =>
    getStringRaw (θ := θ) .granted (some (encodeUtf16 text)) = .ok (String.ofList text) ∧
      getStringUtfRaw (θ := θ) .granted (encodeUtf16 text) =
        getStringRaw .granted (some (encodeUtf16 text))
  | .classDescriptor name rest =>
    classDescriptorFromArt (θ := θ) (some (name.bytes ++ 0 :: rest)) = .ok name.toString
  | .prettyMethod name stored deref _ => stored.toString (θ := θ) deref = .ok name.toString
  | .loadedClasses art _ visited _ refs =>
    ∃ handles t, enumerateLoadedClassHandles art (.ok ()) visited refs = .ok handles t
  | .methods formats art _ query layout visited _ _ refs =>
    ∃ groups t, enumerateMethods formats art query ⟨.ok (), .ok layout, visited⟩ refs =
      .ok groups t

/-- Modified UTF-8 of the texts is UTF-8. -/
def Site.IsPlain : Site θ R → Prop
  | .string text => ∀ c ∈ text, ModifiedUtf8.IsPlain c
  | .classDescriptor name _ => name.IsBasic
  | .prettyMethod name _ _ _ => name.IsBasic
  | .loadedClasses _ _ visited classes _ =>
    ∀ holder ∈ newClasses [] visited, (classes.name holder).IsBasic
  | .methods _ art _ query layout visited classes texts _ =>
    ∀ holder ∈ newClasses [] visited,
      ¬(query.skipSystemClasses ∧ classLoaderKey holder art.contents = 0) →
        (classes.name holder).IsBasic ∧
          ∀ read ∈ readMethods art query layout holder (classes.name holder).toString,
            (texts.pretty read.method).IsBasic

/-- A text is decoded exactly where modified UTF-8 does not differ from UTF-8. -/
theorem decoded_iff [DecidableEq R] (site : Site θ R) : site.Decoded ↔ site.IsPlain := by
  cases site with
  | string text =>
    rw [Site.Decoded, Site.IsPlain, getStringRaw_encodeUtf16, and_iff_right rfl,
      getStringUtfRaw_encodeUtf16, and_iff_left rfl]
  | classDescriptor name rest =>
    exact (name.cstrToStr_eq_ok_iff rest).trans (and_iff_left rfl)
  | prettyMethod name stored deref holds => exact (toString_eq_ok_iff holds).trans (and_iff_left rfl)
  | loadedClasses art granted visited classes refs =>
    exact enumerateLoadedClassHandles_eq_ok_iff granted classes refs
  | methods formats art granted query layout visited classes texts refs =>
    exact enumerateMethods_eq_ok_iff granted classes texts refs

/-- `U+0000` and `U+1F600` in a Java string, and `U+1F600` in the descriptor of a class. -/
theorem not_decoded :
    ¬(Site.string [Char.ofNat 0] : Site Empty Nat).Decoded ∧
      ¬(Site.string [Char.ofNat 0x1F600] : Site Empty Nat).Decoded ∧
      ¬(Site.classDescriptor ⟨['L', Char.ofNat 0x1F600, ';'], by simp⟩ [] :
        Site Empty Nat).Decoded := by
  have hfails {c : Char} (hc : ¬ModifiedUtf8.IsPlain c) :
      ¬(Site.string [c] : Site Empty Nat).Decoded := by
    rw [Site.Decoded, getStringRaw_encodeUtf16, getStringUtfRaw_encodeUtf16]
    rintro ⟨-, hplain, -⟩
    exact hc (hplain c List.mem_cons_self)
  refine ⟨hfails (by decide), hfails (by decide), fun h ↦ ?_⟩
  · rw [Site.Decoded, classDescriptorFromArt, Name.cstrToStr_eq_ok_iff] at h
    exact h.1 (Char.ofNat 0x1F600) (by decide) (by decide)

/-! ## A class with a supplementary character -/

/-- The classes `A` and `U+1F600`, each with a method `f`. -/
def supplementaryClass : ArtRuntime Nat Nat :=
  { twoHolders with
    getClassDescriptor := fun holder ↦ some ((className holder).bytes ++ [0])
    prettyMethod := fun method _ ↦ ⟨1, 0, method⟩
    chars := fun pointer ↦ (methodText pointer).bytes ++ [0] }
where
  className (holder : BitVec 64) : Name :=
    if holder = 0x1000 then ⟨"LA;".toList, by simp⟩
    else ⟨['L', Char.ofNat 0x1F600, ';'], by simp⟩
  methodText (method : BitVec 64) : Name :=
    if method = 0x3008 then ⟨"void A.f()".toList, by simp⟩
    else ⟨"void ".toList ++ Char.ofNat 0x1F600 :: ".f()".toList, by simp⟩

namespace supplementaryClass

def layout : ArtMethodQueryLayout := ⟨16, 24, 32, 4⟩

def query : MethodQuery := ⟨"*", "f", false, false, false⟩

def classes (visited : List (BitVec 64)) : NamedClasses supplementaryClass visited where
  name := className
  descriptor _ _ := ⟨[], rfl⟩

theorem readMethods_A : readMethods supplementaryClass query layout 0x1000
    (className 0x1000).toString = [⟨"A", 0x3008, 0⟩] := by
  decide +kernel

theorem readMethods_supplementary : readMethods supplementaryClass query layout 0x2000
    (className 0x2000).toString = [⟨String.ofList [Char.ofNat 0x1F600], 0x4008, 0⟩] := by
  decide +kernel

theorem prettyMetadata_A : prettyMetadata plainFormats "A" 0x3008 0 (methodText 0x3008).toString =
    .ok (some ⟨"f", .instanceMethod, ⟨[], .void⟩, 0, 0x3008⟩) := by
  decide +kernel

theorem prettyMetadata_supplementary : prettyMetadata plainFormats
    (String.ofList [Char.ofNat 0x1F600]) 0x4008 0 (methodText 0x4008).toString =
      .ok (some ⟨"f", .instanceMethod, ⟨[], .void⟩, 0, 0x4008⟩) := by
  decide +kernel

/-- What is read of either class. -/
theorem eq_or_eq_of_mem {visited : List (BitVec 64)}
    (hvisited : ∀ holder ∈ newClasses [] visited, holder = 0x1000 ∨ holder = 0x2000)
    {holder : BitVec 64} (hholder : holder ∈ newClasses [] visited) {read : ReadMethod}
    (hread : read ∈ readMethods supplementaryClass query layout holder (className holder).toString) :
    read = ⟨"A", 0x3008, 0⟩ ∨ read = ⟨String.ofList [Char.ofNat 0x1F600], 0x4008, 0⟩ := by
  obtain rfl | rfl := hvisited holder hholder
  · rw [readMethods_A] at hread
    exact .inl (List.mem_singleton.1 hread)
  · rw [readMethods_supplementary] at hread
    exact .inr (List.mem_singleton.1 hread)

def methods {visited : List (BitVec 64)}
    (hvisited : ∀ holder ∈ newClasses [] visited, holder = 0x1000 ∨ holder = 0x2000) :
    NamedMethods plainFormats supplementaryClass query layout (classes visited) where
  pretty := methodText
  holds holder hholder read hread := by
    obtain rfl | rfl := eq_or_eq_of_mem hvisited hholder hread
    · exact ⟨[], rfl⟩
    · exact ⟨[], rfl⟩
  parsed holder hholder read hread := by
    obtain rfl | rfl := eq_or_eq_of_mem hvisited hholder hread
    · exact ⟨_, prettyMetadata_A⟩
    · exact ⟨_, prettyMetadata_supplementary⟩

theorem allGranted : AllGranted supplementaryClass := fun _ ↦ rfl

/-- The enumeration of the loaded classes. -/
def enumeration (visited : List (BitVec 64)) : Site Nat Nat :=
  .loadedClasses supplementaryClass allGranted visited (classes visited) ⟨[], 0⟩

/-- The query for `*!f`. -/
def methodQuery {visited : List (BitVec 64)}
    (hvisited : ∀ holder ∈ newClasses [] visited, holder = 0x1000 ∨ holder = 0x2000) :
    Site Nat Nat :=
  .methods plainFormats supplementaryClass allGranted query layout visited (classes visited)
    (methods hvisited) ⟨[], 0⟩

theorem eq_of_mem_A {holder : BitVec 64} (h : holder ∈ newClasses [] [0x1000]) :
    holder = 0x1000 :=
  List.mem_singleton.1 h

theorem eq_or_eq_of_mem_both (holder : BitVec 64) (h : holder ∈ newClasses [] [0x1000, 0x2000]) :
    holder = 0x1000 ∨ holder = 0x2000 := by
  simpa using show holder ∈ [0x1000, 0x2000] from h

theorem mem_both : 0x2000 ∈ newClasses [] [0x1000, 0x2000] := by
  decide

theorem isBasic_A : (className 0x1000).IsBasic ∧ (methodText 0x3008).IsBasic := by
  decide +kernel

theorem not_isBasic_supplementary : ¬(className 0x2000).IsBasic := by
  decide +kernel

end supplementaryClass

open supplementaryClass in
/-- With `A` alone the enumeration and the query go through; with both classes neither does. -/
theorem decoded_supplementaryClass :
    ((enumeration [0x1000]).Decoded ∧ (methodQuery fun _ h ↦ .inl (eq_of_mem_A h)).Decoded) ∧
      ¬(enumeration [0x1000, 0x2000]).Decoded ∧
        ¬(methodQuery eq_or_eq_of_mem_both).Decoded := by
  simp only [decoded_iff]
  refine ⟨⟨fun holder hholder ↦ ?_, fun holder hholder _ ↦ ?_⟩, fun h ↦ ?_, fun h ↦ ?_⟩
  · obtain rfl := eq_of_mem_A hholder
    exact isBasic_A.1
  · obtain rfl := eq_of_mem_A hholder
    refine ⟨isBasic_A.1, fun read hread ↦ ?_⟩
    obtain rfl := List.mem_singleton.1 (readMethods_A ▸ hread)
    exact isBasic_A.2
  · exact not_isBasic_supplementary (h 0x2000 mem_both)
  · exact not_isBasic_supplementary (h 0x2000 mem_both (by decide)).1

end JavaBridge.Art
