import JavaBridge.Art.References
import JavaBridge.MethodQuery.Reflection

/-!
# The two method queries

The direct query and the query by reflection over the same loaded classes. The direct query has one
group for each loader, as it compares the addresses of loaders; reflection compares references, of
which each class has a new one. The direct query passes over classes with very many methods.

Main results:

* `matchedEntry_eq`: what the direct query makes of a class.
* `sameGroups_iff`: when the two queries give the same groups.
-/

namespace JavaBridge

open Art

variable {θ R : Type}

/-! ## Classes of the direct query -/

/-- The methods that a class declares, each with its access flags. -/
def directMethods (art : ArtRuntime θ R) (layout : ArtMethodQueryLayout) (holder : BitVec 64) :
    List (BitVec 64 × BitVec 32) :=
  match declaredArray art layout holder with
  | none => []
  | some declared => (List.range declared.length).map (methodAt art layout declared.data)

/-- What the runtime has in memory of a class. Classes without an `L` in front of their descriptor,
which are those of arrays and of primitive types, declare no methods. -/
structure SeesDirectly (formats : Formats θ) (art : ArtRuntime θ R) (layout : ArtMethodQueryLayout)
    (holder : BitVec 64) (loaded : LoadedClass) : Prop where
  loader : loaderOf (classLoaderKey holder art.contents) = loaded.loader
  descriptor : ∃ descriptor,
    classDescriptorFromArt (θ := θ) (art.getClassDescriptor holder) = .ok descriptor ∧
      classNameFromDescriptor descriptor = loaded.name ∧
        (descriptor.toList.head? ≠ some 'L' → loaded.methods = [])
  methods : ∃ read : List (Option MethodMetadata),
    List.Forall₂ (fun method metadata ↦
        artMethodMetadata formats art loaded.name method.1 method.2 = .ok metadata)
      (directMethods art layout holder) read ∧
    SameShapes (read.filterMap id) loaded.methods

section

variable {formats : Formats θ} {art : ArtRuntime θ R} {query : MethodQuery}
  {layout : ArtMethodQueryLayout} {holder : BitVec 64} {loaded : LoadedClass}

/-- The loop over the methods of a class, where all of them are read. -/
theorem collectMethods_eq {className : String} {data : BitVec 64} {count index : Nat}
    {read : List (Option MethodMetadata)} (seen : List String) (methods : List MethodMetadata)
    (h : List.Forall₂ (fun method metadata ↦
        artMethodMetadata formats art className method.1 method.2 = .ok metadata)
      ((List.range' index count).map (methodAt art layout data)) read) :
    collectMethods formats art query layout className data count index seen methods =
      .ok (query.selectMethods (read.filterMap id) seen methods) := by
  induction count generalizing index read seen methods with
  | zero =>
    obtain rfl := List.forall₂_nil_left_iff.1 h
    rfl
  | succ count ih =>
    rw [List.range'_succ, List.map_cons] at h
    obtain ⟨metadata, rest, hread, hrest, rfl⟩ := List.forall₂_cons_left_iff.1 h
    rw [collectMethods]
    dsimp only
    rw [hread]
    cases metadata with
    | none =>
      rw [List.filterMap_cons_none (f := id) rfl]
      exact ih seen methods hrest
    | some metadata =>
      rw [List.filterMap_cons_some (f := id) rfl, MethodQuery.selectMethods, apply_ite Except.ok,
        ← ih _ _ hrest, ← ih _ _ hrest]
      rfl

theorem loaderOf_eq_none {loaderKey : BitVec 32} : loaderOf loaderKey = none ↔ loaderKey = 0 := by
  rw [loaderOf, ite_eq_left_iff, imp_iff_not (Option.some_ne_none _), not_not]

theorem queriedClass_eq_some_iff {descriptor className : String} :
    queriedClass query descriptor = some className ↔
      descriptor.toList.head? = some 'L' ∧ classNameFromDescriptor descriptor = className ∧
        ¬(query.skipSystemClasses ∧ MethodQuery.isPlatformClass className) ∧
          MethodQuery.globMatches query.classPattern
            (MethodQuery.normalizeCase className query.ignoreCase) = true := by
  rw [queriedClass]
  split
  · next hhead => exact iff_of_false nofun fun h ↦ hhead h.1
  · next hhead =>
    rw [and_iff_right (not_not.1 hhead)]
    dsimp only
    split
    · next hplatform =>
      refine iff_of_false nofun ?_
      rintro ⟨rfl, h, -⟩
      exact h hplatform
    · next hplatform =>
      split
      · next hglob =>
        refine iff_of_false nofun ?_
        rintro ⟨rfl, -, h⟩
        rw [hglob] at h
        cases h
      · next hglob =>
        rw [Option.some.injEq]
        refine ⟨?_, And.left⟩
        rintro rfl
        exact ⟨rfl, hplatform, by simpa using hglob⟩

/-- What the loop is run over: all methods, or nothing where there are none or too many. -/
theorem declaredMethods_cases (art : ArtRuntime θ R) (layout : ArtMethodQueryLayout)
    (holder : BitVec 64) :
    (∃ declared, Art.declaredMethods art layout holder = some declared ∧
      directMethods art layout holder =
        (List.range' 0 declared.length).map (methodAt art layout declared.data) ∧
      (directMethods art layout holder).length ≤ 10000) ∨
    Art.declaredMethods art layout holder = none ∧
      (directMethods art layout holder = [] ∨
        10000 < (directMethods art layout holder).length) := by
  rw [Art.declaredMethods, directMethods]
  cases declaredArray art layout holder with
  | none => exact .inr ⟨rfl, .inl rfl⟩
  | some declared =>
    dsimp only
    rw [Option.filter_some, List.length_map, List.length_range]
    split
    · next h =>
      obtain ⟨hne, hle⟩ : declared.length ≠ 0 ∧ declared.length ≤ 10000 := by simpa using h
      exact .inl ⟨declared, rfl, by rw [List.range_eq_range'], hle⟩
    · next h =>
      refine .inr ⟨rfl, ?_⟩
      by_cases hzero : declared.length = 0
      · exact .inl (by rw [hzero]; rfl)
      · exact .inr (by simpa [hzero] using h)

namespace SeesDirectly

/-- A class without methods does not match. -/
theorem not_matches (h : SeesDirectly formats art layout holder loaded)
    (hnil : directMethods art layout holder = []) : ¬loaded.Matches query := by
  obtain ⟨read, hread, -, hsub⟩ := h.methods
  rw [hnil] at hread
  obtain rfl := List.forall₂_nil_left_iff.1 hread
  rintro ⟨-, -, method, hmethod, -⟩
  exact absurd (hsub (List.mem_map_of_mem hmethod)) List.not_mem_nil

/-- A class that the direct query passes over before it reads a method. -/
theorem not_matches_of_queriedClass (h : SeesDirectly formats art layout holder loaded)
    {descriptor : String}
    (hdescriptor : classDescriptorFromArt (θ := θ) (art.getClassDescriptor holder) = .ok descriptor)
    (hqueried : queriedClass query descriptor = none) : ¬loaded.Matches query := by
  obtain ⟨_, hread, hname, helement⟩ := h.descriptor
  rw [hdescriptor] at hread
  obtain rfl := Except.ok.inj hread
  rintro ⟨hskip, hclass, method, hmethod, -⟩
  have hhead : descriptor.toList.head? = some 'L' := by
    by_contra hhead
    rw [helement hhead] at hmethod
    cases hmethod
  have hsome := queriedClass_eq_some_iff.2
    ⟨hhead, hname, fun h ↦ hskip ⟨h.1, .inl h.2⟩, hclass⟩
  rw [hqueried] at hsome
  cases hsome

end SeesDirectly

variable (query) in
/-- What is made of a class: it is shown where it matches and has not too many methods. -/
theorem matchClass_eq (h : SeesDirectly formats art layout holder loaded) :
    ∃ found, matchClass formats art query layout holder = .ok found ∧
      found.map (fun found ↦ query.classView found.name found.methods) =
        if loaded.Matches query ∧ (directMethods art layout holder).length ≤ 10000 then
          some (loaded.name, query.shown loaded.methods)
        else none := by
  rw [matchClass]
  by_cases hskip : query.skipSystemClasses ∧ classLoaderKey holder art.contents = 0
  · rw [if_pos hskip]
    refine ⟨none, rfl, (if_neg fun hmatches ↦ hmatches.1.1 ⟨hskip.1, .inr ?_⟩).symm⟩
    rw [← h.loader, hskip.2]
    rfl
  · rw [if_neg hskip]
    obtain ⟨descriptor, hdescriptor, hname, -⟩ := h.descriptor
    rw [hdescriptor]
    dsimp only [bind, Except.bind]
    cases hqueried : queriedClass query descriptor with
    | none =>
      refine ⟨none, rfl, (if_neg fun hmatches ↦ ?_).symm⟩
      exact h.not_matches_of_queriedClass hdescriptor hqueried hmatches.1
    | some className =>
      obtain ⟨-, hclassName, hplatform, hglob⟩ := queriedClass_eq_some_iff.1 hqueried
      obtain rfl : loaded.name = className := hname.symm.trans hclassName
      obtain ⟨declared, hdeclared, hdirect, hlength⟩ | ⟨hdeclared, hdirect⟩ :=
        declaredMethods_cases art layout holder
      · obtain ⟨read, hread, hshapes⟩ := h.methods
        rw [hdirect] at hread
        rw [hdeclared]
        dsimp only
        rw [collectMethods_eq [] [] hread]
        have hloader : ¬(query.skipSystemClasses ∧ loaded.loader = none) := by
          rw [← h.loader, loaderOf_eq_none]
          exact hskip
        simp only [LoadedClass.matches_iff hloader hplatform hglob, hlength, and_true]
        rw [← MethodQuery.shown_congr hshapes]
        by_cases hshown : query.selectMethods (read.filterMap id) [] [] = []
        · refine ⟨none, if_pos hshown, (if_neg ?_).symm⟩
          rw [← MethodQuery.shown_eq_empty, ← MethodQuery.shown_congr hshapes]
          exact MethodQuery.selectMethods_eq_nil.1 hshown
        · refine ⟨some _, if_neg hshown, ?_⟩
          rw [if_pos, Option.map_some, MethodQuery.classView_selectMethods]
          by_contra hnone
          rw [← MethodQuery.shown_eq_empty, ← MethodQuery.shown_congr hshapes] at hnone
          exact hshown (MethodQuery.selectMethods_eq_nil.2 hnone)
      · rw [hdeclared]
        refine ⟨none, rfl, (if_neg fun hmatches ↦ ?_).symm⟩
        rcases hdirect with hnil | hmany
        · exact h.not_matches hnil hmatches.1
        · exact absurd hmatches.2 (Nat.not_le.2 hmany)

/-- The entry of a class, by the object of its loader and what is shown of it. -/
theorem matchedEntry_eq (h : SeesDirectly formats art layout holder loaded) :
    (matchedEntry formats art query layout holder).map (fun entry ↦
        ((loaderOf entry.1).map some, query.classView entry.2.name entry.2.methods)) =
      if loaded.Matches query ∧ (directMethods art layout holder).length ≤ 10000 then
        some (loaded.entry query)
      else none := by
  obtain ⟨found, hfound, hview⟩ := matchClass_eq query h
  rw [matchedEntry, hfound]
  cases found with
  | none =>
    rw [if_neg]
    · rfl
    · intro hmatches
      rw [if_pos hmatches] at hview
      cases hview
  | some found =>
    split at hview
    · next hmatches =>
      rw [if_pos hmatches, LoadedClass.entry, ← h.loader, ← Option.some.inj hview]
      rfl
    · cases hview

end

/-! ## Entries -/

/-- The loaders of the classes that match, without the bootstrap loader. -/
def matchedLoaders (query : MethodQuery) (loaded : List LoadedClass) : List (BitVec 64) :=
  (loaded.filter (·.Matches query)).filterMap (·.loader)

theorem filterMap_fst_entry (query : MethodQuery) (classes : List LoadedClass) :
    ((classes.filter (·.Matches query)).map (·.entry query)).filterMap Prod.fst =
      (matchedLoaders query classes).map some := by
  rw [matchedLoaders, List.filterMap_map, List.map_filterMap]
  rfl

/-- The direct query has a part of the classes that match: all of them, where none has too many
methods. -/
theorem subperm_entries (art : ArtRuntime θ R) (layout : ArtMethodQueryLayout)
    (loaded : BitVec 64 → LoadedClass) (query : MethodQuery) {holders holders' : List (BitVec 64)}
    (h : holders.Perm holders') :
    let direct := (holders'.filter fun holder ↦ (loaded holder).Matches query ∧
      (directMethods art layout holder).length ≤ 10000).map fun holder ↦ (loaded holder).entry query
    let reflected := ((holders.map loaded).filter (·.Matches query)).map (·.entry query)
    direct.Subperm reflected ∧ (direct.length = reflected.length ↔
      ∀ holder ∈ holders', (loaded holder).Matches query →
        (directMethods art layout holder).length ≤ 10000) := by
  intro direct reflected
  have hreflected : reflected.Perm ((holders'.filter fun holder ↦ (loaded holder).Matches query).map
      fun holder ↦ (loaded holder).entry query) := by
    refine (((h.map loaded).filter _).map _).trans (.of_eq ?_)
    rw [List.filter_map, List.map_map]
    rfl
  have hdirect : direct = ((holders'.filter fun holder ↦ (loaded holder).Matches query).filter
      fun holder ↦ (directMethods art layout holder).length ≤ 10000).map
        fun holder ↦ (loaded holder).entry query := by
    rw [List.filter_filter]
    simp only [direct, Bool.decide_and, Bool.and_comm]
  constructor
  · rw [hdirect]
    exact (List.filter_sublist.map _).subperm.trans hreflected.symm.subperm
  · rw [hdirect, hreflected.length_eq, List.length_map, List.length_map,
      List.length_filter_eq_length_iff]
    simp

/-! ## Groups of the direct query -/

section

variable [DecidableEq R] {formats : Formats θ} {art : ArtRuntime θ R} {query : MethodQuery}
  {layout : ArtMethodQueryLayout} {loaded : BitVec 64 → LoadedClass} {visited : List (BitVec 64)}

/-- Groups by the objects of their loaders, and classes by what is shown of them. -/
def directViews (query : MethodQuery) (refs : GlobalRefs R) (groups : List (ArtMethodQueryGroup R)) :
    List (Option (Option (BitVec 64)) × List (String × Finset Displayed)) :=
  groups.map fun group ↦
    (group.loader.map refs.object, group.classes.map fun found ↦
      query.classView found.name found.methods)

theorem map_some_loaderOf_injective : (fun key ↦ (loaderOf key).map some).Injective := by
  intro key key' h
  have hloader := Option.map_injective (Option.some_injective _) h
  by_cases hkey : key = 0
  · rw [hkey, eq_comm, ← loaderOf_eq_none, ← hloader, loaderOf_eq_none, hkey]
  · have hkey' : key' ≠ 0 := by rwa [ne_eq, ← loaderOf_eq_none, ← hloader, loaderOf_eq_none]
    rw [loaderOf, loaderOf, if_neg hkey, if_neg hkey', Option.some.injEq] at hloader
    have hwidth := congrArg (BitVec.setWidth 32) hloader
    rwa [BitVec.setWidth_setWidth_of_le _ (by decide), BitVec.setWidth_setWidth_of_le _ (by decide),
      BitVec.setWidth_eq, BitVec.setWidth_eq] at hwidth

/-- The classes that match and have not too many methods are grouped by their loaders. -/
theorem wp_enumerateMethods_of_sees (hart : AllGranted art)
    (h : ∀ holder ∈ newClasses [] visited, SeesDirectly formats art layout holder (loaded holder))
    (query : MethodQuery) (s : GlobalRefs R) :
    Fallible.wp (enumerateMethods formats art query ⟨.ok (), .ok layout, visited⟩)
      (fun groups t ↦ directViews query t groups = Grouping.group
        (((newClasses [] visited).filter fun holder ↦ (loaded holder).Matches query ∧
          (directMethods art layout holder).length ≤ 10000).map fun holder ↦
            (loaded holder).entry query))
      (fun _ _ ↦ False) s := by
  refine Fallible.wp_mono (wp_enumerateMethods_of_granted formats hart query layout visited s) ?_ ?_
  · rintro groups t ⟨-, hgroups, hloaders⟩
    have hview : directViews query t groups =
        (groups.map fun group ↦ (group.loaderKey, group.classes)).map fun group ↦
          ((loaderOf group.1).map some,
            group.2.map fun found ↦ query.classView found.name found.methods) := by
      rw [directViews, List.map_map]
      refine List.map_congr_left fun group hgroup ↦ ?_
      rw [hloaders group hgroup]
      rfl
    rw [hview, hgroups, Grouping.map_group map_some_loaderOf_injective, List.map_filterMap]
    congr 1
    rw [← List.filterMap_eq_map, List.filterMap_filter]
    refine List.filterMap_congr fun holder hholder ↦ (matchedEntry_eq (h holder hholder)).trans ?_
    simp
  · rintro e t ⟨holder, hholder, error, herror⟩
    obtain ⟨found, hfound, -⟩ := matchClass_eq query (h holder hholder)
    rw [herror] at hfound
    cases hfound

/-! ## Agreement -/

/-- Both queries see the same loaded classes: `loaded holder` is the class at `holder`. Reflection
may see them in another order. -/
structure SeeSame (formats : Formats θ) (art : ArtRuntime θ R) (layout : ArtMethodQueryLayout)
    (loaded : BitVec 64 → LoadedClass) (visited : List (BitVec 64))
    (classes : List (ReflectedClass θ)) : Prop where
  direct : ∀ holder ∈ newClasses [] visited,
    SeesDirectly formats art layout holder (loaded holder)
  reflected : ∃ holders : List (BitVec 64), holders.Perm (newClasses [] visited) ∧
    List.Forall₂ ReflectedClass.Sees classes (holders.map loaded)

/-- Both queries give the same groups, up to the order of groups and classes. -/
def SameGroups (formats : Formats θ) (art : ArtRuntime θ R) (query : MethodQuery)
    (layout : ArtMethodQueryLayout) (visited : List (BitVec 64)) (classes : List (ReflectedClass θ))
    (s s' : GlobalRefs R) : Prop :=
  ∃ groups t groups' t',
    enumerateMethods formats art query ⟨.ok (), .ok layout, visited⟩ s = .ok groups t ∧
      enumerateMethodsWithReflection art query classes [] s' = .ok groups' t' ∧
        Grouping.parts (directViews query t groups) = Grouping.parts (views query t' groups')

/-- The two queries give the same groups exactly where no two classes that match have the same
loader, the bootstrap loader apart, and none of them has too many methods. -/
theorem sameGroups_iff (hart : AllGranted art) (hpending : NothingPending art)
    {classes : List (ReflectedClass θ)} (h : SeeSame formats art layout loaded visited classes) (query : MethodQuery)
    (s s' : GlobalRefs R) :
    SameGroups formats art query layout visited classes s s' ↔
      (matchedLoaders query ((newClasses [] visited).map loaded)).Nodup ∧
        ∀ holder ∈ newClasses [] visited, (loaded holder).Matches query →
          (directMethods art layout holder).length ≤ 10000 := by
  obtain ⟨holders, hperm, hsees⟩ := h.reflected
  obtain ⟨groups, t, hrun, hviews⟩ := Fallible.wp_false_iff.1
    (wp_enumerateMethods_of_sees hart h.direct query s)
  obtain ⟨groups', t', hrun', hviews'⟩ := Fallible.wp_false_iff.1
    (wp_enumerateMethodsWithReflection hart hpending query hsees (.nil s'))
  have hsame : SameGroups formats art query layout visited classes s s' ↔
      Grouping.parts (views query t' groups') = Grouping.parts (directViews query t groups) := by
    constructor
    · rintro ⟨_, _, _, _, hdirect, hreflected, hparts⟩
      rw [hrun] at hdirect
      rw [hrun'] at hreflected
      cases hdirect
      cases hreflected
      exact hparts.symm
    · intro hparts
      exact ⟨groups, t, groups', t', hrun, hrun', hparts.symm⟩
  obtain ⟨hsubperm, hlength⟩ := subperm_entries art layout loaded query hperm
  have hloaders : (matchedLoaders query (holders.map loaded)).Perm
      (matchedLoaders query ((newClasses [] visited).map loaded)) :=
    ((hperm.map loaded).filter _).filterMap _
  rw [hsame, hviews, hviews', ← hlength, ← hloaders.nodup_iff,
    ← List.nodup_map_iff (Option.some_injective _), ← filterMap_fst_entry]
  exact Grouping.parts_apart_eq_iff hsubperm

end

/-! ## Two classes of one loader -/

/-- The classes `A` and `B` of the loader `0x6000`, each with a method `f`. -/
def twoClasses : ArtRuntime Nat Nat :=
  { twoHolders with
    getClassDescriptor := fun holder ↦
      some (Utf8.encode (if holder = 0x1000 then "LA;" else "LB;").toList ++ [0])
    prettyMethod := fun method _ ↦ ⟨1, 0, method⟩
    chars := fun pointer ↦
      Utf8.encode (if pointer = 0x3008 then "void A.f()" else "void B.f()").toList ++ [0] }

namespace twoClasses

def layout : ArtMethodQueryLayout := ⟨16, 24, 32, 4⟩

def formats : Formats Nat := ⟨fun _ ↦ "", id⟩

def loaded (holder : BitVec 64) : LoadedClass where
  name := if holder = 0x1000 then "A" else "B"
  loader := some 0x6000
  methods := [⟨"f", .instanceMethod, ⟨[], .void⟩, 0, 0⟩]

def reflected (name : String) : ReflectedClass Nat where
  name
  getClassLoader := .ok (some 0x6000)
  validated := .ok ()
  reflected := .ok ([⟨"f", 0, [], .void, 0⟩], [])

theorem allGranted : AllGranted twoClasses := fun _ ↦ rfl

theorem nothingPending : NothingPending twoClasses := fun _ ↦ rfl

theorem sees (name : String) {holder : BitVec 64} (h : name = (loaded holder).name) :
    (reflected name).Sees (loaded holder) where
  name := h
  loader := rfl
  validated := rfl
  methods := by
    refine ⟨_, _, rfl, ?_⟩
    have hmethods : (JavaBridge.declaredMethods [⟨"f", 0, [], .void, 0⟩] []).filter
        (·.name ≠ "<clinit>") = [⟨"f", .instanceMethod, ⟨[], .void⟩, 0, 0⟩] := by decide +kernel
    rw [hmethods]
    exact ⟨List.Subset.refl _, List.Subset.refl _⟩

theorem eq_or_eq_of_mem {holder : BitVec 64} (h : holder ∈ newClasses [] [0x1000, 0x2000]) :
    holder = 0x1000 ∨ holder = 0x2000 := by
  simpa using show holder ∈ [0x1000, 0x2000] from h

theorem directMethods_A : directMethods twoClasses layout 0x1000 = [(0x3008, 0)] := by
  decide +kernel

theorem directMethods_B : directMethods twoClasses layout 0x2000 = [(0x4008, 0)] := by
  decide +kernel

theorem seeSame : SeeSame formats twoClasses layout loaded [0x1000, 0x2000]
    [reflected "A", reflected "B"] where
  direct := by
    intro holder hholder
    obtain rfl | rfl := eq_or_eq_of_mem hholder
    · refine ⟨by decide +kernel, ⟨"LA;", by decide +kernel, by decide +kernel, nofun⟩,
        [some ⟨"f", .instanceMethod, ⟨[], .void⟩, 0, 0x3008⟩], ?_, by decide, by decide⟩
      rw [directMethods_A]
      exact .cons (by decide +kernel) .nil
    · refine ⟨by decide +kernel, ⟨"LB;", by decide +kernel, by decide +kernel, nofun⟩,
        [some ⟨"f", .instanceMethod, ⟨[], .void⟩, 0, 0x4008⟩], ?_, by decide, by decide⟩
      rw [directMethods_B]
      exact .cons (by decide +kernel) .nil
  reflected := ⟨[0x1000, 0x2000], .refl _, .cons (sees "A" rfl) (.cons (sees "B" rfl) .nil)⟩

end twoClasses

open twoClasses in
/-- Both classes match `*!f`: the direct query has one group, and reflection two. -/
theorem not_sameGroups_twoClasses :
    (AllGranted twoClasses ∧ NothingPending twoClasses) ∧
      SeeSame formats twoClasses layout loaded [0x1000, 0x2000] [reflected "A", reflected "B"] ∧
        ¬SameGroups formats twoClasses ⟨"*", "f", false, false, false⟩ layout [0x1000, 0x2000]
          [reflected "A", reflected "B"] ⟨[], 0⟩ ⟨[], 0⟩ := by
  refine ⟨⟨allGranted, nothingPending⟩, seeSame, ?_⟩
  rintro ⟨groups, t, groups', t', hdirect, hreflected, hparts⟩
  have hone : (match enumerateMethods formats twoClasses ⟨"*", "f", false, false, false⟩
      ⟨.ok (), .ok layout, [0x1000, 0x2000]⟩ ⟨[], 0⟩ with
    | .ok groups _ => groups.length
    | .error _ _ => 0) = 1 := by
    decide +kernel
  have htwo : (match enumerateMethodsWithReflection twoClasses ⟨"*", "f", false, false, false⟩
      [reflected "A", reflected "B"] [] ⟨[], 0⟩ with
    | .ok groups _ => groups.length
    | .error _ _ => 0) = 2 := by
    decide +kernel
  rw [hdirect] at hone
  rw [hreflected] at htwo
  have hcard := congrArg Multiset.card hparts
  simp only [Grouping.parts, directViews, views, Multiset.coe_card, List.length_map] at hcard
  rw [show groups.length = 1 from hone, show groups'.length = 2 from htwo] at hcard
  cases hcard

open twoClasses in
/-- Only one of them matches `A!f`. -/
theorem sameGroups_twoClasses :
    SameGroups formats twoClasses ⟨"A", "f", false, false, false⟩ layout [0x1000, 0x2000]
      [reflected "A", reflected "B"] ⟨[], 0⟩ ⟨[], 0⟩ := by
  rw [sameGroups_iff allGranted nothingPending seeSame]
  refine ⟨by decide +kernel, fun holder hholder _ ↦ ?_⟩
  obtain rfl | rfl := eq_or_eq_of_mem hholder
  · rw [directMethods_A]
    decide
  · rw [directMethods_B]
    decide

end JavaBridge
