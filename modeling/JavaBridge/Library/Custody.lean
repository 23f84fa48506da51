import JavaBridge.Library.Fallible

/-!
# Custody of resources

The state of a program keeps an account of the resources that were obtained and of those that were
released. The rest is held, each resource as often as it was obtained. `Settles` is a triple for
programs that may fail: of the resources that a program is given, it holds those of its result and
has released the others, and it has released all of them where it fails.

Main results:

* `Releases.comp`, `Releases.foldl`: releases, one after another.
* `Settles.bind`, `Settles.onError`, `Settles.defer`: the rule of each way to put programs together.
  The rule of `onError` is a frame rule: what the cleanup releases can be held across the program.
* `SettlesUnless.bind`, `SettlesUnless.onError`: the rules for programs that may lose what they
  obtained.
* `Borrows.bind`, `Borrows.defer`: programs that make use of what others hold.
-/

universe u

namespace Custody

open Fallible

/-- What a state says of the resources. -/
structure Account (σ R : Type u) where
  obtained : σ → List R
  released : σ → List R
  /-- A resource can be released. -/
  Ready : σ → Prop

variable {ε σ α β R : Type u} {acc : Account σ R}

/-- What was obtained is held or was released. -/
def Account.Holds (acc : Account σ R) (s : σ) (held : List R) : Prop :=
  (held ++ acc.released s).Perm (acc.obtained s)

theorem Account.Holds.perm {s : σ} {held held' : List R} (h : acc.Holds s held)
    (hperm : held'.Perm held) : acc.Holds s held' := (hperm.append_right _).trans h

/-! ## Releases -/

/-- The function releases these resources, where it can. -/
def Releases (acc : Account σ R) (f : σ → σ) (rs : List R) : Prop :=
  ∀ s rest, acc.Ready s → acc.Holds s (rs ++ rest) → acc.Ready (f s) ∧ acc.Holds (f s) rest

namespace Releases

variable {f g : σ → σ} {rs rs' : List R}

theorem id (acc : Account σ R) : Releases acc (fun s ↦ s) [] :=
  fun _ _ hready hheld ↦ ⟨hready, hheld⟩

theorem perm (h : Releases acc f rs) (hperm : rs.Perm rs') : Releases acc f rs' := by
  intro s rest hready hheld
  exact h s rest hready (hheld.perm (hperm.append_right rest))

theorem comp (hf : Releases acc f rs) (hg : Releases acc g rs') :
    Releases acc (fun s ↦ g (f s)) (rs ++ rs') := by
  intro s rest hready hheld
  rw [List.append_assoc] at hheld
  obtain ⟨hready, hheld⟩ := hf s (rs' ++ rest) hready hheld
  exact hg (f s) rest hready hheld

theorem foldl {ι : Type*} {f : ι → σ → σ} {of : ι → List R} (h : ∀ i, Releases acc (f i) (of i))
    (is : List ι) : Releases acc (fun s ↦ is.foldl (fun s i ↦ f i s) s) (is.flatMap of) := by
  induction is with
  | nil => exact .id acc
  | cons i is ih => exact (h i).comp ih

end Releases

/-! ## Programs -/

/-- Of the resources `taken` the program holds those of its result, or none where it fails, and has
released the others. -/
def Settles (acc : Account σ R) (x : EStateM ε σ α) (taken : List R) (held : α → List R) : Prop :=
  ∀ s rest, acc.Ready s → acc.Holds s (taken ++ rest) →
    wp x (fun a t ↦ acc.Ready t ∧ acc.Holds t (held a ++ rest))
      (fun _ t ↦ acc.Ready t ∧ acc.Holds t rest) s

namespace Settles

variable {x : EStateM ε σ α} {taken taken' more : List R} {held : α → List R} {f : σ → σ}

theorem pure {a : α} (h : (held a).Perm taken) :
    Settles acc (Pure.pure a : EStateM ε σ α) taken held :=
  fun _ rest hready hheld ↦ ⟨hready, hheld.perm (h.append_right rest)⟩

theorem perm (h : Settles acc x taken held) (hperm : taken.Perm taken') :
    Settles acc x taken' held := by
  intro s rest hready hheld
  exact h s rest hready (hheld.perm (hperm.append_right rest))

theorem bind {y : α → EStateM ε σ β} {held' : β → List R} (hx : Settles acc x taken held)
    (hy : ∀ a, Settles acc (y a) (held a) held') : Settles acc (x >>= y) taken held' := by
  intro s rest hready hheld
  rw [wp_bind]
  exact wp_mono (hx s rest hready hheld) (fun a t ht ↦ hy a t rest ht.1 ht.2) fun _ _ h ↦ h

/-- What was taken can be kept in one's hands across a program, and is released where it fails. -/
theorem onError (hx : Settles acc x taken held) (hf : Releases acc f more) :
    Settles acc (onError f x) (more ++ taken) fun a ↦ more ++ held a := by
  intro s rest hready hheld
  have hswap : (taken ++ (more ++ rest)).Perm (more ++ taken ++ rest) := by
    rw [← List.append_assoc]
    exact List.perm_append_comm.append_right rest
  rw [wp_onError]
  refine wp_mono (hx s (more ++ rest) hready (hheld.perm hswap)) ?_ fun _ t ht ↦ hf t rest ht.1 ht.2
  intro a t ht
  refine ⟨ht.1, ht.2.perm ?_⟩
  rw [← List.append_assoc (held a)]
  exact List.perm_append_comm.append_right rest

/-- What was taken is released after the program, whether it fails or not. -/
theorem defer (hx : Settles acc x taken fun _ ↦ []) (hf : Releases acc f more) :
    Settles acc (defer f x) (taken ++ more) fun _ ↦ [] := by
  intro s rest hready hheld
  rw [List.append_assoc] at hheld
  rw [wp_defer]
  exact wp_mono (hx s (more ++ rest) hready hheld) (fun _ t ht ↦ hf t rest ht.1 ht.2)
    fun _ t ht ↦ hf t rest ht.1 ht.2

theorem modify (hf : Releases acc f taken) :
    Settles acc (modify f : EStateM ε σ PUnit) taken fun _ ↦ [] := fun s rest ↦ hf s rest

/-- A result that was computed before. -/
theorem ofExcept {x : Except ε α} (hok : ∀ a, x = .ok a → held a = taken)
    (herror : ∀ e, x = .error e → taken = []) :
    Settles acc (MonadExcept.ofExcept x) taken held := by
  intro s rest hready hheld
  rw [wp_ofExcept]
  constructor
  · intro a ha
    rw [hok a ha]
    exact ⟨hready, hheld⟩
  · intro e he
    rw [herror e he] at hheld
    exact ⟨hready, hheld⟩

theorem throw {e : ε} : Settles acc (throw e : EStateM ε σ α) [] held :=
  fun _ _ hready hheld ↦ ⟨hready, hheld⟩

end Settles

/-! ## Programs that lose resources -/

/-- As `Settles`, except from the states of `L`: from these the program fails, and has lost some of
what it obtained. -/
def SettlesUnless (acc : Account σ R) (L : σ → Prop) (x : EStateM ε σ α) (taken : List R)
    (held : α → List R) : Prop :=
  ∀ s rest, acc.Ready s → acc.Holds s (taken ++ rest) →
    wp x (fun a t ↦ ¬L s ∧ acc.Ready t ∧ acc.Holds t (held a ++ rest))
      (fun _ t ↦ acc.Ready t ∧ ∃ lost, (lost ≠ [] ↔ L s) ∧ acc.Holds t (lost ++ rest)) s

namespace SettlesUnless

variable {L M : σ → Prop} {x : EStateM ε σ α} {taken more : List R} {held : α → List R} {f : σ → σ}

theorem of_settles (h : Settles acc x taken held) (hL : ∀ s, ¬L s) :
    SettlesUnless acc L x taken held := by
  intro s rest hready hheld
  refine wp_mono (h s rest hready hheld) (fun _ _ ht ↦ ⟨hL s, ht⟩) ?_
  intro _ t ht
  exact ⟨ht.1, [], iff_of_false (absurd rfl) (hL s), ht.2⟩

theorem congr (h : SettlesUnless acc L x taken held) (hLM : ∀ s, L s ↔ M s) :
    SettlesUnless acc M x taken held := by
  rwa [show M = L from funext fun s ↦ propext (hLM s).symm]

/-- Two programs in a row: where the first succeeds, the loss is that of the second. -/
theorem bind {L' : α → σ → Prop} {y : α → EStateM ε σ β} {held' : β → List R}
    (hx : SettlesUnless acc L x taken held)
    (hy : ∀ a, SettlesUnless acc (L' a) (y a) (held a) held')
    (hM : ∀ s, wp x (fun a t ↦ L' a t ↔ M s) (fun _ _ ↦ L s ↔ M s) s) :
    SettlesUnless acc M (x >>= y) taken held' := by
  intro s rest hready hheld
  rw [wp_bind]
  refine wp_mono (wp_and (hx s rest hready hheld) (hM s)) ?_ ?_
  · rintro a t ⟨⟨-, hready, hheld⟩, hM⟩
    refine wp_mono (hy a t rest hready hheld) ?_ ?_
    · rintro _ u ⟨hL', hu⟩
      exact ⟨mt hM.2 hL', hu⟩
    · rintro _ u ⟨hready, lost, hlost, hheld⟩
      exact ⟨hready, lost, hlost.trans hM, hheld⟩
  · rintro _ t ⟨⟨hready, lost, hlost, hheld⟩, hM⟩
    exact ⟨hready, lost, hlost.trans hM, hheld⟩

/-- A program that loses nothing, after one that may. -/
theorem bind_settles {y : α → EStateM ε σ β} {held' : β → List R}
    (hx : SettlesUnless acc L x taken held) (hy : ∀ a, Settles acc (y a) (held a) held') :
    SettlesUnless acc L (x >>= y) taken held' := by
  intro s rest hready hheld
  rw [wp_bind]
  refine wp_mono (hx s rest hready hheld) ?_ fun _ _ ht ↦ ht
  rintro a t ⟨hL, hready, hheld⟩
  refine wp_mono (hy a t rest hready hheld) (fun _ _ hu ↦ ⟨hL, hu⟩) ?_
  intro _ u hu
  exact ⟨hu.1, [], iff_of_false (absurd rfl) hL, hu.2⟩

theorem onError (hx : SettlesUnless acc L x taken held) (hf : Releases acc f more) :
    SettlesUnless acc L (onError f x) (more ++ taken) fun a ↦ more ++ held a := by
  intro s rest hready hheld
  have hswap {rs : List R} : (rs ++ (more ++ rest)).Perm (more ++ rs ++ rest) := by
    rw [← List.append_assoc]
    exact List.perm_append_comm.append_right rest
  rw [wp_onError]
  refine wp_mono (hx s (more ++ rest) hready (hheld.perm hswap)) ?_ ?_
  · intro a t ht
    exact ⟨ht.1, ht.2.1, ht.2.2.perm hswap.symm⟩
  · rintro _ t ⟨hready, lost, hlost, hheld⟩
    have hmore := hf t (lost ++ rest) hready (hheld.perm (List.append_assoc more lost rest ▸
      hswap.symm))
    exact ⟨hmore.1, lost, hlost, hmore.2⟩

end SettlesUnless

/-! ## Programs that borrow -/

/-- Where these resources are held, the program can make use of them. It gives none of them up. -/
def Borrows (acc : Account σ R) (x : EStateM ε σ α) (borrowed : List R) : Prop :=
  ∀ s held, borrowed ⊆ held → acc.Ready s → acc.Holds s held →
    wp x (fun _ t ↦ acc.Ready t ∧ acc.Holds t held) (fun _ t ↦ acc.Ready t ∧ acc.Holds t held) s

namespace Borrows

variable {x : EStateM ε σ α} {borrowed borrowed' : List R} {f : σ → σ}

theorem pure {a : α} : Borrows acc (Pure.pure a : EStateM ε σ α) borrowed :=
  fun _ _ _ hready hheld ↦ ⟨hready, hheld⟩

theorem throw {e : ε} : Borrows acc (throw e : EStateM ε σ α) borrowed :=
  fun _ _ _ hready hheld ↦ ⟨hready, hheld⟩

theorem mono (h : Borrows acc x borrowed) (hsubset : borrowed ⊆ borrowed') :
    Borrows acc x borrowed' :=
  fun s held hheld ↦ h s held (List.Subset.trans hsubset hheld)

theorem bind {y : α → EStateM ε σ β} (hx : Borrows acc x borrowed)
    (hy : ∀ a, Borrows acc (y a) borrowed) : Borrows acc (x >>= y) borrowed := by
  intro s held hborrowed hready hheld
  rw [wp_bind]
  refine wp_mono (hx s held hborrowed hready hheld) ?_ fun _ _ ht ↦ ht
  intro a t ht
  exact hy a t held hborrowed ht.1 ht.2

theorem ofExcept {x : Except ε α} :
    Borrows acc (MonadExcept.ofExcept x : EStateM ε σ α) borrowed := by
  cases x with
  | ok a => exact .pure
  | error e => exact .throw

/-- What has been borrowed is released after the program, whether it fails or not. -/
theorem defer (hx : Borrows acc x borrowed) (hf : Releases acc f borrowed) :
    Settles acc (defer f x) borrowed fun _ ↦ [] := by
  intro s rest hready hheld
  have hborrowed : borrowed ⊆ borrowed ++ rest := List.subset_append_left _ _
  rw [wp_defer]
  exact wp_mono (hx s _ hborrowed hready hheld) (fun _ t ht ↦ hf t rest ht.1 ht.2)
    fun _ t ht ↦ hf t rest ht.1 ht.2

end Borrows

end Custody
