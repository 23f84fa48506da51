import Mathlib.Data.List.Forall2

/-!
# Computations that may fail and keep their state

Pre- and postconditions for `EStateM`, whose failures keep the state they happened in.
`wp x Q E s` says of a run of `x` from `s` that it ends with a value and a state of `Q`, or with an
error and a state of `E`.

Main results:

* `wp_bind`, `wp_attempt`, `wp_defer`, `wp_onError`: the rule of each way to put computations
  together. They are equivalences, so that `simp` computes the precondition of a program.
* `wp_mono`, `wp_and`: the rules of consequence and of conjunction.
* `Keeps.bind`, `Gives.bind`: programs that keep an invariant of the state, put together.
-/

universe u

namespace Fallible

/-! ## Results -/

section Results

variable {ε ε' α β : Type*}

theorem map_eq_ok {x : Except ε α} {f : α → β} {b : β} :
    x.map f = .ok b ↔ ∃ a, x = .ok a ∧ f a = b := by
  cases x <;> simp [Except.map]

theorem bind_eq_ok {x : Except ε α} {f : α → Except ε β} {b : β} :
    x.bind f = .ok b ↔ ∃ a, x = .ok a ∧ f a = .ok b := by
  cases x <;> simp [Except.bind]

theorem bind_eq_error {x : Except ε α} {f : α → Except ε β} {e : ε} :
    x.bind f = .error e ↔ x = .error e ∨ ∃ a, x = .ok a ∧ f a = .error e := by
  cases x <;> simp [Except.bind]

theorem mapError_eq_ok {x : Except ε α} {f : ε → ε'} {a : α} :
    x.mapError f = .ok a ↔ x = .ok a := by
  cases x with
  | ok b =>
    show (.ok b : Except ε' α) = .ok a ↔ _
    rw [Except.ok.injEq, Except.ok.injEq]
  | error e => exact iff_of_false (fun h ↦ by cases h) fun h ↦ by cases h

theorem mapError_eq_error {x : Except ε α} {f : ε → ε'} {e' : ε'} :
    x.mapError f = .error e' ↔ ∃ e, x = .error e ∧ f e = e' := by
  cases x with
  | ok b => exact iff_of_false (fun h ↦ by cases h) fun ⟨e, h, _⟩ ↦ by cases h
  | error e =>
    constructor
    · intro h
      exact ⟨e, rfl, Except.error.inj h⟩
    · rintro ⟨_, ⟨⟩, rfl⟩
      rfl

/-- A traversal succeeds where it does so element by element. -/
theorem mapM_eq_ok_of_forall₂ {f : α → Except ε β} {as : List α} {bs : List β}
    (h : List.Forall₂ (fun a b ↦ f a = .ok b) as bs) : as.mapM f = .ok bs := by
  induction h with
  | nil => rfl
  | cons hab _ ih =>
    rw [List.mapM_cons, hab, ih]
    rfl

/-- A traversal that succeeds does so element by element. -/
theorem forall₂_of_mapM_eq_ok {f : α → Except ε β} {as : List α} {bs : List β}
    (h : as.mapM f = .ok bs) : List.Forall₂ (fun a b ↦ f a = .ok b) as bs := by
  induction as generalizing bs with
  | nil =>
    cases h
    exact .nil
  | cons a as ih =>
    rw [List.mapM_cons] at h
    obtain ⟨b, hb, h⟩ := bind_eq_ok.1 h
    obtain ⟨bs, hbs, h⟩ := bind_eq_ok.1 h
    cases h
    exact .cons hb (ih hbs)

end Results

variable {ε ε' σ α β : Type u}

/-! ## Programs -/

/-- Runs `x` and gives its failure back as a value. -/
def attempt (x : EStateM ε σ α) : EStateM ε' σ (Except ε α) := fun s ↦
  match x s with
  | .ok a t => .ok (.ok a) t
  | .error e t => .ok (.error e) t

/-- Runs `x`, and then `cleanup` whether it failed or not. -/
def defer (cleanup : σ → σ) (x : EStateM ε σ α) : EStateM ε σ α := fun s ↦
  match x s with
  | .ok a t => .ok a (cleanup t)
  | .error e t => .error e (cleanup t)

/-- Runs `x`, and then `cleanup` where it failed. -/
def onError (cleanup : σ → σ) (x : EStateM ε σ α) : EStateM ε σ α := fun s ↦
  match x s with
  | .ok a t => .ok a t
  | .error e t => .error e (cleanup t)

/-- Runs `x` on a part of the state. -/
def zoom {τ : Type u} (part : τ → σ) (put : σ → τ → τ) (x : EStateM ε σ α) : EStateM ε τ α :=
  fun t ↦
    match x (part t) with
    | .ok a s => .ok a (put s t)
    | .error e s => .error e (put s t)

/-- The result of a run of `x` from `s`, and the state it ends in. -/
def outcome (x : EStateM ε σ α) (s : σ) : Except ε α × σ :=
  match x s with
  | .ok a t => (.ok a, t)
  | .error e t => (.error e, t)

/-! ## Preconditions -/

/-- A run of `x` from `s` ends in `Q` with its value, or in `E` with its error. -/
def wp (x : EStateM ε σ α) (Q : α → σ → Prop) (E : ε → σ → Prop) (s : σ) : Prop :=
  match x s with
  | .ok a t => Q a t
  | .error e t => E e t

section Rules

variable {Q : α → σ → Prop} {E : ε → σ → Prop} {s : σ}

@[simp] theorem wp_pure {a : α} : wp (pure a : EStateM ε σ α) Q E s ↔ Q a s := Iff.rfl

@[simp] theorem wp_throw {e : ε} : wp (throw e : EStateM ε σ α) Q E s ↔ E e s := Iff.rfl

@[simp] theorem wp_get {Q : σ → σ → Prop} : wp (get : EStateM ε σ σ) Q E s ↔ Q s s := Iff.rfl

@[simp] theorem wp_modify {f : σ → σ} {Q : PUnit → σ → Prop} :
    wp (modify f : EStateM ε σ PUnit) Q E s ↔ Q ⟨⟩ (f s) := Iff.rfl

@[simp] theorem wp_modifyGet {f : σ → α × σ} :
    wp (modifyGet f : EStateM ε σ α) Q E s ↔ Q (f s).1 (f s).2 := Iff.rfl

@[simp] theorem wp_bind {x : EStateM ε σ α} {f : α → EStateM ε σ β} {Q : β → σ → Prop} :
    wp (x >>= f) Q E s ↔ wp x (fun a t ↦ wp (f a) Q E t) E s := by
  show (match (match x s with | .ok a t => f a t | .error e t => .error e t) with
    | .ok b t => Q b t | .error e t => E e t) ↔ _
  unfold wp
  cases x s <;> rfl

@[simp] theorem wp_ite {c : Prop} [Decidable c] {x y : EStateM ε σ α} :
    wp (if c then x else y) Q E s ↔ (c → wp x Q E s) ∧ (¬c → wp y Q E s) := by
  split
  · next h => exact ⟨fun hx ↦ ⟨fun _ ↦ hx, absurd h⟩, fun hxy ↦ hxy.1 h⟩
  · next h => exact ⟨fun hy ↦ ⟨fun hc ↦ absurd hc h, fun _ ↦ hy⟩, fun hxy ↦ hxy.2 h⟩

@[simp] theorem wp_ofExcept {x : Except ε α} :
    wp (MonadExcept.ofExcept x : EStateM ε σ α) Q E s ↔
      (∀ a, x = .ok a → Q a s) ∧ ∀ e, x = .error e → E e s := by
  cases x <;> simp [MonadExcept.ofExcept]

@[simp] theorem wp_attempt {x : EStateM ε σ α} {Q : Except ε α → σ → Prop} {E : ε' → σ → Prop} :
    wp (attempt x) Q E s ↔ wp x (fun a ↦ Q (.ok a)) (fun e ↦ Q (.error e)) s := by
  unfold wp attempt
  cases x s <;> rfl

@[simp] theorem wp_adaptExcept {f : ε → ε'} {x : EStateM ε σ α} {E : ε' → σ → Prop} :
    wp (EStateM.adaptExcept f x) Q E s ↔ wp x Q (fun e ↦ E (f e)) s := by
  unfold wp EStateM.adaptExcept
  cases x s <;> rfl

theorem wp_iff_outcome {x : EStateM ε σ α} {P : Except ε α → σ → Prop} :
    wp x (fun a ↦ P (.ok a)) (fun e ↦ P (.error e)) s ↔ P (outcome x s).1 (outcome x s).2 := by
  unfold wp outcome
  cases x s <;> rfl

@[simp] theorem wp_defer {cleanup : σ → σ} {x : EStateM ε σ α} :
    wp (defer cleanup x) Q E s ↔
      wp x (fun a t ↦ Q a (cleanup t)) (fun e t ↦ E e (cleanup t)) s := by
  unfold wp defer
  cases x s <;> rfl

@[simp] theorem wp_onError {cleanup : σ → σ} {x : EStateM ε σ α} :
    wp (onError cleanup x) Q E s ↔ wp x Q (fun e t ↦ E e (cleanup t)) s := by
  unfold wp onError
  cases x s <;> rfl

@[simp] theorem wp_zoom {τ : Type u} {part : τ → σ} {put : σ → τ → τ} {x : EStateM ε σ α}
    {Q : α → τ → Prop} {E : ε → τ → Prop} {t : τ} :
    wp (zoom part put x) Q E t ↔
      wp x (fun a s ↦ Q a (put s t)) (fun e s ↦ E e (put s t)) (part t) := by
  unfold wp zoom
  cases x (part t) <;> rfl

theorem wp_of_outcome {x : EStateM ε σ α} {r : Except ε α} {t : σ} : outcome x s = (r, t) →
    (wp x Q E s ↔ match r with | .ok a => Q a t | .error e => E e t) := by
  intro h
  unfold outcome at h
  unfold wp
  cases hx : x s <;> rw [hx] at h <;> cases h <;> rfl

theorem wp_attempt_of_outcome {x : EStateM ε σ α} {Q : Except ε α → σ → Prop} {E : ε' → σ → Prop}
    {r : Except ε α} {t : σ} (h : outcome x s = (r, t)) : wp (attempt x) Q E s ↔ Q r t := by
  rw [wp_attempt, wp_iff_outcome, h]

end Rules

theorem wp_mono {x : EStateM ε σ α} {Q Q' : α → σ → Prop} {E E' : ε → σ → Prop} {s : σ}
    (h : wp x Q E s) (hQ : ∀ a t, Q a t → Q' a t) (hE : ∀ e t, E e t → E' e t) :
    wp x Q' E' s := by
  unfold wp at h ⊢
  split at h
  · exact hQ _ _ h
  · exact hE _ _ h

/-- A run ends as it ends. -/
theorem wp_outcome (x : EStateM ε σ α) (s : σ) :
    wp x (fun a t ↦ outcome x s = (.ok a, t)) (fun e t ↦ outcome x s = (.error e, t)) s := by
  unfold wp outcome
  cases x s <;> rfl

/-- A run that does not fail ends in `Q` with its value. -/
theorem wp_false_iff {x : EStateM ε σ α} {Q : α → σ → Prop} {s : σ} :
    wp x Q (fun _ _ ↦ False) s ↔ ∃ a t, x s = .ok a t ∧ Q a t := by
  unfold wp
  constructor
  · intro h
    split at h
    · next a t hrun => exact ⟨a, t, hrun, h⟩
    · exact h.elim
  · rintro ⟨a, t, hrun, h⟩
    rw [hrun]
    exact h

/-- A run that fails ends in `E` with its error. -/
theorem wp_error_iff {x : EStateM ε σ α} {E : ε → σ → Prop} {s : σ} :
    wp x (fun _ _ ↦ False) E s ↔ ∃ e t, x s = .error e t ∧ E e t := by
  unfold wp
  constructor
  · intro h
    split at h
    · exact h.elim
    · next e t hrun => exact ⟨e, t, hrun, h⟩
  · rintro ⟨e, t, hrun, h⟩
    rw [hrun]
    exact h

theorem wp_true {x : EStateM ε σ α} {s : σ} : wp x (fun _ _ ↦ True) (fun _ _ ↦ True) s := by
  unfold wp
  split <;> trivial

theorem wp_and {x : EStateM ε σ α} {Q Q' : α → σ → Prop} {E E' : ε → σ → Prop} {s : σ}
    (h : wp x Q E s) (h' : wp x Q' E' s) :
    wp x (fun a t ↦ Q a t ∧ Q' a t) (fun e t ↦ E e t ∧ E' e t) s := by
  unfold wp at h h' ⊢
  cases hx : x s <;> rw [hx] at h h' <;> exact ⟨h, h'⟩

/-- A run cannot both succeed and fail. -/
theorem false_of_wp {x : EStateM ε σ α} {Q : α → σ → Prop} {E : ε → σ → Prop} {s : σ}
    (h : wp x Q (fun _ _ ↦ False) s) (h' : wp x (fun _ _ ↦ False) E s) : False := by
  unfold wp at h h'
  split at h
  · next hx =>
    rw [hx] at h'
    exact h'
  · exact h

/-! ## Invariants of the state -/

/-- From every state of `I` the program ends in `I` with a value of `A`, or with an error of `B`. -/
def Keeps (I : σ → Prop) (B : ε → Prop) (A : α → Prop) (x : EStateM ε σ α) : Prop :=
  ∀ s, I s → wp x (fun a t ↦ I t ∧ A a) (fun e _ ↦ B e) s

namespace Keeps

variable {I : σ → Prop} {B : ε → Prop} {A : α → Prop} {A' : β → Prop}

theorem pure {a : α} (h : A a) : Keeps I B A (Pure.pure a) := fun _ hs ↦ ⟨hs, h⟩

theorem throw {e : ε} (h : B e) : Keeps I B A (throw e) := fun _ _ ↦ h

theorem mono {x : EStateM ε σ α} {B' : ε → Prop} {A' : α → Prop} (hx : Keeps I B A x)
    (hB : ∀ e, B e → B' e) (hA : ∀ a, A a → A' a) : Keeps I B' A' x := by
  intro s hs
  exact wp_mono (hx s hs) (fun a _ ⟨ht, ha⟩ ↦ ⟨ht, hA a ha⟩) fun e _ he ↦ hB e he

theorem bind {x : EStateM ε σ α} {f : α → EStateM ε σ β} (hx : Keeps I B A x)
    (hf : ∀ a, A a → Keeps I B A' (f a)) : Keeps I B A' (x >>= f) := by
  intro s hs
  rw [wp_bind]
  exact wp_mono (hx s hs) (fun a t ⟨ht, ha⟩ ↦ hf a ha t ht) fun _ _ h ↦ h

theorem and {A' : α → Prop} {x : EStateM ε σ α} (hx : Keeps I B A x)
    (hA' : ∀ s, wp x (fun a _ ↦ A' a) (fun _ _ ↦ True) s) :
    Keeps I B (fun a ↦ A a ∧ A' a) x := by
  intro s hs
  exact wp_mono (wp_and (hx s hs) (hA' s)) (fun _ _ ⟨⟨ht, ha⟩, ha'⟩ ↦ ⟨ht, ha, ha'⟩) fun _ _ h ↦ h.1

theorem onError {cleanup : σ → σ} {x : EStateM ε σ α} (hx : Keeps I B A x) :
    Keeps I B A (onError cleanup x) := by
  intro s hs
  rw [wp_onError]
  exact hx s hs

theorem ofExcept {x : Except ε α} (hok : ∀ a, x = .ok a → A a) (herror : ∀ e, x = .error e → B e) :
    Keeps I B A (MonadExcept.ofExcept x) := by
  intro s hs
  rw [wp_ofExcept]
  exact ⟨fun a ha ↦ ⟨hs, hok a ha⟩, herror⟩

end Keeps

/-- From every state of `I` the program has the result `r`, and ends in `I`. -/
def Gives (I : σ → Prop) (x : EStateM ε σ α) (r : Except ε α) : Prop :=
  ∀ s, I s → wp x (fun a t ↦ I t ∧ .ok a = r) (fun e t ↦ I t ∧ .error e = r) s

namespace Gives

variable {I : σ → Prop} {x : EStateM ε σ α}

theorem pure (a : α) : Gives I (Pure.pure a : EStateM ε σ α) (.ok a) := fun _ hs ↦ ⟨hs, rfl⟩

theorem throw (e : ε) : Gives I (throw e : EStateM ε σ α) (.error e) := fun _ hs ↦ ⟨hs, rfl⟩

theorem bind {f : α → EStateM ε σ β} {a : α} {r : Except ε β} (hx : Gives I x (.ok a))
    (hf : Gives I (f a) r) : Gives I (x >>= f) r := by
  intro s hs
  rw [wp_bind]
  refine wp_mono (hx s hs) ?_ ?_
  · rintro _ t ⟨ht, ⟨⟩⟩
    exact hf t ht
  · rintro _ _ ⟨-, h⟩
    cases h

theorem bind_error {f : α → EStateM ε σ β} {e : ε} (hx : Gives I x (.error e)) :
    Gives I (x >>= f) (.error e) := by
  intro s hs
  rw [wp_bind]
  refine wp_mono (hx s hs) ?_ ?_
  · rintro _ _ ⟨-, h⟩
    cases h
  · rintro _ t ⟨ht, ⟨⟩⟩
    exact ⟨ht, rfl⟩

theorem keeps {r : Except ε α} (h : Gives I x r) :
    Keeps I (fun e ↦ r = .error e) (fun a ↦ r = .ok a) x := by
  intro s hs
  exact wp_mono (h s hs) (fun _ _ ⟨ht, ha⟩ ↦ ⟨ht, ha.symm⟩) fun _ _ ⟨_, he⟩ ↦ he.symm

theorem outcome_fst {r : Except ε α} (h : Gives I x r) {s : σ} (hs : I s) : (outcome x s).1 = r :=
  (wp_iff_outcome (P := fun r' t ↦ I t ∧ r' = r)).1 (h s hs) |>.2

end Gives

end Fallible
