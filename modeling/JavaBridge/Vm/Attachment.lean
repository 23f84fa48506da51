import JavaBridge.Hook.Jni
import JavaBridge.Library.Machine
import Mathlib.Data.List.Perm.Basic

/-!
# Attachment of a thread to the VM

A guard that found its thread detached attaches it and detaches it again when it is dropped; a guard
that found it attached does nothing. The invocation interface is that of the JNI specification, where
the VM may refuse to attach a thread. A run takes guards and drops them in any order.

Main results:

* `attached_of_run`: without guards the thread is as it was before the first, in every run.
* `lawful_iff`: it stays attached under its guards exactly when the oldest one is dropped last.
-/

namespace JavaBridge.Vm

open Hook (JNI_OK)

/-- `JNI_EDETACHED`. -/
def JNI_EDETACHED : Int := -2

/-- A pointer to a `JNIEnv`, null where there is none. -/
abbrev EnvPtr := BitVec 64

/-! ## The invocation interface -/

/-- A native thread, with its environment while it is attached. -/
structure NativeThread where
  env : Option { p : EnvPtr // p ≠ 0 }

/-- What the VM answers to a detached thread: an environment, or the code of an error. -/
abbrev AttachAnswer := Except { code : Int // code ≠ JNI_OK } { p : EnvPtr // p ≠ 0 }

namespace NativeThread

variable (thread : NativeThread)

def attached : Bool := thread.env.isSome

def getEnv : Int × EnvPtr :=
  match thread.env with
  | some env => (JNI_OK, env)
  | none => (JNI_EDETACHED, 0)

/-- For a thread that is attached already, a no-op. -/
def attachCurrentThread (answer : AttachAnswer) : (Int × EnvPtr) × NativeThread :=
  match thread.env, answer with
  | some env, _ => ((JNI_OK, env), thread)
  | none, .ok env => ((JNI_OK, env), ⟨some env⟩)
  | none, .error code => ((code, 0), thread)

def detachCurrentThread (_thread : NativeThread) : Int × NativeThread := (JNI_OK, ⟨none⟩)

end NativeThread

/-! ## Guards -/

section Guards

variable {θ : Type}

def tryGetEnv : EStateM (Error θ) NativeThread (Option EnvPtr) := do
  let (result, env) := (← get).getEnv
  if result = JNI_OK then
    if env = 0 then throw (.nullReturn "JavaVM::GetEnv") else pure (some env)
  else if result = JNI_EDETACHED then pure none
  else throw (.jniCallFailed "JavaVM::GetEnv" result)

/-- Guard that owns or borrows a thread attachment. -/
structure AttachedEnv where
  env : EnvPtr
  detachOnDrop : Bool

def attachCurrentThread (answer : AttachAnswer) : EStateM (Error θ) NativeThread AttachedEnv := do
  match ← tryGetEnv with
  | some env => pure ⟨env, false⟩
  | none =>
    let (result, env) ← modifyGet fun thread ↦ thread.attachCurrentThread answer
    if result ≠ JNI_OK then throw (.jniCallFailed "JavaVM::AttachCurrentThread" result)
    if env = 0 then throw (.nullReturn "JavaVM::AttachCurrentThread")
    pure ⟨env, true⟩

def detachCurrentThread : EStateM (Error θ) NativeThread Unit := do
  let result ← modifyGet NativeThread.detachCurrentThread
  if result ≠ JNI_OK then throw (.jniCallFailed "JavaVM::DetachCurrentThread" result)

end Guards

/-- What the drop of a guard leaves of its thread. -/
def AttachedEnv.drop (guard : AttachedEnv) (thread : NativeThread) : NativeThread :=
  if guard.detachOnDrop then (Fallible.outcome (detachCurrentThread (θ := Empty)) thread).2
  else thread

section Guards

variable {θ : Type} {thread : NativeThread}

theorem tryGetEnv_eq : tryGetEnv (θ := θ) thread = .ok (thread.env.map Subtype.val) thread := by
  obtain ⟨_ | ⟨env, henv⟩⟩ := thread
  · rfl
  · show (if env = 0 then throw _ else pure (some env) : EStateM (Error θ) NativeThread _) _ = _
    rw [if_neg henv]
    rfl

/-- A guard borrows the attachment it finds. Where there is none, it owns the one it makes. -/
theorem wp_attachCurrentThread (thread : NativeThread) (answer : AttachAnswer) :
    Fallible.wp (attachCurrentThread (θ := θ) answer)
      (fun guard thread' ↦ thread'.attached = true ∧ guard.detachOnDrop = (!thread.attached) ∧
        (thread.attached = true ∨ ∃ env, answer = .ok env))
      (fun _ thread' ↦ thread.attached = false ∧ thread' = thread ∧ ∃ code, answer = .error code)
      thread := by
  have hget : ∀ Q E, Fallible.wp (tryGetEnv (θ := θ)) Q E thread ↔
      Q (thread.env.map Subtype.val) thread := by
    intro Q E
    rw [Fallible.wp, tryGetEnv_eq]
  rw [attachCurrentThread, Fallible.wp_bind, hget]
  obtain ⟨_ | ⟨env, henv⟩⟩ := thread
  · obtain ⟨code, hcode⟩ | ⟨env, henv⟩ := answer
    · simp [NativeThread.attachCurrentThread, NativeThread.attached, hcode]
    · simp only [NativeThread.attachCurrentThread, NativeThread.attached, Option.map_none,
        Fallible.wp_bind, Fallible.wp_modifyGet, Fallible.wp_ite, Fallible.wp_pure]
      refine ⟨fun h ↦ absurd rfl h, fun _ ↦ ⟨fun h ↦ absurd h henv, fun _ ↦ ⟨rfl, rfl, ?_⟩⟩⟩
      exact .inr ⟨⟨env, henv⟩, rfl⟩
  · simp [NativeThread.attached]

end Guards

theorem AttachedEnv.attached_drop (guard : AttachedEnv) (thread : NativeThread) :
    (guard.drop thread).attached = (thread.attached && !guard.detachOnDrop) := by
  rw [AttachedEnv.drop]
  cases guard.detachOnDrop with
  | true => exact (Bool.and_false _).symm
  | false => exact (Bool.and_true _).symm

/-! ## Runs -/

/-- A thread and its live guards, the oldest first. -/
structure Guarded where
  thread : NativeThread
  guards : List AttachedEnv

inductive Op
  /-- The VM gives `answer` if it is asked to attach the thread. -/
  | attach (answer : AttachAnswer)
  /-- The drop of the live guard of this position. -/
  | drop (i : Nat)

def step (s : Guarded) : Op → Option Guarded
  | .attach answer =>
    match attachCurrentThread (θ := Empty) answer s.thread with
    | .ok guard thread => some ⟨thread, s.guards ++ [guard]⟩
    | .error _ thread => some ⟨thread, s.guards⟩
  | .drop i => s.guards[i]?.map fun guard ↦ ⟨guard.drop s.thread, s.guards.eraseIdx i⟩

/-- One thread that takes and drops guards, and is attached and detached by them alone. -/
def machine : Machine Guarded Op where
  Init s := s.guards = []
  step := step

/-- The thread is attached under its guards, and without any as it was before the first. -/
structure Kept (wasAttached : Bool) (s : Guarded) : Prop where
  attached : s.guards ≠ [] → s.thread.attached = true
  restored : s.guards = [] → s.thread.attached = wasAttached

/-- The oldest guard of a thread that was not attached goes last. -/
def OldestLast (wasAttached : Bool) (s : Guarded) : Op → Prop
  | .attach _ => True
  | .drop i => wasAttached = true ∨ i ≠ 0 ∨ s.guards.length = 1

instance (wasAttached : Bool) (s : Guarded) : ∀ op, Decidable (OldestLast wasAttached s op)
  | .attach _ => isTrue trivial
  | .drop i => inferInstanceAs (Decidable (wasAttached = true ∨ i ≠ 0 ∨ s.guards.length = 1))

/-- A guard owns the attachment exactly where the thread owes a detachment, and only one does. -/
structure Owned (wasAttached : Bool) (s : Guarded) : Prop where
  attached : wasAttached = true → s.thread.attached = true
  countP_eq : s.guards.countP (·.detachOnDrop) = if s.thread.attached && !wasAttached then 1 else 0

variable {wasAttached : Bool} {s t : Guarded} {op : Op}

theorem step_attach {answer : AttachAnswer} (h : machine.step s (.attach answer) = some t) :
    t.thread.attached = true ∧
        (∃ guard : AttachedEnv, t.guards = s.guards ++ [guard] ∧
          guard.detachOnDrop = !s.thread.attached) ∨
      s.thread.attached = false ∧ t = s := by
  have hwp := wp_attachCurrentThread (θ := Empty) s.thread answer
  unfold Fallible.wp at hwp
  change step s (.attach answer) = some t at h
  rw [step] at h
  split at h
  · next hx =>
    rw [hx] at hwp
    cases h
    exact .inl ⟨hwp.1, _, rfl, hwp.2.1⟩
  · next hx =>
    rw [hx] at hwp
    cases h
    obtain ⟨hdetached, rfl, -⟩ := hwp
    exact .inr ⟨hdetached, rfl⟩

theorem step_drop {i : Nat} (h : machine.step s (.drop i) = some t) :
    ∃ guard, s.guards[i]? = some guard ∧ t.guards = s.guards.eraseIdx i ∧
      t.thread.attached = (s.thread.attached && !guard.detachOnDrop) := by
  obtain ⟨guard, hguard, rfl⟩ := Option.map_eq_some_iff.1 h
  exact ⟨guard, hguard, rfl, guard.attached_drop s.thread⟩

theorem countP_eraseIdx {guards : List AttachedEnv} {i : Nat} {guard : AttachedEnv}
    (h : guards[i]? = some guard) :
    guards.countP (·.detachOnDrop) =
      (guards.eraseIdx i).countP (·.detachOnDrop) + if guard.detachOnDrop then 1 else 0 := by
  obtain ⟨hi, rfl⟩ := List.getElem?_eq_some_iff.1 h
  rw [← (List.getElem_cons_eraseIdx_perm hi).countP_eq, List.countP_cons]

/-- What every step keeps, in whatever order the guards go. -/
theorem Owned.step (hs : Owned wasAttached s) (h : machine.step s op = some t) :
    Owned wasAttached t := by
  cases op with
  | attach answer =>
    rcases step_attach h with ⟨ht, guard, hguards, hguard⟩ | ⟨-, rfl⟩
    · refine ⟨fun _ ↦ ht, ?_⟩
      rw [hguards, List.countP_append, List.countP_singleton, hs.countP_eq, ht, hguard]
      have := hs.attached
      revert this
      cases s.thread.attached <;> cases wasAttached <;> simp
    · exact hs
  | drop i =>
    obtain ⟨guard, hguard, hguards, ht⟩ := step_drop h
    have hcount := countP_eraseIdx hguard
    rw [hs.countP_eq] at hcount
    have hattached := hs.attached
    constructor
    · rw [ht]
      revert hcount hattached
      cases s.thread.attached <;> cases wasAttached <;> cases guard.detachOnDrop <;> simp
    · rw [hguards, ht]
      generalize (s.guards.eraseIdx i).countP (·.detachOnDrop) = owners at hcount ⊢
      revert hcount hattached
      cases s.thread.attached <;> cases wasAttached <;> cases guard.detachOnDrop <;> simp
      all_goals exact Eq.symm

/-- Without a guard, the thread is as it was. -/
theorem Owned.restored (hs : Owned wasAttached s) (h : s.guards = []) :
    s.thread.attached = wasAttached := by
  have hcount := hs.countP_eq
  have hattached := hs.attached
  rw [h] at hcount
  revert hcount hattached
  cases s.thread.attached <;> cases wasAttached <;> simp

/-- Under the condition, only the oldest guard can be the owner. -/
structure Ordered (wasAttached : Bool) (s : Guarded) : Prop extends Owned wasAttached s where
  kept : s.guards ≠ [] → s.thread.attached = true
  tail : ∀ guard ∈ s.guards.tail, guard.detachOnDrop = false

theorem Ordered.detachOnDrop_eq_false (hs : Ordered wasAttached s) {i : Nat} {guard : AttachedEnv}
    (hguard : s.guards[i]? = some guard) (h : wasAttached = true ∨ i ≠ 0) :
    guard.detachOnDrop = false := by
  rcases h with h | h
  · have hcount := hs.countP_eq
    rw [h, Bool.not_true, Bool.and_false, if_neg nofun, List.countP_eq_zero] at hcount
    exact Bool.eq_false_iff.2 (hcount guard (List.mem_of_getElem? hguard))
  · obtain ⟨i, rfl⟩ := Nat.exists_eq_succ_of_ne_zero h
    rw [← List.getElem?_tail] at hguard
    exact hs.tail guard (List.mem_of_getElem? hguard)

theorem mem_tail_of_mem_tail_eraseIdx {guards : List AttachedEnv} {i : Nat} {guard : AttachedEnv}
    (h : guard ∈ (guards.eraseIdx i).tail) : guard ∈ guards.tail := by
  obtain _ | ⟨oldest, rest⟩ := guards
  · exact h
  · obtain _ | i := i
    · exact List.mem_of_mem_tail h
    · exact List.mem_of_mem_eraseIdx h

theorem Ordered.step (hs : Ordered wasAttached s) (hop : OldestLast wasAttached s op)
    (h : machine.step s op = some t) : Ordered wasAttached t := by
  cases op with
  | attach answer =>
    rcases step_attach h with ⟨ht, guard, hguards, hguard⟩ | ⟨-, rfl⟩
    · refine ⟨hs.toOwned.step h, fun _ ↦ ht, ?_⟩
      rw [hguards]
      cases hold : s.guards with
      | nil => exact nofun
      | cons oldest rest =>
        have hkept := hs.kept (hold ▸ List.cons_ne_nil oldest rest)
        have htail := hs.tail
        rw [hold] at htail
        intro guard' hmem
        rcases List.mem_append.1 hmem with hmem | hmem
        · exact htail guard' hmem
        · rw [List.mem_singleton.1 hmem, hguard, hkept]
          rfl
    · exact hs
  | drop i =>
    obtain ⟨guard, hguard, hguards, ht⟩ := step_drop h
    refine ⟨hs.toOwned.step h, fun hne ↦ ?_, ?_⟩
    · have hs_ne : s.guards ≠ [] := List.ne_nil_of_mem (List.mem_of_getElem? hguard)
      have hborrowed : guard.detachOnDrop = false := by
        rcases or_assoc.2 hop with hop | hone
        · exact hs.detachOnDrop_eq_false hguard hop
        · -- the last guard went, and none is left to keep the thread for
          obtain ⟨hi, -⟩ := List.getElem?_eq_some_iff.1 hguard
          rw [hguards, ne_eq, ← List.length_eq_zero_iff, List.length_eraseIdx_of_lt hi, hone] at hne
          exact absurd rfl hne
      rw [ht, hs.kept hs_ne, hborrowed]
      rfl
    · rw [hguards]
      exact fun guard' hmem ↦ hs.tail guard' (mem_tail_of_mem_tail_eraseIdx hmem)

/-- The oldest guard of a thread that was not attached takes the attachment with it. -/
theorem not_kept_of_not_oldestLast (hs : Ordered wasAttached s)
    (hop : ¬OldestLast wasAttached s op) (h : machine.step s op = some t) :
    ¬Kept wasAttached t := by
  cases op with
  | attach answer => exact absurd trivial hop
  | drop i =>
    obtain ⟨guard, hguard, hguards, ht⟩ := step_drop h
    obtain ⟨hwas, hi, hlength⟩ : wasAttached = false ∧ i = 0 ∧ s.guards.length ≠ 1 := by
      simpa [OldestLast] using hop
    subst hwas hi
    obtain ⟨rest, hrest⟩ : ∃ rest, s.guards = guard :: rest := by
      cases hold : s.guards with
      | nil => rw [hold] at hguard; cases hguard
      | cons oldest rest =>
        rw [hold] at hguard
        cases hguard
        exact ⟨rest, rfl⟩
    have howner : guard.detachOnDrop = true := by
      have hcount := hs.countP_eq
      have htail := hs.tail
      rw [hrest] at htail
      have hkept := hs.kept (hrest ▸ List.cons_ne_nil guard rest)
      have hzero : rest.countP (·.detachOnDrop) = 0 :=
        List.countP_eq_zero.2 fun guard' hmem ↦ Bool.eq_false_iff.1 (htail guard' hmem)
      rw [hrest, List.countP_cons, hzero, hkept] at hcount
      revert hcount
      cases guard.detachOnDrop <;> simp
    intro hkept
    have hne : t.guards ≠ [] := by
      rw [hguards, hrest]
      rintro rfl
      exact hlength (hrest ▸ rfl)
    have := hkept.attached hne
    rw [ht, howner, Bool.not_true, Bool.and_false] at this
    cases this

/-! ## The law -/

theorem owned_of_init (h : machine.Init s) : Owned s.thread.attached s := by
  have h : s.guards = [] := h
  refine ⟨id, ?_⟩
  rw [h]
  cases s.thread.attached <;> rfl

/-- Whatever the order of the drops, the last one leaves the thread as it was before the first
guard. -/
theorem attached_of_run {s₀ t : Guarded} {ops : List Op} (h₀ : machine.Init s₀)
    (h : machine.run s₀ ops = some t) (ht : t.guards = []) :
    t.thread.attached = s₀.thread.attached := by
  have howned : Owned s₀.thread.attached t :=
    Machine.run_invariant (C := fun _ _ ↦ True) (fun _ _ _ hs _ hstep ↦ hs.step hstep)
      (owned_of_init h₀) (Machine.along_true s₀ ops) h
  exact howned.restored ht

/-- A run keeps the thread attached under its guards exactly when it never drops the oldest guard of
a thread that was not attached before the others. -/
theorem lawful_iff {s₀ t : Guarded} {ops : List Op} (h₀ : machine.Init s₀)
    (h : machine.run s₀ ops = some t) :
    machine.Throughout (Kept s₀.thread.attached) s₀ ops ↔
      machine.Along (OldestLast s₀.thread.attached) s₀ ops := by
  refine Machine.throughout_iff_along (I := Ordered s₀.thread.attached) ?_ ?_ ?_ ?_ h
  · exact fun s hs ↦ ⟨hs.kept, hs.toOwned.restored⟩
  · exact fun s op t hs hop hstep ↦ hs.step hop hstep
  · exact fun s op t hs hop hstep ↦ not_kept_of_not_oldestLast hs hop hstep
  · have hguards : s₀.guards = [] := h₀
    refine ⟨owned_of_init h₀, fun hne ↦ absurd hguards hne, ?_⟩
    rw [hguards]
    exact nofun

/-- A thread that is not attached, and has no guards. -/
def detached : Guarded := ⟨⟨none⟩, []⟩

/-- The VM attaches the thread. -/
def accepted : AttachAnswer := .ok ⟨0x1000, by decide⟩

theorem lawful_lastInFirstOut :
    machine.Throughout (Kept false) detached
      [.attach accepted, .attach accepted, .drop 1, .drop 0] := by
  have hinit : machine.Init detached := rfl
  exact (lawful_iff hinit (t := ⟨⟨none⟩, []⟩) rfl).2 (by decide +kernel)

/-- Two guards on a thread that was not attached, and the first one dropped. -/
theorem detached_under_guard :
    ¬∀ (s₀ t : Guarded) (ops : List Op), machine.Init s₀ → machine.run s₀ ops = some t →
      Kept s₀.thread.attached t := by
  intro h
  have hkept := h detached ⟨⟨none⟩, [⟨0x1000, false⟩]⟩
    [.attach accepted, .attach accepted, .drop 0] rfl rfl
  exact absurd (hkept.attached (List.cons_ne_nil _ _)) (by decide)

end JavaBridge.Vm
