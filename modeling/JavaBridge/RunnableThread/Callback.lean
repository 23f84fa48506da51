import JavaBridge.Error
import Mathlib.Data.List.Basic

/-!
# The callback of a runnable thread transition

`run` puts a pointer to a callback of its own into a slot of the thread, makes the recompiled code
perform the transition, and takes the result that the callback has left. The recompiled code calls
the callback through the slot as often as it likes, and the closure in it may call `run` again.

What a thread does is a program over these operations. The pointer is the place of the call's locals
on the stack of the thread, so that one to locals that are gone can be told. Of each call it is kept
how often its closure was entered and what came of it.

Main results:

* `effect_exec`: what a program leaves in the slot and on the stack.
* `exec_returns`: every program comes back.
* `runnable_callback_lawful`: the law of the calls on a thread.
-/

namespace JavaBridge.RunnableThread

variable {θ : Type}

/-! ## Programs of a thread -/

/-- What a closure comes back with. -/
inductive Outcome (θ : Type) : Type
  | returned (result : Except (Error θ) Unit)
  | panicked

/-- The body of a closure, or the recompiled code. -/
inductive Kind : Type
  | closure
  | transition

/-- What is done on a thread, as far as the slot sees it: completions and calls of `run`, with what
follows on their result. The code of a transition has no result of its own. -/
inductive Program (θ : Type) : Kind → Type
  | leave (outcome : Outcome θ) : Program θ .closure
  | finish : Program θ .transition
  | complete {κ : Kind} (thread : BitVec 64) (next : Program θ κ) : Program θ κ
  | run {κ : Kind} (feature : String) (transition : Program θ .transition)
    (f : BitVec 64 → Program θ .closure) (next : Except (Error θ) Unit → Program θ κ) : Program θ κ

/-! ## The thread -/

structure RunnableCallbackSlot where
  active : Bool
  callback : Option Nat
  deriving DecidableEq

/-- `RunnableCallbackSlot::default`. -/
def RunnableCallbackSlot.idle : RunnableCallbackSlot := ⟨false, none⟩

/-- The locals of a `run` that its callback has captured. With them, how often the closure was
entered and what it came back with. -/
structure Locals (θ : Type) where
  result : Option (Except (Error θ) Unit)
  f : Option (BitVec 64 → Program θ .closure)
  starts : Nat
  own : Option (Outcome θ)

namespace Locals

def new (f : BitVec 64 → Program θ .closure) : Locals θ := ⟨none, some f, 0, none⟩

variable (l : Locals θ)

/-- `f.take()`, and the closure is entered. -/
def take : Locals θ := { l with f := none, starts := l.starts + 1 }

/-- The result is assigned, unless the closure panicked on the way. -/
def put : Outcome θ → Locals θ
  | .returned result => { l with result := some result, own := some (.returned result) }
  | .panicked => { l with own := some .panicked }

end Locals

/-- A call of `run` that has returned. -/
structure Call (θ : Type) where
  /-- How many calls were in progress. -/
  depth : Nat
  before : RunnableCallbackSlot
  starts : Nat
  own : Option (Outcome θ)
  result : Except (Error θ) Unit
  after : RunnableCallbackSlot

structure Thread (θ : Type) where
  slot : RunnableCallbackSlot
  stack : List (Locals θ)
  /-- A callback was called whose locals were gone. -/
  dangling : Bool
  calls : List (Call θ)

namespace Thread

def start : Thread θ := ⟨.idle, [], false, []⟩

variable (s : Thread θ)

/-- The locals of a call, which are there while it is in progress. -/
def locals (callback : Nat) : Locals θ := s.stack.getD callback ⟨none, none, 0, none⟩

def setLocals (callback : Nat) (l : Locals θ) : Thread θ :=
  { s with stack := s.stack.set callback l }

def push (l : Locals θ) : Thread θ := { s with stack := s.stack ++ [l] }

variable (callback : Nat) (before : RunnableCallbackSlot) (result : Except (Error θ) Unit)

/-- What is kept of a call that returns now. -/
def record : Call θ :=
  ⟨callback, before, (s.locals callback).starts, (s.locals callback).own, result, s.slot⟩

/-- The call returns, and its locals are gone. -/
def leave : Thread θ :=
  { s with
    stack := s.stack.take callback
    calls := s.calls ++ [s.record callback before result] }

end Thread

/-! ## The slot -/

def unsupported {α : Type} (feature reason : String) : Except (Error θ) α :=
  .error (.unsupportedFeature feature reason)

def installRunnableCallback (feature : String) (callback : Nat) (slot : RunnableCallbackSlot) :
    Except (Error θ) RunnableCallbackSlot :=
  if slot.active || slot.callback.isSome then
    unsupported feature "runnable thread transition is already active on this thread"
  else .ok ⟨true, some callback⟩

theorem installRunnableCallback_idle {feature : String} {callback : Nat} :
    installRunnableCallback (θ := θ) feature callback .idle = .ok ⟨true, some callback⟩ := rfl

/-- `RunnableCallbackGuard::drop`. -/
def dropGuard (s : Thread θ) : Thread θ := { s with slot := .idle }

section

variable (execClosure : Program θ .closure → Thread θ → Option (Outcome θ × Thread θ))
  (execTransition : Program θ .transition → Thread θ → Option (Outcome θ × Thread θ))

/-- The callback: the closure is taken out and its result is put in. A panic goes on to the caller,
which catches it. -/
def callCallback (callback : Nat) (thread : BitVec 64) (s : Thread θ) : Option (Thread θ) :=
  match s.stack[callback]? with
  | none => some { s with dangling := true }
  | some l =>
    match l.f with
    | none => some s
    | some f =>
      (execClosure (f thread) (s.setLocals callback l.take)).map fun (outcome, s) ↦
        s.setLocals callback ((s.locals callback).put outcome)

def onRunnableThreadTransitionComplete (thread : BitVec 64) (s : Thread θ) : Option (Thread θ) :=
  match s.slot.callback with
  | none => some s
  | some callback =>
    callCallback execClosure callback thread { s with slot := { s.slot with callback := none } }

/-- `RunnableThreadTransition::run`. -/
def runTransition (feature : String) (transition : Program θ .transition)
    (f : BitVec 64 → Program θ .closure) (s : Thread θ) :
    Option (Except (Error θ) Unit × Thread θ) :=
  let callback := s.stack.length
  match installRunnableCallback feature callback s.slot with
  | .error error => some (.error error, (s.push (.new f)).leave callback s.slot (.error error))
  | .ok slot =>
    (execTransition transition { s.push (.new f) with slot }).map fun (unwind, s') ↦
      let result :=
        match unwind with
        | .panicked => unsupported feature "runnable thread transition callback panicked"
        | .returned _ =>
          (s'.locals callback).result.getD
            (unsupported feature "unable to perform runnable thread transition")
      (result, (dropGuard s').leave callback s.slot result)

end

/-- What a program does, unless it takes more than a number of steps. -/
def exec : Nat → {κ : Kind} → Program θ κ → Thread θ → Option (Outcome θ × Thread θ)
  | 0, _, _, _ => none
  | _ + 1, _, .leave outcome, s => some (outcome, s)
  | _ + 1, _, .finish, s => some (.returned (.ok ()), s)
  | n + 1, _, .complete thread next, s =>
    (onRunnableThreadTransitionComplete (exec n) thread s).bind (exec n next)
  | n + 1, _, .run feature transition f next, s =>
    (runTransition (exec n) feature transition f s).bind fun (result, s) ↦ exec n (next result) s

/-! ## The law of a call -/

/-- A call enters its closure once at most and comes back with the result of the closure, or with an
error where it has none. In another call it does nothing, and the last one leaves the slot idle. -/
structure Call.Lawful (c : Call θ) : Prop where
  once : c.starts ≤ 1
  entered : c.starts = 0 ↔ c.own = none
  own : ∀ result, c.own = some (.returned result) → c.result = result
  failed : (∀ result, c.own ≠ some (.returned result)) → ∃ error, c.result = .error error
  nested : 0 < c.depth → c.starts = 0 ∧ c.after = c.before ∧ ∃ error, c.result = .error error
  outermost : c.depth = 0 → c.after = .idle

/-- The slot is in use just while a call is in progress, and a callback in it is one that has not
been called, of a call in progress. -/
structure Inv (s : Thread θ) : Prop where
  active : s.slot.active = true ↔ s.stack ≠ []
  callback : ∀ callback, s.slot.callback = some callback → ∃ f, s.stack[callback]? = some (.new f)
  not_dangling : s.dangling = false

/-- What a program can have done to the slot and the stack: nothing, or called the callback. -/
inductive Used (s s' : Thread θ) : Prop
  | kept (slot : s'.slot = s.slot) (stack : s'.stack = s.stack)
  | called (callback : Nat) (f : BitVec 64 → Program θ .closure) (outcome : Outcome θ)
    (before : s.slot.callback = some callback) (fresh : s.stack[callback]? = some (.new f))
    (slot : s'.slot = { s.slot with callback := none })
    (stack : s'.stack = s.stack.set callback ((Locals.new f).take.put outcome))

/-- What a program does to the thread. -/
structure Effect (s s' : Thread θ) : Prop where
  used : Used s s'
  dangling : s'.dangling = s.dangling
  calls : ∃ calls, s'.calls = s.calls ++ calls ∧ ∀ c ∈ calls, c.Lawful

variable {κ : Kind} {s s' s'' : Thread θ} {n : Nat}

theorem inv_start : Inv (.start : Thread θ) where
  active := by
    constructor
    · intro h
      cases h
    · intro h
      exact absurd rfl h
  callback := by
    intro callback h
    cases h
  not_dangling := rfl

/-- Between two calls the slot is idle. -/
theorem Inv.idle (hs : Inv s) (h : s.stack = []) : s.slot = .idle := by
  have hactive : s.slot.active = false := by
    rw [← Bool.not_eq_true, hs.active]
    exact not_not_intro h
  have hcallback : s.slot.callback = none := by
    rw [Option.eq_none_iff_forall_ne_some]
    intro callback hsome
    obtain ⟨f, hf⟩ := hs.callback callback hsome
    rw [h] at hf
    cases hf
  rw [RunnableCallbackSlot.idle, ← hactive, ← hcallback]

theorem Effect.refl (s : Thread θ) : Effect s s :=
  ⟨.kept rfl rfl, rfl, [], (List.append_nil _).symm, List.forall_mem_nil _⟩

theorem Effect.inv (h : Effect s s') (hs : Inv s) : Inv s' := by
  rcases h.used with ⟨hslot, hstack⟩ | ⟨k, f, outcome, hbefore, hfresh, hslot, hstack⟩
  · refine ⟨?_, ?_, h.dangling.trans hs.not_dangling⟩
    · rw [hslot, hstack]
      exact hs.active
    · rw [hslot, hstack]
      exact hs.callback
  · refine ⟨?_, ?_, h.dangling.trans hs.not_dangling⟩
    · rw [hslot, hstack, Ne, List.set_eq_nil_iff]
      exact hs.active
    · rw [hslot]
      intro callback hsome
      cases hsome

theorem Effect.trans (h : Effect s s') (h' : Effect s' s'') : Effect s s'' := by
  refine ⟨?_, h'.dangling.trans h.dangling, ?_⟩
  · rcases h.used with ⟨hslot, hstack⟩ | ⟨k, f, outcome, hbefore, hfresh, hslot, hstack⟩
    · rcases h'.used with ⟨hslot', hstack'⟩ | ⟨k, f, outcome, hbefore, hfresh, hslot', hstack'⟩
      · exact .kept (hslot'.trans hslot) (hstack'.trans hstack)
      · rw [hslot] at hbefore hslot'
        rw [hstack] at hfresh hstack'
        exact .called k f outcome hbefore hfresh hslot' hstack'
    · rcases h'.used with ⟨hslot', hstack'⟩ | ⟨k', f', outcome', hbefore', hfresh', -, -⟩
      · exact .called k f outcome hbefore hfresh (hslot'.trans hslot) (hstack'.trans hstack)
      · -- the slot has no callback any more
        rw [hslot] at hbefore'
        cases hbefore'
  · obtain ⟨calls, hcalls, hlawful⟩ := h.calls
    obtain ⟨calls', hcalls', hlawful'⟩ := h'.calls
    refine ⟨calls ++ calls', ?_, List.forall_mem_append.2 ⟨hlawful, hlawful'⟩⟩
    rw [hcalls', hcalls, List.append_assoc]

/-! ## What the operations do -/

/-- The code of a transition does not unwind. -/
theorem exec_transition {p : Program θ .transition} {outcome : Outcome θ}
    (h : exec n p s = some (outcome, s')) : outcome = .returned (.ok ()) := by
  induction n generalizing p s with
  | zero => cases h
  | succ n ih =>
    cases p with
    | finish =>
      cases h
      rfl
    | complete thread next =>
      obtain ⟨t, -, h⟩ := Option.bind_eq_some_iff.1 h
      exact ih h
    | run feature transition f next =>
      obtain ⟨r, -, h⟩ := Option.bind_eq_some_iff.1 h
      exact ih h

section

variable {execClosure : Program θ .closure → Thread θ → Option (Outcome θ × Thread θ)}
  {execTransition : Program θ .transition → Thread θ → Option (Outcome θ × Thread θ)}

/-- The callback has been taken out of the slot. -/
theorem inv_taken (hs : Inv s) (l : Locals θ) (callback : Nat) :
    Inv ({ s with slot := { s.slot with callback := none } }.setLocals callback l) where
  active := by
    change _ ↔ s.stack.set callback l ≠ []
    rw [Ne, List.set_eq_nil_iff]
    exact hs.active
  callback := by
    intro callback hsome
    cases hsome
  not_dangling := hs.not_dangling

/-- The callback has been put into the slot. -/
theorem inv_installed (hs : Inv s) (f : BitVec 64 → Program θ .closure) :
    Inv { s.push (.new f) with slot := ⟨true, some s.stack.length⟩ } where
  active :=
    ⟨fun _ ↦ List.append_ne_nil_of_right_ne_nil _ (List.cons_ne_nil _ _), fun _ ↦ rfl⟩
  callback := by
    intro callback hsome
    obtain rfl := Option.some.inj hsome
    exact ⟨f, List.getElem?_concat_length⟩
  not_dangling := hs.not_dangling

theorem effect_complete {thread : BitVec 64}
    (hexec : ∀ p s outcome s', execClosure p s = some (outcome, s') → Inv s → Effect s s')
    (h : onRunnableThreadTransitionComplete execClosure thread s = some s') (hs : Inv s) :
    Effect s s' := by
  rw [onRunnableThreadTransitionComplete] at h
  split at h
  · cases h
    exact .refl s
  · next callback hcallback =>
    obtain ⟨f, hfresh⟩ := hs.callback callback hcallback
    rw [callCallback] at h
    dsimp only at h
    rw [hfresh] at h
    obtain ⟨⟨outcome, t⟩, ht, rfl⟩ := Option.map_eq_some_iff.1 h
    have heffect := hexec _ _ _ _ ht (inv_taken hs _ callback)
    rcases heffect.used with ⟨hslot, hstack⟩ | ⟨k, f, outcome, hbefore, -, -, -⟩
    · have hlt : callback < s.stack.length := (List.getElem?_eq_some_iff.1 hfresh).1
      have hlocals : t.locals callback = (Locals.new f).take := by
        rw [Thread.locals, hstack, List.getD_eq_getElem?_getD]
        change (s.stack.set callback _)[callback]?.getD _ = _
        rw [List.getElem?_set_self hlt, Option.getD_some]
      refine ⟨.called callback f outcome hcallback hfresh hslot ?_, heffect.dangling, heffect.calls⟩
      change t.stack.set callback _ = _
      rw [hlocals, hstack]
      exact List.set_set ..
    · cases hbefore

theorem lawful_rejected {depth : Nat} {slot : RunnableCallbackSlot} {error : Error θ}
    (h : depth ≠ 0) : Call.Lawful ⟨depth, slot, 0, none, .error error, slot⟩ where
  once := Nat.zero_le 1
  entered := ⟨fun _ ↦ rfl, fun _ ↦ rfl⟩
  own := by
    intro result h
    cases h
  failed := fun _ ↦ ⟨error, rfl⟩
  nested := fun _ ↦ ⟨rfl, rfl, error, rfl⟩
  outermost := fun h0 ↦ absurd h0 h

theorem locals_push (s : Thread θ) (l : Locals θ) : (s.push l).locals s.stack.length = l := by
  rw [Thread.locals, Thread.push, List.getD_eq_getElem?_getD, List.getElem?_concat_length,
    Option.getD_some]

theorem take_push (s : Thread θ) (l : Locals θ) :
    (s.push l).stack.take s.stack.length = s.stack := List.take_left

/-- A call in another one is turned away at the slot. -/
theorem effect_rejected {feature : String} {transition : Program θ .transition}
    {f : BitVec 64 → Program θ .closure} (hs : Inv s) (hne : s.stack ≠ []) :
    ∃ error s', runTransition execTransition feature transition f s = some (.error error, s') ∧
      Effect s s' := by
  have hactive : (s.slot.active || s.slot.callback.isSome) = true := by
    rw [hs.active.2 hne, Bool.true_or]
  rw [runTransition, installRunnableCallback, if_pos hactive, unsupported]
  refine ⟨_, _, rfl, .kept rfl (take_push s _), rfl, [_], rfl, ?_⟩
  rw [List.forall_mem_singleton, Thread.record, locals_push]
  apply lawful_rejected
  rw [Ne, List.length_eq_zero_iff]
  exact hne

/-- What becomes of the locals of a call. -/
inductive UsedBy (f : BitVec 64 → Program θ .closure) : Locals θ → Prop
  | not_called : UsedBy f (.new f)
  | called (outcome : Outcome θ) : UsedBy f ((Locals.new f).take.put outcome)

theorem new_injective {f f' : BitVec 64 → Program θ .closure}
    (h : Locals.new f = Locals.new f') : f = f' :=
  Option.some.inj (congrArg Locals.f h)

theorem UsedBy.lawful {f : BitVec 64 → Program θ .closure} {l : Locals θ} (h : UsedBy f l)
    (slot : RunnableCallbackSlot) (feature reason : String) :
    Call.Lawful ⟨0, slot, l.starts, l.own, l.result.getD (unsupported feature reason), .idle⟩ := by
  have hdepth {P : Prop} : 0 < 0 → P := fun h ↦ absurd h (Nat.lt_irrefl 0)
  cases h with
  | not_called =>
    refine ⟨Nat.zero_le 1, ⟨fun _ ↦ rfl, fun _ ↦ rfl⟩, ?_, ?_, hdepth, fun _ ↦ rfl⟩
    · intro result h
      cases h
    · intro _
      exact ⟨_, rfl⟩
  | called outcome =>
    cases outcome with
    | returned own =>
      refine ⟨Nat.le_refl 1, ⟨?_, ?_⟩, ?_, ?_, hdepth, fun _ ↦ rfl⟩
      · intro h
        cases h
      · intro h
        cases h
      · intro result h
        cases h
        rfl
      · intro h
        exact absurd rfl (h own)
    | panicked =>
      refine ⟨Nat.le_refl 1, ⟨?_, ?_⟩, ?_, ?_, hdepth, fun _ ↦ rfl⟩
      · intro h
        cases h
      · intro h
        cases h
      · intro result h
        cases h
      · intro _
        exact ⟨_, rfl⟩

/-- A call that was let in returns. -/
theorem effect_leave {t : Thread θ} {l : Locals θ} {calls : List (Call θ)}
    {before : RunnableCallbackSlot} {result : Except (Error θ) Unit} (hidle : s.slot = .idle)
    (hstack : t.stack = s.stack ++ [l]) (hdangling : t.dangling = s.dangling)
    (hcalls : t.calls = s.calls ++ calls) (hlawful : ∀ c ∈ calls, c.Lawful)
    (hlast : ((dropGuard t).record s.stack.length before result).Lawful) :
    Effect s ((dropGuard t).leave s.stack.length before result) := by
  refine ⟨.kept hidle.symm ?_, hdangling,
    calls ++ [(dropGuard t).record s.stack.length before result], ?_, ?_⟩
  · change t.stack.take s.stack.length = s.stack
    rw [hstack]
    exact List.take_left
  · change t.calls ++ _ = s.calls ++ _
    rw [hcalls, List.append_assoc]
  · rw [List.forall_mem_append, List.forall_mem_singleton]
    exact ⟨hlawful, hlast⟩

/-- The result of a call that was let in, from what its callback has left. -/
theorem effect_accepted {feature : String} {transition : Program θ .transition}
    {f : BitVec 64 → Program θ .closure} {result : Except (Error θ) Unit}
    (hexec : ∀ p s outcome s', execTransition p s = some (outcome, s') →
      outcome = .returned (.ok ()) ∧ (Inv s → Effect s s'))
    (h : runTransition execTransition feature transition f s = some (result, s')) (hs : Inv s)
    (hnil : s.stack = []) : Effect s s' := by
  have hidle := hs.idle hnil
  rw [runTransition, hidle, installRunnableCallback_idle] at h
  obtain ⟨⟨unwind, t⟩, ht, h⟩ := Option.map_eq_some_iff.1 h
  obtain ⟨rfl, heffect⟩ := hexec _ _ _ _ ht
  obtain ⟨rfl, rfl⟩ := Prod.mk.inj h
  have heffect := heffect (inv_installed hs f)
  obtain ⟨l, hstack, hused⟩ : ∃ l, t.stack = s.stack ++ [l] ∧ UsedBy f l := by
    rcases heffect.used with ⟨-, hstack⟩ | ⟨k, f', outcome, hbefore, hfresh, -, hstack⟩
    · exact ⟨.new f, hstack, .not_called⟩
    · obtain rfl := Option.some.inj hbefore
      obtain rfl := new_injective (Option.some.inj (List.getElem?_concat_length.symm.trans hfresh))
      refine ⟨_, hstack.trans ?_, .called outcome⟩
      exact (List.set_append_right _ _ (Nat.le_refl _)).trans (by rw [Nat.sub_self]; rfl)
  obtain ⟨calls, hcalls, hlawful⟩ := heffect.calls
  have hlocals : t.locals s.stack.length = l := by
    rw [Thread.locals, hstack, List.getD_eq_getElem?_getD, List.getElem?_concat_length,
      Option.getD_some]
  apply effect_leave hidle hstack heffect.dangling hcalls hlawful
  change Call.Lawful ⟨s.stack.length, _, (t.locals _).starts, (t.locals _).own,
    (t.locals _).result.getD _, .idle⟩
  rw [hlocals, hnil]
  exact hused.lawful _ _ _

theorem effect_runTransition {feature : String} {transition : Program θ .transition}
    {f : BitVec 64 → Program θ .closure} {result : Except (Error θ) Unit}
    (hexec : ∀ p s outcome s', execTransition p s = some (outcome, s') →
      outcome = .returned (.ok ()) ∧ (Inv s → Effect s s'))
    (h : runTransition execTransition feature transition f s = some (result, s')) (hs : Inv s) :
    Effect s s' := by
  by_cases hnil : s.stack = []
  · exact effect_accepted hexec h hs hnil
  · obtain ⟨error, t, ht, heffect⟩ := effect_rejected hs hnil
    rw [ht] at h
    obtain ⟨-, rfl⟩ := Prod.mk.inj (Option.some.inj h)
    exact heffect

end

/-- **What a program does**: nothing to the slot and the stack, or to call the callback. -/
theorem effect_exec {p : Program θ κ} {outcome : Outcome θ} (h : exec n p s = some (outcome, s'))
    (hs : Inv s) : Effect s s' := by
  induction n generalizing κ p s outcome s' with
  | zero => cases h
  | succ n ih =>
    cases p with
    | leave own =>
      cases h
      exact .refl s
    | finish =>
      cases h
      exact .refl s
    | complete thread next =>
      obtain ⟨t, ht, h⟩ := Option.bind_eq_some_iff.1 h
      have heffect := effect_complete (fun p s outcome s' h hs ↦ ih h hs) ht hs
      exact heffect.trans (ih h (heffect.inv hs))
    | run feature transition f next =>
      obtain ⟨⟨result, t⟩, ht, h⟩ := Option.bind_eq_some_iff.1 h
      have heffect := effect_runTransition (fun p s outcome s' h ↦ ⟨exec_transition h, ih h⟩) ht hs
      exact heffect.trans (ih h (heffect.inv hs))

theorem effect_run {feature : String} {transition : Program θ .transition}
    {f : BitVec 64 → Program θ .closure} {r : Except (Error θ) Unit × Thread θ}
    (h : runTransition (exec n) feature transition f s = some r) (hs : Inv s) : Effect s r.2 :=
  effect_runTransition (fun _ _ _ _ h ↦ ⟨exec_transition h, effect_exec h⟩) h hs

/-! ## Every program comes back -/

section

variable {execClosure execClosure' : Program θ .closure → Thread θ → Option (Outcome θ × Thread θ)}
  {execTransition execTransition' :
    Program θ .transition → Thread θ → Option (Outcome θ × Thread θ)}

theorem complete_mono {thread : BitVec 64}
    (hexec : ∀ p s r, execClosure p s = some r → execClosure' p s = some r)
    (h : onRunnableThreadTransitionComplete execClosure thread s = some s') :
    onRunnableThreadTransitionComplete execClosure' thread s = some s' := by
  rw [onRunnableThreadTransitionComplete] at h ⊢
  split
  · next hcallback =>
    rw [hcallback] at h
    exact h
  · next callback hcallback =>
    rw [hcallback] at h
    dsimp only at h
    rw [callCallback] at h ⊢
    split
    · next hlocals =>
      rw [hlocals] at h
      exact h
    · next l hlocals =>
      rw [hlocals] at h
      dsimp only at h
      split
      · next hf =>
        rw [hf] at h
        exact h
      · next f hf =>
        rw [hf] at h
        obtain ⟨r, hr, h⟩ := Option.map_eq_some_iff.1 h
        rw [hexec _ _ r hr]
        exact congrArg some h

theorem runTransition_mono {feature : String} {transition : Program θ .transition}
    {f : BitVec 64 → Program θ .closure} {r : Except (Error θ) Unit × Thread θ}
    (hexec : ∀ p s r, execTransition p s = some r → execTransition' p s = some r)
    (h : runTransition execTransition feature transition f s = some r) :
    runTransition execTransition' feature transition f s = some r := by
  rw [runTransition] at h ⊢
  split
  · next hinstall =>
    rw [hinstall] at h
    exact h
  · next hinstall =>
    rw [hinstall] at h
    obtain ⟨r', hr', h⟩ := Option.map_eq_some_iff.1 h
    rw [hexec _ _ r' hr']
    exact congrArg some h

end

/-- More steps do not change what a program does. -/
theorem exec_mono {m : Nat} {p : Program θ κ} {r : Outcome θ × Thread θ} (h : exec n p s = some r)
    (hle : n ≤ m) : exec m p s = some r := by
  induction n generalizing κ p s r m with
  | zero => cases h
  | succ n ih =>
    cases m with
    | zero => exact absurd hle (Nat.not_succ_le_zero n)
    | succ m =>
      have hle := Nat.le_of_succ_le_succ hle
      cases p with
      | leave outcome => exact h
      | finish => exact h
      | complete thread next =>
        obtain ⟨t, ht, h⟩ := Option.bind_eq_some_iff.1 h
        refine Option.bind_eq_some_iff.2 ⟨t, ?_, ih h hle⟩
        exact complete_mono (fun p s r h ↦ ih h hle) ht
      | run feature transition f next =>
        obtain ⟨r', hr', h⟩ := Option.bind_eq_some_iff.1 h
        refine Option.bind_eq_some_iff.2 ⟨r', ?_, ih h hle⟩
        exact runTransition_mono (fun p s r h ↦ ih h hle) hr'

/-- Some number of steps is enough for a program. -/
def Returns (p : Program θ κ) (s : Thread θ) : Prop := ∃ n r, exec n p s = some r

/-- The closure of the callback that waits in the slot, if there is one, comes back. -/
def Waiting (s : Thread θ) : Prop :=
  ∀ callback f, s.slot.callback = some callback → s.stack[callback]? = some (.new f) →
    ∀ thread t, Inv t → t.slot.callback = none → Returns (f thread) t

theorem waiting_of_none (h : s.slot.callback = none) : Waiting s := by
  intro callback f hsome
  rw [h] at hsome
  cases hsome

theorem Effect.waiting (h : Effect s s') (hs : Waiting s) : Waiting s' := by
  rcases h.used with ⟨hslot, hstack⟩ | ⟨k, f, outcome, hbefore, hfresh, hslot, hstack⟩
  · intro callback f
    rw [hslot, hstack]
    exact hs callback f
  · apply waiting_of_none
    rw [hslot]

theorem exists_complete (thread : BitVec 64) (hs : Inv s) (hwaiting : Waiting s) :
    ∃ n s', onRunnableThreadTransitionComplete (exec n) thread s = some s' := by
  cases hcallback : s.slot.callback with
  | none =>
    refine ⟨0, s, ?_⟩
    rw [onRunnableThreadTransitionComplete, hcallback]
  | some callback =>
    obtain ⟨f, hfresh⟩ := hs.callback callback hcallback
    obtain ⟨n, r, hr⟩ := hwaiting callback f hcallback hfresh thread _
      (inv_taken hs (Locals.new f).take callback) rfl
    refine ⟨n, r.2.setLocals callback ((r.2.locals callback).put r.1), ?_⟩
    rw [onRunnableThreadTransitionComplete, hcallback]
    dsimp only
    rw [callCallback, hfresh]
    exact congrArg (Option.map _) hr

theorem exists_run (feature : String) {transition : Program θ .transition}
    {f : BitVec 64 → Program θ .closure} (hs : Inv s)
    (htransition : ∀ s, Inv s → Waiting s → Returns transition s)
    (hf : ∀ thread t, Inv t → t.slot.callback = none → Returns (f thread) t) :
    ∃ n r, runTransition (exec n) feature transition f s = some r := by
  by_cases hnil : s.stack = []
  · have hwaiting : Waiting { s.push (.new f) with slot := ⟨true, some s.stack.length⟩ } := by
      intro callback f' hsome hfresh
      obtain rfl := Option.some.inj hsome
      obtain rfl := new_injective (Option.some.inj (List.getElem?_concat_length.symm.trans hfresh))
      exact hf
    obtain ⟨n, r, hr⟩ := htransition _ (inv_installed hs f) hwaiting
    refine ⟨n, ?_⟩
    rw [runTransition, hs.idle hnil, installRunnableCallback_idle]
    exact ⟨_, congrArg (Option.map _) hr⟩
  · obtain ⟨error, s', h, -⟩ := effect_rejected hs hnil
    exact ⟨0, _, h⟩

theorem returns_of_waiting (p : Program θ κ) (s : Thread θ) (hs : Inv s) (hwaiting : Waiting s) :
    Returns p s := by
  induction p generalizing s with
  | leave outcome => exact ⟨1, _, rfl⟩
  | finish => exact ⟨1, _, rfl⟩
  | complete thread next ih =>
    obtain ⟨n, t, ht⟩ := exists_complete thread hs hwaiting
    have heffect := effect_complete (fun p s outcome s' h hs ↦ effect_exec h hs) ht hs
    obtain ⟨m, r, hr⟩ := ih t (heffect.inv hs) (heffect.waiting hwaiting)
    refine ⟨max n m + 1, r, Option.bind_eq_some_iff.2 ⟨t, ?_, exec_mono hr (Nat.le_max_right n m)⟩⟩
    exact complete_mono (fun p s r h ↦ exec_mono h (Nat.le_max_left n m)) ht
  | run feature transition f next ihtransition ihf ihnext =>
    obtain ⟨n, r', hr'⟩ := exists_run feature hs ihtransition
      fun thread t ht hnone ↦ ihf thread t ht (waiting_of_none hnone)
    have heffect := effect_run hr' hs
    obtain ⟨m, r, hr⟩ := ihnext r'.1 r'.2 (heffect.inv hs) (heffect.waiting hwaiting)
    refine ⟨max n m + 1, r, Option.bind_eq_some_iff.2 ⟨r', ?_, exec_mono hr (Nat.le_max_right n m)⟩⟩
    exact runTransition_mono (fun p s r h ↦ exec_mono h (Nat.le_max_left n m)) hr'

/-- **Every program comes back** from a thread at rest. -/
theorem exec_returns (p : Program θ κ) : Returns p .start :=
  returns_of_waiting p _ inv_start (waiting_of_none rfl)

/-- **The law of the slot**: every call on a thread is lawful, the slot is idle after them, and no
callback was called whose call had returned. -/
theorem runnable_callback_lawful (p : Program θ κ) :
    ∃ n outcome s, exec n p .start = some (outcome, s) ∧
      (∀ m outcome' s', exec m p .start = some (outcome', s') → outcome' = outcome ∧ s' = s) ∧
      (∀ c ∈ s.calls, c.Lawful) ∧ s.slot = .idle ∧ s.dangling = false := by
  obtain ⟨n, ⟨outcome, s⟩, h⟩ := exec_returns p
  have heffect := effect_exec h inv_start
  have hs := heffect.inv inv_start
  refine ⟨n, outcome, s, h, ?_, ?_, ?_, hs.not_dangling⟩
  · intro m outcome' s' h'
    have hboth := (exec_mono h' (Nat.le_max_right n m)).symm.trans
      (exec_mono h (Nat.le_max_left n m))
    exact Prod.mk.inj (Option.some.inj hboth)
  · obtain ⟨calls, hcalls, hlawful⟩ := heffect.calls
    rw [hcalls]
    exact hlawful
  · apply hs.idle
    rcases heffect.used with ⟨-, hstack⟩ | ⟨_, _, _, hbefore, -, -, -⟩
    · exact hstack
    · cases hbefore

/-- A transition that completes twice, whose closure calls `run` again before it returns. -/
def nestedRun : Program Empty .closure :=
  .run "outer" (.complete 0x1000 (.complete 0x1000 .finish))
    (fun _ ↦ .run "inner" (.complete 0x1000 .finish) (fun _ ↦ .leave .panicked)
      fun _ ↦ .leave (.returned (.ok ())))
    fun result ↦ .leave (.returned result)

example : (exec 8 nestedRun .start).map (fun r ↦ r.2.calls.map fun c ↦ (c.depth, c.starts)) =
    some [(1, 0), (0, 1)] := by decide

end JavaBridge.RunnableThread
