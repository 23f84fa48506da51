import JavaBridge.Perform.State

/-!
# The steps of `perform`, `wait_for_app_loader` and the startup drains

`machine` interleaves any number of calls. A step is a call and an `Action`, which names the
section the call runs next and what the outside answers there; an action that is not the call's
next section is not enabled.

`step_effect` says once what a step can do to the queue, the startup drain, the handles and the
calls, and every invariant of the machine is proved from it.
-/

universe u

namespace JavaBridge.Perform

variable {κ L T θ : Type u} [DecidableEq κ] [DecidableEq L]

/-- The sections of the calls, with what each is told from outside. -/
inductive Action (L T θ : Type u) : Type u
  /-- A call to `Java::perform`. -/
  | perform
  /-- A call to `Java::wait_for_app_loader`. -/
  | waitForAppLoader (timeout : Nat)
  /-- A call to `drain_if_ready`, or a hook callback about to drain. -/
  | startDrain (source : AppStartupDrainSource)
  /-- `handleBindApplication` saw an instrumented app. -/
  | requireLateStartupDrain
  | readDefault
  /-- `ActivityThread.currentApplication()`, up to the loader it leads to. -/
  | probe (answer : Except (Error θ) L)
  | publish (fault : Option (Error θ))
  | ensureHook (installed : AppPerformHooks)
  | enqueue
  | begin
  /-- A drain looks up its loader. -/
  | resolve (answer : Except (Error θ) L)
  | swap
  | next
  | attach (fault : Option (Error θ))
  | callback (outcome : CallbackOutcome T θ)
  | finish
  | remaining (elapsed : Bool)
  /-- Whether the deadline can be represented. -/
  | deadline (fits : Bool)
  | wait (timedOut : Bool)
  | done

/-- A call's own next section: the locked state, the handles and where the call then stands. -/
abbrev Local (κ L T θ P : Type u) : Type u := AppPerformInner κ L × (κ → PerformCell T θ) × P

/-! ## One call -/

/-- `complete_perform`: the cell after the section, and the point reached unless it is over. -/
def completeStep (cell : PerformCell T θ) :
    Complete → Action L T θ → Option (PerformCell T θ × Option Complete)
  | .attach, .attach none => some ({ cell with entered := true }, some .callback)
  | .attach, .attach (some error) => some ({ cell with status := .failed error }, none)
  | .callback, .callback outcome => some (cell.complete outcome, none)
  | _, _ => none

/-- `drain_if_ready`, `drain_from_application_raw` and `drain_from_loaded_apk_raw`. -/
def drainStep (inner : AppPerformInner κ L) (cells : κ → PerformCell T θ) :
    Drain κ L → Action L T θ → Option (Local κ L T θ (Drain κ L))
  | .begin source, .begin =>
    some ({ inner with startupDrain := (inner.startupDrain.begin source).1 }, cells,
      if (inner.startupDrain.begin source).2 then .resolve else .done)
  | .resolve, .resolve (.ok loader) => some (inner, cells, .publish loader)
  | .resolve, .resolve (.error _) => some (inner, cells, .finish false)
  | .publish loader, .publish fault =>
    match inner.publishAppLoader loader fault with
    | .ok inner => some (inner, cells, .swap)
    | .error _ => some (inner, cells, .finish false)
  | .swap, .swap => some ({ inner with pending := [] }, cells, .running inner.pending)
  | .running [], .next => some (inner, cells, .finish true)
  | .running (operation :: pending), .next =>
    some (inner, cells, .completing operation .attach pending)
  | .completing operation point pending, action =>
    (completeStep (cells operation) point action).map fun (cell, point) ↦
      (inner, Function.update cells operation cell,
        match point with
        | some point => .completing operation point pending
        | none => .running pending)
  | .finish success, .finish =>
    some ({ inner with startupDrain := inner.startupDrain.finish success }, cells, .done)
  | _, _ => none

/-- `perform_with_state`, for the call `k` and its own callback. -/
def performStep (k : κ) (inner : AppPerformInner κ L) (cells : κ → PerformCell T θ) :
    PerformPoint κ L θ → Action L T θ → Option (Local κ L T θ (PerformPoint κ L θ))
  | .readDefault, .readDefault =>
    some (inner, cells, if inner.default.isSome then .completing .attach else .probe)
  | .completing point, action =>
    (completeStep (cells k) point action).map fun (cell, point) ↦
      (inner, Function.update cells k cell,
        match point with
        | some point => .completing point
        | none => .returned (.ok ()))
  | .probe, .probe (.ok loader) => some (inner, cells, .publish loader)
  | .probe, .probe (.error (.appClassLoaderUnavailable _)) => some (inner, cells, .ensureHook)
  | .probe, .probe (.error error) => some (inner, cells, .returned (.error error))
  | .publish loader, .publish fault =>
    match inner.publishAppLoader loader fault with
    | .ok inner => some (inner, cells, .completing .attach)
    -- The same `match` of the source takes the publication's errors.
    | .error (.appClassLoaderUnavailable _) => some (inner, cells, .ensureHook)
    | .error error => some (inner, cells, .returned (.error error))
  | .ensureHook, .ensureHook installed =>
    match inner.ensureHook installed with
    | .ok inner => some (inner, cells, .enqueue)
    | .error error => some (inner, cells, .returned (.error error))
  | .enqueue, .enqueue =>
    some (inner.enqueue k, cells, .drainIfReady (.begin .currentApplication))
  | .drainIfReady .done, .done => some (inner, cells, .returned (.ok ()))
  | .drainIfReady drain, action =>
    (drainStep inner cells drain action).map fun (inner, cells, drain) ↦
      (inner, cells, .drainIfReady drain)
  | _, _ => none

/-- The error of a `wait_for_app_loader` whose time is up. -/
def appLoaderWaitTimedOut (timeout : Nat) : Error θ :=
  .appClassLoaderWaitTimedOut timeout "app loader was not found before the timeout elapsed"

/-- `wait_for_app_loader_with_state`, with the wait on the condition variable. -/
def waitStep (timeout : Nat) (inner : AppPerformInner κ L) (cells : κ → PerformCell T θ) :
    WaitPoint κ L θ → Action L T θ → Option (Local κ L T θ (WaitPoint κ L θ))
  | .readDefault, .readDefault =>
    some (inner, cells, match inner.default with
      | some loader => .returned (.ok loader)
      | none => .probe)
  | .probe, .probe (.ok loader) => some (inner, cells, .publish loader)
  | .probe, .probe (.error (.appClassLoaderUnavailable _)) => some (inner, cells, .remaining)
  | .probe, .probe (.error error) => some (inner, cells, .returned (.error error))
  | .publish loader, .publish fault =>
    match inner.publishAppLoader loader fault with
    | .ok inner => some (inner, cells, .published loader)
    | .error (.appClassLoaderUnavailable _) => some (inner, cells, .remaining)
    | .error error => some (inner, cells, .returned (.error error))
  | .published loader, .readDefault =>
    some (inner, cells, .returned (.ok (inner.default.getD loader)))
  | .remaining, .remaining elapsed =>
    some (inner, cells,
      if elapsed then .returned (.error (appLoaderWaitTimedOut timeout)) else .ensureHook)
  | .ensureHook, .ensureHook installed =>
    match inner.ensureHook installed with
    | .ok inner => some (inner, cells, .drainIfReady (.begin .currentApplication))
    | .error error => some (inner, cells, .returned (.error error))
  | .drainIfReady .done, .done => some (inner, cells, .readDefaultAgain)
  | .drainIfReady drain, action =>
    (drainStep inner cells drain action).map fun (inner, cells, drain) ↦
      (inner, cells, .drainIfReady drain)
  | .readDefaultAgain, .readDefault =>
    some (inner, cells, match inner.default with
      | some loader => .returned (.ok loader)
      | none => .remainingAgain)
  | .remainingAgain, .remaining elapsed =>
    some (inner, cells,
      if elapsed then .returned (.error (appLoaderWaitTimedOut timeout)) else .deadline)
  | .deadline, .deadline fits =>
    some (inner, cells,
      if fits then .wait else .returned (.error (appLoaderWaitTimedOut timeout)))
  | .wait, .wait timedOut =>
    some (inner, cells, match inner.default with
      | some _ => .waited
      | none => if timedOut then .returned (.error (appLoaderWaitTimedOut timeout)) else .wait)
  | .waited, .readDefault =>
    some (inner, cells, match inner.default with
      | some loader => .returned (.ok loader)
      | none => .returned (.error (appLoaderWaitTimedOut timeout)))
  | _, _ => none

/-- Only an installed hook calls its drain. -/
def hookInstalled (inner : AppPerformInner κ L) : AppStartupDrainSource → Bool
  | .currentApplication => true
  | .application => inner.hooks.any (·.makeApplication)
  | .loadedApk => inner.hooks.any (·.getPackageInfo)

/-- The next section of the call `k`, wherever it stands. -/
def actorStep (k : κ) (inner : AppPerformInner κ L) (cells : κ → PerformCell T θ) :
    Actor κ L θ → Action L T θ → Option (Local κ L T θ (Actor κ L θ))
  | .idle, .perform => some (inner, cells, .perform .readDefault)
  | .idle, .waitForAppLoader timeout => some (inner, cells, .wait timeout .readDefault)
  | .idle, .startDrain source =>
    if hookInstalled inner source then some (inner, cells, .drain (.begin source)) else none
  | .idle, .requireLateStartupDrain =>
    some ({ inner with startupDrain := inner.startupDrain.requireLateHookpoint }, cells, .idle)
  | .idle, _ => none
  | .perform point, action =>
    (performStep k inner cells point action).map fun (inner, cells, point) ↦
      (inner, cells, .perform point)
  | .wait timeout point, action =>
    (waitStep timeout inner cells point action).map fun (inner, cells, point) ↦
      (inner, cells, .wait timeout point)
  | .drain drain, action =>
    (drainStep inner cells drain action).map fun (inner, cells, drain) ↦
      (inner, cells, .drain drain)

/-! ## The machine -/

/-- No call has started and nothing is published, queued or hooked. -/
def initial : State κ L T θ where
  inner := .new
  cells := fun _ ↦ .new
  actors := fun _ ↦ .idle

def step (s : State κ L T θ) (l : κ × Action L T θ) : Option (State κ L T θ) :=
  (actorStep l.1 s.inner s.cells (s.actors l.1) l.2).map fun (inner, cells, actor) ↦
    ⟨inner, cells, Function.update s.actors l.1 actor⟩

/-- Any number of calls in any order. -/
def machine : Machine (State κ L T θ) (κ × Action L T θ) where
  Init := (· = initial)
  step := step

/-! ## The queue is filled in one place -/

section Enqueue

variable {inner : AppPerformInner κ L} {cells : κ → PerformCell T θ}

omit [DecidableEq L] in
@[simp] theorem completeStep_enqueue (cell : PerformCell T θ) (point : Complete) :
    completeStep cell point (.enqueue : Action L T θ) = none := by
  cases point <;> rfl

@[simp] theorem drainStep_enqueue (drain : Drain κ L) :
    drainStep inner cells drain .enqueue = none := by
  cases drain with
  | running pending => cases pending <;> rfl
  | completing => simp [drainStep]
  | _ => rfl

@[simp] theorem waitStep_enqueue (timeout : Nat) (point : WaitPoint κ L θ) :
    waitStep timeout inner cells point .enqueue = none := by
  cases point with
  | drainIfReady drain => cases drain <;> simp [waitStep]
  | _ => rfl

theorem performStep_enqueue {k : κ} {point : PerformPoint κ L θ}
    {r : Local κ L T θ (PerformPoint κ L θ)}
    (h : performStep k inner cells point .enqueue = some r) :
    point = .enqueue ∧
      r = (inner.enqueue k, cells, .drainIfReady (.begin .currentApplication)) := by
  cases point with
  | enqueue => cases h; exact ⟨rfl, rfl⟩
  | completing => simp [performStep] at h
  | drainIfReady drain => cases drain <;> simp [performStep] at h
  | _ => cases h

/-- An `enqueue` puts the call's callback into the queue, and starts its `drain_if_ready`. -/
theorem step_enqueue {s t : State κ L T θ} {k : κ} (h : step s (k, .enqueue) = some t) :
    s.actors k = .perform .enqueue ∧
      t = ⟨s.inner.enqueue k, s.cells, Function.update s.actors k
        (.perform (.drainIfReady (.begin .currentApplication)))⟩ := by
  obtain ⟨⟨inner, cells, b⟩, hb, rfl⟩ := Option.map_eq_some_iff.mp h
  dsimp only at hb ⊢
  generalize s.actors k = a at hb ⊢
  cases a with
  | idle => cases hb
  | perform point =>
    obtain ⟨r, hr, hb⟩ := Option.map_eq_some_iff.mp hb
    obtain ⟨rfl, rfl⟩ := performStep_enqueue hr
    cases hb
    exact ⟨rfl, rfl⟩
  | wait => simp [actorStep] at hb
  | drain => simp [actorStep] at hb

/-- A call that is about to enqueue can do nothing else. -/
theorem eq_enqueue_of_step {s t : State κ L T θ} {k : κ} {action : Action L T θ}
    (h : step s (k, action) = some t) (ha : s.actors k = .perform .enqueue) :
    action = .enqueue := by
  simp only [step, ha, actorStep, Option.map_map, Option.map_eq_some_iff] at h
  obtain ⟨r, h, -⟩ := h
  cases action with
  | enqueue => rfl
  | _ => cases h

end Enqueue

end JavaBridge.Perform
