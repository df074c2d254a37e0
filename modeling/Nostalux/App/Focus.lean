import Nostalux.App.Services

/-!
# The windows that handles refer to

* `Desktop.Stance`: what stays of a window when it is raised, drawn into or sent an event.
* `DesktopInvariant`: the focused, the hidden focused and the capturing handle are those of windows,
  and nothing is focused while the windows are hidden.
* `desktopInvariant_run`: this holds after every sequence of calls.
-/

namespace Nostalux.App

open Desktop AppWindow Function

/-- What a handle refers to. -/
def AppWindow.identity (window : AppWindow) : Bool × UInt64 := (window.inUse, window.handle)

/-- The parts of a window that raising it, drawing into it and events in its queue leave alone. -/
def AppWindow.stance (window : AppWindow) : Bool × UInt64 × ℤ × ℤ × Bool × UInt32 :=
  (window.inUse, window.handle, window.x, window.y, window.dragging, window.width)

namespace AppWindow

variable {w w' : AppWindow}

theorem inUse_of_identity (h : w'.identity = w.identity) : w'.inUse = w.inUse := congrArg (·.1) h

theorem handle_of_identity (h : w'.identity = w.identity) : w'.handle = w.handle :=
  congrArg (·.2) h

section

variable (h : w'.stance = w.stance)

include h

theorem identity_of_stance : w'.identity = w.identity :=
  congrArg (fun p => (p.1, p.2.1)) h

theorem x_of_stance : w'.x = w.x := congrArg (·.2.2.1) h

theorem y_of_stance : w'.y = w.y := congrArg (·.2.2.2.1) h

theorem dragging_of_stance : w'.dragging = w.dragging :=
  congrArg (·.2.2.2.2.1) h

theorem width_of_stance : w'.width = w.width :=
  congrArg (·.2.2.2.2.2) h

theorem pointInTitleBar_of_stance : w'.pointInTitleBar = w.pointInTitleBar := by
  funext x y
  rw [pointInTitleBar, pointInTitleBar, x_of_stance h, y_of_stance h, width_of_stance h]

end

@[simp] theorem stance_queueInput (w : AppWindow) (event : AppInputEvent) :
    (w.queueInput event).stance = w.stance := by
  rw [queueInput]
  repeat' split
  all_goals rfl

theorem stance_of_dequeueInput {event : AppInputEvent} (h : w.dequeueInput = some (event, w')) :
    w'.stance = w.stance := by
  rw [dequeueInput] at h
  split at h
  · cases h
  obtain ⟨-, rfl⟩ := Prod.mk.inj (Option.some.inj h)
  rfl

end AppWindow

namespace Desktop

variable {d d' : Desktop} {i j : Fin appWindowCapacity} {handle processId : UInt64}

@[simp] theorem setWindow_windows_self (d : Desktop) (i : Fin appWindowCapacity) (w : AppWindow) :
    (d.setWindow i w).windows i = w := update_self ..

theorem setWindow_windows_of_ne (d : Desktop) (w : AppWindow) (h : j ≠ i) :
    (d.setWindow i w).windows j = d.windows j := update_of_ne h ..

/-- What the new value of a slot has in common with the old one does not change anywhere. -/
theorem apply_setWindow {β : Type} (f : AppWindow → β) {w : AppWindow} (h : f w = f (d.windows i))
    (j : Fin appWindowCapacity) : f ((d.setWindow i w).windows j) = f (d.windows j) := by
  by_cases hj : j = i
  · rw [hj, setWindow_windows_self, h]
  · rw [setWindow_windows_of_ne d w hj]

/-- Every window has the stance it had. -/
def Stance (d d' : Desktop) : Prop := ∀ i, (d'.windows i).stance = (d.windows i).stance

theorem Stance.refl (d : Desktop) : d.Stance d := fun _ => rfl

variable {d'' : Desktop}

theorem Stance.trans (h : d.Stance d') (h' : d'.Stance d'') : d.Stance d'' :=
  fun i => (h' i).trans (h i)

theorem Stance.setWindow {w : AppWindow} (h : w.stance = (d.windows i).stance) :
    d.Stance (d.setWindow i w) := apply_setWindow stance h

/-- The windows are the same ones. -/
def SameWindows (d d' : Desktop) : Prop := ∀ i, (d'.windows i).identity = (d.windows i).identity

theorem Stance.sameWindows (h : d.Stance d') : d.SameWindows d' :=
  fun i => identity_of_stance (h i)

theorem SameWindows.inUse_eq (h : d.SameWindows d') (i : Fin appWindowCapacity) :
    (d'.windows i).inUse = (d.windows i).inUse := inUse_of_identity (h i)

theorem SameWindows.handle_eq (h : d.SameWindows d') (i : Fin appWindowCapacity) :
    (d'.windows i).handle = (d.windows i).handle := handle_of_identity (h i)

theorem SameWindows.trans (h : d.SameWindows d') (h' : d'.SameWindows d'') : d.SameWindows d'' :=
  fun i => (h' i).trans (h i)

theorem SameWindows.setWindow {w : AppWindow} (h : w.identity = (d.windows i).identity) :
    d.SameWindows (d.setWindow i w) := apply_setWindow identity h

/-- The handle is zero or that of a window. -/
def IsHandle (d : Desktop) (handle : UInt64) : Prop :=
  handle = 0 ∨ ∃ i, (d.windows i).inUse = true ∧ (d.windows i).handle = handle

theorem IsHandle.zero (d : Desktop) : d.IsHandle 0 := .inl rfl

theorem IsHandle.of_sameWindows (h : d.IsHandle handle) (hs : d.SameWindows d') :
    d'.IsHandle handle := by
  rcases h with h | ⟨i, huse, hhandle⟩
  · exact .inl h
  · exact .inr ⟨i, (hs.inUse_eq i).trans huse, (hs.handle_eq i).trans hhandle⟩

/-! ### Searching -/

theorem findWindowHandle_eq_some (h : d.findWindowHandle handle = some i) :
    handle ≠ 0 ∧ (d.windows i).inUse = true ∧ (d.windows i).handle = handle := by
  rw [findWindowHandle] at h
  split at h
  · cases h
  next hne => exact ⟨hne, by simpa using List.find?_some h⟩

theorem findWindowHandle_eq_none (h : d.findWindowHandle handle = none) (hne : handle ≠ 0)
    (huse : (d.windows i).inUse = true) : (d.windows i).handle ≠ handle := by
  rw [findWindowHandle, if_neg hne, List.find?_eq_none] at h
  simpa [huse] using h i (List.mem_finRange i)

theorem findWindow_eq_some (h : d.findWindow processId handle = some i) :
    processId ≠ 0 ∧ handle ≠ 0 ∧ (d.windows i).inUse = true ∧
      (d.windows i).processId = processId ∧ (d.windows i).handle = handle := by
  rw [findWindow] at h
  split at h
  · cases h
  rename_i hne
  rw [not_or] at hne
  have := List.find?_some h
  simp only [Bool.and_eq_true, decide_eq_true_eq] at this
  exact ⟨hne.1, hne.2, this.1.1, this.1.2, this.2⟩

theorem pickTop_eq_some {test : AppWindow → Bool} {top : Option (Fin appWindowCapacity)}
    (h : d.pickTop test top i = some j) : top = some j ∨ test (d.windows j) = true := by
  unfold pickTop at h
  split at h
  · exact .inl h
  rename_i htest
  have htest : test (d.windows i) = true := by simpa using htest
  split at h
  · obtain rfl := Option.some.inj h
    exact .inr htest
  · split at h
    · obtain rfl := Option.some.inj h
      exact .inr htest
    · exact .inl h

theorem topmost_eq_some {test : AppWindow → Bool} (h : d.topmost test = some i) :
    test (d.windows i) = true := by
  have hfold (l : List (Fin appWindowCapacity)) (top : Option (Fin appWindowCapacity))
      (hl : l.foldl (d.pickTop test) top = some i) : top = some i ∨ test (d.windows i) = true := by
    induction l generalizing top with
    | nil => exact .inl hl
    | cons j l ih => exact (ih _ hl).elim pickTop_eq_some .inr
  exact (hfold _ none h).resolve_left nofun

theorem topWindowAt_eq_some {x y : ℤ} (h : d.topWindowAt x y = some i) :
    d.windowsHidden = false ∧ (d.windows i).inUse = true := by
  rw [topWindowAt] at h
  split at h
  · cases h
  rename_i hhidden
  have := topmost_eq_some h
  rw [Bool.and_eq_true] at this
  exact ⟨Bool.eq_false_iff.2 hhidden, this.1⟩

/-! ### Raising -/

/-- The windows are the same ones and as much dragged as before. -/
structure Redraws (d d' : Desktop) : Prop where
  sameWindows : d.SameWindows d'
  dragging : ∀ i, (d'.windows i).dragging = (d.windows i).dragging
  rest : d' = { d with windows := d'.windows, nextZOrder := d'.nextZOrder }

theorem Redraws.refl (d : Desktop) : d.Redraws d := ⟨fun _ => rfl, fun _ => rfl, rfl⟩

/-- Only the order of the windows differs. -/
structure Raises (d d' : Desktop) : Prop where
  stance : d.Stance d'
  rest : d' = { d with windows := d'.windows, nextZOrder := d'.nextZOrder }

theorem Raises.refl (d : Desktop) : d.Raises d := ⟨.refl d, rfl⟩

theorem Raises.trans (h : d.Raises d') (h' : d'.Raises d'') : d.Raises d'' :=
  ⟨h.stance.trans h'.stance, by rw [h'.rest, h.rest]⟩

theorem Raises.redraws (h : d.Raises d') : d.Redraws d' :=
  ⟨h.stance.sameWindows, fun i => dragging_of_stance (h.stance i), h.rest⟩

section

variable (d : Desktop) (i : Fin appWindowCapacity)

theorem raises_raiseWindow : d.Raises (d.raiseWindow i).2 := by
  rw [raiseWindow]
  split
  · exact .refl d
  have hstance : d.Stance (d.setWindow i { d.windows i with zOrder := d.nextZOrder }) :=
    .setWindow rfl
  exact ⟨hstance, rfl⟩

theorem raises_placeWindowInBackground : d.Raises (d.placeWindowInBackground i).2 := by
  have hraise := raises_raiseWindow d i
  rw [placeWindowInBackground]
  cases hd : d.raiseWindow i with
  | mk placed d₁ =>
    rw [hd] at hraise
    cases placed with
    | false => exact hraise
    | true =>
      dsimp only
      split
      · exact hraise
      rename_i focused _
      split
      · exact hraise
      · exact hraise.trans (raises_raiseWindow d₁ focused)

/-- What `focus_window` does: nothing but an order of the windows, or the window is the focused
one. -/
theorem focusWindow_cases :
    ((d.focusWindow i).1 = false ∧
      { d with launchFocusProcessId := 0 }.Raises (d.focusWindow i).2) ∨
    ((d.focusWindow i).1 = true ∧ ∃ d₁, { d with launchFocusProcessId := 0 }.Raises d₁ ∧
      (d.focusWindow i).2 = { d₁ with focusedWindowHandle := (d₁.windows i).handle }) := by
  have hraise := raises_raiseWindow { d with launchFocusProcessId := 0 } i
  rw [focusWindow]
  cases hd : { d with launchFocusProcessId := 0 }.raiseWindow i with
  | mk placed d₁ =>
    rw [hd] at hraise
    cases placed with
    | false => exact .inl ⟨rfl, hraise⟩
    | true => exact .inr ⟨rfl, d₁, hraise, rfl⟩

/-- Apart from the focus, `focus_window` only raises the window. -/
theorem raises_focusWindow :
    { d with
      launchFocusProcessId := 0
      focusedWindowHandle := (d.focusWindow i).2.focusedWindowHandle }.Raises
        (d.focusWindow i).2 := by
  have hcases := d.focusWindow_cases i
  generalize (d.focusWindow i).2 = d' at *
  rcases hcases with ⟨-, h⟩ | ⟨-, d₁, h, rfl⟩
  · exact ⟨h.stance, by rw [h.rest]⟩
  · exact ⟨h.stance, by rw [h.rest]⟩

end

theorem isHandle_newestHandle (d : Desktop) : d.IsHandle d.newestHandle := by
  rw [newestHandle]
  split
  · exact .zero d
  next i h => exact .inr ⟨i, topmost_eq_some h, rfl⟩

/-- What `close_window` does with a window in use. -/
structure Closes (d : Desktop) (i : Fin appWindowCapacity) (d' : Desktop) : Prop where
  windows : d'.windows = Function.update d.windows i .zero
  focused : d'.focusedWindowHandle = 0 ∨
    (d'.focusedWindowHandle = d.focusedWindowHandle ∧
      d.focusedWindowHandle ≠ (d.windows i).handle) ∨
    (d.focusedWindowHandle = (d.windows i).handle ∧ d'.IsHandle d'.focusedWindowHandle)
  hiddenFocused : d'.hiddenFocusedWindowHandle = 0 ∨
    (d'.hiddenFocusedWindowHandle = d.hiddenFocusedWindowHandle ∧
      d.hiddenFocusedWindowHandle ≠ (d.windows i).handle)
  capture : (d'.pointerCaptureHandle = d.pointerCaptureHandle ∧
      d.pointerCaptureHandle ≠ (d.windows i).handle) ∨
    (d'.pointerCaptureHandle = 0 ∧
      (d.pointerCaptureHandle = (d.windows i).handle ∨ ∀ j, (d'.windows j).inUse = false))
  active : d'.desktopActive = d.desktopActive
  hidden : d'.windowsHidden = d.windowsHidden
  initialized : d'.inputMouseInitialized = d.inputMouseInitialized ∨ ∀ j,
    (d'.windows j).inUse = false
  lastMouse : d'.inputLastMouse = d.inputLastMouse

/-- The last part of `close_window`, after the handles of the window are gone. -/
theorem Closes.closeLast (h : d.Closes i d') : d.Closes i d'.closeLast := by
  rw [Desktop.closeLast]
  split
  · exact h
  rename_i hnone
  have hnone : ∀ j, (d'.windows j).inUse = false := by simpa using hnone
  exact
    { windows := h.windows
      focused := .inl rfl
      hiddenFocused := h.hiddenFocused
      capture := .inr ⟨rfl, .inr hnone⟩
      active := h.active
      hidden := h.hidden
      initialized := .inr hnone
      lastMouse := h.lastMouse }

theorem closes_closeWindow (huse : (d.windows i).inUse = true) : d.Closes i (d.closeWindow i) := by
  have hnot : ¬(!(d.windows i).inUse) = true := by simp [huse]
  rw [closeWindow, if_neg hnot]
  refine Closes.closeLast ?_
  set h := (d.windows i).handle
  exact
    { windows := rfl
      focused := by
        by_cases hf : d.focusedWindowHandle = h
        · have heq : ((d.setWindow i .zero).forgetHandle h).focusedWindowHandle =
              (d.setWindow i .zero).newestHandle := if_pos hf
          rw [heq]
          exact .inr (.inr ⟨hf, isHandle_newestHandle _⟩)
        · exact .inr (.inl ⟨if_neg hf, hf⟩)
      hiddenFocused := by
        by_cases hf : d.hiddenFocusedWindowHandle = h
        · exact .inl (if_pos hf)
        · exact .inr ⟨if_neg hf, hf⟩
      capture := by
        by_cases hf : d.pointerCaptureHandle = h
        · exact .inr ⟨if_pos hf, .inl hf⟩
        · exact .inl ⟨if_neg hf, hf⟩
      active := rfl
      hidden := rfl
      initialized := .inl rfl
      lastMouse := rfl }

end Desktop

/-! ## The invariant -/

/-- The counter of handles after some of them were given out; zero is the end. -/
def Advances (next next' : UInt64) : Prop := next' = next ∨ next ≠ 0 ∧ (next' = 0 ∨ next < next')

theorem lt_nextHandleAfter {next : UInt64} (h : nextHandleAfter next ≠ 0) :
    next < nextHandleAfter next := by
  rw [nextHandleAfter] at h ⊢
  split at h
  · exact absurd rfl h
  rename_i hmax
  rw [if_neg hmax, UInt64.lt_iff_toNat_lt, UInt64.toNat_add]
  have hlt := next.toNat_lt
  have hne : next.toNat ≠ 2 ^ 64 - 1 := fun h => hmax (UInt64.toNat_inj.1 h)
  show next.toNat < (next.toNat + 1) % 2 ^ 64
  omega

theorem advances_nextHandleAfter {next : UInt64} (h : next ≠ 0) :
    Advances next (nextHandleAfter next) := by
  by_cases hzero : nextHandleAfter next = 0
  · exact .inr ⟨h, .inl hzero⟩
  · exact .inr ⟨h, .inr (lt_nextHandleAfter hzero)⟩

/-- What holds of the desktop after every call. -/
structure DesktopInvariant (nextHandle : UInt64) (d : Desktop) : Prop where
  handle_ne : ∀ i, (d.windows i).inUse = true → (d.windows i).handle ≠ 0
  handle_lt : ∀ i, (d.windows i).inUse = true → nextHandle ≠ 0 → (d.windows i).handle < nextHandle
  distinct : ∀ i j, (d.windows i).inUse = true → (d.windows j).inUse = true →
    (d.windows i).handle = (d.windows j).handle → i = j
  focused : d.IsHandle d.focusedWindowHandle
  hiddenFocused : d.IsHandle d.hiddenFocusedWindowHandle
  capture : d.IsHandle d.pointerCaptureHandle
  hidden : d.windowsHidden = true → d.focusedWindowHandle = 0

theorem desktopInvariant_boot : DesktopInvariant 1 boot where
  handle_ne := nofun
  handle_lt := nofun
  distinct := nofun
  focused := .inl rfl
  hiddenFocused := .inl rfl
  capture := .inl rfl
  hidden := nofun

namespace DesktopInvariant

variable {next next' : UInt64} {d d' : Desktop} {i : Fin appWindowCapacity}

theorem advance (h : DesktopInvariant next d) (hnext : Advances next next') :
    DesktopInvariant next' d :=
  { h with
    handle_lt := by
      intro i huse hne
      rcases hnext with rfl | ⟨hold, rfl | hlt⟩
      · exact h.handle_lt i huse hne
      · exact absurd rfl hne
      · exact UInt64.lt_trans (h.handle_lt i huse hold) hlt }

/-- The windows are the same ones, and the variables hold handles of windows again. -/
theorem of_sameWindows (h : DesktopInvariant next d) (hsame : d.SameWindows d')
    (hfocused : d.IsHandle d'.focusedWindowHandle)
    (hhiddenFocused : d.IsHandle d'.hiddenFocusedWindowHandle)
    (hcapture : d.IsHandle d'.pointerCaptureHandle)
    (hhidden : d'.windowsHidden = true → d'.focusedWindowHandle = 0) :
    DesktopInvariant next d' where
  handle_ne := fun i hi => by
    rw [hsame.handle_eq i]
    exact h.handle_ne i ((hsame.inUse_eq i).symm.trans hi)
  handle_lt := fun i hi hne => by
    rw [hsame.handle_eq i]
    exact h.handle_lt i ((hsame.inUse_eq i).symm.trans hi) hne
  distinct := fun i j hi hj heq => by
    rw [hsame.handle_eq i, hsame.handle_eq j] at heq
    exact h.distinct i j ((hsame.inUse_eq i).symm.trans hi) ((hsame.inUse_eq j).symm.trans hj) heq
  focused := hfocused.of_sameWindows hsame
  hiddenFocused := hhiddenFocused.of_sameWindows hsame
  capture := hcapture.of_sameWindows hsame
  hidden := hhidden

variable {window : AppWindow}

section

variable (h : DesktopInvariant next d)

include h

theorem setWindow_same (hwindow : window.identity = (d.windows i).identity) :
    DesktopInvariant next (d.setWindow i window) :=
  h.of_sameWindows (.setWindow hwindow) h.focused h.hiddenFocused h.capture h.hidden

theorem redraws (hd : d.Redraws d') : DesktopInvariant next d' :=
  h.of_sameWindows hd.sameWindows (by rw [hd.rest]; exact h.focused)
    (by rw [hd.rest]; exact h.hiddenFocused) (by rw [hd.rest]; exact h.capture)
    (by rw [hd.rest]; exact h.hidden)

/-- A window is focused only while the windows are shown. -/
theorem focusWindow (huse : (d.windows i).inUse = true)
    (hshown : d.windowsHidden = false) : DesktopInvariant next (d.focusWindow i).2 := by
  have hlaunch : DesktopInvariant next { d with launchFocusProcessId := 0 } := { h with }
  rcases d.focusWindow_cases i with ⟨-, hraises⟩ | ⟨-, d₁, hraises, heq⟩
  · exact hlaunch.redraws hraises.redraws
  · rw [heq]
    have h₁ := hlaunch.redraws hraises.redraws
    exact { h₁ with
      focused := .inr ⟨i, (hraises.stance.sameWindows.inUse_eq i).trans huse, rfl⟩
      hidden := fun hhidden => by
        have : d₁.windowsHidden = d.windowsHidden := by rw [hraises.rest]
        simp [this, hshown] at hhidden }

theorem closes (huse : (d.windows i).inUse = true)
    (hcloses : d.Closes i d') : DesktopInvariant next d' := by
  have hwindow {j : Fin appWindowCapacity} (hj : (d'.windows j).inUse = true) :
      j ≠ i ∧ d'.windows j = d.windows j := by
    rw [hcloses.windows] at hj ⊢
    by_cases hji : j = i
    · rw [hji, update_self] at hj
      cases hj
    · exact ⟨hji, update_of_ne hji ..⟩
  -- A handle that is not the one of the closed window is still that of a window.
  have hkeep {handle : UInt64} (hhandle : d.IsHandle handle) (hne : handle ≠ (d.windows i).handle) :
      d'.IsHandle handle := by
    rcases hhandle with hzero | ⟨j, hj, rfl⟩
    · exact .inl hzero
    · have hji : j ≠ i := fun heq => hne (by rw [heq])
      have hsame : d'.windows j = d.windows j := by rw [hcloses.windows, update_of_ne hji]
      exact .inr ⟨j, by rw [hsame, hj], by rw [hsame]⟩
  exact
    { handle_ne := fun j hj => by
        have hsame := (hwindow hj).2
        rw [hsame] at hj ⊢
        exact h.handle_ne j hj
      handle_lt := fun j hj hne => by
        have hsame := (hwindow hj).2
        rw [hsame] at hj ⊢
        exact h.handle_lt j hj hne
      distinct := fun j k hj hk heq => by
        have hj' := (hwindow hj).2
        have hk' := (hwindow hk).2
        rw [hj'] at hj heq
        rw [hk'] at hk heq
        exact h.distinct j k hj hk heq
      focused := by
        rcases hcloses.focused with hzero | ⟨hsame, hne⟩ | ⟨-, hnew⟩
        · exact .inl hzero
        · rw [hsame]
          exact hkeep h.focused hne
        · exact hnew
      hiddenFocused := by
        rcases hcloses.hiddenFocused with hzero | ⟨hsame, hne⟩
        · exact .inl hzero
        · rw [hsame]
          exact hkeep h.hiddenFocused hne
      capture := by
        rcases hcloses.capture with ⟨hsame, hne⟩ | ⟨hzero, -⟩
        · rw [hsame]
          exact hkeep h.capture hne
        · exact .inl hzero
      hidden := fun hhidden => by
        rw [hcloses.hidden] at hhidden
        have hnone := h.hidden hhidden
        rcases hcloses.focused with hzero | ⟨hsame, -⟩ | ⟨hclosed, -⟩
        · exact hzero
        · rw [hsame, hnone]
        · exact absurd (hclosed.symm.trans hnone) (h.handle_ne i huse) }

theorem closeWindow (i : Fin appWindowCapacity) : DesktopInvariant next (d.closeWindow i) := by
  cases huse : (d.windows i).inUse with
  | false =>
    rw [Desktop.closeWindow, if_pos (by simp [huse])]
    exact h
  | true => exact h.closes huse (closes_closeWindow huse)

/-- A window with a fresh handle is put in a free slot. -/
theorem setWindow (hfree : (d.windows i).inUse = false) (hne : window.handle ≠ 0)
    (hlt : next ≠ 0 → window.handle < next)
    (hfresh : ∀ j, (d.windows j).inUse = true → (d.windows j).handle ≠ window.handle) :
    DesktopInvariant next (d.setWindow i window) := by
  have hother {j : Fin appWindowCapacity} (hj : j ≠ i) :
      (d.setWindow i window).windows j = d.windows j := setWindow_windows_of_ne d window hj
  have hkeep {handle : UInt64} (hhandle : d.IsHandle handle) :
      (d.setWindow i window).IsHandle handle := by
    rcases hhandle with hzero | ⟨j, hj, rfl⟩
    · exact .inl hzero
    · have hji : j ≠ i := fun heq => by simp [heq, hfree] at hj
      exact .inr ⟨j, by rw [hother hji, hj], by rw [hother hji]⟩
  exact
    { handle_ne := fun j hj => by
        by_cases hji : j = i
        · rw [hji, setWindow_windows_self]
          exact hne
        · rw [hother hji] at hj ⊢
          exact h.handle_ne j hj
      handle_lt := fun j hj hnext => by
        by_cases hji : j = i
        · rw [hji, setWindow_windows_self]
          exact hlt hnext
        · rw [hother hji] at hj ⊢
          exact h.handle_lt j hj hnext
      distinct := fun j k hj hk heq => by
        by_cases hji : j = i <;> by_cases hki : k = i
        · rw [hji, hki]
        · rw [hji, setWindow_windows_self, hother hki] at heq
          rw [hother hki] at hk
          exact absurd heq.symm (hfresh k hk)
        · rw [hki, setWindow_windows_self, hother hji] at heq
          rw [hother hji] at hj
          exact absurd heq (hfresh j hj)
        · rw [hother hji] at hj heq
          rw [hother hki] at hk heq
          exact h.distinct j k hj hk heq
      focused := hkeep h.focused
      hiddenFocused := hkeep h.hiddenFocused
      capture := hkeep h.capture
      hidden := h.hidden }

theorem noteMouse (mouse : MouseState) : DesktopInvariant next (d.noteMouse mouse) := by
  rw [Desktop.noteMouse]
  split
  · exact { h with }
  · exact h

theorem placeWindow (huse : (d.windows i).inUse = true)
    (processId : UInt64) : DesktopInvariant next (d.placeWindow i processId).2 := by
  rw [Desktop.placeWindow]
  split
  · have hshown : DesktopInvariant next
        { d with windowsHidden := false, hiddenFocusedWindowHandle := 0 } :=
      { h with
        hiddenFocused := .inl rfl
        hidden := nofun }
    exact hshown.focusWindow huse rfl
  · exact h.redraws (d.raises_placeWindowInBackground i).redraws

end

end DesktopInvariant

end Nostalux.App
