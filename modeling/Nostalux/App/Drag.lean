import Nostalux.App.Effects

/-!
# Windows that are dragged

* `DragInvariant`: a window that is marked dragging is the one that captures the pointer, and the
  left button is held.
* `publishPointerEvent_drag`: an event of the pointer keeps this.
-/

namespace Nostalux.App

open AppWindow Desktop Function

/-- A window that is marked dragging captures the pointer, and the left button is held. -/
def DragInvariant (d : Desktop) : Prop :=
  ∀ i, (d.windows i).dragging = true →
    (d.windows i).inUse = true ∧ (d.windows i).handle = d.pointerCaptureHandle ∧
      d.inputLastMouse.leftButton = true ∧ d.inputMouseInitialized = true ∧ d.desktopActive = true

/-- The left button is pressed on the title bar of the window with the handle. -/
def PressesTitleBar (d : Desktop) (mouse : MouseState) (handle : UInt64) : Prop :=
  d.inputMouseInitialized = true ∧ d.inputLastMouse.leftButton = false ∧ mouse.leftButton = true ∧
    ∃ i, (d.windows i).inUse = true ∧ (d.windows i).handle = handle ∧
      (d.windows i).pointInTitleBar mouse.x mouse.y = true

namespace Desktop

variable {d d' : Desktop} {i : Fin appWindowCapacity} {next : UInt64} {mouse : MouseState}

/-! ### A press -/

variable (d)

/-- What a press does before the window is looked at: it begins no gesture, or the window becomes
the capturing one. -/
structure Presses (d : Desktop) (target : Option (Fin appWindowCapacity))
    (d' : Desktop) : Prop where
  stance : d.Stance d'
  active : d'.desktopActive = d.desktopActive
  initialized : d'.inputMouseInitialized = d.inputMouseInitialized
  lastMouse : d'.inputLastMouse = d.inputLastMouse
  target_eq : ∀ i, target = some i →
    (d.windows i).inUse = true ∧ (d.windows i).handle = d'.pointerCaptureHandle

theorem presses_pressTarget (otherButton : Bool) (x y : ℤ) :
    d.Presses (d.pressTarget otherButton x y).1 (d.pressTarget otherButton x y).2 := by
  rw [pressTarget]
  split
  · refine ⟨.refl d, rfl, rfl, rfl, fun i hi => ?_⟩
    exact (findWindowHandle_eq_some hi).2
  · split
    · cases htop : d.topWindowAt x y with
      | none => exact ⟨.refl d, rfl, rfl, rfl, nofun⟩
      | some i =>
        have hfocus := d.raises_focusWindow i
        dsimp only
        refine ⟨hfocus.stance, by rw [hfocus.rest], by rw [hfocus.rest], by rw [hfocus.rest],
          fun j hj => ?_⟩
        obtain rfl := Option.some.inj hj
        exact ⟨(topWindowAt_eq_some htop).2, (hfocus.stance.sameWindows.handle_eq i).symm⟩
    · exact ⟨.refl d, rfl, rfl, rfl, nofun⟩

/-- While the other button is held, a press leaves the capture alone. -/
theorem pressTarget_of_otherButton (x y : ℤ) : (d.pressTarget true x y).2 = d := by
  rw [pressTarget]
  split
  · rfl
  · rfl

variable {d}

theorem invariant_pressTarget (h : DesktopInvariant next d) (otherButton : Bool) (x y : ℤ) :
    DesktopInvariant next (d.pressTarget otherButton x y).2 := by
  rw [pressTarget]
  split
  · exact h
  split
  · cases htop : d.topWindowAt x y with
    | none => exact h
    | some i =>
      obtain ⟨hshown, huse⟩ := topWindowAt_eq_some htop
      have hfocus := h.focusWindow huse hshown
      have hin := ((d.raises_focusWindow i).stance.sameWindows.inUse_eq i).trans huse
      exact { hfocus with capture := .inr ⟨i, hin, rfl⟩ }
  · exact h

/-! ### The branches of `publish_pointer_event` -/

/-- What a branch establishes for the end of the function. -/
structure OutcomeOk (next : UInt64) (d : Desktop) (mouse : MouseState) (outcome : PointerOutcome) :
    Prop where
  invariant : DesktopInvariant next outcome.desktop
  sameWindows : d.SameWindows outcome.desktop
  active : outcome.desktop.desktopActive = d.desktopActive
  initialized : outcome.desktop.inputMouseInitialized = d.inputMouseInitialized
  leftButton : outcome.desktop.inputLastMouse.leftButton = mouse.leftButton
  /-- A window is dragged if the left button is held on it. -/
  drag : ∀ i, (outcome.desktop.windows i).dragging = true →
    (d.windows i).inUse = true ∧ (d.windows i).handle = outcome.desktop.pointerCaptureHandle ∧
      mouse.leftButton = true
  /-- It was dragged before, or the button is pressed on its title bar. -/
  origin : ∀ i, (outcome.desktop.windows i).dragging = true →
    (d.windows i).dragging = true ∨ PressesTitleBar d mouse (d.windows i).handle
  /-- Only a window that was dragged moves. -/
  moves : ∀ i, ((outcome.desktop.windows i).x, (outcome.desktop.windows i).y) ≠
    ((d.windows i).x, (d.windows i).y) → (d.windows i).dragging = true ∧ mouse.leftButton = true

variable {outcome : PointerOutcome}

/-- A branch that leaves the stance of every window alone, while none is dragged without the left
button. -/
theorem OutcomeOk.of_stance (hinv : DesktopInvariant next outcome.desktop)
    (hdrag : DragInvariant d) (hstance : d.Stance outcome.desktop)
    (hactive : outcome.desktop.desktopActive = d.desktopActive)
    (hinit : outcome.desktop.inputMouseInitialized = d.inputMouseInitialized)
    (hleft : outcome.desktop.inputLastMouse.leftButton = mouse.leftButton)
    (hheld : d.inputLastMouse.leftButton = true → mouse.leftButton = true ∧
      outcome.desktop.pointerCaptureHandle = d.pointerCaptureHandle) :
    OutcomeOk next d mouse outcome where
  invariant := hinv
  sameWindows := hstance.sameWindows
  active := hactive
  initialized := hinit
  leftButton := hleft
  drag := fun i hi => by
    rw [dragging_of_stance (hstance i)] at hi
    obtain ⟨huse, hhandle, hlast, -⟩ := hdrag i hi
    exact ⟨huse, by rw [(hheld hlast).2, hhandle], (hheld hlast).1⟩
  origin := fun i hi => .inl (by rwa [dragging_of_stance (hstance i)] at hi)
  moves := fun i hi => absurd
    (by rw [x_of_stance (hstance i), y_of_stance (hstance i)]) hi

/-- A branch after which no window is dragged and all of them are where they were. -/
theorem OutcomeOk.of_still (hinv : DesktopInvariant next outcome.desktop)
    (hsame : d.SameWindows outcome.desktop)
    (hactive : outcome.desktop.desktopActive = d.desktopActive)
    (hinit : outcome.desktop.inputMouseInitialized = d.inputMouseInitialized)
    (hleft : outcome.desktop.inputLastMouse.leftButton = mouse.leftButton)
    (hstill : ∀ i, (outcome.desktop.windows i).dragging = false)
    (hplace : ∀ i, (outcome.desktop.windows i).x = (d.windows i).x ∧
      (outcome.desktop.windows i).y = (d.windows i).y) : OutcomeOk next d mouse outcome where
  invariant := hinv
  sameWindows := hsame
  active := hactive
  initialized := hinit
  leftButton := hleft
  drag := fun i hi => by simp [hstill i] at hi
  origin := fun i hi => by simp [hstill i] at hi
  moves := fun i hi => absurd (by rw [(hplace i).1, (hplace i).2]) hi

theorem invariant_recordLeft (h : DesktopInvariant next d) (left : Bool) :
    DesktopInvariant next (d.recordLeft left) := { h with }

theorem invariant_recordRight (h : DesktopInvariant next d) (right : Bool) :
    DesktopInvariant next (d.recordRight right) := { h with }

/-- The left button is pressed: nothing was dragged before. -/
theorem outcomeOk_publishLeft_press (hinv : DesktopInvariant next d) (hdrag : DragInvariant d)
    (hinit : d.inputMouseInitialized = true) (hlast : d.inputLastMouse.leftButton = false)
    (hleft : mouse.leftButton = true) : OutcomeOk next d mouse (d.publishLeft mouse) := by
  have hheld {P : Prop} (h : d.inputLastMouse.leftButton = true) : P := by simp [hlast] at h
  have hpress := d.presses_pressTarget d.inputLastMouse.rightButton mouse.x mouse.y
  have hpinv := invariant_pressTarget hinv d.inputLastMouse.rightButton mouse.x mouse.y
  simp only [publishLeft, hleft, if_true]
  rcases hp : d.pressTarget d.inputLastMouse.rightButton mouse.x mouse.y with ⟨_ | i, d₁⟩
  · rw [hp] at hpress hpinv
    exact .of_stance (invariant_recordLeft hpinv true) hdrag hpress.stance hpress.active
      hpress.initialized hleft.symm hheld
  rw [hp] at hpress hpinv
  dsimp only at hpress hpinv ⊢
  split
  next htitle =>
    set window := (d₁.windows i).startDrag mouse.x mouse.y with hwindow
    have hsame : window.identity = (d₁.windows i).identity := rfl
    -- The window under the press is the only one that is dragged afterwards.
    have hself (j : Fin appWindowCapacity) (hj : j ≠ i)
        (hdragging : ((d₁.setWindow i window).windows j).dragging = true) : False := by
      rw [setWindow_windows_of_ne _ _ hj, dragging_of_stance (hpress.stance j)] at hdragging
      exact hheld (hdrag j hdragging).2.2.1
    have htarget := hpress.target_eq i rfl
    exact
      { invariant := invariant_recordLeft (hpinv.setWindow_same hsame) true
        sameWindows := hpress.stance.sameWindows.trans (.setWindow hsame)
        active := hpress.active
        initialized := hpress.initialized
        leftButton := hleft.symm
        drag := fun j hj => by
          by_cases hji : j = i
          · rw [hji]
            exact ⟨htarget.1, htarget.2, hleft⟩
          · exact (hself j hji hj).elim
        origin := fun j hj => by
          by_cases hji : j = i
          · rw [hji]
            refine .inr ⟨hinit, hlast, hleft, i, htarget.1, rfl, ?_⟩
            rw [← pointInTitleBar_of_stance (hpress.stance i)]
            exact htitle.2
          · exact (hself j hji hj).elim
        moves := fun j hj => by
          refine absurd ?_ hj
          have hx := x_of_stance (hpress.stance j)
          have hy := y_of_stance (hpress.stance j)
          rw [← hx, ← hy]
          exact apply_setWindow (w := window) (fun w => (w.x, w.y)) rfl j }
  · exact .of_stance (invariant_recordLeft hpinv true) hdrag hpress.stance hpress.active
      hpress.initialized hleft.symm hheld

/-- The left button is released: the capturing window is no longer dragged, and there is no
other. -/
theorem outcomeOk_publishLeft_release (hinv : DesktopInvariant next d) (hdrag : DragInvariant d)
    (hleft : mouse.leftButton = false) : OutcomeOk next d mouse (d.publishLeft mouse) := by
  -- A window that is dragged is the one that is found.
  have hfound (j : Fin appWindowCapacity) (hj : (d.windows j).dragging = true) :
      d.findWindowHandle d.pointerCaptureHandle = some j := by
    obtain ⟨huse, hhandle, -⟩ := hdrag j hj
    cases hfind : d.findWindowHandle d.pointerCaptureHandle with
    | none =>
      have hne : d.pointerCaptureHandle ≠ 0 := hhandle ▸ hinv.handle_ne j huse
      exact absurd hhandle (findWindowHandle_eq_none hfind hne huse)
    | some i =>
      obtain ⟨-, hiuse, hihandle⟩ := findWindowHandle_eq_some hfind
      rw [hinv.distinct i j hiuse huse (hihandle.trans hhandle.symm)]
  simp only [publishLeft, hleft, Bool.false_eq_true, if_false]
  cases hfind : d.findWindowHandle d.pointerCaptureHandle with
  | none =>
    refine .of_still (invariant_recordLeft hinv false)
      (Stance.refl d).sameWindows rfl rfl hleft.symm
      (fun j => Bool.eq_false_iff.2 fun hj => ?_) fun j => ⟨rfl, rfl⟩
    cases hfind.symm.trans (hfound j hj)
  | some i =>
    dsimp only
    split
    next hdragging =>
      have hsame : (d.windows i).stopDrag.identity = (d.windows i).identity := rfl
      refine .of_still (invariant_recordLeft (hinv.setWindow_same hsame) false)
        (.setWindow hsame) rfl
        rfl hleft.symm (fun j => Bool.eq_false_iff.2 fun hj => ?_) fun j => ?_
      · change ((d.setWindow i (d.windows i).stopDrag).windows j).dragging = true at hj
        by_cases hji : j = i
        · rw [hji, setWindow_windows_self] at hj
          cases hj
        · rw [setWindow_windows_of_ne _ _ hji] at hj
          exact hji (Option.some.inj (hfind.symm.trans (hfound j hj))).symm
      · have hplace (f : AppWindow → ℤ) (hf : f (d.windows i).stopDrag = f (d.windows i)) :=
          apply_setWindow f hf j
        exact ⟨hplace x rfl, hplace y rfl⟩
    next hdragging =>
      refine .of_still (invariant_recordLeft hinv false) (Stance.refl d).sameWindows rfl rfl
        hleft.symm (fun j => Bool.eq_false_iff.2 fun hj => ?_) fun j => ⟨rfl, rfl⟩
      obtain rfl := Option.some.inj (hfind.symm.trans (hfound j hj))
      exact hdragging hj

theorem outcomeOk_publishRight (hinv : DesktopInvariant next d) (hdrag : DragInvariant d)
    (hleft : mouse.leftButton = d.inputLastMouse.leftButton) :
    OutcomeOk next d mouse (d.publishRight mouse) := by
  have hpress := d.presses_pressTarget d.inputLastMouse.leftButton mouse.x mouse.y
  have hpinv := invariant_pressTarget hinv d.inputLastMouse.leftButton mouse.x mouse.y
  simp only [publishRight]
  split
  · refine .of_stance (invariant_recordRight hpinv true) hdrag hpress.stance hpress.active
      hpress.initialized ?_ fun hlast => ⟨hleft.trans hlast, ?_⟩
    · show (d.pressTarget _ _ _).2.inputLastMouse.leftButton = _
      rw [hpress.lastMouse, hleft]
    · show (d.pressTarget _ _ _).2.pointerCaptureHandle = _
      rw [hlast, pressTarget_of_otherButton]
  · exact .of_stance (invariant_recordRight hinv false) hdrag (.refl d) rfl rfl hleft.symm
      fun hlast => ⟨hleft.trans hlast, rfl⟩

theorem outcomeOk_publishMotion (hinv : DesktopInvariant next d) (hdrag : DragInvariant d)
    (hleft : mouse.leftButton = d.inputLastMouse.leftButton) :
    OutcomeOk next d mouse (d.publishMotion mouse) := by
  have hstay (event : AppInputEvent) (target : Option (Fin appWindowCapacity)) :
      OutcomeOk next d mouse ⟨d, target, event, false⟩ :=
    .of_stance hinv hdrag (.refl d) rfl rfl hleft.symm fun hlast => ⟨hleft.trans hlast, rfl⟩
  simp only [publishMotion]
  split
  · exact hstay _ _
  rename_i i htarget
  split
  next hdragging =>
    set window := (d.windows i).dragTo mouse.x mouse.y with hwindow
    have hsame : window.identity = (d.windows i).identity := rfl
    have hkeep (j : Fin appWindowCapacity) :
        ((d.setWindow i window).windows j).dragging = (d.windows j).dragging :=
      apply_setWindow (w := window) dragging rfl j
    exact
      { invariant := hinv.setWindow_same hsame
        sameWindows := .setWindow hsame
        active := rfl
        initialized := rfl
        leftButton := hleft.symm
        drag := fun j hj => by
          obtain ⟨huse, hhandle, hlast, -⟩ := hdrag j ((hkeep j).symm.trans hj)
          exact ⟨huse, hhandle, hleft.trans hlast⟩
        origin := fun j hj => .inl ((hkeep j).symm.trans hj)
        moves := fun j hj => by
          by_cases hji : j = i
          · rw [hji]
            exact ⟨hdragging, hleft.trans (hdrag i hdragging).2.2.1⟩
          · refine absurd ?_ hj
            rw [setWindow_windows_of_ne _ _ hji] }
  · exact hstay _ _

/-! ### The whole event -/

/-- What an event of the pointer does. -/
structure PointerOk (next : UInt64) (d : Desktop) (mouse : MouseState) (d' : Desktop) : Prop where
  invariant : DesktopInvariant next d'
  sameWindows : d.SameWindows d'
  drag : DragInvariant d'
  /-- A window that is dragged was dragged before, or is pressed on its title bar. -/
  origin : ∀ i, (d'.windows i).dragging = true →
    mouse.leftButton = true ∧
      ((d.windows i).dragging = true ∨ PressesTitleBar d mouse (d.windows i).handle)
  moves : ∀ i, ((d'.windows i).x, (d'.windows i).y) ≠ ((d.windows i).x, (d.windows i).y) →
    (d.windows i).dragging = true ∧ mouse.leftButton = true

/-- The end of the function: the windows keep their stances, and a snapshot without buttons releases
the pointer. -/
structure Delivers (mouse : MouseState) (d d' : Desktop) : Prop where
  stance : d.Stance d'
  capture : d'.pointerCaptureHandle = d.pointerCaptureHandle ∨
    mouse.leftButton = false ∧ d'.pointerCaptureHandle = 0
  leftButton : d'.inputLastMouse.leftButton = d.inputLastMouse.leftButton
  rest : d' = { d with
    windows := d'.windows
    pointerCaptureHandle := d'.pointerCaptureHandle
    pointerGestureConsumed := d'.pointerGestureConsumed
    inputLastMouse := d'.inputLastMouse }

theorem Delivers.invariant (hd : Delivers mouse d d') (h : DesktopInvariant next d) :
    DesktopInvariant next d' := by
  refine h.of_sameWindows hd.stance.sameWindows (by rw [hd.rest]; exact h.focused)
    (by rw [hd.rest]; exact h.hiddenFocused) ?_ (by rw [hd.rest]; exact h.hidden)
  rcases hd.capture with heq | ⟨-, hzero⟩
  · rw [heq]
    exact h.capture
  · exact .inl hzero

theorem delivers_endGesture (d : Desktop) (mouse : MouseState) :
    Delivers mouse d (d.endGesture mouse) := by
  rw [endGesture]
  split
  next h => exact ⟨.refl d, .inr ⟨by simpa using h.1, rfl⟩, rfl, rfl⟩
  · exact ⟨.refl d, .inl rfl, rfl, rfl⟩

theorem delivers_deliverPointer (outcome : PointerOutcome) (leftChanged : Bool)
    (mouse : MouseState) :
    Delivers mouse outcome.desktop (deliverPointer outcome leftChanged mouse) := by
  have hend := delivers_endGesture { outcome.desktop with
    inputLastMouse := { outcome.desktop.inputLastMouse with x := mouse.x, y := mouse.y } } mouse
  have hbefore : Delivers mouse outcome.desktop _ :=
    ⟨hend.stance, hend.capture, hend.leftButton, hend.rest⟩
  rw [deliverPointer]
  split
  · exact hbefore
  split
  · exact hbefore
  · exact { hbefore with
    stance := hbefore.stance.trans (.setWindow (stance_queueInput _ _))
    rest := by rw [hbefore.rest]; rfl }

theorem pointerOk_deliverPointer (h : OutcomeOk next d mouse outcome)
    (hactive : d.desktopActive = true) (hinit : d.inputMouseInitialized = true)
    (leftChanged : Bool) :
    PointerOk next d mouse (deliverPointer outcome leftChanged mouse) := by
  have hd := delivers_deliverPointer outcome leftChanged mouse
  have hsame := hd.stance.sameWindows
  exact
    { invariant := hd.invariant h.invariant
      sameWindows := h.sameWindows.trans hsame
      drag := fun i hi => by
        rw [dragging_of_stance (hd.stance i)] at hi
        obtain ⟨huse, hhandle, hleft⟩ := h.drag i hi
        have hcapture := hd.capture.resolve_right fun hno => by simp [hno.1] at hleft
        refine ⟨?_, ?_, ?_, ?_, ?_⟩
        · rw [hsame.inUse_eq, h.sameWindows.inUse_eq, huse]
        · rw [hsame.handle_eq, h.sameWindows.handle_eq, hcapture, hhandle]
        · rw [hd.leftButton, h.leftButton, hleft]
        · rw [hd.rest, ← hinit, ← h.initialized]
        · rw [hd.rest, ← hactive, ← h.active]
      origin := fun i hi => by
        rw [dragging_of_stance (hd.stance i)] at hi
        exact ⟨(h.drag i hi).2.2, h.origin i hi⟩
      moves := fun i hi => by
        rw [x_of_stance (hd.stance i), y_of_stance (hd.stance i)] at hi
        exact h.moves i hi }

/-- **An event of the pointer moves only a window that is dragged.** -/
theorem pointerOk_publishPointerEvent (hinv : DesktopInvariant next d) (hdrag : DragInvariant d)
    (hactive : d.desktopActive = true) (mouse : MouseState) :
    PointerOk next d mouse (d.publishPointerEvent mouse) := by
  simp only [publishPointerEvent]
  split
  next hnot =>
    have hnot : d.inputMouseInitialized = false := by simpa using hnot
    have hnone (i : Fin appWindowCapacity) : ¬(d.windows i).dragging = true := fun hi => by
      have := (hdrag i hi).2.2.2.1
      simp [hnot] at this
    have hd := delivers_endGesture
      { d with inputLastMouse := mouse, inputMouseInitialized := true } mouse
    have hstance : d.Stance _ := hd.stance
    exact
      { invariant := hd.invariant { hinv with }
        sameWindows := hstance.sameWindows
        drag := fun i hi => absurd ((dragging_of_stance (hstance i)).symm.trans hi) (hnone i)
        origin := fun i hi =>
          absurd ((dragging_of_stance (hstance i)).symm.trans hi) (hnone i)
        moves := fun i hi => absurd
          (by rw [x_of_stance (hstance i), y_of_stance (hstance i)]) hi }
  next hinit =>
    have hinit : d.inputMouseInitialized = true := by simpa using hinit
    split
    next hsame =>
      have hleft : mouse.leftButton = d.inputLastMouse.leftButton := by simpa using hsame.1
      exact
        { invariant := hinv
          sameWindows := fun i => rfl
          drag := hdrag
          origin := fun i hi => ⟨hleft.trans (hdrag i hi).2.2.1, .inl hi⟩
          moves := fun i hi => absurd rfl hi }
    · refine pointerOk_deliverPointer ?_ hactive hinit _
      split
      next hchanged =>
        have hchanged : mouse.leftButton ≠ d.inputLastMouse.leftButton := by simpa using hchanged
        cases hleft : mouse.leftButton with
        | true =>
          rw [hleft] at hchanged
          exact outcomeOk_publishLeft_press hinv hdrag hinit
            (Bool.eq_false_iff.2 hchanged.symm) hleft
        | false => exact outcomeOk_publishLeft_release hinv hdrag hleft
      next hsame =>
        have hsame : mouse.leftButton = d.inputLastMouse.leftButton := by simpa using hsame
        split
        · exact outcomeOk_publishRight hinv hdrag hsame
        · exact outcomeOk_publishMotion hinv hdrag hsame

end Desktop

/-! ## The calls -/

namespace DragInvariant

variable {next : UInt64} {d d' : Desktop} {i : Fin appWindowCapacity}

section

variable (h : DragInvariant d)

include h

/-- The windows are the same ones, and no further window is dragged. -/
theorem of_sameWindows (hsame : d.SameWindows d')
    (hdragging : ∀ i, (d'.windows i).dragging = true → (d.windows i).dragging = true)
    (hcapture : d'.pointerCaptureHandle = d.pointerCaptureHandle)
    (hleft : d'.inputLastMouse.leftButton = d.inputLastMouse.leftButton)
    (hinit : d'.inputMouseInitialized = d.inputMouseInitialized)
    (hactive : d'.desktopActive = d.desktopActive) : DragInvariant d' := by
  intro i hi
  obtain ⟨huse, hhandle, hrest⟩ := h i (hdragging i hi)
  rw [hsame.inUse_eq, hsame.handle_eq, hcapture, hleft, hinit, hactive]
  exact ⟨huse, hhandle, hrest⟩

theorem redraws (hd : d.Redraws d') : DragInvariant d' :=
  h.of_sameWindows hd.sameWindows (fun i hi => (hd.dragging i).symm.trans hi) (by rw [hd.rest])
    (by rw [hd.rest]) (by rw [hd.rest]) (by rw [hd.rest])

/-- The window that is closed is not one of those that are dragged afterwards. -/
theorem closes (hinv : DesktopInvariant next d)
    (huse : (d.windows i).inUse = true) (hcloses : d.Closes i d') : DragInvariant d' := by
  intro j hj
  have hji : j ≠ i := fun heq => by
    rw [hcloses.windows, heq, update_self] at hj
    cases hj
  have hsame : d'.windows j = d.windows j := by rw [hcloses.windows, update_of_ne hji]
  rw [hsame] at hj ⊢
  obtain ⟨hjuse, hhandle, hleft, hinit, hactive⟩ := h j hj
  have hsome : ¬∀ k, (d'.windows k).inUse = false := fun hnone => by
    have := hnone j
    rw [hsame, hjuse] at this
    cases this
  have hcapture : d'.pointerCaptureHandle = d.pointerCaptureHandle := by
    rcases hcloses.capture with ⟨heq, -⟩ | ⟨-, hclosed | hnone⟩
    · exact heq
    · exact absurd (hinv.distinct j i hjuse huse (hhandle.trans hclosed)) hji
    · exact absurd hnone hsome
  refine ⟨hjuse, by rw [hcapture, hhandle], by rw [hcloses.lastMouse, hleft], ?_, ?_⟩
  · rw [hcloses.initialized.resolve_right hsome, hinit]
  · rw [hcloses.active, hactive]

theorem closeWindow (hinv : DesktopInvariant next d)
    (i : Fin appWindowCapacity) : DragInvariant (d.closeWindow i) := by
  cases huse : (d.windows i).inUse with
  | false =>
    rw [Desktop.closeWindow, if_pos (by simp [huse])]
    exact h
  | true => exact h.closes hinv huse (closes_closeWindow huse)

/-- A new window is not dragged, and if the mouse was not known, no other was. -/
theorem setWindow_noteMouse (i : Fin appWindowCapacity) {window : AppWindow}
    (hnot : window.dragging = false) (mouse : MouseState) :
    DragInvariant ((d.setWindow i window).noteMouse mouse) := by
  have hset : DragInvariant (d.setWindow i window) := by
    intro j hj
    have hji : j ≠ i := fun heq => by simp [heq, hnot] at hj
    rw [setWindow_windows_of_ne d window hji] at hj ⊢
    exact h j hj
  rw [noteMouse]
  split
  next hinit =>
    intro j hj
    have := (hset j hj).2.2.2.1
    simp [this] at hinit
  · exact hset

theorem placeWindow (i : Fin appWindowCapacity) (processId : UInt64) :
    DragInvariant (d.placeWindow i processId).2 := by
  rw [Desktop.placeWindow]
  split
  · refine redraws ?_ (raises_focusWindow _ i).redraws
    exact h
  · exact h.redraws (d.raises_placeWindowInBackground i).redraws

/-- A window is opened; if it cannot be placed, it is closed again. -/
theorem openWindow (hinv : DesktopInvariant next d)
    (hfree : (d.windows i).inUse = false) {window : AppWindow} (huse : window.inUse = true)
    (hne : window.handle ≠ 0) (hlt : next ≠ 0 → window.handle < next)
    (hfresh : ∀ j, (d.windows j).inUse = true → (d.windows j).handle ≠ window.handle)
    (hnot : window.dragging = false) (mouse : MouseState) :
    DesktopInvariant next (d.openWindow i window mouse).2 ∧
      DragInvariant (d.openWindow i window mouse).2 := by
  have hset := (hinv.setWindow hfree hne hlt hfresh).noteMouse mouse
  have hin : (((d.setWindow i window).noteMouse mouse).windows i).inUse = true := by
    rw [noteMouse]
    split <;> simpa using huse
  have hplace := (h.setWindow_noteMouse i hnot mouse).placeWindow i window.processId
  have hpinv := hset.placeWindow hin window.processId
  rw [Desktop.openWindow]
  cases hd : ((d.setWindow i window).noteMouse mouse).placeWindow i window.processId with
  | mk placed d₁ =>
    rw [hd] at hplace hpinv
    cases placed with
    | true => exact ⟨hpinv, hplace⟩
    | false => exact ⟨hpinv.closeWindow i, hplace.closeWindow hpinv i⟩

end

end DragInvariant

namespace Desktop

variable {d d' : Desktop} {i : Fin appWindowCapacity}

/-- The windows that are left have the stances they had. -/
def Leaves (d d' : Desktop) : Prop :=
  ∀ i, (d'.windows i).stance = (d.windows i).stance ∨
    (d'.windows i).inUse = false ∧ (d'.windows i).dragging = false

theorem Leaves.of_stance (h : d.Stance d') : d.Leaves d' := fun i => .inl (h i)

theorem Leaves.trans {d'' : Desktop} (h : d.Leaves d') (h' : d'.Leaves d'') : d.Leaves d'' := by
  intro i
  rcases h' i with h' | h'
  · rcases h i with h | ⟨huse, hdragging⟩
    · exact .inl (h'.trans h)
    · exact .inr ⟨(inUse_of_identity (identity_of_stance h')).trans huse,
        (dragging_of_stance h').trans hdragging⟩
  · exact .inr h'

variable (d)

theorem leaves_closeWindow (i : Fin appWindowCapacity) : d.Leaves (d.closeWindow i) := by
  cases huse : (d.windows i).inUse with
  | false =>
    rw [closeWindow, if_pos (by simp [huse])]
    exact .of_stance (.refl d)
  | true =>
    intro j
    rw [(closes_closeWindow huse).windows]
    by_cases hji : j = i
    · rw [hji, update_self]
      exact .inr ⟨rfl, rfl⟩
    · rw [update_of_ne hji]
      exact .inl rfl

theorem stance_placeWindow (i : Fin appWindowCapacity) (processId : UInt64) :
    d.Stance (d.placeWindow i processId).2 := by
  rw [placeWindow]
  split
  · exact (raises_focusWindow _ i).stance
  · exact (d.raises_placeWindowInBackground i).stance

theorem stance_noteMouse (mouse : MouseState) : d.Stance (d.noteMouse mouse) := by
  rw [noteMouse]
  split <;> exact fun _ => rfl

theorem leaves_openWindow (i : Fin appWindowCapacity) (window : AppWindow)
    (mouse : MouseState) : (d.setWindow i window).Leaves (d.openWindow i window mouse).2 := by
  have hplace := ((d.setWindow i window).stance_noteMouse mouse).trans
    (stance_placeWindow _ i window.processId)
  rw [openWindow]
  cases hd : ((d.setWindow i window).noteMouse mouse).placeWindow i window.processId with
  | mk placed d₁ =>
    rw [hd] at hplace
    cases placed with
    | true => exact .of_stance hplace
    | false => exact (Leaves.of_stance hplace).trans (leaves_closeWindow d₁ i)

theorem stance_queueAllWindowCloseEvents : d.Stance d.queueAllWindowCloseEvents :=
  fun i => stance_queueInput (d.windows i) _

variable {d}

/-- A slot that is given out is free. -/
theorem free_of_allocateWindowSlot {processId : UInt64}
    (h : d.allocateWindowSlot processId = some i) : (d.windows i).inUse = false := by
  rw [allocateWindowSlot] at h
  split at h
  · cases h
  · simpa using List.find?_some h

/-! ### The overlay -/

variable (d)

theorem redraws_renderFrom (screenWidth screenHeight : ℤ) (visible : ℕ) (previousZ : UInt64)
    (d : Desktop) : d.Redraws (renderFrom screenWidth screenHeight visible previousZ d) := by
  induction visible generalizing previousZ d with
  | zero => exact .refl d
  | succ visible ih =>
    rw [renderFrom]
    split
    · exact .refl d
    rename_i i _
    set window := clampWindow (d.windows i) screenWidth screenHeight
    have hsame : window.identity = (d.windows i).identity := rfl
    have hdragging (j : Fin appWindowCapacity) :
        ((d.setWindow i window).windows j).dragging = (d.windows j).dragging :=
      apply_setWindow (w := window) dragging rfl j
    have h := ih (d.windows i).zOrder (d.setWindow i window)
    exact ⟨(SameWindows.setWindow hsame).trans h.sameWindows,
      fun j => (h.dragging j).trans (hdragging j), h.rest⟩

theorem redraws_renderOverlay (screenWidth screenHeight : ℤ) :
    d.Redraws (d.renderOverlay screenWidth screenHeight) := by
  rw [renderOverlay]
  split
  · exact .refl d
  · exact redraws_renderFrom ..

end Desktop

end Nostalux.App
