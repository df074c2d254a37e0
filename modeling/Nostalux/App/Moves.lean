import Nostalux.App.Drag

/-!
# A window moves only while it is dragged

* `StepOk`, `stepOk_step`: what one call does to the windows.
* `samples`, `HeldSincePress`: the snapshots of the mouse that a run publishes, and a left button
  that is held since a press on a title bar.
* `window_moves_only_while_dragged`: what holds in every run in which the desktop is not switched
  while a window is dragged.
* `window_moves_without_button`: a run in which it is.
-/

namespace Nostalux.App

open AppWindow AppServices Desktop List

namespace SystemCall

/-- The snapshot of the mouse that a call publishes. -/
def sample (s : AppServices) : SystemCall → Option MouseState
  | .routePointer mouse => if s.desktop.desktopActive then some mouse else none
  | .service env (some _) processId capabilities call =>
    if processId = 0 then none else AppServices.pollSample env processId capabilities call s
  | _ => none

/-- The calls that activate or deactivate the desktop. -/
def isSwitch : SystemCall → Bool
  | .setDesktopActive _ => true
  | _ => false

/-- The calls that draw the windows. -/
def isRender : SystemCall → Bool
  | .renderOverlay .. => true
  | _ => false

end SystemCall

/-- What one call does to the windows. -/
structure StepOk (s : AppServices) (call : SystemCall) : Prop where
  invariant : DesktopInvariant (s.step call).files.nextHandle (s.step call).desktop
  drag : (call.isSwitch = true → ∀ i, (s.desktop.windows i).dragging = false) →
    DragInvariant (s.step call).desktop
  /-- A window that is dragged was dragged before and the button is held, or is pressed now. -/
  origin : ∀ i, ((s.step call).desktop.windows i).dragging = true →
    ((s.step call).desktop.windows i).handle = (s.desktop.windows i).handle ∧
      (∀ mouse, call.sample s = some mouse → mouse.leftButton = true) ∧
      ((s.desktop.windows i).dragging = true ∨ ∃ mouse, call.sample s = some mouse ∧
        PressesTitleBar s.desktop mouse (s.desktop.windows i).handle)
  /-- A window that stays and moves is dragged, and the button is held. -/
  moves : call.isRender = false → ∀ i, (s.desktop.windows i).inUse = true →
    ((s.step call).desktop.windows i).inUse = true →
    (((s.step call).desktop.windows i).x, ((s.step call).desktop.windows i).y) ≠
      ((s.desktop.windows i).x, (s.desktop.windows i).y) →
    (s.desktop.windows i).dragging = true ∧
      ∃ mouse, call.sample s = some mouse ∧ mouse.leftButton = true

variable {s : AppServices}

/-- A call without a snapshot that leaves the windows where they are. -/
theorem StepOk.of_leaves {call : SystemCall}
    (hinv : DesktopInvariant (s.step call).files.nextHandle (s.step call).desktop)
    (hdrag : (call.isSwitch = true → ∀ i, (s.desktop.windows i).dragging = false) →
      DragInvariant (s.step call).desktop)
    (hsample : call.sample s = none) (hleaves : s.desktop.Leaves (s.step call).desktop) :
    StepOk s call where
  invariant := hinv
  drag := hdrag
  origin := fun i hi => by
    rcases hleaves i with h | ⟨-, hno⟩
    · refine ⟨handle_of_identity (identity_of_stance h),
        fun mouse hmouse => ?_, .inl ((dragging_of_stance h).symm.trans hi)⟩
      rw [hsample] at hmouse
      cases hmouse
    · simp [hno] at hi
  moves := fun _ i _ huse hne => by
    rcases hleaves i with h | ⟨hno, -⟩
    · exact absurd (by rw [x_of_stance h, y_of_stance h]) hne
    · simp [hno] at huse

section Step

variable {env : ServiceEnv} {processId capabilities : UInt64} {call : SystemCall}

/-- A window is opened in a free slot. -/
theorem stepOk_opened {slot : Fin appWindowCapacity} {window : AppWindow}
    {mouse : MouseState} (hsample : call.sample s = none) (hnot : window.dragging = false)
    (hfree : (s.desktop.windows slot).inUse = false)
    (hd : (s.step call).desktop = (s.desktop.openWindow slot window mouse).2)
    (hinv' : DesktopInvariant (s.step call).files.nextHandle (s.step call).desktop)
    (hdrag' : DragInvariant (s.step call).desktop) : StepOk s call := by
  have hleaves := s.desktop.leaves_openWindow slot window mouse
  rw [← hd] at hleaves
  exact
    { invariant := hinv'
      drag := fun _ => hdrag'
      origin := fun i hi => by
        rcases hleaves i with h | ⟨-, hno⟩
        · have hold := (dragging_of_stance h).symm.trans hi
          have hislot : i ≠ slot := fun heq => by simp [heq, hnot] at hold
          rw [setWindow_windows_of_ne _ _ hislot] at h
          refine ⟨handle_of_identity (identity_of_stance h),
            fun m hm => ?_, .inl ((dragging_of_stance h).symm.trans hi)⟩
          rw [hsample] at hm
          cases hm
        · simp [hno] at hi
      moves := fun _ i hiuse huse hne => by
        have hislot : i ≠ slot := fun heq => by simp [heq, hfree] at hiuse
        rcases hleaves i with h | ⟨hno, -⟩
        · rw [setWindow_windows_of_ne _ _ hislot] at h
          exact absurd (by rw [x_of_stance h, y_of_stance h]) hne
        · simp [hno] at huse }

/-- The windows of a process that ends are closed one after the other. -/
theorem closeOwned_foldl {next : UInt64} {d : Desktop} (hinv : DesktopInvariant next d)
    (hdrag : DragInvariant d) (processId : UInt64) (l : List (Fin appWindowCapacity)) :
    DesktopInvariant next (l.foldl (closeOwned processId) d) ∧
      DragInvariant (l.foldl (closeOwned processId) d) ∧
      d.Leaves (l.foldl (closeOwned processId) d) := by
  induction l generalizing d with
  | nil => exact ⟨hinv, hdrag, .of_stance (.refl d)⟩
  | cons i l ih =>
    rw [foldl_cons, closeOwned]
    split
    · obtain ⟨hinv', hdrag', hleaves⟩ := ih (hinv.closeWindow i) (hdrag.closeWindow hinv i)
      exact ⟨hinv', hdrag', (d.leaves_closeWindow i).trans hleaves⟩
    · exact ih hinv hdrag

/-- The switch of the desktop forgets the pointer, but not which window is dragged. -/
theorem stepOk_setDesktopActive (hinv : DesktopInvariant s.files.nextHandle s.desktop)
    (active : Bool) : StepOk s (.setDesktopActive active) := by
  have hd : ∀ d, d = s.desktop.setDesktopActive active →
      DesktopInvariant s.files.nextHandle d ∧ s.desktop.Stance d := by
    rintro d rfl
    rw [setDesktopActive]
    split
    · exact ⟨{ hinv with }, fun _ => rfl⟩
    · have hstance : s.desktop.Stance _ := stance_queueAllWindowCloseEvents
        { s.desktop with
          desktopActive := active
          inputMouseInitialized := false
          focusedWindowHandle := 0
          hiddenFocusedWindowHandle := 0
          launchFocusProcessId := 0
          pointerCaptureHandle := 0
          pointerGestureConsumed := false
          windowsHidden := false }
      exact ⟨hinv.of_sameWindows hstance.sameWindows (.inl rfl) (.inl rfl)
        (.inl rfl) nofun, hstance⟩
  obtain ⟨hinv', hstance⟩ := hd _ rfl
  refine .of_leaves hinv' (fun hstill i hi => ?_) rfl (.of_stance hstance)
  have hno := hstill rfl i
  rw [← dragging_of_stance (hstance i)] at hno
  exact absurd (hno.symm.trans hi) nofun

/-- The windows keep their stances. -/
theorem StepOk.of_stance {d : Desktop} (hd : (s.step call).desktop = d)
    (hnext : (s.step call).files.nextHandle = s.files.nextHandle) (hsample : call.sample s = none)
    (h : DesktopInvariant s.files.nextHandle d ∧ DragInvariant d ∧ s.desktop.Stance d) :
    StepOk s call := by
  rw [← hd, ← hnext] at h
  exact .of_leaves h.1 (fun _ => h.2.1) hsample (.of_stance h.2.2)

variable (hinv : DesktopInvariant s.files.nextHandle s.desktop)
  (hdrag : DragInvariant s.desktop)

include hinv hdrag

theorem StepOk.refl (hsame : s.step call = s)
    (hsample : call.sample s = none) : StepOk s call := by
  refine .of_stance (d := s.desktop) ?_ ?_ hsample ⟨hinv, hdrag, .refl _⟩
  · rw [hsame]
  · rw [hsame]

theorem StepOk.of_raises {d : Desktop} (hd : (s.step call).desktop = d)
    (hnext : (s.step call).files.nextHandle = s.files.nextHandle) (hsample : call.sample s = none)
    (h : s.desktop.Raises d) : StepOk s call :=
  .of_stance hd hnext hsample ⟨hinv.redraws h.redraws, hdrag.redraws h.redraws, h.stance⟩

/-- The pointer is routed, and the windows keep their stances after that. -/
theorem StepOk.of_routePointer {mouse : MouseState}
    (hnext : (s.step call).files.nextHandle = s.files.nextHandle)
    (hsample : call.sample s = if s.desktop.desktopActive then some mouse else none)
    {d : Desktop} (hd : d = s.desktop.routePointer mouse)
    (hraises : d.Raises (s.step call).desktop) : StepOk s call := by
  have hstance := hraises.stance
  cases hactive : s.desktop.desktopActive with
  | false =>
    rw [routePointer, hactive] at hd
    obtain rfl : d = s.desktop := hd
    rw [hactive] at hsample
    exact .of_raises hinv hdrag rfl hnext hsample hraises
  | true =>
    rw [routePointer, hactive] at hd
    obtain rfl : d = s.desktop.publishPointerEvent mouse := hd
    have hok := pointerOk_publishPointerEvent hinv hdrag hactive mouse
    rw [hactive, if_pos rfl] at hsample
    exact
      { invariant := by rw [hnext]; exact hok.invariant.redraws hraises.redraws
        drag := fun _ => hok.drag.redraws hraises.redraws
        origin := fun i hi => by
          rw [dragging_of_stance (hstance i)] at hi
          obtain ⟨hleft, horigin⟩ := hok.origin i hi
          refine ⟨?_, fun m hm => ?_, ?_⟩
          · rw [hstance.sameWindows.handle_eq, hok.sameWindows.handle_eq]
          · rw [hsample] at hm
            rw [← Option.some.inj hm, hleft]
          · exact horigin.imp id fun h => ⟨mouse, hsample, h⟩
        moves := fun _ i _ _ hne => by
          rw [x_of_stance (hstance i), y_of_stance (hstance i)] at hne
          obtain ⟨hdragging, hleft⟩ := hok.moves i hne
          exact ⟨hdragging, mouse, hsample, hleft⟩ }

theorem stepOk_service (space : SpaceId) (hprocess : processId ≠ 0)
    (call : ServiceCall) : StepOk s (.service env (some space) processId capabilities call) := by
  have heffect := windowEffect_dispatch env space hprocess capabilities call s
  have hsample : SystemCall.sample s (.service env (some space) processId capabilities call) =
      pollSample env processId capabilities call s := if_neg hprocess
  rw [← hsample] at heffect
  change WindowEffect processId _ s
    (s.step (.service env (some space) processId capabilities call)) at heffect
  generalize SystemCall.service env (some space) processId capabilities call = syscall at *
  rcases heffect with ⟨hd, hnext, hnone⟩ |
    ⟨slot, window, mouse, hslot, huse, hhandle, -, hnot, hne, hd, hnext, hnone⟩ |
    ⟨i, pixels, howns, hd, hnext, hnone⟩ | ⟨i, howns, hd, hnext, hnone⟩ |
    ⟨i, mouse, window, howns, hqueue, hd, hnext, hsome⟩
  · exact .of_leaves (by rw [hd]; exact hinv.advance hnext) (fun _ => by rw [hd]; exact hdrag) hnone
      (by rw [hd]; exact .of_stance (.refl _))
  · have hfree := free_of_allocateWindowSlot hslot
    have hinv' := hinv.advance (advances_nextHandleAfter hne)
    have hlt : nextHandleAfter s.files.nextHandle ≠ 0 →
        window.handle < nextHandleAfter s.files.nextHandle := fun h => by
      rw [hhandle]
      exact lt_nextHandleAfter h
    have hfresh (j : Fin appWindowCapacity) (hj : (s.desktop.windows j).inUse = true) :
        (s.desktop.windows j).handle ≠ window.handle := by
      rw [hhandle]
      exact UInt64.ne_of_lt (hinv.handle_lt j hj hne)
    rw [← hhandle] at hne
    have hopened := hdrag.openWindow hinv' hfree huse hne hlt hfresh hnot mouse
    rw [← hd, ← hnext] at hopened
    exact stepOk_opened hnone hnot hfree hd hopened.1 hopened.2
  · exact .of_raises hinv hdrag hd hnext hnone ⟨.setWindow rfl, rfl⟩
  · exact .of_leaves (by rw [hd, hnext]; exact hinv.closeWindow i)
      (fun _ => by rw [hd]; exact hdrag.closeWindow hinv i) hnone
      (by rw [hd]; exact leaves_closeWindow _ i)
  · have hwindow : window.stance = ((s.desktop.routePointer mouse).windows i).stance := by
      rcases hqueue with rfl | ⟨event, hdequeue⟩
      · rfl
      · exact stance_of_dequeueInput hdequeue
    refine .of_routePointer hinv hdrag hnext hsome rfl ?_
    rw [hd]
    exact ⟨.setWindow hwindow, rfl⟩

theorem stepOk_releaseProcess (processId : UInt64) :
    StepOk s (.releaseProcess processId) := by
  by_cases hzero : processId = 0
  · exact .refl hinv hdrag (if_pos hzero) rfl
  have hlaunch : ∀ d, d = (if s.desktop.launchFocusProcessId = processId then
        { s.desktop with launchFocusProcessId := 0 } else s.desktop) →
      DesktopInvariant s.files.nextHandle d ∧ DragInvariant d ∧ s.desktop.Stance d := by
    rintro d rfl
    split
    · exact ⟨{ hinv with }, hdrag, fun _ => rfl⟩
    · exact ⟨hinv, hdrag, .refl _⟩
  obtain ⟨hinv₁, hdrag₁, hstance⟩ := hlaunch _ rfl
  obtain ⟨hinv', hdrag', hleaves⟩ :=
    closeOwned_foldl hinv₁ hdrag₁ processId (finRange appWindowCapacity)
  have hd := s.desktop_releaseProcess hzero
  refine .of_leaves ?_ (fun _ => ?_) rfl ?_
  · show DesktopInvariant (s.releaseProcess processId).files.nextHandle
      (s.releaseProcess processId).desktop
    rw [hd, s.nextHandle_releaseProcess]
    exact hinv'
  · show DragInvariant (s.releaseProcess processId).desktop
    rw [hd]
    exact hdrag'
  · show s.desktop.Leaves (s.releaseProcess processId).desktop
    rw [hd]
    exact (Leaves.of_stance hstance).trans hleaves

theorem stepOk_setWindowsHidden (hidden : Bool) : StepOk s (.setWindowsHidden hidden) := by
  refine .of_stance (d := s.desktop.setWindowsHidden hidden) rfl rfl rfl ?_
  rw [setWindowsHidden]
  split
  · exact ⟨hinv, hdrag, .refl _⟩
  split
  · exact ⟨{ hinv with
      focused := .inl rfl
      hiddenFocused := hinv.focused
      hidden := fun _ => rfl }, hdrag, fun _ => rfl⟩
  · refine ⟨{ hinv with
      focused := ?_
      hiddenFocused := .inl rfl
      hidden := nofun }, hdrag, fun _ => rfl⟩
    split
    · exact .inl rfl
    next i hfind => exact .inr ⟨i, (findWindowHandle_eq_some hfind).2.1, rfl⟩

theorem stepOk_requestAllWindowsClose : StepOk s .requestAllWindowsClose := by
  have hraises : s.desktop.Raises s.desktop.requestAllWindowsClose := by
    rw [requestAllWindowsClose]
    split
    · exact ⟨s.desktop.stance_queueAllWindowCloseEvents, rfl⟩
    · exact .refl _
  exact .of_raises hinv hdrag rfl rfl rfl hraises

theorem stepOk_blurKeyboardFocus : StepOk s .blurKeyboardFocus := by
  refine .of_stance (d := s.desktop.blurKeyboardFocus) rfl rfl rfl ?_
  rw [blurKeyboardFocus]
  split
  · exact ⟨{ hinv with focused := .inl rfl, hiddenFocused := .inl rfl, hidden := fun _ => rfl },
      hdrag, fun _ => rfl⟩
  · exact ⟨{ hinv with }, hdrag, fun _ => rfl⟩

theorem stepOk_renderOverlay (screenWidth screenHeight : ℤ) :
    StepOk s (.renderOverlay screenWidth screenHeight) := by
  have h : s.desktop.Redraws (s.step (.renderOverlay screenWidth screenHeight)).desktop :=
    s.desktop.redraws_renderOverlay screenWidth screenHeight
  exact
    { invariant := hinv.redraws h
      drag := fun _ => hdrag.redraws h
      origin := fun i hi => ⟨h.sameWindows.handle_eq i, nofun, .inl ((h.dragging i).symm.trans hi)⟩
      moves := nofun }

/-- **What a call does to the windows.** -/
theorem stepOk_step (call : SystemCall) : StepOk s call := by
  cases call with
  | service env addressSpace processId capabilities call =>
    cases addressSpace with
    | none => exact .refl hinv hdrag rfl rfl
    | some space =>
      by_cases hzero : processId = 0
      · refine .refl hinv hdrag ?_ (if_pos hzero)
        simp only [step, dispatch, if_pos hzero]
      · exact stepOk_service hinv hdrag space hzero call
  | releaseProcess processId => exact stepOk_releaseProcess hinv hdrag processId
  | routePointer mouse => exact .of_routePointer hinv hdrag rfl rfl rfl (.refl _)
  | setWindowsHidden hidden => exact stepOk_setWindowsHidden hinv hdrag hidden
  | setDesktopActive active => exact stepOk_setDesktopActive hinv active
  | authorizeLaunchFocus processId =>
    refine .of_stance (d := (s.desktop.authorizeLaunchFocus processId).2) rfl rfl rfl ?_
    rw [authorizeLaunchFocus]
    split
    · exact ⟨hinv, hdrag, .refl _⟩
    · exact ⟨{ hinv with }, hdrag, fun _ => rfl⟩
  | requestAllWindowsClose => exact stepOk_requestAllWindowsClose hinv hdrag
  | blurKeyboardFocus => exact stepOk_blurKeyboardFocus hinv hdrag
  | renderOverlay screenWidth screenHeight =>
    exact stepOk_renderOverlay hinv hdrag screenWidth screenHeight

end Step

/-! ## Runs -/

/-- The snapshots of the mouse that the calls publish, each with the desktop it finds. -/
def samples : AppServices → List SystemCall → List (Desktop × MouseState)
  | _, [] => []
  | s, call :: calls =>
    (call.sample s).toList.map (fun mouse => (s.desktop, mouse)) ++ samples (s.step call) calls

/-- The left button was pressed on the title bar of the window, and is held in all snapshots
since. -/
def HeldSincePress (history : List (Desktop × MouseState)) (handle : UInt64) : Prop :=
  ∃ before d mouse since, history = before ++ (d, mouse) :: since ∧
    PressesTitleBar d mouse handle ∧ ∀ p ∈ since, p.2.leftButton = true

theorem HeldSincePress.append {history since : List (Desktop × MouseState)} {handle : UInt64}
    (h : HeldSincePress history handle) (hheld : ∀ p ∈ since, p.2.leftButton = true) :
    HeldSincePress (history ++ since) handle := by
  obtain ⟨before, d, mouse, old, rfl, hpress, hold⟩ := h
  exact ⟨before, d, mouse, old ++ since, by simp, hpress,
    forall_mem_append.2 ⟨hold, hheld⟩⟩

/-- The desktop is not switched while a window is dragged. -/
def UndisturbedDrags : AppServices → List SystemCall → Prop
  | _, [] => True
  | s, call :: calls =>
    (call.isSwitch = true → ∀ i, (s.desktop.windows i).dragging = false) ∧
      UndisturbedDrags (s.step call) calls

instance decidableUndisturbedDrags :
    (s : AppServices) → (calls : List SystemCall) → Decidable (UndisturbedDrags s calls)
  | _, [] => inferInstanceAs (Decidable True)
  | s, call :: calls =>
    have := decidableUndisturbedDrags (s.step call) calls
    inferInstanceAs (Decidable (_ ∧ _))

/-- What holds in a run, with the snapshots up to now. -/
structure RunOk (history : List (Desktop × MouseState)) (s : AppServices) : Prop where
  invariant : DesktopInvariant s.files.nextHandle s.desktop
  drag : DragInvariant s.desktop
  held : ∀ i, (s.desktop.windows i).dragging = true →
    HeldSincePress history (s.desktop.windows i).handle

theorem runOk_boot (fs : Fs.FsState) (pages : SpaceId → UInt64 → Option Bool) :
    RunOk [] (boot fs pages) :=
  ⟨desktopInvariant_boot, nofun, nofun⟩

section

variable {history : List (Desktop × MouseState)} (h : RunOk history s)
include h

theorem RunOk.step {call : SystemCall}
    (hstill : call.isSwitch = true → ∀ i, (s.desktop.windows i).dragging = false) :
    RunOk (history ++ (call.sample s).toList.map fun mouse => (s.desktop, mouse))
      (s.step call) := by
  have hok := stepOk_step h.invariant h.drag call
  refine ⟨hok.invariant, hok.drag hstill, fun i hi => ?_⟩
  obtain ⟨hhandle, hleft, hold | ⟨mouse, hsample, hpress⟩⟩ := hok.origin i hi
  · rw [hhandle]
    refine (h.held i hold).append fun p hp => ?_
    obtain ⟨mouse, hmouse, rfl⟩ := mem_map.1 hp
    exact hleft mouse (Option.mem_toList.1 hmouse)
  · rw [hhandle, hsample]
    exact ⟨history, s.desktop, mouse, [], by simp, hpress, by simp⟩

theorem RunOk.run {calls : List SystemCall} (hcalls : UndisturbedDrags s calls) :
    RunOk (history ++ samples s calls) (s.run calls) := by
  induction calls generalizing history s with
  | nil =>
    rw [samples, append_nil]
    exact h
  | cons call calls ih =>
    rw [samples, ← append_assoc]
    exact ih (h.step hcalls.1) hcalls.2

end

/-- **A window moves only while it is dragged**, in every run in which the desktop is not switched
while a window is dragged. -/
theorem window_moves_only_while_dragged (fs : Fs.FsState) (pages : SpaceId → UInt64 → Option Bool)
    (calls : List SystemCall) (hcalls : UndisturbedDrags (.boot fs pages) calls) :
    let s := (AppServices.boot fs pages).run calls
    s.desktop.IsHandle s.desktop.focusedWindowHandle ∧
    s.desktop.IsHandle s.desktop.hiddenFocusedWindowHandle ∧
    s.desktop.IsHandle s.desktop.pointerCaptureHandle ∧
    (s.desktop.windowsHidden = true → s.desktop.focusedWindowHandle = 0) ∧
    (∀ i, (s.desktop.windows i).dragging = true →
      (s.desktop.windows i).inUse = true ∧
        (s.desktop.windows i).handle = s.desktop.pointerCaptureHandle) ∧
    ∀ call : SystemCall, call.isRender = false → ∀ i, (s.desktop.windows i).inUse = true →
      ((s.step call).desktop.windows i).inUse = true →
      (((s.step call).desktop.windows i).x, ((s.step call).desktop.windows i).y) ≠
        ((s.desktop.windows i).x, (s.desktop.windows i).y) →
      ∃ mouse, call.sample s = some mouse ∧
        HeldSincePress (samples (.boot fs pages) calls ++ [(s.desktop, mouse)])
          (s.desktop.windows i).handle := by
  intro s
  have h : RunOk (samples (.boot fs pages) calls) s := (runOk_boot fs pages).run hcalls
  refine ⟨h.invariant.focused, h.invariant.hiddenFocused, h.invariant.capture, h.invariant.hidden,
    fun i hi => ⟨(h.drag i hi).1, (h.drag i hi).2.1⟩, fun call hrender i huse huse' hmove => ?_⟩
  obtain ⟨hdragging, mouse, hsample, hleft⟩ :=
    (stepOk_step h.invariant h.drag call).moves hrender i huse huse' hmove
  exact ⟨mouse, hsample, (h.held i hdragging).append (by simpa using hleft)⟩

/-- User memory with the request of a window of 64 times 48 pixels. -/
def requestEnv : ServiceEnv where
  space := .onePage [64, 0, 0, 0, 48]
  kmalloc := fun _ => true
  executables := []
  log := CString.empty
  pageAvailable := fun _ => true
  mouse := ⟨0, 0, false, false⟩
  key := 0

/-- The state at boot with an empty disk. -/
def emptyBoot : AppServices :=
  .boot (.boot (Fs.Ata.perfect fun _ => Buffer.zero)) fun _ _ => none

/-- A window is created, and the left button is pressed on its title bar. -/
def pressCalls : List SystemCall :=
  [.setDesktopActive true,
    .service requestEnv (some 1) 1 appCapabilityWindow (.windowCreate 0x10000000000 24),
    .routePointer ⟨50, 45, true, false⟩]

/-- The window follows the mouse while the button is held. -/
theorem window_moves_only_while_dragged_pressCalls :
    UndisturbedDrags emptyBoot pressCalls ∧
    (((emptyBoot.run pressCalls).step (.routePointer ⟨60, 50, true, false⟩)).desktop.windows
      0).x = 54 ∧ ∃ mouse, HeldSincePress (samples emptyBoot pressCalls ++
      [((emptyBoot.run pressCalls).desktop, mouse)]) 1 := by
  have hcalls : UndisturbedDrags emptyBoot pressCalls := by decide +kernel
  have hmoved : (((emptyBoot.run pressCalls).step
      (.routePointer ⟨60, 50, true, false⟩)).desktop.windows 0).x = 54 := by decide +kernel
  have hbefore : ((emptyBoot.run pressCalls).desktop.windows 0).x = 44 := by decide +kernel
  obtain ⟨mouse, -, hheld⟩ := (window_moves_only_while_dragged _ _ pressCalls hcalls).2.2.2.2.2
    (.routePointer ⟨60, 50, true, false⟩) rfl 0 (by decide +kernel) (by decide +kernel) (by
      intro heq
      have hx := congrArg Prod.fst heq
      exact absurd (hmoved.symm.trans (hx.trans hbefore)) (by decide))
  exact ⟨hcalls, hmoved, mouse, hheld⟩

/-- The desktop is switched off and on while the window is dragged, and the button is up. -/
def switchCalls : List SystemCall :=
  pressCalls ++ [.setDesktopActive false, .setDesktopActive true,
    .routePointer ⟨50, 45, false, false⟩]

/-- **A window that moves without a button**: it is still marked dragging, but captures nothing. -/
theorem window_moves_without_button :
    ((emptyBoot.run switchCalls).desktop.windows 0).dragging = true ∧
    (emptyBoot.run switchCalls).desktop.pointerCaptureHandle = 0 ∧
    ((emptyBoot.run switchCalls).desktop.windows 0).handle = 1 ∧
    ((emptyBoot.run switchCalls).desktop.windows 0).x = 44 ∧
    (((emptyBoot.run switchCalls).step (.routePointer
      ⟨55, 50, false, false⟩)).desktop.windows 0).x =
      49 := by
  decide +kernel

end Nostalux.App
