import Mathlib.Tactic
import Nostalux.Library.Memory

/-!
# `kernel/app_services.c`: windows and the pointer

The table `g_windows` is a function on its indices, and a pointer to a window is an index.  The
coordinates of windows and of the mouse are integers.  The queue of pending keys is not part of the
state.
-/

namespace Nostalux.App

/-! ### Constants -/

/-- `APP_WINDOW_CAPACITY`. -/
abbrev appWindowCapacity : ℕ := 8

/-- `APP_WINDOWS_PER_PROCESS`. -/
abbrev appWindowsPerProcess : ℕ := 2

/-- `APP_WINDOW_BORDER`. -/
abbrev appWindowBorder : ℤ := 2

/-- `APP_WINDOW_TITLE_HEIGHT`. -/
abbrev appWindowTitleHeight : ℤ := 22

/-- `APP_INPUT_QUEUE_CAPACITY`. -/
abbrev appInputQueueCapacity : ℕ := 8

/-- `APP_DESKTOP_BOTTOM_MARGIN`. -/
abbrev appDesktopBottomMargin : ℤ := 40

/-- `APP_INPUT_FLAG_PRESSED`. -/
abbrev appInputFlagPressed : UInt32 := 1

/-- `APP_INPUT_FLAG_RELEASED`. -/
abbrev appInputFlagReleased : UInt32 := 2

/-- `APP_POINTER_BUTTON_LEFT`. -/
abbrev appPointerButtonLeft : UInt32 := 1

/-- `APP_POINTER_BUTTON_RIGHT`. -/
abbrev appPointerButtonRight : UInt32 := 2

/-- `enum app_input_type`. -/
inductive AppInputType
  | none
  | key
  | pointerMotion
  | pointerButton
  | windowClose
  deriving DecidableEq

/-- `struct app_input_event`. -/
structure AppInputEvent where
  type : AppInputType
  flags : UInt32
  x : ℤ
  y : ℤ
  key : UInt32
  button : UInt32
  deriving DecidableEq

/-- A cleared event. -/
def AppInputEvent.zero : AppInputEvent := ⟨.none, 0, 0, 0, 0, 0⟩

/-- `MouseState`. -/
structure MouseState where
  x : ℤ
  y : ℤ
  leftButton : Bool
  rightButton : Bool
  deriving DecidableEq

/-- `struct app_window_record`; the queue holds the first `input_count` events. -/
structure AppWindow where
  inUse : Bool
  handle : UInt64
  processId : UInt64
  width : UInt32
  height : UInt32
  x : ℤ
  y : ℤ
  zOrder : UInt64
  title : List UInt8
  /-- The bytes of the retained surface. -/
  pixels : Memory
  inputQueue : List AppInputEvent
  dragging : Bool
  dragOffsetX : ℤ
  dragOffsetY : ℤ

/-- A cleared record. -/
def AppWindow.zero : AppWindow :=
  ⟨false, 0, 0, 0, 0, 0, 0, 0, [], fun _ => 0, [], false, 0, 0⟩

/-- The variables of the windows and of the pointer. -/
structure Desktop where
  windows : Fin appWindowCapacity → AppWindow
  nextZOrder : UInt64
  focusedWindowHandle : UInt64
  hiddenFocusedWindowHandle : UInt64
  launchFocusProcessId : UInt64
  pointerCaptureHandle : UInt64
  pointerGestureConsumed : Bool
  desktopActive : Bool
  windowsHidden : Bool
  inputMouseInitialized : Bool
  inputLastMouse : MouseState

/-- The variables at boot. -/
def Desktop.boot : Desktop where
  windows := fun _ => .zero
  nextZOrder := 1
  focusedWindowHandle := 0
  hiddenFocusedWindowHandle := 0
  launchFocusProcessId := 0
  pointerCaptureHandle := 0
  pointerGestureConsumed := false
  desktopActive := false
  windowsHidden := false
  inputMouseInitialized := false
  inputLastMouse := ⟨0, 0, false, false⟩

/-! ### The queue of a window -/

/-- `queue_window_input`. -/
def AppWindow.queueInput (window : AppWindow) (event : AppInputEvent) : AppWindow :=
  if !window.inUse then window
  else if event.type = .windowClose then { window with inputQueue := [event] }
  else if window.inputQueue.any fun queued => queued.type = .windowClose then window
  else if event.type = .pointerMotion ∧
      (window.inputQueue.getLast?.map (·.type)) = some .pointerMotion then
    { window with inputQueue := window.inputQueue.dropLast ++ [event] }
  else if window.inputQueue.length = appInputQueueCapacity then
    if event.type = .pointerMotion then window
    else { window with inputQueue := window.inputQueue.tail ++ [event] }
  else { window with inputQueue := window.inputQueue ++ [event] }

/-- `dequeue_window_input`. -/
def AppWindow.dequeueInput (window : AppWindow) : Option (AppInputEvent × AppWindow) :=
  match window.inputQueue with
  | [] => none
  | event :: rest => some (event, { window with inputQueue := rest })

/-! ### Geometry -/

namespace AppWindow

/-- The point lies in the window, with its title bar and borders. -/
def contains (window : AppWindow) (x y : ℤ) : Bool :=
  ¬(x < window.x ∨ x ≥ window.x + (window.width.toNat + 4) ∨ y < window.y ∨
    y ≥ window.y + (window.height.toNat + appWindowTitleHeight + 4))

/-- `point_in_close_button`. -/
def pointInCloseButton (window : AppWindow) (x y : ℤ) : Bool :=
  let left := window.x + window.width.toNat - 18
  let top := window.y + 3
  x ≥ left ∧ x < left + 16 ∧ y ≥ top ∧ y < top + 16

/-- `point_in_title_bar`. -/
def pointInTitleBar (window : AppWindow) (x y : ℤ) : Bool :=
  x ≥ window.x ∧ x < window.x + window.width.toNat + 4 ∧ y ≥ window.y ∧
    y < window.y + appWindowTitleHeight + 2

/-- A drag begins at the point. -/
def startDrag (window : AppWindow) (x y : ℤ) : AppWindow :=
  { window with dragging := true, dragOffsetX := x - window.x, dragOffsetY := y - window.y }

/-- A drag goes on to the point. -/
def dragTo (window : AppWindow) (x y : ℤ) : AppWindow :=
  { window with x := x - window.dragOffsetX, y := y - window.dragOffsetY }

/-- A drag ends. -/
def stopDrag (window : AppWindow) : AppWindow := { window with dragging := false }

end AppWindow

/-! ### Searching and raising -/

namespace Desktop

/-- A store to one record. -/
def setWindow (d : Desktop) (i : Fin appWindowCapacity) (window : AppWindow) : Desktop :=
  { d with windows := Function.update d.windows i window }

/-- `window_count`. -/
def windowCount (d : Desktop) (processId : UInt64) : ℕ :=
  (List.finRange appWindowCapacity).countP fun i =>
    (d.windows i).inUse && (d.windows i).processId = processId

/-- `find_window`. -/
def findWindow (d : Desktop) (processId handle : UInt64) : Option (Fin appWindowCapacity) :=
  if processId = 0 ∨ handle = 0 then none
  else
    (List.finRange appWindowCapacity).find? fun i =>
      (d.windows i).inUse && (d.windows i).processId = processId && (d.windows i).handle = handle

/-- `find_window_handle`. -/
def findWindowHandle (d : Desktop) (handle : UInt64) : Option (Fin appWindowCapacity) :=
  if handle = 0 then none
  else
    (List.finRange appWindowCapacity).find? fun i =>
      (d.windows i).inUse && (d.windows i).handle = handle

/-- One step of the search for the topmost window. -/
def pickTop (d : Desktop) (test : AppWindow → Bool) (top : Option (Fin appWindowCapacity))
    (i : Fin appWindowCapacity) : Option (Fin appWindowCapacity) :=
  if !test (d.windows i) then top
  else
    match top with
    | none => some i
    | some j => if (d.windows i).zOrder > (d.windows j).zOrder then some i else top

/-- The first of the windows with the greatest `z_order` among those that pass the test. -/
def topmost (d : Desktop) (test : AppWindow → Bool) : Option (Fin appWindowCapacity) :=
  (List.finRange appWindowCapacity).foldl (d.pickTop test) none

/-- `top_window_at`. -/
def topWindowAt (d : Desktop) (x y : ℤ) : Option (Fin appWindowCapacity) :=
  if d.windowsHidden then none else d.topmost fun window => window.inUse && window.contains x y

/-- `raise_window`. -/
def raiseWindow (d : Desktop) (i : Fin appWindowCapacity) : Bool × Desktop :=
  if !(d.windows i).inUse ∨ d.nextZOrder = 0 then (false, d)
  else
    (true, { d.setWindow i { d.windows i with zOrder := d.nextZOrder } with
      nextZOrder := if d.nextZOrder = 0xFFFFFFFFFFFFFFFF then 0 else d.nextZOrder + 1 })

/-- `focus_window`. -/
def focusWindow (d : Desktop) (i : Fin appWindowCapacity) : Bool × Desktop :=
  match { d with launchFocusProcessId := 0 }.raiseWindow i with
  | (false, d) => (false, d)
  | (true, d) => (true, { d with focusedWindowHandle := (d.windows i).handle })

/-- `place_window_in_background`. -/
def placeWindowInBackground (d : Desktop) (i : Fin appWindowCapacity) : Bool × Desktop :=
  match d.raiseWindow i with
  | (false, d) => (false, d)
  | (true, d) =>
    match d.findWindowHandle d.focusedWindowHandle with
    | none => (true, d)
    | some focused => if focused = i then (true, d) else d.raiseWindow focused

/-- `allocate_window_slot`. -/
def allocateWindowSlot (d : Desktop) (processId : UInt64) : Option (Fin appWindowCapacity) :=
  if d.windowCount processId ≥ appWindowsPerProcess then none
  else (List.finRange appWindowCapacity).find? fun i => !(d.windows i).inUse

/-- The end of `close_window`: without windows, nothing is focused or captured. -/
def closeLast (d : Desktop) : Desktop :=
  if (List.finRange appWindowCapacity).any fun i => (d.windows i).inUse then d
  else
    { d with focusedWindowHandle := 0, pointerCaptureHandle := 0, inputMouseInitialized := false }

/-- The handle of the window with the greatest `z_order`, or zero. -/
def newestHandle (d : Desktop) : UInt64 :=
  match d.topmost (·.inUse) with
  | none => 0
  | some newest => (d.windows newest).handle

/-- The variables of `close_window` that hold the handle of the closed window. -/
def forgetHandle (d : Desktop) (closedHandle : UInt64) : Desktop :=
  { d with
    pointerCaptureHandle :=
      if d.pointerCaptureHandle = closedHandle then 0 else d.pointerCaptureHandle
    launchFocusProcessId :=
      if d.focusedWindowHandle = closedHandle then 0 else d.launchFocusProcessId
    focusedWindowHandle :=
      if d.focusedWindowHandle = closedHandle then d.newestHandle else d.focusedWindowHandle
    hiddenFocusedWindowHandle :=
      if d.hiddenFocusedWindowHandle = closedHandle then 0 else d.hiddenFocusedWindowHandle }

/-- `close_window`. -/
def closeWindow (d : Desktop) (i : Fin appWindowCapacity) : Desktop :=
  if !(d.windows i).inUse then d
  else ((d.setWindow i .zero).forgetHandle (d.windows i).handle).closeLast

/-- A new window is focused if the launch of its process was authorized to, and placed in the
background otherwise. -/
def placeWindow (d : Desktop) (i : Fin appWindowCapacity) (processId : UInt64) : Bool × Desktop :=
  if d.launchFocusProcessId = processId then
    { d with windowsHidden := false, hiddenFocusedWindowHandle := 0 }.focusWindow i
  else d.placeWindowInBackground i

/-- The first window takes the state of the mouse. -/
def noteMouse (d : Desktop) (mouse : MouseState) : Desktop :=
  if !d.inputMouseInitialized then { d with inputLastMouse := mouse, inputMouseInitialized := true }
  else d

/-- The record of a new window. -/
def newWindow (i : Fin appWindowCapacity) (handle processId : UInt64) (width height : UInt32)
    (title : List UInt8) : AppWindow :=
  { AppWindow.zero with
    inUse := true
    handle := handle
    processId := processId
    width := width
    height := height
    x := 44 + i.val * 28
    y := 42 + i.val * 24
    title := title }

/-- The end of `dispatch_window_create`: the record is filled in and placed.  The first component
says whether the window was placed. -/
def openWindow (d : Desktop) (i : Fin appWindowCapacity) (window : AppWindow) (mouse : MouseState) :
    Bool × Desktop :=
  match ((d.setWindow i window).noteMouse mouse).placeWindow i window.processId with
  | (true, d) => (true, d)
  | (false, d) => (false, d.closeWindow i)

/-! ### The pointer -/

/-- The window that a press of a button goes to; the press begins a gesture if there is none and the
other button was up. -/
def pressTarget (d : Desktop) (otherButton : Bool) (x y : ℤ) :
    Option (Fin appWindowCapacity) × Desktop :=
  if d.pointerGestureConsumed then (d.findWindowHandle d.pointerCaptureHandle, d)
  else if !otherButton then
    match d.topWindowAt x y with
    | none => (none, d)
    | some i =>
      let d := (d.focusWindow i).2
      (some i, { d with
        pointerCaptureHandle := (d.windows i).handle
        pointerGestureConsumed := true })
  else (none, d)

/-- What a branch of `publish_pointer_event` leaves to the end of the function. -/
structure PointerOutcome where
  desktop : Desktop
  target : Option (Fin appWindowCapacity)
  event : AppInputEvent
  chromeGesture : Bool

/-- The event of a button. -/
def buttonEvent (pressed : Bool) (button : UInt32) : AppInputEvent :=
  { AppInputEvent.zero with
    type := .pointerButton
    flags := if pressed then appInputFlagPressed else appInputFlagReleased
    button := button }

/-- The left button that was seen last. -/
def recordLeft (d : Desktop) (leftButton : Bool) : Desktop :=
  { d with inputLastMouse := { d.inputLastMouse with leftButton := leftButton } }

/-- The right button that was seen last. -/
def recordRight (d : Desktop) (rightButton : Bool) : Desktop :=
  { d with inputLastMouse := { d.inputLastMouse with rightButton := rightButton } }

/-- The left button changed. -/
def publishLeft (d : Desktop) (mouse : MouseState) : PointerOutcome :=
  let event := buttonEvent mouse.leftButton appPointerButtonLeft
  if mouse.leftButton then
    match d.pressTarget d.inputLastMouse.rightButton mouse.x mouse.y with
    | (none, d) => ⟨d.recordLeft true, none, event, false⟩
    | (some i, d) =>
      let window := d.windows i
      if !window.pointInCloseButton mouse.x mouse.y ∧ window.pointInTitleBar mouse.x mouse.y then
        ⟨(d.setWindow i (window.startDrag mouse.x mouse.y)).recordLeft true, some i, event, true⟩
      else ⟨d.recordLeft true, some i, event, false⟩
  else
    match d.findWindowHandle d.pointerCaptureHandle with
    | none => ⟨d.recordLeft false, none, event, false⟩
    | some i =>
      if (d.windows i).dragging then
        ⟨(d.setWindow i (d.windows i).stopDrag).recordLeft false, some i, event, true⟩
      else ⟨d.recordLeft false, some i, event, false⟩

/-- The right button changed, and the left one did not. -/
def publishRight (d : Desktop) (mouse : MouseState) : PointerOutcome :=
  let event := buttonEvent mouse.rightButton appPointerButtonRight
  if mouse.rightButton then
    let (target, d) := d.pressTarget d.inputLastMouse.leftButton mouse.x mouse.y
    ⟨d.recordRight true, target, event, false⟩
  else ⟨d.recordRight false, d.findWindowHandle d.pointerCaptureHandle, event, false⟩

/-- The window under a motion. -/
def motionTarget (d : Desktop) (mouse : MouseState) : Option (Fin appWindowCapacity) :=
  match d.findWindowHandle d.pointerCaptureHandle with
  | some i => some i
  | none => if !mouse.leftButton ∧ !mouse.rightButton then d.topWindowAt mouse.x mouse.y else none

/-- Only the position changed. -/
def publishMotion (d : Desktop) (mouse : MouseState) : PointerOutcome :=
  let event := { AppInputEvent.zero with type := .pointerMotion }
  match d.motionTarget mouse with
  | none => ⟨d, none, event, false⟩
  | some i =>
    let window := d.windows i
    if window.dragging then
      ⟨d.setWindow i (window.dragTo mouse.x mouse.y), some i, event, true⟩
    else ⟨d, some i, event, false⟩

/-- A snapshot without buttons ends the gesture. -/
def endGesture (d : Desktop) (mouse : MouseState) : Desktop :=
  if !mouse.leftButton ∧ !mouse.rightButton then
    { d with pointerCaptureHandle := 0, pointerGestureConsumed := false }
  else d

/-- The end of `publish_pointer_event`. -/
def deliverPointer (outcome : PointerOutcome) (leftChanged : Bool) (mouse : MouseState) : Desktop :=
  let d := outcome.desktop
  let d := { d with inputLastMouse := { d.inputLastMouse with x := mouse.x, y := mouse.y } }
  let d := d.endGesture mouse
  match outcome.target with
  | none => d
  | some i =>
    let window := d.windows i
    let event := { outcome.event with
      x := mouse.x - (window.x + appWindowBorder)
      y := mouse.y - (window.y + appWindowTitleHeight + appWindowBorder) }
    let event :=
      if leftChanged ∧ mouse.leftButton ∧ window.pointInCloseButton mouse.x mouse.y then
        { AppInputEvent.zero with type := .windowClose }
      else event
    if outcome.chromeGesture then d else d.setWindow i (window.queueInput event)

/-- `publish_pointer_event`. -/
def publishPointerEvent (d : Desktop) (mouse : MouseState) : Desktop :=
  if !d.inputMouseInitialized then
    { d with inputLastMouse := mouse, inputMouseInitialized := true }.endGesture mouse
  else
    let leftChanged : Bool := mouse.leftButton ≠ d.inputLastMouse.leftButton
    let rightChanged : Bool := mouse.rightButton ≠ d.inputLastMouse.rightButton
    let moved : Bool := mouse.x ≠ d.inputLastMouse.x ∨ mouse.y ≠ d.inputLastMouse.y
    if !leftChanged ∧ !rightChanged ∧ !moved then d
    else
      deliverPointer
        (if leftChanged then d.publishLeft mouse
          else if rightChanged then d.publishRight mouse
          else d.publishMotion mouse)
        leftChanged mouse

/-- `app_services_route_pointer`. -/
def routePointer (d : Desktop) (mouse : MouseState) : Desktop :=
  if !d.desktopActive then d else d.publishPointerEvent mouse

/-! ### The desktop -/

/-- `app_services_authorize_launch_focus`. -/
def authorizeLaunchFocus (d : Desktop) (processId : UInt64) : Bool × Desktop :=
  if !d.desktopActive ∨ processId = 0 then (false, d)
  else (true, { d with launchFocusProcessId := processId })

/-- `queue_all_window_close_events`. -/
def queueAllWindowCloseEvents (d : Desktop) : Desktop :=
  { d with windows := fun i =>
    (d.windows i).queueInput { AppInputEvent.zero with type := .windowClose } }

/-- `app_services_request_all_windows_close`. -/
def requestAllWindowsClose (d : Desktop) : Desktop :=
  if d.desktopActive then d.queueAllWindowCloseEvents else d

/-- `app_services_set_windows_hidden`. -/
def setWindowsHidden (d : Desktop) (hidden : Bool) : Desktop :=
  if !d.desktopActive ∨ d.windowsHidden = hidden then d
  else if hidden then
    { d with
      launchFocusProcessId := 0
      hiddenFocusedWindowHandle := d.focusedWindowHandle
      focusedWindowHandle := 0
      windowsHidden := true }
  else
    { d with
      launchFocusProcessId := 0
      focusedWindowHandle :=
        match d.findWindowHandle d.hiddenFocusedWindowHandle with
        | none => 0
        | some previous => (d.windows previous).handle
      hiddenFocusedWindowHandle := 0
      windowsHidden := false }

/-- `app_services_set_desktop_active`. -/
def setDesktopActive (d : Desktop) (active : Bool) : Desktop :=
  let d := { d with desktopActive := active, inputMouseInitialized := false }
  if active then d
  else
    { d with
      focusedWindowHandle := 0
      hiddenFocusedWindowHandle := 0
      launchFocusProcessId := 0
      pointerCaptureHandle := 0
      pointerGestureConsumed := false
      windowsHidden := false }.queueAllWindowCloseEvents

/-- `app_services_blur_keyboard_focus`. -/
def blurKeyboardFocus (d : Desktop) : Desktop :=
  let d := { d with launchFocusProcessId := 0 }
  if d.focusedWindowHandle ≠ 0 ∨ d.hiddenFocusedWindowHandle ≠ 0 then
    { d with focusedWindowHandle := 0, hiddenFocusedWindowHandle := 0 }
  else d

/-- The part of `app_services_render_overlay` that moves a window back into the screen. -/
def clampWindow (window : AppWindow) (screenWidth screenHeight : ℤ) : AppWindow :=
  let totalWidth : ℤ := window.width.toNat + 4
  let totalHeight : ℤ := window.height.toNat + appWindowTitleHeight + 4
  let desktopHeight :=
    if screenHeight > appDesktopBottomMargin then screenHeight - appDesktopBottomMargin
    else screenHeight
  let clamp (position total size : ℤ) : ℤ :=
    if total ≤ size then
      let position := if position < 0 then 0 else position
      if position + total > size then size - total else position
    else position
  { window with
    x := clamp window.x totalWidth screenWidth
    y := clamp window.y totalHeight desktopHeight }

/-- The window with the least `z_order` above the given one. -/
def nextVisible (d : Desktop) (previousZ : UInt64) : Option (Fin appWindowCapacity) :=
  (List.finRange appWindowCapacity).foldl (fun next i =>
    if !(d.windows i).inUse ∨ (d.windows i).zOrder ≤ previousZ then next
    else
      match next with
      | none => some i
      | some j => if (d.windows i).zOrder < (d.windows j).zOrder then some i else next) none

/-- The loop of `app_services_render_overlay` over the windows that are left to draw. -/
def renderFrom (screenWidth screenHeight : ℤ) : ℕ → UInt64 → Desktop → Desktop
  | 0, _, d => d
  | visible + 1, previousZ, d =>
    match d.nextVisible previousZ with
    | none => d
    | some i =>
      renderFrom screenWidth screenHeight visible (d.windows i).zOrder
        (d.setWindow i (clampWindow (d.windows i) screenWidth screenHeight))

/-- `app_services_render_overlay`, without what it draws. -/
def renderOverlay (d : Desktop) (screenWidth screenHeight : ℤ) : Desktop :=
  if !d.desktopActive ∨ d.windowsHidden then d
  else renderFrom screenWidth screenHeight appWindowCapacity 0 d

end Desktop

end Nostalux.App
