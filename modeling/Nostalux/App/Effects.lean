import Nostalux.App.Focus

/-!
# What the calls do to the desktop

* `FileCall.advances`: a file call reaches the counter of handles only.
* `WindowEffect`: the desktop after a call: one window of the caller is opened, presented, polled or
  closed, or none is.
* `windowEffect_dispatch`: every call has one of these effects.
-/

namespace Nostalux.App

/-! ### Files -/

/-- A file call gives out at most the next handle. -/
theorem FileCall.advances {env : AppEnv} {processId : UInt64} {s : AppState} {call : AppCall}
    {result : UInt64 × List UInt8 × AppState} (h : FileCall env processId s call result) :
    Advances s.nextHandle result.2.2.nextHandle := by
  cases h with
  | failed _ next =>
    rcases next with rfl | ⟨hne, rfl⟩
    · exact .inl rfl
    · exact advances_nextHandleAfter hne
  | opened _ hne => exact advances_nextHandleAfter hne
  | read | wroteNothing | wrote | stored | closed => exact .inl rfl

/-! ### Windows -/

namespace AppServices

/-- The snapshot of the mouse that a call of an application publishes. -/
def pollSample (env : ServiceEnv) (processId capabilities : UInt64) (call : ServiceCall)
    (s : AppServices) : Option MouseState :=
  match call with
  | .inputPoll handle userEvent eventSize =>
    match pollWindow env processId capabilities handle userEvent eventSize s with
    | .error _ => none
    | .ok _ => if s.desktop.desktopActive then some env.mouse else none
  | _ => none

/-- The window is one of the process. -/
def Owns (s : AppServices) (processId : UInt64) (i : Fin appWindowCapacity) : Prop :=
  (s.desktop.windows i).inUse = true ∧ (s.desktop.windows i).processId = processId

/-- What a call of an application does to the desktop and to the counter of handles; `sample` is the
snapshot of the mouse that it publishes. -/
inductive WindowEffect (processId : UInt64) (sample : Option MouseState) (s s' : AppServices) : Prop
  | kept (desktop : s'.desktop = s.desktop)
      (next : Advances s.files.nextHandle s'.files.nextHandle) (sample_eq : sample = none)
  | opened (slot : Fin appWindowCapacity) (window : AppWindow) (mouse : MouseState)
      (slot_eq : s.desktop.allocateWindowSlot processId = some slot) (inUse : window.inUse = true)
      (handle : window.handle = s.files.nextHandle) (process : window.processId = processId)
      (dragging : window.dragging = false) (ne_zero : s.files.nextHandle ≠ 0)
      (desktop : s'.desktop = (s.desktop.openWindow slot window mouse).2)
      (next : s'.files.nextHandle = nextHandleAfter s.files.nextHandle) (sample_eq : sample = none)
  | presented (i : Fin appWindowCapacity) (pixels : Memory) (owns : s.Owns processId i)
      (desktop : s'.desktop = s.desktop.setWindow i { s.desktop.windows i with pixels })
      (next : s'.files.nextHandle = s.files.nextHandle) (sample_eq : sample = none)
  | closed (i : Fin appWindowCapacity) (owns : s.Owns processId i)
      (desktop : s'.desktop = s.desktop.closeWindow i)
      (next : s'.files.nextHandle = s.files.nextHandle) (sample_eq : sample = none)
  | polled (i : Fin appWindowCapacity) (mouse : MouseState) (window : AppWindow)
      (owns : s.Owns processId i)
      (queue : window = (s.desktop.routePointer mouse).windows i ∨
        ∃ event, ((s.desktop.routePointer mouse).windows i).dequeueInput = some (event, window))
      (desktop : s'.desktop = (s.desktop.routePointer mouse).setWindow i window)
      (next : s'.files.nextHandle = s.files.nextHandle)
      (sample_eq : sample = if s.desktop.desktopActive then some mouse else none)

theorem WindowEffect.refl (processId : UInt64) (s : AppServices) :
    WindowEffect processId none s s :=
  .kept rfl (.inl rfl) rfl

/-- A handle finds windows of the caller only. -/
theorem owns_of_findWindow {s : AppServices} {processId handle : UInt64} {i : Fin appWindowCapacity}
    (h : s.desktop.findWindow processId handle = some i) : s.Owns processId i :=
  ⟨(Desktop.findWindow_eq_some h).2.2.1, (Desktop.findWindow_eq_some h).2.2.2.1⟩

variable (env : ServiceEnv)

section

variable (processId capabilities userRequest requestSize : UInt64) (s : AppServices)

/-- The window is opened behind all checks. -/
theorem windowEffect_dispatchWindowCreate : WindowEffect processId none s
      (dispatchWindowCreate env processId capabilities userRequest requestSize s).2 := by
  unfold dispatchWindowCreate
  dsimp only
  split
  · exact .refl processId s
  split
  · exact .refl processId s
  split
  · exact .refl processId s
  split
  · exact .refl processId s
  split
  · exact .refl processId s
  split
  · exact .refl processId s
  split
  · exact .refl processId s
  next slot hslot =>
    split
    · exact .refl processId s
    rcases allocateHandle_cases s.files with hfail | ⟨hne, hgiven⟩
    · simp only [hfail, if_true]
      exact .refl processId s
    · simp only [hgiven, if_neg hne]
      split
      next desktop hopen =>
        exact .opened slot _ env.mouse hslot rfl rfl rfl rfl hne (by rw [hopen]) rfl rfl
      next desktop hopen =>
        exact .opened slot _ env.mouse hslot rfl rfl rfl rfl hne (by rw [hopen]) rfl rfl

theorem windowEffect_dispatchWindowPresent : WindowEffect processId none s
      (dispatchWindowPresent env processId capabilities userRequest requestSize s).2 := by
  unfold dispatchWindowPresent
  dsimp only
  split
  · exact .refl processId s
  split
  · exact .refl processId s
  split
  · exact .refl processId s
  split
  · exact .refl processId s
  next i hfind =>
    split
    · exact .refl processId s
    split
    · exact .refl processId s
    split
    · exact .presented i _ (owns_of_findWindow hfind) rfl rfl rfl
    · exact .presented i _ (owns_of_findWindow hfind) rfl rfl rfl

end

theorem windowEffect_dispatchWindowClose (processId capabilities handle : UInt64)
    (s : AppServices) :
    WindowEffect processId none s (dispatchWindowClose processId capabilities handle s).2 := by
  unfold dispatchWindowClose
  split
  · exact .refl processId s
  split
  · exact .refl processId s
  next i hfind => exact .closed i (owns_of_findWindow hfind) rfl rfl rfl

/-- A poll that passes its checks is for a window of the caller. -/
theorem findWindow_of_pollWindow {env : ServiceEnv}
    {processId capabilities handle userEvent eventSize : UInt64} {s : AppServices}
    {i : Fin appWindowCapacity}
    (h : pollWindow env processId capabilities handle userEvent eventSize s = .ok i) :
    hasCapability capabilities appCapabilityInput = true ∧
      s.desktop.findWindow processId handle = some i := by
  rw [pollWindow] at h
  split at h
  · cases h
  rename_i hcap
  split at h
  · cases h
  rename_i j hfind
  split at h
  · cases h
  obtain rfl := Except.ok.inj h
  exact ⟨by simpa using hcap, hfind⟩

/-- The pointer is routed before an event is taken off the queue. -/
theorem windowEffect_dispatchInputPoll
    (processId capabilities handle userEvent eventSize : UInt64) (s : AppServices) :
    WindowEffect processId
      (pollSample env processId capabilities (.inputPoll handle userEvent eventSize) s) s
      (dispatchInputPoll env processId capabilities handle userEvent eventSize s).2.2 := by
  unfold dispatchInputPoll pollSample
  dsimp only
  cases hpoll : pollWindow env processId capabilities handle userEvent eventSize s with
  | error status => exact .refl processId s
  | ok i =>
    have howns := owns_of_findWindow (findWindow_of_pollWindow hpoll).2
    have hself : s.desktop.routePointer env.mouse = (s.desktop.routePointer env.mouse).setWindow i
        ((s.desktop.routePointer env.mouse).windows i) := by
      rw [Desktop.setWindow, Function.update_eq_self]
    dsimp only
    cases hdequeue : ((s.desktop.routePointer env.mouse).windows i).dequeueInput with
    | some dequeued =>
      exact .polled i env.mouse dequeued.2 howns (.inr ⟨dequeued.1, hdequeue⟩) rfl rfl rfl
    | none =>
      refine .polled i env.mouse _ howns (.inl rfl) ?_ ?_ rfl
      · rw [← hself]
        dsimp only
        split <;> rfl
      · dsimp only
        split <;> rfl

/-! ### Memory -/

/-- Everything but the pages and the memory records is as it was. -/
def KeepsRest (s s' : AppServices) : Prop := s'.files = s.files ∧ s'.desktop = s.desktop

variable (s : AppServices)

theorem KeepsRest.refl : KeepsRest s s := ⟨rfl, rfl⟩

theorem KeepsRest.trans {s s' s'' : AppServices} (h : KeepsRest s s') (h' : KeepsRest s' s'') :
    KeepsRest s s'' :=
  ⟨h'.1.trans h.1, h'.2.trans h.2⟩

theorem KeepsRest.windowEffect {s s' : AppServices} (h : KeepsRest s s') (processId : UInt64) :
    WindowEffect processId none s s' :=
  .kept h.2 (.inl (by rw [h.1])) rfl

variable (space : SpaceId)

theorem keepsRest_clearPages (page : UInt64) (count : ℕ) :
    KeepsRest s (s.clearPages space page count) := by
  induction count generalizing s page with
  | zero => exact .refl s
  | succ count ih =>
    have hset : KeepsRest s (s.setPage space page none) := ⟨rfl, rfl⟩
    exact hset.trans (ih _ _)

theorem keepsRest_pagingUserUnmapAnonymous
    (address size : UInt64) : KeepsRest s (s.pagingUserUnmapAnonymous space address size).2 := by
  unfold pagingUserUnmapAnonymous
  dsimp only
  split
  · exact keepsRest_clearPages ..
  · exact .refl s

/-- The pages that were mapped are unmapped again if the memory does not suffice. -/
theorem keepsRest_mapPages (address : UInt64) (writable : Bool)
    (left : ℕ) (mapped : UInt64) (s : AppServices) :
    KeepsRest s (mapPages env space address writable left mapped s).2 := by
  induction left generalizing mapped s with
  | zero => exact .refl s
  | succ left ih =>
    rw [mapPages]
    split
    · split
      · exact keepsRest_pagingUserUnmapAnonymous ..
      · exact .refl s
    · have hset : KeepsRest s (s.setPage space (address + mapped) (some writable)) := ⟨rfl, rfl⟩
      exact hset.trans (ih _ _)

theorem keepsRest_dispatchMemoryMap
    (processId capabilities byteCount protectionFlags : UInt64) (s : AppServices) :
    KeepsRest s (dispatchMemoryMap env space processId capabilities byteCount protectionFlags
      s).2 := by
  unfold dispatchMemoryMap
  dsimp only
  split
  · exact .refl s
  split
  · exact .refl s
  split
  · exact .refl s
  next mappedSize _ =>
    split
    · exact .refl s
    split
    · exact .refl s
    have hmap := keepsRest_mapPages env space (s.findMemoryRange space mappedSize)
      (protectionFlags.toUInt32 &&& appMemoryWrite ≠ 0) (mappedSize.toNat / 4096) 0 s
    split
    next heq =>
      rw [heq] at hmap
      exact hmap
    next heq =>
      rw [heq] at hmap
      exact hmap

theorem keepsRest_dispatchMemoryUnmap
    (processId capabilities address byteCount : UInt64) (s : AppServices) :
    KeepsRest s (dispatchMemoryUnmap space processId capabilities address byteCount s).2 := by
  unfold dispatchMemoryUnmap
  split
  · exact .refl s
  split
  · exact .refl s
  next mappedSize _ =>
    split
    · exact .refl s
    split
    · exact .refl s
    have hunmap := keepsRest_pagingUserUnmapAnonymous s space address mappedSize
    split
    next heq =>
      rw [heq] at hunmap
      exact hunmap
    next heq =>
      rw [heq] at hunmap
      exact hunmap

/-- **What a call of an application does to the desktop.** -/
theorem windowEffect_dispatch {processId : UInt64}
    (hprocess : processId ≠ 0) (capabilities : UInt64) (call : ServiceCall) (s : AppServices) :
    WindowEffect processId (pollSample env processId capabilities call s) s
      (dispatch env (some space) processId capabilities call s).2 := by
  unfold dispatch
  dsimp only
  rw [if_neg hprocess]
  cases call with
  | file call => exact .kept rfl (fileCall_appServicesDispatch ..).advances rfl
  | windowCreate userRequest requestSize => exact windowEffect_dispatchWindowCreate ..
  | windowPresent userRequest requestSize => exact windowEffect_dispatchWindowPresent ..
  | windowClose handle => exact windowEffect_dispatchWindowClose ..
  | inputPoll handle userEvent eventSize => exact windowEffect_dispatchInputPoll ..
  | memoryMap byteCount protectionFlags =>
    exact (keepsRest_dispatchMemoryMap ..).windowEffect processId
  | memoryUnmap address byteCount =>
    exact (keepsRest_dispatchMemoryUnmap ..).windowEffect processId

/-! ### The end of a process -/

theorem keepsRest_releaseMemory (processId : UInt64) : KeepsRest s (s.releaseMemory processId) := by
  unfold releaseMemory
  generalize List.finRange appMemoryRecordCapacity = l
  induction l generalizing s with
  | nil => exact .refl s
  | cons i l ih =>
    refine KeepsRest.trans ?_ (ih _)
    dsimp only
    split
    · have hunmap := keepsRest_pagingUserUnmapAnonymous s (s.memory i).addressSpace
        (s.memory i).address (s.memory i).mappedSize
      exact ⟨hunmap.1, hunmap.2⟩
    · exact .refl s

/-- One step of the loop over the windows of a process that ends. -/
def closeOwned (processId : UInt64) (d : Desktop) (i : Fin appWindowCapacity) : Desktop :=
  if (d.windows i).inUse && (d.windows i).processId = processId then d.closeWindow i else d

/-- The desktop after the end of a process. -/
theorem desktop_releaseProcess {processId : UInt64} (h : processId ≠ 0) :
    (s.releaseProcess processId).desktop =
      (List.finRange appWindowCapacity).foldl (closeOwned processId)
        (if s.desktop.launchFocusProcessId = processId then
          { s.desktop with launchFocusProcessId := 0 }
        else s.desktop) := by
  unfold releaseProcess
  rw [if_neg h]
  rw [(keepsRest_releaseMemory _ processId).2]
  split <;> rfl

/-- The end of a process gives no handle back. -/
theorem nextHandle_releaseProcess (processId : UInt64) :
    (s.releaseProcess processId).files.nextHandle = s.files.nextHandle := by
  unfold releaseProcess
  split
  · rfl
  rw [(keepsRest_releaseMemory _ processId).1]
  split <;> rfl

end AppServices

end Nostalux.App
