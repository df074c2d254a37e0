import Nostalux.App.Files
import Nostalux.App.Windows

/-!
# `kernel/app_services.c`: memory mappings, the dispatch of calls and the desktop

The state is that of the file calls, the desktop, the table `g_memory` and, of each address space,
the pages that are mapped.  What else a call depends on is its environment `ServiceEnv`.

`SystemCall` has the entry points of the file; a run is a list of them.
-/

namespace Nostalux.App

/-! ### Constants -/

/-- `APP_CAPABILITY_INPUT`. -/
abbrev appCapabilityInput : UInt64 := 16

/-- `APP_CAPABILITY_WINDOW`. -/
abbrev appCapabilityWindow : UInt64 := 32

/-- `APP_CAPABILITY_MEMORY`. -/
abbrev appCapabilityMemory : UInt64 := 64

/-- `APP_MEMORY_RECORD_CAPACITY`. -/
abbrev appMemoryRecordCapacity : ℕ := 128

/-- `APP_MEMORY_RECORDS_PER_PROCESS`. -/
abbrev appMemoryRecordsPerProcess : ℕ := 8

/-- `APP_MEMORY_MAP_MAX`. -/
abbrev appMemoryMapMax : UInt64 := 1048576

/-- `APP_MEMORY_PROCESS_MAX`. -/
abbrev appMemoryProcessMax : UInt64 := 4194304

/-- `PAGING_PAGE_SIZE`. -/
abbrev pagingPageSize : UInt64 := 4096

/-- `APP_MEMORY_ARENA_BASE`. -/
abbrev appMemoryArenaBase : UInt64 := 0x10010000000

/-- `APP_MEMORY_ARENA_LIMIT`. -/
abbrev appMemoryArenaLimit : UInt64 := 0x10014000000

/-- `APP_MEMORY_READ`. -/
abbrev appMemoryRead : UInt32 := 1

/-- `APP_MEMORY_WRITE`. -/
abbrev appMemoryWrite : UInt32 := 2

/-- `APP_WINDOW_TITLE_MAX`. -/
abbrev appWindowTitleMax : UInt64 := 31

/-- `APP_WINDOW_MAX_STRIDE_PIXELS`. -/
abbrev appWindowMaxStridePixels : UInt32 := 1024

/-! ### The state -/

/-- A pointer to an address space. -/
abbrev SpaceId := ℕ

/-- `struct app_memory_record`. -/
structure AppMemoryRecord where
  inUse : Bool
  processId : UInt64
  address : UInt64
  mappedSize : UInt64
  addressSpace : SpaceId
  deriving DecidableEq

/-- A cleared record. -/
def AppMemoryRecord.zero : AppMemoryRecord := ⟨false, 0, 0, 0, 0⟩

/-- The state of the services. -/
structure AppServices where
  files : AppState
  desktop : Desktop
  memory : Fin appMemoryRecordCapacity → AppMemoryRecord
  /-- The page at an address of a space: not mapped, or mapped with or without write permission. -/
  pages : SpaceId → UInt64 → Option Bool

/-- What a call sees of the rest of the kernel. -/
structure ServiceEnv extends AppEnv where
  /-- Whether there is memory for a page at the address. -/
  pageAvailable : UInt64 → Bool
  /-- `mouse_get_state`. -/
  mouse : MouseState
  /-- `keyboard_poll_char`. -/
  key : UInt8

/-- A 32-bit field of a structure in memory. -/
def loadU32 (m : Memory) (off : ℕ) : UInt32 :=
  (m off).toUInt32 ||| ((m (off + 1)).toUInt32 <<< 8) ||| ((m (off + 2)).toUInt32 <<< 16) |||
    ((m (off + 3)).toUInt32 <<< 24)

/-- A 64-bit field of a structure in memory. -/
def loadU64 (m : Memory) (off : ℕ) : UInt64 :=
  (loadU32 m off).toUInt64 ||| ((loadU32 m (off + 4)).toUInt64 <<< 32)

/-! ### Memory -/

/-- `round_up_page`. -/
def roundUpPage (byteCount : UInt64) : Option UInt64 :=
  if byteCount = 0 ∨ byteCount > appMemoryMapMax ∨
      byteCount > 0xFFFFFFFFFFFFFFFF - (pagingPageSize - 1) then none
  else
    let rounded := (byteCount + pagingPageSize - 1) &&& ~~~(pagingPageSize - 1)
    if rounded = 0 then none else some rounded

namespace AppServices

/-- `memory_record_count`. -/
def memoryRecordCount (s : AppServices) (processId : UInt64) : ℕ :=
  (List.finRange appMemoryRecordCapacity).countP fun i =>
    (s.memory i).inUse && (s.memory i).processId = processId

/-- The second result of `memory_record_count`. -/
def memoryRecordTotal (s : AppServices) (processId : UInt64) : UInt64 :=
  (List.finRange appMemoryRecordCapacity).foldl (fun total i =>
    if (s.memory i).inUse && (s.memory i).processId = processId then
      if (s.memory i).mappedSize ≤ 0xFFFFFFFFFFFFFFFF - total then total + (s.memory i).mappedSize
      else 0xFFFFFFFFFFFFFFFF
    else total) 0

/-- `allocate_memory_record`. -/
def allocateMemoryRecord (s : AppServices) (processId mappedSize : UInt64) :
    Option (Fin appMemoryRecordCapacity) :=
  if s.memoryRecordCount processId ≥ appMemoryRecordsPerProcess ∨
      mappedSize > appMemoryProcessMax ∨
      s.memoryRecordTotal processId > appMemoryProcessMax - mappedSize then none
  else (List.finRange appMemoryRecordCapacity).find? fun i => !(s.memory i).inUse

/-- The loop of `find_memory_range`, with the number of pages that are left. -/
def findRun (mapped : UInt64 → Bool) (size : UInt64) : ℕ → UInt64 → UInt64 → UInt64 → UInt64
  | 0, _, _, _ => 0
  | left + 1, page, runStart, runSize =>
    if mapped page then findRun mapped size left (page + pagingPageSize) 0 0
    else
      let runStart := if runSize = 0 then page else runStart
      let runSize := runSize + pagingPageSize
      if runSize ≥ size then runStart
      else findRun mapped size left (page + pagingPageSize) runStart runSize

/-- `find_memory_range`; zero if there is none. -/
def findMemoryRange (s : AppServices) (space : SpaceId) (size : UInt64) : UInt64 :=
  if size > appMemoryArenaLimit - appMemoryArenaBase then 0
  else findRun (fun page => (s.pages space page).isSome) size 16384 appMemoryArenaBase 0 0

/-- A store to one record. -/
def setRecord (s : AppServices) (i : Fin appMemoryRecordCapacity) (record : AppMemoryRecord) :
    AppServices :=
  { s with memory := Function.update s.memory i record }

/-- The page at an address becomes mapped, or is no longer. -/
def setPage (s : AppServices) (space : SpaceId) (page : UInt64) (state : Option Bool) :
    AppServices :=
  { s with pages := Function.update s.pages space (Function.update (s.pages space) page state) }

/-- The pages from an address on are no longer mapped. -/
def clearPages (s : AppServices) (space : SpaceId) : UInt64 → ℕ → AppServices
  | _, 0 => s
  | page, count + 1 => clearPages (s.setPage space page none) space (page + pagingPageSize) count

/-- `paging_user_unmap_anonymous` of a range of whole pages: nothing happens unless all of them are
mapped. -/
def pagingUserUnmapAnonymous (s : AppServices) (space : SpaceId) (address size : UInt64) :
    Bool × AppServices :=
  let count := size.toNat / 4096
  if (List.range count).all fun i =>
      (s.pages space (address + UInt64.ofNat i * pagingPageSize)).isSome then
    (true, s.clearPages space address count)
  else (false, s)

/-- The loop of `dispatch_memory_map`, with the number of pages that are left: the pages that were
mapped before are unmapped if one of them cannot be. -/
def mapPages (env : ServiceEnv) (space : SpaceId) (address : UInt64) (writable : Bool) :
    ℕ → UInt64 → AppServices → Bool × AppServices
  | 0, _, s => (true, s)
  | left + 1, mapped, s =>
    if !env.pageAvailable (address + mapped) ∨ (s.pages space (address + mapped)).isSome then
      if mapped ≠ 0 then (false, (s.pagingUserUnmapAnonymous space address mapped).2)
      else (false, s)
    else
      mapPages env space address writable left (mapped + pagingPageSize)
        (s.setPage space (address + mapped) (some writable))

/-- `dispatch_memory_map`. -/
def dispatchMemoryMap (env : ServiceEnv) (space : SpaceId) (processId capabilities : UInt64)
    (byteCount protectionFlags : UInt64) (s : AppServices) : UInt64 × AppServices :=
  let flags := protectionFlags.toUInt32
  if !hasCapability capabilities appCapabilityMemory then (appError .permissionDenied, s)
  else if protectionFlags > 0xFFFFFFFF ∨ flags &&& ~~~(appMemoryRead ||| appMemoryWrite) ≠ 0 ∨
      flags &&& appMemoryRead = 0 then
    (appError .invalidArgument, s)
  else
    match roundUpPage byteCount with
    | none => (appError .invalidArgument, s)
    | some mappedSize =>
      match s.allocateMemoryRecord processId mappedSize with
      | none => (appError .noSpace, s)
      | some record =>
        let address := s.findMemoryRange space mappedSize
        if address = 0 then (appError .noSpace, s)
        else
          match mapPages env space address (flags &&& appMemoryWrite ≠ 0)
            (mappedSize.toNat / 4096) 0
              s with
          | (false, s) => (appError .noSpace, s)
          | (true, s) =>
            (address, s.setRecord record ⟨true, processId, address, mappedSize, space⟩)

/-- `dispatch_memory_unmap`. -/
def dispatchMemoryUnmap (space : SpaceId) (processId capabilities : UInt64)
    (address byteCount : UInt64) (s : AppServices) : UInt64 × AppServices :=
  if !hasCapability capabilities appCapabilityMemory then (appError .permissionDenied, s)
  else
    match roundUpPage byteCount with
    | none => (appError .invalidArgument, s)
    | some mappedSize =>
      if address &&& (pagingPageSize - 1) ≠ 0 then (appError .invalidArgument, s)
      else
        match (List.finRange appMemoryRecordCapacity).find? fun i =>
            s.memory i = ⟨true, processId, address, mappedSize, space⟩ with
        | none => (appError .badHandle, s)
        | some record =>
          match s.pagingUserUnmapAnonymous space address mappedSize with
          | (false, s) => (appError .ioError, s)
          | (true, s) => (0, s.setRecord record .zero)

/-! ### Windows -/

/-- `copy_window_title`. -/
def copyWindowTitle (env : ServiceEnv) (userTitle titleLength : UInt64) : Option (List UInt8) :=
  if titleLength > appWindowTitleMax ∨ (titleLength ≠ 0 ∧ userTitle = 0) then none
  else if titleLength = 0 then some (CString.ofString "Application").bytes
  else
    match env.space.copyFromUser userTitle titleLength.toNat with
    | none => none
    | some bytes =>
      let title := (List.range titleLength.toNat).map bytes
      if title.any fun c => c < 32 || c > 126 then none else some title

/-- `dispatch_window_create`. -/
def dispatchWindowCreate (env : ServiceEnv)
    (processId capabilities userRequest requestSize : UInt64)
    (s : AppServices) : UInt64 × AppServices :=
  if !hasCapability capabilities appCapabilityWindow then (appError .permissionDenied, s)
  else if !s.desktop.desktopActive then (appError .wouldBlock, s)
  else if userRequest = 0 ∨ requestSize < 24 then (appError .invalidArgument, s)
  else
    match env.space.copyFromUser userRequest 24 with
    | none => (appError .invalidArgument, s)
    | some request =>
      let width := loadU32 request 0
      let height := loadU32 request 4
      if width < 64 ∨ width > 480 ∨ height < 48 ∨ height > 360 then (appError .invalidArgument, s)
      else
        match copyWindowTitle env (loadU64 request 8) (loadU64 request 16) with
        | none => (appError .invalidArgument, s)
        | some title =>
          match s.desktop.allocateWindowSlot processId with
          | none => (appError .noSpace, s)
          | some slot =>
            if !env.kmalloc (width.toNat * height.toNat * 4) then (appError .noSpace, s)
            else
              let (handle, files) := allocateHandle s.files
              let s := { s with files }
              if handle = 0 then (appError .noSpace, s)
              else
                match s.desktop.openWindow slot
                    (Desktop.newWindow slot handle processId width height title) env.mouse with
                | (false, desktop) => (appError .noSpace, { s with desktop })
                | (true, desktop) => (handle, { s with desktop })

/-- The rows of a surface that are left to copy. -/
def copyRows (env : ServiceEnv) (userPixels strideBytes : UInt64) (rowBytes : ℕ) :
    ℕ → ℕ → Memory → Bool × Memory
  | 0, _, pixels => (true, pixels)
  | left + 1, row, pixels =>
    match env.space.copyFromUser (userPixels + UInt64.ofNat row * strideBytes) rowBytes with
    | none => (false, pixels)
    | some bytes =>
      copyRows env userPixels strideBytes rowBytes left (row + 1)
        (pixels.blit (row * rowBytes) bytes rowBytes)

/-- `dispatch_window_present`. -/
def dispatchWindowPresent (env : ServiceEnv)
    (processId capabilities userRequest requestSize : UInt64) (s : AppServices) :
    UInt64 × AppServices :=
  if !hasCapability capabilities appCapabilityWindow then (appError .permissionDenied, s)
  else if userRequest = 0 ∨ requestSize < 32 then (appError .invalidArgument, s)
  else
    match env.space.copyFromUser userRequest 32 with
    | none => (appError .invalidArgument, s)
    | some request =>
      match s.desktop.findWindow processId (loadU64 request 0) with
      | none => (appError .badHandle, s)
      | some i =>
        let window := s.desktop.windows i
        let userPixels := loadU64 request 8
        let width := loadU32 request 16
        let height := loadU32 request 20
        let stridePixels := loadU32 request 24
        if userPixels = 0 ∨ width ≠ window.width ∨ height ≠ window.height ∨ stridePixels < width ∨
            stridePixels > appWindowMaxStridePixels then
          (appError .invalidArgument, s)
        else
          let rowBytes := width.toNat * 4
          let strideBytes := stridePixels.toUInt64 * 4
          if !(List.range height.toNat).all fun row =>
              UInt64.ofNat row ≤ (0xFFFFFFFFFFFFFFFF - userPixels) / strideBytes &&
                env.space.userRangeMapped (userPixels + UInt64.ofNat row * strideBytes) rowBytes
                  false then
            (appError .invalidArgument, s)
          else
            let (copied, pixels) :=
              copyRows env userPixels strideBytes rowBytes height.toNat 0 window.pixels
            let s := { s with desktop := s.desktop.setWindow i { window with pixels } }
            if copied then (0, s) else (appError .invalidArgument, s)

/-- `dispatch_window_close`. -/
def dispatchWindowClose (processId capabilities handle : UInt64) (s : AppServices) :
    UInt64 × AppServices :=
  if !hasCapability capabilities appCapabilityWindow then (appError .permissionDenied, s)
  else
    match s.desktop.findWindow processId handle with
    | none => (appError .badHandle, s)
    | some i => (0, { s with desktop := s.desktop.closeWindow i })

/-- The checks of `dispatch_input_poll`: the status, or the window. -/
def pollWindow (env : ServiceEnv) (processId capabilities handle userEvent eventSize : UInt64)
    (s : AppServices) : Except AppStatus (Fin appWindowCapacity) :=
  if !hasCapability capabilities appCapabilityInput then .error .permissionDenied
  else
    match s.desktop.findWindow processId handle with
    | none => .error .badHandle
    | some i =>
      if userEvent = 0 ∨ eventSize < 24 ∨ !env.space.userRangeMapped userEvent 24 true then
        .error .invalidArgument
      else .ok i

/-- `dispatch_input_poll`; the second component is the event that is stored in user memory.  The
range was checked and holds no tables, so that the copy does not fail. -/
def dispatchInputPoll (env : ServiceEnv)
    (processId capabilities handle userEvent eventSize : UInt64) (s : AppServices) :
    UInt64 × Option AppInputEvent × AppServices :=
  match pollWindow env processId capabilities handle userEvent eventSize s with
  | .error status => (appError status, none, s)
  | .ok i =>
    let s := { s with desktop := s.desktop.routePointer env.mouse }
    match (s.desktop.windows i).dequeueInput with
    | some (event, window) => (1, some event, { s with desktop := s.desktop.setWindow i window })
    | none =>
      if !s.desktop.desktopActive ∨
          s.desktop.focusedWindowHandle ≠ (s.desktop.windows i).handle ∨ env.key = 0 then
        (0, none, s)
      else
        (1, some { AppInputEvent.zero with
          type := .key
          flags := appInputFlagPressed
          key := env.key.toUInt32 }, s)

end AppServices

/-! ### The entry points -/

/-- The calls of applications with their arguments. -/
inductive ServiceCall
  | file (call : AppCall)
  | windowCreate (userRequest requestSize : UInt64)
  | windowPresent (userRequest requestSize : UInt64)
  | windowClose (handle : UInt64)
  | inputPoll (handle userEvent eventSize : UInt64)
  | memoryMap (byteCount protectionFlags : UInt64)
  | memoryUnmap (address byteCount : UInt64)

namespace AppServices

/-- `app_services_dispatch`: the returned value and the new state; no space is `NULL`. -/
def dispatch (env : ServiceEnv) (addressSpace : Option SpaceId) (processId capabilities : UInt64)
    (call : ServiceCall) (s : AppServices) : UInt64 × AppServices :=
  match addressSpace with
  | none => (appError .unsupported, s)
  | some space =>
    if processId = 0 then (appError .unsupported, s)
    else
      match call with
      | .file call =>
        let (value, _, files) :=
          appServicesDispatch env.toAppEnv processId capabilities call s.files
        (value, { s with files })
      | .windowCreate userRequest requestSize =>
        dispatchWindowCreate env processId capabilities userRequest requestSize s
      | .windowPresent userRequest requestSize =>
        dispatchWindowPresent env processId capabilities userRequest requestSize s
      | .windowClose handle => dispatchWindowClose processId capabilities handle s
      | .inputPoll handle userEvent eventSize =>
        let (value, _, s) :=
          dispatchInputPoll env processId capabilities handle userEvent eventSize s
        (value, s)
      | .memoryMap byteCount protectionFlags =>
        dispatchMemoryMap env space processId capabilities byteCount protectionFlags s
      | .memoryUnmap address byteCount =>
        dispatchMemoryUnmap space processId capabilities address byteCount s

/-- The loop of `app_services_release_process` over the files. -/
def releaseFiles (processId : UInt64) (s : AppServices) : AppServices :=
  { s with files := { s.files with handles :=
    ⟨s.files.handles.cells.map fun h =>
      if h.inUse && h.processId = processId then .zero else h,
      by simpa using s.files.handles.length_cells⟩ } }

/-- The loop of `app_services_release_process` over the windows. -/
def releaseWindows (processId : UInt64) (s : AppServices) : AppServices :=
  let close (d : Desktop) (i : Fin appWindowCapacity) : Desktop :=
    if (d.windows i).inUse && (d.windows i).processId = processId then d.closeWindow i else d
  { s with desktop := (List.finRange appWindowCapacity).foldl close s.desktop }

/-- The loop of `app_services_release_process` over the memory records. -/
def releaseMemory (processId : UInt64) (s : AppServices) : AppServices :=
  (List.finRange appMemoryRecordCapacity).foldl (fun s i =>
    let record := s.memory i
    if record.inUse && record.processId = processId then
      let s := (s.pagingUserUnmapAnonymous record.addressSpace record.address record.mappedSize).2
      s.setRecord i .zero
    else s) s

/-- `app_services_release_process`, without the network request of the process. -/
def releaseProcess (processId : UInt64) (s : AppServices) : AppServices :=
  if processId = 0 then s
  else
    let s :=
      if s.desktop.launchFocusProcessId = processId then
        { s with desktop := { s.desktop with launchFocusProcessId := 0 } }
      else s
    ((s.releaseFiles processId).releaseWindows processId).releaseMemory processId

end AppServices

/-- The calls of the entry points. -/
inductive SystemCall
  | service (env : ServiceEnv) (addressSpace : Option SpaceId) (processId capabilities : UInt64)
      (call : ServiceCall)
  | releaseProcess (processId : UInt64)
  | routePointer (mouse : MouseState)
  | setWindowsHidden (hidden : Bool)
  | setDesktopActive (active : Bool)
  | authorizeLaunchFocus (processId : UInt64)
  | requestAllWindowsClose
  | blurKeyboardFocus
  | renderOverlay (screenWidth screenHeight : ℤ)

namespace AppServices

/-- The state after a call. -/
def step (s : AppServices) : SystemCall → AppServices
  | .service env addressSpace processId capabilities call =>
    (dispatch env addressSpace processId capabilities call s).2
  | .releaseProcess processId => s.releaseProcess processId
  | .routePointer mouse => { s with desktop := s.desktop.routePointer mouse }
  | .setWindowsHidden hidden => { s with desktop := s.desktop.setWindowsHidden hidden }
  | .setDesktopActive active => { s with desktop := s.desktop.setDesktopActive active }
  | .authorizeLaunchFocus processId =>
    { s with desktop := (s.desktop.authorizeLaunchFocus processId).2 }
  | .requestAllWindowsClose => { s with desktop := s.desktop.requestAllWindowsClose }
  | .blurKeyboardFocus => { s with desktop := s.desktop.blurKeyboardFocus }
  | .renderOverlay screenWidth screenHeight =>
    { s with desktop := s.desktop.renderOverlay screenWidth screenHeight }

/-- The state after a list of calls. -/
def run (s : AppServices) (calls : List SystemCall) : AppServices := calls.foldl step s

/-- The state at boot, with a filesystem and address spaces. -/
def boot (fs : Fs.FsState) (pages : SpaceId → UInt64 → Option Bool) : AppServices :=
  ⟨⟨.zero, 1, fs⟩, .boot, fun _ => .zero, pages⟩

end AppServices

end Nostalux.App
