import Nostalux.Fs.Protection
import Nostalux.Paging

/-!
# `kernel/app_services.c`: the file system calls of applications

Applications reach the filesystem through open file handles and through whole-file stores.  The
state is the table `g_files` of handles, the counter `g_next_handle` and the filesystem; everything
else a call depends on (the memory and the page tables of the caller, the heap, the application
registry and the text of the log) is the environment `AppEnv` of the call and is arbitrary.

`FileCall` lists what a call can do, and `fileCall_appServicesDispatch` says so once for all calls;
on the filesystem a call acts only through `fs_find` and `fs_write_bytes` (`FsUse`).
-/

namespace Nostalux.App

open Nostalux.Fs FsState

/-! ### Status codes and flags -/

/-- The negative values of `enum app_status`. -/
inductive AppStatus
  | invalidArgument
  | unsupported
  | permissionDenied
  | notFound
  | noSpace
  | ioError
  | wouldBlock
  | badHandle
  | alreadyExists
  deriving DecidableEq

/-- `app_error`. -/
def appError : AppStatus → UInt64
  | .invalidArgument => -1
  | .unsupported => -2
  | .permissionDenied => -3
  | .notFound => -4
  | .noSpace => -5
  | .ioError => -6
  | .wouldBlock => -7
  | .badHandle => -8
  | .alreadyExists => -9

/-- `APP_FILE_OPEN_READ`. -/
abbrev appFileOpenRead : UInt32 := 1

/-- `APP_FILE_OPEN_WRITE`. -/
abbrev appFileOpenWrite : UInt32 := 2

/-- `APP_FILE_OPEN_CREATE`. -/
abbrev appFileOpenCreate : UInt32 := 4

/-- `APP_FILE_OPEN_TRUNCATE`. -/
abbrev appFileOpenTruncate : UInt32 := 8

/-- `APP_CAPABILITY_FILE_READ`. -/
abbrev appCapabilityFileRead : UInt64 := 4

/-- `APP_CAPABILITY_FILE_WRITE`. -/
abbrev appCapabilityFileWrite : UInt64 := 8

/-- `APP_FILE_HANDLE_CAPACITY`. -/
abbrev appFileHandleCapacity : ℕ := 64

/-- `APP_FILE_HANDLES_PER_PROCESS`. -/
abbrev appFileHandlesPerProcess : ℕ := 4

/-- `APP_FILE_PATH_MAX`. -/
abbrev appFilePathMax : ℕ := 31

/-- `APP_FILE_TRANSFER_MAX`. -/
abbrev appFileTransferMax : ℕ := 4096

/-- `has_capability`. -/
def hasCapability (granted required : UInt64) : Bool := granted &&& required = required

/-! ### The environment of a call -/

/-- What a call sees of the rest of the kernel. -/
structure AppEnv where
  /-- The address space of the caller. -/
  space : Paging.UserSpace
  /-- Whether `kmalloc` finds a block. -/
  kmalloc : ℕ → Bool
  /-- The executables of the registered applications. -/
  executables : List CString
  /-- What `syslog_copy_text` returns. -/
  log : CString

/-- The loop of `strings_equal`. -/
def stringsEqualLoop : List UInt8 → List UInt8 → Bool
  | a :: as, b :: bs => if a ≠ b then false else stringsEqualLoop as bs
  | as, bs => as.headD 0 = bs.headD 0

/-- `strings_equal` of two non-null pointers. -/
def stringsEqual (first second : CString) : Bool := stringsEqualLoop first.bytes second.bytes

/-- `strings_equal_bounded`, with the number of bytes left to compare. -/
def stringsEqualBounded (first second : CString) : ℕ → ℕ → Bool
  | 0, _ => false
  | n + 1, index =>
    if first.char index ≠ second.char index then false
    else if first.char index = 0 then true
    else stringsEqualBounded first second n (index + 1)

/-- Whether `app_registry_find_executable` finds the name. -/
def appRegistryFindExecutable (env : AppEnv) (executable : CString) : Bool :=
  env.executables.any fun entry => stringsEqualBounded entry executable 32 0

/-- `copy_file_path`. -/
def copyFilePath (env : AppEnv) (userPath : UInt64) (requestedLength : ℕ) : Option CString :=
  if userPath = 0 || requestedLength = 0 || appFilePathMax < requestedLength ||
      fsMaxFilename ≤ requestedLength then none
  else
    match env.space.copyFromUser userPath requestedLength with
    | none => none
    | some bytes =>
      let path := (List.range requestedLength).map bytes
      if path.any fun c => c = 0 || fsNameCharIsForbidden c then none
      else some (CString.ofBytes path)

/-! ### File handles -/

/-- `struct app_file_handle`. -/
structure AppFileHandle where
  inUse : Bool
  handle : UInt64
  processId : UInt64
  flags : UInt32
  path : CString
  deriving DecidableEq

/-- A zeroed handle. -/
def AppFileHandle.zero : AppFileHandle := ⟨false, 0, 0, 0, CString.empty⟩

/-- The array `g_files`. -/
structure HandleTable where
  cells : List AppFileHandle
  length_cells : cells.length = appFileHandleCapacity

/-- Overwrite one handle. -/
def HandleTable.set (t : HandleTable) (i : ℕ) (h : AppFileHandle) : HandleTable :=
  ⟨t.cells.set i h, by simpa using t.length_cells⟩

/-- The table before the first call. -/
def HandleTable.zero : HandleTable := ⟨List.replicate appFileHandleCapacity .zero, by simp⟩

/-- The state that file calls act on. -/
structure AppState where
  handles : HandleTable
  nextHandle : UInt64
  fs : FsState

/-- `file_handle_count`. -/
def fileHandleCount (t : HandleTable) (processId : UInt64) : ℕ :=
  t.cells.countP fun h => h.inUse && h.processId = processId

/-- `find_file_handle`: the index and the open handle. -/
def findFileHandle (t : HandleTable) (processId handle : UInt64) : Option (ℕ × AppFileHandle) :=
  if processId = 0 || handle = 0 then none
  else
    (t.cells.findIdx? fun h => h.inUse && h.processId = processId && h.handle =
      handle).bind fun i =>
      t.cells[i]?.map fun h => (i, h)

/-- `allocate_file_slot`. -/
def allocateFileSlot (t : HandleTable) (processId : UInt64) : Option ℕ :=
  if appFileHandlesPerProcess ≤ fileHandleCount t processId then none
  else t.cells.findIdx? fun h => !h.inUse

/-- `allocate_handle`; zero when the counter is used up. -/
def allocateHandle (s : AppState) : UInt64 × AppState :=
  if s.nextHandle = 0 then (0, s)
  else (s.nextHandle, { s with
    nextHandle := if s.nextHandle = 0xFFFFFFFFFFFFFFFF then 0 else s.nextHandle + 1 })

/-! ### The calls -/

/-- The end of `dispatch_file_open`: the slot is filled in. -/
def openHandle (slot : ℕ) (handle processId : UInt64) (flags : UInt32) (path : CString)
    (s : AppState) : UInt64 × AppState :=
  (handle, { s with
    handles := s.handles.set slot ⟨true, handle, processId, flags, path.take (fsMaxFilename - 1)⟩ })

/-- `dispatch_file_open` after its checks of flags, capabilities and path. -/
def openPath (env : AppEnv) (processId : UInt64) (flags : UInt32) (path : CString) (s : AppState) :
    UInt64 × AppState :=
  match allocateFileSlot s.handles processId with
  | none => (appError .noSpace, s)
  | some slot =>
    let (handle, s) := allocateHandle s
    if handle = 0 then (appError .noSpace, s)
    else
      let (file, fs) := fsFind (some path) env.log s.fs
      let s := { s with fs }
      if file.isNone && flags &&& appFileOpenCreate = 0 then (appError .notFound, s)
      else if file.isNone || flags &&& appFileOpenTruncate ≠ 0 then
        match fsWriteBytes (some path) none 0 s.fs with
        | (false, fs) => (appError (if file.isNone then .noSpace else .ioError), { s with fs })
        | (true, fs) => openHandle slot handle processId flags path { s with fs }
      else openHandle slot handle processId flags path s

/-- `dispatch_file_open`. -/
def dispatchFileOpen (env : AppEnv) (processId capabilities userPath : UInt64) (pathLength : ℕ)
    (requestedFlags : UInt64) (s : AppState) : UInt64 × AppState :=
  let flags := requestedFlags.toUInt32
  if 0xFFFFFFFF < requestedFlags then (appError .invalidArgument, s)
  else if flags &&& ~~~15 ≠ 0 ∨ flags &&& (appFileOpenRead ||| appFileOpenWrite) = 0 ∨
      (flags &&& (appFileOpenCreate ||| appFileOpenTruncate) ≠ 0 ∧
        flags &&& appFileOpenWrite = 0) then
    (appError .invalidArgument, s)
  else if (flags &&& appFileOpenRead ≠ 0 ∧ !hasCapability capabilities appCapabilityFileRead) ∨
      (flags &&& appFileOpenWrite ≠ 0 ∧ !hasCapability capabilities appCapabilityFileWrite) then
    (appError .permissionDenied, s)
  else
    match copyFilePath env userPath pathLength with
    | none => (appError .invalidArgument, s)
    | some path =>
      if flags &&& appFileOpenWrite ≠ 0 ∧
          (stringsEqual path systemLogName || appRegistryFindExecutable env path) then
        (appError .permissionDenied, s)
      else openPath env processId flags path s

/-- `dispatch_file_read`; the second component is what is stored in user memory. -/
def dispatchFileRead (env : AppEnv) (processId capabilities handle userBuffer : UInt64)
    (requestedLength requestedOffset : ℕ) (s : AppState) : UInt64 × List UInt8 × AppState :=
  if !hasCapability capabilities appCapabilityFileRead then (appError .permissionDenied, [], s)
  else
    match findFileHandle s.handles processId handle with
    | none => (appError .badHandle, [], s)
    | some (_, opened) =>
      if opened.flags &&& appFileOpenRead = 0 then (appError .badHandle, [], s)
      else if appFileTransferMax < requestedLength then (appError .invalidArgument, [], s)
      else
        let (file, fs) := fsFind (some opened.path) env.log s.fs
        let s := { s with fs }
        match file with
        | none => (appError .notFound, [], s)
        | some file =>
          let length := min requestedLength (file.size - requestedOffset)
          let bytes := file.data.bytes requestedOffset length
          if file.size ≤ requestedOffset || length = 0 then (0, [], s)
          else if userBuffer = 0 || (env.space.copyToUser userBuffer bytes).isNone then
            (appError .invalidArgument, [], s)
          else (UInt64.ofNat length, bytes, s)

/-- The buffer that `dispatch_file_write` stores: the old contents with the new bytes over them. -/
def splicedContents (file : FsFile) (offset length : ℕ) (bytes : ℕ → UInt8) : Buffer 8192 :=
  (Buffer.zero.blit 0 file.data.byte file.size).blit offset bytes length

/-- `dispatch_file_write`. -/
def dispatchFileWrite (env : AppEnv) (processId capabilities handle userBuffer : UInt64)
    (requestedLength requestedOffset : ℕ) (s : AppState) : UInt64 × AppState :=
  if !hasCapability capabilities appCapabilityFileWrite then (appError .permissionDenied, s)
  else
    match findFileHandle s.handles processId handle with
    | none => (appError .badHandle, s)
    | some (_, opened) =>
      if opened.flags &&& appFileOpenWrite = 0 then (appError .badHandle, s)
      else if appFileTransferMax < requestedLength then (appError .invalidArgument, s)
      else if fsMaxFileSize - 1 < requestedOffset ||
          fsMaxFileSize - 1 - requestedOffset < requestedLength then (appError .noSpace, s)
      else if requestedLength = 0 then (0, s)
      else if userBuffer = 0 || !env.space.userRangeMapped userBuffer requestedLength false then
        (appError .invalidArgument, s)
      else
        let (file, fs) := fsFind (some opened.path) env.log s.fs
        let s := { s with fs }
        match file with
        | none => (appError .notFound, s)
        | some file =>
          if !env.kmalloc fsMaxFileSize then (appError .noSpace, s)
          else
            match env.space.copyFromUser userBuffer requestedLength with
            | none => (appError .invalidArgument, s)
            | some bytes =>
              let contents := splicedContents file requestedOffset requestedLength bytes
              let finalSize := max file.size (requestedOffset + requestedLength)
              match fsWriteBytes (some opened.path) (some contents.byte) finalSize s.fs with
              | (false, fs) => (appError .ioError, { s with fs })
              | (true, fs) => (UInt64.ofNat requestedLength, { s with fs })

/-- The end of `dispatch_file_store`: the whole file is written. -/
def storeContents (path : CString) (contents : Option (ℕ → UInt8)) (length : ℕ) (s : AppState) :
    UInt64 × AppState :=
  match fsWriteBytes (some path) contents length s.fs with
  | (false, fs) => (appError .ioError, { s with fs })
  | (true, fs) => (UInt64.ofNat length, { s with fs })

/-- `dispatch_file_store` after its checks of capabilities and path. -/
def storePath (env : AppEnv) (path : CString) (userBuffer : UInt64) (length : ℕ) (s : AppState) :
    UInt64 × AppState :=
  if length = 0 then storeContents path none 0 s
  else if userBuffer = 0 || !env.space.userRangeMapped userBuffer length false then
    (appError .invalidArgument, s)
  else if !env.kmalloc length then (appError .noSpace, s)
  else
    match env.space.copyFromUser userBuffer length with
    | none => (appError .invalidArgument, s)
    | some bytes => storeContents path (some bytes) length s

/-- `dispatch_file_store`. -/
def dispatchFileStore (env : AppEnv) (capabilities userPath : UInt64) (pathLength : ℕ)
    (userBuffer : UInt64) (requestedLength : ℕ) (requireAbsent : Bool) (s : AppState) :
    UInt64 × AppState :=
  if !hasCapability capabilities appCapabilityFileWrite then (appError .permissionDenied, s)
  else if fsMaxFileSize ≤ requestedLength then (appError .noSpace, s)
  else
    match copyFilePath env userPath pathLength with
    | none => (appError .invalidArgument, s)
    | some path =>
      if stringsEqual path systemLogName || appRegistryFindExecutable env path then
        (appError .permissionDenied, s)
      else if requireAbsent then
        let (file, fs) := fsFind (some path) env.log s.fs
        let s := { s with fs }
        if file.isSome then (appError .alreadyExists, s)
        else storePath env path userBuffer requestedLength s
      else storePath env path userBuffer requestedLength s

/-- `dispatch_file_replace`. -/
def dispatchFileReplace (env : AppEnv) (capabilities userPath : UInt64) (pathLength : ℕ)
    (userBuffer : UInt64) (requestedLength : ℕ) : AppState → UInt64 × AppState :=
  dispatchFileStore env capabilities userPath pathLength userBuffer requestedLength false

/-- `dispatch_file_create_exclusive`. -/
def dispatchFileCreateExclusive (env : AppEnv) (capabilities userPath : UInt64) (pathLength : ℕ)
    (userBuffer : UInt64) (requestedLength : ℕ) : AppState → UInt64 × AppState :=
  dispatchFileStore env capabilities userPath pathLength userBuffer requestedLength true

/-- `dispatch_file_close`. -/
def dispatchFileClose (processId handle : UInt64) (s : AppState) : UInt64 × AppState :=
  match findFileHandle s.handles processId handle with
  | none => (appError .badHandle, s)
  | some (i, _) => (0, { s with handles := s.handles.set i .zero })

/-- The file calls of applications with their arguments. -/
inductive AppCall
  | fileOpen (userPath : UInt64) (pathLength : ℕ) (flags : UInt64)
  | fileRead (handle userBuffer : UInt64) (length offset : ℕ)
  | fileWrite (handle userBuffer : UInt64) (length offset : ℕ)
  | fileReplace (userPath : UInt64) (pathLength : ℕ) (userBuffer : UInt64) (length : ℕ)
  | fileCreateExclusive (userPath : UInt64) (pathLength : ℕ) (userBuffer : UInt64) (length : ℕ)
  | fileClose (handle : UInt64)

/-- `app_services_dispatch` of a file call: the returned value, what is stored in user memory and
the new state. -/
def appServicesDispatch (env : AppEnv) (processId capabilities : UInt64) (call : AppCall)
    (s : AppState) : UInt64 × List UInt8 × AppState :=
  if processId = 0 then (appError .unsupported, [], s)
  else
    match call with
    | .fileOpen userPath pathLength flags =>
      let (value, s) := dispatchFileOpen env processId capabilities userPath pathLength flags s
      (value, [], s)
    | .fileRead handle userBuffer length offset =>
      dispatchFileRead env processId capabilities handle userBuffer length offset s
    | .fileWrite handle userBuffer length offset =>
      let (value, s) :=
        dispatchFileWrite env processId capabilities handle userBuffer length offset s
      (value, [], s)
    | .fileReplace userPath pathLength userBuffer length =>
      let (value, s) := dispatchFileReplace env capabilities userPath pathLength userBuffer length s
      (value, [], s)
    | .fileCreateExclusive userPath pathLength userBuffer length =>
      let (value, s) :=
        dispatchFileCreateExclusive env capabilities userPath pathLength userBuffer length s
      (value, [], s)
    | .fileClose handle =>
      let (value, s) := dispatchFileClose processId handle s
      (value, [], s)

/-! ### What a call does -/

/-- What a call does to the filesystem: it may look a file up, and then write one; the last argument
is the path of the file that is written and its contents. -/
inductive FsUse (log : CString) (fs : FsState) : FsState → Option (CString × List UInt8) → Prop
  | idle : FsUse log fs fs none
  | find (path : CString) : FsUse log fs (fsFind (some path) log fs).2 none
  | refused {fs₁ fs' : FsState} {path : CString} {contents : Option (ℕ → UInt8)} {length : ℕ}
      (use : FsUse log fs fs₁ none)
      (eq : fsWriteBytes (some path) contents length fs₁ = (false, fs')) : FsUse log fs fs' none
  | written {fs₁ fs' : FsState} {path : CString} {contents : Option (ℕ → UInt8)} {length : ℕ}
      (use : FsUse log fs fs₁ none)
      (eq : fsWriteBytes (some path) contents length fs₁ = (true, fs')) :
      FsUse log fs fs' (some (path, bytesOf contents length))

/-- The counter after a handle was given out. -/
def nextHandleAfter (next : UInt64) : UInt64 := if next = 0xFFFFFFFFFFFFFFFF then 0 else next + 1

/-- `allocate_handle`: the value of the counter, unless it is used up. -/
theorem allocateHandle_cases (s : AppState) :
    allocateHandle s = (0, s) ∨ s.nextHandle ≠ 0 ∧
      allocateHandle s =
        (s.nextHandle, { s with nextHandle := nextHandleAfter s.nextHandle }) := by
  rw [allocateHandle]
  split
  · exact .inl rfl
  next hne => exact .inr ⟨hne, rfl⟩

/-- The two calls of `dispatch_file_store`. -/
def AppCall.store (userPath : UInt64) (pathLength : ℕ) (userBuffer : UInt64) (length : ℕ) :
    Bool → AppCall
  | false => .fileReplace userPath pathLength userBuffer length
  | true => .fileCreateExclusive userPath pathLength userBuffer length

/-- What a file call does: it fails, maybe after a handle was taken and the filesystem was asked, or
it does what it is there for. -/
inductive FileCall (env : AppEnv) (processId : UInt64) (s : AppState) :
    AppCall → UInt64 × List UInt8 × AppState → Prop
  | failed {call : AppCall} (status : AppStatus) {nextHandle : UInt64} {fs : FsState}
      (next : nextHandle = s.nextHandle ∨
        s.nextHandle ≠ 0 ∧ nextHandle = nextHandleAfter s.nextHandle)
      (use : FsUse env.log s.fs fs none) :
      FileCall env processId s call (appError status, [], { s with nextHandle, fs })
  | opened {userPath requestedFlags : UInt64} {pathLength slot : ℕ} {flags : UInt32}
      {path : CString} {fs : FsState} {written : Option (CString × List UInt8)}
      (slot_eq : allocateFileSlot s.handles processId = some slot) (ne_zero : s.nextHandle ≠ 0)
      (use : FsUse env.log s.fs fs written)
      (written_eq : written = none ∨ written = some (path, [])) :
      FileCall env processId s (.fileOpen userPath pathLength requestedFlags) (s.nextHandle, [],
        ⟨s.handles.set slot
          ⟨true, s.nextHandle, processId, flags, path.take (fsMaxFilename - 1)⟩,
          nextHandleAfter s.nextHandle, fs⟩)
  | read {handle userBuffer : UInt64} {length offset slot : ℕ} {cell : AppFileHandle}
      {file : FsFile} (cell_eq : findFileHandle s.handles processId handle = some (slot, cell))
      (length_le : length ≤ appFileTransferMax)
      (file_eq : (fsFind (some cell.path) env.log s.fs).1 = some file) {bytes : List UInt8}
      (bytes_eq : bytes = file.data.bytes offset (min length (file.size - offset))) :
      FileCall env processId s (.fileRead handle userBuffer length offset)
        (UInt64.ofNat bytes.length, bytes,
          { s with fs := (fsFind (some cell.path) env.log s.fs).2 })
  | wroteNothing {handle userBuffer : UInt64} {offset : ℕ} :
      FileCall env processId s (.fileWrite handle userBuffer 0 offset) (0, [], s)
  | wrote {handle userBuffer : UInt64} {length offset slot : ℕ} {cell : AppFileHandle}
      {file : FsFile} {bytes : ℕ → UInt8} {fs : FsState}
      (cell_eq : findFileHandle s.handles processId handle = some (slot, cell))
      (length_le : length ≤ appFileTransferMax) (end_le : offset + length < fsMaxFileSize)
      (file_eq : (fsFind (some cell.path) env.log s.fs).1 = some file)
      (bytes_eq : env.space.copyFromUser userBuffer length = some bytes)
      (use : FsUse env.log s.fs fs (some (cell.path,
        bytesOf (some (splicedContents file offset length bytes).byte)
          (max file.size (offset + length))))) :
      FileCall env processId s (.fileWrite handle userBuffer length offset)
        (UInt64.ofNat length, [], { s with fs })
  | stored {userPath userBuffer : UInt64} {pathLength length : ℕ} {requireAbsent : Bool}
      {path : CString} {bytes : ℕ → UInt8} {fs : FsState}
      (path_eq : copyFilePath env userPath pathLength = some path)
      (length_lt : length < fsMaxFileSize)
      (absent : requireAbsent = true → (fsFind (some path) env.log s.fs).1 = none)
      (bytes_eq : length = 0 ∨ env.space.copyFromUser userBuffer length = some bytes)
      (use : FsUse env.log s.fs fs (some (path, bytesOf (some bytes) length))) :
      FileCall env processId s (.store userPath pathLength userBuffer length requireAbsent)
        (UInt64.ofNat length, [], { s with fs })
  | closed {handle : UInt64} {slot : ℕ} {cell : AppFileHandle}
      (cell_eq : findFileHandle s.handles processId handle = some (slot, cell)) :
      FileCall env processId s (.fileClose handle)
        (0, [], { s with handles := s.handles.set slot .zero })

/-- The result of a call that stores nothing in user memory. -/
def withoutData : UInt64 × AppState → UInt64 × List UInt8 × AppState
  | (value, s) => (value, [], s)

section

variable {env : AppEnv} {processId : UInt64} {s : AppState}

theorem FileCall.refused {call : AppCall} (status : AppStatus) :
    FileCall env processId s call (appError status, [], s) :=
  .failed status (.inl rfl) .idle

theorem FileCall.failed_find {call : AppCall} (status : AppStatus) (path : CString) :
    FileCall env processId s call
      (appError status, [], { s with fs := (fsFind (some path) env.log s.fs).2 }) :=
  .failed status (.inl rfl) (.find path)

theorem fileCall_openPath {userPath requestedFlags : UInt64} {pathLength : ℕ} (flags : UInt32)
    (path : CString) : FileCall env processId s (.fileOpen userPath pathLength requestedFlags)
      (withoutData (openPath env processId flags path s)) := by
  unfold openPath
  cases hslot : allocateFileSlot s.handles processId with
  | none => exact .refused _
  | some slot =>
    rcases allocateHandle_cases s with hfail | ⟨hne, hgiven⟩
    · simp only [hfail, if_true]
      exact .refused _
    · simp only [hgiven, if_neg hne]
      split
      · exact .failed _ (.inr ⟨hne, rfl⟩) (.find path)
      split
      · split
        next fs hwrite => exact .failed _ (.inr ⟨hne, rfl⟩) (.refused (.find path) hwrite)
        next fs hwrite => exact .opened hslot hne (.written (.find path) hwrite) (.inr rfl)
      · exact .opened hslot hne (.find path) (.inl rfl)

theorem fileCall_dispatchFileOpen (capabilities userPath : UInt64) (pathLength : ℕ)
    (requestedFlags : UInt64) :
    FileCall env processId s (.fileOpen userPath pathLength requestedFlags) (withoutData
      (dispatchFileOpen env processId capabilities userPath pathLength requestedFlags s)) := by
  unfold dispatchFileOpen
  dsimp only
  split
  · exact .refused _
  split
  · exact .refused _
  split
  · exact .refused _
  split
  · exact .refused _
  split
  · exact .refused _
  · exact fileCall_openPath _ _

theorem fileCall_dispatchFileRead (capabilities handle userBuffer : UInt64) (length offset : ℕ) :
    FileCall env processId s (.fileRead handle userBuffer length offset)
      (dispatchFileRead env processId capabilities handle userBuffer length offset s) := by
  unfold dispatchFileRead
  split
  · exact .refused _
  split
  · exact .refused _
  rename_i slot cell hcell
  split
  · exact .refused _
  split
  · exact .refused _
  rename_i hlength
  dsimp only
  split
  · exact .failed_find _ cell.path
  rename_i file hfile
  have hread {bytes : List UInt8}
      (h : bytes = file.data.bytes offset (min length (file.size - offset))) :
      FileCall env processId s (.fileRead handle userBuffer length offset)
        (UInt64.ofNat bytes.length, bytes,
          { s with fs := (fsFind (some cell.path) env.log s.fs).2 }) :=
    .read hcell (not_lt.1 hlength) hfile h
  split
  next hempty =>
    have hzero : min length (file.size - offset) = 0 := by
      simp only [Bool.or_eq_true, decide_eq_true_eq] at hempty
      omega
    exact @hread [] (by rw [hzero]; rfl)
  split
  · exact .failed_find _ cell.path
  · simpa only [Buffer.length_bytes] using hread rfl

theorem fileCall_dispatchFileWrite (capabilities handle userBuffer : UInt64) (length offset : ℕ) :
    FileCall env processId s (.fileWrite handle userBuffer length offset) (withoutData
      (dispatchFileWrite env processId capabilities handle userBuffer length offset s)) := by
  unfold dispatchFileWrite
  split
  · exact .refused _
  split
  · exact .refused _
  rename_i slot cell hcell
  split
  · exact .refused _
  split
  · exact .refused _
  rename_i hlength
  split
  · exact .refused _
  rename_i hspace
  split
  next hzero =>
    subst hzero
    exact .wroteNothing
  split
  · exact .refused _
  dsimp only
  split
  · exact .failed_find _ cell.path
  rename_i file hfile
  split
  · exact .failed_find _ cell.path
  split
  · exact .failed_find _ cell.path
  rename_i bytes hbytes
  split
  next fs hwrite => exact .failed _ (.inl rfl) (.refused (.find cell.path) hwrite)
  next fs hwrite =>
    refine .wrote hcell (not_lt.1 hlength) ?_ hfile hbytes (.written (.find cell.path) hwrite)
    simp only [Bool.or_eq_true, decide_eq_true_eq, not_or, not_lt, fsMaxFileSize] at hspace ⊢
    omega

theorem fileCall_storePath {userPath : UInt64} {pathLength : ℕ} (userBuffer : UInt64)
    {length : ℕ} {requireAbsent : Bool} {path : CString} {fs : FsState}
    (hpath : copyFilePath env userPath pathLength = some path) (hlength : length < fsMaxFileSize)
    (habsent : requireAbsent = true → (fsFind (some path) env.log s.fs).1 = none)
    (huse : FsUse env.log s.fs fs none) :
    FileCall env processId s (.store userPath pathLength userBuffer length requireAbsent)
      (withoutData (storePath env path userBuffer length { s with fs })) := by
  have hcontents {contents : Option (ℕ → UInt8)} {bytes : ℕ → UInt8}
      (hbytes : length = 0 ∨ env.space.copyFromUser userBuffer length = some bytes)
      (heq : bytesOf contents length = bytesOf (some bytes) length) :
      FileCall env processId s (.store userPath pathLength userBuffer length requireAbsent)
        (withoutData (storeContents path contents length { s with fs })) := by
    unfold storeContents
    split
    next fs' hwrite => exact .failed _ (.inl rfl) (.refused huse hwrite)
    next fs' hwrite => exact .stored hpath hlength habsent hbytes (heq ▸ .written huse hwrite)
  unfold storePath
  split
  next hzero =>
    subst hzero
    exact @hcontents none (fun _ => 0) (.inl rfl) rfl
  split
  · exact .failed _ (.inl rfl) huse
  split
  · exact .failed _ (.inl rfl) huse
  split
  · exact .failed _ (.inl rfl) huse
  next bytes hbytes => exact hcontents (.inr hbytes) rfl

theorem fileCall_dispatchFileStore (capabilities userPath : UInt64) (pathLength : ℕ)
    (userBuffer : UInt64) (length : ℕ) (requireAbsent : Bool) :
    FileCall env processId s (.store userPath pathLength userBuffer length requireAbsent)
      (withoutData (dispatchFileStore env capabilities userPath pathLength userBuffer length
        requireAbsent s)) := by
  unfold dispatchFileStore
  split
  · exact .refused _
  split
  · exact .refused _
  rename_i hlength
  split
  · exact .refused _
  rename_i path hpath
  split
  · exact .refused _
  split
  next habsent =>
    dsimp only
    split
    · exact .failed_find _ path
    next hfile =>
      exact fileCall_storePath userBuffer hpath (not_le.1 hlength) (fun _ => by simpa using hfile)
        (.find path)
  next hpresent =>
    exact fileCall_storePath userBuffer hpath (not_le.1 hlength)
      (fun habsent => absurd habsent hpresent) .idle

/-- **What every file call does.** -/
theorem fileCall_appServicesDispatch (env : AppEnv) (processId capabilities : UInt64)
    (call : AppCall) (s : AppState) :
    FileCall env processId s call (appServicesDispatch env processId capabilities call s) := by
  unfold appServicesDispatch
  split
  · exact .refused _
  cases call with
  | fileOpen userPath pathLength flags => exact fileCall_dispatchFileOpen ..
  | fileRead handle userBuffer length offset => exact fileCall_dispatchFileRead ..
  | fileWrite handle userBuffer length offset => exact fileCall_dispatchFileWrite ..
  | fileReplace userPath pathLength userBuffer length =>
    exact fileCall_dispatchFileStore capabilities userPath pathLength userBuffer length false
  | fileCreateExclusive userPath pathLength userBuffer length =>
    exact fileCall_dispatchFileStore capabilities userPath pathLength userBuffer length true
  | fileClose handle =>
    show FileCall env processId s _ (withoutData (dispatchFileClose processId handle s))
    unfold dispatchFileClose
    split
    · exact .refused _
    next slot cell hcell => exact .closed hcell

/-- What a call does to the filesystem. -/
theorem FileCall.exists_use {call : AppCall} {result : UInt64 × List UInt8 × AppState}
    (h : FileCall env processId s call result) :
    ∃ written, FsUse env.log s.fs result.2.2.fs written := by
  cases h with
  | failed _ _ use | opened _ _ use | wrote _ _ _ _ _ use | stored _ _ _ _ use => exact ⟨_, use⟩
  | read => exact ⟨_, .find _⟩
  | wroteNothing | closed => exact ⟨_, .idle⟩

end

/-! ### Requests of the ordinary interface -/

/-- The filesystem of the new state results from the old one by requests of the ordinary
interface. -/
def ActsOrdinarily (s s' : AppState) : Prop :=
  ∃ requests : List FsRequest, (∀ r ∈ requests, r.Ordinary) ∧ s'.fs = s.fs.after requests

theorem ActsOrdinarily.trans {s s₁ s₂ : AppState} (h₁ : ActsOrdinarily s s₁)
    (h₂ : ActsOrdinarily s₁ s₂) : ActsOrdinarily s s₂ := by
  obtain ⟨r₁, hr₁, heq₁⟩ := h₁
  obtain ⟨r₂, hr₂, heq₂⟩ := h₂
  refine ⟨r₁ ++ r₂, fun r hr => (List.mem_append.1 hr).elim (hr₁ r) (hr₂ r), ?_⟩
  rw [heq₂, heq₁, after, after, after, List.foldl_append]

theorem FsUse.exists_requests {log : CString} {fs fs' : FsState}
    {written : Option (CString × List UInt8)} (h : FsUse log fs fs' written) :
    ∃ requests : List FsRequest, (∀ r ∈ requests, r.Ordinary) ∧ fs' = fs.after requests := by
  induction h with
  | idle => exact ⟨[], by simp, rfl⟩
  | find path => exact ⟨[.find (some path) log], List.forall_mem_singleton.2 trivial, rfl⟩
  | @refused fs₁ fs' path contents length _ eq ih | @written fs₁ fs' path contents length _ eq ih =>
    obtain ⟨requests, hordinary, rfl⟩ := ih
    refine ⟨requests ++ [.mutate (.writeBytes (some path) contents length)], ?_, ?_⟩
    · exact List.forall_mem_append.2 ⟨hordinary, List.forall_mem_singleton.2 trivial⟩
    · rw [after, List.foldl_append]
      exact (congrArg Prod.snd eq).symm

/-- **A file call acts on the filesystem through the ordinary interface only**, whatever the
environment answers. -/
theorem actsOrdinarily_appServicesDispatch (env : AppEnv) (processId capabilities : UInt64)
    (call : AppCall) (s : AppState) :
    ActsOrdinarily s (appServicesDispatch env processId capabilities call s).2.2 := by
  obtain ⟨_, huse⟩ := (fileCall_appServicesDispatch env processId capabilities call s).exists_use
  exact huse.exists_requests

/-! ### Runs of user calls -/

/-- A call that user code can cause: an ordinary call of the filesystem from the shell or the
desktop, or a file call of an application. -/
inductive UserCall
  | fs (call : FsCall)
  | app (env : AppEnv) (processId capabilities : UInt64) (call : AppCall)

/-- The state after a user call. -/
def UserCall.run (s : AppState) : UserCall → AppState
  | fs call => { s with fs := (call.run s.fs).2 }
  | app env processId capabilities call =>
    (appServicesDispatch env processId capabilities call s).2.2

/-- The calls that go through the ordinary interface. -/
def UserCall.Ordinary : UserCall → Prop
  | fs call => call.Ordinary
  | app .. => True

theorem UserCall.actsOrdinarily {call : UserCall} (h : call.Ordinary) (s : AppState) :
    ActsOrdinarily s (call.run s) := by
  cases call with
  | fs call => exact ⟨[.mutate call], List.forall_mem_singleton.2 h, rfl⟩
  | app env processId capabilities call =>
    exact actsOrdinarily_appServicesDispatch env processId capabilities call s

theorem actsOrdinarily_foldl {calls : List UserCall} (h : ∀ call ∈ calls, call.Ordinary)
    (s : AppState) : ActsOrdinarily s (calls.foldl UserCall.run s) := by
  induction calls generalizing s with
  | nil => exact ⟨[], by simp, rfl⟩
  | cons call calls ih =>
    rw [List.forall_mem_cons] at h
    exact (call.actsOrdinarily h.1 s).trans (ih h.2 (call.run s))

/-- **System files are out of reach of the ordinary interface.**  In every run of ordinary
filesystem calls and file calls of applications, what is stored under a system-managed name, nothing
or some contents, stays as it is, and no physical `system.log` appears. -/
theorem systemFiles_unreachable {s : AppState} (hwf : s.fs.files.WellFormed) {calls : List UserCall}
    (hordinary : ∀ call ∈ calls, call.Ordinary) :
    (∀ name, fsNameIsSystemManaged (some name) = true →
      (calls.foldl UserCall.run s).fs.files.fileMap name = s.fs.files.fileMap name) ∧
    (s.fs.files.fileMap systemLogName = none →
      (calls.foldl UserCall.run s).fs.files.fileMap systemLogName = none) := by
  obtain ⟨requests, hrequests, hfs⟩ := actsOrdinarily_foldl hordinary s
  rw [hfs]
  constructor
  · intro name hmanaged
    exact (after_ordinary hwf hrequests (.inl hmanaged)).2
  · intro hnone
    have hlog : Reserved systemLogName := .inr ((fsNameIsSystemLog_some _).2 rfl)
    rw [(after_ordinary hwf hrequests hlog).2, hnone]

/-- An application that tries to replace a system application on a fresh boot. -/
theorem systemFiles_unreachable_replace :
    ∃ (s : AppState) (env : AppEnv), s.fs.files = loneFile ∧
      ((([.app env 1 8 (.fileReplace 0x10000000000 9 0 0),
        .fs (.touch (some (CString.ofString "hello.elf")))] : List UserCall).foldl UserCall.run
        s).fs.files.fileMap (CString.ofString "hello.elf") = none) := by
  let s : AppState := ⟨.zero, 1,
    { boot (Ata.perfect fun _ => Buffer.zero) with files := loneFile }⟩
  let env : AppEnv :=
    ⟨.onePage (CString.ofString "hello.elf").bytes, fun _ => true, [], CString.empty⟩
  refine ⟨s, env, rfl, ?_⟩
  rw [(systemFiles_unreachable (s := s) wellFormed_loneFile ?_).1 _ (by decide)]
  · decide
  · intro call hcall
    rcases List.mem_pair.1 hcall with rfl | rfl <;> exact trivial

end Nostalux.App
