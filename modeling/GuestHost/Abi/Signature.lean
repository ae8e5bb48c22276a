/-
  GuestHost.Abi.Signature — the import surface of preview1: every import with its name, its type and its
  route, in the order in which they are installed.
-/

import GuestHost.Abi.Value

namespace GuestHost

def previewNamespace : String := "wasi_snapshot_preview1"

/-- Who answers an import. -/
inductive Route where
  /-- The host itself. -/
  | host
  /-- The filesystem module's export of the same name, with the arguments untouched. -/
  | filesystem
  deriving DecidableEq, Repr

structure Signature where
  name : String
  params : List ValType
  result : Bool
  route : Route
  deriving DecidableEq, Repr

namespace Signature

def funcType (s : Signature) : FuncType := ⟨s.params, if s.result then [.i32] else []⟩

/-- An import with a result code that the host answers. -/
def served (name : String) (params : List ValType) : Signature := ⟨name, params, true, .host⟩

/-- An import with a result code that the filesystem module answers. -/
def forwarded (name : String) (params : List ValType) : Signature := ⟨name, params, true, .filesystem⟩

/-- The whole surface, in the order of installation. -/
def table : List Signature := [
  served "args_get" [.i32, .i32],
  served "args_sizes_get" [.i32, .i32],
  served "clock_res_get" [.i32, .i32],
  served "clock_time_get" [.i32, .i64, .i32],
  served "environ_get" [.i32, .i32],
  served "environ_sizes_get" [.i32, .i32],
  forwarded "fd_advise" [.i32, .i64, .i64, .i32],
  forwarded "fd_allocate" [.i32, .i64, .i64],
  forwarded "fd_close" [.i32],
  forwarded "fd_datasync" [.i32],
  forwarded "fd_fdstat_get" [.i32, .i32],
  forwarded "fd_fdstat_set_flags" [.i32, .i32],
  forwarded "fd_fdstat_set_rights" [.i32, .i64, .i64],
  forwarded "fd_filestat_get" [.i32, .i32],
  forwarded "fd_filestat_set_size" [.i32, .i64],
  forwarded "fd_filestat_set_times" [.i32, .i64, .i64, .i32],
  forwarded "fd_pread" [.i32, .i32, .i32, .i64, .i32],
  forwarded "fd_prestat_dir_name" [.i32, .i32, .i32],
  forwarded "fd_prestat_get" [.i32, .i32],
  forwarded "fd_pwrite" [.i32, .i32, .i32, .i64, .i32],
  served "fd_read" [.i32, .i32, .i32, .i32],
  forwarded "fd_readdir" [.i32, .i32, .i32, .i64, .i32],
  forwarded "fd_renumber" [.i32, .i32],
  forwarded "fd_seek" [.i32, .i64, .i32, .i32],
  forwarded "fd_sync" [.i32],
  forwarded "fd_tell" [.i32, .i32],
  served "fd_write" [.i32, .i32, .i32, .i32],
  forwarded "path_create_directory" [.i32, .i32, .i32],
  forwarded "path_filestat_get" [.i32, .i32, .i32, .i32, .i32],
  forwarded "path_filestat_set_times" [.i32, .i32, .i32, .i32, .i64, .i64, .i32],
  forwarded "path_link" [.i32, .i32, .i32, .i32, .i32, .i32, .i32],
  forwarded "path_open" [.i32, .i32, .i32, .i32, .i32, .i64, .i64, .i32, .i32],
  forwarded "path_readlink" [.i32, .i32, .i32, .i32, .i32, .i32],
  forwarded "path_remove_directory" [.i32, .i32, .i32],
  forwarded "path_rename" [.i32, .i32, .i32, .i32, .i32, .i32],
  forwarded "path_symlink" [.i32, .i32, .i32, .i32, .i32],
  forwarded "path_unlink_file" [.i32, .i32, .i32],
  served "poll_oneoff" [.i32, .i32, .i32, .i32],
  { served "proc_exit" [.i32] with result := false },
  served "proc_raise" [.i32],
  served "random_get" [.i32, .i32],
  served "sched_yield" [],
  served "sock_recv" [.i32, .i32, .i32, .i32, .i32, .i32],
  served "sock_send" [.i32, .i32, .i32, .i32, .i32],
  served "sock_shutdown" [.i32, .i32] ]

def find? (name : String) : Option Signature := table.find? (·.name == name)

end Signature

end GuestHost
