import A64dbg.Tracee

/-!
# The system call table

`aarch64_syscalls` gives the numbers 0 to 291 their names; the designated initialisers leave
out 245 to 259, so these entries have a null name. The other two fields of an entry are read
nowhere. `syscallContinue` indexes the table with the whole of x8: what a read past its last
entry finds is not determined by the repository and is a parameter, `overrun`.
-/

namespace A64dbg

/-- `MAX_SYSCALL_NUM`. -/
def maxSyscallNum : Nat := 292

/-- The `name` fields of `aarch64_syscalls`, by number. -/
def aarch64Syscalls : List (Option String) :=
  [some "io_setup", some "io_destroy", some "io_submit", some "io_cancel", some "io_getevents",
   some "setxattr", some "lsetxattr", some "fsetxattr", some "getxattr", some "lgetxattr",
   some "fgetxattr", some "listxattr", some "llistxattr", some "flistxattr", some "removexattr",
   some "lremovexattr", some "fremovexattr", some "getcwd", some "lookup_dcookie",
   some "eventfd2", some "epoll_create1", some "epoll_ctl", some "epoll_pwait", some "dup",
   some "dup3", some "fcntl", some "inotify_init1", some "inotify_add_watch",
   some "inotify_rm_watch", some "ioctl", some "ioprio_set", some "ioprio_get", some "flock",
   some "mknodat", some "mkdirat", some "unlinkat", some "symlinkat", some "linkat",
   some "renameat", some "umount2", some "mount", some "pivot_root", some "nfsservctl",
   some "statfs", some "fstatfs", some "truncate", some "ftruncate", some "fallocate",
   some "faccessat", some "chdir", some "fchdir", some "chroot", some "fchmod", some "fchmodat",
   some "fchownat", some "fchown", some "openat", some "close", some "vhangup", some "pipe2",
   some "quotactl", some "getdents64", some "lseek", some "read", some "write", some "readv",
   some "writev", some "pread64", some "pwrite64", some "preadv", some "pwritev", some "sendfile",
   some "pselect6", some "ppoll", some "signalfd4", some "vmsplice", some "splice", some "tee",
   some "readlinkat", some "fstatat", some "fstat", some "sync", some "fsync", some "fdatasync",
   some "sync_file_range", some "timerfd_create", some "timerfd_settime", some "timerfd_gettime",
   some "utimensat", some "acct", some "capget", some "capset", some "personality", some "exit",
   some "exit_group", some "waitid", some "set_tid_address", some "unshare", some "futex",
   some "set_robust_list", some "get_robust_list", some "nanosleep", some "getitimer",
   some "setitimer", some "kexec_load", some "init_module", some "delete_module",
   some "timer_create", some "timer_gettime", some "timer_getoverrun", some "timer_settime",
   some "timer_delete", some "clock_settime", some "clock_gettime", some "clock_getres",
   some "clock_nanosleep", some "syslog", some "ptrace", some "sched_setparam",
   some "sched_setscheduler", some "sched_getscheduler", some "sched_getparam",
   some "sched_setaffinity", some "sched_getaffinity", some "sched_yield",
   some "sched_get_priority_max", some "sched_get_priority_min", some "sched_rr_get_interval",
   some "restart_syscall", some "kill", some "tkill", some "tgkill", some "sigaltstack",
   some "rt_sigsuspend", some "rt_sigaction", some "rt_sigprocmask", some "rt_sigpending",
   some "rt_sigtimedwait", some "rt_sigqueueinfo", some "rt_sigreturn", some "setpriority",
   some "getpriority", some "reboot", some "setregid", some "setgid", some "setreuid",
   some "setuid", some "setresuid", some "getresuid", some "setresgid", some "getresgid",
   some "setfsuid", some "setfsgid", some "times", some "setpgid", some "getpgid", some "getsid",
   some "setsid", some "getgroups", some "setgroups", some "uname", some "sethostname",
   some "setdomainname", some "getrlimit", some "setrlimit", some "getrusage", some "umask",
   some "prctl", some "getcpu", some "gettimeofday", some "settimeofday", some "adjtimex",
   some "getpid", some "getppid", some "getuid", some "geteuid", some "getgid", some "getegid",
   some "gettid", some "sysinfo", some "mq_open", some "mq_unlink", some "mq_timedsend",
   some "mq_timedreceive", some "mq_notify", some "mq_getsetattr", some "msgget", some "msgctl",
   some "msgrcv", some "msgsnd", some "semget", some "semctl", some "semtimedop", some "semop",
   some "shmget", some "shmctl", some "shmat", some "shmdt", some "socket", some "socketpair",
   some "bind", some "listen", some "accept", some "connect", some "getsockname",
   some "getpeername", some "sendto", some "recvfrom", some "setsockopt", some "getsockopt",
   some "shutdown", some "sendmsg", some "recvmsg", some "readahead", some "brk", some "munmap",
   some "mremap", some "add_key", some "request_key", some "keyctl", some "clone", some "execve",
   some "mmap", some "fadvise64", some "swapon", some "swapoff", some "mprotect", some "msync",
   some "mlock", some "munlock", some "mlockall", some "munlockall", some "mincore",
   some "madvise", some "remap_file_pages", some "mbind", some "get_mempolicy",
   some "set_mempolicy", some "migrate_pages", some "move_pages", some "rt_tgsigqueueinfo",
   some "perf_event_open", some "accept4", some "recvmmsg", some "arch_specific_syscall", none,
   none, none, none, none, none, none, none, none, none, none, none, none, none, none,
   some "wait4", some "prlimit64", some "fanotify_init", some "fanotify_mark",
   some "name_to_handle_at", some "open_by_handle_at", some "clock_adjtime", some "syncfs",
   some "setns", some "sendmmsg", some "process_vm_readv", some "process_vm_writev", some "kcmp",
   some "finit_module", some "sched_setattr", some "sched_getattr", some "renameat2",
   some "seccomp", some "getrandom", some "memfd_create", some "bpf", some "execveat",
   some "userfaultfd", some "membarrier", some "mlock2", some "copy_file_range", some "preadv2",
   some "pwritev2", some "pkey_mprotect", some "pkey_alloc", some "pkey_free", some "statx"]

/-- The table has an entry for every number below `MAX_SYSCALL_NUM`. -/
theorem aarch64Syscalls_length : aarch64Syscalls.length = maxSyscallNum := by
  decide +kernel

/-- A number with a name in the table is inside it. -/
theorem inside_of_named {syscallNum : Word} {name : String}
    (entry : aarch64Syscalls[syscallNum.toNat]? = some (some name)) :
    syscallNum.toNat < maxSyscallNum := by
  obtain ⟨inside, -⟩ := List.getElem?_eq_some_iff.mp entry
  rwa [aarch64Syscalls_length] at inside

/-- `aarch64_syscalls[syscall_num].name`. -/
def syscallName (overrun : Word → Option String) (syscallNum : Word) : Option String :=
  match aarch64Syscalls[syscallNum.toNat]? with
  | some name => name
  | none => overrun syscallNum

/-- The numbers `syscallContinue` passes over: futex, sched_yield, mprotect and madvise. -/
def skipped (syscallNum : Word) : Bool :=
  syscallNum == 98 || syscallNum == 124 || syscallNum == 226 || syscallNum == 233

/-- The name under which `syscallContinue` reports a number to the plugins, if it does. -/
def tracedName (overrun : Word → Option String) (syscallNum : Word) : Option String :=
  if skipped syscallNum then none else syscallName overrun syscallNum

end A64dbg
