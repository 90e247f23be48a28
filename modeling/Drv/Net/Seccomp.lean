import Mathlib.Data.List.Basic

/-!
# Syscall filters

The seccomp programs that confine the network service and the provider, as
their builders put them together, and what classic BPF makes of them. A
fragment that looks at arguments loads them over the number of the call, and
loads the number again before it goes on.
-/

namespace Drv.Net.Seccomp

inductive Target where
  | x8664
  | aarch64

def Target.auditArch : Target → UInt32
  | x8664 => 0xc000003e
  | aarch64 => 0xc00000b7

/-- The numbers of a call on the two targets. -/
structure Syscall where
  x8664 : UInt32
  aarch64 : UInt32

namespace Syscall

def number (syscall : Syscall) : Target → UInt32
  | .x8664 => syscall.x8664
  | .aarch64 => syscall.aarch64

def read : Syscall := ⟨0, 63⟩
def write : Syscall := ⟨1, 64⟩
def close : Syscall := ⟨3, 57⟩
def mmap : Syscall := ⟨9, 222⟩
def mprotect : Syscall := ⟨10, 226⟩
def munmap : Syscall := ⟨11, 215⟩
def brk : Syscall := ⟨12, 214⟩
def rtSigaction : Syscall := ⟨13, 134⟩
def rtSigprocmask : Syscall := ⟨14, 135⟩
def rtSigreturn : Syscall := ⟨15, 139⟩
def ioctl : Syscall := ⟨16, 29⟩
def mremap : Syscall := ⟨25, 216⟩
def madvise : Syscall := ⟨28, 233⟩
def nanosleep : Syscall := ⟨35, 101⟩
def getpid : Syscall := ⟨39, 172⟩
def socket : Syscall := ⟨41, 198⟩
def sendto : Syscall := ⟨44, 206⟩
def recvfrom : Syscall := ⟨45, 207⟩
def sendmsg : Syscall := ⟨46, 211⟩
def recvmsg : Syscall := ⟨47, 212⟩
def exit : Syscall := ⟨60, 93⟩
def fcntl : Syscall := ⟨72, 25⟩
def sigaltstack : Syscall := ⟨131, 132⟩
def futex : Syscall := ⟨202, 98⟩
def restartSyscall : Syscall := ⟨219, 128⟩
def clockGettime : Syscall := ⟨228, 113⟩
def clockNanosleep : Syscall := ⟨230, 115⟩
def exitGroup : Syscall := ⟨231, 94⟩
def epollCtl : Syscall := ⟨233, 21⟩
def openat : Syscall := ⟨257, 56⟩
def epollPwait : Syscall := ⟨281, 22⟩
def accept4 : Syscall := ⟨288, 242⟩
def getrandom : Syscall := ⟨318, 278⟩

end Syscall

/-! ## Classic BPF -/

structure SeccompData where
  nr : UInt32
  arch : UInt32
  args : Nat → UInt64

/-- The word at an offset: the arguments, in halves, begin at 16. -/
def SeccompData.word (d : SeccompData) (offset : Nat) : UInt32 :=
  if offset = 0 then d.nr
  else if offset = 4 then d.arch
  else if offset % 8 = 0 then (d.args ((offset - 16) / 8)).toUInt32
  else (d.args ((offset - 16) / 8) >>> 32).toUInt32

inductive Action where
  | killProcess
  | allow

inductive SockFilter where
  | ld (offset : Nat)
  | jeq (k : UInt32) (jt jf : Nat)
  | jset (k : UInt32) (jt jf : Nat)
  | ret (action : Action)

/-- What a program answers after `skip` instructions, with `a` loaded;
nothing if a jump leaves it. -/
def run (d : SeccompData) : List SockFilter → Nat → UInt32 → Option Action
  | [], _, _ => none
  | _ :: rest, skip + 1, a => run d rest skip a
  | .ld offset :: rest, 0, _ => run d rest 0 (d.word offset)
  | .jeq k jt jf :: rest, 0, a => if a = k then run d rest jt a else run d rest jf a
  | .jset k jt jf :: rest, 0, a => if a &&& k ≠ 0 then run d rest jt a else run d rest jf a
  | .ret action :: _, 0, _ => some action

/-! ## The builders -/

def kill : SockFilter := .ret .killProcess
def allow : SockFilter := .ret .allow
def arg (index : Nat) : SockFilter := .ld (16 + index * 8)
def argHigh (index : Nat) : SockFilter := .ld (20 + index * 8)

/-- A word that must have a value. -/
def demand (load : SockFilter) (k : UInt32) : List SockFilter := [load, .jeq k 1 0, kill]

def requests : List UInt32 := [0x8008B301, 0xC038B302, 0x8080B303, 0x8008B401, 0xB502, 0xB503]

/-- What is appended to a filter: by one of the `append_` functions, for the
requests of ioctl, or for a call that is allowed. -/
inductive Part where
  | killed (syscall : Syscall)
  | datagramFlags (syscall : Syscall) (flags : UInt32)
  | messageFlags (syscall : Syscall) (flags : UInt32)
  | accept4
  | fcntlCommands
  | epollCtl
  | epollPwait
  | noExecMemory (syscall : Syscall)
  | ioctl
  | allowed (syscall : Syscall)

variable (target : Target)

def append : Part → List SockFilter
  | .killed syscall => [.jeq (syscall.number target) 0 1, kill]
  | .datagramFlags syscall flags =>
    .jeq (syscall.number target) 0 17 :: demand (arg 3) flags ++ demand (arg 4) 0 ++
      demand (argHigh 4) 0 ++ demand (arg 5) 0 ++ [argHigh 5, .jeq 0 0 1, allow, kill, .ld 0]
  | .messageFlags syscall flags =>
    .jeq (syscall.number target) 0 5 :: demand (arg 2) flags ++ [allow, .ld 0]
  | .accept4 => .jeq (Syscall.accept4.number target) 0 4 :: demand (arg 3) 0x80800 ++ [allow, .ld 0]
  | .fcntlCommands => .jeq (Syscall.fcntl.number target) 0 5 :: demand (arg 1) 1 ++ [allow, .ld 0]
  | .epollCtl =>
    [.jeq (Syscall.epollCtl.number target) 0 9, arg 1, .jeq 1 3 0, .jeq 3 2 0, .jeq 2 1 0, kill] ++
      demand (argHigh 1) 0 ++ [allow, .ld 0]
  | .epollPwait =>
    .jeq (Syscall.epollPwait.number target) 0 19 :: demand (arg 2) 64 ++ demand (argHigh 2) 0 ++
      demand (arg 4) 0 ++ demand (argHigh 4) 0 ++ demand (arg 5) 0 ++ demand (argHigh 5) 0 ++
      [allow, .ld 0]
  | .noExecMemory syscall =>
    [.jeq (syscall.number target) 0 5, arg 2, .jset 4 0 1, kill, allow, .ld 0]
  | .ioctl =>
    .jeq (Syscall.ioctl.number target) 0 (requests.length + 3) :: arg 1 ::
      requests.mapIdx (fun i request => .jeq request (requests.length - i) 0) ++
      [kill, allow, .ld 0]
  | .allowed syscall => [.jeq (syscall.number target) 0 1, allow]

/-- The check of the architecture, the parts, and the end of every filter. -/
def filter (parts : List Part) : List SockFilter :=
  [.ld 4, .jeq target.auditArch 1 0, kill, .ld 0] ++ parts.flatMap (append target) ++ [kill]

open Drv.Net.Seccomp.Part Syscall

def networkParts : List Part :=
  [killed .ioctl, killed socket, killed openat, datagramFlags sendto 0x4040,
    datagramFlags recvfrom 0x60, .accept4, fcntlCommands, .epollCtl, .epollPwait,
    noExecMemory mmap, noExecMemory mprotect] ++
  [read, write, close, munmap, brk, mremap, madvise, rtSigaction, rtSigprocmask, rtSigreturn,
    sigaltstack, futex, restartSyscall, clockGettime, clockNanosleep, nanosleep, getrandom,
    getpid, exit, exitGroup].map allowed

def networkFilter : List SockFilter := filter target networkParts

def providerParts (ethernet linkControl : Bool) : List Part :=
  (if ethernet then [datagramFlags recvfrom 0x60, datagramFlags sendto 0x4040] else []) ++
  (if linkControl then [messageFlags recvmsg 0x40000040, messageFlags sendmsg 0x4040] else []) ++
  [.ioctl, fcntlCommands, .epollCtl, .epollPwait, noExecMemory mmap, noExecMemory mprotect] ++
  [read, write, close, munmap, brk, mremap, madvise, futex, getrandom, clockGettime, rtSigaction,
    rtSigprocmask, rtSigreturn, sigaltstack, restartSyscall, exit, exitGroup].map allowed

def providerFilter (ethernet linkControl : Bool) : List SockFilter :=
  filter target (providerParts ethernet linkControl)

/-- `provider_setup` puts the accept4 part behind the check of the architecture. -/
def splice (resolver : Bool) (program : List SockFilter) : List SockFilter :=
  if resolver then program.take 4 ++ append target .accept4 ++ program.drop 4 else program

end Drv.Net.Seccomp
