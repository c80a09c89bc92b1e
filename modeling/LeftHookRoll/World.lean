import Mathlib
import LeftHookRoll.Basic
import LeftHookRoll.Lib.Eff

/-!
# System calls and what the process shares

`Sys` says what the operating system answers: each answer is a function of how many calls were made
before (`World.tick`), so a statement about every `Sys` is about every behaviour of the system.
`World` holds what all objects of the server share: the globals and static members, the clock, the
temporary files that exist, and what the calls made so far did outside (bytes on sockets, signals,
paths used).
-/

namespace LeftHookRoll

/-- The exceptions the server throws; `runtime` stands for every other `std::exception`. `execed` is
none: the process became another program, so no handler and no destructor runs after it. -/
inductive Exn
  | client (statusCode : Nat) (msg : String)
  | fatal (msg : String)
  | runtime (msg : String)
  | execed
deriving DecidableEq, Repr

inductive FileKind
  | regular
  | directory
  | other
deriving DecidableEq, Repr

structure FileStat where
  kind : FileKind
  size : Nat
deriving DecidableEq, Repr

/-- Outcome of `send(fd, buf, n, MSG_DONTWAIT)`; a broken pipe also raises `SIGPIPE`. -/
inductive SendResult
  | sent (n : Nat)
  | wouldBlock
  | brokenPipe
  | failed
deriving DecidableEq, Repr

/-- Outcome of `waitpid(pid, &status, WNOHANG)`. -/
inductive WaitResult
  | running
  | exited
  | interrupted
  | failed
deriving DecidableEq, Repr

/-- Outcome of `fork()`: the run goes on as the parent or as the child. -/
inductive ForkResult
  | failed
  | parent (pid : Nat)
  | child
deriving DecidableEq, Repr

inductive Signal
  | SIGTERM
  | SIGKILL
deriving DecidableEq, Repr

/-- A path given to the system. `errorPage` is the `open` of a configured error page, `exec` the
script that a child is forked for. -/
inductive Call
  | stat (path : Bytes)
  | openRead (path : Bytes)
  | openWrite (path : Bytes) (ok : Bool)
  | remove (path : Bytes)
  | opendir (path : Bytes)
  | exec (path : Bytes)
  | errorPage (path : Bytes)
deriving DecidableEq, Repr

/-- The answers of the operating system. Byte counts are cut to what was asked for where they are
used; a `none` is the error return. -/
structure Sys where
  /-- `write` to a temporary file. -/
  writeTmp : Nat → Nat → Option Nat
  /-- `read` of a temporary file. -/
  readTmp : Nat → Nat → Option Nat
  /-- `open` of a temporary file, when only an existing name may stop it. -/
  openTmp : Nat → Bool
  send : Nat → Nat → SendResult
  stat : Nat → Bytes → Option FileStat
  /-- `open(path, O_RDONLY)`: the content the descriptor will deliver. -/
  openRead : Nat → Bytes → Option Bytes
  /-- `read` of a file opened with `openRead`. -/
  readFile : Nat → Nat → Option Nat
  /-- `open(path, O_WRONLY | O_CREAT | O_TRUNC)`. -/
  openWrite : Nat → Bytes → Bool
  /-- `write` to an upload. -/
  writeFile : Nat → Nat → Option Nat
  /-- `remove(path)`: `none` is success, else whether the error is `EACCES` or `EPERM`. -/
  remove : Nat → Bytes → Option Bool
  /-- `opendir` and all its `readdir`. -/
  opendir : Nat → Bytes → Option (List Bytes)
  /-- `pipe`: the number of the read end. -/
  pipe : Nat → Option Nat
  fork : Nat → ForkResult
  chdir : Nat → Bytes → Bool
  dup2 : Nat → Bool
  /-- Whether `execve` succeeds, so does not return. -/
  execve : Nat → Bytes → Bool
  waitpid : Nat → Nat → WaitResult
  /-- How many rounds of `cleanupAllProcesses` start within its grace period. -/
  graceRounds : Nat → Nat
  epollCtl : Nat → Bool
  /-- `currentHttpDate` of a time. -/
  httpDate : Nat → Bytes

structure World where
  /-- System calls made so far. -/
  tick : Nat := 0
  /-- `time(NULL)`. -/
  now : Nat := 0
  /-- The static `file_counter` of `DataStore::_generateTempFileName`. -/
  fileCounter : Nat := 0
  /-- The numbers `n` for which the file `FILEPREFIX n` exists. -/
  tmp : Finset Nat := ∅
  /-- `g_sigpipe != 0`. -/
  sigpipe : Bool := false
  /-- `CGIManager::_activePids`. -/
  activePids : List Nat := []
  /-- The bytes each socket has accepted. -/
  outbox : Nat → Bytes := fun _ => []
  /-- The calls of `send`, latest first: the number of each, and how many bytes it was offered. -/
  sends : List (Nat × Nat) := []
  /-- The signals sent, latest first. -/
  signals : List (Nat × Signal) := []
  /-- The paths used, latest first. -/
  calls : List Call := []
  /-- The content of the files opened for writing. -/
  uploads : Bytes → Bytes := fun _ => []

/-- Code of a method of `σ`. -/
abbrev Method (σ : Type) := Eff Exn (σ × World)

variable {σ : Type}

/-- Make one system call: its number among all calls. -/
def sysTick : Method σ Nat := fun s => (.ok s.2.tick, s.1, { s.2 with tick := s.2.tick + 1 })

def logCall (c : Call) : Method σ Unit := Eff.modWorld fun w => { w with calls := c :: w.calls }

@[simp] theorem sysTick_bind {β : Type} (f : Nat → Method σ β) (s : σ × World) :
    (sysTick >>= f) s = f s.2.tick (s.1, { s.2 with tick := s.2.tick + 1 }) := rfl

/-- No system call on temporary files fails. -/
structure Sys.NoFail (sys : Sys) : Prop where
  writeTmp : ∀ t n, 0 < n → ∃ k, 0 < k ∧ sys.writeTmp t n = some k
  readTmp : ∀ t n, ∃ k, sys.readTmp t n = some k
  openTmp : ∀ t, sys.openTmp t = true

/-- A system on which every call succeeds and takes or gives all it is asked for; there are no
files. -/
def Sys.calm : Sys where
  writeTmp _ n := some n
  readTmp _ n := some n
  openTmp _ := true
  send _ n := .sent n
  stat _ _ := none
  openRead _ _ := none
  readFile _ n := some n
  openWrite _ _ := true
  writeFile _ n := some n
  remove _ _ := none
  opendir _ _ := none
  pipe _ := some 9
  fork _ := .parent 100
  chdir _ _ := true
  dup2 _ := true
  execve _ _ := true
  waitpid _ _ := .running
  graceRounds _ := 50
  epollCtl _ := true
  httpDate _ := []

theorem Sys.calm_noFail : Sys.calm.NoFail :=
  ⟨fun _ n hn => ⟨n, hn, rfl⟩, fun _ n => ⟨n, rfl⟩, fun _ => rfl⟩

end LeftHookRoll
