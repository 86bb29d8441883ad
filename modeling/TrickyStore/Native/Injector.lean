import Mathlib.Data.BitVec
import Mathlib.Logic.Function.Basic

/-!
# The injector

`inject_library` and its helpers on the registers of the target.  The results of the system calls and of the
functions that are called in the target are given by an environment.  The working set of registers is
passed by reference in the source, and is part of the state here.  What is written to the memory of the target
is left out, but not where and whether it is written.
-/

namespace TrickyStore

namespace Native

namespace Injector

/-! ## Architectures -/

/-- What differs between the architectures.  Without a link register the return address goes to the stack,
and with `cpsr` an odd address selects another instruction set. -/
structure Architecture where
  Register : Type
  [decEq : DecidableEq Register]
  wordBytes : ℕ
  sp : Register
  ip : Register
  ret : Register
  argRegisters : List Register
  link : Option Register
  cpsr : Option Register
  sizeofDlextinfo : ℕ
  wordBytes_pos : 0 < wordBytes
  cpsr_ne_ip : cpsr ≠ some ip

attribute [instance] Architecture.decEq

inductive X86_64Register where
  | r15 | r14 | r13 | r12 | rbp | rbx | r11 | r10 | r9 | r8 | rax | rcx | rdx | rsi | rdi | orig_rax | rip | cs
  | eflags | rsp | ss | fs_base | gs_base | ds | es | fs | gs
deriving DecidableEq, Repr

def x86_64 : Architecture where
  Register := X86_64Register
  wordBytes := 8
  sp := .rsp
  ip := .rip
  ret := .rax
  argRegisters := [.rdi, .rsi, .rdx, .rcx, .r8, .r9]
  link := none
  cpsr := none
  sizeofDlextinfo := 48
  wordBytes_pos := by decide
  cpsr_ne_ip := by decide

inductive I386Register where
  | ebx | ecx | edx | esi | edi | ebp | eax | xds | xes | xfs | xgs | orig_eax | eip | xcs | eflags | esp | xss
deriving DecidableEq, Repr

def i386 : Architecture where
  Register := I386Register
  wordBytes := 4
  sp := .esp
  ip := .eip
  ret := .eax
  argRegisters := []
  link := none
  cpsr := none
  sizeofDlextinfo := 36
  wordBytes_pos := by decide
  cpsr_ne_ip := by decide

inductive Aarch64Register where
  | regs (i : Fin 31)
  | sp
  | pc
  | pstate
deriving DecidableEq, Repr

def aarch64 : Architecture where
  Register := Aarch64Register
  wordBytes := 8
  sp := .sp
  ip := .pc
  ret := .regs 0
  argRegisters := [.regs 0, .regs 1, .regs 2, .regs 3, .regs 4, .regs 5, .regs 6, .regs 7]
  link := some (.regs 30)
  cpsr := none
  sizeofDlextinfo := 48
  wordBytes_pos := by decide
  cpsr_ne_ip := by decide

/-- The registers are the indices of `uregs`. -/
def arm : Architecture where
  Register := Fin 18
  wordBytes := 4
  sp := 13
  ip := 15
  ret := 0
  argRegisters := [0, 1, 2, 3]
  link := some 14
  cpsr := some 16
  sizeofDlextinfo := 40
  wordBytes_pos := by decide
  cpsr_ne_ip := by decide

variable {a : Architecture}

abbrev Architecture.Word (a : Architecture) := BitVec (8 * a.wordBytes)

abbrev Architecture.Registers (a : Architecture) := a.Register → a.Word

def Architecture.kMaxRegisterArgs (a : Architecture) : ℕ := a.argRegisters.length

def CMSG_ALIGN (a : Architecture) (n : ℕ) : ℕ := (n + a.wordBytes - 1) / a.wordBytes * a.wordBytes

def sizeofCmsghdr (a : Architecture) : ℕ := a.wordBytes + 8

def CMSG_SPACE (a : Architecture) (n : ℕ) : ℕ := CMSG_ALIGN a (sizeofCmsghdr a) + CMSG_ALIGN a n

def CMSG_LEN (a : Architecture) (n : ℕ) : ℕ := CMSG_ALIGN a (sizeofCmsghdr a) + n

def sizeofMsghdr (a : Architecture) : ℕ := 7 * a.wordBytes

def sizeofSockaddrUn : ℕ := 110

def kMagicLength : ℕ := 16

def kLibcModule : String := "libc.so"

def kLibdlModule : String := "libdl.so"

def kEntrySymbol : String := "entry"

def SIGSEGV : ℕ := 11

def SIGSTOP : ℕ := 19

def AF_UNIX : ℕ := 1

def SOCK_DGRAM : ℕ := 2

def SOCK_CLOEXEC : ℕ := 0x80000

def MSG_WAITALL : ℕ := 0x100

def SOL_SOCKET : ℕ := 1

def SCM_RIGHTS : ℕ := 1

def RTLD_NOW (a : Architecture) : ℕ := if a.wordBytes = 8 then 2 else 0

/-! ## The environment -/

/-- A stop of the target while a remote call is awaited: whether `wait_for_trace` reports it, the registers the
target has stopped with, and what comes of reading them and of continuing. -/
structure Stop (a : Architecture) where
  waited : Bool
  registers : a.Registers
  getRegs : Bool
  signal : ℕ
  cont : Bool

/-- One remote call: the results of `write_proc`, of setting the registers and of continuing, and the stops that
follow.  When there are no more, the target is not stopped again. -/
structure CallOutcome (a : Architecture) where
  stackArgs : ℤ
  returnAddress : ℤ
  setRegs : Bool
  cont : Bool
  stops : List (Stop a)

/-- The remote calls of a run; a run makes each of them once at most. -/
inductive Call where
  | socket
  | errno
  | bind
  | recvmsg
  | closeSocket
  | dlopen
  | dlerror
  | strlen
  | closeLibrary
  | dlsym
  | entry
deriving DecidableEq, Repr

/-- What is pushed to the stack of the target. -/
inductive Push where
  | sockaddr
  | control
  | msghdr
  | dlextinfo
  | path
  | entryName
deriving DecidableEq, Repr

/-- `cmsghdr` with the descriptor behind it. -/
structure ControlMessage where
  len : ℕ
  level : ℕ
  type : ℕ
  fd : BitVec 32
deriving DecidableEq, Repr

/-- A run, in the order of the code.  `interrupted` are the registers the target stops with by itself where
nothing could be sent to the call that waits for it. -/
structure Environment (a : Architecture) where
  attach : Bool
  wait : Bool
  stopSignal : ℕ
  getRegs : Bool
  findModuleReturnAddr : String → a.Word
  findFuncAddr : String → String → a.Word
  setSockcreateCon : Bool
  localSocket : Bool
  openLibrary : Bool
  written : Push → ℤ
  call : Call → CallOutcome a
  readErrno : ℤ
  remoteErrno : BitVec 32
  sendmsg : Bool
  interrupted : Option a.Registers
  readControl : ℤ
  control : ControlMessage
  readDlerror : ℤ
  dlerror : String
  restore : Bool

/-- The working set of registers, the registers of the target, whether it is stopped, and the registers it was
detached with. -/
structure State (a : Architecture) where
  regs : a.Registers
  target : a.Registers
  stopped : Bool
  detached : Option a.Registers

abbrev Inject (a : Architecture) := StateM (State a)

/-- The target runs on until it is waited for. -/
def State.initial (found : a.Registers) : State a where
  regs := fun _ => 0
  target := found
  stopped := false
  detached := none

/-! ## Registers and stack -/

def setReg (r : a.Register) (value : a.Word) : Inject a Unit :=
  modify fun s => { s with regs := Function.update s.regs r value }

/-- `PTRACE_GETREGS` or `PTRACE_GETREGSET`. -/
def getRegs (works : Bool) : Inject a Bool := do
  let s ← get
  if works && s.stopped then do
    set { s with regs := s.target }
    return true
  else return false

def setRegs (works : Bool) (regs : a.Registers) : Inject a Bool := do
  let s ← get
  if works && s.stopped then do
    set { s with target := regs }
    return true
  else return false

/-- `PTRACE_CONT`. -/
def ptraceCont (works : Bool) : Inject a Bool := do
  let s ← get
  if works && s.stopped then do
    set { s with stopped := false }
    return true
  else return false

def stopAt (registers : a.Registers) : Inject a Unit :=
  modify fun s => { s with target := registers, stopped := true }

def mayStop (registers : Option a.Registers) : Inject a Unit :=
  match registers with
  | some registers => stopAt registers
  | none => return ()

def alignStack (preserveBytes : ℕ) : Inject a Unit :=
  modify fun s => { s with
    regs := Function.update s.regs a.sp ((s.regs a.sp - BitVec.ofNat _ preserveBytes) &&& ~~~0xf) }

/-- The registers of the first arguments. -/
def setupArgs (args : List a.Word) : Inject a Unit :=
  modify fun s => { s with
    regs := (a.argRegisters.zip args).foldl (fun regs arg => Function.update regs arg.1 arg.2) s.regs }

/-- `REG_SP -= length`. -/
def reserve (length : ℕ) : Inject a Unit :=
  modify fun s => { s with regs := Function.update s.regs a.sp (s.regs a.sp - BitVec.ofNat _ length) }

/-- `push_memory` and `push_string`: the address, or zero. -/
def pushMemory (written : ℤ) (length : ℕ) : Inject a a.Word := do
  reserve length
  alignStack 0
  let s ← get
  return if written = length then s.regs a.sp else 0

/-! ## Remote calls -/

def stackArgsSize (a : Architecture) (args : ℕ) : ℕ := (args - a.kMaxRegisterArgs) * a.wordBytes

/-- The arguments that do not fit the registers. -/
def pushStackArgs (o : CallOutcome a) (args : ℕ) : Inject a Bool :=
  if args > a.kMaxRegisterArgs then do
    alignStack (stackArgsSize a args)
    return o.stackArgs = stackArgsSize a args
  else return true

/-- The return address goes to the link register or to the stack. -/
def placeReturnAddr (o : CallOutcome a) (returnAddr : a.Word) : Inject a Bool :=
  match a.link with
  | some link => do
    setReg link returnAddr
    return true
  | none => do
    reserve a.wordBytes
    return o.returnAddress = a.wordBytes

/-- Where the target goes on for an address. -/
def jumpTarget (funcAddr : a.Word) : a.Word :=
  match a.cpsr with
  | none => funcAddr
  | some _ => if funcAddr &&& 1 ≠ 0 then funcAddr &&& ~~~1 else funcAddr

def CPSR_T_MASK (a : Architecture) : a.Word := 1 <<< 5

/-- The instruction set of an address. -/
def thumbBit (funcAddr cpsr : a.Word) : a.Word :=
  if funcAddr &&& 1 ≠ 0 then cpsr ||| CPSR_T_MASK a else cpsr &&& ~~~CPSR_T_MASK a

def jump (funcAddr : a.Word) (regs : a.Registers) : a.Registers :=
  let regs := Function.update regs a.ip (jumpTarget funcAddr)
  match a.cpsr with
  | none => regs
  | some cpsr => Function.update regs cpsr (thumbBit funcAddr (regs cpsr))

def remotePreCall (o : CallOutcome a) (funcAddr returnAddr : a.Word) (args : List a.Word) : Inject a Bool := do
  alignStack 0
  setupArgs args
  if ← pushStackArgs o args.length then
    if ← placeReturnAddr o returnAddr then
      modify fun s => { s with regs := jump funcAddr s.regs }
      let s ← get
      if ← setRegs o.setRegs s.regs then ptraceCont o.cont
      else return false
    else return false
  else return false

/-- The loop of `remote_post_call` over the stops. -/
def remotePostCall (expectedReturnAddr : a.Word) : List (Stop a) → Inject a a.Word
  | [] => return 0
  | stop :: rest => do
    stopAt stop.registers
    if stop.waited then
      if ← getRegs stop.getRegs then
        let s ← get
        if stop.signal = SIGSEGV then return if s.regs a.ip = expectedReturnAddr then s.regs a.ret else 0
        else if ← ptraceCont stop.cont then remotePostCall expectedReturnAddr rest
        else return 0
      else return 0
    else return 0

def remoteCall (o : CallOutcome a) (funcAddr returnAddr : a.Word) (args : List a.Word) : Inject a a.Word := do
  if ← remotePreCall o funcAddr returnAddr args then remotePostCall returnAddr o.stops
  else return 0

/-! ## The steps of an injection -/

variable (env : Environment a)

def getRemoteErrno : Inject a (BitVec 32) :=
  let errnoAddr := env.findFuncAddr kLibcModule "__errno"
  if errnoAddr = 0 then return 0
  else do
    let _ ← remoteCall (env.call .errno) errnoAddr 0 []
    return if env.readErrno = 0 then 0 else env.remoteErrno

def closeRemote (fd : BitVec 32) : Inject a Unit := do
  let _ ← remoteCall (env.call .closeSocket) (env.findFuncAddr kLibcModule "close") 0 [fd.signExtend _]

/-- The end of `transfer_fd_to_remote`, from the call of `recvmsg` on. -/
def receiveFd (remoteFd : BitVec 32) (remoteHdr : a.Word) : Inject a (Option (BitVec 32)) := do
  let args := [remoteFd.signExtend _, remoteHdr, BitVec.ofNat _ MSG_WAITALL]
  if ← remotePreCall (env.call .recvmsg) (env.findFuncAddr kLibcModule "recvmsg") 0 args then
    if env.sendmsg then
      let result ← remotePostCall 0 (env.call .recvmsg).stops
      if result = -1 then
        let _ ← getRemoteErrno env
        closeRemote env remoteFd
        return none
      else if env.readControl ≠ CMSG_SPACE a 4 then
        closeRemote env remoteFd
        return none
      else if env.control.len ≠ CMSG_LEN a 4 ∨ env.control.level ≠ SOL_SOCKET ∨ env.control.type ≠ SCM_RIGHTS then
        closeRemote env remoteFd
        return none
      else
        closeRemote env remoteFd
        return some env.control.fd
    else
      -- the target still waits for the message
      mayStop env.interrupted
      closeRemote env remoteFd
      return none
  else
    closeRemote env remoteFd
    return none

def transferFdToRemote : Inject a (Option (BitVec 32)) :=
  let socketAddr := env.findFuncAddr kLibcModule "socket"
  let bindAddr := env.findFuncAddr kLibcModule "bind"
  if !env.setSockcreateCon then return none
  else if !env.localSocket then return none
  else if !env.openLibrary then return none
  else if socketAddr = 0 ∨ bindAddr = 0 ∨ env.findFuncAddr kLibcModule "recvmsg" = 0 ∨
      env.findFuncAddr kLibcModule "close" = 0 then return none
  else do
    let fd ← remoteCall (env.call .socket) socketAddr 0
      [BitVec.ofNat _ AF_UNIX, BitVec.ofNat _ (SOCK_DGRAM ||| SOCK_CLOEXEC), 0]
    let remoteFd : BitVec 32 := fd.setWidth 32
    if remoteFd = -1 then
      let _ ← getRemoteErrno env
      return none
    else
      let remoteAddr ← pushMemory (env.written .sockaddr) sizeofSockaddrUn
      let bindResult ← remoteCall (env.call .bind) bindAddr 0
        [remoteFd.signExtend _, remoteAddr, BitVec.ofNat _ (2 + 1 + kMagicLength)]
      if bindResult = -1 then
        let _ ← getRemoteErrno env
        closeRemote env remoteFd
        return none
      else
        let _ ← pushMemory (env.written .control) (CMSG_SPACE a 4)
        let remoteHdr ← pushMemory (env.written .msghdr) (sizeofMsghdr a)
        receiveFd env remoteFd remoteHdr

def getRemoteDlerror (libcReturnAddr : a.Word) : Inject a String :=
  let dlerrorAddr := env.findFuncAddr kLibdlModule "dlerror"
  let strlenAddr := env.findFuncAddr kLibcModule "strlen"
  if dlerrorAddr = 0 then return "Failed to find dlerror function"
  else do
    let dlerrorStrAddr ← remoteCall (env.call .dlerror) dlerrorAddr libcReturnAddr []
    if dlerrorStrAddr = 0 then return "dlerror returned null"
    else if strlenAddr = 0 then return "Failed to find strlen function"
    else
      let dlerrorLen ← remoteCall (env.call .strlen) strlenAddr libcReturnAddr [dlerrorStrAddr]
      if dlerrorLen.toNat = 0 ∨ dlerrorLen.toNat > 1024 then return "Invalid dlerror string length"
      else if env.readDlerror ≠ dlerrorLen.toNat then return "Failed to read dlerror string"
      else return env.dlerror

def remoteDlopen (libPath : String) (libcReturnAddr : a.Word) : Inject a (Option a.Word) :=
  let dlopenAddr := env.findFuncAddr kLibdlModule "android_dlopen_ext"
  if dlopenAddr = 0 then return none
  else do
    let remoteInfo ← pushMemory (env.written .dlextinfo) a.sizeofDlextinfo
    let remotePath ← pushMemory (env.written .path) (libPath.utf8ByteSize + 1)
    let remoteHandle ← remoteCall (env.call .dlopen) dlopenAddr libcReturnAddr
      [remotePath, BitVec.ofNat _ (RTLD_NOW a), remoteInfo]
    if remoteHandle = 0 then
      let _ ← getRemoteDlerror env libcReturnAddr
      return none
    else return some remoteHandle

def remoteFindEntry (remoteHandle libcReturnAddr : a.Word) : Inject a (Option a.Word) :=
  let dlsymAddr := env.findFuncAddr kLibdlModule "dlsym"
  if dlsymAddr = 0 then return none
  else do
    let remoteSymbol ← pushMemory (env.written .entryName) (kEntrySymbol.utf8ByteSize + 1)
    let entryAddr ← remoteCall (env.call .dlsym) dlsymAddr libcReturnAddr [remoteHandle, remoteSymbol]
    if entryAddr = 0 then
      let _ ← getRemoteDlerror env libcReturnAddr
      return none
    else return some entryAddr

def remoteCallEntry (entryAddr remoteHandle libcReturnAddr : a.Word) : Inject a Bool := do
  let _ ← remoteCall (env.call .entry) entryAddr libcReturnAddr [remoteHandle]
  return true

def closeLibrary (libFd : BitVec 32) : Inject a Unit :=
  let closeAddr := env.findFuncAddr kLibcModule "close"
  if closeAddr = 0 then return ()
  else do
    let _ ← remoteCall (env.call .closeLibrary) closeAddr 0 [libFd.signExtend _]

/-- The end of `inject_library`, with the library loaded. -/
def runEntry (remoteHandle : a.Word) (backupRegs : a.Registers) : Inject a Bool := do
  let libcReturnAddr := env.findModuleReturnAddr kLibcModule
  match ← remoteFindEntry env remoteHandle libcReturnAddr with
  | none => return false
  | some entryAddr =>
    if ← remoteCallEntry env entryAddr remoteHandle libcReturnAddr then setRegs env.restore backupRegs
    else return false

/-- The same with the descriptor of the library in the target. -/
def runLibrary (libPath : String) (libFd : BitVec 32) (backupRegs : a.Registers) : Inject a Bool := do
  match ← remoteDlopen env libPath (env.findModuleReturnAddr kLibcModule) with
  | none => return false
  | some remoteHandle =>
    closeLibrary env libFd
    runEntry env remoteHandle backupRegs

/-- The same from the backup of the registers on. -/
def injectStopped (libPath : String) (backupRegs : a.Registers) : Inject a Bool := do
  if env.findModuleReturnAddr kLibcModule = 0 then return false
  else
    match ← transferFdToRemote env with
    | none => return false
    | some libFd => runLibrary env libPath libFd backupRegs

/-- `inject_library` with the target attached. -/
def injectAttached (libPath : String) : Inject a Bool :=
  if !env.wait then return false
  else do
    modify fun s => { s with stopped := true }
    if env.stopSignal ≠ SIGSTOP then return false
    else if ← getRegs env.getRegs then
      let s ← get
      injectStopped env libPath s.regs
    else return false

/-- The destructor of `PtraceAttachment`. -/
def detach : Inject a Unit := modify fun s => { s with detached := some s.target }

def injectLibrary (libPath : String) : Inject a Bool :=
  if !env.attach then return false
  else do
    let result ← injectAttached env libPath
    detach
    return result

/-- The state after a run on a target with these registers. -/
def runOn (libPath : String) (found : a.Registers) : State a :=
  ((injectLibrary env libPath).run (.initial found)).2

end Injector

end Native

end TrickyStore
