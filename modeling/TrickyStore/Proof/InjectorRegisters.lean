import TrickyStore.Lib.Triple
import TrickyStore.Native.Injector

/-!
# The registers that the injector leaves

What a remote call does to the registers of the target depends on the outcomes only, not on the registers the
target was found with.  Once a call has been set up, every step up to the restoring one leaves the target with
an instruction pointer that is given by the outcomes.
-/

open Lib

namespace TrickyStore

namespace Native

namespace Injector

variable {a : Architecture}

/-! ## What a call comes to -/

/-- All that has to be written for a call with so many arguments is written. -/
def CallOutcome.prepared (o : CallOutcome a) (args : ℕ) : Bool :=
  (args ≤ a.kMaxRegisterArgs || o.stackArgs = stackArgsSize a args) &&
    (a.link.isSome || o.returnAddress = a.wordBytes)

/-- The stop is another signal, and the target goes on. -/
def Stop.passed (stop : Stop a) : Bool := stop.waited && stop.getRegs && stop.signal ≠ SIGSEGV && stop.cont

/-- What is returned for a stop that is the last one. -/
def Stop.result (stop : Stop a) (expectedReturnAddr : a.Word) : a.Word :=
  if stop.waited && stop.getRegs && stop.signal = SIGSEGV && stop.registers a.ip = expectedReturnAddr then
    stop.registers a.ret
  else 0

/-- The first stop that the target does not go on after. -/
def lastStop (stops : List (Stop a)) : Option (Stop a) := stops.find? fun stop => !stop.passed

def CallOutcome.awaited (o : CallOutcome a) (returnAddr : a.Word) : a.Word :=
  ((lastStop o.stops).map fun stop => stop.result returnAddr).getD 0

def CallOutcome.result (o : CallOutcome a) (args : ℕ) (returnAddr : a.Word) : a.Word :=
  if o.prepared args && o.cont then o.awaited returnAddr else 0

/-- The target is stopped, with the registers it was found with or with a known instruction pointer. -/
structure At (ip : Option a.Word) (found : a.Registers) (s : State a) : Prop where
  stopped : s.stopped = true
  registers : ip.elim (s.target = found) fun ip => s.target a.ip = ip

/-- The value and the effect on the target do not depend on the registers it was found with. -/
def Uniform {α : Type} (ip : Option a.Word) (x : Inject a α) (value : α) (ip' : Option a.Word) : Prop :=
  ∀ found, Returns (At ip found) x value (At ip' found)

section Calls

variable {ip ip' ip'' : Option a.Word} {found : a.Registers} {α β : Type} {x : Inject a α} {v : α} {w : β}

theorem Uniform.bind {f : α → Inject a β} (hx : Uniform ip x v ip') (hf : Uniform ip' (f v) w ip'') :
    Uniform ip (x >>= f) w ip'' :=
  fun found => (hx found).bind (hf found)

theorem Uniform.of_pure : Uniform ip (pure v : Inject a α) v ip := fun _ => Returns.of_pure fun _ h => h

theorem alignStack_at (preserveBytes : ℕ) :
    Triple (At ip found) (alignStack preserveBytes) fun _ => At ip found :=
  .of_modify fun _ h => ⟨h.stopped, h.registers⟩

theorem setupArgs_at (args : List a.Word) : Triple (At ip found) (setupArgs args) fun _ => At ip found :=
  .of_modify fun _ h => ⟨h.stopped, h.registers⟩

theorem stopAt_at (registers : a.Registers) {P : State a → Prop} :
    Triple P (stopAt registers) fun _ => At (some (registers a.ip)) found :=
  .of_modify fun _ _ => ⟨rfl, rfl⟩

theorem pushMemory_at (written : ℤ) (length : ℕ) :
    Triple (At ip found) (pushMemory written length) fun _ => At ip found :=
  fun _ h => ⟨h.stopped, h.registers⟩

theorem pushStackArgs_returns (o : CallOutcome a) (args : ℕ) :
    Returns (At ip found) (pushStackArgs o args)
      (args ≤ a.kMaxRegisterArgs || o.stackArgs = stackArgsSize a args) (At ip found) := by
  unfold pushStackArgs
  by_cases h : args > a.kMaxRegisterArgs
  · have hle : ¬ args ≤ a.kMaxRegisterArgs := by omega
    simp only [if_pos h, hle, decide_false, Bool.false_or]
    exact fun _ h => ⟨rfl, h.stopped, h.registers⟩
  · have hle : args ≤ a.kMaxRegisterArgs := by omega
    simp only [if_neg h, hle, decide_true, Bool.true_or]
    exact Returns.of_pure fun _ h => h

theorem placeReturnAddr_returns (o : CallOutcome a) (returnAddr : a.Word) :
    Returns (At ip found) (placeReturnAddr o returnAddr) (a.link.isSome || o.returnAddress = a.wordBytes)
      (At ip found) := by
  unfold placeReturnAddr
  cases a.link with
  | none => exact fun _ h => ⟨rfl, h.stopped, h.registers⟩
  | some link => exact fun _ h => ⟨rfl, h.stopped, h.registers⟩

theorem jump_ip (funcAddr : a.Word) (regs : a.Registers) : jump funcAddr regs a.ip = jumpTarget funcAddr := by
  have hne := a.cpsr_ne_ip
  unfold jump
  cases hcpsr : a.cpsr with
  | none => exact Function.update_self ..
  | some cpsr =>
    rw [hcpsr] at hne
    have hother : a.ip ≠ cpsr := fun h => hne (congrArg some h.symm)
    dsimp only
    rw [Function.update_of_ne hother]
    exact Function.update_self ..

section PreCall

variable {o : CallOutcome a} {args : List a.Word} (funcAddr returnAddr : a.Word)

/-- The writes come first, and a call that is not set up leaves the target alone. -/
theorem remotePreCall_unprepared (h : o.prepared args.length = false) :
    Returns (At ip found) (remotePreCall o funcAddr returnAddr args) false (At ip found) := by
  unfold remotePreCall
  refine Triple.bind (alignStack_at 0) fun _ => Triple.bind (setupArgs_at args) fun _ => ?_
  refine Returns.bind (pushStackArgs_returns o args.length) ?_
  unfold CallOutcome.prepared at h
  by_cases hargs : (args.length ≤ a.kMaxRegisterArgs || o.stackArgs = stackArgsSize a args.length) = true
  · rw [hargs, Bool.true_and] at h
    rw [if_pos hargs]
    refine Returns.bind (placeReturnAddr_returns o returnAddr) ?_
    rw [h]
    exact Returns.of_pure fun _ h => h
  · rw [if_neg hargs]
    exact Returns.of_pure fun _ h => h

theorem remotePreCall_prepared (h : o.prepared args.length = true) (hset : o.setRegs = true) :
    Returns (At ip found) (remotePreCall o funcAddr returnAddr args) o.cont fun s =>
      s.target a.ip = jumpTarget funcAddr ∧ s.stopped = !o.cont := by
  unfold remotePreCall
  refine Triple.bind (alignStack_at 0) fun _ => Triple.bind (setupArgs_at args) fun _ => ?_
  unfold CallOutcome.prepared at h
  obtain ⟨hargs, hreturn⟩ := Bool.and_eq_true_iff.1 h
  refine Returns.bind (pushStackArgs_returns o args.length) (Returns.of_pos hargs ?_)
  refine Returns.bind (placeReturnAddr_returns o returnAddr) (Returns.of_pos hreturn ?_)
  intro s hs
  have hstopped := hs.stopped
  cases hcont : o.cont with
  | false =>
    simp [setRegs, ptraceCont, hset, hstopped]
    exact ⟨rfl, jump_ip .., rfl⟩
  | true =>
    simp [setRegs, ptraceCont, hset, hstopped]
    exact ⟨rfl, jump_ip .., rfl⟩

end PreCall

/-- One turn of the wait: the target goes on, or the result is there. -/
theorem remotePostCall_cons (returnAddr : a.Word) (stop : Stop a) (rest : List (Stop a)) (s : State a) :
    ∃ regs, (remotePostCall returnAddr (stop :: rest)).run s =
      if stop.passed then
        (remotePostCall returnAddr rest).run { s with regs, target := stop.registers, stopped := false }
      else (stop.result returnAddr, { s with regs, target := stop.registers, stopped := true }) := by
  rw [remotePostCall]
  unfold Stop.passed Stop.result
  cases hwaited : stop.waited with
  | false => exact ⟨s.regs, rfl⟩
  | true =>
    cases hread : stop.getRegs with
    | false => exact ⟨s.regs, rfl⟩
    | true =>
      refine ⟨stop.registers, ?_⟩
      by_cases hsignal : stop.signal = SIGSEGV
      · simp [stopAt, getRegs, hsignal]
        rfl
      · cases hcont : stop.cont with
        | false =>
          simp [stopAt, getRegs, ptraceCont, hsignal]
          rfl
        | true => simp [stopAt, getRegs, ptraceCont, hsignal]

/-- Wherever the wait begins, the target ends as it has stopped last. -/
theorem remotePostCall_returns {o : CallOutcome a} {last : Stop a} (h : lastStop o.stops = some last)
    (returnAddr : a.Word) {P : State a → Prop} :
    Returns P (remotePostCall returnAddr o.stops) (o.awaited returnAddr)
      (At (some (last.registers a.ip)) found) := by
  unfold CallOutcome.awaited
  rw [h, Option.map_some, Option.getD_some]
  generalize o.stops = stops at h
  induction stops generalizing P with
  | nil => cases h
  | cons stop rest ih =>
    intro s hs
    obtain ⟨regs, hturn⟩ := remotePostCall_cons returnAddr stop rest s
    rw [lastStop, List.find?_cons] at h
    rw [hturn]
    cases hpassed : stop.passed with
    | true =>
      rw [hpassed] at h
      exact ih (P := fun _ => True) h _ trivial
    | false =>
      rw [hpassed] at h
      obtain rfl : stop = last := Option.some.inj h
      exact ⟨rfl, rfl, rfl⟩

/-- A call that is set up marks the target, and only that. -/
theorem remoteCall_uniform {o : CallOutcome a} (hset : o.setRegs = true) (hstops : (lastStop o.stops).isSome)
    (ip : Option a.Word) (n : ℕ) (funcAddr returnAddr : a.Word) :
    ∃ ip' : Option a.Word, ip'.isSome = (ip.isSome || o.prepared n) ∧ ∀ args, args.length = n →
      Uniform ip (remoteCall o funcAddr returnAddr args) (o.result n returnAddr) ip' := by
  obtain ⟨last, hlast⟩ := Option.isSome_iff_exists.1 hstops
  unfold CallOutcome.result
  cases hprepared : o.prepared n with
  | false =>
    refine ⟨ip, (Bool.or_false _).symm, ?_⟩
    rintro args rfl found
    exact Returns.bind (remotePreCall_unprepared funcAddr returnAddr hprepared) (Returns.of_pure fun _ h => h)
  | true =>
    cases hcont : o.cont with
    | false =>
      refine ⟨some (jumpTarget funcAddr), (Bool.or_true _).symm, ?_⟩
      rintro args rfl found
      refine Returns.bind (remotePreCall_prepared funcAddr returnAddr hprepared hset) ?_
      rw [hcont]
      exact Returns.of_pure fun _ ⟨hip, hstopped⟩ => ⟨hstopped, hip⟩
    | true =>
      refine ⟨some (last.registers a.ip), (Bool.or_true _).symm, ?_⟩
      rintro args rfl found
      refine Returns.bind (remotePreCall_prepared funcAddr returnAddr hprepared hset) ?_
      rw [hcont]
      exact remotePostCall_returns hlast returnAddr

/-- On a target that is marked the program returns the value and leaves a mark. -/
def Steady (x : Inject a α) (value : α) : Prop :=
  ∀ ip : Option a.Word, ip.isSome = true → ∃ ip' : Option a.Word, ip'.isSome = true ∧ Uniform ip x value ip'

theorem Steady.of_pure : Steady (pure v : Inject a α) v := fun ip h => ⟨ip, h, Uniform.of_pure⟩

theorem Steady.bind {f : α → Inject a β} (hx : Steady x v) (hf : Steady (f v) w) : Steady (x >>= f) w := by
  intro ip hip
  obtain ⟨ip₁, hip₁, hfirst⟩ := hx ip hip
  obtain ⟨ip₂, hip₂, hsecond⟩ := hf ip₁ hip₁
  exact ⟨ip₂, hip₂, hfirst.bind hsecond⟩

/-- The same without a word about the value. -/
def Settles (x : Inject a α) : Prop := ∃ v, Steady x v

theorem Settles.of_pure (v : α) : Settles (pure v : Inject a α) := ⟨v, .of_pure⟩

theorem Settles.bind {f : α → Inject a β} (hx : Settles x) (hf : ∀ v, Settles (f v)) : Settles (x >>= f) := by
  obtain ⟨v, hfirst⟩ := hx
  obtain ⟨w, hsecond⟩ := hf v
  exact ⟨w, hfirst.bind hsecond⟩

theorem Settles.ite {c : Prop} [Decidable c] {y : Inject a α} (hx : Settles x) (hy : Settles y) :
    Settles (if c then x else y) := by
  split_ifs
  · exact hx
  · exact hy

/-- What is done before giving up does not change what is returned. -/
theorem Settles.then_return (hx : Settles x) (w : β) : Steady (do let _ ← x; return w) w := by
  obtain ⟨v, hfirst⟩ := hx
  exact hfirst.bind .of_pure

end Calls

/-! ## Which steps succeed -/

section Success

variable (env : Environment a)

def Environment.returnAddr : a.Word := env.findModuleReturnAddr kLibcModule

/-- The local steps succeed and the functions are found. -/
def Environment.startsTransfer : Bool :=
  env.setSockcreateCon && env.localSocket && env.openLibrary &&
    !(env.findFuncAddr kLibcModule "socket" = 0 ∨ env.findFuncAddr kLibcModule "bind" = 0 ∨
      env.findFuncAddr kLibcModule "recvmsg" = 0 ∨ env.findFuncAddr kLibcModule "close" = 0)

def Environment.remoteFd : BitVec 32 := ((env.call .socket).result 3 0).setWidth 32

def Environment.binds : Bool := (env.call .bind).result 3 0 ≠ -1

/-- The library's descriptor arrives. -/
def Environment.receives : Bool :=
  (env.call .recvmsg).prepared 3 && (env.call .recvmsg).cont && env.sendmsg &&
    (env.call .recvmsg).awaited 0 ≠ -1 && env.readControl = CMSG_SPACE a 4 &&
    !(env.control.len ≠ CMSG_LEN a 4 ∨ env.control.level ≠ SOL_SOCKET ∨ env.control.type ≠ SCM_RIGHTS)

def Environment.transfers : Bool := env.startsTransfer && env.remoteFd ≠ -1 && env.binds && env.receives

def Environment.handle : a.Word := (env.call .dlopen).result 3 env.returnAddr

def Environment.opens : Bool := env.findFuncAddr kLibdlModule "android_dlopen_ext" ≠ 0 && env.handle ≠ 0

def Environment.entryAddr : a.Word := (env.call .dlsym).result 2 env.returnAddr

def Environment.findsEntry : Bool := env.findFuncAddr kLibdlModule "dlsym" ≠ 0 && env.entryAddr ≠ 0

/-- Every step succeeds whose failure ends the injection. -/
def Environment.completes : Bool := env.returnAddr ≠ 0 && env.transfers && env.opens && env.findsEntry

/-- The transfer begins, and one of the calls it makes even after failures is set up. -/
def Environment.transferSetsUpCall : Bool :=
  env.startsTransfer && ((env.call .socket).prepared 3 || (env.call .bind).prepared 3 ||
    (env.call .recvmsg).prepared 3 || (env.call .closeSocket).prepared 1)

def Environment.setsUpCall : Bool := env.returnAddr ≠ 0 && env.transferSetsUpCall

end Success

/-! ## The steps -/

/-- Every set of registers that is to be installed is. -/
structure SettingWorks (env : Environment a) : Prop where
  call : ∀ c, (env.call c).setRegs = true
  restore : env.restore = true

/-- Whenever the target goes on, it stops again. -/
structure StaysStopped (env : Environment a) : Prop where
  call : ∀ c, (lastStop (env.call c).stops).isSome = true
  interrupted : env.sendmsg = false → env.interrupted.isSome = true

/-- The run gets to the backup of the registers. -/
structure BacksUp (env : Environment a) : Prop where
  attach : env.attach = true
  wait : env.wait = true
  stopSignal : env.stopSignal = SIGSTOP
  getRegs : env.getRegs = true

section Steps

variable {env : Environment a} (hset : SettingWorks env) (hstops : StaysStopped env)

include hset hstops

theorem steady_remoteCall (c : Call) (funcAddr returnAddr : a.Word) (args : List a.Word) :
    Steady (remoteCall (env.call c) funcAddr returnAddr args) ((env.call c).result args.length returnAddr) := by
  intro ip hip
  obtain ⟨ip', hip', hcall⟩ :=
    remoteCall_uniform (hset.call c) (hstops.call c) ip args.length funcAddr returnAddr
  refine ⟨ip', ?_, hcall args rfl⟩
  rw [hip', hip, Bool.true_or]

theorem settles_remoteCall (c : Call) (funcAddr returnAddr : a.Word) (args : List a.Word) :
    Settles (remoteCall (env.call c) funcAddr returnAddr args) :=
  ⟨_, steady_remoteCall hset hstops c funcAddr returnAddr args⟩

theorem settles_closeRemote (fd : BitVec 32) : Settles (closeRemote env fd) :=
  (settles_remoteCall hset hstops _ _ _ _).bind fun _ => .of_pure ()

theorem settles_getRemoteErrno : Settles (getRemoteErrno env) := by
  unfold getRemoteErrno
  apply Settles.ite
  · exact .of_pure 0
  · exact (settles_remoteCall hset hstops _ _ _ _).bind fun _ => .of_pure _

theorem settles_getRemoteDlerror (libcReturnAddr : a.Word) : Settles (getRemoteDlerror env libcReturnAddr) := by
  have hcall := settles_remoteCall hset hstops
  unfold getRemoteDlerror
  refine .ite (.of_pure _) ((hcall _ _ _ _).bind fun dlerrorStrAddr => ?_)
  refine .ite (.of_pure _) (.ite (.of_pure _) ((hcall _ _ _ _).bind fun dlerrorLen => ?_))
  exact .ite (.of_pure _) (.ite (.of_pure _) (.of_pure _))

/-- What `dlopen` and `dlsym` return is looked at in the same way. -/
theorem steady_unless_null (value : a.Word) :
    Steady (if value = 0 then do
        let _ ← getRemoteDlerror env env.returnAddr
        return none
      else return some value) (if value ≠ 0 then some value else none) := by
  by_cases hnull : value = 0
  · rw [if_pos hnull, if_neg (not_not.2 hnull)]
    exact (settles_getRemoteDlerror hset hstops _).then_return none
  · rw [if_neg hnull, if_pos hnull]
    exact .of_pure

theorem steady_remoteDlopen (libPath : String) :
    Steady (remoteDlopen env libPath env.returnAddr) (if env.opens then some env.handle else none) := by
  unfold remoteDlopen Environment.opens
  dsimp only
  by_cases haddr : env.findFuncAddr kLibdlModule "android_dlopen_ext" = 0
  · simp only [haddr, if_true, ne_eq, not_true_eq_false, decide_false, Bool.false_and, Bool.false_eq_true, if_false]
    exact .of_pure
  · intro ip hip
    obtain ⟨ip₁, hip₁, hcall⟩ := remoteCall_uniform (hset.call .dlopen) (hstops.call .dlopen) ip 3
      (env.findFuncAddr kLibdlModule "android_dlopen_ext") env.returnAddr
    obtain ⟨ip₂, hip₂, hend⟩ := steady_unless_null hset hstops env.handle ip₁ (by rw [hip₁, hip, Bool.true_or])
    refine ⟨ip₂, hip₂, fun found => ?_⟩
    simp only [haddr, if_false, ne_eq, not_false_eq_true, decide_true, Bool.true_and, decide_eq_true_eq]
    refine Returns.bind_any (pushMemory_at _ _) fun remoteInfo => ?_
    refine Returns.bind_any (pushMemory_at _ _) fun remotePath => ?_
    exact (hcall [remotePath, BitVec.ofNat _ (RTLD_NOW a), remoteInfo] rfl found).bind (hend found)

theorem steady_remoteFindEntry :
    Steady (remoteFindEntry env env.handle env.returnAddr) (if env.findsEntry then some env.entryAddr else none) := by
  unfold remoteFindEntry Environment.findsEntry
  dsimp only
  by_cases haddr : env.findFuncAddr kLibdlModule "dlsym" = 0
  · simp only [haddr, if_true, ne_eq, not_true_eq_false, decide_false, Bool.false_and, Bool.false_eq_true, if_false]
    exact .of_pure
  · intro ip hip
    obtain ⟨ip₁, hip₁, hcall⟩ := remoteCall_uniform (hset.call .dlsym) (hstops.call .dlsym) ip 2
      (env.findFuncAddr kLibdlModule "dlsym") env.returnAddr
    obtain ⟨ip₂, hip₂, hend⟩ := steady_unless_null hset hstops env.entryAddr ip₁ (by rw [hip₁, hip, Bool.true_or])
    refine ⟨ip₂, hip₂, fun found => ?_⟩
    simp only [haddr, if_false, ne_eq, not_false_eq_true, decide_true, Bool.true_and, decide_eq_true_eq]
    refine Returns.bind_any (pushMemory_at _ _) fun remoteSymbol => ?_
    exact (hcall [env.handle, remoteSymbol] rfl found).bind (hend found)

theorem settles_closeLibrary (libFd : BitVec 32) : Settles (closeLibrary env libFd) := by
  unfold closeLibrary
  exact .ite (.of_pure ()) ((settles_remoteCall hset hstops _ _ _ _).bind fun _ => .of_pure ())

theorem steady_remoteCallEntry (entryAddr remoteHandle libcReturnAddr : a.Word) :
    Steady (remoteCallEntry env entryAddr remoteHandle libcReturnAddr) true :=
  (settles_remoteCall hset hstops _ _ _ _).then_return true

/-- A remote call of the transfer has failed. -/
theorem steady_giveUp (remoteFd : BitVec 32) :
    Steady (do
        let _ ← getRemoteErrno env
        closeRemote env remoteFd
        return none) (none : Option (BitVec 32)) := by
  obtain ⟨v, herrno⟩ := settles_getRemoteErrno hset hstops
  exact herrno.bind ((settles_closeRemote hset hstops remoteFd).then_return none)

/-- What follows the result of `recvmsg`. -/
theorem steady_readControl (remoteFd : BitVec 32) (result : a.Word) :
    Steady (if result = -1 then do
        let _ ← getRemoteErrno env
        closeRemote env remoteFd
        return none
      else if env.readControl ≠ CMSG_SPACE a 4 then do
        closeRemote env remoteFd
        return none
      else if env.control.len ≠ CMSG_LEN a 4 ∨ env.control.level ≠ SOL_SOCKET ∨
          env.control.type ≠ SCM_RIGHTS then do
        closeRemote env remoteFd
        return none
      else do
        closeRemote env remoteFd
        return some env.control.fd)
      (if result ≠ -1 && env.readControl = CMSG_SPACE a 4 && !(env.control.len ≠ CMSG_LEN a 4 ∨
        env.control.level ≠ SOL_SOCKET ∨ env.control.type ≠ SCM_RIGHTS) then some env.control.fd else none) := by
  have hclose : ∀ w : Option (BitVec 32), Steady (do closeRemote env remoteFd; return w) w :=
    (settles_closeRemote hset hstops remoteFd).then_return
  by_cases hresult : result = -1
  · rw [if_pos hresult, if_neg (by simp only [hresult, ne_eq, not_true_eq_false, decide_false, Bool.false_and,
      Bool.false_eq_true, not_false_eq_true])]
    exact steady_giveUp hset hstops remoteFd
  · by_cases hread : env.readControl = CMSG_SPACE a 4
    · by_cases hcontrol : env.control.len ≠ CMSG_LEN a 4 ∨ env.control.level ≠ SOL_SOCKET ∨
          env.control.type ≠ SCM_RIGHTS
      · rw [if_neg hresult, if_neg (not_not.2 hread), if_pos hcontrol, if_neg (by simp only [hcontrol, decide_true,
          Bool.not_true, Bool.and_false, Bool.false_eq_true, not_false_eq_true])]
        exact hclose none
      · rw [if_neg hresult, if_neg (not_not.2 hread), if_neg hcontrol, if_pos (by simp only [hresult, hread, hcontrol,
          ne_eq, not_false_eq_true, decide_true, decide_false, Bool.not_false, Bool.and_self])]
        exact hclose (some env.control.fd)
    · rw [if_neg hresult, if_pos hread, if_neg (by simp only [hread, decide_false, Bool.and_false, Bool.false_and,
        Bool.false_eq_true, not_false_eq_true])]
      exact hclose none

/-- From the call of `recvmsg` on, the target is marked if one of the two calls is set up. -/
theorem receiveFd_uniform (ip : Option a.Word) (remoteFd : BitVec 32) :
    ∃ ip' : Option a.Word, ip'.isSome =
        (ip.isSome || ((env.call .recvmsg).prepared 3 || (env.call .closeSocket).prepared 1)) ∧
      ∀ remoteHdr, Uniform ip (receiveFd env remoteFd remoteHdr)
        (if env.receives then some env.control.fd else none) ip' := by
  have hclose : ∀ w : Option (BitVec 32), Steady (do closeRemote env remoteFd; return w) w :=
    (settles_closeRemote hset hstops remoteFd).then_return
  unfold receiveFd Environment.receives
  cases hprepared : (env.call .recvmsg).prepared 3 with
  | false =>
    obtain ⟨ip', hip', hcall⟩ := remoteCall_uniform (hset.call .closeSocket) (hstops.call .closeSocket) ip 1
      (env.findFuncAddr kLibcModule "close") 0
    refine ⟨ip', by rw [hip', Bool.false_or], fun remoteHdr found => ?_⟩
    refine Returns.bind (remotePreCall_unprepared _ _ hprepared) ?_
    exact Returns.bind (Returns.bind (hcall _ rfl found) (Returns.of_pure fun _ h => h))
      (Returns.of_pure fun _ h => h)
  | true =>
    have hpre : ∀ remoteHdr found, Returns (At ip found)
        (remotePreCall (env.call .recvmsg) (env.findFuncAddr kLibcModule "recvmsg") 0
          [remoteFd.signExtend _, remoteHdr, BitVec.ofNat _ MSG_WAITALL]) (env.call .recvmsg).cont
        fun s => s.target a.ip = jumpTarget (env.findFuncAddr kLibcModule "recvmsg") ∧
          s.stopped = !(env.call .recvmsg).cont :=
      fun remoteHdr found => remotePreCall_prepared _ _ hprepared (hset.call .recvmsg)
    cases hcont : (env.call .recvmsg).cont with
    | false =>
      obtain ⟨ip', hip', hend⟩ := hclose none (some (jumpTarget (env.findFuncAddr kLibcModule "recvmsg"))) rfl
      refine ⟨ip', by rw [hip', Bool.true_or, Bool.or_true], fun remoteHdr found => ?_⟩
      refine Returns.bind (hpre remoteHdr found) ?_
      rw [hcont]
      exact fun s hs => hend found s ⟨hs.2, hs.1⟩
    | true =>
      cases hsend : env.sendmsg with
      | false =>
        obtain ⟨registers, hregisters⟩ := Option.isSome_iff_exists.1 (hstops.interrupted hsend)
        obtain ⟨ip', hip', hend⟩ := hclose none (some (registers a.ip)) rfl
        refine ⟨ip', by rw [hip', Bool.true_or, Bool.or_true], fun remoteHdr found => ?_⟩
        refine Returns.bind (hpre remoteHdr found) ?_
        rw [hcont, if_pos rfl, hregisters]
        exact Triple.bind (stopAt_at registers) fun _ => hend found
      | true =>
        obtain ⟨last, hlast⟩ := Option.isSome_iff_exists.1 (hstops.call .recvmsg)
        obtain ⟨ip', hip', hend⟩ := steady_readControl hset hstops remoteFd ((env.call .recvmsg).awaited 0)
          (some (last.registers a.ip)) rfl
        refine ⟨ip', by rw [hip', Bool.true_or, Bool.or_true], fun remoteHdr found => ?_⟩
        refine Returns.bind (hpre remoteHdr found) ?_
        rw [hcont, if_pos rfl, if_pos rfl]
        refine Returns.bind (Q := At (some (last.registers a.ip)) found) (remotePostCall_returns hlast 0) ?_
        simp only [Bool.true_and]
        exact hend found

omit hset hstops in
theorem prepared_of_result_ne {o : CallOutcome a} {n : ℕ} (returnAddr : a.Word)
    (h : o.result n returnAddr ≠ 0) : o.prepared n = true := by
  by_contra hprepared
  apply h
  rw [CallOutcome.result, Bool.eq_false_iff.2 hprepared]
  rfl

omit hset hstops in
theorem one_ne_zero' : (1 : a.Word) ≠ 0 := by
  have hpos := a.wordBytes_pos
  intro h
  have hnat : (1#(8 * a.wordBytes)).toNat = 0 := congrArg BitVec.toNat h
  rw [BitVec.toNat_one (by omega)] at hnat
  exact absurd hnat Nat.one_ne_zero

omit hset hstops in
theorem transferFdToRemote_of_not_starts (h : env.startsTransfer = false) :
    Uniform none (transferFdToRemote env) none none := by
  unfold Environment.startsTransfer at h
  unfold transferFdToRemote
  dsimp only
  split_ifs with hcon hlocal hopen hfunctions
  · exact .of_pure
  · exact .of_pure
  · exact .of_pure
  · exact .of_pure
  · rw [Bool.not_eq_true', Bool.not_eq_false] at hcon hlocal hopen
    rw [hcon, hlocal, hopen, decide_eq_false hfunctions] at h
    exact absurd h (by decide)

theorem transferFdToRemote_of_starts (hstarts : env.startsTransfer = true) :
    ∃ ip' : Option a.Word, ip'.isSome = ((env.call .socket).prepared 3 || (env.call .bind).prepared 3 ||
        (env.call .recvmsg).prepared 3 || (env.call .closeSocket).prepared 1) ∧
      Uniform none (transferFdToRemote env) (if env.transfers then some env.control.fd else none) ip' := by
  obtain ⟨ip₁, hip₁, hsocket⟩ := remoteCall_uniform (hset.call .socket) (hstops.call .socket) none 3
    (env.findFuncAddr kLibcModule "socket") 0
  obtain ⟨ip₂, hip₂, hbind⟩ := remoteCall_uniform (hset.call .bind) (hstops.call .bind) ip₁ 3
    (env.findFuncAddr kLibcModule "bind") 0
  have herrno := settles_getRemoteErrno hset hstops
  have htransfers : env.transfers = (env.remoteFd ≠ -1 && env.binds && env.receives) := by
    rw [Environment.transfers, hstarts, Bool.true_and]
  rw [htransfers]
  unfold transferFdToRemote
  unfold Environment.startsTransfer at hstarts
  simp only [Bool.and_eq_true, Bool.not_eq_true', decide_eq_false_iff_not] at hstarts
  obtain ⟨⟨⟨hcon, hlocal⟩, hopen⟩, hfunctions⟩ := hstarts
  dsimp only
  simp only [hcon, hlocal, hopen, Bool.not_true, Bool.false_eq_true, if_false, if_neg hfunctions]
  by_cases hfd : env.remoteFd = -1
  · have hprepared : (env.call .socket).prepared 3 = true := by
      apply prepared_of_result_ne 0
      intro hzero
      have hword : (0 : a.Word).setWidth 32 = 0 := BitVec.setWidth_zero ..
      rw [Environment.remoteFd, hzero, hword] at hfd
      exact absurd hfd (by decide)
    obtain ⟨ip', hip', hend⟩ := herrno.then_return (none : Option (BitVec 32)) ip₁ (by rw [hip₁, hprepared]; rfl)
    refine ⟨ip', by simp only [hip', hprepared, Bool.true_or], fun found => ?_⟩
    refine Returns.bind (hsocket _ rfl found) (Returns.of_pos hfd ?_)
    simp only [hfd, ne_eq, not_true_eq_false, decide_false, Bool.false_and, Bool.false_eq_true, if_false]
    exact hend found
  · by_cases hbinds : (env.call .bind).result 3 0 = -1
    · have hprepared : (env.call .bind).prepared 3 = true := by
        apply prepared_of_result_ne 0
        rw [hbinds]
        exact neg_ne_zero.2 one_ne_zero'
      obtain ⟨ip', hip', hend⟩ :=
        steady_giveUp hset hstops env.remoteFd ip₂ (by rw [hip₂, hprepared, Bool.or_true])
      refine ⟨ip', by simp only [hip', hprepared, Bool.true_or, Bool.or_true], fun found => ?_⟩
      refine Returns.bind (hsocket _ rfl found) (Returns.of_neg hfd ?_)
      refine Returns.bind_any (pushMemory_at _ _) fun remoteAddr => ?_
      refine Returns.bind (hbind _ rfl found) (Returns.of_pos hbinds ?_)
      simp only [Environment.binds, hbinds, ne_eq, not_true_eq_false, decide_false, Bool.and_false, Bool.false_and,
        Bool.false_eq_true, if_false]
      exact hend found
    · obtain ⟨ip', hip', hend⟩ := receiveFd_uniform hset hstops ip₂ env.remoteFd
      refine ⟨ip', ?_, fun found => ?_⟩
      · rw [hip', hip₂, hip₁, Option.isSome_none, Bool.false_or, Bool.or_assoc, Bool.or_assoc, Bool.or_assoc]
      · refine Returns.bind (hsocket _ rfl found) (Returns.of_neg hfd ?_)
        refine Returns.bind_any (pushMemory_at _ _) fun remoteAddr => ?_
        refine Returns.bind (hbind _ rfl found) (Returns.of_neg hbinds ?_)
        refine Returns.bind_any (pushMemory_at _ _) fun remoteControl => ?_
        refine Returns.bind_any (pushMemory_at _ _) fun remoteHdr => ?_
        simp only [Environment.binds, hfd, hbinds, ne_eq, not_false_eq_true, decide_true, Bool.true_and]
        exact hend remoteHdr found

/-- The target is marked if one of the calls is set up that the transfer makes even when others fail. -/
theorem transferFdToRemote_uniform :
    ∃ ip' : Option a.Word, ip'.isSome = env.transferSetsUpCall ∧
      Uniform none (transferFdToRemote env) (if env.transfers then some env.control.fd else none) ip' := by
  unfold Environment.transferSetsUpCall
  cases hstarts : env.startsTransfer with
  | false =>
    refine ⟨none, rfl, ?_⟩
    rw [Environment.transfers, hstarts]
    exact transferFdToRemote_of_not_starts hstarts
  | true =>
    rw [Bool.true_and]
    exact transferFdToRemote_of_starts hset hstops hstarts

/-! ## The whole run -/

theorem runEntry_fails (h : env.findsEntry = false) {ip : Option a.Word} (hip : ip.isSome = true) :
    ∃ ip' : Option a.Word, ip'.isSome = true ∧
      ∀ backupRegs, Uniform ip (runEntry env env.handle backupRegs) false ip' := by
  obtain ⟨ip', hip', hfind⟩ := steady_remoteFindEntry hset hstops ip hip
  rw [h] at hfind
  exact ⟨ip', hip', fun backupRegs => hfind.bind .of_pure⟩

theorem runLibrary_fails (libPath : String) (libFd : BitVec 32) (h : (env.opens && env.findsEntry) = false)
    {ip : Option a.Word} (hip : ip.isSome = true) :
    ∃ ip' : Option a.Word, ip'.isSome = true ∧
      ∀ backupRegs, Uniform ip (runLibrary env libPath libFd backupRegs) false ip' := by
  obtain ⟨ip₁, hip₁, hopen⟩ := steady_remoteDlopen hset hstops libPath ip hip
  cases hopens : env.opens with
  | false =>
    rw [hopens] at hopen
    exact ⟨ip₁, hip₁, fun backupRegs => hopen.bind .of_pure⟩
  | true =>
    rw [hopens] at hopen
    rw [hopens, Bool.true_and] at h
    obtain ⟨v, hclose⟩ := settles_closeLibrary hset hstops libFd
    obtain ⟨ip₂, hip₂, hclosed⟩ := hclose ip₁ hip₁
    obtain ⟨ip₃, hip₃, hrun⟩ := runEntry_fails hset hstops h hip₂
    exact ⟨ip₃, hip₃, fun backupRegs => hopen.bind (hclosed.bind (hrun backupRegs))⟩

/-- The last step puts the registers back. -/
theorem runLibrary_completes (libPath : String) (libFd : BitVec 32) (h : (env.opens && env.findsEntry) = true)
    {ip : Option a.Word} (hip : ip.isSome = true) (found backupRegs : a.Registers) :
    Returns (At ip found) (runLibrary env libPath libFd backupRegs) true fun s => s.target = backupRegs := by
  obtain ⟨hopens, hfinds⟩ := Bool.and_eq_true_iff.1 h
  obtain ⟨ip₁, hip₁, hopen⟩ := steady_remoteDlopen hset hstops libPath ip hip
  obtain ⟨v, hclose⟩ := settles_closeLibrary hset hstops libFd
  obtain ⟨ip₂, hip₂, hclosed⟩ := hclose ip₁ hip₁
  obtain ⟨ip₃, hip₃, hfind⟩ := steady_remoteFindEntry hset hstops ip₂ hip₂
  obtain ⟨ip₄, hip₄, hentry⟩ :=
    steady_remoteCallEntry hset hstops env.entryAddr env.handle env.returnAddr ip₃ hip₃
  rw [hopens] at hopen
  rw [hfinds] at hfind
  refine Returns.bind (hopen found) (Returns.bind (hclosed found) ?_)
  refine Returns.bind (hfind found) (Returns.bind (hentry found) (Returns.of_pos rfl ?_))
  intro s hs
  simp [setRegs, hset.restore, hs.stopped]
  exact ⟨rfl, rfl⟩

omit hset hstops in
theorem transferSetsUpCall_of_transfers (h : env.transfers = true) : env.transferSetsUpCall = true := by
  unfold Environment.transfers at h
  simp only [Bool.and_eq_true] at h
  obtain ⟨⟨⟨hstarts, -⟩, -⟩, hreceives⟩ := h
  unfold Environment.receives at hreceives
  simp only [Bool.and_eq_true] at hreceives
  have hprepared : (env.call .recvmsg).prepared 3 = true := hreceives.1.1.1.1.1
  rw [Environment.transferSetsUpCall, hstarts, hprepared, Bool.or_true]
  rfl

/-- A run that fails leaves a mark exactly if it has set up a call. -/
theorem injectStopped_fails (libPath : String) (h : env.completes = false) :
    ∃ ip' : Option a.Word, ip'.isSome = env.setsUpCall ∧
      ∀ backupRegs, Uniform none (injectStopped env libPath backupRegs) false ip' := by
  unfold Environment.setsUpCall
  unfold Environment.completes at h
  by_cases haddr : env.returnAddr = 0
  · refine ⟨none, ?_, fun backupRegs found => Returns.of_pos haddr (Returns.of_pure fun _ hs => hs)⟩
    simp only [haddr, ne_eq, not_true_eq_false, decide_false, Bool.false_and, Option.isSome_none]
  · simp only [haddr, ne_eq, not_false_eq_true, decide_true, Bool.true_and] at h ⊢
    obtain ⟨ip₁, hip₁, htransfer⟩ := transferFdToRemote_uniform hset hstops
    cases htransfers : env.transfers with
    | false =>
      rw [htransfers] at htransfer
      refine ⟨ip₁, hip₁, fun backupRegs found => Returns.of_neg haddr ?_⟩
      exact (htransfer found).bind (Returns.of_pure fun _ hs => hs)
    | true =>
      rw [htransfers] at htransfer
      rw [htransfers, Bool.true_and] at h
      have hmark := transferSetsUpCall_of_transfers htransfers
      obtain ⟨ip₂, hip₂, hrun⟩ := runLibrary_fails hset hstops libPath env.control.fd h (hip₁.trans hmark)
      refine ⟨ip₂, hip₂.trans hmark.symm, fun backupRegs found => Returns.of_neg haddr ?_⟩
      exact (htransfer found).bind (hrun backupRegs found)

theorem injectStopped_completes (libPath : String) (h : env.completes = true) (found backupRegs : a.Registers) :
    Returns (At none found) (injectStopped env libPath backupRegs) true fun s => s.target = backupRegs := by
  unfold Environment.completes at h
  rw [Bool.and_assoc] at h
  obtain ⟨hbefore, hrun⟩ := Bool.and_eq_true_iff.1 h
  obtain ⟨haddr, htransfers⟩ := Bool.and_eq_true_iff.1 hbefore
  obtain ⟨ip₁, hip₁, htransfer⟩ := transferFdToRemote_uniform hset hstops
  rw [htransfers] at htransfer
  refine Returns.of_neg (of_decide_eq_true haddr) ((htransfer found).bind ?_)
  exact runLibrary_completes hset hstops libPath env.control.fd hrun
    (hip₁.trans (transferSetsUpCall_of_transfers htransfers)) found backupRegs

omit hset hstops in
/-- A run past the backup detaches the target as the rest of the injection leaves it. -/
theorem runOn_detached (hpast : BacksUp env) (libPath : String) (found : a.Registers) :
    ∃ s : State a, At none found s ∧
      (runOn env libPath found).detached = some ((injectStopped env libPath found).run s).2.target := by
  refine ⟨{ regs := found, target := found, stopped := true, detached := none }, ⟨rfl, rfl⟩, ?_⟩
  simp [runOn, injectLibrary, injectAttached, hpast.attach, hpast.wait, hpast.stopSignal, hpast.getRegs,
    getRegs, detach, State.initial]
  rfl

/-- The target is detached with the registers it was found with, whatever they are, exactly if no call was set
up or all the steps succeed: no failure after the first call puts the registers back. -/
theorem detached_as_found_iff (hpast : BacksUp env) (libPath : String) :
    (∀ found, (runOn env libPath found).detached = some found) ↔
      env.setsUpCall = false ∨ env.completes = true := by
  cases hcompletes : env.completes with
  | true =>
    refine iff_of_true (fun found => ?_) (Or.inr rfl)
    obtain ⟨s, hs, hdetached⟩ := runOn_detached hpast libPath found
    rw [hdetached, (injectStopped_completes hset hstops libPath hcompletes found found s hs).2]
  | false =>
    obtain ⟨ip', hip', hrun⟩ := injectStopped_fails hset hstops libPath hcompletes
    cases ip' with
    | none =>
      refine iff_of_true (fun found => ?_) (Or.inl hip'.symm)
      obtain ⟨s, hs, hdetached⟩ := runOn_detached hpast libPath found
      rw [hdetached, (hrun found found s hs).2.registers]
    | some ip =>
      -- another instruction pointer than the one that is left
      refine iff_of_false (fun hall => ?_) (by rw [← hip']; simp)
      obtain ⟨s, hs, hdetached⟩ := runOn_detached hpast libPath fun _ => ip + 1
      rw [hall, Option.some.injEq] at hdetached
      have hleft : ((injectStopped env libPath fun _ => ip + 1).run s).2.target a.ip = ip :=
        (hrun _ _ s hs).2.registers
      rw [← hdetached] at hleft
      exact one_ne_zero' (add_eq_left.1 hleft)

end Steps

/-! ## An injection on arm64 -/

namespace Demo

def stoppedWith (pc result : BitVec 64) : aarch64.Registers
  | .pc => pc
  | .regs 0 => result
  | _ => 0

/-- The call returns. -/
def returns (returnAddr result : BitVec 64) : CallOutcome aarch64 where
  stackArgs := -1
  returnAddress := -1
  setRegs := true
  cont := true
  stops := [{ waited := true, registers := stoppedWith returnAddr result, getRegs := true, signal := SIGSEGV,
              cont := true }]

/-- Everything works but for the socket, whose descriptor is given. -/
def injection (socket : BitVec 64) : Environment aarch64 where
  attach := true
  wait := true
  stopSignal := SIGSTOP
  getRegs := true
  findModuleReturnAddr := fun _ => 0x70000000
  findFuncAddr := fun _ _ => 0x70010000
  setSockcreateCon := true
  localSocket := true
  openLibrary := true
  written := fun _ => -1
  call
    | .socket => returns 0 socket
    | .recvmsg => returns 0 1
    | .errno | .bind | .closeSocket | .closeLibrary => returns 0 0
    | .dlopen => returns 0x70000000 0x1234
    | .dlsym => returns 0x70000000 0x70020000
    | .dlerror | .strlen | .entry => returns 0x70000000 1
  readErrno := 4
  remoteErrno := 13
  sendmsg := true
  interrupted := none
  readControl := 24
  control := { len := 20, level := SOL_SOCKET, type := SCM_RIGHTS, fd := 7 }
  readDlerror := 0
  dlerror := ""
  restore := true

theorem injection_settingWorks (socket : BitVec 64) : SettingWorks (injection socket) :=
  ⟨fun c => by cases c <;> rfl, rfl⟩

theorem injection_staysStopped (socket : BitVec 64) : StaysStopped (injection socket) :=
  ⟨fun c => by cases c <;> rfl, fun h => by cases h⟩

theorem injection_backsUp (socket : BitVec 64) : BacksUp (injection socket) := ⟨rfl, rfl, rfl, rfl⟩

end Demo

theorem detached_as_found_of_success :
    (Demo.injection 5).completes = true ∧
      ∀ found, (runOn (Demo.injection 5) "/data/libtrickystore.so" found).detached = some found :=
  have hcompletes : (Demo.injection 5).completes = true := by decide
  ⟨hcompletes, (detached_as_found_iff (Demo.injection_settingWorks 5) (Demo.injection_staysStopped 5)
    (Demo.injection_backsUp 5) "/data/libtrickystore.so").2 (Or.inr hcompletes)⟩

/-- The target is not allowed to open a socket, and resumes where the call has returned to. -/
theorem failure_loses_registers :
    ¬ ∀ (a : Architecture) (env : Environment a) (libPath : String) (found : a.Registers), SettingWorks env →
      StaysStopped env → BacksUp env → (runOn env libPath found).detached = some found := by
  intro h
  have hdetached := h aarch64 (Demo.injection (-1)) "/data/libtrickystore.so" (Demo.stoppedWith 0x71000000 0)
    (Demo.injection_settingWorks (-1)) (Demo.injection_staysStopped (-1)) (Demo.injection_backsUp (-1))
  have hpc := congrArg (Option.map fun registers => registers Aarch64Register.pc) hdetached
  revert hpc
  decide

end Injector

end Native

end TrickyStore
