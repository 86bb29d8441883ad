import TrickyStore.Native.Registration
import TrickyStore.Proof.WireFormat

/-!
# What is intercepted is what was registered last

A message is accepted exactly if it begins with the bytes of a registration, whatever follows them.  So
the filter of a binder is the one of the last such message for it, and what else arrives changes nothing.
-/

open Lib

namespace TrickyStore

open ByteParcel

namespace Native.BinderInterceptor

variable {Binder : Type} {B : BinderFormat Binder} {isLocal : Binder → Bool}

/-! ## The bytes of a registration -/

def codeBytes (codes : List (BitVec 32)) : Bytes := codes.flatMap fun c => littleEndian 4 c.toNat

/-- How many codes a count announces. -/
def announced (count : BitVec 32) : ℕ := if count.toInt < 0 then 0 else count.toNat

/-- The data begin with two binders, a count and as many codes. -/
def Encodes (B : BinderFormat Binder) (data : Bytes) (target : Binder)
    (registration : InterceptorRegistration Binder) : Prop :=
  ∃ targetBytes interceptorBytes count rest,
    data = targetBytes ++ (interceptorBytes ++ (littleEndian 4 count.toNat ++
      (codeBytes registration.codes ++ rest))) ∧
    targetBytes.length = B.size ∧ B.unflatten targetBytes = some target ∧
    interceptorBytes.length = B.size ∧ B.unflatten interceptorBytes = some registration.interceptorBinder ∧
    registration.codes.length = announced count

theorem announced_ofNat {n : ℕ} (h : n < 2 ^ 31) : announced (.ofNat 32 n) = n := by
  have hnat : (BitVec.ofNat 32 n).toNat = n := by
    rw [BitVec.toNat_ofNat]
    omega
  rw [announced, BitVec.toInt_eq_toNat_of_lt (by omega), hnat, if_neg (by omega)]

section Reading

variable {front rest data : Bytes} {p : ByteParcel} {codes : List (BitVec 32)} {n : ℕ} {b : Binder}

theorem bind_eq_some {α β : Type} {x : ParcelM α} {f : α → ParcelM β} {p : ByteParcel} {r : β × ByteParcel} :
    (x >>= f) p = some r ↔ ∃ a p', x p = some (a, p') ∧ f a p' = some r := by
  constructor
  · intro h
    obtain ⟨⟨a, p'⟩, hx, hf⟩ := Option.bind_eq_some_iff.1 h
    exact ⟨a, p', hx, hf⟩
  · rintro ⟨a, p', hx, hf⟩
    rw [run_bind hx]
    exact hf

/-- What a read of some bytes finds. -/
theorem read_split_iff {w : Bytes} :
    ByteParcel.read n (split front data) = some (w, p) ↔
      ∃ rest, data = w ++ rest ∧ w.length = n ∧ p = split (front ++ w) rest := by
  constructor
  · intro h
    have hdrop : (front ++ data).drop front.length = data := List.drop_left ..
    unfold ByteParcel.read at h
    split_ifs at h with hle
    obtain ⟨rfl, rfl⟩ := Prod.mk.inj (Option.some.inj h)
    have hlength : n ≤ data.length := by
      simp only [split, dataSize, List.length_append] at hle
      omega
    refine ⟨data.drop n, ?_, ?_, ?_⟩
    · simp only [split, hdrop, List.take_append_drop]
    · simp only [split, hdrop, List.length_take]
      omega
    · simp only [split, hdrop, List.length_append, List.length_take, List.append_assoc, List.take_append_drop]
      congr 2
      omega
  · rintro ⟨rest, rfl, hlength, rfl⟩
    exact read_split hlength

theorem readIntStatus_iff {v : BitVec 32} :
    readIntStatus (split front data) = some (v, p) ↔
      ∃ rest, data = littleEndian 4 v.toNat ++ rest ∧ p = split (front ++ littleEndian 4 v.toNat) rest := by
  constructor
  · intro h
    obtain ⟨w, p', hread, hvalue⟩ := bind_eq_some.1 h
    obtain ⟨rest, rfl, hlength, rfl⟩ := read_split_iff.1 hread
    obtain ⟨rfl, rfl⟩ := Prod.mk.inj (Option.some.inj hvalue)
    have hbytes : littleEndian 4 (BitVec.ofNat 32 (ofLittleEndian w)).toNat = w := by
      have hlt := ofLittleEndian_lt w
      rw [hlength] at hlt
      rw [BitVec.toNat_ofNat, Nat.mod_eq_of_lt (by omega), ← hlength, littleEndian_ofLittleEndian]
    exact ⟨rest, by rw [hbytes], by rw [hbytes]⟩
  · rintro ⟨rest, rfl, rfl⟩
    exact readIntStatus_split v

theorem readStrongBinder_iff :
    B.readStrongBinder (split front data) = some (b, p) ↔
      ∃ w rest, data = w ++ rest ∧ w.length = B.size ∧ B.unflatten w = some b ∧ p = split (front ++ w) rest := by
  unfold BinderFormat.readStrongBinder
  rw [bind_eq_some]
  constructor
  · rintro ⟨w, p', hread, hlift⟩
    obtain ⟨rest, rfl, hlength, rfl⟩ := read_split_iff.1 hread
    obtain ⟨b', hb, heq⟩ := Option.bind_eq_some_iff.1 hlift
    obtain ⟨rfl, rfl⟩ := Prod.mk.inj (Option.some.inj heq)
    exact ⟨w, rest, rfl, hlength, hb, rfl⟩
  · rintro ⟨w, rest, rfl, hlength, hb, rfl⟩
    exact ⟨w, _, read_split hlength, by rw [hb]; rfl⟩

theorem readCodes_iff (n : ℕ) :
    readCodes n (split front data) = some (codes, p) ↔
      ∃ rest, data = codeBytes codes ++ rest ∧ codes.length = n ∧ p = split (front ++ codeBytes codes) rest := by
  induction n generalizing front data codes p with
  | zero =>
    constructor
    · intro h
      obtain ⟨rfl, rfl⟩ := Prod.mk.inj (Option.some.inj h)
      exact ⟨data, rfl, rfl, by rw [codeBytes, List.flatMap_nil, List.append_nil]⟩
    · rintro ⟨rest, rfl, hlength, rfl⟩
      obtain rfl := List.length_eq_zero_iff.1 hlength
      rw [codeBytes, List.flatMap_nil, List.append_nil]
      rfl
  | succ n ih =>
    unfold readCodes
    rw [bind_eq_some]
    constructor
    · rintro ⟨code, p₁, hcode, h⟩
      obtain ⟨rest₁, rfl, rfl⟩ := readIntStatus_iff.1 hcode
      obtain ⟨codes', p₂, hcodes, h⟩ := bind_eq_some.1 h
      obtain ⟨rest, rfl, rfl, rfl⟩ := ih.1 hcodes
      obtain ⟨rfl, rfl⟩ := Prod.mk.inj (Option.some.inj h)
      exact ⟨rest, by simp [codeBytes], rfl, by simp [codeBytes]⟩
    · rintro ⟨rest, rfl, hlength, rfl⟩
      obtain ⟨code, codes', rfl⟩ := List.exists_cons_of_length_eq_add_one hlength
      have hsplit : codeBytes (code :: codes') = littleEndian 4 code.toNat ++ codeBytes codes' := List.flatMap_cons
      rw [hsplit, List.append_assoc]
      refine ⟨code, _, readIntStatus_split code, ?_⟩
      rw [run_bind (ih.2 ⟨rest, rfl, Nat.succ.inj hlength, rfl⟩), List.append_assoc]
      rfl

end Reading

/-! ## One message -/

section Messages

variable {data : Bytes} {target : Binder} {registration : InterceptorRegistration Binder}

/-- A registration is read exactly from what encodes it, if its target is a local binder. -/
theorem readRegistration_iff :
    (∃ p, readRegistration B isLocal ⟨data, 0⟩ = some ((target, registration), p)) ↔
      isLocal target = true ∧ Encodes B data target registration := by
  have hstart : (⟨data, 0⟩ : ByteParcel) = split [] data := rfl
  rw [hstart]
  unfold readRegistration
  constructor
  · rintro ⟨p, h⟩
    obtain ⟨target', p₁, htarget, h⟩ := bind_eq_some.1 h
    obtain ⟨w₁, rest₁, rfl, hw₁, hu₁, rfl⟩ := readStrongBinder_iff.1 htarget
    cases hlocal : isLocal target' with
    | false =>
      rw [hlocal] at h
      cases h
    | true =>
      rw [hlocal] at h
      obtain ⟨interceptor, p₂, hinterceptor, h⟩ := bind_eq_some.1 h
      obtain ⟨w₂, rest₂, rfl, hw₂, hu₂, rfl⟩ := readStrongBinder_iff.1 hinterceptor
      obtain ⟨count, p₃, hcount, h⟩ := bind_eq_some.1 h
      obtain ⟨rest₃, rfl, rfl⟩ := readIntStatus_iff.1 hcount
      obtain ⟨codes, p₄, hcodes, h⟩ := bind_eq_some.1 h
      obtain ⟨rest, rfl, hlength, rfl⟩ := (readCodes_iff _).1 hcodes
      obtain ⟨hpair, rfl⟩ := Prod.mk.inj (Option.some.inj h)
      obtain ⟨rfl, rfl⟩ := Prod.mk.inj hpair
      exact ⟨hlocal, w₁, w₂, count, rest, rfl, hw₁, hu₁, hw₂, hu₂, hlength⟩
  · rintro ⟨hlocal, w₁, w₂, count, rest, rfl, hw₁, hu₁, hw₂, hu₂, hlength⟩
    have htarget (r : Bytes) : B.readStrongBinder (split [] (w₁ ++ r)) = some (target, split ([] ++ w₁) r) :=
      readStrongBinder_iff.2 ⟨w₁, r, rfl, hw₁, hu₁, rfl⟩
    have hinterceptor (front r : Bytes) : B.readStrongBinder (split front (w₂ ++ r)) =
        some (registration.interceptorBinder, split (front ++ w₂) r) :=
      readStrongBinder_iff.2 ⟨w₂, r, rfl, hw₂, hu₂, rfl⟩
    have hcodes (front : Bytes) : readCodes (announced count) (split front (codeBytes registration.codes ++ rest)) =
        some (registration.codes, split (front ++ codeBytes registration.codes) rest) :=
      (readCodes_iff _).2 ⟨rest, rfl, hlength, rfl⟩
    rw [run_bind (htarget _), hlocal]
    rw [Bool.not_true, if_neg Bool.false_ne_true]
    dsimp only
    rw [run_bind (hinterceptor _ _), run_bind (readIntStatus_split _), ← announced,
      run_bind (hcodes _)]
    exact ⟨_, rfl⟩

/-- A message that registers the target. -/
def Registers (B : BinderFormat Binder) (isLocal : Binder → Bool) (m : Message) (target : Binder)
    (registration : InterceptorRegistration Binder) : Prop :=
  m.code = kRegisterInterceptor ∧ isLocal target = true ∧ Encodes B m.data target registration

/-- Data encode one registration at most. -/
theorem Registers.unique {m : Message} {target' : Binder} {registration' : InterceptorRegistration Binder}
    (h : Registers B isLocal m target registration) (h' : Registers B isLocal m target' registration') :
    target = target' ∧ registration = registration' := by
  obtain ⟨p, hread⟩ := readRegistration_iff.2 h.2
  obtain ⟨p', hread'⟩ := readRegistration_iff.2 h'.2
  have hpair := (Prod.mk.inj (Option.some.inj (hread.symm.trans hread'))).1
  exact Prod.mk.inj hpair

variable [DecidableEq Binder]

theorem onTransact_cases (B : BinderFormat Binder) (isLocal : Binder → Bool) (m : Message)
    (registrations : Registrations Binder) :
    (∃ target registration, Registers B isLocal m target registration ∧
      (onTransact B isLocal m.code ⟨m.data, 0⟩ registrations).2 =
        Function.update registrations target (some registration)) ∨
    (∀ target registration, ¬ Registers B isLocal m target registration) ∧
      (onTransact B isLocal m.code ⟨m.data, 0⟩ registrations).2 = registrations := by
  unfold onTransact
  by_cases hcode : m.code = kRegisterInterceptor
  · rw [if_pos hcode]
    unfold handleRegisterInterceptor
    cases hread : readRegistration B isLocal ⟨m.data, 0⟩ with
    | some r =>
      obtain ⟨⟨target, registration⟩, p⟩ := r
      exact .inl ⟨target, registration, ⟨hcode, readRegistration_iff.1 ⟨p, hread⟩⟩, rfl⟩
    | none =>
      refine .inr ⟨?_, rfl⟩
      rintro target registration ⟨-, hencodes⟩
      obtain ⟨p, hsome⟩ := readRegistration_iff.2 hencodes
      cases hread.symm.trans hsome
  · rw [if_neg hcode]
    exact .inr ⟨fun _ _ h => hcode h.1, rfl⟩

/-- A message leaves the registration that it encodes for a target, or the one that there was. -/
theorem onTransact_apply (m : Message) (registrations : Registrations Binder) (target : Binder) :
    (∃ registration, Registers B isLocal m target registration ∧
      (onTransact B isLocal m.code ⟨m.data, 0⟩ registrations).2 target = some registration) ∨
    (∀ registration, ¬ Registers B isLocal m target registration) ∧
      (onTransact B isLocal m.code ⟨m.data, 0⟩ registrations).2 target = registrations target := by
  rcases onTransact_cases B isLocal m registrations with ⟨target', registration, hregisters, heq⟩ | ⟨hnone, heq⟩
  · rw [heq]
    by_cases hsame : target = target'
    · subst hsame
      exact .inl ⟨registration, hregisters, Function.update_self ..⟩
    · exact .inr ⟨fun _ h => hsame (h.unique hregisters).1, Function.update_of_ne hsame ..⟩
  · exact .inr ⟨hnone target, congrFun heq target⟩

/-- Messages that do not register a target leave its registration. -/
theorem serve_of_none {messages : List Message} {target : Binder}
    (h : ∀ m ∈ messages, ∀ registration, ¬ Registers B isLocal m target registration)
    (registrations : Registrations Binder) :
    serve B isLocal registrations messages target = registrations target := by
  induction messages generalizing registrations with
  | nil => rfl
  | cons m messages ih =>
    have hrest := ih (fun m' hm' => h m' (List.mem_cons_of_mem _ hm'))
      (onTransact B isLocal m.code ⟨m.data, 0⟩ registrations).2
    refine hrest.trans ?_
    rcases onTransact_apply m registrations target with ⟨registration, hregisters, -⟩ | ⟨-, heq⟩
    · exact absurd hregisters (h m List.mem_cons_self registration)
    · exact heq

theorem serve_of_last (before : List Message) {after : List Message} {m : Message} {target : Binder}
    (hm : Registers B isLocal m target registration)
    (hafter : ∀ later ∈ after, ∀ other, ¬ Registers B isLocal later target other)
    (registrations : Registrations Binder) :
    serve B isLocal registrations (before ++ m :: after) target = some registration := by
  rw [serve, List.foldl_append, List.foldl_cons, ← serve, ← serve, serve_of_none hafter]
  rcases onTransact_apply m (serve B isLocal registrations before) target with
    ⟨registration', hregisters, heq⟩ | ⟨hnone, -⟩
  · rw [heq, (hregisters.unique hm).2]
  · exact absurd hm (hnone registration)

omit [DecidableEq Binder] in
/-- Some message is the last that registers a target, or there is none. -/
theorem exists_last (B : BinderFormat Binder) (isLocal : Binder → Bool) (messages : List Message)
    (target : Binder) :
    (∃ before m after registration, messages = before ++ m :: after ∧ Registers B isLocal m target registration ∧
      ∀ later ∈ after, ∀ other, ¬ Registers B isLocal later target other) ∨
    ∀ m ∈ messages, ∀ registration, ¬ Registers B isLocal m target registration := by
  induction messages with
  | nil => exact .inr fun _ hm => nomatch hm
  | cons m messages ih =>
    rcases ih with ⟨before, m', after, registration, rfl, hlast⟩ | hnone
    · exact .inl ⟨m :: before, m', after, registration, rfl, hlast⟩
    · by_cases hm : ∃ registration, Registers B isLocal m target registration
      · obtain ⟨registration, hregisters⟩ := hm
        exact .inl ⟨[], m, messages, registration, rfl, hregisters, hnone⟩
      · right
        intro m' hm' registration hregisters
        rcases List.mem_cons.1 hm' with rfl | hm'
        · exact hm ⟨registration, hregisters⟩
        · exact hnone m' hm' registration hregisters

end Messages

/-! ## The daemon's messages -/

section Daemon

variable {target interceptor : Binder} {codes : List (BitVec 32)} {front : Bytes}

theorem writeInt_split (v : BitVec 32) :
    writeInt v (split front []) = some ((), split (front ++ littleEndian 4 v.toNat) []) := write_split

theorem forM_writeInt (codes : List (BitVec 32)) :
    codes.forM writeInt (split front []) = some ((), split (front ++ codeBytes codes) []) := by
  induction codes generalizing front with
  | nil =>
    rw [codeBytes, List.flatMap_nil, List.append_nil]
    rfl
  | cons code codes ih =>
    show (writeInt code >>= fun _ => codes.forM writeInt) (split front []) = _
    rw [run_bind (writeInt_split code), ih, List.append_assoc]
    rfl

theorem registerBinderInterceptor_written :
    written (TrickyStore.BinderInterceptor.registerBinderInterceptor B target interceptor codes) =
      B.flatten target ++ (B.flatten interceptor ++
        (littleEndian 4 (BitVec.ofNat 32 (TrickyStore.BinderInterceptor.interceptedCodes codes).length).toNat ++
          codeBytes (TrickyStore.BinderInterceptor.interceptedCodes codes))) := by
  unfold written TrickyStore.BinderInterceptor.registerBinderInterceptor
    TrickyStore.BinderInterceptor.writeIntArray BinderFormat.writeStrongBinder
  rw [show ({} : ByteParcel) = split [] [] from rfl, run_bind write_split, run_bind write_split,
    run_bind (writeInt_split _), forM_writeInt]
  simp [split]

/-- What the daemon writes registers its codes; a Java array has less than `2 ^ 31` elements. -/
theorem registers_written (hlocal : isLocal target = true) (hcodes : codes.length < 2 ^ 31) :
    Registers B isLocal ⟨kRegisterInterceptor,
        written (TrickyStore.BinderInterceptor.registerBinderInterceptor B target interceptor codes)⟩ target
      ⟨interceptor, TrickyStore.BinderInterceptor.interceptedCodes codes⟩ := by
  have hlength : (TrickyStore.BinderInterceptor.interceptedCodes codes).length < 2 ^ 31 :=
    lt_of_le_of_lt (List.length_filter_le _ _) hcodes
  refine ⟨rfl, hlocal, B.flatten target, B.flatten interceptor,
    .ofNat 32 (TrickyStore.BinderInterceptor.interceptedCodes codes).length, [], ?_, B.length_flatten _,
    B.unflatten_flatten _, B.length_flatten _, B.unflatten_flatten _, (announced_ofNat hlength).symm⟩
  rw [registerBinderInterceptor_written, List.append_nil]

end Daemon

section Filter

variable {target interceptor : Binder} {codes : List (BitVec 32)} {before after : List Message} [DecidableEq Binder]

omit [DecidableEq Binder] in
theorem shouldInterceptTransaction_iff (registrations : Registrations Binder) (target : Binder)
    (code : BitVec 32) :
    registrations.registry.shouldInterceptTransaction target code = true ↔
      ∃ registration, registrations target = some registration ∧
        (registration.codes = [] ∨ code ∈ registration.codes) := by
  unfold Registry.shouldInterceptTransaction Registrations.registry
  cases registrations target with
  | none => simp
  | some registration => simp

/-- After any messages a transaction is intercepted exactly if the last message that encodes a registration
of its target names no codes, or its code. -/
theorem intercepted_iff_registered_last (B : BinderFormat Binder) (isLocal : Binder → Bool)
    (messages : List Message) (target : Binder) (code : BitVec 32) :
    (serve B isLocal (fun _ => none) messages).registry.shouldInterceptTransaction target code = true ↔
      ∃ before m after registration, messages = before ++ m :: after ∧ Registers B isLocal m target registration ∧
        (∀ later ∈ after, ∀ other, ¬ Registers B isLocal later target other) ∧
        (registration.codes = [] ∨ code ∈ registration.codes) := by
  rw [shouldInterceptTransaction_iff]
  constructor
  · rintro ⟨registration, hserve, hcode⟩
    rcases exists_last B isLocal messages target with ⟨before, m, after, registration', rfl, hregisters, hafter⟩ | hnone
    · obtain rfl := Option.some.inj (hserve.symm.trans (serve_of_last before hregisters hafter _))
      exact ⟨before, m, after, registration, rfl, hregisters, hafter, hcode⟩
    · rw [serve_of_none hnone] at hserve
      cases hserve
  · rintro ⟨before, m, after, registration, rfl, hregisters, hafter, hcode⟩
    exact ⟨registration, serve_of_last before hregisters hafter _, hcode⟩

/-- Once the daemon has registered a binder, and until another message does, a transaction with it is
intercepted exactly if its code is one that the platform has of those the daemon asked for, or the platform
has none of them. -/
theorem daemon_codes_intercepted (before : List Message) (hlocal : isLocal target = true)
    (hcodes : codes.length < 2 ^ 31)
    (hafter : ∀ later ∈ after, ∀ other, ¬ Registers B isLocal later target other) (code : BitVec 32) :
    (serve B isLocal (fun _ => none) (before ++ ⟨kRegisterInterceptor, written
        (TrickyStore.BinderInterceptor.registerBinderInterceptor B target interceptor codes)⟩ ::
          after)).registry.shouldInterceptTransaction target code = true ↔
      (∀ c ∈ codes, c.toInt < 0) ∨ code ∈ codes ∧ 0 ≤ code.toInt := by
  have hnil : TrickyStore.BinderInterceptor.interceptedCodes codes = [] ↔ ∀ c ∈ codes, c.toInt < 0 := by
    simp [TrickyStore.BinderInterceptor.interceptedCodes, List.filter_eq_nil_iff]
  have hmem : code ∈ TrickyStore.BinderInterceptor.interceptedCodes codes ↔ code ∈ codes ∧ 0 ≤ code.toInt := by
    simp [TrickyStore.BinderInterceptor.interceptedCodes]
  have hregisters : Registers B isLocal ⟨kRegisterInterceptor, _⟩ target
      ⟨interceptor, TrickyStore.BinderInterceptor.interceptedCodes codes⟩ := registers_written hlocal hcodes
  have hserve := serve_of_last before hregisters hafter fun _ => none
  rw [shouldInterceptTransaction_iff, hserve, ← hnil, ← hmem]
  constructor
  · rintro ⟨registration, heq, hcode⟩
    obtain rfl := Option.some.inj heq
    exact hcode
  · intro hcode
    exact ⟨_, rfl, hcode⟩

end Filter

/-- The platform has two of the codes, and a message with another code follows. -/
theorem daemon_codes_intercepted_getKeyEntry :
    (serve handleFormat (fun _ => true) (fun _ => none) ([] ++ ⟨kRegisterInterceptor, written
        (TrickyStore.BinderInterceptor.registerBinderInterceptor handleFormat 7 9 [2, -1, 5])⟩ ::
          [⟨2, []⟩])).registry.shouldInterceptTransaction 7 2 = true ↔
      (∀ c ∈ ([2, -1, 5] : List (BitVec 32)), c.toInt < 0) ∨
        (2 : BitVec 32) ∈ ([2, -1, 5] : List (BitVec 32)) ∧ 0 ≤ (2 : BitVec 32).toInt := by
  refine daemon_codes_intercepted [] rfl (by decide) ?_ 2
  rintro later hlater other ⟨hcode, -⟩
  obtain rfl := List.mem_singleton.1 hlater
  cases hcode

end Native.BinderInterceptor

end TrickyStore
