import TrickyStore.Native.ReadBuffer

/-!
# The read buffer is walked safely and completely

One record: its fields lie within it, and a redirection writes to three of them.  The loop: it takes the
commands off the buffer one by one and stops at what is no whole command.  The early exits skip no
transaction.  What is pushed is what the loop over the commands pushes.
-/

open Lib

namespace TrickyStore

namespace Native

namespace ReadBuffer

/-- The records at these addresses were handed over in this order, and only `target.ptr`, `cookie` and `code`
of those that are redirected have changed. -/
structure HandlesTransactions (env : Surroundings) (transactions : List ℕ) (s s' : ReadState) : Prop where
  handed : s'.handed = s.handed ++ transactions
  queue : s'.queue = s.queue ++ transactions.filterMap (originOf env s.memory)
  length : s'.memory.length = s.memory.length
  changed : ∀ i, s'.memory[i]? ≠ s.memory[i]? → ∃ address ∈ transactions,
    originOf env s.memory address ≠ none ∧ address ≤ i ∧ i < address + 20

variable {env : Surroundings} {limit : ℕ}

/-! ## One record -/

section Record

variable {address : ℕ} {s : ReadState}

theorem load32_eq (memory : List UInt8) (offset : ℕ) (h : address + offset + 4 ≤ limit) :
    load32 limit memory (address + offset) =
      some (BitVec.ofNat 32 (field (memory.drop address) offset 4)) := by
  rw [load32, load_of_le h, field, List.drop_drop, Option.map_some]

theorem load64_eq (memory : List UInt8) (offset : ℕ) (h : address + offset + 8 ≤ limit) :
    load64 limit memory (address + offset) =
      some (BitVec.ofNat 64 (field (memory.drop address) offset 8)) := by
  rw [load64, load_of_le h, field, List.drop_drop, Option.map_some]

variable (env) in
theorem redirect_spec (h : address + 64 ≤ limit) (hlimit : limit ≤ s.memory.length)
    (origin : TransactionOrigin (BitVec 64)) :
    ∃ memory', redirect env limit address origin s =
        some { s with memory := memory', queue := s.queue ++ [origin] } ∧
      SameOutside s.memory memory' address 20 := by
  have hstore : ∀ (m : List UInt8) (a n v : ℕ), address ≤ a → a + n ≤ address + 20 →
      m.length = s.memory.length → ∃ m', store limit m a n v = some m' ∧ SameOutside m m' address 20 := by
    intro m a n v ha hn hm
    obtain ⟨m', hm', hsame⟩ := store_of_le (by omega : a + n ≤ limit) (by omega : limit ≤ m.length) v
    exact ⟨m', hm', hsame.mono ha hn⟩
  obtain ⟨m₁, hm₁, hsame₁⟩ := hstore s.memory address 8 env.stubWeakRefs.toNat (by omega) (by omega) rfl
  obtain ⟨m₂, hm₂, hsame₂⟩ := hstore m₁ (address + 8) 8 env.stub.toNat (by omega) (by omega) hsame₁.length
  have hsame := hsame₁.trans hsame₂
  obtain ⟨m₃, hm₃, hsame₃⟩ := hstore m₂ (address + 16) 4 kBackdoorCode.toNat (by omega) (by omega) hsame.length
  refine ⟨m₃, ?_, hsame.trans hsame₃⟩
  simp only [redirect, hm₁, hm₂, hm₃, Option.bind_eq_bind, Option.bind_some]
  rfl

/-- What a call for the record at the address does. -/
structure HandlesRecord (address : ℕ) (origin : Option (TransactionOrigin (BitVec 64))) (s s' : ReadState) :
    Prop where
  handed : s'.handed = s.handed ++ [address]
  queue : s'.queue = s.queue ++ origin.toList
  memory : SameOutside s.memory s'.memory address 20
  unchanged : origin = none → s'.memory = s.memory

/-- The call stays within the record and does what it does on the level of commands. -/
theorem processBinderTransaction_spec (env : Surroundings) (h : address + 64 ≤ limit)
    (hlimit : limit ≤ s.memory.length) : ∃ s', processBinderTransaction env limit address s = some s' ∧
      HandlesRecord address (originOf env s.memory address) s s' := by
  have hptr := load64_eq s.memory 0 (by omega : address + 0 + 8 ≤ limit)
  have hcookie := load64_eq s.memory 8 (by omega : address + 8 + 8 ≤ limit)
  have hcode := load32_eq s.memory 16 (by omega : address + 16 + 4 ≤ limit)
  have heuid := load32_eq s.memory 28 (by omega : address + 28 + 4 ≤ limit)
  rw [Nat.add_zero] at hptr
  have hleft : ∃ s', some { s with handed := s.handed ++ [address] } = some s' ∧ HandlesRecord address none s s' :=
    ⟨_, rfl, rfl, (List.append_nil _).symm, .refl .., fun _ => rfl⟩
  have hredirected : ∀ origin, ∃ s', redirect env limit address origin { s with handed := s.handed ++ [address] } =
      some s' ∧ HandlesRecord address (some origin) s s' := by
    intro origin
    obtain ⟨memory', hmemory, hsame⟩ :=
      redirect_spec env (s := { s with handed := s.handed ++ [address] }) h hlimit origin
    exact ⟨_, hmemory, rfl, rfl, hsame, fun hnone => by cases hnone⟩
  unfold processBinderTransaction originOf Native.processBinderTransaction transactionData targetPtr
  simp only [hptr, hcookie, hcode, heuid, Option.bind_eq_bind, Option.bind_some]
  generalize BitVec.ofNat 64 (field (s.memory.drop address) 0 8) = ptr
  generalize BitVec.ofNat 64 (field (s.memory.drop address) 8 8) = cookie
  generalize BitVec.ofNat 32 (field (s.memory.drop address) 16 4) = code
  generalize BitVec.ofNat 32 (field (s.memory.drop address) 28 4) = senderEuid
  by_cases hnull : ptr = 0
  · simpa [hnull] using hleft
  · simp only [hnull, ne_eq, not_false_eq_true, decide_true, Bool.not_true, Bool.false_eq_true, if_false,
      Option.pure_def]
    by_cases hbackdoor : code = kBackdoorCode ∧ senderEuid = 0
    · rw [if_pos hbackdoor, if_pos hbackdoor]
      exact hredirected ⟨kBackdoorCode, none⟩
    · rw [if_neg hbackdoor, if_neg hbackdoor]
      by_cases hsystem : code > kMaxUserTransactionCode
      · rw [if_pos hsystem, if_pos hsystem]
        exact hleft
      · rw [if_neg hsystem, if_neg hsystem]
        by_cases halive : env.attemptIncStrong address ptr = true
        · by_cases hregistered : (env.registry address).shouldInterceptTransaction cookie code = true
          · simpa only [halive, hregistered, Bool.and_self, if_true] using hredirected ⟨code, some cookie⟩
          · simpa only [halive, hregistered, Bool.and_false, Bool.false_eq_true, if_false, if_true] using hleft
        · simpa only [halive, Bool.false_and, Bool.false_eq_true, if_false] using hleft

theorem HandlesTransactions.refl (env : Surroundings) (s : ReadState) : HandlesTransactions env [] s s :=
  ⟨(List.append_nil _).symm, (List.append_nil _).symm, rfl, fun _ h => absurd rfl h⟩

/-- The records behind the first one are still as they were. -/
theorem HandlesRecord.cons {s₁ s₂ : ReadState} {rest : List ℕ}
    (h : HandlesRecord address (originOf env s.memory address) s s₁)
    (h' : HandlesTransactions env rest s₁ s₂) (hrest : ∀ a ∈ rest, address + 20 ≤ a) :
    HandlesTransactions env (address :: rest) s s₂ := by
  have hsame : ∀ a ∈ rest, originOf env s₁.memory a = originOf env s.memory a := by
    intro a ha
    rw [originOf, originOf, h.memory.drop_eq (hrest a ha)]
  refine ⟨?_, ?_, h'.length.trans h.memory.length, ?_⟩
  · rw [h'.handed, h.handed, List.append_assoc]
    rfl
  · rw [h'.queue, h.queue, List.append_assoc, List.filterMap_congr hsame]
    cases horigin : originOf env s.memory address <;> simp [horigin]
  · intro i hi
    by_cases hfirst : s₁.memory[i]? = s.memory[i]?
    · rw [← hfirst] at hi
      obtain ⟨a, ha, horigin, hbounds⟩ := h'.changed i hi
      rw [hsame a ha] at horigin
      exact ⟨a, List.mem_cons_of_mem _ ha, horigin, hbounds⟩
    · refine ⟨address, List.mem_cons_self, fun hnone => ?_, ?_⟩
      · rw [h.unchanged hnone] at hfirst
        exact hfirst rfl
      · by_contra hout
        exact hfirst (h.memory.outside i (by omega))

end Record

/-! ## The loop -/

theorem le_commandSize {command : BitVec 32} (h : isTransaction command = true) :
    64 ≤ (commandSize command).toNat := by
  unfold isTransaction at h
  rw [Bool.or_eq_true, decide_eq_true_eq, decide_eq_true_eq] at h
  rcases h with rfl | rfl
  · decide
  · decide

theorem commandSize_lt (command : BitVec 32) : (commandSize command).toNat < 2 ^ 32 := by
  have hsize := (iocSize command).isLt
  rw [commandSize, BitVec.toNat_setWidth]
  omega

theorem le_of_mem_transactionsFrom {address : ℕ} {commands : List RawCommand} :
    ∀ a ∈ transactionsFrom address commands, address + 4 ≤ a := by
  induction commands generalizing address with
  | nil => intro a ha; cases ha
  | cons command rest ih =>
    intro a ha
    rcases List.mem_append.1 ha with ha | ha
    · split_ifs at ha
      · rw [List.mem_singleton.1 ha]
      · cases ha
    · have hnext := ih a ha
      omega

section Window

variable {memory rest : List UInt8} {address : ℕ} {command : RawCommand}

theorem take_drop_eq {n : ℕ} (h : address + n ≤ limit) :
    (memory.drop address).take n = ((memory.take limit).drop address).take n := by
  rw [List.drop_take, List.take_take, min_eq_left (by omega)]

theorem length_encoded (command : RawCommand) :
    command.encoded.length = 4 + (commandSize (code command)).toNat := command.length_encoded

theorem load32_window (h : address + 4 ≤ limit) : load32 limit memory address =
    some (BitVec.ofNat 32 (ofLittleEndian (((memory.take limit).drop address).take 4))) := by
  rw [load32, load_of_le h, take_drop_eq h, Option.map_some]

theorem code_eq (command : RawCommand) (rest : List UInt8) :
    BitVec.ofNat 32 (ofLittleEndian ((command.encoded ++ rest).take 4)) = code command := by
  rw [show (4 : ℕ) = commandFormat.headerLength from rfl, Frame.take_headerLength, code]

end Window

section Turn

variable {memory rest : List UInt8} {address : ℕ} {remaining : BitVec 64} {s : ReadState}

/-- The loop stops where no whole command is left. -/
theorem processCommands_incomplete (hwindow : (s.memory.take limit).drop address = rest)
    (hincomplete : rest.length < 4 + (commandSize (BitVec.ofNat 32 (ofLittleEndian (rest.take 4)))).toNat)
    (hlimit : limit ≤ s.memory.length) (hremaining : address + remaining.toNat = limit) :
    processCommands env limit address remaining s = some s := by
  have hlength : rest.length = remaining.toNat := by
    rw [← hwindow, List.length_drop, List.length_take]
    omega
  rw [processCommands]
  by_cases hmore : remaining > 0
  · rw [if_pos hmore]
    by_cases hheader : remaining < 4
    · rw [dif_pos hheader]
    · rw [dif_neg hheader, load32_window (by bv_omega), hwindow]
      have hpayload : remaining - 4 < commandSize (BitVec.ofNat 32 (ofLittleEndian (rest.take 4))) := by
        bv_omega
      simp only [Option.bind_eq_bind, Option.bind_some, dif_pos hpayload]
  · rw [if_neg hmore]

/-- One turn takes the first command off the buffer. -/
theorem processCommands_turn (env : Surroundings) {command : RawCommand}
    (hwindow : (s.memory.take limit).drop address = command.encoded ++ rest)
    (hlimit : limit ≤ s.memory.length) (hremaining : address + remaining.toNat = limit) :
    ∃ s₁, processCommands env limit address remaining s =
        processCommands env limit (address + command.encoded.length)
          (remaining - 4 - commandSize (code command)) s₁ ∧
      address + command.encoded.length + (remaining - 4 - commandSize (code command)).toNat = limit ∧
      SameOutside s.memory s₁.memory address command.encoded.length ∧
      if isTransaction (code command) then HandlesRecord (address + 4) (originOf env s.memory (address + 4)) s s₁
      else s₁ = s := by
  have hfits : 4 + (commandSize (code command)).toNat ≤ remaining.toNat := by
    have hlength := congrArg List.length hwindow
    rw [List.length_append, length_encoded, List.length_drop, List.length_take] at hlength
    omega
  have hleft : (remaining - 4 - commandSize (code command)).toNat =
      remaining.toNat - 4 - (commandSize (code command)).toNat := by
    bv_omega
  rw [processCommands, if_pos (by bv_omega), dif_neg (by bv_omega), load32_window (by omega), hwindow, code_eq]
  simp only [Option.bind_eq_bind, Option.bind_some]
  rw [dif_neg (by bv_omega), length_encoded, ← Nat.add_assoc]
  by_cases htransaction : isTransaction (code command) = true
  · have hsize := le_commandSize htransaction
    obtain ⟨s₁, hs₁, hrecord⟩ := processBinderTransaction_spec env (by omega : address + 4 + 64 ≤ limit) hlimit
    rw [if_pos htransaction, hs₁]
    refine ⟨s₁, rfl, by omega, hrecord.memory.mono (by omega) (by omega), ?_⟩
    rw [if_pos htransaction]
    exact hrecord
  · rw [if_neg htransaction]
    refine ⟨s, rfl, by omega, .refl .., ?_⟩
    rw [if_neg htransaction]

end Turn

/-- The loop takes the commands off the buffer one by one. -/
theorem processCommands_spec (env : Surroundings) {commands : List RawCommand} {rest : List UInt8} {address : ℕ}
    {remaining : BitVec 64} {s : ReadState} (hlimit : limit ≤ s.memory.length)
    (hsplit : Split ((s.memory.take limit).drop address) commands rest)
    (hremaining : address + remaining.toNat = limit) :
    ∃ s', processCommands env limit address remaining s = some s' ∧
      HandlesTransactions env (transactionsFrom address commands) s s' := by
  induction commands generalizing address remaining s with
  | nil => exact ⟨s, processCommands_incomplete hsplit.eq hsplit.incomplete hlimit hremaining, .refl env s⟩
  | cons command commands ih =>
    have hwindow : (s.memory.take limit).drop address =
        command.encoded ++ (commands.flatMap Frame.encoded ++ rest) := by
      rw [hsplit.eq, List.flatMap_cons, List.append_assoc]
    obtain ⟨s₁, hturn, hremaining₁, hsame, hdone⟩ := processCommands_turn env hwindow hlimit hremaining
    -- what the turn leaves is a split of the rest of the buffer
    have hsplit₁ :
        Split ((s₁.memory.take limit).drop (address + command.encoded.length)) commands rest := by
      refine ⟨?_, hsplit.incomplete⟩
      rw [List.drop_take, hsame.drop_eq (Nat.le_refl _), ← List.drop_take, ← List.drop_drop, hwindow, List.drop_left]
    have hlimit₁ : limit ≤ s₁.memory.length := by
      rw [hsame.length]
      exact hlimit
    obtain ⟨s', hs', hrest⟩ := ih hlimit₁ hsplit₁ hremaining₁
    refine ⟨s', hturn.trans hs', ?_⟩
    rw [transactionsFrom]
    by_cases htransaction : isTransaction (code command) = true
    · rw [if_pos htransaction] at hdone ⊢
      have hsize := le_commandSize htransaction
      refine hdone.cons hrest fun a ha => ?_
      have hbehind := le_of_mem_transactionsFrom a ha
      rw [length_encoded] at hbehind
      omega
    · rw [if_neg htransaction] at hdone ⊢
      rw [← hdone]
      exact hrest

/-! ## The early exits -/

theorem transactionsFrom_eq_nil {address : ℕ} {commands : List RawCommand}
    (h : ∀ command ∈ commands, isTransaction (code command) = false) : transactionsFrom address commands = [] := by
  induction commands generalizing address with
  | nil => rfl
  | cons command commands ih =>
    rw [transactionsFrom, h command List.mem_cons_self, ih fun c hc => h c (List.mem_cons_of_mem _ hc)]
    rfl

theorem length_encoded_le {command : RawCommand} {commands : List RawCommand} {rest stream : List UInt8}
    (h : Split stream commands rest) (hcommand : command ∈ commands) : command.encoded.length ≤ stream.length := by
  have hpart := (List.sublist_flatten_of_mem (List.mem_map_of_mem (f := Frame.encoded) hcommand)).length_le
  rw [h.eq, List.length_append, List.flatMap_def]
  omega

/-- A buffer that is no longer than a header holds no transaction. -/
theorem no_transaction_of_short {commands : List RawCommand} {rest stream : List UInt8}
    (h : Split stream commands rest) (hstream : stream.length ≤ 4) : transactionsFrom 0 commands = [] := by
  apply transactionsFrom_eq_nil
  intro command hcommand
  have hlength := length_encoded_le h hcommand
  rw [length_encoded] at hlength
  by_contra htransaction
  have hsize := le_commandSize (Bool.of_not_eq_false htransaction)
  omega

/-- Nothing follows a first command that is as long as the buffer. -/
theorem no_transaction_of_lone {commands : List RawCommand} {rest stream : List UInt8}
    (h : Split stream commands rest)
    (hfirst : isTransaction (BitVec.ofNat 32 (ofLittleEndian (stream.take 4))) = false)
    (hlone : stream.length = 4 + (commandSize (BitVec.ofNat 32 (ofLittleEndian (stream.take 4)))).toNat) :
    transactionsFrom 0 commands = [] := by
  cases commands with
  | nil => rfl
  | cons first commands =>
    have hstream : stream = first.encoded ++ (commands.flatMap Frame.encoded ++ rest) := by
      rw [h.eq, List.flatMap_cons, List.append_assoc]
    rw [hstream, code_eq] at hfirst hlone
    rw [List.length_append, length_encoded] at hlone
    have hothers : ∀ command ∈ commands, False := by
      intro command hcommand
      have hbehind : Split (commands.flatMap Frame.encoded ++ rest) commands rest := ⟨rfl, h.incomplete⟩
      have hlength := length_encoded_le hbehind hcommand
      rw [length_encoded] at hlength
      omega
    apply transactionsFrom_eq_nil
    intro command hcommand
    rcases List.mem_cons.1 hcommand with rfl | hother
    · exact hfirst
    · exact (hothers command hother).elim

/-- No access goes beyond the bytes that were read, and the records that are handed over are the transactions
of the longest prefix of whole commands, each once and in order. -/
theorem reads_safely_and_completely (env : Surroundings) (r : BinderWriteRead)
    (queue : List (TransactionOrigin (BitVec 64))) :
    ∃ commands : List RawCommand, IsLongestPrefix (r.memory.take r.readConsumed.toNat) commands ∧
      ∃ s, processBinderWriteRead env r queue = some s ∧
        HandlesTransactions env (transactionsFrom 0 commands) { memory := r.memory, queue, handed := [] } s := by
  obtain ⟨commands, rest, hsplit⟩ := exists_split commandFormat (r.memory.take r.readConsumed.toNat)
  have hlength : (r.memory.take r.readConsumed.toNat).length = r.readConsumed.toNat := by
    rw [List.length_take, min_eq_left r.consumed_le]
  have hmemory : r.memory.length ≤ r.readSize.toNat ∧ (r.readBuffer = 0 → r.memory.length = 0) := by
    rw [r.length_memory]
    split_ifs with hnull
    · exact ⟨Nat.zero_le _, fun _ => rfl⟩
    · exact ⟨Nat.le_refl _, fun h => absurd h hnull⟩
  have hconsumed := r.consumed_le
  refine ⟨commands, hsplit.isLongestPrefix, ?_⟩
  have hdone := HandlesTransactions.refl env { memory := r.memory, queue, handed := [] }
  unfold processBinderWriteRead
  by_cases hempty : r.readBuffer = 0 ∨ r.readSize = 0 ∨ r.readConsumed ≤ 4
  · have hshort : r.readConsumed.toNat ≤ 4 := by
      rcases hempty with hnull | hzero | hfour
      · have hnothing := hmemory.2 hnull
        omega
      · rw [hzero] at hmemory
        have hnothing : r.memory.length ≤ 0 := hmemory.1
        omega
      · bv_omega
    rw [no_transaction_of_short hsplit (by omega)]
    exact ⟨_, if_pos hempty, hdone⟩
  · have hlong : 4 < r.readConsumed.toNat := by bv_omega
    simp only [if_neg hempty]
    rw [show load32 r.readConsumed.toNat r.memory 0 = _ from load32_window (by omega), List.drop_zero]
    simp only [Option.bind_eq_bind, Option.bind_some]
    by_cases hlone : isTransaction (BitVec.ofNat 32 (ofLittleEndian ((r.memory.take r.readConsumed.toNat).take 4))) =
        false ∧ r.readConsumed =
          4 + commandSize (BitVec.ofNat 32 (ofLittleEndian ((r.memory.take r.readConsumed.toNat).take 4)))
    · rw [if_pos hlone, no_transaction_of_lone hsplit hlone.1 ?_]
      · exact ⟨_, rfl, hdone⟩
      · have hsize := commandSize_lt
          (BitVec.ofNat 32 (ofLittleEndian ((r.memory.take r.readConsumed.toNat).take 4)))
        rw [hlength]
        bv_omega
    · rw [if_neg hlone]
      exact processCommands_spec env hconsumed hsplit (Nat.zero_add _)

/-! ## The commands of the bytes -/

section Commands

variable {registry : Registry (BitVec 64)} {alive : BitVec 64 → Bool}

theorem field_append {payload : List UInt8} {offset n : ℕ} (h : offset + n ≤ payload.length) (tail : List UInt8) :
    field (payload ++ tail) offset n = field payload offset n := by
  rw [field, field, List.drop_append_of_le_length (by omega), List.take_append_of_le_length]
  rw [List.length_drop]
  omega

theorem targetPtr_append {payload : List UInt8} (h : 64 ≤ payload.length) (tail : List UInt8) :
    targetPtr (payload ++ tail) = targetPtr payload := by
  rw [targetPtr, targetPtr, field_append (by omega)]

theorem transactionData_append {payload : List UInt8} (h : 64 ≤ payload.length) (tail : List UInt8) :
    transactionData (payload ++ tail) = transactionData payload := by
  unfold transactionData
  rw [targetPtr_append h, field_append (by omega), field_append (by omega), field_append (by omega)]

/-- Only the weak reference of the command's own target is taken. -/
theorem processBinderTransaction_congr (registry : Registry (BitVec 64)) {alive alive' : BitVec 64 → Bool}
    (data : BinderTransactionData (BitVec 64)) (h : alive data.cookie = alive' data.cookie) :
    Native.processBinderTransaction registry alive data = Native.processBinderTransaction registry alive' data := by
  unfold Native.processBinderTransaction
  rw [h]

/-- The walk over the bytes pushes what the loop over the commands pushes. -/
theorem queue_of_commands {memory rest : List UInt8} {commands : List RawCommand} {address : ℕ}
    (hregistry : ∀ a, env.registry a = registry)
    (halive : ∀ a, ∀ command ∈ commands,
      env.attemptIncStrong a (targetPtr command.payload) = alive (transactionData command.payload).cookie)
    (hmemory : memory.drop address = commands.flatMap Frame.encoded ++ rest)
    (queue : List (TransactionOrigin (BitVec 64))) :
    (Native.processCommands registry alive (commands.map toCommand) queue).2 =
      queue ++ (transactionsFrom address commands).filterMap (originOf env memory) := by
  induction commands generalizing address queue with
  | nil => exact (List.append_nil queue).symm
  | cons command commands ih =>
    rw [List.flatMap_cons, List.append_assoc] at hmemory
    have hnext : memory.drop (address + command.encoded.length) = commands.flatMap Frame.encoded ++ rest := by
      rw [← List.drop_drop, hmemory, List.drop_left]
    have htail := ih (fun a c hc => halive a c (List.mem_cons_of_mem _ hc)) hnext
    rw [List.map_cons, Native.processCommands, transactionsFrom, List.filterMap_append]
    by_cases htransaction : isTransaction (code command) = true
    · have hrecord : memory.drop (address + 4) =
          command.payload ++ (commands.flatMap Frame.encoded ++ rest) := by
        rw [← List.drop_drop, hmemory, Frame.encoded, List.append_assoc,
          show (4 : ℕ) = command.header.length from command.length_header.symm, List.drop_left]
      have hlength : 64 ≤ command.payload.length := by
        rw [command.length_payload]
        exact le_commandSize htransaction
      have horigin : originOf env memory (address + 4) =
          (Native.processBinderTransaction registry alive (transactionData command.payload)).2 := by
        rw [originOf, hrecord, targetPtr_append hlength, transactionData_append hlength, hregistry]
        rw [processBinderTransaction_congr registry _ (halive (address + 4) command List.mem_cons_self)]
      simp only [toCommand, htransaction, if_true, Native.processCommand, htail]
      rw [List.filterMap_cons, horigin, List.append_assoc]
      cases (Native.processBinderTransaction registry alive (transactionData command.payload)).2 <;> rfl
    · simp only [toCommand, htransaction, Native.processCommand, htail, Bool.false_eq_true, if_false,
        Option.toList_none, List.append_nil, List.filterMap_nil, List.nil_append]

end Commands

/-! ## A transaction behind a command without data -/

def BR_NOOP : BitVec 32 := 0x0000720c

/-- A transaction of the uid 10001 with code 5 for the object at 0x40. -/
def transactionRecord : List UInt8 :=
  littleEndian 8 0x20 ++ littleEndian 8 0x40 ++ littleEndian 4 5 ++ littleEndian 8 0 ++ littleEndian 4 10001 ++
    littleEndian 40 0

def noop : RawCommand := ⟨littleEndian 4 BR_NOOP.toNat, [], rfl, by decide⟩

def redirectedTransaction : RawCommand :=
  ⟨littleEndian 4 BR_TRANSACTION_SEC_CTX.toNat, transactionRecord, rfl, by decide⟩

/-- The driver has filled 80 of 96 bytes. -/
def filledBuffer : BinderWriteRead where
  readBuffer := 0x1000
  readSize := 96
  readConsumed := 80
  memory := noop.encoded ++ redirectedTransaction.encoded ++ littleEndian 16 0
  length_memory := by decide
  consumed_le := by decide

/-- Every transaction with the object is intercepted. -/
def surroundings : Surroundings where
  registry := fun _ target => if target = 0x40 then some [] else none
  attemptIncStrong := fun _ _ => true
  stubWeakRefs := 0x60
  stub := 0x80

theorem reads_transaction_behind_noop :
    ∃ s, processBinderWriteRead surroundings filledBuffer [] = some s ∧ s.handed = [8] ∧
      s.queue = [⟨5, some 0x40⟩] := by
  have hsplit : Split (filledBuffer.memory.take filledBuffer.readConsumed.toNat) [noop, redirectedTransaction] [] :=
    ⟨by decide, by decide⟩
  obtain ⟨commands, hlongest, s, hs, hhandled⟩ := reads_safely_and_completely surroundings filledBuffer []
  obtain rfl := hlongest.unique hsplit.isLongestPrefix
  exact ⟨s, hs, hhandled.handed.trans (by decide), hhandled.queue.trans (by decide)⟩

end ReadBuffer

end Native

end TrickyStore
