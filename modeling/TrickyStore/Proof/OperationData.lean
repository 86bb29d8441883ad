import TrickyStore.Lib.Machine
import TrickyStore.Model.OperationEngines

/-!
# Data given to an operation in parts

A client may give an operation its data in any parts, several clients may call it in turn, and calls may be
refused in between.  What it gets is what an engine gives for all data at once: a `Signature` and a `Mac` take
what they are given one part behind the other, and a `Cipher` is assumed to do the same, as is documented for
its multiple-part operations.
-/

open Lib

namespace TrickyStore

variable {J : Providers} {setup : OpEngine}

/-! ## Ciphers -/

namespace Providers

/-- The cipher has taken the associated data and the data, in any parts, and has given the output. -/
inductive Taken (J : Providers) (setup : OpEngine) : J.Cipher → (aad data output : Bytes) → Prop
  | start : Taken J setup (J.cipher setup) [] [] []
  | aad {c c' : J.Cipher} {aad data output part : Bytes} (h : Taken J setup c aad data output)
      (hpart : J.updateAAD c part = .ok c') : Taken J setup c' (aad ++ part) data output
  | data {c : J.Cipher} {aad data output part : Bytes} (h : Taken J setup c aad data output) :
    Taken J setup (J.update c part).1 aad (data ++ part) (output ++ (J.update c part).2.getD [])

/-- The output of a cipher that is given everything at once. -/
def single (J : Providers) (setup : OpEngine) (aad data : Bytes) : Except Throwable Bytes := do
  let c ← if aad = [] then .ok (J.cipher setup) else J.updateAAD (J.cipher setup) aad
  J.doFinal c data

/-- A multiple-part operation of a cipher is one operation: its outputs, put together, are the output for
everything at once, and if that fails its last part fails. -/
def MultiplePart (J : Providers) : Prop :=
  ∀ setup c aad data output last, J.Taken setup c aad data output →
    match J.single setup aad (data ++ last) with
    | .ok whole => ∃ rest, whole = output ++ rest ∧ J.doFinal c last = .ok rest
    | .error _ => ∃ t, J.doFinal c last = .error t

end Providers

/-! ## What the clients see -/

/-- The parts of requests that were not refused, and the output of the replies to them. -/
structure Dialogue where
  aad : Bytes := []
  data : Bytes := []
  output : Bytes := []
deriving DecidableEq, Repr

/-- A request and the reply to it. -/
def Dialogue.add (v : Dialogue) (r : OperationRequest) (reply : SoftwareOperationBinder.Outcome) : Dialogue :=
  match r, reply with
  | .update input, .ok output => { v with data := v.data ++ input.getD [], output := v.output ++ output.getD [] }
  | .updateAad aadInput, .ok _ => { v with aad := v.aad ++ aadInput.getD [] }
  | _, _ => v

/-- The last reply, behind those of the dialogue, gives the client this result. -/
def Dialogue.Delivers (v : Dialogue) (result : Except Throwable (Option Bytes))
    (reply : SoftwareOperationBinder.Outcome) : Prop :=
  match result with
  | .ok none => reply = .ok none
  | .ok (some whole) => ∃ rest, whole = v.output ++ rest ∧ reply = .ok (some rest)
  | .error _ => ∃ errorCode message, reply = .error (.serviceSpecific errorCode message)

namespace SoftwareOperation

/-- An operation, what was said with it, and a request with the usage counters that it finds. -/
def converse (s : SoftwareOperation J × Dialogue) (r : HashMap Key Int × OperationRequest) :
    SoftwareOperation J × Dialogue :=
  ((s.1.call r.1 r.2).1, s.2.add r.2 (s.1.call r.1 r.2).2.2)

/-- The requests that an operation gets from its creation on. -/
def conversation (J : Providers) (binder : SoftwareOperationBinder)
    (rs : List (HashMap Key Int × OperationRequest)) : SoftwareOperation J × Dialogue :=
  Machine.run converse (ofBinder J binder, {}) rs

end SoftwareOperation

namespace Engine

/-- What an engine gives for all associated data and all data at once, the last part being that of `finish`.
A key agreement takes the last part only. -/
def atOnce (J : Providers) (setup : OpEngine) (aad data : Bytes) (last signature : Option Bytes) :
    Except Throwable (Option Bytes) :=
  match setup with
  | .keyAgreement .. => (start J setup).finish last signature
  | .signature .. | .mac .. => (start J setup).finish (some (data ++ last.getD [])) signature
  | .cipher .. => (J.single setup aad (data ++ last.getD [])).map some

/-- The engine has taken what was said. -/
def Took (e : Engine J) (v : Dialogue) : Prop :=
  match e.setup with
  | .signature .. | .mac .. => e.taken = v.data ∧ v.output = []
  | .keyAgreement .. => v.output = []
  | .cipher .. => J.Taken e.setup e.cipher v.aad v.data v.output

variable {e : Engine J} {v : Dialogue}

theorem took_start (J : Providers) (setup : OpEngine) : (start J setup).Took {} := by
  unfold Took start
  cases setup with
  | signature | mac => exact ⟨rfl, rfl⟩
  | keyAgreement => rfl
  | cipher => exact .start

theorem update_setup (e : Engine J) (data : Option Bytes) : (e.update data).1.setup = e.setup := by
  unfold update
  split <;> rfl

theorem updateAad_setup {e' : Engine J} {data : Option Bytes} (h : e.updateAad data = .ok e') :
    e'.setup = e.setup := by
  unfold updateAad at h
  split at h
  · obtain rfl := Except.ok.inj h
    rfl
  · next part heq =>
    cases hpart : J.updateAAD e.cipher part with
    | error t =>
      rw [hpart] at h
      cases h
    | ok c =>
      rw [hpart] at h
      obtain rfl := Except.ok.inj h
      rfl
  · cases h

/-- A part of the data joins what was taken, and the output what was given. -/
theorem Took.update (h : e.Took v) (data : Option Bytes) :
    (e.update data).1.Took
      { v with data := v.data ++ data.getD [], output := v.output ++ (e.update data).2.getD [] } := by
  have hsetup := e.update_setup data
  unfold Took at h ⊢
  rw [hsetup]
  cases data with
  | none =>
    simp only [Engine.update, Option.getD_none, List.append_nil]
    exact h
  | some part =>
    unfold Engine.update
    cases he : e.setup with
    | signature | mac =>
      rw [he] at h
      simp only [Option.getD_some, Option.getD_none, List.append_nil]
      exact ⟨by rw [h.1], h.2⟩
    | keyAgreement =>
      rw [he] at h
      simp only [Option.getD_none, List.append_nil]
      exact h
    | cipher =>
      rw [he] at h
      simp only [Option.getD_some]
      exact h.data

theorem Took.updateAad {e' : Engine J} {data : Option Bytes} (h : e.Took v)
    (hupdate : e.updateAad data = .ok e') : e'.Took { v with aad := v.aad ++ data.getD [] } := by
  have hsetup := updateAad_setup hupdate
  unfold Took at h ⊢
  rw [hsetup]
  unfold Engine.updateAad at hupdate
  split at hupdate
  · next heq =>
    obtain rfl := Except.ok.inj hupdate
    simp only [heq, Option.getD_none, List.append_nil] at h ⊢
    exact h
  · next part heq =>
    simp only [heq, Option.getD_some] at h ⊢
    cases hpart : J.updateAAD e.cipher part with
    | error t =>
      rw [hpart] at hupdate
      cases hupdate
    | ok c =>
      rw [hpart] at hupdate
      obtain rfl := Except.ok.inj hupdate
      exact h.aad hpart
  · cases hupdate

end Engine

/-! ## Conversations -/

namespace SoftwareOperation

variable {o : SoftwareOperation J} {v : Dialogue} {u : HashMap Key Int}

theorem checks_of_admits {input : Option Bytes} (h : o.admits input = true) :
    o.binder.checkActive = .ok () ∧ SoftwareOperationBinder.checkInput input = .ok () := by
  obtain ⟨hactive, hinput⟩ := Bool.and_eq_true_iff.1 h
  constructor
  · rw [SoftwareOperationBinder.checkActive, if_pos hactive]
  · cases input with
    | none => rfl
    | some data =>
      have hlength : data.length ≤ MAX_RECEIVE_DATA := of_decide_eq_true hinput
      rw [SoftwareOperationBinder.checkInput, if_neg (not_lt.2 hlength)]

theorem checks_of_not_admits {input : Option Bytes} (h : ¬ o.admits input = true) :
    (∃ t, o.binder.checkActive = .error t) ∨
      o.binder.checkActive = .ok () ∧ ∃ t, SoftwareOperationBinder.checkInput input = .error t := by
  by_cases hactive : o.binder.active = true
  · right
    refine ⟨by rw [SoftwareOperationBinder.checkActive, if_pos hactive], ?_⟩
    cases input with
    | none => exact absurd (Bool.and_eq_true_iff.2 ⟨hactive, rfl⟩) h
    | some data =>
      have hlength : data.length > MAX_RECEIVE_DATA := by
        by_contra hle
        exact h (Bool.and_eq_true_iff.2 ⟨hactive, decide_eq_true (not_lt.1 hle)⟩)
      exact ⟨_, if_pos hlength⟩
  · exact .inl ⟨_, if_neg hactive⟩

/-- An `update` is refused, or answered with what the engine gives. -/
theorem reply_update (u : HashMap Key Int) (input : Option Bytes) :
    o.admits input = true ∧ (o.call u (.update input)).2.2 = .ok (o.engine.update input).2 ∨
      ¬ o.admits input = true ∧ ∃ t, (o.call u (.update input)).2.2 = .error t := by
  by_cases hadmits : o.admits input = true
  · obtain ⟨hactive, hinput⟩ := checks_of_admits hadmits
    refine .inl ⟨hadmits, ?_⟩
    simp only [call, engineCall, SoftwareOperationBinder.call, SoftwareOperationBinder.update, hactive, hinput]
    rfl
  · refine .inr ⟨hadmits, ?_⟩
    simp only [call, engineCall, SoftwareOperationBinder.call, SoftwareOperationBinder.update]
    rcases checks_of_not_admits hadmits with ⟨t, hactive⟩ | ⟨hactive, t, hinput⟩
    · exact ⟨t, by rw [hactive]; rfl⟩
    · exact ⟨t, by rw [hactive, hinput]; rfl⟩

/-- An `updateAad` is refused, before the engine or by it, or the engine has taken the part. -/
theorem reply_updateAad (u : HashMap Key Int) (aadInput : Option Bytes) :
    (∃ e, o.admits aadInput = true ∧ o.engine.updateAad aadInput = .ok e ∧
        (o.call u (.updateAad aadInput)).2.2 = .ok none) ∨
      (¬ o.admits aadInput = true ∨ ∃ t, o.engine.updateAad aadInput = .error t) ∧
        ∃ t, (o.call u (.updateAad aadInput)).2.2 = .error t := by
  by_cases hadmits : o.admits aadInput = true
  · obtain ⟨hactive, hinput⟩ := checks_of_admits hadmits
    simp only [call, engineCall, SoftwareOperationBinder.call, SoftwareOperationBinder.updateAad, hactive,
      hinput]
    cases hengine : o.engine.updateAad aadInput with
    | ok e => exact .inl ⟨e, hadmits, rfl, rfl⟩
    | error t => exact .inr ⟨.inr ⟨t, rfl⟩, t, rfl⟩
  · refine .inr ⟨.inl hadmits, ?_⟩
    simp only [call, engineCall, SoftwareOperationBinder.call, SoftwareOperationBinder.updateAad]
    rcases checks_of_not_admits hadmits with ⟨t, hactive⟩ | ⟨hactive, t, hinput⟩
    · exact ⟨t, by rw [hactive]⟩
    · exact ⟨t, by rw [hactive, hinput]⟩

/-- One request: the engine has taken exactly the parts of requests that were not refused. -/
theorem took_converse (h : o.engine.Took v) (r : OperationRequest) :
    (converse (o, v) (u, r)).1.engine.Took (converse (o, v) (u, r)).2 := by
  show (o.engineAfter r).Took (v.add r (o.call u r).2.2)
  cases r with
  | update input =>
    rcases reply_update (o := o) u input with ⟨hadmits, hreply⟩ | ⟨hadmits, t, hreply⟩
    · rw [hreply, engineAfter, if_pos hadmits]
      exact h.update input
    · rw [hreply, engineAfter, if_neg hadmits]
      exact h
  | updateAad aadInput =>
    rcases reply_updateAad (o := o) u aadInput with ⟨e, hadmits, hengine, hreply⟩ | ⟨hrefused, t, hreply⟩
    · rw [hreply, engineAfter, if_pos hadmits, hengine]
      exact h.updateAad hengine
    · have hkept : o.engineAfter (.updateAad aadInput) = o.engine := by
        dsimp only [engineAfter]
        rcases hrefused with hadmits | ⟨t, hengine⟩
        · rw [if_neg hadmits]
        · rw [hengine]
          exact ite_self _
      rw [hreply, hkept]
      exact h
  | finish input signature => exact h
  | abort => exact h

theorem took_conversation (J : Providers) (binder : SoftwareOperationBinder)
    (rs : List (HashMap Key Int × OperationRequest)) :
    (conversation J binder rs).1.engine.Took (conversation J binder rs).2 :=
  Machine.run_invariant (I := fun s : SoftwareOperation J × Dialogue => s.1.engine.Took s.2)
    (fun _ r h => took_converse h r.2) (Engine.took_start J binder.engine)

/-- The engine stays the one that was set up. -/
theorem setup_conversation (J : Providers) (binder : SoftwareOperationBinder)
    (rs : List (HashMap Key Int × OperationRequest)) :
    (conversation J binder rs).1.engine.setup = binder.engine := by
  refine Machine.run_invariant (I := fun s : SoftwareOperation J × Dialogue =>
    s.1.engine.setup = binder.engine) ?_ rfl
  rintro ⟨o, v⟩ ⟨u, r⟩ h
  show (o.engineAfter r).setup = binder.engine
  unfold engineAfter
  cases r with
  | update input =>
    dsimp only
    split_ifs
    · exact (o.engine.update_setup input).trans h
    · exact h
  | updateAad aadInput =>
    dsimp only
    split_ifs
    · split
      · next hengine => exact (Engine.updateAad_setup hengine).trans h
      · exact h
    · exact h
  | finish => exact h
  | abort => exact h

/-- A `finish` that is allowed is answered with what the engine gives. -/
theorem reply_finish {input signature : Option Bytes} (hadmits : o.admits input = true)
    (huse : (o.binder.consumeUsage u).1 = true) :
    (o.call u (.finish input signature)).2.2 =
      SoftwareOperationBinder.finishOutcome (o.engine.finish input signature) := by
  obtain ⟨hactive, hinput⟩ := checks_of_admits hadmits
  simp only [call, engineCall, SoftwareOperationBinder.call, SoftwareOperationBinder.finish, hactive, hinput]
  split
  · next heq =>
    rw [heq] at huse
    cases huse
  · rfl

/-- What a `finish` returns was returned by the engine. -/
theorem finish_of_reply {input signature output : Option Bytes}
    (h : (o.call u (.finish input signature)).2.2 = .ok output) : o.engine.finish input signature = .ok output := by
  have houtcome : SoftwareOperationBinder.finishOutcome (o.engine.finish input signature) = .ok output := by
    simp only [call, engineCall, SoftwareOperationBinder.call, SoftwareOperationBinder.finish] at h
    split at h
    · cases h
    · cases h
    · split at h
      · cases h
      · exact h
  cases hengine : o.engine.finish input signature with
  | ok result =>
    rw [hengine] at houtcome
    exact houtcome
  | error t =>
    rw [hengine] at houtcome
    cases t <;> cases houtcome

end SoftwareOperation

/-! ## The result -/

theorem finishOutcome_error (t : Throwable) :
    ∃ errorCode message, SoftwareOperationBinder.finishOutcome (.error t) =
      .error (.serviceSpecific errorCode message) := by
  cases t with
  | serviceSpecific c m => exact ⟨c, m, rfl⟩
  | aeadBadTag => exact ⟨_, _, rfl⟩
  | other m => exact ⟨_, _, rfl⟩

/-- Where nothing was put out before, the last reply is the whole result. -/
theorem Dialogue.delivers_of_output_eq_nil {v : Dialogue} (h : v.output = [])
    (result : Except Throwable (Option Bytes)) :
    v.Delivers result (SoftwareOperationBinder.finishOutcome result) := by
  unfold Delivers
  cases result with
  | error t => exact finishOutcome_error t
  | ok output =>
    cases output with
    | none => rfl
    | some whole => exact ⟨whole, by rw [h, List.nil_append], rfl⟩

namespace Engine

/-- With the last part the client has what the engine gives for everything at once. -/
theorem Took.delivers {e : Engine J} {v : Dialogue} (hJ : J.MultiplePart) (h : e.Took v)
    (last signature : Option Bytes) :
    v.Delivers (atOnce J e.setup v.aad v.data last signature)
      (SoftwareOperationBinder.finishOutcome (e.finish last signature)) := by
  obtain ⟨setup, taken, cipher⟩ := e
  cases setup with
  | signature algorithm key verify =>
    obtain ⟨htaken, houtput⟩ := h
    have hfinish : finish ⟨.signature algorithm key verify, taken, cipher⟩ last signature =
        atOnce J (.signature algorithm key verify) v.aad v.data last signature := by
      obtain rfl : taken = v.data := htaken
      cases verify <;> rfl
    rw [hfinish]
    exact Dialogue.delivers_of_output_eq_nil houtput _
  | mac algorithm key verify =>
    obtain ⟨htaken, houtput⟩ := h
    have hfinish : finish ⟨.mac algorithm key verify, taken, cipher⟩ last signature =
        atOnce J (.mac algorithm key verify) v.aad v.data last signature := by
      obtain rfl : taken = v.data := htaken
      rfl
    rw [hfinish]
    exact Dialogue.delivers_of_output_eq_nil houtput _
  | keyAgreement algorithm key => exact Dialogue.delivers_of_output_eq_nil h _
  | cipher transformation encrypt key spec =>
    have hparts := hJ _ cipher v.aad v.data v.output (last.getD []) h
    unfold Dialogue.Delivers
    dsimp only [atOnce, finish]
    cases hsingle : J.single (.cipher transformation encrypt key spec) v.aad (v.data ++ last.getD []) with
    | error t =>
      rw [hsingle] at hparts
      obtain ⟨t', hfinal⟩ := hparts
      rw [hfinal]
      exact finishOutcome_error t'
    | ok whole =>
      rw [hsingle] at hparts
      obtain ⟨rest, hwhole, hfinal⟩ := hparts
      rw [hfinal]
      exact ⟨rest, hwhole, rfl⟩

end Engine

/-- However the data of an operation is split, whoever sends the parts, whatever else is asked in between and
refused, and however the usage counters change: with the reply to a `finish` that is allowed, the outputs of
all replies put together are what the engine gives for all parts that were not refused at once, and if that
fails the `finish` is refused. -/
theorem SoftwareOperation.result_of_parts (hJ : J.MultiplePart) (binder : SoftwareOperationBinder)
    (rs : List (HashMap Key Int × OperationRequest)) (u : HashMap Key Int) (input signature : Option Bytes)
    (hadmits : (conversation J binder rs).1.admits input = true)
    (huse : ((conversation J binder rs).1.binder.consumeUsage u).1 = true) :
    (conversation J binder rs).2.Delivers
      (Engine.atOnce J binder.engine (conversation J binder rs).2.aad (conversation J binder rs).2.data input
        signature)
      ((conversation J binder rs).1.call u (.finish input signature)).2.2 := by
  have htook := took_conversation J binder rs
  rw [reply_finish hadmits huse, ← setup_conversation J binder rs]
  exact htook.delivers hJ input signature

/-! ## A stream cipher -/

namespace Demo

/-- A cipher that changes every byte by itself and has no associated data, and a `Signature` that puts the
private key, the successor of the public one, before the data. -/
def streamProviders : Providers where
  sign := fun _ key data => .ok (key ++ data)
  verify := fun _ key data signature => .ok (signature = key.map (· + 1) ++ data)
  mac := fun _ _ data => .ok data
  agree := fun _ key peerKey => .ok (key ++ peerKey.getD [])
  Cipher := Unit
  cipher := fun _ => ()
  update := fun _ data => ((), some (data.map (255 - ·)))
  updateAAD := fun _ _ => .error (.other none)
  doFinal := fun _ data => .ok (data.map (255 - ·))

theorem taken_streamProviders {setup : OpEngine} {c : streamProviders.Cipher} {aad data output : Bytes}
    (h : streamProviders.Taken setup c aad data output) : aad = [] ∧ output = data.map (255 - ·) := by
  induction h with
  | start => exact ⟨rfl, rfl⟩
  | aad h hpart => cases hpart
  | data h ih => exact ⟨ih.1, by rw [ih.2, List.map_append]; rfl⟩

theorem multiplePart_streamProviders : streamProviders.MultiplePart := by
  intro setup c aad data output last h
  obtain ⟨rfl, rfl⟩ := taken_streamProviders h
  exact ⟨last.map (255 - ·), List.map_append, rfl⟩

/-- An operation that encrypts in the counter mode, of a key that may be used once. -/
def counterMode : SoftwareOperationBinder :=
  { engine := .cipher "AES/CTR/NoPadding" true (.secret ⟨"AES", [1]⟩) (some (.iv [2]))
    usageKey := some ⟨10001, "a"⟩, usageCountLimit := 1, origin := ⟨⟨10001, "a"⟩, 0⟩ }

/-- Two parts, and between them a `finish` that finds no use left. -/
def inParts : List (HashMap Key Int × OperationRequest) :=
  [(∅, .update (some [0, 1])), (AList.insert ⟨10001, "a"⟩ 0 ∅, .finish (some [9]) none), (∅, .update (some [2]))]

end Demo

open SoftwareOperation Demo in
theorem result_of_parts_counterMode :
    (conversation streamProviders counterMode inParts).2 = { aad := [], data := [0, 1, 2], output := [255, 254, 253] } ∧
      (conversation streamProviders counterMode inParts).2.Delivers (.ok (some [255, 254, 253, 252]))
        ((conversation streamProviders counterMode inParts).1.call ∅ (.finish (some [3]) none)).2.2 :=
  ⟨by decide,
    result_of_parts multiplePart_streamProviders counterMode inParts ∅ (some [3]) none (by decide) (by decide)⟩

end TrickyStore
