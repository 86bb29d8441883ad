import TrickyStore.Proof.Entries
import TrickyStore.Proof.GenerateKey

/-!
# Sequential runs

What holds before and after each hook of a request holds across the whole request; and a whole
request is a run of the interleaved model in which its post-hook follows at once.
-/

open Lib

namespace TrickyStore

/-- The key that the request names by alias. -/
def Exchange.namedKey (x : Exchange) : Option Key :=
  (x.request.keyDescriptor.bind KeyDescriptor.keyAlias).map fun a => ⟨x.uid, a⟩

theorem Exchange.isForwarded_eq_true {P : Platform} {x : Exchange} {d : Daemon} :
    x.isForwarded P d = true ↔ (x.preHook P d).2 = .Skip ∨ (x.preHook P d).2 = .Continue := by
  unfold isForwarded
  cases (x.preHook P d).2 <;> simp

namespace Exchange

variable {P : Platform} {x : Exchange} {request : Request} (d : Daemon)

theorem preHook_of_request (hx : x.request = request) :
    x.preHook P d = ((d.onPreTransact P x.preEnv x.uid request).1.tick,
      (d.onPreTransact P x.preEnv x.uid request).2) := by
  rw [preHook, hx]
  rfl

theorem postHook_of_request (hx : x.request = request) :
    x.postHook P d = ((d.onPostTransact P x.postEnv x.uid request x.resultCode x.reply).1.tick,
      (d.onPostTransact P x.postEnv x.uid request x.resultCode x.reply).2) := by
  rw [postHook, hx]
  rfl

theorem namedKey_of_request {a : String} (hx : x.request = request)
    (ha : request.keyDescriptor.bind KeyDescriptor.keyAlias = some a) :
    x.namedKey = some ⟨x.uid, a⟩ := by
  rw [namedKey, hx, ha]
  rfl

end Exchange

namespace Daemon

variable {P : Platform} {d d' : Daemon} {x : Exchange}

theorem serve_of_override {code : Int} {reply : LocalReply} {origin : Option Origin}
    (h : (x.preHook P d).2 = .OverrideReply code reply origin) :
    d.serve P x = ((x.preHook P d).1, .fromHook reply origin) := by
  unfold serve
  cases hx : x.preHook P d with
  | mk d₁ r =>
    rw [hx] at h
    obtain rfl := h
    rfl

theorem serve_of_skip (h : (x.preHook P d).2 = .Skip) :
    d.serve P x = ((x.preHook P d).1, .fromKeystore x.resultCode x.reply) := by
  unfold serve
  cases hx : x.preHook P d with
  | mk d₁ r =>
    rw [hx] at h
    obtain rfl := h
    rfl

theorem serve_of_continue (h : (x.preHook P d).2 = .Continue) :
    (d.serve P x).1 = (x.postHook P (x.preHook P d).1).1 := by
  unfold serve
  cases hx : x.preHook P d with
  | mk d₁ r =>
    rw [hx] at h
    obtain rfl := h
    dsimp only
    split <;> next h' => rw [h']

/-- A reply that the post-hook leaves alone is the real keystore's. -/
theorem serve_of_kept (h : (x.preHook P d).2 = .Continue)
    (hpost : (x.postHook P (x.preHook P d).1).2 = .Skip) :
    (d.serve P x).2 = .fromKeystore x.resultCode x.reply := by
  unfold serve
  cases hx : x.preHook P d with
  | mk d₁ r =>
    rw [hx] at h hpost
    obtain rfl := h
    dsimp only at hpost ⊢
    split
    · next h' =>
      rw [h'] at hpost
      cases hpost
    · rfl

/-- A reply that the post-hook replaces is the client's answer. -/
theorem serve_of_replaced {code : Int} {reply : LocalReply} {origin : Option Origin}
    (h : (x.preHook P d).2 = .Continue)
    (hpost : (x.postHook P (x.preHook P d).1).2 = .OverrideReply code reply origin) :
    (d.serve P x).2 = .fromHook reply origin := by
  unfold serve
  cases hx : x.preHook P d with
  | mk d₁ r =>
    rw [hx] at h hpost
    obtain rfl := h
    dsimp only at hpost ⊢
    cases hx' : x.postHook P d₁ with
    | mk d₂ r₂ =>
      rw [hx'] at hpost
      obtain rfl := hpost
      rfl

/-- The state after a request is that after its pre-hook or that after its post-hook. -/
theorem serve_fst :
    ((x.preHook P d).2 ≠ .Continue ∧ (d.serve P x).1 = (x.preHook P d).1) ∨
      ((x.preHook P d).2 = .Continue ∧
        (d.serve P x).1 = (x.postHook P (x.preHook P d).1).1) := by
  cases h : (x.preHook P d).2 with
  | Skip => exact .inl ⟨by simp, by rw [serve_of_skip h]⟩
  | OverrideReply => exact .inl ⟨by simp, by rw [serve_of_override h]⟩
  | Continue => exact .inr ⟨rfl, serve_of_continue h⟩

/-- What every hook preserves is preserved by a request. -/
theorem serve_invariant {I : Daemon → Prop} (h : I d)
    (pre : ∀ d, I d → I (x.preHook P d).1) (post : ∀ d, I d → I (x.postHook P d).1) :
    I (d.serve P x).1 := by
  rcases serve_fst (P := P) (d := d) (x := x) with ⟨-, hs⟩ | ⟨-, hs⟩
  · rw [hs]
    exact pre d h
  · rw [hs]
    exact post _ (pre d h)

/-- An answer that names an entry is the pre-hook's or the post-hook's. -/
theorem serve_origin {o : Origin} (h : (d.serve P x).2.origin = some o) :
    (x.preHook P d).2.origin = some o ∨
      ((x.preHook P d).2 = .Continue ∧ (x.postHook P (x.preHook P d).1).2.origin = some o) := by
  unfold serve at h
  split at h
  · next hx =>
    rw [hx]
    exact .inl h
  · cases h
  · next d₁ hx =>
    rw [hx]
    refine .inr ⟨rfl, ?_⟩
    split at h
    · next hx' =>
      rw [hx']
      exact h
    · cases h

theorem Timed.sequential {s : SequentialStep} (h : d.Timed) : (d.sequential P s).Timed := by
  cases s with
  | exchange x =>
    exact serve_invariant (I := Timed) h (fun d hd => hd.step (P := P) (.pre ..))
      fun d hd => hd.step (P := P) (.post ..)
  | targetChanged => exact h

end Daemon

/-- A request from its pre-hook to its post-hook, as a run of the interleaved model. -/
theorem World.run_serve (P : Platform) (w : World) (x : Exchange) (id : ℕ)
    (hid : w.inFlight.lookup id = none) :
    (w.run P [.arrive id x.uid x.request x.preEnv,
      .complete id x.resultCode x.reply x.postEnv]).daemon = (w.daemon.serve P x).1 := by
  have hid' : w.inFlight.containsKey id = false := HashMap.containsKey_eq_false.2 hid
  show ((w.arrive P id x.uid x.request x.preEnv).complete P id x.resultCode x.reply
    x.postEnv).daemon = _
  rw [World.arrive, hid']
  simp only [Bool.false_eq_true, if_false]
  cases h : (x.preHook P w.daemon).2 with
  | Skip =>
    rw [Daemon.serve_of_skip h]
    change (w.daemon.pre P x.preEnv x.uid x.request).2 = _ at h
    simp only [h, World.complete, World.withDaemon, hid]
    rfl
  | OverrideReply =>
    rw [Daemon.serve_of_override h]
    change (w.daemon.pre P x.preEnv x.uid x.request).2 = _ at h
    simp only [h, World.complete, World.withDaemon, hid]
    rfl
  | Continue =>
    rw [Daemon.serve_of_continue h]
    change (w.daemon.pre P x.preEnv x.uid x.request).2 = _ at h
    simp only [h, World.complete, AList.lookup_insert]
    rfl

namespace Demo

/-- The owner creates a key under the alias. -/
def creation (params : List KeyParameter) (reply : Option Parcel) : Exchange :=
  { uid := owner, request := generate params, preEnv := env 5, postEnv := env 6, reply := reply }

/-- The owner reads the alias, which the real keystore knows as the key 9. -/
def reading : Exchange :=
  { uid := owner, request := .getKeyEntry (some byAlias), preEnv := env 7, postEnv := env 8
    reply := some (entry 9 none) }

end Demo

end TrickyStore
