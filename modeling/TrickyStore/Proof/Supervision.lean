import Mathlib.Data.List.Nodup
import TrickyStore.Model.Supervision

/-!
# One daemon for each keystore process

Whatever becomes of the keystore process and of the daemons, no process is injected twice, and each daemon that
registers has had injected the process that it links to.  A process that dies between the two leaves its daemon
with nothing to wait for, and no daemon follows.
-/

open Lib

namespace TrickyStore

open BaseKeystoreInterceptor

namespace Device

variable {w w' : Device} {d : BaseKeystoreInterceptor} {pid : ℕ}

/-! ## What a step can do -/

/-- The steps of the device. -/
inductive Step (w : Device) : Device → Prop where
  | stays : Step w w
  | starts (h : w.keystore = none) :
    Step w { w with keystore := some { pid := w.nextPid }, nextPid := w.nextPid + 1 }
  | publishes : Step w { w with keystore := w.keystore.map fun k => { k with published := true } }
  | dies : Step w { w with keystore := none }
  | asks (d : BaseKeystoreInterceptor) (pid : ℕ) (hd : w.service = .running d) (hstage : d.stage = .getService) :
    Step w { w with service := .running { d with stage := .getBinderBackdoor pid } }
  | answered (d : BaseKeystoreInterceptor) (pid : ℕ) (hd : w.service = .running d)
    (hstage : d.stage = .getBinderBackdoor pid) (hhooked : w.Hooked pid) :
    Step w { w with service := .running { d with stage := .linkToDeath pid } }
  | retries (d : BaseKeystoreInterceptor) (pid : ℕ) (hd : w.service = .running d)
    (hstage : d.stage = .getBinderBackdoor pid) (htried : d.triedCount < maxRetries) (hinjected : d.injected = true) :
    Step w { w with service := .running { d with triedCount := d.triedCount + 1, stage := .getService } }
  | injects (d : BaseKeystoreInterceptor) (pid : ℕ) (hd : w.service = .running d)
    (hstage : d.stage = .getBinderBackdoor pid) (hinjected : d.injected = false) :
    Step w { w with service := .running { d with stage := .performInjection } }
  | attaches (d : BaseKeystoreInterceptor) (k : KeystoreProcess) (hd : w.service = .running d)
    (hstage : d.stage = .performInjection) (htarget : d.target = none) (hk : w.keystore = some k) :
    Step w { w with service := .running { d with target := some k.pid }, injections := w.injections ++ [k.pid] }
  | hooks (d : BaseKeystoreInterceptor) (k : KeystoreProcess) (hd : w.service = .running d)
    (hstage : d.stage = .performInjection) (hk : w.keystore = some k) (htarget : d.target = some k.pid) :
    Step w { w with keystore := some { k with hooked := true } }
  | injected (d : BaseKeystoreInterceptor) (hd : w.service = .running d) (hstage : d.stage = .performInjection)
    (htarget : d.target ≠ none) :
    Step w { w with
      service := .running { d with injected := true, triedCount := d.triedCount + 1, stage := .getService } }
  | links (d : BaseKeystoreInterceptor) (pid : ℕ) (hd : w.service = .running d)
    (hstage : d.stage = .linkToDeath pid) (halive : w.Alive pid) :
    Step w { w with service := .running { d with stage := .maintainService pid }, links := w.links ++ [pid] }
  | relieved (d : BaseKeystoreInterceptor) (pid : ℕ) (hd : w.service = .running d)
    (hstage : d.stage = .maintainService pid) (hdead : ¬ w.Alive pid) : Step w { w with service := .sleep }
  | ends : Step w { w with service := .ended }
  | restarts (hsleep : w.service = .sleep) : Step w { w with service := .running {} }

theorem daemonStep_step (e : DeviceEvent) (hd : w.service = .running d) : w.Step (w.daemonStep d e) := by
  unfold daemonStep
  split
  · split
    · next hstage =>
      split_ifs
      · exact .asks d _ hd hstage
      · exact .stays
    · exact .stays
  · split
    · next pid hstage =>
      split_ifs with hanswer
      · exact .answered d pid hd hstage hanswer.2
      · unfold handleMissingBackdoor
        split_ifs with htried hinjected
        · exact .ends
        · exact .retries d pid hd hstage (by omega) hinjected
        · exact .injects d pid hd hstage (by simpa using hinjected)
    · exact .stays
  · split
    · next k hstage htarget hk => exact .attaches d k hd hstage htarget hk
    · exact .stays
  · split
    · next k hstage hk =>
      split_ifs with htarget
      · exact .hooks d k hd hstage hk htarget
      · exact .stays
    · exact .stays
  · next status =>
    split
    · next hstage =>
      split_ifs with hfails
      · exact .stays
      · unfold injectionEnds
        split_ifs with hstatus
        · exact .injected d hd hstage fun htarget => hfails ⟨hstatus, htarget⟩
        · exact .ends
    · exact .stays
  · split
    · next pid hstage =>
      split_ifs with halive
      · exact .links d pid hd hstage halive
      · exact .ends
    · exact .stays
  · split
    · next pid hstage =>
      split_ifs with halive
      · exact .stays
      · exact .relieved d pid hd hstage halive
    · exact .stays
  · exact .ends
  · exact .stays

theorem next_step (w : Device) (e : DeviceEvent) : w.Step (w.next e) := by
  cases e with
  | keystoreStarts =>
    unfold next keystoreStep
    dsimp only
    split
    · next h => exact .starts h
    · exact .stays
  | keystorePublishes => exact .publishes
  | keystoreDies => exact .dies
  | restartDaemon =>
    unfold next
    dsimp only
    split
    · next h => exact .restarts h
    · exact .stays
  | _ =>
    -- what reaches the daemon
    unfold next
    dsimp only
    split
    · next d hd => exact daemonStep_step _ hd
    · exact .stays

/-! ## What holds after every run -/

/-- What a daemon that runs has done: of the processes that are there it can only have had its target injected,
and all that were linked to before it were injected before it. -/
structure Attends (w : Device) (d : BaseKeystoreInterceptor) : Prop where
  alive : ∀ k, w.keystore = some k → k.pid ∈ w.injections → d.target = some k.pid
  before : (∀ pid, d.stage ≠ .maintainService pid) →
    ∃ before, w.injections = before ++ d.target.toList ∧ w.links.Sublist before
  untouched : d.target = none → d.injected = false ∧ d.triedCount = 0
  injected : d.target ≠ none → d.stage ≠ .performInjection → d.injected = true
  linking : ∀ pid, d.stage = .linkToDeath pid → d.target = some pid ∧ (w.Alive pid → w.Hooked pid)
  linked : ∀ pid, d.stage = .maintainService pid → d.target = some pid

/-- The script lets no daemon run that an injected process is left to. -/
def Served (w : Device) : Prop :=
  match w.service with
  | .running d => w.Attends d
  | .sleep => ∀ k, w.keystore = some k → k.pid ∉ w.injections
  | .ended => True

structure Consistent (w : Device) : Prop where
  injections_lt : ∀ pid ∈ w.injections, pid < w.nextPid
  keystore_lt : ∀ k, w.keystore = some k → k.pid < w.nextPid
  nodup : w.injections.Nodup
  links : w.links.Sublist w.injections
  hooked : ∀ k, w.keystore = some k → k.hooked = true → k.pid ∈ w.injections
  served : w.Served

theorem consistent_initial : ({} : Device).Consistent where
  injections_lt := by simp
  keystore_lt := by simp
  nodup := List.nodup_nil
  links := List.Sublist.refl _
  hooked := by simp
  served := by
    refine ⟨by simp, fun _ => ⟨[], rfl, List.Sublist.refl _⟩, fun _ => ⟨rfl, rfl⟩, fun h => absurd rfl h, ?_, ?_⟩
    · rintro pid ⟨⟩
    · rintro pid ⟨⟩

/-- A daemon in another stage that is neither linked nor about to link attends as before. -/
theorem Attends.restage {d' : BaseKeystoreInterceptor} (h : w.Attends d) (htarget : d'.target = d.target)
    (hkeystore : w'.keystore = w.keystore) (hinjections : w'.injections = w.injections) (hlinks : w'.links = w.links)
    (hold : ∀ pid, d.stage ≠ .maintainService pid) (hlinking : ∀ pid, d'.stage ≠ .linkToDeath pid)
    (hlinked : ∀ pid, d'.stage ≠ .maintainService pid)
    (huntouched : d'.target = none → d'.injected = false ∧ d'.triedCount = 0)
    (hinjected : d'.target ≠ none → d'.stage ≠ .performInjection → d'.injected = true) : w'.Attends d' where
  alive := by
    rw [hkeystore, hinjections, htarget]
    exact h.alive
  before _ := by
    rw [hinjections, hlinks, htarget]
    exact h.before hold
  untouched := huntouched
  injected := hinjected
  linking pid hpid := absurd hpid (hlinking pid)
  linked pid hpid := absurd hpid (hlinked pid)

theorem Consistent.attends (h : w.Consistent) (hd : w.service = .running d) : w.Attends d := by
  have hserved := h.served
  rw [Served, hd] at hserved
  exact hserved

/-- The processes that are known stay as they are. -/
theorem Consistent.reserve {service : ServiceScript} (h : w.Consistent)
    (hserved : Served { w with service := service }) : Consistent { w with service := service } :=
  ⟨h.injections_lt, h.keystore_lt, h.nodup, h.links, h.hooked, hserved⟩

theorem Consistent.restage {d' : BaseKeystoreInterceptor} (h : w.Consistent) (hd : w.service = .running d)
    (htarget : d'.target = d.target) (hold : ∀ pid, d.stage ≠ .maintainService pid)
    (hlinking : ∀ pid, d'.stage ≠ .linkToDeath pid) (hlinked : ∀ pid, d'.stage ≠ .maintainService pid)
    (huntouched : d'.target = none → d'.injected = false ∧ d'.triedCount = 0)
    (hinjected : d'.target ≠ none → d'.stage ≠ .performInjection → d'.injected = true) :
    Consistent { w with service := .running d' } :=
  h.reserve ((h.attends hd).restage htarget rfl rfl rfl hold hlinking hlinked huntouched hinjected)

/-- A keystore process that starts, goes, or has its service published or its binder hooked. -/
theorem Consistent.rekeystore {keystore : Option KeystoreProcess} {nextPid : ℕ} (h : w.Consistent)
    (hnext : w.nextPid ≤ nextPid) (hlt : ∀ k, keystore = some k → k.pid < nextPid)
    (hinjected : ∀ k, keystore = some k → k.pid ∈ w.injections → ∃ k', w.keystore = some k' ∧ k'.pid = k.pid)
    (hhooked : ∀ k, keystore = some k → k.hooked = true → k.pid ∈ w.injections)
    (hstays : ∀ pid, w.Hooked pid → Alive { w with keystore := keystore } pid →
      Hooked { w with keystore := keystore } pid)
    (halive : ∀ pid ∈ w.injections, Alive { w with keystore := keystore } pid → w.Alive pid) :
    Consistent { w with keystore := keystore, nextPid := nextPid } where
  injections_lt pid hpid := Nat.lt_of_lt_of_le (h.injections_lt pid hpid) hnext
  keystore_lt := hlt
  nodup := h.nodup
  links := h.links
  hooked := hhooked
  served := by
    have hserved := h.served
    unfold Served at hserved ⊢
    dsimp only
    split at hserved
    · next d hd =>
      refine ⟨fun k hk hpid => ?_, hserved.before, hserved.untouched, hserved.injected, fun pid hpid => ?_,
        hserved.linked⟩
      · obtain ⟨k', hk', hsame⟩ := hinjected k hk hpid
        rw [← hsame]
        exact hserved.alive k' hk' (hsame ▸ hpid)
      · obtain ⟨htarget, hhook⟩ := hserved.linking pid hpid
        refine ⟨htarget, fun hpresent => hstays pid (hhook (halive pid ?_ hpresent)) hpresent⟩
        obtain ⟨before, hbefore, -⟩ := hserved.before (by simp [hpid])
        simp [hbefore, htarget]
    · intro k hk hpid
      obtain ⟨k', hk', hsame⟩ := hinjected k hk hpid
      exact hserved k' hk' (hsame ▸ hpid)
    · trivial

theorem Consistent.step (h : w.Consistent) (hstep : w.Step w') : w'.Consistent := by
  cases hstep with
  | stays => exact h
  | starts hnone =>
    have hfresh : w.nextPid ∉ w.injections := fun hmem => Nat.lt_irrefl _ (h.injections_lt _ hmem)
    refine h.rekeystore (Nat.le_succ _) ?_ ?_ ?_ ?_ ?_
    · rintro k ⟨⟩
      exact Nat.lt_succ_self _
    · rintro k ⟨⟩ hmem
      exact absurd hmem hfresh
    · rintro k ⟨⟩ ⟨⟩
    · rintro pid ⟨k, hk, -⟩
      rw [hnone] at hk
      cases hk
    · rintro pid hmem ⟨k, ⟨⟩, rfl⟩
      exact absurd hmem hfresh
  | publishes =>
    have hmap {k : KeystoreProcess} (hk : w.keystore.map (fun k => { k with published := true }) = some k) :
        ∃ k', w.keystore = some k' ∧ k'.pid = k.pid ∧ k'.hooked = k.hooked := by
      obtain ⟨k', hk', rfl⟩ := Option.map_eq_some_iff.1 hk
      exact ⟨k', hk', rfl, rfl⟩
    refine h.rekeystore (Nat.le_refl _) ?_ ?_ ?_ ?_ ?_
    · intro k hk
      obtain ⟨k', hk', hpid, -⟩ := hmap hk
      exact hpid ▸ h.keystore_lt k' hk'
    · intro k hk _
      obtain ⟨k', hk', hpid, -⟩ := hmap hk
      exact ⟨k', hk', hpid⟩
    · intro k hk hhooked
      obtain ⟨k', hk', hpid, hsame⟩ := hmap hk
      exact hpid ▸ h.hooked k' hk' (hsame.trans hhooked)
    · rintro pid ⟨k, hk, hpid, hhooked⟩ -
      exact ⟨{ k with published := true }, by simp [hk], hpid, hhooked⟩
    · rintro pid - ⟨k, hk, rfl⟩
      obtain ⟨k', hk', hpid, -⟩ := hmap hk
      exact ⟨k', hk', hpid⟩
  | dies =>
    refine h.rekeystore (Nat.le_refl _) ?_ ?_ ?_ ?_ ?_
    · rintro k ⟨⟩
    · rintro k ⟨⟩
    · rintro k ⟨⟩
    · rintro pid - ⟨k, ⟨⟩, -⟩
    · rintro pid - ⟨k, ⟨⟩, -⟩
  | asks d pid hd hstage =>
    have hattends := h.attends hd
    refine h.restage hd rfl (by simp [hstage]) (by simp) (by simp) hattends.untouched fun htarget _ => ?_
    exact hattends.injected htarget (by simp [hstage])
  | answered d pid hd hstage hhooked =>
    have hattends := h.attends hd
    obtain ⟨k, hk, rfl, hhook⟩ := id hhooked
    have htarget := hattends.alive k hk (h.hooked k hk hhook)
    refine h.reserve ⟨hattends.alive, fun _ => hattends.before (by simp [hstage]), hattends.untouched, ?_, ?_, ?_⟩
    · exact fun htarget _ => hattends.injected htarget (by simp [hstage])
    · rintro pid ⟨⟩
      exact ⟨htarget, fun _ => hhooked⟩
    · rintro pid ⟨⟩
  | retries d pid hd hstage htried hinjected =>
    have hattends := h.attends hd
    refine h.restage hd rfl (by simp [hstage]) (by simp) (by simp) (fun htarget => ?_) fun _ _ => hinjected
    rw [(hattends.untouched htarget).1] at hinjected
    cases hinjected
  | injects d pid hd hstage hinjected =>
    have hattends := h.attends hd
    exact h.restage hd rfl (by simp [hstage]) (by simp) (by simp) hattends.untouched fun _ hne => absurd rfl hne
  | attaches d k hd hstage htarget hk =>
    have hattends := h.attends hd
    have hfresh : k.pid ∉ w.injections := by
      intro hmem
      have hsome := hattends.alive k hk hmem
      rw [htarget] at hsome
      cases hsome
    refine ⟨?_, h.keystore_lt, ?_, ?_, ?_, ?_, ?_, ?_, ?_, ?_, ?_⟩
    · intro pid hpid
      rcases List.mem_append.1 hpid with hpid | hpid
      · exact h.injections_lt pid hpid
      · rw [List.mem_singleton.1 hpid]
        exact h.keystore_lt k hk
    · exact List.nodup_append.2 ⟨h.nodup, List.nodup_singleton _, fun a ha b hb hab => hfresh
        (List.mem_singleton.1 hb ▸ hab ▸ ha)⟩
    · exact h.links.trans (List.sublist_append_left _ _)
    · exact fun k' hk' hhook => List.mem_append_left _ (h.hooked k' hk' hhook)
    · intro k' hk' _
      cases hk.symm.trans hk'
      rfl
    · exact fun _ => ⟨w.injections, rfl, h.links⟩
    · rintro ⟨⟩
    · exact fun _ hne => absurd hstage hne
    · intro pid hpid
      cases hstage.symm.trans hpid
    · intro pid hpid
      cases hstage.symm.trans hpid
  | hooks d k hd hstage hk htarget =>
    have hmem : k.pid ∈ w.injections := by
      obtain ⟨before, hbefore, -⟩ := (h.attends hd).before (by simp [hstage])
      simp [hbefore, htarget]
    refine h.rekeystore (Nat.le_refl _) ?_ ?_ ?_ ?_ ?_
    · rintro k' ⟨⟩
      exact h.keystore_lt k hk
    · rintro k' ⟨⟩ _
      exact ⟨k, hk, rfl⟩
    · rintro k' ⟨⟩ _
      exact hmem
    · rintro pid - ⟨k', ⟨⟩, rfl⟩
      exact ⟨_, rfl, rfl, rfl⟩
    · rintro pid - ⟨k', ⟨⟩, rfl⟩
      exact ⟨k, hk, rfl⟩
  | injected d hd hstage htarget =>
    exact h.restage hd rfl (by simp [hstage]) (by simp) (by simp) (fun hnone => absurd hnone htarget) fun _ _ => rfl
  | links d pid hd hstage halive =>
    have hattends := h.attends hd
    obtain ⟨htarget, -⟩ := hattends.linking pid hstage
    obtain ⟨before, hbefore, hlinks⟩ := hattends.before (by simp [hstage])
    refine ⟨h.injections_lt, h.keystore_lt, h.nodup, ?_, h.hooked, hattends.alive, ?_, hattends.untouched, ?_, ?_,
      ?_⟩
    · rw [hbefore, htarget]
      exact hlinks.append_right _
    · exact fun hne => absurd rfl (hne pid)
    · exact fun hsome _ => hattends.injected hsome (by simp [hstage])
    · rintro pid' ⟨⟩
    · rintro pid' ⟨⟩
      exact htarget
  | relieved d pid hd hstage hdead =>
    have hattends := h.attends hd
    refine h.reserve fun k hk hmem => hdead ⟨k, hk, ?_⟩
    exact Option.some.inj ((hattends.alive k hk hmem).symm.trans (hattends.linked pid hstage))
  | ends => exact h.reserve trivial
  | restarts hsleep =>
    have hserved := h.served
    rw [Served, hsleep] at hserved
    refine h.reserve ⟨fun k hk hmem => absurd hmem (hserved k hk), fun _ => ⟨w.injections, by simp, h.links⟩,
      fun _ => ⟨rfl, rfl⟩, fun hne => absurd rfl hne, ?_, ?_⟩
    · rintro pid ⟨⟩
    · rintro pid ⟨⟩

theorem consistent_run (es : List DeviceEvent) : (run {} es).Consistent :=
  Machine.run_invariant (fun w e h => Consistent.step h (w.next_step e)) consistent_initial

/-- Whatever the keystore and the daemons go through, no keystore process is injected twice, the processes that
daemons have linked to are among the injected ones in their order, so that no two daemons link to one process,
and a linked daemon had its process injected itself. -/
theorem injected_and_linked_once (es : List DeviceEvent) :
    (run {} es).injections.Nodup ∧ (run {} es).links.Sublist (run {} es).injections ∧
      ∀ d pid, (run {} es).service = .running d → d.stage = .maintainService pid → d.target = some pid :=
  ⟨(consistent_run es).nodup, (consistent_run es).links, fun _ pid hd => ((consistent_run es).attends hd).linked pid⟩

/-! ## What is given up -/

/-- The daemon may still link to a process: to the one that it has had injected, or to one that it has yet to
find. -/
def Linkable (w : Device) (d : BaseKeystoreInterceptor) : Prop :=
  ∀ pid, d.target = some pid → w.Alive pid ∧ (w.Hooked pid ∨ d.stage = .performInjection) ∧
    ∀ service, d.stage = .getBinderBackdoor service → service = pid ∨ d.triedCount < maxRetries

/-- The script has a daemon to start, or one runs that is linked or may still link. -/
def Recoverable (w : Device) : Prop :=
  match w.service with
  | .running d => (∃ pid, d.stage = .maintainService pid) ∨ w.Linkable d
  | .sleep => True
  | .ended => False

theorem recoverable_running (hd : w.service = .running d) :
    w.Recoverable ↔ (∃ pid, d.stage = .maintainService pid) ∨ w.Linkable d := by
  unfold Recoverable
  rw [hd]

theorem not_recoverable_ended : ¬ Recoverable { w with service := .ended } := id

theorem Alive.of_hooked (h : w.Hooked pid) : w.Alive pid := by
  obtain ⟨k, hk, hpid, -⟩ := h
  exact ⟨k, hk, hpid⟩

/-- A step of the keystore gives no daemon back what it has lost. -/
theorem not_recoverable_rekeystore {keystore : Option KeystoreProcess} {nextPid : ℕ} (h : ¬ w.Recoverable)
    (hback : ∀ d pid, w.service = .running d → d.target = some pid → Alive { w with keystore := keystore } pid →
      w.Alive pid ∧ (Hooked { w with keystore := keystore } pid → w.Hooked pid ∨ d.stage = .performInjection)) :
    ¬ Recoverable { w with keystore := keystore, nextPid := nextPid } := by
  unfold Recoverable at h ⊢
  dsimp only
  split at h
  · next d hd =>
    rintro (hlinked | hlinkable)
    · exact h (.inl hlinked)
    · refine h (.inr fun pid hpid => ?_)
      obtain ⟨halive, hhook, htries⟩ := hlinkable pid hpid
      obtain ⟨hthere, hhooked⟩ := hback d pid hd hpid halive
      exact ⟨hthere, hhook.elim hhooked .inr, htries⟩
  · exact absurd trivial h
  · exact id

/-- Once nothing can be linked to, nothing ever is. -/
theorem Consistent.not_recoverable_step (hw : w.Consistent) (h : ¬ w.Recoverable) (hstep : w.Step w') :
    ¬ w'.Recoverable ∧ w'.links = w.links := by
  have hlost {d : BaseKeystoreInterceptor} (hd : w.service = .running d) : ¬ w.Linkable d := fun hlinkable =>
    h ((recoverable_running hd).2 (.inr hlinkable))
  -- a daemon that has lost its target has one, and goes on without it
  have hrestage {d d' : BaseKeystoreInterceptor} (hd : w.service = .running d)
      (hstage : ∀ pid, d'.stage ≠ .maintainService pid)
      (hback : Linkable { w with service := .running d' } d' → w.Linkable d) :
      ¬ Recoverable { w with service := .running d' } := by
    rw [recoverable_running rfl]
    rintro (⟨pid, hpid⟩ | hlinkable)
    · exact hstage pid hpid
    · exact hlost hd (hback hlinkable)
  cases hstep with
  | stays => exact ⟨h, rfl⟩
  | starts hnone =>
    refine ⟨not_recoverable_rekeystore h ?_, rfl⟩
    rintro d pid hd hpid ⟨k, ⟨⟩, rfl⟩
    obtain ⟨before, hbefore, -⟩ | ⟨pid, hlinked⟩ : (∃ before, w.injections = before ++ d.target.toList ∧
        w.links.Sublist before) ∨ ∃ pid, d.stage = .maintainService pid := by
      by_cases hlinked : ∃ pid, d.stage = .maintainService pid
      · exact .inr hlinked
      · exact .inl ((hw.attends hd).before fun pid hpid => hlinked ⟨pid, hpid⟩)
    · have hmem : w.nextPid ∈ w.injections := by simp [hbefore, hpid]
      exact absurd (hw.injections_lt _ hmem) (Nat.lt_irrefl _)
    · exact absurd ((recoverable_running hd).2 (.inl ⟨pid, hlinked⟩)) h
  | publishes =>
    refine ⟨not_recoverable_rekeystore h ?_, rfl⟩
    intro d pid hd hpid halive
    have hback {p : KeystoreProcess → Prop} (hp : ∀ k, p { k with published := true } → p k)
        (hex : ∃ k, w.keystore.map (fun k => { k with published := true }) = some k ∧ p k) :
        ∃ k, w.keystore = some k ∧ p k := by
      obtain ⟨k, hk, hpk⟩ := hex
      obtain ⟨k', hk', rfl⟩ := Option.map_eq_some_iff.1 hk
      exact ⟨k', hk', hp k' hpk⟩
    exact ⟨hback (fun _ => id) halive, fun hhooked => .inl (hback (fun _ => id) hhooked)⟩
  | dies =>
    refine ⟨not_recoverable_rekeystore h ?_, rfl⟩
    rintro d pid hd hpid ⟨k, ⟨⟩, -⟩
  | asks d pid hd hstage =>
    refine ⟨hrestage hd (by simp) fun hlinkable pid' hpid' => ?_, rfl⟩
    obtain ⟨halive, hhook, -⟩ := hlinkable pid' hpid'
    exact ⟨halive, .inl (hhook.resolve_right (by simp)), by simp [hstage]⟩
  | answered d pid hd hstage hhooked =>
    obtain ⟨k, hk, rfl, hhook⟩ := id hhooked
    have htarget := (hw.attends hd).alive k hk (hw.hooked k hk hhook)
    refine absurd (fun pid hpid => ?_) (hlost hd)
    cases htarget.symm.trans hpid
    refine ⟨.of_hooked hhooked, .inl hhooked, fun service hservice => .inl ?_⟩
    cases hstage.symm.trans hservice
    rfl
  | retries d pid hd hstage htried hinjected =>
    refine ⟨hrestage hd (by simp) fun hlinkable pid' hpid' => ?_, rfl⟩
    obtain ⟨halive, hhook, -⟩ := hlinkable pid' hpid'
    exact ⟨halive, .inl (hhook.resolve_right (by simp)), fun _ _ => .inr htried⟩
  | injects d pid hd hstage hinjected =>
    refine absurd (fun pid' hpid' => ?_) (hlost hd)
    have htrue := (hw.attends hd).injected (by simp [hpid']) (by simp [hstage])
    rw [hinjected] at htrue
    cases htrue
  | attaches d k hd hstage htarget hk =>
    refine absurd (fun pid hpid => ?_) (hlost hd)
    rw [htarget] at hpid
    cases hpid
  | hooks d k hd hstage hk htarget =>
    refine absurd (fun pid hpid => ?_) (hlost hd)
    cases htarget.symm.trans hpid
    exact ⟨⟨k, hk, rfl⟩, .inr hstage, by simp [hstage]⟩
  | injected d hd hstage htarget =>
    refine ⟨hrestage hd (by simp) fun hlinkable pid hpid => ?_, rfl⟩
    obtain ⟨halive, -⟩ := hlinkable pid hpid
    exact ⟨halive, .inr hstage, by simp [hstage]⟩
  | links d pid hd hstage halive =>
    obtain ⟨htarget, hhook⟩ := (hw.attends hd).linking pid hstage
    refine absurd (fun pid' hpid' => ?_) (hlost hd)
    cases htarget.symm.trans hpid'
    exact ⟨halive, .inl (hhook halive), by simp [hstage]⟩
  | relieved d pid hd hstage hdead => exact absurd ((recoverable_running hd).2 (.inl ⟨pid, hstage⟩)) h
  | ends => exact ⟨not_recoverable_ended, rfl⟩
  | restarts hsleep =>
    refine absurd ?_ h
    unfold Recoverable
    rw [hsleep]
    trivial

theorem Consistent.links_run (hw : w.Consistent) (h : ¬ w.Recoverable) (es : List DeviceEvent) :
    (w.run es).links = w.links := by
  have hkept : (w.run es).Consistent ∧ ¬ (w.run es).Recoverable ∧ (w.run es).links = w.links := by
    refine Machine.run_invariant (I := fun v : Device => v.Consistent ∧ ¬ v.Recoverable ∧ v.links = w.links)
      ?_ ⟨hw, h, rfl⟩
    intro v e hv
    obtain ⟨hlost, hlinks⟩ := hv.1.not_recoverable_step hv.2.1 (v.next_step e)
    exact ⟨hv.1.step (v.next_step e), hlost, hlinks.trans hv.2.2⟩
  exact hkept.2.2

/-! ## What can still be done -/

/-- Some steps of the device end with another link. -/
def Links (w : Device) : Prop := ∃ es, (w.run es).links ≠ w.links

theorem Links.of_next (e : DeviceEvent) (h : (w.next e).Links) (hlinks : (w.next e).links = w.links) :
    w.Links := by
  obtain ⟨es, hes⟩ := h
  refine ⟨e :: es, ?_⟩
  rw [← hlinks]
  exact hes

theorem links_of_linkToDeath (hd : w.service = .running d) (hstage : d.stage = .linkToDeath pid)
    (halive : w.Alive pid) : w.Links := by
  refine ⟨[.linkToDeath], ?_⟩
  simp [run, next, daemonStep, hd, hstage, halive]

theorem links_of_getBinderBackdoor (hd : w.service = .running d) (hstage : d.stage = .getBinderBackdoor pid)
    (hhooked : w.Hooked pid) : w.Links := by
  have hnext : w.next (.getBinderBackdoor true) =
      { w with service := .running { d with stage := .linkToDeath pid } } := by
    simp [next, daemonStep, hd, hstage, hhooked]
  refine .of_next (.getBinderBackdoor true) ?_ (by rw [hnext])
  rw [hnext]
  exact links_of_linkToDeath rfl rfl (.of_hooked hhooked)

theorem next_getService (hd : w.service = .running d) (hstage : d.stage = .getService) (hknown : w.Known pid) :
    w.next (.getService (some pid)) = { w with service := .running { d with stage := .getBinderBackdoor pid } } := by
  simp [next, daemonStep, hd, hstage, hknown]

theorem next_binderDied (hd : w.service = .running d) (hstage : d.stage = .maintainService pid)
    (hdead : ¬ w.Alive pid) : w.next .binderDied = { w with service := .sleep } := by
  simp [next, daemonStep, hd, hstage, hdead, ServiceScript.exitProcess]

/-- The service is published, and asked for. -/
theorem links_of_getService (hw : w.Consistent) (hd : w.service = .running d) (hstage : d.stage = .getService)
    {k : KeystoreProcess} (hk : w.keystore = some k)
    (h : ∀ v : Device, v.Consistent → v.keystore = some { k with published := true } →
      v.service = .running { d with stage := .getBinderBackdoor k.pid } → v.Links) : w.Links := by
  have hpublished := hw.step (w.next_step .keystorePublishes)
  have hnext : w.next .keystorePublishes = { w with keystore := some { k with published := true } } := by
    simp [next, keystoreStep, hk]
  refine .of_next .keystorePublishes ?_ (by rw [hnext])
  rw [hnext] at hpublished ⊢
  have hknown : Known { w with keystore := some { k with published := true } } k.pid := by
    refine ⟨hw.keystore_lt k hk, ?_⟩
    rintro k' ⟨⟩ -
    rfl
  have hasks := next_getService (w := { w with keystore := some { k with published := true } }) hd hstage hknown
  refine .of_next (.getService (some k.pid)) ?_ (by rw [hasks])
  have hasked := hpublished.step (next_step _ (.getService (some k.pid)))
  rw [hasks] at hasked ⊢
  exact h _ hasked rfl rfl

theorem links_of_hooked (hw : w.Consistent) (hd : w.service = .running d) (hstage : d.stage = .getService)
    (hhooked : w.Hooked pid) : w.Links := by
  obtain ⟨k, hk, rfl, hhook⟩ := hhooked
  refine links_of_getService hw hd hstage hk fun v _ hv hservice => ?_
  exact links_of_getBinderBackdoor hservice rfl ⟨_, hv, rfl, hhook⟩

/-- The target is hooked, and the command succeeds. -/
theorem links_of_attached (hw : w.Consistent) (hd : w.service = .running d) (hstage : d.stage = .performInjection)
    (htarget : d.target = some pid) (halive : w.Alive pid) : w.Links := by
  obtain ⟨k, hk, rfl⟩ := halive
  have hhook : w.next .hook = { w with keystore := some { k with hooked := true } } := by
    simp [next, daemonStep, hd, hstage, hk, htarget]
  have hhooked := hw.step (w.next_step .hook)
  refine .of_next .hook ?_ (by rw [hhook])
  rw [hhook] at hhooked ⊢
  have hends : next { w with keystore := some { k with hooked := true } } (.injectionEnds 0) =
      { w with keystore := some { k with hooked := true }
               service := .running
                { d with injected := true, triedCount := d.triedCount + 1, stage := .getService } } := by
    simp [next, daemonStep, BaseKeystoreInterceptor.injectionEnds, hd, hstage, htarget]
  have hended := hhooked.step (next_step _ (.injectionEnds 0))
  refine .of_next (.injectionEnds 0) ?_ (by rw [hends])
  rw [hends] at hended ⊢
  exact links_of_hooked hended rfl rfl ⟨{ k with hooked := true }, rfl, rfl, rfl⟩

/-- There is a keystore process, or one starts. -/
theorem links_of_keystore (hw : w.Consistent) (h : ∀ v : Device, v.Consistent → v.service = w.service →
    ∀ k, v.keystore = some k → v.Links) : w.Links := by
  cases hk : w.keystore with
  | some k => exact h w hw rfl k hk
  | none =>
    have hstarts : w.next .keystoreStarts =
        { w with keystore := some { pid := w.nextPid }, nextPid := w.nextPid + 1 } := by
      simp [next, keystoreStep, hk]
    have hstarted := hw.step (w.next_step .keystoreStarts)
    refine .of_next .keystoreStarts ?_ (by rw [hstarts])
    rw [hstarts] at hstarted ⊢
    exact h _ hstarted rfl _ rfl

theorem links_of_performInjection (hw : w.Consistent) (hd : w.service = .running d)
    (hstage : d.stage = .performInjection) (htarget : d.target = none) : w.Links := by
  refine links_of_keystore hw fun v hv hservice k hk => ?_
  rw [hd] at hservice
  have hattach : v.next .attach =
      { v with service := .running { d with target := some k.pid }, injections := v.injections ++ [k.pid] } := by
    simp [next, daemonStep, hservice, hstage, htarget, hk]
  have hattached := hv.step (v.next_step .attach)
  refine .of_next .attach ?_ (by rw [hattach])
  rw [hattach] at hattached ⊢
  exact links_of_attached hattached rfl hstage rfl ⟨k, hk, rfl⟩

/-- The backdoor is missing for the first time. -/
theorem links_of_missing (hw : w.Consistent) (hd : w.service = .running d)
    (hstage : d.stage = .getBinderBackdoor pid) (htarget : d.target = none) : w.Links := by
  obtain ⟨hinjected, htried⟩ := (hw.attends hd).untouched htarget
  have hmisses : w.next (.getBinderBackdoor false) =
      { w with service := .running { d with stage := .performInjection } } := by
    simp [next, daemonStep, hd, hstage, handleMissingBackdoor, hinjected, htried, maxRetries]
  have hmissed := hw.step (w.next_step (.getBinderBackdoor false))
  refine .of_next (.getBinderBackdoor false) ?_ (by rw [hmisses])
  rw [hmisses] at hmissed ⊢
  exact links_of_performInjection hmissed rfl rfl htarget

theorem links_of_untouched (hw : w.Consistent) (hd : w.service = .running d) (hstage : d.stage = .getService)
    (htarget : d.target = none) : w.Links := by
  refine links_of_keystore hw fun v hv hservice k hk => ?_
  refine links_of_getService hv (hservice.trans hd) hstage hk fun v' hv' _ hservice' => ?_
  exact links_of_missing hv' hservice' rfl htarget

theorem links_of_sleep (hw : w.Consistent) (hsleep : w.service = .sleep) : w.Links := by
  have hrestarts : w.next .restartDaemon = { w with service := .running {} } := by simp [next, hsleep]
  have hrestarted := hw.step (w.next_step .restartDaemon)
  refine .of_next .restartDaemon ?_ (by rw [hrestarts])
  rw [hrestarts] at hrestarted ⊢
  exact links_of_untouched hrestarted rfl rfl rfl

theorem links_of_maintainService (hw : w.Consistent) (hd : w.service = .running d)
    (hstage : d.stage = .maintainService pid) : w.Links := by
  have hdied := hw.step (w.next_step .keystoreDies)
  refine .of_next .keystoreDies ?_ rfl
  have hdead : ¬ Alive { w with keystore := none } pid := by
    rintro ⟨k, ⟨⟩, -⟩
  have hrelieves : next (w.next .keystoreDies) .binderDied = { w with keystore := none, service := .sleep } :=
    next_binderDied (w := { w with keystore := none }) hd hstage hdead
  have hrelieved := hdied.step (next_step _ .binderDied)
  refine .of_next .binderDied ?_ (by rw [hrelieves]; rfl)
  rw [hrelieves] at hrelieved ⊢
  exact links_of_sleep hrelieved rfl

/-- The backdoor is asked for at a process that is gone, while the target is hooked. -/
theorem links_of_retry (hw : w.Consistent) (hd : w.service = .running d) {service : ℕ}
    (hstage : d.stage = .getBinderBackdoor service) (htried : d.triedCount < maxRetries) (htarget : d.target ≠ none)
    (hhooked : w.Hooked pid) : w.Links := by
  have hinjected := (hw.attends hd).injected htarget (by simp [hstage])
  have hmisses : w.next (.getBinderBackdoor false) =
      { w with service := .running { d with triedCount := d.triedCount + 1, stage := .getService } } := by
    simp [next, daemonStep, hd, hstage, handleMissingBackdoor, hinjected, Nat.not_le.2 htried]
  have hmissed := hw.step (w.next_step (.getBinderBackdoor false))
  refine .of_next (.getBinderBackdoor false) ?_ (by rw [hmisses])
  rw [hmisses] at hmissed ⊢
  exact links_of_hooked hmissed rfl rfl hhooked

theorem Consistent.links_of_recoverable (hw : w.Consistent) (h : w.Recoverable) : w.Links := by
  cases hd : w.service with
  | ended =>
    rw [Recoverable, hd] at h
    exact h.elim
  | sleep => exact links_of_sleep hw hd
  | running d =>
    have hattends := hw.attends hd
    rcases (recoverable_running hd).1 h with ⟨pid, hstage⟩ | hlinkable
    · exact links_of_maintainService hw hd hstage
    cases htarget : d.target with
    | none =>
      cases hstage : d.stage with
      | getService => exact links_of_untouched hw hd hstage htarget
      | getBinderBackdoor service => exact links_of_missing hw hd hstage htarget
      | performInjection => exact links_of_performInjection hw hd hstage htarget
      | linkToDeath pid =>
        rw [(hattends.linking pid hstage).1] at htarget
        cases htarget
      | maintainService pid => exact links_of_maintainService hw hd hstage
    | some pid =>
      obtain ⟨halive, hhook, htries⟩ := hlinkable pid htarget
      have hhooked (hne : d.stage ≠ .performInjection) : w.Hooked pid := hhook.resolve_right hne
      cases hstage : d.stage with
      | getService => exact links_of_hooked hw hd hstage (hhooked (by simp [hstage]))
      | getBinderBackdoor service =>
        rcases htries service hstage with rfl | htried
        · exact links_of_getBinderBackdoor hd hstage (hhooked (by simp [hstage]))
        · exact links_of_retry hw hd hstage htried (by simp [htarget]) (hhooked (by simp [hstage]))
      | performInjection => exact links_of_attached hw hd hstage htarget halive
      | linkToDeath pid' =>
        cases (hattends.linking pid' hstage).1.symm.trans htarget
        exact links_of_linkToDeath hd hstage halive
      | maintainService pid' => exact links_of_maintainService hw hd hstage

/-- After a run a daemon can still register with a keystore process and link to it exactly if the script has a
daemon to start, or the one that runs is linked, has had no process injected, or had one injected that lives and
is hooked or about to be, with a try left to find it.  A keystore process that dies after the injector has
attached to it and before the daemon has linked to it is the end of interception. -/
theorem links_iff_recoverable (es : List DeviceEvent) :
    (∃ es', (run {} (es ++ es')).links ≠ (run {} es).links) ↔ (run {} es).Recoverable := by
  have hrun (es' : List DeviceEvent) : run {} (es ++ es') = (run {} es).run es' := Machine.run_append ..
  simp only [hrun]
  constructor
  · rintro ⟨es', hlinks⟩
    by_contra h
    exact hlinks ((consistent_run es).links_run h es')
  · exact (consistent_run es).links_of_recoverable

end Device

end TrickyStore
