import TrickyStore.Model.DeviceSecrets

/-!
# The secrets of a device stay the same

An id is reported only when its key is in the file, and what is in the file is never written again: so all
ids ever reported are made with one key.  A boot key that is cut off while it is written stays cut off,
and every later process takes the beginning of it.
-/

open Lib Files

namespace TrickyStore

namespace DeviceSecrets

variable {h : Digests} {s : DeviceSecrets} {files : Files SecretFile UInt8}

/-! ## Writing -/

theorem lookup_writeUntil_none (file : SecretFile) (bytes : Bytes) :
    (writeUntil none file bytes files).lookup file = some bytes :=
  lookup_run_write files file bytes

variable (files) in
/-- The file is there with the beginning of what is written, or as it was. -/
theorem lookup_writeUntil (cutOff : Option ℕ) (file : SecretFile) (bytes : Bytes) :
    (writeUntil cutOff file bytes files).lookup file = files.lookup file ∨
      ∃ front, front <+: bytes ∧ (writeUntil cutOff file bytes files).lookup file = some front := by
  cases cutOff with
  | none => exact .inr ⟨bytes, List.prefix_refl _, lookup_writeUntil_none file bytes⟩
  | some n =>
    rcases lookup_run_part_of_write files (List.take_prefix n (write file bytes)) with hnone | hfront
    · left
      unfold writeUntil
      dsimp only [Option.elim]
      rw [hnone]
      rfl
    · exact .inr hfront

theorem lookup_writeUntil_of_ne {file file' : SecretFile} (hne : file ≠ file') (cutOff : Option ℕ)
    (bytes : Bytes) : (writeUntil cutOff file bytes files).lookup file' = files.lookup file' := by
  apply lookup_run_of_not_touches
  intro a ha
  have hin : a ∈ write file bytes := by
    cases cutOff with
    | none => exact ha
    | some n => exact List.take_subset n _ ha
  exact not_touches_write hne hin

/-! ## What an attestation reports as boot key -/

/-- The key that is read from the file, if there is one in it. -/
def bootKeyOf (text : Bytes) : Option Bytes := ofHex (trim isWhitespace (asciiText text))

/-- Where a key may come from while the files stay as they are. -/
def Settled (s : DeviceSecrets) : BootKeySource → Bytes → Prop
  | .property, _ | .attestation, _ => True
  | .file, key => ∃ text, s.files.lookup .bootKey = some text ∧ bootKeyOf text = some key
  | .fresh, _ => False
  | .ephemeral, _ => ∃ text, s.files.lookup .bootKey = some text ∧ bootKeyOf text = none

/-- Nothing is reported anew, or a key that leaves the files alone, or one that is written to a new file. -/
theorem reportBootKey_cases (s : DeviceSecrets) (r : BootKeyReading) :
    s.reportBootKey r = s ∨
      (∃ source key, s.Settled source key ∧
        s.reportBootKey r = { s with bootKey := some key, bootKeys := s.bootKeys ++ [(source, key)] }) ∨
      ∃ source key, s.files.lookup .bootKey = none ∧
        (r.cutOff = none ∧ source = .fresh ∧ key = r.random.1 ∨ r.cutOff ≠ none ∧ source = .ephemeral) ∧
        s.reportBootKey r =
          { s with
            files := writeUntil r.cutOff .bootKey (asciiBytes (toHex r.random.1)) s.files
            bootKey := some key
            bootKeys := s.bootKeys ++ [(source, key)] } := by
  unfold reportBootKey chooseBootKey persistedBootKey
  cases s.bootKey with
  | some key => exact .inl rfl
  | none =>
    right
    cases getBootKeyFromProp r.digest with
    | some key => exact .inl ⟨.property, key, trivial, rfl⟩
    | none =>
      cases r.cachedBootKey.bind takeIfNonZero with
      | some key => exact .inl ⟨.attestation, key, trivial, rfl⟩
      | none =>
        cases htext : s.files.lookup .bootKey with
        | some text =>
          left
          dsimp only
          cases hkey : bootKeyOf text with
          | some key =>
            refine ⟨.file, key, ⟨text, htext, hkey⟩, ?_⟩
            unfold bootKeyOf at hkey
            rw [hkey]
          | none =>
            refine ⟨.ephemeral, r.ephemeral.1, ⟨text, htext, hkey⟩, ?_⟩
            unfold bootKeyOf at hkey
            rw [hkey]
        | none =>
          right
          dsimp only
          by_cases hcut : r.cutOff = none
          · exact ⟨.fresh, r.random.1, rfl, .inl ⟨hcut, rfl, rfl⟩, by rw [if_pos hcut]⟩
          · exact ⟨.ephemeral, r.ephemeral.1, rfl, .inr ⟨hcut, rfl⟩, by rw [if_neg hcut]⟩

/-! ## The unique id -/

/-- The file holds a key of the right length. -/
def Holds (K : Bytes) (s : DeviceSecrets) : Prop := K.length = 32 ∧ s.files.lookup .hbk = some K

/-- Every key in use, and of every id reported, is the one in the file. -/
structure OneHbk (h : Digests) (s : DeviceSecrets) : Prop where
  inUse : ∀ k, s.hbk = some k → s.Holds k
  reported : ∀ u ∈ s.uniqueIds, ∃ K, s.Holds K ∧
    u.id = CertificateGen.computeUniqueId h K u.creationTimeMs u.aaidDer

theorem Holds.unique {K K' : Bytes} (hK : s.Holds K) (hK' : s.Holds K') : K = K' :=
  Option.some.inj (hK.2.symm.trans hK'.2)

/-- The key that is read is in the file from then on, and the file of a key is left alone. -/
theorem readHbk_spec (hs : s.OneHbk h) (random : RandomKey) (cutOff : Option ℕ) :
    (∀ K, s.Holds K → (s.readHbk random cutOff).1.Holds K) ∧
      (∀ k, (s.readHbk random cutOff).1.hbk = some k → (s.readHbk random cutOff).1.Holds k) ∧
      (∀ k, (s.readHbk random cutOff).2 = some k → (s.readHbk random cutOff).1.Holds k) ∧
      (s.readHbk random cutOff).1.uniqueIds = s.uniqueIds := by
  unfold readHbk
  split
  · rename_i k hk
    refine ⟨fun _ hK => hK, hs.inUse, ?_, rfl⟩
    rintro k' ⟨⟩
    exact hs.inUse k hk
  · rename_i hnone
    split
    · rename_i k hk
      have hheld : s.Holds k := by
        obtain ⟨hlookup, hlength⟩ := Option.filter_eq_some_iff.1 hk
        exact ⟨of_decide_eq_true hlength, hlookup⟩
      refine ⟨fun _ hK => hK, ?_, ?_, rfl⟩
      · rintro k' ⟨⟩
        exact hheld
      · rintro k' ⟨⟩
        exact hheld
    · rename_i hfile
      have hno (K : Bytes) (hK : s.Holds K) : False := by
        rw [hK.2, Option.filter_some, if_pos (decide_eq_true hK.1)] at hfile
        cases hfile
      by_cases hcut : cutOff = none
      · subst hcut
        have hheld : random.1.length = 32 ∧
            (writeUntil none .hbk random.1 s.files).lookup .hbk = some random.1 :=
          ⟨random.2, lookup_writeUntil_none _ _⟩
        refine ⟨fun K hK => (hno K hK).elim, ?_, ?_, rfl⟩
        · rintro k ⟨⟩
          exact hheld
        · rintro k ⟨⟩
          exact hheld
      · rw [if_neg hcut]
        refine ⟨fun K hK => (hno K hK).elim, ?_, ?_, rfl⟩
        · intro k hk
          rw [hnone] at hk
          cases hk
        · rintro k ⟨⟩

theorem OneHbk.reportUniqueId (hs : s.OneHbk h) (random : RandomKey) (cutOff : Option ℕ) (creationTimeMs : Int)
    (aaidDer : Bytes) : (s.reportUniqueId h random cutOff creationTimeMs aaidDer).OneHbk h := by
  obtain ⟨hkeeps, hinUse, hread, hsame⟩ := readHbk_spec hs random cutOff
  have hreported : ∀ u ∈ s.uniqueIds, ∃ K, (s.readHbk random cutOff).1.Holds K ∧
      u.id = CertificateGen.computeUniqueId h K u.creationTimeMs u.aaidDer := by
    intro u hu
    obtain ⟨K, hK, hid⟩ := hs.reported u hu
    exact ⟨K, hkeeps K hK, hid⟩
  unfold DeviceSecrets.reportUniqueId
  generalize s.readHbk random cutOff = r at *
  obtain ⟨s', _ | hbk⟩ := r
  · exact ⟨hinUse, hsame ▸ hreported⟩
  · refine ⟨hinUse, fun u hu => ?_⟩
    rcases List.mem_append.1 hu with hu | hu
    · exact hreported u (hsame ▸ hu)
    · obtain rfl := List.mem_singleton.1 hu
      exact ⟨hbk, hread hbk rfl, rfl⟩

theorem OneHbk.reportBootKey (hs : s.OneHbk h) (r : BootKeyReading) : (s.reportBootKey r).OneHbk h := by
  have hsame : (s.reportBootKey r).files.lookup .hbk = s.files.lookup .hbk ∧
      (s.reportBootKey r).hbk = s.hbk ∧ (s.reportBootKey r).uniqueIds = s.uniqueIds := by
    rcases reportBootKey_cases s r with heq | ⟨source, key, _, heq⟩ | ⟨source, key, _, _, heq⟩
    · rw [heq]
      exact ⟨rfl, rfl, rfl⟩
    · rw [heq]
      exact ⟨rfl, rfl, rfl⟩
    · rw [heq]
      exact ⟨lookup_writeUntil_of_ne (by decide) _ _, rfl, rfl⟩
  obtain ⟨hlookup, hhbk, hids⟩ := hsame
  have hholds (K : Bytes) (hK : s.Holds K) : (s.reportBootKey r).Holds K := ⟨hK.1, hlookup.trans hK.2⟩
  refine ⟨fun k hk => hholds k (hs.inUse k (hhbk ▸ hk)), fun u hu => ?_⟩
  obtain ⟨K, hK, hid⟩ := hs.reported u (hids ▸ hu)
  exact ⟨K, hholds K hK, hid⟩

theorem OneHbk.next (hs : s.OneHbk h) (e : Event) : (next h s e).OneHbk h := by
  cases e with
  | reportUniqueId random cutOff creationTimeMs aaidDer => exact hs.reportUniqueId random cutOff creationTimeMs aaidDer
  | reportBootKey r => exact hs.reportBootKey r
  | restart =>
    refine ⟨?_, hs.reported⟩
    rintro k ⟨⟩

/-- Whatever is in the files at first, all unique ids that are ever reported are made with one key, of 32
bytes, which is what the file holds: over any restarts, and any writes that fail or are cut off.  So an app
has one id for as long as the counter of the days stays the same. -/
theorem uniqueIds_of_one_key (h : Digests) (files : Files SecretFile UInt8) (es : List Event) :
    (∃ K : Bytes, ∀ u ∈ (Machine.run (next h) { files := files } es).uniqueIds,
      K.length = 32 ∧ (Machine.run (next h) { files := files } es).files.lookup .hbk = some K ∧
      u.id = CertificateGen.computeUniqueId h K u.creationTimeMs u.aaidDer) ∧
    ∀ u ∈ (Machine.run (next h) { files := files } es).uniqueIds,
      ∀ u' ∈ (Machine.run (next h) { files := files } es).uniqueIds, u.aaidDer = u'.aaidDer →
        u.creationTimeMs.tdiv 2592000000 = u'.creationTimeMs.tdiv 2592000000 → u.id = u'.id := by
  have hrun : (Machine.run (next h) { files := files } es).OneHbk h := by
    refine Machine.run_invariant (fun s e hs => hs.next e) ⟨?_, ?_⟩
    · rintro k ⟨⟩
    · rintro u ⟨⟩
  generalize Machine.run (next h) { files := files } es = s at hrun
  constructor
  · by_cases hids : s.uniqueIds = []
    · exact ⟨[], by simp [hids]⟩
    · obtain ⟨u, hu⟩ := List.exists_mem_of_ne_nil _ hids
      obtain ⟨K, hK, -⟩ := hrun.reported u hu
      refine ⟨K, fun u' hu' => ⟨hK.1, hK.2, ?_⟩⟩
      obtain ⟨K', hK', hid⟩ := hrun.reported u' hu'
      rw [hK.unique hK']
      exact hid
  · intro u hu u' hu' haaid hcounter
    obtain ⟨K, hK, hid⟩ := hrun.reported u hu
    obtain ⟨K', hK', hid'⟩ := hrun.reported u' hu'
    obtain rfl := hK.unique hK'
    rw [hid, hid', CertificateGen.computeUniqueId, CertificateGen.computeUniqueId, haaid, hcounter]

/-! ## The boot key -/

theorem asciiText_asciiBytes_toHex (key : Bytes) : asciiText (asciiBytes (toHex key)) = toHex key := by
  have hdigit : ∀ n < 16, Char.ofNat (UInt8.ofNat (Nat.digitChar n).toNat).toNat = Nat.digitChar n := by
    intro n hn
    interval_cases n <;> decide
  have hsame : ∀ c ∈ toHex key, Char.ofNat (UInt8.ofNat c.toNat).toNat = c := forall_mem_toHex hdigit key
  rw [asciiText, asciiBytes, List.map_map]
  exact (List.map_congr_left hsame).trans (List.map_id' _)

theorem isWhitespace_of_mem_toHex (key : Bytes) : ∀ c ∈ toHex key, isWhitespace c = false := by
  refine forall_mem_toHex (fun n hn => ?_) key
  interval_cases n <;> decide

/-- Of a file that is a beginning of a key in hexadecimal digits, what is read is a beginning of the key. -/
theorem bootKeyOf_front {text key read : Bytes} (h : text <+: asciiBytes (toHex key))
    (hread : bootKeyOf text = some read) : read <+: key := by
  have hfront : asciiText text <+: toHex key := by
    have hmap : asciiText text <+: asciiText (asciiBytes (toHex key)) := h.map _
    rwa [asciiText_asciiBytes_toHex] at hmap
  have htrimmed : Trimmed isWhitespace (asciiText text) := by
    constructor
    · intro c hc
      exact isWhitespace_of_mem_toHex key c (hfront.subset (List.mem_of_mem_head? hc))
    · intro c hc
      exact isWhitespace_of_mem_toHex key c (hfront.subset (List.mem_of_mem_getLast? hc))
  rw [bootKeyOf, htrimmed.trim] at hread
  exact ofHex_of_front hfront hread

theorem bootKeyOf_asciiBytes (key : Bytes) : bootKeyOf (asciiBytes (toHex key)) = some key := by
  have htrimmed : Trimmed isWhitespace (toHex key) := by
    constructor
    · intro c hc
      exact isWhitespace_of_mem_toHex key c (List.mem_of_mem_head? hc)
    · intro c hc
      exact isWhitespace_of_mem_toHex key c (List.mem_of_mem_getLast? hc)
  rw [bootKeyOf, asciiText_asciiBytes_toHex, htrimmed.trim, ofHex_toHex]

/-- The file is the beginning of one key, and all of it if no write was cut off; what was reported from
the file, or as it was written, goes with that. -/
structure OneBootKey (K : Bytes) (whole : Prop) (s : DeviceSecrets) : Prop where
  file : ∀ text, s.files.lookup .bootKey = some text →
    text <+: asciiBytes (toHex K) ∧ (whole → text = asciiBytes (toHex K))
  absent : s.files.lookup .bootKey = none → ∀ p ∈ s.bootKeys, p.1 ≠ .fresh ∧ p.1 ≠ .file
  fresh : ∀ p ∈ s.bootKeys, p.1 = .fresh → p.2 = K
  read : ∀ p ∈ s.bootKeys, p.1 = .file → p.2 <+: K ∧ (whole → p.2 = K)
  settled : whole → ∀ p ∈ s.bootKeys, p.1 ≠ .ephemeral

variable {K : Bytes} {whole : Prop}

/-- A file that is there keeps its key. -/
theorem OneBootKey.report_settled (hs : s.OneBootKey K whole) {source : BootKeySource} {key : Bytes}
    (hsource : s.Settled source key) :
    ({ s with bootKey := some key, bootKeys := s.bootKeys ++ [(source, key)] } : DeviceSecrets).OneBootKey K
      whole := by
  have hp (p : BootKeySource × Bytes) (h : p ∈ s.bootKeys ++ [(source, key)]) :
      p ∈ s.bootKeys ∨ p = (source, key) := (List.mem_append.1 h).imp_right List.mem_singleton.1
  refine ⟨hs.file, ?_, ?_, ?_, ?_⟩
  · rintro hnone p hmem
    rcases hp p hmem with hmem | rfl
    · exact hs.absent hnone p hmem
    · constructor
      · rintro rfl
        exact hsource
      · rintro rfl
        obtain ⟨text, htext, -⟩ := hsource
        cases hnone.symm.trans htext
  · intro p hmem hfresh
    rcases hp p hmem with hmem | rfl
    · exact hs.fresh p hmem hfresh
    · obtain rfl : source = .fresh := hfresh
      exact hsource.elim
  · intro p hmem hread
    rcases hp p hmem with hmem | rfl
    · exact hs.read p hmem hread
    · obtain rfl : source = .file := hread
      obtain ⟨text, htext, hkey⟩ := hsource
      obtain ⟨hfront, hall⟩ := hs.file text htext
      refine ⟨bootKeyOf_front hfront hkey, fun hwhole => ?_⟩
      rw [hall hwhole, bootKeyOf_asciiBytes] at hkey
      exact (Option.some.inj hkey).symm
  · intro hwhole p hmem
    rcases hp p hmem with hmem | rfl
    · exact hs.settled hwhole p hmem
    · rintro rfl
      obtain ⟨text, htext, hkey⟩ := hsource
      rw [(hs.file text htext).2 hwhole, bootKeyOf_asciiBytes] at hkey
      cases hkey

/-- A file that was not there is one of the new key, or is still not there. -/
theorem OneBootKey.report_written (hs : s.OneBootKey K whole) {r : BootKeyReading} {source : BootKeySource}
    {key : Bytes} (hnone : s.files.lookup .bootKey = none) (hwhole : whole → r.cutOff = none)
    (hsource : r.cutOff = none ∧ source = .fresh ∧ key = r.random.1 ∨ r.cutOff ≠ none ∧ source = .ephemeral) :
    ({ s with
      files := writeUntil r.cutOff .bootKey (asciiBytes (toHex r.random.1)) s.files
      bootKey := some key
      bootKeys := s.bootKeys ++ [(source, key)] } : DeviceSecrets).OneBootKey r.random.1 whole := by
  have hold := hs.absent hnone
  have hp (p : BootKeySource × Bytes) (h : p ∈ s.bootKeys ++ [(source, key)]) :
      p ∈ s.bootKeys ∨ p = (source, key) := (List.mem_append.1 h).imp_right List.mem_singleton.1
  have hnotFile : source ≠ .file := by
    rcases hsource with ⟨-, rfl, -⟩ | ⟨-, rfl⟩ <;> decide
  refine ⟨?_, ?_, ?_, ?_, ?_⟩
  · intro text htext
    dsimp only at htext
    constructor
    · rcases lookup_writeUntil s.files r.cutOff .bootKey (asciiBytes (toHex r.random.1)) with
        hsame | ⟨front, hfront, hlookup⟩
      · cases htext.symm.trans (hsame.trans hnone)
      · obtain rfl := Option.some.inj (htext.symm.trans hlookup)
        exact hfront
    · intro h
      rw [hwhole h, lookup_writeUntil_none] at htext
      exact (Option.some.inj htext).symm
  · intro habsent p hmem
    rcases hp p hmem with hmem | rfl
    · exact hold p hmem
    · refine ⟨?_, hnotFile⟩
      rintro rfl
      rcases hsource with ⟨hcut, -, -⟩ | ⟨-, hsource⟩
      · dsimp only at habsent
        rw [hcut, lookup_writeUntil_none] at habsent
        cases habsent
      · cases hsource
  · intro p hmem hfresh
    rcases hp p hmem with hmem | rfl
    · exact absurd hfresh (hold p hmem).1
    · rcases hsource with ⟨-, -, rfl⟩ | ⟨-, rfl⟩
      · rfl
      · cases hfresh
  · intro p hmem hread
    rcases hp p hmem with hmem | rfl
    · exact absurd hread (hold p hmem).2
    · exact absurd hread hnotFile
  · intro h p hmem
    rcases hp p hmem with hmem | rfl
    · exact hs.settled h p hmem
    · rcases hsource with ⟨-, rfl, -⟩ | ⟨hcut, -⟩
      · rintro ⟨⟩
      · exact absurd (hwhole h) hcut

theorem OneBootKey.congr (hs : s.OneBootKey K whole) {s' : DeviceSecrets}
    (hlookup : s'.files.lookup .bootKey = s.files.lookup .bootKey) (hkeys : s'.bootKeys = s.bootKeys) :
    s'.OneBootKey K whole :=
  ⟨hlookup ▸ hs.file, hlookup ▸ hkeys ▸ hs.absent, hkeys ▸ hs.fresh, hkeys ▸ hs.read, hkeys ▸ hs.settled⟩

theorem reportUniqueId_frame (h : Digests) (s : DeviceSecrets) (random : RandomKey) (cutOff : Option ℕ)
    (creationTimeMs : Int) (aaidDer : Bytes) :
    (s.reportUniqueId h random cutOff creationTimeMs aaidDer).files.lookup .bootKey =
        s.files.lookup .bootKey ∧
      (s.reportUniqueId h random cutOff creationTimeMs aaidDer).bootKeys = s.bootKeys := by
  have hread : (s.readHbk random cutOff).1.files.lookup .bootKey = s.files.lookup .bootKey ∧
      (s.readHbk random cutOff).1.bootKeys = s.bootKeys := by
    unfold readHbk
    split
    · exact ⟨rfl, rfl⟩
    split
    · exact ⟨rfl, rfl⟩
    · have hne : SecretFile.hbk ≠ .bootKey := by decide
      split <;> exact ⟨lookup_writeUntil_of_ne hne _ _, rfl⟩
  unfold DeviceSecrets.reportUniqueId
  generalize s.readHbk random cutOff = r at *
  obtain ⟨s', _ | hbk⟩ := r <;> exact hread

theorem OneBootKey.next (hs : ∃ K : RandomKey, s.OneBootKey K.1 whole) (h : Digests) (e : Event)
    (hwhole : ∀ r, e = .reportBootKey r → whole → r.cutOff = none) :
    ∃ K : RandomKey, (next h s e).OneBootKey K.1 whole := by
  obtain ⟨K, hs⟩ := hs
  cases e with
  | reportUniqueId random cutOff creationTimeMs aaidDer =>
    obtain ⟨hlookup, hkeys⟩ := reportUniqueId_frame h s random cutOff creationTimeMs aaidDer
    exact ⟨K, hs.congr hlookup hkeys⟩
  | reportBootKey r =>
    dsimp only [DeviceSecrets.next]
    rcases reportBootKey_cases s r with heq | ⟨source, key, hsource, heq⟩ | ⟨source, key, hnone, hsource, heq⟩
    · rw [heq]
      exact ⟨K, hs⟩
    · rw [heq]
      exact ⟨K, hs.report_settled hsource⟩
    · rw [heq]
      exact ⟨r.random, hs.report_written hnone (hwhole r rfl) hsource⟩
  | restart => exact ⟨K, hs.congr rfl rfl⟩

/-- On a device that has no boot key file at first, all boot keys that are ever reported as read from the
file are beginnings of one key, the one that was reported as it was written, if one was; they are all of
it, and none is of one process only, if no write of the file failed or was cut off. -/
theorem bootKeys_of_one_key (h : Digests) (es : List Event) :
    ∃ K : RandomKey, ∀ p ∈ (Machine.run (next h) {} es).bootKeys,
      (p.1 = .fresh → p.2 = K.1) ∧ (p.1 = .file → p.2 <+: K.1) ∧
      ((∀ r, .reportBootKey r ∈ es → r.cutOff = none) →
        (p.1 = .file → p.2 = K.1) ∧ p.1 ≠ .ephemeral) := by
  have hempty (whole : Prop) : ∃ K : RandomKey, ({} : DeviceSecrets).OneBootKey K.1 whole := by
    refine ⟨⟨List.replicate 32 0, rfl⟩, ?_, ?_, ?_, ?_, ?_⟩
    · rintro text ⟨⟩
    · rintro - p ⟨⟩
    · rintro p ⟨⟩
    · rintro p ⟨⟩
    · rintro - p ⟨⟩
  have hsteps : Machine.AllSteps (next h) (fun _ e => e ∈ es) {} es := by
    rintro before e after rfl
    simp
  have hrun : ∃ K : RandomKey, (Machine.run (next h) {} es).OneBootKey K.1
      (∀ r, .reportBootKey r ∈ es → r.cutOff = none) := by
    apply hsteps.invariant (I := fun s => ∃ K : RandomKey, s.OneBootKey K.1
      (∀ r, .reportBootKey r ∈ es → r.cutOff = none)) (hempty _)
    intro s e hs he
    apply OneBootKey.next hs h e
    rintro r rfl hwhole
    exact hwhole r he
  obtain ⟨K, hK⟩ := hrun
  refine ⟨K, fun p hp => ⟨hK.fresh p hp, fun hfile => (hK.read p hp hfile).1, fun hwhole => ⟨fun hfile => ?_, ?_⟩⟩⟩
  · exact (hK.read p hp hfile).2 hwhole
  · exact hK.settled hwhole p hp

end DeviceSecrets

end TrickyStore
