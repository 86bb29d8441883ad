import TrickyStore.Proof.KeyFileRoundTrip
import TrickyStore.Proof.PagedListing

/-!
# Key files and crashes

A crash or an exception may end a task of the executor behind any action of the file system.  What
`loadAll` returns for a key is then what it returns after a history of whole tasks: of all that were
finished and of some of those that were not.  Only where a save cannot rename its temporary file and
copies it may the record be lost, and never is there a record that no task wrote.
-/

open Lib

namespace TrickyStore

/-! ## Keys and paths -/

theorem JavaString.toByteArray_cons {c : UInt16} (h : ¬ (0xD800 ≤ c.toNat ∧ c.toNat ≤ 0xDBFF))
    (rest : JavaString) :
    JavaString.toByteArray (c :: rest) = encodeUnit c ++ JavaString.toByteArray rest := by
  cases rest with
  | nil => rw [JavaString.toByteArray, JavaString.toByteArray, List.append_nil]
  | cons d rest =>
    have hpair : isSurrogatePair c d = false := decide_eq_false fun hcd => h ⟨hcd.1, hcd.2.1⟩
    rw [JavaString.toByteArray, hpair, if_neg Bool.false_ne_true]

/-- Without unpaired surrogates no character is lost in UTF-8. -/
theorem toByteArray_javaString (s : String) :
    JavaString.toByteArray (javaString s) = s.toUTF8.data.toList := by
  rw [String.toUTF8_eq_toByteArray, ← String.utf8Encode_toList, List.utf8Encode,
    List.toList_data_toByteArray, javaString, utf16Units]
  induction s.toList with
  | nil => rfl
  | cons c l ih =>
    have hvalid : c.toNat.isValidChar := c.valid
    unfold Nat.isValidChar at hvalid
    have hunit {n : ℕ} (hn : n < 65536) : (UInt16.ofNat n).toNat = n :=
      (UInt16.toNat_ofNat' ..).trans (Nat.mod_eq_of_lt hn)
    rw [List.flatMap_cons, List.flatMap_cons, List.map_append, ← ih]
    by_cases hbmp : c.toNat < 0x10000
    · rw [if_pos hbmp, List.map_singleton, List.singleton_append,
        JavaString.toByteArray_cons (by rw [hunit hbmp]; omega), encodeUnit, hunit hbmp, if_neg (by omega),
        Char.ofNat_toNat]
    · have hhigh := hunit (n := 0xD800 + (c.toNat - 0x10000) / 0x400) (by omega)
      have hlow := hunit (n := 0xDC00 + (c.toNat - 0x10000) % 0x400) (by omega)
      have hpair : isSurrogatePair (.ofNat (0xD800 + (c.toNat - 0x10000) / 0x400))
          (.ofNat (0xDC00 + (c.toNat - 0x10000) % 0x400)) = true := by
        rw [isSurrogatePair, decide_eq_true_iff, hhigh, hlow]
        omega
      have hpoint : 0x10000 + (0xD800 + (c.toNat - 0x10000) / 0x400 - 0xD800) * 0x400 +
          (0xDC00 + (c.toNat - 0x10000) % 0x400 - 0xDC00) = c.toNat := by omega
      rw [if_neg hbmp, List.map_cons, List.map_singleton, List.cons_append, List.singleton_append,
        JavaString.toByteArray, if_pos hpair, hhigh, hlow, hpoint, Char.ofNat_toNat]

-- with unpaired surrogates two aliases may share their file
example : JavaString.toByteArray [0xD800] = JavaString.toByteArray (javaString "?") := by decide

theorem javaString_injective : Function.Injective javaString := by
  intro s t h
  have hvalue (s : String) : ∀ n ∈ utf16Units s, (UInt16.ofNat n).toNat = n := by
    intro n hn
    obtain ⟨c, -, hc⟩ := List.mem_flatMap.1 hn
    have hvalid : c.toNat.isValidChar := c.valid
    unfold Nat.isValidChar at hvalid
    rw [UInt16.toNat_ofNat', Nat.mod_eq_of_lt]
    split_ifs at hc <;> simp only [List.mem_cons, List.not_mem_nil, or_false] at hc <;> omega
  have hunits (s : String) : (javaString s).map UInt16.toNat = utf16Units s := by
    rw [javaString, List.map_map]
    exact (List.map_congr_left (hvalue s)).trans (List.map_id _)
  exact utf16Units_injective (by rw [← hunits s, h, hunits t])

/-- The record is one of the key. -/
def KeyFile.isOf (r : KeyFile) (k : Key) : Bool := r.uid = k.uid ∧ r.keyAlias = javaString k.keyAlias

/-- Different aliases of the keys have different digests. -/
def NoCollisions (sha256 : Bytes → Bytes) (keys : Set Key) : Prop :=
  ∀ k ∈ keys, ∀ k' ∈ keys, sha256 k.keyAlias.toUTF8.data.toList = sha256 k'.keyAlias.toUTF8.data.toList →
    k.keyAlias = k'.keyAlias

section Paths

variable {sha256 : Bytes → Bytes} {keys : Set Key} {k k' : Key}

theorem isBin_fileFor (k : Key) : (fileFor sha256 k).isBin = true :=
  List.isSuffixOf_iff_suffix.2 (List.suffix_append _ _)

theorem isBin_tmp (file : KeyPath) : file.tmp.isBin = false := by
  rw [← Bool.not_eq_true, KeyPath.isBin, List.isSuffixOf_iff_suffix]
  rintro ⟨front, hfront⟩
  have hlast := congrArg List.getLast? hfront
  simp [KeyPath.tmp] at hlast

theorem tmp_ne {file other : KeyPath} (h : other.isBin = true) : file.tmp ≠ other := by
  rintro rfl
  rw [isBin_tmp] at h
  cases h

theorem NoCollisions.eq_of_fileFor (h : NoCollisions sha256 keys) (hk : k ∈ keys) (hk' : k' ∈ keys)
    (heq : fileFor sha256 k = fileFor sha256 k') : k = k' := by
  obtain ⟨huid, hname⟩ := KeyPath.mk.inj heq
  have hbytes := toHex_injective (List.append_cancel_right hname)
  rw [toByteArray_javaString, toByteArray_javaString] at hbytes
  have halias := h k hk k' hk' hbytes
  cases k
  cases k'
  exact congr (congrArg Key.mk huid) halias

/-- With a digest without collisions, the file name stands for the uid and the alias. -/
theorem fileFor_injective (h : Function.Injective sha256) : Function.Injective (fileFor sha256) := by
  have hall : NoCollisions sha256 .univ := by
    intro k _ k' _ heq
    exact String.toByteArray_inj.1 (ByteArray.ext (Array.toList_inj.1 (h heq)))
  exact fun k k' heq => hall.eq_of_fileFor (Set.mem_univ k) (Set.mem_univ k') heq

end Paths

/-! ## Tasks -/

def PersistTask.key : PersistTask → Option Key
  | .saveKey pk => some pk.key
  | .deleteKey uid keyAlias => some ⟨uid, keyAlias⟩
  | .clearAll => none

/-- A save of a record that the format can hold, or with an alias that is too long for it. -/
def FileTask.Storable (marshall : KeyMetadata → Bytes) (F : KeyFactories) (t : FileTask) : Prop :=
  ∀ pk, t.task = .saveKey pk → 65535 < modifiedUtf8Length pk.keyAlias ∨
    (pk.keyFile marshall).Holdable ∧ F.Inverts (pk.keyFile marshall)

/-- The record that `loadAll` reads of a save. -/
def PersistedKey.stored (marshall : KeyMetadata → Bytes) (pk : PersistedKey) : KeyFile :=
  ({ pk with params := pk.params.persisted } : PersistedKey).keyFile marshall

/-- The word is written for the record, and read back. -/
structure Written (marshall : KeyMetadata → Bytes) (F : KeyFactories) (pk : PersistedKey) (word : Bytes) :
    Prop where
  writes : saveKeySync (pk.keyFile marshall) [] = some ((), word)
  reads : Reader.Reads (loadFile F) word (pk.stored marshall)

/-- What `loadAll` reads of one file. -/
def readFile (F : KeyFactories) (bytes : Bytes) : Option KeyFile := (loadFile F bytes).map Prod.fst

section Records

variable {marshall : KeyMetadata → Bytes} {F : KeyFactories} {pk : PersistedKey} {word : Bytes} {t : FileTask}

theorem Written.readFile_front (h : Written marshall F pk word) {front : Bytes} (hfront : front <+: word) :
    front = word ∧ readFile F front = some (pk.stored marshall) ∨ readFile F front = none := by
  by_cases heq : front = word
  · left
    refine ⟨heq, ?_⟩
    rw [heq, readFile, h.reads.whole]
    rfl
  · right
    rw [readFile, h.reads.short hfront heq]
    rfl

theorem Written.readFile (h : Written marshall F pk word) : readFile F word = some (pk.stored marshall) := by
  rw [TrickyStore.readFile, h.reads.whole]
  rfl

theorem FileTask.Storable.save_cases (h : t.Storable marshall F) (ht : t.task = .saveKey pk) :
    (modifiedUtf8Length pk.keyAlias ≤ 65535 ∧ ∃ word, Written marshall F pk word) ∨
      65535 < modifiedUtf8Length pk.keyAlias ∧ saveKeySync (pk.keyFile marshall) [] = none := by
  by_cases hlong : 65535 < modifiedUtf8Length pk.keyAlias
  · exact .inr ⟨hlong, (failed_save_keeps_files hlong ∅).1⟩
  · rcases h pk ht with h | ⟨hhold, hF⟩
    · exact absurd h hlong
    · obtain ⟨word, hwrites, hreads⟩ := agree_saveKeySync hhold hF
      exact .inl ⟨Nat.le_of_not_lt hlong, word, hwrites [], hreads⟩

theorem isOf_keyFile {k : Key} : (pk.keyFile marshall).isOf k = true ↔ pk.key = k := by
  have halias : javaString pk.keyAlias = javaString k.keyAlias ↔ pk.keyAlias = k.keyAlias :=
    javaString_injective.eq_iff
  cases k
  simp only [KeyFile.isOf, PersistedKey.keyFile, PersistedKey.key, decide_eq_true_eq, Key.mk.injEq, halias]

theorem isOf_stored {k : Key} : (pk.stored marshall).isOf k = true ↔ pk.key = k := isOf_keyFile

end Records

/-! ## What a task leaves of a file -/

namespace KeyDirectory

open Files

section Programs

variable {sha256 : Bytes → Bytes} {marshall : KeyMetadata → Bytes} {t : FileTask} {pk : PersistedKey}
  {dir : KeyDirectory} {file : KeyPath} {part : List (FileAction KeyPath UInt8)}

/-- A save touches no key file but its own. -/
theorem not_touches_saveKey (hbin : file.isBin = true) (hne : fileFor sha256 pk.key ≠ file)
    {a : FileAction KeyPath UInt8} (ha : a ∈ saveKey sha256 marshall t pk) : ¬ Touches file a := by
  unfold saveKey at ha
  dsimp only at ha
  split at ha
  · split_ifs at ha
    · exact not_touches_replace (tmp_ne hbin) hne ha
    · exact not_touches_overwrite (tmp_ne hbin) hne ha
  · exact not_touches_write (tmp_ne hbin) ha

theorem lookup_saveKey_of_none (hbin : file.isBin = true) (h : saveKeySync (pk.keyFile marshall) [] = none)
    (hpart : part <+: saveKey sha256 marshall t pk) :
    (Machine.run perform dir part).lookup file = dir.lookup file := by
  rw [saveKey, h] at hpart
  exact lookup_run_of_not_touches fun a ha => not_touches_write (tmp_ne hbin) (hpart.subset ha)

/-- A save that renames leaves the old file or the new one. -/
theorem lookup_saveKey_of_renamed {word : Bytes} (h : saveKeySync (pk.keyFile marshall) [] = some ((), word))
    (hrenamed : t.renamed = true) (hpart : part <+: saveKey sha256 marshall t pk) :
    (Machine.run perform dir part).lookup (fileFor sha256 pk.key) = dir.lookup (fileFor sha256 pk.key) ∨
      (Machine.run perform dir part).lookup (fileFor sha256 pk.key) = some word := by
  rw [saveKey, h] at hpart
  dsimp only at hpart
  rw [if_pos hrenamed] at hpart
  exact lookup_run_part_of_replace (tmp_ne (isBin_fileFor _)) hpart

/-- A save that copies may leave none, or a part of one. -/
theorem lookup_saveKey_of_copied {word : Bytes} (h : saveKeySync (pk.keyFile marshall) [] = some ((), word))
    (hcopied : t.renamed = false) (hpart : part <+: saveKey sha256 marshall t pk) :
    (Machine.run perform dir part).lookup (fileFor sha256 pk.key) = dir.lookup (fileFor sha256 pk.key) ∨
      (Machine.run perform dir part).lookup (fileFor sha256 pk.key) = none ∨ ∃ front, front <+: word ∧
        (Machine.run perform dir part).lookup (fileFor sha256 pk.key) = some front := by
  rw [saveKey, h] at hpart
  dsimp only at hpart
  rw [if_neg (by simp [hcopied])] at hpart
  exact lookup_run_part_of_overwrite (tmp_ne (isBin_fileFor _)) hpart

theorem lookup_saveKey_cases {word : Bytes} (h : saveKeySync (pk.keyFile marshall) [] = some ((), word))
    (hpart : part <+: saveKey sha256 marshall t pk) :
    (Machine.run perform dir part).lookup (fileFor sha256 pk.key) = dir.lookup (fileFor sha256 pk.key) ∨
      (Machine.run perform dir part).lookup (fileFor sha256 pk.key) = none ∨ ∃ front, front <+: word ∧
        (Machine.run perform dir part).lookup (fileFor sha256 pk.key) = some front := by
  cases hrenamed : t.renamed with
  | true =>
    rcases lookup_saveKey_of_renamed h hrenamed hpart with hsame | hnew
    · exact .inl hsame
    · exact .inr (.inr ⟨word, List.prefix_refl _, hnew⟩)
  | false => exact lookup_saveKey_of_copied h hrenamed hpart

theorem lookup_run_saveKey {word : Bytes} (h : saveKeySync (pk.keyFile marshall) [] = some ((), word)) :
    (Machine.run perform dir (saveKey sha256 marshall t pk)).lookup (fileFor sha256 pk.key) = some word := by
  rw [saveKey, h]
  dsimp only
  split_ifs
  · exact lookup_run_replace _ _ _ _
  · exact lookup_run_overwrite (tmp_ne (isBin_fileFor _)) _ _

theorem mem_walk (dir : KeyDirectory) (order : List KeyPath) : file ∈ walk dir order ↔ file ∈ dir.keys := by
  by_cases h : file ∈ order <;> simp [walk, h]

/-- Of a directory that is cleared, each file is there as it was, or gone; in the end all are gone. -/
theorem lookup_clearAll (order : List KeyPath) (hpart : part <+: (walk dir order).map .delete) :
    (Machine.run perform dir part).lookup file = dir.lookup file ∨
      (Machine.run perform dir part).lookup file = none := by
  obtain ⟨n, rfl⟩ : ∃ n, part = ((walk dir order).take n).map .delete := by
    refine ⟨part.length, ?_⟩
    rw [List.map_take]
    exact List.prefix_iff_eq_take.1 hpart
  rw [lookup_run_deletes]
  split_ifs
  · exact .inr rfl
  · exact .inl rfl

theorem lookup_run_clearAll (order : List KeyPath) :
    (Machine.run perform dir ((walk dir order).map .delete)).lookup file = none := by
  rw [lookup_run_deletes]
  split_ifs with h
  · rfl
  · rw [mem_walk] at h
    exact AList.lookup_eq_none.2 h

end Programs

/-! ## The record of a key -/

section Records

variable (sha256 : Bytes → Bytes) (marshall : KeyMetadata → Bytes) (F : KeyFactories)

def recordAt (dir : KeyDirectory) (k : Key) : Option KeyFile :=
  (dir.lookup (fileFor sha256 k)).bind (readFile F)

/-- What a whole task does to the record of a key. -/
def effectAt (k : Key) (r : Option KeyFile) (t : FileTask) : Option KeyFile :=
  match t.task with
  | .saveKey pk =>
    if pk.key = k ∧ modifiedUtf8Length pk.keyAlias ≤ 65535 then some (pk.stored marshall) else r
  | .deleteKey uid keyAlias => if (⟨uid, keyAlias⟩ : Key) = k then none else r
  | .clearAll => none

/-- Every key file is that of one of the keys, and the beginning of what was written for it. -/
def WellWritten (keys : Set Key) (dir : KeyDirectory) : Prop :=
  ∀ file bytes, dir.lookup file = some bytes → file.isBin = true → ∃ pk word, pk.key ∈ keys ∧
    fileFor sha256 pk.key = file ∧ Written marshall F pk word ∧ bytes <+: word

/-- A save of the key that copies. -/
def Copies (k : Key) (t : FileTask) : Prop := t.renamed = false ∧ ∃ pk, t.task = .saveKey pk ∧ pk.key = k

variable {sha256 marshall F} {keys : Set Key} {dir : KeyDirectory} {t : FileTask} {k : Key}
  {part : List (FileAction KeyPath UInt8)}

theorem recordAt_of_lookup {dir' : KeyDirectory}
    (h : dir'.lookup (fileFor sha256 k) = dir.lookup (fileFor sha256 k)) :
    recordAt sha256 F dir' k = recordAt sha256 F dir k := by
  rw [recordAt, h, recordAt]

theorem recordAt_of_none (h : dir.lookup (fileFor sha256 k) = none) : recordAt sha256 F dir k = none := by
  rw [recordAt, h, Option.bind_none]

theorem recordAt_of_some {bytes : Bytes} (h : dir.lookup (fileFor sha256 k) = some bytes) :
    recordAt sha256 F dir k = readFile F bytes := by
  rw [recordAt, h, Option.bind_some]

section Effects

variable {r : Option KeyFile} {pk : PersistedKey}

theorem effectAt_saveKey (ht : t.task = .saveKey pk) (hfits : modifiedUtf8Length pk.keyAlias ≤ 65535) :
    effectAt marshall pk.key r t = some (pk.stored marshall) := by
  rw [effectAt, ht]
  exact if_pos ⟨rfl, hfits⟩

theorem effectAt_saveKey_of_long (ht : t.task = .saveKey pk) (hlong : 65535 < modifiedUtf8Length pk.keyAlias) :
    effectAt marshall k r t = r := by
  rw [effectAt, ht]
  exact if_neg fun h => absurd h.2 hlong.not_ge

theorem effectAt_deleteKey (ht : t.task = .deleteKey k.uid k.keyAlias) : effectAt marshall k r t = none := by
  rw [effectAt, ht]
  exact if_pos rfl

theorem effectAt_clearAll (ht : t.task = .clearAll) : effectAt marshall k r t = none := by
  rw [effectAt, ht]

theorem effectAt_of_ne {k' : Key} (ht : t.task.key = some k') (hne : k' ≠ k) :
    effectAt marshall k r t = r := by
  rw [effectAt]
  cases htask : t.task with
  | saveKey pk =>
    rw [htask] at ht
    obtain rfl := Option.some.inj ht
    exact if_neg fun h => hne h.1
  | deleteKey uid keyAlias =>
    rw [htask] at ht
    obtain rfl := Option.some.inj ht
    exact if_neg hne
  | clearAll =>
    rw [htask] at ht
    cases ht

end Effects

/-- A task of another key. -/
theorem lookup_part_of_ne {file : KeyPath} {k' : Key} (hbin : file.isBin = true)
    (ht : t.task.key = some k') (hne : fileFor sha256 k' ≠ file) (hpart : part <+: program sha256 marshall dir t) :
    (Machine.run perform dir part).lookup file = dir.lookup file := by
  refine lookup_run_of_not_touches fun a ha => ?_
  have ha := hpart.subset ha
  unfold program at ha
  cases htask : t.task with
  | saveKey pk =>
    rw [htask] at ha ht
    obtain rfl := Option.some.inj ht
    exact not_touches_saveKey hbin hne ha
  | deleteKey uid keyAlias =>
    rw [htask] at ha ht
    obtain rfl := Option.some.inj ht
    obtain rfl := List.mem_singleton.1 ha
    exact hne
  | clearAll =>
    rw [htask] at ht
    cases ht

theorem recordAt_part_of_save {pk : PersistedKey} (hstor : t.Storable marshall F) (ht : t.task = .saveKey pk)
    (hpart : part <+: saveKey sha256 marshall t pk) :
    recordAt sha256 F (Machine.run perform dir part) pk.key = recordAt sha256 F dir pk.key ∨
      recordAt sha256 F (Machine.run perform dir part) pk.key =
        effectAt marshall pk.key (recordAt sha256 F dir pk.key) t ∨
      Copies pk.key t ∧ recordAt sha256 F (Machine.run perform dir part) pk.key = none := by
  rcases hstor.save_cases ht with ⟨hfits, word, hword⟩ | ⟨-, hnone⟩
  · rw [effectAt_saveKey ht hfits]
    cases hrenamed : t.renamed with
    | true =>
      rcases lookup_saveKey_of_renamed hword.writes hrenamed hpart with hsame | hnew
      · exact .inl (recordAt_of_lookup hsame)
      · right; left
        rw [recordAt_of_some hnew, hword.readFile]
    | false =>
      have hcopies : Copies pk.key t := ⟨hrenamed, pk, ht, rfl⟩
      rcases lookup_saveKey_of_copied hword.writes hrenamed hpart with hsame | hgone | ⟨front, hfront, hnew⟩
      · exact .inl (recordAt_of_lookup hsame)
      · exact .inr (.inr ⟨hcopies, recordAt_of_none hgone⟩)
      · rw [recordAt_of_some hnew]
        rcases hword.readFile_front hfront with ⟨-, hread⟩ | hread
        · exact .inr (.inl hread)
        · exact .inr (.inr ⟨hcopies, hread⟩)
  · exact .inl (recordAt_of_lookup (lookup_saveKey_of_none (isBin_fileFor _) hnone hpart))

section Keys

variable (hcoll : NoCollisions sha256 keys) (hkeys : ∀ k', t.task.key = some k' → k' ∈ keys) (hk : k ∈ keys)
include hcoll hkeys hk

theorem recordAt_part_of_ne {k' : Key} (ht : t.task.key = some k') (hne : k' ≠ k)
    (hpart : part <+: program sha256 marshall dir t) :
    recordAt sha256 F (Machine.run perform dir part) k = recordAt sha256 F dir k :=
  recordAt_of_lookup (lookup_part_of_ne (isBin_fileFor _) ht
    (fun h => hne (hcoll.eq_of_fileFor (hkeys k' ht) hk h)) hpart)

/-- A part of a task leaves the record of a key as it is or as the whole task does, unless it copies. -/
theorem recordAt_part (hstor : t.Storable marshall F) (hpart : part <+: program sha256 marshall dir t) :
    recordAt sha256 F (Machine.run perform dir part) k = recordAt sha256 F dir k ∨
      recordAt sha256 F (Machine.run perform dir part) k =
        effectAt marshall k (recordAt sha256 F dir k) t ∨
      Copies k t ∧ recordAt sha256 F (Machine.run perform dir part) k = none := by
  by_cases hne : ∃ k', t.task.key = some k' ∧ k' ≠ k
  · obtain ⟨k', ht, hne⟩ := hne
    exact .inl (recordAt_part_of_ne hcoll hkeys hk ht hne hpart)
  have hkey (k' : Key) (h : t.task.key = some k') : k' = k := by
    by_contra hne'
    exact hne ⟨k', h, hne'⟩
  unfold program at hpart
  cases ht : t.task with
  | saveKey pk =>
    rw [ht] at hpart
    obtain rfl := hkey pk.key (by rw [ht]; rfl)
    exact recordAt_part_of_save hstor ht hpart
  | deleteKey uid keyAlias =>
    rw [ht] at hpart
    obtain rfl := hkey ⟨uid, keyAlias⟩ (by rw [ht]; rfl)
    rw [effectAt_deleteKey ht]
    rcases List.prefix_cons_iff.1 hpart with rfl | ⟨rest, rfl, hrest⟩
    · exact .inl rfl
    · obtain rfl := List.prefix_nil.1 hrest
      exact .inr (.inl (recordAt_of_none (AList.lookup_erase _ _)))
  | clearAll =>
    rw [ht] at hpart
    rw [effectAt_clearAll ht]
    rcases lookup_clearAll t.order hpart with hsame | hgone
    · exact .inl (recordAt_of_lookup hsame)
    · exact .inr (.inl (recordAt_of_none hgone))

theorem recordAt_program (hstor : t.Storable marshall F) :
    recordAt sha256 F (Machine.run perform dir (program sha256 marshall dir t)) k =
      effectAt marshall k (recordAt sha256 F dir k) t := by
  by_cases hne : ∃ k', t.task.key = some k' ∧ k' ≠ k
  · obtain ⟨k', ht, hne⟩ := hne
    rw [effectAt_of_ne ht hne]
    exact recordAt_part_of_ne hcoll hkeys hk ht hne (List.prefix_refl _)
  have hkey (k' : Key) (h : t.task.key = some k') : k' = k := by
    by_contra hne'
    exact hne ⟨k', h, hne'⟩
  unfold program
  cases ht : t.task with
  | saveKey pk =>
    dsimp only
    obtain rfl := hkey pk.key (by rw [ht]; rfl)
    rcases hstor.save_cases ht with ⟨hfits, word, hword⟩ | ⟨hlong, hnone⟩
    · rw [effectAt_saveKey ht hfits, recordAt_of_some (lookup_run_saveKey hword.writes), hword.readFile]
    · rw [effectAt_saveKey_of_long ht hlong]
      exact recordAt_of_lookup (lookup_saveKey_of_none (isBin_fileFor _) hnone (List.prefix_refl _))
  | deleteKey uid keyAlias =>
    obtain rfl := hkey ⟨uid, keyAlias⟩ (by rw [ht]; rfl)
    rw [effectAt_deleteKey ht]
    exact recordAt_of_none (AList.lookup_erase _ _)
  | clearAll =>
    rw [effectAt_clearAll ht]
    exact recordAt_of_none (lookup_run_clearAll t.order)

end Keys

/-- A part of a task keeps the key files well written. -/
theorem WellWritten.keeps (hstor : t.Storable marshall F) (hkeys : ∀ k', t.task.key = some k' → k' ∈ keys)
    (hdir : WellWritten sha256 marshall F keys dir) (hpart : part <+: program sha256 marshall dir t) :
    WellWritten sha256 marshall F keys (Machine.run perform dir part) := by
  intro file bytes hlookup hbin
  by_cases hne : ∃ k', t.task.key = some k' ∧ fileFor sha256 k' ≠ file
  · obtain ⟨k', ht, hne⟩ := hne
    rw [lookup_part_of_ne hbin ht hne hpart] at hlookup
    exact hdir file bytes hlookup hbin
  have hfile (k' : Key) (h : t.task.key = some k') : fileFor sha256 k' = file := by
    by_contra hne'
    exact hne ⟨k', h, hne'⟩
  unfold program at hpart
  cases ht : t.task with
  | saveKey pk =>
    rw [ht] at hpart
    have hown := hfile pk.key (by rw [ht]; rfl)
    have hpk : pk.key ∈ keys := hkeys _ (by rw [ht]; rfl)
    rcases hstor.save_cases ht with ⟨-, word, hword⟩ | ⟨-, hnone⟩
    · obtain rfl := hown
      rcases lookup_saveKey_cases hword.writes hpart with hsame | hgone | ⟨front, hfront, hnew⟩
      · exact hdir _ bytes (hsame.symm.trans hlookup) hbin
      · cases hgone.symm.trans hlookup
      · obtain rfl := Option.some.inj (hnew.symm.trans hlookup)
        exact ⟨pk, word, hpk, rfl, hword, hfront⟩
    · rw [lookup_saveKey_of_none hbin hnone hpart] at hlookup
      exact hdir file bytes hlookup hbin
  | deleteKey uid keyAlias =>
    rw [ht] at hpart
    obtain rfl := hfile ⟨uid, keyAlias⟩ (by rw [ht]; rfl)
    rcases List.prefix_cons_iff.1 hpart with rfl | ⟨rest, rfl, hrest⟩
    · exact hdir _ bytes hlookup hbin
    · obtain rfl := List.prefix_nil.1 hrest
      have hgone : (AList.erase (fileFor sha256 ⟨uid, keyAlias⟩) dir).lookup (fileFor sha256 ⟨uid, keyAlias⟩) = none :=
        AList.lookup_erase _ _
      cases hgone.symm.trans hlookup
  | clearAll =>
    rw [ht] at hpart
    rcases lookup_clearAll t.order hpart with hsame | hgone
    · exact hdir file bytes (hsame.symm.trans hlookup) hbin
    · cases hgone.symm.trans hlookup

/-! ## Loading -/

/-- A file from which a record is read holds the whole word of a save. -/
theorem WellWritten.of_readFile (h : WellWritten sha256 marshall F keys dir) {file : KeyPath} {bytes : Bytes}
    {r : KeyFile} (hlookup : dir.lookup file = some bytes) (hbin : file.isBin = true)
    (hread : readFile F bytes = some r) :
    ∃ pk : PersistedKey, pk.key ∈ keys ∧ fileFor sha256 pk.key = file ∧ r = pk.stored marshall := by
  obtain ⟨pk, word, hpk, hfile, hword, hfront⟩ := h file bytes hlookup hbin
  refine ⟨pk, hpk, hfile, ?_⟩
  rcases hword.readFile_front hfront with ⟨-, hstored⟩ | hnone
  · exact Option.some.inj (hread.symm.trans hstored)
  · cases hread.symm.trans hnone

theorem mem_loadAll {r : KeyFile} (hr : r ∈ loadAll F dir) :
    ∃ file bytes, dir.lookup file = some bytes ∧ file.isBin = true ∧ readFile F bytes = some r := by
  obtain ⟨e, he, hread⟩ := List.mem_filterMap.1 hr
  split_ifs at hread with hbin
  exact ⟨e.1, e.2, HashMap.lookup_eq_some_iff.2 he, hbin, hread⟩

/-- Every record that is loaded is one of the keys, as a save wrote it. -/
theorem WellWritten.of_mem_loadAll (h : WellWritten sha256 marshall F keys dir) {r : KeyFile}
    (hr : r ∈ loadAll F dir) : ∃ pk : PersistedKey, pk.key ∈ keys ∧ r = pk.stored marshall := by
  obtain ⟨file, bytes, hlookup, hbin, hread⟩ := mem_loadAll hr
  obtain ⟨pk, hpk, -, hstored⟩ := h.of_readFile hlookup hbin hread
  exact ⟨pk, hpk, hstored⟩

/-- What is loaded of a key. -/
theorem WellWritten.filter_loadAll (h : WellWritten sha256 marshall F keys dir)
    (hcoll : NoCollisions sha256 keys) (hk : k ∈ keys) :
    (loadAll F dir).filter (·.isOf k) = (recordAt sha256 F dir k).toList := by
  have hentries := HashMap.filter_filterMap_entries dir
    (fun file bytes => if file.isBin then readFile F bytes else none) (·.isOf k) (fileFor sha256 k) ?_
  · refine hentries.trans ?_
    simp only [isBin_fileFor, if_true]
    rfl
  · intro file bytes r hlookup hread
    split_ifs at hread with hbin
    obtain ⟨pk, hpk, rfl, rfl⟩ := h.of_readFile hlookup hbin hread
    rw [isOf_stored]
    constructor
    · rintro rfl
      rfl
    · exact fun heq => hcoll.eq_of_fileFor hpk hk heq

theorem WellWritten.filter_loadAll_of_not_mem (h : WellWritten sha256 marshall F keys dir) (hk : k ∉ keys) :
    (loadAll F dir).filter (·.isOf k) = [] := by
  refine List.filter_eq_nil_iff.2 fun r hr hof => ?_
  obtain ⟨pk, hpk, rfl⟩ := h.of_mem_loadAll hr
  rw [isOf_stored] at hof
  exact hk (hof ▸ hpk)

theorem wellWritten_empty : WellWritten sha256 marshall F keys ∅ := by
  intro file bytes hlookup
  cases hlookup

end Records

end KeyDirectory

/-! ## The files of whole tasks -/

section Settled

open KeyDirectory PersistenceManager

variable {marshall : KeyMetadata → Bytes} {files : HashMap Key PersistedKey} {ts : List FileTask} {k : Key}

theorem lookup_runTask (t : FileTask) :
    ((runTask files t.task).lookup k).map (PersistedKey.keyFile marshall) =
      effectAt marshall k ((files.lookup k).map (PersistedKey.keyFile marshall)) t := by
  unfold effectAt
  cases t.task with
  | saveKey pk =>
    dsimp only [runTask]
    by_cases hfits : modifiedUtf8Length pk.keyAlias ≤ 65535
    · rw [if_pos hfits, HashMap.lookup_insert_ite]
      by_cases hk : k = pk.key
      · rw [if_pos hk, if_pos ⟨hk.symm, hfits⟩]
        rfl
      · rw [if_neg hk, if_neg fun h => hk h.1.symm]
    · rw [if_neg hfits, if_neg fun h => hfits h.2]
  | deleteKey uid keyAlias =>
    dsimp only [runTask]
    rw [HashMap.lookup_erase_ite]
    by_cases hk : k = ⟨uid, keyAlias⟩
    · rw [if_pos hk, if_pos hk.symm]
      rfl
    · rw [if_neg hk, if_neg (Ne.symm hk)]
  | clearAll => rfl

variable (marshall k) in
theorem lookup_runTasks (files : HashMap Key PersistedKey) (ts : List FileTask) :
    (((ts.map FileTask.task).foldl runTask files).lookup k).map (PersistedKey.keyFile marshall) =
      ts.foldl (effectAt marshall k) ((files.lookup k).map (PersistedKey.keyFile marshall)) := by
  induction ts generalizing files with
  | nil => rfl
  | cons t ts ih => rw [List.map_cons, List.foldl_cons, ih, lookup_runTask, List.foldl_cons]

/-- Whole tasks file every record under its key. -/
theorem key_of_lookup_runTasks {pk : PersistedKey}
    (h : ((ts.map FileTask.task).foldl runTask ∅).lookup k = some pk) : pk.key = k := by
  have hrun : ∀ k pk, (Machine.run runTask ∅ (ts.map FileTask.task)).lookup k = some pk → pk.key = k := by
    have hempty : ∀ k pk, (∅ : HashMap Key PersistedKey).lookup k = some pk → pk.key = k := by rintro k pk ⟨⟩
    refine Machine.run_invariant (I := fun files : HashMap Key PersistedKey =>
      ∀ k pk, files.lookup k = some pk → pk.key = k) ?_ hempty
    intro files task hfiles k pk hlookup
    cases task with
    | saveKey pk' =>
      dsimp only [runTask] at hlookup
      split_ifs at hlookup
      · rcases HashMap.lookup_insert_eq_some.1 hlookup with ⟨rfl, rfl⟩ | ⟨-, hlookup⟩
        · rfl
        · exact hfiles k pk hlookup
      · exact hfiles k pk hlookup
    | deleteKey uid keyAlias => exact hfiles k pk (HashMap.lookup_erase_eq_some.1 hlookup).2
    | clearAll => cases hlookup
  exact hrun k pk h

theorem filter_runTasks (marshall : KeyMetadata → Bytes) (ts : List FileTask) (k : Key) :
    ((((ts.map FileTask.task).foldl runTask ∅).entries.map Sigma.snd).map (PersistedKey.keyFile marshall)).filter
        (·.isOf k) =
      ((((ts.map FileTask.task).foldl runTask ∅).lookup k).map (PersistedKey.keyFile marshall)).toList := by
  have hentries := HashMap.filter_filterMap_entries ((ts.map FileTask.task).foldl runTask ∅)
    (fun _ pk => some (pk.keyFile marshall)) (·.isOf k) k ?_
  · rw [List.map_map, ← List.filterMap_eq_map]
    refine hentries.trans (congrArg Option.toList ?_)
    exact Option.map_eq_bind.symm
  · rintro k' pk r hlookup ⟨⟩
    rw [isOf_keyFile, key_of_lookup_runTasks hlookup]

end Settled

/-- Records of keys, compared key by key. -/
theorem perm_of_filter_isOf {l l' : List KeyFile} (h : ∀ r ∈ l, ∃ k, r.isOf k = true)
    (h' : ∀ r ∈ l', ∃ k, r.isOf k = true) (hsame : ∀ k, l.filter (·.isOf k) = l'.filter (·.isOf k)) :
    l.Perm l' := by
  refine List.perm_iff_count.2 fun r => ?_
  by_cases hr : ∃ k, r.isOf k = true
  · obtain ⟨k, hk⟩ := hr
    have hcount (l : List KeyFile) : (l.filter (·.isOf k)).count r = l.count r :=
      List.count_filter (p := (KeyFile.isOf · k)) hk
    rw [← hcount, hsame k, hcount]
  · rw [List.count_eq_zero.2 fun hmem => hr (h r hmem), List.count_eq_zero.2 fun hmem => hr (h' r hmem)]

/-! ## Histories with crashes -/

namespace Demo

/-- The digests of two aliases. -/
def sha256OfAlias (b : Bytes) : Bytes :=
  if b = [97] then
    (ofHex "ca978112ca1bbdcafac231b39a23dc4da786eff8147c4e72b9807785afee48bb".toList).getD []
  else if b = [98] then
    (ofHex "3e23e8160039594a33894f6564e1b1348bbd7a0088d42c4acb73eeaed59c009d".toList).getD []
  else []

def aesKey (keyAlias : String) (nspace : Int) : PersistedKey :=
  { uid := 10001, keyAlias := keyAlias, securityLevel := 1, skipLeafHack := false, nspace := nspace, domain := 0
    keyPair := none, secretKey := some ⟨"AES", [1, 2]⟩, chain := []
    params := { algorithm := Algorithm.AES, keySize := 16 }, metadataBytes := none }

theorem storable_aesKey {t : FileTask} {keyAlias : String} {nspace : Int}
    (ht : t.task = .saveKey (aesKey keyAlias nspace)) (halias : (encodeUtf (javaString keyAlias)).length ≤ 65535)
    (hnspace : FitsBytes 8 nspace) : t.Storable (fun _ => []) keyFactories := by
  intro pk hpk
  obtain rfl : aesKey keyAlias nspace = pk := by
    rw [ht] at hpk
    exact PersistTask.saveKey.inj hpk
  have hparams : KeyGenParameters.Holdable { algorithm := Algorithm.AES, keySize := 16 } := by
    refine ⟨by decide, by decide, by decide, ⟨by decide, by decide⟩, ⟨by decide, by decide⟩,
      ⟨by decide, by decide⟩, ⟨by decide, by decide⟩, ⟨by decide, by decide⟩, by decide, ?_, ?_, ?_, ?_, ?_⟩
    · rintro t ⟨⟩
    · rintro t ⟨⟩
    · rintro t ⟨⟩
    · rintro n ⟨⟩
    · rintro n ⟨⟩
  have huid : FitsBytes 4 10001 := by decide
  have hlevel : FitsBytes 4 1 := by decide
  have hzero : FitsBytes 4 0 := by decide
  refine .inr ⟨⟨huid, halias, hlevel, hnspace, hzero, ?_, ?_, ⟨hzero, ?_⟩, ?_, hparams⟩, ⟨?_, ?_, ?_⟩⟩
  · rintro pair ⟨⟩
  · rintro k ⟨⟩
    decide
  · rintro c ⟨⟩
  · rintro b ⟨⟩
  · rintro pair ⟨⟩
  · rintro k ⟨⟩
    rfl
  · rintro c ⟨⟩

/-- A key is saved, and a second save of it is cut off while it copies. -/
def tornHistory : List (Attempt FileTask) :=
  [⟨{ task := .saveKey (aesKey "a" 5) }, none⟩,
    ⟨{ task := .saveKey (aesKey "a" 6), renamed := false }, some 150⟩]

/-- A save and a deletion that crashes cut off, the save before its file is renamed. -/
def crashHistory : List (Attempt FileTask) :=
  [⟨{ task := .saveKey (aesKey "a" 5) }, none⟩, ⟨{ task := .saveKey (aesKey "b" 6) }, some 9⟩,
    ⟨{ task := .deleteKey 10001 "a" }, some 0⟩]

end Demo

section Histories

open KeyDirectory PersistenceManager

/-- The keys of the tasks. -/
def keysOf (as : List (Attempt FileTask)) : Set Key := { k | ∃ a ∈ as, a.task.task.key = some k }

/-- A save of the key that copies is cut off. -/
def Tears (k : Key) (a : Attempt FileTask) : Prop := a.cutOff ≠ none ∧ Copies k a.task

variable {sha256 : Bytes → Bytes} {marshall : KeyMetadata → Bytes} {F : KeyFactories} {dir : KeyDirectory}
  {as : List (Attempt FileTask)} {a : Attempt FileTask} {ts : List FileTask} {k : Key}

theorem keysOf_of_mem (ha : a ∈ as) : ∀ k', a.task.task.key = some k' → k' ∈ keysOf as :=
  fun _ hk => ⟨a, ha, hk⟩

/-- What is the same, unless it was torn. -/
def SameUnless (torn : Prop) (r r' : Option KeyFile) : Prop := r = r' ∨ torn ∧ r = none

theorem SameUnless.refl {torn : Prop} (r : Option KeyFile) : SameUnless torn r r := .inl rfl

theorem SameUnless.trans {torn : Prop} {r r' r'' : Option KeyFile} (h : SameUnless torn r r')
    (h' : SameUnless torn r' r'') : SameUnless torn r r'' := by
  rcases h with rfl | ⟨htorn, rfl⟩
  · exact h'
  · exact .inr ⟨htorn, rfl⟩

theorem SameUnless.effectAt {torn : Prop} {r r' : Option KeyFile} (h : SameUnless torn r r') (t : FileTask) :
    SameUnless torn (effectAt marshall k r t) (effectAt marshall k r' t) := by
  rcases h with rfl | ⟨htorn, rfl⟩
  · exact .inl rfl
  · unfold KeyDirectory.effectAt
    cases t.task with
    | saveKey pk =>
      dsimp only
      split_ifs
      · exact .inl rfl
      · exact .inr ⟨htorn, rfl⟩
    | deleteKey uid keyAlias => exact .inr ⟨htorn, by simp⟩
    | clearAll => exact .inl rfl

section Steps

variable (hcoll : NoCollisions sha256 (keysOf as)) (hstor : ∀ a ∈ as, a.task.Storable marshall F)
include hcoll hstor

/-- Of one key's record an attempt leaves all or nothing, unless it tears it. -/
theorem allOrNothing_recordAt (hk : k ∈ keysOf as) (ha : a ∈ as) :
    Attempt.AllOrNothing Files.perform (program sha256 marshall) (WellWritten sha256 marshall F (keysOf as))
      (recordAt sha256 F · k) (effectAt marshall k) (SameUnless (∃ a ∈ as, Tears k a)) a where
  keeps dir hdir := Attempt.run_of_prefix a fun _ hpart => hdir.keeps (hstor a ha) (keysOf_of_mem ha) hpart
  finished dir _ hcut := by
    left
    rw [Attempt.run_of_finished hcut]
    exact recordAt_program hcoll (keysOf_of_mem ha) hk (hstor a ha)
  cut dir _ := by
    by_cases hcut : a.cutOff = none
    · left; left
      rw [Attempt.run_of_finished hcut]
      exact recordAt_program hcoll (keysOf_of_mem ha) hk (hstor a ha)
    · refine Attempt.run_of_prefix (P := fun after => SameUnless _ (recordAt sha256 F after k) _ ∨
        SameUnless _ (recordAt sha256 F after k) _) a fun part hpart => ?_
      rcases recordAt_part hcoll (keysOf_of_mem ha) hk (hstor a ha) hpart with hsame | heffect | ⟨hcopies, hnone⟩
      · exact .inr (.inl hsame)
      · exact .inl (.inl heffect)
      · exact .inr (.inr ⟨⟨a, ha, hcut, hcopies⟩, hnone⟩)

/-- Of all records an attempt leaves all or nothing, unless it tears one or stops in the middle of
clearing. -/
theorem allOrNothing_records (ha : a ∈ as) (htears : ∀ k, ¬ Tears k a)
    (hclear : a.task.task = .clearAll → a.cutOff = none) :
    Attempt.AllOrNothing Files.perform (program sha256 marshall) (WellWritten sha256 marshall F (keysOf as))
      (fun dir (k : keysOf as) => recordAt sha256 F dir k) (fun r t k => effectAt marshall k (r k) t)
      (· = ·) a where
  keeps dir hdir := Attempt.run_of_prefix a fun _ hpart => hdir.keeps (hstor a ha) (keysOf_of_mem ha) hpart
  finished dir _ hcut := by
    rw [Attempt.run_of_finished hcut]
    exact funext fun k => recordAt_program hcoll (keysOf_of_mem ha) k.2 (hstor a ha)
  cut dir _ := by
    by_cases hcut : a.cutOff = none
    · left
      rw [Attempt.run_of_finished hcut]
      exact funext fun k => recordAt_program hcoll (keysOf_of_mem ha) k.2 (hstor a ha)
    obtain ⟨own, hown⟩ : ∃ own, a.task.task.key = some own := by
      cases htask : a.task.task with
      | clearAll => exact absurd (hclear htask) hcut
      | saveKey pk => exact ⟨_, rfl⟩
      | deleteKey uid keyAlias => exact ⟨_, rfl⟩
    refine Attempt.run_of_prefix (P := fun after => (fun k : keysOf as => recordAt sha256 F after k) = _ ∨
      (fun k : keysOf as => recordAt sha256 F after k) = _) a fun part hpart => ?_
    -- the records of the other keys stay, whatever was done
    have hother (k : keysOf as) (hne : own ≠ k) :=
      recordAt_part_of_ne (F := F) hcoll (keysOf_of_mem ha) k.2 hown hne hpart
    rcases recordAt_part hcoll (keysOf_of_mem ha) (keysOf_of_mem ha own hown) (hstor a ha) hpart with
      hsame | heffect | ⟨hcopies, -⟩
    · right
      funext k
      by_cases hne : own = k
      · exact hne ▸ hsame
      · exact hother k hne
    · left
      funext k
      by_cases hne : own = k
      · subst hne
        exact heffect
      · dsimp only
        rw [hother k hne, effectAt_of_ne hown hne]
    · exact absurd ⟨hcut, hcopies⟩ (htears own)

end Steps

theorem wellWritten_run (hstor : ∀ a ∈ as, a.task.Storable marshall F) :
    WellWritten sha256 marshall F (keysOf as) (run sha256 marshall ∅ as) := by
  refine Machine.AllSteps.invariant (P := fun _ a => a ∈ as) ?_ wellWritten_empty ?_
  · rintro before a after rfl
    simp
  · intro dir a hdir ha
    exact Attempt.run_of_prefix a fun _ hpart => hdir.keeps (hstor a ha) (keysOf_of_mem ha) hpart

theorem keysOf_of_effective (h : Attempt.Effective as ts) {t : FileTask} (ht : t ∈ ts) {k' : Key}
    (hk : t.task.key = some k') : k' ∈ keysOf as := by
  obtain ⟨a, ha, rfl⟩ := h.subset t ht
  exact ⟨a, ha, hk⟩

/-- Whole tasks of other keys leave no record of a key. -/
theorem lookup_runTasks_of_not_mem (h : Attempt.Effective as ts) (hk : k ∉ keysOf as) :
    ((ts.map FileTask.task).foldl runTask ∅).lookup k = none := by
  have hnone : ∀ t ∈ ts, ∀ k', t.task.key = some k' → k' ≠ k := by
    rintro t ht k' hk' rfl
    exact hk (keysOf_of_effective h ht hk')
  have hfold : ts.foldl (effectAt (fun _ => []) k) none = none := by
    clear h
    induction ts with
    | nil => rfl
    | cons t ts ih =>
      have heffect : effectAt (fun _ => []) k none t = none := by
        by_cases hkey : ∃ k', t.task.key = some k'
        · obtain ⟨k', hkey⟩ := hkey
          exact effectAt_of_ne hkey (hnone t List.mem_cons_self k' hkey)
        · unfold effectAt
          cases htask : t.task with
          | clearAll => rfl
          | saveKey pk => exact absurd ⟨_, by rw [htask]; rfl⟩ hkey
          | deleteKey uid keyAlias => exact absurd ⟨_, by rw [htask]; rfl⟩ hkey
      rw [List.foldl_cons, heffect, ih fun t' ht' => hnone t' (List.mem_cons_of_mem _ ht')]
  have hlookup := lookup_runTasks (fun _ => []) k ∅ ts
  rw [AList.lookup_empty, Option.map_none, hfold] at hlookup
  exact Option.map_eq_none_iff.1 hlookup

/-- What `loadAll` returns for a key after any history of tasks, finished and cut off, is the record that
some history of whole tasks leaves: of all that were finished, and of some of the others.  Only where a
save of this key was cut off while it copied, there may be none. -/
theorem loaded_of_key (hcoll : NoCollisions sha256 (keysOf as)) (hstor : ∀ a ∈ as, a.task.Storable marshall F)
    (k : Key) :
    ∃ ts, Attempt.Effective as ts ∧
      ((loadAll F (run sha256 marshall ∅ as)).filter (·.isOf k) =
        ((({ queue := ts.map FileTask.task } : PersistenceManager).drain.files.lookup k).map
          (PersistedKey.keyFile marshall)).toList ∨
      (∃ a ∈ as, Tears k a) ∧ (loadAll F (run sha256 marshall ∅ as)).filter (·.isOf k) = []) := by
  by_cases hk : k ∈ keysOf as
  · have hall (a : Attempt FileTask) (ha : a ∈ as) := allOrNothing_recordAt hcoll hstor hk ha
    obtain ⟨hwritten, ts, hts, hsame⟩ := Attempt.exists_effective SameUnless.refl (fun _ _ _ => SameUnless.trans)
      (fun _ _ t h => h.effectAt t) hall wellWritten_empty
    refine ⟨ts, hts, ?_⟩
    have hsettled := lookup_runTasks marshall k ∅ ts
    rw [AList.lookup_empty, Option.map_none] at hsettled
    have hloaded := hwritten.filter_loadAll hcoll hk
    rcases hsame with hsame | ⟨htorn, hnone⟩
    · left
      refine hloaded.trans (congrArg Option.toList (hsame.trans ?_))
      exact hsettled.symm
    · exact .inr ⟨htorn, hloaded.trans (by rw [hnone]; rfl)⟩
  · refine ⟨as.map Attempt.task, Attempt.effective_map as, .inl ?_⟩
    rw [(wellWritten_run hstor).filter_loadAll_of_not_mem hk, PersistenceManager.drain,
      lookup_runTasks_of_not_mem (Attempt.effective_map as) hk]
    rfl

open Demo in
theorem loaded_of_key_torn :
    ∃ ts, Attempt.Effective tornHistory ts ∧
      ((KeyDirectory.loadAll keyFactories (run sha256OfAlias (fun _ => []) ∅ tornHistory)).filter
          (·.isOf ⟨10001, "a"⟩) =
        ((({ queue := ts.map FileTask.task } : PersistenceManager).drain.files.lookup ⟨10001, "a"⟩).map
          (PersistedKey.keyFile fun _ => [])).toList ∨
      (∃ a ∈ tornHistory, Tears ⟨10001, "a"⟩ a) ∧
        (KeyDirectory.loadAll keyFactories (run sha256OfAlias (fun _ => []) ∅ tornHistory)).filter
          (·.isOf ⟨10001, "a"⟩) = []) := by
  refine loaded_of_key ?_ ?_ ⟨10001, "a"⟩
  · have hkey (k : Key) (hk : k ∈ keysOf tornHistory) : k = ⟨10001, "a"⟩ := by
      simpa [keysOf, tornHistory, PersistTask.key, PersistedKey.key, aesKey, eq_comm] using hk
    intro k hk k' hk' _
    rw [hkey k hk, hkey k' hk']
  · intro a ha
    rcases List.mem_cons.1 ha with rfl | ha
    · exact storable_aesKey rfl (by decide) (by decide)
    · obtain rfl := List.mem_singleton.1 ha
      exact storable_aesKey rfl (by decide) (by decide)

theorem foldl_pointwise {ι T V : Type*} (g : ι → V → T → V) (ts : List T) (v : ι → V) (i : ι) :
    ts.foldl (fun v t i => g i (v i) t) v i = ts.foldl (g i) (v i) := by
  induction ts generalizing v with
  | nil => rfl
  | cons t ts ih => exact ih _

/-- If no save is cut off while it copies, and no clearing is, then `loadAll` returns the records of one
history of whole tasks: of all that were finished, and of some of the others. -/
theorem loadAll_of_history (hcoll : NoCollisions sha256 (keysOf as))
    (hstor : ∀ a ∈ as, a.task.Storable marshall F) (htears : ∀ a ∈ as, ∀ k, ¬ Tears k a)
    (hclear : ∀ a ∈ as, a.task.task = .clearAll → a.cutOff = none) :
    ∃ ts, Attempt.Effective as ts ∧ (loadAll F (run sha256 marshall ∅ as)).Perm
      (({ queue := ts.map FileTask.task } : PersistenceManager).drain.loadAll.map
        (PersistedKey.keyFile marshall)) := by
  have hall (a : Attempt FileTask) (ha : a ∈ as) :=
    allOrNothing_records hcoll hstor ha (htears a ha) (hclear a ha)
  obtain ⟨-, ts, hts, hsame⟩ := Attempt.exists_effective (fun _ => rfl) (fun _ _ _ => Eq.trans)
    (fun _ _ t h => by rw [h]) hall wellWritten_empty
  have hwritten : WellWritten sha256 marshall F (keysOf as) (run sha256 marshall ∅ as) := wellWritten_run hstor
  refine ⟨ts, hts, perm_of_filter_isOf ?_ ?_ fun k => ?_⟩
  · intro r hr
    obtain ⟨pk, -, rfl⟩ := hwritten.of_mem_loadAll hr
    exact ⟨pk.key, isOf_stored.2 rfl⟩
  · intro r hr
    obtain ⟨pk, -, rfl⟩ := List.mem_map.1 hr
    exact ⟨pk.key, isOf_keyFile.2 rfl⟩
  rw [PersistenceManager.loadAll, PersistenceManager.drain, filter_runTasks]
  by_cases hk : k ∈ keysOf as
  · rw [hwritten.filter_loadAll hcoll hk, lookup_runTasks, AList.lookup_empty, Option.map_none]
    have hrecord := congrFun hsame ⟨k, hk⟩
    rw [foldl_pointwise] at hrecord
    exact congrArg Option.toList hrecord
  · rw [hwritten.filter_loadAll_of_not_mem hk, lookup_runTasks_of_not_mem hts hk]
    rfl

open Demo in
theorem loadAll_of_history_crashes :
    ∃ ts, Attempt.Effective crashHistory ts ∧
      (KeyDirectory.loadAll keyFactories (run sha256OfAlias (fun _ => []) ∅ crashHistory)).Perm
        (({ queue := ts.map FileTask.task } : PersistenceManager).drain.loadAll.map
          (PersistedKey.keyFile fun _ => [])) := by
  have hmem (a : Attempt FileTask) (ha : a ∈ crashHistory) :
      a = ⟨{ task := .saveKey (aesKey "a" 5) }, none⟩ ∨ a = ⟨{ task := .saveKey (aesKey "b" 6) }, some 9⟩ ∨
        a = ⟨{ task := .deleteKey 10001 "a" }, some 0⟩ := by
    simpa [crashHistory] using ha
  refine loadAll_of_history ?_ ?_ ?_ ?_
  · have hkey (k : Key) (hk : k ∈ keysOf crashHistory) : k = ⟨10001, "a"⟩ ∨ k = ⟨10001, "b"⟩ := by
      obtain ⟨a, ha, hkey⟩ := hk
      rcases hmem a ha with rfl | rfl | rfl
      · exact .inl (Option.some.inj hkey).symm
      · exact .inr (Option.some.inj hkey).symm
      · exact .inl (Option.some.inj hkey).symm
    intro k hk k' hk' hdigest
    rcases hkey k hk with rfl | rfl <;> rcases hkey k' hk' with rfl | rfl
    · rfl
    · exact absurd hdigest (by decide)
    · exact absurd hdigest (by decide)
    · rfl
  · intro a ha
    rcases hmem a ha with rfl | rfl | rfl
    · exact storable_aesKey rfl (by decide) (by decide)
    · exact storable_aesKey rfl (by decide) (by decide)
    · rintro pk ⟨⟩
  · rintro a ha k ⟨-, hcopied, -⟩
    rcases hmem a ha with rfl | rfl | rfl <;> cases hcopied
  · intro a ha hclear
    rcases hmem a ha with rfl | rfl | rfl <;> cases hclear

end Histories

end TrickyStore
