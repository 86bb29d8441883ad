import TrickyStore.Model.ConfigFiles

/-!
# The grammar of `target.txt`

A line of the file is blank, a comment, or a package with the suffix of its mode, which a comment may
follow.  The reader looks for a comment at the very start of a line only: it gives every package the mode
of its last line exactly for the files in which no comment stands behind a package or is indented.
-/

open Lib

namespace TrickyStore

/-! ## The documented grammar -/

abbrev Spaces := { l : List Char // ∀ c ∈ l, isWhitespace c = true }

/-- A character of a package name. -/
def isNameChar (c : Char) : Bool := !isWhitespace c && c ≠ '#' && c ≠ '!' && c ≠ '?'

abbrev PackageName := { l : List Char // l ≠ [] ∧ ∀ c ∈ l, isNameChar c = true }

inductive TargetLine where
  | blank (pad : Spaces)
  | comment (indent : Spaces) (text : List Char)
  | package (indent : Spaces) (name : PackageName) (mode : Mode) (pad : Spaces)
  /-- A package with a comment behind it. -/
  | annotated (indent : Spaces) (name : PackageName) (mode : Mode) (gap : Spaces) (hgap : gap.1 ≠ [])
      (text : List Char)

/-- The suffix of a mode. -/
def Mode.suffix : Mode → List Char
  | .AUTO => []
  | .LEAF_HACK => ['?']
  | .GENERATE => ['!']

namespace TargetLine

def text : TargetLine → List Char
  | blank pad => pad
  | comment indent text => indent ++ '#' :: text
  | package indent name mode pad => indent ++ (name ++ mode.suffix) ++ pad
  | annotated indent name mode gap _ text => indent ++ (name ++ mode.suffix) ++ (gap ++ '#' :: text)

/-- The package of the line, with its mode. -/
def entry : TargetLine → Option (String × Mode)
  | package _ name mode _ | annotated _ name mode _ _ _ => some (String.ofList name, mode)
  | _ => none

/-- Neither an indented comment nor a comment behind a package. -/
def Plain : TargetLine → Prop
  | comment indent _ => indent.1 = []
  | annotated .. => False
  | _ => True

end TargetLine

/-- The mode of the last line that names a package. -/
def documentedMode (ls : List TargetLine) (name : String) : Option Mode :=
  lastOf name (ls.filterMap TargetLine.entry)

/-! ## What the reader takes a line for -/

/-- The package and the mode that `readTarget` reads. -/
def readEntry (it : List Char) : Option (String × Mode) :=
  if isNotBlank it && !startsWith it '#' then
    let n := trim isWhitespace it
    some (if endsWith n '!' then (String.ofList (trim isWhitespace (removeSuffix n '!')), .GENERATE)
      else if endsWith n '?' then (String.ofList (trim isWhitespace (removeSuffix n '?')), .LEAF_HACK)
      else (String.ofList n, .AUTO))
  else none

theorem foldl_readTarget (lines : List (List Char)) (modes : HashMap String Mode) :
    lines.foldl PkgConfig.readTarget modes = assignAll modes (lines.filterMap readEntry) := by
  induction lines generalizing modes with
  | nil => rfl
  | cons it lines ih =>
    rw [List.foldl_cons, ih]
    unfold PkgConfig.readTarget
    by_cases h : (isNotBlank it && !startsWith it '#') = true
    · have he : readEntry it = some _ := if_pos h
      rw [List.filterMap_cons_some he, if_pos h]
      simp only
      split_ifs <;> rfl
    · have he : readEntry it = none := if_neg h
      rw [List.filterMap_cons_none he, if_neg h]

theorem lookup_updateTargetPackages (c : PkgConfig) (text : List Char) (name : String) :
    (c.updateTargetPackages (some (some text))).packageModes.lookup name =
      lastOf name ((readLines text).filterMap readEntry) := by
  change ((readLines text).foldl PkgConfig.readTarget ∅).lookup name = _
  rw [foldl_readTarget, lookup_assignAll_empty]

section Lines

variable {indent pad l it : List Char} {c : Char} {mode : Mode}

theorem not_isWhitespace_hash : isWhitespace '#' = false := by decide

theorem isNotBlank_of_mem (h : c ∈ it) (hc : isWhitespace c = false) : isNotBlank it = true := by
  unfold isNotBlank
  rw [Bool.not_eq_true', List.all_eq_false]
  exact ⟨c, h, by simp [hc]⟩

/-- Space in front of a text that does not start with a `#` does not make it start with one. -/
theorem not_startsWith_append (h : ∀ c ∈ indent, isWhitespace c = true) (hl : startsWith l '#' = false) :
    startsWith (indent ++ l) '#' = false := by
  cases indent with
  | nil => exact hl
  | cons d indent =>
    have hd : d ≠ '#' := by
      rintro rfl
      exact absurd (h '#' List.mem_cons_self) (by decide)
    simp [startsWith, hd]

theorem not_endsWith_of_mem (h : ∀ d ∈ l, d ≠ c) : endsWith l c = false := by
  apply decide_eq_false
  intro hlast
  exact h c (List.mem_of_getLast? hlast) rfl

theorem mem_removeSuffix {d : Char} (h : d ∈ it) (hd : d ≠ c) : d ∈ removeSuffix it c := by
  unfold removeSuffix endsWith
  split_ifs with hlast
  · rw [decide_eq_true_eq] at hlast
    have hne : it ≠ [] := List.ne_nil_of_mem h
    rw [← List.dropLast_append_getLast hne, List.mem_append, List.mem_singleton] at h
    rw [List.getLast?_eq_some_getLast hne, Option.some.injEq] at hlast
    rcases h with h | h
    · exact h
    · exact absurd (h.trans hlast) hd
  · exact h

/-- A line with a `#` behind its start is read as a package, under a name with a `#`. -/
theorem readEntry_of_hash (hhash : '#' ∈ it) (hstart : startsWith it '#' = false) :
    ∃ name mode, readEntry it = some (name, mode) ∧ '#' ∈ name.toList := by
  have hn : '#' ∈ trim isWhitespace it := mem_trim hhash not_isWhitespace_hash
  have hsuffix {c : Char} (hc : '#' ≠ c) :
      '#' ∈ (String.ofList (trim isWhitespace (removeSuffix (trim isWhitespace it) c))).toList := by
    rw [String.toList_ofList]
    exact mem_trim (mem_removeSuffix hn hc) not_isWhitespace_hash
  have hcond : (isNotBlank it && !startsWith it '#') = true := by
    rw [isNotBlank_of_mem hhash not_isWhitespace_hash, hstart]
    rfl
  unfold readEntry
  rw [if_pos hcond]
  simp only
  split_ifs
  · exact ⟨_, _, rfl, hsuffix (by decide)⟩
  · exact ⟨_, _, rfl, hsuffix (by decide)⟩
  · exact ⟨_, _, rfl, by rwa [String.toList_ofList]⟩

variable {name : PackageName}

theorem nameChar (h : c ∈ name.1) : isWhitespace c = false ∧ c ≠ '#' ∧ c ≠ '!' ∧ c ≠ '?' := by
  have hc := name.2.2 c h
  unfold isNameChar at hc
  simp only [Bool.and_eq_true, Bool.not_eq_true', decide_eq_true_eq] at hc
  exact ⟨hc.1.1.1, hc.1.1.2, hc.1.2, hc.2⟩

theorem suffix_not_isWhitespace (h : c ∈ mode.suffix) : isWhitespace c = false ∧ c ≠ '#' := by
  cases mode with
  | AUTO => cases h
  | LEAF_HACK | GENERATE =>
    rw [List.mem_singleton.1 h]
    decide

/-- A package with its suffix is a word without a `#`. -/
theorem word_char (h : c ∈ name.1 ++ mode.suffix) : isWhitespace c = false ∧ c ≠ '#' := by
  rcases List.mem_append.1 h with h | h
  · exact ⟨(nameChar h).1, (nameChar h).2.1⟩
  · exact suffix_not_isWhitespace h

theorem trimmed_word : Trimmed isWhitespace (name.1 ++ mode.suffix) :=
  ⟨fun _ h => (word_char (List.mem_of_head? h)).1, fun _ h => (word_char (List.mem_of_getLast? h)).1⟩

theorem not_startsWith_word (rest : List Char) :
    startsWith (name.1 ++ mode.suffix ++ rest) '#' = false := by
  obtain ⟨c, l, hc⟩ := List.exists_cons_of_ne_nil name.2.1
  have hmem : c ∈ name.1 := by
    rw [hc]
    exact List.mem_cons_self
  have hne : c ≠ '#' := (nameChar hmem).2.1
  rw [hc]
  simp [startsWith, hne]

/-- The suffix tells the mode, and what is left of the word is the name. -/
theorem readEntry_package (hindent : ∀ c ∈ indent, isWhitespace c = true)
    (hpad : ∀ c ∈ pad, isWhitespace c = true) :
    readEntry (indent ++ (name.1 ++ mode.suffix) ++ pad) = some (String.ofList name, mode) := by
  have hcond : (isNotBlank (indent ++ (name.1 ++ mode.suffix) ++ pad) &&
      !startsWith (indent ++ (name.1 ++ mode.suffix) ++ pad) '#') = true := by
    obtain ⟨c, hc⟩ := List.exists_mem_of_ne_nil name.1 name.2.1
    have hblank : isNotBlank (indent ++ (name.1 ++ mode.suffix) ++ pad) = true :=
      isNotBlank_of_mem (by simp [hc]) (nameChar hc).1
    rw [hblank, List.append_assoc, not_startsWith_append hindent (not_startsWith_word pad)]
    rfl
  have hname : trim isWhitespace name.1 = name.1 :=
    Trimmed.trim ⟨fun _ h => (nameChar (List.mem_of_head? h)).1,
      fun _ h => (nameChar (List.mem_of_getLast? h)).1⟩
  unfold readEntry
  rw [if_pos hcond, trimmed_word.trim_pad hindent hpad]
  cases mode with
  | AUTO =>
    have hbang : endsWith name.1 '!' = false := not_endsWith_of_mem fun d hd => (nameChar hd).2.2.1
    have hmark : endsWith name.1 '?' = false := not_endsWith_of_mem fun d hd => (nameChar hd).2.2.2
    simp [Mode.suffix, hbang, hmark]
  | LEAF_HACK => simp [Mode.suffix, endsWith, removeSuffix, hname]
  | GENERATE => simp [Mode.suffix, endsWith, removeSuffix, hname]

end Lines

/-! ## The files that are read as documented -/

/-- A plain line is read as documented. -/
theorem readEntry_of_plain {l : TargetLine} (h : l.Plain) : readEntry l.text = l.entry := by
  cases l with
  | blank pad =>
    have hblank : isNotBlank pad.1 = false := by
      unfold isNotBlank
      rw [List.all_eq_true.2 pad.2]
      rfl
    exact if_neg (by simp [hblank, TargetLine.text])
  | comment indent text =>
    have hindent : indent.1 = [] := h
    exact if_neg (by simp [TargetLine.text, hindent, startsWith])
  | package indent name mode pad => exact readEntry_package indent.2 pad.2
  | annotated => exact h.elim

/-- Any other line is read as a package with a `#` in its name. -/
theorem readEntry_of_not_plain {l : TargetLine} (h : ¬ l.Plain) :
    ∃ name mode, readEntry l.text = some (name, mode) ∧ '#' ∈ name.toList := by
  cases l with
  | blank pad => exact absurd trivial h
  | package => exact absurd trivial h
  | comment indent text =>
    apply readEntry_of_hash
    · simp [TargetLine.text]
    · obtain ⟨c, rest, hc⟩ := List.exists_cons_of_ne_nil h
      have hne : c ≠ '#' := by
        rintro rfl
        exact absurd (indent.2 '#' (by rw [hc]; exact List.mem_cons_self)) (by decide)
      simp [TargetLine.text, hc, startsWith, hne]
  | annotated indent name mode gap hgap text =>
    apply readEntry_of_hash
    · simp [TargetLine.text]
    · rw [TargetLine.text, List.append_assoc]
      exact not_startsWith_append indent.2 (not_startsWith_word _)

theorem not_hash_of_entry {l : TargetLine} {name : String} {mode : Mode} (h : l.entry = some (name, mode)) :
    '#' ∉ name.toList := by
  have hname {p : PackageName} (hp : String.ofList p.1 = name) : '#' ∉ name.toList := by
    subst hp
    rw [String.toList_ofList]
    exact fun hmem => (nameChar hmem).2.1 rfl
  cases l with
  | blank | comment => cases h
  | package | annotated =>
    rw [TargetLine.entry, Option.some.injEq, Prod.mk.injEq] at h
    exact hname h.1

/-- No package that the documentation sees has a `#` in its name. -/
theorem documentedMode_of_hash {ls : List TargetLine} {name : String} (h : '#' ∈ name.toList) :
    documentedMode ls name = none := by
  unfold documentedMode
  rw [lastOf_eq_none_iff]
  intro mode hmem
  obtain ⟨l, -, hl⟩ := List.mem_filterMap.1 hmem
  exact not_hash_of_entry hl h

/-- The modes are the documented ones exactly when every line is plain. -/
theorem updateTargetPackages_documented_iff (c : PkgConfig) (text : List Char) (ls : List TargetLine)
    (hlines : readLines text = ls.map TargetLine.text) :
    (∀ name, (c.updateTargetPackages (some (some text))).packageModes.lookup name = documentedMode ls name) ↔
      ∀ l ∈ ls, l.Plain := by
  constructor
  · intro h l hl
    by_contra hplain
    obtain ⟨name, mode, hread, hhash⟩ := readEntry_of_not_plain hplain
    have hnone := h name
    rw [lookup_updateTargetPackages, hlines, documentedMode_of_hash hhash, lastOf_eq_none_iff] at hnone
    exact hnone mode (List.mem_filterMap.2 ⟨l.text, List.mem_map_of_mem hl, hread⟩)
  · intro h name
    rw [lookup_updateTargetPackages, hlines, List.filterMap_map, documentedMode]
    congr 1
    exact List.filterMap_congr fun l hl => readEntry_of_plain (h l hl)

/-- A file that is written line by line has these lines. -/
theorem readLines_text {ls : List TargetLine} (h : ∀ l ∈ ls, ∀ c ∈ l.text, isTerminator c = false) :
    readLines ((ls.map TargetLine.text).flatMap fun line => line ++ ['\n']) = ls.map TargetLine.text := by
  refine readLines_unlines fun line hline c hc => ?_
  obtain ⟨l, hl, rfl⟩ := List.mem_map.1 hline
  exact h l hl c hc

namespace Demo

def noSpace : Spaces := ⟨[], fun _ h => nomatch h⟩

def space : Spaces := ⟨[' '], List.all_eq_true.1 (by decide)⟩

def gsf : PackageName :=
  ⟨"com.google.android.gsf".toList, List.cons_ne_nil _ _, List.all_eq_true.1 (by decide)⟩

def gms : PackageName :=
  ⟨"com.google.android.gms".toList, List.cons_ne_nil _ _, List.all_eq_true.1 (by decide)⟩

/-- The two forms of a target file: a package with a comment behind it, and without one. -/
def annotatedLines : List TargetLine :=
  [.comment noSpace " target.txt".toList,
    .annotated noSpace gsf .AUTO space (List.cons_ne_nil _ _) " automatic".toList,
    .annotated noSpace gms .GENERATE space (List.cons_ne_nil _ _) " explicit".toList]

def plainLines : List TargetLine :=
  [.comment noSpace " target.txt".toList, .package space gsf .AUTO noSpace, .blank space,
    .package noSpace gms .GENERATE space]

def fileOf (ls : List TargetLine) : List Char := (ls.map TargetLine.text).flatMap fun line => line ++ ['\n']

end Demo

open Demo in
/-- The packages of an annotated file are in no mode. -/
theorem updateTargetPackages_annotated :
    readLines (fileOf annotatedLines) = annotatedLines.map TargetLine.text ∧
      documentedMode annotatedLines "com.google.android.gsf" = some .AUTO ∧
      documentedMode annotatedLines "com.google.android.gms" = some .GENERATE ∧
      (({} : PkgConfig).updateTargetPackages (some (some (fileOf annotatedLines)))).packageModes.lookup
        "com.google.android.gsf" = none ∧
      (({} : PkgConfig).updateTargetPackages (some (some (fileOf annotatedLines)))).packageModes.lookup
        "com.google.android.gms" = none := by
  decide

open Demo in
theorem updateTargetPackages_documented_iff_plain :
    (({} : PkgConfig).updateTargetPackages (some (some (fileOf plainLines)))).packageModes.lookup
      "com.google.android.gms" = some .GENERATE := by
  have hterminated : (plainLines.all fun l => l.text.all fun c => !isTerminator c) = true := by decide
  have hlines : readLines (fileOf plainLines) = plainLines.map TargetLine.text := by
    refine readLines_text fun l hl c hc => ?_
    simpa using List.all_eq_true.1 (List.all_eq_true.1 hterminated l hl) c hc
  have hplain : ∀ l ∈ plainLines, l.Plain := by
    simp [plainLines, TargetLine.Plain, noSpace]
  rw [(updateTargetPackages_documented_iff {} _ _ hlines).2 hplain]
  decide

end TrickyStore
