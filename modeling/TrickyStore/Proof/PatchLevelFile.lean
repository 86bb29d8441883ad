import TrickyStore.Proof.PatchDates
import TrickyStore.Proof.TargetGrammar

/-!
# The grammar of `security_patch.txt`

The lines under the headers of one package are its block, those above every header the global block.  The
reader merges `all` into the components of a block and falls back to the global block when a level is read;
what comes out is the last assignment of the component in the package's block, else the last of `all`, else
the same two in the global block, else the property.
-/

open Lib

namespace TrickyStore

/-! ## The documented grammar -/

abbrev SectionName := { l : List Char // l ≠ [] ∧ ∀ c ∈ l, PatchLevels.isSectionChar c = true }

inductive PatchKey where
  | component (c : Component)
  | all
deriving DecidableEq

def PatchKey.name : PatchKey → List Char
  | component .system => "system".toList
  | component .vendor => "vendor".toList
  | component .boot => "boot".toList
  | all => "all".toList

/-- A key in any case. -/
abbrev KeyText (key : PatchKey) := { l : List Char // lowercase l = key.name }

inductive PatchLine where
  | blank (pad : Spaces)
  | comment (indent : Spaces) (text : List Char)
  | header (indent : Spaces) (name : SectionName) (pad : Spaces)
  | setting (indent : Spaces) (key : PatchKey) (keyText : KeyText key) (gap gap' : Spaces)
      (value : PatchValue) (pad : Spaces)
  /-- A value without a key. -/
  | bare (indent : Spaces) (value : PatchValue) (pad : Spaces)

namespace PatchLine

/-- The line without the space around it. -/
def content : PatchLine → List Char
  | blank _ => []
  | comment _ text => '#' :: text
  | header _ name _ => '[' :: (name ++ [']'])
  | setting _ _ keyText gap gap' value _ => keyText ++ (gap ++ '=' :: (gap' ++ value.text))
  | bare _ value _ => value.text

def indent : PatchLine → Spaces
  | blank pad => pad
  | comment indent _ | header indent _ _ | setting indent .. | bare indent _ _ => indent

def pad : PatchLine → List Char
  | blank _ | comment _ _ => []
  | header _ _ pad | setting _ _ _ _ _ _ pad | bare _ _ pad => pad

def text (l : PatchLine) : List Char := l.indent ++ l.content ++ l.pad

def value : PatchLine → Option PatchValue
  | setting _ _ _ _ _ value _ | bare _ value _ => some value
  | _ => none

/-- The key that the line assigns; a bare value is for all. -/
def entry : PatchLine → Option (PatchKey × PatchValue)
  | setting _ key _ _ _ value _ => some (key, value)
  | bare _ value _ => some (.all, value)
  | _ => none

def IsBare : PatchLine → Prop
  | bare .. => True
  | _ => False

def UsesYear (l : PatchLine) : Prop := ∃ v, l.value = some v ∧ v.UsesYear

end PatchLine

/-- The assignments and bare values under the headers of `package`, from a place under `current` on. -/
def block (package : String) (current : String) : List PatchLine → List PatchLine
  | [] => []
  | l :: ls =>
    match l with
    | .header _ name _ => block package (String.ofList name) ls
    | .blank _ | .comment _ _ => block package current ls
    | .setting .. | .bare .. => (if current = package then [l] else []) ++ block package current ls

/-- The lines that hold for a package; those above every header hold for the empty name. -/
def packageBlock (ls : List PatchLine) (package : String) : List PatchLine := block package "" ls

/-- The last assignment of the component in the block, else the last of all. -/
def assigned (ls : List PatchLine) (c : Component) : Option PatchValue :=
  (lastOf (.component c) (ls.filterMap PatchLine.entry)).or (lastOf .all (ls.filterMap PatchLine.entry))

/-- The documented value of a component for a package. -/
def resolution (ls : List PatchLine) (package : String) (c : Component) : PatchValue :=
  ((assigned (packageBlock ls package) c).or (assigned (packageBlock ls "") c)).getD .prop

/-- Every line is documented, and a bare value is the only line of its block. -/
structure DocumentedFile (text : List Char) (ls : List PatchLine) : Prop where
  lines : readLines text = ls.map PatchLine.text
  bare (package : String) : ∀ l ∈ packageBlock ls package, l.IsBare → (packageBlock ls package).length = 1

/-! ## What the reader takes a line for -/

/-- Neither space nor a character that means something to the reader. -/
def isWordChar (c : Char) : Bool := !isWhitespace c && c ∉ ['=', '#', '[']

theorem isWordChar_spec {c : Char} (h : isWordChar c = true) :
    isWhitespace c = false ∧ c ≠ '=' ∧ c ≠ '#' ∧ c ≠ '[' := by
  unfold isWordChar at h
  simp only [Bool.and_eq_true, Bool.not_eq_true', decide_eq_true_eq, List.mem_cons, List.not_mem_nil,
    or_false, not_or] at h
  exact h

theorem isWordChar_of_toLower {c : Char} (h : isWordChar c.toLower = true) : isWordChar c = true := by
  unfold Char.toLower at h
  split_ifs at h with hupper
  · obtain ⟨hle, hle'⟩ := hupper
    have hle : 65 ≤ c.toNat := UInt32.le_iff_toNat_le.1 hle
    have hle' : c.toNat ≤ 90 := UInt32.le_iff_toNat_le.1 hle'
    have hspace : isWhitespace c = false := by
      unfold isWhitespace
      simp only [Bool.or_eq_false_iff, Bool.and_eq_false_iff, decide_eq_false_iff_not]
      omega
    have hsign : c ∉ ['=', '#', '['] := by
      intro hmem
      simp only [List.mem_cons, List.not_mem_nil, or_false] at hmem
      rcases hmem with rfl | rfl | rfl
      · exact absurd hle (by decide)
      · exact absurd hle (by decide)
      · exact absurd hle' (by decide)
    unfold isWordChar
    rw [hspace]
    simpa using hsign
  · exact h

/-- A nonempty word of word characters. -/
def IsWord (s : List Char) : Prop := s ≠ [] ∧ ∀ c ∈ s, isWordChar c = true

section Words

variable {s t : List Char} {c : Char}

theorem IsWord.trimmed_ends {u : List Char} (hs : IsWord s) (ht : IsWord t) :
    Trimmed isWhitespace (s ++ (u ++ t)) := by
  constructor
  · intro c hc
    rw [List.head?_append_of_ne_nil _ hs.1] at hc
    exact (isWordChar_spec (hs.2 c (List.mem_of_head? hc))).1
  · intro c hc
    rw [← List.append_assoc, List.getLast?_append_of_ne_nil _ ht.1] at hc
    exact (isWordChar_spec (ht.2 c (List.mem_of_getLast? hc))).1

theorem IsWord.trimmed (hs : IsWord s) : Trimmed isWhitespace s :=
  ⟨fun c hc => (isWordChar_spec (hs.2 c (List.mem_of_head? hc))).1,
    fun c hc => (isWordChar_spec (hs.2 c (List.mem_of_getLast? hc))).1⟩

theorem isWord_key {key : PatchKey} (l : KeyText key) : IsWord l.1 := by
  have hname : IsWord key.name := by
    rcases key with (_ | _ | _) | _ <;> exact ⟨List.cons_ne_nil _ _, List.all_eq_true.1 (by decide)⟩
  have hlower : l.1.map Char.toLower = key.name := l.2
  rw [← hlower] at hname
  exact ⟨fun hnil => hname.1 (by rw [hnil]; rfl),
    fun c hc => isWordChar_of_toLower (hname.2 _ (List.mem_map_of_mem hc))⟩

theorem isWordChar_fieldText {letter : Char} {w bound : ℕ} {field : Option (Fin bound)}
    (hletter : isWordChar letter = true) (h : c ∈ fieldText letter w field) : isWordChar c = true := by
  cases field with
  | some n =>
    obtain ⟨d, hd, rfl⟩ := List.mem_map.1 h
    have hall : ∀ d < 10, isWordChar (Char.ofNat (0x30 + d)) = true := by decide
    exact hall d (lt_of_mem_padded hd)
  | none => rwa [List.eq_of_mem_replicate h]

theorem isWord_value (v : PatchValue) : IsWord v.text := by
  cases v with
  | no | device_default | prop => exact ⟨List.cons_ne_nil _ _, List.all_eq_true.1 (by decide)⟩
  | date year month day =>
    have hlen := @AndroidUtils.length_date year month day
    constructor
    · intro hnil
      rw [hnil] at hlen
      exact absurd hlen (by decide)
    · intro c hc
      have hseparator : ∀ c ∈ day.separator, isWordChar c = true := by
        cases day with
        | dashed =>
          intro c h
          rw [List.mem_singleton.1 h]
          decide
        | compact | absent => exact fun _ h => nomatch h
      have hday : ∀ c ∈ day.text, isWordChar c = true := by
        cases day with
        | dashed | compact => exact fun c h => isWordChar_fieldText (by decide) h
        | absent => exact fun _ h => nomatch h
      change c ∈ joined _ _ _ _ at hc
      unfold joined at hc
      simp only [List.mem_append] at hc
      rcases hc with h | h | h | h | h
      · exact isWordChar_fieldText (by decide) h
      · exact hseparator c h
      · exact isWordChar_fieldText (by decide) h
      · exact hseparator c h
      · exact hday c h

end Words

namespace PatchLevels

open PatchLine

variable {s : Contexts} {l : PatchLine}

/-- A line that does not start with a bracket is no header. -/
theorem patchSection_eq_none {t : List Char} (h : t.head? ≠ some '[') : patchSection t = none := by
  have hhead : (removeSuffix t '\u0085').head? ≠ some '[' := by
    unfold removeSuffix
    split_ifs
    · intro heq
      obtain ⟨rest, hrest⟩ := List.head?_eq_some_iff.1 heq
      obtain ⟨tail, htail⟩ := List.dropLast_prefix t
      rw [hrest] at htail
      exact h (by rw [← htail]; rfl)
    · exact h
  unfold patchSection
  split
  · rename_i rest heq
    rw [heq] at hhead
    exact absurd rfl hhead
  · rfl

theorem patchSection_header (name : SectionName) : patchSection ('[' :: (name.1 ++ [']'])) = some name.1 := by
  have hlast : endsWith ('[' :: (name.1 ++ [']'])) '\u0085' = false := by
    rw [endsWith, ← List.cons_append, List.getLast?_append_of_ne_nil _ (List.cons_ne_nil _ _)]
    decide
  have hname : name.1.all isSectionChar = true := List.all_eq_true.2 name.2.2
  unfold patchSection removeSuffix
  rw [hlast]
  simp [name.2.1, hname]

theorem readLine_of_trim {t x : List Char} (htrim : trim isWhitespace t = x) (hne : x ≠ [])
    (hhash : startsWith x '#' = false) :
    s.readLine t = match patchSection x with
      | some name => { s with current := String.ofList name }
      | none => s.add x := by
  subst htrim
  exact if_neg (by simp [hne, hhash])

/-- Space and comments change nothing. -/
theorem readLine_comment (indent : Spaces) (text : List Char) :
    s.readLine (PatchLine.comment indent text).text = s := by
  have hhead : (trim isWhitespace (indent ++ '#' :: (text ++ []))).head? = some '#' :=
    head?_trim indent.2 not_isWhitespace_hash
  have htext : (PatchLine.comment indent text).text = indent ++ '#' :: (text ++ []) := by
    simp [PatchLine.text, PatchLine.indent, content, pad]
  rw [htext, Contexts.readLine]
  rw [List.append_nil] at hhead ⊢
  exact if_pos (by simp [startsWith, hhead])

theorem readLine_blank (pad : Spaces) : s.readLine (PatchLine.blank pad).text = s := by
  have htext : (PatchLine.blank pad).text = pad.1 := by
    simp [PatchLine.text, PatchLine.indent, content, PatchLine.pad]
  rw [htext, Contexts.readLine, trim_of_all pad.2]
  rfl

theorem isWhitespace_bracket : isWhitespace '[' = false ∧ isWhitespace ']' = false := by decide

theorem readLine_header (indent : Spaces) (name : SectionName) (pad : Spaces) :
    s.readLine (PatchLine.header indent name pad).text = { s with current := String.ofList name } := by
  have htrimmed : Trimmed isWhitespace ('[' :: (name.1 ++ [']'])) := by
    constructor
    · intro c hc
      cases hc
      exact isWhitespace_bracket.1
    · intro c hc
      rw [← List.cons_append, List.getLast?_append_of_ne_nil _ (List.cons_ne_nil _ _)] at hc
      cases hc
      exact isWhitespace_bracket.2
  have htrim : trim isWhitespace (PatchLine.header indent name pad).text = '[' :: (name.1 ++ [']']) :=
    htrimmed.trim_pad indent.2 pad.2
  rw [readLine_of_trim htrim (List.cons_ne_nil _ _) (by simp [startsWith]), patchSection_header]

/-- What is neither space nor a comment nor a header is a line of the block. -/
theorem readLine_add {t : List Char} {c : Char} {rest : List Char} (hc : isWordChar c = true)
    (htrim : trim isWhitespace t = c :: rest) : s.readLine t = s.add (c :: rest) := by
  obtain ⟨-, -, hhash, hbracket⟩ := isWordChar_spec hc
  have hnone : patchSection (c :: rest) = none := by
    apply patchSection_eq_none
    simpa using hbracket
  rw [readLine_of_trim htrim (List.cons_ne_nil _ _) (by simp [startsWith, hhash]), hnone]

theorem IsWord.exists_cons {t : List Char} (h : IsWord t) : ∃ c rest, t = c :: rest ∧ isWordChar c = true := by
  obtain ⟨c, rest, rfl⟩ := List.exists_cons_of_ne_nil h.1
  exact ⟨c, rest, rfl, h.2 c List.mem_cons_self⟩

theorem readLine_setting (indent : Spaces) (key : PatchKey) (keyText : KeyText key) (gap gap' : Spaces)
    (value : PatchValue) (pad : Spaces) :
    s.readLine (PatchLine.setting indent key keyText gap gap' value pad).text =
      s.add (PatchLine.setting indent key keyText gap gap' value pad).content := by
  have htrimmed : Trimmed isWhitespace (PatchLine.setting indent key keyText gap gap' value pad).content := by
    have hends : Trimmed isWhitespace (keyText.1 ++ ((gap.1 ++ '=' :: gap'.1) ++ value.text)) :=
      (isWord_key keyText).trimmed_ends (isWord_value value)
    simpa [content] using hends
  have htrim := htrimmed.trim_pad indent.2 pad.2
  obtain ⟨c, rest, hkey, hc⟩ := IsWord.exists_cons (isWord_key keyText)
  have hcontent : (PatchLine.setting indent key keyText gap gap' value pad).content =
      c :: (rest ++ (gap.1 ++ '=' :: (gap'.1 ++ value.text))) := by
    rw [content, hkey]
    rfl
  rw [hcontent] at htrim ⊢
  rw [← hcontent] at htrim
  exact readLine_add hc (htrim.trans hcontent)

theorem readLine_bare (indent : Spaces) (value : PatchValue) (pad : Spaces) :
    s.readLine (PatchLine.bare indent value pad).text = s.add value.text := by
  have htrim := (isWord_value value).trimmed.trim_pad indent.2 pad.2
  obtain ⟨c, rest, hvalue, hc⟩ := IsWord.exists_cons (isWord_value value)
  change s.readLine (indent.1 ++ value.text ++ pad.1) = _
  rw [hvalue] at htrim ⊢
  exact readLine_add hc htrim

/-! ## The lines of a context -/

/-- The lines under the headers of a package so far. -/
def Contexts.linesOf (s : Contexts) (package : String) : List (List Char) :=
  (s.contexts.lookup package).getD []

theorem linesOf_add (s : Contexts) (package : String) (x : List Char) :
    (s.add x).linesOf package = s.linesOf package ++ (if s.current = package then [x] else []) := by
  unfold Contexts.linesOf Contexts.add
  rw [HashMap.lookup_insert_ite]
  by_cases h : s.current = package
  · subst h
    rw [if_pos rfl, if_pos rfl]
    rfl
  · rw [if_neg h, if_neg (Ne.symm h), List.append_nil]

/-- The lines of a context are the block of its package. -/
theorem linesOf_foldl (ls : List PatchLine) (s : Contexts) (package : String) :
    ((ls.map PatchLine.text).foldl Contexts.readLine s).linesOf package =
      s.linesOf package ++ (block package s.current ls).map PatchLine.content := by
  induction ls generalizing s with
  | nil => simp [block]
  | cons l ls ih =>
    have hadd (x : List Char) (hread : s.readLine l.text = s.add x) (hx : x = l.content)
        (hblock : block package s.current (l :: ls) =
          (if s.current = package then [l] else []) ++ block package s.current ls) :
        ((l.text :: ls.map PatchLine.text).foldl Contexts.readLine s).linesOf package =
          s.linesOf package ++ (block package s.current (l :: ls)).map PatchLine.content := by
      have hcurrent : (s.add x).current = s.current := rfl
      rw [List.foldl_cons, hread, ih, linesOf_add, hcurrent, hblock, List.map_append, List.append_assoc, hx]
      split_ifs <;> rfl
    rw [List.map_cons]
    cases l with
    | blank pad =>
      rw [List.foldl_cons, readLine_blank, ih]
      rfl
    | comment indent text =>
      rw [List.foldl_cons, readLine_comment, ih]
      rfl
    | header indent name pad =>
      rw [List.foldl_cons, readLine_header, ih]
      rfl
    | setting indent key keyText gap gap' value pad =>
      exact hadd _ (readLine_setting indent key keyText gap gap' value pad) rfl rfl
    | bare indent value pad => exact hadd _ (readLine_bare indent value pad) rfl rfl

/-! ## The parse of a block -/

theorem foldl_readAssignment (lines : List (List Char)) (map : HashMap (List Char) (List Char)) :
    lines.foldl readAssignment map = assignAll map (lines.filterMap assignment) := by
  induction lines generalizing map with
  | nil => rfl
  | cons line lines ih =>
    rw [List.foldl_cons, ih, readAssignment]
    cases h : assignment line with
    | none => rw [List.filterMap_cons_none h]
    | some e =>
      rw [List.filterMap_cons_some h]
      rfl

theorem isWhitespace_ne_equals {c : Char} (h : isWhitespace c = true) : c ≠ '=' := by
  rintro rfl
  exact absurd h (by decide)

/-- A setting assigns its value to its key. -/
theorem assignment_setting (indent : Spaces) (key : PatchKey) (keyText : KeyText key) (gap gap' : Spaces)
    (value : PatchValue) (pad : Spaces) :
    assignment (PatchLine.setting indent key keyText gap gap' value pad).content =
      some (key.name, value.text) := by
  have hkey : ∀ c ∈ keyText.1 ++ gap.1, decide (c ≠ '=') = true := by
    intro c hc
    apply decide_eq_true
    rcases List.mem_append.1 hc with hc | hc
    · exact (isWordChar_spec ((isWord_key keyText).2 c hc)).2.1
    · exact isWhitespace_ne_equals (gap.2 c hc)
  have hcontent : (PatchLine.setting indent key keyText gap gap' value pad).content =
      (keyText.1 ++ gap.1) ++ '=' :: (gap'.1 ++ value.text) := by
    rw [content, List.append_assoc]
  have htake : ((keyText.1 ++ gap.1) ++ '=' :: (gap'.1 ++ value.text)).takeWhile (· ≠ '=') =
      keyText.1 ++ gap.1 := by
    rw [List.takeWhile_append_of_pos hkey]
    simp
  have hdrop : ((keyText.1 ++ gap.1) ++ '=' :: (gap'.1 ++ value.text)).dropWhile (· ≠ '=') =
      '=' :: (gap'.1 ++ value.text) := by
    rw [dropWhile_pad hkey]
    simp
  have hname : lowercase (trim isWhitespace (keyText.1 ++ gap.1)) = key.name := by
    rw [(isWord_key keyText).trimmed.trim_right gap.2]
    exact keyText.2
  have hne : keyText.1 ++ gap.1 ≠ [] := List.append_ne_nil_of_left_ne_nil (isWord_key keyText).1 _
  have hvalue : trim isWhitespace (gap'.1 ++ value.text) = value.text :=
    (isWord_value value).trimmed.trim_left gap'.2
  unfold assignment
  rw [hcontent, htake, hdrop]
  simp only
  rw [if_pos (by simp [hne]), hname, List.drop_one, List.tail_cons, hvalue]

theorem name_injective : Function.Injective PatchKey.name := by
  intro key key'
  rcases key with (_ | _ | _) | _ <;> rcases key' with (_ | _ | _) | _ <;> decide

/-- A line that assigns. -/
def Assigns (l : PatchLine) : Prop := l.entry ≠ none

theorem assigns_of_mem_block {ls : List PatchLine} {package current : String}
    (h : l ∈ block package current ls) : Assigns l := by
  induction ls generalizing current with
  | nil => cases h
  | cons l' ls ih =>
    have hstep (he : Assigns l')
        (h : l ∈ (if current = package then [l'] else []) ++ block package current ls) : Assigns l := by
      rcases List.mem_append.1 h with h | h
      · split_ifs at h
        · rwa [List.mem_singleton.1 h]
        · cases h
      · exact ih h
    cases l' with
    | blank | comment | header => exact ih h
    | setting | bare => exact hstep (fun h => nomatch h) h

/-- In a block without bare values, what the reader assigns is what the lines assign. -/
theorem filterMap_assignment {ls : List PatchLine} (hassigns : ∀ l ∈ ls, Assigns l)
    (hbare : ∀ l ∈ ls, ¬ l.IsBare) :
    (ls.map PatchLine.content).filterMap assignment =
      (ls.filterMap PatchLine.entry).map fun e => (e.1.name, e.2.text) := by
  induction ls with
  | nil => rfl
  | cons l ls ih =>
    have hrest := ih (fun l' h => hassigns l' (List.mem_cons_of_mem l h))
      (fun l' h => hbare l' (List.mem_cons_of_mem l h))
    rw [List.map_cons]
    cases l with
    | blank | comment | header => exact absurd rfl (hassigns _ List.mem_cons_self)
    | bare => exact absurd trivial (hbare _ List.mem_cons_self)
    | setting indent key keyText gap gap' value pad =>
      rw [List.filterMap_cons_some (assignment_setting indent key keyText gap gap' value pad), hrest]
      rfl

theorem equals_mem_setting {l : PatchLine} (hassigns : Assigns l) (hbare : ¬ l.IsBare) : '=' ∈ l.content := by
  cases l with
  | blank | comment | header => exact absurd rfl hassigns
  | bare => exact absurd trivial hbare
  | setting => simp [content]

/-- What a parsed block has for a component, or else for all. -/
def found (level : Option CustomPatchLevel) (c : Component) : Option (List Char) :=
  (level.bind (·.get c)).or (level.bind (·.all))

theorem found_settings {ls : List PatchLine} (hassigns : ∀ l ∈ ls, Assigns l)
    (hbare : ∀ l ∈ ls, ¬ l.IsBare) (c : Component) :
    found (parsePatchContext (ls.map PatchLine.content)) c = (assigned ls c).map PatchValue.text := by
  cases ls with
  | nil => rfl
  | cons l ls =>
    have hlookup (key : PatchKey) :
        ((((l :: ls).map PatchLine.content).foldl readAssignment ∅).lookup key.name) =
          (lastOf key ((l :: ls).filterMap PatchLine.entry)).map PatchValue.text := by
      rw [foldl_readAssignment, lookup_assignAll_empty, filterMap_assignment hassigns hbare,
        lastOf_map name_injective]
    have hequals := equals_mem_setting (hassigns l List.mem_cons_self) (hbare l List.mem_cons_self)
    have hparse : parsePatchContext ((l :: ls).map PatchLine.content) =
        let map := ((l :: ls).map PatchLine.content).foldl readAssignment ∅
        some
          { system := (map.lookup "system".toList).or (map.lookup "all".toList)
            vendor := (map.lookup "vendor".toList).or (map.lookup "all".toList)
            boot := (map.lookup "boot".toList).or (map.lookup "all".toList)
            all := map.lookup "all".toList } := by
      unfold parsePatchContext
      rw [if_neg (by simp), if_neg (by simp [hequals])]
    have hall := hlookup .all
    have hcomponent := hlookup (.component c)
    have hmerged (o o' : Option (List Char)) : (o.or o').or o' = o.or o' := by
      rw [Option.or_assoc, Option.or_self]
    rw [hparse, found, assigned, Option.map_or, ← hall, ← hcomponent]
    cases c with
    | system => exact hmerged _ _
    | vendor => exact hmerged _ _
    | boot => exact hmerged _ _

theorem found_bare (indent : Spaces) (value : PatchValue) (pad : Spaces) (c : Component) :
    found (parsePatchContext ([PatchLine.bare indent value pad].map PatchLine.content)) c =
      (assigned [PatchLine.bare indent value pad] c).map PatchValue.text := by
  have hequals : '=' ∉ value.text := fun h => (isWordChar_spec ((isWord_value value).2 _ h)).2.1 rfl
  have hparse : parsePatchContext [value.text] = some { all := some value.text } := by
    unfold parsePatchContext
    rw [if_neg (List.cons_ne_nil _ _), if_pos (by simp [hequals])]
    rfl
  rw [List.map_cons, List.map_nil, content, hparse]
  cases c <;> rfl

/-- A block is parsed into what its last assignments say. -/
theorem found_block {ls : List PatchLine} (hassigns : ∀ l ∈ ls, Assigns l)
    (hbare : ∀ l ∈ ls, l.IsBare → ls.length = 1) (c : Component) :
    found (parsePatchContext (ls.map PatchLine.content)) c = (assigned ls c).map PatchValue.text := by
  by_cases h : ∃ l ∈ ls, l.IsBare
  · obtain ⟨l, hl, hlbare⟩ := h
    obtain ⟨l', rfl⟩ := List.length_eq_one_iff.1 (hbare l hl hlbare)
    rw [List.mem_singleton.1 hl] at hlbare
    cases l' with
    | blank | comment | header | setting => exact hlbare.elim
    | bare indent value pad => exact found_bare indent value pad c
  · exact found_settings hassigns (fun l hl hlbare => h ⟨l, hl, hlbare⟩) c

/-! ## The file -/

theorem lookup_parseContexts (contexts : HashMap String (List (List Char))) (package : String) :
    (parseContexts contexts).lookup package = parsePatchContext ((contexts.lookup package).getD []) := by
  have hfold (es : List (Sigma fun _ : String => List (List Char))) (m : HashMap String CustomPatchLevel) :
      es.foldl (fun parsed e => parseContext parsed e.1 e.2) m =
        assignAll m (es.filterMap fun e => (parsePatchContext e.2).map fun level => (e.1, level)) := by
    induction es generalizing m with
    | nil => rfl
    | cons e es ih =>
      rw [List.foldl_cons, ih, parseContext]
      cases h : parsePatchContext e.2 with
      | none => rw [List.filterMap_cons_none (by rw [h]; rfl)]
      | some level =>
        rw [List.filterMap_cons_some (by rw [h]; rfl)]
        rfl
  rw [parseContexts, hfold, lookup_assignAll_empty, lastOf_entries]
  cases contexts.lookup package <;> rfl

/-- What a file leaves for a package; the empty name stands for no package. -/
theorem found_updatePatchLevel {text : List Char} {ls : List PatchLine} (h : DocumentedFile text ls)
    (p : PatchLevels) (c : Component) :
    found (p.updatePatchLevel (some (some text))).globalPatchLevel c =
        (assigned (packageBlock ls "") c).map PatchValue.text ∧
      ∀ package, package ≠ "" →
        found ((p.updatePatchLevel (some (some text))).packagePatchLevels.lookup package) c =
          (assigned (packageBlock ls package) c).map PatchValue.text := by
  have hcontext (package : String) :
      found ((parseContexts ((readLines text).foldl Contexts.readLine {}).contexts).lookup package) c =
        (assigned (packageBlock ls package) c).map PatchValue.text := by
    have hlines := linesOf_foldl ls {} package
    rw [lookup_parseContexts, h.lines]
    change found (parsePatchContext (Contexts.linesOf _ package)) c = _
    rw [hlines]
    exact found_block (fun l hl => assigns_of_mem_block hl) (h.bare package) c
  refine ⟨hcontext "", fun package hne => ?_⟩
  rw [← hcontext package, updatePatchLevel, HashMap.lookup_removeIf_of_kept]
  intro level _
  exact decide_eq_false hne

end PatchLevels

namespace AndroidUtils

open PatchLevels

theorem getCustomPatchLevel_eq (u : AndroidUtils) (c : Component) (isLong : Bool) :
    u.getCustomPatchLevel c isLong =
      match (found u.packagePatchLevelForUid c).or (found u.levels.globalPatchLevel c) with
      | none => some (convertPatchLevel u.SECURITY_PATCH isLong)
      | some value => u.readValue isLong value := by
  unfold getCustomPatchLevel found
  rw [Option.or_assoc]
  rfl

/-- The value that is read is the documented one. -/
theorem getCustomPatchLevel_of_found {u : AndroidUtils} {c : Component} {isLong : Bool}
    {o : Option PatchValue} {property : SecurityPatch} (hproperty : u.SECURITY_PATCH = property.text)
    (h : (found u.packagePatchLevelForUid c).or (found u.levels.globalPatchLevel c) = o.map PatchValue.text)
    (hyear : ∀ v, o = some v → v.UsesYear → u.now.FourDigits) :
    u.getCustomPatchLevel c isLong = (o.getD .prop).level u.now property isLong := by
  rw [getCustomPatchLevel_eq, h]
  cases o with
  | none => exact congrArg some (hproperty ▸ convertPatchLevel_text property)
  | some v => exact readValue_text hproperty (hyear v rfl)

end AndroidUtils

/-! ## What the overrides are -/

theorem mem_of_mem_block {ls : List PatchLine} {l : PatchLine} {package current : String}
    (h : l ∈ block package current ls) : l ∈ ls := by
  induction ls generalizing current with
  | nil => cases h
  | cons l' ls ih =>
    have hstep (h : l ∈ (if current = package then [l'] else []) ++ block package current ls) : l ∈ l' :: ls := by
      rcases List.mem_append.1 h with h | h
      · split_ifs at h
        · rw [List.mem_singleton.1 h]
          exact List.mem_cons_self
        · cases h
      · exact List.mem_cons_of_mem l' (ih h)
    cases l' with
    | blank | comment | header => exact List.mem_cons_of_mem _ (ih h)
    | setting | bare => exact hstep h

theorem value_of_entry {l : PatchLine} {key : PatchKey} {v : PatchValue} (h : l.entry = some (key, v)) :
    l.value = some v := by
  cases l with
  | blank | comment | header => cases h
  | setting | bare =>
    cases h
    rfl

/-- What is assigned stands on a line of the file. -/
theorem exists_line_of_assigned {ls : List PatchLine} {package : String} {c : Component} {v : PatchValue}
    (h : assigned (packageBlock ls package) c = some v) : ∃ l ∈ ls, l.value = some v := by
  have hlast {key : PatchKey} (h : lastOf key ((packageBlock ls package).filterMap PatchLine.entry) = some v) :
      ∃ l ∈ ls, l.value = some v := by
    obtain ⟨l, hl, hentry⟩ := List.mem_filterMap.1 (mem_of_lastOf h)
    exact ⟨l, mem_of_mem_block hl, value_of_entry hentry⟩
  rcases Option.or_eq_some_iff.1 h with h | ⟨-, h⟩
  · exact hlast h
  · exact hlast h

namespace AndroidUtils

open PatchLevels

variable {u : AndroidUtils} {p : PatchLevels} {text : List Char} {ls : List PatchLine} {package : String}
  {property : SecurityPatch}

/-- A level of a uid with one package is that of the documented value. -/
theorem getCustomPatchLevel_resolution (h : DocumentedFile text ls)
    (hlevels : u.levels = p.updatePatchLevel (some (some text)))
    (hpackage : u.packagesForUid = some [package]) (hproperty : u.SECURITY_PATCH = property.text)
    (hyear : ∀ l ∈ ls, l.UsesYear → u.now.FourDigits) (c : Component) (isLong : Bool) :
    u.getCustomPatchLevel c isLong = (resolution ls package c).level u.now property isLong := by
  have hglobal := (found_updatePatchLevel h p c).1
  have hpkg : u.packagePatchLevelForUid = u.levels.packagePatchLevels.lookup package := by
    rw [packagePatchLevelForUid, hpackage, Option.bind_some, List.findSome?_cons]
    cases u.levels.packagePatchLevels.lookup package <;> rfl
  apply getCustomPatchLevel_of_found hproperty
  · rw [hpkg, hlevels, hglobal, Option.map_or]
    by_cases hne : package = ""
    · -- no package has the empty name, and its block is the global one
      subst hne
      have hnone : (p.updatePatchLevel (some (some text))).packagePatchLevels.lookup "" = none := by
        unfold updatePatchLevel
        rw [HashMap.lookup_removeIf]
        simp
      rw [hnone, Option.or_self]
      rfl
    · rw [(found_updatePatchLevel h p c).2 package hne]
  · intro v hv huses
    obtain ⟨l, hl, hvalue⟩ : ∃ l ∈ ls, l.value = some v := by
      rcases Option.or_eq_some_iff.1 hv with hv | ⟨-, hv⟩
      · exact exists_line_of_assigned hv
      · exact exists_line_of_assigned hv
    exact hyear l hl ⟨v, hvalue, huses⟩

/-! ## What clients see of the file -/

/-- The authorization that reports a component, and whether its level has a day. -/
def tag : Component → Int
  | .system => Tag.OS_PATCHLEVEL
  | .vendor => Tag.VENDOR_PATCHLEVEL
  | .boot => Tag.BOOT_PATCHLEVEL

def isLong : Component → Bool
  | .system => false
  | .vendor | .boot => true

variable {utils : Int → AndroidUtils} {env₀ : Env} {uid : Int}

/-- An authorization of a real key has the documented level, or is left out where the file says so. -/
theorem patchAuthorization_resolution (h : DocumentedFile text ls)
    (hlevels : (utils uid).levels = p.updatePatchLevel (some (some text)))
    (hpackage : (utils uid).packagesForUid = some [package])
    (hproperty : (utils uid).SECURITY_PATCH = property.text)
    (hyear : ∀ l ∈ ls, l.UsesYear → (utils uid).now.FourDigits) {c : Component} {auth : Authorization}
    (htag : auth.keyParameter.tag = tag c) :
    patchAuthorization (AndroidUtils.env utils env₀) uid auth =
      match (resolution ls package c).level (utils uid).now property (isLong c) with
      | none => some auth
      | some v => if v = DO_NOT_REPORT then none else some ⟨⟨tag c, .integer v⟩, auth.securityLevel⟩ := by
  have hlevel := (utils uid).getCustomPatchLevel_resolution h hlevels hpackage hproperty hyear c (isLong c)
  rw [← hlevel]
  unfold patchAuthorization
  rw [htag]
  cases c <;> rfl

/-- A forged key has the documented levels, and those of the property where the file leaves them to the
device. -/
theorem env_levels (h : DocumentedFile text ls)
    (hlevels : (utils uid).levels = p.updatePatchLevel (some (some text)))
    (hpackage : (utils uid).packagesForUid = some [package])
    (hproperty : (utils uid).SECURITY_PATCH = property.text)
    (hyear : ∀ l ∈ ls, l.UsesYear → (utils uid).now.FourDigits) :
    let level (c : Component) := ((resolution ls package c).level (utils uid).now property (isLong c)).getD
      (property.level (isLong c))
    (AndroidUtils.env utils env₀).patchLevel uid = level .system ∧
      (AndroidUtils.env utils env₀).vendorPatchLevelLong uid = level .vendor ∧
      (AndroidUtils.env utils env₀).bootPatchLevelLong uid = level .boot := by
  have hlevel (c : Component) :=
    (utils uid).getCustomPatchLevel_resolution h hlevels hpackage hproperty hyear c (isLong c)
  have hcustom (c : Component) : ((utils uid).getCustomPatchLevel c (isLong c)).getD
      (convertPatchLevel (utils uid).SECURITY_PATCH (isLong c)) =
        ((resolution ls package c).level (utils uid).now property (isLong c)).getD (property.level (isLong c)) := by
    rw [hlevel c, hproperty, convertPatchLevel_text]
  exact ⟨hcustom .system, hcustom .vendor, hcustom .boot⟩

end AndroidUtils

/-- The three overrides are those that the file documents. -/
theorem overrides_documented (u : AndroidUtils) (p : PatchLevels) (text : List Char) (ls : List PatchLine)
    (package : String) (property : SecurityPatch) (h : DocumentedFile text ls)
    (hlevels : u.levels = p.updatePatchLevel (some (some text)))
    (hpackage : u.packagesForUid = some [package]) (hproperty : u.SECURITY_PATCH = property.text)
    (hyear : ∀ l ∈ ls, l.UsesYear → u.now.FourDigits) :
    u.patchLevelOverride = (resolution ls package .system).level u.now property false ∧
      u.vendorPatchLevelOverride = (resolution ls package .vendor).level u.now property true ∧
      u.bootPatchLevelOverride = (resolution ls package .boot).level u.now property true := by
  refine ⟨?_, ?_, ?_⟩
  · exact u.getCustomPatchLevel_resolution h hlevels hpackage hproperty hyear .system false
  · exact u.getCustomPatchLevel_resolution h hlevels hpackage hproperty hyear .vendor true
  · exact u.getCustomPatchLevel_resolution h hlevels hpackage hproperty hyear .boot true

namespace Demo

def gmsSection : SectionName :=
  ⟨"com.google.android.gms".toList, List.cons_ne_nil _ _, List.all_eq_true.1 (by decide)⟩

/-- A global date with the placeholders of the year and the month, and a block for one package. -/
def patchLines : List PatchLine :=
  [.comment noSpace " global default for every app".toList,
    .setting noSpace (.component .system) ⟨"system".toList, by decide⟩ noSpace noSpace
      (.date none none (.dashed (some 5))) noSpace,
    .setting noSpace (.component .boot) ⟨"Boot".toList, by decide⟩ space space .no space,
    .blank noSpace,
    .header noSpace gmsSection noSpace,
    .bare noSpace (.date (some 2024) (some 10) (.compact (some 1))) noSpace]

def patchFile (ls : List PatchLine) : List Char := (ls.map PatchLine.text).flatMap fun line => line ++ ['\n']

def utils (ls : List PatchLine) (package : String) (year : Int) : AndroidUtils where
  levels := ({} : PatchLevels).updatePatchLevel (some (some (patchFile ls)))
  packagesForUid := some [package]
  now := ⟨year, 7, 9, by decide, by decide⟩
  zeroDigit := 0x30
  localDigit := ascii
  SECURITY_PATCH := "2024-04-05".toList

def securityPatch : SecurityPatch := .date 2024 4 5

end Demo

open Demo in
theorem documentedFile_patchLines : DocumentedFile (patchFile patchLines) patchLines where
  lines := by decide
  bare package l hl hbare := by
    have hblock : packageBlock patchLines package =
        (if "" = package then patchLines.tail.take 2 else []) ++
          (if String.ofList gmsSection.1 = package then patchLines.drop 5 else []) := by
      change (if "" = package then _ else _) ++ ((if "" = package then _ else _) ++
        ((if String.ofList gmsSection.1 = package then _ else _) ++ [])) = _
      split_ifs <;> rfl
    rw [hblock] at hl ⊢
    by_cases hglobal : "" = package
    · have hne : String.ofList gmsSection.1 ≠ package := by
        rw [← hglobal]
        decide
      rw [if_pos hglobal, if_neg hne, List.append_nil] at hl
      simp only [patchLines, List.tail_cons, List.take, List.mem_cons, List.not_mem_nil, or_false] at hl
      rcases hl with rfl | rfl
      · exact hbare.elim
      · exact hbare.elim
    · rw [if_neg hglobal, List.nil_append] at hl ⊢
      split_ifs at hl ⊢ with hgms
      · rfl
      · cases hl

open Demo in
/-- The package takes its own date, every other one what stands above the header, and the date of the
property where nothing does. -/
theorem overrides_documented_patchLines :
    (utils patchLines "com.google.android.gms" 2025).bootPatchLevelOverride = some 20241001 ∧
      (utils patchLines "com.example" 2025).patchLevelOverride = some 202507 ∧
      (utils patchLines "com.example" 2025).vendorPatchLevelOverride = some 20240405 := by
  have hyear (package : String) : ∀ l ∈ patchLines, l.UsesYear → (utils patchLines package 2025).now.FourDigits :=
    fun _ _ _ => ⟨show (0 : Int) ≤ 2025 by omega, show (2025 : Int) ≤ 9999 by omega⟩
  have hgms := overrides_documented (utils patchLines "com.google.android.gms" 2025) {} _ patchLines
    "com.google.android.gms" securityPatch documentedFile_patchLines rfl rfl (by decide) (hyear _)
  have hother := overrides_documented (utils patchLines "com.example" 2025) {} _ patchLines "com.example"
    securityPatch documentedFile_patchLines rfl rfl (by decide) (hyear _)
  rw [hgms.2.2, hother.1, hother.2.1]
  exact ⟨by decide, by decide, by decide⟩

namespace Demo

/-- A file with the placeholders of the year and the month only. -/
def yearLines : List PatchLine := [.bare noSpace (.date none none .absent) noSpace]

end Demo

open Demo in
/-- From the year 10000 on the placeholder of the year has five digits, and the date is not read. -/
theorem overrides_of_five_digits : DocumentedFile (patchFile yearLines) yearLines ∧
    (resolution yearLines "com.example" .system).level (utils yearLines "com.example" 10000).now securityPatch
      false = some 1000007 ∧
    (utils yearLines "com.example" 10000).patchLevelOverride = none := by
  refine ⟨⟨by decide, fun package l hl _ => ?_⟩, by decide, by decide⟩
  have hblock : packageBlock yearLines package = if "" = package then yearLines else [] := by
    change (if "" = package then _ else _) ++ [] = _
    exact List.append_nil _
  rw [hblock] at hl ⊢
  split_ifs at hl ⊢
  · rfl
  · cases hl

end TrickyStore
