import Mathlib.Tactic.LinearCombination
import TrickyStore.Native.Maps
import TrickyStore.Proof.InjectorRegisters

/-!
# The mappings that the injector finds

A listing as the kernel writes it is scanned back to its mappings, whatever zeros the numbers start with and
however far the paths are indented.  With a library loaded at one base in the injector and at another in the
target, the addresses looked up are those of the function and of a page without code in the target.
-/

open Lib Lib.Scanf

namespace TrickyStore

namespace Native

namespace Injector

variable {a : Architecture}

/-! ## Listings -/

/-- The texts of the fields of a line. -/
structure MapFields where
  start : List Char
  end_ : List Char
  perm : List Char
  offset : List Char
  devMajor : List Char
  devMinor : List Char
  inode : List Char
  padding : ℕ
  path : List Char

def MapFields.line (f : MapFields) : List Char :=
  f.start ++ '-' :: (f.end_ ++ ' ' :: (f.perm ++ ' ' :: (f.offset ++ ' ' :: (f.devMajor ++ ':' :: (f.devMinor ++
    ' ' :: (f.inode ++ ' ' :: (List.replicate f.padding ' ' ++ f.path)))))))

def permText (info : MapInfo a) : List Char :=
  [if info.perms.getLsbD 0 then 'r' else '-', if info.perms.getLsbD 1 then 'w' else '-',
    if info.perms.getLsbD 2 then 'x' else '-', if info.isPrivate then 'p' else 's']

/-- The fields show the mapping. -/
structure MapFields.Shows (f : MapFields) (info : MapInfo a) : Prop where
  start : Writes 16 f.start info.start.toNat
  end_ : Writes 16 f.end_ info.end_.toNat
  perm : f.perm = permText info
  perms : info.perms < 8
  offset : Writes 16 f.offset info.offset.toNat
  dev : ∃ major minor, Writes 16 f.devMajor major ∧ major < 2 ^ 32 ∧ Writes 16 f.devMinor minor ∧ minor < 2 ^ 32 ∧
    info.dev = makedev major minor
  inode : Writes 10 f.inode info.inode.toNat
  path : f.path = info.path
  unspaced : ∀ c ∈ info.path.head?, isSpace c = false
  plain : ∀ c ∈ info.path, c ≠ '\n' ∧ c ≠ '\x00'

/-- A text of such lines. -/
def listing (fields : List MapFields) : List Char := fields.flatMap fun f => f.line ++ ['\n']

/-! ## Lines -/

theorem getlines_line {line : List Char} (h : '\n' ∉ line) (rest : List Char) :
    getlines (line ++ '\n' :: rest) = (line ++ ['\n']) :: getlines rest := by
  induction line with
  | nil => rfl
  | cons c line ih =>
    have hc : c ≠ '\n' := fun hc => h (hc ▸ List.mem_cons_self)
    rw [List.cons_append, getlines, if_neg hc, ih fun hmem => h (List.mem_cons_of_mem c hmem)]
    rfl

theorem cString_of_plain {line : List Char} (h : '\x00' ∉ line) : cString line = line :=
  List.takeWhile_eq_self_iff.2 fun c hc => by
    simp only [ne_eq, decide_not, Bool.not_eq_eq_eq_not, Bool.not_true, decide_eq_false_iff_not]
    exact fun hzero => h (hzero ▸ hc)

/-- A line in front is scanned by itself. -/
theorem scan_line {line : List Char} (hline : '\n' ∉ line) (hzero : '\x00' ∉ line) (rest : List Char) :
    MapInfo.scan (a := a) (some (line ++ '\n' :: rest)) = (MapInfo.ofLine line).toList ++ MapInfo.scan (some rest) := by
  have hread : MapInfo.scan (a := a) (some (line ++ '\n' :: rest)) =
      (getlines (line ++ '\n' :: rest)).filterMap fun line => MapInfo.ofLine (cString line.dropLast) := rfl
  rw [hread, getlines_line hline, List.filterMap_cons, List.dropLast_concat, cString_of_plain hzero]
  cases MapInfo.ofLine (a := a) line <;> rfl

/-! ## One line -/

theorem permsOf_permText (info : MapInfo a) (h : info.perms < 8) : permsOf (permText info) = info.perms := by
  have hall : ∀ perms : BitVec 8, perms < 8 → ∀ isPrivate : Bool,
      permsOf [if perms.getLsbD 0 then 'r' else '-', if perms.getLsbD 1 then 'w' else '-',
        if perms.getLsbD 2 then 'x' else '-', if isPrivate then 'p' else 's'] = perms := by
    decide
  exact hall info.perms h info.isPrivate

theorem permText_private (info : MapInfo a) : decide ((permText info)[3]? = some 'p') = info.isPrivate := by
  unfold permText
  cases info.isPrivate <;> rfl

theorem permText_unspaced (info : MapInfo a) : ∀ c ∈ permText info, isSpace c = false := by
  have hite (b : Bool) (x y : Char) (hx : isSpace x = false) (hy : isSpace y = false) :
      isSpace (if b then x else y) = false := by
    cases b <;> assumption
  intro c hc
  simp only [permText, List.mem_cons, List.not_mem_nil, or_false] at hc
  rcases hc with rfl | rfl | rfl | rfl <;> exact hite _ _ _ (by decide) (by decide)

theorem scanString_permText (info : MapInfo a) (rest : List Char) :
    scanString 4 (' ' :: (permText info ++ rest)) = some (permText info, rest) :=
  scanString_space (permText_unspaced info) (List.cons_ne_nil _ _) rfl

variable {f : MapFields} {info : MapInfo a}

/-- The indentation of a path is skipped, and nothing of the path. -/
theorem skipSpace_path (h : f.Shows info) :
    skipSpace (skipSpace (' ' :: (List.replicate f.padding ' ' ++ f.path))) = info.path := by
  have hblank : ∀ c ∈ ' ' :: List.replicate f.padding ' ', isSpace c = true := by
    intro c hc
    rw [← List.replicate_succ, List.mem_replicate] at hc
    rw [hc.2]
    decide
  rw [← List.cons_append, h.path, skipSpace_blank hblank h.unspaced]
  exact skipSpace_blank (List.forall_mem_nil fun c => isSpace c = true) h.unspaced

theorem ofLine_line (ha : 8 * a.wordBytes ≤ 64) (h : f.Shows info) : MapInfo.ofLine f.line = some info := by
  obtain ⟨major, minor, hmajor, hmajorFits, hminor, hminorFits, hdev⟩ := h.dev
  have hspace {rest : List Char} : Ends (' ' :: rest) := ends_cons (by decide)
  have hcolon {rest : List Char} : Ends (':' :: rest) := ends_cons (by decide)
  have hdash {rest : List Char} : Ends ('-' :: rest) := ends_cons (by decide)
  simp only [MapInfo.ofLine, MapFields.line, Option.bind_eq_bind, h.perm, Option.bind_some, literal_cons,
    scanNumber_digits h.start hdash ha info.start.isLt, scanNumber_digits h.end_ hspace ha info.end_.isLt,
    scanString_permText, scanNumber_space h.offset hspace ha info.offset.isLt,
    scanNumber_space hmajor hcolon (by omega : 32 ≤ 64) hmajorFits,
    scanNumber_digits hminor hspace (by omega : 32 ≤ 64) hminorFits,
    scanNumber_space h.inode hspace ha info.inode.isLt, skipSpace_path h, permsOf_permText info h.perms,
    permText_private, BitVec.ofNat_toNat, BitVec.setWidth_eq, ← hdev]
  rfl

/-! ## The listing -/

theorem notMem_line (h : f.Shows info) {c : Char} (hvalue : hexValue c = none)
    (hc : c ∉ '-' :: ':' :: ' ' :: permText info) (hpath : c ∉ info.path) : c ∉ f.line := by
  obtain ⟨major, minor, hmajor, -, hminor, -, -⟩ := h.dev
  simp only [List.mem_cons, not_or] at hc
  obtain ⟨hdash, hcolon, hspace, hperm⟩ := hc
  unfold MapFields.line
  simp only [List.mem_append, List.mem_cons, List.mem_replicate, not_or, not_and]
  refine ⟨h.start.notMem hvalue, hdash, h.end_.notMem hvalue, hspace, h.perm ▸ hperm, hspace,
    h.offset.notMem hvalue, hspace, hmajor.notMem hvalue, hcolon, hminor.notMem hvalue, hspace,
    h.inode.notMem hvalue, hspace, fun _ => hspace, h.path ▸ hpath⟩

theorem notMem_permText {c : Char} (h : c ∉ ['r', 'w', 'x', 'p', 's', '-']) (info : MapInfo a) : c ∉ permText info := by
  have hite (b : Bool) {x y : Char} (hx : c ≠ x) (hy : c ≠ y) : c ≠ if b then x else y := by
    cases b <;> assumption
  simp only [List.mem_cons, List.not_mem_nil, or_false, not_or] at h
  obtain ⟨hr, hw, hx, hp, hs, hdash⟩ := h
  simp only [permText, List.mem_cons, List.not_mem_nil, or_false, not_or]
  exact ⟨hite _ hr hdash, hite _ hw hdash, hite _ hx hdash, hite _ hp hs⟩

/-- A listing is scanned back to the mappings that it shows, in their order. -/
theorem scan_listing (ha : a.wordBytes ≤ 8) {fields : List MapFields} {infos : List (MapInfo a)}
    (h : List.Forall₂ MapFields.Shows fields infos) : MapInfo.scan (some (listing fields)) = infos := by
  induction h with
  | nil => rfl
  | @cons f info fields infos hshows _ ih =>
    have hfeed : '\n' ∉ f.line := by
      refine notMem_line hshows (by decide) ?_ fun hmem => (hshows.plain _ hmem).1 rfl
      simpa using notMem_permText (by decide) info
    have hzero : '\x00' ∉ f.line := by
      refine notMem_line hshows (by decide) ?_ fun hmem => (hshows.plain _ hmem).2 rfl
      simpa using notMem_permText (by decide) info
    have htext : listing (f :: fields) = f.line ++ '\n' :: listing fields := by
      rw [listing, List.flatMap_cons, List.append_assoc]
      rfl
    rw [htext, scan_line hfeed hzero, ofLine_line (by omega) hshows, ih]
    rfl

/-! ## Loaded libraries -/

/-- A segment of a library, by its place in the library. -/
structure Segment (a : Architecture) where
  vaddr : a.Word
  memEnd : a.Word
  perms : BitVec 8
  offset : a.Word

/-- The segment that a mapping is when its library is loaded at the base. -/
def MapInfo.segment (base : a.Word) (map : MapInfo a) : Segment a where
  vaddr := map.start - base
  memEnd := map.end_ - base
  perms := map.perms
  offset := map.offset

/-- The mappings whose path ends with the name are the segments of a library that is loaded at the base, and the
first of them that shows the start of the file is there. -/
structure Loaded (mapInfo : List (MapInfo a)) (moduleName : String) (library : List (Segment a)) (base : a.Word) :
    Prop where
  base_ne : base ≠ 0
  segments : (mapInfo.filter fun map => moduleName.toList.isSuffixOf map.path).map (MapInfo.segment base) = library
  header : ∃ header, library.find? (fun segment => segment.offset = 0) = some header ∧ header.vaddr = 0

/-- The address is in the mapping. -/
def MapInfo.Covers (map : MapInfo a) (address : a.Word) : Prop := address - map.start < map.end_ - map.start

instance (map : MapInfo a) (address : a.Word) : Decidable (map.Covers address) :=
  inferInstanceAs (Decidable (_ < _))

/-- The byte of the file that the address shows. -/
def MapInfo.fileOffset (map : MapInfo a) (address : a.Word) : a.Word := map.offset + (address - map.start)

variable {mapInfo : List (MapInfo a)} {moduleName : String} {library : List (Segment a)} {base : a.Word}

/-- What is looked for in a module is looked for in its library. -/
theorem find?_module (h : Loaded mapInfo moduleName library base) (q : Segment a → Bool) :
    (mapInfo.find? fun map => q (map.segment base) && moduleName.toList.isSuffixOf map.path).map
      (MapInfo.segment base) = library.find? q := by
  have hfilter : (mapInfo.filter fun map => moduleName.toList.isSuffixOf map.path).find?
      (fun map => q (map.segment base)) =
        mapInfo.find? fun map => moduleName.toList.isSuffixOf map.path = true ∧ q (map.segment base) = true :=
    List.find?_filter
  rw [← h.segments, List.find?_map, Function.comp_def, hfilter]
  congr 2
  funext map
  rw [Bool.and_comm, Bool.decide_and, Bool.decide_eq_true, Bool.decide_eq_true]

theorem findModuleBase_of_loaded (h : Loaded mapInfo moduleName library base) :
    findModuleBase mapInfo moduleName = base := by
  obtain ⟨header, hheader, hvaddr⟩ := h.header
  have hfind := find?_module h fun segment => segment.offset = 0
  rw [hheader, Option.map_eq_some_iff] at hfind
  obtain ⟨map, hmap, rfl⟩ := hfind
  have hbase : findModuleBase mapInfo moduleName = map.start := by
    unfold findModuleBase
    have hmap' : mapInfo.find? (fun map => map.offset = 0 && moduleName.toList.isSuffixOf map.path) = some map := hmap
    rw [hmap']
  rw [hbase]
  exact sub_eq_zero.1 hvaddr

/-- The address of a symbol, moved from the one base to the other. -/
theorem findFuncAddr_of_loaded {dlsym : String → String → a.Word} {localMap remoteMap : List (MapInfo a)}
    {localBase remoteBase : a.Word} (hlocal : Loaded localMap moduleName library localBase)
    (hremote : Loaded remoteMap moduleName library remoteBase) {functionName : String}
    (hsym : dlsym moduleName functionName ≠ 0) :
    findFuncAddr dlsym localMap remoteMap moduleName functionName =
      remoteBase + (dlsym moduleName functionName - localBase) := by
  unfold findFuncAddr
  rw [findModuleBase_of_loaded hlocal, findModuleBase_of_loaded hremote]
  simp only [if_neg hsym, if_neg hlocal.base_ne, if_neg hremote.base_ne]

/-- Each mapping of the library in one process has its own in the other, as far from the base. -/
theorem mapping_of_loaded {localMap remoteMap : List (MapInfo a)} {localBase remoteBase : a.Word}
    (hlocal : Loaded localMap moduleName library localBase) (hremote : Loaded remoteMap moduleName library remoteBase)
    {map : MapInfo a} (hmap : map ∈ localMap) (hpath : moduleName.toList.isSuffixOf map.path = true) :
    ∃ map' ∈ remoteMap, moduleName.toList.isSuffixOf map'.path = true ∧
      map'.segment remoteBase = map.segment localBase := by
  have hmem : map.segment localBase ∈ library :=
    hlocal.segments ▸ List.mem_map_of_mem (List.mem_filter.2 ⟨hmap, hpath⟩)
  rw [← hremote.segments] at hmem
  obtain ⟨map', hmap', heq⟩ := List.mem_map.1 hmem
  obtain ⟨hin, hsuffix⟩ := List.mem_filter.1 hmap'
  exact ⟨map', hin, hsuffix, heq⟩

/-! ## The addresses of an injection -/

section Addresses

variable (env : Environment a) (dlsym : String → String → a.Word) {localFields remoteFields : List MapFields}
  {localMap remoteMap : List (MapInfo a)} {localBase remoteBase : a.Word}

/-- With the library loaded in both processes, the function that is called in the target is the byte of the library
that the symbol is, in a mapping with the same permissions, and a call returns to a page without code. -/
theorem scanned_addresses (ha : a.wordBytes ≤ 8) (hlocalText : List.Forall₂ MapFields.Shows localFields localMap)
    (hremoteText : List.Forall₂ MapFields.Shows remoteFields remoteMap)
    (hlocal : Loaded localMap moduleName library localBase) (hremote : Loaded remoteMap moduleName library remoteBase)
    {functionName : String} (hsym : dlsym moduleName functionName ≠ 0) {code : MapInfo a} (hcode : code ∈ localMap)
    (hcodePath : moduleName.toList.isSuffixOf code.path = true) (hcovers : code.Covers (dlsym moduleName functionName))
    {data : MapInfo a} (hdata : data ∈ localMap) (hdataPath : moduleName.toList.isSuffixOf data.path = true)
    (hnoCode : data.perms &&& PROT_EXEC = 0) :
    let env' := env.scanned dlsym (some (listing localFields)) (some (listing remoteFields))
    (∃ map ∈ remoteMap, moduleName.toList.isSuffixOf map.path = true ∧ map.perms = code.perms ∧
      map.Covers (env'.findFuncAddr moduleName functionName) ∧
      map.fileOffset (env'.findFuncAddr moduleName functionName) =
        code.fileOffset (dlsym moduleName functionName)) ∧
    ∃ map ∈ remoteMap, moduleName.toList.isSuffixOf map.path = true ∧ map.perms &&& PROT_EXEC = 0 ∧
      env'.findModuleReturnAddr moduleName = map.start := by
  intro env'
  have hfunc : env'.findFuncAddr moduleName functionName =
      remoteBase + (dlsym moduleName functionName - localBase) := by
    rw [← findFuncAddr_of_loaded hlocal hremote hsym, ← scan_listing ha hlocalText, ← scan_listing ha hremoteText]
    rfl
  have hreturn : env'.findModuleReturnAddr moduleName = findModuleReturnAddr remoteMap moduleName := by
    rw [← scan_listing ha hremoteText]
    rfl
  refine ⟨?_, ?_⟩
  · obtain ⟨map, hmap, hpath, hsegment⟩ := mapping_of_loaded hlocal hremote hcode hcodePath
    obtain ⟨hvaddr, hmemEnd, hperms, hoffset⟩ := Segment.mk.inj hsegment
    have hdistance : env'.findFuncAddr moduleName functionName - map.start =
        dlsym moduleName functionName - code.start := by
      rw [hfunc]
      linear_combination -hvaddr
    have hlength : map.end_ - map.start = code.end_ - code.start := by
      linear_combination hmemEnd - hvaddr
    refine ⟨map, hmap, hpath, hperms, ?_, ?_⟩
    · unfold MapInfo.Covers
      rw [hdistance, hlength]
      exact hcovers
    · unfold MapInfo.fileOffset
      rw [hdistance, hoffset]
  · rw [hreturn]
    obtain ⟨map, hmap, hpath, hsegment⟩ := mapping_of_loaded hlocal hremote hdata hdataPath
    obtain ⟨-, -, hperms, -⟩ := Segment.mk.inj hsegment
    unfold findModuleReturnAddr
    cases hfind : remoteMap.find? fun map =>
        map.perms &&& PROT_EXEC = 0 && moduleName.toList.isSuffixOf map.path with
    | none =>
      have hnone := List.find?_eq_none.1 hfind map hmap
      rw [hpath, hperms] at hnone
      simp [hnoCode] at hnone
    | some found =>
      have hfound := List.find?_some hfind
      rw [Bool.and_eq_true, decide_eq_true_eq] at hfound
      exact ⟨found, List.mem_of_find?_eq_some hfind, hfound.2, hfound.1, rfl⟩

end Addresses

namespace Demo

/-- Two mappings of `libc.so`, the second with its code, at pages that are given by their numbers. -/
def libcFields (page : Char) : List MapFields :=
  [{ start := ['7', page, '0', '0', '0'], end_ := ['7', page, '1', '0', '0'], perm := "r--p".toList,
     offset := "00000000".toList, devMajor := "fd".toList, devMinor := "00".toList, inode := "812".toList,
     padding := 9, path := "/lib/libc.so".toList },
   { start := ['7', page, '1', '0', '0'], end_ := ['7', page, '3', '0', '0'], perm := "r-xp".toList,
     offset := "00000100".toList, devMajor := "fd".toList, devMinor := "00".toList, inode := "812".toList,
     padding := 9, path := "/lib/libc.so".toList }]

def libcMap (base : aarch64.Word) : List (MapInfo aarch64) :=
  [{ start := base, end_ := base + 0x100, perms := PROT_READ, isPrivate := true, offset := 0, dev := makedev 0xfd 0,
     inode := 812, path := "/lib/libc.so".toList },
   { start := base + 0x100, end_ := base + 0x300, perms := PROT_READ ||| PROT_EXEC, isPrivate := true,
     offset := 0x100, dev := makedev 0xfd 0, inode := 812, path := "/lib/libc.so".toList }]

def libcSegments : List (Segment aarch64) :=
  [{ vaddr := 0, memEnd := 0x100, perms := PROT_READ, offset := 0 },
   { vaddr := 0x100, memEnd := 0x300, perms := PROT_READ ||| PROT_EXEC, offset := 0x100 }]

/-- The fields show the mappings when the numbers are those of the pages. -/
theorem libc_shows {page : Char} {base : aarch64.Word} (hstart : Writes 16 ['7', page, '0', '0', '0'] base.toNat)
    (hcode : Writes 16 ['7', page, '1', '0', '0'] (base + 0x100).toNat)
    (hend : Writes 16 ['7', page, '3', '0', '0'] (base + 0x300).toNat) :
    List.Forall₂ MapFields.Shows (libcFields page) (libcMap base) := by
  have hdev : ∃ major minor, Writes 16 "fd".toList major ∧ major < 2 ^ 32 ∧ Writes 16 "00".toList minor ∧
      minor < 2 ^ 32 ∧ (makedev 0xfd 0 : aarch64.Word) = makedev major minor :=
    ⟨0xfd, 0, by decide, by decide, by decide, by decide, rfl⟩
  have hall : "/lib/libc.so".toList.all (fun c => c ≠ '\n' ∧ c ≠ '\x00') = true := by decide
  have hplain : ∀ c ∈ "/lib/libc.so".toList, c ≠ '\n' ∧ c ≠ '\x00' := fun c hc => by
    simpa using List.all_eq_true.1 hall c hc
  have hunspaced : ∀ c ∈ "/lib/libc.so".toList.head?, isSpace c = false := fun c hc => by
    obtain rfl : '/' = c := Option.some.inj hc
    decide
  have hinode : Writes 10 "812".toList (812 : aarch64.Word).toNat := by decide
  exact .cons ⟨hstart, hcode, by simp [permText, PROT_READ], (by decide : PROT_READ < 8),
      (by decide : Writes 16 "00000000".toList (0 : aarch64.Word).toNat), hdev, hinode, rfl, hunspaced, hplain⟩
    (.cons ⟨hcode, hend, by simp [permText, PROT_READ, PROT_EXEC], (by decide : PROT_READ ||| PROT_EXEC < 8),
      (by decide : Writes 16 "00000100".toList (0x100 : aarch64.Word).toNat), hdev, hinode, rfl, hunspaced, hplain⟩
      .nil)

theorem libc_loaded {base : aarch64.Word} (h : base ≠ 0) : Loaded (libcMap base) "libc.so" libcSegments base where
  base_ne := h
  segments := by
    have hall : (libcMap base).filter (fun map => "libc.so".toList.isSuffixOf map.path) = libcMap base := rfl
    rw [hall]
    simp [libcMap, libcSegments, MapInfo.segment]
  header := ⟨_, rfl, rfl⟩

end Demo

/-- `socket` at 0x71180 in the injector is called at 0x75180 in the target. -/
theorem scanned_addresses_libc :
    let env' := (Demo.injection 5).scanned (fun _ _ => 0x71180) (some (listing (Demo.libcFields '1')))
      (some (listing (Demo.libcFields '5')))
    (∃ map ∈ Demo.libcMap 0x75000, "libc.so".toList.isSuffixOf map.path = true ∧
      map.perms = PROT_READ ||| PROT_EXEC ∧ map.Covers (env'.findFuncAddr "libc.so" "socket") ∧
      map.fileOffset (env'.findFuncAddr "libc.so" "socket") = 0x180) ∧
    ∃ map ∈ Demo.libcMap 0x75000, "libc.so".toList.isSuffixOf map.path = true ∧ map.perms &&& PROT_EXEC = 0 ∧
      env'.findModuleReturnAddr "libc.so" = map.start :=
  scanned_addresses (Demo.injection 5) (fun _ _ => 0x71180) (by decide)
    (Demo.libc_shows (by decide) (by decide) (by decide)) (Demo.libc_shows (by decide) (by decide) (by decide))
    (Demo.libc_loaded (by decide : (0x71000 : aarch64.Word) ≠ 0)) (Demo.libc_loaded (by decide)) (by decide)
    (List.mem_cons_of_mem _ List.mem_cons_self) rfl (by decide) List.mem_cons_self rfl (by decide)

end Injector

end Native

end TrickyStore
