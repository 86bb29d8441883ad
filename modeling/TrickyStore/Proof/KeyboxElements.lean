import TrickyStore.Model.KeyboxXml

/-!
# What a keybox file stores

The loop of `readFromXml` is followed along the document, element by element.  The end tag of a `Key` element
stores what it finds: all that was read since the last start tag of a `Key`.  That is what its own element
holds unless another `Key` stands in it.  What was stored stays, also when the parser throws.
-/

open Lib Markup

namespace TrickyStore

namespace KeyBoxUtils

abbrev XmlForest := Forest (Option String) (Option (List Char))

abbrev XmlPartial := Markup.Partial (Option String) (Option (List Char))

/-! ## The `Key` elements of a document -/

/-- The text of the elements, whatever markup is in them. -/
def textOf : XmlForest → List Char
  | .nil => []
  | .text t rest => t.getD [] ++ textOf rest
  | .element _ _ children rest => textOf children ++ textOf rest

/-- The elements in which no other `Key` may stand. -/
def isClosed (name : String) : Bool := name = "Key" || name = "PrivateKey" || name = "Certificate"

/-- The texts of the elements with a name that belong to the surrounding `Key`. -/
def textsOf (target : String) : XmlForest → List (List Char)
  | .nil => []
  | .text _ rest => textsOf target rest
  | .element name _ children rest =>
    (if name = target then [textOf children] else if isClosed name then [] else textsOf target children)
      ++ textsOf target rest

/-- What a `Key` element holds. -/
structure KeyElement where
  privateKey : Option (List Char)
  certificates : List (List Char)

/-- Of several private keys it is the last; a blank certificate is none. -/
def KeyElement.ofChildren (children : XmlForest) : KeyElement :=
  ⟨(textsOf "PrivateKey" children).getLast?, (textsOf "Certificate" children).filter isNotBlank⟩

/-- The keybox of an element whose private key and certificates parse. -/
def KeyElement.stored (lib : PemParsers) (k : KeyElement) : Option (String × KeyBox) :=
  keyboxOf lib k.privateKey k.certificates

/-- The `Key` elements in the order in which they end. -/
def keyElements : XmlForest → List KeyElement
  | .nil => []
  | .text _ rest => keyElements rest
  | .element name _ children rest =>
    (if name = "Key" then keyElements children ++ [KeyElement.ofChildren children]
      else if isClosed name then [] else keyElements children) ++ keyElements rest

/-- The `Key` elements that have ended. -/
def endedKeys : XmlPartial → List KeyElement
  | .complete f => keyElements f
  | .inside before name _ children =>
    keyElements before ++ (if isClosed name && name ≠ "Key" then [] else endedKeys children)

/-- What was read since the last start tag of a `Key` element, and what the end tags of `Key` elements found. -/
def seen (k : KeyElement) : XmlForest → KeyElement × List KeyElement
  | .nil => (k, [])
  | .text _ rest => seen k rest
  | .element name _ children rest =>
    let inner : KeyElement × List KeyElement :=
      if name = "Key" then
        let r := seen ⟨none, []⟩ children
        (r.1, r.2 ++ [r.1])
      else if name = "PrivateKey" then (⟨some (textOf children), k.certificates⟩, [])
      else if name = "Certificate" then
        (⟨k.privateKey, k.certificates ++ [textOf children].filter isNotBlank⟩, [])
      else seen k children
    let r := seen inner.1 rest
    (r.1, inner.2 ++ r.2)

/-- What the end tags of `Key` elements found. -/
def seenKeys (k : KeyElement) : XmlPartial → List KeyElement
  | .complete f => (seen k f).2
  | .inside before name _ children =>
    (seen k before).2 ++
      (if name = "Key" then seenKeys ⟨none, []⟩ children
      else if isClosed name then [] else seenKeys (seen k before).1 children)

/-- No `Key` element stands inside a `Key`, `PrivateKey` or `Certificate` element; `closed` tells whether
the elements stand in one. -/
def Flat (closed : Bool) : XmlForest → Prop
  | .nil => True
  | .text _ rest => Flat closed rest
  | .element name _ children rest =>
    (name = "Key" → closed = false) ∧ Flat (closed || isClosed name) children ∧ Flat closed rest

def FlatPartial (closed : Bool) : XmlPartial → Prop
  | .complete f => Flat closed f
  | .inside before name _ children =>
    Flat closed before ∧ (name = "Key" → closed = false) ∧ FlatPartial (closed || isClosed name) children

/-! ## The loop along a document -/

/-- The text of an element, from within the element. -/
theorem readElementText_forest (f : XmlForest) (sb : List Char) (depth : ℕ) (es : List XmlEvent) :
    readElementText sb (depth + 1) (f.events ++ es) = readElementText (sb ++ textOf f) (depth + 1) es := by
  induction f generalizing sb depth es with
  | nil => rw [Forest.events, textOf, List.nil_append, List.append_nil]
  | text t rest ih =>
    rw [Forest.events, List.cons_append, readElementText, ih, textOf, List.append_assoc]
  | element name attr children rest ihc ihr =>
    rw [Forest.events, List.cons_append, readElementText, List.append_assoc, ihc, List.cons_append,
      readElementText, if_neg (by omega), Nat.add_sub_cancel, ihr, textOf, List.append_assoc]

theorem readElementText_element (f : XmlForest) (name : String) (es : List XmlEvent) :
    readElementText [] 1 (f.events ++ .endTag name :: es) = some (textOf f, es) := by
  rw [readElementText_forest f [] 0, readElementText, if_pos (by omega), List.nil_append]

/-- An element that does not end has no text: the parser throws. -/
theorem readElementText_unfinished (p : XmlPartial) (sb : List Char) (depth : ℕ) :
    readElementText sb (depth + 1) p.events = none := by
  induction p generalizing sb depth with
  | complete f =>
    have h := readElementText_forest f sb depth []
    rwa [List.append_nil] at h
  | inside before name attr children ih =>
    rw [Markup.Partial.events, readElementText_forest, readElementText, ih]

variable (lib : PemParsers)

/-- What was read since the last start tag of a `Key` element. -/
def Variables.pending (s : Variables) : KeyElement := ⟨s.privateKeyText, s.certTexts⟩

section Steps

variable {lib} {s : Variables} {attr : Option String} {text : List Char} {es es' : List XmlEvent}

theorem readEvents_privateKey (h : readElementText [] 1 es = some (text, es')) :
    readEvents lib s (.startTag "PrivateKey" attr :: es) =
      readEvents lib { s with privateKeyText := some text } es' := by
  rw [readEvents, if_neg (by decide), if_pos rfl]
  split
  · rename_i heq
    rw [h] at heq
    cases heq
    rfl
  · rename_i heq
    rw [h] at heq
    cases heq

theorem readEvents_certificate (h : readElementText [] 1 es = some (text, es')) :
    readEvents lib s (.startTag "Certificate" attr :: es) =
      readEvents lib { s with certTexts := s.certTexts ++ [text].filter isNotBlank } es' := by
  have hblank : (if isNotBlank text = true then { s with certTexts := s.certTexts ++ [text] } else s) =
      { s with certTexts := s.certTexts ++ [text].filter isNotBlank } := by
    split_ifs with hblank
    · simp [hblank]
    · simp [hblank]
  rw [readEvents, if_neg (by decide), if_neg (by decide), if_pos rfl]
  split
  · rename_i heq
    rw [h] at heq
    cases heq
    rw [hblank]
  · rename_i heq
    rw [h] at heq
    cases heq

/-- Nothing comes behind an element that is read as text and does not end. -/
theorem readEvents_unended {name : String} (hname : isClosed name = true) (hkey : name ≠ "Key")
    (h : readElementText [] 1 es = none) : readEvents lib s (.startTag name attr :: es) = s := by
  rw [readEvents, if_neg hkey]
  split_ifs with hprivate hcert
  · split
    · rename_i heq
      rw [h] at heq
      cases heq
    · rfl
  · split
    · rename_i heq
      rw [h] at heq
      cases heq
    · rfl
  · unfold isClosed at hname
    simp [hkey, hprivate, hcert] at hname

theorem storeKeybox_spec (s : Variables) :
    (s.storeKeybox lib).pending = s.pending ∧
      (s.storeKeybox lib).keyboxes =
        assignAll s.keyboxes ([s.pending].filterMap (KeyElement.stored lib)) := by
  have hstored : keyboxOf lib s.privateKeyText s.certTexts = KeyElement.stored lib s.pending := rfl
  unfold Variables.storeKeybox
  rw [hstored]
  cases h : KeyElement.stored lib s.pending with
  | none =>
    rw [List.filterMap_cons_none h]
    exact ⟨rfl, rfl⟩
  | some e =>
    rw [List.filterMap_cons_some h]
    exact ⟨rfl, rfl⟩

end Steps

theorem assignAll_append (m : HashMap String KeyBox) (l l' : List (String × KeyBox)) :
    assignAll m (l ++ l') = assignAll (assignAll m l) l' := List.foldl_append

/-- The loop along one element, up to and with its end tag, if it goes through what is inside. -/
theorem readEvents_element {children : XmlForest} (s : Variables) (name : String)
    (attr : Option String)
    (hchildren : ∀ s : Variables, ∃ s' : Variables, s'.pending = (seen s.pending children).1 ∧
      s'.keyboxes =
        assignAll s.keyboxes ((seen s.pending children).2.filterMap (KeyElement.stored lib)) ∧
      ∀ es, readEvents lib s (children.events ++ es) = readEvents lib s' es) :
    ∃ s' : Variables, s'.pending = (seen s.pending (.element name attr children .nil)).1 ∧
      s'.keyboxes = assignAll s.keyboxes
        ((seen s.pending (.element name attr children .nil)).2.filterMap (KeyElement.stored lib)) ∧
      ∀ es, readEvents lib s (.startTag name attr :: (children.events ++ .endTag name :: es)) =
        readEvents lib s' es := by
  simp only [seen, List.append_nil]
  by_cases hkey : name = "Key"
  · subst hkey
    obtain ⟨s', hpending, hkeyboxes, hrun⟩ :=
      hchildren { s with keyAlgoAttr := attr, privateKeyText := none, certTexts := [] }
    obtain ⟨hstore, hstored⟩ := @storeKeybox_spec lib s'
    refine ⟨s'.storeKeybox lib, hstore.trans hpending, ?_, fun es => ?_⟩
    · rw [hstored, hkeyboxes, hpending, if_pos rfl, List.filterMap_append, assignAll_append]
      rfl
    · rw [readEvents, if_pos rfl, hrun, readEvents, if_pos rfl]
  · rw [if_neg hkey]
    by_cases hprivate : name = "PrivateKey"
    · subst hprivate
      refine ⟨{ s with privateKeyText := some (textOf children) }, rfl, rfl, fun es => ?_⟩
      exact readEvents_privateKey (readElementText_element children _ es)
    · rw [if_neg hprivate]
      by_cases hcert : name = "Certificate"
      · subst hcert
        refine ⟨{ s with certTexts := s.certTexts ++ [textOf children].filter isNotBlank }, rfl, rfl,
          fun es => ?_⟩
        exact readEvents_certificate (readElementText_element children _ es)
      · rw [if_neg hcert]
        obtain ⟨s', hpending, hkeyboxes, hrun⟩ := hchildren s
        refine ⟨s', hpending, hkeyboxes, fun es => ?_⟩
        rw [readEvents, if_neg hkey, if_neg hprivate, if_neg hcert, hrun, readEvents, if_neg hkey]

/-- The loop goes through a document and stores what the end tags of its `Key` elements find. -/
theorem readEvents_forest (f : XmlForest) (s : Variables) :
    ∃ s', s'.pending = (seen s.pending f).1 ∧
      s'.keyboxes = assignAll s.keyboxes ((seen s.pending f).2.filterMap (KeyElement.stored lib)) ∧
      ∀ es, readEvents lib s (f.events ++ es) = readEvents lib s' es := by
  induction f generalizing s with
  | nil => exact ⟨s, rfl, rfl, fun _ => rfl⟩
  | text t rest ih =>
    obtain ⟨s', hpending, hkeyboxes, hrun⟩ := ih s
    refine ⟨s', hpending, hkeyboxes, fun es => ?_⟩
    rw [Forest.events, List.cons_append, readEvents, hrun]
  | element name attr children rest ihc ihr =>
    obtain ⟨s₁, hpending₁, hkeyboxes₁, hrun₁⟩ := readEvents_element lib s name attr ihc
    obtain ⟨s₂, hpending₂, hkeyboxes₂, hrun₂⟩ := ihr s₁
    have hseen : seen s.pending (.element name attr children rest) =
        ((seen s₁.pending rest).1,
          (seen s.pending (.element name attr children .nil)).2 ++ (seen s₁.pending rest).2) := by
      rw [hpending₁]
      simp only [seen, List.append_nil]
    refine ⟨s₂, ?_, ?_, fun es => ?_⟩
    · rw [hpending₂, hseen]
    · rw [hkeyboxes₂, hkeyboxes₁, hseen, List.filterMap_append, assignAll_append]
    · rw [Forest.events, List.cons_append, List.append_assoc, List.cons_append, hrun₁, hrun₂]

/-- The same for a document as far as it was read. -/
theorem readEvents_unfinished (p : XmlPartial) (s : Variables) :
    (readEvents lib s p.events).keyboxes =
      assignAll s.keyboxes ((seenKeys s.pending p).filterMap (KeyElement.stored lib)) := by
  induction p generalizing s with
  | complete f =>
    obtain ⟨s', -, hkeyboxes, hrun⟩ := readEvents_forest lib f s
    have hend := hrun []
    rw [List.append_nil] at hend
    rw [Markup.Partial.events, hend, readEvents, hkeyboxes]
    rfl
  | inside before name attr children ih =>
    obtain ⟨s', hpending, hkeyboxes, hrun⟩ := readEvents_forest lib before s
    rw [Markup.Partial.events, hrun, seenKeys, List.filterMap_append, assignAll_append, ← hkeyboxes,
      ← hpending]
    by_cases hkey : name = "Key"
    · rw [if_pos hkey, readEvents, if_pos hkey, ih]
      rfl
    · rw [if_neg hkey]
      by_cases hclosed : isClosed name = true
      · rw [if_pos hclosed, readEvents_unended hclosed hkey (readElementText_unfinished children [] 0)]
        rfl
      · have hprivate : name ≠ "PrivateKey" := fun h => hclosed (by rw [h]; rfl)
        have hcert : name ≠ "Certificate" := fun h => hclosed (by rw [h]; rfl)
        rw [if_neg hclosed, readEvents, if_neg hkey, if_neg hprivate, if_neg hcert, ih]

/-! ## Flat documents -/

section Flat

variable {lib} {f : XmlForest} {p : XmlPartial}

/-- What was read before and what was read then. -/
def KeyElement.add (k k' : KeyElement) : KeyElement :=
  ⟨k'.privateKey.or k.privateKey, k.certificates ++ k'.certificates⟩

theorem add_append (k : KeyElement) (keys keys' certs certs' : List (List Char)) :
    (k.add ⟨keys.getLast?, certs.filter isNotBlank⟩).add ⟨keys'.getLast?, certs'.filter isNotBlank⟩ =
      k.add ⟨(keys ++ keys').getLast?, (certs ++ certs').filter isNotBlank⟩ := by
  unfold KeyElement.add
  rw [List.getLast?_append, List.filter_append, List.append_assoc, Option.or_assoc]

/-- Elements within a `Key` add to its private key and its certificates. -/
theorem seen_closed (hf : Flat true f) (k : KeyElement) : seen k f = (k.add (KeyElement.ofChildren f), []) := by
  induction f generalizing k with
  | nil => simp [seen, KeyElement.add, KeyElement.ofChildren, textsOf]
  | text t rest ih => exact ih hf k
  | element name attr children rest ihc ihr =>
    obtain ⟨hkey, hchildren, hrest⟩ := hf
    have hkey : name ≠ "Key" := fun h => absurd (hkey h) (by decide)
    have hadd := add_append k
    unfold KeyElement.ofChildren textsOf
    rw [← hadd, seen, if_neg hkey]
    by_cases hprivate : name = "PrivateKey"
    · subst hprivate
      simp [KeyElement.add, KeyElement.ofChildren, isClosed, ihr hrest]
    · by_cases hcert : name = "Certificate"
      · subst hcert
        simp [KeyElement.add, KeyElement.ofChildren, isClosed, ihr hrest]
      · have hclosed : isClosed name = false := by simp [isClosed, hkey, hprivate, hcert]
        simp [KeyElement.ofChildren, hprivate, hcert, hclosed, ihc hchildren, ihr hrest]

theorem keyElements_closed (hf : Flat true f) : keyElements f = [] := by
  induction f with
  | nil => rfl
  | text t rest ih => exact ih hf
  | element name attr children rest ihc ihr =>
    obtain ⟨hkey, hchildren, hrest⟩ := hf
    have hkey : name ≠ "Key" := fun h => absurd (hkey h) (by decide)
    rw [keyElements, if_neg hkey, ihc hchildren, ihr hrest, ite_self]
    rfl

/-- The end tags of a flat document find what their elements hold. -/
theorem seen_flat (hf : Flat false f) (k : KeyElement) : (seen k f).2 = keyElements f := by
  induction f generalizing k with
  | nil => rfl
  | text t rest ih => exact ih hf k
  | element name attr children rest ihc ihr =>
    obtain ⟨-, hchildren, hrest⟩ := hf
    rw [Bool.false_or] at hchildren
    rw [seen, keyElements, ihr hrest]
    by_cases hkey : name = "Key"
    · subst hkey
      have hclosed : Flat true children := hchildren
      have hnothing (k' : KeyElement) : (KeyElement.mk none []).add k' = k' := by
        simp [KeyElement.add]
      rw [if_pos rfl, if_pos rfl, seen_closed hclosed, keyElements_closed hclosed, hnothing]
    · rw [if_neg hkey, if_neg hkey]
      by_cases hprivate : name = "PrivateKey"
      · subst hprivate
        rfl
      · by_cases hcert : name = "Certificate"
        · subst hcert
          rfl
        · have hclosed : isClosed name = false := by simp [isClosed, hkey, hprivate, hcert]
          rw [hclosed] at hchildren
          rw [if_neg hprivate, if_neg hcert, if_neg (by simp [hclosed]), ihc hchildren]

theorem seenKeys_closed (hp : FlatPartial true p) (k : KeyElement) : seenKeys k p = [] := by
  induction p generalizing k with
  | complete f => rw [seenKeys, seen_closed hp]
  | inside before name attr children ih =>
    obtain ⟨hbefore, hkey, hchildren⟩ := hp
    have hkey : name ≠ "Key" := fun h => absurd (hkey h) (by decide)
    rw [seenKeys, seen_closed hbefore, if_neg hkey, ih hchildren, ite_self]
    rfl

theorem endedKeys_closed (hp : FlatPartial true p) : endedKeys p = [] := by
  induction p with
  | complete f => exact keyElements_closed hp
  | inside before name attr children ih =>
    obtain ⟨hbefore, -, hchildren⟩ := hp
    rw [endedKeys, keyElements_closed hbefore, ih hchildren, ite_self]
    rfl

theorem seenKeys_flat (hp : FlatPartial false p) (k : KeyElement) : seenKeys k p = endedKeys p := by
  induction p generalizing k with
  | complete f => exact seen_flat hp k
  | inside before name attr children ih =>
    obtain ⟨hbefore, -, hchildren⟩ := hp
    rw [Bool.false_or] at hchildren
    rw [seenKeys, endedKeys, seen_flat hbefore]
    congr 1
    by_cases hkey : name = "Key"
    · subst hkey
      have hclosed : FlatPartial true children := hchildren
      rw [if_pos rfl, seenKeys_closed hclosed, endedKeys_closed hclosed, ite_self]
    · rw [if_neg hkey]
      by_cases hclosed : isClosed name = true
      · rw [if_pos hclosed, if_pos (by simp [hclosed, hkey])]
      · rw [if_neg hclosed, if_neg (by simp [hclosed])]
        rw [Bool.not_eq_true] at hclosed
        rw [hclosed] at hchildren
        exact ih hchildren _

end Flat

/-! ## All or nothing -/

/-- How the stream of events ends. -/
inductive XmlEnd where
  | endDocument
  | exception
deriving DecidableEq

/-- Behind a document each algorithm has the last `Key` element that parses; behind an exception nothing
is left. -/
def AllOrNothing (lib : PemParsers) (p : XmlPartial) : XmlEnd → Prop
  | .endDocument => ∀ algorithm, (readFromXml lib (some p.events)).lookup algorithm =
      lastOf algorithm ((endedKeys p).filterMap (KeyElement.stored lib))
  | .exception => readFromXml lib (some p.events) = ∅

/-- When it is: behind a document the `Key` elements that parse as they are and those that parse as their
end tags find them come to the same for each algorithm; behind an exception no end tag found one that
parses. -/
def LoadsAlike (lib : PemParsers) (p : XmlPartial) : XmlEnd → Prop
  | .endDocument => ∀ algorithm,
      lastOf algorithm ((seenKeys ⟨none, []⟩ p).filterMap (KeyElement.stored lib)) =
        lastOf algorithm ((endedKeys p).filterMap (KeyElement.stored lib))
  | .exception => ∀ k ∈ seenKeys ⟨none, []⟩ p, KeyElement.stored lib k = none

/-- The keyboxes, whatever the stream ends with. -/
theorem readFromXml_eq (p : XmlPartial) :
    readFromXml lib (some p.events) =
      assignAll ∅ ((seenKeys ⟨none, []⟩ p).filterMap (KeyElement.stored lib)) :=
  readEvents_unfinished lib p {}

/-- A stream whose end tags match is that of a document as far as it was read, so these are all streams that
the parser delivers. -/
theorem exists_readFromXml_eq {es : List XmlEvent} {stack : List String} (h : openAfter [] es = some stack) :
    ∃ p : XmlPartial, p.events = es ∧ p.openNames = stack ∧
      readFromXml lib (some es) = assignAll ∅ ((seenKeys ⟨none, []⟩ p).filterMap (KeyElement.stored lib)) := by
  obtain ⟨p, rfl, hopen⟩ := exists_unfinished es stack h
  exact ⟨p, rfl, hopen, readFromXml_eq lib p⟩

/-- Loading a file drops every key that was made with the keyboxes before. -/
theorem updateKeyBoxFile_eq (d : Daemon) (p : XmlPartial) :
    (d.updateKeyBoxFile lib (some (some p.events))).keyboxes =
        assignAll ∅ ((seenKeys ⟨none, []⟩ p).filterMap (KeyElement.stored lib)) ∧
      (d.updateKeyBoxFile lib (some (some p.events))).cache = {} ∧
      (d.updateKeyBoxFile lib (some (some p.events))).leafAlgorithms = ∅ :=
  ⟨readFromXml_eq lib p, rfl, rfl⟩

theorem assignAll_eq_empty_iff (l : List (String × KeyBox)) :
    assignAll (∅ : HashMap String KeyBox) l = ∅ ↔ l = [] := by
  constructor
  · intro h
    by_contra hne
    obtain ⟨e, he⟩ := List.exists_mem_of_ne_nil l hne
    have hlookup : (assignAll (∅ : HashMap String KeyBox) l).lookup e.1 = none := by
      rw [h]
      rfl
    rw [lookup_assignAll_empty, lastOf_eq_none_iff] at hlookup
    exact hlookup e.2 he
  · rintro rfl
    rfl

/-- A flat document loads alike when it is complete, or when no `Key` element that parses has ended. -/
theorem loadsAlike_flat {p : XmlPartial} (hp : FlatPartial false p) (ending : XmlEnd) :
    LoadsAlike lib p ending ↔
      ending = .endDocument ∨ ∀ k ∈ endedKeys p, KeyElement.stored lib k = none := by
  cases ending with
  | endDocument => exact ⟨fun _ => .inl rfl, fun _ algorithm => by rw [seenKeys_flat hp]⟩
  | exception =>
    unfold LoadsAlike
    rw [seenKeys_flat hp]
    simp

/-- When loading a file is all or nothing. -/
theorem allOrNothing_iff (p : XmlPartial) (ending : XmlEnd) :
    (AllOrNothing lib p ending ↔ LoadsAlike lib p ending) ∧
      (FlatPartial false p → (AllOrNothing lib p ending ↔
        ending = .endDocument ∨ ∀ k ∈ endedKeys p, KeyElement.stored lib k = none)) := by
  have hiff : AllOrNothing lib p ending ↔ LoadsAlike lib p ending := by
    cases ending with
    | endDocument =>
      unfold AllOrNothing LoadsAlike
      rw [readFromXml_eq]
      simp only [lookup_assignAll_empty]
    | exception =>
      unfold AllOrNothing LoadsAlike
      rw [readFromXml_eq, assignAll_eq_empty_iff, List.filterMap_eq_nil_iff]
  exact ⟨hiff, fun hp => hiff.trans (loadsAlike_flat lib hp ending)⟩

end KeyBoxUtils

namespace Demo

open KeyBoxUtils

/-- Every text is the private key of an EC key, and every text is a certificate. -/
def pemParsers : PemParsers where
  parseKeyPair := fun pem => some (⟨[UInt8.ofNat pem.length], [1]⟩, "EC")
  parseCertificate := fun text => some { encoded := [UInt8.ofNat text.length] }

def leafElement (name : String) (text : List Char) (rest : XmlForest) : XmlForest :=
  .element name none (.text (some text) .nil) rest

/-- A `Key` element with a private key and one certificate. -/
def keyElement (rest : XmlForest) : XmlForest :=
  .element "Key" (some "ecdsa")
    (leafElement "PrivateKey" ['k'] (.element "CertificateChain" none (leafElement "Certificate" ['c'] .nil) .nil))
    rest

/-- The file breaks off behind the first `Key` element. -/
def brokenFile : XmlPartial := .inside .nil "Keybox" none (.complete (keyElement .nil))

def completeFile : XmlPartial := .complete (.element "Keybox" none (keyElement .nil) .nil)

/-- A `Key` element with another one in front of its private key. -/
def nestedFile : XmlPartial :=
  .complete (.element "Key" none (keyElement (leafElement "PrivateKey" ['k', 'k'] .nil)) .nil)

end Demo

open Demo KeyBoxUtils in
/-- The keybox that was stored before the exception stays. -/
theorem readFromXml_broken_file : ¬ AllOrNothing pemParsers brokenFile .exception := by
  unfold AllOrNothing
  rw [readFromXml_eq, assignAll_eq_empty_iff]
  decide

open Demo KeyBoxUtils in
/-- The private key of the outer element is stored with the certificate of the inner one. -/
example : ¬ LoadsAlike pemParsers nestedFile .endDocument := fun h => absurd (h "EC") (by decide)

open Demo KeyBoxUtils in
theorem allOrNothing_iff_complete_file : AllOrNothing pemParsers completeFile .endDocument := by
  have hflat : FlatPartial false completeFile := by
    simp [completeFile, keyElement, leafElement, FlatPartial, Flat, isClosed]
  exact ((allOrNothing_iff pemParsers completeFile .endDocument).2 hflat).2 (.inl rfl)

end TrickyStore
