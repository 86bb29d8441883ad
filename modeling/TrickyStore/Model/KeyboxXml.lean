import TrickyStore.Lib.Markup
import TrickyStore.Model.ConfigFiles
import TrickyStore.Model.Daemon

/-!
# The keybox file

`readFromXml` pulls the events of `keybox.xml` from a parser.  The attribute, the private key and the
certificates of a `Key` element are kept in variables that its start tag resets, and its end tag stores a
keybox.  The stream ends with the document or with an exception of the parser; the exception is logged, and
the keyboxes that were stored before it stay.
-/

open Lib Markup

namespace TrickyStore

/-- An event of the parser, with the `algorithm` attribute of a start tag and the text of a text event, which
may be null.  Ignorable white space is a text. -/
abbrev XmlEvent := Event (Option String) (Option (List Char))

/-- Parsing PEM: a private key gives the key pair with the algorithm that its private key names. -/
structure PemParsers where
  parseKeyPair : List Char → Option (KeyPair × String)
  parseCertificate : List Char → Option Certificate

namespace KeyBoxUtils

/-- The variables of `readFromXml`. -/
structure Variables where
  keyAlgoAttr : Option String := none
  privateKeyText : Option (List Char) := none
  certTexts : List (List Char) := []
  keyboxes : HashMap String KeyBox := ∅

/-- The text up to the end tag of the element that is open at depth 1, and the events behind it.  Behind the
last event the parser throws. -/
def readElementText (sb : List Char) (depth : ℕ) : List XmlEvent → Option (List Char × List XmlEvent)
  | [] => none
  | .startTag _ _ :: es => readElementText sb (depth + 1) es
  | .endTag _ :: es => if depth ≤ 1 then some (sb, es) else readElementText sb (depth - 1) es
  | .text t :: es => readElementText (sb ++ t.getD []) depth es

/-- `uppercase`, for the ASCII names of algorithms. -/
def uppercase (s : String) : String := String.ofList (s.toList.map Char.toUpper)

/-- The name under which a keybox is stored.  The attribute of the element is compared with it for the log
only. -/
def algorithmName (derived : String) : String :=
  if uppercase derived = "ECDSA" then "EC"
  else if uppercase derived = "EC" then "EC"
  else if uppercase derived = "RSA" then "RSA"
  else derived

variable (lib : PemParsers)

/-- What an element with this private key and these certificates is stored as, if it is. -/
def keyboxOf (privateKeyText : Option (List Char)) (certTexts : List (List Char)) : Option (String × KeyBox) :=
  match privateKeyText with
  | none => none
  | some pem =>
    if isNotBlank pem then do
      let (keyPair, derived) ← lib.parseKeyPair pem
      let certs ← certTexts.mapM lib.parseCertificate
      return (algorithmName derived, ⟨keyPair, certs⟩)
    else none

def Variables.storeKeybox (s : Variables) : Variables :=
  match keyboxOf lib s.privateKeyText s.certTexts with
  | some (name, keybox) => { s with keyboxes := s.keyboxes.insert name keybox }
  | none => s

theorem readElementText_length {sb text : List Char} {depth : ℕ} {es es' : List XmlEvent}
    (h : readElementText sb depth es = some (text, es')) : es'.length < es.length := by
  induction es generalizing sb depth with
  | nil => cases h
  | cons e es ih =>
    cases e with
    | startTag name attr => exact (ih h).trans (Nat.lt_succ_self _)
    | text t => exact (ih h).trans (Nat.lt_succ_self _)
    | endTag name =>
      rw [readElementText] at h
      split_ifs at h
      · cases h
        exact Nat.lt_succ_self _
      · exact (ih h).trans (Nat.lt_succ_self _)

/-- The loop of `readFromXml`, from an event on. -/
def readEvents (s : Variables) : List XmlEvent → Variables
  | [] => s
  | .startTag name algorithm :: es =>
    if name = "Key" then
      readEvents { s with keyAlgoAttr := algorithm, privateKeyText := none, certTexts := [] } es
    else if name = "PrivateKey" then
      match h : readElementText [] 1 es with
      | some (text, es') =>
        have := readElementText_length h
        readEvents { s with privateKeyText := some text } es'
      | none => s
    else if name = "Certificate" then
      match h : readElementText [] 1 es with
      | some (text, es') =>
        have := readElementText_length h
        readEvents (if isNotBlank text then { s with certTexts := s.certTexts ++ [text] } else s) es'
      | none => s
    else readEvents s es
  | .endTag name :: es => readEvents (if name = "Key" then s.storeKeybox lib else s) es
  | .text _ :: es => readEvents s es
termination_by es => es.length
decreasing_by all_goals simp only [List.length_cons]; omega

/-- The keyboxes after `readFromXml`; without data they are only cleared. -/
def readFromXml (xmlData : Option (List XmlEvent)) : HashMap String KeyBox :=
  match xmlData with
  | none => ∅
  | some events => (readEvents lib {} events).keyboxes

end KeyBoxUtils

/-- `PkgConfig.updateKeyBox` on a file: none, one that cannot be read, or one with these events. -/
def Daemon.updateKeyBoxFile (lib : PemParsers) (f : Option (Option (List XmlEvent))) (d : Daemon) : Daemon :=
  match f with
  | none => d.updateKeyBox (KeyBoxUtils.readFromXml lib none)
  | some none => d
  | some (some events) => d.updateKeyBox (KeyBoxUtils.readFromXml lib (some events))

end TrickyStore
