import TrickyStore.Model.Daemon

/-!
# Re-signed certificates

`CertificateHack`: a leaf with the attestation extension is rebuilt and signed by a keybox.  On the
legacy keystore the leaf and its chain are two entries that a client reads one after the other, so the
algorithm of a leaf that was read is kept in `leafAlgorithms` for the read of the chain.
-/

open Lib

namespace TrickyStore

/-- What the code reads from a certificate, and the building of a leaf; `none` stands for an exception.
A certificate can be read from its encoding, which is a Java array. -/
structure X509 where
  generateCertificate : Bytes → Option Certificate
  hasAttestationExtension : Certificate → Bool
  publicKeyAlgorithm : Certificate → String
  rebuildLeaf : KeyBox → Certificate → Int → Option Certificate
  generateCertificate_encoded {b : Bytes} {leaf : Certificate} :
    generateCertificate b = some leaf → generateCertificate leaf.encoded = some leaf
  length_rebuildLeaf {keybox : KeyBox} {leaf hacked : Certificate} {uid : Int} :
    rebuildLeaf keybox leaf uid = some hacked → hacked.encoded.length < 2 ^ 31

namespace CertificateHack

variable (x : X509)

/-- The keybox of an algorithm, else the first one. -/
def keyboxFor (keyboxes : HashMap String KeyBox) (algorithm : String) : Option KeyBox :=
  (keyboxes.lookup algorithm).or (keyboxes.entries.head?.map Sigma.snd)

def hackLeaf (keyboxes : HashMap String KeyBox) (chain : List Certificate) (uid : Int) :
    Option (List Certificate) := do
  let first ← chain.head?
  let leaf ← x.generateCertificate first.encoded
  if !x.hasAttestationExtension leaf then return chain
  let keybox ← keyboxFor keyboxes (x.publicKeyAlgorithm leaf)
  let _ ← keybox.certificates.head?
  let hacked ← x.rebuildLeaf keybox leaf uid
  return hacked :: keybox.certificates

/-- The chain as it is when signing throws. -/
def hackCertificateChain (keyboxes : HashMap String KeyBox) (chain : List Certificate) (uid : Int) :
    List Certificate :=
  (hackLeaf x keyboxes chain uid).getD chain

/-- A leaf with the attestation extension. -/
def attestedLeaf (certificate : Bytes) : Option Certificate :=
  (x.generateCertificate certificate).filter fun leaf => x.hasAttestationExtension leaf

/-- `hackUserCertificate` up to the entry: the leaf that is to be signed. -/
def beginUserCertificate (d : Daemon) (certificate : Bytes) (k : Key) : Daemon × Option Certificate :=
  match attestedLeaf x certificate with
  | none => (d, none)
  | some leaf =>
    ({ d with leafAlgorithms := d.leafAlgorithms.insert k (x.publicKeyAlgorithm leaf) }, some leaf)

/-- The rest of it: the certificate as it is when signing throws.  Signing may read the patch levels of
the uid, which resolves its packages. -/
def endUserCertificate (env : Env) (d : Daemon) (certificate : Bytes) (uid : Int) :
    Option Certificate → Daemon × Bytes
  | none => (d, certificate)
  | some leaf =>
    (if env.readsPatchLevels then d.resolved env uid else d,
      ((hackLeaf x d.keyboxes [leaf] uid).bind List.head?).elim certificate Certificate.encoded)

def hackUserCertificate (env : Env) (d : Daemon) (certificate : Bytes) (k : Key) : Daemon × Bytes :=
  let (d', leaf) := beginUserCertificate x d certificate k
  endUserCertificate x env d' certificate k.uid leaf

/-- `Collection<Certificate>.toByteArray`: null when the stream overflows. -/
def toByteArray (certificates : List Certificate) : Option Bytes :=
  let bytes := certificates.flatMap Certificate.encoded
  if bytes.length < 2 ^ 31 then some bytes else none

/-- The chain of a leaf that was signed before; the entry is gone afterwards. -/
def hackCACertificateChain (d : Daemon) (caList : Bytes) (k : Key) : Daemon × Bytes :=
  match d.leafAlgorithms.lookup k with
  | none => (d, caList)
  | some algorithm =>
    ({ d with leafAlgorithms := d.leafAlgorithms.erase k },
      ((keyboxFor d.keyboxes algorithm).bind fun keybox => toByteArray keybox.certificates).getD caList)

/-! ## The keybox that signs -/

/-- The keybox for an attested leaf, and the leaf that it signs. -/
def signing (keyboxes : HashMap String KeyBox) (leaf : Certificate) (uid : Int) :
    Option (KeyBox × Certificate) := do
  let keybox ← keyboxFor keyboxes (x.publicKeyAlgorithm leaf)
  let _ ← keybox.certificates.head?
  let hacked ← x.rebuildLeaf keybox leaf uid
  return (keybox, hacked)

variable {x} {keyboxes : HashMap String KeyBox} {certificate : Bytes} {leaf : Certificate} {uid : Int}

theorem length_signing {signed : KeyBox × Certificate} (h : signing x keyboxes leaf uid = some signed) :
    signed.2.encoded.length < 2 ^ 31 := by
  simp only [signing, Option.bind_eq_bind, Option.bind_eq_some_iff] at h
  obtain ⟨keybox, -, first, -, hacked, hrebuilt, hpair⟩ := h
  cases hpair
  exact x.length_rebuildLeaf hrebuilt

theorem length_toByteArray {certificates : List Certificate} {b : Bytes}
    (h : toByteArray certificates = some b) : b.length < 2 ^ 31 := by
  simp only [toByteArray] at h
  split_ifs at h with hlength
  cases h
  exact hlength

theorem hackLeaf_attested {rest : List Certificate} (h : attestedLeaf x certificate = some leaf) :
    hackLeaf x keyboxes (leaf :: rest) uid =
      (signing x keyboxes leaf uid).map fun signed => signed.2 :: signed.1.certificates := by
  obtain ⟨hleaf, hext⟩ := Option.filter_eq_some_iff.1 h
  simp only [hackLeaf, signing, List.head?_cons, x.generateCertificate_encoded hleaf, hext,
    Option.bind_eq_bind, Option.bind_some, Bool.not_true, Bool.false_eq_true, if_false, Option.map_bind,
    Function.comp_def]
  rfl

/-- What a client gets for a certificate. -/
theorem hackUserCertificate_bytes (env : Env) (d : Daemon) (certificate : Bytes) (k : Key) :
    (hackUserCertificate x env d certificate k).2 =
      ((attestedLeaf x certificate).bind fun leaf => signing x d.keyboxes leaf k.uid).elim certificate
        fun signed => signed.2.encoded := by
  unfold hackUserCertificate beginUserCertificate
  cases hleaf : attestedLeaf x certificate with
  | none => rfl
  | some leaf =>
    simp only [endUserCertificate, Option.bind_some, hackLeaf_attested hleaf]
    cases signing x d.keyboxes leaf k.uid <;> rfl

/-- The chain that is due for the leaf that was read last. -/
def chainDue (d : Daemon) (k : Key) : Option Bytes :=
  ((d.leafAlgorithms.lookup k).bind (keyboxFor d.keyboxes)).bind
    fun keybox => toByteArray keybox.certificates

theorem hackCACertificateChain_bytes (d : Daemon) (caList : Bytes) (k : Key) :
    (hackCACertificateChain d caList k).2 = (chainDue d k).getD caList := by
  unfold hackCACertificateChain chainDue
  cases d.leafAlgorithms.lookup k <;> rfl

end CertificateHack

end TrickyStore
