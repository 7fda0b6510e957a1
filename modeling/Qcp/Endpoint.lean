import Qcp.Exchange
/-!
# Endpoint — what a side shows its peer, and what it takes its peer for

An endpoint is made with a TLS configuration: the credentials a side presents (`Identity`) and what it accepts of its
peer (`Verifier`).  `clientConfig` and `serverConfig` make it of the side's own credentials and of what the peer's
message said; `fits_of_endpointConfig` says what that comes to, whichever of the two it is.
-/
namespace Qcp

open Bare (Bytes Text)

namespace CredentialsType

def fromRepr (n : UInt64) : Option CredentialsType :=
  if n = 0 then some any else if n = 1 then some x509 else if n = 2 then some rawPublicKey else none

theorem fromRepr_eq_some (n : UInt64) (t : CredentialsType) (h : fromRepr n = some t) : n = t.toRepr := by
  unfold fromRepr at h
  by_cases h0 : n = 0
  · rw [if_pos h0] at h
    cases h
    exact h0
  · by_cases h1 : n = 1
    · rw [if_neg h0, if_pos h1] at h
      cases h
      exact h1
    · by_cases h2 : n = 2
      · rw [if_neg h0, if_neg h1, if_pos h2] at h
        cases h
        exact h2
      · rw [if_neg h0, if_neg h1, if_neg h2] at h
        cases h

end CredentialsType

def Variant.asBytes : Variant → Option Bytes
  | bytes bs => some bs
  | _ => none

theorem Variant.asBytes_eq_some (v : Variant) (bs : Bytes) (h : v.asBytes = some bs) : v = .bytes bs := by
  cases v with
  | bytes cs => exact congrArg Variant.bytes (Option.some.inj h)
  | _ => cases h

/-! ## TLS -/

/-- The credentials a side presents. -/
inductive Identity where
  | certificate (der : Bytes)
  | rawPublicKey (spki : Bytes)
deriving DecidableEq

namespace Identity

def kind : Identity → CredentialsType
  | certificate _ => .x509
  | rawPublicKey _ => .rawPublicKey

def bytes : Identity → Bytes
  | certificate der => der
  | rawPublicKey spki => spki

/-- The credentials as a message would have them: their kind is the tag. -/
def tagged (identity : Identity) : TaggedData := ⟨identity.kind.toRepr, .bytes identity.bytes⟩

end Identity

/-- What a side accepts: a certificate that the root has signed, or one key. -/
inductive Verifier where
  | webPki (root : Bytes)
  | rawPublicKey (spki : Bytes)
deriving DecidableEq

/-- The verifier for credentials that sign themselves. -/
def Identity.verifier : Identity → Verifier
  | certificate der => .webPki der
  | rawPublicKey spki => .rawPublicKey spki

theorem Identity.verifier_injective (a b : Identity) (h : a.tagged = b.tagged) : a.verifier = b.verifier := by
  cases a <;> cases b <;> simp_all [tagged, kind, bytes, verifier, CredentialsType.toRepr]

structure TlsConfig where
  verifier : Verifier
  identity : Identity

inductive SectionKind where
  | publicKey
  | certificate
deriving DecidableEq

/-- The libraries for TLS and QUIC, as far as they may refuse something. -/
structure Crypto where
  addRoot : Bytes → Except Text Unit
  clientVerifier : Bytes → Except Text Unit
  serverVerifier : Bytes → Except Text Unit
  fromPem : SectionKind → Bytes → Option Bytes
  /-- A key is in the section for keys. -/
  fromPem_publicKey : ∀ bs, fromPem .publicKey bs = some bs
  certifiedKey : Bytes → Except Text Unit
  clientAuthCert : Bytes → Except Text Unit
  quicServerConfig : TlsConfig → Except Text Unit
  quicClientConfig : TlsConfig → Except Text Unit

namespace Crypto

def missingText : Text := "Missing peer credentials".toList

def invalidText : Text := "Invalid peer credentials".toList

def unknownCertText (sender : Text) (tag : UInt64) : Text :=
  sender ++ " sent unknown cert type ".toList ++ Decimal.showNat tag.toNat

def unreachableText : Text := "internal error: entered unreachable code".toList

variable (C : Crypto) (ourCreds : Credentials) (peer : TaggedData) (compat : Compatibility) (config : Configuration)

/-- The verifier for what the peer said of itself. -/
def verifierFor (sender : Text) (verifierOf : Bytes → Except Text Unit) (publicKey : Bytes → Option Bytes)
    (peerCertData : Bytes) : Except Text Verifier :=
  match CredentialsType.fromRepr peer.tag with
  | some .x509 => do
    C.addRoot peerCertData
    verifierOf peerCertData
    return .webPki peerCertData
  | some .rawPublicKey =>
    match publicKey peerCertData with
    | none => .error "failed to parse public key".toList
    | some spki => .ok (.rawPublicKey spki)
  | none | some .any => .error (unknownCertText sender peer.tag)

/-- The credentials of a type. -/
def identityFor (ownCert : Bytes → Except Text Unit) : CredentialsType → Except Text Identity
  | .any => .error unreachableText
  | .x509 => do
    ownCert ourCreds.certificate
    return .certificate ourCreds.certificate
  | .rawPublicKey => do
    let key ← ourCreds.rawPublicKey
    return .rawPublicKey key

/-- The configuration of either side, with what a client and a server have each their own of; the transport that goes
with it is made afterwards. -/
def tlsConfig (sender : Text) (verifierOf : Bytes → Except Text Unit) (publicKey : Bytes → Option Bytes)
    (ownCert : Bytes → Except Text Unit) (quicConfig : TlsConfig → Except Text Unit) : Except Text TlsConfig :=
  match peer.data.asBytes with
  | none => .error missingText
  | some peerCertData => do
    let verifier ← C.verifierFor peer sender verifierOf publicKey peerCertData
    let identity ← identityFor ourCreds ownCert (Credentials.typeTagFor compat (some config.tlsAuthType))
    let tls : TlsConfig := ⟨verifier, identity⟩
    quicConfig tls
    return tls

def serverConfig : Except Text TlsConfig :=
  C.tlsConfig ourCreds peer compat config "client".toList C.clientVerifier (C.fromPem .publicKey) C.certifiedKey
    C.quicServerConfig

def clientConfig : Except Text TlsConfig :=
  C.tlsConfig ourCreds peer compat config "server".toList C.serverVerifier some C.clientAuthCert
    C.quicClientConfig

/-- What `create_endpoint` does before it makes the transport and looks for a socket. -/
def endpointConfig (server : Bool) : Except Text TlsConfig :=
  match peer.data.asBytes with
  | none => .error invalidText
  | some peerCertData => do
    if CredentialsType.fromRepr peer.tag = some .x509 then C.addRoot peerCertData
    if server then C.serverConfig ourCreds peer compat config
    else C.clientConfig ourCreds peer compat config

/-- The endpoints of a side that is a server, or is not. -/
def platform (server : Bool) (build : Build) (sockets : Sockets) : Platform where
  build
  sockets
  tls ourCreds peer config compat := (C.endpointConfig ourCreds peer compat config server).map fun _ => ()

/-! ## What comes of it -/

variable {C ourCreds peer compat config}

/-- A verifier is for the credentials that the peer said it has. -/
theorem verifierFor_ok {sender : Text} {verifierOf : Bytes → Except Text Unit} {publicKey : Bytes → Option Bytes}
    {peerCertData : Bytes} {verifier : Verifier} (hkey : ∀ bs, publicKey bs = some bs)
    (h : C.verifierFor peer sender verifierOf publicKey peerCertData = .ok verifier) :
    ∃ identity : Identity, peer.tag = identity.tagged.tag ∧ .bytes peerCertData = identity.tagged.data ∧
      verifier = identity.verifier := by
  unfold verifierFor at h
  cases ht : CredentialsType.fromRepr peer.tag with
  | none => rw [ht] at h; cases h
  | some t =>
    have htag := CredentialsType.fromRepr_eq_some _ _ ht
    rw [ht] at h
    cases t with
    | any => cases h
    | x509 =>
      obtain ⟨_, -, h⟩ := (Configuration.bind_eq_ok _ _ _).1 h
      obtain ⟨_, -, h⟩ := (Configuration.bind_eq_ok _ _ _).1 h
      cases h
      exact ⟨.certificate peerCertData, htag, rfl, rfl⟩
    | rawPublicKey =>
      simp only [hkey] at h
      cases h
      exact ⟨.rawPublicKey peerCertData, htag, rfl, rfl⟩

/-- The credentials of a type are what a message of that type has. -/
theorem identityFor_tagged {ownCert : Bytes → Except Text Unit} {t : Option CredentialsType} {identity : Identity}
    {td : TaggedData} (h : identityFor ourCreds ownCert (Credentials.typeTagFor compat t) = .ok identity)
    (htd : ourCreds.toTaggedData compat t = .ok td) : td = identity.tagged := by
  unfold Credentials.toTaggedData at htd
  unfold identityFor at h
  cases ht : Credentials.typeTagFor compat t with
  | any => rw [ht] at h; cases h
  | x509 =>
    rw [ht] at h htd
    obtain ⟨_, -, h⟩ := (Configuration.bind_eq_ok _ _ _).1 h
    cases h
    cases htd
    rfl
  | rawPublicKey =>
    rw [ht] at h htd
    obtain ⟨key, hkey, h⟩ := (Configuration.bind_eq_ok _ _ _).1 h
    cases h
    rw [hkey] at htd
    simp only at htd
    split at htd
    · cases htd
      rfl
    · cases htd

/-- **What either side makes of the messages**: it takes its peer for what the peer said it is, and presents what its
own message says. -/
structure Fits (ourCreds : Credentials) (peer : TaggedData) (compat : Compatibility) (config : Configuration)
    (tls : TlsConfig) : Prop where
  verifier : ∃ identity : Identity, peer = identity.tagged ∧ tls.verifier = identity.verifier
  identity : ∀ td, ourCreds.toTaggedData compat (some config.tlsAuthType) = .ok td → td = tls.identity.tagged

theorem fits_of_tlsConfig {sender : Text} {verifierOf ownCert : Bytes → Except Text Unit}
    {publicKey : Bytes → Option Bytes} {quicConfig : TlsConfig → Except Text Unit} {tls : TlsConfig}
    (hkey : ∀ bs, publicKey bs = some bs)
    (h : C.tlsConfig ourCreds peer compat config sender verifierOf publicKey ownCert quicConfig = .ok tls) :
    Fits ourCreds peer compat config tls := by
  unfold tlsConfig at h
  cases hdata : peer.data.asBytes with
  | none => rw [hdata] at h; cases h
  | some peerCertData =>
    rw [hdata] at h
    obtain ⟨verifier, hverifier, h⟩ := (Configuration.bind_eq_ok _ _ _).1 h
    obtain ⟨identity, hidentity, h⟩ := (Configuration.bind_eq_ok _ _ _).1 h
    obtain ⟨_, -, h⟩ := (Configuration.bind_eq_ok _ _ _).1 h
    cases h
    obtain ⟨theirs, htag, hbytes, rfl⟩ := verifierFor_ok hkey hverifier
    obtain ⟨tag, data⟩ := peer
    have hd : data = .bytes peerCertData := Variant.asBytes_eq_some _ _ hdata
    constructor
    · refine ⟨theirs, ?_, rfl⟩
      simp only at htag
      rw [htag, hd, hbytes]
    · exact fun td htd => identityFor_tagged hidentity htd

theorem fits_of_endpointConfig {server : Bool} {tls : TlsConfig}
    (h : C.endpointConfig ourCreds peer compat config server = .ok tls) :
    Fits ourCreds peer compat config tls := by
  unfold endpointConfig at h
  cases hdata : peer.data.asBytes with
  | none => rw [hdata] at h; cases h
  | some peerCertData =>
    rw [hdata] at h
    have hc : (if server then C.serverConfig ourCreds peer compat config
        else C.clientConfig ourCreds peer compat config) = .ok tls := by
      simp only at h
      split at h
      · obtain ⟨_, -, h⟩ := (Configuration.bind_eq_ok _ _ _).1 h
        exact h
      · exact h
    cases server with
    | true => exact fits_of_tlsConfig C.fromPem_publicKey hc
    | false => exact fits_of_tlsConfig (fun _ => rfl) hc

end Crypto

/-! ## Two hosts -/

/-- A client's public key on the curve P-256, as a SubjectPublicKeyInfo. -/
def clientKey : Bytes :=
  [48, 89, 48, 19, 6, 7, 42, 134, 72, 206, 61, 2, 1, 6, 8, 42, 134, 72, 206, 61, 3, 1, 7, 3, 66, 0, 4, 206, 224, 231,
   200, 37, 8, 71, 147, 162, 250, 192, 123, 188, 93, 79, 96, 67, 177, 242, 19, 189, 226, 237, 227, 172, 50, 117, 43,
   255, 47, 114, 198, 62, 138, 79, 129, 180, 200, 211, 44, 201, 37, 77, 77, 166, 226, 148, 151, 208, 32, 124, 248, 83,
   2, 64, 20, 106, 147, 19, 113, 159, 60, 156, 0]

/-- And a certificate of it that it has signed itself, for the name `client`. -/
def clientCertificate : Bytes :=
  [48, 130, 1, 121, 48, 130, 1, 32, 160, 3, 2, 1, 2, 2, 20, 102, 81, 131, 251, 198, 171, 230, 213, 30, 126, 9, 244,
   47, 66, 167, 127, 166, 221, 126, 244, 48, 10, 6, 8, 42, 134, 72, 206, 61, 4, 3, 2, 48, 33, 49, 31, 48, 29, 6, 3,
   85, 4, 3, 12, 22, 114, 99, 103, 101, 110, 32, 115, 101, 108, 102, 32, 115, 105, 103, 110, 101, 100, 32, 99, 101,
   114, 116, 48, 32, 23, 13, 50, 54, 49, 49, 50, 48, 49, 55, 49, 54, 52, 54, 90, 24, 15, 50, 49, 50, 54, 49, 48, 50,
   55, 49, 55, 49, 54, 52, 54, 90, 48, 33, 49, 31, 48, 29, 6, 3, 85, 4, 3, 12, 22, 114, 99, 103, 101, 110, 32, 115,
   101, 108, 102, 32, 115, 105, 103, 110, 101, 100, 32, 99, 101, 114, 116] ++ clientKey ++
  [163, 52, 48, 50, 48, 17, 6, 3, 85, 29, 17, 4, 10, 48, 8, 130, 6, 99, 108, 105, 101, 110, 116, 48, 29, 6, 3, 85, 29,
   14, 4, 22, 4, 20, 242, 221, 39, 71, 119, 252, 183, 48, 212, 135, 29, 43, 242, 12, 79, 130, 216, 163, 170, 56, 48,
   10, 6, 8, 42, 134, 72, 206, 61, 4, 3, 2, 3, 71, 0, 48, 68, 2, 32, 0, 175, 219, 164, 6, 202, 1, 46, 172, 218, 123,
   147, 109, 199, 254, 209, 163, 215, 156, 23, 162, 115, 47, 226, 3, 159, 40, 82, 195, 7, 22, 144, 2, 32, 61, 45, 10,
   156, 213, 76, 92, 233, 89, 184, 0, 114, 197, 97, 99, 127, 101, 209, 159, 96, 124, 36, 227, 123, 140, 185, 180, 154,
   125, 34, 29, 147]

/-- The same of a server. -/
def serverKey : Bytes :=
  [48, 89, 48, 19, 6, 7, 42, 134, 72, 206, 61, 2, 1, 6, 8, 42, 134, 72, 206, 61, 3, 1, 7, 3, 66, 0, 4, 127, 200, 109,
   88, 174, 207, 15, 151, 85, 38, 238, 77, 144, 145, 69, 220, 204, 145, 233, 67, 220, 91, 28, 140, 72, 91, 217, 54,
   102, 148, 157, 89, 103, 152, 176, 211, 13, 255, 13, 135, 47, 231, 97, 37, 107, 178, 89, 132, 42, 240, 106, 202,
   108, 50, 144, 136, 219, 253, 206, 228, 203, 7, 121, 123]

def serverCertificate : Bytes :=
  [48, 130, 1, 123, 48, 130, 1, 32, 160, 3, 2, 1, 2, 2, 20, 61, 18, 107, 242, 122, 228, 107, 167, 224, 239, 218, 62,
   54, 170, 156, 172, 101, 73, 107, 229, 48, 10, 6, 8, 42, 134, 72, 206, 61, 4, 3, 2, 48, 33, 49, 31, 48, 29, 6, 3,
   85, 4, 3, 12, 22, 114, 99, 103, 101, 110, 32, 115, 101, 108, 102, 32, 115, 105, 103, 110, 101, 100, 32, 99, 101,
   114, 116, 48, 32, 23, 13, 50, 54, 49, 49, 50, 48, 49, 55, 49, 54, 52, 54, 90, 24, 15, 50, 49, 50, 54, 49, 48, 50,
   55, 49, 55, 49, 54, 52, 54, 90, 48, 33, 49, 31, 48, 29, 6, 3, 85, 4, 3, 12, 22, 114, 99, 103, 101, 110, 32, 115,
   101, 108, 102, 32, 115, 105, 103, 110, 101, 100, 32, 99, 101, 114, 116] ++ serverKey ++
  [163, 52, 48, 50, 48, 17, 6, 3, 85, 29, 17, 4, 10, 48, 8, 130, 6, 115, 101, 114, 118, 101, 114, 48, 29, 6, 3, 85,
   29, 14, 4, 22, 4, 20, 116, 181, 111, 71, 127, 175, 74, 252, 131, 97, 61, 245, 110, 223, 71, 189, 209, 117, 81, 255,
   48, 10, 6, 8, 42, 134, 72, 206, 61, 4, 3, 2, 3, 73, 0, 48, 70, 2, 33, 0, 130, 120, 188, 189, 212, 33, 27, 193, 206,
   248, 110, 8, 13, 110, 37, 251, 85, 21, 195, 60, 66, 224, 196, 163, 201, 19, 33, 30, 230, 56, 74, 196, 2, 33, 0,
   249, 79, 131, 223, 126, 146, 6, 124, 21, 160, 128, 249, 228, 244, 114, 59, 12, 60, 186, 49, 109, 228, 16, 228, 35,
   38, 252, 120, 250, 111, 208, 206]

def clientCredentials : Credentials := ⟨clientCertificate, .ok clientKey, "client".toList⟩

def serverCredentials : Credentials := ⟨serverCertificate, .ok serverKey, "server".toList⟩

/-- Of the two certificates it is known that they are well formed. -/
def knownCertificate (bs : Bytes) : Except Text Unit :=
  if bs = clientCertificate ∨ bs = serverCertificate then .ok ()
  else .error "invalid peer certificate: BadEncoding".toList

/-- The libraries, as far as these two certificates go. -/
def knownCrypto : Crypto where
  addRoot := knownCertificate
  clientVerifier := knownCertificate
  serverVerifier := knownCertificate
  fromPem kind bs := if kind = .publicKey then some bs else none
  fromPem_publicKey _ := rfl
  certifiedKey := knownCertificate
  clientAuthCert := knownCertificate
  quicServerConfig _ := .ok ()
  quicClientConfig _ := .ok ()

/-- A machine on which all ports are free, and 60000 is the first to be given away. -/
def freeSockets : Sockets where
  os _ := .ok ()
  configure socket _ _ := .ok (if socket.boundTo.port = 0 then 60000 else socket.boundTo.port, none)

def clientPlatform : Platform := knownCrypto.platform false releaseBuild freeSockets

def serverPlatform : Platform := knownCrypto.platform true releaseBuild freeSockets

end Qcp
