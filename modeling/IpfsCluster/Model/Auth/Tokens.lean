import IpfsCluster.Golang.Text
import IpfsCluster.Machine.Run
import IpfsCluster.Model.Auth.Types

/-! # Tokens

The token of an API key is the encoded key string, a random secret after a random identifier; the store has the record
of the key at the hash of that string. A successful authentication updates the time of the last use later, in a
goroutine of its own.

A token of a wallet or of a decentralized identifier is a signed message with a timestamp in seconds, which has to be
close to the current time. Recovering a key from an Ethereum signature is not implemented and fails. A JSON web token
can be validated, or used to authenticate, which also checks its claims. Hashes, encodings and curve operations are
those of libraries; random bytes are inputs.
-/

namespace IpfsCluster.Model.Auth

open Api Golang Machine

/-- The record of a key, which has the hash of the key and not the key. -/
structure APIKey where
  id : String
  name : String := ""
  hashedKey : String
  principalID : String := ""
  type : String := ""
  tenantID : String := ""
  roles : List String := []
  attrs : Option Attributes := none
  createdAt : Time := .zero
  expiresAt : Option Time := none
  lastUsedAt : Option Time := none
  isActive : Bool := false
deriving DecidableEq

/-- The records by the hashes of their keys. -/
abbrev MemoryAPIKeyStore := AList fun _ : String => APIKey

namespace MemoryAPIKeyStore

variable (keys : MemoryAPIKeyStore)

/-- Write a record at its hash. -/
def storeAPIKey (apiKey : APIKey) : MemoryAPIKeyStore := keys.insert apiKey.hashedKey apiKey

/-- Read the record of a hash. -/
def getAPIKey (hashedKey : String) : Except String APIKey :=
  match keys.lookup hashedKey with
  | none => .error "API key not found"
  | some apiKey => .ok apiKey

/-- Replace the record with the same hash; the error is that there is none. -/
def updateAPIKey (apiKey : APIKey) : Option String × MemoryAPIKeyStore :=
  match keys.lookup apiKey.hashedKey with
  | none => (some "API key not found", keys)
  | some _ => (none, keys.insert apiKey.hashedKey apiKey)

/-- The first record with an identifier, in the order of the map. -/
def findByID (order : MapOrder) (keyID : String) : Option (Sigma fun _ : String => APIKey) :=
  (order.visit [] keys.entries).find? fun entry => entry.2.id = keyID

/-- Delete a key by its identifier. -/
def deleteAPIKey (order : MapOrder) (keyID : String) : Option String × MemoryAPIKeyStore :=
  match keys.findByID order keyID with
  | none => (some "API key not found", keys)
  | some entry => (none, keys.erase entry.1)

/-- Record the last use of a key by its identifier. -/
def updateLastUsed (order : MapOrder) (keyID : String) (timestamp : Time) : Option String × MemoryAPIKeyStore :=
  match keys.findByID order keyID with
  | none => (some "API key not found", keys)
  | some entry => (none, keys.insert entry.1 { entry.2 with lastUsedAt := some timestamp })

end MemoryAPIKeyStore

section

/-- The hash of a key, which is SHA-256 in hexadecimal digits, and the encoding of tokens, which is base64. -/
structure KeyCodecs where
  hashKey : ByteArray → String
  encodeToString : ByteArray → String
  decodeString : String → Except String ByteArray

/-- A digit below sixteen. -/
def hexDigit (n : ℕ) : Char := "0123456789abcdef".toList.getD n '0'

/-- The bytes in hexadecimal digits. -/
def hexString (bytes : List UInt8) : String :=
  String.ofList (bytes.flatMap fun b => [hexDigit (b.toNat / 16), hexDigit (b.toNat % 16)])

/-- What is asked for a new key; a time to live that is not positive is none. -/
structure CreateAPIKeyRequest where
  name : String := ""
  principalID : String := ""
  type : String := ""
  tenantID : String := ""
  roles : List String := []
  attrs : Option Attributes := none
  ttl : ℤ := 0

/-- What is answered for a new key, the only place of its token. -/
structure CreateAPIKeyResponse where
  id : String
  token : String
  expiresAt : Option Time
deriving DecidableEq

/-- The random bytes and the clock readings of a creation. -/
structure KeyDraw where
  secret : Except String (List UInt8)
  id : List UInt8
  createdAt : Time
  expiresFrom : Time

variable (codecs : KeyCodecs)

/-- The string that is hashed and encoded. -/
def keyStringOf (keyID : String) (secret : List UInt8) : String := keyID ++ ":" ++ hexString secret

/-- The token of a key string. -/
def tokenOf (keyString : String) : String := "ak_" ++ codecs.encodeToString keyString.toUTF8

/-- The record of a new key. -/
def newAPIKey (req : CreateAPIKeyRequest) (draw : KeyDraw) (secret : List UInt8) : APIKey where
  id := hexString draw.id
  name := req.name
  hashedKey := codecs.hashKey (keyStringOf (hexString draw.id) secret).toUTF8
  principalID := req.principalID
  type := req.type
  tenantID := req.tenantID
  roles := req.roles
  attrs := req.attrs
  createdAt := draw.createdAt
  isActive := true
  expiresAt := if 0 < req.ttl then some ⟨draw.expiresFrom.nanos + req.ttl⟩ else none

/-- Create and store a key. -/
def createAPIKey (req : CreateAPIKeyRequest) (draw : KeyDraw) (keys : MemoryAPIKeyStore) :
    Except String CreateAPIKeyResponse × MemoryAPIKeyStore :=
  match draw.secret with
  | .error err => (.error ("failed to generate key: " ++ err), keys)
  | .ok secret =>
    let apiKey := newAPIKey codecs req draw secret
    (.ok ⟨apiKey.id, tokenOf codecs (keyStringOf apiKey.id secret), apiKey.expiresAt⟩, keys.storeAPIKey apiKey)

/-- The principal of a key, with its defaults. -/
def principalOf (apiKey : APIKey) : Principal where
  id := apiKey.principalID
  type := if apiKey.type = "" then "service" else apiKey.type
  tenantID := if apiKey.tenantID = "" then "default" else apiKey.tenantID
  roles := apiKey.roles
  attrs := some (apiKey.attrs.getD ∅)
  method := .apiKey
  issuedAt := apiKey.createdAt
  expiresAt := apiKey.expiresAt

/-- Whether a key has an expiry that has passed. -/
def APIKey.isExpired (apiKey : APIKey) (now : Time) : Bool :=
  match apiKey.expiresAt with
  | none => false
  | some expiresAt => now.after expiresAt

/-- The key string of a token. -/
def decodeToken (token : String) : Except String ByteArray :=
  if !startsWith token "ak_" then .error "invalid API key format"
  else match codecs.decodeString (String.ofList (token.toList.drop 3)) with
    | .error err => .error ("invalid API key encoding: " ++ err)
    | .ok decoded => .ok decoded

/-- The principal of a token, if its key is stored, active and not expired. -/
def authenticateAPIKey (keys : MemoryAPIKeyStore) (now : Time) (token : String) : Except String Principal :=
  match decodeToken codecs token with
  | .error err => .error err
  | .ok decoded =>
    match keys.getAPIKey (codecs.hashKey decoded) with
    | .error err => .error ("API key not found: " ++ err)
    | .ok apiKey =>
      if !apiKey.isActive then .error "API key is inactive"
      else if apiKey.isExpired now then .error "API key expired"
      else if codecs.hashKey decoded ≠ apiKey.hashedKey then .error "invalid API key"
      else .ok (principalOf apiKey)

/-- The error of authenticating a token. -/
def validateAPIKeyToken (keys : MemoryAPIKeyStore) (now : Time) (token : String) : Option String :=
  errorOf (authenticateAPIKey codecs keys now token)

end

/-- The store, and the responses for all keys that were ever issued. -/
structure KeyService where
  keys : MemoryAPIKeyStore
  issued : List CreateAPIKeyResponse

/-- No key was issued. -/
def KeyService.empty : KeyService := ⟨∅, []⟩

/-- The operations on keys, with the order in which a map is visited. -/
inductive KeyEvent where
  | create (req : CreateAPIKeyRequest) (draw : KeyDraw)
  | revoke (order : MapOrder) (keyID : String)
  | update (apiKey : APIKey)
  | updateLastUsed (order : MapOrder) (keyID : String) (timestamp : Time)

/-- Create a key and remember its response. -/
def KeyService.create (codecs : KeyCodecs) (s : KeyService) (req : CreateAPIKeyRequest) (draw : KeyDraw) : KeyService :=
  match createAPIKey codecs req draw s.keys with
  | (.ok response, keys) => { keys := keys, issued := response :: s.issued }
  | (.error _, keys) => { s with keys := keys }

/-- The service takes every operation in every state. -/
def keyMachine (codecs : KeyCodecs) : LabeledMachine KeyService KeyEvent where
  step s
    | .create req draw => some (s.create codecs req draw)
    | .revoke order keyID => some { s with keys := (s.keys.deleteAPIKey order keyID).2 }
    | .update apiKey => some { s with keys := (s.keys.updateAPIKey apiKey).2 }
    | .updateLastUsed order keyID timestamp => some { s with keys := (s.keys.updateLastUsed order keyID timestamp).2 }

/-- Whether a timestamp is more than five minutes away, with the subtractions of 64-bit integers. -/
def outOfRange (now timestamp : Int64) : Bool := now - timestamp > 300 || timestamp - now > 300

/-- What is known of an address. -/
structure Web3Identity where
  ensName : String := ""
  attributes : Option Attributes := none
  roles : List String := []
  tenantID : String := ""

/-- The library behind wallets. -/
structure Web3Resolver where
  resolveAddress : String → Except String Web3Identity
  /-- The error of verifying a message, a signature and an address. -/
  verifySignature : String → String → String → Option String

/-- A message of a wallet; only `message` is signed. -/
structure Web3SignedMessage where
  address : String
  message : String
  signature : String
  timestamp : Int64
  chainID : Int64 := 0
  nonce : String := ""

/-- The chain that tokens have to be of, and the resolver. -/
structure Web3Authenticator where
  chainID : Int64
  resolver : Web3Resolver

/-- The attributes of an identity, with the chain and the name. -/
def web3Attrs (chainID : Int64) (identity : Web3Identity) : Attributes :=
  let attrs := (identity.attributes.getD ∅).insert "chain_id" chainID.toInt.repr
  if identity.ensName ≠ "" then attrs.insert "ens_name" identity.ensName else attrs

/-- Validate a signed message. -/
def Web3Authenticator.authenticateMessage (w : Web3Authenticator) (now : Int64) (signedMsg : Web3SignedMessage) :
    Except String Principal :=
  if outOfRange now signedMsg.timestamp then .error "message timestamp out of range"
  else if signedMsg.chainID ≠ 0 ∧ signedMsg.chainID ≠ w.chainID then
    .error ("invalid chain ID: expected " ++ w.chainID.toInt.repr ++ ", got " ++ signedMsg.chainID.toInt.repr)
  else match w.resolver.verifySignature signedMsg.message signedMsg.signature signedMsg.address with
    | some err => .error ("signature verification failed: " ++ err)
    | none =>
      match w.resolver.resolveAddress signedMsg.address with
      | .error err => .error ("failed to resolve Web3 identity: " ++ err)
      | .ok identity => .ok {
          id := signedMsg.address
          type := "user"
          tenantID := if identity.tenantID = "" then "default" else identity.tenantID
          roles := if identity.roles = [] then ["user"] else identity.roles
          attrs := some (web3Attrs w.chainID identity)
          method := .web3
          issuedAt := Time.ofUnix signedMsg.timestamp.toInt }

/-- Validate a token, which is a message in JSON. -/
def Web3Authenticator.authenticate (w : Web3Authenticator) (unmarshal : String → Except String Web3SignedMessage)
    (now : Int64) (token : String) : Except String Principal :=
  match unmarshal token with
  | .error err => .error ("invalid Web3 signed message format: " ++ err)
  | .ok signedMsg => w.authenticateMessage now signedMsg

/-- The error of authenticating a token. -/
def Web3Authenticator.validateToken (w : Web3Authenticator) (unmarshal : String → Except String Web3SignedMessage)
    (now : Int64) (token : String) : Option String := errorOf (w.authenticate unmarshal now token)

/-- A key of a document. -/
structure VerificationMethod where
  id : String
  type : String
  publicKeyHex : String := ""

/-- The keys of a document, and which of them authenticate. -/
structure DIDDocument where
  verificationMethod : List VerificationMethod
  authentication : List String

/-- A message that a decentralized identifier signed. -/
structure SignedMessage where
  did : String
  timestamp : Int64
  nonce : String := ""
  message : String
  signature : String
  type : String

/-- Encodings and curve operations. -/
structure DIDTools where
  hexDecode : String → Except String (List UInt8)
  /-- Verify a message with the bytes of a key and of a signature. -/
  ecdsaVerify : List UInt8 → String → List UInt8 → Bool
  equalFold : String → String → Bool

/-- The resolver of documents, and the libraries. -/
structure DIDAuthenticator where
  resolveDID : String → Except String DIDDocument
  tools : DIDTools

/-- The text that is signed. -/
def SignedMessage.signedText (signedMsg : SignedMessage) : String :=
  signedMsg.did ++ ":" ++ signedMsg.timestamp.toInt.repr ++ ":" ++ signedMsg.nonce ++ ":" ++ signedMsg.message

/-- The text that is signed in the format of Ethereum, with its length in bytes. -/
def SignedMessage.ethereumText (signedMsg : SignedMessage) : String :=
  "\x19Ethereum Signed Message:\n" ++ signedMsg.signedText.utf8ByteSize.repr ++ signedMsg.signedText

namespace DIDAuthenticator

variable (d : DIDAuthenticator)

/-- The first method that is listed for authentication. -/
def findVerificationMethod (didDoc : DIDDocument) : Option VerificationMethod :=
  didDoc.verificationMethod.find? fun vm =>
    didDoc.authentication.any fun authMethod => vm.id = authMethod || endsWith authMethod ("#" ++ vm.id)

/-- The error of verifying a signature of a message with a key. -/
def verifyECDSASignature (message signature publicKeyHex : String) : Option String :=
  match d.tools.hexDecode publicKeyHex with
  | .error err => some ("invalid public key hex: " ++ err)
  | .ok pubKeyBytes =>
    if pubKeyBytes.length ≠ 65 ∨ pubKeyBytes.head? ≠ some 4 then some "invalid public key format"
    else match d.tools.hexDecode signature with
      | .error err => some ("invalid signature hex: " ++ err)
      | .ok sigBytes =>
        if sigBytes.length ≠ 64 then some "invalid signature length"
        else if !d.tools.ecdsaVerify pubKeyBytes message sigBytes then some "signature verification failed"
        else none

/-- The error of recovering the key that signed a message, which is not implemented. -/
def recoverPublicKey (_message : String) (_sigBytes : List UInt8) : Except String (List UInt8) :=
  .error "public key recovery not implemented"

/-- The address of every key. -/
def publicKeyToAddress (_pubKey : List UInt8) : String := "0x0000000000000000000000000000000000000000"

/-- Verify a message in the format of Ethereum; no key is recovered, so that no signature is. -/
def verifyEthereumECDSASignature (message signature expectedAddress : String) : Option String :=
  match d.tools.hexDecode (trimStart signature "0x") with
  | .error err => some ("invalid signature hex: " ++ err)
  | .ok sigBytes =>
    if sigBytes.length ≠ 65 then some "invalid signature length"
    else match recoverPublicKey message sigBytes with
      | .error err => some ("failed to recover public key: " ++ err)
      | .ok pubKey =>
        if !d.tools.equalFold (publicKeyToAddress pubKey) expectedAddress then
          some "signature does not match expected address"
        else none

/-- Verify a message with the document of its identifier. -/
def verifyDIDSignature (signedMsg : SignedMessage) : Option String :=
  match d.resolveDID signedMsg.did with
  | .error err => some ("failed to resolve DID: " ++ err)
  | .ok didDoc =>
    match findVerificationMethod didDoc with
    | none => some "no suitable verification method found"
    | some vm =>
      if vm.type = "EcdsaSecp256k1VerificationKey2019" then
        d.verifyECDSASignature signedMsg.signedText signedMsg.signature vm.publicKeyHex
      else some ("unsupported verification method type: " ++ vm.type)

/-- Verify a message with the address in its identifier. -/
def verifyEthereumSignature (signedMsg : SignedMessage) : Option String :=
  if startsWith signedMsg.did "did:ethr:" then
    d.verifyEthereumECDSASignature signedMsg.ethereumText signedMsg.signature (trimStart signedMsg.did "did:ethr:")
  else some "invalid Ethereum DID format"

/-- The principal of a message that is verified. -/
def principalOf (signedMsg : SignedMessage) : Principal where
  id := signedMsg.did
  type := "user"
  tenantID := "default"
  roles := ["user"]
  attrs := some ((∅ : Attributes).insert "signature_type" signedMsg.type)
  method := .did
  issuedAt := Time.ofUnix signedMsg.timestamp.toInt

/-- Validate a signed message. -/
def authenticateMessage (now : Int64) (signedMsg : SignedMessage) : Except String Principal :=
  if outOfRange now signedMsg.timestamp then .error "message timestamp out of range"
  else
    let verified : Except String (Option String) :=
      if signedMsg.type = "did" then .ok (d.verifyDIDSignature signedMsg)
      else if signedMsg.type = "ethereum" then .ok (d.verifyEthereumSignature signedMsg)
      else .error ("unsupported signature type: " ++ signedMsg.type)
    match verified with
    | .error err => .error err
    | .ok (some err) => .error ("signature verification failed: " ++ err)
    | .ok none => .ok (principalOf signedMsg)

/-- Validate a token, which is a message in JSON. -/
def authenticate (unmarshal : String → Except String SignedMessage) (now : Int64) (token : String) :
    Except String Principal :=
  match unmarshal token with
  | .error err => .error ("invalid signed message format: " ++ err)
  | .ok signedMsg => d.authenticateMessage now signedMsg

/-- The error of authenticating a token. -/
def validateToken (unmarshal : String → Except String SignedMessage) (now : Int64) (token : String) : Option String :=
  errorOf (d.authenticate unmarshal now token)

end DIDAuthenticator

/-- The claims of a token; a number or text that is missing is zero or empty. -/
structure JWTClaims where
  subject : String := ""
  issuer : String := ""
  audience : String := ""
  expiresAt : Int64 := 0
  issuedAt : Int64 := 0
  notBefore : Int64 := 0
  type : String := ""
  tenantID : String := ""
  roles : List String := []
  attrs : Option Attributes := none

/-- Encodings and the keyed hash. -/
structure JWTTools where
  decodeString : String → Except String (List UInt8)
  /-- The algorithm that a header names, if it is a text. -/
  unmarshalHeader : List UInt8 → Except String (Option String)
  unmarshalClaims : List UInt8 → Except String JWTClaims
  /-- The HMAC with SHA-256 of a message, with a secret. -/
  hmac : String → String → List UInt8

/-- The secret, and the issuer and audience that are expected, if any. -/
structure JWTAuthenticator where
  secret : String
  issuer : String
  audience : String
  tools : JWTTools

namespace JWTAuthenticator

variable (j : JWTAuthenticator)

/-- The signature of a message. -/
def sign (message : String) : List UInt8 := j.tools.hmac j.secret message

/-- The claims of a token of three parts, if the parts can be decoded and are signed. -/
def claimsOf (header payload signature : String) : Except String JWTClaims :=
  match j.tools.decodeString header with
  | .error err => .error ("invalid header encoding: " ++ err)
  | .ok headerData =>
    match j.tools.unmarshalHeader headerData with
    | .error err => .error ("invalid header JSON: " ++ err)
    | .ok alg =>
      if alg ≠ some "HS256" then .error ("unsupported algorithm: " ++ alg.getD "")
      else match j.tools.decodeString signature with
        | .error err => .error ("invalid signature encoding: " ++ err)
        | .ok actualSignature =>
          if j.sign (header ++ "." ++ payload) ≠ actualSignature then .error "invalid signature"
          else match j.tools.decodeString payload with
            | .error err => .error ("invalid payload encoding: " ++ err)
            | .ok payloadData =>
              match j.tools.unmarshalClaims payloadData with
              | .error err => .error ("invalid payload JSON: " ++ err)
              | .ok claims => .ok claims

/-- The claims of a token, which has to have three parts. -/
def validateTokenClaims (token : String) : Except String JWTClaims :=
  match split '.' token with
  | [header, payload, signature] => j.claimsOf header payload signature
  | _ => .error "invalid JWT format"

/-- The error of validating a token. -/
def validateToken (token : String) : Option String := errorOf (j.validateTokenClaims token)

/-- The principal of a token with these claims. -/
def principalOf (claims : JWTClaims) : Principal where
  id := claims.subject
  type := if claims.type = "" then "user" else claims.type
  tenantID := if claims.tenantID = "" then "default" else claims.tenantID
  roles := claims.roles
  attrs := some (claims.attrs.getD ∅)
  method := .jwt
  issuedAt := Time.ofUnix claims.issuedAt.toInt
  expiresAt := if claims.expiresAt > 0 then some (Time.ofUnix claims.expiresAt.toInt) else none

/-- Authenticate a token at a time. -/
def authenticate (now : Int64) (token : String) : Except String Principal :=
  match j.validateTokenClaims token with
  | .error err => .error ("invalid JWT token: " ++ err)
  | .ok claims =>
    if claims.expiresAt > 0 ∧ now > claims.expiresAt then .error "token expired"
    else if claims.notBefore > 0 ∧ now < claims.notBefore then .error "token not yet valid"
    else if j.issuer ≠ "" ∧ claims.issuer ≠ j.issuer then
      .error ("invalid issuer: expected " ++ j.issuer ++ ", got " ++ claims.issuer)
    else if j.audience ≠ "" ∧ claims.audience ≠ j.audience then
      .error ("invalid audience: expected " ++ j.audience ++ ", got " ++ claims.audience)
    else .ok (principalOf claims)

end JWTAuthenticator

end IpfsCluster.Model.Auth
