import IpfsCluster.Proofs.Auth.Tokens

/-! # Authentication by tokens

An issued token of an API key lets in the principal of the current record of its key, exactly as long as the key is
active, not expired and not revoked. The window of signed tokens wraps around, and the timestamp of a wallet token is
not signed. Validating a JSON web token does not look at its times. Colons in the fields of a signed message make its
text ambiguous.
-/

namespace IpfsCluster.Soundness

open Golang Machine Model.Api Model.Auth Proofs.Auth DIDAuthenticator List

/-- After every sequence of creations, revocations and updates, with last uses recorded at any times in between, and at
every time: a token that was issued is accepted with a principal exactly if the key has a record, which says that it is
active and not expired and who the principal is; and a token with a key that was never issued is rejected. Identifiers
have to be fresh, and updates have to keep the identifier of the key with their hash. -/
theorem api_key_sound {codecs : KeyCodecs} (lawful : KeyCodecs.Lawful codecs) {events : List KeyEvent} {s : KeyService}
    (keeps : (keyMachine codecs).Meets KeepsIdentity .empty events)
    (ran : (keyMachine codecs).run .empty events = some s) (now : Time) :
    (∀ response ∈ s.issued, ∀ principal, authenticateAPIKey codecs s.keys now response.token = .ok principal ↔
      ∃ apiKey, ledgerOf codecs events response.id = some apiKey ∧ Admits apiKey now ∧ principalOf apiKey = principal) ∧
    ∀ token, (∀ response ∈ s.issued, decodeToken codecs token ≠ decodeToken codecs response.token) →
      ∃ err, authenticateAPIKey codecs s.keys now token = .error err := by
  have is := isLedgerOf_run lawful keeps ran
  constructor
  · intro response member principal
    obtain ⟨_, secret, token⟩ := is.shape response member
    have issued : IsIssued codecs s response.id (keyStringOf response.id secret) := ⟨response, member, rfl, token⟩
    rw [authenticateAPIKey_eq_ok_iff, token, decodeToken_tokenOf lawful]
    constructor
    · rintro ⟨decoded, apiKey, decodes, found, admits, _, same⟩
      obtain rfl := Except.ok.inj decodes
      rw [is.lookup_hash lawful issued] at found
      exact ⟨apiKey, found, admits, same⟩
    · rintro ⟨apiKey, record, admits, same⟩
      have found := (is.lookup_hash lawful issued).trans record
      exact ⟨_, apiKey, rfl, found, admits, (is.stored _ _ found).1.symm, same⟩
  · intro token unknown
    cases outcome : authenticateAPIKey codecs s.keys now token with
    | error err => exact ⟨err, rfl⟩
    | ok principal =>
      obtain ⟨decoded, apiKey, decodes, found, _⟩ := authenticateAPIKey_eq_ok_iff.mp outcome
      obtain ⟨_, _, keyString, ⟨response, member, _, issued⟩, hash⟩ := is.stored _ _ found
      refine (unknown response member ?_).elim
      rw [decodes, issued, decodeToken_tokenOf lawful, lawful.hash_injective hash]

def byteChars (bytes : ByteArray) : String := String.ofList (bytes.data.toList.map fun b => Char.ofNat b.toNat)

def charBytes (s : String) : Except String ByteArray := .ok ⟨(s.toList.map fun c => UInt8.ofNat c.toNat).toArray⟩

theorem charBytes_byteChars (bytes : ByteArray) : charBytes (byteChars bytes) = .ok bytes := by
  have back (b : UInt8) : UInt8.ofNat (Char.ofNat b.toNat).toNat = b := by
    have small : b.toNat < 256 := b.toNat_lt
    have valid : b.toNat.isValidChar := Or.inl (by omega)
    rw [Char.toNat_ofNat, if_pos valid, UInt8.ofNat_toNat]
  have all : (bytes.data.toList.map fun b => UInt8.ofNat (Char.ofNat b.toNat).toNat) = bytes.data.toList := by
    simp only [back, map_id']
  rw [charBytes, byteChars, String.toList_ofList, map_map]
  exact congrArg Except.ok (ByteArray.ext (Array.toList_inj.mp all))

def plainKeys : KeyCodecs := ⟨byteChars, byteChars, charBytes⟩

theorem lawful_plainKeys : KeyCodecs.Lawful plainKeys where
  hash_injective first second same := by
    have back := charBytes_byteChars first
    rw [show byteChars first = byteChars second from same, charBytes_byteChars second] at back
    exact (Except.ok.inj back).symm
  decode_encode := charBytes_byteChars

def fiveNanos : CreateAPIKeyRequest := { principalID := "p", ttl := 5 }

def drawOf (n : UInt8) : KeyDraw := ⟨.ok [255], [n], ⟨0⟩, ⟨0⟩⟩

/-- Two keys are created, and the first one is revoked. -/
def oneRevoked : List KeyEvent := [.create fiveNanos (drawOf 1), .create fiveNanos (drawOf 2), .revoke .stored (hexString [1])]

theorem api_key_sound_revoked :
    ∃ s first second, (keyMachine plainKeys).run .empty oneRevoked = some s ∧ s.issued = [second, first] ∧
      authenticateAPIKey plainKeys s.keys ⟨5⟩ second.token =
        .ok { id := "p", type := "service", tenantID := "default", attrs := some ∅, method := .apiKey,
              issuedAt := ⟨0⟩, expiresAt := some ⟨5⟩ } ∧
      ∀ principal, authenticateAPIKey plainKeys s.keys ⟨5⟩ first.token ≠ .ok principal := by
  have fresh : (keyMachine plainKeys).Meets KeepsIdentity .empty oneRevoked := by
    refine ⟨fun _ member => (not_mem_nil member).elim, fun _ created => ?_⟩
    cases created
    refine ⟨fun response member => ?_, fun _ _ => ⟨trivial, fun _ _ => trivial⟩⟩
    obtain rfl := mem_singleton.mp member
    decide
  have revoked : ledgerOf plainKeys oneRevoked (hexString [1]) = none := by
    simp only [ledgerOf, oneRevoked, foldl, Ledger.apply, Function.update_self]
  have record : ledgerOf plainKeys oneRevoked (hexString [2]) =
      some (newAPIKey plainKeys fiveNanos (drawOf 2) [255]) := by
    have other : hexString [2] ≠ hexString [1] := by decide
    simp only [ledgerOf, oneRevoked, foldl, Ledger.apply, Function.update_of_ne other, Ledger.create, drawOf,
      Function.update_self]
  have sound := (api_key_sound lawful_plainKeys fresh rfl ⟨5⟩).1
  refine ⟨_, _, _, rfl, rfl, (sound _ mem_cons_self _).mpr ⟨_, record, ⟨rfl, by decide⟩, rfl⟩, ?_⟩
  intro principal accepted
  obtain ⟨_, listed, _⟩ := (sound _ (.tail _ mem_cons_self) _).mp accepted
  cases revoked.symm.trans listed

def trustingResolver : Web3Resolver where
  resolveAddress _ := .ok {}
  verifySignature _ _ _ := none

def trustingWeb3 : Web3Authenticator := ⟨1, trustingResolver⟩

def trustingDID : DIDAuthenticator where
  resolveDID _ := .ok ⟨[⟨"key", "EcdsaSecp256k1VerificationKey2019", "key"⟩], ["key"]⟩
  tools := {
    hexDecode text := .ok (if text = "key" then 4 :: .replicate 64 0 else .replicate 64 0)
    ecdsaVerify _ _ _ := true
    equalFold a b := a == b }

def always {Message : Type} (signedMsg : Message) (_ : String) : Except String Message := .ok signedMsg

def web3Token (timestamp : Int64) : Web3SignedMessage := ⟨"", "", "", timestamp, 0, ""⟩

def didToken (timestamp : Int64) : SignedMessage := ⟨"", timestamp, "", "", "", "did"⟩

theorem accepts_web3Token {now timestamp : Int64} (inside : outOfRange now timestamp = false) :
    Accepts (trustingWeb3.authenticate (always (web3Token timestamp)) now "") := by
  have onChain : OnChain trustingWeb3 (web3Token timestamp) := .inl rfl
  have resolves : Resolves trustingWeb3 (web3Token timestamp) := ⟨rfl, {}, rfl⟩
  have decoded : always (web3Token timestamp) "" = .ok (web3Token timestamp) := rfl
  exact (accepts_web3_iff decoded).mpr ⟨inside, onChain, resolves⟩

theorem accepts_didToken {now timestamp : Int64} (inside : outOfRange now timestamp = false) :
    Accepts (trustingDID.authenticate (always (didToken timestamp)) now "") := by
  refine ⟨principalOf (didToken timestamp), ?_⟩
  change trustingDID.authenticateMessage now (didToken timestamp) = _
  have verified : trustingDID.verifyDIDSignature (didToken timestamp) = none := by
    simp [verifyDIDSignature, findVerificationMethod, verifyECDSASignature, trustingDID, didToken]
  rw [authenticateMessage,
    if_neg (show ¬ outOfRange now (didToken timestamp).timestamp = true from Bool.eq_false_iff.mp inside)]
  dsimp only
  rw [if_pos (show (didToken timestamp).type = "did" from rfl), verified]

/-- Tokens with a timestamp are accepted near to it only, by both authenticators, exactly if the distance is not one of
those at which the subtractions wrap around. -/
theorem token_window_iff (now timestamp : Int64) (current : 0 ≤ now.toInt) :
    ((∀ (w : Web3Authenticator) unmarshal token signedMsg, unmarshal token = .ok signedMsg →
        signedMsg.timestamp = timestamp → Accepts (w.authenticate unmarshal now token) →
          |now.toInt - timestamp.toInt| ≤ 300) ↔ ¬ WrapsAround now timestamp) ∧
      ((∀ (d : DIDAuthenticator) unmarshal token signedMsg, unmarshal token = .ok signedMsg →
        signedMsg.timestamp = timestamp → Accepts (d.authenticate unmarshal now token) →
          |now.toInt - timestamp.toInt| ≤ 300) ↔ ¬ WrapsAround now timestamp) := by
  have range : outOfRange now timestamp = false ↔ |now.toInt - timestamp.toInt| ≤ 300 ∨ WrapsAround now timestamp :=
    outOfRange_eq_false_iff current
  refine ⟨⟨fun near wraps => ?_, fun honest w unmarshal token signedMsg decoded same accepted => ?_⟩,
    ⟨fun near wraps => ?_, fun honest d unmarshal token signedMsg decoded same accepted => ?_⟩⟩
  · have accepted := accepts_web3Token (range.mpr (.inr wraps))
    exact not_near_of_wrapsAround wraps (near trustingWeb3 _ "" (web3Token timestamp) rfl rfl accepted)
  · have inside := ((accepts_web3_iff decoded).mp accepted).1
    rw [same] at inside
    exact (range.mp inside).resolve_right honest
  · have accepted := accepts_didToken (range.mpr (.inr wraps))
    exact not_near_of_wrapsAround wraps (near trustingDID _ "" (didToken timestamp) rfl rfl accepted)
  · have inside := inRange_of_accepts_did decoded accepted
    rw [same] at inside
    exact (range.mp inside).resolve_right honest

theorem token_window_wraps : Accepts (trustingWeb3.authenticate (always (web3Token (Int64.minValue + 1000))) 1000 "") ∧
      Accepts (trustingDID.authenticate (always (didToken (Int64.minValue + 1000))) 1000 "") ∧
      ¬ |(1000 : Int64).toInt - (Int64.minValue + 1000).toInt| ≤ 300 :=
  ⟨accepts_web3Token (by decide +kernel), accepts_didToken (by decide +kernel), by decide +kernel⟩

theorem token_window_iff_minute :
    ¬ WrapsAround 1000 940 ∧ ∀ (w : Web3Authenticator) unmarshal token signedMsg, unmarshal token = .ok signedMsg →
      signedMsg.timestamp = 940 → Accepts (w.authenticate unmarshal 1000 token) →
        |(1000 : Int64).toInt - (940 : Int64).toInt| ≤ 300 := by
  have honest : ¬ WrapsAround 1000 940 := by
    unfold WrapsAround
    decide +kernel
  exact ⟨honest, (token_window_iff 1000 940 (by decide +kernel)).1.mpr honest⟩

/-- Two wallet tokens with the same address, message and signature are never both accepted, at whatever times, exactly
if the resolver does not accept the message or one of them names another chain. -/
theorem web3_replay_iff {w : Web3Authenticator} {unmarshal : String → Except String Web3SignedMessage}
    {token₁ token₂ : String} {first second : Web3SignedMessage} (decoded₁ : unmarshal token₁ = .ok first)
    (decoded₂ : unmarshal token₂ = .ok second) (address : first.address = second.address)
    (message : first.message = second.message) (signature : first.signature = second.signature) :
    (∀ now₁ now₂ : Int64, 0 ≤ now₁.toInt → 0 ≤ now₂.toInt →
        ¬ (Accepts (w.authenticate unmarshal now₁ token₁) ∧ Accepts (w.authenticate unmarshal now₂ token₂))) ↔
      ¬ Resolves w first ∨ ¬ OnChain w first ∨ ¬ OnChain w second := by
  have resolves : Resolves w second ↔ Resolves w first := by rw [Resolves, Resolves, address, message, signature]
  constructor
  · intro never
    by_contra usable
    rw [not_or, not_or, not_not, not_not, not_not] at usable
    obtain ⟨resolved, onChain₁, onChain₂⟩ := usable
    obtain ⟨now₁, current₁, inside₁⟩ := exists_in_range first.timestamp
    obtain ⟨now₂, current₂, inside₂⟩ := exists_in_range second.timestamp
    refine never now₁ now₂ current₁ current₂ ⟨(accepts_web3_iff decoded₁).mpr ⟨inside₁, onChain₁, resolved⟩,
      (accepts_web3_iff decoded₂).mpr ⟨inside₂, onChain₂, resolves.mpr resolved⟩⟩
  · rintro unusable now₁ now₂ - - ⟨accepted₁, accepted₂⟩
    obtain ⟨-, onChain₁, resolved⟩ := (accepts_web3_iff decoded₁).mp accepted₁
    obtain ⟨-, onChain₂, -⟩ := (accepts_web3_iff decoded₂).mp accepted₂
    rcases unusable with unresolved | otherChain | otherChain
    · exact unresolved resolved
    · exact otherChain onChain₁
    · exact otherChain onChain₂

def stamped (token : String) : Except String Web3SignedMessage :=
  .ok (web3Token (if token = "early" then 1000 else 2000))

theorem web3_replay_accepted :
    Accepts (trustingWeb3.authenticate stamped 1000 "early") ∧ Accepts (trustingWeb3.authenticate stamped 2000 "late") :=
  ⟨⟨_, rfl⟩, _, rfl⟩

def distrustingWeb3 : Web3Authenticator := ⟨1, { trustingResolver with verifySignature := fun _ _ _ => some "invalid" }⟩

theorem web3_replay_iff_rejected :
    ¬ Resolves distrustingWeb3 (web3Token 1000) ∧ ∀ now₁ now₂ : Int64, 0 ≤ now₁.toInt → 0 ≤ now₂.toInt →
      ¬ (Accepts (distrustingWeb3.authenticate stamped now₁ "early") ∧
        Accepts (distrustingWeb3.authenticate stamped now₂ "late")) := by
  have rejected : ¬ Resolves distrustingWeb3 (web3Token 1000) := fun resolves => nomatch resolves.1
  exact ⟨rejected, (web3_replay_iff (show stamped "early" = .ok (web3Token 1000) from rfl)
    (show stamped "late" = .ok (web3Token 2000) from rfl) rfl rfl rfl).mpr (.inl rejected)⟩

section

variable {j : JWTAuthenticator} {now : Int64} {token : String} {claims : JWTClaims}

theorem errorOf_eq_none_iff {answer : Except String Principal} : errorOf answer = none ↔ Accepts answer := by
  cases answer with
  | error err => exact iff_of_false nofun nofun
  | ok principal => exact iff_of_true rfl ⟨principal, rfl⟩

/-- The claims are in force at a time, and for the issuer and the audience that are configured. -/
structure InForce (j : JWTAuthenticator) (now : Int64) (claims : JWTClaims) : Prop where
  expiresAt : 0 < claims.expiresAt → now ≤ claims.expiresAt
  notBefore : 0 < claims.notBefore → claims.notBefore ≤ now
  issuer : j.issuer ≠ "" → claims.issuer = j.issuer
  audience : j.audience ≠ "" → claims.audience = j.audience

theorem accepts_jwt_iff (valid : j.validateTokenClaims token = .ok claims) :
    Accepts (j.authenticate now token) ↔ InForce j now claims := by
  rw [JWTAuthenticator.authenticate, valid]
  dsimp only
  split
  next expired => exact iff_of_false nofun fun inForce => Int64.not_le.mpr expired.2 (inForce.expiresAt expired.1)
  next fresh =>
    split
    next early => exact iff_of_false nofun fun inForce => Int64.not_le.mpr early.2 (inForce.notBefore early.1)
    next begun =>
      split
      next foreign => exact iff_of_false nofun fun inForce => foreign.2 (inForce.issuer foreign.1)
      next ours =>
        split
        next elsewhere => exact iff_of_false nofun fun inForce => elsewhere.2 (inForce.audience elsewhere.1)
        next here =>
          refine iff_of_true ⟨_, rfl⟩ ⟨fun limited => ?_, fun limited => ?_, fun named => ?_, fun named => ?_⟩
          · exact Int64.not_lt.mp fun late => fresh ⟨limited, late⟩
          · exact Int64.not_lt.mp fun soon => begun ⟨limited, soon⟩
          · exact not_not.mp fun other => ours ⟨named, other⟩
          · exact not_not.mp fun other => here ⟨named, other⟩

/-- Validation of a JSON web token agrees with its use at a time exactly if the token is not valid or its claims are in
force then. The validations of the other authenticators always agree. -/
theorem validation_agrees_iff (j : JWTAuthenticator) (token : String) (now : Int64) :
    ((j.validateToken token = none ↔ Accepts (j.authenticate now token)) ↔
      ∀ claims, j.validateTokenClaims token = .ok claims → InForce j now claims) ∧ (∀ codecs keys now token,
      validateAPIKeyToken codecs keys now token = none ↔ Accepts (authenticateAPIKey codecs keys now token)) ∧
    (∀ (d : DIDAuthenticator) unmarshal now token,
      d.validateToken unmarshal now token = none ↔ Accepts (d.authenticate unmarshal now token)) ∧
    ∀ (w : Web3Authenticator) unmarshal now token,
      w.validateToken unmarshal now token = none ↔ Accepts (w.authenticate unmarshal now token) := by
  refine ⟨?_, fun _ _ _ _ => errorOf_eq_none_iff, fun _ _ _ _ => errorOf_eq_none_iff, fun _ _ _ _ => errorOf_eq_none_iff⟩
  cases valid : j.validateTokenClaims token with
  | error err =>
    have rejected : ¬ Accepts (j.authenticate now token) := by
      rw [JWTAuthenticator.authenticate, valid]
      nofun
    rw [JWTAuthenticator.validateToken, valid]
    exact iff_of_true (iff_of_false nofun rejected) nofun
  | ok claims =>
    rw [JWTAuthenticator.validateToken, valid, accepts_jwt_iff valid]
    refine ⟨fun agrees other same => ?_, fun inForce => iff_of_true rfl (inForce claims rfl)⟩
    cases same
    exact agrees.mp rfl

def trustingJWT : JWTAuthenticator where
  secret := "secret"
  issuer := ""
  audience := ""
  tools := {
    decodeString _ := .ok []
    unmarshalHeader _ := .ok (some "HS256")
    unmarshalClaims _ := .ok { expiresAt := 1 }
    hmac _ _ := [] }

theorem validation_agrees_expired :
    trustingJWT.validateToken "a.b.c" = none ∧ ¬ Accepts (trustingJWT.authenticate 2 "a.b.c") := by
  refine ⟨by decide +kernel, ?_⟩
  rw [← errorOf_eq_none_iff]
  decide +kernel

end

section

/-- The text whose signature is verified, by the type of a message. -/
def payload (signedMsg : SignedMessage) : Option String :=
  if signedMsg.type = "did" then some signedMsg.signedText
  else if signedMsg.type = "ethereum" ∧ startsWith signedMsg.did "did:ethr:" = true then some signedMsg.ethereumText
  else none

variable {m other : SignedMessage}

theorem dropWhile_length (valid : startsWith m.did "did:ethr:" = true) :
    (m.signedText.utf8ByteSize.repr.toList ++ m.signedText.toList).dropWhile Char.isDigit = m.signedText.toList := by
  obtain ⟨address, shape⟩ := startsWith_iff.mp valid
  obtain ⟨rest, start⟩ : ∃ rest, m.signedText.toList = 'd' :: rest := by
    rw [SignedMessage.signedText, shape]
    simp only [String.toList_append, show "did:ethr:".toList = 'd' :: "id:ethr:".toList from rfl, cons_append]
    exact ⟨_, rfl⟩
  have digits : ∀ c ∈ m.signedText.utf8ByteSize.repr.toList, c.isDigit = true := fun c member => by
    rw [Nat.toList_repr] at member
    exact Nat.isDigit_of_mem_toDigits (by decide) (by decide) member
  rw [dropWhile_append_of_pos digits, start]
  rfl

theorem signedText_eq (built : (payload m).isSome = true) (sameType : other.type = m.type)
    (samePayload : payload other = payload m) : other.signedText = m.signedText := by
  unfold payload at built samePayload
  rw [sameType] at samePayload
  split_ifs at built samePayload with isDid isEthereum valid
  · exact Option.some.inj samePayload
  · have text := Option.some.inj samePayload
    unfold SignedMessage.ethereumText at text
    rw [String.append_assoc, String.append_assoc, String.append_right_inj] at text
    have chars := congrArg String.toList text
    rw [String.toList_append, String.toList_append] at chars
    apply String.toList_injective
    rw [← dropWhile_length isEthereum.2, ← dropWhile_length valid.2, chars]
  · cases built

theorem colon_not_mem_repr (n : ℤ) : ':' ∉ n.repr.toList := by
  have digits (n : ℕ) : ':' ∉ n.repr.toList := fun member => by
    rw [Nat.toList_repr] at member
    cases @Nat.isDigit_of_mem_toDigits 10 n ':' (by decide) (by decide) member
  cases n with
  | ofNat n => exact digits n
  | negSucc n =>
    change ':' ∉ ("-" ++ n.succ.repr).toList
    rw [String.toList_append, mem_append, not_or]
    exact ⟨by decide, digits _⟩

theorem split_signedText (m : SignedMessage) : split ':' m.signedText =
    split ':' m.did ++ m.timestamp.toInt.repr :: (split ':' m.nonce ++ split ':' m.message) := by
  change split ':' (m.did ++ String.singleton ':' ++ m.timestamp.toInt.repr ++ String.singleton ':' ++ m.nonce ++
    String.singleton ':' ++ m.message) = _
  rw [split_append, split_append, split_append, split_of_not_mem (colon_not_mem_repr _), append_assoc, append_assoc]
  rfl

/-- Two messages of a type that have the same text are the same exactly if their DIDs have the same number of colons, and
their nonces too. -/
theorem payload_injective_iff (built : (payload m).isSome = true) (sameType : other.type = m.type)
    (samePayload : payload other = payload m) :
    (other.did = m.did ∧ other.timestamp = m.timestamp ∧ other.nonce = m.nonce ∧ other.message = m.message) ↔
      other.did.toList.count ':' = m.did.toList.count ':' ∧ other.nonce.toList.count ':' = m.nonce.toList.count ':' := by
  have parts := congrArg (split ':') (signedText_eq built sameType samePayload)
  rw [split_signedText, split_signedText] at parts
  constructor
  · rintro ⟨did, _, nonce, _⟩
    rw [did, nonce]
    exact ⟨rfl, rfl⟩
  · rintro ⟨did, nonce⟩
    obtain ⟨sameDid, rest⟩ := append_inj parts (by rw [length_split, length_split, did])
    obtain ⟨sameTimestamp, rest⟩ := cons.inj rest
    obtain ⟨sameNonce, sameMessage⟩ := append_inj rest (by rw [length_split, length_split, nonce])
    have numbers := congrArg (fun s => parseSigned s.toList) sameTimestamp
    simp only [parseSigned_repr, Option.some.injEq, Int64.toInt_inj] at numbers
    exact ⟨split_injective sameDid, numbers, split_injective sameNonce, split_injective sameMessage⟩

def relayed (type nonce message : String) : SignedMessage := ⟨"did:ethr:0xab", 1, nonce, message, "", type⟩

theorem payload_injective_iff_relayed :
    payload { relayed "ethereum" "x" "y:z" with signature := "0xcd" } = payload (relayed "ethereum" "x" "y:z") ∧
      ({ relayed "ethereum" "x" "y:z" with signature := "0xcd" } : SignedMessage).nonce = "x" := by
  have resigned : payload { relayed "ethereum" "x" "y:z" with signature := "0xcd" } =
      payload (relayed "ethereum" "x" "y:z") := by decide +kernel
  exact ⟨resigned, ((payload_injective_iff (by decide +kernel) (by rfl) resigned).mpr ⟨rfl, rfl⟩).2.2.1⟩

theorem payload_shared : payload (relayed "ethereum" "x" "y:z") = payload (relayed "ethereum" "x:y" "z") ∧
      payload (relayed "did" "x" "y:z") = payload (relayed "did" "x:y" "z") ∧ ∀ d : DIDAuthenticator,
        d.verifyDIDSignature (relayed "did" "x" "y:z") = d.verifyDIDSignature (relayed "did" "x:y" "z") := by
  have text : (relayed "did" "x" "y:z").signedText = (relayed "did" "x:y" "z").signedText := by decide +kernel
  refine ⟨by decide +kernel, by decide +kernel, fun d => ?_⟩
  rw [verifyDIDSignature, verifyDIDSignature, text]
  rfl

end

end IpfsCluster.Soundness
