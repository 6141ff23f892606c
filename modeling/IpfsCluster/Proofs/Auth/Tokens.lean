import IpfsCluster.Model.Auth.Tokens

/-! # Records of API keys, and signed messages

A ledger has the current record of every key that was created and not revoked, by its identifier. The store, which is
indexed by hashes, represents the ledger as long as identifiers are fresh and updates keep them. The window of five
minutes is checked with wrapping subtractions.
-/

namespace IpfsCluster.Proofs.Auth

open Golang List Machine Model.Api Model.Auth Option Function MemoryAPIKeyStore

section

/-- Hashes of different keys differ, and decoding undoes encoding. -/
structure KeyCodecs.Lawful (codecs : KeyCodecs) : Prop where
  hash_injective : Function.Injective codecs.hashKey
  decode_encode : ∀ bytes, codecs.decodeString (codecs.encodeToString bytes) = .ok bytes

variable {codecs : KeyCodecs}

theorem hexDigit_ne_colon (n : ℕ) : hexDigit n ≠ ':' := by
  have member : hexDigit n ∈ "0123456789abcdef".toList := by
    rw [hexDigit, getD_eq_getElem?_getD]
    cases found : "0123456789abcdef".toList[n]? with
    | none => decide
    | some c => exact mem_of_getElem? found
  intro isColon
  rw [isColon] at member
  revert member
  decide

theorem colon_not_mem_hexString (bytes : List UInt8) : ':' ∉ (hexString bytes).toList := by
  rw [hexString, String.toList_ofList, mem_flatMap]
  rintro ⟨b, _, member⟩
  simp only [mem_cons, not_mem_nil, or_false] at member
  rcases member with high | low
  · exact hexDigit_ne_colon _ high.symm
  · exact hexDigit_ne_colon _ low.symm

theorem decodeToken_tokenOf (lawful : KeyCodecs.Lawful codecs) (keyString : String) :
    decodeToken codecs (tokenOf codecs keyString) = .ok keyString.toUTF8 := by
  have tagged : startsWith (tokenOf codecs keyString) "ak_" = true := by
    rw [startsWith, tokenOf, String.toList_append, isPrefixOf_iff_prefix]
    exact prefix_append _ _
  have rest : String.ofList ((tokenOf codecs keyString).toList.drop 3) = codecs.encodeToString keyString.toUTF8 := by
    rw [tokenOf, String.toList_append]
    exact String.ofList_toList
  rw [decodeToken, tagged, rest, lawful.decode_encode]
  rfl

theorem tokenOf_injective (lawful : KeyCodecs.Lawful codecs) : Function.Injective (tokenOf codecs) := by
  intro first second same
  have decoded := decodeToken_tokenOf lawful first
  rw [same, decodeToken_tokenOf lawful second] at decoded
  exact String.toByteArray_inj.mp (Except.ok.inj decoded).symm

theorem id_eq_of_keyStringOf_eq {first second : String} {secret secret' : List UInt8} (plain : ':' ∉ first.toList)
    (plain' : ':' ∉ second.toList) (same : keyStringOf first secret = keyStringOf second secret') : first = second := by
  have before {id : String} (secret : List UInt8) (plain : ':' ∉ id.toList) :
      (keyStringOf id secret).toList.takeWhile (· ≠ ':') = id.toList := by
    rw [keyStringOf, String.toList_append, String.toList_append, append_assoc, takeWhile_append_of_pos]
    · simp
    · intro c member
      exact decide_eq_true fun isColon => plain (isColon ▸ member)
  have ids := congrArg (fun s => s.toList.takeWhile (· ≠ ':')) same
  simp only [before secret plain, before secret' plain'] at ids
  exact String.toList_injective ids

end

section

/-- The current records of the keys that were created and not revoked, by their identifiers. -/
abbrev Ledger := String → Option APIKey

def Ledger.create (codecs : KeyCodecs) (ledger : Ledger) (req : CreateAPIKeyRequest) (draw : KeyDraw) : Ledger :=
  match draw.secret with
  | .ok secret => update ledger (hexString draw.id) (some (newAPIKey codecs req draw secret))
  | .error _ => ledger

def Ledger.replace (ledger : Ledger) (apiKey : APIKey) : Ledger :=
  if (ledger apiKey.id).map APIKey.hashedKey = some apiKey.hashedKey then
    update ledger apiKey.id (some apiKey)
  else ledger

def Ledger.use (ledger : Ledger) (keyID : String) (timestamp : Time) : Ledger :=
  update ledger keyID ((ledger keyID).map fun apiKey => { apiKey with lastUsedAt := some timestamp })

def Ledger.apply (codecs : KeyCodecs) (ledger : Ledger) : KeyEvent → Ledger
  | .create req draw => ledger.create codecs req draw
  | .revoke _ keyID => update ledger keyID none
  | .update apiKey => ledger.replace apiKey
  | .updateLastUsed _ keyID timestamp => ledger.use keyID timestamp

def ledgerOf (codecs : KeyCodecs) (events : List KeyEvent) : Ledger := events.foldl (Ledger.apply codecs) fun _ => none

/-- The identifier of a new key is fresh, and an update keeps the identifier of the key with its hash. -/
def KeepsIdentity (s : KeyService) : KeyEvent → Prop
  | .create _ draw => ∀ response ∈ s.issued, response.id ≠ hexString draw.id
  | .update apiKey => ∀ stored, s.keys.lookup apiKey.hashedKey = some stored → stored.id = apiKey.id
  | .revoke .. | .updateLastUsed .. => True

def IsIssued (codecs : KeyCodecs) (s : KeyService) (keyID keyString : String) : Prop :=
  ∃ response ∈ s.issued, response.id = keyID ∧ response.token = tokenOf codecs keyString

/-- The store has exactly the records of the ledger, each at the hash of the key that was issued for it. -/
structure IsLedgerOf (codecs : KeyCodecs) (s : KeyService) (ledger : Ledger) : Prop where
  stored : ∀ hash apiKey, s.keys.lookup hash = some apiKey → apiKey.hashedKey = hash ∧ ledger apiKey.id = some apiKey ∧
    ∃ keyString, IsIssued codecs s apiKey.id keyString ∧ codecs.hashKey keyString.toUTF8 = hash
  recorded : ∀ keyID apiKey, ledger keyID = some apiKey →
    apiKey.id = keyID ∧ s.keys.lookup apiKey.hashedKey = some apiKey
  shape : ∀ response ∈ s.issued, ':' ∉ response.id.toList ∧
    ∃ secret, response.token = tokenOf codecs (keyStringOf response.id secret)
  unique : ∀ first ∈ s.issued, ∀ second ∈ s.issued, first.id = second.id → first = second

variable {codecs : KeyCodecs} {s : KeyService} {ledger : Ledger}

theorem isLedgerOf_empty : IsLedgerOf codecs .empty fun _ => none where
  stored _ _ found := nomatch found
  recorded _ _ found := nomatch found
  shape _ member := nomatch member
  unique _ member := nomatch member

variable {keyID keyString : String}

section

variable (lawful : KeyCodecs.Lawful codecs)

include lawful

variable (is : IsLedgerOf codecs s ledger)

include is

variable (issued : IsIssued codecs s keyID keyString)

include issued

theorem IsLedgerOf.id_eq {keyID' : String} (issued' : IsIssued codecs s keyID' keyString) : keyID = keyID' := by
  obtain ⟨response, member, rfl, token⟩ := issued
  obtain ⟨response', member', rfl, token'⟩ := issued'
  obtain ⟨plain, secret, shape⟩ := is.shape response member
  obtain ⟨plain', secret', shape'⟩ := is.shape response' member'
  have same := tokenOf_injective lawful (shape.symm.trans token)
  have same' := tokenOf_injective lawful (shape'.symm.trans token')
  exact id_eq_of_keyStringOf_eq plain plain' (same.trans same'.symm)

theorem IsLedgerOf.keyString_eq {keyString' : String} (issued' : IsIssued codecs s keyID keyString') :
    keyString = keyString' := by
  obtain ⟨response, member, rfl, token⟩ := issued
  obtain ⟨response', member', same, token'⟩ := issued'
  obtain rfl := is.unique response' member' response member same
  exact tokenOf_injective lawful (token.symm.trans token')

theorem IsLedgerOf.lookup_hash : s.keys.lookup (codecs.hashKey keyString.toUTF8) = ledger keyID := by
  refine Option.ext fun apiKey => ?_
  constructor
  · intro found
    obtain ⟨_, record, keyString', issued', hash⟩ := is.stored _ _ found
    have same : keyString' = keyString := String.toByteArray_inj.mp (lawful.hash_injective hash)
    subst same
    rwa [is.id_eq lawful issued issued']
  · intro record
    obtain ⟨rfl, found⟩ := is.recorded _ _ record
    obtain ⟨_, _, keyString', issued', hash⟩ := is.stored _ _ found
    rw [is.keyString_eq lawful issued issued', hash]
    exact found

end

variable {hash : String} {apiKey old new : APIKey}

section

variable (is : IsLedgerOf codecs s ledger)

include is

theorem IsLedgerOf.hash_eq {hash' : String} {apiKey' : APIKey} (found : s.keys.lookup hash = some apiKey)
    (found' : s.keys.lookup hash' = some apiKey') (same : apiKey.id = apiKey'.id) : hash = hash' := by
  obtain ⟨rfl, record, _⟩ := is.stored _ _ found
  obtain ⟨rfl, record', _⟩ := is.stored _ _ found'
  rw [same, record'] at record
  rw [some.inj record]

theorem IsLedgerOf.set {keys : MemoryAPIKeyStore} {value : Option APIKey} (found : s.keys.lookup hash = some old)
    (lookup : ∀ hash', keys.lookup hash' = if hash' = hash then value else s.keys.lookup hash')
    (same : ∀ new, value = some new → new.id = old.id ∧ new.hashedKey = old.hashedKey) :
    IsLedgerOf codecs { s with keys := keys } (update ledger old.id value) where
  stored hash' apiKey found' := by
    rw [lookup] at found'
    split at found'
    next here =>
      obtain ⟨sameID, sameHash⟩ := same apiKey found'
      obtain ⟨atHash, _, issued⟩ := is.stored _ _ found
      refine ⟨sameHash.trans (atHash.trans here.symm), ?_, here ▸ sameID ▸ issued⟩
      rw [sameID, update_self, found']
    next apart =>
      obtain ⟨atHash, record, issued⟩ := is.stored _ _ found'
      refine ⟨atHash, ?_, issued⟩
      rw [update_of_ne fun sameID => apart (is.hash_eq found' found sameID), record]
  recorded keyID apiKey record := by
    rw [lookup]
    by_cases here : keyID = old.id
    · rw [here, update_self] at record
      obtain ⟨sameID, sameHash⟩ := same apiKey record
      exact ⟨sameID.trans here.symm, (if_pos (sameHash.trans (is.stored _ _ found).1)).trans record⟩
    · rw [update_of_ne here] at record
      obtain ⟨rfl, there⟩ := is.recorded _ _ record
      refine ⟨rfl, (if_neg fun atHash => here ?_).trans there⟩
      rw [atHash, found] at there
      rw [some.inj there]
  shape := is.shape
  unique := is.unique

theorem IsLedgerOf.replace (found : s.keys.lookup hash = some old) (sameID : new.id = old.id)
    (sameHash : new.hashedKey = old.hashedKey) :
    IsLedgerOf codecs { s with keys := s.keys.insert hash new } (update ledger old.id (some new)) :=
  is.set found (fun _ => AList.lookup_insert_eq_ite ..) fun _ isNew => some.inj isNew ▸ ⟨sameID, sameHash⟩

end

theorem IsLedgerOf.issue (lawful : KeyCodecs.Lawful codecs) (is : IsLedgerOf codecs s ledger)
    {response : CreateAPIKeyResponse} {secret : List UInt8} (plain : ':' ∉ new.id.toList) (sameID : response.id = new.id)
    (token : response.token = tokenOf codecs (keyStringOf new.id secret))
    (hashed : new.hashedKey = codecs.hashKey (keyStringOf new.id secret).toUTF8)
    (fresh : ∀ issued ∈ s.issued, issued.id ≠ new.id) :
    IsLedgerOf codecs ⟨s.keys.insert new.hashedKey new, response :: s.issued⟩
      (update ledger new.id (some new)) where
  stored hash apiKey found := by
    rcases AList.lookup_insert_eq_some found with ⟨rfl, rfl⟩ | ⟨-, found⟩
    · refine ⟨rfl, update_self .., _, ⟨response, mem_cons_self, sameID, token⟩, hashed.symm⟩
    · obtain ⟨atHash, record, keyString, ⟨issued, member, rest⟩, hash⟩ := is.stored _ _ found
      refine ⟨atHash, ?_, keyString, ⟨issued, mem_cons_of_mem _ member, rest⟩, hash⟩
      rw [update_of_ne fun idEq => fresh issued member (rest.1.trans idEq), record]
  recorded keyID apiKey record := by
    by_cases same : keyID = new.id
    · subst same
      rw [update_self] at record
      cases record
      exact ⟨rfl, AList.lookup_insert _⟩
    · rw [update_of_ne same] at record
      obtain ⟨rfl, there⟩ := is.recorded _ _ record
      obtain ⟨_, _, keyString, ⟨issued, member, idEq, issuedToken⟩, hash⟩ := is.stored _ _ there
      refine ⟨rfl, (AList.lookup_insert_ne fun atHash => fresh issued member ?_).trans there⟩
      rw [atHash, hashed] at hash
      have strings : keyString = keyStringOf new.id secret := String.toByteArray_inj.mp (lawful.hash_injective hash)
      obtain ⟨plainIssued, other, shape⟩ := is.shape issued member
      rw [shape, strings] at issuedToken
      exact id_eq_of_keyStringOf_eq plainIssued plain (tokenOf_injective lawful issuedToken)
  shape := by
    refine forall_mem_cons.mpr ⟨⟨?_, secret, ?_⟩, is.shape⟩
    · rwa [sameID]
    · rw [token, sameID]
  unique first member second member' idEq := by
    rcases mem_cons.mp member with rfl | there <;> rcases mem_cons.mp member' with rfl | there'
    · rfl
    · exact (fresh second there' (idEq.symm.trans sameID)).elim
    · exact (fresh first there (idEq.trans sameID)).elim
    · exact is.unique first there second there' idEq

theorem findByID_eq_some {order : MapOrder} {entry : Sigma fun _ : String => APIKey}
    (found : s.keys.findByID order keyID = some entry) : s.keys.lookup entry.1 = some entry.2 ∧ entry.2.id = keyID := by
  rw [findByID] at found
  have member := mem_of_find?_eq_some found
  have isKey := find?_some found
  rw [MapOrder.mem_visit, AList.mem_entries_iff] at member
  exact ⟨member, of_decide_eq_true isKey⟩

theorem IsLedgerOf.eq_none_of_findByID (is : IsLedgerOf codecs s ledger) {order : MapOrder}
    (notFound : s.keys.findByID order keyID = none) : ledger keyID = none := by
  rw [findByID, find?_eq_none] at notFound
  cases record : ledger keyID with
  | none => rfl
  | some apiKey =>
    obtain ⟨sameID, found⟩ := is.recorded _ _ record
    refine (notFound ⟨apiKey.hashedKey, apiKey⟩ ?_ (decide_eq_true sameID)).elim
    rwa [MapOrder.mem_visit, AList.mem_entries_iff]

theorem IsLedgerOf.create (lawful : KeyCodecs.Lawful codecs) (is : IsLedgerOf codecs s ledger) (req : CreateAPIKeyRequest)
    {draw : KeyDraw} (fresh : ∀ response ∈ s.issued, response.id ≠ hexString draw.id) :
    IsLedgerOf codecs (s.create codecs req draw) (ledger.create codecs req draw) := by
  unfold KeyService.create createAPIKey Ledger.create
  cases draw.secret with
  | error err => exact is
  | ok secret =>
    have plain : ':' ∉ (newAPIKey codecs req draw secret).id.toList := colon_not_mem_hexString draw.id
    exact is.issue lawful plain rfl rfl rfl fresh

section

variable (is : IsLedgerOf codecs s ledger)

include is

theorem IsLedgerOf.revoke (order : MapOrder) (keyID : String) :
    IsLedgerOf codecs { s with keys := (s.keys.deleteAPIKey order keyID).2 } (update ledger keyID none) := by
  unfold deleteAPIKey
  cases search : s.keys.findByID order keyID with
  | none =>
    rw [update_eq_self_iff.mpr (is.eq_none_of_findByID search).symm]
    exact is
  | some entry =>
    obtain ⟨found, rfl⟩ := findByID_eq_some search
    exact is.set found (fun _ => AList.lookup_erase_eq_ite ..) nofun

theorem IsLedgerOf.update (keeps : ∀ stored, s.keys.lookup apiKey.hashedKey = some stored → stored.id = apiKey.id) :
    IsLedgerOf codecs { s with keys := (s.keys.updateAPIKey apiKey).2 } (ledger.replace apiKey) := by
  unfold updateAPIKey Ledger.replace
  cases found : s.keys.lookup apiKey.hashedKey with
  | none =>
    rw [if_neg]
    · exact is
    · intro recorded
      obtain ⟨stored, record, sameHash⟩ := map_eq_some_iff.mp recorded
      have there := (is.recorded _ _ record).2
      rw [sameHash, found] at there
      cases there
  | some stored =>
    obtain ⟨atHash, record, _⟩ := is.stored _ _ found
    have sameID := keeps stored found
    rw [if_pos (by rw [← sameID, record]; exact congrArg some atHash), ← sameID]
    exact is.replace found sameID.symm atHash.symm

theorem IsLedgerOf.updateLastUsed (order : MapOrder) (keyID : String) (timestamp : Time) :
    IsLedgerOf codecs { s with keys := (s.keys.updateLastUsed order keyID timestamp).2 }
      (ledger.use keyID timestamp) := by
  unfold MemoryAPIKeyStore.updateLastUsed Ledger.use
  cases search : s.keys.findByID order keyID with
  | none =>
    have absent := is.eq_none_of_findByID search
    rw [update_eq_self_iff.mpr (by rw [absent]; rfl)]
    exact is
  | some entry =>
    obtain ⟨found, rfl⟩ := findByID_eq_some search
    rw [(is.stored _ _ found).2.1]
    exact is.replace found rfl rfl

end

theorem IsLedgerOf.step (lawful : KeyCodecs.Lawful codecs) (is : IsLedgerOf codecs s ledger) {event : KeyEvent}
    {next : KeyService} (keeps : KeepsIdentity s event) (step : (keyMachine codecs).step s event = some next) :
    IsLedgerOf codecs next (ledger.apply codecs event) := by
  cases event with
  | create req draw =>
    cases step
    exact is.create lawful req keeps
  | revoke order keyID =>
    cases step
    exact is.revoke order keyID
  | update apiKey =>
    cases step
    exact is.update keeps
  | updateLastUsed order keyID timestamp =>
    cases step
    exact is.updateLastUsed order keyID timestamp

theorem isLedgerOf_run (lawful : KeyCodecs.Lawful codecs) {events : List KeyEvent} {last : KeyService}
    (keeps : (keyMachine codecs).Meets KeepsIdentity .empty events)
    (ran : (keyMachine codecs).run .empty events = some last) : IsLedgerOf codecs last (ledgerOf codecs events) := by
  have general : ∀ (events : List KeyEvent) (s : KeyService) (ledger : Ledger), IsLedgerOf codecs s ledger →
      (keyMachine codecs).Meets KeepsIdentity s events → (keyMachine codecs).run s events = some last →
        IsLedgerOf codecs last (events.foldl (Ledger.apply codecs) ledger) := by
    intro events
    induction events with
    | nil =>
      intro s ledger is _ ran
      cases ran
      exact is
    | cons event rest ih =>
      intro s ledger is keeps ran
      obtain ⟨next, step, tail⟩ := LabeledMachine.run_cons_eq_some.mp ran
      exact ih next _ (is.step lawful keeps.1 step) (keeps.2 next step) tail
  exact general events _ _ isLedgerOf_empty keeps ran

end

section

variable {codecs : KeyCodecs} {keys : MemoryAPIKeyStore} {now : Time} {token : String}

def Admits (apiKey : APIKey) (now : Time) : Prop := apiKey.isActive = true ∧ apiKey.isExpired now = false

theorem authenticateAPIKey_eq_ok_iff {principal : Principal} :
    authenticateAPIKey codecs keys now token = .ok principal ↔
      ∃ decoded apiKey, decodeToken codecs token = .ok decoded ∧ keys.lookup (codecs.hashKey decoded) = some apiKey ∧
        Admits apiKey now ∧ codecs.hashKey decoded = apiKey.hashedKey ∧ principalOf apiKey = principal := by
  unfold authenticateAPIKey getAPIKey Admits
  cases decodeToken codecs token with
  | error err => simp
  | ok decoded =>
    cases found : keys.lookup (codecs.hashKey decoded) with
    | none => simp [found]
    | some apiKey =>
      cases active : apiKey.isActive <;> cases expired : apiKey.isExpired now <;>
        by_cases same : codecs.hashKey decoded = apiKey.hashedKey <;> simp [found, active, expired, same]

end

def Accepts (answer : Except String Principal) : Prop := ∃ principal, answer = .ok principal

/-- The distances that wrapping subtractions take for near. -/
def WrapsAround (now timestamp : Int64) : Prop :=
  now.toInt - timestamp.toInt = 2 ^ 63 ∨ 2 ^ 64 - 300 ≤ now.toInt - timestamp.toInt

theorem outOfRange_eq_false_iff {now timestamp : Int64} (current : 0 ≤ now.toInt) :
    outOfRange now timestamp = false ↔ |now.toInt - timestamp.toInt| ≤ 300 ∨ WrapsAround now timestamp := by
  have nowUpper := now.toInt_lt
  have lower := timestamp.le_toInt
  have upper := timestamp.toInt_lt
  rw [outOfRange, Bool.or_eq_false_iff, decide_eq_false_iff_not, decide_eq_false_iff_not, gt_iff_lt, gt_iff_lt,
    Int64.lt_iff_toInt_lt, Int64.lt_iff_toInt_lt, Int64.toInt_sub, Int64.toInt_sub, Int.bmod_def, Int.bmod_def, abs_le,
    show (300 : Int64).toInt = 300 from rfl, WrapsAround]
  omega

theorem not_near_of_wrapsAround {now timestamp : Int64} (wraps : WrapsAround now timestamp) :
    ¬ |now.toInt - timestamp.toInt| ≤ 300 := by
  rw [abs_le]
  rcases wraps with half | whole <;> omega

theorem exists_in_range (timestamp : Int64) : ∃ now : Int64, 0 ≤ now.toInt ∧ outOfRange now timestamp = false := by
  have lower := timestamp.le_toInt
  have upper := timestamp.toInt_lt
  by_cases negative : timestamp.toInt < 0
  · have value : (Int64.ofInt (timestamp.toInt + 2 ^ 63)).toInt = timestamp.toInt + 2 ^ 63 :=
      Int64.toInt_ofInt_of_le (by omega) (by omega)
    refine ⟨Int64.ofInt (timestamp.toInt + 2 ^ 63), by omega, (outOfRange_eq_false_iff (by omega)).mpr (.inr (.inl ?_))⟩
    rw [value]
    omega
  · refine ⟨timestamp, by omega, (outOfRange_eq_false_iff (by omega)).mpr (.inl ?_)⟩
    rw [sub_self, abs_zero]
    omega

section

variable {w : Web3Authenticator} {unmarshal : String → Except String Web3SignedMessage} {now : Int64} {token : String}
  {signedMsg : Web3SignedMessage}

def OnChain (w : Web3Authenticator) (signedMsg : Web3SignedMessage) : Prop :=
  signedMsg.chainID = 0 ∨ signedMsg.chainID = w.chainID

def Resolves (w : Web3Authenticator) (signedMsg : Web3SignedMessage) : Prop :=
  w.resolver.verifySignature signedMsg.message signedMsg.signature signedMsg.address = none ∧
    ∃ identity, w.resolver.resolveAddress signedMsg.address = .ok identity

theorem accepts_web3_iff (decoded : unmarshal token = .ok signedMsg) : Accepts (w.authenticate unmarshal now token) ↔
      outOfRange now signedMsg.timestamp = false ∧ OnChain w signedMsg ∧ Resolves w signedMsg := by
  rw [Web3Authenticator.authenticate, decoded]
  change Accepts (w.authenticateMessage now signedMsg) ↔ _
  unfold Web3Authenticator.authenticateMessage
  split
  next outside => exact iff_of_false nofun fun accepted => Bool.false_ne_true (accepted.1.symm.trans outside)
  next inside =>
    split
    next otherChain =>
      refine iff_of_false nofun fun accepted => ?_
      rcases accepted.2.1 with noChain | sameChain
      · exact otherChain.1 noChain
      · exact otherChain.2 sameChain
    next sameChain =>
      have onChain : OnChain w signedMsg := by
        rw [not_and_or, not_not, not_not] at sameChain
        exact sameChain
      split
      next err rejected => exact iff_of_false nofun fun accepted => nomatch rejected.symm.trans accepted.2.2.1
      next verified =>
        split
        next err unknown =>
          refine iff_of_false nofun fun accepted => ?_
          obtain ⟨identity, known⟩ := accepted.2.2.2
          cases unknown.symm.trans known
        next identity known =>
          exact iff_of_true ⟨_, rfl⟩ ⟨Bool.eq_false_iff.mpr inside, onChain, verified, identity, known⟩

end

theorem inRange_of_accepts_did {d : DIDAuthenticator} {unmarshal : String → Except String SignedMessage} {now : Int64}
    {token : String} {signedMsg : SignedMessage} (decoded : unmarshal token = .ok signedMsg)
    (accepted : Accepts (d.authenticate unmarshal now token)) : outOfRange now signedMsg.timestamp = false := by
  rw [DIDAuthenticator.authenticate, decoded] at accepted
  change Accepts (d.authenticateMessage now signedMsg) at accepted
  unfold DIDAuthenticator.authenticateMessage at accepted
  split at accepted
  next outside =>
    obtain ⟨principal, absurd⟩ := accepted
    cases absurd
  next inside => exact Bool.eq_false_iff.mpr inside

end IpfsCluster.Proofs.Auth
