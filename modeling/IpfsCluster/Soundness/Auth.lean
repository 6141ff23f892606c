import IpfsCluster.Model.Api.Auth

/-! # Who passes authentication

Basic authentication refuses empty users and passwords. Tokens are checked against the same credentials
without that exception: a user with an empty password cannot log in, but a token for this user passes
when it is signed with the empty key.
-/

namespace IpfsCluster.Soundness

open Model Golang Option

section

variable {lib : AuthLibrary} {order : MapOrder} {credentials : Credentials}

theorem verifyBasicAuth_iff {username password : String} : verifyBasicAuth order credentials username password = true ↔
      username ≠ "" ∧ password ≠ "" ∧ credentials.lookup username = some password := by
  unfold verifyBasicAuth
  split
  next isEmpty =>
    refine iff_of_false Bool.false_ne_true ?_
    rintro ⟨user, pass, -⟩
    exact isEmpty.elim user pass
  next set =>
    obtain ⟨user, pass⟩ := not_or.mp set
    rw [List.any_eq_true, ← and_assoc, and_iff_right ⟨user, pass⟩]
    constructor
    · rintro ⟨⟨key, value⟩, visited, same⟩
      obtain ⟨rfl, rfl⟩ := Bool.and_eq_true_iff.mp same |>.imp of_decide_eq_true of_decide_eq_true
      exact AList.mem_entries_iff.mp ((order.mem_visit _ _ _).mp visited)
    · intro found
      refine ⟨⟨username, password⟩, (order.mem_visit _ _ _).mpr (AList.mem_entries_iff.mpr found), ?_⟩
      rw [decide_eq_true rfl, decide_eq_true rfl]
      rfl

/-- The token is a JWT with valid claims, and has the HMAC made with the password of its issuer. -/
structure SignedBy (lib : AuthLibrary) (credentials : Credentials) (tokenString : String) (token : Token)
    (password : String) : Prop where
  decoded : lib.decodeToken tokenString = some token
  configured : credentials.lookup token.issuer = some password
  signed : ∃ hash, token.method = .hmac hash ∧ token.signature = lib.hmac hash password token.signingString
  claims : token.claimsValid = true

variable {token : Token}

theorem tokenKey_eq_ok_iff {key : String} :
    tokenKey credentials token = .ok key ↔ (∃ hash, token.method = .hmac hash) ∧ credentials.lookup token.issuer = some key := by
  unfold tokenKey
  cases method : token.method with
  | other alg => exact iff_of_false (fun found => nomatch found) fun ⟨⟨_, other⟩, _⟩ => nomatch other
  | hmac hash =>
    dsimp only
    cases credentials.lookup token.issuer with
    | none => exact iff_of_false (fun found => nomatch found) fun ⟨_, found⟩ => nomatch found
    | some password => simp

theorem signedWith_iff {key : String} : signedWith lib token key = true ↔
      ∃ hash, token.method = .hmac hash ∧ token.signature = lib.hmac hash key token.signingString := by
  unfold signedWith
  cases token.method with
  | other alg => exact iff_of_false Bool.false_ne_true fun ⟨_, other, _⟩ => nomatch other
  | hmac hash => simp

theorem verifyToken_iff {tokenString : String} : verifyToken lib credentials tokenString = .ok token ↔
      ∃ password, SignedBy lib credentials tokenString token password := by
  constructor
  · intro verified
    unfold verifyToken at verified
    split at verified
    · cases verified
    next decodedToken decoded =>
      split at verified
      · cases verified
      next key found =>
        split at verified
        · cases verified
        next signed =>
          split at verified
          · cases verified
          next claims =>
            obtain rfl := Except.ok.inj verified
            obtain ⟨-, configured⟩ := tokenKey_eq_ok_iff.mp found
            rw [Bool.not_eq_true', Bool.not_eq_false] at signed claims
            exact ⟨key, decoded, configured, signedWith_iff.mp signed, claims⟩
  · rintro ⟨password, decoded, configured, ⟨hash, method, signature⟩, claims⟩
    have key : tokenKey credentials token = .ok password := tokenKey_eq_ok_iff.mpr ⟨⟨hash, method⟩, configured⟩
    have signed : signedWith lib token password = true := signedWith_iff.mpr ⟨hash, method, signature⟩
    simp only [verifyToken, decoded, key, signed, claims, Bool.not_true, Bool.false_eq_true, if_false]

end

/-- The request has Basic credentials that equal a configured pair, neither of them empty. -/
def BasicLogin (lib : AuthLibrary) (credentials : Credentials) (r : AuthRequest) : Prop :=
  ∃ username password, lib.basicAuth r.authorization = some (username, password) ∧ username ≠ "" ∧ password ≠ "" ∧
    credentials.lookup username = some password

/-- The request has no Basic credentials, but a token that is signed by its configured issuer. -/
def TokenLogin (lib : AuthLibrary) (credentials : Credentials) (r : AuthRequest) (token : Token) (password : String) :
    Prop :=
  lib.basicAuth r.authorization = none ∧ ∃ tokenString, parseBearerToken r.authorization = some tokenString ∧
    SignedBy lib credentials tokenString token password

section

variable {lib : AuthLibrary} {order : MapOrder} {cfg : ApiConfig} {credentials : Credentials} {r : AuthRequest}

theorem authHandler_passed_iff (configured : cfg.basicAuthCredentials = some credentials)
    (notExempt : ¬ (r.method = "OPTIONS" ∨ (r.method = "GET" ∧ r.path = "/health"))) :
    authHandler lib order cfg r = .passed ↔
      BasicLogin lib credentials r ∨ ∃ token password, TokenLogin lib credentials r token password := by
  unfold authHandler
  rw [configured]
  dsimp only
  rw [if_neg notExempt]
  cases basic : lib.basicAuth r.authorization with
  | some pair =>
    obtain ⟨username, password⟩ := pair
    have noToken : ¬ ∃ token password, TokenLogin lib credentials r token password :=
      fun ⟨_, _, absent, _⟩ => nomatch basic.symm.trans absent
    rw [or_iff_left noToken]
    dsimp only
    split
    next refused =>
      refine iff_of_false (fun passed => nomatch passed) ?_
      rintro ⟨user, pass, same, login⟩
      obtain ⟨rfl, rfl⟩ := Prod.mk.inj (mem_unique basic same)
      rw [verifyBasicAuth_iff.mpr login] at refused
      cases refused
    next accepted =>
      rw [Bool.not_eq_true', Bool.not_eq_false] at accepted
      exact iff_of_true rfl ⟨username, password, basic, verifyBasicAuth_iff.mp accepted⟩
  | none =>
    have noBasic : ¬ BasicLogin lib credentials r := fun ⟨_, _, present, _⟩ => nomatch basic.symm.trans present
    rw [or_iff_right noBasic]
    cases bearer : parseBearerToken r.authorization with
    | none =>
      refine iff_of_false (fun passed => nomatch passed) ?_
      rintro ⟨_, _, -, _, present, -⟩
      cases bearer.symm.trans present
    | some tokenString =>
      dsimp only
      cases verified : verifyToken lib credentials tokenString with
      | error err =>
        refine iff_of_false (fun passed => nomatch passed) ?_
        rintro ⟨token, password, -, text, present, signed⟩
        obtain rfl := mem_unique bearer present
        cases verified.symm.trans (verifyToken_iff.mpr ⟨password, signed⟩)
      | ok token =>
        obtain ⟨password, signed⟩ := verifyToken_iff.mp verified
        exact iff_of_true rfl ⟨token, password, basic, tokenString, bearer, signed⟩

end

/-- Who should pass: users that log in, and bearers of a token by a user that could log in. -/
def Authorized (lib : AuthLibrary) (credentials : Credentials) (r : AuthRequest) : Prop :=
  BasicLogin lib credentials r ∨
    ∃ token password, TokenLogin lib credentials r token password ∧ token.issuer ≠ "" ∧ password ≠ ""

/-- The handler is right about a request exactly when it does not come with a token by an issuer that is
configured with an empty name or an empty password, and signed with that password. -/
theorem authHandler_right_iff (lib : AuthLibrary) (order : MapOrder) (cfg : ApiConfig) (credentials : Credentials)
    (r : AuthRequest) (configured : cfg.basicAuthCredentials = some credentials)
    (notExempt : ¬ (r.method = "OPTIONS" ∨ (r.method = "GET" ∧ r.path = "/health"))) :
    (authHandler lib order cfg r = .passed ↔ Authorized lib credentials r) ↔
      ∀ token password, TokenLogin lib credentials r token password → token.issuer ≠ "" ∧ password ≠ "" := by
  rw [authHandler_passed_iff configured notExempt]
  constructor
  · rintro ⟨only, -⟩ token password login
    rcases only (.inr ⟨token, password, login⟩) with ⟨_, _, present, -⟩ | ⟨token', password', login', named⟩
    · cases login.1.symm.trans present
    · obtain ⟨-, text, bearer, signed⟩ := login
      obtain ⟨-, text', bearer', signed'⟩ := login'
      obtain rfl := mem_unique bearer bearer'
      obtain rfl := mem_unique signed.decoded signed'.decoded
      obtain rfl := mem_unique signed.configured signed'.configured
      exact named
  · intro named
    refine or_congr_right ⟨?_, ?_⟩
    · rintro ⟨token, password, login⟩
      exact ⟨token, password, login, named token password login⟩
    · rintro ⟨token, password, login, -⟩
      exact ⟨token, password, login⟩

/-- One header has Basic credentials, and every token is issued by the user and signed with a key. -/
def keyLibrary (key : String) : AuthLibrary where
  basicAuth header := if header = "Basic user:" then some ("user", "") else none
  decodeToken _ := some
    { method := .hmac "HS256", issuer := "user", signingString := "text", signature := "HS256" ++ key ++ ":text" }
  hmac hash key text := hash ++ key ++ ":" ++ text

def oneUser (password : String) : ApiConfig :=
  { configKey := "restapi", basicAuthCredentials := some (AList.insert "user" password ∅) }

theorem authHandler_right_iff_signed :
    authHandler (keyLibrary "secret") .stored (oneUser "secret") ⟨"POST", "/pins/cid", "Bearer token"⟩ = .passed ∧
      Authorized (keyLibrary "secret") (AList.insert "user" "secret" ∅) ⟨"POST", "/pins/cid", "Bearer token"⟩ := by
  have passed : authHandler (keyLibrary "secret") .stored (oneUser "secret") ⟨"POST", "/pins/cid", "Bearer token"⟩ =
      .passed := by decide
  refine ⟨passed, ((authHandler_right_iff _ _ (oneUser "secret") _ _ rfl (by decide)).mpr ?_).mp passed⟩
  rintro token password ⟨-, text, -, signed⟩
  cases signed.decoded
  cases signed.configured
  decide

theorem authHandler_accepts_empty_password : (oneUser "").validate (fun _ _ => true) = none ∧
      authHandler (keyLibrary "") .stored (oneUser "") ⟨"POST", "/pins/cid", "Basic user:"⟩ ≠ .passed ∧
      authHandler (keyLibrary "") .stored (oneUser "") ⟨"POST", "/pins/cid", "Bearer token"⟩ = .passed ∧
      ¬ Authorized (keyLibrary "") (AList.insert "user" "" ∅) ⟨"POST", "/pins/cid", "Bearer token"⟩ := by
  refine ⟨by decide, by decide, by decide, ?_⟩
  rintro (⟨user, pass, present, -⟩ | ⟨token, password, ⟨-, text, -, signed⟩, -, notEmpty⟩)
  · cases present
  · cases signed.decoded
    exact notEmpty (some.inj signed.configured).symm

end IpfsCluster.Soundness
