import IpfsCluster.Model.Api.Types

/-! # Authentication of API requests

A request passes with Basic credentials of a configured user, or with a JWT that is signed with the password of the user
it names as its issuer. Decoding credentials and tokens, computing HMACs and checking the standard claims is left to
libraries.
-/

namespace IpfsCluster.Model

open Api Golang

abbrev Credentials := AList (fun _ : String => String)

/-- The common configuration of the APIs, as far as it is validated. -/
structure ApiConfig where
  configKey : String
  loggers : Bool := true
  readTimeout : ℤ := 0
  readHeaderTimeout : ℤ := 0
  writeTimeout : ℤ := 0
  idleTimeout : ℤ := 0
  maxHeaderBytes : ℤ := 4096
  basicAuthCredentials : Option Credentials := none
  pathSSLCertFile : String := ""
  pathSSLKeyFile : String := ""
  tls : Bool := false
  corsMaxAge : ℤ := 0
  id : PeerID := ""
  privateKey : Option String := none
  libp2pListenAddr : List Multiaddr := []

namespace ApiConfig

variable (cfg : ApiConfig) (matchesPrivateKey : PeerID → String → Bool)

def minMaxHeaderBytes : ℤ := 4096

def validateLibp2p : Option Error :=
  if cfg.id ≠ "" ∨ cfg.privateKey.isSome ∨ cfg.libp2pListenAddr.length > 0 then
    match cfg.privateKey with
    | none => some (.text "all ID, private_key and libp2p_listen_multiaddress should be set")
    | some key =>
      if cfg.id = "" ∨ cfg.libp2pListenAddr.length = 0 then
        some (.text "all ID, private_key and libp2p_listen_multiaddress should be set")
      else if !matchesPrivateKey cfg.id key then some (.text (cfg.configKey ++ ".ID does not match private_key"))
      else none
  else none

def validate : Option Error :=
  if !cfg.loggers then some (.text "config loggers not set")
  else if cfg.readTimeout < 0 then some (.text (cfg.configKey ++ ".read_timeout is invalid"))
  else if cfg.readHeaderTimeout < 0 then some (.text (cfg.configKey ++ ".read_header_timeout is invalid"))
  else if cfg.writeTimeout < 0 then some (.text (cfg.configKey ++ ".write_timeout is invalid"))
  else if cfg.idleTimeout < 0 then some (.text (cfg.configKey ++ ".idle_timeout invalid"))
  else if cfg.maxHeaderBytes < minMaxHeaderBytes then
    some (.text (cfg.configKey ++ ".max_header_bytes must be not less then 4096"))
  else if cfg.basicAuthCredentials.any fun credentials => credentials.keys.length = 0 then
    some (.text (cfg.configKey ++ ".basic_auth_creds should be null or have at least one entry"))
  else if (cfg.pathSSLCertFile ≠ "" ∨ cfg.pathSSLKeyFile ≠ "") ∧ !cfg.tls then
    some (.text (cfg.configKey ++ ": missing TLS configuration"))
  else if cfg.corsMaxAge < 0 then some (.text (cfg.configKey ++ ".cors_max_age is invalid"))
  else cfg.validateLibp2p matchesPrivateKey

end ApiConfig

inductive SigningMethod where
  | hmac (hash : String)
  | other (alg : String)
deriving DecidableEq

/-- A decoded token; its standard claims are valid or not at the time of the request. -/
structure Token where
  method : SigningMethod
  issuer : String
  signingString : String
  signature : String
  claimsValid : Bool := true

/-- The libraries: decoding of Basic credentials and of tokens, and HMACs by hash, key and text. -/
structure AuthLibrary where
  basicAuth : String → Option (String × String)
  decodeToken : String → Option Token
  hmac : String → String → String → String

structure AuthRequest where
  method : String
  path : String
  authorization : String

/-- The request goes to the next handler, or is answered with challenges and an error. -/
inductive AuthVerdict where
  | passed
  | unauthorized (wwwAuthenticate : List String) (message : String)
deriving DecidableEq

/-- The token after the scheme, which may be written in any case. -/
def parseBearerToken (authHeader : String) : Option String :=
  let scheme := "Bearer ".toList
  let chars := authHeader.toList
  if chars.length < scheme.length ∨ (chars.take scheme.length).map Char.toLower ≠ scheme.map Char.toLower then none
  else some (String.ofList (chars.drop scheme.length))

def wwwAuthenticate (auth realm error description : String) : String :=
  auth ++ " realm=\"" ++ realm ++ "\"" ++ (if error ≠ "" then ", error=\"" ++ error ++ "\"" else "") ++
    (if description ≠ "" then ", error_description=\"" ++ description ++ "\"" else "")

section

variable (lib : AuthLibrary) (order : MapOrder) (credentials : Credentials)

/-- Users and passwords that are empty are never accepted. -/
def verifyBasicAuth (username password : String) : Bool :=
  if username = "" ∨ password = "" then false
  else (order.visit [] credentials.entries).any fun entry => entry.1 = username && entry.2 = password

def tokenKey (token : Token) : Except String String :=
  match token.method with
  | .other _ => .error "unexpected token signing method (not HMAC)"
  | .hmac _ =>
    match credentials.lookup token.issuer with
    | none => .error "issuer not found"
    | some key => .ok key

def signedWith (token : Token) (key : String) : Bool :=
  match token.method with
  | .other _ => false
  | .hmac hash => token.signature = lib.hmac hash key token.signingString

def verifyToken (tokenString : String) : Except String Token :=
  match lib.decodeToken tokenString with
  | none => .error "token is malformed"
  | some token =>
    match tokenKey credentials token with
    | .error err => .error err
    | .ok key =>
      if !signedWith lib token key then .error "signature is invalid"
      else if !token.claimsValid then .error "token has invalid claims"
      else .ok token

end

def authHandler (lib : AuthLibrary) (order : MapOrder) (cfg : ApiConfig) (r : AuthRequest) : AuthVerdict :=
  match cfg.basicAuthCredentials with
  | none => .passed
  | some credentials =>
    if r.method = "OPTIONS" ∨ (r.method = "GET" ∧ r.path = "/health") then .passed
    else
      match lib.basicAuth r.authorization, parseBearerToken r.authorization with
      | some (username, password), _ =>
        if !verifyBasicAuth order credentials username password then
          .unauthorized [wwwAuthenticate "Basic" "Restricted IPFS Cluster API" "" ""] "unauthorized: access denied"
        else .passed
      | none, some tokenString =>
        match verifyToken lib credentials tokenString with
        | .error _ =>
          .unauthorized [wwwAuthenticate "Bearer" "Restricted IPFS Cluster API" "invalid_token" ""]
            "unauthorized: invalid token"
        | .ok _ => .passed
      | none, none =>
        .unauthorized [wwwAuthenticate "Bearer" "Restricted IPFS Cluster API" "" "",
          wwwAuthenticate "Basic" "Restricted IPFS Cluster API" "" ""] "unauthorized: no auth provided"

end IpfsCluster.Model
