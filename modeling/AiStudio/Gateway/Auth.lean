import AiStudio.Data.Text
import AiStudio.Gateway.Endpoints
import Mathlib.Data.Rat.Floor

/-!
# Who may act

Embeds the decision of `gateway/auth.py`: the bearer token, the registry of digests, the scopes,
the rate limit and the workstreams a token is pinned to. The clock reading and the digest
function are arguments, and the limiter counts in rationals. `authorize` runs the gates in the
order of the source, and its decision carries the grounds it was made on.
-/

set_option autoImplicit false

namespace AiStudio.Gateway

open AiStudio.Data AiStudio.Concurrency AiStudio.Runtime

/-! ## Tokens -/

/-- The scopes a token may carry. -/
inductive Scope where
  | read
  | enqueue
  | claim
  | complete
  deriving DecidableEq

/-- The text of a scope. -/
def Scope.value : Scope → String
  | .read => "read"
  | .enqueue => "enqueue"
  | .claim => "claim"
  | .complete => "complete"

/-- A letter or digit that starts an identifier. -/
def isIdentStart (c : Char) : Bool := c.isDigit || "abcdefghijklmnopqrstuvwxyz".toList.contains c

/-- `_IDENT_RE`, of a text without a final line break. -/
def isIdentifier (value : String) : Bool :=
  match value.toList with
  | [] => false
  | c :: rest =>
      isIdentStart c && rest.length ≤ 63 &&
        rest.all fun c => isIdentStart c || c = '.' || c = '_' || c = '-'

/-- A configured credential: the digest, never the secret. A token that names no workstream is
not pinned. -/
structure Token where
  identity : String
  scopes : List Scope
  digest : String
  workstreams : List String := []
  identified : isIdentifier identity = true
  named : ∀ ws ∈ workstreams, isIdentifier ws = true
  distinct : workstreams.Nodup

namespace Token

variable (token : Token)

/-- `Token.has_scope`. -/
def hasScope (scope : Scope) : Bool := token.scopes.contains scope

/-- `Token.allows_workstream`; a pinned token refuses a request without a workstream. -/
def allowsWorkstream (workstream : Option String) : Bool :=
  token.workstreams.isEmpty || workstream.any token.workstreams.contains

/-- `Token.default_workstream`: the workstream of a token that names exactly one. -/
def defaultWorkstream : Option String :=
  match token.workstreams with
  | [workstream] => some workstream
  | _ => none

/-- The workstream a request resolves to. -/
def resolve (workstream : Option String) : Option String := workstream <|> token.defaultWorkstream

/-- What an endpoint goes on with. -/
def allowed (workstream : Option String) : Allowed :=
  ⟨token.identity, token.workstreams, workstream⟩

end Token

/-- The configured tokens. -/
structure TokenRegistry where
  tokens : List Token
  distinct : (tokens.map Token.digest).Nodup

/-- `TokenRegistry.authenticate`: the last token whose digest is that of the secret. -/
def TokenRegistry.authenticate (registry : TokenRegistry) (digest : String → String)
    (presented : Option String) : Option Token :=
  presented.bind fun secret =>
    if secret = "" then none
    else registry.tokens.foldl
      (fun matched token => if digest secret = token.digest then some token else matched) none

/-- `parse_bearer`: the secret after the scheme, or a bare value. -/
def parseBearer (header : Option String) : Option String :=
  header.bind fun header =>
    let value := strip header
    let lowered := value.toList.map Char.toLower
    if lowered = "bearer".toList then none
    else
      let value := if "bearer ".toList.isPrefixOf lowered then
        strip (String.ofList (value.toList.drop 7)) else value
      if value = "" then none else some value

/-! ## The rate limit -/

/-- `round(x)`, halves to the even neighbour. -/
def roundHalfEven (x : ℚ) : ℤ :=
  let below := x - ⌊x⌋
  if below < 1 / 2 then ⌊x⌋
  else if 1 / 2 < below then ⌊x⌋ + 1
  else if ⌊x⌋ % 2 = 0 then ⌊x⌋ else ⌊x⌋ + 1

/-- A bucket of units for each identity, and when it was last filled. -/
structure RateLimiter where
  ratePerS : ℚ
  burst : ℚ
  buckets : String → Option (ℚ × ℚ)

/-- `RateLimiter(rate_per_min, burst)`. -/
def RateLimiter.new (ratePerMin burst : Int) : RateLimiter where
  ratePerS := max 0 (ratePerMin / 60)
  burst := (max 1 burst : Int)
  buckets _ := none

namespace RateLimiter

variable (limiter : RateLimiter) (identity : String) (now : ℚ)

/-- The units of an identity at a reading of the clock. -/
def units : ℚ :=
  let (units, filled) := (limiter.buckets identity).getD (limiter.burst, now)
  min limiter.burst (units + (now - filled) * limiter.ratePerS)

/-- A unit is left for the identity. -/
def permits : Bool := 1 ≤ limiter.units identity now

/-- `RateLimiter.check`: a unit is consumed, or the seconds to wait are returned. -/
def check : Option ℚ × RateLimiter :=
  let units := limiter.units identity now
  let fill := fun left =>
    { limiter with buckets := Function.update limiter.buckets identity (some (left, now)) }
  if units < 1 then
    let wait := if limiter.ratePerS ≤ 0 then 60
      else max 1 (roundHalfEven ((1 - units) / limiter.ratePerS * 1000) / 1000 : ℚ)
    (some wait, fill units)
  else (none, fill (units - 1))

end RateLimiter

/-! ## The decision -/

/-- A refused request: a status and a reason code. -/
structure Denied where
  status : Nat
  reason : String
  identity : Option String := none
  retryAfter : Option ℚ := none

/-- What an endpoint asks `authorize`; `SCOPE_ANY` is `none`. -/
structure AuthArgs where
  authorization : Option String
  scope : Option Scope
  workstream : Option String := none
  workstreamOptional : Bool := false

/-- The scope a denial or an access is logged under. -/
def AuthArgs.scopeText (a : AuthArgs) : String := a.scope.elim "*" Scope.value

/-- The gates behind the rate limit. -/
def AuthArgs.admission (a : AuthArgs) (token : Token) : Except Denied Allowed :=
  if !a.scope.all token.hasScope then
    .error { status := 403, reason := "missing_scope", identity := some token.identity }
  else
    let resolved := token.resolve a.workstream
    if a.workstreamOptional && a.workstream.isNone then .ok (token.allowed resolved)
    else if !token.allowsWorkstream resolved then
      .error { status := 403, reason := "workstream_denied", identity := some token.identity }
    else .ok (token.allowed resolved)

/-- The token a request is from, or why there is none. -/
def TokenRegistry.identify (registry : TokenRegistry) (digest : String → String)
    (authorization : Option String) : Except Denied Token :=
  if registry.tokens.isEmpty then .error { status := 503, reason := "no_tokens_configured" }
  else
    match parseBearer authorization with
    | none => .error { status := 401, reason := "no_token" }
    | some secret =>
        match registry.authenticate digest (some secret) with
        | none => .error { status := 401, reason := "unknown_token" }
        | some token => .ok token

/-- What `authorize` decides, with its grounds: no token, a token that has no unit left, a token
that is refused, or one that is admitted. -/
inductive Decision (a : AuthArgs) (registry : TokenRegistry) (digest : String → String) where
  | unknown (denied : Denied) (unidentified : registry.identify digest a.authorization = .error denied)
  | limited (token : Token) (wait : ℚ)
      (identified : registry.identify digest a.authorization = .ok token)
  | refused (token : Token) (denied : Denied)
      (identified : registry.identify digest a.authorization = .ok token)
      (refused : a.admission token = .error denied)
  | admitted (token : Token) (allowed : Allowed)
      (identified : registry.identify digest a.authorization = .ok token)
      (admitted : a.admission token = .ok allowed)

section Authorize

variable {a : AuthArgs} {registry : TokenRegistry} {digest : String → String}

/-- The outcome of the decision: who goes on, or `Denied`. -/
def Decision.outcome : Decision a registry digest → Except Denied (Token × Allowed)
  | .unknown denied _ => .error denied
  | .limited token wait _ =>
      .error { status := 429, reason := "rate_limited", identity := some token.identity
               retryAfter := some wait }
  | .refused _ denied _ _ => .error denied
  | .admitted token allowed _ _ => .ok (token, allowed)

/-- The gates behind the rate limit, for a token that has passed it. -/
def Decision.ofToken (token : Token)
    (h : registry.identify digest a.authorization = .ok token) : Decision a registry digest :=
  match h' : a.admission token with
  | .error denied => .refused token denied h h'
  | .ok allowed => .admitted token allowed h h'

variable (a registry digest)

/-- `authorize`; the rate limit comes before the authorization. -/
def AuthArgs.authorize (limiter : RateLimiter) (now : ℚ) :
    Decision a registry digest × RateLimiter :=
  match h : registry.identify digest a.authorization with
  | .error denied => (.unknown denied h, limiter)
  | .ok token =>
      match limiter.check token.identity now with
      | (some wait, limiter) => (.limited token wait h, limiter)
      | (none, limiter) => (.ofToken token h, limiter)

end Authorize

/-! ## Who comes through -/

theorem RateLimiter.check_eq_none_iff (limiter : RateLimiter) (identity : String) (now : ℚ) :
    (limiter.check identity now).1 = none ↔ limiter.permits identity now = true := by
  unfold check permits
  by_cases hunits : limiter.units identity now < 1
  · simp [hunits]
  · simp [hunits, not_lt.1 hunits]

section Admission

variable {a : AuthArgs} {token : Token} {allowed : Allowed}

/-- **Who is admitted** goes on with the resolved workstream, which the token allows unless the
request needs none. -/
theorem AuthArgs.admission_eq_ok_iff :
    a.admission token = .ok allowed ↔ a.scope.all token.hasScope = true ∧
      ((a.workstreamOptional && a.workstream.isNone) = true ∨
        token.allowsWorkstream (token.resolve a.workstream) = true) ∧
      allowed = token.allowed (token.resolve a.workstream) := by
  unfold admission
  cases hscope : a.scope.all token.hasScope with
  | false => simp
  | true =>
      cases hoptional : a.workstreamOptional && a.workstream.isNone with
      | true =>
          constructor
          · exact fun h => ⟨rfl, .inl rfl, (Except.ok.inj h).symm⟩
          · rintro ⟨-, -, rfl⟩
            rfl
      | false =>
          cases hallows : token.allowsWorkstream (token.resolve a.workstream) with
          | true =>
              simp only [hallows, Bool.not_true, Bool.false_eq_true, if_false, Except.ok.injEq,
                true_and, or_true]
              exact eq_comm
          | false => simp [hallows]

/-- A refusal names the token's identity. -/
theorem AuthArgs.admission_eq_error {denied : Denied} (h : a.admission token = .error denied) :
    denied.identity = some token.identity := by
  unfold admission at h
  split at h
  · exact (Except.error.inj h) ▸ rfl
  · dsimp only at h
    split at h
    · cases h
    · split at h
      · exact (Except.error.inj h) ▸ rfl
      · cases h

end Admission

end AiStudio.Gateway
