import Gescom.Auth.Calls

/-!
# Signed tokens (`auth/token.service.ts`)

Access tokens are JSON web tokens. What `@nestjs/jwt` does with them is a parameter.
-/

namespace Gescom.Auth

/-- The payload of a token; a field the signer left out is `none`. -/
structure Claims where
  sub : Uuid
  typ : Option String := none
  enterpriseId : Option Uuid := none
  isSuperAdmin : Bool := false
  issuer : String
  audience : String
  /-- `exp`. -/
  expiresAt : Instant
  deriving DecidableEq, Repr

/-- `verify` with the options `issuer` and `audience` at an instant, `HS256` and `JWT_ACCESS_SECRET`. -/
structure JwtService where
  verify : String → String → Instant → String → Option Claims

def accessTokenType : String := "access"
def jwtIssuer : String := "erp-gescom-compta-saas-api"
def jwtAudience : String := "erp-gescom-compta-saas-clients"

section
variable (jwt : JwtService)

/-- `verifyAccessToken`; `none` when it throws. `AccessTokenPayload` is the `AccessToken` of
`Gescom.Auth.Calls`. -/
def JwtService.verifyAccessToken (now : Instant) (token : String) : Option AccessToken :=
  (jwt.verify jwtIssuer jwtAudience now token).bind fun payload =>
    if payload.typ = some accessTokenType then
      some ⟨payload.sub, payload.enterpriseId, payload.isSuperAdmin⟩
    else none

/-- `authHeader?.startsWith("Bearer ")`, then `slice("Bearer ".length)`. -/
def bearerToken (authorization : Option String) : Option String :=
  authorization.bind fun authHeader =>
    if "Bearer ".toList <+: authHeader.toList then
      some (String.ofList (authHeader.toList.drop "Bearer ".toList.length))
    else none

end

end Gescom.Auth
