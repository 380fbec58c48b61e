import LiveServer.Handler.Response

/-! Endpoints for viewers and for the administrator's login. -/
namespace LiveServer
open Text

/-- The settings of the administrator's login. -/
structure AuthConfig where
  jwtSecret : Str
  adminUsername : Str
  adminPassword : Str
  adminExpiry : Time

structure LoginReq where
  username : Str
  password : Str

namespace AuthHandler

/-- The administrator's login. -/
def login (authCfg : AuthConfig) (shouldBindJSON : Str → Option LoginReq)
    (signedString : AdminClaims → Str → Except GoError Str) (now : Time) (body : Str) :
    Server Answer := do
  match shouldBindJSON body with
  | none => return .error 400 codeInvalidParam "username and password are required"
  | some req =>
    if req.username ≠ authCfg.adminUsername ∨ req.password ≠ authCfg.adminPassword then
      metrics.inc .authFailuresTotal (lit "admin")
      return .error 401 1005 "invalid credentials"
    else match generateAdminToken signedString now req.username authCfg.jwtSecret authCfg.adminExpiry with
      | .error _ => return .error 500 codeInternal "failed to generate token"
      | .ok token => return .success (.token token (Int.tdiv authCfg.adminExpiry 1000000000))

/-- A play request that is turned down. -/
def rejectPlay (msg : String) : Server Response := do
  metrics.inc .authFailuresTotal (lit "play")
  return { status := 403, code := 1005, msg := some msg }

/-- Validates the signature of a play URL for Nginx; the arguments are the query params. -/
def playAuth (s : StreamService) (now : Time) (streamKey sign expireStr : Str) : Server Response :=
  if streamKey = [] ∨ sign = [] ∨ expireStr = [] then rejectPlay "missing auth params"
  else match parseInt expireStr with
    | none => rejectPlay "invalid expire"
    | some expire =>
      if expire ≤ now.unix then rejectPlay "play URL has expired"
      else match validateSign s.hmacSHA256 streamKey expire sign s.playSecret with
        | some _ => rejectPlay "invalid signature"
        | none => return .allow

/-- Status and fresh play URLs of a stream, for its viewers. -/
def getPlaybackInfo (s : StreamService) (hlsNow flvNow : Time) (streamKey : Str) : Server Answer := do
  match ← s.getPlaybackInfo hlsNow flvNow streamKey with
  | .error _ => return .error 404 codeNotFound "stream not found"
  | .ok stream =>
    return .success (.playback stream.id stream.streamKey stream.status stream.resolution
      stream.bitrate stream.hlsURL stream.flvURL)

end AuthHandler
end LiveServer
