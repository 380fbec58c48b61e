import LiveServer.World

/-! The HTTP API of SRS, as the server calls it.

Each function makes one request; what comes back decides what it returns. A body that
could be decoded is a code and data, which is decoded in turn. -/
namespace LiveServer.SRSAPI

/-- The answer to a request. -/
structure Response (α : Type) where
  status : Nat
  /-- The body as it was read. -/
  text : String := ""
  /-- The body could be read to its end. -/
  complete : Bool := true
  body : Option (Int × Option α)

/-- The same answer with other data in it. -/
def Response.map (f : α → β) (resp : Response α) : Response β :=
  { resp with body := resp.body.map fun b => (b.1, b.2.map f) }

/-- Returns all connected clients; `none` is a request that got no answer. -/
def listAllClients : Option (Response (List SRSClient)) → Except GoError (List SRSClient)
  | none => .error (.wrap "srs clients request" .backend)
  | some resp =>
    if !resp.complete then .error (.wrap "srs clients read" .backend)
    else match resp.body with
      | none => .error (.wrap "srs clients parse" .backend)
      | some (code, data) =>
        if code ≠ 0 then .error (.text s!"srs api error: code={code}")
        else match data with
          | none => .error (.wrap "srs data parse" .backend)
          | some clients => .ok clients

/-- Returns the client that is publishing the given stream: the same request with the same
checks, then a search. -/
def findPublishingClient (streamKey : Str) (resp : Option (Response (List SRSClient))) :
    Except GoError (Option SRSClient) :=
  (listAllClients resp).map fun clients => World.publisher clients streamKey

/-- Disconnects a client. -/
def kickClient : Option (Response Unit) → Option GoError
  | none => some (.wrap "kick call" .backend)
  | some resp =>
    if 400 ≤ resp.status then some (.text s!"kick failed (status={resp.status}): {resp.text}")
    else match resp.body with
      -- the error of the decoder is dropped, and the code stays 0
      | none => none
      | some (code, _) =>
        if code ≠ 0 then some (.text s!"srs kick api error: code={code}") else none

/-- A list that was decoded. -/
theorem listAllClients_decoded (status : Nat) (text : String) (clients : List SRSClient) :
    listAllClients (some ⟨status, text, true, some (0, some clients)⟩) = .ok clients := rfl

theorem findPublishingClient_decoded (streamKey : Str) (status : Nat) (text : String)
    (clients : List SRSClient) :
    findPublishingClient streamKey (some ⟨status, text, true, some (0, some clients)⟩) =
      .ok (World.publisher clients streamKey) := rfl

end LiveServer.SRSAPI
