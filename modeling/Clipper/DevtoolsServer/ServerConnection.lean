import Clipper.DevtoolsServer.ConnectionStream

/-! `ServerConnection` from `crates/devtools_server/src/lib.rs`: the stream of method calls a
peer sends, and `send` and `reply`. The websocket's own `poll_next` and `send` are oracles;
`Message::into_data`, `serde_json::from_slice` and `serde_json::to_vec` are parameters. -/
namespace Clipper.DevtoolsServer
namespace ServerConnection
variable {σ : Type}

section Inbound
variable {μ κ : Type} (intoData : μ → List UInt8) (fromSlice : List UInt8 → Result κ JsonError)

/-- `<ServerConnection as Stream>::poll_next`, given the answer of the websocket's own
`poll_next`: the payload of each frame is parsed as a method call. -/
def pollNext : Poll (Option (Result μ WsError)) → Poll (Option (Result κ Error))
  | .ready none => .ready none
  | .ready (some (.err e)) => .ready (some (.err (.ws e)))
  | .ready (some (.ok msg)) =>
    match fromSlice (intoData msg) with
    | .ok call => .ready (some (.ok call))
    | .err e => .ready (some (.err (.json e)))
  | .pending => .pending

end Inbound

section Outbound
variable {ρ : Type} (toVec : ρ → Result (List UInt8) JsonError)
  (wsSend : WebSocketStream σ → String → WebSocketStream σ × Result Unit WsError)

/-- `String::from_utf8`. -/
def fromUtf8 (bytes : List UInt8) : Option String := String.fromUTF8? ⟨bytes.toArray⟩

/-- `ServerConnection::send`: serialize `response`, then send it as one text frame. The
`unwrap` of `String::from_utf8` panics on a serialization that is not UTF-8. -/
def send (self : ServerConnection σ) (response : ρ) :
    Except Panic (ServerConnection σ × Result Unit Error) :=
  match toVec response with
  | .err e => pure (self, .err (.json e))
  | .ok text =>
    match fromUtf8 text with
    | none => throw .unwrapErr
    | some s =>
      let (wss, r) := wsSend self.wss s
      pure (⟨wss⟩, r.mapErr .ws)

/-- `chromiumoxide_types::Response`: the answer to the call `id`. -/
structure Response (ν ε : Type) where
  id : Nat
  result : Option ν
  error : Option ε

/-- `chromiumoxide_types::Message`: a response or an event. -/
inductive Message (ν ε η : Type) where
  | response (r : Response ν ε)
  | event (e : η)

/-- `ServerConnection::reply`: send a successful response to the call `id`. -/
def reply {ν ε η : Type} (toVec : Message ν ε η → Result (List UInt8) JsonError)
    (self : ServerConnection σ) (id : Nat) (result : ν) :
    Except Panic (ServerConnection σ × Result Unit Error) :=
  send toVec wsSend self (.response ⟨id, some result, none⟩)

end Outbound
end ServerConnection
end Clipper.DevtoolsServer
