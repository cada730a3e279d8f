import Clipper.Core

/-! `ConnectionStream::poll_next` from `crates/devtools_server/src/lib.rs`, which accepts TCP
connections and upgrades each to a websocket. `poll_accept` and the upgrade's `poll` are oracles. -/
namespace Clipper.DevtoolsServer

/-- `tungstenite::Error`, known by its description. -/
structure WsError where
  description : String
  deriving DecidableEq, Repr

/-- `serde_json::Error`, known by its description. -/
structure JsonError where
  description : String
  deriving DecidableEq, Repr

/-- The crate's boxed `Error`: an accept error, a websocket error or a JSON error. -/
inductive Error where
  | io (e : IoError)
  | ws (e : WsError)
  | json (e : JsonError)
  deriving DecidableEq, Repr

/-- `tokio_tungstenite::accept_async(stream)`: the upgrade future, which owns the stream. -/
structure UpgradeFuture (σ : Type) where
  stream : σ
  deriving DecidableEq, Repr

structure WebSocketStream (σ : Type) where
  stream : σ
  deriving DecidableEq, Repr

structure ServerConnection (σ : Type) where
  wss : WebSocketStream σ
  deriving DecidableEq, Repr

abbrev Next (σ : Type) := Option (UpgradeFuture σ)

/-- `ConnectionStream`; its `listener` is the accept oracle. -/
structure ConnectionStream (σ : Type) where
  next : Next σ
  deriving DecidableEq, Repr

/-- The answers the environment gives during one `poll_next` call: the `k`-th
`poll_accept` of the call gets `accept k`, the `k`-th upgrade poll gets `upgrade k`. -/
structure Oracle (σ : Type) where
  accept : Stream' (Poll (Result σ IoError))
  upgrade : Stream' (Poll (Result Unit WsError))

/-- An inner poll that `poll_next` made, with the answer it got. -/
inductive InnerPoll (σ : Type) where
  | accept (r : Poll (Result σ IoError))
  | upgrade (f : UpgradeFuture σ) (r : Poll (Result Unit WsError))
  deriving DecidableEq, Repr

/-- What one `poll_next` call returned, the stream after it, and its inner polls in order. -/
structure PollNext (σ : Type) where
  poll : Poll (Option (Result (ServerConnection σ) Error))
  stream : ConnectionStream σ
  polls : List (InnerPoll σ)
  deriving DecidableEq, Repr

variable {σ : Type}

def ConnectionStream.new : ConnectionStream σ := ⟨none⟩

def acceptAsync (stream : σ) : UpgradeFuture σ := ⟨stream⟩

@[simp] theorem acceptAsync_stream (stream : σ) : (acceptAsync stream).stream = stream := rfl

def ServerConnection.new (wss : WebSocketStream σ) : ServerConnection σ := ⟨wss⟩

/-- `let wss = r?; Ok(ServerConnection::new(wss))` for a finished upgrade of `f`. -/
def upgraded (f : UpgradeFuture σ) : Result Unit WsError → Result (ServerConnection σ) Error
  | .ok () => .ok (ServerConnection.new ⟨f.stream⟩)
  | .err e => .err (.ws e)

/-- `poll_next`: its `loop` polls the pending upgrade if there is one and returns, or else
polls `accept`; an accepted stream becomes the pending upgrade and the loop goes round
again (`continue`), which then returns. -/
def pollNext (s : ConnectionStream σ) (o : Oracle σ) : PollNext σ :=
  match h : s.next with
  | some p =>
    match o.upgrade.head with
    | .ready r => ⟨.ready (some (upgraded p r)), ⟨none⟩, [.upgrade p (.ready r)]⟩
    | .pending => ⟨.pending, s, [.upgrade p .pending]⟩
  | none =>
    match o.accept.head with
    | .ready (.ok stream) =>
      let out := pollNext ⟨some (acceptAsync stream)⟩ { o with accept := o.accept.tail }
      { out with polls := .accept (.ready (.ok stream)) :: out.polls }
    | .ready (.err e) => ⟨.ready (some (.err (.io e))), s, [.accept (.ready (.err e))]⟩
    | .pending => ⟨.pending, s, [.accept .pending]⟩
termination_by s.next.isNone.toNat
decreasing_by simp [h]

namespace InnerPoll

@[simp] def isAccept : InnerPoll σ → Bool
  | .accept _ => true
  | .upgrade _ _ => false

end InnerPoll

/-- What a call hands out: a connection, or the failure of an upgrade. -/
def delivered : Poll (Option (Result (ServerConnection σ) Error)) →
    List (Result (ServerConnection σ) Error)
  | .ready (some (.ok c)) => [.ok c]
  | .ready (some (.err (.ws e))) => [.err (.ws e)]
  | _ => []

/-- The stream of the pending upgrade, if there is one. -/
def ConnectionStream.pending (s : ConnectionStream σ) : List σ :=
  s.next.toList.map UpgradeFuture.stream

@[simp] theorem delivered_upgraded (f : UpgradeFuture σ) (r : Result Unit WsError) :
    delivered (.ready (some (upgraded f r))) = [upgraded f r] := by
  cases r <;> rfl

@[simp] theorem pending_eq_nil {s : ConnectionStream σ} (h : s.next = none) : s.pending = [] := by
  simp [ConnectionStream.pending, h]

@[simp] theorem pending_eq_singleton {s : ConnectionStream σ} {p : UpgradeFuture σ}
    (h : s.next = some p) : s.pending = [p.stream] := by
  simp [ConnectionStream.pending, h]

theorem pollNext_of_some (s : ConnectionStream σ) {p : UpgradeFuture σ} (hs : s.next = some p)
    (o : Oracle σ) :
    pollNext s o = match o.upgrade.head with
      | .ready r => ⟨.ready (some (upgraded p r)), ⟨none⟩, [.upgrade p (.ready r)]⟩
      | .pending => ⟨.pending, s, [.upgrade p .pending]⟩ := by
  rw [pollNext]
  split
  · rename_i p' hp; rw [hs] at hp; cases hp; rfl
  · rename_i hp; rw [hs] at hp; cases hp

section Call
variable (s : ConnectionStream σ) (o : Oracle σ)

end Call

end Clipper.DevtoolsServer
