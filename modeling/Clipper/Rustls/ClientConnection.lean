import Clipper.Rustls.EarlyData
import Clipper.Rustls.ClientConfig

/-! The early-data path of `ClientConnection` in `rustls/src/client/mod.rs`. `ConnectionCommon`
is not in src/: the connection is generic in its type, and its `new` and `send_early_plaintext`
are parameters. -/
namespace Clipper.Rustls

/-- `ClientConnectionData`; of its fields the code modelled reads only `early_data`. -/
structure ClientConnectionData where
  earlyData : EarlyData
  deriving DecidableEq, Repr

def ClientConnectionData.new : ClientConnectionData := ⟨EarlyData.new⟩

/-- `ClientConnection` over a `ConnectionCommon` of type `γ`. -/
structure ClientConnection (γ : Type) where
  common : γ
  data : ClientConnectionData

/-- The handle `early_data()` returns. It borrows the connection mutably, so only its own
writes touch the connection while it lives. It exists only while early data is enabled,
and its writes keep it so. -/
structure WriteEarlyData (γ : Type) where
  sess : ClientConnection γ
  enabled : sess.data.earlyData.isEnabled

namespace ClientConnection
variable {γ : Type}

/-- `new_inner` up to `hs::start_handshake` (not in src/); an `enable` that the handshake
makes is a transition of a run. -/
def newInner (commonNew : Option Nat → Bool → γ) (config : ClientConfig) : ClientConnection γ :=
  ⟨commonNew config.mtu true, .new⟩

def earlyData (c : ClientConnection γ) : Option (WriteEarlyData γ) :=
  if h : c.data.earlyData.isEnabled then some ⟨c, h⟩ else none

def isEarlyDataAccepted (c : ClientConnection γ) : Bool :=
  c.data.earlyData.isAccepted

/-- The connection with its early-data state replaced. -/
def withEarlyData (c : ClientConnection γ) (e : EarlyData) : ClientConnection γ :=
  { c with data := { c.data with earlyData := e } }

@[simp] theorem withEarlyData_common (c : ClientConnection γ) (e : EarlyData) :
    (c.withEarlyData e).common = c.common := rfl

@[simp] theorem withEarlyData_earlyData (c : ClientConnection γ) (e : EarlyData) :
    (c.withEarlyData e).data.earlyData = e := rfl

theorem earlyData_eq_none {c : ClientConnection γ} :
    c.earlyData = none ↔ c.data.earlyData.isEnabled = false := by
  unfold earlyData; split <;> simp_all

/-- A handle from `early_data()` borrows that very connection. -/
theorem sess_of_earlyData {c : ClientConnection γ} {h : WriteEarlyData γ}
    (he : c.earlyData = some h) : h.sess = c := by
  unfold earlyData at he
  split at he
  · cases he; rfl
  · cases he

end ClientConnection

section Write
variable {γ : Type} (sendEarlyPlaintext : γ → List UInt8 → γ × Nat)

def ClientConnection.writeEarlyData (c : ClientConnection γ) (data : List UInt8) :
    Except Panic (IoResult Nat × ClientConnection γ) := do
  let (r, e) ← c.data.earlyData.checkWrite data.length
  let c := c.withEarlyData e
  match r with
  | .ok sz => do
    let slice ← sliceTo data sz
    let (common, n) := sendEarlyPlaintext c.common slice
    pure (.ok n, { c with common := common })
  | .err err => pure (.err err, c)

namespace WriteEarlyData

/-- A write through the handle: `check_write` grants `min(buf.len(), left)` bytes, and that
prefix of `buf` goes to `send_early_plaintext`. It cannot panic, and the handle stays. -/
def write (h : WriteEarlyData γ) (buf : List UInt8) :
    IoResult Nat × WriteEarlyData γ :=
  let e := h.sess.data.earlyData
  let sz := min buf.length e.left
  let sent := sendEarlyPlaintext h.sess.common (buf.take sz)
  (.ok sent.2, ⟨⟨sent.1, ⟨{ e with left := e.left - sz }⟩⟩, h.enabled⟩)

/-- `write_early_data` on the handle's connection is the handle's write. -/
theorem writeEarlyData_eq (h : WriteEarlyData γ) (buf : List UInt8) :
    h.sess.writeEarlyData sendEarlyPlaintext buf =
      .ok ((h.write sendEarlyPlaintext buf).1, (h.write sendEarlyPlaintext buf).2.sess) := by
  simp [ClientConnection.writeEarlyData, EarlyData.checkWrite_of_isEnabled h.enabled,
    sliceTo_of_le (Nat.min_le_left buf.length h.sess.data.earlyData.left), write,
    ClientConnection.withEarlyData]

/-- Writes of `bufs` through the handle, one after another. -/
def writeAll (h : WriteEarlyData γ) : List (List UInt8) → List (IoResult Nat) × WriteEarlyData γ
  | [] => ([], h)
  | buf :: bufs =>
    let rest := (h.write sendEarlyPlaintext buf).2.writeAll bufs
    ((h.write sendEarlyPlaintext buf).1 :: rest.1, rest.2)

end WriteEarlyData

namespace ClientConnection

/-- `write` on a `WriteEarlyData` handle, buffer after buffer: each is `write_early_data`
on the borrowed connection. -/
def writeAll (c : ClientConnection γ) :
    List (List UInt8) → Except Panic (List (IoResult Nat) × ClientConnection γ)
  | [] => pure ([], c)
  | buf :: bufs => do
    let (r, c) ← c.writeEarlyData sendEarlyPlaintext buf
    let (rs, c) ← c.writeAll bufs
    pure (r :: rs, c)

theorem writeAll_handle (h : WriteEarlyData γ) (bufs : List (List UInt8)) :
    h.sess.writeAll sendEarlyPlaintext bufs =
      .ok ((h.writeAll sendEarlyPlaintext bufs).1, (h.writeAll sendEarlyPlaintext bufs).2.sess) := by
  induction bufs generalizing h with
  | nil => rfl
  | cons buf bufs ih =>
    simp [writeAll, WriteEarlyData.writeAll, WriteEarlyData.writeEarlyData_eq, ih]

/-- What happens to a connection between other calls: a handshake transition of its early
data, or the user calling `early_data()` and writing buffers through the handle. -/
inductive Event where
  | transition (t : EarlyData.Transition)
  | earlyData (bufs : List (List UInt8))
  deriving DecidableEq, Repr

def Event.apply (ev : Event) (c : ClientConnection γ) :
    Except Panic (List (IoResult Nat) × ClientConnection γ) :=
  match ev with
  | .transition t => do
    let e ← t.apply c.data.earlyData
    pure ([], c.withEarlyData e)
  | .earlyData bufs =>
    match c.earlyData with
    | some h => h.sess.writeAll sendEarlyPlaintext bufs
    | none => pure ([], c)

/-- A run of events, stopped at the first panic: the events that returned, with what the
writes returned, the connection after them, and the panic that stopped the run. -/
structure Trace (γ : Type) where
  returned : List (Event × List (IoResult Nat))
  reached : ClientConnection γ
  panic : Option Panic

def run (c : ClientConnection γ) : List Event → Trace γ
  | [] => ⟨[], c, none⟩
  | ev :: evs =>
    match ev.apply sendEarlyPlaintext c with
    | .error p => ⟨[], c, some p⟩
    | .ok (rs, c') =>
      let t := run c' evs
      { t with returned := (ev, rs) :: t.returned }

/-- Only a handshake transition panics: a write session never does. -/
theorem Event.apply_panic {ev : Event} {c : ClientConnection γ} {p : Panic}
    (h : ev.apply sendEarlyPlaintext c = .error p) :
    ∃ t, ev = .transition t ∧ t.apply c.data.earlyData = .error p := by
  cases ev with
  | transition t =>
    cases ht : t.apply c.data.earlyData with
    | error p' => simp_all [Event.apply]
    | ok e => simp [Event.apply, ht] at h
  | earlyData bufs =>
    cases he : c.earlyData with
    | none => simp [Event.apply, he] at h
    | some hd => simp [Event.apply, he, writeAll_handle] at h

/-- A property of the connection and of the events so far that every returned event keeps
holds after every run. -/
theorem run_invariant (P : ClientConnection γ → List (Event × List (IoResult Nat)) → Prop)
    (step : ∀ {c c' ev rs hist}, P c hist → ev.apply sendEarlyPlaintext c = .ok (rs, c') →
      P c' (hist ++ [(ev, rs)]))
    (c : ClientConnection γ) (hist : List (Event × List (IoResult Nat))) (h : P c hist)
    (evs : List Event) :
    P (run sendEarlyPlaintext c evs).reached (hist ++ (run sendEarlyPlaintext c evs).returned) := by
  induction evs generalizing c hist with
  | nil => simpa [run] using h
  | cons ev evs ih =>
    cases hc : ev.apply sendEarlyPlaintext c with
    | error p => simpa [run, hc] using h
    | ok x => simpa [run, hc] using ih _ _ (step h hc)

/-- A run stops only at a handshake transition that panics on the connection reached. -/
theorem run_panic {c : ClientConnection γ} {evs : List Event} {p : Panic}
    (h : (run sendEarlyPlaintext c evs).panic = some p) :
    ∃ t, Event.transition t ∈ evs ∧
      t.apply (run sendEarlyPlaintext c evs).reached.data.earlyData = .error p := by
  induction evs generalizing c with
  | nil => simp [run] at h
  | cons ev evs ih =>
    cases hc : ev.apply sendEarlyPlaintext c with
    | error p' =>
      simp only [run, hc, Option.some.injEq] at h ⊢
      obtain ⟨t, rfl, ht⟩ := Event.apply_panic sendEarlyPlaintext (h ▸ hc)
      exact ⟨t, List.mem_cons_self _ _, ht⟩
    | ok x =>
      simp only [run, hc] at h ⊢
      obtain ⟨t, hm, ht⟩ := ih h
      exact ⟨t, List.mem_cons_of_mem _ hm, ht⟩

/-- Writing early data never panics: in every run, a panic comes from a transition. Through a
handle `check_write` runs in `Ready` or `Accepted` and grants at most `buf.len()` bytes. -/
theorem early_data_write_never_panics (c : ClientConnection γ) (evs : List Event) :
    (∀ p, (run sendEarlyPlaintext c evs).panic = some p →
      ∃ t, Event.transition t ∈ evs ∧
        t.apply (run sendEarlyPlaintext c evs).reached.data.earlyData = .error p) ∧
    ∀ (h : WriteEarlyData γ) (buf : List UInt8),
      (h.sess.data.earlyData.state = .ready ∨ h.sess.data.earlyData.state = .accepted) ∧
      (∃ e', h.sess.data.earlyData.checkWrite buf.length =
        .ok (.ok (min buf.length h.sess.data.earlyData.left), e')) ∧
      min buf.length h.sess.data.earlyData.left ≤ buf.length ∧
      ∃ n c', h.sess.writeEarlyData sendEarlyPlaintext buf = .ok (.ok n, c') :=
  ⟨fun _ hp => run_panic sendEarlyPlaintext hp, fun h buf =>
    ⟨EarlyData.isEnabled_iff.mp h.enabled, ⟨_, EarlyData.checkWrite_of_isEnabled h.enabled _⟩,
      Nat.min_le_left _ _, ⟨_, _, WriteEarlyData.writeEarlyData_eq sendEarlyPlaintext h buf⟩⟩⟩

end ClientConnection
end Write

namespace ClientConnection
variable {γ : Type}

/-- No early data after a rejection or after it has finished: from `Rejected` or
`AcceptedFinished` every run stays there, `early_data()` gives no handle, nothing is granted. -/
theorem settled_early_data_stays_closed (e : EarlyData) (hs : e.isSettled)
    (ops : List EarlyData.Op) :
    (EarlyData.run e ops).reached.isSettled ∧ (EarlyData.run e ops).reached.isEnabled = false ∧
    (EarlyData.run e ops).reached.left = e.left ∧
    EarlyData.granted (EarlyData.run e ops).returned = 0 ∧
    (∀ sz r, (EarlyData.Op.checkWrite sz, r) ∈ (EarlyData.run e ops).returned →
      r = some (.err ⟨.invalidInput⟩)) ∧
    (∀ sz, (EarlyData.run e ops).reached.checkWrite sz =
      .ok (.err ⟨.invalidInput⟩, (EarlyData.run e ops).reached)) ∧
    ∀ c : ClientConnection γ, c.data.earlyData = (EarlyData.run e ops).reached →
      c.earlyData = none := by
  obtain ⟨hs', hl, hg, hr⟩ := EarlyData.run_settled hs ops
  have hne := EarlyData.isEnabled_of_isSettled hs'
  exact ⟨hs', hne, hl, hg, hr, EarlyData.checkWrite_of_isSettled hs',
    fun c hc => earlyData_eq_none.mpr (hc ▸ hne)⟩

theorem settled_early_data_stays_closed_rejected :
    (⟨.rejected, 7⟩ : EarlyData).isSettled ∧
    let ops : List EarlyData.Op := [.checkWrite 3, .transition .rejected]
    (EarlyData.run ⟨.rejected, 7⟩ ops).reached.isSettled ∧
    (EarlyData.run ⟨.rejected, 7⟩ ops).reached.isEnabled = false ∧
    (EarlyData.run ⟨.rejected, 7⟩ ops).reached.left = 7 ∧
    EarlyData.granted (EarlyData.run ⟨.rejected, 7⟩ ops).returned = 0 ∧
    (∀ sz r, (EarlyData.Op.checkWrite sz, r) ∈ (EarlyData.run ⟨.rejected, 7⟩ ops).returned →
      r = some (.err ⟨.invalidInput⟩)) ∧
    (∀ sz, (EarlyData.run ⟨.rejected, 7⟩ ops).reached.checkWrite sz =
      .ok (.err ⟨.invalidInput⟩, (EarlyData.run ⟨.rejected, 7⟩ ops).reached)) ∧
    ∀ c : ClientConnection Unit, c.data.earlyData = (EarlyData.run ⟨.rejected, 7⟩ ops).reached →
      c.earlyData = none :=
  ⟨rfl, settled_early_data_stays_closed ⟨.rejected, 7⟩ rfl _⟩

/-- `send` with every slice it is handed appended to a log. -/
def recording (send : γ → List UInt8 → γ × Nat) (g : γ × List (List UInt8)) (s : List UInt8) :
    (γ × List (List UInt8)) × Nat :=
  (((send g.1 s).1, g.2 ++ [s]), (send g.1 s).2)

/-- The total length of the slices in a log. -/
def logged : List (List UInt8) → Nat
  | [] => 0
  | slice :: log => slice.length + logged log

theorem logged_append_singleton (log : List (List UInt8)) (slice : List UInt8) :
    logged (log ++ [slice]) = logged log + slice.length := by
  induction log with
  | nil => simp [logged]
  | cons s log ih => simp [logged, ih, Nat.add_assoc]

def Event.budget : Event → Option Nat
  | .transition (.enable n) => some n
  | _ => none

/-- The budgets of the `enable` transitions among returned events. -/
def enabledBudgets (rs : List (Event × List (IoResult Nat))) : List Nat :=
  rs.filterMap fun x => x.1.budget

section Recording
variable (send : γ → List UInt8 → γ × Nat) {ns : List Nat}

private theorem write_budget (h : WriteEarlyData (γ × List (List UInt8))) (buf : List UInt8)
    (hb : EarlyData.Budget h.sess.data.earlyData ns (logged h.sess.common.2)) :
    EarlyData.Budget (h.write (recording send) buf).2.sess.data.earlyData ns
      (logged (h.write (recording send) buf).2.sess.common.2) := by
  have hc : (EarlyData.Op.checkWrite buf.length).call h.sess.data.earlyData =
      .ok (some (.ok (min buf.length h.sess.data.earlyData.left)),
        { h.sess.data.earlyData with
          left := h.sess.data.earlyData.left - min buf.length h.sess.data.earlyData.left }) := by
    simp [EarlyData.Op.call, EarlyData.checkWrite_of_isEnabled h.enabled]
  simpa [WriteEarlyData.write, recording, logged_append_singleton, EarlyData.grant,
    EarlyData.Op.budget] using hb.call hc

private theorem writeAll_budget (h : WriteEarlyData (γ × List (List UInt8)))
    (bufs : List (List UInt8))
    (hb : EarlyData.Budget h.sess.data.earlyData ns (logged h.sess.common.2)) :
    EarlyData.Budget (h.writeAll (recording send) bufs).2.sess.data.earlyData ns
      (logged (h.writeAll (recording send) bufs).2.sess.common.2) := by
  induction bufs generalizing h with
  | nil => exact hb
  | cons buf bufs ih => exact ih _ (write_budget send h buf hb)

private theorem apply_budget {ev : Event} {c c' : ClientConnection (γ × List (List UInt8))}
    {rs : List (IoResult Nat)} (hb : EarlyData.Budget c.data.earlyData ns (logged c.common.2))
    (h : ev.apply (recording send) c = .ok (rs, c')) :
    EarlyData.Budget c'.data.earlyData (ns ++ ev.budget.toList) (logged c'.common.2) := by
  cases ev with
  | transition t =>
    obtain ⟨e', ht, he⟩ := bind_eq_ok.mp h
    obtain ⟨-, rfl⟩ : rs = [] ∧ c.withEarlyData e' = c' := by simpa using he
    have hc : (EarlyData.Op.transition t).call c.data.earlyData = .ok (none, e') := by
      simp [EarlyData.Op.call, ht]
    cases t <;> simpa [Event.budget, EarlyData.Op.budget, EarlyData.grant] using hb.call hc
  | earlyData bufs =>
    cases he : c.earlyData with
    | none =>
      simp only [Event.apply, he, except_pure_eq_ok, Except.ok.injEq, Prod.mk.injEq] at h
      simpa [Event.budget, ← h.2] using hb
    | some hd =>
      have hs := sess_of_earlyData he
      simp only [Event.apply, he, writeAll_handle, Except.ok.injEq, Prod.mk.injEq] at h
      rw [← h.2]
      simpa [Event.budget] using writeAll_budget send hd bufs (hs ▸ hb)

theorem run_budget (c : ClientConnection (γ × List (List UInt8)))
    (hb : EarlyData.Budget c.data.earlyData [] (logged c.common.2)) (evs : List Event) :
    EarlyData.Budget (run (recording send) c evs).reached.data.earlyData
      (enabledBudgets (run (recording send) c evs).returned)
      (logged (run (recording send) c evs).reached.common.2) := by
  simpa using run_invariant (recording send)
    (fun c hist => EarlyData.Budget c.data.earlyData (enabledBudgets hist) (logged c.common.2))
    (fun hb' hc => by simpa [enabledBudgets] using apply_budget send hb' hc) c [] hb evs

end Recording

/-- The early-data budget is never exceeded: from `EarlyData::new()` at most one `enable`
returns and `left` never underflows; after `enable(n)`, `left` plus what `check_write` granted,
and `left` plus what `write_early_data` sent, are `n`. -/
theorem early_data_budget_never_exceeded (ops : List EarlyData.Op)
    (commonNew : Option Nat → Bool → γ) (config : ClientConfig)
    (send : γ → List UInt8 → γ × Nat) (evs : List Event) :
    let t := EarlyData.run .new ops
    let u := run (recording send) (newInner (fun mtu client => (commonNew mtu client, [])) config) evs
    (EarlyData.enabled t.returned).length ≤ 1 ∧
    (∀ n ∈ EarlyData.enabled t.returned, t.reached.left + EarlyData.granted t.returned = n) ∧
    t.panic ≠ some .subtractWithOverflow ∧
    (enabledBudgets u.returned).length ≤ 1 ∧
    ∀ n ∈ enabledBudgets u.returned, u.reached.data.earlyData.left + logged u.reached.common.2 = n := by
  obtain ⟨h1, h2, h3⟩ := EarlyData.run_new_budget ops
  have hb := run_budget send (newInner (fun mtu client => (commonNew mtu client, [])) config)
    ⟨.inl rfl, rfl⟩ evs
  exact ⟨h1, h2, h3, hb.length_le, fun n hn => hb.left_add hn⟩

end ClientConnection

namespace WriteEarlyData
variable {γ : Type}

/-- `WriteEarlyData::bytes_left`. -/
def bytesLeft (h : WriteEarlyData γ) : Nat := h.sess.data.earlyData.bytesLeft

private theorem take_min_length (buf : List UInt8) (n : Nat) :
    buf.take (min buf.length n) = buf.take n := by
  rcases Nat.le_total buf.length n with hn | hn
  · rw [Nat.min_eq_left hn, List.take_of_length_le le_rfl, List.take_of_length_le hn]
  · rw [Nat.min_eq_right hn]

section Session
variable (send : γ → List UInt8 → γ × Nat)

/-- One write hands `send_early_plaintext` the first `bytes_left()` bytes of its buffer. -/
private theorem write_recording (h : WriteEarlyData (γ × List (List UInt8))) (buf : List UInt8) :
    (h.write (ClientConnection.recording send) buf).2.sess.common.2 =
      h.sess.common.2 ++ [buf.take h.bytesLeft] ∧
    (h.write (ClientConnection.recording send) buf).2.bytesLeft = h.bytesLeft - buf.length := by
  simp [write, ClientConnection.recording, bytesLeft, EarlyData.bytesLeft, take_min_length,
    Nat.min_comm buf.length, ← Nat.sub_eq_sub_min]

/-- Writing through the handle in pieces sends what one write of their concatenation would:
`send_early_plaintext` is handed, in order, exactly the first `bytes_left()` bytes of the
concatenated buffers. No byte is skipped, repeated or reordered, however the data is split. -/
theorem writeAll_sends_prefix (h : WriteEarlyData (γ × List (List UInt8)))
    (bufs : List (List UInt8)) :
    ((h.writeAll (ClientConnection.recording send) bufs).2.sess.common.2).flatten =
      h.sess.common.2.flatten ++ bufs.flatten.take h.bytesLeft := by
  induction bufs generalizing h with
  | nil => simp [writeAll]
  | cons buf bufs ih =>
    obtain ⟨hlog, hleft⟩ := write_recording send h buf
    rw [writeAll, ih, hlog, hleft, List.flatten_cons, List.take_append_eq_append_take]
    simp

end Session
end WriteEarlyData

namespace ClientConnection
variable {γ : Type}

/-- The bytes an event has the application write through a handle: the buffers of a write
session that found early data enabled, so that `early_data()` gave it a handle. -/
def Event.offers (ev : Event) (c : ClientConnection γ) : List UInt8 :=
  match ev with
  | .earlyData bufs => if c.data.earlyData.isEnabled then bufs.flatten else []
  | .transition _ => []

/-- The bytes the application writes through `WriteEarlyData` handles during a run, in
order, up to the event that panics. -/
def offered (sendEarlyPlaintext : γ → List UInt8 → γ × Nat) (c : ClientConnection γ) :
    List Event → List UInt8
  | [] => []
  | ev :: evs =>
    match ev.apply sendEarlyPlaintext c with
    | .error _ => []
    | .ok (_, c') => ev.offers c ++ offered sendEarlyPlaintext c' evs

theorem logged_eq_length_flatten (log : List (List UInt8)) : logged log = log.flatten.length := by
  induction log with
  | nil => rfl
  | cons s log ih => simp [logged, ih]

/-- Before an `enable` nothing has been sent. -/
theorem flatten_eq_nil_of_budget {e : EarlyData} {log : List (List UInt8)}
    (hb : EarlyData.Budget e [] (logged log)) : log.flatten = [] := by
  have hl : logged log = 0 := hb.2
  rwa [logged_eq_length_flatten, List.length_eq_zero] at hl

theorem enabledBudgets_cons (ev : Event) (rs : List (IoResult Nat))
    (hist : List (Event × List (IoResult Nat))) :
    enabledBudgets ((ev, rs) :: hist) = ev.budget.toList ++ enabledBudgets hist := by
  cases h : ev.budget <;> simp [enabledBudgets, h]

section Sent
variable (send : γ → List UInt8 → γ × Nat)

/-- What a run keeps besides the budget, given the bytes written through handles so far:
before an `enable` nothing was written through a handle, and after `enable(n)` the slices
sent are the first `n` bytes written. -/
def Sent (c : ClientConnection (γ × List (List UInt8))) (pre : List UInt8) (ns : List Nat) :
    Prop :=
  EarlyData.Budget c.data.earlyData ns (logged c.common.2) ∧ (ns = [] → pre = []) ∧
    ∀ n ∈ ns, c.common.2.flatten = pre.take n

private theorem apply_sent {ev : Event} {c c' : ClientConnection (γ × List (List UInt8))}
    {rs : List (IoResult Nat)} {pre : List UInt8} {ns : List Nat} (hs : Sent c pre ns)
    (h : ev.apply (recording send) c = .ok (rs, c')) :
    Sent c' (pre ++ ev.offers c) (ns ++ ev.budget.toList) := by
  obtain ⟨hb, hpre, hlog⟩ := hs
  have hb' := apply_budget send hb h
  cases ev with
  | transition t =>
    obtain ⟨e', -, he⟩ := bind_eq_ok.mp h
    obtain ⟨-, rfl⟩ : rs = [] ∧ c.withEarlyData e' = c' := by simpa using he
    refine ⟨hb', fun h0 => by simpa [Event.offers] using hpre (List.append_eq_nil.mp h0).1,
      fun n hn => ?_⟩
    rcases List.mem_append.mp hn with hn | hn
    · simpa [Event.offers] using hlog n hn
    · -- a returned `enable` is the first: nothing was sent or written before it
      have hns : ns = [] := by
        have := hb'.length_le
        rw [List.length_append] at this
        cases ns <;> simp_all
      subst hns
      simp [Event.offers, flatten_eq_nil_of_budget hb, hpre rfl]
  | earlyData bufs =>
    cases he : c.earlyData with
    | none =>
      simp only [Event.apply, he, except_pure_eq_ok, Except.ok.injEq, Prod.mk.injEq] at h
      obtain ⟨-, rfl⟩ := h
      simpa [Event.offers, Event.budget, earlyData_eq_none.mp he] using ⟨hb, hpre, hlog⟩
    | some hd =>
      have hs := sess_of_earlyData he
      simp only [Event.apply, he, writeAll_handle, Except.ok.injEq, Prod.mk.injEq] at h
      obtain ⟨-, rfl⟩ := h
      have hen : c.data.earlyData.isEnabled := hs ▸ hd.enabled
      -- a handle exists only after `enable(n)`: the session continues the first `n` bytes
      obtain ⟨n, rfl⟩ : ∃ n, ns = [n] := by
        rcases ns with _ | ⟨n, _ | ⟨_, _⟩⟩
        · rcases hb.1 with hd' | hd' <;> simp [EarlyData.isEnabled, hd'] at hen
        · exact ⟨n, rfl⟩
        · exact hb.elim
      have hsent := WriteEarlyData.writeAll_sends_prefix send hd bufs
      have hl := hb.2
      rw [logged_eq_length_flatten, hlog n (List.mem_singleton_self n), List.length_take] at hl
      simp only [Event.offers, hen, if_true, Event.budget, Option.toList, List.append_nil]
      refine ⟨by simpa [Event.budget] using hb', nofun, fun m hm => ?_⟩
      obtain rfl := List.mem_singleton.mp hm
      have hleft : hd.bytesLeft = m - pre.length := by
        simp only [WriteEarlyData.bytesLeft, EarlyData.bytesLeft, hs]
        omega
      rw [hsent, hs, hlog m (List.mem_singleton_self m), hleft,
        List.take_append_eq_append_take]

private theorem run_sent (c : ClientConnection (γ × List (List UInt8))) (pre : List UInt8)
    (ns : List Nat) (hs : Sent c pre ns) (evs : List Event) :
    Sent (run (recording send) c evs).reached (pre ++ offered (recording send) c evs)
      (ns ++ enabledBudgets (run (recording send) c evs).returned) := by
  induction evs generalizing c pre ns with
  | nil => simpa [run, offered, enabledBudgets] using hs
  | cons ev evs ih =>
    cases hc : ev.apply (recording send) c with
    | error p => simpa [run, offered, hc, enabledBudgets] using hs
    | ok x =>
      simpa [run, offered, hc, enabledBudgets_cons, List.append_assoc] using
        ih x.2 _ _ (apply_sent send hs hc)

end Sent

/-- Early data reaches the wire in order and intact: after `enable(n)`, what was handed to
`send_early_plaintext` is the first `n` bytes written through handles, in order; before an
`enable` nothing is written or sent. -/
theorem early_data_sent_in_order (commonNew : Option Nat → Bool → γ) (config : ClientConfig)
    (send : γ → List UInt8 → γ × Nat) (evs : List Event) :
    let c := newInner (fun mtu client => (commonNew mtu client, [])) config
    let u := run (recording send) c evs
    (enabledBudgets u.returned = [] →
      u.reached.common.2.flatten = [] ∧ offered (recording send) c evs = []) ∧
    ∀ n ∈ enabledBudgets u.returned,
      u.reached.common.2.flatten = (offered (recording send) c evs).take n := by
  intro c u
  obtain ⟨hb, hpre, hlog⟩ := run_sent send c [] [] ⟨⟨.inl rfl, rfl⟩, fun _ => rfl, nofun⟩ evs
  simp only [List.nil_append] at hb hpre hlog
  exact ⟨fun h0 => ⟨flatten_eq_nil_of_budget (h0 ▸ hb), hpre h0⟩, hlog⟩

end ClientConnection

end Clipper.Rustls
