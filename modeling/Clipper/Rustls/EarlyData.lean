import Clipper.Core

/-! The client's early-data state machine, `EarlyData` in `rustls/src/client/mod.rs`,
its runs up to the first panic, and the invariants those runs keep. -/
namespace Clipper.Rustls

inductive EarlyDataState where
  | disabled
  | ready
  | accepted
  | acceptedFinished
  | rejected
  deriving DecidableEq, Repr

structure EarlyData where
  state : EarlyDataState
  left : Nat
  deriving DecidableEq, Repr

namespace EarlyData

def new : EarlyData := ⟨.disabled, 0⟩

def isEnabled (e : EarlyData) : Bool :=
  match e.state with
  | .ready | .accepted => true
  | _ => false

def isAccepted (e : EarlyData) : Bool :=
  match e.state with
  | .accepted | .acceptedFinished => true
  | _ => false

def enable (e : EarlyData) (maxData : Nat) : Except Panic EarlyData := do
  assertEq e.state .disabled
  pure { e with state := .ready, left := maxData }

def rejected (e : EarlyData) : EarlyData :=
  { e with state := .rejected }

def accepted (e : EarlyData) : Except Panic EarlyData := do
  assertEq e.state .ready
  pure { e with state := .accepted }

def finished (e : EarlyData) : Except Panic EarlyData :=
  match e.state with
  | .accepted => pure { e with state := .acceptedFinished }
  | _ => throw (.explicit "bad EarlyData state")

/-- `check_write`: grants at most `left` bytes, as `Ok(take)`, and takes them off `left`. -/
def checkWrite (e : EarlyData) (sz : Nat) : Except Panic (IoResult Nat × EarlyData) :=
  match e.state with
  | .disabled => throw .unreachable
  | .ready | .accepted =>
    if e.left < sz then pure (.ok e.left, { e with left := 0 })
    else do
      let left ← subAssign e.left sz
      pure (.ok sz, { e with left := left })
  | .rejected | .acceptedFinished => pure (.err ⟨.invalidInput⟩, e)

def bytesLeft (e : EarlyData) : Nat := e.left

/-- The states after which nothing is granted any more: `Rejected` and `AcceptedFinished`. -/
def isSettled (e : EarlyData) : Bool :=
  match e.state with
  | .rejected | .acceptedFinished => true
  | _ => false

theorem isEnabled_iff {e : EarlyData} : e.isEnabled ↔ e.state = .ready ∨ e.state = .accepted := by
  unfold isEnabled; split <;> simp_all

theorem isSettled_iff {e : EarlyData} :
    e.isSettled ↔ e.state = .rejected ∨ e.state = .acceptedFinished := by
  unfold isSettled; split <;> simp_all

theorem state_cases (e : EarlyData) : e.state = .disabled ∨ e.isEnabled ∨ e.isSettled := by
  cases hs : e.state <;> simp [isEnabled, isSettled, hs]

theorem isEnabled_of_isSettled {e : EarlyData} (h : e.isSettled) : e.isEnabled = false := by
  rcases isSettled_iff.mp h with h | h <;> simp [isEnabled, h]

theorem enable_eq_ok {e e' : EarlyData} {n : Nat} :
    e.enable n = .ok e' ↔ e.state = .disabled ∧ e' = ⟨.ready, n⟩ := by
  unfold enable assertEq
  split <;> simp_all [eq_comm]

theorem accepted_eq_ok {e e' : EarlyData} :
    e.accepted = .ok e' ↔ e.state = .ready ∧ e' = { e with state := .accepted } := by
  unfold accepted assertEq
  split <;> simp_all [eq_comm]

theorem finished_eq_ok {e e' : EarlyData} :
    e.finished = .ok e' ↔ e.state = .accepted ∧ e' = { e with state := .acceptedFinished } := by
  unfold finished
  split <;> simp_all [eq_comm]

/-- In `Ready` and `Accepted`, `check_write(sz)` grants `min(sz, left)`. -/
theorem checkWrite_of_isEnabled {e : EarlyData} (h : e.isEnabled) (sz : Nat) :
    e.checkWrite sz = .ok (.ok (min sz e.left), { e with left := e.left - min sz e.left }) := by
  by_cases hlt : e.left < sz
  · have hall : min sz e.left = e.left := Nat.min_eq_right (Nat.le_of_lt hlt)
    rcases isEnabled_iff.mp h with hs | hs <;> simp [checkWrite, hs, hlt, hall]
  · have hle : sz ≤ e.left := Nat.not_lt.mp hlt
    rcases isEnabled_iff.mp h with hs | hs <;>
      simp [checkWrite, hs, hlt, subAssign_of_le hle, Nat.min_eq_left hle]

theorem checkWrite_of_isSettled {e : EarlyData} (h : e.isSettled) (sz : Nat) :
    e.checkWrite sz = .ok (.err ⟨.invalidInput⟩, e) := by
  rcases isSettled_iff.mp h with h | h <;> simp [checkWrite, h]

theorem checkWrite_disabled {e : EarlyData} (h : e.state = .disabled) (sz : Nat) :
    e.checkWrite sz = .error .unreachable := by
  simp [checkWrite, h]

/-- `check_write` panics only at its `unreachable!()`: the subtraction never underflows. -/
theorem checkWrite_eq_error {e : EarlyData} {sz : Nat} {p : Panic} :
    e.checkWrite sz = .error p ↔ e.state = .disabled ∧ p = .unreachable := by
  rcases state_cases e with hs | hen | hse
  · simp [checkWrite_disabled hs, hs, eq_comm]
  · rcases isEnabled_iff.mp hen with h | h <;> simp [checkWrite_of_isEnabled hen, h]
  · rcases isSettled_iff.mp hse with h | h <;> simp [checkWrite_of_isSettled hse, h]

/-- The calls the handshake makes on `EarlyData`. -/
inductive Transition where
  | enable (maxData : Nat)
  | accepted
  | rejected
  | finished
  deriving DecidableEq, Repr

/-- A call on `EarlyData`: a handshake transition, or `check_write(sz)`. -/
inductive Op where
  | transition (t : Transition)
  | checkWrite (sz : Nat)
  deriving DecidableEq, Repr

def Transition.apply : Transition → EarlyData → Except Panic EarlyData
  | .enable n, e => e.enable n
  | .accepted, e => e.accepted
  | .rejected, e => pure e.rejected
  | .finished, e => e.finished

/-- The handshake transitions panic exactly at the assertions of `enable`, `accepted` and
`finished`. -/
theorem Transition.apply_eq_error {t : Transition} {e : EarlyData} {p : Panic} :
    t.apply e = .error p ↔
      (∃ n, t = .enable n ∧ e.state ≠ .disabled ∧ p = .assertEq) ∨
      (t = .accepted ∧ e.state ≠ .ready ∧ p = .assertEq) ∨
      (t = .finished ∧ e.state ≠ .accepted ∧ p = .explicit "bad EarlyData state") := by
  cases t <;>
    simp only [Transition.apply, EarlyData.enable, EarlyData.accepted, EarlyData.finished,
      assertEq] <;>
    (try split) <;> simp_all [eq_comm]

namespace Op

/-- One call, with what it returns: only `check_write` returns a value. -/
def call : Op → EarlyData → Except Panic (Option (IoResult Nat) × EarlyData)
  | .transition t, e => do
    let e' ← t.apply e
    pure (none, e')
  | .checkWrite sz, e => do
    let (r, e') ← e.checkWrite sz
    pure (some r, e')

/-- The budget of an `enable` call. -/
def budget : Op → Option Nat
  | .transition (.enable n) => some n
  | _ => none

end Op

/-- The bytes a returned call granted: `check_write`'s `Ok` value, and 0 otherwise. -/
def grant : Option (IoResult Nat) → Nat
  | some (.ok n) => n
  | _ => 0

section Call
variable {op : Op} {e e' : EarlyData} {r : Option (IoResult Nat)}

/-- Everything one call that returns can have done, guards included. -/
theorem call_eq_ok (h : op.call e = .ok (r, e')) :
    (∃ n, op = .transition (.enable n) ∧ r = none ∧ e.state = .disabled ∧ e' = ⟨.ready, n⟩) ∨
    (op = .transition .accepted ∧ r = none ∧ e.state = .ready ∧
      e' = { e with state := .accepted }) ∨
    (op = .transition .rejected ∧ r = none ∧ e' = { e with state := .rejected }) ∨
    (op = .transition .finished ∧ r = none ∧ e.state = .accepted ∧
      e' = { e with state := .acceptedFinished }) ∨
    (∃ sz, op = .checkWrite sz ∧ r = some (.ok (min sz e.left)) ∧ e.isEnabled ∧
      e' = { e with left := e.left - min sz e.left }) ∨
    (∃ sz, op = .checkWrite sz ∧ r = some (.err ⟨.invalidInput⟩) ∧ e.isSettled ∧ e' = e) := by
  cases op with
  | transition t =>
    obtain ⟨e'', ht, he⟩ := bind_eq_ok.mp h
    obtain ⟨rfl, rfl⟩ : none = r ∧ e'' = e' := by simpa using he
    cases t with
    | enable n => exact .inl ⟨n, rfl, rfl, enable_eq_ok.mp ht⟩
    | accepted => exact .inr (.inl ⟨rfl, rfl, accepted_eq_ok.mp ht⟩)
    | rejected => exact .inr (.inr (.inl ⟨rfl, rfl, (Except.ok.inj ht).symm⟩))
    | finished => exact .inr (.inr (.inr (.inl ⟨rfl, rfl, finished_eq_ok.mp ht⟩)))
  | checkWrite sz =>
    obtain ⟨⟨r', e''⟩, hw, he⟩ := bind_eq_ok.mp h
    obtain ⟨rfl, rfl⟩ : some r' = r ∧ e'' = e' := by simpa using he
    refine .inr (.inr (.inr (.inr ?_)))
    rcases state_cases e with hs | hen | hse
    · rw [checkWrite_disabled hs] at hw; cases hw
    · rw [checkWrite_of_isEnabled hen] at hw; cases hw
      exact .inl ⟨sz, rfl, rfl, hen, rfl⟩
    · rw [checkWrite_of_isSettled hse] at hw; cases hw
      exact .inr ⟨sz, rfl, rfl, hse, rfl⟩

/-- No call that returns leads back to `Disabled`. -/
theorem call_ne_disabled (hd : e.state ≠ .disabled) (h : op.call e = .ok (r, e')) :
    e'.state ≠ .disabled := by
  rcases call_eq_ok h with ⟨n, -, -, hs, -⟩ | ⟨-, -, -, rfl⟩ | ⟨-, -, rfl⟩ | ⟨-, -, -, rfl⟩ |
    ⟨sz, -, -, -, rfl⟩ | ⟨sz, -, -, -, rfl⟩
  · exact absurd hs hd
  all_goals simp [hd]

theorem call_transition_eq_error {t : Transition} {p : Panic} :
    (Op.transition t).call e = .error p ↔ t.apply e = .error p := by
  simp only [Op.call]
  cases t.apply e <;> simp

theorem call_checkWrite_eq_error {sz : Nat} {p : Panic} :
    (Op.checkWrite sz).call e = .error p ↔ e.checkWrite sz = .error p := by
  simp only [Op.call]
  cases e.checkWrite sz <;> simp

/-- No call underflows `left`. -/
theorem call_ne_subtractWithOverflow : op.call e ≠ .error .subtractWithOverflow := by
  cases op with
  | transition t => simp [call_transition_eq_error, Transition.apply_eq_error]
  | checkWrite sz => simp [call_checkWrite_eq_error, checkWrite_eq_error]

theorem call_of_isSettled (hs : e.isSettled) (h : op.call e = .ok (r, e')) :
    e'.isSettled ∧ e'.left = e.left ∧ grant r = 0 ∧
      ∀ sz, op = .checkWrite sz → r = some (.err ⟨.invalidInput⟩) ∧ e' = e := by
  rcases call_eq_ok h with ⟨n, -, -, hd, -⟩ | ⟨-, -, hd, -⟩ | ⟨rfl, rfl, rfl⟩ | ⟨-, -, hd, -⟩ |
    ⟨sz, -, -, hen, -⟩ | ⟨sz, rfl, rfl, -, rfl⟩ <;>
    simp_all [isSettled, grant, isEnabled_of_isSettled hs]

/-- What a run from `EarlyData::new()` keeps, given the budgets of the `enable`s that returned
and the bytes granted: none granted before an `enable`, `left + granted = n` after `enable(n)`,
and no second `enable`. -/
def Budget (e : EarlyData) : List Nat → Nat → Prop
  | [], g => (e.state = .disabled ∨ e.state = .rejected) ∧ g = 0
  | [n], g => e.state ≠ .disabled ∧ e.left + g = n
  | _ :: _ :: _, _ => False

theorem Budget.call {ns : List Nat} {g : Nat} (hb : Budget e ns g) (h : op.call e = .ok (r, e')) :
    Budget e' (ns ++ op.budget.toList) (g + grant r) := by
  rcases ns with _ | ⟨m, _ | ⟨_, _⟩⟩
  · -- before `enable`: nothing is granted, and only `enable` leaves `Disabled` or `Rejected`
    obtain ⟨hs, rfl⟩ := hb
    have hne : e.isEnabled = false := by rcases hs with hs | hs <;> simp [isEnabled, hs]
    rcases call_eq_ok h with ⟨n, rfl, rfl, -, rfl⟩ | ⟨rfl, rfl, hr, rfl⟩ | ⟨rfl, rfl, rfl⟩ |
      ⟨rfl, rfl, ha, rfl⟩ | ⟨sz, rfl, rfl, hen, rfl⟩ | ⟨sz, rfl, rfl, -, rfl⟩ <;>
      simp_all [Budget, Op.budget, grant]
  · -- after `enable(m)`: `check_write` moves what it grants out of `left`
    obtain ⟨hs, hm⟩ := hb
    rcases call_eq_ok h with ⟨n, rfl, rfl, hd, rfl⟩ | ⟨rfl, rfl, -, rfl⟩ | ⟨rfl, rfl, rfl⟩ |
      ⟨rfl, rfl, -, rfl⟩ | ⟨sz, rfl, rfl, -, rfl⟩ | ⟨sz, rfl, rfl, -, rfl⟩
    · exact absurd hd hs
    · exact ⟨nofun, by simpa [grant] using hm⟩
    · exact ⟨nofun, by simpa [grant] using hm⟩
    · exact ⟨nofun, by simpa [grant] using hm⟩
    · refine ⟨hs, ?_⟩
      have hle := Nat.min_le_right sz e.left
      simp only [grant]
      omega
    · exact ⟨hs, by simpa [grant] using hm⟩
  · exact hb.elim

end Call

/-- A run of calls, stopped at the first panic: the calls that returned, with what they
returned, the state after them, and the panic that stopped the run, if one did. -/
structure Trace where
  returned : List (Op × Option (IoResult Nat))
  reached : EarlyData
  panic : Option Panic

def run (e : EarlyData) : List Op → Trace
  | [] => ⟨[], e, none⟩
  | op :: ops =>
    match op.call e with
    | .error p => ⟨[], e, some p⟩
    | .ok (r, e') =>
      let t := run e' ops
      { t with returned := (op, r) :: t.returned }

/-- The bytes `check_write` granted: the sum of the values it returned as `Ok`. -/
def granted : List (Op × Option (IoResult Nat)) → Nat
  | [] => 0
  | x :: rs => grant x.2 + granted rs

/-- The budgets of the `enable` calls that returned. -/
def enabled (rs : List (Op × Option (IoResult Nat))) : List Nat :=
  rs.filterMap fun x => x.1.budget

section Run
variable {e : EarlyData} {ops : List Op}

theorem granted_append (rs rs' : List (Op × Option (IoResult Nat))) :
    granted (rs ++ rs') = granted rs + granted rs' := by
  induction rs with
  | nil => simp [granted]
  | cons x rs ih => simp [granted, ih, Nat.add_assoc]

theorem enabled_append (rs rs' : List (Op × Option (IoResult Nat))) :
    enabled (rs ++ rs') = enabled rs ++ enabled rs' := by
  simp [enabled]

@[simp] theorem granted_singleton (op : Op) (r : Option (IoResult Nat)) :
    granted [(op, r)] = grant r := by
  simp [granted]

@[simp] theorem enabled_singleton (op : Op) (r : Option (IoResult Nat)) :
    enabled [(op, r)] = op.budget.toList := by
  cases h : op.budget <;> simp [enabled, h]

/-- A property of the state and of the calls so far that every returned call keeps
holds after every run. -/
theorem run_invariant (P : EarlyData → List (Op × Option (IoResult Nat)) → Prop)
    (step : ∀ {e e' op r rs}, P e rs → op.call e = .ok (r, e') → P e' (rs ++ [(op, r)]))
    (e : EarlyData) (rs : List (Op × Option (IoResult Nat))) (h : P e rs) (ops : List Op) :
    P (run e ops).reached (rs ++ (run e ops).returned) := by
  induction ops generalizing e rs with
  | nil => simpa [run] using h
  | cons op ops ih =>
    cases hc : op.call e with
    | error p => simpa [run, hc] using h
    | ok x => simpa [run, hc] using ih _ _ (step h hc)

/-- A run stops only at a call that panics in the state the run reached. -/
theorem run_panic {p : Panic} (h : (run e ops).panic = some p) :
    ∃ op ∈ ops, op.call (run e ops).reached = .error p := by
  induction ops generalizing e with
  | nil => simp [run] at h
  | cons op ops ih =>
    cases hc : op.call e with
    | error p' =>
      simp only [run, hc, Option.some.injEq] at h ⊢
      exact ⟨op, List.mem_cons_self _ _, h ▸ hc⟩
    | ok x =>
      simp only [run, hc] at h ⊢
      obtain ⟨op', hm, he⟩ := ih h
      exact ⟨op', List.mem_cons_of_mem _ hm, he⟩

theorem Budget.length_le {ns : List Nat} {g : Nat} (hb : Budget e ns g) : ns.length ≤ 1 := by
  rcases ns with _ | ⟨_, _ | ⟨_, _⟩⟩ <;> simp_all [Budget]

theorem Budget.left_add {ns : List Nat} {g n : Nat} (hb : Budget e ns g) (hn : n ∈ ns) :
    e.left + g = n := by
  rcases ns with _ | ⟨_, _ | ⟨_, _⟩⟩ <;> simp_all [Budget]

theorem run_budget (h : Budget e [] 0) (ops : List Op) :
    Budget (run e ops).reached (enabled (run e ops).returned) (granted (run e ops).returned) := by
  simpa using run_invariant (fun e rs => Budget e (enabled rs) (granted rs))
    (fun hb hc => by simpa [enabled_append, granted_append] using hb.call hc) e [] h ops

/-- From `EarlyData::new()`: at most one `enable` returns; once `enable(n)` has returned,
`left` plus the bytes `check_write` granted is `n`; and no call underflows `left`. -/
theorem run_new_budget (ops : List Op) :
    (enabled (run new ops).returned).length ≤ 1 ∧
    (∀ n ∈ enabled (run new ops).returned,
      (run new ops).reached.left + granted (run new ops).returned = n) ∧
    (run new ops).panic ≠ some .subtractWithOverflow := by
  have hb := run_budget (show Budget new [] 0 from ⟨.inl rfl, rfl⟩) ops
  refine ⟨hb.length_le, fun n hn => hb.left_add hn, fun hp => ?_⟩
  obtain ⟨op, -, hc⟩ := run_panic hp
  exact call_ne_subtractWithOverflow hc

theorem run_settled (hs : e.isSettled) (ops : List Op) :
    (run e ops).reached.isSettled ∧ (run e ops).reached.left = e.left ∧
      granted (run e ops).returned = 0 ∧
      ∀ sz r, (Op.checkWrite sz, r) ∈ (run e ops).returned → r = some (.err ⟨.invalidInput⟩) := by
  have h := run_invariant
    (fun e' rs => e'.isSettled ∧ e'.left = e.left ∧ granted rs = 0 ∧
      ∀ sz r, (Op.checkWrite sz, r) ∈ rs → r = some (.err ⟨.invalidInput⟩))
    (fun ⟨hs', hl, hg, hr⟩ hc => by
      obtain ⟨hs'', hl', hg', hw⟩ := call_of_isSettled hs' hc
      refine ⟨hs'', hl'.trans hl, by simp [granted_append, hg, hg'], fun sz r hm => ?_⟩
      rcases List.mem_append.mp hm with hm | hm
      · exact hr sz r hm
      · obtain ⟨rfl, rfl⟩ := List.mem_singleton.mp hm
        exact (hw sz rfl).1)
    e [] ⟨hs, rfl, rfl, nofun⟩ ops
  simpa using h

theorem run_ne_disabled (hd : e.state ≠ .disabled) (ops : List Op) :
    (run e ops).reached.state ≠ .disabled :=
  run_invariant (fun e' _ => e'.state ≠ .disabled) (fun hd' hc => call_ne_disabled hd' hc)
    e [] hd ops

theorem run_ne_disabled_after_grant :
    EarlyDataState.ready ≠ .disabled ∧
      (run ⟨.ready, 5⟩ [.checkWrite 2, .transition .rejected]).reached.state ≠ .disabled :=
  ⟨nofun, run_ne_disabled (show (⟨.ready, 5⟩ : EarlyData).state ≠ .disabled from nofun) _⟩

end Run

end EarlyData

/-- How far the early-data handshake has gone: `Disabled`, `Ready`, `Accepted`,
`AcceptedFinished`, then `Rejected`, which `rejected()` reaches from every state. -/
def EarlyDataState.rank : EarlyDataState → Nat
  | .disabled => 0
  | .ready => 1
  | .accepted => 2
  | .acceptedFinished => 3
  | .rejected => 4

namespace EarlyData

/-- The state a handshake step enters: `Ready` for `enable`, `Accepted` for `accepted`,
`AcceptedFinished` for `finished`. `rejected()` and `check_write` are not steps. -/
def Op.entered : Op → Option EarlyDataState
  | .transition (.enable _) => some .ready
  | .transition .accepted => some .accepted
  | .transition .finished => some .acceptedFinished
  | _ => none

section Order
variable {op : Op} {e e' : EarlyData} {r : Option (IoResult Nat)}

/-- A call that returns never moves the handshake back, and a handshake step enters its
state from one ranked below it. -/
theorem call_rank (h : op.call e = .ok (r, e')) :
    e.state.rank ≤ e'.state.rank ∧
      ∀ s, op.entered = some s → e.state.rank < s.rank ∧ e'.state = s := by
  rcases call_eq_ok h with ⟨n, rfl, -, hs, rfl⟩ | ⟨rfl, -, hs, rfl⟩ | ⟨rfl, -, rfl⟩ |
    ⟨rfl, -, hs, rfl⟩ | ⟨sz, rfl, -, -, rfl⟩ | ⟨sz, rfl, -, -, rfl⟩
  · simp [hs, EarlyDataState.rank, Op.entered]
  · simp [hs, EarlyDataState.rank, Op.entered]
  · -- `rejected()` has no guard: it ends every handshake, whatever its state
    refine ⟨?_, by simp [Op.entered]⟩
    cases e.state <;> simp [EarlyDataState.rank]
  · simp [hs, EarlyDataState.rank, Op.entered]
  all_goals simp [Op.entered]

/-- The guards of `enable`, `accepted` and `finished` keep the handshake in order: in every run
the steps that return enter `Ready`, `Accepted` and `AcceptedFinished` in that order, each at
most once, between the state the run started in and the one it reached. -/
theorem run_steps_in_order (e : EarlyData) (ops : List Op) :
    ((run e ops).returned.filterMap (·.1.entered)).Pairwise (·.rank < ·.rank) ∧
    ∀ s ∈ (run e ops).returned.filterMap (·.1.entered),
      e.state.rank < s.rank ∧ s.rank ≤ (run e ops).reached.state.rank := by
  have h := run_invariant
    (fun e' rs => e.state.rank ≤ e'.state.rank ∧
      (rs.filterMap (·.1.entered)).Pairwise (·.rank < ·.rank) ∧
      ∀ s ∈ rs.filterMap (·.1.entered), e.state.rank < s.rank ∧ s.rank ≤ e'.state.rank)
    (fun {_ _ op _ _} ⟨hle, hp, hs⟩ hc => by
      obtain ⟨hmono, hstep⟩ := call_rank hc
      cases hen : op.entered with
      | none =>
        simp only [List.filterMap_append, List.filterMap_cons, hen, List.filterMap_nil,
          List.append_nil]
        exact ⟨Nat.le_trans hle hmono, hp,
          fun s hm => ⟨(hs s hm).1, Nat.le_trans (hs s hm).2 hmono⟩⟩
      | some s =>
        obtain ⟨hlt, hst⟩ := hstep s hen
        simp only [List.filterMap_append, List.filterMap_cons, hen, List.filterMap_nil,
          List.pairwise_append, List.pairwise_singleton, List.mem_append, List.mem_singleton]
        refine ⟨Nat.le_trans hle hmono, ⟨hp, trivial, fun a ha b hb => hb ▸ by
          have := (hs a ha).2; omega⟩, fun a ha => ?_⟩
        rcases ha with ha | rfl
        · have := hs a ha; omega
        · rw [hst]; exact ⟨by omega, le_rfl⟩)
    e [] ⟨le_rfl, .nil, nofun⟩ ops
  simpa using h.2

end Order

end EarlyData
end Clipper.Rustls
