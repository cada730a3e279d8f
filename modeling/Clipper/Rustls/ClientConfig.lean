import Clipper.Core

/-! `ClientConfig::set_mtu` from `rustls/src/client/mod.rs`. `fragmenter::PACKET_OVERHEAD`
is not in src/: it is the parameter `packetOverhead` (the doc comment of `set_mtu` puts it
at 5). -/
namespace Clipper.Rustls

/-- The part of `ClientConfig` that `set_mtu` writes and `ClientConnection::new_inner` reads. -/
structure ClientConfig where
  mtu : Option Nat
  deriving DecidableEq, Repr

namespace ClientConfig
variable (packetOverhead : Nat)

/-- The text of the `warn!` in `set_mtu`. -/
def mtuWarning : String :=
  "MTU must be greater than " ++ toString packetOverhead ++ " bytes. Setting to default."

/-- `set_mtu`: the updated config and the warnings logged. -/
def setMtu (b : Build) (self : ClientConfig) (mtu : Option Nat) :
    Except Panic (ClientConfig × List String) :=
  match mtu with
  | some x => do
    if !b.cfgTest then debugAssert b (decide (x > packetOverhead))
    let self := { self with mtu := checkedSub x packetOverhead }
    if self.mtu.isNone then pure (self, [mtuWarning packetOverhead]) else pure (self, [])
  | none => pure ({ self with mtu := none }, [])

/-- `set_mtu(&Some(x))` in closed form: the `debug_assert!` fires only in a debug build
outside `cfg!(test)`; otherwise the MTU becomes `x.checked_sub(PACKET_OVERHEAD)`, with the
warning exactly when that is `None`. -/
theorem setMtu_some (b : Build) (self : ClientConfig) (x : Nat) :
    setMtu packetOverhead b self (some x) =
      if b.debugAssertions && !b.cfgTest && !decide (packetOverhead < x) then .error .debugAssert
      else .ok (⟨checkedSub x packetOverhead⟩,
        if x < packetOverhead then [mtuWarning packetOverhead] else []) := by
  by_cases hlt : x < packetOverhead
  · have hle : ¬packetOverhead < x := by omega
    rcases b with ⟨_ | _, _ | _⟩ <;> simp [setMtu, debugAssert, checkedSub, hlt, hle]
  · have hle : packetOverhead ≤ x := by omega
    rcases b with ⟨_ | _, _ | _⟩ <;> simp [setMtu, debugAssert, checkedSub, hlt, hle]
    by_cases heq : x ≤ packetOverhead <;> simp [heq]

/-- The crate's own test `too_small_mtu`: under `cfg(test)`, `set_mtu(&Some(1))` leaves no MTU. -/
example : setMtu 5 .test ⟨some 3⟩ (some 1) = .ok (⟨none⟩, [mtuWarning 5]) := rfl

/-- At `x = PACKET_OVERHEAD` a release or test build stores `Some(0)` and logs nothing;
only a debug build outside tests stops, at the `debug_assert!`. -/
theorem setMtu_packetOverhead (self : ClientConfig) :
    setMtu packetOverhead .release self (some packetOverhead) = .ok (⟨some 0⟩, []) ∧
    setMtu packetOverhead .test self (some packetOverhead) = .ok (⟨some 0⟩, []) ∧
    setMtu packetOverhead .dev self (some packetOverhead) = .error .debugAssert := by
  simp [setMtu_some, Build.release, Build.test, Build.dev, checkedSub]

/-- What `set_mtu(&Some(x))` stores whenever it returns: `None` with the warning below
`PACKET_OVERHEAD`, `Some(0)` without one at it, and `Some(x - PACKET_OVERHEAD) ≥ 1` above. -/
theorem setMtu_some_stores {b : Build} {self cfg : ClientConfig} {x : Nat} {ws : List String}
    (h : setMtu packetOverhead b self (some x) = .ok (cfg, ws)) :
    (x < packetOverhead ∧ cfg.mtu = none ∧ ws = [mtuWarning packetOverhead]) ∨
    (x = packetOverhead ∧ cfg.mtu = some 0 ∧ ws = []) ∨
    (packetOverhead < x ∧ cfg.mtu = some (x - packetOverhead) ∧ 1 ≤ x - packetOverhead ∧
      ws = []) := by
  rw [setMtu_some] at h
  split at h
  · cases h
  · obtain ⟨rfl, rfl⟩ := Prod.mk.inj (Except.ok.inj h)
    rcases Nat.lt_trichotomy x packetOverhead with hx | rfl | hx
    · exact .inl ⟨hx, checkedSub_eq_none.mpr hx, by simp [hx]⟩
    · exact .inr (.inl ⟨rfl, by simp [checkedSub]⟩)
    · have hn : ¬x < packetOverhead := by omega
      exact .inr (.inr ⟨hx, checkedSub_eq_some.mpr ⟨by omega, rfl⟩, by omega, by simp [hn]⟩)

theorem setMtu_some_stores_six :
    setMtu 5 .release ⟨none⟩ (some 6) = .ok (⟨some 1⟩, []) ∧
      ((6 < 5 ∧ (⟨some 1⟩ : ClientConfig).mtu = none ∧ ([] : List String) = [mtuWarning 5]) ∨
        (6 = 5 ∧ (⟨some 1⟩ : ClientConfig).mtu = some 0 ∧ ([] : List String) = []) ∨
        (5 < 6 ∧ (⟨some 1⟩ : ClientConfig).mtu = some (6 - 5) ∧ 1 ≤ 6 - 5 ∧
          ([] : List String) = [])) := by
  have h : setMtu 5 .release ⟨none⟩ (some 6) = .ok (⟨some 1⟩, []) := rfl
  exact ⟨h, setMtu_some_stores 5 h⟩

end ClientConfig
end Clipper.Rustls
