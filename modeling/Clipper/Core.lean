import Mathlib.Data.Nat.Defs
import Mathlib.Data.Stream.Defs

/-! Rust standard-library behaviour the models share: `Poll`, `Result`, `io::Error`,
the panics the modelled code can raise, and its checked `usize` arithmetic and slicing.
A `usize` is a `Nat`: every operation modelled here stays below its operands. -/
namespace Clipper

/-- `std::task::Poll`. -/
inductive Poll (α : Type) where
  | ready (a : α)
  | pending
  deriving DecidableEq, Repr

/-- `core::result::Result`. -/
inductive Result (α ε : Type) where
  | ok (a : α)
  | err (e : ε)
  deriving DecidableEq, Repr

/-- `Result::map_err`. -/
def Result.mapErr {α ε ε' : Type} (f : ε → ε') : Result α ε → Result α ε'
  | .ok a => .ok a
  | .err e => .err (f e)

/-- The `std::io::ErrorKind`s the modelled code produces. -/
inductive ErrorKind where
  | invalidInput
  | other
  deriving DecidableEq, Repr

/-- `std::io::Error`, known by its kind. -/
structure IoError where
  kind : ErrorKind
  deriving DecidableEq, Repr

abbrev IoResult (α : Type) := Result α IoError

/-- What made a call panic: the macro, or the language check, that fired. -/
inductive Panic where
  | assertEq
  | debugAssert
  | explicit (msg : String)
  | unreachable
  | sliceEndIndexLen (index len : Nat)
  | subtractWithOverflow
  | unwrapErr
  deriving DecidableEq, Repr

/-- The build profile: whether `debug_assertions` are on, and `cfg!(test)`. -/
structure Build where
  debugAssertions : Bool
  cfgTest : Bool
  deriving DecidableEq, Repr

namespace Build

def dev : Build := ⟨true, false⟩
def release : Build := ⟨false, false⟩
def test : Build := ⟨true, true⟩

end Build

/-- `assert_eq!(a, b)`. -/
def assertEq {α : Type} [DecidableEq α] (a b : α) : Except Panic Unit :=
  if a = b then pure () else throw .assertEq

/-- `debug_assert!(cond)`: checked only when debug assertions are on. -/
def debugAssert (b : Build) (cond : Bool) : Except Panic Unit :=
  if b.debugAssertions && !cond then throw .debugAssert else pure ()

/-- `usize::checked_sub`. -/
def checkedSub (a b : Nat) : Option Nat :=
  if b ≤ a then some (a - b) else none

/-- `a -= b` on a `usize`, which panics below zero (the debug-build check). -/
def subAssign (a b : Nat) : Except Panic Nat :=
  if b ≤ a then pure (a - b) else throw .subtractWithOverflow

/-- `&data[..stop]`. -/
def sliceTo {α : Type} (data : List α) (stop : Nat) : Except Panic (List α) :=
  if stop ≤ data.length then pure (data.take stop) else throw (.sliceEndIndexLen stop data.length)

section ExceptNormalForm
variable {ε α β : Type}

@[simp] theorem except_pure_eq_ok (a : α) : (pure a : Except ε α) = .ok a := rfl
@[simp] theorem except_throw_eq_error (e : ε) : (throw e : Except ε α) = .error e := rfl
@[simp] theorem except_map_ok (f : α → β) (a : α) : f <$> (.ok a : Except ε α) = .ok (f a) := rfl
@[simp] theorem except_map_error (f : α → β) (e : ε) : f <$> (.error e : Except ε α) = .error e :=
  rfl
@[simp] theorem except_bind_ok (a : α) (f : α → Except ε β) : (.ok a : Except ε α) >>= f = f a :=
  rfl
@[simp] theorem except_bind_error (e : ε) (f : α → Except ε β) :
    (.error e : Except ε α) >>= f = .error e := rfl

end ExceptNormalForm

theorem bind_eq_ok {ε α β : Type} {x : Except ε α} {f : α → Except ε β} {b : β} :
    x >>= f = .ok b ↔ ∃ a, x = .ok a ∧ f a = .ok b := by
  cases x <;> simp [bind, Except.bind]

@[simp] theorem assertEq_self {α : Type} [DecidableEq α] (a : α) : assertEq a a = pure () := by
  simp [assertEq]

theorem assertEq_ne {α : Type} [DecidableEq α] {a b : α} (h : a ≠ b) :
    assertEq a b = throw .assertEq := by
  simp [assertEq, h]

theorem checkedSub_eq_some {a b c : Nat} : checkedSub a b = some c ↔ b ≤ a ∧ c = a - b := by
  unfold checkedSub
  split <;> simp [eq_comm] <;> omega

theorem checkedSub_eq_none {a b : Nat} : checkedSub a b = none ↔ a < b := by
  unfold checkedSub
  split <;> simp_all

theorem subAssign_of_le {a b : Nat} (h : b ≤ a) : subAssign a b = pure (a - b) := by
  simp [subAssign, h]

theorem sliceTo_of_le {α : Type} {data : List α} {stop : Nat} (h : stop ≤ data.length) :
    sliceTo data stop = pure (data.take stop) := by
  simp [sliceTo, h]

/-- A slice is cut out exactly when its end is within the data. -/
theorem sliceTo_ok_iff {α : Type} {data : List α} {stop : Nat} :
    (∃ s, sliceTo data stop = .ok s) ↔ stop ≤ data.length := by
  unfold sliceTo
  split <;> simp_all [pure, Except.pure, throw, throwThe, MonadExceptOf.throw, Except.error]

end Clipper
